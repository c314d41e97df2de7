import FieldScript.Proofs.InStep

/-!
# FieldScript.Proofs.AlikePrograms

Alike programs run in step.

Programs are alike if they are the same up to places and numbers.  The proof that they
run in step follows their syntax; what functions do is a parameter on both sides, about
which nothing is known but that calls of the same function with alike arguments are in
step (`CallersInStep`).
-/

namespace FieldScript

/-! ## alike syntax -/

section Relations

variable (L : Likeness)

mutual

inductive Expr.Alike : Expr → Expr → Prop where
  | literal {r r' : Range} (hr : L.range r r') {lit lit' : Literal}
      (hlit : L.value lit.value lit'.value) : Alike (.literal r lit) (.literal r' lit')
  | variable {r r' : Range} (hr : L.range r r') {n n' : Name} (hn : n.Alike L n') :
      Alike (.variable r n) (.variable r' n')
  | field {r r' : Range} (hr : L.range r r') {target target' : Expr}
      (ht : Alike target target') {n n' : Name} (hn : n.Alike L n') :
      Alike (.field r target n) (.field r' target' n')
  | call {r r' : Range} (hr : L.range r r') {callee callee' : Expr} (hc : Alike callee callee')
      {ar ar' : Range} (har : L.range ar ar') {args args' : List Expr}
      (ha : AlikeList args args') : Alike (.call r callee ar args) (.call r' callee' ar' args')
  | not {r r' : Range} (hr : L.range r r') {inner inner' : Expr} (hi : Alike inner inner') :
      Alike (.not r inner) (.not r' inner')
  | eq {r r' : Range} (hr : L.range r r') {a a' b b' : Expr} (ha : Alike a a')
      (hb : Alike b b') : Alike (.eq r a b) (.eq r' a' b')

inductive Expr.AlikeList : List Expr → List Expr → Prop where
  | nil : AlikeList [] []
  | cons {e e' : Expr} {rest rest' : List Expr} (he : Alike e e')
      (hrest : AlikeList rest rest') : AlikeList (e :: rest) (e' :: rest')

end

mutual

inductive Instr.Alike : Instr → Instr → Prop where
  | declare {r r' : Range} (hr : L.range r r') {n n' : Name} (hn : n.Alike L n')
      {e e' : Expr} (he : e.Alike L e') : Alike (.declare r n e) (.declare r' n' e')
  | assign {r r' : Range} (hr : L.range r r') {n n' : Name} (hn : n.Alike L n')
      {e e' : Expr} (he : e.Alike L e') : Alike (.assign r n e) (.assign r' n' e')
  | setField {r r' : Range} (hr : L.range r r') {target target' : Expr}
      (ht : target.Alike L target') {n n' : Name} (hn : n.Alike L n') {e e' : Expr}
      (he : e.Alike L e') : Alike (.setField r target n e) (.setField r' target' n' e')
  | classDecl {r r' : Range} (hr : L.range r r') {n n' : Name} (hn : n.Alike L n') :
      Alike (.classDecl r n) (.classDecl r' n')
  | ifThen {r r' : Range} (hr : L.range r r') {test test' : Expr} (ht : test.Alike L test')
      {body body' : Block} (hb : AlikeBlock body body') :
      Alike (.ifThen r test body) (.ifThen r' test' body')
  | ifElse {r r' : Range} (hr : L.range r r') {test test' : Expr} (ht : test.Alike L test')
      {body body' : Block} (hb : AlikeBlock body body') {otherwise otherwise' : Block}
      (ho : AlikeBlock otherwise otherwise') :
      Alike (.ifElse r test body otherwise) (.ifElse r' test' body' otherwise')
  | eval {r r' : Range} (hr : L.range r r') {e e' : Expr} (he : e.Alike L e') :
      Alike (.eval r e) (.eval r' e')

inductive Instr.AlikeBlock : Block → Block → Prop where
  | mk {r r' : Range} (hr : L.range r r') {is is' : List Instr} (hi : AlikeList is is') :
      AlikeBlock (.mk r is) (.mk r' is')

inductive Instr.AlikeList : List Instr → List Instr → Prop where
  | nil : AlikeList [] []
  | cons {i i' : Instr} {rest rest' : List Instr} (hi : Alike i i')
      (hrest : AlikeList rest rest') : AlikeList (i :: rest) (i' :: rest')

end

/-- Calls of the same function with alike arguments are in step. -/
def CallersInStep (call call' : Caller) : Prop :=
  ∀ ⦃site site' : Location⦄ (ref : FunctionRef) ⦃args args' : List Located⦄,
    site.Alike L site' → List.Forall₂ (Located.Alike L) args args' →
      InStep L L.value (call site ref args) (call' site' ref args')

end Relations

variable {L : Likeness}

/-- Alike expressions stand at related places. -/
theorem Expr.Alike.range {e e' : Expr} (h : e.Alike L e') : L.range e.range e'.range := by
  cases h <;> assumption

/-- Alike programs have as many instructions as each other. -/
theorem Instr.AlikeList.length_eq {is is' : List Instr} (h : Instr.AlikeList L is is') :
    is.length = is'.length := by
  induction is generalizing is' with
  | nil => cases h; rfl
  | cons i rest ih =>
      cases h with
      | cons _ hrest => rw [List.length_cons, List.length_cons, ih hrest]

/-! ### everything is like itself -/

mutual

/-- An expression is like itself in every likeness, by structure. -/
theorem Expr.Alike.refl (L : Likeness) : (e : Expr) → e.Alike L e
  | .literal r lit => .literal (L.range_refl r) (L.value_refl lit.value)
  | .variable r n => .variable (L.range_refl r) (.refl L n)
  | .field r target n => .field (L.range_refl r) (Expr.Alike.refl L target) (.refl L n)
  | .call r callee ar args =>
      .call (L.range_refl r) (Expr.Alike.refl L callee) (L.range_refl ar)
        (Expr.AlikeList.refl L args)
  | .not r inner => .not (L.range_refl r) (Expr.Alike.refl L inner)
  | .eq r a b => .eq (L.range_refl r) (Expr.Alike.refl L a) (Expr.Alike.refl L b)

theorem Expr.AlikeList.refl (L : Likeness) : (es : List Expr) → Expr.AlikeList L es es
  | [] => .nil
  | e :: rest => .cons (Expr.Alike.refl L e) (Expr.AlikeList.refl L rest)

end

mutual

/-- An instruction is like itself in every likeness, by structure. -/
theorem Instr.Alike.refl (L : Likeness) : (i : Instr) → i.Alike L i
  | .declare r n e => .declare (L.range_refl r) (.refl L n) (.refl L e)
  | .assign r n e => .assign (L.range_refl r) (.refl L n) (.refl L e)
  | .setField r target n e => .setField (L.range_refl r) (.refl L target) (.refl L n) (.refl L e)
  | .classDecl r n => .classDecl (L.range_refl r) (.refl L n)
  | .ifThen r test body => .ifThen (L.range_refl r) (.refl L test) (Instr.AlikeBlock.refl L body)
  | .ifElse r test body otherwise =>
      .ifElse (L.range_refl r) (.refl L test) (Instr.AlikeBlock.refl L body)
        (Instr.AlikeBlock.refl L otherwise)
  | .eval r e => .eval (L.range_refl r) (.refl L e)

theorem Instr.AlikeBlock.refl (L : Likeness) : (b : Block) → Instr.AlikeBlock L b b
  | .mk r is => .mk (L.range_refl r) (Instr.AlikeList.refl L is)

theorem Instr.AlikeList.refl (L : Likeness) : (is : List Instr) → Instr.AlikeList L is is
  | [] => .nil
  | i :: rest => .cons (Instr.Alike.refl L i) (Instr.AlikeList.refl L rest)

end

/-! ## steps of programs -/

section Steps

/-- Alike values are the same reference to an instance, or neither is one. -/
theorem inStep_expectInstance {v v' : Value} (hv : L.value v v') {r r' : Range}
    (hr : L.range r r') : InStep L Eq (expectInstance v r) (expectInstance v' r') := by
  obtain rfl | ⟨x, x', rfl, rfl⟩ := L.value_cases hv
  · cases v with
    | inst ref => exact inStep_pure rfl
    | null | bool | int | float | string | cls | fn => exact inStep_fail (.source hr) _ _
  · exact inStep_fail (.source hr) _ _

/-- Alike values are the same truth value, or neither is one. -/
theorem inStep_expectBool {v v' : Value} (hv : L.value v v') {r r' : Range}
    (hr : L.range r r') : InStep L Eq (expectBool r v) (expectBool r' v') := by
  obtain rfl | ⟨x, x', rfl, rfl⟩ := L.value_cases hv
  · cases v with
    | bool b => exact inStep_pure rfl
    | null | int | float | string | cls | inst | fn => exact inStep_fail (.source hr) _ _
  · exact inStep_fail (.source hr) _ _

/-- The errors on an absent field of alike classes are alike. -/
theorem inStep_missingField {α β : Type} {R : α → β → Prop} {c c' : ClassInfo}
    (hc : c.Alike L c') {n n' : Name} (hn : n.Alike L n') :
    InStep L R
      (Exec.fail (.source n.range) (.undefinedField c.name n.text) (missingFieldInfos c))
      (Exec.fail (.source n'.range) (.undefinedField c'.name n'.text) (missingFieldInfos c')) := by
  intro m m' hw _
  rw [← hc.name, ← hn.text]
  have hinfos : InfosAlike L (missingFieldInfos c) (missingFieldInfos c') :=
    .inr ⟨c, c', hc, rfl, rfl⟩
  exact .stopped (.error (hw.context.error (.source hn.range) _ hinfos)) (.refl hw)

/-- A field of the same instance has alike values in alike stores, or neither store has it and the
errors are alike. -/
theorem inStep_readField {v v' : Value} (hv : L.value v v') {r r' : Range} (hr : L.range r r')
    {n n' : Name} (hn : n.Alike L n') :
    InStep L L.value (readField v r n) (readField v' r' n') := by
  refine (inStep_expectInstance hv hr).bind fun ref _ href => ?_
  subst href
  refine inStep_store_bind fun s s' hs => ?_
  have hfield : Option.Rel L.value (s.field? ref n.text) (s'.field? ref n'.text) :=
    hn.text ▸ hs.field? ref n.text
  generalize s.field? ref n.text = x at hfield
  generalize s'.field? ref n'.text = y at hfield
  cases hfield with
  | some hvalue => exact inStep_pure hvalue
  | none =>
      have hcls := hs.classOf ref
      refine (inStep_emit (.fieldMissed ref hcls hn)).bind fun _ _ _ => ?_
      exact inStep_missingField hcls hn

/-- Alike values go into the same field of the same instance. -/
theorem inStep_writeField {v v' : Value} (hv : L.value v v') {r r' : Range} (hr : L.range r r')
    {n n' : Name} (hn : n.Alike L n') {u u' : Value} (hu : L.value u u') :
    InStep L Eq (writeField v r n u) (writeField v' r' n' u') := by
  refine (inStep_expectInstance hv hr).bind fun ref _ href => ?_
  subst href
  rw [hn.text]
  exact inStep_emit (.fieldSet ref _ hu)

/-- Names that are spelled the same are found in alike scopes, or in neither. -/
theorem inStep_readVariable {n n' : Name} (hn : n.Alike L n') :
    InStep L L.value (readVariable n) (readVariable n') := by
  refine inStep_context_bind fun c c' hc => ?_
  have hget := hc.frames.get? n.text
  rw [← hn.text]
  generalize c.get? n.text = x at hget
  generalize c'.get? n.text = y at hget
  cases hget with
  | some hv => exact inStep_pure hv.value
  | none => exact inStep_fail (.source hn.range) _ _

/-- Alike scopes take an assignment, or both refuse it for the same reason. -/
theorem inStep_assignVariable {n n' : Name} (hn : n.Alike L n') {v v' : Located}
    (hv : v.Alike L v') : InStep L Eq (assignVariable n v) (assignVariable n' v') := by
  refine inStep_context_bind fun c c' hc => ?_
  rw [← hn.text]
  obtain ⟨d, d', hd, hd', _⟩ | ⟨hd, hd'⟩ | ⟨hd, hd'⟩ := hc.assign n.text hv
  · rw [hd, hd']
    exact inStep_emit (.assigned n.text hv)
  · rw [hd, hd']
    exact inStep_fail (.source hn.range) _ _
  · rw [hd, hd']
    exact inStep_fail (.source hn.range) _ _

/-- Both classes get the same reference, since alike stores have as many classes as each other. -/
theorem inStep_declareClass {n n' : Name} (hn : n.Alike L n') :
    InStep L Eq (declareClass n) (declareClass n') := by
  refine inStep_nextClass.bind fun ref _ href => ?_
  subst href
  rw [← hn.text]
  have hcls : (ClassInfo.mk n.text n.range).Alike L ⟨n.text, n'.range⟩ := ⟨rfl, hn.range⟩
  have hbound : (Located.mk (.cls ref) (.source n.range)).Alike L ⟨.cls ref, .source n'.range⟩ :=
    ⟨L.value_refl _, .source hn.range⟩
  refine (inStep_emit (.classCreated hcls)).bind fun _ _ _ => ?_
  exact inStep_emit (.declared n.text hbound)

/-- Both instances get the same reference, or both have got arguments, as many as each other. -/
theorem inStep_instantiate {r r' : Range} (hr : L.range r r') (cls : ClassRef)
    {args args' : List Located} (ha : List.Forall₂ (Located.Alike L) args args') :
    InStep L L.value (instantiate r cls args) (instantiate r' cls args') := by
  refine inStep_store_bind fun s s' hs => ?_
  rw [(hs.cls cls).name]
  cases ha with
  | cons _ hrest =>
      simp only [List.length_cons, hrest.length_eq]
      exact inStep_fail (.source hr) _ _
  | nil =>
      refine inStep_nextInstance.bind fun ref _ href => ?_
      subst href
      exact (inStep_emit (.instantiated cls _)).bind fun _ _ _ => inStep_pure (L.value_refl _)

variable {call call' : Caller}

/-- What is called is the same function or class, or nothing that can be called on both sides. -/
theorem inStep_callValue (hcall : CallersInStep L call call') {r r' : Range}
    (hr : L.range r r') {cr cr' : Range} (hcr : L.range cr cr') {v v' : Value}
    (hv : L.value v v') {args args' : List Located}
    (ha : List.Forall₂ (Located.Alike L) args args') :
    InStep L L.value (callValue call r cr v args) (callValue call' r' cr' v' args') := by
  obtain rfl | ⟨x, x', rfl, rfl⟩ := L.value_cases hv
  · cases v with
    | fn ref => exact hcall ref (.source hr) ha
    | cls ref => exact inStep_instantiate hr ref ha
    | null | bool | int | float | string | inst => exact inStep_fail (.source hcr) _ _
  · exact inStep_fail (.source hcr) _ _

/-! ## expressions and instructions -/

mutual

/-- Alike expressions are evaluated in step. -/
theorem Expr.inStep_eval (hcall : CallersInStep L call call') :
    {e e' : Expr} → e.Alike L e' → InStep L L.value (e.eval call) (e'.eval call')
  | _, _, .literal _ hlit => by
      rw [Expr.eval, Expr.eval]
      exact inStep_pure hlit
  | _, _, .variable _ hn => by
      rw [Expr.eval, Expr.eval]
      exact inStep_readVariable hn
  | _, _, .field _ ht hn => by
      rw [Expr.eval, Expr.eval]
      refine (Expr.inStep_eval hcall ht).bind fun _ _ hv => ?_
      exact inStep_readField hv ht.range hn
  | _, _, .call hr hc _ ha => by
      rw [Expr.eval, Expr.eval]
      refine (Expr.inStep_eval hcall hc).bind fun _ _ hv => ?_
      refine (Expr.inStep_evalList hcall ha).bind fun _ _ hargs => ?_
      exact inStep_callValue hcall hr hc.range hv hargs
  | _, _, .not _ hi => by
      rw [Expr.eval, Expr.eval]
      refine (Expr.inStep_eval hcall hi).bind fun _ _ hv => ?_
      refine (inStep_expectBool hv hi.range).bind fun b _ hb => ?_
      subst hb
      exact inStep_pure (L.value_refl _)
  | _, _, .eq _ ha hb => by
      rw [Expr.eval, Expr.eval]
      refine (Expr.inStep_eval hcall ha).bind fun _ _ hv => ?_
      refine (Expr.inStep_eval hcall hb).bind fun _ _ hu => ?_
      rw [L.value_same hv hu]
      exact inStep_pure (L.value_refl _)

/-- So are alike arguments, and the lists of their values are alike. -/
theorem Expr.inStep_evalList (hcall : CallersInStep L call call') :
    {es es' : List Expr} → Expr.AlikeList L es es' →
      InStep L (List.Forall₂ (Located.Alike L)) (Expr.evalList call es) (Expr.evalList call' es')
  | _, _, .nil => by
      rw [Expr.evalList, Expr.evalList]
      exact inStep_pure .nil
  | _, _, .cons he hrest => by
      rw [Expr.evalList, Expr.evalList]
      refine (Expr.inStep_eval hcall he).bind fun _ _ hv => ?_
      refine (Expr.inStep_evalList hcall hrest).bind fun _ _ hvs => ?_
      exact inStep_pure (.cons ⟨hv, .source he.range⟩ hvs)

end

mutual

/-- Alike instructions run in step, the blocks in them included. -/
theorem Instr.inStep_run (hcall : CallersInStep L call call') :
    {i i' : Instr} → i.Alike L i' →
      InStep L (Option.Rel (Located.Alike L)) (i.run call) (i'.run call')
  | _, _, .declare _ hn he => by
      rw [Instr.run, Instr.run, ← hn.text]
      refine (Expr.inStep_eval hcall he).bind fun _ _ hv => ?_
      refine (inStep_emit (.declared _ ⟨hv, .source he.range⟩)).bind fun _ _ _ => ?_
      exact inStep_pure .none
  | _, _, .assign _ hn he => by
      rw [Instr.run, Instr.run]
      refine (Expr.inStep_eval hcall he).bind fun _ _ hv => ?_
      refine (inStep_assignVariable hn ⟨hv, .source he.range⟩).bind fun _ _ _ => ?_
      exact inStep_pure .none
  | _, _, .setField _ ht hn he => by
      rw [Instr.run, Instr.run]
      refine (Expr.inStep_eval hcall ht).bind fun _ _ howner => ?_
      refine (Expr.inStep_eval hcall he).bind fun _ _ hv => ?_
      refine (inStep_writeField howner ht.range hn hv).bind fun _ _ _ => ?_
      exact inStep_pure .none
  | _, _, .classDecl _ hn => by
      rw [Instr.run, Instr.run]
      exact (inStep_declareClass hn).bind fun _ _ _ => inStep_pure .none
  | _, _, .ifThen _ ht hb => by
      rw [Instr.run, Instr.run]
      refine (Expr.inStep_eval hcall ht).bind fun _ _ hv => ?_
      refine (inStep_expectBool hv ht.range).bind fun holds _ hholds => ?_
      subst hholds
      cases holds with
      | true => exact Instr.inStep_runBlock hcall hb
      | false => exact inStep_pure .none
  | _, _, .ifElse _ ht hb ho => by
      rw [Instr.run, Instr.run]
      refine (Expr.inStep_eval hcall ht).bind fun _ _ hv => ?_
      refine (inStep_expectBool hv ht.range).bind fun holds _ hholds => ?_
      subst hholds
      cases holds with
      | true => exact Instr.inStep_runBlock hcall hb
      | false => exact Instr.inStep_runBlock hcall ho
  | _, _, .eval _ he => by
      rw [Instr.run, Instr.run]
      refine (Expr.inStep_eval hcall he).bind fun _ _ hv => ?_
      exact inStep_pure (.some ⟨hv, .source he.range⟩)

theorem Instr.inStep_runBlock (hcall : CallersInStep L call call') :
    {b b' : Block} → Instr.AlikeBlock L b b' →
      InStep L (Option.Rel (Located.Alike L)) (b.run call) (b'.run call')
  | _, _, .mk _ hi => by
      rw [Block.run, Block.run]
      exact inStep_inBlock (Instr.inStep_runList hcall .none hi)

/-- Alike lists of instructions run in step from alike values of the latest instruction. -/
theorem Instr.inStep_runList (hcall : CallersInStep L call call') {v v' : Option Located}
    (hv : Option.Rel (Located.Alike L) v v') :
    {is is' : List Instr} → Instr.AlikeList L is is' →
      InStep L (Option.Rel (Located.Alike L)) (Instr.runList call v is)
        (Instr.runList call' v' is')
  | _, _, .nil => by
      rw [Instr.runList, Instr.runList]
      exact inStep_pure hv
  | _, _, .cons hi hrest => by
      rw [Instr.runList, Instr.runList]
      refine (Instr.inStep_run hcall hi).bind fun _ _ hu => ?_
      exact Instr.inStep_runList hcall hu hrest

end

end Steps

/-! ## programs -/

/-- Alike programs run in step, whether they complete or fail. -/
theorem Program.inStep_run {call call' : Caller} (hcall : CallersInStep L call call')
    {program program' : Program} (h : Instr.AlikeList L program program') :
    InStep L (Option.Rel (Located.Alike L)) (program.run call) (program'.run call') := by
  unfold Program.run
  rw [h.length_eq]
  refine (inStep_emit (.programStarted _)).bind fun _ _ _ => ?_
  refine (Instr.inStep_runList hcall .none h).settle_bind (fun o o' ho => ?_) (.inr fun e m => ?_)
  · cases ho with
    | ok hv =>
        refine (inStep_emit .programCompleted).bind fun _ _ _ => ?_
        exact inStep_pure hv
    | error he =>
        refine (inStep_emit (.programAborted he)).bind fun _ _ _ => ?_
        exact inStep_throw (.error he)
  · exact ending_bind_resume_error_ne_done (Exec.emit (.programAborted e)) e m

end FieldScript
