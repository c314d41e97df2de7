import FieldScript.Proofs.AlikeNatives
import FieldScript.Proofs.Sameness
import FieldScript.Proofs.BlockExit

/-!
# FieldScript.Proofs.SignsOfZero

The sign of a zero decides nothing.

Programs that are the same may still write their zeros with different signs, and a program can
show the sign of a zero.  It cannot test it: zeros are equal, and no message tells a number.  So
programs that are the same run in step, with the library's own functions, in worlds whose numbers
differ in signs of zeros alone (`Likeness.upToZeros`): every branch is the same, and so is every
error.
-/

namespace FieldScript

/-! ## values up to the signs of zeros -/

namespace Value

/-- The value, with zero always positive. -/
def unsigned : Value → Value
  | .float x => .float x.unsigned
  | v => v

/-- The sign of a zero is not seen by a test. -/
theorem same_unsigned (a b : Value) : a.unsigned.same b.unsigned = a.same b := by
  cases a <;> cases b <;> simp [unsigned, same, Binary64.beq_unsigned]

theorem eq_or_floats_of_unsigned_eq {v v' : Value} (h : v.unsigned = v'.unsigned) :
    v = v' ∨ ∃ x x', v = .float x ∧ v' = .float x' := by
  cases v <;> cases v' <;> simp_all [unsigned]

end Value

theorem Literal.value_unsigned (lit : Literal) : lit.unsigned.value = lit.value.unsigned := by
  cases lit <;> rfl

/-- Nothing but the signs of zeros differs. -/
def Likeness.upToZeros (functions : Array Function) : Likeness :=
  { Likeness.strict Eq true .all functions with
    value := fun v v' => v.unsigned = v'.unsigned
    value_refl := fun _ => rfl
    value_cases := Value.eq_or_floats_of_unsigned_eq
    value_same := fun {a a' b b'} ha hb => by
      rw [← a.same_unsigned b, ← a'.same_unsigned b', ha, hb] }

/-! ## programs up to the signs of zeros -/

section Programs

variable {functions : Array Function}

theorem Name.alike_self (n : Name) : n.Alike (.upToZeros functions) n := .refl _ n

mutual

theorem Expr.alike_of_unsigned_eq : (a b : Expr) → a.unsigned = b.unsigned →
    a.Alike (.upToZeros functions) b
  | .literal _ lit, b, h => by
      cases b with
      | literal _ lit' =>
          simp only [unsigned, Expr.literal.injEq] at h
          refine .literal h.1 ?_
          show lit.value.unsigned = lit'.value.unsigned
          rw [← Literal.value_unsigned, ← Literal.value_unsigned, h.2]
      | _ => simp [unsigned] at h
  | .variable _ n, b, h => by
      cases b with
      | «variable» =>
          simp only [unsigned, Expr.variable.injEq] at h
          exact .variable h.1 (h.2 ▸ n.alike_self)
      | _ => simp [unsigned] at h
  | .field _ target n, b, h => by
      cases b with
      | field _ target' =>
          simp only [unsigned, Expr.field.injEq] at h
          exact .field h.1 (Expr.alike_of_unsigned_eq target target' h.2.1) (h.2.2 ▸ n.alike_self)
      | _ => simp [unsigned] at h
  | .call _ callee _ args, b, h => by
      cases b with
      | call _ callee' _ args' =>
          simp only [unsigned, Expr.call.injEq] at h
          exact .call h.1 (Expr.alike_of_unsigned_eq callee callee' h.2.1) h.2.2.1
            (Expr.alikeList_of_unsigned_eq args args' h.2.2.2)
      | _ => simp [unsigned] at h
  | .not _ inner, b, h => by
      cases b with
      | not _ inner' =>
          simp only [unsigned, Expr.not.injEq] at h
          exact .not h.1 (Expr.alike_of_unsigned_eq inner inner' h.2)
      | _ => simp [unsigned] at h
  | .eq _ left right, b, h => by
      cases b with
      | eq _ left' right' =>
          simp only [unsigned, Expr.eq.injEq] at h
          exact .eq h.1 (Expr.alike_of_unsigned_eq left left' h.2.1)
            (Expr.alike_of_unsigned_eq right right' h.2.2)
      | _ => simp [unsigned] at h

theorem Expr.alikeList_of_unsigned_eq : (as bs : List Expr) →
    Expr.unsignedList as = Expr.unsignedList bs → Expr.AlikeList (.upToZeros functions) as bs
  | [], [], _ => .nil
  | [], _ :: _, h | _ :: _, [], h => by simp [unsignedList] at h
  | a :: as, b :: bs, h => by
      simp only [unsignedList, List.cons.injEq] at h
      exact .cons (Expr.alike_of_unsigned_eq a b h.1) (Expr.alikeList_of_unsigned_eq as bs h.2)

end

mutual

theorem Instr.alike_of_unsigned_eq : (a b : Instr) → a.unsigned = b.unsigned →
    a.Alike (.upToZeros functions) b
  | .declare _ n init, b, h => by
      cases b with
      | declare _ _ init' =>
          simp only [Instr.unsigned, Instr.declare.injEq] at h
          exact .declare h.1 (h.2.1 ▸ n.alike_self) (init.alike_of_unsigned_eq init' h.2.2)
      | _ => simp [Instr.unsigned] at h
  | .assign _ n value, b, h => by
      cases b with
      | assign _ _ value' =>
          simp only [Instr.unsigned, Instr.assign.injEq] at h
          exact .assign h.1 (h.2.1 ▸ n.alike_self) (value.alike_of_unsigned_eq value' h.2.2)
      | _ => simp [Instr.unsigned] at h
  | .setField _ target n value, b, h => by
      cases b with
      | setField _ target' _ value' =>
          simp only [Instr.unsigned, Instr.setField.injEq] at h
          exact .setField h.1 (target.alike_of_unsigned_eq target' h.2.1)
            (h.2.2.1 ▸ n.alike_self) (value.alike_of_unsigned_eq value' h.2.2.2)
      | _ => simp [Instr.unsigned] at h
  | .classDecl _ n, b, h => by
      cases b with
      | classDecl =>
          simp only [Instr.unsigned, Instr.classDecl.injEq] at h
          exact .classDecl h.1 (h.2 ▸ n.alike_self)
      | _ => simp [Instr.unsigned] at h
  | .ifThen _ test body, b, h => by
      cases b with
      | ifThen _ test' body' =>
          simp only [Instr.unsigned, Instr.ifThen.injEq] at h
          exact .ifThen h.1 (test.alike_of_unsigned_eq test' h.2.1)
            (Block.alike_of_unsigned_eq body body' h.2.2)
      | _ => simp [Instr.unsigned] at h
  | .ifElse _ test body otherwise, b, h => by
      cases b with
      | ifElse _ test' body' otherwise' =>
          simp only [Instr.unsigned, Instr.ifElse.injEq] at h
          exact .ifElse h.1 (test.alike_of_unsigned_eq test' h.2.1)
            (Block.alike_of_unsigned_eq body body' h.2.2.1)
            (Block.alike_of_unsigned_eq otherwise otherwise' h.2.2.2)
      | _ => simp [Instr.unsigned] at h
  | .eval _ expr, b, h => by
      cases b with
      | eval _ expr' =>
          simp only [Instr.unsigned, Instr.eval.injEq] at h
          exact .eval h.1 (expr.alike_of_unsigned_eq expr' h.2)
      | _ => simp [Instr.unsigned] at h

theorem Block.alike_of_unsigned_eq : (a b : Block) → a.unsigned = b.unsigned →
    Instr.AlikeBlock (.upToZeros functions) a b
  | .mk _ instrs, .mk _ instrs', h => by
      simp only [Block.unsigned, Block.mk.injEq] at h
      exact .mk h.1 (Instr.alikeList_of_unsigned_eq instrs instrs' h.2)

theorem Instr.alikeList_of_unsigned_eq : (as bs : List Instr) →
    Instr.unsignedList as = Instr.unsignedList bs → Instr.AlikeList (.upToZeros functions) as bs
  | [], [], _ => .nil
  | [], _ :: _, h | _ :: _, [], h => by simp [Instr.unsignedList] at h
  | a :: as, b :: bs, h => by
      simp only [Instr.unsignedList, List.cons.injEq] at h
      exact .cons (Instr.alike_of_unsigned_eq a b h.1) (Instr.alikeList_of_unsigned_eq as bs h.2)

end

end Programs

/-! ## the library's own functions -/

/-- The language's own library sees nothing of a number, whatever the likeness. -/
theorem Store.OwnOnly.alike {L : Likeness} {s : Store} (hown : s.OwnOnly)
    (hs : s.functions = L.functions) (h : Host) : h.Alike L h where
  routine {t} ht ref c c' hc := by
    obtain hmem | hnone := t.fn_mem_or ref
    · rw [ht, ← hs] at hmem
      obtain hb | hb := hown _ hmem
      · rw [hb]
        exact Library.alike_clock hc
      · rw [hb]
        exact Library.alike_hasField hc
    · rw [hnone]
      exact .answer (L.value_refl _)
  clock := rfl

/-! ## runs -/

/-- Two runs were stopped for the very same reason, or both came to no value, or to values of
the same origin that differ in the signs of zeros alone. -/
inductive OutcomesAgree : Except Stop (Option Located) → Except Stop (Option Located) → Prop where
  | stopped (stop : Stop) : OutcomesAgree (.error stop) (.error stop)
  | nothing : OutcomesAgree (.ok none) (.ok none)
  | value {v v' : Value} (h : v.unsigned = v'.unsigned) (origin : Location) :
      OutcomesAgree (.ok (some ⟨v, origin⟩)) (.ok (some ⟨v', origin⟩))

section

variable {functions : Array Function}

theorem outcomesAgree_of_alike {o o' : Except Stop (Option Located)}
    (h : ResultsAlike (.upToZeros functions) (Option.Rel (Located.Alike (.upToZeros functions)))
      o o') : OutcomesAgree o o' := by
  cases h with
  | error hs =>
      rw [hs.eq id rfl]
      exact .stopped _
  | ok hv =>
      cases hv with
      | none => exact .nothing
      | @some v v' hv =>
          obtain ⟨value, origin⟩ := v
          obtain ⟨value', origin'⟩ := v'
          obtain rfl : origin = origin' := hv.origin.eq id
          exact .value hv.value origin

/-- Worlds that agree but for the signs of zeros still do so once programs have run in them that
agree but for the signs of zeros. -/
theorem Host.run_upToZeros (h : Host) (depth : Nat) {a b : Program}
    (hab : Instr.AlikeList (.upToZeros functions) a b) {w w' : World} (hown : w.store.OwnOnly)
    (hw : w.Alike (.upToZeros functions) w') :
    OutcomesAgree ((h.run depth a).result w).1 ((h.run depth b).result w').1 ∧
      ((h.run depth a).result w).2.Alike (.upToZeros functions) ((h.run depth b).result w').2 := by
  have hcall := (hown.alike hw.store.functions h).callersInStep (reportsInStep_malformed id)
    (.inl nofun) (Nat.le_refl depth) fun _ => rfl
  rw [Host.callReporting_malformed] at hcall
  obtain ⟨houtcome, hworld, _⟩ := (Program.inStep_run hcall hab).result hw (Extent.covers_all _)
  exact ⟨outcomesAgree_of_alike houtcome, hworld⟩

end

/-- The comparison of programs, ranges and all, is symmetric and transitive, and a program is the
same as itself just if none of its literals is a not-a-number.  Programs that are the same do the
same with the language's own library: run in one world, they fail with the very same error, or
both end, and then all values, variables and fields agree but for the signs of zeros. -/
theorem Host.same_congruence (h : Host) :
    (∀ a b : Block, a.same b = b.same a) ∧
      (∀ a b c : Block, a.same b = true → b.same c = true → a.same c = true) ∧
      (∀ a : Block, a.same a = true ↔ ∀ lit ∈ a.literals, lit.isNaN = false) ∧
      ∀ a b : Block, a.same b = true → ∀ (depth : Nat) (w : World), w.store.OwnOnly →
        let run := (h.run depth a.instrs).result w
        let run' := (h.run depth b.instrs).result w
        OutcomesAgree run.1 run'.1 ∧ run.2.Alike (.upToZeros w.store.functions) run'.2 := by
  refine ⟨Block.same_comm, fun _ _ _ => Block.same_trans, Block.same_self, ?_⟩
  rintro ⟨r, a⟩ ⟨r', b⟩ hsame depth w hown
  have hunsigned := ((Block.same_iff _ _).mp hsame).2.2
  simp only [Block.unsigned, Block.mk.injEq] at hunsigned
  have hw : w.Alike (.upToZeros w.store.functions) w := w.alike_with _ _ rfl rfl fun _ => rfl
  exact h.run_upToZeros depth (Instr.alikeList_of_unsigned_eq a b hunsigned.2) hown hw

/-- Sets a field to one number and comes to another. -/
def showsNumbers (field value : Binary64) : Block :=
  .mk .synthetic
    [.classDecl .synthetic ⟨.synthetic, "A"⟩,
      .declare .synthetic ⟨.synthetic, "a"⟩
        (.call .synthetic (.variable .synthetic ⟨.synthetic, "A"⟩) .synthetic []),
      .setField .synthetic (.variable .synthetic ⟨.synthetic, "a"⟩) ⟨.synthetic, "f"⟩
        (.literal .synthetic (.float field)),
      .eval .synthetic (.literal .synthetic (.float value))]

/-- The two zeros are shown differently by programs that are the same. -/
theorem Host.same_congruence_showsNumbers :
    let zero : Binary64 := ⟨0⟩
    let negativeZero : Binary64 := ⟨0x8000000000000000⟩
    let a := showsNumbers zero negativeZero
    let b := showsNumbers negativeZero zero
    let w := worldWith []
    let run := (failingHost.run 0 a.instrs).result w
    let run' := (failingHost.run 0 b.instrs).result w
    a.same b = true ∧ b.same a = true ∧ a.same a = true ∧ w.store.OwnOnly ∧
      run.1 ≠ run'.1 ∧ run.2.store.text (.inst ⟨0⟩) ≠ run'.2.store.text (.inst ⟨0⟩) ∧
      OutcomesAgree run.1 run'.1 ∧ run.2.Alike (.upToZeros w.store.functions) run'.2 := by
  intro zero negativeZero a b w run run'
  obtain ⟨hcomm, htrans, _, hruns⟩ := failingHost.same_congruence
  have hsame : a.same b = true := by decide +kernel
  have hsame' : b.same a = true := (hcomm b a).trans hsame
  have hown : w.store.OwnOnly := by decide +kernel
  obtain ⟨houtcome, hworld⟩ := hruns a b hsame 0 w hown
  exact ⟨hsame, hsame', htrans a b a hsame hsame', hown, by decide +kernel, by decide +kernel,
    houtcome, hworld⟩

end FieldScript
