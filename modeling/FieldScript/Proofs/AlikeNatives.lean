import FieldScript.Proofs.AlikeHosts
import FieldScript.Proofs.Natives

/-!
# FieldScript.Proofs.AlikeNatives

The functions of the library and of the host are alike.

A declared function is alike to another if its body is on alike arguments: arguments
suit on both sides or on none (`parseArgs_related`), and an unsuitable one is the same on
both.  Of the host's functions `inspect` shows the calls in progress and `probe` shows
places, so these two are alike only where nothing of that may differ.
-/

namespace FieldScript

/-! ## arguments of two calls -/

/-- Suitable arguments of two calls: values are related, and so are the places they come
from. -/
def Args.Related (V : Value → Value → Prop) (O : Location → Location → Prop) :
    (types : List ValueType) → Args types → Args types → Prop
  | [], _, _ => True
  | type :: rest, arg, arg' =>
    V (.ofCarrier type arg.1.1) (.ofCarrier type arg'.1.1) ∧ O arg.1.2 arg'.1.2 ∧
      Args.Related V O rest arg.2 arg'.2

/-- Both are well-formed and related, or both are malformed in the same way. -/
inductive ParsesRelated (V : Value → Value → Prop) (O : Location → Location → Prop)
    (types : List ValueType) :
    Except ArgumentError (Args types) → Except ArgumentError (Args types) → Prop where
  | ok {args args' : Args types} (h : Args.Related V O types args args') :
      ParsesRelated V O types (.ok args) (.ok args')
  | error (error : ArgumentError) : ParsesRelated V O types (.error error) (.error error)

section

variable {V : Value → Value → Prop} {O : Location → Location → Prop}
  (htype : ∀ {v v'}, V v v' → v.type = v'.type)

include htype

/-- A parameter takes both of two related values or neither, with the same error. -/
theorem parseArg_related (fn : String) (position : Nat) (type : ValueType) {v v' : Value}
    (h : V v v') :
    (∃ a a', parseArg fn position type v = .ok a ∧ parseArg fn position type v' = .ok a' ∧
        V (.ofCarrier type a) (.ofCarrier type a')) ∨
      ∃ error, parseArg fn position type v = .error error ∧
        parseArg fn position type v' = .error error := by
  have hsuits : (v.as? type).isSome = (v'.as? type).isSome := by
    rw [Bool.eq_iff_iff, Value.as?_isSome_iff, Value.as?_isSome_iff, htype h]
  unfold parseArg
  cases ha : v.as? type with
  | none =>
      cases ha' : v'.as? type with
      | none => exact .inr ⟨_, rfl, by rw [htype h]⟩
      | some a' => simp [ha, ha'] at hsuits
  | some a =>
      cases ha' : v'.as? type with
      | none => simp [ha, ha'] at hsuits
      | some a' =>
          refine .inl ⟨a, a', rfl, rfl, ?_⟩
          rw [Value.ofCarrier_of_as? ha, Value.ofCarrier_of_as? ha']
          exact h

/-- Parameters take two related lists of arguments alike, position by position. -/
theorem parseTypes_related (fn : String) (position : Nat) (types : List ValueType)
    {args args' : List Located}
    (h : List.Forall₂ (fun v v' => V v.value v'.value ∧ O v.origin v'.origin) args args') :
    ParsesRelated V O types (parseTypes fn position types args)
      (parseTypes fn position types args') := by
  induction types generalizing position args args' with
  | nil => exact .ok trivial
  | cons type rest ih =>
      cases h with
      | nil => exact .error _
      | @cons arg arg' _ _ harg hrest =>
          have hothers := ih (position + 1) hrest
          unfold parseTypes
          obtain ⟨a, a', ha, ha', hvalue⟩ | ⟨error, ha, ha'⟩ :=
            parseArg_related htype fn position type harg.1
          · rw [ha, ha']
            generalize parseTypes fn (position + 1) rest _ = parsed at hothers
            generalize parseTypes fn (position + 1) rest _ = parsed' at hothers
            cases hothers with
            | ok hothers => exact .ok ⟨hvalue, harg.2, hothers⟩
            | error error => exact .error error
          · rw [ha, ha']
            exact .error error

/-- So they do with the check that there are as many arguments as parameters. -/
theorem parseArgs_related (fn : String) (types : List ValueType) {args args' : List Located}
    (h : List.Forall₂ (fun v v' => V v.value v'.value ∧ O v.origin v'.origin) args args') :
    ParsesRelated V O types (parseArgs fn types args) (parseArgs fn types args') := by
  unfold parseArgs
  rw [h.length_eq]
  split
  · exact parseTypes_related htype fn 1 types h
  · exact .error _

end

/-! ## alike arguments -/

/-- Suitable arguments of alike calls. -/
def Args.Alike (L : Likeness) : (types : List ValueType) → Args types → Args types → Prop
  | [], _, _ => True
  | type :: rest, arg, arg' =>
    L.value (.ofCarrier type arg.1.1) (.ofCarrier type arg'.1.1) ∧
      arg.1.2.Alike L arg'.1.2 ∧ Args.Alike L rest arg.2 arg'.2

section

variable {L : Likeness}

/-- Alike values have the same type. -/
theorem Likeness.type_eq {v v' : Value} (h : L.value v v') : v.type = v'.type := by
  obtain rfl | ⟨x, x', rfl, rfl⟩ := L.value_cases h
  · rfl
  · rfl

/-- But for numbers, alike arguments carry the same. -/
theorem Likeness.carried_eq (type : ValueType) (ht : type ≠ .float) {a a' : type.Carrier}
    (h : L.value (.ofCarrier type a) (.ofCarrier type a')) : a = a' := by
  have hsame : Value.ofCarrier type a = .ofCarrier type a' := by
    obtain heq | ⟨x, x', hx, _⟩ := L.value_cases h
    · exact heq
    · cases type <;> first | exact absurd rfl ht | cases hx
  simpa [Value.as?_ofCarrier] using congrArg (Value.as? type) hsame

/-- Both are well-formed and alike, or both are malformed in the same way. -/
inductive ParsesAlike (L : Likeness) (types : List ValueType) :
    Except ArgumentError (Args types) → Except ArgumentError (Args types) → Prop where
  | ok {args args' : Args types} (h : Args.Alike L types args args') :
      ParsesAlike L types (.ok args) (.ok args')
  | error (error : ArgumentError) : ParsesAlike L types (.error error) (.error error)

/-- Parsed arguments are alike exactly if their values and origins are related. -/
theorem Args.alike_iff {types : List ValueType} {args args' : Args types} :
    Args.Alike L types args args' ↔ Args.Related L.value (Location.Alike L) types args args' := by
  induction types with
  | nil => rfl
  | cons type rest ih => exact and_congr_right' (and_congr_right' ih)

/-- Alike lists of arguments are parsed alike. -/
theorem parseArgs_alike (fn : String) (types : List ValueType) {args args' : List Located}
    (h : List.Forall₂ (Located.Alike L) args args') :
    ParsesAlike L types (parseArgs fn types args) (parseArgs fn types args') := by
  have hparse : ParsesRelated L.value (Location.Alike L) types _ _ :=
    parseArgs_related L.type_eq fn types (h.imp fun _ _ hv => ⟨hv.value, hv.origin⟩)
  generalize parseArgs fn types args = parsed at hparse
  generalize parseArgs fn types args' = parsed' at hparse
  cases hparse with
  | ok hargs => exact .ok (Args.alike_iff.mpr hargs)
  | error error => exact .error error

/-- Parsed arguments that are alike in an exact likeness are the same. -/
theorem Args.Alike.eq (hL : L.Exact) {types : List ValueType} {args args' : Args types}
    (h : Args.Alike L types args args') : args = args' := by
  induction types with
  | nil => rfl
  | cons type rest ih =>
      obtain ⟨hvalue, horigin, hrest⟩ := h
      have hcarried : args.1.1 = args'.1.1 := by
        simpa [Value.as?_ofCarrier] using congrArg (Value.as? type) (hL.value hvalue)
      exact Prod.ext (Prod.ext hcarried (horigin.eq hL.range)) (ih hrest)

/-! ## declared functions -/

/-- A declared function is alike if its body is. -/
theorem Declaration.alike_routine (d : Declaration) (hfallback : L.ShowsAlike d.fallback)
    (body' : Location → Args (d.params.map (·.type)) → Action)
    (hbody : ∀ {site site' : Location} {args args' : Args (d.params.map (·.type))},
      site.Alike L site' → Args.Alike L _ args args' →
        Action.Alike L (d.body site args) (body' site' args'))
    {c c' : Call} (hc : c.Alike L c') :
    Action.Alike L (d.routine c) ({ d with body := body' }.routine c') := by
  have hparse := parseArgs_alike d.name (d.params.map (·.type)) hc.args
  unfold routine
  generalize parseArgs d.name _ c.args = parsed at hparse
  generalize parseArgs d.name _ c'.args = parsed' at hparse
  cases hparse with
  | ok hargs => exact hbody hc.site hargs
  | error error => exact .malformed hc.site error hfallback

/-! ## the library's functions -/

namespace Library

/-- A result that is missing on both sides is null on both. -/
theorem alike_valueOrNull {v v' : Option Located} (h : Option.Rel (Located.Alike L) v v') :
    L.value (valueOrNull v) (valueOrNull v') := by
  cases h with
  | some hv => exact hv.value
  | none => exact L.value_refl _

/-- No other key is used. -/
theorem embeddedRoutine_of_not_mem (scripts : Scripts) {key : String}
    (h : key ∉ ["apply", "fail", "probe", "inspect", "script", "attempt"]) :
    embeddedRoutine scripts key = fun _ => .answer .null := by
  have hnone : (embeddedDeclarations scripts).find? (·.name == key) = none := by
    rw [List.find?_eq_none]
    intro d hd hname
    have hmem : d.name ∈ ["apply", "fail", "probe", "inspect", "script", "attempt"] := by
      simp only [embeddedDeclarations, List.mem_cons, List.not_mem_nil, or_false] at hd
      obtain rfl | rfl | rfl | rfl | rfl := hd <;> simp [fail, probe, inspect, script, attempt]
    exact h (beq_iff_eq.mp hname ▸ hmem)
  have happly : key ≠ "apply" := by
    rintro rfl
    exact h List.mem_cons_self
  rw [embeddedRoutine, if_neg happly, hnone]

variable {c c' : Call} (hc : c.Alike L c')

include hc

/-- Alike calls of `clock` read the clock in step, or are malformed alike. -/
theorem alike_clock : Action.Alike L (clock.routine c) (clock.routine c') := by
  refine clock.alike_routine L.showsAlike_none clock.body
    (fun hsite _ => .readClock fun reading => ?_) hc
  cases reading with
  | seconds value => exact .answer (L.value_refl _)
  | beforeEpoch => exact .fail hsite _

/-- Whether a field is there is told alike, for alike instances have the same fields. -/
theorem alike_hasField : Action.Alike L (hasField.routine c) (hasField.routine c') := by
  have hfallback : L.ShowsAlike hasField.fallback := L.showsAlike_some nofun
  refine hasField.alike_routine hfallback hasField.body (fun {_ _ args args'} _ hargs => ?_) hc
  obtain ⟨⟨ref, _⟩, ⟨field, _⟩, _⟩ := args
  obtain ⟨⟨ref', _⟩, ⟨field', _⟩, _⟩ := args'
  obtain ⟨hinst, -, hfield, -⟩ := hargs
  obtain rfl : ref = ref' := L.carried_eq .inst nofun hinst
  obtain rfl : field = field' := L.carried_eq .string nofun hfield
  refine .look fun {v v'} hv => ?_
  have hsame : (v.store.inst ref).hasField field = (v'.store.inst ref).hasField field :=
    (hv.store.inst ref).fields.contains_eq field
  show Action.Alike L (.answer (.bool ((v.store.inst ref).hasField field)))
    (.answer (.bool ((v'.store.inst ref).hasField field)))
  rw [hsame]
  exact .answer (L.value_refl _)

/-! ## the host's functions -/

theorem alike_fail : Action.Alike L (fail.routine c) (fail.routine c') := by
  refine fail.alike_routine L.showsAlike_none fail.body
    (fun {_ _ args args'} hsite hargs => ?_) hc
  obtain ⟨⟨message, _⟩, _⟩ := args
  obtain ⟨⟨message', _⟩, _⟩ := args'
  obtain rfl : message = message' := L.carried_eq .string nofun hargs.1
  exact .fail hsite _

/-- Places are shown, so they must not differ. -/
theorem alike_probe (hL : L.Exact) : Action.Alike L (probe.routine c) (probe.routine c') := by
  have hfallback : L.ShowsAlike probe.fallback := L.showsAlike_some nofun
  refine probe.alike_routine hfallback probe.body (fun {_ _ args args'} _ hargs => ?_) hc
  obtain rfl : args = args' := hargs.eq hL
  refine .look fun hv => ?_
  rw [hv.store.eq hL]
  exact .answer (L.value_refl _)

theorem alike_apply : Action.Alike L (applyRoutine c) (applyRoutine c') := by
  obtain ⟨site, args⟩ := c
  obtain ⟨site', args'⟩ := c'
  obtain ⟨hsite, hargs⟩ := hc
  cases hargs with
  | nil => exact .fail hsite _
  | @cons arg arg' rest rest' harg hrest =>
      obtain ⟨value, origin⟩ := arg
      obtain ⟨value', origin'⟩ := arg'
      obtain rfl | ⟨x, x', rfl, rfl⟩ := L.value_cases harg.value
      · cases value with
        | fn ref =>
            refine .call (.internal _) ref hrest fun ho => ?_
            cases ho with
            | ok hv => exact .answer hv
            | error he => exact .raise he
        | null | bool | int | float | string | cls | inst => exact .fail hsite _
      · exact .fail hsite _

/-- The same names, and alike programs stored under them. -/
def ScriptsAlike (L : Likeness) (scripts scripts' : Scripts) : Prop :=
  ∀ name, Option.Rel (Instr.AlikeList L) (scripts name) (scripts' name)

variable {scripts scripts' : Scripts} (hs : ScriptsAlike L scripts scripts')

include hs

omit hc in
/-- What runs the program of a name is alike in two libraries that have alike programs under
it, if it goes on alike with alike outcomes. -/
theorem alike_stored {site site' : Location} (hsite : site.Alike L site') (name : String)
    {next : Except RuntimeError (Option Located) → Action}
    (hnext : ∀ {o o'}, OutcomesAlike L (Option.Rel (Located.Alike L)) o o' →
      Action.Alike L (next o) (next o')) :
    Action.Alike L
      (match scripts name with
        | none => unknownScript site name
        | some program => .run program next)
      (match scripts' name with
        | none => unknownScript site' name
        | some program => .run program next) := by
  have hprogram := hs name
  generalize scripts name = program at hprogram
  generalize scripts' name = program' at hprogram
  cases hprogram with
  | none => exact .fail hsite _
  | some hp => exact .run hp hnext

/-- A script does the same in two libraries that have alike programs under its name. -/
theorem alike_script :
    Action.Alike L ((script scripts).routine c) ((script scripts').routine c') := by
  refine (script scripts).alike_routine L.showsAlike_none (script scripts').body
    (fun {_ _ args args'} hsite hargs => ?_) hc
  obtain ⟨⟨name, _⟩, _⟩ := args
  obtain ⟨⟨name', _⟩, _⟩ := args'
  obtain rfl : name = name' := L.carried_eq .string nofun hargs.1
  refine alike_stored hs hsite name fun ho => ?_
  cases ho with
  | ok hv => exact .answer (alike_valueOrNull hv)
  | error he => exact .raise he

/-- So does an attempt at a script, which turns errors into values. -/
theorem alike_attempt :
    Action.Alike L ((attempt scripts).routine c) ((attempt scripts').routine c') := by
  refine (attempt scripts).alike_routine L.showsAlike_none (attempt scripts').body
    (fun {_ _ args args'} hsite hargs => ?_) hc
  obtain ⟨⟨name, _⟩, _⟩ := args
  obtain ⟨⟨name', _⟩, _⟩ := args'
  obtain rfl : name = name' := L.carried_eq .string nofun hargs.1
  refine alike_stored hs hsite name fun ho => ?_
  cases ho with
  | ok hv => exact .answer (alike_valueOrNull hv)
  | error he =>
      dsimp only
      rw [he.cause]
      exact .answer (L.value_refl _)

theorem alike_embeddedRoutine {key : String} (hinspect : key ≠ "inspect")
    (hprobe : L.Exact ∨ key ≠ "probe") :
    Action.Alike L (embeddedRoutine scripts key c) (embeddedRoutine scripts' key c') := by
  by_cases hkey : key ∈ ["apply", "fail", "probe", "inspect", "script", "attempt"]
  · simp only [List.mem_cons, List.not_mem_nil, or_false] at hkey
    obtain rfl | rfl | rfl | rfl | rfl | rfl := hkey
    · exact alike_apply hc
    · exact alike_fail hc
    · exact alike_probe hc (hprobe.resolve_right (absurd rfl))
    · exact absurd rfl hinspect
    · exact alike_script hc hs
    · exact alike_attempt hc hs
  · rw [embeddedRoutine_of_not_mem scripts hkey, embeddedRoutine_of_not_mem scripts' hkey]
    exact .answer (L.value_refl _)

end Library

/-- Hosts with alike scripts are alike where `inspect` does not exist and `probe` shows no
difference. -/
theorem Host.alike_ofScripts {scripts scripts' : Library.Scripts}
    (hs : Library.ScriptsAlike L scripts scripts') (clock : Nat → Reading)
    (hinspect : ∀ f ∈ L.functions, f.behaviour ≠ .embedded "inspect")
    (hprobe : L.Exact ∨ ∀ f ∈ L.functions, f.behaviour ≠ .embedded "probe") :
    (Host.ofScripts scripts clock).Alike L (Host.ofScripts scripts' clock) where
  routine {s} hfunctions ref c c' hc := by
    obtain hmem | hnone := s.fn_mem_or ref
    · rw [hfunctions] at hmem
      cases hb : (s.fn ref).behaviour with
      | clock => exact Library.alike_clock hc
      | hasField => exact Library.alike_hasField hc
      | inert => exact .answer (L.value_refl _)
      | embedded key =>
          have hkey (name : String) (h : ∀ f ∈ L.functions, f.behaviour ≠ .embedded name) :
              key ≠ name := by
            rintro rfl
            exact h _ hmem hb
          exact Library.alike_embeddedRoutine hc hs (hkey _ hinspect) (hprobe.imp_right (hkey _))
    · rw [hnone]
      exact .answer (L.value_refl _)
  clock := rfl

end

end FieldScript
