import FieldScript.Library.Embedded
import FieldScript.Proofs.Runs

/-!
# FieldScript.Proofs.Natives

What the functions of the library and of the host are able to do.

`clock` and `hasField` keep within any powers.  Of the host's functions only
`script` and `attempt` run programs, and only `attempt` goes on after an error.
-/

namespace FieldScript

/-! ## one function -/

/-- Suitable arguments lead to the body and unsuitable ones to no request at all. -/
theorem Declaration.within_routine {p : Powers} (d : Declaration)
    (h : ∀ site args, (d.body site args).Within p) (call : Call) : (d.routine call).Within p := by
  unfold routine
  split
  · exact h _ _
  · trivial

namespace Library

theorem within_clock (p : Powers) (call : Call) : (clock.routine call).Within p := by
  refine clock.within_routine (fun site args reading => ?_) call
  cases reading <;> trivial

theorem within_hasField (p : Powers) (call : Call) : (hasField.routine call).Within p :=
  hasField.within_routine (fun _ _ _ => trivial) call

theorem within_script {p : Powers} (hp : p.runs = true) (scripts : Scripts) (call : Call) :
    ((script scripts).routine call).Within p := by
  refine (script scripts).within_routine (fun site args => ?_) call
  obtain ⟨⟨name, _⟩, _⟩ := args
  cases hname : scripts name with
  | none => simp only [script, hname, unknownScript, Action.Within]
  | some program =>
      simp only [script, hname]
      refine ⟨hp, fun _ _ => rfl, fun outcome => ?_⟩
      cases outcome <;> trivial

theorem within_apply (p : Powers) (call : Call) : (applyRoutine call).Within p := by
  unfold applyRoutine
  split
  · refine ⟨fun _ _ => rfl, fun outcome => ?_⟩
    cases outcome <;> trivial
  · trivial

/-- Every function of the host but `attempt` passes on the errors of what it
requests. -/
theorem within_embeddedRoutine {p : Powers} (hp : p.runs = true) (scripts : Scripts)
    {key : String} (hkey : key ≠ "attempt") (call : Call) :
    (embeddedRoutine scripts key call).Within p := by
  unfold embeddedRoutine
  split
  · exact within_apply p call
  · cases hfind : (embeddedDeclarations scripts).find? (·.name == key) with
    | none => trivial
    | some d =>
        have hname : d.name = key := by simpa using List.find?_some hfind
        have hmem := List.mem_of_find?_eq_some hfind
        simp only [embeddedDeclarations, List.mem_cons, List.not_mem_nil, or_false] at hmem
        obtain rfl | rfl | rfl | rfl | rfl := hmem
        · exact fail.within_routine (fun _ _ => trivial) call
        · exact probe.within_routine (fun _ _ _ => trivial) call
        · exact inspect.within_routine (fun _ _ _ => trivial) call
        · exact within_script hp scripts call
        · exact absurd hname.symm hkey

end Library

/-! ## all functions of a store -/

namespace Store

/-- Only functions of the language's own library exist. -/
def OwnOnly (s : Store) : Prop :=
  ∀ f ∈ s.functions, f.behaviour = .clock ∨ f.behaviour = .hasField

/-- The host's function that goes on after an error does not exist. -/
def WithoutAttempt (s : Store) : Prop :=
  ∀ f ∈ s.functions, f.behaviour ≠ .embedded "attempt"

instance (s : Store) : Decidable s.OwnOnly :=
  inferInstanceAs (Decidable (∀ f ∈ s.functions, f.behaviour = .clock ∨ f.behaviour = .hasField))

instance (s : Store) : Decidable s.WithoutAttempt :=
  inferInstanceAs (Decidable (∀ f ∈ s.functions, f.behaviour ≠ .embedded "attempt"))

/-- A reference leads to a function that exists, or to one that does nothing. -/
theorem fn_mem_or (s : Store) (ref : FunctionRef) :
    s.fn ref ∈ s.functions ∨ s.fn ref = default := by
  unfold Store.fn
  cases h : s.functions[ref.index]? with
  | none => exact .inr rfl
  | some f => exact .inl (Array.mem_of_getElem? h)

end Store

/-- The language's own library keeps within any powers. -/
theorem Store.OwnOnly.within {s : Store} (hs : s.OwnOnly) (h : Host) (p : Powers) :
    h.Within p s := by
  intro ref call
  obtain hmem | hnone := s.fn_mem_or ref
  · obtain hb | hb := hs _ hmem
    · rw [hb]
      exact Library.within_clock p call
    · rw [hb]
      exact Library.within_hasField p call
  · rw [hnone]
    trivial

/-- Without `attempt`, the host's functions pass on every error. -/
theorem Store.WithoutAttempt.within {s : Store} (hs : s.WithoutAttempt)
    (scripts : Library.Scripts) (clock : Nat → Reading) :
    (Host.ofScripts scripts clock).Within .forwarding s := by
  intro ref call
  obtain hmem | hnone := s.fn_mem_or ref
  · cases hb : (s.fn ref).behaviour with
    | clock => exact Library.within_clock _ call
    | hasField => exact Library.within_hasField _ call
    | inert => trivial
    | embedded key =>
        refine Library.within_embeddedRoutine rfl scripts ?_ call
        intro heq
        subst heq
        exact hs _ hmem hb
  · rw [hnone]
    trivial

end FieldScript
