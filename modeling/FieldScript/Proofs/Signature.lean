import FieldScript.Library.Embedded
import FieldScript.Proofs.BlockExit

/-!
# FieldScript.Proofs.Signature

Native functions take what their signatures say.

A function with the shared argument handling publishes a signature and checks its
arguments by itself.  Both come from one declaration: the body is reached by exactly the
arguments whose types are the published ones, and it gets them as they were given
(`parseArgs_cases`).  Of all other arguments the first fault is reported, the number
before the types and the types from left to right (`FirstFault`).

A call that is refused does nothing: it leaves the world as it was and answers the fallback
value or fails, as the policy decides (`Policy.refusal`).
-/

namespace FieldScript

/-! ## arguments as they were given -/

/-- Arguments with a carrier each, as the values that carry them. -/
def Args.located : {types : List ValueType} → Args types → List Located
  | [], _ => []
  | type :: _, ((carried, origin), others) => ⟨.ofCarrier type carried, origin⟩ :: others.located

theorem Args.map_type_located {types : List ValueType} (typed : Args types) :
    typed.located.map (·.value.type) = types := by
  induction types with
  | nil => rfl
  | cons type rest ih =>
      obtain ⟨⟨carried, origin⟩, others⟩ := typed
      have htype : (Value.ofCarrier type carried).type = type :=
        (Value.as?_isSome_iff type _).mp (by rw [Value.as?_ofCarrier]; rfl)
      exact List.cons_eq_cons.mpr ⟨htype, ih others⟩

/-! ## the first fault -/

/-- What is wrong first with the arguments of a call: their number or else, from left to
right, the type of one of them. -/
inductive FirstFault (fn : String) (types : List ValueType) (args : List Located) :
    ArgumentError → Prop where
  | arity (h : args.length ≠ types.length) :
      FirstFault fn types args (.wrongArity fn types.length args.length)
  | type {index : Nat} {expected : ValueType} {arg : Located}
      (hlength : args.length = types.length) (htype : types[index]? = some expected)
      (harg : args[index]? = some arg) (hne : arg.value.type ≠ expected)
      (hfirst : ∀ i < index, args[i]?.map (·.value.type) = types[i]?) :
      FirstFault fn types args (.wrongType fn (index + 1) expected arg.value.type)

theorem FirstFault.types_ne {fn : String} {types : List ValueType} {args : List Located}
    {error : ArgumentError} (h : FirstFault fn types args error) :
    args.map (·.value.type) ≠ types := by
  intro heq
  cases h with
  | arity h => exact h (by rw [← heq, List.length_map])
  | type _ htype harg hne _ =>
      rw [← heq, List.getElem?_map, harg] at htype
      exact hne (Option.some.inj htype)

/-- There is one first fault. -/
theorem FirstFault.unique {fn : String} {types : List ValueType} {args : List Located}
    {error error' : ArgumentError} (h : FirstFault fn types args error)
    (h' : FirstFault fn types args error') : error = error' := by
  cases h with
  | arity hlength =>
      cases h' with
      | arity => rfl
      | type hlength' => exact absurd hlength' hlength
  | @type index expected arg hlength htype harg hne hfirst =>
      cases h' with
      | arity hlength' => exact absurd hlength hlength'
      | @type index' expected' arg' _ htype' harg' hne' hfirst' =>
          -- whatever comes before the first of either is right in the other
          obtain hlt | rfl | hlt := Nat.lt_trichotomy index index'
          · have hright := hfirst' index hlt
            rw [htype, harg] at hright
            exact absurd (Option.some.inj hright) hne
          · obtain rfl := Option.some.inj (htype.symm.trans htype')
            obtain rfl := Option.some.inj (harg.symm.trans harg')
            rfl
          · have hright := hfirst index' hlt
            rw [htype', harg'] at hright
            exact absurd (Option.some.inj hright) hne'

theorem parseTypes_cons_wrong {fn : String} {position : Nat} {type : ValueType}
    {rest : List ValueType} {arg : Located} {args : List Located}
    (h : arg.value.as? type = none) :
    parseTypes fn position (type :: rest) (arg :: args) =
      .error (.wrongType fn position type arg.value.type) := by
  rw [parseTypes, parseArg, h]
  rfl

theorem parseTypes_cons_right {fn : String} {position : Nat} {type : ValueType}
    {rest : List ValueType} {arg : Located} {args : List Located} {carried : type.Carrier}
    (h : arg.value.as? type = some carried) :
    parseTypes fn position (type :: rest) (arg :: args) =
      (parseTypes fn (position + 1) rest args).map fun others =>
        ((carried, arg.origin), others) := by
  rw [parseTypes, parseArg, h]
  cases parseTypes fn (position + 1) rest args <;> rfl

/-- The types are checked from left to right, and what is right is taken as it is. -/
theorem parseTypes_cases (fn : String) (position : Nat) {types : List ValueType}
    {args : List Located} (hlength : args.length = types.length) :
    (∃ typed : Args types, parseTypes fn position types args = .ok typed ∧
        typed.located = args) ∨
      ∃ index expected arg, types[index]? = some expected ∧ args[index]? = some arg ∧
        arg.value.type ≠ expected ∧
        (∀ i < index, args[i]?.map (·.value.type) = types[i]?) ∧
        parseTypes fn position types args =
          .error (.wrongType fn (position + index) expected arg.value.type) := by
  induction types generalizing position args with
  | nil =>
      obtain rfl := List.length_eq_zero_iff.mp hlength
      exact .inl ⟨(), rfl, rfl⟩
  | cons type rest ih =>
      cases args with
      | nil => cases hlength
      | cons arg args =>
          have his := Value.as?_isSome_iff type arg.value
          cases has : arg.value.as? type with
          | none =>
              have hne : arg.value.type ≠ type := fun heq => by simp [has, heq] at his
              exact .inr ⟨0, type, arg, rfl, rfl, hne, fun i hi => absurd hi i.not_lt_zero,
                parseTypes_cons_wrong has⟩
          | some carried =>
              have htype : arg.value.type = type := his.mp (by rw [has]; rfl)
              have hcons : parseTypes fn position (type :: rest) (arg :: args) = _ :=
                parseTypes_cons_right has
              obtain ⟨typed, hothers, hlocated⟩ | ⟨index, expected, found, h⟩ :=
                ih (position + 1) (Nat.succ.inj hlength)
              · refine .inl ⟨((carried, arg.origin), typed), by rw [hcons, hothers]; rfl, ?_⟩
                have hvalue := Value.ofCarrier_of_as? has
                rw [Args.located, hvalue, hlocated]
              · obtain ⟨hexpected, hfound, hne, hfirst, hothers⟩ := h
                rw [Nat.add_right_comm] at hothers
                refine .inr ⟨index + 1, expected, found, hexpected, hfound, hne, fun i hi => ?_,
                  by rw [hcons, hothers]; rfl⟩
                cases i with
                | zero => exact congrArg some htype
                | succ i => exact hfirst i (Nat.lt_of_succ_lt_succ hi)

/-- Arguments are parsed if they have the types that are asked for; of others the first
fault is told. -/
theorem parseArgs_cases (fn : String) (types : List ValueType) (args : List Located) :
    (args.map (·.value.type) = types ∧
        ∃ typed : Args types, parseArgs fn types args = .ok typed ∧ typed.located = args) ∨
      ∃ error, parseArgs fn types args = .error error ∧ FirstFault fn types args error := by
  unfold parseArgs
  split
  · next hlength =>
      obtain ⟨typed, hparse, hlocated⟩ | ⟨index, expected, arg, htype, harg, hne, hfirst, hparse⟩ :=
        parseTypes_cases fn 1 hlength
      · exact .inl ⟨by rw [← hlocated, typed.map_type_located], typed, hparse, hlocated⟩
      · rw [Nat.add_comm] at hparse
        exact .inr ⟨_, hparse, .type hlength htype harg hne hfirst⟩
  · next hlength => exact .inr ⟨_, rfl, .arity hlength⟩

theorem firstFault_of_parseArgs {fn : String} {types : List ValueType} {args : List Located}
    {error : ArgumentError} (h : parseArgs fn types args = .error error) :
    FirstFault fn types args error := by
  obtain ⟨_, typed, hparse, _⟩ | ⟨error', hparse, hfault⟩ := parseArgs_cases fn types args
  · cases h.symm.trans hparse
  · cases h.symm.trans hparse
    exact hfault

/-! ## calls that are refused -/

/-- What a call with faulty arguments comes to: the fallback value, if the policy asks for it
and there is one, and the error otherwise. -/
def Policy.refusal : Policy → (fallback : Option Value) → RuntimeError →
    Except RuntimeError Value
  | .fallback, some value, _ => .ok value
  | .fallback, none, e | .raise, _, e => .error e

/-- What the log is told of a call that is refused: the fallback value, if it is used. -/
def Policy.refusalEvents : Policy → (fallback : Option Value) → ArgumentError → Store → List Event
  | .fallback, some value, error, store => [.fallbackUsed error (store.text value)]
  | .fallback, none, _, _ | .raise, _, _, _ => []

theorem Exec.malformed_run (site : Location) (error : ArgumentError) (fallback : Option Value)
    (m : Machine) :
    malformed site error fallback m =
      resume (m.world.context.policy.refusal fallback
          (m.world.context.error site (.argument error) []))
        ⟨m.world,
          m.world.context.policy.refusalEvents fallback error m.world.store ++ m.journal⟩ := by
  rw [malformed, bind_run, context_run]
  dsimp only
  cases m.world.context.policy <;> cases fallback <;> rfl

/-- A call ends as what is done in it does. -/
theorem Exec.inCall_of_run {entry : CallEntry} {args : Nat} {α : Type} {x : Exec α}
    {m m' : Machine} {outcome : Except RuntimeError α}
    (h : x (m.after (.callEntered entry args)) = resume outcome m') :
    inCall entry args x m = resume outcome (m'.after .callLeft) := by
  cases outcome <;> simp [inCall, bind_run, settle_run, h]

/-! ## calls of declared functions -/

/-- The function at a reference is the one that is declared, in its signature and in what it
does. -/
def Host.Declares (h : Host) (s : Store) (ref : FunctionRef) (d : Declaration) : Prop :=
  ∃ behaviour, s.fn ref = d.function behaviour ∧ h.routine behaviour = d.routine

/-- A call of a declared function whose arguments have the types of the published signature
is the body carried out once, with each argument's own value and place in order.  Any other
call is refused for the first fault: it does nothing but enter and leave the call, and
answers the fallback value or fails at the place of the call. -/
theorem Host.Declares.call_accepted_or_refused {h : Host} {d : Declaration} {m : Machine}
    {ref : FunctionRef} (hd : h.Declares m.world.store ref d) (depth : Nat) (site : Location)
    (args : List Located) :
    let fn := m.world.store.fn ref
    let entry : CallEntry := ⟨fn.name, site⟩
    let x := h.call (depth + 1) site ref args
    (args.map (·.value.type) = fn.params.map (·.type) ∧
        ∃ typed, typed.located = args ∧
          x m = Exec.inCall entry args.length
            ((d.body site typed).perform h.clock (h.call depth)) m) ∨
      (args.map (·.value.type) ≠ fn.params.map (·.type) ∧
        ∃ error, FirstFault fn.name (fn.params.map (·.type)) args error ∧
          let c := m.world.context
          let e : RuntimeError := ⟨site, .argument error, c.history ++ [entry], []⟩
          x m = Exec.resume (c.policy.refusal d.fallback e)
            ⟨m.world, .callLeft :: (c.policy.refusalEvents d.fallback error m.world.store ++
              .callEntered entry args.length :: m.journal)⟩) := by
  intro fn entry x
  obtain ⟨behaviour, hfn, hroutine⟩ := hd
  have hname : fn.name = d.name := congrArg Function.name hfn
  have hparams : fn.params = d.params := congrArg Function.params hfn
  have hbehaviour : fn.behaviour = behaviour := congrArg Function.behaviour hfn
  have hcall : x m = Exec.inCall entry args.length
      ((d.routine ⟨site, args⟩).perform h.clock (h.call depth)) m := by
    rw [← hroutine, ← hbehaviour]
    rfl
  rw [hparams, hname, hcall, Declaration.routine]
  obtain ⟨htypes, typed, hparse, hlocated⟩ | ⟨error, hparse, hfault⟩ :=
    parseArgs_cases d.name (d.params.map (·.type)) args
  · exact .inl ⟨htypes, typed, hlocated, by rw [hparse]⟩
  · refine .inr ⟨hfault.types_ne, error, hfault, ?_⟩
    rw [hparse]
    have hhistory : (m.after (.callEntered entry args.length)).world.context.history =
        m.world.context.history ++ [entry] := Context.history_enterCall _ _
    refine (Exec.inCall_of_run (Exec.malformed_run site error d.fallback _)).trans ?_
    rw [Context.error, hhistory]
    rfl

/-- The library's functions are declared, whatever the host. -/
theorem Host.declares_hasField (h : Host) {s : Store} {ref : FunctionRef}
    (hfn : s.fn ref = Library.hasField.function .hasField) : h.Declares s ref Library.hasField :=
  ⟨.hasField, hfn, rfl⟩

/-- Asked for a field of a number under a number, `hasField` tells the first of the two wrong
types. -/
theorem call_refused_hasField :
    let h := Host.ofScripts (fun _ => none) fun _ => .beforeEpoch
    let m : Machine := ⟨worldWith [], []⟩
    let args : List Located := [⟨.int 42, .internal "test"⟩, ⟨.int 7, .internal "test"⟩]
    let site : Location := .source ⟨3, 5⟩
    let x := h.call 1 site ⟨1⟩ args
    h.Declares m.world.store ⟨1⟩ Library.hasField ∧
      x.ending m = .failed ⟨site, .argument (.wrongType "hasField" 1 .inst .int),
        [⟨"hasField", site⟩], []⟩ ∧
      (x.final m).world = m.world := by
  intro h m args site x
  have hd : h.Declares m.world.store ⟨1⟩ Library.hasField := h.declares_hasField rfl
  obtain ⟨htypes, _⟩ | ⟨_, error, hfault, hrun⟩ := hd.call_accepted_or_refused 0 site args
  · exact absurd htypes (by decide)
  · have hone : args[0]? = some ⟨.int 42, .internal "test"⟩ := rfl
    have hfirst :
        FirstFault "hasField" [.inst, .string] args (.wrongType "hasField" 1 .inst .int) :=
      .type rfl rfl hone (by decide) fun i hi => absurd hi i.not_lt_zero
    obtain rfl := hfault.unique hfirst
    have hfinal := (Exec.final_of_run hrun).trans (Exec.final_resume _ _)
    exact ⟨hd, (Exec.ending_of_run hrun).trans rfl, by rw [hfinal]⟩

end FieldScript
