import FieldScript.Proofs.ParallelHosts
import FieldScript.Session

/-!
# FieldScript.Proofs.ParallelRequests

Requests that run in parallel.

A request refers to nothing: what it hands to a function is made in the store it is
carried out in, so it can be made of two contexts.  From worlds abreast it comes to the
same answer on both sides and leaves the worlds abreast (`Host.Matches.answer`).
-/

namespace FieldScript

section Making

variable {P Q : Pairing}

/-! ## libraries -/

abbrev MatchBindings (Q : Pairing) : Bindings Located → Bindings Located → Prop :=
  Bindings.Related (Located.Matches Q)

/-- Bindings that match go on matching when more is paired. -/
theorem lasting_bindings : Lasting MatchBindings where
  mono hle h := h.mono (·.mono hle)

/-- The same functions made one after the other on both sides are bound to references that match. -/
theorem Library.parallel_bindAll (producer : String) (fns : List Function)
    {library library' : Bindings Located} (h : MatchBindings Q library library') :
    Parallel P Q MatchBindings (bindAll producer library fns) (bindAll producer library' fns) := by
  induction fns generalizing Q library library' with
  | nil => exact parallel_pure fun hle => lasting_bindings.mono hle h
  | cons fn rest ih =>
      refine parallel_newFunction_bind fn fun _ _ hle hr => ?_
      exact ih ((lasting_bindings.mono hle h).insert fn.name ((Value.Matches.fn hr).located _))

/-- Libraries put together in parallel match. -/
theorem Library.parallel_build : Parallel P Q MatchBindings Library.build Library.build := by
  refine (Library.parallel_bindAll _ _ .empty).bind fun library library' hle h => ?_
  have hsize : library.size = library'.size := h.length_eq
  rw [hsize]
  refine (parallel_emit (.libraryBuilt _)).bind fun _ _ hle _ => ?_
  exact parallel_pure fun hle' => lasting_bindings.mono hle' (lasting_bindings.mono hle h)

/-- Extending libraries that match keeps them matching. -/
theorem Session.parallel_extend (embedded : Bool) {library library' : Bindings Located}
    (h : MatchBindings Q library library') :
    Parallel P Q MatchBindings (extend embedded library) (extend embedded library') := by
  cases embedded with
  | true => exact Library.parallel_bindAll _ _ h
  | false => exact parallel_pure fun hle => lasting_bindings.mono hle h

/-! ## values from outside -/

/-- Values made before that match. -/
abbrev MatchMade (Q : Pairing) : List Value → List Value → Prop := List.Forall₂ (Value.Matches Q)

/-- Lists of values that match go on matching when more is paired. -/
theorem lasting_made : Lasting MatchMade where
  mono hle h := by
    refine h.imp ?_
    intro v v' hv
    exact hv.mono hle

/-- Lists that match have matching values at each position, or none. -/
theorem MatchMade.getElem? {made made' : List Value} (h : MatchMade Q made made') (position : Nat) :
    Option.Rel (Value.Matches Q) made[position]? made'[position]? := by
  induction h generalizing position with
  | nil => exact .none
  | cons hv _ ih =>
      cases position with
      | zero => exact .some hv
      | succ position => exact ih position

/-- A value that is missing on both sides is null on both. -/
theorem matches_getD {v v' : Option Value} (h : Option.Rel (Value.Matches Q) v v') :
    (v.getD .null).Matches Q (v'.getD .null) := by
  cases h with
  | some hv => exact hv
  | none => exact .null

/-- The same for values that are found with their origin. -/
theorem matches_getD_value {v v' : Option Located} (h : MatchOption Q v v') :
    ((v.map Located.value).getD Value.null).Matches Q ((v'.map Located.value).getD Value.null) := by
  cases h with
  | some hv => exact hv.value
  | none => exact .null

/-- Classes that are paired. -/
def MatchClass (Q : Pairing) (r r' : ClassRef) : Prop := Q.classes.rel r.index r'.index

namespace Given

/-- Classes of the same name and place that are made in parallel are paired. -/
theorem parallel_makeClass (name : String) (range : Range) :
    Parallel P Q MatchClass (makeClass name range) (makeClass name range) := by
  refine parallel_newClass_bind _ fun _ _ _ hr => ?_
  exact parallel_pure fun hle => hle.classes hr

/-- Instances of matching classes that are made in parallel are paired. -/
theorem parallel_makeInstance {r r' : ClassRef} (hr : MatchClass Q r r') :
    Parallel P Q MatchInstance (makeInstance r) (makeInstance r') := by
  refine parallel_newInstance_bind (.instanceSupplied hr) ⟨r, fun _ => rfl⟩ ⟨r', fun _ => rfl⟩
    fun _ _ _ hi => ?_
  exact parallel_pure fun hle => hle.instances hi

/-- Matching lists have matching classes at a position, or a class is made on both sides. -/
theorem parallel_classAt {made made' : List Value} (hmade : MatchMade Q made made')
    (position : Nat) :
    Parallel P Q MatchClass (classAt made position) (classAt made' position) := by
  have hat := hmade.getElem? position
  unfold classAt
  generalize made[position]? = v at hat
  generalize made'[position]? = v' at hat
  cases hat with
  | none => exact parallel_makeClass _ _
  | some hv =>
      cases hv with
      | cls hr => exact parallel_pure fun hle => hle.classes hr
      | null | bool | int | float | string | inst | fn => exact parallel_makeClass _ _

mutual

/-- Given values that are built in parallel match, along with everything made for them. -/
theorem parallel_build : (g : Given) → {Q : Pairing} → {made made' : List Value} →
    MatchMade Q made made' → {self self' : Value} → self.Matches Q self' →
    Parallel P Q Value.Matches (g.build made self) (g.build made' self')
  | .literal value, _, _, _, _, _, _, _ => by
      rw [build, build]
      exact parallel_pure fun _ => value.matches_value _
  | .newClass name range, _, _, _, _, _, _, _ => by
      rw [build, build]
      refine (parallel_makeClass name range).bind fun _ _ _ hr => ?_
      exact parallel_pure fun hle => .cls (hle.classes hr)
  | .newInstance cls range fields, _, _, _, hmade, _, _, _ => by
      rw [build, build]
      refine (parallel_makeClass cls range).bind fun _ _ hle hr => ?_
      refine (parallel_makeInstance hr).bind fun _ _ hle' hi => ?_
      refine (parallel_setFields fields (lasting_made.mono (le_trans hle hle') hmade) hi).bind
        fun _ _ hle'' _ => ?_
      exact parallel_pure fun hle => .inst (hle.instances (hle''.instances hi))
  | .instanceOf position fields, _, _, _, hmade, _, _, _ => by
      rw [build, build]
      refine (parallel_classAt hmade position).bind fun _ _ hle hr => ?_
      refine (parallel_makeInstance hr).bind fun _ _ hle' hi => ?_
      refine (parallel_setFields fields (lasting_made.mono (le_trans hle hle') hmade) hi).bind
        fun _ _ hle'' _ => ?_
      exact parallel_pure fun hle => .inst (hle.instances (hle''.instances hi))
  | .self, _, _, _, _, _, _, hself => by
      rw [build, build]
      exact parallel_pure fun hle => hself.mono hle
  | .library name, _, _, _, _, _, _, _ => by
      rw [build, build]
      refine Library.parallel_build.bind fun _ _ _ h => ?_
      exact parallel_pure fun hle => (matches_getD_value (h.get? name)).mono hle
  | .newFunction name params result, _, _, _, _, _, _, _ => by
      rw [build, build]
      refine parallel_newFunction_bind _ fun _ _ _ hr => ?_
      exact parallel_pure fun hle => .fn (hle.functions hr)
  | .earlier position, _, _, _, hmade, _, _, _ => by
      rw [build, build]
      exact parallel_pure fun hle => (matches_getD (hmade.getElem? position)).mono hle

/-- Fields that are set in parallel keep matching stores matching. -/
theorem parallel_setFields : (fields : List (String × Given)) → {Q : Pairing} →
    {made made' : List Value} → MatchMade Q made made' → {r r' : InstanceRef} →
    MatchInstance Q r r' →
    Parallel P Q Pairing.Same (setFields made r fields) (setFields made' r' fields)
  | [], _, _, _, _, _, _, _ => by
      rw [setFields, setFields]
      exact parallel_pure fun _ => rfl
  | (name, g) :: rest, _, _, _, hmade, _, _, hr => by
      rw [setFields, setFields]
      refine (g.parallel_build hmade (.inst hr)).bind fun _ _ hle hv => ?_
      refine (parallel_emit (.fieldSet (hle.instances hr) name hv)).bind fun _ _ hle' _ => ?_
      have hle := le_trans hle hle'
      exact parallel_setFields rest (lasting_made.mono hle hmade) (hle.instances hr)

end

end Given

/-- Arguments that are evaluated in parallel match, in order. -/
theorem Argument.parallel_evalAll : (args : List Argument) → {Q : Pairing} →
    {made made' : List Located} → MatchList Q made made' →
    Parallel P Q MatchList (evalAll made args) (evalAll made' args)
  | [], _, _, _, hmade => by
      rw [evalAll, evalAll]
      exact parallel_pure fun hle => lasting_list.mono hle hmade
  | .given g origin :: rest, _, _, _, hmade => by
      rw [evalAll, evalAll]
      have hvalues : MatchMade _ (_ : List Value) _ :=
        List.rel_map (fun _ _ hv => hv.value) hmade
      refine (g.parallel_build hvalues .null).bind fun _ _ hle hv => ?_
      have hlast := List.Forall₂.cons (hv.located origin) .nil
      exact parallel_evalAll rest (List.rel_append (lasting_list.mono hle hmade) hlast)
  | .variable name origin :: rest, _, _, _, hmade => by
      rw [evalAll, evalAll]
      refine parallel_context_bind fun _ _ hle hc => ?_
      have hv := matches_getD_value (hc.frames.get? name)
      have hlast := List.Forall₂.cons (hv.located origin) .nil
      exact parallel_evalAll rest (List.rel_append (lasting_list.mono hle hmade) hlast)

end Making

/-! ## requests -/

/-- Replies that are the same but for references. -/
inductive Reply.Matches (Q : Pairing) : Reply → Reply → Prop where
  | nothing : Matches Q .nothing .nothing
  | located {v v' : Located} (h : v.Matches Q v') : Matches Q (.located v) (.located v')
  | value {v v' : Value} (h : v.Matches Q v') : Matches Q (.value v) (.value v')
  | notAFunction (name : String) : Matches Q (.notAFunction name) (.notAFunction name)

/-- What is told of replies that match is the same. -/
theorem Reply.Matches.outcome_eq {Q : Pairing} {s s' : Store} (hs : s.Matches Q s')
    {reply reply' : Reply} (h : reply.Matches Q reply') : reply.outcome s = reply'.outcome s' := by
  cases h with
  | nothing | notAFunction => rfl
  | located hv => rw [Reply.outcome, Reply.outcome, hs.describe_eq hv.value, hv.origin]
  | value hv => rw [Reply.outcome, Reply.outcome, hs.describe_eq hv]

section Requests

variable {P : Pairing} {h h' : Host} (hh : h.Matches P h')

include hh

theorem Host.Matches.parallel_perform {Q : Pairing} (depth : Nat) (request : Request) :
    Parallel P Q Reply.Matches (request.perform h depth) (request.perform h' depth) := by
  have hcall : CallersParallel P (h.call depth) (h'.call depth) := hh.callersParallel depth
  cases request with
  | run program =>
      refine (Program.parallel_run hcall program).bind fun v v' _ hv => ?_
      cases hv with
      | some hv => exact parallel_pure fun hle => .located (hv.mono hle)
      | none => exact parallel_pure fun _ => .nothing
  | eval expr =>
      refine (expr.parallel_eval hcall).bind fun _ _ _ hv => ?_
      exact parallel_pure fun hle => .value (hv.mono hle)
  | get name =>
      refine parallel_context_bind fun c c' _ hc => ?_
      have hget := hc.frames.get? name
      generalize c.get? name = v at hget
      generalize c'.get? name = v' at hget
      cases hget with
      | some hv => exact parallel_pure fun hle => .located (hv.mono hle)
      | none => exact parallel_pure fun _ => .nothing
  | call fn args site =>
      refine parallel_context_bind fun c c' _ hc => ?_
      have hget := hc.frames.get? fn
      generalize c.get? fn = v at hget
      generalize c'.get? fn = v' at hget
      cases hget with
      | none => exact parallel_pure fun _ => .notAFunction fn
      | @some v v' hv =>
          obtain ⟨value, origin⟩ := v
          obtain ⟨value', origin'⟩ := v'
          obtain ⟨hvalue, -⟩ := hv
          cases hvalue with
          | fn hr =>
              refine (Argument.parallel_evalAll args .nil).bind fun _ _ hle ha => ?_
              refine (hcall site (hle.functions hr) ha).bind fun _ _ _ hv => ?_
              exact parallel_pure fun hle => .value (hv.mono hle)
          | null | bool | int | float | string | cls | inst =>
              exact parallel_pure fun _ => .notAFunction fn

/-- A request has the same answer on both sides, through events that match. -/
theorem Host.Matches.answer (depth : Nat) (request : Request) {w w' : World} (hw : w.Abreast P w') :
    (request.answer h depth w).1 = (request.answer h' depth w').1 ∧
      Follows P w w' ((request.perform h depth).journal w)
        ((request.perform h' depth).journal w') := by
  have hmeets := (hh.parallel_perform depth request).meets hw le_rfl
  rw [Exec.journal, Exec.journal, Exec.final, Exec.final, Request.answer, Request.answer]
  generalize request.perform h depth ⟨w, []⟩ = r at hmeets
  generalize request.perform h' depth ⟨w', []⟩ = r' at hmeets
  cases hmeets with
  | answered hn hreply =>
      have hafter := hn.abreast hw
      obtain ⟨added, added', rfl, rfl, hfollows⟩ := hn
      have houtcome := hreply.outcome_eq hafter.worlds.store
      refine ⟨?_, by simpa using hfollows⟩
      simp only [Answer.of, List.append_nil, hfollows.logOf_eq, hafter.worlds.snapshot_eq]
      rw [← houtcome]
  | stopped stop hn =>
      have hafter := hn.abreast hw
      obtain ⟨added, added', rfl, rfl, hfollows⟩ := hn
      refine ⟨?_, by simpa using hfollows⟩
      simp only [Answer.of, List.append_nil, hfollows.logOf_eq, hafter.worlds.snapshot_eq]

end Requests

end FieldScript
