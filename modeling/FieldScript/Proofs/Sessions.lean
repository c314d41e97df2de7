import FieldScript.Proofs.BlockExit
import FieldScript.Proofs.Supplies

/-!
# FieldScript.Proofs.Sessions

Contexts between the requests of a session.

A session goes from one request to the next as long as each comes to an end; it may
end with an error, or at the exit of a block.  Whatever was requested, in whatever
context, no context is ever left with a block or a call: one that was not left has
been dropped by a program that failed.
-/

namespace FieldScript

/-! ## contexts at rest -/

/-- Only the library's scope and the base scope are alive, and no call is. -/
def Context.AtRest (c : Context) : Prop :=
  c.scopes.reverse.map (·.id) = [Scope.libraryId, Scope.baseId] ∧ c.history = []

/-- A context is at rest if neither a block nor a call is alive. -/
theorem Context.atRest_iff {c : Context} : c.AtRest ↔ c.Bare := by
  have hids : c.scopes.reverse.map (·.id) = [Scope.libraryId, Scope.baseId] ↔ c.blocks = [] := by
    simp [Frames.scopes]
  have hcalls : c.history = [] ↔ c.calls = [] := List.reverse_eq_nil_iff
  rw [AtRest, Bare, hids, hcalls]

theorem Context.bare_new (policy : Policy) (library : Bindings Located) :
    (Context.new policy library).Bare :=
  ⟨rfl, rfl⟩

/-! ## computations that leave a bare context bare -/

section Bare

variable {α β : Type}

/-- A bare context is bare again when the computation has come to an end. -/
def KeepsBare (x : Exec α) : Prop :=
  ∀ m : Machine, m.world.context.Bare → x.ending m ≠ .tooDeep → (x.final m).world.context.Bare

theorem keepsBare_pure (a : α) : KeepsBare (pure a : Exec α) := by
  intro m hb _
  exact hb

/-- A sequence keeps a context bare if its parts do. -/
theorem KeepsBare.bind {x : Exec α} {f : α → Exec β} (hx : KeepsBare x)
    (hf : ∀ a, KeepsBare (f a)) : KeepsBare (x >>= f) := by
  intro m hb hend
  have hfirst := hx m hb
  cases hrun : x m with
  | ok a m' =>
      have hgoes : (x >>= f) m = f a m' := by rw [Exec.bind_run, hrun]
      rw [Exec.ending_of_ok hrun, Exec.final_of_ok hrun] at hfirst
      rw [Exec.ending, hgoes] at hend
      rw [Exec.final, hgoes]
      exact hf a m' (hfirst (by simp)) hend
  | error stop m' =>
      have hstop : (x >>= f) m = .error stop m' := by rw [Exec.bind_run, hrun]
      rw [Exec.ending_of_error hrun, Exec.final_of_error hrun] at hfirst
      rw [Exec.ending_of_error hstop] at hend
      rw [Exec.final_of_error hstop]
      exact hfirst hend

/-- What a host supplies leaves the context alone. -/
theorem Supplies.keepsBare {x : Exec α} (hx : Supplies x) : KeepsBare x := by
  intro m hb _
  obtain ⟨a, m', hrun, hc⟩ := hx.context m
  rw [Exec.final, hrun]
  exact hc ▸ hb

/-- A computation that has a trace keeps a context bare: what it entered, it left or dropped. -/
theorem keepsBare_of_traced {x : Exec α} (hx : ∀ s : Store, Traced .all s.functions x) :
    KeepsBare x := by
  intro m hb hend
  obtain ⟨events, hfinal, ht⟩ := hx m.world.store m rfl
  rw [hfinal]
  exact ht.bare hend hb

/-- Every request keeps a context bare. -/
theorem Request.keepsBare_perform (host : Host) (depth : Nat) (request : Request) :
    KeepsBare (request.perform host depth) := by
  have hsequential : Sequential KeepsBare :=
    ⟨keepsBare_pure, fun _ _ _ _ _ hb _ => hb, fun _ hb _ => hb, KeepsBare.bind⟩
  exact request.has_perform_of_traced hsequential keepsBare_of_traced Supplies.keepsBare host depth

/-- A request leaves the world in which its computation ends. -/
theorem Request.world_answer (host : Host) (depth : Nat) (request : Request) (w : World) :
    (request.answer host depth w).2 = ((request.perform host depth).final ⟨w, []⟩).world := by
  rw [Request.answer, Exec.final]
  cases request.perform host depth ⟨w, []⟩ <;> rfl

/-- A request that is too deep is answered so. -/
theorem Request.outcome_answer_of_tooDeep {host : Host} {depth : Nat} {request : Request}
    {w : World} (h : (request.perform host depth).ending ⟨w, []⟩ = .tooDeep) :
    (request.answer host depth w).1.outcome = .stopped .tooDeep := by
  rw [Exec.ending] at h
  rw [Request.answer]
  cases hrun : request.perform host depth ⟨w, []⟩ with
  | ok reply m => simp [hrun] at h
  | error stop m =>
      cases stop with
      | tooDeep => rfl
      | error | blockExit => simp [hrun, Stop.ending] at h

/-- A request that comes to an end leaves a bare context bare. -/
theorem Request.bare_answer {host : Host} {depth : Nat} {request : Request} {w : World}
    (hw : w.context.Bare) (hend : (request.answer host depth w).1.outcome ≠ .stopped .tooDeep) :
    (request.answer host depth w).2.context.Bare := by
  rw [Request.world_answer]
  exact request.keepsBare_perform host depth ⟨w, []⟩ hw
    fun h => hend (Request.outcome_answer_of_tooDeep h)

end Bare

/-! ## sessions -/

namespace Session

/-- Nothing has happened yet in any of the contexts. -/
def Fresh (s : Session) : Prop :=
  ∀ c ∈ s.contexts, ∃ policy library, c = .new policy library

/-- A step of a session: a request that comes to an end, or the copy of a context. -/
inductive Step (host : Host) (s : Session) : Session → Prop where
  | request (depth index : Nat) (request : Request) {a : Answer}
      (h : (s.answer host depth index request).1 = some a)
      (hend : a.outcome ≠ .stopped .tooDeep) : Step host s (s.answer host depth index request).2
  | clone (index : Nat) : Step host s (s.clone index)

/-- One session comes from another in any number of steps. -/
inductive Reaches (host : Host) (s : Session) : Session → Prop where
  | refl : Reaches host s s
  | step {s' s'' : Session} (h : Reaches host s s') (hstep : Step host s' s'') :
      Reaches host s s''

/-- A session that has just started is fresh, whatever its library holds. -/
theorem fresh_start (policy : Policy) (embedded : Bool) : (start policy embedded).2.Fresh := by
  have hmake := (Library.has_build supplying_supplies).bind fun library =>
    supplies_extend embedded library
  obtain ⟨library, events, hrun, _⟩ := hmake ⟨blank policy, []⟩
  intro c hc
  rw [start, hrun] at hc
  exact ⟨policy, library, List.mem_singleton.mp hc⟩

/-- A step keeps the contexts of a session bare. -/
theorem Step.bare {host : Host} {s s' : Session} (h : Step host s s')
    (hs : ∀ c ∈ s.contexts, c.Bare) : ∀ c ∈ s'.contexts, c.Bare := by
  cases h with
  | request depth index request h hend =>
      rw [answer, world?] at h ⊢
      cases hc : s.contexts[index]? with
      | none => simp [hc] at h
      | some c =>
          simp only [hc, Option.map_some, Option.some.injEq] at h ⊢
          subst h
          intro c' hc'
          obtain hmem | rfl := List.mem_or_eq_of_mem_set hc'
          · exact hs c' hmem
          · exact Request.bare_answer (hs c (List.mem_of_getElem? hc)) hend
  | clone index =>
      rw [Session.clone]
      cases hc : s.contexts[index]? with
      | none => exact hs
      | some c =>
          intro c' hc'
          obtain hmem | hlast := List.mem_append.mp hc'
          · exact hs c' hmem
          · rw [List.mem_singleton.mp hlast]
            exact hs c (List.mem_of_getElem? hc)

/-- The contexts of a session are bare between requests. -/
theorem Reaches.bare {host : Host} {s s' : Session} (h : Reaches host s s') (hs : s.Fresh) :
    ∀ c ∈ s'.contexts, c.Bare := by
  induction h with
  | refl =>
      intro c hc
      obtain ⟨policy, library, rfl⟩ := hs c hc
      exact Context.bare_new policy library
  | step _ hstep ih => exact hstep.bare ih

/-- Between the requests of a session every context has the library's scope and the
base scope alone, and no call is in progress.  A program that fails in such a context
leaves it so before it drops scopes and calls: for an outermost program there are
none to drop. -/
theorem atRest_of_reaches {host : Host} {s s' : Session} (hs : s.Fresh)
    (h : Reaches host s s') :
    (∀ c ∈ s'.contexts, c.AtRest) ∧
      ∀ c ∈ s'.contexts, ∀ depth program e,
        (host.run depth program).ending ⟨⟨c, s'.store⟩, []⟩ = .failed e →
          let start := (Machine.mk ⟨c, s'.store⟩ []).after (.programStarted program.length)
          let failed := (Instr.runList (host.call depth) none program).final start
          (host.run depth program).final ⟨⟨c, s'.store⟩, []⟩ = failed.after (.programAborted e) ∧
            failed.world.context.AtRest ∧
            (failed.after (.programAborted e)).world = failed.world := by
  have hbare := h.bare hs
  refine ⟨fun c hc => Context.atRest_iff.mpr (hbare c hc), ?_⟩
  intro c hc depth program e hend start failed
  have hbody : KeepsBare (Instr.runList (host.call depth) none program) :=
    keepsBare_of_traced fun store => (host.within_all store).traced_body depth program
  have hfailed : failed.world.context.Bare := by
    apply hbody start (hbare c hc)
    have hsame : (Instr.runList (host.call depth) none program).ending start = .failed e :=
      (Program.ending_run _ program _).symm.trans hend
    simp [hsame]
  refine ⟨Program.final_run_of_failed hend, Context.atRest_iff.mpr hfailed, ?_⟩
  exact congrArg (World.mk · failed.world.store) hfailed.reset_eq

/-! ## a program that fails within a block -/

/-- How a fresh session goes on with such a program. -/
def afterAttempt : Option Answer × Session :=
  (start .raise true).2.answer failingHost 3 0 (.run attemptInBlock)

/-- The exit of the block stops the program; its context and a copy of it are at
rest nevertheless. -/
theorem atRest_after_blockExit :
    (afterAttempt.1.map fun a => a.outcome matches .stopped .blockExit) = some true ∧
      (afterAttempt.2.clone 0).contexts.length = 2 ∧
        ∀ c ∈ (afterAttempt.2.clone 0).contexts, c.AtRest := by
  have hstop : (afterAttempt.1.map fun a => a.outcome matches .stopped .blockExit) =
      some true := by decide +kernel
  refine ⟨hstop, by decide +kernel, ?_⟩
  obtain ⟨a, ha, hblock⟩ := Option.map_eq_some_iff.mp hstop
  have hend : a.outcome ≠ .stopped .tooDeep := by
    intro h
    rw [h] at hblock
    cases hblock
  exact (atRest_of_reaches (fresh_start .raise true)
    (.step (.step .refl (.request 3 0 (.run attemptInBlock) ha hend)) (.clone 0))).1

end Session

end FieldScript
