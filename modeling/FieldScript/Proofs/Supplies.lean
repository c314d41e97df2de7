import FieldScript.Session
import FieldScript.Proofs.Runs

/-!
# FieldScript.Proofs.Supplies

Values that come from outside a program.

A value is made through events that add objects to the store and set fields of the
new ones.  So a property that passes on from one thing to the next holds of making a
value if it holds of these events (`Supplying`, `Given.has_build`).  Making one always
answers, and so does putting together a library; neither touches the context
(`Supplies`).  With the computations of a host they are all that the requests of a
session are made of (`Request.has_perform`).
-/

namespace FieldScript

/-- An event through which a host supplies objects. -/
def Event.IsSupply : Event → Prop
  | .libraryBuilt _ | .classCreated _ | .instanceSupplied _ | .functionCreated _
  | .fieldSet _ _ _ => True
  | _ => False

/-- A supply changes the store alone. -/
theorem Event.IsSupply.context {event : Event} (h : event.IsSupply) (w : World) :
    (w.after event).context = w.context := by
  cases event <;> first | rfl | exact h.elim

/-- A function that can come with a value: one of the language's own library, or one that
does nothing. -/
def Function.IsPlain (fn : Function) : Prop :=
  fn.behaviour = .clock ∨ fn.behaviour = .hasField ∨ fn.behaviour = .inert

/-! ## what passes on to making values -/

/-- A property of computations that passes on to what is done one after the other, and
that supplying objects has. -/
structure Supplying (P : ∀ {α : Type}, Exec α → Prop) : Prop where
  pure : ∀ {α : Type} (a : α), P (Pure.pure a : Exec α)
  bind : ∀ {α β : Type} {x : Exec α} {f : α → Exec β}, P x → (∀ a, P (f a)) → P (x >>= f)
  context : P Exec.context
  nextClass : P Exec.nextClass
  nextInstance : P Exec.nextInstance
  nextFunction : P Exec.nextFunction
  emit : ∀ {event : Event}, event.IsSupply → (∀ fn, event ≠ .functionCreated fn) →
    P (Exec.emit event)
  create : ∀ fn : Function, fn.IsPlain → P (Exec.emit (.functionCreated fn))

section

variable {P : ∀ {α : Type}, Exec α → Prop}

/-- Binding functions one after the other is a supply if making each of them is. -/
theorem Library.has_bindAll (hP : Supplying P) (producer : String) (library : Bindings Located)
    {fns : List Function} (hcreate : ∀ fn ∈ fns, P (Exec.emit (.functionCreated fn))) :
    P (Library.bindAll producer library fns) := by
  induction fns generalizing library with
  | nil => exact hP.pure library
  | cons fn rest ih =>
      obtain ⟨hfn, hrest⟩ := List.forall_mem_cons.mp hcreate
      refine hP.bind hP.nextFunction fun _ => ?_
      refine hP.bind hfn fun _ => ?_
      exact ih _ hrest

/-- The functions of the library run no programs. -/
theorem Library.isPlain_of_mem {fn : Function} (h : fn ∈ Library.functions) : fn.IsPlain := by
  obtain rfl | rfl : fn = clock.function .clock ∨ fn = hasField.function .hasField := by
    simpa [Library.functions] using h
  · exact .inl rfl
  · exact .inr (.inl rfl)

/-- The library is put together out of plain functions. -/
theorem Library.has_build (hP : Supplying P) : P Library.build := by
  refine hP.bind (Library.has_bindAll hP _ _ ?_) fun library => ?_
  · intro fn hfn
    exact hP.create fn (Library.isPlain_of_mem hfn)
  · exact hP.bind (hP.emit trivial nofun) fun _ => hP.pure library

/-- A given class is one new class. -/
theorem Given.has_makeClass (hP : Supplying P) (name : String) (range : Range) :
    P (Given.makeClass name range) := by
  refine hP.bind hP.nextClass fun _ => ?_
  exact hP.bind (hP.emit trivial nofun) fun _ => hP.pure _

/-- A given instance is one new instance. -/
theorem Given.has_makeInstance (hP : Supplying P) (cls : ClassRef) :
    P (Given.makeInstance cls) := by
  refine hP.bind hP.nextInstance fun _ => ?_
  exact hP.bind (hP.emit trivial nofun) fun _ => hP.pure _

/-- The class of an instance made before is looked up or made anew. -/
theorem Given.has_classAt (hP : Supplying P) (made : List Value) (position : Nat) :
    P (Given.classAt made position) := by
  unfold Given.classAt
  split
  · exact hP.pure _
  · exact Given.has_makeClass hP _ _

mutual

/-- A given value is built out of supplies, by structure. -/
theorem Given.has_build (hP : Supplying P) (made : List Value) (self : Value) :
    (g : Given) → P (g.build made self)
  | .literal value => by
      rw [Given.build]
      exact hP.pure _
  | .newClass name range => by
      rw [Given.build]
      exact hP.bind (Given.has_makeClass hP name range) fun _ => hP.pure _
  | .newInstance cls range fields => by
      rw [Given.build]
      refine hP.bind (Given.has_makeClass hP cls range) fun _ => ?_
      refine hP.bind (Given.has_makeInstance hP _) fun _ => ?_
      refine hP.bind (Given.has_setFields hP made _ fields) fun _ => ?_
      exact hP.pure _
  | .instanceOf position fields => by
      rw [Given.build]
      refine hP.bind (Given.has_classAt hP made position) fun _ => ?_
      refine hP.bind (Given.has_makeInstance hP _) fun _ => ?_
      refine hP.bind (Given.has_setFields hP made _ fields) fun _ => ?_
      exact hP.pure _
  | .self => by
      rw [Given.build]
      exact hP.pure _
  | .library name => by
      rw [Given.build]
      exact hP.bind (Library.has_build hP) fun _ => hP.pure _
  | .newFunction name params result => by
      rw [Given.build]
      refine hP.bind hP.nextFunction fun _ => ?_
      refine hP.bind (hP.create _ (.inr (.inr rfl))) fun _ => ?_
      exact hP.pure _
  | .earlier position => by
      rw [Given.build]
      exact hP.pure _

theorem Given.has_setFields (hP : Supplying P) (made : List Value) (ref : InstanceRef) :
    (fields : List (String × Given)) → P (Given.setFields made ref fields)
  | [] => by
      rw [Given.setFields]
      exact hP.pure _
  | (name, g) :: rest => by
      rw [Given.setFields]
      refine hP.bind (Given.has_build hP made (.inst ref) g) fun _ => ?_
      refine hP.bind (hP.emit trivial nofun) fun _ => ?_
      exact Given.has_setFields hP made ref rest

end

theorem Argument.has_evalAll (hP : Supplying P) (made : List Located) (args : List Argument) :
    P (Argument.evalAll made args) := by
  induction args generalizing made with
  | nil => exact hP.pure made
  | cons arg rest ih =>
      obtain ⟨g, origin⟩ | ⟨name, origin⟩ := arg
      · rw [Argument.evalAll]
        exact hP.bind (Given.has_build hP _ _ g) fun _ => ih _
      · rw [Argument.evalAll]
        exact hP.bind hP.context fun _ => ih _

end

/-! ## events and nothing else -/

section Making

variable {α β : Type}

/-- A computation answers through events that supply objects. -/
def Supplies (x : Exec α) : Prop :=
  ∀ m : Machine, ∃ a events, x m = .ok a ⟨m.world.afterAll events, events ++ m.journal⟩ ∧
    ∀ event ∈ events, event.IsSupply

/-- No context is touched. -/
theorem Supplies.context {x : Exec α} (hx : Supplies x) (m : Machine) :
    ∃ a m', x m = .ok a m' ∧ m'.world.context = m.world.context := by
  obtain ⟨a, events, hrun, hall⟩ := hx m
  refine ⟨a, _, hrun, ?_⟩
  clear hrun
  induction events with
  | nil => rfl
  | cons event earlier ih =>
      obtain ⟨hevent, hearlier⟩ := List.forall_mem_cons.mp hall
      exact (hevent.context _).trans (ih hearlier)

/-- Nothing is supplied where nothing happens. -/
theorem supplies_pure (a : α) : Supplies (pure a : Exec α) := by
  intro m
  exact ⟨a, [], rfl, List.forall_mem_nil _⟩

/-- A supply is one event. -/
theorem supplies_emit {event : Event} (h : event.IsSupply) : Supplies (Exec.emit event) := by
  intro m
  refine ⟨(), [event], rfl, ?_⟩
  intro other hother
  rwa [List.mem_singleton.mp hother]

/-- Supplies one after the other are supplies. -/
theorem Supplies.bind {x : Exec α} {f : α → Exec β} (hx : Supplies x)
    (hf : ∀ a, Supplies (f a)) : Supplies (x >>= f) := by
  intro m
  obtain ⟨a, first, hrun, hfirst⟩ := hx m
  obtain ⟨b, second, hrun', hsecond⟩ := hf a ⟨m.world.afterAll first, first ++ m.journal⟩
  have hall := List.forall_mem_append.mpr ⟨hsecond, hfirst⟩
  refine ⟨b, second ++ first, ?_, hall⟩
  rw [Exec.bind_run, hrun, World.afterAll_append, List.append_assoc]
  exact hrun'

theorem supplying_supplies : Supplying Supplies where
  pure := supplies_pure
  bind := Supplies.bind
  context m := ⟨m.world.context, [], rfl, List.forall_mem_nil _⟩
  nextClass m := ⟨m.world.store.nextClass, [], rfl, List.forall_mem_nil _⟩
  nextInstance m := ⟨m.world.store.nextInstance, [], rfl, List.forall_mem_nil _⟩
  nextFunction m := ⟨m.world.store.nextFunction, [], rfl, List.forall_mem_nil _⟩
  emit h _ := supplies_emit h
  create _ _ := supplies_emit trivial

/-- The host's functions are supplies too. -/
theorem Session.supplies_extend (embedded : Bool) (library : Bindings Located) :
    Supplies (Session.extend embedded library) := by
  cases embedded with
  | true => exact Library.has_bindAll supplying_supplies _ _ fun _ _ => supplies_emit trivial
  | false => exact supplies_pure library

end Making

/-! ## requests -/

/-- A request has a property that passes from parts to the whole if supplies and what the
host does have it. -/
theorem Request.has_perform {P : ∀ {α : Type}, Exec α → Prop} {host : Host} {depth : Nat}
    (hP : Sequential P) (hsupplies : ∀ {α : Type} {x : Exec α}, Supplies x → P x)
    (hrun : ∀ program, P (host.run depth program)) (heval : ∀ expr, P (host.eval depth expr))
    (hcall : ∀ site ref args, P (host.call depth site ref args)) (request : Request) :
    P (request.perform host depth) := by
  cases request with
  | run program =>
      refine hP.bind (hrun program) fun value => ?_
      cases value <;> exact hP.pure _
  | eval expr => exact hP.bind (heval expr) fun _ => hP.pure _
  | get name =>
      refine hP.bind hP.context fun c => ?_
      cases c.get? name <;> exact hP.pure _
  | call fn args site =>
      refine hP.bind hP.context fun c => ?_
      split
      · refine hP.bind (hsupplies (Argument.has_evalAll supplying_supplies [] args))
          fun values => ?_
        refine hP.bind (hcall _ _ values) fun _ => ?_
        exact hP.pure _
      · exact hP.pure _

/-- So it does if supplies and traced computations have it. -/
theorem Request.has_perform_of_traced {P : ∀ {α : Type}, Exec α → Prop} (hP : Sequential P)
    (htraced : ∀ {α : Type} {x : Exec α}, (∀ s : Store, Traced .all s.functions x) → P x)
    (hsupplies : ∀ {α : Type} {x : Exec α}, Supplies x → P x)
    (host : Host) (depth : Nat) (request : Request) : P (request.perform host depth) := by
  refine request.has_perform hP hsupplies ?_ ?_ ?_
  · intro program
    exact htraced fun s => (host.within_all s).traced_run rfl depth program
  · intro expr
    exact htraced fun s => (host.within_all s).traced_eval depth expr
  · intro site ref args
    exact htraced fun s => (host.within_all s).traced_call depth site ref args

end FieldScript
