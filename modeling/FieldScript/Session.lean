import FieldScript.Given
import FieldScript.Description
import FieldScript.Library.Embedded

/-!
# FieldScript.Session

Contexts that are used again and again.

A session holds contexts over one store and answers requests on them, one at a
time.  Whatever a request comes to, its context can be used again; a context can
also be copied, after which the two have variables of their own and share the
instances those refer to.
-/

namespace FieldScript

/-! ## requests and answers -/

/-- An argument for a call from outside. -/
inductive Argument where
  | given (value : Given) (origin : Location)
  /-- The value of a variable, null if there is none. -/
  | variable (name : String) (origin : Location)

inductive Request where
  | run (program : Program)
  /-- Evaluates an expression outside any program. -/
  | eval (expr : Expr)
  /-- Looks up a variable. -/
  | get (name : String)
  /-- Calls the function that a variable holds. -/
  | call (fn : String) (args : List Argument) (site : Location)

inductive Reply where
  | nothing
  | located (value : Located)
  | value (value : Value)
  | notAFunction (name : String)

/-- How a request ended. -/
inductive Outcome where
  | nothing
  | located (value : Description) (origin : Location)
  | value (value : Description)
  | notAFunction (name : String)
  | stopped (stop : Stop)

/-- What can be seen of a context: the current scope with its variables in order,
and the calls in progress, oldest first. -/
structure Snapshot where
  scope : Nat
  vars : List (String × Brief × Location)
  calls : List CallEntry

/-- What a request comes to: its outcome, the state of the context afterwards, and
what it added to the log. -/
structure Answer where
  outcome : Outcome
  state : Snapshot
  log : List LogLine

def World.snapshot (w : World) : Snapshot :=
  let scope := w.context.current
  ⟨scope.id, scope.vars.entries.map fun p => (p.1, w.store.brief p.2.value, p.2.origin),
    w.context.history⟩

/-! ## carrying out requests -/

/-- The values of arguments, in order. -/
def Argument.evalAll (made : List Located) : List Argument → Exec (List Located)
  | [] => pure made
  | .given g origin :: rest => do
    let value ← g.build (made.map (·.value)) .null
    evalAll (made ++ [⟨value, origin⟩]) rest
  | .variable name origin :: rest => do
    let value := (((← Exec.context).get? name).map (·.value)).getD .null
    evalAll (made ++ [⟨value, origin⟩]) rest

/-- What a request does in its context. -/
def Request.perform (host : Host) (depth : Nat) : Request → Exec Reply
  | .run program => do
    match ← host.run depth program with
    | some v => return .located v
    | none => return .nothing
  | .eval expr => do return .value (← host.eval depth expr)
  | .get name => do
    match (← Exec.context).get? name with
    | some v => return .located v
    | none => return .nothing
  | .call fn args site => do
    match (← Exec.context).get? fn with
    | some ⟨.fn ref, _⟩ =>
      let values ← Argument.evalAll [] args
      return .value (← host.call depth site ref values)
    | _ => return .notAFunction fn

def Reply.outcome (store : Store) : Reply → Outcome
  | .nothing => .nothing
  | .located v => .located (store.describe v.value) v.origin
  | .value v => .value (store.describe v)
  | .notAFunction name => .notAFunction name

/-- What can be told once a request has been carried out. -/
def Answer.of (outcome : Outcome) (m : Machine) : Answer :=
  ⟨outcome, m.world.snapshot, logOf m.journal⟩

/-- Carries out a request in a world, with a journal of its own. -/
def Request.answer (host : Host) (depth : Nat) (request : Request) (w : World) :
    Answer × World :=
  match request.perform host depth ⟨w, []⟩ with
  | .ok reply m => (.of (reply.outcome m.world.store) m, m.world)
  | .error stop m => (.of (.stopped stop) m, m.world)

/-! ## sessions -/

/-- Contexts over one store. -/
structure Session where
  contexts : List Context
  store : Store

namespace Session

/-- The functions that a session's library holds after its own. -/
def extend (embedded : Bool) (library : Bindings Located) : Exec (Bindings Located) :=
  if embedded then Library.bindAll "host" library Library.embeddedFunctions else pure library

/-- The world before anything exists. -/
def blank (policy : Policy) : World := ⟨.new policy ∅, ∅⟩

/-- A session with one fresh context, and what can be told of it. -/
def start (policy : Policy) (embedded : Bool) : Answer × Session :=
  match (do extend embedded (← Library.build)) ⟨blank policy, []⟩ with
  | .ok library m =>
    let w : World := ⟨.new policy library, m.world.store⟩
    (.of .nothing ⟨w, m.journal⟩, ⟨[w.context], w.store⟩)
  | .error stop m => (.of (.stopped stop) m, ⟨[m.world.context], m.world.store⟩)

/-- The world of the context at an index. -/
def world? (s : Session) (index : Nat) : Option World :=
  s.contexts[index]?.map fun c => ⟨c, s.store⟩

/-- Carries out a request in the context at an index, if there is one. -/
def answer (host : Host) (depth : Nat) (s : Session) (index : Nat) (request : Request) :
    Option Answer × Session :=
  match s.world? index with
  | none => (none, s)
  | some w =>
    let (a, w') := request.answer host depth w
    (some a, ⟨s.contexts.set index w'.context, w'.store⟩)

/-- Copies the context at an index; the copy comes last. -/
def clone (s : Session) (index : Nat) : Session :=
  match s.contexts[index]? with
  | none => s
  | some c => { s with contexts := s.contexts ++ [c] }

end Session

end FieldScript
