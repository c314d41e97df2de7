import FieldScript.Value

/-!
# FieldScript.Error

What can go wrong while a program runs.

An error has a cause, which is data, and `Cause.message` is the one place where
causes are worded.  An error also keeps the place it happened at, the calls that
were in progress and any advice that goes with it.
-/

namespace FieldScript

/-! ## causes -/

/-- A call whose arguments do not suit the function. -/
inductive ArgumentError where
  | wrongArity (fn : String) (expected got : Nat)
  /-- Positions count from one. -/
  | wrongType (fn : String) (position : Nat) (expected found : ValueType)
deriving DecidableEq

/-- Why a program was aborted. -/
inductive Cause where
  /-- A failure that a function words itself. -/
  | custom (text : String)
  | undefinedField (cls field : String)
  | notAnInstance (found : ValueType)
  | undefinedVariable (name : String)
  | libraryItemAssignment (name : String)
  | notCallable (found : ValueType)
  | notABoolean (found : ValueType)
  | argument (error : ArgumentError)
deriving DecidableEq

/-! ## wording -/

def ArgumentError.message : ArgumentError → String
  | .wrongArity fn expected got =>
    "function '" ++ fn ++ "' takes " ++ toString expected ++ " argument(s) but "
      ++ toString got ++ " were provided"
  | .wrongType fn position expected found =>
    "argument " ++ toString position ++ " of function '" ++ fn ++ "' should be a "
      ++ expected.text ++ ", found a " ++ found.text

def Cause.message : Cause → String
  | .custom text => text
  | .undefinedField cls field =>
    "field '" ++ field ++ "' is not defined on this instance of class '" ++ cls ++ "'"
  | .notAnInstance found => "only instances have fields, found a " ++ found.text
  | .undefinedVariable name => "variable '" ++ name ++ "' was not found"
  | .libraryItemAssignment name => "cannot assign to native library item '" ++ name ++ "'"
  | .notCallable found => "expected a function or a class, found a " ++ found.text
  | .notABoolean found => "expected a boolean, found a " ++ found.text
  | .argument error => error.message

/-! ## errors -/

/-- What an additional line of an error is. -/
inductive InfoKind where
  | note | tip
deriving DecidableEq

structure Info where
  kind : InfoKind
  text : String
deriving DecidableEq

/-- A call in progress: the function and the place it was called at. -/
structure CallEntry where
  fn : String
  site : Location
deriving DecidableEq

/-- An error that aborts a program. -/
structure RuntimeError where
  location : Location
  cause : Cause
  /-- The calls in progress, oldest first. -/
  calls : List CallEntry
  infos : List Info
deriving DecidableEq

end FieldScript
