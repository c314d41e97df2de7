import FieldScript.Value

/-!
# FieldScript.Function

Functions as programs see them.

A function has a name and publishes a signature.  What it does when it is called is
not part of the language: a `Behaviour` only names it, and whoever runs programs
knows what the name stands for.
-/

namespace FieldScript

/-- A parameter of a function. -/
structure Param where
  name : String
  type : ValueType
deriving DecidableEq

/-- What a function does when it is called.  The functions of the language's own
library are told apart from those that an embedding program brings along under a
key of its own. -/
inductive Behaviour where
  | clock
  | hasField
  /-- Answers null, whatever it is given. -/
  | inert
  | embedded (key : String)
deriving DecidableEq

/-- A function: the signature it publishes and what it does. -/
structure Function where
  name : String
  params : List Param
  result : ValueType
  behaviour : Behaviour
deriving DecidableEq

instance : Inhabited Function := ⟨⟨"", [], .null, .inert⟩⟩

end FieldScript
