import FieldScript.Toml.Quoted
import FieldScript.Toml.Tree

/-!
# FieldScript.Toml.Scalar

Numbers, dates and times.

Between digits a single underscore may stand.  An integer has no superfluous zero in
front unless it is in another base, and fits 64 bits with a sign; a float that would
round above the largest double-precision number is refused.
-/

namespace FieldScript

namespace Toml

namespace Reader

variable {α : Type}

/-! ## digits -/

/-- Takes digits, each of which may have an underscore before it. -/
def moreDigits (p : Char → Bool) : Reader (List Char) :=
  bounded loop
where
  loop : Nat → Reader (List Char)
    | 0 => pure []
    | n + 1 => do
      match ← peek? with
      | some '_' =>
        let _ ← next
        let c ← satisfy p
        return c :: (← loop n)
      | some c =>
        if p c then
          let _ ← next
          return c :: (← loop n)
        else return []
      | none => return []

/-- Takes at least one digit. -/
def digits (p : Char → Bool) : Reader (List Char) := do
  let first ← satisfy p
  return first :: (← moreDigits p)

/-- Takes the digits of a decimal integer: a zero stands by itself. -/
def wholeDigits : Reader (List Char) := do
  let first ← satisfy isDigit
  if first == '0' then return [first] else return first :: (← moreDigits isDigit)

/-- The number that digits spell. -/
def number (base : Nat) (ds : List Char) : Nat :=
  ds.foldl (fun n c => base * n + (hexValue? c).getD 0) 0

/-- Takes a sign, if there is one: is it a minus? -/
def sign : Reader Bool := do
  if ← opt '-' then return true
  else
    let _ ← opt '+'
    return false

/-! ## integers -/

/-- Only numbers of 64 bits with a sign. -/
def int64 (i : Int) : Reader Int :=
  if -0x8000000000000000 ≤ i && i < 0x8000000000000000 then pure i else failure

/-- Takes an integer in another base, after its two leading characters. -/
def based (base : Nat) (lead : List Char) (p : Char → Bool) : Reader Int := do
  chars lead
  int64 (number base (← digits p))

def integer : Reader Int := do
  if ← ahead ['0', 'x'] then based 16 ['0', 'x'] fun c => (hexValue? c).isSome
  else if ← ahead ['0', 'o'] then based 8 ['0', 'o'] fun c => '0' ≤ c && c ≤ '7'
  else if ← ahead ['0', 'b'] then based 2 ['0', 'b'] fun c => c == '0' || c == '1'
  else
    let negative ← sign
    let n : Int := number 10 (← wholeDigits)
    int64 (if negative then -n else n)

/-! ## floats -/

/-- Does a decimal round above the largest double-precision number?  The least that
does lies halfway to the next power of two. -/
def overflows (digits : Nat) (exponent : Int) : Bool :=
  let power := exponent + (Nat.toDigits 10 digits).length
  if digits = 0 || power < 309 then false
  else if 310 < power then true
  else
    (Nat.pow 2 1024 - Nat.pow 2 970) * Nat.pow 10 (-exponent).toNat
      ≤ digits * Nat.pow 10 exponent.toNat

/-- Takes an exponent. -/
def exponent : Reader Int := do
  let _ ← satisfy fun c => c == 'e' || c == 'E'
  let negative ← sign
  let n : Int := number 10 (← digits isDigit)
  return if negative then -n else n

/-- Takes a number with a fraction, an exponent or both. -/
def decimal : Reader Number := do
  let negative ← sign
  let whole ← wholeDigits
  let fraction ← (do
    char '.'
    digits isDigit) <|> pure []
  let power ← if fraction.isEmpty then exponent else exponent <|> pure 0
  let value := number 10 (whole ++ fraction)
  let scale := power - fraction.length
  if !negative && overflows value scale then failure
  else return .decimal negative value scale

/-- Takes an infinity or a not-a-number. -/
def special : Reader Number := do
  let negative ← sign
  (do
    chars ['i', 'n', 'f']
    return .infinite negative) <|> (do
    chars ['n', 'a', 'n']
    return .notANumber negative)

/-! ## dates and times -/

/-- Takes exactly so many digits. -/
def exactDigits : Nat → Reader (List Char)
  | 0 => pure []
  | count + 1 => do
    let c ← satisfy isDigit
    return c :: (← exactDigits count)

/-- Takes two digits of a number in some span. -/
def twoDigits (low high : Nat) : Reader Nat := do
  let n := number 10 (← exactDigits 2)
  if low ≤ n && n ≤ high then return n else failure

def isLeapYear (year : Nat) : Bool :=
  year % 4 == 0 && (year % 100 != 0 || year % 400 == 0)

def daysIn (year month : Nat) : Nat :=
  if month = 2 then (if isLeapYear year then 29 else 28)
  else if month = 4 || month = 6 || month = 9 || month = 11 then 30
  else 31

/-- Takes a date that exists. -/
def date : Reader Unit := do
  let year := number 10 (← exactDigits 4)
  char '-'
  let month ← twoDigits 1 12
  char '-'
  let _ ← twoDigits 1 (daysIn year month)

/-- Takes a time of day; a minute may have a leap second. -/
def time : Reader Unit := do
  let _ ← twoDigits 0 23
  char ':'
  let _ ← twoDigits 0 59
  char ':'
  let _ ← twoDigits 0 60
  (do
    char '.'
    let _ ← satisfy isDigit
    let _ ← takeWhile isDigit) <|> pure ()

/-- Takes how far a time is from universal time. -/
def zone : Reader Unit := do
  match ← next with
  | 'Z' | 'z' => return ()
  | '+' | '-' =>
    let _ ← twoDigits 0 23
    char ':'
    let _ ← twoDigits 0 59
  | _ => failure

/-- Takes a date, a time or both. -/
def datetime : Reader Unit :=
  (do
    date
    (do
      let _ ← satisfy fun c => c == 'T' || c == 't' || c == ' '
      time
      zone <|> pure ()) <|> pure ()) <|> time

/-! ## all scalars -/

/-- Takes a value that holds no others. -/
def scalarValue : Reader (Range → Value) := do
  match ← peek? with
  | some '"' | some '\'' => do
    let text ← anyString
    return fun r => .string r (String.ofList text)
  | some 't' => do
    chars ['t', 'r', 'u', 'e']
    return fun r => .boolean r true
  | some 'f' => do
    chars ['f', 'a', 'l', 's', 'e']
    return fun r => .boolean r false
  | _ =>
    (do
      let text ← taken datetime
      return fun r => .datetime r (String.ofList text)) <|> (do
      let value ← decimal <|> special
      return fun r => .float r value) <|> (do
      let value ← integer
      return fun r => .integer r value)

end Reader

end Toml

end FieldScript
