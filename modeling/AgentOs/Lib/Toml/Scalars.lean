import AgentOs.Lib.Calendar

/-!
The texts of TOML's scalars: booleans, numbers, dates and times.

Each predicate says that a whole text is one; a text is read as far as the next delimiter
and has to be one of them (`isScalar`).
-/

namespace AgentOs.Lib.Toml

def isBinaryDigit (c : Char) : Bool := c = '0' || c = '1'

def isOctalDigit (c : Char) : Bool := '0' ≤ c && c ≤ '7'

/-- The value of a hexadecimal digit. -/
def hexValue (c : Char) : Option ℕ :=
  if c.isDigit then some (c.toNat - 48)
  else if 'a' ≤ c ∧ c ≤ 'f' then some (c.toNat - 87)
  else if 'A' ≤ c ∧ c ≤ 'F' then some (c.toNat - 55)
  else none

/-! ### Numbers -/

/-- Digits, with single underscores between them. -/
def digitRun (isDigit : Char → Bool) : List Char → Bool
  | [] => false
  | [c] => isDigit c
  | c :: '_' :: cs => isDigit c && digitRun isDigit cs
  | c :: cs => isDigit c && digitRun isDigit cs

def dropSign : List Char → List Char
  | '+' :: cs => cs
  | '-' :: cs => cs
  | cs => cs

def isDigitOrUnderscore (c : Char) : Bool := c.isDigit || c = '_'

/-- The exponent of a number, if any. -/
def isExponent : List Char → Bool
  | [] => true
  | c :: cs => (c = 'e' || c = 'E') && digitRun Char.isDigit (dropSign cs)

/-- The fraction and the exponent of a number, if any. -/
def isFloatPart : List Char → Bool
  | '.' :: cs =>
      digitRun Char.isDigit (cs.takeWhile isDigitOrUnderscore) &&
        isExponent (cs.dropWhile isDigitOrUnderscore)
  | cs => isExponent cs

/-- The integer part of a number has no leading zero. -/
def isIntegerPart (digits : List Char) : Bool :=
  digits = ['0'] || (digits.head? ≠ some '0' && digitRun Char.isDigit digits)

/-- The number of digits that `int` reads of a decimal text. -/
def maxIntDigits : ℕ := 4300

/-- A decimal number: an integer that is not too long, or a float. -/
def isDecimal (text : List Char) : Bool :=
  let digits := (dropSign text).takeWhile isDigitOrUnderscore
  let rest := (dropSign text).dropWhile isDigitOrUnderscore
  isIntegerPart digits && isFloatPart rest &&
    (rest ≠ [] || (digits.filter Char.isDigit).length ≤ maxIntDigits)

def isNumber : List Char → Bool
  | '0' :: 'x' :: cs => digitRun (fun c => (hexValue c).isSome) cs
  | '0' :: 'o' :: cs => digitRun isOctalDigit cs
  | '0' :: 'b' :: cs => digitRun isBinaryDigit cs
  | cs => isDecimal cs || dropSign cs = "inf".toList || dropSign cs = "nan".toList

/-! ### Dates and times -/

/-- The number that two digits write, if they are digits. -/
def twoDigits (tens ones : Char) : Option ℕ :=
  if tens.isDigit && ones.isDigit then some ((tens.toNat - 48) * 10 + (ones.toNat - 48)) else none

/-- Two digits of a number below a bound. -/
def twoDigitsBelow (bound : ℕ) (tens ones : Char) : Bool :=
  match twoDigits tens ones with
  | some n => n < bound
  | none => false

/-- What is left after the fraction of a second, if any. -/
def afterFraction : List Char → List Char
  | '.' :: c :: cs => if c.isDigit then cs.dropWhile Char.isDigit else '.' :: c :: cs
  | cs => cs

/-- What is left after a time. -/
def afterTime : List Char → Option (List Char)
  | h₁ :: h₂ :: ':' :: m₁ :: m₂ :: ':' :: s₁ :: s₂ :: cs =>
      if twoDigitsBelow 24 h₁ h₂ && twoDigitsBelow 60 m₁ m₂ && twoDigitsBelow 60 s₁ s₂ then
        some (afterFraction cs)
      else none
  | _ => none

def isTime (text : List Char) : Bool := afterTime text = some []

/-- The offset of a time, if any. -/
def isOffset : List Char → Bool
  | [] => true
  | ['Z'] | ['z'] => true
  | [sign, h₁, h₂, ':', m₁, m₂] =>
      (sign = '+' || sign = '-') && twoDigitsBelow 24 h₁ h₂ && twoDigitsBelow 60 m₁ m₂
  | _ => false

/-- What is left after a date, which is one of the calendar. -/
def afterDate : List Char → Option (List Char)
  | y₁ :: y₂ :: y₃ :: y₄ :: '-' :: m₁ :: m₂ :: '-' :: d₁ :: d₂ :: cs => do
      let century ← twoDigits y₁ y₂
      let year ← twoDigits y₃ y₄
      let month ← twoDigits m₁ m₂
      let day ← twoDigits d₁ d₂
      let year := century * 100 + year
      if 1 ≤ year ∧ 1 ≤ month ∧ month ≤ 12 ∧ 1 ≤ day ∧ day ≤ Calendar.daysInMonth year month then some cs
      else none
  | _ => none

def isDate (text : List Char) : Bool := afterDate text = some []

def isDateTime (text : List Char) : Bool :=
  match afterDate text with
  | some (separator :: cs) =>
      separator ∈ ['T', 't', ' '] &&
        match afterTime cs with
        | some offset => isOffset offset
        | none => false
  | _ => false

/-- The text is a boolean, a number, a date or a time. -/
def isScalar (text : List Char) : Bool :=
  text = "true".toList || text = "false".toList || isNumber text || isTime text || isDate text ||
    isDateTime text

end AgentOs.Lib.Toml
