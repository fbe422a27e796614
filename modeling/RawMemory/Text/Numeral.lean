/-!
# Decimal numerals

Numbers as people type them into settings and on command lines. A numeral is decimal digits, perhaps
after a plus sign, and nothing else. A real numeral may have either sign, a fraction and an exponent, or
be a word for infinity or for no number at all.
-/

namespace RawMemory.Text

/-- The value of a digit. -/
def digitValue (c : Char) : Nat := c.toNat - '0'.toNat

/-- The number that digits stand for. -/
def ofDigits (digits : List Char) : Nat := digits.foldl (fun n c => 10 * n + digitValue c) 0

/-- The word that a numeral stands for, if it is one and the number is a word. -/
def word? (text : String) : Option UInt64 :=
  let digits :=
    match text.toList with
    | '+' :: digits => digits
    | digits => digits
  if digits ≠ [] ∧ digits.all Char.isDigit ∧ ofDigits digits < 0x10000000000000000 then
    some (UInt64.ofNat (ofDigits digits))
  else none

example : word? "+007" = some 7 ∧ word? "18446744073709551616" = none ∧ word? "1_0" = none := by
  decide +kernel

/-- The characters behind a sign, if there is one. -/
def unsigned : List Char → List Char
  | '+' :: cs | '-' :: cs => cs
  | cs => cs

/-- Whether characters are digits, at least one of them. -/
def areDigits (cs : List Char) : Bool := cs ≠ [] && cs.all Char.isDigit

/-- Whether characters are an exponent, which may be left out. -/
def isExponent : List Char → Bool
  | [] => true
  | mark :: cs => mark.toLower = 'e' && areDigits (unsigned cs)

/-- The words that are real numerals, in lower case. -/
def realWords : List String := ["inf", "infinity", "nan"]

/-- Whether a text is a real numeral. There is a digit on one side of the point at least. -/
def isReal (text : String) : Bool :=
  let cs := unsigned text.toList
  let whole := cs.takeWhile Char.isDigit
  let rest := cs.dropWhile Char.isDigit
  let fraction := if rest.head? = some '.' then rest.tail.takeWhile Char.isDigit else []
  let rest := if rest.head? = some '.' then rest.tail.dropWhile Char.isDigit else rest
  realWords.any (fun word => word.toList = cs.map Char.toLower) ||
    (areDigits (whole ++ fraction) && isExponent rest)

example : isReal "+5." ∧ isReal "-.5E+3" ∧ isReal "-NaN" ∧ isReal "1e400" := by decide +kernel

example : ["", "+", ".", "5e", "++5", "1 "].all (¬ isReal ·) := by decide +kernel

end RawMemory.Text
