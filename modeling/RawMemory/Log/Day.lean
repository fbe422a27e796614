/-!
# Days

The days of the Gregorian calendar, counted from the first of January 1970. A year is taken to begin in
March, so that a leap day is the last day of its year, and 400 years always have the same length.
-/

namespace RawMemory

/-- A day of the calendar. -/
structure Day where
  /-- The year. -/
  year : Nat
  /-- The month, from 1 to 12. -/
  month : Nat
  /-- The day of the month, from 1 on. -/
  day : Nat
deriving DecidableEq

namespace Day

/-- The day that lies a number of days after the first of January 1970. -/
def ofNumber (days : Nat) : Day :=
  -- counted from the first of March of the year 0
  let shifted := days + 719468
  let era := shifted / 146097
  let dayOfEra := shifted % 146097
  let yearOfEra :=
    (dayOfEra - dayOfEra / 1460 + dayOfEra / 36524 - dayOfEra / 146096) / 365
  let dayOfYear := dayOfEra - (365 * yearOfEra + yearOfEra / 4 - yearOfEra / 100)
  -- counted from March
  let month := (5 * dayOfYear + 2) / 153
  let year := yearOfEra + 400 * era
  { year := if month < 10 then year else year + 1
    month := if month < 10 then month + 3 else month - 9
    day := dayOfYear - (153 * month + 2) / 5 + 1 }

/-- The day on which a second lies, counted from the beginning of 1970. -/
def ofSeconds (seconds : Nat) : Day := ofNumber (seconds / 86400)

/-- A number with zeros in front of it, up to a number of digits. -/
def padded (digits n : Nat) : String :=
  let text := toString n
  String.ofList (List.replicate (digits - text.length) '0') ++ text

/-- The day as year, month and day with hyphens between them. -/
def text (d : Day) : String :=
  padded 4 d.year ++ "-" ++ padded 2 d.month ++ "-" ++ padded 2 d.day

example : (ofNumber 0).text = "1970-01-01" := by decide +kernel

example : ofNumber 11016 = ⟨2000, 2, 29⟩ ∧ ofNumber 11017 = ⟨2000, 3, 1⟩ := by decide +kernel

end Day

end RawMemory
