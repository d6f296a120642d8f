import ChargeLink.Time.Timestamp

/-!
# Counting days

The day that lies so many days after the first of January 1970. Years are taken
to begin in March, so that a leap day is the last of its year, and four hundred
of them always have the same number of days.
-/

namespace ChargeLink

/-- The days of four hundred years. -/
def daysOfEra : Int := 146097

/-- The days from the first of March of the year zero to the first of January 1970. -/
def daysToEpoch : Int := 719468

/-- The day so many days after the first of January 1970. -/
def Day.ofCount (count : Int) : Day :=
  let days := count + daysToEpoch
  let era := days.fdiv daysOfEra
  let inEra := (days - era * daysOfEra).toNat
  let year := (inEra - inEra / 1460 + inEra / 36524 - inEra / 146096) / 365
  let inYear := inEra - (365 * year + year / 4 - year / 100)
  let shifted := (5 * inYear + 2) / 153
  let day := inYear - (153 * shifted + 2) / 5 + 1
  let month := if shifted < 10 then shifted + 3 else shifted - 9
  ⟨year + era * 400 + (if month ≤ 2 then 1 else 0), month, day⟩

/-- The point in time so many seconds after the start of 1970, if the calendar reaches it. -/
def Timestamp.ofSeconds? (seconds : Int) : Option Timestamp :=
  let date := Day.ofCount (seconds.fdiv 86400)
  let rest := (seconds.fmod 86400).toNat
  if h : date.Valid then
    if t : rest / 3600 < 24 ∧ rest / 60 % 60 < 60 ∧ rest % 60 ≤ 60 ∧ 0 < 1000000000 then
      some ⟨date, rest / 3600, rest / 60 % 60, rest % 60, 0, h, t⟩
    else none
  else none

/-- The start of 1970. -/
def Timestamp.epoch : Timestamp :=
  ⟨⟨1970, 1, 1⟩, 0, 0, 0, 0, by decide, by decide⟩

end ChargeLink
