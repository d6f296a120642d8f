import ChargeLink.Text.Blank
import ChargeLink.Time.Timestamp

/-!
# Timestamps from text

The date and time format of RFC 3339, read leniently: blanks are allowed before
numbers and separators, numbers may be shorter than two digits, a year may have
a sign and any number of digits, and the separator of hours and minutes of an
offset may be a run of colons and blanks or be missing. Each number is checked
against its range where it stands, so the first fault from the left is reported.
The offset is then taken off, and the result has to lie in the calendar.
-/

namespace ChargeLink

/-- Why a text is no timestamp. -/
inductive TimeFault where
  | invalid
  | tooShort
  | outOfRange
  | tooLong
  | impossible
  deriving DecidableEq, Repr

/-- The fault in words. -/
def TimeFault.message : TimeFault → String
  | invalid => "input contains invalid characters"
  | tooShort => "premature end of input"
  | outOfRange => "input is out of range"
  | tooLong => "trailing input"
  | impossible => "no possible date and time matching input"

namespace Timestamp

/-- A reader of the characters left. -/
abbrev Scan := StateT (List Char) (Except TimeFault)

/-- Whether the character is a decimal digit. -/
def isDigit (c : Char) : Bool :=
  '0' ≤ c && c ≤ '9'

/-- The number of decimal digits. -/
def digitsValue (cs : List Char) : Nat :=
  cs.foldl (fun n c => n * 10 + (c.toNat - 48)) 0

/-- Skips blanks. -/
def blanks : Scan Unit :=
  modify Text.trimLeft

/-- Takes the given character. -/
def literal (c : Char) : Scan Unit := do
  match ← get with
  | [] => throw .tooShort
  | d :: r => if d = c then set r else throw .invalid

/-- Takes at least one and at most `most` digits; a number past 63 bits is out of range. -/
def digits (most : Nat) : Scan (List Char) := do
  let cs ← get
  let ds := (cs.take most).takeWhile isDigit
  if cs.isEmpty then throw .tooShort
  else if ds.isEmpty then throw .invalid
  else if 0x8000000000000000 ≤ digitsValue ds then throw .outOfRange
  else
    set (cs.drop ds.length)
    return ds

/-- A number of at most two digits between two bounds, blanks before it aside. -/
def number (low high : Nat) : Scan Nat := do
  blanks
  let n := digitsValue (← digits 2)
  if low ≤ n ∧ n ≤ high then return n else throw .outOfRange

/-- A year: four digits at most, or a sign and any number of them. -/
def yearNumber : Scan Int := do
  blanks
  let signed (sign : Int) (r : List Char) : Scan Int := do
    set r
    return sign * digitsValue (← digits r.length)
  let y ← match ← get with
    | '-' :: r => signed (-1) r
    | '+' :: r => signed 1 r
    | _ => do return (digitsValue (← digits 4) : Int)
  if -0x80000000 ≤ y ∧ y < 0x80000000 then return y else throw .outOfRange

/-- A fraction of a second in nanoseconds; digits after the ninth do not count. -/
def fraction : Scan Nat := do
  match ← get with
  | '.' :: r =>
    set r
    let ds ← digits 9
    modify (List.dropWhile isDigit)
    return digitsValue ds * Nat.pow 10 (9 - ds.length)
  | _ => return 0

/-- Exactly two digits. Too little text is told from wrong text by the bytes left. -/
def twoDigits : Scan Nat := do
  match ← get with
  | [] => throw .tooShort
  | [c] => if c.toNat < 128 then throw .tooShort else throw .invalid
  | a :: b :: r =>
    if isDigit a && isDigit b then
      set r
      return digitsValue [a, b]
    else throw .invalid

/-- The offset from UTC in minutes. -/
def offset : Scan Int := do
  let signed (sign : Int) (r : List Char) : Scan Int := do
    set r
    let hours ← twoDigits
    modify (List.dropWhile fun c => c = ':' || Text.isBlank c)
    let minutes ← twoDigits
    if minutes < 60 then return sign * (hours * 60 + minutes) else throw .outOfRange
  match ← get with
  | [] => throw .tooShort
  | c :: r =>
    if c = 'Z' ∨ c = 'z' then do set r; return 0
    else if c = '+' then signed 1 r
    else if c = '-' ∨ c.toNat = 0x2212 then signed (-1) r
    else throw .invalid

/-- The name of UTC, in any case, or an offset from it. -/
def zone : Scan Int := do
  match ← get with
  | a :: b :: c :: r =>
    if a.toUpper = 'U' ∧ b.toUpper = 'T' ∧ c.toUpper = 'C' then do set r; return 0
    else offset
  | _ => offset

/-- Date, time and offset in minutes, each number in its own range. -/
structure Local where
  date : Day
  hour : Nat
  minute : Nat
  second : Nat
  nano : Nat
  offset : Int

/-- The separator of date and time. -/
def dateEnd : Scan Unit := do
  match ← get with
  | [] => throw .tooShort
  | c :: r => if c = 'T' ∨ c = 't' ∨ c = ' ' then set r else throw .invalid

/-- Everything up to the end of the offset. -/
def scanLocal : Scan Local := do
  let year ← yearNumber
  blanks
  literal '-'
  let month ← number 1 12
  blanks
  literal '-'
  let day ← number 1 31
  dateEnd
  let hour ← number 0 23
  blanks
  literal ':'
  let minute ← number 0 59
  blanks
  literal ':'
  let second ← number 0 60
  let nano ← fraction
  blanks
  let offset ← zone
  return ⟨⟨year, month, day⟩, hour, minute, second, nano, offset⟩

/-- The timestamp of a local time, if the calendar has it. -/
def ofLocal (l : Local) : Except TimeFault Timestamp :=
  if l.date.Valid ∧ l.offset.natAbs < 24 * 60 then
    let minutes : Int := l.hour * 60 + l.minute - l.offset
    let date := if minutes < 0 then l.date.previous
      else if 24 * 60 ≤ minutes then l.date.next else l.date
    let minuteOfDay := (minutes % (24 * 60)).toNat
    let hour := minuteOfDay / 60
    let minute := minuteOfDay % 60
    if hd : date.Valid then
      if ht : hour < 24 ∧ minute < 60 ∧ l.second ≤ 60 ∧ l.nano < 1000000000 then
        .ok ⟨date, hour, minute, l.second, l.nano, hd, ht⟩
      else .error .outOfRange
    else .error .impossible
  else .error .outOfRange

/-- The timestamp of a text. -/
def ofText (s : String) : Except TimeFault Timestamp :=
  match scanLocal.run s.toList with
  | .error e => .error e
  | .ok (l, rest) => if (Text.trimLeft rest).isEmpty then ofLocal l else .error .tooLong

end Timestamp

end ChargeLink
