import ChargeLink.Toml.Value

/-!
# Documents as text

A document is written as sections of scalars. A text takes the plainest of four
forms that can hold it as it is: double quotes, single quotes, three double
quotes, three single quotes. One that none of them can hold is escaped between
double quotes.
-/

namespace ChargeLink

/-- A value that is written after its key on one line of a section. -/
inductive TomlScalar where
  | text (s : String)
  | nat (n : Nat)
  | flag (b : Bool)
  deriving DecidableEq, Repr

namespace TomlScalar

/-- The value that the scalar is read back as. -/
def value : TomlScalar → Toml
  | text s => .text s
  | nat n => .int n
  | flag b => .flag b

/-- Whether a character has no place in any text that is not escaped. -/
def isForbidden (c : Char) : Bool :=
  let n := c.toNat
  (n < 0x20 && n != 9 && n != 10) || n == 0x7F

/-- The longest run of a character, given the one that has just been passed. -/
def longestRun (c : Char) : (run : Nat) → List Char → Nat
  | run, [] => run
  | run, d :: r => if d = c then longestRun c (run + 1) r else max run (longestRun c 0 r)

/-- A character as four hexadecimal digits after a mark. -/
def codeEscape (c : Char) : List Char :=
  let digits := (Nat.toDigits 16 c.toNat).map Char.toUpper
  ['\\', 'u'] ++ List.replicate (4 - digits.length) '0' ++ digits

/-- Characters between double quotes, of which at most `quotes` may follow each other, given the
run that has just been passed. Ends of lines stay as they are if `lines` is set. -/
def escaped (lines : Bool) (quotes : Nat) : (run : Nat) → List Char → List Char
  | _, [] => []
  | run, c :: r =>
    if c = '"' then
      if run < quotes then c :: escaped lines quotes (run + 1) r
      else codeEscape c ++ escaped lines quotes 0 r
    else
      let here :=
        if c = '\\' then ['\\', '\\']
        else if c = '\t' then ['\\', 't']
        else if c = '\n' then (if lines then [c] else ['\\', 'n'])
        else if c = '\r' then ['\\', 'r']
        else if c.toNat = 8 then ['\\', 'b']
        else if c.toNat = 12 then ['\\', 'f']
        else if isForbidden c then codeEscape c
        else [c]
      here ++ escaped lines quotes 0 r

/-- The form of a text: the delimiter, how often it stands at each end, and whether what is between
is escaped. -/
structure Form where
  quote : Char
  count : Nat
  escapes : Bool

/-- The plainest form for a text. -/
def formOf (cs : List Char) : Form :=
  let single := Char.ofNat 39
  let plain := cs.all fun c => !isForbidden c
  let lines := cs.contains '\n'
  let noEscape := plain && !cs.contains '\\'
  if noEscape && longestRun '"' 0 cs == 0 && !lines then ⟨'"', 1, true⟩
  else if plain && longestRun single 0 cs == 0 && !lines then ⟨single, 1, false⟩
  else if noEscape && longestRun '"' 0 cs ≤ 2 then ⟨'"', 3, true⟩
  else if plain && longestRun single 0 cs ≤ 2 then ⟨single, 3, false⟩
  else ⟨'"', if lines then 3 else 1, true⟩

/-- A text in the given form. -/
def textIn (f : Form) (cs : List Char) : List Char :=
  let delimiter := List.replicate f.count f.quote
  let first := if f.count = 3 ∧ cs.contains '\n' then ['\n'] else []
  let inner := if f.escapes then escaped (f.count = 3) (f.count - 1) 0 cs else cs
  delimiter ++ first ++ inner ++ delimiter

/-- A text in its plainest form. -/
def quoted (s : String) : String :=
  String.ofList (textIn (formOf s.toList) s.toList)

/-- The scalar as it is written. -/
def render : TomlScalar → String
  | text s => quoted s
  | nat n => toString n
  | flag true => "true"
  | flag false => "false"

end TomlScalar

/-- A table of scalars under a bare name. -/
structure TomlSection where
  name : String
  entries : List (String × TomlScalar)

namespace TomlSection

/-- The lines of a section. -/
def render (s : TomlSection) : String :=
  s.entries.foldl (fun out e => out ++ e.1 ++ " = " ++ e.2.render ++ "\n") ("[" ++ s.name ++ "]\n")

/-- Sections with an empty line between them. -/
def renderAll (sections : List TomlSection) : String :=
  "\n".intercalate (sections.map render)

end TomlSection

end ChargeLink
