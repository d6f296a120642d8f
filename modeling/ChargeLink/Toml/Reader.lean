import ChargeLink.Binary64.Text
import ChargeLink.Time.Timestamp
import ChargeLink.Toml.Draft

/-!
# Documents from text

`Toml.ofText?` reads a document of version 1.0 of the format. Each reader takes
the characters left and hands back those after what it read. A number or date
that cannot be read to its end leaves characters that nothing may follow a value
with, so it is refused there.
-/

namespace ChargeLink.Toml

/-- A reader of the characters left. -/
abbrev Scan := StateT (List Char) Option

/-- How deep arrays and inline tables may nest. -/
def maxDepth : Nat := 79

/-- How many parts a dotted key may have. -/
def maxKeyParts : Nat := 79

/-- A blank within a line. -/
def isBlankChar (c : Char) : Bool :=
  c == ' ' || c == '\t'

/-- A character allowed in a comment. -/
def isCommentChar (c : Char) : Bool :=
  let n := c.toNat
  n == 9 || (0x20 ≤ n && n ≤ 0x7E) || 0x80 ≤ n

/-- A character that stands for itself between double quotes. -/
def isBasicChar (c : Char) : Bool :=
  isCommentChar c && c != '"' && c != '\\'

/-- A character allowed between single quotes. -/
def isLiteralChar (c : Char) : Bool :=
  isCommentChar c && c.toNat != 39

/-- A character of a bare key. -/
def isBareChar (c : Char) : Bool :=
  let n := c.toNat
  (48 ≤ n && n ≤ 57) || (65 ≤ n && n ≤ 90) || (97 ≤ n && n ≤ 122) || n == 45 || n == 95

/-- Whether the character is a decimal digit. -/
def isDigit (c : Char) : Bool :=
  '0' ≤ c && c ≤ '9'

/-- The single quote. -/
def singleQuote : Char := Char.ofNat 39

/-- The value of a digit of a base up to sixteen. -/
def digit? (base : Nat) (c : Char) : Option Nat :=
  let n := c.toNat
  let v := if 48 ≤ n ∧ n ≤ 57 then n - 48
    else if 97 ≤ n ∧ n ≤ 102 then n - 87
    else if 65 ≤ n ∧ n ≤ 70 then n - 55
    else 16
  if v < base then some v else none

/-- The next character, which stays. -/
def peek : Scan (Option Char) :=
  return (← get).head?

/-- Takes the given character. -/
def char (c : Char) : Scan Unit := do
  match ← get with
  | d :: r => if d = c then set r else failure
  | [] => failure

/-- Takes the given characters. -/
def word : List Char → Scan Unit
  | [] => pure ()
  | c :: r => do char c; word r

/-- Takes characters as long as they satisfy a condition. -/
def takeWhile (p : Char → Bool) : Scan (List Char) := do
  let cs ← get
  set (cs.dropWhile p)
  return cs.takeWhile p

/-- Skips blanks within the line. -/
def blanks : Scan Unit := do
  let _ ← takeWhile isBlankChar

/-- Takes the end of a line. -/
def newline : Scan Unit := do
  match ← get with
  | '\n' :: r => set r
  | '\r' :: '\n' :: r => set r
  | _ => failure

/-- Takes a comment without the end of its line. -/
def comment : Scan Unit := do
  char '#'
  let _ ← takeWhile isCommentChar

/-- Takes the end of a line or of the document. -/
def lineEnd : Scan Unit := do
  if (← get).isEmpty then pure () else newline

/-- Takes what may follow a value or header: blanks, a comment, the end of the line. -/
def trailing : Scan Unit := do
  blanks
  if (← peek) == some '#' then comment
  lineEnd

/-- Skips blanks, line ends and comments, at most `fuel` of them. -/
def gapsFor : (fuel : Nat) → Scan Unit
  | 0 => pure ()
  | fuel + 1 => do
    blanks
    match ← peek with
    | some '#' => comment; gapsFor fuel
    | some '\n' => newline; gapsFor fuel
    | some '\r' => newline; gapsFor fuel
    | _ => pure ()

/-- Skips blanks, line ends and comments. -/
def gaps : Scan Unit := do
  gapsFor ((← get).length + 1)

/-- The character of a one-letter escape. -/
def escape? (c : Char) : Option Char :=
  if c = 'b' then some (Char.ofNat 8)
  else if c = 't' then some '\t'
  else if c = 'n' then some '\n'
  else if c = 'f' then some (Char.ofNat 12)
  else if c = 'r' then some '\r'
  else if c = '"' then some '"'
  else if c = '\\' then some '\\'
  else none

/-- The character of a code point in hexadecimal digits. -/
def codePoint? (cs : List Char) : Option Char :=
  match cs.mapM (digit? 16) with
  | none => none
  | some ds =>
    let n := ds.foldl (fun n d => n * 16 + d) 0
    if n.isValidChar then some (Char.ofNat n) else none

/-- Takes an escape after its backslash. -/
def escapeChar : Scan Char := do
  match ← get with
  | 'u' :: r =>
    set (r.drop 4)
    if r.length < 4 then failure else codePoint? (r.take 4)
  | 'U' :: r =>
    set (r.drop 8)
    if r.length < 8 then failure else codePoint? (r.take 8)
  | c :: r =>
    set r
    escape? c
  | [] => failure

/-- The rest of a text in double quotes, at most `fuel` pieces of it. -/
def basicRest : (fuel : Nat) → Scan (List Char)
  | 0 => failure
  | fuel + 1 => do
    match ← get with
    | '"' :: r => set r; return []
    | '\\' :: r => do
      set r
      let c ← escapeChar
      return c :: (← basicRest fuel)
    | c :: r => if isBasicChar c then do set r; return c :: (← basicRest fuel) else failure
    | [] => failure

/-- A text in double quotes. -/
def basicText : Scan String := do
  char '"'
  return String.ofList (← basicRest ((← get).length + 1))

/-- A text in single quotes. -/
def literalText : Scan String := do
  char singleQuote
  let cs ← takeWhile isLiteralChar
  char singleQuote
  return String.ofList cs

/-- How many of the given characters come next. -/
def runLength (c : Char) (cs : List Char) : Nat :=
  (cs.takeWhile fun d => d == c).length

/-- Takes the quotes at the end of a text over several lines: three close it, and up to two before
them belong to it. -/
def closingRun (quote : Char) : Scan (List Char) := do
  let cs ← get
  let extra := min (runLength quote cs - 3) 2
  set (cs.drop (extra + 3))
  return List.replicate extra quote

/-- The rest of a text in three double quotes. A backslash at the end of a line joins it with the
next text. -/
def basicLines : (fuel : Nat) → Scan (List Char)
  | 0 => failure
  | fuel + 1 => do
    match ← get with
    | '"' :: r => do
      if 2 ≤ runLength '"' r then closingRun '"'
      else
        set r
        return '"' :: (← basicLines fuel)
    | '\\' :: r => do
      set r
      let after := r.dropWhile isBlankChar
      if after.head? == some '\n' || after.head? == some '\r' then
        set after
        newline
        let _ ← takeWhile fun c => isBlankChar c || c == '\n' || (c == '\r')
        basicLines fuel
      else
        let c ← escapeChar
        return c :: (← basicLines fuel)
    | '\n' :: r => set r; return '\n' :: (← basicLines fuel)
    | '\r' :: '\n' :: r => set r; return '\n' :: (← basicLines fuel)
    | c :: r => if isBasicChar c then do set r; return c :: (← basicLines fuel) else failure
    | [] => failure

/-- The rest of a text in three single quotes. -/
def literalLines : (fuel : Nat) → Scan (List Char)
  | 0 => failure
  | fuel + 1 => do
    match ← get with
    | '\n' :: r => set r; return '\n' :: (← literalLines fuel)
    | '\r' :: '\n' :: r => set r; return '\n' :: (← literalLines fuel)
    | c :: r => do
      if c = singleQuote then
        if 2 ≤ runLength singleQuote r then closingRun singleQuote
        else
          set r
          return c :: (← literalLines fuel)
      else if isLiteralChar c then
        set r
        return c :: (← literalLines fuel)
      else failure
    | [] => failure

/-- Skips the end of the line right after the opening quotes. -/
def firstLineEnd : Scan Unit := do
  match ← get with
  | '\n' :: r => set r
  | '\r' :: '\n' :: r => set r
  | _ => pure ()

/-- A text in any of the four forms. -/
def textValue : Scan String := do
  let cs ← get
  if 3 ≤ runLength '"' cs then
    set (cs.drop 3)
    firstLineEnd
    return String.ofList (← basicLines ((← get).length + 1))
  else if 3 ≤ runLength singleQuote cs then
    set (cs.drop 3)
    firstLineEnd
    return String.ofList (← literalLines ((← get).length + 1))
  else if cs.head? == some '"' then basicText
  else literalText

/-- Digits with single underscores between them. -/
def digitsFor (base : Nat) : (fuel : Nat) → Scan (List Nat)
  | 0 => failure
  | fuel + 1 => do
    match ← get with
    | c :: r =>
      match digit? base c with
      | none => failure
      | some d => do
        set r
        match r with
        | '_' :: e :: s =>
          if (digit? base e).isSome then
            set (e :: s)
            return d :: (← digitsFor base fuel)
          else return [d]
        | e :: _ =>
          if (digit? base e).isSome then return d :: (← digitsFor base fuel) else return [d]
        | [] => return [d]
    | [] => failure

/-- Digits of a base with single underscores between them. -/
def digits (base : Nat) : Scan (List Nat) := do
  digitsFor base ((← get).length + 1)

/-- The number of digits in a base. -/
def digitsValue (base : Nat) (ds : List Nat) : Nat :=
  ds.foldl (fun n d => n * base + d) 0

/-- Takes a sign, if there is one, and tells whether it is a minus. -/
def sign : Scan Bool := do
  match ← get with
  | '-' :: r => set r; return true
  | '+' :: r => set r; return false
  | _ => return false

/-- The digits of a decimal number: a lone zero, or digits that do not start with one. -/
def decimalDigits : Scan (List Nat) := do
  match ← get with
  | '0' :: r => set r; return [0]
  | _ => digits 10

/-- A whole number that fits 64 bits with a sign. -/
def wholeNumber (negative : Bool) (n : Nat) : Scan Toml :=
  if negative then (if n ≤ 0x8000000000000000 then return .int (-n) else failure)
  else if n < 0x8000000000000000 then return .int n
  else failure

/-- A whole number in base ten, or after a mark in base sixteen, eight or two. -/
def integer : Scan Toml := do
  match ← get with
  | '0' :: 'x' :: r => do set r; wholeNumber false (digitsValue 16 (← digits 16))
  | '0' :: 'o' :: r => do set r; wholeNumber false (digitsValue 8 (← digits 8))
  | '0' :: 'b' :: r => do set r; wholeNumber false (digitsValue 2 (← digits 2))
  | _ => do
    let negative ← sign
    wholeNumber negative (digitsValue 10 (← decimalDigits))

/-- The exponent of a fractional number, if there is one. -/
def exponent : Scan (Option Int) := do
  match ← get with
  | c :: r =>
    if c = 'e' ∨ c = 'E' then
      set r
      let negative ← sign
      let n : Int := digitsValue 10 (← digits 10)
      return some (if negative then -n else n)
    else return none
  | [] => return none

/-- A number with a fraction or an exponent or both. One too large for a double is refused, unless
it is negative. -/
def fractional : Scan Toml := do
  let negative ← sign
  let whole ← decimalDigits
  let fraction ← match ← get with
    | '.' :: r => do set r; pure (some (← digits 10))
    | _ => pure none
  let e ← exponent
  if fraction.isNone && e.isNone then failure
  else
    let part := fraction.getD []
    let value := Binary64.ofDecimal? negative (digitsValue 10 (whole ++ part))
      (e.getD 0 - part.length)
    if value.isNone && !negative then failure else return .real

/-- Infinity or no number, with or without a sign. -/
def special : Scan Toml := do
  let _ ← sign
  word ['i', 'n', 'f'] <|> word ['n', 'a', 'n']
  return .real

/-- Takes exactly so many decimal digits that make a number between two bounds. -/
def fixedNumber (count low high : Nat) : Scan Nat := do
  let cs ← get
  let ds := cs.take count
  if ds.length = count ∧ ds.all isDigit then
    set (cs.drop count)
    let n := ds.foldl (fun n c => n * 10 + (c.toNat - 48)) 0
    if low ≤ n ∧ n ≤ high then return n else failure
  else failure

/-- A time of day with seconds. -/
def timeOfDay : Scan Unit := do
  let _ ← fixedNumber 2 0 23
  char ':'
  let _ ← fixedNumber 2 0 59
  char ':'
  let _ ← fixedNumber 2 0 60
  match ← get with
  | '.' :: r => do
    set r
    if (← takeWhile isDigit).isEmpty then failure
  | _ => pure ()

/-- An offset from UTC. -/
def timeOffset : Scan Unit := do
  match ← get with
  | c :: r =>
    set r
    if c = 'Z' ∨ c = 'z' then pure ()
    else if c = '+' ∨ c = '-' then
      let _ ← fixedNumber 2 0 23
      char ':'
      let _ ← fixedNumber 2 0 59
    else failure
  | [] => failure

/-- A reader that may also read nothing. -/
def optional (s : Scan Unit) : Scan Unit :=
  s <|> pure ()

/-- A day of the calendar, maybe with a time of day and an offset. -/
def dateTime : Scan Toml := do
  let year ← fixedNumber 4 0 9999
  char '-'
  let month ← fixedNumber 2 1 12
  char '-'
  let _ ← fixedNumber 2 1 (daysInMonth year month)
  optional do
    match ← get with
    | c :: r => if c = 'T' ∨ c = 't' ∨ c = ' ' then set r else failure
    | [] => failure
    timeOfDay
    optional timeOffset
  return .moment

/-- A number or a date. -/
def number : Scan Toml :=
  dateTime <|> (do timeOfDay; return .moment) <|> fractional <|> special <|> integer

/-- One part of a key. -/
def keyPart : Scan String := do
  match ← get with
  | '"' :: _ => basicText
  | c :: _ =>
    if c = singleQuote then literalText
    else
      let cs ← takeWhile isBareChar
      if cs.isEmpty then failure else return String.ofList cs
  | [] => failure

/-- The parts of a key, at most `fuel` of them, with blanks around each. -/
def keyFor : (fuel : Nat) → Scan (List String)
  | 0 => failure
  | fuel + 1 => do
    blanks
    let part ← keyPart
    blanks
    match ← get with
    | '.' :: r => do
      set r
      return part :: (← keyFor fuel)
    | _ => return [part]

/-- A key: the parts before the last one, and the last one. -/
def key : Scan (List String × String) := do
  let parts ← keyFor maxKeyParts
  match parts.getLast? with
  | some last => return (parts.dropLast, last)
  | none => failure

/-- The items of an array after its bracket. -/
def arrayItems (value : Scan Toml) : (fuel : Nat) → Scan (List Toml)
  | 0 => failure
  | fuel + 1 => do
    gaps
    match ← get with
    | ']' :: r => set r; return []
    | _ => do
      let v ← value
      gaps
      match ← get with
      | ',' :: r => do
        set r
        return v :: (← arrayItems value fuel)
      | ']' :: r => set r; return [v]
      | _ => failure

/-- The entries of an inline table, each with the comma or brace after it. -/
def inlineEntries (value : Scan Toml) : (fuel : Nat) → Entries → Scan Entries
  | 0, _ => failure
  | fuel + 1, entries => do
    let (path, last) ← key
    char '='
    blanks
    let v ← value
    blanks
    match Draft.addValue path last v entries with
    | none => failure
    | some entries =>
      match ← get with
      | ',' :: r => do
        set r
        inlineEntries value fuel entries
      | '}' :: r => set r; return entries
      | _ => failure

/-- An inline table after its brace. -/
def inlineTable (value : Scan Toml) : Scan Toml := do
  blanks
  match ← get with
  | '}' :: r => set r; return .table []
  | cs => return .table (Draft.finishEntries (← inlineEntries value (cs.length + 1) []))

/-- A value that holds no other. -/
def scalar : Scan Toml := do
  match ← get with
  | '"' :: _ => return .text (← textValue)
  | 't' :: _ => do word ['t', 'r', 'u', 'e']; return .flag true
  | 'f' :: _ => do word ['f', 'a', 'l', 's', 'e']; return .flag false
  | c :: _ => if c = singleQuote then return .text (← textValue) else number
  | [] => failure

/-- A value, given the reader of the values inside it. -/
def valueOf (inner : Scan Toml) : Scan Toml := do
  match ← get with
  | '[' :: r => do
    set r
    return .array (← arrayItems inner (r.length + 1))
  | '{' :: r => do
    set r
    inlineTable inner
  | _ => scalar

/-- A value, with at most `depth` arrays and inline tables around its innermost part. -/
def valueWithin : (depth : Nat) → Scan Toml
  | 0 => valueOf failure
  | depth + 1 => valueOf (valueWithin depth)

/-- A document that is being read: its entries, and the header opened last. -/
structure Reading where
  root : Entries
  header : List String

/-- A header and what may follow it. -/
def headerLine (s : Reading) : Scan Reading := do
  match ← get with
  | '[' :: '[' :: r => do
    set r
    let (path, last) ← key
    word [']', ']']
    trailing
    let root ← Draft.openRow path last s.root
    return ⟨root, path ++ [last]⟩
  | '[' :: r => do
    set r
    let (path, last) ← key
    char ']'
    trailing
    let root ← Draft.openTable path last s.root
    return ⟨root, path ++ [last]⟩
  | _ => failure

/-- A key with its value and what may follow it. -/
def keyLine (s : Reading) : Scan Reading := do
  let (path, last) ← key
  char '='
  blanks
  let v ← valueWithin maxDepth
  trailing
  let root ← Draft.addBelow s.header path last v s.root
  return { s with root }

/-- The lines of a document, at most `fuel` of them. -/
def lines : (fuel : Nat) → Reading → Scan Reading
  | 0, _ => failure
  | fuel + 1, s => do
    blanks
    match ← peek with
    | none => return s
    | some '#' => do comment; lineEnd; lines fuel s
    | some '[' => do lines fuel (← headerLine s)
    | some '\n' => do newline; lines fuel s
    | some '\r' => do newline; lines fuel s
    | some _ => do lines fuel (← keyLine s)

/-- The entries of the document that a text stands for; a mark of the byte order is skipped. -/
def ofText? (s : String) : Option (List (String × Toml)) :=
  let cs := match s.toList with
    | c :: r => if c.toNat = 0xFEFF then r else c :: r
    | [] => []
  match (lines (cs.length + 1) ⟨[], []⟩).run cs with
  | some (reading, _) => some (Draft.finishEntries reading.root)
  | none => none

end ChargeLink.Toml
