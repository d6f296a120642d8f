import ChargeLink.Json.Value
import ChargeLink.Binary64.Text

/-!
# JSON from text

`Json.ofText?` reads one value with blanks around it. A whole number that fits
64 bits stays whole, with or without a sign; every other number becomes a
double, and one too large for a double is refused. Values nest at most
`maxDepth` deep. Each reader takes the characters left and hands back those
after what it read.
-/

namespace ChargeLink.Json

/-- How deep arrays and objects may nest. -/
def maxDepth : Nat := 127

/-- The characters allowed between tokens. -/
def isSpace (c : Char) : Bool :=
  c == ' ' || c == '\n' || c == '\t' || c == '\r'

/-- The characters after the blanks. -/
def skipSpace (cs : List Char) : List Char :=
  cs.dropWhile isSpace

/-- The value of a hexadecimal digit. -/
def hexValue? (c : Char) : Option Nat :=
  if '0' ≤ c ∧ c ≤ '9' then some (c.toNat - 48)
  else if 'a' ≤ c ∧ c ≤ 'f' then some (c.toNat - 87)
  else if 'A' ≤ c ∧ c ≤ 'F' then some (c.toNat - 55)
  else none

/-- The number of four hexadecimal digits. -/
def hexWord? (a b c d : Char) : Option Nat :=
  match hexValue? a, hexValue? b, hexValue? c, hexValue? d with
  | some a, some b, some c, some d => some (a * 4096 + b * 256 + c * 16 + d)
  | _, _, _, _ => none

/-- The character of a one-letter escape. -/
def simpleEscape? (c : Char) : Option Char :=
  if c = '"' then some '"'
  else if c = '\\' then some '\\'
  else if c = '/' then some '/'
  else if c = 'b' then some (Char.ofNat 8)
  else if c = 'f' then some (Char.ofNat 12)
  else if c = 'n' then some '\n'
  else if c = 'r' then some '\r'
  else if c = 't' then some '\t'
  else none

/-- The rest of a string after its opening quote, the characters so far in reverse order. A
high surrogate has to be followed by an escaped low one, and no low one stands alone. -/
def readChars (acc : List Char) : List Char → Option (List Char × List Char)
  | [] => none
  | '"' :: r => some (acc.reverse, r)
  | '\\' :: 'u' :: a :: b :: c :: d :: '\\' :: 'u' :: e :: f :: g :: h :: r =>
    match hexWord? a b c d with
    | none => none
    | some n =>
      if 0xD800 ≤ n ∧ n < 0xDC00 then
        match hexWord? e f g h with
        | none => none
        | some m =>
          if 0xDC00 ≤ m ∧ m < 0xE000 then
            readChars (Char.ofNat (0x10000 + (n - 0xD800) * 0x400 + (m - 0xDC00)) :: acc) r
          else none
      else if 0xDC00 ≤ n ∧ n < 0xE000 then none
      else readChars (Char.ofNat n :: acc) ('\\' :: 'u' :: e :: f :: g :: h :: r)
  | '\\' :: 'u' :: a :: b :: c :: d :: r =>
    match hexWord? a b c d with
    | none => none
    | some n =>
      if 0xD800 ≤ n ∧ n < 0xE000 then none else readChars (Char.ofNat n :: acc) r
  | '\\' :: c :: r =>
    match simpleEscape? c with
    | some e => readChars (e :: acc) r
    | none => none
  | c :: r => if c = '\\' then none else if c.toNat < 32 then none else readChars (c :: acc) r

/-- A string after its opening quote. -/
def readString (cs : List Char) : Option (String × List Char) :=
  (readChars [] cs).map fun (s, r) => (String.ofList s, r)

/-- Whether the character is a decimal digit. -/
def isDigit (c : Char) : Bool :=
  '0' ≤ c && c ≤ '9'

/-- The number of decimal digits. -/
def digitsValue (cs : List Char) : Nat :=
  cs.foldl (fun n c => n * 10 + (c.toNat - 48)) 0

/-- The digits before a point: a lone zero, or digits that do not start with one. -/
def readWhole (cs : List Char) : Option (List Char × List Char) :=
  match cs with
  | '0' :: r => if (r.head?.map isDigit).getD false then none else some (['0'], r)
  | _ =>
    let ds := cs.takeWhile isDigit
    if ds.isEmpty then none else some (ds, cs.dropWhile isDigit)

/-- The digits after a point; none without a point. -/
def readFraction (cs : List Char) : Option (Option (List Char) × List Char) :=
  match cs with
  | '.' :: r =>
    let ds := r.takeWhile isDigit
    if ds.isEmpty then none else some (some ds, r.dropWhile isDigit)
  | _ => some (none, cs)

/-- The exponent after its letter; none without a letter. -/
def readExponent (cs : List Char) : Option (Option Int × List Char) :=
  let signed (s : Int) (r : List Char) : Option (Option Int × List Char) :=
    let ds := r.takeWhile isDigit
    if ds.isEmpty then none else some (some (s * digitsValue ds), r.dropWhile isDigit)
  let afterLetter (r : List Char) : Option (Option Int × List Char) :=
    match r with
    | '-' :: r => signed (-1) r
    | '+' :: r => signed 1 r
    | _ => signed 1 r
  match cs with
  | 'e' :: r => afterLetter r
  | 'E' :: r => afterLetter r
  | _ => some (none, cs)

/-- The number with this sign, these digits before and after the point, and this exponent. One that
is not whole is the double nearest to the decimal, however long that is. (A reader that scales the
digits in doubles finds the same one for up to fifteen digits and powers of ten up to 22; beyond
them it may find a neighbour, or a number at the upper end of the range too large.) -/
def number? (negative : Bool) (whole : List Char) (fraction : Option (List Char))
    (exponent : Option Int) : Option Json :=
  let n := digitsValue whole
  match fraction, exponent with
  | none, none =>
    if negative then
      if 0 < n ∧ n ≤ 0x8000000000000000 then some (int (-n))
      else (Binary64.ofDecimal? true n 0).map float
    else if n < 0x10000000000000000 then some (int n)
    else (Binary64.ofDecimal? false n 0).map float
  | _, _ =>
    let f := fraction.getD []
    (Binary64.ofDecimal? negative (digitsValue (whole ++ f)) (exponent.getD 0 - f.length)).map float

/-- A number after its sign. -/
def readUnsigned (negative : Bool) (cs : List Char) : Option (Json × List Char) := do
  let (whole, cs) ← readWhole cs
  let (fraction, cs) ← readFraction cs
  let (exponent, cs) ← readExponent cs
  let v ← number? negative whole fraction exponent
  return (v, cs)

/-- The items after the first one, in reverse order before it, up to the closing bracket. -/
def readItems (item : List Char → Option (Json × List Char)) :
    (fuel : Nat) → List Json → List Char → Option (Json × List Char)
  | 0, _, _ => none
  | fuel + 1, acc, cs =>
    match skipSpace cs with
    | ']' :: r => some (arr acc.reverse, r)
    | ',' :: r =>
      match item r with
      | some (v, r) => readItems item fuel (v :: acc) r
      | none => none
    | _ => none

/-- A key with its colon and its value. -/
def readMember (item : List Char → Option (Json × List Char)) (cs : List Char) :
    Option ((String × Json) × List Char) :=
  match skipSpace cs with
  | '"' :: r =>
    match readString r with
    | some (k, r) =>
      match skipSpace r with
      | ':' :: r =>
        match item r with
        | some (v, r) => some ((k, v), r)
        | none => none
      | _ => none
    | none => none
  | _ => none

/-- The members after the first one up to the closing brace. -/
def readMembers (item : List Char → Option (Json × List Char)) :
    (fuel : Nat) → List (String × Json) → List Char → Option (Json × List Char)
  | 0, _, _ => none
  | fuel + 1, acc, cs =>
    match skipSpace cs with
    | '}' :: r => some (obj acc, r)
    | ',' :: r =>
      match readMember item r with
      | some ((k, v), r) => readMembers item fuel (insert k v acc) r
      | none => none
    | _ => none

/-- One value, with at most `depth` arrays and objects around its innermost part. -/
def readValue : (depth : Nat) → List Char → Option (Json × List Char)
  | depth, cs =>
    match skipSpace cs with
    | 'n' :: 'u' :: 'l' :: 'l' :: r => some (null, r)
    | 't' :: 'r' :: 'u' :: 'e' :: r => some (bool true, r)
    | 'f' :: 'a' :: 'l' :: 's' :: 'e' :: r => some (bool false, r)
    | '"' :: r => (readString r).map fun (s, r) => (str s, r)
    | '[' :: r =>
      match depth with
      | 0 => none
      | depth + 1 =>
        match skipSpace r with
        | ']' :: r => some (arr [], r)
        | r =>
          match readValue depth r with
          | some (v, r) => readItems (readValue depth) (r.length + 1) [v] r
          | none => none
    | '{' :: r =>
      match depth with
      | 0 => none
      | depth + 1 =>
        match skipSpace r with
        | '}' :: r => some (obj [], r)
        | r =>
          match readMember (readValue depth) r with
          | some (m, r) => readMembers (readValue depth) (r.length + 1) [m] r
          | none => none
    | '-' :: r => readUnsigned true r
    | r => readUnsigned false r

/-- The value of characters that hold one value, nested at most `depth` deep, and blanks around
it. -/
def ofCharsWithin? (depth : Nat) (cs : List Char) : Option Json :=
  match readValue depth cs with
  | some (v, r) => if (skipSpace r).isEmpty then some v else none
  | none => none

/-- The value of a text that holds one value and blanks around it. -/
def ofText? (s : String) : Option Json :=
  ofCharsWithin? maxDepth s.toList

end ChargeLink.Json
