import ChargeLink.Json.Value
import ChargeLink.Binary64.Text

/-!
# JSON as text

The compact form: no blanks, members in the order of the object, and in strings
only quotes, backslashes and control characters escaped. It is built over
characters (`Json.chars`) so that reading it back can be reasoned about.
-/

namespace ChargeLink.Json

/-- A lower-case hexadecimal digit. -/
def hexDigit (n : Nat) : Char :=
  if n < 10 then Char.ofNat (48 + n) else Char.ofNat (87 + n)

/-- A character inside a string. -/
def escape (c : Char) : List Char :=
  if c = '"' then ['\\', '"']
  else if c = '\\' then ['\\', '\\']
  else if c.toNat = 8 then ['\\', 'b']
  else if c.toNat = 9 then ['\\', 't']
  else if c.toNat = 10 then ['\\', 'n']
  else if c.toNat = 12 then ['\\', 'f']
  else if c.toNat = 13 then ['\\', 'r']
  else if c.toNat < 32 then ['\\', 'u', '0', '0', hexDigit (c.toNat / 16), hexDigit (c.toNat % 16)]
  else [c]

/-- The characters of a string, escaped. -/
def escaped : List Char → List Char
  | [] => []
  | c :: r => escape c ++ escaped r

/-- A string in its quotes. -/
def quoted (s : String) : List Char :=
  '"' :: (escaped s.toList ++ ['"'])

/-- A whole number in decimal digits. -/
def intChars (n : Int) : List Char :=
  if n < 0 then '-' :: Nat.toDigits 10 n.natAbs else Nat.toDigits 10 n.natAbs

mutual
/-- The compact text of a value. -/
def chars : Json → List Char
  | null => ['n', 'u', 'l', 'l']
  | bool true => ['t', 'r', 'u', 'e']
  | bool false => ['f', 'a', 'l', 's', 'e']
  | int n => intChars n
  | float x => x.text.toList
  | str s => quoted s
  | arr [] => ['[', ']']
  | arr (v :: r) => '[' :: (chars v ++ itemChars r)
  | obj [] => ['{', '}']
  | obj ((k, v) :: r) => '{' :: (quoted k ++ ':' :: (chars v ++ memberChars r))

/-- The items after the first one, with the closing bracket. -/
def itemChars : List Json → List Char
  | [] => [']']
  | v :: r => ',' :: (chars v ++ itemChars r)

/-- The members after the first one, with the closing brace. -/
def memberChars : List (String × Json) → List Char
  | [] => ['}']
  | (k, v) :: r => ',' :: (quoted k ++ ':' :: (chars v ++ memberChars r))
end

/-- The compact text of a value. -/
def render (v : Json) : String :=
  String.ofList v.chars

end ChargeLink.Json
