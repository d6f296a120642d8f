import ChargeLink.Text.Shown

/-!
# Quoted text in diagnostics

A text in double quotes: quotes, backslashes, the usual control characters and
every character that is not shown are escaped, the last ones by their code
point. It serves messages for people, not the wire.
-/

namespace ChargeLink.Text

/-- A character inside a diagnostic quotation. -/
def diagnosticChar (c : Char) : List Char :=
  if c = '"' then ['\\', '"']
  else if c = '\\' then ['\\', '\\']
  else if c = '\n' then ['\\', 'n']
  else if c = '\r' then ['\\', 'r']
  else if c = '\t' then ['\\', 't']
  else if c.toNat = 0 then ['\\', '0']
  else if isShown c then [c]
  else ['\\', 'u', '{'] ++ Nat.toDigits 16 c.toNat ++ ['}']

/-- A text in a diagnostic. -/
def diagnostic (s : String) : String :=
  String.ofList ('"' :: (s.toList.flatMap diagnosticChar ++ ['"']))

end ChargeLink.Text
