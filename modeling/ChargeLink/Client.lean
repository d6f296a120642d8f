import ChargeLink.Connection.Basic

/-!
# Clients

A charge point connects to the address of its central system followed by its own
id, and offers exactly the version it speaks. Anything but that version in the
answer ends the attempt.
-/

namespace ChargeLink

namespace Client

/-- The address that a charge point connects to: the base without slashes at its end, and the id. -/
def address (base id : String) : String :=
  let trimmed := (base.toList.reverse.dropWhile fun c => c == '/').reverse
  String.ofList trimmed ++ "/" ++ id

/-- A character that may stand in the path of a request. -/
def isPathChar (c : Char) : Bool :=
  let n := c.toNat
  n == 0x21 || n == 0x22 || (0x24 ≤ n && n ≤ 0x3B) || n == 0x3D || (0x40 ≤ n && n ≤ 0x5F) ||
    (0x61 ≤ n && n ≤ 0x7E) || 0x80 ≤ n

/-- A character that may stand in the query of a request. -/
def isQueryChar (c : Char) : Bool :=
  let n := c.toNat
  n == 0x21 || (0x24 ≤ n && n ≤ 0x3B) || n == 0x3D || (0x3F ≤ n && n ≤ 0x7E) || 0x80 ≤ n

/-- What has been read of the authority of an address, which names the host and stands in front of
the path. -/
structure Authority where
  /-- The colons since the last `@` or `]`. -/
  colons : Nat
  /-- Whether a bracket has been opened, and whether one has been closed. -/
  opened : Bool
  closed : Bool
  /-- Whether there has been a percent sign since the last `@` or `]`. -/
  escape : Bool

namespace Authority

/-- A character without a meaning of its own. -/
def isPlain (c : Char) : Bool :=
  c.isAlphanum || "!$&()*+,-.;=_~".toList.contains c || c.toNat == 39

/-- Reads one more character: user information ends with `@`, and the groups of a long address stand
in brackets. -/
def read? (a : Authority) (c : Char) : Option Authority :=
  if c = ':' then if a.colons < 8 then some { a with colons := a.colons + 1 } else none
  else if c = '[' then if a.opened || a.escape then none else some { a with opened := true }
  else if c = ']' then
    if !a.opened || a.closed then none
    else some { a with closed := true, colons := 0, escape := false }
  else if c = '@' then some { a with colons := 0, escape := false }
  else if c = '%' then some { a with escape := true }
  else if isPlain c then some a
  else none

/-- The host may be followed by one port, and only user information may have percent signs. -/
def isComplete (a : Authority) : Bool :=
  a.opened == a.closed && a.colons ≤ 1 && !a.escape

/-- Whether characters name a host. -/
def accepts (cs : List Char) : Bool :=
  !cs.isEmpty && cs.getLast? != some '@' &&
    (cs.foldlM read? ⟨0, false, false, false⟩).any isComplete

end Authority

/-- The path of what follows the host in an address, if a request can be made from it. -/
def pathAfterHost? (cs : List Char) : Option String :=
  let cs := cs.takeWhile fun c => c != '#'
  let path := cs.takeWhile fun c => c != '?'
  let query := (cs.drop path.length).drop 1
  if !query.all isQueryChar || !path.all isPathChar then none
  else if path.isEmpty then some "/"
  else some (String.ofList path)

/-- The path that is requested from an address, if a request can be made to it. -/
def path? (address : String) : Option String :=
  match address.toList with
  | 'w' :: 's' :: ':' :: '/' :: '/' :: r =>
    let host := r.takeWhile fun c => c != '/' && c != '?' && c != '#'
    if Authority.accepts host then pathAfterHost? (r.drop host.length) else none
  | _ => none

/-- Whether the answer names exactly the version offered. -/
def agrees (version : Version) (answer : Option String) : Bool :=
  answer.any fun a => Text.trimmed a == version.subprotocol

/-- The connection of a charge point to its central system. -/
def connection (id : String) (registry : Registry) (config : SessionConfig) (label : String) :
    Connection :=
  ⟨.ofTurn (Turn.openSession 0 id registry config .json label (.create true) 0) .empty,
    Link.create none⟩

end Client

end ChargeLink
