/-!
# Socket addresses

An address is four bytes or eight groups of sixteen bits, with a port and, for
the longer form, a scope. Reading is strict: no zero in front of a byte, at most
four digits in a group, one `::` at most, and four bytes may stand for the last
two groups. The longest run of zero groups is written as `::`, the first of
several, unless it is a single group.
-/

namespace ChargeLink

/-- A socket address. -/
inductive SocketAddress where
  | v4 (bytes : List Nat) (port : Nat)
  | v6 (groups : List Nat) (scope port : Nat)
  deriving DecidableEq, Repr

namespace SocketAddress

/-- The value of a digit in a base. -/
def digit? (base : Nat) (c : Char) : Option Nat :=
  let n := c.toNat
  let v := if 48 ≤ n ∧ n ≤ 57 then n - 48
    else if 97 ≤ n ∧ n ≤ 102 then n - 87
    else if 65 ≤ n ∧ n ≤ 70 then n - 55
    else 16
  if v < base then some v else none

/-- Reads as many digits as there are: a number below `bound` with at most `most` digits. -/
def number (base most bound : Nat) (zeroInFront : Bool) (cs : List Char) :
    Option (Nat × List Char) :=
  let ds := (cs.takeWhile fun c => (digit? base c).isSome).filterMap (digit? base)
  let n := ds.foldl (fun n d => n * base + d) 0
  if ds.isEmpty || most < ds.length || bound ≤ n then none
  else if !zeroInFront && ds.head? == some 0 && 1 < ds.length then none
  else some (n, cs.drop ds.length)

/-- Takes a character. -/
def take (c : Char) : List Char → Option (List Char)
  | d :: r => if c = d then some r else none
  | [] => none

/-- Reads a byte. -/
def byte (cs : List Char) : Option (Nat × List Char) :=
  number 10 3 256 false cs

/-- Reads four bytes with points between them. -/
def fourBytes (cs : List Char) : Option (List Nat × List Char) := do
  let (a, cs) ← byte cs
  let (b, cs) ← byte (← take '.' cs)
  let (c, cs) ← byte (← take '.' cs)
  let (d, cs) ← byte (← take '.' cs)
  return ([a, b, c, d], cs)

/-- Takes the colon before every group but the first. -/
def beforeGroup (first : Bool) (cs : List Char) : Option (List Char) :=
  if first then some cs else take ':' cs

/-- Reads groups as long as there are any, at most `left`; tells whether the last two were written
as four bytes. -/
def groups : (left : Nat) → (first : Bool) → List Char → List Nat × Bool × List Char
  | 0, _, cs => ([], false, cs)
  | left + 1, first, cs =>
    match beforeGroup first cs with
    | none => ([], false, cs)
    | some r =>
      match if 0 < left then fourBytes r else none with
      | some ([a, b, c, d], r) => ([a * 256 + b, c * 256 + d], true, r)
      | _ =>
        match number 16 4 65536 true r with
        | none => ([], false, cs)
        | some (g, r) =>
          let (gs, bytes, r) := groups left false r
          (g :: gs, bytes, r)

/-- Reads eight groups, or fewer with a `::` for the ones left out. -/
def eightGroups (cs : List Char) : Option (List Nat × List Char) :=
  let (head, bytes, r) := groups 8 true cs
  if head.length = 8 then some (head, r)
  else if bytes then none
  else
    match r with
    | ':' :: ':' :: r =>
      let (tail, _, r) := groups (7 - head.length) true r
      some (head ++ List.replicate (8 - head.length - tail.length) 0 ++ tail, r)
    | _ => none

/-- Reads a port with its colon. -/
def port (cs : List Char) : Option (Nat × List Char) := do
  number 10 cs.length 65536 true (← take ':' cs)

/-- Reads the scope with its sign, if there is one. -/
def scope (cs : List Char) : Nat × List Char :=
  match cs with
  | '%' :: r => (number 10 r.length 0x100000000 true r).getD (0, cs)
  | _ => (0, cs)

/-- Reads an address of four bytes. -/
def readV4 (cs : List Char) : Option SocketAddress := do
  let (bytes, cs) ← fourBytes cs
  let (p, cs) ← port cs
  if cs.isEmpty then some (.v4 bytes p) else none

/-- Reads an address of eight groups. -/
def readV6 (cs : List Char) : Option SocketAddress := do
  let (gs, cs) ← eightGroups (← take '[' cs)
  let (s, cs) := scope cs
  let (p, cs) ← port (← take ']' cs)
  if cs.isEmpty then some (.v6 gs s p) else none

/-- The address that a text stands for. -/
def ofText? (s : String) : Option SocketAddress :=
  readV4 s.toList <|> readV6 s.toList

/-- Why a text is no address. -/
def syntaxMessage : String :=
  "invalid socket address syntax"

/-- Four bytes with points between them. -/
def bytesText (bytes : List Nat) : String :=
  ".".intercalate (bytes.map toString)

/-- A group in lower-case hexadecimal digits. -/
def groupText (g : Nat) : String :=
  String.ofList (Nat.toDigits 16 g)

/-- Groups with colons between them. -/
def groupsText (gs : List Nat) : String :=
  ":".intercalate (gs.map groupText)

/-- The length of the run of zeros at the start. -/
def zeroRun (gs : List Nat) : Nat :=
  (gs.takeWhile fun g => g == 0).length

/-- The start and the length of the longest run of zeros, the first of several. -/
def longestRun (gs : List Nat) : Nat × Nat :=
  (List.range gs.length).foldl (fun best i =>
    let n := zeroRun (gs.drop i)
    if best.2 < n then (i, n) else best) (0, 0)

/-- Eight groups in their shortest form. -/
def eightGroupsText (gs : List Nat) : String :=
  match gs with
  | [0, 0, 0, 0, 0, 0xFFFF, a, b] =>
    "::ffff:" ++ bytesText [a / 256, a % 256, b / 256, b % 256]
  | _ =>
    let (start, length) := longestRun gs
    if 1 < length then
      groupsText (gs.take start) ++ "::" ++ groupsText (gs.drop (start + length))
    else groupsText gs

/-- The text of an address. -/
def text : SocketAddress → String
  | v4 bytes port => bytesText bytes ++ ":" ++ toString port
  | v6 gs scope port =>
    "[" ++ eightGroupsText gs ++ (if scope = 0 then "" else "%" ++ toString scope) ++ "]:" ++
      toString port

end SocketAddress

end ChargeLink
