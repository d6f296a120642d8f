import ChargeLink.Server.Negotiation
import ChargeLink.Text.Blank

/-!
# Handshakes

A charge point names itself by the path of its request, `/ocpp/{id}` or `/{id}`,
and lists the subprotocols it speaks. A request without an id, and one without a
version that both ends speak, is refused.
-/

namespace ChargeLink

/-- How a request for a connection is answered. -/
inductive Handshake where
  /-- Accepted; a subprotocol is named only if the charge point listed any. -/
  | accepted (chargePointId : String) (version : Version) (subprotocol : Option String)
  /-- The path names no charge point. -/
  | noChargePoint
  /-- There is no version that both ends speak. -/
  | noVersion
  deriving DecidableEq, Repr

namespace Handshake

/-- The status code of the answer. -/
def status : Handshake → Nat
  | accepted .. => 101
  | noChargePoint => 404
  | noVersion => 400

/-- The subprotocol named in the answer. -/
def subprotocol? : Handshake → Option String
  | accepted _ _ p => p
  | _ => none

/-- What a refusal says. -/
def body? : Handshake → Option String
  | accepted .. => none
  | noChargePoint => some "expected /ocpp/\x7bchargePointId\x7d"
  | noVersion => some "unsupported subprotocol"

/-- The path of a request, without its query. -/
def pathOf (target : String) : String :=
  String.ofList (target.toList.takeWhile fun c => c != '?' && c != '#')

/-- A path without slashes in front. -/
def afterSlashes (cs : List Char) : List Char :=
  cs.dropWhile fun c => c == '/'

/-- A path without slashes at its ends. -/
def betweenSlashes (cs : List Char) : List Char :=
  (afterSlashes (afterSlashes cs).reverse).reverse

/-- An id is neither empty nor a path of several parts. -/
def idOf? (cs : List Char) : Option String :=
  if cs.isEmpty || cs.contains '/' then none else some (String.ofList cs)

/-- The charge point that a path names. -/
def chargePointId? (path : String) : Option String :=
  match afterSlashes path.toList with
  | 'o' :: 'c' :: 'p' :: 'p' :: '/' :: r => idOf? (betweenSlashes r)
  | cs => idOf? cs

/-- A header as far as it can be read: one with other characters than visible ones, blanks and tabs
counts as missing. -/
def readable (header : Option String) : String :=
  match header with
  | some h => if h.toList.all fun c => (32 ≤ c.toNat && c.toNat < 127) || c == '\t' then h else ""
  | none => ""

/-- How a server answers a request. -/
def ofRequest (n : Negotiator) (target : String) (header : Option String) : Handshake :=
  match chargePointId? (pathOf target) with
  | none => .noChargePoint
  | some id =>
    let listed := readable header
    if (Text.trimmed listed).isEmpty then
      match n.fallback with
      | some v => .accepted id v none
      | none => .noVersion
    else
      match n.choose listed with
      | some v => .accepted id v (some v.subprotocol)
      | none => .noVersion

end Handshake

end ChargeLink
