import ChargeLink.Text.Blank

/-!
# Protocol versions

The two generations of the protocol, their names on the wire and their rank in
a negotiation.
-/

namespace ChargeLink

/-- A generation of the protocol. -/
inductive Version where
  | v16
  | v201
  deriving DecidableEq, Repr

namespace Version

/-- Every version, the newest first. -/
def all : List Version := [v201, v16]

/-- The short name. -/
def name : Version → String
  | v16 => "V16"
  | v201 => "V201"

/-- The name offered and chosen in a WebSocket handshake. -/
def subprotocol : Version → String
  | v16 => "ocpp1.6"
  | v201 => "ocpp2.0.1"

/-- The version number. -/
def number : Version → String
  | v16 => "1.6"
  | v201 => "2.0.1"

/-- The name for people. -/
def title (v : Version) : String :=
  "OCPP " ++ v.number

/-- The place in a negotiation: the higher rank is preferred. -/
def rank : Version → Nat
  | v16 => 1
  | v201 => 2

/-- The version that a subprotocol names, blanks around it aside. Stations of the time before
2.0.1 call it `ocpp2.0`. -/
def ofSubprotocol? (s : String) : Option Version :=
  let s := Text.trimmed s
  if s = "ocpp1.6" then some v16
  else if s = "ocpp2.0.1" ∨ s = "ocpp2.0" then some v201
  else none

theorem rank_injective {a b : Version} (h : a.rank = b.rank) : a = b := by
  cases a <;> cases b <;> simp_all [rank]

theorem mem_all (v : Version) : v ∈ all := by
  cases v <;> simp [all]

end Version

end ChargeLink
