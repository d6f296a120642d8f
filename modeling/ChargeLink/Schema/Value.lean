import ChargeLink.Json.Value
import ChargeLink.Binary64.Text
import ChargeLink.Time.Timestamp

/-!
# Typed values

What a payload becomes once it is decoded. A record holds the members that are
present, by their wire names in the order of their declaration; `Value.encode`
is the payload that stands for the value.
-/

namespace ChargeLink

/-- A decoded value. -/
inductive Value where
  | text (s : String)
  | int (n : Int)
  | real (x : Binary64)
  | flag (b : Bool)
  | instant (t : Timestamp)
  | choice (variant : String)
  | list (items : List Value)
  | record (members : List (String × Value))

namespace Value

instance : Inhabited Value := ⟨record []⟩

mutual
/-- The payload of a value. -/
def encode : Value → Json
  | text s => .str s
  | int n => .int n
  | real x => .double x
  | flag b => .bool b
  | instant t => .str t.text
  | choice v => .str v
  | list items => .arr (encodeItems items)
  | record members => .object (encodeMembers members)

/-- The payloads of a list. -/
def encodeItems : List Value → List Json
  | [] => []
  | v :: r => encode v :: encodeItems r

/-- The payloads of a record's members. -/
def encodeMembers : List (String × Value) → List (String × Json)
  | [] => []
  | (k, v) :: r => (k, encode v) :: encodeMembers r
end

/-- The value of a key among members. -/
def lookup (key : String) : List (String × Value) → Option Value
  | [] => none
  | (k, v) :: r => if k == key then some v else lookup key r

/-- The member of a record. -/
def get? (key : String) : Value → Option Value
  | record members => lookup key members
  | _ => none

end Value

end ChargeLink
