import ChargeLink.Binary64.Basic

/-!
# JSON values

Numbers are whole numbers or doubles, and the two never equal each other. An
object lists its members by ascending key, each key once: `Json.object` builds
such a list, the last of equal keys winning, and `Json.Canonical` says it of a
whole value.
-/

namespace ChargeLink

/-- A JSON value. -/
inductive Json where
  | null
  | bool (b : Bool)
  | int (n : Int)
  | float (x : Binary64)
  | str (s : String)
  | arr (items : List Json)
  | obj (members : List (String × Json))

namespace Json

mutual
/-- Equality of values. -/
def beq : Json → Json → Bool
  | null, null => true
  | bool a, bool b => a == b
  | int a, int b => a == b
  | float a, float b => a == b
  | str a, str b => a == b
  | arr a, arr b => beqItems a b
  | obj a, obj b => beqMembers a b
  | _, _ => false

/-- Equality of arrays. -/
def beqItems : List Json → List Json → Bool
  | [], [] => true
  | a :: r, b :: s => beq a b && beqItems r s
  | _, _ => false

/-- Equality of objects, member by member. -/
def beqMembers : List (String × Json) → List (String × Json) → Bool
  | [], [] => true
  | (k, a) :: r, (l, b) :: s => k == l && beq a b && beqMembers r s
  | _, _ => false
end

instance : BEq Json := ⟨beq⟩

instance : Inhabited Json := ⟨null⟩

/-- Puts a member at its place by key; an equal key's value is replaced. -/
def insert (key : String) (value : Json) : List (String × Json) → List (String × Json)
  | [] => [(key, value)]
  | (k, v) :: r =>
    if key < k then (key, value) :: (k, v) :: r
    else if k < key then (k, v) :: insert key value r
    else (key, value) :: r

/-- The members by ascending key; of equal keys the last one counts. -/
def sorted (members : List (String × Json)) : List (String × Json) :=
  members.foldl (fun acc (k, v) => insert k v acc) []

/-- The object with these members; of equal keys the last one counts. -/
def object (members : List (String × Json)) : Json :=
  obj (sorted members)

/-- The object without members. -/
def empty : Json :=
  obj []

/-- A natural number. -/
def nat (n : Nat) : Json :=
  int n

/-- A double. No text stands for infinity or for what is no number, so these become null. -/
def double (x : Binary64) : Json :=
  if x.isFinite then float x else null

/-- The value of a key among members. -/
def lookup (key : String) : List (String × Json) → Option Json
  | [] => none
  | (k, v) :: r => if k == key then some v else lookup key r

/-- The member of a key, if the value is an object that has it. -/
def get? (key : String) : Json → Option Json
  | obj members => lookup key members
  | _ => none

/-- The item at a position, if the value is an array that reaches so far. -/
def item? (i : Nat) : Json → Option Json
  | arr items => items[i]?
  | _ => none

/-- The text, if the value is one. -/
def text? : Json → Option String
  | str s => some s
  | _ => none

/-- The whole number, if the value is one. -/
def int? : Json → Option Int
  | int n => some n
  | _ => none

/-- The natural number below `2 ^ 64`, if the value is one. -/
def word? : Json → Option Nat
  | int n => if 0 ≤ n ∧ n < 0x10000000000000000 then some n.toNat else none
  | _ => none

/-- The truth value, if the value is one. -/
def bool? : Json → Option Bool
  | bool b => some b
  | _ => none

/-- The items, if the value is an array. -/
def items? : Json → Option (List Json)
  | arr items => some items
  | _ => none

/-- The members, if the value is an object. -/
def members? : Json → Option (List (String × Json))
  | obj members => some members
  | _ => none

/-- Whether the value is null. -/
def isNull : Json → Bool
  | null => true
  | _ => false

/-- The value, or null for none. -/
def orNull : Option Json → Json
  | some v => v
  | none => null

mutual
/-- How many arrays and objects enclose the value's innermost part. -/
def depth : Json → Nat
  | arr items => depthItems items + 1
  | obj members => depthMembers members + 1
  | _ => 0

/-- The greatest depth of the items. -/
def depthItems : List Json → Nat
  | [] => 0
  | v :: r => max (depth v) (depthItems r)

/-- The greatest depth of the members' values. -/
def depthMembers : List (String × Json) → Nat
  | [] => 0
  | (_, v) :: r => max (depth v) (depthMembers r)
end

mutual
/-- Every object lists its members by strictly ascending key. -/
def Canonical : Json → Prop
  | arr items => CanonicalItems items
  | obj members => (members.map (·.1)).Pairwise (· < ·) ∧ CanonicalMembers members
  | _ => True

/-- Every item is canonical. -/
def CanonicalItems : List Json → Prop
  | [] => True
  | v :: r => Canonical v ∧ CanonicalItems r

/-- Every member's value is canonical. -/
def CanonicalMembers : List (String × Json) → Prop
  | [] => True
  | (_, v) :: r => Canonical v ∧ CanonicalMembers r
end

end Json

end ChargeLink
