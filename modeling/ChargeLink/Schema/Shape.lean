import ChargeLink.Schema.Value

/-!
# Shapes of payloads

A `Shape` says which payloads a type takes and how they are read. The members
of a record are declared by name in words joined by underscores; on the wire a
member has its name in camel case (`camelKey`) unless it has a key of its own.
Rules on texts and numbers are checked apart from the reading, and whoever reports
a broken one spells the names in a way of its own (`wireName`).
-/

namespace ChargeLink

/-- The words of a name, each with its first letter raised. -/
def pascalChars (upper : Bool) : List Char → List Char
  | [] => []
  | c :: r =>
    if c = '_' then pascalChars true r
    else (if upper then c.toUpper else c) :: pascalChars false r

/-- The key of a member on the wire: the words of its name, the first one in lower case. -/
def camelKey (name : String) : String :=
  match pascalChars true name.toList with
  | [] => ""
  | c :: r => String.ofList (c.toLower :: r)

/-- A name with every underscore dropped and the letter after it raised, except at the start. -/
def wireChars (begun upper : Bool) : List Char → List Char
  | [] => []
  | c :: r =>
    if c = '_' then wireChars begun begun r
    else (if upper then c.toUpper else c) :: wireChars true false r

/-- How the report of a broken rule spells a member's name. -/
def wireName (name : String) : String :=
  String.ofList (wireChars false false name.toList)

/-- A rule on a member's value. -/
inductive Rule where
  /-- The number of characters of a text. -/
  | length (least : Nat) (most : Option Nat)
  /-- The size of a whole number. -/
  | range (least most : Option Int)
  deriving DecidableEq, Repr

/-- A member's declaration. -/
structure Member where
  name : String
  key : String
  optional : Bool
  rules : List Rule
  deriving DecidableEq, Repr

/-- The form of a payload or of a part of one. -/
inductive Shape where
  | text
  /-- A whole number of 32 bits with a sign. -/
  | int32
  /-- A double; whole numbers are taken for one. -/
  | real
  | flag
  | instant
  | choice (variants : List String)
  | list (item : Shape)
  | record (name : String) (members : List (Member × Shape))

/-- A required member. -/
def required (name : String) (shape : Shape) (rules : List Rule) : Member × Shape :=
  (⟨name, camelKey name, false, rules⟩, shape)

/-- A member that may be missing. -/
def optional (name : String) (shape : Shape) (rules : List Rule) : Member × Shape :=
  (⟨name, camelKey name, true, rules⟩, shape)

/-- A required member called `type` on the wire. -/
def typeMember (shape : Shape) : Member × Shape :=
  (⟨"kind", "type", false, []⟩, shape)

/-- A type of payloads: its name and members, and what may keep a value from being encoded. -/
structure PayloadType where
  name : String
  members : List (Member × Shape)
  refuse : Value → Option String := fun _ => none

/-- The shape of a payload type. -/
def PayloadType.shape (t : PayloadType) : Shape :=
  .record t.name t.members

/-- A request type bound to its action and to the type of its confirmation. -/
structure Message where
  action : String
  request : PayloadType
  confirmation : PayloadType
  /-- Whether a request belongs to a charging transaction, so that it must not get lost. -/
  transactional : Value → Bool

end ChargeLink
