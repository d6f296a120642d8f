import ChargeLink.Schema.Violation

/-!
# Checking the rules

`PayloadType.validate` checks a decoded value against the rules of its type, in
all records and lists within it. A text's length counts its characters.
-/

namespace ChargeLink

namespace Rule

/-- The name of the rule in reports. -/
def name : Rule → String
  | length .. => "length"
  | range .. => "range"

/-- Whether a value keeps the rule; values that it does not speak of do. -/
def holds : Rule → Value → Bool
  | length least most, .text s =>
    least ≤ s.length && (most.map fun m => decide (s.length ≤ m)).getD true
  | range least most, .int n =>
    (least.map fun l => decide (l ≤ n)).getD true && (most.map fun m => decide (n ≤ m)).getD true
  | _, _ => true

/-- The rules that a value breaks. -/
def breaches (rules : List Rule) (v : Value) : List Breach :=
  (rules.filter fun r => !r.holds v).map fun r => ⟨r.name, some v.encode⟩

end Rule

namespace Shape

/-- The rules broken by the records of a list, by the check of one record's members. -/
def listFaults (check : List (String × Value) → List (String × MemberFault)) (items : List Value) :
    List (Nat × String × MemberFault) :=
  items.zipIdx.flatMap fun (v, i) =>
    match v with
    | .record given => (check given).map fun (name, f) => (i, name, f)
    | _ => []

mutual
/-- The rules broken within a value of this shape, its own rules aside. -/
def innerFault : Shape → Value → Option MemberFault
  | record _ members, .record given =>
    match recordFaults members given with
    | [] => none
    | faults => some (.inRecord faults)
  | list (record _ members), .list items =>
    match listFaults (recordFaults members) items with
    | [] => none
    | faults => some (.inList faults)
  | _, _ => none

/-- The rules broken by the members of a record. -/
def recordFaults : List (Member × Shape) → List (String × Value) → List (String × MemberFault)
  | [], _ => []
  | (m, shape) :: r, given =>
    let own := match Value.lookup m.key given with
      | none => []
      | some v =>
        match Rule.breaches m.rules v with
        | [] => (innerFault shape v).toList.map fun f => (m.name, f)
        | breaches => [(m.name, .broken breaches)]
    own ++ recordFaults r given
end

end Shape

/-- The rules that a value of the type breaks. -/
def PayloadType.faults (t : PayloadType) : Value → List (String × MemberFault)
  | .record given => Shape.recordFaults t.members given
  | _ => []

/-- The fault to report for a value of the type, if it breaks a rule. -/
def PayloadType.validate (t : PayloadType) (v : Value) : Option PayloadFault :=
  match t.faults v with
  | [] => none
  | faults => some (MemberFault.report faults)

end ChargeLink
