import ChargeLink.Schema.Fault

/-!
# Violations

The rules a value breaks form a tree along its members and lists. Of all of
them the one with the smallest path in byte order is reported, and the first
one where a path has several. A path joins wire names by points, with positions
in lists in brackets.
-/

namespace ChargeLink

/-- A broken rule, with the value that breaks it where it is known. -/
structure Breach where
  rule : String
  value : Option Json

/-- The rules broken by one member. -/
inductive MemberFault where
  /-- Rules on the member itself. -/
  | broken (breaches : List Breach)
  /-- Members of the record that the member is. -/
  | inRecord (faults : List (String × MemberFault))
  /-- Members of the records in the list that the member is, with their positions. -/
  | inList (faults : List (Nat × String × MemberFault))

namespace MemberFault

/-- The path of a member below another path. -/
def joined (path field : String) : String :=
  if path.isEmpty then field else path ++ "." ++ field

/-- The path of an item of a list. -/
def atIndex (path : String) (i : Nat) : String :=
  path ++ "[" ++ toString i ++ "]"

mutual
/-- All breaches of a member with their paths. -/
def paths (path : String) : MemberFault → List (String × Breach)
  | broken breaches => breaches.map fun b => (path, b)
  | inRecord faults => recordPaths path faults
  | inList faults => listPaths path faults

/-- All breaches of a record's members. -/
def recordPaths (path : String) : List (String × MemberFault) → List (String × Breach)
  | [] => []
  | (name, fault) :: r => paths (joined path (wireName name)) fault ++ recordPaths path r

/-- All breaches in a list. -/
def listPaths (path : String) : List (Nat × String × MemberFault) → List (String × Breach)
  | [] => []
  | (i, name, fault) :: r =>
    paths (joined (atIndex path i) (wireName name)) fault ++ listPaths path r
end

/-- The entry with the smallest path, the first one of several. -/
def smallest : List (String × Breach) → Option (String × Breach)
  | [] => none
  | (p, b) :: r =>
    match smallest r with
    | some (q, c) => if q < p then some (q, c) else some (p, b)
    | none => some (p, b)

/-- The fault reported for the rules that a value breaks. A missing value is told apart from a
value that is there. -/
def report (faults : List (String × MemberFault)) : PayloadFault :=
  match smallest (recordPaths "" faults) with
  | some (path, b) =>
    { code := if b.rule = "required" then .occurrenceConstraintViolation
        else .propertyConstraintViolation
      field := some path
      constraint := some b.rule
      value := b.value
      reason := path ++ " violates " ++ b.rule }
  | none => .plain .propertyConstraintViolation "validation failed"

end MemberFault

end ChargeLink
