import ChargeLink.Proofs.Catalog.Reencoding
import ChargeLink.Proofs.Json.Tokens
import ChargeLink.Proofs.Schema.Places
import ChargeLink.Text.Split

/-!
# Where a path leads

A broken rule is reported with a path into the payload that the value is encoded
as. `Json.follow` reads such a path on its own, by nothing but its text: points
stand between the names of members, which are in camel case, and brackets hold
positions in lists. Both are made of the names that the members are declared by,
but the report has one rule for spelling them (`wireName`) and the payload has another
(`camelKey`) or a key of its own, so the two have to agree on each type
(`Shape.spelled`), as they do on the whole catalog (`Version.spelled`).

* `Json.follow_joined`, `Json.follow_atIndex`: a path leads as far as its last step.
* `Shape.recordFaults_reach`: below a record, each breach is where its path leads.
* `Version.violation_found`: following the reported path one finds the reported value.
-/

namespace ChargeLink

/-! ## Following a path -/

/-- A name in camel case: a small letter, and letters and digits after it. -/
def camelCase : List Char → Bool
  | [] => false
  | c :: r => c.isLower && r.all Char.isAlphanum

theorem notMem_of_camelCase {name : List Char} (h : camelCase name = true) {c : Char}
    (other : c.isAlphanum = false) : c ∉ name := by
  cases name with
  | nil => cases h
  | cons d r =>
    simp only [camelCase, Bool.and_eq_true, List.all_eq_true] at h
    intro mem
    rcases List.mem_cons.1 mem with rfl | mem
    · have kinds : c.isAlphanum = (c.isUpper || c.isLower || c.isDigit) := rfl
      simp [kinds, h.1] at other
    · simp [h.2 c mem] at other

namespace Json

/-- The item that a bracket's text, up to its end, leads to. -/
def itemAt (text : List Char) (v : Json) : Option Json :=
  if text.dropLast ≠ [] ∧ text.dropLast.all isDigit ∧ text.getLast? = some ']' then
    v.item? (digitsValue text.dropLast)
  else none

/-- Where the text between two points leads: to the member of that name, and from there to the
items whose positions are in brackets. -/
def step (v : Json) (part : List Char) : Option Json :=
  match Text.splitChars '[' part with
  | [] => none
  | name :: positions =>
    if camelCase name then
      (v.get? (String.ofList name)).bind fun member =>
        positions.foldlM (fun item text => item.itemAt text) member
    else none

/-- Where a path leads, if there is something at every step. -/
def follow (v : Json) (path : String) : Option Json :=
  (Text.splitChars '.' path.toList).foldlM step v

variable {v w : Json} {path name : String}

theorem itemAt_digits (v : Json) (i : ℕ) : v.itemAt (Nat.toDigits 10 i ++ [']']) = v.item? i := by
  have digits := digits_toDigits i
  have all : (Nat.toDigits 10 i).all isDigit = true := List.all_eq_true.2 digits.all
  simp [itemAt, digits.some, all, digitsValue_toDigits]

theorem step_name (h : camelCase name.toList = true) : v.step name.toList = v.get? name := by
  have one := Text.splitChars_of_notMem (notMem_of_camelCase h (c := '[') (by decide))
  simp [step, one, h]

/-- A position in brackets is one more step from where the text before it leads. -/
theorem step_append (v : Json) (part : List Char) (i : ℕ) :
    v.step (part ++ ('[' :: (Nat.toDigits 10 i ++ [']']))) = (v.step part).bind (item? i) := by
  have bracket : '[' ∉ Nat.toDigits 10 i ++ [']'] := by
    intro mem
    rcases List.mem_append.1 mem with mem | mem
    · exact ne_of_isDigit (isDigit_of_mem mem) (by decide) rfl
    · simp at mem
  unfold step
  rw [Text.splitChars_append_sep, Text.splitChars_of_notMem bracket]
  cases parts : Text.splitChars '[' part with
  | nil => exact absurd parts (Text.splitChars_ne_nil _ _)
  | cons name positions =>
    simp only [List.cons_append]
    split
    · simp only [List.foldlM_append, List.foldlM_cons, List.foldlM_nil, itemAt_digits]
      cases v.get? (String.ofList name) with
      | none => rfl
      | some member => simp [Option.bind_eq_bind]
    · rfl

/-- A path leads from a payload to a part of it. The empty path leads nowhere else. -/
def Leads (v : Json) (path : String) (w : Json) : Prop :=
  (path = "" ∧ w = v) ∨ v.follow path = some w

/-- A member is one more step from where the path before it leads. -/
theorem follow_joined (h : v.Leads path w) (camel : camelCase name.toList = true) :
    v.follow (MemberFault.joined path name) = w.get? name := by
  have whole := Text.splitChars_of_notMem (notMem_of_camelCase camel (c := '.') (by decide))
  have alone : v.follow name = v.get? name := by
    simp [follow, whole, step_name camel]
  rcases h with ⟨rfl, rfl⟩ | found
  · simpa [MemberFault.joined] using alone
  · unfold MemberFault.joined
    split
    · -- the empty path has led nowhere
      rename_i empty
      rw [String.isEmpty_iff.1 empty] at found
      cases found
    · have text : (path ++ "." ++ name).toList = path.toList ++ '.' :: name.toList := by
        simp
      rw [follow, text, Text.splitChars_append_sep, whole, List.foldlM_append]
      rw [follow] at found
      simp [found, step_name camel]

/-- An item is one more step from where the path before it leads. -/
theorem follow_atIndex (v : Json) (path : String) (i : ℕ) :
    v.follow (MemberFault.atIndex path i) = (v.follow path).bind (item? i) := by
  have point : '.' ∉ '[' :: (Nat.toDigits 10 i ++ [']']) := by
    intro mem
    rcases List.mem_cons.1 mem with same | mem
    · exact absurd same (by decide)
    · rcases List.mem_append.1 mem with mem | mem
      · exact ne_of_isDigit (isDigit_of_mem mem) (by decide) rfl
      · simp at mem
  obtain ⟨first, last, short, long⟩ := Text.splitChars_append (a := path.toList) point
  rw [follow, follow, MemberFault.atIndex_toList, short, long, List.foldlM_append, List.foldlM_append]
  cases first.foldlM step v with
  | none => rfl
  | some member => simp [step_append]

end Json

/-! ## Values whose members are told apart -/

namespace Value

/-- In no record of the value, two members share a key. -/
def DistinctKeys (v : Value) : Prop :=
  ∀ given, Part (.record given) v → (given.map Prod.fst).Nodup

variable {v : Value} {given : List (String × Value)} {items : List Value}

theorem DistinctKeys.of_lookup (h : (record given).DistinctKeys) {key : String}
    (found : lookup key given = some v) : v.DistinctKeys :=
  fun _ part => h _ (.member (mem_of_lookup found) part)

theorem DistinctKeys.of_mem (h : (list items).DistinctKeys) (mem : v ∈ items) : v.DistinctKeys :=
  fun _ part => h _ (.item mem part)

/-- The payload of a record has the members that the record has. -/
theorem DistinctKeys.get?_encode (h : (record given).DistinctKeys) (key : String) :
    (record given).encode.get? key = (lookup key given).map encode := by
  have distinct : ((encodeMembers given).map Prod.fst).Nodup := by
    rw [Shape.keys_encodeMembers]
    exact h given (.self _)
  simp only [encode, Json.object, Json.get?]
  rw [Json.lookup_sorted key distinct, Shape.lookup_encodeMembers]

theorem item?_encode (items : List Value) (i : ℕ) :
    (list items).encode.item? i = items[i]?.map encode := by
  simp [encode, Json.item?, Shape.encodeItems_eq]

end Value

namespace Shape

variable {D : Binary64 → Prop} {T : Timestamp → Prop}

mutual
/-- Where a shape tells its members apart, its values do. -/
theorem Admits.distinct_keys (s : Shape) (v : Value) (distinct : s.distinct = true)
    (h : Admits D T s v) : v.DistinctKeys := by
  cases s with
  | list item =>
    cases v with
    | list items =>
      simp only [Admits] at h
      intro given part
      cases part with
      | item mem part => exact Admits.distinct_keys item _ distinct (h _ mem) given part
    | _ => simp [Admits] at h
  | record name members =>
    cases v with
    | record all =>
      simp only [Admits] at h
      simp only [Shape.distinct, Bool.and_eq_true, decide_eq_true_eq] at distinct
      intro given part
      cases part with
      | self => exact h.sublist.nodup distinct.1
      | member mem part =>
        exact AdmitsMembers.distinct_keys members all distinct.2 h _ mem given part
    | _ => simp [Admits] at h
  | _ =>
    -- a value that is neither a list nor a record has no part but itself
    cases v <;> simp only [Admits] at h
    all_goals
      intro given part
      cases part
termination_by structural s

theorem AdmitsMembers.distinct_keys (ms : List (Member × Shape)) (given : List (String × Value))
    (distinct : distinctMembers ms = true) (h : AdmitsMembers D T ms given) :
    ∀ x ∈ given, x.2.DistinctKeys := by
  cases ms with
  | nil =>
    simp only [AdmitsMembers] at h
    simp [h]
  | cons x r =>
    obtain ⟨m, shape⟩ := x
    simp only [distinctMembers, Bool.and_eq_true] at distinct
    simp only [AdmitsMembers] at h
    rcases h with ⟨-, h⟩ | ⟨v, rest, rfl, holds, h⟩
    · exact AdmitsMembers.distinct_keys r given distinct.2 h
    · exact List.forall_mem_cons.2
        ⟨Admits.distinct_keys shape v distinct.1 holds,
          AdmitsMembers.distinct_keys r rest distinct.2 h⟩
termination_by structural ms
end

/-! ## Breaches are where their paths lead -/

mutual
/-- Every member that may be at fault is called on the wire what a path calls it. A member that goes
by another name has no rules, and there is nothing within it that has. -/
def spelled : Shape → Bool
  | list item => spelled item
  | record _ members => spelledMembers members
  | _ => true

/-- Each of these members, and all within it, is called what a path calls it. -/
def spelledMembers : List (Member × Shape) → Bool
  | [] => true
  | (m, shape) :: r =>
    ((wireName m.name == m.key && camelCase m.key.toList) ||
      (m.rules.isEmpty && shape.names.isEmpty)) && spelled shape && spelledMembers r
end

open MemberFault

/-- Below the path, each breach is where its path leads, with the value that is there. -/
def Reaches (payload : Json) (path : String) (f : MemberFault) : Prop :=
  ∀ x ∈ paths path f, ∃ value, x.2.value = some value ∧ payload.follow x.1 = some value

/-- There is nothing at fault within what has no members. -/
theorem innerFault_eq_none {s : Shape} (h : s.names = []) (v : Value) : innerFault s v = none := by
  have bare : ∀ {ms : List (Member × Shape)}, memberNames ms = [] → ms = [] := by
    intro ms none
    cases ms with
    | nil => rfl
    | cons x r => simp [memberNames] at none
  cases s with
  | record name members =>
    cases bare h
    cases v <;> rfl
  | list item =>
    cases item with
    | record name members =>
      cases bare h
      cases v with
      | list items =>
        have none : ∀ x ∈ listFaults (recordFaults []) items, False := by
          intro x hx
          obtain ⟨⟨w, i⟩, -, hx⟩ := List.mem_flatMap.1 hx
          cases w <;> simp [recordFaults] at hx
        rw [innerFault, List.eq_nil_iff_forall_not_mem.2 none]
      | _ => rfl
    | _ => cases v <;> rfl
  | _ => cases v <;> rfl

theorem recordPaths_reach {payload : Json} {path : String} :
    ∀ {faults : List (String × MemberFault)},
    (∀ x ∈ faults, Reaches payload (joined path (wireName x.1)) x.2) →
    ∀ x ∈ recordPaths path faults, ∃ value, x.2.value = some value ∧
      payload.follow x.1 = some value
  | [], _ => by simp [recordPaths]
  | x :: r, h => by
    obtain ⟨here, there⟩ := List.forall_mem_cons.1 h
    rw [recordPaths]
    exact List.forall_mem_append.2 ⟨here, recordPaths_reach there⟩

theorem listPaths_reach {payload : Json} {path : String} :
    ∀ {faults : List (ℕ × String × MemberFault)},
    (∀ x ∈ faults, Reaches payload (joined (atIndex path x.1) (wireName x.2.1)) x.2.2) →
    ∀ x ∈ listPaths path faults, ∃ value, x.2.value = some value ∧
      payload.follow x.1 = some value
  | [], _ => by simp [listPaths]
  | x :: r, h => by
    obtain ⟨here, there⟩ := List.forall_mem_cons.1 h
    rw [listPaths]
    exact List.forall_mem_append.2 ⟨here, listPaths_reach there⟩

mutual
/-- Breaches within a value are where their paths lead. -/
theorem innerFault_reach (s : Shape) (v : Value) (f : MemberFault) (payload : Json) (path : String)
    (spelled : s.spelled = true) (keys : v.DistinctKeys) (h : innerFault s v = some f)
    (here : payload.follow path = some v.encode) : Reaches payload path f := by
  cases s with
  | record name members =>
    cases v with
    | record given =>
      have each := recordFaults_reach members given payload path spelled keys (.inr here)
      rw [innerFault] at h
      split at h <;> cases h
      exact recordPaths_reach each
    | _ => cases h
  | list item =>
    cases item with
    | record name members =>
      cases v with
      | list items =>
        rw [innerFault] at h
        split at h <;> cases h
        refine listPaths_reach fun x hx => ?_
        obtain ⟨⟨v, i⟩, mem, hx⟩ := List.mem_flatMap.1 hx
        have found : items[i]? = some v := List.mk_mem_zipIdx_iff_getElem?.1 mem
        cases v with
        | record given =>
          obtain ⟨y, hy, rfl⟩ := List.mem_map.1 hx
          have item : payload.follow (atIndex path i) = some (Value.record given).encode := by
            rw [Json.follow_atIndex, here, Option.bind_some, Value.item?_encode, found]
            rfl
          have within := keys.of_mem (List.mem_of_getElem? found)
          exact recordFaults_reach members given payload _ spelled within (.inr item) y hy
        | _ => cases hx
      | _ => cases h
    | _ => cases h
  | _ => cases h
termination_by structural s

/-- **Below a record, each breach is where its path leads.** -/
theorem recordFaults_reach (ms : List (Member × Shape)) (given : List (String × Value))
    (payload : Json) (path : String) (spelled : spelledMembers ms = true)
    (keys : (Value.record given).DistinctKeys)
    (here : payload.Leads path (Value.record given).encode) :
    ∀ x ∈ recordFaults ms given, Reaches payload (joined path (wireName x.1)) x.2 := by
  cases ms with
  | nil => simp [recordFaults]
  | cons x r =>
    obtain ⟨m, shape⟩ := x
    simp only [spelledMembers, Bool.and_eq_true] at spelled
    obtain ⟨⟨named, within⟩, others⟩ := spelled
    rw [recordFaults]
    refine List.forall_mem_append.2
      ⟨?_, recordFaults_reach r given payload path others keys here⟩
    cases found : Value.lookup m.key given with
    | none => simp
    | some v =>
      dsimp only
      rcases Bool.or_eq_true_iff.1 named with called | silent
      · simp only [Bool.and_eq_true, beq_iff_eq] at called
        have member : payload.follow (joined path (wireName m.name)) = some v.encode := by
          rw [called.1, Json.follow_joined here called.2, keys.get?_encode, found]
          rfl
        split
        · intro x hx
          obtain ⟨f, hf, rfl⟩ := List.mem_map.1 hx
          exact innerFault_reach shape v f payload _ within (keys.of_lookup found)
            (by simpa using hf) member
        · intro x hx
          cases List.mem_singleton.1 hx
          intro y hy
          obtain ⟨b, hb, rfl⟩ := List.mem_map.1 hy
          obtain ⟨rule, -, rfl⟩ := List.mem_map.1 hb
          exact ⟨v.encode, rfl, member⟩
      · -- a member of another name is never at fault
        simp only [Bool.and_eq_true, List.isEmpty_iff] at silent
        have kept : Rule.breaches m.rules v = [] := by simp [silent.1, Rule.breaches]
        simp [kept, innerFault_eq_none silent.2]
termination_by structural ms
end

end Shape

/-! ## The reported path -/

namespace PayloadType

variable {t : PayloadType} {v : Value} {fault : PayloadFault}

/-- Following the path of a broken rule, one finds the value that breaks it. -/
theorem follow_validate (spelled : t.shape.spelled = true) (keys : v.DistinctKeys)
    (h : t.validate v = some fault) : ∃ path value, fault.field = some path ∧
      fault.value = some value ∧ v.encode.follow path = some value := by
  obtain ⟨_, _, _, -, -, reported⟩ := validate_eq_some h
  unfold validate at h
  split at h
  · cases h
  cases h
  cases v with
  | record given =>
    have each := Shape.recordFaults_reach t.members given _ "" spelled keys (.inl ⟨rfl, rfl⟩)
    unfold MemberFault.report at reported ⊢
    split
    · rename_i path b found
      have mem := MemberFault.mem_of_smallest found
      obtain ⟨value, known, leads⟩ := Shape.recordPaths_reach each _ mem
      exact ⟨path, value, rfl, known, leads⟩
    · -- then nothing would be reported
      rename_i none
      rw [none] at reported
      cases reported
  | _ => contradiction

end PayloadType

/-- In all types of the catalog, the members at fault are called what their paths call them. -/
theorem Version.spelled (version : Version) : ∀ m ∈ version.messages,
    m.request.shape.spelled = true ∧ m.confirmation.shape.spelled = true := by
  cases version <;> decide +kernel

/-- **The path of a broken rule leads to the value at fault.** Whatever value of whatever type of
the catalog breaks a rule, a path is reported, and a value with it. Reading the path by its text,
one gets to a member of the payload that the value is encoded as, and that member is the reported
value. -/
theorem Version.violation_found (version : Version) {m : Message} (hm : m ∈ version.messages)
    {t : PayloadType} (ht : t = m.request ∨ t = m.confirmation) {v : Value} (hv : t.shape.Holds v)
    {fault : PayloadFault} (h : t.validate v = some fault) :
    ∃ payload path value, t.encode v = .ok payload ∧ fault.field = some path ∧
      fault.value = some value ∧ payload.follow path = some value := by
  obtain ⟨readable, spelled, unrefused⟩ :
      t.Readable ∧ t.shape.spelled = true ∧ t.refuse v = none := by
    have readable := version.vocabulary.readable m hm
    have spelled := version.spelled m hm
    have unrefused := version.refuse_eq_none m hm
    rcases ht with rfl | rfl
    · exact ⟨readable.1, spelled.1, unrefused.1 v⟩
    · exact ⟨readable.2, spelled.2, unrefused.2 v⟩
  have keys : v.DistinctKeys := hv.distinct_keys _ _ readable.1
  obtain ⟨path, value, field, known, leads⟩ := t.follow_validate spelled keys h
  refine ⟨v.encode, path, value, ?_, field, known, leads⟩
  rw [PayloadType.encode, unrefused]

/-- A configuration whose second key is too long. -/
def V16.wordy : Value :=
  .record [("configurationKey", .list [
    .record [("key", .text "HeartbeatInterval"), ("readonly", .flag false)],
    .record [("key", .text "ConnectorPhaseRotationMaxLengthOfTheWholeChargingSite"),
      ("readonly", .flag true)]])]

theorem Version.violation_found_wordy :
    V16.getConfiguration ∈ Version.v16.messages ∧
      V16.getConfiguration.confirmation.shape.Holds V16.wordy ∧
      ∃ fault, V16.getConfiguration.confirmation.validate V16.wordy = some fault ∧
        fault.field = some "configurationKey[1].key" ∧
        ∃ payload path value, V16.getConfiguration.confirmation.encode V16.wordy = .ok payload ∧
          fault.field = some path ∧ fault.value = some value ∧
          payload.follow path = some value := by
  have known : V16.getConfiguration ∈ Version.v16.messages := by
    simp [Version.messages, V16.messages]
  have holds : V16.getConfiguration.confirmation.shape.Holds V16.wordy := by
    simp [PayloadType.shape, V16.getConfiguration, V16.wordy, Shape.Admits, Shape.AdmitsMembers,
      V16.keyValue, optional, required, camelKey, pascalChars]
  have broken : ∃ fault, V16.getConfiguration.confirmation.validate V16.wordy = some fault ∧
      fault.field = some "configurationKey[1].key" :=
    ⟨_, rfl, rfl⟩
  obtain ⟨fault, h, field⟩ := broken
  exact ⟨known, holds, fault, h, field, Version.violation_found .v16 known (.inr rfl) holds h⟩

end ChargeLink
