import ChargeLink.Proofs.Json.Plain
import ChargeLink.Schema.Decode

/-!
# Values come back as they were

`Shape.Admits` says which values belong to a shape: the members of a record in
the order of their declaration, and the required ones all there. Which doubles and
which timestamps may occur is left open; `Shape.Typed` takes finite doubles, and
timestamps that are read back from their texts.

* `Shape.decode_encode`: the payload of such a value decodes to the value.
* `Shape.Typed.plain`: the payload is canonical and nests no deeper than its shape.
-/

namespace ChargeLink

/-! ## Values of a shape -/

/-- The text of a timestamp is read back as the timestamp. -/
def Timestamp.ReadsBack (t : Timestamp) : Prop :=
  Timestamp.ofText t.text = .ok t

namespace Shape

section

variable (D : Binary64 → Prop) (T : Timestamp → Prop)

mutual
/-- The values of a shape whose doubles satisfy `D` and whose timestamps satisfy `T`. -/
def Admits : Shape → Value → Prop
  | text, .text _ => True
  | int32, .int n => -0x80000000 ≤ n ∧ n < 0x80000000
  | real, .real x => D x
  | flag, .flag _ => True
  | instant, .instant t => T t
  | choice variants, .choice v => v ∈ variants
  | list item, .list items => ∀ v ∈ items, Admits item v
  | record _ members, .record given => AdmitsMembers members given
  | _, _ => False

/-- The members that a record of the declared ones may have, in the order of their declaration. -/
def AdmitsMembers : List (Member × Shape) → List (String × Value) → Prop
  | [], given => given = []
  | (m, shape) :: r, given =>
    (m.optional = true ∧ AdmitsMembers r given) ∨
      ∃ v rest, given = (m.key, v) :: rest ∧ Admits shape v ∧ AdmitsMembers r rest
end

end

/-- The values of a shape. -/
abbrev Holds : Shape → Value → Prop :=
  Admits (fun _ => True) fun _ => True

variable (D : Binary64 → Prop)

/-- The values of a shape whose doubles are finite and satisfy `D`, and whose timestamps are read
back from their texts. -/
abbrev Typed : Shape → Value → Prop :=
  Admits (fun x => x.isFinite = true ∧ D x) Timestamp.ReadsBack

/-- The members of records of such values. -/
abbrev TypedMembers : List (Member × Shape) → List (String × Value) → Prop :=
  AdmitsMembers (fun x => x.isFinite = true ∧ D x) Timestamp.ReadsBack

mutual
/-- In every record of the shape, no two members share a key. -/
def distinct : Shape → Bool
  | list item => distinct item
  | record _ members => decide (members.map (·.1.key)).Nodup && distinctMembers members
  | _ => true

/-- In every record of the members' shapes, no two members share a key. -/
def distinctMembers : List (Member × Shape) → Bool
  | [] => true
  | (_, shape) :: r => distinct shape && distinctMembers r
end

mutual
/-- How many records and lists enclose the innermost part of a shape. -/
def depth : Shape → ℕ
  | list item => depth item + 1
  | record _ members => depthMembers members + 1
  | _ => 0

/-- The greatest depth of the members. -/
def depthMembers : List (Member × Shape) → ℕ
  | [] => 0
  | (_, shape) :: r => max (depth shape) (depthMembers r)
end

variable {D}

/-! ## Reading a value back -/

theorem encodeItems_eq (vs : List Value) : Value.encodeItems vs = vs.map Value.encode := by
  induction vs with
  | nil => rfl
  | cons v r ih => simp [Value.encodeItems, ih]

theorem keys_encodeMembers (given : List (String × Value)) :
    (Value.encodeMembers given).map Prod.fst = given.map Prod.fst := by
  induction given with
  | nil => rfl
  | cons x r ih => simp [Value.encodeMembers, ih]

theorem lookup_encodeMembers (key : String) (given : List (String × Value)) :
    Json.lookup key (Value.encodeMembers given) = (Value.lookup key given).map Value.encode := by
  induction given with
  | nil => rfl
  | cons x r ih =>
    simp only [Value.encodeMembers, Json.lookup, Value.lookup, ih]
    split <;> rfl

/-- No value of a shape is encoded as null. -/
theorem Typed.isNull_encode {s : Shape} {v : Value} (h : Typed D s v) : v.encode.isNull = false := by
  cases v with
  | real x =>
    cases s with
    | real =>
      simp only [Admits] at h
      simp [Value.encode, Json.double, h.1, Json.isNull]
    | _ => simp [Admits] at h
  | _ => simp [Value.encode, Json.isNull, Json.object]

theorem lookup_eq_none {key : String} {given : List (String × Value)}
    (h : key ∉ given.map Prod.fst) : Value.lookup key given = none := by
  induction given with
  | nil => rfl
  | cons x r ih =>
    simp only [List.map_cons, List.mem_cons, not_or] at h
    have : (x.1 == key) = false := by simpa using fun same => h.1 same.symm
    simp [Value.lookup, this, ih h.2]

/-- A record has no members but declared ones, in the order of their declaration. -/
theorem AdmitsMembers.sublist {T : Timestamp → Prop} :
    ∀ {ms : List (Member × Shape)} {given : List (String × Value)},
      AdmitsMembers D T ms given → (given.map Prod.fst).Sublist (ms.map (·.1.key)) := by
  intro ms
  induction ms with
  | nil =>
    intro given h
    rw [show given = [] from h]
    exact .slnil
  | cons x r ih =>
    intro given h
    rcases h with ⟨-, h⟩ | ⟨v, rest, rfl, -, h⟩
    · exact (ih h).cons _
    · exact (ih h).cons_cons _

/-- The results of members of which none is bad and no required one absent. -/
structure Whole (results : List (Member × MemberResult)) (given : List (String × Value)) :
    Prop where
  bad : firstBad results = none
  missing : firstMissing results = none
  good : goodMembers results = given

theorem Whole.assemble {results : List (Member × MemberResult)} {given : List (String × Value)}
    (h : Whole results given) : assemble results = .ok (.record given) := by
  rw [Shape.assemble, h.bad, h.missing, h.good]

/-- Items that are read back make a list that is read back. -/
theorem mapM_encode {item : Shape} {vs : List Value}
    (each : ∀ v ∈ vs, item.decode v.encode = .ok v) :
    (vs.map Value.encode).mapM item.decode = .ok vs := by
  induction vs with
  | nil => rfl
  | cons v r ih =>
    rw [List.map_cons, List.mapM_cons, each v (by simp), ih fun w hw => each w (by simp [hw])]
    rfl

/-- A record whose members are read back is read back. -/
theorem decode_record {name : String} {ms : List (Member × Shape)} {given : List (String × Value)}
    (nodup : (ms.map (·.1.key)).Nodup) (h : TypedMembers D ms given)
    (whole : (∀ x ∈ ms, Json.lookup x.1.key (Json.sorted (Value.encodeMembers given)) =
      (Value.lookup x.1.key given).map Value.encode) →
      Whole (objectResults ms (Json.sorted (Value.encodeMembers given))) given) :
    (record name ms).decode (Value.record given).encode = .ok (.record given) := by
  have keys : ((Value.encodeMembers given).map Prod.fst).Nodup := by
    rw [keys_encodeMembers]
    exact h.sublist.nodup nodup
  -- sorting the members changes none, since their keys are distinct
  have found := whole fun x _ => by rw [Json.lookup_sorted _ keys, lookup_encodeMembers]
  simp only [Value.encode, Json.object, decode]
  exact found.assemble

mutual
/-- **The payload of a value decodes to the value.** -/
theorem decode_encode (s : Shape) (v : Value) (distinct : s.distinct = true) (h : Typed D s v) :
    s.decode v.encode = .ok v := by
  cases s with
  | list item =>
    cases v with
    | list items =>
      simp only [Admits] at h
      have each : ∀ v ∈ items, decode item v.encode = .ok v :=
        fun v hv => decode_encode item v distinct (h v hv)
      simp only [Value.encode, encodeItems_eq, decode, mapM_encode each]
      rfl
    | _ => simp [Admits] at h
  | record name members =>
    cases v with
    | record given =>
      simp only [Admits] at h
      simp only [Shape.distinct, Bool.and_eq_true, decide_eq_true_eq] at distinct
      exact decode_record distinct.1 h
        (results_encode members given _ distinct.1 distinct.2 h)
    | _ => simp [Admits] at h
  | choice variants =>
    cases v with
    | choice v =>
      have known : v ∈ variants := h
      simp [Value.encode, decode, decodeChoice, decodeVariant, known]
    | _ => simp [Admits] at h
  | instant =>
    cases v with
    | instant t =>
      have back : Timestamp.ofText t.text = .ok t := h
      simp [Value.encode, decode, back]
    | _ => simp [Admits] at h
  | int32 =>
    cases v with
    | int n =>
      simp only [Admits] at h
      simp [Value.encode, decode, h]
    | _ => simp [Admits] at h
  | real =>
    cases v with
    | real x =>
      simp only [Admits] at h
      simp [Value.encode, Json.double, h.1, decode]
    | _ => simp [Admits] at h
  | text | flag =>
    cases v <;> simp [Admits, Value.encode, decode] at h ⊢
termination_by structural s

theorem results_encode (ms : List (Member × Shape)) (given : List (String × Value))
    (all : List (String × Json)) (nodup : (ms.map (·.1.key)).Nodup)
    (distinct : distinctMembers ms = true) (h : TypedMembers D ms given)
    (found : ∀ x ∈ ms, Json.lookup x.1.key all = (Value.lookup x.1.key given).map Value.encode) :
    Whole (objectResults ms all) given := by
  cases ms with
  | nil =>
    simp only [AdmitsMembers] at h
    rw [h]
    exact ⟨rfl, rfl, rfl⟩
  | cons x r =>
    obtain ⟨m, shape⟩ := x
    simp only [distinctMembers, Bool.and_eq_true] at distinct
    obtain ⟨fresh, nodup⟩ := List.nodup_cons.1 nodup
    obtain ⟨here, there⟩ := List.forall_mem_cons.1 found
    simp only [AdmitsMembers] at h
    rcases h with ⟨absent, h⟩ | ⟨v, rest, rfl, typed, h⟩
    · -- the member is not there, and may be missing
      have none : Value.lookup m.key given = none :=
        lookup_eq_none fun mem => fresh (h.sublist.subset mem)
      obtain ⟨bad, missing, good⟩ := results_encode r given all nodup distinct.2 h there
      rw [none] at here
      simp only [objectResults, here]
      exact ⟨bad, by simpa [firstMissing, absent] using missing, good⟩
    · -- the member is there, and is read back
      have back := decode_encode shape v distinct.1 typed
      have rest : Whole (objectResults r all) rest := by
        refine results_encode r rest all nodup distinct.2 h fun x hx => ?_
        -- the keys are distinct, so the others are looked up among the rest
        have other : (m.key == x.1.key) = false := by
          rw [beq_eq_false_iff_ne]
          intro same
          exact fresh (List.mem_map.2 ⟨x, hx, same.symm⟩)
        rw [there x hx]
        simp [Value.lookup, other]
      have some : Json.lookup m.key all = some v.encode := by
        rw [here]
        simp [Value.lookup]
      have good : memberResult m (decode shape) v.encode = .good v := by
        simp [memberResult, Typed.isNull_encode typed, back]
      simp only [objectResults, some, good]
      exact ⟨rest.bad, rest.missing, congrArg _ rest.good⟩
termination_by structural ms
end

/-! ## Payloads of values are plain -/

mutual
/-- **The payload of a value is plain**, and nests no deeper than the shape. -/
theorem Typed.plain (s : Shape) (v : Value) (h : Typed D s v) : v.encode.Plain D s.depth := by
  cases s with
  | list item =>
    cases v with
    | list items =>
      simp only [Admits] at h
      simp only [Value.encode, encodeItems_eq]
      refine Json.Plain.arr fun j hj => ?_
      obtain ⟨v, hv, rfl⟩ := List.mem_map.1 hj
      exact Typed.plain item v (h v hv)
    | _ => simp [Admits] at h
  | record name members =>
    cases v with
    | record given =>
      simp only [Admits] at h
      exact Json.Plain.object (TypedMembers.plain members given h)
    | _ => simp [Admits] at h
  | int32 =>
    cases v with
    | int n =>
      simp only [Admits] at h
      exact Json.Plain.int (by omega) (by omega)
    | _ => simp [Admits] at h
  | real =>
    cases v with
    | real x =>
      simp only [Admits] at h
      simp only [Value.encode, Json.double, h.1, if_true]
      exact Json.Plain.float h.2
    | _ => simp [Admits] at h
  | text =>
    cases v with
    | text s => exact Json.Plain.str s
    | _ => simp [Admits] at h
  | instant =>
    cases v with
    | instant t => exact Json.Plain.str t.text
    | _ => simp [Admits] at h
  | choice variants =>
    cases v with
    | choice v => exact Json.Plain.str v
    | _ => simp [Admits] at h
  | flag =>
    cases v with
    | flag b => exact Json.Plain.bool b
    | _ => simp [Admits] at h
termination_by structural s

theorem TypedMembers.plain (ms : List (Member × Shape)) (given : List (String × Value))
    (h : TypedMembers D ms given) :
    ∀ x ∈ Value.encodeMembers given, x.2.Plain D (depthMembers ms) := by
  cases ms with
  | nil =>
    simp only [AdmitsMembers] at h
    simp [h, Value.encodeMembers]
  | cons x r =>
    obtain ⟨m, shape⟩ := x
    simp only [AdmitsMembers] at h
    rcases h with ⟨-, h⟩ | ⟨v, rest, rfl, typed, h⟩
    · exact fun x hx => (TypedMembers.plain r given h x hx).mono (Nat.le_max_right ..)
    · refine List.forall_mem_cons.2 ⟨?_, ?_⟩
      · exact (Typed.plain shape v typed).mono (Nat.le_max_left ..)
      · exact fun x hx => (TypedMembers.plain r rest h x hx).mono (Nat.le_max_right ..)
termination_by structural ms
end

end Shape

end ChargeLink
