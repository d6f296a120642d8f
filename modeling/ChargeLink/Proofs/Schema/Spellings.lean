import ChargeLink.Proofs.Binary64.Nearest
import ChargeLink.Proofs.Schema.RoundTrip
import ChargeLink.Proofs.Time.ReadBack

/-!
# The spellings of a value

A value has several payloads: members may stand in any order, next to others
that are not declared, null may stand for an optional one that is absent, a
record may be the array of its members, a choice the object of its name, and a
whole number may stand for a double. `Shape.Tidied` leads from each of these to
the one that is written: there the records are objects of the declared members
that are present.

* `Shape.tidied_iff`: what is read and then written again is tidied.
* `Shape.typed_of_decode`: what is read belongs to the shape.
-/

namespace ChargeLink

open Json (Finite)

/-- Nothing is given for a member that may be missing, or null is. -/
def Member.Absent (m : Member) (given : List (String × Json)) : Prop :=
  m.optional = true ∧ (Json.lookup m.key given = none ∨ Json.lookup m.key given = some .null)

namespace Shape

/-- The elements of an array, under the keys of the declared members. -/
def fields (ms : List (Member × Shape)) (items : List Json) : List (String × Json) :=
  (ms.map (·.1.key)).zip items

mutual
/-- The payload of this shape is written as another one: it spells the same value with declared
members only, none of them null, records as objects, choices as texts and no whole number for a
double. -/
def Tidied : Shape → Json → Json → Prop
  | text, .str s, q => q = .str s
  | int32, .int n, q => (-0x80000000 ≤ n ∧ n < 0x80000000) ∧ q = .int n
  | real, .int n, q => q = .double (.ofInt n)
  | real, .float x, q => q = .double x
  | flag, .bool b, q => q = .bool b
  | instant, .str s, q => ∃ t, Timestamp.ofText s = .ok t ∧ q = .str t.text
  | choice variants, p, q => ∃ v ∈ variants, (p = .str v ∨ p = .obj [(v, .null)]) ∧ q = .str v
  | list item, .arr ps, q => ∃ qs, List.Forall₂ (Tidied item) ps qs ∧ q = .arr qs
  | record _ members, .obj given, q => ∃ out, TidiedMembers members given out ∧ q = .object out
  | record _ members, .arr items, q => items.length = members.length ∧
      ∃ out, TidiedMembers members (fields members items) out ∧ q = .object out
  | _, _, _ => False

/-- The members that are present are written in the order of their declaration. -/
def TidiedMembers : List (Member × Shape) → List (String × Json) → List (String × Json) → Prop
  | [], _, out => out = []
  | (m, shape) :: r, given, out =>
    (m.Absent given ∧ TidiedMembers r given out) ∨
      ∃ v w rest, Json.lookup m.key given = some v ∧ Tidied shape v w ∧ out = (m.key, w) :: rest ∧
        TidiedMembers r given rest
end

variable {m : Member} {shape : Shape} {ms : List (Member × Shape)} {p q : Json} {x : Value}
  {result : MemberResult} {results : List (Member × MemberResult)} {given : List (String × Value)}

/-- A computation that succeeds has succeeded at every step. -/
theorem bind_eq_ok_iff {ε α β : Type} {c : Except ε α} {f : α → Except ε β} {b : β} :
    (c >>= f) = .ok b ↔ ∃ a, c = .ok a ∧ f a = .ok b := by
  cases c with
  | error e => simp [bind, Except.bind]
  | ok a => simp [bind, Except.bind]

/-! ## The results of the members -/

theorem firstBad_cons_eq_none : firstBad ((m, result) :: results) = none ↔
    (∀ fault, result ≠ .bad fault) ∧ firstBad results = none := by
  cases result with
  | bad fault =>
    simp only [firstBad]
    cases firstBad results with
    | none => simp
    | some other =>
      simp only [ne_eq, reduceCtorEq, and_false, iff_false]
      split <;> simp
  | absent | good => simp [firstBad]

theorem whole_absent : Whole ((m, .absent) :: results) given ↔
    m.optional = true ∧ Whole results given := by
  constructor
  · rintro ⟨bad, missing, good⟩
    rw [firstMissing] at missing
    split at missing
    · exact ⟨‹_›, bad, missing, good⟩
    · cases missing
  · rintro ⟨optional, bad, missing, good⟩
    exact ⟨bad, by rwa [firstMissing, if_pos optional], good⟩

theorem whole_good {v : Value} : Whole ((m, .good v) :: results) given ↔
    ∃ rest, given = (m.key, v) :: rest ∧ Whole results rest := by
  constructor
  · rintro ⟨bad, missing, good⟩
    exact ⟨goodMembers results, good.symm, bad, missing, rfl⟩
  · rintro ⟨rest, rfl, bad, missing, good⟩
    exact ⟨bad, missing, congrArg _ good⟩

theorem assemble_eq_ok_iff : assemble results = .ok x ↔
    ∃ given, Whole results given ∧ x = .record given := by
  constructor
  · intro h
    unfold assemble at h
    split at h
    · cases h
    rename_i bad
    split at h
    · cases h
    rename_i missing
    cases h
    exact ⟨_, ⟨bad, missing, rfl⟩, rfl⟩
  · rintro ⟨given, whole, rfl⟩
    exact whole.assemble

/-- No shape takes null. -/
theorem decode_null (s : Shape) : s.decode .null ≠ .ok x := by
  cases s <;> simp [decode, decodeChoice]

/-- A member is absent, or it is read by its shape. -/
theorem whole_objectResults {all : List (String × Json)} :
    Whole (objectResults ((m, shape) :: ms) all) given ↔
      (m.Absent all ∧ Whole (objectResults ms all) given) ∨
        ∃ v w rest, Json.lookup m.key all = some v ∧ shape.decode v = .ok w ∧
          given = (m.key, w) :: rest ∧ Whole (objectResults ms all) rest := by
  rw [objectResults]
  cases found : Json.lookup m.key all with
  | none => simp [whole_absent, Member.Absent, found]
  | some v =>
    by_cases absent : m.optional = true ∧ v = .null
    · obtain ⟨optional, rfl⟩ := absent
      simp [memberResult, optional, Json.isNull, whole_absent, Member.Absent, found, decode_null]
    · have kept : (m.optional && v.isNull) = false := by
        cases v <;> simp_all [Json.isNull]
      have notAbsent : ¬m.Absent all := by
        rintro ⟨optional, none | null⟩
        · exact absurd (found.symm.trans none) (by simp)
        · exact absent ⟨optional, Option.some.inj (found.symm.trans null)⟩
      cases read : shape.decode v with
      | error fault =>
        have bad : ¬Whole ((m, .bad fault) :: objectResults ms all) given :=
          fun whole => (firstBad_cons_eq_none.1 whole.bad).1 fault rfl
        simp [memberResult, kept, read, bad, notAbsent]
      | ok w => simp [memberResult, kept, read, whole_good, notAbsent]

/-! ## Records as arrays -/

/-- What is given for a key that is not declared makes no difference. -/
theorem objectResults_cons {key : String} {v : Json} {all : List (String × Json)}
    (other : key ∉ ms.map (·.1.key)) : objectResults ms ((key, v) :: all) = objectResults ms all := by
  induction ms with
  | nil => simp [objectResults]
  | cons x r ih =>
    obtain ⟨m, shape⟩ := x
    simp only [List.map_cons, List.mem_cons, not_or] at other
    have skipped : Json.lookup m.key ((key, v) :: all) = Json.lookup m.key all := by
      simp [Json.lookup, other.1]
    simp only [objectResults, skipped, ih other.2]

/-- The elements of an array are read like the members of an object. -/
theorem arrayResults_eq_ok_iff {name : String} {total i : ℕ} {items : List Json}
    (nodup : (ms.map (·.1.key)).Nodup) : arrayResults name total ms i items = .ok results ↔
      ms.length ≤ items.length ∧ results = objectResults ms (fields ms items) ∧
        firstBad results = none := by
  induction ms generalizing i items results with
  | nil => simp +contextual [arrayResults, objectResults, firstBad, eq_comm]
  | cons x r ih =>
    obtain ⟨m, shape⟩ := x
    obtain ⟨fresh, nodup⟩ := List.nodup_cons.1 nodup
    cases items with
    | nil => simp [arrayResults]
    | cons v items =>
      have here : objectResults ((m, shape) :: r) (fields ((m, shape) :: r) (v :: items)) =
          (m, memberResult m shape.decode v) :: objectResults r (fields r items) := by
        simp only [fields, List.map_cons, List.zip_cons_cons, objectResults,
          objectResults_cons fresh]
        simp [Json.lookup]
      have next : ∀ result, (∀ fault, result ≠ .bad fault) →
          ((do return (m, result) :: (← arrayResults name total r (i + 1) items)) = .ok results ↔
            r.length + 1 ≤ items.length + 1 ∧
              results = (m, result) :: objectResults r (fields r items) ∧
                firstBad results = none) := by
        intro result fine
        simp only [bind_eq_ok_iff, ih nodup, Nat.add_le_add_iff_right]
        constructor
        · rintro ⟨rest, ⟨enough, rfl, none⟩, same⟩
          cases same
          exact ⟨enough, rfl, firstBad_cons_eq_none.2 ⟨fine, none⟩⟩
        · rintro ⟨enough, rfl, none⟩
          exact ⟨_, ⟨enough, rfl, (firstBad_cons_eq_none.1 none).2⟩, rfl⟩
      rw [here, arrayResults]
      cases memberResult m shape.decode v with
      | bad fault =>
        -- the reading ends here, as no result is good
        simp only [reduceCtorEq, false_iff]
        rintro ⟨-, rfl, none⟩
        exact (firstBad_cons_eq_none.1 none).1 fault rfl
      | absent => exact next .absent (by simp)
      | good w => exact next (.good w) (by simp)

/-- **An array is read as the object** of the declared members, if it has as many elements. -/
theorem decode_array_eq_ok_iff {name : String} {items : List Json}
    (nodup : (ms.map (·.1.key)).Nodup) : (record name ms).decode (.arr items) = .ok x ↔
      items.length = ms.length ∧ (record name ms).decode (.obj (fields ms items)) = .ok x := by
  simp only [decode, bind_eq_ok_iff, arrayResults_eq_ok_iff nodup]
  constructor
  · rintro ⟨results, ⟨enough, rfl, -⟩, h⟩
    split at h
    · cases h
    · exact ⟨by omega, h⟩
  · rintro ⟨same, h⟩
    obtain ⟨given, whole, -⟩ := assemble_eq_ok_iff.1 h
    refine ⟨_, ⟨same.ge, rfl, whole.bad⟩, ?_⟩
    rwa [if_neg (by omega)]

/-! ## Reading and writing -/

/-- Null is no spelling of anything. -/
theorem not_tidied_null (s : Shape) : ¬s.Tidied .null q := by
  cases s <;> simp [Tidied]

/-- Written are the declared members for which something other than null is given. -/
theorem TidiedMembers.mem_keys {key : String} {given out : List (String × Json)}
    (h : TidiedMembers ms given out) : key ∈ out.map Prod.fst ↔
      key ∈ ms.map (·.1.key) ∧ ∃ v, Json.lookup key given = some v ∧ v ≠ .null := by
  induction ms generalizing out with
  | nil => simp [show out = [] from h]
  | cons y r ih =>
    obtain ⟨m, shape⟩ := y
    rcases h with ⟨⟨-, absent⟩, h⟩ | ⟨v, w, rest, found, tidied, rfl, h⟩
    · have nothing : key = m.key → ¬∃ v, Json.lookup key given = some v ∧ v ≠ .null := by
        rintro rfl ⟨v, found, some⟩
        rcases absent with none | null
        · exact absurd (found.symm.trans none) (by simp)
        · exact some (Option.some.inj (found.symm.trans null))
      rw [ih h, List.map_cons, List.mem_cons]
      exact ⟨fun h => ⟨.inr h.1, h.2⟩, fun h => ⟨h.1.resolve_left fun same => nothing same h.2, h.2⟩⟩
    · have some : ∃ v, Json.lookup m.key given = some v ∧ v ≠ .null := by
        refine ⟨v, found, ?_⟩
        rintro rfl
        exact not_tidied_null shape tidied
      rw [List.map_cons, List.mem_cons, List.map_cons, List.mem_cons, ih h, or_and_right]
      exact or_congr_left ⟨fun same => ⟨same, same ▸ some⟩, And.left⟩

theorem TidiedMembers.keys_sublist {given out : List (String × Json)}
    (h : TidiedMembers ms given out) : (out.map Prod.fst).Sublist (ms.map (·.1.key)) := by
  induction ms generalizing out with
  | nil => simp [show out = [] from h]
  | cons y r ih =>
    rcases h with ⟨-, h⟩ | ⟨v, w, rest, -, -, rfl, h⟩
    · exact (ih h).cons _
    · exact (ih h).cons_cons _

theorem decodeVariant_eq_ok_iff {variants : List String} {v : String} :
    decodeVariant variants v = .ok x ↔ v ∈ variants ∧ x = .choice v := by
  unfold decodeVariant
  split <;> simp_all [eq_comm]

theorem decode_choice_eq_ok_iff {variants : List String} :
    (choice variants).decode p = .ok x ↔
      ∃ v ∈ variants, (p = .str v ∨ p = .obj [(v, .null)]) ∧ x = .choice v := by
  cases p with
  | str v => simp [decode, decodeChoice, decodeVariant_eq_ok_iff]
  | obj given =>
    match given with
    | [(v, content)] =>
      simp only [decode, decodeChoice, bind_eq_ok_iff, decodeVariant_eq_ok_iff]
      cases content <;> simp [Json.isNull, eq_comm]
    | [] => simp [decode, decodeChoice]
    | _ :: _ :: _ => simp [decode, decodeChoice]
  | _ => simp [decode, decodeChoice]

theorem decode_list_eq_ok_iff {item : Shape} {ps : List Json} :
    (list item).decode (.arr ps) = .ok x ↔ ∃ vs, ps.mapM item.decode = .ok vs ∧ x = .list vs := by
  rw [decode]
  cases ps.mapM item.decode <;> simp [Except.map, eq_comm]

/-- Items that are tidied one by one are read as a list and written again. -/
theorem tidiedItems_iff {item : Shape} {ps qs : List Json}
    (each : ∀ p q, item.Tidied p q ↔ ∃ x, item.decode p = .ok x ∧ x.encode = q) :
    List.Forall₂ item.Tidied ps qs ↔
      ∃ vs, ps.mapM item.decode = .ok vs ∧ Value.encodeItems vs = qs := by
  induction ps generalizing qs with
  | nil =>
    rw [List.forall₂_nil_left_iff, List.mapM_nil]
    constructor
    · rintro rfl
      exact ⟨[], rfl, rfl⟩
    · rintro ⟨vs, read, rfl⟩
      cases read
      rfl
  | cons p ps ih =>
    rw [List.forall₂_cons_left_iff]
    simp only [List.mapM_cons, bind_eq_ok_iff, each, ih]
    constructor
    · rintro ⟨q, qs, ⟨x, here, rfl⟩, ⟨vs, there, rfl⟩, rfl⟩
      exact ⟨x :: vs, ⟨x, here, vs, there, rfl⟩, rfl⟩
    · rintro ⟨vs, ⟨x, here, rest, there, same⟩, rfl⟩
      cases same
      exact ⟨x.encode, Value.encodeItems rest, ⟨x, here, rfl⟩, ⟨rest, there, rfl⟩, rfl⟩

mutual
/-- **What is read and then written again is tidied**, and nothing else is. -/
theorem tidied_iff (s : Shape) (p q : Json) (distinct : s.distinct = true) :
    s.Tidied p q ↔ ∃ x, s.decode p = .ok x ∧ x.encode = q := by
  cases s with
  | text => cases p <;> simp [Tidied, decode, Value.encode, eq_comm]
  | flag => cases p <;> simp [Tidied, decode, Value.encode, eq_comm]
  | real => cases p <;> simp [Tidied, decode, Value.encode, eq_comm]
  | int32 =>
    cases p with
    | int n =>
      simp only [Tidied, decode]
      split
      · simp [Value.encode, eq_comm, *]
      · simp [*]
    | _ => simp [Tidied, decode]
  | instant =>
    cases p with
    | str s =>
      simp only [Tidied, decode]
      cases Timestamp.ofText s <;> simp [Value.encode, eq_comm]
    | _ => simp [Tidied, decode]
  | choice variants =>
    simp only [Tidied, decode_choice_eq_ok_iff]
    constructor
    · rintro ⟨v, known, spelled, rfl⟩
      exact ⟨.choice v, ⟨v, known, spelled, rfl⟩, rfl⟩
    · rintro ⟨x, ⟨v, known, spelled, rfl⟩, rfl⟩
      exact ⟨v, known, spelled, rfl⟩
  | list item =>
    cases p with
    | arr ps =>
      have each : ∀ qs, List.Forall₂ item.Tidied ps qs ↔
          ∃ vs, ps.mapM item.decode = .ok vs ∧ Value.encodeItems vs = qs :=
        fun qs => tidiedItems_iff fun p q => tidied_iff item p q distinct
      simp only [Tidied, each, decode_list_eq_ok_iff]
      constructor
      · rintro ⟨qs, ⟨vs, read, rfl⟩, rfl⟩
        exact ⟨.list vs, ⟨vs, read, rfl⟩, rfl⟩
      · rintro ⟨x, ⟨vs, read, rfl⟩, rfl⟩
        exact ⟨_, ⟨vs, read, rfl⟩, rfl⟩
    | _ => simp [Tidied, decode]
  | record name members =>
    simp only [Shape.distinct, Bool.and_eq_true, decide_eq_true_eq] at distinct
    have object : ∀ given, (record name members).Tidied (.obj given) q ↔
        ∃ x, (record name members).decode (.obj given) = .ok x ∧ x.encode = q := by
      intro given
      simp only [Tidied, decode, assemble_eq_ok_iff, tidiedMembers_iff members given _ distinct.2]
      constructor
      · rintro ⟨out, ⟨vs, whole, rfl⟩, rfl⟩
        exact ⟨.record vs, ⟨vs, whole, rfl⟩, rfl⟩
      · rintro ⟨x, ⟨vs, whole, rfl⟩, rfl⟩
        exact ⟨_, ⟨vs, whole, rfl⟩, rfl⟩
    cases p with
    | obj given => exact object given
    | arr items =>
      simp only [decode_array_eq_ok_iff distinct.1, and_assoc, exists_and_left, ← object]
      simp only [Tidied]
    | _ => simp [Tidied, decode]
termination_by structural s

theorem tidiedMembers_iff (ms : List (Member × Shape)) (given out : List (String × Json))
    (distinct : distinctMembers ms = true) : TidiedMembers ms given out ↔
      ∃ vs, Whole (objectResults ms given) vs ∧ Value.encodeMembers vs = out := by
  cases ms with
  | nil =>
    simp only [TidiedMembers, objectResults]
    constructor
    · rintro rfl
      exact ⟨[], ⟨rfl, rfl, rfl⟩, rfl⟩
    · rintro ⟨vs, whole, rfl⟩
      rw [← whole.good]
      rfl
  | cons x r =>
    obtain ⟨m, shape⟩ := x
    simp only [distinctMembers, Bool.and_eq_true] at distinct
    have here := fun v w => tidied_iff shape v w distinct.1
    have there := fun out => tidiedMembers_iff r given out distinct.2
    simp only [TidiedMembers, whole_objectResults, here, there]
    constructor
    · rintro (⟨absent, vs, whole, rfl⟩ | ⟨v, _, _, found, ⟨x, read, rfl⟩, rfl, vs, whole, rfl⟩)
      · exact ⟨vs, .inl ⟨absent, whole⟩, rfl⟩
      · exact ⟨(m.key, x) :: vs, .inr ⟨v, x, vs, found, read, rfl, whole⟩, rfl⟩
    · rintro ⟨vs, ⟨absent, whole⟩ | ⟨v, x, rest, found, read, rfl, whole⟩, rfl⟩
      · exact .inl ⟨absent, vs, whole, rfl⟩
      · exact .inr ⟨v, _, _, found, ⟨x, read, rfl⟩, rfl, rest, whole, rfl⟩
termination_by structural ms
end

theorem mem_of_mapM {item : Shape} {ps : List Json} {vs : List Value}
    (h : ps.mapM item.decode = .ok vs) : ∀ v ∈ vs, ∃ p ∈ ps, item.decode p = .ok v := by
  induction ps generalizing vs with
  | nil =>
    cases h
    simp
  | cons p ps ih =>
    simp only [List.mapM_cons, bind_eq_ok_iff] at h
    obtain ⟨x, here, rest, there, same⟩ := h
    cases same
    refine List.forall_mem_cons.2 ⟨⟨p, List.mem_cons_self, here⟩, fun v hv => ?_⟩
    obtain ⟨p, hp, read⟩ := ih there v hv
    exact ⟨p, List.mem_cons_of_mem _ hp, read⟩

mutual
/-- **What is read belongs to the shape.** -/
theorem typed_of_decode (s : Shape) (p : Json) (x : Value) (distinct : s.distinct = true)
    (numbers : p.Numbers Finite) (h : s.decode p = .ok x) : Typed Finite s x := by
  cases s with
  | text =>
    cases p with
    | str s =>
      cases h
      trivial
    | _ => cases h
  | flag =>
    cases p with
    | bool b =>
      cases h
      trivial
    | _ => cases h
  | real =>
    cases p with
    | int n =>
      cases h
      obtain ⟨low, high⟩ := numbers
      have finite := Binary64.isFinite_ofInt (n := n) (by omega)
      exact ⟨finite, finite⟩
    | float y =>
      cases h
      exact ⟨numbers, numbers⟩
    | _ => cases h
  | int32 =>
    cases p with
    | int n =>
      rw [decode] at h
      split at h
      · cases h
        simpa [Admits]
      · cases h
    | _ => cases h
  | instant =>
    cases p with
    | str s =>
      rw [decode] at h
      split at h
      · cases h
        exact Timestamp.readsBack _
      · cases h
    | _ => cases h
  | choice variants =>
    obtain ⟨v, known, -, rfl⟩ := decode_choice_eq_ok_iff.1 h
    exact known
  | list item =>
    cases p with
    | arr ps =>
      obtain ⟨vs, items, rfl⟩ := decode_list_eq_ok_iff.1 h
      intro v hv
      obtain ⟨p, hp, read⟩ := mem_of_mapM items v hv
      exact typed_of_decode item p v distinct (Json.numbersItems_iff.1 numbers p hp) read
    | _ => cases h
  | record name members =>
    simp only [Shape.distinct, Bool.and_eq_true, decide_eq_true_eq] at distinct
    have object : ∀ given, (Json.obj given).Numbers Finite →
        (record name members).decode (.obj given) = .ok x → Typed Finite (record name members) x := by
      intro given numbers h
      obtain ⟨vs, whole, rfl⟩ := assemble_eq_ok_iff.1 h
      exact typed_of_whole members given vs distinct.2 (Json.numbersMembers_iff.1 numbers) whole
    cases p with
    | obj given => exact object given numbers h
    | arr items =>
      refine object _ (Json.numbersMembers_iff.2 fun y hy => ?_)
        ((decode_array_eq_ok_iff distinct.1).1 h).2
      exact Json.numbersItems_iff.1 numbers _ (List.of_mem_zip hy).2
    | _ => cases h
termination_by structural s

theorem typed_of_whole (ms : List (Member × Shape)) (all : List (String × Json))
    (given : List (String × Value)) (distinct : distinctMembers ms = true)
    (numbers : ∀ y ∈ all, y.2.Numbers Finite) (h : Whole (objectResults ms all) given) :
    TypedMembers Finite ms given := by
  cases ms with
  | nil => exact h.good.symm
  | cons x r =>
    obtain ⟨m, shape⟩ := x
    simp only [distinctMembers, Bool.and_eq_true] at distinct
    rcases whole_objectResults.1 h with ⟨absent, rest⟩ | ⟨v, w, rest, found, read, rfl, whole⟩
    · exact .inl ⟨absent.1, typed_of_whole r all given distinct.2 numbers rest⟩
    · refine .inr ⟨w, rest, rfl, ?_, typed_of_whole r all rest distinct.2 numbers whole⟩
      exact typed_of_decode shape v w distinct.1 (numbers _ (Json.mem_of_lookup found)) read
termination_by structural ms
end

end Shape

/-- What is read of a payload belongs to its type. -/
theorem PayloadType.typed_of_decode {t : PayloadType} {p : Json} {x : Value}
    (distinct : t.shape.distinct = true) (numbers : p.Numbers Finite) (h : t.decode p = .ok x) :
    t.shape.Typed Finite x := by
  cases p with
  | obj given => exact Shape.typed_of_decode t.shape _ x distinct numbers h
  | _ => cases h

end ChargeLink
