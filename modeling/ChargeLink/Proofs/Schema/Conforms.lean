import ChargeLink.Proofs.Schema.Places
import ChargeLink.Proofs.Schema.Spellings

/-!
# Which payloads are taken, and what is said of the others

`Shape.Conforms` says of a payload what it has to be, without reading it.
`Shape.Reads` says which part of a payload is read by which part of its shape. A
fault of reading says something of such a part (`Shape.Explains`): that it is an
object without a required member, and otherwise flawless; that it is not the kind
of thing that the shape takes; or that it is a bad timestamp, or an array too long
or too short for the record.

* `Shape.conforms_iff`: a payload is read exactly if it conforms.
* `Shape.decode_explained`: what a fault says is so.
-/

namespace ChargeLink

namespace Shape

/-! ## Conforming -/

mutual
/-- The payload is one of this shape. -/
def Conforms : Shape → Json → Prop
  | text, .str _ => True
  | int32, .int n => -0x80000000 ≤ n ∧ n < 0x80000000
  | real, .int _ => True
  | real, .float _ => True
  | flag, .bool _ => True
  | instant, .str s => ∃ t, Timestamp.ofText s = .ok t
  | choice variants, p => ∃ v ∈ variants, p = .str v ∨ p = .obj [(v, .null)]
  | list item, .arr items => ∀ p ∈ items, Conforms item p
  | record _ members, .obj given => MembersConform members given
  | record _ members, .arr items =>
    items.length = members.length ∧ MembersConform members (fields members items)
  | _, _ => False

/-- Each of the declared members is there and is of its shape, or may be absent and is. -/
def MembersConform : List (Member × Shape) → List (String × Json) → Prop
  | [], _ => True
  | (m, shape) :: r, given =>
    (m.Absent given ∨ ∃ p, Json.lookup m.key given = some p ∧ Conforms shape p) ∧
      MembersConform r given
end

/-- A list is read exactly if each item is. -/
theorem exists_mapM_iff {item : Shape} {items : List Json} :
    (∃ vs, items.mapM item.decode = .ok vs) ↔ ∀ p ∈ items, ∃ x, item.decode p = .ok x := by
  induction items with
  | nil => simp [pure, Except.pure]
  | cons p r ih =>
    rw [List.forall_mem_cons, ← ih]
    simp only [List.mapM_cons, bind_eq_ok_iff, pure, Except.pure, Except.ok.injEq]
    constructor
    · rintro ⟨_, x, here, vs, there, rfl⟩
      exact ⟨⟨x, here⟩, vs, there⟩
    · rintro ⟨⟨x, here⟩, vs, there⟩
      exact ⟨_, x, here, vs, there, rfl⟩

mutual
/-- **A payload is read exactly if it conforms.** -/
theorem conforms_iff (s : Shape) (p : Json) (distinct : s.distinct = true) :
    s.Conforms p ↔ ∃ x, s.decode p = .ok x := by
  cases s with
  | text => cases p <;> simp [Conforms, decode]
  | flag => cases p <;> simp [Conforms, decode]
  | real => cases p <;> simp [Conforms, decode]
  | int32 =>
    cases p with
    | int n =>
      simp only [Conforms, decode]
      split <;> simp [*]
    | _ => simp [Conforms, decode]
  | instant =>
    cases p with
    | str s =>
      simp only [Conforms, decode]
      cases Timestamp.ofText s <;> simp
    | _ => simp [Conforms, decode]
  | choice variants =>
    simp only [Conforms, decode_choice_eq_ok_iff]
    constructor
    · rintro ⟨v, known, spelled⟩
      exact ⟨_, v, known, spelled, rfl⟩
    · rintro ⟨_, v, known, spelled, rfl⟩
      exact ⟨v, known, spelled⟩
  | list item =>
    cases p with
    | arr items =>
      have each : (∀ p ∈ items, item.Conforms p) ↔ ∀ p ∈ items, ∃ x, item.decode p = .ok x :=
        forall₂_congr fun p _ => conforms_iff item p distinct
      simp only [Conforms, each, ← exists_mapM_iff, decode_list_eq_ok_iff]
      constructor
      · rintro ⟨vs, read⟩
        exact ⟨_, vs, read, rfl⟩
      · rintro ⟨_, vs, read, rfl⟩
        exact ⟨vs, read⟩
    | _ => simp [Conforms, decode]
  | record name members =>
    simp only [Shape.distinct, Bool.and_eq_true, decide_eq_true_eq] at distinct
    have object : ∀ given, MembersConform members given ↔
        ∃ x, (record name members).decode (.obj given) = .ok x := by
      intro given
      simp only [membersConform_iff members given distinct.2, decode, assemble_eq_ok_iff]
      constructor
      · rintro ⟨vs, whole⟩
        exact ⟨_, vs, whole, rfl⟩
      · rintro ⟨_, vs, whole, rfl⟩
        exact ⟨vs, whole⟩
    cases p with
    | obj given => exact object given
    | arr items => simp only [Conforms, object, decode_array_eq_ok_iff distinct.1, exists_and_left]
    | _ => simp [Conforms, decode]
termination_by structural s

theorem membersConform_iff (ms : List (Member × Shape)) (given : List (String × Json))
    (distinct : distinctMembers ms = true) :
    MembersConform ms given ↔ ∃ vs, Whole (objectResults ms given) vs := by
  cases ms with
  | nil =>
    simp only [MembersConform, objectResults, true_iff]
    exact ⟨[], rfl, rfl, rfl⟩
  | cons x r =>
    obtain ⟨m, shape⟩ := x
    simp only [distinctMembers, Bool.and_eq_true] at distinct
    have here := fun p => conforms_iff shape p distinct.1
    have there := membersConform_iff r given distinct.2
    simp only [MembersConform, whole_objectResults, here, there]
    constructor
    · rintro ⟨absent | ⟨p, found, x, read⟩, vs, whole⟩
      · exact ⟨vs, .inl ⟨absent, whole⟩⟩
      · exact ⟨_, .inr ⟨p, x, vs, found, read, rfl, whole⟩⟩
    · rintro ⟨vs, ⟨absent, whole⟩ | ⟨p, x, rest, found, read, rfl, whole⟩⟩
      · exact ⟨.inl absent, vs, whole⟩
      · exact ⟨.inr ⟨p, found, x, read⟩, rest, whole⟩
termination_by structural ms
end

/-! ## What may be wrong with a part -/

/-- Reading a payload by a shape, one reads a part of it by a part of the shape. Null for a member
that may be absent is not read. -/
inductive Reads : Shape → Json → Shape → Json → Prop
  | here (s : Shape) (p : Json) : Reads s p s p
  | item {item s : Shape} {items : List Json} {p q : Json} (mem : p ∈ items)
      (inner : Reads item p s q) : Reads (list item) (.arr items) s q
  | member {name : String} {ms : List (Member × Shape)} {given : List (String × Json)}
      {m : Member} {shape s : Shape} {p q : Json} (declared : (m, shape) ∈ ms)
      (found : Json.lookup m.key given = some p) (kept : ¬(m.optional = true ∧ p = .null))
      (inner : Reads shape p s q) : Reads (record name ms) (.obj given) s q
  | element {name : String} {ms : List (Member × Shape)} {items : List Json}
      {m : Member} {shape s : Shape} {p q : Json} (declared : ((m, shape), p) ∈ ms.zip items)
      (kept : ¬(m.optional = true ∧ p = .null))
      (inner : Reads shape p s q) : Reads (record name ms) (.arr items) s q

/-- A required member is absent from an object, the first one of those that are. All declared
members that are there can be read. -/
structure Lacks (ms : List (Member × Shape)) (given : List (String × Json)) (key : String) :
    Prop where
  absent : Json.lookup key given = none
  first : ∃ before m shape after, ms = before ++ (m, shape) :: after ∧ m.key = key ∧
    m.optional = false ∧ ∀ x ∈ before, x.1.optional = true ∨ Json.lookup x.1.key given ≠ none
  others : ∀ m shape p, (m, shape) ∈ ms → Json.lookup m.key given = some p →
    (m.optional = true ∧ p = .null) ∨ ∃ x, shape.decode p = .ok x

/-- Whether a payload is of the kind that the shape is read from, whatever is in it. -/
def takes : Shape → Json → Bool
  | text, .str _ => true
  | int32, .int _ => true
  | real, .int _ => true
  | real, .float _ => true
  | flag, .bool _ => true
  | instant, .str _ => true
  | choice _, .str _ => true
  | choice _, .obj [(_, .null)] => true
  | list _, .arr _ => true
  | record _ _, .obj _ => true
  | record _ _, .arr _ => true
  | _, _ => false

/-- A payload is of the wrong kind, a number out of range, or a choice that is not offered. -/
inductive Mismatch : Shape → Json → Prop
  | kind {s : Shape} {p : Json} (h : s.takes p = false) : Mismatch s p
  | range {n : ℤ} (h : ¬(-0x80000000 ≤ n ∧ n < 0x80000000)) : Mismatch int32 (.int n)
  | variant {variants : List String} {v : String} (unknown : v ∉ variants) :
      Mismatch (choice variants) (.str v)
  | tagged {variants : List String} {v : String} {content : Json} (unknown : v ∉ variants) :
      Mismatch (choice variants) (.obj [(v, content)])

/-- A text is no timestamp, or an array has not as many elements as the record has members. -/
inductive Malformed : Shape → Json → Prop
  | instant {s : String} (unreadable : ∀ t, Timestamp.ofText s ≠ .ok t) :
      Malformed instant (.str s)
  | length {name : String} {ms : List (Member × Shape)} {items : List Json}
      (wrong : items.length ≠ ms.length) : Malformed (record name ms) (.arr items)

/-- What a fault says of the part where it is. -/
def Shows : DecodeFault → Shape → Json → Prop
  | .missing key, record _ ms, .obj given => Lacks ms given key
  | .wrongType .., s, p => s.Mismatch p
  | .wrongValue .., s, p => s.Mismatch p
  | .unknownVariant .., s, p => s.Mismatch p
  | .badInstant _, s, p => s.Malformed p
  | .wrongLength .., s, p => s.Malformed p
  | .extraElements _, s, p => s.Malformed p
  | _, _, _ => False

/-- What a fault says is so for a part that is read. -/
def Explains (fault : DecodeFault) (s : Shape) (p : Json) : Prop :=
  ∃ t q, s.Reads p t q ∧ Shows fault t q

variable {m : Member} {shape : Shape} {ms : List (Member × Shape)} {p : Json}
  {fault : DecodeFault} {results : List (Member × MemberResult)} {given : List (String × Json)}

theorem Explains.of_shows {s : Shape} (h : Shows fault s p) : Explains fault s p :=
  ⟨s, p, .here s p, h⟩

/-! ## The members of a record -/

/-- A member that is bad has been read and was not. -/
theorem memberResult_eq_bad (h : memberResult m shape.decode p = .bad fault) :
    ¬(m.optional = true ∧ p = .null) ∧ shape.decode p = .error fault := by
  unfold memberResult at h
  split at h
  · cases h
  · rename_i kept
    split at h
    · cases h
    · cases h
      refine ⟨?_, by assumption⟩
      rintro ⟨optional, rfl⟩
      simp [optional, Json.isNull] at kept

theorem memberResult_eq_absent {read : Json → Except DecodeFault Value}
    (h : memberResult m read p = .absent) : m.optional = true := by
  unfold memberResult at h
  split at h
  · rename_i null
    exact (Bool.and_eq_true_iff.1 null).1
  · split at h <;> cases h

theorem memberResult_of_not_bad (h : ∀ fault, memberResult m shape.decode p ≠ .bad fault) :
    (m.optional = true ∧ p = .null) ∨ ∃ x, shape.decode p = .ok x := by
  unfold memberResult at h
  split at h
  · rename_i null
    left
    cases p <;> simp_all [Json.isNull]
  · split at h
    · exact .inr ⟨_, by assumption⟩
    · exact absurd rfl (h _)

/-- What becomes of a declared member among those that are given. -/
def resultAmong (given : List (String × Json)) (x : Member × Shape) : MemberResult :=
  match Json.lookup x.1.key given with
  | some p => memberResult x.1 x.2.decode p
  | none => .absent

theorem objectResults_eq_map :
    objectResults ms given = ms.map fun x => (x.1, resultAmong given x) := by
  induction ms with
  | nil => rw [objectResults, List.map_nil]
  | cons x r ih =>
    cases found : Json.lookup x.1.key given <;> simp [objectResults, resultAmong, found, ih]

/-- A required member that is given is not absent. -/
theorem lookup_of_absent {x : Member × Shape} (required : x.1.optional = false)
    (absent : resultAmong given x = .absent) : Json.lookup x.1.key given = none := by
  unfold resultAmong at absent
  split at absent
  · simp only [memberResult, required, Bool.false_and, Bool.false_eq_true, if_false] at absent
    split at absent <;> cases absent
  · assumption

theorem firstBad_eq_none_iff :
    firstBad results = none ↔ ∀ x ∈ results, ∀ fault, x.2 ≠ .bad fault := by
  induction results with
  | nil => simp [firstBad]
  | cons x r ih => rw [List.forall_mem_cons, ← ih, firstBad_cons_eq_none]

/-- The first bad member is one that is given and cannot be read. -/
theorem bad_of_firstBad {key : String} (h : firstBad (objectResults ms given) = some (key, fault)) :
    ∃ m shape p, (m, shape) ∈ ms ∧ Json.lookup m.key given = some p ∧
      ¬(m.optional = true ∧ p = .null) ∧ shape.decode p = .error fault := by
  obtain ⟨m, mem⟩ := mem_of_firstBad h
  rw [objectResults_eq_map] at mem
  obtain ⟨⟨n, shape⟩, declared, same⟩ := List.mem_map.1 mem
  simp only [Prod.mk.injEq] at same
  obtain ⟨rfl, bad⟩ := same
  unfold resultAmong at bad
  split at bad
  · rename_i p found
    obtain ⟨kept, fails⟩ := memberResult_eq_bad bad
    exact ⟨n, shape, p, declared, found, kept, fails⟩
  · cases bad

theorem split_of_firstMissing {key : String} (h : firstMissing results = some key) :
    ∃ before m after, results = before ++ (m, .absent) :: after ∧ m.key = key ∧
      m.optional = false ∧ ∀ x ∈ before, x.2 = .absent → x.1.optional = true := by
  induction results with
  | nil => cases h
  | cons x r ih =>
    obtain ⟨m, result⟩ := x
    have later : firstMissing r = some key → (result = .absent → m.optional = true) →
        ∃ before n after, (m, result) :: r = before ++ (n, .absent) :: after ∧ n.key = key ∧
          n.optional = false ∧ ∀ x ∈ before, x.2 = .absent → x.1.optional = true := by
      intro found skipped
      obtain ⟨before, n, after, rfl, same, required, others⟩ := ih found
      exact ⟨(m, result) :: before, n, after, rfl, same, required,
        List.forall_mem_cons.2 ⟨skipped, others⟩⟩
    cases result with
    | absent =>
      rw [firstMissing] at h
      split at h
      · rename_i optional
        exact later h fun _ => optional
      · rename_i required
        cases h
        exact ⟨[], m, r, rfl, rfl, by simpa using required, List.forall_mem_nil _⟩
    | bad | good => exact later h (by simp)

/-- The first missing member is the first required one that is not given. -/
theorem lacks_of_firstMissing {key : String} (fine : firstBad (objectResults ms given) = none)
    (h : firstMissing (objectResults ms given) = some key) : Lacks ms given key := by
  rw [objectResults_eq_map] at fine h
  obtain ⟨before, m, after, same, rfl, required, skipped⟩ := split_of_firstMissing h
  obtain ⟨first, rest, rfl, rfl, split⟩ := List.map_eq_append_iff.1 same
  obtain ⟨⟨n, shape⟩, last, rfl, here, rfl⟩ := List.map_eq_cons_iff.1 split
  simp only [Prod.mk.injEq] at here
  obtain ⟨rfl, absent⟩ := here
  refine ⟨lookup_of_absent required absent, ⟨first, n, shape, last, rfl, rfl, required, ?_⟩, ?_⟩
  · intro x hx
    rw [or_iff_not_imp_right, not_not]
    intro none
    refine skipped _ (List.mem_map_of_mem hx) ?_
    simp [resultAmong, none]
  · intro m shape p declared found
    have result := firstBad_eq_none_iff.1 fine _ (List.mem_map_of_mem declared)
    simp only [resultAmong, found] at result
    exact memberResult_of_not_bad result

/-! ## The elements of an array -/

/-- An array that stands for a record is read up to its first bad element, or to its end. -/
theorem arrayResults_eq_error {name : String} {total i : ℕ} {items : List Json}
    (h : arrayResults name total ms i items = .error fault) :
    (∃ m shape p, ((m, shape), p) ∈ ms.zip items ∧ ¬(m.optional = true ∧ p = .null) ∧
      shape.decode p = .error fault) ∨
    items.length < ms.length ∧ ∃ got, fault = .wrongLength got name total := by
  induction ms generalizing i items with
  | nil => cases h
  | cons x r ih =>
    obtain ⟨m, shape⟩ := x
    cases items with
    | nil =>
      cases h
      exact .inr ⟨Nat.succ_pos _, i, rfl⟩
    | cons p items =>
      have later : arrayResults name total r (i + 1) items = .error fault → _ := ih
      rw [arrayResults] at h
      cases result : memberResult m shape.decode p with
      | bad fault' =>
        rw [result] at h
        cases h
        obtain ⟨kept, fails⟩ := memberResult_eq_bad result
        exact .inl ⟨m, shape, p, List.mem_cons_self, kept, fails⟩
      | absent | good =>
        rw [result] at h
        cases rest : arrayResults name total r (i + 1) items with
        | ok results => simp [rest, bind, Except.bind, pure, Except.pure] at h
        | error fault' =>
          simp only [rest, bind, Except.bind, Except.error.injEq] at h
          rcases later (h ▸ rest) with ⟨n, t, q, mem, kept, fails⟩ | ⟨short, got⟩
          · exact .inl ⟨n, t, q, List.mem_cons_of_mem _ mem, kept, fails⟩
          · exact .inr ⟨Nat.succ_lt_succ short, got⟩

/-- An array that is read to its end has all members, and nothing is wrong with them. -/
theorem assemble_arrayResults {name : String} {total i : ℕ} {items : List Json}
    (h : arrayResults name total ms i items = .ok results) :
    assemble results = .ok (.record (goodMembers results)) := by
  suffices whole : firstBad results = none ∧ firstMissing results = none by
    rw [assemble, whole.1, whole.2]
  induction ms generalizing i items results with
  | nil =>
    cases h
    exact ⟨rfl, rfl⟩
  | cons x r ih =>
    obtain ⟨m, shape⟩ := x
    cases items with
    | nil => cases h
    | cons p items =>
      rw [arrayResults] at h
      cases result : memberResult m shape.decode p with
      | bad fault =>
        rw [result] at h
        cases h
      | absent =>
        rw [result] at h
        obtain ⟨rest, read, same⟩ := bind_eq_ok_iff.1 h
        cases same
        have optional : m.optional = true := memberResult_eq_absent result
        simpa [firstBad, firstMissing, optional] using ih read
      | good x =>
        rw [result] at h
        obtain ⟨rest, read, same⟩ := bind_eq_ok_iff.1 h
        cases same
        simpa [firstBad, firstMissing] using ih read

/-! ## What a fault says -/

theorem decodeVariant_eq_error {variants : List String} {v : String}
    (h : decodeVariant variants v = .error fault) :
    v ∉ variants ∧ fault = .unknownVariant v variants := by
  unfold decodeVariant at h
  split at h
  · cases h
  · rename_i unknown
    cases h
    exact ⟨by simpa using unknown, rfl⟩

theorem decodeChoice_explained {variants : List String}
    (h : decodeChoice variants p = .error fault) : Explains fault (choice variants) p := by
  refine .of_shows ?_
  cases p with
  | str v =>
    obtain ⟨unknown, rfl⟩ := decodeVariant_eq_error h
    exact .variant unknown
  | obj members =>
    match members with
    | [] =>
      cases h
      exact .kind rfl
    | [(v, content)] =>
      cases known : decodeVariant variants v with
      | error e =>
        obtain ⟨unknown, rfl⟩ := decodeVariant_eq_error known
        simp only [decodeChoice, known, bind, Except.bind, Except.error.injEq] at h
        rw [← h]
        exact .tagged unknown
      | ok choice =>
        simp only [decodeChoice, known, bind, Except.bind] at h
        cases content <;> cases h
        all_goals exact .kind rfl
    | (_, content) :: _ :: _ =>
      cases h
      exact .kind (by cases content <;> rfl)
  | _ =>
    cases h
    exact .kind rfl

/-- An object has a bad member, or lacks one. -/
theorem object_explained {name : String}
    (within : ∀ x ∈ ms, ∀ p fault, x.2.decode p = .error fault → Explains fault x.2 p)
    (h : (record name ms).decode (.obj given) = .error fault) :
    Explains fault (record name ms) (.obj given) := by
  rw [decode, assemble] at h
  split at h
  · rename_i bad
    cases h
    obtain ⟨m, shape, p, declared, found, kept, fails⟩ := bad_of_firstBad bad
    obtain ⟨t, q, inner, shows⟩ := within _ declared p _ fails
    exact ⟨t, q, .member declared found kept inner, shows⟩
  · rename_i fine
    split at h <;> cases h
    rename_i missing
    exact .of_shows (lacks_of_firstMissing fine missing)

/-- An array that stands for a record has a bad element, or not the right length. -/
theorem array_explained {name : String} {items : List Json}
    (within : ∀ x ∈ ms, ∀ p fault, x.2.decode p = .error fault → Explains fault x.2 p)
    (h : (record name ms).decode (.arr items) = .error fault) :
    Explains fault (record name ms) (.arr items) := by
  rw [decode] at h
  cases read : arrayResults name ms.length ms 0 items with
  | error e =>
    rw [read] at h
    cases h
    rcases arrayResults_eq_error read with ⟨m, shape, p, mem, kept, fails⟩ | ⟨short, got, rfl⟩
    · have declared := (List.of_mem_zip mem).1
      obtain ⟨t, q, inner, shows⟩ := within _ declared p _ fails
      exact ⟨t, q, .element mem kept inner, shows⟩
    · exact .of_shows (.length (Nat.ne_of_lt short))
  | ok results =>
    rw [read] at h
    simp only [bind, Except.bind, assemble_arrayResults read] at h
    split at h <;> cases h
    exact .of_shows (.length (Nat.ne_of_gt ‹_›))

mutual
/-- **What a fault says is so.** -/
theorem decode_explained (s : Shape) (p : Json) (fault : DecodeFault)
    (h : s.decode p = .error fault) : Explains fault s p := by
  cases s with
  | text =>
    refine .of_shows ?_
    cases p <;> cases h
    all_goals exact .kind rfl
  | real =>
    refine .of_shows ?_
    cases p <;> cases h
    all_goals exact .kind rfl
  | flag =>
    refine .of_shows ?_
    cases p <;> cases h
    all_goals exact .kind rfl
  | int32 =>
    refine .of_shows ?_
    cases p with
    | int n =>
      rw [decode] at h
      split at h <;> cases h
      exact .range ‹_›
    | _ =>
      cases h
      exact .kind rfl
  | instant =>
    refine .of_shows ?_
    cases p with
    | str s =>
      rw [decode] at h
      split at h <;> cases h
      rename_i unreadable
      exact .instant (by simp [unreadable])
    | _ =>
      cases h
      exact .kind rfl
  | choice variants => exact decodeChoice_explained h
  | list item =>
    cases p with
    | arr items =>
      rw [decode] at h
      have fails : items.mapM (decode item) = .error fault := by
        cases read : items.mapM (decode item) with
        | error e => simpa [read, Except.map] using h
        | ok vs => simp [read, Except.map] at h
      obtain ⟨p, mem, fails⟩ := mapM_eq_error fails
      obtain ⟨t, q, inner, shows⟩ := decode_explained item p fault fails
      exact ⟨t, q, .item mem inner, shows⟩
    | _ =>
      cases h
      exact .of_shows (.kind rfl)
  | record name members =>
    have members_explained := members_explained members
    cases p with
    | obj given => exact object_explained members_explained h
    | arr items => exact array_explained members_explained h
    | _ =>
      cases h
      exact .of_shows (.kind rfl)
termination_by structural s

theorem members_explained (ms : List (Member × Shape)) : ∀ x ∈ ms, ∀ p fault,
    x.2.decode p = .error fault → Explains fault x.2 p := by
  cases ms with
  | nil => simp
  | cons x r =>
    obtain ⟨m, shape⟩ := x
    exact List.forall_mem_cons.2 ⟨decode_explained shape, members_explained r⟩
termination_by structural ms
end

/-! ## What is said to be wrong is wrong -/

theorem Conforms.takes {s : Shape} (h : s.Conforms p) : s.takes p = true := by
  cases s with
  | choice variants => obtain ⟨v, -, rfl | rfl⟩ := h <;> rfl
  | _ => cases p <;> first | rfl | exact False.elim h

theorem Mismatch.not_conforms {s : Shape} (h : s.Mismatch p) : ¬s.Conforms p := by
  cases h with
  | kind other =>
    intro conforms
    rw [conforms.takes] at other
    cases other
  | range outside => exact outside
  | variant unknown =>
    rintro ⟨v, known, same | same⟩ <;> cases same
    exact unknown known
  | tagged unknown =>
    rintro ⟨v, known, same | same⟩ <;> cases same
    exact unknown known

theorem Malformed.not_conforms {s : Shape} (h : s.Malformed p) : ¬s.Conforms p := by
  cases h with
  | instant unreadable =>
    rintro ⟨t, read⟩
    exact unreadable t read
  | length wrong => exact fun h => wrong h.1

theorem MembersConform.of_mem {x : Member × Shape} (h : MembersConform ms given) (mem : x ∈ ms) :
    x.1.Absent given ∨ ∃ p, Json.lookup x.1.key given = some p ∧ x.2.Conforms p := by
  induction ms with
  | nil => cases mem
  | cons y r ih =>
    rcases List.mem_cons.1 mem with rfl | mem
    · exact h.1
    · exact ih h.2 mem

theorem Lacks.not_conforms {key : String} (h : Lacks ms given key) : ¬MembersConform ms given := by
  intro conforms
  obtain ⟨before, m, shape, after, same, rfl, required, -⟩ := h.first
  have mem : (m, shape) ∈ ms := by simp [same]
  rcases conforms.of_mem mem with absent | ⟨p, found, -⟩
  · simp [Member.Absent, required] at absent
  · rw [h.absent] at found
    cases found

/-- What a fault blames does not conform. -/
theorem Shows.not_conforms {s : Shape} (h : Shows fault s p) : ¬s.Conforms p := by
  cases fault with
  | notObject => exact h.elim
  | missing key =>
    cases s with
    | record name ms =>
      cases p with
      | obj given => exact Lacks.not_conforms h
      | _ => exact h.elim
    | _ => exact h.elim
  | wrongType => exact Mismatch.not_conforms h
  | wrongValue => exact Mismatch.not_conforms h
  | unknownVariant => exact Mismatch.not_conforms h
  | wrongLength => exact Malformed.not_conforms h
  | extraElements => exact Malformed.not_conforms h
  | badInstant => exact Malformed.not_conforms h

end Shape

end ChargeLink
