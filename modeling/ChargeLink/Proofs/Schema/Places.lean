import ChargeLink.Proofs.Schema.Violations
import ChargeLink.Schema.Decode

/-!
# Where a fault is

A fault names the place where it is: a member that is missing by its key, and one
that breaks a rule by the path to it. Places are made of the names that the type
declares and of positions in lists. No other text gets into them, whatever the
payload says.

* `Shape.decode_missing`: a member that is missed has been declared.
* `PayloadType.report_place`, `PayloadType.validate_place`: the place of a fault is one of the type.
-/

namespace ChargeLink

namespace Shape

mutual
/-- The names of the members within a payload of this shape, as they are called on the wire. -/
def names : Shape → List String
  | list item => names item
  | record _ members => memberNames members
  | _ => []

/-- The names of these members and of those within them. -/
def memberNames : List (Member × Shape) → List String
  | [] => []
  | (m, shape) :: r => m.key :: wireName m.name :: (names shape ++ memberNames r)
end

end Shape

/-- A place is made of names and positions. -/
inductive Place (names : List String) : String → Prop
  | root : Place names ""
  | member {path name} (within : Place names path) (known : name ∈ names) :
      Place names (MemberFault.joined path name)
  | item {path} (within : Place names path) (i : ℕ) : Place names (MemberFault.atIndex path i)

/-- A name is a place at the top. -/
theorem Place.of_mem {names : List String} {name : String} (known : name ∈ names) :
    Place names name :=
  .member .root known

namespace Shape

variable {key : String} {results : List (Member × MemberResult)} {names : List String}

/-! ## Members that are missed -/

/-- The members and what they miss are known. -/
def Known (names : List String) (results : List (Member × MemberResult)) : Prop :=
  ∀ x ∈ results, x.1.key ∈ names ∧ ∀ key, x.2 = .bad (.missing key) → key ∈ names

theorem mem_of_firstBad {k : String} {fault : DecodeFault}
    (h : firstBad results = some (k, fault)) : ∃ m, (m, .bad fault) ∈ results := by
  induction results generalizing k fault with
  | nil => cases h
  | cons x r ih =>
    obtain ⟨m, result⟩ := x
    have later : ∀ {k fault}, firstBad r = some (k, fault) →
        ∃ n, (n, .bad fault) ∈ (m, result) :: r := by
      intro k fault found
      obtain ⟨n, mem⟩ := ih found
      exact ⟨n, List.mem_cons_of_mem _ mem⟩
    cases result with
    | bad e =>
      simp only [firstBad] at h
      split at h
      · rename_i found
        split at h
        · cases h
          exact later found
        · cases h
          exact ⟨m, List.mem_cons_self⟩
      · cases h
        exact ⟨m, List.mem_cons_self⟩
    | absent | good => exact later h

theorem mem_of_firstMissing (h : firstMissing results = some key) :
    ∃ x ∈ results, x.1.key = key := by
  induction results with
  | nil => cases h
  | cons x r ih =>
    obtain ⟨m, result⟩ := x
    have later : firstMissing r = some key → ∃ x ∈ (m, result) :: r, x.1.key = key := by
      intro found
      obtain ⟨y, mem, same⟩ := ih found
      exact ⟨y, List.mem_cons_of_mem _ mem, same⟩
    cases result with
    | absent =>
      simp only [firstMissing] at h
      split at h
      · exact later h
      · cases h
        exact ⟨_, List.mem_cons_self, rfl⟩
    | bad | good => exact later h

/-- What a record misses is a member of its own, or what one of its members misses. -/
theorem assemble_missing (known : Known names results)
    (h : assemble results = .error (.missing key)) : key ∈ names := by
  unfold assemble at h
  split at h
  · rename_i found
    cases h
    obtain ⟨m, mem⟩ := mem_of_firstBad found
    exact (known _ mem).2 key rfl
  · split at h
    · rename_i found
      cases h
      obtain ⟨x, mem, rfl⟩ := mem_of_firstMissing found
      exact (known x mem).1
    · cases h

theorem memberResult_missing {m : Member} {read : Json → Except DecodeFault Value} {given : Json}
    (h : memberResult m read given = .bad (.missing key)) : read given = .error (.missing key) := by
  unfold memberResult at h
  split at h
  · cases h
  · split at h
    · cases h
    · cases h
      assumption

theorem decodeChoice_ne_missing (variants : List String) (given : Json) :
    decodeChoice variants given ≠ .error (.missing key) := by
  have variant : ∀ v, decodeVariant variants v ≠ .error (.missing key) := by
    intro v
    unfold decodeVariant
    split <;> simp
  unfold decodeChoice
  split
  · exact variant _
  · rename_i v content
    have known := variant v
    cases decoded : decodeVariant variants v with
    | error e => simpa [decoded, bind, Except.bind] using known
    | ok choice =>
      simp only [bind, Except.bind]
      split <;> simp
  · simp
  · simp

/-- What the first bad item of a list says. -/
theorem mapM_eq_error {ε α β : Type} {f : α → Except ε β} {e : ε} : ∀ {l : List α},
    l.mapM f = .error e → ∃ a ∈ l, f a = .error e
  | [], h => by simp [pure, Except.pure] at h
  | a :: l, h => by
    rw [List.mapM_cons] at h
    cases first : f a with
    | error e' =>
      rw [first] at h
      cases h
      exact ⟨a, List.mem_cons_self, first⟩
    | ok b =>
      rw [first] at h
      cases rest : l.mapM f with
      | error e' =>
        simp only [bind, Except.bind, rest, Except.error.injEq] at h
        obtain ⟨x, mem, fails⟩ := mapM_eq_error (h ▸ rest)
        exact ⟨x, List.mem_cons_of_mem _ mem, fails⟩
      | ok bs => simp [bind, Except.bind, rest, pure, Except.pure] at h

mutual
/-- **A member that is missed has been declared**, here or in one of the records within. -/
theorem decode_missing (s : Shape) (given : Json) (key : String)
    (h : s.decode given = .error (.missing key)) : key ∈ s.names := by
  cases s with
  | text => cases given <;> cases h
  | real => cases given <;> cases h
  | flag => cases given <;> cases h
  | int32 =>
    cases given with
    | int n =>
      rw [decode] at h
      split at h <;> cases h
    | _ => cases h
  | instant =>
    cases given with
    | str s =>
      rw [decode] at h
      split at h <;> cases h
    | _ => cases h
  | choice variants =>
    rw [decode] at h
    exact absurd h (decodeChoice_ne_missing variants given)
  | list item =>
    cases given with
    | arr items =>
      rw [decode] at h
      have fails : items.mapM (decode item) = .error (.missing key) := by
        cases read : items.mapM (decode item) with
        | error e => simpa [read, Except.map] using h
        | ok vs => simp [read, Except.map] at h
      obtain ⟨p, -, fails⟩ := mapM_eq_error fails
      exact decode_missing item p key fails
    | _ => cases h
  | record name members =>
    cases given with
    | obj given => exact assemble_missing (objectResults_known members given) h
    | arr items =>
      obtain ⟨fails, known⟩ := arrayResults_known members name members.length 0 items
      rw [decode] at h
      cases read : arrayResults name members.length members 0 items with
      | error e =>
        rw [read] at h
        cases h
        exact fails key read
      | ok results =>
        rw [read] at h
        simp only [bind, Except.bind] at h
        split at h
        · cases h
        · exact assemble_missing (known results read) h
    | _ => cases h
termination_by structural s

theorem objectResults_known (ms : List (Member × Shape)) (given : List (String × Json)) :
    Known (memberNames ms) (objectResults ms given) := by
  cases ms with
  | nil => simp [Known, objectResults]
  | cons x r =>
    obtain ⟨m, shape⟩ := x
    rw [objectResults]
    refine List.forall_mem_cons.2 ⟨⟨List.mem_cons_self, fun key bad => ?_⟩, fun x hx => ?_⟩
    · -- a bad member is bad because of what it holds
      dsimp only at bad
      split at bad
      · rename_i v _
        have within := decode_missing shape v key (memberResult_missing bad)
        simp [memberNames, within]
      · cases bad
    · obtain ⟨own, within⟩ := objectResults_known r given x hx
      exact ⟨by simp [memberNames, own], fun key bad => by simp [memberNames, within key bad]⟩
termination_by structural ms

theorem arrayResults_known (ms : List (Member × Shape)) (name : String) (total i : ℕ)
    (items : List Json) :
    (∀ key, arrayResults name total ms i items = .error (.missing key) → key ∈ memberNames ms) ∧
      ∀ results, arrayResults name total ms i items = .ok results →
        Known (memberNames ms) results := by
  cases ms with
  | nil =>
    refine ⟨fun key fails => by simp [arrayResults] at fails, fun results read => ?_⟩
    cases read
    simp [Known]
  | cons x r =>
    obtain ⟨m, shape⟩ := x
    cases items with
    | nil => exact ⟨fun key fails => by simp [arrayResults] at fails,
        fun results read => by simp [arrayResults] at read⟩
    | cons v items =>
      obtain ⟨fails, known⟩ := arrayResults_known r name total (i + 1) items
      have missed : ∀ key, memberResult m (decode shape) v = .bad (.missing key) →
          key ∈ memberNames ((m, shape) :: r) := by
        intro key bad
        have within := decode_missing shape v key (memberResult_missing bad)
        simp [memberNames, within]
      rw [arrayResults]
      cases result : memberResult m (decode shape) v with
      | bad fault =>
        refine ⟨fun key same => ?_, fun results read => by cases read⟩
        cases same
        exact missed key result
      | absent | good =>
        cases rest : arrayResults name total r (i + 1) items with
        | error e =>
          refine ⟨fun key same => ?_, fun results read => by simp [bind, Except.bind] at read⟩
          simp only [bind, Except.bind, Except.error.injEq] at same
          simp [memberNames, fails key (same ▸ rest)]
        | ok later =>
          refine ⟨fun key same => by simp [bind, Except.bind, pure, Except.pure] at same,
            fun results read => ?_⟩
          cases read
          refine List.forall_mem_cons.2 ⟨⟨List.mem_cons_self, fun key bad => by cases bad⟩, ?_⟩
          intro x hx
          obtain ⟨own, within⟩ := known later rest x hx
          exact ⟨by simp [memberNames, own], fun key bad => by simp [memberNames, within key bad]⟩
termination_by structural ms
end

end Shape

/-! ## Rules that are broken -/

namespace MemberFault

variable {names : List String} {path : String}

/-- Below a place, the fault is at places. -/
def Placed (names : List String) (f : MemberFault) : Prop :=
  ∀ path, Place names path → ∀ x ∈ paths path f, Place names x.1

theorem recordPaths_placed : ∀ {faults : List (String × MemberFault)},
    (∀ x ∈ faults, wireName x.1 ∈ names ∧ x.2.Placed names) → Place names path →
    ∀ x ∈ recordPaths path faults, Place names x.1
  | [], _, _ => by simp [recordPaths]
  | x :: r, h, place => by
    obtain ⟨⟨known, placed⟩, rest⟩ := List.forall_mem_cons.1 h
    rw [recordPaths]
    exact List.forall_mem_append.2
      ⟨placed _ (.member place known), recordPaths_placed rest place⟩

theorem listPaths_placed : ∀ {faults : List (ℕ × String × MemberFault)},
    (∀ x ∈ faults, wireName x.2.1 ∈ names ∧ x.2.2.Placed names) → Place names path →
    ∀ x ∈ listPaths path faults, Place names x.1
  | [], _, _ => by simp [listPaths]
  | x :: r, h, place => by
    obtain ⟨⟨known, placed⟩, rest⟩ := List.forall_mem_cons.1 h
    rw [listPaths]
    exact List.forall_mem_append.2
      ⟨placed _ (.member (.item place x.1) known), listPaths_placed rest place⟩

end MemberFault

namespace Shape

open MemberFault

mutual
/-- Breaches within a value are at places of its shape. -/
theorem innerFault_placed {names : List String} (s : Shape) (v : Value) (f : MemberFault)
    (declared : ∀ n ∈ s.names, n ∈ names) (h : innerFault s v = some f) : f.Placed names := by
  cases s with
  | record name members =>
    cases v with
    | record given =>
      have each := recordFaults_placed members given declared
      rw [innerFault] at h
      split at h <;> cases h
      exact fun path place => recordPaths_placed each place
    | _ => cases h
  | list item =>
    cases item with
    | record name members =>
      cases v with
      | list items =>
        rw [innerFault] at h
        split at h <;> cases h
        refine fun path place => listPaths_placed (fun x hx => ?_) place
        obtain ⟨⟨v, i⟩, -, hx⟩ := List.mem_flatMap.1 hx
        cases v with
        | record given =>
          obtain ⟨y, hy, rfl⟩ := List.mem_map.1 hx
          exact recordFaults_placed members given declared y hy
        | _ => cases hx
      | _ => cases h
    | _ => cases h
  | _ => cases h
termination_by structural s

theorem recordFaults_placed {names : List String} (ms : List (Member × Shape))
    (given : List (String × Value)) (declared : ∀ n ∈ memberNames ms, n ∈ names) :
    ∀ x ∈ recordFaults ms given, wireName x.1 ∈ names ∧ x.2.Placed names := by
  cases ms with
  | nil => simp [recordFaults]
  | cons x r =>
    obtain ⟨m, shape⟩ := x
    simp only [memberNames, List.forall_mem_cons, List.forall_mem_append] at declared
    obtain ⟨-, own, within, others⟩ := declared
    rw [recordFaults]
    refine List.forall_mem_append.2 ⟨?_, recordFaults_placed r given others⟩
    split
    · simp
    · rename_i v _
      split
      · intro x hx
        obtain ⟨f, hf, rfl⟩ := List.mem_map.1 hx
        exact ⟨own, innerFault_placed shape v f within (by simpa using hf)⟩
      · intro x hx
        cases List.mem_singleton.1 hx
        refine ⟨own, fun path place y hy => ?_⟩
        obtain ⟨b, -, rfl⟩ := List.mem_map.1 hy
        exact place
termination_by structural ms
end

end Shape

/-! ## The places of faults -/

namespace PayloadType

variable {t : PayloadType}

/-- **The place of a fault in reading is one of the type.** -/
theorem report_place {payload : Json} {fault : DecodeFault} (h : t.decode payload = .error fault) :
    ∀ place, fault.report.field = some place → Place t.shape.names place := by
  intro place named
  cases fault with
  | missing key =>
    cases named
    unfold decode at h
    split at h
    · exact .of_mem (Shape.decode_missing t.shape _ _ h)
    · cases h
  | _ => cases named

/-- **The place of a broken rule is one of the type.** -/
theorem validate_place {v : Value} {fault : PayloadFault} (h : t.validate v = some fault) :
    ∀ place, fault.field = some place → Place t.shape.names place := by
  intro place named
  unfold validate at h
  split at h
  · cases h
  cases h
  unfold MemberFault.report at named
  split at named
  · rename_i found
    cases named
    have mem := MemberFault.mem_of_smallest found
    cases v with
    | record given =>
      have each := Shape.recordFaults_placed t.members given fun n hn => hn
      exact MemberFault.recordPaths_placed each .root _ mem
    | _ => cases mem
  · cases named

end PayloadType

end ChargeLink
