import ChargeLink.Proofs.Json.Tokens
import ChargeLink.Proofs.Schema.Violations
import ChargeLink.Proofs.Text.Bytes

/-!
# The violation that is reported

The members of a record come in no particular order, so the violation that is
reported must not depend on the order in which they are gone through. It does not,
since two members never have a path in common: their names differ, and a name ends
where a path has a point, a bracket or its end. What is listed for one path comes
from one member, in the order in which its rules failed.

* `MemberFault.Lists.noted`: what is listed for a path is what its member has listed.
* `MemberFault.Reordered.noted`: in another order of the members, it is the same.
* `MemberFault.report_least`: the smallest path is reported, with the first failure listed for it.
-/

namespace ChargeLink

/-! ## Names on the wire -/

/-- The name of a member, with nothing in it that a path has a use for: as any identifier that
starts with a letter. -/
structure Identifier (name : String) : Prop where
  starts : ∃ c r, name.toList = c :: r ∧ c ≠ '_'
  point : '.' ∉ name.toList
  bracket : '[' ∉ name.toList

/-- A letter that is raised is a letter, and no other character is raised. -/
theorem toUpper_eq_or (c : Char) : c.toUpper = c ∨ c.toUpper.isAlpha := by
  by_cases low : 'a'.val ≤ c.val ∧ c.val ≤ 'z'.val
  · right
    obtain ⟨valid, raised⟩ : ∃ valid, c.toUpper = ⟨c.val + ('A'.val - 'a'.val), valid⟩ :=
      ⟨_, dif_pos low⟩
    have upper : c.val + ('A'.val - 'a'.val) ≥ 'A'.val ∧
        c.val + ('A'.val - 'a'.val) ≤ 'Z'.val := by
      simp [UInt32.le_iff_toNat_le] at low ⊢
      omega
    rw [raised]
    exact Bool.or_eq_true_iff.2 (.inl (decide_eq_true upper))
  · exact .inl (dif_neg low)

theorem mem_of_mem_wireChars {cs : List Char} {begun upper : Bool} {c : Char}
    (h : c ∈ wireChars begun upper cs) (sign : c.isAlpha = false) : c ∈ cs := by
  induction cs generalizing begun upper with
  | nil => cases h
  | cons d r ih =>
    unfold wireChars at h
    split at h
    · exact List.mem_cons_of_mem _ (ih h)
    · rcases List.mem_cons.1 h with same | later
      · split at same
        · rcases toUpper_eq_or d with kept | letter
          · rw [same, kept]
            exact List.mem_cons_self
          · rw [same, letter] at sign
            cases sign
        · exact same ▸ List.mem_cons_self
      · exact List.mem_cons_of_mem _ (ih later)

namespace Identifier

variable {name : String}

theorem wireName_toList (name : String) :
    (wireName name).toList = wireChars false false name.toList := by
  rw [wireName, String.toList_ofList]

theorem wireName_ne_empty (h : Identifier name) : wireName name ≠ "" := by
  obtain ⟨c, r, text, letter⟩ := h.starts
  intro empty
  have none := wireName_toList name
  rw [empty, text, wireChars, if_neg letter] at none
  cases none

theorem wire_point (h : Identifier name) : '.' ∉ (wireName name).toList := by
  rw [wireName_toList]
  exact fun mem => h.point (mem_of_mem_wireChars mem (by decide))

theorem wire_bracket (h : Identifier name) : '[' ∉ (wireName name).toList := by
  rw [wireName_toList]
  exact fun mem => h.bracket (mem_of_mem_wireChars mem (by decide))

end Identifier

namespace MemberFault

/-! ## Paths below a path -/

variable {path inner name : String}

/-- What a path has before the name of a member below it. -/
def lead (path : String) : List Char :=
  if path.isEmpty then [] else path.toList ++ ['.']

theorem joined_toList (path name : String) :
    (joined path name).toList = lead path ++ name.toList := by
  unfold joined lead
  split <;> simp

theorem joined_ne_empty (h : name ≠ "") : joined path name ≠ "" := by
  intro empty
  have text := joined_toList path name
  rw [empty] at text
  exact h (String.toList_eq_nil_iff.1 (List.append_eq_nil_iff.1 text.symm).2)

theorem atIndex_ne_empty (path : String) (i : ℕ) : atIndex path i ≠ "" := by
  intro empty
  have text := atIndex_toList path i
  rw [empty] at text
  simp at text

/-- A path is another one, or goes on from it with a point or a bracket. -/
def Under (path inner : String) : Prop :=
  ∃ r, inner.toList = path.toList ++ r ∧ ∀ c ∈ r.head?, c = '.' ∨ c = '['

theorem Under.refl (path : String) : Under path path :=
  ⟨[], by simp, by simp⟩

theorem Under.trans {deeper : String} (h : Under path inner) (h' : Under inner deeper) :
    Under path deeper := by
  obtain ⟨r, text, stop⟩ := h
  obtain ⟨s, text', stop'⟩ := h'
  refine ⟨r ++ s, by rw [text', text, List.append_assoc], ?_⟩
  cases r with
  | nil => exact stop'
  | cons c r => exact stop

theorem Under.ne_empty (h : Under path inner) (nonempty : path ≠ "") : inner ≠ "" := by
  obtain ⟨r, text, -⟩ := h
  intro empty
  rw [empty] at text
  exact nonempty (String.toList_eq_nil_iff.1 (List.append_eq_nil_iff.1 text.symm).1)

theorem under_joined (h : path ≠ "") (name : String) : Under path (joined path name) := by
  have there : path.isEmpty = false := by simpa using h
  refine ⟨'.' :: name.toList, ?_, by simp⟩
  rw [joined_toList, lead, there]
  simp

theorem under_atIndex (path : String) (i : ℕ) : Under path (atIndex path i) :=
  ⟨_, atIndex_toList path i, by simp⟩

/-- A text ends where the first of the characters comes that it has not. -/
theorem eq_of_append_eq {a b r s : List Char} (p : Char → Bool) (ha : ∀ c ∈ a, p c)
    (hb : ∀ c ∈ b, p c) (hr : ∀ c ∈ r.head?, p c = false) (hs : ∀ c ∈ s.head?, p c = false)
    (h : a ++ r = b ++ s) : a = b := by
  have ends : ∀ {x : List Char}, (∀ c ∈ x.head?, p c = false) → x.takeWhile p = [] := by
    intro x stop
    cases x with
    | nil => rfl
    | cons c x => simp [List.takeWhile, stop c rfl]
  have cut := congrArg (List.takeWhile p) h
  rwa [List.takeWhile_append_of_pos ha, List.takeWhile_append_of_pos hb, ends hr, ends hs,
    List.append_nil, List.append_nil] at cut

/-- Paths below two members have nothing in common. -/
theorem Under.name_eq {n m : String} (hn : Under (joined path (wireName n)) inner)
    (hm : Under (joined path (wireName m)) inner) (n_ok : Identifier n) (m_ok : Identifier m) :
    wireName n = wireName m := by
  obtain ⟨r, left, stop⟩ := hn
  obtain ⟨s, right, stop'⟩ := hm
  rw [left, joined_toList, joined_toList, List.append_assoc, List.append_assoc] at right
  have plain : ∀ {k}, Identifier k →
      ∀ c ∈ (wireName k).toList, decide (c ≠ '.' ∧ c ≠ '[') = true := by
    intro k ok c mem
    exact decide_eq_true ⟨fun same => ok.wire_point (same ▸ mem),
      fun same => ok.wire_bracket (same ▸ mem)⟩
  have ends : ∀ {x : List Char}, (∀ c ∈ x.head?, c = '.' ∨ c = '[') →
      ∀ c ∈ x.head?, decide (c ≠ '.' ∧ c ≠ '[') = false := by
    intro x stop c mem
    rcases stop c mem with rfl | rfl <;> rfl
  exact String.toList_inj.1 (eq_of_append_eq _ (plain n_ok) (plain m_ok) (ends stop) (ends stop')
    (List.append_cancel_left right))

/-- Paths below two items of a list have nothing in common. -/
theorem Under.index_eq {i j : ℕ} (hi : Under (atIndex path i) inner)
    (hj : Under (atIndex path j) inner) : i = j := by
  obtain ⟨r, left, -⟩ := hi
  obtain ⟨s, right, -⟩ := hj
  rw [left] at right
  simp only [atIndex_toList, List.append_assoc, List.cons_append, List.append_cancel_left_eq,
    List.cons.injEq, true_and] at right
  have digits : ∀ {k : ℕ}, ∀ c ∈ Nat.toDigits 10 k, Json.isDigit c = true :=
    fun _ mem => Json.isDigit_of_mem mem
  have same := eq_of_append_eq Json.isDigit digits digits (by simp [Json.isDigit])
    (by simp [Json.isDigit]) right
  rw [← Json.digitsValue_toDigits i, same, Json.digitsValue_toDigits]

/-! ## Trees of failures -/

/-- The members are called by identifiers, and those of one record by different names on the
wire. -/
inductive WellNamed : MemberFault → Prop
  | broken (breaches : List Breach) : WellNamed (.broken breaches)
  | inRecord {faults : List (String × MemberFault)}
      (distinct : (faults.map fun x => wireName x.1).Nodup)
      (names : ∀ x ∈ faults, Identifier x.1) (each : ∀ x ∈ faults, WellNamed x.2) :
      WellNamed (.inRecord faults)
  | inList {faults : List (ℕ × String × MemberFault)}
      (distinct : (faults.map fun x => (x.1, wireName x.2.1)).Nodup)
      (names : ∀ x ∈ faults, Identifier x.2.1) (each : ∀ x ∈ faults, WellNamed x.2.2) :
      WellNamed (.inList faults)

/-- Somewhere below a path, a member has another one, and lists its failures. -/
inductive Lists : String → MemberFault → String → List Breach → Prop
  | here (path : String) (breaches : List Breach) : Lists path (.broken breaches) path breaches
  | inRecord {path inner : String} {faults : List (String × MemberFault)} {breaches : List Breach}
      {x : String × MemberFault} (mem : x ∈ faults)
      (below : Lists (joined path (wireName x.1)) x.2 inner breaches) :
      Lists path (.inRecord faults) inner breaches
  | inList {path inner : String} {faults : List (ℕ × String × MemberFault)}
      {breaches : List Breach} {x : ℕ × String × MemberFault} (mem : x ∈ faults)
      (below : Lists (joined (atIndex path x.1) (wireName x.2.1)) x.2.2 inner breaches) :
      Lists path (.inList faults) inner breaches

/-- The members of records, at any depth, are gone through in another order. -/
inductive Reordered : MemberFault → MemberFault → Prop
  | refl (f : MemberFault) : Reordered f f
  | trans {f g h : MemberFault} (first : Reordered f g) (second : Reordered g h) : Reordered f h
  | inRecord {faults faults' : List (String × MemberFault)} (order : faults.Perm faults') :
      Reordered (.inRecord faults) (.inRecord faults')
  | inList {faults faults' : List (ℕ × String × MemberFault)} (order : faults.Perm faults') :
      Reordered (.inList faults) (.inList faults')
  | member {f g : MemberFault} (before after : List (String × MemberFault)) (name : String)
      (inner : Reordered f g) : Reordered (.inRecord (before ++ (name, f) :: after))
        (.inRecord (before ++ (name, g) :: after))
  | item {f g : MemberFault} (before after : List (ℕ × String × MemberFault)) (i : ℕ)
      (name : String) (inner : Reordered f g) :
      Reordered (.inList (before ++ (i, name, f) :: after))
        (.inList (before ++ (i, name, g) :: after))

variable {f g : MemberFault} {breaches : List Breach}

theorem recordPaths_eq (path : String) (faults : List (String × MemberFault)) :
    recordPaths path faults = faults.flatMap fun x => paths (joined path (wireName x.1)) x.2 := by
  induction faults with
  | nil => rfl
  | cons x r ih => rw [recordPaths, ih, List.flatMap_cons]

theorem listPaths_eq (path : String) (faults : List (ℕ × String × MemberFault)) :
    listPaths path faults =
      faults.flatMap fun x => paths (joined (atIndex path x.1) (wireName x.2.1)) x.2.2 := by
  induction faults with
  | nil => rfl
  | cons x r ih => rw [listPaths, ih, List.flatMap_cons]

/-- Every failure that is listed has its path in the tree. -/
theorem Lists.mem (h : Lists path f inner breaches) {b : Breach} (hb : b ∈ breaches) :
    (inner, b) ∈ paths path f := by
  induction h with
  | here => exact List.mem_map.2 ⟨b, hb, rfl⟩
  | inRecord mem _ ih =>
    rw [paths, recordPaths_eq]
    exact List.mem_flatMap.2 ⟨_, mem, ih hb⟩
  | inList mem _ ih =>
    rw [paths, listPaths_eq]
    exact List.mem_flatMap.2 ⟨_, mem, ih hb⟩

mutual
/-- Every path in the tree is that of a failure that is listed. -/
theorem lists_of_mem (f : MemberFault) (path : String) {x : String × Breach}
    (h : x ∈ paths path f) : ∃ breaches, Lists path f x.1 breaches ∧ x.2 ∈ breaches := by
  cases f with
  | broken breaches =>
    rw [paths] at h
    obtain ⟨b, mem, rfl⟩ := List.mem_map.1 h
    exact ⟨breaches, .here .., mem⟩
  | inRecord faults =>
    obtain ⟨y, mem, breaches, below, hb⟩ := recordLists_of_mem faults path h
    exact ⟨breaches, .inRecord mem below, hb⟩
  | inList faults =>
    obtain ⟨y, mem, breaches, below, hb⟩ := listLists_of_mem faults path h
    exact ⟨breaches, .inList mem below, hb⟩
termination_by structural f

theorem recordLists_of_mem (faults : List (String × MemberFault)) (path : String)
    {x : String × Breach} (h : x ∈ recordPaths path faults) :
    ∃ y ∈ faults, ∃ breaches, Lists (joined path (wireName y.1)) y.2 x.1 breaches ∧
      x.2 ∈ breaches := by
  cases faults with
  | nil => cases h
  | cons y r =>
    obtain ⟨name, fault⟩ := y
    rw [recordPaths] at h
    rcases List.mem_append.1 h with here | later
    · exact ⟨_, List.mem_cons_self, lists_of_mem fault _ here⟩
    · obtain ⟨y, mem, found⟩ := recordLists_of_mem r path later
      exact ⟨y, List.mem_cons_of_mem _ mem, found⟩
termination_by structural faults

theorem listLists_of_mem (faults : List (ℕ × String × MemberFault)) (path : String)
    {x : String × Breach} (h : x ∈ listPaths path faults) :
    ∃ y ∈ faults, ∃ breaches,
      Lists (joined (atIndex path y.1) (wireName y.2.1)) y.2.2 x.1 breaches ∧
        x.2 ∈ breaches := by
  cases faults with
  | nil => cases h
  | cons y r =>
    obtain ⟨i, name, fault⟩ := y
    rw [listPaths] at h
    rcases List.mem_append.1 h with here | later
    · exact ⟨_, List.mem_cons_self, lists_of_mem fault _ here⟩
    · obtain ⟨y, mem, found⟩ := listLists_of_mem r path later
      exact ⟨y, List.mem_cons_of_mem _ mem, found⟩
termination_by structural faults
end

/-- A failure is listed below the member that it comes from. -/
theorem Lists.under (h : Lists path f inner breaches) (nonempty : path ≠ "") :
    Under path inner := by
  induction h with
  | here => exact .refl _
  | @inRecord path _ _ _ x _ _ ih =>
    have below := under_joined nonempty (wireName x.1)
    exact below.trans (ih (below.ne_empty nonempty))
  | @inList path _ _ _ x _ _ ih =>
    have item := atIndex_ne_empty path x.1
    have below := under_joined item (wireName x.2.1)
    exact ((under_atIndex path x.1).trans below).trans (ih (below.ne_empty item))

/-! ## What is listed for a path -/

/-- The failures that are listed for a path. -/
def noted (path : String) (l : List (String × Breach)) : List Breach :=
  l.filterMap fun x => if x.1 = path then some x.2 else none

variable {l l' : List (String × Breach)}

theorem mem_noted {b : Breach} : b ∈ noted path l ↔ (path, b) ∈ l := by
  simp only [noted, List.mem_filterMap]
  constructor
  · rintro ⟨⟨p, c⟩, mem, found⟩
    split at found
    · rename_i same
      cases same
      cases found
      exact mem
    · cases found
  · exact fun mem => ⟨_, mem, if_pos rfl⟩

theorem noted_append (path : String) (l l' : List (String × Breach)) :
    noted path (l ++ l') = noted path l ++ noted path l' :=
  List.filterMap_append

theorem noted_flatMap {α : Type} (path : String) (l : List α) (g : α → List (String × Breach)) :
    noted path (l.flatMap g) = l.flatMap fun x => noted path (g x) := by
  induction l with
  | nil => rfl
  | cons x r ih => rw [List.flatMap_cons, List.flatMap_cons, noted_append, ih]

theorem noted_map (path : String) (breaches : List Breach) :
    noted path (breaches.map fun b => (path, b)) = breaches := by
  simp [noted, List.filterMap_map]

/-- What is listed for a path comes from above it. -/
theorem under_of_noted (h : noted inner (paths path f) ≠ []) (nonempty : path ≠ "") :
    Under path inner := by
  obtain ⟨b, mem⟩ := List.exists_mem_of_ne_nil _ h
  obtain ⟨breaches, listed, -⟩ := lists_of_mem f path (mem_noted.1 mem)
  exact listed.under nonempty

section Blocks

variable {α κ β : Type} {items items' : List α} {key : α → κ} {block : α → List β}

/-- Where only one item has a part in something, the whole is what that item has. -/
theorem flatMap_eq_of_mem (distinct : (items.map key).Nodup) {x : α} (mem : x ∈ items)
    (others : ∀ y ∈ items, key y ≠ key x → block y = []) : items.flatMap block = block x := by
  induction items with
  | nil => cases mem
  | cons y r ih =>
    obtain ⟨new, distinct⟩ := List.nodup_cons.1 (List.map_cons ▸ distinct)
    obtain ⟨first, later⟩ := List.forall_mem_cons.1 others
    rw [List.flatMap_cons]
    rcases List.mem_cons.1 mem with rfl | mem
    · have rest : r.flatMap block = [] := List.flatMap_eq_nil_iff.2 fun z hz =>
        later z hz fun same => new (same ▸ List.mem_map_of_mem hz)
      rw [rest, List.append_nil]
    · have none : block y = [] := first fun same => new (same ▸ List.mem_map_of_mem mem)
      rw [none, List.nil_append, ih distinct mem later]

/-- Where only one item has a part in something, the order of the items makes no difference. -/
theorem flatMap_perm (distinct : (items.map key).Nodup)
    (apart : ∀ x ∈ items, ∀ y ∈ items, block x ≠ [] → block y ≠ [] → key x = key y)
    (order : items.Perm items') : items'.flatMap block = items.flatMap block := by
  by_cases silent : ∀ x ∈ items, block x = []
  · rw [List.flatMap_eq_nil_iff.2 silent,
      List.flatMap_eq_nil_iff.2 fun x hx => silent x (order.mem_iff.2 hx)]
  · push Not at silent
    obtain ⟨x, mem, some⟩ := silent
    have others : ∀ y ∈ items, key y ≠ key x → block y = [] := fun y hy other =>
      not_not.1 fun more => other (apart y hy x mem more some)
    rw [flatMap_eq_of_mem distinct mem others,
      flatMap_eq_of_mem ((order.map key).nodup_iff.1 distinct) (order.mem_iff.1 mem)
        fun y hy => others y (order.mem_iff.2 hy)]

end Blocks

/-- Two members with a path in common are called the same. -/
theorem name_eq_of_noted {x y : String × MemberFault} (hx : Identifier x.1) (hy : Identifier y.1)
    (above : Under (joined path (wireName x.1)) inner)
    (more : noted inner (paths (joined path (wireName y.1)) y.2) ≠ []) :
    wireName x.1 = wireName y.1 :=
  above.name_eq (under_of_noted more (joined_ne_empty hy.wireName_ne_empty)) hx hy

/-- Two members of items with a path in common are at one position and called the same. -/
theorem position_eq_of_noted {x y : ℕ × String × MemberFault} (hx : Identifier x.2.1)
    (hy : Identifier y.2.1) (above : Under (joined (atIndex path x.1) (wireName x.2.1)) inner)
    (more : noted inner (paths (joined (atIndex path y.1) (wireName y.2.1)) y.2.2) ≠ []) :
    (x.1, wireName x.2.1) = (y.1, wireName y.2.1) := by
  have above' := under_of_noted more (joined_ne_empty hy.wireName_ne_empty)
  have position := ((under_joined (atIndex_ne_empty path x.1) _).trans above).index_eq
    ((under_joined (atIndex_ne_empty path y.1) _).trans above')
  rw [← position] at above' ⊢
  rw [above.name_eq above' hx hy]

/-- **What is listed for a path is what its member has listed**, and nothing else. -/
theorem Lists.noted (h : Lists path f inner breaches) (named : f.WellNamed) :
    noted inner (paths path f) = breaches := by
  induction h with
  | here path breaches => rw [paths, noted_map]
  | @inRecord path inner faults breaches x mem below ih =>
    cases named with
    | inRecord distinct names each =>
      rw [paths, recordPaths_eq, noted_flatMap, ← ih (each x mem)]
      have above := below.under (joined_ne_empty (names x mem).wireName_ne_empty)
      exact flatMap_eq_of_mem distinct mem fun y hy other => not_not.1 fun more =>
        other (name_eq_of_noted (names x mem) (names y hy) above more).symm
  | @inList path inner faults breaches x mem below ih =>
    cases named with
    | inList distinct names each =>
      rw [paths, listPaths_eq, noted_flatMap, ← ih (each x mem)]
      have above := below.under (joined_ne_empty (names x mem).wireName_ne_empty)
      exact flatMap_eq_of_mem distinct mem fun y hy other => not_not.1 fun more =>
        other (position_eq_of_noted (names x mem) (names y hy) above more).symm

/-- The tree is as well named in another order. -/
theorem Reordered.wellNamed (h : Reordered f g) (named : f.WellNamed) : g.WellNamed := by
  induction h with
  | refl => exact named
  | trans _ _ first second => exact second (first named)
  | inRecord order =>
    cases named with
    | inRecord distinct names each =>
      exact .inRecord ((order.map _).nodup_iff.1 distinct)
        (fun x hx => names x (order.mem_iff.2 hx)) fun x hx => each x (order.mem_iff.2 hx)
  | inList order =>
    cases named with
    | inList distinct names each =>
      exact .inList ((order.map _).nodup_iff.1 distinct)
        (fun x hx => names x (order.mem_iff.2 hx)) fun x hx => each x (order.mem_iff.2 hx)
  | member before after name _ ih =>
    cases named with
    | inRecord distinct names each =>
      simp only [List.forall_mem_append, List.forall_mem_cons] at names each
      refine .inRecord (by simpa using distinct) ?_ ?_ <;>
        simp only [List.forall_mem_append, List.forall_mem_cons]
      · exact names
      · exact ⟨each.1, ih each.2.1, each.2.2⟩
  | item before after i name _ ih =>
    cases named with
    | inList distinct names each =>
      simp only [List.forall_mem_append, List.forall_mem_cons] at names each
      refine .inList (by simpa using distinct) ?_ ?_ <;>
        simp only [List.forall_mem_append, List.forall_mem_cons]
      · exact names
      · exact ⟨each.1, ih each.2.1, each.2.2⟩

/-- **In another order, the same is listed for every path.** -/
theorem Reordered.noted (h : Reordered f g) (named : f.WellNamed) (path inner : String) :
    noted inner (paths path g) = noted inner (paths path f) := by
  induction h generalizing path with
  | refl => rfl
  | trans first _ ih ih' => rw [ih' (first.wellNamed named), ih named]
  | inRecord order =>
    cases named with
    | inRecord distinct names each =>
      simp only [paths, recordPaths_eq, noted_flatMap]
      refine flatMap_perm distinct (fun x hx y hy some more => ?_) order
      have above := under_of_noted some (joined_ne_empty (names x hx).wireName_ne_empty)
      exact name_eq_of_noted (names x hx) (names y hy) above more
  | inList order =>
    cases named with
    | inList distinct names each =>
      simp only [paths, listPaths_eq, noted_flatMap]
      refine flatMap_perm distinct (fun x hx y hy some more => ?_) order
      have above := under_of_noted some (joined_ne_empty (names x hx).wireName_ne_empty)
      exact position_eq_of_noted (names x hx) (names y hy) above more
  | member before after name _ ih =>
    cases named with
    | inRecord distinct names each =>
      simp only [List.forall_mem_append, List.forall_mem_cons] at each
      simp only [paths, recordPaths_eq, List.flatMap_append, List.flatMap_cons, noted_append,
        ih each.2.1]
  | item before after i name _ ih =>
    cases named with
    | inList distinct names each =>
      simp only [List.forall_mem_append, List.forall_mem_cons] at each
      simp only [paths, listPaths_eq, List.flatMap_append, List.flatMap_cons, noted_append,
        ih each.2.1]

/-! ## The smallest path -/

/-- The smallest path is taken, with the first of what is listed for it. -/
theorem smallest_spec {b : Breach} (h : smallest l = some (path, b)) :
    (∀ x ∈ l, path ≤ x.1) ∧ ∃ bs, noted path l = b :: bs := by
  induction l generalizing path b with
  | nil => cases h
  | cons y r ih =>
    obtain ⟨q, c⟩ := y
    have next : ∀ p, noted p ((q, c) :: r) = (if q = p then [c] else []) ++ noted p r := by
      intro p
      by_cases same : q = p <;> simp [noted, same]
    unfold smallest at h
    split at h
    · rename_i p d found
      obtain ⟨least, bs, listed⟩ := ih found
      split at h
      · rename_i less
        cases h
        refine ⟨List.forall_mem_cons.2 ⟨le_of_lt less, least⟩, bs, ?_⟩
        rw [next, if_neg (ne_of_gt less), List.nil_append, listed]
      · rename_i notLess
        cases h
        refine ⟨List.forall_mem_cons.2 ⟨le_refl _, fun x hx => ?_⟩, noted path r, ?_⟩
        · exact le_trans (not_lt.1 notLess) (least x hx)
        · rw [next, if_pos rfl, List.singleton_append]
    · rename_i found
      cases h
      rw [smallest_eq_none found]
      exact ⟨by simp, [], by simp [noted]⟩

/-- Which entry is the smallest follows from what is listed for each path. -/
theorem smallest_congr (same : ∀ p, noted p l = noted p l') : smallest l = smallest l' := by
  have shared : ∀ x, x ∈ l ↔ x ∈ l' := fun x => by
    rw [← mem_noted (b := x.2), ← mem_noted (b := x.2), same]
  cases left : smallest l with
  | none =>
    have empty : l' = [] := List.eq_nil_iff_forall_not_mem.2 fun x hx => by
      have := (shared x).2 hx
      rw [smallest_eq_none left] at this
      cases this
    rw [empty, smallest]
  | some x =>
    obtain ⟨p, b⟩ := x
    cases right : smallest l' with
    | none =>
      have mem := (shared _).1 (mem_of_smallest left)
      rw [smallest_eq_none right] at mem
      cases mem
    | some y =>
      obtain ⟨q, c⟩ := y
      obtain ⟨least, bs, listed⟩ := smallest_spec left
      obtain ⟨least', cs, listed'⟩ := smallest_spec right
      obtain rfl : p = q := le_antisymm (least _ ((shared _).2 (mem_of_smallest right)))
        (least' _ ((shared _).1 (mem_of_smallest left)))
      rw [same, listed'] at listed
      rw [(List.cons.inj listed).1]

/-! ## The report -/

/-- **The violation that is reported** has the smallest path, in the order of bytes, of all
failures in the tree. Its rule and value are those of the first failure that is listed for the
path, which is listed for it alone, and its code tells whether a value is missing. The order in
which the members are gone through makes no difference. -/
theorem report_least {faults : List (String × MemberFault)}
    (named : WellNamed (.inRecord faults))
    (fails : ∃ path b bs, Lists "" (.inRecord faults) path (b :: bs)) :
    ∃ path b bs, Lists "" (.inRecord faults) path (b :: bs) ∧
      (∀ breaches, Lists "" (.inRecord faults) path breaches → breaches = b :: bs) ∧
      (∀ other c cs, Lists "" (.inRecord faults) other (c :: cs) →
        Text.bytes path ≤ Text.bytes other) ∧
      report faults = ⟨if b.rule = "required" then .occurrenceConstraintViolation
        else .propertyConstraintViolation, some path, some b.rule, b.value,
        path ++ " violates " ++ b.rule⟩ ∧
      ∀ faults', Reordered (.inRecord faults) (.inRecord faults') →
        report faults' = report faults := by
  obtain ⟨path, b, found⟩ : ∃ path b, smallest (recordPaths "" faults) = some (path, b) := by
    obtain ⟨path, b, bs, listed⟩ := fails
    have mem := listed.mem List.mem_cons_self
    rw [paths] at mem
    cases found : smallest (recordPaths "" faults) with
    | none =>
      rw [smallest_eq_none found] at mem
      cases mem
    | some x => exact ⟨x.1, x.2, rfl⟩
  obtain ⟨least, bs, first⟩ := smallest_spec found
  obtain ⟨breaches, listed, mem⟩ := lists_of_mem (.inRecord faults) "" (mem_of_smallest found)
  have only : ∀ breaches, Lists "" (.inRecord faults) path breaches → breaches = b :: bs := by
    intro breaches listed
    rw [← listed.noted named, paths, first]
  cases only breaches listed
  refine ⟨path, b, bs, listed, only, fun other c cs more => ?_, ?_, fun faults' order => ?_⟩
  · exact fun less => not_lt.2 (least _ (more.mem List.mem_cons_self))
      ((Text.lt_iff_bytes other path).2 less)
  · simp [report, found]
  · have same := smallest_congr fun p => order.noted named "" p
    rw [paths, paths] at same
    simp only [report, same]

/-- A record with failures at several depths. -/
def nested : List (String × MemberFault) :=
  [("timestamp", .broken [⟨"length", some (.str "")⟩]),
    ("meter_value", .inList [
      (1, "sampled_value", .inRecord [("value", .broken [⟨"length", some (.str "")⟩])]),
      (1, "timestamp", .broken []),
      (0, "time_stamp", .broken [⟨"required", none⟩, ⟨"range", some (.int 3)⟩])])]

theorem nested_wellNamed : WellNamed (.inRecord nested) := by
  have first : Identifier "timestamp" := ⟨⟨_, _, rfl, by decide⟩, by decide, by decide⟩
  have second : Identifier "meter_value" := ⟨⟨_, _, rfl, by decide⟩, by decide, by decide⟩
  have third : Identifier "sampled_value" := ⟨⟨_, _, rfl, by decide⟩, by decide, by decide⟩
  have fourth : Identifier "value" := ⟨⟨_, _, rfl, by decide⟩, by decide, by decide⟩
  have fifth : Identifier "time_stamp" := ⟨⟨_, _, rfl, by decide⟩, by decide, by decide⟩
  refine .inRecord (by decide) (by simp [nested, first, second]) ?_
  simp only [nested, List.forall_mem_cons, List.not_mem_nil, false_imp_iff, implies_true, and_true]
  refine ⟨.broken _, .inList (by decide) (by simp [first, third, fifth]) ?_⟩
  simp only [List.forall_mem_cons, List.not_mem_nil, false_imp_iff, implies_true, and_true]
  exact ⟨.inRecord (by decide) (by simp [fourth]) (by simp [WellNamed.broken]), .broken _,
    .broken _⟩

theorem report_least_nested : WellNamed (.inRecord nested) ∧
    Lists "" (.inRecord nested) "timestamp" [⟨"length", some (.str "")⟩] ∧
    report nested = ⟨.occurrenceConstraintViolation, some "meterValue[0].timeStamp",
      some "required", none, "meterValue[0].timeStamp violates required"⟩ ∧
    ∀ faults', Reordered (.inRecord nested) (.inRecord faults') →
      report faults' = report nested := by
  have fails : Lists "" (.inRecord nested) "timestamp" [⟨"length", some (.str "")⟩] :=
    .inRecord List.mem_cons_self (.here "timestamp" _)
  obtain ⟨_, _, _, -, -, -, -, same⟩ := report_least nested_wellNamed ⟨_, _, _, fails⟩
  exact ⟨nested_wellNamed, fails, rfl, same⟩

end MemberFault

end ChargeLink
