import ChargeLink.Proofs.Json.Doubles
import ChargeLink.Proofs.Json.Plain

/-!
# Values come back from their text

An array or object is read back with what is read of its parts, whatever comes
after it. The induction is on the depth that the reader allows.

* `Json.readsBack`: a value with finite doubles is read back, whatever comes after it.
* `Json.ofText?_render`: its whole text is read as the value.
-/

namespace ChargeLink.Json

/-! ## Arrays and objects -/

/-- What can be read back whatever comes after it. -/
def ReadsBack (d : ℕ) (v : Json) : Prop :=
  ∀ r, Stops r → readValue d (v.chars ++ r) = some (v, r)

theorem stops_itemChars (items : List Json) (r : List Char) : Stops (itemChars items ++ r) := by
  cases items <;> intro c hc <;> cases hc <;> decide

theorem stops_memberChars (members : List (String × Json)) (r : List Char) :
    Stops (memberChars members ++ r) := by
  cases members with
  | nil =>
    intro c hc
    cases hc
    decide
  | cons x rest =>
    intro c hc
    cases hc
    decide

theorem length_itemChars (items : List Json) : items.length < (itemChars items).length := by
  induction items with
  | nil => simp [itemChars]
  | cons v r ih =>
    simp only [itemChars, List.length_cons, List.length_append]
    omega

theorem length_memberChars (members : List (String × Json)) :
    members.length < (memberChars members).length := by
  induction members with
  | nil => simp [memberChars]
  | cons x r ih =>
    simp only [memberChars, List.length_cons, List.length_append]
    omega

theorem readItems_itemChars {d : ℕ} {items : List Json} (each : ∀ v ∈ items, ReadsBack d v)
    {fuel : ℕ} (enough : items.length < fuel) (acc : List Json) (r : List Char) :
    readItems (readValue d) fuel acc (itemChars items ++ r) =
      some (.arr (acc.reverse ++ items), r) := by
  induction items generalizing fuel acc with
  | nil =>
    obtain ⟨fuel, rfl⟩ := Nat.exists_eq_add_one_of_ne_zero (Nat.ne_of_gt enough)
    rw [itemChars, readItems, List.singleton_append, skipSpace_cons rfl]
    simp
  | cons v rest ih =>
    obtain ⟨fuel, rfl⟩ := Nat.exists_eq_add_one_of_ne_zero (Nat.ne_of_gt (Nat.zero_lt_of_lt enough))
    rw [itemChars, readItems, List.cons_append, skipSpace_cons rfl, List.append_assoc]
    simp only [each v List.mem_cons_self _ (stops_itemChars rest r)]
    rw [ih (fun w hw => each w (List.mem_cons_of_mem _ hw)) (by simpa using enough)]
    simp

/-- The text of the value starts with no blank and no closing bracket. -/
def Starts (v : Json) : Prop :=
  ∃ c cs, v.chars = c :: cs ∧ isSpace c = false ∧ c ≠ ']'

theorem starts {v : Json} (h : v.Numbers Finite) : Starts v := by
  cases v with
  | null => exact ⟨_, _, rfl, rfl, by decide⟩
  | bool b => cases b <;> exact ⟨_, _, rfl, rfl, by decide⟩
  | int i =>
    unfold Starts chars intChars
    split
    · exact ⟨_, _, rfl, rfl, by decide⟩
    · obtain ⟨c, cs, digits⟩ :=
        List.exists_cons_of_ne_nil (Nat.toDigits_ne_nil (b := 10) (n := i.natAbs))
      have digit : isDigit c = true := isDigit_of_mem (n := i.natAbs) (digits ▸ List.mem_cons_self)
      exact ⟨c, cs, digits, isSpace_of_isDigit digit, ne_of_isDigit digit (by decide)⟩
  | float x =>
    simp only [Numbers, Finite] at h
    unfold Starts
    rw [chars, toList_text h]
    split
    · exact ⟨_, _, rfl, rfl, by decide⟩
    · obtain ⟨c, cs, digits, digit⟩ := (Binary64.numeral_sound x).head
      exact ⟨c, cs, digits, isSpace_of_isDigit digit, ne_of_isDigit digit (by decide)⟩
  | str s => exact ⟨_, _, rfl, rfl, by decide⟩
  | arr items => cases items <;> exact ⟨_, _, rfl, rfl, by decide⟩
  | obj members =>
    cases members with
    | nil => exact ⟨_, _, rfl, rfl, by decide⟩
    | cons x r => exact ⟨_, _, rfl, rfl, by decide⟩

/-- A key greater than all others goes to the end. -/
theorem insert_last {key : String} (v : Json) {l : List (String × Json)}
    (above : ∀ x ∈ l, x.1 < key) : insert key v l = l ++ [(key, v)] := by
  induction l with
  | nil => rfl
  | cons x r ih =>
    obtain ⟨less, above⟩ := List.forall_mem_cons.1 above
    have notLess : ¬key < x.1 := String.lt_asymm less
    simp [Json.insert, less, notLess, ih above]

theorem readMember_chars {d : ℕ} (key : String) {v : Json} (back : ReadsBack d v) {r : List Char}
    (stops : Stops r) : readMember (readValue d) (quoted key ++ ':' :: (v.chars ++ r)) =
      some ((key, v), r) := by
  unfold readMember quoted
  rw [List.cons_append, skipSpace_cons rfl, List.append_assoc, List.singleton_append]
  simp only [readString_quoted, skipSpace_cons (show isSpace ':' = false from rfl), back r stops]

theorem readMembers_memberChars {d : ℕ} {members : List (String × Json)}
    (each : ∀ x ∈ members, ReadsBack d x.2) {fuel : ℕ} (enough : members.length < fuel)
    (acc : List (String × Json)) (ascending : ((acc ++ members).map Prod.fst).Pairwise (· < ·))
    (r : List Char) : readMembers (readValue d) fuel acc (memberChars members ++ r) =
      some (.obj (acc ++ members), r) := by
  induction members generalizing fuel acc with
  | nil =>
    obtain ⟨fuel, rfl⟩ := Nat.exists_eq_add_one_of_ne_zero (Nat.ne_of_gt enough)
    rw [memberChars, readMembers, List.singleton_append, skipSpace_cons rfl]
    simp
  | cons x rest ih =>
    obtain ⟨key, v⟩ := x
    obtain ⟨fuel, rfl⟩ := Nat.exists_eq_add_one_of_ne_zero (Nat.ne_of_gt (Nat.zero_lt_of_lt enough))
    have stops := stops_memberChars rest r
    -- the keys ascend, so the member goes to the end of those read before
    have above : ∀ x ∈ acc, x.1 < key := by
      intro x hx
      rw [List.map_append, List.pairwise_append] at ascending
      exact ascending.2.2 _ (List.mem_map_of_mem hx) _ List.mem_cons_self
    rw [memberChars, readMembers, List.cons_append, skipSpace_cons rfl, List.append_assoc,
      List.cons_append, List.append_assoc]
    simp only [readMember_chars key (each _ List.mem_cons_self) stops, insert_last v above]
    rw [ih (fun w hw => each w (List.mem_cons_of_mem _ hw)) (by simpa using enough)]
    · simp
    · simpa using ascending

/-! ## Values -/

theorem readValue_bracket {d : ℕ} {c : Char} {t r : List Char} {v : Json}
    (space : isSpace c = false) (other : c ≠ ']') (read : readValue d (c :: t) = some (v, r)) :
    readValue (d + 1) ('[' :: c :: t) = readItems (readValue d) (r.length + 1) [v] r := by
  unfold readValue
  rw [skipSpace_cons rfl]
  split
  case h_5 s same =>
    cases same
    dsimp only
    rw [skipSpace_cons space]
    split
    · rename_i same
      exact absurd (List.cons.inj same).1 other
    · rw [read]
  case h_8 bracket _ _ => exact absurd rfl (bracket _)
  all_goals simp at *

theorem readValue_brace {d : ℕ} {t r : List Char} {m : String × Json}
    (read : readMember (readValue d) ('"' :: t) = some (m, r)) :
    readValue (d + 1) ('{' :: '"' :: t) = readMembers (readValue d) (r.length + 1) [m] r := by
  unfold readValue
  rw [skipSpace_cons rfl]
  split
  case h_6 s same =>
    cases same
    dsimp only
    rw [skipSpace_cons rfl]
    split
    · rename_i same
      simp at same
    · rw [read]
  case h_8 brace _ => exact absurd rfl (brace _)
  all_goals simp at *

theorem readsBack_arr {d : ℕ} {items : List Json} (starts : ∀ v ∈ items, Starts v)
    (each : ∀ v ∈ items, ReadsBack d v) : ReadsBack (d + 1) (.arr items) := by
  intro r _
  cases items with
  | nil => rfl
  | cons v rest =>
    obtain ⟨c, cs, first, space, other⟩ := starts v List.mem_cons_self
    have read := each v List.mem_cons_self _ (stops_itemChars rest r)
    -- the fuel is the length of the text, and each item takes up a part of it
    have enough : rest.length < (itemChars rest ++ r).length + 1 := by
      have := length_itemChars rest
      rw [List.length_append]
      omega
    rw [chars, List.cons_append, List.append_assoc]
    rw [first, List.cons_append] at read ⊢
    rw [readValue_bracket space other read]
    exact readItems_itemChars (fun w hw => each w (List.mem_cons_of_mem _ hw)) enough [v] r

theorem readsBack_obj {d : ℕ} {members : List (String × Json)}
    (ascending : (members.map Prod.fst).Pairwise (· < ·))
    (each : ∀ x ∈ members, ReadsBack d x.2) : ReadsBack (d + 1) (.obj members) := by
  intro r _
  cases members with
  | nil => rfl
  | cons x rest =>
    obtain ⟨key, v⟩ := x
    have read := readMember_chars key (each _ List.mem_cons_self) (stops_memberChars rest r)
    have enough : rest.length < (memberChars rest ++ r).length + 1 := by
      have := length_memberChars rest
      rw [List.length_append]
      omega
    rw [chars, List.cons_append, List.append_assoc, List.cons_append, List.append_assoc]
    rw [quoted, List.cons_append] at read ⊢
    rw [readValue_brace read]
    exact readMembers_memberChars (fun x hx => each x (List.mem_cons_of_mem _ hx)) enough
      [(key, v)] ascending r

/-- **A value with finite doubles is read back**, if it does not nest too deep. -/
theorem readsBack (d : ℕ) (v : Json) (plain : v.Plain Finite d) : ReadsBack d v := by
  induction d using Nat.strongRecOn generalizing v with
  | ind d ih =>
    cases v with
    | null =>
      intro r _
      unfold readValue
      rfl
    | bool b =>
      intro r _
      unfold readValue
      cases b <;> rfl
    | int i =>
      have range := plain.numbers
      simp only [Numbers] at range
      exact fun r stops => readValue_int range.1 range.2 d stops
    | float x =>
      have finite := plain.numbers
      simp only [Numbers, Finite] at finite
      exact fun r stops => readValue_float finite d stops
    | str s => exact fun r _ => readValue_str s d r
    | arr items =>
      obtain ⟨d, rfl⟩ : ∃ e, d = e + 1 := Nat.exists_eq_add_one_of_ne_zero fun zero => by
        simpa [depth, zero] using plain.shallow
      exact readsBack_arr (fun v hv => starts (plain.items v hv).numbers)
        fun v hv => ih d (Nat.lt_succ_self d) v (plain.items v hv)
    | obj members =>
      obtain ⟨d, rfl⟩ : ∃ e, d = e + 1 := Nat.exists_eq_add_one_of_ne_zero fun zero => by
        simpa [depth, zero] using plain.shallow
      exact readsBack_obj plain.ascending
        fun x hx => ih d (Nat.lt_succ_self d) x.2 (plain.members x hx)

theorem ofText?_render {v : Json} (plain : v.Plain Finite maxDepth) :
    ofText? v.render = some v := by
  have back := readsBack maxDepth v plain [] (by simp [Stops])
  rw [List.append_nil] at back
  rw [ofText?, render, String.toList_ofList, ofCharsWithin?, back]
  rfl

end ChargeLink.Json
