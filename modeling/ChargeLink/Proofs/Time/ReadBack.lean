import ChargeLink.Proofs.Json.Tokens
import ChargeLink.Time.Reader

/-!
# Timestamps come back from their text

The text of a timestamp is cut into numbers of fixed width and the separators
between them. Each scanner takes its own piece off the front of whatever comes
after it, so the pieces are read one after the other. The offset is that of UTC,
so nothing is taken off the time of day.

* `Timestamp.readsBack`: every timestamp is read back.
-/

namespace ChargeLink.Timestamp

open Json (Digits Ends)

variable {α β : Type} {cs r : List Char}

/-- A scanner goes on where the one before it has stopped. -/
theorem run_bind_ok {x : Scan α} {f : α → Scan β} {a : α} (h : x.run cs = .ok (a, r)) :
    (x >>= f).run cs = (f a).run r := by
  rw [StateT.run_bind, h]
  rfl

/-! ## Digits -/

/-- The digits of a number, with zeros in front up to a width. -/
def paddedChars (width n : ℕ) : List Char :=
  List.replicate (width - (Nat.toDigits 10 n).length) '0' ++ Nat.toDigits 10 n

theorem toList_padded (width n : ℕ) : (padded width n).toList = paddedChars width n := by
  have digits : (toString n).toList = Nat.toDigits 10 n := by
    rw [Nat.toString_eq_repr, Nat.repr, String.toList_ofList]
  rw [padded, String.toList_append, String.toList_ofList, digits, ← String.length_toList, digits]
  rfl

theorem digits_padded (width n : ℕ) : Digits (paddedChars width n) :=
  ⟨List.append_ne_nil_of_right_ne_nil _ Nat.toDigits_ne_nil, fun c hc =>
    (List.mem_append.1 hc).elim (Json.isDigit_zeros _ c) Json.isDigit_of_mem⟩

theorem value_padded (width n : ℕ) : digitsValue (paddedChars width n) = n := by
  show Json.digitsValue _ = n
  rw [paddedChars, Json.digitsValue_append, Json.digitsValue_zeros, Nat.zero_mul, Nat.zero_add,
    Json.digitsValue_toDigits]

theorem length_padded {width n : ℕ} (some : 0 < width) (small : n < 10 ^ width) :
    (paddedChars width n).length = width := by
  have := (Nat.length_toDigits_le_iff (n := n) (b := 10) (by decide) some).2 small
  rw [paddedChars, List.length_append, List.length_replicate]
  omega

/-! ## Scanners -/

theorem run_blanks (clear : ∀ c ∈ cs.head?, Text.isBlank c = false) :
    blanks.run cs = .ok ((), cs) := by
  show Except.ok ((), Text.trimLeft cs) = _
  rw [Text.trimLeft_eq_self clear]

theorem run_literal (c : Char) : (literal c).run (c :: r) = .ok ((), r) := by
  show (if c = c then (set r : Scan Unit) else throw .invalid).run (c :: r) = _
  rw [if_pos rfl]
  rfl

/-- Digits are taken up to the greatest number of them, or up to what is no digit. -/
theorem run_digits {ds : List Char} {most : ℕ} (h : Digits ds) (fits : ds.length ≤ most)
    (ends : ds.length = most ∨ Ends r) (small : digitsValue ds < 0x8000000000000000) :
    (digits most).run (ds ++ r) = .ok (ds, r) := by
  have taken : ((ds ++ r).take most).takeWhile isDigit = ds := by
    have stop : Ends (r.take (most - ds.length)) := by
      intro c hc
      rcases ends with full | ends
      · simp [full] at hc
      · rw [List.head?_take] at hc
        split at hc
        · cases hc
        · exact ends c hc
    rw [List.take_append, List.take_of_length_le fits]
    exact h.takeWhile stop
  obtain ⟨c, cs, rfl⟩ := List.exists_cons_of_ne_nil h.some
  rw [digits, run_bind_ok (r := c :: cs ++ r) rfl]
  simp only [taken]
  rw [if_neg (by simp), if_neg (by simp), if_neg (by omega), List.drop_left]
  rfl

/-- A digit is no blank. -/
theorem isBlank_of_isDigit {c : Char} (h : isDigit c = true) : Text.isBlank c = false := by
  have range : 48 ≤ c.toNat ∧ c.toNat ≤ 57 := by
    rw [isDigit, Bool.and_eq_true, decide_eq_true_eq, decide_eq_true_eq] at h
    exact h
  simp only [Text.isBlank, Bool.or_eq_false_iff, Bool.and_eq_false_iff, decide_eq_false_iff_not,
    beq_eq_false_iff_ne]
  omega

/-- A number starts with no blank. -/
theorem clear_of_digits {ds : List Char} (h : Digits ds) :
    ∀ c ∈ (ds ++ r).head?, Text.isBlank c = false := by
  obtain ⟨d, ds', rfl⟩ := List.exists_cons_of_ne_nil h.some
  intro c hc
  rw [← Option.mem_some.1 hc]
  exact isBlank_of_isDigit (h.all d List.mem_cons_self)

theorem run_number {low high n : ℕ} (least : low ≤ n) (most : n ≤ high) (small : n < 100) :
    (number low high).run (paddedChars 2 n ++ r) = .ok (n, r) := by
  have width : (paddedChars 2 n).length = 2 := length_padded (by decide) small
  rw [number, run_bind_ok (run_blanks (clear_of_digits (digits_padded 2 n))),
    run_bind_ok (run_digits (digits_padded 2 n) width.le (.inl width)
      (by rw [value_padded]; omega)), value_padded, if_pos ⟨least, most⟩]
  rfl

/-- A year in four digits is read. -/
theorem run_yearNumber_plain {n : ℕ} (small : n < 10000) :
    yearNumber.run (paddedChars 4 n ++ r) = .ok ((n : ℤ), r) := by
  have digits := digits_padded 4 n
  have width : (paddedChars 4 n).length = 4 := length_padded (by decide) small
  have unsigned : ∀ {c : Char} {cs : List Char}, isDigit c = false →
      paddedChars 4 n ++ r = c :: cs → False := by
    intro c cs none starts
    obtain ⟨d, ds, same⟩ := List.exists_cons_of_ne_nil digits.some
    rw [same, List.cons_append, List.cons.injEq] at starts
    exact Json.ne_of_isDigit (digits.all d (same ▸ List.mem_cons_self)) none starts.1
  rw [yearNumber, run_bind_ok (run_blanks (clear_of_digits digits)),
    run_bind_ok (a := paddedChars 4 n ++ r) rfl]
  split
  · exact (unsigned rfl ‹_›).elim
  · exact (unsigned rfl ‹_›).elim
  · rw [run_bind_ok (run_digits digits width.le (.inl width) (by rw [value_padded]; omega)),
      value_padded]
    rfl

/-- After a sign, all digits belong to the year. -/
theorem run_yearNumber_signed {c : Char} {sign y : ℤ}
    (signs : c = '-' ∧ sign = -1 ∨ c = '+' ∧ sign = 1) (value : sign * y.natAbs = y)
    (range : -0x80000000 ≤ y ∧ y < 0x80000000) (ends : Ends r) :
    yearNumber.run (c :: (paddedChars 4 y.natAbs ++ r)) = .ok (y, r) := by
  have clear : ∀ d ∈ (c :: (paddedChars 4 y.natAbs ++ r)).head?, Text.isBlank d = false := by
    intro d hd
    rw [← Option.mem_some.1 hd]
    rcases signs with ⟨rfl, _⟩ | ⟨rfl, _⟩ <;> rfl
  have read := run_digits (digits_padded 4 y.natAbs)
    (List.length_append ▸ Nat.le_add_right _ r.length) (.inr ends) (by rw [value_padded]; omega)
  have signed : (do
      set (paddedChars 4 y.natAbs ++ r)
      return sign * digitsValue (← digits (paddedChars 4 y.natAbs ++ r).length) : Scan ℤ).run
        (c :: (paddedChars 4 y.natAbs ++ r)) = .ok (y, r) := by
    rw [run_bind_ok (a := ⟨⟩) (r := paddedChars 4 y.natAbs ++ r) rfl, run_bind_ok read,
      value_padded, value]
    rfl
  rw [yearNumber, run_bind_ok (run_blanks clear),
    run_bind_ok (a := c :: (paddedChars 4 y.natAbs ++ r)) rfl]
  rcases signs with ⟨rfl, rfl⟩ | ⟨rfl, rfl⟩
  · refine (run_bind_ok signed).trans ?_
    dsimp only
    rw [if_pos range]
    rfl
  · refine (run_bind_ok signed).trans ?_
    dsimp only
    rw [if_pos range]
    rfl

/-- The year goes up to the hyphen after it. -/
theorem run_yearNumber {y : ℤ} (least : firstYear ≤ y) (most : y ≤ lastYear) :
    yearNumber.run ((yearText y).toList ++ '-' :: r) = .ok (y, '-' :: r) := by
  rw [firstYear] at least
  rw [lastYear] at most
  have range : -0x80000000 ≤ y ∧ y < 0x80000000 := by omega
  have ends : Ends ('-' :: r) := by
    intro c hc
    rw [← Option.mem_some.1 hc]
    rfl
  rw [yearText]
  split
  · have plain := run_yearNumber_plain (r := '-' :: r) (n := y.natAbs) (by omega)
    rwa [Int.natAbs_of_nonneg (by omega), ← toList_padded] at plain
  · rw [String.toList_append, toList_padded]
    split
    · exact run_yearNumber_signed (.inl ⟨rfl, rfl⟩) (by omega) range ends
    · exact run_yearNumber_signed (.inr ⟨rfl, rfl⟩) (by omega) range ends

/-- The digits of a fraction, filled up to nine, are its nanoseconds. -/
theorem run_fraction_digits {width n : ℕ} (some : 0 < width) (most : width ≤ 9)
    (small : n < 10 ^ width) (ends : Ends r) :
    fraction.run ('.' :: (paddedChars width n ++ r)) = .ok (n * 10 ^ (9 - width), r) := by
  have length := length_padded some small
  have value : digitsValue (paddedChars width n) < 0x8000000000000000 := by
    have := Nat.pow_le_pow_right (n := 10) (by decide) most
    rw [value_padded]
    omega
  rw [fraction, run_bind_ok (a := '.' :: (paddedChars width n ++ r)) rfl]
  refine (run_bind_ok (r := paddedChars width n ++ r) rfl).trans ?_
  rw [run_bind_ok (run_digits (digits_padded width n) (by omega) (.inr ends) value)]
  refine (run_bind_ok (a := ⟨⟩) (r := r) ?_).trans ?_
  · have stays : r.dropWhile isDigit = r := by
      cases r with
      | nil => rfl
      | cons c r => exact List.dropWhile_cons_of_neg (Bool.not_eq_true _ ▸ ends c rfl)
    exact congrArg (fun cs => Except.ok (PUnit.unit, cs)) stays
  · rw [value_padded, length]
    rfl

/-- The fraction of a second goes up to the letter after it. -/
theorem run_fraction {n : ℕ} (small : n < 1000000000) :
    fraction.run ((fractionText n).toList ++ 'Z' :: r) = .ok (n, 'Z' :: r) := by
  have ends : Ends ('Z' :: r) := by
    intro c hc
    rw [← Option.mem_some.1 hc]
    rfl
  have shown : ∀ {width m : ℕ}, 0 < width → width ≤ 9 → m < 10 ^ width → m * 10 ^ (9 - width) = n →
      fraction.run (("." ++ padded width m).toList ++ 'Z' :: r) = .ok (n, 'Z' :: r) := by
    intro width m some most fits same
    rw [String.toList_append, toList_padded]
    exact same ▸ run_fraction_digits some most fits ends
  rw [fractionText]
  split
  · rename_i none
    rw [none]
    rfl
  split
  · exact shown (by decide) (by decide) (by omega) (by omega)
  split
  · exact shown (by decide) (by decide) (by omega) (by omega)
  · exact shown (by decide) (by decide) (by omega) (by omega)

/-! ## The whole text -/

/-- Between two numbers stands their separator alone. -/
theorem run_separator {c : Char} {f : Unit → Scan α} (clear : Text.isBlank c = false) :
    (blanks >>= fun _ => literal c >>= f).run (c :: r) = (f ()).run r := by
  have stays : ∀ d ∈ (c :: r).head?, Text.isBlank d = false := by
    intro d hd
    rwa [← Option.mem_some.1 hd]
  rw [run_bind_ok (run_blanks stays), run_bind_ok (run_literal c)]

theorem toList_text (t : Timestamp) :
    t.text.toList = (yearText t.date.year).toList ++ '-' :: (paddedChars 2 t.date.month ++
      '-' :: (paddedChars 2 t.date.day ++ 'T' :: (paddedChars 2 t.hour ++
        ':' :: (paddedChars 2 t.minute ++ ':' :: (paddedChars 2 t.second ++
          ((fractionText t.nano).toList ++ ['Z'])))))) := by
  simp only [text, String.toList_append, toList_padded, List.append_assoc]
  rfl

/-- The numbers of a timestamp are scanned one after the other. -/
theorem run_scanLocal (t : Timestamp) :
    scanLocal.run t.text.toList =
      .ok (⟨t.date, t.hour, t.minute, t.second, t.nano, 0⟩, []) := by
  obtain ⟨firstYear, lastYear, firstMonth, lastMonth, firstDay, days⟩ := t.validDate
  obtain ⟨hours, minutes, seconds, nanos⟩ := t.validTime
  have lastDay : t.date.day ≤ 31 := days.trans (by unfold daysInMonth; grind)
  rw [toList_text, scanLocal, run_bind_ok (run_yearNumber firstYear lastYear),
    run_separator rfl, run_bind_ok (run_number firstMonth lastMonth (by omega)),
    run_separator rfl, run_bind_ok (run_number firstDay lastDay (by omega)),
    run_bind_ok (x := dateEnd) (a := ⟨⟩) rfl,
    run_bind_ok (run_number (Nat.zero_le _) (Nat.le_of_lt_succ hours) (by omega)),
    run_separator rfl,
    run_bind_ok (run_number (Nat.zero_le _) (Nat.le_of_lt_succ minutes) (by omega)),
    run_separator rfl, run_bind_ok (run_number (Nat.zero_le _) seconds (by omega)),
    run_bind_ok (run_fraction nanos)]
  rfl

/-- At UTC, the date and the time of day stay as they are. -/
theorem ofLocal_utc (t : Timestamp) :
    ofLocal ⟨t.date, t.hour, t.minute, t.second, t.nano, 0⟩ = .ok t := by
  obtain ⟨date, hour, minute, second, nano, valid, time⟩ := t
  have within : (0 : ℤ).natAbs < 24 * 60 := by decide
  have notBefore : ¬(hour : ℤ) * 60 + minute - 0 < 0 := by omega
  have notAfter : ¬24 * 60 ≤ (hour : ℤ) * 60 + minute - 0 := by omega
  have ofDay : (((hour : ℤ) * 60 + minute - 0) % (24 * 60)).toNat = hour * 60 + minute := by omega
  have hours : (hour * 60 + minute) / 60 = hour := by omega
  have minutes : (hour * 60 + minute) % 60 = minute := by omega
  simp only [ofLocal, valid, within, and_self, if_true, if_neg notBefore, if_neg notAfter, ofDay,
    hours, minutes, time, dif_pos]

/-- Every timestamp is read back. -/
theorem readsBack (t : Timestamp) : ofText t.text = .ok t := by
  rw [ofText, run_scanLocal]
  exact ofLocal_utc t

end ChargeLink.Timestamp
