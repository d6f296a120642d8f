import ChargeLink.Proofs.Json.Tokens
import ChargeLink.Proofs.Toml.Texts

/-!
# Scalars come back from their text

A value ends with its line. A number is tried as a date, a time of day and a
fraction before it is read as a whole number, and each of these attempts fails
at the end of the digits at the latest.

* `Toml.run_valueWithin`: a scalar is read back, at any depth.
-/

namespace ChargeLink

/-- A number that is written has to be in the range of those that are read. -/
def TomlScalar.Fits : TomlScalar → Prop
  | .nat n => n < 0x8000000000000000
  | _ => True

namespace Toml

open Json (Digits digits_toDigits)

variable {α : Type} {c : Char} {cs ds r : List Char} {n fuel : ℕ}

/-! ## Numbers -/

/-- Among digits at the end of a line, a digit is followed by another one or the end. -/
theorem second_of_digits {d : Char} (digits : Digits ds) (same : ds ++ '\n' :: r = d :: c :: cs) :
    isDigit c = true ∨ c = '\n' := by
  obtain ⟨e, ds, rfl⟩ := List.exists_cons_of_ne_nil digits.some
  cases ds with
  | nil =>
    cases same
    exact .inr rfl
  | cons e ds =>
    cases same
    exact .inl (digits.all c (List.mem_cons_of_mem _ List.mem_cons_self))

/-- A number of a fixed width takes nothing but digits. -/
theorem rest_of_fixedNumber {count low high v : ℕ}
    (read : (fixedNumber count low high).run (ds ++ '\n' :: r) = some (v, cs)) :
    cs = ds.drop count ++ '\n' :: r := by
  rw [fixedNumber, run_get] at read
  extract_lets taken at read
  split at read
  · rename_i fits
    have inside : count ≤ ds.length := by
      by_contra beyond
      obtain ⟨k, more⟩ : ∃ k, count - ds.length = k + 1 := ⟨count - ds.length - 1, by omega⟩
      have mem : '\n' ∈ taken := by
        show '\n' ∈ (ds ++ '\n' :: r).take count
        rw [List.take_append, more, List.take_succ_cons]
        exact List.mem_append_right _ List.mem_cons_self
      cases List.all_eq_true.1 fits.2 _ mem
    rw [run_set, List.drop_append_of_le_length inside] at read
    split at read
    · exact (congrArg Prod.snd (Option.some.inj read)).symm
    · cases read
  · cases read

/-- Digits at the end of a line are no part of a date or of a time of day: their first number has
a mark after it. -/
theorem run_fixedNumber_none {count low high : ℕ} {mark : Char} {f : ℕ → Unit → Scan α}
    (digits : Digits ds) (noDigit : isDigit mark = false) (stays : mark ≠ '\n') :
    (fixedNumber count low high >>= fun v => char mark >>= f v).run (ds ++ '\n' :: r) = none := by
  cases read : (fixedNumber count low high).run (ds ++ '\n' :: r) with
  | none => exact run_bind_none read
  | some p =>
    rw [run_bind_some read, rest_of_fixedNumber read]
    refine run_bind_none (run_char_none fun c hc => ?_)
    cases left : ds.drop count with
    | nil =>
      rw [left] at hc
      obtain rfl : '\n' = c := Option.some.inj hc
      exact stays.symm
    | cons d left' =>
      rw [left] at hc
      obtain rfl : d = c := Option.some.inj hc
      exact Json.ne_of_isDigit (digits.all d (List.mem_of_mem_drop (left ▸ List.mem_cons_self)))
        noDigit

theorem run_dateTime_none (digits : Digits ds) : dateTime.run (ds ++ '\n' :: r) = none :=
  run_fixedNumber_none digits (by decide) (by decide)

theorem run_timeOfDay_none (digits : Digits ds) : timeOfDay.run (ds ++ '\n' :: r) = none :=
  run_fixedNumber_none digits (by decide) (by decide)

/-- A digit starts no sign. -/
theorem run_sign (digits : Digits ds) : sign.run (ds ++ r) = some (false, ds ++ r) := by
  obtain ⟨d, ds, rfl⟩ := List.exists_cons_of_ne_nil digits.some
  have digit := digits.all d List.mem_cons_self
  rw [sign, run_get]
  split
  · rename_i same
    cases same
    cases digit
  · rename_i same
    cases same
    cases digit
  · rfl

theorem digit?_of_isDigit (digit : isDigit c = true) : digit? 10 c = some (c.toNat - 48) := by
  have range : 48 ≤ c.toNat ∧ c.toNat ≤ 57 := by
    rw [isDigit, Bool.and_eq_true, decide_eq_true_eq, decide_eq_true_eq] at digit
    exact digit
  rw [digit?, if_pos range, if_pos (by omega)]

theorem run_digitsFor (digits : Digits ds) (enough : ds.length ≤ fuel) :
    (digitsFor 10 fuel).run (ds ++ '\n' :: r) =
      some (ds.map fun c => c.toNat - 48, '\n' :: r) := by
  induction fuel generalizing ds with
  | zero => exact absurd (List.length_eq_zero_iff.1 (Nat.le_zero.1 enough)) digits.some
  | succ fuel ih =>
    obtain ⟨d, ds, rfl⟩ := List.exists_cons_of_ne_nil digits.some
    have first := digit?_of_isDigit (digits.all d List.mem_cons_self)
    rw [List.cons_append, digitsFor, run_get]
    dsimp only
    rw [first]
    cases ds with
    | nil => rfl
    | cons e ds =>
      have more : Digits (e :: ds) :=
        ⟨List.cons_ne_nil _ _, fun c hc => digits.all c (List.mem_cons_of_mem _ hc)⟩
      have next := digit?_of_isDigit (more.all e List.mem_cons_self)
      rw [run_set]
      split
      · rename_i same
        cases (List.cons.inj same).1 ▸ more.all e List.mem_cons_self
      · rename_i same
        rw [← (List.cons.inj same).1, next]
        exact run_bind_some (ih more (Nat.le_of_succ_le_succ enough))
      · rename_i none
        cases none

theorem digitsValue_map (cs : List Char) :
    digitsValue 10 (cs.map fun c => c.toNat - 48) = Json.digitsValue cs := by
  rw [digitsValue, Json.digitsValue, List.foldl_map]

/-- The digits of a number are read to the end of the line. -/
theorem run_decimalDigits (n : ℕ) : ∃ ds, digitsValue 10 ds = n ∧
    decimalDigits.run (Nat.toDigits 10 n ++ '\n' :: r) = some (ds, '\n' :: r) := by
  rcases Nat.eq_zero_or_pos n with rfl | positive
  · exact ⟨[0], rfl, rfl⟩
  · refine ⟨_, (digitsValue_map _).trans (Json.digitsValue_toDigits n), ?_⟩
    have digits := digits_toDigits n
    rw [decimalDigits, run_get]
    split
    · rename_i same
      have head := congrArg List.head? same
      rw [List.head?_append_of_ne_nil _ digits.some] at head
      exact absurd head (Json.head_toDigits positive)
    · rw [Toml.digits, run_get]
      refine run_digitsFor digits ?_
      rw [List.length_append]
      omega

theorem run_fractional_none (n : ℕ) :
    fractional.run (Nat.toDigits 10 n ++ '\n' :: r) = none := by
  obtain ⟨ds, -, read⟩ := run_decimalDigits (r := r) n
  rw [fractional, run_bind_some (run_sign (digits_toDigits n)), run_bind_some read]
  rfl

theorem run_special_none (digits : Digits ds) : special.run (ds ++ r) = none := by
  obtain ⟨d, ds', rfl⟩ := List.exists_cons_of_ne_nil digits.some
  have digit := digits.all d List.mem_cons_self
  rw [special, run_bind_some (run_sign digits)]
  refine run_bind_none ((run_orElse ?_).trans ?_)
  · refine run_bind_none (run_char_none ?_)
    rintro c ⟨⟩ rfl
    cases digit
  · refine run_bind_none (run_char_none ?_)
    rintro c ⟨⟩ rfl
    cases digit

theorem run_integer (small : n < 0x8000000000000000) :
    integer.run (Nat.toDigits 10 n ++ '\n' :: r) = some (.int n, '\n' :: r) := by
  obtain ⟨ds, value, read⟩ := run_decimalDigits (r := r) n
  have decimal := fun c d cs => @second_of_digits c cs _ r d (digits_toDigits n)
  rw [integer, run_get]
  split
  · rcases decimal _ _ _ ‹_› with h | h <;> cases h
  · rcases decimal _ _ _ ‹_› with h | h <;> cases h
  · rcases decimal _ _ _ ‹_› with h | h <;> cases h
  · rw [run_bind_some (run_sign (digits_toDigits n)), run_bind_some read, value, wholeNumber,
      if_neg Bool.false_ne_true, if_pos small]
    rfl

/-- **A number is read back** up to the end of its line. -/
theorem run_number (small : n < 0x8000000000000000) :
    number.run (Nat.toDigits 10 n ++ '\n' :: r) = some (.int n, '\n' :: r) := by
  have digits := digits_toDigits n
  rw [number, run_orElse (run_dateTime_none digits),
    run_orElse (run_bind_none (run_timeOfDay_none digits)), run_orElse (run_fractional_none n),
    run_orElse (run_special_none digits), run_integer small]

/-! ## Scalars -/

open TomlScalar (formOf textIn)

theorem head_quoted (s : String) :
    ∃ q cs, (TomlScalar.quoted s).toList = q :: cs ∧ (q = '"' ∨ q = singleQuote) := by
  rw [TomlScalar.quoted, String.toList_ofList]
  rcases formOf_cases s.toList with form | form | ⟨-, ⟨form, -⟩ | ⟨form, -⟩⟩ <;> rw [form]
  · exact ⟨_, _, rfl, .inl rfl⟩
  · exact ⟨_, _, rfl, .inl rfl⟩
  · exact ⟨_, _, rfl, .inr rfl⟩
  · exact ⟨_, _, rfl, .inr rfl⟩

theorem run_scalar_text {s : String} (read : textValue.run (c :: cs) = some (s, r))
    (quote : c = '"' ∨ c = singleQuote) : scalar.run (c :: cs) = some (.text s, r) := by
  have text : (do return .text (← textValue) : Scan Toml).run (c :: cs) = some (.text s, r) := by
    rw [run_bind_some read]
    rfl
  rcases quote with rfl | rfl
  · exact text
  · exact text

theorem run_scalar_digit (digit : isDigit c = true) :
    scalar.run (c :: cs) = number.run (c :: cs) := by
  rw [scalar, run_get]
  split
  · rename_i same
    cases same
    cases digit
  · rename_i same
    cases same
    cases digit
  · rename_i same
    cases same
    cases digit
  · rename_i same
    cases same
    rw [if_neg (Json.ne_of_isDigit digit (by decide))]
  · rename_i none
    cases none

theorem toList_toString (n : ℕ) : (toString n).toList = Nat.toDigits 10 n := by
  rw [Nat.toString_eq_repr, Nat.repr, String.toList_ofList]

theorem run_scalar {x : TomlScalar} (fits : x.Fits) :
    scalar.run (x.render.toList ++ '\n' :: r) = some (x.value, '\n' :: r) := by
  cases x with
  | text s =>
    obtain ⟨q, cs, same, quote⟩ := head_quoted s
    have read := run_textValue (r := '\n' :: r) (by rintro c ⟨⟩; decide) s
    rw [TomlScalar.render]
    rw [same] at read ⊢
    exact run_scalar_text read quote
  | nat n =>
    have digits := digits_toDigits n
    have read := run_number (r := r) fits
    obtain ⟨d, ds, same⟩ := List.exists_cons_of_ne_nil digits.some
    rw [TomlScalar.render, toList_toString]
    rw [same] at read ⊢
    exact (run_scalar_digit (digits.all d (same ▸ List.mem_cons_self))).trans read
  | flag b => cases b <;> rfl

/-- No scalar starts as an array or an inline table does. -/
theorem head_render (x : TomlScalar) :
    ∃ c cs, x.render.toList = c :: cs ∧ isBlankChar c = false ∧ c ≠ '[' ∧ c ≠ '{' := by
  cases x with
  | text s =>
    obtain ⟨q, cs, same, rfl | rfl⟩ := head_quoted s
    · exact ⟨_, cs, same, by decide⟩
    · exact ⟨_, cs, same, by decide⟩
  | nat n =>
    have digits := digits_toDigits n
    obtain ⟨d, ds, same⟩ := List.exists_cons_of_ne_nil digits.some
    have digit := digits.all d (same ▸ List.mem_cons_self)
    refine ⟨d, ds, (toList_toString n).trans same, ?_, ?_, ?_⟩
    · refine Bool.eq_false_iff.2 fun blank => ?_
      rcases Bool.or_eq_true_iff.1 blank with h | h <;>
        rw [eq_of_beq h] at digit <;> cases digit
    · exact Json.ne_of_isDigit digit (by decide)
    · exact Json.ne_of_isDigit digit (by decide)
  | flag b => cases b <;> exact ⟨_, _, rfl, by decide⟩

theorem run_valueOf_scalar {inner : Scan Toml} (array : c ≠ '[') (table : c ≠ '{') :
    (valueOf inner).run (c :: cs) = scalar.run (c :: cs) := by
  rw [valueOf, run_get]
  split
  · exact absurd (List.cons.inj ‹_›).1 array
  · exact absurd (List.cons.inj ‹_›).1 table
  · rfl

/-- **A scalar is read back** up to the end of its line. -/
theorem run_valueWithin {x : TomlScalar} (fits : x.Fits) (depth : ℕ) :
    (valueWithin depth).run (x.render.toList ++ '\n' :: r) = some (x.value, '\n' :: r) := by
  have read := run_scalar (r := r) fits
  obtain ⟨c, cs, same, -, array, table⟩ := head_render x
  rw [same] at read ⊢
  cases depth <;> exact (run_valueOf_scalar array table).trans read

end Toml

end ChargeLink
