import ChargeLink.Json.Printer
import ChargeLink.Json.Reader
import Mathlib.Data.List.Basic
import Mathlib.Data.Nat.Notation
import Mathlib.Tactic.IntervalCases
import Mathlib.Tactic.Ring

/-!
# Strings and numbers come back from their text

A text is read from the left, so each lemma says what is read of a text that
goes on: a string up to its closing quote, a number up to what `Stops` it.
A `Numeral` is the text of a number in its parts.

* `Json.readString_quoted`: a string is read back.
* `Json.readUnsigned_chars`: the parts of a number are read back.
-/

namespace ChargeLink.Json

/-! ## Strings -/

/-- A character that needs no escape is read as it stands. -/
theorem readChars_plain (acc : List Char) {c : Char} (r : List Char) (quote : c ≠ '"')
    (slash : c ≠ '\\') (printable : ¬c.toNat < 32) :
    readChars acc (c :: r) = readChars (c :: acc) r := by
  rw [readChars]
  · simp [slash, printable]
  · exact quote
  all_goals
    intros
    exact absurd (by assumption) slash

/-- The number of a character is read alone, also if another escape follows: only the first half of
a pair goes together with what follows. -/
theorem readChars_unicode (acc : List Char) {x y : Char} {n : ℕ} (r : List Char)
    (h : hexWord? '0' '0' x y = some n) (small : n < 0xD800) :
    readChars acc ('\\' :: 'u' :: '0' :: '0' :: x :: y :: r) =
      readChars (Char.ofNat n :: acc) r := by
  have notHigh : ¬(0xD800 ≤ n ∧ n < 0xDC00) := by omega
  have notLow : ¬(0xDC00 ≤ n ∧ n < 0xE000) := by omega
  have notHalf : ¬(0xD800 ≤ n ∧ n < 0xE000) := by omega
  by_cases more : ∃ e f g h r', r = '\\' :: 'u' :: e :: f :: g :: h :: r'
  · obtain ⟨e, f, g, i, r', rfl⟩ := more
    rw [readChars, h]
    simp only [if_neg notHigh, if_neg notLow]
  · rw [readChars, h]
    · simp only [if_neg notHalf]
    · intro e f g i r' hr
      exact more ⟨e, f, g, i, r', hr⟩

theorem readChars_simple (acc : List Char) {c e : Char} (r : List Char) (u : c ≠ 'u')
    (h : simpleEscape? c = some e) : readChars acc ('\\' :: c :: r) = readChars (e :: acc) r := by
  rw [readChars]
  · simp only [h]
  all_goals
    intros
    exact absurd (by assumption) u

theorem hexWord?_control : ∀ n < 32,
    hexWord? '0' '0' (hexDigit (n / 16)) (hexDigit (n % 16)) = some n := by
  decide

/-- A character is read back from its escape. -/
theorem readChars_escape (acc : List Char) (c : Char) (r : List Char) :
    readChars acc (escape c ++ r) = readChars (c :: acc) r := by
  have code : ∀ {n : ℕ}, c.toNat = n → Char.ofNat n = c := by
    intro n h
    rw [← h, Char.ofNat_toNat]
  unfold escape
  split
  · rename_i h
    subst h
    exact readChars_simple acc r (by decide) rfl
  split
  · rename_i h
    subst h
    exact readChars_simple acc r (by decide) rfl
  split
  · rename_i h
    exact readChars_simple acc r (by decide) (congrArg some (code h))
  split
  · rename_i h
    exact readChars_simple acc r (by decide) (congrArg some (code h))
  split
  · rename_i h
    exact readChars_simple acc r (by decide) (congrArg some (code h))
  split
  · rename_i h
    exact readChars_simple acc r (by decide) (congrArg some (code h))
  split
  · rename_i h
    exact readChars_simple acc r (by decide) (congrArg some (code h))
  split
  · rename_i h
    refine (readChars_unicode acc r (hexWord?_control c.toNat h) (by omega)).trans ?_
    rw [code rfl]
  · rename_i quote slash _ _ _ _ _ printable
    exact readChars_plain acc r quote slash printable

/-- The rest of a string is read back up to its closing quote. -/
theorem readChars_escaped (acc cs r : List Char) :
    readChars acc (escaped cs ++ '"' :: r) = some (acc.reverse ++ cs, r) := by
  induction cs generalizing acc with
  | nil => simp [escaped, readChars]
  | cons c cs ih =>
    rw [escaped, List.append_assoc, readChars_escape, ih]
    simp

theorem readString_quoted (s : String) (r : List Char) :
    readString (escaped s.toList ++ '"' :: r) = some (s, r) := by
  rw [readString, readChars_escaped]
  simp

/-! ## Digits -/

theorem isDigit_of_mem {n : ℕ} {c : Char} (h : c ∈ Nat.toDigits 10 n) : isDigit c = true :=
  Nat.isDigit_of_mem_toDigits (by decide) (by decide) h

theorem digitsValue_toDigits (n : ℕ) : digitsValue (Nat.toDigits 10 n) = n := by
  have step : (fun (m : ℕ) (c : Char) => m * 10 + (c.toNat - 48)) =
      fun (m : ℕ) (c : Char) => 10 * m + (c.toNat - '0'.toNat) := by
    funext m c
    rw [Nat.mul_comm]
    rfl
  rw [digitsValue, step]
  exact Nat.ofDigitChars_ten_toDigits

/-- The digits of a positive number do not start with a zero. -/
theorem head_toDigits {n : ℕ} (h : 0 < n) : (Nat.toDigits 10 n).head? ≠ some '0' := by
  induction n using Nat.strongRecOn with
  | ind n ih =>
    rw [Nat.toDigits_eq_if (by decide)]
    split
    · interval_cases n <;> decide
    · rw [List.head?_append_of_ne_nil _ Nat.toDigits_ne_nil]
      exact ih (n / 10) (by omega) (by omega)

/-- A digit differs from every character that is none. -/
theorem ne_of_isDigit {c x : Char} (h : isDigit c = true) (hx : isDigit x = false) : c ≠ x := by
  intro same
  rw [same, hx] at h
  cases h

/-- Some digits. -/
structure Digits (ds : List Char) : Prop where
  some : ds ≠ []
  all : ∀ c ∈ ds, isDigit c = true

/-- What follows is no digit. -/
def Ends (r : List Char) : Prop :=
  ∀ c ∈ r.head?, isDigit c = false

variable {ds r : List Char}

theorem digits_toDigits (n : ℕ) : Digits (Nat.toDigits 10 n) :=
  ⟨Nat.toDigits_ne_nil, fun _ => isDigit_of_mem⟩

theorem isDigit_zeros (n : ℕ) : ∀ c ∈ List.replicate n '0', isDigit c = true := by
  intro c hc
  rw [List.eq_of_mem_replicate hc]
  rfl

theorem digits_zero : Digits ['0'] :=
  ⟨List.cons_ne_nil _ _, isDigit_zeros 1⟩

theorem Digits.append (h : Digits ds) {r : List Char} (hr : ∀ c ∈ r, isDigit c = true) :
    Digits (ds ++ r) :=
  ⟨List.append_ne_nil_of_left_ne_nil h.some r, fun c hc =>
    (List.mem_append.1 hc).elim (h.all c) (hr c)⟩

theorem Digits.take (h : Digits ds) (n : ℕ) : Digits (ds.take (n + 1)) := by
  have := List.length_pos_iff.2 h.some
  refine ⟨List.ne_nil_of_length_pos ?_, fun c hc => h.all c (List.mem_of_mem_take hc)⟩
  rw [List.length_take]
  omega

theorem Digits.drop (h : Digits ds) {n : ℕ} (less : n < ds.length) : Digits (ds.drop n) := by
  refine ⟨List.ne_nil_of_length_pos ?_, fun c hc => h.all c (List.mem_of_mem_drop hc)⟩
  rw [List.length_drop]
  omega

theorem digitsValue_append (a b : List Char) :
    digitsValue (a ++ b) = digitsValue a * 10 ^ b.length + digitsValue b := by
  have shift : ∀ (cs : List Char) (n : ℕ),
      cs.foldl (fun n c => n * 10 + (c.toNat - 48)) n = n * 10 ^ cs.length + digitsValue cs := by
    intro cs
    induction cs with
    | nil => simp [digitsValue]
    | cons c cs ih =>
      intro n
      rw [digitsValue, List.foldl_cons, List.foldl_cons, ih, ih (0 * 10 + _), List.length_cons]
      ring
  rw [digitsValue, List.foldl_append, shift]
  rfl

theorem digitsValue_zeros (n : ℕ) : digitsValue (List.replicate n '0') = 0 := by
  induction n with
  | zero => rfl
  | succ n ih => exact ih

theorem Digits.takeWhile (h : Digits ds) (ends : Ends r) : (ds ++ r).takeWhile isDigit = ds := by
  rw [List.takeWhile_append_of_pos h.all]
  cases r with
  | nil => simp
  | cons c r => simp [ends c rfl]

theorem Digits.dropWhile (h : Digits ds) (ends : Ends r) : (ds ++ r).dropWhile isDigit = r := by
  rw [List.dropWhile_append_of_pos h.all]
  cases r with
  | nil => rfl
  | cons c r => simp [ends c rfl]

/-! ## Numbers -/

/-- The text of a number without its sign: the digits before and after the point, and the
exponent. -/
structure Numeral where
  whole : List Char
  fraction : Option (List Char)
  exponent : Option ℤ

namespace Numeral

/-- The exponent with its letter and its sign. -/
def exponentChars : Option ℤ → List Char
  | none => []
  | some e => 'e' :: (if e < 0 then '-' else '+') :: Nat.toDigits 10 e.natAbs

/-- The digits after the point, with the point. -/
def fractionChars : Option (List Char) → List Char
  | none => []
  | some f => '.' :: f

/-- The text of the number. -/
def chars (n : Numeral) : List Char :=
  n.whole ++ (fractionChars n.fraction ++ exponentChars n.exponent)

/-- Numbers as they may be written: only a lone zero comes first before the point. -/
structure Sound (n : Numeral) : Prop where
  whole : Digits n.whole
  lead : n.whole.head? = some '0' → n.whole = ['0']
  fraction : ∀ f ∈ n.fraction, Digits f

/-- The text of a number starts with a digit. -/
theorem Sound.head {n : Numeral} (h : n.Sound) : ∃ c cs, n.chars = c :: cs ∧ isDigit c = true := by
  obtain ⟨c, cs, digits⟩ := List.exists_cons_of_ne_nil h.whole.some
  exact ⟨c, _, by rw [chars, digits]; rfl, h.whole.all c (digits ▸ List.mem_cons_self)⟩

theorem sound_nat (n : ℕ) : Sound ⟨Nat.toDigits 10 n, none, none⟩ where
  whole := digits_toDigits n
  lead := by
    intro zero
    rcases Nat.eq_zero_or_pos n with rfl | positive
    · exact Nat.toDigits_zero 10
    · exact absurd zero (head_toDigits positive)
  fraction := by simp

end Numeral

/-- What follows a number does not go on with it. -/
def Stops (r : List Char) : Prop :=
  ∀ c ∈ r.head?, isDigit c = false ∧ c ≠ '.' ∧ c ≠ 'e' ∧ c ≠ 'E'

variable {n : Numeral}

theorem Stops.ends (h : Stops r) : Ends r :=
  fun c hc => (h c hc).1

theorem ends_exponentChars (e : Option ℤ) (stops : Stops r) :
    Ends (Numeral.exponentChars e ++ r) := by
  cases e with
  | none => exact stops.ends
  | some e =>
    intro c hc
    cases hc
    rfl

theorem ends_fractionChars (f : Option (List Char)) (e : Option ℤ) (stops : Stops r) :
    Ends (Numeral.fractionChars f ++ (Numeral.exponentChars e ++ r)) := by
  cases f with
  | none => exact ends_exponentChars e stops
  | some f =>
    intro c hc
    cases hc
    rfl

theorem readWhole_digits {w : List Char} (digits : Digits w)
    (lead : w.head? = some '0' → w = ['0']) (ends : Ends r) : readWhole (w ++ r) = some (w, r) := by
  have some := digits.some
  unfold readWhole
  split
  · -- a zero stands alone
    rename_i r' start
    have zero : w = ['0'] := lead (by
      have := congrArg List.head? start
      rwa [List.head?_append_of_ne_nil _ some] at this)
    obtain rfl : r = r' := by simpa [zero] using start
    have next : (r.head?.map isDigit).getD false = false := by
      cases r with
      | nil => rfl
      | cons c r => exact ends c rfl
    simp [next, zero]
  · simp [digits.takeWhile ends, digits.dropWhile ends, some]

theorem readFraction_chars (f : Option (List Char)) (digits : ∀ ds ∈ f, Digits ds) (e : Option ℤ)
    (stops : Stops r) :
    readFraction (Numeral.fractionChars f ++ (Numeral.exponentChars e ++ r)) =
      some (f, Numeral.exponentChars e ++ r) := by
  have ends := ends_exponentChars e stops
  cases f with
  | some ds =>
    have digits := digits ds rfl
    simp [Numeral.fractionChars, readFraction, digits.takeWhile ends, digits.dropWhile ends,
      digits.some]
  | none =>
    rw [Numeral.fractionChars, List.nil_append]
    -- what follows is no point
    unfold readFraction
    split
    · rename_i start
      cases e with
      | some e => cases start
      | none => exact absurd rfl (stops '.' (by simp [show r = _ from start])).2.1
    · rfl

theorem readExponent_chars (e : Option ℤ) (stops : Stops r) :
    readExponent (Numeral.exponentChars e ++ r) = some (e, r) := by
  cases e with
  | none =>
    rw [Numeral.exponentChars, List.nil_append]
    unfold readExponent
    split
    · exact absurd rfl (stops 'e' rfl).2.2.1
    · exact absurd rfl (stops 'E' rfl).2.2.2
    · rfl
  | some e =>
    have digits := digits_toDigits e.natAbs
    rcases Int.lt_or_le e 0 with negative | positive
    · have value : -(e.natAbs : ℤ) = e := by omega
      simp [Numeral.exponentChars, negative, readExponent, digits.takeWhile stops.ends,
        digits.dropWhile stops.ends, digits.some, digitsValue_toDigits, value,
        -Nat.cast_natAbs]
    · have value : (e.natAbs : ℤ) = e := by omega
      simp [Numeral.exponentChars, Int.not_lt.2 positive, readExponent,
        digits.takeWhile stops.ends, digits.dropWhile stops.ends, digits.some,
        digitsValue_toDigits, value, -Nat.cast_natAbs]

/-- **The parts of a number are read back**, up to what stops it. -/
theorem readUnsigned_chars (negative : Bool) (sound : n.Sound) (stops : Stops r) :
    readUnsigned negative (n.chars ++ r) =
      (number? negative n.whole n.fraction n.exponent).map (·, r) := by
  rw [Numeral.chars, List.append_assoc, List.append_assoc]
  simp only [readUnsigned, Option.bind_eq_bind, Option.bind_some,
    readWhole_digits sound.whole sound.lead (ends_fractionChars n.fraction n.exponent stops),
    readFraction_chars n.fraction sound.fraction n.exponent stops,
    readExponent_chars n.exponent stops]
  cases number? negative n.whole n.fraction n.exponent <;> rfl

/-! ## Values that are no array and no object -/

theorem skipSpace_cons {c : Char} (h : isSpace c = false) (r : List Char) :
    skipSpace (c :: r) = c :: r := by
  simp [skipSpace, h]

theorem isSpace_of_isDigit {c : Char} (h : isDigit c = true) : isSpace c = false := by
  simp [isSpace, ne_of_isDigit h (x := ' ') (by decide), ne_of_isDigit h (x := '\n') (by decide),
    ne_of_isDigit h (x := '\t') (by decide), ne_of_isDigit h (x := '\r') (by decide)]

theorem readValue_digit {c : Char} (h : isDigit c = true) (d : ℕ) (r : List Char) :
    readValue d (c :: r) = readUnsigned false (c :: r) := by
  unfold readValue
  rw [skipSpace_cons (isSpace_of_isDigit h)]
  split
  all_goals
    first
    | rfl
    | exact absurd (List.cons.inj (by assumption)).1 (ne_of_isDigit h (by decide))

theorem readValue_minus (d : ℕ) (r : List Char) : readValue d ('-' :: r) = readUnsigned true r := by
  unfold readValue
  rw [skipSpace_cons rfl]
  rfl

/-- The reader knows a number without a sign by its first digit. -/
theorem readValue_chars (sound : n.Sound) (d : ℕ) (r : List Char) :
    readValue d (n.chars ++ r) = readUnsigned false (n.chars ++ r) := by
  obtain ⟨c, cs, text, digit⟩ := sound.head
  rw [text]
  exact readValue_digit digit d _

theorem readValue_int {i : ℤ} (low : -0x8000000000000000 ≤ i) (high : i < 0x10000000000000000)
    (d : ℕ) (h : Stops r) : readValue d (intChars i ++ r) = some (.int i, r) := by
  have sound := Numeral.sound_nat i.natAbs
  have text : Numeral.chars ⟨Nat.toDigits 10 i.natAbs, none, none⟩ = Nat.toDigits 10 i.natAbs := by
    simp [Numeral.chars, Numeral.fractionChars, Numeral.exponentChars]
  unfold intChars
  split
  · rename_i negative
    have small : 0 < i.natAbs ∧ i.natAbs ≤ 0x8000000000000000 := by omega
    have value : -(i.natAbs : ℤ) = i := by omega
    rw [List.cons_append, readValue_minus, ← text, readUnsigned_chars true sound h]
    simp only [number?, digitsValue_toDigits, if_true, if_pos small, value, Option.map_some]
  · rename_i positive
    have small : i.natAbs < 0x10000000000000000 := by omega
    have value : (i.natAbs : ℤ) = i := by omega
    rw [← text, readValue_chars sound, readUnsigned_chars false sound h]
    simp [number?, digitsValue_toDigits, small, value]

theorem readValue_str (s : String) (d : ℕ) (r : List Char) :
    readValue d (quoted s ++ r) = some (.str s, r) := by
  unfold readValue quoted
  rw [List.cons_append, skipSpace_cons rfl, List.append_assoc, List.singleton_append]
  show (readString _).map _ = _
  rw [readString_quoted]
  rfl

end ChargeLink.Json
