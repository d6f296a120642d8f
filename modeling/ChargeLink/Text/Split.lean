/-!
# Splitting texts
-/

namespace ChargeLink.Text

/-- The parts between the occurrences of a character; there is always at least one. -/
def splitChars (sep : Char) : List Char → List (List Char)
  | [] => [[]]
  | c :: r =>
    if c = sep then [] :: splitChars sep r
    else
      match splitChars sep r with
      | [] => [[c]]
      | part :: parts => (c :: part) :: parts

/-- The parts of a text between the occurrences of a character. -/
def split (sep : Char) (s : String) : List String :=
  (splitChars sep s.toList).map String.ofList

theorem splitChars_ne_nil (sep : Char) (cs : List Char) : splitChars sep cs ≠ [] := by
  cases cs with
  | nil => simp [splitChars]
  | cons c r =>
    simp only [splitChars]
    split
    · simp
    · split <;> simp

variable {sep : Char} {a b : List Char}

theorem splitChars_of_notMem (h : sep ∉ a) : splitChars sep a = [a] := by
  induction a with
  | nil => rfl
  | cons c r ih =>
    simp only [List.mem_cons, not_or] at h
    rw [splitChars, if_neg (Ne.symm h.1), ih h.2]

theorem splitChars_append_sep (a b : List Char) :
    splitChars sep (a ++ sep :: b) = splitChars sep a ++ splitChars sep b := by
  induction a with
  | nil => simp [splitChars]
  | cons c r ih =>
    rw [List.cons_append, splitChars, splitChars, ih]
    split
    · rfl
    · cases parts : splitChars sep r with
      | nil => exact absurd parts (splitChars_ne_nil sep r)
      | cons part parts => rfl

/-- What follows without a separator belongs to the last part. -/
theorem splitChars_append (h : sep ∉ b) : ∃ first last, splitChars sep a = first ++ [last] ∧
    splitChars sep (a ++ b) = first ++ [last ++ b] := by
  induction a with
  | nil => exact ⟨[], [], rfl, splitChars_of_notMem h⟩
  | cons c r ih =>
    obtain ⟨first, last, short, long⟩ := ih
    rw [List.cons_append, splitChars, splitChars, short, long]
    split
    · exact ⟨[] :: first, last, rfl, rfl⟩
    · cases first with
      | nil => exact ⟨[], c :: last, rfl, rfl⟩
      | cons part parts => exact ⟨(c :: part) :: parts, last, rfl, rfl⟩

end ChargeLink.Text
