import ChargeLink.Toml.Printer
import ChargeLink.Toml.Reader
import Mathlib.Data.Nat.Notation

/-!
# Texts come back from any of their forms

A text is read from the left, so each lemma says what is read of one that goes
on. What is written for a text is a row of pieces, each of which stands for one
character, and of quotes that stand for themselves. Quotes are what the reader
may stumble over: three of them close a text over several lines. There are never
that many in a row before its end, and those right before the end belong to it.

* `Toml.run_textValue`: a text is read back from the form it is written in.
-/

namespace ChargeLink.Toml

open TomlScalar (codeEscape escaped isForbidden longestRun formOf textIn)

variable {α β : Type} {c : Char} {cs r : List Char} {fuel : ℕ}

/-! ## Readers -/

/-- A reader goes on where the one before it has stopped. -/
theorem run_bind_some {x : Scan α} {f : α → Scan β} {a : α} (h : x.run cs = some (a, r)) :
    (x >>= f).run cs = (f a).run r := by
  rw [StateT.run_bind, h]
  rfl

theorem run_bind_none {x : Scan α} {f : α → Scan β} (fails : x.run cs = none) :
    (x >>= f).run cs = none := by
  rw [StateT.run_bind, fails]
  rfl

theorem run_get (f : List Char → Scan α) : (get >>= f).run cs = (f cs).run cs := rfl

theorem run_set (f : PUnit → Scan α) : (set r >>= f).run cs = (f ⟨⟩).run r := rfl

/-- The second of two readers is asked if the first one fails. -/
theorem run_orElse {x y : Scan α} (fails : x.run cs = none) : (x <|> y).run cs = y.run cs := by
  show (x.run cs <|> y.run cs) = y.run cs
  rw [fails]
  rfl

theorem run_char : (char c).run (c :: r) = some ((), r) := by
  show (if c = c then set r else failure : Scan Unit).run _ = _
  rw [if_pos rfl]
  rfl

theorem run_char_none {d : Char} (other : ∀ c ∈ cs.head?, c ≠ d) : (char d).run cs = none := by
  cases cs with
  | nil => rfl
  | cons c cs =>
    show (if c = d then set cs else failure : Scan Unit).run _ = none
    rw [if_neg (other c rfl)]
    rfl

/-- Characters are taken up to the first that does not satisfy the condition. -/
theorem run_takeWhile {p : Char → Bool} (all : ∀ c ∈ cs, p c = true)
    (stop : ∀ c ∈ r.head?, p c = false) : (takeWhile p).run (cs ++ r) = some (cs, r) := by
  have none : r.takeWhile p = [] ∧ r.dropWhile p = r := by
    cases r with
    | nil => exact ⟨rfl, rfl⟩
    | cons c r =>
      have := Bool.eq_false_iff.1 (stop c rfl)
      exact ⟨List.takeWhile_cons_of_neg this, List.dropWhile_cons_of_neg this⟩
  show some ((cs ++ r).takeWhile p, (cs ++ r).dropWhile p) = _
  rw [List.takeWhile_append_of_pos all, List.dropWhile_append_of_pos all, none.1, none.2,
    List.append_nil]

/-! ## Escapes -/

/-- Letters after a backslash that stand for a character. -/
structure Escapes (c : Char) (letters : List Char) : Prop where
  reads : ∀ r, escapeChar.run (letters ++ r) = some (c, r)
  starts : ∀ d ∈ letters.head?, isBlankChar d = false ∧ d ≠ '\n' ∧ d ≠ '\r'
  some : letters ≠ []

theorem escapes_letter {d : Char} (letter : escape? d = some c) : Escapes c [d] := by
  have notCode : d ≠ 'u' ∧ d ≠ 'U' := by
    constructor <;> rintro rfl <;> cases letter
  refine ⟨fun r => ?_, ?_, List.cons_ne_nil _ _⟩
  · unfold escapeChar
    rw [run_get]
    split
    · exact absurd (List.cons.inj ‹_›).1 notCode.1
    · exact absurd (List.cons.inj ‹_›).1 notCode.2
    · rename_i e r' same
      cases same
      rw [run_set, letter]
      rfl
    · rename_i none
      cases none
  · rintro e ⟨⟩
    unfold escape? at letter
    refine ⟨Bool.eq_false_iff.2 fun blank => ?_, ?_, ?_⟩
    · rcases Bool.or_eq_true_iff.1 blank with h | h <;>
        rw [eq_of_beq h] at letter <;> cases letter
    · rintro rfl
      cases letter
    · rintro rfl
      cases letter

theorem run_code {digits : List Char} (four : digits.length = 4)
    (read : codePoint? digits = some c) :
    escapeChar.run ('u' :: (digits ++ r)) = some (c, r) := by
  have long : ¬(digits ++ r).length < 4 := by
    rw [List.length_append, four]
    omega
  show ((if _ < 4 then failure else liftM (codePoint? (List.take 4 _)) : Scan Char).run
    (List.drop 4 _)) = _
  rw [if_neg long, List.take_left' four, List.drop_left' four, read]
  rfl

/-- Only characters below 128 are written by their code. -/
theorem codePoint?_codeEscape : ∀ n < 128,
    codePoint? ((codeEscape (Char.ofNat n)).drop 2) = some (Char.ofNat n) ∧
      (codeEscape (Char.ofNat n)).length = 6 := by
  decide

theorem escapes_code (small : c.toNat < 128) : ∃ letters, codeEscape c = '\\' :: letters ∧
    Escapes c letters := by
  obtain ⟨read, length⟩ := codePoint?_codeEscape c.toNat small
  rw [Char.ofNat_toNat] at read length
  refine ⟨'u' :: (codeEscape c).drop 2, rfl, fun r => ?_, ?_, List.cons_ne_nil _ _⟩
  · exact run_code (by rw [List.length_drop, length]) read
  · rintro d ⟨⟩
    decide

/-! ## Pieces -/

/-- What is written for a character: itself, where it has a place, or an escape. -/
inductive Piece (lines : Bool) (c : Char) : List Char → Prop
  | plain (basic : isBasicChar c = true) : Piece lines c [c]
  | lineEnd (several : lines = true) (ends : c = '\n') : Piece lines c [c]
  | escape {letters : List Char} (escapes : Escapes c letters) : Piece lines c ('\\' :: letters)

theorem small_of_isForbidden (h : isForbidden c = true) : c.toNat < 128 := by
  simp only [isForbidden, Bool.or_eq_true, Bool.and_eq_true, decide_eq_true_eq, beq_iff_eq] at h
  omega

theorem isCommentChar_of_not_isForbidden (h : isForbidden c = false) (ends : c ≠ '\n') :
    isCommentChar c = true := by
  have other : c.toNat ≠ 10 := fun same => ends (by rw [← Char.ofNat_toNat c, same])
  simp only [isForbidden, Bool.or_eq_false_iff, Bool.and_eq_false_iff, decide_eq_false_iff_not,
    bne_eq_false_iff_eq, beq_eq_false_iff_ne] at h
  simp only [isCommentChar, Bool.or_eq_true, Bool.and_eq_true, decide_eq_true_eq, beq_iff_eq]
  omega

variable {lines : Bool} {quotes run : ℕ}

/-- Quotes stand as they are until there are too many of them; anything else is written in a
piece of its own. -/
theorem escaped_quote (less : run < quotes) :
    escaped lines quotes run ('"' :: cs) = '"' :: escaped lines quotes (run + 1) cs := by
  rw [escaped, if_pos rfl, if_pos less]

theorem escaped_piece (lines : Bool) (cs : List Char) (h : c = '"' → ¬run < quotes) :
    ∃ piece, Piece lines c piece ∧
    escaped lines quotes run (c :: cs) = piece ++ escaped lines quotes 0 cs := by
  have code : c.toNat < 128 → Piece lines c (codeEscape c) := by
    intro small
    obtain ⟨letters, same, escapes⟩ := escapes_code small
    exact same ▸ .escape escapes
  have letter : ∀ {d : Char}, escape? d = some c → Piece lines c ['\\', d] := fun letter =>
    .escape (escapes_letter letter)
  rw [escaped]
  split
  · rename_i quote
    rw [if_neg (h quote)]
    exact ⟨_, code (by rw [quote]; decide), rfl⟩
  · rename_i quote
    refine ⟨_, ?_, rfl⟩
    split
    · rename_i same
      exact letter (by rw [same]; rfl)
    split
    · rename_i same
      exact letter (by rw [same]; rfl)
    split
    · rename_i ends
      split
      · rename_i several
        exact .lineEnd several ends
      · exact letter (by rw [ends]; rfl)
    split
    · rename_i same
      exact letter (by rw [same]; rfl)
    split
    · rename_i same
      exact letter (by rw [← Char.ofNat_toNat c, same]; rfl)
    split
    · rename_i same
      exact letter (by rw [← Char.ofNat_toNat c, same]; rfl)
    split
    · rename_i forbidden
      exact code (small_of_isForbidden forbidden)
    · rename_i slash _ ends _ _ _ forbidden
      refine .plain ?_
      have comment := isCommentChar_of_not_isForbidden (Bool.eq_false_iff.2 forbidden) ends
      simp only [isBasicChar, Bool.and_eq_true, bne_iff_ne]
      exact ⟨⟨comment, quote⟩, slash⟩

/-- A text is not shorter when it is escaped. -/
theorem length_le_escaped (lines : Bool) (quotes run : ℕ) (cs : List Char) :
    cs.length ≤ (escaped lines quotes run cs).length := by
  induction cs generalizing run with
  | nil => exact Nat.zero_le _
  | cons c cs ih =>
    by_cases raw : c = '"' ∧ run < quotes
    · rw [raw.1, escaped_quote raw.2]
      exact Nat.succ_le_succ (ih (run + 1))
    · obtain ⟨piece, is, same⟩ := escaped_piece lines cs fun quote less => raw ⟨quote, less⟩
      have some : 1 ≤ piece.length := by cases is <;> exact Nat.succ_le_succ (Nat.zero_le _)
      have := ih 0
      rw [same, List.length_append, List.length_cons]
      omega

/-! ## Runs of quotes -/

variable {quote : Char} {most : ℕ}

theorem runLength_cons : runLength quote (quote :: r) = runLength quote r + 1 := by
  simp [runLength]

theorem runLength_other (other : c ≠ quote) : runLength quote (c :: r) = 0 := by
  simp [runLength, other]

theorem runLength_clear (clear : r.head? ≠ some quote) : runLength quote r = 0 := by
  cases r with
  | nil => rfl
  | cons c r => exact runLength_other fun same => clear (congrArg some same)

theorem runLength_replicate (clear : r.head? ≠ some quote) (n : ℕ) :
    runLength quote (List.replicate n quote ++ r) = n := by
  induction n with
  | zero => exact runLength_clear clear
  | succ n ih => rw [List.replicate_succ, List.cons_append, runLength_cons, ih]

theorem three_le_runLength (r : List Char) :
    3 ≤ runLength quote (List.replicate 3 quote ++ r) := by
  show 3 ≤ runLength quote (quote :: quote :: quote :: r)
  repeat rw [runLength_cons]
  omega

/-- A piece starts with no quote. -/
theorem Piece.runLength_eq {piece : List Char} (h : Piece lines c piece) :
    runLength '"' (piece ++ r) = 0 := by
  cases h with
  | plain basic =>
    refine runLength_other fun same => ?_
    rw [same] at basic
    cases basic
  | lineEnd _ ends =>
    refine runLength_other fun same => ?_
    rw [ends] at same
    cases same
  | escape => exact runLength_other (by decide)

/-- The quotes at the start of what is written are all of it, or no more than may follow each
other. -/
theorem escaped_starts (lines : Bool) (cs : List Char) (before : run ≤ quotes) :
    (∃ n, n + run ≤ quotes ∧ cs = List.replicate n '"' ∧ escaped lines quotes run cs = cs) ∨
      ∀ r, runLength '"' (escaped lines quotes run cs ++ r) + run ≤ quotes := by
  induction cs generalizing run with
  | nil => exact .inl ⟨0, by omega, rfl, rfl⟩
  | cons c cs ih =>
    by_cases raw : c = '"' ∧ run < quotes
    · obtain ⟨rfl, less⟩ := raw
      rw [escaped_quote less]
      rcases @ih (run + 1) less with ⟨n, few, same, kept⟩ | few
      · exact .inl ⟨n + 1, by omega, by rw [same, List.replicate_succ], by rw [kept]⟩
      · refine .inr fun r => ?_
        have := few r
        rw [List.cons_append, runLength_cons]
        omega
    · obtain ⟨piece, is, same⟩ := escaped_piece lines cs fun quote less => raw ⟨quote, less⟩
      refine .inr fun r => ?_
      rw [same, List.append_assoc, is.runLength_eq]
      omega

/-- The same for a text with no long run of quotes that is written as it is. -/
theorem literal_starts (few : longestRun quote run cs ≤ most) :
    (∃ n, n + run ≤ most ∧ cs = List.replicate n quote) ∨
      ∀ r, runLength quote (cs ++ r) + run ≤ most := by
  induction cs generalizing run with
  | nil => exact .inl ⟨0, by rwa [Nat.zero_add], rfl⟩
  | cons c cs ih =>
    rw [longestRun] at few
    split at few
    · rename_i same
      subst same
      rcases ih few with ⟨n, few, same⟩ | few
      · exact .inl ⟨n + 1, by omega, by rw [same, List.replicate_succ]⟩
      · refine .inr fun r => ?_
        have := few r
        rw [List.cons_append, runLength_cons]
        omega
    · rename_i other
      refine .inr fun r => ?_
      rw [List.cons_append, runLength_other other]
      omega

/-- A text without a run of quotes has none of them. -/
theorem not_mem_of_longestRun (none : longestRun quote run cs = 0) : run = 0 ∧ quote ∉ cs := by
  induction cs generalizing run with
  | nil => exact ⟨none, List.not_mem_nil⟩
  | cons c cs ih =>
    rw [longestRun] at none
    split at none
    · cases (ih none).1
    · rename_i other
      have parts := Nat.max_eq_zero_iff.1 none
      refine ⟨parts.1, fun mem => ?_⟩
      rcases List.mem_cons.1 mem with same | mem
      · exact other same.symm
      · exact (ih parts.2).2 mem

/-- Three quotes close a text, and those before them belong to it. -/
theorem run_closingRun {n : ℕ} (few : n ≤ 2) (clear : r.head? ≠ some quote) :
    (closingRun quote).run (List.replicate n quote ++ (List.replicate 3 quote ++ r)) =
      some (List.replicate n quote, r) := by
  have all : List.replicate n quote ++ (List.replicate 3 quote ++ r) =
      List.replicate (n + 3) quote ++ r := by
    rw [← List.append_assoc, List.replicate_append_replicate]
  have extra : min (n + 3 - 3) 2 = n := by omega
  rw [closingRun, run_get, all, runLength_replicate clear]
  dsimp only
  rw [extra, List.drop_left' (List.length_replicate ..)]
  rfl

/-- Readers of a text over several lines that three quotes close: with fewer of them at hand, one
is taken. -/
def Closes (quote : Char) (rest : ℕ → Scan (List Char)) : Prop :=
  ∀ fuel cs, (rest (fuel + 1)).run (quote :: cs) =
    (if 2 ≤ runLength quote cs then closingRun quote
      else do
        set cs
        return quote :: (← rest fuel)).run (quote :: cs)

namespace Closes

variable {rest : ℕ → Scan (List Char)} {ds : List Char}

theorem one (closes : Closes quote rest) (few : runLength quote cs < 2)
    (next : (rest fuel).run cs = some (ds, r)) :
    (rest (fuel + 1)).run (quote :: cs) = some (quote :: ds, r) := by
  rw [closes, if_neg (Nat.not_le.2 few), run_set, run_bind_some next]
  rfl

theorem all (closes : Closes quote rest) {n : ℕ} (few : n ≤ 2) (clear : r.head? ≠ some quote) :
    (rest (fuel + 1)).run (List.replicate n quote ++ (List.replicate 3 quote ++ r)) =
      some (List.replicate n quote, r) := by
  have same : List.replicate n quote ++ (List.replicate 3 quote ++ r) =
      quote :: (List.replicate (n + 2) quote ++ r) := by
    rw [← List.append_assoc, List.replicate_append_replicate]
    rfl
  have three : 2 ≤ runLength quote (List.replicate (n + 2) quote ++ r) := by
    rw [runLength_replicate clear]
    omega
  rw [same, closes, if_pos three, ← same]
  exact run_closingRun few clear

end Closes

/-! ## Between double quotes -/

variable {ds : List Char} {piece : List Char}

theorem run_basicRest_piece (h : Piece false c piece)
    (rest : (basicRest fuel).run cs = some (ds, r)) :
    (basicRest (fuel + 1)).run (piece ++ cs) = some (c :: ds, r) := by
  cases h with
  | plain basic =>
    have other : c ≠ '"' ∧ c ≠ '\\' := by
      constructor <;> rintro rfl <;> cases basic
    show (basicRest (fuel + 1)).run (c :: cs) = _
    rw [basicRest, run_get]
    split
    · exact absurd (List.cons.inj ‹_›).1 other.1
    · exact absurd (List.cons.inj ‹_›).1 other.2
    · rename_i same
      cases same
      rw [if_pos basic, run_set, run_bind_some rest]
      rfl
    · rename_i none
      cases none
  | lineEnd several => cases several
  | escape escapes =>
    show (do let c ← escapeChar; return c :: (← basicRest fuel) : Scan _).run (_ ++ cs) = _
    rw [run_bind_some (escapes.reads cs), run_bind_some rest]
    rfl

/-- What is escaped is read up to the closing quote. -/
theorem run_basicRest (enough : cs.length ≤ fuel) :
    (basicRest (fuel + 1)).run (escaped false 0 0 cs ++ '"' :: r) = some (cs, r) := by
  induction cs generalizing fuel with
  | nil => rfl
  | cons c cs ih =>
    cases fuel with
    | zero => nomatch enough
    | succ fuel =>
      obtain ⟨piece, is, same⟩ := escaped_piece (c := c) false cs fun _ => Nat.not_lt_zero 0
      rw [same, List.append_assoc]
      exact run_basicRest_piece is (ih (Nat.le_of_succ_le_succ enough))

/-! ## Between three double quotes -/

/-- A backslash that is not at the end of its line starts an escape. -/
theorem run_basicLines_escape (starts : isBlankChar c = false ∧ c ≠ '\n' ∧ c ≠ '\r') :
    (basicLines (fuel + 1)).run ('\\' :: c :: cs) =
      (do
        let d ← escapeChar
        return d :: (← basicLines fuel) : Scan (List Char)).run (c :: cs) := by
  have stays : (c :: cs).dropWhile isBlankChar = c :: cs :=
    List.dropWhile_cons_of_neg (Bool.eq_false_iff.1 starts.1)
  have goesOn : ¬(((c :: cs).head? == some '\n') || ((c :: cs).head? == some '\r')) = true := by
    simp [starts.2]
  rw [basicLines, run_get]
  dsimp only
  refine run_set _ |>.trans ?_
  rw [stays, if_neg goesOn]

theorem run_basicLines_piece (h : Piece true c piece)
    (rest : (basicLines fuel).run cs = some (ds, r)) :
    (basicLines (fuel + 1)).run (piece ++ cs) = some (c :: ds, r) := by
  cases h with
  | plain basic =>
    have other : c ≠ '"' ∧ c ≠ '\\' ∧ c ≠ '\n' ∧ c ≠ '\r' := by
      refine ⟨?_, ?_, ?_, ?_⟩ <;> rintro rfl <;> cases basic
    show (basicLines (fuel + 1)).run (c :: cs) = _
    rw [basicLines, run_get]
    split
    · exact absurd (List.cons.inj ‹_›).1 other.1
    · exact absurd (List.cons.inj ‹_›).1 other.2.1
    · exact absurd (List.cons.inj ‹_›).1 other.2.2.1
    · exact absurd (List.cons.inj ‹_›).1 other.2.2.2
    · rename_i same
      cases same
      rw [if_pos basic, run_set, run_bind_some rest]
      rfl
    · rename_i none
      cases none
  | lineEnd _ ends =>
    subst ends
    show (do return '\n' :: (← basicLines fuel) : Scan _).run cs = _
    rw [run_bind_some rest]
    rfl
  | escape escapes =>
    rename_i letters
    obtain ⟨d, letters, rfl⟩ := List.exists_cons_of_ne_nil escapes.some
    refine (run_basicLines_escape (escapes.starts d rfl)).trans ?_
    refine (run_bind_some (escapes.reads cs)).trans ?_
    rw [run_bind_some rest]
    rfl

theorem closes_basicLines : Closes '"' basicLines := fun _ _ => rfl

/-- What is escaped over several lines is read up to the three closing quotes. -/
theorem run_basicLines (before : run ≤ 2) (clear : r.head? ≠ some '"')
    (enough : cs.length ≤ fuel) :
    (basicLines (fuel + 1)).run (escaped true 2 run cs ++ (List.replicate 3 '"' ++ r)) =
      some (cs, r) := by
  induction cs generalizing fuel run with
  | nil => exact closes_basicLines.all (n := 0) (Nat.zero_le 2) clear
  | cons c cs ih =>
    cases fuel with
    | zero => nomatch enough
    | succ fuel =>
      have left : cs.length ≤ fuel := Nat.le_of_succ_le_succ enough
      by_cases raw : c = '"' ∧ run < 2
      · obtain ⟨rfl, less⟩ := raw
        rw [escaped_quote less]
        -- the quotes after this one are all that is left, or too few to close the text
        rcases escaped_starts true cs (show run + 1 ≤ 2 from less) with
          ⟨n, few, same, kept⟩ | few
        · rw [kept, same]
          exact closes_basicLines.all (n := n + 1) (by omega) clear
        · have next := Nat.lt_of_lt_of_le (Nat.lt_add_of_pos_right (Nat.succ_pos run))
            (few (List.replicate 3 '"' ++ r))
          exact closes_basicLines.one next (ih less left)
      · obtain ⟨piece, is, same⟩ := escaped_piece true cs fun quote less => raw ⟨quote, less⟩
        rw [same, List.append_assoc]
        exact run_basicLines_piece is (ih (Nat.zero_le 2) left)

/-! ## Between single quotes -/

theorem isLiteralChar_of_not_isForbidden (h : isForbidden c = false) (ends : c ≠ '\n')
    (quote : c ≠ singleQuote) : isLiteralChar c = true := by
  have other : c.toNat ≠ 39 := fun same => quote (by rw [← Char.ofNat_toNat c, same]; rfl)
  simp [isLiteralChar, isCommentChar_of_not_isForbidden h ends, other]

theorem run_literalText (plain : ∀ c ∈ cs, isLiteralChar c = true) :
    literalText.run (singleQuote :: (cs ++ singleQuote :: r)) = some (String.ofList cs, r) := by
  have stop : ∀ c ∈ (singleQuote :: r).head?, isLiteralChar c = false := by
    rintro c ⟨⟩
    decide
  rw [literalText, run_bind_some run_char, run_bind_some (run_takeWhile plain stop),
    run_bind_some run_char]
  rfl

/-! ## Between three single quotes -/

theorem closes_literalLines : Closes singleQuote literalLines := fun _ _ => rfl

theorem run_literalLines_plain (other : c ≠ singleQuote) (allowed : isForbidden c = false)
    (rest : (literalLines fuel).run cs = some (ds, r)) :
    (literalLines (fuel + 1)).run (c :: cs) = some (c :: ds, r) := by
  rw [literalLines, run_get]
  split
  · rename_i same
    cases same
    rw [run_set, run_bind_some rest]
    rfl
  · rename_i same
    cases same
    cases allowed
  · rename_i ends _ same
    cases same
    have literal := isLiteralChar_of_not_isForbidden allowed (fun same => ends same) other
    rw [if_neg other, if_pos literal, run_set, run_bind_some rest]
    rfl
  · rename_i none
    cases none

/-- What stands as it is over several lines is read up to the three closing quotes. -/
theorem run_literalLines (plain : ∀ c ∈ cs, isForbidden c = false)
    (few : longestRun singleQuote run cs ≤ 2) (clear : r.head? ≠ some singleQuote)
    (enough : cs.length ≤ fuel) :
    (literalLines (fuel + 1)).run (cs ++ (List.replicate 3 singleQuote ++ r)) = some (cs, r) := by
  induction cs generalizing fuel run with
  | nil => exact closes_literalLines.all (n := 0) (Nat.zero_le 2) clear
  | cons c cs ih =>
    cases fuel with
    | zero => nomatch enough
    | succ fuel =>
      have left : cs.length ≤ fuel := Nat.le_of_succ_le_succ enough
      rw [List.forall_mem_cons] at plain
      rw [longestRun] at few
      split at few
      · rename_i same
        subst same
        rcases literal_starts few with ⟨n, less, same⟩ | less
        · rw [same]
          exact closes_literalLines.all (n := n + 1) (by omega) clear
        · have next := Nat.lt_of_lt_of_le (Nat.lt_add_of_pos_right (Nat.succ_pos run))
            (less (List.replicate 3 singleQuote ++ r))
          exact closes_literalLines.one next (ih plain.2 few left)
      · rename_i other
        exact run_literalLines_plain other plain.1 (ih plain.2 (Nat.max_le.1 few).2 left)

/-! ## All forms -/

/-- A quote of either kind. -/
def isQuote (c : Char) : Bool :=
  c == '"' || c == singleQuote

theorem run_firstLineEnd {inner : List Char}
    (starts : '\n' ∉ cs → ∀ c ∈ inner.head?, c ≠ '\n' ∧ c ≠ '\r') :
    firstLineEnd.run ((if cs.contains '\n' then ['\n'] else []) ++ inner) = some ((), inner) := by
  split
  · rfl
  · rename_i one
    rw [List.contains_iff_mem] at one
    show firstLineEnd.run inner = _
    rw [firstLineEnd, run_get]
    split
    · exact absurd rfl (starts one _ rfl).1
    · exact absurd rfl (starts one _ rfl).2
    · rfl

/-- What is written of a single line starts with no end of a line. -/
theorem escaped_head (one : '\n' ∉ cs) :
    ∀ c ∈ (escaped true 2 0 cs ++ (List.replicate 3 '"' ++ r)).head?, c ≠ '\n' ∧ c ≠ '\r' := by
  cases cs with
  | nil =>
    rintro c ⟨⟩
    decide
  | cons d cs =>
    by_cases raw : d = '"'
    · rw [raw, escaped_quote (by decide)]
      rintro c ⟨⟩
      decide
    · obtain ⟨piece, is, same⟩ := escaped_piece true cs
        fun (quote : d = '"') (_ : 0 < 2) => raw quote
      rw [same]
      cases is with
      | plain basic =>
        rintro c ⟨⟩
        constructor <;> rintro rfl <;> cases basic
      | lineEnd _ ends => exact absurd (ends ▸ List.mem_cons_self) one
      | escape =>
        rintro c ⟨⟩
        decide

/-- What is between three quotes comes after the end of the line that they stand on, if there are
several lines. -/
theorem run_opening {inner : List Char}
    (starts : '\n' ∉ cs → ∀ c ∈ inner.head?, c ≠ '\n' ∧ c ≠ '\r')
    (f : PUnit → Scan α) :
    (set ((List.replicate 3 quote ++ ((if cs.contains '\n' then ['\n'] else []) ++ inner)).drop 3)
      >>= fun _ => firstLineEnd >>= f).run r = (f ⟨⟩).run inner := by
  rw [List.drop_left' (List.length_replicate ..), run_set, run_bind_some (run_firstLineEnd starts)]

/-- A text is escaped, or it is one that can stand between single quotes as it is. -/
theorem formOf_cases (cs : List Char) :
    formOf cs = ⟨'"', 1, true⟩ ∨ formOf cs = ⟨'"', 3, true⟩ ∨
      (∀ c ∈ cs, isForbidden c = false) ∧
        (formOf cs = ⟨singleQuote, 1, false⟩ ∧ singleQuote ∉ cs ∧ '\n' ∉ cs ∨
          formOf cs = ⟨singleQuote, 3, false⟩ ∧ longestRun singleQuote 0 cs ≤ 2) := by
  have plainly : (cs.all fun c => !isForbidden c) = true → ∀ c ∈ cs, isForbidden c = false := by
    simp
  unfold formOf
  extract_lets single plain lines noEscape
  split
  · exact .inl rfl
  split
  · rename_i _ fits
    simp only [Bool.and_eq_true, beq_iff_eq, Bool.not_eq_true'] at fits
    refine .inr (.inr ⟨plainly fits.1.1, .inl ⟨rfl, (not_mem_of_longestRun fits.1.2).2, ?_⟩⟩)
    simpa [lines] using fits.2
  split
  · exact .inr (.inl rfl)
  split
  · rename_i _ fits
    simp only [Bool.and_eq_true, decide_eq_true_eq] at fits
    exact .inr (.inr ⟨plainly fits.1, .inr ⟨rfl, fits.2⟩⟩)
  · split
    · exact .inr (.inl rfl)
    · exact .inl rfl

theorem run_basicText (cs r : List Char) :
    basicText.run ('"' :: (escaped false 0 0 cs ++ '"' :: r)) = some (String.ofList cs, r) := by
  have enough : cs.length ≤ (escaped false 0 0 cs ++ '"' :: r).length := by
    have := length_le_escaped false 0 0 cs
    rw [List.length_append]
    omega
  rw [basicText, run_bind_some run_char, run_get, run_bind_some (run_basicRest enough)]
  rfl

variable (clear : ∀ c ∈ r.head?, isQuote c = false)

include clear

theorem head?_ne_of_clear (quote : Char) (h : isQuote quote = true) : r.head? ≠ some quote := by
  intro same
  rw [clear quote same] at h
  cases h

/-- Quotes that are no part of the text between them do not make three in a row. -/
theorem runLength_lt_three (quote : Char) {inner : List Char} (h : isQuote quote = true)
    (starts : inner = [] ∨ ∀ r, runLength quote (inner ++ r) = 0) :
    runLength quote (quote :: (inner ++ quote :: r)) < 3 := by
  rw [runLength_cons]
  rcases starts with rfl | none
  · rw [List.nil_append, runLength_cons, runLength_clear (head?_ne_of_clear clear quote h)]
    decide
  · rw [none]
    decide

theorem textValue_basic (cs : List Char) :
    textValue.run (textIn ⟨'"', 1, true⟩ cs ++ r) = some (String.ofList cs, r) := by
  have starts : escaped false 0 0 cs = [] ∨ ∀ r, runLength '"' (escaped false 0 0 cs ++ r) = 0 := by
    rcases escaped_starts false cs (Nat.le_refl 0) with
      ⟨n, few, same, kept⟩ | none
    · obtain rfl : n = 0 := Nat.le_zero.1 few
      exact .inl (by rw [kept, same]; rfl)
    · exact .inr fun r => Nat.le_zero.1 (none r)
  have text : textIn ⟨'"', 1, true⟩ cs ++ r = '"' :: (escaped false 0 0 cs ++ '"' :: r) := by
    simp [textIn]
  have double := runLength_lt_three clear '"' (by decide) starts
  have single : runLength singleQuote ('"' :: (escaped false 0 0 cs ++ '"' :: r)) = 0 :=
    runLength_other (by decide)
  rw [text, textValue, run_get, if_neg (Nat.not_le.2 double), single, if_neg (by decide)]
  exact run_basicText cs r

theorem textValue_literal (plain : ∀ c ∈ cs, isForbidden c = false) (quote : singleQuote ∉ cs)
    (ends : '\n' ∉ cs) :
    textValue.run (textIn ⟨singleQuote, 1, false⟩ cs ++ r) = some (String.ofList cs, r) := by
  have starts : cs = [] ∨ ∀ r, runLength singleQuote (cs ++ r) = 0 := by
    cases cs with
    | nil => exact .inl rfl
    | cons c cs =>
      exact .inr fun r => runLength_other fun same => quote (same ▸ List.mem_cons_self)
  have text : textIn ⟨singleQuote, 1, false⟩ cs ++ r =
      singleQuote :: (cs ++ singleQuote :: r) := by
    simp [textIn]
  have double : runLength '"' (singleQuote :: (cs ++ singleQuote :: r)) = 0 :=
    runLength_other (by decide)
  have single := runLength_lt_three clear singleQuote (by decide) starts
  have other : ¬((singleQuote :: (cs ++ singleQuote :: r)).head? == some '"') = true :=
    Bool.false_ne_true
  rw [text, textValue, run_get, double, if_neg (by decide), if_neg (Nat.not_le.2 single),
    if_neg other]
  exact run_literalText fun c hc => isLiteralChar_of_not_isForbidden (plain c hc)
    (fun same => ends (same ▸ hc)) fun same => quote (same ▸ hc)

theorem textValue_basicLines (cs : List Char) :
    textValue.run (textIn ⟨'"', 3, true⟩ cs ++ r) = some (String.ofList cs, r) := by
  have text : textIn ⟨'"', 3, true⟩ cs ++ r = List.replicate 3 '"' ++
      ((if cs.contains '\n' then ['\n'] else []) ++
        (escaped true 2 0 cs ++ (List.replicate 3 '"' ++ r))) := by
    simp only [textIn, true_and, if_true, decide_true, List.append_assoc]
  have enough : cs.length ≤ (escaped true 2 0 cs ++ (List.replicate 3 '"' ++ r)).length := by
    have := length_le_escaped true 2 0 cs
    rw [List.length_append]
    omega
  have closed := head?_ne_of_clear clear '"' (by decide)
  rw [text, textValue, run_get, if_pos (three_le_runLength _), run_opening escaped_head, run_get,
    run_bind_some (run_basicLines (Nat.zero_le 2) closed enough)]
  rfl

theorem textValue_literalLines (plain : ∀ c ∈ cs, isForbidden c = false)
    (few : longestRun singleQuote 0 cs ≤ 2) :
    textValue.run (textIn ⟨singleQuote, 3, false⟩ cs ++ r) = some (String.ofList cs, r) := by
  have text : textIn ⟨singleQuote, 3, false⟩ cs ++ r = List.replicate 3 singleQuote ++
      ((if cs.contains '\n' then ['\n'] else []) ++
        (cs ++ (List.replicate 3 singleQuote ++ r))) := by
    simp only [textIn, true_and, List.append_assoc]
    rfl
  have starts : '\n' ∉ cs →
      ∀ c ∈ (cs ++ (List.replicate 3 singleQuote ++ r)).head?, c ≠ '\n' ∧ c ≠ '\r' := by
    intro one
    cases cs with
    | nil =>
      rintro c ⟨⟩
      decide
    | cons d cs =>
      rintro c ⟨⟩
      refine ⟨fun same => one (same ▸ List.mem_cons_self), ?_⟩
      rintro rfl
      cases plain _ List.mem_cons_self
  have enough : cs.length ≤ (cs ++ (List.replicate 3 singleQuote ++ r)).length := by
    rw [List.length_append]
    omega
  have double : runLength '"' (List.replicate 3 singleQuote ++
      ((if cs.contains '\n' then ['\n'] else []) ++
        (cs ++ (List.replicate 3 singleQuote ++ r)))) = 0 :=
    runLength_other (by decide)
  have closed := head?_ne_of_clear clear singleQuote (by decide)
  rw [text, textValue, run_get, double, if_neg (by decide), if_pos (three_le_runLength _),
    run_opening starts, run_get, run_bind_some (run_literalLines plain few closed enough)]
  rfl

/-- **A text is read back from the form it is written in.** -/
theorem run_textValue (s : String) :
    textValue.run ((TomlScalar.quoted s).toList ++ r) = some (s, r) := by
  have read : textValue.run (textIn (formOf s.toList) s.toList ++ r) =
      some (String.ofList s.toList, r) := by
    rcases formOf_cases s.toList with form | form | ⟨plain, ⟨form, quote, ends⟩ | ⟨form, few⟩⟩ <;>
      rw [form]
    · exact textValue_basic clear _
    · exact textValue_basicLines clear _
    · exact textValue_literal clear plain quote ends
    · exact textValue_literalLines clear plain few
  rw [TomlScalar.quoted, String.toList_ofList, read, String.ofList_toList]

end ChargeLink.Toml
