import ChargeLink.Frame.Codec
import Mathlib.Data.Nat.Notation
import Mathlib.Tactic.Common

/-!
# Texts that are no frames

A text that is no frame is read a second time, for the id to refuse it with. Both
readings see the same array. If it starts with a number and an id, and does not
claim to be an answer, then one of three things is wrong with it.

* `Frame.answerable?_eq_some_iff`: which texts can be refused.
* `Frame.fault_iff_miscall`: what is wrong with them is what the code of their fault says.
-/

namespace ChargeLink.Frame

variable {text id : String} {n : ℕ} {items : List Json} {code : ErrorCode}

/-- The text is an array that starts with a number and an id. -/
structure Heads (text : String) (n : ℕ) (id : String) (items : List Json) : Prop where
  array : Json.ofText? text = some (.arr items)
  number : (items[0]?).bind Json.word? = some n
  id : (items[1]?).bind Json.text? = some id

/-- What is wrong with an array that claims to be a call or nothing known, and the code it is
refused with. -/
inductive Miscall (n : ℕ) (items : List Json) : ErrorCode → Prop
  /-- The number is that of no kind of frame. -/
  | unknown (strange : n ≠ FrameKind.call.number) : Miscall n items .messageTypeNotSupported
  /-- There are too few items for a call. -/
  | short (call : n = FrameKind.call.number) (short : items.length < FrameKind.call.least) :
      Miscall n items .protocolError
  /-- The action is no text. -/
  | speechless (call : n = FrameKind.call.number) (long : FrameKind.call.least ≤ items.length)
      (action : (items[2]?).bind Json.text? = none) : Miscall n items .formationViolation

/-- An array of two items or more, taken apart. -/
theorem Heads.exists_cons (h : Heads text n id items) : ∃ first second rest,
    items = first :: second :: rest ∧ first.word? = some n ∧ second.text? = some id := by
  obtain ⟨-, number, name⟩ := h
  match items with
  | [] => cases number
  | [_] => cases name
  | first :: second :: rest => exact ⟨first, second, rest, rfl, number, name⟩

theorem salvage?_eq_some_iff : salvage? text = some (n, id) ↔ ∃ items, Heads text n id items := by
  constructor
  · intro h
    unfold salvage? at h
    split at h
    · rename_i first second rest array
      split at h
      · rename_i number name
        cases h
        exact ⟨_, array, number, name⟩
      · cases h
    · cases h
  · rintro ⟨items, heads⟩
    obtain ⟨first, second, rest, rfl, number, name⟩ := heads.exists_cons
    simp [salvage?, heads.array, number, name]

/-- **A text can be refused if it starts with a number and an id**, and does not claim to be an
answer. -/
theorem answerable?_eq_some_iff : answerable? text = some id ↔ ∃ n items,
    Heads text n id items ∧ n ≠ FrameKind.result.number ∧ n ≠ FrameKind.error.number := by
  unfold answerable?
  cases salvaged : salvage? text with
  | none =>
    have : ¬∃ n items, Heads text n id items := by
      rintro ⟨n, heads⟩
      rw [salvage?_eq_some_iff.2 heads] at salvaged
      cases salvaged
    simp only [reduceCtorEq, false_iff, not_exists, not_and] at this ⊢
    exact fun n items heads => absurd heads (this n items)
  | some r =>
    obtain ⟨m, i⟩ := r
    obtain ⟨items, heads⟩ := salvage?_eq_some_iff.1 salvaged
    -- whatever heads the text has been salvaged from it
    have same : ∀ {n id items'}, Heads text n id items' → n = m ∧ id = i := by
      intro n id items' h
      have := salvaged.symm.trans (salvage?_eq_some_iff.2 ⟨items', h⟩)
      simpa [eq_comm] using this
    constructor
    · intro h
      dsimp only at h
      split at h
      · cases h
      · rename_i asks
        cases h
        exact ⟨m, items, heads, not_or.1 asks⟩
    · rintro ⟨n, items', h, asks⟩
      obtain ⟨rfl, rfl⟩ := same h
      simp [asks]

/-! ## The two readings -/

/-- An array with a number of its own is no frame. -/
theorem ofText_strange (heads : Heads text n id items) (strange : FrameKind.ofNumber? n = none) :
    ofText text = .error (.unknownKind n) := by
  obtain ⟨first, second, rest, rfl, number, -⟩ := heads.exists_cons
  simp [ofText, heads.array, ofJson, number, strange]

/-- A short call is no frame. -/
theorem ofText_short (heads : Heads text n id items) (call : n = FrameKind.call.number)
    (short : items.length < FrameKind.call.least) :
    ofText text = .error (.tooShort .call items.length) := by
  have kind : FrameKind.ofNumber? n = some .call := by rw [call]; rfl
  obtain ⟨first, second, rest, rfl, number, -⟩ := heads.exists_cons
  simp only [List.length_cons] at short
  simp [ofText, heads.array, ofJson, number, kind, short]

/-- A long call is read if its action is. -/
theorem ofText_long (heads : Heads text n id items) (call : n = FrameKind.call.number)
    (long : FrameKind.call.least ≤ items.length) :
    ofText text = match (items[2]?).bind Json.text? with
      | some action => .ok (.call id action (Json.orNull items[3]?))
      | none => .error (.notText .action) := by
  have kind : FrameKind.ofNumber? n = some .call := by rw [call]; rfl
  have isLong : ¬items.length < FrameKind.call.least := Nat.not_lt.2 long
  obtain ⟨first, second, rest, rfl, number, name⟩ := heads.exists_cons
  simp only [List.length_cons] at isLong
  cases action : (rest[0]?).bind Json.text? <;>
    simp [ofText, heads.array, ofJson, number, kind, isLong, ofItems, textAt, name, action, bind,
      Except.bind, pure, Except.pure]

/-- What is wrong is the fault of the text. -/
theorem Miscall.fault (heads : Heads text n id items) (noResult : n ≠ FrameKind.result.number)
    (noError : n ≠ FrameKind.error.number) (miscall : Miscall n items code) :
    ∃ fault, ofText text = .error fault ∧ fault.code = code := by
  cases miscall with
  | unknown noCall =>
    have strange : FrameKind.ofNumber? n = none := by
      unfold FrameKind.ofNumber?
      split <;> simp_all [FrameKind.number]
    exact ⟨_, ofText_strange heads strange, rfl⟩
  | short call short => exact ⟨_, ofText_short heads call short, rfl⟩
  | speechless call long action =>
    refine ⟨.notText .action, ?_, rfl⟩
    rw [ofText_long heads call long, action]

/-- **The code of a text that is no frame says what is wrong with it**, and a text with something
wrong is no frame. -/
theorem fault_iff_miscall (heads : Heads text n id items) (noResult : n ≠ FrameKind.result.number)
    (noError : n ≠ FrameKind.error.number) :
    (∃ fault, ofText text = .error fault ∧ fault.code = code) ↔ Miscall n items code := by
  refine ⟨?_, Miscall.fault heads noResult noError⟩
  rintro ⟨fault, fails, rfl⟩
  -- what is found wrong has the fault that the text has
  have found : ∀ {code}, Miscall n items code → Miscall n items fault.code := by
    intro code miscall
    obtain ⟨fault', fails', rfl⟩ := miscall.fault heads noResult noError
    cases fails.symm.trans fails'
    exact miscall
  by_cases call : n = FrameKind.call.number
  · rcases Nat.lt_or_ge items.length FrameKind.call.least with short | long
    · exact found (.short call short)
    · cases action : (items[2]?).bind Json.text? with
      | none => exact found (.speechless call long action)
      | some a =>
        rw [ofText_long heads call long, action] at fails
        cases fails
  · exact found (.unknown call)

end ChargeLink.Frame
