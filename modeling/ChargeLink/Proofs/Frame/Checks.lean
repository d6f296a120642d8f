import ChargeLink.Proofs.Frame.ReadBack
import ChargeLink.Proofs.Frame.Salvage
import Mathlib.Tactic.Tauto

/-!
# The checks of a frame

Whether a text is a frame is found out by eight checks, one after the other. Each
of them is stated here for any text (`FrameCheck.Passes`), so that the order is
seen from outside: the fault of a text belongs to the first check that it fails.
The length is checked before the items are read by their positions, and this is
what keeps the reading within them.

* `Frame.ofText_eq_ok_iff`: which texts are read as which frame.
* `Frame.ofText_eq_error_iff`: the fault of a text is that of the first check it fails.
* `Frame.run_reading`: no item is asked for that is not there.
* `Frame.ofText_checks`: all of this, and what the salvaged heading has to do with it.
-/

namespace ChargeLink

/-- What a text is checked for, in this order. -/
inductive FrameCheck where
  | json
  | array
  | nonempty
  | number
  | known
  | length
  | id
  | word
  deriving DecidableEq

namespace FrameCheck

/-- The place of the check in the order. -/
def rank : FrameCheck → ℕ
  | json => 0
  | array => 1
  | nonempty => 2
  | number => 3
  | known => 4
  | length => 5
  | id => 6
  | word => 7

theorem rank_inj {c d : FrameCheck} (h : c.rank = d.rank) : c = d := by
  cases c <;> cases d <;> first | rfl | cases h

end FrameCheck

/-- The text is an array that starts with the number of a kind. -/
structure Frame.Opens (text : String) (kind : FrameKind) (items : List Json) : Prop where
  array : Json.ofText? text = some (.arr items)
  number : (items[0]?).bind Json.word? = some kind.number

/-- Whether a text passes a check. -/
def FrameCheck.Passes (text : String) : FrameCheck → Prop
  | json => ∃ v, Json.ofText? text = some v
  | array => ∃ items, Json.ofText? text = some (.arr items)
  | nonempty => ∃ items, Json.ofText? text = some (.arr items) ∧ items ≠ []
  | number => ∃ items n, Json.ofText? text = some (.arr items) ∧
      (items[0]?).bind Json.word? = some n
  | known => ∃ kind items, Frame.Opens text kind items
  | length => ∃ kind items, Frame.Opens text kind items ∧ kind.least ≤ items.length
  | id => ∃ items id, Json.ofText? text = some (.arr items) ∧ items[1]? = some (.str id)
  | word => ∃ kind items, Frame.Opens text kind items ∧
      (kind = .result ∨ ∃ word, items[2]? = some (.str word))

/-- Each of the first five checks takes up what the one before has found. -/
theorem FrameCheck.Passes.before {text : String} {c d : FrameCheck} (h : d.Passes text)
    (before : c.rank ≤ d.rank) (early : d.rank ≤ FrameCheck.known.rank) : c.Passes text := by
  have json : FrameCheck.array.Passes text → FrameCheck.json.Passes text :=
    fun ⟨_, read⟩ => ⟨_, read⟩
  have array : FrameCheck.nonempty.Passes text → FrameCheck.array.Passes text :=
    fun ⟨items, read, _⟩ => ⟨items, read⟩
  have nonempty : FrameCheck.number.Passes text → FrameCheck.nonempty.Passes text := by
    rintro ⟨items, n, json, number⟩
    refine ⟨items, json, ?_⟩
    rintro rfl
    cases number
  have number : FrameCheck.known.Passes text → FrameCheck.number.Passes text :=
    fun ⟨_, items, opens⟩ => ⟨items, _, opens.array, opens.number⟩
  cases d <;> cases c <;> simp [FrameCheck.rank] at before early <;> tauto

/-- The check that a fault belongs to. -/
def FrameFault.check : FrameFault → FrameCheck
  | notJson => .json
  | notArray => .array
  | empty => .nonempty
  | badKind => .number
  | unknownKind _ => .known
  | tooShort .. => .length
  | notText .uniqueId => .id
  | notText .action => .word
  | notText .errorCode => .word

/-- What a fault tells of the text beside the check it fails is right. -/
def FrameFault.Fits (text : String) : FrameFault → Prop
  | unknownKind n => ∃ items, Json.ofText? text = some (.arr items) ∧
      (items[0]?).bind Json.word? = some n
  | tooShort kind got => ∃ items, Frame.Opens text kind items ∧ got = items.length
  | notText .action => ∃ items, Frame.Opens text .call items
  | notText .errorCode => ∃ items, Frame.Opens text .error items
  | _ => True

/-- The fault belongs to the first check that the text fails. -/
structure FrameFault.First (text : String) (fault : FrameFault) : Prop where
  earlier : ∀ c : FrameCheck, c.rank < fault.check.rank → c.Passes text
  fails : ¬fault.check.Passes text
  fits : fault.Fits text

namespace Frame

variable {text : String} {kind kind' : FrameKind} {items items' : List Json} {f : Frame}
  {fault : FrameFault} {n : ℕ}

/-! ## Which texts are frames -/

/-- The items spell the frame. What comes after them is of no importance, but the details of a
refusal. -/
inductive Spells : List Json → Frame → Prop
  | call (id action : String) (payload : Json) (rest : List Json) :
      Spells (.int 2 :: .str id :: .str action :: payload :: rest) (.call id action payload)
  | result (id : String) (payload : Json) (rest : List Json) :
      Spells (.int 3 :: .str id :: payload :: rest)
        (.result id (if payload.isNull then .empty else payload))
  | error (id code : String) (description : Json) (rest : List Json) :
      Spells (.int 4 :: .str id :: .str code :: description :: rest)
        (.error id code (description.text?.getD "") (rest[0]?.getD .empty))

theorem eq_int_of_word? {v : Json} (h : v.word? = some n) : v = .int n := by
  cases v with
  | int i =>
    simp only [Json.word?] at h
    split at h
    · rename_i range
      cases h
      rw [Int.toNat_of_nonneg range.1]
    · cases h
  | _ => cases h

theorem text?_eq_some_iff {v : Json} {s : String} : v.text? = some s ↔ v = .str s := by
  cases v <;> simp [Json.text?]

theorem ofNumber?_eq_some_iff : FrameKind.ofNumber? n = some kind ↔ n = kind.number := by
  constructor
  · intro h
    unfold FrameKind.ofNumber? at h
    split at h <;> cases h <;> rfl
  · rintro rfl
    exact FrameKind.ofNumber?_number kind

theorem number_injective (h : kind.number = kind'.number) : kind = kind' := by
  cases kind <;> cases kind' <;> first | rfl | cases h

namespace Opens

theorem items_eq (h : Opens text kind items) (h' : Opens text kind' items') :
    kind = kind' ∧ items = items' := by
  have same := h.array.symm.trans h'.array
  simp only [Option.some.injEq, Json.arr.injEq] at same
  subst same
  have number := h.number.symm.trans h'.number
  simp only [Option.some.injEq] at number
  exact ⟨number_injective number, rfl⟩

/-- There is a first item, and it is the number. -/
theorem exists_cons (h : Opens text kind items) : ∃ first rest, items = first :: rest ∧
    first.word? = some kind.number ∧ first = .int kind.number := by
  have number := h.number
  cases items with
  | nil => cases number
  | cons first rest => exact ⟨first, rest, rfl, number, eq_int_of_word? number⟩

/-- The reading is down to the items, once they are known to be long enough. -/
theorem ofText_eq (h : Opens text kind items) : ofText text =
    if items.length < kind.least then .error (.tooShort kind items.length)
    else ofItems kind items := by
  obtain ⟨first, rest, rfl, number, -⟩ := h.exists_cons
  simp [ofText, h.array, ofJson, number, FrameKind.ofNumber?_number]

end Opens

/-- **A text opens like a frame, or it fails one of the first checks** and has the fault of that
check. -/
theorem opens_or (text : String) : (∃ kind items, Opens text kind items) ∨
    ∃ fault : FrameFault, ofText text = .error fault ∧ fault.First text := by
  cases json : Json.ofText? text with
  | none =>
    refine .inr ⟨.notJson, by simp [ofText, json], ?_, ?_, trivial⟩
    · intro c before
      simp [FrameFault.check, FrameCheck.rank] at before
    · rintro ⟨v, read⟩
      cases json.symm.trans read
  | some v =>
    have isJson : FrameCheck.json.Passes text := ⟨v, json⟩
    by_cases array : ∃ items, v = .arr items
    swap
    · refine .inr ⟨.notArray, ?_, ?_, ?_, trivial⟩
      · simp only [ofText, json]
        unfold ofJson
        split
        · exact absurd ⟨_, rfl⟩ array
        · exact absurd ⟨_, rfl⟩ array
        · rfl
      · exact fun c before => isJson.before (Nat.le_of_lt_succ before) (by decide)
      · rintro ⟨items, read⟩
        cases json.symm.trans read
        exact array ⟨_, rfl⟩
    obtain ⟨items, rfl⟩ := array
    have isArray : FrameCheck.array.Passes text := ⟨items, json⟩
    cases items with
    | nil =>
      refine .inr ⟨.empty, by simp [ofText, json, ofJson], ?_, ?_, trivial⟩
      · exact fun c before => isArray.before (Nat.le_of_lt_succ before) (by decide)
      · rintro ⟨items, read, nonempty⟩
        cases json.symm.trans read
        exact nonempty rfl
    | cons first rest =>
      have nonempty : FrameCheck.nonempty.Passes text := ⟨_, json, List.cons_ne_nil first rest⟩
      cases number : first.word? with
      | none =>
        refine .inr ⟨.badKind, by simp [ofText, json, ofJson, number], ?_, ?_, trivial⟩
        · exact fun c before => nonempty.before (Nat.le_of_lt_succ before) (by decide)
        · rintro ⟨items, n, read, number'⟩
          cases json.symm.trans read
          cases number.symm.trans number'
      | some n =>
        cases known : FrameKind.ofNumber? n with
        | some kind =>
          rw [ofNumber?_eq_some_iff.1 known] at number
          exact .inl ⟨kind, _, json, number⟩
        | none =>
          refine .inr ⟨.unknownKind n, by simp [ofText, json, ofJson, number, known], ?_, ?_,
            _, json, number⟩
          · have isNumber : FrameCheck.number.Passes text := ⟨_, n, json, number⟩
            exact fun c before => isNumber.before (Nat.le_of_lt_succ before) (by decide)
          · rintro ⟨kind, items, read, number'⟩
            cases json.symm.trans read
            have same := number.symm.trans number'
            simp only [Option.some.injEq] at same
            rw [ofNumber?_eq_some_iff.2 same] at known
            cases known

theorem textAt_eq_ok_iff {i : ℕ} {element : FrameText} {s : String} :
    textAt items i element = .ok s ↔ items[i]? = some (.str s) := by
  unfold textAt
  cases item : items[i]? with
  | none => simp
  | some v =>
    cases text : v.text? with
    | none =>
      have other : v ≠ .str s := by
        rintro rfl
        cases text
      simp [text, other]
    | some t =>
      rw [text?_eq_some_iff.1 text]
      simp [Json.text?]

theorem textAt_eq_error_iff {i : ℕ} {element : FrameText} :
    textAt items i element = .error fault ↔
      fault = .notText element ∧ ∀ s, items[i]? ≠ some (.str s) := by
  cases read : textAt items i element with
  | ok s => simp [textAt_eq_ok_iff.1 read]
  | error e =>
    have none : ∀ s, items[i]? ≠ some (.str s) := by
      intro s found
      cases read.symm.trans (textAt_eq_ok_iff.2 found)
    have same : e = .notText element := by
      unfold textAt at read
      split at read <;> cases read
      rfl
    simp [same, none, eq_comm]

/-- A list that is long enough has a first item, and others after it. -/
theorem exists_cons_of_lt {α : Type} {l : List α} {n : ℕ} (long : n < l.length) :
    ∃ first rest, l = first :: rest ∧ n ≤ rest.length := by
  cases l with
  | nil => cases long
  | cons first rest => exact ⟨first, rest, rfl, Nat.le_of_lt_succ long⟩

/-- A long enough array is read as the frame that it spells. -/
theorem ofItems_eq_ok_iff {rest : List Json} (long : kind.least ≤ rest.length + 1) :
    ofItems kind (.int kind.number :: rest) = .ok f ↔
      f.kind = kind ∧ Spells (.int kind.number :: rest) f := by
  cases kind with
  | call =>
    obtain ⟨second, rest, rfl, two⟩ := exists_cons_of_lt (Nat.le_of_succ_le_succ long)
    obtain ⟨third, rest, rfl, one⟩ := exists_cons_of_lt two
    obtain ⟨payload, rest, rfl, -⟩ := exists_cons_of_lt one
    constructor
    · intro h
      cases name : second.text? <;> cases word : third.text? <;>
        simp [ofItems, textAt, name, word, bind, Except.bind, pure, Except.pure] at h
      rw [text?_eq_some_iff.1 name, text?_eq_some_iff.1 word, ← h]
      exact ⟨rfl, .call ..⟩
    · rintro ⟨kind, spells⟩
      cases spells with
      | call => rfl
  | result =>
    obtain ⟨second, rest, rfl, one⟩ := exists_cons_of_lt (Nat.le_of_succ_le_succ long)
    obtain ⟨payload, rest, rfl, -⟩ := exists_cons_of_lt one
    constructor
    · intro h
      cases name : second.text? <;>
        simp [ofItems, textAt, name, bind, Except.bind, pure, Except.pure] at h
      rw [text?_eq_some_iff.1 name, ← h]
      exact ⟨rfl, .result ..⟩
    · rintro ⟨kind, spells⟩
      cases spells with
      | result => rfl
  | error =>
    obtain ⟨second, rest, rfl, two⟩ := exists_cons_of_lt (Nat.le_of_succ_le_succ long)
    obtain ⟨third, rest, rfl, one⟩ := exists_cons_of_lt two
    obtain ⟨description, rest, rfl, -⟩ := exists_cons_of_lt one
    constructor
    · intro h
      cases name : second.text? <;> cases word : third.text? <;>
        simp [ofItems, textAt, name, word, bind, Except.bind, pure, Except.pure] at h
      rw [text?_eq_some_iff.1 name, text?_eq_some_iff.1 word, ← h]
      exact ⟨rfl, .error ..⟩
    · rintro ⟨kind, spells⟩
      cases spells with
      | error => rfl

/-- An array is not read because it lacks its id, or the text that comes next. -/
theorem ofItems_eq_error (h : ofItems kind items = .error fault) :
    ((∀ id, items[1]? ≠ some (.str id)) ∧ fault = .notText .uniqueId) ∨
      (∃ id, items[1]? = some (.str id)) ∧ kind ≠ .result ∧ (∀ w, items[2]? ≠ some (.str w)) ∧
        fault = .notText (if kind = .call then .action else .errorCode) := by
  unfold ofItems at h
  cases name : textAt items 1 .uniqueId with
  | error e =>
    obtain ⟨rfl, none⟩ := textAt_eq_error_iff.1 name
    rw [name] at h
    cases h
    exact .inl ⟨none, rfl⟩
  | ok id =>
    have there := textAt_eq_ok_iff.1 name
    rw [name] at h
    cases kind with
    | call =>
      cases word : textAt items 2 .action with
      | error e =>
        obtain ⟨rfl, none⟩ := textAt_eq_error_iff.1 word
        simp only [bind, Except.bind, word, Except.error.injEq] at h
        exact .inr ⟨⟨id, there⟩, by simp, none, by simp [← h]⟩
      | ok w => simp [bind, Except.bind, word, pure, Except.pure] at h
    | result => simp [bind, Except.bind, pure, Except.pure] at h
    | error =>
      cases word : textAt items 2 .errorCode with
      | error e =>
        obtain ⟨rfl, none⟩ := textAt_eq_error_iff.1 word
        simp only [bind, Except.bind, word, Except.error.injEq] at h
        exact .inr ⟨⟨id, there⟩, by simp, none, by simp [← h]⟩
      | ok w => simp [bind, Except.bind, word, pure, Except.pure] at h

/-- What spells a frame is long enough for it, and starts with its number and its id. -/
theorem Spells.long (h : Spells items f) : f.kind.least ≤ items.length ∧
    (items[0]?).bind Json.word? = some f.kind.number ∧ items[1]? = some (.str f.id) := by
  have number : ∀ (k : FrameKind) (rest : List Json),
      ((Json.nat k.number :: rest)[0]?).bind Json.word? = some k.number := by
    intro k rest
    rw [List.getElem?_cons_zero, Option.bind_some, word?_number]
  cases h with
  | call => exact ⟨by simp [kind, FrameKind.least], number .call _, rfl⟩
  | result => exact ⟨by simp [kind, FrameKind.least], number .result _, rfl⟩
  | error => exact ⟨by simp [kind, FrameKind.least], number .error _, rfl⟩

/-- **A text is read as the frame that its items spell.** -/
theorem ofText_eq_ok_iff : ofText text = .ok f ↔
    ∃ items, Json.ofText? text = some (.arr items) ∧ Spells items f := by
  constructor
  · intro h
    obtain ⟨kind, items, opens⟩ | ⟨fault, fails, -⟩ := opens_or text
    swap
    · cases h.symm.trans fails
    have read := opens.ofText_eq
    rw [h] at read
    obtain ⟨first, rest, rfl, -, rfl⟩ := opens.exists_cons
    split at read
    · cases read
    · rename_i long
      exact ⟨_, opens.array, ((ofItems_eq_ok_iff (by simpa using long)).1 read.symm).2⟩
  · rintro ⟨items, array, spells⟩
    obtain ⟨long, number, -⟩ := spells.long
    have opens : Opens text f.kind items := ⟨array, number⟩
    obtain ⟨first, rest, rfl, -, rfl⟩ := opens.exists_cons
    rw [opens.ofText_eq, if_neg (Nat.not_lt.2 long)]
    exact (ofItems_eq_ok_iff long).2 ⟨rfl, spells⟩

/-! ## Which fault a text has -/

/-- A text that is read passes every check. -/
theorem passes_of_ok (h : ofText text = .ok f) (c : FrameCheck) : c.Passes text := by
  obtain ⟨items, array, spells⟩ := ofText_eq_ok_iff.1 h
  obtain ⟨long, number, id⟩ := spells.long
  have opens : Opens text f.kind items := ⟨array, number⟩
  have known : FrameCheck.known.Passes text := ⟨_, items, opens⟩
  cases c with
  | length => exact ⟨_, items, opens, long⟩
  | id => exact ⟨items, _, array, id⟩
  | word =>
    refine ⟨_, items, opens, ?_⟩
    cases spells with
    | call id action => exact .inr ⟨action, rfl⟩
    | result => exact .inl rfl
    | error id code => exact .inr ⟨code, rfl⟩
  | json | array | nonempty | number | known => exact known.before (by decide) (by decide)

/-- **The fault of a text is that of the first check it fails.** -/
theorem first_of_error (h : ofText text = .error fault) : fault.First text := by
  obtain ⟨kind, items, opens⟩ | ⟨fault', fails, first⟩ := opens_or text
  swap
  · cases h.symm.trans fails
    exact first
  have known : FrameCheck.known.Passes text := ⟨kind, items, opens⟩
  rw [opens.ofText_eq] at h
  split at h
  · rename_i short
    cases h
    refine ⟨fun c before => known.before (Nat.le_of_lt_succ before) (Nat.le_refl _), ?_,
      items, opens, rfl⟩
    rintro ⟨kind', items', opens', long⟩
    obtain ⟨rfl, rfl⟩ := opens.items_eq opens'
    exact absurd short (Nat.not_lt.2 long)
  · rename_i long
    have length : FrameCheck.length.Passes text := ⟨kind, items, opens, Nat.not_lt.1 long⟩
    have upToLength : ∀ c : FrameCheck, c.rank < FrameCheck.id.rank → c.Passes text := by
      intro c before
      rcases Nat.lt_or_eq_of_le (Nat.le_of_lt_succ before) with before | same
      · exact known.before (Nat.le_of_lt_succ before) (Nat.le_refl _)
      · have same : c = .length := FrameCheck.rank_inj same
        exact same ▸ length
    rcases ofItems_eq_error h with ⟨none, rfl⟩ | ⟨⟨id, there⟩, kind', none, rfl⟩
    · refine ⟨upToLength, ?_, trivial⟩
      rintro ⟨items', id, array, there⟩
      cases opens.array.symm.trans array
      exact none id there
    · have word : (FrameFault.notText (if kind = .call then .action else .errorCode)).check =
          .word := by
        split <;> rfl
      refine ⟨fun c before => ?_, ?_, ?_⟩
      · rw [word] at before
        rcases Nat.lt_or_eq_of_le (Nat.le_of_lt_succ before) with before | same
        · exact upToLength c before
        · have same : c = .id := FrameCheck.rank_inj same
          exact same ▸ ⟨items, id, opens.array, there⟩
      · rw [word]
        rintro ⟨kind'', items', opens', result | ⟨w, found⟩⟩
        · exact kind' ((opens.items_eq opens').1.trans result)
        · rw [← (opens.items_eq opens').2] at found
          exact none w found
      · cases kind with
        | call => exact ⟨items, opens⟩
        | result => exact absurd rfl kind'
        | error => exact ⟨items, opens⟩

/-- There is only one fault that belongs to the first check a text fails. -/
theorem unique_of_first {fault' : FrameFault} (h : fault.First text) (h' : fault'.First text) :
    fault = fault' := by
  have same : fault.check = fault'.check := by
    rcases Nat.lt_trichotomy fault.check.rank fault'.check.rank with before | same | after
    · exact absurd (h'.earlier _ before) h.fails
    · exact FrameCheck.rank_inj same
    · exact absurd (h.earlier _ after) h'.fails
  have fits := h.fits
  have fits' := h'.fits
  -- where the check leaves something open, the text decides it
  cases fault with
  | notJson | notArray | empty | badKind =>
    cases fault' with
    | notText element' => cases element' <;> cases same
    | _ => first | rfl | cases same
  | unknownKind n =>
    cases fault' with
    | unknownKind n' =>
      obtain ⟨items, array, number⟩ := fits
      obtain ⟨items', array', number'⟩ := fits'
      cases array.symm.trans array'
      cases number.symm.trans number'
      rfl
    | notText element' => cases element' <;> cases same
    | _ => cases same
  | tooShort kind got =>
    cases fault' with
    | tooShort kind' got' =>
      obtain ⟨items, opens, rfl⟩ := fits
      obtain ⟨items', opens', rfl⟩ := fits'
      obtain ⟨rfl, rfl⟩ := opens.items_eq opens'
      rfl
    | notText element' => cases element' <;> cases same
    | _ => cases same
  | notText element =>
    cases fault' with
    | notText element' =>
      have apart : ∀ {items items'}, Opens text .call items → ¬Opens text .error items' := by
        intro items items' opens opens'
        cases (opens.items_eq opens').1
      cases element with
      | uniqueId =>
        cases element' with
        | uniqueId => rfl
        | _ => cases same
      | action =>
        cases element' with
        | uniqueId => cases same
        | action => rfl
        | errorCode => exact absurd fits'.choose_spec (apart fits.choose_spec)
      | errorCode =>
        cases element' with
        | uniqueId => cases same
        | action => exact absurd fits.choose_spec (apart fits'.choose_spec)
        | errorCode => rfl
    | _ => cases element <;> cases same

/-- **A text has a fault exactly if this belongs to the first check it fails.** -/
theorem ofText_eq_error_iff : ofText text = .error fault ↔ fault.First text := by
  refine ⟨first_of_error, fun first => ?_⟩
  cases read : ofText text with
  | ok f => exact absurd (passes_of_ok read _) first.fails
  | error fault' => rw [unique_of_first first (first_of_error read)]

/-! ## What is salvaged -/

/-- A heading that is salvaged from a text that is no frame shows that only the later checks went
wrong. -/
theorem fault_of_salvage? {id : String} (salvaged : salvage? text = some (n, id))
    (h : ofText text = .error fault) : (∃ n, fault = .unknownKind n) ∨
      (∃ kind got, fault = .tooShort kind got) ∨ fault = .notText .action ∨
        fault = .notText .errorCode := by
  obtain ⟨items, heads⟩ := salvage?_eq_some_iff.1 salvaged
  have fails := (first_of_error h).fails
  have number : FrameCheck.number.Passes text := ⟨items, n, heads.array, heads.number⟩
  have name : FrameCheck.id.Passes text := by
    obtain ⟨first, second, rest, rfl, -, second'⟩ := heads.exists_cons
    exact ⟨_, id, heads.array, by simp [text?_eq_some_iff.1 second']⟩
  cases fault with
  | notJson => exact absurd (number.before (by decide) (by decide)) fails
  | notArray => exact absurd (number.before (by decide) (by decide)) fails
  | empty => exact absurd (number.before (by decide) (by decide)) fails
  | badKind => exact absurd number fails
  | unknownKind n => exact .inl ⟨n, rfl⟩
  | tooShort kind got => exact .inr (.inl ⟨kind, got, rfl⟩)
  | notText element =>
    cases element with
    | uniqueId => exact absurd name fails
    | action => exact .inr (.inr (.inl rfl))
    | errorCode => exact .inr (.inr (.inr rfl))

/-! ## Reading within the items -/

/-- A reading that has an outcome unless an item is asked for that is not there. -/
abbrev Reading := ExceptT FrameFault Option

/-- The item at a position; the reading breaks down if there is none. -/
def itemAt (items : List Json) (i : ℕ) : Reading Json :=
  (items[i]? : Option Json)

/-- The text at a position. -/
def readingText (items : List Json) (i : ℕ) (element : FrameText) : Reading String := do
  match (← itemAt items i).text? with
  | some s => return s
  | none => throw (.notText element)

/-- The items by their positions. Only the details of a refusal may be missing. -/
def readingItems (kind : FrameKind) (items : List Json) : Reading Frame := do
  let id ← readingText items 1 .uniqueId
  match kind with
  | .call =>
    let action ← readingText items 2 .action
    return .call id action (← itemAt items 3)
  | .result =>
    let payload ← itemAt items 2
    return .result id (if payload.isNull then .empty else payload)
  | .error =>
    let code ← readingText items 2 .errorCode
    let description ← itemAt items 3
    return .error id code (description.text?.getD "") (items[4]?.getD .empty)

/-- The text, with the items read by their positions once the array is long enough. -/
def reading (text : String) : Reading Frame :=
  match Json.ofText? text with
  | none => throw .notJson
  | some (.arr []) => throw .empty
  | some (.arr (first :: rest)) =>
    match first.word? with
    | none => throw .badKind
    | some n =>
      match FrameKind.ofNumber? n with
      | none => throw (.unknownKind n)
      | some kind =>
        if rest.length + 1 < kind.least then throw (.tooShort kind (rest.length + 1))
        else readingItems kind (first :: rest)
  | some _ => throw .notArray

/-- A reading that does not break down. -/
def Reading.given {α : Type} (r : Except FrameFault α) : Reading α :=
  ExceptT.mk (some r)

theorem itemAt_eq {i : ℕ} (within : i < items.length) : itemAt items i = pure items[i] := by
  unfold itemAt
  rw [List.getElem?_eq_getElem within]
  rfl

/-- A text that is there is read as by the reader itself. -/
theorem readingText_eq {i : ℕ} (within : i < items.length) (element : FrameText) :
    readingText items i element = .given (textAt items i element) := by
  unfold readingText textAt
  rw [itemAt_eq within, pure_bind, List.getElem?_eq_getElem within, Option.bind_some]
  cases (items[i]).text? <;> rfl

/-- The items are there if there are enough of them. -/
theorem readingItems_eq (long : kind.least ≤ items.length) :
    readingItems kind items = .given (ofItems kind items) := by
  cases kind with
  | call =>
    have long : 4 ≤ items.length := long
    have payload : Json.orNull items[3]? = items[3] := by
      rw [List.getElem?_eq_getElem long]
      rfl
    simp only [readingItems, ofItems, readingText_eq (show 1 < items.length by omega),
      readingText_eq (show 2 < items.length by omega), itemAt_eq long, payload]
    cases textAt items 1 .uniqueId with
    | error e => rfl
    | ok id => cases textAt items 2 .action <;> rfl
  | result =>
    have long : 3 ≤ items.length := long
    have payload : Json.orNull items[2]? = items[2] := by
      rw [List.getElem?_eq_getElem long]
      rfl
    simp only [readingItems, ofItems, readingText_eq (show 1 < items.length by omega),
      itemAt_eq long, payload]
    cases textAt items 1 .uniqueId <;> rfl
  | error =>
    have long : 4 ≤ items.length := long
    have description : (items[3]?).bind Json.text? = items[3].text? := by
      rw [List.getElem?_eq_getElem long, Option.bind_some]
    simp only [readingItems, ofItems, readingText_eq (show 1 < items.length by omega),
      readingText_eq (show 2 < items.length by omega), itemAt_eq long, description]
    cases textAt items 1 .uniqueId with
    | error e => rfl
    | ok id => cases textAt items 2 .errorCode <;> rfl

/-- **No item is asked for that is not there.** -/
theorem reading_eq (text : String) : reading text = .given (ofText text) := by
  unfold reading ofText
  cases Json.ofText? text with
  | none => rfl
  | some v =>
    cases v with
    | arr items =>
      cases items with
      | nil => rfl
      | cons first rest =>
        simp only [ofJson]
        cases first.word? with
        | none => rfl
        | some n =>
          dsimp only
          cases FrameKind.ofNumber? n with
          | none => rfl
          | some kind =>
            dsimp only
            split
            · rfl
            · rename_i long
              exact readingItems_eq (by simpa using long)
    | _ => rfl

/-- Items that start with a number, are as long as it wants and have the texts it wants, spell a
frame. -/
theorem exists_spells {n : ℤ} {least : ℕ} {id : String}
    (row : (n, least) ∈ [(2, 4), (3, 3), (4, 4)]) (number : items[0]? = some (.int n))
    (long : least ≤ items.length) (name : items[1]? = some (.str id))
    (word : n ≠ 3 → ∃ word, items[2]? = some (.str word)) : ∃ f, Spells items f := by
  simp only [List.mem_cons, Prod.mk.injEq, List.not_mem_nil, or_false] at row
  rcases row with ⟨rfl, rfl⟩ | ⟨rfl, rfl⟩ | ⟨rfl, rfl⟩
  · obtain ⟨action, word⟩ := word (by decide)
    obtain ⟨first, rest, rfl, three⟩ := exists_cons_of_lt long
    obtain ⟨second, rest, rfl, two⟩ := exists_cons_of_lt three
    obtain ⟨third, rest, rfl, one⟩ := exists_cons_of_lt two
    obtain ⟨payload, rest, rfl, -⟩ := exists_cons_of_lt one
    simp only [List.getElem?_cons_zero, List.getElem?_cons_succ, Option.some.injEq]
      at number name word
    rw [number, name, word]
    exact ⟨_, .call id action payload rest⟩
  · obtain ⟨first, rest, rfl, two⟩ := exists_cons_of_lt long
    obtain ⟨second, rest, rfl, one⟩ := exists_cons_of_lt two
    obtain ⟨payload, rest, rfl, -⟩ := exists_cons_of_lt one
    simp only [List.getElem?_cons_zero, List.getElem?_cons_succ, Option.some.injEq] at number name
    rw [number, name]
    exact ⟨_, .result id payload rest⟩
  · obtain ⟨code, word⟩ := word (by decide)
    obtain ⟨first, rest, rfl, three⟩ := exists_cons_of_lt long
    obtain ⟨second, rest, rfl, two⟩ := exists_cons_of_lt three
    obtain ⟨third, rest, rfl, one⟩ := exists_cons_of_lt two
    obtain ⟨description, rest, rfl, -⟩ := exists_cons_of_lt one
    simp only [List.getElem?_cons_zero, List.getElem?_cons_succ, Option.some.injEq]
      at number name word
    rw [number, name, word]
    exact ⟨_, .error id code description rest⟩

/-- **Which texts are frames, and what is wrong with the others.** A text is read exactly if it is
an array that starts with one of three numbers, is as long as a frame of this number has to be, and
has texts where the frame needs them. Any other text has the fault of the first check that it
fails, and no item is asked for that is not there. What is salvaged of a frame is its number and
its id; where something is salvaged of a text that is no frame, only the later checks went
wrong. -/
theorem ofText_checks (text : String) :
    ((∃ f, ofText text = .ok f) ↔ ∃ (items : List Json) (n : ℤ) (least : ℕ),
      Json.ofText? text = some (.arr items) ∧ (n, least) ∈ [(2, 4), (3, 3), (4, 4)] ∧
      items[0]? = some (.int n) ∧ least ≤ items.length ∧ (∃ id, items[1]? = some (.str id)) ∧
      (n ≠ 3 → ∃ word, items[2]? = some (.str word))) ∧
    (∀ fault, ofText text = .error fault ↔ fault.First text) ∧
    (reading text).run = some (ofText text) ∧
    (∀ f, ofText text = .ok f → salvage? text = some (f.kind.number, f.id)) ∧
    ∀ fault head, ofText text = .error fault → salvage? text = some head →
      (∃ n, fault = .unknownKind n) ∨ (∃ kind got, fault = .tooShort kind got) ∨
        fault = .notText .action ∨ fault = .notText .errorCode := by
  refine ⟨⟨?_, ?_⟩, fun fault => ofText_eq_error_iff, congrArg ExceptT.run (reading_eq text),
    ?_, ?_⟩
  · rintro ⟨f, read⟩
    obtain ⟨items, array, spells⟩ := ofText_eq_ok_iff.1 read
    cases spells with
    | call id action => exact ⟨_, 2, 4, array, by simp⟩
    | result id => exact ⟨_, 3, 3, array, by simp⟩
    | error id code => exact ⟨_, 4, 4, array, by simp⟩
  · rintro ⟨items, n, least, array, row, number, long, ⟨id, name⟩, word⟩
    obtain ⟨f, spells⟩ := exists_spells row number long name word
    exact ⟨f, ofText_eq_ok_iff.2 ⟨items, array, spells⟩⟩
  · intro f read
    obtain ⟨items, array, spells⟩ := ofText_eq_ok_iff.1 read
    obtain ⟨-, number, id⟩ := spells.long
    exact salvage?_eq_some_iff.2 ⟨items, array, number, by rw [id]; rfl⟩
  · intro fault head fails salvaged
    exact fault_of_salvage? salvaged fails

end Frame

end ChargeLink
