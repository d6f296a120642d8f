import ChargeLink.Toml.Reader
import Mathlib.Data.Int.Notation
import Mathlib.Data.List.Nodup
import Mathlib.Data.Nat.Notation

/-!
# What a document holds is proper

A table of a document names each key once, however it was put together: by a
header, by dotted keys, between braces or as one of an array. Numbers fit 64
bits with a sign. Both hold of every draft while the lines are read, and of
every value that a line brings.

* `Toml.ofText?_proper`: what is read of a text is proper.
-/

namespace ChargeLink.Toml

/-- Keys stand at most once in each table, and numbers fit 64 bits with a sign. -/
inductive Proper : Toml → Prop
  | text (s : String) : Proper (.text s)
  | int {n : ℤ} (low : -0x8000000000000000 ≤ n) (high : n < 0x8000000000000000) : Proper (.int n)
  | real : Proper .real
  | flag (b : Bool) : Proper (.flag b)
  | moment : Proper .moment
  | array {items : List Toml} (each : ∀ v ∈ items, Proper v) : Proper (.array items)
  | table {entries : List (String × Toml)} (once : (entries.map Prod.fst).Nodup)
      (each : ∀ e ∈ entries, Proper e.2) : Proper (.table entries)

theorem proper_table_iff {es : List (String × Toml)} :
    Proper (.table es) ↔ (es.map Prod.fst).Nodup ∧ ∀ e ∈ es, Proper e.2 := by
  constructor
  · rintro ⟨⟩
    exact ⟨by assumption, by assumption⟩
  · exact fun h => .table h.1 h.2

theorem proper_array_iff {items : List Toml} :
    Proper (.array items) ↔ ∀ v ∈ items, Proper v := by
  constructor
  · rintro ⟨⟩
    assumption
  · exact .array

/-! ## Drafts -/

namespace Draft

variable {es fs : Entries} {d : Draft} {k : String} {v : Toml}

theorem finishEntries_eq (es : Entries) :
    finishEntries es = es.map fun e => (e.1, e.2.finish) := by
  induction es with
  | nil => rfl
  | cons e es ih => rw [finishEntries, ih, List.map_cons]

theorem finishRows_eq (rows : List Entries) :
    finishRows rows = rows.map fun es => .table (finishEntries es) := by
  induction rows with
  | nil => rfl
  | cons es rows ih => rw [finishRows, ih, List.map_cons]

/-- Entries that make a proper table. -/
structure Sound (es : Entries) : Prop where
  once : (es.map Prod.fst).Nodup
  each : ∀ e ∈ es, Proper e.2.finish

theorem proper_finish_iff : Proper (.table (finishEntries es)) ↔ Sound es := by
  rw [proper_table_iff, finishEntries_eq, List.map_map, List.forall_mem_map]
  exact ⟨fun h => ⟨h.1, h.2⟩, fun h => ⟨h.once, h.each⟩⟩

theorem proper_tables_iff {rows : List Entries} :
    Proper (tables rows).finish ↔ ∀ es ∈ rows, Sound es := by
  rw [finish, finishRows_eq, proper_array_iff, List.forall_mem_map]
  exact forall₂_congr fun _ _ => proper_finish_iff

theorem Sound.nil : Sound [] :=
  ⟨List.nodup_nil, fun _ none => nomatch none⟩

theorem mem_of_lookup (found : lookup k es = some d) : (k, d) ∈ es := by
  induction es with
  | nil => cases found
  | cons e es ih =>
    rw [lookup] at found
    split at found
    · rename_i same
      cases found
      rw [← eq_of_beq same]
      exact List.mem_cons_self
    · exact List.mem_cons_of_mem _ (ih found)

theorem Sound.lookup (sound : Sound es) (found : lookup k es = some d) : Proper d.finish :=
  sound.each _ (mem_of_lookup found)

theorem mem_put {e : String × Draft} (h : e ∈ put k d es) : e = (k, d) ∨ e ∈ es := by
  induction es with
  | nil => exact .inl (List.mem_singleton.1 h)
  | cons f es ih =>
    rw [put] at h
    split at h
    · rename_i same
      rcases List.mem_cons.1 h with rfl | rest
      · exact .inl (by rw [eq_of_beq same])
      · exact .inr (List.mem_cons_of_mem _ rest)
    · rcases List.mem_cons.1 h with rfl | rest
      · exact .inr List.mem_cons_self
      · exact (ih rest).imp_right (List.mem_cons_of_mem _)

theorem Sound.put (sound : Sound es) (proper : Proper d.finish) : Sound (put k d es) := by
  refine ⟨?_, fun e he => ?_⟩
  · have once := sound.once
    clear sound
    induction es with
    | nil => exact List.nodup_singleton k
    | cons f es ih =>
      rw [Draft.put]
      rw [List.map_cons, List.nodup_cons] at once
      split
      · exact List.nodup_cons.2 once
      · rename_i other
        refine List.nodup_cons.2 ⟨fun again => ?_, ih once.2⟩
        obtain ⟨e, he, same⟩ := List.mem_map.1 again
        rcases mem_put he with rfl | old
        · exact other (beq_iff_eq.2 same.symm)
        · exact once.1 (List.mem_map.2 ⟨e, old, same⟩)
  · rcases mem_put he with rfl | old
    · exact proper
    · exact sound.each e old

/-- A change that keeps entries sound. -/
def Keeps (f : Entries → Option Entries) : Prop :=
  ∀ es fs, Sound es → f es = some fs → Sound fs

theorem Keeps.onLast {f : Entries → Option Entries} (keeps : Keeps f) {rows changed : List Entries}
    (sound : ∀ es ∈ rows, Sound es) (h : onLast f rows = some changed) :
    ∀ es ∈ changed, Sound es := by
  induction rows generalizing changed with
  | nil => cases h
  | cons row rows ih =>
    rw [List.forall_mem_cons] at sound
    cases rows with
    | nil =>
      obtain ⟨row', hrow, rfl⟩ := Option.map_eq_some_iff.1 h
      exact List.forall_mem_singleton.2 (keeps _ _ sound.1 hrow)
    | cons row' rows =>
      obtain ⟨rest, hrest, rfl⟩ := Option.map_eq_some_iff.1 h
      exact List.forall_mem_cons.2 ⟨sound.1, ih sound.2 hrest⟩

/-- Entries stay sound if a change at the end of a path keeps those there sound. -/
theorem Keeps.update {byKeys : Bool} {f : Bool → Entries → Option Entries}
    (keeps : ∀ dotted, Keeps (f dotted)) (path : List String) (dotted : Bool) :
    Keeps (update byKeys f path dotted) := by
  induction path generalizing dotted with
  | nil => exact keeps dotted
  | cons key path ih =>
    intro es fs sound h
    rw [Draft.update] at h
    split at h
    · obtain ⟨inner, made, rfl⟩ := Option.map_eq_some_iff.1 h
      exact sound.put (proper_finish_iff.2 (ih _ _ _ .nil made))
    · cases h
    · rename_i found
      split at h
      · cases h
      · obtain ⟨inner, made, rfl⟩ := Option.map_eq_some_iff.1 h
        have old := proper_finish_iff.1 (sound.lookup found)
        exact sound.put (proper_finish_iff.2 (ih _ _ _ old made))
    · rename_i found
      obtain ⟨rows, made, rfl⟩ := Option.map_eq_some_iff.1 h
      have old := proper_tables_iff.1 (sound.lookup found)
      exact sound.put (proper_tables_iff.2 ((ih false).onLast old made))

theorem keeps_addValue (path : List String) (proper : Proper v) : Keeps (addValue path k v) := by
  refine .update (fun dotted es fs sound h => ?_) path false
  split at h
  · cases h
  · split at h
    · cases h
    · cases h
      exact sound.put proper

theorem keeps_openTable (path : List String) (k : String) : Keeps (openTable path k) := by
  refine .update (fun _ es fs sound h => ?_) path false
  split at h
  · cases h
    exact sound.put (proper_finish_iff.2 .nil)
  · rename_i found
    cases h
    exact sound.put (proper_finish_iff.2 (proper_finish_iff.1 (sound.lookup found)))
  · cases h

theorem keeps_openRow (path : List String) (k : String) : Keeps (openRow path k) := by
  refine .update (fun _ es fs sound h => ?_) path false
  split at h
  · cases h
    exact sound.put (proper_tables_iff.2 (List.forall_mem_singleton.2 .nil))
  · rename_i found
    cases h
    refine sound.put (proper_tables_iff.2 fun row hrow => ?_)
    rcases List.mem_append.1 hrow with old | new
    · exact proper_tables_iff.1 (sound.lookup found) row old
    · exact List.mem_singleton.1 new ▸ .nil
  · cases h

theorem keeps_addBelow (header path : List String) (proper : Proper v) :
    Keeps (addBelow header path k v) :=
  .update (fun _ => keeps_addValue path proper) header false

end Draft

/-! ## Readers -/

/-- What is read, whatever the text, has a property. -/
def Yields {α : Type} (P : α → Prop) (s : Scan α) : Prop :=
  ∀ cs v r, s.run cs = some (v, r) → P v

namespace Yields

variable {α β : Type} {P : α → Prop} {Q : β → Prop} {s t : Scan α} {f : α → Scan β}

theorem pure {a : α} (h : P a) : Yields P (Pure.pure a) := by
  rintro cs v r ⟨⟩
  exact h

theorem failure : Yields P (failure : Scan α) := fun _ _ _ h => nomatch h

/-- What a reader yields is known to the reader after it. -/
theorem bind (first : Yields P s) (next : ∀ a, P a → Yields Q (f a)) : Yields Q (s >>= f) := by
  intro cs v r h
  rw [StateT.run_bind] at h
  obtain ⟨⟨a, cs'⟩, ha, h⟩ := Option.bind_eq_some_iff.1 h
  exact next a (first _ _ _ ha) _ _ _ h

/-- What matters may be read by the second of two readers alone. -/
theorem after (next : ∀ a, Yields Q (f a)) : Yields Q (s >>= f) :=
  bind (P := fun _ => True) (fun _ _ _ _ => trivial) fun a _ => next a

theorem orElse (left : Yields P s) (right : Yields P t) : Yields P (s <|> t) := by
  intro cs v r h
  have run : (s.run cs <|> t.run cs) = some (v, r) := h
  cases first : s.run cs with
  | some p =>
    rw [first] at run
    exact left _ _ _ (first.trans run)
  | none =>
    rw [first] at run
    exact right _ _ _ run

theorem lift {o : Option α} (h : ∀ a, o = some a → P a) : Yields P (liftM o : Scan α) := by
  intro cs v r run
  cases o with
  | none => cases run
  | some a =>
    cases run
    exact h _ rfl

end Yields

theorem wholeNumber_proper (negative : Bool) (n : ℕ) : Yields Proper (wholeNumber negative n) := by
  unfold wholeNumber
  split
  · split
    · exact .pure (.int (by omega) (by omega))
    · exact .failure
  · split
    · exact .pure (.int (by omega) (by omega))
    · exact .failure

theorem integer_proper : Yields Proper integer := by
  unfold integer
  refine .after fun cs => ?_
  split
  · exact .after fun _ => .after fun _ => wholeNumber_proper _ _
  · exact .after fun _ => .after fun _ => wholeNumber_proper _ _
  · exact .after fun _ => .after fun _ => wholeNumber_proper _ _
  · exact .after fun _ => .after fun _ => wholeNumber_proper _ _

theorem fractional_proper : Yields Proper fractional := by
  unfold fractional
  refine .after fun negative => .after fun whole => .after fun cs => ?_
  extract_lets rest
  have proper : ∀ fraction, Yields Proper (rest fraction) := by
    refine fun fraction => .after fun e => ?_
    split
    · exact .failure
    · extract_lets part value
      split
      · exact .failure
      · exact .pure .real
  split
  · exact .after fun _ => .after fun _ => .after fun _ => proper _
  · exact .after fun _ => proper _

theorem dateTime_proper : Yields Proper dateTime := by
  unfold dateTime
  repeat refine .after fun _ => ?_
  exact .pure .moment

theorem special_proper : Yields Proper special := by
  unfold special
  repeat refine .after fun _ => ?_
  exact .pure .real

theorem number_proper : Yields Proper number := by
  unfold number
  refine .orElse dateTime_proper (.orElse ?_ (.orElse fractional_proper
    (.orElse special_proper integer_proper)))
  exact .after fun _ => .pure .moment

theorem scalar_proper : Yields Proper scalar := by
  unfold scalar
  refine .after fun cs => ?_
  split
  · exact .after fun _ => .pure (.text _)
  · exact .after fun _ => .pure (.flag _)
  · exact .after fun _ => .pure (.flag _)
  · split
    · exact .after fun _ => .pure (.text _)
    · exact number_proper
  · exact .failure

/-! ## Values -/

variable {value : Scan Toml}

theorem arrayItems_proper (item : Yields Proper value) (fuel : ℕ) :
    Yields (fun items => ∀ v ∈ items, Proper v) (arrayItems value fuel) := by
  induction fuel with
  | zero => exact .failure
  | succ fuel ih =>
    unfold arrayItems
    refine .after fun _ => .after fun cs => ?_
    split
    · exact .after fun _ => .pure fun _ none => nomatch none
    · refine .bind item fun v hv => .after fun _ => .after fun cs => ?_
      split
      · exact .after fun _ => .bind ih fun vs hvs => .pure (List.forall_mem_cons.2 ⟨hv, hvs⟩)
      · exact .after fun _ => .pure (List.forall_mem_singleton.2 hv)
      · exact .failure

theorem inlineEntries_sound (item : Yields Proper value) (fuel : ℕ) {es : Entries}
    (sound : Draft.Sound es) : Yields Draft.Sound (inlineEntries value fuel es) := by
  induction fuel generalizing es with
  | zero => exact .failure
  | succ fuel ih =>
    unfold inlineEntries
    refine .after fun (path, last) => .after fun _ => .after fun _ => .bind item fun v hv => ?_
    refine .after fun _ => ?_
    split
    · exact .failure
    · rename_i added
      have sound := Draft.keeps_addValue path hv _ _ sound added
      refine .after fun cs => ?_
      split
      · exact .after fun _ => ih sound
      · exact .after fun _ => .pure sound
      · exact .failure

theorem inlineTable_proper (item : Yields Proper value) : Yields Proper (inlineTable value) := by
  unfold inlineTable
  refine .after fun _ => .after fun cs => ?_
  split
  · exact .after fun _ => .pure (Draft.proper_finish_iff.2 .nil)
  · exact .bind (inlineEntries_sound item _ .nil) fun es sound =>
      .pure (Draft.proper_finish_iff.2 sound)

theorem valueOf_proper (item : Yields Proper value) : Yields Proper (valueOf value) := by
  unfold valueOf
  refine .after fun cs => ?_
  split
  · exact .after fun _ => .bind (arrayItems_proper item _) fun items each => .pure (.array each)
  · exact .after fun _ => inlineTable_proper item
  · exact scalar_proper

theorem valueWithin_proper (depth : ℕ) : Yields Proper (valueWithin depth) := by
  induction depth with
  | zero => exact valueOf_proper .failure
  | succ depth ih => exact valueOf_proper ih

/-! ## Documents -/

/-- A document whose entries so far are sound. -/
def Reading.Sound (s : Reading) : Prop :=
  Draft.Sound s.root

variable {s : Reading}

theorem headerLine_sound (sound : s.Sound) : Yields Reading.Sound (headerLine s) := by
  unfold headerLine
  refine .after fun cs => ?_
  split
  · refine .after fun _ => .after fun (path, last) => .after fun _ => .after fun _ => ?_
    refine .bind (.lift fun root opened => ?_) fun root h => .pure h
    exact Draft.keeps_openRow path last _ _ sound opened
  · refine .after fun _ => .after fun (path, last) => .after fun _ => .after fun _ => ?_
    refine .bind (.lift fun root opened => ?_) fun root h => .pure h
    exact Draft.keeps_openTable path last _ _ sound opened
  · exact .failure

theorem keyLine_sound (sound : s.Sound) : Yields Reading.Sound (keyLine s) := by
  unfold keyLine
  refine .after fun (path, last) => .after fun _ => .after fun _ => ?_
  refine .bind (valueWithin_proper maxDepth) fun v hv => .after fun _ => ?_
  refine .bind (.lift fun root added => ?_) fun root h => .pure h
  exact Draft.keeps_addBelow s.header path hv _ _ sound added

theorem lines_sound (fuel : ℕ) (sound : s.Sound) : Yields Reading.Sound (lines fuel s) := by
  induction fuel generalizing s with
  | zero => exact .failure
  | succ fuel ih =>
    unfold lines
    refine .after fun _ => .after fun c => ?_
    split
    · exact .pure sound
    · exact .after fun _ => .after fun _ => ih sound
    · exact .bind (headerLine_sound sound) fun _ sound => ih sound
    · exact .after fun _ => ih sound
    · exact .after fun _ => ih sound
    · exact .bind (keyLine_sound sound) fun _ sound => ih sound

/-- **What is read of a text is proper.** -/
theorem ofText?_proper {text : String} {es : List (String × Toml)} (h : ofText? text = some es) :
    Proper (.table es) := by
  unfold ofText? at h
  extract_lets cs at h
  split at h
  · rename_i reading _ read
    cases h
    exact Draft.proper_finish_iff.2 (lines_sound _ (s := ⟨[], []⟩) Draft.Sound.nil _ _ _ read)
  · cases h

end ChargeLink.Toml
