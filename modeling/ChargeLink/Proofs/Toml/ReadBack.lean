import ChargeLink.Proofs.Toml.Proper
import ChargeLink.Proofs.Toml.Values

/-!
# Sections come back from their text

A document of sections is read line by line. A header opens a table that is not
there yet, and each line below it adds its value to the end of the last table.
So what has been read after each line is the document of the lines so far, and
what is read in the end is the document of all of them.

* `Toml.ofText?_renderAll`: sections are read back.
-/

namespace ChargeLink

namespace Toml

variable {c : Char} {cs ds r : List Char} {k name : String} {fuel : ℕ}

/-! ## Keys -/

/-- A key that needs no quotes. -/
structure Bare (k : String) : Prop where
  some : k.toList ≠ []
  all : ∀ c ∈ k.toList, isBareChar c = true

theorem Bare.of_all (some : k.toList ≠ []) (all : k.toList.all isBareChar = true) : Bare k :=
  ⟨some, List.all_eq_true.1 all⟩

/-- The characters of bare keys are none of those that mean something around a key. -/
theorem ne_of_isBareChar {d : Char} (h : isBareChar c = true) (hd : isBareChar d = false) :
    c ≠ d := by
  rintro rfl
  rw [hd] at h
  cases h

theorem run_blanks {gap : List Char} (blank : ∀ c ∈ gap, isBlankChar c = true)
    (clear : ∀ c ∈ cs.head?, isBlankChar c = false) : blanks.run (gap ++ cs) = some ((), cs) := by
  rw [blanks, run_bind_some (run_takeWhile blank clear)]
  rfl

theorem run_noBlanks (clear : ∀ c ∈ cs.head?, isBlankChar c = false) :
    blanks.run cs = some ((), cs) :=
  have none : ∀ c ∈ ([] : List Char), isBlankChar c = true := fun _ none => nomatch none
  run_blanks none clear

theorem isBareChar_of_isBlankChar (blank : isBlankChar c = true) : isBareChar c = false := by
  rcases Bool.or_eq_true_iff.1 blank with h | h <;> rw [eq_of_beq h] <;> decide

theorem Bare.head (bare : Bare k) : ∀ c ∈ (k.toList ++ r).head?, isBareChar c = true := by
  intro c hc
  rw [List.head?_append_of_ne_nil _ bare.some] at hc
  exact bare.all c (List.mem_of_mem_head? hc)

theorem run_keyPart (bare : Bare k) (stop : ∀ c ∈ r.head?, isBareChar c = false) :
    keyPart.run (k.toList ++ r) = some (k, r) := by
  have head := bare.head (r := r)
  rw [keyPart, run_get]
  split
  · rename_i same
    rw [same] at head
    cases head _ rfl
  · rename_i c _ _ same
    have other : c ≠ singleQuote := ne_of_isBareChar (head c (same ▸ rfl)) (by decide)
    have some : ¬k.toList.isEmpty = true := by
      rw [List.isEmpty_iff]
      exact bare.some
    rw [if_neg other, run_bind_some (run_takeWhile bare.all stop), if_neg some,
      String.ofList_toList]
    rfl
  · rename_i none
    exact absurd (List.append_eq_nil_iff.1 none).1 bare.some

theorem run_keyFor (fuel : ℕ) (bare : Bare k) {mark : Char} (noKey : isBareChar mark = false)
    (noBlank : isBlankChar mark = false) (noDot : mark ≠ '.') {gap : List Char}
    (blank : ∀ c ∈ gap, isBlankChar c = true) :
    (keyFor (fuel + 1)).run (k.toList ++ (gap ++ mark :: r)) = some ([k], mark :: r) := by
  have clear : ∀ c ∈ (k.toList ++ (gap ++ mark :: r)).head?, isBlankChar c = false := by
    intro c hc
    refine Bool.eq_false_iff.2 fun blank => ?_
    cases (bare.head c hc).symm.trans (isBareChar_of_isBlankChar blank)
  have stop : ∀ c ∈ (gap ++ mark :: r).head?, isBareChar c = false := by
    cases gap with
    | nil =>
      rintro c ⟨⟩
      exact noKey
    | cons d gap =>
      rintro c ⟨⟩
      exact isBareChar_of_isBlankChar (blank d List.mem_cons_self)
  have after : ∀ c ∈ (mark :: r).head?, isBlankChar c = false := by
    rintro c ⟨⟩
    exact noBlank
  rw [keyFor, run_bind_some (run_noBlanks clear),
    run_bind_some (run_keyPart bare stop), run_bind_some (run_blanks blank after), run_get]
  split
  · exact absurd (List.cons.inj ‹_›).1 noDot
  · rfl

/-- A bare key is read up to a mark after it. -/
theorem run_key (bare : Bare k) (mark : Char) (noKey : isBareChar mark = false)
    (noBlank : isBlankChar mark = false) (noDot : mark ≠ '.') (gap : List Char)
    (blank : ∀ c ∈ gap, isBlankChar c = true) :
    key.run (k.toList ++ (gap ++ mark :: r)) = some (([], k), mark :: r) := by
  have parts := run_keyFor (r := r) 78 bare noKey noBlank noDot blank
  rw [key, run_bind_some (x := keyFor maxKeyParts) parts]
  rfl

/-! ## Tables of scalars -/

namespace Draft

variable {es fs : Entries} {d : Draft}

theorem lookup_eq_none_iff : lookup k es = none ↔ k ∉ es.map Prod.fst := by
  induction es with
  | nil => simp [lookup]
  | cons e es ih =>
    rw [lookup, List.map_cons, List.mem_cons, not_or]
    split
    · rename_i same
      simp [eq_of_beq same]
    · rename_i other
      rw [ih]
      exact ⟨fun rest => ⟨fun same => other (beq_iff_eq.2 same.symm), rest⟩, And.right⟩

/-- A key that is new goes to the end. -/
theorem put_of_lookup (new : lookup k es = none) : put k d es = es ++ [(k, d)] := by
  induction es with
  | nil => rfl
  | cons e es ih =>
    rw [lookup] at new
    split at new
    · cases new
    · rename_i other
      rw [put, if_neg other, ih new]
      rfl

/-- The last entry is found, and changed in its place. -/
theorem lookup_append (new : lookup k es = none) : lookup k (es ++ [(k, d)]) = some d := by
  rw [← put_of_lookup new, lookup_put_self]

theorem put_append (new : lookup k es = none) {d' : Draft} :
    put k d' (es ++ [(k, d)]) = es ++ [(k, d')] := by
  induction es with
  | nil => simp [put]
  | cons e es ih =>
    rw [lookup] at new
    split at new
    · cases new
    · rename_i other
      rw [List.cons_append, put, if_neg other, ih new]
      rfl

/-- Scalars that have been read as the entries of a table. -/
def ofScalars (es : List (String × TomlScalar)) : Entries :=
  es.map fun e => (e.1, .value e.2.value)

/-- Sections that have been read. -/
def ofSections (ss : List TomlSection) : Entries :=
  ss.map fun s => (s.name, .table false false (ofScalars s.entries))

variable {ss : List TomlSection} {xs : List (String × TomlScalar)}

theorem lookup_ofSections (new : name ∉ ss.map TomlSection.name) :
    lookup name (ofSections ss) = none := by
  rw [lookup_eq_none_iff, ofSections, List.map_map]
  exact new

theorem openTable_ofSections (new : name ∉ ss.map TomlSection.name) :
    openTable [] name (ofSections ss) = some (ofSections (ss ++ [⟨name, []⟩])) := by
  have none := lookup_ofSections new
  rw [openTable, update, none]
  dsimp only
  rw [put_of_lookup none, ofSections, ofSections, List.map_append]
  rfl

/-- A scalar goes to the end of the last section, under a key that is new there. -/
theorem addBelow_ofSections (new : name ∉ ss.map TomlSection.name) (fresh : k ∉ xs.map Prod.fst)
    (x : TomlScalar) :
    addBelow [name] [] k x.value (ofSections (ss ++ [⟨name, xs⟩])) =
      some (ofSections (ss ++ [⟨name, xs ++ [(k, x)]⟩])) := by
  have last : ∀ xs, ofSections (ss ++ [⟨name, xs⟩]) =
      ofSections ss ++ [(name, .table false false (ofScalars xs))] := by
    intro xs
    rw [ofSections, List.map_append]
    rfl
  have absent : lookup k (ofScalars xs) = none := by
    rw [lookup_eq_none_iff, ofScalars, List.map_map]
    exact fresh
  have added : addValue [] k x.value (ofScalars xs) = some (ofScalars (xs ++ [(k, x)])) := by
    rw [addValue, update, absent, put_of_lookup absent, ofScalars, ofScalars, List.map_append]
    rfl
  have none := lookup_ofSections new
  rw [last, last, addBelow, update, lookup_append none]
  dsimp only
  rw [update, added, Bool.false_and, if_neg Bool.false_ne_true, Option.map_some, put_append none]

end Draft

/-! ## Lines -/

/-- The characters of a line of a section. -/
def entryChars (e : String × TomlScalar) : List Char :=
  e.1.toList ++ ([' '] ++ '=' :: ' ' :: (e.2.render.toList ++ ['\n']))

/-- The characters of a header with the end of its line. -/
def headerChars (name : String) : List Char :=
  '[' :: (name.toList ++ [']', '\n'])

theorem run_trailing : trailing.run ('\n' :: r) = some ((), r) := rfl

variable {ss : List TomlSection} {xs : List (String × TomlScalar)} {header : List String}

theorem run_headerLine (bare : Bare name) (new : name ∉ ss.map TomlSection.name) :
    (headerLine ⟨Draft.ofSections ss, header⟩).run (headerChars name ++ r) =
      some (⟨Draft.ofSections (ss ++ [⟨name, []⟩]), [name]⟩, r) := by
  have text : headerChars name ++ r = '[' :: (name.toList ++ ([] ++ ']' :: '\n' :: r)) := by
    simp [headerChars]
  have read := run_key (r := '\n' :: r) bare ']' (by decide) (by decide) (by decide) []
    (fun _ none => nomatch none)
  rw [text, headerLine, run_get]
  split
  · rename_i same
    have head := bare.head (r := [] ++ ']' :: '\n' :: r)
    rw [(List.cons.inj same).2] at head
    cases head _ rfl
  · rename_i same
    cases same
    rw [run_set, run_bind_some read]
    dsimp only
    rw [run_bind_some run_char, run_bind_some run_trailing, Draft.openTable_ofSections new]
    rfl
  · rename_i _ none
    exact absurd rfl (none _)

theorem run_keyLine {x : TomlScalar} (bare : Bare k) (fits : x.Fits)
    (new : name ∉ ss.map TomlSection.name) (fresh : k ∉ xs.map Prod.fst) :
    (keyLine ⟨Draft.ofSections (ss ++ [⟨name, xs⟩]), [name]⟩).run (entryChars (k, x) ++ r) =
      some (⟨Draft.ofSections (ss ++ [⟨name, xs ++ [(k, x)]⟩]), [name]⟩, r) := by
  have text : entryChars (k, x) ++ r =
      k.toList ++ ([' '] ++ '=' :: ([' '] ++ (x.render.toList ++ '\n' :: r))) := by
    simp [entryChars]
  have blank : ∀ c ∈ [' '], isBlankChar c = true := List.forall_mem_singleton.2 rfl
  have read := run_key (r := [' '] ++ (x.render.toList ++ '\n' :: r)) bare '='
    (by decide) (by decide) (by decide) [' '] blank
  have clear : ∀ c ∈ (x.render.toList ++ '\n' :: r).head?, isBlankChar c = false := by
    obtain ⟨c, cs, same, noBlank, -⟩ := head_render x
    rw [same]
    rintro c ⟨⟩
    exact noBlank
  rw [text, keyLine, run_bind_some read]
  dsimp only
  rw [run_bind_some run_char, run_bind_some (run_blanks blank clear),
    run_bind_some (run_valueWithin fits maxDepth), run_bind_some run_trailing,
    Draft.addBelow_ofSections new fresh]
  rfl

theorem run_lines_key (bare : isBareChar c = true) (s : Reading) :
    (lines (fuel + 1) s).run (c :: cs) = (keyLine s >>= lines fuel).run (c :: cs) := by
  have clear : ∀ d ∈ (c :: cs).head?, isBlankChar d = false := by
    rintro d ⟨⟩
    refine Bool.eq_false_iff.2 fun blank => ?_
    cases bare.symm.trans (isBareChar_of_isBlankChar blank)
  have seen : peek.run (c :: cs) = some (some c, c :: cs) := rfl
  rw [lines, run_bind_some (run_noBlanks clear), run_bind_some seen]
  split
  · cases ‹some c = none›
  · cases ‹some c = _›
    cases bare
  · cases ‹some c = _›
    cases bare
  · cases ‹some c = _›
    cases bare
  · cases ‹some c = _›
    cases bare
  · rfl

/-! ## Documents -/

/-- The rest of a document is read to its end and leaves the given entries, as long as there is
fuel for each character. -/
def Finishes (s : Reading) (cs : List Char) (root : Entries) : Prop :=
  ∀ fuel, cs.length ≤ fuel → ∃ header, (lines (fuel + 1) s).run cs = some (⟨root, header⟩, [])

namespace Finishes

variable {s t : Reading} {root : Entries}

theorem nil : Finishes s [] s.root := fun _ _ => ⟨s.header, rfl⟩

theorem newline (rest : Finishes s cs root) : Finishes s ('\n' :: cs) root := by
  intro fuel enough
  cases fuel with
  | zero => nomatch enough
  | succ fuel => exact rest fuel (Nat.le_of_succ_le_succ enough)

/-- A line is read by what its first character calls for. It is not empty, so there is fuel for the
rest. -/
theorem line {read : Scan Reading} (text : ds ≠ []) (line : read.run (ds ++ cs) = some (t, cs))
    (calls : ∀ fuel, (lines (fuel + 1) s).run (ds ++ cs) = (read >>= lines fuel).run (ds ++ cs))
    (rest : Finishes t cs root) : Finishes s (ds ++ cs) root := by
  intro fuel enough
  have some := List.length_pos_iff.2 text
  rw [List.length_append] at enough
  obtain ⟨fuel, rfl⟩ : ∃ f, fuel = f + 1 := ⟨fuel - 1, by omega⟩
  rw [calls, run_bind_some line]
  exact rest fuel (by omega)

variable {ss : List TomlSection} {xs : List (String × TomlScalar)}

theorem heading {header : List String} (bare : Bare name) (new : name ∉ ss.map TomlSection.name)
    (rest : Finishes ⟨Draft.ofSections (ss ++ [⟨name, []⟩]), [name]⟩ cs root) :
    Finishes ⟨Draft.ofSections ss, header⟩ (headerChars name ++ cs) root :=
  .line (List.cons_ne_nil _ _) (run_headerLine bare new) (fun _ => rfl) rest

theorem entry {x : TomlScalar} (bare : Bare k) (fits : x.Fits)
    (new : name ∉ ss.map TomlSection.name) (fresh : k ∉ xs.map Prod.fst)
    (rest : Finishes ⟨Draft.ofSections (ss ++ [⟨name, xs ++ [(k, x)]⟩]), [name]⟩ cs root) :
    Finishes ⟨Draft.ofSections (ss ++ [⟨name, xs⟩]), [name]⟩ (entryChars (k, x) ++ cs) root := by
  refine .line (List.append_ne_nil_of_left_ne_nil bare.some _) (run_keyLine bare fits new fresh)
    (fun fuel => ?_) rest
  obtain ⟨c, cs', same⟩ := List.exists_cons_of_ne_nil bare.some
  have first := bare.all c (same ▸ List.mem_cons_self)
  rw [entryChars, same]
  exact run_lines_key first _

end Finishes

/-! ## Sections -/

/-- A section that can be written as it is: its name and keys need no quotes, no key stands there
twice, and its numbers can be read. -/
structure PlainSection (s : TomlSection) : Prop where
  name : Bare s.name
  keys : ∀ e ∈ s.entries, Bare e.1
  once : (s.entries.map Prod.fst).Nodup
  fits : ∀ e ∈ s.entries, e.2.Fits

variable {ss ts : List TomlSection} {xs ys : List (String × TomlScalar)} {root : Entries}

theorem Finishes.entries (new : name ∉ ss.map TomlSection.name) (keys : ∀ e ∈ ys, Bare e.1)
    (fits : ∀ e ∈ ys, e.2.Fits) (once : ((xs ++ ys).map Prod.fst).Nodup)
    (rest : Finishes ⟨Draft.ofSections (ss ++ [⟨name, xs ++ ys⟩]), [name]⟩ cs root) :
    Finishes ⟨Draft.ofSections (ss ++ [⟨name, xs⟩]), [name]⟩ (ys.flatMap entryChars ++ cs)
      root := by
  induction ys generalizing xs with
  | nil => rwa [List.append_nil] at rest
  | cons e ys ih =>
    obtain ⟨k, x⟩ := e
    rw [List.forall_mem_cons] at keys fits
    have fresh : k ∉ xs.map Prod.fst := by
      rw [List.map_append, List.nodup_append] at once
      exact fun mem => once.2.2 k mem k List.mem_cons_self rfl
    rw [List.append_cons xs] at once rest
    rw [List.flatMap_cons, List.append_assoc]
    exact .entry keys.1 fits.1 new fresh (ih keys.2 fits.2 once rest)

theorem toList_render (s : TomlSection) :
    s.render.toList = headerChars s.name ++ s.entries.flatMap entryChars := by
  have lines : ∀ (es : List (String × TomlScalar)) (out : String),
      (es.foldl (fun out e => out ++ e.1 ++ " = " ++ e.2.render ++ "\n") out).toList =
        out.toList ++ es.flatMap entryChars := by
    intro es
    induction es with
    | nil => simp
    | cons e es ih =>
      intro out
      rw [List.foldl_cons, ih]
      simp [entryChars]
  rw [TomlSection.render, lines]
  simp [headerChars]

theorem Finishes.section {s : TomlSection} {header : List String} (plain : PlainSection s)
    (new : s.name ∉ ss.map TomlSection.name)
    (rest : Finishes ⟨Draft.ofSections (ss ++ [s]), [s.name]⟩ cs root) :
    Finishes ⟨Draft.ofSections ss, header⟩ (s.render.toList ++ cs) root := by
  rw [toList_render, List.append_assoc]
  exact .heading plain.name new (.entries new plain.keys plain.fits plain.once rest)

theorem Finishes.sections {header : List String} (plain : ∀ s ∈ ts, PlainSection s)
    (once : ((ss ++ ts).map TomlSection.name).Nodup) :
    Finishes ⟨Draft.ofSections ss, header⟩ (TomlSection.renderAll ts).toList
      (Draft.ofSections (ss ++ ts)) := by
  induction ts generalizing ss header with
  | nil =>
    rw [List.append_nil]
    exact .nil
  | cons s ts ih =>
    rw [List.forall_mem_cons] at plain
    have new : s.name ∉ ss.map TomlSection.name := by
      rw [List.map_append, List.nodup_append] at once
      exact fun mem => once.2.2 _ mem _ List.mem_cons_self rfl
    rw [List.append_cons ss] at once ⊢
    have rest := @ih (ss ++ [s]) [s.name] plain.2 once
    cases ts with
    | nil =>
      have text : (TomlSection.renderAll [s]).toList = s.render.toList ++ [] := by
        simp [TomlSection.renderAll]
      rw [text]
      exact .section plain.1 new rest
    | cons t ts =>
      have text : (TomlSection.renderAll (s :: t :: ts)).toList =
          s.render.toList ++ '\n' :: (TomlSection.renderAll (t :: ts)).toList := by
        simp [TomlSection.renderAll, String.intercalate_cons_cons]
      rw [text]
      exact .section plain.1 new rest.newline

theorem ofText?_of_finishes {text : String}
    (noMark : ∀ c ∈ text.toList.head?, c.toNat ≠ 0xFEFF)
    (read : Finishes ⟨[], []⟩ text.toList root) :
    ofText? text = some (Draft.finishEntries root) := by
  obtain ⟨header, read⟩ := read _ (Nat.le_refl _)
  unfold ofText?
  extract_lets chars
  have whole : chars = text.toList := by
    unfold chars
    split
    · rename_i c r same
      rw [same] at noMark ⊢
      exact if_neg (noMark c rfl)
    · rename_i same
      exact same.symm
  rw [whole, read]

/-- **Sections are read back** from the text they are written as. -/
theorem ofText?_renderAll (plain : ∀ s ∈ ss, PlainSection s)
    (once : (ss.map TomlSection.name).Nodup) :
    ofText? (TomlSection.renderAll ss) = some (ss.map fun s =>
      (s.name, .table (s.entries.map fun e => (e.1, e.2.value)))) := by
  have noMark : ∀ c ∈ (TomlSection.renderAll ss).toList.head?, c.toNat ≠ 0xFEFF := by
    cases ss with
    | nil => exact fun _ none => nomatch none
    | cons s ss =>
      have starts : ∃ cs, (TomlSection.renderAll (s :: ss)).toList = '[' :: cs := by
        cases ss with
        | nil => simp [TomlSection.renderAll, toList_render, headerChars]
        | cons t ss =>
          simp [TomlSection.renderAll, String.intercalate_cons_cons, toList_render, headerChars]
      obtain ⟨cs, same⟩ := starts
      rw [same]
      rintro c ⟨⟩
      decide
  rw [ofText?_of_finishes noMark (@Finishes.sections [] ss [] plain once),
    Draft.finishEntries_eq, List.nil_append, Draft.ofSections, List.map_map]
  refine congrArg some (List.map_congr_left fun s _ => ?_)
  simp [Draft.finish, Draft.finishEntries_eq, Draft.ofScalars, Function.comp_def]

end Toml

end ChargeLink
