import ChargeLink.Proofs.Settings.Approval
import ChargeLink.Proofs.Settings.Keys
import ChargeLink.Proofs.Toml.ReadBack

/-!
# Settings override the defaults

A document is acceptable if its values are of the types of their keys and in
their ranges, and the settings that it leads to make sense together. Such
settings are the defaults with what the document gives in their place; there are
no others, so nothing else that a document holds makes a difference to them.
Numbers that have been read can be written, so settings that have been loaded
are the same when they are saved and loaded again.

* `Settings.acceptable_iff`: a document is acceptable if the settings that it leads to make sense.
* `Settings.ofText_text`: settings that have been loaded can be loaded again.
* `Settings.ofText_overrides`: which documents can be loaded, and as what.
-/

namespace ChargeLink.Settings

variable {es : List (String × Toml)} {s : Settings}

/-! ## Values in range -/

namespace Kind

/-- A number that can be read and written. -/
def InRange : (t : Kind) → t.Value → Prop
  | number bound, (n : ℕ) => n < bound ∧ n < 0x8000000000000000
  | _, _ => True

instance : (t : Kind) → (x : t.Value) → Decidable (t.InRange x)
  | number bound, (n : ℕ) => inferInstanceAs (Decidable (n < bound ∧ n < 0x8000000000000000))
  | text, _ | flag, _ | policy, _ => inferInstanceAs (Decidable True)

/-- What a value is written as. -/
def scalar : (t : Kind) → t.Value → TomlScalar
  | text, (s : String) => .text s
  | number _, (n : ℕ) => .nat n
  | flag, (b : Bool) => .flag b
  | policy, (p : BusyPolicy) => .text p.word

variable {t : Kind} {x : t.Value}

theorem Reads.inRange {v : Toml} (reads : t.Reads v x) (proper : v.Proper) : t.InRange x := by
  cases t with
  | number bound =>
    obtain ⟨rfl, small⟩ := reads
    obtain ⟨⟩ := proper
    rename_i high
    exact ⟨small, by omega⟩
  | _ => trivial

theorem fits_scalar (range : t.InRange x) : (t.scalar x).Fits := by
  cases t with
  | number bound => exact range.2
  | _ => trivial

/-- A value is read back from what it is written as. -/
theorem reads_scalar (range : t.InRange x) : t.Reads (t.scalar x).value x := by
  cases t with
  | text => rfl
  | number bound => exact ⟨rfl, range.1⟩
  | flag => rfl
  | policy => exact .inl rfl

end Kind

theorem inRange_standard (k : Key) : k.kind.InRange (standard.get k) := by
  cases k <;> decide

theorem proper_entriesOf {p : Part} {entries : List (String × Toml)}
    (proper : Toml.Proper (.table es)) (found : entriesOf es p = some entries) :
    ∀ e ∈ entries, Toml.Proper e.2 := by
  obtain ⟨once, each⟩ := Toml.proper_table_iff.1 proper
  unfold entriesOf at found
  cases given : Toml.lookup p.name es with
  | none =>
    rw [given] at found
    cases found
    exact fun _ none => nomatch none
  | some v =>
    rw [given] at found
    have proper := each _ ((Toml.lookup_eq_some_iff once).1 given)
    cases v with
    | table entries =>
      cases found
      exact (Toml.proper_table_iff.1 proper).2
    | array items =>
      cases found
      intro e he
      exact Toml.proper_array_iff.1 proper _ (List.of_mem_zip he).2
    | moment =>
      cases found
      exact fun _ none => nomatch none
    | _ => cases found

/-- The values of settings that have been read are in range. -/
theorem inRange_of_ofEntries? (proper : Toml.Proper (.table es)) (read : ofEntries? es = some s)
    (k : Key) : k.kind.InRange (s.get k) := by
  choose within found using entriesOf_isSome read
  have setting := (ofEntries?_iff found).1 read k
  unfold Toml.setting at setting
  cases given : Toml.lookup k.name (within k.part) with
  | none =>
    rw [given] at setting
    exact Option.some.inj setting ▸ inRange_standard k
  | some v =>
    rw [given] at setting
    have reads := Kind.read?_eq_some_iff.1 setting
    exact reads.inRange (proper_entriesOf proper (found k.part) _ (Toml.mem_of_lookup given))

/-! ## Settings that are saved -/

/-- All parts, in the order in which they are saved. -/
def Part.all : List Part :=
  [.server, .session, .logging, .metrics]

/-- The keys of a part, in the order in which they are saved. -/
def Part.known : Part → List Key
  | server => [.host, .port, .shutdownTimeout]
  | session => [.callTimeout, .busyPolicy, .queueCapacity, .retryAttempts, .retryInterval]
  | logging => [.level, .format]
  | metrics => [.enabled, .listen]

theorem Part.mem_all (p : Part) : p ∈ all := by
  cases p <;> simp [all]

theorem Key.mem_known (k : Key) : k ∈ k.part.known := by
  cases k <;> simp [Part.known, part]

/-- A part is saved with all its keys. -/
theorem sections_eq (s : Settings) : s.sections = Part.all.map fun p =>
    ⟨p.name, p.known.map fun k => (k.name, k.kind.scalar (s.get k))⟩ :=
  rfl

/-- The document that settings are saved as. -/
def document (s : Settings) : List (String × Toml) :=
  Part.all.map fun p =>
    (p.name, .table (p.known.map fun k => (k.name, (k.kind.scalar (s.get k)).value)))

/-- Every key is saved. -/
theorem gives_document (s : Settings) (k : Key) :
    Gives s.document k (k.kind.scalar (s.get k)).value :=
  ⟨_, List.mem_map.2 ⟨k.part, k.part.mem_all, rfl⟩, List.mem_map.2 ⟨k, k.mem_known, rfl⟩⟩

theorem tabular_document (s : Settings) : Tabular s.document := by
  intro p v mem
  obtain ⟨q, -, same⟩ := List.mem_map.1 mem
  exact ⟨_, (Prod.mk.inj same).2.symm⟩

theorem Part.bare_name (p : Part) : Toml.Bare p.name := by
  cases p <;> exact .of_all (by decide) (by decide)

theorem Key.bare_name (k : Key) : Toml.Bare k.name := by
  cases k <;> exact .of_all (by decide) (by decide)

theorem Part.nodup_known (p : Part) : (p.known.map Key.name).Nodup := by
  cases p <;> decide

theorem plain_sections (range : ∀ k : Key, k.kind.InRange (s.get k)) :
    ∀ part ∈ s.sections, Toml.PlainSection part := by
  rw [sections_eq, List.forall_mem_map]
  intro p _
  refine ⟨p.bare_name, ?_, ?_, ?_⟩
  · rw [List.forall_mem_map]
    exact fun k _ => k.bare_name
  · rw [List.map_map]
    exact p.nodup_known
  · rw [List.forall_mem_map]
    exact fun k _ => Kind.fits_scalar (range k)

theorem ofText?_text (range : ∀ k : Key, k.kind.InRange (s.get k)) :
    Toml.ofText? s.text = some s.document := by
  have once : (s.sections.map TomlSection.name).Nodup := by
    show (Part.all.map Part.name).Nodup
    decide
  rw [text, Toml.ofText?_renderAll (plain_sections range) once, sections_eq, List.map_map]
  refine congrArg some (List.map_congr_left fun p _ => ?_)
  simp

/-- Settings in range are read back from the text that they are saved as. -/
theorem read_text (range : ∀ k : Key, k.kind.InRange (s.get k)) : read s.text = .ok s := by
  have document := ofText?_text range
  have proper := Toml.ofText?_proper document
  have settings : ofEntries? s.document = some s :=
    (ofEntries?_iff_holds proper s.tabular_document).2 fun k =>
      .inl ⟨_, s.gives_document k, Kind.reads_scalar (range k)⟩
  rw [read, document, Option.bind_some, settings]

/-! ## Documents that can be loaded -/

/-- The settings that a document leads to: each key has the value that the document gives it, or else
its default. -/
def Overrides (es : List (String × Toml)) (s : Settings) : Prop :=
  ∀ k : Key, Holds es k (s.get k)

/-- What a document has to be like: its values are of the types of their keys and in their ranges,
and those that hold make sense together, whether they are given or left as they are by default. -/
structure Acceptable (es : List (String × Toml)) : Prop where
  typed : ∀ (k : Key) v, Gives es k v → ∃ x, k.kind.Reads v x
  timeout : ¬Holds es .callTimeout (0 : ℕ)
  places : Holds es .busyPolicy BusyPolicy.queue → ¬Holds es .queueCapacity (0 : ℕ)
  address : Holds es .enabled true →
    ∀ listen : String, Holds es .listen listen → ∃ a, SocketAddress.ofText? listen = some a

/-- If all values are of their types, a document leads to settings. -/
theorem exists_overrides (typed : ∀ (k : Key) v, Gives es k v → ∃ x, k.kind.Reads v x) :
    ∃ s, Overrides es s := by
  have each : ∀ k : Key, ∃ x, Holds es k x := by
    intro k
    by_cases given : ∃ v, Gives es k v
    · obtain ⟨v, given⟩ := given
      obtain ⟨x, reads⟩ := typed k v given
      exact ⟨x, .inl ⟨v, given, reads⟩⟩
    · exact ⟨_, .inr ⟨not_exists.1 given, rfl⟩⟩
  choose f holds using each
  exact ⟨ofValues f, fun k => get_ofValues f k ▸ holds k⟩

section

variable (proper : Toml.Proper (.table es))

include proper

/-- A document leads to no other settings. -/
theorem Overrides.unique {t : Settings} (hs : Overrides es s) (ht : Overrides es t) : s = t :=
  eq_of_get fun k => (hs k).unique proper (ht k)

/-- **A document is acceptable** exactly if the settings that it leads to make sense. -/
theorem acceptable_iff : Acceptable es ↔ ∃ s, Overrides es s ∧ s.Sensible := by
  constructor
  · intro acceptable
    obtain ⟨s, leads⟩ := exists_overrides acceptable.typed
    refine ⟨s, leads, ?_, ?_, ?_⟩
    · exact Nat.pos_of_ne_zero fun none => acceptable.timeout (none ▸ leads .callTimeout)
    · intro queue
      exact Nat.pos_of_ne_zero fun none =>
        acceptable.places (queue ▸ leads .busyPolicy) (none ▸ leads .queueCapacity)
    · intro enabled
      exact acceptable.address (enabled ▸ leads .enabled) _ (leads .listen)
  · rintro ⟨s, leads, sensible⟩
    refine ⟨fun k v given => ?_, ?_, ?_, ?_⟩
    · rcases leads k with ⟨w, given', reads⟩ | ⟨absent, -⟩
      · exact ⟨_, given.unique proper given' ▸ reads⟩
      · exact absurd given (absent v)
    · intro none
      exact Nat.ne_of_gt sensible.timeout ((leads .callTimeout).unique proper none)
    · intro queue none
      exact Nat.ne_of_gt (sensible.places ((leads .busyPolicy).unique proper queue))
        ((leads .queueCapacity).unique proper none)
    · intro enabled listen holds
      obtain ⟨a, found⟩ := sensible.address ((leads .enabled).unique proper enabled)
      obtain rfl := (leads .listen).unique proper holds
      exact ⟨a, found⟩

end

variable {text : String}

theorem read_eq_ok_iff : read text = .ok s ↔
    ∃ es, Toml.ofText? text = some es ∧ ofEntries? es = some s := by
  rw [← Option.bind_eq_some_iff, read]
  cases (Toml.ofText? text).bind ofEntries? <;> simp

/-- Settings that have been loaded are loaded again from the text that they are saved as. -/
theorem ofText_text (loaded : ofText text = .ok s) : ofText s.text = .ok s := by
  obtain ⟨reads, sensible⟩ := ofText_eq_ok_iff.1 loaded
  obtain ⟨es, document, settings⟩ := read_eq_ok_iff.1 reads
  have range := inRange_of_ofEntries? (Toml.ofText?_proper document) settings
  exact ofText_eq_ok_iff.2 ⟨read_text range, sensible⟩

section

variable (document : Toml.ofText? text = some es) (tabular : Tabular es)

include document tabular

theorem ofEntries?_iff_overrides : ofEntries? es = some s ↔ Overrides es s :=
  ofEntries?_iff_holds (Toml.ofText?_proper document) tabular

theorem ofText_iff_overrides : ofText text = .ok s ↔ Overrides es s ∧ s.Sensible := by
  rw [ofText_eq_ok_iff, read_eq_ok_iff, ← ofEntries?_iff_overrides document tabular]
  simp [document]

/-- Only what a document gives to the keys that are known makes a difference, not the order in which
it does, and nothing else that stands there. -/
theorem ofText_congr {text' : String} {es' : List (String × Toml)}
    (document' : Toml.ofText? text' = some es') (tabular' : Tabular es')
    (same : ∀ (k : Key) v, Gives es' k v ↔ Gives es k v) : ofText text' = ofText text := by
  have settings : ofEntries? es' = ofEntries? es := by
    refine Option.ext fun s => ?_
    rw [ofEntries?_iff_overrides document' tabular', ofEntries?_iff_overrides document tabular]
    simp only [Overrides, Holds, same]
  rw [ofText, ofText, read, read, document, document', Option.bind_some, Option.bind_some, settings]

/-- **Settings override the defaults.** A document whose parts are tables can be loaded exactly if it
is acceptable. What is loaded has the values that the document gives to its keys and the defaults for
all others. Neither other keys nor the order of the keys make a difference. What is loaded is the
same when it is saved and loaded again. -/
theorem ofText_overrides :
    ((∃ s, ofText text = .ok s) ↔ Acceptable es) ∧
    (∀ s, ofText text = .ok s → Overrides es s ∧ ∀ t, Overrides es t → t = s) ∧
    (∀ text' es', Toml.ofText? text' = some es' → Tabular es' →
      (∀ (k : Key) v, Gives es' k v ↔ Gives es k v) → ofText text' = ofText text) ∧
    (∀ s, ofText text = .ok s → ∃ content, s.save .writable = .ok content ∧
      ofText content = .ok s ∧ ofFile (.bytes content.toUTF8) = .ok s) := by
  have proper := Toml.ofText?_proper document
  refine ⟨?_, fun s loaded => ?_, fun text' es' document' tabular' same => ?_, fun s loaded => ?_⟩
  · rw [acceptable_iff proper]
    exact exists_congr fun s => ofText_iff_overrides document tabular
  · have leads := ((ofText_iff_overrides document tabular).1 loaded).1
    exact ⟨leads, fun t other => other.unique proper leads⟩
  · exact ofText_congr document tabular document' tabular' same
  · have again := ofText_text loaded
    have decoded : String.fromUTF8? s.text.toUTF8 = some s.text := dif_pos (String.isValidUTF8 _)
    refine ⟨s.text, rfl, again, ?_⟩
    rw [ofFile, decoded]
    exact again

end

/-- Five seconds for an answer, and the defaults for the rest. -/
theorem ofText_overrides_five_seconds : ∃ es s,
    Toml.ofText? "[session]\ncall_timeout_secs = 5\n" = some es ∧ Tabular es ∧
      ofText "[session]\ncall_timeout_secs = 5\n" = .ok s ∧ Acceptable es ∧ Overrides es s ∧
      s.session.timeoutSecs = 5 ∧
      ∃ content, s.save .writable = .ok content ∧ ofText content = .ok s ∧
        ofFile (.bytes content.toUTF8) = .ok s := by
  have written : TomlSection.renderAll [⟨"session", [("call_timeout_secs", .nat 5)]⟩] =
      "[session]\ncall_timeout_secs = 5\n" := by decide
  have plain : Toml.PlainSection ⟨"session", [("call_timeout_secs", .nat 5)]⟩ :=
    ⟨Part.bare_name .session, List.forall_mem_singleton.2 (Key.bare_name .callTimeout),
      List.nodup_singleton _, List.forall_mem_singleton.2 (by decide : 5 < 0x8000000000000000)⟩
  have document := Toml.ofText?_renderAll (List.forall_mem_singleton.2 plain)
    (List.nodup_singleton _)
  rw [written] at document
  have tabular : Tabular [("session", .table [("call_timeout_secs", .int 5)])] := by
    intro p v mem
    exact ⟨_, (Prod.mk.inj (List.mem_singleton.1 mem)).2⟩
  have time : (ofText "[session]\ncall_timeout_secs = 5\n").toOption.map
      (·.session.timeoutSecs) = some 5 := by decide +kernel
  cases loaded : ofText "[session]\ncall_timeout_secs = 5\n" with
  | error f =>
    rw [loaded] at time
    cases time
  | ok s =>
    rw [loaded] at time
    obtain ⟨accepts, overrides, -, saves⟩ := ofText_overrides document tabular
    exact ⟨_, s, document, tabular, rfl, accepts.1 ⟨s, loaded⟩, (overrides s loaded).1,
      Option.some.inj time, saves s loaded⟩

end ChargeLink.Settings
