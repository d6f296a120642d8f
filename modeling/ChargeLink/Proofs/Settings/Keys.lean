import ChargeLink.Proofs.Toml.Proper
import ChargeLink.Settings.Document

/-!
# The keys of a document of settings

The twelve keys that are known belong to four parts. The settings of a document
are read part by part; here they are told key by key: a key has the value that
the document gives it, or else its default.

* `Settings.Kind.read?_eq_some_iff`: a value is read exactly as what it means.
* `Settings.ofEntries?_iff_holds`: what is read of a document is what holds there.
-/

namespace ChargeLink

namespace Toml

variable {es : List (String × Toml)} {key : String}

theorem mem_of_lookup {v : Toml} (found : lookup key es = some v) : (key, v) ∈ es := by
  induction es with
  | nil => cases found
  | cons e es ih =>
    rw [lookup] at found
    split at found
    · rename_i same
      cases found
      rw [← eq_of_beq same]
      exact List.mem_cons_self
    · exact List.mem_cons_of_mem _ (ih found)

theorem lookup_of_mem {v : Toml} (once : (es.map Prod.fst).Nodup) (mem : (key, v) ∈ es) :
    lookup key es = some v := by
  induction es with
  | nil => cases mem
  | cons e es ih =>
    rw [List.map_cons, List.nodup_cons] at once
    rcases List.mem_cons.1 mem with rfl | mem
    · rw [lookup, if_pos (beq_self_eq_true key)]
    · have other : ¬(e.1 == key) = true := fun same =>
        once.1 (List.mem_map.2 ⟨_, mem, (eq_of_beq same).symm⟩)
      rw [lookup, if_neg other]
      exact ih once.2 mem

theorem lookup_eq_some_iff {v : Toml} (once : (es.map Prod.fst).Nodup) :
    lookup key es = some v ↔ (key, v) ∈ es :=
  ⟨mem_of_lookup, lookup_of_mem once⟩

/-- A setting is what its key is given, or its default if the key is missing. -/
theorem setting_eq_some_iff {α : Type} {read : Toml → Option α} {d x : α} (once : (es.map Prod.fst).Nodup) :
    setting es key read d = some x ↔
      (∃ v, (key, v) ∈ es ∧ read v = some x) ∨ (∀ v, (key, v) ∉ es) ∧ x = d := by
  have found : ∀ v, lookup key es = some v ↔ (key, v) ∈ es := fun _ => lookup_eq_some_iff once
  unfold setting
  cases h : lookup key es with
  | none =>
    have absent : ∀ v, (key, v) ∉ es := fun v mem => by
      cases h.symm.trans ((found v).2 mem)
    simp [absent, eq_comm]
  | some v =>
    have mem := (found v).1 h
    have only : ∀ w, (key, w) ∈ es → w = v := fun w other => by
      exact Option.some.inj (((found w).2 other).symm.trans h)
    constructor
    · exact fun reads => .inl ⟨v, mem, reads⟩
    · rintro (⟨w, other, reads⟩ | ⟨absent, -⟩)
      · exact only w other ▸ reads
      · exact absurd mem (absent v)

end Toml

namespace Settings

/-- The parts of the settings, which are sections of their document. -/
inductive Part where
  | server
  | session
  | logging
  | metrics

/-- The name of a part. -/
def Part.name : Part → String
  | server => "server"
  | session => "session"
  | logging => "logging"
  | metrics => "metrics"

/-- The keys of a part. -/
def Part.keys : Part → List String
  | server => serverKeys
  | session => sessionKeys
  | logging => loggingKeys
  | metrics => metricsKeys

/-- What a key is set to; a number has to be below a bound. -/
inductive Kind where
  | text
  | number (bound : ℕ)
  | flag
  | policy

namespace Kind

/-- The values of a kind. -/
def Value : Kind → Type
  | text => String
  | number _ => ℕ
  | flag => Bool
  | policy => BusyPolicy

/-- The reader of a kind. -/
def read? : (t : Kind) → Toml → Option t.Value
  | text => Toml.text?
  | number bound => Toml.natBelow? bound
  | flag => Toml.flag?
  | policy => Toml.busyPolicy?

/-- What a value of a document means as one of a kind. A policy is given by its word, or by a table
with nothing under its word. -/
def Reads : (t : Kind) → Toml → t.Value → Prop
  | text, v, (s : String) => v = .text s
  | number bound, v, (n : ℕ) => v = .int n ∧ n < bound
  | flag, v, (b : Bool) => v = .flag b
  | policy, v, (p : BusyPolicy) => v = .text p.word ∨
      v = .table [(p.word, .table [])] ∨ v = .table [(p.word, .array [])]

section

variable {v : Toml}

theorem text?_eq_some_iff {s : String} : v.text? = some s ↔ v = .text s := by
  cases v <;> simp [Toml.text?]

theorem flag?_eq_some_iff {b : Bool} : v.flag? = some b ↔ v = .flag b := by
  cases v <;> simp [Toml.flag?]

theorem natBelow?_eq_some_iff {bound n : ℕ} :
    v.natBelow? bound = some n ↔ v = .int n ∧ n < bound := by
  cases v with
  | int i =>
    rw [Toml.natBelow?, Option.ite_none_right_eq_some, Toml.int.injEq, Option.some.injEq]
    omega
  | _ => simp [Toml.natBelow?]

theorem isEmptyPart_iff : v.isEmptyPart = true ↔ v = .table [] ∨ v = .array [] := by
  unfold Toml.isEmptyPart
  split <;> simp_all

theorem word_eq_iff {p : BusyPolicy} {word : String} :
    (if word = "queue" then some BusyPolicy.queue
      else if word = "reject" then some .reject else none) = some p ↔ word = p.word := by
  cases p <;> simp only [BusyPolicy.word] <;> split <;> simp_all

theorem busyPolicy?_eq_some_iff {p : BusyPolicy} : v.busyPolicy? = some p ↔
    v = .text p.word ∨ v = .table [(p.word, .table [])] ∨ v = .table [(p.word, .array [])] := by
  unfold Toml.busyPolicy?
  split
  · rw [word_eq_iff]
    simp
  · rename_i name w
    have rest : (if (!w.isEmptyPart) = true then none
        else if name = "queue" then some BusyPolicy.queue
        else if name = "reject" then some .reject else none) = some p ↔
        w.isEmptyPart = true ∧ name = p.word := by
      rw [← word_eq_iff]
      cases w.isEmptyPart <;> simp
    rw [rest, isEmptyPart_iff]
    simp
    tauto
  · rename_i noText noTable
    simp only [reduceCtorEq, false_iff]
    rintro (rfl | rfl | rfl)
    · exact noText _ rfl
    · exact noTable _ _ rfl
    · exact noTable _ _ rfl

end

/-- **A value is read** exactly as what it means. -/
theorem read?_eq_some_iff {t : Kind} {v : Toml} {x : t.Value} :
    t.read? v = some x ↔ t.Reads v x := by
  cases t with
  | text => exact text?_eq_some_iff
  | number bound => exact natBelow?_eq_some_iff
  | flag => exact flag?_eq_some_iff
  | policy => exact busyPolicy?_eq_some_iff

end Kind

/-- The keys that are known. -/
inductive Key where
  | host
  | port
  | shutdownTimeout
  | callTimeout
  | busyPolicy
  | queueCapacity
  | retryAttempts
  | retryInterval
  | level
  | format
  | enabled
  | listen

namespace Key

/-- The part that a key belongs to. -/
def part : Key → Part
  | host | port | shutdownTimeout => .server
  | callTimeout | busyPolicy | queueCapacity | retryAttempts | retryInterval => .session
  | level | format => .logging
  | enabled | listen => .metrics

/-- The key as it stands in a document. -/
def name : Key → String
  | host => "host"
  | port => "port"
  | shutdownTimeout => "shutdown_timeout"
  | callTimeout => "call_timeout_secs"
  | busyPolicy => "busy_policy"
  | queueCapacity => "queue_capacity"
  | retryAttempts => "transaction_retry_attempts"
  | retryInterval => "transaction_retry_interval_ms"
  | level => "level"
  | format => "format"
  | enabled => "enabled"
  | listen => "listen"

/-- What a key is set to. -/
def kind : Key → Kind
  | host | level | format | listen => .text
  | port => .number 0x10000
  | shutdownTimeout | callTimeout | queueCapacity | retryInterval => .number 0x10000000000000000
  | retryAttempts => .number 0x100000000
  | enabled => .flag
  | busyPolicy => .policy

end Key

/-- The value of a key. -/
def get (s : Settings) : (k : Key) → k.kind.Value
  | .host => s.server.host
  | .port => s.server.port
  | .shutdownTimeout => s.server.shutdownTimeout
  | .callTimeout => s.session.timeoutSecs
  | .busyPolicy => s.session.busyPolicy
  | .queueCapacity => s.session.queueCapacity
  | .retryAttempts => s.session.retryAttempts
  | .retryInterval => s.session.retryIntervalMs
  | .level => s.logging.level
  | .format => s.logging.format
  | .enabled => s.metrics.enabled
  | .listen => s.metrics.listen

/-- Settings from the values of all keys. -/
def ofValues (f : (k : Key) → k.kind.Value) : Settings where
  server := ⟨f .host, f .port, f .shutdownTimeout⟩
  session := ⟨f .callTimeout, f .busyPolicy, f .queueCapacity, f .retryAttempts, f .retryInterval⟩
  logging := ⟨f .level, f .format⟩
  metrics := ⟨f .enabled, f .listen⟩

theorem get_ofValues (f : (k : Key) → k.kind.Value) (k : Key) : (ofValues f).get k = f k := by
  cases k <;> rfl

theorem ofValues_get (s : Settings) : ofValues s.get = s := rfl

/-- Settings are the same if all keys have the same values. -/
theorem eq_of_get {s t : Settings} (same : ∀ k, s.get k = t.get k) : s = t := by
  rw [← ofValues_get s, ← ofValues_get t, funext same]

/-- The entries of a part: none if the part is missing. -/
def entriesOf (es : List (String × Toml)) (p : Part) : Option (List (String × Toml)) :=
  match Toml.lookup p.name es with
  | none => some []
  | some v => v.part? p.keys

variable {es : List (String × Toml)} {s : Settings} {within : Part → List (String × Toml)}

/-- A part is read from its entries, whether it is missing, a table or an array. -/
theorem setting_part {α : Type} {read : Toml → Option α} {d : α} (p : Part)
    (body : ∀ v, read v = (v.part? p.keys).bind fun entries => read (.table entries))
    (empty : read (.table []) = some d) :
    Toml.setting es p.name read d =
      (entriesOf es p).bind fun entries => read (.table entries) := by
  unfold Toml.setting entriesOf
  cases Toml.lookup p.name es with
  | none => exact empty.symm
  | some v => exact body v

/-- The settings of a document are those of its four parts. -/
theorem ofEntries?_iff_parts : ofEntries? es = some s ↔
    ((entriesOf es .server).bind fun entries => serverOf? (.table entries)) = some s.server ∧
    ((entriesOf es .session).bind fun entries => sessionOf? (.table entries)) = some s.session ∧
    ((entriesOf es .logging).bind fun entries => loggingOf? (.table entries)) = some s.logging ∧
    ((entriesOf es .metrics).bind fun entries => metricsOf? (.table entries)) = some s.metrics := by
  rw [← setting_part .server (fun _ => rfl) (d := standard.server) rfl,
    ← setting_part .session (fun _ => rfl) (d := standard.session) rfl,
    ← setting_part .logging (fun _ => rfl) (d := standard.logging) rfl,
    ← setting_part .metrics (fun _ => rfl) (d := standard.metrics) rfl]
  obtain ⟨server, session, logging, metrics⟩ := s
  simp only [ofEntries?, Option.bind_eq_bind, Option.bind_eq_some_iff, Option.pure_def,
    Option.some.injEq, Settings.mk.injEq]
  constructor
  · rintro ⟨_, server, _, session, _, logging, _, metrics, rfl, rfl, rfl, rfl⟩
    exact ⟨server, session, logging, metrics⟩
  · rintro ⟨server, session, logging, metrics⟩
    exact ⟨_, server, _, session, _, logging, _, metrics, rfl, rfl, rfl, rfl⟩

theorem Key.forall_iff {P : Key → Prop} : (∀ k, P k) ↔
    (P .host ∧ P .port ∧ P .shutdownTimeout) ∧
      (P .callTimeout ∧ P .busyPolicy ∧ P .queueCapacity ∧ P .retryAttempts ∧ P .retryInterval) ∧
      (P .level ∧ P .format) ∧ P .enabled ∧ P .listen := by
  constructor
  · intro all
    exact ⟨⟨all _, all _, all _⟩, ⟨all _, all _, all _, all _, all _⟩, ⟨all _, all _⟩, all _, all _⟩
  · rintro ⟨⟨_, _, _⟩, ⟨_, _, _, _, _⟩, ⟨_, _⟩, _, _⟩ k
    cases k <;> assumption

section

variable {entries : List (String × Toml)}

theorem serverOf?_iff {server : ServerSettings} : serverOf? (.table entries) = some server ↔
    Toml.setting entries "host" Toml.text? standard.server.host = some server.host ∧
    Toml.setting entries "port" (Toml.natBelow? 0x10000) standard.server.port =
      some server.port ∧
    Toml.setting entries "shutdown_timeout" (Toml.natBelow? 0x10000000000000000)
      standard.server.shutdownTimeout = some server.shutdownTimeout := by
  obtain ⟨host, port, timeout⟩ := server
  simp only [serverOf?, Toml.part?, Option.bind_eq_bind, Option.bind_some,
    Option.bind_eq_some_iff, Option.pure_def, Option.some.injEq, ServerSettings.mk.injEq]
  constructor
  · rintro ⟨_, host, _, port, _, timeout, rfl, rfl, rfl⟩
    exact ⟨host, port, timeout⟩
  · rintro ⟨host, port, timeout⟩
    exact ⟨_, host, _, port, _, timeout, rfl, rfl, rfl⟩

theorem sessionOf?_iff {calls : CallSettings} : sessionOf? (.table entries) = some calls ↔
    Toml.setting entries "call_timeout_secs" (Toml.natBelow? 0x10000000000000000)
      standard.session.timeoutSecs = some calls.timeoutSecs ∧
    Toml.setting entries "busy_policy" Toml.busyPolicy? standard.session.busyPolicy =
      some calls.busyPolicy ∧
    Toml.setting entries "queue_capacity" (Toml.natBelow? 0x10000000000000000)
      standard.session.queueCapacity = some calls.queueCapacity ∧
    Toml.setting entries "transaction_retry_attempts" (Toml.natBelow? 0x100000000)
      standard.session.retryAttempts = some calls.retryAttempts ∧
    Toml.setting entries "transaction_retry_interval_ms" (Toml.natBelow? 0x10000000000000000)
      standard.session.retryIntervalMs = some calls.retryIntervalMs := by
  obtain ⟨timeout, policy, capacity, attempts, interval⟩ := calls
  simp only [sessionOf?, Toml.part?, Option.bind_eq_bind, Option.bind_some,
    Option.bind_eq_some_iff, Option.pure_def, Option.some.injEq, CallSettings.mk.injEq]
  constructor
  · rintro ⟨_, timeout, _, policy, _, capacity, _, attempts, _, interval, rfl, rfl, rfl, rfl, rfl⟩
    exact ⟨timeout, policy, capacity, attempts, interval⟩
  · rintro ⟨timeout, policy, capacity, attempts, interval⟩
    exact ⟨_, timeout, _, policy, _, capacity, _, attempts, _, interval, rfl, rfl, rfl, rfl, rfl⟩

theorem loggingOf?_iff {logging : LogSettings} : loggingOf? (.table entries) = some logging ↔
    Toml.setting entries "level" Toml.text? standard.logging.level = some logging.level ∧
    Toml.setting entries "format" Toml.text? standard.logging.format = some logging.format := by
  obtain ⟨level, format⟩ := logging
  simp only [loggingOf?, Toml.part?, Option.bind_eq_bind, Option.bind_some,
    Option.bind_eq_some_iff, Option.pure_def, Option.some.injEq, LogSettings.mk.injEq]
  constructor
  · rintro ⟨_, level, _, format, rfl, rfl⟩
    exact ⟨level, format⟩
  · rintro ⟨level, format⟩
    exact ⟨_, level, _, format, rfl, rfl⟩

theorem metricsOf?_iff {metrics : MetricsSettings} : metricsOf? (.table entries) = some metrics ↔
    Toml.setting entries "enabled" Toml.flag? standard.metrics.enabled = some metrics.enabled ∧
    Toml.setting entries "listen" Toml.text? standard.metrics.listen = some metrics.listen := by
  obtain ⟨enabled, listen⟩ := metrics
  simp only [metricsOf?, Toml.part?, Option.bind_eq_bind, Option.bind_some,
    Option.bind_eq_some_iff, Option.pure_def, Option.some.injEq, MetricsSettings.mk.injEq]
  constructor
  · rintro ⟨_, enabled, _, listen, rfl, rfl⟩
    exact ⟨enabled, listen⟩
  · rintro ⟨enabled, listen⟩
    exact ⟨_, enabled, _, listen, rfl, rfl⟩

end

/-- The settings of a document are those of its keys. -/
theorem ofEntries?_iff (found : ∀ p, entriesOf es p = some (within p)) :
    ofEntries? es = some s ↔ ∀ k : Key,
      Toml.setting (within k.part) k.name k.kind.read? (standard.get k) = some (s.get k) := by
  rw [ofEntries?_iff_parts, found, found, found, found, Key.forall_iff]
  exact and_congr serverOf?_iff (and_congr sessionOf?_iff (and_congr loggingOf?_iff metricsOf?_iff))

/-- A document that is read has entries for each of its parts. -/
theorem entriesOf_isSome (h : ofEntries? es = some s) (p : Part) :
    ∃ entries, entriesOf es p = some entries := by
  obtain ⟨server, session, logging, metrics⟩ := ofEntries?_iff_parts.1 h
  cases p with
  | server => exact (Option.bind_eq_some_iff.1 server).imp fun _ => And.left
  | session => exact (Option.bind_eq_some_iff.1 session).imp fun _ => And.left
  | logging => exact (Option.bind_eq_some_iff.1 logging).imp fun _ => And.left
  | metrics => exact (Option.bind_eq_some_iff.1 metrics).imp fun _ => And.left

/-! ## What a document says -/

/-- A document sets a known key to a value. -/
def Gives (es : List (String × Toml)) (k : Key) (v : Toml) : Prop :=
  ∃ entries, (k.part.name, .table entries) ∈ es ∧ (k.name, v) ∈ entries

/-- The parts that a document has are tables. -/
def Tabular (es : List (String × Toml)) : Prop :=
  ∀ (p : Part) v, (p.name, v) ∈ es → ∃ entries, v = .table entries

/-- The value of a key, set by a document or left as it is by default. -/
def Holds (es : List (String × Toml)) (k : Key) (x : k.kind.Value) : Prop :=
  (∃ v, Gives es k v ∧ k.kind.Reads v x) ∨ (∀ v, ¬Gives es k v) ∧ x = standard.get k

/-- In a proper document whose parts are tables, each part has entries, and they give what the
document gives. -/
theorem exists_within (proper : Toml.Proper (.table es)) (tabular : Tabular es) :
    ∃ within : Part → List (String × Toml), (∀ p, entriesOf es p = some (within p)) ∧
      (∀ p, ((within p).map Prod.fst).Nodup) ∧
      ∀ k v, Gives es k v ↔ (k.name, v) ∈ within k.part := by
  obtain ⟨once, each⟩ := Toml.proper_table_iff.1 proper
  have part : ∀ p : Part, ∃ entries, entriesOf es p = some entries ∧
      (entries.map Prod.fst).Nodup ∧
      ∀ e, (∃ entries', (p.name, .table entries') ∈ es ∧ e ∈ entries') ↔ e ∈ entries := by
    intro p
    unfold entriesOf
    cases found : Toml.lookup p.name es with
    | none =>
      refine ⟨[], rfl, List.nodup_nil, fun e => ⟨?_, fun none => nomatch none⟩⟩
      rintro ⟨entries', mem, -⟩
      cases found.symm.trans ((Toml.lookup_eq_some_iff once).2 mem)
    | some v =>
      have mem := (Toml.lookup_eq_some_iff once).1 found
      obtain ⟨entries, rfl⟩ := tabular p v mem
      refine ⟨entries, rfl, (Toml.proper_table_iff.1 (each _ mem)).1, fun e => ⟨?_, ?_⟩⟩
      · rintro ⟨entries', other, inside⟩
        cases found.symm.trans ((Toml.lookup_eq_some_iff once).2 other)
        exact inside
      · exact fun inside => ⟨entries, mem, inside⟩
  choose within found keys gives using part
  exact ⟨within, found, keys, fun k v => gives k.part (k.name, v)⟩

/-- **The settings of a document hold there,** key by key. -/
theorem ofEntries?_iff_holds (proper : Toml.Proper (.table es)) (tabular : Tabular es) :
    ofEntries? es = some s ↔ ∀ k, Holds es k (s.get k) := by
  obtain ⟨within, found, keys, gives⟩ := exists_within proper tabular
  rw [ofEntries?_iff found]
  refine forall_congr' fun k => ?_
  rw [Toml.setting_eq_some_iff (keys k.part)]
  simp only [Holds, gives, Kind.read?_eq_some_iff]

/-- A document gives a key one value at most. -/
theorem Gives.unique {k : Key} {v w : Toml} (proper : Toml.Proper (.table es))
    (hv : Gives es k v) (hw : Gives es k w) : v = w := by
  obtain ⟨once, each⟩ := Toml.proper_table_iff.1 proper
  obtain ⟨entries, part, mem⟩ := hv
  obtain ⟨entries', part', mem'⟩ := hw
  cases ((Toml.lookup_eq_some_iff once).2 part).symm.trans ((Toml.lookup_eq_some_iff once).2 part')
  have keys := (Toml.proper_table_iff.1 (each _ part)).1
  exact Option.some.inj (((Toml.lookup_eq_some_iff keys).2 mem).symm.trans
    ((Toml.lookup_eq_some_iff keys).2 mem'))

/-- A key has one value. -/
theorem Holds.unique {k : Key} {x y : k.kind.Value} (proper : Toml.Proper (.table es))
    (hx : Holds es k x) (hy : Holds es k y) : x = y := by
  rcases hx with ⟨v, given, reads⟩ | ⟨absent, rfl⟩
  · rcases hy with ⟨w, given', reads'⟩ | ⟨absent, -⟩
    · obtain rfl := given.unique proper given'
      exact Option.some.inj ((Kind.read?_eq_some_iff.2 reads).symm.trans
        (Kind.read?_eq_some_iff.2 reads'))
    · exact absurd given (absent v)
  · rcases hy with ⟨w, given, -⟩ | ⟨-, rfl⟩
    · exact absurd given (absent w)
    · rfl

end Settings

end ChargeLink
