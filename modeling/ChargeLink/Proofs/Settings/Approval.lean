import ChargeLink.CommandLine

/-!
# Checking the settings

The program loads its settings, and goes on with the defaults if they cannot be
loaded; then it puts in what the command line sets, and looks at what it has. A
check of the settings does the same. Settings that can be loaded make sense, so
do the defaults, and neither a port nor a log level spoils them: the check never
finds anything wrong.

* `Settings.ofFile_eq_ok_iff`: which files can be loaded.
* `Options.sensible_settings`: what the program has makes sense.
* `Options.checked_ofFile`: the check approves of every file, and does not tell one that cannot be
  loaded from one that is missing.
-/

namespace ChargeLink

namespace Settings

variable {s : Settings} {file : StoredFile}

/-- Settings that make sense: calls have time for an answer, a queue has places, and counters that
are published have an address. -/
structure Sensible (s : Settings) : Prop where
  timeout : 0 < s.session.timeoutSecs
  places : s.session.busyPolicy = .queue → 0 < s.session.queueCapacity
  address : s.metrics.enabled = true → ∃ a, s.metrics.address? = some a

theorem fault?_eq_none_iff : s.fault? = none ↔ s.Sensible := by
  unfold fault?
  constructor
  · intro none
    split at none
    · cases none
    · rename_i time
      split at none
      · cases none
      · rename_i queue
        split at none
        · cases none
        · rename_i listen
          refine ⟨Nat.pos_of_ne_zero time, fun waits => ?_, fun enabled => ?_⟩
          · exact Nat.pos_of_ne_zero fun empty => queue ⟨waits, empty⟩
          · refine Option.isSome_iff_exists.1 ?_
            rw [← Option.not_isNone, Bool.not_eq_true']
            exact Bool.eq_false_iff.2 fun bad => listen ⟨enabled, bad⟩
  · intro sensible
    have time : s.session.timeoutSecs ≠ 0 := Nat.ne_of_gt sensible.timeout
    have queue : ¬(s.session.busyPolicy = .queue ∧ s.session.queueCapacity = 0) := by
      rintro ⟨waits, empty⟩
      exact Nat.ne_of_gt (sensible.places waits) empty
    have listen : ¬(s.metrics.enabled = true ∧ s.metrics.address?.isNone = true) := by
      rintro ⟨enabled, bad⟩
      obtain ⟨a, found⟩ := sensible.address enabled
      rw [found] at bad
      cases bad
    rw [if_neg time, if_neg queue, if_neg listen]

/-- What is loaded from a text is what stands there, if it makes sense. -/
theorem ofText_eq_ok_iff {text : String} :
    ofText text = .ok s ↔ read text = .ok s ∧ s.Sensible := by
  rw [ofText, ← fault?_eq_none_iff]
  cases reads : read text with
  | error f => simp [Except.bind]
  | ok t =>
    show t.check = .ok s ↔ _
    rw [check_eq_ok_iff, Except.ok.injEq]
    constructor
    · rintro ⟨sense, rfl⟩
      exact ⟨rfl, sense⟩
    · rintro ⟨rfl, sense⟩
      exact ⟨sense, rfl⟩

/-- **A file can be loaded** if it is missing, or holds a text that can be read and makes sense. -/
theorem ofFile_eq_ok_iff : ofFile file = .ok s ↔
    file = .missing ∧ s = standard ∨
      ∃ content text, file = .bytes content ∧ String.fromUTF8? content = some text ∧
        read text = .ok s ∧ s.Sensible := by
  cases file with
  | missing => simp [ofFile, eq_comm]
  | directory => simp [ofFile]
  | bytes content =>
    cases decoded : String.fromUTF8? content with
    | none => simp [ofFile, decoded]
    | some text => simp [ofFile, decoded, ofText_eq_ok_iff]

/-- Settings that can be loaded make sense. -/
theorem sensible_of_ofFile (loaded : ofFile file = .ok s) : s.Sensible := by
  rcases ofFile_eq_ok_iff.1 loaded with ⟨-, rfl⟩ | ⟨-, -, -, -, -, sensible⟩
  · exact fault?_eq_none_iff.1 fault?_standard
  · exact sensible

end Settings

namespace Options

open Settings (Sensible ofFile)

variable {o : Options} {path : String} {file : StoredFile} {s : Settings}

/-- **What the program has makes sense,** whether its settings can be loaded or not. -/
theorem sensible_settings (o : Options) (file : StoredFile) :
    (o.settings (ofFile file)).Sensible := by
  -- neither a port nor a log level has a say in this
  have kept : ∀ {s : Settings} {server logging}, s.Sensible →
      Sensible { s with server, logging } := fun h => ⟨h.timeout, h.places, h.address⟩
  cases loaded : ofFile file with
  | ok s => exact kept (Settings.sensible_of_ofFile loaded)
  | error f => exact kept (Settings.fault?_eq_none_iff.1 Settings.fault?_standard)

/-- The check prints a report of what the program has. -/
theorem checked_eq (o : Options) (path : String) (file : StoredFile) :
    o.checked path (ofFile file) = .ok (report path (o.settings (ofFile file))) := by
  have sense := Settings.fault?_eq_none_iff.2 (o.sensible_settings file)
  rw [checked, Settings.check_eq_ok_iff.2 ⟨sense, rfl⟩]

/-- The check approves of a file. -/
def Approves (o : Options) (path : String) (file : StoredFile) : Prop :=
  ∃ details, o.checked path (ofFile file) = .ok ("Configuration is valid\n" ++ details)

theorem approves (o : Options) (path : String) (file : StoredFile) : o.Approves path file := by
  unfold Approves
  rw [checked_eq]
  unfold report
  repeat rw [String.append_assoc]
  exact ⟨_, rfl⟩

/-- **The check approves of every file.** If the file can be loaded, its settings make sense, and
the check reports them with what the command line puts in their place. If it cannot, the check
prints what it prints when there is no file. -/
theorem checked_ofFile (o : Options) (path : String) (file : StoredFile) :
    o.Approves path file ∧
    (∀ s, ofFile file = .ok s → s.Sensible ∧
      o.checked path (ofFile file) = .ok (report path (o.settings (.ok s)))) ∧
    (∀ f, ofFile file = .error f →
      o.checked path (ofFile file) = o.checked path (ofFile .missing)) := by
  refine ⟨o.approves path file, fun s loaded => ?_, fun f refused => ?_⟩
  · exact ⟨Settings.sensible_of_ofFile loaded, by rw [checked_eq, loaded]⟩
  · rw [checked_eq, checked_eq, refused]
    rfl

/-- A file that leaves no time for an answer cannot be loaded, and the check approves of it. -/
theorem no_timeout_approved :
    ofFile (.bytes "[session]\ncall_timeout_secs=0".toUTF8) = .error .noTimeout ∧
      Approves ⟨some "config.toml", .none, .none, true⟩ "config.toml"
        (.bytes "[session]\ncall_timeout_secs=0".toUTF8) := by
  refine ⟨?_, approves ..⟩
  have decoded : String.fromUTF8? "[session]\ncall_timeout_secs=0".toUTF8 =
    some "[session]\ncall_timeout_secs=0" := dif_pos (String.isValidUTF8 _)
  have time : (Settings.read "[session]\ncall_timeout_secs=0").toOption.map
    (·.session.timeoutSecs) = some 0 := by decide +kernel
  simp only [ofFile, decoded, Settings.ofText]
  cases reads : Settings.read "[session]\ncall_timeout_secs=0" with
  | error f =>
    rw [reads] at time
    cases time
  | ok s =>
    rw [reads] at time
    have none : s.session.timeoutSecs = 0 := Option.some.inj time
    have fault : s.fault? = some .noTimeout := if_pos none
    show s.check = .error .noTimeout
    rw [Settings.check, fault]

end Options

end ChargeLink
