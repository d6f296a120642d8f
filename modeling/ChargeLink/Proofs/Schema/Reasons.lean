import ChargeLink.Proofs.Catalog.Reencoding
import ChargeLink.Proofs.Schema.Conforms
import ChargeLink.Text.Split

/-!
# What the reason of a fault gives away

The reason of a fault in reading is a text, and nothing but that text is needed to
tell which code the fault has and which member it names: `PayloadFault.ofReason`
goes by how the text begins, and by the first name between ticks. So the words
must not lead astray, whatever the payload and the names in it are.

* `DecodeFault.report_eq_ofReason`: a fault is reported as its reason tells.
* `Version.decoding_truthful`: which payloads are read, and that the report on any other is true.
-/

namespace ChargeLink

namespace Text

/-- Whether a text begins with another one. -/
def begins (start text : String) : Bool :=
  start.toList.isPrefixOf text.toList

/-- The character on both sides of a name. -/
def tick : Char :=
  Char.ofNat 0x60

/-- What stands between the first two ticks. -/
def ticked? (text : String) : Option String :=
  (split tick text)[1]?

variable {start lead : String}

/-- A long enough lead decides how a text begins. -/
theorem begins_append (short : start.toList.length ≤ lead.toList.length) (rest : String) :
    begins start (lead ++ rest) = begins start lead := by
  unfold begins
  rw [Bool.eq_iff_iff, List.isPrefixOf_iff_prefix, List.isPrefixOf_iff_prefix, String.toList_append]
  constructor
  · intro whole
    exact List.prefix_of_prefix_length_le whole (List.prefix_append ..) short
  · intro h
    exact h.trans (List.prefix_append ..)

/-- A name without ticks is found between its ticks. -/
theorem ticked?_append {key : String} (clear : tick ∉ lead.toList) (plain : tick ∉ key.toList) :
    ticked? (lead ++ DecodeFault.ticked key) = some key := by
  have text : (lead ++ DecodeFault.ticked key).toList =
      lead.toList ++ tick :: (key.toList ++ tick :: []) := by
    simp [DecodeFault.ticked]
    rfl
  rw [ticked?, split, text, splitChars_append_sep, splitChars_append_sep,
    splitChars_of_notMem clear, splitChars_of_notMem plain]
  simp

end Text

namespace PayloadFault

/-- Whether a reason is one of a mismatch. -/
def tellsMismatch (reason : String) : Bool :=
  Text.begins "invalid type" reason || Text.begins "invalid value" reason ||
    Text.begins "unknown variant" reason

/-- The fault that a reason tells of. -/
def ofReason (reason : String) : PayloadFault :=
  if Text.begins "missing field" reason then
    ⟨.occurrenceConstraintViolation, Text.ticked? reason, some "required", none, reason⟩
  else if tellsMismatch reason then
    ⟨.typeConstraintViolation, none, some "type", none, reason⟩
  else .plain .formationViolation reason

variable {lead : String}

theorem ofReason_missing {key : String} (plain : Text.tick ∉ key.toList) :
    ofReason ("missing field " ++ DecodeFault.ticked key) =
      ⟨.occurrenceConstraintViolation, some key, some "required", none,
        "missing field " ++ DecodeFault.ticked key⟩ := by
  have begun : Text.begins "missing field" ("missing field " ++ DecodeFault.ticked key) = true := by
    rw [Text.begins_append (by decide)]
    decide
  rw [ofReason, if_pos begun, Text.ticked?_append (by decide) plain]

/-- A reason of a mismatch is one, whatever comes after its first words. -/
theorem ofReason_mismatch (start : String) {lead : String} (rest : String)
    (known : start ∈ ["invalid type", "invalid value", "unknown variant"])
    (long : "missing field".toList.length ≤ lead.toList.length ∧
      start.toList.length ≤ lead.toList.length)
    (other : Text.begins "missing field" lead = false) (begun : Text.begins start lead = true) :
    ofReason (lead ++ rest) =
      ⟨.typeConstraintViolation, none, some "type", none, lead ++ rest⟩ := by
  have unmissed : Text.begins "missing field" (lead ++ rest) = false := by
    rw [Text.begins_append long.1, other]
  have tells : tellsMismatch (lead ++ rest) = true := by
    have begun : Text.begins start (lead ++ rest) = true := by
      rw [Text.begins_append long.2, begun]
    simp only [List.mem_cons, List.not_mem_nil, or_false] at known
    rcases known with rfl | rfl | rfl <;> simp [tellsMismatch, begun]
  simp [ofReason, unmissed, tells]

theorem ofReason_plain {reason : String} (other : Text.begins "missing field" reason = false)
    (untold : tellsMismatch reason = false) :
    ofReason reason = .plain .formationViolation reason := by
  simp [ofReason, other, untold]

/-- A wrong length is no mismatch, whatever the length is. -/
theorem ofReason_length (rest : String) : ofReason ("invalid length " ++ rest) =
    .plain .formationViolation ("invalid length " ++ rest) := by
  refine ofReason_plain ?_ ?_
  · rw [Text.begins_append (by decide)]
    decide
  · rw [tellsMismatch, Text.begins_append (by decide), Text.begins_append (by decide),
      Text.begins_append (by decide)]
    decide

end PayloadFault

open PayloadFault in
/-- **A fault is reported as its reason tells**, if a name that it tells of has no tick. -/
theorem DecodeFault.report_eq_ofReason (fault : DecodeFault)
    (plain : ∀ key, fault = .missing key → Text.tick ∉ key.toList) :
    fault.report = .ofReason fault.reason := by
  cases fault with
  | notObject =>
    change _ = ofReason "payload is not a JSON object"
    rw [ofReason_plain (by decide) (by decide)]
    rfl
  | missing key =>
    change _ = ofReason ("missing field " ++ ticked key)
    rw [ofReason_missing (plain key rfl)]
    rfl
  | wrongType found wanted =>
    have words : (wrongType found wanted).reason =
        "invalid type: " ++ (describe found ++ (", expected " ++ wanted)) := by
      simp only [← String.append_assoc]
      rfl
    simp only [report, code]
    rw [words, ofReason_mismatch "invalid type" _ (by decide) (by decide) (by decide)
      (by decide)]
  | wrongValue found wanted =>
    have words : (wrongValue found wanted).reason =
        "invalid value: " ++ (describe found ++ (", expected " ++ wanted)) := by
      simp only [← String.append_assoc]
      rfl
    simp only [report, code]
    rw [words, ofReason_mismatch "invalid value" _ (by decide) (by decide) (by decide)
      (by decide)]
  | unknownVariant found variants =>
    have words : (unknownVariant found variants).reason =
        "unknown variant " ++ (ticked found ++ (", " ++ oneOf variants)) := by
      simp only [← String.append_assoc]
      rfl
    simp only [report, code]
    rw [words, ofReason_mismatch "unknown variant" _ (by decide) (by decide) (by decide)
      (by decide)]
  | wrongLength got record members =>
    have words : (wrongLength got record members).reason =
        "invalid length " ++ (toString got ++ (", expected struct " ++ (record ++ (" with " ++
          (toString members ++ (if members = 1 then " element" else " elements")))))) := by
      simp only [← String.append_assoc]
      rfl
    simp only [report, code]
    rw [words, ofReason_length]
  | extraElements got =>
    have words : (extraElements got).reason =
        "invalid length " ++ (toString got ++ ", expected fewer elements in array") := by
      simp only [← String.append_assoc]
      rfl
    simp only [report, code]
    rw [words, ofReason_length]
  | badInstant fault =>
    change _ = ofReason fault.message
    have untold : Text.begins "missing field" fault.message = false ∧
        tellsMismatch fault.message = false := by
      cases fault <;> decide
    rw [ofReason_plain untold.1 untold.2]
    rfl

/-! ## The catalog -/

/-- No name of the catalog has a tick. -/
theorem Version.names_plain (version : Version) : ∀ m ∈ version.messages,
    (∀ name ∈ m.request.shape.names, Text.tick ∉ name.toList) ∧
      ∀ name ∈ m.confirmation.shape.names, Text.tick ∉ name.toList := by
  cases version <;> decide +kernel

/-- **What is said of a payload is true.** A payload is read exactly if it is an object that
conforms to the type. Any other one is reported with a code that the words of its reason tell as
well. An occurrence is at fault only where an object lacks a required member, which is named, and
where every declared member that is there can be read. A type is at fault only where a part is of
the wrong kind, out of range or an unknown choice; and the form, only where the payload is no
object, a timestamp cannot be read, or an array has not the length of the record that it stands
for. -/
theorem Version.decoding_truthful (version : Version) {m : Message} (hm : m ∈ version.messages)
    {t : PayloadType} (ht : t = m.request ∨ t = m.confirmation) (p : Json) :
    ((∃ x, t.decode p = .ok x) ↔ (∃ given, p = .obj given) ∧ t.shape.Conforms p) ∧
    ∀ fault, t.decode p = .error fault → fault.report = .ofReason fault.reason ∧
      ((fault.report.code = .occurrenceConstraintViolation ∧ ∃ key name ms given,
          fault.report.field = some key ∧ fault.report.constraint = some "required" ∧
          t.shape.Reads p (.record name ms) (.obj given) ∧ Shape.Lacks ms given key) ∨
        (fault.report.code = .typeConstraintViolation ∧
          ∃ s q, t.shape.Reads p s q ∧ s.Mismatch q) ∨
        fault.report.code = .formationViolation ∧
          ((∀ given, p ≠ .obj given) ∨ ∃ s q, t.shape.Reads p s q ∧ s.Malformed q)) := by
  obtain ⟨readable, plain⟩ :
      t.Readable ∧ ∀ name ∈ t.shape.names, Text.tick ∉ name.toList := by
    have readable := version.vocabulary.readable m hm
    have plain := version.names_plain m hm
    rcases ht with rfl | rfl
    · exact ⟨readable.1, plain.1⟩
    · exact ⟨readable.2, plain.2⟩
  cases p with
  | obj given =>
    refine ⟨?_, fun fault fails => ⟨?_, ?_⟩⟩
    · rw [Shape.conforms_iff t.shape _ readable.1]
      simp [PayloadType.decode]
    · refine fault.report_eq_ofReason fun key missing => plain key ?_
      exact Shape.decode_missing t.shape _ key (missing ▸ fails)
    · obtain ⟨s, q, reads, shows⟩ := Shape.decode_explained t.shape _ fault fails
      cases fault with
      | notObject => exact shows.elim
      | missing key =>
        left
        cases s with
        | record name ms =>
          cases q with
          | obj given => exact ⟨rfl, key, name, ms, given, rfl, rfl, reads, shows⟩
          | _ => exact shows.elim
        | _ => exact shows.elim
      | wrongType | wrongValue | unknownVariant => exact .inr (.inl ⟨rfl, s, q, reads, shows⟩)
      | wrongLength | extraElements | badInstant =>
        exact .inr (.inr ⟨rfl, .inr ⟨s, q, reads, shows⟩⟩)
  | _ =>
    refine ⟨by simp [PayloadType.decode], fun fault fails => ?_⟩
    cases fails
    refine ⟨DecodeFault.report_eq_ofReason _ (by simp), .inr (.inr ⟨rfl, .inl (by simp)⟩)⟩

/-- A verdict on an identifier that does not say whether it may charge. -/
def V16.undecided : Json :=
  .obj [("idTagInfo", .obj [("parentIdTag", .str "A1"), ("remark", .int 7)])]

theorem Version.decoding_truthful_undecided :
    V16.authorize ∈ Version.v16.messages ∧
      V16.authorize.confirmation.decode V16.undecided = .error (.missing "status") ∧
      ∃ name ms given, Shape.Lacks ms given "status" ∧
        V16.authorize.confirmation.shape.Reads V16.undecided (.record name ms) (.obj given) := by
  have known : V16.authorize ∈ Version.v16.messages := by
    simp [Version.messages, V16.messages]
  have fails : V16.authorize.confirmation.decode V16.undecided = .error (.missing "status") := by
    rfl
  obtain ⟨-, truth⟩ := Version.decoding_truthful .v16 known (.inr rfl) V16.undecided
  obtain ⟨-, ⟨-, key, name, ms, given, named, -, reads, lacks⟩ | ⟨other, -⟩ | ⟨other, -⟩⟩ :=
    truth _ fails
  · cases named
    exact ⟨known, fails, name, ms, given, lacks, reads⟩
  · cases other
  · cases other

end ChargeLink
