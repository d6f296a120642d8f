import ChargeLink.Proofs.Catalog.Vocabulary
import ChargeLink.Proofs.Schema.Spellings

/-!
# Payloads that are read and written again

A payload of the catalog may be spelled in several ways, but there is one that
is written. It is read as the same value as every other spelling, so from then
on reading and writing change nothing.

* `Version.reencoding`: what comes out, and that it stays so.
-/

namespace ChargeLink

open Json (Finite)

namespace PayloadType

variable {t : PayloadType} {p : Json} {x y : Value} {given members : List (String × Json)}

/-- An object is read as the value whose payload it is tidied to. -/
theorem decode_eq_ok_iff (readable : t.Readable) (typed : t.Typed Finite x)
    (numbers : (Json.obj given).Numbers Finite) :
    t.decode (.obj given) = .ok x ↔ t.shape.Tidied (.obj given) x.encode := by
  rw [Shape.tidied_iff t.shape _ _ readable.1]
  constructor
  · exact fun h => ⟨x, h, rfl⟩
  · rintro ⟨y, h, same⟩
    have back := decode_encode readable (typed_of_decode readable.1 numbers h)
    rw [same, decode_encode readable typed] at back
    cases back
    exact h

/-- The members that are written are the declared ones for which something is given. -/
theorem isSome_get? (readable : t.Readable)
    (h : t.shape.Tidied (.obj given) (.obj members)) (key : String) :
    (Json.lookup key members).isSome ↔ key ∈ t.members.map (·.1.key) ∧
      ∃ v, Json.lookup key given = some v ∧ v ≠ .null := by
  have distinct := readable.1
  simp only [shape, Shape.distinct, Bool.and_eq_true, decide_eq_true_eq] at distinct
  obtain ⟨out, h, same⟩ := h
  cases same
  rw [Json.lookup_sorted key (h.keys_sublist.nodup distinct.1), Json.isSome_lookup, h.mem_keys]

end PayloadType

/-- No type of the catalog refuses to encode a value. -/
theorem Version.refuse_eq_none (version : Version) : ∀ m ∈ version.messages,
    (∀ v, m.request.refuse v = none) ∧ ∀ v, m.confirmation.refuse v = none := by
  cases version
  all_goals
    repeat refine List.forall_mem_cons.2 ⟨⟨fun _ => rfl, fun _ => rfl⟩, ?_⟩
    exact List.forall_mem_nil _

/-- **A payload that is read as a value is written as one object**, whatever the spelling. The object
has the declared members for which something other than null was given, it is read as the same
value, and so is every payload that is written like it. Writing it again changes nothing, and
neither does it change what the rules say. -/
theorem Version.reencoding (version : Version) {m : Message} (hm : m ∈ version.messages)
    {t : PayloadType} (ht : t = m.request ∨ t = m.confirmation) {p : Json}
    (numbers : p.Numbers Finite) {x : Value} (decoded : t.decode p = .ok x) :
    ∃ members, t.encode x = .ok (.obj members) ∧
      t.shape.Tidied p (.obj members) ∧
      (∀ key, (Json.lookup key members).isSome ↔
        key ∈ t.members.map (·.1.key) ∧ ∃ v, p.get? key = some v ∧ v ≠ .null) ∧
      t.decode (.obj members) = .ok x ∧
      (∀ given, (Json.obj given).Numbers Finite →
        (t.decode (.obj given) = .ok x ↔ t.shape.Tidied (.obj given) (.obj members))) ∧
      ∀ y, t.decode (.obj members) = .ok y →
        t.encode y = .ok (.obj members) ∧ t.validate y = t.validate x := by
  have readable : t.Readable := by
    rcases ht with rfl | rfl
    · exact (version.vocabulary.readable m hm).1
    · exact (version.vocabulary.readable m hm).2
  have unrefused : t.refuse x = none := by
    rcases ht with rfl | rfl
    · exact (version.refuse_eq_none m hm).1 x
    · exact (version.refuse_eq_none m hm).2 x
  have typed : t.Typed Finite x := PayloadType.typed_of_decode readable.1 numbers decoded
  have back := PayloadType.decode_encode readable typed
  have encoded : t.encode x = .ok x.encode := by
    rw [PayloadType.encode, unrefused]
  cases p with
  | obj given =>
    have tidied := (PayloadType.decode_eq_ok_iff readable typed numbers).1 decoded
    obtain ⟨out, -, object⟩ := id tidied
    rw [object, Json.object] at back encoded tidied
    refine ⟨_, encoded, tidied, PayloadType.isSome_get? readable tidied, back, ?_, ?_⟩
    · intro given numbers
      rw [PayloadType.decode_eq_ok_iff readable typed numbers, object, Json.object]
    · intro y same
      cases back.symm.trans same
      exact ⟨encoded, rfl⟩
  | _ => cases decoded

/-- A confirmation that spells its value in unusual ways: a whole number for a double, an object for
a choice, an array for a record, null for what is absent, and a member that is not declared. -/
def V201.unusual : Json :=
  .obj [("chargingPriority", .null),
    ("idTokenInfo", .arr [.obj [("Accepted", .null)], .null, .int 5]), ("note", .str "x"),
    ("totalCost", .int 12)]

/-- What the confirmation says. -/
def V201.usual : Value :=
  .record [("totalCost", .real (.ofInt 12)),
    ("idTokenInfo", .record [("status", .choice "Accepted"), ("chargingPriority", .int 5)])]

theorem Version.reencoding_unusual :
    V201.transactionEvent ∈ Version.v201.messages ∧ V201.unusual.Numbers Finite ∧
      V201.transactionEvent.confirmation.decode V201.unusual = .ok V201.usual ∧
      ∃ members, V201.transactionEvent.confirmation.encode V201.usual = .ok (.obj members) ∧
        V201.transactionEvent.confirmation.decode (.obj members) = .ok V201.usual := by
  have known : V201.transactionEvent ∈ Version.v201.messages := by
    simp [Version.messages, V201.messages]
  have numbers : V201.unusual.Numbers Finite := by
    simp [V201.unusual, Json.Numbers, Json.NumbersMembers, Json.NumbersItems]
  have decoded : V201.transactionEvent.confirmation.decode V201.unusual = .ok V201.usual := by
    rfl
  obtain ⟨members, encoded, -, -, back, -, -⟩ :=
    Version.reencoding .v201 known (.inr rfl) numbers decoded
  exact ⟨known, numbers, decoded, members, encoded, back⟩

end ChargeLink
