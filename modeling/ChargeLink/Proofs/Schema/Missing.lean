import ChargeLink.Proofs.Schema.Conforms
import ChargeLink.Proofs.Schema.Paths

/-!
# Where a member is missing

A member that is missing is reported by its own name alone. There is a path that
leads from the payload to the object without it, and the name that is reported is
the last one of that path: where the object is the payload itself, it is the whole
path, and nowhere else. So for an object deep within the payload, the reported name
does not lead there, and it may lead to another member, of the same name, that is
not missing at all.

* `Shape.Reads.leads`: to each part of a payload that is read, there is a path.
* `Version.missing_named`: what is reported of a missing member is the end of its path.
-/

namespace ChargeLink

/-! ## Paths to what is read -/

namespace Json

/-- A path leads to the place of a record: it is not empty, unless the payload itself is an
object. -/
def Placed (payload : Json) (path : String) (part : Json) : Prop :=
  payload.Leads path part ∧ (path = "" → ∃ given, part = .obj given)

/-- An object at the end of a path lacks a member of the name. -/
def Misses (payload : Json) (path name : String) : Prop :=
  ∃ given, payload.Leads path (.obj given) ∧ Json.lookup name given = none

variable {payload p : Json} {path key : String}

/-- The empty path cannot be followed. -/
theorem follow_empty (v : Json) : v.follow "" = none := rfl

theorem Placed.member {given : List (String × Json)} (h : payload.Placed path (.obj given))
    (camel : camelCase key.toList = true) (found : Json.lookup key given = some p) :
    payload.Placed (MemberFault.joined path key) p := by
  have leads := follow_joined h.1 camel
  rw [get?, found] at leads
  refine ⟨.inr leads, fun empty => ?_⟩
  rw [empty, follow_empty] at leads
  cases leads

theorem Placed.item {items : List Json} (h : payload.Placed path (.arr items)) {i : ℕ}
    (found : items[i]? = some p) : payload.Placed (MemberFault.atIndex path i) p := by
  have there : payload.follow path = some (.arr items) := by
    rcases h.1 with ⟨rfl, -⟩ | there
    · obtain ⟨given, other⟩ := h.2 rfl
      cases other
    · exact there
  have leads := follow_atIndex payload path i
  rw [there, Option.bind_some, item?, found] at leads
  refine ⟨.inr leads, fun empty => ?_⟩
  rw [empty, follow_empty] at leads
  cases leads

end Json

namespace Shape

theorem names_of_mem {ms : List (Member × Shape)} {m : Member} {shape : Shape}
    (declared : (m, shape) ∈ ms) :
    m.key ∈ memberNames ms ∧ ∀ name ∈ shape.names, name ∈ memberNames ms := by
  induction ms with
  | nil => cases declared
  | cons x r ih =>
    rw [memberNames]
    rcases List.mem_cons.1 declared with rfl | later
    · exact ⟨by simp, fun name mem => by simp [mem]⟩
    · obtain ⟨own, within⟩ := ih later
      exact ⟨by simp [own], fun name mem => by simp [within name mem]⟩

/-- **To each part of a payload that is read, there is a path**, if the members have names that a
path can be made of. -/
theorem Reads.leads {payload : Json} {s t : Shape} {p q : Json} (h : s.Reads p t q)
    (camel : ∀ name ∈ s.names, camelCase name.toList = true) {path : String}
    (placed : payload.Placed path p) : ∃ place, payload.Placed place q := by
  induction h generalizing path with
  | here => exact ⟨path, placed⟩
  | item mem _ ih =>
    obtain ⟨i, found⟩ := List.mem_iff_getElem?.1 mem
    exact ih camel (placed.item found)
  | member declared found _ _ ih =>
    obtain ⟨own, within⟩ := names_of_mem declared
    exact ih (fun name mem => camel name (within name mem)) (placed.member (camel _ own) found)
  | element declared _ _ ih =>
    obtain ⟨declared, mem⟩ := List.of_mem_zip declared
    obtain ⟨i, found⟩ := List.mem_iff_getElem?.1 mem
    have within := (names_of_mem declared).2
    exact ih (fun name mem => camel name (within name mem)) (placed.item found)

end Shape

/-! ## What is reported -/

/-- A path that goes further than a name is another text. -/
theorem MemberFault.joined_eq_iff (path name : String) : joined path name = name ↔ path = "" := by
  unfold joined
  split
  · rename_i empty
    simpa using empty
  · rename_i nonempty
    refine ⟨fun same => ?_, fun empty => absurd (by simp [empty]) nonempty⟩
    have long := congrArg String.length same
    simp only [String.length_append] at long
    have none : path.length = 0 := by omega
    simpa using none

/-- All names of the catalog are in camel case. -/
theorem Version.names_camel (version : Version) : ∀ m ∈ version.messages,
    (∀ name ∈ m.request.shape.names, camelCase name.toList = true) ∧
      ∀ name ∈ m.confirmation.shape.names, camelCase name.toList = true := by
  cases version <;> decide +kernel

/-- **What is reported of a missing member is the end of its path.** There is an object in the
payload that lacks a required member, and a path that leads to this object. The reported field is
the name of the member, and so it is the path of the member exactly if the object is the payload
itself. -/
theorem Version.missing_named (version : Version) {m : Message} (hm : m ∈ version.messages)
    {t : PayloadType} (ht : t = m.request ∨ t = m.confirmation) {payload : Json}
    {fault : DecodeFault} (h : t.decode payload = .error fault)
    (occurrence : fault.report.code = .occurrenceConstraintViolation) :
    ∃ place key name ms given, fault.report.field = some key ∧
      t.shape.Reads payload (.record name ms) (.obj given) ∧ Shape.Lacks ms given key ∧
      payload.Leads place (.obj given) ∧
      (fault.report.field = some (MemberFault.joined place key) ↔ place = "") := by
  have camel : ∀ name ∈ t.shape.names, camelCase name.toList = true := by
    have camel := version.names_camel m hm
    rcases ht with rfl | rfl
    · exact camel.1
    · exact camel.2
  cases payload with
  | obj given =>
    obtain ⟨s, q, reads, shows⟩ := Shape.decode_explained t.shape _ fault h
    cases fault with
    | missing key =>
      cases s with
      | record name ms =>
        cases q with
        | obj inner =>
          have root : (Json.obj given).Placed "" (.obj given) :=
            ⟨.inl ⟨rfl, rfl⟩, fun _ => ⟨given, rfl⟩⟩
          obtain ⟨place, leads, -⟩ := reads.leads camel root
          refine ⟨place, key, name, ms, inner, rfl, reads, shows, leads, ?_⟩
          rw [← MemberFault.joined_eq_iff place key, eq_comm]
          exact Option.some_inj
        | _ => exact shows.elim
      | _ => exact shows.elim
    | _ => cases occurrence
  | _ =>
    cases h
    cases occurrence

/-- The end of a transaction, with a time of its own, and a meter's values without one. -/
def V16.undated : Json :=
  .obj [("meterStop", .int 1), ("timestamp", .str "2024-01-01T00:00:00Z"),
    ("transactionData", .arr [.obj [("sampledValue", .arr [])]]), ("transactionId", .int 1)]

theorem V16.undated_decode :
    V16.stopTransaction.request.decode V16.undated = .error (.missing "timestamp") := by
  rfl

theorem Version.missing_named_undated :
    V16.stopTransaction ∈ Version.v16.messages ∧
      V16.stopTransaction.request.decode V16.undated = .error (.missing "timestamp") ∧
      ∃ place, V16.undated.Misses place "timestamp" := by
  have known : V16.stopTransaction ∈ Version.v16.messages := by
    simp [Version.messages, V16.messages]
  obtain ⟨place, key, _, _, given, field, -, lacks, leads, -⟩ :=
    Version.missing_named .v16 known (.inl rfl) V16.undated_decode rfl
  cases field
  exact ⟨known, V16.undated_decode, place, given, leads, lacks.absent⟩

/-- The name that is reported there is not the path of a member that is missing: a member of that
name is in the payload. The one that is missing is elsewhere. -/
theorem V16.undated_misplaced : ∃ fault field,
    V16.stopTransaction.request.decode V16.undated = .error fault ∧
    fault.report.code = .occurrenceConstraintViolation ∧ fault.report.field = some field ∧
    (¬∃ place name, field = MemberFault.joined place name ∧ V16.undated.Misses place name) ∧
    V16.undated.Misses "transactionData[0]" "timestamp" := by
  refine ⟨_, "timestamp", V16.undated_decode, rfl, rfl, ?_, _, .inr rfl, rfl⟩
  rintro ⟨place, name, same, given, leads, absent⟩
  by_cases top : place = ""
  · -- the member is there
    subst top
    obtain rfl : "timestamp" = name := same
    rcases leads with ⟨-, whole⟩ | leads
    · cases whole
      cases absent
    · rw [Json.follow_empty] at leads
      cases leads
  · -- and a longer path would have a point in it
    have point : '.' ∈ (MemberFault.joined place name).toList := by
      simp [MemberFault.joined, top]
    rw [← same] at point
    exact absurd point (by decide)

end ChargeLink
