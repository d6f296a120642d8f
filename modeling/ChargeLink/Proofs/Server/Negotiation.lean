import ChargeLink.Server.Handshake
import Mathlib.Data.List.TakeWhile
import Mathlib.Tactic.Push

/-!
# Which version a charge point gets

A charge point lists names between commas. If its list can be read and is not
blank, it gets the highest version that the server speaks and the list names;
with any other list, or none, it gets the lowest version that the server speaks.
There is nothing else to it: neither the order of the list nor that of the
versions has a say.

* `Negotiator.choose_eq_some_iff`, `Negotiator.fallback_eq_some_iff`: what is chosen is the
  highest, or the lowest, of its kind.
* `Handshake.ofRequest_eq_accepted_iff`: how a request is answered.
* `Handshake.answer_offered`: the answer names the version as the list did, unless the list named
  it by its old name alone.
-/

namespace ChargeLink

namespace Version

/-- The names that a version goes by in a handshake. -/
def spellings : Version → List String
  | v16 => ["ocpp1.6"]
  | v201 => ["ocpp2.0.1", "ocpp2.0"]

/-- A text stands for a version if it is one of its names, blanks around it aside. -/
theorem ofSubprotocol?_eq_some_iff {s : String} {v : Version} :
    ofSubprotocol? s = some v ↔ Text.trimmed s ∈ v.spellings := by
  unfold ofSubprotocol?
  simp only
  by_cases old : Text.trimmed s = "ocpp1.6"
  · rw [if_pos old, old]
    cases v <;> simp [spellings]
  · rw [if_neg old]
    by_cases new : Text.trimmed s = "ocpp2.0.1" ∨ Text.trimmed s = "ocpp2.0"
    · rw [if_pos new]
      cases v with
      | v16 => simp [spellings, old]
      | v201 => simpa [spellings] using new
    · rw [if_neg new]
      cases v with
      | v16 => simp [spellings, old]
      | v201 => simpa [spellings] using new

/-- The versions stand from the newest to the oldest. -/
theorem all_descending : all.Pairwise fun v w => w.rank < v.rank := by
  decide

end Version

namespace Negotiator

variable {vs ws : List Version} {header : String} {v w : Version}

/-- The tokens of a list: what stands between its commas, without the blanks around it. -/
def tokens (header : String) : List String :=
  (Text.split ',' header).map Text.trimmed

/-- The list names the version. -/
def Names (header : String) (v : Version) : Prop :=
  ∃ token ∈ tokens header, token ∈ v.spellings

theorem mem_requested_iff : v ∈ requested header ↔ Names header v := by
  unfold requested Names tokens
  simp [Version.ofSubprotocol?_eq_some_iff]

/-- The version is the highest of a kind. -/
def Highest (kind : Version → Prop) (v : Version) : Prop :=
  kind v ∧ ∀ w, kind w → w.rank ≤ v.rank

/-- The version is the lowest of a kind. -/
def Lowest (kind : Version → Prop) (v : Version) : Prop :=
  kind v ∧ ∀ w, kind w → v.rank ≤ w.rank

theorem Highest.unique {kind : Version → Prop} (hv : Highest kind v) (hw : Highest kind w) :
    v = w :=
  Version.rank_injective (Nat.le_antisymm (hw.2 v hv.1) (hv.2 w hw.1))

theorem Lowest.unique {kind : Version → Prop} (hv : Lowest kind v) (hw : Lowest kind w) : v = w :=
  Version.rank_injective (Nat.le_antisymm (hv.2 w hw.1) (hw.2 v hv.1))

/-- The versions of a negotiator stand from the highest to the lowest. -/
theorem supported_descending (vs : List Version) :
    (create vs).supported.Pairwise fun v w => w.rank < v.rank :=
  Version.all_descending.filter _

/-- The first of a descending list with a property is the highest with it. -/
theorem highest_of_find? {l : List Version} (descending : l.Pairwise fun v w => w.rank < v.rank)
    {p : Version → Bool} (found : l.find? p = some v) :
    Highest (fun w => w ∈ l ∧ p w = true) v := by
  obtain ⟨holds, before, after, rfl, none⟩ := List.find?_eq_some_iff_append.1 found
  refine ⟨⟨by simp, holds⟩, ?_⟩
  rintro w ⟨mem, holds'⟩
  rcases List.mem_append.1 mem with early | late
  · have missed := none w early
    rw [holds'] at missed
    cases missed
  · rcases List.mem_cons.1 late with rfl | late
    · exact Nat.le_refl _
    · have less := (List.pairwise_cons.1 (List.pairwise_append.1 descending).2.1).1 w late
      exact Nat.le_of_lt less

/-- The last of a descending list is the lowest in it. -/
theorem lowest_of_getLast? {l : List Version} (descending : l.Pairwise fun v w => w.rank < v.rank)
    (last : l.getLast? = some v) : Lowest (· ∈ l) v := by
  obtain ⟨before, rfl⟩ := List.getLast?_eq_some_iff.1 last
  refine ⟨by simp, fun w mem => ?_⟩
  rcases List.mem_append.1 mem with early | same
  · have less := (List.pairwise_append.1 descending).2.2 w early v (by simp)
    exact Nat.le_of_lt less
  · obtain rfl := List.mem_singleton.1 same
    exact Nat.le_refl _

/-- What is found is what there is to find, if that is at most one thing and nothing is found only
where there is none. -/
theorem eq_some_iff_of_unique {found : Option Version} {kind : Version → Prop}
    (sound : ∀ w, found = some w → kind w) (complete : found = none → ∀ w, ¬kind w)
    (unique : ∀ {v w}, kind v → kind w → v = w) : found = some v ↔ kind v := by
  refine ⟨sound v, fun there => ?_⟩
  cases h : found with
  | none => exact absurd there (complete h v)
  | some w => rw [unique there (sound w h)]

/-- **The version chosen for a list is the highest that is served and named.** -/
theorem choose_eq_some_iff : (create vs).choose header = some v ↔
    Highest (fun w => w ∈ vs ∧ Names header w) v := by
  refine eq_some_iff_of_unique (fun w found => ?_) (fun none w highest => ?_) Highest.unique
  · have highest := highest_of_find? (supported_descending vs) found
    simpa only [mem_supported_create, List.contains_iff_mem, mem_requested_iff] using highest
  · obtain ⟨⟨spoken, names⟩, -⟩ := highest
    exact choose_eq_none_iff.1 none w (mem_supported_create.2 spoken) (mem_requested_iff.2 names)

/-- **The version for a charge point that lists none is the lowest that is served.** -/
theorem fallback_eq_some_iff : (create vs).fallback = some v ↔ Lowest (· ∈ vs) v := by
  refine eq_some_iff_of_unique (fun w found => ?_) (fun none w lowest => ?_) Lowest.unique
  · have lowest := lowest_of_getLast? (supported_descending vs) found
    simpa only [mem_supported_create] using lowest
  · have empty : (create vs).supported = [] := List.getLast?_eq_none_iff.1 none
    have mem := mem_supported_create.2 lowest.1
    rw [empty] at mem
    cases mem

end Negotiator

namespace Handshake

open Negotiator

variable {vs ws : List Version} {target id listed offered : String} {header header' : Option String}
  {v w : Version} {named : Option String}

/-! ## Lists that are read -/

/-- The list can be read: it has nothing but visible characters, blanks and tabs. -/
def Readable (listed : String) : Prop :=
  ∀ c ∈ listed.toList, 32 ≤ c.toNat ∧ c.toNat < 127 ∨ c = '\t'

/-- The list has nothing but blanks. -/
def Blank (listed : String) : Prop :=
  ∀ c ∈ listed.toList, Text.isBlank c = true

/-- Nothing is left of a text by trimming it if it is blank. -/
theorem trimmed_isEmpty_iff : (Text.trimmed listed).isEmpty = true ↔ Blank listed := by
  have nothing : ∀ {cs : List Char}, Text.trimLeft cs = [] ↔ ∀ c ∈ cs, Text.isBlank c = true :=
    List.dropWhile_eq_nil_iff
  rw [String.isEmpty_iff, Text.trimmed, ← String.toList_inj, String.toList_ofList, Text.trim]
  show (Text.trimLeft _).reverse = [] ↔ _
  rw [List.reverse_eq_nil_iff, nothing]
  constructor
  · intro rest c mem
    rw [← List.takeWhile_append_dropWhile (p := Text.isBlank) (l := listed.toList)] at mem
    rcases List.mem_append.1 mem with dropped | left
    · exact List.mem_takeWhile_imp dropped
    · exact rest c (List.mem_reverse.2 left)
  · intro blank c mem
    rw [nothing.2 blank] at mem
    cases mem

theorem readable_of_readable (reads : Readable listed) : readable (some listed) = listed := by
  have all : (listed.toList.all fun c => (32 ≤ c.toNat && c.toNat < 127) || c == '\t') = true := by
    simpa [Readable] using reads
  rw [readable, if_pos all]

theorem readable_of_not_readable (garbled : ¬Readable listed) : readable (some listed) = "" := by
  have some : ¬(listed.toList.all fun c =>
      (32 ≤ c.toNat && c.toNat < 127) || c == '\t') = true := by
    simpa [Readable] using garbled
  rw [readable, if_neg some]

/-- Nothing is listed: there is no list, or one that is blank or cannot be read. -/
def Silent (header : Option String) : Prop :=
  ∀ listed, header = some listed → Readable listed → Blank listed

theorem trimmed_readable_iff : (Text.trimmed (readable header)).isEmpty = true ↔ Silent header := by
  rw [trimmed_isEmpty_iff]
  have empty : Blank "" := by
    intro c mem
    simp at mem
  cases header with
  | none =>
    refine ⟨fun _ listed same => ?_, fun _ => empty⟩
    cases same
  | some listed =>
    by_cases reads : Readable listed
    · rw [readable_of_readable reads]
      constructor
      · intro blank _ same _
        cases same
        exact blank
      · intro silent
        exact silent listed rfl reads
    · rw [readable_of_not_readable reads]
      refine ⟨fun _ => ?_, fun _ => empty⟩
      intro _ same reads'
      cases same
      exact absurd reads' reads

/-- Something is listed, and what is read is the list. -/
theorem exists_of_not_silent (speaks : ¬Silent header) :
    ∃ listed, header = some listed ∧ Readable listed ∧ ¬Blank listed := by
  unfold Silent at speaks
  push Not at speaks
  exact speaks

/-! ## The answer -/

/-- The version that a charge point gets for its list from a server that speaks some versions, and
the name by which it is told: the highest version that is spoken and named, or the lowest that is
spoken if nothing is listed, which then is not told. -/
inductive Gets (served : Version → Prop) : Option String → Version → Option String → Prop
  | listing {listed : String} {v : Version} (reads : Readable listed) (lists : ¬Blank listed)
      (highest : Highest (fun w => served w ∧ Names listed w) v) :
      Gets served (some listed) v (some v.subprotocol)
  | silent {header : Option String} {v : Version} (silent : Silent header) (lowest : Lowest served v) :
      Gets served header v none

theorem gets_iff : Gets (· ∈ vs) header v named ↔
    if (Text.trimmed (readable header)).isEmpty then
      (create vs).fallback = some v ∧ named = none
    else (create vs).choose (readable header) = some v ∧ named = some v.subprotocol := by
  by_cases silent : Silent header
  · rw [if_pos (trimmed_readable_iff.2 silent), fallback_eq_some_iff]
    constructor
    · intro gets
      cases gets with
      | listing reads lists => exact absurd (silent _ rfl reads) lists
      | silent _ lowest => exact ⟨lowest, rfl⟩
    · rintro ⟨lowest, rfl⟩
      exact .silent silent lowest
  · rw [if_neg (mt trimmed_readable_iff.1 silent)]
    obtain ⟨listed, rfl, reads, lists⟩ := exists_of_not_silent silent
    rw [readable_of_readable reads, choose_eq_some_iff]
    constructor
    · intro gets
      cases gets with
      | listing _ _ highest => exact ⟨highest, rfl⟩
      | silent silent' => exact absurd silent' silent
    · rintro ⟨highest, rfl⟩
      exact .listing reads lists highest

/-- **A request is accepted for the charge point that its path names, with the version that its list
gets.** -/
theorem ofRequest_eq_accepted_iff : ofRequest (create vs) target header = .accepted id v named ↔
    chargePointId? (pathOf target) = some id ∧ Gets (· ∈ vs) header v named := by
  rw [gets_iff]
  unfold ofRequest
  cases chargePointId? (pathOf target) with
  | none => simp
  | some i =>
    simp only
    split
    · cases (create vs).fallback with
      | none => simp
      | some w =>
        simp only [accepted.injEq, Option.some.injEq]
        rw [eq_comm (a := named)]
    · cases (create vs).choose (readable header) with
      | none => simp
      | some w =>
        simp only [accepted.injEq, Option.some.injEq]
        refine and_congr_right fun _ => and_congr_right fun same => ?_
        rw [same, eq_comm]

/-- A request is refused for its path if that names no charge point. -/
theorem ofRequest_eq_noChargePoint_iff :
    ofRequest (create vs) target header = .noChargePoint ↔
      chargePointId? (pathOf target) = none := by
  unfold ofRequest
  cases chargePointId? (pathOf target) with
  | none => simp
  | some i =>
    simp only
    split
    · cases (create vs).fallback <;> simp
    · cases (create vs).choose (readable header) <;> simp

/-- **Any other request is refused for its list.** -/
theorem ofRequest_eq_noVersion_iff : ofRequest (create vs) target header = .noVersion ↔
    (∃ id, chargePointId? (pathOf target) = some id) ∧ ∀ v named, ¬Gets (· ∈ vs) header v named := by
  constructor
  · intro answer
    cases path : chargePointId? (pathOf target) with
    | none =>
      rw [ofRequest_eq_noChargePoint_iff.2 path] at answer
      cases answer
    | some i =>
      refine ⟨⟨i, rfl⟩, fun v named gets => ?_⟩
      rw [ofRequest_eq_accepted_iff.2 ⟨path, gets⟩] at answer
      cases answer
  · rintro ⟨⟨i, path⟩, none⟩
    cases answer : ofRequest (create vs) target header with
    | accepted j v named => exact absurd (ofRequest_eq_accepted_iff.1 answer).2 (none v named)
    | noChargePoint =>
      rw [ofRequest_eq_noChargePoint_iff.1 answer] at path
      cases path
    | noVersion => rfl

/-- The answer depends on the version that the list gets, and on nothing else. -/
theorem ofRequest_congr (same : ∀ v named, Gets (· ∈ vs) header v named ↔
    Gets (· ∈ ws) header' v named) :
    ofRequest (create vs) target header = ofRequest (create ws) target header' := by
  cases answer : ofRequest (create ws) target header' with
  | accepted i v named =>
    obtain ⟨path, gets⟩ := ofRequest_eq_accepted_iff.1 answer
    exact ofRequest_eq_accepted_iff.2 ⟨path, (same v named).2 gets⟩
  | noChargePoint =>
    exact ofRequest_eq_noChargePoint_iff.2 (ofRequest_eq_noChargePoint_iff.1 answer)
  | noVersion =>
    obtain ⟨path, none⟩ := ofRequest_eq_noVersion_iff.1 answer
    exact ofRequest_eq_noVersion_iff.2 ⟨path, fun v named gets => none v named ((same v named).1 gets)⟩

/-- Of the versions that are spoken it only matters which they are. -/
theorem Gets.congr {served served' : Version → Prop} (same : ∀ v, served v ↔ served' v) :
    Gets served header v named ↔ Gets served' header v named := by
  rw [show served = served' from funext fun w => propext (same w)]

/-- Of a list that can be read it only matters which tokens it has, and whether it is blank. -/
theorem Gets.retoken {served : Version → Prop} (reads : Readable listed) (reads' : Readable offered)
    (blank : Blank listed ↔ Blank offered) (same : ∀ t, t ∈ tokens listed ↔ t ∈ tokens offered)
    (gets : Gets served (some listed) v named) : Gets served (some offered) v named := by
  have names : ∀ w, Names listed w ↔ Names offered w := by
    intro w
    unfold Names
    simp only [same]
  cases gets with
  | listing _ lists highest =>
    refine .listing reads' (mt blank.2 lists) ⟨⟨highest.1.1, (names v).1 highest.1.2⟩, ?_⟩
    rintro w ⟨spoken, named⟩
    exact highest.2 w ⟨spoken, (names w).2 named⟩
  | silent quiet lowest =>
    refine .silent (fun _ same _ => ?_) lowest
    cases same
    exact blank.1 (quiet listed rfl reads)

/-! ## The name in the answer -/

/-- **The answer names the version as the list does,** except that a list may name the newer version
by its old name alone: the answer then has a name that is not in the list. -/
theorem answer_offered {name : String}
    (answer : ofRequest (create vs) target header = .accepted id v (some name)) :
    ∃ listed, header = some listed ∧ v ∈ vs ∧ Names listed v ∧ name = v.subprotocol ∧
      (name ∈ tokens listed ∨
        v = .v201 ∧ "ocpp2.0" ∈ tokens listed ∧ "ocpp2.0.1" ∉ tokens listed) := by
  obtain ⟨-, gets⟩ := ofRequest_eq_accepted_iff.1 answer
  cases gets with
  | @listing listed _ reads lists highest =>
    obtain ⟨⟨spoken, names⟩, -⟩ := highest
    refine ⟨_, rfl, spoken, names, rfl, ?_⟩
    obtain ⟨token, mem, spells⟩ := names
    cases v with
    | v16 =>
      obtain rfl : token = "ocpp1.6" := List.mem_singleton.1 spells
      exact .inl mem
    | v201 =>
      by_cases own : "ocpp2.0.1" ∈ tokens listed
      · exact .inl own
      · have either : token = "ocpp2.0.1" ∨ token = "ocpp2.0" := by
          simpa [Version.spellings] using spells
        rcases either with rfl | rfl
        · exact absurd mem own
        · exact .inr ⟨rfl, mem, own⟩

/-- A list that names a version by its own name among others. -/
theorem answer_offered_own :
    ofRequest (create [.v16, .v201]) "/ocpp/CP-1" (some "ocpp2.0, ocpp2.0.1") =
        .accepted "CP-1" .v201 (some "ocpp2.0.1") ∧
      "ocpp2.0.1" ∈ tokens "ocpp2.0, ocpp2.0.1" := by
  have answer : ofRequest (create [.v16, .v201]) "/ocpp/CP-1" (some "ocpp2.0, ocpp2.0.1") =
      .accepted "CP-1" .v201 (some "ocpp2.0.1") := by decide
  obtain ⟨listed, same, -, -, -, own | ⟨-, -, none⟩⟩ := answer_offered answer
  · cases same
    exact ⟨answer, own⟩
  · cases same
    exact absurd (by decide) none

/-- A list with nothing but the old name is answered with a name that it does not have. -/
theorem old_name_alone :
    ofRequest (create [.v201]) "/ocpp/CP1" (some "ocpp2.0") =
        .accepted "CP1" .v201 (some "ocpp2.0.1") ∧
      "ocpp2.0.1" ∉ tokens "ocpp2.0" := by
  decide

end Handshake

end ChargeLink
