import ChargeLink.Protocol.Version
import ChargeLink.Text.Split

/-!
# Choosing a version

A charge point lists subprotocols; the server chooses the highest version that
both ends speak. The order in which versions are served or listed does not
matter. A charge point that lists none gets the lowest version served.
-/

namespace ChargeLink

/-- The versions a server speaks, the highest first. -/
structure Negotiator where
  supported : List Version

namespace Negotiator

/-- A negotiator for the given versions, in any order and however often each is given. -/
def create (versions : List Version) : Negotiator :=
  ⟨Version.all.filter fun v => versions.contains v⟩

/-- The versions that a header lists. -/
def requested (header : String) : List Version :=
  (Text.split ',' header).filterMap Version.ofSubprotocol?

/-- The version chosen for a header. -/
def choose (n : Negotiator) (header : String) : Option Version :=
  n.supported.find? fun v => (requested header).contains v

/-- The version for a charge point that lists none. -/
def fallback (n : Negotiator) : Option Version :=
  n.supported.getLast?

/-- The subprotocols of the versions, the highest first. -/
def subprotocols (n : Negotiator) : List String :=
  n.supported.map Version.subprotocol

theorem create_perm {vs ws : List Version} (h : ∀ v, v ∈ vs ↔ v ∈ ws) : create vs = create ws := by
  simp [create, h]

/-- What is chosen is served and listed. -/
theorem mem_of_choose {n : Negotiator} {header : String} {v : Version}
    (h : n.choose header = some v) : v ∈ n.supported ∧ v ∈ requested header :=
  ⟨List.mem_of_find?_eq_some h, by simpa using List.find?_some h⟩

/-- Nothing is chosen exactly if nothing that is served is listed. -/
theorem choose_eq_none_iff {n : Negotiator} {header : String} :
    n.choose header = none ↔ ∀ v ∈ n.supported, v ∉ requested header := by
  simp [choose]

theorem mem_supported_create {vs : List Version} {v : Version} :
    v ∈ (create vs).supported ↔ v ∈ vs := by
  simp [create, Version.mem_all]

end Negotiator

end ChargeLink
