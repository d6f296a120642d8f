import ChargeLink.Server.SessionIndex
import ChargeLink.Session.Station

/-!
# Many sessions

A hub holds sessions by number, and the index of those that speak for a charge
point. Registering a session puts it into the index first and then closes the one
it replaces; closing all sessions lists them, empties the index, and then closes
those that were listed.
-/

namespace ChargeLink

/-- Sessions by number, and the index of those that are registered. -/
structure Hub where
  stations : List Station
  index : SessionIndex

namespace Hub

/-- No sessions. -/
def empty : Hub := ⟨[], .empty⟩

/-- The number for the next session. -/
def nextNumber (h : Hub) : Nat :=
  h.stations.length

/-- Adds a session, whose number has to be the next one. -/
def add (h : Hub) (s : Station) : Hub :=
  { h with stations := h.stations ++ [s] }

/-- The session of a number. -/
def station? (h : Hub) (n : Nat) : Option Station :=
  h.stations[n]?

/-- Lets a session do something. -/
def act (h : Hub) (n : Nat) (f : Station → Station) : Hub :=
  match h.stations[n]? with
  | some s => { h with stations := h.stations.set n (f s) }
  | none => h

/-- Closes a session, and tells how many calls were abandoned. -/
def close (h : Hub) (n : Nat) : Nat × Hub :=
  match h.stations[n]? with
  | some s =>
    let (abandoned, s) := s.close
    (abandoned, { h with stations := h.stations.set n s.settle })
  | none => (0, h)

/-- Puts a session into the index under its charge point, and gives the one it replaces. -/
def insert (h : Hub) (n : Nat) : Option Nat × Hub :=
  match h.stations[n]? with
  | none => (none, h)
  | some s =>
    let (evicted, index) := h.index.register s.session.chargePointId n
    (evicted, { h with index })

/-- Registers a session under its charge point, and closes the one it replaces. -/
def register (h : Hub) (n : Nat) : Option Nat × Hub :=
  match h.insert n with
  | (some old, h) => (some old, (h.close old).2)
  | (none, h) => (none, h)

/-- Removes a session from the index, if it is the one registered under the id. -/
def unregister (h : Hub) (id : String) (n : Nat) : Bool × Hub :=
  let (removed, index) := h.index.unregister id n
  (removed, { h with index })

/-- Closes sessions in turn, and tells how many calls were abandoned. -/
def closeEach : List Nat → Hub → Nat × Hub
  | [], h => (0, h)
  | n :: r, h =>
    let (abandoned, h) := h.close n
    let (more, h) := closeEach r h
    (abandoned + more, h)

/-- The sessions in the index. -/
def listed (h : Hub) : List Nat :=
  h.index.entries.map (·.2)

/-- Empties the index. -/
def clear (h : Hub) : Hub :=
  { h with index := .empty }

/-- Empties the index and closes every session that was in it; tells how many calls were
abandoned. -/
def closeAll (h : Hub) : Nat × Hub :=
  closeEach h.listed h.clear

end Hub

end ChargeLink
