import ChargeLink.Connection.Basic
import ChargeLink.Server.Handshake
import ChargeLink.Server.Hub

/-!
# Servers

A server serves each of its versions with one registry. An accepted charge point
gets a session of its own, which is registered under its id and closes the one
it replaces; when its connection ends, the session is taken off the index again,
unless it has been replaced. A shutdown closes all sessions.
-/

namespace ChargeLink

/-- A server with its connections, which have the numbers of their sessions. -/
structure Server where
  /-- One registry for each version served. -/
  registries : List Registry
  config : SessionConfig
  hub : Hub
  links : List Link
  /-- How often the handlers of each version have been entered. -/
  tallies : Version → Tally
  /-- Whether the process shuts down. -/
  signalled : Bool
  /-- What has happened in all sessions, the oldest first. -/
  notes : List Note

namespace Server

/-- A server without versions. -/
def create (config : SessionConfig) : Server :=
  ⟨[], config, .empty, [], fun _ => .empty, false, []⟩

/-- Serves a version with a registry, in place of the one before. -/
def serve (s : Server) (r : Registry) : Server :=
  { s with registries := r :: s.registries.filter fun q => q.version != r.version }

/-- The registry of a version. -/
def registry? (s : Server) (v : Version) : Option Registry :=
  s.registries.find? fun r => r.version == v

/-- The versions served. -/
def negotiator (s : Server) : Negotiator :=
  .create (s.registries.map Registry.version)

/-- Moves the notes of a session to those of the server. -/
def collect (s : Server) (n : Nat) : Server :=
  match s.hub.station? n with
  | none => s
  | some station =>
    let (notes, station) := station.takeNotes
    { s with hub := s.hub.act n fun _ => station, notes := s.notes ++ notes }

/-- Lets a connection do something. Handlers count their entries over all sessions of a version. -/
def onConnection {α : Type} (s : Server) (n : Nat) (f : Connection → α × Connection) :
    Option α × Server :=
  match s.hub.station? n, s.links[n]? with
  | some station, some link =>
    let version := station.session.version
    let (a, c) := f ⟨{ station with tally := s.tallies version }, link⟩
    let s := { s with
      hub := s.hub.act n fun _ => c.station
      links := s.links.set n c.link
      tallies := fun v => if v = version then c.station.tally else s.tallies v }
    (some a, s.collect n)
  | _, _ => (none, s)

/-- Takes the session of a connection that has ended off the index. -/
def retire (s : Server) (n : Nat) : Server :=
  match s.hub.station? n, s.links[n]? with
  | some station, some link =>
    if link.isEnded then { s with hub := (s.hub.unregister station.session.chargePointId n).2 }
    else s
  | _, _ => s

/-- Lets every connection do what needs no time. -/
def settle (s : Server) : Server :=
  (List.range s.links.length).foldl (fun s n =>
    ((s.onConnection n fun c => ((), c.settle s.signalled)).2).retire n) s

/-- Opens a session for a charge point and puts it into the index; gives the one it replaces. -/
def enter (s : Server) (id : String) (r : Registry) : Option Nat × Server :=
  let n := s.hub.nextNumber
  let t := Turn.openSession n id r s.config .json (toString n) (.create true) 0
  let s := { s with
    hub := s.hub.add (.ofTurn t (s.tallies r.version))
    links := s.links ++ [Link.create none] }
  let s := s.collect n
  let (replaced, hub) := s.hub.insert n
  (replaced, { s with hub })

/-- Closes a session. -/
def close (s : Server) (n : Nat) : Server :=
  { s with hub := (s.hub.close n).2 }.collect n

/-- Opens a session for a charge point and registers it. -/
def admitted (s : Server) (id : String) (r : Registry) : Server :=
  match s.enter id r with
  | (some old, s) => s.close old
  | (none, s) => s

/-- Answers a request for a connection, and gives the number of the connection if it is accepted. -/
def connect (s : Server) (target : String) (header : Option String) :
    Handshake × Option Nat × Server :=
  let h := Handshake.ofRequest s.negotiator target header
  match h with
  | .accepted id version _ =>
    match s.registry? version with
    | some r => (h, some s.hub.nextNumber, (s.admitted id r).settle)
    | none => (h, none, s)
  | _ => (h, none, s)

/-- Something comes from the peer of a connection; time passes until its calls are answered. -/
def receive (s : Server) (n : Nat) (a : Arrival) : Server :=
  (s.onConnection n fun c => ((), (c.arrive a).untilIdle s.signalled)).2.settle

/-- The process shuts down: every registered session is closed, and every connection ends. -/
def shutdown (s : Server) : Server :=
  let registered := s.hub.listed
  let s := { s with signalled := true, hub := s.hub.closeAll.2 }
  (registered.foldl collect s).settle

/-- Takes what the peer of a connection has got. -/
def takeDelivered (s : Server) (n : Nat) : List Delivery × Server :=
  match s.links[n]? with
  | some l =>
    let (ds, l) := l.takeDelivered
    (ds, { s with links := s.links.set n l })
  | none => ([], s)

/-- Whether the connection of a number has ended. -/
def hasEnded (s : Server) (n : Nat) : Bool :=
  s.links[n]?.all Link.isEnded

/-- The registered charge points with the versions of their sessions, by id. -/
def chargePoints (s : Server) : List (String × Version) :=
  s.hub.index.entries.filterMap fun (id, n) => (s.hub.station? n).map fun t => (id, t.session.version)

/-- Takes what has happened in all sessions. -/
def takeNotes (s : Server) : List Note × Server :=
  (s.notes, { s with notes := [] })

end Server

end ChargeLink
