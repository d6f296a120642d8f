import ChargeLink.Proofs.Server.Annals
import ChargeLink.Proofs.Server.Negotiation
import ChargeLink.Proofs.Session.Lifelong

/-!
# Receiving charge points

A server gets its registries one after the other, and then charge points
connect while connections come, work and go in any order. The version of a
session is the one that its request got, and the session has the registry that
was inserted last for that version, for as long as the server knows it.

* `Server.registry?_serving`: the registry of a version is the one inserted last.
* `Server.Works`: what a server does between requests leaves the sessions as they were opened.
* `Reception.Reachable.sound`: each session belongs to the request that opened it.
* `Reception.Reachable.received`: how requests are answered, and what sessions come of them.
-/

namespace ChargeLink

/-! ## Registries inserted in turn -/

namespace Registry

variable {r q : Registry} {rs : List Registry}

/-- The registry is the last one of its version. -/
def Last (r : Registry) (rs : List Registry) : Prop :=
  ∃ before after, rs = before ++ r :: after ∧ ∀ q ∈ after, q.version ≠ r.version

/-- The versions of the registries. -/
def Serves (rs : List Registry) (v : Version) : Prop :=
  ∃ r ∈ rs, r.version = v

/-- The last registry of a version is the one that a search from the end finds. -/
theorem last_iff_find? {v : Version} : r.Last rs ∧ r.version = v ↔
    rs.reverse.find? (fun q => q.version == v) = some r := by
  rw [List.find?_eq_some_iff_append]
  constructor
  · rintro ⟨⟨before, after, rfl, others⟩, rfl⟩
    refine ⟨beq_self_eq_true _, after.reverse, before.reverse, by simp, fun q mem => ?_⟩
    simpa using others q (List.mem_reverse.1 mem)
  · rintro ⟨same, after, before, reversed, others⟩
    obtain rfl : r.version = v := eq_of_beq same
    have whole : rs = before.reverse ++ r :: after.reverse := by
      rw [← List.reverse_reverse rs, reversed]
      simp
    refine ⟨⟨_, _, whole, fun q mem => ?_⟩, rfl⟩
    simpa using others q (List.mem_reverse.1 mem)

/-- Every version that is served has a last registry. -/
theorem Serves.exists_last {v : Version} (serves : Serves rs v) :
    ∃ r : Registry, r.Last rs ∧ r.version = v := by
  obtain ⟨q, mem, same⟩ := serves
  have found : (rs.reverse.find? fun q => q.version == v).isSome := by
    rw [List.find?_isSome]
    exact ⟨q, List.mem_reverse.2 mem, by simpa using same⟩
  obtain ⟨r, found⟩ := Option.isSome_iff_exists.1 found
  exact ⟨r, last_iff_find?.2 found⟩

/-- There is one last registry of a version. -/
theorem Last.unique (hr : r.Last rs) (hq : q.Last rs) (same : r.version = q.version) : r = q := by
  have found := last_iff_find?.1 ⟨hr, same⟩
  rw [last_iff_find?.1 ⟨hq, rfl⟩] at found
  exact (Option.some.inj found).symm

end Registry

namespace Server

open Registry (Serves)

variable {s s' s'' : Server} {rs : List Registry} {r : Registry} {v : Version}

/-- A server into which registries have been inserted one after the other. -/
def serving (config : SessionConfig) (rs : List Registry) : Server :=
  rs.foldl serve (create config)

/-- Inserting a registry replaces the one of its version, and no other. -/
theorem registry?_serve (s : Server) (r : Registry) (v : Version) :
    Server.registry? (s.serve r) v = if r.version = v then some r else s.registry? v := by
  unfold registry? serve
  rw [List.find?_cons]
  by_cases same : r.version = v
  · simp [same]
  · have missed : (r.version == v) = false := by simpa using same
    simp only [missed, if_neg same, List.find?_filter]
    congr 1
    funext q
    by_cases found : q.version = v
    · simp [found, Ne.symm same]
    · simp [found]

/-- **The registry of a version is the last one that was inserted for it.** -/
theorem registry?_serving (config : SessionConfig) (rs : List Registry) (v : Version) :
    Server.registry? (serving config rs) v = some r ↔ r.Last rs ∧ r.version = v := by
  rw [Registry.last_iff_find?]
  -- by the registries inserted so far
  induction rs using List.reverseRecOn with
  | nil => simp [serving, registry?, create]
  | append_singleton rs q ih =>
    have last : serving config (rs ++ [q]) = (serving config rs).serve q := by
      simp [serving]
    rw [last, registry?_serve, List.reverse_append, List.reverse_singleton, List.singleton_append,
      List.find?_cons]
    by_cases same : q.version = v
    · simp [same]
    · have missed : (q.version == v) = false := by simpa using same
      rw [if_neg same, missed]
      exact ih

/-- A server speaks the versions of the registries that were inserted. -/
theorem mem_versions_serving (config : SessionConfig) (rs : List Registry) (v : Version) :
    v ∈ (serving config rs).registries.map Registry.version ↔ Serves rs v := by
  have there : v ∈ (serving config rs).registries.map Registry.version ↔
      ∃ r, Server.registry? (serving config rs) v = some r := by
    rw [← Option.isSome_iff_exists, registry?, List.find?_isSome]
    simp
  rw [there]
  constructor
  · rintro ⟨r, found⟩
    obtain ⟨⟨before, after, rfl, -⟩, same⟩ := (registry?_serving config rs v).1 found
    exact ⟨r, by simp, same⟩
  · intro serves
    obtain ⟨r, last, same⟩ := serves.exists_last
    exact ⟨r, (registry?_serving config rs v).2 ⟨last, same⟩⟩

/-! ## Between requests -/

/-- From `s` to `s'` the server has worked: it serves what it served, and its sessions are there,
each after some deeds. -/
structure Works (s s' : Server) : Prop where
  registries : s'.registries = s.registries
  length : s'.hub.stations.length = s.hub.stations.length
  deeds : ∀ n t, s'.hub.station? n = some t → ∃ u, s.hub.station? n = some u ∧ Station.Deeds u t

namespace Works

/-- Something else changes than the registries and the sessions. -/
theorem same (registries : s'.registries = s.registries)
    (stations : s'.hub.stations = s.hub.stations) : Works s s' := by
  refine ⟨registries, congrArg List.length stations, fun n t found => ⟨t, ?_, .refl⟩⟩
  have found : s'.hub.stations[n]? = some t := found
  rwa [stations] at found

theorem refl (s : Server) : Works s s :=
  same rfl rfl

theorem trans (a : Works s s') (b : Works s' s'') : Works s s'' := by
  refine ⟨b.registries.trans a.registries, b.length.trans a.length, fun n t found => ?_⟩
  obtain ⟨t', found', later⟩ := b.deeds n t found
  obtain ⟨u, there, before⟩ := a.deeds n t' found'
  exact ⟨u, there, before.trans later⟩

/-- The stations have done deeds, and the registries are the same. -/
theorem tends (registries : s'.registries = s.registries) (tends : s.hub.Tends s'.hub) :
    Works s s' :=
  ⟨registries, tends.length, tends.deeds⟩

theorem collect (s : Server) (n : ℕ) : Works s (s.collect n) := by
  refine .tends ?_ (s.tends_collect n).hub
  unfold Server.collect
  split <;> rfl

theorem collects : ∀ (ns : List ℕ) (s : Server), Works s (ns.foldl Server.collect s)
  | [], s => .refl s
  | n :: ns, s => (collect s n).trans (collects ns (s.collect n))

/-- A connection makes moves. -/
theorem drive {n : ℕ} {f : Connection → Connection}
    (moves : ∀ t l, s.hub.station? n = some t → s.links[n]? = some l →
      Connection.Moves s.signalled ⟨{ t with tally := s.tallies t.session.version }, l⟩
        (f ⟨{ t with tally := s.tallies t.session.version }, l⟩)) :
    Works s (s.onConnection n fun c => ((), f c)).2 := by
  rcases s.connection_or n with ⟨t, l, station, link⟩ | none
  · obtain ⟨tallies, driven⟩ := onConnection_of_some station link f
    rw [driven]
    refine trans ?_ (collect _ n)
    refine .tends rfl (.act fun u there => ?_)
    rw [station] at there
    cases there
    exact .head (.retally _) (moves t l station link).deeds
  · rw [onConnection_of_none f none]
    exact .refl s

theorem retire (s : Server) (n : ℕ) : Works s (s.retire n) := by
  rcases s.retire_cases n with ⟨t, l, station, link, ended⟩ | same
  · rw [retire_of_ended station link ended]
    exact .same rfl rfl
  · rw [same]
    exact .refl s

/-- **The connections do what needs no time.** -/
theorem settle (s : Server) : Works s s.settle := by
  have each : ∀ (ns : List ℕ) (s : Server), Works s (ns.foldl attend s) := by
    intro ns
    induction ns with
    | nil => exact .refl
    | cons n ns ih =>
      intro s
      have driven : Works s (s.onConnection n fun c => ((), c.settle s.signalled)).2 :=
        .drive fun _ _ _ _ => Connection.moves_settle _
      exact (driven.trans (retire _ n)).trans (ih _)
  exact each _ s

/-- All registered sessions are closed. -/
theorem clear (s : Server) : Works s s.clear := by
  have tends := Hub.Tends.closeEach s.hub.listed s.hub.clear
  have closed : Works s { s with hub := s.hub.closeAll.2 } := ⟨rfl, tends.length, tends.deeds⟩
  exact closed.trans (collects ..)

/-- A session is closed. -/
theorem close (s : Server) (n : ℕ) : Works s (s.close n) := by
  have closed : Works s { s with hub := (s.hub.close n).2 } := .tends rfl (.close _ n)
  exact closed.trans (collect ..)

end Works

/-- A charge point is admitted: its session has been added, and the server works. -/
theorem works_admitted (s : Server) (id : String) (r : Registry) : ∃ t taken,
    Station.Kept t taken ∧ t.session.chargePointId = id ∧ t.session.registry = r ∧
    Works { s with hub := s.hub.add t, links := s.links ++ [.create none] } (s.admitted id r) := by
  obtain ⟨t, taken, notes, kept, -, own, registry, enters⟩ := s.enter_eq id r
  refine ⟨t, taken, kept, own, registry, ?_⟩
  have entered : Works { s with hub := s.hub.add t, links := s.links ++ [.create none] }
      (s.enter id r).2 := by
    rw [enters]
    exact .same rfl rfl
  unfold admitted
  split <;> rename_i same <;> rw [same] at entered
  · exact entered.trans (.close ..)
  · exact entered

/-! ## Requests -/

variable {target id : String} {header named : Option String}

theorem connect_fst (s : Server) (target : String) (header : Option String) :
    (s.connect target header).1 = .ofRequest s.negotiator target header := by
  unfold connect
  simp only
  split
  · rename_i answer
    split <;> rw [answer]
  · rfl

/-- A charge point is accepted, and there is a registry for its version. -/
theorem connect_of_accepted
    (answer : .ofRequest s.negotiator target header = Handshake.accepted id v named)
    (found : s.registry? v = some r) : s.connect target header =
      (.accepted id v named, some s.hub.nextNumber, (s.admitted id r).settle) := by
  unfold connect
  simp only [answer, found]

/-- A request that is not accepted changes nothing. -/
theorem connect_of_refused
    (refused : ∀ id v named, .ofRequest s.negotiator target header ≠ Handshake.accepted id v named) :
    s.connect target header = (.ofRequest s.negotiator target header, none, s) := by
  unfold connect
  cases answer : Handshake.ofRequest s.negotiator target header with
  | accepted id v named => exact absurd answer (refused id v named)
  | noChargePoint | noVersion => rfl

end Server

/-- A server with the requests that it has accepted. -/
structure Reception where
  server : Server
  /-- The targets of the requests with their lists of versions, the first one first. -/
  requests : List (String × Option String)

namespace Reception

open Handshake Negotiator Registry Server

/-- A request is answered, and kept if it is given a session. -/
def greet (p : Reception) (target : String) (header : Option String) : Reception :=
  match p.server.connect target header with
  | (_, some _, s) => ⟨s, p.requests ++ [(target, header)]⟩
  | (_, none, s) => ⟨s, p.requests⟩

/-- A step of a server. -/
inductive Step : Reception → Reception → Prop
  /-- A charge point asks for a connection. -/
  | greet {p} (target : String) (header : Option String) : Step p (p.greet target header)
  /-- A connection makes moves. -/
  | drive {p} (n : ℕ) (f : Connection → Connection)
      (moves : ∀ t l, p.server.hub.station? n = some t → p.server.links[n]? = some l →
        Connection.Moves p.server.signalled
          ⟨{ t with tally := p.server.tallies t.session.version }, l⟩
          (f ⟨{ t with tally := p.server.tallies t.session.version }, l⟩)) :
      Step p { p with server := (p.server.onConnection n fun c => ((), f c)).2 }
  /-- A connection that has ended takes its session off the index. -/
  | retire {p} (n : ℕ) : Step p { p with server := p.server.retire n }
  /-- All connections do what needs no time. -/
  | settle {p} : Step p { p with server := p.server.settle }
  /-- The process is told to shut down. -/
  | signal {p} : Step p { p with server := { p.server with signalled := true } }
  /-- All sessions are closed. -/
  | clear {p} : Step p { p with server := p.server.clear }
  /-- Somebody looks at what has happened. -/
  | takeNotes {p} : Step p { p with server := p.server.takeNotes.2 }

/-- The runs of all servers into which the registries have been inserted, one after the other. -/
inductive Reachable (rs : List Registry) : Reception → Prop
  | start (config : SessionConfig) : Reachable rs ⟨serving config rs, []⟩
  | step {p p'} : Reachable rs p → Step p p' → Reachable rs p'

variable {rs rs' : List Registry} {p p' : Reception} {s s' : Server}
  {requests : List (String × Option String)} {target : String} {header : Option String} {n : ℕ}
  {t : Station}

/-! ## Sessions and their requests -/

/-- The session is the one for the request: it is that of the charge point which the path names, it
speaks the version that the list gets, and it has the registry that was inserted last for that
version. -/
structure Suits (rs : List Registry) (request : String × Option String) (t : Station) : Prop where
  path : chargePointId? (pathOf request.1) = some t.session.chargePointId
  gets : ∃ named, Gets (Registry.Serves rs) request.2 t.session.version named
  last : t.session.registry.Last rs

/-- A session stays the one for its request, whatever it does. -/
theorem Suits.deeds {request : String × Option String} {u : Station} {taken : List Note}
    (suits : Suits rs request u) (kept : u.Kept taken) (deeds : Station.Deeds u t) :
    Suits rs request t := by
  obtain ⟨-, carries⟩ := kept.deeds deeds
  have registry : t.session.registry = u.session.registry := deeds.registry
  have version : t.session.version = u.session.version := congrArg Registry.version registry
  exact ⟨carries.chargePointId.symm ▸ suits.path, version.symm ▸ suits.gets,
    registry.symm ▸ suits.last⟩

/-- The server serves what was inserted, and each of its sessions is the one for its request. -/
structure Sound (rs : List Registry) (p : Reception) : Prop where
  registries : ∃ config, p.server.registries = (serving config rs).registries
  length : p.requests.length = p.server.hub.stations.length
  kept : ∀ n t, p.server.hub.station? n = some t → ∃ taken, t.Kept taken
  suits : ∀ n t, p.server.hub.station? n = some t →
    ∃ request, p.requests[n]? = some request ∧ Suits rs request t

namespace Sound

/-- The server works. -/
theorem works (sound : Sound rs ⟨s, requests⟩) (works : s.Works s') :
    Sound rs ⟨s', requests⟩ := by
  refine ⟨?_, sound.length.trans works.length.symm, ?_, ?_⟩
  · obtain ⟨config, same⟩ := sound.registries
    exact ⟨config, works.registries.trans same⟩
  · intro n t found
    obtain ⟨u, there, deeds⟩ := works.deeds n t found
    obtain ⟨taken, kept⟩ := sound.kept n u there
    exact (kept.deeds deeds).1
  · intro n t found
    obtain ⟨u, there, deeds⟩ := works.deeds n t found
    obtain ⟨taken, kept⟩ := sound.kept n u there
    obtain ⟨request, listed, suits⟩ := sound.suits n u there
    exact ⟨request, listed, suits.deeds kept deeds⟩

/-- A session is added with its request. -/
theorem add (sound : Sound rs ⟨s, requests⟩) {request : String × Option String} {taken : List Note}
    (kept : t.Kept taken) (suits : Suits rs request t) (links : List Link) :
    Sound rs ⟨{ s with hub := s.hub.add t, links }, requests ++ [request]⟩ := by
  have length : requests.length = s.hub.stations.length := sound.length
  -- the new session stands last, and so does its request
  have last : ∀ {n u}, (s.hub.add t).station? n = some u →
      s.hub.station? n = some u ∨ n = requests.length ∧ t = u := by
    intro n u found
    rw [length]
    exact (Hub.station?_entered s.hub t).1 found
  refine ⟨sound.registries, ?_, ?_, ?_⟩
  · simp [Hub.add, length]
  · intro n u found
    rcases last found with old | ⟨-, rfl⟩
    · exact sound.kept n u old
    · exact ⟨taken, kept⟩
  · intro n u found
    rcases last found with old | ⟨rfl, rfl⟩
    · obtain ⟨request, listed, suits⟩ := sound.suits n u old
      exact ⟨request, by rw [List.getElem?_append_left (List.getElem?_eq_some_iff.1 listed).1, listed],
        suits⟩
    · exact ⟨request, List.getElem?_concat_length, suits⟩

theorem registry?_eq_some_iff (sound : Sound rs p) {v : Version} {r : Registry} :
    p.server.registry? v = some r ↔ r.Last rs ∧ r.version = v := by
  obtain ⟨config, same⟩ := sound.registries
  rw [← registry?_serving config, Server.registry?, Server.registry?, same]

theorem mem_versions (sound : Sound rs p) (v : Version) :
    v ∈ p.server.registries.map Registry.version ↔ Registry.Serves rs v := by
  obtain ⟨config, same⟩ := sound.registries
  rw [same, mem_versions_serving]

/-- A charge point is accepted with the version that its list gets. -/
theorem accepted_iff (sound : Sound rs p) {id : String} {v : Version} {named : Option String} :
    .ofRequest p.server.negotiator target header = Handshake.accepted id v named ↔
      chargePointId? (pathOf target) = some id ∧ Gets (Serves rs) header v named := by
  rw [Server.negotiator, ofRequest_eq_accepted_iff, Gets.congr sound.mem_versions]

/-- Any other is refused, for its path or for its list. -/
theorem noVersion_iff (sound : Sound rs p) :
    .ofRequest p.server.negotiator target header = Handshake.noVersion ↔
      (∃ id, chargePointId? (pathOf target) = some id) ∧
        ∀ v named, ¬Gets (Serves rs) header v named := by
  rw [Server.negotiator, ofRequest_eq_noVersion_iff]
  simp only [Gets.congr sound.mem_versions]

/-- For every version that is accepted there is a registry, the one that was inserted last. -/
theorem exists_registry (sound : Sound rs p) {id : String} {v : Version} {named : Option String}
    (answer : .ofRequest p.server.negotiator target header = Handshake.accepted id v named) :
    ∃ r : Registry, p.server.registry? v = some r ∧ r.Last rs ∧ r.version = v := by
  obtain ⟨-, gets⟩ := sound.accepted_iff.1 answer
  have served : Serves rs v := by
    cases gets with
    | listing _ _ highest => exact highest.1.1
    | silent _ lowest => exact lowest.1
  obtain ⟨r, last, version⟩ := served.exists_last
  exact ⟨r, sound.registry?_eq_some_iff.2 ⟨last, version⟩, last, version⟩

/-- **A request is answered,** and if it is accepted, a session is opened for it. -/
theorem greet (sound : Sound rs p) (target : String) (header : Option String) :
    Sound rs (p.greet target header) := by
  by_cases accepts : ∃ id v named,
      .ofRequest p.server.negotiator target header = Handshake.accepted id v named
  · obtain ⟨id, v, named, answer⟩ := accepts
    obtain ⟨r, found, last, rfl⟩ := sound.exists_registry answer
    obtain ⟨path, gets⟩ := sound.accepted_iff.1 answer
    obtain ⟨t, taken, kept, rfl, rfl, works⟩ := p.server.works_admitted id r
    rw [Reception.greet, connect_of_accepted answer found]
    have suits : Suits rs (target, header) t := ⟨path, ⟨named, gets⟩, last⟩
    have added := sound.add kept suits (p.server.links ++ [.create none])
    exact (added.works works).works (.settle _)
  · push Not at accepts
    rw [Reception.greet, connect_of_refused accepts]
    exact sound

end Sound

/-- **Each session of a server is the one for its request.** -/
theorem Reachable.sound (h : Reachable rs p) : Sound rs p := by
  induction h with
  | start config =>
    -- there is no session yet
    have none : (serving config rs).hub = .empty := by
      induction rs using List.reverseRecOn with
      | nil => rfl
      | append_singleton rs r ih =>
        rw [serving, List.foldl_append]
        exact ih
    refine ⟨⟨config, rfl⟩, ?_, ?_, ?_⟩ <;> simp [none, Hub.empty, Hub.station?]
  | step _ step ih =>
    cases step with
    | greet target header => exact ih.greet target header
    | drive n f moves => exact ih.works (.drive moves)
    | retire n => exact ih.works (.retire _ n)
    | settle => exact ih.works (.settle _)
    | clear => exact ih.works (.clear _)
    | signal | takeNotes => exact ih.works (.same rfl rfl)

/-- A session is opened for a request that is accepted. -/
theorem Sound.greeted (sound : Sound rs p) {id : String} {v : Version} {named : Option String}
    (answer : (p.server.connect target header).1 = .accepted id v named) :
    (p.server.connect target header).2.1 = some p.server.hub.nextNumber ∧
    ∃ t, (p.server.connect target header).2.2.hub.station? p.server.hub.nextNumber = some t ∧
      t.session.chargePointId = id ∧ t.session.registry.Last rs ∧ t.session.version = v := by
  rw [connect_fst] at answer
  obtain ⟨r, found, -⟩ := sound.exists_registry answer
  have connected := connect_of_accepted answer found
  rw [connected]
  refine ⟨rfl, ?_⟩
  -- the session is the one for the last request
  have later : Sound rs ⟨(p.server.admitted id r).settle, p.requests ++ [(target, header)]⟩ := by
    have greeted := sound.greet target header
    rwa [Reception.greet, connected] at greeted
  have length : p.requests.length = p.server.hub.nextNumber := sound.length
  have last : (p.requests ++ [(target, header)])[p.server.hub.nextNumber]? =
      some (target, header) := length ▸ List.getElem?_concat_length
  have lt : p.server.hub.nextNumber < (p.server.admitted id r).settle.hub.stations.length := by
    have longer : (p.requests ++ [(target, header)]).length =
      (p.server.admitted id r).settle.hub.stations.length := later.length
    rw [← longer, List.length_append, length]
    exact Nat.lt_succ_self _
  obtain ⟨request, listed, suits⟩ := later.suits _ _ (List.getElem?_eq_getElem lt)
  obtain rfl : request = (target, header) := Option.some.inj (listed.symm.trans last)
  obtain ⟨named', gets⟩ := suits.gets
  have answer' := sound.accepted_iff.2 ⟨suits.path, gets⟩
  rw [answer] at answer'
  obtain ⟨own, version, -⟩ := Handshake.accepted.inj answer'
  exact ⟨_, List.getElem?_eq_getElem lt, own.symm, suits.last, version.symm⟩

/-- **How a server receives charge points.** A session belongs to each request that was accepted: it
is that of the charge point which the path names, it speaks the version that the list gets, and it
keeps the registry that was inserted last for that version. A request is accepted with the highest
version that is served and named, or with the lowest that is served if nothing is listed; any other
is refused and changes nothing. Whenever a request is accepted, a session is opened. The answer
depends on which versions are served and which tokens are listed, and not on the order in which the
registries are inserted or enumerated, or in which the tokens are listed, however often. -/
theorem Reachable.received (h : Reachable rs p) :
    (p.requests.length = p.server.hub.stations.length ∧
      ∀ n t, p.server.hub.station? n = some t →
        ∃ request, p.requests[n]? = some request ∧ Suits rs request t) ∧
    ∀ target header,
      (∀ id v named, (p.server.connect target header).1 = .accepted id v named ↔
        chargePointId? (pathOf target) = some id ∧ Gets (Serves rs) header v named) ∧
      ((p.server.connect target header).1 = .noVersion ↔
        (∃ id, chargePointId? (pathOf target) = some id) ∧
          ∀ v named, ¬Gets (Serves rs) header v named) ∧
      ((p.server.connect target header).1 = .noChargePoint ↔
        chargePointId? (pathOf target) = none) ∧
      (∀ id v named, (p.server.connect target header).1 = .accepted id v named →
        (p.server.connect target header).2.1 = some p.server.hub.nextNumber ∧
        ∃ t, (p.server.connect target header).2.2.hub.station? p.server.hub.nextNumber = some t ∧
          t.session.chargePointId = id ∧ t.session.registry.Last rs ∧ t.session.version = v) ∧
      ((∀ id v named, (p.server.connect target header).1 ≠ .accepted id v named) →
        (p.server.connect target header).2 = (none, p.server)) ∧
      (∀ keys, (∀ v, v ∈ keys ↔ Serves rs v) →
        .ofRequest (.create keys) target header = (p.server.connect target header).1) ∧
      (∀ rs' p', Reachable rs' p' → (∀ v, Serves rs' v ↔ Serves rs v) →
        (p'.server.connect target header).1 = (p.server.connect target header).1) ∧
      (∀ listed offered, header = some listed → Readable listed → Readable offered →
        (Blank listed ↔ Blank offered) →
        (∀ token, token ∈ tokens listed ↔ token ∈ tokens offered) →
        (p.server.connect target (some offered)).1 = (p.server.connect target header).1) := by
  have sound := h.sound
  refine ⟨⟨sound.length, sound.suits⟩, fun target header => ?_⟩
  simp only [connect_fst]
  refine ⟨fun id v named => sound.accepted_iff, sound.noVersion_iff, ofRequest_eq_noChargePoint_iff,
    ?_, ?_, ?_, ?_, ?_⟩
  · intro id v named answer
    exact sound.greeted (by rw [connect_fst, answer])
  · intro refused
    rw [connect_of_refused refused]
  · intro keys same
    exact congrArg (ofRequest · target header)
      (Negotiator.create_perm fun v => (same v).trans (sound.mem_versions v).symm)
  · intro rs' p' h' same
    refine congrArg (ofRequest · target header) (Negotiator.create_perm fun v => ?_)
    rw [h'.sound.mem_versions, sound.mem_versions, same]
  · rintro listed offered rfl reads reads' blank same
    refine ofRequest_congr fun v named => ⟨?_, ?_⟩
    · exact .retoken reads' reads blank.symm fun token => (same token).symm
    · exact .retoken reads reads' blank same

/-- Registries for both versions; the newer one has got another registry later. -/
def replaced : List Registry :=
  [.empty .v201 .chargePoint, .empty .v16 .centralSystem, .empty .v201 .centralSystem]

/-- A charge point has connected that lists both versions, the newer one by its old name. -/
def welcomed : Reception :=
  greet ⟨serving ⟨10, .queue, 1, .standard⟩ replaced, []⟩ "/ocpp/CP-1" (some "ocpp1.6, ocpp2.0")

/-- It has a session with the later registry for the newer version; and a request for a version
that nobody serves is refused. -/
theorem received_welcomed : Reachable replaced welcomed ∧
    (∃ t, welcomed.server.hub.station? 0 = some t ∧ t.session.chargePointId = "CP-1" ∧
      t.session.registry = .empty .v201 .centralSystem) ∧
    (welcomed.server.connect "/ocpp/CP-2" (some "ocpp1.5")).2.1 = none := by
  have reachable : Reachable replaced welcomed := (Reachable.start _).step (.greet ..)
  obtain ⟨⟨length, sessions⟩, answers⟩ := reachable.received
  have one : welcomed.requests = [("/ocpp/CP-1", some "ocpp1.6, ocpp2.0")] := by decide +kernel
  rw [one] at length
  obtain ⟨t, found⟩ : ∃ t, welcomed.server.hub.station? 0 = some t :=
    ⟨_, List.getElem?_eq_getElem (length ▸ Nat.zero_lt_one)⟩
  obtain ⟨request, listed, suits⟩ := sessions 0 t found
  rw [one] at listed
  cases listed
  -- the same request would get the same answer now
  obtain ⟨accepts, -⟩ := answers "/ocpp/CP-1" (some "ocpp1.6, ocpp2.0")
  obtain ⟨named, gets⟩ := suits.gets
  have answer := (accepts _ _ _).2 ⟨suits.path, gets⟩
  have again : (welcomed.server.connect "/ocpp/CP-1" (some "ocpp1.6, ocpp2.0")).1 =
    .accepted "CP-1" .v201 (some "ocpp2.0.1") := by decide +kernel
  obtain ⟨own, newer, -⟩ := Handshake.accepted.inj (again.symm.trans answer)
  have later : (Registry.empty .v201 .centralSystem).Last replaced :=
    ⟨[.empty .v201 .chargePoint, .empty .v16 .centralSystem], [], rfl, by simp⟩
  refine ⟨reachable, ⟨t, found, own.symm, suits.last.unique later newer.symm⟩, ?_⟩
  obtain ⟨-, -, -, -, refuses, -⟩ := answers "/ocpp/CP-2" (some "ocpp1.5")
  have refused : (welcomed.server.connect "/ocpp/CP-2" (some "ocpp1.5")).1 = .noVersion := by
    decide +kernel
  rw [refuses (by simp [refused])]

/-- Two lists that are not taken at their word. One names the newer version and has a letter that
cannot be read: the charge point gets the lowest version, as if it had listed none. The other one
has the tokens of a blank list, one of them twice, and is refused where that is not. -/
theorem unread_lists :
    ((serving ⟨10, .queue, 1, .standard⟩ replaced).connect "/ocpp/CP1" (some "ocpp2.0.1, é")).1 =
        .accepted "CP1" .v16 none ∧
      ¬Blank "ocpp2.0.1, é" ∧
      Highest (fun v => Serves replaced v ∧ Names "ocpp2.0.1, é" v) .v201 ∧
    ((serving ⟨10, .queue, 1, .standard⟩ replaced).connect "/ocpp/CP1" (some " ")).1 =
        .accepted "CP1" .v16 none ∧
      ((serving ⟨10, .queue, 1, .standard⟩ replaced).connect "/ocpp/CP1" (some ",")).1 =
        .noVersion ∧
      tokens " " = [""] ∧ tokens "," = ["", ""] := by
  have served : Serves replaced .v201 := ⟨.empty .v201 .chargePoint, by simp [replaced], rfl⟩
  have names : Names "ocpp2.0.1, é" .v201 := ⟨"ocpp2.0.1", by decide, by decide⟩
  have newest : ∀ v : Version, v.rank ≤ Version.v201.rank := by
    intro v
    cases v <;> decide
  refine ⟨by decide +kernel, fun blank => ?_, ⟨⟨served, names⟩, fun v _ => newest v⟩,
    by decide +kernel, by decide +kernel, by decide, by decide⟩
  exact absurd (blank 'o' (by decide)) (by decide)

end Reception

end ChargeLink
