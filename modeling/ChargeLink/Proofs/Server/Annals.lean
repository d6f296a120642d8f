import ChargeLink.Proofs.Server.Connections
import ChargeLink.Proofs.Server.Errands
import ChargeLink.Proofs.Session.Forfeits
import ChargeLink.Server.Basic

/-!
# Runs of a server

The annals of a server are the server with the record of its index, the errands of
those who are to close a session, and the sweeps of those who close all. In a run,
charge points are admitted, each with a fresh session, and whoever replaces another
session goes to close it; connections make moves, and those that have ended are taken
off the index, soon or late; the process is told to shut down, and all sessions are
listed, cleared and closed, before, after or without the signal. All of this comes in
any order, one step after the other: what the program does in several steps, it does
in several steps here.

* `Annals.Reachable.sound`: sessions, connections, index and errands always belong together.
* `Annals.Reachable.sessions_indexed`: what the index holds, what has become of the sessions that
  it does not hold, and what closing all of them comes to.
* `Annals.Reachable.settles`, `Annals.Reachable.connects`, `Annals.Reachable.shuts`: what a server
  does when it lets its connections work, admits a charge point or shuts down is part of a run.
-/

namespace ChargeLink

namespace Server

variable {s s' : Server} {n : ℕ}

/-- The sessions of the index are closed, and their notes are taken. -/
def clear (s : Server) : Server :=
  s.hub.listed.foldl collect { s with hub := s.hub.closeAll.2 }

/-- A shutdown is the signal, closing all sessions, and what the connections make of it. -/
theorem shutdown_eq (s : Server) :
    s.shutdown = ({ s with signalled := true } : Server).clear.settle :=
  rfl

/-- A connection does what needs no time, and is taken off the index if it has ended. -/
def attend (s : Server) (n : ℕ) : Server :=
  ((s.onConnection n fun c => ((), c.settle s.signalled)).2).retire n

/-- From `s` to `s'` the stations have done deeds, and neither connections nor index have changed.
-/
structure Tends (s s' : Server) : Prop where
  hub : s.hub.Tends s'.hub
  links : s'.links = s.links
  signalled : s'.signalled = s.signalled

theorem Tends.refl (s : Server) : Tends s s :=
  ⟨.refl _, rfl, rfl⟩

theorem Tends.trans {s s' s'' : Server} (a : Tends s s') (b : Tends s' s'') : Tends s s'' :=
  ⟨a.hub.trans b.hub, b.links.trans a.links, b.signalled.trans a.signalled⟩

theorem tends_collect (s : Server) (n : ℕ) : Tends s (s.collect n) := by
  unfold collect
  split
  · exact .refl s
  · rename_i t found
    refine ⟨.act fun u there => ?_, rfl, rfl⟩
    rw [found] at there
    cases there
    exact .single .takeNotes

theorem tends_collects : ∀ (ns : List ℕ) (s : Server), Tends s (ns.foldl collect s)
  | [], s => .refl s
  | n :: ns, s => (s.tends_collect n).trans (tends_collects ns (s.collect n))

/-- What a connection does reaches its station and its link, and then its notes are taken. -/
theorem onConnection_of_some {t : Station} {l : Link} (station : s.hub.station? n = some t)
    (link : s.links[n]? = some l) (f : Connection → Connection) :
    ∃ tallies, (s.onConnection n fun c => ((), f c)).2 =
      collect { s with
        hub := s.hub.act n fun _ =>
          (f ⟨{ t with tally := s.tallies t.session.version }, l⟩).station
        links := s.links.set n (f ⟨{ t with tally := s.tallies t.session.version }, l⟩).link
        tallies := tallies } n := by
  simp only [onConnection, station, link]
  exact ⟨_, rfl⟩

/-- A connection is there, or it is not. -/
theorem connection_or (s : Server) (n : ℕ) :
    (∃ t l, s.hub.station? n = some t ∧ s.links[n]? = some l) ∨
      s.hub.station? n = none ∨ s.links[n]? = none := by
  cases station : s.hub.station? n with
  | none => exact .inr (.inl rfl)
  | some t =>
    cases link : s.links[n]? with
    | none => exact .inr (.inr rfl)
    | some l => exact .inl ⟨t, l, rfl, rfl⟩

/-- A connection that is not there does nothing. -/
theorem onConnection_of_none (f : Connection → Connection)
    (none : s.hub.station? n = none ∨ s.links[n]? = none) :
    (s.onConnection n fun c => ((), f c)).2 = s := by
  unfold onConnection
  split
  · rename_i station link
    rcases none with none | none
    · rw [station] at none
      cases none
    · rw [link] at none
      cases none
  · rfl

/-- A connection that has ended takes its session off the index. -/
theorem retire_of_ended {t : Station} {l : Link} (station : s.hub.station? n = some t)
    (link : s.links[n]? = some l) (ended : l.isEnded = true) :
    s.retire n = { s with hub := (s.hub.unregister t.session.chargePointId n).2 } := by
  simp only [retire, station, link, if_pos ended]

/-- Any other connection takes none. -/
theorem retire_cases (s : Server) (n : ℕ) :
    (∃ t l, s.hub.station? n = some t ∧ s.links[n]? = some l ∧ l.isEnded = true) ∨
      s.retire n = s := by
  unfold retire
  split
  · rename_i t l station link
    split
    · rename_i ended
      exact .inl ⟨t, l, station, link, ended⟩
    · exact .inr rfl
  · exact .inr rfl

/-- A charge point enters: its session is opened, its notes are taken, and it takes the place of
another one in the index, if there is one. -/
theorem enter_eq (s : Server) (id : String) (r : Registry) : ∃ t taken notes,
    Station.Kept t taken ∧ t.session.number = s.hub.nextNumber ∧ t.session.chargePointId = id ∧
    t.session.registry = r ∧ s.enter id r = (s.hub.index.get? id,
      { s with hub := s.hub.entered t, links := s.links ++ [.create none], notes }) := by
  set u : Station := .ofTurn (.openSession s.hub.nextNumber id r s.config .json
    (toString s.hub.nextNumber) (.create true) 0) (s.tallies r.version) with hu
  have kept : u.Kept [] := .opened ..
  obtain ⟨⟨taken, kept⟩, -⟩ := kept.deed .takeNotes
  refine ⟨u.takeNotes.2, taken, s.notes ++ u.notes, kept, rfl, rfl, rfl, ?_⟩
  have noted : (collect { s with hub := s.hub.add u, links := s.links ++ [.create none] }
      s.hub.nextNumber) = { s with
        hub := s.hub.add u.takeNotes.2
        links := s.links ++ [.create none]
        notes := s.notes ++ u.notes } := by
    simp [collect, Hub.station?, Hub.add, Hub.nextNumber, Hub.act, Station.takeNotes]
  unfold enter
  simp only
  rw [← hu, noted]
  simp only [Hub.insert_add]
  rfl

end Server

/-- A server with the record of its index, and with those who close its sessions. -/
structure Annals where
  server : Server
  record : List IndexEvent
  errands : List Errand
  sweeps : List Sweep
  closures : List Closure

namespace Annals

open Errand (bill)

/-- A step of a server, or of somebody who uses it. -/
inductive Step : Annals → Annals → Prop
  /-- A charge point is admitted, and its session registered; the one it replaces is to be closed.
  -/
  | join {a} (id : String) (r : Registry) : Step a { a with
      server := (a.server.enter id r).2
      record := a.record ++ [.registered id a.server.hub.nextNumber]
      errands := a.errands ++ ((a.server.enter id r).1.map (Errand.fresh none)).toList }
  /-- A connection makes moves. -/
  | drive {a s l} (n : ℕ) (f : Connection → Connection) (station : a.server.hub.station? n = some s)
      (link : a.server.links[n]? = some l)
      (moves : Connection.Moves a.server.signalled
        ⟨{ s with tally := a.server.tallies s.session.version }, l⟩
        (f ⟨{ s with tally := a.server.tallies s.session.version }, l⟩)) :
      Step a { a with server := (a.server.onConnection n fun c => ((), f c)).2 }
  /-- Sessions are used or being closed, somebody looks at what has happened, or a version is served
  with another registry. -/
  | tend {a s} (tends : a.server.Tends s) : Step a { a with server := s }
  /-- The one who is to close a session finds it open, and begins. -/
  | begin {a s before e after} (errands : a.errands = before ++ e :: after)
      (fresh : e.begun = false) (station : a.server.hub.station? e.session = some s)
      (isOpen : s.session.phase = .opened) : Step a { a with
        server := { a.server with
          hub := a.server.hub.act e.session fun u => u.act fun t => t.closing .start }
        errands := before ++ { e with begun := true } :: after }
  /-- The one who is to close a session comes too late. -/
  | pass {a s before e after} (errands : a.errands = before ++ e :: after)
      (fresh : e.begun = false) (station : a.server.hub.station? e.session = some s)
      (ended : s.session.phase ≠ .opened) : Step a { a with errands := before ++ after }
  /-- The one who has begun to close a session has closed it. -/
  | finish {a s before e after} (errands : a.errands = before ++ e :: after)
      (begun : e.begun = true) (station : a.server.hub.station? e.session = some s)
      (closed : s.session.phase = .closed) : Step a { a with
        errands := before ++ after
        sweeps := bill e.sweep (s.session.abandoned.getD 0) a.sweeps
        closures := a.closures ++ [⟨e.session, e.sweep, s.session.abandoned.getD 0⟩] }
  /-- A connection that has ended takes its session off the index. -/
  | retire {a s l} (n : ℕ) (station : a.server.hub.station? n = some s)
      (link : a.server.links[n]? = some l) (ended : l.isEnded = true) : Step a { a with
        server := a.server.retire n
        record := a.record ++ [.unregistered s.session.chargePointId n] }
  /-- The process is told to shut down. -/
  | signal {a} : Step a { a with server := { a.server with signalled := true } }
  /-- Somebody who closes all sessions lists them. -/
  | list {a} : Step a { a with
      record := a.record ++ [.listed a.sweeps.length]
      sweeps := a.sweeps ++ [⟨a.server.hub.listed, false, 0⟩] }
  /-- Somebody who has listed the sessions empties the index; those that were listed are to be
  closed. -/
  | clear {a w} (k : ℕ) (sweep : a.sweeps[k]? = some w) (due : w.cleared = false) : Step a { a with
      server := { a.server with hub := a.server.hub.clear }
      record := a.record ++ [.cleared k]
      errands := a.errands ++ w.listed.map (Errand.fresh (some k))
      sweeps := a.sweeps.set k { w with cleared := true } }

/-- The annals of all runs of all servers. -/
inductive Reachable : Annals → Prop
  | start (config : SessionConfig) : Reachable ⟨.create config, [], [], [], []⟩
  | step {a b} : Reachable a → Step a b → Reachable b

variable {a : Annals} {s s' : Server} {h' : Hub} {record : List IndexEvent} {n k : ℕ}
  {before after : List Errand} {e : Errand}

/-! ## Sessions, connections, index and errands -/

/-- The session may be open without being in the index: somebody is to close it and has not begun,
or it was missed by one who closed all. -/
def Loose (a : Annals) (n : ℕ) : Prop :=
  (∃ e ∈ a.errands, e.session = n ∧ e.begun = false) ∨ IndexEvent.Missed a.record n

/-- Sessions, connections, index and errands belong together: there is a link for each session, and
none of them stays open when its connection stops; and those who close all sessions know which were
in the index, and which have come since. -/
structure Sound (a : Annals) : Prop where
  hub : a.server.hub.Sound a.record a.Loose
  links : a.server.links.length = a.server.hub.stations.length
  tidy : ∀ n t l, a.server.hub.station? n = some t → a.server.links[n]? = some l →
    Connection.Tidy ⟨t, l⟩
  booked : Errand.Booked a.server.hub a.errands a.closures
  tallied : Errand.Tallied a.errands a.sweeps a.closures
  watches : ∀ k w, a.sweeps[k]? = some w → w.cleared = false →
    IndexEvent.Watches a.record k a.server.hub.index.entries w.listed ∧
      ∀ n ∈ w.listed, ∃ s, a.server.hub.station? n = some s

namespace Sound

/-- Deeds of the stations leave the connections tidy. -/
theorem tidy_deeds (h : Sound a) (deeds : ∀ n t, h'.station? n = some t →
      ∃ u, a.server.hub.station? n = some u ∧ Station.Deeds u t) :
    ∀ n t l, h'.station? n = some t → a.server.links[n]? = some l → Connection.Tidy ⟨t, l⟩ := by
  intro n t l found link stopped isOpen
  obtain ⟨u, before, done⟩ := deeds n t found
  obtain ⟨taken, kept⟩ := h.hub.kept n u before
  obtain ⟨-, carries⟩ := kept.deeds done
  exact h.tidy n u l before link stopped (carries.isOpen isOpen)

/-- The sessions that are known to those who close all stay there. -/
theorem watches_tends (h : Sound a) (tends : a.server.hub.Tends h') :
    ∀ k w, a.sweeps[k]? = some w → w.cleared = false →
      IndexEvent.Watches a.record k h'.index.entries w.listed ∧
        ∀ n ∈ w.listed, ∃ s, h'.station? n = some s := by
  intro k w sweep due
  obtain ⟨watches, known⟩ := h.watches k w sweep due
  refine ⟨tends.index ▸ watches, fun n mem => ?_⟩
  obtain ⟨s, found⟩ := known n mem
  obtain ⟨t, there, -⟩ := h.hub.carried tends found
  exact ⟨t, there⟩

/-- The stations do deeds. -/
theorem tend (h : Sound a) (tends : a.server.Tends s) : Sound { a with server := s } := by
  refine ⟨h.hub.tends tends.hub fun _ _ _ _ => id, ?_, ?_,
    h.booked.onward fun n t => h.hub.carried tends.hub, h.tallied, h.watches_tends tends.hub⟩
  · show s.links.length = s.hub.stations.length
    rw [tends.links, tends.hub.length]
    exact h.links
  · have tidy := h.tidy_deeds tends.hub.deeds
    rw [← tends.links] at tidy
    exact tidy

/-- A charge point is admitted. -/
theorem join (h : Sound a) (id : String) (r : Registry) : Sound { a with
    server := (a.server.enter id r).2
    record := a.record ++ [.registered id a.server.hub.nextNumber]
    errands := a.errands ++ ((a.server.enter id r).1.map (Errand.fresh none)).toList } := by
  obtain ⟨t, taken, notes, kept, number, rfl, -, enters⟩ := a.server.enter_eq id r
  rw [enters]
  -- the sessions that were there before are there
  have there : ∀ k u, a.server.hub.station? k = some u →
      (a.server.hub.entered t).station? k = some u := fun k u found =>
    (Hub.station?_entered a.server.hub t).2 (.inl found)
  refine ⟨(h.hub.enter kept number).mono fun k loose => ?_, ?_, ?_, ?_, ?_, ?_⟩
  · rcases loose with replaced | ⟨e, mem, own⟩ | missed
    · exact .inl ⟨.fresh none k, List.mem_append_right _ (by simp [replaced]), rfl, rfl⟩
    · exact .inl ⟨e, List.mem_append_left _ mem, own⟩
    · exact .inr (missed.append _)
  · show (a.server.links ++ [Link.create none]).length = (a.server.hub.stations ++ [t]).length
    rw [List.length_append, h.links, List.length_append]
    rfl
  · intro n u l found link
    have link : (a.server.links ++ [Link.create none])[n]? = some l := link
    rcases (Hub.station?_entered a.server.hub t).1 found with old | ⟨rfl, rfl⟩
    · -- the link of a session that was there before is the same
      have lt : n < a.server.links.length := h.links ▸ (List.getElem?_eq_some_iff.1 old).1
      rw [List.getElem?_append_left lt] at link
      exact h.tidy n u l old link
    · -- the new one has just started
      obtain rfl : Link.create none = l := by
        rw [Hub.nextNumber, ← h.links] at link
        simpa using link
      exact fun stopped => absurd rfl stopped
  · refine (h.booked.onward fun k u found => ⟨u, there k u found, .same rfl rfl rfl⟩).send ?_
    intro e mem
    obtain ⟨old, replaced, rfl⟩ := Option.map_eq_some_iff.1 (Option.mem_toList.1 mem)
    obtain ⟨u, found, -⟩ := h.hub.entries _ old
      ((SessionIndex.get?_eq_some_iff h.hub.tells.distinct).1 replaced)
    exact ⟨rfl, u, there old u found⟩
  · refine h.tallied.sends fun e mem => (List.mem_append.1 mem).imp_right fun new => ?_
    obtain ⟨old, -, rfl⟩ := Option.map_eq_some_iff.1 (Option.mem_toList.1 new)
    intro k same
    cases same
  · intro k w sweep due
    obtain ⟨watches, known⟩ := h.watches k w sweep due
    refine ⟨watches.append _ fun id n mem => ?_, fun n mem => ?_⟩
    · refine (SessionIndex.mem_register.1 mem).symm.imp And.right fun new => ?_
      cases new
      exact List.mem_cons_self
    · obtain ⟨u, found⟩ := known n mem
      exact ⟨u, there n u found⟩

/-- A connection makes moves. -/
theorem drive (h : Sound a) {f : Connection → Connection} {t : Station} {l : Link}
    (station : a.server.hub.station? n = some t) (link : a.server.links[n]? = some l)
    (moves : Connection.Moves a.server.signalled
      ⟨{ t with tally := a.server.tallies t.session.version }, l⟩
      (f ⟨{ t with tally := a.server.tallies t.session.version }, l⟩)) :
    Sound { a with server := (a.server.onConnection n fun c => ((), f c)).2 } := by
  obtain ⟨taken, kept⟩ := h.hub.kept n t station
  obtain ⟨⟨taken, kept⟩, -⟩ := kept.deed (.retally (a.server.tallies t.session.version))
  have tidy := moves.tidy kept (h.tidy n t l station link)
  obtain ⟨tallies, driven⟩ := Server.onConnection_of_some station link f
  set c := f ⟨{ t with tally := a.server.tallies t.session.version }, l⟩ with hc
  have tends : a.server.hub.Tends
      { a.server.hub with stations := a.server.hub.stations.set n c.station } :=
    .set station (.head (.retally _) moves.deeds)
  rw [driven, Hub.act_of_some station]
  suffices sound : Sound { a with server := { a.server with
      hub := { a.server.hub with stations := a.server.hub.stations.set n c.station }
      links := a.server.links.set n c.link
      tallies := tallies } } from sound.tend (Server.tends_collect _ n)
  refine ⟨h.hub.tends tends fun _ _ _ _ => id, ?_, ?_,
    h.booked.onward fun n t => h.hub.carried tends, h.tallied, h.watches_tends tends⟩
  · show (a.server.links.set n c.link).length = (a.server.hub.stations.set n c.station).length
    rw [List.length_set, List.length_set]
    exact h.links
  · intro k u m found there
    have found : Hub.station?
        { a.server.hub with stations := a.server.hub.stations.set n c.station } k = some u := found
    have there : (a.server.links.set n c.link)[k]? = some m := there
    rw [Hub.station?_set station] at found
    by_cases same : k = n
    · subst same
      have lt := (List.getElem?_eq_some_iff.1 link).1
      rw [if_pos rfl, Option.some.injEq] at found
      rw [List.getElem?_set_self lt, Option.some.injEq] at there
      subst found there
      exact tidy
    · rw [if_neg same] at found
      rw [List.getElem?_set_ne (Ne.symm same)] at there
      exact h.tidy k u m found there

/-- A session that somebody is to close is found open. -/
theorem begin (h : Sound a) {t : Station} (errands : a.errands = before ++ e :: after)
    (fresh : e.begun = false) (station : a.server.hub.station? e.session = some t)
    (isOpen : t.session.phase = .opened) : Sound { a with
      server := { a.server with
        hub := a.server.hub.act e.session fun u => u.act fun t => t.closing .start }
      errands := before ++ { e with begun := true } :: after } := by
  have tends : a.server.hub.Tends
      (a.server.hub.act e.session fun u => u.act fun t => t.closing .start) :=
    .act fun u _ => .single (.closing .start)
  have closing : ∀ u, (a.server.hub.act e.session fun u => u.act fun t =>
      t.closing .start).station? e.session = some u → u.session.phase ≠ .opened := by
    intro u found
    rw [Hub.act_of_some station, Hub.station?_set station, if_pos rfl, Option.some.injEq] at found
    have session : (t.act fun t => t.closing .start).session = (t.turn.closing .start).session :=
      Station.session_adopt ..
    rw [← found, session, Turn.closing, Turn.beginClose_of_open (t := t.turn) isOpen]
    exact fun isOpen => by cases isOpen
  refine ⟨h.hub.tends tends ?_, h.links.trans tends.length.symm, h.tidy_deeds tends.deeds,
    (errands ▸ h.booked).begin fresh station isOpen (fun n t => h.hub.carried tends) closing,
    h.tallied.sends ?_, h.watches_tends tends⟩
  · -- an open session is not the one of this errand
    rintro n u found still (⟨d, mem, rfl, idle⟩ | missed)
    · refine .inl ⟨d, ?_, rfl, idle⟩
      rw [errands] at mem
      rcases List.mem_append.1 mem with old | mem
      · exact List.mem_append_left _ old
      · rcases List.mem_cons.1 mem with rfl | old
        · exact absurd still (closing u found)
        · exact List.mem_append_right _ (List.mem_cons_of_mem _ old)
    · exact .inr missed
  · intro d mem
    rw [errands]
    rcases List.mem_append.1 mem with old | mem
    · exact .inl (List.mem_append_left _ old)
    · rcases List.mem_cons.1 mem with rfl | old
      · exact .inr (h.tallied.begun e (errands ▸ List.mem_append_right _ List.mem_cons_self))
      · exact .inl (List.mem_append_right _ (List.mem_cons_of_mem _ old))

/-- Errands that are done are no errands any more. -/
theorem mem_done {d : Errand} (errands : a.errands = before ++ e :: after)
    (mem : d ∈ before ++ after) : d ∈ a.errands :=
  errands ▸ ((List.sublist_cons_self e after).append_left before).subset mem

/-- A session that somebody is to close is not open. -/
theorem pass (h : Sound a) {t : Station} (errands : a.errands = before ++ e :: after)
    (fresh : e.begun = false) (station : a.server.hub.station? e.session = some t)
    (ended : t.session.phase ≠ .opened) : Sound { a with errands := before ++ after } := by
  refine ⟨h.hub.tends (.refl _) ?_, h.links, h.tidy, (errands ▸ h.booked).pass fresh,
    h.tallied.sends fun d mem => .inl (mem_done errands mem), h.watches⟩
  rintro n u found still (⟨d, mem, rfl, idle⟩ | missed)
  · rw [errands, List.mem_append, List.mem_cons] at mem
    rcases mem with old | rfl | old
    · exact .inl ⟨d, List.mem_append_left _ old, rfl, idle⟩
    · rw [found] at station
      cases station
      exact absurd still ended
    · exact .inl ⟨d, List.mem_append_right _ old, rfl, idle⟩
  · exact .inr missed

/-- A session has been closed by the one who has begun to. -/
theorem finish (h : Sound a) {t : Station} (errands : a.errands = before ++ e :: after)
    (begun : e.begun = true) (station : a.server.hub.station? e.session = some t)
    (closed : t.session.phase = .closed) : Sound { a with
      errands := before ++ after
      sweeps := bill e.sweep (t.session.abandoned.getD 0) a.sweeps
      closures := a.closures ++ [⟨e.session, e.sweep, t.session.abandoned.getD 0⟩] } := by
  have mem : e ∈ a.errands := errands ▸ List.mem_append_right _ List.mem_cons_self
  refine ⟨h.hub.mono ?_, h.links, h.tidy, (errands ▸ h.booked).finish begun station closed, ?_, ?_⟩
  · rintro n (⟨d, mem, own, idle⟩ | missed)
    · rw [errands, List.mem_append, List.mem_cons] at mem
      rcases mem with old | rfl | old
      · exact .inl ⟨d, List.mem_append_left _ old, own, idle⟩
      · rw [begun] at idle
        cases idle
      · exact .inl ⟨d, List.mem_append_right _ old, own, idle⟩
    · exact .inr missed
  · refine (h.tallied.finish mem e.session _).sends fun d mem => .inl (mem_done errands mem)
  · intro k w found due
    obtain ⟨v, sweep, listed, cleared⟩ := Errand.exists_of_bill found
    rw [← listed]
    exact h.watches k v sweep (cleared.trans due)

/-- A connection that has ended takes its session off the index. -/
theorem retire (h : Sound a) {t : Station} {l : Link} (station : a.server.hub.station? n = some t)
    (link : a.server.links[n]? = some l) (ended : l.isEnded = true) : Sound { a with
      server := a.server.retire n
      record := a.record ++ [.unregistered t.session.chargePointId n] } := by
  have notOpen : t.session.phase ≠ .opened := by
    refine h.tidy n t l station link fun running => ?_
    have running : l.stage = .running := running
    simp [Link.isEnded, running] at ended
  rw [Server.retire_of_ended station link ended]
  refine ⟨(h.hub.leave station notOpen).mono fun k => Or.imp_right fun missed => missed.append _,
    h.links, h.tidy, h.booked.onward fun k u found => ⟨u, found, .same rfl rfl rfl⟩, h.tallied,
    fun k w sweep due => ?_⟩
  obtain ⟨watches, known⟩ := h.watches k w sweep due
  refine ⟨watches.append _ fun id n mem => .inl ?_, known⟩
  exact ((SessionIndex.mem_unregister h.hub.tells.distinct).1 mem).1

/-- All sessions are listed. -/
theorem list (h : Sound a) : Sound { a with
    record := a.record ++ [.listed a.sweeps.length]
    sweeps := a.sweeps ++ [⟨a.server.hub.listed, false, 0⟩] } := by
  refine ⟨(h.hub.list _).mono fun k => Or.imp_right fun missed => missed.append _, h.links, h.tidy,
    h.booked, h.tallied.list _, fun k w sweep due => ?_⟩
  have sweep : (a.sweeps ++ [⟨a.server.hub.listed, false, 0⟩])[k]? = some w := sweep
  rw [List.getElem?_append] at sweep
  split at sweep
  · obtain ⟨watches, known⟩ := h.watches k w sweep due
    exact ⟨watches.append _ fun _ _ => .inl, known⟩
  · rename_i le
    have lt : k - a.sweeps.length < 1 := (List.getElem?_eq_some_iff.1 sweep).1
    obtain rfl : k = a.sweeps.length := by omega
    obtain rfl : w = ⟨a.server.hub.listed, false, 0⟩ :=
      List.mem_singleton.1 (List.mem_of_getElem? sweep)
    refine ⟨.start .., fun n mem => ?_⟩
    obtain ⟨⟨id, m⟩, entry, rfl⟩ := List.mem_map.1 mem
    obtain ⟨s, found, -⟩ := h.hub.entries id m entry
    exact ⟨s, found⟩

/-- The index is emptied. -/
theorem clear (h : Sound a) {w : Sweep} (sweep : a.sweeps[k]? = some w) (due : w.cleared = false) :
    Sound { a with
      server := { a.server with hub := a.server.hub.clear }
      record := a.record ++ [.cleared k]
      errands := a.errands ++ w.listed.map (Errand.fresh (some k))
      sweeps := a.sweeps.set k { w with cleared := true } } := by
  obtain ⟨watches, known⟩ := h.watches k w sweep due
  have lt := (List.getElem?_eq_some_iff.1 sweep).1
  refine ⟨(h.hub.clear k).mono ?_, h.links, h.tidy, ?_, ?_, ?_⟩
  · rintro n (⟨id, mem⟩ | ⟨e, mem, own⟩ | missed)
    · exact (watches.missed mem).imp_left fun listed =>
        ⟨.fresh (some k) n, List.mem_append_right _ (List.mem_map_of_mem listed), rfl, rfl⟩
    · exact .inl ⟨e, List.mem_append_left _ mem, own⟩
    · exact .inr (missed.append _)
  · refine Errand.Booked.send (h.booked.onward fun k u found => ⟨u, found, .same rfl rfl rfl⟩) ?_
    intro e mem
    obtain ⟨n, listed, rfl⟩ := List.mem_map.1 mem
    exact ⟨rfl, known n listed⟩
  · refine (h.tallied.clear sweep true).sends fun e mem =>
      (List.mem_append.1 mem).imp_right fun new j same => ?_
    obtain ⟨n, -, rfl⟩ := List.mem_map.1 new
    cases same
    rwa [List.length_set]
  · intro j v there due
    have there : (a.sweeps.set k { w with cleared := true })[j]? = some v := there
    by_cases same : k = j
    · subst same
      rw [List.getElem?_set_self lt, Option.some.injEq] at there
      rw [← there] at due
      cases due
    · rw [List.getElem?_set_ne same] at there
      obtain ⟨watches, known⟩ := h.watches j v there due
      exact ⟨watches.append _ fun _ _ mem => (List.not_mem_nil mem).elim, known⟩

end Sound

/-- **Sessions, connections, index and errands always belong together.** -/
theorem Reachable.sound (h : a.Reachable) : Sound a := by
  induction h with
  | start config =>
    refine ⟨Hub.Sound.empty.mono fun _ => False.elim, rfl, fun n t l found => ?_,
      ⟨?_, ?_, List.nodup_nil⟩, ⟨?_, ?_, ?_⟩, ?_⟩
    · cases found
    · simp
    · simp
    · simp
    · simp
    · simp
    · simp
  | step _ step ih =>
    cases step with
    | join id r => exact ih.join id r
    | drive n f station link moves => exact ih.drive station link moves
    | tend tends => exact ih.tend tends
    | begin errands fresh station isOpen => exact ih.begin errands fresh station isOpen
    | pass errands fresh station ended => exact ih.pass errands fresh station ended
    | finish errands begun station closed => exact ih.finish errands begun station closed
    | retire n station link ended => exact ih.retire station link ended
    | signal => exact ⟨ih.hub, ih.links, ih.tidy, ih.booked, ih.tallied, ih.watches⟩
    | list => exact ih.list
    | clear k sweep due => exact ih.clear sweep due

/-! ## What a server does -/

/-- What any connection may do, this one does if it is there. -/
theorem Reachable.drives (h : a.Reachable) (n : ℕ) {f : Connection → Connection}
    (moves : ∀ c, Connection.Moves a.server.signalled c (f c)) :
    Reachable { a with server := (a.server.onConnection n fun c => ((), f c)).2 } := by
  rcases a.server.connection_or n with ⟨t, l, station, link⟩ | none
  · exact h.step (.drive n f station link (moves _))
  · rwa [Server.onConnection_of_none f none]

/-- A connection that has ended is taken off the index, and one that has not stays. -/
theorem Reachable.retires (h : a.Reachable) (n : ℕ) :
    ∃ later, Reachable { a with server := a.server.retire n, record := a.record ++ later } := by
  rcases a.server.retire_cases n with ⟨t, l, station, link, ended⟩ | same
  · exact ⟨_, h.step (.retire n station link ended)⟩
  · rw [same]
    exact ⟨[], by rwa [List.append_nil]⟩

/-- **Letting the connections work is part of a run.** -/
theorem Reachable.settles (h : a.Reachable) :
    ∃ later, Reachable { a with server := a.server.settle, record := a.record ++ later } := by
  have each : ∀ (ns : List ℕ) {a : Annals}, a.Reachable → ∃ later, Reachable { a with
      server := ns.foldl Server.attend a.server, record := a.record ++ later } := by
    intro ns
    induction ns with
    | nil => exact fun h => ⟨[], by rwa [List.append_nil]⟩
    | cons n ns ih =>
      intro a h
      obtain ⟨later, h⟩ := (h.drives n fun c => c.moves_settle).retires n
      obtain ⟨last, h⟩ := ih h
      exact ⟨later ++ last, by rwa [← List.append_assoc]⟩
  exact each _ h

/-- **Closing a session on an errand is part of a run,** and what it costs is put on the bill. -/
theorem Reachable.closes (h : a.Reachable) {sweep : Option ℕ}
    (errands : a.errands = before ++ .fresh sweep n :: after) : ∃ closures, Reachable { a with
      server := { a.server with hub := (a.server.hub.close n).2 }
      errands := before ++ after
      sweeps := bill sweep (a.server.hub.close n).1 a.sweeps
      closures := a.closures ++ closures } := by
  obtain ⟨s, station, -⟩ := h.sound.booked.known (.fresh sweep n)
    (errands ▸ List.mem_append_right _ List.mem_cons_self)
  by_cases isOpen : s.session.phase = .opened
  · -- the close is begun, goes through, and is done
    obtain ⟨tends, t, there, closed, counted⟩ := h.sound.hub.close_of_open station isOpen
    have begun := h.step (.begin errands rfl station isOpen)
    have gone := begun.step (.tend
      (s := { a.server with hub := (a.server.hub.close n).2 }) ⟨tends, rfl, rfl⟩)
    have done := gone.step (.finish rfl rfl there closed)
    rw [counted] at done
    exact ⟨_, done⟩
  · have late := h.step (.pass errands rfl station isOpen)
    refine ⟨[], ?_⟩
    have station : a.server.hub.station? n = some s := station
    rw [Hub.close_of_some station, Station.close_of_not_open isOpen, Errand.bill_zero,
      List.append_nil]
    exact late.step (.tend ⟨.set station (Station.deeds_runFor ..), rfl, rfl⟩)

/-- Closing sessions one after the other is part of a run. -/
theorem Reachable.closesEach (sweep : Option ℕ) : ∀ (ns : List ℕ) {a : Annals}, a.Reachable →
    a.errands = before ++ ns.map (Errand.fresh sweep) → ∃ closures, Reachable { a with
      server := { a.server with hub := (Hub.closeEach ns a.server.hub).2 }
      errands := before
      sweeps := bill sweep (Hub.closeEach ns a.server.hub).1 a.sweeps
      closures := a.closures ++ closures }
  | [], a, h, errands => by
    refine ⟨[], ?_⟩
    have errands : a.errands = before := errands.trans (List.append_nil _)
    rw [← errands, Hub.closeEach, Errand.bill_zero, List.append_nil]
    exact h
  | n :: ns, a, h, errands => by
    obtain ⟨closures, closed⟩ := h.closes errands
    obtain ⟨more, all⟩ := closed.closesEach sweep ns rfl
    refine ⟨closures ++ more, ?_⟩
    rw [Errand.bill_bill, List.append_assoc] at all
    exact all

/-- **Admitting a charge point is part of a run.** -/
theorem Reachable.admits (h : a.Reachable) (id : String) (r : Registry) :
    ∃ closures, Reachable { a with
      server := a.server.admitted id r
      record := a.record ++ [.registered id a.server.hub.nextNumber]
      closures := a.closures ++ closures } := by
  have joined := h.step (.join id r)
  unfold Server.admitted
  cases enters : a.server.enter id r with
  | mk replaced s =>
    rw [enters] at joined
    cases replaced with
    | none =>
      refine ⟨[], ?_⟩
      rw [List.append_nil]
      simpa using joined
    | some old =>
      have errands : a.errands ++ ((some old).map (Errand.fresh none)).toList =
          a.errands ++ .fresh none old :: [] := rfl
      obtain ⟨closures, closed⟩ := joined.closes errands
      refine ⟨closures, ?_⟩
      have noted := closed.step (.tend (Server.tends_collect _ old))
      rw [List.append_nil] at noted
      exact noted

/-- **Answering a request for a connection is part of a run.** -/
theorem Reachable.connects (h : a.Reachable) (target : String) (header : Option String) :
    ∃ later closures, Reachable { a with
      server := (a.server.connect target header).2.2
      record := a.record ++ later
      closures := a.closures ++ closures } := by
  have stays : ∃ later closures, Reachable { a with
      record := a.record ++ later, closures := a.closures ++ closures } :=
    ⟨[], [], by rwa [List.append_nil, List.append_nil]⟩
  unfold Server.connect
  simp only
  split
  · rename_i id version _ _
    split
    · rename_i r _
      obtain ⟨closures, h⟩ := h.admits id r
      obtain ⟨later, h⟩ := h.settles
      exact ⟨_, closures, by rwa [List.append_assoc] at h⟩
    · exact stays
  · exact stays

/-- **Closing all sessions is part of a run,** and gives the number that the sweep has added up. -/
theorem Reachable.clears (h : a.Reachable) : ∃ closures, Reachable { a with
    server := a.server.clear
    record := a.record ++ [.listed a.sweeps.length] ++ [.cleared a.sweeps.length]
    sweeps := a.sweeps ++ [⟨a.server.hub.listed, true, a.server.hub.closeAll.1⟩]
    closures := a.closures ++ closures } := by
  have last : (a.sweeps ++ [⟨a.server.hub.listed, false, 0⟩])[a.sweeps.length]? =
      some ⟨a.server.hub.listed, false, 0⟩ := by simp
  obtain ⟨closures, closed⟩ :=
    ((h.step .list).step (.clear a.sweeps.length last rfl)).closesEach _ _ rfl
  refine ⟨closures, ?_⟩
  have noted := closed.step (.tend (Server.tends_collects a.server.hub.listed _))
  rw [List.set_append_right _ _ (Nat.le_refl _), Nat.sub_self] at noted
  rw [List.set_cons_zero, Errand.bill_last, Nat.zero_add] at noted
  exact noted

/-- **Shutting down is part of a run.** -/
theorem Reachable.shuts (h : a.Reachable) : ∃ later closures, Reachable { a with
    server := a.server.shutdown
    record := a.record ++ later
    sweeps := a.sweeps ++ [⟨a.server.hub.listed, true, a.server.hub.closeAll.1⟩]
    closures := a.closures ++ closures } := by
  obtain ⟨closures, h⟩ := (h.step .signal).clears
  obtain ⟨later, h⟩ := h.settles
  rw [Server.shutdown_eq]
  exact ⟨_, closures, by rwa [List.append_assoc, List.append_assoc] at h⟩

end Annals

end ChargeLink
