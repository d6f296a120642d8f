import ChargeLink.Connection.Basic
import ChargeLink.Proofs.Session.Custody

/-!
# Connections of a server

A connection makes its steps in any order; in between, the application and the
clock do something to the station, and the peer and the network to the link. The
connection is not the only one who may close its session, and closing takes
several steps, whoever does it: the connection winds up when it finds the session
not open any more.

* `Connection.Move.deeds`: to the station all of this is a matter of deeds.
* `Connection.Move.tidy`: no session stays open when its connection stops.
* `Connection.moves_settle`: what a connection does of itself is a run of moves.
-/

namespace ChargeLink.Connection

/-- What may happen to a connection; `signalled` tells whether the process shuts down. -/
inductive Move (signalled : Bool) : Connection → Connection → Prop
  | step {c d} (x : Step) (told : x = .signal → signalled = true) (made : c.step? x = some d) :
      Move signalled c d
  /-- The session is used, or somebody takes a step of closing it. -/
  | deed {c t} (deed : c.station.Deed t) : Move signalled c (c.onStation fun _ => t)
  /-- The end is decided, and the session is closed or being closed. -/
  | windUp {c} (reason : Disconnect) (running : c.link.stage = .running)
      (ended : c.station.session.phase ≠ .opened) : Move signalled c (c.windUp reason)
  /-- Something comes or is taken, or the peer has read and takes more. -/
  | link {c l} (stage : l.stage = c.link.stage) : Move signalled c { c with link := l }

/-- The connection `d` may follow `c` after any number of moves. -/
abbrev Moves (signalled : Bool) : Connection → Connection → Prop :=
  Relation.ReflTransGen (Move signalled)

/-- Once the end of the connection is decided, its session is not open. -/
def Tidy (c : Connection) : Prop :=
  c.link.stage ≠ .running → c.station.session.phase ≠ .opened

variable {signalled : Bool} {c d : Connection} {taken : List Note}

open Station (Deed Deeds Kept)

@[simp] theorem stage_onStation (c : Connection) (f : Station → Station) :
    (c.onStation f).link.stage = c.link.stage :=
  Link.stage_queue ..

theorem station_windUp (c : Connection) (reason : Disconnect) :
    (c.windUp reason).station = c.station := by
  unfold windUp
  split <;> rfl

theorem station_stop (c : Connection) (reason : Disconnect) :
    (c.stop reason).station = c.station.close.2 :=
  station_windUp ..

theorem station_conclude (c : Connection) : c.conclude.station = c.station := by
  unfold conclude
  split <;> rfl

/-- Whoever stops has closed the session. -/
theorem tidy_stop (c : Connection) (reason : Disconnect) : (c.stop reason).Tidy := by
  intro _
  rw [station_stop]
  exact c.station.ended_close

/-! ## Steps -/

/-- Writing does nothing to the station, and ends the connection only if the transport is gone. -/
theorem write?_eq_some (h : c.write? = some d) : d.station = c.station ∧
    (d.link.stage = c.link.stage ∨ c.station.session.linked = false) := by
  unfold write? at h
  split at h
  · split at h
    · cases h
      exact ⟨rfl, .inl (by simp [onLink])⟩
    · cases h
  · split at h
    · rename_i fits
      cases h
      simp only [Bool.and_eq_true, Bool.not_eq_true'] at fits
      exact ⟨station_conclude _, .inr fits.1⟩
    · cases h

/-- What a message from the peer comes to: the station hears a text or is closed, or nothing
happens to it. -/
theorem takeIn_cases (c : Connection) (a : Arrival) :
    (∃ s, c.takeIn a = c.onStation fun st => st.act fun t => t.receive s) ∨
      (c.takeIn a).station = c.station ∧ (c.takeIn a).link.stage = c.link.stage ∨
      (c.takeIn a).station = c.station.close.2 ∧ (c.takeIn a).Tidy := by
  cases a with
  | text s => exact .inl ⟨s, rfl⟩
  | ping length => exact .inr (.inl ⟨rfl, by simp [takeIn, onLink]⟩)
  | binary | pong => exact .inr (.inl ⟨rfl, rfl⟩)
  | close =>
    refine .inr (.inr ⟨?_, tidy_stop _ .peerClosed⟩)
    rw [takeIn, station_stop]
    rfl
  | failure => exact .inr (.inr ⟨station_stop .., tidy_stop c .transportError⟩)

/-- **What a step of a connection comes to:** deeds of the station or none, and the connection goes
on, or has closed its session, or ends when the transport is gone or the end is decided. -/
theorem step?_cases {x : Step} (h : c.step? x = some d) :
    Deeds c.station d.station ∧
      (c.link.stage = .running ∧ d.link.stage = .running ∨ d.Tidy ∨
        d.station = c.station ∧
          (d.link.stage = c.link.stage ∨ c.station.session.linked = false ∨
            c.link.stage ≠ .running)) := by
  cases x with
  | read =>
    simp only [step?] at h
    split at h
    · rename_i a rest running _
      cases h
      rcases (c.onLink fun l => { l with arrivals := rest }).takeIn_cases a with
        ⟨s, same⟩ | ⟨station, stage⟩ | ⟨station, tidy⟩
      · rw [same]
        refine ⟨.single (.receive s), .inl ⟨running, ?_⟩⟩
        rw [stage_onStation]
        exact running
      · exact ⟨station ▸ .refl, .inl ⟨running, stage.trans running⟩⟩
      · refine ⟨?_, .inr (.inl tidy)⟩
        rw [station]
        exact Station.deeds_close _
    · cases h
  | write =>
    simp only [step?] at h
    split at h
    · cases h
    · obtain ⟨station, stage⟩ := write?_eq_some h
      exact ⟨station ▸ .refl, .inr (.inr ⟨station, stage.imp_right .inl⟩)⟩
  | writeFailure =>
    simp only [step?] at h
    split at h
    · cases h
      exact ⟨station_stop c .transportError ▸ c.station.deeds_close, .inr (.inl (tidy_stop c _))⟩
    · rename_i flushing
      cases h
      exact ⟨.refl, .inr (.inr ⟨rfl, .inr (.inr (by simp [flushing]))⟩)⟩
    · cases h
  | signal =>
    simp only [step?] at h
    split at h
    · cases h
      exact ⟨station_stop c .shutdown ▸ c.station.deeds_close, .inr (.inl (tidy_stop c _))⟩
    · cases h
  | giveUp =>
    simp only [step?] at h
    split at h
    · rename_i flushing
      split at h
      · cases h
        exact ⟨.refl, .inr (.inr ⟨rfl, .inr (.inr (by simp [flushing]))⟩)⟩
      · cases h
    · cases h

/-! ## Moves -/

/-- **To the station, whatever happens to a connection is a matter of deeds.** -/
theorem Move.deeds (h : Move signalled c d) : Deeds c.station d.station := by
  cases h with
  | step x told made => exact (step?_cases made).1
  | deed deed => exact .single deed
  | windUp reason => exact station_windUp c reason ▸ .refl
  | link => exact .refl

theorem Moves.deeds (h : Moves signalled c d) : Deeds c.station d.station := by
  induction h with
  | refl => exact .refl
  | tail _ move ih => exact ih.trans move.deeds

/-- **No session stays open when its connection stops.** -/
theorem Move.tidy (h : Move signalled c d) (kept : c.station.Kept taken) (tidy : c.Tidy) :
    d.Tidy := by
  obtain ⟨-, carries⟩ := kept.deeds h.deeds
  have onward : d.link.stage = c.link.stage → d.Tidy := by
    intro stage stopped isOpen
    exact tidy (stage ▸ stopped) (carries.isOpen isOpen)
  cases h with
  | step x told made =>
    obtain ⟨-, ⟨-, running⟩ | tidy' | ⟨same, stage | unlinked | stopped⟩⟩ := step?_cases made
    · exact fun stopped => absurd running stopped
    · exact tidy'
    · exact onward stage
    · -- an open session has its transport
      intro _ isOpen
      rw [same] at isOpen
      rw [kept.linked (by simp [isOpen])] at unlinked
      cases unlinked
    · exact fun _ isOpen => tidy stopped (same ▸ isOpen)
  | deed deed => exact onward (stage_onStation ..)
  | windUp reason running ended => exact fun _ => station_windUp c reason ▸ ended
  | link stage => exact onward stage

theorem Moves.tidy (h : Moves signalled c d) (kept : c.station.Kept taken) (tidy : c.Tidy) :
    d.Tidy := by
  induction h with
  | refl => exact tidy
  | tail before move ih =>
    obtain ⟨⟨taken', kept'⟩, -⟩ := kept.deeds (Moves.deeds before)
    exact move.tidy kept' ih

/-! ## What a connection does of itself -/

theorem move_next? (h : c.next? signalled = some d) : Move signalled c d := by
  unfold next? at h
  simp only [Option.orElse_eq_orElse, Option.orElse_eq_or, Option.or_eq_some_iff,
    Option.map_eq_some_iff] at h
  rcases h with made | ⟨-, ⟨w, now, rfl⟩ | ⟨-, made | ⟨-, made | ⟨-, made⟩⟩⟩⟩
  · exact .step .read (by simp) made
  · refine .deed (.work 0 (w := w) ?_)
    simp [Station.work?, now]
  · exact .step .write (by simp) made
  · split at made
    · rename_i told
      exact .step .signal (fun _ => told) made
    · cases made
  · exact .step .giveUp (by simp) made

theorem moves_settleFor : ∀ (fuel : ℕ) (c : Connection),
    Moves signalled c (settleFor signalled fuel c)
  | 0, c => .refl
  | fuel + 1, c => by
    unfold settleFor
    split
    · rename_i d next
      exact .head (move_next? next) (moves_settleFor fuel d)
    · exact .refl

/-- **What a connection does of itself is a run of moves.** -/
theorem moves_settle (c : Connection) : Moves signalled c (c.settle signalled) :=
  moves_settleFor ..

end ChargeLink.Connection
