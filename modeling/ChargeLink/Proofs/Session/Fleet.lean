import ChargeLink.Proofs.Session.Order
import Mathlib

/-!
# Sessions that share their timers

A fleet is any number of sessions, each with its own configuration, over one
supervisor. Sessions join it, a session performs an operation from its start to
its end, and time passes up to the next deadline. Seen from one session, a run
of the fleet is a run of that session (`Fleet.Reachable.member`), so that what
holds of all chronicles holds of each.

* `Fleet.Reachable.orderly`: slot, queue, timer and phase of each session belong
  together, and as many timers are armed as calls are outstanding.
-/

namespace ChargeLink

open Relation

/-- A session of a fleet with the record of its life. -/
structure Diary where
  session : Session
  asked : List (Message × Value)
  heard : List String
  log : Log

/-- The chronicle of a session that shares these timers at this moment. -/
def Diary.at (m : Diary) (timers : Supervisor Expiry) (now : ℕ) : Chronicle :=
  ⟨⟨m.session, timers, now, []⟩, 0, m.asked, m.heard, m.log⟩

namespace Chronicle

/-- What a chronicle says of its session alone. -/
def diary (c : Chronicle) : Diary :=
  ⟨c.session, c.asked, c.heard, c.log⟩

/-- A text comes from the peer, and the slot is handed on if a call has left it. -/
def receive (c : Chronicle) (text : String) : Chronicle :=
  { c with turn := c.turn.receive text, heard := c.heard ++ [text] }

/-- A timer comes, and the slot is handed on if a call has left it. -/
def expire (c : Chronicle) (timer : Timer Expiry) : Chronicle :=
  { c with turn :=
      { c.turn with timers := c.timers.abort timer.key }.expire timer.task.call }

/-- An operation of a session, from its start to its end, or a single step of one. -/
inductive Operation : Chronicle → Chronicle → Prop
  | send {c} (m : Message) (v : Value) : Operation c (c.send m v)
  | receive {c} (text : String) : Operation c (c.receive text)
  | expire {c} (timer : Timer Expiry) (armed : timer ∈ c.timers.ofSession c.session.number)
      (due : timer.deadline ≤ c.now) : Operation c (c.expire timer)
  | takeUp {c} : Operation c c.takeUp
  | handle {c} : Operation c c.handle
  | serve {c} : Operation c c.serve
  | finish {c} (answer : Answer) : Operation c (c.finish answer)
  | unlink {c} : Operation c c.unlink
  | close {c} : Operation c c.close
  | closing {c} (step : ClosingStep) : Operation c (c.closing step)

end Chronicle

/-- Sessions that share their timers. -/
structure Fleet where
  diaries : List Diary
  timers : Supervisor Expiry
  now : ℕ

namespace Fleet

/-- A step of a fleet. An operation has come to its end after it, so that no session is halfway
to being closed. -/
inductive Step : Fleet → Fleet → Prop
  | join {f} (number : ℕ) (chargePointId : String) (registry : Registry) (config : SessionConfig)
      (codec : Codec) (label : String) (fresh : ∀ m ∈ f.diaries, m.session.number ≠ number) :
      Step f { f with diaries := (Chronicle.opened number chargePointId registry config codec label
        f.timers f.now).diary :: f.diaries }
  | operate {f m after d} (before : List Diary) (place : f.diaries = before ++ m :: after)
      (op : Chronicle.Operation (m.at f.timers f.now) d) (whole : d.session.phase ≠ .closing) :
      Step f ⟨before ++ d.diary :: after, d.timers, d.now⟩
  | wait {f} (ms : ℕ) (punctual : ∀ t ∈ f.timers.armed, f.now + ms ≤ t.deadline) :
      Step f { f with now := f.now + ms }

/-- The fleets of all runs. -/
inductive Reachable : Fleet → Prop
  | start (hasLoop : Bool) (now : ℕ) : Reachable ⟨[], .create hasLoop, now⟩
  | step {f g} : Reachable f → Step f g → Reachable g

end Fleet

/-- Between two operations, slot, queue, timers and phase of a session belong together: at most one
call is outstanding, transmitted and without an outcome; its timer is the only one, at its start
plus the time allowed for an answer; nothing waits behind a free slot of an open session; the queue
keeps its bound; and a closed session has nothing left. -/
structure Diary.Orderly (m : Diary) (timers : Supervisor Expiry) : Prop where
  single : m.log.unanswered.length ≤ 1
  served : m.session.phase = .opened → m.session.queue ≠ [] → m.log.unanswered.length = 1
  room : m.session.queue.length ≤ m.session.config.queueCapacity
  reject : m.session.config.busyPolicy = .reject → m.session.queue = []
  timed : ∀ k id, (k, id) ∈ m.log.unanswered → ∃ key s, (k, s) ∈ m.log.starts ∧
    timers.ofSession m.session.number =
      [⟨key, s + m.session.config.callTimeout, ⟨m.session.number, id⟩⟩]
  untimed : m.log.unanswered = [] → timers.ofSession m.session.number = []
  phase : m.session.phase = .opened ∨ m.session.phase = .closed
  closed : m.session.phase = .closed →
    m.log.unanswered = [] ∧ m.session.queue = [] ∧ timers.ofSession m.session.number = []

/-! ## One session among others -/

namespace Chronicle

variable {c d : Chronicle}

/-- A step of the session itself. -/
def Inner (c d : Chronicle) : Prop :=
  Step c d ∧ Smalls ⟨c, none⟩ ⟨d, none⟩

/-- An operation is one or two steps: what frees the slot is followed by its being handed on. -/
theorem Operation.inner (h : Operation c d) (settled : c.owed = 0) :
    ReflTransGen Inner c d ∧ d.owed = 0 := by
  -- whether a call has left the slot or not, in the end the slot has been handed on
  have handOn : ∀ {e : Chronicle} {r : Bool × Turn}, Inner c e →
      e = { e with turn := r.2, owed := c.owed + r.1.toNat } →
      ReflTransGen Inner c { e with turn := Turn.handOn r, owed := 0 } := by
    intro e r step he
    obtain ⟨left, t⟩ := r
    cases left with
    | false =>
      have : ({ e with turn := Turn.handOn (false, t), owed := 0 } : Chronicle) = e := by
        rw [he]
        simp [Turn.handOn, settled]
      rw [this]
      exact .single step
    | true =>
      have owed : 0 < e.owed := by
        rw [he]
        simp
      have : ({ e with turn := Turn.handOn (true, t), owed := 0 } : Chronicle) = e.pump := by
        rw [he]
        simp [Turn.handOn, pump, settled]
      rw [this]
      exact .head step (.single ⟨.pump owed, (pump_owns owed).smalls⟩)
  cases h with
  | send m v => exact ⟨.single ⟨.send m v, (send_owns m v).smalls⟩, settled⟩
  | receive text =>
    refine ⟨?_, settled⟩
    have := handOn (r := c.turn.hear text) ⟨.hear text, hear_small text⟩ rfl
    rw [← settled] at this
    exact this
  | expire timer armed due =>
    refine ⟨?_, settled⟩
    have := handOn (r := c.turn.ring timer)
      ⟨.ring timer armed due, (ring_owns timer armed due).smalls⟩ rfl
    rw [← settled] at this
    exact this
  | takeUp => exact ⟨.single ⟨.takeUp, takeUp_small⟩, settled⟩
  | handle => exact ⟨.single ⟨.handle, handle_small⟩, settled⟩
  | serve =>
    exact ⟨.tail (.single ⟨.takeUp, takeUp_small⟩) ⟨.handle, handle_small⟩, settled⟩
  | finish answer => exact ⟨.single ⟨.finish answer, finish_small answer⟩, settled⟩
  | unlink => exact ⟨.single ⟨.unlink, .single .unlink⟩, settled⟩
  | close =>
    refine ⟨?_, settled⟩
    have closing : ∀ {e : Chronicle} (step : ClosingStep), Inner e (e.closing step) := fun step =>
      ⟨.closing step, closing_small step⟩
    rcases c.close_eq with h | h <;> rw [h]
    exact .tail (.tail (.single (closing .start)) (closing .abandon)) (closing .finish)
  | closing step => exact ⟨.single ⟨.closing step, closing_small step⟩, settled⟩

/-- After an operation the chronicle is still that of a run, and other sessions see no change. -/
theorem Reachable.operate (hc : c.Reachable) (settled : c.owed = 0) (h : Operation c d) :
    d.Reachable ∧ Beside c d := by
  have both : ∀ {e}, ReflTransGen Inner c e → Steps c e ∧ Smalls ⟨c, none⟩ ⟨e, none⟩ := by
    intro e inner
    induction inner with
    | refl => exact ⟨.refl, .refl⟩
    | tail _ h ih => exact ⟨ih.1.tail h.1, ih.2.trans h.2⟩
  obtain ⟨steps, smalls⟩ := both (h.inner settled).1
  exact ⟨hc.steps steps, Beside.of_smalls hc.desk smalls⟩

/-- With the slot handed on, what was brought about may become the past. -/
theorem Reachable.diary (h : c.Reachable) (handedOn : c.owed = 0) :
    (c.diary.at c.timers c.now).Reachable := by
  have sound := Sound.of_reachable h.desk
  have now : c.diary.at c.timers c.now = c.wait 0 := by
    simp only [Chronicle.diary, Diary.at, wait, handedOn, Nat.add_zero]
  rw [now]
  refine h.step (.wait 0 handedOn ?_)
  intro t ht
  obtain ⟨call, slot, -, -, deadline⟩ := sound.held_of_armed ht
  obtain ⟨key, -, -, -, -, inTime⟩ := sound.held call slot
  rw [← deadline]
  exact inTime

end Chronicle

/-! ## All sessions together -/

namespace Fleet

variable {f g : Fleet}

/-- The sessions have numbers of their own, the timers are theirs, and each has a run of its own. -/
structure Kept (f : Fleet) : Prop where
  keyed : f.timers.Keyed
  numbers : (f.diaries.map (·.session.number)).Nodup
  owners : ∀ t ∈ f.timers.armed, t.task.session ∈ f.diaries.map (·.session.number)
  members : ∀ m ∈ f.diaries, (m.at f.timers f.now).Reachable
  settled : ∀ m ∈ f.diaries, m.session.phase ≠ .closing

namespace Kept

theorem join (h : Kept f) {number : ℕ} (chargePointId : String) (registry : Registry)
    (config : SessionConfig) (codec : Codec) (label : String)
    (fresh : ∀ m ∈ f.diaries, m.session.number ≠ number) :
    Kept { f with diaries := (Chronicle.opened number chargePointId registry config codec label
      f.timers f.now).diary :: f.diaries } := by
  have unused : f.timers.ofSession number = [] := by
    refine List.filter_eq_nil_iff.2 fun t ht => ?_
    obtain ⟨m, hm, same⟩ := List.mem_map.1 (h.owners t ht)
    simpa [← same] using fresh m hm
  refine ⟨h.keyed, ?_, fun t ht => List.mem_cons_of_mem _ (h.owners t ht), ?_, ?_⟩
  · refine List.nodup_cons.2 ⟨?_, h.numbers⟩
    intro hn
    obtain ⟨m, hm, same⟩ := List.mem_map.1 hn
    exact fresh m hm same
  · intro m hm
    rcases List.mem_cons.1 hm with rfl | hm
    · exact (Chronicle.Reachable.opened number chargePointId registry config codec label f.timers
        f.now h.keyed unused).diary rfl
    · exact h.members m hm
  · intro m hm
    rcases List.mem_cons.1 hm with rfl | hm
    · exact nofun
    · exact h.settled m hm

theorem operate (h : Kept f) {before after : List Diary} {m : Diary} {d : Chronicle}
    (place : f.diaries = before ++ m :: after)
    (op : Chronicle.Operation (m.at f.timers f.now) d) (whole : d.session.phase ≠ .closing) :
    Kept ⟨before ++ d.diary :: after, d.timers, d.now⟩ := by
  obtain ⟨reachable, beside⟩ := (h.members m (by simp [place])).operate rfl op
  have keyed := (Sound.of_reachable reachable.desk).keyed
  have number : d.session.number = m.session.number := beside.number
  -- the numbers of the sessions stay
  have numbers : (before ++ d.diary :: after).map (·.session.number) =
      f.diaries.map (·.session.number) := by
    simp [place, Chronicle.diary, number]
  refine ⟨keyed, numbers ▸ h.numbers, ?_, ?_, ?_⟩
  · intro t ht
    rw [numbers]
    by_cases own : t.task.session = m.session.number
    · simp [place, own]
    -- a timer of another session was armed before
    · have mem : t ∈ d.timers.ofSession t.task.session := by simpa [Supervisor.ofSession] using ht
      rw [beside.others _ own] at mem
      exact h.owners t (List.mem_filter.1 mem).1
  -- to the others, an operation only changes timers that are not theirs
  · have others : ∀ b ∈ before ++ after, (b.at d.timers d.now).Reachable := by
      intro b hb
      have member : b ∈ f.diaries := by
        rw [place]
        simp only [List.mem_append, List.mem_cons] at hb ⊢
        tauto
      have other : b.session.number ≠ m.session.number := by
        have nodup := h.numbers
        rw [place, List.map_append, List.map_cons, List.nodup_middle, ← List.map_append,
          List.nodup_cons] at nodup
        exact fun same => nodup.1 (same ▸ List.mem_map_of_mem hb)
      have share := (h.members b member).step
        (.share d.timers keyed beside.loop (beside.others _ other))
      rw [beside.now]
      exact share
    intro b hb
    simp only [List.mem_append, List.mem_cons] at hb
    rcases hb with hb | rfl | hb
    · exact others b (List.mem_append_left _ hb)
    · exact reachable.diary (op.inner rfl).2
    · exact others b (List.mem_append_right _ hb)
  · intro b hb
    simp only [List.mem_append, List.mem_cons] at hb
    rcases hb with hb | rfl | hb
    · exact h.settled b (by simp [place, hb])
    · exact whole
    · exact h.settled b (by simp [place, hb])

theorem wait (h : Kept f) {ms : ℕ} (punctual : ∀ t ∈ f.timers.armed, f.now + ms ≤ t.deadline) :
    Kept { f with now := f.now + ms } := by
  refine ⟨h.keyed, h.numbers, h.owners, fun m hm => ?_, h.settled⟩
  have waited := (h.members m hm).step
    (.wait ms rfl fun t ht => punctual t (List.mem_filter.1 ht).1)
  have : (m.at f.timers f.now).wait ms = m.at f.timers (f.now + ms) := by
    simp [Chronicle.wait, Diary.at, Chronicle.log]
  exact this ▸ waited

theorem of_reachable (h : f.Reachable) : Kept f := by
  induction h with
  | start hasLoop now =>
    refine ⟨⟨?_, ?_⟩, ?_, ?_, ?_, ?_⟩ <;> simp [Supervisor.create]
  | step _ step ih =>
    cases step with
    | join number chargePointId registry config codec label fresh =>
      exact ih.join chargePointId registry config codec label fresh
    | operate before place op whole => exact ih.operate place op whole
    | wait ms punctual => exact ih.wait punctual

end Kept

/-- **Seen from one of its sessions, a run of the fleet is a run of the session.** -/
theorem Reachable.member (h : f.Reachable) {m : Diary} (hm : m ∈ f.diaries) :
    (m.at f.timers f.now).Reachable :=
  (Kept.of_reachable h).members m hm

/-- Every armed timer is that of one session. -/
theorem Kept.count (h : Kept f) : f.timers.count =
    (f.diaries.map fun m => (f.timers.ofSession m.session.number).length).sum := by
  set owners := f.timers.armed.map (·.task.session) with howners
  -- the timers of a session are those with its number
  have each : ∀ n, (f.timers.ofSession n).length = owners.count n := by
    intro n
    rw [howners, List.count, List.countP_map, List.countP_eq_length_filter, Supervisor.ofSession]
    rfl
  have all := Multiset.sum_count_eq_card (m := (owners : Multiset ℕ))
    (s := (f.diaries.map (·.session.number)).toFinset) (by
      intro n hn
      obtain ⟨t, ht, rfl⟩ := List.mem_map.1 (Multiset.mem_coe.1 hn)
      exact List.mem_toFinset.2 (h.owners t ht))
  rw [List.sum_toFinset _ h.numbers, List.map_map] at all
  simp only [Multiset.coe_count, Multiset.coe_card, howners, List.length_map] at all
  rw [Supervisor.count, ← all]
  congr 1
  refine List.map_congr_left fun m _ => ?_
  rw [each]
  rfl

/-- A session with its slot handed on is orderly, and has as many timers as calls outstanding. -/
theorem orderly_of_member {m : Diary} {timers : Supervisor Expiry} {now : ℕ}
    (h : (m.at timers now).Reachable) (settled : m.session.phase ≠ .closing) : m.Orderly timers ∧
      (timers.ofSession m.session.number).length = m.log.unanswered.length := by
  have sound : Sound (m.at timers now) none := Sound.of_reachable h.desk
  have log : (m.at timers now).log = m.log := List.append_nil _
  have unanswered : m.log.unanswered = m.session.held := log ▸ Accounts.unanswered h.desk
  have ended : m.session.phase = .closed → m.session.slot = .empty ∧ m.session.queue = [] := by
    intro closed
    have done := (sound.closed closed).1
    exact sound.ended (fun isOpen => by cases closed.symm.trans isOpen) done
  have phase : m.session.phase = .opened ∨ m.session.phase = .closed := by
    cases phase : m.session.phase with
    | opened => exact .inl rfl
    | closing => exact absurd phase settled
    | closed => exact .inr rfl
  cases slot : m.session.slot.slot with
  | none =>
    have free : m.session.slot = .empty := by rw [PendingTable.empty, ← slot]
    have none : m.log.unanswered = [] := by
      rw [unanswered, Session.held, slot]
      rfl
    -- without an outstanding call there is no timer
    have untimed := sound.free free
    refine ⟨⟨?_, ?_, sound.room, sound.reject, ?_, fun _ => untimed, phase, ?_⟩, ?_⟩
    · simp [none]
    · exact fun isOpen queue => absurd (sound.served isOpen free queue) (Nat.lt_irrefl _)
    · simp [none]
    · intro closed
      exact ⟨none, (ended closed).2, untimed⟩
    · rw [none]
      exact congrArg List.length untimed
  | some call =>
    have held : m.session.slot = ⟨some call⟩ := by rw [← slot]
    have one : m.log.unanswered = [(call.owner.ticket, call.id)] := by
      rw [unanswered, Session.held, slot]
      rfl
    obtain ⟨key, -, own, deadline, -⟩ := sound.held call held
    have own : timers.ofSession m.session.number = [_] := own
    refine ⟨⟨?_, ?_, sound.room, sound.reject, ?_, ?_, phase, ?_⟩, ?_⟩
    · simp [one]
    · simp [one]
    · intro k id hk
      rw [one] at hk
      cases List.mem_singleton.1 hk
      have last := (Punctual.of_reachable h.desk).last call held
      rw [log] at last
      exact ⟨key, call.createdAt, List.mem_of_getLast? last, by rw [own, deadline]; rfl⟩
    · simp [one]
    · intro closed
      have empty := held.symm.trans (ended closed).1
      cases empty
    · rw [one, own]
      rfl

/-- **After every operation each session is orderly**, and as many timers are armed as calls are
outstanding in all sessions. -/
theorem Reachable.orderly (h : f.Reachable) : (∀ m ∈ f.diaries, m.Orderly f.timers) ∧
    f.timers.count = (f.diaries.map fun m => m.log.unanswered.length).sum := by
  have kept := Kept.of_reachable h
  have member : ∀ m ∈ f.diaries, m.Orderly f.timers ∧
      (f.timers.ofSession m.session.number).length = m.log.unanswered.length := fun m hm =>
    orderly_of_member (kept.members m hm) (kept.settled m hm)
  refine ⟨fun m hm => (member m hm).1, ?_⟩
  rw [kept.count]
  congr 1
  exact List.map_congr_left fun m hm => (member m hm).2

/-- Two sessions with other settings, each with a call outstanding. -/
def pair : Fleet :=
  let settings : SessionConfig := ⟨10, .queue, 1, .standard⟩
  let first := Chronicle.opened 0 "CP-1" (.empty .v16 .chargePoint) settings .json "first"
    (.create true) 0
  let sent := first.send V16.heartbeat (.record [])
  let second := Chronicle.opened 1 "CP-2" (.empty .v16 .chargePoint)
    { settings with callTimeout := 20, busyPolicy := .reject } .json "second" sent.timers 0
  let both := (second.diary.at sent.timers 0).send V16.heartbeat (.record [])
  ⟨[both.diary, sent.diary], both.timers, 0⟩

theorem Reachable.pair : pair.Reachable := by
  have first := (Reachable.start true 0).step
    (.join 0 "CP-1" (.empty .v16 .chargePoint) ⟨10, .queue, 1, .standard⟩ .json "first" (by simp))
  have sent := first.step (.operate [] rfl (.send V16.heartbeat (.record [])) nofun)
  have second := sent.step (.join 1 "CP-2" (.empty .v16 .chargePoint) ⟨20, .reject, 1, .standard⟩
    .json "second" (fun m hm => List.mem_singleton.1 hm ▸ Nat.zero_ne_one))
  exact second.step (.operate [] rfl (.send V16.heartbeat (.record [])) nofun)

/-- Two calls, two timers. -/
theorem orderly_pair : pair.timers.count = 2 ∧
    (∀ m ∈ pair.diaries, m.Orderly pair.timers) ∧
    pair.timers.count = (pair.diaries.map fun m => m.log.unanswered.length).sum := by
  obtain ⟨orderly, count⟩ := Reachable.orderly Reachable.pair
  exact ⟨rfl, orderly, count⟩

end Fleet

end ChargeLink
