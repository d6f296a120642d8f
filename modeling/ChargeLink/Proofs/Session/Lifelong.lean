import ChargeLink.Proofs.Session.Custody
import ChargeLink.Proofs.Session.Growth

/-!
# The registry of a session is for life

A session is opened with a registry, which fixes its version, the spelling of
its error codes and its handlers. Whatever a server lets its station do, the
registry stays.

* `Station.Deeds.registry`: so it is after any number of deeds.
-/

namespace ChargeLink

namespace Turn

/-- What comes of a session in small steps has its registry. -/
theorem registry_of_smalls {t u : Turn} {asked : List (Message × Value)} {heard : List String}
    (steps : Smalls ⟨⟨t, 0, [], [], []⟩, none⟩ ⟨⟨u, 0, asked, heard, []⟩, none⟩) :
    u.session.registry = t.session.registry :=
  (Grows.smalls steps).registry

theorem registry_send (t : Turn) (m : Message) (v : Value) :
    (t.send m v).2.session.registry = t.session.registry :=
  registry_of_smalls (Chronicle.send_owns m v).smalls

theorem registry_takeUp (t : Turn) : t.takeUp.session.registry = t.session.registry :=
  registry_of_smalls Chronicle.takeUp_small

theorem registry_handle (t : Turn) : t.handle.session.registry = t.session.registry :=
  registry_of_smalls Chronicle.handle_small

theorem registry_serve (t : Turn) : t.serve.session.registry = t.session.registry :=
  t.takeUp.registry_handle.trans t.registry_takeUp

theorem registry_finish (t : Turn) (answer : Answer) :
    (t.finish answer).session.registry = t.session.registry :=
  registry_of_smalls (Chronicle.finish_small answer)

theorem registry_closing (t : Turn) (step : ClosingStep) :
    (t.closing step).session.registry = t.session.registry :=
  registry_of_smalls (Chronicle.closing_small step)

/-- Handing on the slot, if a call has left it. -/
theorem registry_handOn (r : Bool × Turn) :
    (handOn r).session.registry = r.2.session.registry := by
  obtain ⟨left, t⟩ := r
  cases left with
  | false => rfl
  | true => exact registry_of_smalls (Chronicle.pumpFrom_owns t.session.queue _ rfl).1.smalls

theorem registry_receive (t : Turn) (text : String) :
    (t.receive text).session.registry = t.session.registry := by
  have heard : (t.hear text).2.session.registry = t.session.registry :=
    (Grows.smalls (Chronicle.hear_small (c := ⟨t, 0, [], [], []⟩) text)).registry
  rw [receive, registry_handOn, heard]

theorem registry_expire (t : Turn) (id : String) :
    (t.expire id).session.registry = t.session.registry := by
  have lapsed : (t.lapse id).2.session.registry = t.session.registry := by
    unfold lapse settle
    split <;> rfl
  rw [expire, registry_handOn, lapsed]

end Turn

namespace Station

variable {s t : Station}

theorem registry_adopt (s : Station) (w : Turn) :
    (s.adopt w).session.registry = w.session.registry := by
  rw [session_adopt]

theorem registry_attempt (s : Station) (c : Caller) :
    (s.attempt c).session.registry = s.session.registry := by
  rw [attempt_eq, registry_adopt, Turn.registry_send]
  rfl

theorem registry_perform (s : Station) (w : Work) :
    (s.perform w).session.registry = s.session.registry := by
  cases w with
  | vanish => rw [perform, vanish, (Takes.foldl_report ..).session]
  | finish answer =>
    rw [perform, act, registry_adopt, Turn.registry_finish]
    rfl
  | serve =>
    rw [perform, act, registry_adopt, Turn.registry_serve]
    rfl
  | expiry x =>
    rw [perform, fireExpiry]
    simp only
    split
    · rfl
    · rw [act, registry_adopt, Turn.registry_expire]
      rfl
  | wake x =>
    rw [perform, fireWake]
    simp only
    split
    · rw [act, registry_adopt, Turn.registry_finish]
      rfl
    · split
      · rw [registry_attempt]
      · rfl

theorem Deed.registry (h : Deed s t) : t.session.registry = s.session.registry := by
  cases h with
  | issue number m v retry fresh => rw [Station.issue, registry_attempt]
  | receive text =>
    rw [act, registry_adopt, Turn.registry_receive]
    rfl
  | closing step =>
    rw [act, registry_adopt, Turn.registry_closing]
    rfl
  | takeUp =>
    rw [act, registry_adopt, Turn.registry_takeUp]
    rfl
  | handle =>
    rw [act, registry_adopt, Turn.registry_handle]
    rfl
  | work limit next => exact registry_perform ..
  | forget | pass | retally | takeNotes => rfl

/-- **The registry of a session stays the same,** whatever a server lets its station do. -/
theorem Deeds.registry (h : Deeds s t) : t.session.registry = s.session.registry := by
  induction h with
  | refl => rfl
  | tail _ deed ih => rw [deed.registry, ih]

end Station

end ChargeLink
