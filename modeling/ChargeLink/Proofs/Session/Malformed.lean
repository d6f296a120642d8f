import ChargeLink.Proofs.Frame.Salvage
import ChargeLink.Proofs.Session.Closing
import ChargeLink.Proofs.Session.Fleet

/-!
# Texts that are no frames, heard by a session

A text that is no frame is refused or dropped, and leaves everything else as it is:
own calls and their timers, the inbound calls, and the phase of the session.

* `Chronicle.receive_refused`, `Chronicle.receive_dropped`: what becomes of it, with any codec.
* `Chronicle.Reachable.malformed`: with plain JSON, what is wrong with it decides.
-/

namespace ChargeLink.Chronicle

variable {c : Chronicle} {text id : String} {fault : FrameFault}

/-- A text that is refused leaves only the refusal. -/
theorem receive_refused (fails : c.session.codec.decode text = .error fault)
    (answerable : Frame.answerable? text = some id) (linked : c.session.linked = true) :
    (c.receive text).session = c.session ∧ (c.receive text).timers = c.timers ∧
      (c.receive text).log = c.log ++ [(c.now, .sent (c.session.codec.encode
        (.refusal id fault.code c.session.version .empty)))] := by
  rw [receive, Turn.receive, Turn.hear_refused fails answerable linked]
  refine ⟨rfl, rfl, ?_⟩
  simp [log, Turn.handOn]

/-- A text that is dropped leaves nothing. -/
theorem receive_dropped (fails : c.session.codec.decode text = .error fault)
    (silent : Frame.answerable? text = none ∨ c.session.linked = false) :
    (c.receive text).session = c.session ∧ (c.receive text).timers = c.timers ∧
      (c.receive text).log = c.log := by
  rw [receive, Turn.receive, Turn.hear_dropped fails silent]
  exact ⟨rfl, rfl, rfl⟩

/-- Only sessions that have not been closed have a transport. -/
theorem Reachable.not_closed_of_linked (h : c.Reachable) (linked : c.session.linked = true) :
    c.session.phase ≠ .closed := by
  intro closed
  rw [(h.over closed).unlinked] at linked
  cases linked

/-- The session can tell its peer that something is wrong with a text: it is not closed, it has a
transport, and the text is an array that starts with a number and an id and does not claim to be
an answer. -/
structure CanRefuse (c : Chronicle) (text : String) (n : ℕ) (id : String) (items : List Json) :
    Prop where
  phase : c.session.phase ≠ .closed
  linked : c.session.linked = true
  heads : Frame.Heads text n id items
  noResult : n ≠ FrameKind.result.number
  noError : n ≠ FrameKind.error.number

/-- **A text that is no frame is refused or dropped, and changes nothing.** Own calls, timers,
inbound calls and phase stay as they are, and no event is published. One frame is transmitted if
the session can refuse the text: the refusal of the id in it, without details, with the code of
what is wrong with the call, spelled for the version of the session. Else none is. -/
theorem Reachable.malformed (h : c.Reachable) (json : c.session.codec = .json)
    (fails : Frame.ofText text = .error fault) :
    (c.receive text).session = c.session ∧ (c.receive text).timers = c.timers ∧
      (c.receive text).log.events = c.log.events ∧
      (∀ n id items, c.CanRefuse text n id items → ∃ code, Frame.Miscall n items code ∧
        (c.receive text).log = c.log ++ [(c.now, .sent (Frame.text
          (.error id (code.toWire c.session.version) code.description .empty)))]) ∧
      ((¬∃ n id items, c.CanRefuse text n id items) → (c.receive text).log = c.log) := by
  have decodes : c.session.codec.decode text = .error fault := by rw [json]; exact fails
  by_cases refusable : ∃ n id items, c.CanRefuse text n id items
  · obtain ⟨n, id, items, can⟩ := refusable
    have answerable : ∀ {n id items}, c.CanRefuse text n id items →
        Frame.answerable? text = some id := fun can =>
      Frame.answerable?_eq_some_iff.2 ⟨_, _, can.heads, can.noResult, can.noError⟩
    obtain ⟨session, timers, log⟩ := receive_refused decodes (answerable can) can.linked
    refine ⟨session, timers, by simp [log], fun n' id' items' can' => ?_, fun none => ?_⟩
    · obtain rfl : id' = id := Option.some.inj ((answerable can').symm.trans (answerable can))
      refine ⟨fault.code, ?_, ?_⟩
      · exact (Frame.fault_iff_miscall can'.heads can'.noResult can'.noError).1 ⟨fault, fails, rfl⟩
      · rw [log, json]
        rfl
    · exact absurd ⟨n, id, items, can⟩ none
  · have silent : Frame.answerable? text = none ∨ c.session.linked = false := by
      cases answerable : Frame.answerable? text with
      | none => exact .inl rfl
      | some id =>
        cases linked : c.session.linked with
        | false => exact .inr rfl
        | true =>
          obtain ⟨n, items, heads, noResult, noError⟩ :=
            Frame.answerable?_eq_some_iff.1 answerable
          exact absurd ⟨n, id, items, h.not_closed_of_linked linked, linked, heads, noResult,
            noError⟩ refusable
    obtain ⟨session, timers, log⟩ := receive_dropped decodes silent
    exact ⟨session, timers, by rw [log], fun n id items can => absurd ⟨n, id, items, can⟩ refusable,
      fun _ => log⟩

/-- While two calls are under way, the peer sends one that is of no known kind. -/
theorem malformed_twoSent : Chronicle.twoSent.session.codec = .json ∧
    Frame.ofText "[9,\"n\"]" = .error (.unknownKind 9) ∧
    ∃ code, Frame.Miscall 9 [.int 9, .str "n"] code ∧
      (Chronicle.twoSent.receive "[9,\"n\"]").log = Chronicle.twoSent.log ++ [(0, .sent (Frame.text
        (.error "n" (code.toWire .v16) code.description .empty)))] := by
  have fails : Frame.ofText "[9,\"n\"]" = .error (.unknownKind 9) := by cbv
  have heads : Frame.Heads "[9,\"n\"]" 9 "n" [.int 9, .str "n"] :=
    ⟨by cbv, by decide, by decide⟩
  refine ⟨rfl, fails, ?_⟩
  exact (Reachable.twoSent.malformed rfl fails).2.2.2.1 9 "n" _
    ⟨by decide, rfl, heads, by decide, by decide⟩

end ChargeLink.Chronicle
