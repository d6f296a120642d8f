import ChargeLink.Proofs.Frame.ReadBack
import ChargeLink.Proofs.Json.Sound
import Mathlib

/-!
# Frames and their texts

A text that is read as a frame may differ from the frame's own text: it may have
more elements, lack the details of a refusal, describe it by something that is
no text, or hold `null` for a result. The frame read of it is plain all the
same, and no result of it is empty, so its own text is read as the same frame.

* `Frame.ofText_sound`: what is read of a text is a frame that is received as it is.
* `Frame.round_trip`: which frames are read back, and that every frame that was read is.
-/

namespace ChargeLink.Frame

variable {D : Binary64 → Prop} {f : Frame} {s : String}

/-- All frames but empty results are received as they are. -/
theorem received_eq_iff : f.received = f ↔ ∀ id, f ≠ .result id .null := by
  cases f with
  | call | error => simp [received]
  | result id p =>
    cases p with
    | null => simp [received, Json.isNull, Json.empty]
    | _ => simp [received, Json.isNull]

/-! ## What is read of a text -/

theorem plain_orNull {items : List Json} (h : ∀ v ∈ items, v.Plain D payloadDepth) (i : ℕ) :
    (Json.orNull items[i]?).Plain D payloadDepth := by
  cases item : items[i]? with
  | none => exact .null
  | some v => exact h v (List.mem_of_getElem? item)

theorem ofItems_sound {kind : FrameKind} {items : List Json}
    (each : ∀ v ∈ items, v.Plain D payloadDepth) (h : ofItems kind items = .ok f) :
    f.payload.Plain D payloadDepth ∧ f.received = f := by
  have item := plain_orNull each
  simp only [ofItems, bind, Except.bind, pure, Except.pure] at h
  split at h
  · cases h
  cases kind with
  | call =>
    dsimp only at h
    split at h <;> cases h
    exact ⟨item 3, rfl⟩
  | error =>
    dsimp only at h
    split at h <;> cases h
    refine ⟨?_, rfl⟩
    cases details : items[4]? with
    | none => exact .empty
    | some v => exact each v (List.mem_of_getElem? details)
  | result =>
    cases h
    refine ⟨?_, received_of_present ?_⟩
    · simp only [payload]
      split
      · exact .empty
      · exact item 2
    · simp only [payload]
      split
      · rfl
      · rename_i present
        simpa using present

/-- **What is read of a text is received as it is**, and is plain. -/
theorem ofText_sound (h : ofText s = .ok f) :
    f.payload.Plain Json.Finite payloadDepth ∧ f.received = f := by
  unfold ofText at h
  split at h
  · rename_i v read
    have plain := Json.ofText?_plain read
    unfold ofJson at h
    repeat' split at h
    all_goals first | cases h | skip
    exact ofItems_sound (Json.Plain.items (n := payloadDepth) plain) h
  · cases h

/-- **Frames are read back from their text.** A frame without doubles, with a payload that is not
too deep, comes back unless it is an empty result, which comes back as an object without members.
What was read of any text comes back, too. -/
theorem round_trip :
    (∀ f : Frame, f.payload.Canonical → f.payload.Numbers Json.NoDouble → f.payload.depth ≤ 126 →
      (ofText f.text = .ok f ↔ ∀ id, f ≠ .result id .null) ∧
        ∀ id, f = .result id .null → ofText f.text = .ok (.result id .empty)) ∧
    ∀ (s : String) (f : Frame), ofText s = .ok f → f.payload.Numbers Json.NoDouble →
      ofText f.text = .ok f := by
  have wider : ∀ x, Json.NoDouble x → Json.Finite x := fun _ no => no.elim
  refine ⟨fun f canonical numbers shallow => ?_, fun s f read numbers => ?_⟩
  · have back := ofText_received (f := f) ⟨canonical, numbers.imp wider, shallow⟩
    refine ⟨?_, fun id empty => ?_⟩
    · rw [back, Except.ok.injEq, received_eq_iff]
    · rw [back, empty]
      rfl
  · obtain ⟨plain, same⟩ := ofText_sound read
    rw [ofText_received ⟨plain.canonical, numbers.imp wider, plain.shallow⟩, same]

/-- A refusal without details, described by a number: its frame has a text of its own. -/
theorem round_trip_lenient :
    ofText "[4,\"7\",\"GenericError\",5]" = .ok (.error "7" "GenericError" "" .empty) ∧
      ofText (error "7" "GenericError" "" .empty).text =
        .ok (.error "7" "GenericError" "" .empty) ∧
      ofText (result "7" .null).text = .ok (.result "7" .empty) := by
  have read : ofText "[4,\"7\",\"GenericError\",5]" =
      .ok (.error "7" "GenericError" "" .empty) := by cbv
  exact ⟨read, round_trip.2 _ _ read trivial,
    (round_trip.1 (.result "7" .null) trivial trivial (Nat.zero_le 126)).2 "7" rfl⟩

end ChargeLink.Frame
