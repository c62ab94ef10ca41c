import CtAgentAndroid.TransportReachability

/-! # What can be told of a controller

Two of its fields decide nothing in the states that can be reached.  The ICE value
is never read; and whether the early status has been emitted is read, but only while
connecting, where the text says it.  So two controllers answer alike from now on
exactly when they show the same and the direct channel has been offered by both or
by neither (`same_answers_iff`).
-/
namespace CtAgentAndroid
open Automaton ControllerState ControllerCall TransportState

/-- Two possible states with the same visible state and the same latch. -/
structure Alike (s t : ControllerState) : Prop where
  left : s.Possible
  right : t.Possible
  current : s.current = t.current
  latch : s.fallbackTriggered = t.fallbackTriggered

theorem connectingText_inj {a b : Bool}
    (h : (if a then "Still connecting…" else "Connecting…") =
      if b then "Still connecting…" else "Connecting…") : a = b := by
  revert h
  cases a <;> cases b <;> decide

/-- While connecting, the text says whether the early status has been emitted. -/
theorem ControllerState.Possible.text {s : ControllerState} (h : s.Possible) {status : String}
    (hcurrent : s.current = connecting status) :
    status = if s.earlyStatusEmitted then "Still connecting…" else "Connecting…" := by
  unfold Possible at h
  rw [hcurrent] at h
  exact h.2.2

/-- Falling back is only shown with the latch set. -/
theorem ControllerState.Possible.latch_of_fallingBack {s : ControllerState} (h : s.Possible)
    (hcurrent : s.current.isFallingBack = true) : s.fallbackTriggered = true := by
  obtain ⟨current, ice, latch, early⟩ := s
  cases current with
  | fallingBackToDirectChannel status fresh => exact h.1
  | _ => cases hcurrent

/-- While connecting, alike states differ in the ICE value only. -/
theorem Alike.eq_of_connecting {s t : ControllerState} (h : Alike s t)
    (hconnecting : s.current.isConnecting = true) : t = { s with ice := t.ice } := by
  have hearly : s.earlyStatusEmitted = t.earlyStatusEmitted := by
    cases hs : s.current with
    | connecting status =>
      have ht := h.current.symm.trans hs
      exact connectingText_inj ((h.left.text hs).symm.trans (h.right.text ht))
    | _ => rw [hs] at hconnecting; cases hconnecting
  rw [h.current, h.latch, hearly]

/-- A tick does not look at the ICE value. -/
theorem onTick_ice (s : ControllerState) (x : IceConnectionState) (e : UInt64) :
    ({ s with ice := x }.onTick e).1 = { (s.onTick e).1 with ice := x } := by
  simp only [ControllerState.onTick]
  split_ifs <;> rfl

theorem Alike.onTick {s t : ControllerState} (h : Alike s t) (e : UInt64) :
    (s.onTick e).1.current = (t.onTick e).1.current ∧
      (s.onTick e).1.fallbackTriggered = (t.onTick e).1.fallbackTriggered := by
  by_cases hconnecting : s.current.isConnecting = true
  · rw [h.eq_of_connecting hconnecting, onTick_ice s t.ice e]
    exact ⟨rfl, rfl⟩
  · rw [Bool.not_eq_true] at hconnecting
    rw [onTick_of_not_connecting hconnecting,
      onTick_of_not_connecting (h.current ▸ hconnecting)]
    exact ⟨h.current, h.latch⟩

theorem Alike.onIceStateChanged {s t : ControllerState} (h : Alike s t) (x : IceConnectionState) :
    (s.onIceStateChanged x).1.current = (t.onIceStateChanged x).1.current ∧
      (s.onIceStateChanged x).1.fallbackTriggered =
        (t.onIceStateChanged x).1.fallbackTriggered := by
  cases x with
  | connected => exact ⟨rfl, h.latch⟩
  | failed =>
    by_cases hlatch : s.fallbackTriggered = true
    · rw [onIceStateChanged_failed_spent hlatch,
        onIceStateChanged_failed_spent (h.latch.symm.trans hlatch)]
      exact ⟨h.current, h.latch⟩
    · rw [Bool.not_eq_true] at hlatch
      rw [onIceStateChanged_failed_clear hlatch,
        onIceStateChanged_failed_clear (h.latch.symm.trans hlatch)]
      exact ⟨rfl, rfl⟩
  | new | disconnected => exact ⟨h.current, h.latch⟩

theorem Alike.next {s t : ControllerState} (h : Alike s t) (c : ControllerCall) :
    Alike (controller.next s c) (controller.next t c) := by
  have hsame : (controller.next s c).current = (controller.next t c).current ∧
      (controller.next s c).fallbackTriggered = (controller.next t c).fallbackTriggered := by
    cases c with
    | onIceStateChanged x => exact h.onIceStateChanged x
    | onDirectChannelResult connected => exact ⟨rfl, h.latch⟩
    | onTick e => exact h.onTick e
  exact ⟨(next_transition s c).possible h.left, (next_transition t c).possible h.right,
    hsame.1, hsame.2⟩

theorem Alike.indistinguishable {s t : ControllerState} (h : Alike s t) :
    controller.Indistinguishable s t := by
  refine Mealy.indistinguishable_of_bisimulation (R := Alike) (fun h c => ?_) Alike.next h
  rw [controller_out, controller_out]
  exact (h.next c).current

/-! ## Two probes -/

/-- The first tick shows what is shown. -/
theorem out_tick_zero (s : ControllerState) : controller.out s (.onTick 0) = s.current := by
  rw [controller_out, controller_next_tick]
  by_cases hconnecting : s.current.isConnecting = true
  · rw [onTick_quiet hconnecting ⟨by decide, fun h => absurd h (by decide)⟩
      fun h => absurd h (by decide)]
  · rw [Bool.not_eq_true] at hconnecting
    rw [onTick_of_not_connecting hconnecting]

/-- A failed link is answered with an offer exactly if none has been made, or the
offer is what is shown anyway. -/
theorem out_failed (s : ControllerState) :
    controller.out s (.onIceStateChanged .failed) =
      if s.fallbackTriggered then s.current
      else fallingBackToDirectChannel failedStatus true := by
  rw [controller_out, controller_next_ice]
  split
  · next hlatch => rw [onIceStateChanged_failed_spent hlatch]
  · next hclear =>
    rw [Bool.not_eq_true] at hclear
    rw [onIceStateChanged_failed_clear hclear]
    rfl

/-- Of two states that show the same, the one with a clear latch offers the direct
channel when the link fails, and the other does not. -/
theorem latch_of_indistinguishable {s t : ControllerState} (hs : s.Possible)
    (hcurrent : s.current = t.current) (h : controller.Indistinguishable s t)
    (ht : t.fallbackTriggered = true) : s.fallbackTriggered = true := by
  have hfailed := h.out (.onIceStateChanged .failed)
  rw [out_failed, out_failed, if_pos ht] at hfailed
  split at hfailed
  · assumption
  · exact hs.latch_of_fallingBack (by rw [hcurrent, ← hfailed]; rfl)

theorem indistinguishable_iff_alike {s t : ControllerState} (hs : s.Possible) (ht : t.Possible) :
    controller.Indistinguishable s t ↔ Alike s t := by
  refine ⟨fun h => ?_, Alike.indistinguishable⟩
  have hcurrent : s.current = t.current := by
    rw [← out_tick_zero, ← out_tick_zero, h.out]
  refine ⟨hs, ht, hcurrent, Bool.eq_iff_iff.mpr ⟨fun hlatch => ?_, fun hlatch => ?_⟩⟩
  · exact latch_of_indistinguishable ht hcurrent.symm (fun es => (h es).symm) hlatch
  · exact latch_of_indistinguishable hs hcurrent h hlatch

/-- **What the answers of a controller depend on.**  After any two runs, two
controllers answer all further calls alike exactly when `current_state()` is the same
and the direct channel has been offered in both runs or in neither. -/
theorem same_answers_iff (cs ds : List ControllerCall) :
    (∀ more, controller.outputs (controller.run .new cs) more =
        controller.outputs (controller.run .new ds) more) ↔
      (controller.run .new cs).current = (controller.run .new ds).current ∧
        ((∃ o ∈ controller.outputs .new cs, o.isFallingBack = true) ↔
          ∃ o ∈ controller.outputs .new ds, o.isFallingBack = true) := by
  rw [← latch_iff_offered, ← latch_iff_offered, ← Bool.eq_iff_iff]
  refine (indistinguishable_iff_alike (possible_run cs) (possible_run ds)).trans ⟨?_, ?_⟩
  · rintro ⟨-, -, hcurrent, hlatch⟩
    exact ⟨hcurrent, hlatch⟩
  · rintro ⟨hcurrent, hlatch⟩
    exact ⟨possible_run cs, possible_run ds, hcurrent, hlatch⟩

end CtAgentAndroid
