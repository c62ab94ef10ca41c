import CtAgentAndroid.TransportRuns

/-! # The timer racing an ICE callback

The controller is driven by a timer and by the WebRTC stack, and a tick and an
ICE report that come in together can be handled in either order.  The attempt
decides what that changes (`Attempt.race_phase_eq_iff`); here it is read on the
controller's own calls.

One order of one race differs: a tick in the fallback window, just before
`Connected`, spends the one-shot fallback.  Both orders show `WebRtcConnected`,
and they come apart only if WebRTC fails later and nothing answers that failure.
-/
namespace CtAgentAndroid
open Automaton ControllerState ControllerCall TransportState

/-- A call that settles what is shown: `Connected`, or the result of the direct
channel. -/
def ControllerCall.isAnswer : ControllerCall → Bool
  | onIceStateChanged ice => ice = .connected
  | onDirectChannelResult _ => true
  | onTick _ => false

/-- The first `Failed` among the calls is followed by no answer. -/
def failureUnanswered : List ControllerCall → Bool
  | [] => false
  | .onIceStateChanged .failed :: k => k.all fun c => !c.isAnswer
  | _ :: k => failureUnanswered k

theorem report_isAnswer (c : ControllerCall) : c.report.isAnswer = c.isAnswer := by
  cases c with
  | onIceStateChanged ice => cases ice <;> rfl
  | onDirectChannelResult connected => rfl
  | onTick elapsedMs => rfl

theorem failureUnanswered_report (k : List ControllerCall) :
    Report.failureUnanswered (k.map report) = failureUnanswered k := by
  induction k with
  | nil => rfl
  | cons c k ih =>
    cases c with
    | onIceStateChanged ice =>
      cases ice with
      | failed =>
        have hall : (k.map report).all (fun r => !r.isAnswer) = k.all fun c => !c.isAnswer := by
          rw [List.all_map]
          exact congrArg k.all (funext fun c => congrArg (!·) (report_isAnswer c))
        exact hall
      | _ => exact ih
    | onDirectChannelResult connected => exact ih
    | onTick elapsedMs => exact ih

theorem report_isPrimary (x : IceConnectionState) :
    (ControllerCall.onIceStateChanged x).report.isPrimary = true := by
  cases x <;> rfl

/-- The tick that spends the fallback just before WebRTC connects. -/
theorem raceSpendsOffer_iff (s : ControllerState) (e : UInt64) (x : IceConnectionState) :
    s.attempt.RaceSpendsOffer (stage e) (ControllerCall.onIceStateChanged x).report ↔
      s.current.isConnecting = true ∧ (FALLBACK_TRIGGER_MS ≤ e ∧ e < ABANDON_MS) ∧
        x = .connected := by
  have hx : (ControllerCall.onIceStateChanged x).report = .primaryUp ↔ x = .connected := by
    cases x <;> simp [report]
  rw [Attempt.RaceSpendsOffer, hx, stage_eq_fallbackDue, isConnecting_iff]
  rfl

/-- **The race between the timer and an ICE callback.**  From every reachable
state, and whatever follows, the two orders end in the same variant, except
exactly when the controller is still connecting, the tick is in the fallback
window, the report is `Connected`, and the first `Failed` that follows is not
answered by `Connected` or by the direct channel. -/
theorem tick_ice_race_iff (cs k : List ControllerCall) (e : UInt64) (x : IceConnectionState) :
    (controller.run .new (cs ++ [.onTick e, .onIceStateChanged x] ++ k)).current.phase =
        (controller.run .new (cs ++ [.onIceStateChanged x, .onTick e] ++ k)).current.phase ↔
      ¬ ((controller.run .new cs).current.isConnecting = true ∧
        (FALLBACK_TRIGGER_MS ≤ e ∧ e < ABANDON_MS) ∧ x = .connected ∧
        failureUnanswered k = true) := by
  have hfresh : (controller.run .new cs).attempt.phase = .trying →
      (controller.run .new cs).attempt.spent = false :=
    fun h => (coherent_run cs).connecting_latch ((isConnecting_iff _).mpr h)
  have hrace := Attempt.race_phase_eq_iff hfresh (stage e) (report_isPrimary x) (k.map report)
  rw [raceSpendsOffer_iff, failureUnanswered_report] at hrace
  -- the phases of both orders are the attempt's, which decides
  have hrun : ∀ fs, (controller.run .new (cs ++ fs ++ k)).current.phase =
      (attemptMachine.run (controller.run .new cs).attempt
        (fs.map report ++ k.map report)).phase := by
    intro fs
    rw [List.append_assoc, Mealy.run_append, run_phase, List.map_append]
  rw [hrun, hrun]
  simp only [and_assoc] at hrace ⊢
  exact hrace

/-- A tick at six seconds racing `Connected`, and a failure after it. -/
theorem tick_ice_race_differs :
    ¬ ∀ (cs k : List ControllerCall) (e : UInt64) (x : IceConnectionState),
      (controller.run .new (cs ++ [.onTick e, .onIceStateChanged x] ++ k)).current.phase =
        (controller.run .new (cs ++ [.onIceStateChanged x, .onTick e] ++ k)).current.phase := by
  intro h
  have hsame := h [] [.onIceStateChanged .failed] 6000 .connected
  revert hsame
  decide

end CtAgentAndroid
