import CtAgentAndroid.TransportRuns

/-! # What time does to a call

Two bounds on a call that is only being watched, whatever came before.

* The silent phase ends.  While the controller is connecting its latch is clear,
  so a tick past `FALLBACK_TRIGGER_MS` always moves it on; and the text it shows
  follows the early-status latch (`StatusShown`), so past `EARLY_STATUS_MS` it is
  the second one (`silent_phase_bounded`).
* A direct channel that was offered and connected stays.  Its latch is set, and
  with the latch set neither time nor a failure of WebRTC moves a settled call
  (`directChannel_kept`).
-/
namespace CtAgentAndroid
open Automaton ControllerState ControllerCall TransportState

/-! ## The silent phase -/

/-- While connecting, the text shown tells whether the early status has been
emitted. -/
def StatusShown (s : ControllerState) : Prop :=
  s.current.isConnecting = true →
    s.current = connecting (if s.earlyStatusEmitted then "Still connecting…" else "Connecting…")

/-- Leaving `Connecting` leaves nothing to show. -/
theorem StatusShown.of_not_connecting {s : ControllerState} (h : s.current.isConnecting = false) :
    StatusShown s := fun hc => absurd (h.symm.trans hc) Bool.false_ne_true

theorem Transition.statusShown {s t : ControllerState} {c : ControllerCall} (h : Transition s c t)
    (hs : StatusShown s) : StatusShown t := by
  cases h with
  | iceConnected => exact .of_not_connecting rfl
  | iceFailed latch => exact .of_not_connecting rfl
  | iceFailedIgnored latch => exact hs
  | iceOther x notUp notDown => exact hs
  | directUp => exact .of_not_connecting rfl
  | directDown => exact .of_not_connecting rfl
  | tickAbandon e phase due => exact .of_not_connecting rfl
  | tickFallback e phase latch due early => exact .of_not_connecting rfl
  | tickStatus e phase quiet due unsaid => exact fun _ => rfl
  | tickQuiet e phase quiet said => exact hs
  | tickIgnored e phase => exact hs

theorem statusShown_run (cs : List ControllerCall) : StatusShown (controller.run .new cs) :=
  Mealy.Preserves.run (fun s c hs => (next_transition s c).statusShown hs) (fun _ => rfl) cs

/-- A tick that leaves the call connecting is before the fallback, and has seen to
the early status. -/
theorem Transition.tick_connecting {s t : ControllerState} {e : UInt64}
    (h : Transition s (.onTick e) t) (hs : Coherent s) (ht : t.current.isConnecting = true) :
    e < FALLBACK_TRIGGER_MS ∧ (EARLY_STATUS_MS ≤ e → t.earlyStatusEmitted = true) := by
  have before : s.current.isConnecting = true →
      e < ABANDON_MS ∧ (FALLBACK_TRIGGER_MS ≤ e → s.fallbackTriggered = true) →
        e < FALLBACK_TRIGGER_MS := by
    intro phase quiet
    by_contra hle
    -- the latch is clear while connecting, so a later tick is not quiet
    have hlatch := quiet.2 (UInt64.not_lt.mp hle)
    rw [hs.connecting_latch phase] at hlatch
    cases hlatch
  cases h with
  | tickAbandon e phase due => cases ht
  | tickFallback e phase latch due early => cases ht
  | tickStatus e phase quiet due unsaid => exact ⟨before phase quiet, fun _ => rfl⟩
  | tickQuiet e phase quiet said => exact ⟨before phase quiet, said⟩
  | tickIgnored e phase =>
    rw [phase] at ht
    cases ht

/-- **The silent phase is bounded.**  After any run, a tick from
`FALLBACK_TRIGGER_MS` on never returns `Connecting`, and one from
`EARLY_STATUS_MS` on that does returns it with the updated text. -/
theorem silent_phase_bounded (cs : List ControllerCall) (e : UInt64) :
    let r := controller.out (controller.run .new cs) (.onTick e)
    (FALLBACK_TRIGGER_MS ≤ e → r.isConnecting = false) ∧
      (EARLY_STATUS_MS ≤ e → r.isConnecting = true → r = connecting "Still connecting…") := by
  intro r
  have hr : r = (controller.next (controller.run .new cs) (.onTick e)).current :=
    controller_out _ _
  have hstep := next_transition (controller.run .new cs) (.onTick e)
  have htick := hstep.tick_connecting (coherent_run cs)
  have hshown := hstep.statusShown (statusShown_run cs)
  rw [hr]
  constructor
  · intro hdue
    by_contra hc
    have hlt := (htick (Bool.not_eq_false _ ▸ hc)).1
    exact UInt64.not_le.mpr hlt hdue
  · intro hdue hc
    have hsaid := (htick hc).2 hdue
    rw [hshown hc, hsaid]
    rfl

/-! ## A working direct channel -/

/-- Time passes, or WebRTC reports something other than a connection. -/
def ControllerCall.isBackground : ControllerCall → Bool
  | onTick _ => true
  | onIceStateChanged .new | onIceStateChanged .failed | onIceStateChanged .disconnected => true
  | _ => false

theorem isAnswer_of_isBackground {c : ControllerCall} (h : c.isBackground = true) :
    c.report.isAnswer = false := by
  rcases c with ⟨x⟩ | r | e
  · cases x <;> first | rfl | cases h
  · cases h
  · rfl

/-- A call on the direct channel has offered it. -/
def DirectOffered (s : ControllerState) : Prop :=
  s.attempt.phase = .onSecondary → s.attempt.spent = true

/-- In a run that follows the protocol, the direct channel is only ever reached
through the offer. -/
theorem directOffered_of_followsProtocol {cs : List ControllerCall} (h : FollowsProtocol cs) :
    controller.AllStates DirectOffered .new cs := by
  refine Mealy.allStates_of_allSteps (fun s c hs hc => ?_) nofun ((followsProtocol_iff cs).mp h)
  have hanswered : ∀ up, c.report = .secondary up → s.attempt.spent = true := by
    intro up hup
    rcases c with ⟨x⟩ | r | e
    · cases x <;> cases hup
    · exact hc r rfl
    · cases hup
  rw [DirectOffered, controller_simulates s c]
  exact Attempt.next_onSecondary_spent hs hanswered

theorem phase_eq_onSecondary_iff (t : TransportState) :
    t.phase = .onSecondary ↔ t = directChannelConnected := by
  cases t <;> simp

/-- **A working direct channel stays.**  In a run in which the direct channel is
reported only after it was offered, once it is connected neither ticks nor
reports of WebRTC other than `Connected` change the state shown. -/
theorem directChannel_kept {cs : List ControllerCall} (h : FollowsProtocol cs)
    (hconn : (controller.run .new cs).current = directChannelConnected)
    {more : List ControllerCall} (hmore : ∀ c ∈ more, c.isBackground = true) :
    (controller.run .new (cs ++ more)).current = directChannelConnected := by
  have hphase := (phase_eq_onSecondary_iff _).mpr hconn
  have hspent := directOffered_of_followsProtocol h cs (List.prefix_refl cs) hphase
  have hattempt : (controller.run .new cs).attempt = ⟨.onSecondary, true⟩ := by
    rw [← hphase, ← hspent]
    rfl
  have hquiet : ∀ r ∈ more.map report, r.isAnswer = false := by
    intro r hr
    obtain ⟨c, hc, rfl⟩ := List.mem_map.mp hr
    exact isAnswer_of_isBackground (hmore c hc)
  rw [Mealy.run_append, ← phase_eq_onSecondary_iff, run_phase, hattempt,
    Attempt.run_of_not_answer (by decide) hquiet]

theorem directChannel_kept_after_failure :
    (controller.run .new ([.onIceStateChanged .failed, .onDirectChannelResult true] ++
      [.onTick 20000, .onIceStateChanged .failed])).current = directChannelConnected := by
  refine directChannel_kept ((followsProtocol_iff _).mpr ?_) (by decide) (by decide)
  simp [Mealy.allSteps_cons, Mealy.allSteps_nil, onIceStateChanged_failed_clear,
    ControllerState.new]

end CtAgentAndroid
