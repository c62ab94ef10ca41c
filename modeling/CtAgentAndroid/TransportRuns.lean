import CtAgentAndroid.CallAttempt
import CtAgentAndroid.TransportFallback

/-! # Runs of the fallback controller

`Transition` lists what one call can do, one constructor for each branch of the
three handlers (`next_transition`), so that every invariant below is a case
analysis over it.  `Coherent` relates the visible state to the one-shot latch and
to the last ICE report; it holds after every run from `new`
(`coherent_run`).

Forgetting texts and the ICE value, the controller is the attempt of
`CallAttempt` (`controller_simulates`): what is proved there about phases holds
of its runs.
-/
namespace CtAgentAndroid
open Automaton ControllerState ControllerCall TransportState

/-! ## One step -/

/-- What a call on the controller can do. -/
inductive Transition (s : ControllerState) : ControllerCall → ControllerState → Prop
  | iceConnected :
      Transition s (.onIceStateChanged .connected)
        { s with ice := .connected, current := .webRtcConnected }
  | iceFailed (latch : s.fallbackTriggered = false) :
      Transition s (.onIceStateChanged .failed)
        { s with
          ice := .failed
          fallbackTriggered := true
          current := .fallingBackToDirectChannel
            "WebRTC connection failed, trying direct channel…" true }
  | iceFailedIgnored (latch : s.fallbackTriggered = true) :
      Transition s (.onIceStateChanged .failed) { s with ice := .failed }
  | iceOther (x : IceConnectionState) (notUp : x ≠ .connected) (notDown : x ≠ .failed) :
      Transition s (.onIceStateChanged x) { s with ice := x }
  | directUp :
      Transition s (.onDirectChannelResult true) { s with current := .directChannelConnected }
  | directDown :
      Transition s (.onDirectChannelResult false)
        { s with current := .abandoned "Both WebRTC and the direct channel failed to connect." }
  | tickAbandon (e : UInt64) (phase : s.current.isConnecting = true) (due : ABANDON_MS ≤ e) :
      Transition s (.onTick e)
        { s with current := .abandoned "Timed out waiting for a connection." }
  | tickFallback (e : UInt64) (phase : s.current.isConnecting = true)
      (latch : s.fallbackTriggered = false) (due : FALLBACK_TRIGGER_MS ≤ e)
      (early : e < ABANDON_MS) :
      Transition s (.onTick e)
        { s with
          fallbackTriggered := true
          current := .fallingBackToDirectChannel
            "Still connecting via WebRTC, trying direct channel…" true }
  | tickStatus (e : UInt64) (phase : s.current.isConnecting = true)
      (quiet : e < ABANDON_MS ∧ (FALLBACK_TRIGGER_MS ≤ e → s.fallbackTriggered = true))
      (due : EARLY_STATUS_MS ≤ e) (unsaid : s.earlyStatusEmitted = false) :
      Transition s (.onTick e)
        { s with earlyStatusEmitted := true, current := .connecting "Still connecting…" }
  | tickQuiet (e : UInt64) (phase : s.current.isConnecting = true)
      (quiet : e < ABANDON_MS ∧ (FALLBACK_TRIGGER_MS ≤ e → s.fallbackTriggered = true))
      (said : EARLY_STATUS_MS ≤ e → s.earlyStatusEmitted = true) :
      Transition s (.onTick e) s
  | tickIgnored (e : UInt64) (phase : s.current.isConnecting = false) :
      Transition s (.onTick e) s

/-- **Every call takes one of these transitions.** -/
theorem next_transition (s : ControllerState) (c : ControllerCall) :
    Transition s c (controller.next s c) := by
  cases c with
  | onIceStateChanged x =>
    rw [controller_next_ice]
    cases x with
    | connected => exact .iceConnected
    | failed =>
      cases h : s.fallbackTriggered with
      | true => rw [onIceStateChanged_failed_spent h]; exact .iceFailedIgnored h
      | false => rw [onIceStateChanged_failed_clear h]; exact .iceFailed h
    | _ => exact .iceOther _ (by simp) (by simp)
  | onDirectChannelResult r =>
    cases r with
    | true => exact .directUp
    | false => exact .directDown
  | onTick e =>
    rw [controller_next_tick]
    cases hc : s.current.isConnecting with
    | false => rw [onTick_of_not_connecting hc]; exact .tickIgnored e hc
    | true =>
      by_cases hab : ABANDON_MS ≤ e
      · rw [onTick_abandon hc hab]; exact .tickAbandon e hc hab
      have hlt : e < ABANDON_MS := UInt64.not_le.mp hab
      by_cases hfb : FALLBACK_TRIGGER_MS ≤ e ∧ s.fallbackTriggered = false
      · rw [onTick_fallback hc hfb.2 hfb.1 hlt]; exact .tickFallback e hc hfb.2 hfb.1 hlt
      have hquiet : e < ABANDON_MS ∧ (FALLBACK_TRIGGER_MS ≤ e → s.fallbackTriggered = true) :=
        ⟨hlt, fun h => by simpa [h] using hfb⟩
      by_cases hst : EARLY_STATUS_MS ≤ e ∧ s.earlyStatusEmitted = false
      · rw [onTick_status hc hquiet hst.1 hst.2]
        exact .tickStatus e hc hquiet hst.1 hst.2
      · have hsaid : EARLY_STATUS_MS ≤ e → s.earlyStatusEmitted = true :=
          fun h => by simpa [h] using hst
        rw [onTick_quiet hc hquiet hsaid]
        exact .tickQuiet e hc hquiet hsaid

/-! ## Invariants -/

/-- The visible state is one the user can read and act on: a status or a reason
is there, and a fallback asks for fresh signaling. -/
def TransportState.Informative : TransportState → Prop
  | connecting status => status ≠ ""
  | fallingBackToDirectChannel status needsFreshSignaling =>
    status ≠ "" ∧ needsFreshSignaling = true
  | abandoned reason => reason ≠ ""
  | _ => True

/-- What every reachable controller state satisfies: the latch is clear while
connecting and set while falling back, WebRTC has not reported `Connected` while
the controller is still connecting, and the state is informative. -/
structure Coherent (s : ControllerState) : Prop where
  connecting_latch : s.current.isConnecting = true → s.fallbackTriggered = false
  fallingBack_latch : s.current.isFallingBack = true → s.fallbackTriggered = true
  connecting_ice : s.current.isConnecting = true → s.ice ≠ .connected
  informative : s.current.Informative

theorem coherent_new : Coherent ControllerState.new where
  connecting_latch _ := rfl
  fallingBack_latch h := by cases h
  connecting_ice _ := by decide
  informative := show "Connecting…" ≠ "" by decide

/-- Past `Connecting`, what is left to check is the fallback and the texts. -/
theorem Coherent.of_not_connecting {s : ControllerState} (hc : s.current.isConnecting = false)
    (hf : s.current.isFallingBack = true → s.fallbackTriggered = true)
    (hi : s.current.Informative) : Coherent s where
  connecting_latch h := absurd (hc.symm.trans h) Bool.false_ne_true
  fallingBack_latch := hf
  connecting_ice h := absurd (hc.symm.trans h) Bool.false_ne_true
  informative := hi

theorem Transition.coherent {s t : ControllerState} {c : ControllerCall} (h : Transition s c t)
    (hs : Coherent s) : Coherent t := by
  cases h with
  | iceConnected => exact .of_not_connecting rfl nofun trivial
  | iceFailed latch => exact .of_not_connecting rfl (fun _ => rfl) (by simp [Informative])
  | iceFailedIgnored latch =>
    exact ⟨hs.connecting_latch, hs.fallingBack_latch, fun _ => by simp, hs.informative⟩
  | iceOther x notUp notDown =>
    exact ⟨hs.connecting_latch, hs.fallingBack_latch, fun _ => notUp, hs.informative⟩
  | directUp => exact .of_not_connecting rfl nofun trivial
  | directDown => exact .of_not_connecting rfl nofun (by simp [Informative])
  | tickAbandon e phase due => exact .of_not_connecting rfl nofun (by simp [Informative])
  | tickFallback e phase latch due early =>
    exact .of_not_connecting rfl (fun _ => rfl) (by simp [Informative])
  | tickStatus e phase quiet due unsaid =>
    -- still connecting: the latch and the ICE value are those of the old state
    exact ⟨fun _ => hs.connecting_latch phase, nofun, fun _ => hs.connecting_ice phase,
      by simp [Informative]⟩
  | tickQuiet e phase quiet said => exact hs
  | tickIgnored e phase => exact hs

theorem coherent_preserves : controller.Preserves Coherent :=
  fun s c hs => (next_transition s c).coherent hs

/-- **Every reachable state is coherent.** -/
theorem coherent_run (cs : List ControllerCall) : Coherent (controller.run .new cs) :=
  coherent_preserves.run coherent_new cs

/-! ## The last ICE report -/

/-- The ICE state most recently reported in a sequence of calls, if any was. -/
def lastIceReport (cs : List ControllerCall) : Option IceConnectionState :=
  (cs.filterMap fun c => match c with
    | .onIceStateChanged ice => some ice
    | _ => none).getLast?

theorem Transition.ice {s t : ControllerState} {c : ControllerCall} (h : Transition s c t) :
    t.ice = (lastIceReport [c]).getD s.ice := by
  cases h <;> rfl

/-- The field `ice` holds the last report. -/
theorem run_ice (s : ControllerState) (cs : List ControllerCall) :
    (controller.run s cs).ice = (lastIceReport cs).getD s.ice := by
  induction cs using List.reverseRecOn with
  | nil => rfl
  | append_singleton cs c ih =>
    rw [Mealy.run_append, Mealy.run_cons, Mealy.run_nil, (next_transition _ c).ice, ih]
    cases c <;> simp [lastIceReport]

/-- From `new`, a report other than `New` is the field's value. -/
theorem run_new_ice_eq_iff {cs : List ControllerCall} {x : IceConnectionState} (hx : x ≠ .new) :
    (controller.run .new cs).ice = x ↔ lastIceReport cs = some x := by
  rw [run_ice]
  cases h : lastIceReport cs with
  | none => simpa [ControllerState.new] using hx.symm
  | some y => simp

/-! ## The fallback latch records the offer -/

theorem Transition.latch_iff {s t : ControllerState} {c : ControllerCall} (h : Transition s c t)
    (hs : Coherent s) :
    t.fallbackTriggered = true ↔
      s.fallbackTriggered = true ∨ t.current.isFallingBack = true := by
  have hback := (h.coherent hs).fallingBack_latch
  cases h with
  | iceFailed latch => simp [isFallingBack]
  | tickFallback e phase latch due early => simp [isFallingBack]
  | _ => exact ⟨Or.inl, fun h => h.elim id hback⟩

/-- **The latch is set exactly when some call of the run returned
`FallingBackToDirectChannel`.** -/
theorem latch_iff_offered (cs : List ControllerCall) :
    (controller.run .new cs).fallbackTriggered = true ↔
      ∃ o ∈ controller.outputs .new cs, o.isFallingBack = true := by
  have h := Mealy.latch_iff_outputs (L := fun s => s.fallbackTriggered = true)
    (P := fun o => o.isFallingBack = true) coherent_preserves
    (fun s c hs => by
      rw [controller_out]
      exact (next_transition s c).latch_iff hs) coherent_new cs
  rw [h]
  exact or_iff_right (by decide)

/-- The caller's side of the protocol: `on_direct_channel_result` is called only
after some earlier call returned `FallingBackToDirectChannel`. -/
def FollowsProtocol (cs : List ControllerCall) : Prop :=
  ∀ pre r, pre ++ [.onDirectChannelResult r] <+: cs →
    ∃ o ∈ controller.outputs .new pre, o.isFallingBack = true

/-- Following the protocol means reporting the direct channel only with the
latch set. -/
theorem followsProtocol_iff (cs : List ControllerCall) :
    FollowsProtocol cs ↔
      controller.AllSteps
        (fun s c => ∀ r, c = .onDirectChannelResult r → s.fallbackTriggered = true) .new cs := by
  constructor
  · rintro h pre c hpre r rfl
    exact (latch_iff_offered pre).mpr (h pre r hpre)
  · intro h pre r hpre
    exact (latch_iff_offered pre).mp (h pre _ hpre r rfl)

/-! ## The controller as a call attempt -/

/-- The variant of a transport state, without its texts. -/
def TransportState.phase : TransportState → Phase
  | connecting _ => .trying
  | webRtcConnected => .onPrimary
  | fallingBackToDirectChannel _ _ => .fallingBack
  | directChannelConnected => .onSecondary
  | abandoned _ => .givenUp

section Phases
variable (text : String) (fresh : Bool)

@[simp] theorem phase_connecting : (connecting text).phase = .trying := rfl

@[simp] theorem phase_webRtcConnected : webRtcConnected.phase = .onPrimary := rfl

@[simp] theorem phase_fallingBack :
    (fallingBackToDirectChannel text fresh).phase = .fallingBack := rfl

@[simp] theorem phase_directChannelConnected : directChannelConnected.phase = .onSecondary := rfl

@[simp] theorem phase_abandoned : (abandoned text).phase = .givenUp := rfl

end Phases

/-- The attempt a controller state stands for. -/
def ControllerState.attempt (s : ControllerState) : Attempt :=
  ⟨s.current.phase, s.fallbackTriggered⟩

/-- The stage an elapsed time has reached. -/
def stage (elapsedMs : UInt64) : Stage :=
  if ABANDON_MS ≤ elapsedMs then .overdue
  else if FALLBACK_TRIGGER_MS ≤ elapsedMs then .fallbackDue
  else .early

/-- What a call reports to the attempt. -/
def ControllerCall.report : ControllerCall → Report
  | onIceStateChanged .connected => .primaryUp
  | onIceStateChanged .failed => .primaryDown
  | onIceStateChanged _ => .primaryOther
  | onDirectChannelResult connected => .secondary connected
  | onTick elapsedMs => .elapsed (stage elapsedMs)

theorem isConnecting_iff (t : TransportState) : t.isConnecting = true ↔ t.phase = .trying := by
  cases t <;> simp [isConnecting]

theorem isFallingBack_iff (t : TransportState) :
    t.isFallingBack = true ↔ t.phase = .fallingBack := by
  cases t <;> simp [isFallingBack]

theorem isAbandoned_iff (t : TransportState) : t.isAbandoned = true ↔ t.phase = .givenUp := by
  cases t <;> simp [isAbandoned]

theorem isConnecting_of_isFallingBack {t : TransportState} (h : t.isFallingBack = true) :
    t.isConnecting = false := by
  rw [isFallingBack_iff] at h
  rw [← Bool.not_eq_true, isConnecting_iff, h]
  exact nofun

theorem phase_of_isConnecting {t : TransportState} (h : t.isConnecting = true) :
    t.phase = .trying := (isConnecting_iff t).mp h

theorem phase_of_not_isConnecting {t : TransportState} (h : t.isConnecting = false) :
    t.phase ≠ .trying := by
  rw [Ne, ← isConnecting_iff, h]
  exact Bool.false_ne_true

theorem stage_of_lt {e : UInt64} (he : e < ABANDON_MS) (he' : FALLBACK_TRIGGER_MS ≤ e) :
    stage e = .fallbackDue := by
  simp [stage, UInt64.not_le.mpr he, he']

theorem stage_eq_fallbackDue {e : UInt64} :
    stage e = .fallbackDue ↔ FALLBACK_TRIGGER_MS ≤ e ∧ e < ABANDON_MS := by
  constructor
  · intro h
    unfold stage at h
    split at h
    · cases h
    · next hab =>
      split at h
      · next hfb => exact ⟨hfb, UInt64.not_le.mp hab⟩
      · cases h
  · exact fun h => stage_of_lt h.2 h.1

/-- A tick that neither abandons nor falls back leaves the attempt alone. -/
theorem next_elapsed_quiet {s : ControllerState} {e : UInt64}
    (quiet : e < ABANDON_MS ∧ (FALLBACK_TRIGGER_MS ≤ e → s.fallbackTriggered = true)) :
    s.attempt.next (.elapsed (stage e)) = s.attempt := by
  have hab : ¬ ABANDON_MS ≤ e := UInt64.not_le.mpr quiet.1
  by_cases hfb : FALLBACK_TRIGGER_MS ≤ e
  · rw [stage_of_lt quiet.1 hfb]
    simp [Attempt.next, ControllerState.attempt, quiet.2 hfb]
  · simp [stage, hab, hfb, Attempt.next]

theorem Transition.simulates {s t : ControllerState} {c : ControllerCall} (h : Transition s c t) :
    t.attempt = s.attempt.next c.report := by
  cases h with
  | iceConnected => rfl
  | iceFailed latch => simp [attempt, report, Attempt.next, latch, Attempt.offer]
  | iceFailedIgnored latch => simp [attempt, report, Attempt.next, latch]
  | iceOther x notUp notDown =>
    cases x with
    | connected => exact absurd rfl notUp
    | failed => exact absurd rfl notDown
    | _ => rfl
  | directUp => rfl
  | directDown => rfl
  | tickAbandon e hc due =>
    simp [attempt, report, stage, due, Attempt.next, phase_of_isConnecting hc]
  | tickFallback e hc latch due early =>
    simp [attempt, report, stage_of_lt early due, Attempt.next, phase_of_isConnecting hc, latch,
      Attempt.offer]
  | tickStatus e hc quiet due unsaid =>
    have hphase : ({ s with
        earlyStatusEmitted := true
        current := .connecting "Still connecting…" } : ControllerState).attempt = s.attempt := by
      simp [attempt, phase_of_isConnecting hc]
    rw [hphase]
    exact (next_elapsed_quiet quiet).symm
  | tickQuiet e hc quiet said => exact (next_elapsed_quiet quiet).symm
  | tickIgnored e hc =>
    exact (Attempt.elapsed_of_settled (phase_of_not_isConnecting hc) (stage e)).symm

/-- **The controller refines the call attempt.** -/
theorem controller_simulates : controller.Simulates attemptMachine attempt report :=
  fun s c => (next_transition s c).simulates

/-- The phase the user sees after a run is the attempt's. -/
theorem run_phase (s : ControllerState) (cs : List ControllerCall) :
    (controller.run s cs).current.phase =
      (attemptMachine.run s.attempt (cs.map report)).phase :=
  congrArg Attempt.phase (controller_simulates.run_map s cs)

end CtAgentAndroid
