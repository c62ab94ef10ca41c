import CtAgentAndroid.Automaton
import CtAgentAndroid.Outcome

/-! # `TransportFallbackController`

The fallback state machine of `transport_fallback.rs`, handler by handler: each
method takes the `ControllerState` behind the mutex to the next one and returns a
clone of `current`.  `elapsed_ms` is the caller's, in any order; nothing here
reads a clock.

`controller` is the machine of all three handlers.  The object the application
holds is the state behind a mutex; `TransportFallbackController.call_run` shows
that its calls are the machine's steps, and that no call ever panics.
-/
namespace CtAgentAndroid
open Rust Automaton

/-- Caller-visible state. -/
inductive TransportState where
  | connecting (status : String)
  | webRtcConnected
  | fallingBackToDirectChannel (status : String) (needsFreshSignaling : Bool)
  | directChannelConnected
  | abandoned (reason : String)
  deriving DecidableEq, Repr

/-- ICE connection state, as reported by the platform WebRTC stack. -/
inductive IceConnectionState where
  | new
  | connected
  | failed
  | disconnected
  deriving DecidableEq, Repr

def EARLY_STATUS_MS : UInt64 := 3000
def FALLBACK_TRIGGER_MS : UInt64 := 6000
def ABANDON_MS : UInt64 := 20000

/-- What the mutex of `TransportFallbackController` guards. -/
structure ControllerState where
  current : TransportState
  ice : IceConnectionState
  fallbackTriggered : Bool
  earlyStatusEmitted : Bool
  deriving DecidableEq, Repr

namespace TransportState

/-- `matches!(self, TransportState::Connecting { .. })`. -/
def isConnecting : TransportState → Bool
  | connecting _ => true
  | _ => false

/-- `matches!(self, TransportState::FallingBackToDirectChannel { .. })`. -/
def isFallingBack : TransportState → Bool
  | fallingBackToDirectChannel _ _ => true
  | _ => false

/-- `matches!(self, TransportState::Abandoned { .. })`. -/
def isAbandoned : TransportState → Bool
  | abandoned _ => true
  | _ => false

end TransportState

namespace ControllerState
open TransportState

/-- `TransportFallbackController::new`. -/
def new : ControllerState where
  current := connecting "Connecting…"
  ice := .new
  fallbackTriggered := false
  earlyStatusEmitted := false

/-- `on_ice_state_changed`. -/
def onIceStateChanged (s : ControllerState) (ice : IceConnectionState) :
    ControllerState × TransportState :=
  let s := { s with ice := ice }
  let s :=
    match ice with
    | .connected => { s with current := webRtcConnected }
    | .failed =>
      if !s.fallbackTriggered then
        { s with
          fallbackTriggered := true
          current := fallingBackToDirectChannel
            "WebRTC connection failed, trying direct channel…" true }
      else s
    | _ => s
  (s, s.current)

/-- `on_direct_channel_result`. -/
def onDirectChannelResult (s : ControllerState) (connected : Bool) :
    ControllerState × TransportState :=
  let s := { s with
    current :=
      if connected then directChannelConnected
      else abandoned "Both WebRTC and the direct channel failed to connect." }
  (s, s.current)

/-- `on_tick`.  Only the `Connecting` phase reacts. -/
def onTick (s : ControllerState) (elapsedMs : UInt64) : ControllerState × TransportState :=
  if !s.current.isConnecting then (s, s.current)
  else
    let s :=
      if elapsedMs ≥ ABANDON_MS then
        { s with current := abandoned "Timed out waiting for a connection." }
      else if elapsedMs ≥ FALLBACK_TRIGGER_MS ∧ !s.fallbackTriggered then
        { s with
          fallbackTriggered := true
          current := fallingBackToDirectChannel
            "Still connecting via WebRTC, trying direct channel…" true }
      else if elapsedMs ≥ EARLY_STATUS_MS ∧ !s.earlyStatusEmitted then
        { s with earlyStatusEmitted := true, current := connecting "Still connecting…" }
      else s
    (s, s.current)

end ControllerState

/-- A call on the controller. -/
inductive ControllerCall where
  | onIceStateChanged (ice : IceConnectionState)
  | onDirectChannelResult (connected : Bool)
  | onTick (elapsedMs : UInt64)
  deriving DecidableEq, Repr

open ControllerState

/-- The machine of the three handlers. -/
def controller : Mealy ControllerState ControllerCall TransportState where
  step s
    | .onIceStateChanged ice => s.onIceStateChanged ice
    | .onDirectChannelResult connected => s.onDirectChannelResult connected
    | .onTick elapsedMs => s.onTick elapsedMs

@[simp] theorem controller_next_ice (s : ControllerState) (x : IceConnectionState) :
    controller.next s (.onIceStateChanged x) = (s.onIceStateChanged x).1 := rfl

@[simp] theorem controller_next_direct (s : ControllerState) (r : Bool) :
    controller.next s (.onDirectChannelResult r) = (s.onDirectChannelResult r).1 := rfl

@[simp] theorem controller_next_tick (s : ControllerState) (e : UInt64) :
    controller.next s (.onTick e) = (s.onTick e).1 := rfl

/-- **What a call returns is the state it leaves**, the value `current_state()`
would return right after. -/
theorem controller_out (s : ControllerState) (c : ControllerCall) :
    controller.out s c = (controller.next s c).current := by
  cases c with
  | onIceStateChanged ice => rfl
  | onDirectChannelResult connected => rfl
  | onTick elapsedMs =>
    simp only [Mealy.out, Mealy.next, controller, onTick]
    split <;> rfl

/-! ## What each handler can do -/

theorem onIceStateChanged_connected (s : ControllerState) :
    (s.onIceStateChanged .connected).1 =
      { s with ice := .connected, current := .webRtcConnected } := rfl

theorem onIceStateChanged_failed_clear {s : ControllerState} (h : s.fallbackTriggered = false) :
    (s.onIceStateChanged .failed).1 =
      { s with
        ice := .failed
        fallbackTriggered := true
        current := .fallingBackToDirectChannel
          "WebRTC connection failed, trying direct channel…" true } := by
  simp [onIceStateChanged, h]

theorem onIceStateChanged_failed_spent {s : ControllerState} (h : s.fallbackTriggered = true) :
    (s.onIceStateChanged .failed).1 = { s with ice := .failed } := by
  simp [onIceStateChanged, h]

/-- Once the call has moved on from `Connecting`, a tick changes nothing. -/
theorem onTick_of_not_connecting {s : ControllerState} (h : s.current.isConnecting = false)
    (e : UInt64) : (s.onTick e).1 = s := by
  simp [onTick, h]

theorem onTick_abandon {s : ControllerState} (h : s.current.isConnecting = true) {e : UInt64}
    (he : ABANDON_MS ≤ e) :
    (s.onTick e).1 = { s with current := .abandoned "Timed out waiting for a connection." } := by
  simp [onTick, h, he]

theorem onTick_fallback {s : ControllerState} (h : s.current.isConnecting = true)
    (hl : s.fallbackTriggered = false) {e : UInt64} (he : FALLBACK_TRIGGER_MS ≤ e)
    (he' : e < ABANDON_MS) :
    (s.onTick e).1 =
      { s with
        fallbackTriggered := true
        current := .fallingBackToDirectChannel
          "Still connecting via WebRTC, trying direct channel…" true } := by
  simp [onTick, h, hl, he, UInt64.not_le.mpr he']

section Quiet
variable {s : ControllerState} {e : UInt64} (h : s.current.isConnecting = true)
  (quiet : e < ABANDON_MS ∧ (FALLBACK_TRIGGER_MS ≤ e → s.fallbackTriggered = true))
include h quiet

/-- A tick that neither abandons nor falls back updates the status once. -/
theorem onTick_status (due : EARLY_STATUS_MS ≤ e) (unsaid : s.earlyStatusEmitted = false) :
    (s.onTick e).1 =
      { s with earlyStatusEmitted := true, current := .connecting "Still connecting…" } := by
  obtain ⟨hab, hfb⟩ := quiet
  by_cases hl : s.fallbackTriggered = true
  · simp [onTick, h, hl, UInt64.not_le.mpr hab, due, unsaid]
  · have hlt : ¬ FALLBACK_TRIGGER_MS ≤ e := fun hle => hl (hfb hle)
    simp [onTick, h, hlt, UInt64.not_le.mpr hab, due, unsaid]

theorem onTick_quiet (said : EARLY_STATUS_MS ≤ e → s.earlyStatusEmitted = true) :
    (s.onTick e).1 = s := by
  obtain ⟨hab, hfb⟩ := quiet
  have hfallback : ¬ (FALLBACK_TRIGGER_MS ≤ e ∧ s.fallbackTriggered = false) :=
    fun hle => Bool.false_ne_true (hle.2.symm.trans (hfb hle.1))
  have hstatus : ¬ (EARLY_STATUS_MS ≤ e ∧ s.earlyStatusEmitted = false) :=
    fun hle => Bool.false_ne_true (hle.2.symm.trans (said hle.1))
  simp [onTick, h, UInt64.not_le.mpr hab, hfallback, hstatus]

end Quiet

/-! ## The shared object -/

/-- `TransportFallbackController`: the state behind its mutex. -/
abbrev TransportFallbackController := Guarded ControllerState

namespace TransportFallbackController

/-- A call on the shared object: the handler's body runs under the lock. -/
def call (m : TransportFallbackController) (c : ControllerCall) :
    TransportFallbackController × Outcome Empty TransportState :=
  m.withLock fun s => ((controller.step s c).1, .ok (controller.step s c).2)

/-- `TransportFallbackController::current_state`. -/
def currentState (m : TransportFallbackController) : Outcome Empty TransportState :=
  (m.withLock fun s => (s, .ok s.current)).2

/-- The calls on the object as a machine. -/
def object : Mealy TransportFallbackController ControllerCall (Outcome Empty TransportState) where
  step := call

theorem call_new (s : ControllerState) (c : ControllerCall) :
    call (.new s) c = (.new (controller.next s c), .ok (controller.out s c)) :=
  Guarded.withLock_of_returns rfl (Outcome.returns_ok _)

/-- **The object's calls are the machine's steps.**  No handler panics while it
holds the lock, so the mutex is never poisoned and every call returns. -/
theorem call_run (s : ControllerState) (cs : List ControllerCall) :
    object.run (.new s) cs = .new (controller.run s cs) ∧
      object.outputs (.new s) cs = (controller.outputs s cs).map .ok := by
  induction cs generalizing s with
  | nil => exact ⟨rfl, rfl⟩
  | cons c cs ih =>
    have hnext : object.next (.new s) c = .new (controller.next s c) :=
      congrArg Prod.fst (call_new s c)
    have hout : object.out (.new s) c = .ok (controller.out s c) :=
      congrArg Prod.snd (call_new s c)
    simp [hnext, hout, ih (controller.next s c)]

end TransportFallbackController
end CtAgentAndroid
