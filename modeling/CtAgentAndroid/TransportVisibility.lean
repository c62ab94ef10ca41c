import CtAgentAndroid.TransportRuns

/-! # What the user is shown against what WebRTC reported

Two ways the visible state can contradict the last ICE report, and exactly which
runs show them.

* A dead link shown as connected.  `Failed` moves a connected call on only while
  the fallback latch is clear; after a fallback that WebRTC recovered from, the
  next `Failed` is ignored (`FailureIgnored`).
* A live call reported as abandoned.  The result of the direct channel overwrites
  `current` whatever it is, so a late failure of the direct channel abandons a
  call that WebRTC carries (`LiveCallDropped`).

What holds of every run, in any order of calls and for any ticks, is
`fallback_once_fresh_visible`.
-/
namespace CtAgentAndroid
open Automaton ControllerState ControllerCall TransportState

/-! ## Dead links -/

/-- After the run, `WebRtcConnected` is shown although `Failed` is the last ICE
report. -/
def DeadLinkShown (cs : List ControllerCall) : Prop :=
  (controller.run .new cs).current = webRtcConnected ∧ lastIceReport cs = some .failed

/-- The step that shows a dead link: `Failed` is reported on a connected call
whose fallback is spent. -/
def FailureIgnored (s : ControllerState) (c : ControllerCall) : Prop :=
  s.current = webRtcConnected ∧ s.fallbackTriggered = true ∧ c = .onIceStateChanged .failed

/-- The state does not contradict its own ICE value. -/
def LinkAlive (s : ControllerState) : Prop := s.current = webRtcConnected → s.ice ≠ .failed

theorem Transition.linkAlive {s t : ControllerState} {c : ControllerCall} (h : Transition s c t)
    (hs : LinkAlive s) (hc : ¬ FailureIgnored s c) : LinkAlive t := by
  cases h with
  | iceConnected => intro _; simp
  | iceFailed latch => exact nofun
  | iceFailedIgnored latch => exact fun ht => absurd ⟨ht, latch, rfl⟩ hc
  | iceOther x notUp notDown => exact fun _ => notDown
  | directUp => exact nofun
  | directDown => exact nofun
  | tickAbandon e phase due => exact nofun
  | tickFallback e phase latch due early => exact nofun
  | tickStatus e phase quiet due unsaid => exact nofun
  | tickQuiet e phase quiet said => exact hs
  | tickIgnored e phase => exact hs

theorem Transition.linkDead {s t : ControllerState} {c : ControllerCall} (h : Transition s c t)
    (hc : FailureIgnored s c) : ¬ LinkAlive t := by
  obtain ⟨hconn, hlatch, rfl⟩ := hc
  cases h with
  | iceFailed latch => rw [hlatch] at latch; cases latch
  | iceFailedIgnored latch => exact fun ht => ht hconn rfl
  | iceOther x notUp notDown => exact absurd rfl notDown

theorem deadLinkShown_iff (cs : List ControllerCall) :
    DeadLinkShown cs ↔ ¬ LinkAlive (controller.run .new cs) := by
  rw [DeadLinkShown, ← run_new_ice_eq_iff (by decide), LinkAlive, Classical.not_imp, not_not]

/-- **A run never shows a dead link exactly when none of its `Failed` reports is
ignored**: none arrives while WebRTC is shown connected and the fallback is
spent. -/
theorem never_deadLinkShown_iff (cs : List ControllerCall) :
    (∀ pre, pre <+: cs → ¬ DeadLinkShown pre) ↔
      controller.AllSteps (fun s c => ¬ FailureIgnored s c) .new cs := by
  have hexact := Mealy.allStates_iff_allSteps (M := controller) (I := LinkAlive) (Q := LinkAlive)
    (G := fun s c => ¬ FailureIgnored s c) (fun _ h => h)
    (fun s c hs hc => (next_transition s c).linkAlive hs hc)
    (fun s c _ hc => (next_transition s c).linkDead (not_not.mp hc))
    (s := .new) (fun h => by cases h) cs
  rw [← hexact]
  simp only [deadLinkShown_iff, not_not, Mealy.AllStates]

/-- A second failure, after the fallback was spent and WebRTC recovered. -/
theorem deadLinkShown_after_recovery :
    ¬ ∀ cs, FollowsProtocol cs → (controller.run .new cs).current = webRtcConnected →
      lastIceReport cs ≠ some .failed := by
  intro h
  refine h [.onIceStateChanged .failed, .onIceStateChanged .connected, .onIceStateChanged .failed]
    ?_ (by decide) (by decide)
  refine (followsProtocol_iff _).mpr ?_
  simp [Mealy.allSteps_cons, Mealy.allSteps_nil]

/-! ## Live calls -/

/-- After the run, `Abandoned` is shown although `Connected` is the last ICE
report. -/
def LiveCallAbandoned (cs : List ControllerCall) : Prop :=
  (controller.run .new cs).current.isAbandoned = true ∧ lastIceReport cs = some .connected

/-- The step that abandons a live call: the direct channel reports its failure
while `Connected` is the last ICE report. -/
def LiveCallDropped (s : ControllerState) (c : ControllerCall) : Prop :=
  s.ice = .connected ∧ c = .onDirectChannelResult false

/-- A coherent state that does not abandon a live call. -/
def CallKept (s : ControllerState) : Prop :=
  Coherent s ∧ (s.ice = .connected → s.current.isAbandoned = false)

theorem Transition.callKept {s t : ControllerState} {c : ControllerCall} (h : Transition s c t)
    (hs : CallKept s) (hc : ¬ LiveCallDropped s c) : CallKept t := by
  refine ⟨h.coherent hs.1, ?_⟩
  cases h with
  | iceConnected => intro _; rfl
  | iceFailed latch => intro _; rfl
  | iceFailedIgnored latch => exact nofun
  | iceOther x notUp notDown => exact fun ht => absurd ht notUp
  | directUp => intro _; rfl
  | directDown => exact fun ht => absurd ⟨ht, rfl⟩ hc
  | tickAbandon e phase due => exact fun ht => absurd ht (hs.1.connecting_ice phase)
  | tickFallback e phase latch due early => intro _; rfl
  | tickStatus e phase quiet due unsaid => intro _; rfl
  | tickQuiet e phase quiet said => exact hs.2
  | tickIgnored e phase => exact hs.2

theorem liveCallAbandoned_iff (cs : List ControllerCall) :
    LiveCallAbandoned cs ↔
      ¬ ((controller.run .new cs).ice = .connected →
        (controller.run .new cs).current.isAbandoned = false) := by
  rw [LiveCallAbandoned, ← run_new_ice_eq_iff (by decide), Classical.not_imp, and_comm,
    Bool.not_eq_false]

/-- **A run never abandons a live call exactly when the direct channel never
reports its failure while `Connected` is the last ICE report.** -/
theorem never_liveCallAbandoned_iff (cs : List ControllerCall) :
    (∀ pre, pre <+: cs → ¬ LiveCallAbandoned pre) ↔
      controller.AllSteps (fun s c => ¬ LiveCallDropped s c) .new cs := by
  have hexact := Mealy.allStates_iff_allSteps (M := controller) (I := CallKept)
    (Q := fun s => s.ice = .connected → s.current.isAbandoned = false)
    (G := fun s c => ¬ LiveCallDropped s c) (fun _ h => h.2)
    (fun s c hs hc => (next_transition s c).callKept hs hc)
    (fun s c _ hc => by
      obtain ⟨hice, rfl⟩ := not_not.mp hc
      intro hkept
      cases hkept hice)
    (s := .new) ⟨coherent_new, fun _ => rfl⟩ cs
  rw [← hexact]
  simp only [liveCallAbandoned_iff, not_not, Mealy.AllStates]

/-- WebRTC recovers after the fallback, then the direct channel attempt fails. -/
theorem liveCallAbandoned_after_recovery :
    ¬ ∀ cs, FollowsProtocol cs → lastIceReport cs = some .connected →
      (controller.run .new cs).current.isAbandoned = false := by
  intro h
  have hrun := h [.onIceStateChanged .failed, .onIceStateChanged .connected,
    .onDirectChannelResult false] ?_ (by decide)
  · revert hrun
    decide
  · refine (followsProtocol_iff _).mpr ?_
    simp [Mealy.allSteps_cons, Mealy.allSteps_nil, onIceStateChanged_failed_clear,
      ControllerState.new, onIceStateChanged_connected]

/-! ## What holds of every run -/

/-- The step enters the fallback. -/
def entersFallback (s : ControllerState) (c : ControllerCall) : Bool :=
  !s.current.isFallingBack && (controller.next s c).current.isFallingBack

theorem Transition.latch_mono {s t : ControllerState} {c : ControllerCall} (h : Transition s c t)
    (hs : s.fallbackTriggered = true) : t.fallbackTriggered = true := by
  cases h with
  | iceFailed latch => rfl
  | tickFallback e phase latch due early => rfl
  | _ => exact hs

/-- Entering the fallback needs the latch clear and sets it. -/
theorem Transition.entersFallback {s t : ControllerState} {c : ControllerCall}
    (h : Transition s c t) (hs : s.current.isFallingBack = false)
    (ht : t.current.isFallingBack = true) :
    s.fallbackTriggered = false ∧ t.fallbackTriggered = true := by
  cases h with
  | iceFailed latch => exact ⟨latch, rfl⟩
  | tickFallback e phase latch due early => exact ⟨latch, rfl⟩
  | iceFailedIgnored latch => rw [hs] at ht; cases ht
  | iceOther x notUp notDown => rw [hs] at ht; cases ht
  | tickQuiet e phase quiet said => rw [hs] at ht; cases ht
  | tickIgnored e phase => rw [hs] at ht; cases ht
  | _ => cases ht

theorem Transition.connecting {s t : ControllerState} {c : ControllerCall} (h : Transition s c t)
    (hs : s.current.isConnecting = false) : t.current.isConnecting = false := by
  cases h with
  | tickStatus e phase quiet due unsaid => rw [hs] at phase; cases phase
  | iceFailedIgnored latch => exact hs
  | iceOther x notUp notDown => exact hs
  | tickQuiet e phase quiet said => exact hs
  | tickIgnored e phase => exact hs
  | _ => rfl

/-- Every returned state is informative. -/
theorem outputs_informative (cs : List ControllerCall) :
    ∀ o ∈ controller.outputs .new cs, o.Informative :=
  coherent_preserves.outputs
    (fun s c hs => by
      rw [controller_out]
      exact ((next_transition s c).coherent hs).informative) coherent_new cs

/-- Once the controller has left `Connecting`, no call returns it. -/
theorem outputs_not_connecting {s : ControllerState} (hs : s.current.isConnecting = false)
    (cs : List ControllerCall) :
    ∀ o ∈ controller.outputs s cs, o.isConnecting = false :=
  Mealy.Preserves.outputs (I := fun s => s.current.isConnecting = false)
    (fun s c hs => (next_transition s c).connecting hs)
    (fun s c hs => by
      rw [controller_out]
      exact (next_transition s c).connecting hs) hs cs

theorem outputs_connecting_pairwise (s : ControllerState) (cs : List ControllerCall) :
    (controller.outputs s cs).Pairwise
      fun o o' => o.isConnecting = false → o'.isConnecting = false := by
  induction cs generalizing s with
  | nil => exact List.Pairwise.nil
  | cons c cs ih =>
    refine List.Pairwise.cons (fun o' ho' hc => ?_) (ih _)
    rw [controller_out] at hc
    exact outputs_not_connecting hc cs o' ho'

/-- **In every run**: the fallback is entered at most once; every fallback asks
for fresh signaling; every status and every reason is there to be read; and after
any other state `Connecting` does not come back. -/
theorem fallback_once_fresh_visible (cs : List ControllerCall) :
    controller.count entersFallback .new cs ≤ 1 ∧
    (∀ status fresh, fallingBackToDirectChannel status fresh ∈ controller.outputs .new cs →
      fresh = true ∧ status ≠ "") ∧
    (∀ status, connecting status ∈ controller.outputs .new cs → status ≠ "") ∧
    (∀ reason, abandoned reason ∈ controller.outputs .new cs → reason ≠ "") ∧
    (controller.outputs .new cs).Pairwise
      (fun o o' => o.isConnecting = false → o'.isConnecting = false) := by
  have hinf := outputs_informative cs
  refine ⟨?_, fun status fresh h => ?_, fun status h => hinf _ h, fun reason h => hinf _ h,
    outputs_connecting_pairwise _ cs⟩
  · refine Mealy.count_le_one (L := fun s => s.fallbackTriggered) coherent_preserves
      (fun s c hs => (next_transition s c).latch_mono hs) (fun s c _ hP => ?_) coherent_new cs
    obtain ⟨hs, ht⟩ := Bool.and_eq_true_iff.mp hP
    exact (next_transition s c).entersFallback (by simpa using hs) ht
  · exact ⟨(hinf _ h).2, (hinf _ h).1⟩

end CtAgentAndroid
