import CtAgentAndroid.TransportProgress

/-! # The states a call can be in

The invariants of the other modules are each implied by one, `Possible`, which says
of every variant what the fields behind it and its text can be.  Nothing is missing
from it: every possible state is reached, by the calls of `path`, and if it shows a
result of the direct channel with the latch set, by calls that follow the protocol
(`reachable_iff`).

What becomes of a call that goes on connecting depends on the timer.  A `Steady`
one, whose ticks are no further apart than 14 seconds, meets the window between
`FALLBACK_TRIGGER_MS` and `ABANDON_MS`, so that the direct channel is offered before
the call is given up; under a slower one it need not be
(`abandoned_after_offer_iff`).
-/
namespace CtAgentAndroid
open Automaton ControllerState ControllerCall TransportState

/-! ## Possible states -/

/-- The four texts behind a transition. -/
def failedStatus : String := "WebRTC connection failed, trying direct channel…"
def slowStatus : String := "Still connecting via WebRTC, trying direct channel…"
def bothFailed : String := "Both WebRTC and the direct channel failed to connect."
def timedOut : String := "Timed out waiting for a connection."

/-- What the fields can be behind a visible state. -/
def ControllerState.Possible (s : ControllerState) : Prop :=
  match s.current with
  | connecting status =>
    s.fallbackTriggered = false ∧ (s.ice = .new ∨ s.ice = .disconnected) ∧
      status = if s.earlyStatusEmitted then "Still connecting…" else "Connecting…"
  | webRtcConnected => s.ice = .failed → s.fallbackTriggered = true
  | fallingBackToDirectChannel status needsFreshSignaling =>
    s.fallbackTriggered = true ∧ s.ice ≠ .connected ∧ needsFreshSignaling = true ∧
      (status = failedStatus ∨ status = slowStatus)
  | directChannelConnected => s.ice = .failed → s.fallbackTriggered = true
  | abandoned reason =>
    (reason = bothFailed ∧ (s.ice = .failed → s.fallbackTriggered = true)) ∨
      (reason = timedOut ∧ s.fallbackTriggered = false ∧
        (s.ice = .new ∨ s.ice = .disconnected))

theorem eq_new_or_disconnected {x : IceConnectionState} (notUp : x ≠ .connected)
    (notDown : x ≠ .failed) : x = .new ∨ x = .disconnected := by
  cases x with
  | new => exact .inl rfl
  | connected => exact absurd rfl notUp
  | failed => exact absurd rfl notDown
  | disconnected => exact .inr rfl

theorem Transition.possible {s t : ControllerState} {c : ControllerCall} (h : Transition s c t)
    (hs : s.Possible) : t.Possible := by
  obtain ⟨current, ice, fallbackTriggered, earlyStatusEmitted⟩ := s
  cases h with
  | iceConnected => exact nofun
  | iceFailed latch => exact ⟨rfl, nofun, rfl, .inl rfl⟩
  | iceFailedIgnored latch =>
    -- with the latch set the call is not connecting, and has not timed out
    cases current with
    | connecting status => exact absurd (latch.symm.trans hs.1) nofun
    | webRtcConnected => exact fun _ => latch
    | fallingBackToDirectChannel status fresh => exact ⟨latch, nofun, hs.2.2⟩
    | directChannelConnected => exact fun _ => latch
    | abandoned reason =>
      rcases hs with ⟨hreason, -⟩ | ⟨-, hclear, -⟩
      · exact .inl ⟨hreason, fun _ => latch⟩
      · exact absurd (latch.symm.trans hclear) nofun
  | iceOther x notUp notDown =>
    cases current with
    | connecting status => exact ⟨hs.1, eq_new_or_disconnected notUp notDown, hs.2.2⟩
    | webRtcConnected => exact fun hx => absurd hx notDown
    | fallingBackToDirectChannel status fresh => exact ⟨hs.1, notUp, hs.2.2⟩
    | directChannelConnected => exact fun hx => absurd hx notDown
    | abandoned reason =>
      rcases hs with ⟨hreason, -⟩ | ⟨hreason, hclear, -⟩
      · exact .inl ⟨hreason, fun hx => absurd hx notDown⟩
      · exact .inr ⟨hreason, hclear, eq_new_or_disconnected notUp notDown⟩
  | directUp | directDown =>
    -- a failed link has set the latch, whatever was shown
    have hfailed : ice = .failed → fallbackTriggered = true := by
      rintro rfl
      cases current with
      | connecting status => rcases hs.2.1 with h | h <;> cases h
      | webRtcConnected => exact hs rfl
      | fallingBackToDirectChannel status fresh => exact hs.1
      | directChannelConnected => exact hs rfl
      | abandoned reason =>
        rcases hs with ⟨-, hlatch⟩ | ⟨-, -, h | h⟩
        · exact hlatch rfl
        · cases h
        · cases h
    first | exact hfailed | exact .inl ⟨rfl, hfailed⟩
  | tickAbandon e phase due =>
    cases current with
    | connecting status => exact .inr ⟨rfl, hs.1, hs.2.1⟩
    | _ => cases phase
  | tickFallback e phase latch due early =>
    cases current with
    | connecting status =>
      refine ⟨rfl, ?_, rfl, .inr rfl⟩
      rintro rfl
      rcases hs.2.1 with h | h <;> cases h
    | _ => cases phase
  | tickStatus e phase quiet due unsaid =>
    cases current with
    | connecting status => exact ⟨hs.1, hs.2.1, rfl⟩
    | _ => cases phase
  | tickQuiet e phase quiet said => exact hs
  | tickIgnored e phase => exact hs

theorem possible_run (cs : List ControllerCall) : (controller.run .new cs).Possible :=
  Mealy.Preserves.run (fun s c hs => (next_transition s c).possible hs)
    (show ControllerState.new.Possible from ⟨rfl, .inl rfl, rfl⟩) cs

/-! ## A path to every possible state -/

namespace ControllerState

/-- Ticks that set the two one-shot flags as they are in `s`, while connecting. -/
def flags (s : ControllerState) : List ControllerCall :=
  (if s.earlyStatusEmitted then [.onTick EARLY_STATUS_MS] else []) ++
    (if s.fallbackTriggered then [.onTick FALLBACK_TRIGGER_MS] else [])

/-- Calls that lead from a new controller to a possible state. -/
def path (s : ControllerState) : List ControllerCall :=
  match s.current with
  | connecting _ => s.flags ++ [.onIceStateChanged s.ice]
  | webRtcConnected => s.flags ++ [.onIceStateChanged .connected, .onIceStateChanged s.ice]
  | fallingBackToDirectChannel status _ =>
    if status = slowStatus then s.flags ++ [.onIceStateChanged s.ice]
    else { s with fallbackTriggered := false }.flags ++
      [.onIceStateChanged .failed, .onIceStateChanged s.ice]
  | directChannelConnected => s.flags ++ [.onIceStateChanged s.ice] ++ [.onDirectChannelResult true]
  | abandoned reason =>
    if reason = bothFailed then
      s.flags ++ [.onIceStateChanged s.ice] ++ [.onDirectChannelResult false]
    else s.flags ++ [.onIceStateChanged s.ice] ++ [.onTick ABANDON_MS]

end ControllerState

theorem run_path {s : ControllerState} (h : s.Possible) : controller.run .new s.path = s := by
  obtain ⟨current, ice, fallbackTriggered, earlyStatusEmitted⟩ := s
  cases current with
  | connecting status =>
    obtain ⟨rfl, hice, hstatus⟩ := h
    change status = if earlyStatusEmitted then _ else _ at hstatus
    subst hstatus
    rcases hice with rfl | rfl <;> cases earlyStatusEmitted <;> decide
  | webRtcConnected =>
    cases ice <;> cases fallbackTriggered <;> cases earlyStatusEmitted <;>
      first | decide | exact absurd (h rfl) nofun
  | fallingBackToDirectChannel status fresh =>
    obtain ⟨rfl, hice, rfl, rfl | rfl⟩ := h <;> cases ice <;> cases earlyStatusEmitted <;>
      first | decide | exact absurd rfl hice
  | directChannelConnected =>
    cases ice <;> cases fallbackTriggered <;> cases earlyStatusEmitted <;>
      first | decide | exact absurd (h rfl) nofun
  | abandoned reason =>
    rcases h with ⟨rfl, hlatch⟩ | ⟨rfl, rfl, rfl | rfl⟩
    · cases ice <;> cases fallbackTriggered <;> cases earlyStatusEmitted <;>
        first | decide | exact absurd (hlatch rfl) nofun
    · cases earlyStatusEmitted <;> decide
    · cases earlyStatusEmitted <;> decide

/-- The direct channel has been reported, one way or the other. -/
def TransportState.ShowsDirectResult (t : TransportState) : Prop :=
  t = directChannelConnected ∨ t = abandoned bothFailed

theorem followsProtocol_of_no_result {cs : List ControllerCall}
    (h : ∀ r, .onDirectChannelResult r ∉ cs) : FollowsProtocol cs :=
  fun pre r hpre => absurd (hpre.subset (List.mem_append_right pre (List.mem_singleton_self _)))
    (h r)

theorem followsProtocol_concat {cs : List ControllerCall} (h : FollowsProtocol cs)
    (hlatch : (controller.run .new cs).fallbackTriggered = true) (r : Bool) :
    FollowsProtocol (cs ++ [.onDirectChannelResult r]) := by
  intro pre r' hpre
  rcases List.prefix_concat_iff.mp hpre with heq | hpre
  · obtain ⟨rfl, -⟩ := List.append_inj' heq rfl
    exact (latch_iff_offered pre).mp hlatch
  · exact h pre r' hpre

theorem no_result_in_flags (s : ControllerState) (r : Bool) :
    .onDirectChannelResult r ∉ s.flags := by
  rw [flags]
  split <;> split <;> simp

/-- The calls of the path that end in a result of the direct channel. -/
theorem followsProtocol_result {s : ControllerState} (hlatch : s.fallbackTriggered = true)
    (r : Bool) :
    FollowsProtocol (s.flags ++ [.onIceStateChanged s.ice] ++ [.onDirectChannelResult r]) := by
  refine followsProtocol_concat (followsProtocol_of_no_result fun r' hmem => ?_) ?_ r
  · rcases List.mem_append.mp hmem with hmem | hmem
    · exact no_result_in_flags s r' hmem
    · cases List.mem_singleton.mp hmem
  · obtain ⟨current, ice, fallbackTriggered, earlyStatusEmitted⟩ := s
    obtain rfl : fallbackTriggered = true := hlatch
    show (controller.run .new (flags ⟨current, ice, true, earlyStatusEmitted⟩ ++
      [.onIceStateChanged ice])).fallbackTriggered = true
    cases ice <;> cases earlyStatusEmitted <;> rfl

theorem followsProtocol_path {s : ControllerState}
    (h : s.current.ShowsDirectResult → s.fallbackTriggered = true) : FollowsProtocol s.path := by
  have quiet : ∀ {t : ControllerState} {cs : List ControllerCall},
      (∀ r, .onDirectChannelResult r ∉ cs) → FollowsProtocol (t.flags ++ cs) := fun hcs =>
    followsProtocol_of_no_result fun r hmem =>
      (List.mem_append.mp hmem).elim (no_result_in_flags _ r) (hcs r)
  unfold path
  split
  · exact quiet (by simp)
  · exact quiet (by simp)
  · split
    · exact quiet (by simp)
    · exact quiet (by simp)
  · next hcurrent => exact followsProtocol_result (h (.inl hcurrent)) true
  · next hcurrent =>
    split
    · next hreason =>
      subst hreason
      exact followsProtocol_result (h (.inr hcurrent)) false
    · rw [List.append_assoc]
      exact quiet (by simp)

/-- In a run that follows the protocol, a result of the direct channel is shown
with the latch set. -/
theorem result_latched {cs : List ControllerCall} (h : FollowsProtocol cs)
    (hshown : (controller.run .new cs).current.ShowsDirectResult) :
    (controller.run .new cs).fallbackTriggered = true := by
  have hlatched : controller.AllStates
      (fun s => s.current.ShowsDirectResult → s.fallbackTriggered = true) .new cs := by
    refine Mealy.allStates_of_allSteps (fun s c hs hc => ?_) ?_ ((followsProtocol_iff cs).mp h)
    · have hstep := next_transition s c
      generalize controller.next s c = t at hstep ⊢
      cases hstep with
      | iceFailed latch => exact fun _ => rfl
      | iceFailedIgnored latch => exact fun _ => latch
      | directUp => exact fun _ => hc true rfl
      | directDown => exact fun _ => hc false rfl
      | iceConnected => rintro (h | h) <;> cases h
      | tickAbandon e phase due =>
        rintro (h | h)
        · cases h
        · exact absurd (abandoned.inj h) (by decide)
      | tickFallback e phase latch due early => exact fun _ => rfl
      | tickStatus e phase quiet due unsaid => rintro (h | h) <;> cases h
      | _ => exact hs
    · rintro (h | h) <;> cases h
  exact hlatched cs (List.prefix_refl cs) hshown

/-- **The reachable states.**  Calls in any order lead exactly to the possible
states; calls that follow the protocol, exactly to those that show a result of the
direct channel only with the latch set. -/
theorem reachable_iff (s : ControllerState) :
    ((∃ cs, controller.run .new cs = s) ↔ s.Possible) ∧
      ((∃ cs, FollowsProtocol cs ∧ controller.run .new cs = s) ↔
        s.Possible ∧ (s.current.ShowsDirectResult → s.fallbackTriggered = true)) := by
  refine ⟨⟨?_, fun h => ⟨s.path, run_path h⟩⟩, ⟨?_, ?_⟩⟩
  · rintro ⟨cs, rfl⟩
    exact possible_run cs
  · rintro ⟨cs, hcs, rfl⟩
    exact ⟨possible_run cs, result_latched hcs⟩
  · rintro ⟨h, hresult⟩
    exact ⟨s.path, followsProtocol_path hresult, run_path h⟩

/-! ## The timer -/

/-- The ticks of a timer that starts at `last` and is read every `gap`
milliseconds at the latest. -/
def Steady (gap : Nat) : Nat → List ControllerCall → Prop
  | _, [] => True
  | last, .onTick e :: cs => last ≤ e.toNat ∧ e.toNat ≤ last + gap ∧ Steady gap e.toNat cs
  | last, .onIceStateChanged _ :: cs => Steady gap last cs
  | last, .onDirectChannelResult _ :: cs => Steady gap last cs

/-- The call has timed out without an offer of the direct channel. -/
def ControllerState.TimedOut (s : ControllerState) : Prop := s.current = abandoned timedOut

/-- A call that is still connecting was last seen before the fallback, so that a
timer that is not too slow sees it in time. -/
theorem steady_run {gap : Nat} (hgap : gap ≤ 14000) {cs : List ControllerCall} {last : Nat}
    {s : ControllerState} (hs : Coherent s) (ht : ¬ s.TimedOut)
    (hlast : s.current.isConnecting = true → last < 6000) (hcs : Steady gap last cs) :
    ¬ (controller.run s cs).TimedOut := by
  induction cs generalizing s last with
  | nil => exact ht
  | cons c cs ih =>
    have hstep := next_transition s c
    have hnext := hstep.coherent hs
    rw [Mealy.run_cons]
    generalize controller.next s c = t at hstep hnext ⊢
    have seen : ∀ e, c = .onTick e → t.current.isConnecting = true → e.toNat < 6000 := by
      rintro e rfl hc
      exact UInt64.lt_iff_toNat_lt.mp (hstep.tick_connecting hs hc).1
    have other : t.current = s.current → Steady gap last cs →
        ¬ (controller.run t cs).TimedOut := fun hsame hcs =>
      ih hnext (fun h => ht (hsame.symm.trans h)) (by rwa [hsame]) hcs
    cases hstep with
    | iceConnected => exact ih hnext nofun nofun hcs
    | iceFailed latch => exact ih hnext nofun nofun hcs
    | iceFailedIgnored latch => exact other rfl hcs
    | iceOther x notUp notDown => exact other rfl hcs
    | directUp => exact ih hnext nofun nofun hcs
    | directDown =>
      exact ih hnext (fun h => absurd (abandoned.inj h) (by decide)) nofun hcs
    | tickAbandon e phase due =>
      have hlt := hlast phase
      have hdue : 20000 ≤ e.toNat := UInt64.le_iff_toNat_le.mp due
      obtain ⟨-, hle, -⟩ := hcs
      omega
    | tickFallback e phase latch due early => exact ih hnext nofun nofun hcs.2.2
    | tickStatus e phase quiet due unsaid => exact ih hnext nofun (seen e rfl) hcs.2.2
    | tickQuiet e phase quiet said => exact ih hnext ht (seen e rfl) hcs.2.2
    | tickIgnored e phase =>
      exact ih hnext ht (fun h => absurd (phase.symm.trans h) nofun) hcs.2.2

/-- **How slow a timer may be.**  Under the protocol and a timer read every `gap`
milliseconds, a call is abandoned only after the direct channel was offered; this
is so exactly when `gap` is at most the time between `FALLBACK_TRIGGER_MS` and
`ABANDON_MS`. -/
theorem abandoned_after_offer_iff (gap : Nat) :
    (∀ cs, FollowsProtocol cs → Steady gap 0 cs →
      (controller.run .new cs).current.isAbandoned = true →
        ∃ o ∈ controller.outputs .new cs, o.isFallingBack = true) ↔ gap ≤ 14000 := by
  constructor
  · intro h
    by_contra hgap
    -- one tick just before the fallback, the next when it is too late
    have hsteady : Steady gap 0 [.onTick 5999, .onTick 20000] :=
      ⟨Nat.zero_le _, show 5999 ≤ 0 + gap by omega, show 5999 ≤ 20000 by decide,
        show 20000 ≤ 5999 + gap by omega, trivial⟩
    have hoffered := h _ (followsProtocol_of_no_result (by simp)) hsteady (by decide)
    exact absurd hoffered (by decide)
  · intro hgap cs hcs hsteady habandoned
    have htime := steady_run hgap coherent_new nofun (fun _ => by decide) hsteady
    rw [← latch_iff_offered]
    have hpossible := possible_run cs
    have hresult := result_latched hcs
    generalize controller.run .new cs = s at *
    obtain ⟨current, ice, fallbackTriggered, earlyStatusEmitted⟩ := s
    cases current with
    | abandoned reason =>
      rcases hpossible with ⟨rfl, -⟩ | ⟨rfl, -⟩
      · exact hresult (.inr rfl)
      · exact absurd rfl htime
    | _ => cases habandoned

end CtAgentAndroid
