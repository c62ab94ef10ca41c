import CtAgentAndroid.TransportRuns

/-! # Giving a call up

`Abandoned` is entered on two routes: a tick past `ABANDON_MS` on an attempt that
is still connecting, and the direct channel reporting its failure.  Only the
second goes through the fallback.  A caller that ticks often enough never takes
the first one, since a tick past `FALLBACK_TRIGGER_MS` comes before; a caller
whose first tick is late does, and gives the call up without ever having offered
the direct channel (`abandoned_only_offered_iff`).  Such a call is also the only
one that bad news revives (`stays_abandoned_iff`).

Past the deadline nothing is left connecting; what can still be pending is an
offered direct channel without a result, which time does not bound
(`overdue_tick`).
-/
namespace CtAgentAndroid
open Automaton ControllerState ControllerCall TransportState

/-! ## The deadline -/

/-- A step into the fallback, or one inside it that brings no answer. -/
theorem Transition.fallingBack_iff {s t : ControllerState} {c : ControllerCall}
    (h : Transition s c t) :
    t.current.isFallingBack = true ↔
      (s.current.isFallingBack = false ∧ t.current.isFallingBack = true) ∨
      (s.current.isFallingBack = true ∧ c.report.isAnswer = false) := by
  cases hs : s.current.isFallingBack with
  | false => simp
  | true =>
    have hphase : s.current.isConnecting = false := isConnecting_of_isFallingBack hs
    cases h with
    | iceConnected => simp [isFallingBack, report, Report.isAnswer]
    | iceFailed latch => simp [isFallingBack, report, Report.isAnswer]
    | iceFailedIgnored latch => simp [hs, report, Report.isAnswer]
    | iceOther x notUp notDown => cases x <;> simp_all [report, Report.isAnswer]
    | directUp => simp [isFallingBack, report, Report.isAnswer]
    | directDown => simp [isFallingBack, report, Report.isAnswer]
    | tickAbandon e phase due => rw [hphase] at phase; cases phase
    | tickFallback e phase latch due early => rw [hphase] at phase; cases phase
    | tickStatus e phase quiet due unsaid => rw [hphase] at phase; cases phase
    | tickQuiet e phase quiet said => simp [hs, report, Report.isAnswer]
    | tickIgnored e phase => simp [hs, report, Report.isAnswer]

/-- The direct channel was offered, and since then neither it nor WebRTC has
answered. -/
def OfferPending (cs : List ControllerCall) : Prop :=
  ∃ pre c post, cs = pre ++ c :: post ∧
    (controller.run .new pre).current.isFallingBack = false ∧
    (controller.run .new (pre ++ [c])).current.isFallingBack = true ∧
    ∀ d ∈ post, d.report.isAnswer = false

/-- The controller is falling back exactly while the offer is pending. -/
theorem fallingBack_iff_offerPending (cs : List ControllerCall) :
    (controller.run .new cs).current.isFallingBack = true ↔ OfferPending cs := by
  induction cs using List.reverseRecOn with
  | nil =>
    constructor
    · intro h
      cases h
    · rintro ⟨pre, c, post, h, -⟩
      simp at h
  | append_singleton cs c ih =>
    have hrun : controller.run .new (cs ++ [c]) = controller.next (controller.run .new cs) c := by
      simp
    rw [hrun, (next_transition _ c).fallingBack_iff, ← hrun, ih]
    -- the last call either makes the offer itself or leaves it without an answer
    constructor
    · rintro (⟨hs, ht⟩ | ⟨⟨pre, d, post, rfl, hs, ht, hpost⟩, hc⟩)
      · exact ⟨cs, c, [], rfl, hs, ht, by simp⟩
      · refine ⟨pre, d, post ++ [c], by simp, hs, ht, fun e he => ?_⟩
        rcases List.mem_append.mp he with he | he
        · exact hpost e he
        · rwa [List.mem_singleton.mp he]
    · rintro ⟨pre, d, post, heq, hs, ht, hpost⟩
      rcases List.eq_nil_or_concat post with rfl | ⟨post, e, rfl⟩
      · obtain ⟨rfl, hdc⟩ := List.append_inj' heq rfl
        obtain rfl : c = d := by simpa using hdc
        exact Or.inl ⟨hs, ht⟩
      · rw [List.concat_eq_append, ← List.cons_append, ← List.append_assoc] at heq
        obtain ⟨rfl, hec⟩ := List.append_inj' heq rfl
        obtain rfl : c = e := by simpa using hec
        exact Or.inr ⟨⟨pre, d, post, rfl, hs, ht, fun e he => hpost e (by simp [he])⟩,
          hpost c (by simp)⟩

/-- **Past the deadline.**  A tick at or after `ABANDON_MS` never returns
`Connecting`: an attempt still connecting becomes `Abandoned`.  It returns
`FallingBackToDirectChannel` exactly when the direct channel was offered and has
not been answered, and then it changes nothing. -/
theorem overdue_tick (cs : List ControllerCall) (e : UInt64) (he : ABANDON_MS ≤ e) :
    let s := controller.run .new cs
    let r := controller.out s (.onTick e)
    r.isConnecting = false ∧
    (s.current.isConnecting = true → r = abandoned "Timed out waiting for a connection.") ∧
    (r.isFallingBack = true ↔ s.current.isFallingBack = true) ∧
    (s.current.isFallingBack = true ↔ OfferPending cs) ∧
    (s.current.isFallingBack = true → controller.next s (.onTick e) = s) := by
  intro s r
  have hr : r = (controller.next s (.onTick e)).current := controller_out s _
  rcases Bool.eq_false_or_eq_true s.current.isConnecting with hc | hc
  · have hnf : s.current.isFallingBack = false := by
      by_contra hf
      rw [isConnecting_of_isFallingBack (Bool.not_eq_false _ ▸ hf)] at hc
      cases hc
    rw [controller_next_tick, onTick_abandon hc he] at hr
    refine ⟨by rw [hr]; rfl, fun _ => hr, by rw [hr, hnf]; simp [isFallingBack],
      fallingBack_iff_offerPending cs, fun h => ?_⟩
    rw [hnf] at h
    cases h
  · rw [controller_next_tick, onTick_of_not_connecting hc] at hr
    refine ⟨by rw [hr, hc], fun h => ?_, by rw [hr], fallingBack_iff_offerPending cs, fun _ => ?_⟩
    · rw [hc] at h
      cases h
    · rw [controller_next_tick, onTick_of_not_connecting hc]

theorem overdue_tick_offered :
    let s := controller.run .new [.onTick 6000]
    let r := controller.out s (.onTick 20000)
    r.isConnecting = false ∧
    (s.current.isConnecting = true → r = abandoned "Timed out waiting for a connection.") ∧
    (r.isFallingBack = true ↔ s.current.isFallingBack = true) ∧
    (s.current.isFallingBack = true ↔ OfferPending [.onTick 6000]) ∧
    (s.current.isFallingBack = true → controller.next s (.onTick 20000) = s) :=
  overdue_tick [.onTick 6000] 20000 (by decide)

/-- The fallback offered at six seconds is still pending at twenty. -/
theorem overdue_tick_pending :
    ¬ ∀ (cs : List ControllerCall) (e : UInt64), ABANDON_MS ≤ e →
      (controller.out (controller.run .new cs) (.onTick e)).isConnecting = false ∧
      (controller.out (controller.run .new cs) (.onTick e)).isFallingBack = false := by
  intro h
  have hpending := (h [.onTick 6000] 20000 (by decide)).2
  revert hpending
  decide

/-! ## Bad news -/

/-- A call that brings no good news: any tick, any ICE report but `Connected`, a
failed direct channel. -/
def ControllerCall.isBadNews : ControllerCall → Bool
  | onTick _ => true
  | onIceStateChanged ice => ice ≠ .connected
  | onDirectChannelResult connected => !connected

theorem report_isBadNews (c : ControllerCall) : c.report.isBadNews = c.isBadNews := by
  cases c with
  | onIceStateChanged ice => cases ice <;> rfl
  | onDirectChannelResult connected => rfl
  | onTick elapsedMs => rfl

theorem primaryDown_mem_iff (cs : List ControllerCall) :
    Report.primaryDown ∈ cs.map report ↔ .onIceStateChanged .failed ∈ cs := by
  rw [List.mem_map]
  constructor
  · rintro ⟨c, hc, hr⟩
    cases c with
    | onIceStateChanged ice => cases ice <;> first | exact hc | cases hr
    | onDirectChannelResult connected => cases hr
    | onTick elapsedMs => cases hr
  · exact fun h => ⟨_, h, rfl⟩

/-- **When an abandoned call stays abandoned.**  After a run that abandoned the
call, it stays abandoned throughout further bad news exactly when the direct
channel had been offered before, or the bad news contains no `Failed`. -/
theorem stays_abandoned_iff (cs k : List ControllerCall)
    (hcs : (controller.run .new cs).current.isAbandoned = true)
    (hk : ∀ c ∈ k, c.isBadNews = true) :
    (∀ pre, pre <+: k → (controller.run .new (cs ++ pre)).current.isAbandoned = true) ↔
      ((∃ o ∈ controller.outputs .new cs, o.isFallingBack = true) ∨
        .onIceStateChanged .failed ∉ k) := by
  have hbad : ∀ r ∈ k.map report, r.isBadNews = true := by
    intro r hr
    obtain ⟨c, hc, rfl⟩ := List.mem_map.mp hr
    rw [report_isBadNews]
    exact hk c hc
  have hexact := Attempt.stays_givenUp_iff (a := (controller.run .new cs).attempt)
    ((isAbandoned_iff _).mp hcs) hbad
  rw [controller_simulates.allStates_iff, primaryDown_mem_iff] at hexact
  have hspent : (controller.run .new cs).attempt.spent =
      (controller.run .new cs).fallbackTriggered := rfl
  rw [hspent] at hexact
  rw [← latch_iff_offered, ← hexact]
  simp only [Mealy.run_append, isAbandoned_iff, Mealy.AllStates, attempt]

/-- A call abandoned after a fallback, and a `Failed` that does not revive it. -/
theorem stays_abandoned_after_fallback :
    (∀ pre, pre <+: [ControllerCall.onIceStateChanged .failed] →
      (controller.run .new ([.onIceStateChanged .failed, .onDirectChannelResult false] ++ pre)
        ).current.isAbandoned = true) ↔
      ((∃ o ∈ controller.outputs .new [.onIceStateChanged .failed, .onDirectChannelResult false],
          o.isFallingBack = true) ∨
        .onIceStateChanged .failed ∉ [ControllerCall.onIceStateChanged .failed]) :=
  stays_abandoned_iff _ _ (by decide) (by decide)

/-- A call abandoned by a late first tick is revived by `Failed`. -/
theorem revived_after_timeout :
    ¬ ∀ cs k, FollowsProtocol (cs ++ k) →
      (controller.run .new cs).current.isAbandoned = true → (∀ c ∈ k, c.isBadNews = true) →
        (controller.run .new (cs ++ k)).current.isAbandoned = true := by
  intro h
  have hrevived := h [.onTick 20000] [.onIceStateChanged .failed] ?_ (by decide) (by decide)
  · revert hrevived
    decide
  · refine (followsProtocol_iff _).mpr ?_
    simp [Mealy.allSteps_cons, Mealy.allSteps_nil]

/-! ## The offer before giving up -/

/-- The step that gives a call up without an offer: a tick past the deadline on
an attempt that is still connecting. -/
def UnofferedTimeout (s : ControllerState) (c : ControllerCall) : Prop :=
  s.current.isConnecting = true ∧ ∃ e, ABANDON_MS ≤ e ∧ c = .onTick e

/-- A coherent state whose call was given up only after an offer. -/
def GivenUpOffered (s : ControllerState) : Prop :=
  Coherent s ∧ (s.current.isAbandoned = true → s.fallbackTriggered = true)

theorem Transition.givenUpOffered {s t : ControllerState} {c : ControllerCall}
    (h : Transition s c t) (hs : GivenUpOffered s)
    (hproto : ∀ r, c = .onDirectChannelResult r → s.fallbackTriggered = true)
    (hc : ¬ UnofferedTimeout s c) : GivenUpOffered t := by
  refine ⟨h.coherent hs.1, ?_⟩
  cases h with
  | iceConnected => exact nofun
  | iceFailed latch => intro _; rfl
  | iceFailedIgnored latch => exact fun _ => latch
  | iceOther x notUp notDown => exact hs.2
  | directUp => exact nofun
  | directDown => exact fun _ => hproto false rfl
  | tickAbandon e phase due => exact absurd ⟨phase, e, due, rfl⟩ hc
  | tickFallback e phase latch due early => intro _; rfl
  | tickStatus e phase quiet due unsaid => exact nofun
  | tickQuiet e phase quiet said => exact hs.2
  | tickIgnored e phase => exact hs.2

/-- **A run gives a call up only after offering the direct channel exactly when
no tick past `ABANDON_MS` finds it still connecting.** -/
theorem abandoned_only_offered_iff (cs : List ControllerCall) (hcs : FollowsProtocol cs) :
    (∀ pre, pre <+: cs → (controller.run .new pre).current.isAbandoned = true →
      ∃ o ∈ controller.outputs .new pre, o.isFallingBack = true) ↔
      controller.AllSteps (fun s c => ¬ UnofferedTimeout s c) .new cs := by
  have hexact := Mealy.allStates_iff_allSteps_under (M := controller) (I := GivenUpOffered)
    (Q := fun s => s.current.isAbandoned = true → s.fallbackTriggered = true)
    (G := fun s c => ¬ UnofferedTimeout s c) (fun _ h => h.2)
    (fun s c hs hA hc => (next_transition s c).givenUpOffered hs hA hc)
    (fun s c hs _ hc => by
      obtain ⟨hphase, e, he, rfl⟩ := not_not.mp hc
      rw [controller_next_tick, onTick_abandon hphase he]
      -- still connecting, so nothing has been offered yet
      intro hoffered
      have hlatch := hoffered rfl
      rw [hs.1.connecting_latch hphase] at hlatch
      cases hlatch)
    (s := .new) ⟨coherent_new, fun h => by cases h⟩ ((followsProtocol_iff cs).mp hcs)
  rw [← hexact]
  simp only [Mealy.AllStates, latch_iff_offered]

theorem abandoned_only_offered_failed :
    (∀ pre, pre <+: [.onIceStateChanged .failed, .onDirectChannelResult false] →
      (controller.run .new pre).current.isAbandoned = true →
        ∃ o ∈ controller.outputs .new pre, o.isFallingBack = true) ↔
      controller.AllSteps (fun s c => ¬ UnofferedTimeout s c) .new
        [.onIceStateChanged .failed, .onDirectChannelResult false] := by
  refine abandoned_only_offered_iff _ ((followsProtocol_iff _).mpr ?_)
  simp [Mealy.allSteps_cons, Mealy.allSteps_nil, onIceStateChanged_failed_clear,
    ControllerState.new]

/-- A first tick at twenty seconds gives the call up with nothing offered. -/
theorem abandoned_unoffered :
    ¬ ∀ cs, FollowsProtocol cs → (controller.run .new cs).current.isAbandoned = true →
      ∃ o ∈ controller.outputs .new cs, o.isFallingBack = true := by
  intro h
  have hoffered := h [.onTick 20000] ?_ (by decide)
  · revert hoffered
    decide
  · refine (followsProtocol_iff _).mpr ?_
    simp [Mealy.allSteps_cons, Mealy.allSteps_nil]

end CtAgentAndroid
