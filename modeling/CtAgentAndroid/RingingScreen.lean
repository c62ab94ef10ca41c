import CtAgentAndroid.IncomingCallRuns

/-! # The ringing screen

The caller on screen and the caller that the notification answers to can differ.  The
screen stays as it is when another call comes in, so it is about the last caller exactly
in the runs where none does (`screen_agrees_iff`); while it is up, the actions of the
notification do nothing, and what answers a call answers it for good (`answered_for_good`).
Nothing else that the code does takes a notified call away (`notified_until_answered`).
-/
namespace CtAgentAndroid
open Automaton

variable {a : Android} {es : List (RingEvent a.Doing)} {e : RingEvent a.Doing} {s t : a.State}

/-! ## The screen -/

/-- The screen, if there is one, is that of a caller. -/
def ScreenFor (caller : Option String) (t : a.State) : Prop :=
  ∀ view, (a.seen t).ringing = some view → ∃ c, caller = some c ∧ view = buildRingingView c

/-- What a step makes of the screen. -/
theorem ScreenFor.next (hscreen : ScreenFor (lastShown es) s) (h : RingStep (lastShown es) s e t)
    (hother : ∀ c view, e = .show c → (a.seen s).ringing = some view → view.callerHex = c) :
    ScreenFor (lastShown (es ++ [e])) t := by
  intro view hview
  rw [lastShown_concat]
  obtain ⟨c, rfl, hshown⟩ | ⟨hshow, hlessens⟩ := h.shown_or_lessens
  · rw [hshown.ringing] at hview
    obtain ⟨d, -, rfl⟩ := hscreen view hview
    exact ⟨c, rfl, congrArg buildRingingView (hother c _ rfl hview)⟩
  · rw [hshow]
    obtain hview | ⟨-, hlast⟩ := hlessens.ringing view hview
    · exact hscreen view hview
    · exact hlast

/-- **When the screen is about the last caller.**  It always is in exactly the runs in
which no other caller is shown while one is on screen. -/
theorem screen_agrees_iff (h : a.Documented) (hs : a.Fresh s) (es : List (RingEvent a.Doing)) :
    (∀ pre, pre <+: es → ScreenFor (lastShown pre) ((incomingCalls a).run s pre)) ↔
      (incomingCalls a).AllSteps (fun t e => ∀ c view, e = .show c →
        (a.seen t).ringing = some view → view.callerHex = c) s es := by
  refine Mealy.prefixes_iff_allSteps (I := fun es t => Known es t ∧ ScreenFor (lastShown es) t)
    (fun _ _ hI => hI.2) (fun es e t hI hG => ?_) (fun es e t hI hG hQ => hG ?_)
    ⟨known_fresh hs, fun view hview => nomatch hs.ringing.symm.trans hview⟩ es
  · have hstep := hI.1.ringStep h e
    exact ⟨hI.1.next hstep, hI.2.next hstep hG⟩
  · rintro c view rfl hview
    have hshown := shown h (hI.1.carries c)
    obtain ⟨d, hd, rfl⟩ := hQ view (hshown.ringing.trans hview)
    rw [lastShown_concat] at hd
    exact (Option.some.inj hd).symm

/-- A call, its screen, and a second call. -/
def secondCall : List (RingEvent PlainDoing) := [.show "1c06", .fullScreen, .show "77ab"]

/-- With a theme that the screen's library takes, the second call finds the screen of the
first; with that of the manifest there is no screen to find. -/
theorem screen_agrees_secondCall :
    (¬ ∀ pre, pre <+: secondCall → ScreenFor (a := plainAndroid 33 .appCompat) (lastShown pre)
      ((incomingCalls (plainAndroid 33 .appCompat)).run PlainState.fresh pre)) ∧
    ∀ pre, pre <+: secondCall → ScreenFor (a := plainAndroid 33 .material) (lastShown pre)
      ((incomingCalls (plainAndroid 33 .material)).run PlainState.fresh pre) := by
  constructor
  · intro hall
    have hsteps := (screen_agrees_iff (plainAndroid_documented 33 .appCompat)
      (plainAndroid_fresh 33 .appCompat) secondCall).mp hall
    have hview := hsteps (secondCall.take 2) (.show "77ab") List.prefix_rfl "77ab" _ rfl rfl
    exact absurd hview (by decide)
  · refine (screen_agrees_iff (plainAndroid_documented 33 .material)
      (plainAndroid_fresh 33 .material) secondCall).mpr ?_
    refine Mealy.allSteps_cons _ |>.mpr ⟨?_, Mealy.allSteps_cons _ |>.mpr ⟨?_,
      Mealy.allSteps_cons _ |>.mpr ⟨?_, Mealy.allSteps_nil _⟩⟩⟩
    · rintro c view - hview
      cases hview
    · rintro c view - hview
      cases hview
    · rintro c view - hview
      cases hview

/-! ## Answering -/

/-- Sent from the notification. -/
def RingEvent.fromNotification {Doing : Type} : RingEvent Doing → Bool
  | .fullScreen => true
  | .action _ => true
  | _ => false

/-- There is neither a notification of a call nor a screen. -/
structure Silent (t : a.State) : Prop where
  notification : (a.seen t).notification NOTIFICATION_ID = none
  ringing : (a.seen t).ringing = none

theorem silent_of_answered
    (hseen : a.seen t = ((a.seen s).setNotification NOTIFICATION_ID none).setRinging none) :
    Silent t := by
  constructor <;> rw [hseen] <;> simp

/-- What answers a call ends it. -/
theorem RingStep.silent {last : Option String} (h : RingStep last s e t)
    (hanswers : AnswersCall s e) : Silent t := by
  cases h with
  | shown _ | served _ | rang _ _ _ _ | system _ => cases hanswers
  | answered _ hseen => exact silent_of_answered hseen
  | idle _ hnot _ => exact absurd hanswers hnot
  | threw hthrows _ => cases hthrows <;> cases hanswers

/-- Without another call, it stays silent. -/
theorem Silent.next {last : Option String} (hsilent : Silent s) (h : RingStep last s e t)
    (hshow : e.shownCaller = none) : Silent t := by
  obtain ⟨c, rfl, -⟩ | ⟨-, hlessens⟩ := h.shown_or_lessens
  · cases hshow
  · refine ⟨Option.eq_none_iff_forall_ne_some.mpr fun n hn => ?_,
      Option.eq_none_iff_forall_ne_some.mpr fun view hview => ?_⟩
    · exact nomatch hsilent.notification.symm.trans (hlessens.notification n hn)
    · obtain hview | ⟨hthere, -⟩ := hlessens.ringing view hview
      · exact nomatch hsilent.ringing.symm.trans hview
      · exact hthere hsilent.notification

theorem Silent.run (h : a.Documented) (hknown : Known es s) (hsilent : Silent s)
    {later : List (RingEvent a.Doing)} (hlater : ∀ e ∈ later, e.shownCaller = none) :
    Silent ((incomingCalls a).run s later) := by
  induction later generalizing es s with
  | nil => exact hsilent
  | cons e later ih =>
    obtain ⟨he, hlater⟩ := List.forall_mem_cons.mp hlater
    have hstep := hknown.ringStep h e
    exact ih (hknown.next hstep) (hsilent.next hstep he) hlater

/-- The activity that is on screen takes no notice of what is sent. -/
theorem seen_fromNotification (h : a.Documented) {view : RingingView}
    (hview : (a.seen s).ringing = some view) (he : e.fromNotification = true) :
    a.seen ((incomingCalls a).next s e) = a.seen s := by
  have hsend : ∀ p, a.seen (sendIfThere s p) = a.seen s := by
    rintro (_ | p)
    · rfl
    · exact sendPending_onNewIntent h hview
  cases e with
  | fullScreen => exact hsend _
  | action choice => exact hsend _
  | _ => cases he

theorem seen_run_fromNotification (h : a.Documented) {view : RingingView}
    (hview : (a.seen s).ringing = some view) {later : List (RingEvent a.Doing)}
    (hlater : ∀ e ∈ later, e.fromNotification = true) :
    a.seen ((incomingCalls a).run s later) = a.seen s := by
  induction later generalizing s with
  | nil => rfl
  | cons e later ih =>
    obtain ⟨he, hlater⟩ := List.forall_mem_cons.mp hlater
    have hnext := seen_fromNotification h hview he
    rw [Mealy.run_cons, ih (by rw [hnext, hview]) hlater, hnext]

/-- **A call is answered for good.**  After any run: a button of the screen, or an action
of the notification where there is no screen, leaves neither notification nor screen, and
neither comes back before another call does.  But while there is a screen, nothing that
is sent from the notification changes anything that can be seen, so its actions do not
answer. -/
theorem answered_for_good (h : a.Documented) (hs : a.Fresh s) (es : List (RingEvent a.Doing)) :
    (∀ e later, AnswersCall ((incomingCalls a).run s es) e → (∀ f ∈ later, f.shownCaller = none) →
      Silent ((incomingCalls a).run s (es ++ e :: later))) ∧
    ∀ view later, (a.seen ((incomingCalls a).run s es)).ringing = some view →
      (∀ f ∈ later, f.fromNotification = true) →
        a.seen ((incomingCalls a).run s (es ++ later)) = a.seen ((incomingCalls a).run s es) := by
  have hknown := known_run h hs es
  refine ⟨fun e later hanswers hlater => ?_, fun view later hview hlater => ?_⟩
  · have hstep := hknown.ringStep h e
    rw [Mealy.run_append, Mealy.run_cons]
    exact (hstep.silent hanswers).run h (hknown.next hstep) hlater
  · rw [Mealy.run_append]
    exact seen_run_fromNotification h hview hlater

/-- Accepted on the screen, a call is over; from the notification beside it, it is not. -/
theorem answered_for_good_accepted :
    Silent (a := plainAndroid 33 .appCompat) ((incomingCalls (plainAndroid 33 .appCompat)).run
      PlainState.fresh ([.show "1c06", .fullScreen] ++ .press .accept :: [.startService])) ∧
    ((incomingCalls (plainAndroid 33 .appCompat)).run PlainState.fresh
        ([.show "1c06", .fullScreen] ++ [.action .accept])).seen =
      ((incomingCalls (plainAndroid 33 .appCompat)).run PlainState.fresh
        [.show "1c06", .fullScreen]).seen := by
  have hanswered := answered_for_good (plainAndroid_documented 33 .appCompat)
    (plainAndroid_fresh 33 .appCompat) [.show "1c06", .fullScreen]
  have hview : ((incomingCalls (plainAndroid 33 .appCompat)).run PlainState.fresh
      [.show "1c06", .fullScreen]).ringing = some (buildRingingView "1c06") := rfl
  exact ⟨hanswered.1 _ _ (.press .accept hview) (by simp [RingEvent.shownCaller]),
    hanswered.2 _ _ hview (by simp [RingEvent.fromNotification])⟩

/-! ## Keeping on -/

/-- There is a notification of a call. -/
def Notified (t : a.State) : Prop := ((a.seen t).notification NOTIFICATION_ID).isSome = true

/-- Neither the system of itself nor a callback that throws takes the notification. -/
def Spares (t : a.State) (e : RingEvent a.Doing) : Prop :=
  (∃ doing, e = .system doing) ∨ Throws t e → Notified ((incomingCalls a).next t e)

theorem RingStep.notified {last : Option String} (h : RingStep last s e t) (hs : Notified s)
    (hanswers : ¬ AnswersCall s e)
    (hspares : (∃ doing, e = .system doing) ∨ Throws s e → Notified t) : Notified t := by
  cases h with
  | @shown c t h =>
    by_cases hw : Withheld s c
    · rwa [Notified, h.withheld hw]
    · obtain ⟨n, hn, -⟩ := h.posted hw
      rw [Notified, hn]
      rfl
  | served h => rwa [Notified, h.notification]
  | rang _ _ _ hseen => rwa [Notified, hseen]
  | answered h _ => exact absurd h hanswers
  | idle _ _ hseen => rwa [Notified, hseen]
  | system _ => exact hspares (.inl ⟨_, rfl⟩)
  | threw h _ => exact hspares (.inr h)

/-- **A notified call stays notified until it is answered**, and no longer, in every run
in which neither the system of itself nor a crash takes the notification: another call,
the call's own screen, the service, an action beside the screen and a button without one
all leave it. -/
theorem notified_until_answered (h : a.Documented) (hs : a.Fresh s)
    (es later : List (RingEvent a.Doing)) (hn : Notified ((incomingCalls a).run s es))
    (hspared : (incomingCalls a).AllSteps Spares ((incomingCalls a).run s es) later) :
    (incomingCalls a).AllStates Notified ((incomingCalls a).run s es) later ↔
      (incomingCalls a).AllSteps (fun t e => ¬ AnswersCall t e)
        ((incomingCalls a).run s es) later := by
  refine Mealy.allStates_iff_allSteps_under (I := fun t => (∃ es, Known es t) ∧ Notified t)
    (fun t hI => hI.2) ?_ ?_ ⟨⟨es, known_run h hs es⟩, hn⟩ hspared
  · rintro t e ⟨⟨es, hknown⟩, hn⟩ hspares hanswers
    have hstep := hknown.ringStep h e
    exact ⟨⟨_, hknown.next hstep⟩, hstep.notified hn hanswers hspares⟩
  · rintro t e ⟨⟨es, hknown⟩, hn⟩ - hanswers hnotified
    have hsilent := (hknown.ringStep h e).silent (not_not.mp hanswers)
    rw [Notified, hsilent.notification] at hnotified
    cases hnotified

/-- With its library's theme and before API level 34, no callback throws. -/
theorem plainAndroid_not_throws {sdkInt : Nat} (hold : sdkInt < 34)
    (s : (plainAndroid sdkInt .appCompat).State) (e : RingEvent PlainDoing) : ¬ Throws s e := by
  rintro (⟨h⟩ | ⟨-, -, h⟩)
  · have hstart : (onStartCommand s).2 = .ok () := congrArg Prod.snd (if_pos hold)
    exact nomatch hstart.symm.trans h
  · unfold onCreateRinging at h
    split_ifs at h
    cases h

/-- A second call, beside the screen of the first. -/
theorem notified_until_answered_secondCall :
    (incomingCalls (plainAndroid 33 .appCompat)).AllStates
      (Notified (a := plainAndroid 33 .appCompat))
      ((incomingCalls (plainAndroid 33 .appCompat)).run PlainState.fresh [.show "1c06"])
      [.fullScreen, .startService, .action .decline, .show "77ab"] := by
  have hn : Notified (a := plainAndroid 33 .appCompat)
      ((incomingCalls (plainAndroid 33 .appCompat)).run PlainState.fresh [.show "1c06"]) := rfl
  refine (notified_until_answered (plainAndroid_documented 33 .appCompat)
    (plainAndroid_fresh 33 .appCompat) _ _ hn fun pre e hpre => ?_).mpr ?_
  · rintro (⟨doing, rfl⟩ | hthrows)
    · have hmem := hpre.subset (List.mem_append_right pre (List.mem_singleton_self _))
      simp at hmem
    · exact absurd hthrows (plainAndroid_not_throws (by decide) _ e)
  · refine Mealy.allSteps_cons _ |>.mpr ⟨nofun, Mealy.allSteps_cons _ |>.mpr ⟨nofun,
      Mealy.allSteps_cons _ |>.mpr ⟨?_, Mealy.allSteps_cons _ |>.mpr ⟨nofun,
        Mealy.allSteps_nil _⟩⟩⟩⟩
    intro hanswers
    cases hanswers with
    | action _ hnone _ _ => cases hnone

end CtAgentAndroid
