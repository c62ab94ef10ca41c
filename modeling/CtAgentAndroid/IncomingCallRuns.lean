import CtAgentAndroid.IncomingCall
import CtAgentAndroid.PlainAndroid

/-! # What rings, and for whom

What an event can come to is said once, in terms of what can be seen (`RingStep`), and
holds of any documented Android (`Known.ringStep`).  Of the two callers a notification
can be about, that of its text and that of its intents, the second is always the one
shown last, since the three pending intents are told apart and updated together; the
first falls behind where the system withholds a notification
(`notification_about_last`).
-/
namespace CtAgentAndroid
open Automaton

variable {a : Android} {es : List (RingEvent a.Doing)} {e : RingEvent a.Doing}
  {s t : a.State} {callerHex : String}

/-! ## Building a notification -/

/-- What `show` puts behind each request code. -/
def callIntent (callerHex : String) : Nat → Option Intent
  | 0 => some ⟨none, some callerHex⟩
  | 1 => some ⟨some ACTION_ACCEPT, some callerHex⟩
  | 2 => some ⟨some ACTION_DECLINE, some callerHex⟩
  | _ => none

/-- The request code behind a button of the notification. -/
def Choice.requestCode : Choice → Nat
  | .accept => 1
  | .decline => 2

/-- The action of the intent behind it. -/
def Choice.action : Choice → String
  | .accept => ACTION_ACCEPT
  | .decline => ACTION_DECLINE

/-- The action behind a request code is the same for every caller. -/
theorem callIntent_action {c d : String} {code : Nat} {i j : Intent}
    (hi : callIntent c code = some i) (hj : callIntent d code = some j) : i.action = j.action := by
  match code, hi, hj with
  | 0, rfl, rfl => rfl
  | 1, rfl, rfl => rfl
  | 2, rfl, rfl => rfl

theorem callIntent_lt {code : Nat} {i : Intent} (hi : callIntent callerHex code = some i) :
    code < 3 := by
  match code, hi with
  | 0, _ => decide
  | 1, _ => decide
  | 2, _ => decide

theorem callIntent_choice (callerHex : String) (choice : Choice) :
    callIntent callerHex choice.requestCode = some ⟨some choice.action, some callerHex⟩ := by
  cases choice <;> rfl

theorem callIntent_caller {code : Nat} {i : Intent} (hi : callIntent callerHex code = some i) :
    i.callerHolderHex = some callerHex := by
  match code, hi with
  | 0, rfl => rfl
  | 1, rfl => rfl
  | 2, rfl => rfl

/-- A notification as `show` builds it, with its three pending intents. -/
inductive BuiltFor (callerHex : String) : Notification a.PendingIntent → Prop where
  | built {fullScreen accept decline : a.PendingIntent} (hfullScreen : a.requestCode fullScreen = 0)
      (haccept : a.requestCode accept = 1) (hdecline : a.requestCode decline = 2) :
      BuiltFor callerHex (incomingCall callerHex fullScreen accept decline)

/-- Every pending intent is one of the three of some caller, and those with codes below
`n` are for `callerHex`. -/
def CarriesBelow (callerHex : String) (n : Nat) (s : a.State) : Prop :=
  ∀ p i, (a.seen s).intent p = some i →
    ∃ c, callIntent c (a.requestCode p) = some i ∧ (a.requestCode p < n → c = callerHex)

/-- The three pending intents are got one after the other. -/
theorem CarriesBelow.retrieve {n : Nat} {i : Intent} {p : a.PendingIntent}
    (hcarries : CarriesBelow callerHex n s) (hi : callIntent callerHex n = some i)
    (h : a.Retrieves s n i t p) : CarriesBelow callerHex (n + 1) t := by
  intro q j hq
  by_cases hqp : q = p
  · subst hqp
    obtain rfl := Option.some.inj (h.updated.symm.trans hq)
    rw [h.requestCode]
    exact ⟨callerHex, hi, fun _ => rfl⟩
  · rw [h.others q hqp] at hq
    obtain ⟨c, hc, hlow⟩ := hcarries q j hq
    refine ⟨c, hc, fun hlt => hlow (Nat.lt_of_le_of_ne (Nat.le_of_lt_succ hlt) fun hcode => ?_)⟩
    -- one of this code would have been kept
    rw [hcode] at hc
    exact hqp (h.kept q j hq hcode (callIntent_action hc hi))

/-- A pending intent that has been got is there, and those that were there stay. -/
theorem isSome_of_retrieves {n : Nat} {i : Intent} {p q : a.PendingIntent}
    (h : a.Retrieves s n i t p) (hq : q = p ∨ ((a.seen s).intent q).isSome = true) :
    ((a.seen t).intent q).isSome = true := by
  by_cases hqp : q = p
  · rw [hqp, h.updated]
    rfl
  · rw [h.others q hqp]
    exact hq.resolve_left hqp

/-- The pending intents of a notification. -/
def Notification.pendingIntents {PendingIntent : Type} (n : Notification PendingIntent) :
    List PendingIntent := n.fullScreenIntent.toList ++ n.actions.map Prod.snd

/-- What `ensureChannel` leaves: the channel, and all else as it was. -/
structure ChannelEnsured (s t : a.State) : Prop where
  channel : a.sdkInt < Android.versionO ∨ (a.seen t).channel CHANNEL_ID = true
  intent : (a.seen t).intent = (a.seen s).intent
  same : (a.seen s).SameView (a.seen t)

theorem channelEnsured (h : a.Documented) (s : a.State) : ChannelEnsured s (ensureChannel s) := by
  unfold ensureChannel
  split
  · next hold => exact ⟨.inl hold, rfl, ⟨rfl, rfl, rfl⟩⟩
  · have hseen := h.createNotificationChannel s CHANNEL_ID
    refine ⟨.inr ?_, ?_, ?_, ?_, ?_⟩ <;> rw [hseen]
    · simp
    all_goals rfl

/-- What `show` has before it posts. -/
structure Prepared (callerHex : String) (s t : a.State) (n : Notification a.PendingIntent) :
    Prop where
  built : BuiltFor callerHex n
  channel : a.sdkInt < Android.versionO ∨ (a.seen t).channel n.channelId = true
  carries : CarriesBelow callerHex 3 t
  there : ∀ p ∈ n.pendingIntents, ((a.seen t).intent p).isSome = true
  same : (a.seen s).SameView (a.seen t)

theorem prepared (h : a.Documented) (hcarries : CarriesBelow callerHex 0 s) :
    Prepared callerHex s (buildIncomingCall s callerHex).1 (buildIncomingCall s callerHex).2 := by
  have hensured := channelEnsured h s
  have hfullScreen := h.getActivity (ensureChannel s) 0 ⟨none, some callerHex⟩
  have haccept := h.getActivity (a.getActivity (ensureChannel s) 0 ⟨none, some callerHex⟩).1 1
    ⟨some ACTION_ACCEPT, some callerHex⟩
  have hdecline := h.getActivity (a.getActivity (a.getActivity (ensureChannel s) 0
    ⟨none, some callerHex⟩).1 1 ⟨some ACTION_ACCEPT, some callerHex⟩).1 2
    ⟨some ACTION_DECLINE, some callerHex⟩
  have hfirst : CarriesBelow callerHex 0 (ensureChannel s) := by
    unfold CarriesBelow
    rwa [hensured.intent]
  exact {
    built := .built hfullScreen.requestCode haccept.requestCode hdecline.requestCode
    channel := hensured.channel.imp_right (congrFun ((hdecline.channel.trans
      haccept.channel).trans hfullScreen.channel) CHANNEL_ID).trans
    carries := ((hfirst.retrieve rfl hfullScreen).retrieve rfl haccept).retrieve rfl hdecline
    there := fun p hp => by
      rcases List.mem_cons.mp hp with rfl | hp
      · exact isSome_of_retrieves hdecline
          (.inr (isSome_of_retrieves haccept (.inr (isSome_of_retrieves hfullScreen (.inl rfl)))))
      · rcases List.mem_cons.mp hp with rfl | hp
        · exact isSome_of_retrieves hdecline (.inr (isSome_of_retrieves haccept (.inl rfl)))
        · exact isSome_of_retrieves hdecline (.inl (List.mem_singleton.mp hp))
    same := ((hensured.same.trans hfullScreen.same).trans haccept.same).trans hdecline.same }

/-! ## What an event can come to -/

/-- The caller of an event that shows one. -/
def RingEvent.shownCaller {Doing : Type} : RingEvent Doing → Option String
  | .show callerHex => some callerHex
  | _ => none

/-- The caller shown last. -/
def lastShown {Doing : Type} (es : List (RingEvent Doing)) : Option String :=
  (es.filterMap RingEvent.shownCaller).getLast?

theorem lastShown_concat {Doing : Type} (es : List (RingEvent Doing)) (e : RingEvent Doing) :
    lastShown (es ++ [e]) = e.shownCaller.or (lastShown es) := by
  rw [lastShown, List.filterMap_append, List.getLast?_append]
  cases e <;> rfl

/-- What is known after some events: the call's notification does not stand for the
service, it is one that `show` has built for one of the callers, and every pending intent
is for the last of them. -/
structure Known (es : List (RingEvent a.Doing)) (s : a.State) : Prop where
  foreground : (a.seen s).foreground ≠ some NOTIFICATION_ID
  notification : ∀ n, (a.seen s).notification NOTIFICATION_ID = some n →
    ∃ c, .show c ∈ es ∧ BuiltFor c n
  intent : ∀ p i, (a.seen s).intent p = some i →
    ∃ c, lastShown es = some c ∧ callIntent c (a.requestCode p) = some i

/-- The system withholds what `show` would post. -/
def Withheld (s : a.State) (callerHex : String) : Prop :=
  a.withholds (buildIncomingCall s callerHex).1 NOTIFICATION_ID
    (buildIncomingCall s callerHex).2 = true

/-- The event answers the call: a button of the ringing screen, or an action of the
notification where there is no screen. -/
inductive AnswersCall (s : a.State) : RingEvent a.Doing → Prop where
  | press {view : RingingView} (choice : Choice) (hview : (a.seen s).ringing = some view) :
      AnswersCall s (.press choice)
  | action {p : a.PendingIntent} {i : Intent} (choice : Choice)
      (hnone : (a.seen s).ringing = none) (hp : actionOf s choice = some p)
      (hi : (a.seen s).intent p = some i) : AnswersCall s (.action choice)

/-- A callback throws. -/
inductive Throws (s : a.State) : RingEvent a.Doing → Prop where
  | startService {thrown : a.Throwable} (h : (onStartCommand s).2 = .error thrown) :
      Throws s .startService
  | fullScreen {p : a.PendingIntent} {i : Intent} {thrown : a.Throwable}
      (hp : fullScreenOf s = some p) (hi : (a.send s p).2 = .onCreate i)
      (h : (onCreateRinging (a.send s p).1 i).2 = .error thrown) : Throws s .fullScreen

theorem AnswersCall.shownCaller (h : AnswersCall s e) : e.shownCaller = none := by
  cases h <;> rfl

theorem Throws.shownCaller (h : Throws s e) : e.shownCaller = none := by
  cases h <;> rfl

/-- After `show`: the caller is that of every pending intent, and of the notification
unless the system has withheld it. -/
structure Shown (callerHex : String) (s t : a.State) : Prop where
  carries : CarriesBelow callerHex 3 t
  posted : ¬ Withheld s callerHex →
    ∃ n, (a.seen t).notification NOTIFICATION_ID = some n ∧ BuiltFor callerHex n ∧
      ∀ p ∈ n.pendingIntents, ((a.seen t).intent p).isSome = true
  withheld : Withheld s callerHex →
    (a.seen t).notification NOTIFICATION_ID = (a.seen s).notification NOTIFICATION_ID
  foreground : (a.seen t).foreground = (a.seen s).foreground
  ringing : (a.seen t).ringing = (a.seen s).ringing

/-- The service has started: of the call, all is as it was. -/
structure Served (s t : a.State) : Prop where
  foreground : (a.seen t).foreground = some SERVICE_NOTIFICATION_ID
  notification : (a.seen t).notification NOTIFICATION_ID = (a.seen s).notification NOTIFICATION_ID
  intent : (a.seen t).intent = (a.seen s).intent
  ringing : (a.seen t).ringing = (a.seen s).ringing

/-- **What an event comes to**, where `last` was shown last. -/
inductive RingStep (last : Option String) (s : a.State) : RingEvent a.Doing → a.State → Prop where
  | shown {c : String} {t : a.State} (h : Shown c s t) : RingStep last s (.show c) t
  | served {t : a.State} (h : Served s t) : RingStep last s .startService t
  | rang {p : a.PendingIntent} {c : String} {t : a.State} (hp : fullScreenOf s = some p)
      (hnone : (a.seen s).ringing = none) (hlast : last = some c)
      (hseen : a.seen t = (a.seen s).setRinging (some (buildRingingView c))) :
      RingStep last s .fullScreen t
  | answered {e : RingEvent a.Doing} {t : a.State} (h : AnswersCall s e)
      (hseen : a.seen t = ((a.seen s).setNotification NOTIFICATION_ID none).setRinging none) :
      RingStep last s e t
  | idle {e : RingEvent a.Doing} {t : a.State} (hshow : e.shownCaller = none)
      (hanswers : ¬ AnswersCall s e) (hseen : a.seen t = a.seen s) : RingStep last s e t
  | system {doing : a.Doing} {t : a.State} (h : (a.seen s).Fewer (a.seen t)) :
      RingStep last s (.system doing) t
  | threw {e : RingEvent a.Doing} {t : a.State} (hthrows : Throws s e)
      (h : (a.seen s).Fewer (a.seen t)) : RingStep last s e t

/-! ## Every event does -/

theorem Known.carries (h : Known es s) (callerHex : String) : CarriesBelow callerHex 0 s := by
  intro p i hp
  obtain ⟨c, -, hc⟩ := h.intent p i hp
  exact ⟨c, hc, fun hlt => absurd hlt (Nat.not_lt_zero _)⟩

theorem shown (h : a.Documented) (hcarries : CarriesBelow callerHex 0 s) :
    Shown callerHex s (showIncomingCall s callerHex) := by
  have hprepared := prepared h hcarries
  have hsame := hprepared.same
  unfold showIncomingCall
  rcases hwithheld : a.withholds (buildIncomingCall s callerHex).1 NOTIFICATION_ID
    (buildIncomingCall s callerHex).2 with _ | _
  · have hseen := h.posts _ NOTIFICATION_ID _ hwithheld hprepared.channel
    refine ⟨fun p i hp => ?_, fun _ => ⟨_, ?_, hprepared.built, ?_⟩, fun hw => ?_, ?_, ?_⟩
    · rw [hseen] at hp
      exact hprepared.carries p i hp
    · simp [hseen]
    · rw [hseen]
      exact hprepared.there
    · exact nomatch hwithheld.symm.trans hw
    · simp [hseen, hsame.foreground]
    · simp [hseen, hsame.ringing]
  · have hseen := h.withheld _ NOTIFICATION_ID _ hwithheld
    refine ⟨fun p i hp => ?_, fun hw => absurd hwithheld hw, fun _ => ?_, ?_, ?_⟩
    · rw [hseen] at hp
      exact hprepared.carries p i hp
    · rw [hseen, hsame.notification]
    · rw [hseen, hsame.foreground]
    · rw [hseen, hsame.ringing]

theorem startService_step (h : a.Documented) (last : Option String) (s : a.State) :
    RingStep last s .startService (returned (onStartCommand s)) := by
  have hensured := channelEnsured h s
  have hsame := hensured.same
  rcases hcommand : onStartCommand s with ⟨t, thrown | _⟩
  · have hseen := h.foregroundRefused (ensureChannel s) SERVICE_NOTIFICATION_ID listening thrown
      (congrArg Prod.snd hcommand)
    rw [show (a.startForeground _ _ _).1 = t from congrArg Prod.fst hcommand] at hseen
    have hfewer := h.uncaught t thrown
    rw [hseen] at hfewer
    exact .threw (.startService (congrArg Prod.snd hcommand)) (hsame.fewer hensured.intent hfewer)
  · obtain ⟨shown, -, hseen⟩ := h.startsForeground (ensureChannel s)
      SERVICE_NOTIFICATION_ID listening (congrArg Prod.snd hcommand)
    have hother : NOTIFICATION_ID ≠ SERVICE_NOTIFICATION_ID := by decide
    rw [show (a.startForeground _ _ _).1 = t from congrArg Prod.fst hcommand] at hseen
    refine .served ⟨?_, ?_, ?_, ?_⟩
    · simp [returned, hseen]
    · simp [returned, hseen, hother, hsame.notification]
    · show (a.seen t).intent = _
      rw [hseen]
      exact hensured.intent
    · simp [returned, hseen, hsame.ringing]

/-- The pending intents of the notification have the codes that `show` gave them. -/
theorem Known.requestCode (hknown : Known es s) {p : a.PendingIntent} :
    (fullScreenOf s = some p → a.requestCode p = 0) ∧
      ∀ choice, actionOf s choice = some p → a.requestCode p = choice.requestCode := by
  refine ⟨fun hp => ?_, fun choice hp => ?_⟩
  · obtain ⟨n, hn, hp⟩ := Option.bind_eq_some_iff.mp hp
    obtain ⟨c, -, hfullScreen, -, -⟩ := hknown.notification n hn
    obtain rfl := Option.some.inj hp
    exact hfullScreen
  · obtain ⟨n, hn, hp⟩ := Option.bind_eq_some_iff.mp hp
    obtain ⟨c, -, -, haccept, hdecline⟩ := hknown.notification n hn
    cases choice with
    | accept =>
      obtain rfl := Option.some.inj hp
      exact haccept
    | decline =>
      obtain rfl := Option.some.inj hp
      exact hdecline

section Sending
variable {p : a.PendingIntent} {i : Intent}

theorem sendPending_canceled (h : a.Documented) (hp : (a.seen s).intent p = none) :
    a.seen (sendPending s p) = a.seen s := by
  obtain ⟨hdelivery, hseen⟩ := h.sends s p
  rw [Seen.delivery_none hp] at hdelivery
  rw [sendPending, hdelivery]
  exact hseen

/-- The activity that is there takes no notice of the intent. -/
theorem sendPending_onNewIntent (h : a.Documented) {view : RingingView}
    (hview : (a.seen s).ringing = some view) : a.seen (sendPending s p) = a.seen s := by
  rcases hp : (a.seen s).intent p with _ | i
  · exact sendPending_canceled h hp
  · obtain ⟨hdelivery, hseen⟩ := h.sends s p
    rw [Seen.delivery_onNewIntent hp hview] at hdelivery
    rw [sendPending, hdelivery]
    exact hseen

theorem sendPending_onCreate (h : a.Documented) (hp : (a.seen s).intent p = some i)
    (hnone : (a.seen s).ringing = none) :
    (a.send s p).2 = .onCreate i ∧
      sendPending s p = returned (onCreateRinging (a.send s p).1 i) := by
  obtain ⟨hdelivery, -⟩ := h.sends s p
  rw [Seen.delivery_onCreate hp hnone] at hdelivery
  exact ⟨hdelivery, by rw [sendPending, hdelivery]; rfl⟩

end Sending

theorem fullScreen_step (h : a.Documented) (hknown : Known es s) :
    RingStep (lastShown es) s .fullScreen (sendIfThere s (fullScreenOf s)) := by
  rcases hp : fullScreenOf s with _ | p
  · exact .idle rfl nofun rfl
  · show RingStep _ s .fullScreen (sendPending s p)
    rcases hview : (a.seen s).ringing with _ | view
    · rcases hi : (a.seen s).intent p with _ | i
      · exact .idle rfl nofun (sendPending_canceled h hi)
      · obtain ⟨hdelivery, heq⟩ := sendPending_onCreate h hi hview
        obtain ⟨c, hlast, hc⟩ := hknown.intent p i hi
        rw [hknown.requestCode.1 hp] at hc
        obtain rfl := Option.some.inj hc
        have hcreate : onCreateRinging (a.send s p).1 ⟨none, some c⟩ =
            a.setContentView (a.send s p).1 (buildRingingView c) := rfl
        have hsent := (h.sends s p).2
        rw [heq]
        rcases hset : onCreateRinging (a.send s p).1 ⟨none, some c⟩ with ⟨t, thrown | _⟩
        · have hseen :=
            h.contentViewRefused _ _ thrown (congrArg Prod.snd (hcreate.symm.trans hset))
          rw [← hcreate, hset, hsent] at hseen
          have hfewer := h.uncaught t thrown
          rw [hseen] at hfewer
          exact .threw (.fullScreen hp hdelivery (congrArg Prod.snd hset)) hfewer
        · have hseen := h.setsContentView _ _ (congrArg Prod.snd (hcreate.symm.trans hset))
          rw [← hcreate, hset, hsent] at hseen
          exact .rang hp hview hlast hseen
    · exact .idle rfl nofun (sendPending_onNewIntent h hview)

/-- Accepting and declining. -/
theorem seen_answered (h : a.Documented) (hknown : Known es s) (hseen : a.seen t = a.seen s) :
    a.seen (a.finish (dismiss t)) =
      ((a.seen s).setNotification NOTIFICATION_ID none).setRinging none := by
  have hforeground := hknown.foreground
  rw [← hseen] at hforeground ⊢
  rw [h.finish, dismiss, h.cancels t NOTIFICATION_ID hforeground]

theorem onCreateRinging_choice (choice : Choice) (callerHex : Option String) :
    onCreateRinging s ⟨some choice.action, callerHex⟩ = (a.finish (dismiss s), .ok ()) := by
  cases choice <;> rfl

theorem action_step (h : a.Documented) (hknown : Known es s) (choice : Choice) :
    RingStep (lastShown es) s (.action choice) (sendIfThere s (actionOf s choice)) := by
  rcases hp : actionOf s choice with _ | p
  · refine .idle rfl (fun hanswers => ?_) rfl
    cases hanswers with
    | action _ _ hp' _ => exact nomatch hp.symm.trans hp'
  · show RingStep _ s (.action choice) (sendPending s p)
    rcases hview : (a.seen s).ringing with _ | view
    · rcases hi : (a.seen s).intent p with _ | i
      · refine .idle rfl (fun hanswers => ?_) (sendPending_canceled h hi)
        cases hanswers with
        | action _ _ hp' hi' =>
          obtain rfl := Option.some.inj (hp.symm.trans hp')
          exact nomatch hi.symm.trans hi'
      · obtain ⟨c, -, hc⟩ := hknown.intent p i hi
        rw [hknown.requestCode.2 choice hp, callIntent_choice] at hc
        obtain rfl := Option.some.inj hc
        refine .answered (.action choice hview hp hi) ?_
        rw [(sendPending_onCreate h hi hview).2, onCreateRinging_choice]
        exact seen_answered h hknown (h.sends s p).2
    · refine .idle rfl (fun hanswers => ?_) (sendPending_onNewIntent h hview)
      cases hanswers with
      | action _ hnone _ _ => exact nomatch hview.symm.trans hnone

theorem press_step (h : a.Documented) (hknown : Known es s) (choice : Choice) :
    RingStep (lastShown es) s (.press choice) (pressButton s choice) := by
  unfold pressButton
  rcases hview : (a.seen s).ringing with _ | view
  · refine .idle rfl (fun hanswers => ?_) rfl
    cases hanswers with
    | press _ hview' => exact nomatch hview.symm.trans hview'
  · refine .answered (.press choice hview) ?_
    cases choice with
    | accept => exact seen_answered h hknown rfl
    | decline => exact seen_answered h hknown rfl

/-- **Every event comes to one of these.** -/
theorem Known.ringStep (hknown : Known es s) (h : a.Documented) (e : RingEvent a.Doing) :
    RingStep (lastShown es) s e ((incomingCalls a).next s e) := by
  cases e with
  | «show» callerHex => exact .shown (shown h (hknown.carries callerHex))
  | startService => exact startService_step h _ s
  | fullScreen => exact fullScreen_step h hknown
  | action choice => exact action_step h hknown choice
  | press choice => exact press_step h hknown choice
  | system doing => exact .system (h.does s doing)

/-! ## Runs -/

/-- Without another call, only the screen can be new: that of the caller shown last. -/
structure Lessens (last : Option String) (s t : a.State) : Prop where
  notification : ∀ n, (a.seen t).notification NOTIFICATION_ID = some n →
    (a.seen s).notification NOTIFICATION_ID = some n
  foreground : (a.seen s).foreground ≠ some NOTIFICATION_ID →
    (a.seen t).foreground ≠ some NOTIFICATION_ID
  intent : ∀ p i, (a.seen t).intent p = some i → (a.seen s).intent p = some i
  ringing : ∀ view, (a.seen t).ringing = some view → (a.seen s).ringing = some view ∨
    (a.seen s).notification NOTIFICATION_ID ≠ none ∧
      ∃ c, last = some c ∧ view = buildRingingView c

theorem lessens_of_fewer (last : Option String) (h : (a.seen s).Fewer (a.seen t)) :
    Lessens last s t :=
  ⟨h.notification _, fun hnot hf => hnot (h.foreground _ hf), h.intent,
    fun view hview => .inl (h.ringing view hview)⟩

/-- A step shows a call, or lessens what there is. -/
theorem RingStep.shown_or_lessens {last : Option String} (h : RingStep last s e t) :
    (∃ c, e = .show c ∧ Shown c s t) ∨ e.shownCaller = none ∧ Lessens last s t := by
  cases h with
  | @shown c t h => exact .inl ⟨c, rfl, h⟩
  | served h =>
    have hother : SERVICE_NOTIFICATION_ID ≠ NOTIFICATION_ID := by decide
    refine .inr ⟨rfl, fun n hn => h.notification ▸ hn, fun _ => ?_, fun p i hp => h.intent ▸ hp,
      fun view hview => .inl (h.ringing ▸ hview)⟩
    rw [h.foreground]
    exact fun heq => hother (Option.some.inj heq)
  | @rang p c t hp _ hlast hseen =>
    have hthere : (a.seen s).notification NOTIFICATION_ID ≠ none := fun hnone => by
      rw [fullScreenOf, hnone] at hp
      cases hp
    refine .inr ⟨rfl, ?_, ?_, ?_, fun view hview => .inr ⟨hthere, c, hlast, ?_⟩⟩
    · rw [hseen]
      exact fun n hn => hn
    · rw [hseen]
      exact id
    · rw [hseen]
      exact fun p i hp => hp
    · rw [hseen] at hview
      exact (Option.some.inj hview).symm
  | answered hanswers hseen =>
    refine .inr ⟨hanswers.shownCaller, lessens_of_fewer last ?_⟩
    rw [hseen]
    exact (Seen.fewer_setNotification_none NOTIFICATION_ID).setRinging_none
  | idle hshow _ hseen => exact .inr ⟨hshow, lessens_of_fewer last (hseen ▸ .refl)⟩
  | system h => exact .inr ⟨rfl, lessens_of_fewer last h⟩
  | threw hthrows h => exact .inr ⟨hthrows.shownCaller, lessens_of_fewer last h⟩

theorem Known.show {c : String} (hknown : Known es s) (h : Shown c s t) :
    Known (es ++ [.show c]) t where
  foreground := h.foreground ▸ hknown.foreground
  notification n hn := by
    by_cases hw : Withheld s c
    · obtain ⟨d, hd, hbuilt⟩ := hknown.notification n (h.withheld hw ▸ hn)
      exact ⟨d, List.mem_append_left _ hd, hbuilt⟩
    · obtain ⟨m, hm, hbuilt, -⟩ := h.posted hw
      obtain rfl := Option.some.inj (hm.symm.trans hn)
      exact ⟨c, List.mem_append_right es (List.mem_singleton_self _), hbuilt⟩
  intent p i hp := by
    rw [lastShown_concat]
    obtain ⟨d, hd, hlow⟩ := h.carries p i hp
    obtain rfl := hlow (callIntent_lt hd)
    exact ⟨d, rfl, hd⟩

/-- What is not shown anew stays known. -/
theorem Known.lessens {last : Option String} (hknown : Known es s) (hshow : e.shownCaller = none)
    (h : Lessens last s t) : Known (es ++ [e]) t where
  foreground := h.foreground hknown.foreground
  notification n hn := by
    obtain ⟨c, hc, hbuilt⟩ := hknown.notification n (h.notification n hn)
    exact ⟨c, List.mem_append_left [e] hc, hbuilt⟩
  intent p i hp := by
    rw [lastShown_concat, hshow]
    exact hknown.intent p i (h.intent p i hp)

theorem Known.next (hknown : Known es s) (h : RingStep (lastShown es) s e t) :
    Known (es ++ [e]) t := by
  obtain ⟨c, rfl, hshown⟩ | ⟨hshow, hlessens⟩ := h.shown_or_lessens
  · exact hknown.show hshown
  · exact hknown.lessens hshow hlessens

theorem known_fresh (h : a.Fresh s) : Known [] s where
  foreground := by rw [h.foreground]; nofun
  notification n hn := nomatch (h.notification NOTIFICATION_ID).symm.trans hn
  intent p i hp := nomatch (h.intent p).symm.trans hp

/-- What is known after a run. -/
theorem known_run (h : a.Documented) (hs : a.Fresh s) (es : List (RingEvent a.Doing)) :
    Known es ((incomingCalls a).run s es) :=
  Mealy.history_run (known_fresh hs) (fun _ e _ hknown => hknown.next (hknown.ringStep h e)) es

/-! ## The notification -/

/-- The intents of a notification, as far as they are there, are for a caller. -/
structure IntentsFor (caller : Option String) (t : a.State) (n : Notification a.PendingIntent) :
    Prop where
  fullScreen : ∃ p, n.fullScreenIntent = some p ∧
    ∀ i, (a.seen t).intent p = some i → i = ⟨none, caller⟩
  action : ∀ choice : Choice, ∃ p, n.actions.lookup choice.label = some p ∧
    ∀ i, (a.seen t).intent p = some i → i = ⟨some choice.action, caller⟩

/-- The text of the notification is that of a caller. -/
def TextFor (caller : Option String) (t : a.State) : Prop :=
  ∀ n, (a.seen t).notification NOTIFICATION_ID = some n →
    ∃ c, caller = some c ∧ n.contentText = shortCallerId c

theorem BuiltFor.contentText {c : String} {n : Notification a.PendingIntent} (h : BuiltFor c n) :
    n.contentText = shortCallerId c := by
  cases h
  rfl

theorem Known.intentsFor (hknown : Known es s) {c : String} {n : Notification a.PendingIntent}
    (h : BuiltFor c n) : IntentsFor (lastShown es) s n := by
  obtain ⟨hfullScreen, haccept, hdecline⟩ := h
  have hintent : ∀ {p i j}, (a.seen s).intent p = some i →
      (∀ d, callIntent d (a.requestCode p) = some ⟨j, some d⟩) → i = ⟨j, lastShown es⟩ := by
    intro p i j hp hj
    obtain ⟨d, hlast, hd⟩ := hknown.intent p i hp
    rw [hlast]
    exact Option.some.inj (hd.symm.trans (hj d))
  refine ⟨⟨_, rfl, fun i hi => hintent hi fun d => ?_⟩, fun choice => ?_⟩
  · rw [hfullScreen]
    rfl
  · cases choice with
    | accept => exact ⟨_, rfl, fun i hi => hintent hi fun d => by rw [haccept]; rfl⟩
    | decline => exact ⟨_, rfl, fun i hi => hintent hi fun d => by rw [hdecline]; rfl⟩

/-- What a step makes of the text. -/
theorem TextFor.next (htext : TextFor (lastShown es) s) (h : RingStep (lastShown es) s e t)
    (hwithheld : ∀ c n, e = .show c → Withheld s c →
      (a.seen s).notification NOTIFICATION_ID = some n → n.contentText = shortCallerId c) :
    TextFor (lastShown (es ++ [e])) t := by
  intro n hn
  rw [lastShown_concat]
  obtain ⟨c, rfl, hshown⟩ | ⟨hshow, hlessens⟩ := h.shown_or_lessens
  · refine ⟨c, rfl, ?_⟩
    by_cases hw : Withheld s c
    · exact hwithheld c n rfl hw (hshown.withheld hw ▸ hn)
    · obtain ⟨m, hm, hbuilt, -⟩ := hshown.posted hw
      obtain rfl := Option.some.inj (hm.symm.trans hn)
      exact hbuilt.contentText
  · rw [hshow]
    exact htext n (hlessens.notification n hn)

/-- **Whom the notification is about.**  A call that the system does not withhold is
notified of, with intents that are there and for its caller.  Whatever has happened, the
text is that of one of the callers, and the full-screen intent and both actions are for
the caller shown last.  The text, too, is always that of the last caller in exactly the
runs in which no call of another caller is withheld while there is a notification. -/
theorem notification_about_last (h : a.Documented) (hs : a.Fresh s)
    (es : List (RingEvent a.Doing)) :
    (∀ c, ¬ Withheld ((incomingCalls a).run s es) c →
      ∃ n, (a.seen ((incomingCalls a).run s (es ++ [.show c]))).notification NOTIFICATION_ID =
          some n ∧ n.contentText = shortCallerId c ∧
        ∀ p ∈ n.pendingIntents, ∃ i,
          (a.seen ((incomingCalls a).run s (es ++ [.show c]))).intent p = some i ∧
            i.callerHolderHex = some c) ∧
    (∀ n, (a.seen ((incomingCalls a).run s es)).notification NOTIFICATION_ID = some n →
      (∃ c, .show c ∈ es ∧ n.contentText = shortCallerId c) ∧
        IntentsFor (lastShown es) ((incomingCalls a).run s es) n) ∧
    ((∀ pre, pre <+: es → TextFor (lastShown pre) ((incomingCalls a).run s pre)) ↔
      (incomingCalls a).AllSteps (fun t e => ∀ c n, e = .show c → Withheld t c →
        (a.seen t).notification NOTIFICATION_ID = some n → n.contentText = shortCallerId c)
        s es) := by
  have hknown := known_run h hs es
  refine ⟨fun c hw => ?_, fun n hn => ?_, ?_⟩
  · have hshown := shown h (hknown.carries c)
    obtain ⟨n, hn, hbuilt, hthere⟩ := hshown.posted hw
    rw [Mealy.run_append]
    refine ⟨n, hn, hbuilt.contentText, fun p hp => ?_⟩
    obtain ⟨i, hi⟩ := Option.isSome_iff_exists.mp (hthere p hp)
    obtain ⟨d, hd, hlow⟩ := hshown.carries p i hi
    obtain rfl := hlow (callIntent_lt hd)
    exact ⟨i, hi, callIntent_caller hd⟩
  · obtain ⟨c, hc, hbuilt⟩ := hknown.notification n hn
    exact ⟨⟨c, hc, hbuilt.contentText⟩, hknown.intentsFor hbuilt⟩
  · refine Mealy.prefixes_iff_allSteps (I := fun es t => Known es t ∧ TextFor (lastShown es) t)
      (fun _ _ hI => hI.2) (fun es e t hI hG => ?_) (fun es e t hI hG hQ => hG ?_)
      ⟨known_fresh hs, fun n hn => nomatch (hs.notification _).symm.trans hn⟩ es
    · have hstep := hI.1.ringStep h e
      exact ⟨hI.1.next hstep, hI.2.next hstep hG⟩
    · rintro c n rfl hw hn
      have hshown := shown h (hI.1.carries c)
      obtain ⟨d, hd, htext⟩ := hQ n ((hshown.withheld hw).trans hn)
      rw [lastShown_concat] at hd
      obtain rfl := Option.some.inj hd
      exact htext

/-- The second of two calls comes too soon after the first. -/
def tooSoon : List (RingEvent PlainDoing) :=
  [.show "1c06", .system (.limit true), .show "77ab"]

def afterTooSoon : PlainState :=
  (incomingCalls (plainAndroid 33 .material)).run PlainState.fresh tooSoon

/-- It is dropped, and what shows the first caller answers to the second. -/
theorem notification_about_last_tooSoon :
    (∃ n, afterTooSoon.notifications NOTIFICATION_ID = some n ∧
      n.contentText = shortCallerId "1c06" ∧
      IntentsFor (a := plainAndroid 33 .material) (some "77ab") afterTooSoon n) ∧
    ¬ ∀ pre, pre <+: tooSoon → TextFor (a := plainAndroid 33 .material) (lastShown pre)
      ((incomingCalls (plainAndroid 33 .material)).run PlainState.fresh pre) := by
  obtain ⟨-, hintents, htext⟩ := notification_about_last (plainAndroid_documented 33 .material)
    (plainAndroid_fresh 33 .material) tooSoon
  have hn : afterTooSoon.notifications NOTIFICATION_ID =
      some (incomingCall "1c06" ⟨0, none⟩ ⟨1, some ACTION_ACCEPT⟩ ⟨2, some ACTION_DECLINE⟩) := rfl
  refine ⟨⟨_, hn, rfl, (hintents _ hn).2⟩, fun hall => ?_⟩
  have hstep := htext.mp hall (tooSoon.take 2) (.show "77ab") List.prefix_rfl "77ab" _ rfl rfl hn
  exact absurd hstep (by decide)

end CtAgentAndroid
