import Mathlib.Logic.Function.Basic
import Mathlib.Tactic.Simps.Basic

/-! # What the call code asks of Android

Android is not part of the repository.  It is a parameter here (`Android`): the calls
that `IncomingCallNotifications`, `IncomingCallActivity` and `IncomingCallService`
make, and what can be seen of the system afterwards (`Seen`).  What the results on
incoming calls need of it is in `Android.Documented`, one field for each call, and is
always a hypothesis.

Nothing is assumed of when the system withholds a notification, refuses a foreground
service or throws, nor of what it or the user takes away in between.
-/
namespace CtAgentAndroid

/-! ## What passes between the code and the system -/

/-- An intent for `IncomingCallActivity`. -/
structure Intent where
  action : Option String
  callerHolderHex : Option String
  deriving DecidableEq, Repr

structure Notification (PendingIntent : Type) where
  channelId : String
  contentTitle : String
  contentText : String
  category : Option String
  ongoing : Bool
  fullScreenIntent : Option PendingIntent
  actions : List (String × PendingIntent)
  deriving DecidableEq, Repr

/-- `buildRingingView`: its two texts, and the caller that its buttons are for. -/
structure RingingView where
  title : String
  callerText : String
  callerHex : String
  deriving DecidableEq, Repr

/-- What a pending intent comes to when it is sent. -/
inductive Delivery where
  | canceled
  /-- An instance of the activity is created for it. -/
  | onCreate (intent : Intent)
  /-- The instance that is there gets it. -/
  | onNewIntent (intent : Intent)
  deriving DecidableEq, Repr

/-- What can be seen of the system. -/
structure Seen (PendingIntent : Type) where
  channel : String → Bool
  notification : Nat → Option (Notification PendingIntent)
  /-- The notification that stands for the foreground service. -/
  foreground : Option Nat
  /-- What a pending intent sends, unless it is canceled or was never made. -/
  intent : PendingIntent → Option Intent
  /-- The content of the ringing activity, if there is one; an instance that the system
  destroys to make it again of the same intent is there all the while. -/
  ringing : Option RingingView

namespace Seen
variable {PendingIntent : Type} (u v : Seen PendingIntent)

@[simps] def addChannel (id : String) : Seen PendingIntent :=
  { u with channel := Function.update u.channel id true }

/-- What is shown under an id. -/
@[simps] def setNotification (id : Nat) (shown : Option (Notification PendingIntent)) :
    Seen PendingIntent := { u with notification := Function.update u.notification id shown }

@[simps] def setRinging (view : Option RingingView) : Seen PendingIntent :=
  { u with ringing := view }

@[simps] def setForeground (id : Nat) : Seen PendingIntent := { u with foreground := some id }

/-- Nothing in `v` is new: notifications, pending intents and the activity are those
of `u`, or gone. -/
structure Fewer : Prop where
  notification : ∀ id n, v.notification id = some n → u.notification id = some n
  foreground : ∀ id, v.foreground = some id → u.foreground = some id
  intent : ∀ p i, v.intent p = some i → u.intent p = some i
  ringing : ∀ view, v.ringing = some view → u.ringing = some view

/-- The user sees no difference: notifications, foreground service and activity are the
same. -/
structure SameView : Prop where
  notification : v.notification = u.notification
  foreground : v.foreground = u.foreground
  ringing : v.ringing = u.ringing

/-- Where the intent of `p` goes: for `launchMode="singleTask"`, to the instance of the
activity that is there, or else to a new one. -/
def delivery (p : PendingIntent) : Delivery :=
  match u.intent p, u.ringing with
  | none, _ => .canceled
  | some i, none => .onCreate i
  | some i, some _ => .onNewIntent i

variable {u v}

theorem SameView.trans {w : Seen PendingIntent} (h : u.SameView v) (h' : v.SameView w) :
    u.SameView w :=
  ⟨h'.notification.trans h.notification, h'.foreground.trans h.foreground,
    h'.ringing.trans h.ringing⟩

theorem Fewer.refl : u.Fewer u := ⟨fun _ _ h => h, fun _ h => h, fun _ _ h => h, fun _ h => h⟩

theorem fewer_setNotification_none (id : Nat) : u.Fewer (u.setNotification id none) := by
  refine ⟨fun j n hn => ?_, fun _ h => h, fun _ _ h => h, fun _ h => h⟩
  by_cases hj : j = id
  · simp [hj] at hn
  · simpa [hj] using hn

theorem Fewer.setRinging_none (h : u.Fewer v) : u.Fewer (v.setRinging none) :=
  ⟨h.notification, h.foreground, h.intent, nofun⟩

theorem SameView.fewer {w : Seen PendingIntent} (h : u.SameView v) (hintent : v.intent = u.intent)
    (h' : v.Fewer w) : u.Fewer w :=
  ⟨h.notification ▸ h'.notification, h.foreground ▸ h'.foreground, hintent ▸ h'.intent,
    h.ringing ▸ h'.ringing⟩

section Delivery
variable {p : PendingIntent} {i : Intent}

theorem delivery_none (hp : u.intent p = none) : u.delivery p = .canceled := by
  unfold delivery
  rw [hp]

theorem delivery_onCreate (hp : u.intent p = some i) (hnone : u.ringing = none) :
    u.delivery p = .onCreate i := by
  unfold delivery
  rw [hp, hnone]

theorem delivery_onNewIntent {view : RingingView} (hp : u.intent p = some i)
    (hview : u.ringing = some view) : u.delivery p = .onNewIntent i := by
  unfold delivery
  rw [hp, hview]

end Delivery
end Seen

/-! ## The system -/

/-- **Android, as far as the call code uses it.** -/
structure Android where
  State : Type
  PendingIntent : Type
  Throwable : Type
  /-- What the user and the system do of themselves: clear a notification, leave or
  destroy an activity, kill the process, take a permission away. -/
  Doing : Type
  /-- `Build.VERSION.SDK_INT`. -/
  sdkInt : Nat
  seen : State → Seen PendingIntent
  /-- The request code that a pending intent was made with. -/
  requestCode : PendingIntent → Nat
  /-- A notification is not let through: for want of the permission, or because the
  app has posted too many or updates them too often. -/
  withholds : State → Nat → Notification PendingIntent → Bool
  createNotificationChannel : State → String → State
  /-- `PendingIntent.getActivity` with `FLAG_UPDATE_CURRENT`. -/
  getActivity : State → Nat → Intent → State × PendingIntent
  notify : State → Nat → Notification PendingIntent → State
  cancel : State → Nat → State
  startForeground : State → Nat → Notification PendingIntent → State × Except Throwable Unit
  /-- `PendingIntent.send`. -/
  send : State → PendingIntent → State × Delivery
  /-- `AppCompatActivity.setContentView`; it may not like the theme. -/
  setContentView : State → RingingView → State × Except Throwable Unit
  finish : State → State
  /-- A callback of the app has thrown. -/
  uncaught : State → Throwable → State
  does : State → Doing → State

namespace Android

/-- `Build.VERSION_CODES.O`. -/
def versionO : Nat := 26

variable (a : Android)

/-- `PendingIntent.getActivity`: one that is there with the request code and the action
is kept, and no other; it sends the new intent; the others send what they did. -/
structure Retrieves (s : a.State) (code : Nat) (intent : Intent) (t : a.State)
    (p : a.PendingIntent) : Prop where
  requestCode : a.requestCode p = code
  kept : ∀ q i, (a.seen s).intent q = some i → a.requestCode q = code →
    i.action = intent.action → q = p
  updated : (a.seen t).intent p = some intent
  others : ∀ q, q ≠ p → (a.seen t).intent q = (a.seen s).intent q
  channel : (a.seen t).channel = (a.seen s).channel
  same : (a.seen s).SameView (a.seen t)

/-- **What the documentation says of each call.** -/
structure Documented : Prop where
  createNotificationChannel : ∀ s id,
    a.seen (a.createNotificationChannel s id) = (a.seen s).addChannel id
  getActivity : ∀ s code intent, a.Retrieves s code intent
    (a.getActivity s code intent).1 (a.getActivity s code intent).2
  /-- What is let through, on a channel that is there, is posted or replaced. -/
  posts : ∀ s id n, a.withholds s id n = false →
    (a.sdkInt < versionO ∨ (a.seen s).channel n.channelId = true) →
    a.seen (a.notify s id n) = (a.seen s).setNotification id (some n)
  /-- What is not leaves an earlier notification as it is. -/
  withheld : ∀ s id n, a.withholds s id n = true → a.seen (a.notify s id n) = a.seen s
  /-- A notification is removed, unless it stands for a foreground service. -/
  cancels : ∀ s id, (a.seen s).foreground ≠ some id →
    a.seen (a.cancel s id) = (a.seen s).setNotification id none
  /-- The service is in the foreground, whether or not its notification is let through. -/
  startsForeground : ∀ s id n, (a.startForeground s id n).2 = .ok () →
    ∃ shown, (shown = some n ∨ shown = (a.seen s).notification id) ∧
      a.seen (a.startForeground s id n).1 =
        ((a.seen s).setNotification id shown).setForeground id
  foregroundRefused : ∀ s id n thrown, (a.startForeground s id n).2 = .error thrown →
    a.seen (a.startForeground s id n).1 = a.seen s
  sends : ∀ s p, (a.send s p).2 = (a.seen s).delivery p ∧ a.seen (a.send s p).1 = a.seen s
  setsContentView : ∀ s view, (a.setContentView s view).2 = .ok () →
    a.seen (a.setContentView s view).1 = (a.seen s).setRinging (some view)
  contentViewRefused : ∀ s view thrown, (a.setContentView s view).2 = .error thrown →
    a.seen (a.setContentView s view).1 = a.seen s
  finish : ∀ s, a.seen (a.finish s) = (a.seen s).setRinging none
  /-- The process ends. -/
  uncaught : ∀ s thrown, (a.seen s).Fewer (a.seen (a.uncaught s thrown))
  does : ∀ s doing, (a.seen s).Fewer (a.seen (a.does s doing))

/-- Nothing of the app is there yet. -/
structure Fresh (s : a.State) : Prop where
  notification : ∀ id, (a.seen s).notification id = none
  foreground : (a.seen s).foreground = none
  intent : ∀ p, (a.seen s).intent p = none
  ringing : (a.seen s).ringing = none

end Android
end CtAgentAndroid
