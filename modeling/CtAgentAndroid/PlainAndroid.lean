import CtAgentAndroid.Android

/-! # An Android to try things on

One that does what its documentation says, and withholds exactly the updates of a
notification that come too often.  From API level 34 on it refuses a `phoneCall`
service, for want of a permission that the manifest does not ask for; and
`setContentView` throws unless the theme is one of its library's own, which the
manifest's is not.  It keeps `Android.Documented`, so a statement about incoming calls
can be tried on it.
-/
namespace CtAgentAndroid

/-- What pending intents are told apart by; all are for `IncomingCallActivity`. -/
structure PlainPending where
  requestCode : Nat
  action : Option String
  deriving DecidableEq, Repr

inductive PlainDoing where
  | clear (id : Nat)
  | leave
  | limit (tooOften : Bool)
  | kill
  deriving DecidableEq, Repr

inductive Theme where
  | material
  | appCompat
  deriving DecidableEq, Repr

structure PlainState where
  channels : String → Bool
  notifications : Nat → Option (Notification PlainPending)
  foreground : Option Nat
  /-- The extra of each pending intent that is there. -/
  extras : PlainPending → Option (Option String)
  ringing : Option RingingView
  /-- The app has updated a notification too often of late. -/
  tooOften : Bool

namespace PlainState
variable (s : PlainState)

/-- Nothing of the app is there. -/
def fresh : PlainState := ⟨fun _ => false, fun _ => none, none, fun _ => none, none, false⟩

def seen : Seen PlainPending :=
  ⟨s.channels, s.notifications, s.foreground, fun p => (s.extras p).map (⟨p.action, ·⟩), s.ringing⟩

def getActivity (code : Nat) (intent : Intent) : PlainState :=
  { s with
    extras := Function.update s.extras ⟨code, intent.action⟩ (some intent.callerHolderHex) }

def withholds (id : Nat) : Bool := s.tooOften && (s.notifications id).isSome

def post (id : Nat) (n : Notification PlainPending) : PlainState :=
  if s.withholds id = true then s
  else { s with notifications := Function.update s.notifications id (some n) }

def notify (sdkInt id : Nat) (n : Notification PlainPending) : PlainState :=
  if sdkInt < Android.versionO ∨ s.channels n.channelId = true then s.post id n else s

def cancel (id : Nat) : PlainState :=
  if s.foreground = some id then s
  else { s with notifications := Function.update s.notifications id none }

def startForeground (sdkInt id : Nat) (n : Notification PlainPending) :
    PlainState × Except String Unit :=
  if sdkInt < 34 then ({ s.post id n with foreground := some id }, .ok ())
  else (s, .error "SecurityException")

def setContentView (theme : Theme) (view : RingingView) : PlainState × Except String Unit :=
  match theme with
  | .material => (s, .error "IllegalStateException")
  | .appCompat => ({ s with ringing := some view }, .ok ())

def kill : PlainState := { s with foreground := none, ringing := none }

def does : PlainDoing → PlainState
  | .clear id => s.cancel id
  | .leave => { s with ringing := none }
  | .limit tooOften => { s with tooOften := tooOften }
  | .kill => s.kill

end PlainState

def plainAndroid (sdkInt : Nat) (theme : Theme) : Android where
  State := PlainState
  PendingIntent := PlainPending
  Throwable := String
  Doing := PlainDoing
  sdkInt := sdkInt
  seen := PlainState.seen
  requestCode := PlainPending.requestCode
  withholds s id _ := s.withholds id
  createNotificationChannel s id := { s with channels := Function.update s.channels id true }
  getActivity s code intent := (s.getActivity code intent, ⟨code, intent.action⟩)
  notify s id n := s.notify sdkInt id n
  cancel := PlainState.cancel
  startForeground s id n := s.startForeground sdkInt id n
  send s p := (s, s.seen.delivery p)
  setContentView s view := s.setContentView theme view
  finish s := { s with ringing := none }
  uncaught s _ := s.kill
  does := PlainState.does

/-! ## It is documented -/

namespace PlainState
variable (s : PlainState)

theorem seen_post (id : Nat) (n : Notification PlainPending) :
    ∃ shown, (shown = some n ∨ shown = s.notifications id) ∧
      s.post id n = { s with notifications := Function.update s.notifications id shown } := by
  unfold post
  split
  · exact ⟨s.notifications id, .inr rfl, by rw [Function.update_eq_self]⟩
  · exact ⟨some n, .inl rfl, rfl⟩

theorem fewer_cancel (id : Nat) : s.seen.Fewer (s.cancel id).seen := by
  unfold cancel
  split
  · exact .refl
  · exact Seen.fewer_setNotification_none id

theorem fewer_kill : s.seen.Fewer s.kill.seen :=
  ⟨fun _ _ h => h, nofun, fun _ _ h => h, nofun⟩

theorem fewer_does (doing : PlainDoing) : s.seen.Fewer (s.does doing).seen := by
  cases doing with
  | clear id => exact s.fewer_cancel id
  | leave => exact Seen.Fewer.refl.setRinging_none
  | limit tooOften => exact .refl
  | kill => exact s.fewer_kill

theorem intent_getActivity (code : Nat) (intent : Intent) :
    (s.getActivity code intent).seen.intent ⟨code, intent.action⟩ = some intent := by
  show (Function.update s.extras _ _ _).map _ = _
  rw [Function.update_self]
  rfl

theorem intent_getActivity_of_ne {code : Nat} {intent : Intent} {q : PlainPending}
    (hq : q ≠ ⟨code, intent.action⟩) :
    (s.getActivity code intent).seen.intent q = s.seen.intent q := by
  show (Function.update s.extras _ _ _).map _ = _
  rw [Function.update_of_ne hq]
  rfl

theorem seen_notify {sdkInt id : Nat} {n : Notification PlainPending}
    (hlet : s.withholds id = false)
    (hchannel : sdkInt < Android.versionO ∨ s.channels n.channelId = true) :
    (s.notify sdkInt id n).seen = s.seen.setNotification id (some n) := by
  rw [notify, if_pos hchannel, post, hlet, if_neg Bool.false_ne_true]
  rfl

theorem notify_withheld {sdkInt id : Nat} {n : Notification PlainPending}
    (hwithheld : s.withholds id = true) : s.notify sdkInt id n = s := by
  rw [notify, post, if_pos hwithheld, ite_self]

theorem startForeground_ok {sdkInt id : Nat} {n : Notification PlainPending}
    (hok : (s.startForeground sdkInt id n).2 = .ok ()) :
    (s.startForeground sdkInt id n).1 = { s.post id n with foreground := some id } := by
  unfold startForeground at hok ⊢
  split at hok
  · next hold => rw [if_pos hold]
  · cases hok

theorem startForeground_error {sdkInt id : Nat} {n : Notification PlainPending} {t : String}
    (herror : (s.startForeground sdkInt id n).2 = .error t) :
    (s.startForeground sdkInt id n).1 = s := by
  unfold startForeground at herror ⊢
  split at herror
  · cases herror
  · next hnew => rw [if_neg hnew]

end PlainState

theorem plainAndroid_documented (sdkInt : Nat) (theme : Theme) :
    (plainAndroid sdkInt theme).Documented where
  createNotificationChannel s id := rfl
  getActivity s code intent := {
    requestCode := rfl
    kept := by
      rintro q i hq rfl haction
      obtain ⟨extra, -, rfl⟩ := Option.map_eq_some_iff.mp hq
      exact congrArg (PlainPending.mk q.requestCode) haction
    updated := PlainState.intent_getActivity s code intent
    others := fun q hq => PlainState.intent_getActivity_of_ne s hq
    channel := rfl
    same := ⟨rfl, rfl, rfl⟩ }
  posts s id n hlet hchannel := PlainState.seen_notify s hlet hchannel
  withheld s id n hwithheld := congrArg PlainState.seen (PlainState.notify_withheld s hwithheld)
  cancels s id hforeground := congrArg PlainState.seen (if_neg hforeground)
  startsForeground s id n hok := by
    obtain ⟨shown, hshown, hpost⟩ := PlainState.seen_post s id n
    have hstate := PlainState.startForeground_ok s hok
    rw [hpost] at hstate
    exact ⟨shown, hshown, congrArg PlainState.seen hstate⟩
  foregroundRefused s id n t herror :=
    congrArg PlainState.seen (PlainState.startForeground_error s herror)
  sends s p := ⟨rfl, rfl⟩
  setsContentView s view hok := by
    cases theme with
    | material => cases hok
    | appCompat => rfl
  contentViewRefused s view t herror := by
    cases theme with
    | material => rfl
    | appCompat => cases herror
  finish s := rfl
  uncaught s _ := PlainState.fewer_kill s
  does s doing := PlainState.fewer_does s doing

theorem plainAndroid_fresh (sdkInt : Nat) (theme : Theme) :
    (plainAndroid sdkInt theme).Fresh PlainState.fresh where
  notification _ := rfl
  foreground := rfl
  intent _ := rfl
  ringing := rfl

end CtAgentAndroid
