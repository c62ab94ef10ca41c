import CtAgentAndroid.Android
import CtAgentAndroid.Automaton

/-! # Incoming calls

`IncomingCallNotifications`, `IncomingCallActivity` and `IncomingCallService`, over any
Android: the notification of an incoming call, with a full-screen intent and two
actions, the ringing screen they lead to, and the notification of the foreground
service.

What the user and the system do is in the events, in any order.  A callback that
throws ends in `Android.uncaught`.  Icons, priorities and window flags are left out: no
code reads them.
-/
namespace CtAgentAndroid
open Automaton

variable {a : Android}

/-! ## `IncomingCallNotifications` -/

def CHANNEL_ID : String := "incoming_call"
def NOTIFICATION_ID : Nat := 1001

def ACTION_ACCEPT : String := "org.bunsenbrenner.cads.webconference.call.ACCEPT"
def ACTION_DECLINE : String := "org.bunsenbrenner.cads.webconference.call.DECLINE"

/-- `String.take`, for texts of one UTF-16 unit a character, as hex is. -/
def takeChars (n : Nat) (s : String) : String := String.ofList (s.toList.take n)

/-- `ensureChannel`. -/
def ensureChannel (s : a.State) : a.State :=
  if a.sdkInt < Android.versionO then s else a.createNotificationChannel s CHANNEL_ID

/-- `shortCallerId`. -/
def shortCallerId (callerHex : String) : String := takeChars 12 callerHex ++ "…"

/-- The notification that `show` builds of its three pending intents. -/
def incomingCall {PendingIntent : Type} (callerHex : String)
    (fullScreen accept decline : PendingIntent) : Notification PendingIntent where
  channelId := CHANNEL_ID
  contentTitle := "Incoming call"
  contentText := shortCallerId callerHex
  category := some "call"
  ongoing := true
  fullScreenIntent := some fullScreen
  actions := [("Accept", accept), ("Decline", decline)]

/-- `show`, but for the last line. -/
def buildIncomingCall (s : a.State) (callerHolderPublicHex : String) :
    a.State × Notification a.PendingIntent :=
  let s := ensureChannel s
  let (s, fullScreen) := a.getActivity s 0 ⟨none, some callerHolderPublicHex⟩
  let (s, accept) := a.getActivity s 1 ⟨some ACTION_ACCEPT, some callerHolderPublicHex⟩
  let (s, decline) := a.getActivity s 2 ⟨some ACTION_DECLINE, some callerHolderPublicHex⟩
  (s, incomingCall callerHolderPublicHex fullScreen accept decline)

/-- `show`. -/
def showIncomingCall (s : a.State) (callerHolderPublicHex : String) : a.State :=
  let (s, notification) := buildIncomingCall s callerHolderPublicHex
  a.notify s NOTIFICATION_ID notification

/-- `dismiss`. -/
def dismiss (s : a.State) : a.State := a.cancel s NOTIFICATION_ID

/-! ## `IncomingCallActivity` -/

/-- `buildRingingView`. -/
def buildRingingView (callerHex : String) : RingingView where
  title := "Incoming call"
  callerText := takeChars 16 callerHex ++ if 16 < callerHex.length then "…" else ""
  callerHex := callerHex

/-- `onAccept`. -/
def onAccept (s : a.State) (_callerHex : String) : a.State := a.finish (dismiss s)

/-- `onDecline`. -/
def onDecline (s : a.State) (_callerHex : String) : a.State := a.finish (dismiss s)

/-- `IncomingCallActivity.onCreate`. -/
def onCreateRinging (s : a.State) (intent : Intent) : a.State × Except a.Throwable Unit :=
  let callerHex := intent.callerHolderHex.getD ""
  if intent.action = some ACTION_ACCEPT then (onAccept s callerHex, .ok ())
  else if intent.action = some ACTION_DECLINE then (onDecline s callerHex, .ok ())
  else a.setContentView s (buildRingingView callerHex)

/-- `Activity.onNewIntent`, which `IncomingCallActivity` does not override. -/
def onNewIntent (s : a.State) (_intent : Intent) : a.State := s

/-! ## `IncomingCallService` -/

def SERVICE_NOTIFICATION_ID : Nat := 2001

def listening {PendingIntent : Type} : Notification PendingIntent where
  channelId := CHANNEL_ID
  contentTitle := "CADS Webconference"
  contentText := "Listening for incoming calls"
  category := none
  ongoing := true
  fullScreenIntent := none
  actions := []

/-- `IncomingCallService.onStartCommand`. -/
def onStartCommand (s : a.State) : a.State × Except a.Throwable Unit :=
  a.startForeground (ensureChannel s) SERVICE_NOTIFICATION_ID listening

/-! ## Runs -/

inductive Choice where
  | accept
  | decline
  deriving DecidableEq, Repr

/-- The label of a button. -/
def Choice.label : Choice → String
  | .accept => "Accept"
  | .decline => "Decline"

/-- What happens: a call comes in, the service is started, the system sends the
full-screen intent, the user presses an action of the notification or a button of the
ringing screen, or they do something of their own. -/
inductive RingEvent (Doing : Type) where
  | show (callerHex : String)
  | startService
  | fullScreen
  | action (choice : Choice)
  | press (choice : Choice)
  | system (doing : Doing)
  deriving DecidableEq, Repr

/-- The state after a callback that may have thrown. -/
def returned : a.State × Except a.Throwable Unit → a.State
  | (s, .ok ()) => s
  | (s, .error t) => a.uncaught s t

/-- The activity gets what was sent. -/
def receive (s : a.State) : Delivery → a.State
  | .canceled => s
  | .onCreate intent => returned (onCreateRinging s intent)
  | .onNewIntent intent => onNewIntent s intent

def sendPending (s : a.State) (p : a.PendingIntent) : a.State :=
  receive (a.send s p).1 (a.send s p).2

/-- What a notification has there is sent, if it has. -/
def sendIfThere (s : a.State) : Option a.PendingIntent → a.State
  | some p => sendPending s p
  | none => s

/-- A button of the ringing view is pressed, if the view is there. -/
def pressButton (s : a.State) (choice : Choice) : a.State :=
  match (a.seen s).ringing, choice with
  | some view, .accept => onAccept s view.callerHex
  | some view, .decline => onDecline s view.callerHex
  | none, _ => s

/-- The full-screen intent of the call's notification. -/
def fullScreenOf (s : a.State) : Option a.PendingIntent :=
  ((a.seen s).notification NOTIFICATION_ID).bind (·.fullScreenIntent)

/-- The intent of an action of the call's notification. -/
def actionOf (s : a.State) (choice : Choice) : Option a.PendingIntent :=
  ((a.seen s).notification NOTIFICATION_ID).bind (·.actions.lookup choice.label)

/-- The incoming-call part of the app. -/
def incomingCalls (a : Android) : Mealy a.State (RingEvent a.Doing) Unit where
  step s e := (match e with
    | .show callerHex => showIncomingCall s callerHex
    | .startService => returned (onStartCommand s)
    | .fullScreen => sendIfThere s (fullScreenOf s)
    | .action choice => sendIfThere s (actionOf s choice)
    | .press choice => pressButton s choice
    | .system doing => a.does s doing, ())

end CtAgentAndroid
