import CtAgentAndroid.Hex
import CtAgentAndroid.PrefixCode

/-! # The WebRTC signal wire format

`SignalMessage::encode_inner` and `decode_inner` of `lib.rs`, with the helpers
they are made of and the functions exported over them.  The encoder pushes length
prefixes by `as u16` and `as u8` casts; the decoder threads a cursor through the
`take_*` helpers, each of which may fail, and its slice operations may panic.

Lengths are `usize` in the source and natural numbers here.
-/
namespace CtAgentAndroid
open Rust PrefixCode

/-- WebRTC signaling messages. -/
inductive SignalMessage where
  | offer (sdp : String)
  | answer (sdp : String)
  | iceCandidate (candidate : String) (sdpMid : Option String) (sdpMlineIndex : Option UInt16)
  | bye
  deriving DecidableEq, Repr

def SIGNAL_TYPE_OFFER : UInt8 := 1
def SIGNAL_TYPE_ANSWER : UInt8 := 2
def SIGNAL_TYPE_ICE : UInt8 := 3
def SIGNAL_TYPE_BYE : UInt8 := 4
def SIGNAL_NO_MLINE_INDEX : UInt16 := 65535

/-! ## Encoding -/

/-- `push_u16_str`: what is appended. -/
def pushU16Str (s : String) : List UInt8 := toBeBytes (asU16 s.utf8ByteSize) ++ asBytes s

/-- `push_u8_str`: what is appended. -/
def pushU8Str (s : String) : List UInt8 := asU8 s.utf8ByteSize :: asBytes s

/-- `SignalMessage::encode_inner`. -/
def SignalMessage.encodeInner : SignalMessage → List UInt8
  | offer sdp => SIGNAL_TYPE_OFFER :: pushU16Str sdp
  | answer sdp => SIGNAL_TYPE_ANSWER :: pushU16Str sdp
  | iceCandidate candidate sdpMid sdpMlineIndex =>
    SIGNAL_TYPE_ICE :: (pushU16Str candidate ++ pushU8Str (sdpMid.getD "") ++
      toBeBytes (sdpMlineIndex.getD SIGNAL_NO_MLINE_INDEX))
  | bye => [SIGNAL_TYPE_BYE]

/-! ## Decoding -/

/-- What the `take_*` helpers are: they read off `cur` and advance it. -/
abbrev Cursor (α : Type) := Reader CtAgentError UInt8 α

/-- `take_n`. -/
def takeN (n : Nat) : Cursor (List UInt8) := fun cur =>
  if cur.length < n then .err (.generic "truncated signal message")
  else do
    let (head, tail) ← splitAt cur n
    return (head, tail)

/-- `take_u8`. -/
def takeU8 : Cursor UInt8 := do
  let head ← takeN 1
  (index head 0 : Outcome CtAgentError UInt8)

/-- `u16::from_be_bytes(take_n(cur, 2)?.try_into().unwrap())`. -/
def takeU16 : Cursor UInt16 := do
  let head ← takeN 2
  (fromBeBytes <$> Outcome.unwrap (tryIntoArray 2 head) : Outcome CtAgentError UInt16)

/-- The tail of `take_u16_str` and `take_u8_str`: `len` bytes that must be
UTF-8. -/
def takeText (len : Nat) : Cursor String := do
  let bytes ← takeN len
  Outcome.okOr (CtAgentError.generic "signal message field is not valid UTF-8") (fromUtf8 bytes)

/-- `take_u16_str`. -/
def takeU16Str : Cursor String := do
  let len ← takeU16
  takeText len.toNat

/-- `take_u8_str`. -/
def takeU8Str : Cursor String := do
  let len ← takeU8
  takeText len.toNat

/-- The `SIGNAL_TYPE_ICE` arm of `decode_inner`. -/
def takeIceCandidate : Cursor SignalMessage := do
  let candidate ← takeU16Str
  let mid ← takeU8Str
  let mline ← takeU16
  return .iceCandidate candidate
    (if mid.isEmpty then none else some mid)
    (if mline ≠ SIGNAL_NO_MLINE_INDEX then some mline else none)

/-- The match of `decode_inner` on the type byte. -/
def takeBody (kind : UInt8) : Cursor SignalMessage :=
  if kind = SIGNAL_TYPE_OFFER then SignalMessage.offer <$> takeU16Str
  else if kind = SIGNAL_TYPE_ANSWER then SignalMessage.answer <$> takeU16Str
  else if kind = SIGNAL_TYPE_ICE then takeIceCandidate
  else if kind = SIGNAL_TYPE_BYE then return .bye
  else fun _ => .err (.generic s!"unknown signal message type {kind}")

/-- `SignalMessage::decode_inner`.  What is left behind the message is
dropped. -/
def SignalMessage.decodeInner (bytes : List UInt8) : Outcome CtAgentError SignalMessage :=
  decode (takeU8 >>= takeBody) bytes

/-! ## Exported functions -/

/-- `encode_signal_offer`. -/
def encodeSignalOffer (sdp : String) : List UInt8 := (SignalMessage.offer sdp).encodeInner

/-- `encode_signal_answer`. -/
def encodeSignalAnswer (sdp : String) : List UInt8 := (SignalMessage.answer sdp).encodeInner

/-- `encode_signal_ice_candidate`. -/
def encodeSignalIceCandidate (candidate : String) (sdpMid : Option String)
    (sdpMlineIndex : Option UInt16) : List UInt8 :=
  (SignalMessage.iceCandidate candidate sdpMid sdpMlineIndex).encodeInner

/-- `encode_signal_bye`. -/
def encodeSignalBye : List UInt8 := SignalMessage.bye.encodeInner

/-- `decode_signal_message`. -/
def decodeSignalMessage (bytes : List UInt8) : Outcome CtAgentError SignalMessage :=
  SignalMessage.decodeInner bytes

end CtAgentAndroid
