import CtAgentAndroid.Hex

/-! # Noise handshakes and sessions

`NoiseHandshake` and `NoiseTransport` of `lib.rs`: the library's states behind a
mutex, and behind an `Option` as well for the handshake, which `into_transport`
turns into a session.

The cryptography is not in this crate.  `Snow` is what the crate uses of it: two
types of states and the calls on them.  A call that works through `&mut self`
returns the state it leaves behind, also when it fails; a call that takes `self`
by value returns no state at all.  Of a library error only the text is used.
-/
namespace CtAgentAndroid
open Rust

def NOISE_MAX_MESSAGE : Nat := 65535

/-- `[u8; NOISE_MAX_MESSAGE]`. -/
abbrev MessageBuffer := Vector UInt8 NOISE_MAX_MESSAGE

/-- `fn(&mut self, &[u8], &mut [u8]) -> Result<usize, Error>`: what is left in
the state and in the buffer, and how many bytes of the buffer are the result. -/
abbrev BufferedCall (σ : Type) :=
  σ → List UInt8 → MessageBuffer → σ × MessageBuffer × Except String Nat

/-- The Noise library. -/
structure Snow where
  HandshakeState : Type
  TransportState : Type
  /-- `ct_common::noise::client_handshake`. -/
  clientHandshake : Vector UInt8 32 → Vector UInt8 32 → Except String HandshakeState
  /-- `ct_common::noise::origin_handshake`. -/
  originHandshake : Vector UInt8 32 → Except String HandshakeState
  /-- `HandshakeState::write_message`. -/
  writeHandshake : BufferedCall HandshakeState
  /-- `HandshakeState::read_message`. -/
  readHandshake : BufferedCall HandshakeState
  /-- `HandshakeState::is_handshake_finished`. -/
  isHandshakeFinished : HandshakeState → Bool
  /-- `HandshakeState::into_transport_mode`, which consumes the handshake. -/
  intoTransportMode : HandshakeState → Except String TransportState
  /-- `TransportState::write_message`. -/
  writeTransport : BufferedCall TransportState
  /-- `TransportState::read_message`. -/
  readTransport : BufferedCall TransportState

/-- The body of the four message methods: lend the library a zeroed buffer and
return the bytes it says it used. -/
def exchange {σ : Type} (call : BufferedCall σ) (state : σ) (payload : List UInt8) :
    σ × Outcome CtAgentError (List UInt8) :=
  let (state, buf, used) := call state payload (Vector.replicate NOISE_MAX_MESSAGE 0)
  (state, do
    let n ← Outcome.mapErr CtAgentError.generic used
    sliceTo buf.toList n)

/-! ## Handshakes -/

/-- `NoiseHandshake`: `None` once `into_transport` has taken the state. -/
abbrev NoiseHandshake (snow : Snow) := Guarded (Option snow.HandshakeState)

/-- `NoiseTransport`. -/
abbrev NoiseTransport (snow : Snow) := Guarded snow.TransportState

/-- What every method answers when there is no handshake left. -/
def alreadyConsumed : CtAgentError :=
  .generic "handshake already consumed by into_transport()"

namespace NoiseHandshake
variable {snow : Snow}

/-- `NoiseHandshake::new_initiator`. -/
def newInitiator (snow : Snow) (localNoisePrivateHex remoteNoisePublicHex : String) :
    Outcome CtAgentError (NoiseHandshake snow) := do
  let localKey ← hex32 localNoisePrivateHex
  let remoteKey ← hex32 remoteNoisePublicHex
  let hs ← Outcome.mapErr CtAgentError.generic (snow.clientHandshake localKey remoteKey)
  return .new (some hs)

/-- `NoiseHandshake::new_responder`. -/
def newResponder (snow : Snow) (localNoisePrivateHex : String) :
    Outcome CtAgentError (NoiseHandshake snow) := do
  let localKey ← hex32 localNoisePrivateHex
  let hs ← Outcome.mapErr CtAgentError.generic (snow.originHandshake localKey)
  return .new (some hs)

/-- `guard.as_mut().ok_or_else(..)?`, and the exchange on what is there. -/
def exchangeInner (call : BufferedCall snow.HandshakeState) (payload : List UInt8) :
    Option snow.HandshakeState → Option snow.HandshakeState × Outcome CtAgentError (List UInt8)
  | none => (none, .err alreadyConsumed)
  | some hs =>
    let (hs, result) := exchange call hs payload
    (some hs, result)

/-- `NoiseHandshake::write_message`. -/
def writeMessage (self : NoiseHandshake snow) (payload : List UInt8) :
    NoiseHandshake snow × Outcome CtAgentError (List UInt8) :=
  self.withLock (exchangeInner snow.writeHandshake payload)

/-- `NoiseHandshake::read_message`. -/
def readMessage (self : NoiseHandshake snow) (msg : List UInt8) :
    NoiseHandshake snow × Outcome CtAgentError (List UInt8) :=
  self.withLock (exchangeInner snow.readHandshake msg)

/-- `NoiseHandshake::is_finished`. -/
def isFinished (self : NoiseHandshake snow) : NoiseHandshake snow × Outcome CtAgentError Bool :=
  self.withLock fun inner => (inner, do
    let hs ← Outcome.okOr alreadyConsumed inner
    return snow.isHandshakeFinished hs)

/-- `NoiseHandshake::into_transport`.  `guard.take()` leaves `None` behind before
the conversion is tried. -/
def intoTransport (self : NoiseHandshake snow) :
    NoiseHandshake snow × Outcome CtAgentError (NoiseTransport snow) :=
  self.withLock fun inner => (none, do
    let hs ← Outcome.okOr alreadyConsumed inner
    let t ← Outcome.mapErr CtAgentError.generic (snow.intoTransportMode hs)
    return .new t)

end NoiseHandshake

/-! ## Sessions -/

namespace NoiseTransport
variable {snow : Snow}

/-- `NoiseTransport::encrypt`. -/
def encrypt (self : NoiseTransport snow) (plaintext : List UInt8) :
    NoiseTransport snow × Outcome CtAgentError (List UInt8) :=
  self.withLock fun t => exchange snow.writeTransport t plaintext

/-- `NoiseTransport::decrypt`. -/
def decrypt (self : NoiseTransport snow) (ciphertext : List UInt8) :
    NoiseTransport snow × Outcome CtAgentError (List UInt8) :=
  self.withLock fun t => exchange snow.readTransport t ciphertext

end NoiseTransport
end CtAgentAndroid
