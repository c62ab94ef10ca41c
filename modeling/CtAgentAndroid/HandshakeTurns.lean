import CtAgentAndroid.NoiseChannel

/-! # Handshakes take turns

A Noise_IK handshake has two messages: the initiator's, then the responder's.  The
library passes a message only in its turn, and a call that fails leaves the
handshake where it was (`Snow.TakesTurns`).  So whatever is called on a
`NoiseHandshake`, by whomever and in whatever order, the messages that have passed
follow the script of its side, and a session is made only of a handshake that has
come to its end (`HandshakeStep`).
-/
namespace CtAgentAndroid
open Rust Automaton

/-! ## What is promised of the library -/

/-- Which way a message of a handshake passes. -/
inductive Way where
  | written
  | read
  deriving DecidableEq, Repr

/-- The messages of a side, in their order. -/
def Side.script : Side → List Way
  | .initiator => [.written, .read]
  | .responder => [.read, .written]

/-- A `HandshakeState`, seen from outside: its side, its private key, the public
key it was given for its peer, and the messages that have passed. -/
structure Half where
  side : Side
  own : Vector UInt8 32
  remote : Option (Vector UInt8 32)
  passed : List (List UInt8)
  deriving DecidableEq, Repr

namespace Half

/-- Which way the next message passes, if there is one. -/
def turn (h : Half) : Option Way := h.side.script[h.passed.length]?

/-- A message has passed. -/
def pass (h : Half) (m : List UInt8) : Half := { h with passed := h.passed ++ [m] }

end Half

/-- The library passes messages in turn, and `half` tells how far a handshake has
come.  A call that fails leaves it there. -/
structure Snow.TakesTurns (snow : Snow) (half : snow.HandshakeState → Half) : Prop where
  client : ∀ {own remote hs}, snow.clientHandshake own remote = .ok hs →
    half hs = ⟨.initiator, own, some remote, []⟩
  origin : ∀ {own hs}, snow.originHandshake own = .ok hs →
    half hs = ⟨.responder, own, none, []⟩
  writes : ∀ {hs payload buf n}, (snow.writeHandshake hs payload buf).2.2 = .ok n →
    n ≤ NOISE_MAX_MESSAGE ∧ (half hs).turn = some .written ∧
      half (snow.writeHandshake hs payload buf).1 =
        (half hs).pass ((snow.writeHandshake hs payload buf).2.1.toList.take n)
  unwritten : ∀ {hs payload buf e}, (snow.writeHandshake hs payload buf).2.2 = .error e →
    half (snow.writeHandshake hs payload buf).1 = half hs
  reads : ∀ {hs msg buf n}, (snow.readHandshake hs msg buf).2.2 = .ok n →
    n ≤ NOISE_MAX_MESSAGE ∧ (half hs).turn = some .read ∧
      half (snow.readHandshake hs msg buf).1 = (half hs).pass msg
  unread : ∀ {hs msg buf e}, (snow.readHandshake hs msg buf).2.2 = .error e →
    half (snow.readHandshake hs msg buf).1 = half hs
  finished : ∀ hs, snow.isHandshakeFinished hs = true ↔ (half hs).turn = none
  converts : ∀ hs, (∃ t, snow.intoTransportMode hs = .ok t) ↔ (half hs).turn = none

/-- `bytes` is what the library writes for a payload in the handshake `hs`. -/
def Snow.Writes (snow : Snow) (hs : snow.HandshakeState) (payload bytes : List UInt8) : Prop :=
  ∃ n, (snow.writeHandshake hs payload zeroed).2.2 = .ok n ∧
    (snow.writeHandshake hs payload zeroed).2.1.toList.take n = bytes

/-- What is promised of two handshakes through which the same messages have passed:
the keys of the one are those of the other, turned round. -/
structure Snow.Agrees {Key : Type} (snow : Snow) (half : snow.HandshakeState → Half)
    (view : snow.TransportState → Endpoint Key) : Prop where
  opens : ∀ {hs hs' t t'}, (half hs).side = .initiator → (half hs').side = .responder →
    (half hs).passed = (half hs').passed → snow.intoTransportMode hs = .ok t →
    snow.intoTransportMode hs' = .ok t' → ∃ k : Side → Key, k .initiator ≠ k .responder ∧
      view t = ⟨k .initiator, k .responder, 0, 0⟩ ∧ view t' = ⟨k .responder, k .initiator, 0, 0⟩

/-- The bytes of a handshake message that are not payload, at most. -/
def HANDSHAKE_OVERHEAD : Nat := 96

/-- One was given the public key of the other. -/
def Half.Knows (publicOf : Vector UInt8 32 → Vector UInt8 32) (h g : Half) : Prop :=
  h.side = .initiator ∧ g.side = .responder ∧ h.remote = some (publicOf g.own)

/-- What is promised of two handshakes that know each other: a message is written
in its turn if its payload fits, and the other reads it in its turn. -/
structure Snow.Completes (snow : Snow) (half : snow.HandshakeState → Half)
    (publicOf : Vector UInt8 32 → Vector UInt8 32) : Prop where
  client : ∀ own remote, ∃ hs, snow.clientHandshake own remote = .ok hs
  origin : ∀ own, ∃ hs, snow.originHandshake own = .ok hs
  writes : ∀ {hs payload}, (half hs).turn = some .written →
    payload.length + HANDSHAKE_OVERHEAD ≤ NOISE_MAX_MESSAGE → ∃ m, snow.Writes hs payload m
  reads : ∀ {hs hs' payload m}, (half hs).Knows publicOf (half hs') ∨
    (half hs').Knows publicOf (half hs) → (half hs).passed = (half hs').passed →
    snow.Writes hs payload m → ∃ n, (snow.readHandshake hs' m zeroed).2.2 = .ok n

variable {snow : Snow} {half : snow.HandshakeState → Half}

/-! ## One call -/

/-- What a call can do to a handshake that is there: pass a message in its turn,
fail and leave it where it was, look, or take it. -/
inductive HandshakeStep (half : snow.HandshakeState → Half) (hs : snow.HandshakeState) :
    HandshakeCall → NoiseHandshake snow → Outcome CtAgentError (HandshakeReply snow) → Prop
  | wrote (payload bytes : List UInt8) {hs' : snow.HandshakeState}
      (turn : (half hs).turn = some .written) (writes : snow.Writes hs payload bytes)
      (moved : half hs' = (half hs).pass bytes) :
      HandshakeStep half hs (.writeMessage payload) (.new (some hs')) (.ok (.message bytes))
  | read (msg payload : List UInt8) {hs' : snow.HandshakeState}
      (turn : (half hs).turn = some .read) (moved : half hs' = (half hs).pass msg) :
      HandshakeStep half hs (.readMessage msg) (.new (some hs')) (.ok (.message payload))
  | unwritten (payload : List UInt8) (e : CtAgentError) {hs' : snow.HandshakeState}
      (stays : half hs' = half hs) :
      HandshakeStep half hs (.writeMessage payload) (.new (some hs')) (.err e)
  | unread (msg : List UInt8) (e : CtAgentError) {hs' : snow.HandshakeState}
      (stays : half hs' = half hs) :
      HandshakeStep half hs (.readMessage msg) (.new (some hs')) (.err e)
  | looked : HandshakeStep half hs .isFinished (.new (some hs))
      (.ok (.finished (decide ((half hs).turn = none))))
  | converted (t : snow.TransportState) (done : (half hs).turn = none)
      (conversion : snow.intoTransportMode hs = .ok t) :
      HandshakeStep half hs .intoTransport (.new none) (.ok (.transport (.new t)))
  | lost (e : CtAgentError) (early : (half hs).turn ≠ none) :
      HandshakeStep half hs .intoTransport (.new none) (.err e)

/-- A message method, by what the library answers. -/
theorem withLock_message {call : BufferedCall snow.HandshakeState} {hs : snow.HandshakeState}
    {payload : List UInt8} :
    (∀ n, (call hs payload zeroed).2.2 = .ok n → n ≤ NOISE_MAX_MESSAGE →
      (Guarded.new (some hs)).withLock (NoiseHandshake.exchangeInner call payload) =
        (.new (some (call hs payload zeroed).1),
          .ok ((call hs payload zeroed).2.1.toList.take n))) ∧
    ∀ e, (call hs payload zeroed).2.2 = .error e →
      (Guarded.new (some hs)).withLock (NoiseHandshake.exchangeInner call payload) =
        (.new (some (call hs payload zeroed).1), .err (.generic e)) := by
  constructor
  · intro n hn hfits
    have hexchange := exchange_of_ok hn hfits
    rw [NoiseHandshake.exchangeInner_there (by rw [hexchange]; exact Outcome.returns_ok _),
      hexchange]
  · intro e he
    have hexchange := exchange_of_error he
    rw [NoiseHandshake.exchangeInner_there (by rw [hexchange]; exact Outcome.returns_err _),
      hexchange]
    rfl

theorem handshake_step (h : snow.TakesTurns half) (hs : snow.HandshakeState) (c : HandshakeCall) :
    HandshakeStep half hs c ((noiseHandshake snow).next (.new (some hs)) c)
      ((noiseHandshake snow).out (.new (some hs)) c) := by
  cases c with
  | writeMessage payload =>
    show HandshakeStep half hs _ (NoiseHandshake.writeMessage (.new (some hs)) payload).1
      (HandshakeReply.message <$> (NoiseHandshake.writeMessage (.new (some hs)) payload).2)
    rcases hcall : (snow.writeHandshake hs payload zeroed).2.2 with e | n
    · have hwrite := withLock_message.2 e hcall
      rw [NoiseHandshake.writeMessage, hwrite]
      exact .unwritten payload _ (h.unwritten hcall)
    · obtain ⟨hfits, hturn, hmoved⟩ := h.writes hcall
      have hwrite := withLock_message.1 n hcall hfits
      rw [NoiseHandshake.writeMessage, hwrite]
      exact .wrote payload _ hturn ⟨n, hcall, rfl⟩ hmoved
  | readMessage msg =>
    show HandshakeStep half hs _ (NoiseHandshake.readMessage (.new (some hs)) msg).1
      (HandshakeReply.message <$> (NoiseHandshake.readMessage (.new (some hs)) msg).2)
    rcases hcall : (snow.readHandshake hs msg zeroed).2.2 with e | n
    · have hread := withLock_message.2 e hcall
      rw [NoiseHandshake.readMessage, hread]
      exact .unread msg _ (h.unread hcall)
    · obtain ⟨hfits, hturn, hmoved⟩ := h.reads hcall
      have hread := withLock_message.1 n hcall hfits
      rw [NoiseHandshake.readMessage, hread]
      exact .read msg _ hturn hmoved
  | isFinished =>
    have hlook : snow.isHandshakeFinished hs = decide ((half hs).turn = none) :=
      Bool.eq_iff_iff.mpr ((h.finished hs).trans decide_eq_true_iff.symm)
    show HandshakeStep half hs _ (NoiseHandshake.isFinished (.new (some hs))).1
      (HandshakeReply.finished <$> (NoiseHandshake.isFinished (.new (some hs))).2)
    rw [NoiseHandshake.isFinished_new, Outcome.okOr, Outcome.ok_bind, hlook]
    exact .looked
  | intoTransport =>
    rw [next_intoTransport]
    rcases hcall : snow.intoTransportMode hs with e | t
    · rw [out_intoTransport_error hcall]
      refine .lost _ fun hdone => ?_
      obtain ⟨t, ht⟩ := (h.converts hs).mpr hdone
      rw [hcall] at ht
      cases ht
    · rw [out_intoTransport_ok hcall]
      exact .converted t ((h.converts hs).mp ⟨t, hcall⟩) hcall

end CtAgentAndroid
