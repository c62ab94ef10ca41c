import Mathlib.Logic.Function.Basic
import CtAgentAndroid.SealedChannel
import CtAgentAndroid.SignalSession

/-! # A Noise session over a network that loses and forges

`encrypt` and `decrypt` at the two ends of a session, called in any order.  What
the network does in between is in the calls: the ciphertexts handed to `decrypt`
may be lost, repeated, reordered, turned round to their own sender or made up.

Each direction of the session is a channel of `SealedChannel`: the counter of the
writing state and that of the reading state are the numbers of messages sent and
received (`Direction`), and the refusals of the library are its refusals
(`noiseSession_refines`).
-/
namespace CtAgentAndroid
open Rust Automaton SealedChannel

/-! ## What is promised of the library -/

/-- What a `TransportState` is, seen from outside: a key and a counter for each
direction. -/
structure Endpoint (Key : Type) where
  sendKey : Key
  recvKey : Key
  sent : Nat
  received : Nat
  deriving DecidableEq, Repr

/-- Authenticated encryption of byte strings, as the library has it. -/
abbrev Aead (Key : Type) := Keyed Key (List UInt8) (List UInt8)

/-- The library seals with `aead`, counting in `view`.  A call that fails leaves
the counters as they are. -/
structure Snow.SealsWith {Key : Type} (snow : Snow) (aead : Aead Key)
    (view : snow.TransportState → Endpoint Key) : Prop where
  fits : ∀ {k n p c}, (aead.under k).sealAt n p = some c →
    p.length ≤ NOISE_MAX_MESSAGE ∧ c.length ≤ NOISE_MAX_MESSAGE
  writes : ∀ t payload buf c,
    (aead.under (view t).sendKey).sealAt (view t).sent payload = some c →
      (snow.writeTransport t payload buf).2.2 = .ok c.length ∧
      (snow.writeTransport t payload buf).2.1.toList.take c.length = c ∧
      view (snow.writeTransport t payload buf).1 = { view t with sent := (view t).sent + 1 }
  unwritten : ∀ t payload buf,
    (aead.under (view t).sendKey).sealAt (view t).sent payload = none →
      (∃ e, (snow.writeTransport t payload buf).2.2 = .error e) ∧
      view (snow.writeTransport t payload buf).1 = view t
  reads : ∀ t msg buf p,
    (aead.under (view t).recvKey).unsealAt (view t).received msg = some p →
      (snow.readTransport t msg buf).2.2 = .ok p.length ∧
      (snow.readTransport t msg buf).2.1.toList.take p.length = p ∧
      view (snow.readTransport t msg buf).1 = { view t with received := (view t).received + 1 }
  unread : ∀ t msg buf,
    (aead.under (view t).recvKey).unsealAt (view t).received msg = none →
      (∃ e, (snow.readTransport t msg buf).2.2 = .error e) ∧
      view (snow.readTransport t msg buf).1 = view t

/-! ## The session -/

/-- The two ends. -/
inductive Side where
  | initiator
  | responder
  deriving DecidableEq, Repr

namespace Side

def peer : Side → Side
  | initiator => responder
  | responder => initiator

@[simp] theorem peer_initiator : peer initiator = responder := rfl

@[simp] theorem peer_responder : peer responder = initiator := rfl

@[simp] theorem peer_peer (x : Side) : x.peer.peer = x := by cases x <;> rfl

@[simp] theorem peer_ne (x : Side) : x.peer ≠ x := by cases x <;> nofun

theorem eq_peer_of_ne {x y : Side} (h : y ≠ x) : y = x.peer := by
  cases x <;> cases y <;> first | rfl | exact absurd rfl h

end Side

/-- A call at one end. -/
inductive SessionCall where
  | encrypt (x : Side) (plaintext : List UInt8)
  | decrypt (x : Side) (ciphertext : List UInt8)
  deriving DecidableEq, Repr

variable {snow : Snow}

/-- The two `NoiseTransport`s of a session. -/
def noiseSession (snow : Snow) :
    Mealy (Side → NoiseTransport snow) SessionCall (Outcome CtAgentError (List UInt8)) where
  step ends
    | .encrypt x plaintext =>
      (Function.update ends x ((ends x).encrypt plaintext).1, ((ends x).encrypt plaintext).2)
    | .decrypt x ciphertext =>
      (Function.update ends x ((ends x).decrypt ciphertext).1, ((ends x).decrypt ciphertext).2)

/-! ## What is seen of a run -/

section Trace
variable (x : Side)

/-- The plaintext that `x` has encrypted in a step. -/
def SessionCall.plaintextFrom :
    SessionCall × Outcome CtAgentError (List UInt8) → Option (List UInt8)
  | (.encrypt y plaintext, .ok _) => if y = x then some plaintext else none
  | _ => none

/-- The ciphertext that `x` has made in a step. -/
def SessionCall.ciphertextFrom :
    SessionCall × Outcome CtAgentError (List UInt8) → Option (List UInt8)
  | (.encrypt y _, .ok c) => if y = x then some c else none
  | _ => none

/-- The plaintext that `x` has decrypted in a step. -/
def SessionCall.plaintextTo :
    SessionCall × Outcome CtAgentError (List UInt8) → Option (List UInt8)
  | (.decrypt y _, .ok p) => if y = x then some p else none
  | _ => none

/-- The ciphertext that a call hands to `x`. -/
def SessionCall.deliveredTo : SessionCall → Option (List UInt8)
  | .decrypt y c => if y = x then some c else none
  | .encrypt _ _ => none

variable (ends : Side → NoiseTransport snow) (es : List SessionCall)

/-- What `x` has sent, in order. -/
def sentFrom : List (List UInt8) :=
  ((noiseSession snow).trace ends es).filterMap (SessionCall.plaintextFrom x)

/-- The ciphertexts of what `x` has sent, in order. -/
def ciphertextsFrom : List (List UInt8) :=
  ((noiseSession snow).trace ends es).filterMap (SessionCall.ciphertextFrom x)

/-- What `x` has received, in order. -/
def receivedBy : List (List UInt8) :=
  ((noiseSession snow).trace ends es).filterMap (SessionCall.plaintextTo x)

/-- The ciphertexts delivered to `x`, in order. -/
def deliveriesTo : List (List UInt8) := es.filterMap (SessionCall.deliveredTo x)

end Trace

variable {Key : Type}

/-- **The network has no key.**  A ciphertext it delivers was made before, by
either end, or is none that the receiver's key could have made. -/
def NetworkHasNoKey (aead : Aead Key) (k : Side → Key) (ends : Side → NoiseTransport snow)
    (es : List SessionCall) : Prop :=
  ∀ pre x c, pre ++ [.decrypt x c] <+: es →
    (∃ y, c ∈ ciphertextsFrom y ends pre) ∨ ¬ (aead.under (k x.peer)).Seals c

/-- A session at its start: `x` writes under `k x`. -/
structure Opened (view : snow.TransportState → Endpoint Key) (k : Side → Key)
    (ends : Side → NoiseTransport snow) : Prop where
  keys_ne : ∀ x, k x.peer ≠ k x
  usable : ∀ x, (ends x).poisoned = false
  fresh : ∀ x, view (ends x).value = ⟨k x, k x.peer, 0, 0⟩

/-! ## One call -/

section Exchange
variable {σ : Type} {call : BufferedCall σ} {m : Guarded σ} {payload : List UInt8}

theorem withLock_exchange_ok (hm : m.poisoned = false) {c : List UInt8}
    (hfits : c.length ≤ NOISE_MAX_MESSAGE)
    (hcall : (call m.value payload zeroed).2.2 = .ok c.length)
    (hc : (call m.value payload zeroed).2.1.toList.take c.length = c) :
    m.withLock (fun t => exchange call t payload) =
      (.new (call m.value payload zeroed).1, .ok c) := by
  have hexchange := exchange_of_ok hcall hfits
  rw [hc] at hexchange
  rw [withLock_exchange hm (by rw [hexchange]; exact Outcome.returns_ok _), hexchange]

theorem withLock_exchange_error (hm : m.poisoned = false)
    (hcall : ∃ e, (call m.value payload zeroed).2.2 = .error e) :
    ∃ e, m.withLock (fun t => exchange call t payload) =
      (.new (call m.value payload zeroed).1, .err e) := by
  obtain ⟨e, he⟩ := hcall
  have hexchange := exchange_of_error he
  refine ⟨.generic e, ?_⟩
  rw [withLock_exchange hm (by rw [hexchange]; exact Outcome.returns_err _), ← hexchange]
  rfl

end Exchange

variable {aead : Aead Key} {view : snow.TransportState → Endpoint Key}

/-- The two ways an end can encrypt: the next message of its direction, or not at
all. -/
theorem encrypt_spec (h : snow.SealsWith aead view) {a : NoiseTransport snow}
    (ha : a.poisoned = false) (plaintext : List UInt8) :
    (a.encrypt plaintext).1.poisoned = false ∧
    ((∃ c, (aead.under (view a.value).sendKey).sealAt (view a.value).sent plaintext = some c ∧
      (a.encrypt plaintext).2 = .ok c ∧ view (a.encrypt plaintext).1.value =
        { view a.value with sent := (view a.value).sent + 1 }) ∨
    ((aead.under (view a.value).sendKey).sealAt (view a.value).sent plaintext = none ∧
      (∃ e, (a.encrypt plaintext).2 = .err e) ∧
      view (a.encrypt plaintext).1.value = view a.value)) := by
  rcases hseal : (aead.under (view a.value).sendKey).sealAt (view a.value).sent plaintext
    with _ | c
  · obtain ⟨hcall, hview⟩ := h.unwritten a.value plaintext zeroed hseal
    obtain ⟨e, he⟩ : ∃ e, a.encrypt plaintext = (_, .err e) := withLock_exchange_error ha hcall
    rw [he]
    exact ⟨rfl, .inr ⟨rfl, ⟨e, rfl⟩, hview⟩⟩
  · obtain ⟨hcall, hc, hview⟩ := h.writes a.value plaintext zeroed c hseal
    have hencrypt : a.encrypt plaintext = (_, .ok c) :=
      withLock_exchange_ok ha (h.fits hseal).2 hcall hc
    rw [hencrypt]
    exact ⟨rfl, .inl ⟨c, rfl, rfl, hview⟩⟩

/-- The two ways an end can decrypt. -/
theorem decrypt_spec (h : snow.SealsWith aead view) {b : NoiseTransport snow}
    (hb : b.poisoned = false) (ciphertext : List UInt8) :
    (b.decrypt ciphertext).1.poisoned = false ∧
    ((∃ p,
      (aead.under (view b.value).recvKey).unsealAt (view b.value).received ciphertext = some p ∧
      (b.decrypt ciphertext).2 = .ok p ∧ view (b.decrypt ciphertext).1.value =
        { view b.value with received := (view b.value).received + 1 }) ∨
    ((aead.under (view b.value).recvKey).unsealAt (view b.value).received ciphertext = none ∧
      (∃ e, (b.decrypt ciphertext).2 = .err e) ∧
      view (b.decrypt ciphertext).1.value = view b.value)) := by
  rcases hopen : (aead.under (view b.value).recvKey).unsealAt (view b.value).received ciphertext
    with _ | p
  · obtain ⟨hcall, hview⟩ := h.unread b.value ciphertext zeroed hopen
    obtain ⟨e, he⟩ : ∃ e, b.decrypt ciphertext = (_, .err e) := withLock_exchange_error hb hcall
    rw [he]
    exact ⟨rfl, .inr ⟨rfl, ⟨e, rfl⟩, hview⟩⟩
  · obtain ⟨hcall, hp, hview⟩ := h.reads b.value ciphertext zeroed p hopen
    have hfits := (h.fits (((aead.under _).unsealAt_iff _ _ _).mp hopen)).1
    have hdecrypt : b.decrypt ciphertext = (_, .ok p) := withLock_exchange_ok hb hfits hcall hp
    rw [hdecrypt]
    exact ⟨rfl, .inl ⟨p, rfl, rfl, hview⟩⟩

/-! ## A direction of the session is a channel -/

/-- The part a call has in the direction from `x` to its peer. -/
def SessionCall.along (x : Side) : SessionCall → Option (Event (List UInt8) (List UInt8))
  | .encrypt y plaintext => if y = x then some (.send plaintext) else none
  | .decrypt y ciphertext => if y = x.peer then some (.deliver ciphertext) else none

namespace SessionCall
variable {x y : Side} {call : SessionCall} {p c : List UInt8}

theorem ne_of_encrypt_along (h : (encrypt y p).along x = none) : y ≠ x := by
  rintro rfl
  rw [along, if_pos rfl] at h
  cases h

theorem ne_of_decrypt_along (h : (decrypt y c).along x = none) : y ≠ x.peer := by
  rintro rfl
  rw [along, if_pos rfl] at h
  cases h

theorem along_eq_send (h : call.along x = some (.send p)) : call = encrypt x p := by
  cases call with
  | encrypt y q =>
    rw [along] at h
    split at h
    · next hy =>
      cases h
      rw [hy]
    · cases h
  | decrypt y c =>
    rw [along] at h
    split at h <;> cases h

theorem along_eq_deliver (h : call.along x = some (.deliver c)) : call = decrypt x.peer c := by
  cases call with
  | encrypt y q =>
    rw [along] at h
    split at h <;> cases h
  | decrypt y d =>
    rw [along] at h
    split at h
    · next hy =>
      cases h
      rw [hy]
    · cases h

end SessionCall

/-- What a call answers, and what the channel answers. -/
inductive Agrees : Event (List UInt8) (List UInt8) → Outcome CtAgentError (List UInt8) →
    Answer (List UInt8) (List UInt8) → Prop
  | sealed (p c) : Agrees (.send p) (.ok c) (.sealed c)
  | opened (c p) : Agrees (.deliver c) (.ok p) (.opened p)
  | refused (e err) : Agrees e (.err err) .refused

/-- The state of the direction from `x`: the counters are the numbers of messages
sent and received. -/
structure Direction (view : snow.TransportState → Endpoint Key) (k : Side → Key) (x : Side)
    (ends : Side → NoiseTransport snow) (t : Traffic (List UInt8)) : Prop where
  usable : ∀ y, (ends y).poisoned = false
  sendKey : (view (ends x).value).sendKey = k x
  sent : (view (ends x).value).sent = t.sent.length
  recvKey : (view (ends x.peer).value).recvKey = k x
  received : (view (ends x.peer).value).received = t.got.length

theorem Opened.direction {k : Side → Key} {ends : Side → NoiseTransport snow}
    (h : Opened view k ends) (x : Side) : Direction view k x ends .empty where
  usable := h.usable
  sendKey := by rw [h.fresh]
  sent := by rw [h.fresh]; rfl
  recvKey := by rw [h.fresh, Side.peer_peer]
  received := by rw [h.fresh]; rfl

section Direction
variable {k : Side → Key} {x : Side} {ends : Side → NoiseTransport snow}
  {t t' : Traffic (List UInt8)}

/-- The sending end has moved. -/
theorem Direction.sender (hd : Direction view k x ends t) {a : NoiseTransport snow}
    (ha : a.poisoned = false) (hkey : (view a.value).sendKey = k x)
    (hsent : (view a.value).sent = t'.sent.length) (hgot : t'.got = t.got) :
    Direction view k x (Function.update ends x a) t' where
  usable y := by
    by_cases hy : y = x
    · rw [hy, Function.update_self, ha]
    · rw [Function.update_of_ne hy, hd.usable]
  sendKey := by rw [Function.update_self, hkey]
  sent := by rw [Function.update_self, hsent]
  recvKey := by rw [Function.update_of_ne x.peer_ne, hd.recvKey]
  received := by rw [Function.update_of_ne x.peer_ne, hd.received, hgot]

/-- The receiving end has moved. -/
theorem Direction.receiver (hd : Direction view k x ends t) {b : NoiseTransport snow}
    (hb : b.poisoned = false) (hkey : (view b.value).recvKey = k x)
    (hgot : (view b.value).received = t'.got.length) (hsent : t'.sent = t.sent) :
    Direction view k x (Function.update ends x.peer b) t' where
  usable y := by
    by_cases hy : y = x.peer
    · rw [hy, Function.update_self, hb]
    · rw [Function.update_of_ne hy, hd.usable]
  sendKey := by rw [Function.update_of_ne x.peer_ne.symm, hd.sendKey]
  sent := by rw [Function.update_of_ne x.peer_ne.symm, hd.sent, hsent]
  recvKey := by rw [Function.update_self, hkey]
  received := by rw [Function.update_self, hgot]

/-- A message of the direction: the two ends do what the channel does. -/
theorem Direction.encrypt (h : snow.SealsWith aead view) (hd : Direction view k x ends t)
    (plaintext : List UInt8) :
    Direction view k x ((noiseSession snow).next ends (.encrypt x plaintext))
        ((channel (aead.under (k x))).next t (.send plaintext)) ∧
      Agrees (.send plaintext) ((noiseSession snow).out ends (.encrypt x plaintext))
        ((channel (aead.under (k x))).out t (.send plaintext)) := by
  obtain ⟨husable, hcases⟩ := encrypt_spec h (hd.usable x) plaintext
  have hstep := step_spec (aead.under (k x)) t (.send plaintext)
  generalize (channel (aead.under (k x))).next t (.send plaintext) = t' at hstep ⊢
  generalize (channel (aead.under (k x))).out t (.send plaintext) = a at hstep ⊢
  rw [hd.sendKey, hd.sent] at hcases
  show Direction view k x (Function.update ends x ((ends x).encrypt plaintext).1) t' ∧
    Agrees _ ((ends x).encrypt plaintext).2 a
  cases hstep with
  | sealed _ c hc =>
    rcases hcases with ⟨c', hc', hout, hview⟩ | ⟨hnone, -, -⟩
    · obtain rfl : c' = c := Option.some.inj (hc'.symm.trans hc)
      rw [hout]
      refine ⟨hd.sender husable ?_ ?_ rfl, .sealed _ _⟩
      · rw [hview, hd.sendKey]
      · rw [hview, List.length_append]
        rfl
    · rw [hnone] at hc
      cases hc
  | unsent _ hnone =>
    rcases hcases with ⟨c', hc', -, -⟩ | ⟨-, ⟨e, hout⟩, hview⟩
    · rw [hnone] at hc'
      cases hc'
    · rw [hout]
      refine ⟨hd.sender husable ?_ ?_ rfl, .refused _ _⟩
      · rw [hview, hd.sendKey]
      · rw [hview, hd.sent]

/-- A ciphertext handed to the receiving end of the direction. -/
theorem Direction.decrypt (h : snow.SealsWith aead view) (hd : Direction view k x ends t)
    (ciphertext : List UInt8) :
    Direction view k x ((noiseSession snow).next ends (.decrypt x.peer ciphertext))
        ((channel (aead.under (k x))).next t (.deliver ciphertext)) ∧
      Agrees (.deliver ciphertext) ((noiseSession snow).out ends (.decrypt x.peer ciphertext))
        ((channel (aead.under (k x))).out t (.deliver ciphertext)) := by
  obtain ⟨husable, hcases⟩ := decrypt_spec h (hd.usable x.peer) ciphertext
  have hstep := step_spec (aead.under (k x)) t (.deliver ciphertext)
  generalize (channel (aead.under (k x))).next t (.deliver ciphertext) = t' at hstep ⊢
  generalize (channel (aead.under (k x))).out t (.deliver ciphertext) = a at hstep ⊢
  rw [hd.recvKey, hd.received] at hcases
  show Direction view k x (Function.update ends x.peer ((ends x.peer).decrypt ciphertext).1) t' ∧
    Agrees _ ((ends x.peer).decrypt ciphertext).2 a
  cases hstep with
  | opened _ p hp =>
    have hopen := ((aead.under (k x)).unsealAt_iff _ _ _).mpr hp
    rcases hcases with ⟨p', hp', hout, hview⟩ | ⟨hnone, -, -⟩
    · obtain rfl : p' = p := Option.some.inj (hp'.symm.trans hopen)
      rw [hout]
      refine ⟨hd.receiver husable ?_ ?_ rfl, .opened _ _⟩
      · rw [hview, hd.recvKey]
      · rw [hview, List.length_append]
        rfl
    · rw [hnone] at hopen
      cases hopen
  | unopened _ hno =>
    rcases hcases with ⟨p', hp', -, -⟩ | ⟨-, ⟨e, hout⟩, hview⟩
    · exact absurd (((aead.under (k x)).unsealAt_iff _ _ _).mp hp') (hno p')
    · rw [hout]
      refine ⟨hd.receiver husable ?_ ?_ rfl, .refused _ _⟩
      · rw [hview, hd.recvKey]
      · rw [hview, hd.received]

/-- A call of the other direction moves one end, and nothing of this one. -/
theorem Direction.skip (h : snow.SealsWith aead view) (hd : Direction view k x ends t)
    {call : SessionCall} (hcall : call.along x = none) :
    Direction view k x ((noiseSession snow).next ends call) t := by
  cases call with
  | encrypt y plaintext =>
    obtain rfl := Side.eq_peer_of_ne (SessionCall.ne_of_encrypt_along hcall)
    obtain ⟨husable, hcases⟩ := encrypt_spec h (hd.usable x.peer) plaintext
    refine hd.receiver husable ?_ ?_ rfl
    · rcases hcases with ⟨c, -, -, hview⟩ | ⟨-, -, hview⟩ <;> rw [hview, hd.recvKey]
    · rcases hcases with ⟨c, -, -, hview⟩ | ⟨-, -, hview⟩ <;> rw [hview, hd.received]
  | decrypt y ciphertext =>
    obtain rfl : y = x := by
      rw [Side.eq_peer_of_ne (SessionCall.ne_of_decrypt_along hcall), Side.peer_peer]
    obtain ⟨husable, hcases⟩ := decrypt_spec h (hd.usable y) ciphertext
    refine hd.sender husable ?_ ?_ rfl
    · rcases hcases with ⟨p, -, -, hview⟩ | ⟨-, -, hview⟩ <;> rw [hview, hd.sendKey]
    · rcases hcases with ⟨p, -, -, hview⟩ | ⟨-, -, hview⟩ <;> rw [hview, hd.sent]

end Direction

/-- **Each direction of a session refines a channel.** -/
theorem noiseSession_refines (h : snow.SealsWith aead view) (k : Side → Key) (x : Side) :
    (noiseSession snow).Refines (channel (aead.under (k x))) (Direction view k x)
      (SessionCall.along x) Agrees where
  skip hd hcall := hd.skip h hcall
  follow {_ _ _ f} hd hcall := by
    cases f with
    | send p => exact SessionCall.along_eq_send hcall ▸ (hd.encrypt h p).1
    | deliver c => exact SessionCall.along_eq_deliver hcall ▸ (hd.decrypt h c).1
  answer {_ _ _ f} hd hcall := by
    cases f with
    | send p => exact SessionCall.along_eq_send hcall ▸ (hd.encrypt h p).2
    | deliver c => exact SessionCall.along_eq_deliver hcall ▸ (hd.decrypt h c).2

end CtAgentAndroid
