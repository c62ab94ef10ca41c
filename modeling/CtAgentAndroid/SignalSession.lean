import CtAgentAndroid.NoiseLifecycle
import CtAgentAndroid.SignalCodec

/-! # Signal messages over a Noise session

An encoded message is encrypted as one Noise message, which has 65535 bytes at
most, 16 of them the tag.  The format's own prefixes allow more than that: an
offer of 65535 bytes is encoded in 65538.  So of the messages the format can
carry, the session carries those that leave room for header and tag
(`FitsSession`), and refuses the others (`session_carries_signal`).
-/
namespace CtAgentAndroid
open Rust SignalMessage

/-- The bytes the library adds to a message of a session. -/
def TAG_LENGTH : Nat := 16

/-! ## What is promised of the library -/

section Library
variable (snow : Snow)

/-- A session in one direction: `paired a b` says that the next message `b` has
to read is the next one `a` writes. -/
structure Snow.InOrder (paired : snow.TransportState → snow.TransportState → Prop) : Prop where
  /-- Writing succeeds exactly when message and tag fit. -/
  writes_iff : ∀ a payload buf, (∃ n, (snow.writeTransport a payload buf).2.2 = .ok n) ↔
    payload.length + TAG_LENGTH ≤ NOISE_MAX_MESSAGE
  /-- What is written is the message and the tag. -/
  written : ∀ a payload buf n, (snow.writeTransport a payload buf).2.2 = .ok n →
    n = payload.length + TAG_LENGTH
  /-- Read in order, it is the payload again. -/
  reads : ∀ a b payload buf buf' n, paired a b → (snow.writeTransport a payload buf).2.2 = .ok n →
    let sent := snow.writeTransport a payload buf
    let received := snow.readTransport b (sent.2.1.toList.take n) buf'
    received.2.2 = .ok payload.length ∧ received.2.1.toList.take payload.length = payload ∧
      paired sent.1 received.1

end Library

variable {snow : Snow} {paired : snow.TransportState → snow.TransportState → Prop}

/-- Both ends answer, and they are paired. -/
def Established (paired : snow.TransportState → snow.TransportState → Prop)
    (a b : NoiseTransport snow) : Prop :=
  a.poisoned = false ∧ b.poisoned = false ∧ paired a.value b.value

/-! ## One message -/

/-- A method of the session whose exchange returns. -/
theorem withLock_exchange {σ : Type} {call : BufferedCall σ} {m : Guarded σ}
    {payload : List UInt8} (hm : m.poisoned = false)
    (h : (exchange call m.value payload).2.Returns) :
    m.withLock (fun t => exchange call t payload) =
      (.new (exchange call m.value payload).1, (exchange call m.value payload).2) :=
  Guarded.withLock_of_returns hm h

/-- A payload that fits reaches the other end, and the session goes on. -/
theorem session_carries (h : snow.InOrder paired) {a b : NoiseTransport snow}
    (hab : Established paired a b) {payload : List UInt8}
    (hfits : payload.length + TAG_LENGTH ≤ NOISE_MAX_MESSAGE) :
    ∃ c, (a.encrypt payload).2 = .ok c ∧ (b.decrypt c).2 = .ok payload ∧
      Established paired (a.encrypt payload).1 (b.decrypt c).1 := by
  obtain ⟨ha, hb, hp⟩ := hab
  obtain ⟨n, hn⟩ := (h.writes_iff a.value payload zeroed).mpr hfits
  have hlength := h.written _ _ _ _ hn
  obtain ⟨hread, hpayload, hpaired⟩ :=
    h.reads a.value b.value payload _ zeroed n hp hn
  have hsent := exchange_of_ok hn (by omega)
  have hreceived := exchange_of_ok hread (by omega)
  have hencrypt : a.encrypt payload = _ := withLock_exchange ha (by
    rw [hsent]
    exact Outcome.returns_ok _)
  have hdecrypt := withLock_exchange hb (by
    rw [hreceived]
    exact Outcome.returns_ok _)
  rw [hsent] at hencrypt
  rw [hreceived, hpayload] at hdecrypt
  refine ⟨_, congrArg Prod.snd hencrypt, ?_⟩
  rw [hencrypt, NoiseTransport.decrypt, hdecrypt]
  exact ⟨rfl, rfl, rfl, hpaired⟩

/-- One that does not fit is refused. -/
theorem session_refuses (h : snow.InOrder paired) {a b : NoiseTransport snow}
    (hab : Established paired a b) {payload : List UInt8}
    (hlong : ¬ payload.length + TAG_LENGTH ≤ NOISE_MAX_MESSAGE) :
    ∃ e, (a.encrypt payload).2 = .err e := by
  have hno := mt (h.writes_iff a.value payload zeroed).mp hlong
  rcases hwrite : (snow.writeTransport a.value payload zeroed).2.2 with e | n
  · have hrefused := exchange_of_error hwrite
    have hencrypt : a.encrypt payload = _ := withLock_exchange hab.1 (by
      rw [hrefused]
      exact Outcome.returns_err _)
    exact ⟨_, (congrArg Prod.snd hencrypt).trans hrefused⟩
  · exact absurd ⟨n, hwrite⟩ hno

/-! ## Signal messages -/

namespace SignalMessage

/-- Header, message and tag fit in one Noise message. -/
def FitsSession : SignalMessage → Prop
  | offer sdp => sdp.utf8ByteSize ≤ 65516
  | answer sdp => sdp.utf8ByteSize ≤ 65516
  | iceCandidate candidate sdpMid _ =>
    candidate.utf8ByteSize + (sdpMid.getD "").utf8ByteSize ≤ 65513
  | bye => True

instance : (m : SignalMessage) → Decidable m.FitsSession
  | offer _ => inferInstanceAs (Decidable (_ ≤ _))
  | answer _ => inferInstanceAs (Decidable (_ ≤ _))
  | iceCandidate .. => inferInstanceAs (Decidable (_ ≤ _))
  | bye => .isTrue trivial

theorem pushU16Str_length (s : String) : (pushU16Str s).length = s.utf8ByteSize + 2 := by
  rw [pushU16Str, List.length_append, toBeBytes_length, asBytes_length, Nat.add_comm]

theorem pushU8Str_length (s : String) : (pushU8Str s).length = s.utf8ByteSize + 1 := by
  rw [pushU8Str, List.length_cons, asBytes_length]

theorem fitsSession_iff (m : SignalMessage) :
    m.FitsSession ↔ m.encodeInner.length + TAG_LENGTH ≤ NOISE_MAX_MESSAGE := by
  cases m with
  | iceCandidate c mid i =>
    rw [FitsSession, encodeInner, List.length_cons, List.length_append, List.length_append,
      pushU16Str_length, pushU8Str_length, toBeBytes_length, TAG_LENGTH, NOISE_MAX_MESSAGE]
    omega
  | bye => exact iff_of_true trivial (by decide)
  | _ =>
    rw [FitsSession, encodeInner, List.length_cons, pushU16Str_length, TAG_LENGTH,
      NOISE_MAX_MESSAGE]
    omega

end SignalMessage

/-- A message that fits reaches the peer as it was. -/
theorem signal_delivered (h : snow.InOrder paired) {a b : NoiseTransport snow}
    (hab : Established paired a b) {m : SignalMessage} (hm : m.Representable)
    (hfits : m.FitsSession) :
    ∃ c, (a.encrypt m.encodeInner).2 = .ok c ∧
      ((b.decrypt c).2 >>= decodeSignalMessage) = .ok m ∧
      Established paired (a.encrypt m.encodeInner).1 (b.decrypt c).1 := by
  obtain ⟨c, hsent, hreceived, hafter⟩ := session_carries h hab ((fitsSession_iff m).mp hfits)
  refine ⟨c, hsent, ?_, hafter⟩
  rw [hreceived, Outcome.ok_bind]
  exact decodeInner_eq_ok_iff.mpr ⟨hm, List.prefix_refl _⟩

/-- **What a session carries.**  A message of the format reaches the peer over an
established session, which stays established, if header, text and tag fit in one
Noise message; otherwise encrypting it is an error. -/
theorem session_carries_signal (h : snow.InOrder paired) {a b : NoiseTransport snow}
    (hab : Established paired a b) {m : SignalMessage} (hm : m.Representable) :
    (m.FitsSession → ∃ c, (a.encrypt m.encodeInner).2 = .ok c ∧
      ((b.decrypt c).2 >>= decodeSignalMessage) = .ok m ∧
      Established paired (a.encrypt m.encodeInner).1 (b.decrypt c).1) ∧
    (¬ m.FitsSession → ∃ e, (a.encrypt m.encodeInner).2 = .err e) := by
  refine ⟨signal_delivered h hab hm, fun hlong => ?_⟩
  rw [fitsSession_iff] at hlong
  exact session_refuses h hab hlong

/-! ## In the library without cryptography -/

theorem fill_take {bytes : List UInt8} (h : bytes.length ≤ NOISE_MAX_MESSAGE)
    (buf : MessageBuffer) : (fill bytes buf).toList.take bytes.length = bytes := by
  apply List.ext_getElem
  · rw [List.length_take_of_le (by rwa [Vector.length_toList])]
  · intro i hi hi'
    have hbuf : i < NOISE_MAX_MESSAGE := by omega
    have hbyte : (fill bytes buf)[i] = bytes.getD i buf[i] := Vector.getElem_ofFn hbuf
    rw [List.getElem_take, Vector.getElem_toList, hbyte, List.getD_eq_getElem?_getD,
      List.getElem?_eq_getElem hi', Option.getD_some]

/-- Its sessions keep the promise; there is no order to lose. -/
theorem plainSnow_inOrder : plainSnow.InOrder (fun _ _ => True) where
  writes_iff a payload buf := by
    have hseal : ∀ n, (plainSnow.writeTransport a payload buf).2.2 = .ok n ↔ _ := fun _ =>
      plainSeal_ok_iff
    simp only [hseal, exists_and_left, exists_eq, and_true, TAG_LENGTH, Nat.add_comm]
  written a payload buf n h := by
    rw [(plainSeal_ok_iff.mp h).2, Nat.add_comm]
    rfl
  reads a b payload buf buf' n _ h := by
    obtain ⟨hfits, rfl⟩ := plainSeal_ok_iff.mp h
    have hlength : (List.replicate 16 (0 : UInt8) ++ payload).length = 16 + payload.length := by
      rw [List.length_append, List.length_replicate]
    have hsent : (plainSeal 16 payload buf).1.toList.take (16 + payload.length) =
        List.replicate 16 0 ++ payload := by
      rw [plainSeal, if_pos hfits, ← hlength]
      exact fill_take ((Nat.le_of_eq hlength).trans hfits) buf
    have hreceived : plainOpen 16 (List.replicate 16 0 ++ payload) buf' =
        (fill payload buf', .ok payload.length) := by
      rw [plainOpen, hlength, if_pos ⟨Nat.le_add_right _ _, hfits⟩, Nat.add_sub_cancel_left,
        List.drop_left' (List.length_replicate ..)]
    show (plainOpen 16 ((plainSeal 16 payload buf).1.toList.take _) buf').2 = _ ∧
      (plainOpen 16 ((plainSeal 16 payload buf).1.toList.take _) buf').1.toList.take _ = _ ∧ True
    rw [hsent, hreceived]
    exact ⟨rfl, fill_take (by omega) buf', trivial⟩

/-- An end of a session of it. -/
def plainTransport : NoiseTransport plainSnow := .new ()

theorem plainTransport_established :
    Established (fun _ _ => True) plainTransport plainTransport := ⟨rfl, rfl, trivial⟩

/-- A candidate with a text, a media id and a line. -/
theorem session_carries_signal_candidate :
    let m : SignalMessage := .iceCandidate "candidate:1 1 udp 2122260223" (some "audio") (some 0)
    (m.FitsSession → ∃ c, (plainTransport.encrypt m.encodeInner).2 = .ok c ∧
      ((plainTransport.decrypt c).2 >>= decodeSignalMessage) = .ok m ∧
      Established (fun _ _ => True) (plainTransport.encrypt m.encodeInner).1
        (plainTransport.decrypt c).1) ∧
    (¬ m.FitsSession → ∃ e, (plainTransport.encrypt m.encodeInner).2 = .err e) :=
  session_carries_signal plainSnow_inOrder plainTransport_established (by decide)

/-- An offer whose SDP fills its prefix. -/
def longOffer : SignalMessage := .offer (String.ofList (List.replicate 65535 'v'))

/-- It is three bytes longer than the longest Noise message, and refused. -/
theorem longOffer_refused :
    plainSnow.InOrder (fun _ _ => True) ∧
      Established (fun _ _ => True) plainTransport plainTransport ∧
      longOffer.Representable ∧ ∀ c, (plainTransport.encrypt longOffer.encodeInner).2 ≠ .ok c := by
  have hsize : ∀ n, (String.ofList (List.replicate n 'v')).utf8ByteSize = n := by
    intro n
    induction n with
    | zero => rfl
    | succ n ih =>
      rw [List.replicate_succ, utf8ByteSize_ofList_cons, ih, Nat.add_comm]
      rfl
  refine ⟨plainSnow_inOrder, plainTransport_established, Nat.le_of_eq (hsize 65535), fun c hc => ?_⟩
  have hlong : ¬ longOffer.encodeInner.length + TAG_LENGTH ≤ NOISE_MAX_MESSAGE := by
    rw [← fitsSession_iff, longOffer, FitsSession, hsize]
    decide
  obtain ⟨e, he⟩ := session_refuses plainSnow_inOrder plainTransport_established hlong
  rw [he] at hc
  cases hc

end CtAgentAndroid
