import CtAgentAndroid.SignalWire

/-! # What the signal decoder accepts

Each `take_*` helper is an exact reader (`PrefixCode.Exact`) of the bytes its
`push_*` counterpart writes, on the values whose length fits the prefix; so the
decoder is an exact reader of `encode_inner` on the *representable* messages
(`takeMessage_exact`).  A message is representable when its text fits the length
prefixes and it does not use a sentinel as a value: an empty `sdp_mid`, or 65535
as `sdp_mline_index`.
-/
namespace CtAgentAndroid
open Rust PrefixCode

/-- The message is one the format can carry. -/
def SignalMessage.Representable : SignalMessage → Prop
  | offer sdp => sdp.utf8ByteSize ≤ 65535
  | answer sdp => sdp.utf8ByteSize ≤ 65535
  | iceCandidate candidate sdpMid sdpMlineIndex =>
    candidate.utf8ByteSize ≤ 65535 ∧
    (∀ mid ∈ sdpMid, 1 ≤ mid.utf8ByteSize ∧ mid.utf8ByteSize ≤ 255) ∧
    sdpMlineIndex ≠ some 65535
  | bye => True

instance : (m : SignalMessage) → Decidable m.Representable
  | .offer _ => inferInstanceAs (Decidable (_ ≤ _))
  | .answer _ => inferInstanceAs (Decidable (_ ≤ _))
  | .iceCandidate .. => inferInstanceAs (Decidable (_ ∧ (∀ mid ∈ _, _) ∧ _))
  | .bye => .isTrue trivial

/-! ## The helpers -/

theorem takeN_run (n : Nat) (cur : List UInt8) :
    (takeN n).run cur =
      if cur.length < n then .err (.generic "truncated signal message")
      else .ok (cur.take n, cur.drop n) := by
  show takeN n cur = _
  unfold takeN
  split
  · rfl
  · next h =>
    rw [splitAt_of_le (by omega)]
    rfl

/-- `take_n` never reaches the panic of `split_at`. -/
theorem takeN_exact (n : Nat) : Exact (takeN n) (fun l => l) (fun l => l.length = n) where
  returns input := by
    rw [takeN_run]
    split <;> simp
  reads_iff input l rest := by
    rw [takeN_run]
    constructor
    · intro h
      split at h
      · cases h
      · next hlen =>
        obtain ⟨rfl, rfl⟩ := Prod.mk.inj (Outcome.ok.inj h)
        exact ⟨List.length_take_of_le (by omega), (List.take_append_drop n input).symm⟩
    · rintro ⟨rfl, rfl⟩
      rw [if_neg (by simp), List.take_left', List.drop_left'] <;> rfl

/-- One byte: the index `[0]` is in bounds. -/
theorem takeU8_exact : Exact takeU8 (fun b => [b]) (fun _ => True) := by
  refine ((takeN_exact 1).convert (fun b => [b]) ?_ ?_).congr ?_ fun _ _ => rfl
  · intro head hhead
    obtain ⟨b, rfl⟩ := List.length_eq_one_iff.mp hhead
    exact Outcome.returns_ok b
  · intro head b hhead
    obtain ⟨c, rfl⟩ := List.length_eq_one_iff.mp hhead
    rw [index_cons_zero, Outcome.ok.injEq, List.singleton_inj]
  · exact fun b => iff_of_true rfl trivial

/-- Two bytes: the conversion to an array of two has the right length. -/
theorem takeU16_exact : Exact takeU16 toBeBytes (fun _ => True) := by
  have hpair : ∀ a b : UInt8,
      (fromBeBytes <$> Outcome.unwrap (tryIntoArray 2 [a, b]) : Outcome CtAgentError UInt16) =
        .ok (fromBeBytes ⟨#[a, b], rfl⟩) := fun _ _ => rfl
  refine ((takeN_exact 2).convert toBeBytes ?_ ?_).congr ?_ fun _ _ => rfl
  · intro head hhead
    obtain ⟨a, b, rfl⟩ := List.length_eq_two.mp hhead
    rw [hpair]
    exact Outcome.returns_ok _
  · intro head v hhead
    obtain ⟨a, b, rfl⟩ := List.length_eq_two.mp hhead
    rw [hpair, Outcome.ok.injEq]
    constructor
    · rintro rfl
      exact (toBeBytes_fromBeBytes a b).symm
    · intro h
      apply toBeBytes_injective
      rw [toBeBytes_fromBeBytes, h]
  · exact fun v => iff_of_true rfl trivial

theorem takeText_exact (len : Nat) :
    Exact (takeText len) asBytes (fun s => s.utf8ByteSize = len) := by
  refine ((takeN_exact len).convert asBytes ?_ ?_).congr ?_ fun _ _ => rfl
  · exact fun bytes _ => Outcome.returns_okOr _ _
  · intro bytes s _
    rw [Outcome.okOr_eq_ok, fromUtf8_eq_some_iff]
  · intro s
    rw [asBytes_length]

/-- `take_u16_str` reads what `push_u16_str` pushes, up to 65535 bytes. -/
theorem takeU16Str_exact : Exact takeU16Str pushU16Str (fun s => s.utf8ByteSize ≤ 65535) := by
  refine (takeU16_exact.bind (fun len _ => takeText_exact len.toNat)
    (fun s => asU16 s.utf8ByteSize) ?_).congr ?_ fun _ _ => rfl
  · intro len s _ hlen
    have hbound : len.toNat < 65536 := len.toNat_lt
    exact (asU16_eq_iff (by omega)).mpr hlen
  · intro s
    rw [asU16_toNat, true_and]
    omega

/-- `take_u8_str` reads what `push_u8_str` pushes, up to 255 bytes. -/
theorem takeU8Str_exact : Exact takeU8Str pushU8Str (fun s => s.utf8ByteSize ≤ 255) := by
  refine (takeU8_exact.bind (fun len _ => takeText_exact len.toNat)
    (fun s => asU8 s.utf8ByteSize) ?_).congr ?_ fun _ _ => rfl
  · intro len s _ hlen
    have hbound : len.toNat < 256 := len.toNat_lt
    exact (asU8_eq_iff (by omega)).mpr hlen
  · intro s
    rw [asU8_toNat, true_and]
    omega

/-! ## The message -/

namespace SignalMessage

/-- The type byte. -/
def kind : SignalMessage → UInt8
  | offer _ => SIGNAL_TYPE_OFFER
  | answer _ => SIGNAL_TYPE_ANSWER
  | iceCandidate _ _ _ => SIGNAL_TYPE_ICE
  | bye => SIGNAL_TYPE_BYE

/-- What follows the type byte. -/
def body : SignalMessage → List UInt8
  | offer sdp => pushU16Str sdp
  | answer sdp => pushU16Str sdp
  | iceCandidate candidate sdpMid sdpMlineIndex =>
    pushU16Str candidate ++ pushU8Str (sdpMid.getD "") ++
      toBeBytes (sdpMlineIndex.getD SIGNAL_NO_MLINE_INDEX)
  | bye => []

theorem encodeInner_eq (m : SignalMessage) : m.encodeInner = m.kind :: m.body := by
  cases m <;> rfl

/-- The text of a message: its SDP or its candidate. -/
def text : SignalMessage → String
  | offer sdp => sdp
  | answer sdp => sdp
  | iceCandidate candidate _ _ => candidate
  | bye => ""

theorem kind_eq_offer_iff (m : SignalMessage) : m.kind = SIGNAL_TYPE_OFFER ↔ m = offer m.text := by
  cases m <;> simp [kind, text, SIGNAL_TYPE_OFFER, SIGNAL_TYPE_ANSWER, SIGNAL_TYPE_ICE,
    SIGNAL_TYPE_BYE]

theorem kind_eq_answer_iff (m : SignalMessage) :
    m.kind = SIGNAL_TYPE_ANSWER ↔ m = answer m.text := by
  cases m <;> simp [kind, text, SIGNAL_TYPE_OFFER, SIGNAL_TYPE_ANSWER, SIGNAL_TYPE_ICE,
    SIGNAL_TYPE_BYE]

theorem kind_eq_ice_iff (m : SignalMessage) :
    m.kind = SIGNAL_TYPE_ICE ↔ ∃ c mid i, m = iceCandidate c mid i := by
  cases m <;> simp [kind, SIGNAL_TYPE_OFFER, SIGNAL_TYPE_ANSWER, SIGNAL_TYPE_ICE,
    SIGNAL_TYPE_BYE]

theorem kind_eq_bye_iff (m : SignalMessage) : m.kind = SIGNAL_TYPE_BYE ↔ m = bye := by
  cases m <;> simp [kind, SIGNAL_TYPE_OFFER, SIGNAL_TYPE_ANSWER, SIGNAL_TYPE_ICE,
    SIGNAL_TYPE_BYE]

/-- The `sdp_mid` a message is encoded with. -/
def wireMid : SignalMessage → String
  | iceCandidate _ sdpMid _ => sdpMid.getD ""
  | _ => ""

/-- The `sdp_mline_index` a message is encoded with. -/
def wireMlineIndex : SignalMessage → UInt16
  | iceCandidate _ _ sdpMlineIndex => sdpMlineIndex.getD SIGNAL_NO_MLINE_INDEX
  | _ => 0

/-- The message three decoded fields become, the sentinels read as absence. -/
def ofWire (candidate mid : String) (mline : UInt16) : SignalMessage :=
  iceCandidate candidate (if mid.isEmpty then none else some mid)
    (if mline ≠ SIGNAL_NO_MLINE_INDEX then some mline else none)

@[simp] theorem text_ofWire (c mid : String) (i : UInt16) : (ofWire c mid i).text = c := rfl

@[simp] theorem wireMid_ofWire (c mid : String) (i : UInt16) : (ofWire c mid i).wireMid = mid := by
  by_cases h : mid.isEmpty = true
  · simp [ofWire, wireMid, String.isEmpty_iff.mp h]
  · simp [ofWire, wireMid, h]

@[simp] theorem wireMlineIndex_ofWire (c mid : String) (i : UInt16) :
    (ofWire c mid i).wireMlineIndex = i := by
  by_cases h : i = SIGNAL_NO_MLINE_INDEX
  · simp [ofWire, wireMlineIndex, h]
  · simp [ofWire, wireMlineIndex, h]

/-- A candidate is what its own wire fields become exactly when it does not use a
sentinel as a value. -/
theorem ofWire_eq_iff (c : String) (mid : Option String) (i : Option UInt16) :
    iceCandidate c mid i = ofWire c (mid.getD "") (i.getD SIGNAL_NO_MLINE_INDEX) ↔
      mid ≠ some "" ∧ i ≠ some 65535 := by
  have hmid : mid = (if (mid.getD "").isEmpty then none else some (mid.getD "")) ↔
      mid ≠ some "" := by
    cases mid with
    | none => simp
    | some mid => by_cases h : mid = "" <;> simp [h]
  have hmline : i = (if i.getD SIGNAL_NO_MLINE_INDEX ≠ SIGNAL_NO_MLINE_INDEX then
      some (i.getD SIGNAL_NO_MLINE_INDEX) else none) ↔ i ≠ some 65535 := by
    cases i with
    | none => simp
    | some i =>
      by_cases h : i = 65535
      · simp [h, SIGNAL_NO_MLINE_INDEX]
      · simp [h, SIGNAL_NO_MLINE_INDEX]
  rw [ofWire, iceCandidate.injEq, ← hmid, ← hmline]
  exact and_iff_right rfl

theorem representable_iceCandidate_iff (c : String) (mid : Option String) (i : Option UInt16) :
    (iceCandidate c mid i).Representable ↔
      c.utf8ByteSize ≤ 65535 ∧ (mid.getD "").utf8ByteSize ≤ 255 ∧ mid ≠ some "" ∧
        i ≠ some 65535 := by
  have hsize : (∀ s ∈ mid, 1 ≤ s.utf8ByteSize ∧ s.utf8ByteSize ≤ 255) ↔
      (mid.getD "").utf8ByteSize ≤ 255 ∧ mid ≠ some "" := by
    cases mid with
    | none => simp
    | some mid =>
      simp only [Option.getD_some, Option.mem_some_iff, forall_eq', Option.some.injEq, Ne,
        ← String.utf8ByteSize_eq_zero_iff]
      omega
  rw [Representable, hsize, and_assoc]

end SignalMessage

open SignalMessage

theorem takeIceCandidate_exact :
    Exact takeIceCandidate body (fun m => m.kind = SIGNAL_TYPE_ICE ∧ m.Representable) := by
  -- each field is recovered from the finished message, the sentinels included
  have hmline : ∀ c mid, Exact (do let i ← takeU16; return ofWire c mid i)
      (fun m => toBeBytes m.wireMlineIndex ++ [])
      (fun m => True ∧ m = ofWire c mid m.wireMlineIndex) := fun c mid =>
    takeU16_exact.bind (fun i _ => Exact.pure (ofWire c mid i)) wireMlineIndex fun i m _ hm => by
      rw [hm, wireMlineIndex_ofWire]
  have hmid : ∀ c, Exact (do let mid ← takeU8Str; let i ← takeU16; return ofWire c mid i)
      (fun m => pushU8Str m.wireMid ++ (toBeBytes m.wireMlineIndex ++ []))
      (fun m => m.wireMid.utf8ByteSize ≤ 255 ∧
        True ∧ m = ofWire c m.wireMid m.wireMlineIndex) := fun c =>
    takeU8Str_exact.bind (fun mid _ => hmline c mid) wireMid fun mid m _ hm => by
      rw [hm.2, wireMid_ofWire]
  have hice : Exact takeIceCandidate
      (fun m => pushU16Str m.text ++ (pushU8Str m.wireMid ++ (toBeBytes m.wireMlineIndex ++ [])))
      (fun m => m.text.utf8ByteSize ≤ 65535 ∧ m.wireMid.utf8ByteSize ≤ 255 ∧
        True ∧ m = ofWire m.text m.wireMid m.wireMlineIndex) :=
    takeU16Str_exact.bind (fun c _ => hmid c) text fun c m _ hm => by
      rw [hm.2.2, text_ofWire]
  refine hice.congr (fun m => ?_) (fun m hm => ?_)
  · cases m with
    | iceCandidate c mid i =>
      change (c.utf8ByteSize ≤ 65535 ∧ (mid.getD "").utf8ByteSize ≤ 255 ∧ True ∧
        iceCandidate c mid i = ofWire c (mid.getD "") (i.getD SIGNAL_NO_MLINE_INDEX)) ↔
          SIGNAL_TYPE_ICE = SIGNAL_TYPE_ICE ∧ (iceCandidate c mid i).Representable
      rw [ofWire_eq_iff, representable_iceCandidate_iff, true_and, eq_self, true_and]
    | _ =>
      refine iff_of_false (fun h => by cases h.2.2.2) (fun h => ?_)
      obtain ⟨_, _, _, h⟩ := (kind_eq_ice_iff _).mp h.1
      cases h
  · cases m with
    | iceCandidate c mid i =>
      rw [List.append_nil, ← List.append_assoc]
      rfl
    | _ => cases hm.2.2.2

/-- A message that is a type byte and one `u16` string. -/
theorem takeSdp_exact {make : String → SignalMessage} {type : UInt8}
    (hmake : ∀ m : SignalMessage, m.kind = type ↔ m = make m.text)
    (hmade : ∀ s, (make s).text = s ∧ (make s).body = pushU16Str s ∧
      ((make s).Representable ↔ s.utf8ByteSize ≤ 65535)) :
    Exact (make <$> takeU16Str) body (fun m => m.kind = type ∧ m.Representable) := by
  refine (takeU16Str_exact.map text fun s _ => (hmade s).1).congr (fun m => ?_)
    (fun m hm => ?_)
  · rw [hmake, eq_comm (a := m)]
    constructor
    · rintro ⟨hsize, hm⟩
      refine ⟨hm, ?_⟩
      rw [← hm, (hmade _).2.2]
      exact hsize
    · rintro ⟨hm, hrep⟩
      rw [← hm, (hmade _).2.2] at hrep
      exact ⟨hrep, hm⟩
  · rw [← hm.2, (hmade _).2.1, (hmade _).1]

theorem takeBody_exact (type : UInt8) :
    Exact (takeBody type) body (fun m => m.kind = type ∧ m.Representable) := by
  unfold takeBody
  split
  · next h =>
    subst h
    exact takeSdp_exact kind_eq_offer_iff fun s => ⟨rfl, rfl, Iff.rfl⟩
  split
  · next h =>
    subst h
    exact takeSdp_exact kind_eq_answer_iff fun s => ⟨rfl, rfl, Iff.rfl⟩
  split
  · next h =>
    subst h
    exact takeIceCandidate_exact
  split
  · next h =>
    subst h
    refine (Exact.pure bye).congr (fun m => ?_) (fun m hm => ?_)
    · rw [kind_eq_bye_iff]
      constructor
      · rintro rfl
        exact ⟨rfl, trivial⟩
      · exact And.left
    · rw [hm]
      rfl
  · next ho ha hi hb =>
    refine (Exact.fail _ body).congr (fun m => ?_) (fun m hm => hm.elim)
    refine iff_of_false id fun hm => ?_
    rcases hm with ⟨rfl, -⟩
    cases m <;> first | exact ho rfl | exact ha rfl | exact hi rfl | exact hb rfl

/-- **The decoder is an exact reader of `encode_inner` on the representable
messages.** -/
theorem takeMessage_exact : Exact (takeU8 >>= takeBody) encodeInner Representable := by
  refine (takeU8_exact.bind (fun type _ => takeBody_exact type) kind
    fun type m _ hm => hm.1).congr (fun m => ?_) (fun m _ => ?_)
  · rw [true_and, eq_self, true_and]
  · rw [encodeInner_eq]
    rfl

/-! ## Acceptance -/

/-- **The decoder accepts exactly the inputs that begin with the encoding of a
representable message**, and returns that message. -/
theorem decodeInner_eq_ok_iff {b : List UInt8} {m : SignalMessage} :
    decodeInner b = .ok m ↔ m.Representable ∧ m.encodeInner <+: b :=
  takeMessage_exact.decode_eq_ok_iff

/-- **Exact acceptance.**  Decoding never panics; it succeeds exactly on the
inputs that begin with the encoding of a representable message, which it returns;
a message survives its own encoding exactly when it is representable; and any
other input is an error. -/
theorem decode_exact :
    (∀ b, (decodeInner b).Returns) ∧
    (∀ b m, decodeInner b = .ok m ↔ m.Representable ∧ m.encodeInner <+: b) ∧
    (∀ m : SignalMessage, decodeInner m.encodeInner = .ok m ↔ m.Representable) ∧
    (∀ b, (∀ m : SignalMessage, m.Representable → ¬ m.encodeInner <+: b) →
      ∃ e, decodeInner b = .err e) := by
  refine ⟨takeMessage_exact.decode_returns, fun b m => decodeInner_eq_ok_iff, fun m => ?_,
    fun b hb => takeMessage_exact.decode_eq_err hb⟩
  rw [decodeInner_eq_ok_iff]
  exact and_iff_left (List.prefix_refl _)

end CtAgentAndroid
