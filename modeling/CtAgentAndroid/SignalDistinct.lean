import CtAgentAndroid.SignalOverflow

/-! # Which messages look alike on the wire

Messages whose fields fit their prefixes are encoded without a cut, so an
encoding determines its message up to what stands for an absent field.  The
index 65535 is set aside for that; the empty `sdp_mid` is not, and a candidate
with it is encoded like one without an `sdp_mid`.  Nothing else is lost
(`encodeInner_injective_iff`).
-/
namespace CtAgentAndroid
open Rust SignalMessage

namespace SignalMessage

/-- Every field fits its prefix, and the reserved index is not used. -/
def Fits : SignalMessage → Prop
  | offer sdp => sdp.utf8ByteSize ≤ 65535
  | answer sdp => sdp.utf8ByteSize ≤ 65535
  | iceCandidate candidate sdpMid sdpMlineIndex =>
    candidate.utf8ByteSize ≤ 65535 ∧ (∀ mid ∈ sdpMid, mid.utf8ByteSize ≤ 255) ∧
      ∀ i ∈ sdpMlineIndex, i < 65535
  | bye => True

/-- The messages are the same candidate, once without an `sdp_mid` and once with
an empty one. -/
def AbsentAndEmpty : SignalMessage → SignalMessage → Prop
  | iceCandidate c mid i, iceCandidate c' mid' i' =>
    c = c' ∧ i = i' ∧ (mid = none ∧ mid' = some "" ∨ mid = some "" ∧ mid' = none)
  | _, _ => False

instance : (m m' : SignalMessage) → Decidable (AbsentAndEmpty m m')
  | iceCandidate .., iceCandidate .. => inferInstanceAs (Decidable (_ ∧ _ ∧ _))
  | offer _, _ | answer _, _ | bye, _ => .isFalse id
  | iceCandidate .., offer _ | iceCandidate .., answer _ | iceCandidate .., bye => .isFalse id

theorem encodeInner_withAbsences (m : SignalMessage) :
    m.withAbsences.encodeInner = m.encodeInner := by
  cases m with
  | iceCandidate c mid i =>
    rw [withAbsences_iceCandidate, encodeInner_eq, encodeInner_eq, body_ofWire]
    exact congrArg (SIGNAL_TYPE_ICE :: ·) (List.append_assoc _ _ _).symm
  | _ => rfl

theorem Fits.representable_withAbsences {m : SignalMessage} (h : m.Fits) :
    m.withAbsences.Representable := by
  cases m with
  | iceCandidate c mid i =>
    have hmid : (mid.getD "").utf8ByteSize ≤ 255 := by
      cases mid with
      | none => exact Nat.zero_le _
      | some mid => exact h.2.1 mid rfl
    rw [withAbsences_iceCandidate, representable_ofWire]
    exact ⟨h.1, hmid⟩
  | _ => exact h

/-- **An encoding determines its message up to the absence markers.** -/
theorem encodeInner_eq_iff {m m' : SignalMessage} (h : m.Fits) (h' : m'.Fits) :
    m.encodeInner = m'.encodeInner ↔ m.withAbsences = m'.withAbsences := by
  rw [← encodeInner_withAbsences m, ← encodeInner_withAbsences m']
  constructor
  · intro heq
    have hpre : m'.withAbsences.encodeInner <+: m.withAbsences.encodeInner :=
      heq ▸ List.prefix_refl _
    exact takeMessage_exact.eq_of_prefix h.representable_withAbsences
      h'.representable_withAbsences (List.prefix_refl _) hpre
  · exact congrArg encodeInner

/-- An empty `sdp_mid` and none are written alike. -/
theorem getD_mid_eq_iff (mid mid' : Option String) :
    mid.getD "" = mid'.getD "" ↔
      mid = mid' ∨ (mid = none ∧ mid' = some "" ∨ mid = some "" ∧ mid' = none) := by
  rcases mid with - | mid
  · rcases mid' with - | mid'
    · simp
    · simp [eq_comm]
  · rcases mid' with - | mid'
    · simp
    · simp

/-- No index that fits is written like the absence of one. -/
theorem getD_mlineIndex_eq_iff {i i' : Option UInt16} (h : ∀ n ∈ i, n < 65535)
    (h' : ∀ n ∈ i', n < 65535) :
    i.getD SIGNAL_NO_MLINE_INDEX = i'.getD SIGNAL_NO_MLINE_INDEX ↔ i = i' := by
  have hreserved : ∀ n : UInt16, n < 65535 → n ≠ SIGNAL_NO_MLINE_INDEX := by
    rintro n hn rfl
    exact absurd hn (by decide)
  rcases i with - | n
  · rcases i' with - | n'
    · simp
    · simpa using Ne.symm (hreserved n' (h' n' rfl))
  · rcases i' with - | n'
    · simpa using hreserved n (h n rfl)
    · simp

/-- Only an empty `sdp_mid` reads as another field. -/
theorem withAbsences_eq_iff {m m' : SignalMessage} (h : m.Fits) (h' : m'.Fits) :
    m.withAbsences = m'.withAbsences ↔ m = m' ∨ AbsentAndEmpty m m' := by
  cases m with
  | iceCandidate c mid i =>
    cases m' with
    | iceCandidate c' mid' i' =>
      obtain ⟨-, -, hi⟩ := h
      obtain ⟨-, -, hi'⟩ := h'
      rw [withAbsences_iceCandidate, withAbsences_iceCandidate, ofWire_inj, getD_mid_eq_iff,
        getD_mlineIndex_eq_iff hi hi', AbsentAndEmpty, iceCandidate.injEq]
      tauto
    | _ => simp [withAbsences, AbsentAndEmpty]
  | _ => cases m' <;> simp [withAbsences, AbsentAndEmpty]

theorem AbsentAndEmpty.ne {m m' : SignalMessage} (h : AbsentAndEmpty m m') : m ≠ m' := by
  rintro rfl
  cases m with
  | iceCandidate c mid i =>
    rcases h with ⟨-, -, ⟨rfl, hmid⟩ | ⟨rfl, hmid⟩⟩
    · cases hmid
    · cases hmid
  | _ => exact h

end SignalMessage

/-- **Distinct messages stay distinct on the wire, exactly.**  Of two messages
whose fields fit, one encoding for both means one message, unless they are a
candidate without an `sdp_mid` and the same one with an empty `sdp_mid`. -/
theorem encodeInner_injective_iff {m m' : SignalMessage} (h : m.Fits) (h' : m'.Fits) :
    (m.encodeInner = m'.encodeInner → m = m') ↔ ¬ AbsentAndEmpty m m' := by
  rw [encodeInner_eq_iff h h', withAbsences_eq_iff h h']
  constructor
  · intro hsame habsent
    exact habsent.ne (hsame (Or.inr habsent))
  · intro habsent hsame
    exact hsame.resolve_right habsent

theorem encodeInner_injective_iff_absent_mlineIndex :
    let m := iceCandidate "candidate:1" none none
    let m' := iceCandidate "candidate:1" none (some 0)
    (m.encodeInner = m'.encodeInner → m = m') ↔ ¬ AbsentAndEmpty m m' := by
  have hfits : ∀ i : Option UInt16, (∀ n ∈ i, n < 65535) →
      (iceCandidate "candidate:1" none i).Fits := fun _ hi => ⟨by decide, nofun, hi⟩
  have hzero : ∀ n ∈ some (0 : UInt16), n < 65535 := by
    rintro n ⟨⟩
    decide
  exact encodeInner_injective_iff (hfits none nofun) (hfits (some 0) hzero)

/-- An empty `sdp_mid` is written like an absent one. -/
theorem emptyMid_written_as_absent :
    let m := iceCandidate "candidate:1" none none
    let m' := iceCandidate "candidate:1" (some "") none
    m.Fits ∧ m'.Fits ∧ m.encodeInner = m'.encodeInner ∧ m ≠ m' :=
  ⟨⟨by decide, nofun, nofun⟩, ⟨by decide, by decide, nofun⟩, rfl, by decide⟩

end CtAgentAndroid
