import CtAgentAndroid.SignalCodec

/-! # Messages that do not fit their length prefixes

The encoders take strings of any length and cast the length to the prefix's
width, so a longer text is announced as its length modulo `2 ^ 16` or `2 ^ 8`.
The decoder reads that many bytes and carries on with the rest: if the cut is a
character boundary the shortened text is accepted, and in an `IceCandidate` what
was cut off is read as the fields that follow.

`Misread` says exactly when that happens (`not_misread_iff`).  A cut inside a
character saves the message: the decoder then refuses it.
-/
namespace CtAgentAndroid
open Rust SignalMessage

/-- The bytes the exported encoders produce for a message. -/
def encodeSignal : SignalMessage → List UInt8
  | .offer sdp => encodeSignalOffer sdp
  | .answer sdp => encodeSignalAnswer sdp
  | .iceCandidate candidate sdpMid sdpMlineIndex =>
    encodeSignalIceCandidate candidate sdpMid sdpMlineIndex
  | .bye => encodeSignalBye

theorem encodeSignal_eq (m : SignalMessage) : encodeSignal m = m.encodeInner := by
  cases m <;> rfl

/-- The message with the absence markers read as absence: an empty `sdp_mid` and
the index 65535 count as `None`. -/
def SignalMessage.withAbsences : SignalMessage → SignalMessage
  | iceCandidate candidate sdpMid sdpMlineIndex =>
    iceCandidate candidate (sdpMid.filter (· ≠ "")) (sdpMlineIndex.filter (· ≠ 65535))
  | m => m

/-- From byte `n` on, `s` reads as a string with a one-byte length prefix. -/
def ReadsAsU8Str (s : String) (n : Nat) : Prop :=
  ∃ k, (asBytes s)[n]? = some k ∧
    (k = 0 ∨ (isCharBoundary s (n + 1) = true ∧ isCharBoundary s (n + 1 + k.toNat) = true))

/-- A length overflows its prefix, and what the decoder is left with is readable:
the cut is a character boundary, and if it falls in the candidate of an
`IceCandidate`, an `sdp_mid` can be read off the rest of the candidate. -/
def SignalMessage.Misread : SignalMessage → Prop
  | offer sdp =>
    65535 < sdp.utf8ByteSize ∧ isCharBoundary sdp (sdp.utf8ByteSize % 65536) = true
  | answer sdp =>
    65535 < sdp.utf8ByteSize ∧ isCharBoundary sdp (sdp.utf8ByteSize % 65536) = true
  | iceCandidate candidate sdpMid _ =>
    if 65535 < candidate.utf8ByteSize then
      isCharBoundary candidate (candidate.utf8ByteSize % 65536) = true ∧
        ReadsAsU8Str candidate (candidate.utf8ByteSize % 65536)
    else
      255 < (sdpMid.getD "").utf8ByteSize ∧
        isCharBoundary (sdpMid.getD "") ((sdpMid.getD "").utf8ByteSize % 256) = true
  | bye => False

/-! ## Prefixes and cuts -/

/-- Text at the front of longer text is a prefix of it that ends at a character
boundary. -/
theorem asBytes_append_eq_iff {s t : String} (ht : t.utf8ByteSize ≤ s.utf8ByteSize)
    (u v : List UInt8) :
    asBytes t ++ v = asBytes s ++ u ↔
      asBytes t = (asBytes s).take t.utf8ByteSize ∧
        v = (asBytes s).drop t.utf8ByteSize ++ u := by
  have hlen : t.utf8ByteSize ≤ (asBytes s).length := by rwa [asBytes_length]
  constructor
  · intro h
    have htake := congrArg (List.take t.utf8ByteSize) h
    have hdrop := congrArg (List.drop t.utf8ByteSize) h
    rw [List.take_left' (asBytes_length t), List.take_append_of_le_length hlen] at htake
    rw [List.drop_left' (asBytes_length t), List.drop_append_of_le_length hlen] at hdrop
    exact ⟨htake, hdrop⟩
  · rintro ⟨htake, rfl⟩
    rw [htake, ← List.append_assoc, List.take_append_drop]

/-- **A length prefix that wraps at `width` cuts the text it announces**: text of
admissible length stands at the front of a longer one exactly when it is what the
cut leaves, and what follows it starts with what was cut off. -/
theorem prefixed_append_eq_iff (head : Nat → List UInt8) {width : Nat} {s t : String}
    (hlen : (head t.utf8ByteSize).length = (head s.utf8ByteSize).length)
    (hhead : head t.utf8ByteSize = head s.utf8ByteSize ↔
      t.utf8ByteSize = s.utf8ByteSize % width) (u v : List UInt8) :
    head t.utf8ByteSize ++ asBytes t ++ v = head s.utf8ByteSize ++ asBytes s ++ u ↔
      t.utf8ByteSize = s.utf8ByteSize % width ∧
        asBytes t = (asBytes s).take (s.utf8ByteSize % width) ∧
        v = (asBytes s).drop (s.utf8ByteSize % width) ++ u := by
  have hle : s.utf8ByteSize % width ≤ s.utf8ByteSize := Nat.mod_le _ _
  rw [List.append_assoc, List.append_assoc]
  constructor
  · intro h
    obtain ⟨hfront, hrest⟩ := List.append_inj h hlen
    have hsize := hhead.mp hfront
    rw [asBytes_append_eq_iff (by omega), hsize] at hrest
    exact ⟨hsize, hrest⟩
  · rintro ⟨hsize, hrest⟩
    rw [← hsize] at hrest
    rw [hhead.mpr hsize, (asBytes_append_eq_iff (by omega) u v).mpr hrest]

theorem pushU16Str_append_eq_iff {s t : String} (ht : t.utf8ByteSize ≤ 65535)
    (u v : List UInt8) :
    pushU16Str t ++ v = pushU16Str s ++ u ↔
      t.utf8ByteSize = s.utf8ByteSize % 65536 ∧
        asBytes t = (asBytes s).take (s.utf8ByteSize % 65536) ∧
        v = (asBytes s).drop (s.utf8ByteSize % 65536) ++ u := by
  have hhead : toBeBytes (asU16 t.utf8ByteSize) = toBeBytes (asU16 s.utf8ByteSize) ↔
      t.utf8ByteSize = s.utf8ByteSize % 65536 := by
    rw [← asU16_toNat, ← asU16_eq_iff ht]
    exact ⟨toBeBytes_injective, congrArg toBeBytes⟩
  exact prefixed_append_eq_iff (fun n => toBeBytes (asU16 n)) (s := s) (t := t) rfl hhead u v

theorem pushU8Str_append_eq_iff {s t : String} (ht : t.utf8ByteSize ≤ 255) (u v : List UInt8) :
    pushU8Str t ++ v = pushU8Str s ++ u ↔
      t.utf8ByteSize = s.utf8ByteSize % 256 ∧
        asBytes t = (asBytes s).take (s.utf8ByteSize % 256) ∧
        v = (asBytes s).drop (s.utf8ByteSize % 256) ++ u := by
  have hhead : [asU8 t.utf8ByteSize] = [asU8 s.utf8ByteSize] ↔
      t.utf8ByteSize = s.utf8ByteSize % 256 := by
    rw [List.singleton_inj, ← asU8_toNat, asU8_eq_iff ht]
  exact prefixed_append_eq_iff (fun n => [asU8 n]) (s := s) (t := t) rfl hhead u v

theorem pushU8Str_append_eq_cons_iff {t : String} (ht : t.utf8ByteSize ≤ 255) (k : UInt8)
    (u v : List UInt8) :
    pushU8Str t ++ v = k :: u ↔ t.utf8ByteSize = k.toNat ∧ asBytes t ++ v = u := by
  rw [pushU8Str, List.cons_append, List.cons.injEq, asU8_eq_iff ht]

/-- The text left by a cut is there exactly when the cut is a boundary. -/
theorem exists_cut_iff {s : String} {n : Nat} (hn : n ≤ s.utf8ByteSize) :
    (∃ t : String, t.utf8ByteSize = n ∧ asBytes t = (asBytes s).take n) ↔
      isCharBoundary s n = true := by
  rw [← fromUtf8_take_iff hn]
  constructor
  · rintro ⟨t, -, ht⟩
    exact ⟨t, ht.symm⟩
  · rintro ⟨t, ht⟩
    refine ⟨t, ?_, ht.symm⟩
    rw [← asBytes_length t, ← ht, List.length_take_of_le (by rwa [asBytes_length])]

/-- The text left by a cut is always the whole text exactly when nothing is cut
off, or the cut falls inside a character. -/
theorem cut_eq_self_iff {s : String} {n : Nat} (hn : n ≤ s.utf8ByteSize) :
    (∀ t : String, t.utf8ByteSize = n → asBytes t = (asBytes s).take n → t = s) ↔
      n = s.utf8ByteSize ∨ ¬ isCharBoundary s n = true := by
  constructor
  · intro h
    by_cases hb : isCharBoundary s n = true
    · obtain ⟨t, hsize, ht⟩ := (exists_cut_iff hn).mpr hb
      left
      rw [← hsize, h t hsize ht]
    · exact Or.inr hb
  · rintro (rfl | hb) t hsize ht
    · rw [List.take_of_length_le (Nat.le_of_eq (asBytes_length s))] at ht
      exact asBytes_inj.mp ht
    · exact absurd ((exists_cut_iff hn).mp ⟨t, hsize, ht⟩) hb

/-- A two-byte integer reads off any two bytes. -/
theorem exists_toBeBytes {l : List UInt8} (h : 2 ≤ l.length) :
    ∃ i tail, toBeBytes i ++ tail = l := by
  match l, h with
  | a :: b :: tail, _ =>
    refine ⟨fromBeBytes ⟨#[a, b], rfl⟩, tail, ?_⟩
    rw [toBeBytes_fromBeBytes]
    rfl

/-! ## Offers and answers -/

/-- An encoding at the front of another has its type byte, and its body at the
front of the other's body. -/
theorem encodeInner_prefix_iff (m m' : SignalMessage) :
    m'.encodeInner <+: m.encodeInner ↔ m'.kind = m.kind ∧ m'.body <+: m.body := by
  rw [encodeInner_eq, encodeInner_eq, List.cons_prefix_cons]

theorem pushU16Str_prefix_iff {s t : String} (ht : t.utf8ByteSize ≤ 65535) :
    pushU16Str t <+: pushU16Str s ↔
      t.utf8ByteSize = s.utf8ByteSize % 65536 ∧
        asBytes t = (asBytes s).take (s.utf8ByteSize % 65536) := by
  have happend := fun v => pushU16Str_append_eq_iff (s := s) ht [] v
  simp only [List.append_nil] at happend
  constructor
  · rintro ⟨v, h⟩
    obtain ⟨hsize, htake, -⟩ := (happend v).mp h
    exact ⟨hsize, htake⟩
  · rintro ⟨hsize, htake⟩
    exact ⟨_, (happend _).mpr ⟨hsize, htake, rfl⟩⟩

/-- What an over-long SDP is read as. -/
theorem sdp_kept_iff (s : String) :
    (∀ t : String, t.utf8ByteSize ≤ 65535 → pushU16Str t <+: pushU16Str s → t = s) ↔
      ¬ (65535 < s.utf8ByteSize ∧ isCharBoundary s (s.utf8ByteSize % 65536) = true) := by
  have hcut := cut_eq_self_iff (s := s) (Nat.mod_le s.utf8ByteSize 65536)
  have hfits : s.utf8ByteSize % 65536 = s.utf8ByteSize ↔ ¬ 65535 < s.utf8ByteSize := by omega
  rw [hfits, ← not_and_or] at hcut
  rw [← hcut]
  constructor
  · intro h t hsize ht
    exact h t (by omega) ((pushU16Str_prefix_iff (by omega)).mpr ⟨hsize, ht⟩)
  · intro h t hle hpre
    obtain ⟨hsize, ht⟩ := (pushU16Str_prefix_iff hle).mp hpre
    exact h t hsize ht

/-! ## Candidates -/

theorem representable_ofWire (c mid : String) (i : UInt16) :
    (ofWire c mid i).Representable ↔ c.utf8ByteSize ≤ 65535 ∧ mid.utf8ByteSize ≤ 255 := by
  have hwire := ofWire_eq_iff c (if mid.isEmpty then none else some mid)
    (if i ≠ SIGNAL_NO_MLINE_INDEX then some i else none)
  have hmid : (if mid.isEmpty then none else some mid).getD "" = mid := wireMid_ofWire c mid i
  have hi : (if i ≠ SIGNAL_NO_MLINE_INDEX then some i else none).getD SIGNAL_NO_MLINE_INDEX = i :=
    wireMlineIndex_ofWire c mid i
  rw [hmid, hi] at hwire
  rw [ofWire, representable_iceCandidate_iff, hmid, ← hwire]
  simp [ofWire]

theorem body_ofWire (c mid : String) (i : UInt16) :
    (ofWire c mid i).body = pushU16Str c ++ (pushU8Str mid ++ toBeBytes i) := by
  have hbody : (ofWire c mid i).body = pushU16Str c ++ pushU8Str (ofWire c mid i).wireMid ++
      toBeBytes (ofWire c mid i).wireMlineIndex := rfl
  rw [hbody, wireMid_ofWire, wireMlineIndex_ofWire, List.append_assoc]

/-- The absences of a candidate are those of its wire fields. -/
theorem withAbsences_iceCandidate (c : String) (mid : Option String) (i : Option UInt16) :
    (iceCandidate c mid i).withAbsences =
      ofWire c (mid.getD "") (i.getD SIGNAL_NO_MLINE_INDEX) := by
  have hmid : mid.filter (· ≠ "") =
      if (mid.getD "").isEmpty then none else some (mid.getD "") := by
    cases mid with
    | none => simp
    | some mid => by_cases h : mid = "" <;> simp [h]
  have hi : i.filter (· ≠ 65535) =
      if i.getD SIGNAL_NO_MLINE_INDEX ≠ SIGNAL_NO_MLINE_INDEX then
        some (i.getD SIGNAL_NO_MLINE_INDEX) else none := by
    cases i with
    | none => simp
    | some i => by_cases h : i = 65535 <;> simp [h, SIGNAL_NO_MLINE_INDEX]
  rw [withAbsences, hmid, hi, ofWire]

theorem withAbsences_ofWire (c mid : String) (i : UInt16) :
    (ofWire c mid i).withAbsences = ofWire c mid i := by
  have hwire : (ofWire c mid i).withAbsences =
      ofWire c (ofWire c mid i).wireMid (ofWire c mid i).wireMlineIndex :=
    withAbsences_iceCandidate c _ _
  rw [hwire, wireMid_ofWire, wireMlineIndex_ofWire]

theorem ofWire_inj {c c' mid mid' : String} {i i' : UInt16} :
    ofWire c' mid' i' = ofWire c mid i ↔ c' = c ∧ mid' = mid ∧ i' = i := by
  constructor
  · intro h
    refine ⟨?_, ?_, ?_⟩
    · rw [← text_ofWire c' mid' i', h, text_ofWire]
    · rw [← wireMid_ofWire c' mid' i', h, wireMid_ofWire]
    · rw [← wireMlineIndex_ofWire c' mid' i', h, wireMlineIndex_ofWire]
  · rintro ⟨rfl, rfl, rfl⟩
    rfl

/-- **What a candidate's encoding is read as**: some bytes of the candidate, and
from the rest of what was encoded an `sdp_mid` and an index. -/
theorem decodeInner_iceCandidate_iff (c : String) (mid : Option String) (i : Option UInt16)
    (m' : SignalMessage) :
    decodeInner (iceCandidate c mid i).encodeInner = .ok m' ↔
      ∃ c' mid' i' tail, m' = ofWire c' mid' i' ∧ mid'.utf8ByteSize ≤ 255 ∧
        (c'.utf8ByteSize = c.utf8ByteSize % 65536 ∧
          asBytes c' = (asBytes c).take (c.utf8ByteSize % 65536)) ∧
        pushU8Str mid' ++ (toBeBytes i' ++ tail) =
          (asBytes c).drop (c.utf8ByteSize % 65536) ++
            (pushU8Str (mid.getD "") ++ toBeBytes (i.getD SIGNAL_NO_MLINE_INDEX)) := by
  have hbody : (iceCandidate c mid i).body = pushU16Str c ++
      (pushU8Str (mid.getD "") ++ toBeBytes (i.getD SIGNAL_NO_MLINE_INDEX)) :=
    List.append_assoc _ _ _
  rw [decodeInner_eq_ok_iff, encodeInner_prefix_iff, hbody]
  constructor
  · rintro ⟨hrep, hkind, hpre⟩
    obtain ⟨c', mid', i', rfl⟩ := (kind_eq_ice_iff m').mp hkind
    obtain ⟨hc', hmid', hempty, hindex⟩ := (representable_iceCandidate_iff c' mid' i').mp hrep
    have hwire := (ofWire_eq_iff c' mid' i').mpr ⟨hempty, hindex⟩
    obtain ⟨tail, htail⟩ := hpre
    rw [hwire, body_ofWire, List.append_assoc, pushU16Str_append_eq_iff hc',
      List.append_assoc] at htail
    obtain ⟨hsize, htake, hrest⟩ := htail
    exact ⟨c', _, _, tail, hwire, hmid', ⟨hsize, htake⟩, hrest⟩
  · rintro ⟨c', mid', i', tail, rfl, hmid', ⟨hsize, htake⟩, hrest⟩
    have hc' : c'.utf8ByteSize ≤ 65535 := by omega
    refine ⟨(representable_ofWire c' mid' i').mpr ⟨hc', hmid'⟩, rfl, tail, ?_⟩
    rw [body_ofWire, List.append_assoc, pushU16Str_append_eq_iff hc', List.append_assoc]
    exact ⟨hsize, htake, hrest⟩

/-- With the byte at `n` as the length, a short string reads off `s` exactly when
the bytes announced are text. -/
theorem readsAsU8Str_iff_text {s : String} {n : Nat} {k : UInt8} (hk : (asBytes s)[n]? = some k)
    (hfits : n + 1 + k.toNat ≤ s.utf8ByteSize) :
    ReadsAsU8Str s n ↔ ∃ t, ((asBytes s).drop (n + 1)).take k.toNat = asBytes t := by
  have hslice := fromUtf8_slice_iff (s := s) (Nat.le_add_right (n + 1) k.toNat) hfits
  rw [Nat.add_sub_cancel_left] at hslice
  have hzero : n + 1 = n + 1 + k.toNat ↔ k = 0 := by
    rw [← UInt8.toNat_inj, UInt8.toNat_zero]
    omega
  rw [hslice, hzero, ReadsAsU8Str, hk]
  simp only [Option.some.injEq, exists_eq_left']

/-- After a cut that leaves 256 bytes or more, an `sdp_mid` and an index can be
read off exactly when the text there reads as a short string. -/
theorem readsAsU8Str_iff {s : String} {n : Nat} (hn : n + 256 ≤ s.utf8ByteSize) {x : List UInt8}
    (hx : 2 ≤ x.length) :
    (∃ mid i tail, mid.utf8ByteSize ≤ 255 ∧
      pushU8Str mid ++ (toBeBytes i ++ tail) = (asBytes s).drop n ++ x) ↔ ReadsAsU8Str s n := by
  have hlt : n < (asBytes s).length := by
    rw [asBytes_length]
    omega
  obtain ⟨k, hk⟩ : ∃ k, (asBytes s)[n]? = some k := ⟨_, List.getElem?_eq_getElem hlt⟩
  have hdrop : (asBytes s).drop n = k :: (asBytes s).drop (n + 1) := by
    rw [List.drop_eq_getElem_cons hlt, (List.getElem?_eq_some_iff.mp hk).2]
  -- the byte at the cut is taken for a length, and as many bytes are there
  have hk255 : k.toNat ≤ 255 := Nat.le_of_lt_succ k.toNat_lt
  have hrest : k.toNat ≤ ((asBytes s).drop (n + 1)).length := by
    rw [List.length_drop, asBytes_length]
    omega
  rw [readsAsU8Str_iff_text hk (by omega), hdrop]
  constructor
  · rintro ⟨mid, i, tail, hmid, h⟩
    rw [List.cons_append, pushU8Str_append_eq_cons_iff hmid] at h
    obtain ⟨hsize, h⟩ := h
    refine ⟨mid, ?_⟩
    have htake := congrArg (List.take k.toNat) h
    rw [List.take_left' (by rw [asBytes_length, hsize]), List.take_append_of_le_length hrest]
      at htake
    exact htake.symm
  · rintro ⟨t, ht⟩
    have hsize : t.utf8ByteSize = k.toNat := by
      rw [← asBytes_length t, ← ht, List.length_take_of_le hrest]
    obtain ⟨i, tail, hi⟩ := exists_toBeBytes
      (l := ((asBytes s).drop (n + 1)).drop k.toNat ++ x) (by
        rw [List.length_append]
        omega)
    refine ⟨t, i, tail, by omega, ?_⟩
    rw [List.cons_append, pushU8Str_append_eq_cons_iff (by omega), hi, ← ht,
      ← List.append_assoc, List.take_append_drop]
    exact ⟨hsize, rfl⟩

/-- A candidate that overflows its prefix is accepted only as another one. -/
theorem longCandidate_kept_iff {c : String} (hc : 65535 < c.utf8ByteSize) (mid : Option String)
    (i : Option UInt16) :
    (∀ m', decodeInner (iceCandidate c mid i).encodeInner = .ok m' →
        m'.withAbsences = (iceCandidate c mid i).withAbsences) ↔
      ¬ (isCharBoundary c (c.utf8ByteSize % 65536) = true ∧
        ReadsAsU8Str c (c.utf8ByteSize % 65536)) := by
  have hcut := exists_cut_iff (s := c) (Nat.mod_le c.utf8ByteSize 65536)
  have hreads := readsAsU8Str_iff (s := c) (n := c.utf8ByteSize % 65536) (by omega)
    (x := pushU8Str (mid.getD "") ++ toBeBytes (i.getD SIGNAL_NO_MLINE_INDEX)) (by
      rw [List.length_append, toBeBytes_length]
      omega)
  rw [← hcut, ← hreads]
  constructor
  · rintro h ⟨⟨c', hsize, htake⟩, mid', i', tail, hmid', hrest⟩
    have hkept := h (ofWire c' mid' i') ((decodeInner_iceCandidate_iff c mid i _).mpr
      ⟨c', mid', i', tail, rfl, hmid', ⟨hsize, htake⟩, hrest⟩)
    rw [withAbsences_ofWire, withAbsences_iceCandidate, ofWire_inj] at hkept
    rw [hkept.1] at hsize
    omega
  · intro h m' hm'
    obtain ⟨c', mid', i', tail, -, hmid', hc', hrest⟩ :=
      (decodeInner_iceCandidate_iff c mid i m').mp hm'
    exact absurd ⟨⟨c', hc'⟩, mid', i', tail, hmid', hrest⟩ h

/-- A candidate that fits is read back, and from the rest some bytes of the
`sdp_mid` and an index. -/
theorem decodeInner_shortCandidate_iff {c : String} (hc : ¬ 65535 < c.utf8ByteSize)
    (mid : Option String) (i : Option UInt16) (m' : SignalMessage) :
    decodeInner (iceCandidate c mid i).encodeInner = .ok m' ↔
      ∃ mid' i' tail, m' = ofWire c mid' i' ∧
        mid'.utf8ByteSize = (mid.getD "").utf8ByteSize % 256 ∧
        asBytes mid' = (asBytes (mid.getD "")).take ((mid.getD "").utf8ByteSize % 256) ∧
        toBeBytes i' ++ tail = (asBytes (mid.getD "")).drop ((mid.getD "").utf8ByteSize % 256) ++
          toBeBytes (i.getD SIGNAL_NO_MLINE_INDEX) := by
  have hmod : c.utf8ByteSize % 65536 = c.utf8ByteSize := by omega
  have hall : (asBytes c).drop c.utf8ByteSize = [] :=
    List.drop_of_length_le (Nat.le_of_eq (asBytes_length c))
  have htakeAll : (asBytes c).take c.utf8ByteSize = asBytes c :=
    List.take_of_length_le (Nat.le_of_eq (asBytes_length c))
  rw [decodeInner_iceCandidate_iff, hmod, hall, htakeAll, List.nil_append]
  constructor
  · rintro ⟨c', mid', i', tail, rfl, hmid', ⟨-, hc'⟩, hrest⟩
    obtain rfl := asBytes_inj.mp hc'
    exact ⟨mid', i', tail, rfl, (pushU8Str_append_eq_iff hmid' _ _).mp hrest⟩
  · rintro ⟨mid', i', tail, rfl, hrest⟩
    have hmid' : mid'.utf8ByteSize ≤ 255 := by omega
    exact ⟨c, mid', i', tail, rfl, hmid', ⟨rfl, rfl⟩, (pushU8Str_append_eq_iff hmid' _ _).mpr hrest⟩

/-- Then it is the `sdp_mid` that matters. -/
theorem shortCandidate_kept_iff {c : String} (hc : ¬ 65535 < c.utf8ByteSize) (mid : Option String)
    (i : Option UInt16) :
    (∀ m', decodeInner (iceCandidate c mid i).encodeInner = .ok m' →
        m'.withAbsences = (iceCandidate c mid i).withAbsences) ↔
      ¬ (255 < (mid.getD "").utf8ByteSize ∧
        isCharBoundary (mid.getD "") ((mid.getD "").utf8ByteSize % 256) = true) := by
  have hcut := cut_eq_self_iff (s := mid.getD "") (Nat.mod_le (mid.getD "").utf8ByteSize 256)
  have hfits : (mid.getD "").utf8ByteSize % 256 = (mid.getD "").utf8ByteSize ↔
      ¬ 255 < (mid.getD "").utf8ByteSize := by omega
  rw [hfits, ← not_and_or] at hcut
  rw [← hcut]
  constructor
  · intro h t hsize ht
    -- whatever the cut leaves of the mid, two bytes for an index follow it
    obtain ⟨i', tail, hi'⟩ := exists_toBeBytes (l := (asBytes (mid.getD "")).drop
      ((mid.getD "").utf8ByteSize % 256) ++ toBeBytes (i.getD SIGNAL_NO_MLINE_INDEX)) (by
        rw [List.length_append, toBeBytes_length]
        omega)
    have hread : decodeInner (iceCandidate c mid i).encodeInner = .ok (ofWire c t i') :=
      (decodeInner_shortCandidate_iff hc mid i _).mpr ⟨t, i', tail, rfl, hsize, ht, hi'⟩
    have hkept := h _ hread
    rw [withAbsences_ofWire, withAbsences_iceCandidate, ofWire_inj] at hkept
    exact hkept.2.1
  · intro h m' hm'
    obtain ⟨mid', i', tail, rfl, hsize, htake, hindex⟩ :=
      (decodeInner_shortCandidate_iff hc mid i m').mp hm'
    have hmidEq : mid' = mid.getD "" := h mid' hsize htake
    have hdropAll : (asBytes (mid.getD "")).drop ((mid.getD "").utf8ByteSize % 256) = [] := by
      rw [← hsize, hmidEq]
      exact List.drop_of_length_le (Nat.le_of_eq (asBytes_length _))
    rw [hdropAll, List.nil_append] at hindex
    have hbe : toBeBytes i' = toBeBytes (i.getD SIGNAL_NO_MLINE_INDEX) :=
      (List.append_inj (hindex.trans (List.append_nil _).symm) rfl).1
    rw [withAbsences_ofWire, withAbsences_iceCandidate, ofWire_inj]
    exact ⟨rfl, hmidEq, toBeBytes_injective hbe⟩

/-- A message with one `u16` string is read only as one of its own kind. -/
theorem sdpMessage_kept_iff {make : String → SignalMessage} {type : UInt8}
    (hkind : ∀ m : SignalMessage, m.kind = type ↔ m = make m.text)
    (hmake : ∀ s, (make s).text = s ∧ (make s).body = pushU16Str s ∧
      ((make s).Representable ↔ s.utf8ByteSize ≤ 65535) ∧ (make s).withAbsences = make s)
    (s : String) :
    (∀ m', decodeInner (make s).encodeInner = .ok m' →
        m'.withAbsences = (make s).withAbsences) ↔
      ¬ (65535 < s.utf8ByteSize ∧ isCharBoundary s (s.utf8ByteSize % 65536) = true) := by
  have hown : ∀ t, (make t).kind = type := fun t => (hkind _).mpr (by rw [(hmake t).1])
  rw [← sdp_kept_iff]
  constructor
  · intro h t ht hpre
    have hkept := h (make t) (decodeInner_eq_ok_iff.mpr ⟨(hmake t).2.2.1.mpr ht, by
      rw [encodeInner_prefix_iff, hown, hown, (hmake t).2.1, (hmake s).2.1]
      exact ⟨rfl, hpre⟩⟩)
    rw [(hmake t).2.2.2, (hmake s).2.2.2] at hkept
    rw [← (hmake t).1, hkept, (hmake s).1]
  · intro h m' hm'
    obtain ⟨hrep, hpre⟩ := decodeInner_eq_ok_iff.mp hm'
    rw [encodeInner_prefix_iff, hown, hkind] at hpre
    obtain ⟨hm, hpre⟩ := hpre
    rw [hm] at hrep hpre ⊢
    rw [(hmake _).2.1, (hmake _).2.1] at hpre
    rw [h m'.text ((hmake _).2.2.1.mp hrep) hpre]

/-- **No silent corruption, exactly.**  What the decoder makes of an encoded
message is that message, up to the absence markers, exactly when the message is
not misread. -/
theorem not_misread_iff (m : SignalMessage) :
    (∀ m', decodeSignalMessage (encodeSignal m) = .ok m' →
      m'.withAbsences = m.withAbsences) ↔ ¬ m.Misread := by
  rw [encodeSignal_eq]
  cases m with
  | offer sdp =>
    exact sdpMessage_kept_iff kind_eq_offer_iff (fun s => ⟨rfl, rfl, Iff.rfl, rfl⟩) sdp
  | answer sdp =>
    exact sdpMessage_kept_iff kind_eq_answer_iff (fun s => ⟨rfl, rfl, Iff.rfl, rfl⟩) sdp
  | iceCandidate c mid i =>
    by_cases hc : 65535 < c.utf8ByteSize
    · rw [Misread, if_pos hc]
      exact longCandidate_kept_iff hc mid i
    · rw [Misread, if_neg hc]
      exact shortCandidate_kept_iff hc mid i
  | bye =>
    refine iff_of_true (fun m' hm' => ?_) id
    obtain ⟨-, hpre⟩ := decodeInner_eq_ok_iff.mp hm'
    rw [encodeInner_prefix_iff] at hpre
    rw [(kind_eq_bye_iff m').mp hpre.1]

/-- A 256-byte `sdp_mid` is announced as an empty one, and its first two bytes
arrive as the media-line index 24929. -/
theorem longMid_read_as_mlineIndex :
    let m := iceCandidate "" (some (String.ofList (List.replicate 256 'a'))) none
    let m' := iceCandidate "" none (some 24929)
    decodeSignalMessage (encodeSignal m) = .ok m' ∧ m'.withAbsences ≠ m.withAbsences := by
  decide +kernel

end CtAgentAndroid
