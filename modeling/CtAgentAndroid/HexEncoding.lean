import CtAgentAndroid.HexDecoding

/-! # What the hex encoder writes

`to_hex` writes each byte as two digits of `0-9a-f`, the high half first.  Every
such pair reads as the byte it was written for, so `from_hex` gives back the
bytes (`fromHex_toHex`), and each of its slices is one byte's digits
(`strSlice_toHex`): none can cut a character.

Conversely a text of these digits that is decoded is the only text the encoder
writes for its bytes (`toHex_pairBytes`).  Upper-case digits and signs are read
and not written back.
-/
namespace CtAgentAndroid
open Rust

/-! ## Digits -/

/-- `0-9` and `a-f`. -/
def IsLowerHexDigit (c : Char) : Prop := ('0' ≤ c ∧ c ≤ '9') ∨ ('a' ≤ c ∧ c ≤ 'f')

instance (c : Char) : Decidable (IsLowerHexDigit c) := inferInstanceAs (Decidable (_ ∨ _))

theorem IsLowerHexDigit.isHexDigit {c : Char} (h : IsLowerHexDigit c) : IsHexDigit c :=
  h.imp_right Or.inl

theorem IsLowerHexDigit.ne_plus {c : Char} (h : IsLowerHexDigit c) : c ≠ '+' := by
  rintro rfl
  exact absurd h (by decide)

theorem lowerHexDigit_isLower {n : Nat} (h : n < 16) : IsLowerHexDigit (lowerHexDigit n) :=
  (by decide : ∀ n < 16, IsLowerHexDigit (lowerHexDigit n)) n h

@[simp] theorem hexValue_lowerHexDigit {n : Nat} (h : n < 16) : hexValue (lowerHexDigit n) = n :=
  (by decide : ∀ n < 16, hexValue (lowerHexDigit n) = n) n h

/-- The encoder's digits are the only ones of their values. -/
theorem lowerHexDigit_hexValue {c : Char} (h : IsLowerHexDigit c) :
    lowerHexDigit (hexValue c) = c := by
  have hsize := utf8Size_of_isHexDigit h.isHexDigit
  revert h
  exact forall_ascii (P := fun c => IsLowerHexDigit c → lowerHexDigit (hexValue c) = c)
    (by decide +kernel) hsize

/-! ## One byte -/

theorem halves_lt (b : UInt8) : b.toNat / 16 < 16 ∧ b.toNat % 16 < 16 := by
  have hb := b.toNat_lt
  omega

theorem toList_lowerHex02 (b : UInt8) :
    (lowerHex02 b).toList = [lowerHexDigit (b.toNat / 16), lowerHexDigit (b.toNat % 16)] :=
  String.toList_ofList

theorem lowerHex02_isLower (b : UInt8) : ∀ c ∈ (lowerHex02 b).toList, IsLowerHexDigit c := by
  obtain ⟨hhigh, hlow⟩ := halves_lt b
  intro c hc
  rw [toList_lowerHex02] at hc
  rcases List.mem_pair.mp hc with rfl | rfl
  · exact lowerHexDigit_isLower hhigh
  · exact lowerHexDigit_isLower hlow

theorem pairReads_halves (b : UInt8) :
    PairReads (lowerHexDigit (b.toNat / 16)) (lowerHexDigit (b.toNat % 16)) := by
  obtain ⟨hhigh, hlow⟩ := halves_lt b
  exact ⟨Or.inr (lowerHexDigit_isLower hhigh).isHexDigit, (lowerHexDigit_isLower hlow).isHexDigit⟩

/-- The two digits of a byte read as that byte. -/
theorem pairByte_halves (b : UInt8) :
    pairByte (lowerHexDigit (b.toNat / 16)) (lowerHexDigit (b.toNat % 16)) = b := by
  obtain ⟨hhigh, hlow⟩ := halves_lt b
  have hb : b.toNat / 16 * 16 + b.toNat % 16 = b.toNat := by omega
  rw [pairByte, if_neg (lowerHexDigit_isLower hhigh).ne_plus, hexValue_lowerHexDigit hhigh,
    hexValue_lowerHexDigit hlow, hb]
  exact (asU8_eq_iff (Nat.le_of_lt_succ b.toNat_lt)).mpr rfl

/-- The byte read from two of the encoder's digits is written as they are. -/
theorem lowerHex02_pairByte {c d : Char} (hc : IsLowerHexDigit c) (hd : IsLowerHexDigit d) :
    (lowerHex02 (pairByte c d)).toList = [c, d] := by
  have hhigh := hexValue_lt hc.isHexDigit
  have hlow := hexValue_lt hd.isHexDigit
  have hvalue : (pairByte c d).toNat = hexValue c * 16 + hexValue d := by
    rw [pairByte, if_neg hc.ne_plus, asU8_toNat_of_le (by omega)]
  have hdiv : (hexValue c * 16 + hexValue d) / 16 = hexValue c := by omega
  have hmod : (hexValue c * 16 + hexValue d) % 16 = hexValue d := by omega
  rw [toList_lowerHex02, hvalue, hdiv, hmod, lowerHexDigit_hexValue hc, lowerHexDigit_hexValue hd]

/-! ## The text -/

theorem toHex_append (b b' : List UInt8) : toHex (b ++ b') = toHex b ++ toHex b' := by
  rw [toHex, List.map_append, String.join_append]
  rfl

theorem toList_toHex_cons (x : UInt8) (b : List UInt8) :
    (toHex (x :: b)).toList =
      lowerHexDigit (x.toNat / 16) :: lowerHexDigit (x.toNat % 16) :: (toHex b).toList := by
  rw [toHex, List.map_cons, String.join_cons, String.toList_append, toList_lowerHex02]
  rfl

theorem toHex_length (b : List UInt8) : (toHex b).length = 2 * b.length := by
  induction b with
  | nil => rfl
  | cons x b ih =>
    rw [← String.length_toList] at ih ⊢
    rw [toList_toHex_cons, List.length_cons, List.length_cons, ih, List.length_cons]
    omega

theorem toHex_isLower (b : List UInt8) : ∀ c ∈ (toHex b).toList, IsLowerHexDigit c := by
  intro c hc
  rw [toHex, String.toList_join] at hc
  obtain ⟨s, hs, hc⟩ := List.mem_flatMap.mp hc
  obtain ⟨x, -, rfl⟩ := List.mem_map.mp hs
  exact lowerHex02_isLower x c hc

/-- What the encoder writes, the decoder reads, for the same bytes. -/
theorem readsAsBytes_toHex (b : List UInt8) :
    ReadsAsBytes (toHex b).toList ∧ pairBytes (toHex b).toList = b := by
  induction b with
  | nil => exact ⟨trivial, rfl⟩
  | cons x b ih =>
    rw [toList_toHex_cons, ReadsAsBytes, pairBytes, pairByte_halves, ih.2]
    exact ⟨⟨pairReads_halves x, ih.1⟩, rfl⟩

/-- **The bytes come back.** -/
theorem fromHex_toHex (b : List UInt8) : fromHex (toHex b) = .ok b :=
  fromHex_eq_ok_iff.mpr (readsAsBytes_toHex b)

theorem toHex_injective : Function.Injective toHex := by
  intro b b' h
  have hb := fromHex_toHex b
  rw [h, fromHex_toHex] at hb
  exact (Outcome.ok.inj hb).symm

theorem utf8ByteSize_toHex (b : List UInt8) : (toHex b).utf8ByteSize = 2 * b.length := by
  have hsize := (readsAsBytes_toHex b).1.utf8ByteSize
  rw [String.ofList_toList] at hsize
  rw [hsize, String.length_toList, toHex_length]

/-- **Each slice is one byte's digits.** -/
theorem strSlice_toHex {ε : Type} (b : List UInt8) (i : Nat) (h : i < b.length) :
    (strSlice (toHex b) (2 * i) (2 * i + 2) : Outcome ε String) = .ok (lowerHex02 b[i]) := by
  have hsplit : toHex b = toHex (b.take i) ++ (lowerHex02 b[i] ++ toHex (b.drop (i + 1))) := by
    conv_lhs => rw [← List.take_append_drop i b, List.drop_eq_getElem_cons h]
    rw [toHex_append, toHex, toHex, toHex, List.map_cons, String.join_cons]
  have hstart : (toHex (b.take i)).utf8ByteSize = 2 * i := by
    rw [utf8ByteSize_toHex, List.length_take_of_le (Nat.le_of_lt h)]
  have hpair : (lowerHex02 b[i]).utf8ByteSize = 2 := by
    have hsize := utf8ByteSize_toHex [b[i]]
    rwa [toHex, List.map_singleton, String.join_cons, String.join_nil, String.append_empty] at hsize
  have hslice := strSlice_append (ε := ε) (toHex (b.take i))
    (lowerHex02 b[i] ++ toHex (b.drop (i + 1))) 0 2
  have hprefix := strSlice_prefix (ε := ε) (lowerHex02 b[i]) (toHex (b.drop (i + 1)))
  rw [hpair] at hprefix
  rw [← hsplit, hstart, hprefix] at hslice
  exact hslice

/-- A text of the encoder's digits is the one it writes for the bytes read from
it. -/
theorem toHex_pairBytes {cs : List Char} (hreads : ReadsAsBytes cs)
    (hlower : ∀ c ∈ cs, IsLowerHexDigit c) : (toHex (pairBytes cs)).toList = cs := by
  induction cs using pairBytes.induct with
  | case1 c d cs ih =>
    have hpair := lowerHex02_pairByte (hlower c (by simp)) (hlower d (by simp))
    have hrest := ih hreads.2 fun e he => hlower e (by simp [he])
    rw [toList_lowerHex02] at hpair
    rw [pairBytes, toList_toHex_cons, hrest]
    exact congrArg (· ++ cs) hpair
  | case2 cs hshort =>
    rcases cs with - | ⟨c, - | ⟨d, cs⟩⟩
    · rfl
    · exact hreads.elim
    · exact absurd rfl (hshort c d cs)

/-- **Which texts come back**: of what `from_hex` takes, the texts in the
encoder's digits. -/
theorem toHex_eq_iff_of_fromHex {s : String} {v : List UInt8} (h : fromHex s = .ok v) :
    toHex v = s ↔ ∀ c ∈ s.toList, IsLowerHexDigit c := by
  constructor
  · rintro rfl
    exact toHex_isLower v
  · intro hlower
    obtain ⟨hreads, rfl⟩ := fromHex_eq_ok_iff.mp h
    rw [← String.toList_inj]
    exact toHex_pairBytes hreads hlower

/-! ## Keys -/

theorem hex32_toHex_eq_ok_iff {b : List UInt8} {k : Vector UInt8 32} :
    hex32 (toHex b) = .ok k ↔ k.toList = b := by
  rw [hex32, fromHex_toHex, Outcome.ok_bind, Outcome.okOr_eq_ok, tryIntoArray_eq_some_iff]

/-- A key comes back. -/
theorem hex32_toHex (k : Vector UInt8 32) : hex32 (toHex k.toList) = .ok k :=
  hex32_toHex_eq_ok_iff.mpr rfl

/-- Any other number of bytes is refused as such. -/
theorem hex32_toHex_of_length_ne {b : List UInt8} (h : b.length ≠ 32) :
    hex32 (toHex b) = .err (.generic "expected 32 bytes (64 hex chars)") := by
  have hnone : tryIntoArray 32 b = none := dif_neg h
  rw [hex32, fromHex_toHex, Outcome.ok_bind, hnone, Outcome.okOr_none]

end CtAgentAndroid
