import CtAgentAndroid.Outcome

/-! # Integers and text as bytes

Rust's `as u8` and `as u16` keep the low bits of a length; `to_be_bytes` and
`from_be_bytes` move a `u16` to two bytes and back; a `String` is its UTF-8
bytes, and `String::from_utf8` accepts exactly the bytes of some string.

`fromUtf8_slice_iff` is what slicing text at byte positions comes to: a range of
a string's bytes is itself text exactly when it is empty or both of its ends are
character boundaries.
-/
namespace Rust

/-! ## Casts and big-endian bytes -/

/-- `n as u16`. -/
def asU16 (n : Nat) : UInt16 := UInt16.ofNat n

/-- `n as u8`. -/
def asU8 (n : Nat) : UInt8 := UInt8.ofNat n

/-- `v.to_be_bytes()`. -/
def toBeBytes (v : UInt16) : List UInt8 := [asU8 (v.toNat / 256), asU8 (v.toNat % 256)]

/-- `u16::from_be_bytes(bytes)`. -/
def fromBeBytes (bytes : Vector UInt8 2) : UInt16 :=
  asU16 (bytes[0].toNat * 256 + bytes[1].toNat)

@[simp] theorem asU16_toNat (n : Nat) : (asU16 n).toNat = n % 65536 := by
  simp [asU16]

@[simp] theorem asU8_toNat (n : Nat) : (asU8 n).toNat = n % 256 := by
  simp [asU8]

theorem asU16_toNat_of_le {n : Nat} (h : n ≤ 65535) : (asU16 n).toNat = n := by
  rw [asU16_toNat]
  omega

theorem asU8_toNat_of_le {n : Nat} (h : n ≤ 255) : (asU8 n).toNat = n := by
  rw [asU8_toNat]
  omega

theorem asU16_eq_iff {v : UInt16} {n : Nat} (h : n ≤ 65535) : asU16 n = v ↔ n = v.toNat := by
  rw [← UInt16.toNat_inj, asU16_toNat_of_le h]

theorem asU8_eq_iff {v : UInt8} {n : Nat} (h : n ≤ 255) : asU8 n = v ↔ n = v.toNat := by
  rw [← UInt8.toNat_inj, asU8_toNat_of_le h]

@[simp] theorem toBeBytes_length (v : UInt16) : (toBeBytes v).length = 2 := rfl

theorem fromBeBytes_pair (a b : UInt8) :
    fromBeBytes ⟨#[a, b], rfl⟩ = asU16 (a.toNat * 256 + b.toNat) := rfl

theorem fromBeBytes_toBeBytes (v : UInt16) :
    fromBeBytes ⟨#[asU8 (v.toNat / 256), asU8 (v.toNat % 256)], rfl⟩ = v := by
  have hv : v.toNat < 65536 := v.toNat_lt
  rw [fromBeBytes_pair, asU16_eq_iff]
  · rw [asU8_toNat_of_le (by omega), asU8_toNat_of_le (by omega)]
    omega
  · rw [asU8_toNat_of_le (by omega), asU8_toNat_of_le (by omega)]
    omega

theorem toBeBytes_fromBeBytes (a b : UInt8) : toBeBytes (fromBeBytes ⟨#[a, b], rfl⟩) = [a, b] := by
  have ha : a.toNat < 256 := a.toNat_lt
  have hb : b.toNat < 256 := b.toNat_lt
  have hab : (asU16 (a.toNat * 256 + b.toNat)).toNat = a.toNat * 256 + b.toNat :=
    asU16_toNat_of_le (by omega)
  rw [fromBeBytes_pair, toBeBytes, hab,
    (asU8_eq_iff (v := a) (by omega)).mpr (by omega),
    (asU8_eq_iff (v := b) (by omega)).mpr (by omega)]

theorem toBeBytes_injective {v w : UInt16} (h : toBeBytes v = toBeBytes w) : v = w := by
  rw [toBeBytes, toBeBytes, List.cons.injEq, List.cons.injEq] at h
  rw [← fromBeBytes_toBeBytes v, ← fromBeBytes_toBeBytes w]
  simp only [h.1, h.2.1]

/-! ## Text -/

/-- `s.as_bytes()`. -/
def asBytes (s : String) : List UInt8 := s.toByteArray.data.toList

/-- `String::from_utf8(bytes).ok()`. -/
def fromUtf8 (bytes : List UInt8) : Option String := String.fromUTF8? bytes.toByteArray

/-- `s.is_char_boundary(i)`. -/
def isCharBoundary (s : String) (i : Nat) : Bool := String.Pos.Raw.isValid s ⟨i⟩

/-- `&s[lo..hi]`: panics unless both ends are character boundaries, in order. -/
def strSlice {ε : Type} (s : String) (lo hi : Nat) : Outcome ε String :=
  if lo ≤ hi ∧ isCharBoundary s lo = true ∧ isCharBoundary s hi = true then
    Outcome.unwrap (fromUtf8 (((asBytes s).drop lo).take (hi - lo)))
  else .panicked

/-- `s.len()` counts bytes. -/
@[simp] theorem asBytes_length (s : String) : (asBytes s).length = s.utf8ByteSize := by
  rw [asBytes, Array.length_toList, ← String.size_toByteArray]
  rfl

@[simp] theorem toByteArray_asBytes (s : String) : (asBytes s).toByteArray = s.toByteArray := by
  apply ByteArray.ext
  rw [List.data_toByteArray, asBytes]

@[simp] theorem asBytes_inj {s t : String} : asBytes s = asBytes t ↔ s = t := by
  constructor
  · intro h
    apply String.toByteArray_inj.mp
    rw [← toByteArray_asBytes s, ← toByteArray_asBytes t, h]
  · rintro rfl
    rfl

theorem asBytes_append (s t : String) : asBytes (s ++ t) = asBytes s ++ asBytes t := by
  rw [asBytes, String.toByteArray_append, ByteArray.data_append, Array.toList_append]
  rfl

theorem asBytes_ofList (cs : List Char) :
    asBytes (String.ofList cs) = cs.flatMap String.utf8EncodeChar := by
  rw [asBytes, String.toByteArray_ofList, List.utf8Encode, List.data_toByteArray]

theorem utf8ByteSize_ofList_cons (c : Char) (cs : List Char) :
    (String.ofList (c :: cs)).utf8ByteSize = c.utf8Size + (String.ofList cs).utf8ByteSize := by
  rw [← asBytes_length, ← asBytes_length, asBytes_ofList, asBytes_ofList, List.flatMap_cons,
    List.length_append, String.length_utf8EncodeChar]

/-- `from_utf8` accepts the bytes of a string, and returns that string. -/
theorem fromUtf8_eq_some_iff {bytes : List UInt8} {s : String} :
    fromUtf8 bytes = some s ↔ bytes = asBytes s := by
  rw [← List.toByteArray_inj, toByteArray_asBytes, fromUtf8, String.fromUTF8?]
  split
  · rw [Option.some.injEq, ← String.toByteArray_inj]
    rfl
  · next h =>
    constructor
    · intro hs
      cases hs
    · intro hs
      rw [hs] at h
      exact absurd s.isValidUTF8 h

theorem isValidUTF8_iff {bytes : List UInt8} :
    bytes.toByteArray.IsValidUTF8 ↔ ∃ s, bytes = asBytes s := by
  constructor
  · intro h
    refine ⟨⟨_, h⟩, List.toByteArray_inj.mp ?_⟩
    rw [toByteArray_asBytes]
  · rintro ⟨s, rfl⟩
    rw [toByteArray_asBytes]
    exact s.isValidUTF8

/-- A range of a string's bytes, as a byte array. -/
theorem toByteArray_slice (s : String) (lo hi : Nat) :
    (((asBytes s).drop lo).take (hi - lo)).toByteArray = s.toByteArray.extract lo hi := by
  apply ByteArray.ext
  rw [List.data_toByteArray, ByteArray.data_extract, asBytes, ← Array.toList_inj,
    Array.toList_extract]

theorem isCharBoundary_iff {s : String} {i : Nat} :
    isCharBoundary s i = true ↔ (⟨i⟩ : String.Pos.Raw).IsValid s :=
  String.Pos.Raw.isValid_eq_true_iff

@[simp] theorem isCharBoundary_zero (s : String) : isCharBoundary s 0 = true :=
  isCharBoundary_iff.mpr String.Pos.Raw.isValid_zero

/-- **Slicing text.**  A range of a string's bytes is the bytes of a string
exactly when it is empty or both of its ends are character boundaries. -/
theorem fromUtf8_slice_iff {s : String} {lo hi : Nat} (hle : lo ≤ hi)
    (hlen : hi ≤ s.utf8ByteSize) :
    (∃ t, ((asBytes s).drop lo).take (hi - lo) = asBytes t) ↔
      lo = hi ∨ (isCharBoundary s lo = true ∧ isCharBoundary s hi = true) := by
  have hcore := String.Pos.Raw.isValidUTF8_extract_iff (s := s) ⟨lo⟩ ⟨hi⟩ hle hlen
  rw [String.Pos.Raw.mk.injEq] at hcore
  rw [← isValidUTF8_iff, toByteArray_slice, isCharBoundary_iff, isCharBoundary_iff]
  exact hcore

/-- The first `n` bytes of a string are text exactly when `n` is a character
boundary. -/
theorem fromUtf8_take_iff {s : String} {n : Nat} (hn : n ≤ s.utf8ByteSize) :
    (∃ t, (asBytes s).take n = asBytes t) ↔ isCharBoundary s n = true := by
  have h := fromUtf8_slice_iff (Nat.zero_le n) hn
  rw [List.drop_zero, Nat.sub_zero, isCharBoundary_zero] at h
  rw [h]
  constructor
  · rintro (rfl | ⟨-, h⟩)
    · exact isCharBoundary_zero s
    · exact h
  · exact fun h => Or.inr ⟨rfl, h⟩

/-- The boundaries of a string are the ends of its prefixes. -/
theorem isCharBoundary_iff_append {s : String} {i : Nat} :
    isCharBoundary s i = true ↔ ∃ t r, s = t ++ r ∧ t.utf8ByteSize = i := by
  rw [isCharBoundary_iff, String.Pos.Raw.isValid_iff_exists_append]
  constructor
  · rintro ⟨t, r, hs, hi⟩
    exact ⟨t, r, hs, (congrArg String.Pos.Raw.byteIdx hi).symm⟩
  · rintro ⟨t, r, hs, rfl⟩
    exact ⟨t, r, hs, rfl⟩

/-- Behind a prefix, the boundaries are those of the rest. -/
theorem isCharBoundary_append (p q : String) (i : Nat) :
    isCharBoundary (p ++ q) (p.utf8ByteSize + i) = isCharBoundary q i := by
  rw [Bool.eq_iff_iff, isCharBoundary_iff, isCharBoundary_iff, String.Pos.Raw.isValid_append]
  have hsub : (⟨p.utf8ByteSize + i⟩ : String.Pos.Raw) - p = ⟨i⟩ := by
    apply String.Pos.Raw.ext
    rw [String.Pos.Raw.byteIdx_sub_string]
    exact Nat.add_sub_cancel_left _ _
  have hend : p.rawEndPos ≤ (⟨p.utf8ByteSize + i⟩ : String.Pos.Raw) := by
    rw [String.Pos.Raw.le_iff]
    exact Nat.le_add_right _ _
  rw [hsub]
  constructor
  · rintro (h | ⟨-, h⟩)
    · -- inside the prefix only its end is left, which is where the rest starts
      have hle := String.Pos.Raw.le_iff.mp h.le_rawEndPos
      have hzero : i = 0 := by
        have : p.utf8ByteSize + i ≤ p.utf8ByteSize := hle
        omega
      rw [hzero]
      exact String.Pos.Raw.isValid_zero
    · exact h
  · exact fun h => Or.inr ⟨hend, h⟩

/-- **Slicing behind a prefix** is slicing the rest. -/
theorem strSlice_append {ε : Type} (p q : String) (lo hi : Nat) :
    (strSlice (p ++ q) (p.utf8ByteSize + lo) (p.utf8ByteSize + hi) : Outcome ε String) =
      strSlice q lo hi := by
  have hdrop : (asBytes (p ++ q)).drop (p.utf8ByteSize + lo) = (asBytes q).drop lo := by
    rw [asBytes_append, ← asBytes_length p, List.drop_append]
    simp
  have hle : p.utf8ByteSize + lo ≤ p.utf8ByteSize + hi ↔ lo ≤ hi := by omega
  rw [strSlice, strSlice, isCharBoundary_append, isCharBoundary_append, hdrop,
    Nat.add_sub_add_left]
  simp only [hle]

/-- A prefix is the slice up to its end. -/
theorem strSlice_prefix {ε : Type} (t r : String) :
    (strSlice (t ++ r) 0 t.utf8ByteSize : Outcome ε String) = .ok t := by
  have hend : isCharBoundary (t ++ r) t.utf8ByteSize = true :=
    isCharBoundary_iff_append.mpr ⟨t, r, rfl, rfl⟩
  have htake : ((asBytes (t ++ r)).drop 0).take (t.utf8ByteSize - 0) = asBytes t := by
    rw [List.drop_zero, Nat.sub_zero, asBytes_append, List.take_left' (asBytes_length t)]
  rw [strSlice, if_pos ⟨Nat.zero_le _, isCharBoundary_zero _, hend⟩, htake,
    fromUtf8_eq_some_iff.mpr rfl, Outcome.unwrap_some]

/-- A slice that ends inside a character panics. -/
theorem strSlice_of_not_boundary {ε : Type} {s : String} {lo hi : Nat}
    (h : ¬ isCharBoundary s hi = true) : (strSlice s lo hi : Outcome ε String) = .panicked :=
  if_neg fun hslice => h hslice.2.2

end Rust
