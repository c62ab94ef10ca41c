import CtAgentAndroid.HexText

/-! # What the hex decoder accepts

Three questions about `from_hex`, and the same about `hex32`, whose argument is
a key: which strings it takes and for which bytes (`fromHex_eq_ok_iff`), which
strings it panics on (`fromHex_returns_iff`), and how far the first are the
hexadecimal ones.

It takes every hexadecimal string of even length.  It also takes a `+` in place
of the first digit of any pair, for `from_str_radix` reads a sign; these are the
only other strings it takes.  It panics where a character longer than its place
in a pair comes before any pair that is not read.
-/
namespace Rust

theorem tryIntoArray_eq_some_iff {α : Type} {n : Nat} {slice : List α} {k : Vector α n} :
    tryIntoArray n slice = some k ↔ k.toList = slice := by
  unfold tryIntoArray
  by_cases h : slice.length = n
  · rw [dif_pos h, Option.some_inj, ← Vector.toList_inj]
    exact ⟨fun hk => hk.symm, fun hk => hk.symm⟩
  · rw [dif_neg h]
    refine ⟨nofun, fun hk => absurd ?_ h⟩
    rw [← hk, Vector.length_toList]

end Rust

namespace CtAgentAndroid
open Rust

/-! ## The strings that are taken -/

/-- Every pair reads as a byte, and no character is left over. -/
def ReadsAsBytes : List Char → Prop
  | [] => True
  | [_] => False
  | c :: d :: cs => PairReads c d ∧ ReadsAsBytes cs

instance : (cs : List Char) → Decidable (ReadsAsBytes cs)
  | [] => .isTrue trivial
  | [_] => .isFalse id
  | _ :: _ :: cs =>
    have := instDecidableReadsAsBytes cs
    inferInstanceAs (Decidable (_ ∧ _))

/-- The bytes of the pairs. -/
def pairBytes : List Char → List UInt8
  | c :: d :: cs => pairByte c d :: pairBytes cs
  | _ => []

theorem ReadsAsBytes.length {cs : List Char} (h : ReadsAsBytes cs) :
    cs.length = 2 * (pairBytes cs).length := by
  match cs, h with
  | [], _ => rfl
  | c :: d :: cs, h =>
    have ih := h.2.length
    rw [pairBytes, List.length_cons, List.length_cons, List.length_cons, ih]
    omega

theorem ReadsAsBytes.utf8ByteSize {cs : List Char} (h : ReadsAsBytes cs) :
    (String.ofList cs).utf8ByteSize = cs.length := by
  match cs, h with
  | [], _ => rfl
  | c :: d :: cs, h =>
    obtain ⟨hc, hd⟩ := h.1.utf8Size
    have ih := h.2.utf8ByteSize
    rw [utf8ByteSize_ofList_cons, utf8ByteSize_ofList_cons, hc, hd, ih, List.length_cons,
      List.length_cons]
    omega

theorem scanHex_eq_ok_iff (cs : List Char) (v : List UInt8) :
    scanHex cs = .ok v ↔ ReadsAsBytes cs ∧ pairBytes cs = v := by
  induction cs using pairBytes.induct generalizing v with
  | case1 c d cs ih =>
    rw [ReadsAsBytes, pairBytes]
    by_cases h : PairReads c d
    · obtain ⟨hc, hd⟩ := h.utf8Size
      have hc2 : c.utf8Size ≠ 2 := by omega
      rw [scanHex, if_neg hc2, if_pos ⟨hc, hd⟩, if_pos h, Outcome.map_eq_ok]
      simp only [ih, h, true_and]
      constructor
      · rintro ⟨u, ⟨hcs, rfl⟩, hv⟩
        exact ⟨hcs, hv⟩
      · rintro ⟨hcs, hv⟩
        exact ⟨_, ⟨hcs, rfl⟩, hv⟩
    · have hne : scanHex (c :: d :: cs) ≠ .ok v := by
        rw [scanHex, if_neg h]
        split
        · simp
        · split <;> simp
      simp [hne, h]
  | case2 cs hshort =>
    rcases cs with - | ⟨c, - | ⟨d, cs⟩⟩
    · simp [scanHex, ReadsAsBytes, pairBytes]
    · rw [scanHex, ReadsAsBytes]
      split <;> simp
    · exact absurd rfl (hshort c d cs)

/-- **The strings `from_hex` takes**, and the bytes it takes them for. -/
theorem fromHex_eq_ok_iff {s : String} {v : List UInt8} :
    fromHex s = .ok v ↔ ReadsAsBytes s.toList ∧ pairBytes s.toList = v := by
  rw [fromHex_eq_scanHex]
  by_cases h : s.utf8ByteSize % 2 = 0
  · rw [if_neg (by omega), scanHex_eq_ok_iff]
  · rw [if_pos h]
    refine ⟨nofun, fun ⟨hs, _⟩ => absurd ?_ h⟩
    have hsize := hs.utf8ByteSize
    rw [String.ofList_toList] at hsize
    have hlength := hs.length
    omega

/-- A text of 32 pairs that read as bytes. -/
def KeyText (s : String) : Prop := ReadsAsBytes s.toList ∧ s.toList.length = 64

instance (s : String) : Decidable (KeyText s) := inferInstanceAs (Decidable (_ ∧ _))

/-- **The strings `hex32` takes for a key.** -/
theorem hex32_eq_ok_iff {s : String} {k : Vector UInt8 32} :
    hex32 s = .ok k ↔ KeyText s ∧ pairBytes s.toList = k.toList := by
  rw [hex32, Outcome.bind_eq_ok]
  simp only [Outcome.okOr_eq_ok, tryIntoArray_eq_some_iff, fromHex_eq_ok_iff]
  constructor
  · rintro ⟨v, ⟨hs, rfl⟩, hk⟩
    have hlength := hs.length
    rw [← hk, Vector.length_toList] at hlength
    exact ⟨⟨hs, hlength⟩, hk.symm⟩
  · rintro ⟨hs, hk⟩
    exact ⟨_, ⟨hs.1, rfl⟩, hk.symm⟩

theorem exists_hex32_iff {s : String} : (∃ k, hex32 s = .ok k) ↔ KeyText s := by
  refine ⟨fun ⟨_, hk⟩ => (hex32_eq_ok_iff.mp hk).1, fun hs => ?_⟩
  have hlength := hs.1.length
  have h32 : (pairBytes s.toList).length = 32 := by
    rw [hs.2] at hlength
    omega
  exact ⟨⟨(pairBytes s.toList).toArray, by simpa using h32⟩, hex32_eq_ok_iff.mpr ⟨hs, rfl⟩⟩

/-! ## The strings that panic -/

/-- After pairs that read as bytes comes a character that the next slice ends
inside. -/
def CutsCharacter : List Char → Prop
  | [] => False
  | [c] => 3 ≤ c.utf8Size
  | c :: d :: cs =>
    3 ≤ c.utf8Size ∨ c.utf8Size = 1 ∧ 2 ≤ d.utf8Size ∨ PairReads c d ∧ CutsCharacter cs

instance : (cs : List Char) → Decidable (CutsCharacter cs)
  | [] => .isFalse id
  | [c] => inferInstanceAs (Decidable (3 ≤ c.utf8Size))
  | _ :: _ :: cs =>
    have := instDecidableCutsCharacter cs
    inferInstanceAs (Decidable (_ ∨ _ ∧ _ ∨ _ ∧ _))

/-- The length check lets the string pass, and a slice cuts a character. -/
def HexCuts (s : String) : Prop := s.utf8ByteSize % 2 = 0 ∧ CutsCharacter s.toList

instance (s : String) : Decidable (HexCuts s) := inferInstanceAs (Decidable (_ ∧ _))

theorem scanHex_returns_iff {cs : List Char} (heven : (String.ofList cs).utf8ByteSize % 2 = 0) :
    (scanHex cs).Returns ↔ ¬ CutsCharacter cs := by
  match cs, heven with
  | [], _ => simp [scanHex, CutsCharacter]
  | [c], heven =>
    have hsize : c.utf8Size % 2 = 0 := by
      rw [utf8ByteSize_ofList_cons] at heven
      exact heven
    have hpos := c.utf8Size_pos
    rw [scanHex, CutsCharacter]
    by_cases hc : c.utf8Size = 2
    · simp [hc]
    · have hlong : 3 ≤ c.utf8Size := by omega
      simp [hc, hlong]
  | c :: d :: cs, heven =>
    rw [utf8ByteSize_ofList_cons, utf8ByteSize_ofList_cons] at heven
    have hcpos := c.utf8Size_pos
    have hdpos := d.utf8Size_pos
    rw [scanHex, CutsCharacter]
    by_cases hc2 : c.utf8Size = 2
    · -- a two-byte character is refused: it is no pair of two
      have hread : ¬ PairReads c d := fun h => absurd h.utf8Size.1 (by omega)
      simp [hc2, hread]
    rw [if_neg hc2]
    by_cases hone : c.utf8Size = 1 ∧ d.utf8Size = 1
    · obtain ⟨hc, hd⟩ := hone
      rw [if_pos ⟨hc, hd⟩]
      by_cases hread : PairReads c d
      · have ih : (scanHex cs).Returns ↔ ¬ CutsCharacter cs := scanHex_returns_iff (by omega)
        have hmap : ((pairByte c d :: ·) <$> scanHex cs).Returns ↔ (scanHex cs).Returns := by
          cases scanHex cs <;> simp
        rw [if_pos hread, hmap, ih]
        simp [hc, hd, hread]
      · simp [hc, hd, hread]
    · have hcut : 3 ≤ c.utf8Size ∨ c.utf8Size = 1 ∧ 2 ≤ d.utf8Size := by omega
      rw [if_neg hone]
      rcases hcut with h | h <;> simp [h]

/-- **The strings `from_hex` panics on.** -/
theorem fromHex_returns_iff (s : String) : (fromHex s).Returns ↔ ¬ HexCuts s := by
  rw [fromHex_eq_scanHex, HexCuts]
  by_cases h : s.utf8ByteSize % 2 = 0
  · have hscan : (scanHex s.toList).Returns ↔ ¬ CutsCharacter s.toList :=
      scanHex_returns_iff (by rwa [String.ofList_toList])
    rw [if_neg (by omega), hscan]
    simp [h]
  · simp [h]

/-- `hex32` adds a check, which returns. -/
theorem hex32_returns_iff (s : String) : (hex32 s).Returns ↔ ¬ HexCuts s := by
  have htail : (hex32 s).Returns ↔ (fromHex s).Returns := by
    rw [hex32]
    cases fromHex s with
    | ok v => simp [Outcome.returns_okOr]
    | err e => simp
    | panicked => simp
  rw [htail, fromHex_returns_iff]

/-! ## Hexadecimal strings -/

/-- One-byte characters only. -/
def IsAscii (s : String) : Prop := ∀ c ∈ s.toList, c.toNat < 128

instance (s : String) : Decidable (IsAscii s) := List.decidableBAll _ _

/-- Hex digits, an even number of them. -/
def IsHexText (s : String) : Prop := s.toList.length % 2 = 0 ∧ ∀ c ∈ s.toList, IsHexDigit c

instance (s : String) : Decidable (IsHexText s) :=
  have : Decidable (∀ c ∈ s.toList, IsHexDigit c) := List.decidableBAll _ _
  inferInstanceAs (Decidable (_ ∧ _))

/-- The values of the successive two-digit pairs. -/
def digitBytes : List Char → List UInt8
  | c :: d :: cs => asU8 (hexValue c * 16 + hexValue d) :: digitBytes cs
  | _ => []

/-- Without a sign, what reads as bytes is hexadecimal. -/
theorem readsAsBytes_iff_of_no_sign {cs : List Char} (h : '+' ∉ cs) :
    ReadsAsBytes cs ↔ cs.length % 2 = 0 ∧ ∀ c ∈ cs, IsHexDigit c := by
  match cs, h with
  | [], _ => simp [ReadsAsBytes]
  | [c], _ => simp [ReadsAsBytes]
  | c :: d :: cs, h =>
    simp only [List.mem_cons, not_or] at h
    obtain ⟨hc, hd, hcs⟩ := h
    have ih := readsAsBytes_iff_of_no_sign hcs
    have hlength : (c :: d :: cs).length % 2 = cs.length % 2 := by
      rw [List.length_cons, List.length_cons]
      omega
    rw [ReadsAsBytes, ih, hlength, PairReads]
    simp only [List.forall_mem_cons, Ne.symm hc, false_or]
    tauto

theorem pairBytes_eq_digitBytes {cs : List Char} (h : '+' ∉ cs) : pairBytes cs = digitBytes cs := by
  match cs, h with
  | [], _ => rfl
  | [c], _ => rfl
  | c :: d :: cs, h =>
    simp only [List.mem_cons, not_or] at h
    rw [pairBytes, digitBytes, pairByte, if_neg (Ne.symm h.1), pairBytes_eq_digitBytes h.2.2]

theorem IsHexText.no_sign {s : String} (h : IsHexText s) : '+' ∉ s.toList := fun hplus =>
  absurd (h.2 '+' hplus) (by decide)

theorem not_cutsCharacter_of_ascii {cs : List Char} (h : ∀ c ∈ cs, c.utf8Size = 1) :
    ¬ CutsCharacter cs := by
  match cs, h with
  | [], _ => exact id
  | [c], h =>
    have hc := h c (by simp)
    simp [CutsCharacter, hc]
  | c :: d :: cs, h =>
    have hc := h c (by simp)
    have hd := h d (by simp)
    have ih : ¬ CutsCharacter cs := not_cutsCharacter_of_ascii fun e he => h e (by simp [he])
    simp [CutsCharacter, hc, hd, ih]

theorem utf8Size_of_ascii {c : Char} (h : c.toNat < 128) : c.utf8Size = 1 :=
  Char.utf8Size_eq_one_iff.mpr (UInt32.le_iff_toNat_le.mpr (Nat.le_of_lt_succ h))

theorem IsAscii.fromHex_returns {s : String} (h : IsAscii s) : (fromHex s).Returns :=
  (fromHex_returns_iff s).mpr fun hcuts =>
    not_cutsCharacter_of_ascii (fun c hc => utf8Size_of_ascii (h c hc)) hcuts.2

/-- `from_hex` takes `s` as the hexadecimal text it is, and refuses it when it
is none. -/
def DecodesAsHex (s : String) : Prop :=
  (∀ v, fromHex s = .ok v ↔ IsHexText s ∧ v = digitBytes s.toList) ∧
    (¬ IsHexText s → ∃ e, fromHex s = .err e)

/-- `hex32` takes `s` as the 64 hex digits it is, and refuses it when it is not
that. -/
def DecodesAsKey (s : String) : Prop :=
  (∀ k : Vector UInt8 32,
      hex32 s = .ok k ↔
        (IsHexText s ∧ s.toList.length = 64) ∧ k.toList = digitBytes s.toList) ∧
    (¬ (IsHexText s ∧ s.toList.length = 64) → ∃ e, hex32 s = .err e)

theorem IsHexText.readsAsBytes {s : String} (h : IsHexText s) : ReadsAsBytes s.toList :=
  (readsAsBytes_iff_of_no_sign h.no_sign).mpr h

/-- What is read and is not hexadecimal has a sign. -/
theorem no_signed_text_iff {s : String} {P : Prop} :
    (ReadsAsBytes s.toList ∧ P → IsHexText s) ↔ ¬ ('+' ∈ s.toList ∧ ReadsAsBytes s.toList ∧ P) := by
  constructor
  · rintro h ⟨hplus, hreads⟩
    exact (h hreads).no_sign hplus
  · intro h hreads
    have hplus : '+' ∉ s.toList := fun hplus => h ⟨hplus, hreads⟩
    exact (readsAsBytes_iff_of_no_sign hplus).mp hreads.1

theorem decodesAsHex_iff {s : String} (hs : IsAscii s) :
    DecodesAsHex s ↔ (ReadsAsBytes s.toList → IsHexText s) := by
  constructor
  · intro h hreads
    have hok := fromHex_eq_ok_iff.mpr ⟨hreads, rfl⟩
    exact ((h.1 _).mp hok).1
  · intro h
    have hok : ∀ v, fromHex s = .ok v ↔ IsHexText s ∧ v = digitBytes s.toList := by
      intro v
      rw [fromHex_eq_ok_iff]
      constructor
      · rintro ⟨hreads, rfl⟩
        exact ⟨h hreads, pairBytes_eq_digitBytes (h hreads).no_sign⟩
      · rintro ⟨hhex, rfl⟩
        exact ⟨hhex.readsAsBytes, pairBytes_eq_digitBytes hhex.no_sign⟩
    exact ⟨hok, fun hnot => hs.fromHex_returns.exists_err fun v hv => hnot ((hok v).mp hv).1⟩

theorem decodesAsKey_iff {s : String} (hs : IsAscii s) :
    DecodesAsKey s ↔ (KeyText s → IsHexText s) := by
  constructor
  · intro h hkey
    obtain ⟨k, hk⟩ := exists_hex32_iff.mpr hkey
    exact ((h.1 k).mp hk).1.1
  · intro h
    have hok : ∀ k : Vector UInt8 32, hex32 s = .ok k ↔
        (IsHexText s ∧ s.toList.length = 64) ∧ k.toList = digitBytes s.toList := by
      intro k
      rw [hex32_eq_ok_iff]
      constructor
      · rintro ⟨hkey, hk⟩
        have hhex := h hkey
        exact ⟨⟨hhex, hkey.2⟩, hk ▸ pairBytes_eq_digitBytes hhex.no_sign⟩
      · rintro ⟨⟨hhex, hlength⟩, hk⟩
        exact ⟨⟨hhex.readsAsBytes, hlength⟩, hk ▸ pairBytes_eq_digitBytes hhex.no_sign⟩
    have hreturns : (hex32 s).Returns :=
      (hex32_returns_iff s).mpr ((fromHex_returns_iff s).mp hs.fromHex_returns)
    exact ⟨hok, fun hnot => hreturns.exists_err fun k hk => hnot ((hok k).mp hk).1⟩

/-- **The decoder accepts exactly hexadecimal, except for a sign.**  On a
one-byte text it does what it should unless the text holds a `+` and every pair
reads as a byte all the same; and then it takes for bytes what is not
hexadecimal.  For a key it takes 64 such characters. -/
theorem decodes_exactly_hex_iff (s : String) (hs : IsAscii s) :
    (DecodesAsHex s ↔ ¬ ('+' ∈ s.toList ∧ ReadsAsBytes s.toList)) ∧
      (DecodesAsKey s ↔ ¬ ('+' ∈ s.toList ∧ KeyText s)) := by
  constructor
  · rw [decodesAsHex_iff hs]
    have hsign := no_signed_text_iff (s := s) (P := True)
    rwa [and_true] at hsign
  · rw [decodesAsKey_iff hs]
    exact no_signed_text_iff

theorem decodes_exactly_hex_iff_signed :
    (DecodesAsHex "+f" ↔ ¬ ('+' ∈ "+f".toList ∧ ReadsAsBytes "+f".toList)) ∧
      (DecodesAsKey "+f" ↔ ¬ ('+' ∈ "+f".toList ∧ KeyText "+f")) :=
  decodes_exactly_hex_iff "+f" (by decide)

/-- `+f` is taken for the byte 15. -/
theorem sign_taken_for_digit :
    IsAscii "+f" ∧ fromHex "+f" = .ok [15] ∧ ¬ DecodesAsHex "+f" := by
  have hok : fromHex "+f" = .ok [15] := by decide +kernel
  exact ⟨by decide, hok, fun h => absurd ((h.1 [15]).mp hok).1 (by decide)⟩

end CtAgentAndroid
