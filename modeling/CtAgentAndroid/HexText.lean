import CtAgentAndroid.Hex

/-! # What the hex decoder reads

`from_hex` steps through its input two bytes at a time.  Here it is followed
character by character (`fromHex_eq_scanHex`): a pair of one-byte characters is
read as a byte or refused, a two-byte character is refused, and any other
character makes the slice end inside it, which panics.  The scan stops at the
first pair that is not read, so what comes after does not matter.

What `from_str_radix` reads from a pair is two hex digits, or a `+` and one
(`PairReads`).
-/
namespace CtAgentAndroid
open Rust

/-! ## Digits -/

/-- `0-9`, `a-f` and `A-F`. -/
def IsHexDigit (c : Char) : Prop :=
  ('0' ≤ c ∧ c ≤ '9') ∨ ('a' ≤ c ∧ c ≤ 'f') ∨ ('A' ≤ c ∧ c ≤ 'F')

instance (c : Char) : Decidable (IsHexDigit c) := inferInstanceAs (Decidable (_ ∨ _ ∨ _))

/-- The value of a hex digit. -/
def hexValue (c : Char) : Nat :=
  if c ≤ '9' then c.toNat - 48 else if c ≤ 'F' then c.toNat - 55 else c.toNat - 87

/-- `from_str_radix` reads the pair as a byte: two digits, or a sign and one. -/
def PairReads (c d : Char) : Prop := (c = '+' ∨ IsHexDigit c) ∧ IsHexDigit d

instance (c d : Char) : Decidable (PairReads c d) := inferInstanceAs (Decidable (_ ∧ _))

/-- The byte it reads. -/
def pairByte (c d : Char) : UInt8 :=
  asU8 ((if c = '+' then 0 else hexValue c) * 16 + hexValue d)

/-- A fact about one-byte characters is one about the first 128 code points. -/
theorem forall_ascii {P : Char → Prop} (h : ∀ n < 128, P (Char.ofNat n)) {c : Char}
    (hc : c.utf8Size = 1) : P c := by
  have hle : c.toNat < 128 := by
    have hval := UInt32.le_iff_toNat_le.mp (Char.utf8Size_eq_one_iff.mp hc)
    exact Nat.lt_succ_of_le hval
  have hp := h c.toNat hle
  rwa [Char.ofNat_toNat] at hp

theorem toDigit_ascii {c : Char} (hc : c.utf8Size = 1) :
    toDigit c.val.toUInt8 16 = if IsHexDigit c then some (hexValue c) else none :=
  forall_ascii (P := fun c => toDigit c.val.toUInt8 16 =
    if IsHexDigit c then some (hexValue c) else none) (by decide +kernel) hc

theorem utf8Size_of_isHexDigit {c : Char} (h : IsHexDigit c) : c.utf8Size = 1 := by
  have hle : c ≤ 'f' := by
    rcases h with ⟨-, h⟩ | ⟨-, h⟩ | ⟨-, h⟩
    · exact Char.le_trans h (by decide)
    · exact h
    · exact Char.le_trans h (by decide)
  rw [Char.utf8Size_eq_one_iff]
  exact UInt32.le_trans (Char.le_def.mp hle) (by decide)

theorem PairReads.utf8Size {c d : Char} (h : PairReads c d) :
    c.utf8Size = 1 ∧ d.utf8Size = 1 := by
  refine ⟨?_, utf8Size_of_isHexDigit h.2⟩
  rcases h.1 with rfl | hc
  · rfl
  · exact utf8Size_of_isHexDigit hc

theorem hexValue_lt {c : Char} (h : IsHexDigit c) : hexValue c < 16 := by
  have hsize := utf8Size_of_isHexDigit h
  revert h
  exact forall_ascii (P := fun c => IsHexDigit c → hexValue c < 16) (by decide +kernel) hsize

/-! ## One pair -/

/-- Two digits never overflow a byte. -/
theorem pushDigit_ascii {n : Nat} (hn : n < 16) {d : Char} (hd : d.utf8Size = 1) :
    pushDigit 16 n d.val.toUInt8 =
      if IsHexDigit d then .ok (n * 16 + hexValue d) else .error .invalidDigit := by
  rw [pushDigit, toDigit_ascii hd]
  by_cases h : IsHexDigit d
  · have hlt := hexValue_lt h
    rw [if_pos h, if_pos h]
    exact if_pos (by omega)
  · rw [if_neg h, if_neg h]

theorem toUInt8_eq_plus_iff {c : Char} (hc : c.utf8Size = 1) : c.val.toUInt8 = 43 ↔ c = '+' :=
  forall_ascii (P := fun c => c.val.toUInt8 = 43 ↔ c = '+') (by decide +kernel) hc

theorem u8FromStrRadix_bytes {s : String} {x y : UInt8} (h : asBytes s = [x, y]) :
    u8FromStrRadix s 16 = asU8 <$>
      if x = 43 then pushDigit 16 0 y else pushDigit 16 0 x >>= fun a => pushDigit 16 a y := by
  have hone : ∀ a, [y].foldlM (pushDigit 16) a = pushDigit 16 a y := fun a => by
    rw [List.foldlM_cons]
    exact bind_pure _
  rw [u8FromStrRadix, h]
  split
  · next hbytes => cases hbytes
  · next hbytes => cases hbytes
  · next digits hbytes =>
    obtain ⟨rfl, rfl⟩ := List.cons.inj hbytes
    rw [if_pos rfl, hone]
  · next digits hx hplus =>
    have hne : x ≠ 43 := fun hx43 => hplus [y] (by rw [hx43])
    rw [if_neg hne, List.foldlM_cons]
    simp only [hone]

/-- The error every pair that is not read ends in. -/
def invalidHexCharacter : CtAgentError := .generic "invalid hex character"

/-- `from_str_radix` on a pair, as `from_hex` uses it. -/
def readPair (pair : String) : Outcome CtAgentError UInt8 :=
  Outcome.mapErr (fun _ => invalidHexCharacter) (u8FromStrRadix pair 16)

/-- **A pair of one-byte characters** is read exactly when it is two hex digits,
or a `+` and one. -/
theorem readPair_ascii {c d : Char} (hc : c.utf8Size = 1) (hd : d.utf8Size = 1) :
    readPair (String.ofList [c, d]) =
      if PairReads c d then .ok (pairByte c d) else .err invalidHexCharacter := by
  have hbytes : asBytes (String.ofList [c, d]) = [c.val.toUInt8, d.val.toUInt8] := by
    rw [asBytes_ofList]
    simp [String.utf8EncodeChar_eq_singleton hc, String.utf8EncodeChar_eq_singleton hd]
  have hfirst := pushDigit_ascii (n := 0) (by decide) hc
  have hsigned := pushDigit_ascii (n := 0) (by decide) hd
  rw [Nat.zero_mul, Nat.zero_add] at hfirst hsigned
  rw [readPair, u8FromStrRadix_bytes hbytes, hfirst, hsigned]
  simp only [toUInt8_eq_plus_iff hc]
  by_cases hplus : c = '+'
  · by_cases hdd : IsHexDigit d
    · simp [hplus, hdd, PairReads, pairByte]
    · simp [hplus, hdd, PairReads]
  by_cases hcd : IsHexDigit c
  · rw [if_neg hplus, if_pos hcd]
    -- the second digit is pushed onto the value of the first
    show Outcome.mapErr _ (asU8 <$> pushDigit 16 (hexValue c) d.val.toUInt8) = _
    rw [pushDigit_ascii (hexValue_lt hcd) hd]
    by_cases hdd : IsHexDigit d
    · simp [hplus, hcd, hdd, PairReads, pairByte]
    · simp [hcd, hdd, PairReads]
  · rw [if_neg hplus, if_neg hcd, if_neg fun h => h.1.elim hplus hcd]
    rfl

theorem toDigit_of_large {x : UInt8} (h : 128 ≤ x.toNat) (radix : Nat) :
    toDigit x radix = none := by
  have h09 : ¬ (48 ≤ x.toNat ∧ x.toNat ≤ 57) := by omega
  have haz : ¬ (97 ≤ x.toNat ∧ x.toNat ≤ 122) := by omega
  have hAZ : ¬ (65 ≤ x.toNat ∧ x.toNat ≤ 90) := by omega
  simp [toDigit, h09, haz, hAZ]

/-- A two-byte character is no digit. -/
theorem readPair_two_byte {c : Char} (hc : c.utf8Size = 2) :
    readPair (String.ofList [c]) = .err invalidHexCharacter := by
  have hbytes : asBytes (String.ofList [c]) =
      [(c.val >>> 6).toUInt8 &&& 0x1f ||| 0xc0, c.val.toUInt8 &&& 0x3f ||| 0x80] := by
    rw [asBytes_ofList, List.flatMap_singleton, String.utf8EncodeChar_eq_cons_cons hc]
  -- the first byte of a longer encoding has its high bit set
  have hx : 128 ≤ ((c.val >>> 6).toUInt8 &&& 0x1f ||| 0xc0).toNat := by
    rw [UInt8.toNat_or]
    exact Nat.le_trans (by decide) Nat.right_le_or
  have hne : (c.val >>> 6).toUInt8 &&& 0x1f ||| 0xc0 ≠ 43 := by
    intro h
    rw [h] at hx
    exact absurd hx (by decide)
  rw [readPair, u8FromStrRadix_bytes hbytes, if_neg hne, pushDigit, toDigit_of_large hx]
  rfl

/-! ## The scan -/

/-- A pair starts the text and can be cut off it, and what is left. -/
theorem utf8ByteSize_eq_two {t : String} (h : t.utf8ByteSize = 2) :
    (∃ c, t = String.ofList [c] ∧ c.utf8Size = 2) ∨
      ∃ c d, t = String.ofList [c, d] ∧ c.utf8Size = 1 ∧ d.utf8Size = 1 := by
  obtain ⟨cs, rfl⟩ := t.exists_eq_ofList
  match cs, h with
  | [], h => cases h
  | [c], h =>
    rw [utf8ByteSize_ofList_cons] at h
    exact Or.inl ⟨c, rfl, h⟩
  | c :: d :: cs, h =>
    rw [utf8ByteSize_ofList_cons, utf8ByteSize_ofList_cons] at h
    have hc := c.utf8Size_pos
    have hd := d.utf8Size_pos
    have hnil : cs = [] := by
      cases cs with
      | nil => rfl
      | cons e es =>
        rw [utf8ByteSize_ofList_cons] at h
        have he := e.utf8Size_pos
        omega
    subst hnil
    exact Or.inr ⟨c, d, rfl, by omega, by omega⟩

/-- The body of the loop of `from_hex`. -/
def hexPair (s : String) (i : Nat) : Outcome CtAgentError UInt8 :=
  strSlice s i (i + 2) >>= readPair

/-- `n` rounds of the loop, from position `i`. -/
def hexPairs (s : String) (i n : Nat) : Outcome CtAgentError (List UInt8) :=
  (List.range' i n 2).mapM (hexPair s)

theorem fromHex_of_even {s : String} (h : s.utf8ByteSize % 2 = 0) :
    fromHex s = hexPairs s 0 (s.utf8ByteSize / 2) := by
  have hrounds : (s.utf8ByteSize + 1) / 2 = s.utf8ByteSize / 2 := by omega
  rw [fromHex, if_neg (by omega), hrounds]
  rfl

theorem hexPairs_succ (s : String) (i n : Nat) :
    hexPairs s i (n + 1) = do
      let v ← hexPair s i
      let vs ← hexPairs s (i + 2) n
      return v :: vs := by
  rw [hexPairs, List.range'_succ, List.mapM_cons]
  rfl

/-- Behind a prefix, the loop runs as on the rest. -/
theorem hexPairs_append (p q : String) (i n : Nat) :
    hexPairs (p ++ q) (p.utf8ByteSize + i) n = hexPairs q i n := by
  induction n generalizing i with
  | zero => rfl
  | succ n ih =>
    have hpair : hexPair (p ++ q) (p.utf8ByteSize + i) = hexPair q i :=
      congrArg (· >>= readPair) (strSlice_append p q i (i + 2))
    rw [hexPairs_succ, hexPairs_succ, hpair, Nat.add_assoc, ih]

/-- The decoder, character by character. -/
def scanHex : List Char → Outcome CtAgentError (List UInt8)
  | [] => .ok []
  | [c] => if c.utf8Size = 2 then .err invalidHexCharacter else .panicked
  | c :: d :: cs =>
    if c.utf8Size = 2 then .err invalidHexCharacter
    else if c.utf8Size = 1 ∧ d.utf8Size = 1 then
      if PairReads c d then (pairByte c d :: ·) <$> scanHex cs else .err invalidHexCharacter
    else .panicked

/-- A pair cut off at its end is what the loop reads first. -/
theorem hexPair_prefix {t : String} (ht : t.utf8ByteSize = 2) (r : String) :
    hexPair (t ++ r) 0 = readPair t := by
  have hslice := strSlice_prefix (ε := CtAgentError) t r
  rw [ht] at hslice
  rw [hexPair, Nat.zero_add, hslice, Outcome.ok_bind]

/-- With a pair cut off, the loop goes on with the rest. -/
theorem hexPairs_append_pair {t : String} (ht : t.utf8ByteSize = 2) (r : String) (n : Nat) :
    hexPairs (t ++ r) 0 (n + 1) = do
      let v ← readPair t
      let vs ← hexPairs r 0 n
      return v :: vs := by
  have hrest := hexPairs_append t r 0 n
  rw [ht] at hrest
  rw [hexPairs_succ, hexPair_prefix ht, Nat.add_comm 0 2, hrest]

/-- And so does the scan. -/
theorem scanHex_append_pair {t : String} (ht : t.utf8ByteSize = 2) (cs : List Char) :
    scanHex (t.toList ++ cs) = do
      let v ← readPair t
      let vs ← scanHex cs
      return v :: vs := by
  rcases utf8ByteSize_eq_two ht with ⟨c, rfl, hc⟩ | ⟨c, d, rfl, hc, hd⟩
  · rw [readPair_two_byte hc, Outcome.err_bind, String.toList_ofList]
    cases cs <;> simp [scanHex, hc]
  · rw [readPair_ascii hc hd, String.toList_ofList]
    by_cases h : PairReads c d
    · simp [scanHex, hc, hd, h]
      rfl
    · simp [scanHex, hc, hd, h]

/-- Where no pair can be cut off, the scan panics. -/
theorem scanHex_of_not_boundary {cs : List Char}
    (h : ¬ isCharBoundary (String.ofList cs) 2 = true) (hcs : cs ≠ []) :
    scanHex cs = .panicked := by
  match cs, hcs with
  | c :: cs, _ =>
    have hc : c.utf8Size ≠ 2 := by
      intro hc
      refine h (isCharBoundary_iff_append.mpr ⟨String.ofList [c], String.ofList cs, ?_, ?_⟩)
      · rw [← String.ofList_append]
        rfl
      · rw [utf8ByteSize_ofList_cons, hc]
        rfl
    cases cs with
    | nil => rw [scanHex, if_neg hc]
    | cons d cs =>
      have hcd : ¬ (c.utf8Size = 1 ∧ d.utf8Size = 1) := by
        rintro ⟨hc, hd⟩
        refine h (isCharBoundary_iff_append.mpr
          ⟨String.ofList [c, d], String.ofList cs, ?_, ?_⟩)
        · rw [← String.ofList_append]
          rfl
        · rw [utf8ByteSize_ofList_cons, utf8ByteSize_ofList_cons, hc, hd]
          rfl
      rw [scanHex, if_neg hc, if_neg hcd]

/-- **The loop follows the characters.** -/
theorem hexPairs_eq_scanHex (n : Nat) (cs : List Char)
    (hn : (String.ofList cs).utf8ByteSize = 2 * n) :
    hexPairs (String.ofList cs) 0 n = scanHex cs := by
  induction n generalizing cs with
  | zero =>
    cases cs with
    | nil => rfl
    | cons c cs =>
      rw [utf8ByteSize_ofList_cons] at hn
      have hc := c.utf8Size_pos
      omega
  | succ n ih =>
    by_cases hb : isCharBoundary (String.ofList cs) 2 = true
    · obtain ⟨t, r, hcs, ht⟩ := isCharBoundary_iff_append.mp hb
      obtain ⟨rs, rfl⟩ := r.exists_eq_ofList
      have hrest : (String.ofList rs).utf8ByteSize = 2 * n := by
        have hsize := congrArg String.utf8ByteSize hcs
        rw [String.utf8ByteSize_append, hn, ht] at hsize
        omega
      have hlist : cs = t.toList ++ rs := by
        have hlists := congrArg String.toList hcs
        rwa [String.toList_append, String.toList_ofList, String.toList_ofList] at hlists
      rw [hcs, hexPairs_append_pair ht, ih rs hrest, hlist, scanHex_append_pair ht]
    · have hcut : hexPair (String.ofList cs) 0 = .panicked := by
        rw [hexPair, strSlice_of_not_boundary hb, Outcome.panicked_bind]
      rw [hexPairs_succ, hcut, Outcome.panicked_bind, scanHex_of_not_boundary hb ?_]
      rintro rfl
      rw [Nat.mul_add] at hn
      cases hn

/-- **`from_hex` is the scan of its characters**, after the check of the
length. -/
theorem fromHex_eq_scanHex (s : String) :
    fromHex s =
      if s.utf8ByteSize % 2 ≠ 0 then .err (.generic "hex string must have an even length")
      else scanHex s.toList := by
  by_cases h : s.utf8ByteSize % 2 = 0
  · obtain ⟨cs, rfl⟩ := s.exists_eq_ofList
    rw [fromHex_of_even h, if_neg (by omega), String.toList_ofList]
    exact hexPairs_eq_scanHex _ cs (by omega)
  · rw [fromHex, if_pos h, if_pos h]

end CtAgentAndroid
