import CtAgentAndroid.Bytes

/-! # Errors and hex strings

`CtAgentError` and the three helpers of `lib.rs` that keys, channel ids and
grants pass through: `to_hex`, `from_hex` and `hex32`.  Digits are read by
`u8::from_str_radix`, whose grammar is wider than two hex digits: it takes a
leading `+`.  `from_hex` slices its input every two bytes, and a slice that does
not start and end at character boundaries panics.
-/
namespace Rust

/-- `c.to_digit(radix)` of a byte taken as a character. -/
def toDigit (c : UInt8) (radix : Nat) : Option Nat :=
  let n := c.toNat
  let digit :=
    if 48 ≤ n ∧ n ≤ 57 then some (n - 48)
    else if 97 ≤ n ∧ n ≤ 122 then some (n - 87)
    else if 65 ≤ n ∧ n ≤ 90 then some (n - 55)
    else none
  digit.filter (· < radix)

/-- What `from_str_radix` can fail with. -/
inductive IntErrorKind where
  | empty
  | invalidDigit
  | posOverflow
  deriving DecidableEq, Repr

/-- One step of the accumulation in `u8::from_str_radix`. -/
def pushDigit (radix acc : Nat) (c : UInt8) : Except IntErrorKind Nat :=
  match toDigit c radix with
  | none => .error .invalidDigit
  | some d => if acc * radix + d ≤ 255 then .ok (acc * radix + d) else .error .posOverflow

/-- `u8::from_str_radix(src, radix)`: a leading `+` is skipped, a sign alone is
not a number, and there is no `-`. -/
def u8FromStrRadix (src : String) (radix : Nat) : Except IntErrorKind UInt8 :=
  match asBytes src with
  | [] => .error .empty
  | [43] => .error .invalidDigit
  | 43 :: digits => asU8 <$> digits.foldlM (pushDigit radix) 0
  | digits => asU8 <$> digits.foldlM (pushDigit radix) 0

/-- One digit of `format!("{b:02x}")`. -/
def lowerHexDigit (n : Nat) : Char := Char.ofNat (if n < 10 then n + 48 else n + 87)

/-- `format!("{b:02x}")`. -/
def lowerHex02 (b : UInt8) : String :=
  String.ofList [lowerHexDigit (b.toNat / 16), lowerHexDigit (b.toNat % 16)]

end Rust

namespace CtAgentAndroid
open Rust

/-- The crate's one error type. -/
inductive CtAgentError where
  | generic (message : String)
  deriving DecidableEq, Repr

/-- `to_hex`. -/
def toHex (bytes : List UInt8) : String := String.join (bytes.map lowerHex02)

/-- `from_hex`.  `collect` stops at the first pair that fails. -/
def fromHex (s : String) : Outcome CtAgentError (List UInt8) :=
  if s.utf8ByteSize % 2 ≠ 0 then .err (.generic "hex string must have an even length")
  else
    -- `(0..s.len()).step_by(2)`
    (List.range' 0 ((s.utf8ByteSize + 1) / 2) 2).mapM fun i => do
      let pair ← strSlice s i (i + 2)
      Outcome.mapErr (fun _ => .generic "invalid hex character") (u8FromStrRadix pair 16)

/-- `hex32`. -/
def hex32 (s : String) : Outcome CtAgentError (Vector UInt8 32) := do
  let v ← fromHex s
  Outcome.okOr (.generic "expected 32 bytes (64 hex chars)") (tryIntoArray 32 v)

end CtAgentAndroid
