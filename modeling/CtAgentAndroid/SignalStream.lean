import Mathlib.Data.UInt
import CtAgentAndroid.IncrementalReader
import CtAgentAndroid.SignalCodec

/-! # The signal format is self-delimiting

`take_n` is the only helper that finds its input too short, and every conversion
behind it fails for another reason; so the decoder is an incremental reader.  Its
"truncated signal message" is the one verdict that more bytes can change
(`truncated_iff`): a decoder fed from a stream may wait for more on that error, and
on no other.

A message cut off anywhere gets that error (`cut_off_truncated`), and messages
written one after the other can be told apart (`messages_in_a_row`).
-/
namespace CtAgentAndroid
open Rust PrefixCode SignalMessage

/-- What `take_n` answers when there is too little left. -/
def truncated : CtAgentError := .generic "truncated signal message"

/-! ## The helpers -/

theorem takeN_incremental (n : Nat) : Incremental (takeN n) truncated where
  keeps_ok {input l rest} more h := by
    rw [takeN_run] at h ⊢
    split at h
    · cases h
    · next hlen =>
      obtain ⟨rfl, rfl⟩ := Prod.mk.inj (Outcome.ok.inj h)
      have hmore : ¬ (input ++ more).length < n := by
        rw [List.length_append]
        omega
      rw [if_neg hmore, List.take_append_of_le_length (by omega),
        List.drop_append_of_le_length (by omega)]
  keeps_err {input e} more he h := by
    rw [takeN_run] at h
    split at h
    · exact absurd (Outcome.err.inj h).symm he
    · cases h
  hungry {input} _ := by
    refine ⟨List.replicate n 0, ?_⟩
    have hlen : ¬ (input ++ List.replicate n 0).length < n := by
      rw [List.length_append, List.length_replicate]
      omega
    rw [takeN_run, if_neg hlen]
    nofun

theorem takeU8_incremental : Incremental takeU8 truncated := by
  refine (takeN_incremental 1).convert fun head => ?_
  rw [index]
  cases head[0]? <;> nofun

theorem takeU16_incremental : Incremental takeU16 truncated := by
  refine (takeN_incremental 2).convert fun head => ?_
  cases tryIntoArray 2 head <;> nofun

theorem takeText_incremental (len : Nat) : Incremental (takeText len) truncated := by
  refine (takeN_incremental len).convert fun bytes => ?_
  cases fromUtf8 bytes with
  | none => exact fun h => absurd (CtAgentError.generic.inj (Outcome.err.inj h)) (by decide)
  | some s => nofun

theorem takeU16Str_incremental : Incremental takeU16Str truncated :=
  takeU16_incremental.bind fun len => takeText_incremental len.toNat

theorem takeU8Str_incremental : Incremental takeU8Str truncated :=
  takeU8_incremental.bind fun len => takeText_incremental len.toNat

theorem takeIceCandidate_incremental : Incremental takeIceCandidate truncated :=
  takeU16Str_incremental.bind fun _ => takeU8Str_incremental.bind fun _ =>
    takeU16_incremental.bind fun _ => .pure _ _

/-- The two errors differ in their first letter. -/
theorem unknownType_ne_truncated (kind : UInt8) :
    CtAgentError.generic s!"unknown signal message type {kind}" ≠ truncated := by
  intro h
  have hfirst := congrArg (fun s : String => s.toList.head?) (CtAgentError.generic.inj h)
  have hu : (toString "unknown signal message type ").toList.head? = some 'u' := by decide
  rw [String.toList_append, List.head?_append, hu, Option.some_or] at hfirst
  exact absurd hfirst (by decide)

theorem takeBody_incremental (kind : UInt8) : Incremental (takeBody kind) truncated := by
  unfold takeBody
  split
  · exact takeU16Str_incremental.map _
  split
  · exact takeU16Str_incremental.map _
  split
  · exact takeIceCandidate_incremental
  split
  · exact .pure _ _
  · exact .fail (unknownType_ne_truncated kind)

theorem takeMessage_incremental : Incremental (takeU8 >>= takeBody) truncated :=
  takeU8_incremental.bind takeBody_incremental

/-! ## The decoder -/

/-- **Truncated is what more bytes can change.** -/
theorem truncated_iff (b : List UInt8) :
    decodeInner b = .err truncated ↔ ∃ more, decodeInner (b ++ more) ≠ decodeInner b :=
  takeMessage_incremental.decode_eq_short_iff (takeMessage_exact.decode_returns b)

/-- **A message cut off anywhere is truncated**, and nothing else. -/
theorem cut_off_truncated {m : SignalMessage} (hm : m.Representable) {n : Nat}
    (hn : n < m.encodeInner.length) : decodeInner (m.encodeInner.take n) = .err truncated := by
  refine takeMessage_exact.decode_cut_eq_short takeMessage_incremental hm (List.take_prefix n _) ?_
  intro heq
  have := congrArg List.length heq
  rw [List.length_take] at this
  omega

theorem cut_off_truncated_offer :
    (4 : Nat) < (offer "v=0").encodeInner.length ∧
      decodeInner ((offer "v=0").encodeInner.take 4) = .err truncated :=
  ⟨by decide, cut_off_truncated (m := offer "v=0") (Nat.le_of_ble_eq_true rfl) (by decide)⟩

/-- **Messages in a row** can be told apart: one row starts another on the wire
exactly when it starts it as a row of messages. -/
theorem messages_in_a_row {ms ms' : List SignalMessage} (hms : ∀ m ∈ ms, m.Representable)
    (hms' : ∀ m ∈ ms', m.Representable) :
    ms.flatMap encodeInner <+: ms'.flatMap encodeInner ↔ ms <+: ms' := by
  refine takeMessage_exact.flatMap_prefix_iff (fun m _ => ?_) hms hms'
  rw [encodeInner_eq]
  exact List.cons_ne_nil _ _

/-- An offer and its candidate, and the same before a hang-up. -/
theorem messages_in_a_row_offer :
    let row := [offer "v=0", iceCandidate "candidate:1" (some "audio") (some 0)]
    row.flatMap encodeInner <+: (row ++ [bye]).flatMap encodeInner ↔ row <+: row ++ [bye] :=
  messages_in_a_row (by decide) (by decide)

end CtAgentAndroid
