import Mathlib.Algebra.Group.Nat.Defs
import CtAgentAndroid.NoiseChannel

/-! # A Noise library with counters and tags, and no cryptography

Sessions whose messages carry, for a tag, the side that wrote them and the number
of the message.  Like the real ones they are 16 bytes longer than their payload,
are read in the order they were written, and end with the counter.  It keeps the
promise `Snow.SealsWith`, so a statement about sessions can be tried on it.
-/
namespace CtAgentAndroid
open Rust SealedChannel

/-- A counter as eight bytes. -/
def counterBytes (n : Nat) : List UInt8 := (List.range 8).map fun i => UInt8.ofNat (n / 256 ^ i)

theorem mod_eq_of_bytes_eq {m n : Nat} (k : Nat)
    (h : ∀ i < k, m / 256 ^ i % 256 = n / 256 ^ i % 256) : m % 256 ^ k = n % 256 ^ k := by
  induction k with
  | zero => rw [pow_zero, Nat.mod_one, Nat.mod_one]
  | succ k ih =>
    have hlow := ih fun i hi => h i (Nat.lt_succ_of_lt hi)
    have hhigh := h k (Nat.lt_succ_self k)
    rw [Nat.mod_pow_succ, Nat.mod_pow_succ, hlow, hhigh]

theorem counterBytes_inj {m n : Nat} (hm : m < 2 ^ 64) (hn : n < 2 ^ 64)
    (h : counterBytes m = counterBytes n) : m = n := by
  have hbytes : ∀ i < 8, m / 256 ^ i % 256 = n / 256 ^ i % 256 := by
    intro i hi
    have := congrArg UInt8.toNat (List.map_inj_left.mp h i (List.mem_range.mpr hi))
    rwa [UInt8.toNat_ofNat', UInt8.toNat_ofNat'] at this
  have hmod : m % 2 ^ 64 = n % 2 ^ 64 := mod_eq_of_bytes_eq 8 hbytes
  rwa [Nat.mod_eq_of_lt hm, Nat.mod_eq_of_lt hn] at hmod

/-- The tag of a side's message: the side and the counter. -/
def countedTag (x : Side) (n : Nat) : List UInt8 :=
  (if x = .initiator then 1 else 2) :: counterBytes n ++ List.replicate 7 0

theorem countedTag_length (x : Side) (n : Nat) : (countedTag x n).length = TAG_LENGTH := rfl

theorem countedTag_inj {x y : Side} {m n : Nat} (hm : m < 2 ^ 64) (hn : n < 2 ^ 64)
    (h : countedTag x m = countedTag y n) : x = y ∧ m = n := by
  rw [countedTag, countedTag, List.cons_append, List.cons_append] at h
  obtain ⟨hside, htail⟩ := List.cons.inj h
  refine ⟨?_, counterBytes_inj hm hn (List.append_cancel_right htail)⟩
  cases x <;> cases y <;> first | rfl | exact absurd hside (by decide)

/-- Messages of one side, numbered. -/
def countedSeal (x : Side) (n : Nat) (payload : List UInt8) : Option (List UInt8) :=
  if n < 2 ^ 64 - 1 ∧ payload.length + TAG_LENGTH ≤ NOISE_MAX_MESSAGE then
    some (countedTag x n ++ payload)
  else none

/-- A message is read where its tag is the one expected. -/
def countedOpen (x : Side) (n : Nat) (msg : List UInt8) : Option (List UInt8) :=
  if n < 2 ^ 64 - 1 ∧ msg.length ≤ NOISE_MAX_MESSAGE ∧ msg.take TAG_LENGTH = countedTag x n then
    some (msg.drop TAG_LENGTH)
  else none

theorem countedSeal_eq_some_iff {x : Side} {n : Nat} {p c : List UInt8} :
    countedSeal x n p = some c ↔ n < 2 ^ 64 - 1 ∧ p.length + TAG_LENGTH ≤ NOISE_MAX_MESSAGE ∧
      countedTag x n ++ p = c := by
  rw [countedSeal, Option.ite_none_right_eq_some, Option.some.injEq, and_assoc]

theorem countedSeal_inj {x y : Side} {m n : Nat} {p q c : List UInt8}
    (hp : countedSeal x m p = some c) (hq : countedSeal y n q = some c) : x = y ∧ m = n := by
  obtain ⟨hm, -, hp⟩ := countedSeal_eq_some_iff.mp hp
  obtain ⟨hn, -, hq⟩ := countedSeal_eq_some_iff.mp hq
  have htag := (List.append_inj (hp.trans hq.symm) rfl).1
  exact countedTag_inj (by omega) (by omega) htag

theorem countedOpen_iff (x : Side) (n : Nat) (c p : List UInt8) :
    countedOpen x n c = some p ↔ countedSeal x n p = some c := by
  rw [countedSeal_eq_some_iff, countedOpen, Option.ite_none_right_eq_some, Option.some.injEq]
  constructor
  · rintro ⟨⟨hn, hlen, htag⟩, rfl⟩
    have hsplit : countedTag x n ++ c.drop TAG_LENGTH = c := by
      rw [← htag, List.take_append_drop]
    refine ⟨hn, ?_, hsplit⟩
    have hlength := congrArg List.length hsplit
    rw [List.length_append, countedTag_length] at hlength
    omega
  · rintro ⟨hn, hlen, rfl⟩
    refine ⟨⟨hn, ?_, List.take_left' (countedTag_length x n)⟩,
      List.drop_left' (countedTag_length x n)⟩
    rw [List.length_append, countedTag_length]
    omega

/-- The numbered messages of the two sides. -/
def countedAead : Aead Side where
  under x :=
    { sealAt := countedSeal x
      unsealAt := countedOpen x
      unsealAt_iff := countedOpen_iff x
      counter_eq := fun hp hq => (countedSeal_inj hp hq).2 }
  key_eq hp hq := (countedSeal_inj hp hq).1

/-- What a call on a numbered session leaves behind: it moves on with a message,
and stays without one. -/
def countedReply (t t' : Endpoint Side) (buf : MessageBuffer) (error : String) :
    Option (List UInt8) → Endpoint Side × MessageBuffer × Except String Nat
  | some bytes => (t', fill bytes buf, .ok bytes.length)
  | none => (t, buf, .error error)

/-- The library with the handshakes of `plainSnow` and numbered messages after
them. -/
def countedSnow : Snow where
  HandshakeState := PlainHandshake
  TransportState := Endpoint Side
  clientHandshake := plainSnow.clientHandshake
  originHandshake := plainSnow.originHandshake
  writeHandshake := plainSnow.writeHandshake
  readHandshake := plainSnow.readHandshake
  isHandshakeFinished := plainSnow.isHandshakeFinished
  intoTransportMode hs :=
    if hs.passed = 2 then
      let x : Side := if hs.initiator then .initiator else .responder
      .ok ⟨x, x.peer, 0, 0⟩
    else .error "state error: HandshakeNotFinished"
  writeTransport t payload buf :=
    countedReply t { t with sent := t.sent + 1 } buf "input error"
      (countedSeal t.sendKey t.sent payload)
  readTransport t msg buf :=
    countedReply t { t with received := t.received + 1 } buf "decrypt error"
      (countedOpen t.recvKey t.received msg)

theorem countedSnow_fits {x : Side} {n : Nat} {p c : List UInt8}
    (h : (countedAead.under x).sealAt n p = some c) :
    p.length ≤ NOISE_MAX_MESSAGE ∧ c.length ≤ NOISE_MAX_MESSAGE := by
  obtain ⟨-, hlen, rfl⟩ := countedSeal_eq_some_iff.mp h
  rw [List.length_append, countedTag_length]
  omega

theorem countedSnow_sealsWith : countedSnow.SealsWith countedAead id where
  fits := countedSnow_fits
  writes t payload buf c h := by
    have hwrite : countedSnow.writeTransport t payload buf = _ :=
      congrArg (countedReply t _ buf _) h
    rw [hwrite]
    exact ⟨rfl, fill_take (countedSnow_fits h).2 buf, rfl⟩
  unwritten t payload buf h := by
    have hwrite : countedSnow.writeTransport t payload buf = _ :=
      congrArg (countedReply t _ buf _) h
    rw [hwrite]
    exact ⟨⟨_, rfl⟩, rfl⟩
  reads t msg buf p h := by
    have hread : countedSnow.readTransport t msg buf = _ :=
      congrArg (countedReply t _ buf _) h
    rw [hread]
    exact ⟨rfl, fill_take (countedSnow_fits ((countedOpen_iff _ _ _ _).mp h)).1 buf, rfl⟩
  unread t msg buf h := by
    have hread : countedSnow.readTransport t msg buf = _ :=
      congrArg (countedReply t _ buf _) h
    rw [hread]
    exact ⟨⟨_, rfl⟩, rfl⟩

/-- A session of it at its start. -/
def countedEnds (x : Side) : NoiseTransport countedSnow := .new ⟨x, x.peer, 0, 0⟩

theorem countedEnds_opened :
    Opened (id : countedSnow.TransportState → Endpoint Side) id countedEnds where
  keys_ne := Side.peer_ne
  usable _ := rfl
  fresh _ := rfl

end CtAgentAndroid
