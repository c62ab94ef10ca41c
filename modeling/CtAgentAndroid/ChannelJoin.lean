import CtAgentAndroid.HexDecoding
import CtAgentAndroid.NoiseSession

/-! # Joining a channel

The calls of `lib.rs` a member makes to join: the channel id of a link, the
signature over the edge's challenge, and the join request.  What each does with
the decoded bytes is in two libraries, of which `ChannelLibrary` is what the
crate uses.

Every string that comes in is hex and goes through `from_hex`, several of them
one after the other and only as long as they are taken.  So a call panics
exactly when one of its strings does and those before it are keys (`NoneCut`).
-/
namespace CtAgentAndroid
open Rust

/-- What the crate uses of `ct_common::channel` and `ed25519_dalek`. -/
structure ChannelLibrary where
  SignedChannelGrant : Type
  /-- `channel_id_for_link`, the bytes of the id. -/
  channelIdForLink : Vector UInt8 32 → Vector UInt8 32 → Vector UInt8 32 → List UInt8
  /-- `SignedChannelGrant::decode`, whose error is used for its text. -/
  decodeGrant : List UInt8 → Except String SignedChannelGrant
  /-- `ChannelJoinRequest { grant, endpoint }.encode()`. -/
  encodeJoinRequest : SignedChannelGrant → String → List UInt8
  /-- `SigningKey::from_bytes(key).sign(message).to_bytes()`. -/
  sign : Vector UInt8 32 → List UInt8 → Vector UInt8 64

section Calls
variable (lib : ChannelLibrary)

/-- `channel_id_for_link`. -/
def channelIdForLink (operatorPubkeyHex holderAHex holderBHex : String) :
    Outcome CtAgentError String := do
  let operator ← hex32 operatorPubkeyHex
  let a ← hex32 holderAHex
  let b ← hex32 holderBHex
  return toHex (lib.channelIdForLink operator a b)

/-- `holder_sign`. -/
def holderSign (holderPrivateHex : String) (message : List UInt8) :
    Outcome CtAgentError (List UInt8) := do
  let sk ← hex32 holderPrivateHex
  return (lib.sign sk message).toList

/-- `build_channel_join_request`. -/
def buildChannelJoinRequest (grantHex endpoint : String) : Outcome CtAgentError (List UInt8) := do
  let grantBytes ← fromHex grantHex
  let grant ← Outcome.mapErr CtAgentError.generic (lib.decodeGrant grantBytes)
  return lib.encodeJoinRequest grant endpoint

end Calls

/-! ## Keys that are read one after the other -/

/-- No key of the list is cut before one that is refused. -/
def NoneCut : List String → Prop
  | [] => True
  | s :: rest => ¬ HexCuts s ∧ (KeyText s → NoneCut rest)

instance : (keys : List String) → Decidable (NoneCut keys)
  | [] => .isTrue trivial
  | s :: rest =>
    have := instDecidableNoneCut rest
    inferInstanceAs (Decidable (_ ∧ (KeyText s → _)))

/-- Reading a key first: the call returns exactly when the key does not panic
and what is done with it returns. -/
theorem hex32_bind_returns_iff {α : Type} {s : String} {P : Prop}
    {f : Vector UInt8 32 → Outcome CtAgentError α} (hf : ∀ k, (f k).Returns ↔ P) :
    (hex32 s >>= f).Returns ↔ ¬ HexCuts s ∧ (KeyText s → P) := by
  rw [Outcome.returns_bind_iff, hex32_returns_iff]
  refine and_congr Iff.rfl ⟨fun h hkey => ?_, fun h k hk => ?_⟩
  · obtain ⟨k, hk⟩ := exists_hex32_iff.mpr hkey
    exact (hf k).mp (h k hk)
  · exact (hf k).mpr (h (exists_hex32_iff.mp ⟨k, hk⟩))

theorem channelIdForLink_returns_iff (lib : ChannelLibrary) (operator a b : String) :
    (channelIdForLink lib operator a b).Returns ↔ NoneCut [operator, a, b] :=
  hex32_bind_returns_iff fun _ => hex32_bind_returns_iff fun _ => hex32_bind_returns_iff fun _ =>
    iff_true_intro (Outcome.returns_ok _)

theorem holderSign_returns_iff (lib : ChannelLibrary) (s : String) (message : List UInt8) :
    (holderSign lib s message).Returns ↔ NoneCut [s] :=
  hex32_bind_returns_iff fun _ => iff_true_intro (Outcome.returns_ok _)

theorem newInitiator_returns_iff (snow : Snow) (localKey remoteKey : String) :
    (NoiseHandshake.newInitiator snow localKey remoteKey).Returns ↔
      NoneCut [localKey, remoteKey] :=
  hex32_bind_returns_iff fun _ => hex32_bind_returns_iff fun _ =>
    iff_true_intro ((Outcome.returns_mapErr _ _).bind fun _ _ => Outcome.returns_ok _)

theorem newResponder_returns_iff (snow : Snow) (localKey : String) :
    (NoiseHandshake.newResponder snow localKey).Returns ↔ NoneCut [localKey] :=
  hex32_bind_returns_iff fun _ =>
    iff_true_intro ((Outcome.returns_mapErr _ _).bind fun _ _ => Outcome.returns_ok _)

theorem buildChannelJoinRequest_returns_iff (lib : ChannelLibrary) (grant endpoint : String) :
    (buildChannelJoinRequest lib grant endpoint).Returns ↔ ¬ HexCuts grant := by
  rw [buildChannelJoinRequest, Outcome.returns_bind_iff, fromHex_returns_iff]
  refine and_iff_left fun v _ => ?_
  exact (Outcome.returns_mapErr _ _).bind fun _ _ => Outcome.returns_ok _

/-- **When malformed hex does not panic.**  The two decoders return exactly on
the strings no slice cuts a character of, and the five calls exactly when that
holds of every string they come to. -/
theorem hex_decoding_returns_iff (lib : ChannelLibrary) (snow : Snow) :
    (∀ s, ((fromHex s).Returns ↔ ¬ HexCuts s) ∧ ((hex32 s).Returns ↔ ¬ HexCuts s)) ∧
      (∀ operator a b,
        (channelIdForLink lib operator a b).Returns ↔ NoneCut [operator, a, b]) ∧
      (∀ localKey remoteKey,
        (NoiseHandshake.newInitiator snow localKey remoteKey).Returns ↔
          NoneCut [localKey, remoteKey]) ∧
      (∀ localKey,
        (NoiseHandshake.newResponder snow localKey).Returns ↔ NoneCut [localKey]) ∧
      (∀ key message, (holderSign lib key message).Returns ↔ NoneCut [key]) ∧
      ∀ grant endpoint, (buildChannelJoinRequest lib grant endpoint).Returns ↔ ¬ HexCuts grant :=
  ⟨fun s => ⟨fromHex_returns_iff s, hex32_returns_iff s⟩, channelIdForLink_returns_iff lib,
    newInitiator_returns_iff snow, newResponder_returns_iff snow, holderSign_returns_iff lib,
    buildChannelJoinRequest_returns_iff lib⟩

/-- `€a` has four bytes, and the first slice ends inside the `€`. -/
theorem hex_cut_panics : ¬ (fromHex "€a").Returns := by decide +kernel

end CtAgentAndroid
