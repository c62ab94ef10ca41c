import CtAgentAndroid.AppLaunch
import CtAgentAndroid.ChannelJoin
import CtAgentAndroid.HexEncoding
import CtAgentAndroid.NoiseLifecycle

/-! # Keys that leave the crate and come back

All key material leaves the crate as hex: the two identities, and the channel id
of a link (`Emitted`).  It is stored on the other side of the FFI boundary as
text and comes back as arguments of the calls that take hex.

A text that `hex32` reads as a key is that key to every call, whatever the other
arguments are (`AcceptedAs`, `acceptedAs_iff`).  So what leaves the crate is taken
back for the bytes it was written for, provided these are 32: a holder key's are,
and those of the others are as many as the library makes them (`ThirtyTwoBytes`).
The same then holds of both halves of every identity the app has stored
(`launched_pair_accepted`).
-/
namespace CtAgentAndroid
open Rust

/-- `ct_common::noise`'s key pair. -/
structure StaticKeypair where
  /-- `public`. -/
  publicKey : List UInt8
  /-- `private`. -/
  privateKey : List UInt8

/-- What the crate uses of `ed25519_dalek`, `rand` and `ct_common::noise` to make
keys.  `Entropy` is what the system's random source gives to one call. -/
structure KeyLibrary where
  Entropy : Type
  SigningKey : Type
  /-- `SigningKey::generate(&mut OsRng)`. -/
  generate : Entropy → SigningKey
  /-- `sk.verifying_key().as_bytes()`. -/
  verifyingKeyBytes : SigningKey → Vector UInt8 32
  /-- `sk.to_bytes()`. -/
  toBytes : SigningKey → Vector UInt8 32
  /-- `ct_common::noise::generate_static_keypair`. -/
  generateStaticKeypair : Entropy → StaticKeypair

section Emitted
variable (keys : KeyLibrary) (lib : ChannelLibrary)

/-- `generate_holder_identity`. -/
def generateHolderIdentity (entropy : keys.Entropy) : HolderIdentity :=
  let sk := keys.generate entropy
  ⟨toHex (keys.verifyingKeyBytes sk).toList, toHex (keys.toBytes sk).toList⟩

/-- `generate_noise_identity`. -/
def generateNoiseIdentity (entropy : keys.Entropy) : NoiseIdentity :=
  let kp := keys.generateStaticKeypair entropy
  ⟨toHex kp.publicKey, toHex kp.privateKey⟩

/-- The texts of keys and channel ids that calls of the crate return, with the
bytes they stand for. -/
inductive Emitted : String → List UInt8 → Prop
  | holderPublic (entropy : keys.Entropy) :
      Emitted (generateHolderIdentity keys entropy).publicHex
        (keys.verifyingKeyBytes (keys.generate entropy)).toList
  | holderPrivate (entropy : keys.Entropy) :
      Emitted (generateHolderIdentity keys entropy).privateHex
        (keys.toBytes (keys.generate entropy)).toList
  | noisePublic (entropy : keys.Entropy) :
      Emitted (generateNoiseIdentity keys entropy).publicHex
        (keys.generateStaticKeypair entropy).publicKey
  | noisePrivate (entropy : keys.Entropy) :
      Emitted (generateNoiseIdentity keys entropy).privateHex
        (keys.generateStaticKeypair entropy).privateKey
  | channelId {operatorHex aHex bHex id : String} {operator a b : Vector UInt8 32}
      (hoperator : hex32 operatorHex = .ok operator) (ha : hex32 aHex = .ok a)
      (hb : hex32 bHex = .ok b) (hid : channelIdForLink lib operatorHex aHex bHex = .ok id) :
      Emitted id (lib.channelIdForLink operator a b)

/-- X25519 keys and channel ids have 32 bytes. -/
structure ThirtyTwoBytes : Prop where
  publicKey : ∀ entropy, (keys.generateStaticKeypair entropy).publicKey.length = 32
  privateKey : ∀ entropy, (keys.generateStaticKeypair entropy).privateKey.length = 32
  channelId : ∀ operator a b, (lib.channelIdForLink operator a b).length = 32

variable {keys lib}

/-- Every id that `channel_id_for_link` returns is among them. -/
theorem Emitted.of_channelIdForLink {operatorHex aHex bHex id : String}
    (h : channelIdForLink lib operatorHex aHex bHex = .ok id) :
    ∃ bytes, Emitted keys lib id bytes := by
  have hid := h
  rw [channelIdForLink, Outcome.bind_eq_ok] at h
  obtain ⟨operator, hoperator, h⟩ := h
  obtain ⟨a, ha, h⟩ := Outcome.bind_eq_ok.mp h
  obtain ⟨b, hb, -⟩ := Outcome.bind_eq_ok.mp h
  exact ⟨_, .channelId hoperator ha hb hid⟩

/-- What is emitted is the encoding of the bytes. -/
theorem Emitted.toHex_eq {s : String} {bytes : List UInt8} (h : Emitted keys lib s bytes) :
    toHex bytes = s := by
  cases h with
  | holderPublic => rfl
  | holderPrivate => rfl
  | noisePublic => rfl
  | noisePrivate => rfl
  | channelId hoperator ha hb hid =>
    rw [channelIdForLink, hoperator, Outcome.ok_bind, ha, Outcome.ok_bind, hb] at hid
    exact Outcome.ok.inj hid

theorem Emitted.length {s : String} {bytes : List UInt8} (h : Emitted keys lib s bytes)
    (hsize : ThirtyTwoBytes keys lib) : bytes.length = 32 := by
  cases h with
  | holderPublic => exact Vector.length_toList
  | holderPrivate => exact Vector.length_toList
  | noisePublic entropy => exact hsize.publicKey entropy
  | noisePrivate entropy => exact hsize.privateKey entropy
  | channelId => exact hsize.channelId _ _ _

end Emitted

/-! ## Coming back -/

/-- Every call takes the text `s` for the bytes of `k`, in each place where it
takes hex and whatever its other arguments are. -/
structure AcceptedAs (lib : ChannelLibrary) (snow : Snow) (s : String) (k : Vector UInt8 32) :
    Prop where
  bytes : fromHex s = .ok k.toList
  key : hex32 s = .ok k
  operator : ∀ aHex bHex, channelIdForLink lib s aHex bHex = do
    let a ← hex32 aHex
    let b ← hex32 bHex
    return toHex (lib.channelIdForLink k a b)
  holderA : ∀ operatorHex bHex, channelIdForLink lib operatorHex s bHex = do
    let operator ← hex32 operatorHex
    let b ← hex32 bHex
    return toHex (lib.channelIdForLink operator k b)
  holderB : ∀ operatorHex aHex, channelIdForLink lib operatorHex aHex s = do
    let operator ← hex32 operatorHex
    let a ← hex32 aHex
    return toHex (lib.channelIdForLink operator a k)
  initiatorLocal : ∀ remoteHex, NoiseHandshake.newInitiator snow s remoteHex = do
    let remoteKey ← hex32 remoteHex
    let hs ← Outcome.mapErr CtAgentError.generic (snow.clientHandshake k remoteKey)
    return .new (some hs)
  initiatorRemote : ∀ localHex, NoiseHandshake.newInitiator snow localHex s = do
    let localKey ← hex32 localHex
    let hs ← Outcome.mapErr CtAgentError.generic (snow.clientHandshake localKey k)
    return .new (some hs)
  responder : NoiseHandshake.newResponder snow s = do
    let hs ← Outcome.mapErr CtAgentError.generic (snow.originHandshake k)
    return .new (some hs)
  signer : ∀ message, holderSign lib s message = .ok (lib.sign k message).toList
  grant : ∀ endpoint, buildChannelJoinRequest lib s endpoint = do
    let grant ← Outcome.mapErr CtAgentError.generic (lib.decodeGrant k.toList)
    return lib.encodeJoinRequest grant endpoint

section Accepted
variable {lib : ChannelLibrary} {snow : Snow}

/-- **The calls look at a key only through `hex32`**, and at a grant only through
`from_hex`. -/
theorem acceptedAs_iff {s : String} {k : Vector UInt8 32} :
    AcceptedAs lib snow s k ↔ hex32 s = .ok k := by
  refine ⟨AcceptedAs.key, fun h => ?_⟩
  have hbytes : fromHex s = .ok k.toList := by
    obtain ⟨hkey, hk⟩ := hex32_eq_ok_iff.mp h
    exact fromHex_eq_ok_iff.mpr ⟨hkey.1, hk⟩
  exact {
    bytes := hbytes
    key := h
    operator := fun _ _ => by rw [channelIdForLink, h, Outcome.ok_bind]
    holderA := fun _ _ => by simp only [channelIdForLink, h, Outcome.ok_bind]
    holderB := fun _ _ => by simp only [channelIdForLink, h, Outcome.ok_bind]
    initiatorLocal := fun _ => by rw [NoiseHandshake.newInitiator, h, Outcome.ok_bind]
    initiatorRemote := fun _ => by simp only [NoiseHandshake.newInitiator, h, Outcome.ok_bind]
    responder := by rw [NoiseHandshake.newResponder, h, Outcome.ok_bind]
    signer := fun _ => by rw [holderSign, h, Outcome.ok_bind, Outcome.pure_eq_ok]
    grant := fun _ => by rw [buildChannelJoinRequest, hbytes, Outcome.ok_bind] }

/-- What leaves the crate is taken back for what it was. -/
theorem Emitted.accepted {keys : KeyLibrary} {s : String} {bytes : List UInt8}
    (h : Emitted keys lib s bytes) (hsize : ThirtyTwoBytes keys lib) :
    ∃ k : Vector UInt8 32, k.toList = bytes ∧ AcceptedAs lib snow s k := by
  obtain ⟨k, hk⟩ : ∃ k : Vector UInt8 32, k.toList = bytes :=
    ⟨⟨bytes.toArray, h.length hsize⟩, rfl⟩
  refine ⟨k, hk, acceptedAs_iff.mpr ?_⟩
  rw [← h.toHex_eq, ← hk]
  exact hex32_toHex k

end Accepted

/-! ## What the store holds -/

/-- The pair is one the native call of its kind returned. -/
def GeneratedPair (keys : KeyLibrary) : IdentityKind → HexKeypair → Prop
  | .holder, pair => ∃ entropy,
      let real := generateHolderIdentity keys entropy
      pair = ⟨real.publicHex, real.privateHex⟩
  | .noise, pair => ∃ entropy,
      let real := generateNoiseIdentity keys entropy
      pair = ⟨real.publicHex, real.privateHex⟩

theorem GeneratedPair.emitted {keys : KeyLibrary} (lib : ChannelLibrary) {kind : IdentityKind}
    {pair : HexKeypair} (h : GeneratedPair keys kind pair) :
    (∃ bytes, Emitted keys lib pair.publicHex bytes) ∧
      ∃ bytes, Emitted keys lib pair.privateHex bytes := by
  cases kind with
  | holder =>
    obtain ⟨entropy, rfl⟩ := h
    exact ⟨⟨_, .holderPublic entropy⟩, ⟨_, .holderPrivate entropy⟩⟩
  | noise =>
    obtain ⟨entropy, rfl⟩ := h
    exact ⟨⟨_, .noisePublic entropy⟩, ⟨_, .noisePrivate entropy⟩⟩

/-- **Both halves of every stored pair are keys to the crate**, after any run of
calls on the store whose generations are the crate's. -/
theorem stored_pair_accepted {keys : KeyLibrary} {lib : ChannelLibrary} (snow : Snow)
    (hsize : ThirtyTwoBytes keys lib) {ε : Type} {calls : List (IdentityCall ε)}
    (hcalls : ∀ kind pair, .generateAndStore kind (.ok pair) ∈ calls → GeneratedPair keys kind pair)
    {kind : IdentityKind} {pair : HexKeypair}
    (h : ((keyStore _ ε).run emptyStore calls).answers kind = .of (some pair)) :
    (∃ k, AcceptedAs lib snow pair.publicHex k) ∧ ∃ k, AcceptedAs lib snow pair.privateHex k := by
  have hlast : lastPair kind calls = some pair := by
    rw [(represents_run holds_empty calls).answers kind, apply_changes] at h
    exact Answers.of_injective h
  obtain ⟨⟨_, hpublic⟩, ⟨_, hprivate⟩⟩ :=
    (hcalls kind pair (mem_of_lastPair hlast)).emitted lib
  obtain ⟨k, -, hk⟩ := hpublic.accepted hsize
  obtain ⟨k', -, hk'⟩ := hprivate.accepted hsize
  exact ⟨⟨k, hk⟩, ⟨k', hk'⟩⟩

/-- What the native calls of a launch return is the crate's. -/
def GenuineLaunch (keys : KeyLibrary) (l : Launch) : Prop :=
  (∀ real, l.generateHolderIdentity = .ok real →
    ∃ entropy, real = generateHolderIdentity keys entropy) ∧
  ∀ real, l.generateNoiseIdentity = .ok real →
    ∃ entropy, real = generateNoiseIdentity keys entropy

/-- A mapped result is made from one that is there. -/
theorem exists_of_map_eq_ok {ε α β : Type} {f : α → β} {x : Except ε α} {b : β}
    (h : x.map f = .ok b) : ∃ a, x = .ok a ∧ b = f a := by
  cases x with
  | error e => cases h
  | ok a => exact ⟨a, rfl, (Except.ok.inj h).symm⟩

theorem GenuineLaunch.generatedPair {keys : KeyLibrary} {l : Launch} (hl : GenuineLaunch keys l)
    {kind : IdentityKind} {pair : HexKeypair} (h : .generateAndStore kind (.ok pair) ∈ l.calls) :
    GeneratedPair keys kind pair := by
  rcases List.mem_pair.mp h with hholder | hnoise
  · obtain ⟨rfl, hpair⟩ := IdentityCall.generateAndStore.inj hholder
    obtain ⟨real, hreal, rfl⟩ := exists_of_map_eq_ok hpair.symm
    obtain ⟨entropy, rfl⟩ := hl.1 real hreal
    exact ⟨entropy, rfl⟩
  · obtain ⟨rfl, hpair⟩ := IdentityCall.generateAndStore.inj hnoise
    obtain ⟨real, hreal, rfl⟩ := exists_of_map_eq_ok hpair.symm
    obtain ⟨entropy, rfl⟩ := hl.2 real hreal
    exact ⟨entropy, rfl⟩

/-- **So are those of every identity the app has**, after any launches. -/
theorem launched_pair_accepted {keys : KeyLibrary} {lib : ChannelLibrary} (snow : Snow)
    (hsize : ThirtyTwoBytes keys lib) {ls : List Launch} (hls : ∀ l ∈ ls, GenuineLaunch keys l)
    {kind : IdentityKind} {pair : HexKeypair}
    (h : (launches.run emptyStore ls).answers kind = .of (some pair)) :
    (∃ k, AcceptedAs lib snow pair.publicHex k) ∧ ∃ k, AcceptedAs lib snow pair.privateHex k := by
  obtain ⟨calls, hrun, hcalls⟩ := launches_as_calls emptyStore ls
  rw [hrun] at h
  refine stored_pair_accepted snow hsize (fun kind pair hmem => ?_) h
  obtain ⟨l, hl, hcall⟩ := hcalls _ hmem
  exact (hls l hl).generatedPair hcall

/-! ## The round trip -/

/-- **Hex comes back.**  Every byte sequence is decoded from its encoding, which
is two of `0-9a-f` for each byte, and no slice of the decoder cuts it; as a key it
is taken exactly when it has 32 bytes; different bytes have different encodings;
and every key and channel id the crate emits is taken back for its own bytes by
every call that takes hex. -/
theorem hex_round_trip (keys : KeyLibrary) (lib : ChannelLibrary) (snow : Snow) :
    (∀ b, fromHex (toHex b) = .ok b) ∧
      (∀ b, (toHex b).length = 2 * b.length ∧ ∀ c ∈ (toHex b).toList, IsLowerHexDigit c) ∧
      (∀ (b : List UInt8) (i : Fin b.length),
        (strSlice (toHex b) (2 * i) (2 * i + 2) : Outcome CtAgentError String) =
          .ok (lowerHex02 b[i])) ∧
      (∀ k : Vector UInt8 32, hex32 (toHex k.toList) = .ok k) ∧
      (∀ b, b.length ≠ 32 →
        hex32 (toHex b) = .err (.generic "expected 32 bytes (64 hex chars)")) ∧
      Function.Injective toHex ∧
      (ThirtyTwoBytes keys lib → ∀ s bytes, Emitted keys lib s bytes →
        toHex bytes = s ∧ ∃ k : Vector UInt8 32, k.toList = bytes ∧ AcceptedAs lib snow s k) :=
  ⟨fromHex_toHex, fun b => ⟨toHex_length b, toHex_isLower b⟩,
    fun b i => strSlice_toHex b i i.isLt, hex32_toHex, fun _ => hex32_toHex_of_length_ne,
    toHex_injective, fun hsize _ _ h => ⟨h.toHex_eq, h.accepted hsize⟩⟩

/-- The random source always gives the same secret; its two public halves. -/
def fixedKeys : KeyLibrary where
  Entropy := Unit
  SigningKey := Unit
  generate _ := ()
  verifyingKeyBytes _ :=
    #v[0xd7, 0x5a, 0x98, 0x01, 0x82, 0xb1, 0x0a, 0xb7, 0xd5, 0x4b, 0xfe, 0xd3, 0xc9, 0x64, 0x07,
      0x3a, 0x0e, 0xe1, 0x72, 0xf3, 0xda, 0xa6, 0x23, 0x25, 0xaf, 0x02, 0x1a, 0x68, 0xf7, 0x07,
      0x51, 0x1a]
  toBytes _ := secret
  generateStaticKeypair _ :=
    ⟨[0xb7, 0x55, 0xce, 0xd6, 0x4d, 0x4a, 0x27, 0xce, 0x32, 0xaf, 0xcf, 0x19, 0x9f, 0x18, 0xa3,
      0xed, 0x1f, 0x31, 0x89, 0x70, 0x28, 0xb0, 0xff, 0x6e, 0x55, 0x19, 0x1e, 0xa4, 0x49, 0xdb,
      0x26, 0x44], secret.toList⟩
where
  secret : Vector UInt8 32 :=
    #v[0x9d, 0x61, 0xb1, 0x9d, 0xef, 0xfd, 0x5a, 0x60, 0xba, 0x84, 0x4a, 0xf4, 0x92, 0xec, 0x2c,
      0xc4, 0x44, 0x49, 0xc5, 0x69, 0x7b, 0x32, 0x69, 0x19, 0x70, 0x3b, 0xac, 0x03, 0x1c, 0xae,
      0x7f, 0x60]

/-- Ids that do not depend on the order of the holders, and grants that are any
bytes but none. -/
def plainChannels : ChannelLibrary where
  SignedChannelGrant := List UInt8
  channelIdForLink operator a b :=
    (Vector.zipWith (· ^^^ ·) operator (Vector.zipWith (· ^^^ ·) a b)).toList
  decodeGrant bytes := if bytes.isEmpty then .error "empty grant" else .ok bytes
  encodeJoinRequest grant endpoint := grant ++ asBytes endpoint
  sign key message := (key ++ key).map (· ^^^ asU8 message.length)

theorem fixedKeys_thirtyTwoBytes : ThirtyTwoBytes fixedKeys plainChannels where
  publicKey _ := rfl
  privateKey _ := rfl
  channelId _ _ _ := Vector.length_toList

theorem hex_round_trip_noise_public :
    let kp := fixedKeys.generateStaticKeypair ()
    let text := (generateNoiseIdentity fixedKeys ()).publicHex
    toHex kp.publicKey = text ∧ ∃ k : Vector UInt8 32, k.toList = kp.publicKey ∧
      AcceptedAs plainChannels plainSnow text k := by
  obtain ⟨-, -, -, -, -, -, hemitted⟩ := hex_round_trip fixedKeys plainChannels plainSnow
  exact hemitted fixedKeys_thirtyTwoBytes _ _ (.noisePublic ())

end CtAgentAndroid
