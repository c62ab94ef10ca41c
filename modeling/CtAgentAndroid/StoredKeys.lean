import CtAgentAndroid.DeviceLaunches
import CtAgentAndroid.EmittedKeys

/-! # The keys a device keeps

What a launch stores is what the crate has generated, and neither a write nor a
restart makes anything else of it (`generated_run`).  So whatever the app reads,
in memory or on disk, is a pair of the crate (`Generates`), and as the crate reads
its own hex back, the two halves of a stored identity belong together: the private
half signs for the public half, and is the secret of the other
(`stored_identity_matches`).
-/
namespace CtAgentAndroid
open Rust Automaton BatchMap WriteBehind

/-! ## Where stored pairs come from -/

/-- The native calls of every launch are the crate's. -/
def GenuineEvents (keys : KeyLibrary) (events : List PhoneEvent) : Prop :=
  ∀ l, .launch l ∈ events → GenuineLaunch keys l

/-- Every pair in memory was generated. -/
def AllGenerated (keys : KeyLibrary) (pairs : PairStore) : Prop :=
  ∀ kind pair, pairs.memory kind = some pair → GeneratedPair keys kind pair

section Generated
variable {keys : KeyLibrary} {pairs : PairStore}

theorem AllGenerated.put (h : AllGenerated keys pairs) {kind : IdentityKind} {pair : HexKeypair}
    (hpair : GeneratedPair keys kind pair) :
    AllGenerated keys (pairs.apply Values.edit (.put kind pair)) := by
  intro k p hp
  by_cases hk : kind = k
  · subst hk
    rw [memory_put_self] at hp
    obtain rfl := Option.some.inj hp
    exact hpair
  · rw [memory_put_of_ne hk] at hp
    exact h k p hp

theorem AllGenerated.next (honce : WriteOnce pairs) (h : AllGenerated keys pairs)
    {e : PhoneEvent} (he : ∀ l, e = .launch l → GenuineLaunch keys l) :
    AllGenerated keys (pairPhone.next pairs e) := by
  cases e with
  | launch l =>
    refine launchPairs_preserves (fun pairs kind pair hmem h _ => ?_) h
    exact h.put ((he l rfl).generatedPair hmem)
  | write =>
    intro kind pair hpair
    refine h kind pair ?_
    rwa [← memory_write pairs]
  | die => exact fun kind pair hpair => h kind pair (honce.memory_of_disk hpair)

theorem generated_run {events : List PhoneEvent} (hevents : GenuineEvents keys events) :
    AllGenerated keys (pairPhone.run noPairs events) := by
  have hsteps : pairPhone.AllSteps (fun _ e => ∀ l, e = .launch l → GenuineLaunch keys l)
      noPairs events := by
    rintro pre e hpre l rfl
    exact hevents l (hpre.subset (List.mem_append_right pre (List.mem_singleton_self _)))
  have hrun := Mealy.allStates_of_allSteps
    (I := fun pairs => WriteOnce pairs ∧ AllGenerated keys pairs)
    (fun pairs e h he => ⟨pairPhone_writeOnce pairs e h.1, AllGenerated.next h.1 h.2 he⟩)
    ⟨.load _, fun kind pair hpair => by cases hpair⟩ hsteps
  exact (hrun events (List.prefix_refl _)).2

/-- **What the app reads was generated**, in memory and on disk. -/
theorem read_generated {events : List PhoneEvent} (hevents : GenuineEvents keys events)
    {kind : IdentityKind} {pair : HexKeypair}
    (h : (phone.run freshDevice events).answers kind = .of (some pair) ∨
      (phone.run freshDevice events).onDisk.answers kind = .of (some pair)) :
    GeneratedPair keys kind pair := by
  refine generated_run hevents kind pair ?_
  have hkeeps := keepsPairs_run events
  rcases h with h | h
  · rw [hkeeps.answers] at h
    exact Answers.of_injective h
  · rw [hkeeps.onDisk] at h
    exact (writeOnce_run events).memory_of_disk (Answers.of_injective h)

end Generated

/-! ## Halves that belong together -/

/-- What is promised of the pairs the key libraries generate: a signature under
the signing key is verified by its verifying key, and the public half of a static
key pair is that of the private half. -/
structure KeyLibrary.PairsMatch (keys : KeyLibrary) (lib : ChannelLibrary)
    (verify : Vector UInt8 32 → List UInt8 → Vector UInt8 64 → Bool)
    (publicOf : Vector UInt8 32 → Vector UInt8 32) : Prop where
  signs : ∀ entropy message, let sk := keys.generate entropy
    verify (keys.verifyingKeyBytes sk) message (lib.sign (keys.toBytes sk) message) = true
  static : ∀ entropy, ∃ k : Vector UInt8 32,
    (keys.generateStaticKeypair entropy).privateKey = k.toList ∧
      (keys.generateStaticKeypair entropy).publicKey = (publicOf k).toList

/-- The halves of an identity, as the crate takes them. -/
def HalvesMatch (lib : ChannelLibrary)
    (verify : Vector UInt8 32 → List UInt8 → Vector UInt8 64 → Bool)
    (publicOf : Vector UInt8 32 → Vector UInt8 32) : IdentityKind → HexKeypair → Prop
  | .holder, pair => ∃ publicKey, hex32 pair.publicHex = .ok publicKey ∧ ∀ message,
      ∃ signature, holderSign lib pair.privateHex message = .ok signature.toList ∧
        verify publicKey message signature = true
  | .noise, pair => ∃ privateKey, hex32 pair.privateHex = .ok privateKey ∧
      hex32 pair.publicHex = .ok (publicOf privateKey)

section Match
variable {keys : KeyLibrary} {lib : ChannelLibrary}
  {verify : Vector UInt8 32 → List UInt8 → Vector UInt8 64 → Bool}
  {publicOf : Vector UInt8 32 → Vector UInt8 32}

theorem GeneratedPair.halvesMatch (hmatch : keys.PairsMatch lib verify publicOf)
    {kind : IdentityKind} {pair : HexKeypair} (h : GeneratedPair keys kind pair) :
    HalvesMatch lib verify publicOf kind pair := by
  cases kind with
  | holder =>
    obtain ⟨entropy, rfl⟩ := h
    refine ⟨_, hex32_toHex _, fun message => ⟨_, ?_, hmatch.signs entropy message⟩⟩
    show holderSign lib (toHex _) message = _
    rw [holderSign, hex32_toHex, Outcome.ok_bind, Outcome.pure_eq_ok]
  | noise =>
    obtain ⟨entropy, rfl⟩ := h
    obtain ⟨k, hprivate, hpublic⟩ := hmatch.static entropy
    refine ⟨k, ?_, ?_⟩
    · show hex32 (toHex _) = _
      rw [hprivate, hex32_toHex]
    · show hex32 (toHex _) = _
      rw [hpublic, hex32_toHex]

/-- **A stored identity works.**  After any launches, writes and deaths, the halves
of a pair the app reads belong together; and once the pair is on disk, so do its
public half now and its private half in any later state. -/
theorem stored_identity_matches (hmatch : keys.PairsMatch lib verify publicOf)
    {events : List PhoneEvent} (hevents : GenuineEvents keys events) (kind : IdentityKind)
    (pair : HexKeypair) :
    let s := phone.run freshDevice events
    (s.answers kind = .of (some pair) → HalvesMatch lib verify publicOf kind pair) ∧
      (s.onDisk.answers kind = .of (some pair) → ∀ later,
        ∃ privateHex, ((phone.run s later).answers kind).privateHex = some privateHex ∧
          HalvesMatch lib verify publicOf kind ⟨pair.publicHex, privateHex⟩) := by
  intro s
  refine ⟨fun h => (read_generated hevents (.inl h)).halvesMatch hmatch, fun h later => ?_⟩
  have hgenerated := read_generated hevents (.inr h)
  refine ⟨pair.privateHex, ?_, hgenerated.halvesMatch hmatch⟩
  rw [(onDisk_stays h later).2]
  rfl

end Match

/-- Launched, written and restarted, always with the same keys. -/
def fixedEvents : List PhoneEvent :=
  [.launch ⟨.ok (generateHolderIdentity fixedKeys ()), .ok (generateNoiseIdentity fixedKeys ())⟩,
    .write, .write, .die]

/-- The one public key of `fixedKeys` verifies what its one secret has signed. -/
def fixedVerify (publicKey : Vector UInt8 32) (message : List UInt8)
    (signature : Vector UInt8 64) : Bool :=
  publicKey == fixedKeys.verifyingKeyBytes () &&
    signature == plainChannels.sign (fixedKeys.toBytes ()) message

/-- The static public key of `fixedKeys`. -/
def fixedPublic (_ : Vector UInt8 32) : Vector UInt8 32 :=
  ⟨(fixedKeys.generateStaticKeypair ()).publicKey.toArray, rfl⟩

theorem fixedKeys_pairsMatch : fixedKeys.PairsMatch plainChannels fixedVerify fixedPublic where
  signs _ message := by
    show fixedVerify (fixedKeys.verifyingKeyBytes ()) message
      (plainChannels.sign (fixedKeys.toBytes ()) message) = true
    rw [fixedVerify, beq_self_eq_true, beq_self_eq_true, Bool.and_true]
  static _ := ⟨_, rfl, rfl⟩

theorem fixedEvents_genuine : GenuineEvents fixedKeys fixedEvents := by
  intro l hl
  obtain rfl : l = ⟨.ok (generateHolderIdentity fixedKeys ()),
    .ok (generateNoiseIdentity fixedKeys ())⟩ := by simpa [fixedEvents] using hl
  exact ⟨fun real hreal => ⟨(), (Except.ok.inj hreal).symm⟩,
    fun real hreal => ⟨(), (Except.ok.inj hreal).symm⟩⟩

/-- After the restart, the identity signs for the key it had before. -/
theorem stored_identity_matches_restarted :
    let s := phone.run freshDevice fixedEvents
    let real := generateHolderIdentity fixedKeys ()
    HalvesMatch plainChannels fixedVerify fixedPublic .holder ⟨real.publicHex, real.privateHex⟩ ∧
      ∀ later, ∃ privateHex, ((phone.run s later).answers .holder).privateHex = some privateHex ∧
        HalvesMatch plainChannels fixedVerify fixedPublic .holder ⟨real.publicHex, privateHex⟩ := by
  intro s real
  obtain ⟨hnow, hlater⟩ := stored_identity_matches fixedKeys_pairsMatch fixedEvents_genuine
    .holder ⟨real.publicHex, real.privateHex⟩
  exact ⟨hnow rfl, hlater rfl⟩

end CtAgentAndroid
