import CtAgentAndroid.CallProgress
import CtAgentAndroid.NoiseDelivery
import CtAgentAndroid.StoredKeys

/-! # A call between two devices

From the stores of two apps to what they tell each other.  Each app reads the noise
identity it has kept over launches and deaths; the one that calls pins the other's
public half.  Both handshakes can be made of what is stored, and can be finished;
and the sessions that come of them carry signal messages in order.
-/
namespace CtAgentAndroid
open Rust Automaton

variable {keys : KeyLibrary} {lib : ChannelLibrary}
  {verify : Vector UInt8 32 → List UInt8 → Vector UInt8 64 → Bool}
  {publicOf : Vector UInt8 32 → Vector UInt8 32} {snow : Snow}
  {half : snow.HandshakeState → Half} {Key : Type} {aead : Aead Key}
  {view : snow.TransportState → Endpoint Key}

/-- The two handshakes of a call, made of the noise identities of its sides. -/
structure CallBetween (snow : Snow) (pair : Side → HexKeypair) (ends : Side → NoiseHandshake snow) :
    Prop where
  initiator : NoiseHandshake.newInitiator snow (pair .initiator).privateHex
    (pair .responder).publicHex = .ok (ends .initiator)
  responder : NoiseHandshake.newResponder snow (pair .responder).privateHex = .ok (ends .responder)

/-- Where the handshakes of two private keys begin. -/
def halves (publicOf : Vector UInt8 32 → Vector UInt8 32) (own : Side → Vector UInt8 32) :
    Side → Half
  | .initiator => ⟨.initiator, own .initiator, some (publicOf (own .responder)), []⟩
  | .responder => ⟨.responder, own .responder, none, []⟩

/-- They can be made, if the halves of each identity belong together. -/
theorem exists_callBetween (h : snow.TakesTurns half) (hcomplete : snow.Completes half publicOf)
    {pair : Side → HexKeypair} {own : Side → Vector UInt8 32}
    (hprivate : ∀ x, hex32 (pair x).privateHex = .ok (own x))
    (hpublic : ∀ x, hex32 (pair x).publicHex = .ok (publicOf (own x))) :
    ∃ ends, CallBetween snow pair ends ∧ Beginning half (halves publicOf own) ends := by
  obtain ⟨hs, hclient⟩ := hcomplete.client (own .initiator) (publicOf (own .responder))
  obtain ⟨hs', horigin⟩ := hcomplete.origin (own .responder)
  have hinitiator : NoiseHandshake.newInitiator snow (pair .initiator).privateHex
      (pair .responder).publicHex = .ok (.new (some hs)) := by
    rw [NoiseHandshake.newInitiator, hprivate, Outcome.ok_bind, hpublic, Outcome.ok_bind, hclient]
    rfl
  have hresponder : NoiseHandshake.newResponder snow (pair .responder).privateHex =
      .ok (.new (some hs')) := by
    rw [NoiseHandshake.newResponder, hprivate, Outcome.ok_bind, horigin]
    rfl
  refine ⟨fun | .initiator => .new (some hs) | .responder => .new (some hs'),
    ⟨hinitiator, hresponder⟩, fun x => ?_, fun x => ?_, fun x => ?_⟩
  · cases x with
    | initiator => exact ⟨hs, rfl, h.client hclient⟩
    | responder => exact ⟨hs', rfl, h.origin horigin⟩
  · cases x <;> rfl
  · cases x <;> rfl

/-- **A call between two devices.**  Take two apps after any launches, writes and
deaths, and the noise identities they read.  A handshake can be made of each; if the
ends read what the other has written and neither is converted too early, both can
always come to a session; and over the sessions they come to, whatever a network
without their keys does, each end hears a prefix of the signal messages the other
has sent. -/
theorem call_between_devices (hmatch : keys.PairsMatch lib verify publicOf)
    (h : snow.TakesTurns half) (hcomplete : snow.Completes half publicOf)
    (hagree : snow.Agrees half view) (hseal : snow.SealsWith aead view)
    {events : Side → List PhoneEvent} (hevents : ∀ x, GenuineEvents keys (events x))
    (pair : Side → HexKeypair)
    (hpair : ∀ x, (phone.run freshDevice (events x)).answers .noise = .of (some (pair x))) :
    ∃ ends, CallBetween snow pair ends ∧ ∀ es, HeardFromPeer ends es →
      (NoneLost ends es → ∃ rest, HeardFromPeer ends (es ++ rest) ∧
        ∀ x, ∃ t, t ∈ sessionsAt x ends (es ++ rest)) ∧
      ∀ t : Side → NoiseTransport snow, (∀ x, t x ∈ sessionsAt x ends es) →
        ∃ k, ∀ calls : List SignalCall, NetworkHasNoKey aead k t (calls.map SignalCall.call) →
          (∀ x message, .send x message ∈ calls → message.Representable) →
            ∀ x, signalsTo x.peer t calls <+: signalsFrom x t calls := by
  have hhalves : ∀ x, ∃ k, hex32 (pair x).privateHex = .ok k ∧
      hex32 (pair x).publicHex = .ok (publicOf k) := fun x =>
    (read_generated (hevents x) (.inl (hpair x))).halvesMatch hmatch
  obtain ⟨ends, hcall, hends⟩ := exists_callBetween h hcomplete
    (fun x => (hhalves x).choose_spec.1) (fun x => (hhalves x).choose_spec.2)
  refine ⟨ends, hcall, fun es hheard => ⟨fun hkept => ?_, fun t ht => ?_⟩⟩
  · exact Going.finish h hcomplete hends ⟨rfl, rfl, rfl⟩ ⟨hheard, hkept⟩
  · obtain ⟨k, hopened⟩ := sessions_open h hagree hends hheard ht
    exact ⟨k, fun calls hcalls hrep x => (signals_received hseal hopened x hcalls (hrep x)).1⟩

/-- Two devices with the same keys, both restarted, set up a call. -/
theorem call_between_devices_restarted :
    let real := generateNoiseIdentity fixedKeys ()
    ∃ ends rest, CallBetween scriptedSnow (fun _ => ⟨real.publicHex, real.privateHex⟩) ends ∧
      ∃ t : Side → NoiseTransport scriptedSnow, (∀ x, t x ∈ sessionsAt x ends rest) ∧
        ∃ k, ∀ calls : List SignalCall,
          NetworkHasNoKey countedAead k t (calls.map SignalCall.call) →
            (∀ x message, .send x message ∈ calls → message.Representable) →
              ∀ x, signalsTo x.peer t calls <+: signalsFrom x t calls := by
  intro real
  obtain ⟨ends, hcall, hall⟩ := call_between_devices fixedKeys_pairsMatch scriptedSnow_takesTurns
    (scriptedSnow_completes fixedPublic) scriptedSnow_agrees scriptedSnow_sealsWith
    (fun _ => fixedEvents_genuine) (fun _ => ⟨real.publicHex, real.privateHex⟩) (fun _ => rfl)
  have hheard : HeardFromPeer ends [] := fun pre x msg reply hpre => by simp at hpre
  have hkept : NoneLost ends [] := by
    intro x _
    cases x with
    | initiator =>
      obtain ⟨hs, heq⟩ := NoiseHandshake.exists_handshake_of_newInitiator hcall.initiator
      rw [Mealy.run_nil, heq]
      rfl
    | responder =>
      obtain ⟨hs, heq⟩ := NoiseHandshake.exists_handshake_of_newResponder hcall.responder
      rw [Mealy.run_nil, heq]
      rfl
  obtain ⟨rest, hheard, hsessions⟩ := (hall [] hheard).1 hkept
  have ht := fun x => (hsessions x).choose_spec
  exact ⟨ends, rest, hcall, _, ht, (hall rest hheard).2 _ ht⟩

end CtAgentAndroid
