import CtAgentAndroid.CountedNoise
import CtAgentAndroid.HandshakeTurns

/-! # Handshakes of a Noise library without cryptography

`countedSnow` with handshakes that know their keys and the messages that have
passed.  A message is the payload behind as many bytes as the real one has.  It
keeps the promises `Snow.TakesTurns`, `Snow.Agrees` and `Snow.Completes`, so a
statement about handshakes can be tried on it.
-/
namespace CtAgentAndroid
open Rust

namespace Half

/-- The bytes of the next message that are not payload. -/
def overhead (h : Half) : Nat := if h.passed = [] then 96 else 48

/-- One message, in its turn. -/
def exchange (h : Half) (way : Way) (result : MessageBuffer × Except String Nat)
    (bytes : Nat → List UInt8) (buf : MessageBuffer) : Half × MessageBuffer × Except String Nat :=
  if h.turn = some way then
    match result with
    | (buf, .ok n) => (h.pass (bytes n), buf, .ok n)
    | (buf, .error e) => (h, buf, .error e)
  else (h, buf, .error "state error: NotTurn")

section Exchange
variable {h : Half} {way : Way} {result : MessageBuffer × Except String Nat}
  {bytes : Nat → List UInt8} {buf : MessageBuffer}

theorem exchange_of_ok {n : Nat} (hturn : h.turn = some way) (hresult : result.2 = .ok n) :
    h.exchange way result bytes buf = (h.pass (bytes n), result.1, .ok n) := by
  obtain ⟨buf', used⟩ := result
  obtain rfl : used = .ok n := hresult
  exact if_pos hturn

theorem exchange_ok_iff {n : Nat} :
    (h.exchange way result bytes buf).2.2 = .ok n ↔ h.turn = some way ∧ result.2 = .ok n := by
  constructor
  · intro hok
    unfold exchange at hok
    split at hok
    · next hturn =>
      obtain ⟨buf', e | m⟩ := result
      · cases hok
      · exact ⟨hturn, hok⟩
    · cases hok
  · rintro ⟨hturn, hresult⟩
    rw [exchange_of_ok hturn hresult]

theorem exchange_of_error {e : String} (herror : (h.exchange way result bytes buf).2.2 = .error e) :
    (h.exchange way result bytes buf).1 = h := by
  by_cases hturn : h.turn = some way
  · obtain ⟨buf', e' | n⟩ := result
    · exact congrArg Prod.fst (if_pos hturn)
    · rw [exchange_of_ok hturn rfl] at herror
      cases herror
  · exact congrArg Prod.fst (if_neg hturn)

end Exchange
end Half

/-- The library. -/
def scriptedSnow : Snow where
  HandshakeState := Half
  TransportState := Endpoint Side
  clientHandshake own remote := .ok ⟨.initiator, own, some remote, []⟩
  originHandshake own := .ok ⟨.responder, own, none, []⟩
  writeHandshake h payload buf :=
    h.exchange .written (plainSeal h.overhead payload buf)
      (fun n => (plainSeal h.overhead payload buf).1.toList.take n) buf
  readHandshake h msg buf := h.exchange .read (plainOpen h.overhead msg buf) (fun _ => msg) buf
  isHandshakeFinished h := decide (h.turn = none)
  intoTransportMode h :=
    if h.turn = none then .ok ⟨h.side, h.side.peer, 0, 0⟩
    else .error "state error: HandshakeNotFinished"
  writeTransport := countedSnow.writeTransport
  readTransport := countedSnow.readTransport

theorem scriptedSnow_sealsWith : scriptedSnow.SealsWith countedAead id where
  fits := countedSnow_sealsWith.fits
  writes := countedSnow_sealsWith.writes
  unwritten := countedSnow_sealsWith.unwritten
  reads := countedSnow_sealsWith.reads
  unread := countedSnow_sealsWith.unread

theorem scriptedSnow_takesTurns : scriptedSnow.TakesTurns id where
  client h := (Except.ok.inj h).symm
  origin h := (Except.ok.inj h).symm
  writes {h payload buf n} hok := by
    obtain ⟨hturn, hseal⟩ := Half.exchange_ok_iff.mp hok
    have hwrite : scriptedSnow.writeHandshake h payload buf = _ := Half.exchange_of_ok hturn hseal
    rw [hwrite]
    exact ⟨plainSeal_fits hseal, hturn, rfl⟩
  unwritten herror := Half.exchange_of_error herror
  reads {h msg buf n} hok := by
    obtain ⟨hturn, hopen⟩ := Half.exchange_ok_iff.mp hok
    have hread : scriptedSnow.readHandshake h msg buf = _ := Half.exchange_of_ok hturn hopen
    rw [hread]
    exact ⟨plainOpen_fits hopen, hturn, rfl⟩
  unread herror := Half.exchange_of_error herror
  finished h := decide_eq_true_iff
  converts h := by
    by_cases hdone : Half.turn h = none
    · exact iff_of_true ⟨_, if_pos hdone⟩ hdone
    · refine iff_of_false ?_ hdone
      rintro ⟨t, ht⟩
      cases (if_neg hdone).symm.trans ht

/-- Each side keeps its own key, whatever has passed. -/
theorem scriptedSnow_agrees : scriptedSnow.Agrees id (id : scriptedSnow.TransportState → _) where
  opens {h h' t t'} hside hside' _ ht ht' := by
    have value : ∀ {g : Half} {u : Endpoint Side}, scriptedSnow.intoTransportMode g = .ok u →
        u = ⟨g.side, g.side.peer, 0, 0⟩ := by
      intro g u hu
      change (if g.turn = none then _ else _) = Except.ok u at hu
      split at hu
      · exact (Except.ok.inj hu).symm
      · cases hu
    refine ⟨id, nofun, ?_, ?_⟩
    · rw [value ht]
      change Endpoint.mk (h : Half).side _ 0 0 = _
      rw [show (h : Half).side = .initiator from hside]
      rfl
    · rw [value ht']
      change Endpoint.mk (h' : Half).side _ 0 0 = _
      rw [show (h' : Half).side = .responder from hside']
      rfl

/-- What is written is the payload behind zeros. -/
theorem writes_eq {h : Half} {payload m : List UInt8} (hm : scriptedSnow.Writes h payload m) :
    h.turn = some .written ∧ h.overhead + payload.length ≤ NOISE_MAX_MESSAGE ∧
      m = List.replicate h.overhead 0 ++ payload := by
  obtain ⟨n, hok, rfl⟩ := hm
  obtain ⟨hturn, hseal⟩ := Half.exchange_ok_iff.mp hok
  have hwrite : scriptedSnow.writeHandshake h payload zeroed = _ :=
    Half.exchange_of_ok hturn hseal
  rw [hwrite]
  obtain ⟨hfits, rfl⟩ := plainSeal_ok_iff.mp hseal
  refine ⟨hturn, hfits, ?_⟩
  have hlength : (List.replicate h.overhead (0 : UInt8) ++ payload).length =
      h.overhead + payload.length := by
    rw [List.length_append, List.length_replicate]
  show (plainSeal h.overhead payload zeroed).1.toList.take (h.overhead + payload.length) = _
  rw [plainSeal, if_pos hfits, ← hlength]
  exact fill_take ((Nat.le_of_eq hlength).trans hfits) zeroed

/-- When one side is to write, the other is to read. -/
theorem turn_of_written {h h' : Half} (hside : h'.side ≠ h.side) (hpassed : h.passed = h'.passed)
    (hturn : h.turn = some .written) : h'.turn = some .read := by
  rw [Half.turn, Side.eq_peer_of_ne hside, ← hpassed]
  unfold Half.turn at hturn
  generalize h.passed.length = n at hturn ⊢
  generalize h.side = x at hturn ⊢
  cases x with
  | initiator =>
    obtain rfl : n = 0 := by
      rcases n with _ | _ | n
      · rfl
      · cases hturn
      · cases hturn
    rfl
  | responder =>
    obtain rfl : n = 1 := by
      rcases n with _ | _ | n
      · cases hturn
      · rfl
      · cases hturn
    rfl

theorem scriptedSnow_completes (publicOf : Vector UInt8 32 → Vector UInt8 32) :
    scriptedSnow.Completes id publicOf where
  client own remote := ⟨_, rfl⟩
  origin own := ⟨_, rfl⟩
  writes {h payload} hturn hfits := by
    have hle : Half.overhead h ≤ HANDSHAKE_OVERHEAD := by
      unfold Half.overhead
      split <;> decide
    have hseal : (plainSeal (Half.overhead h) payload zeroed).2 =
        .ok (Half.overhead h + payload.length) := plainSeal_ok_iff.mpr ⟨by omega, rfl⟩
    exact ⟨_, _, Half.exchange_ok_iff.mpr ⟨hturn, hseal⟩, rfl⟩
  reads {h h' payload m} hknows hpassed hwrites := by
    obtain ⟨hturn, hfits, rfl⟩ := writes_eq hwrites
    have hside : Half.side h' ≠ Half.side h := by
      rcases hknows with ⟨hi, hr, -⟩ | ⟨hi, hr, -⟩
      · exact fun heq => nomatch hr.symm.trans (heq.trans hi)
      · exact fun heq => nomatch hi.symm.trans (heq.trans hr)
    have hoverhead : Half.overhead h' = Half.overhead h :=
      congrArg (fun passed => if passed = [] then 96 else 48) hpassed.symm
    have hopen : (plainOpen (Half.overhead h')
        (List.replicate (Half.overhead h) 0 ++ payload) zeroed).2 = .ok payload.length := by
      rw [hoverhead, plainOpen, List.length_append, List.length_replicate,
        if_pos ⟨Nat.le_add_right _ _, hfits⟩, Nat.add_sub_cancel_left]
    exact ⟨_, Half.exchange_ok_iff.mpr ⟨turn_of_written hside hpassed hturn, hopen⟩⟩

/-! ## Steps of a handshake -/

section Steps
variable {h : Half}

theorem scripted_write {payload m : List UInt8} (hm : List.replicate h.overhead 0 ++ payload = m)
    (hturn : h.turn = some .written) (hfits : h.overhead + payload.length ≤ NOISE_MAX_MESSAGE) :
    (noiseHandshake scriptedSnow).step (.new (some h)) (.writeMessage payload) =
      (.new (some (h.pass m)), .ok (.message m)) := by
  have hseal : (plainSeal h.overhead payload zeroed).2 = .ok (h.overhead + payload.length) :=
    plainSeal_ok_iff.mpr ⟨hfits, rfl⟩
  have hok : (scriptedSnow.writeHandshake h payload zeroed).2.2 =
      .ok (h.overhead + payload.length) := Half.exchange_ok_iff.mpr ⟨hturn, hseal⟩
  have hbytes := (writes_eq ⟨_, hok, rfl⟩).2.2
  have hmoved := (scriptedSnow_takesTurns.writes hok).2.2
  have hcall := (@withLock_message scriptedSnow scriptedSnow.writeHandshake h payload).1 _ hok hfits
  rw [hbytes, hm] at hmoved hcall
  rw [show (scriptedSnow.writeHandshake h payload zeroed).1 = h.pass m from hmoved] at hcall
  show (_, HandshakeReply.message <$> (NoiseHandshake.writeMessage _ _).2) = _
  rw [NoiseHandshake.writeMessage, hcall]
  rfl

theorem scripted_read {payload m : List UInt8} (hm : List.replicate h.overhead 0 ++ payload = m)
    (hturn : h.turn = some .read) (hfits : h.overhead + payload.length ≤ NOISE_MAX_MESSAGE) :
    (noiseHandshake scriptedSnow).step (.new (some h)) (.readMessage m) =
      (.new (some (h.pass m)), .ok (.message payload)) := by
  have hlength : m.length = h.overhead + payload.length := by
    rw [← hm, List.length_append, List.length_replicate]
  have hopen : plainOpen h.overhead m zeroed = (fill payload zeroed, .ok payload.length) := by
    rw [plainOpen, hlength, if_pos ⟨Nat.le_add_right _ _, hfits⟩, Nat.add_sub_cancel_left, ← hm,
      List.drop_left' (List.length_replicate ..)]
  have hread : scriptedSnow.readHandshake h m zeroed =
      (h.pass m, fill payload zeroed, .ok payload.length) := by
    show h.exchange .read (plainOpen _ _ _) _ _ = _
    rw [hopen]
    exact Half.exchange_of_ok hturn rfl
  have hcall := (@withLock_message scriptedSnow scriptedSnow.readHandshake h m).1 payload.length
    (by rw [hread]) (by omega)
  rw [hread, fill_take (by omega)] at hcall
  show (_, HandshakeReply.message <$> (NoiseHandshake.readMessage _ _).2) = _
  rw [NoiseHandshake.readMessage, hcall]
  rfl

theorem scripted_convert (hturn : h.turn = none) :
    (noiseHandshake scriptedSnow).step (.new (some h)) .intoTransport =
      (.new none, .ok (.transport (.new ⟨h.side, h.side.peer, 0, 0⟩))) := by
  have hconvert : scriptedSnow.intoTransportMode h = .ok ⟨h.side, h.side.peer, 0, 0⟩ :=
    if_pos hturn
  exact Prod.ext (next_intoTransport ..) (out_intoTransport_ok hconvert)

end Steps

end CtAgentAndroid
