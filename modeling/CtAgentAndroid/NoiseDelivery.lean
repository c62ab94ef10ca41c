import CtAgentAndroid.CountedNoise

/-! # What a Noise session delivers

Both directions of a session are channels, and a network without their keys forges
nothing in either: what it turns round to its own sender is sealed under another
key (`direction_unforged`).  So every end has a prefix of what the other has sent
(`session_in_order`), and it is known how long a prefix (`session_received_iff`):
`NoiseTransport` has no way to skip a message, so one that is lost ends its
direction.

The same holds of the signal messages that are encrypted and decrypted
(`signals_delivered`): what is decrypted can be decoded.
-/
namespace CtAgentAndroid
open Rust Automaton SealedChannel

variable {snow : Snow} {Key : Type} {aead : Aead Key} {view : snow.TransportState → Endpoint Key}
  {k : Side → Key} {ends : Side → NoiseTransport snow}

/-! ## What is seen of the session, and of the channel -/

/-- The part of a run that concerns the direction from `x`. -/
def alongIn (x : Side) (es : List SessionCall) : List (Event (List UInt8) (List UInt8)) :=
  es.filterMap (SessionCall.along x)

/-- What a reading of the trace finds in that direction, a reading of the
channel's finds there. -/
theorem filterMap_alongIn {β : Type} (h : snow.SealsWith aead view) (hends : Opened view k ends)
    (x : Side) {P : SessionCall × Outcome CtAgentError (List UInt8) → Option β}
    {Q : Event (List UInt8) (List UInt8) × Answer (List UInt8) (List UInt8) → Option β}
    (hskip : ∀ call o, call.along x = none → P (call, o) = none)
    (hsealed : ∀ p c, P (.encrypt x p, .ok c) = Q (.send p, .sealed c))
    (hopened : ∀ c p, P (.decrypt x.peer c, .ok p) = Q (.deliver c, .opened p))
    (hunsent : ∀ p e, P (.encrypt x p, .err e) = Q (.send p, .refused))
    (hunopened : ∀ c e, P (.decrypt x.peer c, .err e) = Q (.deliver c, .refused))
    (es : List SessionCall) :
    ((noiseSession snow).trace ends es).filterMap P =
      ((channel (aead.under (k x))).trace .empty (alongIn x es)).filterMap Q := by
  refine (noiseSession_refines h k x).filterMap_trace hskip ?_ (hends.direction x) es
  rintro call f o o' hcall (⟨p, c⟩ | ⟨c, p⟩ | ⟨f, e⟩)
  · rw [SessionCall.along_eq_send hcall, hsealed]
  · rw [SessionCall.along_eq_deliver hcall, hopened]
  · cases f with
    | send p => rw [SessionCall.along_eq_send hcall, hunsent]
    | deliver c => rw [SessionCall.along_eq_deliver hcall, hunopened]

theorem sentFrom_eq (h : snow.SealsWith aead view) (hends : Opened view k ends) (x : Side)
    (es : List SessionCall) :
    sentFrom x ends es = ((channel (aead.under (k x))).run .empty (alongIn x es)).sent := by
  rw [← (filterMap_trace_run _).1]
  refine filterMap_alongIn h hends x ?_ (fun _ _ => if_pos rfl) (fun _ _ => rfl) (fun _ _ => rfl)
    (fun _ _ => rfl) es
  rintro (⟨y, p⟩ | ⟨y, c⟩) (c' | e | _) hskip <;>
    first | rfl | exact if_neg (SessionCall.ne_of_encrypt_along hskip)

theorem ciphertextsFrom_eq (h : snow.SealsWith aead view) (hends : Opened view k ends)
    (x : Side) (es : List SessionCall) :
    ciphertextsFrom x ends es = sealedIn (aead.under (k x)) (alongIn x es) := by
  refine filterMap_alongIn h hends x ?_ (fun _ _ => if_pos rfl) (fun _ _ => rfl) (fun _ _ => rfl)
    (fun _ _ => rfl) es
  rintro (⟨y, p⟩ | ⟨y, c⟩) (c' | e | _) hskip <;>
    first | rfl | exact if_neg (SessionCall.ne_of_encrypt_along hskip)

theorem receivedBy_eq (h : snow.SealsWith aead view) (hends : Opened view k ends) (x : Side)
    (es : List SessionCall) :
    receivedBy x.peer ends es = ((channel (aead.under (k x))).run .empty (alongIn x es)).got := by
  rw [← (filterMap_trace_run _).2]
  refine filterMap_alongIn h hends x ?_ (fun _ _ => rfl) (fun _ _ => if_pos rfl) (fun _ _ => rfl)
    (fun _ _ => rfl) es
  rintro (⟨y, p⟩ | ⟨y, c⟩) (c' | e | _) hskip <;>
    first | rfl | exact if_neg (SessionCall.ne_of_decrypt_along hskip)

theorem deliveriesTo_eq (x : Side) (es : List SessionCall) :
    deliveriesTo x.peer es = deliveredIn (alongIn x es) := by
  rw [deliveriesTo, deliveredIn, alongIn, List.filterMap_filterMap]
  congr 1
  funext call
  cases call with
  | encrypt y p =>
    by_cases hy : y = x
    · simp [SessionCall.along, SessionCall.deliveredTo, Event.delivered, hy]
    · simp [SessionCall.along, SessionCall.deliveredTo, hy]
  | decrypt y c =>
    by_cases hy : y = x.peer
    · simp [SessionCall.along, SessionCall.deliveredTo, Event.delivered, hy]
    · simp [SessionCall.along, SessionCall.deliveredTo, hy]

theorem NetworkHasNoKey.concat {es : List SessionCall} (h : NetworkHasNoKey aead k ends es)
    {call : SessionCall} (hcall : ∀ x c, call = .decrypt x c →
      (∃ y, c ∈ ciphertextsFrom y ends es) ∨ ¬ (aead.under (k x.peer)).Seals c) :
    NetworkHasNoKey aead k ends (es ++ [call]) := by
  intro pre x c hpre
  rcases List.prefix_concat_iff.mp hpre with heq | hpre
  · obtain ⟨rfl, hlast⟩ := List.append_inj' heq rfl
    exact hcall x c (List.singleton_inj.mp hlast).symm
  · exact h pre x c hpre

/-- A network without a key forges nothing in either direction: what was made in
the other one is sealed under another key. -/
theorem direction_unforged (h : snow.SealsWith aead view) (hends : Opened view k ends)
    (x : Side) {es : List SessionCall} (hes : NetworkHasNoKey aead k ends es) :
    Unforged (aead.under (k x)) (alongIn x es) := by
  induction es using List.reverseRecOn with
  | nil => exact fun pre c hpre => by simp [alongIn] at hpre
  | append_singleton es call ih =>
    have hpre : NetworkHasNoKey aead k ends es := fun pre y c hpre =>
      hes pre y c (hpre.trans (List.prefix_append es [call]))
    rw [alongIn, List.filterMap_append]
    rcases hcall : call.along x with _ | f
    · rw [List.filterMap_cons_none hcall, List.filterMap_nil, List.append_nil]
      exact ih hpre
    · rw [List.filterMap_cons_some hcall, List.filterMap_nil]
      refine (unforged_concat_iff _).mpr ⟨ih hpre, ?_⟩
      rintro c rfl
      obtain rfl := SessionCall.along_eq_deliver hcall
      rcases hes es x.peer c (List.prefix_refl _) with ⟨y, hc⟩ | hno
      · rw [ciphertextsFrom_eq h hends] at hc
        by_cases hy : y = x
        · exact .inl (hy ▸ hc)
        · right
          rintro ⟨n, p, hp⟩
          obtain ⟨m, q, hq⟩ := seals_of_mem _ hc
          rw [Side.eq_peer_of_ne hy] at hq
          exact hends.keys_ne x (aead.key_eq hq hp)
      · rw [Side.peer_peer] at hno
        exact .inr hno


/-! ## What a session promises -/

/-- **In order, from the peer.**  Whatever the network loses, repeats, reorders or
makes up, each end has received a prefix of what the other has sent. -/
theorem session_in_order (h : snow.SealsWith aead view) (hends : Opened view k ends) (x : Side)
    {es : List SessionCall} (hes : NetworkHasNoKey aead k ends es) :
    receivedBy x.peer ends es <+: sentFrom x ends es := by
  rw [receivedBy_eq h hends, sentFrom_eq h hends]
  exact in_order (direction_unforged h hends x hes)

/-- The second message overtakes the first, then noise, the first, and the first
again. -/
def overtaken : List SessionCall :=
  [.encrypt .initiator [1], .encrypt .initiator [2],
    .decrypt .responder (countedTag .initiator 1 ++ [2]), .decrypt .responder [],
    .decrypt .responder (countedTag .initiator 0 ++ [1]),
    .decrypt .responder (countedTag .initiator 0 ++ [1])]

theorem networkHasNoKey_nil : NetworkHasNoKey countedAead id countedEnds [] := by
  intro pre x c hpre
  simp at hpre

theorem mem_ciphertextsFrom {x : Side} {es : List SessionCall} {c : List UInt8}
    (h : c ∈ sealedIn (countedAead.under x) (alongIn x es)) :
    ∃ y, c ∈ ciphertextsFrom y countedEnds es := by
  refine ⟨x, ?_⟩
  rwa [ciphertextsFrom_eq countedSnow_sealsWith countedEnds_opened]

theorem overtaken_hasNoKey : NetworkHasNoKey countedAead id countedEnds overtaken := by
  have noise : ¬ (countedAead.under .initiator).Seals [] := by
    rintro ⟨n, p, hp⟩
    obtain ⟨-, -, hp⟩ := countedSeal_eq_some_iff.mp hp
    cases hp
  refine ((((((networkHasNoKey_nil.concat ?_).concat ?_).concat ?_).concat ?_).concat
    ?_).concat ?_ : NetworkHasNoKey _ _ _ ([] ++ [_] ++ [_] ++ [_] ++ [_] ++ [_] ++ [_]))
  · nofun
  · nofun
  · rintro x c ⟨⟩
    exact .inl (mem_ciphertextsFrom (x := .initiator) (by decide))
  · rintro x c ⟨⟩
    exact .inr noise
  · rintro x c ⟨⟩
    exact .inl (mem_ciphertextsFrom (x := .initiator) (by decide))
  · rintro x c ⟨⟩
    exact .inl (mem_ciphertextsFrom (x := .initiator) (by decide))

theorem session_in_order_overtaken :
    receivedBy .responder countedEnds overtaken <+: sentFrom .initiator countedEnds overtaken :=
  session_in_order countedSnow_sealsWith countedEnds_opened .initiator overtaken_hasNoKey

/-- **How much gets through.**  The first `n` messages have been received exactly
when their ciphertexts were handed over in order, whatever came in between: one
that is lost holds up its direction for good. -/
theorem session_received_iff (h : snow.SealsWith aead view) (hends : Opened view k ends)
    (x : Side) {es : List SessionCall} (hes : NetworkHasNoKey aead k ends es) {n : Nat}
    (hn : n ≤ (sentFrom x ends es).length) :
    n ≤ (receivedBy x.peer ends es).length ↔
      ((ciphertextsFrom x ends es).take n).Sublist (deliveriesTo x.peer es) := by
  rw [sentFrom_eq h hends] at hn
  rw [receivedBy_eq h hends, ciphertextsFrom_eq h hends, deliveriesTo_eq]
  exact received_iff_sublist (direction_unforged h hends x hes) hn

theorem session_received_overtaken :
    2 ≤ (receivedBy .responder countedEnds overtaken).length ↔
      ((ciphertextsFrom .initiator countedEnds overtaken).take 2).Sublist
        (deliveriesTo .responder overtaken) := by
  refine session_received_iff countedSnow_sealsWith countedEnds_opened .initiator
    overtaken_hasNoKey ?_
  rw [sentFrom_eq countedSnow_sealsWith countedEnds_opened]
  decide

/-- **What is accepted.**  After any run, an end decrypts a ciphertext exactly when
it is that of the next message it is to receive, and gets that message. -/
theorem session_accepts_iff (h : snow.SealsWith aead view) (hends : Opened view k ends)
    (x : Side) {es : List SessionCall} {c p : List UInt8}
    (hes : NetworkHasNoKey aead k ends (es ++ [.decrypt x.peer c])) :
    (((noiseSession snow).run ends es x.peer).decrypt c).2 = .ok p ↔
      (sentFrom x ends es)[(receivedBy x.peer ends es).length]? = some p ∧
        (ciphertextsFrom x ends es)[(receivedBy x.peer ends es).length]? = some c := by
  have hunforged := direction_unforged h hends x hes
  have hlast : alongIn x (es ++ [.decrypt x.peer c]) = alongIn x es ++ [.deliver c] := by
    rw [alongIn, List.filterMap_append]
    exact congrArg (alongIn x es ++ ·) (List.filterMap_cons_some (if_pos rfl))
  rw [hlast] at hunforged
  have hrefines := noiseSession_refines h k x
  have hagree := hrefines.answer (hrefines.run (hends.direction x) es)
    (show SessionCall.along x (.decrypt x.peer c) = some (.deliver c) from if_pos rfl)
  rw [sentFrom_eq h hends, ciphertextsFrom_eq h hends, receivedBy_eq h hends]
  refine Iff.trans ?_ (opened_iff hunforged)
  show (noiseSession snow).out _ (.decrypt x.peer c) = .ok p ↔ _
  generalize (noiseSession snow).out _ (.decrypt x.peer c) = o at hagree ⊢
  change Agrees _ o ((channel _).out ((channel _).run .empty (alongIn x es)) _) at hagree
  generalize (channel (aead.under (k x))).out _ (.deliver c) = a at hagree ⊢
  cases hagree with
  | opened _ q => rw [Outcome.ok.injEq, Answer.opened.injEq]
  | refused _ e => exact iff_of_false nofun nofun

/-- After all of it, the second message is the one awaited. -/
theorem session_accepts_overtaken :
    (((noiseSession countedSnow).run countedEnds overtaken .responder).decrypt
        (countedTag .initiator 1 ++ [2])).2 = .ok [2] ↔
      (sentFrom .initiator countedEnds overtaken)[(receivedBy .responder countedEnds
          overtaken).length]? = some [2] ∧
        (ciphertextsFrom .initiator countedEnds overtaken)[(receivedBy .responder countedEnds
          overtaken).length]? = some (countedTag .initiator 1 ++ [2]) := by
  refine session_accepts_iff countedSnow_sealsWith countedEnds_opened .initiator
    (overtaken_hasNoKey.concat ?_)
  rintro x c ⟨⟩
  exact .inl (mem_ciphertextsFrom (x := .initiator) (by decide))

/-- What an end makes is what it has sent, sealed under its key and numbered. -/
theorem ciphertextsFrom_sealed (h : snow.SealsWith aead view) (hends : Opened view k ends)
    (x : Side) (es : List SessionCall) {i : Nat} {c : List UInt8}
    (hc : (ciphertextsFrom x ends es)[i]? = some c) :
    ∃ p, (sentFrom x ends es)[i]? = some p ∧ (aead.under (k x)).sealAt i p = some c := by
  rw [ciphertextsFrom_eq h hends] at hc
  rw [sentFrom_eq h hends]
  exact (sealedAs_run _ _).sealAt_getElem hc

/-- **No nonce is used twice.**  The ciphertext number `i` of an end is its message
number `i` under its key with the nonce `i`, and the keys of the two ends differ; so
all the ciphertexts of a session differ, those of the two ends included. -/
theorem session_ciphertexts_nodup (h : snow.SealsWith aead view) (hends : Opened view k ends)
    (es : List SessionCall) :
    (∀ x i c, (ciphertextsFrom x ends es)[i]? = some c →
        ∃ p, (sentFrom x ends es)[i]? = some p ∧ (aead.under (k x)).sealAt i p = some c) ∧
      k .initiator ≠ k .responder ∧
      (ciphertextsFrom .initiator ends es ++ ciphertextsFrom .responder ends es).Nodup := by
  refine ⟨fun x i c => ciphertextsFrom_sealed h hends x es, hends.keys_ne .responder, ?_⟩
  rw [ciphertextsFrom_eq h hends, ciphertextsFrom_eq h hends]
  refine List.nodup_append'.mpr ⟨sealedIn_nodup _ _, sealedIn_nodup _ _, ?_⟩
  intro c hc hc'
  obtain ⟨n, p, hp⟩ := seals_of_mem _ hc
  obtain ⟨m, q, hq⟩ := seals_of_mem _ hc'
  exact hends.keys_ne .initiator (aead.key_eq hq hp)

theorem session_ciphertexts_nodup_overtaken :
    (∀ x i c, (ciphertextsFrom x countedEnds overtaken)[i]? = some c →
        ∃ p, (sentFrom x countedEnds overtaken)[i]? = some p ∧
          (countedAead.under x).sealAt i p = some c) ∧
      Side.initiator ≠ Side.responder ∧
      (ciphertextsFrom .initiator countedEnds overtaken ++
        ciphertextsFrom .responder countedEnds overtaken).Nodup :=
  session_ciphertexts_nodup countedSnow_sealsWith countedEnds_opened overtaken

/-! ## Signal messages -/

/-- A signal message sent or awaited at one end. -/
inductive SignalCall where
  | send (x : Side) (message : SignalMessage)
  | receive (x : Side) (ciphertext : List UInt8)
  deriving DecidableEq, Repr

/-- What comes of it. -/
inductive SignalReply where
  | ciphertext (bytes : List UInt8)
  | message (message : SignalMessage)
  deriving DecidableEq, Repr

/-- Encode and encrypt, decrypt and decode. -/
def signalExchange (snow : Snow) :
    Mealy (Side → NoiseTransport snow) SignalCall (Outcome CtAgentError SignalReply) where
  step ends
    | .send x message =>
      (Function.update ends x ((ends x).encrypt message.encodeInner).1,
        .ciphertext <$> ((ends x).encrypt message.encodeInner).2)
    | .receive x ciphertext =>
      (Function.update ends x ((ends x).decrypt ciphertext).1,
        .message <$> (((ends x).decrypt ciphertext).2 >>= decodeSignalMessage))

namespace SignalCall

/-- The call on the session. -/
def call : SignalCall → SessionCall
  | send x message => .encrypt x message.encodeInner
  | receive x ciphertext => .decrypt x ciphertext

/-- The signal message that `x` has sent in a step. -/
def signalFrom (x : Side) : SignalCall × Outcome CtAgentError SignalReply → Option SignalMessage
  | (send y message, .ok _) => if y = x then some message else none
  | _ => none

/-- The signal message that `x` has received in a step. -/
def signalTo (x : Side) : SignalCall × Outcome CtAgentError SignalReply → Option SignalMessage
  | (receive y _, .ok (.message message)) => if y = x then some message else none
  | _ => none

end SignalCall

/-- The signal messages that `x` has sent, in order. -/
def signalsFrom (x : Side) (ends : Side → NoiseTransport snow) (es : List SignalCall) :
    List SignalMessage :=
  ((signalExchange snow).trace ends es).filterMap (SignalCall.signalFrom x)

/-- The signal messages that `x` has received, in order. -/
def signalsTo (x : Side) (ends : Side → NoiseTransport snow) (es : List SignalCall) :
    List SignalMessage :=
  ((signalExchange snow).trace ends es).filterMap (SignalCall.signalTo x)

/-- The message in a plaintext, if there is one. -/
def readSignal (plaintext : List UInt8) : Option SignalMessage :=
  match decodeSignalMessage plaintext with
  | .ok message => some message
  | _ => none

theorem readSignal_encodeInner {message : SignalMessage} (h : message.Representable) :
    readSignal message.encodeInner = some message := by
  have hdecode : decodeSignalMessage message.encodeInner = .ok message :=
    decodeInner_eq_ok_iff.mpr ⟨h, List.prefix_refl _⟩
  rw [readSignal, hdecode]

/-- The answer to a signal call, given that to the call on the session. -/
def ReadsAs (call : SessionCall) (reply : Outcome CtAgentError SignalReply)
    (bytes : Outcome CtAgentError (List UInt8)) : Prop :=
  match call with
  | .encrypt _ _ => reply = .ciphertext <$> bytes
  | .decrypt _ _ => reply = .message <$> (bytes >>= decodeSignalMessage)

theorem signalExchange_refines (snow : Snow) :
    (signalExchange snow).Refines (noiseSession snow) (· = ·) (fun e => some e.call) ReadsAs where
  skip _ hcall := nomatch hcall
  follow {_ _ e f} hends hcall := by
    obtain rfl := hends
    obtain rfl := Option.some.inj hcall
    cases e <;> rfl
  answer {_ _ e f} hends hcall := by
    obtain rfl := hends
    obtain rfl := Option.some.inj hcall
    cases e <;> rfl

/-- The signal messages sent are the plaintexts sent. -/
theorem signalsFrom_map (x : Side) (ends : Side → NoiseTransport snow) (es : List SignalCall) :
    (signalsFrom x ends es).map SignalMessage.encodeInner =
      sentFrom x ends (es.map SignalCall.call) := by
  rw [signalsFrom, List.map_filterMap, ← List.filterMap_eq_map]
  refine (signalExchange_refines snow).filterMap_trace (fun _ _ hcall => nomatch hcall) ?_ rfl es
  rintro e f reply bytes hcall hreads
  obtain rfl := Option.some.inj hcall
  cases e with
  | send y message =>
    obtain rfl : reply = .ciphertext <$> bytes := hreads
    cases bytes with
    | ok c => exact apply_ite (Option.map SignalMessage.encodeInner) (y = x) (some message) none
    | err e => rfl
    | panicked => rfl
  | receive y c => cases reply <;> rfl

/-- The signal messages received are what the plaintexts received read as. -/
theorem signalsTo_eq (x : Side) (ends : Side → NoiseTransport snow) (es : List SignalCall) :
    signalsTo x ends es = (receivedBy x ends (es.map SignalCall.call)).filterMap readSignal := by
  rw [receivedBy, List.filterMap_filterMap, ← List.filterMap_eq_map]
  refine (signalExchange_refines snow).filterMap_trace (fun _ _ hcall => nomatch hcall) ?_ rfl es
  rintro e f reply bytes hcall hreads
  obtain rfl := Option.some.inj hcall
  cases e with
  | send y message => cases reply <;> cases bytes <;> rfl
  | receive y c =>
    obtain rfl : reply = .message <$> (bytes >>= decodeSignalMessage) := hreads
    cases bytes with
    | ok p =>
      show SignalCall.signalTo x (.receive y c, .message <$> decodeSignalMessage p) =
        (if y = x then some p else none).bind readSignal
      by_cases hy : y = x
      · rw [if_pos hy, Option.bind_some, readSignal]
        cases decodeSignalMessage p with
        | ok message => exact if_pos hy
        | err e => rfl
        | panicked => rfl
      · rw [if_neg hy]
        cases decodeSignalMessage p with
        | ok message => exact if_neg hy
        | err e => rfl
        | panicked => rfl
    | err e => rfl
    | panicked => rfl

theorem send_mem_of_mem_signalsFrom {x : Side} {ends : Side → NoiseTransport snow}
    {es : List SignalCall} {message : SignalMessage} (h : message ∈ signalsFrom x ends es) :
    .send x message ∈ es := by
  obtain ⟨⟨e, reply⟩, hmem, hread⟩ := List.mem_filterMap.mp h
  have he : e ∈ es := by
    rw [← (signalExchange snow).trace_map_fst ends es]
    exact List.mem_map_of_mem hmem
  cases e with
  | send y m =>
    cases reply with
    | ok r =>
      obtain ⟨rfl, hm⟩ := Option.ite_none_right_eq_some.mp hread
      exact Option.some.inj hm ▸ he
    | err e => cases hread
    | panicked => cases hread
  | receive y c => cases reply <;> cases hread

/-- The signal messages received at an end are those of the plaintexts received,
and these the encodings of a prefix of what was sent. -/
theorem signals_received (h : snow.SealsWith aead view) (hends : Opened view k ends) (x : Side)
    {es : List SignalCall} (hes : NetworkHasNoKey aead k ends (es.map SignalCall.call))
    (hrep : ∀ message, .send x message ∈ es → message.Representable) :
    signalsTo x.peer ends es <+: signalsFrom x ends es ∧
      (signalsTo x.peer ends es).map SignalMessage.encodeInner =
        receivedBy x.peer ends (es.map SignalCall.call) := by
  have hstarts : receivedBy x.peer ends (es.map SignalCall.call) <+:
      sentFrom x ends (es.map SignalCall.call) := by
    rw [receivedBy_eq h hends, sentFrom_eq h hends]
    exact in_order (direction_unforged h hends x hes)
  rw [← signalsFrom_map] at hstarts
  -- what has been received is the encoding of the first messages sent
  obtain ⟨ms, hms, hreceived⟩ := List.prefix_map_iff.mp hstarts
  have hread : signalsTo x.peer ends es = ms := by
    rw [signalsTo_eq, hreceived, List.filterMap_map]
    have hall : ∀ m ∈ ms, readSignal m.encodeInner = some m := fun m hm =>
      readSignal_encodeInner (hrep m (send_mem_of_mem_signalsFrom (hms.subset hm)))
    exact (List.filterMap_congr hall).trans List.filterMap_some
  rw [hread, hreceived]
  exact ⟨hms, rfl⟩

/-- **What the peers hear.**  The signal messages received at each end are a
prefix of those sent at the other, each as it was; and the first `n` have been
received exactly when their ciphertexts were handed over in order. -/
theorem signals_delivered (h : snow.SealsWith aead view) (hends : Opened view k ends) (x : Side)
    {es : List SignalCall} (hes : NetworkHasNoKey aead k ends (es.map SignalCall.call))
    (hrep : ∀ message, .send x message ∈ es → message.Representable) :
    signalsTo x.peer ends es <+: signalsFrom x ends es ∧
      ∀ n, n ≤ (signalsFrom x ends es).length →
        (n ≤ (signalsTo x.peer ends es).length ↔
          ((ciphertextsFrom x ends (es.map SignalCall.call)).take n).Sublist
            (deliveriesTo x.peer (es.map SignalCall.call))) := by
  obtain ⟨hstarts, hreceived⟩ := signals_received h hends x hes hrep
  refine ⟨hstarts, fun n hn => ?_⟩
  have hsent := congrArg List.length (signalsFrom_map x ends es)
  have hgot := congrArg List.length hreceived
  rw [List.length_map, sentFrom_eq h hends] at hsent
  rw [List.length_map, receivedBy_eq h hends] at hgot
  rw [hsent] at hn
  rw [hgot, ciphertextsFrom_eq h hends, deliveriesTo_eq]
  exact received_iff_sublist (direction_unforged h hends x hes) hn

/-- An offer and its candidate; the candidate comes first, and is not heard. -/
theorem signals_delivered_offer :
    let offer : SignalMessage := .offer "v=0"
    let candidate : SignalMessage := .iceCandidate "candidate:1" (some "audio") (some 0)
    let es : List SignalCall := [.send .initiator offer, .send .initiator candidate,
      .receive .responder (countedTag .initiator 1 ++ candidate.encodeInner),
      .receive .responder (countedTag .initiator 0 ++ offer.encodeInner)]
    signalsTo .responder countedEnds es <+: signalsFrom .initiator countedEnds es ∧
      ∀ n, n ≤ (signalsFrom .initiator countedEnds es).length →
        (n ≤ (signalsTo .responder countedEnds es).length ↔
          ((ciphertextsFrom .initiator countedEnds (es.map SignalCall.call)).take n).Sublist
            (deliveriesTo .responder (es.map SignalCall.call))) := by
  intro offer candidate es
  have hes : NetworkHasNoKey countedAead id countedEnds (es.map SignalCall.call) := by
    refine ((((networkHasNoKey_nil.concat ?_).concat ?_).concat ?_).concat ?_ :
      NetworkHasNoKey _ _ _ ([] ++ [_] ++ [_] ++ [_] ++ [_]))
    · nofun
    · nofun
    · rintro x c ⟨⟩
      exact .inl (mem_ciphertextsFrom (x := .initiator) (by decide))
    · rintro x c ⟨⟩
      exact .inl (mem_ciphertextsFrom (x := .initiator) (by decide))
  refine signals_delivered countedSnow_sealsWith countedEnds_opened .initiator hes fun m hm => ?_
  obtain rfl | rfl : m = offer ∨ m = candidate := by simpa [es] using hm
  · decide
  · decide

end CtAgentAndroid
