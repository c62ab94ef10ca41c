import CtAgentAndroid.Automaton
import CtAgentAndroid.NoiseSession

/-! # The life of a Noise handshake

The four methods of `NoiseHandshake` as one machine over the shared object, so
that a statement about a run is one about every interleaving of its callers.

The library converts a handshake only when it is finished, and the conversion
consumes it either way.  `into_transport` takes the handshake out of the object
before it tries, so a premature call loses it: the object is then the same as
after a successful call, and every later call is told that the handshake was
consumed.  `intoTransport_failsCleanly_iff` says that this is the only way a
failed `into_transport` changes anything.
-/
namespace CtAgentAndroid
open Rust Automaton

/-- A call on a `NoiseHandshake`. -/
inductive HandshakeCall where
  | writeMessage (payload : List UInt8)
  | readMessage (msg : List UInt8)
  | isFinished
  | intoTransport
  deriving DecidableEq, Repr

/-- What a successful call returns. -/
inductive HandshakeReply (snow : Snow) where
  | message (bytes : List UInt8)
  | finished (answer : Bool)
  | transport (session : NoiseTransport snow)

/-- The machine of the four methods. -/
def noiseHandshake (snow : Snow) :
    Mealy (NoiseHandshake snow) HandshakeCall (Outcome CtAgentError (HandshakeReply snow)) where
  step self
    | .writeMessage payload =>
      ((self.writeMessage payload).1, .message <$> (self.writeMessage payload).2)
    | .readMessage msg => ((self.readMessage msg).1, .message <$> (self.readMessage msg).2)
    | .isFinished => (self.isFinished.1, .finished <$> self.isFinished.2)
    | .intoTransport => (self.intoTransport.1, .transport <$> self.intoTransport.2)

/-- The library converts exactly the finished handshakes. -/
def Snow.ConvertsFinished (snow : Snow) : Prop :=
  ∀ hs, (∃ e, snow.intoTransportMode hs = .error e) ↔ snow.isHandshakeFinished hs = false

variable {snow : Snow}

/-! ## One exchange -/

section Exchange
variable {σ : Type} {call : BufferedCall σ} {state : σ} {payload : List UInt8}

/-- The buffer a method lends. -/
abbrev zeroed : MessageBuffer := Vector.replicate NOISE_MAX_MESSAGE 0

/-- The exchange, by what the library leaves behind. -/
theorem exchange_eq (call : BufferedCall σ) (state : σ) (payload : List UInt8) :
    exchange call state payload =
      ((call state payload zeroed).1,
        Outcome.mapErr CtAgentError.generic (call state payload zeroed).2.2 >>=
          sliceTo (call state payload zeroed).2.1.toList) := rfl

/-- A message that fits the buffer is cut out of it. -/
theorem exchange_of_ok {n : Nat} (h : (call state payload zeroed).2.2 = .ok n)
    (hn : n ≤ NOISE_MAX_MESSAGE) :
    exchange call state payload =
      ((call state payload zeroed).1, .ok ((call state payload zeroed).2.1.toList.take n)) := by
  have hslice : n ≤ (call state payload zeroed).2.1.toList.length := by
    rwa [Vector.length_toList]
  rw [exchange_eq, h, Outcome.mapErr_ok, Outcome.ok_bind, sliceTo_of_le hslice]

theorem exchange_of_error {e : String} (h : (call state payload zeroed).2.2 = .error e) :
    (exchange call state payload).2 = .err (.generic e) := by
  rw [exchange_eq, h]
  rfl

/-- An exchange returns if what it returns fits the buffer. -/
theorem exchange_returns
    (h : ∀ n, (call state payload zeroed).2.2 = .ok n → n ≤ NOISE_MAX_MESSAGE) :
    (exchange call state payload).2.Returns := by
  rcases hused : (call state payload zeroed).2.2 with e | n
  · rw [exchange_of_error hused]
    exact Outcome.returns_err _
  · rw [exchange_of_ok hused (h n hused)]
    exact Outcome.returns_ok _

end Exchange

/-! ## What each method can do -/

namespace NoiseHandshake

/-- Both constructors end in a lock around a handshake. -/
theorem exists_handshake_of_newInitiator {localHex remoteHex : String} {s : NoiseHandshake snow}
    (h : newInitiator snow localHex remoteHex = .ok s) : ∃ hs, s = .new (some hs) := by
  obtain ⟨localKey, -, h⟩ := Outcome.bind_eq_ok.mp h
  obtain ⟨remoteKey, -, h⟩ := Outcome.bind_eq_ok.mp h
  obtain ⟨hs, -, h⟩ := Outcome.bind_eq_ok.mp h
  exact ⟨hs, (Outcome.ok.inj h).symm⟩

theorem exists_handshake_of_newResponder {localHex : String} {s : NoiseHandshake snow}
    (h : newResponder snow localHex = .ok s) : ∃ hs, s = .new (some hs) := by
  obtain ⟨localKey, -, h⟩ := Outcome.bind_eq_ok.mp h
  obtain ⟨hs, -, h⟩ := Outcome.bind_eq_ok.mp h
  exact ⟨hs, (Outcome.ok.inj h).symm⟩

/-- `is_finished` only looks. -/
theorem isFinished_new (inner : Option snow.HandshakeState) :
    isFinished (.new inner) = (.new inner, do
      let hs ← Outcome.okOr alreadyConsumed inner
      return snow.isHandshakeFinished hs) := by
  have hret : (do
      let hs ← Outcome.okOr alreadyConsumed inner
      return snow.isHandshakeFinished hs : Outcome CtAgentError Bool).Returns := by
    cases inner with
    | none => exact Outcome.returns_err _
    | some hs => exact Outcome.returns_ok _
  exact Guarded.withLock_of_returns rfl hret

/-- `into_transport` never leaves a handshake behind. -/
theorem intoTransport_new (inner : Option snow.HandshakeState) :
    intoTransport (.new inner) = (.new none, do
      let hs ← Outcome.okOr alreadyConsumed inner
      let t ← Outcome.mapErr CtAgentError.generic (snow.intoTransportMode hs)
      return .new t) := by
  have hret : (do
      let hs ← Outcome.okOr alreadyConsumed inner
      let t ← Outcome.mapErr CtAgentError.generic (snow.intoTransportMode hs)
      return .new t : Outcome CtAgentError (NoiseTransport snow)).Returns := by
    refine (Outcome.returns_okOr _ _).bind fun hs _ => ?_
    refine Outcome.Returns.bind ?_ fun t _ => Outcome.returns_ok _
    cases snow.intoTransportMode hs with
    | ok t => exact Outcome.returns_ok t
    | error e => exact Outcome.returns_err _
  exact Guarded.withLock_of_returns rfl hret

/-- A message method on a handshake that is there, when it returns. -/
theorem exchangeInner_there {call : BufferedCall snow.HandshakeState} {hs : snow.HandshakeState}
    {payload : List UInt8} (h : (exchange call hs payload).2.Returns) :
    (Guarded.new (some hs)).withLock (exchangeInner call payload) =
      (.new (some (exchange call hs payload).1), (exchange call hs payload).2) :=
  Guarded.withLock_of_returns rfl h

/-- A message method on a handshake that is gone. -/
theorem exchangeInner_gone (call : BufferedCall snow.HandshakeState) (payload : List UInt8) :
    (Guarded.new (none : Option snow.HandshakeState)).withLock (exchangeInner call payload) =
      (.new none, .err alreadyConsumed) :=
  Guarded.withLock_of_returns rfl (Outcome.returns_err _)

end NoiseHandshake

/-- A poisoned object answers nothing and keeps what it holds. -/
theorem step_poisoned {s : NoiseHandshake snow} (h : s.poisoned = true) (c : HandshakeCall) :
    (noiseHandshake snow).step s c = (s, .panicked) := by
  cases c with
  | writeMessage payload =>
    simp only [noiseHandshake, NoiseHandshake.writeMessage, Guarded.withLock_poisoned h,
      Outcome.map_panicked]
  | readMessage msg =>
    simp only [noiseHandshake, NoiseHandshake.readMessage, Guarded.withLock_poisoned h,
      Outcome.map_panicked]
  | isFinished =>
    simp only [noiseHandshake, NoiseHandshake.isFinished, Guarded.withLock_poisoned h,
      Outcome.map_panicked]
  | intoTransport =>
    simp only [noiseHandshake, NoiseHandshake.intoTransport, Guarded.withLock_poisoned h,
      Outcome.map_panicked]

theorem next_poisoned {s : NoiseHandshake snow} (h : s.poisoned = true) (c : HandshakeCall) :
    (noiseHandshake snow).next s c = s := congrArg Prod.fst (step_poisoned h c)

theorem out_poisoned {s : NoiseHandshake snow} (h : s.poisoned = true) (c : HandshakeCall) :
    (noiseHandshake snow).out s c = .panicked := congrArg Prod.snd (step_poisoned h c)

/-! ## A handshake that is gone -/

/-- **A consumed handshake stays consumed**, and says so whatever is called. -/
theorem step_consumed (c : HandshakeCall) :
    (noiseHandshake snow).step (.new none) c = (.new none, .err alreadyConsumed) := by
  cases c with
  | writeMessage payload =>
    have h := NoiseHandshake.exchangeInner_gone snow.writeHandshake payload
    simp only [noiseHandshake, NoiseHandshake.writeMessage, h, Outcome.map_err]
  | readMessage msg =>
    have h := NoiseHandshake.exchangeInner_gone snow.readHandshake msg
    simp only [noiseHandshake, NoiseHandshake.readMessage, h, Outcome.map_err]
  | isFinished => simp [noiseHandshake, NoiseHandshake.isFinished_new]
  | intoTransport => simp [noiseHandshake, NoiseHandshake.intoTransport_new]

theorem next_consumed (c : HandshakeCall) :
    (noiseHandshake snow).next (.new none) c = .new none := congrArg Prod.fst (step_consumed c)

theorem out_consumed (c : HandshakeCall) :
    (noiseHandshake snow).out (.new none) c = .err alreadyConsumed :=
  congrArg Prod.snd (step_consumed c)

theorem run_consumed (calls : List HandshakeCall) :
    (noiseHandshake snow).run (.new none) calls = .new none ∧
      ∀ o ∈ (noiseHandshake snow).outputs (.new none) calls, o = .err alreadyConsumed := by
  have hkeep : (noiseHandshake snow).Preserves (· = .new none) := by
    rintro s c rfl
    exact next_consumed c
  refine ⟨hkeep.run rfl calls, hkeep.outputs ?_ rfl calls⟩
  rintro s c rfl
  exact out_consumed c

/-! ## Conversions -/

/-- A conversion takes the handshake, whatever comes of it. -/
theorem next_intoTransport (inner : Option snow.HandshakeState) :
    (noiseHandshake snow).next (.new inner) .intoTransport = .new none :=
  congrArg Prod.fst (NoiseHandshake.intoTransport_new inner)

theorem out_intoTransport_error {hs : snow.HandshakeState} {e : String}
    (h : snow.intoTransportMode hs = .error e) :
    (noiseHandshake snow).out (.new (some hs)) .intoTransport = .err (.generic e) := by
  show HandshakeReply.transport <$> (NoiseHandshake.intoTransport (.new (some hs))).2 = _
  rw [NoiseHandshake.intoTransport_new]
  simp [h]

theorem out_intoTransport_ok {hs : snow.HandshakeState} {t : snow.TransportState}
    (h : snow.intoTransportMode hs = .ok t) :
    (noiseHandshake snow).out (.new (some hs)) .intoTransport = .ok (.transport (.new t)) := by
  show HandshakeReply.transport <$> (NoiseHandshake.intoTransport (.new (some hs))).2 = _
  rw [NoiseHandshake.intoTransport_new]
  simp [h]

/-! ## Failed conversions -/

/-- If the call fails, it changes nothing: not the object, and so not what it
answers to whatever is called later. -/
def FailsCleanly (s : NoiseHandshake snow) (c : HandshakeCall) : Prop :=
  ∀ e, (noiseHandshake snow).out s c = .err e →
    (noiseHandshake snow).next s c = s ∧
      ∀ later, (noiseHandshake snow).outputs ((noiseHandshake snow).next s c) later =
        (noiseHandshake snow).outputs s later

/-- The object holds a handshake that is not finished. -/
def Unfinished (s : NoiseHandshake snow) : Prop := s.isFinished.2 = .ok false

instance (s : NoiseHandshake snow) : Decidable (Unfinished s) :=
  inferInstanceAs (Decidable (s.isFinished.2 = .ok false))

theorem unfinished_new_iff (inner : Option snow.HandshakeState) :
    Unfinished (.new inner) ↔ ∃ hs, inner = some hs ∧ snow.isHandshakeFinished hs = false := by
  rw [Unfinished, NoiseHandshake.isFinished_new, Outcome.bind_eq_ok]
  simp only [Outcome.okOr_eq_ok, Outcome.pure_eq_ok, Outcome.ok.injEq]

/-- A poisoned object answers nothing, so it does not answer that it is
unfinished. -/
theorem Unfinished.exists_handshake {s : NoiseHandshake snow} (h : Unfinished s) :
    ∃ hs, s = .new (some hs) ∧ snow.isHandshakeFinished hs = false := by
  by_cases hp : s.poisoned = true
  · have hpanic : s.isFinished.2 = .panicked := congrArg Prod.snd (Guarded.withLock_poisoned hp _)
    rw [Unfinished, hpanic] at h
    cases h
  · have hnew := Guarded.eq_new (Bool.not_eq_true _ ▸ hp)
    rw [hnew, unfinished_new_iff] at h
    obtain ⟨hs, hvalue, hunf⟩ := h
    refine ⟨hs, ?_, hunf⟩
    rw [hnew, hvalue]

/-- **A premature `into_transport` loses the handshake**: it fails, and from then
on every call is answered as after a successful one. -/
theorem premature_intoTransport (hsnow : snow.ConvertsFinished) {s : NoiseHandshake snow}
    (h : Unfinished s) :
    (∃ e, (noiseHandshake snow).out s .intoTransport = .err e) ∧
      (noiseHandshake snow).next s .intoTransport = .new none ∧
      ∀ later, ∀ o ∈ (noiseHandshake snow).outputs
        ((noiseHandshake snow).next s .intoTransport) later, o = .err alreadyConsumed := by
  obtain ⟨hs, rfl, hunf⟩ := h.exists_handshake
  obtain ⟨e, he⟩ := (hsnow hs).mpr hunf
  refine ⟨⟨_, out_intoTransport_error he⟩, next_intoTransport _, fun later => ?_⟩
  rw [next_intoTransport]
  exact (run_consumed later).2

/-- A conversion fails cleanly unless it is tried on an unfinished handshake: on
a finished one it does not fail, and where there is none left nothing changes. -/
theorem failsCleanly_intoTransport_iff (hsnow : snow.ConvertsFinished) (s : NoiseHandshake snow) :
    FailsCleanly s .intoTransport ↔ ¬ Unfinished s := by
  constructor
  · intro hclean h
    obtain ⟨⟨e, he⟩, hnext, -⟩ := premature_intoTransport hsnow h
    -- the state before holds a handshake and the state after holds none
    have hkept := (hclean e he).1
    rw [hnext] at hkept
    obtain ⟨hs, hsome, -⟩ := h.exists_handshake
    rw [← hkept, Guarded.new, Guarded.new] at hsome
    cases hsome
  · intro h e he
    by_cases hp : s.poisoned = true
    · rw [out_poisoned hp] at he
      cases he
    have hnew := Guarded.eq_new (Bool.not_eq_true _ ▸ hp)
    rw [hnew] at h he ⊢
    cases hvalue : s.value with
    | none =>
      rw [next_consumed]
      exact ⟨rfl, fun _ => rfl⟩
    | some hs =>
      -- the handshake is finished, so the conversion did not fail
      exfalso
      rw [hvalue, unfinished_new_iff] at h
      have hfin : ¬ ∃ e, snow.intoTransportMode hs = .error e := by
        rw [hsnow]
        exact fun hunf => h ⟨hs, rfl, hunf⟩
      cases hconv : snow.intoTransportMode hs with
      | error e => exact hfin ⟨e, hconv⟩
      | ok t =>
        rw [hvalue, out_intoTransport_ok hconv] at he
        cases he

/-- **Failed conversions, over whole runs.**  In a run of calls on a new
handshake, every failed `into_transport` leaves the object as it was exactly when
none is made while `is_finished` would answer `false`. -/
theorem intoTransport_failsCleanly_iff (hsnow : snow.ConvertsFinished)
    (hs : snow.HandshakeState) (calls : List HandshakeCall) :
    (noiseHandshake snow).AllSteps (fun s c => c = .intoTransport → FailsCleanly s c)
        (.new (some hs)) calls ↔
      (noiseHandshake snow).AllSteps (fun s c => c = .intoTransport → ¬ Unfinished s)
        (.new (some hs)) calls := by
  refine Mealy.allSteps_congr _ fun s c => ?_
  refine imp_congr_right fun hc => ?_
  rw [hc, failsCleanly_intoTransport_iff hsnow]

/-! ## A library without cryptography -/

/-- Which side of a two-message handshake this is, and how many of its messages
have passed. -/
structure PlainHandshake where
  initiator : Bool
  passed : Nat
  deriving DecidableEq, Repr

namespace PlainHandshake

/-- The bytes of the next message that are not payload. -/
def overhead (hs : PlainHandshake) : Nat := if hs.passed = 0 then 96 else 48

/-- It is this side's turn to write. -/
def myTurn (hs : PlainHandshake) : Bool := hs.initiator == (hs.passed == 0)

end PlainHandshake

/-- Put `bytes` at the front of a buffer. -/
def fill (bytes : List UInt8) (buf : MessageBuffer) : MessageBuffer :=
  Vector.ofFn fun i => bytes.getD i buf[i]

/-- Write `overhead` zeros and the payload, if they fit. -/
def plainSeal (overhead : Nat) (payload : List UInt8) (buf : MessageBuffer) :
    MessageBuffer × Except String Nat :=
  if overhead + payload.length ≤ NOISE_MAX_MESSAGE then
    (fill (List.replicate overhead 0 ++ payload) buf, .ok (overhead + payload.length))
  else (buf, .error "input error")

/-- Read a payload behind `overhead` bytes. -/
def plainOpen (overhead : Nat) (msg : List UInt8) (buf : MessageBuffer) :
    MessageBuffer × Except String Nat :=
  if overhead ≤ msg.length ∧ msg.length ≤ NOISE_MAX_MESSAGE then
    (fill (msg.drop overhead) buf, .ok (msg.length - overhead))
  else (buf, .error "decrypt error")

/-- One message of the handshake, by the side whose turn it is. -/
def PlainHandshake.pass (turn : Bool) (hs : PlainHandshake)
    (message : MessageBuffer × Except String Nat) (buf : MessageBuffer) :
    PlainHandshake × MessageBuffer × Except String Nat :=
  if hs.passed = 2 ∨ hs.myTurn ≠ turn then (hs, buf, .error "state error: NotTurn")
  else
    match message with
    | (buf, .ok n) => ({ hs with passed := hs.passed + 1 }, buf, .ok n)
    | (buf, .error e) => (hs, buf, .error e)

/-- The library with the messages, turns and lengths of the real one and nothing
encrypted. -/
def plainSnow : Snow where
  HandshakeState := PlainHandshake
  TransportState := Unit
  clientHandshake _ _ := .ok ⟨true, 0⟩
  originHandshake _ := .ok ⟨false, 0⟩
  writeHandshake hs payload buf := hs.pass true (plainSeal hs.overhead payload buf) buf
  readHandshake hs msg buf := hs.pass false (plainOpen hs.overhead msg buf) buf
  isHandshakeFinished hs := hs.passed == 2
  intoTransportMode hs :=
    if hs.passed = 2 then .ok () else .error "state error: HandshakeNotFinished"
  writeTransport _ payload buf := ((), plainSeal 16 payload buf)
  readTransport _ msg buf := ((), plainOpen 16 msg buf)

theorem plainSnow_convertsFinished : plainSnow.ConvertsFinished := by
  intro hs
  by_cases h : hs.passed = 2
  · simp [plainSnow, h]
  · simp [plainSnow, h]

theorem plainSeal_ok_iff {overhead n : Nat} {payload : List UInt8} {buf : MessageBuffer} :
    (plainSeal overhead payload buf).2 = .ok n ↔
      overhead + payload.length ≤ NOISE_MAX_MESSAGE ∧ n = overhead + payload.length := by
  unfold plainSeal
  split
  · next h => simp [h, eq_comm]
  · next h => simp [h]

theorem plainSeal_fits {overhead : Nat} {payload : List UInt8} {buf : MessageBuffer} {n : Nat}
    (h : (plainSeal overhead payload buf).2 = .ok n) : n ≤ NOISE_MAX_MESSAGE := by
  obtain ⟨hfits, rfl⟩ := plainSeal_ok_iff.mp h
  exact hfits

theorem plainOpen_fits {overhead : Nat} {msg : List UInt8} {buf : MessageBuffer} {n : Nat}
    (h : (plainOpen overhead msg buf).2 = .ok n) : n ≤ NOISE_MAX_MESSAGE := by
  unfold plainOpen at h
  split at h
  · next hfits =>
    obtain rfl := Except.ok.inj h
    omega
  · cases h

/-- A message that is passed on is the one that was made. -/
theorem PlainHandshake.pass_ok {turn : Bool} {hs : PlainHandshake}
    {message : MessageBuffer × Except String Nat} {buf : MessageBuffer} {n : Nat}
    (h : (hs.pass turn message buf).2.2 = .ok n) : message.2 = .ok n := by
  unfold pass at h
  split at h
  · cases h
  · rcases message with ⟨written, used | used⟩
    · cases h
    · exact h

theorem plainSnow_exchange_returns (hs : PlainHandshake) (payload : List UInt8) :
    (exchange plainSnow.writeHandshake hs payload).2.Returns ∧
      (exchange plainSnow.readHandshake hs payload).2.Returns :=
  ⟨exchange_returns fun _ h => plainSeal_fits (PlainHandshake.pass_ok h),
    exchange_returns fun _ h => plainOpen_fits (PlainHandshake.pass_ok h)⟩

/-- An initiator writes, reads, and converts its finished handshake; a second
attempt fails cleanly. -/
theorem intoTransport_failsCleanly_finished :
    (noiseHandshake plainSnow).AllSteps (fun s c => c = .intoTransport → FailsCleanly s c)
      (.new (some (⟨true, 0⟩ : PlainHandshake)))
      [.writeMessage [], .readMessage (List.replicate 48 0), .isFinished, .intoTransport,
        .intoTransport] := by
  refine (intoTransport_failsCleanly_iff plainSnow_convertsFinished _ _).mpr ?_
  have hwrite : (noiseHandshake plainSnow).next (.new (some (⟨true, 0⟩ : PlainHandshake)))
      (.writeMessage []) = .new (some (⟨true, 1⟩ : PlainHandshake)) :=
    congrArg Prod.fst (NoiseHandshake.exchangeInner_there
      (plainSnow_exchange_returns ⟨true, 0⟩ []).1)
  have hread : (noiseHandshake plainSnow).next (.new (some (⟨true, 1⟩ : PlainHandshake)))
      (.readMessage (List.replicate 48 0)) = .new (some (⟨true, 2⟩ : PlainHandshake)) :=
    congrArg Prod.fst (NoiseHandshake.exchangeInner_there
      (plainSnow_exchange_returns ⟨true, 1⟩ (List.replicate 48 0)).2)
  simp only [Mealy.allSteps_cons, Mealy.allSteps_nil, hwrite, hread, and_true]
  exact ⟨nofun, nofun, nofun, fun _ => by decide, fun _ => by decide⟩

/-- Tried on a handshake whose messages have not passed, `into_transport` takes
it away: `is_finished` answered `false` before and is an error after. -/
theorem intoTransport_unfinished_not_clean :
    let s : NoiseHandshake plainSnow := .new (some (⟨true, 0⟩ : PlainHandshake))
    plainSnow.ConvertsFinished ∧ ¬ FailsCleanly s .intoTransport ∧ s.isFinished.2 = .ok false ∧
      s.intoTransport.1.isFinished.2 = .err alreadyConsumed := by
  refine ⟨plainSnow_convertsFinished, fun h => ?_, by decide, by decide⟩
  have hkept := (h (.generic "state error: HandshakeNotFinished") rfl).1
  cases congrArg Guarded.value hkept

end CtAgentAndroid
