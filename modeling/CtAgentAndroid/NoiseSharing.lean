import CtAgentAndroid.NoiseLifecycle

/-! # One handshake, one session

The library's types say that a handshake is used up by its conversion; the shared
object says it again at run time, since its callers only ever hold it by
reference.  Here the object is in the hands of any number of holders, whose calls
the mutex puts in some order: a run is an arbitrary sequence of calls, each with
the holder that makes it.

Whatever the interleaving, one call at most is answered with a session, and from
then on the object is empty for everyone (`one_session`).
-/
namespace CtAgentAndroid
open Rust Automaton

variable {snow : Snow} {Holder : Type}

/-- The object shared by `Holder`s: who calls makes no difference to a call. -/
def sharedHandshake (snow : Snow) (Holder : Type) :
    Mealy (NoiseHandshake snow) (Holder × HandshakeCall)
      (Outcome CtAgentError (HandshakeReply snow)) where
  step self call := (noiseHandshake snow).step self call.2

/-- The answer hands out a session. -/
def yieldsSession : Outcome CtAgentError (HandshakeReply snow) → Bool
  | .ok (.transport _) => true
  | _ => false

/-- A message is not a session, nor is an answer to `is_finished`. -/
theorem yieldsSession_map {α : Type} {f : α → HandshakeReply snow}
    (hf : ∀ a, yieldsSession (.ok (f a)) = false) (x : Outcome CtAgentError α) :
    yieldsSession (f <$> x) = false := by
  cases x with
  | ok a => exact hf a
  | err e => rfl
  | panicked => rfl

/-- **A session comes only from a conversion**: of a handshake that is there, by
`into_transport`, and the library converted it. -/
theorem exists_conversion {s : NoiseHandshake snow} {c : HandshakeCall}
    (h : yieldsSession ((noiseHandshake snow).out s c) = true) :
    c = .intoTransport ∧ ∃ hs t, s = .new (some hs) ∧ snow.intoTransportMode hs = .ok t := by
  have hother : ∀ {α : Type} {f : α → HandshakeReply snow} {x : Outcome CtAgentError α},
      (∀ a, yieldsSession (.ok (f a)) = false) → ¬ yieldsSession (f <$> x) = true := by
    intro α f x hf
    rw [yieldsSession_map hf]
    exact Bool.false_ne_true
  cases c with
  | writeMessage payload => exact absurd h (hother fun _ => rfl)
  | readMessage msg => exact absurd h (hother fun _ => rfl)
  | isFinished => exact absurd h (hother fun _ => rfl)
  | intoTransport =>
    refine ⟨rfl, ?_⟩
    by_cases hp : s.poisoned = true
    · rw [out_poisoned hp] at h
      cases h
    have hnew := Guarded.eq_new (Bool.not_eq_true _ ▸ hp)
    rw [hnew] at h ⊢
    cases hvalue : s.value with
    | none =>
      rw [hvalue, out_consumed] at h
      cases h
    | some hs =>
      rcases hconv : snow.intoTransportMode hs with e | t
      · rw [hvalue, out_intoTransport_error hconv] at h
        cases h
      · exact ⟨hs, t, rfl, hconv⟩

/-- The object is empty: `into_transport` has taken the handshake. -/
def taken (s : NoiseHandshake snow) : Bool := s.value.isNone

/-- Nothing puts a handshake back. -/
theorem taken_next {s : NoiseHandshake snow} (hs : taken s = true) (c : HandshakeCall) :
    taken ((noiseHandshake snow).next s c) = true := by
  by_cases hp : s.poisoned = true
  · rw [next_poisoned hp, hs]
  · have hnew := Guarded.eq_new (Bool.not_eq_true _ ▸ hp)
    have hvalue : s.value = none := Option.isNone_iff_eq_none.mp hs
    rw [hnew, hvalue, next_consumed]
    rfl

/-- The call that hands out a session finds a finished handshake and leaves
nothing. -/
theorem conversion_spec (hsnow : snow.ConvertsFinished) {s : NoiseHandshake snow}
    {c : HandshakeCall} (h : yieldsSession ((noiseHandshake snow).out s c) = true) :
    c = .intoTransport ∧ s.isFinished.2 = .ok true ∧ taken s = false ∧
      (noiseHandshake snow).next s c = .new none := by
  obtain ⟨rfl, hs, t, rfl, hconv⟩ := exists_conversion h
  have hfin : snow.isHandshakeFinished hs = true := by
    by_contra hunf
    obtain ⟨e, he⟩ := (hsnow hs).mpr (Bool.not_eq_true _ ▸ hunf)
    rw [hconv] at he
    cases he
  have hasks : NoiseHandshake.isFinished (.new (some hs)) = (.new (some hs), .ok true) := by
    rw [NoiseHandshake.isFinished_new, Outcome.okOr_some, Outcome.ok_bind, hfin]
    rfl
  exact ⟨rfl, congrArg Prod.snd hasks, rfl, next_intoTransport _⟩

/-! ## Any number of holders -/

/-- The shared object does what the object does with the calls alone. -/
theorem sharedHandshake_simulates :
    (sharedHandshake snow Holder).Simulates (noiseHandshake snow) id Prod.snd :=
  fun _ _ => rfl

theorem sharedHandshake_outputs (s : NoiseHandshake snow) (calls : List (Holder × HandshakeCall)) :
    (sharedHandshake snow Holder).outputs s calls =
      (noiseHandshake snow).outputs s (calls.map Prod.snd) := by
  induction calls generalizing s with
  | nil => rfl
  | cons call calls ih => exact congrArg (_ :: ·) (ih _)

/-- An empty object stays empty for every holder. -/
theorem shared_consumed (calls : List (Holder × HandshakeCall)) :
    (sharedHandshake snow Holder).AllStates (· = .new none) (.new none) calls ∧
      ∀ o ∈ (sharedHandshake snow Holder).outputs (.new none) calls, o = .err alreadyConsumed := by
  constructor
  · intro pre _
    have hrun := sharedHandshake_simulates.run_map (.new none : NoiseHandshake snow) pre
    exact hrun.trans (run_consumed (pre.map Prod.snd)).1
  · rw [sharedHandshake_outputs]
    exact (run_consumed (calls.map Prod.snd)).2

/-- **One handshake yields at most one session.**  In every interleaving of the
holders' calls on a new handshake: at most one call is answered with a session;
it is an `into_transport`, made when the handshake is finished; and after it the
object stays empty and answers every call with an error. -/
theorem one_session (hsnow : snow.ConvertsFinished) (hs : snow.HandshakeState)
    (calls : List (Holder × HandshakeCall)) :
    let M := sharedHandshake snow Holder
    M.count (fun s call => yieldsSession (M.out s call)) (.new (some hs)) calls ≤ 1 ∧
    M.AllSteps (fun s call => yieldsSession (M.out s call) = true →
      call.2 = .intoTransport ∧ s.isFinished.2 = .ok true) (.new (some hs)) calls ∧
    ∀ pre call post, calls = pre ++ call :: post →
      yieldsSession (M.out (M.run (.new (some hs)) pre) call) = true →
        M.AllStates (· = .new none) (M.next (M.run (.new (some hs)) pre) call) post ∧
        ∀ o ∈ M.outputs (M.next (M.run (.new (some hs)) pre) call) post,
          o = .err alreadyConsumed := by
  intro M
  refine ⟨?_, ?_, ?_⟩
  · refine Mealy.count_le_one (I := fun _ => True) (L := taken) (fun _ _ _ => trivial)
      (fun s call h => taken_next h call.2) (fun s call _ h => ?_) trivial calls
    obtain ⟨-, -, hfull, hnext⟩ := conversion_spec hsnow h
    refine ⟨hfull, ?_⟩
    show taken ((noiseHandshake snow).next s call.2) = true
    rw [hnext]
    rfl
  · intro pre call _ h
    obtain ⟨hcall, hfin, -, -⟩ := conversion_spec hsnow h
    exact ⟨hcall, hfin⟩
  · intro pre call post _ h
    obtain ⟨-, -, -, hnext⟩ := conversion_spec hsnow h
    have hempty : M.next (M.run (.new (some hs)) pre) call = .new none := hnext
    rw [hempty]
    exact shared_consumed post

/-- Two holders of a finished handshake: only the first gets a session. -/
theorem one_session_two_holders :
    let M := sharedHandshake plainSnow Bool
    let s : NoiseHandshake plainSnow := .new (some (⟨true, 2⟩ : PlainHandshake))
    let calls := [(true, .isFinished), (false, .intoTransport), (true, .intoTransport)]
    M.count (fun s call => yieldsSession (M.out s call)) s calls ≤ 1 ∧
    M.AllSteps (fun s call => yieldsSession (M.out s call) = true →
      call.2 = .intoTransport ∧ s.isFinished.2 = .ok true) s calls ∧
    ∀ pre call post, calls = pre ++ call :: post →
      yieldsSession (M.out (M.run s pre) call) = true →
        M.AllStates (· = .new none) (M.next (M.run s pre) call) post ∧
        ∀ o ∈ M.outputs (M.next (M.run s pre) call) post, o = .err alreadyConsumed :=
  one_session plainSnow_convertsFinished ⟨true, 2⟩ _

end CtAgentAndroid
