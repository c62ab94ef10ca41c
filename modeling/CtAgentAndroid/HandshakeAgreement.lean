import CtAgentAndroid.CallProgress

/-! # The two ends of a handshake agree

What one end of a handshake has seen is never far from what the other has: one
transcript begins the other, and is at most one message short of it.  No end has
more than one session, nor one before the other has written; and with two sessions
the transcripts are the same, and the sessions belong together
(`handshake_agreement`).
-/
namespace CtAgentAndroid
open Rust Automaton

variable {snow : Snow} {half : snow.HandshakeState → Half} {start : Side → Half}
  {ends : Side → NoiseHandshake snow} {es : List (Side × HandshakeCall)}

/-- The messages that have passed at an end, whichever way. -/
def transcript (x : Side) (ends : Side → NoiseHandshake snow) (es : List (Side × HandshakeCall)) :
    List (List UInt8) := (messagesAt x ends es).map Prod.snd

/-- Of two transcripts, one begins the other and lacks one message at most. -/
def Close (ps qs : List (List UInt8)) : Prop :=
  (ps <+: qs ∨ qs <+: ps) ∧ ps.length ≤ qs.length + 1 ∧ qs.length ≤ ps.length + 1

theorem Close.symm {ps qs : List (List UInt8)} (h : Close ps qs) : Close qs ps :=
  ⟨h.1.symm, h.2.2, h.2.1⟩

theorem Position.close {ms ns : List (Way × List UInt8)} (h : Position ms ns) :
    Close (ms.map Prod.snd) (ns.map Prod.snd) := by
  cases h with
  | started => exact ⟨.inl List.prefix_rfl, by simp, by simp⟩
  | called m => exact ⟨.inr List.nil_prefix, by simp, by simp⟩
  | heard m => exact ⟨.inl List.prefix_rfl, by simp, by simp⟩
  | answered m a => exact ⟨.inl (List.prefix_append [m] [a]), by simp, by simp⟩
  | finished m a => exact ⟨.inl List.prefix_rfl, by simp, by simp⟩

/-- An end with all its messages has heard from the other. -/
theorem Position.peer_wrote {ms ns : List (Way × List UInt8)} (h : Position ms ns) :
    (ms.map Prod.fst = Side.initiator.script → .written ∈ ns.map Prod.fst) ∧
      (ns.map Prod.fst = Side.responder.script → .written ∈ ms.map Prod.fst) := by
  cases h with
  | finished m a => exact ⟨fun _ => by simp, fun _ => by simp⟩
  | answered m a => exact ⟨nofun, fun _ => by simp⟩
  | _ => exact ⟨nofun, nofun⟩

/-- A run makes one session at most. -/
theorem Followed.sessions_le_one {start : Half} {ms : List (Way × List UInt8)}
    {ts : List (NoiseTransport snow)} {s : NoiseHandshake snow} (h : Followed half start ms ts s) :
    ts.length ≤ 1 := by
  have hstage := h.stage
  cases hstage with
  | there hhalf => exact Nat.zero_le 1
  | taken t hhalf done conversion => exact Nat.le_refl 1
  | lost => exact Nat.zero_le 1

/-- **The two ends agree.**  Whatever is called at the two ends, in whatever order,
as long as what an end reads was written by the other: their transcripts are one
message apart at most; an end has one session at most, and none before the other
has written; and if both have a session, the transcripts are the same and the two
sessions belong together. -/
theorem handshake_agreement {Key : Type} {view : snow.TransportState → Endpoint Key}
    (h : snow.TakesTurns half) (hagree : snow.Agrees half view)
    (hends : Beginning half start ends) (hheard : HeardFromPeer ends es) :
    (∀ x, Close (transcript x ends es) (transcript x.peer ends es) ∧
        (sessionsAt x ends es).length ≤ 1 ∧
        (sessionsAt x ends es ≠ [] → .written ∈ (messagesAt x.peer ends es).map Prod.fst)) ∧
      ∀ t : Side → NoiseTransport snow, (∀ x, t x ∈ sessionsAt x ends es) →
        transcript .initiator ends es = transcript .responder ends es ∧ ∃ k, Opened view k t := by
  have hposition := position_run h hends hheard
  have hfollowed := fun x => followed_at h hends x es
  have hscript : ∀ x t, t ∈ sessionsAt x ends es →
      (messagesAt x ends es).map Prod.fst = x.script := fun x t ht => by
    have hsession := ((hfollowed x).of_session ht).1
    rwa [hends.side] at hsession
  refine ⟨fun x => ⟨?_, (hfollowed x).sessions_le_one, fun hsome => ?_⟩, fun t ht => ?_⟩
  · cases x with
    | initiator => exact hposition.close
    | responder => exact hposition.close.symm
  · obtain ⟨t, ht⟩ := List.exists_mem_of_ne_nil _ hsome
    have hall := hscript x t ht
    cases x with
    | initiator => exact hposition.peer_wrote.1 hall
    | responder => exact hposition.peer_wrote.2 hall
  · exact ⟨hposition.passed_eq (hscript _ _ (ht _)) (hscript _ _ (ht _)),
      sessions_open h hagree hends hheard ht⟩

/-- The two messages of a handshake. -/
def question : List UInt8 := List.replicate 96 0 ++ [1]
def answer : List UInt8 := List.replicate 48 0 ++ [2]

/-- A handshake from its first message to both sessions. -/
def finishedCalls : List (Side × HandshakeCall) :=
  [(.initiator, .writeMessage [1]), (.responder, .readMessage question),
    (.responder, .writeMessage [2]), (.initiator, .readMessage answer),
    (.initiator, .intoTransport), (.responder, .intoTransport)]

def finishedSessions (x : Side) : NoiseTransport scriptedSnow := .new ⟨x, x.peer, 0, 0⟩

theorem question_written :
    (noiseHandshake scriptedSnow).step (scriptedEnds .initiator) (.writeMessage [1]) =
      (.new (some ((scriptedHalves .initiator).pass question)), .ok (.message question)) :=
  scripted_write rfl rfl (by decide)

theorem question_read :
    (noiseHandshake scriptedSnow).step (scriptedEnds .responder) (.readMessage question) =
      (.new (some ((scriptedHalves .responder).pass question)), .ok (.message [1])) :=
  scripted_read rfl rfl (by decide)

theorem answer_written :
    (noiseHandshake scriptedSnow).step (.new (some ((scriptedHalves .responder).pass question)))
        (.writeMessage [2]) =
      (.new (some (((scriptedHalves .responder).pass question).pass answer)),
        .ok (.message answer)) :=
  scripted_write rfl rfl (by decide)

theorem answer_read :
    (noiseHandshake scriptedSnow).step (.new (some ((scriptedHalves .initiator).pass question)))
        (.readMessage answer) =
      (.new (some (((scriptedHalves .initiator).pass question).pass answer)),
        .ok (.message [2])) :=
  scripted_read rfl rfl (by decide)

/-- What an end of it makes of its own calls. -/
theorem finished_trace :
    (noiseHandshake scriptedSnow).trace (scriptedEnds .initiator)
        [.writeMessage [1], .readMessage answer, .intoTransport] =
      [(.writeMessage [1], .ok (.message question)), (.readMessage answer, .ok (.message [2])),
        (.intoTransport, .ok (.transport (finishedSessions .initiator)))] ∧
    (noiseHandshake scriptedSnow).trace (scriptedEnds .responder)
        [.readMessage question, .writeMessage [2], .intoTransport] =
      [(.readMessage question, .ok (.message [1])), (.writeMessage [2], .ok (.message answer)),
        (.intoTransport, .ok (.transport (finishedSessions .responder)))] := by
  constructor
  · rw [Mealy.trace_cons_of_step question_written, Mealy.trace_cons_of_step answer_read]
    exact congrArg (_ :: _ :: ·) (Mealy.trace_cons_of_step (scripted_convert rfl) [])
  · rw [Mealy.trace_cons_of_step question_read, Mealy.trace_cons_of_step answer_written]
    exact congrArg (_ :: _ :: ·) (Mealy.trace_cons_of_step (scripted_convert rfl) [])

theorem finished_sessions (x : Side) :
    sessionsAt x scriptedEnds finishedCalls = [finishedSessions x] := by
  rw [sessionsAt_eq]
  cases x with
  | initiator => exact congrArg (List.filterMap HandshakeCall.sessionIn) finished_trace.1
  | responder => exact congrArg (List.filterMap HandshakeCall.sessionIn) finished_trace.2

/-- Each message is read after it was written. -/
theorem finished_heard : HeardFromPeer scriptedEnds finishedCalls := by
  have hnone : HeardFromPeer scriptedEnds [] := fun pre x msg reply hpre => by simp at hpre
  have hasked : messagesAt .initiator scriptedEnds [(.initiator, .writeMessage [1])] =
      [(.written, question)] := by
    rw [messagesAt_eq]
    exact congrArg (List.filterMap HandshakeCall.passedIn)
      (Mealy.trace_cons_of_step question_written [])
  have hanswered : messagesAt .responder scriptedEnds
      [(.initiator, .writeMessage [1]), (.responder, .readMessage question),
        (.responder, .writeMessage [2])] = [(.read, question), (.written, answer)] := by
    rw [messagesAt_eq]
    exact congrArg (List.filterMap HandshakeCall.passedIn)
      ((Mealy.trace_cons_of_step question_read _).trans
        (congrArg (_ :: ·) (Mealy.trace_cons_of_step answer_written [])))
  refine ((((((hnone.concat ?_).concat ?_).concat ?_).concat ?_).concat ?_).concat ?_ :
    HeardFromPeer _ ([] ++ [_] ++ [_] ++ [_] ++ [_] ++ [_] ++ [_]))
  · nofun
  · rintro msg ⟨⟩
    exact hasked.symm ▸ List.mem_singleton_self _
  · nofun
  · rintro msg ⟨⟩
    exact hanswered.symm ▸ List.mem_cons_of_mem _ (List.mem_singleton_self _)
  · nofun
  · nofun

/-- It is finished, and both ends have their sessions. -/
theorem handshake_agreement_finished :
    (∀ x, Close (transcript x scriptedEnds finishedCalls)
          (transcript x.peer scriptedEnds finishedCalls) ∧
        (sessionsAt x scriptedEnds finishedCalls).length ≤ 1 ∧
        (sessionsAt x scriptedEnds finishedCalls ≠ [] →
          .written ∈ (messagesAt x.peer scriptedEnds finishedCalls).map Prod.fst)) ∧
      transcript .initiator scriptedEnds finishedCalls =
        transcript .responder scriptedEnds finishedCalls ∧
      ∃ k, Opened (id : scriptedSnow.TransportState → Endpoint Side) k finishedSessions := by
  have hagree := handshake_agreement scriptedSnow_takesTurns scriptedSnow_agrees
    scriptedEnds_beginning finished_heard
  exact ⟨hagree.1, hagree.2 finishedSessions fun x => by
    rw [finished_sessions]
    exact List.mem_singleton_self _⟩

end CtAgentAndroid
