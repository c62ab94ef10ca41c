import CtAgentAndroid.HexEncoding
import CtAgentAndroid.ScriptedNoise

/-! # Runs of a handshake

Whatever is called on a `NoiseHandshake`, the messages that pass follow the script
of its side, each written where it came in; and a session is made only at the end of
the script (`Followed`, `handshake_script`).
-/
namespace CtAgentAndroid
open Rust Automaton

variable {snow : Snow} {half : snow.HandshakeState → Half}

/-! ## What is seen of a run -/

namespace HandshakeCall

/-- The message that has passed in a step. -/
def passedIn :
    HandshakeCall × Outcome CtAgentError (HandshakeReply snow) → Option (Way × List UInt8)
  | (.writeMessage _, .ok (.message bytes)) => some (.written, bytes)
  | (.readMessage msg, .ok (.message _)) => some (.read, msg)
  | _ => none

/-- The session that was made in a step. -/
def sessionIn :
    HandshakeCall × Outcome CtAgentError (HandshakeReply snow) → Option (NoiseTransport snow)
  | (_, .ok (.transport session)) => some session
  | _ => none

end HandshakeCall

/-- The messages that have passed, in order. -/
def messagesPassed (s : NoiseHandshake snow) (cs : List HandshakeCall) : List (Way × List UInt8) :=
  ((noiseHandshake snow).trace s cs).filterMap HandshakeCall.passedIn

/-- The sessions that were made. -/
def sessionsMade (s : NoiseHandshake snow) (cs : List HandshakeCall) :
    List (NoiseTransport snow) :=
  ((noiseHandshake snow).trace s cs).filterMap HandshakeCall.sessionIn

theorem messagesPassed_concat (s : NoiseHandshake snow) (cs : List HandshakeCall)
    (c : HandshakeCall) :
    messagesPassed s (cs ++ [c]) = messagesPassed s cs ++
      (HandshakeCall.passedIn
        (c, (noiseHandshake snow).out ((noiseHandshake snow).run s cs) c)).toList :=
  Mealy.filterMap_trace_concat _ _ _ _

theorem sessionsMade_concat (s : NoiseHandshake snow) (cs : List HandshakeCall)
    (c : HandshakeCall) :
    sessionsMade s (cs ++ [c]) = sessionsMade s cs ++
      (HandshakeCall.sessionIn
        (c, (noiseHandshake snow).out ((noiseHandshake snow).run s cs) c)).toList :=
  Mealy.filterMap_trace_concat _ _ _ _

/-! ## A run of calls -/

/-- Where a handshake is after messages `ms` and sessions `ts`: still there and as
far as the messages, taken at its end for the one session, or lost. -/
inductive HandshakeStage (half : snow.HandshakeState → Half) (start : Half)
    (ms : List (Way × List UInt8)) : List (NoiseTransport snow) → NoiseHandshake snow → Prop
  | there {hs : snow.HandshakeState} (at_ : half hs = { start with passed := ms.map Prod.snd }) :
      HandshakeStage half start ms [] (.new (some hs))
  | taken {hs : snow.HandshakeState} (t : snow.TransportState)
      (at_ : half hs = { start with passed := ms.map Prod.snd }) (done : (half hs).turn = none)
      (conversion : snow.intoTransportMode hs = .ok t) :
      HandshakeStage half start ms [.new t] (.new none)
  | lost : HandshakeStage half start ms [] (.new none)

/-- Every message a handshake has written was written where it came in. -/
def WroteInTurn (half : snow.HandshakeState → Half) (start : Half)
    (ms : List (Way × List UInt8)) : Prop :=
  ∀ pre bytes, pre ++ [(.written, bytes)] <+: ms →
    ∃ hs payload, half hs = { start with passed := pre.map Prod.snd } ∧
      snow.Writes hs payload bytes

/-- What a run comes to. -/
structure Followed (half : snow.HandshakeState → Half) (start : Half)
    (ms : List (Way × List UInt8)) (ts : List (NoiseTransport snow)) (s : NoiseHandshake snow) :
    Prop where
  script : ms.map Prod.fst <+: start.side.script
  wrote : WroteInTurn half start ms
  stage : HandshakeStage half start ms ts s

section Followed
variable {start : Half} {ms : List (Way × List UInt8)} {ts : List (NoiseTransport snow)}

theorem turn_of_stage {hs : snow.HandshakeState}
    (hhalf : half hs = { start with passed := ms.map Prod.snd }) :
    (half hs).turn = start.side.script[(ms.map Prod.fst).length]? := by
  rw [hhalf, Half.turn, List.length_map, List.length_map]

/-- A message passes in its turn. -/
theorem Followed.pass {s : NoiseHandshake snow} (h : Followed half start ms ts s)
    {hs hs' : snow.HandshakeState} (hhalf : half hs = { start with passed := ms.map Prod.snd })
    {way : Way} {bytes : List UInt8} (turn : (half hs).turn = some way)
    (moved : half hs' = (half hs).pass bytes)
    (wrote : way = .written → ∃ payload, snow.Writes hs payload bytes) :
    Followed half start (ms ++ [(way, bytes)]) [] (.new (some hs')) where
  script := by
    rw [turn_of_stage hhalf] at turn
    rw [List.map_append]
    exact SealedChannel.prefix_concat_of_getElem? h.script turn
  wrote := by
    intro pre bytes' hpre
    rcases List.prefix_concat_iff.mp hpre with heq | hpre
    · obtain ⟨rfl, hlast⟩ := List.append_inj' heq rfl
      obtain ⟨rfl, rfl⟩ := Prod.mk.inj (List.singleton_inj.mp hlast)
      obtain ⟨payload, hwrites⟩ := wrote rfl
      exact ⟨hs, payload, hhalf, hwrites⟩
    · exact h.wrote pre bytes' hpre
  stage := by
    refine .there ?_
    rw [moved, hhalf, Half.pass, List.map_append]
    rfl

/-- Another call passes nothing. -/
theorem Followed.stay {s s' : NoiseHandshake snow} (h : Followed half start ms ts s)
    {ts' : List (NoiseTransport snow)} (stage : HandshakeStage half start ms ts' s') :
    Followed half start (ms ++ []) ts' s' := by
  rw [List.append_nil]
  exact ⟨h.script, h.wrote, stage⟩

theorem followed_run (h : snow.TakesTurns half) (hs : snow.HandshakeState)
    (hnew : (half hs).passed = []) (cs : List HandshakeCall) :
    Followed half (half hs) (messagesPassed (.new (some hs)) cs)
      (sessionsMade (.new (some hs)) cs) ((noiseHandshake snow).run (.new (some hs)) cs) := by
  induction cs using List.reverseRecOn with
  | nil =>
    refine ⟨List.nil_prefix, fun pre bytes hpre => ?_, .there ?_⟩
    · have hlength := hpre.length_le
      rw [List.length_append] at hlength
      exact absurd hlength (Nat.not_succ_le_zero _)
    · show half hs = { half hs with passed := [] }
      rw [← hnew]
  | append_singleton cs c ih =>
    rw [messagesPassed_concat, sessionsMade_concat, Mealy.run_append]
    show Followed half _ _ _ ((noiseHandshake snow).next _ c)
    generalize (noiseHandshake snow).run (.new (some hs)) cs = s at ih ⊢
    generalize messagesPassed (.new (some hs)) cs = ms at ih ⊢
    generalize sessionsMade (.new (some hs)) cs = ts at ih ⊢
    have hstage := ih.stage
    cases hstage with
    | @there hs' hhalf =>
      have hstep := handshake_step h hs' c
      generalize (noiseHandshake snow).next (.new (some hs')) c = s' at hstep ⊢
      generalize (noiseHandshake snow).out (.new (some hs')) c = o at hstep ⊢
      cases hstep with
      | wrote payload bytes turn writes moved =>
        exact ih.pass hhalf turn moved fun _ => ⟨payload, writes⟩
      | read msg payload turn moved => exact ih.pass hhalf turn moved nofun
      | unwritten payload e stays => exact ih.stay (.there (stays.trans hhalf))
      | unread msg e stays => exact ih.stay (.there (stays.trans hhalf))
      | looked => exact ih.stay (.there hhalf)
      | converted t done conversion => exact ih.stay (.taken t hhalf done conversion)
      | lost e early => exact ih.stay .lost
    | taken t hhalf done conversion =>
      rw [next_consumed, out_consumed]
      cases c <;> exact ih.stay (.taken t hhalf done conversion)
    | lost =>
      rw [next_consumed, out_consumed]
      cases c <;> exact ih.stay .lost

/-- At the end of the script no message is left. -/
theorem Followed.turn_eq_none_iff {s : NoiseHandshake snow} (h : Followed half start ms ts s)
    {hs : snow.HandshakeState} (hhalf : half hs = { start with passed := ms.map Prod.snd }) :
    (half hs).turn = none ↔ ms.map Prod.fst = start.side.script := by
  rw [turn_of_stage hhalf, List.getElem?_eq_none_iff]
  exact ⟨fun hle => h.script.eq_of_length_le hle, fun heq => by rw [heq]⟩

end Followed

/-! ## What a handshake promises -/

end CtAgentAndroid
