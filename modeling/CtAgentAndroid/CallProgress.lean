import CtAgentAndroid.CallSetup

/-! # A handshake can be finished

Nothing that is called at the two ends stops a handshake for good, but a conversion
that comes too early: at every position there is a message that can be written, or
one that was written and can be read (`Going.advance`).
-/
namespace CtAgentAndroid
open Rust Automaton

variable {snow : Snow} {half : snow.HandshakeState → Half} {start : Side → Half}
  {ends : Side → NoiseHandshake snow} {es : List (Side × HandshakeCall)}

/-- No handshake was lost to a conversion that came too early. -/
def NoneLost (ends : Side → NoiseHandshake snow) (es : List (Side × HandshakeCall)) : Prop :=
  ∀ x, sessionsAt x ends es = [] → ((handshakePair snow).run ends es x).value.isSome = true

/-- A run that can go on. -/
structure Going (ends : Side → NoiseHandshake snow) (es : List (Side × HandshakeCall)) :
    Prop where
  heard : HeardFromPeer ends es
  kept : NoneLost ends es

theorem sessionsAt_concat (x : Side) (ends : Side → NoiseHandshake snow)
    (es : List (Side × HandshakeCall)) (e : Side × HandshakeCall) :
    sessionsAt x ends (es ++ [e]) = sessionsAt x ends es ++
      (seenAt HandshakeCall.sessionIn x
        (e, (handshakePair snow).out ((handshakePair snow).run ends es) e)).toList :=
  Mealy.filterMap_trace_concat _ _ _ _

/-- A call at one end leaves the other as it is. -/
theorem concat_at_other {x y : Side} (hxy : y ≠ x) (ends : Side → NoiseHandshake snow)
    (es : List (Side × HandshakeCall)) (c : HandshakeCall) :
    messagesAt y ends (es ++ [(x, c)]) = messagesAt y ends es ∧
      sessionsAt y ends (es ++ [(x, c)]) = sessionsAt y ends es ∧
      (handshakePair snow).run ends (es ++ [(x, c)]) y =
        (handshakePair snow).run ends es y := by
  rw [messagesAt_concat, sessionsAt_concat, Mealy.run_append]
  refine ⟨?_, ?_, Function.update_of_ne hxy _ _⟩
  · rw [seenAt, if_neg hxy.symm, Option.toList_none, List.append_nil]
  · rw [seenAt, if_neg hxy.symm, Option.toList_none, List.append_nil]

theorem run_concat_self (x : Side) (ends : Side → NoiseHandshake snow)
    (es : List (Side × HandshakeCall)) (c : HandshakeCall) :
    (handshakePair snow).run ends (es ++ [(x, c)]) x =
      (noiseHandshake snow).next ((handshakePair snow).run ends es x) c := by
  rw [Mealy.run_append]
  exact Function.update_self x _ _

/-- One more call, of which an end may read only what the other has written. -/
theorem HeardFromPeer.concat (hes : HeardFromPeer ends es) {x : Side} {c : HandshakeCall}
    (hc : ∀ msg, c = .readMessage msg → (.written, msg) ∈ messagesAt x.peer ends es) :
    HeardFromPeer ends (es ++ [(x, c)]) := by
  intro pre y msg reply hpre hreply
  rcases List.prefix_concat_iff.mp hpre with heq | hpre
  · obtain ⟨rfl, hlast⟩ := List.append_inj' heq rfl
    obtain ⟨rfl, hc'⟩ := Prod.mk.inj (List.singleton_inj.mp hlast)
    exact hc msg hc'.symm
  · exact hes pre y msg reply hpre hreply

/-- A call at an end that is still there, and stays there. -/
theorem Going.pass (h : Going ends es) {x : Side} {c : HandshakeCall} {s : NoiseHandshake snow}
    (hs : (handshakePair snow).run ends es x = s) {way : Way} {m : List UInt8}
    (hpassed : HandshakeCall.passedIn (c, (noiseHandshake snow).out s c) = some (way, m))
    (hstays : ((noiseHandshake snow).next s c).value.isSome = true)
    (hc : ∀ msg, c = .readMessage msg → (.written, msg) ∈ messagesAt x.peer ends es) :
    Going ends (es ++ [(x, c)]) ∧
      messagesAt x ends (es ++ [(x, c)]) = messagesAt x ends es ++ [(way, m)] := by
  refine ⟨⟨h.heard.concat hc, fun y hy => ?_⟩, ?_⟩
  · by_cases hyx : y = x
    · subst hyx
      rw [run_concat_self, hs]
      exact hstays
    · obtain ⟨-, hsessions, hrun⟩ := concat_at_other hyx ends es c
      rw [hsessions] at hy
      rw [hrun]
      exact h.kept y hy
  · rw [messagesAt_concat]
    show _ ++ (seenAt HandshakeCall.passedIn x ((x, c), (noiseHandshake snow).out _ c)).toList = _
    rw [seenAt, if_pos rfl, hs, hpassed]
    rfl

/-- An end that has not come to the end of its script is still there. -/
theorem Going.there (h : snow.TakesTurns half) (hends : Beginning half start ends)
    (hgoing : Going ends es) {x : Side}
    (hleft : (messagesAt x ends es).map Prod.fst ≠ x.script) :
    ∃ hs, (handshakePair snow).run ends es x = .new (some hs) ∧
      half hs = { start x with passed := (messagesAt x ends es).map Prod.snd } := by
  have hfollowed := followed_at h hends x es
  have hkept := hgoing.kept x
  have hend : ∀ t ∈ sessionsAt x ends es, False := fun t ht => by
    have hscript := (hfollowed.of_session ht).1
    rw [hends.side] at hscript
    exact hleft hscript
  have hstage := hfollowed.stage
  generalize (handshakePair snow).run ends es x = s at hkept hstage
  generalize sessionsAt x ends es = ts at hkept hend hstage
  cases hstage with
  | there hhalf => exact ⟨_, rfl, hhalf⟩
  | taken t hhalf done conversion => exact (hend _ (List.mem_singleton_self _)).elim
  | lost => exact absurd (hkept rfl) nofun

/-- How many messages have passed. -/
def messageCount (ends : Side → NoiseHandshake snow) (es : List (Side × HandshakeCall)) : Nat :=
  (messagesAt .initiator ends es).length + (messagesAt .responder ends es).length

theorem messageCount_concat {x : Side} {c : HandshakeCall} {m : Way × List UInt8}
    (hmore : messagesAt x ends (es ++ [(x, c)]) = messagesAt x ends es ++ [m]) :
    messageCount ends (es ++ [(x, c)]) = messageCount ends es + 1 := by
  have hother := (concat_at_other (Side.peer_ne x) ends es c).1
  unfold messageCount
  cases x with
  | initiator =>
    rw [Side.peer_initiator] at hother
    rw [hmore, hother, List.length_append, List.length_singleton]
    omega
  | responder =>
    rw [Side.peer_responder] at hother
    rw [hmore, hother, List.length_append, List.length_singleton]
    omega

section Progress
variable {publicOf : Vector UInt8 32 → Vector UInt8 32}

/-- An end whose turn it is can write. -/
theorem Going.write (h : snow.TakesTurns half) (hcomplete : snow.Completes half publicOf)
    (hends : Beginning half start ends) (hgoing : Going ends es) {x : Side}
    (hturn : x.script[(messagesAt x ends es).length]? = some .written) :
    ∃ c m, Going ends (es ++ [(x, c)]) ∧
      messagesAt x ends (es ++ [(x, c)]) = messagesAt x ends es ++ [(.written, m)] := by
  have hleft : (messagesAt x ends es).map Prod.fst ≠ x.script := fun heq => by
    rw [← heq, List.getElem?_eq_none (by rw [List.length_map])] at hturn
    cases hturn
  obtain ⟨hs, hrun, hhalf⟩ := hgoing.there h hends hleft
  have hnow : (half hs).turn = some .written := by
    rw [turn_of_stage hhalf, hends.side, List.length_map]
    exact hturn
  have hempty : ([] : List UInt8).length + HANDSHAKE_OVERHEAD ≤ NOISE_MAX_MESSAGE := by decide
  obtain ⟨m, n, hcall, hm⟩ := hcomplete.writes hnow hempty
  have hwrite := withLock_message.1 n hcall (h.writes hcall).1
  have hstep : (noiseHandshake snow).step (.new (some hs)) (.writeMessage []) =
      (.new (some (snow.writeHandshake hs [] zeroed).1), .ok (.message m)) := by
    show (_, HandshakeReply.message <$> _) = _
    rw [NoiseHandshake.writeMessage, hwrite, hm]
    rfl
  refine ⟨.writeMessage [], m, hgoing.pass hrun ?_ ?_ fun _ hread => by cases hread⟩
  · rw [Mealy.out, hstep]
    rfl
  · rw [Mealy.next, hstep]
    rfl

/-- One that is to read can read what the other has written there. -/
theorem Going.read (h : snow.TakesTurns half) (hcomplete : snow.Completes half publicOf)
    (hends : Beginning half start ends)
    (hknows : (start .initiator).Knows publicOf (start .responder)) (hgoing : Going ends es)
    {x : Side} (pre : List (Way × List UInt8)) (m : List UInt8)
    (hwritten : pre ++ [(.written, m)] = messagesAt x.peer ends es)
    (hsame : pre.map Prod.snd = (messagesAt x ends es).map Prod.snd)
    (hleft : (messagesAt x ends es).map Prod.fst ≠ x.script) :
    ∃ c, Going ends (es ++ [(x, c)]) ∧
      messagesAt x ends (es ++ [(x, c)]) = messagesAt x ends es ++ [(.read, m)] := by
  obtain ⟨hs, hrun, hhalf⟩ := hgoing.there h hends hleft
  obtain ⟨writer, payload, hwriter, hwrites⟩ := (followed_at h hends x.peer es).wrote pre m
    (hwritten ▸ List.prefix_refl _)
  have hacquainted : (half writer).Knows publicOf (half hs) ∨
      (half hs).Knows publicOf (half writer) := by
    rw [hhalf, hwriter]
    cases x with
    | initiator => exact .inr hknows
    | responder => exact .inl hknows
  have hpassed : (half writer).passed = (half hs).passed := by
    rw [hhalf, hwriter]
    exact hsame
  obtain ⟨n, hcall⟩ := hcomplete.reads hacquainted hpassed hwrites
  have hread := withLock_message.1 n hcall (h.reads hcall).1
  have hstep : (noiseHandshake snow).step (.new (some hs)) (.readMessage m) =
      (.new (some (snow.readHandshake hs m zeroed).1),
        .ok (.message ((snow.readHandshake hs m zeroed).2.1.toList.take n))) := by
    show (_, HandshakeReply.message <$> _) = _
    rw [NoiseHandshake.readMessage, hread]
    rfl
  refine ⟨.readMessage m, hgoing.pass hrun ?_ ?_ fun msg hmsg => ?_⟩
  · rw [Mealy.out, hstep]
    rfl
  · rw [Mealy.next, hstep]
    rfl
  · obtain rfl := HandshakeCall.readMessage.inj hmsg
    rw [← hwritten]
    exact List.mem_append_right pre (List.mem_singleton_self _)

/-- An end at the end of its script has a session, or can make one. -/
theorem Going.convert (h : snow.TakesTurns half) (hends : Beginning half start ends)
    (hgoing : Going ends es) {x : Side} (hdone : (messagesAt x ends es).map Prod.fst = x.script) :
    ∃ rest, Going ends (es ++ rest) ∧ sessionsAt x ends (es ++ rest) ≠ [] ∧
      ∀ y, y ≠ x → messagesAt y ends (es ++ rest) = messagesAt y ends es ∧
        sessionsAt y ends (es ++ rest) = sessionsAt y ends es := by
  by_cases hsession : sessionsAt x ends es = []
  · have hfollowed := followed_at h hends x es
    have hkept := hgoing.kept x hsession
    have hstage := hfollowed.stage
    rw [hsession] at hstage
    generalize hrun : (handshakePair snow).run ends es x = s at hkept hstage
    cases hstage with
    | lost => exact absurd hkept Bool.false_ne_true
    | @there hs hhalf =>
      have hscript : (messagesAt x ends es).map Prod.fst = (start x).side.script := by
        rw [hends.side]
        exact hdone
      obtain ⟨t, ht⟩ := (h.converts hs).mpr ((hfollowed.turn_eq_none_iff hhalf).mpr hscript)
      have hmade : sessionsAt x ends (es ++ [(x, .intoTransport)]) = [.new t] := by
        rw [sessionsAt_concat, hsession]
        show _ ++ (seenAt HandshakeCall.sessionIn x
          ((x, .intoTransport), (noiseHandshake snow).out _ _)).toList = _
        rw [seenAt, if_pos rfl, hrun, out_intoTransport_ok ht]
        rfl
      refine ⟨[(x, .intoTransport)], ⟨?_, fun y hy => ?_⟩, ?_, fun y hyx => ?_⟩
      · exact hgoing.heard.concat fun _ hread => by cases hread
      · by_cases hyx : y = x
        · subst hyx
          rw [hmade] at hy
          cases hy
        · obtain ⟨-, hsessions, hother⟩ := concat_at_other hyx ends es .intoTransport
          rw [hsessions] at hy
          rw [hother]
          exact hgoing.kept y hy
      · rw [hmade]
        exact List.cons_ne_nil _ _
      · obtain ⟨hmessages, hsessions, -⟩ := concat_at_other hyx ends es .intoTransport
        exact ⟨hmessages, hsessions⟩
  · exact ⟨[], by rwa [List.append_nil], by rwa [List.append_nil],
      fun y _ => by rw [List.append_nil]; exact ⟨rfl, rfl⟩⟩

/-- Unless both ends have come to the end, one more message can pass. -/
theorem Going.advance (h : snow.TakesTurns half) (hcomplete : snow.Completes half publicOf)
    (hends : Beginning half start ends)
    (hknows : (start .initiator).Knows publicOf (start .responder)) (hgoing : Going ends es) :
    (∀ x, (messagesAt x ends es).map Prod.fst = x.script) ∨
    ∃ e, Going ends (es ++ [e]) ∧ messageCount ends (es ++ [e]) = messageCount ends es + 1 := by
  have hposition := position_run h hends hgoing.heard
  have hwrite := fun x => hgoing.write h hcomplete hends (x := x)
  have hread := fun x => hgoing.read h hcomplete hends hknows (x := x)
  generalize hi : messagesAt .initiator ends es = ms at hposition
  generalize hr : messagesAt .responder ends es = ns at hposition
  cases hposition with
  | started =>
    obtain ⟨c, m, hgo, hmore⟩ := hwrite .initiator (by rw [hi]; rfl)
    exact .inr ⟨_, hgo, messageCount_concat hmore⟩
  | called m =>
    obtain ⟨c, hgo, hmore⟩ := hread .responder [] m hi.symm (by rw [hr])
      (by rw [hr]; nofun)
    exact .inr ⟨_, hgo, messageCount_concat hmore⟩
  | heard m =>
    obtain ⟨c, a, hgo, hmore⟩ := hwrite .responder (by rw [hr]; rfl)
    exact .inr ⟨_, hgo, messageCount_concat hmore⟩
  | answered m a =>
    obtain ⟨c, hgo, hmore⟩ := hread .initiator [(.read, m)] a hr.symm (by rw [hi]; rfl)
      (by rw [hi]; nofun)
    exact .inr ⟨_, hgo, messageCount_concat hmore⟩
  | finished m a =>
    refine .inl fun x => ?_
    cases x with
    | initiator => rw [hi]; rfl
    | responder => rw [hr]; rfl

theorem messageCount_le (h : snow.TakesTurns half) (hends : Beginning half start ends)
    (es : List (Side × HandshakeCall)) : messageCount ends es ≤ 4 := by
  have hlength : ∀ x, (messagesAt x ends es).length ≤ 2 := fun x => by
    have hle := (followed_at h hends x es).script.length_le
    rw [hends.side, List.length_map] at hle
    cases x <;> exact hle
  have hi := hlength .initiator
  have hr := hlength .responder
  unfold messageCount
  omega

/-- So both come to the end. -/
theorem Going.complete (h : snow.TakesTurns half) (hcomplete : snow.Completes half publicOf)
    (hends : Beginning half start ends)
    (hknows : (start .initiator).Knows publicOf (start .responder)) (hgoing : Going ends es) :
    ∃ rest, Going ends (es ++ rest) ∧
      ∀ x, (messagesAt x ends (es ++ rest)).map Prod.fst = x.script := by
  -- by the number of messages that are still to pass
  generalize hleft : 4 - messageCount ends es = left
  induction left generalizing es with
  | zero =>
    rcases hgoing.advance h hcomplete hends hknows with hall | ⟨e, hgo, hcount⟩
    · exact ⟨[], by rwa [List.append_nil], by rwa [List.append_nil]⟩
    · have hle := messageCount_le h hends (es ++ [e])
      omega
  | succ left ih =>
    rcases hgoing.advance h hcomplete hends hknows with hall | ⟨e, hgo, hcount⟩
    · exact ⟨[], by rwa [List.append_nil], by rwa [List.append_nil]⟩
    · obtain ⟨rest, hgo, hall⟩ := ih hgo (by omega)
      rw [List.append_assoc] at hgo hall
      exact ⟨[e] ++ rest, hgo, hall⟩

/-- And both have a session in the end. -/
theorem Going.finish (h : snow.TakesTurns half) (hcomplete : snow.Completes half publicOf)
    (hends : Beginning half start ends)
    (hknows : (start .initiator).Knows publicOf (start .responder)) (hgoing : Going ends es) :
    ∃ rest, HeardFromPeer ends (es ++ rest) ∧ ∀ x, ∃ t, t ∈ sessionsAt x ends (es ++ rest) := by
  obtain ⟨rest, hgo, hall⟩ := hgoing.complete h hcomplete hends hknows
  obtain ⟨first, hgo, hfirst, hother⟩ := hgo.convert h hends (hall .initiator)
  obtain ⟨hmessages, -⟩ := hother .responder nofun
  have hscript := hall .responder
  rw [← hmessages] at hscript
  obtain ⟨second, hgo, hsecond, hother⟩ := hgo.convert h hends hscript
  obtain ⟨-, hsessions⟩ := hother .initiator nofun
  rw [← hsessions] at hfirst
  rw [List.append_assoc, List.append_assoc] at hgo hfirst hsecond
  refine ⟨rest ++ (first ++ second), hgo.heard, fun x => ?_⟩
  cases x with
  | initiator => exact List.exists_mem_of_ne_nil _ hfirst
  | responder => exact List.exists_mem_of_ne_nil _ hsecond

/-- **A handshake can always be finished.**  Whatever has been called at the two
ends, in turn or not, on whatever messages, as long as what was read came from the
other end and neither was converted too early: there are calls after which both ends
have a session, and the two sessions belong together. -/
theorem handshake_finishes {Key : Type} {view : snow.TransportState → Endpoint Key}
    (h : snow.TakesTurns half) (hcomplete : snow.Completes half publicOf)
    (hagree : snow.Agrees half view) (hends : Beginning half start ends)
    (hknows : (start .initiator).Knows publicOf (start .responder))
    (hheard : HeardFromPeer ends es) (hkept : NoneLost ends es) :
    ∃ rest t k, HeardFromPeer ends (es ++ rest) ∧
      (∀ x, t x ∈ sessionsAt x ends (es ++ rest)) ∧ Opened view k t := by
  obtain ⟨rest, hheard, hsessions⟩ := Going.finish h hcomplete hends hknows ⟨hheard, hkept⟩
  have ht := fun x => (hsessions x).choose_spec
  obtain ⟨k, hopened⟩ := sessions_open h hagree hends hheard ht
  exact ⟨rest, _, k, hheard, ht, hopened⟩

end Progress

/-- Two new handshakes of the library without cryptography, of a side that knows the
other. -/
def scriptedHalves : Side → Half
  | .initiator => ⟨.initiator, .replicate 32 1, some (.replicate 32 2), []⟩
  | .responder => ⟨.responder, .replicate 32 2, none, []⟩

def scriptedEnds (x : Side) : NoiseHandshake scriptedSnow := .new (some (scriptedHalves x))

theorem scriptedEnds_beginning :
    Beginning (id : scriptedSnow.HandshakeState → Half) scriptedHalves scriptedEnds where
  fresh x := ⟨scriptedHalves x, rfl, rfl⟩
  side x := by cases x <;> rfl
  passed x := by cases x <;> rfl

/-- Both write at once, and only the initiator in turn. -/
theorem handshake_finishes_both_wrote :
    let es : List (Side × HandshakeCall) :=
      [(.responder, .writeMessage [1]), (.initiator, .writeMessage [2])]
    ∃ rest t k, HeardFromPeer scriptedEnds (es ++ rest) ∧
      (∀ x, t x ∈ sessionsAt x scriptedEnds (es ++ rest)) ∧
      Opened (id : scriptedSnow.TransportState → Endpoint Side) k t := by
  intro es
  have hheard : HeardFromPeer scriptedEnds es := by
    intro pre x msg reply hpre
    have hmem := hpre.subset (List.mem_append_right pre (List.mem_singleton_self _))
    simp [es] at hmem
  have hkept : NoneLost scriptedEnds es := by
    intro x _
    cases x <;> rfl
  exact handshake_finishes scriptedSnow_takesTurns (scriptedSnow_completes id) scriptedSnow_agrees
    scriptedEnds_beginning ⟨rfl, rfl, rfl⟩ hheard hkept

end CtAgentAndroid
