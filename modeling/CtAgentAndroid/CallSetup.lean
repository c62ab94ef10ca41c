import CtAgentAndroid.HandshakeRuns

/-! # Setting up a session

The two handshakes of a session, called in any order while the network loses,
repeats and reorders what they write.  What it may not do is make up a message that
an end would read (`HeardFromPeer`).

Each end writes one message at most, so the two are always at one of five positions
(`Position`), and an end is never ahead of what the other has written.  So two
sessions that come of it belong together, each reading what the other writes
(`sessions_open`).  And nothing that is called stops a handshake for good, but a
conversion that comes too early (`handshake_finishes`).
-/
namespace CtAgentAndroid
open Rust Automaton

variable {snow : Snow} {half : snow.HandshakeState → Half}

/-! ## The two handshakes -/

/-- The two `NoiseHandshake`s of a session. -/
def handshakePair (snow : Snow) :
    Mealy (Side → NoiseHandshake snow) (Side × HandshakeCall)
      (Outcome CtAgentError (HandshakeReply snow)) where
  step ends e :=
    (Function.update ends e.1 ((noiseHandshake snow).next (ends e.1) e.2),
      (noiseHandshake snow).out (ends e.1) e.2)

/-- The call, if it is at `x`. -/
def callAt (x : Side) (e : Side × HandshakeCall) : Option HandshakeCall :=
  if e.1 = x then some e.2 else none

/-- What is seen in a step, if it is at `x`. -/
def seenAt {β : Type} (P : HandshakeCall × Outcome CtAgentError (HandshakeReply snow) → Option β)
    (x : Side) (step : (Side × HandshakeCall) × Outcome CtAgentError (HandshakeReply snow)) :
    Option β :=
  if step.1.1 = x then P (step.1.2, step.2) else none

/-- The messages that have passed at `x`, in order. -/
def messagesAt (x : Side) (ends : Side → NoiseHandshake snow) (es : List (Side × HandshakeCall)) :
    List (Way × List UInt8) :=
  ((handshakePair snow).trace ends es).filterMap (seenAt HandshakeCall.passedIn x)

/-- The sessions made at `x`. -/
def sessionsAt (x : Side) (ends : Side → NoiseHandshake snow) (es : List (Side × HandshakeCall)) :
    List (NoiseTransport snow) :=
  ((handshakePair snow).trace ends es).filterMap (seenAt HandshakeCall.sessionIn x)

/-- **What is read was written by the other end before.** -/
def HeardFromPeer (ends : Side → NoiseHandshake snow) (es : List (Side × HandshakeCall)) : Prop :=
  ∀ pre x msg reply, pre ++ [(x, .readMessage msg)] <+: es →
    (handshakePair snow).out ((handshakePair snow).run ends pre) (x, .readMessage msg) =
      .ok reply → (.written, msg) ∈ messagesAt x.peer ends pre

/-! ## Each end on its own -/

/-- An end takes part in its own calls. -/
theorem handshakePair_refines (snow : Snow) (x : Side) :
    (handshakePair snow).Refines (noiseHandshake snow) (fun ends s => ends x = s) (callAt x)
      (fun _ o o' => o = o') where
  skip {ends s e} h he := by
    have hne : x ≠ e.1 := fun heq => by
      rw [callAt, if_pos heq.symm] at he
      cases he
    exact (Function.update_of_ne hne _ ends).trans h
  follow {ends s e c} h he := by
    obtain ⟨hx, hc⟩ := Option.ite_none_right_eq_some.mp he
    obtain rfl := Option.some.inj hc
    subst hx h
    exact Function.update_self _ _ ends
  answer {ends s e c} h he := by
    obtain ⟨hx, hc⟩ := Option.ite_none_right_eq_some.mp he
    obtain rfl := Option.some.inj hc
    subst hx h
    rfl

section Ends
variable (x : Side) (ends : Side → NoiseHandshake snow) (es : List (Side × HandshakeCall))

theorem filterMap_seenAt {β : Type}
    (P : HandshakeCall × Outcome CtAgentError (HandshakeReply snow) → Option β) :
    ((handshakePair snow).trace ends es).filterMap (seenAt P x) =
      ((noiseHandshake snow).trace (ends x) (es.filterMap (callAt x))).filterMap P := by
  refine (handshakePair_refines snow x).filterMap_trace (fun e o he => ?_)
    (fun e c o o' he ho => ?_) rfl es
  · refine if_neg fun hx => ?_
    rw [callAt, if_pos hx] at he
    cases he
  · obtain ⟨hx, hc⟩ := Option.ite_none_right_eq_some.mp he
    obtain rfl := Option.some.inj hc
    rw [seenAt, if_pos hx, ho]

theorem messagesAt_eq :
    messagesAt x ends es = messagesPassed (ends x) (es.filterMap (callAt x)) :=
  filterMap_seenAt x ends es _

theorem sessionsAt_eq : sessionsAt x ends es = sessionsMade (ends x) (es.filterMap (callAt x)) :=
  filterMap_seenAt x ends es _

theorem run_at :
    (handshakePair snow).run ends es x =
      (noiseHandshake snow).run (ends x) (es.filterMap (callAt x)) :=
  (handshakePair_refines snow x).run rfl es

theorem messagesAt_concat (e : Side × HandshakeCall) :
    messagesAt x ends (es ++ [e]) = messagesAt x ends es ++
      (seenAt HandshakeCall.passedIn x
        (e, (handshakePair snow).out ((handshakePair snow).run ends es) e)).toList :=
  Mealy.filterMap_trace_concat _ _ _ _

end Ends

/-- Two new handshakes, one for each side. -/
structure Beginning (half : snow.HandshakeState → Half) (start : Side → Half)
    (ends : Side → NoiseHandshake snow) : Prop where
  fresh : ∀ x, ∃ hs, ends x = .new (some hs) ∧ half hs = start x
  side : ∀ x, (start x).side = x
  passed : ∀ x, (start x).passed = []

section Runs
variable {start : Side → Half} {ends : Side → NoiseHandshake snow}
  {es : List (Side × HandshakeCall)}

theorem followed_at (h : snow.TakesTurns half) (hends : Beginning half start ends) (x : Side)
    (es : List (Side × HandshakeCall)) :
    Followed half (start x) (messagesAt x ends es) (sessionsAt x ends es)
      ((handshakePair snow).run ends es x) := by
  obtain ⟨hs, hx, hhalf⟩ := hends.fresh x
  rw [messagesAt_eq, sessionsAt_eq, run_at, hx, ← hhalf]
  exact followed_run h hs (by rw [hhalf]; exact hends.passed x) _

/-! ## Both ends -/

theorem HeardFromPeer.of_concat {e : Side × HandshakeCall} (h : HeardFromPeer ends (es ++ [e])) :
    HeardFromPeer ends es :=
  fun pre x msg reply hpre => h pre x msg reply (hpre.trans (List.prefix_append es [e]))

/-- Whatever an end has read, the other has written. -/
theorem read_from_peer (hes : HeardFromPeer ends es) {x : Side} {msg : List UInt8}
    (h : (.read, msg) ∈ messagesAt x ends es) : (.written, msg) ∈ messagesAt x.peer ends es := by
  induction es using List.reverseRecOn with
  | nil => cases h
  | append_singleton es e ih =>
    rw [messagesAt_concat] at h ⊢
    refine List.mem_append_left _ ?_
    rcases List.mem_append.mp h with h | h
    · exact ih hes.of_concat h
    · obtain ⟨y, c⟩ := e
      rw [Option.mem_toList] at h
      obtain ⟨rfl, hpassed⟩ := Option.ite_none_right_eq_some.mp h
      have hheard := hes es y
      generalize hout : (handshakePair snow).out _ _ = o at hpassed
      cases c with
      | writeMessage payload => rcases o with (_ | _ | _) | _ | _ <;> cases hpassed
      | readMessage bytes =>
        rcases o with (reply | _ | _) | _ | _ <;> cases hpassed
        exact hheard msg _ (List.prefix_refl _) hout
      | isFinished => rcases o with (_ | _ | _) | _ | _ <;> cases hpassed
      | intoTransport => rcases o with (_ | _ | _) | _ | _ <;> cases hpassed

/-- Where the two ends are, by the messages that have passed at the initiator and
at the responder. -/
inductive Position : List (Way × List UInt8) → List (Way × List UInt8) → Prop
  | started : Position [] []
  | called (m : List UInt8) : Position [(.written, m)] []
  | heard (m : List UInt8) : Position [(.written, m)] [(.read, m)]
  | answered (m a : List UInt8) : Position [(.written, m)] [(.read, m), (.written, a)]
  | finished (m a : List UInt8) :
      Position [(.written, m), (.read, a)] [(.read, m), (.written, a)]

/-- The messages of a side, as far as they have come. -/
theorem messages_cases {ms : List (Way × List UInt8)} {first second : Way}
    (h : ms.map Prod.fst <+: [first, second]) :
    ms = [] ∨ (∃ m, ms = [(first, m)]) ∨ ∃ m a, ms = [(first, m), (second, a)] := by
  rcases ms with _ | ⟨⟨w, m⟩, _ | ⟨⟨v, a⟩, _ | ⟨b, rest⟩⟩⟩
  · exact .inl rfl
  · obtain rfl : w = first := (List.cons_prefix_cons.mp h).1
    exact .inr (.inl ⟨m, rfl⟩)
  · obtain ⟨hfirst, hrest⟩ := List.cons_prefix_cons.mp h
    obtain rfl : w = first := hfirst
    obtain rfl : v = second := (List.cons_prefix_cons.mp hrest).1
    exact .inr (.inr ⟨m, a, rfl⟩)
  · have hlength := h.length_le
    simp at hlength

/-- **The two ends are never apart.** -/
theorem position_run (h : snow.TakesTurns half) (hends : Beginning half start ends)
    (hes : HeardFromPeer ends es) :
    Position (messagesAt .initiator ends es) (messagesAt .responder ends es) := by
  have hi := (followed_at h hends .initiator es).script
  have hr := (followed_at h hends .responder es).script
  rw [hends.side] at hi hr
  have hasked : ∀ msg, (.read, msg) ∈ messagesAt .responder ends es →
      (.written, msg) ∈ messagesAt .initiator ends es := fun msg => read_from_peer hes
  have hanswered : ∀ msg, (.read, msg) ∈ messagesAt .initiator ends es →
      (.written, msg) ∈ messagesAt .responder ends es := fun msg => read_from_peer hes
  generalize messagesAt .initiator ends es = ms at hi hasked hanswered ⊢
  generalize messagesAt .responder ends es = ns at hr hasked hanswered ⊢
  rcases messages_cases hi with rfl | ⟨m, rfl⟩ | ⟨m, a, rfl⟩ <;>
    rcases messages_cases hr with rfl | ⟨m', rfl⟩ | ⟨m', a', rfl⟩
  · exact .started
  · exact absurd (hasked m' (by simp)) (by simp)
  · exact absurd (hasked m' (by simp)) (by simp)
  · exact .called m
  · obtain rfl : m' = m := by simpa using hasked m' (by simp)
    exact .heard m'
  · obtain rfl : m' = m := by simpa using hasked m' (by simp)
    exact .answered m' a'
  · exact absurd (hanswered a (by simp)) (by simp)
  · exact absurd (hanswered a (by simp)) (by simp)
  · obtain rfl : m' = m := by simpa using hasked m' (by simp)
    obtain rfl : a = a' := by simpa using hanswered a (by simp)
    exact .finished m' a

/-! ## The sessions that come of it -/

/-- A session was made at the end of the script. -/
theorem Followed.of_session {start : Half} {ms : List (Way × List UInt8)}
    {ts : List (NoiseTransport snow)} {s : NoiseHandshake snow} (h : Followed half start ms ts s)
    {t : NoiseTransport snow} (ht : t ∈ ts) :
    ms.map Prod.fst = start.side.script ∧ ∃ hs inner, t = .new inner ∧
      half hs = { start with passed := ms.map Prod.snd } ∧
      snow.intoTransportMode hs = .ok inner := by
  have hstage := h.stage
  cases hstage with
  | there hhalf => cases ht
  | taken inner hhalf done conversion =>
    obtain rfl := List.mem_singleton.mp ht
    exact ⟨(h.turn_eq_none_iff hhalf).mp done, _, inner, rfl, hhalf, conversion⟩
  | lost => cases ht

theorem Position.passed_eq {ms ns : List (Way × List UInt8)} (h : Position ms ns)
    (hi : ms.map Prod.fst = Side.initiator.script)
    (hr : ns.map Prod.fst = Side.responder.script) : ms.map Prod.snd = ns.map Prod.snd := by
  cases h with
  | finished m a => rfl
  | started => cases hi
  | called m => cases hr
  | heard m => cases hr
  | answered m a => cases hi

/-- **Two sessions belong together.**  Whatever is called at the two ends of a
handshake, in whatever order, if what they read was written by the other and a
session is made at each, then the two are the ends of one session at its start. -/
theorem sessions_open {Key : Type} {view : snow.TransportState → Endpoint Key}
    (h : snow.TakesTurns half) (hagree : snow.Agrees half view)
    (hends : Beginning half start ends) (hes : HeardFromPeer ends es)
    {t : Side → NoiseTransport snow} (ht : ∀ x, t x ∈ sessionsAt x ends es) :
    ∃ k, Opened view k t := by
  have hi := (followed_at h hends .initiator es).of_session (ht .initiator)
  have hr := (followed_at h hends .responder es).of_session (ht .responder)
  obtain ⟨hscript, hs, inner, ht, hhalf, hconvert⟩ := hi
  obtain ⟨hscript', hs', inner', ht', hhalf', hconvert'⟩ := hr
  rw [hends.side] at hscript hscript'
  have hpassed := (position_run h hends hes).passed_eq hscript hscript'
  have hside : (half hs).side = .initiator := by
    rw [hhalf]
    exact hends.side _
  have hside' : (half hs').side = .responder := by
    rw [hhalf']
    exact hends.side _
  have hsame : (half hs).passed = (half hs').passed := by
    rw [hhalf, hhalf']
    exact hpassed
  obtain ⟨k, hne, hview, hview'⟩ := hagree.opens hside hside' hsame hconvert hconvert'
  refine ⟨k, fun x => ?_, fun x => ?_, fun x => ?_⟩
  · cases x with
    | initiator => exact hne.symm
    | responder => exact hne
  · cases x with
    | initiator => rw [ht]; rfl
    | responder => rw [ht']; rfl
  · cases x with
    | initiator => rw [ht]; exact hview
    | responder => rw [ht']; exact hview'

end Runs
end CtAgentAndroid
