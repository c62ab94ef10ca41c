import Mathlib.Data.List.Nodup
import CtAgentAndroid.Automaton

/-! # One direction of an encrypted channel, over a network that loses and forges

A sender seals its messages under one key, each with the next value of a counter;
the receiver opens what the network hands it with a counter of its own, and counts
only what it could open.  The network is the adversary: it may lose, repeat,
reorder and delay what was sealed, and make up anything that is not sealed under
the key.

What comes out is settled by two lists, the ciphertexts sealed and the ciphertexts
delivered, in order (`Ledger`):

* `in_order`: the receiver has a prefix of what was sent, at every moment;
* `received_iff_sublist`: it has the first `n` messages exactly when their
  ciphertexts were delivered in order, whatever came in between;
* `sealedIn_nodup`: no ciphertext is made twice.

The cryptography is idealised: that a ciphertext opens under one key and counter,
to one message, is in the fields of `Scheme` and `Keyed`, and that nobody seals
without the key is `Unforged`.
-/
namespace SealedChannel
open Automaton
variable {Plain Cipher : Type}

/-- Authenticated encryption under one key.  Sealing can fail: the message may be
too long, or the counter spent. -/
structure Scheme (Plain Cipher : Type) where
  sealAt : Nat → Plain → Option Cipher
  unsealAt : Nat → Cipher → Option Plain
  unsealAt_iff : ∀ n c p, unsealAt n c = some p ↔ sealAt n p = some c
  counter_eq : ∀ {m n p q c}, sealAt m p = some c → sealAt n q = some c → m = n

/-- Encryption under keys, each of them a scheme of its own: what is sealed under
one key is sealed under no other. -/
structure Keyed (Key Plain Cipher : Type) where
  under : Key → Scheme Plain Cipher
  key_eq : ∀ {k l m n p q c}, (under k).sealAt m p = some c → (under l).sealAt n q = some c →
    k = l

/-- The messages sent and the messages received.  Their numbers are the counters
of the two ends. -/
structure Traffic (Plain : Type) where
  sent : List Plain
  got : List Plain
  deriving DecidableEq, Repr

/-- Before the first message. -/
def Traffic.empty : Traffic Plain := ⟨[], []⟩

inductive Event (Plain Cipher : Type) where
  | send (p : Plain)
  | deliver (c : Cipher)
  deriving DecidableEq, Repr

inductive Answer (Plain Cipher : Type) where
  | sealed (c : Cipher)
  | opened (p : Plain)
  | refused
  deriving DecidableEq, Repr

/-- The two ends. -/
def channel (S : Scheme Plain Cipher) :
    Mealy (Traffic Plain) (Event Plain Cipher) (Answer Plain Cipher) where
  step t
    | .send p =>
      match S.sealAt t.sent.length p with
      | some c => ({ t with sent := t.sent ++ [p] }, .sealed c)
      | none => (t, .refused)
    | .deliver c =>
      match S.unsealAt t.got.length c with
      | some p => ({ t with got := t.got ++ [p] }, .opened p)
      | none => (t, .refused)

/-! ## What is seen of a run -/

/-- The ciphertext an event delivers. -/
def Event.delivered : Event Plain Cipher → Option Cipher
  | .send _ => none
  | .deliver c => some c

/-- The ciphertext an answer carries. -/
def Answer.made : Answer Plain Cipher → Option Cipher
  | .sealed c => some c
  | .opened _ => none
  | .refused => none

/-- The message a step has sent. -/
def sentBy : Event Plain Cipher × Answer Plain Cipher → Option Plain
  | (.send p, .sealed _) => some p
  | (.send _, .opened _) => none
  | (.send _, .refused) => none
  | (.deliver _, _) => none

/-- The message a step has handed out. -/
def gotBy : Event Plain Cipher × Answer Plain Cipher → Option Plain
  | (_, .sealed _) => none
  | (_, .opened p) => some p
  | (_, .refused) => none

section Scheme
variable (S : Scheme Plain Cipher)

/-- The ciphertexts sealed in a run, in order. -/
def sealedIn (es : List (Event Plain Cipher)) : List Cipher :=
  ((channel S).trace .empty es).filterMap fun ea => ea.2.made

/-- The ciphertexts delivered in a run, in order. -/
def deliveredIn (es : List (Event Plain Cipher)) : List Cipher := es.filterMap Event.delivered

/-- `c` is sealed under the key, by whomever. -/
def Scheme.Seals (c : Cipher) : Prop := ∃ n p, S.sealAt n p = some c

/-- **The network cannot seal.**  Whatever it delivers is a ciphertext that the
sender has sealed before, or none of the key's. -/
def Unforged (es : List (Event Plain Cipher)) : Prop :=
  ∀ pre c, pre ++ [.deliver c] <+: es → c ∈ sealedIn S pre ∨ ¬ S.Seals c

/-! ## One step -/

/-- The four ways a step can go. -/
inductive Step (t : Traffic Plain) :
    Event Plain Cipher → Traffic Plain → Answer Plain Cipher → Prop
  | sealed (p c) (h : S.sealAt t.sent.length p = some c) :
      Step t (.send p) { t with sent := t.sent ++ [p] } (.sealed c)
  | unsent (p) (h : S.sealAt t.sent.length p = none) : Step t (.send p) t .refused
  | opened (c p) (h : S.sealAt t.got.length p = some c) :
      Step t (.deliver c) { t with got := t.got ++ [p] } (.opened p)
  | unopened (c) (h : ∀ p, S.sealAt t.got.length p ≠ some c) : Step t (.deliver c) t .refused

theorem step_spec (t : Traffic Plain) (e : Event Plain Cipher) :
    Step S t e ((channel S).next t e) ((channel S).out t e) := by
  cases e with
  | send p =>
    rw [Mealy.next, Mealy.out]
    cases h : S.sealAt t.sent.length p with
    | some c =>
      have hstep : (channel S).step t (.send p) =
          ({ t with sent := t.sent ++ [p] }, .sealed c) := by simp only [channel, h]
      rw [hstep]
      exact .sealed p c h
    | none =>
      have hstep : (channel S).step t (.send p) = (t, .refused) := by simp only [channel, h]
      rw [hstep]
      exact .unsent p h
  | deliver c =>
    rw [Mealy.next, Mealy.out]
    cases h : S.unsealAt t.got.length c with
    | some p =>
      have hstep : (channel S).step t (.deliver c) =
          ({ t with got := t.got ++ [p] }, .opened p) := by simp only [channel, h]
      rw [hstep]
      exact .opened c p ((S.unsealAt_iff _ _ _).mp h)
    | none =>
      have hstep : (channel S).step t (.deliver c) = (t, .refused) := by simp only [channel, h]
      rw [hstep]
      refine .unopened c fun p hp => ?_
      rw [(S.unsealAt_iff _ _ _).mpr hp] at h
      cases h

/-! ## The ledger of a run -/

/-- The ciphertexts `cs` are the messages sent, each sealed under its place. -/
structure SealedAs (t : Traffic Plain) (cs : List Cipher) : Prop where
  length : cs.length = t.sent.length
  sealed : ∀ i p, t.sent[i]? = some p → S.sealAt i p = cs[i]?

/-- What holds between the counters of the two ends and the ciphertexts `cs`
sealed and `ds` delivered so far. -/
structure Ledger (t : Traffic Plain) (cs ds : List Cipher) : Prop extends SealedAs S t cs where
  known : ∀ c ∈ ds, c ∈ cs ∨ ¬ S.Seals c
  in_order : t.got <+: t.sent
  received : ∀ n, n ≤ cs.length → (n ≤ t.got.length ↔ (cs.take n).Sublist ds)

variable {S}

theorem SealedAs.sealAt_getElem {t : Traffic Plain} {cs : List Cipher} (h : SealedAs S t cs)
    {i : Nat} {c : Cipher} (hi : cs[i]? = some c) :
    ∃ p, t.sent[i]? = some p ∧ S.sealAt i p = some c := by
  obtain ⟨hlt, -⟩ := List.getElem?_eq_some_iff.mp hi
  rw [h.length] at hlt
  have hp := List.getElem?_eq_getElem hlt
  exact ⟨_, hp, (h.sealed i _ hp).trans hi⟩

/-- A ciphertext under the counter `n` is not among those sealed elsewhere. -/
theorem SealedAs.getElem_of_mem {t : Traffic Plain} {cs : List Cipher} (h : SealedAs S t cs)
    {n : Nat} {p : Plain} {c : Cipher} (hc : S.sealAt n p = some c) (hmem : c ∈ cs) :
    cs[n]? = some c := by
  obtain ⟨i, hi⟩ := List.getElem?_of_mem hmem
  obtain ⟨q, -, hq⟩ := h.sealAt_getElem hi
  rw [S.counter_eq hc hq]
  exact hi

/-- The next ciphertext is a new one. -/
theorem SealedAs.not_mem {t : Traffic Plain} {cs : List Cipher} (h : SealedAs S t cs)
    {p : Plain} {c : Cipher} (hc : S.sealAt t.sent.length p = some c) : c ∉ cs := by
  intro hmem
  have hat := h.getElem_of_mem hc hmem
  rw [← h.length, List.getElem?_eq_none (Nat.le_refl _)] at hat
  cases hat

theorem SealedAs.nodup {t : Traffic Plain} {cs : List Cipher} (h : SealedAs S t cs) :
    cs.Nodup := by
  refine List.nodup_iff_getElem?_ne_getElem?.mpr fun i j hij hj heq => ?_
  obtain ⟨c, hc⟩ : ∃ c, cs[j]? = some c := ⟨_, List.getElem?_eq_getElem hj⟩
  obtain ⟨p, -, hp⟩ := h.sealAt_getElem (heq.trans hc)
  obtain ⟨q, -, hq⟩ := h.sealAt_getElem hc
  exact Nat.ne_of_lt hij (S.counter_eq hp hq)

/-- A step seals the next message, or none; the network has no part in it. -/
theorem SealedAs.next {t : Traffic Plain} {cs : List Cipher} (h : SealedAs S t cs)
    (e : Event Plain Cipher) :
    SealedAs S ((channel S).next t e) (cs ++ ((channel S).out t e).made.toList) := by
  generalize ht' : (channel S).next t e = t'
  generalize ha : (channel S).out t e = a
  have hstep : Step S t e t' a := ht' ▸ ha ▸ step_spec S t e
  cases hstep with
  | sealed p c hc =>
    refine ⟨by simp [h.length, Answer.made], fun i q hi => ?_⟩
    show S.sealAt i q = (cs ++ [c])[i]?
    rcases Nat.lt_trichotomy i t.sent.length with hlt | rfl | hgt
    · rw [List.getElem?_append_left hlt] at hi
      rw [List.getElem?_append_left (h.length ▸ hlt)]
      exact h.sealed i q hi
    · rw [List.getElem?_concat_length] at hi
      rw [← Option.some.inj hi, hc, ← h.length, List.getElem?_concat_length]
    · rw [List.getElem?_eq_none (by rw [List.length_append]; exact hgt)] at hi
      cases hi
  | unsent p _ => exact (List.append_nil cs).symm ▸ h
  | opened c p _ => exact (List.append_nil cs).symm ▸ ⟨h.length, h.sealed⟩
  | unopened c _ => exact (List.append_nil cs).symm ▸ h

theorem take_succ_of_getElem? {cs : List Cipher} {n : Nat} {c : Cipher} (h : cs[n]? = some c) :
    cs.take (n + 1) = cs.take n ++ [c] := by
  rw [List.take_add_one, h]
  rfl

theorem prefix_concat_of_getElem? {got sent : List Plain} (h : got <+: sent) {p : Plain}
    (hp : sent[got.length]? = some p) : got ++ [p] <+: sent := by
  obtain ⟨rest, rfl⟩ := h
  rw [List.getElem?_append_right (Nat.le_refl _), Nat.sub_self] at hp
  obtain ⟨rest, rfl⟩ : ∃ l, rest = p :: l := by
    cases rest with
    | nil => cases hp
    | cons q l => exact ⟨l, congrArg (· :: l) (Option.some.inj hp)⟩
  exact ⟨rest, by rw [List.append_assoc, List.singleton_append]⟩

/-- One more delivery completes the first `g + 1` if it is the one that was
missing, and nothing else. -/
theorem sublist_concat_iff {cs ds : List Cipher} {n g : Nat} {c : Cipher}
    (hcs : ∀ m, m ≤ cs.length → (m ≤ g ↔ (cs.take m).Sublist ds)) (hn : n ≤ cs.length) :
    (cs.take n).Sublist (ds ++ [c]) ↔ n ≤ g ∨ n = g + 1 ∧ cs[g]? = some c := by
  constructor
  · intro h
    obtain ⟨l₁, l₂, hl, h₁, h₂⟩ := List.sublist_append_iff.mp h
    rcases List.sublist_singleton.mp h₂ with rfl | rfl
    · rw [List.append_nil] at hl
      rw [← hl] at h₁
      exact .inl ((hcs n hn).mpr h₁)
    · -- the last of the first `n` is the ciphertext delivered now
      have hlen : n = l₁.length + 1 := by
        have := congrArg List.length hl
        rw [List.length_take_of_le hn, List.length_append] at this
        exact this
      have hl₁ : l₁ = cs.take l₁.length := by
        have := congrArg (List.take l₁.length) hl
        rw [List.take_take, List.take_left, hlen, Nat.min_eq_left (Nat.le_succ _)] at this
        exact this.symm
      have hc : cs[l₁.length]? = some c := by
        rw [← List.getElem?_take_of_lt (j := n) (by omega), hl, List.getElem?_concat_length]
      rw [hl₁] at h₁
      have hle := (hcs l₁.length (by omega)).mpr h₁
      by_cases hg : l₁.length = g
      · exact .inr ⟨by omega, hg ▸ hc⟩
      · exact .inl (by omega)
  · rintro (h | ⟨rfl, hc⟩)
    · exact ((hcs n hn).mp h).trans (List.sublist_append_left ds [c])
    · rw [take_succ_of_getElem? hc]
      exact ((hcs g (by omega)).mp (Nat.le_refl g)).append (List.Sublist.refl [c])

/-- One step of a network that does not forge keeps the ledger. -/
theorem Ledger.next {t : Traffic Plain} {cs ds : List Cipher} (h : Ledger S t cs ds)
    {e : Event Plain Cipher} (he : ∀ c, e = .deliver c → c ∈ cs ∨ ¬ S.Seals c) :
    Ledger S ((channel S).next t e) (cs ++ ((channel S).out t e).made.toList)
      (ds ++ e.delivered.toList) := by
  have hsealed := h.toSealedAs.next e
  generalize ht' : (channel S).next t e = t' at hsealed ⊢
  generalize ha : (channel S).out t e = a at hsealed ⊢
  have hstep : Step S t e t' a := ht' ▸ ha ▸ step_spec S t e
  have delivered_known : ∀ c, e = .deliver c → ∀ d ∈ ds ++ [c], d ∈ cs ∨ ¬ S.Seals d := by
    intro c hc d hd
    rcases List.mem_append.mp hd with hd | hd
    · exact h.known d hd
    · exact List.mem_singleton.mp hd ▸ he c hc
  cases hstep with
  | sealed p c hc =>
    have hnew : c ∉ ds := fun hmem =>
      (h.known c hmem).elim (h.not_mem hc) fun hno => hno ⟨_, p, hc⟩
    show Ledger S _ (cs ++ [c]) (ds ++ [])
    rw [List.append_nil]
    refine ⟨hsealed, fun d hd => ?_, ?_, fun n hn => ?_⟩
    · exact (h.known d hd).imp_left (List.mem_append_left [c])
    · exact h.in_order.trans (List.prefix_append t.sent [p])
    · by_cases hle : n ≤ cs.length
      · rw [List.take_append_of_le_length hle]
        exact h.received n hle
      · -- the new ciphertext has not been delivered yet
        have hlen : n = cs.length + 1 := by
          rw [List.length_append, List.length_singleton] at hn
          omega
        have hgot : t.got.length ≤ cs.length := h.length ▸ h.in_order.length_le
        have hshort : ¬ n ≤ t.got.length := by omega
        refine iff_of_false hshort fun hsub => hnew ?_
        rw [List.take_of_length_le (by simp [hlen])] at hsub
        exact hsub.subset (List.mem_append_right cs (List.mem_singleton_self c))
  | unsent p _ =>
    show Ledger S _ (cs ++ []) (ds ++ [])
    rw [List.append_nil, List.append_nil]
    exact h
  | opened c p hc =>
    have hmem : c ∈ cs := (he c rfl).resolve_right fun hno => hno ⟨_, p, hc⟩
    have hat : cs[t.got.length]? = some c := h.getElem_of_mem hc hmem
    obtain ⟨q, hsent, hq⟩ := h.sealAt_getElem hat
    obtain rfl : p = q := Option.some.inj
      (((S.unsealAt_iff _ _ _).mpr hc).symm.trans ((S.unsealAt_iff _ _ _).mpr hq))
    show Ledger S _ (cs ++ []) (ds ++ [c])
    rw [List.append_nil]
    refine ⟨⟨h.length, h.sealed⟩, delivered_known c rfl, ?_, fun n hn => ?_⟩
    · exact prefix_concat_of_getElem? h.in_order hsent
    · rw [sublist_concat_iff h.received hn, List.length_append, List.length_singleton]
      simp only [hat, and_true]
      omega
  | unopened c hno =>
    show Ledger S _ (cs ++ []) (ds ++ [c])
    rw [List.append_nil]
    refine ⟨h.toSealedAs, delivered_known c rfl, h.in_order, fun n hn => ?_⟩
    rw [sublist_concat_iff h.received hn]
    refine ⟨.inl, fun hor => hor.resolve_right ?_⟩
    rintro ⟨-, hat⟩
    obtain ⟨q, -, hq⟩ := h.sealAt_getElem hat
    exact hno q hq

/-! ## Runs -/

theorem sealedIn_concat (es : List (Event Plain Cipher)) (e : Event Plain Cipher) :
    sealedIn S (es ++ [e]) =
      sealedIn S es ++ ((channel S).out ((channel S).run .empty es) e).made.toList := by
  rw [sealedIn, Mealy.trace_append, List.filterMap_append]
  show _ ++ (List.filterMap _ [(e, (channel S).out ((channel S).run .empty es) e)]) = _
  rw [List.filterMap_cons]
  cases ((channel S).out ((channel S).run .empty es) e).made <;> rfl

theorem deliveredIn_concat (es : List (Event Plain Cipher)) (e : Event Plain Cipher) :
    deliveredIn (es ++ [e]) = deliveredIn es ++ e.delivered.toList := by
  rw [deliveredIn, List.filterMap_append, List.filterMap_cons]
  cases e.delivered <;> rfl

variable (S) in
theorem unforged_concat_iff {es : List (Event Plain Cipher)} {e : Event Plain Cipher} :
    Unforged S (es ++ [e]) ↔
      Unforged S es ∧ ∀ c, e = .deliver c → c ∈ sealedIn S es ∨ ¬ S.Seals c := by
  constructor
  · intro h
    refine ⟨fun pre c hpre => h pre c (hpre.trans (List.prefix_append es [e])), ?_⟩
    rintro c rfl
    exact h es c (List.prefix_refl _)
  · rintro ⟨h, he⟩ pre c hpre
    rcases List.prefix_concat_iff.mp hpre with heq | hpre
    · obtain ⟨rfl, hlast⟩ := List.append_inj' heq rfl
      exact he c (List.singleton_inj.mp hlast).symm
    · exact h pre c hpre

variable (S) in
theorem sealedAs_run (es : List (Event Plain Cipher)) :
    SealedAs S ((channel S).run .empty es) (sealedIn S es) := by
  induction es using List.reverseRecOn with
  | nil => exact ⟨rfl, fun i p hi => by cases i <;> cases hi⟩
  | append_singleton es e ih =>
    rw [Mealy.run_append, sealedIn_concat]
    exact ih.next e

/-- The ledger of a run. -/
theorem ledger_run {es : List (Event Plain Cipher)} (h : Unforged S es) :
    Ledger S ((channel S).run .empty es) (sealedIn S es) (deliveredIn es) := by
  induction es using List.reverseRecOn with
  | nil =>
    refine ⟨sealedAs_run S [], fun c hc => ?_, List.prefix_refl _, fun n hn => ?_⟩
    · cases hc
    · obtain rfl : n = 0 := Nat.le_zero.mp hn
      exact iff_of_true (Nat.zero_le _) (List.Sublist.refl _)
  | append_singleton es e ih =>
    obtain ⟨hes, he⟩ := (unforged_concat_iff S).mp h
    rw [Mealy.run_append, sealedIn_concat, deliveredIn_concat]
    exact (ih hes).next he

/-- What was sent and what was handed out can be read off the answers. -/
theorem filterMap_trace_run (es : List (Event Plain Cipher)) :
    ((channel S).trace .empty es).filterMap sentBy = ((channel S).run .empty es).sent ∧
      ((channel S).trace .empty es).filterMap gotBy = ((channel S).run .empty es).got := by
  induction es using List.reverseRecOn with
  | nil => exact ⟨rfl, rfl⟩
  | append_singleton es e ih =>
    rw [Mealy.trace_append, Mealy.run_append, List.filterMap_append, List.filterMap_append,
      ih.1, ih.2]
    show _ ++ List.filterMap _ [(e, (channel S).out _ e)] = ((channel S).next _ e).sent ∧
      _ ++ List.filterMap _ [(e, (channel S).out _ e)] = ((channel S).next _ e).got
    generalize (channel S).run .empty es = t
    have hstep := step_spec S t e
    generalize (channel S).next t e = t' at hstep ⊢
    generalize (channel S).out t e = a at hstep ⊢
    cases hstep <;> exact ⟨by simp [sentBy], by simp [gotBy]⟩

/-- **In order.**  Whatever a network does that cannot seal, the receiver has a
prefix of what was sent. -/
theorem in_order {es : List (Event Plain Cipher)} (h : Unforged S es) :
    ((channel S).run .empty es).got <+: ((channel S).run .empty es).sent :=
  (ledger_run h).in_order

/-- **What gets through.**  The first `n` messages have been received exactly when
their ciphertexts were delivered in order. -/
theorem received_iff_sublist {es : List (Event Plain Cipher)} (h : Unforged S es) {n : Nat}
    (hn : n ≤ ((channel S).run .empty es).sent.length) :
    n ≤ ((channel S).run .empty es).got.length ↔
      ((sealedIn S es).take n).Sublist (deliveredIn es) :=
  (ledger_run h).received n (by rwa [(ledger_run h).length])

/-- **What is accepted.**  The receiver opens a ciphertext exactly when it is that
of the next message, and gets that message. -/
theorem opened_iff {es : List (Event Plain Cipher)} {c : Cipher} {p : Plain}
    (h : Unforged S (es ++ [.deliver c])) :
    let t := (channel S).run .empty es
    (channel S).out t (.deliver c) = .opened p ↔
      t.sent[t.got.length]? = some p ∧ (sealedIn S es)[t.got.length]? = some c := by
  intro t
  obtain ⟨hes, he⟩ := (unforged_concat_iff S).mp h
  have hledger := ledger_run hes
  have hstep := step_spec S t (.deliver c)
  generalize (channel S).next t (.deliver c) = t' at hstep
  generalize (channel S).out t (.deliver c) = a at hstep ⊢
  cases hstep with
  | opened _ q hq =>
    have hmem : c ∈ sealedIn S es := (he c rfl).resolve_right fun hno => hno ⟨_, q, hq⟩
    have hat := hledger.getElem_of_mem hq hmem
    obtain ⟨r, hr, hrc⟩ := hledger.sealAt_getElem hat
    obtain rfl : q = r := Option.some.inj
      (((S.unsealAt_iff _ _ _).mpr hq).symm.trans ((S.unsealAt_iff _ _ _).mpr hrc))
    rw [Answer.opened.injEq]
    constructor
    · rintro rfl
      exact ⟨hr, hat⟩
    · rintro ⟨hp, -⟩
      exact Option.some.inj (hr.symm.trans hp)
  | unopened _ hno =>
    refine iff_of_false nofun fun hat => ?_
    obtain ⟨q, -, hq⟩ := hledger.sealAt_getElem hat.2
    exact hno q hq

variable (S)

/-- **No counter is used twice**, whatever is delivered. -/
theorem sealedIn_nodup (es : List (Event Plain Cipher)) : (sealedIn S es).Nodup :=
  (sealedAs_run S es).nodup

/-- Every ciphertext of the run is sealed under the key. -/
theorem seals_of_mem {es : List (Event Plain Cipher)} {c : Cipher} (hc : c ∈ sealedIn S es) :
    S.Seals c := by
  obtain ⟨i, hi⟩ := List.getElem?_of_mem hc
  obtain ⟨p, -, hp⟩ := (sealedAs_run S es).sealAt_getElem hi
  exact ⟨i, p, hp⟩

end Scheme
end SealedChannel
