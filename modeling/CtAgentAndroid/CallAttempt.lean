import CtAgentAndroid.Automaton

/-! # A call attempt over two transports, with one fallback

What the fallback controller is for, in its own terms and without its texts,
timers or latches for the user interface.  One attempt tries a *primary*
transport; once, and only once, it may offer a *secondary* one
(`Attempt.spent` records the offer); it ends on one of them or is given up.
Reports on the primary, the secondary's own result and the passage of time
arrive in any order.

Time matters only through the stage it has reached (`Stage`), and only while the
attempt is still trying (`elapsed_of_settled`).  Everything below is about an
arbitrary sequence of reports.
-/
namespace CtAgentAndroid
open Automaton

/-- Where the attempt stands. -/
inductive Phase where
  | trying
  | onPrimary
  | fallingBack
  | onSecondary
  | givenUp
  deriving DecidableEq, Repr

/-- How far time has run: before the fallback is due, from then on, and past the
deadline. -/
inductive Stage where
  | early
  | fallbackDue
  | overdue
  deriving DecidableEq, Repr

/-- What the environment reports to the attempt. -/
inductive Report where
  | primaryUp
  | primaryDown
  | primaryOther
  | secondary (up : Bool)
  | elapsed (stage : Stage)
  deriving DecidableEq, Repr

/-- The attempt: its phase, and whether the fallback has been offered. -/
structure Attempt where
  phase : Phase
  spent : Bool
  deriving DecidableEq, Repr

namespace Attempt

/-- The fallback is offered, for the only time. -/
def offer : Attempt := ⟨.fallingBack, true⟩

/-- One report. -/
def next (a : Attempt) : Report → Attempt
  | .primaryUp => { a with phase := .onPrimary }
  | .primaryDown => if a.spent then a else offer
  | .primaryOther => a
  | .secondary up => { a with phase := if up then .onSecondary else .givenUp }
  | .elapsed stage =>
    if a.phase ≠ .trying then a
    else match stage with
      | .early => a
      | .fallbackDue => if a.spent then a else offer
      | .overdue => { a with phase := .givenUp }

end Attempt

/-- The attempt as a machine that answers with its phase. -/
def attemptMachine : Mealy Attempt Report Phase where
  step a r := (a.next r, (a.next r).phase)

@[simp] theorem attemptMachine_next (a : Attempt) (r : Report) :
    attemptMachine.next a r = a.next r := rfl

namespace Attempt

@[simp] theorem next_primaryUp (a : Attempt) : a.next .primaryUp = ⟨.onPrimary, a.spent⟩ := rfl

@[simp] theorem next_primaryOther (a : Attempt) : a.next .primaryOther = a := rfl

@[simp] theorem next_secondary (a : Attempt) (up : Bool) :
    a.next (.secondary up) = ⟨if up then .onSecondary else .givenUp, a.spent⟩ := rfl

@[simp] theorem next_primaryDown_spent (p : Phase) : next ⟨p, true⟩ .primaryDown = ⟨p, true⟩ := rfl

@[simp] theorem next_primaryDown_fresh (p : Phase) : next ⟨p, false⟩ .primaryDown = offer := rfl

/-- **Time alone undoes nothing.** -/
theorem elapsed_of_settled {a : Attempt} (h : a.phase ≠ .trying) (stage : Stage) :
    a.next (.elapsed stage) = a := if_pos h

/-- An attempt that has stopped trying never tries again. -/
theorem next_settled {a : Attempt} (h : a.phase ≠ .trying) (r : Report) :
    (a.next r).phase ≠ .trying := by
  cases r with
  | primaryUp => simp
  | primaryDown =>
    simp only [next]
    split
    · exact h
    · simp [offer]
  | primaryOther => exact h
  | secondary up => cases up <;> simp
  | elapsed stage => rwa [elapsed_of_settled h]

end Attempt

namespace Report

/-- A report on the primary, as opposed to the secondary or the clock. -/
def isPrimary : Report → Bool
  | primaryUp | primaryDown | primaryOther => true
  | _ => false

/-- A report that settles the phase whatever it was: the primary is up, or the
secondary has its result. -/
def isAnswer : Report → Bool
  | primaryUp | secondary _ => true
  | _ => false

/-- Bad news: everything but the primary coming up and the secondary
succeeding. -/
def isBadNews : Report → Bool
  | primaryUp => false
  | secondary up => !up
  | _ => true

/-- The first report that the primary is down is followed by no answer. -/
def failureUnanswered : List Report → Bool
  | [] => false
  | primaryDown :: rs => rs.all fun r => !r.isAnswer
  | _ :: rs => failureUnanswered rs

end Report

namespace Attempt
open Report

/-- An answer forgets the phase it found. -/
theorem next_answer (p q : Phase) (spent : Bool) {r : Report} (h : r.isAnswer = true) :
    next ⟨p, spent⟩ r = next ⟨q, spent⟩ r := by
  cases r <;> first | rfl | cases h

/-- With the offer spent and the trying over, only an answer moves the phase. -/
theorem next_of_not_answer {p : Phase} (hp : p ≠ .trying) {r : Report} (h : r.isAnswer = false) :
    next ⟨p, true⟩ r = ⟨p, true⟩ := by
  cases r with
  | primaryDown => rfl
  | primaryOther => rfl
  | elapsed stage => exact elapsed_of_settled hp stage
  | primaryUp => cases h
  | secondary up => cases h

/-- **A settled attempt whose offer is spent stays put until an answer.** -/
theorem run_of_not_answer {p : Phase} (hp : p ≠ .trying) {rs : List Report}
    (h : ∀ r ∈ rs, r.isAnswer = false) : attemptMachine.run ⟨p, true⟩ rs = ⟨p, true⟩ := by
  induction rs with
  | nil => rfl
  | cons r rs ih =>
    obtain ⟨hr, hrs⟩ := List.forall_mem_cons.mp h
    rw [Mealy.run_cons, attemptMachine_next, next_of_not_answer hp hr, ih hrs]

/-- An attempt on the secondary has spent its offer, if the secondary only
answers an offer. -/
theorem next_onSecondary_spent {a : Attempt} (ha : a.phase = .onSecondary → a.spent = true)
    {r : Report} (hr : ∀ up, r = .secondary up → a.spent = true)
    (h : (a.next r).phase = .onSecondary) : (a.next r).spent = true := by
  have hoffer : (if a.spent then a else offer).spent = true := by
    split
    · next hspent => exact hspent
    · rfl
  cases r with
  | primaryUp => cases h
  | primaryDown => exact hoffer
  | primaryOther => exact ha h
  | secondary up => exact hr up rfl
  | elapsed stage =>
    by_cases ht : a.phase = .trying
    · -- from trying, time leads to the fallback or to giving up
      cases stage with
      | early =>
        have hnext : a.next (.elapsed .early) = a := ite_self a
        rw [hnext, ht] at h
        cases h
      | fallbackDue =>
        have hnext : a.next (.elapsed .fallbackDue) = if a.spent then a else offer :=
          if_neg (not_not.mpr ht)
        rw [hnext]
        exact hoffer
      | overdue =>
        have hnext : a.next (.elapsed .overdue) = { a with phase := .givenUp } :=
          if_neg (not_not.mpr ht)
        rw [hnext] at h
        cases h
    · rw [elapsed_of_settled ht] at h ⊢
      exact ha h

/-! ## Giving up -/

/-- **A given-up attempt whose offer is spent stays given up under bad news.** -/
theorem run_givenUp_spent {rs : List Report} (h : ∀ r ∈ rs, r.isBadNews = true) :
    attemptMachine.run ⟨.givenUp, true⟩ rs = ⟨.givenUp, true⟩ := by
  induction rs with
  | nil => rfl
  | cons r rs ih =>
    obtain ⟨hr, hrs⟩ := List.forall_mem_cons.mp h
    have hnext : next ⟨.givenUp, true⟩ r = ⟨.givenUp, true⟩ := by
      cases r with
      | primaryUp => cases hr
      | primaryDown => rfl
      | primaryOther => rfl
      | secondary up => cases up <;> first | rfl | cases hr
      | elapsed stage => exact elapsed_of_settled (by simp) stage
    rw [Mealy.run_cons, attemptMachine_next, hnext, ih hrs]

/-- If its offer is not spent, it does as long as the primary is not reported
down. -/
theorem run_givenUp_fresh {rs : List Report} (h : ∀ r ∈ rs, r.isBadNews = true)
    (hdown : Report.primaryDown ∉ rs) :
    attemptMachine.run ⟨.givenUp, false⟩ rs = ⟨.givenUp, false⟩ := by
  induction rs with
  | nil => rfl
  | cons r rs ih =>
    obtain ⟨hr, hrs⟩ := List.forall_mem_cons.mp h
    rw [List.mem_cons, not_or] at hdown
    have hnext : next ⟨.givenUp, false⟩ r = ⟨.givenUp, false⟩ := by
      cases r with
      | primaryUp => cases hr
      | primaryDown => exact absurd rfl hdown.1
      | primaryOther => rfl
      | secondary up => cases up <;> first | rfl | cases hr
      | elapsed stage => exact elapsed_of_settled (by simp) stage
    rw [Mealy.run_cons, attemptMachine_next, hnext, ih hrs hdown.2]

/-- **When a given-up attempt stays given up.**  Under bad news that is exactly
when the offer is spent or the primary is not reported down. -/
theorem stays_givenUp_iff {a : Attempt} (ha : a.phase = .givenUp) {rs : List Report}
    (h : ∀ r ∈ rs, r.isBadNews = true) :
    attemptMachine.AllStates (fun b => b.phase = .givenUp) a rs ↔
      (a.spent = true ∨ Report.primaryDown ∉ rs) := by
  obtain ⟨p, spent⟩ := a
  obtain rfl : p = .givenUp := ha
  have sub : ∀ {pre : List Report}, pre <+: rs → ∀ r ∈ pre, r.isBadNews = true :=
    fun hpre r hr => h r (hpre.subset hr)
  constructor
  · intro hall
    by_contra hnot
    obtain ⟨hfresh, hdown⟩ := not_or.mp hnot
    obtain rfl : spent = false := by simpa using hfresh
    -- stop the run right after the first failure: there it has fallen back
    obtain ⟨pre, post, rfl, hpre⟩ := List.eq_append_cons_of_mem (not_not.mp hdown)
    have hstop := hall (pre ++ [.primaryDown]) ⟨post, by simp⟩
    rw [Mealy.run_append, run_givenUp_fresh (sub (List.prefix_append _ _)) hpre] at hstop
    cases hstop
  · rintro (hspent | hdown) pre hpre
    · obtain rfl : spent = true := hspent
      rw [run_givenUp_spent (sub hpre)]
    · cases spent with
      | true => rw [run_givenUp_spent (sub hpre)]
      | false => rw [run_givenUp_fresh (sub hpre) fun hm => hdown (hpre.subset hm)]

/-! ## Two runs that differ in the offer -/

/-- With the offer spent in both, two attempts that are past trying agree after a
run exactly when it contains an answer or they agreed before it. -/
theorem run_spent_phase_eq_iff {p q : Phase} (hp : p ≠ .trying) (hq : q ≠ .trying) (hpq : p ≠ q)
    (rs : List Report) :
    (attemptMachine.run ⟨p, true⟩ rs).phase = (attemptMachine.run ⟨q, true⟩ rs).phase ↔
      ¬ (rs.all fun r => !r.isAnswer) = true := by
  induction rs with
  | nil => simpa using hpq
  | cons r rs ih =>
    cases hr : r.isAnswer with
    | true => simp [next_answer p q true hr, hr]
    | false => simpa [next_of_not_answer hp hr, next_of_not_answer hq hr, hr] using ih

/-- **The offer is invisible until the primary fails unanswered.**  Two attempts
in the same phase, one with the offer spent and one without, end in the same
phase exactly when no failure of the primary goes unanswered. -/
theorem run_phase_eq_iff {p : Phase} (hp : p ≠ .trying) (hf : p ≠ .fallingBack)
    (rs : List Report) :
    (attemptMachine.run ⟨p, true⟩ rs).phase = (attemptMachine.run ⟨p, false⟩ rs).phase ↔
      failureUnanswered rs = false := by
  induction rs generalizing p with
  | nil => simp [failureUnanswered]
  | cons r rs ih =>
    cases r with
    | primaryUp => simpa [failureUnanswered] using ih (p := .onPrimary) (by simp) (by simp)
    | primaryOther => simpa [failureUnanswered] using ih hp hf
    | secondary up =>
      cases up with
      | true => simpa [failureUnanswered] using ih (p := .onSecondary) (by simp) (by simp)
      | false => simpa [failureUnanswered] using ih (p := .givenUp) (by simp) (by simp)
    | elapsed stage =>
      simp only [Mealy.run_cons, attemptMachine_next]
      rw [elapsed_of_settled hp, elapsed_of_settled hp]
      simpa [failureUnanswered] using ih hp hf
    | primaryDown =>
      -- the spent run keeps its phase, the other one falls back; from here on
      -- both offers are spent
      have := run_spent_phase_eq_iff hp (by simp : Phase.fallingBack ≠ .trying) hf rs
      simpa [failureUnanswered, offer] using this

/-! ## Time and the primary racing -/

/-- The one race that matters: the fallback falls due just before the primary
comes up. -/
def RaceSpendsOffer (a : Attempt) (stage : Stage) (r : Report) : Prop :=
  a.phase = .trying ∧ stage = .fallbackDue ∧ r = .primaryUp

instance (a : Attempt) (stage : Stage) (r : Report) : Decidable (a.RaceSpendsOffer stage r) :=
  inferInstanceAs (Decidable (_ ∧ _ ∧ _))

/-- Every other race between the clock and the primary ends in one state. -/
theorem elapsed_comm {a : Attempt} (ha : a.phase = .trying → a.spent = false) {stage : Stage}
    {r : Report} (hr : r.isPrimary = true) (h : ¬ a.RaceSpendsOffer stage r) :
    (a.next (.elapsed stage)).next r = (a.next r).next (.elapsed stage) := by
  by_cases ht : a.phase = .trying
  · obtain ⟨p, spent⟩ := a
    obtain rfl : p = .trying := ht
    obtain rfl : spent = false := ha rfl
    cases r with
    | primaryUp =>
      cases stage with
      | fallbackDue => exact absurd ⟨rfl, rfl, rfl⟩ h
      | _ => rfl
    | primaryDown => cases stage <;> rfl
    | primaryOther => rfl
    | secondary up => cases hr
    | elapsed stage => cases hr
  · rw [elapsed_of_settled ht, elapsed_of_settled (next_settled ht r)]

/-- **The race, decided.**  The two orders end in the same phase, whatever
follows, except when the clock spends the offer just before the primary comes up
and a later failure of the primary goes unanswered. -/
theorem race_phase_eq_iff {a : Attempt} (ha : a.phase = .trying → a.spent = false)
    (stage : Stage) {r : Report} (hr : r.isPrimary = true) (rs : List Report) :
    (attemptMachine.run a (.elapsed stage :: r :: rs)).phase =
        (attemptMachine.run a (r :: .elapsed stage :: rs)).phase ↔
      ¬ (a.RaceSpendsOffer stage r ∧ failureUnanswered rs = true) := by
  simp only [Mealy.run_cons, attemptMachine_next]
  by_cases h : a.RaceSpendsOffer stage r
  · obtain ⟨p, spent⟩ := a
    obtain ⟨hp, rfl, rfl⟩ := h
    obtain rfl : p = .trying := hp
    obtain rfl : spent = false := ha rfl
    -- both orders come up on the primary, and only the clock's has spent the offer
    have hclock : (next ⟨.trying, false⟩ (.elapsed .fallbackDue)).next .primaryUp =
        ⟨.onPrimary, true⟩ := rfl
    have hprimary : (next ⟨.trying, false⟩ .primaryUp).next (.elapsed .fallbackDue) =
        ⟨.onPrimary, false⟩ := rfl
    rw [hclock, hprimary, run_phase_eq_iff (by simp) (by simp)]
    simp [RaceSpendsOffer]
  · rw [elapsed_comm ha hr h]
    simp [h]

end Attempt
end CtAgentAndroid
