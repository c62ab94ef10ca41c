import Mathlib.Data.List.Infix

/-! # Deterministic machines with outputs, and their runs

A component that is called again and again, each call reading and writing one
state and returning one value, is a Mealy machine; what the component promises
is promised for every finite sequence of calls.  This module has the induction
rules for such promises, so that a component only ever argues about one step:

* `Preserves.run`: what every step preserves holds after every run;
* `allStates_of_allSteps`: what the steps of a *well-behaved* run preserve holds
  in every state of it;
* `allStates_iff_allSteps`: if every other step breaks the promise, the
  well-behaved runs are exactly those in which it holds;
* `allSteps_congr_of_inv`: guards that agree under an invariant allow the same
  runs;
* `history_run` and `prefixes_iff_allSteps`: the same for promises about a state and
  the events that led to it;
* `count_le_one`: what sets a latch, and needs it clear, happens once;
* `count_balance`: a number is what went in less what came out;
* `latch_iff_outputs`: a latch set by one kind of answer records whether such an
  answer was given;
* `run_map`: a functional simulation carries runs to runs;
* `Refines.run` and `Refines.filterMap_trace`: a machine that takes part in some
  of the events of another sees a run of its own, and gives the answers the other
  gives.
-/
namespace Automaton

/-- A deterministic machine: each event takes a state to the next one and
answers with an output. -/
structure Mealy (State Event Output : Type) where
  step : State → Event → State × Output

namespace Mealy
variable {σ ι ω : Type} (M : Mealy σ ι ω)

/-- The state after one event. -/
def next (s : σ) (e : ι) : σ := (M.step s e).1

/-- The answer to one event. -/
def out (s : σ) (e : ι) : ω := (M.step s e).2

/-- The state after a sequence of events. -/
def run (s : σ) (es : List ι) : σ := es.foldl M.next s

/-- The answers to a sequence of events, in order. -/
def outputs : σ → List ι → List ω
  | _, [] => []
  | s, e :: es => M.out s e :: outputs (M.next s e) es

@[simp] theorem run_nil (s : σ) : M.run s [] = s := rfl

@[simp] theorem run_cons (s : σ) (e : ι) (es : List ι) :
    M.run s (e :: es) = M.run (M.next s e) es := rfl

@[simp] theorem run_append (s : σ) (es fs : List ι) :
    M.run s (es ++ fs) = M.run (M.run s es) fs := List.foldl_append

@[simp] theorem outputs_nil (s : σ) : M.outputs s [] = [] := rfl

@[simp] theorem outputs_cons (s : σ) (e : ι) (es : List ι) :
    M.outputs s (e :: es) = M.out s e :: M.outputs (M.next s e) es := rfl

@[simp] theorem outputs_append (s : σ) (es fs : List ι) :
    M.outputs s (es ++ fs) = M.outputs s es ++ M.outputs (M.run s es) fs := by
  induction es generalizing s with
  | nil => rfl
  | cons e es ih => simp [ih]

/-! ## States and steps of a run -/

/-- `Q` holds in every state of the run, the first and the last included. -/
def AllStates (Q : σ → Prop) (s : σ) (es : List ι) : Prop :=
  ∀ pre, pre <+: es → Q (M.run s pre)

/-- `G` holds of every step of the run: of the state before it and its event. -/
def AllSteps (G : σ → ι → Prop) (s : σ) (es : List ι) : Prop :=
  ∀ pre e, pre ++ [e] <+: es → G (M.run s pre) e

theorem allStates_nil {Q : σ → Prop} {s : σ} : M.AllStates Q s [] ↔ Q s := by
  simp [AllStates]

theorem allStates_cons {Q : σ → Prop} {s : σ} {e : ι} {es : List ι} :
    M.AllStates Q s (e :: es) ↔ Q s ∧ M.AllStates Q (M.next s e) es := by
  constructor
  · intro h
    refine ⟨h [] (List.nil_prefix), fun pre hpre => ?_⟩
    exact h (e :: pre) (List.cons_prefix_cons.mpr ⟨rfl, hpre⟩)
  · rintro ⟨hs, h⟩ pre hpre
    rcases List.prefix_cons_iff.mp hpre with rfl | ⟨t, rfl, ht⟩
    · exact hs
    · exact h t ht

theorem allSteps_nil {G : σ → ι → Prop} {s : σ} : M.AllSteps G s [] := by
  intro pre e h
  simp at h

theorem allSteps_cons {G : σ → ι → Prop} {s : σ} {e : ι} {es : List ι} :
    M.AllSteps G s (e :: es) ↔ G s e ∧ M.AllSteps G (M.next s e) es := by
  constructor
  · intro h
    refine ⟨h [] e (by simp), fun pre f hpre => ?_⟩
    exact h (e :: pre) f (List.cons_prefix_cons.mpr ⟨rfl, hpre⟩)
  · rintro ⟨hs, h⟩ pre f hpre
    cases pre with
    | nil =>
      obtain rfl : f = e := by simpa using hpre
      exact hs
    | cons d pre =>
      obtain ⟨rfl, htail⟩ := List.cons_prefix_cons.mp hpre
      exact h pre f htail

/-- Guards that agree on every step allow the same runs. -/
theorem allSteps_congr {G H : σ → ι → Prop} (h : ∀ s e, G s e ↔ H s e) {s : σ} {es : List ι} :
    M.AllSteps G s es ↔ M.AllSteps H s es := by
  unfold AllSteps
  simp only [h]

variable {M}

/-- Guards that agree wherever an invariant holds, and keep it, allow the same
runs. -/
theorem allSteps_congr_of_inv {G H : σ → ι → Prop} {I : σ → Prop}
    (h : ∀ s e, I s → (G s e ↔ H s e)) (keep : ∀ s e, I s → G s e → I (M.next s e)) {s : σ}
    (hs : I s) (es : List ι) : M.AllSteps G s es ↔ M.AllSteps H s es := by
  induction es generalizing s with
  | nil => exact iff_of_true M.allSteps_nil M.allSteps_nil
  | cons e es ih =>
    rw [allSteps_cons, allSteps_cons, ← h s e hs]
    exact and_congr_right fun hG => ih (keep s e hs hG)

theorem AllStates.imp {Q R : σ → Prop} {s : σ} {es : List ι} (h : M.AllStates Q s es)
    (hQR : ∀ s, Q s → R s) : M.AllStates R s es := fun pre hpre => hQR _ (h pre hpre)

/-! ## Invariants -/

variable (M) in
/-- Every step preserves `I`. -/
def Preserves (I : σ → Prop) : Prop := ∀ s e, I s → I (M.next s e)

theorem Preserves.run {I : σ → Prop} (h : M.Preserves I) {s : σ} (hs : I s) (es : List ι) :
    I (M.run s es) := by
  induction es generalizing s with
  | nil => exact hs
  | cons e es ih => exact ih (h s e hs)

theorem Preserves.outputs {I : σ → Prop} {P : ω → Prop} (h : M.Preserves I)
    (hout : ∀ s e, I s → P (M.out s e)) {s : σ} (hs : I s) (es : List ι) :
    ∀ o ∈ M.outputs s es, P o := by
  induction es generalizing s with
  | nil => simp
  | cons e es ih =>
    intro o ho
    rcases List.mem_cons.mp ho with rfl | ho
    · exact hout s e hs
    · exact ih (h s e hs) o ho

/-- **Guarded invariants.**  If steps satisfying `G` preserve `I`, a run all of
whose steps satisfy `G` stays in `I`. -/
theorem allStates_of_allSteps {G : σ → ι → Prop} {I : σ → Prop}
    (keep : ∀ s e, I s → G s e → I (M.next s e)) {s : σ} (hs : I s) {es : List ι}
    (h : M.AllSteps G s es) : M.AllStates I s es := by
  induction es generalizing s with
  | nil => exact M.allStates_nil.mpr hs
  | cons e es ih =>
    obtain ⟨hG, h⟩ := M.allSteps_cons.mp h
    exact M.allStates_cons.mpr ⟨hs, ih (keep s e hs hG) h⟩

/-- **Exact guards, under an assumption `A` on the steps.**  If moreover `I`
implies `Q`, and from `I` every step that violates `G` ends outside `Q`, then `Q`
holds throughout a run exactly when all of its steps satisfy `G`. -/
theorem allStates_iff_allSteps_under {A G : σ → ι → Prop} {I Q : σ → Prop}
    (hIQ : ∀ s, I s → Q s) (keep : ∀ s e, I s → A s e → G s e → I (M.next s e))
    (lose : ∀ s e, I s → A s e → ¬ G s e → ¬ Q (M.next s e)) {s : σ} (hs : I s) {es : List ι}
    (hA : M.AllSteps A s es) : M.AllStates Q s es ↔ M.AllSteps G s es := by
  constructor
  · intro h
    induction es generalizing s with
    | nil => exact M.allSteps_nil
    | cons e es ih =>
      obtain ⟨hAe, hA⟩ := M.allSteps_cons.mp hA
      obtain ⟨-, h⟩ := M.allStates_cons.mp h
      -- a step outside `G` ends outside `Q` at once
      have hG : G s e := by
        by_contra hG
        exact lose s e hs hAe hG (h [] List.nil_prefix)
      exact M.allSteps_cons.mpr ⟨hG, ih (keep s e hs hAe hG) hA h⟩
  · intro h
    have hboth : M.AllSteps (fun s e => A s e ∧ G s e) s es :=
      fun pre e hpre => ⟨hA pre e hpre, h pre e hpre⟩
    exact (allStates_of_allSteps (fun s e hI he => keep s e hI he.1 he.2) hs hboth).imp hIQ

/-- **Exact guards**, with nothing assumed of the steps. -/
theorem allStates_iff_allSteps {G : σ → ι → Prop} {I Q : σ → Prop} (hIQ : ∀ s, I s → Q s)
    (keep : ∀ s e, I s → G s e → I (M.next s e))
    (lose : ∀ s e, I s → ¬ G s e → ¬ Q (M.next s e)) {s : σ} (hs : I s) (es : List ι) :
    M.AllStates Q s es ↔ M.AllSteps G s es :=
  allStates_iff_allSteps_under (A := fun _ _ => True) hIQ (fun s e hs _ => keep s e hs)
    (fun s e hs _ => lose s e hs) hs fun _ _ _ => trivial

/-! ## Promises about histories -/

theorem allSteps_concat {G : σ → ι → Prop} {s : σ} {es : List ι} {e : ι} :
    M.AllSteps G s (es ++ [e]) ↔ M.AllSteps G s es ∧ G (M.run s es) e := by
  constructor
  · intro h
    exact ⟨fun pre f hpre => h pre f (hpre.trans (List.prefix_append es [e])),
      h es e List.prefix_rfl⟩
  · rintro ⟨hes, he⟩ pre f hpre
    rcases List.prefix_concat_iff.mp hpre with heq | hpre
    · obtain ⟨rfl, hlast⟩ := List.append_inj' heq rfl
      obtain rfl := List.singleton_inj.mp hlast
      exact he
    · exact hes pre f hpre

/-- What every step carries on from the events so far and their state. -/
theorem history_run {I : List ι → σ → Prop} {s : σ} (hnil : I [] s)
    (keep : ∀ es e t, I es t → I (es ++ [e]) (M.next t e)) (es : List ι) : I es (M.run s es) := by
  induction es using List.reverseRecOn with
  | nil => exact hnil
  | append_singleton es e ih =>
    rw [run_append]
    exact keep es e _ ih

/-- **Exact guards for a promise about histories**: `allStates_iff_allSteps` where the
promise is about the events so far as well. -/
theorem prefixes_iff_allSteps {I Q : List ι → σ → Prop} {G : σ → ι → Prop}
    (hIQ : ∀ es t, I es t → Q es t)
    (keep : ∀ es e t, I es t → G t e → I (es ++ [e]) (M.next t e))
    (lose : ∀ es e t, I es t → ¬ G t e → ¬ Q (es ++ [e]) (M.next t e)) {s : σ} (hnil : I [] s)
    (es : List ι) : (∀ pre, pre <+: es → Q pre (M.run s pre)) ↔ M.AllSteps G s es := by
  have hrun : ∀ es, M.AllSteps G s es → I es (M.run s es) := by
    intro es
    induction es using List.reverseRecOn with
    | nil => exact fun _ => hnil
    | append_singleton es e ih =>
      intro h
      obtain ⟨hes, he⟩ := allSteps_concat.mp h
      rw [run_append]
      exact keep es e _ (ih hes) he
  constructor
  · intro h
    induction es using List.reverseRecOn with
    | nil => exact M.allSteps_nil
    | append_singleton es e ih =>
      have hes := ih fun pre hpre => h pre (hpre.trans (List.prefix_append es [e]))
      refine allSteps_concat.mpr ⟨hes, ?_⟩
      -- a step outside `G` breaks the promise at once
      by_contra hG
      have hQ := h (es ++ [e]) List.prefix_rfl
      rw [run_append] at hQ
      exact lose es e _ (hrun es hes) hG hQ
  · intro h pre hpre
    exact hIQ _ _ (hrun pre fun pre' e he => h pre' e (he.trans hpre))

/-! ## Latches -/

variable (M) in
/-- How many steps of the run satisfy `P`. -/
def count (P : σ → ι → Bool) : σ → List ι → Nat
  | _, [] => 0
  | s, e :: es => (if P s e then 1 else 0) + count P (M.next s e) es

/-- **What needs a latch clear and sets it happens at most once.** -/
theorem count_le_one {P : σ → ι → Bool} {I : σ → Prop} {L : σ → Bool}
    (hI : M.Preserves I) (mono : ∀ s e, L s = true → L (M.next s e) = true)
    (once : ∀ s e, I s → P s e = true → L s = false ∧ L (M.next s e) = true)
    {s : σ} (hs : I s) (es : List ι) : M.count P s es ≤ 1 := by
  -- once the latch is set, nothing counts any more
  have spent : ∀ (es : List ι) (s : σ), I s → L s = true → M.count P s es = 0 := by
    intro es
    induction es with
    | nil => intro s _ _; rfl
    | cons e es ih =>
      intro s hs hl
      have hP : P s e = false := by
        cases hP : P s e with
        | false => rfl
        | true => rw [(once s e hs hP).1] at hl; cases hl
      rw [count, hP, ih _ (hI s e hs) (mono s e hl)]
      rfl
  induction es generalizing s with
  | nil => exact Nat.zero_le 1
  | cons e es ih =>
    rw [count]
    split
    · next hP => rw [spent es _ (hI s e hs) (once s e hs hP).2]
    · rw [Nat.zero_add]
      exact ih (hI s e hs)

/-- **What goes in and out of a number.**  If every step that counts for `P` adds
one to `f`, and every step that counts for `Q` takes one away, then so do the
counts of a run. -/
theorem count_balance {P Q : σ → ι → Bool} {I : σ → Prop} {f : σ → Nat} (hI : M.Preserves I)
    (hf : ∀ s e, I s → f (M.next s e) + (if Q s e then 1 else 0) = f s + (if P s e then 1 else 0))
    {s : σ} (hs : I s) (es : List ι) :
    f (M.run s es) + M.count Q s es = f s + M.count P s es := by
  induction es generalizing s with
  | nil => rfl
  | cons e es ih =>
    have hstep := hf s e hs
    have hrest := ih (hI s e hs)
    rw [run_cons, count, count]
    omega

/-- **A latch records an answer.**  If a step sets the latch exactly when it
answers `P`, the latch is set after a run exactly when it was set before or some
answer of the run was `P`. -/
theorem latch_iff_outputs {I L : σ → Prop} {P : ω → Prop} (hI : M.Preserves I)
    (hl : ∀ s e, I s → (L (M.next s e) ↔ L s ∨ P (M.out s e))) {s : σ} (hs : I s)
    (es : List ι) : L (M.run s es) ↔ L s ∨ ∃ o ∈ M.outputs s es, P o := by
  induction es generalizing s with
  | nil => simp
  | cons e es ih => simp [ih (hI s e hs), hl s e hs, or_assoc]

/-! ## Simulation -/

/-- `f` carries `M` to `N`, reading each event through `g`. -/
def Simulates {τ κ ω' : Type} (M : Mealy σ ι ω) (N : Mealy τ κ ω') (f : σ → τ) (g : ι → κ) :
    Prop := ∀ s e, f (M.next s e) = N.next (f s) (g e)

theorem Simulates.run_map {τ κ ω' : Type} {N : Mealy τ κ ω'} {f : σ → τ} {g : ι → κ}
    (h : M.Simulates N f g) (s : σ) (es : List ι) :
    f (M.run s es) = N.run (f s) (es.map g) := by
  induction es generalizing s with
  | nil => rfl
  | cons e es ih => rw [run_cons, ih, h, List.map_cons, run_cons]

/-- A promise about the states of the simulating run is one about the states of
the simulated run. -/
theorem Simulates.allStates_iff {τ κ ω' : Type} {N : Mealy τ κ ω'} {f : σ → τ} {g : ι → κ}
    (h : M.Simulates N f g) {Q : τ → Prop} (s : σ) (es : List ι) :
    N.AllStates Q (f s) (es.map g) ↔ M.AllStates (fun s => Q (f s)) s es := by
  induction es generalizing s with
  | nil => rw [List.map_nil, allStates_nil, allStates_nil]
  | cons e es ih => rw [List.map_cons, allStates_cons, allStates_cons, ← h, ih]

/-! ## Observation -/

/-- No events tell the two states apart. -/
def Indistinguishable (M : Mealy σ ι ω) (s t : σ) : Prop := ∀ es, M.outputs s es = M.outputs t es

theorem Indistinguishable.out {s t : σ} (h : M.Indistinguishable s t) (e : ι) :
    M.out s e = M.out t e := by
  have hone := h [e]
  rw [outputs_cons, outputs_cons] at hone
  exact (List.cons.inj hone).1

/-- A relation that is kept and has equal answers has them over whole runs. -/
theorem indistinguishable_of_bisimulation {R : σ → σ → Prop}
    (hout : ∀ {s t}, R s t → ∀ e, M.out s e = M.out t e)
    (hnext : ∀ {s t}, R s t → ∀ e, R (M.next s e) (M.next t e)) {s t : σ} (h : R s t) :
    M.Indistinguishable s t := by
  intro es
  induction es generalizing s t with
  | nil => rfl
  | cons e es ih => rw [outputs_cons, outputs_cons, hout h e, ih (hnext h e)]

/-! ## Refinement -/

/-- The events of a run, each with its answer. -/
def trace : σ → List ι → List (ι × ω)
  | _, [] => []
  | s, e :: es => (e, M.out s e) :: trace (M.next s e) es

@[simp] theorem trace_nil (s : σ) : M.trace s [] = [] := rfl

@[simp] theorem trace_cons (s : σ) (e : ι) (es : List ι) :
    M.trace s (e :: es) = (e, M.out s e) :: M.trace (M.next s e) es := rfl

theorem trace_cons_of_step {s t : σ} {e : ι} {o : ω} (h : M.step s e = (t, o)) (es : List ι) :
    M.trace s (e :: es) = (e, o) :: M.trace t es := by
  rw [trace_cons, out, next, h]

@[simp] theorem trace_append (s : σ) (es fs : List ι) :
    M.trace s (es ++ fs) = M.trace s es ++ M.trace (M.run s es) fs := by
  induction es generalizing s with
  | nil => rfl
  | cons e es ih => simp [ih]

theorem trace_map_fst (s : σ) (es : List ι) : (M.trace s es).map Prod.fst = es := by
  induction es generalizing s with
  | nil => rfl
  | cons e es ih => rw [trace_cons, List.map_cons, ih]

/-- What one more event adds to what is read off the trace. -/
theorem filterMap_trace_concat {β : Type} (P : ι × ω → Option β) (s : σ) (es : List ι) (e : ι) :
    (M.trace s (es ++ [e])).filterMap P =
      (M.trace s es).filterMap P ++ (P (e, M.out (M.run s es) e)).toList := by
  rw [trace_append, List.filterMap_append, trace_cons, trace_nil, List.filterMap_cons]
  cases P (e, M.out (M.run s es) e) <;> rfl

/-- `M` refines `N`, which takes part in the events that `g` reads: those move
both, and the answers agree; the others leave `N` where it is. -/
structure Refines {τ κ ω' : Type} (M : Mealy σ ι ω) (N : Mealy τ κ ω') (R : σ → τ → Prop)
    (g : ι → Option κ) (S : κ → ω → ω' → Prop) : Prop where
  skip : ∀ {s t e}, R s t → g e = none → R (M.next s e) t
  follow : ∀ {s t e f}, R s t → g e = some f → R (M.next s e) (N.next t f)
  answer : ∀ {s t e f}, R s t → g e = some f → S f (M.out s e) (N.out t f)

section Refines
variable {τ κ ω' : Type} {N : Mealy τ κ ω'} {R : σ → τ → Prop} {g : ι → Option κ}
  {S : κ → ω → ω' → Prop}

theorem Refines.run (h : M.Refines N R g S) {s : σ} {t : τ} (hst : R s t) (es : List ι) :
    R (M.run s es) (N.run t (es.filterMap g)) := by
  induction es generalizing s t with
  | nil => exact hst
  | cons e es ih =>
    cases hg : g e with
    | none =>
      rw [List.filterMap_cons_none hg]
      exact ih (h.skip hst hg)
    | some f =>
      rw [List.filterMap_cons_some hg]
      exact ih (h.follow hst hg)

/-- What counts alike in both machines is counted alike. -/
theorem Refines.count_eq {g : ι → κ} (h : M.Refines N R (fun e => some (g e)) S)
    {P : σ → ι → Bool} {Q : τ → κ → Bool} (hPQ : ∀ s t e, R s t → P s e = Q t (g e)) {s : σ} {t : τ}
    (hst : R s t) (es : List ι) : M.count P s es = N.count Q t (es.map g) := by
  induction es generalizing s t with
  | nil => rfl
  | cons e es ih =>
    rw [count, List.map_cons, count, hPQ s t e hst, ih (h.follow hst rfl)]

/-- What is read off the trace of `M` and off that of `N` alike is the same. -/
theorem Refines.filterMap_trace {β : Type} (h : M.Refines N R g S) {P : ι × ω → Option β}
    {Q : κ × ω' → Option β} (hskip : ∀ e o, g e = none → P (e, o) = none)
    (hfollow : ∀ e f o o', g e = some f → S f o o' → P (e, o) = Q (f, o')) {s : σ} {t : τ}
    (hst : R s t) (es : List ι) :
    (M.trace s es).filterMap P = (N.trace t (es.filterMap g)).filterMap Q := by
  induction es generalizing s t with
  | nil => rfl
  | cons e es ih =>
    cases hg : g e with
    | none =>
      rw [trace_cons, List.filterMap_cons_none (hskip e _ hg), List.filterMap_cons_none hg,
        ih (h.skip hst hg)]
    | some f =>
      rw [trace_cons, List.filterMap_cons_some hg, trace_cons, List.filterMap_cons,
        List.filterMap_cons, hfollow e f _ _ hg (h.answer hst hg), ih (h.follow hst hg)]

end Refines
end Mealy
end Automaton
