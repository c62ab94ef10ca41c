import CtAgentAndroid.PrefixCode

/-! # Readers that say when they need more input

A reader is *incremental* for an error `short` when that error, and no other
answer, is open to revision: what it has read, and what it has refused for another
reason, stays so whatever follows the input, and an input it finds too short can
be continued to one it does not.  So `short` is answered exactly where the answer
depends on what is still to come (`decode_eq_short_iff`).

Like exactness, this composes field by field.  Together they make a code
*self-delimiting*: a message cut off anywhere is found too short and not mistaken
for something else (`decode_cut_eq_short`), and messages written one after the
other are told apart (`flatMap_prefix_iff`).
-/
namespace PrefixCode
open Rust

variable {ε β α γ : Type}

/-- `short` is the one answer of `read` that more input can change. -/
structure Incremental (read : Reader ε β α) (short : ε) : Prop where
  keeps_ok : ∀ {input a rest} more, read.run input = .ok (a, rest) →
    read.run (input ++ more) = .ok (a, rest ++ more)
  keeps_err : ∀ {input e} more, e ≠ short → read.run input = .err e →
    read.run (input ++ more) = .err e
  hungry : ∀ {input}, read.run input = .err short →
    ∃ more, read.run (input ++ more) ≠ .err short

namespace Incremental
variable {read : Reader ε β α} {short : ε}

/-! ## Combinators -/

theorem pure (a : α) (short : ε) : Incremental (β := β) (pure a) short where
  keeps_ok more h := by
    obtain ⟨rfl, rfl⟩ := Prod.mk.inj (Outcome.ok.inj h)
    rfl
  keeps_err _ _ h := nomatch h
  hungry h := nomatch h

/-- A reader that only fails, for a reason of its own. -/
theorem fail {e : ε} (he : e ≠ short) : Incremental (fun _ => .err e : Reader ε β α) short where
  keeps_ok _ h := nomatch h
  keeps_err _ _ h := h
  hungry h := absurd (Outcome.err.inj h) he

/-- A conversion reads nothing, and is not told that the input is short. -/
theorem lift {conv : Outcome ε α} (h : conv ≠ .err short) :
    Incremental (liftM conv : Reader ε β α) short where
  keeps_ok {input a rest} more hread := by
    rw [StateT.run_monadLift] at hread ⊢
    obtain ⟨b, hb, heq⟩ := Outcome.bind_eq_ok.mp hread
    obtain ⟨rfl, rfl⟩ := Prod.mk.inj (Outcome.ok.inj heq)
    exact Outcome.bind_eq_ok.mpr ⟨b, hb, rfl⟩
  keeps_err {input e} more _ hread := by
    rw [StateT.run_monadLift] at hread ⊢
    rcases Outcome.bind_eq_err.mp hread with he | ⟨b, -, heq⟩
    · exact Outcome.bind_eq_err.mpr (.inl he)
    · cases heq
  hungry {input} hread := by
    rw [StateT.run_monadLift] at hread
    rcases Outcome.bind_eq_err.mp hread with he | ⟨b, -, heq⟩
    · exact absurd he h
    · cases heq

/-- **Sequencing.**  The second reader gets what the first one leaves, and what
follows comes behind that. -/
theorem bind (h : Incremental read short) {next : α → Reader ε β γ}
    (hnext : ∀ a, Incremental (next a) short) : Incremental (read >>= next) short where
  keeps_ok more hread := by
    rw [StateT.run_bind] at hread ⊢
    obtain ⟨⟨a, mid⟩, hfirst, hsecond⟩ := Outcome.bind_eq_ok.mp hread
    rw [h.keeps_ok more hfirst]
    exact (hnext a).keeps_ok more hsecond
  keeps_err {input e} more he hread := by
    rw [StateT.run_bind] at hread ⊢
    rcases Outcome.bind_eq_err.mp hread with hfirst | ⟨⟨a, mid⟩, hfirst, hsecond⟩
    · exact Outcome.bind_eq_err.mpr (.inl (h.keeps_err more he hfirst))
    · rw [h.keeps_ok more hfirst]
      exact (hnext a).keeps_err more he hsecond
  hungry {input} hread := by
    -- once the first reader is done, the second is fed
    have feed : ∀ {input a mid}, read.run input = .ok (a, mid) →
        ∃ more, (read >>= next).run (input ++ more) ≠ .err short := by
      intro input a mid hfirst
      have hrun : ∀ more, (read >>= next).run (input ++ more) = (next a).run (mid ++ more) := by
        intro more
        rw [StateT.run_bind, h.keeps_ok more hfirst]
        rfl
      by_cases hsecond : (next a).run mid = .err short
      · obtain ⟨more, hmore⟩ := (hnext a).hungry hsecond
        exact ⟨more, fun heq => hmore ((hrun more).symm.trans heq)⟩
      · refine ⟨[], fun heq => hsecond ?_⟩
        rw [hrun, List.append_nil] at heq
        exact heq
    rw [StateT.run_bind] at hread
    rcases Outcome.bind_eq_err.mp hread with hfirst | ⟨⟨a, mid⟩, hfirst, -⟩
    · obtain ⟨more, hmore⟩ := h.hungry hfirst
      by_cases hfed : ∃ p, read.run (input ++ more) = .ok p
      · obtain ⟨p, hfed⟩ := hfed
        obtain ⟨more', hmore'⟩ := feed hfed
        exact ⟨more ++ more', by rwa [← List.append_assoc]⟩
      · refine ⟨more, fun heq => ?_⟩
        rw [StateT.run_bind] at heq
        rcases Outcome.bind_eq_err.mp heq with heq | ⟨p, hp, -⟩
        · exact hmore heq
        · exact hfed ⟨p, hp⟩
    · exact feed hfirst

/-- Converting what was read. -/
theorem convert (h : Incremental read short) {conv : α → Outcome ε γ}
    (hconv : ∀ a, conv a ≠ .err short) :
    Incremental (do let a ← read; conv a) short := h.bind fun a => lift (hconv a)

theorem map (h : Incremental read short) (conv : α → γ) : Incremental (conv <$> read) short := by
  rw [map_eq_pure_bind]
  exact h.bind fun a => pure (conv a) short

/-! ## What it gives -/

/-- Any other answer stays. -/
theorem keeps (h : Incremental read short) {input : List β} (hret : (decode read input).Returns)
    (hread : decode read input ≠ .err short) (more : List β) :
    decode read (input ++ more) = decode read input := by
  unfold decode at hret hread ⊢
  cases hrun : read.run input with
  | ok p =>
    rw [h.keeps_ok more hrun]
    rfl
  | err e =>
    rw [h.keeps_err more (fun he => hread (by rw [hrun, he]; rfl)) hrun]
  | panicked =>
    rw [hrun] at hret
    exact absurd rfl hret

/-- **Too short is what more input can change.** -/
theorem decode_eq_short_iff (h : Incremental read short) {input : List β}
    (hret : (decode read input).Returns) :
    decode read input = .err short ↔
      ∃ more, decode read (input ++ more) ≠ decode read input := by
  constructor
  · intro hread
    obtain ⟨more, hmore⟩ := h.hungry (Outcome.map_eq_err.mp hread)
    refine ⟨more, fun heq => hmore ?_⟩
    rw [hread] at heq
    exact Outcome.map_eq_err.mp heq
  · rintro ⟨more, hmore⟩
    by_contra hread
    exact hmore (h.keeps hret hread more)

end Incremental

/-! ## Self-delimiting codes -/

namespace Exact
variable {read : Reader ε β α} {write : α → List β} {Dom : α → Prop} {short : ε}

/-- **A message cut off is found too short.** -/
theorem decode_cut_eq_short (h : Exact read write Dom) (hinc : Incremental read short) {a : α}
    (ha : Dom a) {cut : List β} (hcut : cut <+: write a) (hne : cut ≠ write a) :
    decode read cut = .err short := by
  by_contra hread
  obtain ⟨more, hmore⟩ := hcut
  have hkept := hinc.keeps (h.decode_returns cut) hread more
  rw [hmore, h.decode_eq_ok_iff.mpr ⟨ha, List.prefix_refl _⟩] at hkept
  obtain ⟨-, hpre⟩ := h.decode_eq_ok_iff.mp hkept.symm
  exact hne (List.IsPrefix.eq_of_length_le ⟨more, hmore⟩ hpre.length_le)

/-- **Messages in a row are told apart**, where no encoding is empty. -/
theorem flatMap_prefix_iff (h : Exact read write Dom) (hne : ∀ a, Dom a → write a ≠ [])
    {as bs : List α} (has : ∀ a ∈ as, Dom a) (hbs : ∀ b ∈ bs, Dom b) :
    as.flatMap write <+: bs.flatMap write ↔ as <+: bs := by
  constructor
  · intro hpre
    induction as generalizing bs with
    | nil => exact List.nil_prefix
    | cons a as ih =>
      obtain ⟨ha, has⟩ := List.forall_mem_cons.mp has
      rw [List.flatMap_cons] at hpre
      cases bs with
      | nil =>
        have hnil := List.prefix_nil.mp hpre
        exact absurd (List.append_eq_nil_iff.mp hnil).1 (hne a ha)
      | cons b bs =>
        obtain ⟨hb, hbs'⟩ := List.forall_mem_cons.mp hbs
        rw [List.flatMap_cons] at hpre
        -- both first messages start the longer row
        obtain rfl := h.eq_of_prefix ha hb ((List.prefix_append _ _).trans hpre)
          (List.prefix_append _ _)
        exact List.cons_prefix_cons.mpr
          ⟨rfl, ih has hbs' ((List.prefix_append_right_inj _).mp hpre)⟩
  · rintro ⟨cs, rfl⟩
    rw [List.flatMap_append]
    exact List.prefix_append _ _

end Exact
end PrefixCode
