import CtAgentAndroid.Outcome

/-! # Exact readers for prefix codes

A reader takes a value off the front of its input and leaves the rest.  It is
*exact* for an encoding `write` on a domain when it never panics and reads a
value exactly off the inputs that start with the encoding of a value of the
domain, consuming that encoding and nothing else.

Exactness composes (`Exact.bind`): what a reader reads first may decide what it
reads next, as a tag or a length does, provided that the whole value still
determines that first part.  So the acceptance of a format is read off its
reader, field by field; and an encoding with an exact reader is injective and
prefix-free on its domain.
-/
namespace PrefixCode
open Rust

/-- A reader over a list of symbols `β`: it reads through a cursor that the `?`
operator abandons on an error. -/
abbrev Reader (ε β α : Type) := StateT (List β) (Outcome ε) α

variable {ε β α γ : Type}

/-- `read` reads exactly the encodings of `Dom`. -/
structure Exact (read : Reader ε β α) (write : α → List β) (Dom : α → Prop) : Prop where
  returns : ∀ input, (read.run input).Returns
  reads_iff : ∀ input a rest,
    read.run input = .ok (a, rest) ↔ Dom a ∧ input = write a ++ rest

/-- Read one value and drop what is left over. -/
def decode (read : Reader ε β α) (input : List β) : Outcome ε α := Prod.fst <$> read.run input

namespace Exact
variable {read : Reader ε β α} {write : α → List β} {Dom : α → Prop}

/-! ## Combinators -/

/-- Reading nothing. -/
theorem pure (a : α) : Exact (ε := ε) (β := β) (pure a) (fun _ => []) (· = a) where
  returns _ := Outcome.returns_ok _
  reads_iff input b rest := by
    rw [StateT.run_pure, Outcome.pure_eq_ok, Outcome.ok.injEq, Prod.mk.injEq, List.nil_append]
    exact and_congr_left' eq_comm

/-- A reader that only fails reads the empty domain. -/
theorem fail (e : ε) (write : α → List β) :
    Exact (fun _ => .err e : Reader ε β α) write (fun _ => False) where
  returns _ := Outcome.returns_err e
  reads_iff input a rest := by
    constructor
    · intro h
      cases h
    · rintro ⟨h, -⟩
      exact h.elim

/-- The encoding and the domain may be rewritten on the domain. -/
theorem congr (h : Exact read write Dom) {write' : α → List β} {Dom' : α → Prop}
    (hDom : ∀ a, Dom a ↔ Dom' a) (hwrite : ∀ a, Dom a → write a = write' a) :
    Exact read write' Dom' where
  returns := h.returns
  reads_iff input a rest := by
    rw [h.reads_iff, ← hDom]
    refine and_congr_right fun ha => ?_
    rw [hwrite a ha]

/-- **Sequencing.**  The second reader may depend on what the first one read, as
long as `proj` recovers that from the whole value. -/
theorem bind (h : Exact read write Dom) {next : α → Reader ε β γ} {writeNext : α → γ → List β}
    {DomNext : α → γ → Prop} (hnext : ∀ a, Dom a → Exact (next a) (writeNext a) (DomNext a))
    (proj : γ → α) (hproj : ∀ a c, Dom a → DomNext a c → proj c = a) :
    Exact (read >>= next) (fun c => write (proj c) ++ writeNext (proj c) c)
      (fun c => Dom (proj c) ∧ DomNext (proj c) c) where
  returns input := by
    rw [StateT.run_bind]
    refine (h.returns input).bind fun p hp => ?_
    exact (hnext p.1 ((h.reads_iff _ _ _).mp hp).1).returns p.2
  reads_iff input c rest := by
    rw [StateT.run_bind, Outcome.bind_eq_ok]
    constructor
    · rintro ⟨⟨a, mid⟩, hread, hrest⟩
      obtain ⟨ha, rfl⟩ := (h.reads_iff input a mid).mp hread
      obtain ⟨hc, rfl⟩ := ((hnext a ha).reads_iff mid c rest).mp hrest
      -- what was read first is the first part of the whole value
      obtain rfl := hproj a c ha hc
      exact ⟨⟨ha, hc⟩, (List.append_assoc _ _ _).symm⟩
    · rintro ⟨⟨ha, hc⟩, rfl⟩
      refine ⟨(proj c, writeNext (proj c) c ++ rest), ?_, ?_⟩
      · rw [h.reads_iff, List.append_assoc]
        exact ⟨ha, rfl⟩
      · rw [(hnext (proj c) ha).reads_iff]
        exact ⟨hc, rfl⟩

/-- Converting what was read, by a conversion that `unconv` inverts. -/
theorem map (h : Exact read write Dom) {conv : α → γ} (unconv : γ → α)
    (hconv : ∀ a, Dom a → unconv (conv a) = a) :
    Exact (conv <$> read) (fun c => write (unconv c))
      (fun c => Dom (unconv c) ∧ conv (unconv c) = c) where
  returns input := by
    rw [StateT.run_map]
    exact (h.returns input).map _
  reads_iff input c rest := by
    rw [StateT.run_map, Outcome.map_eq_ok]
    constructor
    · rintro ⟨⟨a, mid⟩, hread, heq⟩
      obtain ⟨ha, rfl⟩ := (h.reads_iff input a mid).mp hread
      obtain ⟨rfl, rfl⟩ := Prod.mk.inj heq
      rw [hconv a ha]
      exact ⟨⟨ha, rfl⟩, rfl⟩
    · rintro ⟨⟨ha, hc⟩, rfl⟩
      refine ⟨(unconv c, rest), (h.reads_iff _ _ _).mpr ⟨ha, rfl⟩, ?_⟩
      rw [hc]

/-- Converting what was read, by a conversion that may fail but, on what is
read, does not panic. -/
theorem convert (h : Exact read write Dom) {conv : α → Outcome ε γ} (unconv : γ → α)
    (hret : ∀ a, Dom a → (conv a).Returns)
    (hconv : ∀ a c, Dom a → (conv a = .ok c ↔ a = unconv c)) :
    Exact (do let a ← read; conv a) (fun c => write (unconv c)) (fun c => Dom (unconv c)) := by
  have hlift : ∀ a, Dom a →
      Exact (liftM (conv a) : Reader ε β γ) (fun _ => []) (fun c => a = unconv c) := by
    intro a ha
    refine ⟨fun input => ?_, fun input c rest => ?_⟩
    · rw [StateT.run_monadLift]
      exact (hret a ha).bind fun _ _ => Outcome.returns_ok _
    · rw [StateT.run_monadLift, Outcome.bind_eq_ok, ← hconv a c ha, List.nil_append]
      simp only [Outcome.pure_eq_ok, Outcome.ok.injEq, Prod.mk.injEq]
      constructor
      · rintro ⟨c, hc, rfl, rfl⟩
        exact ⟨hc, rfl⟩
      · rintro ⟨hc, rfl⟩
        exact ⟨c, hc, rfl, rfl⟩
  refine (h.bind hlift unconv fun a c _ hc => hc.symm).congr ?_ ?_
  · exact fun c => and_iff_left rfl
  · exact fun c _ => List.append_nil _

/-! ## What exactness gives -/

/-- **Decoding** succeeds exactly on the inputs that start with an encoding. -/
theorem decode_eq_ok_iff (h : Exact read write Dom) {input : List β} {a : α} :
    decode read input = .ok a ↔ Dom a ∧ write a <+: input := by
  rw [decode, Outcome.map_eq_ok]
  constructor
  · rintro ⟨⟨b, rest⟩, hread, rfl⟩
    obtain ⟨hb, rfl⟩ := (h.reads_iff _ _ _).mp hread
    exact ⟨hb, List.prefix_append _ _⟩
  · rintro ⟨ha, rest, rfl⟩
    exact ⟨(a, rest), (h.reads_iff _ _ _).mpr ⟨ha, rfl⟩, rfl⟩

theorem decode_returns (h : Exact read write Dom) (input : List β) :
    (decode read input).Returns :=
  (h.returns input).map _

/-- An input that starts with no encoding is refused. -/
theorem decode_eq_err (h : Exact read write Dom) {input : List β}
    (hno : ∀ a, Dom a → ¬ write a <+: input) : ∃ e, decode read input = .err e := by
  refine (h.decode_returns input).exists_err fun a ha => ?_
  obtain ⟨hDom, hpre⟩ := h.decode_eq_ok_iff.mp ha
  exact hno a hDom hpre

/-- **Prefix-freeness**: two encodings that start one input are the same. -/
theorem eq_of_prefix (h : Exact read write Dom) {a b : α} (ha : Dom a) (hb : Dom b)
    {input : List β} (hpa : write a <+: input) (hpb : write b <+: input) : a = b := by
  have hra := h.decode_eq_ok_iff.mpr ⟨ha, hpa⟩
  rw [h.decode_eq_ok_iff.mpr ⟨hb, hpb⟩] at hra
  exact (Outcome.ok.inj hra).symm

end Exact
end PrefixCode
