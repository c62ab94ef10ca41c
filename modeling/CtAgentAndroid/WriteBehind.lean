/-! # Stores that write behind

A store that a process reads and changes in memory while its disk lags: a change
is made in memory at once and queued, the queue is written in order at moments of
the platform's choosing, and when the process dies a new one starts from what is
on disk.

`drained` is what the disk would hold if the queue were written.  It is what the
memory holds (`InSync`), at every moment and after every restart; so a process
that dies loses exactly what its queue would still have changed.  Two stores that
keep the same in different terms go on doing so (`Shadows`).
-/
namespace WriteBehind

/-- Memory, disk, and the changes that are in the one and not yet in the
other. -/
structure Store (σ β : Type) where
  memory : σ
  disk : σ
  pending : List β
  deriving DecidableEq, Repr

namespace Store
variable {σ β : Type} (act : σ → β → σ)

/-- A process starts over what is on disk. -/
def load (disk : σ) : Store σ β := ⟨disk, disk, []⟩

/-- A change: in memory at once, on disk later. -/
def apply (s : Store σ β) (b : β) : Store σ β :=
  ⟨act s.memory b, s.disk, s.pending ++ [b]⟩

/-- The oldest pending change is written. -/
def write (s : Store σ β) : Store σ β :=
  match s.pending with
  | [] => s
  | b :: pending => ⟨s.memory, act s.disk b, pending⟩

/-- The process dies, and a new one starts. -/
def restart (s : Store σ β) : Store σ β := load s.disk

/-- The disk with everything pending written. -/
def drained (s : Store σ β) : σ := s.pending.foldl act s.disk

/-- What is in memory is what the disk will hold. -/
def InSync (s : Store σ β) : Prop := s.memory = s.drained act

variable {act} {s : Store σ β}

theorem inSync_load (disk : σ) : (load disk : Store σ β).InSync act := rfl

theorem InSync.apply (h : s.InSync act) (b : β) : (s.apply act b).InSync act := by
  have hdrained : (s.apply act b).drained act = act (s.drained act) b := List.foldl_append
  rw [InSync, hdrained, ← h]
  rfl

theorem InSync.write (h : s.InSync act) : (s.write act).InSync act := by
  unfold Store.write
  split
  · exact h
  · next b pending hpending =>
    rw [InSync, drained, hpending] at h
    exact h

/-! ## Stores that hold and queue the same -/

section Shadows
variable {τ γ : Type} {act' : τ → γ → τ} {R : σ → τ → Prop} {f : γ → β} {t : Store τ γ}

/-- `s` keeps, as `R` reads it and change by change, what `t` keeps. -/
structure Shadows (R : σ → τ → Prop) (f : γ → β) (s : Store σ β) (t : Store τ γ) : Prop where
  memory : R s.memory t.memory
  disk : R s.disk t.disk
  pending : s.pending = t.pending.map f

theorem shadows_load {disk : σ} {disk' : τ} (h : R disk disk') :
    Shadows R f (load disk) (load disk') := ⟨h, h, rfl⟩

theorem Shadows.restart (h : Shadows R f s t) : Shadows R f s.restart t.restart :=
  shadows_load h.disk

theorem Shadows.apply (h : Shadows R f s t) {e : γ}
    (hact : ∀ {x y}, R x y → R (act x (f e)) (act' y e)) :
    Shadows R f (s.apply act (f e)) (t.apply act' e) where
  memory := hact h.memory
  disk := h.disk
  pending := by
    show s.pending ++ [f e] = (t.pending ++ [e]).map f
    rw [h.pending, List.map_append, List.map_cons, List.map_nil]

theorem Shadows.write (h : Shadows R f s t)
    (hact : ∀ {x y} e, R x y → R (act x (f e)) (act' y e)) :
    Shadows R f (s.write act) (t.write act') := by
  have hpending := h.pending
  unfold Store.write
  cases ht : t.pending with
  | nil =>
    rw [ht] at hpending
    rw [hpending]
    exact h
  | cons e pending =>
    rw [ht] at hpending
    rw [hpending]
    exact ⟨h.memory, hact e h.disk, rfl⟩

end Shadows
end Store
end WriteBehind
