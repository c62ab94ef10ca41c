import Mathlib.Data.List.Basic
import Mathlib.Logic.Function.Basic

/-! # Maps that change in batches

A store of values that is changed by batches of edits, each setting a value or
removing it.  A batch is the unit of change: what it leaves under a key is
decided by the edits of that key alone (`apply_eq`, `apply_of_forall_ne`).

A `Layout` keeps records in such a store field by field, every field of every
record under a key of its own.  A map of records is then *represented* by the
store, and setting or removing a record is one batch (`Represents.set`).
-/
namespace BatchMap
variable {K V : Type}

/-- The values of a store. -/
abbrev Values (K V : Type) := K → Option V

/-- What an edit makes of a key: `some` puts a value, `none` removes it. -/
structure Edit (K V : Type) where
  key : K
  value : Option V
  deriving DecidableEq, Repr

namespace Edit

def put (key : K) (value : V) : Edit K V := ⟨key, some value⟩

def remove (key : K) : Edit K V := ⟨key, none⟩

end Edit

namespace Values
variable [DecidableEq K]

/-- Nothing is stored. -/
def empty : Values K V := fun _ => none

/-- One edit. -/
def edit (m : Values K V) (e : Edit K V) : Values K V := Function.update m e.key e.value

/-- A batch of edits, in order. -/
def apply (m : Values K V) (batch : List (Edit K V)) : Values K V := batch.foldl edit m

@[simp] theorem apply_nil (m : Values K V) : m.apply [] = m := rfl

@[simp] theorem apply_cons (m : Values K V) (e : Edit K V) (batch : List (Edit K V)) :
    m.apply (e :: batch) = (m.edit e).apply batch := rfl

@[simp] theorem apply_append (m : Values K V) (batch batch' : List (Edit K V)) :
    m.apply (batch ++ batch') = (m.apply batch).apply batch' := List.foldl_append

theorem edit_self (m : Values K V) (e : Edit K V) : m.edit e e.key = e.value :=
  Function.update_self _ _ _

theorem edit_of_ne {k : K} {e : Edit K V} (h : e.key ≠ k) (m : Values K V) : m.edit e k = m k :=
  Function.update_of_ne (Ne.symm h) _ _

/-- **Frame**: a batch leaves the keys it does not edit. -/
theorem apply_of_forall_ne {k : K} {batch : List (Edit K V)} (h : ∀ e ∈ batch, e.key ≠ k)
    (m : Values K V) : m.apply batch k = m k := by
  induction batch generalizing m with
  | nil => rfl
  | cons e batch ih =>
    obtain ⟨he, hbatch⟩ := List.forall_mem_cons.mp h
    rw [apply_cons, ih hbatch, edit_of_ne he]

/-- A key the batch edits to one value only has that value. -/
theorem apply_eq {k : K} {v : Option V} {batch : List (Edit K V)}
    (hedited : ∃ e ∈ batch, e.key = k) (hvalue : ∀ e ∈ batch, e.key = k → e.value = v)
    (m : Values K V) : m.apply batch k = v := by
  induction batch generalizing m with
  | nil =>
    obtain ⟨e, he, -⟩ := hedited
    cases he
  | cons e batch ih =>
    obtain ⟨hvalueE, hvalue⟩ := List.forall_mem_cons.mp hvalue
    rw [apply_cons]
    by_cases hlater : ∃ e ∈ batch, e.key = k
    · exact ih hlater hvalue _
    · -- nothing later edits the key, so this edit stands
      have hne : ∀ e ∈ batch, e.key ≠ k := fun e he hk => hlater ⟨e, he, hk⟩
      have hkey : e.key = k := by
        obtain ⟨e', he', hk⟩ := hedited
        rcases List.mem_cons.mp he' with rfl | he'
        · exact hk
        · exact absurd hk (hne e' he')
      rw [apply_of_forall_ne hne, ← hvalueE hkey, ← hkey]
      exact edit_self m e

end Values

/-! ## Records kept field by field -/

/-- How records of type `R`, one for each `K`, are kept in a store: every field
under a key of its own. -/
structure Layout (K F R K' V : Type) where
  fields : List F
  complete : ∀ f, f ∈ fields
  key : K → F → K'
  key_injective : ∀ {k k' f f'}, key k f = key k' f' → k = k' ∧ f = f'
  read : R → F → V

namespace Layout
variable {F R K' : Type} (L : Layout K F R K' V)

/-- The batch that sets or removes the record of `k`. -/
def batch (k : K) (r : Option R) : List (Edit K' V) :=
  L.fields.map fun f => ⟨L.key k f, r.map (L.read · f)⟩

/-- The store `m'` keeps the records `m`. -/
def Represents (m : Values K R) (m' : Values K' V) : Prop :=
  ∀ k f, m' (L.key k f) = (m k).map (L.read · f)

variable {L}

theorem represents_empty : L.Represents Values.empty Values.empty := fun _ _ => rfl

variable [DecidableEq K']

/-- Under the batch of a record lie that record's fields. -/
theorem apply_batch_self (m' : Values K' V) (k : K) (r : Option R) (f : F) :
    m'.apply (L.batch k r) (L.key k f) = r.map (L.read · f) := by
  refine Values.apply_eq ?_ ?_ m'
  · exact ⟨_, List.mem_map_of_mem (L.complete f), rfl⟩
  · intro e he hkey
    obtain ⟨f', -, rfl⟩ := List.mem_map.mp he
    obtain ⟨-, rfl⟩ := L.key_injective hkey
    rfl

/-- Another record is not touched. -/
theorem apply_batch_of_ne {k k' : K} (h : k' ≠ k) (m' : Values K' V) (r : Option R) (f : F) :
    m'.apply (L.batch k r) (L.key k' f) = m' (L.key k' f) := by
  refine Values.apply_of_forall_ne (fun e he hkey => ?_) m'
  obtain ⟨f', -, rfl⟩ := List.mem_map.mp he
  exact h (L.key_injective hkey).1.symm

/-- **Setting a record is one batch.** -/
theorem Represents.set [DecidableEq K] {m : Values K R} {m' : Values K' V}
    (h : L.Represents m m') (k : K) (r : Option R) :
    L.Represents (m.edit ⟨k, r⟩) (m'.apply (L.batch k r)) := by
  intro k' f
  by_cases hk : k' = k
  · subst hk
    rw [apply_batch_self, Values.edit_self (K := K) m ⟨k', r⟩]
  · rw [apply_batch_of_ne hk, Values.edit_of_ne (K := K) (Ne.symm hk), h]

end Layout
end BatchMap
