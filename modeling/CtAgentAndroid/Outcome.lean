import Mathlib.Control.Basic
import Mathlib.Data.List.Basic

/-! # What a Rust call can end in

A fallible Rust function ends in `Ok`, in `Err`, or in a panic: the slice and
array operations, `unwrap` and an index out of bounds never return at all.
Folding panics into `Err` would make "returns an error" and "does not panic" the
same statement, so they are separate outcomes here, and every operation of the
standard library that can panic is one that can end in `panicked`.

`Guarded` is a value behind `std::sync::Mutex`, including poisoning: a panic
while the lock is held makes every later `lock().unwrap()` panic.
-/
namespace Rust

/-- The result of a Rust call of return type `Result<α, ε>`, or its panic. -/
inductive Outcome (ε α : Type) where
  | ok (value : α)
  | err (error : ε)
  | panicked
  deriving DecidableEq, Repr

namespace Outcome
variable {ε ε' α β : Type}

/-- `?`: the rest of the function runs only after an `Ok`. -/
protected def bind (x : Outcome ε α) (f : α → Outcome ε β) : Outcome ε β :=
  match x with
  | ok a => f a
  | err e => err e
  | panicked => panicked

instance : Monad (Outcome ε) where
  pure := ok
  bind := Outcome.bind

@[simp] theorem ok_bind (a : α) (f : α → Outcome ε β) : (ok a >>= f) = f a := rfl

@[simp] theorem err_bind (e : ε) (f : α → Outcome ε β) : (err e >>= f) = err e := rfl

@[simp] theorem panicked_bind (f : α → Outcome ε β) :
    ((panicked : Outcome ε α) >>= f) = panicked := rfl

@[simp] theorem pure_eq_ok (a : α) : (pure a : Outcome ε α) = ok a := rfl

instance : LawfulMonad (Outcome ε) :=
  LawfulMonad.mk' _ (fun x => by cases x <;> rfl) (fun _ _ => rfl)
    (fun x _ _ => by cases x <;> rfl)

@[simp] theorem map_ok (f : α → β) (a : α) : f <$> (ok a : Outcome ε α) = ok (f a) := rfl

@[simp] theorem map_err (f : α → β) (e : ε) : f <$> (err e : Outcome ε α) = err e := rfl

@[simp] theorem map_panicked (f : α → β) :
    f <$> (panicked : Outcome ε α) = panicked := rfl

theorem bind_eq_ok {x : Outcome ε α} {f : α → Outcome ε β} {b : β} :
    (x >>= f) = ok b ↔ ∃ a, x = ok a ∧ f a = ok b := by
  cases x <;> simp

theorem map_eq_ok {x : Outcome ε α} {f : α → β} {b : β} :
    f <$> x = ok b ↔ ∃ a, x = ok a ∧ f a = b := by
  cases x <;> simp

theorem bind_eq_err {x : Outcome ε α} {f : α → Outcome ε β} {e : ε} :
    (x >>= f) = err e ↔ x = err e ∨ ∃ a, x = ok a ∧ f a = err e := by
  cases x <;> simp

theorem map_eq_err {x : Outcome ε α} {f : α → β} {e : ε} : f <$> x = err e ↔ x = err e := by
  cases x <;> simp

/-- The call returns: it reaches no panicking operation. -/
def Returns (x : Outcome ε α) : Prop := x ≠ panicked

@[simp] theorem returns_ok (a : α) : (ok a : Outcome ε α).Returns := nofun

@[simp] theorem returns_err (e : ε) : (err e : Outcome ε α).Returns := nofun

@[simp] theorem not_returns_panicked : ¬ (panicked : Outcome ε α).Returns := fun h => h rfl

instance (x : Outcome ε α) : Decidable x.Returns :=
  match x with
  | ok a => .isTrue (returns_ok a)
  | err e => .isTrue (returns_err e)
  | panicked => .isFalse not_returns_panicked

theorem Returns.bind {x : Outcome ε α} {f : α → Outcome ε β} (hx : x.Returns)
    (hf : ∀ a, x = ok a → (f a).Returns) : (x >>= f).Returns := by
  cases x with
  | ok a => exact hf a rfl
  | err e => exact returns_err e
  | panicked => exact absurd rfl hx

theorem returns_bind_iff {x : Outcome ε α} {f : α → Outcome ε β} :
    (x >>= f).Returns ↔ x.Returns ∧ ∀ a, x = ok a → (f a).Returns := by
  cases x <;> simp

theorem Returns.map {x : Outcome ε α} (hx : x.Returns) (f : α → β) : (f <$> x).Returns := by
  cases x with
  | ok a => exact returns_ok (f a)
  | err e => exact returns_err e
  | panicked => exact absurd rfl hx

/-- A call that returns without a value has returned an error. -/
theorem Returns.exists_err {x : Outcome ε α} (hx : x.Returns) (h : ∀ a, x ≠ ok a) :
    ∃ e, x = err e := by
  cases x with
  | ok a => exact absurd rfl (h a)
  | err e => exact ⟨e, rfl⟩
  | panicked => exact absurd rfl hx

/-- `result.map_err(f)` on a library's own `Result`. -/
def mapErr (f : ε' → ε) : Except ε' α → Outcome ε α
  | .ok a => ok a
  | .error e => err (f e)

@[simp] theorem mapErr_ok (f : ε' → ε) (a : α) : mapErr f (.ok a) = ok a := rfl

@[simp] theorem mapErr_error (f : ε' → ε) (e : ε') :
    (mapErr f (.error e) : Outcome ε α) = err (f e) := rfl

theorem returns_mapErr (f : ε' → ε) (x : Except ε' α) : (mapErr f x).Returns := by
  cases x <;> simp

/-- `option.ok_or(e)`. -/
def okOr (e : ε) : Option α → Outcome ε α
  | some a => ok a
  | none => err e

@[simp] theorem okOr_some (e : ε) (a : α) : okOr e (some a) = ok a := rfl

@[simp] theorem okOr_none (e : ε) : (okOr e none : Outcome ε α) = err e := rfl

theorem okOr_eq_ok {e : ε} {x : Option α} {a : α} : okOr e x = ok a ↔ x = some a := by
  cases x <;> simp [okOr]

theorem returns_okOr (e : ε) (x : Option α) : (okOr e x).Returns := by
  cases x <;> simp

/-- `option.unwrap()`. -/
def unwrap : Option α → Outcome ε α
  | some a => ok a
  | none => panicked

@[simp] theorem unwrap_some (a : α) : (unwrap (some a) : Outcome ε α) = ok a := rfl

end Outcome

/-! ## Slice operations that panic -/

section Slices
variable {ε α : Type}

/-- `slice.split_at(n)`: panics when `n` is past the end. -/
def splitAt (slice : List α) (n : Nat) : Outcome ε (List α × List α) :=
  if n ≤ slice.length then .ok (slice.take n, slice.drop n) else .panicked

/-- `slice[i]`: panics when `i` is not an index. -/
def index (slice : List α) (i : Nat) : Outcome ε α := Outcome.unwrap slice[i]?

/-- `slice[..n]`: panics when `n` is past the end. -/
def sliceTo (slice : List α) (n : Nat) : Outcome ε (List α) :=
  if n ≤ slice.length then .ok (slice.take n) else .panicked

/-- `<[α; n]>::try_from(slice)`: there is an array only of the slice's own
length. -/
def tryIntoArray (n : Nat) (slice : List α) : Option (Vector α n) :=
  if h : slice.length = n then some ⟨slice.toArray, by simpa using h⟩ else none

theorem splitAt_of_le {slice : List α} {n : Nat} (h : n ≤ slice.length) :
    (splitAt slice n : Outcome ε _) = .ok (slice.take n, slice.drop n) := if_pos h

@[simp] theorem index_cons_zero (a : α) (l : List α) : (index (a :: l) 0 : Outcome ε α) = .ok a :=
  rfl

theorem sliceTo_of_le {slice : List α} {n : Nat} (h : n ≤ slice.length) :
    (sliceTo slice n : Outcome ε _) = .ok (slice.take n) := if_pos h

end Slices

/-! ## Mutexes -/

/-- `Mutex<σ>`: the value, and whether a thread panicked while it held the
lock. -/
structure Guarded (σ : Type) where
  value : σ
  poisoned : Bool
  deriving DecidableEq, Repr

namespace Guarded
variable {σ ε α : Type}

/-- `Mutex::new`. -/
def new (value : σ) : Guarded σ := ⟨value, false⟩

/-- A method whose body runs under `self.inner.lock().unwrap()`: it panics on a
poisoned lock, and a panic of the body poisons it. -/
def withLock (m : Guarded σ) (body : σ → σ × Outcome ε α) : Guarded σ × Outcome ε α :=
  if m.poisoned then (m, .panicked)
  else
    let (value, result) := body m.value
    (⟨value, decide (¬ result.Returns)⟩, result)

theorem eq_new {m : Guarded σ} (h : m.poisoned = false) : m = new m.value := by
  cases m with
  | mk value poisoned => rw [new, ← h]

/-- A poisoned lock answers nothing and keeps its value. -/
theorem withLock_poisoned {m : Guarded σ} (h : m.poisoned = true) (body : σ → σ × Outcome ε α) :
    m.withLock body = (m, .panicked) := if_pos h

/-- A body that returns leaves the lock usable. -/
theorem withLock_of_returns {m : Guarded σ} (hm : m.poisoned = false) {body : σ → σ × Outcome ε α}
    (h : (body m.value).2.Returns) :
    m.withLock body = (new (body m.value).1, (body m.value).2) := by
  simp [withLock, hm, new, h]

end Guarded
end Rust
