import Mathlib.Data.List.Nodup
import CtAgentAndroid.BatchMap
import CtAgentAndroid.WriteBehind

/-! # Maps that are written behind, and once

A map that writes behind and is only ever given values for keys it has none for.
Then what is pending fills keys that are empty on disk, each once (`WriteOnce`); so
what is on disk stays there, and is in memory as well (`memory_of_disk`).  A
restart can only lose values that were never written.
-/
namespace WriteBehind
open BatchMap
variable {K V : Type} [DecidableEq K]

/-- A map that writes behind, edit by edit. -/
abbrev MapStore (K V : Type) := Store (Values K V) (Edit K V)

/-- What is pending fills keys that are empty on disk, each once. -/
structure WriteOnce (s : MapStore K V) : Prop where
  inSync : s.InSync Values.edit
  nodup : (s.pending.map Edit.key).Nodup
  fills : ∀ e ∈ s.pending, s.disk e.key = none ∧ e.value.isSome = true

namespace WriteOnce
variable {s : MapStore K V}

theorem load (disk : Values K V) : WriteOnce (.load disk : MapStore K V) where
  inSync := Store.inSync_load disk
  nodup := List.nodup_nil
  fills := nofun

/-- A key that is not pending is in memory as on disk. -/
theorem memory_eq_disk (h : WriteOnce s) {k : K} (hk : ∀ e ∈ s.pending, e.key ≠ k) :
    s.memory k = s.disk k := by
  have hsync : s.memory = s.disk.apply s.pending := h.inSync
  rw [hsync, Values.apply_of_forall_ne hk]

/-- One that is pending is in memory. -/
theorem memory_of_pending (h : WriteOnce s) {e : Edit K V} (he : e ∈ s.pending) :
    s.memory e.key = e.value := by
  have hsync : s.memory = s.disk.apply s.pending := h.inSync
  rw [hsync]
  refine Values.apply_eq ⟨e, he, rfl⟩ (fun e' he' hkey => ?_) s.disk
  rw [List.inj_on_of_nodup_map h.nodup he' he hkey]

/-- What is on disk is in memory. -/
theorem memory_of_disk (h : WriteOnce s) {k : K} {v : V} (hk : s.disk k = some v) :
    s.memory k = some v := by
  rw [h.memory_eq_disk, hk]
  rintro e he rfl
  rw [(h.fills e he).1] at hk
  cases hk

/-- A key that memory has no value for is empty everywhere. -/
theorem of_memory_eq_none (h : WriteOnce s) {k : K} (hk : s.memory k = none) :
    s.disk k = none ∧ ∀ e ∈ s.pending, e.key ≠ k := by
  constructor
  · cases hdisk : s.disk k with
    | none => rfl
    | some v =>
      rw [h.memory_of_disk hdisk] at hk
      cases hk
  · rintro e he rfl
    rw [h.memory_of_pending he] at hk
    have hsome := (h.fills e he).2
    rw [hk] at hsome
    cases hsome

/-- A value for a key that has none. -/
theorem put (h : WriteOnce s) {k : K} (hk : s.memory k = none) (v : V) :
    WriteOnce (s.apply Values.edit (.put k v)) := by
  obtain ⟨hdisk, hpending⟩ := h.of_memory_eq_none hk
  refine ⟨h.inSync.apply _, ?_, ?_⟩
  · show ((s.pending ++ [Edit.put k v]).map Edit.key).Nodup
    rw [List.map_append]
    refine List.nodup_append'.mpr ⟨h.nodup, List.nodup_singleton _, ?_⟩
    intro k' hk' hlast
    obtain rfl := List.mem_singleton.mp hlast
    obtain ⟨e, he, hkey⟩ := List.mem_map.mp hk'
    exact hpending e he hkey
  · intro e he
    rcases List.mem_append.mp he with he | he
    · exact h.fills e he
    · obtain rfl := List.mem_singleton.mp he
      exact ⟨hdisk, rfl⟩

theorem write (h : WriteOnce s) : WriteOnce (s.write Values.edit) := by
  have hsync := h.inSync.write
  unfold Store.write at hsync ⊢
  split at hsync
  · exact h
  · next e pending hpending =>
    have hnodup := h.nodup
    have hfills := h.fills
    rw [hpending] at hnodup hfills
    obtain ⟨hnew, hnodup⟩ := List.nodup_cons.mp hnodup
    refine ⟨hsync, hnodup, fun e' he' => ?_⟩
    have hne : e.key ≠ e'.key := fun hkey => hnew (hkey ▸ List.mem_map_of_mem he')
    refine ⟨?_, (hfills e' (List.mem_cons_of_mem e he')).2⟩
    show s.disk.edit e e'.key = none
    rw [Values.edit_of_ne hne]
    exact (hfills e' (List.mem_cons_of_mem e he')).1

/-- Writing keeps what is on disk. -/
theorem disk_write (h : WriteOnce s) {k : K} {v : V} (hk : s.disk k = some v) :
    (s.write Values.edit).disk k = some v := by
  unfold Store.write
  split
  · exact hk
  · next e pending hpending =>
    show s.disk.edit e k = some v
    rw [Values.edit_of_ne, hk]
    rintro rfl
    have hempty := (h.fills e (hpending ▸ List.mem_cons_self)).1
    rw [hempty] at hk
    cases hk

theorem restart (s : MapStore K V) : WriteOnce s.restart := load s.disk

end WriteOnce

@[simp] theorem memory_write (s : MapStore K V) : (s.write Values.edit).memory = s.memory := by
  unfold Store.write
  split <;> rfl

end WriteBehind
