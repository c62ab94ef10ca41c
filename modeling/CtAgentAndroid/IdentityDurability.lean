import CtAgentAndroid.KeyStoreIdentity
import CtAgentAndroid.WriteBehind

/-! # Identities when the process dies

`KeyStoreIdentity` over preferences that write behind: every method ends in
`apply()`, which returns before anything is on disk, and no method calls
`commit()`.  So a call that has returned is not yet durable.  What a restart reads
is what the calls determined exactly when no process dies while a pending batch
would still change a pair (`durable_iff`); a death right after a generation loses
the pair, and one right after `forget` brings it back.
-/
namespace CtAgentAndroid
open Automaton BatchMap WriteBehind

/-- `SharedPreferences` with memory, disk and batches to be written. -/
abbrev LaggingPrefs := Store (Values String String) (List (Edit String String))

instance : SharedPreferences LaggingPrefs where
  contains p key := (p.memory key).isSome
  getString p key := p.memory key
  apply := Store.apply Values.apply

/-- What happens to the store: a call, a write to disk, or the death of the
process, after which a new one opens the store. -/
inductive DeviceEvent (ε : Type) where
  | call (c : IdentityCall ε)
  | write
  | die

/-- The store on a device. -/
def device (ε : Type) : Mealy (KeyStoreIdentity LaggingPrefs) (DeviceEvent ε)
    (Option (Except ε (Option HexKeypair))) where
  step self
    | .call c => (((keyStore _ ε).step self c).1, some ((keyStore _ ε).step self c).2)
    | .write => (⟨self.prefs.write Values.apply⟩, none)
    | .die => (⟨self.prefs.restart⟩, none)

/-- Nothing is stored yet. -/
def freshDevice : KeyStoreIdentity LaggingPrefs := ⟨.load Values.empty⟩

section Runs
variable {ε : Type}

/-- The calls among the events. -/
def callsOf (events : List (DeviceEvent ε)) : List (IdentityCall ε) :=
  events.filterMap fun
    | .call c => some c
    | _ => none

/-- **Durability**: whenever the process dies, what is read after the restart is
what the calls up to then determined. -/
def Durable (events : List (DeviceEvent ε)) : Prop :=
  ∀ pre, pre ++ [.die] <+: events → ∀ kind,
    ((device ε).run freshDevice (pre ++ [.die])).answers kind = .of (lastPair kind (callsOf pre))

/-- Writing what is pending would change no answer of the disk. -/
def NothingAtStake (s : KeyStoreIdentity LaggingPrefs) : Prop :=
  ∀ kind, (KeyStoreIdentity.mk (s.prefs.drained Values.apply)).answers kind =
    (KeyStoreIdentity.mk s.prefs.disk).answers kind

/-! ## Runs with the pairs beside them -/

/-- What an event does to the pairs. -/
def DeviceEvent.change : DeviceEvent ε → Option (Edit IdentityKind HexKeypair)
  | call c => c.change
  | _ => none

/-- The device, and the pairs its calls determine: these survive a death. -/
def witnessedDevice (ε : Type) :
    Mealy (Values IdentityKind HexKeypair × KeyStoreIdentity LaggingPrefs) (DeviceEvent ε)
      Unit where
  step := fun (m, s) e => ((m.apply e.change.toList, (device ε).next s e), ())

theorem witnessedDevice_run (m : Values IdentityKind HexKeypair) (s : KeyStoreIdentity LaggingPrefs)
    (events : List (DeviceEvent ε)) :
    (witnessedDevice ε).run (m, s) events =
      (m.apply ((callsOf events).filterMap IdentityCall.change), (device ε).run s events) := by
  induction events generalizing m s with
  | nil => rfl
  | cons e events ih =>
    have hnext : (witnessedDevice ε).next (m, s) e =
        (m.apply e.change.toList, (device ε).next s e) := rfl
    have hchanges : (callsOf (e :: events)).filterMap IdentityCall.change =
        e.change.toList ++ (callsOf events).filterMap IdentityCall.change := by
      rcases e with c | - | -
      · cases hc : c.change with
        | none => simp [callsOf, DeviceEvent.change, hc]
        | some edit => simp [callsOf, DeviceEvent.change, hc]
      · rfl
      · rfl
    rw [Mealy.run_cons, hnext, ih, hchanges, Values.apply_append, Mealy.run_cons]

/-- The memory holds the pairs, and is what the disk will hold. -/
def Tracks (x : Values IdentityKind HexKeypair × KeyStoreIdentity LaggingPrefs) : Prop :=
  Holds ⟨x.2.prefs.memory⟩ x.1 ∧ x.2.prefs.InSync Values.apply

/-- A call changes memory as it changes a plain map. -/
theorem memory_next_call (s : KeyStoreIdentity LaggingPrefs) (c : IdentityCall ε) :
    KeyStoreIdentity.mk ((device ε).next s (.call c)).prefs.memory =
      (keyStore _ ε).next ⟨s.prefs.memory⟩ c := by
  have hcall : (device ε).next s (.call c) = (keyStore _ ε).next s c := rfl
  rw [hcall, keyStore_next, keyStore_next]
  cases c.change <;> rfl

theorem inSync_next_call {s : KeyStoreIdentity LaggingPrefs} (h : s.prefs.InSync Values.apply)
    (c : IdentityCall ε) : ((device ε).next s (.call c)).prefs.InSync Values.apply := by
  have hcall : (device ε).next s (.call c) = (keyStore _ ε).next s c := rfl
  rw [hcall, keyStore_next]
  cases c.change with
  | none => exact h
  | some e => exact h.apply _

/-- An event keeps track, a death if the pairs are on disk. -/
theorem Tracks.next {m : Values IdentityKind HexKeypair} {s : KeyStoreIdentity LaggingPrefs}
    (h : Tracks (m, s)) {e : DeviceEvent ε} (he : e = .die → Holds ⟨s.prefs.disk⟩ m) :
    Tracks ((witnessedDevice ε).next (m, s) e) := by
  rcases e with c | - | -
  · refine ⟨?_, inSync_next_call h.2 c⟩
    have hnext := h.1.next c
    rw [← memory_next_call] at hnext
    exact hnext
  · refine ⟨?_, h.2.write⟩
    have hmemory : (s.prefs.write Values.apply).memory = s.prefs.memory := by
      unfold Store.write
      split <;> rfl
    show Holds ⟨(s.prefs.write Values.apply).memory⟩ m
    rw [hmemory]
    exact h.1
  · exact ⟨he rfl, Store.inSync_load _⟩

/-- The disk holds the pairs exactly when nothing is at stake. -/
theorem Tracks.disk_holds_iff {m : Values IdentityKind HexKeypair}
    {s : KeyStoreIdentity LaggingPrefs} (h : Tracks (m, s)) :
    Holds ⟨s.prefs.disk⟩ m ↔ NothingAtStake s := by
  have hdrained : ∀ kind,
      (KeyStoreIdentity.mk (s.prefs.drained Values.apply)).answers kind = .of (m kind) := by
    intro kind
    rw [← h.2]
    exact h.1.answers kind
  rw [holds_iff, NothingAtStake]
  simp only [hdrained]
  exact forall_congr' fun kind => eq_comm

/-- **When identity calls are durable.**  After every restart of a run the pairs
read are those its calls determined, exactly when no process of it dies while
writing the pending batches would still change what the disk answers. -/
theorem durable_iff (events : List (DeviceEvent ε)) :
    Durable events ↔
      (device ε).AllSteps (fun s e => e = .die → NothingAtStake s) freshDevice events := by
  have hexact := Mealy.allSteps_congr_of_inv (M := witnessedDevice ε) (I := Tracks)
    (G := fun x e => e = .die → Holds ⟨x.2.prefs.disk⟩ x.1)
    (H := fun x e => e = .die → NothingAtStake x.2)
    (fun x e hx => imp_congr_right fun _ => hx.disk_holds_iff)
    (fun x e hx he => hx.next he) (s := (Values.empty, freshDevice))
    ⟨holds_empty, Store.inSync_load _⟩ events
  simp only [Mealy.AllSteps, witnessedDevice_run, holds_iff, apply_changes] at hexact
  rw [Mealy.AllSteps, ← hexact]
  constructor
  · intro h pre e hpre hdie kind
    subst hdie
    have hread := h pre hpre kind
    rw [Mealy.run_append] at hread
    exact hread
  · intro h pre hpre kind
    rw [Mealy.run_append]
    exact h pre .die hpre rfl kind

end Runs

/-- A pair generated and not yet written is gone after a death, and a pair
forgotten is back. -/
theorem death_after_call :
    let pair : HexKeypair := ⟨"aa", "bb"⟩
    let generate : DeviceEvent String := .call (.generateAndStore .holder (.ok pair))
    ¬ Durable [generate, .die] ∧ ¬ Durable [generate, .write, .call (.forget .holder), .die] := by
  intro pair generate
  constructor
  · intro h
    have hread := h [generate] (List.prefix_refl _) .holder
    revert hread
    decide
  · intro h
    have hread := h [generate, .write, .call (.forget .holder)] (List.prefix_refl _) .holder
    revert hread
    decide

end CtAgentAndroid
