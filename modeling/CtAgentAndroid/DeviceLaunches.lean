import CtAgentAndroid.AppLaunch
import CtAgentAndroid.IdentityDurability
import CtAgentAndroid.WriteOnce

/-! # The app on a device

`MainActivity.onCreate` over preferences that write behind: the app is launched,
batches reach the disk, and the process dies, in any order.  In its own terms the
store is a map of pairs that writes behind (`pairPhone`), which the string
preferences keep key by key (`phone_refines`); and as a launch generates only what
is missing, it is written once.

So an identity that has reached the disk is the app's for good
(`identity_on_disk_stays`).  One that has not is lost when the process dies, and
the next launch makes another: an identity is generated once more for every time
it was lost so, and never otherwise (`generations_balance`).
-/
namespace CtAgentAndroid
open Automaton BatchMap WriteBehind

/-- What happens to the app. -/
inductive PhoneEvent where
  | launch (l : Launch)
  | write
  | die

/-- The app on a device. -/
def phone : Mealy (KeyStoreIdentity LaggingPrefs) PhoneEvent (Option LaunchReport) where
  step identity
    | .launch l => ((onCreate identity l).1, some (onCreate identity l).2)
    | .write => (⟨identity.prefs.write Values.apply⟩, none)
    | .die => (⟨identity.prefs.restart⟩, none)

/-- The pair of a kind that an event has generated. -/
def generatedIn (report : Option LaunchReport) (kind : IdentityKind) : Option HexKeypair :=
  report.bind (·.generated kind)

/-- What a new process would be answered. -/
def KeyStoreIdentity.onDisk (identity : KeyStoreIdentity LaggingPrefs) :
    KeyStoreIdentity (Values String String) := ⟨identity.prefs.disk⟩

/-! ## In terms of pairs -/

abbrev PairStore := MapStore IdentityKind HexKeypair

/-- A pair is made where there is none. -/
def ensurePair (kind : IdentityKind) (native : Except UnsatisfiedLinkError HexKeypair)
    (pairs : PairStore) : PairStore × Except UnsatisfiedLinkError (Option HexKeypair) :=
  match pairs.memory kind, native with
  | some _, _ => (pairs, .ok none)
  | none, .ok pair => (pairs.apply Values.edit (.put kind pair), .ok (some pair))
  | none, .error e => (pairs, .error e)

/-- One pair or none for each kind. -/
def madeOf (holder noise : Option HexKeypair) : IdentityKind → Option HexKeypair
  | .holder => holder
  | .noise => noise

/-- A launch, and the pairs it made. -/
def launchPairs (l : Launch) (pairs : PairStore) :
    PairStore × (IdentityKind → Option HexKeypair) :=
  match ensurePair .holder l.holderPair pairs with
  | (pairs, .error _) => (pairs, madeOf none none)
  | (pairs, .ok holder) =>
    match ensurePair .noise l.noisePair pairs with
    | (pairs, .error _) => (pairs, madeOf holder none)
    | (pairs, .ok noise) => (pairs, madeOf holder noise)

/-- The app, as far as pairs go. -/
def pairPhone : Mealy PairStore PhoneEvent (IdentityKind → Option HexKeypair) where
  step pairs
    | .launch l => launchPairs l pairs
    | .write => (pairs.write Values.edit, fun _ => none)
    | .die => (pairs.restart, fun _ => none)

/-- No pair is stored yet. -/
def noPairs : PairStore := .load Values.empty

/-! ## The preferences keep the pairs -/

/-- The preferences keep the pairs, in memory, on disk and batch by batch. -/
def KeepsPairs (s : KeyStoreIdentity LaggingPrefs) (pairs : PairStore) : Prop :=
  Store.Shadows (fun values pairs => identityLayout.Represents pairs values)
    (fun e => identityLayout.batch e.key e.value) s.prefs pairs

section Keeps
variable {s : KeyStoreIdentity LaggingPrefs} {pairs : PairStore}

theorem KeepsPairs.answers (h : KeepsPairs s pairs) (kind : IdentityKind) :
    s.answers kind = .of (pairs.memory kind) := by
  have hmemory : s.answers kind = (KeyStoreIdentity.mk s.prefs.memory).answers kind := by
    cases kind <;> rfl
  rw [hmemory]
  exact Holds.answers (s := ⟨s.prefs.memory⟩) h.memory kind

theorem KeepsPairs.onDisk (h : KeepsPairs s pairs) (kind : IdentityKind) :
    s.onDisk.answers kind = .of (pairs.disk kind) :=
  Holds.answers (s := s.onDisk) h.disk kind

theorem keepsPairs_fresh : KeepsPairs freshDevice noPairs :=
  Store.shadows_load Layout.represents_empty

theorem KeepsPairs.generated (h : KeepsPairs s pairs) (kind : IdentityKind) (pair : HexKeypair) :
    KeepsPairs ((keyStore _ UnsatisfiedLinkError).step s (.generateAndStore kind (.ok pair))).1
      (pairs.apply Values.edit (.put kind pair)) := by
  have hnext : ((keyStore _ UnsatisfiedLinkError).step s
      (.generateAndStore kind (.ok pair))).1 = _ := keyStore_next s _
  rw [hnext]
  exact Store.Shadows.apply h (e := .put kind pair) fun hrep => hrep.set kind (some pair)

theorem KeepsPairs.ensured (h : KeepsPairs s pairs) (kind : IdentityKind)
    (native : Except UnsatisfiedLinkError HexKeypair) :
    KeepsPairs (ensureIdentity kind (s.answers kind).present s native).1
        (ensurePair kind native pairs).1 ∧
      (ensureIdentity kind (s.answers kind).present s native).2 =
        (ensurePair kind native pairs).2 := by
  have hpresent : (s.answers kind).present = (pairs.memory kind).isSome := by
    rw [h.answers]
    rfl
  rw [hpresent]
  unfold ensureIdentity ensurePair
  cases pairs.memory kind with
  | some pair => exact ⟨h, rfl⟩
  | none =>
    rw [Option.isSome_none, Bool.not_false, if_pos rfl]
    cases native with
    | error e => cases kind <;> exact ⟨h, rfl⟩
    | ok pair => exact ⟨h.generated kind pair, by cases kind <;> rfl⟩

theorem KeepsPairs.launched (h : KeepsPairs s pairs) (l : Launch) :
    KeepsPairs (onCreate s l).1 (launchPairs l pairs).1 ∧
      ∀ kind, (onCreate s l).2.generated kind = (launchPairs l pairs).2 kind := by
  have hholder : KeepsPairs (ensureHolderIdentity s l.holderPair).1
        (ensurePair .holder l.holderPair pairs).1 ∧
      (ensureHolderIdentity s l.holderPair).2 = (ensurePair .holder l.holderPair pairs).2 :=
    h.ensured .holder l.holderPair
  unfold onCreate launchPairs
  generalize ensureHolderIdentity s l.holderPair = first at hholder ⊢
  generalize ensurePair .holder l.holderPair pairs = first' at hholder ⊢
  obtain ⟨t, r⟩ := first
  obtain ⟨pairs', r'⟩ := first'
  obtain ⟨hkeeps, rfl⟩ := hholder
  cases r with
  | error e => exact ⟨hkeeps, fun kind => by cases kind <;> rfl⟩
  | ok holder =>
    have hnoise : KeepsPairs (ensureNoiseIdentity t l.noisePair).1
          (ensurePair .noise l.noisePair pairs').1 ∧
        (ensureNoiseIdentity t l.noisePair).2 = (ensurePair .noise l.noisePair pairs').2 :=
      KeepsPairs.ensured hkeeps .noise l.noisePair
    simp only
    generalize ensureNoiseIdentity t l.noisePair = second at hnoise ⊢
    generalize ensurePair .noise l.noisePair pairs' = second' at hnoise ⊢
    obtain ⟨u, r⟩ := second
    obtain ⟨pairs'', r'⟩ := second'
    obtain ⟨hkeeps, rfl⟩ := hnoise
    cases r with
    | error e => exact ⟨hkeeps, fun kind => by cases kind <;> rfl⟩
    | ok noise => exact ⟨hkeeps, fun kind => by cases kind <;> rfl⟩

end Keeps

/-- **The app keeps pairs**, and generates what it is seen to. -/
theorem phone_refines :
    phone.Refines pairPhone KeepsPairs some (fun _ report made => generatedIn report = made) where
  skip _ h := nomatch h
  follow {s pairs e f} h he := by
    obtain rfl := Option.some.inj he
    cases e with
    | launch l => exact (h.launched l).1
    | write => exact Store.Shadows.write h fun e hrep => hrep.set e.key e.value
    | die => exact Store.Shadows.restart h
  answer {s pairs e f} h he := by
    obtain rfl := Option.some.inj he
    cases e with
    | launch l => exact funext (h.launched l).2
    | write => rfl
    | die => rfl

/-- The pairs behind a run of the app. -/
theorem keepsPairs_run (events : List PhoneEvent) :
    KeepsPairs (phone.run freshDevice events) (pairPhone.run noPairs events) := by
  have h := phone_refines.run keepsPairs_fresh events
  rwa [List.filterMap_some] at h

/-! ## What a launch does to the pairs -/

section Launch
variable {l : Launch} {pairs : PairStore} {kind : IdentityKind}
  {native : Except UnsatisfiedLinkError HexKeypair}

/-- The three ways the code for one kind can go. -/
theorem ensurePair_cases (kind : IdentityKind) (native : Except UnsatisfiedLinkError HexKeypair)
    (pairs : PairStore) :
    ((pairs.memory kind).isSome = true ∧ ensurePair kind native pairs = (pairs, .ok none)) ∨
    (∃ pair, pairs.memory kind = none ∧ native = .ok pair ∧ ensurePair kind native pairs =
      (pairs.apply Values.edit (.put kind pair), .ok (some pair))) ∨
    ∃ e, pairs.memory kind = none ∧ ensurePair kind native pairs = (pairs, .error e) := by
  unfold ensurePair
  rcases pairs.memory kind with _ | pair
  · rcases native with e | pair
    · exact .inr (.inr ⟨e, rfl, rfl⟩)
    · exact .inr (.inl ⟨pair, rfl, rfl, rfl⟩)
  · exact .inl ⟨rfl, rfl⟩

theorem memory_put_self (pairs : PairStore) (kind : IdentityKind) (pair : HexKeypair) :
    (pairs.apply Values.edit (.put kind pair)).memory kind = some pair :=
  Values.edit_self pairs.memory (.put kind pair)

theorem memory_put_of_ne {k k' : IdentityKind} (h : k' ≠ k) (pairs : PairStore)
    (pair : HexKeypair) :
    (pairs.apply Values.edit (.put k' pair)).memory k = pairs.memory k :=
  Values.edit_of_ne (e := .put k' pair) h pairs.memory

variable {pairs' pairs'' : PairStore} {holder noise : Option HexKeypair}
  {e : UnsatisfiedLinkError}

theorem launchPairs_holderThrew
    (hholder : ensurePair .holder l.holderPair pairs = (pairs', .error e)) :
    launchPairs l pairs = (pairs', madeOf none none) := by
  simp only [launchPairs, hholder]

theorem launchPairs_noiseThrew
    (hholder : ensurePair .holder l.holderPair pairs = (pairs', .ok holder))
    (hnoise : ensurePair .noise l.noisePair pairs' = (pairs'', .error e)) :
    launchPairs l pairs = (pairs'', madeOf holder none) := by
  simp only [launchPairs, hholder, hnoise]

theorem launchPairs_finished
    (hholder : ensurePair .holder l.holderPair pairs = (pairs', .ok holder))
    (hnoise : ensurePair .noise l.noisePair pairs' = (pairs'', .ok noise)) :
    launchPairs l pairs = (pairs'', madeOf holder noise) := by
  simp only [launchPairs, hholder, hnoise]

/-- What is kept wherever a missing pair of the launch is put is kept by the
launch. -/
theorem launchPairs_preserves {I : PairStore → Prop}
    (hput : ∀ pairs kind pair, .generateAndStore kind (.ok pair) ∈ l.calls → I pairs →
      pairs.memory kind = none → I (pairs.apply Values.edit (.put kind pair)))
    (h : I pairs) : I (launchPairs l pairs).1 := by
  have step : ∀ kind {native pairs}, .generateAndStore kind native ∈ l.calls → I pairs →
      I (ensurePair kind native pairs).1 := by
    intro kind native pairs hmem h
    rcases ensurePair_cases kind native pairs with ⟨-, heq⟩ | ⟨pair, hnone, rfl, heq⟩ | ⟨e, -, heq⟩
    · rw [heq]
      exact h
    · rw [heq]
      exact hput pairs kind pair hmem h hnone
    · rw [heq]
      exact h
  have hfirst := step .holder List.mem_cons_self h
  rcases hholder : ensurePair .holder l.holderPair pairs with ⟨pairs', e | holder⟩
  · rw [hholder] at hfirst
    rw [launchPairs_holderThrew hholder]
    exact hfirst
  · rw [hholder] at hfirst
    have hsecond := step .noise (List.mem_cons_of_mem _ List.mem_cons_self) hfirst
    rcases hnoise : ensurePair .noise l.noisePair pairs' with ⟨pairs'', e | noise⟩
    · rw [hnoise] at hsecond
      rw [launchPairs_noiseThrew hholder hnoise]
      exact hsecond
    · rw [hnoise] at hsecond
      rw [launchPairs_finished hholder hnoise]
      exact hsecond

/-- A launch makes a pair where there was none, or leaves it alone. -/
theorem launchPairs_memory (l : Launch) (pairs : PairStore) (kind : IdentityKind) :
    ((launchPairs l pairs).2 kind = none ∧
      (launchPairs l pairs).1.memory kind = pairs.memory kind) ∨
    ∃ pair, pairs.memory kind = none ∧ (launchPairs l pairs).2 kind = some pair ∧
      (launchPairs l pairs).1.memory kind = some pair := by
  rcases ensurePair_cases .holder l.holderPair pairs with
    ⟨-, hholder⟩ | ⟨holder, hnone, -, hholder⟩ | ⟨e, -, hholder⟩
  · rcases ensurePair_cases .noise l.noisePair pairs with
      ⟨-, hnoise⟩ | ⟨noise, hnone, -, hnoise⟩ | ⟨e, -, hnoise⟩
    · rw [launchPairs_finished hholder hnoise]
      cases kind <;> exact .inl ⟨rfl, rfl⟩
    · rw [launchPairs_finished hholder hnoise]
      cases kind with
      | holder => exact .inl ⟨rfl, memory_put_of_ne (by decide) pairs noise⟩
      | noise => exact .inr ⟨noise, hnone, rfl, memory_put_self pairs .noise noise⟩
    · rw [launchPairs_noiseThrew hholder hnoise]
      cases kind <;> exact .inl ⟨rfl, rfl⟩
  · have hput := memory_put_self pairs .holder holder
    have hframe : (pairs.apply Values.edit (.put .holder holder)).memory .noise =
        pairs.memory .noise := memory_put_of_ne (by decide) pairs holder
    generalize pairs.apply Values.edit (.put .holder holder) = pairs' at hput hframe hholder
    rcases ensurePair_cases .noise l.noisePair pairs' with
      ⟨-, hnoise⟩ | ⟨noise, hnone', -, hnoise⟩ | ⟨e, -, hnoise⟩
    · rw [launchPairs_finished hholder hnoise]
      cases kind with
      | holder => exact .inr ⟨holder, hnone, rfl, hput⟩
      | noise => exact .inl ⟨rfl, hframe⟩
    · rw [launchPairs_finished hholder hnoise]
      cases kind with
      | holder =>
        exact .inr ⟨holder, hnone, rfl, (memory_put_of_ne (by decide) pairs' noise).trans hput⟩
      | noise =>
        rw [hframe] at hnone'
        exact .inr ⟨noise, hnone', rfl, memory_put_self pairs' .noise noise⟩
    · rw [launchPairs_noiseThrew hholder hnoise]
      cases kind with
      | holder => exact .inr ⟨holder, hnone, rfl, hput⟩
      | noise => exact .inl ⟨rfl, hframe⟩
  · rw [launchPairs_holderThrew hholder]
    cases kind <;> exact .inl ⟨rfl, rfl⟩

end Launch

/-! ## Runs -/

theorem pairPhone_writeOnce : pairPhone.Preserves WriteOnce := by
  intro pairs e h
  cases e with
  | launch l =>
    exact launchPairs_preserves (fun pairs kind pair _ h hnone => h.put hnone pair) h
  | write => exact h.write
  | die => exact .restart pairs

theorem writeOnce_run (events : List PhoneEvent) : WriteOnce (pairPhone.run noPairs events) :=
  pairPhone_writeOnce.run (.load _) events

/-- A pair on disk stays there. -/
theorem disk_stays {pairs : PairStore} (h : WriteOnce pairs) {kind : IdentityKind}
    {pair : HexKeypair} (hdisk : pairs.disk kind = some pair) (events : List PhoneEvent) :
    (pairPhone.run pairs events).disk kind = some pair := by
  have hkeep : pairPhone.Preserves fun pairs => WriteOnce pairs ∧ pairs.disk kind = some pair := by
    rintro pairs e ⟨h, hdisk⟩
    refine ⟨pairPhone_writeOnce pairs e h, ?_⟩
    cases e with
    | launch l =>
      exact launchPairs_preserves (I := fun pairs => pairs.disk kind = some pair)
        (fun _ _ _ _ hdisk _ => hdisk) hdisk
    | write => exact h.disk_write hdisk
    | die => exact hdisk
  exact (hkeep.run ⟨h, hdisk⟩ events).2

/-- A pair on disk stays there, and is the one the app reads. -/
theorem onDisk_stays {events : List PhoneEvent} {kind : IdentityKind} {pair : HexKeypair}
    (hpair : (phone.run freshDevice events).onDisk.answers kind = .of (some pair))
    (later : List PhoneEvent) :
    (phone.run (phone.run freshDevice events) later).onDisk.answers kind = .of (some pair) ∧
      (phone.run (phone.run freshDevice events) later).answers kind = .of (some pair) := by
  rw [(keepsPairs_run events).onDisk] at hpair
  have hdisk := disk_stays (writeOnce_run events) (Answers.of_injective hpair) later
  rw [← Mealy.run_append] at hdisk ⊢
  have hkeeps := keepsPairs_run (events ++ later)
  rw [hkeeps.onDisk, hkeeps.answers, hdisk, (writeOnce_run (events ++ later)).memory_of_disk hdisk]
  exact ⟨rfl, rfl⟩

/-- **What has reached the disk is the app's for good.**  Whatever is launched,
written and killed, memory and disk hold whole pairs or none; and a pair that is
on disk stays there, and is the one the app reads, in every later state. -/
theorem identity_on_disk_stays (events : List PhoneEvent) (kind : IdentityKind) :
    let s := phone.run freshDevice events
    (∃ pair, s.answers kind = .of pair) ∧ (∃ pair, s.onDisk.answers kind = .of pair) ∧
      ∀ pair, s.onDisk.answers kind = .of (some pair) → ∀ later,
        (phone.run s later).onDisk.answers kind = .of (some pair) ∧
          (phone.run s later).answers kind = .of (some pair) := by
  intro s
  have hkeeps : KeepsPairs s (pairPhone.run noPairs events) := keepsPairs_run events
  exact ⟨⟨_, hkeeps.answers kind⟩, ⟨_, hkeeps.onDisk kind⟩, fun pair hpair => onDisk_stays hpair⟩

/-! ## How often an identity is generated -/

/-- The process dies. -/
def PhoneEvent.isDie : PhoneEvent → Bool
  | die => true
  | _ => false

/-- The process dies with an identity that is not on disk. -/
def losesIdentity (kind : IdentityKind) (s : KeyStoreIdentity LaggingPrefs) (e : PhoneEvent) :
    Bool :=
  e.isDie && (s.answers kind).present && !(s.onDisk.answers kind).present

/-- A launch generates an identity. -/
def generatesIdentity (kind : IdentityKind) (s : KeyStoreIdentity LaggingPrefs) (e : PhoneEvent) :
    Bool := (generatedIn (phone.out s e) kind).isSome

theorem pairPhone_balance {pairs : PairStore} (h : WriteOnce pairs) (kind : IdentityKind)
    (e : PhoneEvent) :
    ((pairPhone.next pairs e).memory kind).isSome.toNat +
        (if e.isDie && (pairs.memory kind).isSome && !(pairs.disk kind).isSome then 1 else 0) =
      (pairs.memory kind).isSome.toNat +
        (if ((pairPhone.out pairs e) kind).isSome then 1 else 0) := by
  cases e with
  | launch l =>
    show ((launchPairs l pairs).1.memory kind).isSome.toNat + 0 =
      _ + (if ((launchPairs l pairs).2 kind).isSome then 1 else 0)
    rcases launchPairs_memory l pairs kind with ⟨hmade, hmemory⟩ | ⟨pair, hnone, hmade, hmemory⟩
    · rw [hmade, hmemory]
      rfl
    · rw [hmade, hmemory, hnone]
      rfl
  | write =>
    show ((pairs.write Values.edit).memory kind).isSome.toNat + 0 = _ + 0
    rw [memory_write]
  | die =>
    show (pairs.disk kind).isSome.toNat + _ = _
    rcases hdisk : pairs.disk kind with _ | pair
    · cases (pairs.memory kind).isSome <;> rfl
    · rw [h.memory_of_disk hdisk]
      rfl

/-- **Generated once more for every loss.**  Over any run, an identity has been
generated as often as a process died before it was written, and once more if the
app has it. -/
theorem generations_balance (events : List PhoneEvent) (kind : IdentityKind) :
    phone.count (generatesIdentity kind) freshDevice events =
      phone.count (losesIdentity kind) freshDevice events +
        ((phone.run freshDevice events).answers kind).present.toNat := by
  have hpresent : ∀ pair, (Answers.of pair).present = pair.isSome := fun _ => rfl
  have hrefines : phone.Refines pairPhone KeepsPairs (fun e => some (id e))
    (fun _ report made => generatedIn report = made) := phone_refines
  have hbalance := Mealy.count_balance (M := pairPhone) (I := WriteOnce)
    (f := fun pairs => (pairs.memory kind).isSome.toNat)
    (P := fun pairs e => ((pairPhone.out pairs e) kind).isSome)
    (Q := fun pairs e => e.isDie && (pairs.memory kind).isSome && !(pairs.disk kind).isSome)
    pairPhone_writeOnce (fun pairs e h => pairPhone_balance h kind e) (.load Values.empty) events
  have hgenerates := hrefines.count_eq (P := generatesIdentity kind)
    (Q := fun pairs e => ((pairPhone.out pairs e) kind).isSome)
    (fun s pairs e h => by rw [generatesIdentity, phone_refines.answer h rfl]; rfl)
    keepsPairs_fresh events
  have hloses := hrefines.count_eq (P := losesIdentity kind)
    (Q := fun pairs e => e.isDie && (pairs.memory kind).isSome && !(pairs.disk kind).isSome)
    (fun s pairs e h => by
      rw [losesIdentity, h.answers, h.onDisk, hpresent, hpresent]
      rfl)
    keepsPairs_fresh events
  rw [List.map_id] at hgenerates hloses
  rw [hgenerates, hloses, (keepsPairs_run events).answers, hpresent]
  change _ = _ + ((pairPhone.run noPairs events).memory kind).isSome.toNat
  change ((pairPhone.run noPairs events).memory kind).isSome.toNat +
    pairPhone.count _ noPairs events = 0 + pairPhone.count _ noPairs events at hbalance
  omega

end CtAgentAndroid
