import CtAgentAndroid.KeyStoreIdentity

/-! # Launching the app

`MainActivity.onCreate`: a launch generates the identities that are missing, the
holder's first, and shows the public halves.  Either native call may throw
`UnsatisfiedLinkError`, which ends the `try` block where it stands and is shown
instead.

A launch only ever generates what is missing (`Ensured`), so over any sequence of
launches no identity is replaced, and a failed launch keeps what it stored before
it failed (`launches_keep_identities`).  To the store it is a run of at most two
calls (`Launched.as_calls`).  Permissions, the foreground service and
the view are left out: they do not touch the store.
-/
namespace CtAgentAndroid
open Automaton BatchMap

/-- `uniffi.ct_agent_android.HolderIdentity`. -/
structure HolderIdentity where
  publicHex : String
  privateHex : String
  deriving DecidableEq, Repr

/-- `uniffi.ct_agent_android.NoiseIdentity`. -/
structure NoiseIdentity where
  publicHex : String
  privateHex : String
  deriving DecidableEq, Repr

structure UnsatisfiedLinkError where
  message : Option String
  deriving DecidableEq, Repr

/-- What the two native calls come to in one launch, if they are made. -/
structure Launch where
  generateHolderIdentity : Except UnsatisfiedLinkError HolderIdentity
  generateNoiseIdentity : Except UnsatisfiedLinkError NoiseIdentity

namespace Launch

/-- The lambda passed to `generateAndStoreHolderIdentity`. -/
def holderPair (l : Launch) : Except UnsatisfiedLinkError HexKeypair :=
  l.generateHolderIdentity.map fun real => ⟨real.publicHex, real.privateHex⟩

/-- The lambda passed to `generateAndStoreNoiseIdentity`. -/
def noisePair (l : Launch) : Except UnsatisfiedLinkError HexKeypair :=
  l.generateNoiseIdentity.map fun real => ⟨real.publicHex, real.privateHex⟩

/-- The generations it may make of the store, in their order. -/
def calls (l : Launch) : List (IdentityCall UnsatisfiedLinkError) :=
  [.generateAndStore .holder l.holderPair, .generateAndStore .noise l.noisePair]

end Launch

/-- The pairs the native calls of a launch returned, and the text it shows. -/
structure LaunchReport where
  holder : Option HexKeypair
  noise : Option HexKeypair
  text : String
  deriving DecidableEq, Repr

def LaunchReport.generated (r : LaunchReport) : IdentityKind → Option HexKeypair
  | .holder => r.holder
  | .noise => r.noise

/-! ## `onCreate` -/

/-- A nullable string in a string template. -/
def interpolated (s : Option String) : String := s.getD "null"

/-- `?.take(16)`; hex is one character a `Char` in both languages. -/
def take16 (s : Option String) : Option String := s.map fun s => String.ofList (s.toList.take 16)

section OnCreate
variable {P : Type} [SharedPreferences P]

/-- `if (!identity.has…Identity()) identity.generateAndStore…Identity`, with what
the generation returned if it was called. -/
def ensureIdentity {ε : Type} (kind : IdentityKind) (present : Bool) (identity : KeyStoreIdentity P)
    (native : Except ε HexKeypair) : KeyStoreIdentity P × Except ε (Option HexKeypair) :=
  if !present then (keyStore P ε).step identity (.generateAndStore kind native)
  else (identity, .ok none)

/-- The `if` on `hasHolderIdentity()`. -/
def ensureHolderIdentity {ε : Type} (identity : KeyStoreIdentity P) :
    Except ε HexKeypair → KeyStoreIdentity P × Except ε (Option HexKeypair) :=
  ensureIdentity .holder identity.hasHolderIdentity identity

/-- The `if` on `hasNoiseIdentity()`. -/
def ensureNoiseIdentity {ε : Type} (identity : KeyStoreIdentity P) :
    Except ε HexKeypair → KeyStoreIdentity P × Except ε (Option HexKeypair) :=
  ensureIdentity .noise identity.hasNoiseIdentity identity

/-- The value of the `try` block. -/
def loadedStatus (identity : KeyStoreIdentity P) : String :=
  "Holder identity: " ++ interpolated (take16 identity.holderPublicHex) ++ "…\n" ++
    "Noise identity: " ++ interpolated (take16 identity.noisePublicHex) ++ "…\n" ++
    "(persisted via Android Keystore / EncryptedSharedPreferences)"

/-- The value of the `catch` block. -/
def notLoadedStatus (e : UnsatisfiedLinkError) : String :=
  "Native library not loaded (expected for now): " ++ interpolated e.message ++ "\n\n" ++
    "rust-core-debug.aar does not yet package the compiled .so libraries -- " ++
    "see README.md's known-gaps section (mozilla/rust-android-gradle#43)."

/-- What the `TextView` shows. -/
def screenText (status : String) : String :=
  "CADS-webconference-android — scaffold, no call UI yet\n\n" ++ status

/-- `MainActivity.onCreate`. -/
def onCreate (identity : KeyStoreIdentity P) (launch : Launch) :
    KeyStoreIdentity P × LaunchReport :=
  match ensureHolderIdentity identity launch.holderPair with
  | (identity, .error e) => (identity, ⟨none, none, screenText (notLoadedStatus e)⟩)
  | (identity, .ok holder) =>
    match ensureNoiseIdentity identity launch.noisePair with
    | (identity, .error e) => (identity, ⟨holder, none, screenText (notLoadedStatus e)⟩)
    | (identity, .ok noise) => (identity, ⟨holder, noise, screenText (loadedStatus identity)⟩)

variable (P) in
/-- Launch after launch on one store. -/
def mainActivity : Mealy (KeyStoreIdentity P) Launch LaunchReport where
  step := onCreate

/-! ## What a launch can do -/

/-- What the code for one kind of identity can do: nothing, if there is one; else
generate it, or throw. -/
inductive Ensured {ε : Type} (kind : IdentityKind) (native : Except ε HexKeypair)
    (s : KeyStoreIdentity P) : KeyStoreIdentity P → Except ε (Option HexKeypair) → Prop
  | present (there : (s.answers kind).present = true) : Ensured kind native s s (.ok none)
  | generated (pair : HexKeypair) (missing : (s.answers kind).present = false)
      (returned : native = .ok pair) :
      Ensured kind native s ((keyStore P ε).next s (.generateAndStore kind (.ok pair)))
        (.ok (some pair))
  | threw (e : ε) (missing : (s.answers kind).present = false) (thrown : native = .error e) :
      Ensured kind native s s (.error e)

theorem ensureIdentity_ensured {ε : Type} (kind : IdentityKind) (s : KeyStoreIdentity P)
    (native : Except ε HexKeypair) :
    Ensured kind native s (ensureIdentity kind (s.answers kind).present s native).1
      (ensureIdentity kind (s.answers kind).present s native).2 := by
  unfold ensureIdentity
  cases h : (s.answers kind).present with
  | true => exact .present h
  | false =>
    rcases native with e | pair
    · have hstep : (keyStore P ε).step s (.generateAndStore kind (.error e)) = (s, .error e) := by
        cases kind <;> rfl
      rw [Bool.not_false, if_pos rfl, hstep]
      exact .threw e h rfl
    · have hout : ((keyStore P ε).step s (.generateAndStore kind (.ok pair))).2 =
          .ok (some pair) := by
        cases kind <;> rfl
      rw [Bool.not_false, if_pos rfl, hout]
      exact .generated pair h rfl

/-- What a launch can do: throw at the first identity, throw at the second, or
run to its end. -/
inductive Launched (l : Launch) (s : KeyStoreIdentity P) : KeyStoreIdentity P → LaunchReport → Prop
  | holderThrew {t e} (holder : Ensured .holder l.holderPair s t (.error e)) :
      Launched l s t ⟨none, none, screenText (notLoadedStatus e)⟩
  | noiseThrew {t u h e} (holder : Ensured .holder l.holderPair s t (.ok h))
      (noise : Ensured .noise l.noisePair t u (.error e)) :
      Launched l s u ⟨h, none, screenText (notLoadedStatus e)⟩
  | finished {t u h n} (holder : Ensured .holder l.holderPair s t (.ok h))
      (noise : Ensured .noise l.noisePair t u (.ok n)) :
      Launched l s u ⟨h, n, screenText (loadedStatus u)⟩

theorem mainActivity_launched (s : KeyStoreIdentity P) (l : Launch) :
    Launched l s ((mainActivity P).next s l) ((mainActivity P).out s l) := by
  have hholder : Ensured .holder l.holderPair s (ensureHolderIdentity s l.holderPair).1
      (ensureHolderIdentity s l.holderPair).2 := ensureIdentity_ensured .holder s _
  rw [Mealy.next, Mealy.out, mainActivity]
  show Launched l s (onCreate s l).1 (onCreate s l).2
  unfold onCreate
  rcases hh : ensureHolderIdentity s l.holderPair with ⟨t, e | h⟩
  · rw [hh] at hholder
    exact .holderThrew hholder
  · rw [hh] at hholder
    have hnoise : Ensured .noise l.noisePair t (ensureNoiseIdentity t l.noisePair).1
        (ensureNoiseIdentity t l.noisePair).2 := ensureIdentity_ensured .noise t _
    rcases hn : ensureNoiseIdentity t l.noisePair with ⟨u, e | n⟩
    · rw [hn] at hnoise
      simp only [hn]
      exact .noiseThrew hholder hnoise
    · rw [hn] at hnoise
      simp only [hn]
      exact .finished hholder hnoise

end OnCreate

/-! ## Over the values in memory -/

section InMemory
variable {ε : Type} {s t : KeyStoreIdentity (Values String String)} {kind : IdentityKind}
  {native : Except ε HexKeypair} {r : Except ε (Option HexKeypair)}

/-- An identity that is there stays as it is. -/
theorem Ensured.keeps (h : Ensured kind native s t r) {k : IdentityKind}
    (hk : (s.answers k).present = true) : t.answers k = s.answers k := by
  cases h with
  | present there => rfl
  | threw e missing thrown => rfl
  | generated pair missing returned =>
    refine answers_next_of_ne (fun hkind => ?_) s
    rw [← hkind] at hk
    exact Bool.false_ne_true (missing.symm.trans hk)

/-- The other identity is not touched. -/
theorem Ensured.frame (h : Ensured kind native s t r) {k : IdentityKind} (hk : kind ≠ k) :
    t.answers k = s.answers k := by
  cases h with
  | present there => rfl
  | generated pair missing returned =>
    exact answers_next_of_ne (c := .generateAndStore kind (.ok pair)) hk s
  | threw e missing thrown => rfl

/-- What is generated was missing, and is there afterwards. -/
theorem Ensured.of_generated {pair : HexKeypair} (h : Ensured kind native s t (.ok (some pair))) :
    (s.answers kind).present = false ∧ t.answers kind = .of (some pair) := by
  cases h with
  | generated _ missing returned => exact ⟨missing, answers_next_generated s kind pair⟩

/-- It is at most one call on the store. -/
theorem Ensured.as_calls (h : Ensured kind native s t r) :
    ∃ calls : List (IdentityCall ε), t = (keyStore _ ε).run s calls ∧
      ∀ c ∈ calls, c = .generateAndStore kind native := by
  cases h with
  | present there => exact ⟨[], rfl, by simp⟩
  | generated pair missing returned =>
    subst returned
    exact ⟨[.generateAndStore kind (.ok pair)], rfl, fun c hc => List.mem_singleton.mp hc⟩
  | threw e missing thrown => exact ⟨[], rfl, by simp⟩

theorem Ensured.of_present (h : Ensured kind native s t r)
    (there : (s.answers kind).present = true) : t = s := by
  cases h with
  | present _ => rfl
  | generated pair missing returned => exact absurd (missing.symm.trans there) Bool.false_ne_true
  | threw e missing thrown => rfl

/-- Where a generation throws, nothing is stored. -/
theorem Ensured.of_throws {e : ε} (h : Ensured kind native s t r)
    (missing : (s.answers kind).present = false) (thrown : native = .error e) :
    t = s ∧ r = .error e := by
  subst thrown
  cases h with
  | present there => exact absurd (missing.symm.trans there) Bool.false_ne_true
  | generated pair _ returned => cases returned
  | threw e' _ thrown =>
    obtain rfl := Except.error.inj thrown
    exact ⟨rfl, rfl⟩

/-- Where one returns, its pair is stored. -/
theorem Ensured.of_returns {pair : HexKeypair} (h : Ensured kind native s t r)
    (missing : (s.answers kind).present = false) (returned : native = .ok pair) :
    t.answers kind = .of (some pair) ∧ r = .ok (some pair) := by
  subst returned
  cases h with
  | present there => exact absurd (missing.symm.trans there) Bool.false_ne_true
  | generated pair' _ returned =>
    obtain rfl := Except.ok.inj returned
    exact ⟨answers_next_generated s kind pair, rfl⟩
  | threw e _ thrown => cases thrown

/-- What the code for each identity keeps, a launch keeps. -/
theorem Launched.preserves {I : KeyStoreIdentity (Values String String) → Prop}
    (keep : ∀ {kind s t r} {native : Except UnsatisfiedLinkError HexKeypair},
      Ensured kind native s t r → I s → I t)
    {l : Launch} {report : LaunchReport} (h : Launched l s t report) (hs : I s) : I t := by
  cases h with
  | holderThrew holder => exact keep holder hs
  | noiseThrew holder noise => exact keep noise (keep holder hs)
  | finished holder noise => exact keep noise (keep holder hs)

/-- A launch keeps what it finds. -/
theorem Launched.keeps {l : Launch} {report : LaunchReport} (h : Launched l s t report)
    {k : IdentityKind} (hk : (s.answers k).present = true) : t.answers k = s.answers k :=
  h.preserves (I := fun u => u.answers k = s.answers k)
    (fun hstep hu => (hstep.keeps (hu ▸ hk)).trans hu) rfl

/-- **A launch is a run of calls on the store**, of those it may make. -/
theorem Launched.as_calls {l : Launch} {report : LaunchReport} (h : Launched l s t report) :
    ∃ calls, t = (keyStore _ _).run s calls ∧ ∀ c ∈ calls, c ∈ l.calls := by
  have hboth {u} {r r' : Except UnsatisfiedLinkError (Option HexKeypair)}
      (holder : Ensured .holder l.holderPair s u r) (noise : Ensured .noise l.noisePair u t r') :
      ∃ calls, t = (keyStore _ _).run s calls ∧ ∀ c ∈ calls, c ∈ l.calls := by
    obtain ⟨first, rfl, hfirst⟩ := holder.as_calls
    obtain ⟨second, rfl, hsecond⟩ := noise.as_calls
    refine ⟨first ++ second, by rw [Mealy.run_append], fun c hc => ?_⟩
    rcases List.mem_append.mp hc with hc | hc
    · rw [hfirst c hc]
      exact List.mem_cons_self
    · rw [hsecond c hc]
      exact List.mem_cons_of_mem _ List.mem_cons_self
  cases h with
  | holderThrew holder =>
    obtain ⟨calls, ht, hcalls⟩ := holder.as_calls
    refine ⟨calls, ht, fun c hc => ?_⟩
    rw [hcalls c hc]
    exact List.mem_cons_self
  | noiseThrew holder noise => exact hboth holder noise
  | finished holder noise => exact hboth holder noise

/-- A pair generated in a launch was missing before it and is there after it. -/
theorem Launched.of_generated {l : Launch} {report : LaunchReport} (h : Launched l s t report)
    {k : IdentityKind} {pair : HexKeypair} (hk : report.generated k = some pair) :
    (s.answers k).present = false ∧ t.answers k = .of (some pair) := by
  cases h with
  | holderThrew holder => cases k <;> cases hk
  | noiseThrew holder noise =>
    cases k with
    | noise => cases hk
    | holder =>
      obtain rfl : _ = some pair := hk
      obtain ⟨hmissing, hmid⟩ := holder.of_generated
      rw [noise.frame (by decide), hmid]
      exact ⟨hmissing, rfl⟩
  | finished holder noise =>
    cases k with
    | noise =>
      obtain rfl : _ = some pair := hk
      obtain ⟨hmissing, hafter⟩ := noise.of_generated
      rw [holder.frame (by decide)] at hmissing
      exact ⟨hmissing, hafter⟩
    | holder =>
      obtain rfl : _ = some pair := hk
      obtain ⟨hmissing, hmid⟩ := holder.of_generated
      rw [noise.frame (by decide), hmid]
      exact ⟨hmissing, rfl⟩

/-- A launch whose holder generation throws stores nothing. -/
theorem Launched.of_holder_throws {l : Launch} {report : LaunchReport} {e : UnsatisfiedLinkError}
    (h : Launched l s t report) (missing : (s.answers .holder).present = false)
    (thrown : l.generateHolderIdentity = .error e) : t = s := by
  have hpair : l.holderPair = .error e := congrArg (Except.map _) thrown
  cases h with
  | holderThrew holder => exact (holder.of_throws missing hpair).1
  | noiseThrew holder noise => cases (holder.of_throws missing hpair).2
  | finished holder noise => cases (holder.of_throws missing hpair).2

/-- A launch whose noise generation throws stores what the code for the holder
does. -/
theorem Launched.of_noise_throws {l : Launch} {report : LaunchReport} {e : UnsatisfiedLinkError}
    (h : Launched l s t report) (missing : (s.answers .noise).present = false)
    (thrown : l.generateNoiseIdentity = .error e) :
    ∃ r, Ensured .holder l.holderPair s t r := by
  have hpair : l.noisePair = .error e := congrArg (Except.map _) thrown
  cases h with
  | holderThrew holder => exact ⟨_, holder⟩
  | noiseThrew holder noise =>
    rw [← holder.frame (k := .noise) (by decide)] at missing
    rw [(noise.of_throws missing hpair).1]
    exact ⟨_, holder⟩
  | finished holder noise =>
    rw [← holder.frame (k := .noise) (by decide)] at missing
    cases (noise.of_throws missing hpair).2

/-- Launches on one store. -/
abbrev launches : Mealy (KeyStoreIdentity (Values String String)) Launch LaunchReport :=
  mainActivity (Values String String)

theorem launches_keep (s : KeyStoreIdentity (Values String String)) {k : IdentityKind}
    (hk : (s.answers k).present = true) (ls : List Launch) :
    (launches.run s ls).answers k = s.answers k := by
  have hkeep : launches.Preserves fun t => t.answers k = s.answers k := by
    intro t l ht
    exact ((mainActivity_launched t l).keeps (ht ▸ hk)).trans ht
  exact hkeep.run rfl ls

theorem launches_generate_once (k : IdentityKind) (s : KeyStoreIdentity (Values String String))
    (ls : List Launch) :
    launches.count (fun s l => ((launches.out s l).generated k).isSome) s ls ≤ 1 := by
  refine Mealy.count_le_one (I := fun _ => True) (L := fun s => (s.answers k).present)
    (fun _ _ _ => trivial) (fun s l hk => ?_) (fun s l _ hP => ?_) trivial ls
  · rw [(mainActivity_launched s l).keeps hk]
    exact hk
  · obtain ⟨pair, hpair⟩ := Option.isSome_iff_exists.mp hP
    obtain ⟨hmissing, hafter⟩ := (mainActivity_launched s l).of_generated hpair
    exact ⟨hmissing, congrArg Answers.present hafter⟩

/-- So is any number of launches. -/
theorem launches_as_calls (s : KeyStoreIdentity (Values String String)) (ls : List Launch) :
    ∃ calls, launches.run s ls = (keyStore _ _).run s calls ∧
      ∀ c ∈ calls, ∃ l ∈ ls, c ∈ l.calls := by
  induction ls generalizing s with
  | nil => exact ⟨[], rfl, by simp⟩
  | cons l ls ih =>
    obtain ⟨first, hfirst, hmem⟩ := (mainActivity_launched s l).as_calls
    obtain ⟨rest, hrest, hmem'⟩ := ih (launches.next s l)
    refine ⟨first ++ rest, ?_, fun c hc => ?_⟩
    · rw [Mealy.run_cons, hrest, hfirst, Mealy.run_append]
    · rcases List.mem_append.mp hc with hc | hc
      · exact ⟨l, List.mem_cons_self, hmem c hc⟩
      · obtain ⟨l', hl', hc⟩ := hmem' c hc
        exact ⟨l', List.mem_cons_of_mem _ hl', hc⟩

/-- The pairs stay whole. -/
theorem launches_whole (ls : List Launch) : ∃ m, Holds (launches.run emptyStore ls) m := by
  obtain ⟨calls, hrun, -⟩ := launches_as_calls emptyStore ls
  rw [hrun]
  exact ⟨_, represents_run holds_empty calls⟩

/-- **Launching never replaces an identity.**  After any launches on an empty
store: both identities are whole pairs or absent; one that is there is not
changed by any later launches, and each was generated at most once; a launch whose
holder generation throws leaves the store as it was; and one whose noise
generation throws leaves the pairs there were before it, with the holder pair if
this launch generated one. -/
theorem launches_keep_identities (ls : List Launch) :
    let s := launches.run emptyStore ls
    (∀ k, ∃ pair, s.answers k = .of pair) ∧
      (∀ k pair, s.answers k = .of (some pair) →
        ∀ later, (launches.run s later).answers k = .of (some pair)) ∧
      (∀ k, launches.count (fun s l => ((launches.out s l).generated k).isSome) emptyStore ls ≤ 1) ∧
      (∀ l e, (s.answers .holder).present = false → l.generateHolderIdentity = .error e →
        launches.next s l = s) ∧
      ∀ l e, (s.answers .noise).present = false → l.generateNoiseIdentity = .error e →
        ((s.answers .holder).present = true → launches.next s l = s) ∧
        ∀ real, (s.answers .holder).present = false → l.generateHolderIdentity = .ok real →
          (launches.next s l).answers .holder = .of (some ⟨real.publicHex, real.privateHex⟩) ∧
            (launches.next s l).answers .noise = s.answers .noise := by
  intro s
  refine ⟨fun k => ?_, fun k pair hk later => ?_, fun k => launches_generate_once k _ ls,
    fun l e missing thrown => (mainActivity_launched s l).of_holder_throws missing thrown,
    fun l e missing thrown => ?_⟩
  · obtain ⟨m, hm⟩ := launches_whole ls
    exact ⟨m k, hm.answers k⟩
  · rw [launches_keep s (congrArg Answers.present hk) later, hk]
  · obtain ⟨r, holder⟩ := (mainActivity_launched s l).of_noise_throws missing thrown
    refine ⟨holder.of_present, fun real hmissing hreturned => ?_⟩
    have hpair : l.holderPair = .ok ⟨real.publicHex, real.privateHex⟩ :=
      congrArg (Except.map _) hreturned
    exact ⟨(holder.of_returns hmissing hpair).1, holder.frame (by decide)⟩

end InMemory
end CtAgentAndroid
