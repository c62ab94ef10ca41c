import CtAgentAndroid.DeviceLaunches

/-! # What a launch shows

The text of a launch is about the store it leaves behind.  It names both identities
by what the store answers of them, or says why the native library was not there for
one that is missing; and with both identities on disk, it is the same for all
launches to come, with the native library or without (`launch_shows`).
-/
namespace CtAgentAndroid
open Automaton BatchMap WriteBehind

/-- The native call of a launch for one kind. -/
def Launch.native (l : Launch) : IdentityKind → Except UnsatisfiedLinkError HexKeypair
  | .holder => l.holderPair
  | .noise => l.noisePair

/-- The text for two identities. -/
def identitiesText (holder noise : HexKeypair) : String :=
  screenText ("Holder identity: " ++ String.ofList (holder.publicHex.toList.take 16) ++ "…\n" ++
    "Noise identity: " ++ String.ofList (noise.publicHex.toList.take 16) ++ "…\n" ++
    "(persisted via Android Keystore / EncryptedSharedPreferences)")

section Text
variable {s t : KeyStoreIdentity LaggingPrefs} {pairs : PairStore} {kind : IdentityKind}
  {native : Except UnsatisfiedLinkError HexKeypair}

theorem interpolated_take16 (publicHex : String) :
    interpolated (take16 (some publicHex)) = String.ofList (publicHex.toList.take 16) := rfl

theorem loadedStatus_eq {holder noise : HexKeypair}
    (hholder : s.answers .holder = .of (some holder))
    (hnoise : s.answers .noise = .of (some noise)) :
    screenText (loadedStatus s) = identitiesText holder noise := by
  have hholderHex : s.holderPublicHex = some holder.publicHex := congrArg Answers.publicHex hholder
  have hnoiseHex : s.noisePublicHex = some noise.publicHex := congrArg Answers.publicHex hnoise
  unfold loadedStatus identitiesText
  rw [hholderHex, hnoiseHex, interpolated_take16, interpolated_take16]

/-- A pair that is missing is answered as missing. -/
theorem KeepsPairs.answers_missing (h : KeepsPairs s pairs)
    (missing : (s.answers kind).present = false) : s.answers kind = .of none := by
  rw [h.answers] at missing ⊢
  rw [Option.not_isSome_iff_eq_none.mp (ne_true_of_eq_false missing)]

/-- After the code for one kind, its pair is there, and the other is as it was. -/
theorem KeepsPairs.ensured_ok (h : KeepsPairs s pairs) {made : Option HexKeypair}
    (he : Ensured kind native s t (.ok made)) :
    ∃ pairs', KeepsPairs t pairs' ∧ (∃ pair, pairs'.memory kind = some pair) ∧
      ∀ k, kind ≠ k → pairs'.memory k = pairs.memory k := by
  cases he with
  | present there =>
    rw [h.answers] at there
    exact ⟨pairs, h, Option.isSome_iff_exists.mp there, fun _ _ => rfl⟩
  | generated pair missing returned =>
    exact ⟨_, h.generated kind pair, ⟨pair, memory_put_self pairs kind pair⟩,
      fun k hk => memory_put_of_ne hk pairs pair⟩

/-- **What one launch shows.** -/
theorem KeepsPairs.launch_text (h : KeepsPairs s pairs) {l : Launch} {report : LaunchReport}
    (hl : Launched l s t report) :
    (∃ holder noise, t.answers .holder = .of (some holder) ∧
        t.answers .noise = .of (some noise) ∧ report.text = identitiesText holder noise) ∨
      ∃ kind e, t.answers kind = .of none ∧ l.native kind = .error e ∧
        report.text = screenText (notLoadedStatus e) := by
  cases hl with
  | holderThrew holder =>
    cases holder with
    | threw e missing thrown => exact .inr ⟨.holder, _, h.answers_missing missing, thrown, rfl⟩
  | noiseThrew holder noise =>
    obtain ⟨pairs', hkeeps, -, -⟩ := h.ensured_ok holder
    cases noise with
    | threw e missing thrown =>
      exact .inr ⟨.noise, _, KeepsPairs.answers_missing hkeeps missing, thrown, rfl⟩
  | finished holder noise =>
    obtain ⟨pairs', hkeeps, ⟨a, ha⟩, -⟩ := h.ensured_ok holder
    obtain ⟨pairs'', hkeeps', ⟨b, hb⟩, hframe⟩ := KeepsPairs.ensured_ok hkeeps noise
    have hholder : t.answers .holder = .of (some a) := by
      rw [KeepsPairs.answers hkeeps', hframe .holder (by decide), ha]
    have hnoise : t.answers .noise = .of (some b) := by
      rw [KeepsPairs.answers hkeeps', hb]
    exact .inl ⟨a, b, hholder, hnoise, loadedStatus_eq hholder hnoise⟩

/-- The code for one kind does nothing about an identity that is there. -/
theorem Ensured.skipped {made : Except UnsatisfiedLinkError (Option HexKeypair)}
    (he : Ensured kind native s t made) (there : (s.answers kind).present = true) :
    t = s ∧ made = .ok none := by
  cases he with
  | present _ => exact ⟨rfl, rfl⟩
  | generated pair missing returned => exact absurd there (ne_true_of_eq_false missing)
  | threw e missing thrown => exact absurd there (ne_true_of_eq_false missing)

/-- With both identities there, a launch generates nothing and does not throw. -/
theorem Launched.of_both_present {l : Launch} {report : LaunchReport} (hl : Launched l s t report)
    (hholder : (s.answers .holder).present = true) (hnoise : (s.answers .noise).present = true) :
    report = ⟨none, none, screenText (loadedStatus s)⟩ := by
  cases hl with
  | holderThrew holder => cases (holder.skipped hholder).2
  | noiseThrew holder noise =>
    obtain ⟨rfl, -⟩ := holder.skipped hholder
    cases (noise.skipped hnoise).2
  | finished holder noise =>
    obtain ⟨rfl, hok⟩ := holder.skipped hholder
    cases hok
    obtain ⟨rfl, hok⟩ := noise.skipped hnoise
    cases hok
    rfl

end Text

/-- **What a launch shows.**  After any launches, writes and deaths, a launch names
the two identities that the store then has, or says why the library was not loaded
for one that is then missing.  And once both are on disk, every later launch
generates nothing and shows the same text, whatever its native calls would do. -/
theorem launch_shows (events : List PhoneEvent) :
    let s := phone.run freshDevice events
    (∀ l, ∃ report, phone.out s (.launch l) = some report ∧
      ((∃ holder noise, (phone.next s (.launch l)).answers .holder = .of (some holder) ∧
          (phone.next s (.launch l)).answers .noise = .of (some noise) ∧
          report.text = identitiesText holder noise) ∨
        ∃ kind e, (phone.next s (.launch l)).answers kind = .of none ∧
          l.native kind = .error e ∧ report.text = screenText (notLoadedStatus e))) ∧
      ∀ holder noise, s.onDisk.answers .holder = .of (some holder) →
        s.onDisk.answers .noise = .of (some noise) → ∀ later l,
          phone.out (phone.run s later) (.launch l) =
            some ⟨none, none, identitiesText holder noise⟩ := by
  intro s
  refine ⟨fun l => ⟨_, rfl, ?_⟩, fun holder noise hholder hnoise later l => ?_⟩
  · exact KeepsPairs.launch_text (keepsPairs_run events) (mainActivity_launched s l)
  · have hholder := (onDisk_stays hholder later).2
    have hnoise := (onDisk_stays hnoise later).2
    have hreport := (mainActivity_launched (phone.run s later) l).of_both_present
      (by rw [hholder]; rfl) (by rw [hnoise]; rfl)
    rw [loadedStatus_eq hholder hnoise] at hreport
    exact congrArg some hreport

end CtAgentAndroid
