import CtAgentAndroid.Automaton
import CtAgentAndroid.BatchMap

/-! # `KeyStoreIdentity`

The identity store of `KeyStoreIdentity.kt`: four string preferences, two for
each of the holder and the noise identity.  Presence is tested on the private
half alone, and the halves are separate keys; but every call writes or removes
both in one batch, so the four keys are two optional pairs
(`represents_run`), each what the last completed call on it left
(`keyStore_two_pairs`).

The class is written against what it uses of `SharedPreferences`, so that the
same methods run over a plain map here and over memory and disk where a process
can die.
-/
namespace CtAgentAndroid
open Automaton BatchMap

/-- What the class uses of `SharedPreferences`; `apply` is `edit()`, a batch of
`putString` and `remove`, and `apply()`. -/
class SharedPreferences (P : Type) where
  contains : P → String → Bool
  getString : P → String → Option String
  apply : P → List (Edit String String) → P

/-- The preferences as the values in memory. -/
instance : SharedPreferences (Values String String) where
  contains p key := (p key).isSome
  getString p key := p key
  apply := Values.apply

/-- `HexKeypair`. -/
structure HexKeypair where
  publicHex : String
  privateHex : String
  deriving DecidableEq, Repr

def KEY_HOLDER_PUBLIC : String := "holder_public_hex"
def KEY_HOLDER_PRIVATE : String := "holder_private_hex"
def KEY_NOISE_PUBLIC : String := "noise_public_hex"
def KEY_NOISE_PRIVATE : String := "noise_private_hex"

/-- `KeyStoreIdentity`. -/
structure KeyStoreIdentity (P : Type) where
  prefs : P

/-! ## Methods -/

namespace KeyStoreIdentity
variable {P ε : Type} [SharedPreferences P]

/-- `hasHolderIdentity`. -/
def hasHolderIdentity (self : KeyStoreIdentity P) : Bool :=
  SharedPreferences.contains self.prefs KEY_HOLDER_PRIVATE

/-- `hasNoiseIdentity`. -/
def hasNoiseIdentity (self : KeyStoreIdentity P) : Bool :=
  SharedPreferences.contains self.prefs KEY_NOISE_PRIVATE

/-- The body of the two `generateAndStore…Identity`: an exception of `generate`
leaves before the preferences are touched. -/
def generateAndStore (publicKey privateKey : String) (self : KeyStoreIdentity P)
    (generate : Except ε HexKeypair) : KeyStoreIdentity P × Except ε HexKeypair :=
  match generate with
  | .error e => (self, .error e)
  | .ok identity =>
    (⟨SharedPreferences.apply self.prefs
      [.put publicKey identity.publicHex, .put privateKey identity.privateHex]⟩, .ok identity)

/-- `generateAndStoreHolderIdentity`. -/
def generateAndStoreHolderIdentity :
    KeyStoreIdentity P → Except ε HexKeypair → KeyStoreIdentity P × Except ε HexKeypair :=
  generateAndStore KEY_HOLDER_PUBLIC KEY_HOLDER_PRIVATE

/-- `generateAndStoreNoiseIdentity`. -/
def generateAndStoreNoiseIdentity :
    KeyStoreIdentity P → Except ε HexKeypair → KeyStoreIdentity P × Except ε HexKeypair :=
  generateAndStore KEY_NOISE_PUBLIC KEY_NOISE_PRIVATE

/-- `holderPublicHex`. -/
def holderPublicHex (self : KeyStoreIdentity P) : Option String :=
  SharedPreferences.getString self.prefs KEY_HOLDER_PUBLIC

/-- `holderPrivateHex`. -/
def holderPrivateHex (self : KeyStoreIdentity P) : Option String :=
  SharedPreferences.getString self.prefs KEY_HOLDER_PRIVATE

/-- `noisePublicHex`. -/
def noisePublicHex (self : KeyStoreIdentity P) : Option String :=
  SharedPreferences.getString self.prefs KEY_NOISE_PUBLIC

/-- `noisePrivateHex`. -/
def noisePrivateHex (self : KeyStoreIdentity P) : Option String :=
  SharedPreferences.getString self.prefs KEY_NOISE_PRIVATE

/-- The body of the two `forget…Identity`. -/
def forget (publicKey privateKey : String) (self : KeyStoreIdentity P) : KeyStoreIdentity P :=
  ⟨SharedPreferences.apply self.prefs [.remove publicKey, .remove privateKey]⟩

/-- `forgetHolderIdentity`. -/
def forgetHolderIdentity : KeyStoreIdentity P → KeyStoreIdentity P :=
  forget KEY_HOLDER_PUBLIC KEY_HOLDER_PRIVATE

/-- `forgetNoiseIdentity`. -/
def forgetNoiseIdentity : KeyStoreIdentity P → KeyStoreIdentity P :=
  forget KEY_NOISE_PUBLIC KEY_NOISE_PRIVATE

end KeyStoreIdentity

/-! ## The two kinds of identity -/

inductive IdentityKind where
  | holder
  | noise
  deriving DecidableEq, Repr

/-- What the store answers about one kind of identity. -/
structure Answers where
  present : Bool
  publicHex : Option String
  privateHex : Option String
  deriving DecidableEq, Repr

/-- The answers about an optional pair. -/
def Answers.of (pair : Option HexKeypair) : Answers :=
  ⟨pair.isSome, pair.map (·.publicHex), pair.map (·.privateHex)⟩

/-- The answers tell which pair it is. -/
theorem Answers.of_injective : Function.Injective Answers.of := by
  rintro (- | ⟨a, b⟩) (- | ⟨c, d⟩) h
  · rfl
  · cases h
  · cases h
  · obtain ⟨rfl, rfl⟩ : a = c ∧ b = d := by simpa [Answers.of] using h
    rfl

/-- A call on the store; `generated` is what the generation hands back. -/
inductive IdentityCall (ε : Type) where
  | generateAndStore (kind : IdentityKind) (generated : Except ε HexKeypair)
  | forget (kind : IdentityKind)

namespace IdentityCall
variable {ε : Type}

def kind : IdentityCall ε → IdentityKind
  | generateAndStore kind _ => kind
  | forget kind => kind

/-- It does not throw. -/
def completes : IdentityCall ε → Bool
  | generateAndStore _ (.error _) => false
  | _ => true

/-- The pair it generates. -/
def pair : IdentityCall ε → Option HexKeypair
  | generateAndStore _ (.ok pair) => some pair
  | _ => none

/-- What the call does to the pairs, if it completes. -/
def change : IdentityCall ε → Option (Edit IdentityKind HexKeypair)
  | generateAndStore kind (.ok pair) => some (.put kind pair)
  | generateAndStore _ (.error _) => none
  | forget kind => some (.remove kind)

theorem key_of_change {c : IdentityCall ε} {e : Edit IdentityKind HexKeypair}
    (h : c.change = some e) : e.key = c.kind := by
  rcases c with ⟨kind, thrown | pair⟩ | kind
  · cases h
  · obtain rfl := Option.some.inj h
    rfl
  · obtain rfl := Option.some.inj h
    rfl

end IdentityCall

namespace KeyStoreIdentity
variable {P : Type} [SharedPreferences P]

/-- The three accessors of a kind. -/
def answers (self : KeyStoreIdentity P) : IdentityKind → Answers
  | .holder => ⟨self.hasHolderIdentity, self.holderPublicHex, self.holderPrivateHex⟩
  | .noise => ⟨self.hasNoiseIdentity, self.noisePublicHex, self.noisePrivateHex⟩

end KeyStoreIdentity

/-- The store as a machine; a call returns the pair it generated, if any. -/
def keyStore (P ε : Type) [SharedPreferences P] :
    Mealy (KeyStoreIdentity P) (IdentityCall ε) (Except ε (Option HexKeypair)) where
  step self
    | .generateAndStore .holder generated =>
      let (self, identity) := self.generateAndStoreHolderIdentity generated
      (self, some <$> identity)
    | .generateAndStore .noise generated =>
      let (self, identity) := self.generateAndStoreNoiseIdentity generated
      (self, some <$> identity)
    | .forget .holder => (self.forgetHolderIdentity, .ok none)
    | .forget .noise => (self.forgetNoiseIdentity, .ok none)

/-! ## Two optional pairs -/

inductive KeyHalf where
  | publicHalf
  | privateHalf
  deriving DecidableEq, Repr

/-- Where the halves of the two pairs are kept. -/
def identityLayout : Layout IdentityKind KeyHalf HexKeypair String String where
  fields := [.publicHalf, .privateHalf]
  complete f := by cases f <;> simp
  key
    | .holder, .publicHalf => KEY_HOLDER_PUBLIC
    | .holder, .privateHalf => KEY_HOLDER_PRIVATE
    | .noise, .publicHalf => KEY_NOISE_PUBLIC
    | .noise, .privateHalf => KEY_NOISE_PRIVATE
  key_injective := by
    intro k k' f f' h
    revert h
    cases k <;> cases k' <;> cases f <;> cases f' <;> decide
  read pair
    | .publicHalf => pair.publicHex
    | .privateHalf => pair.privateHex

/-- **A call is one batch**: that of the pair it sets or removes, or none if the
generation threw. -/
theorem keyStore_next {P ε : Type} [SharedPreferences P] (s : KeyStoreIdentity P)
    (c : IdentityCall ε) :
    (keyStore P ε).next s c = match c.change with
      | none => s
      | some e => ⟨SharedPreferences.apply s.prefs (identityLayout.batch e.key e.value)⟩ := by
  rcases c with ⟨kind, thrown | pair⟩ | kind
  · cases kind <;> rfl
  · cases kind <;> rfl
  · cases kind <;> rfl

/-! ## Over the values in memory -/

section InMemory
variable {ε : Type}

/-- The store holds exactly the pairs `m`. -/
def Holds (s : KeyStoreIdentity (Values String String)) (m : Values IdentityKind HexKeypair) :
    Prop := identityLayout.Represents m s.prefs

/-- The answers, read off the two keys of the kind. -/
theorem answers_eq (s : KeyStoreIdentity (Values String String)) (kind : IdentityKind) :
    s.answers kind =
      ⟨(s.prefs (identityLayout.key kind .privateHalf)).isSome,
        s.prefs (identityLayout.key kind .publicHalf),
        s.prefs (identityLayout.key kind .privateHalf)⟩ := by
  cases kind <;> rfl

/-- Stores with the same two keys of a kind answer alike. -/
theorem answers_congr {s t : KeyStoreIdentity (Values String String)} {kind : IdentityKind}
    (h : ∀ half, t.prefs (identityLayout.key kind half) = s.prefs (identityLayout.key kind half)) :
    t.answers kind = s.answers kind := by
  rw [answers_eq, answers_eq, h .publicHalf, h .privateHalf]

theorem answers_eq_of {s : KeyStoreIdentity (Values String String)} {kind : IdentityKind}
    {pair : Option HexKeypair}
    (h : ∀ half, s.prefs (identityLayout.key kind half) = pair.map (identityLayout.read · half)) :
    s.answers kind = .of pair := by
  rw [answers_eq, h .publicHalf, h .privateHalf, Option.isSome_map]
  rfl

theorem Holds.answers {s : KeyStoreIdentity (Values String String)}
    {m : Values IdentityKind HexKeypair} (h : Holds s m) (kind : IdentityKind) :
    s.answers kind = .of (m kind) := answers_eq_of (h kind)

/-- The answers tell which pairs are held. -/
theorem holds_iff (s : KeyStoreIdentity (Values String String))
    (m : Values IdentityKind HexKeypair) : Holds s m ↔ ∀ kind, s.answers kind = .of (m kind) := by
  constructor
  · exact fun h kind => h.answers kind
  · intro h kind half
    have hkind := h kind
    rw [answers_eq] at hkind
    rcases half with - | -
    · exact congrArg Answers.publicHex hkind
    · exact congrArg Answers.privateHex hkind

/-- The empty store. -/
def emptyStore : KeyStoreIdentity (Values String String) := ⟨Values.empty⟩

theorem holds_empty : Holds emptyStore Values.empty := Layout.represents_empty

/-- The pairs after a call: an edit of one of them, if the call completes. -/
theorem Holds.next {s : KeyStoreIdentity (Values String String)}
    {m : Values IdentityKind HexKeypair} (h : Holds s m) (c : IdentityCall ε) :
    Holds ((keyStore _ ε).next s c) (m.apply c.change.toList) := by
  rw [keyStore_next]
  cases hchange : c.change with
  | none => exact h
  | some e => exact h.set e.key e.value

/-- **The store refines two optional pairs.**  What it holds after a run is what
the edits of the completed calls make of the pairs. -/
theorem represents_run {s : KeyStoreIdentity (Values String String)}
    {m : Values IdentityKind HexKeypair} (h : Holds s m) (calls : List (IdentityCall ε)) :
    Holds ((keyStore _ ε).run s calls) (m.apply (calls.filterMap IdentityCall.change)) := by
  induction calls generalizing s m with
  | nil => exact h
  | cons c calls ih =>
    have hnext := ih (h.next c)
    cases hchange : c.change with
    | none =>
      rw [hchange] at hnext
      rw [List.filterMap_cons_none hchange]
      exact hnext
    | some e =>
      rw [hchange] at hnext
      rw [List.filterMap_cons_some hchange]
      exact hnext

/-- A call on the other kind is not seen. -/
theorem answers_next_of_ne {c : IdentityCall ε} {kind : IdentityKind} (h : c.kind ≠ kind)
    (s : KeyStoreIdentity (Values String String)) :
    ((keyStore _ ε).next s c).answers kind = s.answers kind := by
  rw [keyStore_next]
  cases hchange : c.change with
  | none => rfl
  | some e =>
    have hne : kind ≠ e.key := by
      rw [IdentityCall.key_of_change hchange]
      exact Ne.symm h
    exact answers_congr (Layout.apply_batch_of_ne hne s.prefs e.value)

/-- A generation stores its pair, whatever was there. -/
theorem answers_next_generated (s : KeyStoreIdentity (Values String String)) (kind : IdentityKind)
    (pair : HexKeypair) :
    ((keyStore _ ε).next s (.generateAndStore kind (.ok pair))).answers kind = .of (some pair) := by
  rw [keyStore_next]
  exact answers_eq_of (Layout.apply_batch_self s.prefs kind (some pair))

/-- The last completed call on a kind, if any. -/
def lastCompleted (kind : IdentityKind) (calls : List (IdentityCall ε)) : Option (IdentityCall ε) :=
  (calls.filter fun c => c.kind = kind ∧ c.completes = true).getLast?

/-- The pair it left: that of a generation, and none after `forget` or where no
call completed. -/
def lastPair (kind : IdentityKind) (calls : List (IdentityCall ε)) : Option HexKeypair :=
  (lastCompleted kind calls).bind IdentityCall.pair

theorem lastPair_concat (kind : IdentityKind) (calls : List (IdentityCall ε)) (c : IdentityCall ε) :
    lastPair kind (calls ++ [c]) =
      if c.kind = kind ∧ c.completes = true then c.pair else lastPair kind calls := by
  rw [lastPair, lastCompleted, List.filter_append]
  by_cases h : c.kind = kind ∧ c.completes = true
  · simp [h]
  · rw [List.filter_cons_of_neg (by simpa using h), List.filter_nil, List.append_nil, if_neg h]
    rfl

/-- The edits of the completed calls leave the pair of the last one. -/
theorem apply_changes (calls : List (IdentityCall ε)) (kind : IdentityKind) :
    Values.empty.apply (calls.filterMap IdentityCall.change) kind = lastPair kind calls := by
  induction calls using List.reverseRecOn with
  | nil => rfl
  | append_singleton calls c ih =>
    rw [lastPair_concat, List.filterMap_append, Values.apply_append, ← ih]
    rcases c with ⟨k, thrown | pair⟩ | k
    · rw [if_neg fun h => Bool.false_ne_true h.2]
      rfl
    · by_cases hk : k = kind
      · subst hk
        simp [IdentityCall.change, IdentityCall.kind, IdentityCall.completes, IdentityCall.pair,
          Values.edit, Edit.put]
      · simp [IdentityCall.change, IdentityCall.kind, hk, Values.edit, Edit.put, Ne.symm hk]
    · by_cases hk : k = kind
      · subst hk
        simp [IdentityCall.change, IdentityCall.kind, IdentityCall.completes, IdentityCall.pair,
          Values.edit, Edit.remove]
      · simp [IdentityCall.change, IdentityCall.kind, hk, Values.edit, Edit.remove, Ne.symm hk]

/-- There is a pair exactly when the last completed call is a generation. -/
theorem isSome_lastPair_iff (kind : IdentityKind) (calls : List (IdentityCall ε)) :
    (lastPair kind calls).isSome = true ↔
      ∃ pair, lastCompleted kind calls = some (.generateAndStore kind (.ok pair)) := by
  rw [lastPair]
  cases hlast : lastCompleted kind calls with
  | none => simp
  | some c =>
    have hmem := List.mem_of_getLast? hlast
    have hkind : c.kind = kind := (of_decide_eq_true (List.mem_filter.mp hmem).2).1
    subst hkind
    rcases c with ⟨k, thrown | pair⟩ | k
    · simp [IdentityCall.pair]
    · simp [IdentityCall.pair, IdentityCall.kind]
    · simp [IdentityCall.pair]

/-- The pair was returned by a generation of the run. -/
theorem mem_of_lastPair {kind : IdentityKind} {calls : List (IdentityCall ε)} {pair : HexKeypair}
    (h : lastPair kind calls = some pair) : .generateAndStore kind (.ok pair) ∈ calls := by
  obtain ⟨pair', hlast⟩ := (isSome_lastPair_iff kind calls).mp (by rw [h]; rfl)
  rw [lastPair, hlast] at h
  obtain rfl : pair' = pair := Option.some.inj h
  exact (List.mem_filter.mp (List.mem_of_getLast? hlast)).1

/-- **Two independent optional pairs.**  After any run of calls on an empty store
a kind of identity is there exactly when its last completed call is a generation,
and then with the two halves of the pair this returned, and otherwise with none;
a generation that throws leaves the store as it was; and a call on the other kind
changes none of the answers. -/
theorem keyStore_two_pairs (calls : List (IdentityCall ε)) (kind : IdentityKind) :
    let s := (keyStore _ ε).run emptyStore calls
    ((s.answers kind).present = true ↔
        ∃ pair, lastCompleted kind calls = some (.generateAndStore kind (.ok pair))) ∧
      s.answers kind = .of (lastPair kind calls) ∧
      (∀ k thrown, (keyStore _ ε).next s (.generateAndStore k (.error thrown)) = s) ∧
      ∀ c : IdentityCall ε, c.kind ≠ kind →
        ((keyStore _ ε).next s c).answers kind = s.answers kind := by
  intro s
  have hanswers : s.answers kind = .of (lastPair kind calls) := by
    rw [(represents_run holds_empty calls).answers kind, apply_changes]
  refine ⟨?_, hanswers, fun k thrown => keyStore_next s _, fun c hc => answers_next_of_ne hc s⟩
  rw [hanswers]
  exact isSome_lastPair_iff kind calls

end InMemory
end CtAgentAndroid
