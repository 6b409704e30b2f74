/-
What the power path of the Windows screen lock must answer.

The specification speaks of the sources that apply to the host and of their
triggers, the timeouts whose power state exists.  The code's early returns and
its list of candidates compute exactly that.
-/

import Mathlib.Data.List.ReduceOption
import Mathlib.Order.Bounds.Basic
import KlaayGuard.WindowsScreenLock

set_option autoImplicit false

namespace KlaayGuard

namespace PowerLockValues

variable (power : PowerLockValues)

def NoStates : Prop :=
  power.standbyAvailable = some false ∧ power.hibernateAvailable = some false ∧
    power.modernStandby = some false

/-- Mains applies to every host, battery to one that has a battery. -/
inductive Applies : PowerSource → Prop where
  | mains : Applies power.acSource
  | battery (present : power.hasBattery = some true) : Applies power.dcSource

/-- A timeout of the source whose power state exists. -/
inductive Trigger (source : PowerSource) : Option Nat → Prop where
  | standby (offered : power.standbyAvailable = some true ∨ power.modernStandby = some true) :
      Trigger source source.standby
  | hibernate (offered : power.hibernateAvailable = some true) : Trigger source source.hibernate
  | displayOff (offered : power.modernStandby = some true) : Trigger source source.displayOff

/-- Something the answer depends on could not be read. -/
def Unreadable : Prop :=
  power.standbyAvailable = none ∨ power.hibernateAvailable = none ∨
    power.modernStandby = none ∨ power.hasBattery = none ∨
    ∃ source, power.Applies source ∧ (source.lock = none ∨ power.Trigger source none)

/-- The source asks for the password, and something on it fires. -/
def LocksOn (source : PowerSource) : Prop :=
  source.lock = some true ∧ ∃ secs, 0 < secs ∧ power.Trigger source (some secs)

def Soonest (source : PowerSource) (secs : Nat) : Prop :=
  IsLeast {timeout | 0 < timeout ∧ power.Trigger source (some timeout)} secs

structure SourcesAgree (source other : PowerSource) : Prop where
  lock : other.lock = source.lock
  standby : power.standbyAvailable = some true ∨ power.modernStandby = some true →
    other.standby = source.standby
  hibernate : power.hibernateAvailable = some true → other.hibernate = source.hibernate
  displayOff : power.modernStandby = some true → other.displayOff = source.displayOff

/-- Two records agree on every value that applies to the host. -/
structure AgreeWhereApplies (other : PowerLockValues) : Prop where
  standbyAvailable : other.standbyAvailable = power.standbyAvailable
  hibernateAvailable : other.hibernateAvailable = power.hibernateAvailable
  modernStandby : other.modernStandby = power.modernStandby
  hasBattery : ¬ power.NoStates → other.hasBattery = power.hasBattery
  mains : ¬ power.NoStates → power.SourcesAgree power.acSource other.acSource
  battery : ¬ power.NoStates → power.hasBattery = some true →
    power.SourcesAgree power.dcSource other.dcSource

/-- The answer the specification gives. -/
structure Specified (verdict : LockVerdict) : Prop where
  noStates : power.NoStates → verdict.locks = some false
  unread : ¬ power.NoStates → (verdict.locks = none ↔ power.Unreadable)
  locks : ¬ power.NoStates → (verdict.locks = some true ↔
    ¬ power.Unreadable ∧ ∀ source, power.Applies source → power.LocksOn source)
  fails : ¬ power.NoStates → (verdict.locks = some false ↔
    ¬ power.Unreadable ∧ ∃ source, power.Applies source ∧ ¬ power.LocksOn source)
  delay : ¬ power.NoStates → verdict.locks = some true →
    ∃ delay, verdict.delaySeconds = some delay ∧
      IsGreatest {secs | ∃ source, power.Applies source ∧ power.Soonest source secs} delay

variable {power} {verdict : LockVerdict}

private theorem Specified.of_noStates (noStates : power.NoStates)
    (answer : verdict.locks = some false) : power.Specified verdict where
  noStates := fun _ => answer
  unread := fun offered => absurd noStates offered
  locks := fun offered => absurd noStates offered
  fails := fun offered => absurd noStates offered
  delay := fun offered => absurd noStates offered

private theorem Specified.of_unreadable (offered : ¬ power.NoStates) (unread : power.Unreadable)
    (answer : verdict.locks = none) : power.Specified verdict where
  noStates := fun noStates => absurd noStates offered
  unread := fun _ => ⟨fun _ => unread, fun _ => answer⟩
  locks := fun _ => by
    rw [answer]
    exact ⟨nofun, fun locks => absurd unread locks.1⟩
  fails := fun _ => by
    rw [answer]
    exact ⟨nofun, fun fails => absurd unread fails.1⟩
  delay := fun _ => by
    rw [answer]
    exact nofun

private theorem Specified.of_locks (offered : ¬ power.NoStates) (readable : ¬ power.Unreadable)
    (locks : ∀ source, power.Applies source → power.LocksOn source)
    (answer : verdict.locks = some true)
    (delay : ∃ delay, verdict.delaySeconds = some delay ∧
      IsGreatest {secs | ∃ source, power.Applies source ∧ power.Soonest source secs} delay) :
    power.Specified verdict where
  noStates := fun noStates => absurd noStates offered
  unread := fun _ => by
    rw [answer]
    exact ⟨nofun, fun unread => absurd unread readable⟩
  locks := fun _ => ⟨fun _ => ⟨readable, locks⟩, fun _ => answer⟩
  fails := fun _ => by
    rw [answer]
    refine ⟨nofun, ?_⟩
    rintro ⟨_, source, applies, fails⟩
    exact absurd (locks source applies) fails
  delay := fun _ _ => delay

private theorem Specified.of_fails (offered : ¬ power.NoStates) (readable : ¬ power.Unreadable)
    (fails : ∃ source, power.Applies source ∧ ¬ power.LocksOn source)
    (answer : verdict.locks = some false) : power.Specified verdict where
  noStates := fun noStates => absurd noStates offered
  unread := fun _ => by
    rw [answer]
    exact ⟨nofun, fun unread => absurd unread readable⟩
  locks := fun _ => by
    rw [answer]
    refine ⟨nofun, ?_⟩
    rintro ⟨_, locks⟩
    obtain ⟨source, applies, fails⟩ := fails
    exact absurd (locks source applies) fails
  fails := fun _ => ⟨fun _ => ⟨readable, fails⟩, fun _ => answer⟩
  delay := fun _ => by
    rw [answer]
    exact nofun

end PowerLockValues

variable {states : PowerStates} {sources : List PowerSource}

private def firstToFire (states : PowerStates) (source : PowerSource) : Option Nat :=
  ((candidates states source).reduceOption.filter (0 < ·)).min?

private theorem firstToFire_eq_some {source : PowerSource} {secs : Nat} :
    firstToFire states source = some secs ↔
      IsLeast {timeout | 0 < timeout ∧ some timeout ∈ candidates states source} secs := by
  rw [firstToFire, List.min?_eq_some_iff]
  simp only [List.mem_filter, List.reduceOption_mem_iff, decide_eq_true_eq, IsLeast, lowerBounds,
    Set.mem_ofPred_eq]
  constructor
  · rintro ⟨⟨listed, fires⟩, least⟩
    exact ⟨⟨fires, listed⟩, fun _ other => least _ ⟨other.2, other.1⟩⟩
  · rintro ⟨⟨fires, listed⟩, least⟩
    exact ⟨⟨listed, fires⟩, fun _ other => least ⟨other.2, other.1⟩⟩

private theorem firstToFire_eq_none {source : PowerSource} :
    firstToFire states source = none ↔
      ¬ ∃ secs, 0 < secs ∧ some secs ∈ candidates states source := by
  rw [firstToFire, List.min?_eq_none_iff, List.filter_eq_nil_iff]
  simp only [List.reduceOption_mem_iff, decide_eq_true_eq]
  constructor
  · rintro quiet ⟨secs, fires, listed⟩
    exact quiet secs listed fires
  · exact fun quiet secs listed fires => quiet ⟨secs, fires, listed⟩

private theorem judgeSources_locks (worst : List Nat)
    (locks : ∀ source ∈ sources, source.lock ≠ some false ∧ firstToFire states source ≠ none) :
    judgeSources states worst sources =
      .verdict true (worst ++ sources.filterMap (firstToFire states)).max? := by
  induction sources generalizing worst with
  | nil => rw [judgeSources, List.filterMap_nil, List.append_nil]
  | cons source sources ih =>
      obtain ⟨asks, fires⟩ := locks source List.mem_cons_self
      obtain ⟨secs, atFirst⟩ := Option.ne_none_iff_exists'.mp fires
      have later := ih (worst ++ [secs]) fun other member =>
        locks other (List.mem_cons_of_mem _ member)
      have picked := atFirst
      rw [firstToFire] at picked
      rw [judgeSources, if_neg asks, picked]
      dsimp only
      rw [later, List.filterMap_cons_some atFirst, List.append_assoc, List.singleton_append]

private theorem judgeSources_fails (worst : List Nat)
    (fails : ∃ source ∈ sources, source.lock = some false ∨ firstToFire states source = none) :
    ∃ delay, judgeSources states worst sources = .verdict false delay := by
  induction sources generalizing worst with
  | nil =>
      obtain ⟨_, member, _⟩ := fails
      cases member
  | cons source sources ih =>
      rw [judgeSources]
      split
      · exact ⟨none, rfl⟩
      · rename_i asks
        cases first : firstToFire states source with
        | none =>
            rw [firstToFire] at first
            rw [first]
            exact ⟨some 0, rfl⟩
        | some secs =>
            have atFirst := first
            rw [firstToFire] at atFirst
            rw [atFirst]
            obtain ⟨other, member, fails⟩ := fails
            rcases List.mem_cons.mp member with rfl | later
            · rcases fails with open_ | quiet
              · exact absurd open_ asks
              · rw [first] at quiet
                cases quiet
            · exact ih _ ⟨other, later, fails⟩

private theorem isUnreadable_iff {source : PowerSource} :
    source.isUnreadable states = true ↔ source.lock = none ∨ none ∈ candidates states source := by
  simp only [PowerSource.isUnreadable, Bool.or_eq_true, Option.isNone_iff_eq_none,
    List.any_eq_true]
  constructor
  · rintro (lock | ⟨timeout, listed, rfl⟩)
    · exact .inl lock
    · exact .inr listed
  · rintro (lock | listed)
    · exact .inl lock
    · exact .inr ⟨none, listed, rfl⟩

private def pushedSources (power : PowerLockValues) : List PowerSource :=
  power.acSource :: if power.hasBattery = some true then [power.dcSource] else []

private theorem mem_pushedSources {power : PowerLockValues} {source : PowerSource} :
    source ∈ pushedSources power ↔ power.Applies source := by
  rw [pushedSources, List.mem_cons]
  constructor
  · rintro (rfl | listed)
    · exact .mains
    · split at listed
      · rename_i present
        rw [List.mem_singleton.mp listed]
        exact .battery present
      · cases listed
  · rintro (_ | present)
    · exact .inl rfl
    · right
      rw [if_pos present]
      exact List.mem_singleton_self _

private structure FlagsRead (power : PowerLockValues) (states : PowerStates) : Prop where
  standby : power.standbyAvailable = some states.standbyOk
  hibernate : power.hibernateAvailable = some states.hibernateOk
  modern : power.modernStandby = some states.s0ix

private theorem FlagsRead.mem_candidates {power : PowerLockValues}
    (read : FlagsRead power states) {source : PowerSource} {timeout : Option Nat} :
    timeout ∈ candidates states source ↔ power.Trigger source timeout := by
  obtain ⟨standbyOk, hibernateOk, s0ix⟩ := states
  obtain ⟨standby, hibernate, modern⟩ := read
  dsimp only at standby hibernate modern
  simp only [candidates, List.mem_append]
  constructor
  · rintro ((listed | listed) | listed)
    · split at listed
      · rename_i offered
        rw [List.mem_singleton.mp listed]
        rw [Bool.or_eq_true] at offered
        exact .standby (by rw [standby, modern, Option.some_inj, Option.some_inj]; exact offered)
      · cases listed
    · split at listed
      · rename_i offered
        rw [List.mem_singleton.mp listed]
        exact .hibernate (by rw [hibernate, offered])
      · cases listed
    · split at listed
      · rename_i offered
        rw [List.mem_singleton.mp listed]
        exact .displayOff (by rw [modern, offered])
      · cases listed
  · rintro (offered | offered | offered)
    · rw [standby, modern, Option.some_inj, Option.some_inj] at offered
      rw [if_pos (Bool.or_eq_true _ _ ▸ offered)]
      exact .inl (.inl (List.mem_singleton_self _))
    · rw [hibernate, Option.some_inj] at offered
      rw [if_pos offered]
      exact .inl (.inr (List.mem_singleton_self _))
    · rw [modern, Option.some_inj] at offered
      rw [if_pos offered]
      exact .inr (List.mem_singleton_self _)

private theorem FlagsRead.noStates_iff {power : PowerLockValues} (read : FlagsRead power states) :
    power.NoStates ↔
      (!states.standbyOk && !states.hibernateOk && !states.s0ix) = true := by
  rw [PowerLockValues.NoStates, read.standby, read.hibernate, read.modern]
  simp only [Option.some_inj, Bool.and_eq_true, Bool.not_eq_true', and_assoc]

private theorem FlagsRead.decision {power : PowerLockValues} (read : FlagsRead power states)
    (offered : ¬ power.NoStates) {battery : Bool} (known : power.hasBattery = some battery) :
    powerLockDecision power = judgePower states (pushedSources power) := by
  rw [read.noStates_iff] at offered
  rw [powerLockDecision, read.standby, read.hibernate, read.modern, pushedSources, known]
  dsimp only
  rw [if_neg offered]
  cases battery with
  | true => rfl
  | false => rfl

private theorem powerLockDecision_of_noStates {power : PowerLockValues}
    (noStates : power.NoStates) : powerLockDecision power = .verdict false none := by
  obtain ⟨standby, hibernate, modern⟩ := noStates
  rw [powerLockDecision, standby, hibernate, modern]
  rfl

private theorem flags_cases (power : PowerLockValues) (offered : ¬ power.NoStates) :
    (powerLockDecision power = .unreadable ∧
      (power.standbyAvailable = none ∨ power.hibernateAvailable = none ∨
        power.modernStandby = none ∨ power.hasBattery = none)) ∨
      ∃ states battery, FlagsRead power states ∧ power.hasBattery = some battery := by
  cases standby : power.standbyAvailable with
  | none => exact .inl ⟨by rw [powerLockDecision, standby], .inl rfl⟩
  | some standbyOk =>
      cases hibernate : power.hibernateAvailable with
      | none => exact .inl ⟨by rw [powerLockDecision, standby, hibernate], .inr (.inl rfl)⟩
      | some hibernateOk =>
          cases modern : power.modernStandby with
          | none =>
              exact .inl ⟨by rw [powerLockDecision, standby, hibernate, modern],
                .inr (.inr (.inl rfl))⟩
          | some s0ix =>
              have read : FlagsRead power ⟨standbyOk, hibernateOk, s0ix⟩ :=
                ⟨standby, hibernate, modern⟩
              cases known : power.hasBattery with
              | some battery => exact .inr ⟨_, battery, read, rfl⟩
              | none =>
                  rw [read.noStates_iff] at offered
                  refine .inl ⟨?_, .inr (.inr (.inr rfl))⟩
                  rw [powerLockDecision, standby, hibernate, modern, known]
                  dsimp only
                  rw [if_neg offered]

/-! ### The verdict -/

private theorem powerLockVerdict_of_unreadable {power : PowerLockValues}
    (decided : powerLockDecision power = .unreadable) : (powerLockVerdict power).locks = none := by
  rw [powerLockVerdict, decided]

private theorem powerLockVerdict_of_verdict {power : PowerLockValues} {locks : Bool}
    {delay : Option Nat} (decided : powerLockDecision power = .verdict locks delay) :
    (powerLockVerdict power).locks = some locks ∧
      (powerLockVerdict power).delaySeconds = delay := by
  rw [powerLockVerdict, decided]
  exact ⟨rfl, rfl⟩

private theorem FlagsRead.unreadable_iff {power : PowerLockValues}
    (read : FlagsRead power states) {battery : Bool} (known : power.hasBattery = some battery) :
    power.Unreadable ↔ (pushedSources power).any (PowerSource.isUnreadable states) = true := by
  rw [PowerLockValues.Unreadable, read.standby, read.hibernate, read.modern, known,
    List.any_eq_true]
  simp only [reduceCtorEq, false_or, mem_pushedSources, isUnreadable_iff, read.mem_candidates]

private theorem FlagsRead.locksOn_iff {power : PowerLockValues} (read : FlagsRead power states)
    {source : PowerSource} (known : source.lock ≠ none) :
    power.LocksOn source ↔ source.lock ≠ some false ∧ firstToFire states source ≠ none := by
  have fires : firstToFire states source ≠ none ↔
      ∃ secs, 0 < secs ∧ power.Trigger source (some secs) := by
    rw [Ne, firstToFire_eq_none, not_not]
    simp only [read.mem_candidates]
  have asks : source.lock = some true ↔ source.lock ≠ some false := by
    cases lock : source.lock with
    | none => exact absurd lock known
    | some asks => cases asks <;> simp
  rw [PowerLockValues.LocksOn, asks, fires]

private theorem FlagsRead.soonest_iff {power : PowerLockValues} (read : FlagsRead power states)
    {source : PowerSource} {secs : Nat} :
    power.Soonest source secs ↔ firstToFire states source = some secs := by
  rw [firstToFire_eq_some, PowerLockValues.Soonest]
  simp only [read.mem_candidates]

private theorem FlagsRead.longest {power : PowerLockValues} (read : FlagsRead power states)
    (locks : ∀ source, power.Applies source → firstToFire states source ≠ none) :
    ∃ delay, ((pushedSources power).filterMap (firstToFire states)).max? = some delay ∧
      IsGreatest {secs | ∃ source, power.Applies source ∧ power.Soonest source secs} delay := by
  have collected : ∀ secs, secs ∈ (pushedSources power).filterMap (firstToFire states) ↔
      ∃ source, power.Applies source ∧ power.Soonest source secs := by
    intro secs
    rw [List.mem_filterMap]
    simp only [mem_pushedSources, read.soonest_iff]
  cases longest : ((pushedSources power).filterMap (firstToFire states)).max? with
  | none =>
      obtain ⟨secs, first⟩ := Option.ne_none_iff_exists'.mp (locks _ .mains)
      have listed := (collected secs).mpr ⟨_, .mains, read.soonest_iff.mpr first⟩
      rw [List.max?_eq_none_iff.mp longest] at listed
      cases listed
  | some delay =>
      obtain ⟨listed, largest⟩ := List.max?_eq_some_iff.mp longest
      exact ⟨delay, rfl, (collected delay).mp listed,
        fun secs soonest => largest secs ((collected secs).mpr soonest)⟩

private theorem FlagsRead.specified {power : PowerLockValues} (read : FlagsRead power states)
    (offered : ¬ power.NoStates) {battery : Bool} (known : power.hasBattery = some battery) :
    power.Specified (powerLockVerdict power) := by
  have decision := read.decision offered known
  have unreadable := read.unreadable_iff known
  rw [judgePower] at decision
  by_cases unread : power.Unreadable
  · rw [if_pos (unreadable.mp unread)] at decision
    exact .of_unreadable offered unread (powerLockVerdict_of_unreadable decision)
  · rw [if_neg (mt unreadable.mpr unread)] at decision
    have lockKnown : ∀ source, power.Applies source → source.lock ≠ none :=
      fun source applies missing =>
        unread (.inr (.inr (.inr (.inr ⟨source, applies, .inl missing⟩))))
    have locksOn : ∀ source, power.Applies source → (power.LocksOn source ↔
        source.lock ≠ some false ∧ firstToFire states source ≠ none) :=
      fun source applies => read.locksOn_iff (lockKnown source applies)
    by_cases locks : ∀ source, power.Applies source → power.LocksOn source
    · have collected : judgeSources states [] (pushedSources power) =
          .verdict true ([] ++ (pushedSources power).filterMap (firstToFire states)).max? := by
        apply judgeSources_locks
        intro source member
        have applies := mem_pushedSources.mp member
        exact (locksOn source applies).mp (locks source applies)
      rw [collected, List.nil_append] at decision
      obtain ⟨answer, delaySeconds⟩ := powerLockVerdict_of_verdict decision
      obtain ⟨delay, longest, greatest⟩ := read.longest fun source applies =>
        ((locksOn source applies).mp (locks source applies)).2
      exact .of_locks offered unread locks answer ⟨delay, delaySeconds.trans longest, greatest⟩
    · obtain ⟨source, fails⟩ := not_forall.mp locks
      obtain ⟨applies, fails⟩ := Classical.not_imp.mp fails
      have stops : source.lock = some false ∨ firstToFire states source = none := by
        rw [locksOn source applies, not_and_or, not_not, not_not] at fails
        exact fails
      obtain ⟨delay, stopped⟩ :=
        judgeSources_fails [] ⟨source, mem_pushedSources.mpr applies, stops⟩
      rw [stopped] at decision
      exact .of_fails offered unread ⟨source, applies, fails⟩
        (powerLockVerdict_of_verdict decision).1

private theorem powerLockVerdict_specified (power : PowerLockValues) :
    power.Specified (powerLockVerdict power) := by
  by_cases noStates : power.NoStates
  · have decision := powerLockDecision_of_noStates noStates
    exact .of_noStates noStates (powerLockVerdict_of_verdict decision).1
  · rcases flags_cases power noStates with ⟨decision, missing⟩ | ⟨states, battery, read, known⟩
    · refine .of_unreadable noStates ?_ (powerLockVerdict_of_unreadable decision)
      rcases missing with standby | hibernate | modern | battery
      · exact .inl standby
      · exact .inr (.inl hibernate)
      · exact .inr (.inr (.inl modern))
      · exact .inr (.inr (.inr (.inl battery)))
    · exact read.specified noStates known

private theorem FlagsRead.candidates_eq {power : PowerLockValues} (read : FlagsRead power states)
    {source other : PowerSource} (agree : power.SourcesAgree source other) :
    candidates states other = candidates states source := by
  rw [candidates, candidates]
  congr 1
  · congr 1
    · split
      · rename_i offered
        rw [Bool.or_eq_true] at offered
        have standby := agree.standby
          (by rw [read.standby, read.modern, Option.some_inj, Option.some_inj]; exact offered)
        rw [standby]
      · rfl
    · split
      · rename_i offered
        rw [agree.hibernate (by rw [read.hibernate, offered])]
      · rfl
  · split
    · rename_i offered
      rw [agree.displayOff (by rw [read.modern, offered])]
    · rfl

private theorem powerLockDecision_agree {power other : PowerLockValues}
    (agree : power.AgreeWhereApplies other) :
    powerLockDecision other = powerLockDecision power := by
  have flags : other.NoStates ↔ power.NoStates := by
    rw [PowerLockValues.NoStates, PowerLockValues.NoStates, agree.standbyAvailable,
      agree.hibernateAvailable, agree.modernStandby]
  by_cases noStates : power.NoStates
  · rw [powerLockDecision_of_noStates noStates, powerLockDecision_of_noStates (flags.mpr noStates)]
  · have battery := agree.hasBattery noStates
    rcases flags_cases power noStates with ⟨decision, missing⟩ | ⟨states, present, read, known⟩
    · rcases flags_cases other (mt flags.mp noStates) with
        ⟨otherDecision, _⟩ | ⟨states, present, read, known⟩
      · rw [decision, otherDecision]
      · -- What `power` misses is missing from `other` too.
        rw [← agree.standbyAvailable, ← agree.hibernateAvailable, ← agree.modernStandby, ← battery,
          read.standby, read.hibernate, read.modern, known] at missing
        simp at missing
    · have otherRead : FlagsRead other states :=
        ⟨agree.standbyAvailable.trans read.standby, agree.hibernateAvailable.trans read.hibernate,
          agree.modernStandby.trans read.modern⟩
      rw [read.decision noStates known,
        otherRead.decision (mt flags.mp noStates) (battery.trans known)]
      refine judgePower_congr ?_
      have mains := agree.mains noStates
      rw [pushedSources, pushedSources, battery]
      refine .cons ⟨mains.lock, read.candidates_eq mains⟩ ?_
      split
      · rename_i runs
        have onBattery := agree.battery noStates runs
        exact .cons ⟨onBattery.lock, read.candidates_eq onBattery⟩ .nil
      · exact .nil

/-- The verdict is the specified one, whatever the values that do not apply. -/
theorem powerLockVerdict_spec (power : PowerLockValues) :
    power.Specified (powerLockVerdict power) ∧
      ∀ other, power.AgreeWhereApplies other →
        (powerLockVerdict other).locks = (powerLockVerdict power).locks ∧
          (powerLockVerdict other).delaySeconds = (powerLockVerdict power).delaySeconds ∧
          (powerLockVerdict other).source = (powerLockVerdict power).source := by
  refine ⟨powerLockVerdict_specified power, ?_⟩
  intro other agree
  rw [powerLockVerdict, powerLockVerdict, powerLockDecision_agree agree]
  cases powerLockDecision power with
  | unreadable => exact ⟨rfl, rfl, rfl⟩
  | verdict locks delay => exact ⟨rfl, rfl, rfl⟩

end KlaayGuard
