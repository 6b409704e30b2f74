/-
The Windows screen-lock row: the screen saver, the power path, and what the
two together say.

A value nobody could read makes the power path say nothing at all.  So a verdict
rests only on values that were read, and reading more of them never overturns
it: it can only bring the reported delay forward.
-/

import KlaayGuard.Library.RustIter
import KlaayGuard.Library.RustText
import KlaayGuard.ScreenLockRow

set_option autoImplicit false

namespace KlaayGuard

open RustIter RustText

structure ScreenSaverValues : Type where
  active : Option String
  secure : Option String
  timeoutSeconds : Option String
  exe : Option String
  deriving DecidableEq, Repr

structure PowerLockValues : Type where
  consoleLockAc : Option Bool
  consoleLockDc : Option Bool
  standbyAvailable : Option Bool
  hibernateAvailable : Option Bool
  modernStandby : Option Bool
  /-- Seconds; 0 means "never". -/
  standbyAcSecs : Option Nat
  standbyDcSecs : Option Nat
  hibernateAcSecs : Option Nat
  hibernateDcSecs : Option Nat
  displayOffAcSecs : Option Nat
  displayOffDcSecs : Option Nat
  hasBattery : Option Bool
  deriving DecidableEq, Repr

structure WindowsScreenLockInputs : Type where
  inactivityTimeoutSecs : Option String
  userPolicy : ScreenSaverValues
  userPreference : ScreenSaverValues
  power : PowerLockValues
  deriving DecidableEq, Repr

def parseRegSzBool (raw : Option String) : Option Bool :=
  match raw.map fun text => String.ofList (trim text.toList) with
  | some "1" => some true
  | some "0" => some false
  | _ => none

def parseRegSzU64 (raw : Option String) : Option Nat :=
  raw.bind fun text => parseU64 (trim text.toList)

def parseRegSzPath (raw : Option String) : Option String :=
  (raw.map fun text => String.ofList (trim text.toList)).filter (· ≠ "")

/-- One mechanism's answer: `some true` locks, `some false` does not, `none`
could not be read. -/
structure LockVerdict : Type where
  locks : Option Bool
  delaySeconds : Option Nat
  source : String
  detail : String

/-- One parsed value and the key that supplied it. -/
structure Sourced (α : Type) : Type where
  value : Option α
  source : String

/-- The first key, by precedence, that sets the value. -/
def firstSet {α : Type} (field : ScreenSaverValues → Option String)
    (parse : Option String → Option α) : List (String × ScreenSaverValues) → Sourced α
  | [] => { value := none, source := "none" }
  | (source, values) :: ranked =>
      match field values with
      | some raw => { value := parse (some raw), source := source }
      | none => firstSet field parse ranked

def sourceRank (source : String) : Nat :=
  match source with
  | "user_policy" => 0
  | "user" => 1
  | _ => 2

def screensaverLockVerdict (inputs : WindowsScreenLockInputs) : LockVerdict :=
  let ranked := [("user_policy", inputs.userPolicy), ("user", inputs.userPreference)]
  let active := firstSet ScreenSaverValues.active parseRegSzBool ranked
  let secure := firstSet ScreenSaverValues.secure parseRegSzBool ranked
  let timeout := firstSet ScreenSaverValues.timeoutSeconds parseRegSzU64 ranked
  let exe := firstSet ScreenSaverValues.exe parseRegSzPath ranked
  let detail := "ScreenSaveActive=" ++ fmtOpt active.value ++ "(" ++ active.source ++
    ") ScreenSaverIsSecure=" ++ fmtOpt secure.value ++ "(" ++ secure.source ++
    ") ScreenSaveTimeOut=" ++ fmtOpt timeout.value ++ "(" ++ timeout.source ++
    ") SCRNSAVE.EXE=" ++ fmtOpt exe.value ++ "(" ++ exe.source ++ ")"
  -- The highest-ranking key that contributed anything names the source.
  let source :=
    (minByKey sourceRank [active.source, secure.source, timeout.source, exe.source]).getD "none"
  if source = "none" then
    { locks := some false
      delaySeconds := none
      source := "none"
      detail := "no screen saver values set, so no screen saver locks this host" }
  else if active.value = some false ∨ secure.value = some false then
    { locks := some false, delaySeconds := timeout.value, source := source, detail := detail }
  else if timeout.value = some 0 then
    { locks := some false, delaySeconds := some 0, source := source, detail := detail }
  else
    match active.value, secure.value, timeout.value with
    | some true, some true, some t =>
        if exe.value = none then
          { locks := some false
            delaySeconds := some t
            source := source
            detail := detail ++ " (no screen saver selected, so none runs and nothing locks)" }
        else
          { locks := some true, delaySeconds := some t, source := source, detail := detail }
    | _, _, _ =>
        { locks := none, delaySeconds := timeout.value, source := source, detail := detail }

structure PowerStates : Type where
  standbyOk : Bool
  hibernateOk : Bool
  s0ix : Bool

/-- The values that apply on one power source. -/
structure PowerSource : Type where
  lock : Option Bool
  standby : Option Nat
  hibernate : Option Nat
  displayOff : Option Nat

/-- The timeouts whose power state exists. -/
def candidates (states : PowerStates) (source : PowerSource) : List (Option Nat) :=
  (if states.standbyOk || states.s0ix then [source.standby] else []) ++
    (if states.hibernateOk then [source.hibernate] else []) ++
    (if states.s0ix then [source.displayOff] else [])

def PowerSource.isUnreadable (states : PowerStates) (source : PowerSource) : Bool :=
  source.lock.isNone || (candidates states source).any Option.isNone

/-- What the power path can say: nothing, or a verdict with its delay. -/
inductive PowerDecision : Type where
  | unreadable
  | verdict (locks : Bool) (delaySeconds : Option Nat)
  deriving DecidableEq, Repr

/-- The loop over the power sources, with the delays of those already judged. -/
def judgeSources (states : PowerStates) (worst : List Nat) : List PowerSource → PowerDecision
  | [] => .verdict true worst.max?
  | source :: sources =>
      -- Windows wakes straight to the desktop on this power source.
      if source.lock = some false then .verdict false none
      else
        match ((candidates states source).reduceOption.filter (0 < ·)).min? with
        | some secs => judgeSources states (worst ++ [secs]) sources
        | none => .verdict false (some 0)

def PowerLockValues.acSource (power : PowerLockValues) : PowerSource :=
  { lock := power.consoleLockAc
    standby := power.standbyAcSecs
    hibernate := power.hibernateAcSecs
    displayOff := power.displayOffAcSecs }

def PowerLockValues.dcSource (power : PowerLockValues) : PowerSource :=
  { lock := power.consoleLockDc
    standby := power.standbyDcSecs
    hibernate := power.hibernateDcSecs
    displayOff := power.displayOffDcSecs }

def judgePower (states : PowerStates) (sources : List PowerSource) : PowerDecision :=
  if sources.any (PowerSource.isUnreadable states) then .unreadable
  else judgeSources states [] sources

def powerLockDecision (power : PowerLockValues) : PowerDecision :=
  match power.standbyAvailable, power.hibernateAvailable, power.modernStandby with
  | some standbyOk, some hibernateOk, some s0ix =>
      -- No power state to enter at all: every timeout is stored but never fires.
      if !standbyOk && !hibernateOk && !s0ix then .verdict false none
      else
        match power.hasBattery with
        | none => .unreadable
        | some true => judgePower ⟨standbyOk, hibernateOk, s0ix⟩ [power.acSource, power.dcSource]
        | some false => judgePower ⟨standbyOk, hibernateOk, s0ix⟩ [power.acSource]
  | _, _, _ => .unreadable

def powerLockVerdict (power : PowerLockValues) : LockVerdict :=
  let detail := "ConsoleLockAC=" ++ fmtOpt power.consoleLockAc ++
    " ConsoleLockDC=" ++ fmtOpt power.consoleLockDc ++
    " StandbyIdleAC=" ++ fmtOpt power.standbyAcSecs ++
    " StandbyIdleDC=" ++ fmtOpt power.standbyDcSecs ++
    " HibernateIdleAC=" ++ fmtOpt power.hibernateAcSecs ++
    " HibernateIdleDC=" ++ fmtOpt power.hibernateDcSecs ++
    " DisplayOffAC=" ++ fmtOpt power.displayOffAcSecs ++
    " DisplayOffDC=" ++ fmtOpt power.displayOffDcSecs ++
    " Standby=" ++ fmtOpt power.standbyAvailable ++
    " Hibernate=" ++ fmtOpt power.hibernateAvailable ++
    " ModernStandby=" ++ fmtOpt power.modernStandby ++
    " Battery=" ++ fmtOpt power.hasBattery
  match powerLockDecision power with
  | .unreadable => { locks := none, delaySeconds := none, source := "none", detail := detail }
  | .verdict locks delaySeconds =>
      { locks := some locks
        delaySeconds := delaySeconds
        source := "power_policy"
        detail := detail }

/-- `u64::MAX`, the key of a mechanism without a delay. -/
def u64Max : Nat := UInt64.size - 1

def combineVerdicts (saver power : LockVerdict) : Value :=
  let detail := saver.detail ++ " | " ++ power.detail
  let mechanisms := [saver, power]
  match minByKey (fun m : LockVerdict => m.delaySeconds.getD u64Max)
      (mechanisms.filter fun m => m.locks = some true) with
  | some m => screenlockRow "windows" "yes" m.delaySeconds m.source detail
  | none =>
      match mechanisms.find? fun m => m.locks.isNone with
      | some m => screenlockRow "windows" "unknown" none m.source detail
      | none =>
          let m := (mechanisms.find? fun m => m.locks = some false).getD saver
          screenlockRow "windows" "no" m.delaySeconds m.source detail

def windowsScreenlockRow (inputs : WindowsScreenLockInputs) : Value :=
  match (parseRegSzU64 inputs.inactivityTimeoutSecs).filter (0 < ·) with
  | some secs =>
      screenlockRow "windows" "yes" (some secs) "machine_inactivity_policy"
        ("InactivityTimeoutSecs=" ++ toString secs)
  | none => combineVerdicts (screensaverLockVerdict inputs) (powerLockVerdict inputs.power)

/-! ### Reading more values -/

/-- The second value is the first, or was unreadable before. -/
def Rereads {α : Type} (before after : Option α) : Prop := before = none ∨ after = before

theorem Rereads.eq_some {α : Type} {before after : Option α} {value : α}
    (rereads : Rereads before after) (known : before = some value) : after = some value := by
  rcases rereads with missing | same
  · rw [known] at missing
    cases missing
  · rw [same, known]

structure PowerLockValues.RereadAs (before after : PowerLockValues) : Prop where
  consoleLockAc : Rereads before.consoleLockAc after.consoleLockAc
  consoleLockDc : Rereads before.consoleLockDc after.consoleLockDc
  standbyAvailable : Rereads before.standbyAvailable after.standbyAvailable
  hibernateAvailable : Rereads before.hibernateAvailable after.hibernateAvailable
  modernStandby : Rereads before.modernStandby after.modernStandby
  standbyAcSecs : Rereads before.standbyAcSecs after.standbyAcSecs
  standbyDcSecs : Rereads before.standbyDcSecs after.standbyDcSecs
  hibernateAcSecs : Rereads before.hibernateAcSecs after.hibernateAcSecs
  hibernateDcSecs : Rereads before.hibernateDcSecs after.hibernateDcSecs
  displayOffAcSecs : Rereads before.displayOffAcSecs after.displayOffAcSecs
  displayOffDcSecs : Rereads before.displayOffDcSecs after.displayOffDcSecs
  hasBattery : Rereads before.hasBattery after.hasBattery

structure PowerSource.RereadAs (before after : PowerSource) : Prop where
  lock : Rereads before.lock after.lock
  standby : Rereads before.standby after.standby
  hibernate : Rereads before.hibernate after.hibernate
  displayOff : Rereads before.displayOff after.displayOff

variable {states : PowerStates} {source source' : PowerSource}
variable {sources sources' : List PowerSource}

theorem PowerSource.RereadAs.same (rereads : source.RereadAs source')
    (readable : source.isUnreadable states = false) :
    source'.lock = source.lock ∧ candidates states source' = candidates states source := by
  simp only [isUnreadable, Bool.or_eq_false_iff] at readable
  have lock : source'.lock = source.lock := by
    rcases rereads.lock with missing | same
    · rw [missing] at readable
      cases readable.1
    · exact same
  refine ⟨lock, ?_⟩
  have known : ∀ timeout ∈ candidates states source, timeout ≠ none := by
    intro timeout listed missing
    subst missing
    have none_read := List.any_eq_false.mp readable.2 none listed
    simp at none_read
  unfold candidates at known ⊢
  have standby : (states.standbyOk || states.s0ix) = true → source'.standby = source.standby := by
    intro offered
    refine rereads.standby.resolve_left (known _ ?_)
    simp [offered]
  have hibernate : states.hibernateOk = true → source'.hibernate = source.hibernate := by
    intro offered
    refine rereads.hibernate.resolve_left (known _ ?_)
    simp [offered]
  have displayOff : states.s0ix = true → source'.displayOff = source.displayOff := by
    intro offered
    refine rereads.displayOff.resolve_left (known _ ?_)
    simp [offered]
  congr 1
  · congr 1
    · split
      · rename_i offered
        rw [standby offered]
      · rfl
    · split
      · rename_i offered
        rw [hibernate offered]
      · rfl
  · split
    · rename_i offered
      rw [displayOff offered]
    · rfl

theorem judgeSources_congr (worst : List Nat)
    (same : List.Forall₂ (fun source source' => source'.lock = source.lock ∧
      candidates states source' = candidates states source) sources sources') :
    judgeSources states worst sources' = judgeSources states worst sources := by
  induction same generalizing worst with
  | nil => rfl
  | cons head tail ih =>
      unfold judgeSources
      rw [head.1, head.2]
      split
      · rfl
      · split
        · exact ih _
        · rfl

theorem judgePower_congr
    (same : List.Forall₂ (fun source source' => source'.lock = source.lock ∧
      candidates states source' = candidates states source) sources sources') :
    judgePower states sources' = judgePower states sources := by
  have unread : sources'.any (PowerSource.isUnreadable states) =
      sources.any (PowerSource.isUnreadable states) := by
    induction same with
    | nil => rfl
    | cons head _ ih =>
        rw [List.any_cons, List.any_cons, ih, PowerSource.isUnreadable, PowerSource.isUnreadable,
          head.1, head.2]
  rw [judgePower, judgePower, unread, judgeSources_congr [] same]

theorem judgePower_reread
    (rereads : List.Forall₂ PowerSource.RereadAs sources sources')
    (known : judgePower states sources ≠ .unreadable) :
    judgePower states sources' = judgePower states sources := by
  have readable : sources.any (PowerSource.isUnreadable states) = false := by
    cases unread : sources.any (PowerSource.isUnreadable states) with
    | false => rfl
    | true => exact absurd (by rw [judgePower, if_pos unread]) known
  have same : List.Forall₂ (fun source source' => source'.lock = source.lock ∧
      candidates states source' = candidates states source) sources sources' := by
    clear known
    induction rereads with
    | nil => exact .nil
    | cons head tail ih =>
        simp only [List.any_cons, Bool.or_eq_false_iff] at readable
        exact .cons (head.same readable.1) (ih readable.2)
  exact judgePower_congr same

theorem powerLockDecision_reread {before after : PowerLockValues}
    (rereads : before.RereadAs after) (known : powerLockDecision before ≠ .unreadable) :
    powerLockDecision after = powerLockDecision before := by
  have ac : before.acSource.RereadAs after.acSource :=
    ⟨rereads.consoleLockAc, rereads.standbyAcSecs, rereads.hibernateAcSecs,
      rereads.displayOffAcSecs⟩
  have dc : before.dcSource.RereadAs after.dcSource :=
    ⟨rereads.consoleLockDc, rereads.standbyDcSecs, rereads.hibernateDcSecs,
      rereads.displayOffDcSecs⟩
  unfold powerLockDecision at known ⊢
  cases standby : before.standbyAvailable with
  | none => simp [standby] at known
  | some standbyOk =>
      cases hibernate : before.hibernateAvailable with
      | none => simp [standby, hibernate] at known
      | some hibernateOk =>
          cases modern : before.modernStandby with
          | none => simp [standby, hibernate, modern] at known
          | some s0ix =>
              rw [rereads.standbyAvailable.eq_some standby,
                rereads.hibernateAvailable.eq_some hibernate,
                rereads.modernStandby.eq_some modern]
              rw [standby, hibernate, modern] at known
              simp only at known ⊢
              split
              · rfl
              · rename_i offered
                rw [if_neg offered] at known
                cases battery : before.hasBattery with
                | none => simp [battery] at known
                | some present =>
                    rw [rereads.hasBattery.eq_some battery]
                    rw [battery] at known
                    cases present with
                    | true => exact judgePower_reread (.cons ac (.cons dc .nil)) known
                    | false => exact judgePower_reread (.cons ac .nil) known

theorem judgeSources_delay {worst : List Nat} {sources : List PowerSource}
    (some_source : worst ≠ [] ∨ sources ≠ [])
    (locked : judgeSources states worst sources = .verdict true none) : False := by
  induction sources generalizing worst with
  | nil =>
      unfold judgeSources at locked
      have empty : worst.max? = none := (PowerDecision.verdict.inj locked).2
      rw [List.max?_eq_none_iff] at empty
      simp [empty] at some_source
  | cons source sources ih =>
      unfold judgeSources at locked
      split at locked
      · cases locked
      · split at locked
        · exact ih (Or.inl (by simp)) locked
        · cases locked

theorem powerLockDecision_delay {power : PowerLockValues} :
    powerLockDecision power ≠ .verdict true none := by
  intro locked
  unfold powerLockDecision at locked
  split at locked
  · split at locked
    · cases locked
    · split at locked
      · cases locked
      · unfold judgePower at locked
        split at locked
        · cases locked
        · exact judgeSources_delay (Or.inr (by simp)) locked
      · unfold judgePower at locked
        split at locked
        · cases locked
        · exact judgeSources_delay (Or.inr (by simp)) locked
  · cases locked

theorem screensaverLockVerdict_delay (inputs : WindowsScreenLockInputs) :
    (screensaverLockVerdict inputs).locks = some true →
      (screensaverLockVerdict inputs).delaySeconds ≠ none := by
  unfold screensaverLockVerdict
  dsimp only
  split
  · exact fun locks => by cases locks
  · split
    · exact fun locks => by cases locks
    · split
      · exact fun locks => by cases locks
      · split
        · split
          · exact fun locks => by cases locks
          · exact fun _ missing => by cases missing
        · exact fun locks => by cases locks

theorem powerLockVerdict_delay (power : PowerLockValues) :
    (powerLockVerdict power).locks = some true →
      (powerLockVerdict power).delaySeconds ≠ none := by
  unfold powerLockVerdict
  dsimp only
  cases decision : powerLockDecision power with
  | unreadable => exact fun locks => by cases locks
  | verdict locks delay =>
      intro locked missing
      simp only [Option.some.injEq] at locked missing
      rw [locked, missing] at decision
      exact powerLockDecision_delay decision

variable {saver power : LockVerdict}

theorem combineVerdicts_yes
    (locks : saver.locks = some true ∨ power.locks = some true) :
    rowEnabled (combineVerdicts saver power) = some "yes" ∧
      ∃ m ∈ [saver, power], m.locks = some true ∧
        rowDelaySeconds (combineVerdicts saver power) = m.delaySeconds ∧
        ∀ other ∈ [saver, power], other.locks = some true →
          m.delaySeconds.getD u64Max ≤ other.delaySeconds.getD u64Max := by
  cases found : minByKey (fun m : LockVerdict => m.delaySeconds.getD u64Max)
      ([saver, power].filter fun m => m.locks = some true) with
  | none =>
      have empty := minByKey_eq_none.mp found
      rw [List.filter_eq_nil_iff] at empty
      rcases locks with atSaver | atPower
      · have unlisted := empty saver (by simp)
        simp [atSaver] at unlisted
      · have unlisted := empty power (by simp)
        simp [atPower] at unlisted
  | some m =>
      obtain ⟨member, soonest⟩ := minByKey_spec found
      obtain ⟨listed, locked⟩ := List.mem_filter.mp member
      unfold combineVerdicts
      dsimp only
      rw [found]
      refine ⟨rowEnabled_screenlockRow _ _ _ _ _, m, listed, of_decide_eq_true locked,
        rowDelaySeconds_screenlockRow _ _ _ _ _, ?_⟩
      intro other otherListed otherLocks
      apply soonest
      exact List.mem_filter.mpr ⟨otherListed, decide_eq_true otherLocks⟩

theorem combineVerdicts_not_yes
    (quiet : ¬ (saver.locks = some true ∨ power.locks = some true)) :
    rowEnabled (combineVerdicts saver power) ≠ some "yes" ∧
      (rowEnabled (combineVerdicts saver power) = some "no" ↔
        saver.locks = some false ∧ power.locks = some false) := by
  have nobody : [saver, power].filter (fun m => m.locks = some true) = [] := by
    rw [List.filter_eq_nil_iff]
    intro m listed
    rcases List.mem_cons.mp listed with rfl | listed
    · simpa using fun locked => quiet (Or.inl locked)
    · obtain rfl := List.mem_singleton.mp listed
      simpa using fun locked => quiet (Or.inr locked)
  unfold combineVerdicts
  dsimp only
  rw [nobody]
  rcases saverLocks : saver.locks with _ | _ | _
  · simp [minByKey, saverLocks]
  · rcases powerLocks : power.locks with _ | _ | _
    · simp [minByKey, saverLocks, powerLocks]
    · simp [minByKey, saverLocks, powerLocks]
    · exact absurd (Or.inr powerLocks) quiet
  · exact absurd (Or.inl saverLocks) quiet

theorem powerLockVerdict_reread {before after : PowerLockValues}
    (rereads : before.RereadAs after) (known : (powerLockVerdict before).locks ≠ none) :
    (powerLockVerdict after).locks = (powerLockVerdict before).locks ∧
      (powerLockVerdict after).delaySeconds = (powerLockVerdict before).delaySeconds := by
  have decided : powerLockDecision before ≠ .unreadable := by
    intro unreadable
    rw [powerLockVerdict, unreadable] at known
    exact known rfl
  have same := powerLockDecision_reread rereads decided
  unfold powerLockVerdict
  dsimp only
  rw [same]
  cases powerLockDecision before with
  | unreadable => exact ⟨rfl, rfl⟩
  | verdict locks delay => exact ⟨rfl, rfl⟩

private theorem delay_le {delay delay' : Option Nat} (known : delay ≠ none)
    (known' : delay' ≠ none) (le : delay'.getD u64Max ≤ delay.getD u64Max) :
    ∃ secs secs', delay = some secs ∧ delay' = some secs' ∧ secs' ≤ secs := by
  obtain ⟨secs, rfl⟩ := Option.ne_none_iff_exists'.mp known
  obtain ⟨secs', rfl⟩ := Option.ne_none_iff_exists'.mp known'
  exact ⟨secs, secs', rfl, rfl, le⟩

private theorem combineVerdicts_reread_yes {power' : LockVerdict}
    (same : power.locks ≠ none →
      power'.locks = power.locks ∧ power'.delaySeconds = power.delaySeconds)
    (saverDelay : saver.locks = some true → saver.delaySeconds ≠ none)
    (powerDelay : power.locks = some true → power.delaySeconds ≠ none)
    (powerDelay' : power'.locks = some true → power'.delaySeconds ≠ none)
    (yes : rowEnabled (combineVerdicts saver power) = some "yes") :
    rowEnabled (combineVerdicts saver power') = some "yes" ∧
      ∃ secs secs', rowDelaySeconds (combineVerdicts saver power) = some secs ∧
        rowDelaySeconds (combineVerdicts saver power') = some secs' ∧ secs' ≤ secs := by
  have locks : saver.locks = some true ∨ power.locks = some true := by
    by_contra quiet
    exact (combineVerdicts_not_yes quiet).1 yes
  obtain ⟨_, m, listed, locked, delay, _⟩ := combineVerdicts_yes locks
  have known : m.delaySeconds ≠ none := by
    rcases List.mem_cons.mp listed with rfl | listed
    · exact saverDelay locked
    · obtain rfl := List.mem_singleton.mp listed
      exact powerDelay locked
  -- The mechanism that gave the first delay still locks with it.
  have again : ∃ m' ∈ [saver, power'], m'.locks = some true ∧
      m'.delaySeconds = m.delaySeconds := by
    rcases List.mem_cons.mp listed with rfl | listed
    · exact ⟨_, List.mem_cons_self, locked, rfl⟩
    · obtain rfl := List.mem_singleton.mp listed
      obtain ⟨sameLocks, sameDelay⟩ := same (by simp [locked])
      exact ⟨_, by simp, sameLocks.trans locked, sameDelay⟩
  obtain ⟨m', listed', locked', sameDelay⟩ := again
  have locks' : saver.locks = some true ∨ power'.locks = some true := by
    rcases List.mem_cons.mp listed' with rfl | listed'
    · exact Or.inl locked'
    · obtain rfl := List.mem_singleton.mp listed'
      exact Or.inr locked'
  obtain ⟨yes', best, bestListed, bestLocks, bestDelay, soonest⟩ := combineVerdicts_yes locks'
  have bestKnown : best.delaySeconds ≠ none := by
    rcases List.mem_cons.mp bestListed with rfl | bestListed
    · exact saverDelay bestLocks
    · obtain rfl := List.mem_singleton.mp bestListed
      exact powerDelay' bestLocks
  refine ⟨yes', ?_⟩
  rw [delay, bestDelay]
  apply delay_le known bestKnown
  rw [← sameDelay]
  exact soonest m' listed' locked'

private theorem combineVerdicts_reread_no {power' : LockVerdict}
    (same : power.locks ≠ none → power'.locks = power.locks)
    (no : rowEnabled (combineVerdicts saver power) = some "no") :
    rowEnabled (combineVerdicts saver power') = some "no" := by
  have quiet : ¬ (saver.locks = some true ∨ power.locks = some true) := by
    intro locks
    rw [(combineVerdicts_yes locks).1] at no
    simp at no
  obtain ⟨saverNo, powerNo⟩ := (combineVerdicts_not_yes quiet).2.mp no
  have powerNo' : power'.locks = some false := by
    rw [same (by simp [powerNo]), powerNo]
  have quiet' : ¬ (saver.locks = some true ∨ power'.locks = some true) := by
    simp [saverNo, powerNo']
  exact (combineVerdicts_not_yes quiet').2.mpr ⟨saverNo, powerNo'⟩

/-- Reading power values that nobody could read before keeps a "yes" and a
"no", and never puts the reported delay back. -/
theorem windowsScreenlockRow_reread (inputs : WindowsScreenLockInputs) (power : PowerLockValues)
    (rereads : inputs.power.RereadAs power) :
    (rowEnabled (windowsScreenlockRow inputs) = some "yes" →
      rowEnabled (windowsScreenlockRow { inputs with power := power }) = some "yes" ∧
      ∃ secs secs', rowDelaySeconds (windowsScreenlockRow inputs) = some secs ∧
        rowDelaySeconds (windowsScreenlockRow { inputs with power := power }) = some secs' ∧
        secs' ≤ secs) ∧
    (rowEnabled (windowsScreenlockRow inputs) = some "no" →
      rowEnabled (windowsScreenlockRow { inputs with power := power }) = some "no") := by
  unfold windowsScreenlockRow
  dsimp only
  cases limit : (parseRegSzU64 inputs.inactivityTimeoutSecs).filter (0 < ·) with
  | some secs => simp
  | none =>
      dsimp only
      have sameSaver : screensaverLockVerdict { inputs with power := power } =
          screensaverLockVerdict inputs := rfl
      have same := fun known => powerLockVerdict_reread rereads known
      rw [sameSaver]
      constructor
      · apply combineVerdicts_reread_yes same
        · exact screensaverLockVerdict_delay inputs
        · exact powerLockVerdict_delay inputs.power
        · exact powerLockVerdict_delay power
      · exact combineVerdicts_reread_no fun known => (same known).1

/-! A locking screen saver on a host whose power values become readable. -/

private def unreadPower : PowerLockValues :=
  ⟨none, none, some true, some false, some false, none, none, none, none, none, none, some false⟩

private def saverAtTen : WindowsScreenLockInputs :=
  { inactivityTimeoutSecs := none
    userPolicy := ⟨none, none, none, none⟩
    userPreference := ⟨some "1", some "1", some "600", some "scrnsave.scr"⟩
    power := unreadPower }

theorem windowsScreenlockRow_reread_sooner :
    let power := { unreadPower with consoleLockAc := some true, standbyAcSecs := some 300 }
    rowEnabled (windowsScreenlockRow { saverAtTen with power := power }) = some "yes" ∧
      ∃ secs secs', rowDelaySeconds (windowsScreenlockRow saverAtTen) = some secs ∧
        rowDelaySeconds (windowsScreenlockRow { saverAtTen with power := power }) = some secs' ∧
        secs' ≤ secs := by
  refine (windowsScreenlockRow_reread saverAtTen
    { unreadPower with consoleLockAc := some true, standbyAcSecs := some 300 } ?_).1 (by decide)
  constructor <;> first | exact Or.inr rfl | exact Or.inl rfl

end KlaayGuard
