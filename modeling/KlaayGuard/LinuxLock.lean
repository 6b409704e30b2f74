/-
The screen lock of a Linux session, and the row that reports it.

The desktops that keep their settings in gsettings or xfconf all come to the same:
switches that must all be on, an idle time, and a grace time on top of it.
-/

import KlaayGuard.LinuxPosture

set_option autoImplicit false

namespace KlaayGuard

open EffectProgram Prog RustInt RustText

inductive IdleVerdict : Type where
  | locks (seconds : Nat)
  | never
  | unknown
  deriving DecidableEq, Repr

structure IdleLock : Type where
  /-- All of them must be on; nobody can tell where one cannot be read. -/
  switches : List (Option Bool)
  idle : Option Nat
  grace : Nat
  /-- How many seconds both times are counted in. -/
  unit : Nat

def IdleLock.verdict (lock : IdleLock) : IdleVerdict :=
  if some false ∈ lock.switches then .never
  else if none ∈ lock.switches then .unknown
  else
    match lock.idle with
    | none => .unknown
    | some 0 => .never
    | some (idle + 1) => .locks ((idle + 1 + lock.grace) * lock.unit)

def rowVerdict (row : Value) : Option IdleVerdict :=
  match rowEnabled row with
  | some "yes" => (rowDelaySeconds row).map .locks
  | some "no" => some .never
  | some "unknown" => some .unknown
  | _ => none

/-- The build does not panic, and the row says this. -/
def Reports (row : Option Value) (verdict : IdleVerdict) : Prop :=
  ∃ answer, row = some answer ∧ rowVerdict answer = some verdict

theorem reports_yes (de source detail : String) (delay : Nat) :
    Reports (some (screenlockRow de "yes" (some delay) source detail)) (.locks delay) :=
  ⟨_, rfl, rfl⟩

theorem reports_no (de source detail : String) (delay : Option Nat) :
    Reports (some (screenlockRow de "no" delay source detail)) .never :=
  ⟨_, rfl, rfl⟩

theorem reports_unknown (de source detail : String) (delay : Option Nat) :
    Reports (some (screenlockRow de "unknown" delay source detail)) .unknown :=
  ⟨_, rfl, rfl⟩

theorem computes_reports {arith : OverflowChecks → Option UInt64} {n : Nat}
    (computes : Computes arith n) (fits : n < UInt64.size) (checks : OverflowChecks)
    {rowOf : UInt64 → Value} {verdict : IdleVerdict}
    (tells : ∀ total, total.toNat = n → Reports (some (rowOf total)) verdict) :
    Reports ((arith checks).map rowOf) verdict := by
  obtain ⟨total, returned, value⟩ := computes.exact fits checks
  rw [returned]
  exact tells total value

section Rows

variable (checks : OverflowChecks)

theorem all_on {switches : List (Option Bool)} (on : ∀ switch ∈ switches, switch = some true) :
    some false ∉ switches ∧ none ∉ switches := by
  constructor
  · intro off
    have same := on _ off
    cases same
  · intro unread
    have same := on _ unread
    cases same

theorem verdict_off {switches : List (Option Bool)} {idle : Option Nat} {grace unit : Nat}
    (off : some false ∈ switches) :
    IdleLock.verdict ⟨switches, idle, grace, unit⟩ = .never := by
  unfold IdleLock.verdict
  rw [if_pos off]

theorem verdict_zero {switches : List (Option Bool)} (on : ∀ switch ∈ switches, switch = some true)
    (grace unit : Nat) : IdleLock.verdict ⟨switches, some 0, grace, unit⟩ = .never := by
  unfold IdleLock.verdict
  rw [if_neg (all_on on).1, if_neg (all_on on).2]

theorem verdict_positive {switches : List (Option Bool)} {idle : Nat}
    (on : ∀ switch ∈ switches, switch = some true) (positive : 0 < idle) (grace unit : Nat) :
    IdleLock.verdict ⟨switches, some idle, grace, unit⟩ = .locks ((idle + grace) * unit) := by
  obtain ⟨n, rfl⟩ := Nat.exists_eq_succ_of_ne_zero (Nat.pos_iff_ne_zero.mp positive)
  unfold IdleLock.verdict
  rw [if_neg (all_on on).1, if_neg (all_on on).2]

theorem screenlockRowGsettings_reports (de : String) (lockEnabled : Option Bool)
    (idleDelay lockDelay : Option UInt64)
    (fits : (idleDelay.getD 0).toNat + (lockDelay.getD 0).toNat < UInt64.size) :
    Reports (screenlockRowGsettings checks de lockEnabled idleDelay lockDelay)
      (IdleLock.verdict
        ⟨[lockEnabled], idleDelay.map UInt64.toNat, (lockDelay.getD 0).toNat, 1⟩) := by
  unfold screenlockRowGsettings
  rcases lockEnabled with _ | _ | _
  · exact reports_unknown _ _ _ _
  · exact reports_no _ _ _ _
  · cases idleDelay with
    | none => exact reports_unknown _ _ _ _
    | some d =>
        have on : ∀ switch ∈ [some true], switch = some true := fun _ => List.mem_singleton.mp
        by_cases zero : d = 0
        · subst zero
          rw [Option.map_some, UInt64.toNat_zero, verdict_zero on]
          exact reports_no _ _ _ _
        · have positive : 0 < d := UInt64.pos_iff_ne_zero.mpr zero
          rw [Option.map_some, verdict_positive on (UInt64.lt_iff_toNat_lt.mp positive),
            Nat.mul_one]
          simp only [if_pos positive]
          rw [Option.getD_some] at fits
          refine computes_reports (add_computes _ _) fits checks fun total value => ?_
          rw [← value]
          exact reports_yes _ _ _ _

theorem screenlockRowMate_reports (idleActivation lockEnabled : Option Bool)
    (idleDelayMin lockDelayMin : Option UInt64)
    (fits : ((idleDelayMin.getD 0).toNat + (lockDelayMin.getD 0).toNat) * 60 < UInt64.size) :
    Reports (screenlockRowMate checks idleActivation lockEnabled idleDelayMin lockDelayMin)
      (IdleLock.verdict ⟨[idleActivation, lockEnabled], idleDelayMin.map UInt64.toNat,
        (lockDelayMin.getD 0).toNat, 60⟩) := by
  unfold screenlockRowMate
  cases idleDelayMin with
  | none =>
      rcases idleActivation with _ | _ | _ <;> rcases lockEnabled with _ | _ | _ <;>
        first
          | exact reports_unknown _ _ _ _
          | exact reports_no _ _ _ _
  | some d =>
      -- The product that no row reports fits where the reported one does.
      have factor : d.toNat * 60 < UInt64.size :=
        Nat.lt_of_le_of_lt (Nat.mul_le_mul_right 60 (Nat.le_add_right _ _)) fits
      obtain ⟨secs, product, _⟩ := (mul_computes d 60).exact factor checks
      simp only [Option.mapM_some, product]
      rcases idleActivation with _ | _ | _ <;> rcases lockEnabled with _ | _ | _
      case some.true.some.true =>
        have on : ∀ switch ∈ [some true, some true], switch = some true := by decide
        by_cases zero : d = 0
        · subst zero
          rw [Option.map_some, UInt64.toNat_zero, verdict_zero on]
          exact reports_no _ _ _ _
        · have positive : 0 < d := UInt64.pos_iff_ne_zero.mpr zero
          rw [Option.map_some, verdict_positive on (UInt64.lt_iff_toNat_lt.mp positive)]
          rw [Option.getD_some] at fits
          simp only [if_pos positive]
          refine computes_reports ((add_computes _ _).mul (b := 60) (by decide)) fits checks
            fun total value => ?_
          have seconds : total.toNat = (d.toNat + (lockDelayMin.getD 0).toNat) * 60 := value
          rw [← seconds]
          exact reports_yes _ _ _ _
      all_goals
        first
          | exact reports_unknown _ _ _ _
          | exact reports_no _ _ _ _

theorem screenlockRowXfceScreensaver_reports (saverEnabled idleActivation : Option Bool)
    (idleDelayMin : Option UInt64) (lockEnabled lockWithSaver : Option Bool)
    (lockDelayMin : Option UInt64)
    (fits : ((idleDelayMin.getD 5).toNat + (lockDelayMin.getD 0).toNat) * 60 < UInt64.size) :
    Reports (screenlockRowXfceScreensaver checks saverEnabled idleActivation idleDelayMin
        lockEnabled lockWithSaver lockDelayMin)
      (IdleLock.verdict ⟨[some (saverEnabled.getD true), some (idleActivation.getD true),
        some (lockEnabled.getD true), some (lockWithSaver.getD true)],
        some (idleDelayMin.getD 5).toNat, (lockDelayMin.getD 0).toNat, 60⟩) := by
  unfold screenlockRowXfceScreensaver
  refine computes_reports ((add_computes _ _).mul (b := 60) (by decide)) fits checks
    fun total value => ?_
  have seconds : total.toNat = ((idleDelayMin.getD 5).toNat + (lockDelayMin.getD 0).toNat) * 60 :=
    value
  by_cases allOn : saverEnabled.getD true = true ∧ idleActivation.getD true = true ∧
      lockEnabled.getD true = true ∧ lockWithSaver.getD true = true
  · obtain ⟨saver, activation, lock, withSaver⟩ := allOn
    have on : ∀ switch ∈ [some true, some true, some true, some true], switch = some true := by
      decide
    simp only [XfceDefaults.saverEnabled, XfceDefaults.idleActivationEnabled,
      XfceDefaults.lockEnabled, XfceDefaults.lockWithSaverEnabled, XfceDefaults.idleDelayMin,
      saver, activation, lock, withSaver, Bool.not_true, Bool.or_false, Bool.false_eq_true,
      if_false]
    by_cases zero : idleDelayMin.getD 5 = 0
    · rw [if_pos zero, zero, UInt64.toNat_zero, verdict_zero on]
      exact reports_no _ _ _ _
    · have positive : 0 < idleDelayMin.getD 5 := UInt64.pos_iff_ne_zero.mpr zero
      rw [if_neg zero, verdict_positive on (UInt64.lt_iff_toNat_lt.mp positive), ← seconds]
      exact reports_yes _ _ _ _
  · have off : some false ∈ [some (saverEnabled.getD true), some (idleActivation.getD true),
        some (lockEnabled.getD true), some (lockWithSaver.getD true)] ∧
        (!saverEnabled.getD true || !idleActivation.getD true || !lockEnabled.getD true ||
          !lockWithSaver.getD true) = true := by
      revert allOn
      cases saverEnabled.getD true <;> cases idleActivation.getD true <;>
        cases lockEnabled.getD true <;> cases lockWithSaver.getD true <;> decide
    unfold XfceDefaults.saverEnabled XfceDefaults.idleActivationEnabled XfceDefaults.lockEnabled
      XfceDefaults.lockWithSaverEnabled
    rw [if_pos off.2, verdict_off off.1]
    exact reports_no _ _ _ _

end Rows

end KlaayGuard
