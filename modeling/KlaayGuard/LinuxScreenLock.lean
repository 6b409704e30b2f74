/-
The Linux screen-lock rows that add two delays: GNOME and Cinnamon, MATE, and the
two XFCE lockers.

The numbers are what gsettings, xfconf, an autostart entry or `xset q` say, any
`u64` at all.  A row whose sum does not fit panics in a build with overflow checks,
and reports the wrapped sum in a build without them.
-/

import KlaayGuard.Library.RustInt
import KlaayGuard.Library.RustText
import KlaayGuard.ScreenLockRow

set_option autoImplicit false

namespace KlaayGuard

open RustInt RustText

def parseGsettingsBool (out : List Char) : Option Bool :=
  match String.ofList (trim out) with
  | "true" => some true
  | "false" => some false
  | _ => none

def parseGsettingsUint (out : List Char) : Option UInt64 :=
  ((trim out).splitOnP isWhitespace).getLast?.bind parseUInt64

def parseXsetTimeout (text : List Char) : Option UInt64 :=
  ((lines text).findSome? fun line => stripPrefix "timeout:".toList (trim line)).bind fun rest =>
    (splitWhitespace rest).head?.bind parseUInt64

def lightLockerDefaultLockAfter : UInt64 := 5

/-- The command of the entry, unless a line hides it; the last `Exec=` line counts. -/
def lightLockerExec (exec : Option (List Char)) : List (List Char) → Option (List Char)
  | [] => exec
  | raw :: rest =>
      let line := trim raw
      let hidden := (stripPrefix "Hidden=".toList line).any fun v =>
        eqIgnoreAsciiCase (trim v) "true".toList
      if hidden then none
      else lightLockerExec (((stripPrefix "Exec=".toList line).map trim).or exec) rest

def parseLightLockerAutostart (text : List Char) : Option UInt64 :=
  (lightLockerExec none (lines text)).map fun exec =>
    (((splitWhitespace exec).findSome? (stripPrefix "--lock-after-screensaver=".toList)).bind
      parseUInt64).getD lightLockerDefaultLockAfter

def screenlockRowGsettings (checks : OverflowChecks) (de : String) (lockEnabled : Option Bool)
    (idleDelay lockDelay : Option UInt64) : Option Value :=
  let extra := lockDelay.getD 0
  match lockEnabled, idleDelay with
  | some true, some d =>
      if 0 < d then
        (add checks d extra).map fun delay =>
          screenlockRow de "yes" (some delay.toNat) "gsettings"
            ("lock-enabled=true, idle-delay=" ++ toString d ++ ", lock-delay=" ++ toString extra)
      else
        some (screenlockRow de "no" (some 0) "gsettings"
          "lock enabled but idle-delay=0, so it never triggers")
  | some false, _ =>
      some (screenlockRow de "no" (idleDelay.map UInt64.toNat) "gsettings" "lock-enabled=false")
  | _, _ =>
      some (screenlockRow de "unknown" (idleDelay.map UInt64.toNat) "gsettings"
        "gsettings unavailable")

def screenlockRowGnome (checks : OverflowChecks) (lockEnabled : Option Bool)
    (idleDelay lockDelay : Option UInt64) : Option Value :=
  screenlockRowGsettings checks "gnome" lockEnabled idleDelay lockDelay

def screenlockRowMate (checks : OverflowChecks) (idleActivation lockEnabled : Option Bool)
    (idleDelayMin lockDelayMin : Option UInt64) : Option Value :=
  let extra := lockDelayMin.getD 0
  -- The product is taken before anything says whether it will be reported.
  (idleDelayMin.mapM fun m => mul checks m 60).bind fun secs =>
    match idleActivation, lockEnabled, idleDelayMin with
    | some true, some true, some d =>
        if 0 < d then
          ((add checks d extra).bind (mul checks · 60)).map fun delay =>
            screenlockRow "mate" "yes" (some delay.toNat) "gsettings"
              ("idle-activation-enabled=true, lock-enabled=true, idle-delay=" ++ toString d ++
                "min, lock-delay=" ++ toString extra ++ "min")
        else
          some (screenlockRow "mate" "no" (some 0) "gsettings"
            "lock enabled but idle-delay=0, so it never triggers")
    | some false, _, _ =>
        some (screenlockRow "mate" "no" (secs.map UInt64.toNat) "gsettings"
          "idle-activation-enabled=false")
    | _, some false, _ =>
        some (screenlockRow "mate" "no" (secs.map UInt64.toNat) "gsettings" "lock-enabled=false")
    | _, _, _ =>
        some (screenlockRow "mate" "unknown" (secs.map UInt64.toNat) "gsettings"
          "gsettings unavailable")

namespace XfceDefaults

def saverEnabled : Bool := true
def idleActivationEnabled : Bool := true
def idleDelayMin : UInt64 := 5
def lockEnabled : Bool := true
def lockWithSaverEnabled : Bool := true
def lockWithSaverDelayMin : UInt64 := 0

end XfceDefaults

def screenlockRowXfceScreensaver (checks : OverflowChecks)
    (saverEnabled idleActivation : Option Bool) (idleDelayMin : Option UInt64)
    (lockEnabled lockWithSaver : Option Bool) (lockDelayMin : Option UInt64) : Option Value :=
  let saver := saverEnabled.getD XfceDefaults.saverEnabled
  let idleAct := idleActivation.getD XfceDefaults.idleActivationEnabled
  let idle := idleDelayMin.getD XfceDefaults.idleDelayMin
  let lock := lockEnabled.getD XfceDefaults.lockEnabled
  let lockSaver := lockWithSaver.getD XfceDefaults.lockWithSaverEnabled
  let grace := lockDelayMin.getD XfceDefaults.lockWithSaverDelayMin
  let detail := "saver=" ++ toString saver ++ ", idle-activation=" ++ toString idleAct ++
    ", idle-delay=" ++ toString idle ++ "min, lock=" ++ toString lock ++
    ", lock-on-saver=" ++ toString lockSaver ++ ", lock-delay=" ++ toString grace ++ "min"
  ((add checks idle grace).bind (mul checks · 60)).map fun total =>
    if !saver || !idleAct || !lock || !lockSaver then
      screenlockRow "xfce" "no" (some total.toNat) "xfce4-screensaver" detail
    else if idle = 0 then
      screenlockRow "xfce" "no" (some 0) "xfce4-screensaver"
        (detail ++ "; idle-delay=0, so it never triggers")
    else screenlockRow "xfce" "yes" (some total.toNat) "xfce4-screensaver" detail

def screenlockRowLightLocker (checks : OverflowChecks)
    (lockAfterScreensaver blankTimeout : Option UInt64) : Option Value :=
  let detail := "lock-after-screensaver=" ++ fmtOpt lockAfterScreensaver ++
    ", X blank timeout=" ++ fmtOpt blankTimeout
  match lockAfterScreensaver, blankTimeout with
  | none, _ =>
      some (screenlockRow "xfce" "no" none "light-locker"
        (detail ++ "; the autostart entry is disabled"))
  | _, none =>
      some (screenlockRow "xfce" "unknown" none "light-locker"
        (detail ++ "; xset gave no timeout"))
  | some after, some blank =>
      if blank = 0 then
        some (screenlockRow "xfce" "no" (some 0) "light-locker"
          (detail ++ "; X never blanks, so the lock never fires"))
      else
        (add checks blank after).map fun delay =>
          screenlockRow "xfce" "yes" (some delay.toNat) "light-locker" detail

/-! ### Exact delays -/

/-- The row is built without an overflow, and a "yes" reports exactly `sum`, which is positive. -/
structure ExactDelay (row : OverflowChecks → Option Value) (sum : Nat) : Prop where
  noOverflow : row .on ≠ none
  exact : ∀ checks answer, row checks = some answer → rowEnabled answer = some "yes" →
    rowDelaySeconds answer = some sum ∧ 0 < sum

private theorem ExactDelay.quiet {answer : Value} (sum : Nat)
    (quiet : rowEnabled answer ≠ some "yes") : ExactDelay (fun _ => some answer) sum where
  noOverflow := nofun
  exact := by
    intro checks other same yes
    rw [← Option.some.inj same] at yes
    exact absurd yes quiet

private theorem exactDelay_map_iff {arith : OverflowChecks → Option UInt64} {n sum : Nat}
    (computes : Computes arith n) {rowOf : UInt64 → Value}
    (reports : ∀ total, total.toNat = n → rowEnabled (rowOf total) = some "yes" →
      rowDelaySeconds (rowOf total) = some sum ∧ 0 < sum) :
    ExactDelay (fun checks => (arith checks).map rowOf) sum ↔ n < UInt64.size := by
  rw [← computes.fits_iff]
  constructor
  · intro exact missing
    exact exact.noOverflow (by rw [missing]; rfl)
  · intro returns
    refine ⟨mt Option.map_eq_none_iff.mp returns, ?_⟩
    intro checks answer row yes
    obtain ⟨total, returned, value⟩ := computes.exact (computes.fits_iff.mp returns) checks
    rw [returned] at row
    obtain rfl := Option.some.inj row
    exact reports total value yes

private theorem positive_iff {word : UInt64} : 0 < word ↔ 0 < word.toNat :=
  UInt64.lt_iff_toNat_lt

private theorem toNat_pos {word : UInt64} (nonzero : word ≠ 0) : 0 < word.toNat :=
  Nat.pos_of_ne_zero fun zero => nonzero (UInt64.toNat_inj.mp zero)

private theorem gsettings_exact_iff (de : String) (lockEnabled : Option Bool)
    (idleDelay lockDelay : Option UInt64) :
    ExactDelay (fun checks => screenlockRowGsettings checks de lockEnabled idleDelay lockDelay)
        ((idleDelay.getD 0).toNat + (lockDelay.getD 0).toNat) ↔
      (lockEnabled = some true →
        (idleDelay.getD 0).toNat + (lockDelay.getD 0).toNat < UInt64.size) := by
  unfold screenlockRowGsettings
  dsimp only
  have extraFits := (lockDelay.getD 0).toNat_lt_size
  match lockEnabled, idleDelay with
  | some true, some d =>
      by_cases positive : 0 < d
      · simp only [if_pos positive, true_implies, Option.getD_some]
        refine exactDelay_map_iff (add_computes _ _) ?_
        intro total value _
        rw [rowDelaySeconds_screenlockRow, value]
        exact ⟨rfl, Nat.add_pos_left (positive_iff.mp positive) _⟩
      · have zero : d.toNat = 0 := Nat.eq_zero_of_not_pos (mt positive_iff.mpr positive)
        simp only [if_neg positive, true_implies, Option.getD_some, zero, Nat.zero_add]
        exact iff_of_true (.quiet _ (by simp)) extraFits
  | some true, none =>
      simp only [true_implies, Option.getD_none, UInt64.toNat_zero, Nat.zero_add]
      exact iff_of_true (.quiet _ (by simp)) extraFits
  | some false, _ => exact iff_of_true (.quiet _ (by simp)) nofun
  | none, _ => exact iff_of_true (.quiet _ (by simp)) nofun

private theorem xfce_exact_iff (saverEnabled idleActivation : Option Bool)
    (idleDelayMin : Option UInt64) (lockEnabled lockWithSaver : Option Bool)
    (lockDelayMin : Option UInt64) :
    ExactDelay (fun checks => screenlockRowXfceScreensaver checks saverEnabled idleActivation
        idleDelayMin lockEnabled lockWithSaver lockDelayMin)
        (((idleDelayMin.getD 5).toNat + (lockDelayMin.getD 0).toNat) * 60) ↔
      ((idleDelayMin.getD 5).toNat + (lockDelayMin.getD 0).toNat) * 60 < UInt64.size := by
  unfold screenlockRowXfceScreensaver
  dsimp only
  refine exactDelay_map_iff ((add_computes _ _).mul (b := 60) (by decide)) ?_
  intro total value yes
  split at yes
  · simp at yes
  · split at yes
    · simp at yes
    · rename_i on positive
      rw [if_neg on, if_neg positive, rowDelaySeconds_screenlockRow, value]
      refine ⟨rfl, Nat.mul_pos (Nat.add_pos_left ?_ _) (by decide)⟩
      exact toNat_pos positive

private theorem lightLocker_exact_iff (lockAfterScreensaver blankTimeout : Option UInt64) :
    ExactDelay (fun checks => screenlockRowLightLocker checks lockAfterScreensaver blankTimeout)
        ((blankTimeout.getD 0).toNat + (lockAfterScreensaver.getD 0).toNat) ↔
      (blankTimeout.getD 0).toNat + (lockAfterScreensaver.getD 0).toNat < UInt64.size := by
  unfold screenlockRowLightLocker
  dsimp only
  match lockAfterScreensaver, blankTimeout with
  | none, blank => exact iff_of_true (.quiet _ (by simp)) (blank.getD 0).toNat_lt_size
  | some after, none =>
      refine iff_of_true (.quiet _ (by simp)) ?_
      exact (Nat.zero_add _).trans_lt after.toNat_lt_size
  | some after, some blank =>
      by_cases zero : blank = 0
      · subst zero
        refine iff_of_true (.quiet _ (by simp)) ?_
        exact (Nat.zero_add _).trans_lt after.toNat_lt_size
      · simp only [if_neg zero]
        refine exactDelay_map_iff (add_computes _ _) ?_
        intro total value _
        rw [rowDelaySeconds_screenlockRow, value]
        refine ⟨rfl, Nat.add_pos_left ?_ _⟩
        exact toNat_pos zero

private theorem mate_locking (checks : OverflowChecks) {d : UInt64} (positive : 0 < d)
    (lockDelayMin : Option UInt64) :
    screenlockRowMate checks (some true) (some true) (some d) lockDelayMin =
      ((mul checks d 60).bind fun _ =>
        (add checks d (lockDelayMin.getD 0)).bind (mul checks · 60)).map fun delay =>
          screenlockRow "mate" "yes" (some delay.toNat) "gsettings"
            ("idle-activation-enabled=true, lock-enabled=true, idle-delay=" ++ toString d ++
              "min, lock-delay=" ++ toString (lockDelayMin.getD 0) ++ "min") := by
  unfold screenlockRowMate
  simp only [if_pos positive, Option.mapM_some]
  cases mul checks d 60 with
  | none => rfl
  | some secs => rfl

private def mateQuietRow (idleActivation lockEnabled : Option Bool) (secs : UInt64) : Value :=
  match idleActivation, lockEnabled with
  | some true, some true =>
      screenlockRow "mate" "no" (some 0) "gsettings"
        "lock enabled but idle-delay=0, so it never triggers"
  | some false, _ =>
      screenlockRow "mate" "no" (some secs.toNat) "gsettings" "idle-activation-enabled=false"
  | _, some false => screenlockRow "mate" "no" (some secs.toNat) "gsettings" "lock-enabled=false"
  | _, _ => screenlockRow "mate" "unknown" (some secs.toNat) "gsettings" "gsettings unavailable"

private theorem mateQuietRow_enabled (idleActivation lockEnabled : Option Bool) (secs : UInt64) :
    rowEnabled (mateQuietRow idleActivation lockEnabled secs) ≠ some "yes" := by
  rcases idleActivation with _ | _ | _ <;> rcases lockEnabled with _ | _ | _ <;>
    simp [mateQuietRow]

private theorem mate_quiet (checks : OverflowChecks) {idleActivation lockEnabled : Option Bool}
    {d : UInt64} (idle : idleActivation = some true → lockEnabled = some true → ¬ 0 < d)
    (lockDelayMin : Option UInt64) :
    screenlockRowMate checks idleActivation lockEnabled (some d) lockDelayMin =
      (mul checks d 60).map (mateQuietRow idleActivation lockEnabled) := by
  unfold screenlockRowMate
  rw [Option.mapM_some]
  rcases idleActivation with _ | _ | _ <;> rcases lockEnabled with _ | _ | _
  case some.true.some.true =>
    simp only [if_neg (idle rfl rfl)]
    cases mul checks d 60 with
    | none => rfl
    | some secs => rfl
  all_goals
    cases mul checks d 60 with
    | none => rfl
    | some secs => rfl

private theorem mate_exact_iff (idleActivation lockEnabled : Option Bool)
    (idleDelayMin lockDelayMin : Option UInt64) :
    ExactDelay (fun checks =>
        screenlockRowMate checks idleActivation lockEnabled idleDelayMin lockDelayMin)
        (((idleDelayMin.getD 0).toNat + (lockDelayMin.getD 0).toNat) * 60) ↔
      (idleDelayMin.getD 0).toNat * 60 < UInt64.size ∧
        (idleActivation = some true → lockEnabled = some true → 0 < idleDelayMin.getD 0 →
          ((idleDelayMin.getD 0).toNat + (lockDelayMin.getD 0).toNat) * 60 < UInt64.size) := by
  cases idleDelayMin with
  | none =>
      refine iff_of_true ?_ ⟨by decide, nofun⟩
      rcases idleActivation with _ | _ | _ <;> rcases lockEnabled with _ | _ | _ <;>
        exact .quiet _ (by simp)
  | some d =>
      simp only [Option.getD_some]
      have smaller : d.toNat * 60 ≤ (d.toNat + (lockDelayMin.getD 0).toNat) * 60 :=
        Nat.mul_le_mul_right 60 (Nat.le_add_right _ _)
      by_cases locking : idleActivation = some true ∧ lockEnabled = some true ∧ 0 < d
      · obtain ⟨rfl, rfl, positive⟩ := locking
        have sum : Computes
            (fun checks => (add checks d (lockDelayMin.getD 0)).bind (mul checks · 60))
            ((d.toNat + (lockDelayMin.getD 0).toNat) * 60) :=
          (add_computes _ _).mul (b := 60) (by decide)
        simp only [mate_locking _ positive, true_implies, positive]
        rw [exactDelay_map_iff (sum.after (mul_computes d 60) smaller)]
        · exact ⟨fun fits => ⟨Nat.lt_of_le_of_lt smaller fits, fits⟩, fun fits => fits.2⟩
        · intro total value _
          rw [rowDelaySeconds_screenlockRow, value]
          exact ⟨rfl, Nat.mul_pos (Nat.add_pos_left (positive_iff.mp positive) _) (by decide)⟩
      · have idle : idleActivation = some true → lockEnabled = some true → ¬ 0 < d :=
          fun activates locks positive => locking ⟨activates, locks, positive⟩
        simp only [mate_quiet _ idle]
        rw [exactDelay_map_iff (mul_computes d 60)]
        · refine ⟨fun fits => ⟨fits, fun activates locks positive => ?_⟩, fun fits => fits.1⟩
          exact absurd positive (idle activates locks)
        · intro total _ yes
          exact absurd yes (mateQuietRow_enabled _ _ _)

inductive DelayRow : Type where
  | gsettings (de : String) (lockEnabled : Option Bool) (idleDelay lockDelay : Option UInt64)
  | mate (idleActivation lockEnabled : Option Bool) (idleDelayMin lockDelayMin : Option UInt64)
  | xfceScreensaver (saverEnabled idleActivation : Option Bool) (idleDelayMin : Option UInt64)
      (lockEnabled lockWithSaver : Option Bool) (lockDelayMin : Option UInt64)
  | lightLocker (lockAfterScreensaver blankTimeout : Option UInt64)

namespace DelayRow

def row : DelayRow → OverflowChecks → Option Value
  | gsettings de lockEnabled idleDelay lockDelay, checks =>
      screenlockRowGsettings checks de lockEnabled idleDelay lockDelay
  | mate idleActivation lockEnabled idleDelayMin lockDelayMin, checks =>
      screenlockRowMate checks idleActivation lockEnabled idleDelayMin lockDelayMin
  | xfceScreensaver saverEnabled idleActivation idleDelayMin lockEnabled lockWithSaver lockDelayMin,
      checks =>
      screenlockRowXfceScreensaver checks saverEnabled idleActivation idleDelayMin lockEnabled
        lockWithSaver lockDelayMin
  | lightLocker lockAfterScreensaver blankTimeout, checks =>
      screenlockRowLightLocker checks lockAfterScreensaver blankTimeout

def sum : DelayRow → Nat
  | gsettings _ _ idleDelay lockDelay => (idleDelay.getD 0).toNat + (lockDelay.getD 0).toNat
  | mate _ _ idleDelayMin lockDelayMin =>
      ((idleDelayMin.getD 0).toNat + (lockDelayMin.getD 0).toNat) * 60
  | xfceScreensaver _ _ idleDelayMin _ _ lockDelayMin =>
      ((idleDelayMin.getD 5).toNat + (lockDelayMin.getD 0).toNat) * 60
  | lightLocker lockAfterScreensaver blankTimeout =>
      (blankTimeout.getD 0).toNat + (lockAfterScreensaver.getD 0).toNat

/-- The numbers the row takes fit.  MATE turns its idle delay into seconds, and XFCE its whole sum,
before anything says whether they lock. -/
def Fits : DelayRow → Prop
  | row@(gsettings _ lockEnabled _ _) => lockEnabled = some true → row.sum < UInt64.size
  | row@(mate idleActivation lockEnabled idleDelayMin _) =>
      (idleDelayMin.getD 0).toNat * 60 < UInt64.size ∧
        (idleActivation = some true → lockEnabled = some true → 0 < idleDelayMin.getD 0 →
          row.sum < UInt64.size)
  | row@(xfceScreensaver ..) => row.sum < UInt64.size
  | row@(lightLocker ..) => row.sum < UInt64.size

end DelayRow

/-- Each row is exact precisely where the numbers it takes fit a `u64`. -/
theorem linux_delay_exact_iff (delayRow : DelayRow) :
    ExactDelay delayRow.row delayRow.sum ↔ delayRow.Fits := by
  cases delayRow with
  | gsettings de lockEnabled idleDelay lockDelay =>
      exact gsettings_exact_iff de lockEnabled idleDelay lockDelay
  | mate idleActivation lockEnabled idleDelayMin lockDelayMin =>
      exact mate_exact_iff idleActivation lockEnabled idleDelayMin lockDelayMin
  | xfceScreensaver saverEnabled idleActivation idleDelayMin lockEnabled lockWithSaver
      lockDelayMin =>
      exact xfce_exact_iff saverEnabled idleActivation idleDelayMin lockEnabled lockWithSaver
        lockDelayMin
  | lightLocker lockAfterScreensaver blankTimeout =>
      exact lightLocker_exact_iff lockAfterScreensaver blankTimeout

/-- An autostart entry that asks for the longest delay: the checked build panics, and the other
one reports a lock within ten minutes. -/
theorem linux_delay_wraps :
    let after := parseLightLockerAutostart
      "Exec=light-locker --lock-after-screensaver=18446744073709551615".toList
    let blank := parseXsetTimeout "  timeout:  600    cycle:  600".toList
    ¬ ExactDelay (DelayRow.lightLocker after blank).row (DelayRow.lightLocker after blank).sum ∧
      screenlockRowLightLocker .on after blank = none ∧
      (screenlockRowLightLocker .off after blank).bind rowEnabled = some "yes" ∧
      (screenlockRowLightLocker .off after blank).bind rowDelaySeconds = some 599 := by
  have after : parseLightLockerAutostart
      "Exec=light-locker --lock-after-screensaver=18446744073709551615".toList =
        some 18446744073709551615 := by
    decide +kernel
  have blank : parseXsetTimeout "  timeout:  600    cycle:  600".toList = some 600 := by
    decide +kernel
  rw [after, blank]
  have panics : screenlockRowLightLocker .on (some 18446744073709551615) (some 600) = none := by
    decide +kernel
  refine ⟨fun exact => exact.noOverflow panics, panics, ?_, ?_⟩
  · decide +kernel
  · decide +kernel

end KlaayGuard
