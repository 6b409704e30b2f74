/-
Policy wins over the user's own screen-saver values, value by value.

A value the policy sets is the only one that counts, whether or not it parses;
a value it leaves unset is the user's.  So a policy and the user's values answer
as one merged key would on its own.
-/

import KlaayGuard.WindowsScreenLock

set_option autoImplicit false

namespace KlaayGuard

open RustIter

namespace ScreenSaverValues

def unset : ScreenSaverValues :=
  { active := none, secure := none, timeoutSeconds := none, exe := none }

/-- The raw texts in force: the policy's where it sets one, else the user's. -/
def overlay (policy preference : ScreenSaverValues) : ScreenSaverValues :=
  { active := policy.active.or preference.active
    secure := policy.secure.or preference.secure
    timeoutSeconds := policy.timeoutSeconds.or preference.timeoutSeconds
    exe := policy.exe.or preference.exe }

/-- Two keys agree on every value the policy leaves unset. -/
structure AgreeBelow (policy preference other : ScreenSaverValues) : Prop where
  active : policy.active = none → other.active = preference.active
  secure : policy.secure = none → other.secure = preference.secure
  timeoutSeconds : policy.timeoutSeconds = none →
    other.timeoutSeconds = preference.timeoutSeconds
  exe : policy.exe = none → other.exe = preference.exe

@[simp] theorem overlay_unset (values : ScreenSaverValues) : values.overlay unset = values := by
  simp [overlay, unset]

@[simp] theorem unset_overlay (values : ScreenSaverValues) : unset.overlay values = values := by
  simp [overlay, unset]

end ScreenSaverValues

open ScreenSaverValues

section OneValue

variable {α : Type} {field : ScreenSaverValues → Option String}
variable {parse : Option String → Option α} {policy preference other : ScreenSaverValues}

private theorem firstSet_agree (agree : field policy = none → field other = field preference) :
    firstSet field parse [("user_policy", policy), ("user", other)] =
      firstSet field parse [("user_policy", policy), ("user", preference)] := by
  simp only [firstSet]
  cases set : field policy with
  | some raw => rfl
  | none => rw [agree set]

private theorem firstSet_value :
    (firstSet field parse [("user_policy", policy), ("user", preference)]).value =
      ((field policy).or (field preference)).bind fun raw => parse (some raw) := by
  rw [firstSet]
  cases field policy with
  | some raw => rfl
  | none =>
      dsimp only
      rw [firstSet]
      cases field preference with
      | some raw => rfl
      | none => rfl

private theorem firstSet_source :
    (firstSet field parse [("user_policy", policy), ("user", preference)]).source =
      if (field policy).isSome then "user_policy"
      else if (field preference).isSome then "user" else "none" := by
  rw [firstSet]
  cases field policy with
  | some raw => rfl
  | none =>
      dsimp only
      rw [firstSet]
      cases field preference with
      | some raw => rfl
      | none => rfl

private theorem firstSet_source_none (unset : (field policy).or (field preference) = none) :
    (firstSet field parse [("user_policy", policy), ("user", preference)]).source = "none" := by
  rw [Option.or_eq_none_iff] at unset
  rw [firstSet_source, unset.1, unset.2]
  rfl

private theorem firstSet_source_rank :
    2 ≤ sourceRank (firstSet field parse [("user_policy", policy), ("user", preference)]).source ↔
      (field policy).or (field preference) = none := by
  rw [firstSet_source]
  cases field policy with
  | some raw => simp [sourceRank]
  | none =>
      cases field preference with
      | some raw => simp [sourceRank]
      | none => simp [sourceRank]

end OneValue

variable {inputs other : WindowsScreenLockInputs}

private def namedSource (inputs : WindowsScreenLockInputs) : String :=
  let ranked := [("user_policy", inputs.userPolicy), ("user", inputs.userPreference)]
  (minByKey sourceRank
    [(firstSet ScreenSaverValues.active parseRegSzBool ranked).source,
      (firstSet ScreenSaverValues.secure parseRegSzBool ranked).source,
      (firstSet ScreenSaverValues.timeoutSeconds parseRegSzU64 ranked).source,
      (firstSet ScreenSaverValues.exe parseRegSzPath ranked).source]).getD "none"

private theorem namedSource_eq_none :
    namedSource inputs = "none" ↔ inputs.userPolicy.overlay inputs.userPreference = unset := by
  rw [namedSource]
  constructor
  · intro silent
    obtain ⟨best, found⟩ := Option.ne_none_iff_exists'.mp
      (mt minByKey_eq_none.mp (List.cons_ne_nil _ _) :
        minByKey sourceRank _ ≠ none)
    rw [found, Option.getD_some] at silent
    have lowest := (minByKey_spec found).2
    simp only [silent, List.forall_mem_cons] at lowest
    obtain ⟨active, secure, timeout, exe, _⟩ := lowest
    rw [overlay, unset, ScreenSaverValues.mk.injEq]
    exact ⟨firstSet_source_rank.mp active, firstSet_source_rank.mp secure,
      firstSet_source_rank.mp timeout, firstSet_source_rank.mp exe⟩
  · intro nothing
    obtain ⟨active, secure, timeout, exe⟩ := ScreenSaverValues.mk.inj nothing
    simp only [firstSet_source_none, active, secure, timeout, exe]
    rfl

private def saverAnswer (silent : Bool) (active secure : Option Bool) (timeout : Option Nat)
    (exe : Option String) : Option Bool × Option Nat :=
  if silent then (some false, none)
  else if active = some false ∨ secure = some false then (some false, timeout)
  else if timeout = some 0 then (some false, some 0)
  else
    match active, secure, timeout with
    | some true, some true, some t => (some (exe ≠ none), some t)
    | _, _, _ => (none, timeout)

private theorem screensaverLockVerdict_answer (inputs : WindowsScreenLockInputs) :
    ((screensaverLockVerdict inputs).locks, (screensaverLockVerdict inputs).delaySeconds) =
      let ranked := [("user_policy", inputs.userPolicy), ("user", inputs.userPreference)]
      saverAnswer (namedSource inputs = "none")
        (firstSet ScreenSaverValues.active parseRegSzBool ranked).value
        (firstSet ScreenSaverValues.secure parseRegSzBool ranked).value
        (firstSet ScreenSaverValues.timeoutSeconds parseRegSzU64 ranked).value
        (firstSet ScreenSaverValues.exe parseRegSzPath ranked).value := by
  unfold screensaverLockVerdict saverAnswer namedSource
  dsimp only
  simp only [decide_eq_true_eq]
  split
  · rfl
  · split
    · rfl
    · split
      · rfl
      · rename_i running
        generalize (firstSet ScreenSaverValues.active _ _).value = active at running ⊢
        generalize (firstSet ScreenSaverValues.secure _ _).value = secure at running ⊢
        generalize (firstSet ScreenSaverValues.timeoutSeconds _ _).value = timeout
        generalize (firstSet ScreenSaverValues.exe _ _).value = exe
        rcases active with _ | _ | _
        · rfl
        · rfl
        · rcases secure with _ | _ | _
          · rfl
          · rfl
          · rcases timeout with _ | secs
            · rfl
            · cases exe with
              | none => rfl
              | some _ => rfl

private theorem screensaverLockVerdict_congr
    (same : other.userPolicy.overlay other.userPreference =
      inputs.userPolicy.overlay inputs.userPreference) :
    (screensaverLockVerdict other).locks = (screensaverLockVerdict inputs).locks ∧
      (screensaverLockVerdict other).delaySeconds =
        (screensaverLockVerdict inputs).delaySeconds := by
  obtain ⟨active, secure, timeout, exe⟩ := ScreenSaverValues.mk.inj same
  have named : namedSource other = "none" ↔ namedSource inputs = "none" := by
    rw [namedSource_eq_none, namedSource_eq_none, same]
  apply Prod.mk.inj
  rw [screensaverLockVerdict_answer, screensaverLockVerdict_answer]
  simp only [firstSet_value, active, secure, timeout, exe, named]

/-- Two verdicts give the same answer, whatever source and detail they name. -/
def LockVerdict.SameAnswer (verdict other : LockVerdict) : Prop :=
  other.locks = verdict.locks ∧ other.delaySeconds = verdict.delaySeconds

/-- Where the policy sets a value the user's own makes no difference to the row, and policy and
preference answer as the one key holding the texts in force does by itself. -/
theorem policy_wins_per_value (inputs : WindowsScreenLockInputs) :
    (∀ preference, inputs.userPolicy.AgreeBelow inputs.userPreference preference →
      windowsScreenlockRow { inputs with userPreference := preference } =
        windowsScreenlockRow inputs) ∧
    let merged := inputs.userPolicy.overlay inputs.userPreference
    (screensaverLockVerdict inputs).SameAnswer (screensaverLockVerdict
      { inputs with userPolicy := merged, userPreference := unset }) ∧
    (screensaverLockVerdict inputs).SameAnswer (screensaverLockVerdict
      { inputs with userPolicy := unset, userPreference := merged }) := by
  refine ⟨fun preference agree => ?_, ?_, ?_⟩
  · have saver : screensaverLockVerdict { inputs with userPreference := preference } =
        screensaverLockVerdict inputs := by
      unfold screensaverLockVerdict
      dsimp only
      rw [firstSet_agree agree.active, firstSet_agree agree.secure,
        firstSet_agree agree.timeoutSeconds, firstSet_agree agree.exe]
    rw [windowsScreenlockRow, windowsScreenlockRow, saver]
  · exact screensaverLockVerdict_congr (overlay_unset _)
  · exact screensaverLockVerdict_congr (unset_overlay _)

/-- A policy timeout that does not parse is not passed over for the user's own. -/
theorem policy_wins_per_value_unparsed :
    let managed : WindowsScreenLockInputs :=
      { inactivityTimeoutSecs := none
        userPolicy := { unset with secure := some "1", timeoutSeconds := some "ten" }
        userPreference := ⟨some "1", some "0", some "600", some "scrnsave.scr"⟩
        power := ⟨none, none, none, none, none, none, none, none, none, none, none, none⟩ }
    windowsScreenlockRow { managed with
      userPreference := ⟨some "1", some "1", some "60", some "scrnsave.scr"⟩ } =
      windowsScreenlockRow managed := by
  refine (policy_wins_per_value _).1 _ ?_
  exact ⟨fun _ => rfl, nofun, nofun, fun _ => rfl⟩

end KlaayGuard
