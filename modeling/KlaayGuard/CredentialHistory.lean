/-
The credential stores over whole histories of saves, loads and restarts.

Values of different ages can sit in the keyring and in the fallback file at
once, and a load reads the file first.  That order is right because an accepted
save leaves no file that holds anything but the value it saved.
-/

import KlaayGuard.DeviceIdentity

set_option autoImplicit false

namespace KlaayGuard

open EffectProgram Prog

/-- A finished call on one of the two credentials, or a restart of the process. -/
inductive CredentialStep : Type where
  | saved (account : Account) (value : String) (events : List AgentEvent) (accepted : Bool)
  | loaded (account : Account) (events : List AgentEvent)
      (answer : Except String (Option String))
  | restarted

/-- A save is accepted when it returns `Ok`. -/
def CredentialStep.Takes (before : World) (step : CredentialStep) (after : World) : Prop :=
  match step with
  | saved .authToken value events accepted =>
      ∃ result, (saveToken value).Runs before events after result ∧ accepted = result.isOk
  | saved .deviceIdentity value events accepted =>
      ∃ result, (saveDeviceIdentity value).Runs before events after result ∧
        accepted = result.isOk
  | loaded .authToken events answer => loadToken.Runs before events after answer
  | loaded .deviceIdentity events answer => loadDeviceIdentity.Runs before events after answer
  | restarted => after = before.restart

abbrev CredentialHistory : World → List CredentialStep → World → Prop :=
  Trace CredentialStep.Takes

variable {account other : Account} {value : String} {before after : World}
variable {events : List AgentEvent}

/-- What a save leaves: the value where a load finds it first, or nothing new. -/
inductive SaveOutcome (account : Account) (value : String) (before : World) :
    Bool → World → Prop where
  | inKeyring :
      SaveOutcome account value before true
        ((before.setKeyring account (some value)).setFallbackFile account none)
  | inFile : SaveOutcome account value before true (before.setFallbackFile account (some value))
  | refused : SaveOutcome account value before false before

private theorem saveCredential_outcome {result : Except String CredentialStore}
    (run : (saveCredential account value).Runs before events after result) :
    SaveOutcome account value before result.isOk after := by
  rcases saveCredential_runs run with ⟨rfl, rfl, _⟩ | ⟨rfl, rfl, _⟩ | ⟨⟨e, rfl⟩, rfl, _⟩
  · exact .inKeyring
  · exact .inFile
  · exact .refused

private theorem saveDeviceIdentity_outcome {result : Except String Unit}
    (run : (saveDeviceIdentity value).Runs before events after result) :
    SaveOutcome .deviceIdentity value before result.isOk after := by
  obtain ⟨middle, saved, first, second, atSave, afterSave, rfl⟩ := runs_bind.mp run
  have outcome := saveCredential_outcome atSave
  cases saved with
  | error e =>
      obtain ⟨_, rfl, rfl⟩ := runs_done.mp afterSave
      exact outcome
  | ok _ =>
      obtain ⟨_, rfl, rfl⟩ := runs_done.mp afterSave
      exact outcome

theorem CredentialStep.saved_outcome {accepted : Bool}
    (taken : (saved account value events accepted).Takes before after) :
    SaveOutcome account value before accepted after := by
  cases account with
  | authToken =>
      obtain ⟨result, run, rfl⟩ := taken
      exact saveCredential_outcome run
  | deviceIdentity =>
      obtain ⟨result, run, rfl⟩ := taken
      exact saveDeviceIdentity_outcome run

theorem CredentialStep.loaded_runs {answer : Except String (Option String)}
    (taken : (loaded account events answer).Takes before after) :
    (load account).Runs before events after answer := by
  cases account with
  | authToken => exact taken
  | deviceIdentity => exact taken

theorem SaveOutcome.storedCredential (outcome : SaveOutcome account value before true after)
    (nonempty : value ≠ "") : after.storedCredential account = some value := by
  cases outcome with
  | inKeyring => simp [World.storedCredential]
  | inFile => simp [World.storedCredential, Option.filter, nonempty]

theorem SaveOutcome.storedCredential_of_ne {accepted : Bool}
    (outcome : SaveOutcome other value before accepted after) (differ : account ≠ other) :
    after.storedCredential account = before.storedCredential account := by
  cases outcome with
  | inKeyring =>
      simp only [World.storedCredential, World.setKeyring, World.setFallbackFile,
        Function.update_of_ne differ]
  | inFile =>
      simp only [World.storedCredential, World.setFallbackFile, Function.update_of_ne differ]
  | refused => rfl

theorem CredentialStep.storedCredential {step : CredentialStep}
    (taken : step.Takes before after)
    (unsaved : ∀ value events, step ≠ .saved account value events true) :
    after.storedCredential account = before.storedCredential account := by
  cases step with
  | restarted =>
      obtain rfl : after = before.restart := taken
      rfl
  | loaded other events answer =>
      obtain ⟨rfl, _⟩ := load_runs (loaded_runs taken)
      rfl
  | saved other value events accepted =>
      by_cases same : other = account
      · subst same
        have outcome := saved_outcome taken
        cases accepted with
        | true => exact absurd rfl (unsaved value events)
        | false =>
            cases outcome with
            | refused => rfl
      · exact (saved_outcome taken).storedCredential_of_ne (Ne.symm same)

/-- Every load after an accepted save returns the value of the last one, or an
error. -/
theorem load_returns_newest (start final : World) (account : Account)
    (earlier between later : List CredentialStep) (value : String)
    (saveEvents loadEvents : List AgentEvent) (answer : Except String (Option String))
    (history : CredentialHistory start
      (earlier ++ .saved account value saveEvents true ::
        (between ++ .loaded account loadEvents answer :: later)) final)
    (nonempty : value ≠ "")
    (newest : ∀ newer events, .saved account newer events true ∉ between) :
    answer = .ok (some value) ∨ ∃ e, answer = .error e := by
  obtain ⟨_, saved, _, atSave, since⟩ := history.split
  obtain ⟨_, _, untilLoad, atLoad, _⟩ := since.split
  have stored := (CredentialStep.saved_outcome atSave).storedCredential nonempty
  have kept := untilLoad.invariant
    (fun world => world.storedCredential account = some value)
    (fun step => ∀ newer events, step ≠ .saved account newer events true) (fun _ => True)
    (fun stored unsaved taken =>
      ⟨(CredentialStep.storedCredential taken unsaved).trans stored, trivial⟩)
    stored
    (fun step member newer events same => newest newer events (same ▸ member))
  obtain ⟨_, found | ⟨_, failed⟩⟩ := load_runs (CredentialStep.loaded_runs atLoad)
  · rw [kept.1] at found
    exact Or.inl found
  · exact Or.inr failed

/-! A keyring that is lost after a first save, and a third save that both stores
refuse. -/

private def inFileOnly : World :=
  ((World.firstStart.setKeyring .authToken (some "t1")).setFallbackFile .authToken
    none).setFallbackFile .authToken (some "t2")

private def savedInKeyring : CredentialStep :=
  .saved .authToken "t1" [⟨.openEntry .authToken, .ok ()⟩, ⟨.setPassword .authToken "t1", .ok ()⟩,
    ⟨.fileDelete .authToken, ()⟩] true

private def savedInFile : List AgentEvent :=
  [⟨.openEntry .authToken, .error "no service"⟩, ⟨.fileSave .authToken "t2", .ok ()⟩]

private def refusedSave : CredentialStep :=
  .saved .authToken "t3" [⟨.openEntry .authToken, .error "no service"⟩,
    ⟨.fileSave .authToken "t3", .error "disk full"⟩] false

private def outage (answer : Except String (Option String)) : List CredentialStep :=
  [savedInKeyring, .saved .authToken "t2" savedInFile true, refusedSave, .restarted,
    .loaded .authToken [⟨.fileRead .authToken, some "t2"⟩] answer]

/-- In this outage a load can only answer with the second value or an error, and it does answer
with the value. -/
theorem load_returns_newest_outage :
    (∀ answer final, CredentialHistory .firstStart (outage answer) final →
      answer = .ok (some "t2") ∨ ∃ e, answer = .error e) ∧
    ∃ final, CredentialHistory .firstStart (outage (.ok (some "t2"))) final := by
  constructor
  · intro answer final history
    refine load_returns_newest .firstStart final .authToken [savedInKeyring]
      [refusedSave, .restarted] [] "t2" savedInFile _ answer history (by decide) ?_
    intro newer events member
    simp [refusedSave] at member
  · have saved : savedInKeyring.Takes .firstStart _ :=
      ⟨_, .act rfl (.act rfl (.act rfl (.done _ _))), rfl⟩
    have fellBack : (CredentialStep.saved .authToken "t2" savedInFile true).Takes _ inFileOnly :=
      ⟨_, .act rfl (.act rfl (.done _ _)), rfl⟩
    have refused : refusedSave.Takes inFileOnly inFileOnly :=
      ⟨_, .act rfl (.act rfl (.done _ _)), rfl⟩
    have loaded : (CredentialStep.loaded .authToken [⟨.fileRead .authToken, some "t2"⟩]
        (.ok (some "t2"))).Takes inFileOnly.restart inFileOnly.restart :=
      .act ⟨rfl, rfl⟩ (.done _ _)
    exact ⟨_, .cons saved (.cons fellBack (.cons refused (.cons rfl (.cons loaded (.nil _)))))⟩

end KlaayGuard
