/-
The credential stores: the keyring first, a user-only file as the fallback.

Every keyring call may fail on its own, so the law of each operation is about
every run of it.  A sign out that the keyring confirms leaves no token behind;
one that the keyring neither confirms nor denies still answers `Ok`, because
the code counts a refused delete as a failure only when the token is provably
still stored.
-/

import KlaayGuard.Effects
import KlaayGuard.Library.Trace

set_option autoImplicit false

namespace KlaayGuard

open EffectProgram Prog

inductive CredentialStore : Type where
  | keyring
  | file
  deriving DecidableEq, Repr

def keyringSet (account : Account) (value : String) : Program (Except String Unit) := do
  match ← openEntry account with
  | .error e => pure (.error ("keychain new entry error: " ++ e))
  | .ok _ =>
      match ← setPassword account value with
      | .error e => pure (.error ("set_password error: " ++ e))
      | .ok _ => pure (.ok ())

def keyringGet (account : Account) : Program (Except String (Option String)) := do
  match ← openEntry account with
  | .error e => pure (.error ("keychain new entry error: " ++ e))
  | .ok _ =>
      match ← getPassword account with
      | .ok p => pure (.ok (some p))
      | .error .noEntry => pure (.ok none)
      | .error (.other e) => pure (.error ("get_password error: " ++ e))

def fileLoad (account : Account) : Program (Option String) := do
  let contents ← fileRead account
  pure (contents.filter (· ≠ ""))

/-- `save_token` and `save_device_identity` are this function of their account. -/
def saveCredential (account : Account) (value : String) :
    Program (Except String CredentialStore) := do
  match ← keyringSet account value with
  | .ok _ =>
      -- The keyring works; drop any stale fallback copy.
      fileDelete account
      pure (.ok .keyring)
  | .error e =>
      match ← fileSave account value with
      | .error fe =>
          pure (.error ("keyring failed (" ++ e ++ "); file fallback failed (" ++ fe ++ ")"))
      | .ok _ => pure (.ok .file)

def saveToken (token : String) : Program (Except String CredentialStore) :=
  saveCredential .authToken token

def saveDeviceIdentity (id : String) : Program (Except String Unit) := do
  match ← saveCredential .deviceIdentity id with
  | .ok _ => pure (.ok ())
  | .error e => pure (.error e)

def load (account : Account) : Program (Except String (Option String)) := do
  match ← fileLoad account with
  | some v => pure (.ok (some v))
  | none => keyringGet account

def loadToken : Program (Except String (Option String)) := load .authToken

def loadDeviceIdentity : Program (Except String (Option String)) := load .deviceIdentity

def deleteToken : Program (Except String Unit) := do
  fileDelete .authToken
  match ← openEntry .authToken with
  | .error _ => pure (.ok ())
  | .ok _ =>
      match ← deleteCredential .authToken with
      | .ok _ => pure (.ok ())
      | .error .noEntry => pure (.ok ())
      | .error (.other e) =>
          match ← keyringGet .authToken with
          | .ok (some _) =>
              pure (.error ("keyring delete failed (" ++ e ++ "); the token is still stored"))
          | _ => pure (.ok ())

/-! ### What each operation does -/

variable {account : Account} {value : String} {before after : World}
variable {events : List AgentEvent}

/-- The credential a load answers with when the keyring answers at all: the
file shadows the keyring. -/
def World.storedCredential (world : World) (account : Account) : Option String :=
  ((world.fallbackFile account).filter (· ≠ "")).or (world.keyring account)

def Stores (account : Account) (value : String) (events : List AgentEvent) : Prop :=
  ⟨Effect.setPassword account value, Except.ok ()⟩ ∈ events ∨
    ⟨Effect.fileSave account value, Except.ok ()⟩ ∈ events

theorem Stores.append_iff {first second : List AgentEvent} :
    Stores account value (first ++ second) ↔
      Stores account value first ∨ Stores account value second := by
  simp only [Stores, List.mem_append]
  exact or_or_or_comm

theorem Stores.cons_iff {event : AgentEvent} :
    Stores account value (event :: events) ↔
      Stores account value [event] ∨ Stores account value events := by
  rw [← List.singleton_append, Stores.append_iff]

theorem Stores.kind (kind : Effect → Prop) (stores : Stores account value events)
    (only : ∀ event ∈ events, kind event.action) :
    kind (.setPassword account value) ∨ kind (.fileSave account value) :=
  stores.imp (only _) (only _)

theorem keyringSet_runs {result : Except String Unit}
    (run : (keyringSet account value).Runs before events after result) :
    (result = .ok () ∧ after = before.setKeyring account (some value) ∧
        ∀ v, Stores account v events ↔ v = value) ∨
      ((∃ e, result = .error e) ∧ after = before ∧ ∀ v, ¬ Stores account v events) := by
  obtain ⟨opened, middle, rest, atOpen, rfl, afterOpen⟩ := runs_act.mp run
  obtain rfl : middle = before := atOpen
  cases opened with
  | error e =>
      obtain ⟨rfl, rfl, rfl⟩ := runs_done.mp afterOpen
      exact Or.inr ⟨⟨_, rfl⟩, rfl, by simp [Stores]⟩
  | ok _ =>
      obtain ⟨written, late, rest', atSet, rfl, afterSet⟩ := runs_act.mp afterOpen
      cases written with
      | error e =>
          obtain ⟨rfl, rfl, rfl⟩ := runs_done.mp afterSet
          exact Or.inr ⟨⟨_, rfl⟩, atSet, by simp [Stores]⟩
      | ok _ =>
          obtain ⟨rfl, rfl, rfl⟩ := runs_done.mp afterSet
          exact Or.inl ⟨rfl, atSet, by simp [Stores]⟩

theorem keyringGet_runs {result : Except String (Option String)}
    (run : (keyringGet account).Runs before events after result) :
    after = before ∧ (result = .ok (before.keyring account) ∨ ∃ e, result = .error e) := by
  obtain ⟨opened, middle, rest, atOpen, rfl, afterOpen⟩ := runs_act.mp run
  obtain rfl : middle = before := atOpen
  cases opened with
  | error e =>
      obtain ⟨rfl, rfl, rfl⟩ := runs_done.mp afterOpen
      exact ⟨rfl, Or.inr ⟨_, rfl⟩⟩
  | ok _ =>
      obtain ⟨reply, late, rest', ⟨rfl, answered⟩, rfl, afterGet⟩ := runs_act.mp afterOpen
      cases reply with
      | ok p =>
          obtain ⟨rfl, rfl, rfl⟩ := runs_done.mp afterGet
          exact ⟨rfl, Or.inl (congrArg Except.ok (Eq.symm answered))⟩
      | error e =>
          cases e with
          | noEntry =>
              obtain ⟨rfl, rfl, rfl⟩ := runs_done.mp afterGet
              exact ⟨rfl, Or.inl (congrArg Except.ok (Eq.symm answered))⟩
          | other e =>
              obtain ⟨rfl, rfl, rfl⟩ := runs_done.mp afterGet
              exact ⟨rfl, Or.inr ⟨_, rfl⟩⟩

theorem saveCredential_runs {result : Except String CredentialStore}
    (run : (saveCredential account value).Runs before events after result) :
    (result = .ok .keyring ∧
        after = (before.setKeyring account (some value)).setFallbackFile account none ∧
        ∀ v, Stores account v events ↔ v = value) ∨
      (result = .ok .file ∧ after = before.setFallbackFile account (some value) ∧
        ∀ v, Stores account v events ↔ v = value) ∨
      ((∃ e, result = .error e) ∧ after = before ∧ ∀ v, ¬ Stores account v events) := by
  obtain ⟨middle, written, first, second, atSet, afterSet, rfl⟩ := runs_bind.mp run
  rcases keyringSet_runs atSet with ⟨rfl, rfl, stores⟩ | ⟨⟨e, rfl⟩, rfl, silent⟩
  · obtain ⟨_, late, rest, atDelete, rfl, afterDelete⟩ := runs_act.mp afterSet
    obtain ⟨rfl, rfl, rfl⟩ := runs_done.mp afterDelete
    refine Or.inl ⟨rfl, atDelete, fun v => ?_⟩
    rw [Stores.append_iff, stores]
    simp [Stores]
  · obtain ⟨saved, late, rest, atSave, rfl, afterSave⟩ := runs_act.mp afterSet
    cases saved with
    | error fe =>
        obtain ⟨rfl, rfl, rfl⟩ := runs_done.mp afterSave
        refine Or.inr (Or.inr ⟨⟨_, rfl⟩, atSave, fun v => ?_⟩)
        simp only [Stores.append_iff, silent v, false_or]
        simp [Stores]
    | ok _ =>
        obtain ⟨rfl, rfl, rfl⟩ := runs_done.mp afterSave
        refine Or.inr (Or.inl ⟨rfl, atSave, fun v => ?_⟩)
        simp only [Stores.append_iff, silent v, false_or]
        simp [Stores]

/-- What a save has done by the time it finishes or is cut off. -/
inductive SaveProgress (account : Account) (value : String) (before : World)
    (events : List AgentEvent) (after : World) : Prop where
  | unsaved (same : after = before) (silent : ∀ v, ¬ Stores account v events)
  | saved (stores : ∀ v, Stores account v events ↔ v = value)
      (placed : after = before.setKeyring account (some value) ∨
        after = (before.setKeyring account (some value)).setFallbackFile account none ∨
        after = before.setFallbackFile account (some value))

private theorem keyringSet_begins
    (run : (keyringSet account value).Begins performs before events after) :
    SaveProgress account value before events after := by
  rcases begins_act.mp run with ⟨rfl, rfl⟩ | ⟨opened, middle, rest, atOpen, rfl, afterOpen⟩
  · exact .unsaved rfl (by simp [Stores])
  · obtain rfl : middle = before := atOpen
    cases opened with
    | error e =>
        obtain ⟨rfl, rfl⟩ := begins_done.mp afterOpen
        exact .unsaved rfl (by simp [Stores])
    | ok _ =>
        rcases begins_act.mp afterOpen with
          ⟨rfl, rfl⟩ | ⟨written, late, rest', atSet, rfl, afterSet⟩
        · exact .unsaved rfl (by simp [Stores])
        · cases written with
          | error e =>
              obtain ⟨rfl, rfl⟩ := begins_done.mp afterSet
              exact .unsaved atSet (by simp [Stores])
          | ok _ =>
              obtain ⟨rfl, rfl⟩ := begins_done.mp afterSet
              exact .saved (by simp [Stores]) (Or.inl atSet)

theorem saveCredential_begins
    (run : (saveCredential account value).Begins performs before events after) :
    SaveProgress account value before events after := by
  rcases begins_bind run with cut | ⟨middle, written, first, second, atSet, afterSet, rfl⟩
  · exact keyringSet_begins cut
  · rcases keyringSet_runs atSet with ⟨rfl, rfl, stores⟩ | ⟨⟨e, rfl⟩, rfl, silent⟩
    · rcases begins_act.mp afterSet with
        ⟨rfl, rfl⟩ | ⟨_, late, rest, atDelete, rfl, afterDelete⟩
      · exact .saved (by simpa using stores) (Or.inl rfl)
      · obtain ⟨rfl, rfl⟩ := begins_done.mp afterDelete
        refine .saved (fun v => ?_) (Or.inr (Or.inl atDelete))
        rw [Stores.append_iff, stores]
        simp [Stores]
    · rcases begins_act.mp afterSet with
        ⟨rfl, rfl⟩ | ⟨saved, late, rest, atSave, rfl, afterSave⟩
      · exact .unsaved rfl (by simpa using silent)
      · cases saved with
        | error fe =>
            obtain ⟨rfl, rfl⟩ := begins_done.mp afterSave
            refine .unsaved atSave (fun v => ?_)
            simp only [Stores.append_iff, silent v, false_or]
            simp [Stores]
        | ok _ =>
            obtain ⟨rfl, rfl⟩ := begins_done.mp afterSave
            refine .saved (fun v => ?_) (Or.inr (Or.inr atSave))
            simp only [Stores.append_iff, silent v, false_or]
            simp [Stores]

theorem SaveProgress.deviceIdentity (progress : SaveProgress account value before events after) :
    after.deviceIdentity = before.deviceIdentity := by
  cases progress with
  | unsaved same _ => rw [same]
  | saved _ placed => rcases placed with rfl | rfl | rfl <;> rfl

theorem saveDeviceIdentity_begins
    (run : (saveDeviceIdentity value).Begins performs before events after) :
    SaveProgress .deviceIdentity value before events after := by
  rcases begins_bind run with cut | ⟨middle, saved, first, second, atSave, afterSave, rfl⟩
  · exact saveCredential_begins cut
  · have ended : second = [] ∧ after = middle := by
      cases saved <;> exact begins_done.mp afterSave
    obtain ⟨rfl, rfl⟩ := ended
    rw [List.append_nil]
    exact saveCredential_begins atSave.begins

theorem saveDeviceIdentity_ok_iff {result : Except String Unit}
    (run : (saveDeviceIdentity value).Runs before events after result) :
    result = .ok () ↔ Stores .deviceIdentity value events := by
  obtain ⟨middle, saved, first, second, atSave, afterSave, rfl⟩ := runs_bind.mp run
  rcases saveCredential_runs atSave with
    ⟨rfl, _, stores⟩ | ⟨rfl, _, stores⟩ | ⟨⟨e, rfl⟩, _, silent⟩
  · obtain ⟨rfl, _, rfl⟩ := runs_done.mp afterSave
    simp [stores]
  · obtain ⟨rfl, _, rfl⟩ := runs_done.mp afterSave
    simp [stores]
  · obtain ⟨rfl, _, rfl⟩ := runs_done.mp afterSave
    simp [silent]

theorem saveDeviceIdentity_only :
    (saveDeviceIdentity value).Only fun action =>
      action = .openEntry .deviceIdentity ∨ action = .setPassword .deviceIdentity value ∨
        action = .fileDelete .deviceIdentity ∨ action = .fileSave .deviceIdentity value := by
  refine ⟨Or.inl rfl, fun opened => ?_⟩
  cases opened with
  | error e =>
      refine ⟨Or.inr (Or.inr (Or.inr rfl)), fun saved => ?_⟩
      cases saved <;> trivial
  | ok _ =>
      refine ⟨Or.inr (Or.inl rfl), fun written => ?_⟩
      cases written with
      | error e =>
          refine ⟨Or.inr (Or.inr (Or.inr rfl)), fun saved => ?_⟩
          cases saved <;> trivial
      | ok _ => exact ⟨Or.inr (Or.inr (Or.inl rfl)), fun _ => trivial⟩

theorem World.storedCredential_of_placed (nonempty : value ≠ "")
    (noFile : (before.fallbackFile account).filter (· ≠ "") = none)
    (placed : after = before.setKeyring account (some value) ∨
      after = (before.setKeyring account (some value)).setFallbackFile account none ∨
      after = before.setFallbackFile account (some value)) :
    after.storedCredential account = some value := by
  rcases placed with rfl | rfl | rfl
  · simp only [storedCredential, fallbackFile_setKeyring, noFile, keyring_setKeyring,
      Option.none_or]
  · simp [storedCredential]
  · simp [storedCredential, Option.filter, nonempty]

theorem load_runs {result : Except String (Option String)}
    (run : (load account).Runs before events after result) :
    after = before ∧
      (result = .ok (before.storedCredential account) ∨
        (before.fallbackFile account).filter (· ≠ "") = none ∧ ∃ e, result = .error e) := by
  obtain ⟨contents, middle, rest, ⟨rfl, rfl⟩, rfl, afterRead⟩ := runs_act.mp run
  rw [World.storedCredential]
  change Runs performs
    (match (middle.fallbackFile account).filter (· ≠ "") with
      | some v => pure (.ok (some v))
      | none => keyringGet account) middle rest after result at afterRead
  cases inFile : (middle.fallbackFile account).filter (· ≠ "") with
  | some v =>
      rw [inFile] at afterRead
      obtain ⟨rfl, rfl, rfl⟩ := runs_done.mp afterRead
      exact ⟨rfl, Or.inl rfl⟩
  | none =>
      rw [inFile] at afterRead
      obtain ⟨rfl, answered⟩ := keyringGet_runs afterRead
      refine ⟨rfl, ?_⟩
      rcases answered with found | failed
      · exact Or.inl found
      · exact Or.inr ⟨rfl, failed⟩

theorem keyringGet_only :
    (keyringGet account).Only fun action =>
      action = .openEntry account ∨ action = .getPassword account := by
  refine ⟨Or.inl rfl, fun opened => ?_⟩
  cases opened with
  | error e => trivial
  | ok _ =>
      refine ⟨Or.inr rfl, fun reply => ?_⟩
      rcases reply with (_ | _) | _ <;> trivial

theorem load_only :
    (load account).Only fun action =>
      action = .fileRead account ∨ action = .openEntry account ∨
        action = .getPassword account := by
  refine ⟨Or.inl rfl, fun contents => ?_⟩
  change (match contents.filter (· ≠ "") with
    | some v => pure (.ok (some v))
    | none => keyringGet account : Program (Except String (Option String))).Only _
  cases contents.filter (· ≠ "") with
  | some v => trivial
  | none => exact keyringGet_only.mono fun action kind => Or.inr kind

def Effect.isStoreCall : Effect → Bool
  | .openEntry _ => true
  | .setPassword _ _ => true
  | .getPassword _ => true
  | .deleteCredential _ => true
  | .fileSave _ _ => true
  | .fileRead _ => true
  | .fileDelete _ => true
  | _ => false

theorem saveCredential_storeCalls :
    (saveCredential account value).Only fun action => action.isStoreCall = true := by
  refine ⟨rfl, fun opened => ?_⟩
  cases opened with
  | error e =>
      refine ⟨rfl, fun saved => ?_⟩
      cases saved <;> trivial
  | ok _ =>
      refine ⟨rfl, fun written => ?_⟩
      cases written with
      | error e =>
          refine ⟨rfl, fun saved => ?_⟩
          cases saved <;> trivial
      | ok _ => exact ⟨rfl, fun _ => trivial⟩

theorem load_storeCalls : (load account).Only fun action => action.isStoreCall = true := by
  refine load_only.mono fun action kind => ?_
  rcases kind with rfl | rfl | rfl <;> rfl

theorem deleteToken_storeCalls : deleteToken.Only fun action => action.isStoreCall = true := by
  refine ⟨rfl, fun _ => ⟨rfl, fun opened => ?_⟩⟩
  cases opened with
  | error e => trivial
  | ok _ =>
      refine ⟨rfl, fun removed => ?_⟩
      rcases removed with (_ | e) | _
      · trivial
      · refine (keyringGet_only.mono fun action kind => ?_).bind fun found => ?_
        · rcases kind with rfl | rfl <;> rfl
        · rcases found with _ | (_ | _) <;> trivial
      · trivial

theorem load_error {message : String}
    (run : (load account).Runs before events after (.error message)) :
    (before.fallbackFile account).filter (· ≠ "") = none ∧
      ∃ contents rest, events = ⟨.fileRead account, contents⟩ :: rest ∧
        ((∃ e, rest = [⟨.openEntry account, .error e⟩]) ∨
          ∃ e, rest = [⟨.openEntry account, .ok ()⟩,
            ⟨.getPassword account, .error (.other e)⟩]) := by
  obtain ⟨contents, middle, rest, ⟨rfl, rfl⟩, rfl, afterRead⟩ := runs_act.mp run
  change Runs performs
    (match (middle.fallbackFile account).filter (· ≠ "") with
      | some v => pure (.ok (some v))
      | none => keyringGet account) middle rest after (.error message) at afterRead
  cases inFile : (middle.fallbackFile account).filter (· ≠ "") with
  | some v =>
      rw [inFile] at afterRead
      cases (runs_done.mp afterRead).2.2
  | none =>
      rw [inFile] at afterRead
      refine ⟨rfl, _, rest, rfl, ?_⟩
      obtain ⟨opened, late, rest', atOpen, rfl, afterOpen⟩ := runs_act.mp afterRead
      cases opened with
      | error e =>
          obtain ⟨rfl, _, _⟩ := runs_done.mp afterOpen
          exact Or.inl ⟨e, rfl⟩
      | ok _ =>
          obtain ⟨reply, last, rest'', _, rfl, afterGet⟩ := runs_act.mp afterOpen
          rcases reply with (_ | e) | _
          · cases (runs_done.mp afterGet).2.2
          · obtain ⟨rfl, _, _⟩ := runs_done.mp afterGet
            exact Or.inr ⟨e, rfl⟩
          · cases (runs_done.mp afterGet).2.2

/-- The keyring itself answered that no token is stored any more. -/
def KeyringConfirmed (events : List AgentEvent) : Prop :=
  ⟨Effect.deleteCredential .authToken, Except.ok ()⟩ ∈ events ∨
    ⟨Effect.deleteCredential .authToken, Except.error .noEntry⟩ ∈ events ∨
    ⟨Effect.getPassword .authToken, Except.error .noEntry⟩ ∈ events

private theorem keyringGet_noEntry {result : Except String (Option String)}
    (run : (keyringGet account).Runs before events after result)
    (member : ⟨Effect.getPassword account, Except.error .noEntry⟩ ∈ events) :
    before.keyring account = none := by
  obtain ⟨opened, middle, rest, atOpen, rfl, afterOpen⟩ := runs_act.mp run
  obtain rfl : middle = before := atOpen
  cases opened with
  | error e =>
      obtain ⟨rfl, rfl, rfl⟩ := runs_done.mp afterOpen
      simp at member
  | ok _ =>
      obtain ⟨reply, late, rest', ⟨rfl, answered⟩, rfl, afterGet⟩ := runs_act.mp afterOpen
      have ends : rest' = [] := by
        rcases reply with (_ | _) | _ <;> exact (runs_done.mp afterGet).1
      subst ends
      rcases reply with (_ | _) | _
      · exact answered
      · simp at member
      · simp at member

/-- A sign out empties the file.  The keyring entry is removed or left as it
was, and it is gone once the keyring has confirmed that. -/
theorem deleteToken_runs {result : Except String Unit}
    (run : deleteToken.Runs before events after result) :
    after.fallbackFile .authToken = none ∧
      (after.keyring .authToken = none ∨ after.keyring .authToken = before.keyring .authToken) ∧
      (KeyringConfirmed events → after.keyring .authToken = none) := by
  obtain ⟨_, cleared, rest, atDelete, rfl, afterDelete⟩ := runs_act.mp run
  obtain rfl : cleared = before.setFallbackFile .authToken none := atDelete
  obtain ⟨opened, middle, rest, atOpen, rfl, afterOpen⟩ := runs_act.mp afterDelete
  obtain rfl : middle = before.setFallbackFile .authToken none := atOpen
  cases opened with
  | error e =>
      obtain ⟨rfl, rfl, rfl⟩ := runs_done.mp afterOpen
      refine ⟨World.fallbackFile_setFallbackFile _ _ _, Or.inr rfl, ?_⟩
      simp [KeyringConfirmed]
  | ok _ =>
      obtain ⟨removed, late, rest, atRemove, rfl, afterRemove⟩ := runs_act.mp afterOpen
      rcases removed with (_ | e) | _
      · obtain ⟨missing, rfl⟩ := atRemove
        obtain ⟨rfl, rfl, rfl⟩ := runs_done.mp afterRemove
        exact ⟨World.fallbackFile_setFallbackFile _ _ _, Or.inl missing, fun _ => missing⟩
      · obtain rfl : late = before.setFallbackFile .authToken none := atRemove
        change Runs performs (keyringGet .authToken >>= fun found =>
          match found with
          | .ok (some _) =>
              pure (.error ("keyring delete failed (" ++ e ++ "); the token is still stored"))
          | _ => pure (.ok ())) _ rest after result at afterRemove
        obtain ⟨checked, found, first, second, atGet, afterGet, rfl⟩ := runs_bind.mp afterRemove
        obtain ⟨rfl, _⟩ := keyringGet_runs atGet
        have ends : second = [] ∧ after = before.setFallbackFile .authToken none := by
          rcases found with _ | (_ | _) <;>
            exact ⟨(runs_done.mp afterGet).1, (runs_done.mp afterGet).2.1⟩
        obtain ⟨rfl, rfl⟩ := ends
        refine ⟨World.fallbackFile_setFallbackFile _ _ _, Or.inr rfl, ?_⟩
        have undeleted : ∀ reply,
            ⟨Effect.deleteCredential .authToken, reply⟩ ∉ first := by
          intro reply member
          have known := atGet.only keyringGet_only _ member
          simp at known
        rintro (gone | gone | gone)
        · simp [undeleted] at gone
        · simp [undeleted] at gone
        · exact keyringGet_noEntry atGet (by simpa using gone)
      · obtain ⟨_present, rfl⟩ := atRemove
        obtain ⟨rfl, rfl, rfl⟩ := runs_done.mp afterRemove
        refine ⟨?_, Or.inl (World.keyring_setKeyring _ _ _),
          fun _ => World.keyring_setKeyring _ _ _⟩
        rw [World.fallbackFile_setKeyring, World.fallbackFile_setFallbackFile]

/-! ### Histories of calls -/

inductive TokenCall : Type where
  | saved (token : String) (events : List AgentEvent)
      (answer : Except String CredentialStore)
  | loaded (events : List AgentEvent) (answer : Except String (Option String))
  | deleted (events : List AgentEvent) (answer : Except String Unit)

namespace TokenCall

def performed : TokenCall → List AgentEvent
  | saved _ events _ => events
  | loaded events _ => events
  | deleted events _ => events

def IsSave : TokenCall → Prop
  | saved _ _ _ => True
  | _ => False

def Runs (call : TokenCall) (before after : World) : Prop :=
  match call with
  | saved token events answer => (KlaayGuard.saveToken token).Runs before events after answer
  | loaded events answer => KlaayGuard.loadToken.Runs before events after answer
  | deleted events answer => KlaayGuard.deleteToken.Runs before events after answer

def FileWorks (call : TokenCall) : Prop :=
  ∀ account value message,
    ⟨Effect.fileSave account value, Except.error message⟩ ∉ call.performed

end TokenCall

abbrev History : World → List TokenCall → World → Prop :=
  Trace fun before call after => call.Runs before after

/-- What a sign out leaves: no file, and at most the keyring entry it found. -/
structure SignedOutOf (entry : Option String) (world : World) : Prop where
  file : world.fallbackFile .authToken = none
  keyring : world.keyring .authToken = none ∨ world.keyring .authToken = entry

theorem SignedOutOf.call {entry : Option String} {call : TokenCall}
    (signedOut : SignedOutOf entry before) (unsaved : ¬ call.IsSave)
    (run : call.Runs before after) : SignedOutOf entry after := by
  cases call with
  | saved token events answer => exact absurd trivial unsaved
  | loaded events answer =>
      obtain ⟨rfl, _⟩ := load_runs run
      exact signedOut
  | deleted events answer =>
      obtain ⟨file, removed | kept, _⟩ := deleteToken_runs run
      · exact ⟨file, Or.inl removed⟩
      · refine ⟨file, ?_⟩
        rw [kept]
        exact signedOut.keyring

theorem SignedOutOf.loaded {entry : Option String} {token : String}
    (signedOut : SignedOutOf entry before)
    (run : loadToken.Runs before events after (.ok (some token))) : entry = some token := by
  obtain ⟨_, found | ⟨_, _, failed⟩⟩ := load_runs run
  · rw [World.storedCredential, signedOut.file] at found
    rcases signedOut.keyring with gone | kept
    · simp [gone] at found
    · simpa [kept, eq_comm] using found
  · simp at failed

theorem SignedOutOf.history {entry : Option String} {token : String}
    {loadEvents : List AgentEvent} {calls : List TokenCall}
    (signedOut : SignedOutOf entry before) (unsaved : ∀ call ∈ calls, ¬ call.IsSave)
    (history : History before calls after)
    (answered : .loaded loadEvents (.ok (some token)) ∈ calls) : entry = some token := by
  have every := history.invariant (SignedOutOf entry) (fun call => ¬ call.IsSave)
    (fun call => call = .loaded loadEvents (.ok (some token)) → entry = some token)
    (fun signedOut unsaved run => by
      refine ⟨signedOut.call unsaved run, ?_⟩
      rintro rfl
      exact signedOut.loaded run)
    signedOut unsaved
  exact every.2 _ answered rfl

/-- After a sign out that answered `Ok`, and until the next save, a load
returns a token only if the keyring never confirmed the removal, and then only
the entry the keyring held at that sign out. -/
theorem loadToken_after_signOut (start final : World) (earlier later : List TokenCall)
    (events loadEvents : List AgentEvent) (token : String)
    (history : History start (earlier ++ .deleted events (.ok ()) :: later) final)
    (unsaved : ∀ call ∈ later, ¬ call.IsSave)
    (answered : .loaded loadEvents (.ok (some token)) ∈ later) :
    ¬ KeyringConfirmed events ∧
      ∃ atSignOut, History start earlier atSignOut ∧
        atSignOut.keyring .authToken = some token := by
  obtain ⟨atSignOut, signedOut, before, run, since⟩ := history.split
  obtain ⟨file, keyring, confirmed⟩ := deleteToken_runs run
  constructor
  · intro gone
    have nothing : SignedOutOf none signedOut := ⟨file, Or.inl (confirmed gone)⟩
    have found := nothing.history unsaved since answered
    simp at found
  · have left : SignedOutOf (atSignOut.keyring .authToken) signedOut := ⟨file, keyring⟩
    exact ⟨atSignOut, before, left.history unsaved since answered⟩

/-! A keyring that is locked at the sign out and unlocked afterwards. -/

private def savedToKeyring : TokenCall :=
  .saved "t"
    [⟨.openEntry .authToken, .ok ()⟩, ⟨.setPassword .authToken "t", .ok ()⟩,
      ⟨.fileDelete .authToken, ()⟩]
    (.ok .keyring)

private def lockedSignOut : List AgentEvent :=
  [⟨.fileDelete .authToken, ()⟩, ⟨.openEntry .authToken, .ok ()⟩,
    ⟨.deleteCredential .authToken, .error (.other "locked")⟩, ⟨.openEntry .authToken, .ok ()⟩,
    ⟨.getPassword .authToken, .error (.other "locked")⟩]

private def unlockedLoad : List AgentEvent :=
  [⟨.fileRead .authToken, none⟩, ⟨.openEntry .authToken, .ok ()⟩,
    ⟨.getPassword .authToken, .ok "t"⟩]

private def inKeyring : World :=
  (World.firstStart.setKeyring .authToken (some "t")).setFallbackFile .authToken none

private theorem lockedSignOut_history :
    History .firstStart
      [savedToKeyring, .deleted lockedSignOut (.ok ()), .loaded unlockedLoad (.ok (some "t"))]
      inKeyring := by
  have fileless : inKeyring = inKeyring.setFallbackFile .authToken none := by
    simp only [inKeyring, World.setFallbackFile, Function.update_idem]
  have saved : savedToKeyring.Runs .firstStart inKeyring :=
    .act rfl (.act rfl (.act rfl (.done _ _)))
  have deleted : (TokenCall.deleted lockedSignOut (.ok ())).Runs inKeyring inKeyring :=
    .act fileless (.act rfl (.act rfl (.act rfl (.act ⟨rfl, trivial⟩ (.done _ _)))))
  have loaded : (TokenCall.loaded unlockedLoad (.ok (some "t"))).Runs inKeyring inKeyring :=
    .act ⟨rfl, rfl⟩ (.act rfl (.act ⟨rfl, rfl⟩ (.done _ _)))
  exact .cons saved (.cons deleted (.cons loaded (.nil _)))

/-- A sign out may answer `Ok` while the keyring still holds the token, which
a later load then returns. -/
theorem deleteToken_ok_keeps_token :
    ¬ ∀ (start final : World) (earlier later : List TokenCall)
        (events loadEvents : List AgentEvent) (token : String),
      History start (earlier ++ .deleted events (.ok ()) :: later) final →
      (∀ call ∈ earlier ++ .deleted events (.ok ()) :: later, call.FileWorks) →
      (∀ call ∈ later, ¬ call.IsSave) →
      .loaded loadEvents (.ok (some token)) ∉ later := by
  intro claim
  refine claim _ _ [savedToKeyring] [_] _ _ "t" lockedSignOut_history ?_ ?_ List.mem_cons_self
  · intro call member account value message
    simp only [List.cons_append, List.nil_append, List.mem_cons, List.not_mem_nil,
      or_false] at member
    rcases member with rfl | rfl | rfl <;>
      simp [TokenCall.performed, savedToKeyring, lockedSignOut, unlockedLoad]
  · intro call member
    obtain rfl := List.mem_singleton.mp member
    exact id

theorem loadToken_after_signOut_locked :
    ¬ KeyringConfirmed lockedSignOut ∧
      ∃ atSignOut, History .firstStart [savedToKeyring] atSignOut ∧
        atSignOut.keyring .authToken = some "t" := by
  refine loadToken_after_signOut .firstStart _ [savedToKeyring] [_] _ unlockedLoad "t"
    lockedSignOut_history ?_ List.mem_cons_self
  intro call member
  obtain rfl := List.mem_singleton.mp member
  exact id

end KlaayGuard
