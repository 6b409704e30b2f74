/-
The atomic actions of the agent and the world they act on.

An action is one critical section on a lock of `AppState`, one call of the
credential stores, one HTTP exchange, or one reading of the host.  The world
holds what the agent's own actions can change: the two session fields, the
cached device identity, the wake-up permit, and the two credential stores.
Replies from the network and from the host are unconstrained.
-/

import KlaayGuard.Crates
import KlaayGuard.Library.Interleaving

set_option autoImplicit false

namespace KlaayGuard

open EffectProgram

inductive Account : Type where
  | authToken
  | deviceIdentity
  deriving DecidableEq, Repr

structure JsonApiResource : Type where
  id : Option String
  type : String
  attributes : Value

structure JsonApiPayload : Type where
  data : List JsonApiResource
  metaInfo : Option Value
  jsonapi : Option Value

inductive Request : Type where
  | me (token : String)
  | config (token : String)
  | data (token : String) (payload : JsonApiPayload)

def Request.bearer : Request → String
  | .me token => token
  | .config token => token
  | .data token _ => token

structure Response : Type where
  status : Nat
  body : Except String Value

def Response.isSuccess (response : Response) : Bool :=
  200 ≤ response.status && response.status ≤ 299

/-- `UNAUTHORIZED` or `FORBIDDEN`. -/
def Response.isRejection (response : Response) : Bool :=
  response.status == 401 || response.status == 403

inductive KeyringError : Type where
  | noEntry
  | other (message : String)

inductive SidecarOutcome : Type where
  | unavailable (message : String)
  | spawnFailed (message : String)
  | exited (success : Bool) (stdout : String)

inductive Effect : Type where
  | readAuthToken
  | writeAuthToken (token : Option String)
  /-- Take the read guard on `auth_token` and keep it. -/
  | holdAuthToken
  | releaseAuthToken
  | readUserLabel
  | writeUserLabel (label : Option String)
  | readDeviceIdentity
  | writeDeviceIdentity (identity : Option String)
  | notifyTokenAcquired
  | spawnRefreshIdentity
  | openEntry (account : Account)
  | setPassword (account : Account) (value : String)
  | getPassword (account : Account)
  | deleteCredential (account : Account)
  | fileSave (account : Account) (value : String)
  | fileRead (account : Account)
  | fileDelete (account : Account)
  | send (request : Request)
  | sleep (seconds : Nat)
  | now
  | runSidecar (sql : String)
  | runBuiltinCheck (check : String)
  | readMachineId
  | fillRandom

@[reducible] def Effect.Reply : Effect → Type
  | .readAuthToken => Option String
  | .writeAuthToken _ => Unit
  | .holdAuthToken => Option String
  | .releaseAuthToken => Unit
  | .readUserLabel => Option String
  | .writeUserLabel _ => Unit
  | .readDeviceIdentity => Option String
  | .writeDeviceIdentity _ => Unit
  | .notifyTokenAcquired => Unit
  | .spawnRefreshIdentity => Unit
  | .openEntry _ => Except String Unit
  | .setPassword _ _ => Except String Unit
  | .getPassword _ => Except KeyringError String
  | .deleteCredential _ => Except KeyringError Unit
  | .fileSave _ _ => Except String Unit
  | .fileRead _ => Option String
  | .fileDelete _ => Unit
  | .send _ => Except String Response
  | .sleep _ => Unit
  | .now => String
  | .runSidecar _ => SidecarOutcome
  | .runBuiltinCheck _ => Value
  | .readMachineId => Option String
  | .fillRandom => Except String { bytes : List UInt8 // bytes.length = 16 }

abbrev Program (α : Type) : Type := Prog Effect Effect.Reply α

/-! One program for each action, with the type of its reply written out. -/

abbrev readAuthToken : Program (Option String) := .perform Effect.readAuthToken
abbrev writeAuthToken (token : Option String) : Program Unit :=
  .perform (Effect.writeAuthToken token)
abbrev holdAuthToken : Program (Option String) := .perform Effect.holdAuthToken
abbrev releaseAuthToken : Program Unit := .perform Effect.releaseAuthToken
abbrev readUserLabel : Program (Option String) := .perform Effect.readUserLabel
abbrev writeUserLabel (label : Option String) : Program Unit :=
  .perform (Effect.writeUserLabel label)
abbrev readDeviceIdentity : Program (Option String) := .perform Effect.readDeviceIdentity
abbrev writeDeviceIdentity (identity : Option String) : Program Unit :=
  .perform (Effect.writeDeviceIdentity identity)
abbrev notifyTokenAcquired : Program Unit := .perform Effect.notifyTokenAcquired
abbrev spawnRefreshIdentity : Program Unit := .perform Effect.spawnRefreshIdentity
abbrev openEntry (account : Account) : Program (Except String Unit) :=
  .perform (Effect.openEntry account)
abbrev setPassword (account : Account) (value : String) : Program (Except String Unit) :=
  .perform (Effect.setPassword account value)
abbrev getPassword (account : Account) : Program (Except KeyringError String) :=
  .perform (Effect.getPassword account)
abbrev deleteCredential (account : Account) : Program (Except KeyringError Unit) :=
  .perform (Effect.deleteCredential account)
abbrev fileSave (account : Account) (value : String) : Program (Except String Unit) :=
  .perform (Effect.fileSave account value)
abbrev fileRead (account : Account) : Program (Option String) :=
  .perform (Effect.fileRead account)
abbrev fileDelete (account : Account) : Program Unit := .perform (Effect.fileDelete account)
abbrev send (request : Request) : Program (Except String Response) :=
  .perform (Effect.send request)
abbrev sleep (seconds : Nat) : Program Unit := .perform (Effect.sleep seconds)
abbrev now : Program String := .perform Effect.now
abbrev runSidecar (sql : String) : Program SidecarOutcome := .perform (Effect.runSidecar sql)
abbrev runBuiltinCheck (check : String) : Program Value :=
  .perform (Effect.runBuiltinCheck check)
abbrev readMachineId : Program (Option String) := .perform Effect.readMachineId
abbrev fillRandom : Program (Except String { bytes : List UInt8 // bytes.length = 16 }) :=
  .perform Effect.fillRandom

abbrev AgentEvent : Type := Event Effect Effect.Reply

structure World : Type where
  authToken : Option String
  /-- Read guards on `auth_token` now held; a write waits for none. -/
  tokenReaders : Nat
  userLabel : Option String
  deviceIdentity : Option String
  /-- The one permit `token_acquired` stores. -/
  tokenAcquired : Bool
  keyring : Account → Option String
  fallbackFile : Account → Option String
  /-- The text of the machine-id file. -/
  machineId : Option String

def World.firstStart : World :=
  { authToken := none
    tokenReaders := 0
    userLabel := none
    deviceIdentity := none
    tokenAcquired := false
    keyring := fun _ => none
    fallbackFile := fun _ => none
    machineId := none }

def World.setKeyring (world : World) (account : Account) (value : Option String) : World :=
  { world with keyring := Function.update world.keyring account value }

def World.setFallbackFile (world : World) (account : Account) (value : Option String) : World :=
  { world with fallbackFile := Function.update world.fallbackFile account value }

namespace World

variable (world : World) (account : Account) (value : Option String)

@[simp] theorem keyring_setKeyring :
    (world.setKeyring account value).keyring account = value := by
  simp only [setKeyring, Function.update_self]

@[simp] theorem fallbackFile_setKeyring :
    (world.setKeyring account value).fallbackFile = world.fallbackFile := rfl

@[simp] theorem authToken_setKeyring :
    (world.setKeyring account value).authToken = world.authToken := rfl

@[simp] theorem fallbackFile_setFallbackFile :
    (world.setFallbackFile account value).fallbackFile account = value := by
  simp only [setFallbackFile, Function.update_self]

@[simp] theorem keyring_setFallbackFile :
    (world.setFallbackFile account value).keyring = world.keyring := rfl

end World

/-- Which reply an action may get in a world, and the world it leaves.  A
refused write of a store leaves it unchanged; reading and removing the fallback
file never fail. -/
def performs : World → (effect : Effect) → effect.Reply → World → Prop
  | world, .readAuthToken, reply, after => reply = world.authToken ∧ after = world
  | world, .writeAuthToken token, _, after =>
      world.tokenReaders = 0 ∧ after = { world with authToken := token }
  | world, .holdAuthToken, reply, after =>
      reply = world.authToken ∧ after = { world with tokenReaders := world.tokenReaders + 1 }
  | world, .releaseAuthToken, _, after =>
      after = { world with tokenReaders := world.tokenReaders - 1 }
  | world, .readUserLabel, reply, after => reply = world.userLabel ∧ after = world
  | world, .writeUserLabel label, _, after => after = { world with userLabel := label }
  | world, .readDeviceIdentity, reply, after => reply = world.deviceIdentity ∧ after = world
  | world, .writeDeviceIdentity identity, _, after =>
      after = { world with deviceIdentity := identity }
  | world, .notifyTokenAcquired, _, after => after = { world with tokenAcquired := true }
  | world, .spawnRefreshIdentity, _, after => after = world
  | world, .openEntry _, _, after => after = world
  | world, .setPassword account value, reply, after =>
      match reply with
      | .ok _ => after = world.setKeyring account (some value)
      | .error _ => after = world
  | world, .getPassword account, reply, after =>
      after = world ∧
        match reply with
        | .ok value => world.keyring account = some value
        | .error .noEntry => world.keyring account = none
        | .error (.other _) => True
  | world, .deleteCredential account, reply, after =>
      match reply with
      | .ok _ => world.keyring account ≠ none ∧ after = world.setKeyring account none
      | .error .noEntry => world.keyring account = none ∧ after = world
      | .error (.other _) => after = world
  | world, .fileSave account value, reply, after =>
      match reply with
      | .ok _ => after = world.setFallbackFile account (some value)
      | .error _ => after = world
  | world, .fileRead account, reply, after =>
      reply = world.fallbackFile account ∧ after = world
  | world, .fileDelete account, _, after => after = world.setFallbackFile account none
  | world, .send _, _, after => after = world
  | world, .sleep _, _, after => after = world
  | world, .now, _, after => after = world
  | world, .runSidecar _, _, after => after = world
  | world, .runBuiltinCheck _, _, after => after = world
  | world, .readMachineId, reply, after => reply = world.machineId ∧ after = world
  | world, .fillRandom, _, after => after = world

/-- Each of these fields has its own actions that move it. -/
theorem performs_frame {world after : World} {action : Effect} {reply : action.Reply}
    (performed : performs world action reply after) :
    ((∀ token, action ≠ .writeAuthToken token) → after.authToken = world.authToken) ∧
      ((∀ label, action ≠ .writeUserLabel label) → after.userLabel = world.userLabel) ∧
      (action ≠ .holdAuthToken → action ≠ .releaseAuthToken →
        after.tokenReaders = world.tokenReaders) ∧
      (action ≠ .notifyTokenAcquired → after.tokenAcquired = world.tokenAcquired) := by
  cases action with
  | writeAuthToken token =>
      obtain ⟨_, rfl⟩ := performed
      exact ⟨fun other => absurd rfl (other token), fun _ => rfl, fun _ _ => rfl, fun _ => rfl⟩
  | writeUserLabel label =>
      obtain rfl : after = { world with userLabel := label } := performed
      exact ⟨fun _ => rfl, fun other => absurd rfl (other label), fun _ _ => rfl, fun _ => rfl⟩
  | holdAuthToken =>
      obtain ⟨_, rfl⟩ := performed
      exact ⟨fun _ => rfl, fun _ => rfl, fun other => absurd rfl other, fun _ => rfl⟩
  | releaseAuthToken =>
      obtain rfl : after = { world with tokenReaders := world.tokenReaders - 1 } := performed
      exact ⟨fun _ => rfl, fun _ => rfl, fun _ other => absurd rfl other, fun _ => rfl⟩
  | notifyTokenAcquired =>
      obtain rfl : after = { world with tokenAcquired := true } := performed
      exact ⟨fun _ => rfl, fun _ => rfl, fun _ _ => rfl, fun other => absurd rfl other⟩
  | setPassword account value =>
      cases reply <;> obtain rfl := performed <;>
        exact ⟨fun _ => rfl, fun _ => rfl, fun _ _ => rfl, fun _ => rfl⟩
  | fileSave account value =>
      cases reply <;> obtain rfl := performed <;>
        exact ⟨fun _ => rfl, fun _ => rfl, fun _ _ => rfl, fun _ => rfl⟩
  | deleteCredential account =>
      rcases reply with (_ | _) | _
      · obtain ⟨_, rfl⟩ := performed
        exact ⟨fun _ => rfl, fun _ => rfl, fun _ _ => rfl, fun _ => rfl⟩
      · obtain rfl := performed
        exact ⟨fun _ => rfl, fun _ => rfl, fun _ _ => rfl, fun _ => rfl⟩
      · obtain ⟨_, rfl⟩ := performed
        exact ⟨fun _ => rfl, fun _ => rfl, fun _ _ => rfl, fun _ => rfl⟩
  | getPassword account =>
      obtain ⟨rfl, _⟩ := performed
      exact ⟨fun _ => rfl, fun _ => rfl, fun _ _ => rfl, fun _ => rfl⟩
  | _ =>
      obtain ⟨_, rfl⟩ := performed
      exact ⟨fun _ => rfl, fun _ => rfl, fun _ _ => rfl, fun _ => rfl⟩

theorem performs_session {world after : World} {action : Effect} {reply : action.Reply}
    (performed : performs world action reply after) :
    ((∀ token, action ≠ .writeAuthToken token) → after.authToken = world.authToken) ∧
      ((∀ label, action ≠ .writeUserLabel label) → after.userLabel = world.userLabel) :=
  ⟨(performs_frame performed).1, (performs_frame performed).2.1⟩

/-- The credential stores succeed; a missing entry is an answer. -/
def Effect.Succeeds : (effect : Effect) → effect.Reply → Prop
  | .openEntry _, .error _ => False
  | .setPassword _ _, .error _ => False
  | .getPassword _, .error (.other _) => False
  | .deleteCredential _, .error (.other _) => False
  | .fileSave _ _, .error _ => False
  | _, _ => True

abbrev agentSemantics (ι : Type) : Semantics World ι Effect Effect.Reply :=
  fun _ => performs

abbrev AgentConfig (ι α : Type) : Type := Config World ι Effect Effect.Reply α

abbrev Program.Runs {α : Type} (program : Program α) (before : World)
    (events : List AgentEvent) (after : World) (result : α) : Prop :=
  Prog.Runs performs program before events after result

end KlaayGuard
