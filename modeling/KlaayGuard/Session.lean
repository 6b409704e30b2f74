/-
The session of the agent: the token in memory and the name of its holder.

The two fields sit behind two locks, so taking up a session and dropping one
are two critical sections each.  Calls that overlap can leave the name of one
session beside the token of another, or beside none; they cannot when every
name lands beside its own token or while another call still has its own name
to write.
-/

import KlaayGuard.Keychain
import KlaayGuard.TrayLabel

set_option autoImplicit false

namespace KlaayGuard

open EffectProgram Prog

def adoptSession (token : String) (label : Option String) : Program Unit := do
  writeAuthToken (some token)
  writeUserLabel label

def clearSession : Program Unit := do
  writeAuthToken none
  writeUserLabel none

/-- The read guard on the token is kept across the label write. -/
def nameHolderOf (token label : Option String) : Program Unit := do
  let heldToken ← holdAuthToken
  if heldToken ≠ token then releaseAuthToken
  else do
    writeUserLabel label
    releaseAuthToken

inductive Identity : Type where
  | rejected
  | accepted (label : Option String)
  | unknown

variable (crates : Crates)

def identityOfReply : Except String Response → Identity
  | .error _ => .unknown
  | .ok response =>
      if response.isRejection then .rejected
      else if !response.isSuccess then .unknown
      else
        match response.body with
        | .ok body => .accepted (identityLabel crates body)
        | .error _ => .unknown

def fetchIdentity (token : String) : Program Identity := do
  let reply ← send (.me token)
  pure (identityOfReply crates reply)

theorem fetchIdentity_conforms {Phase : Type}
    {protocol : Protocol Effect Effect.Reply Phase Identity} {phase : Phase} {token : String} :
    (fetchIdentity crates token).Conforms protocol phase ↔
      protocol.allowed phase (.send (.me token)) ∧
        ∀ reply, protocol.finished (protocol.next phase (.send (.me token)) reply)
          (identityOfReply crates reply) := Iff.rfl

/-- The task `refresh_identity` spawns. -/
def refreshIdentity : Program Unit := do
  match ← readAuthToken with
  | none => pure ()
  | some token =>
      match ← fetchIdentity crates token with
      | .accepted label => nameHolderOf (some token) label
      | .rejected => pure ()
      | .unknown => pure ()

def nameUnnamedHolder : Program Unit := do
  match ← readUserLabel with
  | none => spawnRefreshIdentity
  | some _ => pure ()

def adoptUnlessRejected (tok : String) : Program Bool := do
  match ← fetchIdentity crates tok with
  | .rejected => pure false
  | .accepted label => do
      adoptSession tok label
      notifyTokenAcquired
      pure true
  | .unknown => do
      adoptSession tok none
      notifyTokenAcquired
      pure true

/-- The task `adopt_token` spawns. -/
def adoptToken (tok : String) : Program Unit := do
  match ← adoptUnlessRejected crates tok with
  | false => pure ()
  | true => do
      let _saved ← saveToken tok
      pure ()

def signOutWith (deleteStoredToken : Program (Except String Unit)) : Program Unit := do
  clearSession
  let _deleted ← deleteStoredToken
  pure ()

def signOut : Program Unit := signOutWith deleteToken

def invalidateAuth : Program Unit := clearSession

inductive SessionCall : Type where
  | adopt (token : String) (label : Option String)
  | clear
  deriving DecidableEq, Repr

def SessionCall.program : SessionCall → Program Unit
  | adopt token label => adoptSession token label
  | clear => clearSession

/-- Every call alternates: a token write, then a label write. -/
def sessionWrites : Protocol Effect Effect.Reply Bool Unit :=
  { allowed := fun labelOwed action =>
      match labelOwed with
      | false => ∃ token, action = .writeAuthToken token
      | true => ∃ label, action = .writeUserLabel label
    next := fun labelOwed _ _ => !labelOwed
    finished := fun labelOwed _ => labelOwed = false }

theorem SessionCall.conforms (call : SessionCall) :
    call.program.Conforms sessionWrites false := by
  cases call <;> exact ⟨⟨_, rfl⟩, fun _ => ⟨⟨_, rfl⟩, fun _ => rfl⟩⟩

variable {ι : Type}

/-- The label names nobody, or the holder of the token as some call gave it. -/
def LabelFits (calls : ι → SessionCall) (token label : Option String) : Prop :=
  label = none ∨ ∃ live thread, token = some live ∧ calls thread = .adopt live label

def BetweenWrites (thread : Thread Effect Effect.Reply Unit) : Prop :=
  ∃ event token, thread.log = [event] ∧ event.action = .writeAuthToken token

/-- A label lands beside a token it was supplied with, or while another call is
between its two writes. -/
def LabelWritesFit (calls : ι → SessionCall) :
    StepCondition World ι Effect Effect.Reply Unit :=
  fun config thread event => ∀ label, event.action = .writeUserLabel label →
    LabelFits calls config.shared.authToken label ∨
      ∃ other, other ≠ thread ∧ BetweenWrites (config.threads other)

variable [DecidableEq ι]

/-- Token and label agree, or some call still owes a label. -/
def LabelSettled (calls : ι → SessionCall) (world : World) (labelOwed : ι → Bool) : Prop :=
  LabelFits calls world.authToken world.userLabel ∨ ∃ thread, labelOwed thread = true

theorem LabelSettled.reached {calls : ι → SessionCall} {start : World}
    (nameless : start.userLabel = none)
    {config : AgentConfig ι Unit}
    (reached : Reaches (agentSemantics ι) (LabelWritesFit calls)
      (Config.fresh start fun thread => (calls thread).program) config) :
    config.Follows sessionWrites (fun _ => false) ∧
      LabelSettled calls config.shared (config.phase sessionWrites fun _ => false) := by
  refine reached.invariant (LabelSettled calls) (fun thread => (calls thread).conforms)
    (Or.inl (Or.inl nameless)) ?_
  intro before thread action reply shared _follows _settled allowed performed met
  cases owed : before.phase sessionWrites (fun _ => false) thread with
  | false =>
      refine Or.inr ⟨thread, ?_⟩
      rw [Function.update_self]
      rfl
  | true =>
      rw [owed] at allowed
      obtain ⟨label, rfl⟩ := allowed
      obtain rfl : shared = { before.shared with userLabel := label } := performed
      rcases met label rfl with fits | ⟨other, distinct, event, token, logged, written⟩
      · exact Or.inl fits
      · refine Or.inr ⟨other, ?_⟩
        rw [Function.update_of_ne distinct]
        simp only [Config.phase, logged, List.foldl_cons, List.foldl_nil, sessionWrites,
          Bool.not_false]

/-- Once all calls have finished, token and label agree, in every run whose
label writes land beside their own token or before another call's. -/
theorem session_moves_together (calls : ι → SessionCall) (start : World)
    (signedOut : start.authToken = none ∧ start.userLabel = none)
    (config : AgentConfig ι Unit)
    (reached : Reaches (agentSemantics ι) (LabelWritesFit calls)
      (Config.fresh start fun thread => (calls thread).program) config)
    (quiescent : config.Quiescent) :
    LabelFits calls config.shared.authToken config.shared.userLabel := by
  obtain ⟨follows, fits | ⟨thread, owed⟩⟩ := LabelSettled.reached signedOut.2 reached
  · exact fits
  · obtain ⟨result, ended⟩ := quiescent thread
    have paid : _ = false := follows.finished ended
    rw [owed] at paid
    cases paid

/-! A sign out that runs to completion between the two writes of a sign-in. -/

private def aliceAndSignOut : Bool → SessionCall
  | true => .adopt "alice-token" (some "Alice Andersen")
  | false => .clear

theorem session_moves_apart :
    ¬ ∀ (ι : Type) [DecidableEq ι] (calls : ι → SessionCall) (start : World)
        (config : AgentConfig ι Unit),
      start.authToken = none ∧ start.userLabel = none →
      Reaches (agentSemantics ι) AnyStep
        (Config.fresh start fun thread => (calls thread).program) config →
      config.Quiescent → LabelFits calls config.shared.authToken config.shared.userLabel := by
  intro claim
  have started : Reaches (agentSemantics Bool) AnyStep
      (Config.fresh World.firstStart fun thread => (aliceAndSignOut thread).program) _ :=
    Reaches.refl _
  have adopted := started.perform true ⟨.writeAuthToken (some "alice-token"), ()⟩ rfl
    ⟨rfl, rfl⟩ trivial
  have cleared := adopted.perform false ⟨.writeAuthToken none, ()⟩ rfl ⟨rfl, rfl⟩ trivial
  have emptied := cleared.perform false ⟨.writeUserLabel none, ()⟩ rfl rfl trivial
  have named := emptied.perform true ⟨.writeUserLabel (some "Alice Andersen"), ()⟩ rfl rfl trivial
  have fits := claim Bool aliceAndSignOut .firstStart _ ⟨rfl, rfl⟩ named
    (by rintro (_ | _) <;> exact ⟨(), rfl⟩)
  rcases fits with unnamed | ⟨live, _, held, _⟩
  · cases unnamed
  · cases held

/-- The same two calls, one after the other. -/
theorem session_moves_together_in_turn :
    ∃ config : AgentConfig Bool Unit, config.Quiescent ∧
      LabelFits aliceAndSignOut config.shared.authToken config.shared.userLabel ∧
      config.shared.authToken = some "alice-token" := by
  have started : Reaches (agentSemantics Bool) (LabelWritesFit aliceAndSignOut)
      (Config.fresh World.firstStart fun thread => (aliceAndSignOut thread).program) _ :=
    Reaches.refl _
  have cleared := started.perform false ⟨.writeAuthToken none, ()⟩ rfl ⟨rfl, rfl⟩
    (fun _ other => by cases other)
  have emptied := cleared.perform false ⟨.writeUserLabel none, ()⟩ rfl rfl
    (fun _ same => Or.inl (Or.inl (Effect.writeUserLabel.inj same).symm))
  have adopted := emptied.perform true ⟨.writeAuthToken (some "alice-token"), ()⟩ rfl
    ⟨rfl, rfl⟩ (fun _ other => by cases other)
  have named := adopted.perform true ⟨.writeUserLabel (some "Alice Andersen"), ()⟩ rfl rfl
    (fun _ same => Or.inl (Or.inr ⟨"alice-token", true, rfl,
      congrArg (SessionCall.adopt "alice-token") (Effect.writeUserLabel.inj same)⟩))
  refine ⟨_, ?_, session_moves_together aliceAndSignOut .firstStart ⟨rfl, rfl⟩ _ named ?_, rfl⟩
  · rintro (_ | _) <;> exact ⟨(), rfl⟩
  · rintro (_ | _) <;> exact ⟨(), rfl⟩

end KlaayGuard
