/-
The background loop: wait for a token, then wake and run a cycle, for ever.

The loop wakes by its interval or by `token_acquired`, whichever of two ready
branches the runtime happens to poll first.  The tasks that take up and drop
sessions run beside it, and time passes between any two steps.  The three loops
are cut off after a number of rounds; every run is one for enough rounds.
-/

import KlaayGuard.Collection
import KlaayGuard.Library.Tokio
import KlaayGuard.Startup

set_option autoImplicit false

namespace KlaayGuard

open EffectProgram Prog RustText Tokio

/-- A positive number of seconds from an environment override, or a default. -/
def envSeconds (value : Option String) (fallback : Nat) : Nat :=
  ((value.bind fun s => parseU64 s.toList).filter (0 < ·)).getD fallback

def collectionIntervalSeconds (value : Option String) : Nat := envSeconds value 900

/-- An action of the agent, a step of the loop's own waiting, or time passing. -/
inductive LoopAction : Type where
  | agent (effect : Effect)
  | tokenIsSome
  | createInterval (seconds : Nat)
  /-- Which branch `select!` polls first. -/
  | drawTickFirst
  | pollTick
  | pollNotified
  | dropNotified
  | resetInterval
  | elapse (passed : Nat)

@[reducible] def LoopAction.Reply : LoopAction → Type
  | .agent effect => effect.Reply
  | .tokenIsSome => Bool
  | .createInterval _ => Unit
  | .drawTickFirst => Bool
  | .pollTick => Bool
  | .pollNotified => Bool
  | .dropNotified => Unit
  | .resetInterval => Unit
  | .elapse _ => Unit

abbrev LoopProgram (α : Type) : Type := Prog LoopAction LoopAction.Reply α

abbrev LoopEvent : Type := Event LoopAction LoopAction.Reply

abbrev tokenIsSome : LoopProgram Bool := .perform LoopAction.tokenIsSome
abbrev createInterval (seconds : Nat) : LoopProgram Unit :=
  .perform (LoopAction.createInterval seconds)
abbrev drawTickFirst : LoopProgram Bool := .perform LoopAction.drawTickFirst
abbrev pollTick : LoopProgram Bool := .perform LoopAction.pollTick
abbrev pollNotified : LoopProgram Bool := .perform LoopAction.pollNotified
abbrev dropNotified : LoopProgram Unit := .perform LoopAction.dropNotified
abbrev resetInterval : LoopProgram Unit := .perform LoopAction.resetInterval
abbrev elapse (passed : Nat) : LoopProgram Unit := .perform (LoopAction.elapse passed)

def onAgent {α : Type} (program : Program α) : LoopProgram α :=
  program.lift LoopAction.agent fun _ reply => reply

inductive Branch : Type where
  | tick
  | notified
  deriving DecidableEq, Repr

def pollBranches : LoopProgram (Option Branch) := do
  if ← drawTickFirst then do
    if ← pollTick then pure (some .tick)
    else do
      if ← pollNotified then pure (some .notified) else pure none
  else do
    if ← pollNotified then pure (some .notified)
    else do
      if ← pollTick then pure (some .tick) else pure none

/-- `select!`: the branches are polled until one is ready, and both are dropped
before its handler runs. -/
def selectBranch : Nat → LoopProgram (Option Branch)
  | 0 => pure none
  | polls + 1 => do
      match ← pollBranches with
      | none => selectBranch polls
      | some branch => do
          dropNotified
          pure (some branch)

def awaitToken : Nat → LoopProgram Bool
  | 0 => pure false
  | polls + 1 => do
      if ← tokenIsSome then pure true
      else do
        onAgent (sleep 3)
        awaitToken polls

variable (crates : Crates) (build : Build)

def collectRounds (polls : Nat) : Nat → LoopProgram Unit
  | 0 => pure ()
  | rounds + 1 => do
      match ← selectBranch polls with
      | none => pure ()
      | some branch => do
          match branch with
          | .tick => pure ()
          | .notified => resetInterval
          let _logged ← onAgent (runCycle crates build)
          collectRounds polls rounds

def spawnBackgroundLoop (intervalSeconds : Option String) (rounds : Nat) : LoopProgram Unit := do
  if ← awaitToken rounds then do
    createInterval (collectionIntervalSeconds intervalSeconds)
    collectRounds crates build rounds rounds
  else pure ()

/-! ### The world -/

structure LoopWorld : Type where
  /-- `tokenAcquired` is the stored permit of the notification. -/
  agent : World
  /-- The loop's `notified` future. -/
  waiter : Waiter
  interval : Option Interval
  clock : Nat

namespace LoopWorld

def notify (world : LoopWorld) : Notify := ⟨world.agent.tokenAcquired, world.waiter⟩

def setNotify (world : LoopWorld) (notify : Notify) : LoopWorld :=
  { world with
    agent := { world.agent with tokenAcquired := notify.permit }
    waiter := notify.waiter }

def launched (agent : World) (clock : Nat) : LoopWorld :=
  { agent := agent, waiter := .absent, interval := none, clock := clock }

def TickDue (world : LoopWorld) : Prop :=
  ∃ interval, world.interval = some interval ∧ interval.Due world.clock

end LoopWorld

def nanoseconds (seconds : Nat) : Nat := seconds * 1000000000

/-- A timer may be seen late but never early. -/
def performsLoop : LoopWorld → (action : LoopAction) → action.Reply → LoopWorld → Prop
  | world, .agent .notifyTokenAcquired, _, after =>
      after = world.setNotify world.notify.notifyOne
  | world, .agent effect, reply, after =>
      ∃ agent, performs world.agent effect reply agent ∧ after = { world with agent := agent }
  | world, .tokenIsSome, reply, after =>
      reply = world.agent.authToken.isSome ∧ after = world
  | world, .createInterval seconds, _, after =>
      ∃ running, after =
        { world with interval := some (.starting (nanoseconds seconds) world.clock running) }
  | world, .drawTickFirst, _, after => after = world
  | world, .pollTick, reply, after =>
      match reply with
      | true => ∃ interval, world.interval = some interval ∧ interval.Due world.clock ∧
          after = { world with interval := some (interval.tick world.clock) }
      | false => after = world
  | world, .pollNotified, reply, after =>
      reply = world.notify.poll.1 ∧ after = world.setNotify world.notify.poll.2
  | world, .dropNotified, _, after => after = world.setNotify world.notify.drop
  | world, .resetInterval, _, after =>
      after = { world with interval := world.interval.map (·.reset world.clock) }
  | world, .elapse passed, _, after => after = { world with clock := world.clock + passed }

inductive LoopTask : Type where
  | agent (task : StartupTask)
  /-- Time passes in these steps. -/
  | clock (steps : List Nat)

def passTime : List Nat → LoopProgram Unit
  | [] => pure ()
  | passed :: steps => do
      elapse passed
      passTime steps

def LoopTask.program : LoopTask → LoopProgram Unit
  | agent task => onAgent (task.program crates)
  | clock steps => passTime steps

variable {ι : Type}

def loopThreads (intervalSeconds : Option String) (rounds : Nat) (tasks : ι → LoopTask) :
    Option ι → LoopProgram Unit
  | none => spawnBackgroundLoop crates build intervalSeconds rounds
  | some thread => (tasks thread).program crates

abbrev LoopConfig (ι : Type) : Type :=
  Config LoopWorld (Option ι) LoopAction LoopAction.Reply Unit

abbrev loopSemantics (ι : Type) :
    Semantics LoopWorld (Option ι) LoopAction LoopAction.Reply :=
  fun _ => performsLoop

inductive LoopPhase : Type where
  /-- A task that is not the loop. -/
  | outside
  | polling
  /-- Between the token read of one cycle and the wake-up for the next. -/
  | between
  | taken (branch : Branch)
  | resetting
  /-- The cycle's token read is the next step. -/
  | starting
  deriving DecidableEq, Repr

/-- The loop has taken a branch and is about to begin a cycle. -/
def LoopPhase.AboutToCycle : LoopPhase → Prop
  | .taken _ | .resetting | .starting => True
  | _ => False

def loopAllowed : LoopPhase → LoopAction → Prop
  | .outside, .agent _ => True
  | .outside, .elapse _ => True
  | .polling, .tokenIsSome => True
  | .polling, .agent effect => effect = .sleep 3
  | .polling, .createInterval _ => True
  | .between, .agent effect => effect ≠ .readAuthToken
  | .between, .drawTickFirst => True
  | .between, .pollTick => True
  | .between, .pollNotified => True
  | .taken _, .dropNotified => True
  | .resetting, .resetInterval => True
  | .starting, .agent effect => effect = .readAuthToken
  | _, _ => False

def Branch.handler : Branch → LoopPhase
  | .tick => .starting
  | .notified => .resetting

def loopNext : LoopPhase → (action : LoopAction) → action.Reply → LoopPhase
  | .polling, .createInterval _, _ => .between
  | .between, .pollTick, true => .taken .tick
  | .between, .pollNotified, true => .taken .notified
  | .taken branch, .dropNotified, _ => branch.handler
  | .resetting, .resetInterval, _ => .starting
  | .starting, .agent .readAuthToken, _ => .between
  | phase, _, _ => phase

def loopSteps : Protocol LoopAction LoopAction.Reply LoopPhase Unit :=
  { allowed := loopAllowed
    next := loopNext
    finished := fun _ _ => True }

def loopPart {α : Type} (finished : LoopPhase → α → Prop) :
    Protocol LoopAction LoopAction.Reply LoopPhase α :=
  { allowed := loopAllowed
    next := loopNext
    finished := finished }

/-! What a cycle does after its first step never looks at the token. -/

private theorem ne_read_of_collects {action : Effect} (kind : action.collects = true) :
    action ≠ .readAuthToken := by
  rintro rfl
  cases kind

private theorem sendWithRetry_reads_no_token (request : Request) :
    (sendWithRetry request).Only fun action => action ≠ .readAuthToken := by
  have ladder : ∀ delays : List Nat,
      (sendWithRetryFrom request delays).Only fun action => action ≠ .readAuthToken := by
    intro delays
    induction delays with
    | nil => exact ⟨Effect.noConfusion, fun _ => trivial⟩
    | cons delay delays ih =>
        refine ⟨Effect.noConfusion, fun reply => ?_⟩
        cases reply with
        | error e => exact ⟨Effect.noConfusion, fun _ => ih⟩
        | ok resp =>
            change Only _ (if !resp.isSuccess && isTransientStatus resp.status then (do
              sleep delay
              sendWithRetryFrom request delays) else pure (.ok resp))
            split
            · exact ⟨Effect.noConfusion, fun _ => ih⟩
            · trivial
  exact ladder retryDelays

variable {crates build}

private theorem postItems_reads_no_token (token : String) (items : List JsonApiResource)
    (deviceSerial : String) :
    (postItems build token items deviceSerial).Only fun action => action ≠ .readAuthToken := by
  refine (sendWithRetry_reads_no_token _).bind fun reply => ?_
  cases reply with
  | error e => trivial
  | ok resp =>
      change Only _ (if resp.isRejection then (do
        invalidateAuth
        pure (.ok ())) else pure (.ok ()) : Program (Except String Unit))
      split
      · exact ⟨Effect.noConfusion, fun _ => ⟨Effect.noConfusion, fun _ => trivial⟩⟩
      · trivial

private theorem collectAndPost_reads_no_token (token : String) (body : Except String Value) :
    (collectAndPost crates build token body).Only fun action => action ≠ .readAuthToken := by
  cases body with
  | error e => trivial
  | ok cfgJson =>
      simp only [collectAndPost]
      split
      · trivial
      · refine ((assembleItems_only _).mono fun _ => ne_read_of_collects).bind ?_
        rintro ⟨items, deviceSerial⟩
        change Only _ (if items.length = 0 then pure (.ok ())
          else postItems build token items deviceSerial)
        split
        · trivial
        · exact postItems_reads_no_token token items deviceSerial

private theorem handleConfig_reads_no_token (token : String) (cfgResp : Response) :
    (handleConfig crates build token cfgResp).Only fun action => action ≠ .readAuthToken := by
  unfold handleConfig
  split
  · exact ⟨Effect.noConfusion, fun _ => ⟨Effect.noConfusion, fun _ => trivial⟩⟩
  · split
    · trivial
    · refine ⟨Effect.noConfusion, fun label => ?_⟩
      cases label with
      | none => exact ⟨Effect.noConfusion, fun _ => collectAndPost_reads_no_token token _⟩
      | some name => exact collectAndPost_reads_no_token token _

/-! The parts conform, each from the phase the part before it ends in. -/

private theorem onAgent_conforms {α : Type} {program : Program α}
    (only : program.Only fun action => action ≠ .readAuthToken) :
    (onAgent program).Conforms (loopPart fun phase _ => phase = .between) .between := by
  refine (only.lift fun action other => ?_ : (onAgent program).Only fun action =>
    ∃ effect, action = .agent effect ∧ effect ≠ .readAuthToken).conforms ?_ ?_ ?_
  · exact ⟨action, rfl, other⟩
  · rintro _ ⟨effect, rfl, other⟩
    exact other
  · rintro _ _ ⟨effect, rfl, other⟩
    rfl
  · exact fun _ => rfl

theorem runCycle_conforms_loop :
    (onAgent (runCycle crates build)).Conforms (loopPart fun phase _ => phase = .between)
      .starting := by
  refine ⟨rfl, fun copied => ?_⟩
  cases copied with
  | none => rfl
  | some token =>
      refine onAgent_conforms ((sendWithRetry_reads_no_token _).bind fun reply => ?_)
      cases reply with
      | error e => trivial
      | ok cfgResp => exact handleConfig_reads_no_token token cfgResp

def LoopPhase.AfterPoll : LoopPhase → Option Branch → Prop
  | phase, none => phase = .between
  | phase, some branch => phase = .taken branch

theorem pollBranches_conforms : pollBranches.Conforms (loopPart LoopPhase.AfterPoll) .between := by
  refine ⟨trivial, fun tickFirst => ?_⟩
  cases tickFirst with
  | true =>
      refine ⟨trivial, fun ticked => ?_⟩
      cases ticked with
      | true => rfl
      | false =>
          refine ⟨trivial, fun notified => ?_⟩
          cases notified <;> rfl
  | false =>
      refine ⟨trivial, fun notified => ?_⟩
      cases notified with
      | true => rfl
      | false =>
          refine ⟨trivial, fun ticked => ?_⟩
          cases ticked <;> rfl

def LoopPhase.AfterSelect : LoopPhase → Option Branch → Prop
  | phase, none => phase = .between
  | phase, some branch => phase = branch.handler

theorem selectBranch_conforms (polls : Nat) :
    (selectBranch polls).Conforms (loopPart LoopPhase.AfterSelect) .between := by
  induction polls with
  | zero => rfl
  | succ polls ih =>
      refine pollBranches_conforms.bind ?_
      rintro phase (_ | branch) ends
      · obtain rfl : phase = .between := ends
        exact ih
      · obtain rfl : phase = .taken branch := ends
        exact ⟨trivial, fun _ => rfl⟩

theorem collectRounds_conforms (polls rounds : Nat) :
    (collectRounds crates build polls rounds).Conforms loopSteps .between := by
  induction rounds with
  | zero => trivial
  | succ rounds ih =>
      have round : (onAgent (runCycle crates build) >>= fun _logged =>
          collectRounds crates build polls rounds).Conforms loopSteps .starting := by
        refine runCycle_conforms_loop.bind ?_
        rintro phase _logged rfl
        exact ih
      refine (selectBranch_conforms polls).bind ?_
      rintro phase (_ | (_ | _)) ends
      · trivial
      · obtain rfl : phase = .starting := ends
        exact round
      · obtain rfl : phase = .resetting := ends
        exact ⟨trivial, fun _ => round⟩

theorem awaitToken_conforms (polls : Nat) :
    (awaitToken polls).Conforms (loopPart fun phase _ => phase = .polling) .polling := by
  induction polls with
  | zero => rfl
  | succ polls ih =>
      refine ⟨trivial, fun found => ?_⟩
      cases found with
      | true => rfl
      | false => exact ⟨rfl, fun _ => ih⟩

theorem spawnBackgroundLoop_conforms (intervalSeconds : Option String) (rounds : Nat) :
    (spawnBackgroundLoop crates build intervalSeconds rounds).Conforms loopSteps .polling := by
  refine (awaitToken_conforms rounds).bind ?_
  rintro phase found rfl
  cases found with
  | true => exact ⟨trivial, fun _ => collectRounds_conforms rounds rounds⟩
  | false => trivial

private theorem onAgent_conforms_outside (program : Program Unit) :
    (onAgent program).Conforms loopSteps .outside := by
  induction program with
  | done result => trivial
  | act action next ih => exact ⟨trivial, fun reply => ih reply⟩

private theorem passTime_conforms (steps : List Nat) :
    (passTime steps).Conforms loopSteps .outside := by
  induction steps with
  | nil => trivial
  | cons passed steps ih => exact ⟨trivial, fun _ => ih⟩

def firstLoopPhase : Option ι → LoopPhase
  | none => .polling
  | some _ => .outside

theorem loopThreads_conform (intervalSeconds : Option String) (rounds : Nat)
    (tasks : ι → LoopTask) (thread : Option ι) :
    (loopThreads crates build intervalSeconds rounds tasks thread).Conforms loopSteps
      (firstLoopPhase thread) := by
  cases thread with
  | none => exact spawnBackgroundLoop_conforms intervalSeconds rounds
  | some thread =>
      change ((tasks thread).program crates).Conforms loopSteps .outside
      cases tasks thread with
      | agent task => exact onAgent_conforms_outside _
      | clock steps => exact passTime_conforms steps

end KlaayGuard
