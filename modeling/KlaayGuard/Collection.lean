/-
One collection cycle: fetch the configuration, collect, send, and end the
session when the API rejects the token.

The cycle copies the token at its start and may wait minutes in the two retry
ladders.  The invalidation that follows a rejection does not look at the token
again, so it ends whatever session is live by then.
-/

import KlaayGuard.Config
import KlaayGuard.DeviceIdentity
import KlaayGuard.Session

set_option autoImplicit false

namespace KlaayGuard

open EffectProgram Prog

def isTransientStatus (code : Nat) : Bool := code == 429 || (500 ≤ code && code ≤ 599)

def retryDelays : List Nat := [60, 120]

def sendWithRetryFrom (request : Request) : List Nat → Program (Except String Response)
  | [] => send request
  | delay :: delays => do
      match ← send request with
      | .ok resp =>
          if !resp.isSuccess && isTransientStatus resp.status then do
            sleep delay
            sendWithRetryFrom request delays
          else pure (.ok resp)
      | .error _ => do
          sleep delay
          sendWithRetryFrom request delays

def sendWithRetry (request : Request) : Program (Except String Response) :=
  sendWithRetryFrom request retryDelays

structure Build : Type where
  os : String
  version : String

def stampRow (collectedAt : String) : Value → Value
  | .object members =>
      .object (Value.insertMember "collected_at" (.string collectedAt) members)
  | row => row

def buildPayloadItems (results : List (String × Value)) (collectedAt : String) :
    List JsonApiResource :=
  results.flatMap fun (table, value) =>
    match value.asArray with
    | none => []
    | some arr =>
        arr.map fun row =>
          { id := none, type := table, attributes := stampRow collectedAt row }

def checkinMeta (build : Build) (deviceUuid : String) : Value :=
  .object [("device_uuid", .string deviceUuid), ("app_version", .string build.version)]

def osqueryQueries (items : List CollectionItem) : List (String × String) :=
  items.filterMap fun
    | .osquery id sql => some (id, sql)
    | .builtin _ _ => none

def builtinChecks (items : List CollectionItem) : List (String × String) :=
  items.filterMap fun
    | .osquery _ _ => none
    | .builtin id check => some (id, check)

def runBuiltinChecks (results : List (String × Value)) :
    List (String × String) → Program (List (String × Value))
  | [] => pure results
  | (id, check) :: checks => do
      let rows ← runBuiltinCheck check
      runBuiltinChecks (Value.insertMember id rows results) checks

variable (crates : Crates) (build : Build)

/-- Native checks first, then osquery; a sidecar that cannot spawn costs only
its own rows. -/
def collectRows (items : List CollectionItem) : Program (List (String × Value)) := do
  let results ← runBuiltinChecks [] (builtinChecks items)
  if (osqueryQueries items).isEmpty then pure results
  else
    match ← executeSqlBatch crates (osqueryQueries items) with
    | .ok rows => pure (rows.foldl (fun all (id, value) => Value.insertMember id value all) results)
    | .error _ => pure results

/-- The resources of one check-in and the identity it goes under. -/
def assembleItems (items : List CollectionItem) :
    Program (List JsonApiResource × String) := do
  let results ← collectRows crates items
  let collectedAt ← now
  let identity ← getDeviceIdentityInternal crates (Value.member "system_info" results)
  let deviceSerial := match identity with
    | .ok serial => serial
    | .error _ => "unknown"
  pure (buildPayloadItems results collectedAt, deviceSerial)

def postItems (token : String) (items : List JsonApiResource) (deviceSerial : String) :
    Program (Except String Unit) := do
  let payload : JsonApiPayload :=
    { data := items
      metaInfo := some (checkinMeta build deviceSerial)
      jsonapi := some (.object [("version", .string "1.0")]) }
  match ← sendWithRetry (.data token payload) with
  | .error _ => pure (.ok ())
  | .ok resp =>
      if resp.isRejection then do
        invalidateAuth
        pure (.ok ())
      else pure (.ok ())

def collectAndPost (token : String) (body : Except String Value) :
    Program (Except String Unit) := do
  match body with
  | .error e => pure (.error e)
  | .ok cfgJson =>
      let items := parseConfigItems cfgJson build.os
      if items.isEmpty then pure (.ok ())
      else do
        let (items, deviceSerial) ← assembleItems crates items
        if items.length = 0 then pure (.ok ())
        else postItems build token items deviceSerial

def handleConfig (token : String) (cfgResp : Response) : Program (Except String Unit) :=
  if cfgResp.isRejection then do
    invalidateAuth
    pure (.ok ())
  else if !cfgResp.isSuccess then pure (.ok ())
  else do
    nameUnnamedHolder
    collectAndPost crates build token cfgResp.body

def runCycle : Program (Except String Unit) := do
  match ← readAuthToken with
  | none => pure (.ok ())
  | some token =>
      match ← sendWithRetry (.config token) with
      | .error _ => pure (.ok ())
      | .ok cfgResp => handleConfig crates build token cfgResp

/-! ### What a cycle may still do -/

def Effect.leavesSession : Effect → Bool
  | .send _ => false
  | .writeAuthToken _ => false
  | .writeUserLabel _ => false
  | _ => true

inductive CyclePhase : Type where
  /-- A task that is no cycle. -/
  | free
  | waiting
  | holding (token : String)
  /-- A request with the token was answered 401 or 403. -/
  | rejected (token : String)
  /-- The invalidation has written the token and not yet the label. -/
  | cleared (token : String)
  | ended

def CyclePhase.Invalidates (phase : CyclePhase) (token : String) : Prop :=
  phase = .rejected token ∨ phase = .cleared token

def cycleNext : CyclePhase → (action : Effect) → action.Reply → CyclePhase
  | .waiting, .readAuthToken, some token => .holding token
  | .waiting, .readAuthToken, none => .ended
  | .holding token, .send _, .ok response =>
      if response.isRejection then .rejected token else .holding token
  | .rejected token, .writeAuthToken _, _ => .cleared token
  | .cleared _, .writeUserLabel _, _ => .ended
  | phase, _, _ => phase

def cycleAllowed : CyclePhase → Effect → Prop
  | .free, _ => True
  | .waiting, action => action = .readAuthToken
  | .holding token, action =>
      action.leavesSession = true ∨ ∃ request, action = .send request ∧ request.bearer = token
  | .rejected _, action => action = .writeAuthToken none
  | .cleared _, action => action = .writeUserLabel none
  | .ended, _ => False

def cycleSteps : Protocol Effect Effect.Reply CyclePhase Unit :=
  { allowed := cycleAllowed
    next := cycleNext
    finished := fun phase _ => ∀ token, ¬ phase.Invalidates token }

/-- The same automaton for the parts of a cycle: what must hold at the end of
one is what the next part needs. -/
def cyclePart {α : Type} (finished : CyclePhase → α → Prop) :
    Protocol Effect Effect.Reply CyclePhase α :=
  { allowed := cycleAllowed
    next := cycleNext
    finished := finished }

variable {crates build} {token : String}

theorem cycleNext_leavesSession {action : Effect} {reply : action.Reply}
    (kind : action.leavesSession = true) :
    cycleNext (.holding token) action reply = .holding token := by
  cases action <;> first | rfl | cases kind

theorem conforms_of_leavesSession {α : Type} {program : Program α}
    {finished : CyclePhase → α → Prop}
    (only : program.Only fun action => action.leavesSession = true)
    (ends : ∀ result, finished (.holding token) result) :
    program.Conforms (cyclePart finished) (.holding token) :=
  only.conforms (fun _ kind => Or.inl kind) (fun _ _ kind => cycleNext_leavesSession kind) ends

theorem not_transient_of_isRejection {resp : Response} (rejection : resp.isRejection = true) :
    isTransientStatus resp.status = false := by
  simp only [Response.isRejection, Bool.or_eq_true, beq_iff_eq] at rejection
  rcases rejection with h | h <;> rw [h] <;> rfl

theorem sendWithRetryFrom_conforms {request : Request}
    {finished : CyclePhase → Except String Response → Prop}
    (bearer : request.bearer = token) (delays : List Nat)
    (failed : ∀ e, finished (.holding token) (.error e))
    (answered : ∀ resp : Response, resp.isRejection = false →
      finished (.holding token) (.ok resp))
    (refused : ∀ resp : Response, resp.isRejection = true →
      finished (.rejected token) (.ok resp)) :
    (sendWithRetryFrom request delays).Conforms (cyclePart finished) (.holding token) := by
  have returned : ∀ resp : Response, finished
      (if resp.isRejection then .rejected token else .holding token) (.ok resp) := by
    intro resp
    cases rejection : resp.isRejection with
    | true => exact refused resp rejection
    | false => exact answered resp rejection
  induction delays with
  | nil =>
      refine ⟨Or.inr ⟨request, rfl, bearer⟩, fun reply => ?_⟩
      cases reply with
      | error e => exact failed e
      | ok resp => exact returned resp
  | cons delay delays ih =>
      refine ⟨Or.inr ⟨request, rfl, bearer⟩, fun reply => ?_⟩
      cases reply with
      | error e => exact ⟨Or.inl rfl, fun _ => ih⟩
      | ok resp =>
          change Conforms _
            (if resp.isRejection then CyclePhase.rejected token else CyclePhase.holding token)
            (if !resp.isSuccess && isTransientStatus resp.status then (do
              sleep delay
              sendWithRetryFrom request delays) else pure (.ok resp))
          cases retried : !resp.isSuccess && isTransientStatus resp.status with
          | false => exact returned resp
          | true =>
              cases rejection : resp.isRejection with
              | true =>
                  rw [not_transient_of_isRejection rejection, Bool.and_false] at retried
                  cases retried
              | false => exact ⟨Or.inl rfl, fun _ => ih⟩

/-! The collecting part leaves the session alone. -/

def Effect.collects : Effect → Bool
  | .readDeviceIdentity | .writeDeviceIdentity _ => true
  | .openEntry _ | .setPassword _ _ | .getPassword _ | .deleteCredential _ => true
  | .fileSave _ _ | .fileRead _ | .fileDelete _ => true
  | .sleep _ | .now | .runSidecar _ | .runBuiltinCheck _ | .readMachineId | .fillRandom => true
  | _ => false

theorem leavesSession_of_collects {action : Effect} (kind : action.collects = true) :
    action.leavesSession = true := by
  cases action <;> first | rfl | cases kind

theorem runBuiltinChecks_only (results : List (String × Value)) (checks : List (String × String)) :
    (runBuiltinChecks results checks).Only fun action =>
      ∃ check, action = .runBuiltinCheck check := by
  induction checks generalizing results with
  | nil => trivial
  | cons check checks ih => exact ⟨⟨_, rfl⟩, fun rows => ih _⟩

theorem executeSqlBatchFrom_only (results : List (String × Value))
    (queries : List (String × String)) :
    (executeSqlBatchFrom crates results queries).Only fun action =>
      ∃ sql, action = .runSidecar sql := by
  induction queries generalizing results with
  | nil => trivial
  | cons query queries ih =>
      refine ⟨⟨_, rfl⟩, fun outcome => ?_⟩
      cases outcome with
      | unavailable message => trivial
      | spawnFailed message => trivial
      | exited success stdout => exact ih _

theorem collectRows_only (items : List CollectionItem) :
    (collectRows crates items).Only fun action =>
      (∃ check, action = .runBuiltinCheck check) ∨ ∃ sql, action = .runSidecar sql := by
  refine ((runBuiltinChecks_only _ _).mono fun _ => Or.inl).bind fun results => ?_
  split
  · trivial
  · refine ((executeSqlBatchFrom_only [] _).mono fun _ => Or.inr).bind fun rows => ?_
    cases rows <;> trivial

theorem decideAndStore_only (systemInfo : Option Value) :
    (decideAndStore crates systemInfo).Only fun action => action.collects = true := by
  refine (hostIdentity_only.mono ?_).bind fun answer => ?_
  · intro action kind
    cases action <;> first | rfl | cases kind
  · cases answer with
    | error e => trivial
    | ok identity =>
        refine (saveDeviceIdentity_only.mono ?_).bind fun saved => ?_
        · rintro action (rfl | rfl | rfl | rfl) <;> rfl
        · cases saved with
          | error e => trivial
          | ok _ => exact ⟨rfl, fun _ => trivial⟩

theorem getDeviceIdentityInternal_only (systemInfo : Option Value) :
    (getDeviceIdentityInternal crates systemInfo).Only fun action =>
      action.collects = true := by
  refine ⟨rfl, fun cached => ?_⟩
  cases cached with
  | some identity => trivial
  | none =>
      refine (load_only.mono ?_).bind fun loaded => ?_
      · rintro action (rfl | rfl | rfl) <;> rfl
      · rcases loaded with e | (_ | stored)
        · exact decideAndStore_only systemInfo
        · exact decideAndStore_only systemInfo
        · change (if stored ≠ "" then _ else _ : Program (Except String String)).Only _
          split
          · exact ⟨rfl, fun _ => trivial⟩
          · exact decideAndStore_only systemInfo

theorem assembleItems_only (items : List CollectionItem) :
    (assembleItems crates items).Only fun action => action.collects = true := by
  refine ((collectRows_only items).mono ?_).bind fun results => ⟨rfl, fun collectedAt => ?_⟩
  · rintro action (⟨check, rfl⟩ | ⟨sql, rfl⟩) <;> rfl
  · exact (getDeviceIdentityInternal_only _).bind fun identity => trivial

def Uninvolved {α : Type} (phase : CyclePhase) (_result : α) : Prop :=
  ∀ token, ¬ phase.Invalidates token

theorem ended_conforms {α : Type} (token : String) (result : α) :
    (Prog.done result : Program α).Conforms (cyclePart Uninvolved) (.holding token) := by
  rintro other (h | h) <;> cases h

theorem invalidateAuth_conforms :
    (invalidateAuth >>= fun _ => pure (.ok ()) : Program (Except String Unit)).Conforms
      (cyclePart Uninvolved) (.rejected token) := by
  refine ⟨rfl, fun _ => ⟨rfl, fun _ => ?_⟩⟩
  rintro other (h | h) <;> cases h

theorem sendWithRetry_bind_conforms {α : Type} {request : Request}
    {continuation : Except String Response → Program α} (bearer : request.bearer = token)
    (failed : ∀ e,
      (continuation (.error e)).Conforms (cyclePart Uninvolved) (.holding token))
    (answered : ∀ resp : Response, resp.isRejection = false →
      (continuation (.ok resp)).Conforms (cyclePart Uninvolved) (.holding token))
    (refused : ∀ resp : Response, resp.isRejection = true →
      (continuation (.ok resp)).Conforms (cyclePart Uninvolved) (.rejected token)) :
    (sendWithRetry request >>= continuation).Conforms (cyclePart Uninvolved)
      (.holding token) := by
  rw [Prog.conforms_bind]
  exact sendWithRetryFrom_conforms bearer _ failed answered refused

theorem postItems_conforms (items : List JsonApiResource) (deviceSerial : String) :
    (postItems build token items deviceSerial).Conforms (cyclePart Uninvolved)
      (.holding token) := by
  rw [postItems]
  refine sendWithRetry_bind_conforms ?_ ?_ ?_ ?_
  · rfl
  · intro e
    exact ended_conforms token _
  · intro resp accepted
    simp only [accepted, Bool.false_eq_true, if_false]
    exact ended_conforms token _
  · intro resp rejection
    simp only [rejection, if_true]
    exact invalidateAuth_conforms

theorem collectAndPost_conforms (body : Except String Value) :
    (collectAndPost crates build token body).Conforms (cyclePart Uninvolved)
      (.holding token) := by
  cases body with
  | error e => exact ended_conforms token _
  | ok cfgJson =>
      simp only [collectAndPost]
      split
      · exact ended_conforms token _
      · rw [Prog.conforms_bind]
        refine conforms_of_leavesSession
          ((assembleItems_only _).mono fun _ => leavesSession_of_collects) ?_
        rintro ⟨items, deviceSerial⟩
        change Conforms (cyclePart Uninvolved) (.holding token)
          (if items.length = 0 then pure (.ok ()) else postItems build token items deviceSerial)
        split
        · exact ended_conforms token _
        · exact postItems_conforms items deviceSerial

theorem handleConfig_conforms_accepted {cfgResp : Response}
    (accepted : cfgResp.isRejection = false) :
    (handleConfig crates build token cfgResp).Conforms (cyclePart Uninvolved)
      (.holding token) := by
  rw [handleConfig, accepted]
  simp only [Bool.false_eq_true, if_false]
  split
  · exact ended_conforms token _
  · refine ⟨Or.inl rfl, fun label => ?_⟩
    cases label with
    | none => exact ⟨Or.inl rfl, fun _ => collectAndPost_conforms _⟩
    | some name => exact collectAndPost_conforms _

theorem handleConfig_conforms_rejected {cfgResp : Response}
    (rejection : cfgResp.isRejection = true) :
    (handleConfig crates build token cfgResp).Conforms (cyclePart Uninvolved)
      (.rejected token) := by
  rw [handleConfig, rejection]
  exact invalidateAuth_conforms

theorem runCycle_conforms :
    (runCycle crates build).Conforms (cyclePart Uninvolved) .waiting := by
  refine ⟨rfl, fun copied => ?_⟩
  cases copied with
  | none =>
      rintro other (h | h) <;> cases h
  | some token =>
      refine sendWithRetry_bind_conforms ?_ ?_ ?_ ?_
      · rfl
      · intro e
        exact ended_conforms token _
      · intro resp accepted
        exact handleConfig_conforms_accepted accepted
      · intro resp rejection
        exact handleConfig_conforms_rejected rejection

/-! ### Cycles among sign-ins and sign outs -/

inductive AgentTask : Type where
  | cycle
  | signIn (token : String)
  | signOut
  | refresh
  deriving DecidableEq, Repr

def AgentTask.program (crates : Crates) (build : Build) : AgentTask → Program Unit
  | cycle => do
      let _result ← runCycle crates build
      pure ()
  | signIn token => adoptToken crates token
  | signOut => KlaayGuard.signOut
  | refresh => refreshIdentity crates

def AgentTask.firstPhase : AgentTask → CyclePhase
  | cycle => .waiting
  | _ => .free

private theorem free_conforms (program : Program Unit) : program.Conforms cycleSteps .free := by
  induction program with
  | done result =>
      rintro token (h | h) <;> cases h
  | act action next ih => exact ⟨trivial, fun reply => ih reply⟩

theorem AgentTask.conforms (task : AgentTask) :
    (task.program crates build).Conforms cycleSteps task.firstPhase := by
  cases task with
  | cycle =>
      rw [AgentTask.program, Prog.conforms_bind]
      exact runCycle_conforms
  | signIn token => exact free_conforms _
  | signOut => exact free_conforms _
  | refresh => exact free_conforms _

variable {ι : Type} [DecidableEq ι]

/-- What each task may still do, by what it has done. -/
def cyclePhases (tasks : ι → AgentTask) (config : AgentConfig ι Unit) : ι → CyclePhase :=
  config.phase cycleSteps fun thread => (tasks thread).firstPhase

/-- A cycle's request is rejected while its token is live or no token is, and
no sign-in takes up another token before the invalidation is through. -/
def RejectionsMeetTheirSession (tasks : ι → AgentTask) :
    StepCondition World ι Effect Effect.Reply Unit :=
  fun config thread event =>
    (∀ request response, event = ⟨.send request, .ok response⟩ → tasks thread = .cycle →
      response.isRejection = true →
        config.shared.authToken = none ∨ config.shared.authToken = some request.bearer) ∧
    ∀ token, event.action = .writeAuthToken (some token) →
      ∀ other rejected, (cyclePhases tasks config other).Invalidates rejected → rejected = token

/-- Every invalidation under way concerns the live session or none. -/
def InvalidationsMatch (world : World) (phases : ι → CyclePhase) : Prop :=
  ∀ thread token, (phases thread).Invalidates token →
    world.authToken = none ∨ world.authToken = some token

variable {world after : World} {tasks : ι → AgentTask}

omit [DecidableEq ι] in
theorem cycle_of_phase {config : AgentConfig ι Unit} {thread : ι}
    (phase : cyclePhases tasks config thread ≠ .free) : tasks thread = .cycle := by
  cases task : tasks thread with
  | cycle => rfl
  | _ =>
      refine absurd (config.phase_keeps (fun phase : CyclePhase => phase = .free) ?_ ?_) phase
      · rw [task]
        rfl
      · rintro _ action reply rfl
        rfl

private theorem cycleNext_invalidates {phase : CyclePhase} {action : Effect}
    {reply : action.Reply} {token : String} (allowed : cycleAllowed phase action)
    (invalidates : (cycleNext phase action reply).Invalidates token) :
    action = .writeAuthToken none ∨
      ∃ request response, (⟨action, reply⟩ : AgentEvent) = ⟨.send request, .ok response⟩ ∧
        response.isRejection = true ∧ request.bearer = token := by
  cases phase with
  | free => rcases invalidates with h | h <;> cases h
  | waiting =>
      obtain rfl : action = .readAuthToken := allowed
      cases reply <;> rcases invalidates with h | h <;> cases h
  | holding held =>
      rcases allowed with quiet | ⟨request, rfl, bearer⟩
      · rw [cycleNext_leavesSession quiet] at invalidates
        rcases invalidates with h | h <;> cases h
      · cases reply with
        | error e => rcases invalidates with h | h <;> cases h
        | ok response =>
            change (if response.isRejection then CyclePhase.rejected held
              else CyclePhase.holding held).Invalidates token at invalidates
            cases rejection : response.isRejection with
            | false =>
                rw [rejection] at invalidates
                rcases invalidates with h | h <;> cases h
            | true =>
                rw [rejection] at invalidates
                have same : held = token := by
                  rcases invalidates with h | h
                  · exact CyclePhase.rejected.inj h
                  · cases h
                exact Or.inr ⟨request, response, rfl, rejection, bearer.trans same⟩
  | rejected refused => exact Or.inl allowed
  | cleared refused =>
      obtain rfl : action = .writeUserLabel none := allowed
      rcases invalidates with h | h <;> cases h
  | ended => exact False.elim allowed

omit [DecidableEq ι] in
private theorem own_invalidation {config : AgentConfig ι Unit} {thread : ι} {action : Effect}
    {reply : action.Reply} {token : String}
    (allowed : cycleAllowed (cyclePhases tasks config thread) action)
    (performed : performs config.shared action reply after)
    (landed : ∀ request response,
      (⟨action, reply⟩ : AgentEvent) = ⟨.send request, .ok response⟩ → tasks thread = .cycle →
        response.isRejection = true →
          config.shared.authToken = none ∨ config.shared.authToken = some request.bearer)
    (invalidates :
      (cycleNext (cyclePhases tasks config thread) action reply).Invalidates token) :
    after.authToken = none ∨ after.authToken = some token := by
  have notFree : cyclePhases tasks config thread ≠ .free := by
    intro free
    rw [free] at invalidates
    rcases invalidates with h | h <;> cases h
  rcases cycleNext_invalidates allowed invalidates with
    rfl | ⟨request, response, isEvent, rejection, rfl⟩
  · obtain ⟨_, rfl⟩ := performed
    exact Or.inl rfl
  · have live := landed request response isEvent (cycle_of_phase notFree) rejection
    cases isEvent
    obtain rfl : after = config.shared := performed
    exact live

theorem InvalidationsMatch.reached {crates : Crates} {build : Build} {start : World}
    {config : AgentConfig ι Unit}
    (reached : Reaches (agentSemantics ι) (RejectionsMeetTheirSession tasks)
      (Config.fresh start fun thread => (tasks thread).program crates build) config) :
    config.Follows cycleSteps (fun thread => (tasks thread).firstPhase) ∧
      InvalidationsMatch config.shared (cyclePhases tasks config) := by
  refine reached.invariant InvalidationsMatch (fun thread => (tasks thread).conforms) ?_ ?_
  · intro thread token invalidates
    rw [Config.phase_fresh] at invalidates
    cases task : tasks thread <;> rw [task] at invalidates <;>
      rcases invalidates with h | h <;> cases h
  · intro before thread action reply shared _follows matched allowed performed met other token
      invalidates
    by_cases same : other = thread
    · subst same
      rw [Function.update_self] at invalidates
      exact own_invalidation allowed performed met.1 invalidates
    · rw [Function.update_of_ne same] at invalidates
      by_cases written : ∃ token, action = .writeAuthToken token
      · obtain ⟨_ | adopted, rfl⟩ := written
        · obtain ⟨_, rfl⟩ := performed
          exact Or.inl rfl
        · obtain ⟨_, rfl⟩ := performed
          exact Or.inr (congrArg some (met.2 adopted rfl other token invalidates).symm)
      · rw [(performs_session performed).1 fun token same => written ⟨token, same⟩]
        exact matched other token invalidates

def CyclePhase.Concerns (phase : CyclePhase) (token : String) : Prop :=
  phase = .holding token ∨ phase.Invalidates token ∨ phase = .ended

theorem cycleNext_concerns {phase : CyclePhase} {token : String} (action : Effect)
    (reply : action.Reply) (concerns : phase.Concerns token) :
    (cycleNext phase action reply).Concerns token := by
  rcases concerns with rfl | (rfl | rfl) | rfl
  · cases action with
    | send request =>
        cases reply with
        | error e => exact Or.inl rfl
        | ok response =>
            change (if response.isRejection then CyclePhase.rejected token
              else CyclePhase.holding token).Concerns token
            cases response.isRejection with
            | false => exact Or.inl rfl
            | true => exact Or.inr (Or.inl (Or.inl rfl))
    | _ => exact Or.inl rfl
  · cases action with
    | writeAuthToken written => exact Or.inr (Or.inl (Or.inr rfl))
    | _ => exact Or.inr (Or.inl (Or.inl rfl))
  · cases action with
    | writeUserLabel label => exact Or.inr (Or.inr rfl)
    | _ => exact Or.inr (Or.inl (Or.inr rfl))
  · exact Or.inr (Or.inr rfl)

theorem cycleNext_copied {phase : CyclePhase} {token : String} (events : List AgentEvent)
    (concerns : phase.Concerns token) :
    (events.foldl (fun phase event => cycleNext phase event.action event.reply) phase).Concerns
      token := by
  induction events generalizing phase with
  | nil => exact concerns
  | cons event events ih => exact ih (cycleNext_concerns _ _ concerns)

/-- No step of a cycle that copied one token touches a live session with
another, in every run whose rejections meet their session. -/
theorem rejection_ends_its_session (crates : Crates) (build : Build) (tasks : ι → AgentTask)
    (start : World) (config after : AgentConfig ι Unit)
    (reached : Reaches (agentSemantics ι) (RejectionsMeetTheirSession tasks)
      (Config.fresh start fun thread => (tasks thread).program crates build) config)
    (thread : ι) (isCycle : tasks thread = .cycle) (token other : String)
    (rest : List AgentEvent)
    (copied : (config.threads thread).log = ⟨.readAuthToken, some token⟩ :: rest)
    (event : AgentEvent) (taken : Step (agentSemantics ι) config thread event after)
    (live : config.shared.authToken = some other) (different : other ≠ token) :
    after.shared.authToken = config.shared.authToken ∧
      after.shared.userLabel = config.shared.userLabel := by
  obtain ⟨follows, matched⟩ := InvalidationsMatch.reached reached
  have phase : cyclePhases tasks config thread =
      rest.foldl (fun phase event => cycleNext phase event.action event.reply)
        (.holding token) := by
    simp only [cyclePhases, Config.phase, isCycle, copied]
    rfl
  cases taken with
  | @perform action next reply shared pending performed =>
      have conforms := follows thread
      rw [pending, Prog.conforms_act] at conforms
      have allowed : cycleAllowed (cyclePhases tasks config thread) action := conforms.1
      have session := performs_session performed
      have concerns :=
        cycleNext_copied rest (Or.inl rfl : (CyclePhase.holding token).Concerns token)
      rw [← phase] at concerns
      rcases concerns with held | invalidates | ended
      · rw [held] at allowed
        rcases allowed with quiet | ⟨request, rfl, _⟩
        · constructor
          · refine session.1 fun token => ?_
            rintro rfl
            cases quiet
          · refine session.2 fun label => ?_
            rintro rfl
            cases quiet
        · obtain rfl : shared = config.shared := performed
          exact ⟨rfl, rfl⟩
      · rcases matched thread token invalidates with absent | same
        · rw [live] at absent
          cases absent
        · rw [live] at same
          exact absurd (Option.some.inj same) different
      · rw [ended] at allowed
        cases allowed

/-! A sign-in by another person while the cycle waits for its reply. -/

private def cycleAndBob : Bool → AgentTask
  | true => .cycle
  | false => .signIn "bob-token"

private def aliceSignedIn : World :=
  { World.firstStart with
    authToken := some "alice-token"
    userLabel := some "Alice Andersen" }

theorem rejection_ends_another_session :
    ¬ ∀ (crates : Crates) (build : Build) (ι : Type) [DecidableEq ι] (tasks : ι → AgentTask)
        (start : World) (config after : AgentConfig ι Unit) (thread : ι)
        (token other : String) (rest : List AgentEvent) (event : AgentEvent),
      Reaches (agentSemantics ι) AnyStep
        (Config.fresh start fun thread => (tasks thread).program crates build) config →
      tasks thread = .cycle →
      (config.threads thread).log = ⟨.readAuthToken, some token⟩ :: rest →
      Step (agentSemantics ι) config thread event after →
      config.shared.authToken = some other → other ≠ token →
      after.shared.authToken = config.shared.authToken ∧
        after.shared.userLabel = config.shared.userLabel := by
  intro claim
  have started : Reaches (agentSemantics Bool) AnyStep
      (Config.fresh aliceSignedIn fun thread =>
        (cycleAndBob thread).program .uncalled ⟨"linux", "0.1.12"⟩) _ := Reaches.refl _
  have copied := started.perform true ⟨.readAuthToken, some "alice-token"⟩ rfl ⟨rfl, rfl⟩ trivial
  have asked := copied.perform false ⟨.send (.me "bob-token"), .error "timed out"⟩ rfl rfl trivial
  have adopted := asked.perform false ⟨.writeAuthToken (some "bob-token"), ()⟩ rfl ⟨rfl, rfl⟩
    trivial
  have named := adopted.perform false ⟨.writeUserLabel none, ()⟩ rfl rfl trivial
  have rejected := named.perform true
    ⟨.send (.config "alice-token"), .ok ⟨401, .error "no body"⟩⟩ rfl rfl trivial
  have kept := claim .uncalled ⟨"linux", "0.1.12"⟩ Bool cycleAndBob aliceSignedIn _ _ true
    "alice-token" "bob-token" _ ⟨.writeAuthToken none, ()⟩ rejected rfl rfl
    (.perform rfl ⟨rfl, rfl⟩) rfl (by decide)
  cases kept.1

/-- A cycle whose own request only times out leaves the new session alone. -/
theorem rejection_ends_its_session_timeout :
    ∃ config after : AgentConfig Bool Unit, config.shared.authToken = some "bob-token" ∧
      after.shared.authToken = config.shared.authToken ∧
        after.shared.userLabel = config.shared.userLabel := by
  have started : Reaches (agentSemantics Bool) (RejectionsMeetTheirSession cycleAndBob)
      (Config.fresh aliceSignedIn fun thread =>
        (cycleAndBob thread).program .uncalled ⟨"linux", "0.1.12"⟩) _ := Reaches.refl _
  have copied := started.perform true ⟨.readAuthToken, some "alice-token"⟩ rfl ⟨rfl, rfl⟩
    ⟨by simp, by simp⟩
  have asked := copied.perform false ⟨.send (.me "bob-token"), .error "timed out"⟩ rfl rfl
    ⟨by simp, by simp⟩
  have adopted := asked.perform false ⟨.writeAuthToken (some "bob-token"), ()⟩ rfl ⟨rfl, rfl⟩ (by
    refine ⟨by simp, fun token _ other rejected invalidates => ?_⟩
    cases other with
    | true =>
        change (CyclePhase.holding "alice-token").Invalidates rejected at invalidates
        rcases invalidates with h | h <;> cases h
    | false =>
        change CyclePhase.free.Invalidates rejected at invalidates
        rcases invalidates with h | h <;> cases h)
  have named := adopted.perform false ⟨.writeUserLabel none, ()⟩ rfl rfl ⟨by simp, by simp⟩
  exact ⟨_, _, rfl, rejection_ends_its_session .uncalled ⟨"linux", "0.1.12"⟩ cycleAndBob
    aliceSignedIn _ _ named true rfl "alice-token" "bob-token" _ rfl
    ⟨.send (.config "alice-token"), .error "timed out"⟩ (.perform rfl rfl) rfl (by decide)⟩

end KlaayGuard
