/-
The tray: its menu, what repaints it, and the tasks that ask for that.

`refresh_tray` reads the session under one lock after another and posts a closure with what it
read; the main thread runs the posted closures in their order.  A closure changes
the menu only where a flag says that it has to, and every call on the menu may be refused.
-/

import KlaayGuard.BackgroundLoop
import KlaayGuard.Library.Mailbox

set_option autoImplicit false

namespace KlaayGuard

open EffectProgram Prog Posting

/-- `as i64` from an unsigned number. -/
def asI64 (n : Nat) : Int := Int.bmod n UInt64.size

/-- `a - b` on `i64` in a build without overflow checks. -/
def subI64 (a b : Int) : Int := Int.bmod (a - b) UInt64.size

/-- `{:02}`. -/
def twoDigits (n : Int) : String := if n < 10 then "0" ++ toString n else toString n

def fmtCountdown (secs : Int) : String :=
  if secs ≤ 0 then "Fetching now…"
  else
    let m := Int.tdiv secs 60
    let s := Int.tmod secs 60
    if 0 < m then "Next fetch in " ++ toString m ++ "m " ++ twoDigits s ++ "s"
    else "Next fetch in " ++ toString s ++ "s"

/-- Seconds to the next fetch, from the seconds since the last attempt. -/
def remainingSeconds (interval : Int) (elapsed : Option Nat) : Int :=
  match elapsed with
  | some seconds => max (subI64 interval (asI64 seconds)) 0
  | none => 0

inductive MenuEntry : Type where
  | user
  | authAction
  | employeeHub
  | separator
  | version
  | signOut
  deriving DecidableEq, Repr

inductive StatusDot : Type where
  | green
  | red
  deriving DecidableEq, Repr

structure TrayMenu : Type where
  itemText : String
  itemEnabled : Bool
  userText : String
  userShown : Bool
  menu : List MenuEntry
  icon : StatusDot
  lastSignedIn : Bool
  deriving DecidableEq, Repr

def TrayMenu.built : TrayMenu :=
  { itemText := "Starting…"
    itemEnabled := false
    userText := ""
    userShown := false
    menu := [.authAction, .employeeHub, .separator, .version]
    icon := .red
    lastSignedIn := false }

inductive TrayCall : Type where
  | setText (text : String)
  | setEnabled (enabled : Bool)
  | setUserText (label : String)
  | swapUserShown (shown : Bool)
  | prepend (entry : MenuEntry)
  | append (entry : MenuEntry)
  | remove (entry : MenuEntry)
  | swapLastSignedIn (signedIn : Bool)
  | setIcon (icon : StatusDot)
  deriving DecidableEq, Repr

/-- A swap answers with the flag's old value, a call with whether it was done. -/
abbrev TrayCall.Reply : TrayCall → Type := fun _ => Bool

/-- An entry that is not in the menu cannot be removed. -/
def performsTrayCall : TrayMenu → (call : TrayCall) → call.Reply → TrayMenu → Prop
  | tray, .swapUserShown shown, reply, after =>
      reply = tray.userShown ∧ after = { tray with userShown := shown }
  | tray, .swapLastSignedIn signedIn, reply, after =>
      reply = tray.lastSignedIn ∧ after = { tray with lastSignedIn := signedIn }
  | tray, .setText text, reply, after =>
      after = if reply then { tray with itemText := text } else tray
  | tray, .setEnabled enabled, reply, after =>
      after = if reply then { tray with itemEnabled := enabled } else tray
  | tray, .setUserText label, reply, after =>
      after = if reply then { tray with userText := label } else tray
  | tray, .prepend entry, reply, after =>
      after = if reply then { tray with menu := entry :: tray.menu } else tray
  | tray, .append entry, reply, after =>
      after = if reply then { tray with menu := tray.menu ++ [entry] } else tray
  | tray, .remove entry, reply, after =>
      (reply = true → entry ∈ tray.menu) ∧
        after = if reply then { tray with menu := tray.menu.erase entry } else tray
  | tray, .setIcon icon, reply, after =>
      after = if reply then { tray with icon := icon } else tray

abbrev TrayCallProgram (α : Type) : Type := Prog TrayCall TrayCall.Reply α

abbrev TrayCallEvent : Type := Event TrayCall TrayCall.Reply

structure TrayPaint : Type where
  text : String
  enabled : Bool
  signedIn : Bool
  userLabel : Option String
  deriving DecidableEq, Repr

/-- The name line joins the menu above every other item, after its text is set. -/
def paintUser (userLabel : Option String) : TrayCallProgram Unit := do
  let showUser := userLabel.isSome
  match userLabel with
  | some label =>
      let _ ← perform (TrayCall.setUserText label)
      pure ()
  | none => pure ()
  let wasShown ← perform (TrayCall.swapUserShown showUser)
  if wasShown ≠ showUser then
    let _ ← if showUser then perform (TrayCall.prepend .user) else perform (TrayCall.remove .user)
    pure ()
  else pure ()

def dotOf (signedIn : Bool) : StatusDot := if signedIn then .green else .red

/-- The status dot and the "Sign out" item change on a flip only. -/
def paintAuth (signedIn : Bool) : TrayCallProgram Unit := do
  let prev ← perform (TrayCall.swapLastSignedIn signedIn)
  if prev ≠ signedIn then
    let _ ← perform (TrayCall.setIcon (dotOf signedIn))
    let _ ← if signedIn then perform (TrayCall.append .signOut)
      else perform (TrayCall.remove .signOut)
    pure ()
  else pure ()

/-- The closure that `refresh_tray` posts. -/
def paintTray (paint : TrayPaint) : TrayCallProgram Unit := do
  let _ ← perform (TrayCall.setText paint.text)
  let _ ← perform (TrayCall.setEnabled paint.enabled)
  paintUser paint.userLabel
  paintAuth paint.signedIn

def TrayCall.Done : (call : TrayCall) → call.Reply → Prop
  | .swapUserShown _, _ => True
  | .swapLastSignedIn _, _ => True
  | _, reply => reply = true

/-! ### The actions of the tasks -/

inductive TrayAction : Type where
  | agent (effect : Effect)
  /-- `last_attempt_at` is set to the present instant. -/
  | recordAttempt
  | elapse (passed : Nat)
  | awaitTick
  | tokenIsSome
  /-- The seconds since `last_attempt_at`. -/
  | attemptElapsed
  | userLabel
  | runOnMainThread (paint : TrayPaint)
  /-- The main thread runs the closure that waits longest. -/
  | runPosted

@[reducible] def TrayAction.Reply : TrayAction → Type
  | .agent effect => effect.Reply
  | .recordAttempt => Unit
  | .elapse _ => Unit
  | .awaitTick => Unit
  | .tokenIsSome => Bool
  | .attemptElapsed => Option Nat
  | .userLabel => Option String
  | .runOnMainThread _ => Bool
  | .runPosted => List TrayCallEvent

abbrev TrayProgram (α : Type) : Type := Prog TrayAction TrayAction.Reply α

abbrev TrayEvent : Type := Event TrayAction TrayAction.Reply

def refreshTray (intervalSeconds : Option String) : TrayProgram Unit := do
  let (text, enabled) ← (do
    if ← perform TrayAction.tokenIsSome then
      let interval := asI64 (collectionIntervalSeconds intervalSeconds)
      let elapsed ← perform TrayAction.attemptElapsed
      pure (fmtCountdown (remainingSeconds interval elapsed), false)
    else pure ("Sign in", true) : TrayProgram (String × Bool))
  let signedIn := !enabled
  let userLabel ← perform TrayAction.userLabel
  let _ ← perform (TrayAction.runOnMainThread
    { text := text, enabled := enabled, signedIn := signedIn, userLabel := userLabel })
  pure ()

/-- The loop is cut off after a number of ticks; every run is one for enough. -/
def spawnTrayClock (intervalSeconds : Option String) : Nat → TrayProgram Unit
  | 0 => pure ()
  | ticks + 1 => do
      perform TrayAction.awaitTick
      refreshTray intervalSeconds
      spawnTrayClock intervalSeconds ticks

def besideTray {α : Type} (program : Program α) : TrayProgram α :=
  program.lift TrayAction.agent fun _ reply => reply

/-- The blocking task behind a click on "Sign out". -/
def handleSignOutClick (intervalSeconds : Option String) : TrayProgram Unit := do
  besideTray signOut
  refreshTray intervalSeconds

def runPostedClosures : Nat → TrayProgram Unit
  | 0 => pure ()
  | closures + 1 => do
      let _ ← perform TrayAction.runPosted
      runPostedClosures closures

def TrayAction.Beside : TrayAction → Prop
  | .agent _ => True
  | .recordAttempt => True
  | .elapse _ => True
  | _ => False

/-- Every other task of the agent is some program that leaves the tray alone. -/
inductive TrayTask : Type where
  | mainThread (closures : Nat)
  | trayClock (ticks : Nat)
  | signOutClick
  | beside (program : TrayProgram Unit) (leaves : program.Only TrayAction.Beside)

def TrayTask.program (intervalSeconds : Option String) : TrayTask → TrayProgram Unit
  | mainThread closures => runPostedClosures closures
  | trayClock ticks => spawnTrayClock intervalSeconds ticks
  | signOutClick => handleSignOutClick intervalSeconds
  | beside program _ => program

variable {ι : Type}

structure TrayWorld (ι : Type) : Type where
  agent : World
  lastAttemptAt : Option Nat
  /-- The monotonic clock, in nanoseconds. -/
  clock : Nat
  mailbox : Mailbox ι TrayPaint
  /-- Absent where the tray could not be built. -/
  tray : Option TrayMenu

/-- Once the event loop has gone, nothing is posted any more. -/
def performsTray : ι → TrayWorld ι → (action : TrayAction) → action.Reply → TrayWorld ι → Prop
  | _, world, .agent effect, reply, after =>
      ∃ agent, performs world.agent effect reply agent ∧ after = { world with agent := agent }
  | _, world, .recordAttempt, _, after => after = { world with lastAttemptAt := some world.clock }
  | _, world, .elapse passed, _, after => after = { world with clock := world.clock + passed }
  | _, world, .awaitTick, _, after => after = world
  | _, world, .tokenIsSome, reply, after =>
      reply = world.agent.authToken.isSome ∧ after = world
  | _, world, .attemptElapsed, reply, after =>
      reply = world.lastAttemptAt.map (fun t => (world.clock - t) / nanoseconds 1) ∧ after = world
  | _, world, .userLabel, reply, after => reply = world.agent.userLabel ∧ after = world
  | thread, world, .runOnMainThread paint, reply, after =>
      after = if reply then { world with mailbox := world.mailbox.post thread paint } else world
  | _, world, .runPosted, reply, after =>
      ∃ paint mailbox, world.mailbox.deliver = some (paint, mailbox) ∧
        match world.tray with
        | none => reply = [] ∧ after = { world with mailbox := mailbox }
        | some tray =>
            ∃ painted, Runs performsTrayCall (paintTray paint) tray reply painted () ∧
              after = { world with mailbox := mailbox, tray := some painted }

abbrev TrayConfig (ι : Type) : Type := Config (TrayWorld ι) ι TrayAction TrayAction.Reply Unit

abbrev traySemantics (ι : Type) : Semantics (TrayWorld ι) ι TrayAction TrayAction.Reply :=
  performsTray

def TrayWorld.launched (agent : World) (lastAttemptAt : Option Nat) (clock : Nat) : TrayWorld ι :=
  { agent := agent
    lastAttemptAt := lastAttemptAt
    clock := clock
    mailbox := .empty
    tray := some .built }

def MenuObeys : StepCondition (TrayWorld ι) ι TrayAction TrayAction.Reply Unit :=
  fun _ _ event =>
    ∀ calls, event = ⟨.runPosted, calls⟩ → ∀ call ∈ calls, call.action.Done call.reply

def LeavesSession : StepCondition (TrayWorld ι) ι TrayAction TrayAction.Reply Unit :=
  fun _ _ event =>
    (∀ token, event.action ≠ .agent (.writeAuthToken token)) ∧
      ∀ label, event.action ≠ .agent (.writeUserLabel label)

inductive RefreshPhase : Type where
  | outside
  | counting
  | naming (text : String) (enabled : Bool)
  | posting (paint : TrayPaint)

def refreshAllowed : RefreshPhase → TrayAction → Prop
  | .outside, .attemptElapsed => False
  | .outside, .userLabel => False
  | .outside, .runOnMainThread _ => False
  | .outside, _ => True
  | .counting, action => action = .attemptElapsed
  | .naming _ _, action => action = .userLabel
  | .posting paint, action => action = .runOnMainThread paint

def refreshNext (interval : Int) :
    RefreshPhase → (action : TrayAction) → action.Reply → RefreshPhase
  | .outside, .tokenIsSome, true => .counting
  | .outside, .tokenIsSome, false => .naming "Sign in" true
  | .counting, .attemptElapsed, elapsed =>
      .naming (fmtCountdown (remainingSeconds interval elapsed)) false
  | .naming text enabled, .userLabel, userLabel =>
      .posting { text := text, enabled := enabled, signedIn := !enabled, userLabel := userLabel }
  | .posting _, .runOnMainThread _, _ => .outside
  | phase, _, _ => phase

def refreshSteps (intervalSeconds : Option String) :
    Protocol TrayAction TrayAction.Reply RefreshPhase Unit :=
  { allowed := refreshAllowed
    next := refreshNext (asI64 (collectionIntervalSeconds intervalSeconds))
    finished := fun phase _ => phase = .outside }

variable {intervalSeconds : Option String}

theorem refreshTray_conforms :
    (refreshTray intervalSeconds).Conforms (refreshSteps intervalSeconds) .outside := by
  refine ⟨trivial, fun signedIn => ?_⟩
  cases signedIn with
  | true => exact ⟨rfl, fun _elapsed => ⟨rfl, fun _label => ⟨rfl, fun _posted => rfl⟩⟩⟩
  | false => exact ⟨rfl, fun _label => ⟨rfl, fun _posted => rfl⟩⟩

theorem spawnTrayClock_conforms (ticks : Nat) :
    (spawnTrayClock intervalSeconds ticks).Conforms (refreshSteps intervalSeconds) .outside := by
  induction ticks with
  | zero => rfl
  | succ ticks ih =>
      have round : (refreshTray intervalSeconds >>= fun _ =>
          spawnTrayClock intervalSeconds ticks).Conforms (refreshSteps intervalSeconds) .outside := by
        refine Conforms.bind refreshTray_conforms ?_
        rintro phase _ rfl
        exact ih
      exact ⟨trivial, fun _ => round⟩

theorem beside_conforms {program : TrayProgram Unit} (leaves : program.Only TrayAction.Beside) :
    program.Conforms (refreshSteps intervalSeconds) .outside := by
  refine leaves.conforms ?_ ?_ fun _ => rfl
  · intro action beside
    cases action <;> trivial
  · intro action reply beside
    cases action <;> first | rfl | cases beside

theorem besideTray_only {α : Type} (program : Program α) :
    (besideTray program).Only TrayAction.Beside :=
  (only_of_forall (fun _ => trivial) program : program.Only fun _ => True).lift
    fun _ _ => trivial

theorem handleSignOutClick_conforms :
    (handleSignOutClick intervalSeconds).Conforms (refreshSteps intervalSeconds) .outside := by
  refine Conforms.bind (beside_conforms (besideTray_only signOut)) ?_
  rintro phase _ rfl
  exact refreshTray_conforms

theorem runPostedClosures_conforms (closures : Nat) :
    (runPostedClosures closures).Conforms (refreshSteps intervalSeconds) .outside := by
  induction closures with
  | zero => rfl
  | succ closures ih => exact ⟨trivial, fun _ => ih⟩

theorem TrayTask.conforms (task : TrayTask) :
    (task.program intervalSeconds).Conforms (refreshSteps intervalSeconds) .outside := by
  cases task with
  | mainThread closures => exact runPostedClosures_conforms closures
  | trayClock ticks => exact spawnTrayClock_conforms ticks
  | signOutClick => exact handleSignOutClick_conforms
  | beside program leaves => exact beside_conforms leaves

end KlaayGuard
