/-
The package's postinstall script: which agents it stops, starts again and waits for.

The script reads the process table a file at a time while the table changes under it.
To it a process is its pid, and a pid is a text: a name under `/proc`.
-/

import KlaayGuard.Library.EffectProgram
import KlaayGuard.Library.ShellText

set_option autoImplicit false

namespace KlaayGuard

open EffectProgram ShellText

/-- The links are given as `readlink` prints them; `none` where it fails. -/
structure UnixProcess : Type where
  root : Option (List Char)
  exe : Option (List Char)
  uid : Nat
  environ : Option (List Char)

def IsPid (name : List Char) : Prop := name ≠ [] ∧ ∀ c ∈ name, c.isDigit = true

theorem isPid_of_all {name : List Char} (nonempty : name ≠ [])
    (digits : name.all Char.isDigit = true) : IsPid name :=
  ⟨nonempty, List.all_eq_true.mp digits⟩

structure UnixMachine : Type where
  processes : List (List Char × UnixProcess)
  pids : ∀ entry ∈ processes, IsPid entry.1
  distinct : (processes.map Prod.fst).Nodup
  /-- The account name of a uid, if it has an account. -/
  userName : Nat → Option (List Char)
  /-- The line `getent passwd` prints for a name, empty where it prints none. -/
  passwdLine : List Char → List Char
  command : List Char → Bool
  directory : List Char → Bool
  systemdEscape : List Char → List Char
  /-- The paths a pattern matches. -/
  matching : List Char → List (List Char)

def UnixMachine.process (machine : UnixMachine) (pid : List Char) : Option UnixProcess :=
  machine.processes.lookup pid

def UnixMachine.uid (machine : UnixMachine) (pid : List Char) : Option Nat :=
  (machine.process pid).map UnixProcess.uid

/-- What `stat -c %U` prints for a uid. -/
def UnixMachine.ownerName (machine : UnixMachine) (uid : Nat) : List Char :=
  (machine.userName uid).getD "UNKNOWN".toList

inductive ProcLink : Type where
  | root
  | exe
deriving DecidableEq

inductive KillSignal : Type where
  | term
  | kill
  /-- `kill -0`. -/
  | probe
deriving DecidableEq

inductive PostinstAction : Type where
  | commandV (name : List Char)
  | isDirectory (path : List Char)
  /-- The names that `/proc/[0-9]*` expands to. -/
  | listProc
  | readlink (pid : List Char) (link : ProcLink)
  /-- `stat -c %U /proc/<pid>`. -/
  | statOwner (pid : List Char)
  | readEnviron (pid : List Char)
  | getentPasswd (user : List Char)
  | kill (signal : KillSignal) (pid : List Char)
  /-- `sleep 0.1`. -/
  | sleep
  | systemdEscape (user : List Char)
  | run (argv : List (List Char))
  | spawn (argv : List (List Char))
  | log (line : List Char)
  /-- Pathname expansion of a field that is a pattern. -/
  | expand (pattern : List Char)
deriving DecidableEq

def PostinstAction.Reply : PostinstAction → Type
  | .commandV _ | .isDirectory _ | .kill _ _ => Bool
  | .listProc | .expand _ => List (List Char)
  | .readlink _ _ | .statOwner _ | .readEnviron _ => Option (List Char)
  | .getentPasswd _ | .systemdEscape _ => List Char
  | .sleep | .run _ | .spawn _ | .log _ => Unit

abbrev PostinstProgram (α : Type) : Type := Prog PostinstAction PostinstAction.Reply α

abbrev PostinstEvent : Type := Event PostinstAction PostinstAction.Reply

def UnixMachine.link (machine : UnixMachine) (pid : List Char) : ProcLink → Option (List Char)
  | .root => (machine.process pid).bind UnixProcess.root
  | .exe => (machine.process pid).bind UnixProcess.exe

def answers (machine : UnixMachine) : (action : PostinstAction) → action.Reply → Prop
  | .commandV name, reply => reply = machine.command name
  | .isDirectory path, reply => reply = machine.directory path
  | .listProc, reply => List.Perm reply (machine.processes.map Prod.fst)
  | .readlink pid link, reply => reply = machine.link pid link
  | .statOwner pid, reply => reply = (machine.uid pid).map machine.ownerName
  | .readEnviron pid, reply => reply = (machine.process pid).bind UnixProcess.environ
  | .getentPasswd user, reply => reply = machine.passwdLine user
  | .kill _ pid, reply => reply = (machine.process pid).isSome
  | .systemdEscape user, reply => reply = machine.systemdEscape user
  | .expand pattern, reply => reply = machine.matching pattern
  | .sleep, _ | .run _, _ | .spawn _, _ | .log _, _ => True

/-- The answer where `/proc` lists its names in the order of the table. -/
def UnixMachine.answer (machine : UnixMachine) : (action : PostinstAction) → action.Reply
  | .commandV name => machine.command name
  | .isDirectory path => machine.directory path
  | .listProc => machine.processes.map Prod.fst
  | .readlink pid link => machine.link pid link
  | .statOwner pid => (machine.uid pid).map machine.ownerName
  | .readEnviron pid => (machine.process pid).bind UnixProcess.environ
  | .getentPasswd user => machine.passwdLine user
  | .kill _ pid => (machine.process pid).isSome
  | .systemdEscape user => machine.systemdEscape user
  | .expand pattern => machine.matching pattern
  | .sleep | .run _ | .spawn _ | .log _ => ()

theorem UnixMachine.answers_answer (machine : UnixMachine) (action : PostinstAction) :
    answers machine action (machine.answer action) := by
  cases action with
  | listProc => exact .refl _
  | sleep | run | spawn | log => trivial
  | _ => rfl

/-! ### The script -/

abbrev commandV (name : String) : PostinstProgram Bool :=
  .perform (PostinstAction.commandV name.toList)
abbrev isDirectory (path : String) : PostinstProgram Bool :=
  .perform (PostinstAction.isDirectory path.toList)
abbrev listProc : PostinstProgram (List (List Char)) := .perform PostinstAction.listProc
abbrev readlink (pid : List Char) (link : ProcLink) : PostinstProgram (Option (List Char)) :=
  .perform (PostinstAction.readlink pid link)
abbrev statOwner (pid : List Char) : PostinstProgram (Option (List Char)) :=
  .perform (PostinstAction.statOwner pid)
abbrev readEnviron (pid : List Char) : PostinstProgram (Option (List Char)) :=
  .perform (PostinstAction.readEnviron pid)
abbrev getentPasswd (user : List Char) : PostinstProgram (List Char) :=
  .perform (PostinstAction.getentPasswd user)
abbrev killProcess (signal : KillSignal) (pid : List Char) : PostinstProgram Bool :=
  .perform (PostinstAction.kill signal pid)
abbrev sleepTenth : PostinstProgram Unit := .perform PostinstAction.sleep
abbrev systemdEscape (user : List Char) : PostinstProgram (List Char) :=
  .perform (PostinstAction.systemdEscape user)
abbrev runCommand (argv : List (List Char)) : PostinstProgram Unit :=
  .perform (PostinstAction.run argv)
abbrev spawnCommand (argv : List (List Char)) : PostinstProgram Unit :=
  .perform (PostinstAction.spawn argv)
abbrev logLine (line : List Char) : PostinstProgram Unit := .perform (PostinstAction.log line)
abbrev expandPattern (pattern : List Char) : PostinstProgram (List (List Char)) :=
  .perform (PostinstAction.expand pattern)

/-- An expansion outside quotes: fields, and for each one that is a pattern its paths. -/
def expandFields : List (List Char) → PostinstProgram (List (List Char))
  | [] => .done []
  | field :: rest => do
      let names ← if field.any isPatternChar then do
          let paths ← expandPattern field
          .done (if paths = [] then [field] else paths)
        else .done [field]
      let others ← expandFields rest
      .done (names ++ others)

def expansion (text : List Char) : PostinstProgram (List (List Char)) := expandFields (fields text)

/-- `tr '\0' '\n' | sed -n "s/^name=//p" | head -1`. -/
def environLine (name content : List Char) : List Char :=
  let lines := (content.map fun c => if c = Char.ofNat 0 then lineFeed else c).splitOnP
    (· == lineFeed)
  (lines.findSome? fun line => (name ++ ['=']).isPrefixOf? line).getD []

def procEnv (pid name : List Char) : PostinstProgram (List Char) := do
  let content ← readEnviron pid
  .done (environLine name (content.getD []))

/-- Whether an executable link names the binary, replaced or not. -/
def namesBinary (bin exe : List Char) : Bool := exe == bin || exe == bin ++ " (deleted)".toList

def listAgents (bin : List Char) : List (List Char) → PostinstProgram (List (List Char))
  | [] => .done []
  | pid :: rest => do
      let root ← readlink pid .root
      if root.getD [] ≠ ['/'] then listAgents bin rest
      else do
        let exe ← readlink pid .exe
        if exe.any (namesBinary bin) then do
          let others ← listAgents bin rest
          .done (pid :: others)
        else listAgents bin rest

def agentPids (bin : List Char) : PostinstProgram (List Char) := do
  let procs ← listProc
  let agents ← listAgents bin procs
  .done (outputLines agents)

/-- `none` where the loop runs through all pids. -/
def firstNewAgent (user oldPid claimed : List Char) :
    List (List Char) → PostinstProgram (Option (List Char))
  | [] => .done none
  | newPid :: rest =>
      if newPid = oldPid || listed newPid claimed then firstNewAgent user oldPid claimed rest
      else do
        let owner ← statOwner newPid
        if owner.getD [] = user then .done (some newPid)
        else firstNewAgent user oldPid claimed rest

/-- `none` where it returns 1. -/
def waitForNewAgent (bin user oldPid claimed : List Char) :
    Nat → PostinstProgram (Option (List Char))
  | 0 => .done none
  | polls + 1 => do
      let output ← agentPids bin
      let pids ← expansion output
      let found ← firstNewAgent user oldPid claimed pids
      if found.isSome then .done found
      else do
        sleepTenth
        waitForNewAgent bin user oldPid claimed polls

@[irreducible] def sessionVars : List (List Char) :=
  fields ("DISPLAY WAYLAND_DISPLAY XAUTHORITY DBUS_SESSION_BUS_ADDRESS XDG_RUNTIME_DIR " ++
    "XDG_SESSION_TYPE XDG_CURRENT_DESKTOP XDG_CONFIG_HOME XDG_DATA_HOME LANG").toList

/-- The `VAR=value` pairs of the variables that the old agent has set. -/
def sessionSettings (pid : List Char) : List (List Char) → PostinstProgram (List (List Char))
  | [] => .done []
  | var :: rest => do
      let val ← procEnv pid var
      let others ← sessionSettings pid rest
      .done (if val = [] then others else (var ++ '=' :: val) :: others)

/-- `cut -d: -f6`. -/
def sixthField (line : List Char) : List Char :=
  if ':' ∈ line then (line.splitOnP (· == ':')).getD 5 [] else line

def agentHome (pid user : List Char) : PostinstProgram (List Char) := do
  let home ← procEnv pid "HOME".toList
  if home ≠ [] then .done home
  else do
    let line ← getentPasswd user
    .done (sixthField line)

def awaitForced (pid : List Char) : Nat → PostinstProgram Unit
  | 0 => do
      let _ ← killProcess .probe pid
      .done ()
  | sleeps + 1 => do
      let alive ← killProcess .probe pid
      if alive then do
        sleepTenth
        awaitForced pid sleeps
      else .done ()

def forceAgent (pid : List Char) : PostinstProgram Unit := do
  logLine ("postinst: agent ".toList ++ pid ++ " ignored SIGTERM for 5s; forcing".toList)
  let _ ← killProcess .kill pid
  awaitForced pid 20
  let alive ← killProcess .probe pid
  if alive then
    logLine ("postinst: ERROR agent ".toList ++ pid ++
      " survived SIGKILL; the replacement may lose the single-instance name".toList)
  else .done ()

def awaitExit (pid : List Char) : Nat → PostinstProgram Unit
  | 0 => do
      let alive ← killProcess .probe pid
      if alive then forceAgent pid else .done ()
  | sleeps + 1 => do
      let alive ← killProcess .probe pid
      if alive then do
        sleepTenth
        awaitExit pid sleeps
      else .done ()

/-- The rotation that turns each pair of `$@` into a `--setenv=` argument. -/
def setenvRotation : Nat → List (List Char) → List (List Char)
  | remaining + 1, pair :: rest =>
      setenvRotation remaining (rest ++ ["--setenv=".toList ++ pair])
  | _, args => args

theorem setenvRotation_eq (front back : List (List Char)) :
    setenvRotation front.length (front ++ back) =
      back ++ front.map ("--setenv=".toList ++ ·) := by
  induction front generalizing back with
  | nil => cases back <;> rw [List.length_nil, setenvRotation] <;> simp
  | cons pair rest ih =>
      have later := ih (back ++ ["--setenv=".toList ++ pair])
      rw [← List.append_assoc] at later
      rw [List.length_cons, List.cons_append, setenvRotation, later, List.append_assoc]
      rfl

def startAgent (bin user home pid : List Char) (settings : List (List Char)) :
    PostinstProgram Unit := do
  logLine ("postinst: restarting the agent for ".toList ++ user)
  let present ← commandV "systemd-run"
  let booted ← if present then isDirectory "/run/systemd/system"
    else .done false
  let identity := ["HOME=".toList ++ home, "USER=".toList ++ user, "LOGNAME=".toList ++ user,
    "PATH=/usr/local/bin:/usr/bin:/bin".toList]
  if booted then do
    let escaped ← systemdEscape user
    runCommand (["systemd-run".toList, "--collect".toList, "--quiet".toList,
      "--unit=klaayguard-agent-".toList ++ escaped ++ '-' :: pid, "--uid=".toList ++ user] ++
      identity.map ("--setenv=".toList ++ ·) ++ setenvRotation settings.length settings ++
      ["--".toList, bin])
  else
    spawnCommand (["setsid".toList, "runuser".toList, "-u".toList, user, "--".toList,
      "env".toList, "-i".toList] ++ identity ++ settings ++ [bin])

/-- The body of the first loop where the agent's user and home are known. -/
def restartAgent (bin pid user home : List Char) : PostinstProgram Unit := do
  let settings ← sessionSettings pid sessionVars
  let _ ← killProcess .term pid
  awaitExit pid 50
  startAgent bin user home pid settings

/-- The first loop of `restart_running_agents`; the text is `$restarted`. -/
def restartEach (bin : List Char) :
    List (List Char) → List Char → PostinstProgram (List Char)
  | [], restarted => .done restarted
  | pid :: rest, restarted => do
      let owner ← statOwner pid
      let user := owner.getD []
      if user = [] then restartEach bin rest restarted
      else do
        let home ← agentHome pid user
        if home = [] then restartEach bin rest restarted
        else do
          restartAgent bin pid user home
          restartEach bin rest (restarted ++ ' ' :: (user ++ ':' :: pid))

/-- Its last loop; the flag is `$missing`. -/
def awaitEach (bin : List Char) :
    List (List Char) → Bool → List Char → PostinstProgram (Bool × List Char)
  | [], missing, claimed => .done (missing, claimed)
  | entry :: rest, missing, claimed => do
      let user := beforeFirst ':' entry
      let found ← waitForNewAgent bin user (afterLast ':' entry) claimed 50
      match found with
      | some newPid => awaitEach bin rest missing (claimed ++ ' ' :: newPid)
      | none => do
          logLine ("postinst: ERROR the agent for ".toList ++ user ++
            " did not come back; that session reports nothing until the next login".toList)
          awaitEach bin rest true claimed

/-- The variables that the function leaves behind; a shell function has none of its own. -/
structure RestartVars : Type where
  pids : List Char
  restarted : List Char
  claimed : List Char

def restartFound (bin pids : List Char) (each : List (List Char)) :
    PostinstProgram (Nat × RestartVars) := do
  let restarted ← restartEach bin each []
  let killed ← expansion restarted
  let entries ← expansion restarted
  let checked ← awaitEach bin entries false (grown (afterLast ':') killed [])
  .done (if checked.1 then 1 else 0, ⟨pids, restarted, checked.2⟩)

def restartRunningAgents (bin : List Char) : PostinstProgram (Nat × RestartVars) := do
  let runuser ← commandV "runuser"
  if runuser = false then do
    logLine "postinst: no runuser; leaving the running agent alone".toList
    .done (0, ⟨[], [], []⟩)
  else do
    let pids ← agentPids bin
    if pids = [] then do
      logLine ("postinst: no agent runs ".toList ++ bin ++ "; nothing to restart".toList)
      .done (0, ⟨[], [], []⟩)
    else do
      let each ← expansion pids
      restartFound bin pids each

end KlaayGuard
