/-
The LaunchAgent is installed at every start of the agent.

The start that installs it has launchd restart the agent, so the next start had better leave
it alone.  A start may end anywhere: `kickstart -k` ends the process that asks for it.
-/

import KlaayGuard.LaunchAgent
import KlaayGuard.Update
import KlaayGuard.Library.Interleaving
import KlaayGuard.Library.Trace

set_option autoImplicit false

namespace KlaayGuard

open EffectProgram Prog RustText

structure LaunchctlOutput : Type where
  success : Bool
  stderr : String
  deriving DecidableEq, Repr

inductive LaunchEffect : Type where
  | homeDir
  | getuid
  | createDirAll (path : String)
  | currentExe
  | pathExists (path : String)
  | readToString (path : String)
  | write (path content : String)
  | launchctl (args : List String)
  deriving DecidableEq, Repr

@[reducible] def LaunchEffect.Reply : LaunchEffect → Type
  | .homeDir => Option String
  | .getuid => Nat
  | .createDirAll _ => Except String Unit
  | .currentExe => Except String String
  | .pathExists _ => Bool
  | .readToString _ => Except String String
  | .write _ _ => Except String Unit
  | .launchctl _ => Except String LaunchctlOutput

abbrev LaunchProgram (α : Type) : Type := Prog LaunchEffect LaunchEffect.Reply α

abbrev LaunchEvent : Type := Event LaunchEffect LaunchEffect.Reply

def installedBundle : String := "/Applications/KlaayGuard.app"

def notTheInstalledApp (debug : String → String) (currentExe bundle : String) (installed : Bool) :
    Option String :=
  if mayWriteLaunchAgent currentExe bundle installed then none
  else some ("this build runs from " ++ debug currentExe ++ ", and the installed app is " ++
    (if installed then "elsewhere" else "missing"))

def launchAgentsDir (home : String) : String :=
  String.ofList (pathJoin home.toList "Library/LaunchAgents".toList)

def launchAgentPath (home : String) : String :=
  String.ofList (pathJoin (launchAgentsDir home).toList (launchAgentLabel ++ ".plist".toList))

def launchLogDir (home : String) : String :=
  String.ofList (pathJoin home.toList "Library/Logs/KlaayGuard".toList)

/-- `plist_api_base` is the compiled server. -/
def launchAgentText (compiledApiBaseUrl home : String) : String :=
  String.ofList (renderLaunchAgentPlist launchAgentLabel installedBundle.toList
    (launchLogDir home).toList compiledApiBaseUrl.toList)

def launchDomain (uid : Nat) : String := "gui/" ++ toString uid

def launchTarget (uid : Nat) : String := launchDomain uid ++ "/" ++ String.ofList launchAgentLabel

def saysLoaded (stderr : String) : Bool :=
  contains stderr.toList "EEXIST".toList || contains stderr.toList "already loaded".toList

def loadLaunchAgent (uid : Nat) (plistPath : String) : LaunchProgram (Except String String) := do
  let _ ← perform (LaunchEffect.launchctl ["enable", launchTarget uid])
  match ← perform (LaunchEffect.launchctl ["bootstrap", launchDomain uid, plistPath]) with
  | .error e => pure (.error ("Failed to bootstrap launch agent: " ++ e))
  | .ok output =>
      if !output.success && !saysLoaded output.stderr then
        pure (.error ("Failed to bootstrap launch agent: " ++ output.stderr))
      else do
        let _ ← perform (LaunchEffect.launchctl ["kickstart", "-k", launchTarget uid])
        pure (.ok "Launch agent installed successfully")

/-- The file is written, and a job loaded from another text is taken out first. -/
def writeLaunchAgent (uid : Nat) (plistPath content : String) (needsReload : Bool) :
    LaunchProgram (Except String String) := do
  match ← perform (LaunchEffect.write plistPath content) with
  | .error e => pure (.error ("Failed to write plist file: " ++ e))
  | .ok () =>
      if needsReload then do
        let _ ← perform (LaunchEffect.launchctl ["bootout", launchTarget uid])
        loadLaunchAgent uid plistPath
      else loadLaunchAgent uid plistPath

def updateLaunchAgent (uid : Nat) (plistPath content : String) :
    LaunchProgram (Except String String) := do
  match ← perform (LaunchEffect.readToString plistPath) with
  | .error _ => writeLaunchAgent uid plistPath content true
  | .ok existing =>
      if existing = content then do
        match ← perform (LaunchEffect.launchctl ["print", launchTarget uid]) with
        | .error e => pure (.error ("Failed to check launch agent status: " ++ e))
        | .ok output =>
            if output.success then pure (.ok "Launch agent already installed and running")
            else writeLaunchAgent uid plistPath content false
      else writeLaunchAgent uid plistPath content true

section Install

variable (debug : String → String) (compiledApiBaseUrl : String)

def prepareLaunchAgent (home : String) (uid : Nat) : LaunchProgram (Except String String) := do
  match ← perform (LaunchEffect.createDirAll (launchLogDir home)) with
  | .error e => pure (.error ("Failed to create log directory: " ++ e))
  | .ok () =>
      updateLaunchAgent uid (launchAgentPath home) (launchAgentText compiledApiBaseUrl home)

def installLaunchAgent : LaunchProgram (Except String String) := do
  match ← perform LaunchEffect.homeDir with
  | none => pure (.error "Could not find home directory")
  | some home => do
      let uid ← perform LaunchEffect.getuid
      match ← perform (LaunchEffect.createDirAll (launchAgentsDir home)) with
      | .error e => pure (.error ("Failed to create LaunchAgents directory: " ++ e))
      | .ok () =>
          match ← perform LaunchEffect.currentExe with
          | .error e => pure (.error ("Failed to get current executable path: " ++ e))
          | .ok currentExe => do
              let installed ← perform (LaunchEffect.pathExists installedBundle)
              match notTheInstalledApp debug currentExe installedBundle installed with
              | some reason => pure (.ok ("not writing the LaunchAgent: " ++ reason))
              | none => prepareLaunchAgent compiledApiBaseUrl home uid

end Install

/-! ### Who may write and in which order -/

section Order

variable (compiledApiBaseUrl : String)

def SawItselfInstalled (history : List LaunchEvent) : Prop :=
  ∃ exe, ⟨.currentExe, .ok exe⟩ ∈ history ∧ ⟨.pathExists installedBundle, true⟩ ∈ history ∧
    pathStartsWith exe.toList installedBundle.toList = true

/-- The file holds what this build renders for the home directory. -/
def WroteLaunchAgent (home : String) (history : List LaunchEvent) : Prop :=
  ⟨.write (launchAgentPath home) (launchAgentText compiledApiBaseUrl home), .ok ()⟩ ∈ history

inductive LaunchctlInTurn (home : String) (uid : Nat) (history : List LaunchEvent) :
    List String → Prop where
  | print : LaunchctlInTurn home uid history ["print", launchTarget uid]
  | bootout (wrote : WroteLaunchAgent compiledApiBaseUrl home history) :
      LaunchctlInTurn home uid history ["bootout", launchTarget uid]
  | enable (wrote : WroteLaunchAgent compiledApiBaseUrl home history) :
      LaunchctlInTurn home uid history ["enable", launchTarget uid]
  | bootstrap (wrote : WroteLaunchAgent compiledApiBaseUrl home history)
      (enabled : ∃ reply, ⟨.launchctl ["enable", launchTarget uid], reply⟩ ∈ history) :
      LaunchctlInTurn home uid history ["bootstrap", launchDomain uid, launchAgentPath home]
  | kickstart (wrote : WroteLaunchAgent compiledApiBaseUrl home history)
      (loaded : ∃ output : LaunchctlOutput, (output.success || saysLoaded output.stderr) = true ∧
        ⟨.launchctl ["bootstrap", launchDomain uid, launchAgentPath home], .ok output⟩ ∈ history) :
      LaunchctlInTurn home uid history ["kickstart", "-k", launchTarget uid]

def launchAllowed (history : List LaunchEvent) : LaunchEffect → Prop
  | .write path content =>
      SawItselfInstalled history ∧ ∃ home, ⟨.homeDir, some home⟩ ∈ history ∧
        path = launchAgentPath home ∧ content = launchAgentText compiledApiBaseUrl home
  | .launchctl args =>
      SawItselfInstalled history ∧ ∃ home uid, ⟨.homeDir, some home⟩ ∈ history ∧
        ⟨.getuid, uid⟩ ∈ history ∧ LaunchctlInTurn compiledApiBaseUrl home uid history args
  | _ => True

abbrev launchOrder : Protocol LaunchEffect LaunchEffect.Reply (List LaunchEvent)
    (Except String String) :=
  historyProtocol (launchAllowed compiledApiBaseUrl) fun _ _ => True

variable {compiledApiBaseUrl} {home : String} {uid : Nat} {history : List LaunchEvent}

structure LaunchReady (home : String) (uid : Nat) (history : List LaunchEvent) : Prop where
  installed : SawItselfInstalled history
  home : ⟨.homeDir, some home⟩ ∈ history
  uid : ⟨.getuid, uid⟩ ∈ history

theorem LaunchReady.append (ready : LaunchReady home uid history) (event : LaunchEvent) :
    LaunchReady home uid (history ++ [event]) := by
  obtain ⟨⟨exe, running, exists_, inside⟩, isHome, isUid⟩ := ready
  exact
    { installed := ⟨exe, List.mem_append_left _ running, List.mem_append_left _ exists_, inside⟩
      home := List.mem_append_left _ isHome
      uid := List.mem_append_left _ isUid }

theorem LaunchReady.allows (ready : LaunchReady home uid history) {args : List String}
    (inTurn : LaunchctlInTurn compiledApiBaseUrl home uid history args) :
    launchAllowed compiledApiBaseUrl history (.launchctl args) :=
  ⟨ready.installed, home, uid, ready.home, ready.uid, inTurn⟩

theorem loadLaunchAgent_conforms (ready : LaunchReady home uid history)
    (wrote : WroteLaunchAgent compiledApiBaseUrl home history) :
    (loadLaunchAgent uid (launchAgentPath home)).Conforms (launchOrder compiledApiBaseUrl)
      history := by
  refine ⟨ready.allows (.enable wrote), fun enabled => ?_⟩
  have ready := ready.append ⟨.launchctl ["enable", launchTarget uid], enabled⟩
  have wrote : WroteLaunchAgent compiledApiBaseUrl home _ := List.mem_append_left
    [⟨.launchctl ["enable", launchTarget uid], enabled⟩] wrote
  refine ⟨ready.allows (.bootstrap wrote
    ⟨enabled, List.mem_append_right _ List.mem_cons_self⟩), fun bootstrapped => ?_⟩
  cases bootstrapped with
  | error e => trivial
  | ok output =>
      change Conforms _ _ (if (!output.success && !saysLoaded output.stderr) = true then _ else _)
      split
      · trivial
      · rename_i loaded
        refine ⟨(ready.append _).allows (.kickstart (List.mem_append_left _ wrote)
          ⟨output, ?_, List.mem_append_right _ List.mem_cons_self⟩), fun _ => trivial⟩
        rw [← Bool.not_or, Bool.not_eq_true, Bool.not_eq_false'] at loaded
        exact loaded

theorem writeLaunchAgent_conforms (ready : LaunchReady home uid history) (needsReload : Bool) :
    (writeLaunchAgent uid (launchAgentPath home) (launchAgentText compiledApiBaseUrl home)
      needsReload).Conforms (launchOrder compiledApiBaseUrl) history := by
  refine ⟨⟨ready.installed, home, ready.home, rfl, rfl⟩, fun written => ?_⟩
  cases written with
  | error e => trivial
  | ok _ =>
      have ready := ready.append
        ⟨.write (launchAgentPath home) (launchAgentText compiledApiBaseUrl home), .ok ()⟩
      have wrote : WroteLaunchAgent compiledApiBaseUrl home (history ++
          [⟨.write (launchAgentPath home) (launchAgentText compiledApiBaseUrl home), .ok ()⟩]) :=
        List.mem_append_right _ List.mem_cons_self
      cases needsReload with
      | true =>
          refine ⟨ready.allows (.bootout wrote), fun _ => ?_⟩
          exact loadLaunchAgent_conforms (ready.append _) (List.mem_append_left _ wrote)
      | false => exact loadLaunchAgent_conforms ready wrote

theorem updateLaunchAgent_conforms (ready : LaunchReady home uid history) {content : String}
    (isText : content = launchAgentText compiledApiBaseUrl home) :
    (updateLaunchAgent uid (launchAgentPath home) content).Conforms
      (launchOrder compiledApiBaseUrl) history := by
  refine ⟨trivial, fun existing => ?_⟩
  cases existing with
  | error e => exact isText ▸ writeLaunchAgent_conforms (ready.append _) true
  | ok existing =>
      change Conforms _ _ (if existing = content then _ else _)
      by_cases same : existing = content
      · rw [if_pos same]
        refine ⟨(ready.append _).allows .print, fun printed => ?_⟩
        cases printed with
        | error e => trivial
        | ok output =>
            change Conforms _ _ (if output.success = true then _ else _)
            split
            · trivial
            · exact isText ▸ writeLaunchAgent_conforms ((ready.append _).append _) false
      · rw [if_neg same]
        exact isText ▸ writeLaunchAgent_conforms (ready.append _) true

theorem installLaunchAgent_conforms (debug : String → String) (compiledApiBaseUrl : String) :
    (installLaunchAgent debug compiledApiBaseUrl).Conforms (launchOrder compiledApiBaseUrl) [] := by
  refine ⟨trivial, fun found => ?_⟩
  cases found with
  | none => trivial
  | some home =>
      refine ⟨trivial, fun uid => ⟨trivial, fun created => ?_⟩⟩
      cases created with
      | error e => trivial
      | ok _ =>
          refine ⟨trivial, fun exe => ?_⟩
          cases exe with
          | error e => trivial
          | ok exe =>
              refine ⟨trivial, fun installed => ?_⟩
              change Conforms _ _ (match notTheInstalledApp debug exe installedBundle installed with
                | some reason => _
                | none => _)
              by_cases may : mayWriteLaunchAgent exe installedBundle installed = true
              · rw [notTheInstalledApp, if_pos may]
                rw [mayWriteLaunchAgent, Bool.and_eq_true] at may
                obtain ⟨rfl, inside⟩ := may
                refine ⟨trivial, fun logs => ?_⟩
                cases logs with
                | error e => trivial
                | ok _ =>
                    have seen : LaunchReady home uid
                        [⟨.homeDir, some home⟩, ⟨.getuid, uid⟩,
                          ⟨.createDirAll (launchAgentsDir home), .ok ()⟩,
                          ⟨.currentExe, .ok exe⟩, ⟨.pathExists installedBundle, true⟩] :=
                      { installed := ⟨exe, by simp, by simp, inside⟩
                        home := by simp
                        uid := by simp }
                    exact updateLaunchAgent_conforms (seen.append _) rfl
              · rw [notTheInstalledApp, if_neg may]
                trivial

end Order

/-- Whatever the replies, a file is written and `launchctl` is run only by the installed app;
the file gets the compiled server; and a job is started again only after the file is written,
the label enabled and the job loaded. -/
theorem launch_agent_installed_in_order (debug : String → String) (compiledApiBaseUrl : String)
    {State : Type} (semantics : State → (action : LaunchEffect) → action.Reply → State → Prop)
    (start reached : State) (before : List LaunchEvent) (event : LaunchEvent)
    (after : List LaunchEvent)
    (run : Begins semantics (installLaunchAgent debug compiledApiBaseUrl) start
      (before ++ event :: after) reached) :
    launchAllowed compiledApiBaseUrl before event.action :=
  (installLaunchAgent_conforms debug compiledApiBaseUrl).allowed run

/-! ### One start after another -/

/-- The machine of one user, as far as the agent looks at it. -/
structure LaunchWorld : Type where
  home : Option String
  uid : Nat
  exe : Except String String
  appInstalled : Bool
  files : String → Option String
  /-- Whether launchd has the job. -/
  loaded : Bool

/-- What `launchctl` does, by its manual page: `print` changes nothing, `bootout` takes the
job out, a bootstrap that succeeds loads it and one that fails with "already loaded" found it
loaded, and `enable` and `kickstart` leave it loaded. -/
def performsLaunchctl (world : LaunchWorld) (args : List String)
    (reply : Except String LaunchctlOutput) (after : LaunchWorld) : Prop :=
  match args.head? with
  | some "print" => after = world
  | some "bootout" => after = world ∨ after = { world with loaded := false }
  | some "bootstrap" =>
      after = { world with loaded := after.loaded } ∧
        (world.loaded = true → after.loaded = true) ∧
        ∀ output, reply = .ok output → (output.success || saysLoaded output.stderr) = true →
          after.loaded = true
  | _ => after = world

def performsLaunch : LaunchWorld → (action : LaunchEffect) → action.Reply → LaunchWorld → Prop
  | world, .homeDir, reply, after => reply = world.home ∧ after = world
  | world, .getuid, reply, after => reply = world.uid ∧ after = world
  | world, .createDirAll _, _, after => after = world
  | world, .currentExe, reply, after => reply = world.exe ∧ after = world
  | world, .pathExists _, reply, after => reply = world.appInstalled ∧ after = world
  | world, .readToString path, reply, after =>
      after = world ∧
        match reply with
        | .ok text => world.files path = some text
        | .error _ => True
  | world, .write path content, reply, after =>
      match reply with
      | .ok _ => after = { world with files := Function.update world.files path (some content) }
      | .error _ => ∃ rest, after = { world with files := Function.update world.files path rest }
  | world, .launchctl args, reply, after => performsLaunchctl world args reply after

/-- The reply does not mislead: a file that is there can be read, and `print` succeeds for a
job that is loaded and for no other. -/
def LaunchWorld.Told (world : LaunchWorld) : (action : LaunchEffect) → action.Reply → Prop
  | .readToString path, .error _ => world.files path = none
  | .launchctl args, .ok output => args.head? = some "print" → output.success = world.loaded
  | _, _ => True

def toldLaunch (world : LaunchWorld) (action : LaunchEffect) (reply : action.Reply)
    (after : LaunchWorld) : Prop :=
  performsLaunch world action reply after ∧ world.Told action reply

def LaunchEffect.kickstarts : LaunchEffect → Bool
  | .launchctl args => args.head? == some "kickstart"
  | _ => false

def LaunchEffect.looks : LaunchEffect → Bool
  | .write _ _ => false
  | .launchctl args => args.head? == some "print"
  | _ => true

/-- How often a start has the agent started again. -/
def kickstarts (events : List LaunchEvent) : Nat := events.countP fun event => event.action.kickstarts

section Starts

variable {world after : LaunchWorld} {events : List LaunchEvent}
variable {uid : Nat} {path content : String}

def LaunchWorld.Holds (world : LaunchWorld) (path content : String) : Prop :=
  world.files path = some content ∧ world.loaded = true

def LaunchWorld.SameMachine (world after : LaunchWorld) : Prop :=
  after.home = world.home ∧ after.uid = world.uid ∧ after.exe = world.exe ∧
    after.appInstalled = world.appInstalled

theorem sameMachine_of_performs {world after : LaunchWorld} {action : LaunchEffect}
    {reply : action.Reply} (performed : performsLaunch world action reply after) :
    world.SameMachine after := by
  cases action with
  | homeDir | getuid | currentExe | pathExists _ =>
      obtain ⟨_, rfl⟩ := performed
      exact ⟨rfl, rfl, rfl, rfl⟩
  | createDirAll _ =>
      obtain rfl := performed
      exact ⟨rfl, rfl, rfl, rfl⟩
  | readToString _ =>
      obtain ⟨rfl, _⟩ := performed
      exact ⟨rfl, rfl, rfl, rfl⟩
  | write path content =>
      cases reply with
      | ok _ =>
          obtain rfl := performed
          exact ⟨rfl, rfl, rfl, rfl⟩
      | error e =>
          obtain ⟨rest, rfl⟩ := performed
          exact ⟨rfl, rfl, rfl, rfl⟩
  | launchctl args =>
      change performsLaunchctl world args reply after at performed
      unfold performsLaunchctl at performed
      split at performed
      · obtain rfl := performed
        exact ⟨rfl, rfl, rfl, rfl⟩
      · rcases performed with rfl | rfl <;> exact ⟨rfl, rfl, rfl, rfl⟩
      · rw [performed.1]
        exact ⟨rfl, rfl, rfl, rfl⟩
      · obtain rfl := performed
        exact ⟨rfl, rfl, rfl, rfl⟩

theorem sameMachine_of_begins {α : Type} {program : LaunchProgram α}
    (run : Begins performsLaunch program world events after) : world.SameMachine after := by
  refine run.invariant (fun now => world.SameMachine now)
    (only_of_forall (fun _ => trivial) program : program.Only fun _ => True) ?_ ⟨rfl, rfl, rfl, rfl⟩
  intro state action reply state' _ same performed
  have step := sameMachine_of_performs performed
  exact ⟨step.1.trans same.1, step.2.1.trans same.2.1, step.2.2.1.trans same.2.2.1,
    step.2.2.2.trans same.2.2.2⟩

/-- A start that does not load anything does not have the agent started again; one that does
leaves the file written and the job loaded. -/
def KickstartsOnlyInto (path content : String) (events : List LaunchEvent)
    (after : LaunchWorld) : Prop :=
  kickstarts events = 0 ∨ (kickstarts events = 1 ∧ after.Holds path content)

theorem KickstartsOnlyInto.cons {event : LaunchEvent}
    (rest : KickstartsOnlyInto path content events after)
    (other : event.action.kickstarts = false) :
    KickstartsOnlyInto path content (event :: events) after := by
  unfold KickstartsOnlyInto kickstarts at rest ⊢
  rw [List.countP_cons_of_neg (by rw [other]; exact Bool.false_ne_true)]
  exact rest

theorem loadLaunchAgent_begins (written : world.files path = some content)
    (run : Begins performsLaunch (loadLaunchAgent uid path) world events after) :
    KickstartsOnlyInto path content events after := by
  rcases begins_act.mp run with ⟨rfl, rfl⟩ | ⟨_, _, _, rfl, rfl, booting⟩
  · exact Or.inl rfl
  apply KickstartsOnlyInto.cons _ rfl
  rcases begins_act.mp booting with ⟨rfl, rfl⟩ | ⟨reply, booted, _, performed, rfl, kicking⟩
  · exact Or.inl rfl
  apply KickstartsOnlyInto.cons _ rfl
  obtain ⟨frame, _, loads⟩ := performed
  cases reply with
  | error e =>
      obtain ⟨rfl, rfl⟩ := begins_done.mp kicking
      exact Or.inl rfl
  | ok output =>
      replace kicking : Begins performsLaunch
        (if (!output.success && !saysLoaded output.stderr) = true then _ else _) _ _ after :=
        kicking
      split at kicking
      · obtain ⟨rfl, rfl⟩ := begins_done.mp kicking
        exact Or.inl rfl
      · rename_i loaded
        rw [← Bool.not_or, Bool.not_eq_true, Bool.not_eq_false'] at loaded
        have holds : booted.Holds path content := by
          refine ⟨?_, loads output rfl loaded⟩
          rw [frame]
          exact written
        rcases begins_act.mp kicking with ⟨rfl, rfl⟩ | ⟨_, _, _, rfl, rfl, ended⟩
        · exact Or.inl rfl
        · obtain ⟨rfl, rfl⟩ := begins_done.mp ended
          exact Or.inr ⟨rfl, holds⟩

theorem writeLaunchAgent_begins {needsReload : Bool}
    (run : Begins performsLaunch (writeLaunchAgent uid path content needsReload)
      world events after) : KickstartsOnlyInto path content events after := by
  rcases begins_act.mp run with ⟨rfl, rfl⟩ | ⟨reply, _, _, performed, rfl, rest⟩
  · exact Or.inl rfl
  apply KickstartsOnlyInto.cons _ rfl
  cases reply with
  | error e =>
      obtain ⟨rfl, rfl⟩ := begins_done.mp rest
      exact Or.inl rfl
  | ok _ =>
      obtain rfl := performed
      have written : (Function.update world.files path (some content)) path = some content :=
        Function.update_self _ _ _
      cases needsReload with
      | false => exact loadLaunchAgent_begins written rest
      | true =>
          rcases begins_act.mp rest with ⟨rfl, rfl⟩ | ⟨_, _, _, performed, rfl, loading⟩
          · exact Or.inl rfl
          apply KickstartsOnlyInto.cons _ rfl
          rcases performed with rfl | rfl
          · exact loadLaunchAgent_begins written loading
          · exact loadLaunchAgent_begins written loading

theorem updateLaunchAgent_begins
    (run : Begins performsLaunch (updateLaunchAgent uid path content) world events after) :
    KickstartsOnlyInto path content events after := by
  rcases begins_act.mp run with ⟨rfl, rfl⟩ | ⟨reply, _, _, _, rfl, rest⟩
  · exact Or.inl rfl
  apply KickstartsOnlyInto.cons _ rfl
  cases reply with
  | error e => exact writeLaunchAgent_begins rest
  | ok existing =>
      replace rest : Begins performsLaunch (if existing = content then _ else _) _ _ after := rest
      split at rest
      · rcases begins_act.mp rest with ⟨rfl, rfl⟩ | ⟨printed, _, _, _, rfl, writing⟩
        · exact Or.inl rfl
        apply KickstartsOnlyInto.cons _ rfl
        cases printed with
        | error e =>
            obtain ⟨rfl, rfl⟩ := begins_done.mp writing
            exact Or.inl rfl
        | ok output =>
            replace writing : Begins performsLaunch (if output.success = true then _ else _) _ _
              after := writing
            split at writing
            · obtain ⟨rfl, rfl⟩ := begins_done.mp writing
              exact Or.inl rfl
            · exact writeLaunchAgent_begins writing
      · exact writeLaunchAgent_begins rest

theorem updateLaunchAgent_looks (holds : world.Holds path content)
    (run : Begins toldLaunch (updateLaunchAgent uid path content) world events after) :
    after = world ∧ ∀ event ∈ events, event.action.looks = true := by
  rcases begins_act.mp run with ⟨rfl, rfl⟩ | ⟨reply, _, _, ⟨⟨rfl, read⟩, told⟩, rfl, rest⟩
  · exact ⟨rfl, fun _ member => absurd member List.not_mem_nil⟩
  cases reply with
  | error e =>
      exact absurd (holds.1.symm.trans told) (Option.some_ne_none _)
  | ok existing =>
      rw [holds.1] at read
      cases read
      replace rest : Begins toldLaunch (if content = content then _ else _) _ _ after := rest
      rw [if_pos rfl] at rest
      rcases begins_act.mp rest with ⟨rfl, rfl⟩ | ⟨printed, _, _, ⟨rfl, printing⟩, rfl, ended⟩
      · exact ⟨rfl, by simp [LaunchEffect.looks]⟩
      cases printed with
      | error e =>
          obtain ⟨rfl, rfl⟩ := begins_done.mp ended
          exact ⟨rfl, by simp [LaunchEffect.looks]⟩
      | ok output =>
          replace ended : Begins toldLaunch (if output.success = true then _ else _) _ _
            after := ended
          rw [if_pos ((printing rfl).trans holds.2)] at ended
          obtain ⟨rfl, rfl⟩ := begins_done.mp ended
          exact ⟨rfl, by simp [LaunchEffect.looks]⟩

theorem kickstarts_of_looks (looks : ∀ event ∈ events, event.action.looks = true) :
    kickstarts events = 0 := by
  unfold kickstarts
  rw [List.countP_eq_zero]
  intro event member
  have looking := looks event member
  revert looking
  cases event.action with
  | launchctl args =>
      simp only [LaunchEffect.looks, LaunchEffect.kickstarts, beq_iff_eq]
      intro print
      rw [print]
      simp
  | _ => intro _; exact Bool.false_ne_true

variable {debug : String → String} {compiledApiBaseUrl : String}

variable {semantics : LaunchWorld → (action : LaunchEffect) → action.Reply → LaunchWorld → Prop}

theorem installLaunchAgent_begins
    (sound : ∀ before action reply after, semantics before action reply after →
      performsLaunch before action reply after)
    (run : Begins semantics (installLaunchAgent debug compiledApiBaseUrl) world events after) :
    (after = world ∧ ∀ event ∈ events, event.action.looks = true) ∨
      ∃ home first second, world.home = some home ∧ events = first ++ second ∧
        (∀ event ∈ first, event.action.looks = true) ∧
        Begins semantics (updateLaunchAgent world.uid (launchAgentPath home)
          (launchAgentText compiledApiBaseUrl home)) world second after := by
  rcases begins_act.mp run with ⟨rfl, rfl⟩ | ⟨found, _, _, answered, rfl, located⟩
  · exact Or.inl ⟨rfl, by simp⟩
  obtain ⟨same, rfl⟩ := sound _ _ _ _ answered
  cases found with
  | none =>
      obtain ⟨rfl, rfl⟩ := begins_done.mp located
      exact Or.inl ⟨rfl, by simp [LaunchEffect.looks]⟩
  | some home =>
      rcases begins_act.mp located with ⟨rfl, rfl⟩ | ⟨_, _, _, answered, rfl, numbered⟩
      · exact Or.inl ⟨rfl, by simp [LaunchEffect.looks]⟩
      obtain ⟨rfl, rfl⟩ := sound _ _ _ _ answered
      rcases begins_act.mp numbered with ⟨rfl, rfl⟩ | ⟨dir, _, _, answered, rfl, created⟩
      · exact Or.inl ⟨rfl, by simp [LaunchEffect.looks]⟩
      obtain rfl := sound _ _ _ _ answered
      cases dir with
      | error e =>
          obtain ⟨rfl, rfl⟩ := begins_done.mp created
          exact Or.inl ⟨rfl, by simp [LaunchEffect.looks]⟩
      | ok _ =>
          rcases begins_act.mp created with ⟨rfl, rfl⟩ | ⟨exe, _, _, answered, rfl, running⟩
          · exact Or.inl ⟨rfl, by simp [LaunchEffect.looks]⟩
          obtain ⟨_, rfl⟩ := sound _ _ _ _ answered
          cases exe with
          | error e =>
              obtain ⟨rfl, rfl⟩ := begins_done.mp running
              exact Or.inl ⟨rfl, by simp [LaunchEffect.looks]⟩
          | ok exe =>
              rcases begins_act.mp running with
                ⟨rfl, rfl⟩ | ⟨installed, _, _, answered, rfl, compared⟩
              · exact Or.inl ⟨rfl, by simp [LaunchEffect.looks]⟩
              obtain ⟨_, rfl⟩ := sound _ _ _ _ answered
              replace compared : Begins semantics
                (match notTheInstalledApp debug exe installedBundle installed with
                  | some reason => _
                  | none => _) _ _ after := compared
              cases reason : notTheInstalledApp debug exe installedBundle installed with
              | some reason =>
                  rw [reason] at compared
                  obtain ⟨rfl, rfl⟩ := begins_done.mp compared
                  exact Or.inl ⟨rfl, by simp [LaunchEffect.looks]⟩
              | none =>
                  rw [reason] at compared
                  rcases begins_act.mp compared with
                    ⟨rfl, rfl⟩ | ⟨logs, _, _, answered, rfl, updating⟩
                  · exact Or.inl ⟨rfl, by simp [LaunchEffect.looks]⟩
                  obtain rfl := sound _ _ _ _ answered
                  cases logs with
                  | error e =>
                      obtain ⟨rfl, rfl⟩ := begins_done.mp updating
                      exact Or.inl ⟨rfl, by simp [LaunchEffect.looks]⟩
                  | ok _ =>
                      refine Or.inr ⟨home, [_, _, _, _, _, _], _, same.symm, rfl, ?_, updating⟩
                      simp [LaunchEffect.looks]

def LaunchWorld.Installed (compiledApiBaseUrl : String) (world : LaunchWorld) : Prop :=
  ∃ home, world.home = some home ∧
    world.Holds (launchAgentPath home) (launchAgentText compiledApiBaseUrl home)

theorem start_kickstarts
    (run : Begins performsLaunch (installLaunchAgent debug compiledApiBaseUrl) world events after) :
    kickstarts events = 0 ∨ (kickstarts events = 1 ∧ after.Installed compiledApiBaseUrl) := by
  rcases installLaunchAgent_begins (fun _ _ _ _ performed => performed) run with
    ⟨_, looks⟩ | ⟨home, first, second, isHome, rfl, looks, updating⟩
  · exact Or.inl (kickstarts_of_looks looks)
  · have split : kickstarts (first ++ second) = kickstarts second := by
      have none := kickstarts_of_looks looks
      unfold kickstarts at none ⊢
      rw [List.countP_append, none, Nat.zero_add]
    rw [split]
    rcases updateLaunchAgent_begins updating with none | ⟨once, holds⟩
    · exact Or.inl none
    · refine Or.inr ⟨once, home, ?_, holds⟩
      rw [(sameMachine_of_begins run).1]
      exact isHome

theorem start_looks (installed : world.Installed compiledApiBaseUrl)
    (run : Begins toldLaunch (installLaunchAgent debug compiledApiBaseUrl) world events after) :
    after = world ∧ ∀ event ∈ events, event.action.looks = true := by
  rcases installLaunchAgent_begins (fun _ _ _ _ performed => performed.1) run with
    quiet | ⟨home, first, second, isHome, rfl, looks, updating⟩
  · exact quiet
  · obtain ⟨home', alsoHome, holds⟩ := installed
    obtain rfl := Option.some.inj (isHome.symm.trans alsoHome)
    obtain ⟨rfl, later⟩ := updateLaunchAgent_looks holds updating
    refine ⟨rfl, fun event member => ?_⟩
    exact (List.mem_append.mp member).elim (looks event) (later event)

/-- What a start did, and whether no reply misled it. -/
structure AgentStart : Type where
  told : Bool
  events : List LaunchEvent

def AgentStart.Begins (debug : String → String) (compiledApiBaseUrl : String)
    (before : LaunchWorld) (start : AgentStart) (after : LaunchWorld) : Prop :=
  Prog.Begins (if start.told then toldLaunch else performsLaunch)
    (installLaunchAgent debug compiledApiBaseUrl) before start.events after

theorem AgentStart.Begins.performs {start : AgentStart}
    (run : start.Begins debug compiledApiBaseUrl world after) :
    Prog.Begins performsLaunch (installLaunchAgent debug compiledApiBaseUrl) world start.events
      after := by
  refine Begins.mono (fun _ _ _ _ performed => ?_) run
  split at performed
  · exact performed.1
  · exact performed

theorem AgentStart.Begins.tells {start : AgentStart} (told : start.told = true)
    (run : start.Begins debug compiledApiBaseUrl world after) :
    Prog.Begins toldLaunch (installLaunchAgent debug compiledApiBaseUrl) world start.events
      after := by
  unfold AgentStart.Begins at run
  rwa [if_pos told] at run

/-- Starts of the agent, each cut off anywhere, with nothing else changing the machine. -/
abbrev AgentStarts (debug : String → String) (compiledApiBaseUrl : String) :
    LaunchWorld → List AgentStart → LaunchWorld → Prop :=
  Trace fun before start after => start.Begins debug compiledApiBaseUrl before after

theorem AgentStarts.look {starts : List AgentStart}
    (trace : AgentStarts debug compiledApiBaseUrl world starts after)
    (installed : world.Installed compiledApiBaseUrl) (told : ∀ start ∈ starts, start.told = true) :
    ∀ start ∈ starts, ∀ event ∈ start.events, event.action.looks = true := by
  refine (Trace.invariant (fun now => now.Installed compiledApiBaseUrl)
    (fun start => start.told = true)
    (fun start => ∀ event ∈ start.events, event.action.looks = true) ?_ trace installed told).2
  intro state start state' holds isTold run
  obtain ⟨rfl, looks⟩ := start_looks holds (run.tells isTold)
  exact ⟨holds, looks⟩

end Starts

def AgentStart.kickstarts (start : AgentStart) : Nat := KlaayGuard.kickstarts start.events

def misledStarts (starts : List AgentStart) : Nat := starts.countP fun start => !start.told

/-- However often the agent starts, and wherever each start is cut off, it has itself started
again at most once and once more for each start that was misled; and after a start that did so
the starts that nothing misleads only look. -/
theorem launch_agent_restarts_once (debug : String → String) (compiledApiBaseUrl : String)
    (world after : LaunchWorld) (starts : List AgentStart)
    (trace : AgentStarts debug compiledApiBaseUrl world starts after) :
    (starts.map AgentStart.kickstarts).sum ≤ 1 + misledStarts starts ∧
      ∀ before start later, starts = before ++ start :: later → start.kickstarts ≠ 0 →
        (∀ other ∈ later, other.told = true) →
        ∀ other ∈ later, ∀ event ∈ other.events, event.action.looks = true := by
  constructor
  · -- What is left to restart: nothing once the job is installed.
    have bound : (starts.map AgentStart.kickstarts).sum ≤ 1 + misledStarts starts ∧
        (world.Installed compiledApiBaseUrl →
          (starts.map AgentStart.kickstarts).sum ≤ misledStarts starts) := by
      induction trace with
      | nil state => exact ⟨Nat.zero_le _, fun _ => Nat.le_refl _⟩
      | @cons before middle after start starts run rest ih =>
          obtain ⟨anyway, settled⟩ := ih
          rw [List.map_cons, List.sum_cons, misledStarts, List.countP_cons, ← misledStarts]
          have once := start_kickstarts run.performs
          rw [← AgentStart.kickstarts] at once
          cases told : start.told with
          | true =>
              have looks := fun installed => start_looks installed (run.tells told)
              have quiet : before.Installed compiledApiBaseUrl → start.kickstarts = 0 :=
                fun installed => kickstarts_of_looks (looks installed).2
              simp only [Bool.not_true, Bool.false_eq_true, if_false, Nat.add_zero]
              constructor
              · rcases once with none | ⟨one, installed⟩
                · omega
                · have later := settled installed
                  omega
              · intro installed
                have none := quiet installed
                have later := settled ((looks installed).1 ▸ installed)
                omega
          | false =>
              simp only [Bool.not_false, if_true]
              rcases once with none | ⟨one, installed⟩
              · exact ⟨by omega, fun _ => by omega⟩
              · have later := settled installed
                exact ⟨by omega, fun _ => by omega⟩
    exact bound.1
  · rintro before start later rfl restarted told
    obtain ⟨early, late, _, run, rest⟩ := trace.split
    rcases start_kickstarts run.performs with none | ⟨_, installed⟩
    · exact absurd none restarted
    · exact AgentStarts.look rest installed told

/-! The first start on a machine, which `kickstart` ends, and the one after it. -/

private def adasMac : LaunchWorld :=
  { home := some "/Users/ada"
    uid := 501
    exe := .ok "/Applications/KlaayGuard.app/Contents/MacOS/KlaayGuard"
    appInstalled := true
    files := fun _ => none
    loaded := false }

private theorem adas_app_is_installed :
    notTheInstalledApp id "/Applications/KlaayGuard.app/Contents/MacOS/KlaayGuard" installedBundle
      true = none := by
  decide +kernel

private def firstLooks : List LaunchEvent :=
  [⟨.homeDir, some "/Users/ada"⟩, ⟨.getuid, 501⟩,
    ⟨.createDirAll (launchAgentsDir "/Users/ada"), .ok ()⟩,
    ⟨.currentExe, .ok "/Applications/KlaayGuard.app/Contents/MacOS/KlaayGuard"⟩,
    ⟨.pathExists installedBundle, true⟩, ⟨.createDirAll (launchLogDir "/Users/ada"), .ok ()⟩]

private theorem adas_start {files : String → Option String} {loaded : Bool}
    {events : List LaunchEvent} {after : LaunchWorld}
    (run : Begins toldLaunch (updateLaunchAgent 501 (launchAgentPath "/Users/ada")
      (launchAgentText "https://api.klaay.com" "/Users/ada"))
      { adasMac with files := files, loaded := loaded } events after) :
    Begins toldLaunch (installLaunchAgent id "https://api.klaay.com")
      { adasMac with files := files, loaded := loaded } (firstLooks ++ events) after := by
  refine .act ⟨⟨rfl, rfl⟩, trivial⟩ <| .act ⟨⟨rfl, rfl⟩, trivial⟩ <| .act ⟨rfl, trivial⟩ <|
    .act ⟨⟨rfl, rfl⟩, trivial⟩ <| .act ⟨⟨rfl, rfl⟩, trivial⟩ ?_
  change Begins toldLaunch (match notTheInstalledApp id
    "/Applications/KlaayGuard.app/Contents/MacOS/KlaayGuard" installedBundle true with
    | some reason => pure (.ok ("not writing the LaunchAgent: " ++ reason))
    | none => prepareLaunchAgent "https://api.klaay.com" "/Users/ada" 501) _ _ after
  rw [adas_app_is_installed]
  exact .act ⟨rfl, trivial⟩ run

private def installEvents (path text : String) : List LaunchEvent :=
  [⟨.readToString path, .error ""⟩, ⟨.write path text, .ok ()⟩,
    ⟨.launchctl ["bootout", launchTarget 501], .error ""⟩,
    ⟨.launchctl ["enable", launchTarget 501], .error ""⟩,
    ⟨.launchctl ["bootstrap", launchDomain 501, path], .ok ⟨true, ""⟩⟩,
    ⟨.launchctl ["kickstart", "-k", launchTarget 501], .error ""⟩]

private theorem adas_first_start (path text : String) :
    Begins toldLaunch (updateLaunchAgent 501 path text) adasMac (installEvents path text)
      { adasMac with
        files := Function.update adasMac.files path (some text)
        loaded := true } := by
  have other : some "bootstrap" ≠ some "print" := by decide
  exact .act ⟨⟨rfl, trivial⟩, rfl⟩ <| .act ⟨rfl, trivial⟩ <| .act ⟨Or.inl rfl, trivial⟩ <|
    .act ⟨rfl, trivial⟩ <|
    .act ⟨⟨rfl, fun _ => rfl, fun _ _ _ => rfl⟩, fun same => absurd same other⟩ <|
    .act ⟨rfl, trivial⟩ <| .here _ _

private theorem adas_second_start (path text : String) :
    Begins toldLaunch (updateLaunchAgent 501 path text)
      { adasMac with
        files := Function.update adasMac.files path (some text)
        loaded := true }
      [⟨.readToString path, .ok text⟩, ⟨.launchctl ["print", launchTarget 501], .ok ⟨true, ""⟩⟩]
      { adasMac with
        files := Function.update adasMac.files path (some text)
        loaded := true } := by
  refine .act ⟨⟨rfl, Function.update_self _ _ _⟩, trivial⟩ ?_
  change Begins toldLaunch (if text = text then _ else _) _ _ _
  rw [if_pos rfl]
  exact .act ⟨rfl, fun _ => rfl⟩ (.here _ _)

theorem launch_agent_installed_in_order_at_first_start :
    SawItselfInstalled
      (firstLooks ++ [⟨.readToString (launchAgentPath "/Users/ada"), .error ""⟩]) := by
  have run := adas_start (adas_first_start (launchAgentPath "/Users/ada")
    (launchAgentText "https://api.klaay.com" "/Users/ada"))
  rw [installEvents, List.append_cons] at run
  exact (launch_agent_installed_in_order id "https://api.klaay.com" toldLaunch _ _ _ _ _ run).1

theorem launch_agent_restarts_once_on_adas_mac :
    ∃ starts after, AgentStarts id "https://api.klaay.com" adasMac starts after ∧
      starts.length = 2 ∧ (starts.map AgentStart.kickstarts).sum ≤ 1 := by
  have trace : AgentStarts id "https://api.klaay.com" adasMac [⟨true, _⟩, ⟨true, _⟩] _ :=
    .cons (adas_start (adas_first_start _ _)) <|
      .cons (adas_start (adas_second_start _ _)) (.nil _)
  exact ⟨_, _, trace, rfl, (launch_agent_restarts_once _ _ _ _ _ trace).1⟩

end KlaayGuard
