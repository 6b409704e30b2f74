/-
The macOS package's postinstall: the old agent is stopped, and a new one is answered for.

The check of the new agent is armed as the shell's EXIT trap before anything stops, so an
install that is interrupted in between still makes it.  Both waits are on the clock; a
`sleep 0.1` takes a tenth of a second at least.
-/

import KlaayGuard.Library.EffectProgram

set_option autoImplicit false

namespace KlaayGuard

open EffectProgram Prog

inductive InstallAction : Type where
  /-- `[ -x path ]`. -/
  | isExecutable (path : String)
  /-- `stat -f "%Su" /dev/console`, empty where it fails. -/
  | consoleUser
  /-- `id -u user`, empty where it fails. -/
  | userId (user : String)
  /-- The shell's `SECONDS`. -/
  | seconds
  | pkill (force : Bool) (uid pattern : String)
  | pgrep (uid pattern : String)
  | sleepTenth
  /-- Answered by its exit status. -/
  | launchctl (args : List String) (stderr : Option String)
  | mktemp
  | readHead (path : String)
  | removeFile (path : String)
  | log (line : String)

@[reducible] def InstallAction.Reply : InstallAction → Type
  | .isExecutable _ => Bool
  | .consoleUser => String
  | .userId _ => String
  | .seconds => Nat
  | .pkill _ _ _ => Bool
  | .pgrep _ _ => Bool
  | .sleepTenth => Unit
  | .launchctl _ _ => Nat
  | .mktemp => Option String
  | .readHead _ => String
  | .removeFile _ => Unit
  | .log _ => Unit

abbrev InstallProgram (α : Type) : Type := Prog InstallAction InstallAction.Reply α

abbrev InstallEvent : Type := Event InstallAction InstallAction.Reply

abbrev install (action : InstallAction) : InstallProgram action.Reply := .perform action

/-- `$3`, and the two variables that shorten the waits. -/
structure InstallSettings : Type where
  targetVolume : String
  stopWaitSeconds : Nat
  agentWaitSeconds : Nat

/-- `${TARGET_VOLUME%/}/Applications/KlaayGuard.app`. -/
def installedApp (targetVolume : String) : String :=
  let volume := targetVolume.toList
  String.ofList (if volume.getLast? = some '/' then volume.dropLast else volume) ++
    "/Applications/KlaayGuard.app"

structure ConsoleLogin : Type where
  user : String
  uid : String
  app : String

def ConsoleLogin.bin (login : ConsoleLogin) : String := login.app ++ "/Contents/MacOS/KlaayGuard"

def ConsoleLogin.pattern (login : ConsoleLogin) : String := "^" ++ login.bin

def ConsoleLogin.asuser (login : ConsoleLogin) (args : List String) (stderr : Option String) :
    InstallProgram Nat :=
  install (.launchctl ("asuser" :: login.uid :: args) stderr)

/-- `command || log line`. -/
def logUnless (succeeded : Bool) (line : String) : InstallProgram Unit :=
  if succeeded then .done () else install (.log line)

def forcingLine (settings : InstallSettings) : String :=
  "postinstall: the old agent ignored SIGTERM for " ++ toString settings.stopWaitSeconds ++
    "s; forcing"

def replacedLine : String := "postinstall: stopped the agent this install replaces"

section Script

variable (settings : InstallSettings) (login : ConsoleLogin)

def forceOldAgent : InstallProgram Bool := do
  install (.log (forcingLine settings))
  let _ ← install (.pkill true login.uid login.pattern)
  .done true

/-- The loop of `stop_running_agent`, for so many more sleeps at most; `false` where they do
not suffice. -/
def awaitOldAgent (started : Nat) : Nat → InstallProgram Bool
  | 0 => do
      if ← install (.pgrep login.uid login.pattern) then
        let now ← install .seconds
        if now - started ≥ settings.stopWaitSeconds then forceOldAgent settings login
        else .done false
      else .done true
  | sleeps + 1 => do
      if ← install (.pgrep login.uid login.pattern) then
        let now ← install .seconds
        if now - started ≥ settings.stopWaitSeconds then forceOldAgent settings login
        else do
          install .sleepTenth
          awaitOldAgent started sleeps
      else .done true

def stopRunningAgent : InstallProgram Unit := do
  if ← install (.pkill false login.uid login.pattern) then
    let started ← install .seconds
    let _ ← awaitOldAgent settings login started (10 * settings.stopWaitSeconds)
    install (.log replacedLine)
  else .done ()

/-- The loop of `wait_for_agent`, for so many more sleeps at most; `none` where they do not
suffice. -/
def pollForAgent (started : Nat) : Nat → InstallProgram (Option Bool)
  | 0 => do
      let now ← install .seconds
      if now - started < settings.agentWaitSeconds then
        if ← install (.pgrep login.uid login.pattern) then .done (some true)
        else .done none
      else .done (some false)
  | sleeps + 1 => do
      let now ← install .seconds
      if now - started < settings.agentWaitSeconds then
        if ← install (.pgrep login.uid login.pattern) then .done (some true)
        else do
          install .sleepTenth
          pollForAgent started sleeps
      else .done (some false)

def waitForAgent : InstallProgram Bool := do
  let started ← install .seconds
  let found ← pollForAgent settings login started (10 * settings.agentWaitSeconds)
  .done (found = some true)

def launchStatusLine (status : Nat) (text : String) : String :=
  "postinstall: the launch chain exited " ++ toString status ++ ": " ++
    String.ofList (text.toList.map fun c => if c = '\n' then ' ' else c)

def reportLaunch (launchErr : String) (status : Nat) : InstallProgram Unit :=
  if status = 0 then .done ()
  else do
    let text ← install (.readHead launchErr)
    install (.log (launchStatusLine status text))

def dropLaunchErr (launchErr : String) : InstallProgram Unit :=
  if launchErr = "/dev/null" then .done () else install (.removeFile launchErr)

def openArgs : List String :=
  ["/usr/bin/sudo", "-H", "-u", login.user, "/usr/bin/open", "-g", "-j", "-a", login.app]

def launchAgent : InstallProgram Unit := do
  let kept ← install .mktemp
  logUnless kept.isSome "postinstall: mktemp failed; the launch runs without keeping its stderr"
  let launchErr := kept.getD "/dev/null"
  let status ← login.asuser (openArgs login) (some launchErr)
  reportLaunch launchErr status
  dropLaunchErr launchErr

def openingLine : String :=
  "postinstall: no agent after the kickstart; opening the app directly"

def noAgentLine : String :=
  "postinstall: ERROR no agent runs after the install; this Mac reports nothing until the next " ++
    "login"

def ensureAgentRunning : InstallProgram Bool := do
  if ← waitForAgent settings login then .done true
  else do
    install (.log openingLine)
    launchAgent login
    if ← waitForAgent settings login then .done true
    else do
      install (.log noAgentLine)
      .done false

/-- The exit status, or the login for which the rest of the script runs. -/
def beginInstall : InstallProgram (Except Nat ConsoleLogin) := do
  let app := installedApp settings.targetVolume
  let bin := app ++ "/Contents/MacOS/KlaayGuard"
  if ← install (.isExecutable bin) then
    let user ← install .consoleUser
    if user = "" ∨ user = "root" ∨ user = "loginwindow" then do
      install (.log "postinstall: no console user; agent will register at next user launch")
      .done (.error 0)
    else do
      let uid ← install (.userId user)
      if uid = "" then do
        install (.log ("postinstall: could not resolve uid for " ++ user ++ "; skipping"))
        .done (.error 0)
      else do
        install (.log ("postinstall: registering LaunchAgent for " ++ user ++ " (uid " ++ uid ++
          ")"))
        .done (.ok { user := user, uid := uid, app := app })
  else do
    install (.log ("postinstall: ERROR no KlaayGuard binary at " ++ bin ++
      "; the install left no app and no agent"))
    .done (.error 1)

/-- What the script does while its trap is armed. -/
def replaceAgent : InstallProgram Unit := do
  stopRunningAgent settings login
  let seam ← login.asuser ["/usr/bin/sudo", "-H", "-u", login.user, login.bin, "--install-agent"]
    none
  logUnless (seam == 0) ("postinstall: install-agent seam did not finish cleanly; " ++
    "trying launchctl directly")
  let domain := "gui/" ++ login.uid
  let label := domain ++ "/com.klaay.klaayguard"
  let plist := "/Users/" ++ login.user ++ "/Library/LaunchAgents/com.klaay.klaayguard.plist"
  let _ ← login.asuser ["/bin/launchctl", "enable", label] (some "/dev/null")
  let booted ← login.asuser ["/bin/launchctl", "bootstrap", domain, plist] (some "/dev/null")
  logUnless (booted == 0) ("postinstall: live bootstrap deferred; enabled label will load at " ++
    "next login (RunAtLoad)")
  let _ ← login.asuser ["/bin/launchctl", "kickstart", "-k", label] (some "/dev/null")
  .done ()

def postinstall : InstallProgram Nat := do
  match ← beginInstall settings with
  | .error status => .done status
  | .ok login => do
      replaceAgent settings login
      let _ ← ensureAgentRunning settings login
      .done 0

end Script

/-! ### Runs -/

/-- The clock is in milliseconds, and `SECONDS` in whole seconds. -/
def performsInstall (now : Nat) : (action : InstallAction) → action.Reply → Nat → Prop
  | .seconds, reply, after => reply = now / 1000 ∧ now ≤ after
  | .sleepTenth, _, after => now + 100 ≤ after
  | _, _, after => now ≤ after

/-- How an install ends: on its own with a status, or on a signal that comes while the trap is
armed. -/
inductive InstallEnds (settings : InstallSettings) (start : Nat) :
    List InstallEvent → Nat → Option Nat → Prop where
  | exits {events : List InstallEvent} {after status : Nat}
      (run : Runs performsInstall (postinstall settings) start events after status) :
      InstallEnds settings start events after (some status)
  | interrupted {begun replaced checked : List InstallEvent} {middle late after : Nat}
      {login : ConsoleLogin} {found : Bool}
      (begins : Runs performsInstall (beginInstall settings) start begun middle (.ok login))
      (cut : Begins performsInstall (replaceAgent settings login) middle replaced late)
      (check : Runs performsInstall (ensureAgentRunning settings login) late checked after found) :
      InstallEnds settings start (begun ++ (replaced ++ checked)) after none

variable {settings : InstallSettings} {login : ConsoleLogin} {now after started sleeps : Nat}
variable {events : List InstallEvent}

def SawAgent (login : ConsoleLogin) (events : List InstallEvent) : Prop :=
  ⟨.pgrep login.uid login.pattern, true⟩ ∈ events

def SawNoAgent (events : List InstallEvent) : Prop :=
  ∀ uid pattern, (⟨.pgrep uid pattern, true⟩ : InstallEvent) ∉ events

/-- The last of the events reads the clock, and finds the wait over. -/
def ReadsOver (settings : InstallSettings) (started : Nat) (events : List InstallEvent) : Prop :=
  ∃ polls, ∃ reading : Nat, events = polls ++ [⟨.seconds, reading⟩] ∧
    started + settings.agentWaitSeconds ≤ reading

theorem ReadsOver.later (earlier : List InstallEvent) (ends : ReadsOver settings started events) :
    ReadsOver settings started (earlier ++ events) := by
  obtain ⟨polls, reading, rfl, late⟩ := ends
  exact ⟨earlier ++ polls, reading, (List.append_assoc _ _ _).symm, late⟩

/-- What the loop of `wait_for_agent` comes to: `none` only before its time is up. -/
def PollOutcome (settings : InstallSettings) (login : ConsoleLogin) (started sleeps now : Nat)
    (events : List InstallEvent) : Option Bool → Prop
  | some true => SawAgent login events
  | some false => SawNoAgent events ∧ ReadsOver settings started events
  | none => now + 100 * sleeps < 1000 * (started + settings.agentWaitSeconds)

theorem pollForAgent_runs {result : Option Bool} (began : started ≤ now / 1000)
    (run : Runs performsInstall (pollForAgent settings login started sleeps) now events after
      result) : PollOutcome settings login started sleeps now events result := by
  induction sleeps generalizing now events with
  | zero =>
      obtain ⟨read, clock, rest, ⟨rfl, later⟩, rfl, checked⟩ := runs_perform_bind.mp run
      by_cases early : now / 1000 - started < settings.agentWaitSeconds
      · rw [if_pos early] at checked
        obtain ⟨found, clock', rest', polled, rfl, answered⟩ := runs_perform_bind.mp checked
        cases found with
        | true =>
            obtain ⟨rfl, rfl, rfl⟩ := runs_done.mp answered
            exact List.mem_cons_of_mem _ List.mem_cons_self
        | false =>
            obtain ⟨rfl, rfl, rfl⟩ := runs_done.mp answered
            unfold PollOutcome
            omega
      · rw [if_neg early] at checked
        obtain ⟨rfl, rfl, rfl⟩ := runs_done.mp checked
        refine ⟨fun uid pattern member => ?_, [], now / 1000, rfl, by omega⟩
        cases List.mem_singleton.mp member
  | succ sleeps ih =>
      obtain ⟨read, clock, rest, ⟨rfl, later⟩, rfl, checked⟩ := runs_perform_bind.mp run
      by_cases early : now / 1000 - started < settings.agentWaitSeconds
      · rw [if_pos early] at checked
        obtain ⟨found, clock', rest', polled, rfl, answered⟩ := runs_perform_bind.mp checked
        cases found with
        | true =>
            obtain ⟨rfl, rfl, rfl⟩ := runs_done.mp answered
            exact List.mem_cons_of_mem _ List.mem_cons_self
        | false =>
            obtain ⟨_, clock'', rest'', slept, rfl, again⟩ := runs_perform_bind.mp answered
            have tenth : clock' + 100 ≤ clock'' := slept
            have onwards : clock ≤ clock' := polled
            have outcome := ih (by omega) again
            cases result with
            | none =>
                unfold PollOutcome at outcome ⊢
                omega
            | some found =>
                cases found with
                | true =>
                    exact List.mem_cons_of_mem _ <| List.mem_cons_of_mem _ <|
                      List.mem_cons_of_mem _ outcome
                | false =>
                    refine ⟨fun uid pattern member => ?_, outcome.2.later [_, _, _]⟩
                    simp only [List.mem_cons, Event.mk.injEq, reduceCtorEq, false_and, false_or,
                      InstallAction.pgrep.injEq] at member
                    rcases member with ⟨_, differ⟩ | member
                    · simp at differ
                    · exact outcome.1 uid pattern member
      · rw [if_neg early] at checked
        obtain ⟨rfl, rfl, rfl⟩ := runs_done.mp checked
        refine ⟨fun uid pattern member => ?_, [], now / 1000, rfl, by omega⟩
        cases List.mem_singleton.mp member

theorem SawNoAgent.append {first second : List InstallEvent} (left : SawNoAgent first)
    (right : SawNoAgent second) : SawNoAgent (first ++ second) := by
  intro uid pattern member
  rcases List.mem_append.mp member with member | member
  · exact left uid pattern member
  · exact right uid pattern member

/-- Two readings of the clock lie the wait apart, and no poll has seen an agent. -/
def WaitedInVain (settings : InstallSettings) (events : List InstallEvent) : Prop :=
  SawNoAgent events ∧ ∃ (started : Nat) (rest : List InstallEvent), events = ⟨.seconds, started⟩ :: rest ∧
    ReadsOver settings started rest

theorem waitForAgent_runs {found : Bool}
    (run : Runs performsInstall (waitForAgent settings login) now events after found) :
    if found then SawAgent login events else WaitedInVain settings events := by
  unfold waitForAgent at run
  obtain ⟨read, clock, rest, ⟨rfl, later⟩, rfl, polls⟩ := runs_perform_bind.mp run
  obtain ⟨clock', polled, first, second, loop, answered, rfl⟩ := runs_bind.mp polls
  obtain ⟨rfl, rfl, rfl⟩ := runs_done.mp answered
  rw [List.append_nil]
  have outcome := pollForAgent_runs (Nat.div_le_div_right later) loop
  cases polled with
  | none =>
      -- So many sleeps take longer than the wait, so the loop has ended by then.
      unfold PollOutcome at outcome
      omega
  | some found =>
      cases found with
      | true => exact List.mem_cons_of_mem _ outcome
      | false =>
          refine ⟨fun uid pattern member => ?_, _, _, rfl, outcome.2⟩
          rcases List.mem_cons.mp member with same | member
          · cases same
          · exact outcome.1 uid pattern member

def InstallAction.isSleep : InstallAction → Bool
  | .sleepTenth => true
  | _ => false

/-- How the loop of `stop_running_agent` went: every reading of the clock but the last was
before the end of its time, and it ended when the old agent was seen gone, or with a reading
after that time and a SIGKILL. -/
def OldAgentOut (settings : InstallSettings) (login : ConsoleLogin) (started : Nat)
    (events : List InstallEvent) : Prop :=
  ∃ waiting last, events = waiting ++ last ∧
    (∀ reading : Nat, (⟨.seconds, reading⟩ : InstallEvent) ∈ waiting →
      reading < started + settings.stopWaitSeconds) ∧
    (last = [⟨.pgrep login.uid login.pattern, false⟩] ∨
      ∃ (reading : Nat) (found : Bool), started + settings.stopWaitSeconds ≤ reading ∧
        last = [⟨.seconds, reading⟩, ⟨.log (forcingLine settings), ()⟩,
          ⟨.pkill true login.uid login.pattern, found⟩])

theorem OldAgentOut.later {earlier : List InstallEvent}
    (out : OldAgentOut settings login started events)
    (early : ∀ reading : Nat, (⟨.seconds, reading⟩ : InstallEvent) ∈ earlier →
      reading < started + settings.stopWaitSeconds) :
    OldAgentOut settings login started (earlier ++ events) := by
  obtain ⟨waiting, last, rfl, before, ended⟩ := out
  refine ⟨earlier ++ waiting, last, (List.append_assoc _ _ _).symm, fun reading member => ?_, ended⟩
  rcases List.mem_append.mp member with member | member
  · exact early reading member
  · exact before reading member

theorem OldAgentOut.gone :
    OldAgentOut settings login started [⟨.pgrep login.uid login.pattern, false⟩] :=
  ⟨[], _, rfl, nofun, Or.inl rfl⟩

theorem OldAgentOut.forced {reading : Nat} {found : Bool}
    (late : started + settings.stopWaitSeconds ≤ reading) :
    OldAgentOut settings login started [⟨.pgrep login.uid login.pattern, true⟩,
      ⟨.seconds, reading⟩, ⟨.log (forcingLine settings), ()⟩,
      ⟨.pkill true login.uid login.pattern, found⟩] := by
  refine ⟨[⟨.pgrep login.uid login.pattern, true⟩], _, rfl, fun other member => ?_,
    Or.inr ⟨reading, found, late, rfl⟩⟩
  cases List.mem_singleton.mp member

theorem forceOldAgent_runs {ended : Bool}
    (run : Runs performsInstall (forceOldAgent settings login) now events after ended) :
    ∃ found, events = [⟨.log (forcingLine settings), ()⟩,
      ⟨.pkill true login.uid login.pattern, found⟩] := by
  unfold forceOldAgent at run
  obtain ⟨_, _, _, _, rfl, killing⟩ := runs_perform_bind.mp run
  obtain ⟨found, _, _, _, rfl, last⟩ := runs_perform_bind.mp killing
  obtain ⟨rfl, -, -⟩ := runs_done.mp last
  exact ⟨found, rfl⟩

theorem awaitOldAgent_runs {ended : Bool} (began : started ≤ now / 1000)
    (enough : 1000 * (started + settings.stopWaitSeconds) ≤ now + 100 * sleeps)
    (run : Runs performsInstall (awaitOldAgent settings login started sleeps) now events after
      ended) :
    OldAgentOut settings login started events ∧
      events.countP (·.action.isSleep) ≤ sleeps := by
  induction sleeps generalizing now events with
  | zero =>
      unfold awaitOldAgent at run
      obtain ⟨alive, clock, rest, polled, rfl, checked⟩ := runs_perform_bind.mp run
      cases alive with
      | false =>
          obtain ⟨rfl, -, -⟩ := runs_done.mp checked
          exact ⟨.gone, Nat.le_refl 0⟩
      | true =>
          obtain ⟨read, clock', rest', ⟨rfl, later⟩, rfl, decided⟩ := runs_perform_bind.mp checked
          have onwards : now ≤ clock := polled
          have late : clock / 1000 - started ≥ settings.stopWaitSeconds := by omega
          simp only [if_pos late] at decided
          obtain ⟨found, rfl⟩ := forceOldAgent_runs decided
          exact ⟨.forced (by omega), Nat.le_refl 0⟩
  | succ sleeps ih =>
      unfold awaitOldAgent at run
      obtain ⟨alive, clock, rest, polled, rfl, checked⟩ := runs_perform_bind.mp run
      cases alive with
      | false =>
          obtain ⟨rfl, -, -⟩ := runs_done.mp checked
          exact ⟨.gone, Nat.zero_le _⟩
      | true =>
          obtain ⟨read, clock', rest', ⟨rfl, later⟩, rfl, decided⟩ := runs_perform_bind.mp checked
          have onwards : now ≤ clock := polled
          by_cases late : clock / 1000 - started ≥ settings.stopWaitSeconds
          · simp only [if_pos late] at decided
            obtain ⟨found, rfl⟩ := forceOldAgent_runs decided
            exact ⟨.forced (by omega), Nat.zero_le _⟩
          · simp only [if_neg late] at decided
            obtain ⟨_, clock'', rest'', slept, rfl, again⟩ := runs_perform_bind.mp decided
            have tenth : clock' + 100 ≤ clock'' := slept
            obtain ⟨out, few⟩ := ih (by omega) (by omega) again
            refine ⟨@OldAgentOut.later _ _ _ _ [_, _, _] out fun reading member => ?_, ?_⟩
            · rcases List.mem_cons.mp member with same | member
              · cases same
              rcases List.mem_cons.mp member with same | member
              · cases same
                omega
              · cases List.mem_singleton.mp member
            · simpa [List.countP_cons, InstallAction.isSleep] using few

theorem logUnless_only {kind : InstallAction → Prop} {succeeded : Bool} {line : String}
    (logs : kind (.log line)) : (logUnless succeeded line).Only kind := by
  cases succeeded with
  | true => trivial
  | false => exact ⟨logs, fun _ => trivial⟩

theorem awaitOldAgent_only {kind : InstallAction → Prop} (logs : ∀ line, kind (.log line))
    (kills : ∀ force, kind (.pkill force login.uid login.pattern))
    (polls : kind (.pgrep login.uid login.pattern)) (reads : kind .seconds)
    (sleeping : kind .sleepTenth) : (awaitOldAgent settings login started sleeps).Only kind := by
  have forced : (forceOldAgent settings login).Only kind :=
    ⟨logs _, fun _ => ⟨kills _, fun _ => trivial⟩⟩
  induction sleeps with
  | zero =>
      refine ⟨polls, fun alive => ?_⟩
      cases alive with
      | false => trivial
      | true =>
          refine ⟨reads, fun read => ?_⟩
          change Only _ (if read - started ≥ settings.stopWaitSeconds then _ else _)
          split
          · exact forced
          · trivial
  | succ sleeps ih =>
      refine ⟨polls, fun alive => ?_⟩
      cases alive with
      | false => trivial
      | true =>
          refine ⟨reads, fun read => ?_⟩
          change Only _ (if read - started ≥ settings.stopWaitSeconds then _ else _)
          split
          · exact forced
          · exact ⟨sleeping, fun _ => ih⟩

theorem stopRunningAgent_only {kind : InstallAction → Prop} (logs : ∀ line, kind (.log line))
    (kills : ∀ force, kind (.pkill force login.uid login.pattern))
    (polls : kind (.pgrep login.uid login.pattern)) (reads : kind .seconds)
    (sleeping : kind .sleepTenth) : (stopRunningAgent settings login).Only kind := by
  refine ⟨kills _, fun signalled => ?_⟩
  cases signalled with
  | false => trivial
  | true =>
      exact ⟨reads, fun read => (awaitOldAgent_only logs kills polls reads sleeping).bind fun _ =>
        ⟨logs _, fun _ => trivial⟩⟩

def InstallAction.StartsNothing (action : InstallAction) : Prop :=
  ∀ args stderr, action ≠ .launchctl args stderr

/-- What `stop_running_agent` did: there was nobody to stop, or it waited for the old agent from
a reading of the clock on, with no more than ten sleeps for each second of its time. -/
def StoppedOldAgent (settings : InstallSettings) (login : ConsoleLogin)
    (events : List InstallEvent) : Prop :=
  events = [⟨.pkill false login.uid login.pattern, false⟩] ∨
    ∃ (started : Nat) (waited : List InstallEvent), events = ⟨.pkill false login.uid login.pattern, true⟩ ::
        ⟨.seconds, started⟩ :: (waited ++ [⟨.log replacedLine, ()⟩]) ∧
      OldAgentOut settings login started waited ∧
      waited.countP (·.action.isSleep) ≤ 10 * settings.stopWaitSeconds

theorem stopRunningAgent_runs
    (run : Runs performsInstall (stopRunningAgent settings login) now events after ()) :
    StoppedOldAgent settings login events := by
  unfold stopRunningAgent at run
  obtain ⟨signalled, clock, rest, sent, rfl, waiting⟩ := runs_perform_bind.mp run
  cases signalled with
  | false =>
      obtain ⟨rfl, -, -⟩ := runs_done.mp waiting
      exact Or.inl rfl
  | true =>
      obtain ⟨read, clock', rest', ⟨rfl, later⟩, rfl, looping⟩ := runs_perform_bind.mp waiting
      obtain ⟨late, ended, waited, last, loop, logging, rfl⟩ := runs_bind.mp looping
      obtain ⟨_, _, _, _, rfl, ended⟩ := runs_perform_bind.mp logging
      obtain ⟨rfl, -, -⟩ := runs_done.mp ended
      have out := awaitOldAgent_runs (Nat.div_le_div_right later) (by omega) loop
      exact Or.inr ⟨_, waited, rfl, out⟩

/-- Wherever it is cut off, the replacement starts nothing before it has stopped the old agent:
seen it gone, or killed it when its time was over. -/
theorem old_agent_out_before_new (settings : InstallSettings) (login : ConsoleLogin)
    (start after : Nat) (events : List InstallEvent)
    (run : Begins performsInstall (replaceAgent settings login) start events after) :
    (∀ event ∈ events, event.action.StartsNothing) ∨
      ∃ stopping starting, events = stopping ++ starting ∧
        (∀ event ∈ stopping, event.action.StartsNothing) ∧
        StoppedOldAgent settings login stopping := by
  have startsNothing : (stopRunningAgent settings login).Only InstallAction.StartsNothing :=
    stopRunningAgent_only (fun _ => nofun) (fun _ => nofun) nofun nofun nofun
  unfold replaceAgent at run
  rcases begins_bind run with stopping | ⟨middle, _, stopping, starting, stop, -, rfl⟩
  · exact Or.inl (stopping.only startsNothing)
  · exact Or.inr ⟨stopping, starting, rfl, stop.only startsNothing, stopRunningAgent_runs stop⟩

/-- The check has waited, opened the app, waited again and says that no agent runs. -/
def GaveUp (settings : InstallSettings) (login : ConsoleLogin) (events : List InstallEvent) :
    Prop :=
  ∃ early launch late, events = early ++ ⟨.log openingLine, ()⟩ ::
      (launch ++ (late ++ [⟨.log noAgentLine, ()⟩])) ∧
    WaitedInVain settings early ∧
    (∃ stderr status,
      ⟨.launchctl ("asuser" :: login.uid :: openArgs login) stderr, status⟩ ∈ launch) ∧
    WaitedInVain settings late

theorem launchAgent_only {kind : InstallAction → Prop} (mktemp : kind .mktemp)
    (launchctl : ∀ stderr, kind (.launchctl ("asuser" :: login.uid :: openArgs login) stderr))
    (reads : ∀ path, kind (.readHead path)) (removes : ∀ path, kind (.removeFile path))
    (logs : ∀ line, kind (.log line)) : (launchAgent login).Only kind := by
  refine ⟨mktemp, fun kept => (logUnless_only (logs _)).bind fun _ =>
    ⟨launchctl _, fun status => ?_⟩⟩
  refine @Only.bind _ _ _ _ _ (reportLaunch _ status) _ ?_ fun _ => ?_
  · unfold reportLaunch
    split
    · trivial
    · exact ⟨reads _, fun text => ⟨logs _, fun _ => trivial⟩⟩
  · unfold dropLaunchErr
    split
    · trivial
    · exact ⟨removes _, fun _ => trivial⟩

theorem launchAgent_runs
    (run : Runs performsInstall (launchAgent login) now events after ()) :
    ∃ stderr status,
      ⟨.launchctl ("asuser" :: login.uid :: openArgs login) stderr, status⟩ ∈ events := by
  unfold launchAgent at run
  obtain ⟨kept, _, _, _, rfl, noting⟩ := runs_perform_bind.mp run
  obtain ⟨_, _, first, second, _, launching, rfl⟩ := runs_bind.mp noting
  obtain ⟨status, _, rest, _, rfl, _⟩ := runs_perform_bind.mp launching
  refine ⟨_, status, ?_⟩
  exact List.mem_cons_of_mem _ (List.mem_append_right _ List.mem_cons_self)

theorem ensureAgentRunning_runs {found : Bool}
    (run : Runs performsInstall (ensureAgentRunning settings login) now events after found) :
    SawAgent login events ∨ GaveUp settings login events := by
  unfold ensureAgentRunning at run
  obtain ⟨clock, early, first, second, waited, decided, rfl⟩ := runs_bind.mp run
  have outcome := waitForAgent_runs waited
  cases early with
  | true =>
      obtain ⟨rfl, -, -⟩ := runs_done.mp decided
      exact Or.inl (List.mem_append_left _ outcome)
  | false =>
      obtain ⟨_, clock', rest, logged, rfl, opening⟩ := runs_perform_bind.mp decided
      obtain ⟨clock'', _, launched, third, launch, again, rfl⟩ := runs_bind.mp opening
      obtain ⟨late, found', polls, fourth, waitedAgain, answered, rfl⟩ := runs_bind.mp again
      have lateOutcome := waitForAgent_runs waitedAgain
      cases found' with
      | true =>
          obtain ⟨rfl, -, -⟩ := runs_done.mp answered
          refine Or.inl (List.mem_append_right _ (List.mem_cons_of_mem _
            (List.mem_append_right _ (List.mem_append_left _ lateOutcome))))
      | false =>
          obtain ⟨_, end_, rest', reported, rfl, last⟩ := runs_perform_bind.mp answered
          obtain ⟨rfl, rfl, -⟩ := runs_done.mp last
          exact Or.inr ⟨first, launched, polls, rfl, outcome, launchAgent_runs launch, lateOutcome⟩

/-! ### The whole install -/

def InstallAction.Looks : InstallAction → Prop
  | .pkill _ _ _ => False
  | .pgrep _ _ => False
  | .launchctl _ _ => False
  | _ => True

def InstallAction.OnBehalfOf (login : ConsoleLogin) : InstallAction → Prop
  | .pkill _ uid pattern => uid = login.uid ∧ pattern = login.pattern
  | .pgrep uid pattern => uid = login.uid ∧ pattern = login.pattern
  | .launchctl args _ => ∃ rest, args = "asuser" :: login.uid :: rest
  | _ => True

def InstallAction.Checks (login : ConsoleLogin) (action : InstallAction) : Prop :=
  action.OnBehalfOf login ∧ ∀ force uid pattern, action ≠ .pkill force uid pattern

theorem beginInstall_looks : (beginInstall settings).Only InstallAction.Looks := by
  refine ⟨trivial, fun present => ?_⟩
  cases present with
  | false => exact ⟨trivial, fun _ => trivial⟩
  | true =>
      refine ⟨trivial, fun user => ?_⟩
      change Only _ (if user = "" ∨ user = "root" ∨ user = "loginwindow" then _ else _)
      split
      · exact ⟨trivial, fun _ => trivial⟩
      · refine ⟨trivial, fun uid => ?_⟩
        change Only _ (if uid = "" then _ else _)
        split
        · exact ⟨trivial, fun _ => trivial⟩
        · exact ⟨trivial, fun _ => trivial⟩

theorem replaceAgent_onBehalf :
    (replaceAgent settings login).Only (InstallAction.OnBehalfOf login) := by
  have stops : (stopRunningAgent settings login).Only (InstallAction.OnBehalfOf login) :=
    stopRunningAgent_only (fun _ => trivial) (fun _ => ⟨rfl, rfl⟩) ⟨rfl, rfl⟩ trivial trivial
  exact stops.bind fun _ => ⟨⟨_, rfl⟩, fun seam => (logUnless_only trivial).bind fun _ =>
    ⟨⟨_, rfl⟩, fun _ => ⟨⟨_, rfl⟩, fun booted => (logUnless_only trivial).bind fun _ =>
      ⟨⟨_, rfl⟩, fun _ => trivial⟩⟩⟩⟩

theorem pollForAgent_checks :
    (pollForAgent settings login started sleeps).Only (InstallAction.Checks login) := by
  induction sleeps with
  | zero =>
      refine ⟨⟨trivial, nofun⟩, fun read => ?_⟩
      change Only _ (if read - started < settings.agentWaitSeconds then _ else _)
      split
      · refine ⟨⟨⟨rfl, rfl⟩, nofun⟩, fun found => ?_⟩
        cases found <;> trivial
      · trivial
  | succ sleeps ih =>
      refine ⟨⟨trivial, nofun⟩, fun read => ?_⟩
      change Only _ (if read - started < settings.agentWaitSeconds then _ else _)
      split
      · refine ⟨⟨⟨rfl, rfl⟩, nofun⟩, fun found => ?_⟩
        cases found with
        | true => trivial
        | false => exact ⟨⟨trivial, nofun⟩, fun _ => ih⟩
      · trivial

theorem ensureAgentRunning_checks :
    (ensureAgentRunning settings login).Only (InstallAction.Checks login) := by
  have waits : (waitForAgent settings login).Only (InstallAction.Checks login) :=
    ⟨⟨trivial, nofun⟩, fun read => pollForAgent_checks.bind fun _ => trivial⟩
  have logs : ∀ line, InstallAction.Checks login (.log line) := fun line => ⟨trivial, nofun⟩
  refine waits.bind fun found => ?_
  cases found with
  | true => trivial
  | false =>
      have launches : (launchAgent login).Only (InstallAction.Checks login) :=
        launchAgent_only ⟨trivial, nofun⟩ (fun _ => ⟨⟨_, rfl⟩, nofun⟩)
          (fun _ => ⟨trivial, nofun⟩) (fun _ => ⟨trivial, nofun⟩) logs
      have opens : (launchAgent login >>= fun _ => waitForAgent settings login >>= fun found =>
          if found then .done true
          else install (.log noAgentLine) >>= fun _ => .done false).Only
            (InstallAction.Checks login) := by
        refine launches.bind fun _ => waits.bind fun again => ?_
        cases again with
        | true => trivial
        | false => exact ⟨logs _, fun _ => trivial⟩
      exact ⟨logs _, fun _ => opens⟩

/-- The login is the person at the console, by the answers that the script got. -/
structure AtConsole (login : ConsoleLogin) (events : List InstallEvent) : Prop where
  user : ⟨.consoleUser, login.user⟩ ∈ events
  uid : ⟨.userId login.user, login.uid⟩ ∈ events
  person : login.user ≠ "root" ∧ login.user ≠ "loginwindow"
  present : ⟨.isExecutable login.bin, true⟩ ∈ events

theorem beginInstall_runs {outcome : Except Nat ConsoleLogin}
    (run : Runs performsInstall (beginInstall settings) now events after outcome) :
    match outcome with
    | .ok login => AtConsole login events
    | .error status => status = 0 ∨ status = 1 ∧ ∃ bin, ⟨.isExecutable bin, false⟩ ∈ events := by
  unfold beginInstall at run
  obtain ⟨present, _, _, _, rfl, rest⟩ := runs_perform_bind.mp run
  cases present with
  | false =>
      obtain ⟨_, _, _, _, rfl, last⟩ := runs_perform_bind.mp rest
      obtain ⟨rfl, -, rfl⟩ := runs_done.mp last
      exact Or.inr ⟨rfl, _, List.mem_cons_self⟩
  | true =>
      obtain ⟨user, _, _, _, rfl, chosen⟩ := runs_perform_bind.mp rest
      by_cases nobody : user = "" ∨ user = "root" ∨ user = "loginwindow"
      · simp only [if_pos nobody] at chosen
        obtain ⟨_, _, _, _, rfl, last⟩ := runs_perform_bind.mp chosen
        obtain ⟨rfl, -, rfl⟩ := runs_done.mp last
        exact Or.inl rfl
      · simp only [if_neg nobody] at chosen
        obtain ⟨uid, _, _, _, rfl, known⟩ := runs_perform_bind.mp chosen
        by_cases unknown : uid = ""
        · simp only [if_pos unknown] at known
          obtain ⟨_, _, _, _, rfl, last⟩ := runs_perform_bind.mp known
          obtain ⟨rfl, -, rfl⟩ := runs_done.mp last
          exact Or.inl rfl
        · simp only [if_neg unknown] at known
          obtain ⟨_, _, _, _, rfl, last⟩ := runs_perform_bind.mp known
          obtain ⟨rfl, -, rfl⟩ := runs_done.mp last
          simp only [not_or] at nobody
          exact
            { user := by simp
              uid := by simp
              person := nobody.2
              present := List.mem_cons_self }

private def shippedSettings : InstallSettings :=
  { targetVolume := "/", stopWaitSeconds := 5, agentWaitSeconds := 10 }

private def adasConsole : ConsoleLogin :=
  { user := "ada", uid := "501", app := installedApp "/" }

private def adasBegin : List InstallEvent :=
  [⟨.isExecutable adasConsole.bin, true⟩, ⟨.consoleUser, "ada"⟩, ⟨.userId "ada", "501"⟩,
    ⟨.log "postinstall: registering LaunchAgent for ada (uid 501)", ()⟩]

private def adasCheck : List InstallEvent :=
  [⟨.seconds, 0⟩, ⟨.seconds, 0⟩, ⟨.pgrep "501" adasConsole.pattern, true⟩]

private theorem adasInstall_ends :
    InstallEnds shippedSettings 0
      (adasBegin ++ ([⟨.pkill false "501" adasConsole.pattern, true⟩] ++ adasCheck)) 0 none := by
  have begins : Runs performsInstall (beginInstall shippedSettings) 0 adasBegin 0
      (.ok adasConsole) := by
    exact .act (Nat.le_refl 0) <| .act (Nat.le_refl 0) <| .act (Nat.le_refl 0) <|
      .act (Nat.le_refl 0) <| .done _ _
  have cut : Begins performsInstall (replaceAgent shippedSettings adasConsole) 0
      [⟨.pkill false "501" adasConsole.pattern, true⟩] 0 :=
    .act (Nat.le_refl 0) (.here _ _)
  have check : Runs performsInstall (ensureAgentRunning shippedSettings adasConsole) 0 adasCheck 0
      true := by
    exact .act ⟨rfl, Nat.le_refl 0⟩ <| .act ⟨rfl, Nat.le_refl 0⟩ <| .act (Nat.le_refl 0) <|
      .done _ _
  exact .interrupted begins cut check

private def adasUser (args : List String) (stderr : Option String) : InstallEvent :=
  ⟨.launchctl ("asuser" :: "501" :: args) stderr, (0 : Nat)⟩

private def adasReplacement : List InstallEvent :=
  [⟨.pkill false "501" adasConsole.pattern, true⟩, ⟨.seconds, 0⟩,
    ⟨.pgrep "501" adasConsole.pattern, false⟩,
    ⟨.log "postinstall: stopped the agent this install replaces", ()⟩,
    adasUser ["/usr/bin/sudo", "-H", "-u", "ada", adasConsole.bin, "--install-agent"] none,
    adasUser ["/bin/launchctl", "enable", "gui/501/com.klaay.klaayguard"] (some "/dev/null"),
    adasUser ["/bin/launchctl", "bootstrap", "gui/501",
      "/Users/ada/Library/LaunchAgents/com.klaay.klaayguard.plist"] (some "/dev/null"),
    adasUser ["/bin/launchctl", "kickstart", "-k", "gui/501/com.klaay.klaayguard"]
      (some "/dev/null")]

private theorem adasReplacement_runs :
    Runs performsInstall (replaceAgent shippedSettings adasConsole) 0 adasReplacement 0 () := by
  exact .act (Nat.le_refl 0) <| .act ⟨rfl, Nat.le_refl 0⟩ <| .act (Nat.le_refl 0) <|
    .act (Nat.le_refl 0) <| .act (Nat.le_refl 0) <| .act (Nat.le_refl 0) <|
    .act (Nat.le_refl 0) <| .act (Nat.le_refl 0) <| .done _ _

theorem adas_old_agent_out_before_new :
    ∃ stopping starting, adasReplacement = stopping ++ starting ∧
      (∀ event ∈ stopping, event.action.StartsNothing) ∧
      StoppedOldAgent shippedSettings adasConsole stopping := by
  rcases old_agent_out_before_new shippedSettings adasConsole 0 0 adasReplacement
    adasReplacement_runs.begins with nothing | stopped
  · have kickstart : adasUser ["/bin/launchctl", "kickstart", "-k", "gui/501/com.klaay.klaayguard"]
        (some "/dev/null") ∈ adasReplacement := by
      simp [adasReplacement]
    exact absurd rfl (nothing _ kickstart _ _)
  · exact stopped

end KlaayGuard
