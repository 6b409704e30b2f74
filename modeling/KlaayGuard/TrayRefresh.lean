/-
What the tray shows, whoever repaints it and in whatever order.

A closure changes only what its flags tell it to; the menu it leaves is nevertheless the
one that painting everything anew would have made.  A closure that was read while nobody
wrote the session shows that session.
-/

import KlaayGuard.Tray

set_option autoImplicit false

namespace KlaayGuard

open EffectProgram Prog Posting

inductive MenuLine : Type where
  | user (text : String)
  | authAction (text : String) (enabled : Bool)
  | employeeHub
  | separator
  | version
  | signOut
  deriving DecidableEq, Repr

structure TrayView : Type where
  lines : List MenuLine
  dot : StatusDot
  deriving DecidableEq, Repr

def TrayMenu.line (tray : TrayMenu) : MenuEntry → MenuLine
  | .user => .user tray.userText
  | .authAction => .authAction tray.itemText tray.itemEnabled
  | .employeeHub => .employeeHub
  | .separator => .separator
  | .version => .version
  | .signOut => .signOut

def TrayMenu.view (tray : TrayMenu) : TrayView :=
  { lines := tray.menu.map tray.line, dot := tray.icon }

/-- The whole menu made from one paint: a name on top, the four fixed lines, and
"Sign out" at the bottom. -/
def TrayPaint.view (paint : TrayPaint) : TrayView :=
  { lines := paint.userLabel.toList.map .user ++
      [.authAction paint.text paint.enabled, .employeeHub, .separator, .version] ++
      (if paint.signedIn then [.signOut] else [])
    dot := dotOf paint.signedIn }

/-- What the tray shows before anything has been read. -/
def TrayPaint.starting : TrayPaint :=
  { text := "Starting…", enabled := false, signedIn := false, userLabel := none }

def menuOf (named signedIn : Bool) : List MenuEntry :=
  (if named then [.user] else []) ++ [.authAction, .employeeHub, .separator, .version] ++
    (if signedIn then [.signOut] else [])

/-- The menu, its flags and its texts are those of one paint. -/
structure TrayMenu.Shows (tray : TrayMenu) (paint : TrayPaint) : Prop where
  text : tray.itemText = paint.text
  enabled : tray.itemEnabled = paint.enabled
  named : ∀ label, paint.userLabel = some label → tray.userText = label
  shown : tray.userShown = paint.userLabel.isSome
  entries : tray.menu = menuOf paint.userLabel.isSome paint.signedIn
  icon : tray.icon = dotOf paint.signedIn
  flag : tray.lastSignedIn = paint.signedIn

theorem TrayMenu.built_shows : TrayMenu.built.Shows .starting where
  text := rfl
  enabled := rfl
  named := fun _ unnamed => by cases unnamed
  shown := rfl
  entries := rfl
  icon := rfl
  flag := rfl

theorem TrayMenu.Shows.view {tray : TrayMenu} {paint : TrayPaint} (shows : tray.Shows paint) :
    tray.view = paint.view := by
  have lines : tray.menu.map tray.line = paint.view.lines := by
    rw [shows.entries, TrayPaint.view, menuOf, List.map_append, List.map_append]
    congr 1
    · congr 1
      · cases named : paint.userLabel with
        | none => rfl
        | some label =>
            have text := shows.named label named
            simp [TrayMenu.line, text]
      · simp only [List.map_cons, List.map_nil, TrayMenu.line, shows.text, shows.enabled]
    · cases paint.signedIn <;> rfl
  rw [TrayMenu.view, lines, shows.icon]
  rfl

def AllDone (calls : List TrayCallEvent) : Prop := ∀ call ∈ calls, call.action.Done call.reply

theorem allDone_cons {call : TrayCallEvent} {calls : List TrayCallEvent} :
    AllDone (call :: calls) ↔ call.action.Done call.reply ∧ AllDone calls := by
  simp only [AllDone, List.mem_cons, forall_eq_or_imp]

theorem allDone_append {first second : List TrayCallEvent} :
    AllDone (first ++ second) ↔ AllDone first ∧ AllDone second := by
  simp only [AllDone, List.mem_append, or_imp, forall_and]

theorem paintUser_runs {before after : TrayMenu} {calls : List TrayCallEvent}
    {userLabel : Option String} {signedIn : Bool}
    (run : Runs performsTrayCall (paintUser userLabel) before calls after ())
    (done : AllDone calls) (entries : before.menu = menuOf before.userShown signedIn) :
    after = { before with
      userText := userLabel.getD before.userText
      userShown := userLabel.isSome
      menu := menuOf userLabel.isSome signedIn } := by
  obtain ⟨itemText, itemEnabled, userText, userShown, menu, icon, lastSignedIn⟩ := before
  obtain rfl : menu = menuOf userShown signedIn := entries
  cases userLabel with
  | none =>
      obtain ⟨shown, _, _, ⟨same, rfl⟩, rfl, swapped⟩ := runs_act.mp run
      obtain rfl : shown = userShown := same
      cases shown with
      | false =>
          obtain ⟨_, rfl, _⟩ := runs_done.mp swapped
          rfl
      | true =>
          obtain ⟨removed, _, _, ⟨_, rfl⟩, rfl, last⟩ := runs_act.mp swapped
          obtain ⟨rfl, rfl, _⟩ := runs_done.mp last
          obtain rfl : removed = true := (allDone_cons.mp (allDone_cons.mp done).2).1
          rfl
  | some label =>
      obtain ⟨set, _, _, rfl, rfl, named⟩ := runs_act.mp run
      obtain rfl : set = true := (allDone_cons.mp done).1
      obtain ⟨shown, _, _, ⟨same, rfl⟩, rfl, swapped⟩ := runs_act.mp named
      obtain rfl : shown = userShown := same
      cases shown with
      | true =>
          obtain ⟨_, rfl, _⟩ := runs_done.mp swapped
          rfl
      | false =>
          obtain ⟨prepended, _, _, rfl, rfl, last⟩ := runs_act.mp swapped
          obtain ⟨rfl, rfl, _⟩ := runs_done.mp last
          obtain rfl : prepended = true :=
            (allDone_cons.mp (allDone_cons.mp (allDone_cons.mp done).2).2).1
          rfl

theorem paintAuth_runs {before after : TrayMenu} {calls : List TrayCallEvent}
    {named signedIn : Bool}
    (run : Runs performsTrayCall (paintAuth signedIn) before calls after ())
    (done : AllDone calls) (entries : before.menu = menuOf named before.lastSignedIn)
    (icon : before.icon = dotOf before.lastSignedIn) :
    after = { before with
      menu := menuOf named signedIn
      icon := dotOf signedIn
      lastSignedIn := signedIn } := by
  obtain ⟨itemText, itemEnabled, userText, userShown, menu, dot, lastSignedIn⟩ := before
  obtain rfl : menu = menuOf named lastSignedIn := entries
  obtain rfl : dot = dotOf lastSignedIn := icon
  obtain ⟨prev, _, _, ⟨same, rfl⟩, rfl, swapped⟩ := runs_act.mp run
  obtain rfl : prev = lastSignedIn := same
  cases prev with
  | true =>
      cases signedIn with
      | true =>
          obtain ⟨_, rfl, _⟩ := runs_done.mp swapped
          rfl
      | false =>
          obtain ⟨set, _, _, rfl, rfl, dotted⟩ := runs_act.mp swapped
          obtain ⟨removed, _, _, ⟨_, rfl⟩, rfl, last⟩ := runs_act.mp dotted
          obtain ⟨rfl, rfl, _⟩ := runs_done.mp last
          obtain rfl : set = true := (allDone_cons.mp (allDone_cons.mp done).2).1
          obtain rfl : removed = true :=
            (allDone_cons.mp (allDone_cons.mp (allDone_cons.mp done).2).2).1
          cases named <;> rfl
  | false =>
      cases signedIn with
      | false =>
          obtain ⟨_, rfl, _⟩ := runs_done.mp swapped
          rfl
      | true =>
          obtain ⟨set, _, _, rfl, rfl, dotted⟩ := runs_act.mp swapped
          obtain ⟨appended, _, _, rfl, rfl, last⟩ := runs_act.mp dotted
          obtain ⟨rfl, rfl, _⟩ := runs_done.mp last
          obtain rfl : set = true := (allDone_cons.mp (allDone_cons.mp done).2).1
          obtain rfl : appended = true :=
            (allDone_cons.mp (allDone_cons.mp (allDone_cons.mp done).2).2).1
          cases named <;> rfl

/-- A closure turns a tray that shows one paint into a tray that shows its own. -/
theorem paintTray_shows {before after : TrayMenu} {calls : List TrayCallEvent}
    {old paint : TrayPaint}
    (run : Runs performsTrayCall (paintTray paint) before calls after ())
    (done : AllDone calls) (shows : before.Shows old) : after.Shows paint := by
  obtain ⟨textSet, _, _, rfl, rfl, titled⟩ := runs_act.mp run
  obtain rfl : textSet = true := (allDone_cons.mp done).1
  obtain ⟨enabledSet, _, rest, rfl, rfl, set⟩ := runs_act.mp titled
  obtain rfl : enabledSet = true := (allDone_cons.mp (allDone_cons.mp done).2).1
  replace set : Runs performsTrayCall
      (paintUser paint.userLabel >>= fun _ => paintAuth paint.signedIn)
      { before with itemText := paint.text, itemEnabled := paint.enabled } rest after () := set
  obtain ⟨middle, _, first, second, userRun, authRun, rfl⟩ := runs_bind.mp set
  obtain ⟨userDone, authDone⟩ :=
    allDone_append.mp (allDone_cons.mp (allDone_cons.mp done).2).2
  have user := paintUser_runs userRun userDone
    (show before.menu = menuOf before.userShown old.signedIn by rw [shows.entries, shows.shown])
  subst user
  have auth := paintAuth_runs authRun authDone
    (show menuOf paint.userLabel.isSome old.signedIn = menuOf paint.userLabel.isSome
      before.lastSignedIn by rw [shows.flag])
    (show before.icon = dotOf before.lastSignedIn by rw [shows.icon, shows.flag])
  subst auth
  exact
    { text := rfl
      enabled := rfl
      named := by
        intro label named
        simp only [named, Option.getD_some]
      shown := rfl
      entries := rfl
      icon := rfl
      flag := rfl }

/-! ### What refreshes post -/

def TextFits (text : String) (signedIn : Bool) : Prop :=
  if signedIn then ∃ remaining : Int, 0 ≤ remaining ∧ text = fmtCountdown remaining
  else text = "Sign in"

structure TrayPaint.Fits (signedInFits : Bool → Prop) (labelFits : Option String → Prop)
    (paint : TrayPaint) : Prop where
  enabled : paint.enabled = !paint.signedIn
  text : TextFits paint.text paint.signedIn
  signedIn : signedInFits paint.signedIn
  label : labelFits paint.userLabel

def RefreshPhase.Fits (signedInFits : Bool → Prop) (labelFits : Option String → Prop) :
    RefreshPhase → Prop
  | outside => True
  | counting => signedInFits true
  | naming text enabled => signedInFits (!enabled) ∧ TextFits text (!enabled)
  | posting paint => paint.Fits signedInFits labelFits

theorem remainingSeconds_nonneg (interval : Int) (elapsed : Option Nat) :
    0 ≤ remainingSeconds interval elapsed := by
  unfold remainingSeconds
  split
  · exact Int.le_max_right _ _
  · exact Int.le_refl _

variable {ι : Type} {signedInFits : Bool → Prop} {labelFits : Option String → Prop}
variable {intervalSeconds : Option String}

theorem RefreshPhase.Fits.next {thread : ι} {world after : TrayWorld ι} {phase : RefreshPhase}
    {action : TrayAction} {reply : action.Reply} (fits : phase.Fits signedInFits labelFits)
    (session : signedInFits world.agent.authToken.isSome ∧ labelFits world.agent.userLabel)
    (allowed : refreshAllowed phase action)
    (performed : performsTray thread world action reply after) (interval : Int) :
    (refreshNext interval phase action reply).Fits signedInFits labelFits := by
  cases phase with
  | outside =>
      cases action with
      | tokenIsSome =>
          obtain ⟨rfl, _⟩ := performed
          cases read : world.agent.authToken.isSome with
          | true =>
              rw [read] at session
              exact session.1
          | false =>
              rw [read] at session
              exact ⟨session.1, rfl⟩
      | attemptElapsed => cases allowed
      | userLabel => cases allowed
      | runOnMainThread paint => cases allowed
      | _ => trivial
  | counting =>
      obtain rfl : action = .attemptElapsed := allowed
      exact ⟨fits, _, remainingSeconds_nonneg _ _, rfl⟩
  | naming text enabled =>
      obtain rfl : action = .userLabel := allowed
      obtain ⟨rfl, _⟩ := performed
      exact
        { enabled := (Bool.not_not enabled).symm
          text := fits.2
          signedIn := fits.1
          label := session.2 }
  | posting paint =>
      obtain rfl : action = .runOnMainThread paint := allowed
      trivial

theorem mailbox_of_performs {thread : ι} {world after : TrayWorld ι} {action : TrayAction}
    {reply : action.Reply} (performed : performsTray thread world action reply after) :
    (after.mailbox = world.mailbox ∨
      (∃ paint, action = .runOnMainThread paint ∧
        after.mailbox = world.mailbox.post thread paint)) ∨
      ∃ paint, action = .runPosted ∧ world.mailbox.deliver = some (paint, after.mailbox) := by
  cases action with
  | agent effect =>
      obtain ⟨_, _, rfl⟩ := performed
      exact Or.inl (Or.inl rfl)
  | recordAttempt | elapse passed | awaitTick =>
      obtain rfl := performed
      exact Or.inl (Or.inl rfl)
  | tokenIsSome | attemptElapsed | userLabel =>
      obtain ⟨_, rfl⟩ := performed
      exact Or.inl (Or.inl rfl)
  | runOnMainThread paint =>
      obtain rfl := performed
      cases reply with
      | true => exact Or.inl (Or.inr ⟨paint, rfl, rfl⟩)
      | false => exact Or.inl (Or.inl rfl)
  | runPosted =>
      obtain ⟨paint, mailbox, taken, rest⟩ := performed
      refine Or.inr ⟨paint, rfl, ?_⟩
      cases built : world.tray with
      | none =>
          rw [built] at rest
          obtain ⟨_, rfl⟩ := rest
          exact taken
      | some tray =>
          rw [built] at rest
          obtain ⟨painted, _, rfl⟩ := rest
          exact taken

theorem agent_of_performs {thread : ι} {world after : TrayWorld ι} {action : TrayAction}
    {reply : action.Reply} (performed : performsTray thread world action reply after)
    (leaves : (∀ token, action ≠ .agent (.writeAuthToken token)) ∧
      ∀ label, action ≠ .agent (.writeUserLabel label)) :
    after.agent.authToken = world.agent.authToken ∧
      after.agent.userLabel = world.agent.userLabel := by
  cases action with
  | agent effect =>
      obtain ⟨agent, moved, rfl⟩ := performed
      have session := performs_session moved
      refine ⟨session.1 fun token same => ?_, session.2 fun label same => ?_⟩
      · exact leaves.1 token (congrArg TrayAction.agent same)
      · exact leaves.2 label (congrArg TrayAction.agent same)
  | recordAttempt | elapse passed | awaitTick =>
      obtain rfl := performed
      exact ⟨rfl, rfl⟩
  | tokenIsSome | attemptElapsed | userLabel =>
      obtain ⟨_, rfl⟩ := performed
      exact ⟨rfl, rfl⟩
  | runOnMainThread paint =>
      obtain rfl := performed
      cases reply <;> exact ⟨rfl, rfl⟩
  | runPosted =>
      obtain ⟨paint, mailbox, _, rest⟩ := performed
      cases built : world.tray with
      | none =>
          rw [built] at rest
          obtain ⟨_, rfl⟩ := rest
          exact ⟨rfl, rfl⟩
      | some tray =>
          rw [built] at rest
          obtain ⟨painted, _, rfl⟩ := rest
          exact ⟨rfl, rfl⟩

variable [DecidableEq ι]

def TrayIdle (intervalSeconds : Option String) (config : TrayConfig ι) (thread : ι) : Prop :=
  config.phase (refreshSteps intervalSeconds) (fun _ => .outside) thread = .outside

/-- What a thread posts after a moment at which it was idle was read after that moment. -/
theorem posts_fit {meets : StepCondition (TrayWorld ι) ι TrayAction TrayAction.Reply Unit}
    (Session : World → Prop)
    (fits : ∀ agent, Session agent →
      signedInFits agent.authToken.isSome ∧ labelFits agent.userLabel)
    (kept : ∀ (before : TrayConfig ι) actor action reply after,
      meets before actor ⟨action, reply⟩ → Session before.shared.agent →
      performsTray actor before.shared action reply after → Session after.agent)
    {quiet config : TrayConfig ι} {thread : ι}
    (follows : quiet.Follows (refreshSteps intervalSeconds) fun _ => .outside)
    (idle : TrayIdle intervalSeconds quiet thread) (holds : Session quiet.shared.agent)
    (reached : Reaches (traySemantics ι) meets quiet config) :
    quiet.shared.mailbox.GoodSince thread (TrayPaint.Fits signedInFits labelFits)
        config.shared.mailbox ∧ Session config.shared.agent := by
  have invariant := reached.invariant
    (fun world phases => (phases thread).Fits signedInFits labelFits ∧
      quiet.shared.mailbox.GoodSince thread (TrayPaint.Fits signedInFits labelFits)
        world.mailbox ∧ Session world.agent)
    follows ?_ ?_
  · exact invariant.2.2
  · refine ⟨?_, Mailbox.GoodSince.refl, holds⟩
    rw [show quiet.phase (refreshSteps intervalSeconds) (fun _ => .outside) thread = _ from idle]
    trivial
  · rintro before actor action reply shared _follows ⟨reads, posted, session⟩ allowed performed met
    refine ⟨?_, ?_, kept before actor action reply shared met session performed⟩
    · by_cases same : actor = thread
      · subst same
        rw [Function.update_self]
        exact reads.next (fits _ session) allowed performed _
      · rw [Function.update_of_ne (Ne.symm same)]
        exact reads
    · rcases mailbox_of_performs performed with (kept | ⟨paint, rfl, grown⟩) | ⟨paint, _, taken⟩
      · rw [kept]
        exact posted
      · rw [grown]
        refine posted.post fun same => ?_
        subst same
        cases stands : before.phase (refreshSteps intervalSeconds) (fun _ => .outside) actor with
        | posting other =>
            rw [stands] at allowed reads
            obtain rfl : paint = other := TrayAction.runOnMainThread.inj allowed
            exact reads
        | outside =>
            rw [stands] at allowed
            cases allowed
        | counting =>
            rw [stands] at allowed
            cases allowed
        | naming text enabled =>
            rw [stands] at allowed
            cases allowed
      · exact posted.deliver taken

/-- The tray shows the paint of the last closure that ran. -/
def ShowsLatest (world : TrayWorld ι) : Prop :=
  ∃ tray, world.tray = some tray ∧ tray.Shows (world.mailbox.latest.getD .starting)

omit [DecidableEq ι] in
theorem ShowsLatest.step {thread : ι} {world after : TrayWorld ι} {action : TrayAction}
    {reply : action.Reply} (shows : ShowsLatest world)
    (performed : performsTray thread world action reply after)
    (obeys : ∀ calls, (⟨action, reply⟩ : TrayEvent) = ⟨.runPosted, calls⟩ → AllDone calls) :
    ShowsLatest after := by
  obtain ⟨tray, built, shown⟩ := shows
  cases action with
  | agent effect =>
      obtain ⟨_, _, rfl⟩ := performed
      exact ⟨tray, built, shown⟩
  | recordAttempt | elapse passed | awaitTick =>
      obtain rfl := performed
      exact ⟨tray, built, shown⟩
  | tokenIsSome | attemptElapsed | userLabel =>
      obtain ⟨_, rfl⟩ := performed
      exact ⟨tray, built, shown⟩
  | runOnMainThread paint =>
      obtain rfl := performed
      cases reply <;> exact ⟨tray, built, shown⟩
  | runPosted =>
      obtain ⟨paint, mailbox, taken, rest⟩ := performed
      rw [built] at rest
      obtain ⟨painted, run, rfl⟩ := rest
      refine ⟨painted, rfl, ?_⟩
      dsimp only
      rw [Mailbox.latest_deliver taken, Option.getD_some]
      exact paintTray_shows run (obeys reply rfl) shown

theorem ShowsLatest.reached {meets : StepCondition (TrayWorld ι) ι TrayAction TrayAction.Reply Unit}
    (obeys : ∀ before thread event, meets before thread event → MenuObeys before thread event)
    {start config : TrayConfig ι}
    (follows : start.Follows (refreshSteps intervalSeconds) fun _ => .outside)
    (shows : ShowsLatest start.shared)
    (reached : Reaches (traySemantics ι) meets start config) : ShowsLatest config.shared := by
  refine (reached.invariant (fun world _ => ShowsLatest world) follows shows ?_).2
  intro before thread action reply shared _follows shows _allowed performed met
  exact shows.step performed (obeys _ _ _ met)

abbrev trayThreads (intervalSeconds : Option String) (tasks : ι → TrayTask) :
    ι → TrayProgram Unit := fun thread => (tasks thread).program intervalSeconds

omit [DecidableEq ι] in
theorem trayThreads_follow (start : TrayWorld ι) (tasks : ι → TrayTask) :
    (Config.fresh start (trayThreads intervalSeconds tasks)).Follows
      (refreshSteps intervalSeconds) fun _ => .outside :=
  fun thread => (tasks thread).conforms

/-- In every run the tray is the one that painting everything anew would make of the last
closure, and that closure's lines fit together. -/
theorem tray_as_painted_anew (tasks : ι → TrayTask) (agent : World) (lastAttemptAt : Option Nat)
    (clock : Nat) (config : TrayConfig ι)
    (reached : Reaches (traySemantics ι) MenuObeys
      (Config.fresh (.launched agent lastAttemptAt clock) (trayThreads intervalSeconds tasks))
      config) :
    ∃ tray, config.shared.tray = some tray ∧
      ((config.shared.mailbox.latest = none ∧ tray.view = TrayPaint.starting.view) ∨
        ∃ paint, config.shared.mailbox.latest = some paint ∧ tray.view = paint.view ∧
          paint.enabled = !paint.signedIn ∧ TextFits paint.text paint.signedIn) := by
  have follows : (Config.fresh _ (trayThreads intervalSeconds tasks)).Follows
      (refreshSteps intervalSeconds) fun _ => .outside :=
    trayThreads_follow (.launched agent lastAttemptAt clock) tasks
  obtain ⟨tray, built, shows⟩ :=
    ShowsLatest.reached (fun _ _ _ met => met) follows ⟨_, rfl, TrayMenu.built_shows⟩ reached
  refine ⟨tray, built, ?_⟩
  cases last : config.shared.mailbox.latest with
  | none =>
      rw [last, Option.getD_none] at shows
      exact Or.inl ⟨rfl, shows.view⟩
  | some paint =>
      rw [last, Option.getD_some] at shows
      rw [Mailbox.latest, Option.map_eq_some_iff] at last
      obtain ⟨⟨thread, posted⟩, isLast, rfl⟩ := last
      obtain ⟨⟨since, grown, every⟩, _⟩ : Mailbox.GoodSince _ thread
          (TrayPaint.Fits (fun _ => True) fun _ => True) config.shared.mailbox ∧ True :=
        posts_fit (fun _ => True) (fun _ _ => ⟨trivial, trivial⟩)
          (fun _ _ _ _ _ _ _ _ => trivial) follows rfl trivial reached
      have fits : posted.Fits (fun _ => True) fun _ => True := by
        refine every posted ?_
        have member : (thread, posted) ∈ config.shared.mailbox.history :=
          List.mem_append_left _ (List.mem_of_getLast? isLast)
        rw [grown] at member
        exact member
      exact Or.inr ⟨posted, rfl, shows.view, fits.enabled, fits.text⟩

def sessionView (text : String) (agent : World) : TrayView :=
  TrayPaint.view
    { text := text
      enabled := !agent.authToken.isSome
      signedIn := agent.authToken.isSome
      userLabel := agent.userLabel }

private def adasAgent : World :=
  { World.firstStart with authToken := some "token", userLabel := some "Ada" }

private def clockAndMain : Bool → TrayTask
  | true => .mainThread 1
  | false => .trayClock 1

private def adasPaint : TrayPaint :=
  { text := "Fetching now…", enabled := false, signedIn := true, userLabel := some "Ada" }

private def adasCalls : List TrayCallEvent :=
  [⟨.setText "Fetching now…", true⟩, ⟨.setEnabled false, true⟩, ⟨.setUserText "Ada", true⟩,
    ⟨.swapUserShown true, false⟩, ⟨.prepend .user, true⟩, ⟨.swapLastSignedIn true, false⟩,
    ⟨.setIcon .green, true⟩, ⟨.append .signOut, true⟩]

private theorem adasCalls_done : AllDone adasCalls := by
  simp [AllDone, adasCalls, TrayCall.Done]

private theorem adasCalls_run :
    ∃ painted, Runs performsTrayCall (paintTray adasPaint) .built adasCalls painted () := by
  exact ⟨_, .act rfl <| .act rfl <| .act rfl <| .act ⟨rfl, rfl⟩ <| .act rfl <|
    .act ⟨rfl, rfl⟩ <| .act rfl <| .act rfl <| .done _ _⟩

private theorem adas_tray :
    ∃ config : TrayConfig Bool,
      Reaches (traySemantics Bool)
        (fun before thread event =>
          MenuObeys before thread event ∧ LeavesSession before thread event)
        (Config.fresh (.launched adasAgent none 0) (trayThreads none clockAndMain)) config ∧
      config.shared.agent = adasAgent ∧
      config.shared.mailbox.delivered = [(false, adasPaint)] := by
  have calm : ∀ (before : TrayConfig Bool) thread (event : TrayEvent),
      event.action ≠ .runPosted → (∀ effect, event.action ≠ .agent effect) →
      MenuObeys before thread event ∧ LeavesSession before thread event := by
    intro before thread event notRun notAgent
    refine ⟨?_, fun token => notAgent _, fun label => notAgent _⟩
    rintro calls rfl
    exact absurd rfl notRun
  have started : Reaches (traySemantics Bool)
      (fun before thread event => MenuObeys before thread event ∧ LeavesSession before thread event)
      (Config.fresh (.launched adasAgent none 0) (trayThreads none clockAndMain)) _ :=
    Reaches.refl _
  have ticked := started.perform false ⟨.awaitTick, ()⟩ rfl rfl
    (calm _ _ _ nofun fun _ => nofun)
  have signedIn := ticked.perform false ⟨.tokenIsSome, true⟩ rfl ⟨rfl, rfl⟩
    (calm _ _ _ nofun fun _ => nofun)
  have counted := signedIn.perform false ⟨.attemptElapsed, none⟩ rfl ⟨rfl, rfl⟩
    (calm _ _ _ nofun fun _ => nofun)
  have named := counted.perform false ⟨.userLabel, some "Ada"⟩ rfl ⟨rfl, rfl⟩
    (calm _ _ _ nofun fun _ => nofun)
  have posted := named.perform false ⟨.runOnMainThread adasPaint, true⟩ rfl rfl
    (calm _ _ _ nofun fun _ => nofun)
  obtain ⟨painted, run⟩ := adasCalls_run
  have ran := posted.perform true ⟨.runPosted, adasCalls⟩ rfl ⟨adasPaint, _, rfl, painted, run, rfl⟩
    ⟨fun calls same => by cases same; exact adasCalls_done, fun _ => nofun, fun _ => nofun⟩
  exact ⟨_, ran, rfl, rfl⟩

theorem tray_as_painted_anew_for_ada :
    ∃ (config : TrayConfig Bool) (tray : TrayMenu), config.shared.tray = some tray ∧
      tray.view = adasPaint.view := by
  obtain ⟨config, reached, _, ran⟩ := adas_tray
  obtain ⟨tray, built, shown⟩ := tray_as_painted_anew clockAndMain adasAgent none 0 config
    (reached.mono fun _ _ _ met => met.1)
  have latest : config.shared.mailbox.latest = some adasPaint := by
    rw [Mailbox.latest, ran]
    rfl
  rcases shown with ⟨nothing, _⟩ | ⟨paint, last, view, _⟩
  · rw [latest] at nothing
    cases nothing
  · rw [latest] at last
    cases last
    exact ⟨config, tray, built, view⟩

end KlaayGuard
