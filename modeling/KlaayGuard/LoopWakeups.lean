/-
Which acquisition of a token the background loop answers, and how often.

A completed acquisition leaves a permit, and the permit goes nowhere but into a
cycle: no sign-in waits for the timer.  The same permit may also outlive the
cycle that serves the acquisition, where the loop was woken by its first tick or
was about to read the token anyway.  The device then reports twice.
-/

import KlaayGuard.BackgroundLoop

set_option autoImplicit false

namespace KlaayGuard

open EffectProgram Tokio

variable {world after : LoopWorld} {action : LoopAction} {reply : action.Reply}

theorem performsLoop_agent {effect : Effect} {reply : effect.Reply}
    (other : effect ≠ .notifyTokenAcquired) :
    performsLoop world (.agent effect) reply after ↔
      ∃ agent, performs world.agent effect reply agent ∧
        after = { world with agent := agent } := by
  cases effect with
  | notifyTokenAcquired => exact absurd rfl other
  | _ => exact Iff.rfl

theorem performsLoop_agent_frame {effect : Effect} {reply : effect.Reply}
    (other : effect ≠ .notifyTokenAcquired)
    (performed : performsLoop world (.agent effect) reply after) :
    after.notify = world.notify ∧ after.interval = world.interval ∧
      after.clock = world.clock := by
  obtain ⟨agent, acted, rfl⟩ := (performsLoop_agent other).mp performed
  have permit := (performs_frame acted).2.2.2 other
  exact ⟨congrArg (Notify.mk · world.waiter) permit, rfl, rfl⟩

/-- What a step does to the notification: nothing, or one of its operations. -/
theorem performsLoop_notify (performed : performsLoop world action reply after) :
    after.notify = world.notify ∨ after.notify = world.notify.notifyOne ∨
      after.notify = world.notify.drop ∨
      ((⟨action, reply⟩ : LoopEvent) = ⟨.pollNotified, world.notify.poll.1⟩ ∧
        after.notify = world.notify.poll.2) := by
  cases action with
  | agent effect =>
      by_cases announced : effect = .notifyTokenAcquired
      · subst announced
        obtain rfl : after = world.setNotify world.notify.notifyOne := performed
        exact Or.inr (Or.inl rfl)
      · exact Or.inl (performsLoop_agent_frame announced performed).1
  | pollNotified =>
      obtain ⟨rfl, rfl⟩ := performed
      exact Or.inr (Or.inr (Or.inr ⟨rfl, rfl⟩))
  | dropNotified =>
      obtain rfl : after = world.setNotify world.notify.drop := performed
      exact Or.inr (Or.inr (Or.inl rfl))
  | pollTick =>
      cases reply with
      | false =>
          obtain rfl : after = world := performed
          exact Or.inl rfl
      | true =>
          obtain ⟨interval, _, _, rfl⟩ := performed
          exact Or.inl rfl
  | tokenIsSome =>
      obtain ⟨_, rfl⟩ := performed
      exact Or.inl rfl
  | createInterval seconds =>
      obtain ⟨_, rfl⟩ := performed
      exact Or.inl rfl
  | _ =>
      obtain rfl := performed
      exact Or.inl rfl

theorem performsLoop_settled (performed : performsLoop world action reply after)
    (settled : world.notify.Settled) : after.notify.Settled := by
  rcases performsLoop_notify performed with same | announced | dropped | ⟨_, polled⟩
  · rw [same]
    exact settled
  · rw [announced]
    exact Notify.settled_notifyOne _
  · rw [dropped]
    exact Notify.settled_drop
  · rw [polled]
    exact Notify.settled_poll settled

theorem performsLoop_held (performed : performsLoop world action reply after)
    (settled : world.notify.Settled) (held : world.notify.Held) :
    after.notify.Held ∨ (⟨action, reply⟩ : LoopEvent) = ⟨.pollNotified, true⟩ := by
  rcases performsLoop_notify performed with same | announced | dropped | ⟨event, _⟩
  · rw [same]
    exact Or.inl held
  · rw [announced]
    exact Or.inl (Notify.held_notifyOne _)
  · rw [dropped]
    exact Or.inl held.drop
  · cases ready : world.notify.poll.1 with
    | true => exact Or.inr (by rw [event, ready])
    | false => exact absurd held (Notify.poll_pending ready settled).1

variable {ι : Type}

/-- The phases the logs lead to: that of the loop, and those of the tasks. -/
abbrev loopPhases (config : LoopConfig ι) : Option ι → LoopPhase :=
  config.phase loopSteps firstLoopPhase

theorem loopPhases_task (config : LoopConfig ι) (task : ι) :
    loopPhases config (some task) = .outside := by
  apply config.phase_keeps fun phase : LoopPhase => phase = .outside
  · rfl
  · rintro _ action reply rfl
    rfl

theorem loopNext_ne_outside {phase : LoopPhase} (action : LoopAction) (reply : action.Reply)
    (inside : phase ≠ .outside) : loopNext phase action reply ≠ .outside := by
  cases phase with
  | outside => exact absurd rfl inside
  | polling => cases action <;> exact LoopPhase.noConfusion
  | between =>
      cases action with
      | pollTick => cases reply <;> exact LoopPhase.noConfusion
      | pollNotified => cases reply <;> exact LoopPhase.noConfusion
      | _ => exact LoopPhase.noConfusion
  | taken branch => cases branch <;> cases action <;> exact LoopPhase.noConfusion
  | resetting => cases action <;> exact LoopPhase.noConfusion
  | starting =>
      cases action with
      | agent effect => cases effect <;> exact LoopPhase.noConfusion
      | _ => exact LoopPhase.noConfusion

theorem loopPhases_loop (config : LoopConfig ι) : loopPhases config none ≠ .outside := by
  apply config.phase_keeps fun phase : LoopPhase => phase ≠ .outside
  · exact LoopPhase.noConfusion
  · exact fun phase action reply inside => loopNext_ne_outside action reply inside

def LoopAction.beginsCycle : LoopAction → Bool
  | .agent .readAuthToken => true
  | _ => false

def cyclesBegun (config : LoopConfig ι) : Nat :=
  (config.threads none).log.countP fun event => event.action.beginsCycle

variable [DecidableEq ι] {config : LoopConfig ι} {thread : Option ι} {event : LoopEvent}
variable {shared : LoopWorld} {rest : LoopProgram Unit}

theorem cyclesBegun_advance :
    cyclesBegun config ≤ cyclesBegun (config.advance thread event shared rest) := by
  by_cases loop : thread = none
  · subst loop
    simp only [cyclesBegun, Config.advance, Function.update_self, List.countP_append]
    exact Nat.le_add_right _ _
  · simp only [cyclesBegun, Config.advance, Function.update_of_ne (Ne.symm loop)]
    exact Nat.le_refl _

theorem cyclesBegun_begins (begins : event.action.beginsCycle = true) :
    cyclesBegun (config.advance none event shared rest) = cyclesBegun config + 1 := by
  simp only [cyclesBegun, Config.advance, Function.update_self, List.countP_append,
    List.countP_singleton, begins, if_true]

theorem aboutToCycle_next {phase : LoopPhase} (about : phase.AboutToCycle)
    (allowed : loopAllowed phase action) :
    (loopNext phase action reply).AboutToCycle ∨ action.beginsCycle = true := by
  cases phase with
  | taken branch =>
      cases action with
      | dropNotified => cases branch <;> exact Or.inl trivial
      | _ => cases allowed
  | resetting =>
      cases action with
      | resetInterval => exact Or.inl trivial
      | _ => cases allowed
  | starting =>
      cases action with
      | agent effect =>
          obtain rfl : effect = .readAuthToken := allowed
          exact Or.inr rfl
      | _ => cases allowed
  | _ => exact about.elim

omit [DecidableEq ι] in
theorem aboutToCycle_of_poll (allowed : loopAllowed (loopPhases config thread) .pollNotified) :
    thread = none ∧
      (loopNext (loopPhases config thread) .pollNotified true).AboutToCycle := by
  cases thread with
  | some task =>
      rw [loopPhases_task] at allowed
      exact allowed.elim
  | none =>
      refine ⟨rfl, ?_⟩
      cases phase : loopPhases config none with
      | between => trivial
      | _ =>
          rw [phase] at allowed
          exact allowed.elim

/-! ### No acquisition waits for the timer -/

/-- Since a count of cycles was taken, another has begun, or a permit is held for
one, or the loop is about to begin one. -/
structure Answered (cycles : Nat) (config : LoopConfig ι) : Prop where
  settled : config.shared.notify.Settled
  grown : cycles ≤ cyclesBegun config
  answered : cycles < cyclesBegun config ∨ config.shared.notify.Held ∨
    (loopPhases config none).AboutToCycle

theorem Answered.step {cycles : Nat} (served : Answered cycles config)
    (allowed : loopAllowed (loopPhases config thread) action)
    (performed : performsLoop config.shared action reply shared) :
    Answered cycles (config.advance thread ⟨action, reply⟩ shared rest) := by
  refine ⟨performsLoop_settled performed served.settled,
    Nat.le_trans served.grown cyclesBegun_advance, ?_⟩
  rcases served.answered with begun | held | about
  · exact Or.inl (Nat.lt_of_lt_of_le begun cyclesBegun_advance)
  · rcases performsLoop_held performed served.settled held with kept | taken
    · exact Or.inr (Or.inl kept)
    · cases taken
      obtain ⟨rfl, about⟩ := aboutToCycle_of_poll allowed
      refine Or.inr (Or.inr ?_)
      rw [loopPhases, Config.phase_advance, Function.update_self]
      exact about
  · cases thread with
    | some task =>
        refine Or.inr (Or.inr ?_)
        rw [loopPhases, Config.phase_advance, Function.update_of_ne (by simp)]
        exact about
    | none =>
        rcases aboutToCycle_next about allowed with still | begins
        · refine Or.inr (Or.inr ?_)
          rw [loopPhases, Config.phase_advance, Function.update_self]
          exact still
        · refine Or.inl ?_
          rw [cyclesBegun_begins begins]
          exact Nat.lt_succ_of_le served.grown

theorem Answered.reached {cycles : Nat} {initial config : LoopConfig ι}
    (reached : Reaches (loopSemantics ι) AnyStep initial config)
    (follows : initial.Follows loopSteps firstLoopPhase) (served : Answered cycles initial) :
    Answered cycles config := by
  refine (reached.invariant_config (Answered cycles) follows served ?_).2
  intro before thread action next reply shared _follows served _pending allowed performed _met
  exact served.step allowed performed

section Run

variable {meets : StepCondition LoopWorld (Option ι) LoopAction LoopAction.Reply Unit}
variable {initial : LoopConfig ι}

theorem cyclesBegun_le (reached : Reaches (loopSemantics ι) meets initial config) :
    cyclesBegun initial ≤ cyclesBegun config := by
  apply reached.keeps fun config => cyclesBegun initial ≤ cyclesBegun config
  · exact Nat.le_refl _
  · intro before thread event shared rest grown _performed
    exact Nat.le_trans grown cyclesBegun_advance

theorem settled_reached (reached : Reaches (loopSemantics ι) meets initial config)
    (settled : initial.shared.notify.Settled) : config.shared.notify.Settled := by
  apply reached.keeps fun config => config.shared.notify.Settled
  · exact settled
  · intro before thread event shared rest settled performed
    exact performsLoop_settled performed settled

end Run

/-- The loop waits for a tick or a notification, and has been handed none. -/
def Blocked (config : LoopConfig ι) : Prop :=
  loopPhases config none = .between ∧ config.shared.waiter = .registered

variable (crates : Crates) (build : Build) (intervalSeconds : Option String) (rounds : Nat)
variable (tasks : ι → LoopTask) (agent : World) (clock : Nat)

def launch : LoopConfig ι :=
  Config.fresh (.launched agent clock) (loopThreads crates build intervalSeconds rounds tasks)

/-- From the moment an acquisition is complete: a cycle has read the token since
the write, or a permit is held for the loop, or the loop is about to begin a
cycle.  A loop that blocks has begun that cycle. -/
theorem acquisition_answered (config written announcing announced later : LoopConfig ι)
    (acquirer : Option ι) (token : String)
    (reached : Reaches (loopSemantics ι) AnyStep
      (launch crates build intervalSeconds rounds tasks agent clock) config)
    (wrote : Step (loopSemantics ι) config acquirer
      ⟨.agent (.writeAuthToken (some token)), ()⟩ written)
    (meanwhile : Reaches (loopSemantics ι) AnyStep written announcing)
    (notified : Step (loopSemantics ι) announcing acquirer
      ⟨.agent .notifyTokenAcquired, ()⟩ announced)
    (since : Reaches (loopSemantics ι) AnyStep announced later) :
    (cyclesBegun written < cyclesBegun later ∨ later.shared.notify.Held ∨
      (loopPhases later none).AboutToCycle) ∧
    (Blocked later → cyclesBegun written < cyclesBegun later) := by
  have before : Reaches (loopSemantics ι) AnyStep
      (launch crates build intervalSeconds rounds tasks agent clock) announcing :=
    (reached.step wrote trivial).trans meanwhile
  have run := before.step notified trivial
  have follows : announced.Follows loopSteps firstLoopPhase :=
    run.follows (loopThreads_conform intervalSeconds rounds tasks)
  have settled : announced.shared.notify.Settled :=
    settled_reached run fun registered => by cases registered
  have held : announced.shared.notify.Held := by
    cases notified with
    | perform pending performed =>
        obtain rfl := performed
        exact Notify.held_notifyOne _
  have grown : cyclesBegun written ≤ cyclesBegun announced := by
    refine Nat.le_trans (cyclesBegun_le meanwhile) ?_
    cases notified with
    | perform pending performed => exact cyclesBegun_advance
  have served : Answered (cyclesBegun written) later :=
    .reached since follows ⟨settled, grown, Or.inr (Or.inl held)⟩
  refine ⟨served.answered, ?_⟩
  rintro ⟨phase, registered⟩
  rcases served.answered with begun | (stored | handed) | about
  · exact begun
  · have free := served.settled registered
    rw [stored] at free
    cases free
  · have waiter : later.shared.waiter = .handed := handed
    rw [registered] at waiter
    cases waiter
  · rw [phase] at about
    exact about.elim

/-! The start of an agent that has a stored token. -/

private def storedAtStart : World := World.firstStart.setKeyring .authToken (some "old-token")

private def onlyStartup : Unit → LoopTask := fun _ => .agent .startup

private abbrev startedAgent : LoopConfig Unit :=
  launch .uncalled ⟨"linux", "0.1.12"⟩ none 3 onlyStartup storedAtStart 0

/-- From the start to the moment the loop blocks for the next tick. -/
theorem acquisition_answered_at_start :
    ∃ written later : LoopConfig Unit, written.shared.agent.authToken = some "old-token" ∧
      Blocked later ∧ cyclesBegun written < cyclesBegun later := by
  have started : Reaches (loopSemantics Unit) AnyStep startedAgent _ := Reaches.refl _
  have noFile := started.perform (some ()) ⟨.agent (.fileRead .authToken), none⟩ rfl
    ⟨_, ⟨rfl, rfl⟩, rfl⟩ trivial
  have opened := noFile.perform (some ()) ⟨.agent (.openEntry .authToken), .ok ()⟩ rfl
    ⟨_, rfl, rfl⟩ trivial
  have loaded := opened.perform (some ()) ⟨.agent (.getPassword .authToken), .ok "old-token"⟩ rfl
    ⟨_, ⟨rfl, rfl⟩, rfl⟩ trivial
  have written := loaded.perform (some ()) ⟨.agent (.writeAuthToken (some "old-token")), ()⟩ rfl
    ⟨_, ⟨rfl, rfl⟩, rfl⟩ trivial
  have seen := (written.anew AnyStep).perform none ⟨.tokenIsSome, true⟩ rfl ⟨rfl, rfl⟩
    trivial
  have created := seen.perform none ⟨.createInterval 900, ()⟩ rfl ⟨by decide, rfl⟩ trivial
  have announced := created.perform (some ()) ⟨.agent .notifyTokenAcquired, ()⟩ rfl rfl trivial
  have drawn := (announced.anew AnyStep).perform none ⟨.drawTickFirst, false⟩ rfl rfl
    trivial
  have taken := drawn.perform none ⟨.pollNotified, true⟩ rfl ⟨rfl, rfl⟩ trivial
  have dropped := taken.perform none ⟨.dropNotified, ()⟩ rfl rfl trivial
  have reset := dropped.perform none ⟨.resetInterval, ()⟩ rfl rfl trivial
  have began := reset.perform none ⟨.agent .readAuthToken, some "old-token"⟩ rfl
    ⟨_, ⟨rfl, rfl⟩, rfl⟩ trivial
  have missing := began.perform none
    ⟨.agent (.send (.config "old-token")), .ok ⟨404, .error "no body"⟩⟩ rfl ⟨_, rfl, rfl⟩ trivial
  have redrawn := missing.perform none ⟨.drawTickFirst, true⟩ rfl rfl trivial
  have waiting := redrawn.perform none ⟨.pollTick, false⟩ rfl rfl trivial
  have blocked := waiting.perform none ⟨.pollNotified, false⟩ rfl ⟨rfl, rfl⟩ trivial
  have answered := acquisition_answered .uncalled ⟨"linux", "0.1.12"⟩ none 3 onlyStartup
    storedAtStart 0 _ _ _ _ _ (some ()) "old-token" loaded (.perform rfl ⟨_, ⟨rfl, rfl⟩, rfl⟩)
    created (.perform rfl rfl) blocked
  exact ⟨_, _, rfl, ⟨rfl, rfl⟩, answered.2 ⟨rfl, rfl⟩⟩

/-! ### No acquisition is collected twice -/

def LoopWorld.FallsDue (world : LoopWorld) (passed : Nat) : Prop :=
  ∃ interval, world.interval = some interval ∧ ¬ interval.Due world.clock ∧
    interval.Due (world.clock + passed)

/-- No acquisition is completed and no tick falls due. -/
def NothingNew : StepCondition LoopWorld (Option ι) LoopAction LoopAction.Reply Unit :=
  fun config _thread event => event.action ≠ .agent .notifyTokenAcquired ∧
    ∀ passed, event.action = .elapse passed → ¬ config.shared.FallsDue passed

/-- A cycle that finds a token begins with no permit held and no tick due. -/
def CyclesStartDrained : StepCondition LoopWorld (Option ι) LoopAction LoopAction.Reply Unit :=
  fun config thread event => thread = none →
    (∃ token, event = ⟨.agent .readAuthToken, some token⟩) →
    ¬ config.shared.notify.Held ∧ ¬ config.shared.TickDue

structure Asleep (config : LoopConfig ι) : Prop where
  settled : config.shared.notify.Settled
  phase : loopPhases config none = .between
  drained : ¬ config.shared.notify.Held
  early : ¬ config.shared.TickDue

/-- Where the loop sleeps, a step leaves the world without anything to wake it. -/
theorem performsLoop_asleep (allowed : loopAllowed .between action ∨ loopAllowed .outside action)
    (performed : performsLoop world action reply after) (settled : world.notify.Settled)
    (drained : ¬ world.notify.Held) (early : ¬ world.TickDue)
    (unannounced : action ≠ .agent .notifyTokenAcquired)
    (notDue : ∀ passed, action = .elapse passed → ¬ world.FallsDue passed) :
    ¬ after.notify.Held ∧ ¬ after.TickDue ∧ loopNext .between action reply = .between := by
  cases action with
  | agent effect =>
      have other : effect ≠ .notifyTokenAcquired := fun same => unannounced (same ▸ rfl)
      obtain ⟨notify, interval, clock⟩ := performsLoop_agent_frame other performed
      refine ⟨notify ▸ drained, ?_, rfl⟩
      rw [LoopWorld.TickDue, interval, clock]
      exact early
  | drawTickFirst =>
      obtain rfl : after = world := performed
      exact ⟨drained, early, rfl⟩
  | pollTick =>
      cases reply with
      | true =>
          obtain ⟨interval, running, due, _⟩ := performed
          exact absurd ⟨interval, running, due⟩ early
      | false =>
          obtain rfl : after = world := performed
          exact ⟨drained, early, rfl⟩
  | pollNotified =>
      obtain ⟨answered, rfl⟩ := performed
      cases ready : world.notify.poll.1 with
      | true => exact absurd (Notify.held_of_poll ready) drained
      | false =>
          rw [ready] at answered
          exact ⟨(Notify.poll_pending ready settled).2, early, by rw [answered]; rfl⟩
  | elapse passed =>
      obtain rfl : after = { world with clock := world.clock + passed } := performed
      refine ⟨drained, ?_, rfl⟩
      rintro ⟨interval, running, due⟩
      exact notDue passed rfl ⟨interval, running, fun earlier =>
        early ⟨interval, running, earlier⟩, due⟩
  | _ => exact (allowed.elim id id).elim

theorem Asleep.step (asleep : Asleep config)
    (allowed : loopAllowed (loopPhases config thread) action)
    (performed : performsLoop config.shared action reply shared)
    (met : NothingNew config thread ⟨action, reply⟩) :
    Asleep (config.advance thread ⟨action, reply⟩ shared rest) := by
  have kinds : loopAllowed .between action ∨ loopAllowed .outside action := by
    cases thread with
    | none => exact Or.inl (asleep.phase ▸ allowed)
    | some task => exact Or.inr (loopPhases_task config task ▸ allowed)
  obtain ⟨drained, early, stays⟩ := performsLoop_asleep kinds performed asleep.settled
    asleep.drained asleep.early met.1 met.2
  refine ⟨performsLoop_settled performed asleep.settled, ?_, drained, early⟩
  rw [loopPhases, Config.phase_advance]
  cases thread with
  | none =>
      rw [Function.update_self, ← loopPhases, asleep.phase]
      exact stays
  | some task =>
      rw [Function.update_of_ne (by simp)]
      exact asleep.phase

omit [DecidableEq ι] in
theorem starting_of_read (allowed : loopAllowed (loopPhases config none) (.agent .readAuthToken)) :
    loopPhases config none = .starting := by
  cases phase : loopPhases config none with
  | starting => rfl
  | outside => exact absurd phase (loopPhases_loop config)
  | between =>
      rw [phase] at allowed
      exact absurd rfl allowed
  | _ =>
      rw [phase] at allowed
      cases allowed

theorem Asleep.begun {began : LoopConfig ι} {token : String}
    (follows : config.Follows loopSteps firstLoopPhase) (settled : config.shared.notify.Settled)
    (first : Step (loopSemantics ι) config none ⟨.agent .readAuthToken, some token⟩ began)
    (met : CyclesStartDrained config none ⟨.agent .readAuthToken, some token⟩) : Asleep began := by
  obtain ⟨drained, early⟩ := met rfl ⟨token, rfl⟩
  cases first with
  | perform pending performed =>
      have conforms := follows none
      rw [pending, Prog.conforms_act] at conforms
      have phase := starting_of_read conforms.1
      obtain ⟨copied, ⟨_, rfl⟩, rfl⟩ := performed
      refine ⟨settled, ?_, drained, early⟩
      rw [loopPhases, Config.phase_advance, Function.update_self, ← loopPhases, phase]
      rfl

theorem Asleep.reached {initial config : LoopConfig ι}
    (reached : Reaches (loopSemantics ι) (fun config thread event =>
      CyclesStartDrained config thread event ∧ NothingNew config thread event) initial config)
    (follows : initial.Follows loopSteps firstLoopPhase) (asleep : Asleep initial) :
    config.Follows loopSteps firstLoopPhase ∧ Asleep config := by
  refine reached.invariant_config Asleep follows asleep ?_
  intro before thread action next reply shared _follows asleep _pending allowed performed met
  exact asleep.step allowed performed met.2

/-- Between two cycles that find a token a tick falls due or an acquisition is
completed, in every run whose cycles begin with nothing left to wake the loop. -/
theorem acquisition_collected_once (config began later after : LoopConfig ι)
    (token other : String)
    (reached : Reaches (loopSemantics ι) CyclesStartDrained
      (launch crates build intervalSeconds rounds tasks agent clock) config)
    (first : Step (loopSemantics ι) config none ⟨.agent .readAuthToken, some token⟩ began)
    (met : CyclesStartDrained config none ⟨.agent .readAuthToken, some token⟩)
    (since : Reaches (loopSemantics ι) (fun config thread event =>
      CyclesStartDrained config thread event ∧ NothingNew config thread event) began later) :
    ¬ Step (loopSemantics ι) later none ⟨.agent .readAuthToken, some other⟩ after := by
  intro second
  have follows : config.Follows loopSteps firstLoopPhase :=
    reached.follows (loopThreads_conform intervalSeconds rounds tasks)
  have settled : config.shared.notify.Settled :=
    settled_reached reached fun registered => by cases registered
  obtain ⟨follows, asleep⟩ :=
    Asleep.reached since (first.follows follows) (.begun follows settled first met)
  cases second with
  | perform pending performed =>
      have conforms := follows none
      rw [pending, Prog.conforms_act] at conforms
      have starting := starting_of_read conforms.1
      rw [asleep.phase] at starting
      cases starting

omit [DecidableEq ι] in
private theorem nothingNew_of_wait {config : LoopConfig ι} {thread : Option ι} {event : LoopEvent}
    (announces : event.action ≠ .agent .notifyTokenAcquired)
    (passes : ∀ passed, event.action ≠ .elapse passed) : NothingNew config thread event :=
  ⟨announces, fun passed same => absurd same (passes passed)⟩

omit [DecidableEq ι] in
private theorem startsDrained_of_wait {config : LoopConfig ι} {thread : Option ι}
    {event : LoopEvent} (waits : event.action.beginsCycle = false) :
    CyclesStartDrained config thread event := by
  rintro _ ⟨token, rfl⟩
  cases waits

private def atFirstSelect : LoopWorld where
  agent := { storedAtStart with authToken := some "old-token", tokenAcquired := true }
  waiter := .absent
  interval := some (.starting (nanoseconds 900) 0 (by decide))
  clock := 0

private theorem firstSelect_reached :
    ∃ threads, Reaches (loopSemantics Unit) CyclesStartDrained startedAgent
        ⟨atFirstSelect, threads⟩ ∧
      (threads none).rest = collectRounds .uncalled ⟨"linux", "0.1.12"⟩ 3 3 := by
  have started : Reaches (loopSemantics Unit) CyclesStartDrained startedAgent _ := Reaches.refl _
  have noFile := started.perform (some ()) ⟨.agent (.fileRead .authToken), none⟩ rfl
    ⟨_, ⟨rfl, rfl⟩, rfl⟩ (startsDrained_of_wait rfl)
  have opened := noFile.perform (some ()) ⟨.agent (.openEntry .authToken), .ok ()⟩ rfl
    ⟨_, rfl, rfl⟩ (startsDrained_of_wait rfl)
  have loaded := opened.perform (some ()) ⟨.agent (.getPassword .authToken), .ok "old-token"⟩ rfl
    ⟨_, ⟨rfl, rfl⟩, rfl⟩ (startsDrained_of_wait rfl)
  have written := loaded.perform (some ()) ⟨.agent (.writeAuthToken (some "old-token")), ()⟩ rfl
    ⟨_, ⟨rfl, rfl⟩, rfl⟩ (startsDrained_of_wait rfl)
  have announced := written.perform (some ()) ⟨.agent .notifyTokenAcquired, ()⟩ rfl rfl
    (startsDrained_of_wait rfl)
  have seen := announced.perform none ⟨.tokenIsSome, true⟩ rfl ⟨rfl, rfl⟩
    (startsDrained_of_wait rfl)
  have created := seen.perform none ⟨.createInterval 900, ()⟩ rfl ⟨by decide, rfl⟩
    (startsDrained_of_wait rfl)
  exact ⟨_, created, rfl⟩

/-- The first tick and the stored permit each give the acquisition a cycle. -/
theorem acquisition_collected_twice :
    ¬ ∀ (crates : Crates) (build : Build) (intervalSeconds : Option String) (rounds : Nat)
        (ι : Type) [DecidableEq ι] (tasks : ι → LoopTask) (agent : World) (clock : Nat)
        (config began later after : LoopConfig ι) (token other : String),
      Reaches (loopSemantics ι) AnyStep
        (launch crates build intervalSeconds rounds tasks agent clock) config →
      Step (loopSemantics ι) config none ⟨.agent .readAuthToken, some token⟩ began →
      Reaches (loopSemantics ι) NothingNew began later →
      ¬ Step (loopSemantics ι) later none ⟨.agent .readAuthToken, some other⟩ after := by
  intro claim
  obtain ⟨threads, reached, select⟩ := firstSelect_reached
  have created : Reaches (loopSemantics Unit) AnyStep startedAgent _ :=
    reached.mono fun _ _ _ _ => trivial
  have drawn := created.perform none ⟨.drawTickFirst, true⟩ select rfl trivial
  have ticked := drawn.perform none ⟨.pollTick, true⟩ rfl ⟨_, rfl, Nat.le_refl _, rfl⟩ trivial
  have woken := ticked.perform none ⟨.dropNotified, ()⟩ rfl rfl trivial
  have began := woken.perform none ⟨.agent .readAuthToken, some "old-token"⟩ rfl
    ⟨_, ⟨rfl, rfl⟩, rfl⟩ trivial
  have missing := (began.anew NothingNew).perform none
    ⟨.agent (.send (.config "old-token")), .ok ⟨404, .error "no body"⟩⟩ rfl ⟨_, rfl, rfl⟩
    (nothingNew_of_wait (by simp) (by simp))
  have redrawn := missing.perform none ⟨.drawTickFirst, false⟩ rfl rfl
    (nothingNew_of_wait (by simp) (by simp))
  have taken := redrawn.perform none ⟨.pollNotified, true⟩ rfl ⟨rfl, rfl⟩
    (nothingNew_of_wait (by simp) (by simp))
  have dropped := taken.perform none ⟨.dropNotified, ()⟩ rfl rfl
    (nothingNew_of_wait (by simp) (by simp))
  have reset := dropped.perform none ⟨.resetInterval, ()⟩ rfl rfl
    (nothingNew_of_wait (by simp) (by simp))
  exact claim .uncalled ⟨"linux", "0.1.12"⟩ none 3 Unit onlyStartup storedAtStart 0 _ _ _ _
    "old-token" "old-token" woken (.perform rfl ⟨_, ⟨rfl, rfl⟩, rfl⟩) reset
    (.perform rfl ⟨_, ⟨rfl, rfl⟩, rfl⟩)

/-- The same start, where the loop polls the notification first. -/
theorem acquisition_collected_once_at_start :
    ∃ began : LoopConfig Unit, began.shared.agent.authToken = some "old-token" ∧
      ∀ other after,
        ¬ Step (loopSemantics Unit) began none ⟨.agent .readAuthToken, some other⟩ after := by
  obtain ⟨threads, reached, select⟩ := firstSelect_reached
  have drawn := reached.perform none ⟨.drawTickFirst, false⟩ select rfl (startsDrained_of_wait rfl)
  have taken := drawn.perform none ⟨.pollNotified, true⟩ rfl ⟨rfl, rfl⟩
    (startsDrained_of_wait rfl)
  have dropped := taken.perform none ⟨.dropNotified, ()⟩ rfl rfl (startsDrained_of_wait rfl)
  have reset := dropped.perform none ⟨.resetInterval, ()⟩ rfl rfl (startsDrained_of_wait rfl)
  refine ⟨_, rfl, fun other after => acquisition_collected_once .uncalled ⟨"linux", "0.1.12"⟩ none 3
    onlyStartup storedAtStart 0 _ _ _ after "old-token" other reset
    (.perform rfl ⟨_, ⟨rfl, rfl⟩, rfl⟩) ?_ (Reaches.refl _)⟩
  rintro _ _
  constructor
  · rintro (stored | handed)
    · cases stored
    · cases handed
  · rintro ⟨interval, running, due⟩
    cases running
    exact Interval.not_due_reset _ _ due

end KlaayGuard
