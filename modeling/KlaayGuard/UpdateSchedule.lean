/-
When the agent looks for an update.

The loop wakes by the monotonic clock and asks the system clock whether a check is due.
The two clocks need not agree: the first one stands still while the host is suspended, and
the second may be set to any time at any moment.  The world keeps a record of what each
wake-up saw, the newest first.
-/

import KlaayGuard.BackgroundLoop
import KlaayGuard.Update

set_option autoImplicit false

namespace KlaayGuard

open EffectProgram Prog Tokio

def updateCheckIntervalSeconds (value : Option String) : Nat := envSeconds value (6 * 60 * 60)

def updatePollSeconds : Nat := 300

/-- `now.duration_since(last)` fails for a clock that moved backwards. -/
def checkDue (last now : Int) (period : Nat) : Bool :=
  if last ≤ now then (period : Int) ≤ now - last else true

inductive UpdateLoopAction : Type where
  | update (effect : UpdateEffect)
  | createInterval (seconds : Nat)
  | tick
  /-- `SystemTime::now()`, in nanoseconds. -/
  | systemNow
  /-- The line in the log with which a check begins. -/
  | announceCheck

@[reducible] def UpdateLoopAction.Reply : UpdateLoopAction → Type
  | .update effect => effect.Reply
  | .createInterval _ => Unit
  | .tick => Unit
  | .systemNow => Int
  | .announceCheck => Unit

abbrev UpdateLoopProgram (α : Type) : Type := Prog UpdateLoopAction UpdateLoopAction.Reply α

abbrev UpdateLoopEvent : Type := Event UpdateLoopAction UpdateLoopAction.Reply

def onUpdate {α : Type} (program : UpdateProgram α) : UpdateLoopProgram α :=
  program.lift UpdateLoopAction.update fun _ reply => reply

section Loop

variable {Version : Type} (crates : UpdateCrates Version) (host : UpdateHost) (apiBase : String)

def updateRound (period : Nat) (last : Option Int) : UpdateLoopProgram (Option Int) := do
  perform UpdateLoopAction.tick
  let now ← perform UpdateLoopAction.systemNow
  if last.any fun prev => !checkDue prev now period then pure last
  else do
    perform UpdateLoopAction.announceCheck
    onUpdate (runUpdateCheck crates host apiBase)
    pure (some now)

/-- The loop is cut off after a number of turns; every run is one for enough. -/
def updateRounds (period : Nat) : Nat → Option Int → UpdateLoopProgram Unit
  | 0, _ => pure ()
  | rounds + 1, last => do
      let last ← updateRound crates host apiBase period last
      updateRounds period rounds last

def spawnUpdateLoop (interval : Option String) (rounds : Nat) : UpdateLoopProgram Unit := do
  let period := updateCheckIntervalSeconds interval
  let poll := min period updatePollSeconds
  perform (UpdateLoopAction.createInterval poll)
  updateRounds crates host apiBase (nanoseconds period) rounds none

end Loop

/-- What one wake-up saw: when it was due and when it came, by the monotonic clock, what the
system clock said, and whether a check began. -/
structure UpdateRound : Type where
  due : Nat
  seen : Nat
  wall : Int
  checked : Bool
  deriving DecidableEq, Repr

structure UpdateWorld : Type where
  /-- The monotonic clock, in nanoseconds. -/
  running : Nat
  interval : Option Interval
  /-- When the last tick was due and when it was taken. -/
  ticked : Nat × Nat
  /-- The record, the newest wake-up first. -/
  history : List UpdateRound

def UpdateWorld.launched (running : Nat) : UpdateWorld :=
  { running := running, interval := none, ticked := (0, 0), history := [] }

def markChecked : List UpdateRound → List UpdateRound
  | [] => []
  | round :: earlier => { round with checked := true } :: earlier

/-- Any action may take any time, and the system clock says what it likes. -/
def performsUpdateLoop :
    UpdateWorld → (action : UpdateLoopAction) → action.Reply → UpdateWorld → Prop
  | world, .update _, _, after =>
      ∃ running, world.running ≤ running ∧ after = { world with running := running }
  | world, .createInterval seconds, _, after =>
      ∃ positive, after = { world with
        interval := some (.starting (nanoseconds seconds) world.running positive) }
  | world, .tick, _, after =>
      ∃ interval seen, world.interval = some interval ∧ world.running ≤ seen ∧
        interval.Due seen ∧
        after = { world with
          running := seen
          interval := some (interval.tick seen)
          ticked := (interval.deadline, seen) }
  | world, .systemNow, reply, after =>
      after = { world with
        history := { due := world.ticked.1, seen := world.ticked.2, wall := reply, checked := false }
          :: world.history }
  | world, .announceCheck, _, after => after = { world with history := markChecked world.history }

def lastCheck : List UpdateRound → Option Int
  | [] => none
  | round :: earlier => if round.checked then some round.wall else lastCheck earlier

/-- No check yet, a period since the last one, or a clock that is now behind it. -/
def DueAfter (period : Nat) (last : Option Int) (now : Int) : Prop :=
  ∀ prev, last = some prev → now < prev ∨ prev + period ≤ now

/-- The wake-up was on time after the one before it, as far as the timer goes. -/
def WokenAfter (poll : Nat) (earlier : List UpdateRound) (due : Nat) : Prop :=
  ∀ before rest, earlier = before :: rest → due ≤ before.seen + poll

/-- Every wake-up of the record checked exactly where a check was due. -/
inductive OnSchedule (period poll : Nat) : List UpdateRound → Prop where
  | nil : OnSchedule period poll []
  | cons {round : UpdateRound} {earlier : List UpdateRound} (settled : OnSchedule period poll earlier)
      (decided : round.checked = true ↔ DueAfter period (lastCheck earlier) round.wall)
      (reached : round.due ≤ round.seen) (woken : WokenAfter poll earlier round.due) :
      OnSchedule period poll (round :: earlier)

/-- The newest wake-up may still be about to check. -/
def Recorded (period poll : Nat) : List UpdateRound → Prop
  | [] => True
  | round :: earlier =>
      OnSchedule period poll earlier ∧
        (round.checked = true → DueAfter period (lastCheck earlier) round.wall) ∧
        round.due ≤ round.seen ∧ WokenAfter poll earlier round.due

theorem OnSchedule.recorded {period poll : Nat} {history : List UpdateRound}
    (settled : OnSchedule period poll history) : Recorded period poll history := by
  cases settled with
  | nil => trivial
  | cons settled decided reached woken => exact ⟨settled, decided.mp, reached, woken⟩

theorem checkDue_iff {last now : Int} {period : Nat} :
    checkDue last now period = true ↔ now < last ∨ last + period ≤ now := by
  unfold checkDue
  split
  · rename_i ahead
    rw [decide_eq_true_iff]
    omega
  · rename_i behind
    simp only [true_iff]
    omega

theorem dueAfter_iff {period : Nat} {last : Option Int} {now : Int} :
    DueAfter period last now ↔ (last.any fun prev => !checkDue prev now period) = false := by
  cases last with
  | none => simp [DueAfter]
  | some prev =>
      rw [Option.any_some, Bool.not_eq_false', checkDue_iff]
      constructor
      · intro due
        exact due prev rfl
      · rintro due _ ⟨⟩
        exact due

/-! ### One turn and every run -/

structure BetweenRounds (period poll : Nat) (last : Option Int) (world : UpdateWorld) : Prop where
  settled : OnSchedule period poll world.history
  last : lastCheck world.history = last
  timer : ∃ interval, world.interval = some interval ∧ interval.period = poll ∧
    WokenAfter poll world.history interval.deadline

section Runs

variable {Version : Type} {crates : UpdateCrates Version} {host : UpdateHost} {apiBase : String}
variable {period poll : Nat} {last : Option Int} {world after : UpdateWorld}
variable {events : List UpdateLoopEvent}

theorem onUpdate_keeps {α : Type} (program : UpdateProgram α)
    (run : Begins performsUpdateLoop (onUpdate program) world events after) :
    after.history = world.history ∧ after.interval = world.interval := by
  have only : (onUpdate program).Only fun action => ∃ effect, action = .update effect :=
    (only_of_forall (fun _ => trivial) program : program.Only fun _ => True).lift
      fun effect _ => ⟨effect, rfl⟩
  refine run.invariant
    (fun now => now.history = world.history ∧ now.interval = world.interval) only ?_ ⟨rfl, rfl⟩
  rintro state _ reply state' ⟨effect, rfl⟩ same performed
  obtain ⟨running, _, rfl⟩ := performed
  exact same

theorem afterReading (between : BetweenRounds period poll last world) {interval : Interval}
    (timed : world.interval = some interval) {seen : Nat} (due : interval.Due seen) (wall : Int) :
    Recorded period poll
      ({ due := interval.deadline, seen := seen, wall := wall, checked := false } ::
        world.history) := by
  obtain ⟨interval', same, _, woken⟩ := between.timer
  rw [timed] at same
  cases same
  exact ⟨between.settled, fun checked => by (cases checked), due, woken⟩

theorem updateRound_begins (between : BetweenRounds period poll last world)
    (run : Begins performsUpdateLoop (updateRound crates host apiBase period last)
      world events after) : Recorded period poll after.history := by
  rcases begins_act.mp run with ⟨_, rfl⟩ | ⟨_, _, _, performed, _, run⟩
  · exact between.settled.recorded
  obtain ⟨interval, seen, timed, _, due, rfl⟩ := performed
  rcases begins_act.mp run with ⟨_, rfl⟩ | ⟨wall, _, _, performed, _, run⟩
  · exact between.settled.recorded
  obtain rfl := performed
  have reading := afterReading between timed due wall
  replace run : Begins performsUpdateLoop
    (if last.any fun prev => !checkDue prev wall period then pure last
      else do
        perform UpdateLoopAction.announceCheck
        onUpdate (runUpdateCheck crates host apiBase)
        pure (some wall)) _ _ after := run
  split at run
  · obtain ⟨_, rfl⟩ := begins_done.mp run
    exact reading
  · rename_i isDue
    rw [Bool.not_eq_true, ← dueAfter_iff, ← between.last] at isDue
    rcases begins_act.mp run with ⟨_, rfl⟩ | ⟨_, _, _, performed, _, run⟩
    · exact reading
    obtain rfl := performed
    have checked : after.history =
        { due := interval.deadline, seen := seen, wall := wall, checked := true } ::
          world.history := by
      replace run : Begins performsUpdateLoop
        (onUpdate (runUpdateCheck crates host apiBase) >>= fun _ => pure (some wall))
        _ _ after := run
      rcases begins_bind run with run | ⟨_, _, _, _, check, run, _⟩
      · exact (onUpdate_keeps _ run).1
      · obtain ⟨_, rfl⟩ := begins_done.mp run
        exact (onUpdate_keeps _ check.begins).1
    rw [checked]
    exact ⟨reading.1, fun _ => isDue, reading.2.2⟩

theorem updateRound_runs (between : BetweenRounds period poll last world) {last' : Option Int}
    (run : Runs performsUpdateLoop (updateRound crates host apiBase period last)
      world events after last') : BetweenRounds period poll last' after := by
  obtain ⟨_, _, _, performed, _, run⟩ := runs_act.mp run
  obtain ⟨interval, seen, timed, _, due, rfl⟩ := performed
  obtain ⟨wall, _, _, performed, _, run⟩ := runs_act.mp run
  obtain rfl := performed
  obtain ⟨settled, _, reached, woken⟩ := afterReading between timed due wall
  obtain ⟨interval', same, isPoll, _⟩ := between.timer
  rw [timed] at same
  cases same
  have ticks : (interval.tick seen).period = poll := (interval.period_tick seen).trans isPoll
  have timer : ∀ round earlier, round.seen = seen →
      WokenAfter poll (round :: earlier) (interval.tick seen).deadline := by
    rintro round earlier rfl before rest same
    cases same
    rw [← isPoll]
    exact interval.deadline_tick_le due
  replace run : Runs performsUpdateLoop
    (if last.any fun prev => !checkDue prev wall period then pure last
      else do
        perform UpdateLoopAction.announceCheck
        onUpdate (runUpdateCheck crates host apiBase)
        pure (some wall)) _ _ after last' := run
  split at run
  · rename_i early
    obtain ⟨_, rfl, rfl⟩ := runs_done.mp run
    refine ⟨.cons settled ?_ reached woken, ?_, _, rfl, ticks, timer _ _ rfl⟩
    · rw [between.last, dueAfter_iff, early]
      simp
    · exact between.last
  · rename_i isDue
    rw [Bool.not_eq_true, ← dueAfter_iff, ← between.last] at isDue
    obtain ⟨_, _, _, performed, _, run⟩ := runs_act.mp run
    obtain rfl := performed
    replace run : Runs performsUpdateLoop
      (onUpdate (runUpdateCheck crates host apiBase) >>= fun _ => pure (some wall))
      _ _ after last' := run
    obtain ⟨middle, _, _, _, check, run, _⟩ := runs_bind.mp run
    obtain ⟨_, rfl, rfl⟩ := runs_done.mp run
    obtain ⟨history, kept⟩ := onUpdate_keeps _ check.begins
    refine ⟨?_, ?_, _, kept, ticks, ?_⟩
    · rw [history]
      exact .cons settled (iff_of_true rfl isDue) reached woken
    · rw [history]
      rfl
    · rw [history]
      exact timer _ _ rfl

theorem updateRounds_begins {rounds : Nat} (between : BetweenRounds period poll last world)
    (run : Begins performsUpdateLoop (updateRounds crates host apiBase period rounds last)
      world events after) : Recorded period poll after.history := by
  induction rounds generalizing last world events with
  | zero =>
      obtain ⟨_, rfl⟩ := begins_done.mp run
      exact between.settled.recorded
  | succ rounds ih =>
      rcases begins_bind run with run | ⟨_, _, _, _, turn, run, _⟩
      · exact updateRound_begins between run
      · exact ih (updateRound_runs between turn) run

theorem spawnUpdateLoop_begins {interval : Option String} {rounds running : Nat}
    (run : Begins performsUpdateLoop (spawnUpdateLoop crates host apiBase interval rounds)
      (.launched running) events after) :
    Recorded (nanoseconds (updateCheckIntervalSeconds interval))
      (nanoseconds (min (updateCheckIntervalSeconds interval) updatePollSeconds))
      after.history := by
  rcases begins_act.mp run with ⟨_, rfl⟩ | ⟨_, waiting, _, performed, _, run⟩
  · trivial
  have between : BetweenRounds (nanoseconds (updateCheckIntervalSeconds interval))
      (nanoseconds (min (updateCheckIntervalSeconds interval) updatePollSeconds)) none waiting := by
    obtain ⟨positive, rfl⟩ := performed
    exact ⟨.nil, rfl, _, rfl, rfl, fun before rest none => by cases none⟩
  exact updateRounds_begins between run

end Runs

section Record

variable {period poll : Nat} {round first second : UpdateRound}
variable {later middle earlier : List UpdateRound}

theorem OnSchedule.append_right (schedule : OnSchedule period poll (later ++ earlier)) :
    OnSchedule period poll earlier := by
  induction later with
  | nil => exact schedule
  | cons round later ih =>
      cases schedule with
      | cons schedule => exact ih schedule

theorem Recorded.at (recorded : Recorded period poll (later ++ round :: earlier)) :
    Recorded period poll (round :: earlier) ∧
      (later ≠ [] → OnSchedule period poll (round :: earlier)) := by
  cases later with
  | nil => exact ⟨recorded, fun newest => absurd rfl newest⟩
  | cons newest later =>
      have schedule : OnSchedule period poll (round :: earlier) := recorded.1.append_right
      exact ⟨schedule.recorded, fun _ => schedule⟩

theorem lastCheck_append (unchecked : ∀ round ∈ middle, round.checked = false) :
    lastCheck (middle ++ earlier) = lastCheck earlier := by
  induction middle with
  | nil => rfl
  | cons round middle ih =>
      rw [List.cons_append, lastCheck, unchecked round List.mem_cons_self]
      exact ih fun other member => unchecked other (List.mem_cons_of_mem _ member)

theorem lastCheck_of_checked (checked : round.checked = true) :
    lastCheck (round :: earlier) = some round.wall := by
  rw [lastCheck, if_pos checked]

theorem OnSchedule.early (schedule : OnSchedule period poll (middle ++ first :: earlier))
    (firstChecked : first.checked = true) (unchecked : ∀ round ∈ middle, round.checked = false) :
    ∀ round ∈ middle, first.wall ≤ round.wall ∧ round.wall < first.wall + period := by
  induction middle with
  | nil =>
      intro round member
      cases member
  | cons newest middle ih =>
      rw [List.cons_append] at schedule
      cases schedule with
      | cons schedule decided =>
          have rest : ∀ round ∈ middle, round.checked = false :=
            fun round member => unchecked round (List.mem_cons_of_mem _ member)
          rw [lastCheck_append rest, lastCheck_of_checked firstChecked] at decided
          intro round member
          rcases List.mem_cons.mp member with rfl | member
          · have notDue : ¬ DueAfter period (some first.wall) round.wall := by
              rw [← decided, unchecked round List.mem_cons_self]
              exact Bool.false_ne_true
            by_contra outside
            apply notDue
            rintro _ ⟨⟩
            omega
          · exact ih schedule rest round member

theorem OnSchedule.rate (schedule : OnSchedule period poll (middle ++ first :: earlier))
    (firstChecked : first.checked = true)
    (forward : (middle ++ [first]).Pairwise fun newer older => older.wall ≤ newer.wall)
    {wall : Int} (ahead : ∀ round ∈ middle ++ [first], round.wall ≤ wall)
    (due : DueAfter period (lastCheck (middle ++ first :: earlier)) wall) :
    first.wall + (middle.countP (·.checked) + 1) * period ≤ wall := by
  induction middle generalizing wall with
  | nil =>
      have notBehind := ahead first (List.mem_singleton.mpr rfl)
      rw [List.nil_append, lastCheck_of_checked firstChecked] at due
      have passed := due first.wall rfl
      rw [List.countP_nil]
      push_cast
      omega
  | cons newest middle ih =>
      rw [List.cons_append] at schedule
      cases schedule with
      | cons schedule decided =>
          rw [List.cons_append, List.pairwise_cons] at forward
          cases checked : newest.checked with
          | false =>
              rw [List.cons_append, lastCheck, checked] at due
              rw [List.countP_cons_of_neg (by rw [checked]; exact Bool.false_ne_true)]
              exact ih schedule forward.2
                (fun round member => ahead round (List.mem_cons_of_mem _ member)) due
          | true =>
              have upTo := ih schedule forward.2 forward.1 (decided.mp checked)
              have notBehind := ahead newest List.mem_cons_self
              rw [List.cons_append, lastCheck_of_checked checked] at due
              have passed := due newest.wall rfl
              rw [List.countP_cons_of_pos (by exact checked)]
              push_cast at upTo ⊢
              rw [Int.add_mul _ 1, Int.one_mul]
              omega

end Record

section Schedule

variable {Version : Type} (crates : UpdateCrates Version) (host : UpdateHost) (apiBase : String)
variable (interval : Option String) (rounds running : Nat) (events : List UpdateLoopEvent)
variable (after : UpdateWorld)

/-- Between one check and the next the system clock has gone a period ahead or has been set
back, and no wake-up between them was due. -/
theorem update_checks_apart
    (run : Begins performsUpdateLoop (spawnUpdateLoop crates host apiBase interval rounds)
      (.launched running) events after)
    (later : List UpdateRound) (second : UpdateRound) (middle : List UpdateRound)
    (first : UpdateRound) (earlier : List UpdateRound)
    (record : after.history = later ++ second :: (middle ++ first :: earlier))
    (firstChecked : first.checked = true) (secondChecked : second.checked = true)
    (unchecked : ∀ round ∈ middle, round.checked = false) :
    (second.wall < first.wall ∨
        first.wall + nanoseconds (updateCheckIntervalSeconds interval) ≤ second.wall) ∧
      ∀ round ∈ middle, first.wall ≤ round.wall ∧
        round.wall < first.wall + nanoseconds (updateCheckIntervalSeconds interval) := by
  have recorded := spawnUpdateLoop_begins run
  rw [record] at recorded
  obtain ⟨schedule, decided, _, _⟩ := recorded.at.1
  refine ⟨?_, schedule.early firstChecked unchecked⟩
  have due := decided secondChecked
  rw [lastCheck_append unchecked, lastCheck_of_checked firstChecked] at due
  exact due first.wall rfl

/-- While the system clock does not go backwards, `n` checks between two checks put `n + 1`
periods between those. -/
theorem update_checks_bounded
    (run : Begins performsUpdateLoop (spawnUpdateLoop crates host apiBase interval rounds)
      (.launched running) events after)
    (later : List UpdateRound) (second : UpdateRound) (middle : List UpdateRound)
    (first : UpdateRound) (earlier : List UpdateRound)
    (record : after.history = later ++ second :: (middle ++ first :: earlier))
    (firstChecked : first.checked = true) (secondChecked : second.checked = true)
    (forward : (second :: (middle ++ [first])).Pairwise
      fun newer older => older.wall ≤ newer.wall) :
    first.wall + (middle.countP (·.checked) + 1) *
      nanoseconds (updateCheckIntervalSeconds interval) ≤ second.wall := by
  have recorded := spawnUpdateLoop_begins run
  rw [record] at recorded
  obtain ⟨schedule, decided, _, _⟩ := recorded.at.1
  rw [List.pairwise_cons] at forward
  exact schedule.rate firstChecked forward.2 forward.1 (decided secondChecked)

end Schedule

/-! Four wake-ups of a copy that is not the installed app: the first checks, the second comes
a second too early, and the third and the fourth find the period over. -/

private def noCrates : UpdateCrates Nat :=
  { parseVersion := fun _ => none
    versionLt := fun _ _ => false
    sha256 := fun _ => ⟨List.replicate 32 0, List.length_replicate⟩ }

private def elsewhere : UpdateHost :=
  { os := .macos, arch := "aarch64", currentVersion := "0.1.12", pid := 7 }

private def atNine : UpdateRound :=
  { due := 0, seen := 0, wall := 0, checked := true }

private def beforeTen : UpdateRound :=
  { due := nanoseconds 60, seen := nanoseconds 60, wall := nanoseconds 59, checked := false }

private def atTen : UpdateRound :=
  { due := nanoseconds 120, seen := nanoseconds 120, wall := nanoseconds 120, checked := true }

private def afterTen : UpdateRound :=
  { due := nanoseconds 180, seen := nanoseconds 180, wall := nanoseconds 180, checked := true }

private def everyMinute (minutes : Nat) : Interval :=
  { period := nanoseconds 60, deadline := minutes * nanoseconds 60, running := by decide }

private theorem everyMinute_tick (minutes : Nat) :
    some ((everyMinute minutes).tick (minutes * nanoseconds 60)) =
      some (everyMinute (minutes + 1)) := by
  have next := (everyMinute minutes).tick_on_time
  rw [everyMinute, everyMinute, Nat.add_mul, Nat.one_mul]
  exact congrArg some next

private theorem fourWakeUps : ∃ events after,
    Begins performsUpdateLoop (spawnUpdateLoop noCrates elsewhere "" (some "60") 4)
      (.launched 0) events after ∧ after.history = [afterTen, atTen, beforeTen, atNine] :=
  ⟨[⟨.createInterval 60, ()⟩, ⟨.tick, ()⟩, ⟨.systemNow, nanoseconds 0⟩, ⟨.announceCheck, ()⟩,
      ⟨.update .currentExe, .error ""⟩, ⟨.tick, ()⟩, ⟨.systemNow, nanoseconds 59⟩, ⟨.tick, ()⟩,
      ⟨.systemNow, nanoseconds 120⟩, ⟨.announceCheck, ()⟩, ⟨.update .currentExe, .error ""⟩,
      ⟨.tick, ()⟩, ⟨.systemNow, nanoseconds 180⟩, ⟨.announceCheck, ()⟩], _,
    .act ⟨by decide, rfl⟩ <|
      .act ⟨everyMinute 0, 0 * nanoseconds 60, rfl, by decide, Nat.le_refl _, rfl⟩ <|
      .act rfl <| .act rfl <| .act ⟨0 * nanoseconds 60, Nat.le_refl _, rfl⟩ <|
      .act ⟨everyMinute 1, 1 * nanoseconds 60, everyMinute_tick 0, by decide, Nat.le_refl _, rfl⟩ <|
      .act rfl <|
      .act ⟨everyMinute 2, 2 * nanoseconds 60, everyMinute_tick 1, by decide, Nat.le_refl _, rfl⟩ <|
      .act rfl <| .act rfl <| .act ⟨2 * nanoseconds 60, Nat.le_refl _, rfl⟩ <|
      .act ⟨everyMinute 3, 3 * nanoseconds 60, everyMinute_tick 2, by decide, Nat.le_refl _, rfl⟩ <|
      .act rfl <| .act rfl <| .here _ _,
    rfl⟩

theorem update_checks_apart_at_ten :
    ∃ after : UpdateWorld, after.history = [afterTen, atTen, beforeTen, atNine] ∧
      (atTen.wall < atNine.wall ∨ atNine.wall + nanoseconds 60 ≤ atTen.wall) := by
  obtain ⟨events, after, run, record⟩ := fourWakeUps
  refine ⟨after, record, (update_checks_apart noCrates elsewhere "" (some "60") 4 0 events after
    run [afterTen] atTen [beforeTen] atNine [] record rfl rfl ?_).1⟩
  intro round member
  rw [List.mem_singleton.mp member]
  rfl

theorem update_checks_bounded_at_ten :
    ∃ after : UpdateWorld, after.history = [afterTen, atTen, beforeTen, atNine] ∧
      atNine.wall + 2 * nanoseconds 60 ≤ afterTen.wall := by
  obtain ⟨events, after, run, record⟩ := fourWakeUps
  refine ⟨after, record, ?_⟩
  have bound := update_checks_bounded noCrates elsewhere "" (some "60") 4 0 events after
    run [] afterTen [atTen, beforeTen] atNine [] record rfl rfl (by decide)
  have once : [atTen, beforeTen].countP (·.checked) = 1 := rfl
  rw [once] at bound
  exact bound

end KlaayGuard
