/-
One agent per lock file.

A process whose claim was granted guards the name, and at most one process does.
Where nothing swaps the file and nothing fails, a process that was refused met
one that goes on to be granted.
-/

import KlaayGuard.AgentLock

set_option autoImplicit false

namespace KlaayGuard

open EffectProgram FileLock

variable {ι : Type}

inductive ClaimPhase : Type where
  /-- Nothing open; whether an attempt has already failed to claim. -/
  | idle (refused : Bool)
  | opened
  | locked
  | measured (id : FileId)
  /-- About to close; whether because of an error. -/
  | leaving (erred : Bool)
  | granted
  | erred
  | environment

def claimAllows : ClaimPhase → LockAction ι → Prop
  | .idle _, .createDirAll _ => True
  | .idle _, .openFile => True
  | .idle _, .sleep _ => True
  | .opened, .flock => True
  | .locked, .fstat => True
  | .measured _, .stat => True
  | .leaving _, .drop => True
  | .environment, .delete => True
  | .environment, .replace => True
  | .environment, .exit _ => True
  | _, _ => False

def claimNext : ClaimPhase → (action : LockAction ι) → action.Reply → ClaimPhase
  | .idle _, .createDirAll _, .error _ => .erred
  | .idle _, .openFile, .ok _ => .opened
  | .idle _, .openFile, .error _ => .erred
  | .opened, .flock, .locked => .locked
  | .opened, .flock, .wouldBlock => .leaving false
  | .opened, .flock, .failed _ => .leaving true
  | .locked, .fstat, .ok id => .measured id
  | .locked, .fstat, .error _ => .leaving true
  | .measured id, .stat, .ok onDisk => if id = onDisk then .granted else .leaving false
  | .measured _, .stat, .error .notFound => .leaving false
  | .measured _, .stat, .error (.other _) => .leaving true
  | .leaving erred, .drop, _ => if erred then .erred else .idle true
  | phase, _, _ => phase

def claimFinished : ClaimPhase → Option Claim → Prop
  | .idle refused, result => refused = true ∧ result = some .taken
  | .granted, result => result = some .held
  | .erred, result => ∃ why, result = some (.unavailable why)
  | .environment, result => result = none
  | _, _ => False

abbrev claimSteps {α : Type} (finished : ClaimPhase → α → Prop) :
    Protocol (LockAction ι) LockAction.Reply ClaimPhase α :=
  { allowed := claimAllows, next := claimNext, finished := finished }

private theorem createParent_conforms {path : LockPath} {refused : Bool}
    {finished : ClaimPhase → Except String Unit → Prop}
    (created : finished (.idle refused) (.ok ())) (erred : ∀ e, finished .erred (.error e)) :
    (createParent path : LockProgram ι (Except String Unit)).Conforms (claimSteps finished)
      (.idle refused) := by
  unfold createParent
  cases path.parent with
  | none => exact created
  | some dir =>
      refine ⟨trivial, fun reply => ?_⟩
      cases reply with
      | error e => exact erred e
      | ok _ => exact created

private theorem sameInode_conforms {finished : ClaimPhase → Except String Bool → Prop}
    (same : finished .granted (.ok true)) (differs : finished (.leaving false) (.ok false))
    (erred : ∀ e, finished (.leaving true) (.error e)) :
    (sameInode : LockProgram ι (Except String Bool)).Conforms (claimSteps finished) .locked := by
  refine ⟨trivial, fun held => ?_⟩
  cases held with
  | error e => exact erred e
  | ok held =>
      refine ⟨trivial, fun onDisk => ?_⟩
      cases onDisk with
      | error e =>
          cases e with
          | notFound => exact differs
          | other e => exact erred e
      | ok onDisk =>
          change finished (if held = onDisk then .granted else .leaving false)
            (.ok (held.dev == onDisk.dev && held.ino == onDisk.ino))
          by_cases equal : held = onDisk
          · subst equal
            rw [if_pos rfl, beq_self_eq_true, beq_self_eq_true]
            exact same
          · have unequal : (held.dev == onDisk.dev && held.ino == onDisk.ino) = false := by
              rw [Bool.and_eq_false_iff, beq_eq_false_iff_ne, beq_eq_false_iff_ne]
              by_contra both
              apply equal
              cases held
              cases onDisk
              simp only [not_or, not_not] at both
              rw [both.1, both.2]
            rw [if_neg equal, unequal]
            exact differs

theorem tryClaim_conforms {path : LockPath} {refused : Bool}
    {finished : ClaimPhase → Except String Bool → Prop} (granted : finished .granted (.ok true))
    (conceded : finished (.idle true) (.ok false)) (erred : ∀ e, finished .erred (.error e)) :
    (tryClaim path : LockProgram ι (Except String Bool)).Conforms (claimSteps finished)
      (.idle refused) := by
  unfold tryClaim
  rw [Prog.conforms_bind]
  apply createParent_conforms _ erred
  refine ⟨trivial, fun opened => ?_⟩
  cases opened with
  | error e => exact erred e
  | ok _ =>
      refine ⟨trivial, fun reply => ?_⟩
      cases reply with
      | wouldBlock => exact ⟨trivial, fun _ => conceded⟩
      | failed e => exact ⟨trivial, fun _ => erred e⟩
      | locked =>
          change Prog.Conforms _ _ (sameInode >>= _)
          rw [Prog.conforms_bind]
          apply sameInode_conforms
          · exact granted
          · exact ⟨trivial, fun _ => conceded⟩
          · exact fun e => ⟨trivial, fun _ => erred e⟩

private theorem claimAgentLockFrom_conforms {path : LockPath} {backoff left : Nat} {refused : Bool}
    (tried : left = 0 → refused = true) :
    (claimAgentLockFrom path backoff left : LockProgram ι Claim).Conforms
      (claimSteps fun phase claim => claimFinished phase (some claim)) (.idle refused) := by
  induction left generalizing refused with
  | zero => exact ⟨tried rfl, rfl⟩
  | succ left ih =>
      unfold claimAgentLockFrom
      rw [Prog.conforms_bind]
      apply tryClaim_conforms
      · exact rfl
      · have again := ih fun _ => rfl
        dsimp only
        by_cases waits : 0 < left ∧ backoff ≠ 0
        · rw [if_pos waits]
          exact ⟨trivial, fun _ => again⟩
        · rw [if_neg waits]
          exact again
      · exact fun e => ⟨_, rfl⟩

def Party.start : Party ι → ClaimPhase
  | .agent _ => .idle false
  | .environment => .environment

private theorem disturb_conforms (disturbances : List (Disturbance ι)) :
    (disturb disturbances).Conforms (claimSteps claimFinished) .environment := by
  induction disturbances with
  | nil => rfl
  | cons next rest ih => cases next <;> exact ⟨trivial, fun _ => ih⟩

theorem Party.program_conforms (path : LockPath) (calls : ι → ClaimCall)
    (disturbances : List (Disturbance ι)) (party : Party ι) :
    (party.program path calls disturbances).Conforms (claimSteps claimFinished) party.start := by
  cases party with
  | environment => exact disturb_conforms disturbances
  | agent process =>
      unfold Party.program
      rw [Prog.conforms_bind]
      apply claimAgentLockFrom_conforms
      omega

variable [DecidableEq ι]

/-- A system call that errs.  A path that is not found is an answer and no error. -/
def LockEvent.Errs : LockEvent ι → Prop
  | ⟨.createDirAll _, .error _⟩ => True
  | ⟨.openFile, .error _⟩ => True
  | ⟨.flock, .failed _⟩ => True
  | ⟨.fstat, .error _⟩ => True
  | ⟨.stat, .error (.other _)⟩ => True
  | _ => False

/-- A call of a process, with the kernel and the process's phase before and after. -/
inductive ClaimMove (process : ι) (event : LockEvent ι) :
    LockKernel ι → ClaimPhase → LockKernel ι → ClaimPhase → Prop where
  /-- The directory is there, or the backoff is over. -/
  | waits (k : LockKernel ι) (refused : Bool) :
      ClaimMove process event k (.idle refused) k (.idle refused)
  | fails (k : LockKernel ι) (refused : Bool) (errs : event.Errs) :
      ClaimMove process event k (.idle refused) k .erred
  /-- The name leads to the opened file already, or only now. -/
  | opens {k : LockKernel ι} {file : FileId} (refused : Bool)
      (leads : ∀ other, k.name = some other → other = file) :
      ClaimMove process event k (.idle refused) (k.openAs process file) .opened
  | locks {k : LockKernel ι} {file : FileId} (opened : k.descriptor process = some file)
      (free : k.holder file = none) :
      ClaimMove process event k .opened (k.lock process file) .locked
  | meets {k : LockKernel ι} {file : FileId} {other : ι} (busy : k.holder file = some other) :
      ClaimMove process event k .opened k (.leaving false)
  | errs (k : LockKernel ι) (phase : ClaimPhase) (errs : event.Errs) :
      ClaimMove process event k phase k (.leaving true)
  | measures {k : LockKernel ι} {file : FileId} (opened : k.descriptor process = some file) :
      ClaimMove process event k .locked k (.measured file)
  | confirms {k : LockKernel ι} {file : FileId} (named : k.name = some file) :
      ClaimMove process event k (.measured file) k .granted
  | misses {k : LockKernel ι} {file : FileId} (elsewhere : k.name ≠ some file) :
      ClaimMove process event k (.measured file) k (.leaving false)
  | closes (k : LockKernel ι) (erred : Bool) :
      ClaimMove process event k (.leaving erred) (k.close process)
        (if erred then .erred else .idle true)

theorem kernelPerforms.alive {k k' : LockKernel ι} {process : ι} {action : LockAction ι}
    {reply : action.Reply} (performed : kernelPerforms (.agent process) k action reply k') :
    k.alive process = true := by
  cases performed <;> assumption

theorem claimMove_of_performs {k k' : LockKernel ι} {process : ι} {phase : ClaimPhase}
    {action : LockAction ι} {reply : action.Reply} (allowed : claimAllows phase action)
    (performed : kernelPerforms (.agent process) k action reply k') :
    ClaimMove process ⟨action, reply⟩ k phase k' (claimNext phase action reply) := by
  cases performed with
  | createDirAll alive dir reply =>
      cases phase with
      | idle refused =>
          cases reply with
          | error e => exact .fails k refused trivial
          | ok _ => exact .waits k refused
      | _ => exact False.elim allowed
  | openNamed alive named =>
      cases phase with
      | idle refused =>
          exact .opens refused fun other isNamed => Option.some.inj (isNamed.symm.trans named)
      | _ => exact False.elim allowed
  | @openCreated _ _ file alive absent unused =>
      cases phase with
      | idle refused => exact .opens refused (Kernel.leads_of_absent absent file)
      | _ => exact False.elim allowed
  | openFailed alive e =>
      cases phase with
      | idle refused => exact .fails k refused trivial
      | _ => exact False.elim allowed
  | locked alive opened free =>
      cases phase with
      | opened => exact .locks opened free
      | _ => exact False.elim allowed
  | wouldBlock alive opened busy differs =>
      cases phase with
      | opened => exact .meets busy
      | _ => exact False.elim allowed
  | flockFailed alive e =>
      cases phase with
      | opened => exact .errs k _ trivial
      | _ => exact False.elim allowed
  | fstat alive opened =>
      cases phase with
      | locked => exact .measures opened
      | _ => exact False.elim allowed
  | fstatFailed alive e =>
      cases phase with
      | locked => exact .errs k _ trivial
      | _ => exact False.elim allowed
  | @stat _ _ onDisk alive named =>
      cases phase with
      | measured file =>
          by_cases same : file = onDisk
          · subst same
            simp only [claimNext, if_pos]
            exact .confirms named
          · simp only [claimNext, if_neg same]
            apply ClaimMove.misses
            rw [named]
            exact fun equal => same (Option.some.inj equal).symm
      | _ => exact False.elim allowed
  | statNotFound alive absent =>
      cases phase with
      | measured file =>
          apply ClaimMove.misses
          rw [absent]
          exact Option.some_ne_none file ∘ Eq.symm
      | _ => exact False.elim allowed
  | statFailed alive e =>
      cases phase with
      | measured file => exact .errs k _ trivial
      | _ => exact False.elim allowed
  | drop alive =>
      cases phase with
      | leaving erred => exact .closes k erred
      | _ => exact False.elim allowed
  | sleep alive backoff =>
      cases phase with
      | idle refused => exact .waits k refused
      | _ => exact False.elim allowed

/-! ### At most one process guards the name -/

/-- A live process in this phase has done to the kernel what the phase says. -/
def PhaseAgrees (k : LockKernel ι) (process : ι) : ClaimPhase → Prop
  | .idle _ => k.descriptor process = none
  | .erred => k.descriptor process = none
  | .opened => ∃ id, k.descriptor process = some id
  | .locked => ∃ id, k.descriptor process = some id ∧ k.holder id = some process
  | .measured id => k.descriptor process = some id ∧ k.holder id = some process
  | .granted => k.Guards process
  | .leaving _ => True
  | .environment => True

structure ClaimInv (k : LockKernel ι) (phases : Party ι → ClaimPhase) : Prop where
  consistent : k.Consistent
  agrees : ∀ process, k.alive process = true →
    PhaseAgrees k process (phases (.agent process))

omit [DecidableEq ι] in
theorem PhaseAgrees.frame {k k' : LockKernel ι} {process : ι} {phase : ClaimPhase}
    (agrees : PhaseAgrees k process phase)
    (descriptor : k'.descriptor process = k.descriptor process)
    (holder : ∀ id, k.holder id = some process → k'.holder id = some process)
    (name : phase = .granted → ∀ id, k.name = some id → k'.name = some id) :
    PhaseAgrees k' process phase := by
  cases phase with
  | idle _ => exact descriptor.trans agrees
  | erred => exact descriptor.trans agrees
  | opened =>
      obtain ⟨id, opened⟩ := agrees
      exact ⟨id, descriptor.trans opened⟩
  | locked =>
      obtain ⟨id, opened, held⟩ := agrees
      exact ⟨id, descriptor.trans opened, holder id held⟩
  | measured id => exact ⟨descriptor.trans agrees.1, holder id agrees.2⟩
  | granted =>
      obtain ⟨id, named, held⟩ := agrees
      exact ⟨id, name rfl id named, holder id held⟩
  | leaving _ => trivial
  | environment => trivial

omit [DecidableEq ι] in
private theorem PhaseAgrees.redirect {k : LockKernel ι} {process : ι} {phase : ClaimPhase}
    (agrees : PhaseAgrees k process phase) (ungranted : phase ≠ .granted) (name : Option FileId) :
    PhaseAgrees (k.redirect name) process phase := by
  apply agrees.frame
  · rfl
  · exact fun _ held => held
  · exact fun granted => absurd granted ungranted

private theorem ClaimInv.call {k k' : LockKernel ι} {phases : Party ι → ClaimPhase} {process : ι}
    {phase : ClaimPhase} (inv : ClaimInv k phases) (consistent : k'.Consistent)
    (alive : k'.alive = k.alive) (own : PhaseAgrees k' process phase)
    (descriptor : ∀ other, other ≠ process → k'.descriptor other = k.descriptor other)
    (holder : ∀ other id, other ≠ process → k.holder id = some other → k'.holder id = some other)
    (name : ∀ id, k.name = some id → k'.name = some id) :
    ClaimInv k' (Function.update phases (.agent process) phase) := by
  refine ⟨consistent, fun other aliveOther => ?_⟩
  by_cases same : other = process
  · subst same
    rw [Function.update_self]
    exact own
  · have differs : Party.agent other ≠ .agent process := by
      intro equal
      exact same (Party.agent.inj equal)
    rw [Function.update_of_ne differs]
    rw [alive] at aliveOther
    exact (inv.agrees other aliveOther).frame (descriptor other same)
      (fun id held => holder other id same held) fun _ id named => name id named

private theorem ClaimInv.look {k : LockKernel ι} {phases : Party ι → ClaimPhase} {process : ι}
    {phase : ClaimPhase} (inv : ClaimInv k phases) (own : PhaseAgrees k process phase) :
    ClaimInv k (Function.update phases (.agent process) phase) :=
  inv.call inv.consistent rfl own (fun _ _ => rfl) (fun _ _ _ held => held) fun _ named => named

/-- What the environment does keeps the invariant where it keeps the agreement
of every process that still lives. -/
private theorem ClaimInv.disturbed {k' : LockKernel ι} {phases : Party ι → ClaimPhase}
    {phase : ClaimPhase} (consistent : k'.Consistent)
    (agrees : ∀ process, k'.alive process = true →
      PhaseAgrees k' process (phases (.agent process))) :
    ClaimInv k' (Function.update phases .environment phase) := by
  refine ⟨consistent, fun process alive => ?_⟩
  have differs : Party.agent process ≠ .environment := by
    intro equal
    cases equal
  rw [Function.update_of_ne differs]
  exact agrees process alive

/-- A call of a process keeps the invariant. -/
theorem ClaimInv.move {k k' : LockKernel ι} {phases : Party ι → ClaimPhase} {process : ι}
    {event : LockEvent ι} {phase phase' : ClaimPhase} (inv : ClaimInv k phases)
    (alive : k.alive process = true) (atPhase : phases (.agent process) = phase)
    (move : ClaimMove process event k phase k' phase') :
    ClaimInv k' (Function.update phases (.agent process) phase') := by
  have agrees := inv.agrees process alive
  rw [atPhase] at agrees
  cases move with
  | waits refused => exact inv.look agrees
  | fails refused errs => exact inv.look agrees
  | @opens file refused leads =>
      apply inv.call (inv.consistent.openAs agrees alive file) rfl
      · exact ⟨file, Function.update_self _ _ _⟩
      · exact fun other differs => Function.update_of_ne differs _ _
      · exact fun _ _ _ held => held
      · intro other named
        rw [leads other named]
        rfl
  | @locks file opened free =>
      apply inv.call (inv.consistent.lock opened) rfl
      · exact ⟨file, opened, Function.update_self _ _ _⟩
      · exact fun _ _ => rfl
      · intro other file' differs held
        have elsewhere : file' ≠ file := by
          rintro rfl
          rw [free] at held
          cases held
        exact (Function.update_of_ne elsewhere _ _).trans held
      · exact fun _ named => named
  | meets busy => exact inv.look trivial
  | errs phase errs => exact inv.look trivial
  | @measures file opened =>
      obtain ⟨own, ownOpened, held⟩ := agrees
      rw [opened] at ownOpened
      cases ownOpened
      exact inv.look ⟨opened, held⟩
  | confirms named => exact inv.look ⟨_, named, agrees.2⟩
  | misses elsewhere => exact inv.look trivial
  | closes erred =>
      have closed : (k.close process).descriptor process = none := Function.update_self _ _ _
      apply inv.call (inv.consistent.close process) rfl
      · cases erred <;> exact closed
      · exact fun other differs => Kernel.descriptor_close_of_ne k differs
      · exact fun other file differs held => Kernel.holder_close.mpr ⟨held, differs⟩
      · exact fun _ named => named

/-- One step keeps the invariant, if the file is left alone while a live process
guards its name. -/
theorem ClaimInv.step {k k' : LockKernel ι} {phases : Party ι → ClaimPhase} {party : Party ι}
    {action : LockAction ι} {reply : action.Reply} (inv : ClaimInv k phases)
    (allowed : claimAllows (phases party) action)
    (performed : kernelPerforms party k action reply k')
    (spared : action = .delete ∨ action = .replace →
      ∀ process, k.alive process = true → phases (.agent process) ≠ .granted) :
    ClaimInv k' (Function.update phases party (claimNext (phases party) action reply)) := by
  cases party with
  | agent process =>
      exact inv.move performed.alive rfl (claimMove_of_performs allowed performed)
  | environment =>
      cases performed with
      | delete =>
          apply ClaimInv.disturbed (inv.consistent.redirect none)
          intro process alive
          exact (inv.agrees process alive).redirect (spared (Or.inl rfl) process alive) none
      | replace _ id =>
          apply ClaimInv.disturbed (inv.consistent.redirect (some id))
          intro process alive
          exact (inv.agrees process alive).redirect (spared (Or.inr rfl) process alive) (some id)
      | exit _ gone =>
          apply ClaimInv.disturbed (inv.consistent.exit gone)
          intro process alive
          have differs : process ≠ gone := by
            rintro rfl
            simp [Kernel.exit] at alive
          have aliveBefore : k.alive process = true := by
            simpa only [Kernel.exit, Kernel.close, Function.update_of_ne differs] using alive
          exact (inv.agrees process aliveBefore).frame (Kernel.descriptor_close_of_ne k differs)
            (fun id held => Kernel.holder_close.mpr ⟨held, differs⟩) fun _ _ named => named

def lockStart (path : LockPath) (calls : ι → ClaimCall) (disturbances : List (Disturbance ι))
    (name : Option FileId) : LockConfig ι :=
  Config.fresh (Kernel.start name) fun party => party.program path calls disturbances

def LockAnswered (config : LockConfig ι) (process : ι) (claim : Claim) : Prop :=
  (config.threads (.agent process)).rest = .done (some claim)

/-- The process lives and its claim was granted. -/
def HoldsClaim (config : LockConfig ι) (process : ι) : Prop :=
  config.shared.alive process = true ∧ LockAnswered config process .held

/-- The file is deleted or replaced only while nobody holds a granted claim. -/
def SparesHolders : StepCondition (LockKernel ι) (Party ι) (LockAction ι) LockAction.Reply
    (Option Claim) :=
  fun config _ event => event.action = .delete ∨ event.action = .replace →
    ∀ process, ¬ HoldsClaim config process

omit [DecidableEq ι] in
private theorem lockStart_follows (path : LockPath) (calls : ι → ClaimCall)
    (disturbances : List (Disturbance ι)) (name : Option FileId) :
    (lockStart path calls disturbances name).Follows (claimSteps claimFinished) Party.start :=
  fun party => Party.program_conforms path calls disturbances party

omit [DecidableEq ι] in
private theorem lockStart_inv (path : LockPath) (calls : ι → ClaimCall)
    (disturbances : List (Disturbance ι)) (name : Option FileId) :
    ClaimInv (lockStart path calls disturbances name).shared (Party.start : Party ι → ClaimPhase) :=
  { consistent := Kernel.start_consistent name
    agrees := fun _ _ => rfl }

omit [DecidableEq ι] in
private theorem answered_of_granted {config : LockConfig ι} {process : ι}
    (follows : config.Follows (claimSteps claimFinished) Party.start)
    (granted : config.phase (claimSteps claimFinished) Party.start (.agent process) = .granted) :
    LockAnswered config process .held := by
  have conforms := follows (.agent process)
  rw [granted] at conforms
  unfold LockAnswered
  cases rest : (config.threads (.agent process)).rest with
  | done result =>
      rw [rest] at conforms
      exact congrArg Prog.done conforms
  | act action next =>
      rw [rest] at conforms
      cases action <;> exact False.elim conforms.1

omit [DecidableEq ι] in
private theorem finished_of_answered {config : LockConfig ι} {process : ι} {claim : Claim}
    (follows : config.Follows (claimSteps claimFinished) Party.start)
    (answered : LockAnswered config process claim) :
    claimFinished (config.phase (claimSteps claimFinished) Party.start (.agent process))
      (some claim) :=
  follows.finished answered

omit [DecidableEq ι] in
private theorem granted_of_held {phase : ClaimPhase} (finished : claimFinished phase (some .held)) :
    phase = .granted := by
  cases phase with
  | granted => rfl
  | idle refused => cases finished.2
  | erred =>
      obtain ⟨why, same⟩ := finished
      cases same
  | environment => cases finished
  | _ => exact False.elim finished

theorem ClaimInv.reached {path : LockPath} {calls : ι → ClaimCall}
    {disturbances : List (Disturbance ι)} {name : Option FileId} {config : LockConfig ι}
    (reached : Reaches kernelPerforms SparesHolders (lockStart path calls disturbances name)
      config) :
    config.Follows (claimSteps claimFinished) Party.start ∧
      ClaimInv config.shared (config.phase (claimSteps claimFinished) Party.start) := by
  apply reached.invariant ClaimInv (lockStart_follows path calls disturbances name)
    (lockStart_inv path calls disturbances name)
  intro before party action reply k' follows inv allowed performed spares
  apply inv.step allowed performed
  intro swaps process alive granted
  exact spares swaps process ⟨alive, answered_of_granted follows granted⟩

omit [DecidableEq ι] in
theorem HoldsClaim.guards {config : LockConfig ι} {process : ι}
    (follows : config.Follows (claimSteps claimFinished) Party.start)
    (inv : ClaimInv config.shared (config.phase (claimSteps claimFinished) Party.start))
    (holds : HoldsClaim config process) : config.shared.Guards process := by
  have agrees := inv.agrees process holds.1
  rw [granted_of_held (finished_of_answered follows holds.2)] at agrees
  exact agrees

/-! ### Someone is granted -/

/-- Nobody deletes or replaces the file, and no system call errs. -/
def Faultless : StepCondition (LockKernel ι) (Party ι) (LockAction ι) LockAction.Reply
    (Option Claim) :=
  fun _ _ event => event.action ≠ .delete ∧ event.action ≠ .replace ∧ ¬ LockEvent.Errs event

/-- On the way to a granted claim, which only the process's exit keeps from it. -/
def ClaimPhase.Contends : ClaimPhase → Prop
  | .locked => True
  | .measured _ => True
  | .granted => True
  | _ => False

def ClaimPhase.Refused : ClaimPhase → Prop
  | .idle refused => refused = true
  | .leaving failed => failed = false
  | _ => False

def ClaimPhase.Erred : ClaimPhase → Prop
  | .erred => True
  | .leaving failed => failed = true
  | _ => False

/-- Where nothing swaps the file, all descriptors lead where the name does, and
whoever was refused met a process that still contends. -/
structure SteadyInv (k : LockKernel ι) (phases : Party ι → ClaimPhase) : Prop where
  steady : ∀ process id, k.descriptor process = some id → k.name = some id
  contends : ∀ id process, k.holder id = some process → (phases (.agent process)).Contends
  refused : ∀ process, (phases (.agent process)).Refused →
    ∃ other, (phases (.agent other)).Contends
  faultless : ∀ process, ¬ (phases (.agent process)).Erred

private theorem SteadyInv.call {k k' : LockKernel ι} {phases : Party ι → ClaimPhase} {process : ι}
    {phase : ClaimPhase} (inv : SteadyInv k phases)
    (steady : ∀ other id, k'.descriptor other = some id → k'.name = some id)
    (holder : ∀ id other, other ≠ process → k'.holder id = some other → k.holder id = some other)
    (own : ∀ id, k'.holder id = some process → phase.Contends)
    (stays : (phases (.agent process)).Contends → phase.Contends)
    (refused : phase.Refused → ∃ other, (phases (.agent other)).Contends)
    (sound : ¬ phase.Erred) :
    SteadyInv k' (Function.update phases (.agent process) phase) := by
  have elsewhere : ∀ {other}, other ≠ process →
      Function.update phases (.agent process) phase (.agent other) = phases (.agent other) := by
    intro other differs
    apply Function.update_of_ne
    intro equal
    exact differs (Party.agent.inj equal)
  have here : Function.update phases (.agent process) phase (.agent process) = phase :=
    Function.update_self _ _ _
  have contender : (∃ other, (phases (.agent other)).Contends) →
      ∃ other, (Function.update phases (.agent process) phase (.agent other)).Contends := by
    rintro ⟨other, contends⟩
    by_cases same : other = process
    · subst same
      exact ⟨other, by rw [here]; exact stays contends⟩
    · exact ⟨other, by rw [elsewhere same]; exact contends⟩
  constructor
  · exact steady
  · intro id other held
    by_cases same : other = process
    · subst same
      rw [here]
      exact own id held
    · rw [elsewhere same]
      exact inv.contends id other (holder id other same held)
  · intro other isRefused
    apply contender
    by_cases same : other = process
    · subst same
      rw [here] at isRefused
      exact refused isRefused
    · rw [elsewhere same] at isRefused
      exact inv.refused other isRefused
  · intro other
    by_cases same : other = process
    · subst same
      rw [here]
      exact sound
    · rw [elsewhere same]
      exact inv.faultless other

private theorem SteadyInv.look {k : LockKernel ι} {phases : Party ι → ClaimPhase} {process : ι}
    {phase : ClaimPhase} (inv : SteadyInv k phases)
    (stays : (phases (.agent process)).Contends → phase.Contends)
    (refused : phase.Refused → ∃ other, (phases (.agent other)).Contends)
    (sound : ¬ phase.Erred) :
    SteadyInv k (Function.update phases (.agent process) phase) :=
  inv.call inv.steady (fun _ _ _ held => held)
    (fun id held => stays (inv.contends id process held)) stays refused sound

/-- A call of a process that does not err keeps what holds of an undisturbed run. -/
theorem SteadyInv.move {k k' : LockKernel ι} {phases : Party ι → ClaimPhase} {process : ι}
    {event : LockEvent ι} {phase phase' : ClaimPhase} (inv : SteadyInv k phases)
    (agrees : PhaseAgrees k process phase) (atPhase : phases (.agent process) = phase)
    (sound : ¬ event.Errs) (move : ClaimMove process event k phase k' phase') :
    SteadyInv k' (Function.update phases (.agent process) phase') := by
  have before := inv.refused process
  have faultless := inv.faultless process
  rw [atPhase] at before faultless
  cases move with
  | waits refused => exact inv.look (by rw [atPhase]; exact False.elim) before id
  | fails refused errs => exact absurd errs sound
  | @opens file refused leads =>
      have uncontending : ¬ (phases (.agent process)).Contends := by
        rw [atPhase]
        exact id
      apply inv.call
      · intro other file' opened
        by_cases same : other = process
        · subst same
          simpa [Kernel.openAs] using opened
        · simp only [Kernel.openAs, Function.update_of_ne same] at opened
          rw [leads file' (inv.steady other file' opened)]
          rfl
      · exact fun _ _ _ held => held
      · exact fun file held => absurd (inv.contends file process held) uncontending
      · exact fun contends => absurd contends uncontending
      · exact False.elim
      · exact id
  | @locks file opened free =>
      apply inv.call
      · exact inv.steady
      · intro file' other differs held
        by_cases same : file' = file
        · subst same
          simp only [Kernel.lock, Function.update_self, Option.some.injEq] at held
          exact absurd held.symm differs
        · simpa only [Kernel.lock, Function.update_of_ne same] using held
      · exact fun _ _ => trivial
      · exact fun _ => trivial
      · exact False.elim
      · exact id
  | @meets file other busy =>
      exact inv.look (by rw [atPhase]; exact False.elim)
        (fun _ => ⟨other, inv.contends file other busy⟩) Bool.false_ne_true
  | errs _ errs => exact absurd errs sound
  | measures opened => exact inv.look (fun _ => trivial) False.elim id
  | confirms named => exact inv.look (fun _ => trivial) False.elim id
  | @misses file elsewhere =>
      -- The open file is the one that the name leads to, and has been all along.
      exact absurd (inv.steady process file agrees.1) elsewhere
  | closes erred =>
      have conceded : erred = false := Bool.eq_false_iff.mpr faultless
      subst conceded
      apply inv.call
      · intro other file opened
        by_cases same : other = process
        · subst same
          simp [Kernel.close] at opened
        · rw [Kernel.descriptor_close_of_ne k same] at opened
          exact inv.steady other file opened
      · exact fun _ _ _ held => (Kernel.holder_close.mp held).1
      · exact fun _ held => absurd rfl (Kernel.holder_close.mp held).2
      · rw [atPhase]
        exact False.elim
      · exact fun _ => before rfl
      · exact id

theorem SteadyInv.step {k k' : LockKernel ι} {phases : Party ι → ClaimPhase} {party : Party ι}
    {action : LockAction ι} {reply : action.Reply} (inv : SteadyInv k phases)
    (claims : ClaimInv k phases) (allowed : claimAllows (phases party) action)
    (performed : kernelPerforms party k action reply k') (undeleted : action ≠ .delete)
    (unreplaced : action ≠ .replace) (sound : ¬ LockEvent.Errs ⟨action, reply⟩) :
    SteadyInv k' (Function.update phases party (claimNext (phases party) action reply)) := by
  cases party with
  | agent process =>
      have agrees := claims.agrees process performed.alive
      exact inv.move agrees rfl sound (claimMove_of_performs allowed performed)
  | environment =>
      have elsewhere : ∀ (phase : ClaimPhase) (process : ι),
          Function.update phases .environment phase (.agent process) = phases (.agent process) := by
        intro phase process
        apply Function.update_of_ne
        intro equal
        cases equal
      cases performed with
      | delete => exact absurd rfl undeleted
      | replace _ id => exact absurd rfl unreplaced
      | exit _ gone =>
          constructor
          · intro process id opened
            have differs : process ≠ gone := by
              rintro rfl
              simp [Kernel.exit, Kernel.close] at opened
            exact inv.steady process id
              ((Kernel.descriptor_close_of_ne k differs).symm.trans opened)
          · intro id process held
            rw [elsewhere]
            exact inv.contends id process (Kernel.holder_close.mp held).1
          · intro process isRefused
            rw [elsewhere] at isRefused
            obtain ⟨other, contends⟩ := inv.refused process isRefused
            exact ⟨other, by rw [elsewhere]; exact contends⟩
          · intro process
            rw [elsewhere]
            exact inv.faultless process

omit [DecidableEq ι] in
private theorem lockStart_steady (path : LockPath) (calls : ι → ClaimCall)
    (disturbances : List (Disturbance ι)) (name : Option FileId) :
    SteadyInv (lockStart path calls disturbances name).shared
      (Party.start : Party ι → ClaimPhase) :=
  { steady := fun _ _ opened => nomatch opened
    contends := fun _ _ held => nomatch held
    refused := fun _ isRefused => nomatch isRefused
    faultless := fun _ => id }

theorem SteadyInv.reached {path : LockPath} {calls : ι → ClaimCall}
    {disturbances : List (Disturbance ι)} {name : Option FileId} {config : LockConfig ι}
    (reached : Reaches kernelPerforms Faultless (lockStart path calls disturbances name) config) :
    config.Follows (claimSteps claimFinished) Party.start ∧
      ClaimInv config.shared (config.phase (claimSteps claimFinished) Party.start) ∧
      SteadyInv config.shared (config.phase (claimSteps claimFinished) Party.start) := by
  apply reached.invariant (fun k phases => ClaimInv k phases ∧ SteadyInv k phases)
    (lockStart_follows path calls disturbances name)
    ⟨lockStart_inv path calls disturbances name, lockStart_steady path calls disturbances name⟩
  intro before party action reply k' follows inv allowed performed faultless
  obtain ⟨undeleted, unreplaced, sound⟩ := faultless
  constructor
  · apply inv.1.step allowed performed
    rintro (deleted | replaced)
    · exact absurd deleted undeleted
    · exact absurd replaced unreplaced
  · exact inv.2.step inv.1 allowed performed undeleted unreplaced sound

omit [DecidableEq ι] in
private theorem refused_of_taken {phase : ClaimPhase}
    (finished : claimFinished phase (some .taken)) : phase.Refused := by
  cases phase with
  | idle refused => exact finished.1
  | granted => cases finished
  | erred =>
      obtain ⟨why, same⟩ := finished
      cases same
  | environment => cases finished
  | _ => exact False.elim finished

omit [DecidableEq ι] in
private theorem erred_of_unavailable {phase : ClaimPhase} {why : String}
    (finished : claimFinished phase (some (.unavailable why))) : phase.Erred := by
  cases phase with
  | idle refused => cases finished.2
  | granted => cases finished
  | erred => trivial
  | environment => cases finished
  | _ => exact False.elim finished

omit [DecidableEq ι] in
private theorem held_of_contends {phase : ClaimPhase} {claim : Claim} (contends : phase.Contends)
    (finished : claimFinished phase (some claim)) : claim = .held := by
  cases phase with
  | granted => exact Option.some.inj finished
  | locked => exact False.elim finished
  | measured _ => exact False.elim finished
  | _ => exact False.elim contends

/-- Any number of processes claim one lock file, each with any number of
attempts.  While the file is left alone whenever a live process holds a granted
claim, at most one does.  Where the file is never deleted or replaced and no
call errs, some process has been granted once all have been answered. -/
theorem agent_lock_exclusive (path : LockPath) (calls : ι → ClaimCall)
    (disturbances : List (Disturbance ι)) (name : Option FileId) :
    (∀ config,
      Reaches kernelPerforms SparesHolders (lockStart path calls disturbances name) config →
      ∀ first second, HoldsClaim config first → HoldsClaim config second → first = second) ∧
    (Nonempty ι → ∀ config,
      Reaches kernelPerforms Faultless (lockStart path calls disturbances name) config →
      (∀ process, ∃ claim, LockAnswered config process claim) →
      ∃ process, LockAnswered config process .held) := by
  constructor
  · intro config reached first second firstHolds secondHolds
    obtain ⟨follows, inv⟩ := ClaimInv.reached reached
    exact (firstHolds.guards follows inv).unique (secondHolds.guards follows inv)
  · rintro ⟨process⟩ config reached answered
    obtain ⟨follows, _, steady⟩ := SteadyInv.reached reached
    obtain ⟨claim, isClaim⟩ := answered process
    have finished := finished_of_answered follows isClaim
    cases claim with
    | held => exact ⟨process, isClaim⟩
    | taken =>
        -- It was refused, so some process contends, and that one was answered as well.
        obtain ⟨other, contends⟩ := steady.refused process (refused_of_taken finished)
        obtain ⟨claim, isOther⟩ := answered other
        have held := held_of_contends contends (finished_of_answered follows isOther)
        subst held
        exact ⟨other, isOther⟩
    | unavailable why => exact absurd (erred_of_unavailable finished) (steady.faultless process)

private def lockPath : LockPath :=
  { parent := some "/data/com.klaay.app", debug := "\"/data/com.klaay.app/agent.lock\"" }

private def lockFile : FileId := { dev := 1, ino := 42 }

private theorem two_claims : ∃ config : LockConfig Bool,
    Reaches kernelPerforms Faultless (lockStart lockPath (fun _ => ⟨1, 400⟩) [] none) config ∧
      HoldsClaim config true ∧ LockAnswered config false .taken := by
  have started : Reaches kernelPerforms Faultless
      (lockStart lockPath (fun _ : Bool => ⟨1, 400⟩) [] none) _ := Reaches.refl _
  have created := started.perform (.agent true)
    ⟨.createDirAll "/data/com.klaay.app", .ok ()⟩ rfl (.createDirAll rfl _ _)
    ⟨nofun, nofun, id⟩
  have creates : kernelPerforms (.agent true) (Kernel.start none : LockKernel Bool) .openFile
      (.ok ()) ((Kernel.start none).openAs true lockFile) := .openCreated rfl rfl nofun
  have opened := created.perform (.agent true) ⟨.openFile, .ok ()⟩ rfl creates
    ⟨nofun, nofun, id⟩
  have locked := opened.perform (.agent true) ⟨.flock, .locked⟩ rfl (.locked rfl rfl rfl)
    ⟨nofun, nofun, id⟩
  have measured := locked.perform (.agent true) ⟨.fstat, .ok lockFile⟩ rfl (.fstat rfl rfl)
    ⟨nofun, nofun, id⟩
  have granted := measured.perform (.agent true) ⟨.stat, .ok lockFile⟩ rfl (.stat rfl rfl)
    ⟨nofun, nofun, id⟩
  have follows := granted.perform (.agent false)
    ⟨.createDirAll "/data/com.klaay.app", .ok ()⟩ rfl (.createDirAll rfl _ _)
    ⟨nofun, nofun, id⟩
  have opensToo := follows.perform (.agent false) ⟨.openFile, .ok ()⟩ rfl (.openNamed rfl rfl)
    ⟨nofun, nofun, id⟩
  have blocked := opensToo.perform (.agent false) ⟨.flock, .wouldBlock⟩ rfl
    (.wouldBlock rfl rfl rfl nofun) ⟨nofun, nofun, id⟩
  have conceded := blocked.perform (.agent false) ⟨.drop, ()⟩ rfl (.drop rfl)
    ⟨nofun, nofun, id⟩
  exact ⟨_, conceded, ⟨rfl, rfl⟩, rfl⟩

/-- Of the two processes exactly the first is granted its claim. -/
theorem agent_lock_exclusive_two : ∃ config : LockConfig Bool, HoldsClaim config true ∧
    (∀ process, HoldsClaim config process → process = true) ∧
    ∃ process, LockAnswered config process .held := by
  obtain ⟨config, reached, holds, taken⟩ := two_claims
  obtain ⟨exclusive, granted⟩ :=
    agent_lock_exclusive lockPath (fun _ : Bool => ⟨1, 400⟩) [] none
  refine ⟨config, holds, fun process others => ?_, ?_⟩
  · apply exclusive config _ process true others holds
    apply reached.mono
    rintro before party event ⟨undeleted, unreplaced, _⟩ (deleted | replaced)
    · exact absurd deleted undeleted
    · exact absurd replaced unreplaced
  · apply granted ⟨true⟩ config reached
    rintro (_ | _)
    · exact ⟨.taken, taken⟩
    · exact ⟨.held, holds.2⟩

end KlaayGuard
