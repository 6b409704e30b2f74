/-
The stored token read at startup against sessions adopted in the meantime.

`startup_blocking_work` runs on its own thread, may wait any time for a locked
keyring, and writes the token it loaded without looking at the live one and
without touching the name.  It keeps to the session in memory exactly where its
write finds no session; a name then fits the live token, or some call still has
its own name to write.
-/

import KlaayGuard.Library.ReadGuard
import KlaayGuard.Session

set_option autoImplicit false

namespace KlaayGuard

open EffectProgram Prog

/-- The stored token is loaded, taken up and announced, and its holder is asked
for. -/
def startupBlockingWork : Program Unit := do
  match ← loadToken with
  | .ok (some tok) => do
      writeAuthToken (some tok)
      notifyTokenAcquired
      spawnRefreshIdentity
  | .ok none => pure ()
  | .error _ => pure ()

inductive StartupTask : Type where
  | startup
  | signIn (token : String)
  | signOut
  | refresh
  deriving DecidableEq, Repr

def StartupTask.program (crates : Crates) : StartupTask → Program Unit
  | startup => startupBlockingWork
  | signIn token => adoptToken crates token
  | signOut => KlaayGuard.signOut
  | refresh => refreshIdentity crates

inductive NamePhase : Type where
  | loading
  | signingIn (token : String)
  /-- The API has answered for the token, which is not yet taken up. -/
  | adopting (token : String) (label : Option String)
  | signingOut
  /-- The token is written and the label that goes with it is not. -/
  | owesLabel (token label : Option String)
  | refreshing
  | asking (token : String)
  | answered (token : String) (label : Option String)
  /-- The guard is held on the token the label was asked for. -/
  | naming (token : String) (label : Option String)
  | releasing
  | settled

namespace NamePhase

def HoldsGuard : NamePhase → Prop
  | naming _ _ => True
  | releasing => True
  | _ => False

def OwesLabel : NamePhase → Prop
  | owesLabel _ _ => True
  | _ => False

/-- Which task passes through a phase that writes the token or owes a label. -/
def Of : NamePhase → StartupTask → Prop
  | loading, task => task = .startup
  | signingIn token, task => task = .signIn token
  | adopting token _, task => task = .signIn token
  | signingOut, task => task = .signOut
  | owesLabel (some token) _, task => task = .signIn token
  | owesLabel none label, _ => label = none
  | _, _ => True

def Carries (phase : NamePhase) (token label : String) : Prop :=
  phase = adopting token (some label) ∨ phase = owesLabel (some token) (some label) ∨
    phase = answered token (some label) ∨ phase = naming token (some label)

end NamePhase

/-- Neither of the two session fields is read under a guard or written, and
nobody is asked for a name. -/
def Effect.leavesNames : Effect → Bool
  | .send _ => false
  | .writeAuthToken _ => false
  | .writeUserLabel _ => false
  | .holdAuthToken => false
  | .releaseAuthToken => false
  | _ => true

def nameAllowed : NamePhase → Effect → Prop
  | .loading, action => action.leavesNames = true ∨ ∃ token, action = .writeAuthToken (some token)
  | .signingIn token, action => action = .send (.me token)
  | .adopting token _, action => action = .writeAuthToken (some token)
  | .signingOut, action => action = .writeAuthToken none
  | .owesLabel _ label, action => action = .writeUserLabel label
  | .refreshing, action => action = .readAuthToken
  | .asking token, action => action = .send (.me token)
  | .answered _ _, action => action = .holdAuthToken
  | .naming _ label, action => action = .writeUserLabel label
  | .releasing, action => action = .releaseAuthToken
  | .settled, action => action.leavesNames = true

def signInPhase (token : String) : Identity → NamePhase
  | .rejected => .settled
  | .accepted label => .adopting token label
  | .unknown => .adopting token none

def refreshPhase (token : String) : Identity → NamePhase
  | .accepted label => .answered token label
  | _ => .settled

variable (crates : Crates)

def nameNext : NamePhase → (action : Effect) → action.Reply → NamePhase
  | .loading, .writeAuthToken _, _ => .settled
  | .signingIn token, .send _, reply => signInPhase token (identityOfReply crates reply)
  | .adopting token label, _, _ => .owesLabel (some token) label
  | .signingOut, _, _ => .owesLabel none none
  | .owesLabel _ _, _, _ => .settled
  | .refreshing, .readAuthToken, some token => .asking token
  | .refreshing, .readAuthToken, none => .settled
  | .asking token, .send _, reply => refreshPhase token (identityOfReply crates reply)
  | .answered token label, .holdAuthToken, held =>
      if held = some token then .naming token label else .releasing
  | .naming _ _, _, _ => .releasing
  | .releasing, _, _ => .settled
  | phase, _, _ => phase

def nameSteps : Protocol Effect Effect.Reply NamePhase Unit :=
  { allowed := nameAllowed
    next := nameNext crates
    finished := fun phase _ => ¬ phase.OwesLabel }

def StartupTask.firstPhase : StartupTask → NamePhase
  | startup => .loading
  | signIn token => .signingIn token
  | signOut => .signingOut
  | refresh => .refreshing

variable {crates}

theorem nameNext_loading {action : Effect} {reply : action.Reply}
    (kind : action.leavesNames = true) : nameNext crates .loading action reply = .loading := by
  cases action <;> first | rfl | cases kind

theorem leavesNames_of_isStoreCall {action : Effect} (kind : action.isStoreCall = true) :
    action.leavesNames = true := by
  cases action <;> first | rfl | cases kind

private theorem settled_conforms {α : Type} {program : Program α}
    {finished : NamePhase → α → Prop}
    (only : program.Only fun action => action.isStoreCall = true)
    (ends : ∀ result, finished .settled result) :
    program.Conforms
      { allowed := nameAllowed, next := nameNext crates, finished := finished } .settled :=
  only.conforms (fun _ kind => leavesNames_of_isStoreCall kind) (fun _ _ _ => rfl) ends

theorem startupBlockingWork_conforms :
    startupBlockingWork.Conforms (nameSteps crates) .loading := by
  rw [startupBlockingWork, Prog.conforms_bind]
  refine load_storeCalls.conforms (fun _ kind => Or.inl (leavesNames_of_isStoreCall kind))
    (fun _ _ kind => nameNext_loading (leavesNames_of_isStoreCall kind)) fun loaded => ?_
  rcases loaded with e | (_ | token)
  · exact id
  · exact id
  · exact ⟨Or.inr ⟨token, rfl⟩, fun _ => ⟨rfl, fun _ => ⟨rfl, fun _ => id⟩⟩⟩

private theorem adopting_conforms (token : String) (label : Option String) :
    (adoptSession token label >>= fun _ => notifyTokenAcquired >>= fun _ =>
      saveToken token >>= fun _ => pure () : Program Unit).Conforms (nameSteps crates)
      (.adopting token label) := by
  refine ⟨rfl, fun _ => ⟨rfl, fun _ => ⟨rfl, fun _ => ?_⟩⟩⟩
  exact settled_conforms (saveCredential_storeCalls.bind fun _ => trivial) fun _ => id

theorem adoptToken_conforms_names (token : String) :
    (adoptToken crates token).Conforms (nameSteps crates) (.signingIn token) := by
  rw [adoptToken, adoptUnlessRejected, bind_assoc, Prog.conforms_bind, fetchIdentity_conforms]
  refine ⟨rfl, fun reply => ?_⟩
  change Conforms (nameSteps crates) (signInPhase token (identityOfReply crates reply)) _
  cases identityOfReply crates reply with
  | rejected => exact id
  | accepted label => exact adopting_conforms token label
  | unknown => exact adopting_conforms token none

theorem signOut_conforms_names : signOut.Conforms (nameSteps crates) .signingOut := by
  refine ⟨rfl, fun _ => ⟨rfl, fun _ => ?_⟩⟩
  exact settled_conforms (deleteToken_storeCalls.bind fun _ => trivial) fun _ => id

private theorem answered_conforms (token : String) (label : Option String) :
    (nameHolderOf (some token) label).Conforms (nameSteps crates) (.answered token label) := by
  refine ⟨rfl, fun held => ?_⟩
  change Conforms (nameSteps crates) (if held = some token then .naming token label else .releasing)
    (if held ≠ some token then releaseAuthToken
      else writeUserLabel label >>= fun _ => releaseAuthToken : Program Unit)
  by_cases live : held = some token
  · rw [if_pos live, if_neg (not_not_intro live)]
    exact ⟨rfl, fun _ => ⟨rfl, fun _ => id⟩⟩
  · rw [if_neg live, if_pos live]
    exact ⟨rfl, fun _ => id⟩

theorem refreshIdentity_conforms_names :
    (refreshIdentity crates).Conforms (nameSteps crates) .refreshing := by
  refine ⟨rfl, fun copied => ?_⟩
  cases copied with
  | none => exact id
  | some token =>
      change Conforms (nameSteps crates) (.asking token) (fetchIdentity crates token >>= _)
      rw [Prog.conforms_bind, fetchIdentity_conforms]
      refine ⟨rfl, fun reply => ?_⟩
      change Conforms (nameSteps crates) (refreshPhase token (identityOfReply crates reply)) _
      cases identityOfReply crates reply with
      | rejected => exact id
      | accepted label => exact answered_conforms token label
      | unknown => exact id

theorem StartupTask.conforms (task : StartupTask) :
    (task.program crates).Conforms (nameSteps crates) task.firstPhase := by
  cases task with
  | startup => exact startupBlockingWork_conforms
  | signIn token => exact adoptToken_conforms_names token
  | signOut => exact signOut_conforms_names
  | refresh => exact refreshIdentity_conforms_names

/-! ### The invariant -/

variable {ι : Type} [DecidableEq ι]

def namePhases (crates : Crates) (tasks : ι → StartupTask) (config : AgentConfig ι Unit) :
    ι → NamePhase :=
  config.phase (nameSteps crates) fun thread => (tasks thread).firstPhase

/-- The API has answered a request for the token with this label. -/
def ApiNamed (crates : Crates) (config : AgentConfig ι Unit) (token label : String) : Prop :=
  ∃ thread reply, ⟨.send (.me token), reply⟩ ∈ (config.threads thread).log ∧
    identityOfReply crates reply = .accepted (some label)

/-- The name shown is one the API gave for the live token. -/
def NamedByApi (crates : Crates) (config : AgentConfig ι Unit) : Prop :=
  ∀ label, config.shared.userLabel = some label →
    ∃ token, config.shared.authToken = some token ∧ ApiNamed crates config token label

structure NamesFollow (crates : Crates) (tasks : ι → StartupTask) (config : AgentConfig ι Unit)
    (phases : ι → NamePhase) : Prop where
  counted : GuardsCounted (fun thread => (phases thread).HoldsGuard) config.shared.tokenReaders
  own : ∀ thread, (phases thread).Of (tasks thread)
  guarded : ∀ thread token label, phases thread = .naming token label →
    config.shared.authToken = some token
  answered : ∀ thread token label, (phases thread).Carries token label →
    ApiNamed crates config token label
  named : NamedByApi crates config ∨ ∃ thread, (phases thread).OwesLabel

/-- The startup's token write finds no session, or one with that very token. -/
def StartupFindsNoSession (tasks : ι → StartupTask) :
    StepCondition World ι Effect Effect.Reply Unit :=
  fun config thread event => ∀ token, tasks thread = .startup →
    event.action = .writeAuthToken (some token) →
      config.shared.authToken = none ∨ config.shared.authToken = some token

/-- A sign-in writes its name beside its own token, or while another call still
owes its own. -/
def NamesMeetTheirToken (crates : Crates) (tasks : ι → StartupTask) :
    StepCondition World ι Effect Effect.Reply Unit :=
  fun config thread event => ∀ token label, tasks thread = .signIn token →
    event.action = .writeUserLabel (some label) →
      config.shared.authToken = some token ∨
        ∃ other, other ≠ thread ∧ (namePhases crates tasks config other).OwesLabel

variable {tasks : ι → StartupTask} {before after : AgentConfig ι Unit}
variable {phases : ι → NamePhase} {thread : ι}

omit [DecidableEq ι] in
theorem NamesFollow.fresh {start : World} (unnamed : start.userLabel = none) :
    NamesFollow crates tasks
      (Config.fresh start fun thread => (tasks thread).program crates)
      fun thread => (tasks thread).firstPhase := by
  refine ⟨GuardsCounted.none_held fun thread => ?_, fun thread => ?_, ?_, ?_, Or.inl ?_⟩
  · cases tasks thread <;> exact id
  · cases tasks thread <;> first | rfl | trivial
  · intro thread token label phase
    cases task : tasks thread <;> rw [task] at phase <;> cases phase
  · intro thread token label carries
    cases task : tasks thread <;> rw [task] at carries <;>
      rcases carries with h | h | h | h <;> cases h
  · intro label named
    have named : start.userLabel = some label := named
    rw [unnamed] at named
    cases named

theorem ApiNamed.advance {token label : String} {event : AgentEvent} {shared : World}
    {rest : Program Unit} (named : ApiNamed crates before token label) :
    ApiNamed crates (before.advance thread event shared rest) token label := by
  obtain ⟨asker, reply, asked, answered⟩ := named
  exact ⟨asker, reply, Config.mem_log_advance asked, answered⟩

private theorem NamesFollow.of_step (follow : NamesFollow crates tasks before phases)
    {phase : NamePhase}
    (grown : ∀ {token label}, ApiNamed crates before token label →
      ApiNamed crates after token label)
    (counted : GuardsCounted
      (fun other => (Function.update phases thread phase other).HoldsGuard)
      after.shared.tokenReaders)
    (own : phase.Of (tasks thread))
    (token : after.shared.authToken = before.shared.authToken ∨ before.shared.tokenReaders = 0)
    (naming : ∀ token label, phase = .naming token label →
      after.shared.authToken = some token)
    (carries : ∀ token label, phase.Carries token label → ApiNamed crates after token label)
    (named : NamedByApi crates after ∨
      ∃ other, (Function.update phases thread phase other).OwesLabel) :
    NamesFollow crates tasks after (Function.update phases thread phase) := by
  refine ⟨counted, ?_, ?_, ?_, named⟩
  · intro other
    by_cases same : other = thread
    · subst same
      rwa [Function.update_self]
    · rw [Function.update_of_ne same]
      exact follow.own other
  · intro other live label holds
    by_cases same : other = thread
    · subst same
      rw [Function.update_self] at holds
      exact naming live label holds
    · rw [Function.update_of_ne same] at holds
      rcases token with kept | free
      · exact kept.trans (follow.guarded other live label holds)
      · have counted := follow.counted
        rw [free] at counted
        refine absurd ?_ (counted.free other)
        rw [holds]
        trivial
  · intro other live label holds
    by_cases same : other = thread
    · subst same
      rw [Function.update_self] at holds
      exact carries live label holds
    · rw [Function.update_of_ne same] at holds
      exact grown (follow.answered other live label holds)

private theorem NamesFollow.named_kept (follow : NamesFollow crates tasks before phases)
    {phase : NamePhase}
    (grown : ∀ {token label}, ApiNamed crates before token label →
      ApiNamed crates after token label)
    (token : after.shared.authToken = before.shared.authToken)
    (label : after.shared.userLabel = before.shared.userLabel)
    (owed : ¬ (phases thread).OwesLabel) :
    NamedByApi crates after ∨
      ∃ other, (Function.update phases thread phase other).OwesLabel := by
  rcases follow.named with named | ⟨other, owes⟩
  · refine Or.inl fun name shown => ?_
    rw [label] at shown
    obtain ⟨live, held, answered⟩ := named name shown
    exact ⟨live, token.trans held, grown answered⟩
  · refine Or.inr ⟨other, ?_⟩
    rwa [Function.update_of_ne]
    rintro rfl
    exact owed owes

theorem performs_leavesNames {world shared : World} {action : Effect} {reply : action.Reply}
    (kind : action.leavesNames = true) (performed : performs world action reply shared) :
    shared.authToken = world.authToken ∧ shared.userLabel = world.userLabel ∧
      shared.tokenReaders = world.tokenReaders := by
  obtain ⟨token, label, readers, _⟩ := performs_frame performed
  refine ⟨token fun written => ?_, label fun written => ?_, readers ?_ ?_⟩ <;> rintro rfl <;>
    cases kind

private theorem NamesFollow.quiet (follow : NamesFollow crates tasks before phases)
    {phase : NamePhase}
    (grown : ∀ {token label}, ApiNamed crates before token label →
      ApiNamed crates after token label)
    (token : after.shared.authToken = before.shared.authToken)
    (label : after.shared.userLabel = before.shared.userLabel)
    (readers : after.shared.tokenReaders = before.shared.tokenReaders)
    (unguarded : ¬ (phases thread).HoldsGuard ∧ ¬ phase.HoldsGuard)
    (owed : ¬ (phases thread).OwesLabel) (own : phase.Of (tasks thread))
    (carries : ∀ token label, phase.Carries token label → ApiNamed crates after token label) :
    NamesFollow crates tasks after (Function.update phases thread phase) := by
  refine follow.of_step grown ?_ own (Or.inl token) ?_ carries
    (follow.named_kept grown token label owed)
  · rw [readers]
    exact follow.counted.keep (iff_of_false unguarded.2 unguarded.1)
  · rintro live name rfl
    exact absurd trivial unguarded.2

private def NamePhase.Idle : NamePhase → Prop
  | loading => True
  | refreshing => True
  | asking _ => True
  | settled => True
  | _ => False

private theorem NamePhase.Idle.unguarded {phase : NamePhase} (idle : phase.Idle) :
    ¬ phase.HoldsGuard := by
  cases phase with
  | naming => exact idle.elim
  | releasing => exact idle.elim
  | _ => exact id

private theorem NamePhase.Idle.owesNothing {phase : NamePhase} (idle : phase.Idle) :
    ¬ phase.OwesLabel := by
  cases phase with
  | owesLabel => exact idle.elim
  | _ => exact id

private theorem NamePhase.Idle.carriesNothing {phase : NamePhase} (idle : phase.Idle)
    (token label : String) : ¬ phase.Carries token label := by
  rintro (rfl | rfl | rfl | rfl) <;> exact idle

private theorem NamesFollow.idle (follow : NamesFollow crates tasks before phases)
    {phase : NamePhase} {event : AgentEvent} {shared : World} {rest : Program Unit}
    (token : shared.authToken = before.shared.authToken)
    (label : shared.userLabel = before.shared.userLabel)
    (readers : shared.tokenReaders = before.shared.tokenReaders)
    (was : (phases thread).Idle) (idle : phase.Idle) (own : phase.Of (tasks thread)) :
    NamesFollow crates tasks (before.advance thread event shared rest)
      (Function.update phases thread phase) := by
  refine follow.quiet ApiNamed.advance token label readers ⟨was.unguarded, idle.unguarded⟩
    was.owesNothing own ?_
  intro live name carries
  exact absurd carries (idle.carriesNothing live name)

private theorem apiNamed_of_reply {reply : Except String Response} {shared : World}
    {rest : Program Unit} {token label : String}
    (answered : identityOfReply crates reply = .accepted (some label)) :
    ApiNamed crates (before.advance thread ⟨.send (.me token), reply⟩ shared rest) token label :=
  ⟨thread, reply, Config.mem_log_advance_self, answered⟩

private theorem signInPhase_carries {answer : Identity} {token live label : String}
    (carries : (signInPhase token answer).Carries live label) :
    live = token ∧ answer = .accepted (some label) := by
  cases answer with
  | rejected => rcases carries with h | h | h | h <;> cases h
  | accepted name =>
      rcases carries with h | h | h | h <;> cases h
      exact ⟨rfl, rfl⟩
  | unknown => rcases carries with h | h | h | h <;> cases h

private theorem refreshPhase_carries {answer : Identity} {token live label : String}
    (carries : (refreshPhase token answer).Carries live label) :
    live = token ∧ answer = .accepted (some label) := by
  cases answer with
  | rejected => rcases carries with h | h | h | h <;> cases h
  | accepted name =>
      rcases carries with h | h | h | h <;> cases h
      exact ⟨rfl, rfl⟩
  | unknown => rcases carries with h | h | h | h <;> cases h

private theorem NamesFollow.owing (follow : NamesFollow crates tasks before phases)
    {token : Option String} {label : Option String} {rest : Program Unit}
    (unguarded : ¬ (phases thread).HoldsGuard) (free : before.shared.tokenReaders = 0)
    (own : (NamePhase.owesLabel token label).Of (tasks thread))
    (answered : ∀ live name, token = some live → label = some name →
      ApiNamed crates before live name) :
    NamesFollow crates tasks
      (before.advance thread ⟨.writeAuthToken token, ()⟩
        { before.shared with authToken := token } rest)
      (Function.update phases thread (.owesLabel token label)) := by
  refine follow.of_step ApiNamed.advance (follow.counted.keep ?_) own (Or.inr free) ?_ ?_ ?_
  · exact iff_of_false id unguarded
  · intro live name other
    cases other
  · rintro live name (h | h | h | h)
    · cases h
    · obtain ⟨rfl, rfl⟩ := NamePhase.owesLabel.inj h
      exact (answered live name rfl rfl).advance
    · cases h
    · cases h
  · refine Or.inr ⟨thread, ?_⟩
    rw [Function.update_self]
    trivial

private theorem NamesFollow.paid (follow : NamesFollow crates tasks before phases)
    {token label : Option String} {rest : Program Unit}
    (phase : phases thread = .owesLabel token label)
    (met : ∀ live name, token = some live → label = some name →
      before.shared.authToken = some live ∨ ∃ other, other ≠ thread ∧ (phases other).OwesLabel)
    (cleared : token = none → label = none) :
    NamesFollow crates tasks
      (before.advance thread ⟨.writeUserLabel label, ()⟩
        { before.shared with userLabel := label } rest)
      (Function.update phases thread .settled) := by
  refine follow.of_step ApiNamed.advance (follow.counted.keep ?_) trivial (Or.inl rfl) ?_ ?_ ?_
  · rw [phase]
    exact Iff.rfl
  · intro live name other
    cases other
  · rintro live name (h | h | h | h) <;> cases h
  · cases label with
    | none =>
        refine Or.inl fun name shown => ?_
        cases shown
    | some name =>
        cases token with
        | none => cases cleared rfl
        | some live =>
            rcases met live name rfl rfl with held | ⟨other, distinct, owes⟩
            · refine Or.inl fun shown same => ?_
              cases same
              refine ⟨live, held, (follow.answered thread live name ?_).advance⟩
              exact Or.inr (Or.inl phase)
            · refine Or.inr ⟨other, ?_⟩
              rwa [Function.update_of_ne distinct]

private theorem NamesFollow.startup (follow : NamesFollow crates tasks before phases)
    {token : String} {rest : Program Unit} (phase : phases thread = .loading)
    (free : before.shared.tokenReaders = 0)
    (found : before.shared.authToken = none ∨ before.shared.authToken = some token) :
    NamesFollow crates tasks
      (before.advance thread ⟨.writeAuthToken (some token), ()⟩
        { before.shared with authToken := some token } rest)
      (Function.update phases thread .settled) := by
  refine follow.of_step ApiNamed.advance (follow.counted.keep ?_) trivial (Or.inr free) ?_ ?_ ?_
  · rw [phase]
    exact Iff.rfl
  · intro live name other
    cases other
  · rintro live name (h | h | h | h) <;> cases h
  · rcases follow.named with named | ⟨other, owes⟩
    · refine Or.inl fun name shown => ?_
      obtain ⟨live, held, answered⟩ := named name shown
      rcases found with missing | same
      · rw [missing] at held
        cases held
      · exact ⟨live, same.symm.trans held, answered.advance⟩
    · refine Or.inr ⟨other, ?_⟩
      rwa [Function.update_of_ne]
      rintro rfl
      rwa [phase] at owes

private theorem NamesFollow.asked (follow : NamesFollow crates tasks before phases)
    {token : String} {reply : Except String Response} {rest : Program Unit} {phase : NamePhase}
    (was : phases thread = .signingIn token ∨ phases thread = .asking token)
    (unguarded : ¬ phase.HoldsGuard) (own : phase.Of (tasks thread))
    (carries : ∀ live label, phase.Carries live label →
      live = token ∧ identityOfReply crates reply = .accepted (some label)) :
    NamesFollow crates tasks
      (before.advance thread ⟨.send (.me token), reply⟩ before.shared rest)
      (Function.update phases thread phase) := by
  refine follow.quiet ApiNamed.advance rfl rfl rfl ⟨?_, unguarded⟩ ?_ own ?_
  · rcases was with was | was <;> rw [was] <;> exact id
  · rcases was with was | was <;> rw [was] <;> exact id
  · intro live label holds
    obtain ⟨rfl, answered⟩ := carries live label holds
    exact apiNamed_of_reply answered

private theorem signInPhase_of {task : StartupTask} {answer : Identity} {token : String}
    (own : (NamePhase.signingIn token).Of task) : (signInPhase token answer).Of task := by
  cases answer with
  | rejected => trivial
  | accepted label => exact own
  | unknown => exact own

private theorem refreshPhase_of {task : StartupTask} {answer : Identity} {token : String} :
    (refreshPhase token answer).Of task := by
  cases answer <;> trivial

private theorem NamesFollow.held (follow : NamesFollow crates tasks before phases)
    {token : String} {label : Option String} {rest : Program Unit}
    (phase : phases thread = .answered token label) :
    NamesFollow crates tasks
      (before.advance thread ⟨.holdAuthToken, before.shared.authToken⟩
        { before.shared with tokenReaders := before.shared.tokenReaders + 1 } rest)
      (Function.update phases thread
        (if before.shared.authToken = some token then .naming token label else .releasing)) := by
  have kept : ¬ (phases thread).OwesLabel := by
    rw [phase]
    exact id
  refine follow.of_step ApiNamed.advance (follow.counted.acquire ?_) ?_ (Or.inl rfl) ?_ ?_
    (follow.named_kept ApiNamed.advance rfl rfl kept)
  · split <;> trivial
  · split <;> trivial
  · intro live name other
    by_cases still : before.shared.authToken = some token
    · rw [if_pos still] at other
      obtain ⟨rfl, rfl⟩ := NamePhase.naming.inj other
      exact still
    · rw [if_neg still] at other
      cases other
  · intro live name carries
    split at carries
    · rcases carries with h | h | h | h <;> cases h
      exact (follow.answered thread token name (Or.inr (Or.inr (Or.inl phase)))).advance
    · rcases carries with h | h | h | h <;> cases h

private theorem NamesFollow.namedHolder (follow : NamesFollow crates tasks before phases)
    {token : String} {label : Option String} {rest : Program Unit}
    (phase : phases thread = .naming token label) :
    NamesFollow crates tasks
      (before.advance thread ⟨.writeUserLabel label, ()⟩
        { before.shared with userLabel := label } rest)
      (Function.update phases thread .releasing) := by
  refine follow.of_step ApiNamed.advance (follow.counted.keep ?_) trivial (Or.inl rfl) ?_ ?_ ?_
  · rw [phase]
    exact Iff.rfl
  · intro live name other
    cases other
  · rintro live name (h | h | h | h) <;> cases h
  · refine Or.inl ?_
    rintro name rfl
    refine ⟨token, follow.guarded thread token _ phase, ?_⟩
    exact (follow.answered thread token name (Or.inr (Or.inr (Or.inr phase)))).advance

private theorem NamesFollow.released (follow : NamesFollow crates tasks before phases)
    {rest : Program Unit} (phase : phases thread = .releasing) :
    NamesFollow crates tasks
      (before.advance thread ⟨.releaseAuthToken, ()⟩
        { before.shared with tokenReaders := before.shared.tokenReaders - 1 } rest)
      (Function.update phases thread .settled) := by
  have kept : ¬ (phases thread).OwesLabel := by
    rw [phase]
    exact id
  refine follow.of_step ApiNamed.advance (follow.counted.release ?_ id) trivial (Or.inl rfl) ?_ ?_
    (follow.named_kept ApiNamed.advance rfl rfl kept)
  · rw [phase]
    trivial
  · intro live name other
    cases other
  · rintro live name (h | h | h | h) <;> cases h

theorem NamesFollow.step {action : Effect} {reply : action.Reply} {shared : World}
    {rest : Program Unit}
    (follow : NamesFollow crates tasks before (namePhases crates tasks before))
    (allowed : nameAllowed (namePhases crates tasks before thread) action)
    (performed : performs before.shared action reply shared)
    (found : StartupFindsNoSession tasks before thread ⟨action, reply⟩)
    (meet : NamesMeetTheirToken crates tasks before thread ⟨action, reply⟩) :
    NamesFollow crates tasks (before.advance thread ⟨action, reply⟩ shared rest)
      (Function.update (namePhases crates tasks before) thread
        (nameNext crates (namePhases crates tasks before thread) action reply)) := by
  have own := follow.own thread
  cases phase : namePhases crates tasks before thread with
  | loading =>
      rw [phase] at allowed own
      rcases allowed with quiet | ⟨token, rfl⟩
      · obtain ⟨token, label, readers⟩ := performs_leavesNames quiet performed
        rw [nameNext_loading quiet]
        refine follow.idle token label readers ?_ trivial own
        rw [phase]
        trivial
      · obtain ⟨free, rfl⟩ := performed
        exact follow.startup phase free (found token own rfl)
  | signingIn token =>
      rw [phase] at allowed own
      obtain rfl : action = .send (.me token) := allowed
      obtain rfl : shared = before.shared := performed
      refine follow.asked (Or.inl phase) ?_ (signInPhase_of own)
        fun _ _ => signInPhase_carries
      change ¬ (signInPhase token (identityOfReply crates reply)).HoldsGuard
      cases identityOfReply crates reply <;> exact id
  | adopting token label =>
      rw [phase] at allowed own
      obtain rfl : action = .writeAuthToken (some token) := allowed
      obtain ⟨free, rfl⟩ := performed
      refine follow.owing ?_ free own ?_
      · rw [phase]
        exact id
      · rintro live name ⟨rfl⟩ rfl
        exact follow.answered thread token name (Or.inl phase)
  | signingOut =>
      rw [phase] at allowed
      obtain rfl : action = .writeAuthToken none := allowed
      obtain ⟨free, rfl⟩ := performed
      refine follow.owing ?_ free rfl ?_
      · rw [phase]
        exact id
      · intro live name same
        cases same
  | owesLabel token label =>
      rw [phase] at allowed own
      obtain rfl : action = .writeUserLabel label := allowed
      obtain rfl : shared = { before.shared with userLabel := label } := performed
      refine follow.paid phase ?_ ?_
      · rintro live name rfl rfl
        exact meet live name own rfl
      · rintro rfl
        exact own
  | refreshing =>
      rw [phase] at allowed
      obtain rfl : action = .readAuthToken := allowed
      obtain ⟨_, rfl⟩ := performed
      refine follow.idle rfl rfl rfl ?_ ?_ ?_
      · rw [phase]
        trivial
      · cases reply <;> trivial
      · cases reply <;> trivial
  | asking token =>
      rw [phase] at allowed
      obtain rfl : action = .send (.me token) := allowed
      obtain rfl : shared = before.shared := performed
      refine follow.asked (Or.inr phase) ?_ refreshPhase_of fun _ _ => refreshPhase_carries
      change ¬ (refreshPhase token (identityOfReply crates reply)).HoldsGuard
      cases identityOfReply crates reply <;> exact id
  | answered token label =>
      rw [phase] at allowed
      obtain rfl : action = .holdAuthToken := allowed
      obtain ⟨rfl, rfl⟩ := performed
      exact follow.held phase
  | naming token label =>
      rw [phase] at allowed
      obtain rfl : action = .writeUserLabel label := allowed
      obtain rfl : shared = { before.shared with userLabel := label } := performed
      exact follow.namedHolder phase
  | releasing =>
      rw [phase] at allowed
      obtain rfl : action = .releaseAuthToken := allowed
      obtain rfl : shared = { before.shared with tokenReaders := before.shared.tokenReaders - 1 } :=
        performed
      exact follow.released phase
  | settled =>
      rw [phase] at allowed
      obtain ⟨token, label, readers⟩ := performs_leavesNames allowed performed
      refine follow.idle token label readers ?_ trivial trivial
      rw [phase]
      trivial

/-! ### Runs -/

def StartupKeepsOff (crates : Crates) (tasks : ι → StartupTask) :
    StepCondition World ι Effect Effect.Reply Unit :=
  fun config thread event => StartupFindsNoSession tasks config thread event ∧
    NamesMeetTheirToken crates tasks config thread event

def OnlyStartupWrites (tasks : ι → StartupTask) :
    StepCondition World ι Effect Effect.Reply Unit :=
  fun _ thread event => ∀ token, event.action = .writeAuthToken token → tasks thread = .startup

theorem NamesFollow.reached {initial config : AgentConfig ι Unit}
    (reached : Reaches (agentSemantics ι) (StartupKeepsOff crates tasks) initial config)
    (follows : initial.Follows (nameSteps crates) fun thread => (tasks thread).firstPhase)
    (follow : NamesFollow crates tasks initial (namePhases crates tasks initial)) :
    config.Follows (nameSteps crates) (fun thread => (tasks thread).firstPhase) ∧
      NamesFollow crates tasks config (namePhases crates tasks config) := by
  refine reached.invariant_config
    (fun config => NamesFollow crates tasks config (namePhases crates tasks config))
    follows follow ?_
  intro before thread action next reply shared _follows follow _pending allowed performed met
  rw [namePhases, Config.phase_advance]
  exact follow.step allowed performed met.1 met.2

omit [DecidableEq ι] in
private theorem startup_writes_loaded {token : Option String} {config : AgentConfig ι Unit}
    (follow : NamesFollow crates tasks config (namePhases crates tasks config))
    (isStartup : tasks thread = .startup)
    (allowed : nameAllowed (namePhases crates tasks config thread) (.writeAuthToken token)) :
    ∃ loaded, token = some loaded := by
  have own := follow.own thread
  cases phase : namePhases crates tasks config thread with
  | loading =>
      rw [phase] at allowed
      rcases allowed with quiet | ⟨loaded, same⟩
      · cases quiet
      · exact ⟨loaded, Effect.writeAuthToken.inj same⟩
  | signingOut =>
      rw [phase] at own
      have isSignOut : tasks thread = .signOut := own
      rw [isStartup] at isSignOut
      cases isSignOut
  | adopting adopted label =>
      rw [phase] at allowed
      exact ⟨adopted, Effect.writeAuthToken.inj allowed⟩
  | _ =>
      rw [phase] at allowed
      cases allowed

private theorem session_kept {initial later : AgentConfig ι Unit} {token : String}
    (follows : initial.Follows (nameSteps crates) fun thread => (tasks thread).firstPhase)
    (follow : NamesFollow crates tasks initial (namePhases crates tasks initial))
    (reached : Reaches (agentSemantics ι) (fun config thread event =>
      StartupKeepsOff crates tasks config thread event ∧
        OnlyStartupWrites tasks config thread event) initial later)
    (live : initial.shared.authToken = some token) :
    later.shared.authToken = some token := by
  have kept := reached.invariant_config
    (fun config => NamesFollow crates tasks config (namePhases crates tasks config) ∧
      config.shared.authToken = some token) follows ⟨follow, live⟩ ?_
  · exact kept.2.2
  intro before thread action next reply shared _follows holds _pending allowed performed met
  obtain ⟨follow, live⟩ := holds
  constructor
  · rw [namePhases, Config.phase_advance]
    exact follow.step allowed performed met.1.1 met.1.2
  · by_cases written : ∃ token, action = .writeAuthToken token
    · obtain ⟨found, rfl⟩ := written
      have isStartup := met.2 found rfl
      obtain ⟨loaded, rfl⟩ := startup_writes_loaded follow isStartup allowed
      obtain ⟨_, rfl⟩ := performed
      rcases met.1.1 loaded isStartup rfl with missing | same
      · rw [live] at missing
        cases missing
      · exact same.symm.trans live
    · exact ((performs_frame performed).1 fun token same => written ⟨token, same⟩).trans live

/-- No adopted session is replaced by the stored token: while only the startup
writes the token, the session a sign-in took up stays. -/
def AdoptedSessionsStay (tasks : ι → StartupTask)
    (meets : StepCondition World ι Effect Effect.Reply Unit) (config : AgentConfig ι Unit) :
    Prop :=
  ∀ (adopted later : AgentConfig ι Unit) (adopter : ι) (token : String),
    tasks adopter = .signIn token →
    Step (agentSemantics ι) config adopter ⟨.writeAuthToken (some token), ()⟩ adopted →
    meets config adopter ⟨.writeAuthToken (some token), ()⟩ →
    Reaches (agentSemantics ι) (fun config thread event =>
      meets config thread event ∧ OnlyStartupWrites tasks config thread event) adopted later →
    later.shared.authToken = some token

/-- The stored token never displaces a newer session, and the name shown at the
end is one the API gave for the live token, in every run where the startup's
write finds no session and every name meets its token. -/
theorem startup_keeps_newer_session (crates : Crates) (tasks : ι → StartupTask) (start : World)
    (signedOut : start.authToken = none ∧ start.userLabel = none) (config : AgentConfig ι Unit)
    (reached : Reaches (agentSemantics ι) (StartupKeepsOff crates tasks)
      (Config.fresh start fun thread => (tasks thread).program crates) config) :
    AdoptedSessionsStay tasks (StartupKeepsOff crates tasks) config ∧
      (config.Quiescent → NamedByApi crates config) := by
  have whole := NamesFollow.reached reached (fun thread => (tasks thread).conforms)
    (NamesFollow.fresh signedOut.2)
  constructor
  · intro adopted later adopter token _isSignIn taken met since
    have next := NamesFollow.reached ((Reaches.refl config).step taken met) whole.1 whole.2
    refine session_kept next.1 next.2 since ?_
    cases taken with
    | perform pending performed =>
        obtain ⟨_, rfl⟩ := performed
        rfl
  · intro quiescent
    refine whole.2.named.resolve_right ?_
    rintro ⟨thread, owes⟩
    obtain ⟨result, ended⟩ := quiescent thread
    exact whole.1.finished ended owes

/-! A sign-in by another person while the startup waits for the keyring. -/

private def startupAndBob : Option Bool → StartupTask
  | none => .startup
  | some true => .signIn "bob-token"
  | some false => .refresh

private def oldTokenStored : World := World.firstStart.setKeyring .authToken (some "old-token")

private def bobNamed : Value :=
  .object [("data", .object [("attributes", .object [("first_name", .string "Bob")])])]

theorem startup_displaces_session :
    (¬ ∀ (crates : Crates) (ι : Type) [DecidableEq ι] (tasks : ι → StartupTask) (start : World)
        (config : AgentConfig ι Unit),
      start.authToken = none ∧ start.userLabel = none →
      Reaches (agentSemantics ι) AnyStep
        (Config.fresh start fun thread => (tasks thread).program crates) config →
      AdoptedSessionsStay tasks AnyStep config) ∧
    ¬ ∀ (crates : Crates) (ι : Type) [DecidableEq ι] (tasks : ι → StartupTask) (start : World)
        (config : AgentConfig ι Unit),
      start.authToken = none ∧ start.userLabel = none →
      Reaches (agentSemantics ι) AnyStep
        (Config.fresh start fun thread => (tasks thread).program crates) config →
      config.Quiescent → NamedByApi crates config := by
  have started : Reaches (agentSemantics (Option Bool)) AnyStep
      (Config.fresh oldTokenStored fun thread => (startupAndBob thread).program .uncalled) _ :=
    Reaches.refl _
  have noFile := started.perform none ⟨.fileRead .authToken, none⟩ rfl ⟨rfl, rfl⟩ trivial
  have opened := noFile.perform none ⟨.openEntry .authToken, .ok ()⟩ rfl rfl trivial
  have loaded := opened.perform none ⟨.getPassword .authToken, .ok "old-token"⟩ rfl
    ⟨rfl, rfl⟩ trivial
  have asked := loaded.perform (some true)
    ⟨.send (.me "bob-token"), .ok ⟨200, .ok bobNamed⟩⟩ rfl rfl trivial
  have adopted := asked.perform (some true) ⟨.writeAuthToken (some "bob-token"), ()⟩ rfl
    ⟨rfl, rfl⟩ trivial
  constructor
  · intro claim
    have named := (adopted.anew fun config thread event => AnyStep config thread event ∧
        OnlyStartupWrites startupAndBob config thread event).perform (some true)
      ⟨.writeUserLabel (some "Bob"), ()⟩ rfl rfl ⟨trivial, fun _ other => by cases other⟩
    have displaced := named.perform none ⟨.writeAuthToken (some "old-token"), ()⟩ rfl ⟨rfl, rfl⟩
      ⟨trivial, fun _ _ => rfl⟩
    have kept := claim .uncalled (Option Bool) startupAndBob oldTokenStored _ ⟨rfl, rfl⟩ asked
      _ _ (some true) "bob-token" rfl (.perform rfl ⟨rfl, rfl⟩) trivial displaced
    exact absurd (Option.some.inj kept) (by decide)
  · intro claim
    have named := adopted.perform (some true) ⟨.writeUserLabel (some "Bob"), ()⟩ rfl rfl trivial
    have announced := named.perform (some true) ⟨.notifyTokenAcquired, ()⟩ rfl rfl trivial
    have reopened := announced.perform (some true) ⟨.openEntry .authToken, .ok ()⟩ rfl rfl trivial
    have saved := reopened.perform (some true) ⟨.setPassword .authToken "bob-token", .ok ()⟩ rfl
      rfl trivial
    have signedIn := saved.perform (some true) ⟨.fileDelete .authToken, ()⟩ rfl rfl trivial
    have displaced := signedIn.perform none ⟨.writeAuthToken (some "old-token"), ()⟩ rfl
      ⟨rfl, rfl⟩ trivial
    have notified := displaced.perform none ⟨.notifyTokenAcquired, ()⟩ rfl rfl trivial
    have spawned := notified.perform none ⟨.spawnRefreshIdentity, ()⟩ rfl rfl trivial
    have copied := spawned.perform (some false) ⟨.readAuthToken, some "old-token"⟩ rfl ⟨rfl, rfl⟩
      trivial
    have unanswered := copied.perform (some false)
      ⟨.send (.me "old-token"), .error "timed out"⟩ rfl rfl trivial
    obtain ⟨token, live, asker, reply, member, answered⟩ :=
      claim .uncalled (Option Bool) startupAndBob oldTokenStored _ ⟨rfl, rfl⟩ unanswered
        (by rintro (_ | _ | _) <;> exact ⟨(), rfl⟩) "Bob" rfl
    obtain rfl : "old-token" = token := Option.some.inj live
    rcases asker with _ | _ | _
    · change _ ∈ [_, _, _, _, _, _] at member
      simp at member
    · change _ ∈ [_, _] at member
      simp at member
      subst member
      cases answered
    · change _ ∈ [_, _, _, _, _, _, _] at member
      simp at member

omit [DecidableEq ι] in
private theorem keepsOff_of_silent [DecidableEq ι] {config : AgentConfig ι Unit}
    {event : AgentEvent} (token : ∀ token, event.action ≠ .writeAuthToken token)
    (label : ∀ label, event.action ≠ .writeUserLabel label) :
    StartupKeepsOff crates tasks config thread event :=
  ⟨fun _ _ written => absurd written (token _), fun _ _ _ written => absurd written (label _)⟩

/-- The same tasks, with the stored token loaded before the sign-in. -/
theorem startup_keeps_newer_session_in_turn :
    ∃ config : AgentConfig (Option Bool) Unit, config.shared.authToken = some "bob-token" ∧
      NamedByApi .uncalled config := by
  have started : Reaches (agentSemantics (Option Bool)) (StartupKeepsOff .uncalled startupAndBob)
      (Config.fresh oldTokenStored fun thread => (startupAndBob thread).program .uncalled) _ :=
    Reaches.refl _
  have noFile := started.perform none ⟨.fileRead .authToken, none⟩ rfl ⟨rfl, rfl⟩
    (keepsOff_of_silent (by simp) (by simp))
  have opened := noFile.perform none ⟨.openEntry .authToken, .ok ()⟩ rfl rfl
    (keepsOff_of_silent (by simp) (by simp))
  have loaded := opened.perform none ⟨.getPassword .authToken, .ok "old-token"⟩ rfl ⟨rfl, rfl⟩
    (keepsOff_of_silent (by simp) (by simp))
  have placed := loaded.perform none ⟨.writeAuthToken (some "old-token"), ()⟩ rfl ⟨rfl, rfl⟩
    ⟨fun _ _ _ => Or.inl rfl, fun _ _ _ other => by cases other⟩
  have notified := placed.perform none ⟨.notifyTokenAcquired, ()⟩ rfl rfl
    (keepsOff_of_silent (by simp) (by simp))
  have spawned := notified.perform none ⟨.spawnRefreshIdentity, ()⟩ rfl rfl
    (keepsOff_of_silent (by simp) (by simp))
  have copied := spawned.perform (some false) ⟨.readAuthToken, some "old-token"⟩ rfl ⟨rfl, rfl⟩
    (keepsOff_of_silent (by simp) (by simp))
  have unanswered := copied.perform (some false) ⟨.send (.me "old-token"), .error "timed out"⟩
    rfl rfl (keepsOff_of_silent (by simp) (by simp))
  have asked := unanswered.perform (some true)
    ⟨.send (.me "bob-token"), .ok ⟨200, .ok bobNamed⟩⟩ rfl rfl
    (keepsOff_of_silent (by simp) (by simp))
  have adopted := asked.perform (some true) ⟨.writeAuthToken (some "bob-token"), ()⟩ rfl
    ⟨rfl, rfl⟩ ⟨fun _ other => (by cases other), fun _ _ _ other => by cases other⟩
  have named := adopted.perform (some true) ⟨.writeUserLabel (some "Bob"), ()⟩ rfl rfl
    ⟨fun _ other => (by cases other), fun token _ same _ => by cases same; exact Or.inl rfl⟩
  have announced := named.perform (some true) ⟨.notifyTokenAcquired, ()⟩ rfl rfl
    (keepsOff_of_silent (by simp) (by simp))
  have reopened := announced.perform (some true) ⟨.openEntry .authToken, .ok ()⟩ rfl rfl
    (keepsOff_of_silent (by simp) (by simp))
  have saved := reopened.perform (some true) ⟨.setPassword .authToken "bob-token", .ok ()⟩ rfl
    rfl (keepsOff_of_silent (by simp) (by simp))
  have signedIn := saved.perform (some true) ⟨.fileDelete .authToken, ()⟩ rfl rfl
    (keepsOff_of_silent (by simp) (by simp))
  refine ⟨_, rfl, (startup_keeps_newer_session .uncalled startupAndBob oldTokenStored ⟨rfl, rfl⟩ _
    signedIn).2 ?_⟩
  rintro (_ | _ | _) <;> exact ⟨(), rfl⟩

end KlaayGuard
