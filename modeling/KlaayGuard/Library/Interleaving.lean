/-
Interleaved runs of several programs over one shared state.

Every thread holds a program and the log of what it has done.  A step lets one
thread perform its next action.  A protocol is an automaton over actions and
replies: a thread whose program conforms to one performs only actions the
automaton allows, so an invariant needs to be checked against the automaton's
few states and never against the programs.

Runs may be restricted to steps that meet a condition on the configuration
before the step; the unrestricted runs are those whose condition is `True`.
-/

import Mathlib.Logic.Function.Basic
import Mathlib.Logic.Relation
import KlaayGuard.Library.EffectProgram

set_option autoImplicit false

namespace EffectProgram

variable {Action : Type} {Reply : Action → Type} {α β State Phase ι : Type}

structure Thread (Action : Type) (Reply : Action → Type) (α : Type) : Type where
  log : List (Event Action Reply)
  rest : Prog Action Reply α

structure Config (State ι Action : Type) (Reply : Action → Type) (α : Type) : Type where
  shared : State
  threads : ι → Thread Action Reply α

def Config.fresh (shared : State) (programs : ι → Prog Action Reply α) :
    Config State ι Action Reply α :=
  { shared := shared
    threads := fun thread => { log := [], rest := programs thread } }

/-- Which replies an action of a thread may receive, and the state it leaves. -/
abbrev Semantics (State ι Action : Type) (Reply : Action → Type) : Type :=
  ι → State → (action : Action) → Reply action → State → Prop

abbrev StepCondition (State ι Action : Type) (Reply : Action → Type) (α : Type) : Type :=
  Config State ι Action Reply α → ι → Event Action Reply → Prop

variable [DecidableEq ι]

def Config.advance (config : Config State ι Action Reply α) (thread : ι)
    (event : Event Action Reply) (shared : State) (rest : Prog Action Reply α) :
    Config State ι Action Reply α :=
  { shared := shared
    threads := Function.update config.threads thread
      { log := (config.threads thread).log ++ [event], rest := rest } }

inductive Step (semantics : Semantics State ι Action Reply) :
    Config State ι Action Reply α → ι → Event Action Reply →
      Config State ι Action Reply α → Prop where
  | perform {config : Config State ι Action Reply α} {thread : ι} {action : Action}
      {next : Reply action → Prog Action Reply α} {reply : Reply action} {shared : State}
      (pending : (config.threads thread).rest = .act action next)
      (performed : semantics thread config.shared action reply shared) :
      Step semantics config thread ⟨action, reply⟩
        (config.advance thread ⟨action, reply⟩ shared (next reply))

/-- Configurations reached by steps that all meet the condition. -/
def Reaches (semantics : Semantics State ι Action Reply)
    (meets : StepCondition State ι Action Reply α) :
    Config State ι Action Reply α → Config State ι Action Reply α → Prop :=
  Relation.ReflTransGen fun before after =>
    ∃ thread event, Step semantics before thread event after ∧ meets before thread event

/-- No condition on the steps: every interleaving. -/
def AnyStep : StepCondition State ι Action Reply α := fun _ _ _ => True

/-- Every thread has finished its program. -/
def Config.Quiescent (config : Config State ι Action Reply α) : Prop :=
  ∀ thread, ∃ result, (config.threads thread).rest = .done result

variable {semantics : Semantics State ι Action Reply}
variable {meets : StepCondition State ι Action Reply α}

theorem Reaches.refl (config : Config State ι Action Reply α) :
    Reaches semantics meets config config := Relation.ReflTransGen.refl

theorem Reaches.step {start config after : Config State ι Action Reply α} {thread : ι}
    {event : Event Action Reply} (reached : Reaches semantics meets start config)
    (taken : Step semantics config thread event after) (met : meets config thread event) :
    Reaches semantics meets start after :=
  Relation.ReflTransGen.tail reached ⟨thread, event, taken, met⟩

theorem Reaches.perform {start config : Config State ι Action Reply α} {shared : State}
    (reached : Reaches semantics meets start config) (thread : ι) (event : Event Action Reply)
    {next : Reply event.action → Prog Action Reply α}
    (pending : (config.threads thread).rest = .act event.action next)
    (performed : semantics thread config.shared event.action event.reply shared)
    (met : meets config thread event) :
    Reaches semantics meets start (config.advance thread event shared (next event.reply)) :=
  reached.step (.perform pending performed) met

theorem Reaches.anew {start config : Config State ι Action Reply α}
    (_reached : Reaches semantics meets start config)
    (other : StepCondition State ι Action Reply α) : Reaches semantics other config config :=
  Reaches.refl config

theorem Reaches.mono {weaker : StepCondition State ι Action Reply α}
    {start config : Config State ι Action Reply α}
    (reached : Reaches semantics meets start config)
    (weaken : ∀ before thread event, meets before thread event → weaker before thread event) :
    Reaches semantics weaker start config := by
  induction reached with
  | refl => exact Reaches.refl _
  | tail _ last ih =>
      obtain ⟨thread, event, taken, met⟩ := last
      exact ih.step taken (weaken _ thread event met)

/-- The invariant rule without a protocol: what every step keeps, a run keeps. -/
theorem Reaches.keeps (Keeps : Config State ι Action Reply α → Prop)
    {start config : Config State ι Action Reply α}
    (reached : Reaches semantics meets start config) (holds : Keeps start)
    (preserved : ∀ (before : Config State ι Action Reply α) thread (event : Event Action Reply)
      shared rest, Keeps before → semantics thread before.shared event.action event.reply shared →
      Keeps (before.advance thread event shared rest)) : Keeps config := by
  induction reached with
  | refl => exact holds
  | tail _ last ih =>
      obtain ⟨thread, event, taken, _met⟩ := last
      cases taken with
      | perform pending performed => exact preserved _ _ _ _ _ ih performed

/-- Every thread goes on performing only its own kind of actions. -/
theorem Step.only {kinds : ι → Action → Prop} {before after : Config State ι Action Reply α}
    {thread : ι} {event : Event Action Reply} (taken : Step semantics before thread event after)
    (only : ∀ other, (before.threads other).rest.Only (kinds other)) (other : ι) :
    (after.threads other).rest.Only (kinds other) := by
  cases taken with
  | perform pending performed =>
      by_cases same : other = thread
      · subst same
        have acting := only other
        rw [pending, Prog.only_act] at acting
        simp only [Config.advance, Function.update_self]
        exact acting.2 _
      · simp only [Config.advance, Function.update_of_ne same]
        exact only other

theorem Reaches.only {kinds : ι → Action → Prop} {start config : Config State ι Action Reply α}
    (reached : Reaches semantics meets start config)
    (only : ∀ thread, (start.threads thread).rest.Only (kinds thread)) :
    ∀ thread, (config.threads thread).rest.Only (kinds thread) := by
  induction reached with
  | refl => exact only
  | tail _ last ih =>
      obtain ⟨acting, event, taken, _met⟩ := last
      exact taken.only ih

/-- What some of the threads see, with a part of the shared state as all there is. -/
def Config.project {Part κ : Type} (config : Config State ι Action Reply α)
    (view : State → Part) (inside : κ → ι) : Config Part κ Action Reply α :=
  { shared := view config.shared
    threads := fun thread => config.threads (inside thread) }

section Project

variable {Part κ : Type} [DecidableEq κ] {view : State → Part} {inside : κ → ι}
variable {config : Config State ι Action Reply α} {event : Event Action Reply}
variable {shared : State} {rest : Prog Action Reply α}

theorem Config.project_advance (apart : Function.Injective inside) (thread : κ) :
    (config.advance (inside thread) event shared rest).project view inside =
      (config.project view inside).advance thread event (view shared) rest := by
  simp only [project, advance]
  congr 1
  exact Function.update_comp_eq_of_injective _ apart thread _

omit [DecidableEq κ] in
theorem Config.project_advance_outside {thread : ι} (outside : ∀ member, inside member ≠ thread)
    (same : view shared = view config.shared) :
    (config.advance thread event shared rest).project view inside =
      config.project view inside := by
  simp only [project, advance, same]
  congr 1
  exact Function.update_comp_eq_of_forall_ne _ _ outside

/-- Threads that act on a part of the state which the others leave alone run as if there were
nothing else. -/
theorem Reaches.project {part : Semantics Part κ Action Reply}
    {others : StepCondition Part κ Action Reply α} {start config : Config State ι Action Reply α}
    (reached : Reaches semantics meets start config) (apart : Function.Injective inside)
    (own : ∀ thread state action reply after,
      semantics (inside thread) state action reply after →
        part thread (view state) action reply (view after))
    (outside : ∀ thread state action reply after, (∀ member, inside member ≠ thread) →
      semantics thread state action reply after → view after = view state)
    (met : ∀ before thread event, meets before (inside thread) event →
      others (before.project view inside) thread event) :
    Reaches part others (start.project view inside) (config.project view inside) := by
  induction reached with
  | refl => exact Reaches.refl _
  | tail _ last ih =>
      obtain ⟨thread, event, taken, meetsNow⟩ := last
      cases taken with
      | @perform action next reply shared pending performed =>
          by_cases member : ∃ mine, inside mine = thread
          · obtain ⟨mine, rfl⟩ := member
            rw [Config.project_advance apart]
            exact ih.perform mine ⟨action, reply⟩ pending (own mine _ action reply shared performed)
              (met _ mine _ meetsNow)
          · have elsewhere : ∀ mine, inside mine ≠ thread := fun mine same => member ⟨mine, same⟩
            rw [Config.project_advance_outside elsewhere
              (outside thread _ action reply shared elsewhere performed)]
            exact ih

end Project

/-! ### Protocols -/

/-- An automaton over the actions a thread performs and the replies it gets. -/
structure Protocol (Action : Type) (Reply : Action → Type) (Phase α : Type) : Type where
  allowed : Phase → Action → Prop
  next : Phase → (action : Action) → Reply action → Phase
  finished : Phase → α → Prop

/-- The program performs only allowed actions, whatever replies it receives,
and finishes only in phases that may finish with its result. -/
def Prog.Conforms (protocol : Protocol Action Reply Phase α) :
    Phase → Prog Action Reply α → Prop
  | phase, .done result => protocol.finished phase result
  | phase, .act action next =>
      protocol.allowed phase action ∧
        ∀ reply, (next reply).Conforms protocol (protocol.next phase action reply)

variable {protocol : Protocol Action Reply Phase α}

@[simp] theorem Prog.conforms_done {phase : Phase} {result : α} :
    (Prog.done result : Prog Action Reply α).Conforms protocol phase ↔
      protocol.finished phase result := Iff.rfl

@[simp] theorem Prog.conforms_act {phase : Phase} {action : Action}
    {next : Reply action → Prog Action Reply α} :
    (Prog.act action next).Conforms protocol phase ↔
      protocol.allowed phase action ∧
        ∀ reply, (next reply).Conforms protocol (protocol.next phase action reply) := Iff.rfl

/-- A sequence conforms when its first program does, finishing only where the
program that follows conforms. -/
theorem Prog.conforms_bind {protocol : Protocol Action Reply Phase β} {phase : Phase}
    {program : Prog Action Reply α} {continuation : α → Prog Action Reply β} :
    (program >>= continuation).Conforms protocol phase ↔
      program.Conforms
        { allowed := protocol.allowed
          next := protocol.next
          finished := fun phase result => (continuation result).Conforms protocol phase }
        phase := by
  induction program generalizing phase with
  | done result => rfl
  | act action next ih => simp only [act_bind, conforms_act, ih]

/-- The rule of a sequence: its second program conforms from every phase the
first one may end in. -/
theorem Prog.Conforms.bind {protocol : Protocol Action Reply Phase β} {phase : Phase}
    {ends : Phase → α → Prop} {program : Prog Action Reply α}
    {continuation : α → Prog Action Reply β}
    (first : program.Conforms
      { allowed := protocol.allowed, next := protocol.next, finished := ends } phase)
    (second : ∀ phase result, ends phase result →
      (continuation result).Conforms protocol phase) :
    (program >>= continuation).Conforms protocol phase := by
  induction program generalizing phase with
  | done result => exact second phase result first
  | act action next ih => exact ⟨first.1, fun reply => ih reply (first.2 reply)⟩

/-- A program of actions that all keep an invariant of the phases conforms where
the invariant holds. -/
theorem Prog.Only.conforms_of_invariant (Inv : Phase → Prop) {kind : Action → Prop} {phase : Phase}
    {program : Prog Action Reply α} (only : program.Only kind)
    (allowed : ∀ phase action, Inv phase → kind action → protocol.allowed phase action)
    (kept : ∀ phase action reply, Inv phase → kind action → Inv (protocol.next phase action reply))
    (finished : ∀ phase result, Inv phase → protocol.finished phase result) (start : Inv phase) :
    program.Conforms protocol phase := by
  induction program generalizing phase with
  | done result => exact finished phase result start
  | act action next ih =>
      exact ⟨allowed phase action start only.1, fun reply =>
        ih reply (only.2 reply) (kept phase action reply start only.1)⟩

/-- A program whose actions all keep a phase conforms from it. -/
theorem Prog.Only.conforms {kind : Action → Prop} {phase : Phase} {program : Prog Action Reply α}
    (only : program.Only kind)
    (allowed : ∀ action, kind action → protocol.allowed phase action)
    (kept : ∀ action reply, kind action → protocol.next phase action reply = phase)
    (finished : ∀ result, protocol.finished phase result) :
    program.Conforms protocol phase := by
  apply only.conforms_of_invariant (· = phase)
  · rintro _ action rfl isKind
    exact allowed action isKind
  · rintro _ action reply rfl isKind
    exact kept action reply isKind
  · rintro _ result rfl
    exact finished result
  · rfl

/-- What has been performed so far, as a phase: the automaton that allows an
action by what came before it. -/
def historyProtocol (allowed : List (Event Action Reply) → Action → Prop)
    (finished : List (Event Action Reply) → α → Prop) :
    Protocol Action Reply (List (Event Action Reply)) α :=
  { allowed := allowed
    next := fun history action reply => history ++ [⟨action, reply⟩]
    finished := finished }

/-- Every action of a run of a conforming program is allowed by the events
before it. -/
theorem Prog.Conforms.allowed {allowed : List (Event Action Reply) → Action → Prop}
    {finished : List (Event Action Reply) → α → Prop}
    {sequential : State → (action : Action) → Reply action → State → Prop}
    {program : Prog Action Reply α} {history before after : List (Event Action Reply)}
    {event : Event Action Reply} {start reached : State}
    (conforms : program.Conforms (historyProtocol allowed finished) history)
    (run : Begins sequential program start (before ++ event :: after) reached) :
    allowed (history ++ before) event.action := by
  induction before generalizing program history start with
  | nil =>
      cases run with
      | act performed rest =>
          rw [List.append_nil]
          exact conforms.1
  | cons head tail ih =>
      cases run with
      | act performed rest =>
          have later := ih (conforms.2 _) rest
          rw [List.append_cons]
          exact later

/-- A thread that conforms to what its own history allows: so far it has done
only what the events before allowed, and it goes on from its log. -/
theorem Reaches.history {allowed : List (Event Action Reply) → Action → Prop}
    {finished : List (Event Action Reply) → α → Prop} {shared : State}
    {programs : ι → Prog Action Reply α} {config : Config State ι Action Reply α} {watched : ι}
    (reached : Reaches semantics meets (Config.fresh shared programs) config)
    (conforms : (programs watched).Conforms (historyProtocol allowed finished) []) :
    (config.threads watched).rest.Conforms (historyProtocol allowed finished)
        (config.threads watched).log ∧
      ∀ before event later, (config.threads watched).log = before ++ event :: later →
        allowed before event.action := by
  induction reached with
  | refl => exact ⟨conforms, fun before event later split => by simp [Config.fresh] at split⟩
  | tail _ last ih =>
      obtain ⟨thread, event, taken, _met⟩ := last
      cases taken with
      | @perform action next reply after pending performed =>
          by_cases same : watched = thread
          · subst same
            obtain ⟨goesOn, permitted⟩ := ih
            rw [pending, Prog.conforms_act] at goesOn
            simp only [Config.advance, Function.update_self]
            refine ⟨goesOn.2 reply, fun before event later split => ?_⟩
            rcases List.eq_nil_or_concat later with rfl | ⟨initial, final, rfl⟩
            · obtain ⟨rfl, same⟩ := List.append_inj' split rfl
              cases same
              exact goesOn.1
            · rw [List.concat_eq_append, ← List.cons_append, ← List.append_assoc] at split
              exact permitted _ _ _ (List.append_inj' split rfl).1
          · simp only [Config.advance, Function.update_of_ne same]
            exact ih

def Config.phase (config : Config State ι Action Reply α)
    (protocol : Protocol Action Reply Phase α) (start : ι → Phase) (thread : ι) : Phase :=
  (config.threads thread).log.foldl
    (fun phase event => protocol.next phase event.action event.reply) (start thread)

omit [DecidableEq ι] in
theorem Config.phase_fresh (shared : State) (programs : ι → Prog Action Reply α)
    (start : ι → Phase) :
    (Config.fresh shared programs).phase protocol start = start := rfl

omit [DecidableEq ι] in
/-- What every move of the automaton keeps holds of the phase of any log. -/
theorem Config.phase_keeps {start : ι → Phase} (Keeps : Phase → Prop)
    (config : Config State ι Action Reply α) {thread : ι} (begins : Keeps (start thread))
    (kept : ∀ phase action reply, Keeps phase → Keeps (protocol.next phase action reply)) :
    Keeps (config.phase protocol start thread) := by
  have folded : ∀ (events : List (Event Action Reply)) (phase : Phase), Keeps phase →
      Keeps (events.foldl
        (fun phase event => protocol.next phase event.action event.reply) phase) := by
    intro events
    induction events with
    | nil => exact fun _ keeps => keeps
    | cons event events ih => exact fun phase keeps => ih _ (kept phase _ _ keeps)
  exact folded _ _ begins

theorem Config.phase_advance (config : Config State ι Action Reply α) (thread : ι)
    (event : Event Action Reply) (shared : State) (rest : Prog Action Reply α)
    (start : ι → Phase) :
    (config.advance thread event shared rest).phase protocol start =
      Function.update (config.phase protocol start) thread
        (protocol.next (config.phase protocol start thread) event.action event.reply) := by
  funext other
  by_cases same : other = thread
  · subst other
    simp only [phase, advance, Function.update_self, List.foldl_append, List.foldl_cons,
      List.foldl_nil]
  · simp only [phase, advance, Function.update_of_ne same]

theorem Config.mem_log_advance {config : Config State ι Action Reply α} {thread other : ι}
    {event earlier : Event Action Reply} {shared : State} {rest : Prog Action Reply α}
    (member : earlier ∈ (config.threads other).log) :
    earlier ∈ ((config.advance thread event shared rest).threads other).log := by
  by_cases same : other = thread
  · subst same
    simp only [advance, Function.update_self]
    exact List.mem_append_left _ member
  · simp only [advance, Function.update_of_ne same]
    exact member

theorem Config.mem_log_advance_self {config : Config State ι Action Reply α} {thread : ι}
    {event : Event Action Reply} {shared : State} {rest : Prog Action Reply α} :
    event ∈ ((config.advance thread event shared rest).threads thread).log := by
  simp only [advance, Function.update_self]
  exact List.mem_append_right _ List.mem_cons_self

/-- Every thread still conforms from the phase its log has led to. -/
def Config.Follows (config : Config State ι Action Reply α)
    (protocol : Protocol Action Reply Phase α) (start : ι → Phase) : Prop :=
  ∀ thread, (config.threads thread).rest.Conforms protocol (config.phase protocol start thread)

theorem Step.follows {start : ι → Phase} {before after : Config State ι Action Reply α}
    {thread : ι} {event : Event Action Reply}
    (taken : Step semantics before thread event after)
    (follows : before.Follows protocol start) : after.Follows protocol start := by
  cases taken with
  | @perform action next reply shared pending performed =>
      intro other
      rw [Config.phase_advance]
      by_cases same : other = thread
      · subst other
        have conforms := follows thread
        rw [pending, Prog.conforms_act] at conforms
        simp only [Config.advance, Function.update_self]
        exact conforms.2 reply
      · simp only [Config.advance, Function.update_of_ne same]
        exact follows other

theorem Reaches.follows {start : ι → Phase} {initial config : Config State ι Action Reply α}
    (reached : Reaches semantics meets initial config)
    (follows : initial.Follows protocol start) : config.Follows protocol start := by
  induction reached with
  | refl => exact follows
  | tail _ last ih =>
      obtain ⟨thread, event, taken, _met⟩ := last
      exact taken.follows ih

/-- The invariant rule over whole configurations, logs included: it is enough to
check the steps the protocol allows. -/
theorem Reaches.invariant_config {start : ι → Phase}
    {initial config : Config State ι Action Reply α}
    (Inv : Config State ι Action Reply α → Prop)
    (reached : Reaches semantics meets initial config)
    (follows : initial.Follows protocol start) (holds : Inv initial)
    (preserved : ∀ (before : Config State ι Action Reply α) thread action
      (next : Reply action → Prog Action Reply α) reply shared,
      before.Follows protocol start → Inv before →
      (before.threads thread).rest = .act action next →
      protocol.allowed (before.phase protocol start thread) action →
      semantics thread before.shared action reply shared →
      meets before thread ⟨action, reply⟩ →
      Inv (before.advance thread ⟨action, reply⟩ shared (next reply))) :
    config.Follows protocol start ∧ Inv config := by
  induction reached with
  | refl => exact ⟨follows, holds⟩
  | tail _ last ih =>
      obtain ⟨thread, event, taken, met⟩ := last
      refine ⟨taken.follows ih.1, ?_⟩
      cases taken with
      | @perform action next reply shared pending performed =>
          have conforms := ih.1 thread
          rw [pending, Prog.conforms_act] at conforms
          exact preserved _ thread action next reply shared ih.1 ih.2 pending conforms.1 performed
            met

/-- The invariant rule over the shared state and the phases of all threads. -/
theorem Reaches.invariant {start : ι → Phase} {initial config : Config State ι Action Reply α}
    (Inv : State → (ι → Phase) → Prop)
    (reached : Reaches semantics meets initial config)
    (follows : initial.Follows protocol start)
    (holds : Inv initial.shared (initial.phase protocol start))
    (preserved : ∀ (before : Config State ι Action Reply α) thread action reply shared,
      before.Follows protocol start →
      Inv before.shared (before.phase protocol start) →
      protocol.allowed (before.phase protocol start thread) action →
      semantics thread before.shared action reply shared →
      meets before thread ⟨action, reply⟩ →
      Inv shared (Function.update (before.phase protocol start) thread
        (protocol.next (before.phase protocol start thread) action reply))) :
    config.Follows protocol start ∧ Inv config.shared (config.phase protocol start) := by
  refine reached.invariant_config (fun config => Inv config.shared (config.phase protocol start))
    follows holds ?_
  intro before thread action next reply shared follows holds _pending allowed performed met
  rw [Config.phase_advance]
  exact preserved before thread action reply shared follows holds allowed performed met

omit [DecidableEq ι] in
theorem Config.Follows.finished {start : ι → Phase} {config : Config State ι Action Reply α}
    (follows : config.Follows protocol start) {thread : ι} {result : α}
    (ended : (config.threads thread).rest = .done result) :
    protocol.finished (config.phase protocol start thread) result := by
  have conforms := follows thread
  rwa [ended, Prog.conforms_done] at conforms

end EffectProgram
