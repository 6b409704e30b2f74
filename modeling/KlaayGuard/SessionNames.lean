/-
Late names against sign outs.

`clear_session` ends the session in two critical sections, the token first;
`name_holder_of` keeps its read guard on the token across its label write.  A
label that lands beside no token is therefore still to be cleared, whatever the
number of calls and their order.
-/

import KlaayGuard.Library.ReadGuard
import KlaayGuard.Session

set_option autoImplicit false

namespace KlaayGuard

open EffectProgram Prog

inductive NamingCall : Type where
  | clear
  | name (token : String) (label : Option String)
  deriving DecidableEq, Repr

def NamingCall.program : NamingCall → Program Unit
  | clear => clearSession
  | name token label => nameHolderOf (some token) label

inductive NamingPhase : Type where
  | called (call : NamingCall)
  /-- The token is cleared and the label is not. -/
  | clearing
  /-- The guard is held on a token that was the live one. -/
  | naming (token : String) (label : Option String)
  /-- The guard is held and nothing is left to write. -/
  | releasing
  | returned

def NamingPhase.HoldsGuard : NamingPhase → Prop
  | naming _ _ => True
  | releasing => True
  | _ => False

def namingAllowed : NamingPhase → Effect → Prop
  | .called .clear, action => action = .writeAuthToken none
  | .called (.name _ _), action => action = .holdAuthToken
  | .clearing, action => action = .writeUserLabel none
  | .naming _ label, action => action = .writeUserLabel label
  | .releasing, action => action = .releaseAuthToken
  | .returned, _ => False

def namingNext : NamingPhase → (action : Effect) → action.Reply → NamingPhase
  | .called .clear, _, _ => .clearing
  | .called (.name token label), .holdAuthToken, held =>
      if held = some token then .naming token label else .releasing
  | .clearing, _, _ => .returned
  | .naming _ _, _, _ => .releasing
  | .releasing, _, _ => .returned
  | phase, _, _ => phase

def namingSteps : Protocol Effect Effect.Reply NamingPhase Unit :=
  { allowed := namingAllowed
    next := namingNext
    finished := fun phase _ => phase = .returned }

theorem NamingCall.conforms (call : NamingCall) :
    call.program.Conforms namingSteps (.called call) := by
  cases call with
  | clear => exact ⟨rfl, fun _ => ⟨rfl, fun _ => rfl⟩⟩
  | name token label =>
      refine ⟨rfl, fun held => ?_⟩
      change Conforms namingSteps (if held = some token then .naming token label else .releasing)
        (if held ≠ some token then releaseAuthToken
          else writeUserLabel label >>= fun _ => releaseAuthToken : Program Unit)
      by_cases live : held = some token
      · rw [if_pos live, if_neg (not_not_intro live)]
        exact ⟨rfl, fun _ => ⟨rfl, fun _ => rfl⟩⟩
      · rw [if_neg live, if_pos live]
        exact ⟨rfl, fun _ => rfl⟩

/-! ### The invariant -/

variable {ι : Type}

/-- The label beside this token was there at the start, or a call that carried
the token supplied it. -/
def Supplied (calls : ι → NamingCall) (start : World) (token label : String) : Prop :=
  start.userLabel = some label ∨ ∃ thread, calls thread = .name token (some label)

structure NamesSettled (calls : ι → NamingCall) (start world : World)
    (phases : ι → NamingPhase) : Prop where
  counted : GuardsCounted (fun thread => (phases thread).HoldsGuard) world.tokenReaders
  guarded : ∀ thread token label, phases thread = .naming token label →
    world.authToken = some token ∧ calls thread = .name token label
  called : ∀ thread call, phases thread = .called call → calls thread = call
  named : ∀ label, world.userLabel = some label →
    (∃ token, world.authToken = some token ∧ Supplied calls start token label) ∨
      ∃ thread, phases thread = .clearing

variable [DecidableEq ι] {calls : ι → NamingCall} {start world after : World}
variable {phases : ι → NamingPhase} {thread : ι}

omit [DecidableEq ι] in
theorem NamesSettled.fresh (unheld : start.authToken = none → start.userLabel = none) :
    NamesSettled calls start start fun thread => .called (calls thread) := by
  refine ⟨GuardsCounted.none_held fun _ => id, ?_, ?_, ?_⟩
  · intro thread token label phase
    cases phase
  · intro thread call phase
    exact NamingPhase.called.inj phase
  · intro label named
    cases live : start.authToken with
    | none =>
        rw [unheld live] at named
        cases named
    | some token => exact Or.inl ⟨token, rfl, Or.inl named⟩

omit [DecidableEq ι] in
private theorem NamesSettled.write_free (settled : NamesSettled calls start world phases)
    (free : world.tokenReaders = 0) (thread : ι) : ¬ (phases thread).HoldsGuard := by
  have counted := settled.counted
  rw [free] at counted
  exact counted.free thread

private theorem NamesSettled.of_step (settled : NamesSettled calls start world phases)
    {phase : NamingPhase}
    (counted : GuardsCounted
      (fun other => (Function.update phases thread phase other).HoldsGuard) after.tokenReaders)
    (token : after.authToken = world.authToken ∨ world.tokenReaders = 0)
    (naming : ∀ token label, phase = .naming token label →
      after.authToken = some token ∧ calls thread = .name token label)
    (started : ∀ call, phase ≠ .called call)
    (named : ∀ label, after.userLabel = some label →
      (∃ token, after.authToken = some token ∧ Supplied calls start token label) ∨
        ∃ other, Function.update phases thread phase other = .clearing) :
    NamesSettled calls start after (Function.update phases thread phase) := by
  refine ⟨counted, ?_, ?_, named⟩
  · intro other live label holds
    by_cases same : other = thread
    · subst same
      rw [Function.update_self] at holds
      exact naming live label holds
    · rw [Function.update_of_ne same] at holds
      obtain ⟨held, call⟩ := settled.guarded other live label holds
      rcases token with kept | free
      · exact ⟨kept.trans held, call⟩
      · refine absurd ?_ (settled.write_free free other)
        rw [holds]
        trivial
  · intro other call holds
    by_cases same : other = thread
    · subst same
      rw [Function.update_self] at holds
      exact absurd holds (started call)
    · rw [Function.update_of_ne same] at holds
      exact settled.called other call holds

private theorem NamesSettled.named_update (settled : NamesSettled calls start world phases)
    {phase : NamingPhase} (token : after.authToken = world.authToken)
    (names : after.userLabel = world.userLabel) (other : phases thread ≠ .clearing)
    (label : String) (named : after.userLabel = some label) :
    (∃ token, after.authToken = some token ∧ Supplied calls start token label) ∨
      ∃ other, Function.update phases thread phase other = .clearing := by
  rw [names] at named
  rcases settled.named label named with ⟨live, held, supplied⟩ | ⟨clearing, owes⟩
  · exact Or.inl ⟨live, token.trans held, supplied⟩
  · refine Or.inr ⟨clearing, ?_⟩
    rwa [Function.update_of_ne]
    rintro rfl
    exact other owes

private theorem NamesSettled.held (settled : NamesSettled calls start world phases)
    {token : String} {label : Option String}
    (phase : phases thread = .called (.name token label)) :
    NamesSettled calls start { world with tokenReaders := world.tokenReaders + 1 }
      (Function.update phases thread
        (if world.authToken = some token then .naming token label else .releasing)) := by
  refine settled.of_step ?_ (Or.inl rfl) ?_ ?_ ?_
  · apply settled.counted.acquire
    split <;> trivial
  · intro live name other
    by_cases still : world.authToken = some token
    · rw [if_pos still] at other
      obtain ⟨rfl, rfl⟩ := NamingPhase.naming.inj other
      exact ⟨still, settled.called thread _ phase⟩
    · rw [if_neg still] at other
      cases other
  · intro call other
    split at other <;> cases other
  · refine settled.named_update rfl rfl ?_
    rw [phase]
    exact NamingPhase.noConfusion

theorem NamesSettled.step {action : Effect} {reply : action.Reply}
    (settled : NamesSettled calls start world phases)
    (allowed : namingAllowed (phases thread) action)
    (performed : performs world action reply after) :
    NamesSettled calls start after
      (Function.update phases thread (namingNext (phases thread) action reply)) := by
  cases phase : phases thread with
  | called call =>
      rw [phase] at allowed
      cases call with
      | clear =>
          obtain rfl : action = .writeAuthToken none := allowed
          obtain ⟨free, rfl⟩ := performed
          refine settled.of_step ?_ (Or.inr free) ?_ ?_ ?_
          · apply settled.counted.keep
            rw [phase]
            exact Iff.rfl
          · intro token label other
            cases other
          · intro call other
            cases other
          · intro label _
            exact Or.inr ⟨thread, Function.update_self _ _ _⟩
      | name token label =>
          obtain rfl : action = .holdAuthToken := allowed
          obtain ⟨rfl, rfl⟩ := performed
          exact settled.held phase
  | clearing =>
      rw [phase] at allowed
      obtain rfl : action = .writeUserLabel none := allowed
      obtain rfl : after = { world with userLabel := none } := performed
      refine settled.of_step ?_ (Or.inl rfl) ?_ ?_ ?_
      · apply settled.counted.keep
        rw [phase]
        exact Iff.rfl
      · intro token label other
        cases other
      · intro call other
        cases other
      · intro label named
        cases named
  | naming token label =>
      rw [phase] at allowed
      obtain rfl : action = .writeUserLabel label := allowed
      obtain rfl : after = { world with userLabel := label } := performed
      obtain ⟨live, call⟩ := settled.guarded thread token label phase
      refine settled.of_step ?_ (Or.inl rfl) ?_ ?_ ?_
      · apply settled.counted.keep
        rw [phase]
        exact Iff.rfl
      · intro token label other
        cases other
      · intro call other
        cases other
      · rintro name rfl
        exact Or.inl ⟨token, live, Or.inr ⟨thread, call⟩⟩
  | releasing =>
      rw [phase] at allowed
      obtain rfl : action = .releaseAuthToken := allowed
      obtain rfl : after = { world with tokenReaders := world.tokenReaders - 1 } := performed
      refine settled.of_step ?_ (Or.inl rfl) ?_ ?_ ?_
      · apply settled.counted.release
        · rw [phase]
          trivial
        · exact id
      · intro token label other
        cases other
      · intro call other
        cases other
      · refine settled.named_update rfl rfl ?_
        rw [phase]
        exact NamingPhase.noConfusion
  | returned =>
      rw [phase] at allowed
      exact allowed.elim

theorem NamesSettled.reached
    (unheld : start.authToken = none → start.userLabel = none) {config : AgentConfig ι Unit}
    (reached : Reaches (agentSemantics ι) AnyStep
      (Config.fresh start fun thread => (calls thread).program) config) :
    config.Follows namingSteps (fun thread => .called (calls thread)) ∧
      NamesSettled calls start config.shared
        (config.phase namingSteps fun thread => .called (calls thread)) := by
  refine reached.invariant (NamesSettled calls start) (fun thread => (calls thread).conforms)
    (NamesSettled.fresh unheld) ?_
  intro before thread action reply shared _follows settled allowed performed _met
  exact settled.step allowed performed

/-- Once all calls have finished, no name is left beside no token, and a name
beside a token is the first one or was supplied with that token. -/
theorem late_reply_names_no_ended_session (calls : ι → NamingCall) (start : World)
    (unheld : start.authToken = none → start.userLabel = none) (config : AgentConfig ι Unit)
    (reached : Reaches (agentSemantics ι) AnyStep
      (Config.fresh start fun thread => (calls thread).program) config)
    (quiescent : config.Quiescent) :
    (config.shared.authToken = none → config.shared.userLabel = none) ∧
      ∀ token label, config.shared.authToken = some token →
        config.shared.userLabel = some label →
          start.userLabel = some label ∨ ∃ thread, calls thread = .name token (some label) := by
  obtain ⟨follows, settled⟩ := NamesSettled.reached unheld reached
  have noneClears : ∀ thread,
      config.phase namingSteps (fun thread => .called (calls thread)) thread ≠ .clearing := by
    intro thread clearing
    obtain ⟨result, ended⟩ := quiescent thread
    have returned : _ = NamingPhase.returned := follows.finished ended
    rw [clearing] at returned
    cases returned
  have supplied : ∀ label, config.shared.userLabel = some label →
      ∃ token, config.shared.authToken = some token ∧ Supplied calls start token label := by
    intro label named
    exact (settled.named label named).resolve_right fun ⟨thread, clearing⟩ =>
      noneClears thread clearing
  constructor
  · intro signedOut
    cases named : config.shared.userLabel with
    | none => rfl
    | some label =>
        obtain ⟨token, live, _⟩ := supplied label named
        rw [signedOut] at live
        cases live
  · intro token label live named
    obtain ⟨held, same, origin⟩ := supplied label named
    rw [live] at same
    obtain rfl := Option.some.inj same
    exact origin

/-! A reply that finds its token live, and a sign out that waits for the guard. -/

private def signOutAndName : Bool → NamingCall
  | true => .name "alice-token" (some "Alice Andersen")
  | false => .clear

private def unnamed : World := { World.firstStart with authToken := some "alice-token" }

theorem late_reply_names_no_ended_session_overlap :
    ∃ config : AgentConfig Bool Unit, config.shared.authToken = none ∧
      (config.shared.authToken = none → config.shared.userLabel = none) := by
  have started : Reaches (agentSemantics Bool) AnyStep
      (Config.fresh unnamed fun thread => (signOutAndName thread).program) _ := Reaches.refl _
  have held := started.perform true ⟨.holdAuthToken, some "alice-token"⟩ rfl ⟨rfl, rfl⟩ trivial
  have named := held.perform true ⟨.writeUserLabel (some "Alice Andersen"), ()⟩ rfl rfl trivial
  have released := named.perform true ⟨.releaseAuthToken, ()⟩ rfl rfl trivial
  have cleared := released.perform false ⟨.writeAuthToken none, ()⟩ rfl ⟨rfl, rfl⟩ trivial
  have emptied := cleared.perform false ⟨.writeUserLabel none, ()⟩ rfl rfl trivial
  refine ⟨_, rfl, (late_reply_names_no_ended_session signOutAndName unnamed ?_ _ emptied ?_).1⟩
  · intro absent
    cases absent
  · rintro (_ | _) <;> exact ⟨(), rfl⟩

end KlaayGuard
