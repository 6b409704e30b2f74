/-
The stored token against the live one, over overlapping sign-ins and sign outs.

A sign-in writes the token in memory first and the store long after; a sign out
does the same with nothing.  A store write that lands last wins on disk, and it
agrees with memory only if its call was also the last to write memory.
-/

import KlaayGuard.Session

set_option autoImplicit false

namespace KlaayGuard

open EffectProgram Prog

inductive SignCall : Type where
  | signIn (token : String)
  | signOut
  deriving DecidableEq, Repr

def SignCall.program (crates : Crates) : SignCall → Program Unit
  | signIn token => adoptToken crates token
  | signOut => KlaayGuard.signOut

inductive StorePhase : Type where
  | unstarted
  /-- The call has put `token` in memory and not yet in the keyring. -/
  | owesEntry (token : Option String) (fileGone : Bool)
  | owesFile
  | paid
  /-- A call of the store has failed. -/
  | failed

def storeNext : StorePhase → (action : Effect) → action.Reply → StorePhase
  | .unstarted, .writeAuthToken token, _ => .owesEntry token false
  | .owesEntry token _, .fileDelete _, _ => .owesEntry token true
  | .owesEntry _ _, .openEntry _, .error _ => .failed
  | .owesEntry _ _, .setPassword _ _, .ok _ => .owesFile
  | .owesEntry _ _, .setPassword _ _, .error _ => .failed
  | .owesEntry _ _, .deleteCredential _, .error (.other _) => .failed
  | .owesEntry _ _, .deleteCredential _, .error .noEntry => .paid
  | .owesEntry _ _, .deleteCredential _, .ok _ => .paid
  | .owesFile, .fileDelete _, _ => .paid
  | phase, _, _ => phase

def storeAllowed : StorePhase → Effect → Prop
  | .unstarted, action =>
      (∃ request, action = .send request) ∨ ∃ token, action = .writeAuthToken token
  | .owesEntry token fileGone, action =>
      (∃ label, action = .writeUserLabel label) ∨ action = .notifyTokenAcquired ∨
        action = .openEntry .authToken ∨
        (∃ live, token = some live ∧ action = .setPassword .authToken live) ∨
        (token = none ∧ action = .fileDelete .authToken) ∨
        (token = none ∧ fileGone = true ∧ action = .deleteCredential .authToken)
  | .owesFile, action => action = .fileDelete .authToken
  | .paid, _ => False
  | .failed, _ => True

def storeWrites : Protocol Effect Effect.Reply StorePhase Unit :=
  { allowed := storeAllowed
    next := storeNext
    finished := fun phase _ =>
      match phase with
      | .owesEntry _ _ => False
      | .owesFile => False
      | _ => True }

private theorem saveToken_conforms (token : String) :
    (saveToken token >>= fun _ => pure () : Program Unit).Conforms storeWrites
      (.owesEntry (some token) false) := by
  refine ⟨Or.inr (Or.inr (Or.inl rfl)), fun opened => ?_⟩
  cases opened with
  | error e =>
      refine ⟨trivial, fun saved => ?_⟩
      cases saved <;> trivial
  | ok _ =>
      refine ⟨Or.inr (Or.inr (Or.inr (Or.inl ⟨token, rfl, rfl⟩))), fun written => ?_⟩
      cases written with
      | error e =>
          refine ⟨trivial, fun saved => ?_⟩
          cases saved <;> trivial
      | ok _ => exact ⟨rfl, fun _ => trivial⟩

private theorem adopted_conforms (token : String) (label : Option String) :
    (adoptSession token label >>= fun _ => notifyTokenAcquired >>= fun _ =>
      saveToken token >>= fun _ => pure () : Program Unit).Conforms storeWrites .unstarted := by
  refine ⟨Or.inr ⟨_, rfl⟩, fun _ => ⟨Or.inl ⟨_, rfl⟩, fun _ => ⟨Or.inr (Or.inl rfl), fun _ => ?_⟩⟩⟩
  exact saveToken_conforms token

theorem adoptToken_conforms (crates : Crates) (token : String) :
    (adoptToken crates token).Conforms storeWrites .unstarted := by
  rw [adoptToken, adoptUnlessRejected, bind_assoc, Prog.conforms_bind, fetchIdentity_conforms]
  refine ⟨Or.inl ⟨_, rfl⟩, fun reply => ?_⟩
  cases identityOfReply crates reply with
  | rejected => trivial
  | accepted label => exact adopted_conforms token label
  | unknown => exact adopted_conforms token none

theorem signOut_conforms : signOut.Conforms storeWrites .unstarted := by
  refine ⟨Or.inr ⟨_, rfl⟩, fun _ => ⟨Or.inl ⟨_, rfl⟩, fun _ => ⟨?_, fun _ => ?_⟩⟩⟩
  · exact Or.inr (Or.inr (Or.inr (Or.inr (Or.inl ⟨rfl, rfl⟩))))
  refine ⟨Or.inr (Or.inr (Or.inl rfl)), fun opened => ?_⟩
  cases opened with
  | error e => trivial
  | ok _ =>
      refine ⟨Or.inr (Or.inr (Or.inr (Or.inr (Or.inr ⟨rfl, rfl, rfl⟩)))), fun removed => ?_⟩
      rcases removed with (_ | e) | _
      · trivial
      · refine ⟨trivial, fun opened => ?_⟩
        cases opened with
        | error e => trivial
        | ok _ =>
            refine ⟨trivial, fun found => ?_⟩
            rcases found with (_ | _) | _ <;> trivial
      · trivial

theorem SignCall.conforms (crates : Crates) (call : SignCall) :
    (call.program crates).Conforms storeWrites .unstarted := by
  cases call with
  | signIn token => exact adoptToken_conforms crates token
  | signOut => exact signOut_conforms

/-! ### The invariant -/

variable {ι : Type}

def World.Fileless (world : World) : Prop :=
  (world.fallbackFile .authToken).filter (· ≠ "") = none

/-- Some other call has put its token in memory and still owes the keyring. -/
def OtherOwesEntry (phases : ι → StorePhase) (thread : ι) : Prop :=
  ∃ other token fileGone, other ≠ thread ∧ phases other = .owesEntry token fileGone

/-- A keyring write agrees with the token in memory, or another call that has
changed that token has its own keyring write to come. -/
def StoreWriteFits (world : World) (phases : ι → StorePhase) (thread : ι) (action : Effect) :
    Prop :=
  (∀ token, action = .setPassword .authToken token →
      world.authToken = some token ∨ OtherOwesEntry phases thread) ∧
    (action = .deleteCredential .authToken →
      world.authToken = none ∨ OtherOwesEntry phases thread)

structure StoreSettled (world : World) (phases : ι → StorePhase) : Prop where
  healthy : ∀ thread, phases thread ≠ .failed
  fileGone : ∀ thread token, phases thread = .owesEntry token true → world.Fileless
  agrees :
    (∃ thread token fileGone, phases thread = .owesEntry token fileGone) ∨
    (world.keyring .authToken = world.authToken ∧
      (world.Fileless ∨ ∃ thread, phases thread = .owesFile)) ∨
    (world.storedCredential .authToken = world.authToken ∧
      ∀ thread, phases thread = .unstarted)

variable [DecidableEq ι] {world after : World} {phases : ι → StorePhase} {thread : ι}

theorem World.fileless_deleted (world : World) :
    (world.setFallbackFile .authToken none).Fileless := by
  rw [World.Fileless, World.fallbackFile_setFallbackFile, Option.filter_none]

theorem OtherOwesEntry.update (owes : OtherOwesEntry phases thread) {phase : StorePhase} :
    ∃ other token fileGone,
      Function.update phases thread phase other = .owesEntry token fileGone := by
  obtain ⟨other, token, fileGone, distinct, holds⟩ := owes
  exact ⟨other, token, fileGone, by rw [Function.update_of_ne distinct, holds]⟩

private theorem StoreSettled.quiet (settled : StoreSettled world phases)
    (token : after.authToken = world.authToken) (keyring : after.keyring = world.keyring)
    (file : after.fallbackFile = world.fallbackFile) {phase : StorePhase}
    (same : phase = phases thread) :
    StoreSettled after (Function.update phases thread phase) := by
  rw [same, Function.update_eq_self]
  refine ⟨settled.healthy, ?_, ?_⟩
  · intro other owed holds
    have gone := settled.fileGone other owed holds
    rwa [World.Fileless, file]
  · rcases settled.agrees with owes | ⟨agree, fileless⟩ | ⟨stored, fresh⟩
    · exact Or.inl owes
    · refine Or.inr (Or.inl ⟨by rw [keyring, agree, token], ?_⟩)
      rwa [World.Fileless, file]
    · refine Or.inr (Or.inr ⟨?_, fresh⟩)
      rw [token, ← stored, World.storedCredential, World.storedCredential, file, keyring]

private theorem StoreSettled.of_agrees (settled : StoreSettled world phases) {phase : StorePhase}
    (healthy : phase ≠ .failed)
    (fileless : world.Fileless → after.Fileless)
    (claimed : ∀ token, phase = .owesEntry token true → after.Fileless)
    (agrees :
      (∃ other token fileGone,
        Function.update phases thread phase other = .owesEntry token fileGone) ∨
      (after.keyring .authToken = after.authToken ∧
        (after.Fileless ∨ ∃ other, Function.update phases thread phase other = .owesFile))) :
    StoreSettled after (Function.update phases thread phase) := by
  refine ⟨?_, ?_, ?_⟩
  · intro other
    by_cases same : other = thread
    · subst other
      rwa [Function.update_self]
    · rw [Function.update_of_ne same]
      exact settled.healthy other
  · intro other token holds
    by_cases same : other = thread
    · subst other
      rw [Function.update_self] at holds
      exact claimed token holds
    · rw [Function.update_of_ne same] at holds
      exact fileless (settled.fileGone other token holds)
  · exact agrees.imp_right Or.inl

private theorem StoreSettled.entrySet (settled : StoreSettled world phases) {live : String}
    (fits : world.authToken = some live ∨ OtherOwesEntry phases thread) :
    StoreSettled (world.setKeyring .authToken (some live))
      (Function.update phases thread .owesFile) := by
  refine settled.of_agrees (by simp) id (by simp) ?_
  rcases fits with held | other
  · refine Or.inr ⟨?_, Or.inr ⟨thread, Function.update_self _ _ _⟩⟩
    rw [World.keyring_setKeyring, World.authToken_setKeyring, held]
  · exact Or.inl other.update

private theorem StoreSettled.entryGone (settled : StoreSettled world phases)
    (owes : phases thread = .owesEntry none true) (removed : after.keyring .authToken = none)
    (token : after.authToken = world.authToken) (file : world.Fileless → after.Fileless)
    (fits : world.authToken = none ∨ OtherOwesEntry phases thread) :
    StoreSettled after (Function.update phases thread .paid) := by
  refine settled.of_agrees (by simp) file (by simp) ?_
  rcases fits with missing | other
  · refine Or.inr ⟨?_, Or.inl (file (settled.fileGone thread none owes))⟩
    rw [removed, token, missing]
  · exact Or.inl other.update

private theorem StoreSettled.fileGoes (settled : StoreSettled world phases)
    (owes : phases thread = .owesFile) :
    StoreSettled (world.setFallbackFile .authToken none)
      (Function.update phases thread .paid) := by
  refine settled.of_agrees (by simp) (fun _ => World.fileless_deleted world) (by simp) ?_
  rcases settled.agrees with ⟨other, token, gone, owed⟩ | ⟨agree, _⟩ | ⟨_, fresh⟩
  · have distinct : other ≠ thread := by
      rintro rfl
      rw [owes] at owed
      cases owed
    exact Or.inl (OtherOwesEntry.update ⟨other, token, gone, distinct, owed⟩)
  · exact Or.inr ⟨agree, Or.inl (World.fileless_deleted world)⟩
  · rw [fresh thread] at owes
    cases owes

theorem StoreSettled.step {action : Effect} {reply : action.Reply}
    (settled : StoreSettled world phases)
    (allowed : storeAllowed (phases thread) action)
    (performed : performs world action reply after)
    (succeeds : action.Succeeds reply)
    (fits : StoreWriteFits world phases thread action) :
    StoreSettled after
      (Function.update phases thread (storeNext (phases thread) action reply)) := by
  cases phase : phases thread with
  | unstarted =>
      rw [phase] at allowed
      rcases allowed with ⟨request, rfl⟩ | ⟨token, rfl⟩
      · obtain rfl : after = world := performed
        refine settled.quiet ?_ ?_ ?_ phase.symm <;> rfl
      · obtain ⟨_, rfl⟩ := performed
        refine settled.of_agrees (by simp [storeNext]) id (by simp [storeNext]) ?_
        exact Or.inl ⟨thread, token, false, Function.update_self _ _ _⟩
  | owesEntry token gone =>
      rw [phase] at allowed
      rcases allowed with ⟨label, rfl⟩ | rfl | rfl | ⟨live, rfl, rfl⟩ | ⟨rfl, rfl⟩ | ⟨rfl, rfl, rfl⟩
      · obtain rfl : after = { world with userLabel := label } := performed
        refine settled.quiet ?_ ?_ ?_ phase.symm <;> rfl
      · obtain rfl : after = { world with tokenAcquired := true } := performed
        refine settled.quiet ?_ ?_ ?_ phase.symm <;> rfl
      · obtain rfl : after = world := performed
        cases reply with
        | error e => cases succeeds
        | ok _ => refine settled.quiet ?_ ?_ ?_ phase.symm <;> rfl
      · cases reply with
        | error e => cases succeeds
        | ok _ =>
            obtain rfl : after = world.setKeyring .authToken (some live) := performed
            exact settled.entrySet (fits.1 live rfl)
      · obtain rfl : after = world.setFallbackFile .authToken none := performed
        refine settled.of_agrees (by simp [storeNext]) (fun _ => World.fileless_deleted world)
          (fun _ _ => World.fileless_deleted world) ?_
        exact Or.inl ⟨thread, none, true, Function.update_self _ _ _⟩
      · rcases reply with (_ | e) | _
        · obtain ⟨missing, rfl⟩ := performed
          exact settled.entryGone phase missing rfl id (fits.2 rfl)
        · cases succeeds
        · obtain ⟨_, rfl⟩ := performed
          exact settled.entryGone phase (World.keyring_setKeyring _ _ _) rfl id (fits.2 rfl)
  | owesFile =>
      rw [phase] at allowed
      obtain rfl : action = .fileDelete .authToken := allowed
      obtain rfl : after = world.setFallbackFile .authToken none := performed
      exact settled.fileGoes phase
  | paid =>
      rw [phase] at allowed
      cases allowed
  | failed => exact absurd phase (settled.healthy thread)

def StoreAnswers : StepCondition World ι Effect Effect.Reply Unit :=
  fun _ _ event => event.action.Succeeds event.reply

/-- Every store call succeeds and every keyring write fits. -/
def StoreWritesFit : StepCondition World ι Effect Effect.Reply Unit :=
  fun config thread event => event.action.Succeeds event.reply ∧
    StoreWriteFits config.shared (config.phase storeWrites fun _ => .unstarted) thread event.action

theorem StoreSettled.reached {crates : Crates} {calls : ι → SignCall} {start : World}
    (loaded : start.storedCredential .authToken = start.authToken)
    {config : AgentConfig ι Unit}
    (reached : Reaches (agentSemantics ι) StoreWritesFit
      (Config.fresh start fun thread => (calls thread).program crates) config) :
    config.Follows storeWrites (fun _ => .unstarted) ∧
      StoreSettled config.shared (config.phase storeWrites fun _ => .unstarted) := by
  refine reached.invariant StoreSettled (fun thread => (calls thread).conforms crates) ?_ ?_
  · exact ⟨by simp [Config.phase_fresh], by simp [Config.phase_fresh],
      Or.inr (Or.inr ⟨loaded, fun _ => rfl⟩)⟩
  · intro before thread action reply shared _follows settled allowed performed met
    exact settled.step allowed performed met.1 met.2

omit [DecidableEq ι] in
/-- With nobody in flight, the stored token is the live one. -/
theorem StoreSettled.storedCredential (settled : StoreSettled world phases)
    (ended : ∀ thread, storeWrites.finished (phases thread) ()) :
    world.storedCredential .authToken = world.authToken := by
  rcases settled.agrees with
    ⟨thread, token, gone, owes⟩ | ⟨agree, fileless | ⟨thread, owes⟩⟩ | ⟨stored, _⟩
  · have paid := ended thread
    rw [owes] at paid
    cases paid
  · rw [World.storedCredential, fileless, Option.none_or, agree]
  · have paid := ended thread
    rw [owes] at paid
    cases paid
  · exact stored

theorem loadToken_answers {events : List AgentEvent} {result : Except String (Option String)}
    (load : loadToken.Runs world events after result)
    (answers : ∀ event ∈ events, event.action.Succeeds event.reply) :
    result = .ok (world.storedCredential .authToken) := by
  obtain ⟨_, found | ⟨_, e, failed⟩⟩ := load_runs load
  · exact found
  · subst failed
    obtain ⟨_, contents, rest, rfl, ⟨e, rfl⟩ | ⟨e, rfl⟩⟩ := load_error load
    · cases answers _ (List.mem_cons_of_mem _ List.mem_cons_self)
    · cases answers _ (List.mem_cons_of_mem _ (List.mem_cons_of_mem _ List.mem_cons_self))

/-- Once no sign-in and no sign out is in flight, a load returns the token in
memory, in every run whose keyring writes fit. -/
theorem storedToken_agrees (crates : Crates) (calls : ι → SignCall) (start : World)
    (loaded : start.storedCredential .authToken = start.authToken)
    (config : AgentConfig ι Unit)
    (reached : Reaches (agentSemantics ι) StoreWritesFit
      (Config.fresh start fun thread => (calls thread).program crates) config)
    (quiescent : config.Quiescent)
    (events : List AgentEvent) (final : World) (result : Except String (Option String))
    (load : loadToken.Runs config.shared events final result)
    (answers : ∀ event ∈ events, event.action.Succeeds event.reply) :
    result = .ok config.shared.authToken := by
  obtain ⟨follows, settled⟩ := StoreSettled.reached loaded reached
  rw [loadToken_answers load answers, settled.storedCredential]
  intro thread
  obtain ⟨result, ended⟩ := quiescent thread
  exact follows.finished ended

/-! A sign out that runs to completion before the sign-in it undoes has saved
its token. -/

private def aliceInAndOut : Bool → SignCall
  | true => .signIn "alice-token"
  | false => .signOut

theorem storedToken_outlives_signOut :
    ¬ ∀ (crates : Crates) (ι : Type) [DecidableEq ι] (calls : ι → SignCall) (start : World)
        (config : AgentConfig ι Unit) (events : List AgentEvent) (final : World)
        (result : Except String (Option String)),
      start.storedCredential .authToken = start.authToken →
      Reaches (agentSemantics ι) StoreAnswers
        (Config.fresh start fun thread => (calls thread).program crates) config →
      config.Quiescent →
      loadToken.Runs config.shared events final result →
      (∀ event ∈ events, event.action.Succeeds event.reply) →
      result = .ok config.shared.authToken := by
  intro claim
  have started : Reaches (agentSemantics Bool) StoreAnswers
      (Config.fresh World.firstStart fun thread => (aliceInAndOut thread).program .uncalled) _ :=
    Reaches.refl _
  have asked := started.perform true ⟨.send (.me "alice-token"), .error "timed out"⟩ rfl
    rfl trivial
  have adopted := asked.perform true ⟨.writeAuthToken (some "alice-token"), ()⟩ rfl
    ⟨rfl, rfl⟩ trivial
  have unnamed := adopted.perform true ⟨.writeUserLabel none, ()⟩ rfl rfl trivial
  have notified := unnamed.perform true ⟨.notifyTokenAcquired, ()⟩ rfl rfl trivial
  have cleared := notified.perform false ⟨.writeAuthToken none, ()⟩ rfl ⟨rfl, rfl⟩ trivial
  have emptied := cleared.perform false ⟨.writeUserLabel none, ()⟩ rfl rfl trivial
  have fileless := emptied.perform false ⟨.fileDelete .authToken, ()⟩ rfl rfl trivial
  have opened := fileless.perform false ⟨.openEntry .authToken, .ok ()⟩ rfl rfl trivial
  have signedOut := opened.perform false ⟨.deleteCredential .authToken, .error .noEntry⟩ rfl
    ⟨rfl, rfl⟩ trivial
  have reopened := signedOut.perform true ⟨.openEntry .authToken, .ok ()⟩ rfl rfl trivial
  have saved := reopened.perform true ⟨.setPassword .authToken "alice-token", .ok ()⟩ rfl rfl
    trivial
  have ended := saved.perform true ⟨.fileDelete .authToken, ()⟩ rfl rfl trivial
  have live := claim .uncalled Bool aliceInAndOut .firstStart _
    [⟨.fileRead .authToken, none⟩, ⟨.openEntry .authToken, .ok ()⟩,
      ⟨.getPassword .authToken, .ok "alice-token"⟩] _ (.ok (some "alice-token")) rfl ended
    (by rintro (_ | _) <;> exact ⟨(), rfl⟩)
    (.act ⟨rfl, rfl⟩ (.act rfl (.act ⟨rfl, rfl⟩ (.done _ _))))
    (by simp [Effect.Succeeds])
  cases live

/-- One sign-in on a host that has none yet. -/
theorem storedToken_agrees_signIn :
    ∃ config : AgentConfig Unit Unit, config.Quiescent ∧
      config.shared.authToken = some "alice-token" ∧
      Except.ok (some "alice-token") =
        (Except.ok config.shared.authToken : Except String (Option String)) := by
  have started : Reaches (agentSemantics Unit) StoreWritesFit
      (Config.fresh World.firstStart fun _ => SignCall.program .uncalled (.signIn "alice-token"))
      _ := Reaches.refl _
  have asked := started.perform () ⟨.send (.me "alice-token"), .error "timed out"⟩ rfl rfl
    ⟨trivial, by simp [StoreWriteFits]⟩
  have adopted := asked.perform () ⟨.writeAuthToken (some "alice-token"), ()⟩ rfl ⟨rfl, rfl⟩
    ⟨trivial, by simp [StoreWriteFits]⟩
  have unnamed := adopted.perform () ⟨.writeUserLabel none, ()⟩ rfl rfl
    ⟨trivial, by simp [StoreWriteFits]⟩
  have notified := unnamed.perform () ⟨.notifyTokenAcquired, ()⟩ rfl rfl
    ⟨trivial, by simp [StoreWriteFits]⟩
  have opened := notified.perform () ⟨.openEntry .authToken, .ok ()⟩ rfl rfl
    ⟨trivial, by simp [StoreWriteFits]⟩
  have saved := opened.perform () ⟨.setPassword .authToken "alice-token", .ok ()⟩ rfl rfl
    ⟨trivial, fun _ same => Or.inl (congrArg some (Effect.setPassword.inj same).2),
      by simp⟩
  have ended := saved.perform () ⟨.fileDelete .authToken, ()⟩ rfl rfl
    ⟨trivial, by simp [StoreWriteFits]⟩
  refine ⟨_, fun _ => ⟨(), rfl⟩, rfl, storedToken_agrees .uncalled
    (fun _ => .signIn "alice-token") .firstStart rfl _ ended (fun _ => ⟨(), rfl⟩)
    [⟨.fileRead .authToken, none⟩, ⟨.openEntry .authToken, .ok ()⟩,
      ⟨.getPassword .authToken, .ok "alice-token"⟩] _ _
    (.act ⟨rfl, rfl⟩ (.act rfl (.act ⟨rfl, rfl⟩ (.done _ _)))) (by simp [Effect.Succeeds])⟩

end KlaayGuard
