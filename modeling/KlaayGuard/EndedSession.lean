/-
What a cycle may still send for a session that has ended.

A cycle copies the token once and carries it across the collection and both
retry ladders; nothing looks at the live token again before the data request.
A sign out therefore stops the data only where no cycle under way carries the
token it ends.
-/

import KlaayGuard.Collection

set_option autoImplicit false

namespace KlaayGuard

open EffectProgram Prog

def Effect.sendsData : Effect → Bool
  | .send (.data _ _) => true
  | _ => false

private theorem sendsData_of_isStoreCall {action : Effect} (kind : action.isStoreCall = true) :
    action.sendsData = false := by
  cases action <;> first | rfl | cases kind

variable {crates : Crates} {build : Build}

private theorem fetchIdentity_sends_no_data (token : String) :
    (fetchIdentity crates token).Only fun action => action.sendsData = false :=
  ⟨rfl, fun _ => trivial⟩

private theorem signIn_sends_no_data (token : String) :
    (adoptToken crates token).Only fun action => action.sendsData = false := by
  refine Only.bind ((fetchIdentity_sends_no_data token).bind fun identity => ?_) fun adopted => ?_
  · cases identity with
    | rejected => trivial
    | accepted label => exact ⟨rfl, fun _ => ⟨rfl, fun _ => ⟨rfl, fun _ => trivial⟩⟩⟩
    | unknown => exact ⟨rfl, fun _ => ⟨rfl, fun _ => ⟨rfl, fun _ => trivial⟩⟩⟩
  · cases adopted with
    | false => trivial
    | true =>
        exact (saveCredential_storeCalls.mono fun _ kind => sendsData_of_isStoreCall kind).bind
          fun _ => trivial

private theorem signOut_sends_no_data : signOut.Only fun action => action.sendsData = false := by
  refine ⟨rfl, fun _ => ⟨rfl, fun _ => ?_⟩⟩
  exact (deleteToken_storeCalls.mono fun _ kind => sendsData_of_isStoreCall kind).bind
    fun _ => trivial

private theorem nameHolderOf_sends_no_data (token label : Option String) :
    (nameHolderOf token label).Only fun action => action.sendsData = false := by
  refine ⟨rfl, fun held => ?_⟩
  change Only _ (if held ≠ token then releaseAuthToken
    else writeUserLabel label >>= fun _ => releaseAuthToken : Program Unit)
  split
  · exact ⟨rfl, fun _ => trivial⟩
  · exact ⟨rfl, fun _ => ⟨rfl, fun _ => trivial⟩⟩

private theorem refresh_sends_no_data :
    (refreshIdentity crates).Only fun action => action.sendsData = false := by
  refine ⟨rfl, fun copied => ?_⟩
  cases copied with
  | none => trivial
  | some token =>
      refine (fetchIdentity_sends_no_data token).bind fun identity => ?_
      cases identity with
      | rejected => trivial
      | unknown => trivial
      | accepted label => exact nameHolderOf_sends_no_data (some token) label

theorem AgentTask.sends_data (task : AgentTask) :
    (task.program crates build).Only fun action => action.sendsData = true → task = .cycle := by
  have idle : ∀ action : Effect, action.sendsData = false →
      action.sendsData = true → task = .cycle := by
    intro action silent sends
    rw [silent] at sends
    cases sends
  cases task with
  | cycle => exact only_of_forall (fun _ _ => rfl) _
  | signIn token => exact (signIn_sends_no_data token).mono idle
  | signOut => exact signOut_sends_no_data.mono idle
  | refresh => exact refresh_sends_no_data.mono idle

/-! ### The condition and the invariant -/

variable {ι : Type} [DecidableEq ι]

def Unfinished (thread : Thread Effect Effect.Reply Unit) : Prop :=
  ∀ result, thread.rest ≠ .done result

/-- A write that ends the session of a token finds no cycle under way that has
copied the token and has not been refused. -/
def NoCycleCarriesEnded (tasks : ι → AgentTask) :
    StepCondition World ι Effect Effect.Reply Unit :=
  fun config _thread event => ∀ token, event.action = .writeAuthToken none →
    config.shared.authToken = some token → ∀ other, Unfinished (config.threads other) →
      cyclePhases tasks config other ≠ .holding token

def NotAdopted (token : String) : StepCondition World ι Effect Effect.Reply Unit :=
  fun _ _ event => event.action ≠ .writeAuthToken (some token)

/-- The token is not live, and nobody under way carries it. -/
structure TokenGone (tasks : ι → AgentTask) (token : String) (config : AgentConfig ι Unit) :
    Prop where
  dead : config.shared.authToken ≠ some token
  carried : ∀ thread, Unfinished (config.threads thread) →
    cyclePhases tasks config thread ≠ .holding token

theorem cycleNext_holding {phase : CyclePhase} {action : Effect} {reply : action.Reply}
    {token : String} (holds : cycleNext phase action reply = .holding token) :
    phase = .holding token ∨
      (⟨action, reply⟩ : AgentEvent) = ⟨.readAuthToken, some token⟩ := by
  cases phase with
  | holding held =>
      refine Or.inl ?_
      cases action with
      | send request =>
          cases reply with
          | error e => exact holds
          | ok response =>
              change (if response.isRejection then CyclePhase.rejected held
                else .holding held) = _ at holds
              split at holds
              · cases holds
              · exact holds
      | _ => exact holds
  | waiting =>
      cases action with
      | readAuthToken =>
          cases reply with
          | none => cases holds
          | some found =>
              obtain rfl := CyclePhase.holding.inj holds
              exact Or.inr rfl
      | _ => cases holds
  | rejected refused =>
      cases action <;> cases holds
  | cleared refused =>
      cases action <;> cases holds
  | _ => cases holds

variable {tasks : ι → AgentTask} {token : String}

theorem TokenGone.step {config : AgentConfig ι Unit} {thread : ι} {action : Effect}
    {reply : action.Reply} {shared : World} {rest : Program Unit}
    (gone : TokenGone tasks token config)
    (pending : Unfinished (config.threads thread))
    (performed : performs config.shared action reply shared)
    (notAdopted : action ≠ .writeAuthToken (some token)) :
    TokenGone tasks token (config.advance thread ⟨action, reply⟩ shared rest) := by
  constructor
  · change shared.authToken ≠ some token
    by_cases written : ∃ token, action = .writeAuthToken token
    · obtain ⟨adopted, rfl⟩ := written
      obtain ⟨_, rfl⟩ := performed
      rintro rfl
      exact notAdopted rfl
    · rw [(performs_frame performed).1 fun token same => written ⟨token, same⟩]
      exact gone.dead
  · intro other unfinished
    rw [cyclePhases, Config.phase_advance]
    by_cases same : other = thread
    · subst same
      rw [Function.update_self]
      intro holds
      rcases cycleNext_holding holds with held | copied
      · exact gone.carried other pending held
      · cases copied
        exact gone.dead performed.1.symm
    · rw [Function.update_of_ne same]
      simp only [Config.advance, Function.update_of_ne same] at unfinished
      exact gone.carried other unfinished

private theorem unfinished_of_pending {thread : Thread Effect Effect.Reply Unit} {action : Effect}
    {next : action.Reply → Program Unit} (pending : thread.rest = .act action next) :
    Unfinished thread := by
  intro result ended
  rw [pending] at ended
  cases ended

theorem TokenGone.ended {config ended : AgentConfig ι Unit} {clearer : ι}
    (live : config.shared.authToken = some token)
    (cleared : Step (agentSemantics ι) config clearer ⟨.writeAuthToken none, ()⟩ ended)
    (met : NoCycleCarriesEnded tasks config clearer ⟨.writeAuthToken none, ()⟩) :
    TokenGone tasks token ended := by
  cases cleared with
  | @perform action next reply shared pending performed =>
      obtain ⟨_, rfl⟩ := performed
      constructor
      · intro same
        cases same
      · intro other unfinished
        have carried := met token rfl live other
        rw [cyclePhases, Config.phase_advance]
        by_cases same : other = clearer
        · subst same
          rw [Function.update_self]
          intro holds
          rcases cycleNext_holding holds with held | copied
          · exact carried (unfinished_of_pending pending) held
          · cases copied
        · rw [Function.update_of_ne same]
          simp only [Config.advance, Function.update_of_ne same] at unfinished
          exact carried unfinished

theorem TokenGone.reached {initial config : AgentConfig ι Unit}
    (reached : Reaches (agentSemantics ι) (fun config thread event =>
      NoCycleCarriesEnded tasks config thread event ∧ NotAdopted token config thread event)
      initial config)
    (follows : initial.Follows cycleSteps fun thread => (tasks thread).firstPhase)
    (gone : TokenGone tasks token initial) :
    config.Follows cycleSteps (fun thread => (tasks thread).firstPhase) ∧
      TokenGone tasks token config := by
  refine reached.invariant_config (TokenGone tasks token) follows gone ?_
  intro before thread action next reply shared _follows gone pending _allowed performed met
  exact gone.step (unfinished_of_pending pending) performed met.2

theorem cycleNext_ne_free {phase : CyclePhase} (action : Effect) (reply : action.Reply)
    (busy : phase ≠ .free) : cycleNext phase action reply ≠ .free := by
  cases phase with
  | free => exact absurd rfl busy
  | waiting =>
      cases action with
      | readAuthToken => cases reply <;> exact CyclePhase.noConfusion
      | _ => exact CyclePhase.noConfusion
  | holding held =>
      cases action with
      | send request =>
          cases reply with
          | error e => exact CyclePhase.noConfusion
          | ok response =>
              change (if response.isRejection then CyclePhase.rejected held
                else .holding held) ≠ .free
              split <;> exact CyclePhase.noConfusion
      | _ => exact CyclePhase.noConfusion
  | rejected refused => cases action <;> exact CyclePhase.noConfusion
  | cleared refused => cases action <;> exact CyclePhase.noConfusion
  | ended => exact CyclePhase.noConfusion

omit [DecidableEq ι] in
theorem cycle_not_free {config : AgentConfig ι Unit} {thread : ι}
    (isCycle : tasks thread = .cycle) : cyclePhases tasks config thread ≠ .free := by
  apply config.phase_keeps fun phase : CyclePhase => phase ≠ .free
  · rw [isCycle]
    exact CyclePhase.noConfusion
  · exact fun phase action reply busy => cycleNext_ne_free action reply busy

omit [DecidableEq ι] in
private theorem sender_carries {config : AgentConfig ι Unit} {sender : ι} {token : String}
    {payload : JsonApiPayload} (isCycle : tasks sender = .cycle)
    (allowed : cycleAllowed (cyclePhases tasks config sender) (.send (.data token payload))) :
    cyclePhases tasks config sender = .holding token := by
  cases phase : cyclePhases tasks config sender with
  | free => exact absurd phase (cycle_not_free isCycle)
  | holding held =>
      rw [phase] at allowed
      rcases allowed with quiet | ⟨request, same, bearer⟩
      · cases quiet
      · cases same
        rw [← bearer]
        rfl
  | ended =>
      rw [phase] at allowed
      exact allowed.elim
  | _ =>
      rw [phase] at allowed
      cases allowed

/-- No data goes out with the token of a session that has ended, unless the
token was taken up again, in every run whose session ends find no cycle under
way with their token. -/
theorem ended_session_sends_no_data (crates : Crates) (build : Build) (tasks : ι → AgentTask)
    (start : World) (config ended later after : AgentConfig ι Unit) (clearer sender : ι)
    (token : String) (payload : JsonApiPayload) (reply : Except String Response)
    (reached : Reaches (agentSemantics ι) (NoCycleCarriesEnded tasks)
      (Config.fresh start fun thread => (tasks thread).program crates build) config)
    (live : config.shared.authToken = some token)
    (cleared : Step (agentSemantics ι) config clearer ⟨.writeAuthToken none, ()⟩ ended)
    (met : NoCycleCarriesEnded tasks config clearer ⟨.writeAuthToken none, ()⟩)
    (since : Reaches (agentSemantics ι) (fun config thread event =>
      NoCycleCarriesEnded tasks config thread event ∧ NotAdopted token config thread event)
      ended later) :
    ¬ Step (agentSemantics ι) later sender ⟨.send (.data token payload), reply⟩ after := by
  intro sent
  have follows := reached.follows fun thread => (tasks thread).conforms
  have gone := TokenGone.reached since (cleared.follows follows) (.ended live cleared met)
  have sends := since.only (cleared.only (reached.only fun thread => (tasks thread).sends_data))
    sender
  cases sent with
  | @perform action next reply shared pending performed =>
      rw [pending, Prog.only_act] at sends
      have conforms := gone.1 sender
      rw [pending, Prog.conforms_act] at conforms
      exact gone.2.carried sender (unfinished_of_pending pending)
        (sender_carries (sends.1 rfl) conforms.1)

/-! A sign out that is complete before the cycle has anything to send. -/

private def cycleAndSignOut : Bool → AgentTask
  | true => .cycle
  | false => .signOut

private def aliceReporting : World :=
  { World.firstStart with
    authToken := some "alice-token"
    userLabel := some "Alice Andersen"
    deviceIdentity := some "C02XK1ABJG5H" }

private def firewallConfig : Value :=
  .object [("data", .array [.object [("id", .string "firewall"), ("type", .string "builtin"),
    ("check", .string "firewall")]])]

private def firewallRows : Value := .array [.object [("enabled", .bool true)]]

theorem ended_session_sends_data :
    ¬ ∀ (crates : Crates) (build : Build) (ι : Type) [DecidableEq ι] (tasks : ι → AgentTask)
        (start : World) (config ended later after : AgentConfig ι Unit) (clearer sender : ι)
        (token : String) (payload : JsonApiPayload) (reply : Except String Response),
      Reaches (agentSemantics ι) AnyStep
        (Config.fresh start fun thread => (tasks thread).program crates build) config →
      config.shared.authToken = some token →
      Step (agentSemantics ι) config clearer ⟨.writeAuthToken none, ()⟩ ended →
      Reaches (agentSemantics ι) (NotAdopted token) ended later →
      ¬ Step (agentSemantics ι) later sender ⟨.send (.data token payload), reply⟩ after := by
  intro claim
  have started : Reaches (agentSemantics Bool) AnyStep
      (Config.fresh aliceReporting fun thread =>
        (cycleAndSignOut thread).program .uncalled ⟨"linux", "0.1.12"⟩) _ := Reaches.refl _
  have copied := started.perform true ⟨.readAuthToken, some "alice-token"⟩ rfl ⟨rfl, rfl⟩ trivial
  have configured := copied.perform true
    ⟨.send (.config "alice-token"), .ok ⟨200, .ok firewallConfig⟩⟩ rfl rfl trivial
  have labelled := configured.perform true ⟨.readUserLabel, some "Alice Andersen"⟩ rfl ⟨rfl, rfl⟩
    trivial
  have checked := labelled.perform true ⟨.runBuiltinCheck "firewall", firewallRows⟩ rfl rfl
    trivial
  have stamped := checked.perform true ⟨.now, "2026-10-01T08:00:00Z"⟩ rfl rfl trivial
  have identified := stamped.perform true ⟨.readDeviceIdentity, some "C02XK1ABJG5H"⟩ rfl
    ⟨rfl, rfl⟩ trivial
  have ended := identified.perform false ⟨.writeAuthToken none, ()⟩ rfl ⟨rfl, rfl⟩ trivial
  have cleared := (ended.anew (NotAdopted "alice-token")).perform false
    ⟨.writeUserLabel none, ()⟩ rfl rfl (by simp [NotAdopted])
  have removed := cleared.perform false ⟨.fileDelete .authToken, ()⟩ rfl rfl
    (by simp [NotAdopted])
  have signedOut := removed.perform false ⟨.openEntry .authToken, .error "no service"⟩ rfl rfl
    (by simp [NotAdopted])
  exact claim .uncalled ⟨"linux", "0.1.12"⟩ Bool cycleAndSignOut aliceReporting _ _ _ _ false true
    "alice-token" _ (.error "timed out") identified rfl (.perform rfl ⟨rfl, rfl⟩) signedOut
    (.perform rfl rfl)

/-- A sign out after the cycle has given up on its configuration. -/
theorem ended_session_sends_no_data_idle :
    ∃ ended : AgentConfig Bool Unit, ended.shared.authToken = none ∧
      ∀ payload reply after,
        ¬ Step (agentSemantics Bool) ended true ⟨.send (.data "alice-token" payload), reply⟩
          after := by
  have started : Reaches (agentSemantics Bool) (NoCycleCarriesEnded cycleAndSignOut)
      (Config.fresh aliceReporting fun thread =>
        (cycleAndSignOut thread).program .uncalled ⟨"linux", "0.1.12"⟩) _ := Reaches.refl _
  have copied := started.perform true ⟨.readAuthToken, some "alice-token"⟩ rfl ⟨rfl, rfl⟩
    (fun _ other => by cases other)
  have missing := copied.perform true
    ⟨.send (.config "alice-token"), .ok ⟨404, .error "no body"⟩⟩ rfl rfl
    (fun _ other => by cases other)
  refine ⟨_, rfl, fun payload reply after => ended_session_sends_no_data .uncalled ⟨"linux", "0.1.12"⟩
    cycleAndSignOut aliceReporting _ _ _ after false true "alice-token" payload reply missing rfl
    (.perform rfl ⟨rfl, rfl⟩) ?_ (Reaches.refl _)⟩
  rintro token _ _ (_ | _) unfinished holds
  · change CyclePhase.free = _ at holds
    cases holds
  · exact unfinished () rfl

end KlaayGuard
