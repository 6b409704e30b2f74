/-
What one cycle does to the network and to the session.

Each action of a cycle is permitted by what the cycle has been told so far, so
the limits on its requests and the fate of the token are read off its own
history, whatever the server answers and whatever the other tasks do that leave
the token alone.
-/

import KlaayGuard.Collection

set_option autoImplicit false

namespace KlaayGuard

open EffectProgram Prog

def configReply : AgentEvent → Option (Except String Response)
  | ⟨.send (.config _), reply⟩ => some reply
  | _ => none

def dataReply : AgentEvent → Option (Except String Response)
  | ⟨.send (.data _ _), reply⟩ => some reply
  | _ => none

theorem action_of_configReply {event : AgentEvent} (asked : configReply event ≠ none) :
    ∃ bearer, event.action = .send (.config bearer) := by
  obtain ⟨action, reply⟩ := event
  cases action with
  | send request =>
      cases request with
      | config bearer => exact ⟨bearer, rfl⟩
      | _ => exact absurd rfl asked
  | _ => exact absurd rfl asked

theorem action_of_dataReply {event : AgentEvent} (posted : dataReply event ≠ none) :
    ∃ bearer payload, event.action = .send (.data bearer payload) := by
  obtain ⟨action, reply⟩ := event
  cases action with
  | send request =>
      cases request with
      | data bearer payload => exact ⟨bearer, payload, rfl⟩
      | _ => exact absurd rfl posted
  | _ => exact absurd rfl posted

def InvitesRetry : Except String Response → Prop
  | .error _ => True
  | .ok response => response.status = 429 ∨ (500 ≤ response.status ∧ response.status ≤ 599)

def Refuses : Except String Response → Prop
  | .error _ => False
  | .ok response => response.status = 401 ∨ response.status = 403

def Refused (history : List AgentEvent) : Prop :=
  ∃ reply, (reply ∈ (history.filterMap configReply).getLast? ∨
    reply ∈ (history.filterMap dataReply).getLast?) ∧ Refuses reply

/-- A request goes out at most three times, and again only after a reply that
invites it. -/
def MaySend (replies : List (Except String Response)) : Prop :=
  replies.length < 3 ∧ ∀ reply ∈ replies.getLast?, InvitesRetry reply

/-- The last of the replies was 2xx, and its body a configuration that keeps at
least one item. -/
def CollectsFrom (os : String) (replies : List (Except String Response)) : Prop :=
  ∃ response cfg, replies.getLast? = some (.ok response) ∧
    200 ≤ response.status ∧ response.status ≤ 299 ∧ response.body = .ok cfg ∧
    parseConfigItems cfg os ≠ []

/-- What a cycle may do next. -/
def cycleMay (os : String) (history : List AgentEvent) : Effect → Prop
  | .readAuthToken => history = []
  | .writeAuthToken token => token = none ∧ Refused history
  | .send (.me _) => False
  | .send (.config bearer) =>
      ⟨.readAuthToken, some bearer⟩ ∈ history ∧ MaySend (history.filterMap configReply)
  | .send (.data bearer payload) =>
      ⟨.readAuthToken, some bearer⟩ ∈ history ∧ MaySend (history.filterMap dataReply) ∧
        CollectsFrom os (history.filterMap configReply) ∧ payload.data ≠ []
  | _ => True

/-- How a cycle may end: it has asked for the configuration when it had a token,
and it has cleared the token exactly when it was refused. -/
def cycleEnds (history : List AgentEvent) : Prop :=
  (∃ token, ⟨.readAuthToken, token⟩ ∈ history ∧
    (token ≠ none → history.filterMap configReply ≠ [])) ∧
  (Refused history ↔ ⟨.writeAuthToken none, ()⟩ ∈ history)

structure Told (bearer : String) (configs datas : List (Except String Response))
    (history : List AgentEvent) : Prop where
  read : ⟨.readAuthToken, some bearer⟩ ∈ history
  configs : history.filterMap configReply = configs
  datas : history.filterMap dataReply = datas
  uncleared : ⟨.writeAuthToken none, ()⟩ ∉ history

variable {bearer os : String} {configs datas : List (Except String Response)}
variable {history : List AgentEvent} {crates : Crates} {build : Build}

theorem Told.leavesSession (told : Told bearer configs datas history) (action : Effect)
    (reply : action.Reply) (kind : action.leavesSession = true) :
    Told bearer configs datas (history ++ [⟨action, reply⟩]) := by
  have silent : configReply ⟨action, reply⟩ = none ∧ dataReply ⟨action, reply⟩ = none := by
    cases action <;> first | exact ⟨rfl, rfl⟩ | cases kind
  constructor
  · exact List.mem_append_left _ told.read
  · rw [List.filterMap_append, told.configs]
    simp [silent.1]
  · rw [List.filterMap_append, told.datas]
    simp [silent.2]
  · intro member
    rcases List.mem_append.mp member with earlier | last
    · exact told.uncleared earlier
    · cases List.mem_singleton.mp last
      cases kind

theorem Told.config (told : Told bearer configs datas history) (token : String)
    (reply : Except String Response) :
    Told bearer (configs ++ [reply]) datas (history ++ [⟨.send (.config token), reply⟩]) := by
  constructor
  · exact List.mem_append_left _ told.read
  · rw [List.filterMap_append, told.configs]
    rfl
  · rw [List.filterMap_append, told.datas]
    exact List.append_nil _
  · intro member
    rcases List.mem_append.mp member with earlier | last
    · exact told.uncleared earlier
    · cases List.mem_singleton.mp last

theorem Told.data (told : Told bearer configs datas history) (token : String)
    (payload : JsonApiPayload) (reply : Except String Response) :
    Told bearer configs (datas ++ [reply])
      (history ++ [⟨.send (.data token payload), reply⟩]) := by
  constructor
  · exact List.mem_append_left _ told.read
  · rw [List.filterMap_append, told.configs]
    exact List.append_nil _
  · rw [List.filterMap_append, told.datas]
    rfl
  · intro member
    rcases List.mem_append.mp member with earlier | last
    · exact told.uncleared earlier
    · cases List.mem_singleton.mp last

theorem Told.ends (told : Told bearer configs datas history) (asked : configs ≠ [])
    (accepted : ¬ Refused history) : cycleEnds history := by
  refine ⟨⟨some bearer, told.read, fun _ => ?_⟩, ?_⟩
  · rw [told.configs]
    exact asked
  · exact ⟨fun refused => absurd refused accepted, fun written => absurd written told.uncleared⟩

def AnsweredRequest (bearer : String) (history : List AgentEvent)
    (reply : Except String Response) : Prop :=
  ∃ earlier, Told bearer (earlier ++ [reply]) [] history

/-! ### The cycle keeps to what it may do -/

theorem isTransientStatus_iff (code : Nat) :
    isTransientStatus code = true ↔ code = 429 ∨ (500 ≤ code ∧ code ≤ 599) := by
  simp [isTransientStatus]

theorem isRejection_iff (resp : Response) :
    resp.isRejection = true ↔ Refuses (.ok resp) := by
  simp [Response.isRejection, Refuses]

/-- The ladder keeps to what a request may do when it may be sent with the
delays that are left, and a reply that invites another sending keeps that so. -/
theorem sendWithRetryFrom_history {request : Request}
    {finished : List AgentEvent → Except String Response → Prop}
    (sending : List AgentEvent → Nat → Prop)
    (may : ∀ history left, sending history left → cycleMay os history (.send request))
    (again : ∀ history left reply delay, sending history (left + 1) → InvitesRetry reply →
      sending (history ++ [⟨.send request, reply⟩] ++ [⟨.sleep delay, ()⟩]) left)
    (ends : ∀ history left reply, sending history left →
      finished (history ++ [⟨.send request, reply⟩]) reply)
    (delays : List Nat) {history : List AgentEvent} (start : sending history delays.length) :
    (sendWithRetryFrom request delays).Conforms (historyProtocol (cycleMay os) finished)
      history := by
  induction delays generalizing history with
  | nil => exact ⟨may history 0 start, fun reply => ends history 0 reply start⟩
  | cons delay delays ih =>
      refine ⟨may history _ start, fun reply => ?_⟩
      cases reply with
      | error e => exact ⟨trivial, fun _ => ih (again history _ _ delay start trivial)⟩
      | ok resp =>
          change Conforms _ (history ++ [⟨.send request, .ok resp⟩])
            (if !resp.isSuccess && isTransientStatus resp.status then (do
              sleep delay
              sendWithRetryFrom request delays) else pure (.ok resp))
          cases retried : !resp.isSuccess && isTransientStatus resp.status with
          | false => exact ends history _ _ start
          | true =>
              rw [Bool.and_eq_true, isTransientStatus_iff] at retried
              exact ⟨trivial, fun _ => ih (again history _ _ delay start retried.2)⟩

theorem getConfig_history {history : List AgentEvent} (told : Told bearer [] [] history) :
    (sendWithRetry (.config bearer)).Conforms
      (historyProtocol (cycleMay os) (AnsweredRequest bearer)) history := by
  refine sendWithRetryFrom_history
    (fun history left => ∃ configs, Told bearer configs [] history ∧
      configs.length + left = 2 ∧ ∀ reply ∈ configs.getLast?, InvitesRetry reply)
    ?_ ?_ ?_ retryDelays ⟨[], told, rfl, by simp⟩
  · rintro history left ⟨configs, told, count, invited⟩
    refine ⟨told.read, ?_⟩
    rw [told.configs]
    exact ⟨by omega, invited⟩
  · rintro history left reply delay ⟨configs, told, count, _⟩ invites
    refine ⟨configs ++ [reply], (told.config bearer reply).leavesSession (.sleep delay) () rfl,
      ?_, ?_⟩
    · rw [List.length_append, List.length_singleton]
      omega
    · simpa using invites
  · rintro history left reply ⟨configs, told, _, _⟩
    exact ⟨configs, told.config bearer reply⟩

theorem postData_history {history : List AgentEvent} {payload : JsonApiPayload}
    (told : Told bearer configs [] history) (collects : CollectsFrom os configs)
    (rows : payload.data ≠ []) :
    (sendWithRetry (.data bearer payload)).Conforms
      (historyProtocol (cycleMay os) fun history reply =>
        ∃ earlier, Told bearer configs (earlier ++ [reply]) history) history := by
  refine sendWithRetryFrom_history
    (fun history left => ∃ datas, Told bearer configs datas history ∧
      datas.length + left = 2 ∧ ∀ reply ∈ datas.getLast?, InvitesRetry reply)
    ?_ ?_ ?_ retryDelays ⟨[], told, rfl, by simp⟩
  · rintro history left ⟨datas, told, count, invited⟩
    refine ⟨told.read, ?_⟩
    rw [told.datas, told.configs]
    exact ⟨⟨by omega, invited⟩, collects, rows⟩
  · rintro history left reply delay ⟨datas, told, count, _⟩ invites
    refine ⟨datas ++ [reply],
      (told.data bearer payload reply).leavesSession (.sleep delay) () rfl, ?_, ?_⟩
    · rw [List.length_append, List.length_singleton]
      omega
    · simpa using invites
  · rintro history left reply ⟨datas, told, _, _⟩
    exact ⟨datas, told.data bearer payload reply⟩

private def invalidation : List AgentEvent :=
  [⟨.writeAuthToken none, ()⟩, ⟨.writeUserLabel none, ()⟩]

theorem invalidateAuth_history (told : Told bearer configs datas history)
    (asked : configs ≠ []) (refused : Refused history) :
    (invalidateAuth >>= fun _ => pure (.ok ()) : Program (Except String Unit)).Conforms
      (historyProtocol (cycleMay os) fun history _ => cycleEnds history) history := by
  refine ⟨⟨rfl, refused⟩, fun _ => ⟨trivial, fun _ => ?_⟩⟩
  have whole : history ++ [⟨.writeAuthToken none, ()⟩] ++ [⟨.writeUserLabel none, ()⟩] =
      history ++ invalidation := List.append_assoc _ _ _
  have unheard : (history ++ invalidation).filterMap configReply =
      history.filterMap configReply ∧
      (history ++ invalidation).filterMap dataReply = history.filterMap dataReply := by
    rw [List.filterMap_append, List.filterMap_append]
    exact ⟨List.append_nil _, List.append_nil _⟩
  change cycleEnds (history ++ [⟨.writeAuthToken none, ()⟩] ++ [⟨.writeUserLabel none, ()⟩])
  rw [whole, cycleEnds, Refused, unheard.1, unheard.2]
  refine ⟨⟨some bearer, List.mem_append_left _ told.read, fun _ => ?_⟩, ?_⟩
  · rw [told.configs]
    exact asked
  · exact ⟨fun _ => List.mem_append_right _ List.mem_cons_self, fun _ => refused⟩

theorem Told.refused_iff (told : Told bearer configs datas history) :
    Refused history ↔
      ∃ reply, (reply ∈ configs.getLast? ∨ reply ∈ datas.getLast?) ∧ Refuses reply := by
  rw [Refused, told.configs, told.datas]

theorem not_refuses_of_isSuccess {resp : Response} (success : resp.isSuccess = true) :
    ¬ Refuses (.ok resp) := by
  simp only [Response.isSuccess, Bool.and_eq_true, decide_eq_true_eq] at success
  rintro (status | status) <;> omega

theorem CollectsFrom.not_refuses (collects : CollectsFrom os configs) :
    ¬ ∃ reply ∈ configs.getLast?, Refuses reply := by
  obtain ⟨response, cfg, last, low, high, _⟩ := collects
  rw [last]
  rintro ⟨reply, same, refuses⟩
  cases same
  rcases refuses with status | status <;> omega

theorem postItems_history {items : List JsonApiResource} {deviceSerial : String}
    (told : Told bearer configs [] history) (collects : CollectsFrom os configs)
    (rows : items ≠ []) :
    (postItems build bearer items deviceSerial).Conforms
      (historyProtocol (cycleMay os) fun history _ => cycleEnds history) history := by
  have asked : configs ≠ [] := by
    obtain ⟨response, _, last, _⟩ := collects
    rintro rfl
    cases last
  rw [postItems]
  refine (postData_history told collects rows).bind ?_
  rintro history reply ⟨earlier, told⟩
  have refused : Refused history ↔ Refuses reply := by
    rw [told.refused_iff]
    constructor
    · rintro ⟨other, inConfigs | inDatas, refuses⟩
      · exact absurd ⟨other, inConfigs, refuses⟩ collects.not_refuses
      · rw [List.getLast?_concat] at inDatas
        cases inDatas
        exact refuses
    · exact fun refuses => ⟨reply, Or.inr (by simp), refuses⟩
  cases reply with
  | error e => exact told.ends asked refused.mp
  | ok resp =>
      change Conforms (historyProtocol (cycleMay os) fun history _ => cycleEnds history) history
        (if resp.isRejection then (do
          invalidateAuth
          pure (.ok ())) else pure (.ok ()) : Program (Except String Unit))
      split
      · rename_i rejection
        exact invalidateAuth_history told asked (refused.mpr ((isRejection_iff resp).mp rejection))
      · rename_i accepted
        rw [isRejection_iff] at accepted
        exact told.ends asked fun isRefused => accepted (refused.mp isRefused)

theorem assembleItems_history {items : List CollectionItem}
    (told : Told bearer configs datas history) :
    (assembleItems crates items).Conforms
      (historyProtocol (cycleMay os) fun history _ => Told bearer configs datas history)
      history := by
  refine (assembleItems_only items).conforms_of_invariant (Told bearer configs datas) ?_ ?_ ?_ told
  · intro history action _ collecting
    cases action <;> trivial
  · intro history action reply told collecting
    exact told.leavesSession action reply (leavesSession_of_collects collecting)
  · exact fun history result told => told

theorem collectAndPost_history {resp : Response} {earlier : List (Except String Response)}
    (told : Told bearer (earlier ++ [.ok resp]) [] history) (success : resp.isSuccess = true) :
    (collectAndPost crates build bearer resp.body).Conforms
      (historyProtocol (cycleMay build.os) fun history _ => cycleEnds history) history := by
  have asked : earlier ++ [Except.ok resp] ≠ [] := by simp
  have ended : ∀ {history : List AgentEvent}, Told bearer (earlier ++ [.ok resp]) [] history →
      cycleEnds history := by
    intro history told
    refine told.ends asked fun refused => ?_
    obtain ⟨reply, inConfigs | inDatas, refuses⟩ := told.refused_iff.mp refused
    · rw [List.getLast?_concat] at inConfigs
      cases inConfigs
      exact not_refuses_of_isSuccess success refuses
    · cases inDatas
  cases body : resp.body with
  | error e => exact ended told
  | ok cfgJson =>
      simp only [collectAndPost]
      split
      · exact ended told
      · rename_i kept
        rw [List.isEmpty_iff] at kept
        have collects : CollectsFrom build.os (earlier ++ [.ok resp]) := by
          simp only [Response.isSuccess, Bool.and_eq_true, decide_eq_true_eq] at success
          exact ⟨resp, cfgJson, List.getLast?_concat, success.1, success.2, body, kept⟩
        refine (assembleItems_history told).bind ?_
        rintro history ⟨items, deviceSerial⟩ told
        change Conforms _ history
          (if items.length = 0 then pure (.ok ()) else postItems build bearer items deviceSerial)
        split
        · exact ended told
        · rename_i rows
          exact postItems_history told collects fun empty => rows (by rw [empty]; rfl)

theorem handleConfig_history {resp : Response}
    (answered : AnsweredRequest bearer history (.ok resp)) :
    (handleConfig crates build bearer resp).Conforms
      (historyProtocol (cycleMay build.os) fun history _ => cycleEnds history) history := by
  obtain ⟨earlier, told⟩ := answered
  have asked : earlier ++ [Except.ok resp] ≠ [] := by simp
  have refused : Refused history ↔ Refuses (.ok resp) := by
    rw [told.refused_iff]
    simp
  rw [handleConfig]
  split
  · rename_i rejection
    exact invalidateAuth_history told asked (refused.mpr ((isRejection_iff resp).mp rejection))
  · rename_i accepted
    rw [isRejection_iff] at accepted
    split
    · exact told.ends asked fun isRefused => accepted (refused.mp isRefused)
    · rename_i success
      simp only [Bool.not_eq_true', Bool.not_eq_false] at success
      refine ⟨trivial, fun label => ?_⟩
      have named := told.leavesSession .readUserLabel label rfl
      cases label with
      | some name => exact collectAndPost_history named success
      | none =>
          exact ⟨trivial, fun _ =>
            collectAndPost_history (named.leavesSession .spawnRefreshIdentity () rfl) success⟩

theorem runCycle_history :
    (runCycle crates build).Conforms
      (historyProtocol (cycleMay build.os) fun history _ => cycleEnds history) [] := by
  refine ⟨rfl, fun copied => ?_⟩
  cases copied with
  | none =>
      refine ⟨⟨none, List.mem_cons_self, fun absent => absurd rfl absent⟩, ?_⟩
      constructor
      · rintro ⟨reply, inConfigs | inDatas, _⟩
        · cases inConfigs
        · cases inDatas
      · intro written
        cases List.mem_singleton.mp written
  | some token =>
      have told : Told token [] [] [⟨.readAuthToken, some token⟩] := by
        refine ⟨List.mem_cons_self, rfl, rfl, fun written => ?_⟩
        cases List.mem_singleton.mp written
      change Conforms (historyProtocol (cycleMay build.os) fun history _ => cycleEnds history)
        [⟨.readAuthToken, some token⟩] (sendWithRetry (.config token) >>= _)
      refine (getConfig_history told).bind fun history reply answered => ?_
      cases reply with
      | error e =>
          obtain ⟨earlier, told⟩ := answered
          refine told.ends (by simp) fun refused => ?_
          obtain ⟨reply, inConfigs | inDatas, refuses⟩ := told.refused_iff.mp refused
          · rw [List.getLast?_concat] at inConfigs
            cases inConfigs
            exact refuses
          · cases inDatas
      | ok resp => exact handleConfig_history answered

section Run

variable {ι : Type} [DecidableEq ι] {programs : ι → Program Unit} {start : World}
variable {config : AgentConfig ι Unit} {cycle : ι} {token : String}

theorem cycleTask_history :
    (AgentTask.cycle.program crates build).Conforms
      (historyProtocol (cycleMay build.os) fun history _ => cycleEnds history) [] :=
  runCycle_history.bind fun _ _ ends => ends

/-- The token is the one the run began with until the cycle clears it, and the
cycle has read no other. -/
def TokenFollows (token : String) (world : World) (log : List AgentEvent) : Prop :=
  (⟨.writeAuthToken none, ()⟩ ∈ log → world.authToken = none) ∧
    (⟨.writeAuthToken none, ()⟩ ∉ log → world.authToken = some token) ∧
    ∀ copied, ⟨.readAuthToken, copied⟩ ∈ log → copied = some token

omit [DecidableEq ι] in
private theorem TokenFollows.own {world after : World} {log : List AgentEvent} {os : String}
    (follows : TokenFollows token world log) {action : Effect} {reply : action.Reply}
    (may : cycleMay os log action) (performed : performs world action reply after) :
    TokenFollows token after (log ++ [⟨action, reply⟩]) := by
  obtain ⟨cleared, kept, read⟩ := follows
  by_cases writes : ∃ written, action = .writeAuthToken written
  · obtain ⟨written, rfl⟩ := writes
    obtain ⟨rfl, _⟩ := may
    obtain ⟨_, rfl⟩ := performed
    refine ⟨fun _ => rfl, fun unwritten => ?_, fun copied member => ?_⟩
    · exact absurd (List.mem_append_right _ List.mem_cons_self) unwritten
    · rcases List.mem_append.mp member with earlier | last
      · exact read copied earlier
      · cases List.mem_singleton.mp last
  · have same := (performs_session performed).1 fun written same => writes ⟨written, same⟩
    have earlier : ⟨.writeAuthToken none, ()⟩ ∈ log ++ [⟨action, reply⟩] →
        ⟨.writeAuthToken none, ()⟩ ∈ log := by
      intro member
      rcases List.mem_append.mp member with earlier | last
      · exact earlier
      · cases List.mem_singleton.mp last
        exact absurd ⟨none, rfl⟩ writes
    rw [TokenFollows, same]
    refine ⟨fun written => cleared (earlier written),
      fun unwritten => kept fun written => unwritten (List.mem_append_left _ written), ?_⟩
    intro copied member
    rcases List.mem_append.mp member with before | last
    · exact read copied before
    · cases List.mem_singleton.mp last
      -- The cycle reads the token once, before anything else.
      obtain rfl : log = [] := may
      rw [performed.1]
      exact kept List.not_mem_nil

theorem TokenFollows.reached
    (isCycle : programs cycle = AgentTask.cycle.program crates build)
    (leaveToken : ∀ other, other ≠ cycle →
      (programs other).Only fun action => ∀ written, action ≠ .writeAuthToken written)
    (held : start.authToken = some token)
    (reached : Reaches (agentSemantics ι) AnyStep (Config.fresh start programs) config) :
    TokenFollows token config.shared (config.threads cycle).log := by
  have conforms : (programs cycle).Conforms
      (historyProtocol (cycleMay build.os) fun history _ => cycleEnds history) [] := by
    rw [isCycle]
    exact cycleTask_history
  induction reached with
  | refl =>
      refine ⟨fun written => absurd written List.not_mem_nil, fun _ => held,
        fun copied member => ?_⟩
      exact absurd member List.not_mem_nil
  | @tail before _ earlier last ih =>
      have goesOn := (Reaches.history earlier conforms).1
      have quiet : ∀ other, (before.threads other).rest.Only fun action =>
          other ≠ cycle → ∀ written, action ≠ .writeAuthToken written := by
        refine Reaches.only earlier fun other => ?_
        by_cases same : other = cycle
        · exact only_of_forall (fun _ differs => absurd same differs) _
        · exact (leaveToken other same).mono fun _ quiet _ => quiet
      obtain ⟨thread, event, taken, _⟩ := last
      cases taken with
      | @perform action next reply shared pending performed =>
          by_cases same : cycle = thread
          · subst same
            rw [pending, Prog.conforms_act] at goesOn
            simp only [Config.advance, Function.update_self]
            exact ih.own goesOn.1 performed
          · have acting := quiet thread
            rw [pending, Prog.only_act] at acting
            simp only [Config.advance, Function.update_of_ne same]
            rw [TokenFollows, (performs_session performed).1 (acting.1 fun is => same is.symm)]
            exact ih

private theorem replies_le {log : List AgentEvent}
    (replyOf : AgentEvent → Option (Except String Response))
    (limited : ∀ before event later, log = before ++ event :: later →
      replyOf event ≠ none → (before.filterMap replyOf).length < 3) :
    (log.filterMap replyOf).length ≤ 3 := by
  induction log using List.reverseRecOn with
  | nil => exact Nat.zero_le 3
  | append_singleton log last ih =>
      rw [List.filterMap_append, List.length_append]
      cases reply : replyOf last with
      | none =>
          rw [List.filterMap_cons_none reply]
          refine ih fun before event later split => limited before event (later ++ [last]) ?_
          rw [split, List.append_assoc, List.cons_append]
      | some value =>
          rw [List.filterMap_cons_some reply]
          have fewer := limited log last [] rfl (by simp [reply])
          exact fewer

/-- In every run whose other tasks leave the token alone, a cycle sends each of
its requests at most three times and only when it may, and once it has ended it
has asked for the configuration, and has cleared the token exactly where the
last response to one of the two requests was a refusal. -/
theorem cycle_requests_and_token (crates : Crates) (build : Build) {ι : Type} [DecidableEq ι]
    (programs : ι → Program Unit) (start : World) (config : AgentConfig ι Unit) (cycle : ι)
    (token : String) (isCycle : programs cycle = AgentTask.cycle.program crates build)
    (leaveToken : ∀ other, other ≠ cycle →
      (programs other).Only fun action => ∀ written, action ≠ .writeAuthToken written)
    (held : start.authToken = some token)
    (reached : Reaches (agentSemantics ι) AnyStep (Config.fresh start programs) config) :
    let log := (config.threads cycle).log
    (log.filterMap configReply).length ≤ 3 ∧ (log.filterMap dataReply).length ≤ 3 ∧
      (∀ before event later, log = before ++ event :: later →
        cycleMay build.os before event.action) ∧
      ∀ result, (config.threads cycle).rest = .done result →
        1 ≤ (log.filterMap configReply).length ∧
        (Refused log → config.shared.authToken = none) ∧
        (¬ Refused log → config.shared.authToken = some token) := by
  intro log
  have conforms : (programs cycle).Conforms
      (historyProtocol (cycleMay build.os) fun history _ => cycleEnds history) [] := by
    rw [isCycle]
    exact cycleTask_history
  obtain ⟨goesOn, permitted⟩ := reached.history conforms
  obtain ⟨cleared, kept, read⟩ := TokenFollows.reached isCycle leaveToken held reached
  refine ⟨replies_le _ ?_, replies_le _ ?_, permitted, fun result ended => ?_⟩
  · intro before event later split asked
    obtain ⟨bearer, isConfig⟩ := action_of_configReply asked
    have may := permitted before event later split
    rw [isConfig] at may
    exact may.2.1
  · intro before event later split posted
    obtain ⟨bearer, payload, isData⟩ := action_of_dataReply posted
    have may := permitted before event later split
    rw [isData] at may
    exact may.2.1.1
  · rw [ended, Prog.conforms_done] at goesOn
    obtain ⟨⟨copied, copies, asks⟩, refusals⟩ := goesOn
    refine ⟨?_, fun refused => cleared (refusals.mp refused),
      fun accepted => kept fun written => accepted (refusals.mpr written)⟩
    have asked := asks (by rw [read copied copies]; exact Option.some_ne_none token)
    exact List.length_pos_iff.mpr asked

end Run

theorem refreshIdentity_leaves_token :
    (refreshIdentity crates).Only fun action => ∀ written, action ≠ .writeAuthToken written := by
  refine ⟨nofun, fun copied => ?_⟩
  cases copied with
  | none => trivial
  | some token =>
      have asks : (fetchIdentity crates token).Only
          fun action => ∀ written, action ≠ .writeAuthToken written :=
        ⟨nofun, fun _ => trivial⟩
      refine asks.bind fun identity => ?_
      cases identity with
      | rejected => trivial
      | unknown => trivial
      | accepted label =>
          refine ⟨nofun, fun held => ?_⟩
          change Only _ (if held ≠ some token then releaseAuthToken
            else writeUserLabel label >>= fun _ => releaseAuthToken : Program Unit)
          split
          · exact ⟨nofun, fun _ => trivial⟩
          · exact ⟨nofun, fun _ => ⟨nofun, fun _ => trivial⟩⟩

/-! A cycle whose second request for the configuration is refused, beside a
refresh of the name. -/

private def refreshBesideCycle : Bool → Program Unit
  | true => AgentTask.cycle.program .uncalled ⟨"linux", "0.1.12"⟩
  | false => refreshIdentity .uncalled

private def signedIn : World := { World.firstStart with authToken := some "alice-token" }

theorem cycle_requests_and_token_refused :
    ∃ config : AgentConfig Bool Unit,
      1 ≤ ((config.threads true).log.filterMap configReply).length ∧
        config.shared.authToken = none := by
  have started : Reaches (agentSemantics Bool) AnyStep
      (Config.fresh signedIn refreshBesideCycle) _ := Reaches.refl _
  have copied := started.perform true ⟨.readAuthToken, some "alice-token"⟩ rfl ⟨rfl, rfl⟩ trivial
  have busy := copied.perform true ⟨.send (.config "alice-token"), .ok ⟨503, .error "no body"⟩⟩
    rfl rfl trivial
  have named := busy.perform false ⟨.readAuthToken, some "alice-token"⟩ rfl ⟨rfl, rfl⟩ trivial
  have waited := named.perform true ⟨.sleep 60, ()⟩ rfl rfl trivial
  have refused := waited.perform true
    ⟨.send (.config "alice-token"), .ok ⟨401, .error "no body"⟩⟩ rfl rfl trivial
  have cleared := refused.perform true ⟨.writeAuthToken none, ()⟩ rfl ⟨rfl, rfl⟩ trivial
  have unnamed := cleared.perform true ⟨.writeUserLabel none, ()⟩ rfl rfl trivial
  have leaveToken : ∀ other : Bool, other ≠ true → (refreshBesideCycle other).Only
      fun action => ∀ written, action ≠ .writeAuthToken written := by
    rintro (_ | _) differs
    · exact refreshIdentity_leaves_token
    · exact absurd rfl differs
  obtain ⟨asked, gone, _⟩ := (cycle_requests_and_token .uncalled ⟨"linux", "0.1.12"⟩
    refreshBesideCycle signedIn _ true "alice-token" rfl leaveToken rfl unnamed).2.2.2 () rfl
  exact ⟨_, asked, gone ⟨.ok ⟨401, .error "no body"⟩, Or.inl rfl, Or.inl rfl⟩⟩

end KlaayGuard
