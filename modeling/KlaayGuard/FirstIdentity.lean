/-
The first identity of a device, and what the server's query set has to do with it.

The identity is decided from a serial and from the machine id.  The serial is looked
for in what the cycle collected under `system_info`, whatever query gave it those rows,
and only where the cycle collected nothing there, in the answer to a query of its own.
-/

import KlaayGuard.CheckinRows

set_option autoImplicit false

namespace KlaayGuard

open EffectProgram Prog

/-- What a host answers: to the query for its system information, and with its machine id. -/
structure Host : Type where
  systemInfo : SidecarOutcome
  machineId : Option String

structure World.Fresh (world : World) : Prop where
  uncached : world.deviceIdentity = none
  noEntry : world.keyring .deviceIdentity = none
  noFile : world.fallbackFile .deviceIdentity = none

def AnswersAs (crates : Crates) (host : Host) (events : List AgentEvent) : Prop :=
  ∀ outcome, ⟨.runSidecar "SELECT * FROM system_info", outcome⟩ ∈ events →
    queryRows crates outcome = queryRows crates host.systemInfo

def Undrawn (events : List AgentEvent) : Prop :=
  ∀ reply, ⟨Effect.fillRandom, reply⟩ ∉ events

/-- The first call on the host, for what the cycle collected under `system_info`. -/
structure FirstCall (crates : Crates) (host : Host) (collected : Option Value)
    (events : List AgentEvent) (result : Except String String) : Prop where
  run : ∃ before after, before.Fresh ∧ before.machineId = host.machineId ∧
    (getDeviceIdentityInternal crates collected).Runs before events after result
  answers : AnswersAs crates host events

/-- The first cycle on the host: what its items collect under `system_info`, and the identity that
its check-in goes under.  Only the query of the call itself must give the host's answer. -/
structure FirstCycle (crates : Crates) (host : Host) (items : List CollectionItem)
    (collected : Option Value) (events : List AgentEvent) (serial : String) : Prop where
  run : ∃ before after resources, before.Fresh ∧ before.machineId = host.machineId ∧
    (assembleItems crates items).Runs before events after (resources, serial) ∧
    ∀ middle results, (collectRows crates items).Runs before (gathered events) middle results →
      Value.member "system_info" results = collected
  answers : AnswersAs crates host (events.drop (gathered events).length)

def SameFirstIdentity (crates : Crates) (host : Host) (collected collected' : Option Value) :
    Prop :=
  ∀ events events' result result', FirstCall crates host collected events result →
    FirstCall crates host collected' events' result' → Undrawn events ∨ Undrawn events' →
    result = result'

variable (crates : Crates) (host : Host)

def Host.rows : Value := (queryRows crates host.systemInfo).toOption.getD .null

def serialSeen (collected : Option Value) : Option String :=
  extractSerial (collected.getD (host.rows crates))

def Host.hashedMachineId : Option String :=
  (host.machineId.bind normalizeMachineId).map (hashMachineId crates)

/-- Both calls see one serial; or one of them sees none, and the hash of the machine id happens to
be the serial the other sees. -/
def SameSource (collected collected' : Option Value) : Prop :=
  let serial := serialSeen crates host collected
  let serial' := serialSeen crates host collected'
  serial = serial' ∨ (serial = none ∧ serial' = host.hashedMachineId crates) ∨
    (serial' = none ∧ serial = host.hashedMachineId crates)

/-- The identity that needs no random one. -/
def chosenIdentity (collected : Option Value) : Option String :=
  (serialSeen crates host collected).or (host.hashedMachineId crates)

variable {crates host} {collected collected' : Option Value} {events : List AgentEvent}

private theorem or_eq_or_iff {left right fallback : Option String} :
    left.or fallback = right.or fallback ↔
      left = right ∨ (left = none ∧ right = fallback) ∨ (right = none ∧ left = fallback) := by
  cases left with
  | none =>
      cases right with
      | none => simp
      | some r => simp [eq_comm]
  | some l =>
      cases right with
      | none => simp
      | some r => simp

theorem sameSource_iff :
    SameSource crates host collected collected' ↔
      chosenIdentity crates host collected = chosenIdentity crates host collected' :=
  or_eq_or_iff.symm

theorem extractSerial_ne_empty {rows : Value} {serial : String}
    (found : extractSerial rows = some serial) : serial ≠ "" := by
  rw [extractSerial] at found
  split at found
  · cases found
  · obtain ⟨key, _, atKey⟩ := List.exists_of_findSome?_eq_some found
    have kept := (Option.filter_eq_some_iff.mp atKey).2
    simp only [Bool.and_eq_true, decide_eq_true_eq] at kept
    exact kept.1

theorem decideDeviceIdentity_of_chosen {identity : String}
    (chosen : chosenIdentity crates host collected = some identity) :
    decideDeviceIdentity crates none (serialSeen crates host collected) host.machineId =
      .adopt identity := by
  rw [chosenIdentity] at chosen
  cases seen : serialSeen crates host collected with
  | some serial =>
      have kept : (some serial).filter (· ≠ "") = some serial := by
        simp [Option.filter, extractSerial_ne_empty seen]
      rw [seen, Option.some_or, Option.some.injEq] at chosen
      rw [decideDeviceIdentity, Option.filter_none, kept, chosen]
  | none =>
      rw [seen, Option.none_or, Host.hashedMachineId, Option.map_eq_some_iff] at chosen
      obtain ⟨id, valid, rfl⟩ := chosen
      rw [decideDeviceIdentity, Option.filter_none, valid]

theorem decideDeviceIdentity_of_unchosen (unchosen : chosenIdentity crates host collected = none) :
    decideDeviceIdentity crates none (serialSeen crates host collected) host.machineId =
      .generate := by
  rw [chosenIdentity, Option.or_eq_none_iff, Host.hashedMachineId, Option.map_eq_none_iff]
    at unchosen
  rw [decideDeviceIdentity, unchosen.1, unchosen.2, Option.filter_none]

variable {before after : World} {result : Except String String}

theorem hardwareSerial_seen {serial : Option String} (answers : AnswersAs crates host events)
    (run : (hardwareSerial crates collected).Runs before events after serial) :
    serial = serialSeen crates host collected := by
  cases collected with
  | some rows => exact (runs_done.mp run).2.2
  | none =>
      obtain ⟨outcome, middle, rest, _, rfl, afterAnswer⟩ := runs_act.mp run
      have rows := answers outcome List.mem_cons_self
      rw [serialSeen, Option.getD_none, Host.rows, ← rows]
      cases outcome with
      | unavailable message => exact (runs_done.mp afterAnswer).2.2
      | spawnFailed message => exact (runs_done.mp afterAnswer).2.2
      | exited success stdout => exact (runs_done.mp afterAnswer).2.2

theorem hostIdentity_chosen (answers : AnswersAs crates host events)
    (machine : before.machineId = host.machineId)
    (run : (hostIdentity crates collected).Runs before events after result) :
    (∀ identity, chosenIdentity crates host collected = some identity → result = .ok identity) ∧
      (chosenIdentity crates host collected = none → ¬ Undrawn events) := by
  obtain ⟨middle, serial, first, second, atSerial, afterSerial, rfl⟩ := runs_bind.mp run
  have answersFirst : AnswersAs crates host first :=
    fun outcome member => answers outcome (List.mem_append_left _ member)
  obtain rfl := hardwareSerial_seen answersFirst atSerial
  obtain ⟨rfl, _⟩ := hardwareSerial_runs atSerial
  obtain ⟨machineId, late, rest, ⟨rfl, rfl⟩, rfl, afterId⟩ := runs_act.mp afterSerial
  dsimp only [Prog.bind] at afterId
  cases chosen : chosenIdentity crates host collected with
  | some identity =>
      rw [machine, decideDeviceIdentity_of_chosen chosen] at afterId
      obtain ⟨_, _, rfl⟩ := runs_done.mp afterId
      simp
  | none =>
      rw [machine, decideDeviceIdentity_of_unchosen chosen] at afterId
      obtain ⟨reply, last, rest', _, rfl, _⟩ := runs_act.mp afterId
      have drawn : ⟨Effect.fillRandom, reply⟩ ∈
          first ++ ⟨.readMachineId, late.machineId⟩ :: ⟨.fillRandom, reply⟩ :: rest' := by simp
      exact ⟨nofun, fun _ undrawn => undrawn reply drawn⟩

theorem FirstCall.asks (call : FirstCall crates host collected events result) :
    ∃ before lead asked tail, before.machineId = host.machineId ∧
      events = lead ++ asked ++ tail ∧
      (hostIdentity crates collected).Runs before asked before result := by
  obtain ⟨before, after, fresh, machine, run⟩ := call.run
  obtain ⟨cached, middle, rest, ⟨inCache, rfl⟩, rfl, afterCache⟩ := runs_act.mp run
  obtain rfl : cached = none := inCache.trans fresh.uncached
  change (loadOrDecide crates collected).Runs middle rest after result at afterCache
  obtain ⟨loaded, answer, first, second, atLoad, afterLoad, rfl⟩ := runs_bind.mp afterCache
  obtain ⟨rfl, loads⟩ := load_runs atLoad
  have nothing : loaded.storedCredential .deviceIdentity = none := by
    simp [World.storedCredential, fresh.noFile, fresh.noEntry]
  have decides : (decideAndStore crates collected).Runs loaded second after result := by
    rcases loads with found | ⟨_, e, failed⟩
    · rw [nothing] at found
      rw [found] at afterLoad
      exact afterLoad
    · rw [failed] at afterLoad
      exact afterLoad
  obtain ⟨asked, tail, rfl, _, atHost⟩ := decideAndStore_host decides
  exact ⟨loaded, ⟨.readDeviceIdentity, none⟩ :: first, asked, tail, machine, by simp, atHost⟩

theorem FirstCall.chosen (call : FirstCall crates host collected events result) :
    (∀ identity, chosenIdentity crates host collected = some identity → result = .ok identity) ∧
      (chosenIdentity crates host collected = none → ¬ Undrawn events) := by
  obtain ⟨before, lead, asked, tail, machine, rfl, run⟩ := call.asks
  have answers : AnswersAs crates host asked := fun outcome member =>
    call.answers outcome (List.mem_append_left _ (List.mem_append_right _ member))
  obtain ⟨taken, drawn⟩ := hostIdentity_chosen answers machine run
  refine ⟨taken, fun none undrawn => drawn none fun reply member => ?_⟩
  exact undrawn reply (List.mem_append_left _ (List.mem_append_right _ member))

theorem SameSource.sameFirstIdentity (same : SameSource crates host collected collected') :
    SameFirstIdentity crates host collected collected' := by
  intro events events' result result' call call' undrawn
  obtain ⟨taken, drawn⟩ := call.chosen
  obtain ⟨taken', drawn'⟩ := call'.chosen
  rw [← sameSource_iff.mp same] at taken' drawn'
  cases chosen : chosenIdentity crates host collected with
  | some identity => exact (taken identity chosen).trans (taken' identity chosen).symm
  | none => exact absurd undrawn (not_or.mpr ⟨drawn chosen, drawn' chosen⟩)

/-! ### A first call for every collection

Its host has no working store and no randomness, and answers its query once. -/

def Host.world (host : Host) : World := { World.firstStart with machineId := host.machineId }

@[simp] theorem Host.machineId_world (host : Host) : host.world.machineId = host.machineId := rfl

variable (crates host collected)

private theorem hardwareSerial_asks :
    ∃ asked, (hardwareSerial crates collected).Runs host.world asked host.world
        (serialSeen crates host collected) ∧
      ∀ event ∈ asked, event = ⟨.runSidecar "SELECT * FROM system_info", host.systemInfo⟩ := by
  cases collected with
  | some rows => exact ⟨[], .done _ _, by simp⟩
  | none =>
      obtain ⟨systemInfo, machineId⟩ := host
      refine ⟨[⟨.runSidecar "SELECT * FROM system_info", systemInfo⟩], .act rfl ?_, by simp⟩
      cases systemInfo with
      | unavailable message => exact .done _ _
      | spawnFailed message => exact .done _ _
      | exited success stdout => exact .done _ _

private theorem hostIdentity_asks :
    ∃ asked result, (hostIdentity crates collected).Runs host.world asked host.world result ∧
      AnswersAs crates host asked ∧
      (chosenIdentity crates host collected ≠ none → Undrawn asked) ∧
      (chosenIdentity crates host collected = none → result.toOption = none) := by
  obtain ⟨first, atSerial, onlyQuery⟩ := hardwareSerial_asks crates host collected
  have answers : ∀ {tail : List AgentEvent}, (∀ event ∈ tail, event.action = .fillRandom) →
      AnswersAs crates host (first ++ ⟨.readMachineId, host.machineId⟩ :: tail) := by
    intro tail onlyRandom outcome member
    rcases List.mem_append.mp member with inFirst | later
    · cases onlyQuery _ inFirst
      rfl
    · rcases List.mem_cons.mp later with machine | inTail
      · cases machine
      · cases onlyRandom _ inTail
  cases chosen : chosenIdentity crates host collected with
  | some identity =>
      have decided := decideDeviceIdentity_of_chosen chosen
      have nothing : ∀ event ∈ ([] : List AgentEvent), event.action = .fillRandom := by simp
      refine ⟨_, .ok identity, runs_bind.mpr ⟨_, _, _, _, atSerial, .act ⟨rfl, rfl⟩ ?_, rfl⟩,
        answers nothing, fun _ reply member => ?_, nofun⟩
      · dsimp only [Prog.bind]
        rw [Host.machineId_world, decided]
        exact .done _ _
      · rcases List.mem_append.mp member with inFirst | later
        · cases onlyQuery _ inFirst
        · cases List.mem_singleton.mp later
  | none =>
      have decided := decideDeviceIdentity_of_unchosen chosen
      have onlyRandom : ∀ event ∈ [(⟨.fillRandom, .error "unavailable"⟩ : AgentEvent)],
          event.action = .fillRandom := by simp
      refine ⟨_, .error ("getrandom failed: " ++ "unavailable"),
        runs_bind.mpr ⟨_, _, _, _, atSerial, .act ⟨rfl, rfl⟩ ?_, rfl⟩,
        answers onlyRandom, fun needed => absurd rfl needed, fun _ => rfl⟩
      dsimp only [Prog.bind]
      rw [Host.machineId_world, decided]
      exact .act rfl (.done _ _)

private def lockedLookup : List AgentEvent :=
  [⟨.readDeviceIdentity, none⟩, ⟨.fileRead .deviceIdentity, none⟩,
    ⟨.openEntry .deviceIdentity, .error "locked"⟩]

private theorem decideAndStore_asks {asked : List AgentEvent}
    (atHost : (hostIdentity crates collected).Runs host.world asked host.world result) :
    ∃ tail, (decideAndStore crates collected).Runs host.world (asked ++ tail) host.world result ∧
      ∀ event ∈ tail, event.action.readsHost = false := by
  cases result with
  | error e => exact ⟨[], runs_bind.mpr ⟨_, _, _, _, atHost, .done _ _, rfl⟩, by simp⟩
  | ok identity =>
      obtain ⟨tail, message, saves⟩ : ∃ tail message, (saveDeviceIdentity identity).Runs
          host.world tail host.world (.error message) :=
        ⟨[⟨.openEntry .deviceIdentity, .error "locked"⟩,
          ⟨.fileSave .deviceIdentity identity, .error "denied"⟩], _,
          .act rfl (.act rfl (.done _ _))⟩
      refine ⟨tail, runs_bind.mpr ⟨_, _, _, _, atHost,
        runs_bind.mpr ⟨_, _, _, _, saves, .done _ _, (List.append_nil _).symm⟩, rfl⟩, ?_⟩
      intro event member
      rcases saves.only saveDeviceIdentity_only event member with kind | kind | kind | kind <;>
        rw [kind] <;> rfl

theorem firstCall_exists :
    ∃ events result, FirstCall crates host collected events result ∧
      (chosenIdentity crates host collected ≠ none → Undrawn events) ∧
      (chosenIdentity crates host collected = none → result.toOption = none) := by
  obtain ⟨asked, result, atHost, answers, undrawn, failed⟩ :=
    hostIdentity_asks crates host collected
  obtain ⟨tail, atDecision, stores⟩ := decideAndStore_asks crates host collected atHost
  have loads : loadDeviceIdentity.Runs host.world lockedLookup.tail host.world
      (.error ("keychain new entry error: " ++ "locked")) :=
    .act ⟨rfl, rfl⟩ (.act rfl (.done _ _))
  have lead : ∀ event ∈ lockedLookup, event.action.readsHost = false := by
    simp [lockedLookup, Effect.readsHost]
  have fromHost : ∀ {event : AgentEvent}, event.action.readsHost = true →
      event ∈ lockedLookup ++ (asked ++ tail) → event ∈ asked := by
    intro event reads member
    rcases List.mem_append.mp member with inLead | later
    · rw [lead event inLead] at reads
      cases reads
    · rcases List.mem_append.mp later with inAsked | inTail
      · exact inAsked
      · rw [stores event inTail] at reads
        cases reads
  have atMiss : (loadOrDecide crates collected).Runs host.world
      (lockedLookup.tail ++ (asked ++ tail)) host.world result :=
    runs_bind.mpr ⟨_, _, _, _, loads, atDecision, rfl⟩
  have run : (getDeviceIdentityInternal crates collected).Runs host.world
      (lockedLookup ++ (asked ++ tail)) host.world result := .act ⟨rfl, rfl⟩ atMiss
  refine ⟨lockedLookup ++ (asked ++ tail), result,
    ⟨⟨host.world, host.world, ⟨rfl, rfl, rfl⟩, rfl, run⟩, ?_⟩, ?_, failed⟩
  · exact fun outcome member => answers outcome (fromHost rfl member)
  · exact fun needed reply member => undrawn needed reply (fromHost rfl member)

variable {crates host collected}

/-- The first identity is the host's own exactly where the two calls have one source for it. -/
theorem sameFirstIdentity_iff :
    SameFirstIdentity crates host collected collected' ↔
      SameSource crates host collected collected' := by
  refine ⟨fun same => ?_, SameSource.sameFirstIdentity⟩
  obtain ⟨events, result, call, undrawn, failed⟩ := firstCall_exists crates host collected
  obtain ⟨events', result', call', undrawn', failed'⟩ := firstCall_exists crates host collected'
  have equal := same events events' result result' call call'
  rw [sameSource_iff]
  cases chosen : chosenIdentity crates host collected with
  | some identity =>
      have taken := call.chosen.1 identity chosen
      have agree := equal (.inl (undrawn (by simp [chosen])))
      cases chosen' : chosenIdentity crates host collected' with
      | some identity' =>
          have taken' := call'.chosen.1 identity' chosen'
          rw [taken, taken', Except.ok.injEq] at agree
          rw [agree]
      | none =>
          have nothing := failed' chosen'
          rw [← agree, taken] at nothing
          cases nothing
  | none =>
      cases chosen' : chosenIdentity crates host collected' with
      | some identity' =>
          have taken' := call'.chosen.1 identity' chosen'
          have agree := equal (.inr (undrawn' (by simp [chosen'])))
          have nothing := failed chosen
          rw [agree, taken'] at nothing
          cases nothing
      | none => rfl

theorem FirstCycle.call {items : List CollectionItem} {serial : String}
    (cycle : FirstCycle crates host items collected events serial) :
    ∃ called result, FirstCall crates host collected called result ∧
      (Undrawn events → Undrawn called) ∧ serial = result.toOption.getD "unknown" := by
  obtain ⟨before, after, resources, fresh, machine, run, collects⟩ := cycle.run
  obtain ⟨middle, results, collectedAt, called, identity, gathering, split, call, _, serialIs⟩ :=
    assembleItems_parts run
  obtain ⟨rfl, _⟩ := collectRows_runs gathering
  rw [collects middle results gathering] at call
  have answers := cycle.answers
  have behind : events.drop (gathered events).length = ⟨.now, collectedAt⟩ :: called := by
    exact (congrArg (List.drop (gathered events).length) split).trans List.drop_left
  refine ⟨called, identity, ⟨⟨middle, _, fresh, machine, call⟩, fun outcome member => ?_⟩,
    fun undrawn reply member => ?_, serialIs⟩
  · rw [behind] at answers
    exact answers outcome (List.mem_cons_of_mem _ member)
  · rw [split] at undrawn
    exact undrawn reply (List.mem_append_right _ (List.mem_cons_of_mem _ member))

/-- The first identity of a device depends on the host alone where what the cycles collected under
`system_info` gives one source for it. -/
theorem firstIdentity_of_host (crates : Crates) (host : Host)
    (collected collected' : Option Value) :
    (SameFirstIdentity crates host collected collected' ↔
        SameSource crates host collected collected') ∧
      (SameSource crates host collected collected' →
        ∀ {items items' events events' serial serial'},
          FirstCycle crates host items collected events serial →
          FirstCycle crates host items' collected' events' serial' →
          Undrawn events ∨ Undrawn events' → serial = serial') := by
  refine ⟨sameFirstIdentity_iff, ?_⟩
  intro same items items' events events' serial serial' cycle cycle' undrawn
  obtain ⟨called, result, call, quiet, rfl⟩ := cycle.call
  obtain ⟨called', result', call', quiet', rfl⟩ := cycle'.call
  rw [same.sameFirstIdentity called called' result result' call call' (undrawn.imp quiet quiet')]

/-! A host with a serial, under a configuration that asks `system_info` for a column it does not
have, and under one that does not ask. -/

private def serialCrates : Crates :=
  { Crates.uncalled with
    fromStr := fun _ => some (.array [.object [("hardware_serial", .string "C02XK1ABJG5H")]]) }

private def serialHost : Host where
  systemInfo := .exited true "[\x7b\"hardware_serial\":\"C02XK1ABJG5H\"\x7d]"
  machineId := some "5f1c0cd1b1f84a0c9f0a1d2e3c4b5a69\n"

private def badColumnConfig : Value :=
  .object [("data", .array [.object [("id", .string "system_info"),
    ("sql", .string "SELECT serial FROM system_info")]])]

private def usersConfig : Value := .object [("data", .array [.object [("id", .string "users")]])]

private def zeroDigest : String :=
  "0000000000000000000000000000000000000000000000000000000000000000"

private def lookedUp : List AgentEvent :=
  [⟨.readDeviceIdentity, none⟩, ⟨.fileRead .deviceIdentity, none⟩,
    ⟨.openEntry .deviceIdentity, .ok ()⟩, ⟨.getPassword .deviceIdentity, .error .noEntry⟩]

private def savedAs (identity : String) : List AgentEvent :=
  [⟨.openEntry .deviceIdentity, .ok ()⟩, ⟨.setPassword .deviceIdentity identity, .ok ()⟩,
    ⟨.fileDelete .deviceIdentity, ()⟩, ⟨.writeDeviceIdentity (some identity), ()⟩]

private def badColumnEvents : List AgentEvent :=
  [⟨.runSidecar "SELECT serial FROM system_info", .exited false ""⟩,
    ⟨.now, "2026-10-01T08:00:00Z"⟩] ++
    lookedUp ++ [⟨.readMachineId, serialHost.machineId⟩] ++ savedAs zeroDigest

private def usersEvents : List AgentEvent :=
  [⟨.runSidecar "SELECT * FROM users", .exited false ""⟩, ⟨.now, "2026-10-01T08:00:00Z"⟩] ++
    lookedUp ++ [⟨.runSidecar "SELECT * FROM system_info", serialHost.systemInfo⟩,
      ⟨.readMachineId, serialHost.machineId⟩] ++ savedAs "C02XK1ABJG5H"

private def savedWorld (identity : String) : World :=
  { (serialHost.world.setKeyring .deviceIdentity (some identity)).setFallbackFile
      .deviceIdentity none with
    deviceIdentity := some identity }

private theorem badColumnCycle :
    FirstCycle serialCrates serialHost (parseConfigItems badColumnConfig "linux")
      (some (.array [])) badColumnEvents zeroDigest where
  run := by
    have items : parseConfigItems badColumnConfig "linux" =
        [.osquery "system_info" "SELECT serial FROM system_info"] := by decide +kernel
    have collects : (collectRows serialCrates
        [.osquery "system_info" "SELECT serial FROM system_info"]).Runs serialHost.world
          (gathered badColumnEvents) serialHost.world [("system_info", .array [])] :=
      .act rfl (.done _ _)
    rw [items]
    refine ⟨serialHost.world, savedWorld zeroDigest, [], ⟨rfl, rfl, rfl⟩, rfl, ?_, ?_⟩
    · exact .act rfl (.act rfl (.act ⟨rfl, rfl⟩ (.act ⟨rfl, rfl⟩ (.act rfl (.act ⟨rfl, rfl⟩
        (.act ⟨rfl, rfl⟩ (.act rfl (.act rfl (.act rfl (.act rfl (.done _ _)))))))))))
    · intro middle results gathering
      rw [gathering.result_unique collects]
      rfl
  answers := by
    intro outcome asked
    simp [badColumnEvents, gathered, lookedUp, savedAs, Effect.isNow] at asked

private theorem usersCycle :
    FirstCycle serialCrates serialHost (parseConfigItems usersConfig "linux") none usersEvents
      "C02XK1ABJG5H" where
  run := by
    have items : parseConfigItems usersConfig "linux" =
        [.osquery "users" "SELECT * FROM users"] := by decide +kernel
    have collects : (collectRows serialCrates [.osquery "users" "SELECT * FROM users"]).Runs
        serialHost.world (gathered usersEvents) serialHost.world [("users", .array [])] :=
      .act rfl (.done _ _)
    rw [items]
    refine ⟨serialHost.world, savedWorld "C02XK1ABJG5H", [], ⟨rfl, rfl, rfl⟩, rfl, ?_, ?_⟩
    · exact .act rfl (.act rfl (.act ⟨rfl, rfl⟩ (.act ⟨rfl, rfl⟩ (.act rfl (.act ⟨rfl, rfl⟩
        (.act rfl (.act ⟨rfl, rfl⟩ (.act rfl (.act rfl (.act rfl (.act rfl (.done _ _))))))))))))
    · intro middle results gathering
      rw [gathering.result_unique collects]
      rfl
  answers := by
    intro outcome asked
    simp [usersEvents, gathered, lookedUp, savedAs, Effect.isNow] at asked
    rw [asked]

private def collectedSerial : Value :=
  .array [.object [("hardware_serial", .string "C02XK1ABJG5H")]]

private def systemInfoConfig : Value :=
  .object [("data", .array [.object [("id", .string "system_info")]])]

private def systemInfoEvents : List AgentEvent :=
  [⟨.runSidecar "SELECT * FROM system_info", serialHost.systemInfo⟩,
    ⟨.now, "2026-10-01T08:00:00Z"⟩] ++
    lookedUp ++ [⟨.readMachineId, serialHost.machineId⟩] ++ savedAs "C02XK1ABJG5H"

private theorem systemInfoCycle :
    FirstCycle serialCrates serialHost (parseConfigItems systemInfoConfig "linux")
      (some collectedSerial) systemInfoEvents "C02XK1ABJG5H" where
  run := by
    have items : parseConfigItems systemInfoConfig "linux" =
        [.osquery "system_info" "SELECT * FROM system_info"] := by decide +kernel
    have collects : (collectRows serialCrates
        [.osquery "system_info" "SELECT * FROM system_info"]).Runs serialHost.world
          (gathered systemInfoEvents) serialHost.world [("system_info", collectedSerial)] :=
      .act rfl (.done _ _)
    rw [items]
    refine ⟨serialHost.world, savedWorld "C02XK1ABJG5H",
      buildPayloadItems [("system_info", collectedSerial)] "2026-10-01T08:00:00Z",
      ⟨rfl, rfl, rfl⟩, rfl, ?_, ?_⟩
    · exact .act rfl (.act rfl (.act ⟨rfl, rfl⟩ (.act ⟨rfl, rfl⟩ (.act rfl (.act ⟨rfl, rfl⟩
        (.act ⟨rfl, rfl⟩ (.act rfl (.act rfl (.act rfl (.act rfl (.done _ _)))))))))))
    · intro middle results gathering
      rw [gathering.result_unique collects]
      rfl
  answers := by
    intro outcome asked
    simp [systemInfoEvents, gathered, lookedUp, savedAs, Effect.isNow] at asked

private theorem usersEvents_undrawn : Undrawn usersEvents := by
  intro reply member
  simp [usersEvents, lookedUp, savedAs] at member

/-- A configuration that asks for the system's own rows, and one that does not. -/
theorem firstIdentity_of_host_two_cycles :
    ∃ serial serial', FirstCycle serialCrates serialHost
        (parseConfigItems systemInfoConfig "linux") (some collectedSerial) systemInfoEvents serial ∧
      FirstCycle serialCrates serialHost (parseConfigItems usersConfig "linux") none usersEvents
        serial' ∧ serial = serial' := by
  have same : SameSource serialCrates serialHost (some collectedSerial) none :=
    Or.inl (by decide +kernel)
  refine ⟨_, _, systemInfoCycle, usersCycle, ?_⟩
  exact (firstIdentity_of_host serialCrates serialHost (some collectedSerial) none).2 same
    systemInfoCycle usersCycle (.inr usersEvents_undrawn)

/-- Two configurations give one host two identities. -/
theorem firstIdentity_of_configuration :
    ¬ ∀ (crates : Crates) (host : Host) (cfg cfg' : Value) (os : String)
        (collected collected' : Option Value) (events events' : List AgentEvent)
        (serial serial' : String),
      FirstCycle crates host (parseConfigItems cfg os) collected events serial →
      FirstCycle crates host (parseConfigItems cfg' os) collected' events' serial' →
      Undrawn events ∨ Undrawn events' → serial = serial' := by
  intro claim
  have same := claim serialCrates serialHost badColumnConfig usersConfig "linux" _ _ _ _ _ _
    badColumnCycle usersCycle (.inr usersEvents_undrawn)
  exact absurd same (by decide)

end KlaayGuard
