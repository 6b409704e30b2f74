/-
The stable device identity: where it comes from, and when a later call may
come up with another one.

The first call decides the identity from the host and stores it.  A later call
that finds nothing cached and no fallback file depends on one keyring read; if
that read fails, the call decides again from what the host reports this time
and overwrites what was stored.
-/

import KlaayGuard.Keychain
import KlaayGuard.Library.RustText

set_option autoImplicit false

namespace KlaayGuard

open EffectProgram Prog RustText

variable (crates : Crates)

/-- The rows one sidecar run gives its query: none when the query failed or
its output does not parse. -/
def queryRows : SidecarOutcome → Except String Value
  | .unavailable message =>
      .error ("klaayguard-osqueryi sidecar unavailable: " ++ message)
  | .spawnFailed message => .error message
  | .exited success stdout =>
      .ok (if success then (crates.fromStr stdout).getD (.array []) else .array [])

def executeSqlBatchFrom (allResults : List (String × Value)) :
    List (String × String) → Program (Except String (List (String × Value)))
  | [] => pure (.ok allResults)
  | (logicalId, sql) :: queries => do
      match queryRows crates (← runSidecar sql) with
      | .error message => pure (.error message)
      | .ok rows => executeSqlBatchFrom (Value.insertMember logicalId rows allResults) queries

def executeSqlBatch (queries : List (String × String)) :
    Program (Except String (List (String × Value))) :=
  executeSqlBatchFrom crates [] queries

def placeholders : List String :=
  ["-1", "0", "none", "n/a", "null", "(null string)", "invalid", "default", "default string",
    "system serial number", "to be filled by o.e.m.", "not applicable", "not specified",
    "not available", "unknown", "serial number", "serialnumber", "oem", "empty", "123456789",
    "0123456789", "1234567890"]

def isPlaceholderSerial (raw : String) : Bool :=
  let s := toAsciiLowercase (trim raw.toList)
  (String.ofList s).utf8ByteSize < 4 || placeholders.contains (String.ofList s) ||
    match s with
    | [] => false
    | first :: chars => chars.all (· == first)

def extractSerial (rows : Value) : Option String :=
  match rows.asArray.bind List.head? with
  | none => none
  | some obj =>
      ["hardware_serial", "serial_number"].findSome? fun k =>
        ((obj.stringAt k).map fun v => String.ofList (trim v.toList)).filter fun s =>
          s ≠ "" && !isPlaceholderSerial s

/-- Which device identity to use and whether to store it. -/
inductive IdentityDecision : Type where
  | use (value : String)
  | adopt (value : String)
  | generate
  deriving DecidableEq, Repr

def normalizeMachineId (raw : String) : Option String :=
  let t := trim raw.toList
  if (String.ofList t).utf8ByteSize = 32 ∧ t.all isAsciiHexdigit then
    some (String.ofList (toAsciiLowercase t))
  else none

def hashMachineId (machineId : String) : String :=
  hexLower (crates.hmacSha256 "com.klaay.klaayguard" machineId).val

def decideDeviceIdentity (stored hardwareSerial machineId : Option String) : IdentityDecision :=
  match stored.filter (· ≠ "") with
  | some s => .use s
  | none =>
      match hardwareSerial.filter (· ≠ "") with
      | some s => .adopt s
      | none =>
          match machineId.bind normalizeMachineId with
          | some id => .adopt (hashMachineId crates id)
          | none => .generate

def generateDeviceIdentity : Program (Except String String) := do
  match ← fillRandom with
  | .error e => pure (.error ("getrandom failed: " ++ e))
  | .ok bytes => pure (.ok (hexLower bytes.val))

/-- The serial among the rows this cycle collected, or among those of a query
of its own when the cycle collected none. -/
def hardwareSerial (systemInfo : Option Value) : Program (Option String) :=
  match systemInfo with
  | some rows => pure (extractSerial rows)
  | none => do
      match ← executeSqlBatch crates [("system_info", "SELECT * FROM system_info")] with
      | .ok result => pure (extractSerial ((Value.member "system_info" result).getD .null))
      | .error _ => pure none

def hostIdentity (systemInfo : Option Value) : Program (Except String String) := do
  let serial ← hardwareSerial crates systemInfo
  let machineId ← readMachineId
  match decideDeviceIdentity crates none serial machineId with
  | .use v => pure (.ok v)
  | .adopt v => pure (.ok v)
  | .generate => generateDeviceIdentity

def decideAndStore (systemInfo : Option Value) : Program (Except String String) := do
  match ← hostIdentity crates systemInfo with
  | .error e => pure (.error e)
  | .ok identity =>
      match ← saveDeviceIdentity identity with
      | .ok _ => do
          -- Cache only what is persisted, so a failed save is retried next cycle.
          writeDeviceIdentity (some identity)
          pure (.ok identity)
      | .error _ => pure (.ok identity)

def loadOrDecide (systemInfo : Option Value) : Program (Except String String) := do
  match ← loadDeviceIdentity with
  | .ok (some stored) =>
      if stored ≠ "" then do
        writeDeviceIdentity (some stored)
        pure (.ok stored)
      else decideAndStore crates systemInfo
  | .ok none => decideAndStore crates systemInfo
  | .error _ => decideAndStore crates systemInfo

def getDeviceIdentityInternal (systemInfo : Option Value) : Program (Except String String) := do
  match ← readDeviceIdentity with
  | some cached => pure (.ok cached)
  | none => loadOrDecide crates systemInfo

/-! ### What a call observes of its host -/

def Effect.readsHost : Effect → Bool
  | .runSidecar _ => true
  | .readMachineId => true
  | .fillRandom => true
  | _ => false

def sidecarAnswer : AgentEvent → Option SidecarOutcome
  | ⟨.runSidecar _, outcome⟩ => some outcome
  | _ => none

def randomAnswer : AgentEvent → Option String
  | ⟨.fillRandom, .ok bytes⟩ => some (hexLower bytes.val)
  | _ => none

/-- The serial a call sees, once its sidecar has answered. -/
def serialFrom (systemInfo : Option Value) (events : List AgentEvent) :
    Option (Option String) :=
  match systemInfo with
  | some rows => some (extractSerial rows)
  | none =>
      (events.findSome? sidecarAnswer).map fun outcome =>
        match queryRows crates outcome with
        | .ok rows => extractSerial rows
        | .error _ => none

def identityFrom (systemInfo : Option Value) (machineId : Option String)
    (events : List AgentEvent) : Option String :=
  (serialFrom crates systemInfo events).bind fun serial =>
    match decideDeviceIdentity crates none serial machineId with
    | .use v => some v
    | .adopt v => some v
    | .generate => events.findSome? randomAnswer

variable {crates} {systemInfo : Option Value} {before after : World} {events : List AgentEvent}

theorem performs_readsHost {world after : World} {action : Effect} {reply : action.Reply}
    (kind : action.readsHost = true) (performed : performs world action reply after) :
    after = world := by
  cases action with
  | runSidecar sql => exact performed
  | readMachineId => exact performed.2
  | fillRandom => exact performed
  | _ => cases kind

private theorem observes_of_not_readsHost {event : AgentEvent}
    (other : event.action.readsHost = false) :
    sidecarAnswer event = none ∧ randomAnswer event = none := by
  obtain ⟨action, reply⟩ := event
  cases action <;> first | exact ⟨rfl, rfl⟩ | cases other

theorem identityFrom_append {machineId : Option String} {lead host rest : List AgentEvent}
    (leadStores : ∀ event ∈ lead, event.action.readsHost = false)
    (restStores : ∀ event ∈ rest, event.action.readsHost = false) :
    identityFrom crates systemInfo machineId (lead ++ host ++ rest) =
      identityFrom crates systemInfo machineId host := by
  have unseen : ∀ part : List AgentEvent, (∀ event ∈ part, event.action.readsHost = false) →
      part.findSome? sidecarAnswer = none ∧ part.findSome? randomAnswer = none := by
    intro part stores
    constructor
    · exact List.findSome?_eq_none_iff.mpr fun event member =>
        (observes_of_not_readsHost (stores event member)).1
    · exact List.findSome?_eq_none_iff.mpr fun event member =>
        (observes_of_not_readsHost (stores event member)).2
  simp only [identityFrom, serialFrom, List.findSome?_append, unseen lead leadStores,
    unseen rest restStores, Option.none_or, Option.or_none]

theorem hardwareSerial_runs {serial : Option String}
    (run : (hardwareSerial crates systemInfo).Runs before events after serial) :
    after = before ∧ serialFrom crates systemInfo events = some serial := by
  cases systemInfo with
  | some rows =>
      obtain ⟨rfl, rfl, rfl⟩ := runs_done.mp run
      exact ⟨rfl, rfl⟩
  | none =>
      obtain ⟨outcome, middle, rest, answered, rfl, afterAnswer⟩ := runs_act.mp run
      obtain rfl : middle = before := answered
      cases outcome with
      | unavailable message =>
          obtain ⟨rfl, rfl, rfl⟩ := runs_done.mp afterAnswer
          exact ⟨rfl, rfl⟩
      | spawnFailed message =>
          obtain ⟨rfl, rfl, rfl⟩ := runs_done.mp afterAnswer
          exact ⟨rfl, rfl⟩
      | exited success stdout =>
          obtain ⟨rfl, rfl, rfl⟩ := runs_done.mp afterAnswer
          exact ⟨rfl, rfl⟩

theorem hardwareSerial_only :
    (hardwareSerial crates systemInfo).Only fun action => ∃ sql, action = .runSidecar sql := by
  cases systemInfo with
  | some rows => trivial
  | none =>
      refine ⟨⟨_, rfl⟩, fun outcome => ?_⟩
      cases outcome <;> trivial

private theorem hardwareSerial_silent {serial : Option String}
    (run : (hardwareSerial crates systemInfo).Runs before events after serial) :
    events.findSome? randomAnswer = none := by
  refine List.findSome?_eq_none_iff.mpr fun event member => ?_
  obtain ⟨sql, same⟩ := run.only hardwareSerial_only event member
  obtain ⟨action, reply⟩ := event
  obtain rfl : action = .runSidecar sql := same
  rfl

private theorem serialFrom_append {serial : Option String} {first second : List AgentEvent}
    (seen : serialFrom crates systemInfo first = some serial) :
    serialFrom crates systemInfo (first ++ second) = some serial := by
  cases systemInfo with
  | some rows => exact seen
  | none =>
      simp only [serialFrom, List.findSome?_append] at seen ⊢
      cases answered : first.findSome? sidecarAnswer with
      | none =>
          rw [answered] at seen
          cases seen
      | some outcome =>
          rw [answered] at seen
          exact seen

theorem hostIdentity_only :
    (hostIdentity crates systemInfo).Only fun action => action.readsHost = true := by
  refine (hardwareSerial_only.mono ?_).bind fun serial => ⟨rfl, fun machineId => ?_⟩
  · rintro action ⟨sql, rfl⟩
    rfl
  change (match decideDeviceIdentity crates none serial machineId with
    | .use v => pure (.ok v)
    | .adopt v => pure (.ok v)
    | .generate => generateDeviceIdentity : Program (Except String String)).Only _
  cases decideDeviceIdentity crates none serial machineId with
  | use v => trivial
  | adopt v => trivial
  | generate =>
      refine ⟨rfl, fun reply => ?_⟩
      cases reply <;> trivial

theorem hostIdentity_runs {result : Except String String}
    (run : (hostIdentity crates systemInfo).Runs before events after result) :
    after = before ∧
      result.toOption = identityFrom crates systemInfo before.machineId events := by
  obtain ⟨middle, serial, first, second, atSerial, afterSerial, rfl⟩ := runs_bind.mp run
  obtain ⟨rfl, seen⟩ := hardwareSerial_runs atSerial
  obtain ⟨machineId, late, rest, ⟨rfl, rfl⟩, rfl, afterId⟩ := runs_act.mp afterSerial
  change Runs performs (match decideDeviceIdentity crates none serial late.machineId with
    | .use v => pure (.ok v)
    | .adopt v => pure (.ok v)
    | .generate => generateDeviceIdentity) late rest after result at afterId
  simp only [identityFrom, serialFrom_append seen, Option.bind_some, List.findSome?_append,
    hardwareSerial_silent atSerial, Option.none_or]
  cases decided : decideDeviceIdentity crates none serial late.machineId with
  | use v =>
      rw [decided] at afterId
      obtain ⟨rfl, rfl, rfl⟩ := runs_done.mp afterId
      exact ⟨rfl, rfl⟩
  | adopt v =>
      rw [decided] at afterId
      obtain ⟨rfl, rfl, rfl⟩ := runs_done.mp afterId
      exact ⟨rfl, rfl⟩
  | generate =>
      rw [decided] at afterId
      obtain ⟨reply, last, rest', same, rfl, afterRandom⟩ := runs_act.mp afterId
      obtain rfl : last = late := same
      cases reply with
      | error e =>
          obtain ⟨rfl, rfl, rfl⟩ := runs_done.mp afterRandom
          exact ⟨rfl, rfl⟩
      | ok bytes =>
          obtain ⟨rfl, rfl, rfl⟩ := runs_done.mp afterRandom
          exact ⟨rfl, rfl⟩

private theorem hexLower_ne_empty {bytes : List UInt8} (some_bytes : bytes.length ≠ 0) :
    hexLower bytes ≠ "" := by
  intro empty
  have width := hexLower_length bytes
  rw [empty] at width
  change 0 = 2 * bytes.length at width
  omega

theorem decideDeviceIdentity_ne_empty {hardwareSerial machineId : Option String} {v : String}
    (decided : decideDeviceIdentity crates none hardwareSerial machineId = .use v ∨
      decideDeviceIdentity crates none hardwareSerial machineId = .adopt v) : v ≠ "" := by
  simp only [decideDeviceIdentity, Option.filter_none] at decided
  cases fromSerial : hardwareSerial.filter (· ≠ "") with
  | some s =>
      rw [fromSerial] at decided
      simp only [reduceCtorEq, IdentityDecision.adopt.injEq, false_or] at decided
      subst decided
      have kept := Option.filter_eq_some_iff.mp fromSerial
      simpa using kept.2
  | none =>
      rw [fromSerial] at decided
      cases fromMachine : machineId.bind normalizeMachineId with
      | none => simp [fromMachine] at decided
      | some id =>
          simp only [fromMachine, reduceCtorEq, IdentityDecision.adopt.injEq,
            false_or] at decided
          subst decided
          have width := (crates.hmacSha256 "com.klaay.klaayguard" id).property
          exact hexLower_ne_empty (by omega)

theorem identityFrom_ne_empty {machineId : Option String} {v : String}
    (derived : identityFrom crates systemInfo machineId events = some v) : v ≠ "" := by
  obtain ⟨serial, _, fromSerial⟩ := Option.bind_eq_some_iff.mp derived
  cases decided : decideDeviceIdentity crates none serial machineId with
  | use w =>
      rw [decided] at fromSerial
      obtain rfl : w = v := Option.some.inj fromSerial
      exact decideDeviceIdentity_ne_empty (Or.inl decided)
  | adopt w =>
      rw [decided] at fromSerial
      obtain rfl : w = v := Option.some.inj fromSerial
      exact decideDeviceIdentity_ne_empty (Or.inr decided)
  | generate =>
      rw [decided] at fromSerial
      obtain ⟨event, _, answered⟩ := List.exists_of_findSome?_eq_some fromSerial
      obtain ⟨action, reply⟩ := event
      cases action with
      | fillRandom =>
          cases reply with
          | error e => cases answered
          | ok bytes =>
              obtain rfl : hexLower bytes.val = v := Option.some.inj answered
              exact hexLower_ne_empty (by have width := bytes.property; omega)
      | _ => cases answered

/-! ### One call -/

/-- The one keyring read a call makes was not answered. -/
def KeyringReadFails (events : List AgentEvent) : Prop :=
  ∃ contents rest,
    events = ⟨.readDeviceIdentity, none⟩ :: ⟨.fileRead .deviceIdentity, contents⟩ :: rest ∧
    ((∃ e tail, rest = ⟨.openEntry .deviceIdentity, .error e⟩ :: tail) ∨
      ∃ e tail, rest = ⟨.openEntry .deviceIdentity, .ok ()⟩ ::
        ⟨.getPassword .deviceIdentity, .error (.other e)⟩ :: tail)

/-- What a call has done to the stores and the cache by the time it finishes or
is cut off. -/
inductive CallProgress (crates : Crates) (systemInfo : Option Value) (before : World)
    (events : List AgentEvent) (after : World) : Prop where
  | unsaved (silent : ∀ v, ¬ Stores .deviceIdentity v events)
      (stored : after.storedCredential .deviceIdentity = before.storedCredential .deviceIdentity)
      (cached : after.deviceIdentity = before.deviceIdentity ∨
        after.deviceIdentity = before.storedCredential .deviceIdentity)
  | decided (identity : String)
      (unread : KeyringReadFails events ∨
        ∀ v, before.storedCredential .deviceIdentity = some v → v = "")
      (derived : identityFrom crates systemInfo before.machineId events = some identity)
      (stores : ∀ v, Stores .deviceIdentity v events ↔ v = identity)
      (stored : after.storedCredential .deviceIdentity = some identity)
      (cached : after.deviceIdentity = none ∨ after.deviceIdentity = some identity)

private theorem host_silent (only : ∀ event ∈ events, event.action.readsHost = true)
    (account : Account) (v : String) : ¬ Stores account v events := by
  intro stores
  have kind := stores.kind (fun action => action.readsHost = true) only
  simp [Effect.readsHost] at kind

private theorem saveDecided_begins {identity : String} (nonempty : identity ≠ "")
    (uncached : before.deviceIdentity = none)
    (noFile : (before.fallbackFile .deviceIdentity).filter (· ≠ "") = none)
    (run : (do
      match ← saveDeviceIdentity identity with
      | .ok _ => do
          writeDeviceIdentity (some identity)
          pure (.ok identity)
      | .error _ => pure (.ok identity) : Program (Except String String)).Begins
        performs before events after) :
    (∀ event ∈ events, event.action.readsHost = false) ∧
      ((after = before ∧ ∀ v, ¬ Stores .deviceIdentity v events) ∨
        (∀ v, Stores .deviceIdentity v events ↔ v = identity) ∧
          after.storedCredential .deviceIdentity = some identity ∧
          (after.deviceIdentity = none ∨ after.deviceIdentity = some identity)) := by
  have fromSave : ∀ {first : List AgentEvent} {late : World},
      (saveDeviceIdentity identity).Begins performs before first late →
      ∀ event ∈ first, event.action.readsHost = false := by
    intro first late save event member
    rcases save.only saveDeviceIdentity_only event member with kind | kind | kind | kind <;>
      rw [kind] <;> rfl
  rcases begins_bind run with cut | ⟨saved, answer, first, second, atSave, afterSave, rfl⟩
  · have progress := saveDeviceIdentity_begins cut
    have cached := progress.deviceIdentity.trans uncached
    refine ⟨fromSave cut, ?_⟩
    cases progress with
    | unsaved same silent => exact Or.inl ⟨same, silent⟩
    | saved stores placed =>
        exact Or.inr ⟨stores, World.storedCredential_of_placed nonempty noFile placed,
          Or.inl cached⟩
  · have progress := saveDeviceIdentity_begins atSave.begins
    have accepted := saveDeviceIdentity_ok_iff atSave
    have cached := progress.deviceIdentity.trans uncached
    cases answer with
    | error e =>
        obtain ⟨rfl, rfl⟩ := begins_done.mp afterSave
        rw [List.append_nil]
        refine ⟨fromSave atSave.begins, ?_⟩
        cases progress with
        | unsaved same silent => exact Or.inl ⟨same, silent⟩
        | saved stores placed => cases accepted.mpr ((stores identity).mpr rfl)
    | ok _ =>
        cases progress with
        | unsaved same silent => exact absurd (accepted.mp rfl) (silent identity)
        | saved stores placed =>
            have stored := World.storedCredential_of_placed nonempty noFile placed
            rcases begins_act.mp afterSave with
              ⟨rfl, rfl⟩ | ⟨_, late, rest, written, rfl, afterWrite⟩
            · rw [List.append_nil]
              exact ⟨fromSave atSave.begins, Or.inr ⟨stores, stored, Or.inl cached⟩⟩
            · obtain ⟨rfl, rfl⟩ := begins_done.mp afterWrite
              obtain rfl : after = { saved with deviceIdentity := some identity } := written
              refine ⟨fun event member => ?_, Or.inr ⟨fun v => ?_, stored, Or.inr rfl⟩⟩
              · rcases List.mem_append.mp member with inSave | last
                · exact fromSave atSave.begins event inSave
                · obtain rfl := List.mem_singleton.mp last
                  rfl
              · rw [Stores.append_iff, stores]
                simp [Stores]

theorem decideAndStore_begins
    (uncached : before.deviceIdentity = none)
    (noFile : (before.fallbackFile .deviceIdentity).filter (· ≠ "") = none)
    (run : (decideAndStore crates systemInfo).Begins performs before events after) :
    (after = before ∧ ∀ v, ¬ Stores .deviceIdentity v events) ∨
      ∃ identity host rest, events = host ++ rest ∧
        (∀ event ∈ rest, event.action.readsHost = false) ∧
        identityFrom crates systemInfo before.machineId host = some identity ∧
        (∀ v, Stores .deviceIdentity v events ↔ v = identity) ∧
        after.storedCredential .deviceIdentity = some identity ∧
        (after.deviceIdentity = none ∨ after.deviceIdentity = some identity) := by
  rcases begins_bind run with cut | ⟨middle, answer, host, rest, atHost, afterHost, rfl⟩
  · have still : after = before := cut.invariant (fun world => world = before) hostIdentity_only
      (fun kind same performed => (performs_readsHost kind performed).trans same) rfl
    exact Or.inl ⟨still, host_silent (cut.only hostIdentity_only) _⟩
  · obtain ⟨rfl, derived⟩ := hostIdentity_runs atHost
    have hostSilent := host_silent (atHost.only hostIdentity_only) .deviceIdentity
    cases answer with
    | error e =>
        obtain ⟨rfl, rfl⟩ := begins_done.mp afterHost
        rw [List.append_nil]
        exact Or.inl ⟨rfl, hostSilent⟩
    | ok identity =>
        have nonempty := identityFrom_ne_empty derived.symm
        obtain ⟨others, ⟨same, silent⟩ | ⟨stores, stored, cached⟩⟩ :=
          saveDecided_begins nonempty uncached noFile afterHost
        · refine Or.inl ⟨same, fun v inRun => ?_⟩
          exact (Stores.append_iff.mp inRun).elim (hostSilent v) (silent v)
        · refine Or.inr ⟨identity, host, rest, rfl, others, derived.symm, ?_, stored, cached⟩
          intro v
          rw [Stores.append_iff, or_iff_right (hostSilent v), stores]

theorem decideAndStore_host {result : Except String String}
    (run : (decideAndStore crates systemInfo).Runs before events after result) :
    ∃ host rest, events = host ++ rest ∧ (∀ event ∈ rest, event.action.readsHost = false) ∧
      (hostIdentity crates systemInfo).Runs before host before result := by
  obtain ⟨middle, answer, host, rest, atHost, afterHost, rfl⟩ := runs_bind.mp run
  obtain ⟨rfl, derived⟩ := hostIdentity_runs atHost
  cases answer with
  | error e =>
      obtain ⟨rfl, _, rfl⟩ := runs_done.mp afterHost
      exact ⟨host, [], rfl, by simp, atHost⟩
  | ok identity =>
      obtain ⟨saved, answer, first, second, atSave, afterSave, rfl⟩ := runs_bind.mp afterHost
      have fromSave : ∀ event ∈ first, event.action.readsHost = false := by
        intro event member
        rcases atSave.only saveDeviceIdentity_only event member with kind | kind | kind | kind <;>
          rw [kind] <;> rfl
      cases answer with
      | error e =>
          obtain ⟨rfl, _, rfl⟩ := runs_done.mp afterSave
          rw [List.append_nil]
          exact ⟨host, first, rfl, fromSave, atHost⟩
      | ok _ =>
          obtain ⟨_, late, rest, _, rfl, afterWrite⟩ := runs_act.mp afterSave
          obtain ⟨rfl, _, rfl⟩ := runs_done.mp afterWrite
          refine ⟨host, _, rfl, ?_, atHost⟩
          intro event member
          rcases List.mem_append.mp member with inSave | last
          · exact fromSave event inSave
          · obtain rfl := List.mem_singleton.mp last
            rfl

theorem decideAndStore_runs {result : Except String String}
    (run : (decideAndStore crates systemInfo).Runs before events after result) :
    ∃ host rest, events = host ++ rest ∧ (∀ event ∈ rest, event.action.readsHost = false) ∧
      result.toOption = identityFrom crates systemInfo before.machineId host := by
  obtain ⟨host, rest, split, others, atHost⟩ := decideAndStore_host run
  exact ⟨host, rest, split, others, (hostIdentity_runs atHost).2⟩

/-! The lookup that precedes a decision reads no host source. -/

private theorem lookup_reads {account : Account} {result : Except String (Option String)}
    (run : (load account).Runs before events after result) :
    ∀ event ∈ ⟨Effect.readDeviceIdentity, none⟩ :: events, event.action.readsHost = false := by
  intro event member
  rcases List.mem_cons.mp member with rfl | member
  · rfl
  · rcases run.only load_only event member with kind | kind | kind <;> rw [kind] <;> rfl

private theorem lookup_silent {account : Account}
    (only : ∀ event ∈ events, event.action = .fileRead account ∨
      event.action = .openEntry account ∨ event.action = .getPassword account) (v : String) :
    ¬ Stores .deviceIdentity v (⟨.readDeviceIdentity, none⟩ :: events) := by
  intro stores
  rcases Stores.cons_iff.mp stores with first | rest
  · simp [Stores] at first
  · have kind := rest.kind (fun action => action = .fileRead account ∨
      action = .openEntry account ∨ action = .getPassword account) only
    simp at kind

private theorem lookup_unread {answer : Except String (Option String)}
    (atLoad : loadDeviceIdentity.Runs before events before answer)
    (unusable : ∀ v, answer = .ok (some v) → v = "") (more : List AgentEvent) :
    KeyringReadFails (⟨.readDeviceIdentity, none⟩ :: (events ++ more)) ∨
      ∀ v, before.storedCredential .deviceIdentity = some v → v = "" := by
  obtain ⟨_, found | ⟨_, e, failed⟩⟩ := load_runs atLoad
  · refine Or.inr fun v isStored => unusable v ?_
    rw [found, isStored]
  · subst failed
    obtain ⟨_, contents, tail, rfl, reason⟩ := load_error atLoad
    refine Or.inl ⟨contents, _, rfl, ?_⟩
    rcases reason with ⟨e, rfl⟩ | ⟨e, rfl⟩
    · exact Or.inl ⟨e, _, rfl⟩
    · exact Or.inr ⟨e, _, rfl⟩

private theorem lookup_found {stored : String}
    (atLoad : loadDeviceIdentity.Runs before events after (.ok (some stored))) :
    before.storedCredential .deviceIdentity = some stored := by
  obtain ⟨_, found | ⟨_, _, failed⟩⟩ := load_runs atLoad
  · exact (Except.ok.inj found).symm
  · cases failed

private theorem lookup_noFile {answer : Except String (Option String)}
    (atLoad : loadDeviceIdentity.Runs before events after answer)
    (unusable : ∀ v, answer = .ok (some v) → v = "") :
    (before.fallbackFile .deviceIdentity).filter (· ≠ "") = none := by
  obtain ⟨_, found | ⟨noFile, _⟩⟩ := load_runs atLoad
  · cases inFile : (before.fallbackFile .deviceIdentity).filter (· ≠ "") with
    | none => rfl
    | some v =>
        rw [World.storedCredential, inFile, Option.some_or] at found
        have kept := Option.filter_eq_some_iff.mp inFile
        simp [unusable v found] at kept
  · exact noFile

private theorem decided_call {loadEvents : List AgentEvent}
    {answer : Except String (Option String)}
    (uncached : before.deviceIdentity = none)
    (atLoad : loadDeviceIdentity.Runs before loadEvents before answer)
    (unusable : ∀ v, answer = .ok (some v) → v = "")
    (run : (decideAndStore crates systemInfo).Begins performs before events after) :
    CallProgress crates systemInfo before
      (⟨.readDeviceIdentity, none⟩ :: (loadEvents ++ events)) after := by
  have leadSilent := lookup_silent (atLoad.only load_only)
  rcases decideAndStore_begins uncached (lookup_noFile atLoad unusable) run with
    ⟨rfl, silent⟩ | ⟨identity, host, rest, rfl, others, derived, stores, stored, cached⟩
  · refine .unsaved (fun v stores => ?_) rfl (Or.inl rfl)
    rw [← List.cons_append, Stores.append_iff] at stores
    exact stores.elim (leadSilent v) (silent v)
  · refine .decided identity (lookup_unread atLoad unusable _) ?_ ?_ stored cached
    · rw [← List.cons_append, ← List.append_assoc,
        identityFrom_append (lookup_reads atLoad) others, derived]
    · intro v
      rw [← List.cons_append, Stores.append_iff, or_iff_right (leadSilent v), stores]

private theorem decided_return {loadEvents : List AgentEvent}
    {answer : Except String (Option String)} {result : Except String String}
    (atLoad : loadDeviceIdentity.Runs before loadEvents before answer)
    (unusable : ∀ v, answer = .ok (some v) → v = "")
    (run : (decideAndStore crates systemInfo).Runs before events after result) :
    (KeyringReadFails (⟨.readDeviceIdentity, none⟩ :: (loadEvents ++ events)) ∨
        ∀ v, before.storedCredential .deviceIdentity = some v → v = "") ∧
      result.toOption = identityFrom crates systemInfo before.machineId
        (⟨.readDeviceIdentity, none⟩ :: (loadEvents ++ events)) := by
  obtain ⟨host, rest, rfl, others, derived⟩ := decideAndStore_runs run
  refine ⟨lookup_unread atLoad unusable _, ?_⟩
  rw [← List.cons_append, ← List.append_assoc,
    identityFrom_append (lookup_reads atLoad) others, derived]

/-- What any call does to the stores and the cache, cut off or not. -/
theorem getDeviceIdentityInternal_begins
    (run : (getDeviceIdentityInternal crates systemInfo).Begins performs before events after) :
    CallProgress crates systemInfo before events after := by
  rcases begins_act.mp run with
    ⟨rfl, rfl⟩ | ⟨cached, middle, rest, ⟨inCache, rfl⟩, rfl, afterCache⟩
  · exact .unsaved (by simp [Stores]) rfl (Or.inl rfl)
  · cases cached with
    | some identity =>
        obtain ⟨rfl, rfl⟩ := begins_done.mp afterCache
        exact .unsaved (by simp [Stores]) rfl (Or.inl rfl)
    | none =>
        change (loadOrDecide crates systemInfo).Begins performs middle rest after at afterCache
        rcases begins_bind afterCache with
          cut | ⟨loaded, answer, first, second, atLoad, afterLoad, rfl⟩
        · have still : after = middle := by
            refine cut.invariant (fun world => world = middle) load_only ?_ rfl
            rintro state action reply state' (rfl | rfl | rfl) rfl performed
            · exact performed.2
            · exact performed
            · exact performed.1
          subst still
          exact .unsaved (lookup_silent (cut.only load_only)) rfl (Or.inl rfl)
        · obtain ⟨rfl, _⟩ := load_runs atLoad
          have atMiss : loaded.deviceIdentity = none := inCache.symm
          rcases answer with e | (_ | stored)
          · exact decided_call atMiss atLoad (by simp) afterLoad
          · exact decided_call atMiss atLoad (by simp) afterLoad
          · by_cases empty : stored = ""
            · subst empty
              exact decided_call atMiss atLoad (by simp) afterLoad
            · have found := lookup_found atLoad
              have remembers : (if stored ≠ "" then (do
                  writeDeviceIdentity (some stored)
                  pure (.ok stored)) else decideAndStore crates systemInfo).Begins
                    performs loaded second after := afterLoad
              rw [if_pos empty] at remembers
              have leadSilent := lookup_silent (atLoad.only load_only)
              rcases begins_act.mp remembers with
                ⟨rfl, rfl⟩ | ⟨_, late, rest, written, rfl, afterWrite⟩
              · rw [List.append_nil]
                exact .unsaved leadSilent rfl (Or.inl rfl)
              · obtain ⟨rfl, rfl⟩ := begins_done.mp afterWrite
                obtain rfl : after = { loaded with deviceIdentity := some stored } := written
                refine .unsaved (fun v stores => ?_) rfl (Or.inr found.symm)
                rw [← List.cons_append, Stores.append_iff] at stores
                exact stores.elim (leadSilent v) (by simp [Stores])

theorem getDeviceIdentityInternal_runs {result : Except String String}
    (run : (getDeviceIdentityInternal crates systemInfo).Runs before events after result) :
    (∃ cached, before.deviceIdentity = some cached ∧ result = .ok cached) ∨
      (∃ stored, before.storedCredential .deviceIdentity = some stored ∧
        result = .ok stored) ∨
      (KeyringReadFails events ∨
          ∀ v, before.storedCredential .deviceIdentity = some v → v = "") ∧
        result.toOption = identityFrom crates systemInfo before.machineId events := by
  obtain ⟨cached, middle, rest, ⟨inCache, rfl⟩, rfl, afterCache⟩ := runs_act.mp run
  cases cached with
  | some identity =>
      obtain ⟨rfl, rfl, rfl⟩ := runs_done.mp afterCache
      exact Or.inl ⟨identity, inCache.symm, rfl⟩
  | none =>
      change (loadOrDecide crates systemInfo).Runs middle rest after result at afterCache
      obtain ⟨loaded, answer, first, second, atLoad, afterLoad, rfl⟩ := runs_bind.mp afterCache
      obtain ⟨rfl, _⟩ := load_runs atLoad
      rcases answer with e | (_ | stored)
      · exact Or.inr (Or.inr (decided_return atLoad (by simp) afterLoad))
      · exact Or.inr (Or.inr (decided_return atLoad (by simp) afterLoad))
      · by_cases empty : stored = ""
        · subst empty
          exact Or.inr (Or.inr (decided_return atLoad (by simp) afterLoad))
        · have found := lookup_found atLoad
          have remembers : (if stored ≠ "" then (do
              writeDeviceIdentity (some stored)
              pure (.ok stored)) else decideAndStore crates systemInfo).Runs
                loaded second after result := afterLoad
          rw [if_pos empty] at remembers
          obtain ⟨_, late, rest, _, rfl, afterWrite⟩ := runs_act.mp remembers
          obtain ⟨rfl, rfl, rfl⟩ := runs_done.mp afterWrite
          exact Or.inr (Or.inl ⟨stored, found, rfl⟩)

/-! ### Lifetimes of the agent -/

/-- What a restart of the process keeps: the stores. -/
def World.restart (world : World) : World :=
  { world with
    authToken := none
    tokenReaders := 0
    userLabel := none
    deviceIdentity := none
    tokenAcquired := false }

inductive IdentityStep : Type where
  | called (systemInfo : Option Value) (events : List AgentEvent)
      (result : Except String String)
  /-- The process ends in the middle of a call. -/
  | cutOff (systemInfo : Option Value) (events : List AgentEvent)
  | restarted

namespace IdentityStep

def performed : IdentityStep → List AgentEvent
  | called _ events _ => events
  | cutOff _ events => events
  | restarted => []

def Takes (crates : Crates) (before : World) (step : IdentityStep) (after : World) : Prop :=
  match step with
  | called systemInfo events result =>
      (getDeviceIdentityInternal crates systemInfo).Runs before events after result
  | cutOff systemInfo events =>
      ∃ stopped,
        (getDeviceIdentityInternal crates systemInfo).Begins performs before events stopped ∧
        after = stopped.restart
  | restarted => after = before.restart

/-- A call whose keyring read fails gets the stored identity from its host. -/
def DecidesAsStored (crates : Crates) (before : World) : IdentityStep → Prop
  | called systemInfo events _ =>
      KeyringReadFails events →
        identityFrom crates systemInfo before.machineId events =
          before.storedCredential .deviceIdentity
  | cutOff systemInfo events =>
      KeyringReadFails events → ∀ v,
        identityFrom crates systemInfo before.machineId events = some v →
          before.storedCredential .deviceIdentity = some v
  | restarted => True

end IdentityStep

structure Settled (identity : String) (world : World) : Prop where
  nonempty : identity ≠ ""
  stored : world.storedCredential .deviceIdentity = some identity
  cached : world.deviceIdentity = none ∨ world.deviceIdentity = some identity

theorem Settled.restart {identity : String} {world : World} (settled : Settled identity world) :
    Settled identity world.restart := ⟨settled.nonempty, settled.stored, Or.inl rfl⟩

theorem CallProgress.settled_of_stores {identity : String}
    (progress : CallProgress crates systemInfo before events after)
    (stores : Stores .deviceIdentity identity events) : Settled identity after := by
  cases progress with
  | unsaved silent _ _ => exact absurd stores (silent identity)
  | decided found _ derived only stored cached =>
      obtain rfl : identity = found := (only identity).mp stores
      exact ⟨identityFrom_ne_empty derived, stored, cached⟩

theorem CallProgress.settled {identity : String} (settled : Settled identity before)
    (progress : CallProgress crates systemInfo before events after)
    (asStored : KeyringReadFails events → ∀ v,
      identityFrom crates systemInfo before.machineId events = some v →
        before.storedCredential .deviceIdentity = some v) : Settled identity after := by
  cases progress with
  | unsaved silent stored cached =>
      refine ⟨settled.nonempty, stored.trans settled.stored, ?_⟩
      rcases cached with same | found
      · rw [same]
        exact settled.cached
      · exact Or.inr (found.trans settled.stored)
  | decided found unread derived _ stored cached =>
      have again : before.storedCredential .deviceIdentity = some found := by
        rcases unread with failed | absent
        · exact asStored failed found derived
        · exact absurd (absent identity settled.stored) settled.nonempty
      obtain rfl : identity = found := Option.some.inj (settled.stored.symm.trans again)
      exact ⟨settled.nonempty, stored, cached⟩

theorem Settled.step {identity : String} {step : IdentityStep} (settled : Settled identity before)
    (taken : step.Takes crates before after) (asStored : step.DecidesAsStored crates before) :
    Settled identity after ∧
      ∀ systemInfo events result, step = .called systemInfo events result →
        result = .ok identity := by
  cases step with
  | restarted =>
      obtain rfl : after = before.restart := taken
      exact ⟨settled.restart, fun _ _ _ other => by cases other⟩
  | cutOff systemInfo events =>
      obtain ⟨stopped, run, rfl⟩ := taken
      exact ⟨((getDeviceIdentityInternal_begins run).settled settled asStored).restart,
        fun _ _ _ other => by cases other⟩
  | called systemInfo events result =>
      have progress := getDeviceIdentityInternal_begins taken.begins
      constructor
      · refine progress.settled settled fun failed v derived => ?_
        rw [← asStored failed, derived]
      · rintro _ _ _ ⟨⟩
        rcases getDeviceIdentityInternal_runs taken with
          ⟨cached, inCache, rfl⟩ | ⟨stored, found, rfl⟩ | ⟨unread, derived⟩
        · rcases settled.cached with missing | same
          · rw [missing] at inCache
            cases inCache
          · rw [Option.some.inj (inCache.symm.trans same)]
        · rw [Option.some.inj (found.symm.trans settled.stored)]
        · have failed := unread.resolve_right fun absent =>
            settled.nonempty (absent identity settled.stored)
          rw [asStored failed, settled.stored] at derived
          cases result with
          | error e => cases derived
          | ok value => rw [Option.some.inj derived]

/-- Once a call has stored an identity, every later call returns it, in every
lifetime whose later calls get the stored identity from their host whenever
their keyring read fails. -/
theorem deviceIdentity_decided_once (crates : Crates) (start between final : World)
    (earlier later : List IdentityStep) (storing : IdentityStep) (identity : String)
    (first : Trace (IdentityStep.Takes crates) start (earlier ++ [storing]) between)
    (stores : Stores .deviceIdentity identity storing.performed)
    (rest : Trace (fun before step after => step.Takes crates before after ∧
      step.DecidesAsStored crates before) between later final)
    (systemInfo : Option Value) (events : List AgentEvent) (result : Except String String)
    (called : .called systemInfo events result ∈ later) : result = .ok identity := by
  obtain ⟨atStart, _, _, taken, ended⟩ := first.split
  cases ended
  have settled : Settled identity between := by
    cases storing with
    | restarted => simp [Stores, IdentityStep.performed] at stores
    | cutOff info events =>
        obtain ⟨stopped, run, rfl⟩ := taken
        exact ((getDeviceIdentityInternal_begins run).settled_of_stores stores).restart
    | called info events result =>
        exact (getDeviceIdentityInternal_begins taken.begins).settled_of_stores stores
  have every := rest.invariant (Settled identity) (fun _ => True)
    (fun step => ∀ systemInfo events result, step = .called systemInfo events result →
      result = .ok identity)
    (fun settled _ taken => settled.step taken.1 taken.2) settled (fun _ _ => trivial)
  exact every.2 _ called _ _ _ rfl

/-! A host that reports its serial once, then a restart and a locked keyring. -/

private def serialRows : Value := .array [.object [("hardware_serial", .string "C02XK1ABJG5H")]]

private def firstCall : IdentityStep :=
  .called (some serialRows)
    [⟨.readDeviceIdentity, none⟩, ⟨.fileRead .deviceIdentity, none⟩,
      ⟨.openEntry .deviceIdentity, .ok ()⟩, ⟨.getPassword .deviceIdentity, .error .noEntry⟩,
      ⟨.readMachineId, none⟩, ⟨.openEntry .deviceIdentity, .ok ()⟩,
      ⟨.setPassword .deviceIdentity "C02XK1ABJG5H", .ok ()⟩, ⟨.fileDelete .deviceIdentity, ()⟩,
      ⟨.writeDeviceIdentity (some "C02XK1ABJG5H"), ()⟩]
    (.ok "C02XK1ABJG5H")

private def serialStored : World :=
  (World.firstStart.setKeyring .deviceIdentity (some "C02XK1ABJG5H")).setFallbackFile
    .deviceIdentity none

private theorem firstCall_takes :
    firstCall.Takes .uncalled .firstStart
      { serialStored with deviceIdentity := some "C02XK1ABJG5H" } :=
  .act ⟨rfl, rfl⟩ (.act ⟨rfl, rfl⟩ (.act rfl (.act ⟨rfl, rfl⟩ (.act ⟨rfl, rfl⟩ (.act rfl
    (.act rfl (.act rfl (.act rfl (.done _ _)))))))))

private theorem firstCall_stores :
    Stores .deviceIdentity "C02XK1ABJG5H" firstCall.performed := by
  simp [Stores, firstCall, IdentityStep.performed]

private def lockedCall : IdentityStep :=
  .called (some (.array []))
    [⟨.readDeviceIdentity, none⟩, ⟨.fileRead .deviceIdentity, none⟩,
      ⟨.openEntry .deviceIdentity, .ok ()⟩,
      ⟨.getPassword .deviceIdentity, .error (.other "locked")⟩, ⟨.readMachineId, none⟩,
      ⟨.fillRandom, .ok ⟨List.replicate 16 7, rfl⟩⟩, ⟨.openEntry .deviceIdentity, .ok ()⟩,
      ⟨.setPassword .deviceIdentity "07070707070707070707070707070707", .error "locked"⟩,
      ⟨.fileSave .deviceIdentity "07070707070707070707070707070707", .ok ()⟩,
      ⟨.writeDeviceIdentity (some "07070707070707070707070707070707"), ()⟩]
    (.ok "07070707070707070707070707070707")

private theorem lockedCall_takes :
    lockedCall.Takes .uncalled serialStored
      { serialStored.setFallbackFile .deviceIdentity (some "07070707070707070707070707070707") with
        deviceIdentity := some "07070707070707070707070707070707" } :=
  .act ⟨rfl, rfl⟩ (.act ⟨rfl, rfl⟩ (.act rfl (.act ⟨rfl, trivial⟩ (.act ⟨rfl, rfl⟩ (.act rfl
    (.act rfl (.act rfl (.act rfl (.act rfl (.done _ _))))))))))

/-- A later call may return another identity than the stored one. -/
theorem deviceIdentity_decided_again :
    ¬ ∀ (crates : Crates) (start final : World) (earlier later : List IdentityStep)
        (storing : IdentityStep) (identity : String),
      (∀ account, start.keyring account = none ∧ start.fallbackFile account = none) →
      Trace (IdentityStep.Takes crates) start (earlier ++ storing :: later) final →
      (∀ step ∈ earlier ++ storing :: later, ∀ account value message,
        ⟨Effect.fileSave account value, Except.error message⟩ ∉ step.performed) →
      Stores .deviceIdentity identity storing.performed →
      ∀ systemInfo events result, .called systemInfo events result ∈ later →
        result = .ok identity := by
  intro claim
  have restarted : IdentityStep.restarted.Takes .uncalled
      { serialStored with deviceIdentity := some "C02XK1ABJG5H" } serialStored := rfl
  have other := claim .uncalled .firstStart _ [] [.restarted, lockedCall] firstCall _
    (fun _ => ⟨rfl, rfl⟩)
    (.cons firstCall_takes (.cons restarted (.cons lockedCall_takes (.nil _))))
    (by simp [firstCall, lockedCall, IdentityStep.performed]) firstCall_stores
    _ _ _ (List.mem_cons_of_mem _ List.mem_cons_self)
  simp at other

private def lockedSerialCall (result : Except String String) : IdentityStep :=
  .called (some serialRows)
    [⟨.readDeviceIdentity, none⟩, ⟨.fileRead .deviceIdentity, none⟩,
      ⟨.openEntry .deviceIdentity, .ok ()⟩,
      ⟨.getPassword .deviceIdentity, .error (.other "locked")⟩, ⟨.readMachineId, none⟩,
      ⟨.openEntry .deviceIdentity, .ok ()⟩,
      ⟨.setPassword .deviceIdentity "C02XK1ABJG5H", .error "locked"⟩,
      ⟨.fileSave .deviceIdentity "C02XK1ABJG5H", .ok ()⟩,
      ⟨.writeDeviceIdentity (some "C02XK1ABJG5H"), ()⟩] result

/-- The same restart on a host that still reports its serial. -/
theorem deviceIdentity_decided_once_restart :
    ∃ result after, (lockedSerialCall result).Takes .uncalled serialStored after ∧
      result = .ok "C02XK1ABJG5H" := by
  have restarted : IdentityStep.restarted.Takes .uncalled
      { serialStored with deviceIdentity := some "C02XK1ABJG5H" } serialStored := rfl
  have again : (lockedSerialCall (.ok "C02XK1ABJG5H")).Takes .uncalled serialStored
      { serialStored.setFallbackFile .deviceIdentity (some "C02XK1ABJG5H") with
        deviceIdentity := some "C02XK1ABJG5H" } :=
    .act ⟨rfl, rfl⟩ (.act ⟨rfl, rfl⟩ (.act rfl (.act ⟨rfl, trivial⟩ (.act ⟨rfl, rfl⟩ (.act rfl
      (.act rfl (.act rfl (.act rfl (.done _ _)))))))))
  have asStored : (lockedSerialCall (.ok "C02XK1ABJG5H")).DecidesAsStored .uncalled
      serialStored := fun _ => rfl
  refine ⟨_, _, again, ?_⟩
  exact deviceIdentity_decided_once .uncalled .firstStart _ _ [] _ firstCall _
    (.cons firstCall_takes (.nil _)) firstCall_stores
    (.cons ⟨restarted, trivial⟩ (.cons ⟨again, asStored⟩ (.nil _))) _ _ _
    (List.mem_cons_of_mem _ List.mem_cons_self)

end KlaayGuard
