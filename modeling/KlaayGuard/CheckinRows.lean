/-
From the rows of the checks to the resources of the payload.

The results of a cycle are one map keyed by the id the server chose: native
checks are inserted first, the osquery map extends it.  An id used twice keeps
its last rows only, and a query that cannot be spawned drops the rows of every
query of its cycle.
-/

import KlaayGuard.Collection
import KlaayGuard.Library.LastByKey

set_option autoImplicit false

namespace KlaayGuard

open EffectProgram Prog

def Effect.isNow : Effect → Bool
  | .now => true
  | _ => false

def gathered (events : List AgentEvent) : List AgentEvent :=
  events.takeWhile fun event => !event.action.isNow

def builtinAnswer : AgentEvent → Option Value
  | ⟨.runBuiltinCheck _, rows⟩ => some rows
  | _ => none

def SidecarOutcome.spawns : SidecarOutcome → Bool
  | .exited _ _ => true
  | _ => false

variable (crates : Crates)

/-- What the batch records for a query it could spawn. -/
def queryValue (outcome : SidecarOutcome) : Value :=
  match queryRows crates outcome with
  | .ok rows => rows
  | .error _ => .array []

def successfulRows : SidecarOutcome → List Value
  | .exited true stdout => ((crates.fromStr stdout).bind Value.asArray).getD []
  | _ => []

def rowResource (collectedAt id : String) (row : Value) : JsonApiResource :=
  { id := none, type := id, attributes := stampRow collectedAt row }

def CollectionItem.id : CollectionItem → String
  | osquery id _ => id
  | builtin id _ => id

/-- The rows of the native checks and of the queries, under their ids, in the
order in which they reach the map. -/
def resolvedRows (items : List CollectionItem) (checkRows sqlRows : List (List Value)) :
    List (String × List Value) :=
  ((builtinChecks items).map Prod.fst).zip checkRows ++
    ((osqueryQueries items).map Prod.fst).zip sqlRows

variable {crates} {before after : World} {events : List AgentEvent}

theorem insertMember_perm (key : String) (value : Value) (members : List (String × Value))
    (distinct : (members.map Prod.fst).Nodup) :
    (Value.insertMember key value members).Perm
      ((key, value) :: members.filter fun entry => entry.1 ≠ key) := by
  induction members with
  | nil => exact List.Perm.refl _
  | cons entry rest ih =>
      obtain ⟨name, old⟩ := entry
      rw [List.map_cons, List.nodup_cons] at distinct
      by_cases same : name = key
      · subst same
        have kept : rest.filter (fun entry => entry.1 ≠ name) = rest := by
          refine List.filter_eq_self.mpr fun other member => ?_
          rw [decide_eq_true_eq]
          rintro rfl
          have present : other.1 ∈ rest.map Prod.fst := List.mem_map_of_mem member
          exact distinct.1 present
        rw [Value.insertMember, if_pos rfl, List.filter_cons_of_neg (by simp), kept]
      · rw [Value.insertMember, if_neg same, List.filter_cons_of_pos (by simpa using same)]
        exact ((ih distinct.2).cons _).trans (List.Perm.swap _ _ _)

private def insertEntries (entries all : List (String × Value)) : List (String × Value) :=
  entries.foldl (fun all entry => Value.insertMember entry.1 entry.2 all) all

private theorem insertEntries_perm (entries : List (String × Value)) :
    (insertEntries entries []).Perm (lastByKey entries) := by
  have whole := (foldl_insert_perm insertMember_perm entries [] List.nodup_nil).1
  rwa [withoutKeys, List.filter_nil, List.nil_append] at whole

theorem buildPayloadItems_perm {results entries : List (String × Value)} (collectedAt : String)
    (same : results.Perm entries) :
    (buildPayloadItems results collectedAt).Perm (buildPayloadItems entries collectedAt) :=
  same.flatMap_right _

theorem buildPayloadItems_arrays (entries : List (String × List Value)) (collectedAt : String) :
    buildPayloadItems (entries.map (Prod.map id Value.array)) collectedAt =
      entries.flatMap fun entry => entry.2.map (rowResource collectedAt entry.1) := by
  rw [buildPayloadItems, List.flatMap_map]
  rfl

theorem runBuiltinChecks_runs {results final : List (String × Value)}
    {checks : List (String × String)}
    (run : (runBuiltinChecks results checks).Runs before events after final) :
    after = before ∧ (events.filterMap builtinAnswer).length = checks.length ∧
      events.filterMap sidecarAnswer = [] ∧
      final = insertEntries ((checks.map Prod.fst).zip (events.filterMap builtinAnswer))
        results := by
  induction checks generalizing results before events with
  | nil =>
      obtain ⟨rfl, rfl, rfl⟩ := runs_done.mp run
      exact ⟨rfl, rfl, rfl, rfl⟩
  | cons check checks ih =>
      obtain ⟨rows, middle, rest, performed, rfl, later⟩ := runs_act.mp run
      obtain rfl : middle = before := performed
      obtain ⟨rfl, length, silent, inserted⟩ := ih later
      exact ⟨rfl, congrArg (· + 1) length, silent, inserted⟩

/-- A batch that spawns all of its queries records each of them; one that does
not loses them all. -/
theorem executeSqlBatchFrom_runs {all : List (String × Value)} {queries : List (String × String)}
    {result : Except String (List (String × Value))}
    (run : (executeSqlBatchFrom crates all queries).Runs before events after result) :
    after = before ∧ events.filterMap builtinAnswer = [] ∧
      (((events.filterMap sidecarAnswer).length = queries.length ∧
          (∀ outcome ∈ events.filterMap sidecarAnswer, outcome.spawns = true) ∧
          result = .ok (insertEntries ((queries.map Prod.fst).zip
            ((events.filterMap sidecarAnswer).map (queryValue crates))) all)) ∨
        ((∃ outcome ∈ events.filterMap sidecarAnswer, outcome.spawns = false) ∧
          ∃ e, result = .error e)) := by
  induction queries generalizing all before events with
  | nil =>
      obtain ⟨rfl, rfl, rfl⟩ := runs_done.mp run
      exact ⟨rfl, rfl, Or.inl ⟨rfl, by simp, rfl⟩⟩
  | cons query queries ih =>
      obtain ⟨outcome, middle, rest, performed, rfl, later⟩ := runs_act.mp run
      obtain rfl : middle = before := performed
      cases outcome with
      | unavailable message =>
          obtain ⟨rfl, rfl, rfl⟩ := runs_done.mp later
          exact ⟨rfl, rfl, Or.inr ⟨⟨_, List.mem_cons_self, rfl⟩, _, rfl⟩⟩
      | spawnFailed message =>
          obtain ⟨rfl, rfl, rfl⟩ := runs_done.mp later
          exact ⟨rfl, rfl, Or.inr ⟨⟨_, List.mem_cons_self, rfl⟩, _, rfl⟩⟩
      | exited success stdout =>
          obtain ⟨rfl, noChecks, answered⟩ := ih later
          refine ⟨rfl, noChecks, ?_⟩
          rcases answered with ⟨length, spawned, recorded⟩ | ⟨⟨failed, member, fails⟩, error⟩
          · refine Or.inl ⟨congrArg (· + 1) length, ?_, recorded⟩
            intro other member
            rcases List.mem_cons.mp member with rfl | member
            · rfl
            · exact spawned other member
          · exact Or.inr ⟨⟨failed, List.mem_cons_of_mem _ member, fails⟩, error⟩

private theorem collectRows_untimed (items : List CollectionItem) :
    (collectRows crates items).Only fun action => action.isNow = false := by
  refine (collectRows_only items).mono ?_
  rintro action (⟨check, rfl⟩ | ⟨sql, rfl⟩) <;> rfl

private theorem gathered_collected {items : List CollectionItem}
    {results : List (String × Value)} {first : List AgentEvent}
    (collected : (collectRows crates items).Runs before first after results)
    (collectedAt : String) (called : List AgentEvent) :
    gathered (first ++ ⟨.now, collectedAt⟩ :: called) = first := by
  have untimed := collected.only (collectRows_untimed items)
  rw [gathered, List.takeWhile_append_of_pos]
  · simp only [List.takeWhile_cons, Effect.isNow, Bool.not_true, Bool.false_eq_true, if_false,
      List.append_nil]
  · intro event member
    rw [untimed event member]
    rfl

theorem collectRows_runs {items : List CollectionItem} {results : List (String × Value)}
    (run : (collectRows crates items).Runs before events after results) :
    after = before ∧ (events.filterMap builtinAnswer).length = (builtinChecks items).length ∧
      (((events.filterMap sidecarAnswer).length = (osqueryQueries items).length ∧
          (∀ outcome ∈ events.filterMap sidecarAnswer, outcome.spawns = true) ∧
          results.Perm (lastByKey
            (((builtinChecks items).map Prod.fst).zip (events.filterMap builtinAnswer) ++
              ((osqueryQueries items).map Prod.fst).zip
                ((events.filterMap sidecarAnswer).map (queryValue crates))))) ∨
        ((∃ outcome ∈ events.filterMap sidecarAnswer, outcome.spawns = false) ∧
          results.Perm (lastByKey
            (((builtinChecks items).map Prod.fst).zip (events.filterMap builtinAnswer))))) := by
  obtain ⟨middle, checked, first, second, atChecks, atQueries, rfl⟩ := runs_bind.mp run
  obtain ⟨rfl, length, noQueries, rfl⟩ := runBuiltinChecks_runs atChecks
  split at atQueries
  · rename_i noQuery
    obtain ⟨rfl, rfl, rfl⟩ := runs_done.mp atQueries
    rw [List.isEmpty_iff] at noQuery
    simp only [List.append_nil, noQueries, noQuery, List.map_nil, List.zip_nil_left, true_and]
    exact ⟨length, Or.inl ⟨rfl, by simp, insertEntries_perm _⟩⟩
  · obtain ⟨late, answer, batch, rest, atBatch, afterBatch, rfl⟩ := runs_bind.mp atQueries
    obtain ⟨rfl, noChecks, answered⟩ := executeSqlBatchFrom_runs atBatch
    have silent : rest = [] := by
      cases answer <;> exact (runs_done.mp afterBatch).1
    subst silent
    simp only [List.append_nil, List.filterMap_append, noQueries, noChecks, List.nil_append]
    rcases answered with ⟨each, spawned, rfl⟩ | ⟨failed, e, rfl⟩
    · obtain ⟨_, rfl, rfl⟩ := runs_done.mp afterBatch
      exact ⟨rfl, length, Or.inl ⟨each, spawned, extend_perm insertMember_perm _ _⟩⟩
    · obtain ⟨_, rfl, rfl⟩ := runs_done.mp afterBatch
      exact ⟨rfl, length, Or.inr ⟨failed, insertEntries_perm _⟩⟩

theorem assembleItems_parts {items : List CollectionItem} {resources : List JsonApiResource}
    {serial : String}
    (run : (assembleItems crates items).Runs before events after (resources, serial)) :
    ∃ middle results collectedAt called identity,
      (collectRows crates items).Runs before (gathered events) middle results ∧
        events = gathered events ++ ⟨.now, collectedAt⟩ :: called ∧
        (getDeviceIdentityInternal crates (Value.member "system_info" results)).Runs
          middle called after identity ∧
        resources = buildPayloadItems results collectedAt ∧
        serial = identity.toOption.getD "unknown" := by
  obtain ⟨middle, results, first, second, atCollect, afterCollect, rfl⟩ := runs_bind.mp run
  obtain ⟨collectedAt, stamped, rest, atNow, rfl, afterStamp⟩ := runs_act.mp afterCollect
  obtain rfl : stamped = middle := atNow
  change Runs performs (getDeviceIdentityInternal crates (Value.member "system_info" results) >>=
    _) _ _ _ _ at afterStamp
  obtain ⟨late, identity, called, rest', atCall, afterCall, rfl⟩ := runs_bind.mp afterStamp
  obtain ⟨rfl, rfl, answer⟩ := runs_done.mp afterCall
  have part := gathered_collected atCollect collectedAt (called ++ [])
  refine ⟨stamped, results, collectedAt, called, identity, ?_, ?_, atCall, ?_, ?_⟩
  · rw [part]
    exact atCollect
  · rw [part, List.append_nil]
  · exact congrArg Prod.fst answer
  · have serialAnswer := congrArg Prod.snd answer
    cases identity <;> exact serialAnswer

theorem assembleItems_runs {items : List CollectionItem} {resources : List JsonApiResource}
    {serial : String}
    (run : (assembleItems crates items).Runs before events after (resources, serial)) :
    ∃ middle results collectedAt,
      (collectRows crates items).Runs before (gathered events) middle results ∧
        ⟨.now, collectedAt⟩ ∈ events ∧ resources = buildPayloadItems results collectedAt := by
  obtain ⟨middle, results, collectedAt, called, identity, collected, split, _, built, _⟩ :=
    assembleItems_parts run
  refine ⟨middle, results, collectedAt, collected, ?_, built⟩
  rw [split]
  exact List.mem_append_right _ List.mem_cons_self

/-! ### One resource per row -/

def Returned (crates : Crates) (outcome : SidecarOutcome) (rows : List Value) : Prop :=
  ∃ stdout, outcome = .exited true stdout ∧ crates.fromStr stdout = some (.array rows)

private theorem returned_values {outcomes : List SidecarOutcome} {rows : List (List Value)}
    (returned : List.Forall₂ (Returned crates) outcomes rows) :
    outcomes.map (queryValue crates) = rows.map Value.array ∧
      ∀ outcome ∈ outcomes, outcome.spawns = true := by
  induction returned with
  | nil => exact ⟨rfl, by simp⟩
  | @cons outcome values outcomes rows first rest ih =>
      obtain ⟨stdout, rfl, parsed⟩ := first
      constructor
      · rw [List.map_cons, List.map_cons, ih.1]
        simp [queryValue, queryRows, parsed]
      · intro other member
        rcases List.mem_cons.mp member with rfl | member
        · rfl
        · exact ih.2 other member

theorem ids_perm (items : List CollectionItem) :
    ((builtinChecks items).map Prod.fst ++ (osqueryQueries items).map Prod.fst).Perm
      (items.map CollectionItem.id) := by
  induction items with
  | nil => exact List.Perm.refl _
  | cons item items ih =>
      cases item with
      | osquery id sql => exact List.perm_middle.trans (ih.cons id)
      | builtin id check => exact ih.cons id

private theorem resolvedRows_values {items : List CollectionItem}
    {checkRows sqlRows : List (List Value)} :
    ((builtinChecks items).map Prod.fst).zip (checkRows.map Value.array) ++
        ((osqueryQueries items).map Prod.fst).zip (sqlRows.map Value.array) =
      (resolvedRows items checkRows sqlRows).map (Prod.map id Value.array) := by
  rw [resolvedRows, List.map_append, List.zip_map_right, List.zip_map_right]

private theorem resolvedRows_keys {items : List CollectionItem}
    {checkRows sqlRows : List (List Value)}
    (checked : checkRows.length = (builtinChecks items).length)
    (queried : sqlRows.length = (osqueryQueries items).length) :
    ((resolvedRows items checkRows sqlRows).map Prod.fst).Perm
      (items.map CollectionItem.id) := by
  rw [resolvedRows, List.map_append, List.map_fst_zip, List.map_fst_zip]
  · exact ids_perm items
  · rw [List.length_map, queried]
  · rw [List.length_map, checked]

/-- With no failures, the payload holds one resource for each row of each item
whose id no item resolved after it has, and of every item where the ids differ. -/
theorem payload_one_resource_per_row (crates : Crates) (items : List CollectionItem)
    (before after : World) (events : List AgentEvent) (resources : List JsonApiResource)
    (serial : String) (checkRows sqlRows : List (List Value))
    (run : (assembleItems crates items).Runs before events after (resources, serial))
    (checked : (gathered events).filterMap builtinAnswer = checkRows.map Value.array)
    (queried : List.Forall₂ (Returned crates) ((gathered events).filterMap sidecarAnswer)
      sqlRows) :
    ∃ collectedAt, ⟨.now, collectedAt⟩ ∈ events ∧
      resources.Perm ((lastByKey (resolvedRows items checkRows sqlRows)).flatMap fun entry =>
        entry.2.map (rowResource collectedAt entry.1)) ∧
      ((items.map CollectionItem.id).Nodup →
        resources.Perm ((resolvedRows items checkRows sqlRows).flatMap fun entry =>
          entry.2.map (rowResource collectedAt entry.1))) := by
  obtain ⟨middle, results, collectedAt, collected, stamped, rfl⟩ := assembleItems_runs run
  obtain ⟨values, spawned⟩ := returned_values queried
  obtain ⟨_, checks, ⟨queries, _, whole⟩ | ⟨⟨failed, member, fails⟩, _⟩⟩ :=
    collectRows_runs collected
  · rw [checked, values, resolvedRows_values, lastByKey_map] at whole
    have resources := buildPayloadItems_perm collectedAt whole
    rw [buildPayloadItems_arrays] at resources
    refine ⟨collectedAt, stamped, resources, fun distinct => ?_⟩
    rw [lastByKey_of_nodup] at resources
    · exact resources
    · rw [checked, List.length_map] at checks
      rw [queried.length_eq] at queries
      exact (resolvedRows_keys checks queries).nodup_iff.mpr distinct
  · rw [spawned failed member] at fails
    cases fails

/-! Two native checks under one id, and two items under two. -/

private def reporting : World :=
  { World.firstStart with deviceIdentity := some "C02XK1ABJG5H" }

private def enabledRow : Value := .object [("enabled", .bool true)]

private def versionText : String := "[\x7b\"name\":\"Ubuntu\"\x7d]"

private def versionRow : Value := .object [("name", .string "Ubuntu")]

private def versionCrates : Crates :=
  { Crates.uncalled with
    fromStr := fun text => if text = versionText then some (.array [versionRow]) else none }

private def checkObject (id check : String) : Value :=
  .object [("id", .string id), ("type", .string "builtin"), ("check", .string check)]

theorem payload_loses_rows :
    ¬ ∀ (crates : Crates) (cfg : Value) (os : String) (before after : World)
        (events : List AgentEvent) (resources : List JsonApiResource) (serial : String)
        (checkRows sqlRows : List (List Value)),
      (assembleItems crates (parseConfigItems cfg os)).Runs before events after
        (resources, serial) →
      (gathered events).filterMap builtinAnswer = checkRows.map Value.array →
      List.Forall₂ (Returned crates) ((gathered events).filterMap sidecarAnswer) sqlRows →
      ∃ collectedAt, ⟨.now, collectedAt⟩ ∈ events ∧
        resources.Perm ((resolvedRows (parseConfigItems cfg os) checkRows sqlRows).flatMap
          fun entry => entry.2.map (rowResource collectedAt entry.1)) := by
  intro claim
  obtain ⟨_, _, same⟩ := claim .uncalled
    (.object [("data", .array [checkObject "posture" "firewall",
      checkObject "posture" "screenlock"])]) "linux" reporting reporting
    [⟨.runBuiltinCheck "firewall", .array [enabledRow]⟩,
      ⟨.runBuiltinCheck "screenlock", .array [enabledRow]⟩, ⟨.now, "2026-10-01T08:00:00Z"⟩,
      ⟨.readDeviceIdentity, some "C02XK1ABJG5H"⟩]
    [rowResource "2026-10-01T08:00:00Z" "posture" enabledRow] "C02XK1ABJG5H"
    [[enabledRow], [enabledRow]] []
    (.act rfl (.act rfl (.act rfl (.act ⟨rfl, rfl⟩ (.done _ _))))) rfl .nil
  have one : 1 = 2 := same.length_eq
  cases one

private def mixedItems : List CollectionItem :=
  [.osquery "os_version" "SELECT name FROM os_version", .builtin "posture" "firewall"]

private def mixedResources : List JsonApiResource :=
  [rowResource "2026-10-01T08:00:00Z" "posture" enabledRow,
    rowResource "2026-10-01T08:00:00Z" "os_version" versionRow]

theorem payload_one_resource_per_row_mixed :
    ∃ collectedAt, mixedResources.Perm
      ((resolvedRows mixedItems [[enabledRow]] [[versionRow]]).flatMap fun entry =>
        entry.2.map (rowResource collectedAt entry.1)) := by
  obtain ⟨collectedAt, _, _, distinct⟩ := payload_one_resource_per_row versionCrates mixedItems
    reporting reporting
    [⟨.runBuiltinCheck "firewall", .array [enabledRow]⟩,
      ⟨.runSidecar "SELECT name FROM os_version", .exited true versionText⟩,
      ⟨.now, "2026-10-01T08:00:00Z"⟩, ⟨.readDeviceIdentity, some "C02XK1ABJG5H"⟩]
    mixedResources "C02XK1ABJG5H" [[enabledRow]] [[versionRow]]
    (.act rfl (.act rfl (.act rfl (.act ⟨rfl, rfl⟩ (.done _ _))))) rfl
    (.cons ⟨versionText, rfl, rfl⟩ .nil)
  exact ⟨collectedAt, distinct (by decide)⟩

/-! ### One bad query -/

/-- Whatever the sidecar makes of each query, every row of a query that ran
successfully is in the payload. -/
def KeepsSuccessfulRows (crates : Crates) (items : List CollectionItem)
    (outcomes : List SidecarOutcome) : Prop :=
  ∀ before after events resources serial,
    (assembleItems crates items).Runs before events after (resources, serial) →
    (gathered events).filterMap sidecarAnswer <+: outcomes →
    ∃ collectedAt, ⟨.now, collectedAt⟩ ∈ events ∧
      ∀ id outcome, (id, outcome) ∈ ((osqueryQueries items).map Prod.fst).zip outcomes →
        ∀ row ∈ successfulRows crates outcome, rowResource collectedAt id row ∈ resources

private theorem executeSqlBatchFrom_exists (world : World) (all : List (String × Value))
    (queries : List (String × String)) (outcomes : List SidecarOutcome)
    (each : outcomes.length = queries.length) :
    ∃ events result, (executeSqlBatchFrom crates all queries).Runs world events world result ∧
      events.filterMap sidecarAnswer <+: outcomes ∧
      ((∃ outcome ∈ outcomes, outcome.spawns = false) → ∃ e, result = .error e) := by
  induction queries generalizing all outcomes with
  | nil =>
      rw [List.length_nil, List.length_eq_zero_iff] at each
      subst each
      exact ⟨[], .ok all, .done _ _, List.nil_prefix, by simp⟩
  | cons query queries ih =>
      cases outcomes with
      | nil => cases each
      | cons outcome outcomes =>
          cases outcome with
          | unavailable message =>
              refine ⟨[⟨.runSidecar query.2, .unavailable message⟩], _, .act rfl (.done _ _), ?_,
                fun _ => ⟨_, rfl⟩⟩
              exact List.prefix_append [_] outcomes
          | spawnFailed message =>
              refine ⟨[⟨.runSidecar query.2, .spawnFailed message⟩], _, .act rfl (.done _ _), ?_,
                fun _ => ⟨_, rfl⟩⟩
              exact List.prefix_append [_] outcomes
          | exited success stdout =>
              obtain ⟨events, result, run, answered, failing⟩ :=
                ih (Value.insertMember query.1 (queryValue crates (.exited success stdout)) all)
                  outcomes (Nat.succ.inj each)
              refine ⟨⟨.runSidecar query.2, .exited success stdout⟩ :: events, result,
                .act rfl run, ?_, ?_⟩
              · exact (List.prefix_cons_inj _).mpr answered
              · rintro ⟨failed, member, fails⟩
                rcases List.mem_cons.mp member with rfl | member
                · cases fails
                · exact failing ⟨failed, member, fails⟩

private theorem runBuiltinChecks_exists (world : World) (all : List (String × Value))
    (checks : List (String × String)) (idle : ∀ entry ∈ all, entry.2 = .array []) :
    ∃ events final, (runBuiltinChecks all checks).Runs world events world final ∧
      events.filterMap sidecarAnswer = [] ∧ ∀ entry ∈ final, entry.2 = .array [] := by
  induction checks generalizing all with
  | nil => exact ⟨[], all, .done _ _, rfl, idle⟩
  | cons check checks ih =>
      have inserted : ∀ entry ∈ Value.insertMember check.1 (.array []) all,
          entry.2 = .array [] := by
        clear ih
        induction all with
        | nil => simp [Value.insertMember]
        | cons first rest ih =>
            rw [Value.insertMember]
            split
            · intro entry member
              rcases List.mem_cons.mp member with rfl | member
              · rfl
              · exact idle entry (List.mem_cons_of_mem _ member)
            · intro entry member
              rcases List.mem_cons.mp member with rfl | member
              · exact idle _ List.mem_cons_self
              · exact ih (fun other present => idle other (List.mem_cons_of_mem _ present)) entry
                  member
      obtain ⟨events, final, run, silent, empty⟩ := ih _ inserted
      exact ⟨⟨.runBuiltinCheck check.2, .array []⟩ :: events, final, .act rfl run, silent, empty⟩

private theorem assembleItems_loses {items : List CollectionItem}
    {outcomes : List SidecarOutcome} (each : outcomes.length = (osqueryQueries items).length)
    (fails : ∃ outcome ∈ outcomes, outcome.spawns = false) :
    ∃ events serial, (assembleItems crates items).Runs reporting events reporting ([], serial) ∧
      (gathered events).filterMap sidecarAnswer <+: outcomes := by
  obtain ⟨checkEvents, final, checked, silent, empty⟩ :=
    runBuiltinChecks_exists reporting [] (builtinChecks items) (by simp)
  obtain ⟨batchEvents, result, batch, answered, failing⟩ :=
    @executeSqlBatchFrom_exists crates reporting [] (osqueryQueries items) outcomes each
  obtain ⟨e, rfl⟩ := failing fails
  have queries : (osqueryQueries items).isEmpty = false := by
    obtain ⟨outcome, member, _⟩ := fails
    cases atQueries : osqueryQueries items with
    | cons query rest => rfl
    | nil =>
        rw [atQueries, List.length_nil, List.length_eq_zero_iff] at each
        rw [each] at member
        cases member
  have collected : (collectRows crates items).Runs reporting (checkEvents ++ batchEvents)
      reporting final := by
    refine runs_bind.mpr ⟨_, final, checkEvents, batchEvents, checked, ?_, rfl⟩
    rw [queries]
    exact runs_bind.mpr ⟨_, _, batchEvents, [], batch, .done _ _, (List.append_nil _).symm⟩
  have nothing : buildPayloadItems final "2026-10-01T08:00:00Z" = [] := by
    refine List.flatMap_eq_nil_iff.mpr fun entry member => ?_
    obtain ⟨id, value⟩ := entry
    obtain rfl : value = .array [] := empty _ member
    rfl
  have whole : (assembleItems crates items).Runs reporting
      ((checkEvents ++ batchEvents) ++ [⟨.now, "2026-10-01T08:00:00Z"⟩,
        ⟨.readDeviceIdentity, some "C02XK1ABJG5H"⟩]) reporting ([], "C02XK1ABJG5H") := by
    refine runs_bind.mpr ⟨_, final, _, _, collected, .act rfl ?_, rfl⟩
    rw [← nothing]
    exact .act ⟨rfl, rfl⟩ (.done _ _)
  refine ⟨_, _, whole, ?_⟩
  rw [gathered_collected collected, List.filterMap_append, silent, List.nil_append]
  exact answered

private theorem queryValue_of_mem {outcome : SidecarOutcome} {row : Value}
    (member : row ∈ successfulRows crates outcome) :
    queryValue crates outcome = .array (successfulRows crates outcome) := by
  cases outcome with
  | exited success stdout =>
      cases success with
      | false => cases member
      | true =>
          cases parsed : crates.fromStr stdout with
          | none =>
              simp only [successfulRows, parsed, Option.bind_none, Option.getD_none] at member
              cases member
          | some value =>
              cases value with
              | array rows => simp [queryValue, queryRows, successfulRows, parsed]
              | _ =>
                  simp only [successfulRows, parsed, Option.bind_some] at member
                  cases member
  | _ => cases member

/-- Every row of every successful query is in the payload exactly where all
queries could be spawned, or none had rows to lose. -/
theorem successful_rows_kept_iff (crates : Crates) (items : List CollectionItem)
    (outcomes : List SidecarOutcome)
    (distinct : ((osqueryQueries items).map Prod.fst).Nodup)
    (each : outcomes.length = (osqueryQueries items).length) :
    KeepsSuccessfulRows crates items outcomes ↔
      (∀ outcome ∈ outcomes, outcome.spawns = true) ∨
        ∀ outcome ∈ outcomes, successfulRows crates outcome = [] := by
  have ids : ((osqueryQueries items).map Prod.fst).length = outcomes.length := by
    rw [List.length_map, each]
  constructor
  · intro keeps
    by_cases spawned : ∀ outcome ∈ outcomes, outcome.spawns = true
    · exact Or.inl spawned
    · refine Or.inr fun outcome member => ?_
      have fails : ∃ outcome ∈ outcomes, outcome.spawns = false := by
        simpa using spawned
      obtain ⟨events, serial, run, answered⟩ := @assembleItems_loses crates _ _ each fails
      obtain ⟨collectedAt, _, kept⟩ := keeps _ _ _ _ _ run answered
      rw [← List.map_snd_zip (Nat.le_of_eq ids.symm)] at member
      obtain ⟨⟨id, _⟩, inBatch, rfl⟩ := List.mem_map.mp member
      refine List.eq_nil_iff_forall_not_mem.mpr fun row inRows => ?_
      cases kept id _ inBatch row inRows
  · rintro condition before after events resources serial run answered
    obtain ⟨middle, results, collectedAt, collected, stamped, rfl⟩ := assembleItems_runs run
    refine ⟨collectedAt, stamped, fun id outcome inBatch row inRows => ?_⟩
    have present : outcome ∈ outcomes := (List.of_mem_zip inBatch).2
    rcases condition with spawned | rowless
    · obtain ⟨_, _, ⟨queries, _, whole⟩ | ⟨⟨failed, member, fails⟩, _⟩⟩ :=
        collectRows_runs collected
      · have all := answered.eq_of_length (queries.trans each.symm)
        rw [all] at whole
        have recorded : (id, queryValue crates outcome) ∈
            ((osqueryQueries items).map Prod.fst).zip (outcomes.map (queryValue crates)) := by
          rw [List.zip_map_right]
          exact List.mem_map.mpr ⟨(id, outcome), inBatch, rfl⟩
        have stays : (id, queryValue crates outcome) ∈ results := by
          refine whole.mem_iff.mpr (mem_lastByKey_append ?_)
          rwa [lastByKey_of_nodup]
          rwa [List.map_fst_zip]
          rw [List.length_map, List.length_map, each]
        refine List.mem_flatMap.mpr ⟨_, stays, ?_⟩
        rw [queryValue_of_mem inRows]
        exact List.mem_map.mpr ⟨row, inRows, rfl⟩
      · rw [spawned failed (answered.subset member)] at fails
        cases fails
    · rw [rowless outcome present] at inRows
      cases inRows

/-! A second query whose text the operating system refuses as an argument, and
one that the sidecar itself refuses. -/

private def versionAndNul : List CollectionItem :=
  [.osquery "os_version" "SELECT name FROM os_version", .osquery "users" "SELECT '\x00'"]

theorem successful_rows_lost :
    ¬ ∀ (crates : Crates) (items : List CollectionItem) (outcomes : List SidecarOutcome),
      ((osqueryQueries items).map Prod.fst).Nodup →
      outcomes.length = (osqueryQueries items).length →
      KeepsSuccessfulRows crates items outcomes := by
  intro claim
  obtain ⟨_, _, kept⟩ := claim versionCrates versionAndNul
    [.exited true versionText, .spawnFailed "nul byte found in provided data"]
    (by decide) rfl reporting reporting
    [⟨.runSidecar "SELECT name FROM os_version", .exited true versionText⟩,
      ⟨.runSidecar "SELECT '\x00'", .spawnFailed "nul byte found in provided data"⟩,
      ⟨.now, "2026-10-01T08:00:00Z"⟩, ⟨.readDeviceIdentity, some "C02XK1ABJG5H"⟩]
    [] "C02XK1ABJG5H" (.act rfl (.act rfl (.act rfl (.act ⟨rfl, rfl⟩ (.done _ _)))))
    List.prefix_rfl
  cases kept "os_version" (.exited true versionText) List.mem_cons_self versionRow
    List.mem_cons_self

theorem successful_rows_kept_refused :
    KeepsSuccessfulRows versionCrates versionAndNul
      [.exited true versionText, .exited false ""] :=
  (successful_rows_kept_iff versionCrates versionAndNul _ (by decide) rfl).mpr
    (Or.inl (by decide))

end KlaayGuard
