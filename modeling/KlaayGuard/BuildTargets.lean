/-
Builds for different servers on one machine.

One rule, the suffix of a server's base, names the keychain entry, the credential files and the
lock: the stores go by the base that an agent talks to, the lock by the base it was compiled
for.  Builds that talk to different targets keep apart: each one's run is a run on a machine of
its own.
-/

import KlaayGuard.CredentialFile

set_option autoImplicit false

namespace KlaayGuard

open EffectProgram Prog RustText

def keychainService : String := "com.klaay.klaayguard"

section Names

variable (sha256 : List UInt8 → { bytes : List UInt8 // bytes.length = 32 })

def keychainServiceFor (apiBaseUrl : String) : String :=
  match targetSuffix sha256 apiBaseUrl with
  | none => keychainService
  | some suffix => keychainService ++ "." ++ suffix

def isProductionTarget (apiBaseUrl : String) : Bool := (targetSuffix sha256 apiBaseUrl).isNone

def agentLockPath (dataLocalDir : Option (List Char)) (apiBaseUrl : String) :
    Option (List Char) :=
  let name :=
    match targetSuffix sha256 apiBaseUrl with
    | none => "agent.lock".toList
    | some suffix => "agent-".toList ++ suffix.toList ++ ".lock".toList
  dataLocalDir.map fun d => pathJoin (pathJoin d "com.klaay.app".toList) name

/-- An agent that starts: `APP_DEFAULT_API_BASE_URL` of its build, and `VITE_API_BASE_URL` of
its environment. -/
structure RunningAgent : Type where
  appDefault : Option String
  viteApiBase : Option String

def RunningAgent.compiledApiBaseUrl (agent : RunningAgent) : String :=
  agent.appDefault.getD "https://api.klaay.com"

def RunningAgent.getApiBaseUrl (agent : RunningAgent) : String :=
  (agent.viteApiBase.or agent.appDefault).getD "https://api.klaay.com"

def RunningAgent.plain (agent : RunningAgent) : RunningAgent := { agent with viteApiBase := none }

def RunningAgent.keychainService (agent : RunningAgent) : String :=
  keychainServiceFor sha256 agent.getApiBaseUrl

def RunningAgent.credentialFile (dataLocalDir : Option (List Char)) (agent : RunningAgent)
    (account : Account) : Option (List Char) :=
  credentialFileIn sha256 dataLocalDir agent.getApiBaseUrl account

/-- The lock `claim_this_login` claims, on macOS. -/
def RunningAgent.lockPath (dataLocalDir : Option (List Char)) (agent : RunningAgent) :
    Option (List Char) :=
  agentLockPath sha256 dataLocalDir agent.compiledApiBaseUrl

/-- Whether the agent takes the single-instance plugin, on Linux and Windows. -/
def RunningAgent.registersPlugin (agent : RunningAgent) : Bool :=
  isProductionTarget sha256 agent.getApiBaseUrl

/-- The variable points at the target that the build was compiled for. -/
def RunningAgent.KeepsTarget (agent : RunningAgent) : Prop :=
  targetSuffix sha256 agent.getApiBaseUrl = targetSuffix sha256 agent.compiledApiBaseUrl

instance (agent : RunningAgent) : Decidable (agent.KeepsTarget sha256) :=
  inferInstanceAs (Decidable (_ = _))

end Names

variable {sha256 : List UInt8 → { bytes : List UInt8 // bytes.length = 32 }}
variable {left right : String} {d : List Char}

theorem targetSuffix_slashes (base : String) (slashes : List Char)
    (only : ∀ c ∈ slashes, c = '/') :
    targetSuffix sha256 (String.ofList (base.toList ++ slashes)) = targetSuffix sha256 base := by
  have trimmed : trimEndMatches (· == '/') (base.toList ++ slashes) =
      trimEndMatches (· == '/') base.toList := by
    rw [trimEndMatches, trimEndMatches, List.rdropWhile, List.rdropWhile, List.reverse_append,
      List.dropWhile_append_of_pos]
    intro c member
    simp [only c (List.mem_reverse.mp member)]
  simp only [targetSuffix, String.toList_ofList, trimmed]

theorem hexDigit_ne_slash {value : Nat} (small : value < 16) : hexDigit value ≠ '/' := by
  have every : ∀ digit : Fin 16, hexDigit digit ≠ '/' := by decide
  exact every ⟨value, small⟩

theorem suffix_plain {apiBaseUrl suffix : String}
    (named : targetSuffix sha256 apiBaseUrl = some suffix) :
    '/' ∉ suffix.toList ∧ suffix.toList ≠ [] := by
  unfold targetSuffix at named
  simp only at named
  split at named
  · cases named
  · cases named
    constructor
    · intro member
      rw [hexLower, String.toList_ofList, List.mem_flatMap] at member
      obtain ⟨byte, -, digit⟩ := member
      have bound := byte.toNat_lt
      rcases List.mem_cons.mp digit with high | digit
      · exact hexDigit_ne_slash (by omega) high.symm
      · rw [List.mem_singleton] at digit
        exact hexDigit_ne_slash (by omega) digit.symm
    · intro empty
      have long := hexLower_length ((sha256 (asBytes (String.ofList
        (trimEndMatches (· == '/') apiBaseUrl.toList)))).val.take 4)
      rw [empty, List.length_take, (sha256 _).property] at long
      simp at long

def suffixedName (whole before after : List Char) : Option String → List Char
  | none => whole
  | some suffix => before ++ suffix.toList ++ after

theorem suffixedName_inj {whole before after : List Char} {suffix other : Option String}
    (long : whole.length < before.length + after.length) :
    suffixedName whole before after suffix = suffixedName whole before after other ↔
      suffix = other := by
  constructor
  · intro same
    cases suffix with
    | none =>
        cases other with
        | none => rfl
        | some text =>
            have lengths := congrArg List.length same
            simp only [suffixedName, List.length_append] at lengths
            omega
    | some text =>
        cases other with
        | none =>
            have lengths := congrArg List.length same
            simp only [suffixedName, List.length_append] at lengths
            omega
        | some text' =>
            simp only [suffixedName, List.append_assoc, List.append_right_inj,
              List.append_left_inj] at same
            rw [String.toList_injective same]
  · rintro rfl
    rfl

theorem keychainServiceFor_eq (apiBaseUrl : String) :
    (keychainServiceFor sha256 apiBaseUrl).toList =
      suffixedName keychainService.toList (keychainService ++ ".").toList []
        (targetSuffix sha256 apiBaseUrl) := by
  unfold keychainServiceFor
  cases targetSuffix sha256 apiBaseUrl with
  | none => rfl
  | some suffix => simp [suffixedName]

def credentialsDir (suffix : Option String) : List Char :=
  suffixedName "credentials".toList "credentials-".toList [] suffix

def lockName (suffix : Option String) : List Char :=
  suffixedName "agent.lock".toList "agent-".toList ".lock".toList suffix

theorem credentialFileIn_eq (apiBaseUrl : String) (account : Account) :
    credentialFileIn sha256 (some d) apiBaseUrl account =
      some (pathJoin (pathJoin (pathJoin d "com.klaay.app".toList)
        (credentialsDir (targetSuffix sha256 apiBaseUrl))) account.name) := by
  unfold credentialFileIn credentialsDir
  cases targetSuffix sha256 apiBaseUrl with
  | none => rfl
  | some suffix => simp [suffixedName]

theorem agentLockPath_eq (apiBaseUrl : String) :
    agentLockPath sha256 (some d) apiBaseUrl =
      some (pathJoin (pathJoin d "com.klaay.app".toList)
        (lockName (targetSuffix sha256 apiBaseUrl))) := by
  unfold agentLockPath lockName
  cases targetSuffix sha256 apiBaseUrl with
  | none => rfl
  | some suffix => simp [suffixedName]

theorem suffixedName_plain {whole before after : List Char} {apiBaseUrl : String}
    (plainWhole : '/' ∉ whole) (plainBefore : '/' ∉ before) (plainAfter : '/' ∉ after) :
    '/' ∉ suffixedName whole before after (targetSuffix sha256 apiBaseUrl) := by
  cases named : targetSuffix sha256 apiBaseUrl with
  | none => exact plainWhole
  | some suffix =>
      have plain := (suffix_plain named).1
      simp [suffixedName, plainBefore, plain, plainAfter]

theorem credentialsDir_plain (apiBaseUrl : String) :
    '/' ∉ credentialsDir (targetSuffix sha256 apiBaseUrl) :=
  suffixedName_plain (by decide) (by decide) (by decide)

theorem lockName_plain (apiBaseUrl : String) : '/' ∉ lockName (targetSuffix sha256 apiBaseUrl) :=
  suffixedName_plain (by decide) (by decide) (by decide)

theorem credentialsDir_ne_nil (suffix : Option String) : credentialsDir suffix ≠ [] := by
  cases suffix <;> simp [credentialsDir, suffixedName]

theorem keychainServiceFor_inj :
    keychainServiceFor sha256 left = keychainServiceFor sha256 right ↔
      targetSuffix sha256 left = targetSuffix sha256 right := by
  rw [← String.toList_inj, keychainServiceFor_eq, keychainServiceFor_eq]
  exact suffixedName_inj (by decide)

theorem agentLockPath_inj :
    agentLockPath sha256 (some d) left = agentLockPath sha256 (some d) right ↔
      targetSuffix sha256 left = targetSuffix sha256 right := by
  rw [agentLockPath_eq, agentLockPath_eq, Option.some_inj,
    pathJoin_inj_right (lockName_plain left) (lockName_plain right)]
  exact suffixedName_inj (by decide)

theorem credentialFileIn_inj {account other : Account} :
    credentialFileIn sha256 (some d) left account =
        credentialFileIn sha256 (some d) right other ↔
      targetSuffix sha256 left = targetSuffix sha256 right ∧ account = other := by
  constructor
  · intro same
    have found : credentialFileIn sha256 (some d) left account = some _ :=
      credentialFileIn_eq left account
    have otherFound : credentialFileIn sha256 (some d) right other = some _ :=
      credentialFileIn_eq right other
    have named := fileName_credentialFileIn found
    rw [found, otherFound, Option.some_inj] at same
    rw [same] at named
    obtain rfl := account_of_path named (fileName_credentialFileIn otherFound)
    refine ⟨?_, rfl⟩
    have slash : '/' ∉ account.name := account.name_plain.1
    have open_ : ∀ apiBaseUrl : String,
        pathJoin (pathJoin d "com.klaay.app".toList)
            (credentialsDir (targetSuffix sha256 apiBaseUrl)) ≠ [] ∧
          (pathJoin (pathJoin d "com.klaay.app".toList)
            (credentialsDir (targetSuffix sha256 apiBaseUrl))).getLast? ≠ some '/' := by
      intro apiBaseUrl
      have plain : '/' ∉ credentialsDir (targetSuffix sha256 apiBaseUrl) :=
        credentialsDir_plain apiBaseUrl
      have joined := getLast?_pathJoin (pathJoin d "com.klaay.app".toList) plain
        (credentialsDir_ne_nil (targetSuffix sha256 apiBaseUrl))
      refine ⟨joined.1, fun ends => ?_⟩
      rw [joined.2] at ends
      exact plain (List.mem_of_getLast? ends)
    rw [pathJoin_inj_left slash (open_ left).1 (open_ left).2 (open_ right).1 (open_ right).2,
      pathJoin_inj_right (credentialsDir_plain left) (credentialsDir_plain right)] at same
    exact (suffixedName_inj (by decide)).mp same
  · rintro ⟨same, rfl⟩
    rw [credentialFileIn_eq, credentialFileIn_eq, same]

theorem isProductionTarget_iff :
    isProductionTarget sha256 left = true ↔ targetSuffix sha256 left = none := by
  rw [isProductionTarget, Option.isNone_iff_eq_none]

theorem RunningAgent.keepsTarget_of_slashes {agent : RunningAgent} {count : Nat}
    (compiled : agent.viteApiBase = some (String.ofList
      (agent.compiledApiBaseUrl.toList ++ List.replicate count '/'))) :
    agent.KeepsTarget sha256 := by
  unfold RunningAgent.KeepsTarget RunningAgent.getApiBaseUrl
  rw [compiled, Option.some_or, Option.getD_some]
  exact targetSuffix_slashes _ _ fun c member => List.eq_of_mem_replicate member

/-- Agents whose variable keeps to the compiled target contend for one lock exactly when they
share the credentials.  An agent whose variable leaves it takes the lock of its build all the
same, and other credentials.  The plugin is taken by the agents of one credential store. -/
theorem lock_shared_iff_credentials_shared (d : List Char) :
    (∀ left right : RunningAgent, left.KeepsTarget sha256 → right.KeepsTarget sha256 →
      (left.lockPath sha256 (some d) = right.lockPath sha256 (some d) ↔
        left.keychainService sha256 = right.keychainService sha256) ∧
      ∀ account other, left.credentialFile sha256 (some d) account =
          right.credentialFile sha256 (some d) other ↔
        left.lockPath sha256 (some d) = right.lockPath sha256 (some d) ∧ account = other) ∧
    (∀ agent : RunningAgent,
      agent.lockPath sha256 (some d) = agent.plain.lockPath sha256 (some d) ∧
      (agent.keychainService sha256 = agent.plain.keychainService sha256 ↔
        agent.KeepsTarget sha256)) ∧
    ∀ left right : RunningAgent, left.registersPlugin sha256 = true →
      (right.registersPlugin sha256 = true ↔
        left.keychainService sha256 = right.keychainService sha256) := by
  refine ⟨fun left right leftKeeps rightKeeps => ⟨?_, fun account other => ?_⟩,
    fun agent => ⟨rfl, keychainServiceFor_inj⟩, fun left right registers => ?_⟩
  · exact agentLockPath_inj.trans (by
      rw [RunningAgent.keychainService, RunningAgent.keychainService, keychainServiceFor_inj,
        leftKeeps, rightKeeps])
  · rw [RunningAgent.credentialFile, RunningAgent.credentialFile, credentialFileIn_inj,
      RunningAgent.lockPath, RunningAgent.lockPath, agentLockPath_inj, leftKeeps, rightKeeps]
  · have production := isProductionTarget_iff.mp registers
    rw [RunningAgent.registersPlugin, isProductionTarget_iff, RunningAgent.keychainService,
      RunningAgent.keychainService, keychainServiceFor_inj, production]
    exact eq_comm

private def localDigest : List UInt8 → { bytes : List UInt8 // bytes.length = 32 } :=
  fun _ => ⟨[147, 116, 180, 89, 139, 25, 32, 207, 187, 21, 87, 9, 188, 160, 135, 242, 34, 228, 71,
    11, 9, 80, 36, 170, 148, 219, 30, 205, 11, 57, 152, 160], rfl⟩

private def shippedAgent : RunningAgent :=
  { appDefault := none, viteApiBase := some "https://api.klaay.com/" }

private def localAgent : RunningAgent :=
  { appDefault := some "http://localhost:61521", viteApiBase := none }

private def redirectedAgent : RunningAgent :=
  { appDefault := none, viteApiBase := some "http://localhost:61521" }

theorem lock_shared_with_redirected_agent :
    shippedAgent.lockPath localDigest (some "/d".toList) ≠
        localAgent.lockPath localDigest (some "/d".toList) ∧
      redirectedAgent.lockPath localDigest (some "/d".toList) =
        redirectedAgent.plain.lockPath localDigest (some "/d".toList) ∧
      redirectedAgent.keychainService localDigest ≠
        redirectedAgent.plain.keychainService localDigest ∧
      localAgent.registersPlugin localDigest = false := by
  have shared := @lock_shared_iff_credentials_shared localDigest "/d".toList
  have installedKeeps : shippedAgent.KeepsTarget localDigest :=
    @RunningAgent.keepsTarget_of_slashes localDigest shippedAgent 1 rfl
  have localKeeps : localAgent.KeepsTarget localDigest := by decide +kernel
  have redirected : ¬ redirectedAgent.KeepsTarget localDigest := by decide +kernel
  have apart : shippedAgent.keychainService localDigest ≠
      localAgent.keychainService localDigest := by
    decide +kernel
  refine ⟨fun same => ?_, (shared.2.1 redirectedAgent).1, fun same => ?_, ?_⟩
  · exact apart ((shared.1 shippedAgent localAgent installedKeeps localKeeps).1.mp same)
  · exact redirected ((shared.2.1 redirectedAgent).2.mp same)
  · rw [← Bool.not_eq_true]
    intro registers
    exact apart ((shared.2.2 shippedAgent localAgent (by decide +kernel)).mp registers)

/-! ### One machine -/

/-- The memories of the builds that run, the keychain by service and account, and the text
that stands under each path. -/
structure Machine (β : Type) : Type where
  /-- Its two stores are not the build's: those are below. -/
  memory : β → World
  entries : String → Account → Option String
  files : List Char → Option String

section Machine

variable {β ι : Type}
variable (sha256 : List UInt8 → { bytes : List UInt8 // bytes.length = 32 })
variable (dataLocalDir : Option (List Char)) (apiBase : β → String)

def Machine.view (machine : Machine β) (build : β) : World :=
  { machine.memory build with
    keyring := machine.entries (keychainServiceFor sha256 (apiBase build))
    fallbackFile := fun account =>
      (credentialFileIn sha256 dataLocalDir (apiBase build) account).bind machine.files }

/-- An action of a build: it sees its own view, and changes nothing under other names. -/
structure ActsOnMachine (build : β) (machine : Machine β) (action : Effect) (reply : action.Reply)
    (after : Machine β) : Prop where
  acts : performs (machine.view sha256 dataLocalDir apiBase build) action reply
    (after.view sha256 dataLocalDir apiBase build)
  memory : ∀ other, other ≠ build → after.memory other = machine.memory other
  entries : ∀ service, service ≠ keychainServiceFor sha256 (apiBase build) →
    after.entries service = machine.entries service
  files : ∀ path, (∀ account,
    credentialFileIn sha256 dataLocalDir (apiBase build) account ≠ some path) →
      after.files path = machine.files path

def machineSemantics : Semantics (Machine β) (β × ι) Effect Effect.Reply :=
  fun thread machine action reply after =>
    ActsOnMachine sha256 dataLocalDir apiBase thread.1 machine action reply after

variable {sha256 dataLocalDir apiBase} {build other : β} {machine after : Machine β}

theorem ActsOnMachine.view_of_other {action : Effect} {reply : action.Reply}
    (acted : ActsOnMachine sha256 dataLocalDir apiBase build machine action reply after)
    (differ : other ≠ build)
    (apart : targetSuffix sha256 (apiBase build) ≠ targetSuffix sha256 (apiBase other)) :
    after.view sha256 dataLocalDir apiBase other =
      machine.view sha256 dataLocalDir apiBase other := by
  have entries : keychainServiceFor sha256 (apiBase other) ≠
      keychainServiceFor sha256 (apiBase build) := by
    intro same
    exact apart (keychainServiceFor_inj.mp same).symm
  have files : (fun account =>
      (credentialFileIn sha256 dataLocalDir (apiBase other) account).bind after.files) =
        fun account =>
          (credentialFileIn sha256 dataLocalDir (apiBase other) account).bind machine.files := by
    funext account
    cases dataLocalDir with
    | none => rfl
    | some d =>
        have found : credentialFileIn sha256 (some d) (apiBase other) account = some _ :=
          credentialFileIn_eq (apiBase other) account
        rw [found, Option.bind_some, Option.bind_some]
        refine acted.files _ fun mine same => ?_
        rw [← found] at same
        exact apart (credentialFileIn_inj.mp same).1
  unfold Machine.view
  rw [acted.memory other differ, acted.entries _ entries, files]

theorem view_stores_of_same_target
    (same : targetSuffix sha256 (apiBase build) = targetSuffix sha256 (apiBase other)) :
    (machine.view sha256 dataLocalDir apiBase build).keyring =
        (machine.view sha256 dataLocalDir apiBase other).keyring ∧
      (machine.view sha256 dataLocalDir apiBase build).fallbackFile =
        (machine.view sha256 dataLocalDir apiBase other).fallbackFile := by
  refine ⟨congrArg machine.entries (keychainServiceFor_inj.mpr same), ?_⟩
  funext account
  cases dataLocalDir with
  | none => rfl
  | some d => exact congrArg (·.bind machine.files) (credentialFileIn_inj.mpr ⟨same, rfl⟩)

variable [DecidableEq β] [DecidableEq ι] {α : Type}

/-- Whatever the threads of several builds do beside each other, a build whose suffix no other
has runs as on a machine of its own; builds with one suffix share both stores. -/
theorem builds_stand_apart {start config : Config (Machine β) (β × ι) Effect Effect.Reply α}
    (reached : Reaches (machineSemantics sha256 dataLocalDir apiBase) AnyStep start config)
    (build : β) :
    ((∀ other, other ≠ build →
        targetSuffix sha256 (apiBase other) ≠ targetSuffix sha256 (apiBase build)) →
      Reaches (agentSemantics ι) AnyStep
        (start.project (·.view sha256 dataLocalDir apiBase build) (build, ·))
        (config.project (·.view sha256 dataLocalDir apiBase build) (build, ·))) ∧
    ∀ other, targetSuffix sha256 (apiBase build) = targetSuffix sha256 (apiBase other) →
      (config.shared.view sha256 dataLocalDir apiBase build).keyring =
          (config.shared.view sha256 dataLocalDir apiBase other).keyring ∧
        (config.shared.view sha256 dataLocalDir apiBase build).fallbackFile =
          (config.shared.view sha256 dataLocalDir apiBase other).fallbackFile := by
  refine ⟨fun apart => ?_, fun other same => view_stores_of_same_target same⟩
  refine reached.project (fun _ _ same => (Prod.mk.inj same).2) ?_ ?_ fun _ _ _ met => met
  · intro thread machine action reply after acted
    exact acted.acts
  · intro thread machine action reply after outside acted
    have differ : thread.1 ≠ build := by
      rintro rfl
      exact outside thread.2 rfl
    exact acted.view_of_other differ.symm (apart thread.1 differ)

end Machine

/-! A developer's build saves a token beside the installed agent. -/

private def twoBases : Bool → String
  | true => "https://api.klaay.com/"
  | false => "http://localhost:61521"

private theorem twoBases_apart :
    targetSuffix localDigest (twoBases false) ≠ targetSuffix localDigest (twoBases true) := by
  decide +kernel

private def quietMachine : Machine Bool :=
  { memory := fun _ => .firstStart, entries := fun _ _ => none, files := fun _ => none }

private def localService : String := keychainServiceFor localDigest (twoBases false)

private def savedMachine : Machine Bool :=
  { quietMachine with
    entries := Function.update quietMachine.entries localService
      (Function.update (fun _ => none) .authToken (some "dev")) }

private def twoPrograms : Bool × Unit → Program (Except String CredentialStore)
  | (true, _) => pure (.ok .keyring)
  | (false, _) => saveToken "dev"

private theorem dev_saves :
    ∃ config, Reaches (machineSemantics localDigest none twoBases) AnyStep
      (Config.fresh quietMachine twoPrograms) config ∧ config.shared = savedMachine := by
  have started : Reaches (machineSemantics localDigest none twoBases) AnyStep
      (Config.fresh quietMachine twoPrograms) _ := Reaches.refl _
  have looks : machineSemantics localDigest none twoBases (false, ()) quietMachine
      (.openEntry .authToken) (.ok ()) quietMachine :=
    ⟨rfl, fun _ _ => rfl, fun _ _ => rfl, fun _ _ => rfl⟩
  have writes : machineSemantics localDigest none twoBases (false, ()) quietMachine
      (.setPassword .authToken "dev") (.ok ()) savedMachine :=
    ⟨by simp [performs, Machine.view, World.setKeyring, savedMachine, quietMachine, localService],
      fun _ _ => rfl, fun service other => Function.update_of_ne other _ _, fun _ _ => rfl⟩
  have opened := started.perform (false, ()) ⟨.openEntry .authToken, .ok ()⟩ rfl looks trivial
  have written := opened.perform (false, ()) ⟨.setPassword .authToken "dev", .ok ()⟩ rfl writes
    trivial
  exact ⟨_, written, rfl⟩

theorem installed_build_stands_apart :
    ∃ config : Config (Machine Bool) (Bool × Unit) Effect Effect.Reply
        (Except String CredentialStore),
      config.shared = savedMachine ∧
      Reaches (agentSemantics Unit) AnyStep
        ((Config.fresh quietMachine twoPrograms).project
          (·.view localDigest none twoBases true) (true, ·))
        (config.project (·.view localDigest none twoBases true) (true, ·)) := by
  obtain ⟨config, reached, saved⟩ := dev_saves
  refine ⟨config, saved, (builds_stand_apart reached true).1 ?_⟩
  intro other differ
  cases other with
  | true => exact absurd rfl differ
  | false => exact twoBases_apart

end KlaayGuard
