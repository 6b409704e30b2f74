/-
When the package's restart of the agents may report success.

A killed agent is answered for by a pid that the script saw run the binary and found to
belong to that agent's user, and no pid answers twice or was itself killed.  It may be
a pid of the list the script began with: an agent that was skipped is not claimed.
-/

import KlaayGuard.Postinst
import KlaayGuard.Library.Timeline
import Mathlib.Data.List.Forall2
import Mathlib.Data.Set.Function

set_option autoImplicit false

namespace KlaayGuard

open EffectProgram Prog ShellText

theorem IsPid.isWord {name : List Char} (isPid : IsPid name) : IsWord name where
  nonempty := isPid.1
  whole := by
    intro c member
    have digit := isPid.2 c member
    simp only [isSeparator, Bool.or_eq_false_iff, beq_eq_false_iff_ne]
    refine ⟨⟨?_, ?_⟩, ?_⟩ <;> rintro rfl <;> revert digit <;> decide
  literal := by
    intro c member
    have digit := isPid.2 c member
    simp only [isPatternChar, Bool.or_eq_false_iff, beq_eq_false_iff_ne]
    refine ⟨⟨?_, ?_⟩, ?_⟩ <;> rintro rfl <;> revert digit <;> decide

theorem IsPid.colon_not_mem {name : List Char} (isPid : IsPid name) : ':' ∉ name := by
  intro member
  have digit := isPid.2 _ member
  revert digit
  decide

theorem expandFields_words {words : List (List Char)} (areWords : ∀ word ∈ words, IsWord word) :
    expandFields words = .done words := by
  induction words with
  | nil => rfl
  | cons word words ih =>
      have later := ih fun other member => areWords other (List.mem_cons_of_mem _ member)
      have literal : ¬ word.any isPatternChar = true := by
        rw [List.any_eq_true]
        rintro ⟨c, member, pattern⟩
        rw [(areWords word List.mem_cons_self).literal c member] at pattern
        cases pattern
      simp only [expandFields, if_neg literal, done_bind, later, List.singleton_append]

theorem eq_some_of_getD {text : Option (List Char)} {value : List Char}
    (same : text.getD [] = value) (nonempty : value ≠ []) : text = some value := by
  cases text with
  | none => exact absurd same.symm nonempty
  | some text => exact congrArg some same

section Calls

variable {possible : Nat → (action : PostinstAction) → action.Reply → Prop}
variable {bin : List Char} {clock clock' : Nat} {part : List PostinstEvent}

/-- At that tick the script reads that the process runs the binary, and one tick before
that its root is the script's own. -/
def SeesAgent (possible : Nat → (action : PostinstAction) → action.Reply → Prop)
    (bin : List Char) (listed : Nat) (pid : List Char) : Prop :=
  ∃ rooted link, listed = rooted + 1 ∧ possible rooted (.readlink pid .root) (some ['/']) ∧
    possible listed (.readlink pid .exe) (some link) ∧ namesBinary bin link = true

theorem listAgents_runs {procs agents : List (List Char)}
    (run : Runs (Timed possible) (listAgents bin procs) clock part clock' agents) :
    agents.Sublist procs ∧
      ∀ pid ∈ agents, ∃ listed, clock ≤ listed ∧ listed < clock' ∧
        SeesAgent possible bin listed pid := by
  induction procs generalizing clock part agents with
  | nil =>
      obtain ⟨-, -, rfl⟩ := runs_done.mp run
      exact ⟨.slnil, fun _ member => absurd member List.not_mem_nil⟩
  | cons pid rest ih =>
      rw [listAgents] at run
      obtain ⟨root, _, rooted, -, run⟩ := runs_perform.mp run
      have skipped {later : Nat} {inner : List PostinstEvent} {others : List (List Char)}
          (after : clock ≤ later)
          (run : Runs (Timed possible) (listAgents bin rest) later inner clock' others) :
          others.Sublist (pid :: rest) ∧ ∀ pid ∈ others, ∃ listed, clock ≤ listed ∧
            listed < clock' ∧ SeesAgent possible bin listed pid := by
        obtain ⟨sublist, seen⟩ := ih run
        refine ⟨sublist.cons _, fun other member => ?_⟩
        obtain ⟨listed, late, early, sees⟩ := seen other member
        exact ⟨listed, after.trans late, early, sees⟩
      split at run
      · exact skipped (Nat.le_succ _) run
      · rename_i isRoot
        obtain rfl := eq_some_of_getD (Decidable.not_not.mp isRoot) (List.cons_ne_nil _ _)
        obtain ⟨exe, _, linked, -, run⟩ := runs_perform.mp run
        split at run
        · rename_i named
          obtain ⟨_, others, _, _, inner, last, -⟩ := runs_bind.mp run
          obtain ⟨-, rfl, rfl⟩ := runs_done.mp last
          obtain ⟨sublist, seen⟩ := ih inner
          have ticks := inner.clock_le
          refine ⟨sublist.cons_cons _, fun other member => ?_⟩
          rcases List.mem_cons.mp member with rfl | member
          · obtain ⟨link, rfl, named⟩ := (Option.any_eq_true _ _).mp named
            exact ⟨clock + 1, by omega, by omega, clock, link, rfl, rooted, linked, named⟩
          · obtain ⟨listed, late, early, sees⟩ := seen other member
            exact ⟨listed, by omega, early, sees⟩
        · exact skipped (by omega) run

/-- The names under `/proc` are pids, and each is there once. -/
def ListsPids (possible : Nat → (action : PostinstAction) → action.Reply → Prop) : Prop :=
  ∀ time (names : List (List Char)), possible time .listProc names →
    names.Nodup ∧ ∀ name ∈ names, IsPid name

theorem listsPids_of_answers {evolution : Nat → UnixMachine}
    (sound : ∀ time action reply, possible time action reply →
      answers (evolution time) action reply) : ListsPids possible := by
  intro time names happened
  have there : List.Perm names ((evolution time).processes.map Prod.fst) := sound _ _ _ happened
  refine ⟨there.nodup_iff.mpr (evolution time).distinct, fun name member => ?_⟩
  obtain ⟨entry, inTable, rfl⟩ := List.mem_map.mp (there.mem_iff.mp member)
  exact (evolution time).pids entry inTable

theorem agentPids_runs {output : List Char}
    (run : Runs (Timed possible) (agentPids bin) clock part clock' output) :
    ∃ names agents, possible clock .listProc names ∧ output = outputLines agents ∧
      agents.Sublist names ∧ clock < clock' ∧
      ∀ pid ∈ agents, ∃ listed, clock < listed ∧ listed < clock' ∧
        SeesAgent possible bin listed pid := by
  rw [agentPids] at run
  obtain ⟨names, _, there, -, run⟩ := runs_perform.mp run
  obtain ⟨_, agents, _, _, inner, last, -⟩ := runs_bind.mp run
  obtain ⟨-, rfl, rfl⟩ := runs_done.mp last
  obtain ⟨sublist, seen⟩ := listAgents_runs inner
  exact ⟨names, agents, there, rfl, sublist, inner.clock_le, seen⟩

theorem firstNewAgent_runs {user oldPid claimed new : List Char} {pids : List (List Char)}
    (nonempty : user ≠ [])
    (run : Runs (Timed possible) (firstNewAgent user oldPid claimed pids) clock part clock'
      (some new)) :
    new ∈ pids ∧ listed new claimed = false ∧
      ∃ checked, clock ≤ checked ∧ checked < clock' ∧
        possible checked (.statOwner new) (some user) := by
  induction pids generalizing clock part with
  | nil =>
      obtain ⟨-, -, found⟩ := runs_done.mp run
      cases found
  | cons pid rest ih =>
      rw [firstNewAgent] at run
      split at run
      · obtain ⟨member, fresh, checked⟩ := ih run
        exact ⟨List.mem_cons_of_mem _ member, fresh, checked⟩
      · rename_i considered
        obtain ⟨owner, _, asked, -, run⟩ := runs_perform.mp run
        split at run
        · rename_i same
          obtain ⟨-, rfl, found⟩ := runs_done.mp run
          obtain rfl := Option.some.inj found
          obtain rfl := eq_some_of_getD same nonempty
          rw [Bool.or_eq_true, not_or, Bool.not_eq_true, Bool.not_eq_true] at considered
          exact ⟨List.mem_cons_self, considered.2, clock, Nat.le_refl _, Nat.lt_succ_self _, asked⟩
        · obtain ⟨member, fresh, checked, late, early, owned⟩ := ih run
          exact ⟨List.mem_cons_of_mem _ member, fresh, checked, by omega, early, owned⟩

/-- Under a poll of the process table from that tick on, the script sees the process run
the binary and then reads that the user owns it. -/
def PassesFrom (possible : Nat → (action : PostinstAction) → action.Reply → Prop)
    (bin : List Char) (clock : Nat) (user new : List Char) : Prop :=
  ∃ poll listed checked names, clock ≤ poll ∧ poll < listed ∧ listed < checked ∧
    possible poll .listProc names ∧ SeesAgent possible bin listed new ∧
    possible checked (.statOwner new) (some user)

theorem PassesFrom.mono {early late : Nat} {user new : List Char}
    (passes : PassesFrom possible bin late user new) (before : early ≤ late) :
    PassesFrom possible bin early user new := by
  obtain ⟨poll, listed, checked, names, begun, rest⟩ := passes
  exact ⟨poll, listed, checked, names, before.trans begun, rest⟩

theorem waitForNewAgent_runs {user oldPid claimed new : List Char} {polls : Nat}
    (lists : ListsPids possible) (nonempty : user ≠ [])
    (run : Runs (Timed possible) (waitForNewAgent bin user oldPid claimed polls) clock part clock'
      (some new)) :
    listed new claimed = false ∧ PassesFrom possible bin clock user new := by
  induction polls generalizing clock part with
  | zero =>
      obtain ⟨-, -, found⟩ := runs_done.mp run
      cases found
  | succ polls ih =>
      rw [waitForNewAgent] at run
      obtain ⟨polled, output, _, _, poll, run, -⟩ := runs_bind.mp run
      obtain ⟨names, agents, there, rfl, sublist, ticks, seen⟩ := agentPids_runs poll
      have areWords : ∀ pid ∈ agents, IsWord pid := fun pid member =>
        ((lists _ _ there).2 pid (sublist.subset member)).isWord
      rw [expansion, fields_outputLines areWords, expandFields_words areWords, done_bind] at run
      obtain ⟨ended, found, _, _, check, run, -⟩ := runs_bind.mp run
      cases found with
      | none =>
          obtain ⟨_, _, -, -, run⟩ := runs_perform.mp run
          obtain ⟨fresh, passes⟩ := ih run
          have ticks' := check.clock_le
          exact ⟨fresh, passes.mono (by omega)⟩
      | some newPid =>
          obtain ⟨-, rfl, found⟩ := runs_done.mp run
          obtain rfl := Option.some.inj found
          obtain ⟨member, fresh, checked, late, early, owned⟩ := firstNewAgent_runs nonempty check
          obtain ⟨listed, after, before, sees⟩ := seen _ member
          exact ⟨fresh, clock, listed, checked, names, Nat.le_refl _, after, by omega, there, sees,
            owned⟩

/-! ### What the loops do -/

theorem awaitEach_runs {entries : List (List Char)} {missing : Bool} {claimed : List Char}
    {checked : Bool × List Char} (lists : ListsPids possible)
    (users : ∀ entry ∈ entries, beforeFirst ':' entry ≠ [])
    (run : Runs (Timed possible) (awaitEach bin entries missing claimed) clock part clock' checked)
    (success : checked.1 = false) :
    missing = false ∧ ∃ news : List (List Char),
      List.Forall₂ (fun entry new => PassesFrom possible bin clock (beforeFirst ':' entry) new)
        entries news ∧
      news.Nodup ∧ ∀ new ∈ news, listed new claimed = false := by
  induction entries generalizing clock part missing claimed with
  | nil =>
      obtain ⟨-, -, rfl⟩ := runs_done.mp run
      exact ⟨success, [], .nil, .nil, fun _ member => absurd member List.not_mem_nil⟩
  | cons entry rest ih =>
      rw [awaitEach] at run
      obtain ⟨waited, found, _, _, wait, run, -⟩ := runs_bind.mp run
      have later := fun other member => users other (List.mem_cons_of_mem _ member)
      have ticks := wait.clock_le
      cases found with
      | none =>
          obtain ⟨_, _, -, -, run⟩ := runs_perform.mp run
          cases (ih later run).1
      | some new =>
          obtain ⟨fresh, passes⟩ := waitForNewAgent_runs lists (users entry List.mem_cons_self) wait
          obtain ⟨none, news, each, distinct, unclaimed⟩ := ih later run
          refine ⟨none, new :: news, .cons passes ?_, List.nodup_cons.mpr ⟨?_, distinct⟩, ?_⟩
          · exact each.imp fun _ _ passes => passes.mono ticks
          · intro again
            have found := unclaimed new again
            rw [listed_here] at found
            cases found
          · intro other member
            rcases List.mem_cons.mp member with rfl | member
            · exact fresh
            · rw [← Bool.not_eq_true]
              intro found
              have known := unclaimed other member
              rw [listed_more found] at known
              cases known

/-- What `$restarted` says of one restart: the user and the pid. -/
def restartEntry (restart : List Char × List Char) : List Char := restart.1 ++ ':' :: restart.2

/-- The script reads the owner of the process, and kills it after that. -/
def KillsAs (possible : Nat → (action : PostinstAction) → action.Reply → Prop)
    (user old : List Char) : Prop :=
  ∃ asked killed status, asked < killed ∧ possible asked (.statOwner old) (some user) ∧
    possible killed (.kill .term old) status

def Spares (action : PostinstAction) : Prop := ∀ pid, action ≠ .kill .term pid

theorem procEnv_spares (pid name : List Char) : (procEnv pid name).Only Spares :=
  ⟨nofun, fun _ => trivial⟩

theorem sessionSettings_spares (pid : List Char) (vars : List (List Char)) :
    (sessionSettings pid vars).Only Spares := by
  induction vars with
  | nil => trivial
  | cons var rest ih =>
      exact (procEnv_spares pid var).bind fun _ => ih.bind fun _ => trivial

theorem agentHome_spares (pid user : List Char) : (agentHome pid user).Only Spares := by
  refine (procEnv_spares pid _).bind fun home => ?_
  split
  · trivial
  · exact ⟨nofun, fun _ => trivial⟩

theorem awaitForced_spares (pid : List Char) (sleeps : Nat) :
    (awaitForced pid sleeps).Only Spares := by
  induction sleeps with
  | zero => exact ⟨nofun, fun _ => trivial⟩
  | succ sleeps ih =>
      refine ⟨nofun, fun (alive : Bool) => ?_⟩
      cases alive with
      | false => trivial
      | true => exact ⟨nofun, fun _ => ih⟩

theorem forceAgent_spares (pid : List Char) : (forceAgent pid).Only Spares := by
  refine ⟨nofun, fun _ => ⟨nofun, fun _ => (awaitForced_spares pid 20).bind fun _ => ?_⟩⟩
  refine ⟨nofun, fun (alive : Bool) => ?_⟩
  cases alive with
  | false => trivial
  | true => exact ⟨nofun, fun _ => trivial⟩

theorem awaitExit_spares (pid : List Char) (sleeps : Nat) :
    (awaitExit pid sleeps).Only Spares := by
  induction sleeps with
  | zero =>
      refine ⟨nofun, fun (alive : Bool) => ?_⟩
      cases alive with
      | false => trivial
      | true => exact forceAgent_spares pid
  | succ sleeps ih =>
      refine ⟨nofun, fun (alive : Bool) => ?_⟩
      cases alive with
      | false => trivial
      | true => exact ⟨nofun, fun _ => ih⟩

theorem startAgent_spares (user home pid : List Char) (settings : List (List Char)) :
    (startAgent bin user home pid settings).Only Spares := by
  refine ⟨nofun, fun _ => ⟨nofun, fun (present : Bool) => ?_⟩⟩
  cases present with
  | false => exact ⟨nofun, fun _ => trivial⟩
  | true =>
      refine ⟨nofun, fun (booted : Bool) => ?_⟩
      cases booted with
      | false => exact ⟨nofun, fun _ => trivial⟩
      | true => exact ⟨nofun, fun _ => ⟨nofun, fun _ => trivial⟩⟩

def Reads : PostinstAction → Prop
  | .listProc | .readlink _ _ => True
  | _ => False

theorem listAgents_reads (procs : List (List Char)) : (listAgents bin procs).Only Reads := by
  induction procs with
  | nil => trivial
  | cons pid rest ih =>
      refine ⟨trivial, fun (root : Option (List Char)) => ?_⟩
      dsimp only [Prog.bind]
      split
      · exact ih
      · refine ⟨trivial, fun (exe : Option (List Char)) => ?_⟩
        dsimp only [Prog.bind]
        split
        · exact ih.bind fun _ => trivial
        · exact ih

theorem agentPids_reads : (agentPids bin).Only Reads :=
  ⟨trivial, fun _ => (listAgents_reads _).bind fun _ => trivial⟩

theorem agentPids_spares : (agentPids bin).Only Spares :=
  agentPids_reads.mono fun _ reads _ same => by rw [same] at reads; exact reads

theorem expandFields_spares (words : List (List Char)) : (expandFields words).Only Spares := by
  induction words with
  | nil => trivial
  | cons word rest ih =>
      rw [expandFields]
      split
      · exact ⟨nofun, fun _ => ih.bind fun _ => trivial⟩
      · exact ih.bind fun _ => trivial

theorem firstNewAgent_spares (user oldPid claimed : List Char) (pids : List (List Char)) :
    (firstNewAgent user oldPid claimed pids).Only Spares := by
  induction pids with
  | nil => trivial
  | cons pid rest ih =>
      rw [firstNewAgent]
      split
      · exact ih
      · refine ⟨nofun, fun (owner : Option (List Char)) => ?_⟩
        dsimp only [Prog.bind]
        split
        · trivial
        · exact ih

theorem waitForNewAgent_spares (user oldPid claimed : List Char) (polls : Nat) :
    (waitForNewAgent bin user oldPid claimed polls).Only Spares := by
  induction polls with
  | zero => trivial
  | succ polls ih =>
      refine agentPids_spares.bind fun _ => (expandFields_spares _).bind fun _ => ?_
      refine (firstNewAgent_spares _ _ _ _).bind fun found => ?_
      split
      · trivial
      · exact ⟨nofun, fun _ => ih⟩

theorem awaitEach_spares (entries : List (List Char)) (missing : Bool) (claimed : List Char) :
    (awaitEach bin entries missing claimed).Only Spares := by
  induction entries generalizing missing claimed with
  | nil => trivial
  | cons entry rest ih =>
      refine (waitForNewAgent_spares _ _ _ _).bind fun found => ?_
      cases found with
      | none => exact ⟨nofun, fun _ => ih _ _⟩
      | some new => exact ih _ _

/-- What the first loop leaves behind: the killed agents, each with its user, are what it
added to `$restarted`, and it killed no others. -/
structure Restarts (possible : Nat → (action : PostinstAction) → action.Reply → Prop)
    (pids : List (List Char)) (part : List PostinstEvent) (restarted restarted' : List Char)
    (killed : List (List Char × List Char)) : Prop where
  text : restarted' = restarted ++ spaced (killed.map restartEntry)
  sublist : (killed.map Prod.snd).Sublist pids
  kills : ∀ restart ∈ killed, KillsAs possible restart.1 restart.2
  all : ∀ event ∈ part, ∀ pid, event.action = .kill .term pid → pid ∈ killed.map Prod.snd

theorem Restarts.skip {pids : List (List Char)} {restarted restarted' : List Char}
    {killed : List (List Char × List Char)}
    (restarts : Restarts possible pids part restarted restarted' killed)
    {front : List PostinstEvent} (spares : ∀ event ∈ front, Spares event.action)
    (pid : List Char) :
    Restarts possible (pid :: pids) (front ++ part) restarted restarted' killed where
  text := restarts.text
  sublist := restarts.sublist.cons _
  kills := restarts.kills
  all := by
    intro event member other terminates
    rcases List.mem_append.mp member with member | member
    · exact absurd terminates (spares event member other)
    · exact restarts.all event member other terminates

theorem restartAgent_runs {pid user home : List Char}
    (run : Runs (Timed possible) (restartAgent bin pid user home) clock part clock' ()) :
    (∃ killed status, clock ≤ killed ∧ possible killed (.kill .term pid) status) ∧
      ∀ event ∈ part, ∀ other, event.action = .kill .term other → other = pid := by
  rw [restartAgent] at run
  obtain ⟨ready, settings, _, _, settingsRun, killing, rfl⟩ := runs_bind.mp run
  obtain ⟨status, _, killed, rfl, afterKill⟩ := runs_perform.mp killing
  obtain ⟨_, _, _, _, exitRun, startRun, rfl⟩ := runs_bind.mp afterKill
  have settingsSpares := settingsRun.only (sessionSettings_spares pid sessionVars)
  have exitSpares := exitRun.only (awaitExit_spares pid 50)
  have startSpares := startRun.only (startAgent_spares user home pid settings)
  refine ⟨⟨ready, status, settingsRun.clock_le, killed⟩, fun event member other terminates => ?_⟩
  simp only [List.mem_cons, List.mem_append] at member
  rcases member with inSettings | rfl | inExit | inStart
  · exact absurd terminates (settingsSpares event inSettings other)
  · injection terminates with _ same
    exact same.symm
  · exact absurd terminates (exitSpares event inExit other)
  · exact absurd terminates (startSpares event inStart other)

theorem restartEach_runs {pids : List (List Char)} {restarted restarted' : List Char}
    (run : Runs (Timed possible) (restartEach bin pids restarted) clock part clock' restarted') :
    ∃ killed, Restarts possible pids part restarted restarted' killed := by
  induction pids generalizing clock part restarted with
  | nil =>
      obtain ⟨rfl, -, rfl⟩ := runs_done.mp run
      exact ⟨[], (List.append_nil _).symm, .slnil,
        fun _ member => absurd member List.not_mem_nil,
        fun _ member => absurd member List.not_mem_nil⟩
  | cons pid rest ih =>
      rw [restartEach] at run
      obtain ⟨owner, _, asked, rfl, afterOwner⟩ := runs_perform.mp run
      have asking : Spares (.statOwner pid) := nofun
      dsimp only at afterOwner
      split at afterOwner
      · obtain ⟨killed, restarts⟩ := ih afterOwner
        exact ⟨killed, restarts.skip (List.forall_mem_singleton.mpr asking) pid⟩
      · rename_i nonempty
        obtain ⟨_, home, _, _, homeRun, afterHome, rfl⟩ := runs_bind.mp afterOwner
        have homeSpares := homeRun.only (agentHome_spares pid _)
        split at afterHome
        · obtain ⟨killed, restarts⟩ := ih afterHome
          exact ⟨killed, restarts.skip (List.forall_mem_cons.mpr ⟨asking, homeSpares⟩) pid⟩
        · obtain ⟨_, _, _, _, agentRun, afterAgent, rfl⟩ := runs_bind.mp afterHome
          obtain ⟨⟨killed, status, late, sent⟩, only⟩ := restartAgent_runs agentRun
          obtain ⟨others, restarts⟩ := ih afterAgent
          have owned := eq_some_of_getD (rfl : owner.getD [] = owner.getD []) nonempty
          have ticks := homeRun.clock_le
          have kills : KillsAs possible (owner.getD []) pid :=
            ⟨clock, killed, status, by omega, owned ▸ asked, sent⟩
          refine ⟨(owner.getD [], pid) :: others, ?_, restarts.sublist.cons_cons _,
            List.forall_mem_cons.mpr ⟨kills, restarts.kills⟩, ?_⟩
          · rw [restarts.text, List.append_assoc]
            rfl
          · intro event member other terminates
            simp only [List.mem_cons, List.mem_append] at member
            rw [List.map_cons, List.mem_cons]
            rcases member with rfl | inHome | inAgent | later
            · exact absurd terminates (asking other)
            · exact absurd terminates (homeSpares event inHome other)
            · exact .inl (only event inAgent other terminates)
            · exact .inr (restarts.all event later other terminates)

theorem restartEntry_isWord {restart : List Char × List Char} (user : IsWord restart.1)
    (isPid : IsPid restart.2) : IsWord (restartEntry restart) where
  nonempty := List.append_ne_nil_of_left_ne_nil user.nonempty _
  whole := List.forall_mem_append.mpr
    ⟨user.whole, List.forall_mem_cons.mpr ⟨rfl, isPid.isWord.whole⟩⟩
  literal := List.forall_mem_append.mpr
    ⟨user.literal, List.forall_mem_cons.mpr ⟨rfl, isPid.isWord.literal⟩⟩

def Polls (possible : Nat → (action : PostinstAction) → action.Reply → Prop) (poll : Nat) : Prop :=
  ∃ (first : Nat) (names names' : List (List Char)), first < poll ∧
    possible first .listProc names ∧ possible poll .listProc names'

/-- In a poll the script sees the process run the binary and then reads that the user
owns it. -/
def PassesAs (possible : Nat → (action : PostinstAction) → action.Reply → Prop)
    (bin user new : List Char) (checked : Nat) : Prop :=
  ∃ poll listed, Polls possible poll ∧ poll < listed ∧ listed < checked ∧
    SeesAgent possible bin listed new ∧ possible checked (.statOwner new) (some user)

theorem PassesAs.owned {user new : List Char} {checked : Nat}
    (passes : PassesAs possible bin user new checked) :
    possible checked (.statOwner new) (some user) := by
  obtain ⟨_, _, _, _, _, _, owned⟩ := passes
  exact owned

theorem PassesFrom.passesAs {user new : List Char} {first : Nat} {names : List (List Char)}
    (passes : PassesFrom possible bin clock user new) (there : possible first .listProc names)
    (before : first < clock) : ∃ checked, PassesAs possible bin user new checked := by
  obtain ⟨poll, listed, checked, names', begun, after, late, again, sees, owned⟩ := passes
  exact ⟨checked, poll, listed, ⟨first, names, names', by omega, there, again⟩, after, late, sees,
    owned⟩

/-- What the whole function leaves behind: the killed agents, each with its user, and where
it returns 0 the pids that answer for them. -/
structure Outcome (possible : Nat → (action : PostinstAction) → action.Reply → Prop)
    (bin : List Char) (part : List PostinstEvent) (status : Nat)
    (killed : List (List Char × List Char)) : Prop where
  all : ∀ event ∈ part, ∀ pid, event.action = .kill .term pid → pid ∈ killed.map Prod.snd
  distinct : (killed.map Prod.snd).Nodup
  kills : ∀ restart ∈ killed, KillsAs possible restart.1 restart.2
  answered : status = 0 → (∀ restart ∈ killed, IsWord restart.1 ∧ ':' ∉ restart.1) →
    ∃ news : List (List Char),
      List.Forall₂ (fun restart new => ∃ checked, PassesAs possible bin restart.1 new checked)
        killed news ∧
      news.Nodup ∧ ∀ new ∈ news, new ∉ killed.map Prod.snd

theorem Outcome.of_spares {status : Nat} (spares : ∀ event ∈ part, Spares event.action) :
    Outcome possible bin part status [] where
  all := fun event member pid terminates => absurd terminates (spares event member pid)
  distinct := .nil
  kills := fun _ member => absurd member List.not_mem_nil
  answered := fun _ _ => ⟨[], .nil, .nil, fun _ member => absurd member List.not_mem_nil⟩

theorem awaitEach_answers {killed : List (List Char × List Char)} {checked : Bool × List Char}
    {first : Nat} {names : List (List Char)} (lists : ListsPids possible)
    (words : ∀ restart ∈ killed, IsWord restart.1 ∧ ':' ∉ restart.1)
    (pids : ∀ restart ∈ killed, IsPid restart.2) (there : possible first .listProc names)
    (before : first < clock)
    (run : Runs (Timed possible)
      (awaitEach bin (killed.map restartEntry) false
        (grown (afterLast ':') (killed.map restartEntry) [])) clock part clock' checked)
    (success : checked.1 = false) :
    ∃ news : List (List Char),
      List.Forall₂ (fun restart new => ∃ checked, PassesAs possible bin restart.1 new checked)
        killed news ∧
      news.Nodup ∧ ∀ new ∈ news, new ∉ killed.map Prod.snd := by
  have userOf : ∀ restart ∈ killed, beforeFirst ':' (restartEntry restart) = restart.1 :=
    fun restart member => beforeFirst_joined (words restart member).2 _
  have pidOf : ∀ restart ∈ killed, afterLast ':' (restartEntry restart) = restart.2 :=
    fun restart member => afterLast_joined (pids restart member).colon_not_mem _
  have users : ∀ entry ∈ killed.map restartEntry, beforeFirst ':' entry ≠ [] := by
    intro entry member
    obtain ⟨restart, inKilled, rfl⟩ := List.mem_map.mp member
    rw [userOf restart inKilled]
    exact (words restart inKilled).1.nonempty
  obtain ⟨-, news, passes, distinct, unclaimed⟩ := awaitEach_runs lists users run success
  refine ⟨news, ?_, distinct, fun new member again => ?_⟩
  · rw [List.forall₂_map_left_iff] at passes
    refine (List.forall₂_iff_zip.mpr ⟨passes.length_eq, fun pair => ?_⟩)
    have passed := (List.forall₂_iff_zip.mp passes).2 pair
    rw [userOf _ (List.of_mem_zip pair).1] at passed
    exact passed.passesAs there before
  · obtain ⟨restart, inKilled, rfl⟩ := List.mem_map.mp again
    have entered : restartEntry restart ∈ killed.map restartEntry := List.mem_map_of_mem inKilled
    have claimed := listed_grown (afterLast ':') entered []
    rw [pidOf restart inKilled, unclaimed _ member] at claimed
    cases claimed

theorem restartFound_runs {pids : List Char} {agents names : List (List Char)} {first : Nat}
    {outcome : Nat × RestartVars} (lists : ListsPids possible) (found : agents.Sublist names)
    (there : possible first .listProc names) (before : first < clock)
    (run : Runs (Timed possible) (restartFound bin pids agents) clock part clock' outcome) :
    ∃ killed, Outcome possible bin part outcome.1 killed := by
  obtain ⟨distinct, arePids⟩ := lists _ _ there
  rw [restartFound] at run
  obtain ⟨_, restarted, _, _, restarting, ended, rfl⟩ := runs_bind.mp run
  obtain ⟨killed, restarts⟩ := restartEach_runs restarting
  have sublist := restarts.sublist.trans found
  have endSpares := ended.only <| (expandFields_spares _).bind fun _ =>
    (expandFields_spares _).bind fun _ => (awaitEach_spares _ _ _).bind fun _ => trivial
  refine ⟨killed, ?_, sublist.nodup distinct, restarts.kills, fun success words => ?_⟩
  · intro event member pid terminates
    rcases List.mem_append.mp member with inRestarts | inEnd
    · exact restarts.all event inRestarts pid terminates
    · exact absurd terminates (endSpares event inEnd pid)
  · have killedPids : ∀ restart ∈ killed, IsPid restart.2 := fun restart member =>
      arePids _ (sublist.subset (List.mem_map_of_mem member))
    have entries : ∀ entry ∈ killed.map restartEntry, IsWord entry := by
      intro entry member
      obtain ⟨restart, inKilled, rfl⟩ := List.mem_map.mp member
      exact restartEntry_isWord (words restart inKilled).1 (killedPids restart inKilled)
    have expanded : expansion restarted = .done (killed.map restartEntry) := by
      rw [restarts.text, List.nil_append, expansion, fields_spaced entries,
        expandFields_words entries]
    rw [expanded, done_bind, done_bind] at ended
    obtain ⟨_, checked, _, _, awaiting, last, -⟩ := runs_bind.mp ended
    obtain ⟨-, -, rfl⟩ := runs_done.mp last
    have ticks := restarting.clock_le
    refine awaitEach_answers lists words killedPids there (by omega) awaiting ?_
    cases missing : checked.1 with
    | false => rfl
    | true =>
        rw [missing] at success
        cases success

theorem Outcome.after_spares {front : List PostinstEvent} {status : Nat}
    {killed : List (List Char × List Char)} (outcome : Outcome possible bin part status killed)
    (spares : ∀ event ∈ front, Spares event.action) :
    Outcome possible bin (front ++ part) status killed where
  all := by
    intro event member pid terminates
    rcases List.mem_append.mp member with member | member
    · exact absurd terminates (spares event member pid)
    · exact outcome.all event member pid terminates
  distinct := outcome.distinct
  kills := outcome.kills
  answered := outcome.answered

theorem restartRunningAgents_runs {outcome : Nat × RestartVars} (lists : ListsPids possible)
    (run : Runs (Timed possible) (restartRunningAgents bin) clock part clock' outcome) :
    ∃ killed, Outcome possible bin part outcome.1 killed := by
  rw [restartRunningAgents] at run
  obtain ⟨runuser, _, -, rfl, guarded⟩ := runs_perform.mp run
  have asking : Spares (.commandV "runuser".toList) := nofun
  have logging (line : List Char) : Spares (.log line) := nofun
  split at guarded
  · obtain ⟨_, _, -, rfl, logged⟩ := runs_perform.mp guarded
    obtain ⟨rfl, -, -⟩ := runs_done.mp logged
    exact ⟨[], .of_spares (List.forall_mem_cons.mpr ⟨asking, List.forall_mem_singleton.mpr
      (logging _)⟩)⟩
  · obtain ⟨_, output, seen, _, listing, found, rfl⟩ := runs_bind.mp guarded
    have spares : ∀ event ∈ (⟨_, runuser⟩ :: seen : List PostinstEvent), Spares event.action :=
      List.forall_mem_cons.mpr ⟨asking, listing.only agentPids_spares⟩
    obtain ⟨names, agents, there, rfl, sublist, ticks, -⟩ := agentPids_runs listing
    split at found
    · obtain ⟨line, _, -, rfl, logged⟩ := runs_perform.mp found
      obtain ⟨rfl, -, -⟩ := runs_done.mp logged
      have quiet : Outcome possible bin [⟨.log _, line⟩] outcome.1 [] :=
        .of_spares (List.forall_mem_singleton.mpr (logging _))
      exact ⟨[], quiet.after_spares spares⟩
    · have areWords : ∀ pid ∈ agents, IsWord pid := fun pid member =>
        ((lists _ _ there).2 pid (sublist.subset member)).isWord
      rw [expansion, fields_outputLines areWords, expandFields_words areWords, done_bind] at found
      obtain ⟨killed, answered⟩ := restartFound_runs lists sublist there ticks found
      exact ⟨killed, answered.after_spares spares⟩

end Calls

/-! ### Whole runs -/

structure RestartRun : Type where
  bin : List Char
  evolution : Nat → UnixMachine
  start : Nat
  events : List PostinstEvent
  finish : Nat
  status : Nat
  vars : RestartVars
  runs : Runs (Timed fun time => answers (evolution time)) (restartRunningAgents bin) start events
    finish (status, vars)

namespace RestartRun

variable (run : RestartRun)

def Happened (time : Nat) (action : PostinstAction) (reply : action.Reply) : Prop :=
  answers (run.evolution time) action reply ∧ At run.start run.events time ⟨action, reply⟩

def Killed (old : List Char) : Prop :=
  ∃ time status, run.Happened time (.kill .term old) status

def Initial (pid : List Char) : Prop := pid ∈ fields run.vars.pids

def KilledOf (user : List Char) (uid : Nat) (old : List Char) : Prop :=
  ∃ asked killed status, asked < killed ∧ run.Happened asked (.statOwner old) (some user) ∧
    (run.evolution asked).uid old = some uid ∧ run.Happened killed (.kill .term old) status

def Passes (user : List Char) (uid : Nat) (new : List Char) : Prop :=
  ∃ checked, PassesAs run.Happened run.bin user new checked ∧
    (run.evolution checked).uid new = some uid

/-- Every killed agent has a new one of its own, of the same user. -/
def Replaced : Prop :=
  ∃ replacement : List Char → List Char, Set.InjOn replacement {old | run.Killed old} ∧
    ∀ old, run.Killed old → ¬ run.Initial (replacement old) ∧
      ∃ user uid, run.KilledOf user uid old ∧ run.Passes user uid (replacement old)

/-- No check mistakes one process for another: the name of a killed agent's user is one
word without a colon and no other user's, and a process of the first list that passes for
an agent of that user was killed. -/
structure Unmistaken : Prop where
  words : ∀ user uid old, run.KilledOf user uid old → IsWord user ∧ ':' ∉ user
  names : ∀ user uid old, run.KilledOf user uid old →
    ∀ uid' new, run.Passes user uid' new → uid' = uid
  killed : ∀ user uid old, run.KilledOf user uid old →
    ∀ new, run.Passes user uid new → run.Initial new → run.Killed new

variable {run : RestartRun}

theorem listsPids (run : RestartRun) : ListsPids run.Happened :=
  listsPids_of_answers fun _ _ _ happened => happened.1

theorem Happened.uid {time : Nat} {pid user : List Char}
    (owned : run.Happened time (.statOwner pid) (some user)) :
    ∃ uid, (run.evolution time).uid pid = some uid := by
  obtain ⟨uid, there, -⟩ := Option.map_eq_some_iff.mp owned.1.symm
  exact ⟨uid, there⟩

theorem killedOf_of_killsAs {user old : List Char} (kills : KillsAs run.Happened user old) :
    ∃ uid, run.KilledOf user uid old := by
  obtain ⟨asked, killed, status, before, owned, sent⟩ := kills
  obtain ⟨uid, owner⟩ := Happened.uid owned
  exact ⟨uid, asked, killed, status, before, owned, owner, sent⟩

end RestartRun

theorem exists_assignment {α β γ : Type} [DecidableEq β] [Inhabited γ] {R : α → γ → Prop}
    (key : α → β) {items : List α} {others : List γ} (each : List.Forall₂ R items others)
    (keys : (items.map key).Nodup) (distinct : others.Nodup) :
    ∃ assigned : β → γ, Set.InjOn assigned {b | b ∈ items.map key} ∧
      ∀ item ∈ items, assigned (key item) ∈ others ∧ R item (assigned (key item)) := by
  induction each with
  | nil =>
      exact ⟨fun _ => default, fun _ member => absurd member List.not_mem_nil,
        fun _ member => absurd member List.not_mem_nil⟩
  | @cons item other items others related _ ih =>
      obtain ⟨fresh, keys⟩ := List.nodup_cons.mp keys
      obtain ⟨apart, distinct⟩ := List.nodup_cons.mp distinct
      obtain ⟨assigned, injective, assigns⟩ := ih keys distinct
      have here : Function.update assigned (key item) other (key item) = other :=
        Function.update_self _ _ _
      have there {b : β} (member : b ∈ items.map key) :
          Function.update assigned (key item) other b = assigned b :=
        Function.update_of_ne (fun same : b = key item => fresh (same ▸ member)) _ _
      have inOthers {b : β} (member : b ∈ items.map key) : assigned b ∈ others := by
        obtain ⟨a, inItems, rfl⟩ := List.mem_map.mp member
        exact (assigns a inItems).1
      refine ⟨Function.update assigned (key item) other, ?_, ?_⟩
      · intro left inLeft right inRight same
        rcases List.mem_cons.mp inLeft with rfl | inLeft <;>
          rcases List.mem_cons.mp inRight with rfl | inRight
        · rfl
        · rw [here, there inRight] at same
          exact absurd (same ▸ inOthers inRight) apart
        · rw [here, there inLeft] at same
          exact absurd (same ▸ inOthers inLeft) apart
        · rw [there inLeft, there inRight] at same
          exact injective inLeft inRight same
      · intro a member
        rcases List.mem_cons.mp member with rfl | member
        · rw [here]
          exact ⟨List.mem_cons_self, related⟩
        · rw [there (List.mem_map_of_mem member)]
          exact ⟨List.mem_cons_of_mem _ (assigns a member).1, (assigns a member).2⟩

/-- A run that returns 0 has replaced every agent it killed, where no check is mistaken. -/
theorem restart_replaces_agents (run : RestartRun) (success : run.status = 0)
    (unmistaken : run.Unmistaken) : run.Replaced := by
  have recorded := run.runs.recorded fun _ _ happened => happened
  obtain ⟨killed, outcome⟩ := restartRunningAgents_runs run.listsPids recorded
  have listed {old : List Char} (gone : run.Killed old) : old ∈ killed.map Prod.snd := by
    obtain ⟨time, status, _, happened⟩ := gone
    exact outcome.all _ happened.mem old rfl
  have killedOf {restart : List Char × List Char} (member : restart ∈ killed) :
      ∃ uid, run.KilledOf restart.1 uid restart.2 :=
    RestartRun.killedOf_of_killsAs (outcome.kills restart member)
  have words : ∀ restart ∈ killed, IsWord restart.1 ∧ ':' ∉ restart.1 := by
    intro restart member
    obtain ⟨uid, known⟩ := killedOf member
    exact unmistaken.words _ _ _ known
  obtain ⟨news, passes, distinct, unclaimed⟩ := outcome.answered success words
  obtain ⟨replacement, injective, assigns⟩ :=
    exists_assignment Prod.snd passes outcome.distinct distinct
  refine ⟨replacement, injective.mono fun _ gone => listed gone, fun old gone => ?_⟩
  obtain ⟨restart, member, rfl⟩ := List.mem_map.mp (listed gone)
  obtain ⟨isNew, checked, passed⟩ := assigns restart member
  obtain ⟨uid, known⟩ := killedOf member
  obtain ⟨uid', owner⟩ := RestartRun.Happened.uid passed.owned
  obtain rfl := unmistaken.names _ _ _ known uid' _ ⟨checked, passed, owner⟩
  have stands : run.Passes restart.1 uid' (replacement restart.2) := ⟨checked, passed, owner⟩
  refine ⟨fun initial => ?_, restart.1, uid', known, stands⟩
  exact unclaimed _ isNew (listed (unmistaken.killed _ _ _ known _ stands initial))

def installedAgent : List Char := "/usr/bin/KlaayGuard".toList

def aliceAgent (environ : String) : UnixProcess where
  root := some ['/']
  exe := some installedAgent
  uid := 1000
  environ := some environ.toList

structure Seats : Type where
  agents : List (List Char × String)
  pids : ∀ agent ∈ agents, IsPid agent.1
  distinct : (agents.map Prod.fst).Nodup

def aliceMachine (seats : Seats) : UnixMachine where
  processes := seats.agents.map fun agent => (agent.1, aliceAgent agent.2)
  pids := by
    intro entry member
    obtain ⟨agent, inAgents, rfl⟩ := List.mem_map.mp member
    exact seats.pids agent inAgents
  distinct := by
    rw [List.map_map]
    exact seats.distinct
  userName uid := if uid = 1000 then some "alice".toList else none
  passwdLine _ := "alice:x:1000:1000:::/bin/sh".toList
  command name := name == "runuser".toList
  directory _ := false
  systemdEscape user := user
  matching _ := []

def homeEnviron : String := "HOME=/home/alice"

theorem secondPid : IsPid "13".toList := isPid_of_all (by decide) (by decide +kernel)

def secondSeat (environ : String) : Seats where
  agents := [("13".toList, environ)]
  pids := List.forall_mem_singleton.mpr secondPid
  distinct := show ["13".toList].Nodup by decide +kernel

def bothSeats (environ : String) : Seats where
  agents := [("12".toList, homeEnviron), ("13".toList, environ)]
  pids := List.forall_mem_cons.mpr
    ⟨isPid_of_all (by decide) (by decide +kernel), List.forall_mem_singleton.mpr secondPid⟩
  distinct := show ["12".toList, "13".toList].Nodup by decide +kernel

def aliceRun (seats : Nat → Seats) : RestartRun :=
  let record := (restartRunningAgents installedAgent).execute
    (fun time => (aliceMachine (seats time)).answer) 0
  { bin := installedAgent
    evolution := fun time => aliceMachine (seats time)
    start := 0
    events := record.1
    finish := record.2.1
    status := record.2.2.1
    vars := record.2.2.2
    runs := execute_runs (fun time => (aliceMachine (seats time)).answers_answer) _ 0 }

def skippedSeat : RestartRun :=
  aliceRun fun time =>
    if time ≤ 18 then bothSeats ""
    else secondSeat ""

theorem RestartRun.killed_of_sent {run : RestartRun} {old : List Char}
    (sent : .kill .term old ∈ run.events.map Event.action) : run.Killed old := by
  obtain ⟨⟨action, status⟩, member, rfl⟩ := List.mem_map.mp sent
  obtain ⟨index, found⟩ := List.getElem?_of_mem member
  have happened : At run.start run.events (run.start + index) ⟨.kill .term old, status⟩ :=
    ⟨Nat.le_add_right _ _, by rw [Nat.add_sub_cancel_left]; exact found⟩
  exact ⟨_, status, run.runs.possible_at happened, happened⟩

def readsInitial (run : RestartRun) : PostinstAction → Bool
  | .readlink pid .exe => decide (pid ∈ fields run.vars.pids)
  | _ => true

/-- Restarting one of two agents of a user, the script takes the other one, which it had
skipped, for its replacement. -/
theorem skipped_seat_passes :
    ¬ ∀ run : RestartRun, run.status = 0 → (∃ old, run.Killed old) → run.Replaced := by
  intro always
  obtain ⟨success, sent, reads⟩ : skippedSeat.status = 0 ∧
      .kill .term "12".toList ∈ skippedSeat.events.map Event.action ∧
      ∀ action ∈ skippedSeat.events.map Event.action, readsInitial skippedSeat action = true := by
    decide +kernel
  have killed := RestartRun.killed_of_sent sent
  obtain ⟨replacement, -, replaced⟩ := always skippedSeat success ⟨_, killed⟩
  obtain ⟨isNew, user, uid, -, checked, passes, -⟩ := replaced _ killed
  obtain ⟨poll, listed, -, -, -, ⟨rooted, link, -, -, ran, -⟩, -⟩ := passes
  have initial : decide (_ ∈ fields skippedSeat.vars.pids) = true :=
    reads _ (List.mem_map_of_mem ran.2.mem)
  have inList := of_decide_eq_true initial
  exact isNew inList

def newSeats : Seats where
  agents := [("20".toList, homeEnviron), ("21".toList, homeEnviron)]
  pids := List.forall_mem_cons.mpr
    ⟨isPid_of_all (by decide) (by decide +kernel),
      List.forall_mem_singleton.mpr (isPid_of_all (by decide) (by decide +kernel))⟩
  distinct := show ["20".toList, "21".toList].Nodup by decide +kernel

def replacedSeats : RestartRun :=
  aliceRun fun time =>
    if time ≤ 18 then bothSeats homeEnviron
    else if time ≤ 35 then secondSeat homeEnviron
    else newSeats

theorem aliceMachine_uid {seats : Seats} {pid : List Char} {uid : Nat}
    (owner : (aliceMachine seats).uid pid = some uid) : uid = 1000 := by
  obtain ⟨process, found, rfl⟩ := Option.map_eq_some_iff.mp owner
  obtain ⟨front, back, table, -⟩ := List.lookup_eq_some_iff.mp found
  have inTable : (pid, process) ∈ (aliceMachine seats).processes := by
    rw [table]
    exact List.mem_append_right _ List.mem_cons_self
  obtain ⟨agent, -, same⟩ := List.mem_map.mp inTable
  rw [← (Prod.mk.inj same).2]
  rfl

theorem aliceRun_user {seats : Nat → Seats} {time : Nat} {pid user : List Char}
    (owned : (aliceRun seats).Happened time (.statOwner pid) (some user)) :
    user = "alice".toList := by
  obtain ⟨uid, owner, named⟩ := Option.map_eq_some_iff.mp owned.1.symm
  obtain rfl := aliceMachine_uid owner
  rw [← named]
  rfl

theorem restart_replaces_agents_two_seats : replacedSeats.status = 0 ∧
    replacedSeats.Killed "12".toList ∧ replacedSeats.Killed "13".toList ∧
    replacedSeats.Replaced := by
  obtain ⟨success, first, second, sent⟩ : replacedSeats.status = 0 ∧
      "12".toList ∈ fields replacedSeats.vars.pids ∧
      "13".toList ∈ fields replacedSeats.vars.pids ∧
      ∀ pid ∈ fields replacedSeats.vars.pids,
        .kill .term pid ∈ replacedSeats.events.map Event.action := by decide +kernel
  have killed : ∀ pid ∈ fields replacedSeats.vars.pids, replacedSeats.Killed pid :=
    fun pid member => RestartRun.killed_of_sent (sent pid member)
  refine ⟨success, killed _ first, killed _ second,
    restart_replaces_agents replacedSeats success ⟨?_, ?_, fun _ _ _ _ new _ => killed new⟩⟩
  · rintro user uid old ⟨asked, _, _, -, owned, -⟩
    obtain rfl := aliceRun_user owned
    exact ⟨isWord_of_all (by decide) (by decide +kernel), by decide +kernel⟩
  · rintro user uid old ⟨asked, _, _, -, -, owner, -⟩ uid' new ⟨checked, -, owner'⟩
    rw [aliceMachine_uid owner, aliceMachine_uid owner']

end KlaayGuard
