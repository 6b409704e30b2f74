/-
The package's removal script: which processes it signals, and what its last line is worth.

It runs after the files are gone, on a process table that changes under it, and stops the
agents that are left on the deleted binary.
-/

import KlaayGuard.PostinstRestart

set_option autoImplicit false

namespace KlaayGuard

open EffectProgram Prog ShellText

def signalEach (signal : KillSignal) : List (List Char) → PostinstProgram Unit
  | [] => .done ()
  | pid :: rest => do
      let _ ← killProcess signal pid
      signalEach signal rest

def forceLine : List Char := "postrm: an agent ignored SIGTERM for 5s; forcing".toList

def nothingLine (bin : List Char) : List Char :=
  "postrm: no agent runs ".toList ++ bin ++ "; nothing to stop".toList

def stoppedLine : List Char := "postrm: stopped the agent this removal deleted".toList

def stillRunsLine (bin : List Char) : List Char :=
  "postrm: ERROR an agent still runs the deleted ".toList ++ bin

def awaitRemoval (bin : List Char) : Nat → PostinstProgram Unit
  | 0 => do
      let output ← agentPids bin
      if output = [] then .done ()
      else do
        logLine forceLine
        let output ← agentPids bin
        let pids ← expansion output
        signalEach .kill pids
  | sleeps + 1 => do
      let output ← agentPids bin
      if output = [] then .done ()
      else do
        sleepTenth
        awaitRemoval bin sleeps

/-- The agents are listed anew after the wait, whatever the wait came to. -/
def stopRunningAgents (bin : List Char) : PostinstProgram Nat := do
  let output ← agentPids bin
  if output = [] then do
    logLine (nothingLine bin)
    .done 0
  else do
    let pids ← expansion output
    signalEach .term pids
    awaitRemoval bin 50
    let left ← agentPids bin
    if left = [] then do
      logLine stoppedLine
      .done 0
    else do
      logLine (stillRunsLine bin)
      .done 1

def removedBinary : List Char := "/usr/bin/KlaayGuard".toList

/-- dpkg's and rpm's words for a removal that no new package follows. -/
def isRemoval (args : List (List Char)) : Bool :=
  args.head? == some "remove".toList || args.head? == some "purge".toList ||
    args.head? == some "0".toList

def postrm (args : List (List Char)) : PostinstProgram Unit := do
  runCommand ["update-desktop-database".toList, "-q".toList, "/usr/share/applications".toList]
  runCommand ["gtk-update-icon-cache".toList, "-q".toList, "-t".toList, "-f".toList,
    "/usr/share/icons/hicolor".toList]
  if isRemoval args then do
    let _ ← stopRunningAgents removedBinary
    .done ()
  else .done ()

/-! ### What one scan reads -/

section Scans

variable {possible : Nat → (action : PostinstAction) → action.Reply → Prop}
variable {bin : List Char} {clock clock' : Nat} {part : List PostinstEvent}

def Rejects (possible : Nat → (action : PostinstAction) → action.Reply → Prop)
    (bin : List Char) (time : Nat) (pid : List Char) : Prop :=
  (∃ root, possible time (.readlink pid .root) root ∧ root.getD [] ≠ ['/']) ∨
    ∃ exe, possible time (.readlink pid .exe) exe ∧ exe.any (namesBinary bin) = false

theorem listAgents_rejects {procs agents : List (List Char)}
    (run : Runs (Timed possible) (listAgents bin procs) clock part clock' agents) :
    ∀ pid ∈ procs, pid ∈ agents ∨
      ∃ time, clock ≤ time ∧ time < clock' ∧ Rejects possible bin time pid := by
  induction procs generalizing clock part agents with
  | nil => exact fun _ member => absurd member List.not_mem_nil
  | cons first rest ih =>
      rw [listAgents] at run
      obtain ⟨root, _, rooted, -, run⟩ := runs_perform.mp run
      have later {middle : Nat} {inner : List PostinstEvent} {others : List (List Char)}
          (after : clock ≤ middle)
          (run : Runs (Timed possible) (listAgents bin rest) middle inner clock' others) :
          ∀ pid ∈ rest, pid ∈ others ∨
            ∃ time, clock ≤ time ∧ time < clock' ∧ Rejects possible bin time pid := by
        intro pid member
        rcases ih run pid member with found | ⟨time, late, early, rejects⟩
        · exact Or.inl found
        · exact Or.inr ⟨time, by omega, early, rejects⟩
      split at run
      · rename_i elsewhere
        have ticks := run.clock_le
        intro pid member
        rcases List.mem_cons.mp member with rfl | member
        · exact Or.inr ⟨clock, Nat.le_refl _, by omega, Or.inl ⟨root, rooted, elsewhere⟩⟩
        · exact later (Nat.le_succ _) run pid member
      · obtain ⟨exe, _, linked, -, run⟩ := runs_perform.mp run
        split at run
        · obtain ⟨_, others, _, _, inner, last, -⟩ := runs_bind.mp run
          obtain ⟨-, rfl, rfl⟩ := runs_done.mp last
          intro pid member
          rcases List.mem_cons.mp member with rfl | member
          · exact Or.inl List.mem_cons_self
          · rcases later (by omega) inner pid member with found | rejected
            · exact Or.inl (List.mem_cons_of_mem _ found)
            · exact Or.inr rejected
        · rename_i other
          have ticks := run.clock_le
          intro pid member
          rcases List.mem_cons.mp member with rfl | member
          · refine Or.inr ⟨clock + 1, by omega, by omega, Or.inr ⟨exe, linked, ?_⟩⟩
            exact Bool.eq_false_iff.mpr other
          · exact later (by omega) run pid member

def FoundAgent (possible : Nat → (action : PostinstAction) → action.Reply → Prop)
    (bin : List Char) (start finish : Nat) (pid : List Char) : Prop :=
  ∃ listed, start ≤ listed ∧ listed < finish ∧ SeesAgent possible bin listed pid

/-- A scan between two ticks: the names it lists, and which of them it prints. -/
structure Scan (possible : Nat → (action : PostinstAction) → action.Reply → Prop)
    (bin : List Char) (start finish : Nat) (output : List Char)
    (names agents : List (List Char)) : Prop where
  table : possible start .listProc names
  expands : expansion output = .done agents
  prints : output = [] ↔ agents = []
  found : ∀ pid ∈ agents, FoundAgent possible bin start finish pid
  others : ∀ pid ∈ names, pid ∈ agents ∨
    ∃ read, start < read ∧ read < finish ∧ Rejects possible bin read pid

theorem agentPids_scans {output : List Char} (lists : ListsPids possible)
    (run : Runs (Timed possible) (agentPids bin) clock part clock' output) :
    ∃ names agents, Scan possible bin clock clock' output names agents := by
  rw [agentPids] at run
  obtain ⟨names, _, table, -, run⟩ := runs_perform.mp run
  obtain ⟨_, agents, _, _, inner, last, -⟩ := runs_bind.mp run
  obtain ⟨-, rfl, rfl⟩ := runs_done.mp last
  obtain ⟨sublist, seen⟩ := listAgents_runs inner
  have words : ∀ word ∈ agents, IsWord word :=
    fun word member => ((lists _ _ table).2 word (sublist.subset member)).isWord
  have split := fields_outputLines words
  refine ⟨names, agents, table, ?_, ⟨fun empty => ?_, fun empty => ?_⟩, fun pid member => ?_,
    fun pid member => ?_⟩
  · rw [expansion, split, expandFields_words words]
  · rw [empty] at split
    exact split.symm
  · rw [empty]
    rfl
  · obtain ⟨listed, late, early, sees⟩ := seen pid member
    exact ⟨listed, Nat.le_of_succ_le late, early, sees⟩
  · rcases listAgents_rejects inner pid member with found | ⟨read, late, early, rejects⟩
    · exact Or.inl found
    · exact Or.inr ⟨read, late, early, rejects⟩

/-- An agent that no scan misses: it is in every table, and no reading rejects it. -/
def Stays (possible : Nat → (action : PostinstAction) → action.Reply → Prop)
    (bin pid : List Char) : Prop :=
  (∀ time (names : List (List Char)), possible time .listProc names → pid ∈ names) ∧
    ∀ time, ¬ Rejects possible bin time pid

theorem Stays.mem_scan {output pid : List Char} {names agents : List (List Char)}
    (stays : Stays possible bin pid) (scan : Scan possible bin clock clock' output names agents) :
    pid ∈ agents := by
  rcases scan.others pid (stays.1 _ _ scan.table) with found | ⟨read, -, -, rejects⟩
  · exact found
  · exact absurd rejects (stays.2 read)

theorem Stays.found {output pid : List Char} {names agents : List (List Char)}
    (stays : Stays possible bin pid) (scan : Scan possible bin clock clock' output names agents) :
    agents ≠ [] := List.ne_nil_of_mem (stays.mem_scan scan)

def Quiet (part : List PostinstEvent) : Prop :=
  ∀ event ∈ part, ∀ signal pid, event.action ≠ .kill signal pid

theorem quiet_of_reads (reads : ∀ event ∈ part, Reads event.action) : Quiet part := by
  intro event member signal pid same
  have read := reads event member
  rw [same] at read
  exact read

theorem Quiet.append {later : List PostinstEvent} (first : Quiet part) (second : Quiet later) :
    Quiet (part ++ later) :=
  fun event member => (List.mem_append.mp member).elim (first event) (second event)

theorem quiet_singleton {event : PostinstEvent}
    (other : ∀ signal pid, event.action ≠ .kill signal pid) : Quiet [event] :=
  List.forall_mem_singleton.mpr other

theorem quiet_log (line : List Char) : Quiet [⟨.log line, ()⟩] := quiet_singleton nofun

/-- Every signal is a real one, and goes to a process that was seen to be an agent before. -/
def Grounded (possible : Nat → (action : PostinstAction) → action.Reply → Prop)
    (bin : List Char) (clock : Nat) (part : List PostinstEvent) : Prop :=
  ∀ time signal pid reply, At clock part time ⟨.kill signal pid, reply⟩ →
    signal ≠ .probe ∧ ∃ seen, seen < time ∧ SeesAgent possible bin seen pid

theorem Quiet.grounded (quiet : Quiet part) : Grounded possible bin clock part :=
  fun _ signal pid _ happened => absurd rfl (quiet _ happened.mem signal pid)

theorem Grounded.append {later : List PostinstEvent} (first : Grounded possible bin clock part)
    (second : Grounded possible bin (clock + part.length) later) :
    Grounded possible bin clock (part ++ later) := by
  intro time signal pid reply happened
  rcases happened.append with before | after
  · exact first time signal pid reply before
  · exact second time signal pid reply after

theorem Quiet.kill_early {later : List PostinstEvent} (quiet : Quiet later) {time : Nat}
    {signal : KillSignal} {pid : List Char} {reply : Bool}
    (happened : At clock (part ++ later) time ⟨.kill signal pid, reply⟩) :
    time < clock + part.length := by
  rcases happened.append with before | after
  · exact before.early
  · exact absurd rfl (quiet _ after.mem signal pid)

theorem signalEach_only (signal : KillSignal) (pids : List (List Char)) :
    (signalEach signal pids).Only fun action => ∃ pid ∈ pids, action = .kill signal pid := by
  induction pids with
  | nil => trivial
  | cons pid rest ih =>
      refine ⟨⟨pid, List.mem_cons_self, rfl⟩, fun _ => ih.mono ?_⟩
      rintro action ⟨other, member, same⟩
      exact ⟨other, List.mem_cons_of_mem _ member, same⟩

theorem signalEach_sends {signal : KillSignal} {pids : List (List Char)}
    (run : Runs (Timed possible) (signalEach signal pids) clock part clock' ()) :
    ∀ pid ∈ pids, ∃ time, clock ≤ time ∧ time < clock' ∧
      ∃ reply, possible time (.kill signal pid) reply := by
  induction pids generalizing clock part with
  | nil => exact fun _ member => absurd member List.not_mem_nil
  | cons first rest ih =>
      rw [signalEach] at run
      obtain ⟨reply, _, sent, -, run⟩ := runs_perform.mp run
      have ticks := run.clock_le
      intro pid member
      rcases List.mem_cons.mp member with rfl | member
      · exact ⟨clock, Nat.le_refl _, by omega, reply, sent⟩
      · obtain ⟨time, late, early, rest⟩ := ih run pid member
        exact ⟨time, by omega, early, rest⟩

theorem signalEach_grounded {signal : KillSignal} {pids : List (List Char)} (real : signal ≠ .probe)
    {before : Nat} (found : ∀ pid ∈ pids, FoundAgent possible bin before clock pid)
    (run : Runs (Timed possible) (signalEach signal pids) clock part clock' ()) :
    Grounded possible bin clock part := by
  intro time signal' pid' reply happened
  obtain ⟨pid, member, same⟩ := run.only (signalEach_only signal pids) _ happened.mem
  cases same
  obtain ⟨seen, -, early, sees⟩ := found _ member
  exact ⟨real, seen, Nat.lt_of_lt_of_le early happened.1, sees⟩

def sleeps (part : List PostinstEvent) : Nat := part.countP fun event => event.action = .sleep

theorem sleeps_append (part later : List PostinstEvent) :
    sleeps (part ++ later) = sleeps part + sleeps later := List.countP_append

theorem sleeps_of_none (none : ∀ event ∈ part, event.action ≠ .sleep) : sleeps part = 0 :=
  List.countP_eq_zero.mpr fun event member => by simpa using none event member

theorem sleeps_of_reads (reads : ∀ event ∈ part, Reads event.action) : sleeps part = 0 := by
  refine sleeps_of_none fun event member same => ?_
  have read := reads event member
  rw [same] at read
  exact read

theorem sleeps_log (line : List Char) : sleeps [⟨.log line, ()⟩] = 0 :=
  sleeps_of_none (List.forall_mem_singleton.mpr nofun)

theorem sleeps_signalEach {signal : KillSignal} {pids : List (List Char)}
    (run : Runs (Timed possible) (signalEach signal pids) clock part clock' ()) :
    sleeps part = 0 := by
  refine sleeps_of_none fun event member same => ?_
  obtain ⟨pid, -, kill⟩ := run.only (signalEach_only signal pids) event member
  rw [same] at kill
  cases kill

structure Awaited (possible : Nat → (action : PostinstAction) → action.Reply → Prop)
    (bin : List Char) (bound clock : Nat) (part : List PostinstEvent) : Prop where
  grounded : Grounded possible bin clock part
  patient : sleeps part ≤ bound
  forced : ∀ pid, Stays possible bin pid →
    ∃ time, clock ≤ time ∧ ∃ reply, possible time (.kill .kill pid) reply

theorem Scan.awaited {output : List Char} {names agents : List (List Char)} (bound : Nat)
    (scan : Scan possible bin clock clock' output names agents) (empty : output = [])
    (reads : ∀ event ∈ part, Reads event.action) : Awaited possible bin bound clock part where
  grounded := (quiet_of_reads reads).grounded
  patient := by
    rw [sleeps_of_reads reads]
    exact Nat.zero_le bound
  forced _ stays := absurd (scan.prints.mp empty) (stays.found scan)

theorem awaitRemoval_runs {bound : Nat} (lists : ListsPids possible)
    (run : Runs (Timed possible) (awaitRemoval bin bound) clock part clock' ()) :
    Awaited possible bin bound clock part := by
  induction bound generalizing clock part with
  | zero =>
      rw [awaitRemoval] at run
      obtain ⟨_, output, first, _, read, checked, rfl⟩ := runs_bind.mp run
      obtain ⟨names, agents, scan⟩ := agentPids_scans lists read
      have reads := read.only agentPids_reads
      obtain rfl := read.clock_eq
      split at checked
      · rename_i empty
        obtain ⟨rfl, -, -⟩ := runs_done.mp checked
        rw [List.append_nil]
        exact scan.awaited 0 empty reads
      · obtain ⟨⟨⟩, _, -, rfl, later⟩ := runs_perform.mp checked
        obtain ⟨_, output', again, _, read', sent, rfl⟩ := runs_bind.mp later
        obtain ⟨names', agents', scan'⟩ := agentPids_scans lists read'
        have reads' := read'.only agentPids_reads
        obtain rfl := read'.clock_eq
        rw [scan'.expands, done_bind] at sent
        have logged := quiet_log forceLine
        have real : KillSignal.kill ≠ .probe := nofun
        have kills := signalEach_grounded real scan'.found sent
        refine ⟨?_, ?_, fun pid stays => ?_⟩
        · refine (quiet_of_reads reads).grounded.append ?_
          exact logged.grounded.append ((quiet_of_reads reads').grounded.append kills)
        · rw [sleeps_append, sleeps_of_reads reads, ← List.singleton_append, sleeps_append,
            sleeps_log, sleeps_append, sleeps_of_reads reads', sleeps_signalEach sent]
        · obtain ⟨time, late, -, rest⟩ := signalEach_sends sent pid (stays.mem_scan scan')
          exact ⟨time, by omega, rest⟩
  | succ bound ih =>
      rw [awaitRemoval] at run
      obtain ⟨_, output, first, _, read, checked, rfl⟩ := runs_bind.mp run
      obtain ⟨names, agents, scan⟩ := agentPids_scans lists read
      have reads := read.only agentPids_reads
      obtain rfl := read.clock_eq
      split at checked
      · rename_i empty
        obtain ⟨rfl, -, -⟩ := runs_done.mp checked
        rw [List.append_nil]
        exact scan.awaited (bound + 1) empty reads
      · obtain ⟨reply, rest, -, rfl, later⟩ := runs_perform.mp checked
        have awaited := ih later
        have slept : Quiet [⟨.sleep, reply⟩] := quiet_singleton nofun
        refine ⟨?_, ?_, fun pid stays => ?_⟩
        · exact (quiet_of_reads reads).grounded.append (slept.grounded.append awaited.grounded)
        · have once : sleeps (⟨.sleep, reply⟩ :: rest) = sleeps rest + 1 :=
            List.countP_cons_of_pos rfl
          have patient := awaited.patient
          rw [sleeps_append, sleeps_of_reads reads]
          omega
        · obtain ⟨time, late, rest⟩ := awaited.forced pid stays
          exact ⟨time, by omega, rest⟩

theorem logLast_runs {line : List Char} {status status' : Nat}
    (run : Runs (Timed possible) (do logLine line; .done status) clock part clock' status') :
    part = [⟨.log line, ()⟩] ∧ clock' = clock + 1 ∧ possible clock (.log line) () := by
  obtain ⟨_, _, logged, rfl, later⟩ := runs_perform.mp run
  obtain ⟨rfl, rfl, -⟩ := runs_done.mp later
  exact ⟨rfl, rfl, logged⟩

/-- The line is true of what was done and of what a scan then found. -/
def Tells (bin : List Char) (part : List PostinstEvent) (agents : List (List Char))
    (line : List Char) : Prop :=
  (agents = [] ∧ ((Quiet part ∧ line = nothingLine bin) ∨ line = stoppedLine)) ∨
    (agents ≠ [] ∧ line = stillRunsLine bin)

/-- The last line is about a scan that was begun after the last signal. -/
def Answer (possible : Nat → (action : PostinstAction) → action.Reply → Prop)
    (bin : List Char) (clock : Nat) (part : List PostinstEvent) (clock' : Nat) : Prop :=
  ∃ listed last line output names agents,
    (∀ time signal pid reply, At clock part time ⟨.kill signal pid, reply⟩ → time < listed) ∧
    Scan possible bin listed last output names agents ∧ Tells bin part agents line ∧
    clock' = last + 1 ∧ possible last (.log line) ()

structure Stops (possible : Nat → (action : PostinstAction) → action.Reply → Prop)
    (bin : List Char) (clock : Nat) (part : List PostinstEvent) (clock' : Nat) : Prop where
  grounded : Grounded possible bin clock part
  patient : sleeps part ≤ 50
  answer : Answer possible bin clock part clock'
  signals : ∀ pid, Stays possible bin pid → ∃ asked forced, asked < forced ∧
    (∃ reply, possible asked (.kill .term pid) reply) ∧
      ∃ reply, possible forced (.kill .kill pid) reply

theorem stopRunningAgents_runs {status : Nat} (lists : ListsPids possible)
    (run : Runs (Timed possible) (stopRunningAgents bin) clock part clock' status) :
    Stops possible bin clock part clock' := by
  rw [stopRunningAgents] at run
  obtain ⟨_, output, first, _, read, later, rfl⟩ := runs_bind.mp run
  obtain ⟨names, agents, scan⟩ := agentPids_scans lists read
  have reads := read.only agentPids_reads
  have quiet := quiet_of_reads reads
  split at later
  · rename_i empty
    have none := scan.prints.mp empty
    obtain ⟨rfl, rfl, logged⟩ := logLast_runs later
    have silent := quiet.append (quiet_log (nothingLine bin))
    refine ⟨silent.grounded, ?_, ⟨clock, _, _, _, _, _, ?_, scan, ?_, rfl, logged⟩, ?_⟩
    · rw [sleeps_append, sleeps_of_reads reads, sleeps_log]
      omega
    · intro time signal pid reply happened
      exact absurd rfl (silent _ happened.mem signal pid)
    · exact Or.inl ⟨none, Or.inl ⟨silent, rfl⟩⟩
    · exact fun pid stays => absurd none (stays.found scan)
  · rw [scan.expands, done_bind] at later
    obtain ⟨_, _, sent, _, signals, run₁, rfl⟩ := runs_bind.mp later
    obtain ⟨_, _, waited, _, wait, run₂, rfl⟩ := runs_bind.mp run₁
    obtain ⟨_, left, again, tail, read', run₃, rfl⟩ := runs_bind.mp run₂
    obtain ⟨names', agents', scan'⟩ := agentPids_scans lists read'
    have awaited := awaitRemoval_runs lists wait
    have real : KillSignal.term ≠ .probe := nofun
    have terms := signalEach_grounded real scan.found signals
    have reads' := read'.only agentPids_reads
    obtain ⟨line, tells, rfl, rfl, logged⟩ : ∃ line,
        (∀ part, Tells bin part agents' line) ∧ tail = [⟨.log line, ()⟩] ∧ _ = _ ∧
          possible _ (.log line) () := by
      split at run₃
      · rename_i empty
        exact ⟨_, fun _ => Or.inl ⟨scan'.prints.mp empty, Or.inr rfl⟩, logLast_runs run₃⟩
      · rename_i found
        refine ⟨_, fun _ => Or.inr ⟨fun none => ?_, rfl⟩, logLast_runs run₃⟩
        exact found (scan'.prints.mpr none)
    obtain rfl := read.clock_eq
    obtain rfl := signals.clock_eq
    obtain rfl := wait.clock_eq
    have silent := (quiet_of_reads reads').append (quiet_log line)
    refine ⟨?_, ?_, ⟨_, _, line, _, _, _, ?_, scan', tells _, rfl, logged⟩, fun pid stays => ?_⟩
    · exact quiet.grounded.append (terms.append (awaited.grounded.append silent.grounded))
    · have patient := awaited.patient
      simp only [sleeps_append, sleeps_of_reads reads, sleeps_of_reads reads',
        sleeps_signalEach signals, sleeps_log]
      omega
    · intro time signal pid reply happened
      rw [← List.append_assoc, ← List.append_assoc] at happened
      have early := silent.kill_early happened
      rw [List.length_append, List.length_append] at early
      omega
    · obtain ⟨asked, -, early, term⟩ := signalEach_sends signals pid (stays.mem_scan scan)
      obtain ⟨forced, late, kill⟩ := awaited.forced pid stays
      exact ⟨asked, forced, by omega, term, kill⟩

theorem postrm_runs {args : List (List Char)} (lists : ListsPids possible)
    (run : Runs (Timed possible) (postrm args) clock part clock' ()) :
    (isRemoval args = false ∧ Quiet part ∧ sleeps part = 0) ∨
      (isRemoval args = true ∧ Stops possible removedBinary clock part clock') := by
  rw [postrm] at run
  obtain ⟨first, _, -, rfl, run₁⟩ := runs_perform.mp run
  obtain ⟨second, rest, -, rfl, run₂⟩ := runs_perform.mp run₁
  have quiet : Quiet [⟨.run _, first⟩, ⟨.run _, second⟩] :=
    List.forall_mem_cons.mpr ⟨nofun, List.forall_mem_singleton.mpr nofun⟩
  have awake : sleeps [⟨.run _, first⟩, ⟨.run _, second⟩] = 0 :=
    sleeps_of_none (List.forall_mem_cons.mpr ⟨nofun, List.forall_mem_singleton.mpr nofun⟩)
  split at run₂
  · rename_i removal
    obtain ⟨_, status, inner, _, stop, last, rfl⟩ := runs_bind.mp run₂
    obtain ⟨rfl, rfl, -⟩ := runs_done.mp last
    rw [List.append_nil]
    obtain ⟨grounded, patient, answer, signals⟩ := stopRunningAgents_runs lists stop
    obtain ⟨listed, last, line, output, names, agents, before, scan, tells, rest⟩ := answer
    refine Or.inr ⟨removal, quiet.grounded.append grounded, ?_,
      ⟨listed, last, line, output, names, agents, ?_, scan, ?_, rest⟩, signals⟩
    · exact (sleeps_append [_, _] inner).trans_le (by rw [awake, Nat.zero_add]; exact patient)
    · intro time signal pid reply happened
      have parted : At clock ([⟨.run _, first⟩, ⟨.run _, second⟩] ++ inner) time
          ⟨.kill signal pid, reply⟩ := happened
      rcases parted.append with early | late
      · exact absurd rfl (quiet _ early.mem signal pid)
      · exact before time signal pid reply late
    · rcases tells with ⟨none, ⟨silent, named⟩ | stopped⟩ | left
      · exact Or.inl ⟨none, Or.inl ⟨quiet.append silent, named⟩⟩
      · exact Or.inl ⟨none, Or.inr stopped⟩
      · exact Or.inr left
  · rename_i other
    obtain ⟨rfl, -, -⟩ := runs_done.mp run₂
    exact Or.inl ⟨Bool.eq_false_iff.mpr other, quiet, awake⟩

end Scans

/-! ### Whole removals -/

def UnixMachine.RunsBinary (machine : UnixMachine) (bin pid : List Char) : Prop :=
  machine.link pid .root = some ['/'] ∧
    ∃ exe, machine.link pid .exe = some exe ∧ namesBinary bin exe = true

section Machine

variable {machine : UnixMachine} {bin pid : List Char}

theorem UnixMachine.RunsBinary.mem (runs : machine.RunsBinary bin pid) :
    pid ∈ machine.processes.map Prod.fst := by
  obtain ⟨process, found, -⟩ := Option.bind_eq_some_iff.mp runs.1
  obtain ⟨front, back, split, -⟩ := List.lookup_eq_some_iff.mp found
  rw [split, List.map_append, List.map_cons]
  exact List.mem_append_right _ List.mem_cons_self

theorem Rejects.not_runsBinary {possible : Nat → (action : PostinstAction) → action.Reply → Prop}
    {time : Nat} (sound : ∀ action reply, possible time action reply → answers machine action reply)
    (rejects : Rejects possible bin time pid) : ¬ machine.RunsBinary bin pid := by
  rintro ⟨rooted, exe, linked, named⟩
  rcases rejects with ⟨root, read, elsewhere⟩ | ⟨link, read, other⟩
  · have answer : root = machine.link pid .root := sound _ _ read
    rw [answer, rooted] at elsewhere
    exact elsewhere rfl
  · have answer : link = machine.link pid .exe := sound _ _ read
    rw [answer, linked, Option.any_some, named] at other
    cases other

end Machine

structure RemovalRun : Type where
  args : List (List Char)
  evolution : Nat → UnixMachine
  events : List PostinstEvent
  finish : Nat
  runs : Runs (Timed fun time => answers (evolution time)) (postrm args) 0 events finish ()

namespace RemovalRun

variable (run : RemovalRun)

def Happened (time : Nat) (action : PostinstAction) (reply : action.Reply) : Prop :=
  answers (run.evolution time) action reply ∧ At 0 run.events time ⟨action, reply⟩

def Sent (signal : KillSignal) (pid : List Char) (time : Nat) : Prop :=
  ∃ reply, run.Happened time (.kill signal pid) reply

def Reports (line : List Char) : Prop :=
  ∃ last, run.finish = last + 1 ∧ run.Happened last (.log line) ()

def SignalsNone : Prop := ∀ signal pid time, ¬ run.Sent signal pid time

def SignalsBefore (tick : Nat) : Prop := ∀ signal pid time, run.Sent signal pid time → time < tick

/-- Of the processes there were at a tick after the last signal, none runs the deleted
binary when the script looks at it. -/
def LeavesNone : Prop :=
  ∃ listed, listed < run.finish ∧ run.SignalsBefore listed ∧
    ∀ pid ∈ (run.evolution listed).processes.map Prod.fst,
      ∃ read, listed < read ∧ read < run.finish ∧
        ¬ (run.evolution read).RunsBinary removedBinary pid

def LeavesAgent : Prop :=
  ∃ listed pid, run.SignalsBefore listed ∧ SeesAgent run.Happened removedBinary listed pid

def Outlives (pid : List Char) : Prop :=
  ∀ time < run.finish, (run.evolution time).RunsBinary removedBinary pid

variable {run : RemovalRun}

theorem Happened.early {time : Nat} {action : PostinstAction} {reply : action.Reply}
    (happened : run.Happened time action reply) : time < run.finish := by
  have early := happened.2.early
  rwa [← run.runs.clock_eq] at early

theorem listsPids (run : RemovalRun) : ListsPids run.Happened :=
  listsPids_of_answers fun _ _ _ happened => happened.1

theorem rejects_not_runsBinary {time : Nat} {pid : List Char}
    (rejects : Rejects run.Happened removedBinary time pid) :
    ¬ (run.evolution time).RunsBinary removedBinary pid :=
  rejects.not_runsBinary fun _ _ happened => happened.1

theorem Outlives.stays {pid : List Char} (outlives : run.Outlives pid) :
    Stays run.Happened removedBinary pid := by
  constructor
  · intro time names happened
    exact happened.1.mem_iff.mpr (outlives time happened.early).mem
  · intro time rejects
    have early : time < run.finish := by
      rcases rejects with ⟨_, happened, -⟩ | ⟨_, happened, -⟩ <;> exact happened.early
    exact rejects_not_runsBinary rejects (outlives time early)

end RemovalRun

/-- Only a removal signals, and only what it saw to be an agent.  Its last line says what a
scan found after the last signal, and an agent that outlives the script is owned up to. -/
theorem removal_answers_for_agents (run : RemovalRun) :
    (∀ signal pid time, run.Sent signal pid time → isRemoval run.args = true ∧ signal ≠ .probe ∧
      ∃ seen, seen < time ∧ SeesAgent run.Happened removedBinary seen pid) ∧
    sleeps run.events ≤ 50 ∧
    (isRemoval run.args = true →
      ((run.Reports (nothingLine removedBinary) ∧ run.SignalsNone ∨ run.Reports stoppedLine) ∧
          run.LeavesNone ∨
        run.Reports (stillRunsLine removedBinary) ∧ run.LeavesAgent) ∧
      ∀ pid, run.Outlives pid →
        (∃ asked forced, asked < forced ∧ run.Sent .term pid asked ∧ run.Sent .kill pid forced) ∧
          run.Reports (stillRunsLine removedBinary)) := by
  have recorded := run.runs.recorded fun _ _ happened => happened
  rcases postrm_runs run.listsPids recorded with ⟨other, quiet, awake⟩ | ⟨removal, stops⟩
  · refine ⟨?_, by omega, fun removal => ?_⟩
    · rintro signal pid time ⟨reply, -, happened⟩
      exact absurd rfl (quiet _ happened.mem signal pid)
    · rw [other] at removal
      cases removal
  · obtain ⟨listed, last, line, output, names, agents, before, scan, tells, ends, logged⟩ :=
      stops.answer
    have reports : run.Reports line := ⟨last, ends, logged⟩
    have signalsBefore : run.SignalsBefore listed := by
      rintro signal pid time ⟨reply, -, happened⟩
      exact before time signal pid reply happened
    refine ⟨?_, stops.patient, fun _ => ⟨?_, fun pid outlives => ?_⟩⟩
    · rintro signal pid time ⟨reply, -, happened⟩
      exact ⟨removal, stops.grounded time signal pid reply happened⟩
    · rcases tells with ⟨none, tells⟩ | ⟨some, rfl⟩
      · refine Or.inl ⟨?_, listed, scan.table.early, signalsBefore, fun pid member => ?_⟩
        · rcases tells with ⟨quiet, rfl⟩ | rfl
          · refine Or.inl ⟨reports, ?_⟩
            rintro signal pid time ⟨reply, -, happened⟩
            exact absurd rfl (quiet _ happened.mem signal pid)
          · exact Or.inr reports
        · rcases scan.others pid (scan.table.1.mem_iff.mpr member) with found | rejected
          · rw [none] at found
            cases found
          · obtain ⟨read, late, early, rejects⟩ := rejected
            exact ⟨read, late, by omega, RemovalRun.rejects_not_runsBinary rejects⟩
      · obtain ⟨pid, member⟩ := List.exists_mem_of_ne_nil agents some
        obtain ⟨seen, late, early, sees⟩ := scan.found pid member
        refine Or.inr ⟨reports, seen, pid, fun signal pid time sent => ?_, sees⟩
        exact Nat.lt_of_lt_of_le (signalsBefore signal pid time sent) late
    · have stays := outlives.stays
      obtain ⟨asked, forced, inTurn, term, kill⟩ := stops.signals pid stays
      rcases tells with ⟨none, -⟩ | ⟨-, rfl⟩
      · exact absurd none (stays.found scan)
      · exact ⟨⟨asked, forced, inTurn, term, kill⟩, reports⟩

def stubbornRemoval : RemovalRun :=
  let record := (postrm ["remove".toList]).execute
    (fun _ => (aliceMachine (secondSeat "")).answer) 0
  { args := ["remove".toList]
    evolution := fun _ => aliceMachine (secondSeat "")
    events := record.1
    finish := record.2.1
    runs := execute_runs (fun _ => (aliceMachine (secondSeat "")).answers_answer) _ 0 }

theorem removal_answers_for_stubborn_agent :
    (∃ asked forced, asked < forced ∧ stubbornRemoval.Sent .term "13".toList asked ∧
        stubbornRemoval.Sent .kill "13".toList forced) ∧
      stubbornRemoval.Reports (stillRunsLine removedBinary) := by
  have runsBinary : (aliceMachine (secondSeat "")).RunsBinary removedBinary "13".toList :=
    ⟨rfl, removedBinary, rfl, by decide +kernel⟩
  exact ((removal_answers_for_agents stubbornRemoval).2.2 rfl).2 _ fun _ _ => runsBinary

end KlaayGuard
