/-
The autostart entry on the disk: which starts write it, and what the user's own edits
are worth against them.

A start leaves an entry alone that the user disabled, and writes a temporary file before
it renames it onto the entry.  A start may be cut off between any two steps and inside
of a write; the user edits the entry between starts in any way.
-/

import KlaayGuard.Autostart
import KlaayGuard.Library.FileDisk
import KlaayGuard.Library.HostAnswers
import KlaayGuard.Update

set_option autoImplicit false

namespace KlaayGuard

open DesktopEntry EffectProgram FileDisk RustText

def autostartExec (appimageEnv : Option String) (currentExe : String) : String :=
  (appimageEnv.filter (· ≠ "")).getD currentExe

def autostartPath (configDir : List Char) : List Char :=
  pathJoin configDir "autostart/klaayguard.desktop".toList

inductive ReadFailure : Type where
  | absent
  | notUtf8
  | io

inductive AutostartAction : Type where
  /-- What the search for the own image reads. -/
  | reading (effect : UpdateEffect)
  | configDir
  | currentExe
  | readToString (path : List Char)
  | info (message : String)
  | createDirAll (path : List Char)
  /-- `fs::write`. -/
  | write (path : List Char) (contents : String)
  | rename (source target : List Char)

@[reducible] def AutostartAction.Reply : AutostartAction → Type
  | .reading effect => effect.Reply
  | .configDir => Option (List Char)
  | .currentExe => Except String String
  | .readToString _ => Except ReadFailure String
  | .info _ => Unit
  | .createDirAll _ => Except String Unit
  | .write _ _ => Except String Unit
  | .rename _ _ => Except String Unit

abbrev AutostartProgram (α : Type) : Type := Prog AutostartAction AutostartAction.Reply α

abbrev AutostartEvent : Type := Event AutostartAction AutostartAction.Reply

abbrev AutostartAction.perform (action : AutostartAction) : AutostartProgram action.Reply :=
  Prog.perform action

open AutostartAction (perform)

def temporaryEntry (path : List Char) : List Char := withExtension path "desktop.tmp".toList

def replaceAutostartEntry (path : List Char) (entry : String) :
    AutostartProgram (Except String Unit) := do
  match parent path with
  | none => pure (.error "autostart path has no parent")
  | some dir =>
      match ← perform (.createDirAll dir) with
      | .error e => pure (.error e)
      | .ok _ =>
          match ← perform (.write (temporaryEntry path) entry) with
          | .error e => pure (.error e)
          | .ok _ => perform (.rename (temporaryEntry path) path)

def refreshAutostartEntry (path : List Char) (entry : String) :
    AutostartProgram (Except String Unit) := do
  match ← perform (.readToString path) with
  | .error _ => replaceAutostartEntry path entry
  | .ok existing =>
      if autostartIsUserDisabled existing then do
        perform (.info "autostart: user disabled the entry; leaving it")
        pure (.ok ())
      else if existing = entry then pure (.ok ())
      else replaceAutostartEntry path entry

def installAutostartEntry : AutostartProgram (Except String Unit) := do
  match ← perform .configDir with
  | none => pure (.error "no config directory")
  | some configDir =>
      match ← perform .currentExe with
      | .error e => pure (.error e)
      | .ok exe => do
          let appimage ← ownAppimage.lift .reading fun _ reply => reply
          refreshAutostartEntry (autostartPath configDir)
            (autostartEntry (autostartExec appimage exe))

/-! ### The host of a start -/

structure AutostartHost : Type where
  configDir : Option (List Char)
  currentExe : Except String String
  reading : (effect : UpdateEffect) → effect.Reply

def AutostartHost.exec (host : AutostartHost) (exe : String) : String :=
  autostartExec (ownAppimage.answered host.reading) exe

def textOf (disk : Disk (List Char)) (path : List Char) : Option String :=
  (disk path).bind fun file => fromUtf8 file.bytes

/-- A write that fails may leave nothing changed or any beginning of the new text. -/
def performsAutostart (host : AutostartHost) (disk : Disk (List Char)) :
    (action : AutostartAction) → action.Reply → Disk (List Char) → Prop
  | .reading effect, reply, after => reply = host.reading effect ∧ after = disk
  | .configDir, reply, after => reply = host.configDir ∧ after = disk
  | .currentExe, reply, after => reply = host.currentExe ∧ after = disk
  | .readToString path, .ok text, after => textOf disk path = some text ∧ after = disk
  | .readToString path, .error .absent, after => disk path = none ∧ after = disk
  | .readToString path, .error .notUtf8, after => textOf disk path = none ∧ after = disk
  | .readToString _, .error .io, after => after = disk
  | .info _, _, after => after = disk
  | .createDirAll _, _, after => after = disk
  | .write path contents, .ok _, after =>
      ∃ mode, after = disk.put path (some ⟨asBytes contents, mode⟩)
  | .write path contents, .error _, after =>
      after = disk ∨ ∃ written mode, written <+: asBytes contents ∧
        after = disk.put path (some ⟨written, mode⟩)
  | .rename source target, reply, after =>
      (Call.rename source target).Performs disk reply.isOk after

def entryName : List Char := "klaayguard.desktop".toList

theorem entryName_plain : IsPlainName entryName := by
  refine ⟨?_, ?_, ?_, ?_⟩ <;> decide

theorem autostartPath_eq (configDir : List Char) :
    autostartPath configDir = pathJoin (pathJoin configDir "autostart".toList) entryName := by
  have plain : '/' ∉ "autostart".toList := by decide
  obtain ⟨nonempty, last⟩ := getLast?_pathJoin configDir plain (by decide)
  have ended : (pathJoin configDir "autostart".toList).getLast? ≠ some '/' := by
    rw [last]
    decide
  have relative : entryName.head? ≠ some '/' := by decide
  have whole : pathJoin (pathJoin configDir "autostart".toList) entryName =
      pathJoin configDir "autostart".toList ++ '/' :: entryName := by
    rw [pathJoin, if_neg relative, if_neg (not_or.mpr ⟨nonempty, ended⟩)]
  have first : "autostart".toList.head? ≠ some '/' := by decide
  have firstWhole : "autostart/klaayguard.desktop".toList.head? ≠ some '/' := by decide
  rw [whole, autostartPath, pathJoin, pathJoin, if_neg first, if_neg firstWhole]
  split
  · rw [List.append_assoc]
    rfl
  · rw [List.append_assoc]
    rfl

theorem temporaryEntry_ne (configDir : List Char) :
    temporaryEntry (autostartPath configDir) ≠ autostartPath configDir := by
  have named : fileName (autostartPath configDir) = some entryName := by
    rw [autostartPath_eq]
    exact fileName_pathJoin entryName_plain _
  have plain : IsPlainName (fileStem entryName ++ '.' :: "desktop.tmp".toList) := by
    refine ⟨?_, ?_, ?_, ?_⟩ <;> decide
  intro same
  have temporary : fileName (temporaryEntry (autostartPath configDir)) =
      some (fileStem entryName ++ '.' :: "desktop.tmp".toList) := by
    rw [temporaryEntry, withExtension, named]
    exact fileName_withFileName plain _
  rw [same, named] at temporary
  revert temporary
  decide

def DisabledAt (disk : Disk (List Char)) (path : List Char) : Prop :=
  ∃ text, textOf disk path = some text ∧ autostartIsUserDisabled text = true

/-- The one excuse for a start that does not heed the user: the entry could not be read. -/
def EntryUnread (path : List Char) (events : List AutostartEvent) : Prop :=
  ⟨.readToString path, .error .io⟩ ∈ events

def AutostartHost.Writes (host : AutostartHost) (entry : String) : Prop :=
  ∃ exe, host.currentExe = .ok exe ∧ entry = autostartEntry (host.exec exe)

def Refreshed (path : List Char) (entry : String) (old : Disk (List Char))
    (events : List AutostartEvent) (disk : Disk (List Char)) : Prop :=
  disk path = old path ∨
    textOf disk path = some entry ∧ (DisabledAt old path → EntryUnread path events)

def RefreshOutcome (path : List Char) (entry : String) (disk : Disk (List Char)) :
    Except String Unit → Prop
  | .ok _ => DisabledAt disk path ∨ textOf disk path = some entry
  | .error _ => True

variable {host : AutostartHost} {path : List Char} {entry : String}
variable {old disk after : Disk (List Char)} {history : List AutostartEvent}

theorem EntryUnread.append (unread : EntryUnread path history) (later : List AutostartEvent) :
    EntryUnread path (history ++ later) := List.mem_append_left _ unread

theorem replaceAutostartEntry_keeps (apart : temporaryEntry path ≠ path)
    (same : disk path = old path) (may : DisabledAt old path → EntryUnread path history) :
    (replaceAutostartEntry path entry).Keeps (performsAutostart host) (Refreshed path entry old)
      (fun _ disk => RefreshOutcome path entry disk) history disk := by
  unfold replaceAutostartEntry
  cases parent path with
  | none => exact ⟨Or.inl same, trivial⟩
  | some dir =>
      apply Prog.keeps_perform.mpr
      refine ⟨Or.inl same, fun made after performed => ?_⟩
      obtain rfl : after = disk := performed
      cases made with
      | error e => exact ⟨Or.inl same, trivial⟩
      | ok _ =>
          apply Prog.keeps_perform.mpr
          refine ⟨Or.inl same, fun wrote written performed => ?_⟩
          cases wrote with
          | error e =>
              have kept : written path = old path := by
                rcases performed with rfl | ⟨beginning, mode, _, rfl⟩
                · exact same
                · rw [Disk.put_of_ne apart.symm, same]
              exact ⟨Or.inl kept, trivial⟩
          | ok _ =>
              obtain ⟨mode, rfl⟩ := performed
              have kept : (after.put (temporaryEntry path) (some ⟨asBytes entry, mode⟩)) path =
                  old path := by
                rw [Disk.put_of_ne apart.symm, same]
              refine ⟨Or.inl kept, fun renamed final performed => ?_⟩
              cases renamed with
              | error e =>
                  obtain rfl := performed
                  exact ⟨Or.inl kept, trivial⟩
              | ok _ =>
                  have stands := rename_succeeded (Disk.put_self _) performed
                  have text : textOf final path = some entry := by
                    unfold textOf
                    rw [stands]
                    exact fromUtf8_asBytes entry
                  refine ⟨Or.inr ⟨text, fun disabled => ?_⟩, Or.inr text⟩
                  exact (((may disabled).append _).append _).append _

theorem refreshAutostartEntry_keeps (apart : temporaryEntry path ≠ path) :
    (refreshAutostartEntry path entry).Keeps (performsAutostart host) (Refreshed path entry old)
      (fun _ disk => RefreshOutcome path entry disk) history old := by
  unfold refreshAutostartEntry
  apply Prog.keeps_perform.mpr
  refine ⟨Or.inl rfl, fun read after performed => ?_⟩
  cases read with
  | error failure =>
      obtain rfl : after = old := by
        cases failure with
        | absent => exact performed.2
        | notUtf8 => exact performed.2
        | io => exact performed
      refine replaceAutostartEntry_keeps apart rfl ?_
      rintro ⟨text, shown, _⟩
      cases failure with
      | absent =>
          rw [textOf, performed.1] at shown
          cases shown
      | notUtf8 =>
          rw [performed.1] at shown
          cases shown
      | io => exact List.mem_concat_self
  | ok existing =>
      obtain ⟨shown, rfl⟩ := performed
      by_cases disabled : autostartIsUserDisabled existing = true
      · simp only [if_pos disabled]
        apply Prog.keeps_perform.mpr
        refine ⟨Or.inl rfl, fun _ final performed => ?_⟩
        obtain rfl : final = after := performed
        exact ⟨Or.inl rfl, Or.inl ⟨existing, shown, disabled⟩⟩
      · simp only [if_neg disabled]
        by_cases current : existing = entry
        · simp only [if_pos current]
          rw [current] at shown
          exact ⟨Or.inl rfl, Or.inr shown⟩
        · simp only [if_neg current]
          refine replaceAutostartEntry_keeps apart rfl ?_
          rintro ⟨text, other, disables⟩
          rw [shown] at other
          obtain rfl := Option.some.inj other
          exact absurd disables disabled

def StartKeeps (host : AutostartHost) (path : List Char) (old : Disk (List Char))
    (events : List AutostartEvent) (disk : Disk (List Char)) : Prop :=
  disk path = old path ∨ ∃ entry, host.Writes entry ∧ textOf disk path = some entry ∧
    (DisabledAt old path → EntryUnread path events)

def StartOutcome (host : AutostartHost) (path : List Char) (disk : Disk (List Char)) :
    Except String Unit → Prop
  | .ok _ => DisabledAt disk path ∨ ∃ entry, host.Writes entry ∧ textOf disk path = some entry
  | .error _ => True

theorem installAutostartEntry_keeps
    (home : ∀ configDir, host.configDir = some configDir → autostartPath configDir = path) :
    installAutostartEntry.Keeps (performsAutostart host) (StartKeeps host path old)
      (fun _ disk => StartOutcome host path disk) [] old := by
  have untouched : ∀ {events}, StartKeeps host path old events old := Or.inl rfl
  apply Prog.keeps_perform.mpr
  refine ⟨untouched, fun found after performed => ?_⟩
  obtain ⟨rfl, rfl⟩ := performed
  cases configured : host.configDir with
  | none => exact ⟨untouched, trivial⟩
  | some configDir =>
      obtain rfl := home configDir configured
      apply Prog.keeps_perform.mpr
      refine ⟨untouched, fun exe disk performed => ?_⟩
      obtain ⟨rfl, rfl⟩ := performed
      cases running : host.currentExe with
      | error e => exact ⟨untouched, trivial⟩
      | ok exe =>
          have asks : ∀ (state : Disk (List Char)) (effect : UpdateEffect) (reply : effect.Reply)
              (later : Disk (List Char)),
              performsAutostart host state (.reading effect) reply later →
                reply = host.reading effect ∧ later = state := fun _ _ _ _ performed => performed
          have stable : ∀ (events : List AutostartEvent) (effect : UpdateEffect)
              (reply : effect.Reply) (state : Disk (List Char)),
              StartKeeps host (autostartPath configDir) disk events state →
                StartKeeps host (autostartPath configDir) disk
                  (events ++ [⟨.reading effect, reply⟩]) state := by
            rintro events effect reply state (same | ⟨entry, writes, shown, may⟩)
            · exact Or.inl same
            · exact Or.inr ⟨entry, writes, shown, fun disabled => (may disabled).append _⟩
          have finds : ∀ events, (ownAppimage.lift AutostartAction.reading
              fun _ reply => reply : AutostartProgram (Option String)).Keeps
                (performsAutostart host) (StartKeeps host (autostartPath configDir) disk)
                (fun later state appimage => StartKeeps host (autostartPath configDir) disk later
                  state ∧ state = disk ∧ appimage = ownAppimage.answered host.reading)
                events disk := by
            intro events
            refine Prog.lift_keeps_answered ?_ ?_ ownAppimage untouched
            · exact asks
            · exact stable
          refine (finds _).bind ?_
          rintro events state appimage ⟨_, rfl, rfl⟩
          have writes : host.Writes (autostartEntry (host.exec exe)) := ⟨exe, running, rfl⟩
          refine (refreshAutostartEntry_keeps (temporaryEntry_ne configDir)).mono ?_ ?_
          · rintro events disk (same | ⟨shown, may⟩)
            · exact Or.inl same
            · exact Or.inr ⟨_, writes, shown, may⟩
          · intro events disk result _ outcome
            cases result with
            | error e => trivial
            | ok _ => exact outcome.imp_right fun shown => ⟨_, writes, shown⟩

/-! ### Starts and edits -/

inductive AutostartStep : Type where
  /-- The user gives the entry this text, or takes its text away. -/
  | edit (text : Option String)
  /-- A start that came to this result, or was killed. -/
  | start (host : AutostartHost) (events : List AutostartEvent)
      (result : Option (Except String Unit))

/-- Starts one after another over one configuration directory, with edits between them.  An
edit may do anything to the other files. -/
inductive AutostartHistory (path : List Char) (first : Disk (List Char)) :
    List AutostartStep → Disk (List Char) → Prop where
  | begun : AutostartHistory path first [] first
  | edited {steps : List AutostartStep} {disk after : Disk (List Char)} {text : Option String}
      (earlier : AutostartHistory path first steps disk) (given : textOf after path = text) :
      AutostartHistory path first (steps ++ [.edit text]) after
  | finished {steps : List AutostartStep} {disk after : Disk (List Char)} {host : AutostartHost}
      {events : List AutostartEvent} {result : Except String Unit}
      (earlier : AutostartHistory path first steps disk)
      (home : ∀ configDir, host.configDir = some configDir → autostartPath configDir = path)
      (run : Prog.Runs (performsAutostart host) installAutostartEntry disk events after result) :
      AutostartHistory path first (steps ++ [.start host events (some result)]) after
  | killed {steps : List AutostartStep} {disk after : Disk (List Char)} {host : AutostartHost}
      {events : List AutostartEvent} (earlier : AutostartHistory path first steps disk)
      (home : ∀ configDir, host.configDir = some configDir → autostartPath configDir = path)
      (run : Prog.Begins (performsAutostart host) installAutostartEntry disk events after) :
      AutostartHistory path first (steps ++ [.start host events none]) after

def AutostartStep.apply (known : Option String × List AutostartStep) :
    AutostartStep → Option String × List AutostartStep
  | .edit text => (text, [])
  | .start host events result => (known.1, known.2 ++ [.start host events result])

/-- The last text of the user, or the first one of all, and the starts since then. -/
def lastEdit (first : Option String) (steps : List AutostartStep) :
    Option String × List AutostartStep :=
  steps.foldl AutostartStep.apply (first, [])

def AutostartStep.Writes (entry : String) : AutostartStep → Prop
  | .edit _ => False
  | .start host _ _ => host.Writes entry

def AutostartStep.Unread (path : List Char) : AutostartStep → Prop
  | .edit _ => False
  | .start _ events _ => EntryUnread path events

theorem lastEdit_concat (first : Option String) (steps : List AutostartStep)
    (step : AutostartStep) :
    lastEdit first (steps ++ [step]) = step.apply (lastEdit first steps) := by
  rw [lastEdit, lastEdit, List.foldl_append]
  rfl

theorem mem_of_mem_lastEdit {first : Option String} {steps : List AutostartStep}
    {step : AutostartStep} (member : step ∈ (lastEdit first steps).2) : step ∈ steps := by
  induction steps using List.reverseRecOn with
  | nil => exact absurd member List.not_mem_nil
  | append_singleton steps last ih =>
      rw [lastEdit_concat] at member
      cases last with
      | edit text => exact absurd member List.not_mem_nil
      | start host events result =>
          rcases List.mem_append.mp member with earlier | same
          · exact List.mem_append_left _ (ih earlier)
          · exact List.mem_append_right _ same

/-- The text is the user's, or the entry of a start since; where the user disabled the entry,
only a start that could not read it has changed it. -/
def FollowsUser (path : List Char) (known : Option String × List AutostartStep)
    (disk : Disk (List Char)) : Prop :=
  textOf disk path = known.1 ∨
    (∃ step ∈ known.2, ∃ entry, step.Writes entry ∧ textOf disk path = some entry) ∧
      ((∃ text, known.1 = some text ∧ autostartIsUserDisabled text = true) →
        ∃ step ∈ known.2, step.Unread path)

theorem FollowsUser.start {known : Option String × List AutostartStep}
    {events : List AutostartEvent} (follows : FollowsUser path known disk)
    (keeps : StartKeeps host path disk events after) (result : Option (Except String Unit)) :
    FollowsUser path (AutostartStep.apply known (.start host events result)) after := by
  have last : AutostartStep.start host events result ∈
      known.2 ++ [.start host events result] := List.mem_concat_self
  rcases keeps with same | ⟨entry, writes, shown, may⟩
  · have text : textOf after path = textOf disk path := by
      unfold textOf
      rw [same]
    rcases follows with user | ⟨⟨step, member, written⟩, unread⟩
    · exact Or.inl (text.trans user)
    · refine Or.inr ⟨⟨step, List.mem_append_left _ member, ?_⟩, fun disabled => ?_⟩
      · rw [text]
        exact written
      · obtain ⟨reader, earlier, failed⟩ := unread disabled
        exact ⟨reader, List.mem_append_left _ earlier, failed⟩
  · refine Or.inr ⟨⟨_, last, entry, writes, shown⟩, fun disabled => ?_⟩
    rcases follows with user | ⟨_, unread⟩
    · obtain ⟨text, chosen, disables⟩ := disabled
      exact ⟨_, last, may ⟨text, user.trans chosen, disables⟩⟩
    · obtain ⟨reader, earlier, failed⟩ := unread disabled
      exact ⟨reader, List.mem_append_left _ earlier, failed⟩

theorem AutostartHistory.follows {first : Disk (List Char)} {steps : List AutostartStep}
    (history : AutostartHistory path first steps after) :
    FollowsUser path (lastEdit (textOf first path) steps) after := by
  induction history with
  | begun => exact Or.inl rfl
  | edited earlier given ih =>
      rw [lastEdit_concat]
      exact Or.inl given
  | finished earlier home run ih =>
      rw [lastEdit_concat]
      exact ih.start ((installAutostartEntry_keeps home).begins run.begins) _
  | killed earlier home run ih =>
      rw [lastEdit_concat]
      exact ih.start ((installAutostartEntry_keeps home).begins run) _

theorem AutostartHistory.outcome {first : Disk (List Char)} {steps earlier : List AutostartStep}
    {host : AutostartHost} {events : List AutostartEvent} {result : Except String Unit}
    (history : AutostartHistory path first steps after)
    (ended : steps = earlier ++ [.start host events (some result)]) :
    StartOutcome host path after result := by
  cases history with
  | begun => exact absurd (congrArg List.length ended) (by simp)
  | edited earlier given => cases (List.append_inj' ended rfl).2
  | killed earlier home run => cases (List.append_inj' ended rfl).2
  | finished earlier home run =>
      cases (List.append_inj' ended rfl).2
      exact (installAutostartEntry_keeps home).runs run

/-- However often the agent starts, wherever its starts fail or are killed, and whatever the
user does to the entry between them: the entry is the user's or the whole one of a start
since; one that the user disabled stays, as long as it can be read; the agent never disables
it; and a start that succeeds leaves it disabled by the user or with its own executable. -/
theorem autostart_follows_user (path : List Char) (first after : Disk (List Char))
    (steps : List AutostartStep) (history : AutostartHistory path first steps after)
    (plain : ∀ host events result exe, .start host events result ∈ steps →
      host.currentExe = .ok exe → lineFeed ∉ (host.exec exe).toList) :
    (textOf after path = (lastEdit (textOf first path) steps).1 ∨
      ∃ step ∈ (lastEdit (textOf first path) steps).2, ∃ entry,
        step.Writes entry ∧ textOf after path = some entry) ∧
    (∀ text, (lastEdit (textOf first path) steps).1 = some text →
      autostartIsUserDisabled text = true →
      (∀ step ∈ (lastEdit (textOf first path) steps).2, ¬ step.Unread path) →
        textOf after path = some text) ∧
    (DisabledAt after path → textOf after path = (lastEdit (textOf first path) steps).1) ∧
    (∀ earlier host events, steps = earlier ++ [.start host events (some (.ok ()))] →
      DisabledAt after path ∨ ∃ entry, host.Writes entry ∧ textOf after path = some entry) := by
  have follows := history.follows
  refine ⟨follows.imp_right And.left, ?_, ?_, fun earlier host events => history.outcome⟩
  · intro text chosen disables heeded
    rcases follows with user | ⟨_, unread⟩
    · exact user.trans chosen
    · obtain ⟨step, member, failed⟩ := unread ⟨text, chosen, disables⟩
      exact absurd failed (heeded step member)
  · rintro ⟨text, shown, disables⟩
    rcases follows with user | ⟨⟨step, member, entry, writes, written⟩, _⟩
    · exact user
    · cases step with
      | edit text => exact writes.elim
      | start host events result =>
          -- No entry of the agent's own disables itself.
          obtain ⟨exe, running, rfl⟩ := writes
          have enabled := not_disabled
            (plain host events result exe (mem_of_mem_lastEdit member) running)
          rw [written] at shown
          obtain rfl := Option.some.inj shown
          rw [enabled] at disables
          cases disables

private def noImage (effect : UpdateEffect) : effect.Reply := by
  cases effect <;> exact default

private def adasStart : AutostartHost where
  configDir := some "/home/ada/.config".toList
  currentExe := .ok "/usr/bin/KlaayGuard"
  reading := noImage

private def adasEntry : List Char := autostartPath "/home/ada/.config".toList

private def turnedOff : String :=
  "[Desktop Entry]\nExec=/usr/bin/KlaayGuard\nX-GNOME-Autostart-enabled = false\n"

private theorem turnedOff_disables : autostartIsUserDisabled turnedOff = true := by
  decide +kernel

private def editedDisk : Disk (List Char) :=
  Disk.put (fun _ => none) adasEntry (some ⟨asBytes turnedOff, 0o644⟩)

private theorem editedDisk_text : textOf editedDisk adasEntry = some turnedOff := by
  unfold textOf editedDisk
  rw [Disk.put_self]
  exact fromUtf8_asBytes turnedOff

private def leftAlone : List AutostartEvent :=
  [⟨.configDir, some "/home/ada/.config".toList⟩, ⟨.currentExe, .ok "/usr/bin/KlaayGuard"⟩,
    ⟨.reading (.readVar "APPIMAGE"), none⟩, ⟨.readToString adasEntry, .ok turnedOff⟩,
    ⟨.info "autostart: user disabled the entry; leaving it", ()⟩]

private theorem leftAlone_runs : Prog.Runs (performsAutostart adasStart) installAutostartEntry
    editedDisk leftAlone editedDisk (.ok ()) := by
  have leaves : Prog.Runs (performsAutostart adasStart)
      (refreshAutostartEntry adasEntry (autostartEntry "/usr/bin/KlaayGuard")) editedDisk
      (leftAlone.drop 3) editedDisk (.ok ()) := by
    apply Prog.runs_perform_bind.mpr
    refine ⟨.ok turnedOff, editedDisk, _, ⟨editedDisk_text, rfl⟩, rfl, ?_⟩
    simp only [if_pos turnedOff_disables]
    exact .act rfl (.done _ _)
  exact .act ⟨rfl, rfl⟩ (.act ⟨rfl, rfl⟩ (.act ⟨rfl, rfl⟩ leaves))

theorem autostart_follows_ada : ∃ steps after,
    AutostartHistory adasEntry (fun _ => none) steps after ∧
      textOf after adasEntry = some turnedOff := by
  have home : ∀ configDir, adasStart.configDir = some configDir →
      autostartPath configDir = adasEntry := by
    intro configDir configured
    obtain rfl := Option.some.inj configured
    rfl
  have edited : AutostartHistory adasEntry (fun _ => none) [.edit (some turnedOff)] editedDisk :=
    .edited .begun editedDisk_text
  have history := edited.finished home leftAlone_runs
  have plain : lineFeed ∉ (adasStart.exec "/usr/bin/KlaayGuard").toList := by decide +kernel
  refine ⟨_, _, history, ?_⟩
  refine (autostart_follows_user _ _ _ _ history ?_).2.1 turnedOff rfl turnedOff_disables ?_
  · intro host events result exe member running
    rcases List.mem_cons.mp member with same | member
    · cases same
    · cases List.mem_singleton.mp member
      cases running
      exact plain
  · intro step member unread
    cases List.mem_singleton.mp member
    revert unread
    simp [AutostartStep.Unread, EntryUnread, leftAlone]

end KlaayGuard
