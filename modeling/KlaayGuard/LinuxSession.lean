/-
A Linux session as the screen-lock check finds it, and what the check makes of it.

Settings are typed values, printed by `gsettings` as GVariant text and by
`xfconf-query` as plain text.  On GNOME, Cinnamon, MATE and XFCE's own screensaver the
row is shown to report the lock that the values describe, whatever else the session holds.
-/

import KlaayGuard.LinuxLock

set_option autoImplicit false

namespace KlaayGuard

open EffectProgram Prog RustInt RustText

inductive Setting : Type where
  | boolean (value : Bool)
  | uint32 (value : UInt32)
  | int32 (value : Int32)

namespace Setting

def asBool : Setting → Option Bool
  | boolean value => some value
  | _ => none

def asNumber : Setting → Option UInt64
  | boolean _ => none
  | uint32 value => some value.toUInt64
  | int32 value => if 0 ≤ value.toInt then some (UInt64.ofNat value.toInt.toNat) else none

def gvariant : Setting → String
  | boolean value => toString value
  | uint32 value => "uint32 " ++ toString value.toNat
  | int32 value => toString value.toInt

def plain : Setting → String
  | boolean value => toString value
  | uint32 value => toString value.toNat
  | int32 value => toString value.toInt

theorem asNumber_lt {setting : Setting} {number : UInt64} (reads : setting.asNumber = some number) :
    number.toNat < UInt32.size := by
  cases setting with
  | boolean value => cases reads
  | uint32 value =>
      obtain rfl := Option.some.inj reads
      exact value.toNat_lt_size
  | int32 value =>
      change (if 0 ≤ value.toInt then some (UInt64.ofNat value.toInt.toNat) else none) = _ at reads
      split at reads
      · obtain rfl := Option.some.inj reads
        have small := value.toInt_lt
        have fits : value.toInt.toNat < UInt64.size := by
          unfold UInt64.size
          omega
        rw [UInt64.toNat_ofNat_of_lt' fits]
        unfold UInt32.size
        omega
      · cases reads

end Setting

theorem decimal_word (n : Nat) : (toString n).toList ≠ [] ∧
    ∀ c ∈ (toString n).toList, isWhitespace c = false := by
  constructor
  · have digits : (toString n).toList = Nat.toDigits 10 n := Nat.toList_repr
    rw [digits]
    exact Nat.toDigits_ne_nil
  · intro c member
    have digit := isAsciiDigit_of_decimal member
    simp only [isAsciiDigit, Bool.and_eq_true, decide_eq_true_eq] at digit
    apply not_isWhitespace_of_printable <;> omega

theorem trim_printed {text : List Char} (nonempty : text ≠ [])
    (first : ∀ c ∈ text.head?, isWhitespace c = false)
    (last : ∀ c ∈ text.getLast?, isWhitespace c = false) :
    trim (text ++ [Char.ofNat 10]) = text :=
  @trim_append [] text [Char.ofNat 10] (fun _ member => absurd member List.not_mem_nil)
    (List.forall_mem_singleton.mpr (by decide)) nonempty first last

theorem trim_printed_word {word : List Char} (nonempty : word ≠ [])
    (plain : ∀ c ∈ word, isWhitespace c = false) : trim (word ++ [Char.ofNat 10]) = word :=
  trim_printed nonempty (fun c atHead => plain c (List.mem_of_head? atHead))
    fun c atLast => plain c (List.mem_of_getLast? atLast)

theorem parseGsettingsBool_none {out : List Char}
    (other : ∀ c ∈ (trim out).head?, c ≠ 't' ∧ c ≠ 'f') : parseGsettingsBool out = none := by
  unfold parseGsettingsBool
  split
  · rename_i same
    have head := congrArg (fun text : String => text.toList.head?) same
    rw [String.toList_ofList] at head
    exact absurd rfl (other 't' head).1
  · rename_i same
    have head := congrArg (fun text : String => text.toList.head?) same
    rw [String.toList_ofList] at head
    exact absurd rfl (other 'f' head).2
  · rfl

theorem parseGsettingsUint_word {out word : List Char} (trimmed : trim out = word)
    (plain : ∀ c ∈ word, isWhitespace c = false) :
    parseGsettingsUint out = parseUInt64 word := by
  unfold parseGsettingsUint
  rw [trimmed, List.splitOnP_eq_singleton plain]
  rfl

/-- A number as it is printed: digits, and a sign where it is negative. -/
inductive Printed : Int → List Char → Prop where
  | digits (n : Nat) : Printed n (toString n).toList
  | negative (n : Nat) : Printed (Int.negSucc n) ('-' :: (toString (n + 1)).toList)

theorem printed_toString (value : Int) : Printed value (toString value).toList := by
  cases value with
  | ofNat n => exact .digits n
  | negSucc n =>
      have text : (toString (Int.negSucc n)).toList = '-' :: (toString (n + 1)).toList :=
        String.toList_append
      rw [text]
      exact .negative n

namespace Printed

variable {value : Int} {text : List Char}

theorem word (printed : Printed value text) :
    text ≠ [] ∧ ∀ c ∈ text, isWhitespace c = false := by
  cases printed with
  | digits n => exact decimal_word n
  | negative n =>
      refine ⟨nofun, fun c member => ?_⟩
      rcases List.mem_cons.mp member with rfl | member
      · decide
      · exact (decimal_word (n + 1)).2 c member

theorem head (printed : Printed value text) : ∀ c ∈ text.head?, c ≠ 't' ∧ c ≠ 'f' := by
  cases printed with
  | digits n =>
      intro c atHead
      have digit := isAsciiDigit_of_decimal (List.mem_of_head? atHead)
      constructor
      · rintro rfl
        exact absurd digit (by decide)
      · rintro rfl
        exact absurd digit (by decide)
  | negative n =>
      intro c atHead
      obtain rfl := Option.some.inj atHead
      decide

theorem parsed (printed : Printed value text) (small : value < UInt32.size) :
    parseUInt64 text = if 0 ≤ value then some (UInt64.ofNat value.toNat) else none := by
  unfold parseUInt64
  cases printed with
  | digits n =>
      have fits : n < UInt64.size := Nat.lt_trans (Int.ofNat_lt.mp small) (by decide)
      rw [parseU64_decimal fits, if_pos (Int.natCast_nonneg n)]
      rfl
  | negative n =>
      have signed : parseU64 ('-' :: (toString (n + 1)).toList) = none := by
        unfold parseU64
        have unsigned : ('-' :: (toString (n + 1)).toList).head? ≠ some '+' := nofun
        simp only [if_neg unsigned]
        refine if_neg ?_
        rintro ⟨_, every, _⟩
        rw [List.all_cons, Bool.and_eq_true] at every
        exact absurd every.1 (by decide)
      rw [signed, if_neg (Int.not_le.mpr (Int.negSucc_lt_zero n))]
      rfl

theorem reads (printed : Printed value text) (small : value < UInt32.size) :
    parseGsettingsBool (text ++ [Char.ofNat 10]) = none ∧
      parseGsettingsUint (text ++ [Char.ofNat 10]) =
        if 0 ≤ value then some (UInt64.ofNat value.toNat) else none := by
  have trimmed := trim_printed_word printed.word.1 printed.word.2
  constructor
  · apply parseGsettingsBool_none
    rw [trimmed]
    exact printed.head
  · rw [parseGsettingsUint_word trimmed printed.word.2, printed.parsed small]

end Printed

namespace Setting

theorem toNat_lt (value : UInt32) : (value.toNat : Int) < UInt32.size :=
  Int.ofNat_lt.mpr value.toNat_lt_size

theorem toInt_lt (value : Int32) : value.toInt < UInt32.size := by
  have small := value.toInt_lt
  unfold UInt32.size
  omega

theorem ofNat_toNat (value : UInt32) :
    (if (0 : Int) ≤ value.toNat then some (UInt64.ofNat (value.toNat : Int).toNat) else none) =
      some value.toUInt64 := by
  rw [if_pos (Int.natCast_nonneg _), Int.toNat_natCast]
  have fits : value.toNat < UInt64.size := Nat.lt_trans value.toNat_lt_size (by decide)
  apply congrArg some
  rw [← UInt64.toNat_inj, UInt64.toNat_ofNat_of_lt' fits, UInt32.toNat_toUInt64]

/-- `xfconf-query` prints every value so that it is read back as what it is. -/
theorem plain_reads (setting : Setting) :
    parseGsettingsBool (setting.plain.toList ++ [Char.ofNat 10]) = setting.asBool ∧
      parseGsettingsUint (setting.plain.toList ++ [Char.ofNat 10]) = setting.asNumber := by
  cases setting with
  | boolean value => cases value <;> decide
  | uint32 value =>
      have reads := (Printed.digits value.toNat).reads (toNat_lt value)
      rw [ofNat_toNat] at reads
      exact reads
  | int32 value =>
      exact (printed_toString value.toInt).reads (toInt_lt value)

theorem gvariant_reads (setting : Setting) :
    parseGsettingsBool (setting.gvariant.toList ++ [Char.ofNat 10]) = setting.asBool ∧
      parseGsettingsUint (setting.gvariant.toList ++ [Char.ofNat 10]) = setting.asNumber := by
  cases setting with
  | boolean value => cases value <;> decide
  | int32 value =>
      exact (printed_toString value.toInt).reads (toInt_lt value)
  | uint32 value =>
      have digits := decimal_word value.toNat
      have text : (Setting.uint32 value).gvariant.toList =
          "uint32".toList ++ ' ' :: (toString value.toNat).toList := by
        simp [gvariant]
      have trimmed : trim ((Setting.uint32 value).gvariant.toList ++ [Char.ofNat 10]) =
          "uint32".toList ++ ' ' :: (toString value.toNat).toList := by
        rw [text]
        refine trim_printed (by simp) (fun c atHead => ?_) fun c atLast => ?_
        · obtain rfl := Option.some.inj atHead
          decide
        · rw [List.getLast?_append_cons, List.getLast?_cons_of_ne_nil digits.1] at atLast
          exact digits.2 c (List.mem_of_getLast? atLast)
      constructor
      · apply parseGsettingsBool_none
        rw [trimmed]
        intro c atHead
        obtain rfl := Option.some.inj atHead
        decide
      · have reads := (Printed.digits value.toNat).parsed (toNat_lt value)
        rw [ofNat_toNat] at reads
        unfold parseGsettingsUint
        have unsplit : "uint32".toList.any isWhitespace = false := by decide
        have type : ∀ c ∈ "uint32".toList, isWhitespace c = false := fun c member =>
          Bool.eq_false_iff.mpr (List.any_eq_false.mp unsplit c member)
        rw [trimmed, List.splitOnP_append_cons_of_forall_mem type ' ' (by decide),
          List.splitOnP_eq_singleton digits.2]
        exact reads

end Setting

/-! ### A session -/

structure LinuxSession : Type where
  vars : String → Option (List Char)
  isFile : List Char → Bool
  configDir : Option (List Char)
  homeDir : Option (List Char)
  /-- The texts that can be read. -/
  files : List Char → Option (List Char)
  /-- By schema and key, where the schema is installed. -/
  gsettings : String → String → Option Setting
  /-- By channel and property, where it was ever set. -/
  xfconf : String → String → Option Setting
  xset : Option String

namespace LinuxSession

variable (session : LinuxSession)

def printed : Option String → Option CommandStdout
  | none => some ⟨false, []⟩
  | some text => some ⟨true, asBytes (text ++ "\n")⟩

def answerOutput : String → List String → Option CommandStdout
  | "gsettings", ["get", schema, key] => printed ((session.gsettings schema key).map (·.gvariant))
  | "xfconf-query", ["-c", channel, "-p", property] =>
      printed ((session.xfconf channel property).map (·.plain))
  | "xset", ["q"] => session.xset.map fun text => ⟨true, asBytes text⟩
  | _, _ => none

def answer : (action : PostureAction) → action.Reply
  | .readVar name => session.vars name
  | .isFile path => session.isFile path
  | .pathExists path => session.isFile path
  | .configDir => session.configDir
  | .homeDir => session.homeDir
  | .readToString path => session.files path
  | .output program args => session.answerOutput program args

def gsettingsBool (schema key : String) : Option Bool :=
  (session.gsettings schema key).bind Setting.asBool

def gsettingsNumber (schema key : String) : Option UInt64 :=
  (session.gsettings schema key).bind Setting.asNumber

def xfconfBool (property : String) : Option Bool :=
  (session.xfconf "xfce4-screensaver" property).bind Setting.asBool

def xfconfNumber (property : String) : Option UInt64 :=
  (session.xfconf "xfce4-screensaver" property).bind Setting.asNumber

def installed (name : String) : Bool :=
  match session.vars "PATH" with
  | none => false
  | some path => (path.splitOnP (· == ':')).any fun dir => session.isFile (pathJoin dir name.toList)

/-- GNOME's lock, and Cinnamon's: the same keys under another vendor. -/
def gsettingsLock (screensaver idle : String) : IdleLock where
  switches := [session.gsettingsBool screensaver "lock-enabled"]
  idle := (session.gsettingsNumber idle "idle-delay").map UInt64.toNat
  grace := ((session.gsettingsNumber screensaver "lock-delay").getD 0).toNat
  unit := 1

def mateLock : IdleLock where
  switches := [session.gsettingsBool "org.mate.screensaver" "idle-activation-enabled",
    session.gsettingsBool "org.mate.screensaver" "lock-enabled"]
  idle := (session.gsettingsNumber "org.mate.session" "idle-delay").map UInt64.toNat
  grace := ((session.gsettingsNumber "org.mate.screensaver" "lock-delay").getD 0).toNat
  unit := 60

/-- Every key of xfce4-screensaver has a default that locks. -/
def xfceScreensaverLock : IdleLock where
  switches := [some ((session.xfconfBool "/saver/enabled").getD true),
    some ((session.xfconfBool "/saver/idle-activation/enabled").getD true),
    some ((session.xfconfBool "/lock/enabled").getD true),
    some ((session.xfconfBool "/lock/saver-activation/enabled").getD true)]
  idle := some ((session.xfconfNumber "/saver/idle-activation/delay").getD 5).toNat
  grace := ((session.xfconfNumber "/lock/saver-activation/delay").getD 0).toNat
  unit := 60

/-- The lock of the desktop that the session runs, where that keeps its settings in gsettings
or is XFCE with xfce4-screensaver. -/
def settingsLock : Option IdleLock :=
  match detectDesktop (session.vars "XDG_CURRENT_DESKTOP") with
  | .gnome =>
      some (session.gsettingsLock "org.gnome.desktop.screensaver" "org.gnome.desktop.session")
  | .cinnamon =>
      some (session.gsettingsLock "org.cinnamon.desktop.screensaver" "org.cinnamon.desktop.session")
  | .mate => some session.mateLock
  | .xfce => if session.installed "xfce4-screensaver" then some session.xfceScreensaverLock else none
  | _ => none

theorem commandText_printed (text : Option String) :
    commandText (printed text) = text.map fun text => text.toList ++ [Char.ofNat 10] := by
  cases text with
  | none => rfl
  | some text =>
      unfold commandText printed
      rw [Option.filter_some_pos rfl, Option.bind_some, fromUtf8_asBytes]
      simp

theorem gsettingsGet_answered (schema key : String) :
    (gsettingsGet schema key).answered session.answer =
      (session.gsettings schema key).map fun setting =>
        setting.gvariant.toList ++ [Char.ofNat 10] := by
  unfold gsettingsGet
  rw [answered_bind]
  refine (commandText_printed _).trans ?_
  rw [Option.map_map]
  rfl

theorem gsettingsBool_answered (schema key : String) :
    (KlaayGuard.gsettingsBool schema key).answered session.answer =
      session.gsettingsBool schema key := by
  unfold KlaayGuard.gsettingsBool LinuxSession.gsettingsBool
  rw [answered_bind, gsettingsGet_answered, answered_pure]
  cases session.gsettings schema key with
  | none => rfl
  | some setting => exact setting.gvariant_reads.1

theorem gsettingsUint_answered (schema key : String) :
    (gsettingsUint schema key).answered session.answer = session.gsettingsNumber schema key := by
  unfold gsettingsUint gsettingsNumber
  rw [answered_bind, gsettingsGet_answered, answered_pure]
  cases session.gsettings schema key with
  | none => rfl
  | some setting => exact setting.gvariant_reads.2

theorem xfconfGet_answered (channel property : String) :
    (xfconfGet channel property).answered session.answer =
      (session.xfconf channel property).map fun setting =>
        setting.plain.toList ++ [Char.ofNat 10] := by
  unfold xfconfGet
  rw [answered_bind]
  refine (commandText_printed _).trans ?_
  rw [Option.map_map]
  rfl

theorem xfconfBool_answered (property : String) :
    (KlaayGuard.xfconfBool "xfce4-screensaver" property).answered session.answer =
      session.xfconfBool property := by
  unfold KlaayGuard.xfconfBool LinuxSession.xfconfBool
  rw [answered_bind, xfconfGet_answered, answered_pure]
  cases session.xfconf "xfce4-screensaver" property with
  | none => rfl
  | some setting => exact setting.plain_reads.1

theorem xfconfUint_answered (property : String) :
    (xfconfUint "xfce4-screensaver" property).answered session.answer =
      session.xfconfNumber property := by
  unfold xfconfUint xfconfNumber
  rw [answered_bind, xfconfGet_answered, answered_pure]
  cases session.xfconf "xfce4-screensaver" property with
  | none => rfl
  | some setting => exact setting.plain_reads.2

theorem binaryOnPath_answered (name : String) :
    (binaryOnPath name).answered session.answer = session.installed name :=
  KlaayGuard.binaryOnPath_answered session.answer name

theorem number_lt {setting : Option Setting} {default : UInt64}
    (small : default.toNat < UInt32.size) :
    ((setting.bind Setting.asNumber).getD default).toNat < UInt32.size := by
  cases number : setting.bind Setting.asNumber with
  | none => exact small
  | some word =>
      obtain ⟨setting, _, reads⟩ := Option.bind_eq_some_iff.mp number
      exact Setting.asNumber_lt reads

theorem settings_fit {first second : Option Setting} {default : UInt64}
    (small : default.toNat < UInt32.size) :
    (((first.bind Setting.asNumber).getD default).toNat +
      ((second.bind Setting.asNumber).getD 0).toNat) * 60 < UInt64.size := by
  have left : ((first.bind Setting.asNumber).getD default).toNat < UInt32.size := number_lt small
  have right : ((second.bind Setting.asNumber).getD 0).toNat < UInt32.size :=
    number_lt (by decide)
  unfold UInt32.size at left right
  unfold UInt64.size
  omega

variable (checks : OverflowChecks) (parseMinutes : List Char → Option UInt64)

theorem gsettings_reports (de screensaver idle : String) :
    Reports (screenlockRowGsettings checks de (session.gsettingsBool screensaver "lock-enabled")
        (session.gsettingsNumber idle "idle-delay")
        (session.gsettingsNumber screensaver "lock-delay"))
      (session.gsettingsLock screensaver idle).verdict := by
  apply screenlockRowGsettings_reports
  have fits : (((session.gsettingsNumber idle "idle-delay").getD 0).toNat +
      ((session.gsettingsNumber screensaver "lock-delay").getD 0).toNat) * 60 < UInt64.size :=
    settings_fit (by decide)
  omega

theorem collectScreenlock_reports {lock : IdleLock} (kept : session.settingsLock = some lock) :
    Reports ((collectScreenlock checks parseMinutes).answered session.answer) lock.verdict := by
  unfold collectScreenlock
  rw [answered_bind]
  change Reports ((collectScreenlockOf checks parseMinutes
    (detectDesktop (session.vars "XDG_CURRENT_DESKTOP"))).answered session.answer) _
  unfold settingsLock at kept
  cases desktop : detectDesktop (session.vars "XDG_CURRENT_DESKTOP") with
  | gnome =>
      rw [desktop] at kept
      obtain rfl := Option.some.inj kept
      unfold collectScreenlockOf
      simp only [answered_bind, answered_pure, gsettingsBool_answered, gsettingsUint_answered]
      exact session.gsettings_reports checks _ _ _
  | cinnamon =>
      rw [desktop] at kept
      obtain rfl := Option.some.inj kept
      unfold collectScreenlockOf
      simp only [answered_bind, answered_pure, gsettingsBool_answered, gsettingsUint_answered]
      exact session.gsettings_reports checks _ _ _
  | mate =>
      rw [desktop] at kept
      obtain rfl := Option.some.inj kept
      unfold collectScreenlockOf
      simp only [answered_bind, answered_pure, gsettingsBool_answered, gsettingsUint_answered]
      exact screenlockRowMate_reports checks _ _ _ _ (settings_fit (by decide))
  | xfce =>
      rw [desktop] at kept
      obtain ⟨installed, same⟩ := Option.ite_none_right_eq_some.mp kept
      obtain rfl := Option.some.inj same
      unfold collectScreenlockOf collectScreenlockXfce
      rw [answered_bind, binaryOnPath_answered, if_pos installed]
      simp only [answered_bind, answered_pure, xfconfBool_answered, xfconfUint_answered]
      exact screenlockRowXfceScreensaver_reports checks _ _ _ _ _ _ (settings_fit (by decide))
  | kde | hyprland | unknown =>
      rw [desktop] at kept
      cases kept

end LinuxSession

/-- In every run in which the session answers, the check of a desktop that keeps its settings in
gsettings or xfconf reports the lock they describe, with the seconds it takes. -/
theorem screenlock_reports_session_lock (session : LinuxSession) (checks : OverflowChecks)
    (parseMinutes : List Char → Option UInt64) {State : Type}
    (semantics : State → (action : PostureAction) → action.Reply → State → Prop)
    (start after : State) (events : List PostureEvent) (result : Option Value) (lock : IdleLock)
    (kept : session.settingsLock = some lock)
    (run : Runs semantics (collectScreenlock checks parseMinutes) start events after result)
    (answers : ∀ event ∈ events, event.reply = session.answer event.action) :
    Reports result lock.verdict := by
  rw [run.answered answers]
  exact session.collectScreenlock_reports checks parseMinutes kept

private def xubuntu : LinuxSession where
  vars := fun name =>
    if name = "XDG_CURRENT_DESKTOP" then some "xubuntu:XFCE".toList
    else if name = "PATH" then some "/usr/local/bin:/usr/bin".toList
    else none
  isFile := fun path => path = "/usr/bin/xfce4-screensaver".toList
  configDir := none
  homeDir := none
  files := fun _ => none
  -- Mint's Cinnamon schemas answer here as well.
  gsettings := fun _ key => if key = "lock-enabled" then some (.boolean false) else none
  xfconf := fun _ property =>
    if property = "/saver/idle-activation/delay" then some (.int32 10)
    else if property = "/lock/saver-activation/delay" then some (.uint32 2)
    else none
  xset := none

theorem screenlock_reports_session_lock_on_xubuntu :
    ∃ events result, Runs (fun (_ : Unit) action reply (_ : Unit) => reply = xubuntu.answer action)
        (collectScreenlock .off fun _ => none) () events () result ∧
      Reports result (.locks 720) := by
  obtain ⟨events, run, answers⟩ :=
    exists_answered_run xubuntu.answer (collectScreenlock .off fun _ => none)
  refine ⟨events, _, run, ?_⟩
  have kept : xubuntu.settingsLock = some xubuntu.xfceScreensaverLock := by
    unfold LinuxSession.settingsLock
    have desktop : detectDesktop (xubuntu.vars "XDG_CURRENT_DESKTOP") = .xfce := by decide +kernel
    have installed : xubuntu.installed "xfce4-screensaver" = true := by decide +kernel
    rw [desktop, if_pos installed]
  have told := screenlock_reports_session_lock xubuntu .off (fun _ => none) _ () () events _ _
    kept run answers
  have locks : xubuntu.xfceScreensaverLock.verdict = .locks 720 := by decide +kernel
  rw [locks] at told
  exact told

end KlaayGuard
