/-
Reading back what the kernel writes to `/proc/mounts`.

The kernel separates fields with a space and escapes the blanks of ASCII it knows
about.  The parser separates them at every blank of Unicode.  So a mount survives the
way through exactly where the two agree on what the fields are.
-/

import KlaayGuard.DiskEncryption
import KlaayGuard.Library.Utf8Lossy

set_option autoImplicit false

namespace KlaayGuard

open RustText

/-- Space, tab, line feed and backslash. -/
def mustEscape (c : Char) : Bool :=
  c == ' ' || c == Char.ofNat 9 || c == Char.ofNat 10 || c == Char.ofNat 92

/-- Some kernels escape `#` and the bytes outside ASCII too.  A line that is text has all bytes of
a character escaped, or none. -/
def mayEscape (c : Char) : Bool := mustEscape c || c == '#' || !isAscii c

def octalDigit (value : Nat) : Char := Char.ofNat (48 + value)

/-- A byte as a backslash and three octal digits. -/
def octalEscape (byte : UInt8) : List Char :=
  [Char.ofNat 92, octalDigit (byte.toNat / 64), octalDigit (byte.toNat / 8 % 8),
    octalDigit (byte.toNat % 8)]

/-- The kernel may write the text of a field so. -/
inductive Renders : List Char → List Char → Prop where
  | nil : Renders [] []
  | plain {c : Char} {text out : List Char} (left : mustEscape c = false) :
      Renders text out → Renders (c :: text) (c :: out)
  | escaped {c : Char} {text out : List Char} (marked : mayEscape c = true) :
      Renders text out →
      Renders (c :: text) ((String.utf8EncodeChar c).flatMap octalEscape ++ out)

structure WrittenMount : Type where
  device : List Char
  mountpoint : List Char
  fstype : List Char
  options : List Char
  deviceField : List Char
  mountpointField : List Char
  optionsField : List Char
  dump : List Char
  pass : List Char
  deviceNonempty : device ≠ []
  mountpointNonempty : mountpoint ≠ []
  mountpointPath : ∀ c ∈ mountpoint, c.toNat ≠ 0
  fstypeNonempty : fstype ≠ []
  fstypePlain : ∀ c ∈ fstype, isAsciiAlphanumeric c = true ∨ c = '.'
  deviceWritten : Renders device deviceField
  mountpointWritten : Renders mountpoint mountpointField
  optionsWritten : Renders options optionsField
  dumpNonempty : dump ≠ []
  dumpDigits : ∀ c ∈ dump, isAsciiDigit c = true
  passNonempty : pass ≠ []
  passDigits : ∀ c ∈ pass, isAsciiDigit c = true

namespace WrittenMount

def rest (mount : WrittenMount) : List Char :=
  mount.optionsField ++ ' ' :: (mount.dump ++ ' ' :: mount.pass)

def line (mount : WrittenMount) : List Char :=
  mount.deviceField ++ ' ' :: (mount.mountpointField ++ ' ' :: (mount.fstype ++ ' ' :: mount.rest))

def entry (mount : WrittenMount) : MountEntry :=
  { mountpoint := String.ofList mount.mountpoint, fstype := String.ofList mount.fstype }

/-- Cut at every blank, the line has a rendering of the mountpoint second and the type third. -/
def InPlace (mount : WrittenMount) : Prop :=
  ∃ first second more, splitWhitespace mount.line = first :: second :: mount.fstype :: more ∧
    Renders mount.mountpoint second

/-- The kernel left no blank in the mountpoint as it is.  Where it did so in the device that the
device is not one word, only a coincidence helps: some of those words, or of what stands
behind the mountpoint, are the mountpoint and the type. -/
def Legible (mount : WrittenMount) : Prop :=
  if (splitWhitespace mount.deviceField).length = 1 then
    ∀ c ∈ mount.mountpointField, isWhitespace c = false
  else mount.InPlace

end WrittenMount

private theorem toNat_octalDigit {value : Nat} (small : value < 8) :
    (octalDigit value).toNat = 48 + value := by
  have each : ∀ value < 8, (octalDigit value).toNat = 48 + value := by decide
  exact each value small

private theorem isOctalDigit_octalDigit {value : Nat} (small : value < 8) :
    isOctalDigit (octalDigit value) = true := by
  rw [isOctalDigit, toNat_octalDigit small]
  simp
  omega

private theorem not_blank_octalDigit {value : Nat} (small : value < 8) :
    isWhitespace (octalDigit value) = false := by
  have each : ∀ value < 8, isWhitespace (octalDigit value) = false := by decide
  exact each value small

theorem not_blank_octalEscape (byte : UInt8) :
    ∀ c ∈ octalEscape byte, isWhitespace c = false := by
  have small := byte.toNat_lt_size
  change byte.toNat < 256 at small
  simp only [octalEscape, List.forall_mem_cons, List.not_mem_nil, false_implies, implies_true,
    and_true]
  exact ⟨by decide, not_blank_octalDigit (by omega), not_blank_octalDigit (by omega),
    not_blank_octalDigit (by omega)⟩

theorem unescapeBytes_octalEscape (byte : UInt8) (rest : List Char) :
    unescapeBytes (octalEscape byte ++ rest) = byte :: unescapeBytes rest := by
  have small := byte.toNat_lt_size
  change byte.toNat < 256 at small
  have value : octalValue (octalDigit (byte.toNat / 64)) (octalDigit (byte.toNat / 8 % 8))
      (octalDigit (byte.toNat % 8)) = byte.toNat := by
    rw [octalValue, toNat_octalDigit (by omega), toNat_octalDigit (by omega),
      toNat_octalDigit (by omega)]
    omega
  rw [octalEscape, List.cons_append, List.cons_append, List.cons_append, List.cons_append,
    List.nil_append, unescapeBytes, if_pos, value, UInt8.ofNat_toNat]
  exact ⟨rfl, isOctalDigit_octalDigit (by omega), isOctalDigit_octalDigit (by omega),
    isOctalDigit_octalDigit (by omega), by omega⟩

theorem unescapeBytes_plain {c : Char} (plain : c ≠ Char.ofNat 92) (rest : List Char) :
    unescapeBytes (c :: rest) = String.utf8EncodeChar c ++ unescapeBytes rest := by
  rcases rest with _ | ⟨x, _ | ⟨y, _ | ⟨z, rest⟩⟩⟩
  · rfl
  · rfl
  · rfl
  · rw [unescapeBytes, if_neg]
    exact fun escape => plain escape.1

private theorem unescapeBytes_escapes (bytes : List UInt8) (rest : List Char) :
    unescapeBytes (bytes.flatMap octalEscape ++ rest) = bytes ++ unescapeBytes rest := by
  induction bytes with
  | nil => rfl
  | cons byte bytes ih =>
      rw [List.flatMap_cons, List.append_assoc, unescapeBytes_octalEscape, ih]
      rfl

theorem Renders.unescapeBytes {text out : List Char} (renders : Renders text out) :
    KlaayGuard.unescapeBytes out = text.flatMap String.utf8EncodeChar := by
  induction renders with
  | nil => rfl
  | @plain c text out left _ ih =>
      have plain : c ≠ Char.ofNat 92 := by
        intro backslash
        rw [backslash] at left
        exact absurd left (by decide)
      rw [unescapeBytes_plain plain, ih, List.flatMap_cons]
  | escaped _ _ ih => rw [unescapeBytes_escapes, ih, List.flatMap_cons]

theorem Renders.unescape {text out : List Char} (renders : Renders text out) :
    KlaayGuard.unescape out = String.ofList text := by
  rw [KlaayGuard.unescape, renders.unescapeBytes, fromUtf8Lossy_encoded]

theorem Renders.iff_unescape {part word text : List Char} (renders : Renders part word) :
    Renders text word ↔ KlaayGuard.unescape word = String.ofList text := by
  constructor
  · exact Renders.unescape
  · intro decoded
    rw [renders.unescape, String.ofList_inj] at decoded
    exact decoded ▸ renders

theorem Renders.unique {text other out : List Char} (renders : Renders text out)
    (again : Renders other out) : text = other := by
  have decoded := renders.unescape.symm.trans again.unescape
  exact String.ofList_inj.mp decoded

theorem Renders.of_plain {text : List Char} (plain : ∀ c ∈ text, mustEscape c = false) :
    Renders text text := by
  induction text with
  | nil => exact .nil
  | cons c text ih =>
      have later := ih fun other member => plain other (List.mem_cons_of_mem _ member)
      exact .plain (plain c List.mem_cons_self) later

theorem Renders.ne_nil {text out : List Char} (renders : Renders text out) (nonempty : text ≠ []) :
    out ≠ [] := by
  intro empty
  rw [empty] at renders
  exact nonempty (renders.unique .nil)

theorem Renders.mem_of_blank {text out : List Char} (renders : Renders text out) {blank : Char}
    (isBlank : isWhitespace blank = true) (member : blank ∈ out) :
    blank ∈ text ∧ mustEscape blank = false := by
  induction renders with
  | nil => cases member
  | plain left _ ih =>
      rcases List.mem_cons.mp member with rfl | later
      · exact ⟨List.mem_cons_self, left⟩
      · exact ⟨List.mem_cons_of_mem _ (ih later).1, (ih later).2⟩
  | escaped _ _ ih =>
      rcases List.mem_append.mp member with inEscape | later
      · obtain ⟨byte, _, inByte⟩ := List.mem_flatMap.mp inEscape
        rw [not_blank_octalEscape byte blank inByte] at isBlank
        cases isBlank
      · exact ⟨List.mem_cons_of_mem _ (ih later).1, (ih later).2⟩

theorem Renders.feed_not_mem {text out : List Char} (renders : Renders text out) :
    Char.ofNat 10 ∉ out := by
  intro member
  have left := (renders.mem_of_blank (by decide) member).2
  exact absurd left (by decide)

def IsRenderedPiece (text out piece : List Char) : Prop :=
  ∃ part, Renders part piece ∧ part.length ≤ text.length ∧
    ((∃ c ∈ out, isWhitespace c = true) → part.length < text.length)

private theorem isRenderedPiece_grown {c : Char} {text front out : List Char}
    (whole : ∀ x ∈ front, isWhitespace x = false)
    (grown : ∀ {part rendered}, Renders part rendered → Renders (c :: part) (front ++ rendered))
    (pieces : ∀ piece ∈ out.splitOnP isWhitespace, IsRenderedPiece text out piece) :
    ∀ piece ∈ (front ++ out).splitOnP isWhitespace,
      IsRenderedPiece (c :: text) (front ++ out) piece := by
  have cutsBehind : (∃ x ∈ front ++ out, isWhitespace x = true) →
      ∃ x ∈ out, isWhitespace x = true := by
    intro ⟨x, member, blank⟩
    rcases List.mem_append.mp member with inFront | behind
    · rw [whole x inFront] at blank
      cases blank
    · exact ⟨x, behind, blank⟩
  intro piece member
  rw [splitOnP_append_whole whole] at member
  cases atOut : out.splitOnP isWhitespace with
  | nil => exact absurd atOut (List.splitOnP_ne_nil _ _)
  | cons first others =>
      rw [atOut] at pieces
      rw [atOut, List.modifyHead_cons] at member
      rcases List.mem_cons.mp member with rfl | later
      · obtain ⟨part, renders, fits, shorter⟩ := pieces first List.mem_cons_self
        exact ⟨c :: part, grown renders, Nat.succ_le_succ fits,
          fun cut => Nat.succ_lt_succ (shorter (cutsBehind cut))⟩
      · obtain ⟨part, renders, fits, _⟩ := pieces piece (List.mem_cons_of_mem _ later)
        exact ⟨part, renders, Nat.le_succ_of_le fits, fun _ => Nat.lt_succ_of_le fits⟩

theorem Renders.pieces {text out : List Char} (renders : Renders text out) :
    ∀ piece ∈ out.splitOnP isWhitespace, IsRenderedPiece text out piece := by
  induction renders with
  | nil =>
      intro piece member
      rw [List.splitOnP_nil, List.mem_singleton] at member
      rw [member]
      exact ⟨[], .nil, Nat.le_refl _, fun cut => by simp at cut⟩
  | @plain c text out left renders ih =>
      by_cases blank : isWhitespace c = true
      · intro piece member
        rw [List.splitOnP_cons_eq_if_modifyHead, if_pos blank] at member
        rcases List.mem_cons.mp member with rfl | later
        · exact ⟨[], .nil, Nat.zero_le _, fun _ => Nat.succ_pos _⟩
        · obtain ⟨part, rendered, fits, _⟩ := ih piece later
          exact ⟨part, rendered, Nat.le_succ_of_le fits, fun _ => Nat.lt_succ_of_le fits⟩
      · have whole : ∀ x ∈ [c], isWhitespace x = false := by simpa using blank
        exact isRenderedPiece_grown whole (fun rendered => .plain left rendered) ih
  | @escaped c text out marked renders ih =>
      have whole : ∀ x ∈ (String.utf8EncodeChar c).flatMap octalEscape, isWhitespace x = false := by
        intro x member
        obtain ⟨byte, _, inByte⟩ := List.mem_flatMap.mp member
        exact not_blank_octalEscape byte x inByte
      exact isRenderedPiece_grown whole (fun rendered => .escaped marked rendered) ih

theorem Renders.word {text out word : List Char} (renders : Renders text out)
    (member : word ∈ splitWhitespace out) : IsRenderedPiece text out word :=
  renders.pieces word (List.mem_of_mem_filter member)

/-! ### The words of a line -/

theorem plain_of_range {c : Char} (low : 33 ≤ c.toNat) (high : c.toNat ≤ 126)
    (notBackslash : c.toNat ≠ 92) : isWhitespace c = false ∧ mustEscape c = false := by
  have notControl : ∀ control : Char, control.toNat < 33 → c ≠ control := by
    rintro control small rfl
    omega
  have backslash : c ≠ Char.ofNat 92 := by
    rintro rfl
    exact notBackslash rfl
  constructor
  · exact not_isWhitespace_of_printable low high
  · simp [mustEscape, backslash, notControl ' ' (by decide),
      notControl (Char.ofNat 9) (by decide), notControl (Char.ofNat 10) (by decide)]

private theorem plain_of_digit {c : Char} (digit : isAsciiDigit c = true) :
    isWhitespace c = false ∧ mustEscape c = false := by
  simp [isAsciiDigit] at digit
  exact plain_of_range (by omega) (by omega) (by omega)

namespace WrittenMount

variable (mount : WrittenMount)

theorem fstype_plain : ∀ c ∈ mount.fstype, isWhitespace c = false ∧ mustEscape c = false := by
  intro c member
  rcases mount.fstypePlain c member with alphanumeric | rfl
  · obtain ⟨low, high, notBackslash⟩ := printable_of_isAsciiAlphanumeric alphanumeric
    exact plain_of_range (by omega) (by omega) notBackslash
  · decide

theorem words_line :
    splitWhitespace mount.line = splitWhitespace mount.deviceField ++
      (splitWhitespace mount.mountpointField ++
        mount.fstype :: (splitWhitespace mount.optionsField ++ [mount.dump, mount.pass])) := by
  have fstype := splitWhitespace_word mount.fstypeNonempty
    fun c member => (mount.fstype_plain c member).1
  have dump := splitWhitespace_word mount.dumpNonempty
    fun c member => (plain_of_digit (mount.dumpDigits c member)).1
  have pass := splitWhitespace_word mount.passNonempty
    fun c member => (plain_of_digit (mount.passDigits c member)).1
  have space : isWhitespace ' ' = true := by decide
  rw [line, rest, splitWhitespace_append _ _ space, splitWhitespace_append _ _ space,
    splitWhitespace_append _ _ space, splitWhitespace_append _ _ space,
    splitWhitespace_append _ _ space, fstype, dump, pass]
  rfl

theorem three_words :
    ∃ first second third more, splitWhitespace mount.line = first :: second :: third :: more := by
  have enough : 3 ≤ (splitWhitespace mount.line).length := by
    simp only [words_line, List.length_append, List.length_cons]
    omega
  generalize splitWhitespace mount.line = words at enough
  rcases words with _ | ⟨first, _ | ⟨second, _ | ⟨third, more⟩⟩⟩
  · simp at enough
  · simp at enough
  · simp at enough
  · exact ⟨first, second, third, more, rfl⟩

theorem renders_word {word : List Char} (member : word ∈ splitWhitespace mount.line) :
    ∃ part, Renders part word := by
  have inField : ∀ {text out}, Renders text out → word ∈ splitWhitespace out →
      ∃ part, Renders part word := by
    intro text out renders inOut
    obtain ⟨part, rendered, _⟩ := renders.word inOut
    exact ⟨part, rendered⟩
  rw [words_line, List.mem_append, List.mem_append, List.mem_cons, List.mem_append,
    List.mem_cons, List.mem_singleton] at member
  rcases member with device | mountpoint | rfl | options | rfl | rfl
  · exact inField mount.deviceWritten device
  · exact inField mount.mountpointWritten mountpoint
  · exact ⟨_, .of_plain fun c inType => (mount.fstype_plain c inType).2⟩
  · exact inField mount.optionsWritten options
  · exact ⟨_, .of_plain fun c inDump => (plain_of_digit (mount.dumpDigits c inDump)).2⟩
  · exact ⟨_, .of_plain fun c inPass => (plain_of_digit (mount.passDigits c inPass)).2⟩

theorem inPlace_of_whole (oneWord : (splitWhitespace mount.deviceField).length = 1)
    (whole : ∀ c ∈ mount.mountpointField, isWhitespace c = false) : mount.InPlace := by
  obtain ⟨device, atDevice⟩ := List.length_eq_one_iff.mp oneWord
  have nonempty := mount.mountpointWritten.ne_nil mount.mountpointNonempty
  rw [InPlace, words_line, atDevice, splitWhitespace_word nonempty whole]
  exact ⟨_, _, _, rfl, mount.mountpointWritten⟩

/-- Behind a device of one word, a mountpoint with a blank is cut into words too short to be it, or
into none, and then the type stands in its place. -/
theorem whole_of_inPlace (oneWord : (splitWhitespace mount.deviceField).length = 1)
    (inPlace : mount.InPlace) : ∀ c ∈ mount.mountpointField, isWhitespace c = false := by
  obtain ⟨device, atDevice⟩ := List.length_eq_one_iff.mp oneWord
  obtain ⟨first, second, more, words, renders⟩ := inPlace
  intro c member
  by_contra blank
  rw [Bool.not_eq_false] at blank
  rw [words_line, atDevice, List.singleton_append] at words
  have behind := List.tail_eq_of_cons_eq words
  cases pieces : splitWhitespace mount.mountpointField with
  | nil =>
      rw [pieces] at behind
      have isType : mount.fstype = second := List.head_eq_of_cons_eq behind
      have typeWritten := Renders.of_plain fun c inType => (mount.fstype_plain c inType).2
      rw [← isType] at renders
      have inMountpoint := (mount.mountpointWritten.mem_of_blank blank member).1
      rw [renders.unique typeWritten] at inMountpoint
      rw [(mount.fstype_plain c inMountpoint).1] at blank
      cases blank
  | cons piece others =>
      rw [pieces] at behind
      have isPiece : piece = second := List.head_eq_of_cons_eq behind
      obtain ⟨part, rendered, _, shorter⟩ :=
        mount.mountpointWritten.word (pieces ▸ List.mem_cons_self)
      rw [← isPiece] at renders
      have cut := shorter ⟨c, member, blank⟩
      rw [renders.unique rendered] at cut
      exact Nat.lt_irrefl _ cut

theorem legible_iff_inPlace : mount.Legible ↔ mount.InPlace := by
  rw [Legible]
  split
  · rename_i oneWord
    exact ⟨mount.inPlace_of_whole oneWord, mount.whole_of_inPlace oneWord⟩
  · exact Iff.rfl

theorem legible_iff_entry {first second third : List Char} {more : List (List Char)}
    (words : splitWhitespace mount.line = first :: second :: third :: more) :
    mount.Legible ↔
      ({ mountpoint := unescape second, fstype := String.ofList third } : MountEntry) =
        mount.entry := by
  have isWord : second ∈ splitWhitespace mount.line := by
    rw [words]
    exact List.mem_cons_of_mem _ List.mem_cons_self
  obtain ⟨part, rendered⟩ := mount.renders_word isWord
  rw [legible_iff_inPlace, entry, MountEntry.mk.injEq, ← rendered.iff_unescape, String.ofList_inj,
    InPlace, words]
  constructor
  · rintro ⟨_, _, _, same, renders⟩
    obtain ⟨rfl, rfl, rfl, rfl⟩ := same
    exact ⟨renders, rfl⟩
  · rintro ⟨renders, rfl⟩
    exact ⟨_, _, _, rfl, renders⟩

theorem feed_not_mem_line : Char.ofNat 10 ∉ mount.line := by
  have plain : ∀ {text : List Char}, (∀ c ∈ text, isWhitespace c = false) → Char.ofNat 10 ∉ text :=
    fun noBlank member => absurd (noBlank _ member) (by decide)
  have fstype := plain fun c member => (mount.fstype_plain c member).1
  have dump := plain fun c member => (plain_of_digit (mount.dumpDigits c member)).1
  have pass := plain fun c member => (plain_of_digit (mount.passDigits c member)).1
  have space : Char.ofNat 10 ≠ ' ' := by decide
  simp only [line, rest, List.mem_append, List.mem_cons, mount.deviceWritten.feed_not_mem,
    mount.mountpointWritten.feed_not_mem, mount.optionsWritten.feed_not_mem, fstype, dump, pass,
    space, or_self, not_false_eq_true]

theorem getLast?_line : mount.line.getLast? ≠ some (Char.ofNat 13) := by
  intro atEnd
  have split : mount.line = (mount.deviceField ++ ' ' :: (mount.mountpointField ++
      ' ' :: (mount.fstype ++ ' ' :: (mount.optionsField ++ ' ' :: (mount.dump ++ [' ']))))) ++
        mount.pass := by
    simp [line, rest]
  rw [split, List.getLast?_append_of_ne_nil _ mount.passNonempty] at atEnd
  have digit := mount.passDigits _ (List.mem_of_getLast? atEnd)
  exact absurd digit (by decide)

end WrittenMount

def procMountsText (mounts : List WrittenMount) : String :=
  String.ofList (mounts.flatMap fun mount => mount.line ++ [Char.ofNat 10])

theorem lines_procMountsText (mounts : List WrittenMount) :
    lines (procMountsText mounts).toList = mounts.map WrittenMount.line := by
  have whole : ∀ line ∈ mounts.map WrittenMount.line,
      Char.ofNat 10 ∉ line ∧ line.getLast? ≠ some (Char.ofNat 13) := by
    intro line member
    obtain ⟨mount, _, rfl⟩ := List.mem_map.mp member
    exact ⟨mount.feed_not_mem_line, mount.getLast?_line⟩
  rw [procMountsText, String.toList_ofList, ← lines_of_ended whole, List.flatMap_map]

/-- The mounts of the table come back, in order, exactly when the parser can read each of them. -/
theorem parseProcMounts_procMountsText (mounts : List WrittenMount) :
    parseProcMounts (procMountsText mounts) = mounts.map WrittenMount.entry ↔
      ∀ mount ∈ mounts, mount.Legible := by
  rw [parseProcMounts, lines_procMountsText]
  induction mounts with
  | nil => simp
  | cons mount rest ih =>
      obtain ⟨first, second, third, more, words⟩ := mount.three_words
      rw [List.map_cons, List.filterMap_cons, words, List.map_cons, List.cons.injEq, ih,
        List.forall_mem_cons, mount.legible_iff_entry words]

/-- A volume named with a no-break space, which the kernel leaves as it is. -/
def namedVolume : WrittenMount where
  device := "/dev/sdb1".toList
  mountpoint := "/mnt/my".toList ++ Char.ofNat 0xA0 :: "disk".toList
  fstype := "ext4".toList
  options := "rw".toList
  deviceField := "/dev/sdb1".toList
  mountpointField := "/mnt/my".toList ++ Char.ofNat 0xA0 :: "disk".toList
  optionsField := "rw".toList
  dump := ['0']
  pass := ['0']
  deviceNonempty := by decide
  mountpointNonempty := by decide
  mountpointPath := by simp
  fstypeNonempty := by decide
  fstypePlain := by simp [isAsciiAlphanumeric, isAsciiLetter, isAsciiDigit]
  deviceWritten := .of_plain (by simp [mustEscape])
  mountpointWritten := .of_plain (by simp [mustEscape])
  optionsWritten := .of_plain (by simp [mustEscape])
  dumpNonempty := by decide
  dumpDigits := by simp [isAsciiDigit]
  passNonempty := by decide
  passDigits := by simp [isAsciiDigit]

/-- It comes back as a mount of type `disk` at another place. -/
theorem parseProcMounts_namedVolume :
    parseProcMounts (procMountsText [namedVolume]) =
        [{ mountpoint := "/mnt/my", fstype := "disk" }] ∧
      parseProcMounts (procMountsText [namedVolume]) ≠ [namedVolume].map WrittenMount.entry := by
  decide +kernel

end KlaayGuard
