/-
The LaunchAgent of the macOS build, rendered from its template.

The template is filled by one replacement after the other, so a value is itself searched
for the placeholders that come later.  No placeholder holds an angle bracket and neither
does an escaped value, so whatever a value becomes, it stays inside the element it was
put into.
-/

import KlaayGuard.Library.XmlText

set_option autoImplicit false

namespace KlaayGuard

open RustText XmlText

def xmlEscape (s : List Char) : List Char :=
  let s := replace ['&'] "&amp;".toList s
  let s := replace ['<'] "&lt;".toList s
  let s := replace ['>'] "&gt;".toList s
  let s := replace [quote] "&quot;".toList s
  replace [apostrophe] "&apos;".toList s

/-- `resources/com.klaay.klaayguard.plist`, line by line. -/
def plistTemplate : List Char :=
  ([
    "<?xml version=\"1.0\" encoding=\"UTF-8\"?>",
    "<!DOCTYPE plist PUBLIC \"-//Apple//DTD PLIST 1.0//EN\" \"http://www.apple.com/DTDs/PropertyList-1.0.dtd\">",
    "<plist version=\"1.0\">",
    "<dict>",
    "    <key>Label</key>",
    "    <string>__LABEL__</string>",
    "    <key>ProgramArguments</key>",
    "    <array>",
    "        <string>__OPEN_PATH__</string>",
    "        <string>-W</string>",
    "        <string>-g</string>",
    "        <string>-j</string>",
    "        <string>-a</string>",
    "        <string>__APP_PATH__</string>",
    "    </array>",
    "    <key>RunAtLoad</key>",
    "    __RUN_AT_LOAD__",
    "    <key>KeepAlive</key>",
    "    __KEEP_ALIVE__",
    "    <key>ThrottleInterval</key>",
    "    <integer>5</integer>",
    "    <key>LimitLoadToSessionType</key>",
    "    <string>Aqua</string>",
    "    <key>ProcessType</key>",
    "    <string>Interactive</string>",
    "    <key>StandardOutPath</key>",
    "    <string>__LOG_DIR__/klaayguard.log</string>",
    "    <key>StandardErrorPath</key>",
    "    <string>__LOG_DIR__/klaayguard.error.log</string>",
    "    <key>EnvironmentVariables</key>",
    "    <dict>",
    "        <key>KLAAYGUARD_LAUNCHD</key>",
    "        <string>1</string>",
    "        <key>VITE_API_BASE_URL</key>",
    "        <string>__VITE_API_BASE_URL__</string>",
    "    </dict>",
    "</dict>",
    "</plist>",
    ""
  ] : List String).flatMap fun line => line.toList ++ [Char.ofNat 10]

def launchAgentLabel : List Char := "com.klaay.klaayguard".toList

/-- The template with the values that the code fixes filled in. -/
def plistFrame (label : List Char) : List Char :=
  let plist := replace "__LABEL__".toList label plistTemplate
  let plist := replace "__OPEN_PATH__".toList "/usr/bin/open".toList plist
  let plist := replace "__RUN_AT_LOAD__".toList "<true/>".toList plist
  replace "__KEEP_ALIVE__".toList "<true/>".toList plist

def renderLaunchAgentPlist (label appPath logDir apiBase : List Char) : List Char :=
  let plist := replace "__APP_PATH__".toList (xmlEscape appPath) (plistFrame label)
  let plist := replace "__VITE_API_BASE_URL__".toList (xmlEscape apiBase) plist
  replace "__LOG_DIR__".toList (xmlEscape logDir) plist

def stringFor (key : List Char) : List (List Char × List Char) → Option (List Char)
  | (tag, name) :: (closing, gap) :: (kind, text) :: rest =>
      if tag = "key".toList ∧ name = key then
        if kind = "string".toList then some text else none
      else stringFor key ((closing, gap) :: (kind, text) :: rest)
  | _ => none

def valuePlaceholders : List (List Char) :=
  ["__APP_PATH__".toList, "__VITE_API_BASE_URL__".toList, "__LOG_DIR__".toList]

/-- What the fixed part of the document is checked for. -/
structure FrameChecked (frame : List (List Char × List Char)) : Prop where
  tags : ∀ element ∈ frame, ∀ pattern ∈ valuePlaceholders, contains element.1 pattern = false
  texts : ∀ element ∈ frame, '>' ∉ element.2
  keys : ∀ element ∈ frame, element.1 = "key".toList →
    ∀ pattern ∈ valuePlaceholders, contains element.2 pattern = false
  out : stringFor "StandardOutPath".toList frame = some "__LOG_DIR__/klaayguard.log".toList
  err : stringFor "StandardErrorPath".toList frame =
    some "__LOG_DIR__/klaayguard.error.log".toList

theorem frame_checked : FrameChecked (elements (plistFrame launchAgentLabel)) := by
  have checked : (∀ element ∈ elements (plistFrame launchAgentLabel),
      (∀ pattern ∈ valuePlaceholders, contains element.1 pattern = false) ∧ ¬ '>' ∈ element.2 ∧
        (element.1 = "key".toList →
          ∀ pattern ∈ valuePlaceholders, contains element.2 pattern = false)) ∧
      stringFor "StandardOutPath".toList (elements (plistFrame launchAgentLabel)) =
        some "__LOG_DIR__/klaayguard.log".toList ∧
      stringFor "StandardErrorPath".toList (elements (plistFrame launchAgentLabel)) =
        some "__LOG_DIR__/klaayguard.error.log".toList := by
    decide +kernel
  obtain ⟨each, out, err⟩ := checked
  exact ⟨fun element member => (each element member).1,
    fun element member => (each element member).2.1,
    fun element member => (each element member).2.2, out, err⟩

theorem xmlEscape_eq (s : List Char) : xmlEscape s = escape s := by
  simp only [xmlEscape, replace_char, List.flatMap_assoc, escape]
  refine List.flatMap_congr fun c _ => ?_
  rw [escapeChar]
  split_ifs with amp lt gt quot apos
  · subst amp; rfl
  · subst lt; rfl
  · subst gt; rfl
  · subst quot; rfl
  · subst apos; rfl
  · simp only [List.flatMap_cons, List.flatMap_nil, List.append_nil, if_neg lt, if_neg gt,
      if_neg quot, if_neg apos]

theorem unescape_xmlEscape (s : List Char) : XmlText.unescape (xmlEscape s) = some s := by
  rw [xmlEscape_eq, unescape_escape]

private theorem textual_xmlEscape {pattern : List Char} (listed : pattern ∈ valuePlaceholders)
    (value : List Char) : Textual pattern (xmlEscape value) := by
  have plain : ∀ p ∈ valuePlaceholders, p ≠ [] ∧ ¬ '<' ∈ p ∧ ¬ '>' ∈ p := by decide +kernel
  obtain ⟨nonempty, noOpening, noClosing⟩ := plain pattern listed
  rw [xmlEscape_eq]
  exact ⟨nonempty, noOpening, noClosing, (not_mem_escape value).1, (not_mem_escape value).2⟩

section Filling

variable (appPath logDir apiBase : List Char)

def fill (text : List Char) : List Char :=
  replace "__LOG_DIR__".toList (xmlEscape logDir)
    (replace "__VITE_API_BASE_URL__".toList (xmlEscape apiBase)
      (replace "__APP_PATH__".toList (xmlEscape appPath) text))

variable {appPath logDir apiBase}

theorem fill_of_absent {text : List Char}
    (absent : ∀ pattern ∈ valuePlaceholders, contains text pattern = false) :
    fill appPath logDir apiBase text = text := by
  rw [fill, replace_of_absent (absent _ (by simp [valuePlaceholders])),
    replace_of_absent (absent _ (by simp [valuePlaceholders])),
    replace_of_absent (absent _ (by simp [valuePlaceholders]))]

theorem elements_render :
    elements (renderLaunchAgentPlist launchAgentLabel appPath logDir apiBase) =
      (elements (plistFrame launchAgentLabel)).map fun element =>
        (element.1, fill appPath logDir apiBase element.2) := by
  rw [renderLaunchAgentPlist,
    (textual_xmlEscape (by simp [valuePlaceholders]) logDir).elements_replace,
    (textual_xmlEscape (by simp [valuePlaceholders]) apiBase).elements_replace,
    (textual_xmlEscape (by simp [valuePlaceholders]) appPath).elements_replace, List.map_map,
    List.map_map]
  refine List.map_congr_left fun element member => ?_
  exact Prod.ext (fill_of_absent (frame_checked.tags element member)) rfl

theorem tags_render :
    tags (renderLaunchAgentPlist launchAgentLabel appPath logDir apiBase) =
      tags (plistFrame launchAgentLabel) := by
  rw [tags, elements_render, List.map_map]
  rfl

theorem texts_render {element : List Char × List Char}
    (member : element ∈ elements (renderLaunchAgentPlist launchAgentLabel appPath logDir apiBase)) :
    '<' ∉ element.2 ∧ '>' ∉ element.2 := by
  constructor
  · intro opening
    obtain ⟨piece, listed, rfl⟩ := List.mem_map.mp member
    have inPiece := (List.dropWhile_suffix _).mem (List.mem_of_mem_drop opening)
    have apart := (mem_of_mem_splitOnP (List.mem_of_mem_tail listed) inPiece).2
    cases apart
  · rw [elements_render] at member
    obtain ⟨old, listed, rfl⟩ := List.mem_map.mp member
    intro closing
    have escaped : ∀ value, '>' ∉ xmlEscape value := by
      intro value
      rw [xmlEscape_eq]
      exact (not_mem_escape value).2
    rcases mem_replace closing with earlier | new
    · rcases mem_replace earlier with earliest | new
      · rcases mem_replace earliest with fixed | new
        · exact frame_checked.texts old listed fixed
        · exact escaped _ new
      · exact escaped _ new
    · exact escaped _ new

theorem stringFor_fill (key : List Char) {frame : List (List Char × List Char)}
    (fixed : ∀ element ∈ frame, element.1 = "key".toList →
      fill appPath logDir apiBase element.2 = element.2) :
    stringFor key (frame.map fun element => (element.1, fill appPath logDir apiBase element.2)) =
      (stringFor key frame).map (fill appPath logDir apiBase) := by
  induction frame using stringFor.induct key with
  | case1 tag name closing gap text rest found =>
      have here : fill appPath logDir apiBase name = name := fixed _ List.mem_cons_self found.1
      simp only [List.map_cons]
      rw [stringFor, stringFor, here, if_pos found, if_pos found, if_pos rfl, if_pos rfl]
      rfl
  | case2 tag name closing gap kind text rest found other =>
      have here : fill appPath logDir apiBase name = name := fixed _ List.mem_cons_self found.1
      simp only [List.map_cons]
      rw [stringFor, stringFor, here, if_pos found, if_pos found, if_neg other, if_neg other]
      rfl
  | case3 tag name closing gap kind text rest other ih =>
      have later := ih fun element member => fixed element (List.mem_cons_of_mem _ member)
      have elsewhere : ¬ (tag = "key".toList ∧ fill appPath logDir apiBase name = key) := by
        rintro ⟨isKey, named⟩
        have here : fill appPath logDir apiBase name = name := fixed _ List.mem_cons_self isKey
        exact other ⟨isKey, here.symm.trans named⟩
      simp only [List.map_cons] at later ⊢
      rw [stringFor, stringFor, if_neg elsewhere, if_neg other, later]
  | case4 frame short =>
      cases frame with
      | nil => rfl
      | cons first rest =>
          cases rest with
          | nil => rfl
          | cons second rest =>
              cases rest with
              | nil => rfl
              | cons third rest => exact absurd rfl (short _ _ _ _ _ _ _)

end Filling

private theorem unescape_fill_logDir (appPath logDir apiBase : List Char) {file : List Char}
    (noReference : '&' ∉ file)
    (plain : ∀ pattern ∈ valuePlaceholders, contains file pattern = false)
    (whole : ∀ pattern ∈ valuePlaceholders.take 2,
      contains ("__LOG_DIR__".toList ++ file) pattern = false) :
    XmlText.unescape (fill appPath logDir apiBase ("__LOG_DIR__".toList ++ file)) =
      some (logDir ++ file) := by
  rw [fill, replace_of_absent (whole _ (by simp [valuePlaceholders])),
    replace_of_absent (whole _ (by simp [valuePlaceholders])), replace_append (by decide),
    replace_of_absent (plain _ (by simp [valuePlaceholders])), xmlEscape_eq, unescape_escape_append,
    unescape_of_plain noReference, Option.map_some]

/-- Whatever the values hold, the document has the tags of one with empty values, its
strings have no angle bracket, its log paths stand for the two files in the directory,
and escaping can be undone. -/
theorem launch_agent_contains_values (appPath logDir apiBase : List Char) :
    tags (renderLaunchAgentPlist launchAgentLabel appPath logDir apiBase) =
        tags (renderLaunchAgentPlist launchAgentLabel [] [] []) ∧
      (∀ element ∈ elements (renderLaunchAgentPlist launchAgentLabel appPath logDir apiBase),
        element.1 = "string".toList → '<' ∉ element.2 ∧ '>' ∉ element.2) ∧
      (stringFor "StandardOutPath".toList
          (elements (renderLaunchAgentPlist launchAgentLabel appPath logDir apiBase))).bind
        XmlText.unescape = some (logDir ++ "/klaayguard.log".toList) ∧
      (stringFor "StandardErrorPath".toList
          (elements (renderLaunchAgentPlist launchAgentLabel appPath logDir apiBase))).bind
        XmlText.unescape = some (logDir ++ "/klaayguard.error.log".toList) ∧
      ∀ s, XmlText.unescape (xmlEscape s) = some s := by
  have keys : ∀ element ∈ elements (plistFrame launchAgentLabel), element.1 = "key".toList →
      fill appPath logDir apiBase element.2 = element.2 :=
    fun element member isKey => fill_of_absent (frame_checked.keys element member isKey)
  refine ⟨tags_render.trans tags_render.symm, fun element member _ => texts_render member, ?_, ?_,
    unescape_xmlEscape⟩
  · have split : "__LOG_DIR__/klaayguard.log".toList =
        "__LOG_DIR__".toList ++ "/klaayguard.log".toList := by decide +kernel
    rw [elements_render, stringFor_fill _ keys, frame_checked.out, Option.map_some,
      Option.bind_some, split]
    exact unescape_fill_logDir appPath logDir apiBase (by decide) (by decide +kernel)
      (by decide +kernel)
  · have split : "__LOG_DIR__/klaayguard.error.log".toList =
        "__LOG_DIR__".toList ++ "/klaayguard.error.log".toList := by decide +kernel
    rw [elements_render, stringFor_fill _ keys, frame_checked.err, Option.map_some,
      Option.bind_some, split]
    exact unescape_fill_logDir appPath logDir apiBase (by decide) (by decide +kernel)
      (by decide +kernel)

end KlaayGuard
