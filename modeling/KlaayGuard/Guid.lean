/-
The registry's active power scheme, a GUID as text.

A text is read exactly where it is the GUID's own text once blanks and braces around it
and the case of its digits are put aside.  Slicing the last two fields never panics,
since whatever is sliced is made of hexadecimal digits.
-/

import KlaayGuard.Library.HexText
import KlaayGuard.Library.SpacedText

set_option autoImplicit false

namespace KlaayGuard

open RustText HexText

structure GuidParts : Type where
  d1 : UInt32
  d2 : UInt16
  d3 : UInt16
  d4 : { bytes : List UInt8 // bytes.length = 8 }
  deriving DecidableEq

def guidCore (raw : String) : List Char :=
  trimEndMatches (· == '}') (trimStartMatches (· == '{') (trim raw.toList))

/-- The bytes from the given index on; `none` outside says that a slice panics. -/
def tailBytes (tail : List Char) (i : Nat) :
    (count : Nat) → Option (Option { bytes : List UInt8 // bytes.length = count })
  | 0 => some (some ⟨[], rfl⟩)
  | count + 1 =>
      match byteSlice tail (i * 2) (i * 2 + 2) with
      | none => none
      | some digits =>
          match fromStrRadix16 UInt8.size digits with
          | none => some none
          | some byte =>
              (tailBytes tail (i + 1) count).map (Option.map fun later =>
                ⟨UInt8.ofNat byte :: later.val, by rw [List.length_cons, later.property]⟩)

def guidLengths : List Nat := [8, 4, 4, 4, 12]

/-- `none` outside says that the code panics, inside that it returns `None`. -/
def parseGuid (raw : String) : Option (Option GuidParts) :=
  match (guidCore raw).splitOnP (· == '-') with
  | [first, second, third, fourth, fifth] =>
      let fields := [first, second, third, fourth, fifth]
      if (fields.zip guidLengths).any fun entry => byteLen entry.1 != entry.2 then some none
      -- A byte of a character beyond ASCII is no digit either.
      else if !fields.all fun f => f.all isAsciiHexdigit then some none
      else
        match tailBytes (fourth ++ fifth) 0 8 with
        | none => none
        | some none => some none
        | some (some d4) =>
            some do
              let d1 ← fromStrRadix16 UInt32.size first
              let d2 ← fromStrRadix16 UInt16.size second
              let d3 ← fromStrRadix16 UInt16.size third
              pure ⟨UInt32.ofNat d1, UInt16.ofNat d2, UInt16.ofNat d3, d4⟩
  | _ => some none

def bytesText (bytes : List UInt8) : List Char := bytes.flatMap fun byte => write 2 byte.toNat

def guidFields (guid : GuidParts) : List (List Char) :=
  [write 8 guid.d1.toNat, write 4 guid.d2.toNat, write 4 guid.d3.toNat,
    bytesText (guid.d4.val.take 2), bytesText (guid.d4.val.drop 2)]

def guidText (guid : GuidParts) : List Char := ['-'].intercalate (guidFields guid)

/-- A text of the GUID: blanks around it, a pair of braces or none, digits in any case. -/
inductive GuidSpelling (guid : GuidParts) : String → Prop where
  | bare {lead body trail : List Char} (blankLead : ∀ c ∈ lead, isWhitespace c = true)
      (blankTrail : ∀ c ∈ trail, isWhitespace c = true)
      (digits : toAsciiLowercase body = guidText guid) :
      GuidSpelling guid (String.ofList (lead ++ body ++ trail))
  | braced {lead body trail : List Char} (blankLead : ∀ c ∈ lead, isWhitespace c = true)
      (blankTrail : ∀ c ∈ trail, isWhitespace c = true)
      (digits : toAsciiLowercase body = guidText guid) :
      GuidSpelling guid (String.ofList (lead ++ ('{' :: body ++ ['}']) ++ trail))

theorem length_bytesText (bytes : List UInt8) : (bytesText bytes).length = 2 * bytes.length := by
  induction bytes with
  | nil => rfl
  | cons byte rest ih =>
      rw [bytesText, List.flatMap_cons, ← bytesText, List.length_append, ih, length_write,
        List.length_cons]
      omega

theorem hexdigits_bytesText (bytes : List UInt8) :
    ∀ c ∈ bytesText bytes, isAsciiHexdigit c = true := by
  intro c member
  obtain ⟨byte, _, written⟩ := List.mem_flatMap.mp member
  exact hexdigits_write 2 byte.toNat c written

theorem bytesText_append (front back : List UInt8) :
    bytesText (front ++ back) = bytesText front ++ bytesText back := List.flatMap_append

theorem bytesText_inj {bytes other : List UInt8} (same : bytesText bytes = bytesText other) :
    bytes = other := by
  induction bytes generalizing other with
  | nil =>
      have lengths := congrArg List.length same
      rw [length_bytesText, length_bytesText] at lengths
      have none : other.length = 0 := by
        rw [List.length_nil] at lengths
        omega
      exact (List.length_eq_zero_iff.mp none).symm
  | cons byte rest ih =>
      cases other with
      | nil =>
          have lengths := congrArg List.length same
          rw [length_bytesText, length_bytesText] at lengths
          cases lengths
      | cons first later =>
          rw [bytesText, bytesText, List.flatMap_cons, List.flatMap_cons] at same
          obtain ⟨here, after⟩ := List.append_inj same (by simp)
          have byteSame := UInt8.toNat_inj.mp
            (write_inj byte.toNat_lt_size first.toNat_lt_size here)
          rw [byteSame, ih after]

theorem length_guidFields (guid : GuidParts) :
    (guidFields guid).map List.length = guidLengths := by
  have eight := guid.d4.property
  simp [guidFields, guidLengths, length_bytesText, eight]

theorem hexdigits_guidFields (guid : GuidParts) :
    ∀ field ∈ guidFields guid, ∀ c ∈ field, isAsciiHexdigit c = true := by
  simp only [guidFields, List.forall_mem_cons, List.not_mem_nil, false_implies, implies_true,
    and_true]
  exact ⟨hexdigits_write _ _, hexdigits_write _ _, hexdigits_write _ _, hexdigits_bytesText _,
    hexdigits_bytesText _⟩

theorem guidFields_inj {guid other : GuidParts} (same : guidFields guid = guidFields other) :
    guid = other := by
  simp only [guidFields, List.cons.injEq, and_true] at same
  obtain ⟨first, second, third, fourth, fifth⟩ := same
  have d1 := UInt32.toNat_inj.mp (write_inj guid.d1.toNat_lt_size other.d1.toNat_lt_size first)
  have d2 := UInt16.toNat_inj.mp (write_inj guid.d2.toNat_lt_size other.d2.toNat_lt_size second)
  have d3 := UInt16.toNat_inj.mp (write_inj guid.d3.toNat_lt_size other.d3.toNat_lt_size third)
  have d4 : guid.d4.val = other.d4.val := by
    rw [← List.take_append_drop 2 guid.d4.val, bytesText_inj fourth, bytesText_inj fifth,
      List.take_append_drop]
  cases guid
  cases other
  simp only [GuidParts.mk.injEq]
  exact ⟨d1, d2, d3, Subtype.ext d4⟩

/-! ### What is read -/

theorem tailBytes_of_hexdigits (count i : Nat) {front digits : List Char}
    (hex : ∀ c ∈ front ++ digits, isAsciiHexdigit c = true) (before : front.length = i * 2)
    (length : digits.length = 2 * count) :
    ∃ bytes, tailBytes (front ++ digits) i count = some (some bytes) ∧
      bytesText bytes.val = toAsciiLowercase digits := by
  induction count generalizing i front digits with
  | zero =>
      rw [Nat.mul_zero, List.length_eq_zero_iff] at length
      subst length
      exact ⟨⟨[], rfl⟩, rfl, rfl⟩
  | succ count ih =>
      obtain ⟨high, single, rfl, _⟩ := List.exists_of_length_succ digits length
      obtain ⟨low, later, rfl, _⟩ := List.exists_of_length_succ single
        (show single.length = 2 * count + 1 by
          rw [List.length_cons] at length
          omega)
      have pairHex : ∀ c ∈ [high, low], isAsciiHexdigit c = true := by
        intro c member
        refine hex c (List.mem_append_right _ ?_)
        rcases List.mem_cons.mp member with rfl | second
        · exact List.mem_cons_self
        · rw [List.mem_singleton.mp second]
          exact List.mem_cons_of_mem _ List.mem_cons_self
      have regroup : front ++ high :: low :: later = front ++ [high, low] ++ later := by simp
      have sliced : byteSlice (front ++ high :: low :: later) (i * 2) (i * 2 + 2) =
          some [high, low] := by
        rw [regroup, ← before]
        refine byteSlice_append (fun c member => isAscii_of_isAsciiHexdigit (hex c ?_)) later
        rw [regroup]
        exact List.mem_append_left _ member
      have byte : fromStrRadix16 UInt8.size [high, low] = some (value [high, low]) :=
        fromStrRadix16_of_hexdigits (List.cons_ne_nil _ _) pairHex (Nat.le_refl 256)
      have small : value [high, low] < UInt8.size := value_lt pairHex
      obtain ⟨bytes, rest, text⟩ := ih (i + 1) (regroup ▸ hex)
        (by rw [List.length_append, before]; simp; omega)
        (by simp only [List.length_cons] at length; omega)
      rw [← regroup] at rest
      refine ⟨⟨UInt8.ofNat (value [high, low]) :: bytes.val, ?_⟩, ?_, ?_⟩
      · rw [List.length_cons, bytes.property]
      · rw [tailBytes, sliced]
        dsimp only
        rw [byte]
        dsimp only
        rw [rest]
        rfl
      · have written := write_value pairHex
        rw [bytesText, List.flatMap_cons, ← bytesText, text, UInt8.toNat_ofNat_of_lt' small]
        exact congrArg (· ++ toAsciiLowercase later) written

theorem field_number {width : Nat} {f : List Char} (positive : 0 < width)
    (length : f.length = width) (hex : ∀ c ∈ f, isAsciiHexdigit c = true) :
    fromStrRadix16 (16 ^ width) f = some (value f) ∧ value f < 16 ^ width ∧
      write width (value f) = toAsciiLowercase f := by
  subst length
  exact ⟨fromStrRadix16_of_hexdigits (List.ne_nil_of_length_pos positive) hex (Nat.le_refl _),
    value_lt hex, write_value hex⟩

theorem parseGuid_fields {raw : String} {fields : List (List Char)}
    (split : (guidCore raw).splitOnP (· == '-') = fields)
    (lengths : fields.map List.length = guidLengths)
    (hex : ∀ field ∈ fields, ∀ c ∈ field, isAsciiHexdigit c = true) :
    ∃ guid, parseGuid raw = some (some guid) ∧ guidFields guid = fields.map toAsciiLowercase := by
  obtain ⟨first, _, rfl, length1, lengths⟩ := List.map_eq_cons_iff.mp lengths
  obtain ⟨second, _, rfl, length2, lengths⟩ := List.map_eq_cons_iff.mp lengths
  obtain ⟨third, _, rfl, length3, lengths⟩ := List.map_eq_cons_iff.mp lengths
  obtain ⟨fourth, _, rfl, length4, lengths⟩ := List.map_eq_cons_iff.mp lengths
  obtain ⟨fifth, _, rfl, length5, lengths⟩ := List.map_eq_cons_iff.mp lengths
  obtain rfl := List.map_eq_nil_iff.mp lengths
  have accepted : ∀ f ∈ [first, second, third, fourth, fifth], byteLen f = f.length :=
    fun f member => byteLen_of_ascii fun c inField =>
      isAscii_of_isAsciiHexdigit (hex f member c inField)
  have digits : ([first, second, third, fourth, fifth].all fun f => f.all isAsciiHexdigit) =
      true := by
    rw [List.all_eq_true]
    exact fun f member => List.all_eq_true.mpr (hex f member)
  simp only [List.forall_mem_cons, List.not_mem_nil, false_implies, implies_true, and_true]
    at accepted hex
  obtain ⟨hex1, hex2, hex3, hex4, hex5⟩ := hex
  have sized : (([first, second, third, fourth, fifth].zip guidLengths).any fun entry =>
      byteLen entry.1 != entry.2) = false := by
    simp [guidLengths, accepted, length1, length2, length3, length4, length5]
  have tailHex : ∀ c ∈ fourth ++ fifth, isAsciiHexdigit c = true :=
    fun c member => (List.mem_append.mp member).elim (hex4 c) (hex5 c)
  obtain ⟨bytes, read, text⟩ := @tailBytes_of_hexdigits 8 0 [] (fourth ++ fifth) tailHex rfl
    (by rw [List.length_append, length4, length5])
  obtain ⟨read1, fits1, text1⟩ := field_number (by decide) length1 hex1
  obtain ⟨read2, fits2, text2⟩ := field_number (by decide) length2 hex2
  obtain ⟨read3, fits3, text3⟩ := field_number (by decide) length3 hex3
  rw [toAsciiLowercase, List.map_append, ← toAsciiLowercase, ← toAsciiLowercase,
    ← List.take_append_drop 2 bytes.val, bytesText_append] at text
  obtain ⟨text4, text5⟩ := List.append_inj text (by
    rw [length_bytesText, List.length_take, bytes.property, toAsciiLowercase, List.length_map,
      length4]
    rfl)
  refine ⟨⟨UInt32.ofNat (value first), UInt16.ofNat (value second), UInt16.ofNat (value third),
    bytes⟩, ?_, ?_⟩
  · rw [parseGuid, split]
    dsimp only
    rw [if_neg (by rw [sized]; decide), if_neg (by rw [digits]; decide),
      ← List.nil_append (fourth ++ fifth), read]
    dsimp only
    rw [show fromStrRadix16 UInt32.size first = some (value first) from read1,
      show fromStrRadix16 UInt16.size second = some (value second) from read2,
      show fromStrRadix16 UInt16.size third = some (value third) from read3]
    rfl
  · rw [guidFields, UInt32.toNat_ofNat_of_lt' fits1, UInt16.toNat_ofNat_of_lt' fits2,
      UInt16.toNat_ofNat_of_lt' fits3, text1, text2, text3, text4, text5]
    rfl

theorem splitOnP_guidText (guid : GuidParts) :
    (guidText guid).splitOnP (· == '-') = guidFields guid := by
  rw [← List.splitOn_eq_splitOnP]
  refine List.splitOn_intercalate '-' (fun field listed dash => ?_) (List.cons_ne_nil _ _)
  have hex := hexdigits_guidFields guid field listed '-' dash
  cases hex

theorem guidText_inj {guid other : GuidParts} (same : guidText guid = guidText other) :
    guid = other := by
  apply guidFields_inj
  rw [← splitOnP_guidText, same, splitOnP_guidText]

theorem splitOnP_toAsciiLowercase (text : List Char) :
    (toAsciiLowercase text).splitOnP (· == '-') =
      (text.splitOnP (· == '-')).map toAsciiLowercase := by
  have same : text.splitOnP (fun c => c.toLower == '-') = text.splitOnP (· == '-') := by
    refine splitOnP_congr fun c _ => ?_
    rw [Bool.eq_iff_iff, beq_iff_eq, beq_iff_eq]
    by_cases upper : 65 ≤ c.toNat ∧ c.toNat ≤ 90
    · have shifted := toNat_toLower upper
      constructor
      · intro dash
        rw [dash] at shifted
        simp only [Char.reduceToNat] at shifted
        omega
      · rintro rfl
        simp at upper
    · rw [toLower_eq_self upper]
  rw [toAsciiLowercase, splitOnP_map, same]
  rfl

theorem fields_of_digits {text : List Char} {guid : GuidParts}
    (digits : toAsciiLowercase text = guidText guid) :
    ((text.splitOnP (· == '-')).map List.length = guidLengths) ∧
      ∀ field ∈ text.splitOnP (· == '-'), ∀ c ∈ field, isAsciiHexdigit c = true := by
  have lowered := splitOnP_toAsciiLowercase text
  rw [digits, splitOnP_guidText] at lowered
  constructor
  · rw [← length_guidFields guid, lowered, List.map_map]
    refine List.map_congr_left fun field _ => ?_
    rw [Function.comp_apply, toAsciiLowercase, List.length_map]
  · intro field listed c inField
    rw [← isAsciiHexdigit_toLower]
    refine hexdigits_guidFields guid (toAsciiLowercase field) ?_ _ (List.mem_map_of_mem inField)
    rw [lowered]
    exact List.mem_map_of_mem listed

theorem parseGuid_refuses {raw : String}
    (other : ¬ (((guidCore raw).splitOnP (· == '-')).map List.length = guidLengths ∧
      ∀ field ∈ (guidCore raw).splitOnP (· == '-'), ∀ c ∈ field, isAsciiHexdigit c = true)) :
    parseGuid raw = some none := by
  rw [parseGuid]
  split
  · rename_i first second third fourth fifth split
    rw [split] at other
    dsimp only
    split
    · rfl
    · rename_i sized
      split
      · rfl
      · rename_i digits
        have hex : ∀ f ∈ [first, second, third, fourth, fifth], ∀ c ∈ f,
            isAsciiHexdigit c = true := by
          rw [Bool.not_eq_true, Bool.not_eq_false', List.all_eq_true] at digits
          exact fun f member => List.all_eq_true.mp (digits f member)
        have bytes : ∀ f ∈ [first, second, third, fourth, fifth], byteLen f = f.length :=
          fun f member => byteLen_of_ascii fun c inField =>
            isAscii_of_isAsciiHexdigit (hex f member c inField)
        refine absurd ⟨?_, hex⟩ other
        simp only [List.forall_mem_cons, List.not_mem_nil, false_implies, implies_true, and_true]
          at bytes
        simpa [guidLengths, bytes] using sized
  · rfl

/-- A GUID is read exactly from its own text. -/
theorem parseGuid_eq_some_iff {raw : String} {guid : GuidParts} :
    parseGuid raw = some (some guid) ↔ toAsciiLowercase (guidCore raw) = guidText guid := by
  by_cases accepted : ((guidCore raw).splitOnP (· == '-')).map List.length = guidLengths ∧
      ∀ field ∈ (guidCore raw).splitOnP (· == '-'), ∀ c ∈ field, isAsciiHexdigit c = true
  · obtain ⟨found, read, fields⟩ := parseGuid_fields rfl accepted.1 accepted.2
    have text : guidText found = toAsciiLowercase (guidCore raw) := by
      rw [guidText, fields, ← splitOnP_toAsciiLowercase, ← List.splitOn_eq_splitOnP,
        List.intercalate_splitOn]
    rw [read, ← text]
    constructor
    · intro same
      rw [Option.some.inj (Option.some.inj same)]
    · intro same
      rw [guidText_inj same]
  · rw [parseGuid_refuses accepted]
    constructor
    · intro same
      cases same
    · intro digits
      exact absurd (fields_of_digits digits) accepted

/-- No text makes the code panic. -/
theorem parseGuid_total (raw : String) : (parseGuid raw).isSome = true := by
  by_cases accepted : ((guidCore raw).splitOnP (· == '-')).map List.length = guidLengths ∧
      ∀ field ∈ (guidCore raw).splitOnP (· == '-'), ∀ c ∈ field, isAsciiHexdigit c = true
  · obtain ⟨found, read, _⟩ := parseGuid_fields rfl accepted.1 accepted.2
    rw [read]
    rfl
  · rw [parseGuid_refuses accepted]
    rfl

theorem digit_or_dash {body : List Char} {guid : GuidParts}
    (digits : toAsciiLowercase body = guidText guid) {c : Char} (member : c ∈ body) :
    isAsciiHexdigit c = true ∨ c = '-' := by
  have joined : ['-'].intercalate (body.splitOn '-') = body := List.intercalate_splitOn '-'
  rw [← joined] at member
  rcases SpacedText.mem_intercalate member with dash | ⟨field, listed, inField⟩
  · exact Or.inr dash
  · rw [List.splitOn_eq_splitOnP] at listed
    exact Or.inl ((fields_of_digits digits).2 field listed c inField)

private theorem plain_of_digits {body : List Char} {guid : GuidParts}
    (digits : toAsciiLowercase body = guidText guid) :
    body ≠ [] ∧ ∀ c ∈ body, isWhitespace c = false ∧ (c == '{') = false ∧ (c == '}') = false := by
  constructor
  · rintro rfl
    have lengths := (fields_of_digits digits).1
    cases lengths
  · intro c member
    rcases digit_or_dash digits member with hex | rfl
    · simp only [isAsciiHexdigit, isAsciiDigit, Bool.or_eq_true, Bool.and_eq_true,
        decide_eq_true_eq] at hex
      refine ⟨?_, ?_, ?_⟩
      · rw [← Bool.not_eq_true]
        simp only [isWhitespace, Bool.or_eq_true, Bool.and_eq_true, decide_eq_true_eq, beq_iff_eq]
        omega
      · rw [beq_eq_false_iff_ne]
        rintro rfl
        simp at hex
      · rw [beq_eq_false_iff_ne]
        rintro rfl
        simp at hex
    · exact ⟨rfl, rfl, rfl⟩

private theorem trim_braces {body : List Char} {guid : GuidParts}
    (digits : toAsciiLowercase body = guidText guid) :
    trimEndMatches (· == '}') (trimStartMatches (· == '{') body) = body ∧
      trimEndMatches (· == '}') (trimStartMatches (· == '{') ('{' :: body ++ ['}'])) = body := by
  obtain ⟨nonempty, plain⟩ := plain_of_digits digits
  have head : ∀ c ∈ body.head?, (c == '{') = false :=
    fun c atHead => (plain c (List.mem_of_head? atHead)).2.1
  have last : ∀ c ∈ body.getLast?, (c == '}') = false :=
    fun c atLast => (plain c (List.mem_of_getLast? atLast)).2.2
  have headMore : ∀ c ∈ (body ++ ['}']).head?, (c == '{') = false := by
    rwa [List.head?_append_of_ne_nil _ nonempty]
  constructor
  · have started := @trimStartMatches_append (· == '{') [] body (by simp) head
    have ended := @trimEndMatches_append (· == '}') body [] (by simp) last
    rw [List.nil_append] at started
    rw [List.append_nil] at ended
    rw [started, ended]
  · have started := @trimStartMatches_append (· == '{') ['{'] _ (by simp) headMore
    rw [List.singleton_append, ← List.cons_append] at started
    rw [started]
    exact trimEndMatches_append (by simp) last

theorem GuidSpelling.core {guid : GuidParts} {text : String} (spelling : GuidSpelling guid text) :
    toAsciiLowercase (guidCore text) = guidText guid := by
  cases spelling with
  | @bare lead body trail blankLead blankTrail digits =>
      obtain ⟨nonempty, plain⟩ := plain_of_digits digits
      have trimmed := trim_append blankLead blankTrail nonempty
        (fun c atHead => (plain c (List.mem_of_head? atHead)).1)
        fun c atLast => (plain c (List.mem_of_getLast? atLast)).1
      rw [guidCore, String.toList_ofList, trimmed, (trim_braces digits).1, digits]
  | @braced lead body trail blankLead blankTrail digits =>
      have closing : ('{' :: body ++ ['}']).getLast? = some '}' := List.getLast?_concat
      have trimmed := trim_append blankLead blankTrail (List.cons_ne_nil '{' (body ++ ['}']))
        (fun c atHead => by rw [← Option.some.inj atHead]; rfl)
        fun c atLast => by rw [← Option.some.inj (closing.symm.trans atLast)]; rfl
      rw [guidCore, String.toList_ofList]
      rw [List.cons_append] at *
      rw [trimmed, ← List.cons_append, (trim_braces digits).2, digits]

/-- Every text of a GUID is read as that GUID, no text makes the code panic, and texts
read as one GUID differ in blanks, braces and case only. -/
theorem guid_text_roundtrip :
    (∀ guid text, GuidSpelling guid text → parseGuid text = some (some guid)) ∧
      (∀ text, (parseGuid text).isSome = true) ∧
      ∀ guid text other, parseGuid text = some (some guid) →
        parseGuid other = some (some guid) →
        toAsciiLowercase (guidCore text) = toAsciiLowercase (guidCore other) := by
  refine ⟨fun guid text spelling => parseGuid_eq_some_iff.mpr spelling.core, parseGuid_total, ?_⟩
  intro guid text other read otherRead
  rw [parseGuid_eq_some_iff.mp read, parseGuid_eq_some_iff.mp otherRead]

private def balancedScheme : GuidParts :=
  ⟨0x381b4222, 0xf694, 0x41f0, ⟨[0x96, 0x85, 0xff, 0x5b, 0xb2, 0x60, 0xdf, 0x2e], rfl⟩⟩

theorem guid_text_roundtrip_balanced :
    parseGuid (String.ofList (['\t'] ++ ('{' :: "381B4222-f694-41F0-9685-FF5bb260df2e".toList ++
      ['}']) ++ ['\n'])) = some (some balancedScheme) := by
  refine guid_text_roundtrip.1 balancedScheme _ (.braced ?_ ?_ ?_)
  · simp [isWhitespace]
  · simp [isWhitespace]
  · decide +kernel

end KlaayGuard
