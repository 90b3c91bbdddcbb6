import Mathlib.Data.BitVec
import HenPlugins.Lib.ByteText

/-!
# Signature scanning

`pattern_to_byte` turns an IDA-style signature into bytes, with `0xff` for a
wildcard, and `PatternScan` looks for the first place that matches.  The bytes
are read through a function, since a comparison may run past the scanned area.
-/

set_option autoImplicit false

namespace HenPlugins.Memory.PatternScan

open HenPlugins.Lib.ByteText

abbrev questionMark : UInt8 := '?'.toUInt8
abbrev blank : UInt8 := ' '.toUInt8

def hexValue (byte : UInt8) : Option Nat :=
  if '0'.toUInt8 ≤ byte && byte ≤ '9'.toUInt8 then
    some (byte - '0'.toUInt8).toNat
  else if 'a'.toUInt8 ≤ byte && byte ≤ 'f'.toUInt8 then
    some (byte - 'a'.toUInt8 + 10).toNat
  else if 'A'.toUInt8 ≤ byte && byte ≤ 'F'.toUInt8 then
    some (byte - 'A'.toUInt8 + 10).toNat
  else none

/-- The leading hexadecimal digits and the rest. -/
def hexDigits : Text → List Nat × Text
  | [] => ([], [])
  | byte :: rest =>
      match hexValue byte with
      | none => ([], byte :: rest)
      | some digit => (digit :: (hexDigits rest).1, (hexDigits rest).2)

def skipSign : Text → Bool × Text
  | [] => (false, [])
  | byte :: rest =>
      if byte == '-'.toUInt8 then (true, rest)
      else if byte == '+'.toUInt8 then (false, rest)
      else (false, byte :: rest)

/-- A `0x` counts as a marker only in front of a digit. -/
def skipHexMarker : Text → Text
  | zero :: mark :: digit :: rest =>
      if zero == '0'.toUInt8 &&
          (mark == 'x'.toUInt8 || mark == 'X'.toUInt8) &&
          (hexValue digit).isSome then digit :: rest
      else zero :: mark :: digit :: rest
  | text => text

/-- The value and the end pointer; without digits the pointer stays. -/
def strtoull (nptr : Text) : Nat × Text :=
  let (negative, unsigned) := skipSign (nptr.dropWhile isSpace)
  let (digits, rest) := hexDigits (skipHexMarker unsigned)
  if digits.isEmpty then (0, nptr)
  else
    let value := digits.foldl (fun total digit => 16 * total + digit) 0
    if value < 2 ^ 64 then
      ((if negative then (2 ^ 64 - value) % 2 ^ 64 else value), rest)
    else (2 ^ 64 - 1, rest)

/-- The second `?` of a doubled wildcard is skipped. -/
def skipQuestionMark : Text → Text
  | [] => []
  | byte :: rest => if byte == questionMark then rest else byte :: rest

/-- Every round consumes at least a character, so the length of the pattern
bounds the rounds. -/
def patternLoop : Nat → Text → List UInt8
  | 0, _ => []
  | _ + 1, [] => []
  | fuel + 1, byte :: rest =>
      if byte == questionMark then
        0xff :: patternLoop fuel ((skipQuestionMark rest).drop 1)
      else
        UInt8.ofNat (strtoull (byte :: rest)).1 ::
          patternLoop fuel ((strtoull (byte :: rest)).2.drop 1)

def patternToByte (pattern : Text) : List UInt8 :=
  patternLoop pattern.length pattern

def maxPatternLength : Nat := 512

/-- The inner loop over the pattern. -/
def matchesAt (scanBytes : Nat → UInt8) : Nat → List UInt8 → Bool
  | _, [] => true
  | position, patternByte :: rest =>
      if scanBytes position != patternByte && patternByte != 0xff then false
      else matchesAt scanBytes (position + 1) rest

def patternScan (scanBytes : Nat → UInt8) (moduleBase : BitVec 64)
    (moduleSize : Nat) (signature : Text) (offset : BitVec 64) : BitVec 64 :=
  if moduleBase = 0 ∨ moduleSize = 0 then 0
  else
    let patternBytes := patternToByte signature
    if patternBytes.length = 0 ∨ maxPatternLength ≤ patternBytes.length then 0
    else
      match (List.range moduleSize).find? fun i =>
        matchesAt scanBytes i patternBytes with
      | none => 0
      | some i => moduleBase + BitVec.ofNat 64 i + offset

inductive Token where
  | byte (value : UInt8)
  | any
  deriving DecidableEq

/-- What a token means. -/
def Token.accepts : Token → UInt8 → Prop
  | .byte value, actual => actual = value
  | .any, _ => True

/-- What the scanner makes of it. -/
def Token.code : Token → UInt8
  | .byte value => value
  | .any => 0xff

inductive Spelling : Token → Text → Prop where
  | any : Spelling .any (ascii "?")
  | anyTwice : Spelling .any (ascii "??")
  | byte (high low : UInt8) (highValue lowValue : Nat)
      (highDigit : hexValue high = some highValue)
      (lowDigit : hexValue low = some lowValue) :
      Spelling (.byte (UInt8.ofNat (16 * highValue + lowValue))) [high, low]

/-- A signature: tokens with a single blank between them. -/
inductive Signature : List Token → Text → Prop where
  | last (token : Token) (spelled : Text) (spelling : Spelling token spelled) :
      Signature [token] spelled
  | cons (token : Token) (spelled : Text) (spelling : Spelling token spelled)
      (tokens : List Token) (text : Text) (later : Signature tokens text) :
      Signature (token :: tokens) (spelled ++ blank :: text)

theorem hexValue_facts : ∀ byte : UInt8, (hexValue byte).isSome = true →
    isSpace byte = false ∧ byte ≠ '-'.toUInt8 ∧ byte ≠ '+'.toUInt8 ∧
      byte ≠ 'x'.toUInt8 ∧ byte ≠ 'X'.toUInt8 ∧ byte ≠ questionMark ∧
      (hexValue byte).getD 0 < 16 := by
  rintro ⟨⟨byte⟩⟩
  revert byte
  decide +kernel

theorem strtoull_two_digits (high low : UInt8) (highValue lowValue : Nat)
    (highDigit : hexValue high = some highValue)
    (lowDigit : hexValue low = some lowValue) (rest : Text)
    (stop : rest = [] ∨ ∃ text, rest = blank :: text) :
    strtoull (high :: low :: rest) = (16 * highValue + lowValue, rest) := by
  have highFacts := hexValue_facts high (by simp [highDigit])
  have lowFacts := hexValue_facts low (by simp [lowDigit])
  have highBound : highValue < 16 := by simpa [highDigit] using highFacts.2.2.2.2.2.2
  have lowBound : lowValue < 16 := by simpa [lowDigit] using lowFacts.2.2.2.2.2.2
  have noSpace : (high :: low :: rest).dropWhile isSpace =
      high :: low :: rest := by
    rw [List.dropWhile_cons_of_neg (by simp [highFacts.1])]
  have noSign : skipSign (high :: low :: rest) =
      (false, high :: low :: rest) := by
    simp [skipSign, highFacts.2.1, highFacts.2.2.1]
  have noMarker : skipHexMarker (high :: low :: rest) =
      high :: low :: rest := by
    cases rest with
    | nil => rfl
    | cons next rest =>
        simp [skipHexMarker, lowFacts.2.2.2.1, lowFacts.2.2.2.2.1]
  have noDigit : hexDigits rest = ([], rest) := by
    rcases stop with rfl | ⟨text, rfl⟩
    · rfl
    · have blankDigit : hexValue blank = none := by decide
      simp [hexDigits, blankDigit]
  have digits : hexDigits (high :: low :: rest) =
      ([highValue, lowValue], rest) := by
    simp [hexDigits, highDigit, lowDigit, noDigit]
  have small : 16 * highValue + lowValue < 2 ^ 64 := by omega
  have value : [highValue, lowValue].foldl
      (fun total digit => 16 * total + digit) 0 =
        16 * highValue + lowValue := by
    simp
  rw [strtoull]
  simp only [noSpace, noSign, noMarker, digits, value, if_pos small]
  rfl

theorem patternLoop_token (token : Token) (spelled : Text)
    (spelling : Spelling token spelled) (fuel : Nat) (rest : Text)
    (stop : rest = [] ∨ ∃ text, rest = blank :: text) :
    patternLoop (fuel + 1) (spelled ++ rest) =
      token.code :: patternLoop fuel (rest.drop 1) := by
  cases spelling with
  | any =>
      have kept : skipQuestionMark rest = rest := by
        rcases stop with rfl | ⟨text, rfl⟩
        · rfl
        · have differ : (blank == questionMark) = false := by decide
          simp [skipQuestionMark, differ]
      have shape : ascii "?" ++ rest = questionMark :: rest := rfl
      rw [shape, patternLoop, if_pos (by simp), kept]
      rfl
  | anyTwice =>
      have shape : ascii "??" ++ rest =
          questionMark :: questionMark :: rest := rfl
      rw [shape, patternLoop, if_pos (by simp), skipQuestionMark,
        if_pos (by simp)]
      rfl
  | byte high low highValue lowValue highDigit lowDigit =>
      have facts := hexValue_facts high (by simp [highDigit])
      have differ : (high == questionMark) = false := by
        simpa using facts.2.2.2.2.2.1
      have value := strtoull_two_digits high low highValue lowValue highDigit
        lowDigit rest stop
      rw [List.cons_append, List.cons_append, List.nil_append, patternLoop,
        if_neg (by simp [differ]), value]
      rfl

theorem spelling_length (token : Token) (spelled : Text)
    (spelling : Spelling token spelled) : 1 ≤ spelled.length := by
  cases spelling <;> simp [ascii]

theorem patternLoop_signature (tokens : List Token) (text : Text)
    (signature : Signature tokens text) (fuel : Nat)
    (enough : text.length ≤ fuel) :
    patternLoop fuel text = tokens.map Token.code := by
  induction signature generalizing fuel with
  | last token spelled spelling =>
      have positive := spelling_length token spelled spelling
      obtain ⟨smaller, rfl⟩ : ∃ smaller, fuel = smaller + 1 :=
        ⟨fuel - 1, by omega⟩
      have round := patternLoop_token token spelled spelling smaller []
        (Or.inl rfl)
      rw [List.append_nil] at round
      rw [round]
      cases smaller <;> rfl
  | cons token spelled spelling tokens text later ih =>
      have positive := spelling_length token spelled spelling
      rw [List.length_append, List.length_cons] at enough
      obtain ⟨smaller, rfl⟩ : ∃ smaller, fuel = smaller + 1 :=
        ⟨fuel - 1, by omega⟩
      rw [patternLoop_token token spelled spelling smaller (blank :: text)
        (Or.inr ⟨text, rfl⟩), List.drop_succ_cons, List.drop_zero,
        ih smaller (by omega), List.map_cons]

/-- A valid signature is read token by token. -/
theorem patternToByte_signature (tokens : List Token) (text : Text)
    (signature : Signature tokens text) :
    patternToByte text = tokens.map Token.code :=
  patternLoop_signature tokens text signature text.length (Nat.le_refl _)

theorem signature_nonempty (tokens : List Token) (text : Text)
    (signature : Signature tokens text) : tokens ≠ [] := by
  cases signature <;> simp

/-- The scanner's comparison: a byte `0xff` of the signature matches all. -/
def LooselyAt (scanBytes : Nat → UInt8) (position : Nat)
    (tokens : List Token) : Prop :=
  ∀ index token, tokens[index]? = some token →
    scanBytes (position + index) = token.code ∨ token.code = 0xff

theorem matchesAt_iff (scanBytes : Nat → UInt8) (position : Nat)
    (tokens : List Token) :
    matchesAt scanBytes position (tokens.map Token.code) = true ↔
      LooselyAt scanBytes position tokens := by
  induction tokens generalizing position with
  | nil => simp [matchesAt, LooselyAt]
  | cons token tokens ih =>
      have shift : ∀ index,
          position + 1 + index = position + (index + 1) := by
        intro index
        omega
      rw [List.map_cons, matchesAt]
      constructor
      · intro matched
        split at matched
        · contradiction
        · rename_i here
          intro index other found
          cases index with
          | zero =>
              cases Option.some.inj found
              simp only [Bool.and_eq_true, bne_iff_ne, not_and, not_not]
                at here
              by_cases same : scanBytes position = token.code
              · exact Or.inl same
              · exact Or.inr (here same)
          | succ index =>
              rw [← shift]
              exact (ih (position + 1)).mp matched index other found
      · intro loose
        have first := loose 0 token rfl
        have here : ¬ ((scanBytes position != token.code &&
            token.code != 0xff) = true) := by
          rcases first with same | wild
          · simp [show scanBytes position = token.code from same]
          · simp [wild]
        rw [if_neg here, ih]
        intro index other found
        rw [shift]
        exact loose (index + 1) other found

theorem patternScan_bytes (scanBytes : Nat → UInt8) (moduleBase : BitVec 64)
    (moduleSize : Nat) (tokens : List Token) (text : Text)
    (reads : patternToByte text = tokens.map Token.code)
    (nonempty : tokens ≠ []) (short : tokens.length ≤ 511)
    (offset : BitVec 64) (base : moduleBase ≠ 0) (size : moduleSize ≠ 0) :
    (∃ position < moduleSize, LooselyAt scanBytes position tokens ∧
        (∀ earlier < position, ¬ LooselyAt scanBytes earlier tokens) ∧
        patternScan scanBytes moduleBase moduleSize text offset =
          moduleBase + BitVec.ofNat 64 position + offset) ∨
      ((∀ position < moduleSize, ¬ LooselyAt scanBytes position tokens) ∧
        patternScan scanBytes moduleBase moduleSize text offset = 0) := by
  have accepted : ¬ ((tokens.map Token.code).length = 0 ∨
      maxPatternLength ≤ (tokens.map Token.code).length) := by
    rw [List.length_map, List.length_eq_zero_iff]
    rw [maxPatternLength]
    rintro (none | long)
    · exact nonempty none
    · omega
  rw [patternScan]
  rw [if_neg (not_or.mpr ⟨base, size⟩), reads]
  simp only [if_neg accepted]
  cases found : (List.range moduleSize).find? fun i =>
      matchesAt scanBytes i (tokens.map Token.code) with
  | none =>
      right
      refine ⟨?_, rfl⟩
      intro position inside loose
      have unmatched := List.find?_eq_none.mp found position
        (List.mem_range.mpr inside)
      exact unmatched ((matchesAt_iff _ _ _).mpr loose)
  | some position =>
      left
      obtain ⟨matched, member, earliest⟩ :=
        List.find?_range_eq_some.mp found
      refine ⟨position, List.mem_range.mp member,
        (matchesAt_iff _ _ _).mp matched, ?_, rfl⟩
      intro earlier before loose
      have unmatched := earliest earlier before
      rw [(matchesAt_iff _ _ _).mpr loose] at unmatched
      contradiction

/-- `PatternScan` over a valid signature: the first loose match, or 0. -/
theorem patternScan_spec (scanBytes : Nat → UInt8) (moduleBase : BitVec 64)
    (moduleSize : Nat) (tokens : List Token) (text : Text)
    (signature : Signature tokens text) (short : tokens.length ≤ 511)
    (offset : BitVec 64) (base : moduleBase ≠ 0) (size : moduleSize ≠ 0) :
    (∃ position < moduleSize, LooselyAt scanBytes position tokens ∧
        (∀ earlier < position, ¬ LooselyAt scanBytes earlier tokens) ∧
        patternScan scanBytes moduleBase moduleSize text offset =
          moduleBase + BitVec.ofNat 64 position + offset) ∨
      ((∀ position < moduleSize, ¬ LooselyAt scanBytes position tokens) ∧
        patternScan scanBytes moduleBase moduleSize text offset = 0) :=
  patternScan_bytes scanBytes moduleBase moduleSize tokens text
    (patternToByte_signature tokens text signature)
    (signature_nonempty tokens text signature) short offset base size

end HenPlugins.Memory.PatternScan
