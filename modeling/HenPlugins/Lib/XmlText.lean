import HenPlugins.Lib.ByteText

/-!
# XML tags and entities

A scanner reads the tags of a document with their attributes, by the rules that
matter for untrusted text: a value ends at its own quote, and no `<` may stand
in it.  The five predefined entities stand for the characters that markup uses.
-/

set_option autoImplicit false

namespace HenPlugins.Lib.XmlText

open HenPlugins.Lib.ByteText

abbrev space : UInt8 := 0x20
abbrev quot : UInt8 := 0x22
abbrev amp : UInt8 := 0x26
abbrev apos : UInt8 := 0x27
abbrev slash : UInt8 := 0x2f
abbrev lt : UInt8 := 0x3c
abbrev equals : UInt8 := 0x3d
abbrev gt : UInt8 := 0x3e
abbrev question : UInt8 := 0x3f

/-! ## Entities -/

/-- What stands for a byte in a document. -/
def entity (byte : UInt8) : Text :=
  if byte = amp then ascii "&amp;"
  else if byte = lt then ascii "&lt;"
  else if byte = gt then ascii "&gt;"
  else if byte = quot then ascii "&quot;"
  else if byte = apos then ascii "&apos;"
  else [byte]

def escape (text : Text) : Text := text.flatMap entity

def special : List UInt8 := [amp, lt, gt, quot, apos]

/-- The predefined entities, as a reader of XML knows them. -/
def predefined : List (Text × UInt8) :=
  [(ascii "&amp;", 0x26), (ascii "&lt;", 0x3c), (ascii "&gt;", 0x3e),
    (ascii "&quot;", 0x22), (ascii "&apos;", 0x27)]

/-- The entity that the text begins with, and what it stands for. -/
def entityAt (text : Text) : Option (Text × UInt8) :=
  predefined.find? fun entry => entry.1.isPrefixOf text

/-- Every round reads at least a byte, so the length bounds the rounds. -/
def unescapeLoop : Nat → Text → Text
  | 0, _ => []
  | _ + 1, [] => []
  | fuel + 1, byte :: rest =>
      match entityAt (byte :: rest) with
      | some (spelled, meant) =>
          meant :: unescapeLoop fuel ((byte :: rest).drop spelled.length)
      | none => byte :: unescapeLoop fuel rest

/-- Undo the five entities; any other `&` stays. -/
def unescape (text : Text) : Text := unescapeLoop text.length text

/-! ## Undoing entities -/

theorem entity_length (byte : UInt8) :
    1 ≤ (entity byte).length ∧ (entity byte).length ≤ 6 := by
  unfold entity
  split_ifs <;> simp [ascii]

theorem entity_of_not_special (byte : UInt8) (plain : byte ∉ special) :
    entity byte = [byte] := by
  simp only [special, List.mem_cons, List.not_mem_nil, or_false, not_or]
    at plain
  obtain ⟨notAmp, notLt, notGt, notQuot, notApos⟩ := plain
  rw [entity, if_neg notAmp, if_neg notLt, if_neg notGt, if_neg notQuot,
    if_neg notApos]

theorem predefined_starts (entry : Text × UInt8)
    (member : entry ∈ predefined) : ∃ more, entry.1 = amp :: more := by
  simp only [predefined, List.mem_cons, List.not_mem_nil, or_false] at member
  rcases member with rfl | rfl | rfl | rfl | rfl <;> exact ⟨_, rfl⟩

theorem entityAt_nonempty (text spelled : Text) (meant : UInt8)
    (found : entityAt text = some (spelled, meant)) : 1 ≤ spelled.length := by
  obtain ⟨more, start⟩ := predefined_starts _ (List.mem_of_find?_eq_some found)
  rw [show spelled = amp :: more from start, List.length_cons]
  omega

theorem entityAt_entity (byte : UInt8) (isSpecial : byte ∈ special)
    (rest : Text) :
    entityAt (entity byte ++ rest) = some (entity byte, byte) := by
  simp only [special, List.mem_cons, List.not_mem_nil, or_false] at isSpecial
  rcases isSpecial with rfl | rfl | rfl | rfl | rfl <;> rfl

theorem entityAt_of_not_amp (byte : UInt8) (differ : byte ≠ amp)
    (rest : Text) : entityAt (byte :: rest) = none := by
  apply List.find?_eq_none.mpr
  intro entry member begins
  obtain ⟨more, spelled⟩ := predefined_starts entry member
  rw [spelled, List.isPrefixOf_cons_cons, Bool.and_eq_true, beq_iff_eq] at begins
  exact differ begins.1.symm

/-- More rounds than bytes change nothing. -/
theorem unescapeLoop_succ (fuel : Nat) (text : Text)
    (enough : text.length ≤ fuel) :
    unescapeLoop (fuel + 1) text = unescapeLoop fuel text := by
  induction fuel generalizing text with
  | zero =>
      rw [List.eq_nil_of_length_eq_zero (Nat.le_zero.mp enough)]
      rfl
  | succ fuel ih =>
      cases text with
      | nil => rfl
      | cons byte rest =>
          rw [List.length_cons] at enough
          rw [unescapeLoop, unescapeLoop]
          cases found : entityAt (byte :: rest) with
          | none => simp only [ih rest (by omega)]
          | some entry =>
              have size := entityAt_nonempty _ entry.1 entry.2 found
              simp only
              rw [ih _ (by
                rw [List.length_drop, List.length_cons]
                omega)]

theorem unescapeLoop_enough (fuel : Nat) (text : Text)
    (enough : text.length ≤ fuel) :
    unescapeLoop fuel text = unescape text := by
  induction fuel with
  | zero =>
      rw [List.eq_nil_of_length_eq_zero (Nat.le_zero.mp enough)]
      rfl
  | succ fuel ih =>
      rcases Nat.lt_or_ge fuel text.length with last | more
      · rw [unescape, show text.length = fuel + 1 by omega]
      · rw [unescapeLoop_succ fuel text more, ih more]

theorem unescape_cons (byte : UInt8) (rest : Text) :
    unescape (byte :: rest) =
      match entityAt (byte :: rest) with
      | some (spelled, meant) =>
          meant :: unescape ((byte :: rest).drop spelled.length)
      | none => byte :: unescape rest := by
  rw [unescape, List.length_cons, unescapeLoop]
  cases found : entityAt (byte :: rest) with
  | none => rfl
  | some entry =>
      have size := entityAt_nonempty _ entry.1 entry.2 found
      simp only
      rw [unescapeLoop_enough _ _ (by
        rw [List.length_drop, List.length_cons]
        omega)]

theorem unescape_entity (byte : UInt8) (rest : Text) :
    unescape (entity byte ++ rest) = byte :: unescape rest := by
  by_cases isSpecial : byte ∈ special
  · have found := entityAt_entity byte isSpecial rest
    have size := entity_length byte
    cases spelled : entity byte with
    | nil =>
        rw [spelled] at size
        contradiction
    | cons first more =>
        rw [spelled, List.cons_append] at found
        rw [List.cons_append, unescape_cons, found]
        simp only [List.length_cons, List.drop_succ_cons]
        rw [List.drop_left]
  · have plain : byte ≠ amp := by
      intro same
      apply isSpecial
      rw [same]
      decide
    rw [entity_of_not_special byte isSpecial, List.singleton_append,
      unescape_cons, entityAt_of_not_amp byte plain]

/-- Escaping is undone, whatever follows. -/
theorem unescape_escape_append (text rest : Text) :
    unescape (escape text ++ rest) = text ++ unescape rest := by
  induction text with
  | nil => rfl
  | cons byte text ih =>
      rw [escape, List.flatMap_cons, List.append_assoc, unescape_entity]
      rw [escape] at ih
      rw [ih, List.cons_append]

theorem unescape_plain (text rest : Text) (plain : amp ∉ text) :
    unescape (text ++ rest) = text ++ unescape rest := by
  induction text with
  | nil => rfl
  | cons byte text ih =>
      rw [List.mem_cons, not_or] at plain
      obtain ⟨differ, plain⟩ := plain
      rw [List.cons_append, unescape_cons,
        entityAt_of_not_amp byte (Ne.symm differ)]
      simp only
      rw [ih plain, List.cons_append]

/-! ## What escaped text holds -/

theorem not_special_ascii (literal : String)
    (letters : (literal.toList.all fun letter =>
      !special.contains letter.toUInt8) = true) :
    ∀ part ∈ ascii literal, part ∉ special := by
  intro part member
  obtain ⟨letter, inside, rfl⟩ := List.mem_map.mp member
  simpa using List.all_eq_true.mp letters letter inside

/-- Only the first byte of an entity is one that has an entity. -/
theorem entity_of_special (byte : UInt8) (isSpecial : byte ∈ special) :
    ∃ more, entity byte = amp :: more ∧ ∀ part ∈ more, part ∉ special := by
  simp only [special, List.mem_cons, List.not_mem_nil, or_false] at isSpecial
  rcases isSpecial with rfl | rfl | rfl | rfl | rfl
  · exact ⟨ascii "amp;", rfl, not_special_ascii _ rfl⟩
  · exact ⟨ascii "lt;", rfl, not_special_ascii _ rfl⟩
  · exact ⟨ascii "gt;", rfl, not_special_ascii _ rfl⟩
  · exact ⟨ascii "quot;", rfl, not_special_ascii _ rfl⟩
  · exact ⟨ascii "apos;", rfl, not_special_ascii _ rfl⟩

/-- Of the bytes that have an entity, escaped text holds the `&` alone. -/
theorem amp_of_mem_escape (text : Text) :
    ∀ byte ∈ escape text, byte ∈ special → byte = amp := by
  intro byte member isSpecial
  obtain ⟨source, -, part⟩ := List.mem_flatMap.mp member
  by_cases escaped : source ∈ special
  · obtain ⟨more, spelled, plain⟩ := entity_of_special source escaped
    rw [spelled] at part
    rcases List.mem_cons.mp part with first | later
    · exact first
    · exact absurd isSpecial (plain byte later)
  · rw [entity_of_not_special source escaped] at part
    rw [List.mem_singleton.mp part] at isSpecial
    exact absurd isSpecial escaped

theorem amp_entity (byte : UInt8) (i : Nat)
    (found : (entity byte)[i]? = some amp) : i = 0 ∧ byte ∈ special := by
  by_cases isSpecial : byte ∈ special
  · obtain ⟨more, spelled, plain⟩ := entity_of_special byte isSpecial
    rw [spelled] at found
    cases i with
    | zero => exact ⟨rfl, isSpecial⟩
    | succ i =>
        rw [List.getElem?_cons_succ] at found
        have later := plain amp (List.mem_of_getElem? found)
        simp [special] at later
  · rw [entity_of_not_special byte isSpecial] at found
    have member := List.mem_of_getElem? found
    rw [List.mem_singleton] at member
    subst member
    simp [special] at isSpecial

/-- Every `&` in escaped text is where a whole entity begins. -/
theorem amp_escape (text : Text) (i : Nat)
    (found : (escape text)[i]? = some amp) :
    ∃ byte ∈ special, entity byte <+: (escape text).drop i := by
  induction text generalizing i with
  | nil => simp [escape] at found
  | cons byte text ih =>
      rw [escape, List.flatMap_cons, ← escape] at found ⊢
      by_cases inside : i < (entity byte).length
      · rw [List.getElem?_append_left inside] at found
        obtain ⟨first, isSpecial⟩ := amp_entity byte i found
        subst first
        refine ⟨byte, isSpecial, ?_⟩
        rw [List.drop_zero]
        exact List.prefix_append _ _
      · have behind : (entity byte).length ≤ i := Nat.le_of_not_lt inside
        rw [List.getElem?_append_right behind] at found
        obtain ⟨meant, isSpecial, begins⟩ := ih _ found
        refine ⟨meant, isSpecial, ?_⟩
        rw [List.drop_append, List.drop_eq_nil_of_le behind,
          List.nil_append]
        exact begins

/-! ## Tags -/

structure Tag where
  name : Text
  attributes : List (Text × Text)
  closing : Text
  deriving DecidableEq

inductive LexState where
  | outside
  | name (read : Text)
  | inside (name : Text) (attributes : List (Text × Text))
  | key (name : Text) (attributes : List (Text × Text)) (read : Text)
  | quote (name : Text) (attributes : List (Text × Text)) (key : Text)
  | value (name : Text) (attributes : List (Text × Text)) (key : Text)
      (quote : UInt8) (read : Text)
  | closing (name : Text) (attributes : List (Text × Text)) (read : Text)

def isClosing (byte : UInt8) : Bool :=
  byte = slash || byte = question

/-- The tags of a document.  The name of an end tag begins with its `/`. -/
def lex : LexState → Text → Option (List Tag)
  | .outside, [] => some []
  | .outside, byte :: rest =>
      if byte = lt then lex (.name []) rest else lex .outside rest
  | .name _, [] => none
  | .name read, byte :: rest =>
      if byte = lt then none
      else if byte = gt then
        (lex .outside rest).map fun tags =>
          { name := read, attributes := [], closing := [] } :: tags
      else if isSpace byte then lex (.inside read []) rest
      else lex (.name (read ++ [byte])) rest
  | .inside _ _, [] => none
  | .inside name attributes, byte :: rest =>
      if byte = lt then none
      else if byte = gt then
        (lex .outside rest).map fun tags =>
          { name := name, attributes := attributes, closing := [] } :: tags
      else if isSpace byte then lex (.inside name attributes) rest
      else if isClosing byte then lex (.closing name attributes [byte]) rest
      else lex (.key name attributes [byte]) rest
  | .key _ _ _, [] => none
  | .key name attributes read, byte :: rest =>
      if byte = lt ∨ byte = gt ∨ isSpace byte then none
      else if byte = equals then lex (.quote name attributes read) rest
      else lex (.key name attributes (read ++ [byte])) rest
  | .quote _ _ _, [] => none
  | .quote name attributes key, byte :: rest =>
      if byte = quot ∨ byte = apos then
        lex (.value name attributes key byte []) rest
      else none
  | .value _ _ _ _ _, [] => none
  | .value name attributes key quote read, byte :: rest =>
      if byte = lt then none
      else if byte = quote then
        lex (.inside name (attributes ++ [(key, read)])) rest
      else lex (.value name attributes key quote (read ++ [byte])) rest
  | .closing _ _ _, [] => none
  | .closing name attributes read, byte :: rest =>
      if byte = gt then
        (lex .outside rest).map fun tags =>
          { name := name, attributes := attributes, closing := read } :: tags
      else none

/-! ## One byte in each state -/

section Bytes
variable (name key read : Text) (attributes : List (Text × Text))
  (quote byte : UInt8) (rest : Text)

theorem lex_outside_cons :
    lex .outside (byte :: rest) =
      if byte = lt then lex (.name []) rest else lex .outside rest := rfl

theorem lex_name_cons :
    lex (.name read) (byte :: rest) =
      if byte = lt then none
      else if byte = gt then
        (lex .outside rest).map fun tags =>
          { name := read, attributes := [], closing := [] } :: tags
      else if isSpace byte then lex (.inside read []) rest
      else lex (.name (read ++ [byte])) rest := rfl

theorem lex_inside_cons :
    lex (.inside name attributes) (byte :: rest) =
      if byte = lt then none
      else if byte = gt then
        (lex .outside rest).map fun tags =>
          { name := name, attributes := attributes, closing := [] } :: tags
      else if isSpace byte then lex (.inside name attributes) rest
      else if isClosing byte then lex (.closing name attributes [byte]) rest
      else lex (.key name attributes [byte]) rest := rfl

theorem lex_key_cons :
    lex (.key name attributes read) (byte :: rest) =
      if byte = lt ∨ byte = gt ∨ isSpace byte then none
      else if byte = equals then lex (.quote name attributes read) rest
      else lex (.key name attributes (read ++ [byte])) rest := rfl

theorem lex_quote_cons :
    lex (.quote name attributes key) (byte :: rest) =
      if byte = quot ∨ byte = apos then
        lex (.value name attributes key byte []) rest
      else none := rfl

theorem lex_value_cons :
    lex (.value name attributes key quote read) (byte :: rest) =
      if byte = lt then none
      else if byte = quote then
        lex (.inside name (attributes ++ [(key, read)])) rest
      else lex (.value name attributes key quote (read ++ [byte])) rest := rfl

theorem lex_closing_cons :
    lex (.closing name attributes read) (byte :: rest) =
      if byte = gt then
        (lex .outside rest).map fun tags =>
          { name := name, attributes := attributes, closing := read } :: tags
      else none := rfl

end Bytes

/-! ## Printing -/

def printAttribute (pair : Text × Text) : Text :=
  ascii " " ++ pair.1 ++ ascii "=\"" ++ pair.2 ++ ascii "\""

/-- Bytes that a name consists of. -/
def isNameByte (byte : UInt8) : Bool :=
  !(byte = lt || byte = gt || byte = equals || isSpace byte || isClosing byte)

/-- Bytes that a value in double quotes may hold. -/
def isValueByte (byte : UInt8) : Bool :=
  !(byte = lt || byte = quot)

structure AttributeFits (pair : Text × Text) : Prop where
  named : pair.1 ≠ []
  key : ∀ byte ∈ pair.1, isNameByte byte = true
  value : ∀ byte ∈ pair.2, isValueByte byte = true

theorem isValueByte_entity (byte : UInt8) :
    ∀ part ∈ entity byte, isValueByte part = true := by
  by_cases isSpecial : byte ∈ special
  · simp only [special, List.mem_cons, List.not_mem_nil, or_false]
      at isSpecial
    rcases isSpecial with rfl | rfl | rfl | rfl | rfl <;>
      exact List.all_eq_true.mp rfl
  · rw [entity_of_not_special byte isSpecial]
    intro part member
    rw [List.mem_singleton.mp member]
    have plain : byte ≠ lt ∧ byte ≠ quot := by
      constructor
      · intro same
        apply isSpecial
        rw [same]
        decide
      · intro same
        apply isSpecial
        rw [same]
        decide
    simp [isValueByte, plain]

/-- Escaped text may stand in a value. -/
theorem isValueByte_escape (text : Text) :
    ∀ byte ∈ escape text, isValueByte byte = true := by
  intro byte member
  obtain ⟨source, -, part⟩ := List.mem_flatMap.mp member
  exact isValueByte_entity source byte part

/-! ## Reading what was printed -/

section Reading
variable (name key : Text) (attributes : List (Text × Text))

theorem lex_outside (text rest : Text) (plain : lt ∉ text) :
    lex .outside (text ++ rest) = lex .outside rest := by
  induction text with
  | nil => rfl
  | cons byte text ih =>
      rw [List.mem_cons, not_or] at plain
      obtain ⟨differ, plain⟩ := plain
      rw [List.cons_append, lex_outside_cons, if_neg (Ne.symm differ)]
      exact ih plain

theorem nameByte_facts (byte : UInt8) (solid : isNameByte byte = true) :
    byte ≠ lt ∧ byte ≠ gt ∧ byte ≠ equals ∧ isSpace byte = false ∧
      isClosing byte = false := by
  simpa [isNameByte, not_or, and_assoc] using solid

theorem lex_name (read text rest : Text)
    (solid : ∀ byte ∈ text, isNameByte byte = true) :
    lex (.name read) (text ++ rest) = lex (.name (read ++ text)) rest := by
  induction text generalizing read with
  | nil => rw [List.nil_append, List.append_nil]
  | cons byte text ih =>
      obtain ⟨notLt, notGt, -, notSpace, -⟩ :=
        nameByte_facts byte (solid byte (List.mem_cons_self ..))
      rw [List.cons_append, lex_name_cons, if_neg notLt, if_neg notGt,
        notSpace, if_neg (by simp), ih _ fun other member =>
          solid other (List.mem_cons_of_mem _ member),
        List.append_assoc, List.singleton_append]

theorem lex_key (read text rest : Text)
    (solid : ∀ byte ∈ text, isNameByte byte = true) :
    lex (.key name attributes read) (text ++ rest) =
      lex (.key name attributes (read ++ text)) rest := by
  induction text generalizing read with
  | nil => rw [List.nil_append, List.append_nil]
  | cons byte text ih =>
      obtain ⟨notLt, notGt, notEquals, notSpace, -⟩ :=
        nameByte_facts byte (solid byte (List.mem_cons_self ..))
      rw [List.cons_append, lex_key_cons,
        if_neg (by simp [notLt, notGt, notSpace]), if_neg notEquals,
        ih _ fun other member => solid other (List.mem_cons_of_mem _ member),
        List.append_assoc, List.singleton_append]

theorem lex_value (read text rest : Text)
    (solid : ∀ byte ∈ text, isValueByte byte = true) :
    lex (.value name attributes key quot read) (text ++ rest) =
      lex (.value name attributes key quot (read ++ text)) rest := by
  induction text generalizing read with
  | nil => rw [List.nil_append, List.append_nil]
  | cons byte text ih =>
      have facts : byte ≠ lt ∧ byte ≠ quot := by
        simpa [isValueByte, not_or] using
          solid byte (List.mem_cons_self ..)
      rw [List.cons_append, lex_value_cons, if_neg facts.1, if_neg facts.2,
        ih _ fun other member => solid other (List.mem_cons_of_mem _ member),
        List.append_assoc, List.singleton_append]

theorem lex_attribute (pair : Text × Text)
    (fits : AttributeFits pair) (rest : Text) :
    lex (.inside name attributes) (printAttribute pair ++ rest) =
      lex (.inside name (attributes ++ [pair])) rest := by
  obtain ⟨key, value⟩ := pair
  obtain ⟨first, more, rfl⟩ := List.exists_cons_of_ne_nil fits.named
  have solid := fits.key
  simp only at solid
  obtain ⟨notLt, notGt, -, notSpace, notClosing⟩ :=
    nameByte_facts first (solid first (List.mem_cons_self ..))
  have shape : printAttribute (first :: more, value) ++ rest =
      space :: first :: (more ++ (equals :: quot ::
        (value ++ (quot :: rest)))) := by
    rw [printAttribute]
    simp only [List.append_assoc]
    rfl
  rw [shape, lex_inside_cons, if_neg (by decide), if_neg (by decide),
    if_pos (by decide)]
  rw [lex_inside_cons, if_neg notLt, if_neg notGt, notSpace, notClosing]
  simp only [Bool.false_eq_true, if_false]
  rw [lex_key name attributes [first] more _ fun other member =>
    solid other (List.mem_cons_of_mem _ member)]
  rw [List.singleton_append, lex_key_cons, if_neg (by decide), if_pos rfl,
    lex_quote_cons, if_pos (Or.inl rfl),
    lex_value name (first :: more) attributes [] value _ fits.value,
    List.nil_append, lex_value_cons, if_neg (by decide), if_pos rfl]

theorem lex_attributes (more : List (Text × Text))
    (fits : ∀ pair ∈ more, AttributeFits pair) (rest : Text) :
    lex (.inside name attributes) (more.flatMap printAttribute ++ rest) =
      lex (.inside name (attributes ++ more)) rest := by
  induction more generalizing attributes with
  | nil => rw [List.flatMap_nil, List.nil_append, List.append_nil]
  | cons pair more ih =>
      rw [List.flatMap_cons, List.append_assoc,
        lex_attribute name attributes pair
          (fits pair (List.mem_cons_self ..)),
        ih _ fun other member => fits other (List.mem_cons_of_mem _ member),
        List.append_assoc, List.singleton_append]

/-- The tag up to its closing. -/
theorem lex_opening (pairs : List (Text × Text)) (some : pairs ≠ [])
    (solid : ∀ byte ∈ name, isNameByte byte = true)
    (fits : ∀ pair ∈ pairs, AttributeFits pair) (rest : Text) :
    lex .outside (ascii "<" ++ name ++ pairs.flatMap printAttribute ++
        rest) =
      lex (.inside name pairs) rest := by
  have opened := lex_name [] name (pairs.flatMap printAttribute ++ rest) solid
  have whole := lex_attributes name [] pairs fits rest
  rw [List.nil_append] at opened whole
  rw [← whole, List.append_assoc, List.append_assoc]
  refine Eq.trans opened ?_
  -- the blank in front of the first attribute ends the name
  obtain ⟨first, more, rfl⟩ := List.exists_cons_of_ne_nil some
  have blank : ∀ text : Text, lex (.name name) (space :: text) =
      lex (.inside name []) (space :: text) := by
    intro text
    rw [lex_name_cons, lex_inside_cons, if_neg (by decide),
      if_neg (by decide), if_pos (by decide), if_neg (by decide),
      if_neg (by decide), if_pos (by decide)]
  rw [List.flatMap_cons, printAttribute]
  exact blank _

theorem lex_closing (closing : UInt8) (isEnd : isClosing closing = true)
    (rest : Text) :
    lex (.inside name attributes) (closing :: gt :: rest) =
      (lex .outside rest).map fun tags =>
        { name := name, attributes := attributes, closing := [closing] } ::
          tags := by
  have facts : closing ≠ lt ∧ closing ≠ gt ∧ isSpace closing = false := by
    have which : closing = slash ∨ closing = question := by
      simpa [isClosing] using isEnd
    rcases which with rfl | rfl <;> decide
  rw [lex_inside_cons, if_neg facts.1, if_neg facts.2.1, facts.2.2]
  simp only [Bool.false_eq_true, if_false, isEnd, if_true]
  rw [lex_closing_cons, if_pos rfl]

end Reading

end HenPlugins.Lib.XmlText
