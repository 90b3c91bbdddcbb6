import HenPlugins.Settings.StrReplace

/-!
# The patched settings root

`SetupSettingsRoot` rewrites the page twice in buffers of 8192 bytes and then
puts the byte order mark in front.  The rewrites leave no room for the mark, so
the page is served whole exactly when the rewritten text is three bytes and a
NUL shorter than a buffer.
-/

set_option autoImplicit false

namespace HenPlugins.Settings.SettingsRoot

open HenPlugins.Lib.ByteText
open HenPlugins.Lib.Substitution
open HenPlugins.Settings.StrReplace

def maxBuf : Nat := 8 * 1024

structure Buffer where
  bytes : List UInt8
  sized : bytes.length = maxBuf

def Buffer.zeroed : Buffer where
  bytes := List.replicate maxBuf 0
  sized := List.length_replicate

/-- Bytes are written at the offset; `none` is a write outside the buffer. -/
def Buffer.put (buffer : Buffer) (start : Nat) (data : List UInt8) :
    Option Buffer :=
  if inside : start + data.length ≤ maxBuf then
    some
      { bytes := buffer.bytes.take start ++ data ++
          buffer.bytes.drop (start + data.length)
        sized := by
          have sized := buffer.sized
          simp only [List.length_append, List.length_take, List.length_drop]
          omega }
  else none

/-- The string at the beginning of the buffer. -/
def Buffer.string (buffer : Buffer) : Text :=
  before 0 buffer.bytes

/-- `strncat(buffer, text, strlen(text))` -/
def Buffer.strncat (buffer : Buffer) (text : Text) : Option Buffer :=
  buffer.put buffer.string.length (text ++ [0])

/-- `strncpy(buffer, text, strlen(text))`: without a NUL. -/
def Buffer.strncpy (buffer : Buffer) (text : Text) : Option Buffer :=
  buffer.put 0 text

theorem zero_not_mem_string (buffer : Buffer) : 0 ∉ buffer.string :=
  not_mem_before 0 buffer.bytes

/-- The text of a string, without its NUL. -/
structure CString where
  text : Text
  ends : 0 ∉ text

def bufferSize : OutputBuffer where
  size := maxBuf
  positive := by decide

def sandboxLink : Text :=
  ascii "\t\t<link id=\"sandbox\" title=\"Sandbox\" file=\"Sandbox/sandbox.xml\" />\r\n"

def iconPath : Text :=
  ascii "/data/hen/shellui_data/icons/hen_settings_icon.png"

/-- A star, in UTF-8. -/
def star : Text := [0xe2, 0x98, 0x85]

def henLink : Text :=
  ascii "\t\t<link id=\"hen_settings\" title=\"" ++ star ++
    ascii " HEN Settings\" file=\"hen_settings.xml\" icon=\"file://" ++
    iconPath ++ ascii "\" />\r\n"

def psnFocus : Text := ascii "initial_focus_to=\"psn\">\r\n"

def henFocus : Text := ascii "initial_focus_to=\"hen_settings\">\r\n"

/-- Add the link before that of the sandbox. -/
def addLink (xml : CString) : Replacing where
  input := xml.text
  search := sandboxLink
  replacement := henLink
  output := bufferSize
  mode := .addBefore
  inputEnds := xml.ends
  searchEnds := by decide
  replacementEnds := by decide

def moveFocus (buf : Buffer) : Replacing where
  input := buf.string
  search := psnFocus
  replacement := henFocus
  output := bufferSize
  mode := .replaceLine
  inputEnds := zero_not_mem_string buf
  searchEnds := by decide
  replacementEnds := by decide

def bomHeader : Text := [0xef, 0xbb, 0xbf]

/-- What is served: `buf_fixed` up to `buflen`.  There is no result where a
byte is written outside a buffer. -/
def setupSettingsRoot (xml : CString) : Option Text := do
  let buf ← Buffer.zeroed.put 0 (strReplace (addLink xml) ++ [0])
  let buf2 ← Buffer.zeroed.strncat buf.string
  let buf2 ← buf2.put 0 (strReplace (moveFocus buf) ++ [0])
  let buf ← buf.put 0 (List.replicate maxBuf 0)
  let buf ← buf.put 0 bomHeader
  let buf ← buf.strncat buf2.string
  let bufFixed ← Buffer.zeroed.strncpy buf.string
  return bufFixed.string

/-- The page with the link. -/
def linked (xml : Text) : Text :=
  substitute sandboxLink (henLink :: sandboxLink.map fun byte => [byte]) xml

/-- What the two steps make of the page where nothing is cut off.  The second
adds a line break: its search and its text have one each. -/
def transformed (xml : Text) : Text :=
  substitute psnFocus [henFocus ++ [newline]] (linked xml)

def CompleteAndFits (xml : CString) : Prop :=
  setupSettingsRoot xml = some (bomHeader ++ transformed xml.text)

theorem string_of_bytes (buffer : Buffer) (text rest : List UInt8)
    (bytes : buffer.bytes = text ++ rest) (ends : 0 ∉ text)
    (closed : ∀ byte ∈ rest.head?, byte = 0) : buffer.string = text := by
  rw [Buffer.string, bytes]
  cases rest with
  | nil =>
      rw [List.append_nil, before, List.takeWhile_eq_self_iff]
      intro byte member
      simpa using fun same : byte = 0 => ends (same ▸ member)
  | cons byte others =>
      rw [closed byte rfl]
      exact before_append_of_not_mem 0 text others ends

theorem put_eq_some_iff (buffer after : Buffer) (start : Nat)
    (data : List UInt8) :
    buffer.put start data = some after ↔
      start + data.length ≤ maxBuf ∧ after.bytes = buffer.bytes.take start ++
        data ++ buffer.bytes.drop (start + data.length) := by
  rw [Buffer.put]
  split
  · rename_i inside
    rw [Option.some.injEq]
    constructor
    · rintro rfl
      exact ⟨inside, rfl⟩
    · rintro ⟨-, bytes⟩
      cases after
      simp only at bytes
      simp [bytes]
  · rename_i outside
    exact ⟨fun impossible => absurd impossible.symm (Option.some_ne_none _),
      fun both => absurd both.1 outside⟩

theorem string_put_nul (buffer after : Buffer) (text : Text) (ends : 0 ∉ text)
    (written : buffer.put 0 (text ++ [0]) = some after) :
    after.string = text := by
  obtain ⟨-, bytes⟩ := (put_eq_some_iff _ _ _ _).mp written
  apply string_of_bytes after text
    ([0] ++ buffer.bytes.drop (0 + (text ++ [0]).length))
  · rw [bytes, List.take_zero, List.nil_append, List.append_assoc]
  · exact ends
  · simp

theorem string_strncat (buffer after : Buffer) (text : Text) (ends : 0 ∉ text)
    (written : buffer.strncat text = some after) :
    after.string = buffer.string ++ text := by
  obtain ⟨-, bytes⟩ := (put_eq_some_iff _ _ _ _).mp written
  have start : buffer.bytes.take buffer.string.length = buffer.string :=
    (List.prefix_iff_eq_take.mp (before_isPrefix 0 _)).symm
  apply string_of_bytes after (buffer.string ++ text)
    ([0] ++ buffer.bytes.drop (buffer.string.length + (text ++ [0]).length))
  · rw [bytes, start]
    simp
  · rw [List.mem_append, not_or]
    exact ⟨zero_not_mem_string buffer, ends⟩
  · simp

/-- In a cleared buffer a text needs no NUL. -/
theorem string_put_zeroed (buffer after : Buffer) (text : Text)
    (ends : 0 ∉ text) (clear : buffer.bytes = List.replicate maxBuf 0)
    (written : buffer.put 0 text = some after) : after.string = text := by
  obtain ⟨-, bytes⟩ := (put_eq_some_iff _ _ _ _).mp written
  apply string_of_bytes after text (buffer.bytes.drop (0 + text.length))
  · rw [bytes, List.take_zero, List.nil_append]
  · exact ends
  · intro byte member
    rw [clear, List.drop_replicate] at member
    exact List.eq_of_mem_replicate (List.mem_of_mem_head? member)

theorem put_isSome (buffer : Buffer) (start : Nat) (data : List UInt8)
    (inside : start + data.length ≤ maxBuf) :
    ∃ after, buffer.put start data = some after := by
  rw [Buffer.put, dif_pos inside]
  exact ⟨_, rfl⟩

theorem put_none (buffer : Buffer) (start : Nat) (data : List UInt8)
    (outside : maxBuf < start + data.length) :
    buffer.put start data = none := by
  rw [Buffer.put, dif_neg (Nat.not_le.mpr outside)]

/-- Each sandbox link brings the new link and each focus line ten bytes. -/
def rootLength (xml : Text) : Nat :=
  xml.length + henLink.length * countMatches sandboxLink xml +
    (henFocus.length + 1 - psnFocus.length) * countMatches psnFocus xml

theorem sandboxLink_divided :
    0x09 :: sandboxLink.tail.dropLast ++ [newline] = sandboxLink := by
  rfl

set_option maxRecDepth 2048 in
theorem henLink_divided :
    0x09 :: henLink.tail.dropLast ++ [newline] = henLink := by
  rfl

theorem psnFocus_divided : psnFocus.dropLast ++ [newline] = psnFocus := by
  rfl

theorem sandboxLink_ne_nil : sandboxLink ≠ [] := by decide

theorem psnFocus_ne_nil : psnFocus ≠ [] := by decide

theorem countMatches_linked (xml : Text) :
    countMatches psnFocus (linked xml) = countMatches psnFocus xml := by
  have inserted := countMatches_insertBefore 0x09 newline psnFocus.dropLast
    (by decide) (by decide) sandboxLink.tail.dropLast henLink.tail.dropLast
  rw [sandboxLink_divided, henLink_divided, psnFocus_divided] at inserted
  exact inserted (by decide) (by decide) xml []

theorem length_linked (xml : Text) :
    (linked xml).length =
      xml.length + henLink.length * countMatches sandboxLink xml := by
  have total := length_substitute sandboxLink
    (henLink :: sandboxLink.map fun byte => [byte]) sandboxLink_ne_nil xml
  have kept : (sandboxLink.map fun byte => [byte]).flatten = sandboxLink :=
    List.flatMap_singleton' sandboxLink
  rw [List.flatten_cons, kept, List.length_append, Nat.add_mul] at total
  rw [linked]
  omega

theorem length_transformed (xml : Text) :
    (transformed xml).length = rootLength xml := by
  have total := length_substitute psnFocus [henFocus ++ [newline]]
    psnFocus_ne_nil (linked xml)
  have grows : (henFocus ++ [newline]).length =
      psnFocus.length + (henFocus.length + 1 - psnFocus.length) := by decide
  rw [countMatches_linked, length_linked, List.flatten_cons, List.flatten_nil,
    List.append_nil, grows, Nat.add_mul] at total
  rw [transformed, rootLength]
  omega

section Run
variable (xml : CString)

theorem first_cut :
    CutSubstitution (addLink xml) (addLink xml).putPieces
      (strReplace (addLink xml)) :=
  cutSubstitution_of_puts _ _
    (putsAtMatch_of_mode _ fun same => ReplaceMode.noConfusion same)
    sandboxLink_ne_nil (zero_not_mem_putPieces _)

theorem second_cut (buf : Buffer) :
    CutSubstitution (moveFocus buf) [henFocus ++ [newline]]
      (strReplace (moveFocus buf)) :=
  cutSubstitution_of_puts _ _
    (putsAtMatch_lineBreak _ rfl psnFocus.dropLast psnFocus_divided.symm
      (by decide)) psnFocus_ne_nil (by decide)

theorem cut_fits (call : Replacing) (put : List Text) (output : Text)
    (cut : CutSubstitution call put output)
    (size : call.output.size = maxBuf) :
    0 + (output ++ [0]).length ≤ maxBuf := by
  have bounded := cut.bounded
  have positive := call.output.positive
  rw [List.length_append, List.length_singleton]
  omega

theorem put_bomHeader (buf : Buffer) :
    ∃ erased marked, buf.put 0 (List.replicate maxBuf 0) = some erased ∧
      erased.put 0 bomHeader = some marked ∧ marked.string = bomHeader := by
  obtain ⟨erased, erase⟩ := put_isSome buf 0 (List.replicate maxBuf 0) (by
    rw [List.length_replicate, Nat.zero_add])
  obtain ⟨marked, mark⟩ := put_isSome erased 0 bomHeader (by decide)
  obtain ⟨-, bytes⟩ := (put_eq_some_iff _ _ _ _).mp erase
  have clear : erased.bytes = List.replicate maxBuf 0 := by
    rw [bytes, List.take_zero, List.nil_append, List.length_replicate,
      Nat.zero_add, ← buf.sized, List.drop_length, List.append_nil]
  exact ⟨erased, marked, erase, mark,
    string_put_zeroed _ _ _ (by decide) clear mark⟩

/-- Only the copy behind the byte order mark can leave its buffer. -/
theorem setupSettingsRoot_eq :
    ∃ buf : Buffer, buf.string = strReplace (addLink xml) ∧
      setupSettingsRoot xml =
        if (strReplace (moveFocus buf)).length + 4 ≤ maxBuf then
          some (bomHeader ++ strReplace (moveFocus buf))
        else none := by
  have first := first_cut xml
  have firstFits := cut_fits _ _ _ first rfl
  obtain ⟨buf, stepOne⟩ := put_isSome Buffer.zeroed 0 _ firstFits
  have bufString := string_put_nul _ _ _ first.terminated stepOne
  have second := second_cut buf
  have clear : Buffer.zeroed.string = [] :=
    string_of_bytes _ [] (List.replicate maxBuf 0) rfl List.not_mem_nil
      (fun byte member => List.eq_of_mem_replicate
        (List.mem_of_mem_head? member))
  obtain ⟨copied, copy⟩ := put_isSome Buffer.zeroed 0 (buf.string ++ [0]) (by
    rw [bufString]
    exact firstFits)
  obtain ⟨buf2, stepTwo⟩ := put_isSome copied 0 _ (cut_fits _ _ _ second rfl)
  have buf2String := string_put_nul _ _ _ second.terminated stepTwo
  obtain ⟨erased, marked, erase, mark, markString⟩ := put_bomHeader buf
  refine ⟨buf, bufString, ?_⟩
  have started : setupSettingsRoot xml = (do
      let joined ← marked.strncat buf2.string
      let bufFixed ← Buffer.zeroed.strncpy joined.string
      return bufFixed.string) := by
    simp only [setupSettingsRoot, stepOne, Buffer.strncat, clear, copy,
      stepTwo, erase, mark, List.length_nil, Option.bind_eq_bind,
      Option.bind_some]
  rw [started, buf2String]
  have size : bomHeader.length = 3 := rfl
  by_cases inside : (strReplace (moveFocus buf)).length + 4 ≤ maxBuf
  · obtain ⟨joined, join⟩ := put_isSome marked bomHeader.length
      (strReplace (moveFocus buf) ++ [0]) (by
        rw [List.length_append, List.length_singleton]
        omega)
    rw [← markString] at join
    have joinedString := string_strncat _ _ _ second.terminated join
    rw [markString] at joinedString
    have terminated : 0 ∉ bomHeader ++ strReplace (moveFocus buf) := by
      rw [← joinedString]
      exact zero_not_mem_string joined
    obtain ⟨bufFixed, fix⟩ := put_isSome Buffer.zeroed 0
      (bomHeader ++ strReplace (moveFocus buf)) (by
        rw [List.length_append]
        omega)
    have served := string_put_zeroed _ _ _ terminated rfl fix
    rw [if_pos inside]
    simp only [Buffer.strncat, join, joinedString, Buffer.strncpy, fix, served,
      Option.bind_eq_bind, Option.bind_some, Option.pure_def]
  · have join : marked.strncat (strReplace (moveFocus buf)) = none := by
      apply put_none
      rw [markString, List.length_append, List.length_singleton]
      omega
    rw [if_neg inside, join]
    rfl

theorem length_linked_le (text : Text) :
    (linked text).length ≤ rootLength text := by
  rw [length_linked, rootLength]
  exact Nat.le_add_right _ _

theorem complete_of_fits (fits : rootLength xml.text + 4 ≤ maxBuf) :
    CompleteAndFits xml := by
  obtain ⟨buf, bufString, setup⟩ := setupSettingsRoot_eq xml
  have short := length_linked_le xml.text
  have wide : bufferSize.size = maxBuf := rfl
  have first : strReplace (addLink xml) = linked xml.text :=
    (first_cut xml).whole (by
      show (linked xml.text).length + 2 ≤ maxBuf
      omega)
  have reference : (moveFocus buf).reference [henFocus ++ [newline]] =
      transformed xml.text := by
    have input : (moveFocus buf).input = linked xml.text :=
      bufString.trans first
    rw [Replacing.reference, input]
    rfl
  have second : strReplace (moveFocus buf) = transformed xml.text := by
    rw [← reference]
    apply (second_cut buf).whole
    rw [reference, length_transformed]
    show rootLength xml.text + 2 ≤ maxBuf
    omega
  rw [CompleteAndFits, setup, second, if_pos]
  rw [length_transformed]
  exact fits

theorem fits_of_complete (complete : CompleteAndFits xml) :
    rootLength xml.text + 4 ≤ maxBuf := by
  obtain ⟨buf, -, setup⟩ := setupSettingsRoot_eq xml
  rw [CompleteAndFits, setup] at complete
  split at complete
  · rename_i inside
    rw [Option.some.injEq] at complete
    rw [List.append_cancel_left complete, length_transformed] at inside
    exact inside
  · exact absurd complete.symm (Option.some_ne_none _)

theorem completeAndFits_iff :
    CompleteAndFits xml ↔ rootLength xml.text + 4 ≤ maxBuf :=
  ⟨fits_of_complete xml, complete_of_fits xml⟩

end Run

/-- A page of blanks that leaves no room for the mark. -/
def longPage : CString where
  text := List.replicate 8189 0x20
  ends := by
    intro member
    exact absurd (List.eq_of_mem_replicate member) (by decide)

theorem longPage_not_complete : ¬ CompleteAndFits longPage := by
  intro complete
  have fits := fits_of_complete longPage complete
  have long : longPage.text.length = 8189 := List.length_replicate
  rw [rootLength, long, maxBuf] at fits
  omega

end HenPlugins.Settings.SettingsRoot
