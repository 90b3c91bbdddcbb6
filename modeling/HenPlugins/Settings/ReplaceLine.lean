import Mathlib.Data.List.Infix
import HenPlugins.Settings.StrReplace

/-!
# Replacing lines

When `str_replace` recognises a line it has already copied what stands before
the match.  So a line is replaced as a whole only where it begins with the
search text; and the room that is asked for at a match is that of a longer
output than the one that follows.
-/

set_option autoImplicit false

namespace HenPlugins.Settings.ReplaceLine

open HenPlugins.Lib.ByteText
open HenPlugins.Lib.Substitution
open HenPlugins.Lib.WhileLoop
open HenPlugins.Settings.StrReplace

/-- A call in mode `REPLACE_LINE`, except for the buffer. -/
structure LineReplacing where
  input : Text
  search : Text
  replacement : Text
  nonempty : search ≠ []
  singleLine : newline ∉ search
  singleReplacement : newline ∉ replacement
  inputEnds : 0 ∉ input
  searchEnds : 0 ∉ search
  replacementEnds : 0 ∉ replacement

def LineReplacing.call (replacing : LineReplacing) (output : OutputBuffer) :
    Replacing where
  input := replacing.input
  search := replacing.search
  replacement := replacing.replacement
  output := output
  mode := .replaceLine
  inputEnds := replacing.inputEnds
  searchEnds := replacing.searchEnds
  replacementEnds := replacing.replacementEnds

/-- The lines between the breaks, the last one without a break. -/
def linesOf (text : Text) : List Text :=
  text.splitOn newline

def joinLines (lines : List Text) : Text :=
  [newline].intercalate lines

section Lines
variable (replacing : LineReplacing)

/-- What is asked of a line. -/
def LineReplacing.replaced (line : Text) : Text :=
  if replacing.search <:+: line then replacing.replacement else line

/-- What becomes of a line. -/
def LineReplacing.written (line : Text) : Text :=
  (beforeMatch replacing.search line).elim line (· ++ replacing.replacement)

def LineReplacing.expected : Text :=
  joinLines ((linesOf replacing.input).map replacing.replaced)

/-- The call writes the expected text in every buffer that holds it with its
NUL and so many bytes more. -/
def LineReplacing.ReplacesWholeLines (extra : Nat) : Prop :=
  ∀ output : OutputBuffer,
    replacing.expected.length + 1 + extra ≤ output.size →
      StrReplaceWrites (replacing.call output) (replacing.expected ++ [0])

/-- The bytes that the test at a match asks for in vain, for what is written
of each line: two for a last line with a match, one for a match behind which
only its line break is written. -/
def LineReplacing.slack (write : Text → Text) : List Text → Nat
  | [] => 0
  | [last] =>
      if replacing.search <:+: last ∧ replacing.replacement ≠ [] then 2 else 0
  | line :: next :: rest =>
      if replacing.search <:+: line ∧
          joinLines ((next :: rest).map write) = [] then 1
      else slack write (next :: rest)

/-! ## Lines -/

theorem joinLines_singleton (line : Text) : joinLines [line] = line := by
  simp [joinLines]

theorem joinLines_cons (line next : Text) (rest : List Text) :
    joinLines (line :: next :: rest) =
      line ++ newline :: joinLines (next :: rest) := by
  simp [joinLines]

theorem joinLines_linesOf (text : Text) : joinLines (linesOf text) = text :=
  List.intercalate_splitOn newline

theorem linesOf_joinLines (lines : List Text) (some : lines ≠ [])
    (clean : ∀ line ∈ lines, newline ∉ line) :
    linesOf (joinLines lines) = lines :=
  List.splitOn_intercalate newline clean some

theorem clean_linesOf (text : Text) :
    ∀ line ∈ linesOf text, newline ∉ line := by
  induction text with
  | nil => simp [linesOf]
  | cons head rest ih =>
      intro line member
      rw [linesOf, List.splitOn_cons_eq_if_modifyHead] at member
      split at member
      · obtain rfl | inRest := List.mem_cons.mp member
        · exact List.not_mem_nil
        · exact ih line inRest
      · rename_i other
        cases shape : rest.splitOn newline with
        | nil => exact absurd shape (List.splitOn_ne_nil newline rest)
        | cons first others =>
            rw [linesOf, shape] at ih
            rw [shape, List.modifyHead_cons] at member
            obtain rfl | inRest := List.mem_cons.mp member
            · rw [List.mem_cons, not_or]
              refine ⟨?_, ih first List.mem_cons_self⟩
              intro same
              exact other (by rw [← same]; exact beq_self_eq_true newline)
            · exact ih line (List.mem_cons_of_mem first inRest)

/-- A match in a line does not depend on what follows the line. -/
theorem startsWith_line (line following : Text) :
    startsWith (line ++ newline :: following) replacing.search =
      startsWith line replacing.search :=
  isPrefixOf_append_foreign replacing.search newline replacing.singleLine line
    following

/-! ## One line -/

section Run
variable (output : OutputBuffer)

def Ends (state final : ReplaceState) : Prop :=
  EndsIn (replaceGuard (replacing.call output))
    (replaceBody (replacing.call output)) state final

/-- The loop goes on at this place of the input with this output. -/
def running (pos written : Text) : ReplaceState where
  pos := pos
  output := written
  stopped := false

theorem ends_copy (head : UInt8) (rest written : Text) (final : ReplaceState)
    (noMatch : startsWith (head :: rest) replacing.search = false)
    (room : written.length < output.size - 1)
    (onward : Ends replacing output (running rest (written ++ [head])) final) :
    Ends replacing output (running (head :: rest) written) final := by
  apply endsIn_of_body
  · exact (guard_cases _ _).mpr ⟨rfl, List.cons_ne_nil head rest, room⟩
  · rw [body_copy _ _ noMatch]
    exact onward

/-- What follows a line: nothing, or its break and the next one. -/
def Follows (tail : Text) : Prop :=
  tail = [] ∨ ∃ following, tail = newline :: following

theorem startsWith_follows (line tail : Text) (follows : Follows tail) :
    startsWith (line ++ tail) replacing.search =
      startsWith line replacing.search := by
  obtain rfl | ⟨following, rfl⟩ := follows
  · rw [List.append_nil]
  · exact startsWith_line replacing line following

theorem noMatch_newline (following : Text) :
    startsWith (newline :: following) replacing.search = false := by
  apply Bool.eq_false_iff.mpr
  intro starts
  have same := startsWith_line replacing [] following
  rw [List.nil_append, starts] at same
  have none := List.isPrefixOf_iff_prefix.mp same.symm
  exact replacing.nonempty (List.prefix_nil.mp none)

theorem ends_quietLine (line tail written : Text) (final : ReplaceState)
    (follows : Follows tail)
    (quiet : beforeMatch replacing.search line = none)
    (room : written.length + line.length ≤ output.size - 1)
    (onward : Ends replacing output (running tail (written ++ line)) final) :
    Ends replacing output (running (line ++ tail) written) final := by
  induction line generalizing written with
  | nil =>
      rw [List.append_nil] at onward
      exact onward
  | cons head rest ih =>
      have same := startsWith_follows replacing (head :: rest) tail follows
      rw [beforeMatch] at quiet
      split at quiet
      · exact absurd quiet (Option.some_ne_none [])
      · rename_i here
        have noMatch := same.trans (Bool.eq_false_iff.mpr here)
        rw [List.length_cons] at room
        apply ends_copy replacing output head (rest ++ tail) written final
          noMatch (by omega)
        apply ih (written ++ [head]) (Option.map_eq_none_iff.mp quiet)
        · rw [List.length_append, List.length_singleton]
          omega
        · rw [List.append_assoc]
          exact onward

/-- The part of a line before its first match is copied. -/
theorem ends_beforeMatch (line tail before written : Text)
    (follows : Follows tail) (clean : newline ∉ line)
    (found : beforeMatch replacing.search line = some before)
    (room : written.length + before.length ≤ output.size - 1) :
    ∃ matched, startsWith (matched ++ tail) replacing.search = true ∧
      newline ∉ matched ∧ ∀ final,
        Ends replacing output (running (matched ++ tail) (written ++ before))
            final →
          Ends replacing output (running (line ++ tail) written) final := by
  induction line generalizing before written with
  | nil => exact absurd found.symm (Option.some_ne_none before)
  | cons head rest ih =>
      have same := startsWith_follows replacing (head :: rest) tail follows
      rw [beforeMatch] at found
      split at found
      · rename_i here
        cases found
        refine ⟨head :: rest, same.trans here, clean, ?_⟩
        intro final onward
        rw [List.append_nil] at onward
        exact onward
      · rename_i here
        obtain ⟨later, foundLater, rfl⟩ := Option.map_eq_some_iff.mp found
        have noMatch := same.trans (Bool.eq_false_iff.mpr here)
        rw [List.length_cons] at room
        obtain ⟨matched, starts, cleanMatch, copied⟩ := ih later
          (written ++ [head])
          (fun member => clean (List.mem_cons_of_mem head member)) foundLater
          (by rw [List.length_append, List.length_singleton]; omega)
        refine ⟨matched, starts, cleanMatch, ?_⟩
        intro final onward
        apply ends_copy replacing output head (rest ++ tail) written final
          noMatch (by omega)
        apply copied
        rw [List.append_assoc]
        exact onward

theorem lineEnd_append (matched tail : Text) (clean : newline ∉ matched)
    (follows : Follows tail) : lineEnd (matched ++ tail) = tail := by
  have passed : ∀ byte ∈ matched, decide (byte ≠ newline) = true := by
    intro byte member
    rw [decide_eq_true_eq]
    rintro rfl
    exact clean member
  rw [lineEnd, List.dropWhile_append_of_pos passed]
  obtain rfl | ⟨following, rfl⟩ := follows
  · rfl
  · rw [List.dropWhile_cons_of_neg]
    simp

theorem guard_match (pos written : Text)
    (starts : startsWith pos replacing.search = true)
    (room : written.length < output.size - 1) :
    replaceGuard (replacing.call output) (running pos written) = true := by
  refine (guard_cases _ _).mpr ⟨rfl, ?_, room⟩
  rintro rfl
  have none := List.isPrefixOf_iff_prefix.mp starts
  exact replacing.nonempty (List.prefix_nil.mp none)

theorem body_match (pos written : Text)
    (starts : startsWith pos replacing.search = true) :
    replaceBody (replacing.call output) (running pos written) =
      if output.size - 1 ≤
          written.length + replacing.replacement.length + 1 then
        (running pos written).stop
      else (running pos written).putLine replacing.replacement := by
  simp only [replaceBody, LineReplacing.call, running, starts, if_true]
  rfl

/-- A match with room behind it. -/
theorem ends_put (pos written : Text) (final : ReplaceState)
    (starts : startsWith pos replacing.search = true)
    (room : written.length + replacing.replacement.length + 1 <
      output.size - 1)
    (onward : Ends replacing output
      ((running pos written).putLine replacing.replacement) final) :
    Ends replacing output (running pos written) final := by
  apply endsIn_of_body
  · exact guard_match replacing output pos written starts (by omega)
  · rw [body_match replacing output pos written starts,
      if_neg (Nat.not_le.mpr room)]
    exact onward

/-- A match without room: nothing more is written. -/
theorem ends_stop (pos written : Text)
    (starts : startsWith pos replacing.search = true)
    (tight : output.size - 1 ≤
      written.length + replacing.replacement.length + 1) :
    ∃ final, Ends replacing output (running pos written) final ∧
      final.output = written := by
  by_cases room : written.length < output.size - 1
  · refine ⟨(running pos written).stop, ?_, rfl⟩
    apply endsIn_of_body
    · exact guard_match replacing output pos written starts room
    · rw [body_match replacing output pos written starts, if_pos tight]
      exact endsIn_of_guard_false _ _ _ rfl
  · refine ⟨running pos written, endsIn_of_guard_false _ _ _ ?_, rfl⟩
    apply Bool.eq_false_iff.mpr
    intro continues
    exact room ((guard_cases _ _).mp continues).2.2

theorem ends_empty (written : Text) :
    Ends replacing output (running [] written) (running [] written) :=
  endsIn_of_guard_false _ _ _ rfl

theorem putLine_last (pos written replacement : Text)
    (last : lineEnd pos = []) :
    (running pos written).putLine replacement =
      running [] (written ++ replacement) := by
  simp only [ReplaceState.putLine, running, last]

theorem putLine_break (pos written replacement following : Text)
    (ended : lineEnd pos = newline :: following) :
    (running pos written).putLine replacement =
      running following (written ++ replacement ++ [newline]) := by
  simp only [ReplaceState.putLine, running, ended]

end Run

/-! ## All lines -/

theorem written_quiet (line : Text)
    (quiet : beforeMatch replacing.search line = none) :
    replacing.written line = line := by
  simp [LineReplacing.written, quiet]

theorem written_match (line before : Text)
    (found : beforeMatch replacing.search line = some before) :
    replacing.written line = before ++ replacing.replacement := by
  simp [LineReplacing.written, found]

theorem infix_of_some (line before : Text)
    (found : beforeMatch replacing.search line = some before) :
    replacing.search <:+: line := by
  by_contra absent
  rw [(beforeMatch_eq_none_iff _ replacing.nonempty line).mpr absent] at found
  exact Option.some_ne_none before found.symm

theorem not_infix_of_none (line : Text)
    (quiet : beforeMatch replacing.search line = none) :
    ¬ replacing.search <:+: line :=
  (beforeMatch_eq_none_iff _ replacing.nonempty line).mp quiet

theorem slack_of_empty (lines : List Text)
    (empty : joinLines (lines.map replacing.written) = []) :
    replacing.slack replacing.written lines = 0 := by
  cases lines with
  | nil => rfl
  | cons line others =>
      cases others with
      | nil =>
          rw [List.map_singleton, joinLines_singleton] at empty
          rw [LineReplacing.slack, if_neg]
          rintro ⟨matches', some⟩
          cases found : beforeMatch replacing.search line with
          | none => exact not_infix_of_none replacing line found matches'
          | some before =>
              rw [written_match replacing line before found] at empty
              exact some (List.append_eq_nil_iff.mp empty).2
      | cons next rest =>
          rw [List.map_cons, List.map_cons, joinLines_cons] at empty
          have none := (List.append_eq_nil_iff.mp empty).2
          exact absurd none (List.cons_ne_nil _ _)

section Run
variable (output : OutputBuffer)

/-- What the loop leaves of a text for which there is room: all of it, if and
only if there is room for the slack too. -/
def WritesWithSlack (state : ReplaceState) (text : Text) (extra : Nat) :
    Prop :=
  text.length ≤ output.size - 1 →
    ∃ final, Ends replacing output state final ∧
      (final.output = text ↔ text.length + extra ≤ output.size - 1)

theorem writes_lastLine (line written : Text) (clean : newline ∉ line) :
    WritesWithSlack replacing output (running line written)
      (written ++ replacing.written line)
      (replacing.slack replacing.written [line]) := by
  intro room
  rw [List.length_append] at room
  rw [LineReplacing.slack, List.length_append]
  cases found : beforeMatch replacing.search line with
  | none =>
      rw [written_quiet replacing line found] at room ⊢
      refine ⟨running [] (written ++ line), ?_, ?_⟩
      · have copied := ends_quietLine replacing output line [] written _
          (Or.inl rfl) found room (ends_empty replacing output _)
        rw [List.append_nil] at copied
        exact copied
      · have absent := not_infix_of_none replacing line found
        rw [if_neg fun both => absent both.1]
        exact ⟨fun _ => room, fun _ => rfl⟩
  | some before =>
      have present := infix_of_some replacing line before found
      rw [written_match replacing line before found, List.length_append]
        at room ⊢
      obtain ⟨matched, starts, cleanMatch, copied⟩ := ends_beforeMatch
        replacing output line [] before written (Or.inl rfl) clean found
        (by omega)
      simp only [List.append_nil] at copied starts
      have total : (written ++ before).length =
          written.length + before.length := List.length_append
      by_cases wide : (written ++ before).length +
          replacing.replacement.length + 1 < output.size - 1
      · have last : lineEnd matched = [] := by
          have ended := lineEnd_append matched [] cleanMatch (Or.inl rfl)
          rw [List.append_nil] at ended
          exact ended
        refine ⟨running [] (written ++ before ++ replacing.replacement), ?_, ?_⟩
        · apply copied
          apply ends_put replacing output matched _ _ starts wide
          rw [putLine_last _ _ _ last]
          exact ends_empty replacing output _
        · rw [← List.append_assoc]
          refine ⟨fun _ => ?_, fun _ => rfl⟩
          split <;> omega
      · obtain ⟨final, stops, kept⟩ := ends_stop replacing output matched
          (written ++ before) starts (Nat.le_of_not_lt wide)
        refine ⟨final, copied final stops, ?_⟩
        rw [kept, ← List.append_assoc, List.self_eq_append_right]
        constructor
        · intro empty
          rw [if_neg fun both => both.2 empty]
          omega
        · intro fits
          by_contra some
          rw [if_pos ⟨present, some⟩] at fits
          omega

section Onward
variable (line following later written : Text) (slack : Nat)
  (onward : ∀ written, WritesWithSlack replacing output
    (running following written) (written ++ later) slack)
include onward

/-- A line without a match in front of the rest of the text. -/
theorem writes_quietLine (found : beforeMatch replacing.search line = none) :
    WritesWithSlack replacing output
      (running (line ++ newline :: following) written)
      (written ++ (line ++ newline :: later)) slack := by
  intro room
  simp only [List.length_append, List.length_cons] at room
  have follows : Follows (newline :: following) := Or.inr ⟨following, rfl⟩
  obtain ⟨final, ends, exactly⟩ := onward (written ++ line ++ [newline])
    (by simp; omega)
  refine ⟨final, ?_, ?_⟩
  · apply ends_quietLine replacing output line _ written final follows found
      (by omega)
    apply ends_copy replacing output newline following _ final
    · exact noMatch_newline replacing following
    · rw [List.length_append]
      omega
    · exact ends
  · rw [show written ++ line ++ [newline] ++ later =
      written ++ (line ++ newline :: later) by simp] at exactly
    exact exactly

/-- A line with a match in front of the rest of the text: one byte more is
needed where only the line break follows. -/
theorem writes_matchLine (before : Text) (clean : newline ∉ line)
    (found : beforeMatch replacing.search line = some before)
    (noSlack : later = [] → slack = 0) :
    WritesWithSlack replacing output
      (running (line ++ newline :: following) written)
      (written ++ (before ++ replacing.replacement ++ newline :: later))
      (if later = [] then 1 else slack) := by
  intro room
  simp only [List.length_append, List.length_cons] at room
  have follows : Follows (newline :: following) := Or.inr ⟨following, rfl⟩
  obtain ⟨matched, starts, cleanMatch, copied⟩ := ends_beforeMatch
    replacing output line _ before written follows clean found (by omega)
  have ended := lineEnd_append matched _ cleanMatch follows
  have total : (written ++ before).length =
      written.length + before.length := List.length_append
  by_cases wide : (written ++ before).length +
      replacing.replacement.length + 1 < output.size - 1
  · obtain ⟨final, ends, exactly⟩ := onward
      (written ++ before ++ replacing.replacement ++ [newline])
      (by simp; omega)
    refine ⟨final, ?_, ?_⟩
    · apply copied
      apply ends_put replacing output _ _ _ starts wide
      rw [putLine_break _ _ _ _ ended]
      exact ends
    · rw [show written ++ before ++ replacing.replacement ++ [newline] ++
          later = written ++ (before ++ replacing.replacement ++
            newline :: later) by simp] at exactly
      rw [exactly]
      by_cases empty : later = []
      · rw [noSlack empty, if_pos empty]
        simp [empty]
        omega
      · rw [if_neg empty]
  · obtain ⟨final, stops, kept⟩ := ends_stop replacing output _
      (written ++ before) starts (Nat.le_of_not_lt wide)
    refine ⟨final, copied final stops, ?_⟩
    rw [kept]
    constructor
    · intro same
      have lengths := congrArg List.length same
      simp only [List.length_append, List.length_cons] at lengths
      omega
    · intro fits
      cases later with
      | nil => simp at fits; omega
      | cons head others => simp at fits; omega

end Onward

/-- The loop over the rest of the lines, for the line before them. -/
theorem writes_line (line next : Text) (rest : List Text) (written : Text)
    (clean : newline ∉ line)
    (onward : ∀ written, WritesWithSlack replacing output
      (running (joinLines (next :: rest)) written)
      (written ++ joinLines ((next :: rest).map replacing.written))
      (replacing.slack replacing.written (next :: rest))) :
    WritesWithSlack replacing output
      (running (joinLines (line :: next :: rest)) written)
      (written ++ joinLines ((line :: next :: rest).map replacing.written))
      (replacing.slack replacing.written (line :: next :: rest)) := by
  have noSlack := slack_of_empty replacing (next :: rest)
  rw [joinLines_cons, List.map_cons, List.map_cons, joinLines_cons,
    ← List.map_cons, LineReplacing.slack]
  cases found : beforeMatch replacing.search line with
  | none =>
      have absent := not_infix_of_none replacing line found
      rw [written_quiet replacing line found,
        if_neg fun both => absent both.1]
      exact writes_quietLine replacing output line _ _ written _ onward found
  | some before =>
      have present := infix_of_some replacing line before found
      have step := writes_matchLine replacing output line _ _ written _ onward
        before clean found noSlack
      simp only [written_match replacing line before found, present, true_and]
      exact step

theorem writes_lines (lines : List Text) (some : lines ≠ [])
    (clean : ∀ line ∈ lines, newline ∉ line) (written : Text) :
    WritesWithSlack replacing output (running (joinLines lines) written)
      (written ++ joinLines (lines.map replacing.written))
      (replacing.slack replacing.written lines) := by
  induction lines generalizing written with
  | nil => exact absurd rfl some
  | cons line others ih =>
      have lineClean := clean line List.mem_cons_self
      cases others with
      | nil =>
          rw [List.map_singleton, joinLines_singleton, joinLines_singleton]
          exact writes_lastLine replacing output line written lineClean
      | cons next rest =>
          exact writes_line replacing output line next rest written lineClean
            (ih (List.cons_ne_nil next rest) fun other member =>
              clean other (List.mem_cons_of_mem line member))

end Run

/-! ## The call -/

/-- What the call makes of the input if the buffer is large. -/
def LineReplacing.result : Text :=
  joinLines ((linesOf replacing.input).map replacing.written)

def LineReplacing.BeginsWithMatch : Prop :=
  ∀ line ∈ linesOf replacing.input, replacing.search <:+: line →
    replacing.search <+: line

theorem call_writes (output : OutputBuffer)
    (room : replacing.result.length ≤ output.size - 1) :
    ∃ text, StrReplaceWrites (replacing.call output) (text ++ [0]) ∧
      (text = replacing.result ↔ replacing.result.length +
        replacing.slack replacing.written (linesOf replacing.input) ≤
          output.size - 1) := by
  have lines := writes_lines replacing output (linesOf replacing.input)
    (List.splitOn_ne_nil newline replacing.input)
    (clean_linesOf replacing.input) [] room
  rw [joinLines_linesOf] at lines
  obtain ⟨final, ends, exactly⟩ := lines
  exact ⟨final.output, ⟨final, ends, rfl⟩, exactly⟩

theorem writes_unique (call : Replacing) (first second : Text)
    (writesFirst : StrReplaceWrites call (first ++ [0]))
    (writesSecond : StrReplaceWrites call (second ++ [0])) :
    first = second := by
  obtain ⟨left, leftEnds, leftText⟩ := writesFirst
  obtain ⟨right, rightEnds, rightText⟩ := writesSecond
  rw [endsIn_unique _ _ _ _ _ leftEnds rightEnds, ← rightText] at leftText
  exact List.append_cancel_right leftText

theorem writes_result_iff (output : OutputBuffer)
    (room : replacing.result.length ≤ output.size - 1) :
    StrReplaceWrites (replacing.call output) (replacing.result ++ [0]) ↔
      replacing.result.length +
        replacing.slack replacing.written (linesOf replacing.input) ≤
          output.size - 1 := by
  obtain ⟨text, writes, exactly⟩ := call_writes replacing output room
  rw [← exactly]
  constructor
  · exact writes_unique _ text _ writes
  · rintro rfl
    exact writes

theorem slack_le_two (write : Text → Text) (lines : List Text) :
    replacing.slack write lines ≤ 2 := by
  induction lines with
  | nil => exact Nat.zero_le 2
  | cons line others ih =>
      cases others with
      | nil =>
          rw [LineReplacing.slack]
          split <;> omega
      | cons next rest =>
          rw [LineReplacing.slack]
          split
          · omega
          · exact ih

theorem slack_congr (write other : Text → Text) (lines : List Text)
    (same : ∀ line ∈ lines, write line = other line) :
    replacing.slack write lines = replacing.slack other lines := by
  induction lines with
  | nil => rfl
  | cons line others ih =>
      have later := fun line' member =>
        same line' (List.mem_cons_of_mem line member)
      cases others with
      | nil => rfl
      | cons next rest =>
          rw [LineReplacing.slack, LineReplacing.slack, ih later,
            List.map_congr_left later]

theorem written_eq_replaced_iff (line : Text) :
    replacing.written line = replacing.replaced line ↔
      (replacing.search <:+: line → replacing.search <+: line) := by
  cases found : beforeMatch replacing.search line with
  | none =>
      have absent := not_infix_of_none replacing line found
      rw [written_quiet replacing line found, LineReplacing.replaced,
        if_neg absent]
      exact ⟨fun _ present => absurd present absent, fun _ => rfl⟩
  | some before =>
      have present := infix_of_some replacing line before found
      rw [written_match replacing line before found, LineReplacing.replaced,
        if_pos present, List.append_left_eq_self,
        ← beforeMatch_eq_nil_iff _ replacing.nonempty, found,
        Option.some.injEq]
      exact ⟨fun empty _ => empty, fun begins => begins present⟩

theorem newline_not_mem_written (line : Text) (clean : newline ∉ line) :
    newline ∉ replacing.written line := by
  cases found : beforeMatch replacing.search line with
  | none =>
      rw [written_quiet replacing line found]
      exact clean
  | some before =>
      rw [written_match replacing line before found, List.mem_append, not_or]
      refine ⟨?_, replacing.singleReplacement⟩
      intro member
      exact clean (mem_of_mem_beforeMatch _ line before newline found member)

theorem newline_not_mem_replaced (line : Text) (clean : newline ∉ line) :
    newline ∉ replacing.replaced line := by
  rw [LineReplacing.replaced]
  split
  · exact replacing.singleReplacement
  · exact clean

theorem linesOf_join_map (write : Text → Text)
    (kept : ∀ line, newline ∉ line → newline ∉ write line) (text : Text) :
    linesOf (joinLines ((linesOf text).map write)) =
      (linesOf text).map write := by
  apply linesOf_joinLines
  · rw [ne_eq, List.map_eq_nil_iff]
    exact List.splitOn_ne_nil newline text
  · intro line member
    obtain ⟨before, inText, rfl⟩ := List.mem_map.mp member
    exact kept before (clean_linesOf text before inText)

theorem result_eq_expected_iff :
    replacing.result = replacing.expected ↔ replacing.BeginsWithMatch := by
  constructor
  · intro same
    have lines := congrArg linesOf same
    rw [LineReplacing.result, LineReplacing.expected,
      linesOf_join_map _ (newline_not_mem_written replacing),
      linesOf_join_map _ (newline_not_mem_replaced replacing)] at lines
    intro line member
    exact (written_eq_replaced_iff replacing line).mp
      (List.map_inj_left.mp lines line member)
  · intro begins
    rw [LineReplacing.result, LineReplacing.expected]
    congr 1
    apply List.map_congr_left
    intro line member
    exact (written_eq_replaced_iff replacing line).mpr (begins line member)

theorem begins_of_replaces (extra : Nat)
    (replaces : replacing.ReplacesWholeLines extra) :
    replacing.BeginsWithMatch := by
  have small := slack_le_two replacing replacing.written
    (linesOf replacing.input)
  let wide : OutputBuffer :=
    { size := replacing.expected.length + 1 + extra +
        (replacing.result.length + 2)
      positive := by omega }
  have asked := replaces wide (Nat.le_add_right _ _)
  have given := (writes_result_iff replacing wide
    (by simp only [wide]; omega)).mpr (by simp only [wide]; omega)
  rw [← result_eq_expected_iff]
  exact writes_unique _ _ _ given asked

theorem replacesWholeLines_iff (extra : Nat) :
    replacing.ReplacesWholeLines extra ↔
      replacing.BeginsWithMatch ∧
        replacing.slack replacing.replaced (linesOf replacing.input) ≤
          extra := by
  constructor
  · intro replaces
    have begins := begins_of_replaces replacing extra replaces
    have same := (result_eq_expected_iff replacing).mpr begins
    refine ⟨begins, ?_⟩
    let exact' : OutputBuffer :=
      { size := replacing.expected.length + 1 + extra, positive := by omega }
    have asked := replaces exact' (Nat.le_refl _)
    rw [← same, writes_result_iff replacing exact'
      (by simp only [exact', same]; omega)] at asked
    rw [← slack_congr replacing replacing.written replacing.replaced]
    · simp only [exact', same] at asked
      omega
    · intro line member
      exact (written_eq_replaced_iff replacing line).mpr (begins line member)
  · rintro ⟨begins, enough⟩ output large
    have same := (result_eq_expected_iff replacing).mpr begins
    rw [← same] at large ⊢
    rw [writes_result_iff replacing output (by omega),
      slack_congr replacing replacing.written replacing.replaced]
    · omega
    · intro line member
      exact (written_eq_replaced_iff replacing line).mpr (begins line member)

end Lines

/-- An indented line. -/
def indentedLine : LineReplacing where
  input := ascii "  focus"
  search := ascii "focus"
  replacement := ascii "none"
  nonempty := by decide
  singleLine := by decide
  singleReplacement := by decide
  inputEnds := by decide
  searchEnds := by decide
  replacementEnds := by decide

theorem indentedLine_not_replaced :
    ¬ ∃ extra, indentedLine.ReplacesWholeLines extra := by
  rintro ⟨extra, replaces⟩
  have begins := begins_of_replaces indentedLine extra replaces
  exact absurd (begins (ascii "  focus") (by decide) (by decide)) (by decide)

end HenPlugins.Settings.ReplaceLine
