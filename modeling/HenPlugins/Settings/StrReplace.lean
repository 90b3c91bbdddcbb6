import HenPlugins.Lib.ByteText
import HenPlugins.Lib.Substitution
import HenPlugins.Lib.WhileLoop

/-!
# `str_replace`

One loop with an output cursor serves four modes.  Three of them put something
in the place of a match, before it or behind it; they are substitution at the
leftmost matches, cut off where the buffer would be full.
-/

set_option autoImplicit false

namespace HenPlugins.Settings.StrReplace

open HenPlugins.Lib.ByteText
open HenPlugins.Lib.Substitution
open HenPlugins.Lib.WhileLoop

inductive ReplaceMode where
  | replaceMatch
  | addBefore
  | addAfter
  | replaceLine
  deriving DecidableEq

structure OutputBuffer where
  size : Nat
  positive : 0 < size

/-- The arguments of a call, with what stands before the NUL of each string.
The sizes are those of objects in memory, so their sums do not wrap around. -/
structure Replacing where
  input : Text
  search : Text
  replacement : Text
  output : OutputBuffer
  mode : ReplaceMode
  inputEnds : 0 ∉ input
  searchEnds : 0 ∉ search
  replacementEnds : 0 ∉ replacement

/-- `output` is what stands before the cursor; `stopped` is `goto done`. -/
structure ReplaceState where
  pos : Text
  output : Text
  stopped : Bool
  deriving DecidableEq

def newline : UInt8 := 0x0a

section Loop
variable (call : Replacing)

/-- The greatest length of the output. -/
def Replacing.limit : Nat := call.output.size - 1

def replaceGuard (state : ReplaceState) : Bool :=
  !state.stopped && !state.pos.isEmpty &&
    decide (state.output.length < call.limit)

def ReplaceState.stop (state : ReplaceState) : ReplaceState :=
  { state with stopped := true }

def ReplaceState.copy (state : ReplaceState) : ReplaceState :=
  { state with
    pos := state.pos.tail
    output := state.output ++ state.pos.take 1 }

/-- Add a text and go on behind the match. -/
def ReplaceState.put (state : ReplaceState) (added : Text)
    (searchLen : Nat) : ReplaceState :=
  { state with
    pos := state.pos.drop searchLen
    output := state.output ++ added }

/-- The rest of the input from the end of the line on. -/
def lineEnd (pos : Text) : Text :=
  pos.dropWhile (· ≠ newline)

def ReplaceState.putLine (state : ReplaceState) (replacement : Text) :
    ReplaceState :=
  match lineEnd state.pos with
  | [] => { state with pos := [], output := state.output ++ replacement }
  | lineBreak :: following =>
      { state with
        pos := following
        output := state.output ++ replacement ++ [lineBreak] }

def replaceBody (state : ReplaceState) : ReplaceState :=
  let outLen := state.output.length
  let searchLen := call.search.length
  let replacementLen := call.replacement.length
  if startsWith state.pos call.search then
    match call.mode with
    | .replaceMatch =>
        if call.limit ≤ outLen + replacementLen then state.stop
        else state.put call.replacement searchLen
    | .addBefore =>
        if call.limit ≤ outLen + replacementLen + searchLen then state.stop
        else state.put (call.replacement ++ state.pos.take searchLen) searchLen
    | .addAfter =>
        if call.limit ≤ outLen + searchLen + replacementLen then state.stop
        else state.put (state.pos.take searchLen ++ call.replacement) searchLen
    | .replaceLine =>
        -- the start of the line is looked up in the source, but not used
        if call.limit ≤ outLen + replacementLen + 1 then state.stop
        else state.putLine call.replacement
  else state.copy

def replaceStart : ReplaceState where
  pos := call.input
  output := []
  stopped := false

/-- The call returns and has written these bytes, the last of them NUL. -/
def StrReplaceWrites (written : Text) : Prop :=
  ∃ final, EndsIn (replaceGuard call) (replaceBody call) (replaceStart call)
    final ∧ written = final.output ++ [0]

/-- What the call leaves before the NUL; every round takes a byte of the input
or is the last one. -/
def strReplace : Text :=
  (runFor (replaceGuard call) (replaceBody call) (call.input.length + 1)
    (replaceStart call)).output

end Loop

/-! ## Rounds -/

/-- Every round takes something from the input or stops. -/
def remaining (state : ReplaceState) : Nat :=
  state.pos.length + if state.stopped then 0 else 1

theorem guard_cases (call : Replacing) (state : ReplaceState) :
    replaceGuard call state = true ↔
      state.stopped = false ∧ state.pos ≠ [] ∧
        state.output.length < call.limit := by
  rw [replaceGuard, Bool.and_eq_true, Bool.and_eq_true, Bool.not_eq_true',
    Bool.not_eq_true', decide_eq_true_eq, List.isEmpty_eq_false_iff, and_assoc]

section Rounds
variable (call : Replacing)

theorem body_copy (state : ReplaceState)
    (noMatch : startsWith state.pos call.search = false) :
    replaceBody call state = state.copy := by
  rw [replaceBody]
  simp only [noMatch, Bool.false_eq_true, if_false]

theorem remaining_body (nonempty : call.search ≠ []) (state : ReplaceState)
    (continues : replaceGuard call state = true) :
    remaining (replaceBody call state) < remaining state := by
  obtain ⟨running, present, -⟩ := (guard_cases call state).mp continues
  have some := List.length_pos_iff.mpr present
  have searched := List.length_pos_iff.mpr nonempty
  have stopped : remaining state.stop < remaining state := by
    rw [remaining, remaining, ReplaceState.stop, running]
    simp only [if_true, Bool.false_eq_true, if_false]
    omega
  have put : ∀ added, remaining (state.put added call.search.length) <
      remaining state := by
    intro added
    rw [remaining, remaining, ReplaceState.put, List.length_drop]
    simp only
    omega
  have copied : remaining state.copy < remaining state := by
    rw [remaining, remaining, ReplaceState.copy, List.length_tail]
    simp only
    omega
  have line : remaining (state.putLine call.replacement) <
      remaining state := by
    have shorter := List.length_dropWhile_le (· ≠ newline) state.pos
    rw [ReplaceState.putLine]
    cases shape : lineEnd state.pos with
    | nil =>
        simp only [remaining, running]
        rw [List.length_nil]
        omega
    | cons lineBreak following =>
        rw [lineEnd] at shape
        rw [shape, List.length_cons] at shorter
        simp only [remaining, running]
        omega
  rw [replaceBody]
  cases startsWith state.pos call.search with
  | false => exact copied
  | true =>
      cases call.mode with
      | replaceMatch =>
          simp only [if_true]
          split
          · exact stopped
          · exact put _
      | addBefore =>
          simp only [if_true]
          split
          · exact stopped
          · exact put _
      | addAfter =>
          simp only [if_true]
          split
          · exact stopped
          · exact put _
      | replaceLine =>
          simp only [if_true]
          split
          · exact stopped
          · exact line

theorem strReplace_ends (nonempty : call.search ≠ []) :
    ∃ final, EndsIn (replaceGuard call) (replaceBody call) (replaceStart call)
      final ∧ final.output = strReplace call := by
  have stops := guard_runFor_of_measure (replaceGuard call) (replaceBody call)
    remaining (remaining_body call nonempty) (call.input.length + 1)
    (replaceStart call) (Nat.le_refl _)
  exact ⟨_, ⟨_, rfl, stops⟩, rfl⟩

theorem strReplace_writes (nonempty : call.search ≠ []) :
    StrReplaceWrites call (strReplace call ++ [0]) := by
  obtain ⟨final, ends, output⟩ := strReplace_ends call nonempty
  exact ⟨final, ends, by rw [output]⟩

end Rounds

/-! ## Substitution -/

section Substituting
variable (call : Replacing) (put : List Text)

/-- At a match the loop stops or puts these pieces in its place. -/
def PutsAtMatch : Prop :=
  ∀ state, startsWith state.pos call.search = true →
    replaceBody call state =
      if call.limit ≤ state.output.length + put.flatten.length then state.stop
      else state.put put.flatten call.search.length

def Replacing.reference : Text :=
  substitute call.search put call.input

/-- The output consists of the first pieces, and the input still holds the
others. -/
structure Substituted (state : ReplaceState) : Prop where
  cut : ∃ done, state.output = List.flatten done ∧
    pieces call.search put call.input =
      done ++ pieces call.search put state.pos
  bounded : state.output.length ≤ call.limit
  full : state.stopped = true → call.limit ≤ (call.reference put).length

theorem substituted_start : Substituted call put (replaceStart call) := by
  constructor
  · exact ⟨[], rfl, rfl⟩
  · exact Nat.zero_le _
  · intro stopped
    exact Bool.noConfusion stopped

theorem length_reference (state : ReplaceState) (done : List Text)
    (output : state.output = done.flatten)
    (parts : pieces call.search put call.input =
      done ++ pieces call.search put state.pos) :
    (call.reference put).length = state.output.length +
      (substitute call.search put state.pos).length := by
  rw [Replacing.reference, substitute, parts, List.flatten_append,
    List.length_append, output]
  rfl

theorem substituted_body (puts : PutsAtMatch call put)
    (nonempty : call.search ≠ []) (state : ReplaceState)
    (continues : replaceGuard call state = true)
    (before : Substituted call put state) :
    Substituted call put (replaceBody call state) := by
  obtain ⟨running, present, room⟩ := (guard_cases call state).mp continues
  obtain ⟨⟨done, output, parts⟩, bounded, -⟩ := before
  cases found : startsWith state.pos call.search with
  | true =>
      have hit := pieces_hit call.search put state.pos nonempty found
      rw [puts state found]
      by_cases tight : call.limit ≤ state.output.length + put.flatten.length
      · rw [if_pos tight]
        refine ⟨⟨done, output, parts⟩, bounded, ?_⟩
        intro _
        rw [length_reference call put state done output parts, substitute, hit,
          List.flatten_append, List.length_append]
        omega
      · rw [if_neg tight]
        refine ⟨⟨done ++ put, ?_, ?_⟩, ?_, ?_⟩
        · rw [List.flatten_append, ← output]
          rfl
        · rw [parts, hit, List.append_assoc]
          rfl
        · rw [ReplaceState.put, List.length_append]
          omega
        · intro stopped
          rw [ReplaceState.put, running] at stopped
          exact Bool.noConfusion stopped
  | false =>
      rw [body_copy call state found]
      obtain ⟨head, rest, shape⟩ := List.exists_cons_of_ne_nil present
      rw [shape] at found parts
      have copied := pieces_copy call.search put head rest found
      refine ⟨⟨done ++ [[head]], ?_, ?_⟩, ?_, ?_⟩
      · rw [List.flatten_append, ← output, ReplaceState.copy, shape]
        rfl
      · rw [parts, copied, ReplaceState.copy, shape, List.append_assoc]
        rfl
      · rw [ReplaceState.copy, shape, List.length_append]
        exact room
      · intro stopped
        rw [ReplaceState.copy, running] at stopped
        exact Bool.noConfusion stopped

/-- What the call leaves is a string that fits, the reference cut between two
pieces, and all of it if there is room. -/
structure CutSubstitution (output : Text) : Prop where
  bounded : output.length ≤ call.output.size - 1
  terminated : 0 ∉ output
  isStart : output <+: call.reference put
  cut : ∃ count, output =
    ((pieces call.search put call.input).take count).flatten
  whole : (call.reference put).length + 2 ≤ call.output.size →
    output = call.reference put

theorem zero_not_mem_reference (putEnds : 0 ∉ put.flatten) :
    0 ∉ call.reference put := by
  intro member
  obtain inInput | inPut := mem_flatten_piecesAfter call.search put 0 0
    call.input member
  · exact call.inputEnds inInput
  · exact putEnds inPut

theorem cutSubstitution_of_final (putEnds : 0 ∉ put.flatten)
    (final : ReplaceState) (stopped : replaceGuard call final = false)
    (after : Substituted call put final) :
    CutSubstitution call put final.output := by
  obtain ⟨⟨done, output, parts⟩, bounded, full⟩ := after
  have isStart : final.output <+: call.reference put := by
    rw [Replacing.reference, substitute, parts, List.flatten_append, output]
    exact List.prefix_append _ _
  refine ⟨bounded, ?_, isStart, ⟨done.length, ?_⟩, ?_⟩
  · intro member
    exact zero_not_mem_reference call put putEnds (isStart.subset member)
  · rw [parts, List.take_left, output]
  · intro room
    have total := length_reference call put final done output parts
    have positive := call.output.positive
    rw [Replacing.limit] at bounded full
    have running : final.stopped = false := by
      apply Bool.eq_false_iff.mpr
      intro halted
      have short := full halted
      omega
    have finished : final.pos = [] := by
      by_contra present
      have continues := (guard_cases call final).mpr
        ⟨running, present, by rw [Replacing.limit]; omega⟩
      rw [stopped] at continues
      exact Bool.noConfusion continues
    rw [Replacing.reference, substitute, parts, finished, pieces_nil,
      List.append_nil, output]

theorem cutSubstitution_of_puts (puts : PutsAtMatch call put)
    (nonempty : call.search ≠ []) (putEnds : 0 ∉ put.flatten) :
    CutSubstitution call put (strReplace call) := by
  obtain ⟨final, ⟨count, run, stopped⟩, output⟩ :=
    strReplace_ends call nonempty
  have after := runFor_invariant (replaceGuard call) (replaceBody call)
    (Substituted call put) (substituted_body call put puts nonempty) count
    (replaceStart call) (substituted_start call put)
  rw [run] at after
  rw [← output]
  exact cutSubstitution_of_final call put putEnds final stopped after

end Substituting

/-! ## The three modes -/

section Modes
variable (call : Replacing)

/-- What the mode puts in the place of a match.  What was there before stays
apart, byte by byte. -/
def Replacing.putPieces : List Text :=
  let kept := call.search.map fun byte => [byte]
  match call.mode with
  | .replaceMatch => [call.replacement]
  | .addBefore => call.replacement :: kept
  | .addAfter => kept ++ [call.replacement]
  | .replaceLine => []

theorem putsAtMatch_of_mode (substituting : call.mode ≠ .replaceLine) :
    PutsAtMatch call call.putPieces := by
  intro state found
  have matched : state.pos.take call.search.length = call.search :=
    (List.prefix_iff_eq_take.mp (List.isPrefixOf_iff_prefix.mp found)).symm
  have kept : (call.search.map fun byte => [byte]).flatten = call.search :=
    List.flatMap_singleton' call.search
  rw [replaceBody, Replacing.putPieces]
  cases shape : call.mode with
  | replaceMatch =>
      simp only [found, if_true, List.flatten_cons, List.flatten_nil,
        List.append_nil]
  | addBefore =>
      simp only [found, if_true, matched, List.flatten_cons, kept,
        List.length_append, Nat.add_assoc]
  | addAfter =>
      simp only [found, if_true, matched, List.flatten_append, kept,
        List.flatten_cons, List.flatten_nil, List.append_nil,
        List.length_append, Nat.add_assoc]
  | replaceLine => exact absurd shape substituting

theorem zero_not_mem_putPieces : 0 ∉ call.putPieces.flatten := by
  have kept : (call.search.map fun byte => [byte]).flatten = call.search :=
    List.flatMap_singleton' call.search
  have search := call.searchEnds
  have replacement := call.replacementEnds
  rw [Replacing.putPieces]
  cases call.mode with
  | replaceMatch => simp [replacement]
  | addBefore => simp [kept, search, replacement]
  | addAfter => simp [kept, search, replacement]
  | replaceLine => simp

/-- A search text that ends with the only line break in it takes the rest of
the line. -/
theorem putsAtMatch_lineBreak (lines : call.mode = .replaceLine)
    (others : Text) (search : call.search = others ++ [newline])
    (once : newline ∉ others) :
    PutsAtMatch call [call.replacement ++ [newline]] := by
  intro state found
  obtain ⟨rest, shape⟩ := List.isPrefixOf_iff_prefix.mp found
  have passed : ∀ byte ∈ others, decide (byte ≠ newline) = true := by
    intro byte member
    rw [decide_eq_true_eq]
    rintro rfl
    exact once member
  have ended : lineEnd state.pos = newline :: rest := by
    rw [lineEnd, ← shape, search, List.append_assoc,
      List.dropWhile_append_of_pos passed]
    simp
  have following : state.pos.drop call.search.length = rest := by
    rw [← shape, List.drop_left]
  have put : state.putLine call.replacement =
      state.put (call.replacement ++ [newline]) call.search.length := by
    simp only [ReplaceState.putLine, ReplaceState.put, ended, following,
      List.append_assoc]
  simp only [replaceBody, found, lines, put, if_true, List.flatten_cons,
    List.flatten_nil, List.append_nil, List.length_append,
    List.length_singleton, Nat.add_assoc]

theorem strReplace_substitutes (substituting : call.mode ≠ .replaceLine)
    (nonempty : call.search ≠ []) :
    ∃ output, StrReplaceWrites call (output ++ [0]) ∧
      CutSubstitution call call.putPieces output :=
  ⟨strReplace call, strReplace_writes call nonempty,
    cutSubstitution_of_puts call call.putPieces
      (putsAtMatch_of_mode call substituting) nonempty
      (zero_not_mem_putPieces call)⟩

end Modes

/-- `ab` before every `b` of `abb`, in a buffer that holds one of them. -/
def narrowCall : Replacing where
  input := ascii "abb"
  search := ascii "b"
  replacement := ascii "ab"
  output := { size := 7, positive := by decide }
  mode := .addBefore
  inputEnds := by decide
  searchEnds := by decide
  replacementEnds := by decide

theorem narrowCall_substitutes :
    ∃ output, StrReplaceWrites narrowCall (output ++ [0]) ∧
      CutSubstitution narrowCall narrowCall.putPieces output :=
  strReplace_substitutes narrowCall (by decide) (by decide)

end HenPlugins.Settings.StrReplace
