import HenPlugins.Pkg.PkgPage

/-!
# Cut text is escaped text

`xml_escape` stops in front of the byte whose entity may not fit, so that what
it wrote is the escaped beginning of its input.
-/

set_option autoImplicit false

namespace HenPlugins.Pkg.EscapedText

open HenPlugins.Lib.ByteText
open HenPlugins.Lib.XmlText
open HenPlugins.Pkg.PkgPage

/-- What a reader relies on: `output` is what stands in front of the NUL in a
buffer of `outSz` bytes. -/
structure Escapes (input output : Text) (outSz : Nat) : Prop where
  fits : output.length + 1 ≤ outSz
  noMarkup : ∀ byte ∈ output,
    byte ≠ lt ∧ byte ≠ gt ∧ byte ≠ quot ∧ byte ≠ apos
  wholeEntities : ∀ i, output[i]? = some amp →
    ∃ byte ∈ special, entity byte <+: output.drop i
  decodes : unescape output <+: input
  complete : 6 * input.length + 1 ≤ outSz → unescape output = input

/-- The loop escapes some of its input, and leaves room for the NUL. -/
theorem xmlEscapeLoop_spec (outSz : Nat) (input : Text) (o : Nat)
    (inside : o < outSz) :
    ∃ count, xmlEscapeLoop outSz input o = escape (input.take count) ∧
      o + (escape (input.take count)).length < outSz := by
  induction input generalizing o with
  | nil => exact ⟨0, rfl, inside⟩
  | cons byte input ih =>
      rw [xmlEscapeLoop]
      by_cases room : o + 6 < outSz
      · have size := entity_length byte
        obtain ⟨count, written, fits⟩ :=
          ih (o + (entity byte).length) (by omega)
        refine ⟨count + 1, ?_, ?_⟩
        · rw [if_pos room, written, List.take_succ_cons, escape, escape,
            List.flatMap_cons]
        · rw [List.take_succ_cons, escape, List.flatMap_cons, ← escape,
            List.length_append]
          omega
      · exact ⟨0, by rw [if_neg room, List.take_zero]; rfl, inside⟩

theorem xmlEscape_spec (input : Text) (outSz : Nat) (room : 1 ≤ outSz) :
    ∃ count, xmlEscape input outSz = escape (input.take count) ∧
      (escape (input.take count)).length + 1 ≤ outSz := by
  obtain ⟨count, written, fits⟩ := xmlEscapeLoop_spec outSz input 0 room
  refine ⟨count, ?_, by omega⟩
  rw [xmlEscape, if_neg (by omega), written]

theorem unescape_escape (text : Text) : unescape (escape text) = text := by
  have undone := unescape_escape_append text []
  rw [List.append_nil] at undone
  rw [undone]
  exact List.append_nil text

theorem xmlEscape_invertible (input : Text) (outSz : Nat)
    (room : 1 ≤ outSz) :
    Escapes input (xmlEscape input outSz) outSz := by
  obtain ⟨count, written, fits⟩ := xmlEscape_spec input outSz room
  refine ⟨?_, ?_, ?_, ?_, ?_⟩
  · rw [written]
    exact fits
  · intro byte member
    rw [written] at member
    have alone := amp_of_mem_escape _ byte member
    refine ⟨?_, ?_, ?_, ?_⟩ <;>
    · intro same
      subst same
      exact absurd (alone (by decide)) (by decide)
  · intro i found
    rw [written] at found ⊢
    exact amp_escape _ i found
  · rw [written, unescape_escape]
    exact List.take_prefix count input
  · intro enough
    rw [xmlEscape_of_fits input outSz (by omega), unescape_escape]

/-- The `b` is cut, although it would have fitted. -/
theorem xmlEscape_invertible_cut :
    1 ≤ 11 ∧ Escapes (ascii "a<b") (xmlEscape (ascii "a<b") 11) 11 :=
  ⟨by decide, xmlEscape_invertible (ascii "a<b") 11 (by decide)⟩

end HenPlugins.Pkg.EscapedText
