import HenPlugins.Memory.PatternScan

/-!
# The scan misses nothing

A place where the tokens are accepted is one where the scanner's comparison
succeeds, so the first of those is not behind it.  A result of zero means that
there is none, unless the address found is zero itself.
-/

set_option autoImplicit false

namespace HenPlugins.Memory.ScanComplete

open HenPlugins.Lib.ByteText
open HenPlugins.Memory.PatternScan

/-- A signature, perhaps with a blank behind it. -/
inductive SignatureText (tokens : List Token) : Text → Prop where
  | bare (text : Text) (signature : Signature tokens text) :
      SignatureText tokens text
  | trailing (text : Text) (signature : Signature tokens text) :
      SignatureText tokens (text ++ [blank])

/-- The signature matches at the position, wholly inside the module. -/
structure MatchesInside (scanBytes : Nat → UInt8) (moduleSize : Nat)
    (tokens : List Token) (position : Nat) : Prop where
  inside : position + tokens.length ≤ moduleSize
  accepts : ∀ (index : Nat) (token : Token), tokens[index]? = some token →
    token.accepts (scanBytes (position + index))

/-- No match lies before the position. -/
def NoneBefore (scanBytes : Nat → UInt8) (moduleSize : Nat)
    (tokens : List Token) (position : Nat) : Prop :=
  ∀ other, MatchesInside scanBytes moduleSize tokens other → position ≤ other

/-- If there is a match, the result leads to a position that none is before. -/
def FindsFirst (scanBytes : Nat → UInt8) (moduleBase : BitVec 64)
    (moduleSize : Nat) (tokens : List Token) (text : Text)
    (offset : BitVec 64) : Prop :=
  (∃ position, MatchesInside scanBytes moduleSize tokens position) →
    ∃ first, NoneBefore scanBytes moduleSize tokens first ∧
      patternScan scanBytes moduleBase moduleSize text offset =
        moduleBase + BitVec.ofNat 64 first + offset

structure MissesNothing (scanBytes : Nat → UInt8) (moduleBase : BitVec 64)
    (moduleSize : Nat) (tokens : List Token) (text : Text)
    (offset : BitVec 64) : Prop where
  found : FindsFirst scanBytes moduleBase moduleSize tokens text offset
  missing : patternScan scanBytes moduleBase moduleSize text offset = 0 →
    ∀ position, ¬ MatchesInside scanBytes moduleSize tokens position

/-- The same, but for an address that is zero itself. -/
structure MissesNoAddress (scanBytes : Nat → UInt8) (moduleBase : BitVec 64)
    (moduleSize : Nat) (tokens : List Token) (text : Text)
    (offset : BitVec 64) : Prop where
  found : FindsFirst scanBytes moduleBase moduleSize tokens text offset
  missing : patternScan scanBytes moduleBase moduleSize text offset = 0 →
    (∃ first < moduleSize, NoneBefore scanBytes moduleSize tokens first ∧
        moduleBase + BitVec.ofNat 64 first + offset = 0) ∨
      ∀ position, ¬ MatchesInside scanBytes moduleSize tokens position

theorem patternLoop_trailing (tokens : List Token) (text : Text)
    (signature : Signature tokens text) (fuel : Nat)
    (enough : text.length < fuel) :
    patternLoop fuel (text ++ [blank]) = tokens.map Token.code := by
  induction signature generalizing fuel with
  | last token spelled spelling =>
      obtain ⟨smaller, rfl⟩ : ∃ smaller, fuel = smaller + 1 :=
        ⟨fuel - 1, by omega⟩
      rw [patternLoop_token token spelled spelling smaller [blank]
        (Or.inr ⟨[], rfl⟩)]
      cases smaller <;> rfl
  | cons token spelled spelling tokens text later ih =>
      have positive := spelling_length token spelled spelling
      rw [List.length_append, List.length_cons] at enough
      obtain ⟨smaller, rfl⟩ : ∃ smaller, fuel = smaller + 1 :=
        ⟨fuel - 1, by omega⟩
      rw [List.append_assoc, List.cons_append,
        patternLoop_token token spelled spelling smaller
          (blank :: (text ++ [blank])) (Or.inr ⟨_, rfl⟩),
        List.drop_succ_cons, List.drop_zero, ih smaller (by omega),
        List.map_cons]

theorem patternToByte_signatureText (tokens : List Token) (text : Text)
    (spelled : SignatureText tokens text) :
    patternToByte text = tokens.map Token.code := by
  cases spelled with
  | bare _ signature => exact patternToByte_signature tokens text signature
  | trailing text signature =>
      apply patternLoop_trailing tokens text signature
      rw [List.length_append]
      exact Nat.lt_succ_self _

theorem nonempty_of_signatureText (tokens : List Token) (text : Text)
    (spelled : SignatureText tokens text) : tokens ≠ [] := by
  cases spelled with
  | bare _ signature => exact signature_nonempty tokens text signature
  | trailing text signature => exact signature_nonempty tokens text signature

theorem looselyAt_of_matchesInside (scanBytes : Nat → UInt8)
    (moduleSize : Nat) (tokens : List Token) (position : Nat)
    (here : MatchesInside scanBytes moduleSize tokens position) :
    LooselyAt scanBytes position tokens := by
  intro index token found
  have accepted := here.accepts index token found
  cases token with
  | byte value => exact Or.inl accepted
  | any => exact Or.inr rfl

theorem lt_of_matchesInside (scanBytes : Nat → UInt8) (moduleSize : Nat)
    (tokens : List Token) (nonempty : tokens ≠ []) (position : Nat)
    (here : MatchesInside scanBytes moduleSize tokens position) :
    position < moduleSize := by
  have positive := List.length_pos_of_ne_nil nonempty
  have inside := here.inside
  omega

theorem noneBefore_of_first (scanBytes : Nat → UInt8) (moduleSize : Nat)
    (tokens : List Token) (first : Nat)
    (clear : ∀ earlier < first, ¬ LooselyAt scanBytes earlier tokens) :
    NoneBefore scanBytes moduleSize tokens first := by
  intro other here
  apply Nat.le_of_not_lt
  intro before
  exact clear other before
    (looselyAt_of_matchesInside scanBytes moduleSize tokens other here)

/-- The scan stops at a place with no match before it, or there is no match;
only an address that is zero cannot be told from that. -/
theorem patternScan_missesNoAddress (scanBytes : Nat → UInt8)
    (moduleBase : BitVec 64) (moduleSize : Nat) (tokens : List Token)
    (text : Text) (offset : BitVec 64) (base : moduleBase ≠ 0)
    (size : 0 < moduleSize) (spelled : SignatureText tokens text)
    (short : tokens.length ≤ 511) :
    MissesNoAddress scanBytes moduleBase moduleSize tokens text offset := by
  have nonempty := nonempty_of_signatureText tokens text spelled
  obtain ⟨first, inside, -, clear, result⟩ | ⟨clear, -⟩ :=
    patternScan_bytes scanBytes moduleBase moduleSize tokens text
      (patternToByte_signatureText tokens text spelled) nonempty short offset
      base (Nat.ne_of_gt size)
  · have earliest := noneBefore_of_first scanBytes moduleSize tokens first
      clear
    constructor
    · intro _
      exact ⟨first, earliest, result⟩
    · intro zero
      exact Or.inl ⟨first, inside, earliest, result.symm.trans zero⟩
  · have none : ∀ position,
        ¬ MatchesInside scanBytes moduleSize tokens position := by
      intro position here
      exact clear position
        (lt_of_matchesInside scanBytes moduleSize tokens nonempty position
          here)
        (looselyAt_of_matchesInside scanBytes moduleSize tokens position here)
    constructor
    · intro some
      obtain ⟨position, here⟩ := some
      exact absurd here (none position)
    · intro _
      exact Or.inr none

/-- `nop; push rbp; mov rbp, rsp; ret` -/
def prologueBytes (index : Nat) : UInt8 :=
  ([0x90, 0x55, 0x48, 0x8b, 0xec, 0xc3][index]?).getD 0x90

theorem spelled_prologue :
    SignatureText [.byte 0x48, .any, .byte 0xec] (ascii "48 ?? Ec ") :=
  .trailing (ascii "48 ?? Ec")
    (.cons _ _ (.byte _ _ 4 8 rfl rfl) _ _
      (.cons _ _ .anyTwice _ _ (.last _ _ (.byte _ _ 14 12 rfl rfl))))

theorem patternScan_prologue :
    MissesNoAddress prologueBytes 0x1000 6 [.byte 0x48, .any, .byte 0xec]
      (ascii "48 ?? Ec ") (-2) :=
  patternScan_missesNoAddress prologueBytes 0x1000 6
    [.byte 0x48, .any, .byte 0xec] (ascii "48 ?? Ec ") (-2) (by decide)
    (by decide) spelled_prologue (by decide)

theorem matchesInside_nop :
    MatchesInside (fun _ => 0x90) 1 [.byte 0x90] 0 where
  inside := Nat.le_refl 1
  accepts := by
    intro index token found
    cases List.mem_singleton.mp (List.mem_of_getElem? found)
    rfl

/-- At the base zero nothing is found, and an offset may lead from the match to
zero. -/
theorem zero_is_no_address :
    ¬ MissesNothing (fun _ => 0x90) 0 1 [.byte 0x90] (ascii "90") 0 ∧
      ¬ MissesNothing (fun _ => 0x90) 0x1000 1 [.byte 0x90] (ascii "90")
        (-0x1000) :=
  ⟨fun missesNothing => missesNothing.missing rfl 0 matchesInside_nop,
    fun missesNothing => missesNothing.missing (by decide) 0
      matchesInside_nop⟩

end HenPlugins.Memory.ScanComplete
