import Mathlib.Data.Nat.Find
import HenPlugins.Pkg.PkgEntries

/-!
# Title ids in file names

The form that is documented, a letter C, P or U, three capitals and five digits,
has nine bytes; the scanner looks for ten.
-/

set_option autoImplicit false

namespace HenPlugins.Pkg.TitleIds

open HenPlugins.Lib.ByteText
open HenPlugins.Pkg.PkgEntries

def isCapital (byte : UInt8) : Bool :=
  'A'.toUInt8 ≤ byte && byte ≤ 'Z'.toUInt8

def isDecimal (byte : UInt8) : Bool :=
  '0'.toUInt8 ≤ byte && byte ≤ '9'.toUInt8

/-- `[CPU][A-Z]{3}[0-9]{5}`. -/
def isDocumented (word : Text) : Bool :=
  match word with
  | lead :: second :: third :: fourth :: digits =>
      isTitleLead lead && isCapital second && isCapital third &&
        isCapital fourth && digits.length = 5 && digits.all isDecimal
  | _ => false

/-- What the scanner looks for. -/
def isTenBytes (word : Text) : Bool :=
  word.length = titleIdLen && word.head?.any isTitleLead &&
    word.all isTitleByte

def previousAt (name : Text) (i : Nat) : Option UInt8 :=
  if i = 0 then none else name[i - 1]?

/-- A word of this form, with no capital or digit on either side. -/
structure StandsAlone (form : Text → Bool) (len : Nat) (name : Text)
    (i : Nat) : Prop where
  form : form ((name.drop i).take len) = true
  before : (previousAt name i).any isTitleByte = false
  behind : name[i + len]?.any isTitleByte = false

abbrev DocumentedAt (name : Text) (i : Nat) : Prop :=
  StandsAlone isDocumented 9 name i

abbrev TenBytesAt (name : Text) (i : Nat) : Prop :=
  StandsAlone isTenBytes titleIdLen name i

/-- The first documented id of the name; no output if there is none. -/
structure DocumentedOutput (name output : Text) : Prop where
  first : ∀ i, DocumentedAt name i → (∀ j < i, ¬ DocumentedAt name j) →
    output = (name.drop i).take 9
  nothing : (∀ i, ¬ DocumentedAt name i) → output = []

theorem titleIdHere_iff (name : Text) (i : Nat) :
    titleIdHere (previousAt name i) (name.drop i) = true ↔
      TenBytesAt name i := by
  have head : ((name.drop i).take titleIdLen).head? = (name.drop i).head? := by
    rw [List.head?_take, if_neg (by decide)]
  have length : ((name.drop i).take titleIdLen).length = titleIdLen ↔
      titleIdLen ≤ (name.drop i).length := by
    rw [List.length_take]
    omega
  have behind : (name.drop i)[titleIdLen]? = name[i + titleIdLen]? :=
    List.getElem?_drop
  rw [titleIdHere, behind]
  simp only [Bool.and_eq_true, decide_eq_true_eq, Bool.not_eq_true']
  constructor
  · intro here
    obtain ⟨⟨⟨⟨lead, long⟩, before⟩, every⟩, alone⟩ := here
    refine ⟨?_, before, alone⟩
    rw [isTenBytes, head, lead, every, decide_eq_true (length.mpr long)]
    rfl
  · intro stands
    have form := stands.form
    rw [isTenBytes, head, Bool.and_eq_true, Bool.and_eq_true,
      decide_eq_true_eq] at form
    obtain ⟨⟨long, lead⟩, every⟩ := form
    exact ⟨⟨⟨⟨lead, length.mp long⟩, stands.before⟩, every⟩, stands.behind⟩

theorem titleIdFrom_length (previous : Option UInt8) (text : Text) :
    titleIdFrom pkgTidLen previous text = [] ∨
      (titleIdFrom pkgTidLen previous text).length = titleIdLen := by
  induction text generalizing previous with
  | nil => exact Or.inl rfl
  | cons byte rest ih =>
      rw [titleIdFrom]
      split
      · rename_i here
        right
        simp only [titleIdHere, Bool.and_eq_true, decide_eq_true_eq] at here
        rw [if_neg (by decide), List.length_take]
        exact Nat.min_eq_left here.1.1.1.2
      · exact ih (some byte)

theorem titleIdFrom_eq_nil_iff (name text : Text) (i : Nat)
    (rest : name.drop i = text) :
    titleIdFrom pkgTidLen (previousAt name i) text = [] ↔
      ∀ j ≥ i, ¬ TenBytesAt name j := by
  induction text generalizing i with
  | nil =>
      refine iff_of_true rfl ?_
      intro j later stands
      have form := stands.form
      rw [List.drop_eq_nil_of_le (by
        rw [List.drop_eq_nil_iff] at rest
        omega)] at form
      contradiction
  | cons byte later ih =>
      have next : name.drop (i + 1) = later := by
        rw [← List.drop_drop, rest]
        rfl
      have here : previousAt name (i + 1) = some byte := by
        have first : (name.drop i)[0]? = some byte := by
          rw [rest]
          rfl
        rw [List.getElem?_drop] at first
        exact first
      rw [titleIdFrom, ← rest]
      split
      · rename_i stands
        have alone := (titleIdHere_iff name i).mp stands
        refine iff_of_false ?_ fun none => none i (Nat.le_refl i) alone
        intro empty
        have copied := congrArg List.length empty
        simp only [titleIdHere, Bool.and_eq_true, decide_eq_true_eq] at stands
        rw [if_neg (by decide), List.length_take,
          Nat.min_eq_left stands.1.1.1.2] at copied
        contradiction
      · rename_i missing
        rw [titleIdHere_iff] at missing
        rw [← here, ih (i + 1) next]
        constructor
        · intro none j bound
          obtain rfl | behind := Nat.eq_or_lt_of_le bound
          · exact missing
          · exact none j behind
        · intro none j bound
          exact none j (by omega)

theorem extractTitleId_eq_nil_iff (name : Text) :
    extractTitleId name pkgTidLen = [] ↔ ∀ i, ¬ TenBytesAt name i := by
  rw [extractTitleId, if_neg (by decide)]
  have found : titleIdFrom pkgTidLen none name = [] ↔
      ∀ i ≥ 0, ¬ TenBytesAt name i := titleIdFrom_eq_nil_iff name name 0 rfl
  simpa using found

theorem length_documented (word : Text) (form : isDocumented word = true) :
    word.length = 9 := by
  unfold isDocumented at form
  split at form
  · simp only [Bool.and_eq_true, decide_eq_true_eq] at form
    simp [form.1.2]
  · contradiction

/-- The output is the documented one exactly for the names that have no
documented id and no word of ten bytes. -/
theorem extractTitleId_documented_iff (name : Text) :
    DocumentedOutput name (extractTitleId name pkgTidLen) ↔
      (∀ i, ¬ DocumentedAt name i) ∧ ∀ i, ¬ TenBytesAt name i := by
  constructor
  · intro documented
    have none : ∀ i, ¬ DocumentedAt name i := by
      by_contra some
      simp only [not_forall, not_not] at some
      classical
      have here := Nat.find_spec some
      have output := documented.first _ here fun j before =>
        Nat.find_min some before
      have nine := length_documented _ here.form
      rw [← output] at nine
      rw [extractTitleId, if_neg (by decide)] at nine
      obtain empty | ten := titleIdFrom_length Option.none name
      · rw [empty] at nine
        contradiction
      · rw [ten] at nine
        contradiction
    exact ⟨none, (extractTitleId_eq_nil_iff name).mp
      (documented.nothing none)⟩
  · intro neither
    obtain ⟨none, missing⟩ := neither
    refine ⟨?_, ?_⟩
    · intro i here
      exact absurd here (none i)
    · intro _
      exact (extractTitleId_eq_nil_iff name).mpr missing

/-- `CUSA00001` is a documented id, and the output is empty. -/
theorem documented_id_is_missed :
    ¬ DocumentedOutput (ascii "CUSA00001.pkg")
      (extractTitleId (ascii "CUSA00001.pkg") pkgTidLen) := by
  intro documented
  have here : DocumentedAt (ascii "CUSA00001.pkg") 0 := ⟨rfl, rfl, rfl⟩
  have output := documented.first 0 here fun j before => by omega
  exact absurd output (by decide)

end HenPlugins.Pkg.TitleIds
