import Mathlib.Data.BitVec
import HenPlugins.Lib.XmlText
import HenPlugins.Pkg.PkgEntries

/-!
# The page of the packages

`write_page` prints a settings page with a button for every package, through
buffers of fixed size.
-/

set_option autoImplicit false

namespace HenPlugins.Pkg.PkgPage

open HenPlugins.Lib.ByteText
open HenPlugins.Lib.XmlText
open HenPlugins.Pkg.PkgEntries

def decimalLoop : Nat → Nat → Text
  | 0, _ => []
  | fuel + 1, number =>
      if number < 10 then [UInt8.ofNat (0x30 + number)]
      else decimalLoop fuel (number / 10) ++ [UInt8.ofNat (0x30 + number % 10)]

/-- `%d` and `%llu` -/
def decimal (number : Nat) : Text := decimalLoop (number + 1) number

/-- The nearest integer, the even one in the middle. -/
def roundHalfEven (numerator denominator : Nat) : Nat :=
  let quotient := numerator / denominator
  let twice := 2 * (numerator % denominator)
  if denominator < twice ∨ (twice = denominator ∧ quotient % 2 = 1) then
    quotient + 1
  else quotient

/-- The `double` nearest to an integer, which is an integer again. -/
def toDouble (number : Nat) : Nat :=
  let excess := number.log2 + 1 - 53
  roundHalfEven number (2 ^ excess) * 2 ^ excess

/-- `%.1f` and `%.2f` of a `double` that a power of two is divided into. -/
def fixed (digits numerator denominator : Nat) : Text :=
  let scaled := roundHalfEven (numerator * 10 ^ digits) denominator
  let fraction := decimal (scaled % 10 ^ digits)
  decimal (scaled / 10 ^ digits) ++ ascii "." ++
    List.replicate (digits - fraction.length) '0'.toUInt8 ++ fraction

def formatSize (bytes : Nat) (outSz : Nat) : Text :=
  if 1024 * 1024 * 1024 ≤ bytes then
    snprintf outSz (fixed 2 (toDouble bytes) (1024 * 1024 * 1024) ++
      ascii " GB")
  else if 1024 * 1024 ≤ bytes then
    snprintf outSz (fixed 1 (toDouble bytes) (1024 * 1024) ++ ascii " MB")
  else snprintf outSz (decimal (bytes / 1024) ++ ascii " KB")

/-- The loop stops when six more bytes may not fit. -/
def xmlEscapeLoop (outSz : Nat) : Text → Nat → Text
  | [], _ => []
  | byte :: rest, o =>
      if o + 6 < outSz then
        entity byte ++ xmlEscapeLoop outSz rest (o + (entity byte).length)
      else []

def xmlEscape (input : Text) (outSz : Nat) : Text :=
  if outSz = 0 then [] else xmlEscapeLoop outSz input 0

def titleSz : Nat := 64
def sizeStrSz : Nat := 24

def entryTitle (i : Nat) (e : PkgEntry) : Text :=
  if e.titleId ≠ [] then
    snprintf titleSz (ascii "[" ++ e.titleId ++ ascii "]")
  else snprintf titleSz (ascii "PKG #" ++ decimal (i + 1))

def printEntry (i : Nat) (e : PkgEntry) : Text :=
  let sizeStr := formatSize e.size.toNat sizeStrSz
  let pathEsc := xmlEscape e.path (pkgMaxPathLen * 6)
  let titleEsc := xmlEscape (entryTitle i e) (titleSz * 6)
  let desc := snprintf (pkgMaxPathLen * 6 + 128)
    (ascii "Install package from " ++ pathEsc ++ ascii "&#xa;Size: " ++
      sizeStr)
  ascii "    <button id=\"pkg_" ++ decimal i ++ ascii "\" title=\"" ++
    titleEsc ++ ascii "\" description=\"" ++ desc ++ ascii "\" file=\"pkg:" ++
    pathEsc ++ ascii "\"/>\n"

def printEntries : Nat → List PkgEntry → Text
  | _, [] => []
  | i, e :: rest => printEntry i e ++ printEntries (i + 1) rest

def pageHead : Text :=
  ascii "<?xml version=\"1.0\" encoding=\"utf-8\" ?>\n" ++
    ascii "<system_settings version=\"1.0\" " ++
    ascii "plugin=\"settings_root_plugin\">\n"

/-- A star in UTF-8. -/
def star : Text := [0xE2, 0x98, 0x85]

def listHead (count : Nat) : Text :=
  ascii "  <setting_list id=\"pkginstaller_all_usb\" title=\"" ++ star ++
    ascii " USB PKGs Found (" ++ decimal count ++ ascii ")\">\n"

def noneButton : Text :=
  ascii "    <button id=\"pkg_none\" title=\"No PKGs found\" " ++
    ascii "description=\"Insert a USB drive with .pkg files" ++
    ascii " and reopen this page.\"/>\n"

def overflowButton : Text :=
  ascii "    <button id=\"pkg_overflow\" title=\"List truncated\" " ++
    ascii "description=\"More than " ++ decimal pkgMaxResults ++
    ascii " PKGs found; only the first " ++ decimal pkgMaxResults ++
    ascii " are shown.\"/>\n"

def pageTail : Text :=
  ascii "  </setting_list>\n" ++ ascii "</system_settings>\n"

def pageBody (list : PkgList) : Text :=
  if list.count = 0 then noneButton
  else
    printEntries 0 list.entries ++
      (if list.overflow then overflowButton else [])

def page (list : PkgList) : Text :=
  pageHead ++ listHead list.count ++ pageBody list ++ pageTail

/-- The result, and the page if the file could be opened. -/
def writePage (opened : Bool) (list : PkgList) : Int × Option Text :=
  if opened then (0, some (page list)) else (-1, none)

theorem xmlEscapeLoop_of_fits (outSz : Nat) (input : Text) (o : Nat)
    (fits : o + 6 * input.length < outSz) :
    xmlEscapeLoop outSz input o = escape input := by
  induction input generalizing o with
  | nil => rfl
  | cons byte input ih =>
      have size := entity_length byte
      rw [List.length_cons] at fits
      rw [xmlEscapeLoop, if_pos (by omega), ih _ (by omega), escape, escape,
        List.flatMap_cons]

theorem xmlEscape_of_fits (input : Text) (outSz : Nat)
    (fits : 6 * input.length < outSz) :
    xmlEscape input outSz = escape input := by
  rw [xmlEscape, if_neg (by omega)]
  exact xmlEscapeLoop_of_fits outSz input 0 (by omega)

theorem length_escape (text : Text) :
    (escape text).length ≤ 6 * text.length := by
  induction text with
  | nil => exact Nat.le_refl 0
  | cons byte text ih =>
      have size := entity_length byte
      rw [escape] at ih ⊢
      rw [List.flatMap_cons, List.length_append, List.length_cons]
      omega

theorem length_snprintf (outSz : Nat) (text : Text) :
    (snprintf outSz text).length ≤ outSz - 1 :=
  List.length_take_le _ _

theorem length_formatSize (bytes outSz : Nat) :
    (formatSize bytes outSz).length ≤ outSz - 1 := by
  rw [formatSize]
  split
  · exact length_snprintf outSz _
  · split <;> exact length_snprintf outSz _

theorem length_entryTitle (i : Nat) (e : PkgEntry) :
    (entryTitle i e).length ≤ titleSz - 1 := by
  rw [entryTitle]
  split <;> exact length_snprintf titleSz _

/-- What is printed for an entry, with nothing cut. -/
theorem printEntry_eq (i : Nat) (e : PkgEntry) :
    printEntry i e =
      ascii "    <button id=\"pkg_" ++ decimal i ++ ascii "\" title=\"" ++
        escape (entryTitle i e) ++ ascii "\" description=\"" ++
        (ascii "Install package from " ++ escape e.path ++
          ascii "&#xa;Size: " ++ formatSize e.size.toNat sizeStrSz) ++
        ascii "\" file=\"pkg:" ++ escape e.path ++ ascii "\"/>\n" := by
  have pathFits := e.pathFits
  have titleFits := length_entryTitle i e
  have sizeFits := length_formatSize e.size.toNat sizeStrSz
  have escaped := length_escape e.path
  rw [pkgMaxPathLen] at pathFits
  rw [titleSz] at titleFits
  rw [sizeStrSz] at sizeFits
  rw [printEntry, xmlEscape_of_fits e.path _ (by rw [pkgMaxPathLen]; omega),
    xmlEscape_of_fits (entryTitle i e) _ (by rw [titleSz]; omega)]
  have text : (ascii "Install package from ").length = 21 := rfl
  have mark : (ascii "&#xa;Size: ").length = 11 := rfl
  rw [snprintf_of_fits _ _ (by
    rw [List.length_append, List.length_append, List.length_append, text,
      mark, pkgMaxPathLen, sizeStrSz]
    omega)]

end HenPlugins.Pkg.PkgPage
