import HenPlugins.Lib.ByteText

/-!
# The list of packages

What the scanner of the USB drives keeps of a package, and what it reads off a
file name: the extension and the title id.
-/

set_option autoImplicit false

namespace HenPlugins.Pkg.PkgEntries

open HenPlugins.Lib.ByteText

def pkgMaxResults : Nat := 1024
def pkgMaxPathLen : Nat := 512
def pkgMaxDepth : Nat := 12
def pkgTidLen : Nat := 16

structure PkgEntry where
  path : Text
  titleId : Text
  size : BitVec 64
  pathFits : path.length < pkgMaxPathLen
  titleIdFits : titleId.length < pkgTidLen

structure PkgList where
  entries : List PkgEntry
  overflow : Bool
  fits : entries.length ≤ pkgMaxResults

def PkgList.count (list : PkgList) : Nat := list.entries.length

def emptyList : PkgList where
  entries := []
  overflow := false
  fits := by decide

def PkgList.push (list : PkgList) (e : PkgEntry)
    (room : list.count < pkgMaxResults) : PkgList where
  entries := list.entries ++ [e]
  overflow := list.overflow
  fits := by
    rw [List.length_append, List.length_singleton]
    exact room

def hasPkgExt (name : Text) : Bool :=
  if name.length < 5 then false
  else
    match name.drop (name.length - 4) with
    | [dot, p, k, g] =>
        dot = '.'.toUInt8 && (p = 'p'.toUInt8 || p = 'P'.toUInt8) &&
          (k = 'k'.toUInt8 || k = 'K'.toUInt8) &&
          (g = 'g'.toUInt8 || g = 'G'.toUInt8)
    | _ => false

/-- The capitals and digits of a title id. -/
def isTitleByte (byte : UInt8) : Bool :=
  ('A'.toUInt8 ≤ byte && byte ≤ 'Z'.toUInt8) ||
    ('0'.toUInt8 ≤ byte && byte ≤ '9'.toUInt8)

def isTitleLead (byte : UInt8) : Bool :=
  byte = 'C'.toUInt8 || byte = 'P'.toUInt8 || byte = 'U'.toUInt8

def titleIdLen : Nat := 10

/-- A title id begins here: it stands alone. -/
def titleIdHere (previous : Option UInt8) (text : Text) : Bool :=
  text.head?.any isTitleLead && titleIdLen ≤ text.length &&
    !previous.any isTitleByte && (text.take titleIdLen).all isTitleByte &&
    !text[titleIdLen]?.any isTitleByte

def titleIdFrom (outSz : Nat) : Option UInt8 → Text → Text
  | _, [] => []
  | previous, byte :: rest =>
      if titleIdHere previous (byte :: rest) then
        (byte :: rest).take
          (if outSz ≤ titleIdLen then outSz - 1 else titleIdLen)
      else titleIdFrom outSz (some byte) rest

def extractTitleId (filename : Text) (outSz : Nat) : Text :=
  if outSz < 2 then [] else titleIdFrom outSz none filename

/-- A title id fits the field it is copied to. -/
theorem extractTitleId_fits (filename : Text) (outSz : Nat)
    (some : 0 < outSz) : (extractTitleId filename outSz).length < outSz := by
  have from_fits : ∀ (text : Text) (previous : Option UInt8),
      (titleIdFrom outSz previous text).length < outSz := by
    intro text
    induction text with
    | nil =>
        intro previous
        exact some
    | cons byte rest ih =>
        intro previous
        rw [titleIdFrom]
        split
        · rw [List.length_take]
          split <;> omega
        · exact ih _
  rw [extractTitleId]
  split
  · exact some
  · exact from_fits filename none

end HenPlugins.Pkg.PkgEntries
