import HenPlugins.Ini.SetEntry

/-!
# Reading and writing the local settings

`ReadWriteLocalSettings` and the plugin paths that `RunPluginsBuild` offers as
setting ids.  Every call loads the file afresh.
-/

set_option autoImplicit false

namespace HenPlugins.Settings.LocalSettings

open HenPlugins.Lib.ByteText
open HenPlugins.Ini.Text
open HenPlugins.Ini.Store
open HenPlugins.Ini.Load
open HenPlugins.Ini.Save
open HenPlugins.Ini.Loaded
open HenPlugins.Ini.SetEntry

/-- `memcpy(data_out, v2, count)`. -/
def copyOver (dataOut source : Text) (count : Nat) : Text :=
  source.take count ++ dataOut.drop count

/-- The files after the call and the bytes of the caller's buffer; the buffer
sizes that callers pass are positive. -/
def readWriteLocalSettings (files : Files)
    (iniPath iniSection id value : Text) (wantRead : Bool)
    (dataOut : Text) (dataOutBufSize : Nat) : Files × Text :=
  let ini := iniLoad files iniPath
  if wantRead then
    let v := iniGet ini iniSection id
    let v2 := v.getD []
    let sv2 := v2.length
    let out := copyOver dataOut v2
      (if sv2 > dataOutBufSize then dataOutBufSize - 1 else sv2)
    match v with
    | some _ => (files, out)
    | none =>
        ((iniSave files (iniSet ini iniSection id (ascii "0")).1).1, out)
  else
    ((iniSave files (iniSet ini iniSection id value).1).1, dataOut)

def userPluginPath : Text := ascii "/data/hen/plugins"

/-- The end of `a` that equals `b` up to case. -/
def endsWith (a b : Text) : Option Text :=
  if a.length < b.length then none
  else if (a.drop (a.length - b.length)).map toUpper = b.map toUpper then
    some (a.drop (a.length - b.length))
  else none

def isPluginFile (filename : Text) : Bool :=
  (endsWith filename (ascii ".prx")).isSome ||
    (endsWith filename (ascii ".sprx")).isSome

/-- `snprintf` into `prx_path` with 259 bytes of room. -/
def prxPath (filename : Text) : Text :=
  (userPluginPath ++ ascii "/" ++ filename).take 258

/-- A directory entry that is listed as a plugin. -/
structure PluginFile where
  filename : Text
  noSlash : '/'.toUInt8 ∉ filename
  safe : LineSafe filename
  listed : isPluginFile filename = true

def PluginFile.path (plugin : PluginFile) : Text :=
  prxPath plugin.filename

theorem endsWith_length (a b : Text) (found : (endsWith a b).isSome = true) :
    b.length ≤ a.length ∧
      (a.drop (a.length - b.length)).map toUpper = b.map toUpper := by
  rw [endsWith] at found
  split at found
  · contradiction
  · rename_i long
    split at found
    · rename_i same
      exact ⟨by omega, same⟩
    · contradiction

theorem isSpace_of_toUpper_x :
    ∀ byte : UInt8, toUpper byte = 'X'.toUInt8 → isSpace byte = false := by
  rintro ⟨⟨byte⟩⟩
  revert byte
  decide +kernel

theorem endsWith_last (a front : Text)
    (found : (endsWith a (front ++ ascii "x")).isSome = true) :
    ∃ shorter last, a = shorter ++ [last] ∧ isSpace last = false := by
  obtain ⟨long, same⟩ := endsWith_length _ _ found
  rw [List.map_append] at same
  obtain ⟨shorter, rest, split, -, restUpper⟩ := List.map_eq_append_iff.mp same
  have single : rest.length = 1 := by
    have sizes := congrArg List.length restUpper
    rw [List.length_map, List.length_map] at sizes
    exact sizes
  obtain ⟨last, rfl⟩ := List.length_eq_one_iff.mp single
  refine ⟨a.take (a.length - (front ++ ascii "x").length) ++ shorter, last,
    ?_, ?_⟩
  · rw [List.append_assoc, ← split, List.take_append_drop]
  · apply isSpace_of_toUpper_x
    have upper : [toUpper last] = (ascii "x").map toUpper := restUpper
    exact List.head_eq_of_cons_eq upper

theorem isPluginFile_last (filename : Text)
    (listed : isPluginFile filename = true) :
    ∃ shorter last, filename = shorter ++ [last] ∧ isSpace last = false := by
  rw [isPluginFile, Bool.or_eq_true] at listed
  rcases listed with prx | sprx
  · exact endsWith_last filename (ascii ".pr") prx
  · exact endsWith_last filename (ascii ".spr") sprx

theorem PluginFile.path_safe (plugin : PluginFile) :
    LineSafe plugin.path :=
  (LineSafe.append (by decide) plugin.safe).take 258

theorem PluginFile.path_keyStart (plugin : PluginFile) :
    ∀ first ∈ plugin.path.head?, KeyStart first := by
  intro first member
  have start : first = '/'.toUInt8 := by
    simpa [PluginFile.path, prxPath, userPluginPath, ascii, eq_comm]
      using member
  subst start
  exact ⟨rfl, by decide, by decide, by decide⟩

/-- A path that fits a key field was not cut and does not end in a blank. -/
theorem PluginFile.path_trimmed (plugin : PluginFile)
    (fits : plugin.path.length ≤ 255) :
    trimWhitespace plugin.path = plugin.path := by
  obtain ⟨shorter, last, shape, solid⟩ :=
    isPluginFile_last plugin.filename plugin.listed
  have uncut : plugin.path =
      userPluginPath ++ ascii "/" ++ plugin.filename := by
    rw [PluginFile.path, prxPath, List.length_take] at fits
    exact List.take_of_length_le (by omega)
  have headSolid : ∀ first ∈ plugin.path.head?, isSpace first = false :=
    fun first member => (plugin.path_keyStart first member).1
  rw [trimWhitespace, trim_of_head isSpace _ headSolid, uncut, shape,
    ← List.append_assoc, List.rdropWhile_concat_neg]
  simpa using solid

end HenPlugins.Settings.LocalSettings
