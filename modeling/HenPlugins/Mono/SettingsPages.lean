import HenPlugins.Loader.LoadPlugins
import HenPlugins.Settings.LocalSettings
import Mathlib.Data.List.Basic

/-!
# The settings page callbacks

`NewOnPageActivating` and `NewOnPageDeactivating` record the hash of a page id
in `g_PageID`; `NewOnPress` looks there for the file a pressed element is
stored in.  Every callback then calls the original it replaces, which does not
touch this state.
-/

set_option autoImplicit false

namespace HenPlugins.Mono.SettingsPages

open HenPlugins.Lib.ByteText
open HenPlugins.Ini.Load
open HenPlugins.Loader.LoadPlugins
open HenPlugins.Settings.LocalSettings

/-- `wchar_t` has 16 bits. -/
abbrev WideText := List UInt16

/-- The units of an ASCII literal. -/
def wide (literal : String) : WideText :=
  literal.toList.map fun letter => letter.toNat.toUInt16

def idBasis : UInt64 := 0xCBF29CE484222325
def idPrime : UInt64 := 0x100000001B3

/-- A `char` is signed and is widened with its sign. -/
def widenChar (byte : UInt8) : UInt64 :=
  if byte < 0x80 then byte.toUInt64 else 0xFFFFFFFFFFFFFF00 ||| byte.toUInt64

def toStringId64A (str : Text) : UInt64 :=
  str.foldl (fun base byte => idPrime * (base ^^^ widenChar byte)) idBasis

def toStringId64W (str : WideText) : UInt64 :=
  str.foldl (fun base unit => idPrime * (base ^^^ unit.toUInt64)) idBasis

def hddIniPath : Text := ascii "/data/hen/hen.ini"
def henSection : Text := ascii "HEN"

def payloadOptions : WideText := wide "payload_options"
def idPluginManager : WideText := wide "id_plugin_manager"

/-- `ShellUIElementType`. -/
def elementButton : UInt32 := 2
def elementList : UInt32 := 5
def elementToggleSwitch : UInt32 := 8

/-- `TransPush`. -/
def onPush : UInt32 := 1
def onPop : UInt32 := 2

/-- The globals of the callbacks, the files, how often the plugin list was
built and whether the shell was told to restart. -/
structure PageState where
  gPageID : UInt64
  gPluginsRunThread : Nat
  files : Files
  pluginLists : Nat
  shellKilled : Bool

def isValidElementType (type : UInt32) : Bool :=
  type == elementList || type == elementToggleSwitch

/-- The file and section of the page that `g_PageID` names. -/
def pageTarget (pageID : UInt64) : Option (Text × Text) :=
  if pageID == toStringId64W payloadOptions then
    some (hddIniPath, henSection)
  else if pageID == toStringId64W idPluginManager then
    some (pluginsIniPath, pluginsAllSection)
  else none

/-- The write of a valid element. -/
def pressStore (state : PageState) (id value : Text) (type : UInt32) : Files :=
  if isValidElementType type then
    match pageTarget state.gPageID with
    | some (iniPath, iniSection) =>
        (readWriteLocalSettings state.files iniPath iniSection id value false
          [] 0).1
    | none => state.files
  else state.files

def newOnPress (state : PageState) (id value : Text) (type : UInt32) :
    PageState :=
  { state with
    files := pressStore state id value type
    shellKilled := state.shellKilled ||
      (type == elementButton &&
        toStringId64A id == toStringId64A (ascii "id_restart_shellui")) }

/-- A page is pushed or popped; any other transition is not recorded. -/
def newOnPageActivating (state : PageState) (uPush : UInt32) (id : WideText) :
    PageState :=
  if uPush == onPush || uPush == onPop then
    let localPageid := toStringId64W id
    { state with
      gPageID := localPageid
      pluginLists :=
        if uPush == onPush &&
            localPageid == toStringId64W idPluginManager then
          state.pluginLists + 1
        else state.pluginLists }
  else state

def newOnPageDeactivating (state : PageState) (id : WideText) : PageState :=
  { state with
    gPluginsRunThread :=
      if toStringId64W id == toStringId64W idPluginManager &&
          state.gPluginsRunThread > 0 then 0
      else state.gPluginsRunThread
    gPageID := 0 }

/-- What `NewOnPreCreate` sets on the element: its value, and whether it is
disabled. -/
structure ElementSetup where
  value : Option Text
  disabled : Bool
  deriving DecidableEq

/-- The plugins that cannot be switched. -/
def builtinPlugins : List Text :=
  [ascii "/data/hen/plugins/plugin_bootloader.prx",
    ascii "/data/hen/plugins/plugin_loader.prx",
    ascii "/data/hen/plugins/plugin_mono.prx",
    ascii "/data/hen/plugins/plugin_server.prx",
    ascii "/data/hen/plugins/plugin_shellcore.prx"]

/-- `sizeof(buf)`. -/
def preCreateBufSize : Nat := 128

/-- The files after the read of a valid element, and `buf`. -/
def preCreateRead (state : PageState) (id value : Text) (type : UInt32) :
    Files × Text :=
  let buf := List.replicate preCreateBufSize 0
  if isValidElementType type then
    match pageTarget state.gPageID with
    | some (iniPath, iniSection) =>
        readWriteLocalSettings state.files iniPath iniSection id value true
          buf preCreateBufSize
    | none => (state.files, buf)
  else (state.files, buf)

/-- `beyond` is what is behind `buf` on the stack; `Mono_New_String` reads on
into it when `buf` has no NUL. -/
def newOnPreCreate (state : PageState) (id value : Text) (type : UInt32)
    (beyond : Text) : PageState × ElementSetup :=
  let read := preCreateRead state id value type
  ({ state with files := read.1 },
    { value :=
        if isValidElementType type && read.2.headD 0 != 0 then
          some (before 0 (read.2 ++ beyond))
        else none
      disabled := builtinPlugins.any fun plugin =>
        toStringId64A id == toStringId64A plugin })

end HenPlugins.Mono.SettingsPages
