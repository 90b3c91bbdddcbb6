import HenPlugins.Ini.Load
import HenPlugins.Lib.WhileLoop

/-!
# The plugin loader

`loadPlugins` reads `plugins.ini` and the `app_info` record of the running
title and walks the section chain.  The section pointer is advanced inside the
`if`, so the loop is modelled step by step: a section that does not match
leaves the state as it is.
-/

set_option autoImplicit false

namespace HenPlugins.Loader.LoadPlugins

open HenPlugins.Lib.ByteText
open HenPlugins.Lib.WhileLoop
open HenPlugins.Ini.Store
open HenPlugins.Ini.Load

def pluginsIniPath : Text := ascii "/data/hen/plugins.ini"
def pluginsAllSection : Text := ascii "all"
def tempInfoPathSandbox : Text := ascii "/av_contents/content_tmp/app_info"

/-- `sizeof(disk_appinfo)`: a 4-byte pid, 10 + 8 + 8 characters and two bytes
of padding. -/
def diskAppinfoSize : Nat := 32

structure DiskAppinfo where
  bytes : Text
  size : bytes.length = diskAppinfoSize
  deriving DecidableEq

def DiskAppinfo.zero : DiskAppinfo :=
  ⟨List.replicate diskAppinfoSize 0, by simp⟩

theorem length_filled (content : Text) :
    (content.take diskAppinfoSize ++
      List.replicate (diskAppinfoSize - content.length) 0).length =
        diskAppinfoSize := by
  rw [List.length_append, List.length_take, List.length_replicate]
  omega

/-- `read_file`: a file that does not open leaves the record alone, otherwise
it is cleared and filled with what `fread` delivers. -/
def readFile (content : Option Text) (data : DiskAppinfo) : DiskAppinfo :=
  match content with
  | none => data
  | some content =>
      ⟨content.take diskAppinfoSize ++
          List.replicate (diskAppinfoSize - content.length) 0,
        length_filled content⟩

/-- The little-endian `int` at the start of the record. -/
def DiskAppinfo.pid (info : DiskAppinfo) : Int :=
  (BitVec.ofNat 32 ((info.bytes.take 4).foldr
    (fun byte value => byte.toNat + 256 * value) 0)).toInt

/-- `m_titleid` as a C string.  An array without a NUL runs on into the fields
behind it and, past the record, into `beyond`. -/
def DiskAppinfo.mTitleid (info : DiskAppinfo) (beyond : Text) : Text :=
  (info.bytes.drop 4 ++ beyond).takeWhile (· != 0)

/-- The title id that the ten bytes of the field hold. -/
def DiskAppinfo.titleIdField (info : DiskAppinfo) : Text :=
  ((info.bytes.drop 4).take 10).takeWhile (· != 0)

def simpleGetBool (val : Text) : Bool :=
  if val.isEmpty then false
  else
    startsWithCase val (ascii "1") ||
      startsWithCase val (ascii "enabled") ||
      startsWithCase val (ascii "yes") ||
      startsWithCase val (ascii "y") ||
      startsWithCase val (ascii "on") ||
      startsWithCase val (ascii "true")

/-- One call of `load_module`, with the section and key it was made for. -/
structure LoadCall where
  section_ : Section
  key : KeyValue
  deriving DecidableEq

/-- The path handed to `load_module`. -/
def LoadCall.path (call : LoadCall) : Text := call.key.key.text

/-- The `section` pointer and the calls made so far. -/
structure LoopState where
  chain : List Section
  calls : List LoadCall
  deriving DecidableEq

def matchesAll (current : Section) : Bool :=
  startsWithCase current.name.text pluginsAllSection

def sectionMatches (titleId : Text) (current : Section) : Bool :=
  matchesAll current || startsWith current.name.text titleId

/-- The inner loop over the keys of one section. -/
def keyLoop (current : Section) : List KeyValue → List LoadCall → List LoadCall
  | [], calls => calls
  | key :: rest, calls =>
      if simpleGetBool key.value.text then
        keyLoop current rest (calls ++ [⟨current, key⟩])
      else keyLoop current rest calls

def sectionGuard (state : LoopState) : Bool :=
  !state.chain.isEmpty

/-- `section = section->next` belongs to the branch of a match. -/
def sectionBody (titleId : Text) (state : LoopState) : LoopState :=
  match state.chain with
  | [] => state
  | current :: rest =>
      if sectionMatches titleId current then
        { chain := rest, calls := keyLoop current current.keys state.calls }
      else state

/-- The state in which the section loop is entered; a negative pid returns
before it, a wrong one is only reported. -/
def loopEntry (ini : INIFile) (appInfo : Option Text) : Option LoopState :=
  if (readFile appInfo DiskAppinfo.zero).pid < 0 then none
  else some { chain := ini.sections, calls := [] }

/-- The calls of a run that is observed for `count` iterations. -/
def loadPluginsFrom (ini : INIFile) (appInfo : Option Text) (beyond : Text)
    (count : Nat) : List LoadCall :=
  match loopEntry ini appInfo with
  | none => []
  | some entry =>
      (runFor sectionGuard (sectionBody
        ((readFile appInfo DiskAppinfo.zero).mTitleid beyond)) count
          entry).calls

def loadPlugins (files : Files) (beyond : Text) (count : Nat) :
    List LoadCall :=
  loadPluginsFrom (iniLoad files pluginsIniPath) (files tempInfoPathSandbox)
    beyond count

def truthyKeys (current : Section) : List KeyValue :=
  current.keys.filter fun key => simpleGetBool key.value.text

def sectionCalls (current : Section) : List LoadCall :=
  (truthyKeys current).map fun key => ⟨current, key⟩

theorem keyLoop_eq (current : Section) (keys : List KeyValue)
    (calls : List LoadCall) :
    keyLoop current keys calls =
      calls ++ (keys.filter fun key => simpleGetBool key.value.text).map
        fun key => ⟨current, key⟩ := by
  induction keys generalizing calls with
  | nil => simp [keyLoop]
  | cons key keys ih =>
      by_cases truthy : simpleGetBool key.value.text = true
      · simp [keyLoop, truthy, ih]
      · simp [keyLoop, truthy, ih]

theorem sectionBody_match (titleId : Text) (current : Section)
    (rest : List Section) (calls : List LoadCall)
    (matched : sectionMatches titleId current = true) :
    sectionBody titleId ⟨current :: rest, calls⟩ =
      ⟨rest, calls ++ sectionCalls current⟩ := by
  simp [sectionBody, matched, keyLoop_eq, sectionCalls, truthyKeys]

theorem sectionBody_mismatch (titleId : Text) (current : Section)
    (rest : List Section) (calls : List LoadCall)
    (mismatched : sectionMatches titleId current = false) :
    sectionBody titleId ⟨current :: rest, calls⟩ =
      ⟨current :: rest, calls⟩ := by
  simp [sectionBody, mismatched]

/-- The part of the chain before the first section that does not match. -/
def walked (titleId : Text) (sections : List Section) : List Section :=
  sections.takeWhile (sectionMatches titleId)

theorem runFor_sections (titleId : Text) (sections : List Section)
    (calls : List LoadCall) (count : Nat) :
    runFor sectionGuard (sectionBody titleId) count ⟨sections, calls⟩ =
      ⟨sections.drop (min count (walked titleId sections).length),
        calls ++ ((walked titleId sections).take count).flatMap
          sectionCalls⟩ := by
  induction count generalizing sections calls with
  | zero => simp [runFor_zero]
  | succ count ih =>
      cases sections with
      | nil => simp [runFor_succ, sectionGuard, walked]
      | cons current rest =>
          by_cases matched : sectionMatches titleId current = true
          · have entered : sectionGuard ⟨current :: rest, calls⟩ = true := rfl
            rw [runFor_succ, if_pos entered, sectionBody_match _ _ _ _ matched,
              ih]
            simp [walked, matched]
          · have mismatched : sectionMatches titleId current = false := by
              simpa using matched
            rw [runFor_of_fixed _ _ _ _
              (sectionBody_mismatch titleId current rest calls mismatched)]
            simp [walked, mismatched]

/-- Whatever is loaded comes from the sections before the first mismatch. -/
theorem mem_calls_iff (titleId : Text) (sections : List Section)
    (call : LoadCall) :
    (∃ count, call ∈ (runFor sectionGuard (sectionBody titleId) count
        ⟨sections, []⟩).calls) ↔
      call.section_ ∈ walked titleId sections ∧
        call.key ∈ truthyKeys call.section_ := by
  simp only [runFor_sections, List.nil_append, List.mem_flatMap]
  constructor
  · intro called
    obtain ⟨count, current, member, inside⟩ := called
    obtain ⟨key, keyMember, rfl⟩ := List.mem_map.mp inside
    exact ⟨List.mem_of_mem_take member, keyMember⟩
  · intro listed
    obtain ⟨member, keyMember⟩ := listed
    refine ⟨(walked titleId sections).length, call.section_, ?_, ?_⟩
    · rw [List.take_length]
      exact member
    · exact List.mem_map.mpr ⟨call.key, keyMember, rfl⟩

/-- The calls the loop is meant to make: every truthy key of every matching
section, once and in chain order. -/
def expectedCalls (titleId : Text) (sections : List Section) :
    List LoadCall :=
  (sections.filter (sectionMatches titleId)).flatMap sectionCalls

/-- The section loop ends with exactly the expected calls if and only if every
section of the chain matches; at the first one that does not it stays for
ever. -/
theorem sectionLoop_complete_iff (titleId : Text) (sections : List Section) :
    (∃ final, EndsIn sectionGuard (sectionBody titleId) ⟨sections, []⟩ final ∧
        final.calls = expectedCalls titleId sections) ↔
      ∀ current ∈ sections, sectionMatches titleId current = true := by
  constructor
  · intro complete
    obtain ⟨final, ⟨count, run, stopped⟩, -⟩ := complete
    rw [runFor_sections] at run
    have drained : sections.drop
        (min count (walked titleId sections).length) = [] := by
      rw [← run] at stopped
      simpa [sectionGuard] using stopped
    have whole : (walked titleId sections).length = sections.length := by
      have short := (List.takeWhile_prefix
        (p := sectionMatches titleId) (l := sections)).length_le
      rw [List.drop_eq_nil_iff] at drained
      have least := Nat.min_le_right count (walked titleId sections).length
      exact Nat.le_antisymm short (Nat.le_trans drained least)
    have same := List.IsPrefix.eq_of_length
      (List.takeWhile_prefix (sectionMatches titleId)) whole
    exact List.takeWhile_eq_self_iff.mp same
  · intro every
    have all : walked titleId sections = sections :=
      List.takeWhile_eq_self_iff.mpr every
    refine ⟨⟨[], expectedCalls titleId sections⟩,
      ⟨sections.length, ?_, rfl⟩, rfl⟩
    rw [runFor_sections, all, Nat.min_self, List.drop_length,
      List.take_length, expectedCalls, List.filter_eq_self.mpr every,
      List.nil_append]

/-- One section for another title: the loop never ends. -/
theorem otherTitle_diverges :
    ¬ Halts sectionGuard (sectionBody (ascii "CUSA00001"))
      ⟨(iniLoad (singleFile pluginsIniPath (ascii "[CUSA00002]\na=1\n"))
        pluginsIniPath).sections, []⟩ := by
  apply not_halts_of_fixed _ _ _ 0
  · decide
  · decide

end HenPlugins.Loader.LoadPlugins
