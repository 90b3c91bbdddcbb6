import HenPlugins.Ini.CleanLines
import HenPlugins.Ini.CommentedView
import HenPlugins.Loader.LoadPlugins

/-!
# The load order after a rewrite

`loadPlugins` walks the chains from the head.  A save writes them in that
order and the next load puts every line in front of what it has read, so the
walk of the reloaded store runs backwards.  With plain texts and distinct
names nothing else changes, and the order survives only when there is nothing
to reverse.
-/

set_option autoImplicit false

namespace HenPlugins.Loader.LoadOrder

open HenPlugins.Lib.ByteText
open HenPlugins.Lib.SectionedDocument
open HenPlugins.Lib.ItemStream
open HenPlugins.Ini.Text
open HenPlugins.Ini.Store
open HenPlugins.Ini.Load
open HenPlugins.Ini.Save
open HenPlugins.Ini.Loaded
open HenPlugins.Ini.Rewrite
open HenPlugins.Ini.CommentedView
open HenPlugins.Ini.CleanLines
open HenPlugins.Loader.LoadPlugins

/-- The sections and, in each, the keys that a walk of the chains meets. -/
def walkOrder (ini : INIFile) : List (Text × List Text) :=
  ini.sections.map fun current =>
    (current.name.text, current.keys.map fun key => key.key.text)

/-- The section name and the path of each `load_module` call. -/
def callTrace (calls : List LoadCall) : List (Text × Text) :=
  calls.map fun call => (call.section_.name.text, call.path)

/-- A rewrite of the file leaves the walk, and with it the calls of a run of
any length for any `app_info` record, as they are. -/
def KeepsOrder (files : Files) (path : Text) : Prop :=
  walkOrder (reload files (iniLoad files path)) =
      walkOrder (iniLoad files path) ∧
    ∀ appInfo beyond count,
      callTrace (loadPluginsFrom (reload files (iniLoad files path)) appInfo
          beyond count) =
        callTrace (loadPluginsFrom (iniLoad files path) appInfo beyond count)

/-- No quote, backslash, `;` or `#`. -/
def PlainText (text : Text) : Prop :=
  ∀ byte ∈ text, isQuote byte = false ∧ byte ≠ backslash ∧
    byte ≠ semicolon ∧ byte ≠ hash

instance (text : Text) : Decidable (PlainText text) :=
  (List.decidableBAll _ text : Decidable (∀ byte ∈ text,
    isQuote byte = false ∧ byte ≠ backslash ∧ byte ≠ semicolon ∧
      byte ≠ hash))

structure PlainStore (ini : INIFile) : Prop where
  sectionsDistinct : (ini.sections.map fun current =>
    current.name.text).Nodup
  keysDistinct : ∀ current ∈ ini.sections,
    (current.keys.map fun key => key.key.text).Nodup
  sectionTexts : ∀ current ∈ ini.sections,
    PlainText current.name.text ∧ PlainText current.comment.text
  keyTexts : ∀ current ∈ ini.sections, ∀ key ∈ current.keys,
    PlainText key.key.text ∧ PlainText key.value.text ∧
      PlainText key.comment.text

/-- The section and key lines of the text define at most one section and at
most one key below it. -/
def SingleEntry (content : Text) : Prop :=
  (contentItems content).countP (fun item => !isEntry item) ≤ 1 ∧
    ((contentItems content).dropWhile isEntry).countP isEntry ≤ 1

instance (content : Text) : Decidable (SingleEntry content) :=
  inferInstanceAs (Decidable (_ ∧ _))

theorem PlainText.clean {text : Text} (plain : PlainText text)
    (kept : KeptWhole text) (safe : LineSafe text) :
    CleanText text ∧ MarkFree text :=
  ⟨⟨kept.1, safe, fun byte member => (plain byte member).1,
      fun member => (plain backslash member).2.1 rfl⟩,
    ⟨fun member => (plain semicolon member).2.2.1 rfl,
      fun member => (plain hash member).2.2.2 rfl⟩⟩

theorem keyLine_short (key : KeyValue) (name : KeptWhole key.key.text)
    (value : KeptWhole key.value.text) (comment : KeptWhole key.comment.text) :
    (keyLine key).length < maxLineLength := by
  have nameShort := name.2
  have valueShort := value.2
  have commentShort := comment.2
  have equals : (ascii " = ").length = 3 := rfl
  have separator : (ascii " ; ").length = 3 := rfl
  rw [keyLine, maxLineLength]
  split
  · simp only [List.length_append]
    omega
  · simp only [List.length_append]
    omega

/-- Every line written for a plain store that was loaded from short lines is
read as what it was written for. -/
theorem linesReadBack_of_plain (ini : INIFile) (loaded : LoadedStore ini)
    (kept : KeptStore ini) (plain : PlainStore ini) : LinesReadBack ini := by
  intro current member
  have inView : commentedSection current ∈ commentedView ini :=
    List.mem_map.mpr ⟨current, member, rfl⟩
  have safe := loaded.sections current member
  refine ⟨?_, ?_⟩
  · obtain ⟨keptName, keptComment⟩ := kept.headers _ inView
    obtain ⟨plainName, plainComment⟩ := plain.sectionTexts current member
    obtain ⟨name, nameMarks⟩ := plainName.clean keptName safe.nameText
    obtain ⟨comment, -⟩ := plainComment.clean keptComment safe.commentText
    exact headerReadsBack_of_clean current
      ⟨name, comment, nameMarks, (loaded.names current member).noBracket⟩
  · intro key keyMember
    have inSection : commentedKey key ∈ (commentedSection current).2 :=
      List.mem_map.mpr ⟨key, keyMember, rfl⟩
    obtain ⟨keptName, keptValue, keptComment⟩ :=
      kept.entries _ inView _ inSection
    obtain ⟨plainName, plainValue, plainComment⟩ :=
      plain.keyTexts current member key keyMember
    have keySafe := safe.keys key keyMember
    have shaped := loaded.shaped current member key keyMember
    obtain ⟨name, nameMarks⟩ := plainName.clean keptName keySafe.keyText
    obtain ⟨value, valueMarks⟩ := plainValue.clean keptValue keySafe.valueText
    obtain ⟨comment, -⟩ := plainComment.clean keptComment keySafe.commentText
    have noOpening : key.key.text.head? ≠ some openBracket := by
      intro opening
      exact (shaped.keyStart openBracket opening).2.2.2 rfl
    exact keyReadsBack_of_clean key
      ⟨name, value, comment, nameMarks, valueMarks, shaped.noEquals, noOpening⟩
      keySafe (keyLine_short key keptName keptValue keptComment)

theorem walkOrder_eq_outline (ini : INIFile) :
    walkOrder ini = outline (view ini) := by
  simp only [walkOrder, outline, view, List.map_map, Function.comp_def,
    sectionView, keyView]

/-- What a section with this view contributes to the trace. -/
def blockTrace (block : Text × List (Text × Text)) : List (Text × Text) :=
  (block.2.filter fun pair => simpleGetBool pair.2).map fun pair =>
    (block.1, pair.1)

def blockMatches (titleId : Text) (block : Text × List (Text × Text)) : Bool :=
  startsWithCase block.1 pluginsAllSection || startsWith block.1 titleId

theorem callTrace_sectionCalls (current : Section) :
    callTrace (sectionCalls current) = blockTrace (sectionView current) := by
  simp only [callTrace, sectionCalls, truthyKeys, blockTrace, sectionView,
    List.filter_map, List.map_map, Function.comp_def, keyView, LoadCall.path]

theorem walked_view (titleId : Text) (sections : List Section) :
    (walked titleId sections).map sectionView =
      (sections.map sectionView).takeWhile (blockMatches titleId) := by
  rw [List.takeWhile_map]
  rfl

theorem callTrace_sections (sections : List Section) :
    callTrace (sections.flatMap sectionCalls) =
      (sections.map sectionView).flatMap blockTrace := by
  rw [callTrace, List.map_flatMap, List.flatMap_map]
  exact List.flatMap_congr fun current _ => callTrace_sectionCalls current

theorem callTrace_of_view (left right : INIFile) (same : view left = view right)
    (appInfo : Option Text) (beyond : Text) (count : Nat) :
    callTrace (loadPluginsFrom left appInfo beyond count) =
      callTrace (loadPluginsFrom right appInfo beyond count) := by
  have trace (ini : INIFile) (titleId : Text) :
      callTrace ((walked titleId ini.sections).take count |>.flatMap
          sectionCalls) =
        (((view ini).takeWhile (blockMatches titleId)).take count).flatMap
          blockTrace := by
    rw [callTrace_sections, List.map_take, walked_view, view]
  simp only [loadPluginsFrom, loopEntry]
  by_cases negative : (readFile appInfo DiskAppinfo.zero).pid < 0
  · simp only [if_pos negative]
  · simp only [if_neg negative, runFor_sections, List.nil_append]
    rw [trace, trace, same]

theorem small_iff_singleEntry (document : Document Text Text Text) :
    (document.length ≤ 1 ∧ ∀ block ∈ document, block.2.length ≤ 1) ↔
      document.length ≤ 1 ∧ entryCount document ≤ 1 := by
  cases document with
  | nil => simp [entryCount]
  | cons block rest =>
      cases rest with
      | nil => simp [entryCount]
      | cons other rest => simp

theorem singleEntry_iff (files : Files) (path content : Text)
    (present : files path = some content) :
    SingleEntry content ↔
      (view (iniLoad files path)).length ≤ 1 ∧
        ∀ block ∈ view (iniLoad files path), block.2.length ≤ 1 := by
  have sections := length_foldl_feed (contentItems content)
    ([] : Document Text Text Text)
  rw [List.length_nil, Nat.zero_add] at sections
  rw [small_iff_singleEntry, view_iniLoad files path content present,
    entryCount_build, build, sections, SingleEntry]

/-- For a file of short lines with plain texts and distinct names, a rewrite
keeps the order exactly when there is nothing to reorder. -/
theorem keepsOrder_iff (files : Files) (path content : Text)
    (present : files path = some content) (short : ShortLines 256 content)
    (plain : PlainStore (iniLoad files path)) :
    KeepsOrder files path ↔ SingleEntry content := by
  have loaded := iniLoad_loaded files path
  have kept := keptStore_iniLoad files path content present short
  have mirrored := view_reload_mirror files _ loaded.toSafeStore
    (linesReadBack_of_plain _ loaded kept plain)
  have names : ((view (iniLoad files path)).map Prod.fst).Nodup := by
    simpa [view, List.map_map, Function.comp_def, sectionView] using
      plain.sectionsDistinct
  have keys : ∀ block ∈ view (iniLoad files path),
      (block.2.map Prod.fst).Nodup := by
    intro block member
    obtain ⟨current, inside, rfl⟩ := List.mem_map.mp member
    simpa [sectionView, List.map_map, Function.comp_def, keyView] using
      plain.keysDistinct current inside
  have order : walkOrder (reload files (iniLoad files path)) =
      walkOrder (iniLoad files path) ↔ SingleEntry content := by
    rw [walkOrder_eq_outline, walkOrder_eq_outline, mirrored,
      outline_mirror_iff _ names keys,
      singleEntry_iff files path content present]
  rw [KeepsOrder, order, and_iff_left_iff_imp]
  intro single appInfo beyond count
  apply callTrace_of_view
  obtain ⟨one, short⟩ := (singleEntry_iff files path content present).mp single
  rw [mirrored]
  exact mirror_of_small _ one short

/-- One plugin switched on for all titles. -/
def onePluginFile : Text := ascii "[all] ; here\n/data/a.prx = 1 ; on\n"

theorem keepsOrder_onePlugin :
    KeepsOrder (singleFile (ascii "p.ini") onePluginFile) (ascii "p.ini") :=
  (keepsOrder_iff _ (ascii "p.ini") onePluginFile rfl
    (ShortLines.of_length 256 _ (by decide))
    ⟨by decide, by decide, by decide, by decide⟩).mpr (by decide)

def twoPluginsFile : Text := ascii "[all]\na=1\nb=1\n"

def twoPlugins : Files := singleFile (ascii "p.ini") twoPluginsFile

/-- Two plugins change places. -/
theorem twoPlugins_reordered :
    ShortLines 256 twoPluginsFile ∧
      PlainStore (iniLoad twoPlugins (ascii "p.ini")) ∧
      walkOrder (iniLoad twoPlugins (ascii "p.ini")) =
        [(ascii "all", [ascii "b", ascii "a"])] ∧
      walkOrder (reload twoPlugins (iniLoad twoPlugins (ascii "p.ini"))) =
        [(ascii "all", [ascii "a", ascii "b"])] :=
  ⟨ShortLines.of_length 256 _ (by decide),
    ⟨by decide, by decide, by decide, by decide⟩, by decide, by decide⟩

end HenPlugins.Loader.LoadOrder
