import HenPlugins.Pkg.PkgPage

/-!
# What a reader finds on the page

Read back, the page has a button for every entry, whatever the paths and title
ids are; an empty list has a button of its own, and so has a list that was cut.
-/

set_option autoImplicit false

namespace HenPlugins.Pkg.PageTags

open HenPlugins.Lib.ByteText
open HenPlugins.Lib.XmlText
open HenPlugins.Pkg.PkgEntries
open HenPlugins.Pkg.PkgPage

/-- The button of an entry: its attributes hold the entry's texts, with the
entities undone. -/
structure EntryButton (i : Nat) (e : PkgEntry) (tag : Tag) : Prop where
  name : tag.name = ascii "button"
  closing : tag.closing = ascii "/"
  attributes : ∃ title description file : Text,
    tag.attributes = [(ascii "id", ascii "pkg_" ++ decimal i),
      (ascii "title", title), (ascii "description", description),
      (ascii "file", file)] ∧
    unescape title = entryTitle i e ∧
    unescape description = ascii "Install package from " ++ e.path ++
      ascii "&#xa;Size: " ++ formatSize e.size.toNat sizeStrSz ∧
    unescape file = ascii "pkg:" ++ e.path

def headTags (count : Nat) : List Tag :=
  [{ name := ascii "?xml"
     attributes := [(ascii "version", ascii "1.0"),
       (ascii "encoding", ascii "utf-8")]
     closing := ascii "?" },
   { name := ascii "system_settings"
     attributes := [(ascii "version", ascii "1.0"),
       (ascii "plugin", ascii "settings_root_plugin")]
     closing := [] },
   { name := ascii "setting_list"
     attributes := [(ascii "id", ascii "pkginstaller_all_usb"),
       (ascii "title", star ++ ascii " USB PKGs Found (" ++ decimal count ++
         ascii ")")]
     closing := [] }]

def noneTag : Tag where
  name := ascii "button"
  attributes := [(ascii "id", ascii "pkg_none"),
    (ascii "title", ascii "No PKGs found"),
    (ascii "description", ascii "Insert a USB drive with .pkg files" ++
      ascii " and reopen this page.")]
  closing := ascii "/"

def overflowTag : Tag where
  name := ascii "button"
  attributes := [(ascii "id", ascii "pkg_overflow"),
    (ascii "title", ascii "List truncated"),
    (ascii "description", ascii "More than 1024 PKGs found; " ++
      ascii "only the first 1024 are shown.")]
  closing := ascii "/"

def extraTags (list : PkgList) : List Tag :=
  if list.count = 0 then [noneTag]
  else if list.overflow then [overflowTag] else []

def tailTags : List Tag :=
  [{ name := ascii "/setting_list", attributes := [], closing := [] },
   { name := ascii "/system_settings", attributes := [], closing := [] }]

/-- The tags of the page: a button for every entry, in their order, and one more
for an empty list or a list that was cut. -/
def PageDescribes (list : PkgList) (text : Text) : Prop :=
  ∃ tags : List Tag,
    lex .outside text =
      some (headTags list.count ++ tags ++ extraTags list ++ tailTags) ∧
    tags.length = list.count ∧
    ∀ (i : Nat) (e : PkgEntry), list.entries[i]? = some e →
      ∃ tag, tags[i]? = some tag ∧ EntryButton i e tag

/-- Text that needs no escaping in a value. -/
def Plain (text : Text) : Prop :=
  ∀ byte ∈ text, isValueByte byte = true ∧ byte ≠ amp

theorem plain_append (text later : Text) (plain : Plain text)
    (laterPlain : Plain later) : Plain (text ++ later) := by
  intro byte member
  rcases List.mem_append.mp member with first | second
  · exact plain byte first
  · exact laterPlain byte second

theorem plain_digit (digit : Nat) (small : digit < 10) :
    Plain [UInt8.ofNat (0x30 + digit)] := by
  intro byte member
  rw [List.mem_singleton.mp member]
  clear member
  revert digit
  decide

theorem plain_decimal (number : Nat) : Plain (decimal number) := by
  have loop : ∀ fuel number, Plain (decimalLoop fuel number) := by
    intro fuel
    induction fuel with
    | zero =>
        intro number byte member
        contradiction
    | succ fuel ih =>
        intro number
        rw [decimalLoop]
        split
        · rename_i small
          exact plain_digit number small
        · exact plain_append _ _ (ih _)
            (plain_digit _ (Nat.mod_lt _ (by decide)))
  exact loop _ _

theorem plain_snprintf (outSz : Nat) (text : Text) (plain : Plain text) :
    Plain (snprintf outSz text) := by
  intro byte member
  exact plain byte (List.mem_of_mem_take member)

theorem plain_ascii (text : String)
    (plain : (ascii text).all (fun byte => isValueByte byte && byte != amp) =
      true) : Plain (ascii text) := by
  intro byte member
  have here := List.all_eq_true.mp plain byte member
  simpa using here

theorem plain_fixed (digits numerator denominator : Nat) :
    Plain (fixed digits numerator denominator) := by
  rw [fixed]
  apply plain_append
  · apply plain_append
    · exact plain_append _ _ (plain_decimal _) (plain_ascii "." rfl)
    · intro byte member
      rw [(List.mem_replicate.mp member).2]
      decide
  · exact plain_decimal _

theorem plain_formatSize (bytes outSz : Nat) :
    Plain (formatSize bytes outSz) := by
  rw [formatSize]
  split
  · exact plain_snprintf _ _
      (plain_append _ _ (plain_fixed _ _ _) (plain_ascii " GB" rfl))
  · split
    · exact plain_snprintf _ _
        (plain_append _ _ (plain_fixed _ _ _) (plain_ascii " MB" rfl))
    · exact plain_snprintf _ _
        (plain_append _ _ (plain_decimal _) (plain_ascii " KB" rfl))

theorem unescape_of_plain (text : Text) (plain : Plain text) :
    unescape text = text := by
  have whole := unescape_plain text [] fun member => (plain amp member).2 rfl
  rw [List.append_nil] at whole
  rw [whole]
  exact List.append_nil text

section Entry
variable (i : Nat) (e : PkgEntry)

def entryDescription : Text :=
  ascii "Install package from " ++ escape e.path ++ ascii "&#xa;Size: " ++
    formatSize e.size.toNat sizeStrSz

def entryTag : Tag where
  name := ascii "button"
  attributes := [(ascii "id", ascii "pkg_" ++ decimal i),
    (ascii "title", escape (entryTitle i e)),
    (ascii "description", entryDescription e),
    (ascii "file", ascii "pkg:" ++ escape e.path)]
  closing := ascii "/"

theorem printEntry_tag (rest : Text) :
    printEntry i e ++ rest =
      ascii "    " ++ (ascii "<" ++ (entryTag i e).name ++
        (entryTag i e).attributes.flatMap printAttribute ++
          (slash :: gt :: (ascii "\n" ++ rest))) := by
  rw [printEntry_eq, entryTag, entryDescription]
  simp only [List.flatMap_cons, List.flatMap_nil, printAttribute,
    List.append_assoc, List.append_nil]
  rfl

theorem unescape_description : unescape (entryDescription e) =
    ascii "Install package from " ++ e.path ++ ascii "&#xa;Size: " ++
      formatSize e.size.toNat sizeStrSz := by
  have size := plain_formatSize e.size.toNat sizeStrSz
  have mark : unescape (ascii "&#xa;Size: " ++
      formatSize e.size.toNat sizeStrSz) =
        ascii "&#xa;Size: " ++ formatSize e.size.toNat sizeStrSz := by
    have behind := unescape_plain (ascii "#xa;Size: ")
      (formatSize e.size.toNat sizeStrSz) (by decide)
    rw [unescape_of_plain _ size] at behind
    have start : entityAt (amp :: (ascii "#xa;Size: " ++
        formatSize e.size.toNat sizeStrSz)) = none := rfl
    have whole := unescape_cons amp (ascii "#xa;Size: " ++
      formatSize e.size.toNat sizeStrSz)
    rw [start, behind] at whole
    exact whole
  rw [entryDescription, List.append_assoc, List.append_assoc,
    unescape_plain _ _ (by decide), unescape_escape_append, mark]
  simp only [List.append_assoc]

theorem entryTag_button : EntryButton i e (entryTag i e) where
  name := rfl
  closing := rfl
  attributes := by
    refine ⟨_, _, _, rfl, ?_, unescape_description e, ?_⟩
    · have whole := unescape_escape_append (entryTitle i e) []
      rw [List.append_nil] at whole
      rw [whole]
      exact List.append_nil _
    · have whole := unescape_escape_append e.path []
      rw [List.append_nil] at whole
      rw [unescape_plain _ _ (by decide), whole]
      exact congrArg _ (List.append_nil _)

theorem isValueByte_of_plain (text : Text) (plain : Plain text) :
    ∀ byte ∈ text, isValueByte byte = true :=
  fun byte member => (plain byte member).1

theorem isValueByte_append (text later : Text)
    (first : ∀ byte ∈ text, isValueByte byte = true)
    (second : ∀ byte ∈ later, isValueByte byte = true) :
    ∀ byte ∈ text ++ later, isValueByte byte = true := by
  intro byte member
  rcases List.mem_append.mp member with front | back
  · exact first byte front
  · exact second byte back

theorem isValueByte_description :
    ∀ byte ∈ entryDescription e, isValueByte byte = true := by
  rw [entryDescription]
  apply isValueByte_append
  · apply isValueByte_append
    · exact isValueByte_append _ _ (List.all_eq_true.mp rfl)
        (isValueByte_escape e.path)
    · exact List.all_eq_true.mp rfl
  · exact isValueByte_of_plain _ (plain_formatSize _ _)

theorem entryTag_fits :
    ∀ pair ∈ (entryTag i e).attributes, AttributeFits pair := by
  rw [entryTag]
  simp only [List.forall_mem_cons]
  refine ⟨⟨List.cons_ne_nil _ _, List.all_eq_true.mp rfl, ?_⟩,
    ⟨List.cons_ne_nil _ _, List.all_eq_true.mp rfl, isValueByte_escape _⟩,
    ⟨List.cons_ne_nil _ _, List.all_eq_true.mp rfl, isValueByte_description e⟩,
    ⟨List.cons_ne_nil _ _, List.all_eq_true.mp rfl, ?_⟩, by simp⟩
  · exact isValueByte_append _ _ (List.all_eq_true.mp rfl)
      (isValueByte_of_plain _ (plain_decimal i))
  · exact isValueByte_append _ _ (List.all_eq_true.mp rfl)
      (isValueByte_escape e.path)

theorem lex_entry (rest : Text) :
    lex .outside (printEntry i e ++ rest) =
      (lex .outside rest).map fun tags => entryTag i e :: tags := by
  rw [printEntry_tag, lex_outside _ _ (by decide),
    lex_opening (entryTag i e).name (entryTag i e).attributes
      (List.cons_ne_nil _ _) (List.all_eq_true.mp rfl) (entryTag_fits i e),
    lex_closing _ _ slash rfl, lex_outside _ _ (by decide)]
  rfl

end Entry

def entryTags : Nat → List PkgEntry → List Tag
  | _, [] => []
  | i, e :: rest => entryTag i e :: entryTags (i + 1) rest

theorem lex_entries (i : Nat) (entries : List PkgEntry) (rest : Text) :
    lex .outside (printEntries i entries ++ rest) =
      (lex .outside rest).map fun tags => entryTags i entries ++ tags := by
  induction entries generalizing i with
  | nil =>
      rw [printEntries, List.nil_append]
      simp [entryTags]
  | cons e entries ih =>
      rw [printEntries, List.append_assoc, lex_entry, ih, Option.map_map]
      rfl

theorem length_entryTags (i : Nat) (entries : List PkgEntry) :
    (entryTags i entries).length = entries.length := by
  induction entries generalizing i with
  | nil => rfl
  | cons e entries ih => rw [entryTags, List.length_cons, ih, List.length_cons]

theorem getElem?_entryTags (first i : Nat) (entries : List PkgEntry)
    (e : PkgEntry) (found : entries[i]? = some e) :
    (entryTags first entries)[i]? = some (entryTag (first + i) e) := by
  induction entries generalizing first i with
  | nil => contradiction
  | cons head entries ih =>
      cases i with
      | zero =>
          cases Option.some.inj found
          rfl
      | succ i =>
          have later := ih (first + 1) i found
          rw [show first + (i + 1) = first + 1 + i by omega]
          exact later

set_option maxRecDepth 4096 in
theorem lex_pageHead (rest : Text) :
    lex .outside (pageHead ++ rest) =
      (lex .outside rest).map fun tags => (headTags 0).take 2 ++ tags := by
  have both : lex .outside (pageHead ++ rest) =
      ((lex .outside rest).map fun tags =>
        (headTags 0).getD 1 noneTag :: tags).map fun tags =>
          (headTags 0).getD 0 noneTag :: tags := rfl
  rw [both, Option.map_map]
  rfl

theorem lex_listHead (count : Nat) (rest : Text) :
    lex .outside (listHead count ++ rest) =
      (lex .outside rest).map fun tags =>
        (headTags count).drop 2 ++ tags := by
  have shape : listHead count ++ rest = ascii "  " ++ (ascii "<" ++
      ascii "setting_list" ++ [(ascii "id", ascii "pkginstaller_all_usb"),
        (ascii "title", star ++ ascii " USB PKGs Found (" ++ decimal count ++
          ascii ")")].flatMap printAttribute ++
        (gt :: (ascii "\n" ++ rest))) := by
    rw [listHead]
    simp only [List.flatMap_cons, List.flatMap_nil, printAttribute,
      List.append_assoc, List.append_nil]
    rfl
  rw [shape, lex_outside _ _ (by decide), lex_opening _ _ (by simp)
    (List.all_eq_true.mp rfl), lex_inside_cons, if_neg (by decide), if_pos rfl,
    lex_outside _ _ (by decide)]
  · rfl
  · simp only [List.forall_mem_cons]
    refine ⟨⟨List.cons_ne_nil _ _, List.all_eq_true.mp rfl,
      List.all_eq_true.mp rfl⟩, ⟨List.cons_ne_nil _ _,
      List.all_eq_true.mp rfl, ?_⟩, by simp⟩
    apply isValueByte_append
    · exact isValueByte_append _ _ (List.all_eq_true.mp rfl)
        (isValueByte_of_plain _ (plain_decimal count))
    · exact List.all_eq_true.mp rfl

set_option maxRecDepth 4096 in
theorem lex_noneButton (rest : Text) :
    lex .outside (noneButton ++ rest) =
      (lex .outside rest).map fun tags => noneTag :: tags := by
  rfl

set_option maxRecDepth 4096 in
theorem lex_overflowButton (rest : Text) :
    lex .outside (overflowButton ++ rest) =
      (lex .outside rest).map fun tags => overflowTag :: tags := by
  rfl

theorem lex_pageBody (list : PkgList) (rest : Text) :
    lex .outside (pageBody list ++ rest) =
      (lex .outside rest).map fun tags =>
        entryTags 0 list.entries ++ extraTags list ++ tags := by
  rw [pageBody, extraTags]
  split
  · rename_i empty
    have none : list.entries = [] := List.eq_nil_of_length_eq_zero empty
    rw [none]
    exact lex_noneButton rest
  · rw [List.append_assoc, lex_entries]
    split
    · rw [lex_overflowButton, Option.map_map]
      simp only [List.append_assoc, List.singleton_append]
      rfl
    · rw [List.nil_append]
      simp only [List.append_nil]

theorem lex_page (list : PkgList) :
    lex .outside (page list) =
      some (headTags list.count ++ entryTags 0 list.entries ++
        extraTags list ++ tailTags) := by
  have ending : lex .outside pageTail = some tailTags := rfl
  rw [page, List.append_assoc, List.append_assoc, lex_pageHead, lex_listHead,
    lex_pageBody, ending]
  simp only [Option.map_some, List.append_assoc]
  rfl

/-- Every page that is written describes its list. -/
theorem page_describes_list (list : PkgList) :
    ∃ text, writePage true list = (0, some text) ∧
      PageDescribes list text := by
  refine ⟨page list, rfl, entryTags 0 list.entries, lex_page list,
    length_entryTags 0 list.entries, ?_⟩
  intro i e found
  have tag := getElem?_entryTags 0 i list.entries e found
  rw [Nat.zero_add] at tag
  exact ⟨entryTag i e, tag, entryTag_button i e⟩

/-- Exactly one button for every entry. -/
def OneButtonEach (list : PkgList) (text : Text) : Prop :=
  ∃ tags : List Tag, lex .outside text = some tags ∧
    (tags.filter fun tag => tag.name = ascii "button").length = list.count ∧
    ∀ (i : Nat) (e : PkgEntry), list.entries[i]? = some e →
      ∃ tag ∈ tags, EntryButton i e tag

theorem emptyList_has_button :
    ¬ ∃ text, writePage true emptyList = (0, some text) ∧
      OneButtonEach emptyList text := by
  rintro ⟨text, written, tags, read, counted, -⟩
  cases written
  rw [lex_page] at read
  cases read
  contradiction

end HenPlugins.Pkg.PageTags
