import Isolation.Proofs.Listings

/-!
# Lists of modules in any layout

What a list of modules says is which modules of the namespace it names in the first words of its
lines. This file fixes the layouts in which that can be said, and that all of them are read as the
modules that they name.

* `Text.EndedText` -- lines that end with a line feed or with a carriage return and a line feed;
  `EndedText.exists_textOf` says that it makes no difference to the first words of the lines;
* `ListLine` -- the lines of a list: of a module, of the bare namespace, of something outside the
  namespace, and without words. What follows the first word is left open (`Text.Columns`), so there
  may be import paths of the namespace in it;
* `ListLine.leads_iff`, `exists_leads_iff_mem` -- the import path of a module is the first word of
  those lines that name the module, and of no others;
* **`listedModules_of_lines`** -- so a list is read as the set of the modules it names, whatever
  their order and however often each is named. In particular what is read off an import path is the
  identity that it was made of.

NOT here: modules with an empty identity. Their import path is the bare namespace, which names none.
-/

namespace Isolation

/-! ## 1. Ends of lines -/

namespace Text

open GoMod.Layout (TextOf)

/-- What may follow the first word of a line: nothing, or white space and then anything. -/
def Columns (rest : List Char) : Prop := ∀ c ∈ rest.head?, isBlank c = true

-- Decided at the first character: to go through all characters there are would take too long.
instance : (rest : List Char) → Decidable (Columns rest)
  | [] => isTrue fun _ h => nomatch h
  | c :: _ => decidable_of_iff (isBlank c = true)
      ⟨fun h _ hc => Option.some.inj hc ▸ h, fun h => h c rfl⟩

/-- The text of some lines, none of which holds a line feed. Each ends with one, with or without a
    carriage return before it, but the last line need not end at all. -/
inductive EndedText : List (List Char) → List Char → Prop where
  | nil : EndedText [] []
  | last {l : List Char} (hl : '\n' ∉ l) : EndedText [l] l
  | lineFeed {l t : List Char} {ls : List (List Char)} (hl : '\n' ∉ l) (h : EndedText ls t) :
    EndedText (l :: ls) (l ++ '\n' :: t)
  | carriageReturn {l t : List Char} {ls : List (List Char)} (hl : '\n' ∉ l)
    (h : EndedText ls t) : EndedText (l :: ls) (l ++ '\r' :: '\n' :: t)

variable {w gap rest line text : List Char} {ls : List (List Char)}

theorem Leads.intro (hne : w ≠ []) (hw : Solid w) (hg : Blank gap) (hr : Columns rest) :
    Leads w (gap ++ w ++ rest) := ⟨hne, hw, gap, rest, hg, hr, rfl⟩

theorem not_leads_of_blank (h : Blank line) : ¬ Leads w line := by
  intro hlead
  have hwords := words_append_blank h []
  rw [List.append_nil, words_nil] at hwords
  rw [leads_iff, hwords] at hlead
  cases hlead

theorem leads_concat_return : Leads w (line ++ ['\r']) ↔ Leads w line := by
  have hblank : isBlank '\r' = true := by decide
  rw [leads_iff, leads_iff, words_concat_blank hblank]

/-- **How lines end makes no difference to their first words**: a carriage return is as good as one
    more blank at the end of a line. -/
theorem EndedText.exists_textOf (h : EndedText ls text) :
    ∃ ls', TextOf ls' text ∧ ∀ w, (∃ l ∈ ls', Leads w l) ↔ ∃ l ∈ ls, Leads w l := by
  induction h with
  | nil => exact ⟨[], .nil, fun _ => Iff.rfl⟩
  | @last l hl => exact ⟨[l], .last hl, fun _ => Iff.rfl⟩
  | @lineFeed l t ls hl _ ih =>
    obtain ⟨ls', ht, hleads⟩ := ih
    refine ⟨l :: ls', .cons hl ht, fun w => ?_⟩
    rw [List.exists_mem_cons_iff, List.exists_mem_cons_iff, hleads]
  | @carriageReturn l t ls hl _ ih =>
    obtain ⟨ls', ht, hleads⟩ := ih
    have hreturn : '\n' ∉ l ++ ['\r'] := by
      intro hmem
      rcases List.mem_append.mp hmem with hmem | hmem
      · exact hl hmem
      · exact absurd (List.mem_singleton.mp hmem) (by decide)
    have htext := TextOf.cons hreturn ht
    rw [List.append_assoc, List.singleton_append] at htext
    refine ⟨(l ++ ['\r']) :: ls', htext, fun w => ?_⟩
    rw [List.exists_mem_cons_iff, List.exists_mem_cons_iff, hleads, leads_concat_return]

end Text

/-! ## 2. Lines of a list -/

section Lines

open Text (Blank Solid Columns Leads EndedText)

/-- A line of a list of modules, and the module that it names, if it names one: a line begins with
    the import path of a module, with nothing but the namespace, with a word that does not begin
    with the namespace, or with no word at all. -/
inductive ListLine (t : GoToolchain) : Option Identity → List Char → Prop where
  | module {gap rest : List Char} (id : Identity) (hg : Blank gap) (hr : Columns rest) :
    ListLine t (some id) (gap ++ (t.importPath id).toList ++ rest)
  | bare {gap rest : List Char} (hne : t.space ≠ "") (hg : Blank gap) (hr : Columns rest) :
    ListLine t none (gap ++ t.space.toList ++ rest)
  | foreign {gap word rest : List Char} (hne : word ≠ []) (hw : Solid word)
    (hout : ¬ t.space.toList <+: word) (hg : Blank gap) (hr : Columns rest) :
    ListLine t none (gap ++ word ++ rest)
  | blank {gap : List Char} (hg : Blank gap) : ListLine t none gap

variable {t : GoToolchain} {id : Identity} {ids : List (Option Identity)} {ls : List (List Char)}

/-- An identity can be listed: it is not empty, and no white space is in it. -/
def Listable (id : Identity) : Prop := id ≠ "" ∧ Solid id.toList

instance (id : Identity) : Decidable (Listable id) :=
  inferInstanceAs (Decidable (id ≠ "" ∧ Solid id.toList))

theorem importPath_toList (t : GoToolchain) (id : Identity) :
    (t.importPath id).toList = t.space.toList ++ id.toList := String.toList_append

/-- **An import path is made of one identity only.** -/
theorem importPath_inj {id' : Identity} (h : (t.importPath id).toList = (t.importPath id').toList) :
    id = id' := by
  rw [importPath_toList, importPath_toList] at h
  exact String.toList_inj.mp (List.append_cancel_left h)

theorem leads_importPath {gap rest : List Char} (hspace : Solid t.space.toList) (hid : Listable id)
    (hg : Blank gap) (hr : Columns rest) :
    Leads (t.importPath id).toList (gap ++ (t.importPath id).toList ++ rest) := by
  have hne : id.toList ≠ [] := fun h => hid.1 (String.toList_eq_nil_iff.mp h)
  rw [importPath_toList]
  refine .intro ?_ ?_ hg hr
  · exact List.append_ne_nil_of_right_ne_nil _ hne
  · exact List.forall_mem_append.mpr ⟨hspace, hid.2⟩

/-- **The import path of a module is the first word of a line exactly if the line names the
    module**, by cases on the line. -/
theorem ListLine.leads_iff {named : Option Identity} {line : List Char}
    (hspace : Solid t.space.toList) (h : ListLine t named line) (hnamed : ∀ i ∈ named, Listable i)
    (hid : id ≠ "") : Leads (t.importPath id).toList line ↔ named = some id := by
  cases h with
  | module id' hg hr =>
    have hlead := leads_importPath hspace (hnamed id' rfl) hg hr
    constructor
    · intro hlead'
      have hpath := hlead'.unique hlead
      rw [importPath_inj hpath]
    · intro hsame
      cases hsame
      exact hlead
  | bare hne hg hr =>
    have hword : t.space.toList ≠ [] := fun h => hne (String.toList_eq_nil_iff.mp h)
    have hlead : Leads t.space.toList _ := .intro hword hspace hg hr
    refine iff_of_false (fun hlead' => ?_) nofun
    -- nothing is left of the import path without the namespace
    have hpath := hlead'.unique hlead
    rw [importPath_toList] at hpath
    exact hid (String.toList_eq_nil_iff.mp (List.append_right_eq_self.mp hpath))
  | foreign hne hw hout hg hr =>
    have hlead := Leads.intro hne hw hg hr
    refine iff_of_false (fun hlead' => hout ?_) nofun
    rw [← hlead'.unique hlead, importPath_toList]
    exact List.prefix_append _ _
  | blank hg => exact iff_of_false (Text.not_leads_of_blank hg) nofun

/-- So it is the first word of some line of a list exactly if the list names the module. -/
theorem exists_leads_iff_mem (hspace : Solid t.space.toList)
    (h : List.Forall₂ (ListLine t) ids ls) (hids : ∀ i, some i ∈ ids → Listable i)
    (hid : id ≠ "") : (∃ l ∈ ls, Leads (t.importPath id).toList l) ↔ some id ∈ ids := by
  induction h with
  | nil => simp
  | @cons named line ids ls hline _ ih =>
    have hnamed : ∀ i ∈ named, Listable i := by
      rintro i hi
      cases hi
      exact hids i List.mem_cons_self
    have hrest := ih fun i hi => hids i (List.mem_cons_of_mem _ hi)
    rw [List.exists_mem_cons_iff, hrest, hline.leads_iff hspace hnamed hid, List.mem_cons,
      eq_comm (a := some id)]

/-! ## 3. The list as a whole -/

/-- **A list of modules is read as the set of the modules that it names**: whatever the order and
    the number of lines that name a module, what is between them, what follows the first words, and
    how the lines end. -/
theorem listedModules_of_lines {S : NameSet} {output : String} (hspace : Solid t.space.toList)
    (hS : ∀ id ∈ S, Listable id) (hids : ∀ id, some id ∈ ids ↔ id ∈ S)
    (hlines : List.Forall₂ (ListLine t) ids ls) (ht : EndedText ls output.toList) :
    listedModules output t.space = S := by
  obtain ⟨ls', htext, hleads⟩ := ht.exists_textOf
  have hlistable : ∀ i, some i ∈ ids → Listable i := fun i hi => hS i ((hids i).mp hi)
  refine Register.ext_mem fun id => ?_
  rw [mem_listedModules_iff htext, hleads]
  constructor
  · rintro ⟨hne, hlead⟩
    exact (hids id).mp ((exists_leads_iff_mem hspace hlines hlistable hne).mp hlead)
  · intro hmem
    have hne := (hS id hmem).1
    exact ⟨hne, (exists_leads_iff_mem hspace hlines hlistable hne).mpr ((hids id).mpr hmem)⟩

/-- Lines of the modules `api` and `lib` behind the namespace `n/`. One is replaced by something in
    the namespace, and one is listed twice. -/
def mixedList : List (List Char) :=
  let path (id : Identity) : List Char := ((goCommand "n/").importPath id).toList
  [[] ++ "modguard-consumer".toList ++ [],
    "  ".toList ++ path "api" ++ " v0.1.0 => n/fork/api v0.2.0".toList,
    [],
    [] ++ "n/".toList ++ " v1.0.0".toList,
    [] ++ "x.org/n/far".toList ++ " v3.0.0 => n/near v3.0.0".toList,
    "\t".toList ++ path "lib" ++ [],
    [] ++ path "api" ++ " v0.1.0".toList]

/-- What each of these lines names. -/
def mixedNames : List (Option Identity) :=
  [none, some "api", none, none, none, some "lib", some "api"]

/-- Some of the lines end with a carriage return and a line feed, and the last one does not end. -/
theorem listedModules_of_mixed_list : ∃ output : String, Text.EndedText mixedList output.toList ∧
    List.Forall₂ (ListLine (goCommand "n/")) mixedNames mixedList ∧
    listedModules output "n/" = Register.ofList ["api", "lib"] := by
  have hspace : Solid (goCommand "n/").space.toList := by decide
  have hS : ∀ id ∈ (Register.ofList ["api", "lib"] : NameSet), Listable id := by
    intro id hid
    rw [NameSet.mem_ofList] at hid
    revert id
    decide
  have hids : ∀ id, some id ∈ mixedNames ↔ id ∈ (Register.ofList ["api", "lib"] : NameSet) := by
    intro id
    rw [NameSet.mem_ofList]
    simp only [mixedNames, List.mem_cons, List.not_mem_nil, Option.some_inj, reduceCtorEq,
      or_false, false_or]
    constructor
    · rintro (h | h | h) <;> simp [h]
    · rintro (h | h) <;> simp [h]
  have hlines : List.Forall₂ (ListLine (goCommand "n/")) mixedNames mixedList := by
    refine .cons ?_ (.cons ?_ (.cons ?_ (.cons ?_ (.cons ?_ (.cons ?_ (.cons ?_ .nil))))))
    · exact .foreign (by decide) (by decide) (by decide) (by decide) (by decide)
    · exact .module "api" (by decide) (by decide)
    · exact .blank (by decide)
    · exact .bare (by decide) (by decide) (by decide)
    · exact .foreign (by decide) (by decide) (by decide) (by decide) (by decide)
    · exact .module "lib" (by decide) (by decide)
    · exact .module "api" (by decide) (by decide)
  have hended : ∃ text, EndedText mixedList text :=
    ⟨_, .lineFeed (by decide) (.carriageReturn (by decide) (.carriageReturn (by decide)
      (.lineFeed (by decide) (.carriageReturn (by decide) (.lineFeed (by decide)
        (.last (by decide)))))))⟩
  obtain ⟨text, ht⟩ := hended
  rw [← String.toList_ofList (l := text)] at ht
  exact ⟨String.ofList text, ht, hlines, listedModules_of_lines hspace hS hids hlines ht⟩

end Lines

end Isolation
