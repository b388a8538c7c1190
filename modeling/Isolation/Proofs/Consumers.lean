import Isolation.Consumer
import Isolation.Proofs.GoModLayout

/-!
# The documents of consumers are read back

`GoMod.render` writes a document in one of three shapes: no requirement, one on a line of its own,
or several in a block. This file fixes that each of them is laid out as a well-formed document
(`Layout.Document`), so that the reader finds in it what was asked for.

* `writtenLines`, `toList_render` -- the lines of a written document, each ended by a line feed;
* `document_writtenLines` -- they are laid out, and say what was to be written;
* **`Consumer.parse_document`** -- the document of a consumer is read back, whatever it requires.

No path is an exception: a line is known by its words, and an entry has two of them, so a path that
reads like a parenthesis or like a directive opens and closes nothing.
-/

namespace Isolation.GoMod

open Layout

/-! ## 1. What is written -/

/-- An entry of a block. -/
def entryLine (version path : String) : List Char :=
  ['\t'] ++ (path.toList ++ [' '] ++ version.toList)

/-- The lines that follow those which every document begins with. -/
def requirementLines (version : String) : List String → List (List Char)
  | [] => []
  | [path] => [[], "require".toList ++ [' '] ++ (path.toList ++ [' '] ++ version.toList)]
  | path :: path' :: paths =>
    [] :: ("require".toList ++ [' '] ++ ['(']) ::
      ((path :: path' :: paths).map (entryLine version) ++ [[')']])

/-- The lines of a document that `render` writes. -/
def writtenLines (name : String) (paths : List String) (version : String) : List (List Char) :=
  ("module".toList ++ [' '] ++ name.toList) :: [] :: ("go".toList ++ [' '] ++ "1.24.0".toList) ::
    requirementLines version paths

variable {name version : String} {paths : List String}

/-- **A written document is its lines**, each ended by a line feed. -/
theorem toList_render : (render name paths version).toList =
    (writtenLines name paths version).flatMap (· ++ ['\n']) := by
  rcases paths with _ | ⟨path, _ | ⟨path', paths⟩⟩
  · simp [render, writtenLines, requirementLines, toString]
  · simp [render, writtenLines, requirementLines, toString]
  · simp [render, writtenLines, requirementLines, entryLine, toString, String.toList_join,
      List.flatMap_map]

/-! ## 2. It is laid out -/

theorem spaced_triple {w w' w'' : List Char} (hw : Word w) (hw' : Word w') (hw'' : Word w'') :
    Spaced [w, w', w''] (w ++ [' '] ++ (w' ++ [' '] ++ w'')) :=
  .more hw (by decide) (by decide) (List.cons_ne_nil _ _) (spaced_pair hw' hw'')

/-- What is written of a path and a version is an entry without a comment. -/
theorem entry_of_path {path : String} (hp : Path path.toList) :
    Layout.Entry [path.toList, version.toList] none ⟨path, version, false⟩ := by
  have he : Layout.Entry [path.toList, version.toList] none
      ⟨String.ofList path.toList, String.ofList version.toList, false⟩ :=
    .intro hp .bare (by simp)
  rwa [String.ofList_toList, String.ofList_toList] at he

section Requirements

variable (hv : Word version.toList)
include hv

theorem line_entryLine {path : String} (hp : Path path.toList) :
    Line [path.toList, version.toList] none (entryLine version path) := by
  have hline : Line [path.toList, version.toList] none
      (['\t'] ++ (path.toList ++ [' '] ++ version.toList) ++ []) :=
    .plain (by decide) (spaced_pair hp.toWord hv) (by decide)
  rwa [List.append_nil] at hline

/-- The entries of a block, by induction on the paths. -/
theorem entries_map_entryLine (hp : ∀ p ∈ paths, Path p.toList) :
    Entries (paths.map (entryLine version)) (paths.map fun p => ⟨p, version, false⟩) := by
  induction paths with
  | nil => exact .nil
  | cons path paths ih =>
    obtain ⟨hpath, hpaths⟩ := List.forall_mem_cons.mp hp
    exact .entry (line_entryLine hv hpath) (entry_of_path hpath) (ih hpaths)

/-- One path is required on a line of its own, several in a block. -/
theorem document_requirementLines (hp : ∀ p ∈ paths, Path p.toList) :
    Document (requirementLines version paths) none (paths.map fun p => ⟨p, version, false⟩) := by
  have hrequire : Word "require".toList := by decide
  rcases paths with _ | ⟨path, _ | ⟨path', paths⟩⟩
  · exact .nil
  · have hpath := hp path List.mem_cons_self
    have hline := (spaced_triple hrequire hpath.toWord hv).line
    exact .cons (.silent line_nil) (.cons (.requireLine hline (entry_of_path hpath)) .nil)
  · have hopening : Line ["require".toList, ['(']] none ("require".toList ++ [' '] ++ ['(']) :=
      (spaced_pair hrequire (by decide)).line
    have hclosing : Line [[')']] none [')'] := (Spaced.one (by decide)).line
    have hblock := Item.requireBlock hopening (entries_map_entryLine hv hp) hclosing
    have hdocument := Document.cons (.silent line_nil) (Document.cons hblock .nil)
    simpa [requirementLines] using hdocument

/-- **What is written is laid out**, and says what was to be written. -/
theorem document_writtenLines (hn : Path name.toList) (hp : ∀ p ∈ paths, Path p.toList) :
    Document (writtenLines name paths version) (some name.toList)
      (paths.map fun p => ⟨p, version, false⟩) := by
  have hmodule : Line ["module".toList, name.toList] none
      ("module".toList ++ [' '] ++ name.toList) := (spaced_pair (by decide) hn.toWord).line
  have hgo : Line ["go".toList, "1.24.0".toList] none
      ("go".toList ++ [' '] ++ "1.24.0".toList) := (spaced_pair (by decide) (by decide)).line
  have hother := Item.otherLine (by decide) (by decide) (by decide) hgo
  exact .cons (.moduleLine hn .bare hmodule) (.cons (.silent line_nil) (.cons hother
    (document_requirementLines hv hp)))

/-- No line feed is written inside a line: none is in a word. -/
theorem lineFeed_not_mem_writtenLines (hn : Path name.toList) (hp : ∀ p ∈ paths, Path p.toList) :
    ∀ l ∈ writtenLines name paths version, '\n' ∉ l := by
  have hword : ∀ {w : List Char}, Word w → '\n' ∉ w := fun hw hmem =>
    absurd (hw.solid '\n' hmem) (by decide)
  have hname := hword hn.toWord
  have hversion := hword hv
  have hpath : ∀ p ∈ paths, '\n' ∉ p.toList := fun p hmem => hword (hp p hmem).toWord
  rcases paths with _ | ⟨path, _ | ⟨path', paths⟩⟩
  · simp [writtenLines, requirementLines, hname]
  · simp_all [writtenLines, requirementLines]
  · simp_all [writtenLines, requirementLines, entryLine, or_imp, forall_and]

end Requirements

end Isolation.GoMod

/-! ## 3. It is read back -/

namespace Isolation.Consumer

/-- **The document of a consumer is read back**: the reader finds the consumer's module and the
    paths in their order, each at the version that was asked for. -/
theorem parse_document {paths : List String} {version : String}
    (hp : ∀ p ∈ paths, GoMod.Layout.Path p.toList) (hv : GoMod.Layout.Word version.toList) :
    GoMod.parse (document paths version) =
      .ok ⟨modulePath, paths.map fun p => ⟨p, version, false⟩⟩ := by
  have hname : GoMod.Layout.Path modulePath.toList := by decide
  have hlayout := GoMod.document_writtenLines hv hname hp
  have htext : GoMod.Layout.TextOf (GoMod.writtenLines modulePath paths version)
      (document paths version).toList := by
    rw [document, GoMod.toList_render]
    exact GoMod.Layout.textOf_flatMap (GoMod.lineFeed_not_mem_writtenLines hv hname hp)
  have hread := (hlayout.reads none []).of_textOf htext
  rw [GoMod.parse_of_reads hread rfl hname.ne_nil, String.ofList_toList]
  rfl

/-- Paths that read like an opening parenthesis, a closing one and a directive are read back. -/
theorem parse_document_of_odd_paths :
    (∀ p ∈ ["(", ")", "require"], GoMod.Layout.Path p.toList) ∧
      GoMod.parse (document ["(", ")", "require"] "v0.1.0") =
        .ok ⟨"modguard-consumer",
          [⟨"(", "v0.1.0", false⟩, ⟨")", "v0.1.0", false⟩, ⟨"require", "v0.1.0", false⟩]⟩ :=
  ⟨by decide, parse_document (by decide) (by decide)⟩

end Isolation.Consumer
