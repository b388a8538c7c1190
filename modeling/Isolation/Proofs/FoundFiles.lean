import Isolation.Files.Search
import Mathlib.Data.List.Flatten
import Mathlib.Data.List.Nodup
import Mathlib.Data.String.Basic

/-!
# The files that a search finds

A search is right if it finds what is there: the regular files of a name, where no directory on the
way is hidden, that the selection counts in. This file says what is there without the search, by
where a file lies (`FileAt`), and shows that the search finds just that.

* `mem_filesNamed_iff` -- what is found before the selection, by induction on the path;
* `mem_findFiles_iff` -- and after it;
* `Tidy.nodup_filesNamed` -- where no directory has two entries of one name, nothing is found twice;
* `Relisted.perm_filesNamed` -- in whatever order the directories list their entries, the same files
  are found; the orders are related from one swap to the next;
* `holder_eq_of_cut` -- what the patterns for directories see is what stands before the last slash;
* **`findFiles_lists`** -- the result of a search, in ascending order.

NOT here: which patterns there are (`Isolation.Glob`), and directories that cannot be read.
-/

namespace Isolation.Files

/-! ## 1. What is there -/

/-- A regular file. -/
inductive Tree.Regular : Tree → Prop where
  | file (bytes : ByteArray) (executable : Bool) : Regular (.file bytes executable)
  | program (name : String) : Regular (.program name)

/-- A regular file of a name lies below a directory, given by its entries, at the end of some
    directories. -/
inductive FileAt (name : String) : List (String × Tree) → List String → Prop where
  | here {entries : List (String × Tree)} {t : Tree} (h : (name, t) ∈ entries) (ht : t.Regular) :
    FileAt name entries []
  | under {entries sub : List (String × Tree)} {dir : String} {dirs : List String}
    (h : (dir, .directory sub) ∈ entries) (hf : FileAt name sub dirs) :
    FileAt name entries (dir :: dirs)

/-- The name of a directory that is not entered. -/
def Hidden (dir : String) : Prop := ".".toList <+: dir.toList

instance (dir : String) : Decidable (Hidden dir) :=
  inferInstanceAs (Decidable (".".toList <+: dir.toList))

/-- A file at the end of some directories is one of those that are to be found. -/
structure Wanted (name : String) (s : Selection) (entries : List (String × Tree))
    (dirs : List String) : Prop where
  fileAt : FileAt name entries dirs
  not_hidden : ∀ dir ∈ dirs, ¬ Hidden dir
  /-- Its own path is not excluded. The paths of the directories do not matter. -/
  not_excluded : s.exclude (slashed (dirs ++ [name])) = false
  /-- Its directory is included, unless all are. -/
  included : ∀ p ∈ s.include?, p (if dirs = [] then "." else slashed dirs) = true

/-- No directory has two entries of one name. -/
inductive Tidy : List (String × Tree) → Prop where
  | intro {entries : List (String × Tree)} (h : (entries.map Prod.fst).Nodup)
    (hsub : ∀ dir sub, (dir, .directory sub) ∈ entries → Tidy sub) : Tidy entries

/-- The same directory, listed in another order: its own entries, and those of the directories
    below it. -/
inductive Relisted : List (String × Tree) → List (String × Tree) → Prop where
  | nil : Relisted [] []
  | cons (e : String × Tree) {r r' : List (String × Tree)} (h : Relisted r r') :
    Relisted (e :: r) (e :: r')
  | inside (dir : String) {sub sub' r r' : List (String × Tree)} (hsub : Relisted sub sub')
    (h : Relisted r r') : Relisted ((dir, .directory sub) :: r) ((dir, .directory sub') :: r')
  | swap (e e' : String × Tree) (r : List (String × Tree)) : Relisted (e :: e' :: r) (e' :: e :: r)
  | trans {r r' r'' : List (String × Tree)} (h : Relisted r r') (h' : Relisted r' r'') :
    Relisted r r''

/-! ## 2. What is found -/

section Found

variable {name dir : String} {dirs path : List String} {t : Tree} {s : Selection}
  {entries entries' : List (String × Tree)}

theorem startsWith_dot_iff : Text.startsWith dir "." = true ↔ Hidden dir := Text.startsWith_iff

theorem filesNamed_eq_flatMap :
    filesNamed name entries = entries.flatMap fun e => filesAt name e.1 e.2 := by
  induction entries with
  | nil => rfl
  | cons e r ih => rw [List.flatMap_cons, ← ih, filesNamed]

/-- What is found at an entry, by what the entry is. -/
theorem filesAt_cases (name dir : String) (t : Tree) :
    (∃ sub, t = .directory sub ∧ filesAt name dir t =
      if Text.startsWith dir "." then [] else (filesNamed name sub).map (dir :: ·)) ∨
    (t.Regular ∧ filesAt name dir t = if dir = name then [[dir]] else []) ∨
    (¬ t.Regular ∧ (∀ sub, t ≠ .directory sub) ∧ filesAt name dir t = []) := by
  cases t with
  | directory sub => exact Or.inl ⟨sub, rfl, by rw [filesAt]⟩
  | file bytes executable => exact Or.inr (Or.inl ⟨.file bytes executable, by rw [filesAt]⟩)
  | program program => exact Or.inr (Or.inl ⟨.program program, by rw [filesAt]⟩)
  | link target =>
    exact Or.inr (Or.inr ⟨by rintro ⟨⟩, by rintro _ ⟨⟩, by rw [filesAt]⟩)
  | device d =>
    exact Or.inr (Or.inr ⟨by rintro ⟨⟩, by rintro _ ⟨⟩, by rw [filesAt]⟩)

/-- What is found at an entry is the entry itself, or what is found in it. -/
theorem mem_filesAt_iff : path ∈ filesAt name dir t ↔
    (t.Regular ∧ dir = name ∧ path = [name]) ∨
      ∃ sub rest, t = .directory sub ∧ ¬ Hidden dir ∧ rest ∈ filesNamed name sub ∧
        path = dir :: rest := by
  rcases filesAt_cases name dir t with ⟨sub, rfl, hat⟩ | ⟨ht, hat⟩ | ⟨ht, hsub, hat⟩
  · have hregular : ¬ (Tree.directory sub).Regular := fun h => nomatch h
    rw [hat]
    by_cases hdot : Hidden dir
    · rw [if_pos (startsWith_dot_iff.mpr hdot)]
      simp [hregular, hdot]
    · rw [if_neg fun h => hdot (startsWith_dot_iff.mp h), List.mem_map]
      simp only [hregular, hdot, false_and, false_or, Tree.directory.injEq]
      constructor
      · rintro ⟨rest, hrest, rfl⟩
        exact ⟨sub, rest, rfl, not_false, hrest, rfl⟩
      · rintro ⟨_, rest, rfl, _, hrest, rfl⟩
        exact ⟨rest, hrest, rfl⟩
  · rw [hat]
    have hsub : ∀ sub, t ≠ .directory sub := by
      rintro sub rfl
      cases ht
    by_cases hname : dir = name
    · simp [hname, ht, hsub]
    · simp [hname, hsub]
  · rw [hat]
    simp [ht, hsub]

theorem mem_filesNamed_iff_exists : path ∈ filesNamed name entries ↔
    ∃ e ∈ entries, path ∈ filesAt name e.1 e.2 := by
  rw [filesNamed_eq_flatMap, List.mem_flatMap]

/-- **The files of a name are found where they lie**, unless a directory on the way is hidden. -/
theorem mem_filesNamed_iff : path ∈ filesNamed name entries ↔
    ∃ dirs, path = dirs ++ [name] ∧ FileAt name entries dirs ∧ ∀ dir ∈ dirs, ¬ Hidden dir := by
  constructor
  · intro h
    induction path generalizing entries with
    | nil =>
      obtain ⟨e, _, he⟩ := mem_filesNamed_iff_exists.mp h
      rcases mem_filesAt_iff.mp he with ⟨_, _, hnil⟩ | ⟨_, _, _, _, _, hnil⟩
      · cases hnil
      · cases hnil
    | cons n path ih =>
      obtain ⟨⟨n', t⟩, hmem, he⟩ := mem_filesNamed_iff_exists.mp h
      rcases mem_filesAt_iff.mp he with ⟨ht, rfl, hpath⟩ | ⟨sub, rest, rfl, hh, hrest, hpath⟩
      · exact ⟨[], hpath, .here hmem ht, fun _ hd => absurd hd List.not_mem_nil⟩
      · obtain ⟨rfl, rfl⟩ := List.cons.inj hpath
        obtain ⟨dirs, rfl, hf, hdirs⟩ := ih hrest
        exact ⟨n :: dirs, rfl, .under hmem hf, List.forall_mem_cons.mpr ⟨hh, hdirs⟩⟩
  · rintro ⟨dirs, rfl, hf, hdirs⟩
    induction hf with
    | here hmem ht =>
      exact mem_filesNamed_iff_exists.mpr ⟨_, hmem, mem_filesAt_iff.mpr (Or.inl ⟨ht, rfl, rfl⟩)⟩
    | under hmem _ ih =>
      obtain ⟨hh, hdirs⟩ := List.forall_mem_cons.mp hdirs
      exact mem_filesNamed_iff_exists.mpr
        ⟨_, hmem, mem_filesAt_iff.mpr (Or.inr ⟨_, _, rfl, hh, ih hdirs, rfl⟩)⟩

/-! ## 3. What is selected -/

/-- The patterns for directories see the directories of a file. -/
theorem holder_append : holder (dirs ++ [name]) = if dirs = [] then "." else slashed dirs := by
  rw [holder, List.dropLast_concat]
  cases dirs with
  | nil => rfl
  | cons d dirs => rfl

theorem selects_iff : s.selects (dirs ++ [name]) = true ↔
    s.exclude (slashed (dirs ++ [name])) = false ∧
      ∀ p ∈ s.include?, p (if dirs = [] then "." else slashed dirs) = true := by
  rw [Selection.selects, holder_append, Bool.and_eq_true, Bool.not_eq_true']
  refine and_congr_right fun _ => ?_
  cases s.include? with
  | none => simp
  | some p => simp

/-- **What a search finds is what is wanted.** -/
theorem mem_findFiles_iff : path ∈ findFiles name s entries ↔
    ∃ dirs, path = dirs ++ [name] ∧ Wanted name s entries dirs := by
  rw [findFiles, (sortedBy_perm _ _).mem_iff, List.mem_filter, mem_filesNamed_iff]
  constructor
  · rintro ⟨⟨dirs, rfl, hf, hdirs⟩, hs⟩
    obtain ⟨hexclude, hinclude⟩ := selects_iff.mp hs
    exact ⟨dirs, rfl, hf, hdirs, hexclude, hinclude⟩
  · rintro ⟨dirs, rfl, hf, hdirs, hexclude, hinclude⟩
    exact ⟨⟨dirs, rfl, hf, hdirs⟩, selects_iff.mpr ⟨hexclude, hinclude⟩⟩

/-! ## 4. Once each, in order -/

theorem tidy_nil : Tidy [] := .intro List.nodup_nil fun _ _ h => absurd h List.not_mem_nil

theorem tidy_cons_iff : Tidy ((dir, t) :: entries) ↔
    dir ∉ entries.map Prod.fst ∧ (∀ sub, t = .directory sub → Tidy sub) ∧ Tidy entries := by
  constructor
  · rintro ⟨h, hsub⟩
    obtain ⟨hdir, hentries⟩ := List.nodup_cons.mp h
    refine ⟨hdir, fun sub ht => hsub dir sub ?_, .intro hentries fun d sub hd => hsub d sub ?_⟩
    · rw [ht]
      exact List.mem_cons_self
    · exact List.mem_cons_of_mem _ hd
  · rintro ⟨hdir, ht, ⟨hentries, hsub⟩⟩
    refine .intro (List.nodup_cons.mpr ⟨hdir, hentries⟩) fun d sub hd => ?_
    rcases List.mem_cons.mp hd with he | hd
    · exact ht sub (Prod.mk.inj he).2.symm
    · exact hsub d sub hd

/-- What is found at an entry begins with its name. -/
theorem head_of_mem_filesAt (h : path ∈ filesAt name dir t) : path.head? = some dir := by
  rcases mem_filesAt_iff.mp h with ⟨_, rfl, rfl⟩ | ⟨_, _, _, _, _, rfl⟩
  · rfl
  · rfl

theorem nodup_filesAt (h : ∀ sub, t = .directory sub → (filesNamed name sub).Nodup) :
    (filesAt name dir t).Nodup := by
  rcases filesAt_cases name dir t with ⟨sub, ht, hat⟩ | ⟨_, hat⟩ | ⟨_, _, hat⟩
  · rw [hat]
    split
    · exact .nil
    · exact (h sub ht).map fun _ _ he => (List.cons.inj he).2
  · rw [hat]
    split
    · exact List.nodup_singleton _
    · exact .nil
  · rw [hat]
    exact .nil

/-- **Nothing is found twice.** By induction on the tree; two entries of a directory have different
    names, so what is found at one is not found at the other. -/
theorem Tidy.nodup_filesNamed (h : Tidy entries) : (filesNamed name entries).Nodup := by
  induction h with
  | @intro entries h _ ih =>
    rw [filesNamed_eq_flatMap, List.nodup_flatMap]
    constructor
    · intro e he
      refine nodup_filesAt fun sub hsub => ih e.1 sub ?_
      rwa [← hsub]
    · refine (List.pairwise_map.mp h).imp fun {e e'} hne path hpath hpath' => hne ?_
      have hhead := head_of_mem_filesAt hpath
      rw [head_of_mem_filesAt hpath'] at hhead
      exact (Option.some.inj hhead).symm

/-- Paths that compare as less precede in the order of their names: the first difference decides. -/
theorem lex_of_compare {p q : List String} (h : compare p q = .lt) : List.Lex (· < ·) p q := by
  induction p generalizing q with
  | nil =>
    cases q with
    | nil => cases h
    | cons => exact .nil
  | cons n p ih =>
    cases q with
    | nil => cases h
    | cons m q =>
      rw [List.compare_cons_cons, Ordering.then_eq_lt] at h
      rcases h with hlt | ⟨heq, hlt⟩
      · exact .rel (compare_lt_iff_lt.mp hlt)
      · rw [Std.LawfulEqOrd.eq_of_compare heq]
        exact .cons (ih hlt)

theorem Tidy.pairwise_findFiles (h : Tidy entries) :
    (findFiles name s entries).Pairwise (List.Lex (· < ·)) :=
  (pairwise_lt_sortedBy (h.nodup_filesNamed.filter _)).imp lex_of_compare

/-! ## 5. Whatever the order of the entries -/

/-- **The order in which directories list their entries makes no difference to what is found.** -/
theorem Relisted.perm_filesNamed (h : Relisted entries entries') :
    (filesNamed name entries).Perm (filesNamed name entries') := by
  induction h with
  | nil => exact .refl _
  | cons e _ ih =>
    rw [filesNamed, filesNamed]
    exact ih.append_left _
  | inside dir _ _ ihsub ih =>
    rw [filesNamed, filesNamed]
    refine List.Perm.append ?_ ih
    rw [filesAt, filesAt]
    split
    · exact .refl _
    · exact ihsub.map _
  | swap e e' r =>
    rw [filesNamed, filesNamed, filesNamed, filesNamed, ← List.append_assoc, ← List.append_assoc]
    exact List.perm_append_comm.append_right _
  | trans _ _ ih ih' => exact ih.trans ih'

theorem Relisted.findFiles_eq (h : Relisted entries entries') :
    findFiles name s entries = findFiles name s entries' :=
  sortedBy_eq_of_perm (h.perm_filesNamed.filter _)

end Found

/-! ## 6. Paths with slashes -/

section Slashes

variable {name : String} {dirs names : List String} {before after : List Char}

theorem slashed_append (h : dirs ≠ []) :
    slashed (dirs ++ [name]) = slashed dirs ++ "/" ++ name := by
  induction dirs with
  | nil => exact absurd rfl h
  | cons d dirs ih =>
    cases dirs with
    | nil => rfl
    | cons d' dirs =>
      have hrest := ih (List.cons_ne_nil _ _)
      show d ++ "/" ++ slashed (d' :: dirs ++ [name]) =
        d ++ "/" ++ slashed (d' :: dirs) ++ "/" ++ name
      simp only [hrest, String.append_assoc]

theorem eq_nil_of_cons_eq_append {a : List Char} (hafter : '/' ∉ after)
    (h : '/' :: after = a ++ '/' :: before) : a = [] := by
  cases a with
  | nil => rfl
  | cons c a =>
    obtain ⟨_, rfl⟩ := List.cons.inj h
    exact absurd (List.mem_append_right a List.mem_cons_self) hafter

/-- A text has one last slash. -/
theorem eq_of_last_slash {before' after' : List Char} (hafter : '/' ∉ after)
    (hafter' : '/' ∉ after') (h : before ++ '/' :: after = before' ++ '/' :: after') :
    before = before' := by
  rcases List.append_eq_append_iff.mp h with ⟨a, rfl, ha⟩ | ⟨a, rfl, ha⟩
  · rw [eq_nil_of_cons_eq_append hafter ha, List.append_nil]
  · rw [eq_nil_of_cons_eq_append hafter' ha, List.append_nil]

/-- **What the patterns for directories see is what stands before the last slash of a path**, and
    `.` if the path has no slash. -/
theorem holder_eq_of_cut (hname : '/' ∉ name.toList) :
    ('/' ∉ (slashed (dirs ++ [name])).toList → holder (dirs ++ [name]) = ".") ∧
    ((slashed (dirs ++ [name])).toList = before ++ '/' :: after → '/' ∉ after →
      holder (dirs ++ [name]) = String.ofList before) := by
  rw [holder_append]
  by_cases hdirs : dirs = []
  · subst hdirs
    refine ⟨fun _ => rfl, fun h _ => absurd ?_ hname⟩
    have hmem : '/' ∈ before ++ '/' :: after := List.mem_append_right _ List.mem_cons_self
    rwa [← h] at hmem
  · rw [if_neg hdirs, slashed_append hdirs, String.toList_append, String.toList_append,
      List.append_assoc]
    constructor
    · intro h
      exact absurd (List.mem_append_right _ (List.mem_append_left _ List.mem_cons_self)) h
    · intro h hafter
      rw [← eq_of_last_slash hname hafter h, String.ofList_toList]

end Slashes

/-! ## 7. Searches -/

/-- **A search finds the files that are wanted, and nothing else.** It gives their paths, from the
    directory where it starts, in strictly ascending order of the names along them if no directory
    has two entries of one name; and it gives the same paths in every volume that has there the same
    files in directories that list their entries in another order. -/
theorem findFiles_lists {v : Volume} {root : String} {entries : List (String × Tree)}
    (hroot : v.readDirectory root = .ok entries) (name : String) (s : Selection) :
    ∃ found, v.findFiles root name s = .ok found ∧
      (∀ path, path ∈ found ↔ ∃ dirs, path = dirs ++ [name] ∧ Wanted name s entries dirs) ∧
      (Tidy entries → found.Pairwise (List.Lex (· < ·))) ∧
      ∀ (v' : Volume) (root' : String) (entries' : List (String × Tree)),
        v'.readDirectory root' = .ok entries' → Relisted entries entries' →
          v'.findFiles root' name s = .ok found := by
  refine ⟨findFiles name s entries, ?_, fun _ => mem_findFiles_iff, Tidy.pairwise_findFiles, ?_⟩
  · rw [Volume.findFiles, hroot]
    rfl
  · intro v' root' entries' hroot' h
    rw [Volume.findFiles, hroot', h.findFiles_eq]
    rfl

/-- A directory with the file itself, a hidden copy and a copy below an excluded directory. -/
def mixedEntries : List (String × Tree) :=
  [("go.mod", .file .empty false),
    (".git", .directory [("go.mod", .file .empty false)]),
    ("b", .directory [("go.mod", .link "../go.mod"),
      ("c", .directory [("go.mod", .program "go.mod")])])]

/-- The same directory, two of them listed in another order. -/
def relistedEntries : List (String × Tree) :=
  [(".git", .directory [("go.mod", .file .empty false)]),
    ("go.mod", .file .empty false),
    ("b", .directory [("c", .directory [("go.mod", .program "go.mod")]),
      ("go.mod", .link "../go.mod")])]

/-- All directories count, and the directory `b` is excluded. -/
def mixedSelection : Selection where
  include? := none
  exclude path := path == "b"

/-- The root of a volume that holds a directory is read as it is listed. -/
theorem readDirectory_root (entries : List (String × Tree)) :
    (Volume.mk (.directory entries) []).readDirectory "/" = .ok entries := by
  have hsteps : Volume.steps "/" = ["", ""] := by decide
  have hresolve : (Volume.mk (.directory entries) []).resolve "/" = .ok [] := by
    rw [Volume.resolve, hsteps, if_neg (by decide), if_neg (by decide), if_neg (by decide)]
    simp [Volume.follow, Tree.at?]
  unfold Volume.readDirectory Volume.open?
  rw [hresolve]
  rfl

/-- The file below the excluded directory is found in either order, and the hidden one is not. -/
theorem findFiles_of_mixed_entries :
    ∃ found, (Volume.mk (.directory mixedEntries) []).findFiles "/" "go.mod" mixedSelection =
        .ok found ∧
      (Volume.mk (.directory relistedEntries) []).findFiles "/" "go.mod" mixedSelection =
        .ok found ∧
      ["b", "c", "go.mod"] ∈ found ∧ [".git", "go.mod"] ∉ found ∧
      found.Pairwise (List.Lex (· < ·)) := by
  obtain ⟨found, hfound, hmem, hsorted, hrelisted⟩ :=
    findFiles_lists (readDirectory_root mixedEntries) "go.mod" mixedSelection
  refine ⟨found, hfound, hrelisted _ _ _ (readDirectory_root relistedEntries) ?_,
    (hmem _).mpr ⟨["b", "c"], rfl, ?_⟩, fun hgit => ?_, hsorted ?_⟩
  · exact .trans (.swap _ _ _) (.cons _ (.cons _ (.inside "b" (.swap _ _ _) .nil)))
  · have hfile : FileAt "go.mod" mixedEntries ["b", "c"] :=
      .under (List.mem_of_getLast? rfl) (.under (List.mem_of_getLast? rfl)
        (.here List.mem_cons_self (.program "go.mod")))
    exact ⟨hfile, by decide, by decide, fun _ hp => nomatch hp⟩
  · obtain ⟨dirs, hdirs, hwanted⟩ := (hmem _).mp hgit
    have hgit' : [".git"] = dirs := List.append_cancel_right hdirs
    exact hwanted.not_hidden ".git" (hgit' ▸ List.mem_cons_self) (by decide)
  · simp [mixedEntries, tidy_cons_iff, tidy_nil]

end Isolation.Files
