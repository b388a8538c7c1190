import Isolation.CrossCheck
import Isolation.Proofs.GoModLayout
import Isolation.Proofs.Success
import Isolation.Text.Octets

/-!
# What a list of modules is read as

The toolchain prints the modules that a consumer gets, one a line, in no order that matters, with
whatever columns after the path. What is read of a line is the first word, and of that what follows
the namespace. This file fixes what such a list is read as and what a cross-check makes of it.

* `Text.Leads`, `Text.leads_iff` -- the first word of a line, whatever stands around it;
* `mem_listedModules_iff` -- the modules read are what follows the namespace in first words;
* `Listing` -- the lines of a consumer, of the modules that it should get, and of others that have
  nothing to do with the namespace;
* `Listing.mem_listedModules_iff` -- such a list is read as the modules that the consumer should
  get, and the consumer itself if its name lies in the namespace;
* `GoToolchain.Prints`, `checkModule_of_prints` -- a check compares the closure, whatever memo it is
  asked for through, with what is read of what the command prints;
* **`checkModule_of_listing`** -- so a check against a toolchain that lists exactly the closure
  finds nothing unexpected, and misses at most the consumer. It agrees unless the name of the
  consumer lies in the namespace, as in the empty one (`consumer_missing_in_empty_namespace`).

NOT here: what else the command does when it is asked. It may be any `Launcher`, and change any
file.
-/

namespace Isolation

/-! ## 1. First words -/

namespace Text

/-- `w` is the first word of a line. -/
structure Leads (w line : List Char) : Prop where
  ne_nil : w ≠ []
  solid : Solid w
  written : ∃ gap rest, Blank gap ∧ (∀ c ∈ rest.head?, isBlank c = true) ∧ line = gap ++ w ++ rest

variable {w w' line gap text : List Char}

theorem Leads.head?_words (h : Leads w line) : (words line).head? = some w := by
  obtain ⟨hne, hw, gap, rest, hg, hrest, rfl⟩ := h
  rw [List.append_assoc, words_append_blank hg]
  cases rest with
  | nil => rw [List.append_nil, words_of_solid hw hne, List.head?_cons]
  | cons c rest =>
    have hc : Blank [c] := List.forall_mem_singleton.mpr (hrest c rfl)
    have happend : w ++ c :: rest = w ++ [c] ++ rest := by simp
    rw [happend, words_append hw hne hc (List.cons_ne_nil c []), List.head?_cons]

/-- **The first word of a line** is the first of its words. -/
theorem leads_iff : Leads w line ↔ (words line).head? = some w := by
  refine ⟨Leads.head?_words, fun h => ?_⟩
  obtain ⟨gap, rest, hg, hrest, rfl⟩ := exists_blank_append line
  obtain ⟨v, rest, hv, hrest', rfl⟩ := exists_solid_append rest
  by_cases hne : v = []
  · -- then nothing but white space stands on the line
    subst hne
    have hnil : rest = [] := by
      by_contra hne
      obtain ⟨c, r, rfl⟩ := List.exists_cons_of_ne_nil hne
      have hblank := hrest' c rfl
      rw [hrest c rfl] at hblank
      cases hblank
    subst hnil
    rw [List.append_nil, words_append_blank hg, words_nil] at h
    cases h
  · have hlead : Leads v (gap ++ (v ++ rest)) :=
      ⟨hne, hv, gap, rest, hg, hrest', (List.append_assoc _ _ _).symm⟩
    rw [hlead.head?_words] at h
    exact Option.some.inj h ▸ hlead

theorem Leads.unique (h : Leads w line) (h' : Leads w' line) : w = w' := by
  have hw := h.head?_words
  rw [h'.head?_words] at hw
  exact (Option.some.inj hw).symm

theorem leads_dropReturn : Leads w (dropReturn line) ↔ Leads w line := by
  rw [leads_iff, leads_iff, words_dropReturn]

open GoMod.Layout (TextOf) in
/-- The first words of the lines of a text are those of the lines that it was put together of. -/
theorem exists_leads_lines_iff {ls : List (List Char)} (ht : TextOf ls text) :
    (∃ l ∈ lines text, Leads w l) ↔ ∃ l ∈ ls, Leads w l := by
  induction ht with
  | nil => rw [lines_nil]
  | @last l hl =>
    by_cases hne : l = []
    · -- an empty last line is no line, and has no words
      subst hne
      simp [lines_nil, leads_iff, words_nil]
    · rw [lines_of_ne_nil hl hne]
  | cons hl _ ih =>
    rw [lines_append hl, List.exists_mem_cons_iff, List.exists_mem_cons_iff, ih, leads_dropReturn]

end Text

/-! ## 2. What is read of a line -/

section Reading

open Text (Leads)
open GoMod.Layout (TextOf)

variable {space : String} {id : Identity} {line : List Char} {ls : List (List Char)}

/-- **A line is read as a module** if it has the namespace and something after it as its first
    word. -/
theorem listedModule?_eq_some_iff :
    listedModule? space line = some id ↔ id ≠ "" ∧ Leads (space ++ id).toList line := by
  rw [Text.leads_iff, String.toList_append, listedModule?]
  cases hw : Text.words line with
  | nil => simp
  | cons word words =>
    simp only [List.head?_cons, Option.some_inj, ← Text.after?_eq_some_iff]
    cases ha : Text.after? space.toList word with
    | none => simp only [reduceCtorEq, and_false]
    | some rest =>
      cases rest with
      | nil =>
        simp only [reduceCtorEq, Option.some_inj, false_iff, not_and]
        exact fun hne h => hne (String.toList_eq_nil_iff.mp h.symm)
      | cons c cs =>
        simp only [Option.some_inj]
        constructor
        · rintro rfl
          exact ⟨by simp, String.toList_ofList.symm⟩
        · rintro ⟨-, h⟩
          rw [h, String.ofList_toList]

/-- **The modules of a list** are those that follow the namespace in the first words of its
    lines. -/
theorem mem_listedModules_iff {output : String} (ht : TextOf ls output.toList) :
    id ∈ listedModules output space ↔ id ≠ "" ∧ ∃ l ∈ ls, Leads (space ++ id).toList l := by
  rw [listedModules, NameSet.mem_ofList, List.mem_filterMap, ← Text.exists_leads_lines_iff ht]
  simp only [listedModule?_eq_some_iff]
  constructor
  · rintro ⟨l, hl, hne, h⟩
    exact ⟨hne, l, hl, h⟩
  · rintro ⟨hne, l, hl, h⟩
    exact ⟨l, hl, hne, h⟩

end Reading

/-! ## 3. Lists of what a consumer should get -/

/-- The lines of a list of modules: one of the consumer, one of each wanted module, and others that
    begin with a word outside the namespace, if with any. The order is left open, and so is what
    follows the first word of a line. -/
structure Listing (space : String) (wanted : Identity → Prop) (ls : List (List Char)) : Prop where
  consumer : ∃ l ∈ ls, Text.Leads Consumer.modulePath.toList l
  complete : ∀ id, wanted id → ∃ l ∈ ls, Text.Leads (space ++ id).toList l
  sound : ∀ l ∈ ls, Text.Leads Consumer.modulePath.toList l ∨
    (∃ id, wanted id ∧ Text.Leads (space ++ id).toList l) ∨
    ∀ w, Text.Leads w l → ¬ space.toList <+: w

/-- **What such a list is read as**: the wanted modules, and the consumer if its name lies in the
    namespace. -/
theorem Listing.mem_listedModules_iff {space output : String} {wanted : Identity → Prop}
    {ls : List (List Char)} {id : Identity} (h : Listing space wanted ls)
    (ht : GoMod.Layout.TextOf ls output.toList) :
    id ∈ listedModules output space ↔
      id ≠ "" ∧ (wanted id ∨ space ++ id = Consumer.modulePath) := by
  rw [Isolation.mem_listedModules_iff ht]
  refine and_congr_right fun _ => ⟨?_, ?_⟩
  · rintro ⟨l, hl, hlead⟩
    rcases h.sound l hl with hc | ⟨id', hw, hlead'⟩ | hforeign
    · exact Or.inr (String.toList_inj.mp (hlead.unique hc))
    · have happend := hlead.unique hlead'
      rw [String.toList_append, String.toList_append] at happend
      exact Or.inl (String.toList_inj.mp (List.append_cancel_left happend) ▸ hw)
    · rw [String.toList_append] at hlead
      exact absurd (List.prefix_append _ _) (hforeign _ hlead)
  · rintro (hw | hc)
    · exact h.complete id hw
    · exact hc ▸ h.consumer

/-! ## 4. Asking the toolchain -/

section Asking

open Files (Volume)

variable {launch : Launcher (StateM Volume)} {v v' : Volume} {e : Ended}

/-- A command is started and ends well; what it does to the file system is left open. -/
def Launcher.EndsWell (launch : Launcher (StateM Volume)) (c : Command) (v : Volume) (e : Ended)
    (v' : Volume) : Prop :=
  launch c v = (.ok e, v') ∧ e.success = true

/-- What follows an answer is done with it, on the file system that was left behind. -/
theorem run_bind_of_ok {α β : Type} {x : ExceptT Failure (StateM Volume) α} {a : α}
    (f : α → ExceptT Failure (StateM Volume) β) (h : x.run v = (.ok a, v')) :
    (x >>= f).run v = (f a).run v' := by
  change StateT.bind x.run (ExceptT.bindCont f) v = _
  simp only [StateT.bind, bind, h]
  rfl

theorem Launcher.EndsWell.execChecked_eq {c : Command} (h : launch.EndsWell c v e v') :
    (launch.execChecked c).run v = (.ok e, v') := by
  have hstart : (liftM (launch c) : ExceptT Failure (StateM Volume) _).run v =
      (.ok (.ok e), v') := by
    change (Except.ok (launch c v).1, (launch c v).2) = _
    rw [h.1]
  have hexec : (launch.exec c).run v = (.ok e, v') := run_bind_of_ok _ hstart
  rw [execChecked, run_bind_of_ok _ hexec, if_pos h.2]
  rfl

namespace GoToolchain

/-- Asked for the modules of a consumer of `id`, the command does what it is told and prints
    `output`. -/
def Prints (t : GoToolchain) (launch : Launcher (StateM Volume)) (v : Volume) (id : Identity)
    (output : String) : Prop :=
  ∃ fetched between listed after,
    launch.EndsWell (t.command scratchPath ["mod", "download"]) (t.withConsumer v [id] false)
      fetched between ∧
    launch.EndsWell (t.command scratchPath ["list", "-m", "all"]) between listed after ∧
    listed.combined = output

theorem resolve_of_prints {t : GoToolchain} {id : Identity} {output : String}
    (h : t.Prints launch v id output) : ∃ v', ((t.toolchain launch).resolve id).run v =
      (.ok ((listedModules output t.space).filter (· != id)), v') := by
  obtain ⟨fetched, between, listed, after, hfetch, hlist, rfl⟩ := h
  have hresolve : (t.resolveWith launch id).run (t.withConsumer v [id] false) =
      (.ok ((listedModules listed.combined t.space).filter (· != id)), after) := by
    rw [resolveWith, run_bind_of_ok _ hfetch.execChecked_eq, run_bind_of_ok _ hlist.execChecked_eq]
    rfl
  refine ⟨{ after with root := after.root.remove scratch }, ?_⟩
  change t.visiting [id] false (t.resolveWith launch id) v = _
  rw [visiting, hresolve]

end GoToolchain

/-- A check compares the closure with what is read of the answer, whatever closures were asked for
    before. -/
theorem checkModule_of_prints {g : Graph} {memo : Memo} {t : GoToolchain} {id : Identity}
    {output : String} {s : NameSet} (hm : memo.Faithful g) (hs : g.closure id = .ok s)
    (h : t.Prints launch v id output) :
    ∃ v', ((checkModule (t.toolchain launch) id).run g memo).1.run v =
      (.ok ⟨id, s, (listedModules output t.space).filter (· != id)⟩, v') := by
  obtain ⟨v', hresolve⟩ := GoToolchain.resolve_of_prints h
  have hclosure : (ExceptT.mk (pure (orFault (g.closure id)) : StateM Volume _)).run v =
      (.ok s, v) := by
    rw [hs]
    rfl
  refine ⟨v', ?_⟩
  rw [(Inquiry.run_spec _ hm).1, checkModule, Inquiry.answerIn, Inquiry.answerIn,
    run_bind_of_ok _ hclosure, run_bind_of_ok _ hresolve]
  rfl

end Asking

/-! ## 5. Checking -/

namespace Graph

variable {g : Graph} {root id : Identity}

/-- What a known module pulls in is a module, whose identity is not empty. -/
theorem ne_empty_of_pulls (hroot : g.Known root) (h : g.Pulls root id) : id ≠ "" := by
  obtain ⟨m, hm⟩ : g.Known id := h.elim (fun heq => heq ▸ hroot) exists_get?_of_below
  rintro rfl
  have hnamed := m.id_named
  rw [id_of_get? hm] at hnamed
  cases hnamed

/-- A closure holds what its root pulls in, less the root. -/
theorem mem_closure_iff_pulls {s : NameSet} (hs : g.closure root = .ok s) :
    id ∈ s ↔ g.Pulls root id ∧ id ≠ root := by
  rw [mem_closure hs, Pulls]
  constructor
  · intro h
    exact ⟨Or.inr h, fun heq => Branching.Below.irrefl (heq ▸ h)⟩
  · rintro ⟨h, hne⟩
    exact h.resolve_left hne

end Graph

section Checking

variable {g : Graph} {memo : Memo} {t : GoToolchain} {launch : Launcher (StateM Files.Volume)}
  {v : Files.Volume} {root : Identity} {output : String} {ls : List (List Char)}

/-- What a check finds in a list of the modules that its root pulls in. -/
theorem exists_check_of_listing (hm : memo.Faithful g) (hroot : g.Known root)
    (hrun : t.Prints launch v root output)
    (ht : GoMod.Layout.TextOf ls output.toList) (hl : Listing t.space (g.Pulls root) ls) :
    ∃ check v', ((checkModule (t.toolchain launch) root).run g memo).1.run v = (.ok check, v') ∧
      (∀ id, id ∉ check.unexpected) ∧
      ∀ id, id ∈ check.missing ↔
        id ≠ "" ∧ t.space ++ id = Consumer.modulePath ∧ ¬ g.Pulls root id := by
  obtain ⟨s, hs⟩ := Graph.exists_closure_iff.mpr hroot
  obtain ⟨v', hcheck⟩ := checkModule_of_prints hm hs hrun
  have hobserved : ∀ id, id ∈ (listedModules output t.space).filter (· != root) ↔
      (id ≠ "" ∧ (g.Pulls root id ∨ t.space ++ id = Consumer.modulePath)) ∧ id ≠ root := by
    intro id
    rw [Register.mem_filter, hl.mem_listedModules_iff ht, bne_iff_ne]
  refine ⟨_, v', hcheck, fun id h => ?_, fun id => ?_⟩
  · obtain ⟨hin, hout⟩ := NameSet.mem_diff.mp h
    obtain ⟨hpulls, hne⟩ := (Graph.mem_closure_iff_pulls hs).mp hin
    have hempty := Graph.ne_empty_of_pulls hroot hpulls
    exact hout ((hobserved id).mpr ⟨⟨hempty, Or.inl hpulls⟩, hne⟩)
  · rw [ModuleCheck.missing, NameSet.mem_diff, hobserved, Graph.mem_closure_iff_pulls hs]
    constructor
    · rintro ⟨⟨⟨hempty, h⟩, hne⟩, hout⟩
      have hnot : ¬ g.Pulls root id := fun hpulls => hout ⟨hpulls, hne⟩
      exact ⟨hempty, h.resolve_left hnot, hnot⟩
    · rintro ⟨hempty, hc, hnot⟩
      exact ⟨⟨⟨hempty, Or.inr hc⟩, fun heq => hnot (Or.inl heq)⟩, fun h => hnot h.1⟩

/-- **A cross-check against a toolchain that lists exactly the closure** finds nothing that the
    toolchain should have resolved and did not. What it finds missing from the graph is at most the
    consumer, when its name lies in the namespace and what follows the namespace in it is no module
    that the root pulls in. So they agree, unless there is such a name. -/
theorem checkModule_of_listing (hm : memo.Faithful g) (hroot : g.Known root)
    (hrun : t.Prints launch v root output)
    (ht : GoMod.Layout.TextOf ls output.toList) (hl : Listing t.space (g.Pulls root) ls) :
    ∃ check v', ((checkModule (t.toolchain launch) root).run g memo).1.run v = (.ok check, v') ∧
      (∀ id, id ∉ check.unexpected) ∧
      (∀ id, id ∈ check.missing ↔
        id ≠ "" ∧ t.space ++ id = Consumer.modulePath ∧ ¬ g.Pulls root id) ∧
      (check.agrees = true ↔
        ∀ id, t.space ++ id = Consumer.modulePath → id = "" ∨ g.Pulls root id) := by
  obtain ⟨check, v', hcheck, hunexpected, hmissing⟩ := exists_check_of_listing hm hroot hrun ht hl
  refine ⟨check, v', hcheck, hunexpected, hmissing, ?_⟩
  rw [ModuleCheck.agrees_iff_forall_not_mem, and_iff_left hunexpected]
  refine forall_congr' fun id => ?_
  rw [hmissing]
  constructor
  · intro h hc
    by_contra hnone
    rw [not_or] at hnone
    exact h ⟨hnone.1, hc, hnone.2⟩
  · rintro h ⟨hempty, hc, hnot⟩
    exact (h hc).elim hempty hnot

end Checking

/-! ## 6. Two namespaces -/

/-- A text of some lines, each ended by a line feed. -/
def printed (ls : List (List Char)) : String := String.ofList (ls.flatMap (· ++ ['\n']))

/-- A command that always ends well, and prints some lines when it is asked for modules. -/
def lister (ls : List (List Char)) : Launcher (StateM Files.Volume) := fun c v =>
  let output := if c.args = ["list", "-m", "all"] then printed ls else ""
  (.ok ⟨some 0, Text.bytesOfOctets output, []⟩, v)

/-- What it prints is what is read, if the lines are of ASCII characters. -/
theorem prints_lister {t : GoToolchain} {v : Files.Volume} {id : Identity}
    {ls : List (List Char)} (h : ∀ l ∈ ls, Text.Ascii l) :
    t.Prints (lister ls) v id (printed ls) := by
  have hprinted : Text.Ascii (printed ls).toList := by
    intro c hc
    rw [printed, String.toList_ofList] at hc
    obtain ⟨l, hl, hmem⟩ := List.mem_flatMap.mp hc
    rcases List.mem_append.mp hmem with hmem | hmem
    · exact h l hl c hmem
    · rw [List.mem_singleton.mp hmem]
      decide
  have hempty : Text.textOfOctets "" = "" := Text.textOfOctets_of_ascii (by decide)
  have hcombined : Ended.combined ⟨some 0, Text.bytesOfOctets (printed ls), []⟩ = printed ls := by
    change Text.textOfOctets (printed ls) ++ Text.textOfOctets "" = _
    rw [Text.textOfOctets_of_ascii hprinted, hempty, String.append_empty]
  exact ⟨_, _, _, _, ⟨rfl, rfl⟩, ⟨rfl, rfl⟩, hcombined⟩

theorem textOf_printed {ls : List (List Char)} (h : ∀ l ∈ ls, '\n' ∉ l) :
    GoMod.Layout.TextOf ls (printed ls).toList := by
  rw [printed, String.toList_ofList]
  exact GoMod.Layout.textOf_flatMap h

/-- The first service of the repository with two copies of a library pulls in one of them. -/
theorem pulls_api_iff {g : Graph} (hg : Graph.build twoCopies = .ok g) {id : Identity} :
    g.Pulls "api" id ↔ id = "api" ∨ id = "lib/old" := by
  constructor
  · rintro (h | h)
    · exact Or.inl h
    · exact eq_of_reflTransGen_api ((Graph.below_iff_of_build hg).mp h).to_reflTransGen
  · rintro (rfl | rfl)
    · exact Or.inl rfl
    · exact Or.inr ((Graph.below_iff_of_build hg).mpr (.single (by decide)))

/-- A `go` command, with the beginning of all import paths. -/
def goCommand (space : String) : GoToolchain := ⟨"go", space, "v0.1.0", Register.empty⟩

/-- A list of what a consumer of the first service gets, after lines about something else. -/
def serviceLines (space : String) (others : List (List Char)) : List (List Char) :=
  others ++ [(space ++ "lib/old v1.0.0 => ../old").toList, "modguard-consumer".toList,
    (space ++ "api v0.1.0").toList]

theorem listing_serviceLines {g : Graph} {space : String} {others : List (List Char)}
    (hg : Graph.build twoCopies = .ok g) (hspace : Text.Solid space.toList)
    (hothers : ∀ l ∈ others, ∀ w, Text.Leads w l → ¬ space.toList <+: w) :
    Listing space (g.Pulls "api") (serviceLines space others) := by
  have hconsumer : Text.Leads Consumer.modulePath.toList "modguard-consumer".toList :=
    Text.leads_iff.mpr (by decide)
  have hleads : ∀ id rest : String, id ≠ "" → Text.Solid id.toList →
      Text.Leads (space ++ id).toList (space ++ (id ++ (" " ++ rest))).toList := by
    intro id rest hne hid
    refine ⟨by simp [hne], ?_, [], ' ' :: rest.toList, List.forall_mem_nil _, ?_, by simp⟩
    · rw [String.toList_append]
      exact List.forall_mem_append.mpr ⟨hspace, hid⟩
    · exact fun c hc => Option.some.inj hc ▸ rfl
  have hapi : Text.Leads (space ++ "api").toList (space ++ "api v0.1.0").toList :=
    hleads "api" "v0.1.0" (by decide) (by decide)
  have hlib : Text.Leads (space ++ "lib/old").toList
      (space ++ "lib/old v1.0.0 => ../old").toList :=
    hleads "lib/old" "v1.0.0 => ../old" (by decide) (by decide)
  constructor
  · exact ⟨"modguard-consumer".toList, by simp [serviceLines], hconsumer⟩
  · intro id h
    rcases (pulls_api_iff hg).mp h with rfl | rfl
    · exact ⟨_, by simp [serviceLines], hapi⟩
    · exact ⟨_, by simp [serviceLines], hlib⟩
  · intro l hl
    rcases List.mem_append.mp hl with hl | hl
    · exact Or.inr (Or.inr (hothers l hl))
    · simp only [List.mem_cons, List.not_mem_nil, or_false] at hl
      rcases hl with rfl | rfl | rfl
      · exact Or.inr (Or.inl ⟨"lib/old", (pulls_api_iff hg).mpr (Or.inr rfl), hlib⟩)
      · exact Or.inl hconsumer
      · exact Or.inr (Or.inl ⟨"api", (pulls_api_iff hg).mpr (Or.inl rfl), hapi⟩)

/-- Asked about the first service, the command lists what a consumer of it gets. -/
theorem exists_service_listing {space : String} {others : List (List Char)}
    (hspace : Text.Solid space.toList)
    (hothers : ∀ l ∈ others, ∀ w, Text.Leads w l → ¬ space.toList <+: w)
    (hlines : ∀ l ∈ serviceLines space others, '\n' ∉ l ∧ Text.Ascii l) (v : Files.Volume) :
    ∃ g, Graph.build twoCopies = .ok g ∧ g.Known "api" ∧
      (goCommand space).Prints (lister (serviceLines space others)) v "api"
        (printed (serviceLines space others)) ∧
      GoMod.Layout.TextOf (serviceLines space others)
        (printed (serviceLines space others)).toList ∧
      Listing space (g.Pulls "api") (serviceLines space others) := by
  obtain ⟨g, hg⟩ := exists_build_twoCopies
  exact ⟨g, hg, (Graph.known_iff_of_build hg).mpr (by decide),
    prints_lister fun l hl => (hlines l hl).2, textOf_printed fun l hl => (hlines l hl).1,
    listing_serviceLines hg hspace hothers⟩

/-- The lines where every import path begins with `n/`, and something else is required too. -/
def scopedLines : List (List Char) := serviceLines "n/" ["x.org/far v3.0.0".toList]

/-- A list of such lines is read as the closure. -/
theorem checkModule_of_scoped_listing : ∃ g check v', Graph.build twoCopies = .ok g ∧
    g.Known "api" ∧
    (goCommand "n/").Prints (lister scopedLines) ⟨.directory [], []⟩ "api" (printed scopedLines) ∧
    GoMod.Layout.TextOf scopedLines (printed scopedLines).toList ∧
    Listing "n/" (g.Pulls "api") scopedLines ∧
    ((checkModule ((goCommand "n/").toolchain (lister scopedLines)) "api").run g Memo.empty).1.run
      ⟨.directory [], []⟩ = (.ok check, v') ∧ check.agrees = true := by
  have hfar : Text.Leads "x.org/far".toList "x.org/far v3.0.0".toList :=
    Text.leads_iff.mpr (by decide)
  have hothers : ∀ l ∈ ["x.org/far v3.0.0".toList], ∀ w, Text.Leads w l → ¬ "n/".toList <+: w := by
    intro l hl w hw
    rw [List.mem_singleton.mp hl] at hw
    rw [hw.unique hfar]
    decide
  obtain ⟨g, hg, hknown, hrun, ht, hlisting⟩ :=
    exists_service_listing (by decide) hothers (by decide) ⟨.directory [], []⟩
  obtain ⟨check, v', hcheck, _, _, hagrees⟩ :=
    checkModule_of_listing Memo.faithful_empty hknown hrun ht hlisting
  refine ⟨g, check, v', hg, hknown, hrun, ht, hlisting, hcheck, hagrees.mpr fun id h => ?_⟩
  -- the name of the consumer does not begin with this namespace
  have hprefix : "n/".toList <+: Consumer.modulePath.toList := by
    rw [← h, String.toList_append]
    exact List.prefix_append _ _
  exact absurd hprefix (by decide)

/-- The lines where import paths are identities. -/
def unscopedLines : List (List Char) := serviceLines "" []

/-- **In the empty namespace the consumer is taken for one of its modules**: the list is that of the
    closure, and yet the check finds the consumer missing from the graph. -/
theorem consumer_missing_in_empty_namespace : ∃ g check v', Graph.build twoCopies = .ok g ∧
    g.Known "api" ∧
    (goCommand "").Prints (lister unscopedLines) ⟨.directory [], []⟩ "api"
      (printed unscopedLines) ∧
    GoMod.Layout.TextOf unscopedLines (printed unscopedLines).toList ∧
    Listing "" (g.Pulls "api") unscopedLines ∧
    ((checkModule ((goCommand "").toolchain (lister unscopedLines)) "api").run g Memo.empty).1.run
      ⟨.directory [], []⟩ = (.ok check, v') ∧
    "modguard-consumer" ∈ check.missing ∧ check.agrees = false := by
  have hothers : ∀ l ∈ [], ∀ w, Text.Leads w l → ¬ "".toList <+: w := List.forall_mem_nil _
  obtain ⟨g, hg, hknown, hrun, ht, hlisting⟩ :=
    exists_service_listing (by decide) hothers (by decide) ⟨.directory [], []⟩
  obtain ⟨check, v', hcheck, _, hmissing⟩ :=
    exists_check_of_listing Memo.faithful_empty hknown hrun ht hlisting
  have hnot : ¬ g.Pulls "api" "modguard-consumer" :=
    fun h => absurd ((pulls_api_iff hg).mp h) (by decide)
  have hmem : "modguard-consumer" ∈ check.missing :=
    (hmissing "modguard-consumer").mpr ⟨by decide, by decide, hnot⟩
  refine ⟨g, check, v', hg, hknown, hrun, ht, hlisting, hcheck, hmem, ?_⟩
  refine Bool.eq_false_iff.mpr fun h => ?_
  exact (ModuleCheck.agrees_iff_forall_not_mem.mp h).1 _ hmem

end Isolation
