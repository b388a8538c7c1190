import Isolation.Branching

/-!
# Outlines

An outline lists what lies below a root, one entry a line, each child one level deeper than its
parent. A value that has children is expanded once, where it is first met; every later meeting is a
single entry marked as a repetition. There are two kinds, and they keep the expanded values apart:

* `outline` has a depth limit, which stops the expansion: an entry at the limit is listed, what is
  below it is not, and it does not count as expanded. The children of the root are listed whatever
  the limit. Every other entry that is not a repetition counts as expanded, a leaf too.
* `fullOutline` has no limit, and a leaf does not count as expanded.

Entries are data (`Entry`): an entry knows, for its own level and every level above it, whether
the line at that level is the last among its siblings. Depth and drawing follow from that alone, and
the text of an outline is the entries drawn one after another.
-/

namespace Isolation

/-- One line of an outline. -/
structure Entry (α : Type) where
  value : α
  /-- For each level below the root down to this one: whether its line is the last sibling. -/
  lasts : List Bool
  /-- The value was expanded before, and is not expanded here. -/
  repeated : Bool
deriving DecidableEq, Repr

namespace Entry

variable {α : Type}

/-- How many levels below the root the line is. -/
def depth (e : Entry α) : Nat := e.lasts.length

/-- What is drawn below an earlier level: blank under a last sibling, else a bar. -/
def rail (last : Bool) : String := if last then "    " else "│   "

/-- What is drawn before the value itself. -/
def connector (last : Bool) : String := if last then "└── " else "├── "

/-- The drawing before the value: the rails of the levels above, then the connector. -/
def lead : List Bool → String
  | [] => ""
  | [last] => connector last
  | last :: l :: ls => rail last ++ lead (l :: ls)

/-- The line as it is printed. -/
def text (label : α → String) (e : Entry α) : String :=
  lead e.lasts ++ label e.value ++ (if e.repeated then " (*)" else "") ++ "\n"

end Entry

/-- The values of a list, each with whether it is the last one. -/
def markLast {α : Type} : List α → List (α × Bool)
  | [] => []
  | [a] => [(a, true)]
  | a :: b :: r => (a, false) :: markLast (b :: r)

theorem map_fst_markLast {α : Type} (l : List α) : (markLast l).map Prod.fst = l := by
  fun_induction markLast l <;> simp_all

namespace Branching

variable {α : Type} [DecidableEq α] (b : Branching α)

/-- Whether a line so many levels below the root is at the depth limit. -/
def atLimit (limit : Option Nat) (depth : Nat) : Bool :=
  match limit with
  | some n => n ≤ depth
  | none => false

/-- The entries from `a` on, and the values expanded after that. -/
def entriesFrom (limit : Option Nat) (expanded : List α) (lasts : List Bool) (a : α) :
    List (Entry α) × List α :=
  if b.children a ≠ [] ∧ a ∈ expanded then ([⟨a, lasts, true⟩], expanded)
  else if atLimit limit lasts.length then ([⟨a, lasts, false⟩], expanded)
  else
    (markLast (b.children a).attach).foldl (fun st c =>
      let sub := entriesFrom limit st.2 (lasts ++ [c.2]) c.1.1
      (st.1 ++ sub.1, sub.2)) ([⟨a, lasts, false⟩], a :: expanded)
termination_by b.rank a
decreasing_by exact b.falls a c.1.1 c.1.2

/-- The outline below a root, the root's own line first. -/
def outline (limit : Option Nat) (root : α) : List (Entry α) :=
  ((markLast (b.children root)).foldl (fun st c =>
    let sub := b.entriesFrom limit st.2 [c.2] c.1
    (st.1 ++ sub.1, sub.2)) ([⟨root, [], false⟩], [root])).1

/-- An outline as text. -/
def drawing (label : α → String) (limit : Option Nat) (root : α) : String :=
  String.join ((b.outline limit root).map (Entry.text label))

/-- The entries from `a` on when nothing is cut off, and the values expanded after that. -/
def fullEntriesFrom (expanded : List α) (lasts : List Bool) (a : α) : List (Entry α) × List α :=
  if b.children a = [] then ([⟨a, lasts, false⟩], expanded)
  else if a ∈ expanded then ([⟨a, lasts, true⟩], expanded)
  else
    (markLast (b.children a).attach).foldl (fun st c =>
      let sub := fullEntriesFrom st.2 (lasts ++ [c.2]) c.1.1
      (st.1 ++ sub.1, sub.2)) ([⟨a, lasts, false⟩], a :: expanded)
termination_by b.rank a
decreasing_by exact b.falls a c.1.1 c.1.2

/-- The outline of everything below a root. -/
def fullOutline (root : α) : List (Entry α) :=
  ((markLast (b.children root)).foldl (fun st c =>
    let sub := b.fullEntriesFrom st.2 [c.2] c.1
    (st.1 ++ sub.1, sub.2)) ([⟨root, [], false⟩], [root])).1

/-- The outline of everything below a root, as text. -/
def fullDrawing (label : α → String) (root : α) : String :=
  String.join ((b.fullOutline root).map (Entry.text label))

end Branching

end Isolation
