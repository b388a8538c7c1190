import Isolation.Graph

/-!
# Closures computed once

Checks on one graph share a memo of the closures computed so far. A request for a closure takes
three atomic steps on the memo: it looks the root up; if that misses, it computes the closure
without holding the memo; and it stores the result unless another request stored one meanwhile.
Between its steps any other request may run, so the steps are written out one by one
(`Request.step`); `Memo.get` is a request whose steps follow each other undisturbed.

A check is a program that can do nothing with the graph's closures but ask for them (`Inquiry`).
What it answers can therefore be read with any way of obtaining closures: from the graph
(`Inquiry.answerIn`), through a memo (`Inquiry.run`), or as a task that takes its steps among others
(`Task`).
-/

namespace Isolation

/-- The closures computed so far, by root. -/
structure Memo where
  closures : NameMap NameSet
deriving DecidableEq

/-- The answer to a request. -/
abbrev ClosureAnswer := Except Fault NameSet

namespace Memo

/-- A memo of nothing. -/
def empty : Memo := ⟨Register.empty⟩

/-- The number of roots whose closures are stored. -/
def size (memo : Memo) : Nat := memo.closures.size

end Memo

/-! ## 1. Requests -/

/-- How far a request for the closure of a root is. -/
inductive Request where
  /-- It has not looked at the memo yet. -/
  | begun (root : Identity)
  /-- It missed, and computes the closure itself. -/
  | missed (root : Identity)
  /-- It has computed the closure and is to store it. -/
  | computed (root : Identity) (closure : NameSet)
  /-- It has its answer. -/
  | answered (answer : ClosureAnswer)

/-- The next atomic step of a request: to look up, to compute, to store unless stored. -/
def Request.step (g : Graph) (memo : Memo) : Request → Memo × Request
  | .begun root =>
    match memo.closures.get? root with
    | some c => (memo, .answered (.ok c))
    | none => (memo, .missed root)
  | .missed root =>
    match g.closure root with
    | .ok c => (memo, .computed root c)
    | .error f => (memo, .answered (.error f))
  | .computed root c =>
    let closures := memo.closures.putNew root c
    (⟨closures⟩, .answered (.ok ((closures.get? root).getD c)))
  | .answered a => (memo, .answered a)

/-- A request carried to its end, no other request intervening. -/
def Memo.get (g : Graph) (memo : Memo) (root : Identity) : ClosureAnswer × Memo :=
  let (memo, r) := Request.step g memo (.begun root)
  let (memo, r) := Request.step g memo r
  let (memo, r) := Request.step g memo r
  match r with
  | .answered a => (a, memo)
  | _ => (g.closure root, memo)

/-! ## 2. Programs that ask for closures -/

/-- A program that asks for closures and then answers. -/
inductive Inquiry (α : Type) where
  | answer (a : α)
  | ask (root : Identity) (next : ClosureAnswer → Inquiry α)

namespace Inquiry

variable {α : Type}

/-- The inquiry with its answer put through a function. -/
def map {β : Type} (f : α → β) : Inquiry α → Inquiry β
  | answer a => answer (f a)
  | ask root next => ask root fun c => (next c).map f

/-- The answer when closures are taken from the graph. -/
def answerIn (g : Graph) : Inquiry α → α
  | answer a => a
  | ask root next => (next (g.closure root)).answerIn g

/-- The answer when closures are taken through a memo, and the memo after that. -/
def run (g : Graph) (memo : Memo) : Inquiry α → α × Memo
  | answer a => (a, memo)
  | ask root next =>
    let (c, memo) := memo.get g root
    (next c).run g memo

/-- Several inquiries one after another through one memo. -/
def runAll (g : Graph) (memo : Memo) : List (Inquiry α) → List α × Memo
  | [] => ([], memo)
  | q :: qs =>
    let (a, memo) := q.run g memo
    let (as, memo) := runAll g memo qs
    (a :: as, memo)

end Inquiry

/-! ## 3. Tasks among others -/

/-- An inquiry that runs among others on a shared memo. -/
inductive Task (α : Type) where
  /-- It waits for a request of its own. -/
  | waiting (request : Request) (next : ClosureAnswer → Inquiry α)
  /-- It has answered. -/
  | finished (a : α)

namespace Task

variable {α : Type}

/-- The task at the beginning of an inquiry. -/
def ofInquiry : Inquiry α → Task α
  | .answer a => finished a
  | .ask root next => waiting (.begun root) next

/-- The next atomic step of a task. -/
def step (g : Graph) (memo : Memo) : Task α → Memo × Task α
  | waiting request next =>
    match request.step g memo with
    | (memo, .answered c) => (memo, ofInquiry (next c))
    | (memo, request) => (memo, waiting request next)
  | finished a => (memo, finished a)

end Task

end Isolation
