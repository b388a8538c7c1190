import Isolation.Closure.Memo

/-!
# Threads that share a memo

Any number of threads may share a memo, each making its requests one after another. A thread takes
one step at a time: it begins its next request, or it takes the next atomic step of the request in
hand. Nothing is said of whose turn it is, so between two steps of one request any number of steps
of others may lie, requests for the same root among them: a run is any sequence of turns
(`Sharing.Step`).
-/

namespace Isolation

/-! ## 1. Threads -/

/-- A thread that makes requests one after another. -/
structure Client where
  /-- The roots that are still to be requested, in order. -/
  due : List Identity
  /-- The request in hand, with the root it is for. -/
  current : Option (Identity × Request)
  /-- The roots requested before with their answers, the oldest first. -/
  answers : List (Identity × ClosureAnswer)

namespace Client

/-- A thread that has made none of its requests yet. -/
def start (roots : List Identity) : Client := ⟨roots, none, []⟩

/-- Every request of the thread is answered. -/
def IsDone (c : Client) : Prop := c.due = [] ∧ c.current = none

/-- The thread with the request in hand as it is after a step: an answer is filed. -/
def take (c : Client) (root : Identity) : Request → Client
  | .answered a => { c with current := none, answers := c.answers ++ [(root, a)] }
  | request => { c with current := some (root, request) }

/-- The next step of a thread: to begin its next request, or to take the next atomic step of the
    request in hand. -/
def step (g : Graph) (memo : Memo) (c : Client) : Memo × Client :=
  match c.current with
  | none =>
    match c.due with
    | [] => (memo, c)
    | root :: due => (memo, { c with due, current := some (root, .begun root) })
  | some (root, request) =>
    let (memo, request) := request.step g memo
    (memo, c.take root request)

end Client

/-! ## 2. Runs -/

/-- A memo with the threads that share it. -/
structure Sharing where
  memo : Memo
  clients : List Client

namespace Sharing

/-- A memo of nothing, and a thread for each list of roots. -/
def start (requests : List (List Identity)) : Sharing := ⟨Memo.empty, requests.map Client.start⟩

/-- One step: a thread that has something left to do takes its turn. -/
inductive Step (g : Graph) : Sharing → Sharing → Prop where
  | turn (memo : Memo) (before after : List Client) (c : Client) (h : ¬ c.IsDone) :
    Step g ⟨memo, before ++ c :: after⟩
      ⟨(c.step g memo).1, before ++ (c.step g memo).2 :: after⟩

/-- Every request of every thread is answered. -/
def IsOver (s : Sharing) : Prop := ∀ c ∈ s.clients, c.IsDone

end Sharing

end Isolation
