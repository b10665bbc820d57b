import DocForms.Keyed
import DocForms.Links.Query

/-! The resolver of links: the tasks that look up numbers, the newest lookup of every key, and the
cache of their answers. Scheduling a lookup reuses the newest one of its key when that asks the
same, and cancels it when it asks something else. -/
namespace DocForms

/-- What a task does. -/
inductive Job where
  /-- Searches for the query of a key and keeps the answer. -/
  | lookup (key : String) (query : LinkQuery)
  /-- Waits for the answer to the query of a key. -/
  | await (key : String) (number types : Value)
  /-- Searches without keeping the answer. -/
  | search (number types : Value)
  /-- Waits until no lookup is running. -/
  | settle
deriving DecidableEq

/-- Where a task stands. -/
inductive Phase where
  | fresh
  /-- A query is open, for a number in the first of the types that are left. -/
  | asking (number : String) (left : List String)
  | awaiting (lookup : Nat)
  | gathering (lookups : List Nat)
  | finished (o : Outcome)
deriving DecidableEq

/-- A task of a resolver. -/
structure Task where
  job : Job
  phase : Phase := .fresh
  /-- Whether the task has been asked to end without a result. -/
  cancelAsked : Bool := false
deriving DecidableEq

namespace Task

/-- How the task has ended, if it has. -/
def outcome? (t : Task) : Option Outcome :=
  match t.phase with
  | .finished o => some o
  | _ => none

/-- Whether the task has ended. -/
def isFinished (t : Task) : Bool := t.outcome?.isSome

end Task

/-- An answer in the cache with the query that it answers. -/
structure CacheEntry where
  query : LinkQuery
  document : Option Document
deriving DecidableEq

/-- The lookup that was last started for a key. -/
structure Newest where
  task : Nat
  query : LinkQuery
deriving DecidableEq

/-- The state of a resolver. -/
structure Resolver where
  cache : Keyed CacheEntry := []
  newest : Keyed Newest := []
  /-- Every task ever started; its position is its number. -/
  tasks : List Task := []
  /-- The tasks that can go on, in the order in which they get their turns. -/
  ready : List Nat := []
  /-- The tasks with an open query, in the order in which they asked. -/
  asking : List Nat := []
  /-- Every query made to the catalog, with type and number. -/
  calls : List (String × String) := []
deriving DecidableEq

namespace Resolver

/-- What is known by key: a document, or none for a number that was not found. -/
def resolved (r : Resolver) : Keyed (Option Document) := r.cache.map fun e => (e.1, e.2.document)

/-- How a task has ended, if it has. -/
def outcome? (r : Resolver) (t : Nat) : Option Outcome := (r.tasks[t]?).bind Task.outcome?

/-- Whether a task has ended. -/
def isFinished (r : Resolver) (t : Nat) : Bool := (r.outcome? t).isSome

/-- Whether the cached answer of a key answers the query. -/
def answers (r : Resolver) (key : String) (q : LinkQuery) : Bool :=
  (r.cache.get? key).any (·.query == q)

/-- Changes a task. -/
def modify (r : Resolver) (t : Nat) (f : Task → Task) : Resolver :=
  { r with tasks := r.tasks.modify t f }

/-- Gives a task a turn unless it is waiting for one already. -/
def wake (r : Resolver) (t : Nat) : Resolver :=
  if r.ready.contains t then r else { r with ready := r.ready ++ [t] }

/-- Starts a task, which gets its first turn after all that are ready. -/
def start (r : Resolver) (job : Job) : Resolver × Nat :=
  ({ r with tasks := r.tasks ++ [{ job }], ready := r.ready ++ [r.tasks.length] }, r.tasks.length)

/-! ### Cancelling -/

/-- Asks a task to end. It learns of that at its next turn. -/
def interrupt (r : Resolver) (t : Nat) : Resolver :=
  if r.isFinished t then r else (r.modify t fun k => { k with cancelAsked := true }).wake t

/-- Cancels a task. One that gathers lookups cancels these, and ends once they have. -/
def cancel (r : Resolver) (t : Nat) : Resolver :=
  match (r.tasks[t]?).map Task.phase with
  | some (.gathering lookups) =>
    let r := r.modify t fun k => { k with cancelAsked := true }
    if r.ready.contains t then r else lookups.foldl interrupt r
  | _ => r.interrupt t

/-! ### Lookups -/

/-- Drops the cached answer of a key if it answers another query. -/
def dropStale (r : Resolver) (key : String) (q : LinkQuery) : Resolver :=
  if r.answers key q then r else { r with cache := r.cache.erase key }

/-- The lookup that can be reused for a query: the newest one of the key, if it asks the same and is
running or has filled the cache. -/
def reusable? (r : Resolver) (key : String) (q : LinkQuery) : Option Nat :=
  match r.newest.get? key with
  | some n => if n.query = q && (!r.isFinished n.task || r.answers key q) then some n.task else none
  | none => none

/-- Starts a lookup in place of the newest one of the key, which is cancelled. -/
def supersede (r : Resolver) (key : String) (q : LinkQuery) : Resolver × Nat :=
  let r := match r.newest.get? key with
    | some n => r.interrupt n.task
    | none => r
  let (r, t) := (r.dropStale key q).start (.lookup key q)
  ({ r with newest := r.newest.put key ⟨t, q⟩ }, t)

/-- The lookup of a key for a query, which is started if none can be reused. -/
def schedule (r : Resolver) (key : String) (q : LinkQuery) : Resolver × Nat :=
  match r.reusable? key q with
  | some t => (r, t)
  | none => r.supersede key q

/-- Forgets a key: its lookup is cancelled and its answer dropped. -/
def invalidate (r : Resolver) (key : String) : Resolver :=
  let n := r.newest.get? key
  let r := { r with newest := r.newest.erase key }
  let r := match n with
    | some n => r.interrupt n.task
    | none => r
  { r with cache := r.cache.erase key }

/-- Forgets every key. -/
def clear (r : Resolver) : Resolver := (r.newest.names ++ r.cache.names).foldl invalidate r

/-- The newest lookups that are running. -/
def running (r : Resolver) : List Nat :=
  (r.newest.map (·.2.task)).filter (!r.isFinished ·)

end Resolver
end DocForms
