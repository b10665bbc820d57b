import DocForms.Links.Resolver

/-! The turns of a resolver's tasks. A task that is ready takes a turn: it goes on until it ends or
has to wait for the catalog or for other tasks. Turns are given in the order in which tasks became
ready, and a task's end makes those that wait for it ready. -/
namespace DocForms.Resolver

/-- Whether a task waits for nothing but tasks that have ended. -/
def waitIsOver (r : Resolver) (k : Task) : Bool :=
  match k.phase with
  | .awaiting u => r.isFinished u
  | .gathering us => us.all r.isFinished
  | _ => false

/-- Gives a turn to every task whose wait is over. -/
def wakeWaiting (r : Resolver) : Resolver :=
  r.tasks.zipIdx.foldl (fun s k => if r.waitIsOver k.1 then s.wake k.2 else s) r

/-- Keeps the answer of a lookup if the newest lookup of its key asks the same. -/
def keep (r : Resolver) (job : Job) (o : Outcome) : Resolver :=
  match job, o with
  | .lookup key q, .answer d =>
    if (r.newest.get? key).any (·.query == q) then
      { r with cache := r.cache.put key ⟨q, d⟩ }
    else r
  | _, _ => r

/-- Ends a task. -/
def finish (r : Resolver) (t : Nat) (job : Job) (o : Outcome) : Resolver :=
  let r := (r.keep job o).modify t fun k => { k with phase := .finished o }
  { r with asking := r.asking.filter (· != t) }.wakeWaiting

/-- Takes over how far a search has come. -/
def continueSearch (r : Resolver) (t : Nat) (job : Job)
    (s : List (String × String) × Search) : Resolver :=
  let r := { r with calls := r.calls ++ s.1 }
  match s.2 with
  | .ended o => r.finish t job o
  | .asking number left =>
    { r.modify t fun k => { k with phase := .asking number left } with
      asking := r.asking.filter (· != t) ++ [t] }

/-- What a task that waits for a lookup ends with: a lookup that was cancelled has no answer. -/
def awaited (o : Outcome) : Outcome :=
  match o with
  | .cancelled => .answer none
  | o => o

/-- Answers from the cache, or waits for the lookup of the key. -/
def beginAwait (r : Resolver) (t : Nat) (job : Job) (key : String) (q : LinkQuery) : Resolver :=
  let superseding := (r.newest.get? key).any fun n => !r.isFinished n.task && n.query != q
  match r.cache.get? key with
  | some e =>
    if !superseding && e.query == q then r.finish t job (.answer e.document)
    else await r t
  | none => await r t
where
  /-- Waits for the lookup of the key. -/
  await (r : Resolver) (t : Nat) : Resolver :=
    let (r, u) := r.schedule key q
    match r.outcome? u with
    | some o => r.finish t job (awaited o)
    | none => r.modify t fun k => { k with phase := .awaiting u }

/-- Waits for the newest lookups that are running; ends if there is none. -/
def gather (r : Resolver) (t : Nat) : Resolver :=
  match r.running with
  | [] => r.finish t .settle (.answer none)
  | us => r.modify t fun k => { k with phase := .gathering us }

/-- The first turn of a task. -/
def begin (c : Catalog) (r : Resolver) (t : Nat) (job : Job) : Resolver :=
  match job with
  | .lookup _ q => r.continueSearch t job (c.begin q.number (.ok q.types))
  | .search number types =>
    r.continueSearch t job (c.begin number ((LinkQuery.ofValues number types).map (·.types)))
  | .await key number types =>
    match LinkQuery.ofValues number types with
    | .ok q => r.beginAwait t job key q
    | .error e => r.finish t job (.failed e)
  | .settle => r.gather t

/-- The turn of a task whose query is open: the answer is there, or the task was cancelled and the
catalog decides what comes of that. -/
def answered (c : Catalog) (r : Resolver) (t : Nat) (k : Task) (number : String)
    (left : List String) : Resolver :=
  let on := r.modify t fun k => { k with cancelAsked := false }
  match k.cancelAsked, c.heed number with
  | true, .givesUp => r.finish t k.job .cancelled
  | true, .ignores => on
  | _, _ => on.continueSearch t k.job (c.goOn number left)

/-- The turn of a task. A cancelled one ends, unless it has an open query that the catalog does not
give up; one that waits for a lookup that was itself cancelled has just no answer. -/
def step (c : Catalog) (r : Resolver) (t : Nat) (k : Task) : Resolver :=
  match k.phase with
  | .fresh => if k.cancelAsked then r.finish t k.job .cancelled else begin c r t k.job
  | .asking number left => answered c r t k number left
  | .awaiting u =>
    match r.outcome? u with
    | some .cancelled => r.finish t k.job (.answer none)
    | some o => r.finish t k.job (if k.cancelAsked then .cancelled else o)
    | none => if k.cancelAsked then r.finish t k.job .cancelled else r
  | .gathering _ => if k.cancelAsked then r.finish t k.job .cancelled else r.gather t
  | .finished _ => r

/-- Gives a task its turn. -/
def turn (c : Catalog) (r : Resolver) (t : Nat) : Resolver :=
  let r := { r with ready := r.ready.filter (· != t) }
  match r.tasks[t]? with
  | some k => r.step c t k
  | none => r

/-- Gives turns until no task is ready, at most `fuel` of them. -/
def turns (c : Catalog) : (fuel : Nat) → Resolver → Resolver
  | 0, r => r
  | fuel + 1, r =>
    match r.ready with
    | [] => r
    | t :: _ => turns c fuel (r.turn c t)

/-- Gives turns until every task has ended or waits. A task starts at most one more, takes its first
turn and one for each reason to wait, and waits for a group of lookups at most once for each. -/
def run (c : Catalog) (r : Resolver) : Resolver :=
  turns c ((2 * r.tasks.length + 4) * (2 * r.tasks.length + 4)) r

/-- Whether a task waits for the answer to a query for the number. -/
def asksFor (r : Resolver) (number : String) (t : Nat) : Bool :=
  match (r.tasks[t]?).map Task.phase with
  | some (.asking n _) => n == number
  | _ => false

/-- Gives a turn to the tasks with an open query for a number, in the order in which they asked. -/
def release (r : Resolver) (number : String) : Resolver :=
  (r.asking.filter (r.asksFor number)).foldl wake r

end DocForms.Resolver
