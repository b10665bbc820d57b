import DocForms.Links.Turn
import DocForms.Proofs.Keyed
import Mathlib.Logic.Relation

/-! What the moves of a resolver do to its cache, to the newest lookup of every key and to its
tasks. The queues only decide which task goes on next; they are left out here, so that whatever
holds of these steps holds for turns in every order. -/
namespace DocForms

namespace Task

/-- The task with the request to end, unless it has ended. -/
def interrupted (k : Task) : Task := if k.isFinished then k else { k with cancelAsked := true }

@[simp] theorem interrupted_job (k : Task) : k.interrupted.job = k.job := by
  unfold interrupted; split <;> rfl

@[simp] theorem interrupted_phase (k : Task) : k.interrupted.phase = k.phase := by
  unfold interrupted; split <;> rfl

theorem interrupted_of_finished {k : Task} (h : k.isFinished = true) : k.interrupted = k := by
  simp [interrupted, h]

theorem interrupted_cancelAsked {k : Task} (h : k.isFinished = false) :
    k.interrupted.cancelAsked = true := by
  simp [interrupted, h]

end Task

/-- The part of a resolver that its queues have no say in. -/
structure Board where
  cache : Keyed CacheEntry
  newest : Keyed Newest
  tasks : List Task

/-- The resolver without its queues. -/
def Resolver.board (r : Resolver) : Board := ⟨r.cache, r.newest, r.tasks⟩

namespace Board

/-- How a task has ended, if it has. -/
def outcome? (b : Board) (t : Nat) : Option Outcome := (b.tasks[t]?).bind Task.outcome?

/-- The newest lookups that have not ended. -/
def running (b : Board) : List Nat := (b.newest.map (·.2.task)).filter fun t => !(b.outcome? t).isSome

/-- Whether the cached answer of a key answers the query. -/
def answers (b : Board) (key : String) (q : LinkQuery) : Bool :=
  (b.cache.get? key).any (·.query == q)

/-- Asks a task to end. -/
def interrupt (b : Board) (t : Nat) : Board := { b with tasks := b.tasks.modify t Task.interrupted }

/-- Asks the newest lookup of a key to end. -/
def interruptNewest (b : Board) (key : String) : Board :=
  match b.newest.get? key with
  | some n => b.interrupt n.task
  | none => b

@[simp] theorem interruptNewest_cache (b : Board) (key : String) :
    (b.interruptNewest key).cache = b.cache := by
  unfold interruptNewest; split <;> rfl

@[simp] theorem interruptNewest_newest (b : Board) (key : String) :
    (b.interruptNewest key).newest = b.newest := by
  unfold interruptNewest; split <;> rfl

@[simp] theorem interruptNewest_length (b : Board) (key : String) :
    (b.interruptNewest key).tasks.length = b.tasks.length := by
  unfold interruptNewest; split <;> simp [interrupt]

/-- Starts a task. -/
def spawn (b : Board) (job : Job) : Board := { b with tasks := b.tasks ++ [{ job }] }

/-- Starts a lookup in place of the newest one of its key. -/
def supersede (b : Board) (key : String) (q : LinkQuery) : Board where
  cache := if b.answers key q then b.cache else b.cache.erase key
  newest := b.newest.put key ⟨b.tasks.length, q⟩
  tasks := ((b.interruptNewest key).spawn (.lookup key q)).tasks

/-- Forgets a key. -/
def forget (b : Board) (key : String) : Board where
  cache := b.cache.erase key
  newest := b.newest.erase key
  tasks := (b.interruptNewest key).tasks

/-- Takes back the request to end. -/
def calm (b : Board) (t : Nat) : Board :=
  { b with tasks := b.tasks.modify t fun k => { k with cancelAsked := false } }

/-- Brings a task to a new phase. -/
def setPhase (b : Board) (t : Nat) (p : Phase) : Board :=
  { b with tasks := b.tasks.modify t fun k => { k with phase := p } }

/-- Keeps the answer of a lookup if the newest lookup of its key asks the same. -/
def keep (b : Board) (job : Job) (o : Outcome) : Keyed CacheEntry :=
  match job, o with
  | .lookup key q, .answer d =>
    if (b.newest.get? key).any (·.query == q) then b.cache.put key ⟨q, d⟩ else b.cache
  | _, _ => b.cache

/-- Ends a task. -/
def finish (b : Board) (t : Nat) (job : Job) (o : Outcome) : Board :=
  { b.setPhase t (.finished o) with cache := b.keep job o }

end Board

namespace Resolver

@[simp] theorem board_cache (r : Resolver) : r.board.cache = r.cache := rfl
@[simp] theorem board_newest (r : Resolver) : r.board.newest = r.newest := rfl
@[simp] theorem board_tasks (r : Resolver) : r.board.tasks = r.tasks := rfl

theorem board_outcome? (r : Resolver) (t : Nat) : r.board.outcome? t = r.outcome? t := rfl
theorem board_running (r : Resolver) : r.board.running = r.running := rfl

/-! ### The functions of a resolver on its board -/

@[simp] theorem board_wake (r : Resolver) (t : Nat) : (r.wake t).board = r.board := by
  unfold wake; split <;> rfl

/-- A fold keeps what each of its steps keeps. -/
theorem foldl_same {α β : Type} (g : Resolver → β) {f : Resolver → α → Resolver}
    (hf : ∀ r a, g (f r a) = g r) (r : Resolver) (as : List α) : g (as.foldl f r) = g r := by
  induction as generalizing r with
  | nil => rfl
  | cons a as ih => rw [List.foldl_cons, ih, hf]

@[simp] theorem board_wakeWaiting (r : Resolver) : r.wakeWaiting.board = r.board := by
  apply foldl_same board
  intro s k
  split <;> simp

/-- Cancelling keeps what does not change when a task is asked to end or woken. -/
theorem cancel_same {β : Type} (g : Resolver → β)
    (hflag : ∀ r t, g (r.modify t fun k => { k with cancelAsked := true }) = g r)
    (hwake : ∀ r t, g (wake r t) = g r) (r : Resolver) (t : Nat) : g (r.cancel t) = g r := by
  have hinterrupt (r : Resolver) (t : Nat) : g (r.interrupt t) = g r := by
    unfold interrupt
    split
    · rfl
    · rw [hwake, hflag]
  unfold cancel
  split
  · dsimp only
    split
    · exact hflag r t
    · rw [foldl_same g hinterrupt, hflag]
  · exact hinterrupt r t

theorem isFinished_eq {r : Resolver} {t : Nat} {k : Task} (hk : r.tasks[t]? = some k) :
    r.isFinished t = k.isFinished := by
  simp [isFinished, outcome?, hk, Task.isFinished]

private theorem modify_interrupted (r : Resolver) (t : Nat) :
    r.tasks.modify t Task.interrupted = if r.isFinished t then r.tasks else
      r.tasks.modify t fun k => { k with cancelAsked := true } := by
  refine List.ext_getElem? fun u => ?_
  by_cases hu : t = u
  · subst hu
    cases hk : r.tasks[t]? with
    | none => split <;> simp [hk]
    | some k => rw [isFinished_eq hk]; split <;> simp_all [Task.interrupted]
  · split <;> simp [List.getElem?_modify_ne, hu]

@[simp] theorem board_interrupt (r : Resolver) (t : Nat) :
    (r.interrupt t).board = r.board.interrupt t := by
  simp only [Board.interrupt, board_tasks, modify_interrupted, interrupt]
  split
  · rfl
  · rw [board_wake]; rfl

@[simp] theorem board_start (r : Resolver) (job : Job) :
    (r.start job).1.board = r.board.spawn job := rfl

theorem board_supersede (r : Resolver) (key : String) (q : LinkQuery) :
    (r.supersede key q).1.board = r.board.supersede key q := by
  have hs : ∃ s : Resolver, s.board = r.board.interruptNewest key ∧
      (r.supersede key q).1 = { (s.dropStale key q).start (.lookup key q) |>.1 with
        newest := (s.dropStale key q).newest.put key ⟨(s.dropStale key q).tasks.length, q⟩ } := by
    unfold supersede
    cases hn : r.newest.get? key with
    | none => exact ⟨r, by simp [Board.interruptNewest, hn], by simp [start]⟩
    | some n => exact ⟨r.interrupt n.task, by simp [Board.interruptNewest, hn], by simp [start]⟩
  obtain ⟨s, hs, he⟩ := hs
  have hc : s.cache = r.cache := by simpa using congrArg Board.cache hs
  have hn : s.newest = r.newest := by simpa using congrArg Board.newest hs
  have ht : s.tasks = (r.board.interruptNewest key).tasks := congrArg Board.tasks hs
  have hl : s.tasks.length = r.tasks.length := by simp [ht]
  have ha : s.answers key q = r.answers key q := by simp [answers, hc]
  rw [he]
  unfold dropStale
  rw [ha]
  split <;>
    simp_all [board, start, Board.supersede, Board.spawn, Board.answers, answers]

/-- Scheduling reuses the newest lookup of the key, or starts one in its place. -/
theorem schedule_cases (r : Resolver) (key : String) (q : LinkQuery) :
    (∃ n, r.newest.get? key = some n ∧ n.query = q ∧
      (r.isFinished n.task = false ∨ r.answers key q = true) ∧ r.schedule key q = (r, n.task)) ∨
    r.schedule key q = r.supersede key q := by
  unfold schedule reusable?
  cases hn : r.newest.get? key with
  | none => exact .inr rfl
  | some n =>
    by_cases h : n.query = q ∧ (!r.isFinished n.task || r.answers key q)
    · exact .inl ⟨n, rfl, h.1, by simpa using h.2, by simp [h.1, h.2]⟩
    · have hq : (n.query = q && (!r.isFinished n.task || r.answers key q)) = false := by
        rw [Bool.eq_false_iff]; simpa using h
      exact .inr (by simp [hq])

theorem board_invalidate (r : Resolver) (key : String) :
    (r.invalidate key).board = r.board.forget key := by
  have hs : ∃ s : Resolver, s.board = { r.board.interruptNewest key with
        newest := r.newest.erase key } ∧
      r.invalidate key = { s with cache := s.cache.erase key } := by
    unfold invalidate
    cases hn : r.newest.get? key with
    | none => exact ⟨_, by simp [Board.interruptNewest, hn, board], rfl⟩
    | some n =>
      exact ⟨_, by rw [board_interrupt]; simp [Board.interruptNewest, hn, board, Board.interrupt], rfl⟩
  obtain ⟨s, hs, he⟩ := hs
  have hc : s.cache = r.cache := by simpa using congrArg Board.cache hs
  rw [he]
  simpa [board, Board.forget, hc] using hs

theorem board_finish (r : Resolver) (t : Nat) (job : Job) (o : Outcome) :
    (r.finish t job o).board = r.board.finish t job o := by
  have hk : (r.keep job o).board = { r.board with cache := r.board.keep job o } := by
    unfold keep Board.keep
    cases job <;> cases o <;> try rfl
    simp only [board_newest]
    split <;> simp_all [board]
  have ht : (r.keep job o).tasks = r.tasks := congrArg Board.tasks hk
  simp only [finish, board_wakeWaiting]
  simp_all [board, modify, Board.finish, Board.setPhase]

end Resolver
end DocForms
