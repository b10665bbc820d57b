import DocForms.Proofs.Links.Fairness
import DocForms.Proofs.Links.Running
import DocForms.Submission
import Mathlib.Data.List.TakeWhile

/-! What a submission waits for: lookups for all of its links, whatever the resolver has been used
for before. -/
namespace DocForms

namespace Text

theorem trimChars_eq_nil {cs : List Char} (h : trimChars cs = []) : cs.all isBlank = true := by
  rw [trimChars, trimEnds, List.reverse_eq_nil_iff, List.dropWhile_eq_nil_iff] at h
  cases hd : cs.dropWhile isBlank with
  | nil => simpa [List.dropWhile_eq_nil_iff] using hd
  | cons c left =>
    have hne : cs.dropWhile isBlank ≠ [] := by simp [hd]
    have hhead := List.head_dropWhile_not isBlank hne
    have hblank := h _ (List.mem_reverse.mpr (List.head_mem hne))
    simp [hblank] at hhead

end Text

/-- A number that is not blank is searched for without the white space around it. -/
theorem LinkQuery.wanted?_text {s : String} (h : Text.isBlankText s = false) :
    wanted? (.text s) = .ok (some (Text.trim s)) := by
  have htrim : Text.trim s ≠ "" := by
    intro he
    have hnil : Text.trimChars s.toList = [] := by
      simpa [Text.trim] using congrArg String.toList he
    rw [Text.isBlankText, Text.trimChars_eq_nil hnil] at h
    cases h
  have hs : Value.trimmed (.text s) = .ok (Text.trim s) := by
    unfold Value.trimmed Value.orElse
    by_cases he : s = ""
    · subst he
      rfl
    · simp [Value.isTruthy, he]
  simp [wanted?, hs, htrim, bind, Except.bind, pure, Except.pure]

namespace Resolver
open Board (Sound)

variable {C : Catalog → Prop} {r : Resolver} {key : String} {q : LinkQuery}

theorem schedule_serves (r : Resolver) (key : String) (q : LinkQuery) :
    (r.schedule key q).1.board.Serves key q := by
  rcases r.schedule_cases key q with ⟨n, hn, hq, hrun, he⟩ | he
  · rw [he]
    refine ⟨n, hn, hq, ?_⟩
    rcases hrun with hrun | hans
    · exact .inr (by simpa [isFinished, board_outcome?] using hrun)
    · exact .inl hans
  · rw [he, board_supersede]
    exact Board.serves_supersede ..

/-- Scheduling anything but another query for the key leaves a query served. -/
theorem schedule_keeps_serves (h : r.board.Serves key q) (key' : String) (q' : LinkQuery)
    (hq : key' = key → q' = q) : (r.schedule key' q').1.board.Serves key q := by
  by_cases hkey : key' = key
  · rw [hkey, hq hkey]
    exact schedule_serves ..
  · rcases r.schedule_cases key' q' with ⟨n, -, -, -, he⟩ | he
    · rwa [he]
    · rw [he, board_supersede]
      exact h.supersede (Ne.symm hkey)

/-! ### The queue -/

/-- A resolver at rest, but for lookups that wait for their first turns. -/
structure Queued (r : Resolver) : Prop where
  lookup : ∀ (u : Nat) (k : Task), r.tasks[u]? = some k →
    k.isFinished = true ∨ k.phase = .fresh ∧ u ∈ r.ready ∧ ∃ key q, k.job = .lookup key q
  ready : ∀ u ∈ r.ready, u < r.tasks.length
  count : r.ready.length ≤ r.tasks.length

theorem AtRest.queued (h : r.AtRest) : r.Queued where
  lookup u k hk := .inl (h.2 k (List.mem_of_getElem? hk))
  ready := by simp [h.1]
  count := by simp [h.1]

theorem Queued.interrupt_ready (h : r.Queued) (hs : Sound C r.board) {n : Newest}
    (hn : r.newest.get? key = some n) : (r.interrupt n.task).ready = r.ready := by
  obtain ⟨k, hk, -⟩ := hs.newest key n hn
  unfold interrupt
  split
  · rfl
  · rename_i hf
    rw [isFinished_eq hk] at hf
    have hmem : n.task ∈ r.ready := by
      rcases h.lookup n.task k hk with hfin | ⟨-, hmem, -⟩
      · exact absurd hfin hf
      · exact hmem
    simp [wake, modify, hmem]

theorem Queued.supersede_ready (h : r.Queued) (hs : Sound C r.board) (key : String) (q : LinkQuery) :
    (r.supersede key q).1.ready = r.ready ++ [r.tasks.length] := by
  have hdrop (s : Resolver) : (s.dropStale key q).ready = s.ready ∧
      (s.dropStale key q).tasks = s.tasks := by
    unfold dropStale
    split <;> exact ⟨rfl, rfl⟩
  unfold supersede
  cases hn : r.newest.get? key with
  | none => simp [start, hdrop]
  | some n =>
    have hlen : (r.interrupt n.task).tasks.length = r.tasks.length := by
      rw [← board_tasks, board_interrupt]
      simp [Board.interrupt]
    simp [start, hdrop, h.interrupt_ready hs hn, hlen]

theorem interruptNewest_task {b : Board} {u : Nat} {k : Task}
    (hk : (b.interruptNewest key).tasks[u]? = some k) :
    ∃ k₀, b.tasks[u]? = some k₀ ∧ k.phase = k₀.phase ∧ k.job = k₀.job := by
  unfold Board.interruptNewest at hk
  split at hk
  · obtain ⟨k₀, hk₀, ⟨-, rfl⟩ | ⟨-, rfl⟩⟩ := Board.getElem?_modify_some hk
    · exact ⟨k₀, hk₀, k₀.interrupted_phase, k₀.interrupted_job⟩
    · exact ⟨k, hk₀, rfl, rfl⟩
  · exact ⟨k, hk, rfl, rfl⟩

theorem supersede_tasks (r : Resolver) (key : String) (q : LinkQuery) :
    (r.supersede key q).1.tasks =
      (r.board.interruptNewest key).tasks ++ [{ job := .lookup key q }] :=
  congrArg Board.tasks (board_supersede r key q)

/-- Scheduling a lookup calls nothing. -/
theorem calls_schedule {u : Nat} (h : (r.schedule key q).1.Calls u) : r.Calls u := by
  rcases r.schedule_cases key q with ⟨n, -, -, -, he⟩ | he
  · rwa [he] at h
  obtain ⟨k, key', number, types, hk, hp, hj⟩ := h
  rw [he, supersede_tasks, List.getElem?_append] at hk
  split at hk
  · obtain ⟨k₀, hk₀, hp₀, hj₀⟩ := interruptNewest_task hk
    exact ⟨k₀, key', number, types, hk₀, hp₀ ▸ hp, hj₀ ▸ hj⟩
  · obtain ⟨hu, rfl⟩ := List.getElem?_eq_some_iff.mp hk
    simp at hj

theorem Queued.schedule (h : r.Queued) (hs : Sound C r.board) (key : String) (q : LinkQuery) :
    (r.schedule key q).1.Queued := by
  rcases r.schedule_cases key q with ⟨n, -, -, -, he⟩ | he
  · rwa [he]
  have hready := h.supersede_ready hs key q
  have hlen : (r.supersede key q).1.tasks.length = r.tasks.length + 1 := by
    simp [supersede_tasks]
  rw [he]
  refine ⟨fun u k hk => ?_, fun u hu => ?_, ?_⟩
  · rw [hready]
    rw [supersede_tasks, List.getElem?_append] at hk
    split at hk
    · obtain ⟨k₀, hk₀, hp, hj⟩ := interruptNewest_task hk
      rw [Task.isFinished_iff, hp, hj, ← Task.isFinished_iff]
      refine (h.lookup u k₀ hk₀).imp id fun ⟨hp, hmem, hl⟩ => ⟨hp, ?_, hl⟩
      exact List.mem_append_left _ hmem
    · rename_i hge
      obtain ⟨hu, rfl⟩ := List.getElem?_eq_some_iff.mp hk
      simp only [Board.interruptNewest_length, board_tasks, List.length_singleton] at hu hge
      refine .inr ⟨by simp, ?_, key, q, by simp⟩
      exact List.mem_append_right _ (List.mem_singleton.mpr (by omega))
  · rw [hready] at hu
    rw [hlen]
    rcases List.mem_append.mp hu with hu | hu
    · exact Nat.lt_succ_of_lt (h.ready u hu)
    · simp at hu
      omega
  · rw [hready, hlen]
    simpa using h.count

end Resolver

namespace Submission
open Board (Sound Steps Settling Undisturbed)

variable {C : Catalog → Prop} {X : Prop} {r : Resolver} {qs : List (String × LinkQuery)}

/-- The resolver with the lookups for queries, and a task that waits for them. -/
abbrev waiting (r : Resolver) (qs : List (String × LinkQuery)) : Resolver × Nat :=
  (scheduleAll r qs).start .settle

theorem scheduleAll_cons (r : Resolver) (e : String × LinkQuery) (qs : List (String × LinkQuery)) :
    scheduleAll r (e :: qs) = scheduleAll (r.schedule e.1 e.2).1 qs := rfl

theorem scheduleAll_steps (r : Resolver) (qs : List (String × LinkQuery)) :
    Steps C X r.board (scheduleAll r qs).board :=
  Resolver.foldl_steps (fun r e => Resolver.schedule_steps r e.1 e.2) r qs

theorem scheduleAll_keeps_serves {key : String} {q : LinkQuery} (h : r.board.Serves key q)
    (hq : ∀ e ∈ qs, e.1 = key → e.2 = q) : (scheduleAll r qs).board.Serves key q := by
  induction qs generalizing r with
  | nil => exact h
  | cons e qs ih =>
    rw [scheduleAll_cons]
    refine ih ?_ fun e' he' => hq e' (List.mem_cons_of_mem _ he')
    exact Resolver.schedule_keeps_serves h e.1 e.2 (hq e (List.mem_cons_self ..))

theorem waiting_sound (hs : Sound C r.board) (qs : List (String × LinkQuery)) :
    Sound C (waiting r qs).1.board := by
  apply hs.steps (X := True)
  exact (scheduleAll_steps r qs).tail (.spawn .settle (by simp))

theorem calls_scheduleAll {u : Nat} (h : (scheduleAll r qs).Calls u) : r.Calls u := by
  induction qs generalizing r with
  | nil => exact h
  | cons e qs ih => exact Resolver.calls_schedule (ih h)

theorem calls_waiting {u : Nat} (h : (waiting r qs).1.Calls u) : r.Calls u := by
  obtain ⟨k, key, number, types, hk, hp, hj⟩ := h
  simp only [Resolver.start, List.getElem?_append] at hk
  split at hk
  · exact calls_scheduleAll ⟨k, key, number, types, hk, hp, hj⟩
  · obtain ⟨hu, rfl⟩ := List.getElem?_eq_some_iff.mp hk
    simp at hj

/-- If there is one query for each key, all of them are served. -/
theorem scheduleAll_serves (r : Resolver)
    (hq : ∀ e ∈ qs, ∀ e' ∈ qs, e.1 = e'.1 → e.2 = e'.2) :
    ∀ e ∈ qs, (scheduleAll r qs).board.Serves e.1 e.2 := by
  induction qs generalizing r with
  | nil => simp
  | cons e₀ qs ih =>
    intro e he
    rw [scheduleAll_cons]
    rcases List.mem_cons.mp he with rfl | he
    · refine scheduleAll_keeps_serves (Resolver.schedule_serves ..) fun e' he' hk => ?_
      exact hq e' (List.mem_cons_of_mem _ he') e (List.mem_cons_self ..) hk
    · refine ih _ (fun e he e' he' => ?_) e he
      exact hq e (List.mem_cons_of_mem _ he) e' (List.mem_cons_of_mem _ he')

/-- A submission begins to wait for its queries. -/
theorem start_settling (hs : Sound C r.board) (hb : r.board.Undisturbed)
    (hq : ∀ e ∈ qs, ∀ e' ∈ qs, e.1 = e'.1 → e.2 = e'.2) :
    Settling C qs (waiting r qs).2 (waiting r qs).1.board := by
  have hsteps : Steps C False r.board (waiting r qs).1.board :=
    (scheduleAll_steps r qs).tail (.spawn .settle (by simp))
  refine ⟨hs.steps hsteps, hb.steps hs hsteps, fun e he => ?_, ?_⟩
  · exact (scheduleAll_serves r hq e he).spawn .settle
  · exact ⟨{ job := .settle }, by simp [Resolver.start], rfl, rfl, fun hf => by cases hf⟩

theorem scheduleAll_queued (h : r.Queued) (hs : Sound C r.board)
    (qs : List (String × LinkQuery)) : (scheduleAll r qs).Queued := by
  induction qs generalizing r with
  | nil => exact h
  | cons e qs ih =>
    rw [scheduleAll_cons]
    refine ih (h.schedule hs e.1 e.2) ?_
    exact hs.steps (X := True) (Resolver.schedule_steps r e.1 e.2)

/-- From rest, a submission lines its lookups up, and itself after them. -/
theorem start_lined (h : r.AtRest) (hs : Sound C r.board) (qs : List (String × LinkQuery)) :
    Resolver.Lined (scheduleAll r qs).ready (scheduleAll r qs).tasks.length
      (waiting r qs).1 := by
  have hq := scheduleAll_queued h.queued hs qs
  refine ⟨rfl, fun hmem => ?_, fun u k hu hk => ?_, { job := .settle }, ?_, rfl, ?_⟩
  · exact Nat.lt_irrefl _ (hq.ready _ hmem)
  · simp only [Resolver.start, List.getElem?_append] at hk
    split at hk
    · exact hq.lookup u k hk
    · obtain ⟨hlt, -⟩ := List.getElem?_eq_some_iff.mp hk
      simp only [List.length_singleton] at hlt
      omega
  · simp [Resolver.start]
  · exact Task.not_waits_of_fresh rfl

/-- From rest, a run with a catalog that holds nothing back ends the wait. -/
theorem run_ends {reply : String → String → Reply} (hr : Steadfast reply)
    (hw : ∀ e ∈ qs, ∃ number, LinkQuery.wanted? e.2.number = .ok (some number))
    (h : r.AtRest) (hs : Settling (Saying reply) qs (waiting r qs).2
      (waiting r qs).1.board) (hs₀ : Sound (Saying reply) r.board) {c : Catalog}
    (hc : Saying reply c) (ho : ∀ number, c.isOpen number = true) :
    ((waiting r qs).1.run c).isFinished (waiting r qs).2 := by
  have hq := scheduleAll_queued h.queued hs₀ qs
  refine (start_lined h hs₀ qs).turns_end hr hw hs hc ho ?_
  have hlen : (waiting r qs).1.tasks.length =
      (scheduleAll r qs).tasks.length + 1 := by simp [Resolver.start]
  have hcount := hq.count
  rw [hlen]
  refine Nat.lt_of_lt_of_le ?_ (Nat.le_mul_of_pos_right _ (by omega))
  omega

end Submission
end DocForms
