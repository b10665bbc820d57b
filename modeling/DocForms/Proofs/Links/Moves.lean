import DocForms.Proofs.Links.Soundness

/-! The moves of a resolver, in any order: calls from outside and turns of its tasks. A turn of a
task with an open query is the answer to it, or the delivery of a cancellation; the catalog may be
another one at every turn. -/
namespace DocForms

/-- The query that a call asks for at its first turn, with its key. -/
def Task.request? (k : Task) : Option (String × LinkQuery) :=
  match k.job, k.phase, k.cancelAsked with
  | .await key number types, .fresh, false =>
    match LinkQuery.ofValues number types with
    | .ok q => some (key, q)
    | .error _ => none
  | _, _, _ => none

namespace Resolver
open Board (Sound Steps)

/-- What can happen to a resolver. -/
inductive Move where
  | schedule (key : String) (q : LinkQuery)
  /-- A call that waits for the answer to a number in the types under a key. -/
  | lookup (key : String) (number types : Value)
  /-- A call that searches without a key. -/
  | resolve (number types : Value)
  | settle
  | invalidate (key : String)
  | clear
  | cancel (task : Nat)
  /-- A task takes a turn. -/
  | turn (c : Catalog) (task : Nat)

/-- The resolver after a move. -/
def move (r : Resolver) : Move → Resolver
  | .schedule key q => (r.schedule key q).1
  | .lookup key number types => (r.start (.await key number types)).1
  | .resolve number types => (r.start (.search number types)).1
  | .settle => (r.start .settle).1
  | .invalidate key => r.invalidate key
  | .clear => r.clear
  | .cancel t => r.cancel t
  | .turn c t => r.turn c t

/-- The resolver after moves one after another. -/
def play (r : Resolver) (ms : List Move) : Resolver := ms.foldl move r

@[simp] theorem play_nil (r : Resolver) : r.play [] = r := rfl

@[simp] theorem play_cons (r : Resolver) (m : Move) (ms : List Move) :
    r.play (m :: ms) = (r.move m).play ms := rfl

theorem play_append (r : Resolver) (ms ms' : List Move) :
    r.play (ms ++ ms') = (r.play ms).play ms' := List.foldl_append

variable {C : Catalog → Prop} {X : Prop} {c : Catalog} {r : Resolver} {t : Nat} {k : Task}

/-- A run of steps of a task. -/
abbrev Progresses (C : Catalog → Prop) (t : Nat) : Board → Board → Prop :=
  Relation.ReflTransGen (Board.Progress C t)

theorem board_continueSearch (r : Resolver) (t : Nat) (job : Job)
    (s : List (String × String) × Search) : (r.continueSearch t job s).board =
      match s.2 with
      | .ended o => r.board.finish t job o
      | .asking number left => r.board.setPhase t (.asking number left) := by
  obtain ⟨calls, s⟩ := s
  cases s with
  | ended o => exact board_finish ..
  | asking number left => rfl

/-- A task that searches asks, or ends with what the search has come to. -/
theorem continueSearch_progress (hk : r.tasks[t]? = some k) (hu : k.isFinished = false)
    (hl : k.Live) {s : List (String × String) × Search}
    (h : (∃ key q, k.job = .lookup key q ∧ s.2.Serves C q) ∨
      ∃ number types, k.job = .search number types) :
    Board.Progress C t r.board (r.continueSearch t k.job s).board := by
  rw [board_continueSearch]
  split
  · rename_i o ho
    refine .earn hk hu hl ?_
    rcases h with ⟨key, q, hj, hs⟩ | ⟨number, types, hj⟩
    · simpa [Board.Earns, hj, ho] using hs
    · simp [Board.Earns, hj]
  · rename_i number left ho
    refine .enter hk hu hl (by simp) (by simp) ?_
    rcases h with ⟨key, q, hj, hs⟩ | ⟨number, types, hj⟩
    · simpa [Job.Allows, hj, ho] using hs
    · simp [Job.Allows, hj]

theorem gather_progress (hk : r.tasks[t]? = some k) (hu : k.isFinished = false) (hl : k.Live)
    (hj : k.job = .settle) : Board.Progress C t r.board (r.gather t).board := by
  unfold gather
  split
  · rename_i hr
    rw [board_finish, ← hj]
    exact .earn hk hu hl (by simp [Board.Earns, hj, board_running, hr])
  · exact .enter hk hu hl (by simp) (by simp) (by simp [Job.Allows, hj])

/-- The turn of a task with an open query. -/
theorem answered_progresses (hc : C c) (hk : r.tasks[t]? = some k) {number : String}
    {left : List String} (hp : k.phase = .asking number left) (ha : k.job.Allows C k.phase) :
    Progresses C t r.board (answered c r t k number left).board := by
  have hu : k.isFinished = false := by simp [Task.isFinished, Task.outcome?, hp]
  have hon (hcalm : Board.Progress C t r.board (r.board.calm t)) :
      Progresses C t r.board ((r.modify t fun k => { k with cancelAsked := false }).continueSearch
        t k.job (c.goOn number left)).board := by
    have hk' : (r.modify t fun k => { k with cancelAsked := false }).tasks[t]? =
        some { k with cancelAsked := false } := by simp [modify, hk]
    refine .tail (.single hcalm) (continueSearch_progress hk' hu (fun _ => rfl) ?_)
    cases hj : k.job with
    | lookup key q =>
      have hserves : (Search.asking number left).Serves C q := by
        simpa [hj, hp, Job.Allows] using ha
      exact .inl ⟨key, q, rfl, Catalog.goOn_serves hc left hserves⟩
    | search number types => exact .inr ⟨number, types, rfl⟩
    | _ => simp [Job.Allows, hj, hp] at ha
  unfold answered
  split
  · rename_i hcancel _
    rw [board_finish]
    exact .single (.quit hk hu hcancel)
  · rename_i hheed
    exact .single (.calm hk hp fun _ => ⟨c, hc, by simp [hheed]⟩)
  · rename_i hno _
    exact hon (.calm hk hp fun hcancel => ⟨c, hc, hno hcancel⟩)

theorem unfinished_of_phase {p : Phase} (h : k.phase = p) (hp : ∀ o, p ≠ .finished o) :
    k.isFinished = false := by
  rw [← Bool.not_eq_true, Task.isFinished_iff]
  rintro ⟨o, ho⟩
  exact hp o (h ▸ ho)

theorem quit_progress (hk : r.tasks[t]? = some k) (hu : k.isFinished = false)
    (ha : k.cancelAsked = true) : Board.Progress C t r.board (r.finish t k.job .cancelled).board := by
  rw [board_finish]
  exact .quit hk hu ha

/-- The first turn of a task that does not schedule a lookup. -/
theorem begin_progress (hc : C c) (hk : r.tasks[t]? = some k) (hu : k.isFinished = false)
    (hl : k.Live) (hj : ∀ key number types, k.job ≠ .await key number types) :
    Board.Progress C t r.board (begin c r t k.job).board := by
  unfold begin
  split
  · rename_i key q hjob
    exact continueSearch_progress hk hu hl (.inl ⟨key, q, hjob, Catalog.begin_serves hc q⟩)
  · rename_i number types hjob
    exact continueSearch_progress hk hu hl (.inr ⟨number, types, hjob⟩)
  · exact (hj _ _ _ ‹_›).elim
  · exact gather_progress hk hu hl ‹_›

theorem step_progresses (hc : C c) (hk : r.tasks[t]? = some k) (ha : k.job.Allows C k.phase)
    (hj : k.phase = .fresh → ∀ key number types, k.job ≠ .await key number types) :
    Progresses C t r.board (r.step c t k).board := by
  unfold step
  split
  · rename_i hp
    have hu := unfinished_of_phase hp (by simp)
    split
    · exact .single (quit_progress hk hu ‹_›)
    · exact .single (begin_progress hc hk hu (fun _ => by simp_all) (hj hp))
  · exact answered_progresses hc hk ‹_› ha
  · rename_i u hp
    have hu := unfinished_of_phase hp (by simp)
    have hl : k.Live := fun h => by simp [hp] at h
    have earn (o : Outcome) : Progresses C t r.board (r.finish t k.job o).board := by
      rw [board_finish]
      refine .single (.earn hk hu hl ?_)
      cases hjob : k.job <;> simp [Job.Allows, hjob, hp] at ha
      trivial
    split
    · exact earn _
    · exact earn _
    · split
      · exact earn _
      · exact .refl
  · rename_i us hp
    have hu := unfinished_of_phase hp (by simp)
    split
    · exact .single (quit_progress hk hu ‹_›)
    · refine .single (gather_progress hk hu (fun h => by simp [hp] at h) ?_)
      cases hjob : k.job <;> simp [Job.Allows, hjob, hp] at ha
      rfl
  · exact .refl

/-- The queues have no say in what a turn does to the board. -/
theorem turn_cases (c : Catalog) (r : Resolver) (t : Nat) :
    ∃ r' : Resolver, r'.board = r.board ∧
      (∀ k, r.tasks[t]? = some k → r.turn c t = r'.step c t k) ∧
      (r.tasks[t]? = none → r.turn c t = r') := by
  refine ⟨{ r with ready := r.ready.filter (· != t) }, rfl, fun k hk => ?_, fun hk => ?_⟩ <;>
    simp [turn, hk]

/-- A call for a lookup that has not begun. -/
def Calls (r : Resolver) (t : Nat) : Prop :=
  ∃ k key number types, r.tasks[t]? = some k ∧ k.phase = .fresh ∧ k.job = .await key number types

/-- A turn is made of steps of its task, unless that is a call that begins. -/
theorem turn_progresses (hs : Sound C r.board) (hc : C c) (hq : ¬ r.Calls t) :
    Progresses C t r.board (r.turn c t).board := by
  obtain ⟨r', hb, hsome, hnone⟩ := turn_cases c r t
  cases hk : r.tasks[t]? with
  | none => rw [hnone hk, hb]
  | some k =>
    rw [hsome k hk, ← hb]
    have hk' : r'.tasks[t]? = some k := by rw [← hk]; exact congrArg (·.tasks[t]?) hb
    refine step_progresses hc hk' (hs.allowed t k hk) fun hp key number types hj => ?_
    exact hq ⟨k, key, number, types, hk, hp, hj⟩

/-! ### Every move is made of steps -/

theorem Progresses.steps {b b' : Board} (h : Progresses C t b b') : Steps C X b b' :=
  h.lift id fun _ _ => .progress

theorem Progresses.sound {b b' : Board} (hs : Sound C b) (h : Progresses C t b b') : Sound C b' :=
  hs.steps (X := True) h.steps

theorem Progresses.getElem?_ne {b b' : Board} {u : Nat} (h : Progresses C t b b') (hne : t ≠ u) :
    b'.tasks[u]? = b.tasks[u]? := by
  induction h with
  | refl => rfl
  | tail _ h ih => rw [h.getElem?_ne hne, ih]

theorem Progresses.newest {b b' : Board} (h : Progresses C t b b') : b'.newest = b.newest := by
  induction h with
  | refl => rfl
  | tail _ h ih => rw [h.newest, ih]

theorem Progresses.length {b b' : Board} (h : Progresses C t b b') :
    b'.tasks.length = b.tasks.length := by
  induction h with
  | refl => rfl
  | tail _ h ih => rw [h.length, ih]

/-- A step of a task calls nothing. -/
theorem Progresses.calls {r' : Resolver} {u : Nat} (h : Progresses C u r.board r'.board)
    (hc : r'.Calls t) : r.Calls t := by
  obtain ⟨k', key, number, types, hk', hp, hj⟩ := hc
  have hlt : t < r.board.tasks.length := h.length ▸ (List.getElem?_eq_some_iff.mp hk').1
  have hkeeps : Board.Keeps C r.board.tasks r'.board.tasks := h.steps (X := True) |>.keeps
  obtain ⟨k, hk, he⟩ := hkeeps.of_lt hlt hk'
  exact ⟨k, key, number, types, hk, he.fresh hp, he.job ▸ hj⟩

theorem schedule_steps (r : Resolver) (key : String) (q : LinkQuery) :
    Steps C X r.board (r.schedule key q).1.board := by
  rcases r.schedule_cases key q with ⟨n, -, -, -, he⟩ | he
  · rw [he]
  · rw [he, board_supersede]
    exact .single (.supersede key q)

theorem foldl_steps {α : Type} {f : Resolver → α → Resolver}
    (hf : ∀ r a, Steps C X r.board (f r a).board) (r : Resolver) (as : List α) :
    Steps C X r.board (as.foldl f r).board := by
  induction as generalizing r with
  | nil => exact .refl
  | cons a as ih => exact (hf r a).trans (ih (f r a))

theorem clear_steps (r : Resolver) : Steps C X r.board r.clear.board :=
  foldl_steps (fun r key => by rw [board_invalidate]; exact .single (.forget key)) r _

theorem interrupt_steps (hx : X) (r : Resolver) (t : Nat) : Steps C X r.board (r.interrupt t).board := by
  rw [board_interrupt]
  exact .single (.interrupt hx t)

theorem cancel_steps (hx : X) (r : Resolver) (t : Nat) : Steps C X r.board (r.cancel t).board := by
  unfold cancel
  split
  · rename_i us hg
    obtain ⟨k, hk, hp⟩ := Option.map_eq_some_iff.mp hg
    have hflag : (r.modify t fun k => { k with cancelAsked := true }).board = r.board.interrupt t := by
      have hu : r.isFinished t = false := by
        rw [isFinished_eq hk]
        exact unfinished_of_phase hp (by simp)
      rw [← board_interrupt]
      simp [interrupt, hu]
    simp only
    split
    · rw [hflag]; exact .single (.interrupt hx t)
    · refine .trans ?_ (foldl_steps (interrupt_steps hx) _ us)
      rw [hflag]; exact .single (.interrupt hx t)
  · exact interrupt_steps hx r t

/-- Scheduling leaves a task alone that is not a lookup. -/
theorem schedule_getElem? (hs : Sound C r.board) (hk : r.tasks[t]? = some k)
    (hj : ∀ key q, k.job ≠ .lookup key q) (key : String) (q : LinkQuery) :
    (r.schedule key q).1.tasks[t]? = some k := by
  rcases r.schedule_cases key q with ⟨n, -, -, -, he⟩ | he
  · rw [he, hk]
  · have hlt := (List.getElem?_eq_some_iff.mp hk).1
    rw [he, ← board_tasks, board_supersede, Board.supersede, Board.spawn,
      List.getElem?_append_left (by simpa using hlt), Board.interruptNewest]
    split
    · rename_i n hn
      obtain ⟨k', hk', hj'⟩ := hs.newest key n hn
      have hne : n.task ≠ t := by
        rintro rfl
        obtain rfl : k = k' := by simpa [hk] using hk'
        exact hj _ _ hj'
      simpa [Board.interrupt, List.getElem?_modify_ne, hne] using hk
    · exact hk

/-- What is scheduled does not hang on the queues. -/
theorem board_schedule_congr {r' : Resolver} (h : r'.board = r.board) (key : String) (q : LinkQuery) :
    (r'.schedule key q).1.board = (r.schedule key q).1.board := by
  have hn : r'.newest = r.newest := congrArg Board.newest h
  have hreusable : r'.reusable? key q = r.reusable? key q := by
    have hf (u : Nat) : r'.isFinished u = r.isFinished u :=
      congrArg (fun b => (b.outcome? u).isSome) h
    have ha : r'.answers key q = r.answers key q := congrArg (·.answers key q) h
    simp only [reusable?, hn, hf, ha]
  unfold schedule
  rw [hreusable]
  split
  · exact h
  · rw [board_supersede, board_supersede, h]

/-- The first turn of a task that waits for a lookup: the query is scheduled unless the cache has
the answer, and the task goes on. -/
theorem beginAwait_parts (hs : Sound C r.board) (hk : r.tasks[t]? = some k)
    (hu : k.isFinished = false) (hl : k.Live) {key : String} {number types : Value}
    (hj : k.job = .await key number types) (q : LinkQuery) :
    ∃ b, (b = r.board ∨ b = (r.schedule key q).1.board) ∧
      Progresses C t b (r.beginAwait t k.job key q).board := by
  have earn (r' : Resolver) (hk' : r'.tasks[t]? = some k) (o : Outcome) :
      Progresses C t r'.board (r'.finish t k.job o).board := by
    rw [board_finish]
    exact .single (.earn hk' hu hl (by simp [Board.Earns, hj]))
  have await : Progresses C t (r.schedule key q).1.board (beginAwait.await k.job key q r t).board := by
    have hk' := schedule_getElem? hs hk (by simp [hj]) key q
    unfold beginAwait.await
    simp only
    split
    · exact earn _ hk' _
    · exact .single (.enter hk' hu hl (by simp) (by simp) (by simp [Job.Allows, hj]))
  unfold beginAwait
  simp only
  split
  · split
    · exact ⟨_, .inl rfl, earn r hk _⟩
    · exact ⟨_, .inr rfl, await⟩
  · exact ⟨_, .inr rfl, await⟩

/-- A turn is made of steps of its task, after the query of a call that begins has been scheduled. -/
theorem turn_parts (hs : Sound C r.board) (hc : C c) (t : Nat) :
    ∃ b, Progresses C t b (r.turn c t).board ∧ (b = r.board ∨ ∃ k key q, r.tasks[t]? = some k ∧
      k.request? = some (key, q) ∧ b = (r.schedule key q).1.board) := by
  obtain ⟨r', hb, hsome, hnone⟩ := turn_cases c r t
  -- only the first turn of a call schedules a lookup
  by_cases h : r.Calls t
  · obtain ⟨k, key, number, types, hk, hp, hj⟩ := h
    have hk' : r'.tasks[t]? = some k := by rw [← hk]; exact congrArg (·.tasks[t]?) hb
    have hu := unfinished_of_phase hp (by simp)
    rw [hsome k hk]
    simp only [step, hp]
    split
    · exact ⟨_, hb ▸ .single (quit_progress hk' hu ‹_›), .inl rfl⟩
    · rename_i hcan
      have hl : k.Live := fun _ => by simpa using hcan
      simp only [begin, hj]
      split
      · rename_i q hq
        obtain ⟨b, hcase, hprog⟩ := beginAwait_parts (hb ▸ hs) hk' hu hl hj q
        refine ⟨b, hj ▸ hprog, ?_⟩
        rcases hcase with rfl | rfl
        · exact .inl hb
        · refine .inr ⟨k, key, q, hk, ?_, board_schedule_congr hb key q⟩
          simp [Task.request?, hj, hp, hcan, hq]
      · rw [← hj, board_finish, hb]
        exact ⟨_, .single (.earn hk hu hl (by simp [Board.Earns, hj])), .inl rfl⟩
  · exact ⟨_, turn_progresses hs hc h, .inl rfl⟩

theorem turn_steps (hs : Sound C r.board) (hc : C c) (t : Nat) :
    Steps C X r.board (r.turn c t).board := by
  obtain ⟨b, hprog, rfl | ⟨k, key, q, -, -, rfl⟩⟩ := turn_parts hs hc t
  · exact hprog.steps
  · exact (schedule_steps r key q).trans hprog.steps

theorem move_steps (hs : Sound C r.board) (m : Move) (hm : ∀ c t, m = .turn c t → C c)
    (hx : ∀ t, m = .cancel t → X) :
    Steps C X r.board (r.move m).board := by
  cases m with
  | schedule key q => exact schedule_steps r key q
  | lookup key number types => exact .single (.spawn _ (by simp))
  | resolve number types => exact .single (.spawn _ (by simp))
  | settle => exact .single (.spawn _ (by simp))
  | invalidate key =>
    simp only [move, board_invalidate]
    exact .single (.forget key)
  | clear => exact clear_steps r
  | cancel t => exact cancel_steps (hx t rfl) r t
  | turn c t => exact turn_steps hs (hm c t rfl) t

theorem play_steps (hs : Sound C r.board) (ms : List Move) (hm : ∀ c t, .turn c t ∈ ms → C c)
    (hx : ∀ t, .cancel t ∈ ms → X) :
    Steps C X r.board (r.play ms).board := by
  induction ms generalizing r with
  | nil => exact .refl
  | cons m ms ih =>
    have h := move_steps hs m (fun c t he => hm c t (by simp [he])) fun t he => hx t (by simp [he])
    exact h.trans (ih (hs.steps h) (fun c t he => hm c t (by simp [he])) fun t he => hx t (by simp [he]))

/-- A run is one sequence of turns. -/
theorem turns_eq_play (c : Catalog) (fuel : Nat) (r : Resolver) :
    ∃ es, (∀ m ∈ es, ∃ t, m = .turn c t) ∧ turns c fuel r = r.play es := by
  induction fuel generalizing r with
  | zero => exact ⟨[], by simp, rfl⟩
  | succ fuel ih =>
    unfold turns
    split
    · exact ⟨[], by simp, rfl⟩
    · rename_i t _ _
      obtain ⟨es, hes, he⟩ := ih (r.turn c t)
      refine ⟨.turn c t :: es, ?_, he⟩
      exact List.forall_mem_cons.mpr ⟨⟨t, rfl⟩, hes⟩

end Resolver
end DocForms
