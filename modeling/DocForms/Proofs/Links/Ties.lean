import DocForms.Proofs.Links.Requests
import DocForms.Proofs.Links.Serving
import Mathlib.Data.List.Induction

/-! What tasks wait for is there: an open query is for a type, a call waits for a lookup of its own
query, and what a settling task gathers are lookups. So a call is left alone by every move but its
own turn and its own cancellation. -/
namespace DocForms

/-- The task is a lookup of the key for the query. -/
def LooksUp (ks : List Task) (u : Nat) (key : String) (q : LinkQuery) : Prop :=
  ∃ k, ks[u]? = some k ∧ k.job = .lookup key q

/-- What a task with the job waits for in the phase is among the tasks. -/
def Phase.Tied (ks : List Task) (job : Job) : Phase → Prop
  | .asking _ left => left ≠ []
  | .awaiting u => ∃ key number types q, job = .await key number types ∧
      LinkQuery.ofValues number types = .ok q ∧ LooksUp ks u key q
  | .gathering us => ∀ u ∈ us, ∃ key q, LooksUp ks u key q
  | .fresh | .finished _ => True

/-- Whatever tasks wait for is among them. -/
def Tied (ks : List Task) : Prop :=
  ∀ (t : Nat) (k : Task), ks[t]? = some k → k.phase.Tied ks k.job

section Lists
variable {ks ks' : List Task} {t u : Nat} {key : String} {q : LinkQuery} {f : Task → Task}

theorem LooksUp.modify (h : LooksUp ks u key q) (hf : ∀ k, (f k).job = k.job) (t : Nat) :
    LooksUp (ks.modify t f) u key q := by
  obtain ⟨k, hk, hj⟩ := h
  rw [LooksUp, List.getElem?_modify, hk]
  by_cases hu : t = u
  · exact ⟨f k, by simp [hu], (hf k).trans hj⟩
  · exact ⟨k, by simp [hu], hj⟩

theorem LooksUp.append (h : LooksUp ks u key q) (new : List Task) : LooksUp (ks ++ new) u key q := by
  obtain ⟨k, hk, hj⟩ := h
  have hlt := (List.getElem?_eq_some_iff.mp hk).1
  exact ⟨k, by rw [List.getElem?_append_left hlt, hk], hj⟩

theorem LooksUp.keeps {C : Catalog → Prop} (h : LooksUp ks u key q) (hk : Board.Keeps C ks ks') :
    LooksUp ks' u key q := by
  obtain ⟨k, hk₀, hj⟩ := h
  obtain ⟨k', hk', he⟩ := hk u k hk₀
  exact ⟨k', hk', he.job.trans hj⟩

theorem Phase.Tied.mono {job : Job} {p : Phase} (h : p.Tied ks job)
    (hks : ∀ u key q, LooksUp ks u key q → LooksUp ks' u key q) : p.Tied ks' job := by
  cases p with
  | fresh => trivial
  | asking number left => exact h
  | awaiting u =>
    obtain ⟨key, number, types, q, hj, hq, hu⟩ := h
    exact ⟨key, number, types, q, hj, hq, hks u key q hu⟩
  | gathering us =>
    intro u hu
    obtain ⟨key, q, hl⟩ := h u hu
    exact ⟨key, q, hks u key q hl⟩
  | finished o => trivial

/-- Changing a task keeps the ties if it does no more than enter a phase that is tied. -/
theorem Tied.modify (h : Tied ks) (hjob : ∀ k, (f k).job = k.job) (t : Nat)
    (hf : ∀ k, ks[t]? = some k → (f k).phase = k.phase ∨ (f k).phase.Tied ks k.job) :
    Tied (ks.modify t f) := by
  have hmono := fun u key q (hu : LooksUp ks u key q) => hu.modify hjob t
  intro u k' hk'
  obtain ⟨k, hk, ⟨rfl, rfl⟩ | ⟨-, rfl⟩⟩ := Board.getElem?_modify_some hk'
  · rw [hjob]
    rcases hf k hk with hsame | htied
    · rw [hsame]
      exact (h t k hk).mono hmono
    · exact htied.mono hmono
  · exact (h u k' hk).mono hmono

theorem Tied.enter (h : Tied ks) (t : Nat) {p : Phase}
    (hp : ∀ k, ks[t]? = some k → p.Tied ks k.job) :
    Tied (ks.modify t fun k => { k with phase := p }) := by
  refine h.modify (fun k => ?_) t fun k hk => ?_
  · rfl
  · exact .inr (hp k hk)

theorem Tied.flag (h : Tied ks) (t : Nat) (b : Bool) :
    Tied (ks.modify t fun k => { k with cancelAsked := b }) := by
  refine h.modify (fun k => ?_) t fun k _ => ?_
  · rfl
  · exact .inl rfl

theorem Tied.append (h : Tied ks) (job : Job) : Tied (ks ++ [({ job } : Task)]) := by
  have hmono := fun u key q (hu : LooksUp ks u key q) => hu.append [{ job }]
  intro u k hk
  rcases Nat.lt_or_ge u ks.length with hlt | hge
  · rw [List.getElem?_append_left hlt] at hk
    exact (h u k hk).mono hmono
  · rw [List.getElem?_append_right hge] at hk
    obtain rfl := List.mem_singleton.mp (List.mem_of_getElem? hk)
    trivial

end Lists

namespace Catalog
variable {c : Catalog} {number n : String} {types left : List String}

/-! A search that waits for an answer has a type left. -/

theorem search_left_ne_nil (h : (c.search number types).2 = .asking n left) : left ≠ [] := by
  induction types with
  | nil => cases h
  | cons type types ih =>
    by_cases ho : c.isOpen number
    · cases hc : c.replyTo type number <;> simp only [search, ho, hc, if_true] at h
      case found => cases h
      case withdrawn => cases h
      all_goals exact ih h
    · simp only [search, ho] at h
      cases h
      exact List.cons_ne_nil type types

theorem goOn_left_ne_nil (h : (c.goOn number types).2 = .asking n left) : left ≠ [] := by
  cases types with
  | nil => cases h
  | cons type types =>
    cases hc : c.replyTo type number <;> simp only [goOn, hc] at h
    case found => cases h
    case withdrawn => cases h
    all_goals exact search_left_ne_nil h

theorem begin_left_ne_nil {number : Value} {types : Except Fault (List String)}
    (h : (c.begin number types).2 = .asking n left) : left ≠ [] := by
  unfold begin at h
  split at h
  · cases h
  · cases h
  · split at h
    · cases h
    · exact search_left_ne_nil h

end Catalog

namespace Resolver
open Board (Sound)
variable {C : Catalog → Prop} {r r' : Resolver} {c : Catalog} {key : String} {q : LinkQuery}
  {t u : Nat} {k : Task}

/-! ### Every move keeps the ties -/

theorem tied_interrupt (h : Tied r.tasks) (t : Nat) : Tied (r.interrupt t).tasks := by
  rw [← board_tasks, board_interrupt]
  exact h.modify Task.interrupted_job t fun k _ => .inl k.interrupted_phase

theorem tied_interruptNewest (h : Tied r.tasks) (key : String) :
    Tied (r.board.interruptNewest key).tasks := by
  unfold Board.interruptNewest
  split
  · rw [← board_interrupt]
    exact tied_interrupt h _
  · exact h

theorem tied_finish (h : Tied r.tasks) (t : Nat) (job : Job) (o : Outcome) :
    Tied (r.finish t job o).tasks := by
  rw [← board_tasks, board_finish]
  exact h.enter t fun _ _ => trivial

theorem tied_schedule (h : Tied r.tasks) (key : String) (q : LinkQuery) :
    Tied (r.schedule key q).1.tasks := by
  rcases r.schedule_cases key q with ⟨n, -, -, -, he⟩ | he
  · rw [he]
    exact h
  · rw [he, ← board_tasks, board_supersede]
    exact Tied.append (tied_interruptNewest h key) _

theorem supersede_task (r : Resolver) (key : String) (q : LinkQuery) :
    (r.supersede key q).2 = r.tasks.length := by
  have hstale (r : Resolver) : (r.dropStale key q).tasks = r.tasks := by
    unfold dropStale
    split <;> rfl
  have hinterrupt (u : Nat) : (r.interrupt u).tasks.length = r.tasks.length := by
    rw [← board_tasks, board_interrupt]
    exact List.length_modify ..
  unfold supersede
  split
  · exact (congrArg List.length (hstale _)).trans (hinterrupt _)
  · exact congrArg List.length (hstale r)

/-- What is scheduled is a lookup for the query. -/
theorem schedule_looksUp (hs : Sound C r.board) (key : String) (q : LinkQuery) :
    LooksUp (r.schedule key q).1.tasks (r.schedule key q).2 key q := by
  rcases r.schedule_cases key q with ⟨n, hn, rfl, -, he⟩ | he
  · rw [he]
    exact hs.newest key n hn
  · rw [he, supersede_task, ← board_tasks, board_supersede]
    exact ⟨{ job := .lookup key q }, by simp [Board.supersede, Board.spawn], rfl⟩

theorem tied_continueSearch (h : Tied r.tasks) (t : Nat) (job : Job)
    (s : List (String × String) × Search)
    (hs : ∀ number left, s.2 = .asking number left → left ≠ []) :
    Tied (r.continueSearch t job s).tasks := by
  rw [← board_tasks, board_continueSearch]
  split
  · rw [← board_finish]
    exact tied_finish h _ _ _
  · rename_i number left he
    exact h.enter t fun _ _ => hs number left he

theorem tied_gather (hs : Sound C r.board) (h : Tied r.tasks) (t : Nat) :
    Tied (r.gather t).tasks := by
  unfold gather
  split
  · exact tied_finish h _ _ _
  · refine h.enter t fun _ _ u hu => ?_
    obtain ⟨hu, -⟩ := List.mem_filter.mp hu
    obtain ⟨⟨key, n⟩, he, rfl⟩ := List.mem_map.mp hu
    exact ⟨key, n.query, hs.newest key n (Keyed.get?_of_mem hs.keys he)⟩

theorem tied_beginAwait (hs : Sound C r.board) (h : Tied r.tasks) (hk : r.tasks[t]? = some k)
    {number types : Value} (hj : k.job = .await key number types)
    (hq : LinkQuery.ofValues number types = .ok q) : Tied (r.beginAwait t k.job key q).tasks := by
  have await : Tied (beginAwait.await k.job key q r t).tasks := by
    have hsched := tied_schedule h key q
    unfold beginAwait.await
    dsimp only
    split
    · exact tied_finish hsched _ _ _
    · refine hsched.enter t fun k' hk' => ?_
      rw [schedule_getElem? hs hk (by simp [hj]) key q] at hk'
      obtain rfl := Option.some.inj hk'
      exact ⟨key, number, types, q, hj, hq, schedule_looksUp hs key q⟩
  unfold beginAwait
  dsimp only
  split
  · split
    · exact tied_finish h _ _ _
    · exact await
  · exact await

theorem tied_answered (c : Catalog) (h : Tied r.tasks) (t : Nat) (k : Task) (number : String)
    (left : List String) : Tied (answered c r t k number left).tasks := by
  have hon : Tied (r.modify t fun k => { k with cancelAsked := false }).tasks :=
    h.flag t false
  unfold answered
  split
  · exact tied_finish h _ _ _
  · exact hon
  · exact tied_continueSearch hon _ _ _ fun number left => Catalog.goOn_left_ne_nil

theorem tied_begin (hs : Sound C r.board) (h : Tied r.tasks) (c : Catalog)
    (hk : r.tasks[t]? = some k) : Tied (begin c r t k.job).tasks := by
  cases hj : k.job with
  | lookup key q => exact tied_continueSearch h _ _ _ fun number left => Catalog.begin_left_ne_nil
  | search number types =>
    exact tied_continueSearch h _ _ _ fun number left => Catalog.begin_left_ne_nil
  | await key number types =>
    rw [begin]
    cases hq : LinkQuery.ofValues number types with
    | ok q => exact hj ▸ tied_beginAwait hs h hk hj hq
    | error e => exact tied_finish h _ _ _
  | settle => exact tied_gather hs h t

theorem tied_step (hs : Sound C r.board) (h : Tied r.tasks) (c : Catalog)
    (hk : r.tasks[t]? = some k) : Tied (r.step c t k).tasks := by
  cases hp : k.phase with
  | fresh =>
    rw [step, hp]
    dsimp only
    split
    · exact tied_finish h _ _ _
    · exact tied_begin hs h c hk
  | asking number left =>
    rw [step, hp]
    exact tied_answered c h _ _ _ _
  | awaiting u =>
    rw [step, hp]
    dsimp only
    split
    · exact tied_finish h _ _ _
    · exact tied_finish h _ _ _
    · split
      · exact tied_finish h _ _ _
      · exact h
  | gathering us =>
    rw [step, hp]
    dsimp only
    split
    · exact tied_finish h _ _ _
    · exact tied_gather hs h t
  | finished o =>
    rw [step, hp]
    exact h

theorem tied_turn (hs : Sound C r.board) (h : Tied r.tasks) (c : Catalog) (t : Nat) :
    Tied (r.turn c t).tasks := by
  obtain ⟨r', hb, hsome, hnone⟩ := turn_cases c r t
  have htasks : r'.tasks = r.tasks := congrArg Board.tasks hb
  cases hk : r.tasks[t]? with
  | none =>
    rw [hnone hk, htasks]
    exact h
  | some k =>
    rw [hsome k hk]
    exact tied_step (hb ▸ hs) (htasks ▸ h) c (htasks ▸ hk)

theorem tied_invalidate (h : Tied r.tasks) (key : String) : Tied (r.invalidate key).tasks := by
  rw [← board_tasks, board_invalidate]
  exact tied_interruptNewest h key

theorem tied_cancel (h : Tied r.tasks) (t : Nat) : Tied (r.cancel t).tasks := by
  unfold cancel
  split
  · have hflag : Tied (r.modify t fun k => { k with cancelAsked := true }).tasks :=
      h.flag t true
    dsimp only
    split
    · exact hflag
    · exact List.foldlRecOn (motive := fun r : Resolver => Tied r.tasks) _ _ hflag fun r hr u _ =>
        tied_interrupt hr u
  · exact tied_interrupt h t

theorem tied_move (hs : Sound C r.board) (h : Tied r.tasks) (m : Move) : Tied (r.move m).tasks := by
  cases m with
  | schedule key q => exact tied_schedule h key q
  | lookup key number types => exact h.append _
  | resolve number types => exact h.append _
  | settle => exact h.append _
  | invalidate key => exact tied_invalidate h key
  | clear =>
    exact List.foldlRecOn (motive := fun r : Resolver => Tied r.tasks) _ _ h fun r hr key _ =>
      tied_invalidate hr key
  | cancel t => exact tied_cancel h t
  | turn c t => exact tied_turn hs h c t

theorem tied_reached (ms : List Move) : Tied (reached ms).tasks := by
  induction ms using List.reverseRecOn with
  | nil =>
    intro t k hk
    cases hk
  | append_singleton ms m ih =>
    rw [reached_append]
    exact tied_move (sound_reached ms) ih m

/-! ### What leaves a call alone -/

theorem interrupt_getElem? (hk : r.tasks[t]? = some k) (hne : u ≠ t) :
    (r.interrupt u).tasks[t]? = some k := by
  rw [← board_tasks, board_interrupt, Board.interrupt, List.getElem?_modify_ne _ _ hne]
  exact hk

theorem cancel_getElem? (h : Tied r.tasks) (hk : r.tasks[t]? = some k)
    (hj : ∀ key q, k.job ≠ .lookup key q) (hne : u ≠ t) : (r.cancel u).tasks[t]? = some k := by
  unfold cancel
  split
  · rename_i us hg
    obtain ⟨k', hk', hp⟩ := Option.map_eq_some_iff.mp hg
    have hus := h u k' hk'
    rw [hp] at hus
    have hflag : (r.modify u fun k => { k with cancelAsked := true }).tasks[t]? = some k := by
      rw [modify, List.getElem?_modify_ne _ _ hne, hk]
    dsimp only
    split
    · exact hflag
    · refine List.foldlRecOn (motive := fun r : Resolver => r.tasks[t]? = some k) _ _ hflag
        fun r' hr' v hv => interrupt_getElem? hr' ?_
      -- what is gathered are lookups
      rintro rfl
      obtain ⟨key, q, l, hl, hjl⟩ := hus v hv
      obtain rfl := Option.some.inj (hk.symm.trans hl)
      exact hj key q hjl
  · exact interrupt_getElem? hk hne

theorem invalidate_getElem? (hs : Sound C r.board) (hk : r.tasks[t]? = some k)
    (hj : ∀ key q, k.job ≠ .lookup key q) (key : String) :
    (r.invalidate key).tasks[t]? = some k := by
  rw [← board_tasks, board_invalidate, Board.forget]
  dsimp only [Board.interruptNewest]
  split
  · rename_i n hn
    obtain ⟨l, hl, hjl⟩ := hs.newest key n hn
    rw [← board_interrupt]
    refine interrupt_getElem? hk ?_
    rintro rfl
    obtain rfl := Option.some.inj (hk.symm.trans hl)
    exact hj key _ hjl
  · exact hk

theorem turn_getElem? (hs : Sound C r.board) (hc : C c) (hk : r.tasks[t]? = some k)
    (hj : ∀ key q, k.job ≠ .lookup key q) (hne : u ≠ t) : (r.turn c u).tasks[t]? = some k := by
  obtain ⟨b, hprog, hb⟩ := turn_parts hs hc u
  rw [← board_tasks, hprog.getElem?_ne hne]
  rcases hb with rfl | ⟨-, key, q, -, -, rfl⟩
  · exact hk
  · exact schedule_getElem? hs hk hj key q

/-- A task that is no lookup changes at its own turns only, unless it is cancelled. -/
theorem move_getElem? (hs : Sound C r.board) (h : Tied r.tasks) (hk : r.tasks[t]? = some k)
    (hj : ∀ key q, k.job ≠ .lookup key q) (m : Move) (hm : ∀ c u, m = .turn c u → C c ∧ u ≠ t)
    (hx : m ≠ .cancel t) : (r.move m).tasks[t]? = some k := by
  have start (job : Job) : (r.start job).1.tasks[t]? = some k :=
    (List.getElem?_append_left (List.getElem?_eq_some_iff.mp hk).1).trans hk
  cases m with
  | schedule key q => exact schedule_getElem? hs hk hj key q
  | lookup key number types => exact start _
  | resolve number types => exact start _
  | settle => exact start _
  | invalidate key => exact invalidate_getElem? hs hk hj key
  | clear =>
    have hkeep := List.foldlRecOn (motive := fun r => Sound C r.board ∧ r.tasks[t]? = some k)
      (r.newest.names ++ r.cache.names) invalidate ⟨hs, hk⟩ fun r' ⟨hs', hk'⟩ key _ =>
        ⟨hs'.steps (X := True) (by rw [board_invalidate]; exact .single (.forget key)),
          invalidate_getElem? hs' hk' hj key⟩
    exact hkeep.2
  | cancel u => exact cancel_getElem? h hk hj fun he => hx (by rw [he])
  | turn c u =>
    obtain ⟨hc, hne⟩ := hm c u rfl
    exact turn_getElem? hs hc hk hj hne

end Resolver
end DocForms
