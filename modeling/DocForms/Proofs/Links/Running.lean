import DocForms.Proofs.Links.Settling

/-! Runs of a resolver, which give every ready task its turn. -/
namespace DocForms

namespace Catalog
variable {c : Catalog}

theorem open_search (ho : ∀ number, c.isOpen number = true) (number : String) (types : List String) :
    ∃ o, (c.search number types).2 = .ended o := by
  induction types with
  | nil => exact ⟨_, rfl⟩
  | cons type types ih => cases hr : c.replyTo type number <;> simp [search, ho, hr, ih]

theorem open_begin (ho : ∀ number, c.isOpen number = true) (q : LinkQuery) :
    ∃ o, (c.begin q.number (.ok q.types)).2 = .ended o := by
  unfold begin
  split
  · exact ⟨_, rfl⟩
  · exact ⟨_, rfl⟩
  · exact open_search ho ..

end Catalog

/-- A task that waits for others. -/
def Task.Waits (k : Task) : Prop := (∃ u, k.phase = .awaiting u) ∨ ∃ us, k.phase = .gathering us

theorem Task.not_waits_of_finished {k : Task} (h : k.isFinished = true) : ¬ k.Waits := by
  obtain ⟨o, ho⟩ := isFinished_iff.mp h
  simp [Waits, ho]

theorem Task.not_waits_of_fresh {k : Task} (h : k.phase = .fresh) : ¬ k.Waits := by
  simp [Waits, h]

namespace Resolver
open Board (Sound Settling)
open Catalog (open_begin)

variable {reply : String → String → Reply} {C : Catalog → Prop} {r r' : Resolver} {c : Catalog}
  {t u : Nat} {us : List Nat} {qs : List (String × LinkQuery)}

/-! ### A run is one order of turns -/

/-- If no call has yet to begin, a run is made of turns. -/
theorem turns_turns (hs : Sound (Saying reply) r.board) (hc : Saying reply c)
    (hq : ∀ t, ¬ r.Calls t) (fuel : Nat) : Turns reply r (turns c fuel r) := by
  induction fuel generalizing r with
  | zero => exact .refl
  | succ fuel ih =>
    unfold turns
    split
    · exact .refl
    · rename_i t _ _
      have h : Progresses (Saying reply) t r.board (r.turn c t).board :=
        turn_progresses hs hc (hq t)
      have hturn : Turns reply r (r.turn c t) := .single ⟨c, t, hc, hq t, rfl⟩
      exact hturn.trans (ih (h.sound hs) fun t ht => hq t (h.calls ht))

/-! ### A run from rest -/

/-- Nothing is going on: every task has ended, and none is to get a turn. -/
def AtRest (r : Resolver) : Prop := r.ready = [] ∧ ∀ k ∈ r.tasks, k.isFinished = true

/-- A line of lookups that wait for their first turns, and at its end a task that waits for them;
all other tasks have ended. -/
structure Lined (us : List Nat) (t : Nat) (r : Resolver) : Prop where
  ready : r.ready = us ++ [t]
  apart : t ∉ us
  lookup : ∀ (u : Nat) (k : Task), u ≠ t → r.tasks[u]? = some k →
    k.isFinished = true ∨ k.phase = .fresh ∧ u ∈ us ∧ ∃ key q, k.job = .lookup key q
  last : ∃ k, r.tasks[t]? = some k ∧ k.job = .settle ∧ ¬ k.Waits

theorem Lined.calm (h : Lined us t r) : ∀ k ∈ r.tasks, ¬ k.Waits := by
  intro k hk
  obtain ⟨u, hu⟩ := List.mem_iff_getElem?.mp hk
  by_cases hut : u = t
  · obtain ⟨k', hk', -, hw⟩ := h.last
    obtain rfl : k = k' := by simpa [hut ▸ hu] using hk'
    exact hw
  · rcases h.lookup u k hut hu with hf | ⟨hp, -⟩
    · exact Task.not_waits_of_finished hf
    · exact Task.not_waits_of_fresh hp

theorem Lined.quiet (h : Lined us t r) (u : Nat) : ¬ r.Calls u := by
  rintro ⟨k, key, number, types, hk, hp, hj⟩
  by_cases hut : u = t
  · obtain ⟨k', hk', hs, -⟩ := h.last
    obtain rfl : k = k' := by simpa [hut ▸ hk] using hk'
    simp [hj] at hs
  · rcases h.lookup u k hut hk with hf | ⟨-, -, key', q, hl⟩
    · obtain ⟨o, ho⟩ := Task.isFinished_iff.mp hf
      simp [hp] at ho
    · simp [hj] at hl

theorem wakeWaiting_of_calm (h : ∀ k ∈ r.tasks, ¬ k.Waits) : r.wakeWaiting = r := by
  have still : ∀ k ∈ r.tasks, r.waitIsOver k = false := by
    intro k hk
    unfold waitIsOver
    split
    · exact absurd (.inl ⟨_, ‹_›⟩) (h k hk)
    · exact absurd (.inr ⟨_, ‹_›⟩) (h k hk)
    · rfl
  have fold (es : List (Task × Nat)) (hes : ∀ e ∈ es, r.waitIsOver e.1 = false) (s : Resolver) :
      es.foldl (fun s k => if r.waitIsOver k.1 then s.wake k.2 else s) s = s := by
    induction es generalizing s with
    | nil => rfl
    | cons e es ih =>
      rw [List.foldl_cons, hes e (List.mem_cons_self ..)]
      exact ih (fun e he => hes e (List.mem_cons_of_mem _ he)) s
  exact fold _ (fun e he => still e.1 (List.fst_mem_of_mem_zipIdx he)) r

/-- A task that ends wakes nobody if nobody waits. -/
theorem finish_ready (h : ∀ k ∈ r.tasks, ¬ k.Waits) (t : Nat) (job : Job) (o : Outcome) :
    (r.finish t job o).ready = r.ready := by
  have hkeep : (r.keep job o).tasks = r.tasks ∧ (r.keep job o).ready = r.ready := by
    unfold keep
    split
    · split <;> exact ⟨rfl, rfl⟩
    · exact ⟨rfl, rfl⟩
  unfold finish
  simp only
  rw [wakeWaiting_of_calm]
  · exact hkeep.2
  · intro k hk
    obtain ⟨u, hu⟩ := List.mem_iff_getElem?.mp hk
    simp only [modify, hkeep.1] at hu
    obtain ⟨k₀, hk₀, ⟨-, rfl⟩ | ⟨-, rfl⟩⟩ := Board.getElem?_modify_some hu
    · exact Task.not_waits_of_finished rfl
    · exact h _ (List.mem_of_getElem? hk₀)

theorem finish_tasks (r : Resolver) (t : Nat) (job : Job) (o : Outcome) :
    (r.finish t job o).tasks = r.tasks.modify t fun k => { k with phase := .finished o } :=
  congrArg Board.tasks (board_finish r t job o)

/-- The first turn of a lookup ends it if the catalog holds nothing back. -/
theorem lookup_first_turn (ho : ∀ number, c.isOpen number = true) (r : Resolver) {k : Task}
    (hp : k.phase = .fresh) {key : String} {q : LinkQuery} (hj : k.job = .lookup key q) :
    ∃ (r₁ : Resolver) (o : Outcome), r₁.tasks = r.tasks ∧ r₁.ready = r.ready ∧
      r.step c u k = r₁.finish u k.job o := by
  simp only [step, hp]
  split
  · exact ⟨r, _, rfl, rfl, rfl⟩
  · obtain ⟨o, hend⟩ := open_begin ho q
    refine ⟨{ r with calls := r.calls ++ (c.begin q.number (.ok q.types)).1 }, o, rfl, rfl, ?_⟩
    simp only [begin, hj, continueSearch, hend]

/-- The turn of the first task of the line ends it, and leaves the other tasks alone. -/
theorem Lined.first_turn (h : Lined (u :: us) t r) (ho : ∀ number, c.isOpen number = true) :
    (r.turn c u).ready = r.ready.filter (· != u) ∧
    (∀ v, v ≠ u → (r.turn c u).tasks[v]? = r.tasks[v]?) ∧
    ∀ k, (r.turn c u).tasks[u]? = some k → k.isFinished = true := by
  have hne : u ≠ t := fun he => h.apart (he ▸ List.mem_cons_self ..)
  cases hk : r.tasks[u]? with
  | none => simp [turn, hk]
  | some k =>
    rcases h.lookup u k hne hk with hf | ⟨hp, -, key, q, hj⟩
    · obtain ⟨o, hp⟩ := Task.isFinished_iff.mp hf
      simp [turn, hk, step, hp, hf]
    · obtain ⟨r₁, o, htasks, hready, hstep⟩ := lookup_first_turn (u := u) ho
        { r with ready := r.ready.filter (· != u) } hp hj
      have hturn : r.turn c u = r₁.finish u k.job o := by simp only [turn, hk, hstep]
      have hcalm : ∀ k ∈ r₁.tasks, ¬ k.Waits := htasks ▸ h.calm
      rw [hturn, finish_ready hcalm, hready, finish_tasks, htasks]
      refine ⟨rfl, fun v hv => List.getElem?_modify_ne _ _ hv.symm, fun k' hk' => ?_⟩
      obtain ⟨k₀, -, ⟨-, rfl⟩ | ⟨hu, -⟩⟩ := Board.getElem?_modify_some hk'
      · rfl
      · exact absurd rfl hu

/-- After that turn, the rest of the line is left. -/
theorem Lined.turn (h : Lined (u :: us) t r) (ho : ∀ number, c.isOpen number = true) :
    Lined (us.filter (· != u)) t (r.turn c u) := by
  have hne : u ≠ t := fun he => h.apart (he ▸ List.mem_cons_self ..)
  obtain ⟨hready, hothers, hended⟩ := h.first_turn ho
  refine ⟨?_, fun hmem => ?_, fun v k hv hk => ?_, ?_⟩
  · rw [hready, h.ready]
    simp [hne.symm]
  · exact h.apart (List.mem_cons_of_mem _ (List.mem_filter.mp hmem).1)
  · by_cases hvu : v = u
    · exact .inl (hended k (hvu ▸ hk))
    · rw [hothers v hvu] at hk
      refine (h.lookup v k hv hk).imp id fun ⟨hp, hmem, hj⟩ => ⟨hp, ?_, hj⟩
      exact List.mem_filter.mpr ⟨(List.mem_cons.mp hmem).resolve_left hvu, by simpa using hvu⟩
  · obtain ⟨k, hk, hj, hw⟩ := h.last
    exact ⟨k, by rw [hothers t hne.symm, hk], hj, hw⟩

/-- At the end of the line no lookup is running. -/
theorem Lined.idle (h : Lined [] t r) (hs : Sound C r.board) : r.running = [] := by
  rw [running, List.filter_eq_nil_iff]
  intro u hu
  obtain ⟨⟨key, n⟩, he, rfl⟩ := List.mem_map.mp hu
  obtain ⟨k, hk, hj⟩ := hs.newest key n (Keyed.get?_of_mem hs.keys he)
  have hne : n.task ≠ t := by
    intro hnt
    obtain ⟨k', hk', hj', -⟩ := h.last
    obtain rfl := Option.some.inj (hk.symm.trans (hnt ▸ hk'))
    simp [hj] at hj'
  rcases h.lookup _ k hne hk with hf | ⟨-, hmem, -⟩
  · simp [isFinished_eq hk, hf]
  · cases hmem

/-- A run gives every task of the line its turn, so the last one ends. -/
theorem Lined.turns_end (h : Lined us t r) (hr : Steadfast reply)
    (hw : ∀ e ∈ qs, ∃ number, LinkQuery.wanted? e.2.number = .ok (some number))
    (hs : Settling (Saying reply) qs t r.board) (hc : Saying reply c)
    (ho : ∀ number, c.isOpen number = true) {fuel : Nat} (hfuel : us.length < fuel) :
    (turns c fuel r).isFinished t = true := by
  induction fuel generalizing r us with
  | zero => cases hfuel
  | succ fuel ih =>
    cases us with
    | nil =>
      -- all lookups have ended, so this turn is the last one that changes anything
      have hprog : Progresses (Saying reply) t r.board (r.turn c t).board :=
        turn_progresses hs.sound hc (h.quiet t)
      have hsound : Sound (Saying reply) (r.turn c t).board := hprog.sound hs.sound
      have hrest := turns_turns hsound hc (fun u hu => h.quiet u (hprog.calls hu)) fuel
      obtain ⟨o, hend⟩ := settle_turn hs (h.idle hs.sound) c
      have hready : r.ready = t :: [] := h.ready
      simp only [turns, hready]
      refine hrest.isFinished hsound ?_
      rw [Resolver.isFinished, ← board_outcome?, hend]
      rfl
    | cons u us =>
      have hturn : Turns reply r (r.turn c u) := .single ⟨c, u, hc, h.quiet u, rfl⟩
      have hready : r.ready = u :: (us ++ [t]) := h.ready
      simp only [turns, hready]
      refine ih (h.turn ho) (hturn.settling hr hw hs) ?_
      have := List.length_filter_le (· != u) us
      simp only [List.length_cons] at hfuel
      omega

end Resolver
end DocForms
