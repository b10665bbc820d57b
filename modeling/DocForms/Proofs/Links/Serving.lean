import DocForms.Proofs.Links.Freshness

/-! Queries that are served: the newest lookup of the key is for the query, and it has filled the
cache unless it is still running. If catalogs never cancel a lookup and nobody else does, every step
of a task keeps a query served. -/
namespace DocForms

/-- The first document among the answers for the types; failures count as misses. -/
def firstHit (reply : String → String → Reply) (number : String) : List String → Option Document
  | [] => none
  | type :: left =>
    match reply type number with
    | .found d => some d
    | _ => firstHit reply number left

/-- The catalogs that say the same, whatever they hold back and whatever they do about
cancellations. -/
def Saying (reply : String → String → Reply) (c : Catalog) : Prop := c.replyTo = reply

/-- No query makes the catalog cancel the lookup that asks. -/
def Steadfast (reply : String → String → Reply) : Prop :=
  ∀ type number, reply type number ≠ .withdrawn

section Answers
variable {reply : String → String → Reply} {number : String} {types : List String}
  {a : Option Document}

theorem Finds.eq_firstHit (h : Finds (Saying reply) number types a) :
    a = firstHit reply number types := by
  induction h with
  | exhausted => rfl
  | hit hc h =>
    obtain rfl := hc
    simp [firstHit, h]
  | miss hc h _ ih =>
    obtain rfl := hc
    rcases h with h | h <;> simpa [firstHit, h] using ih

/-- A query for a number that is not blank is answered by the first hit. -/
theorem LinkQuery.Resolves.eq_firstHit {q : LinkQuery} (h : q.Resolves (Saying reply) a)
    (hw : LinkQuery.wanted? q.number = .ok (some number)) :
    a = firstHit reply number q.types := by
  simp only [LinkQuery.Resolves, hw] at h
  exact h.eq_firstHit

/-- The search for such a query ends with an answer if it ends. -/
theorem Search.Serves.answer {q : LinkQuery} {o : Outcome} (hr : Steadfast reply)
    (h : (Search.ended o).Serves (Saying reply) q)
    (hw : LinkQuery.wanted? q.number = .ok (some number)) : ∃ a, o = .answer a := by
  cases o with
  | answer a => exact ⟨a, rfl⟩
  | cancelled =>
    obtain ⟨c, rfl, type, number, hc⟩ := h
    exact absurd hc (hr type number)
  | failed e => simp [Search.Serves, hw] at h

end Answers

namespace Board
variable {C : Catalog → Prop} {b b' : Board} {key : String} {q : LinkQuery} {t : Nat}

/-- No newest lookup that has not ended is cancelled. -/
def Undisturbed (b : Board) : Prop :=
  ∀ (key : String) (n : Newest) (k : Task), b.newest.get? key = some n →
    b.tasks[n.task]? = some k → k.isFinished = false → k.cancelAsked = false

/-- The newest lookup of the key is for the query, and has filled the cache unless it is running. -/
def Serves (b : Board) (key : String) (q : LinkQuery) : Prop :=
  ∃ n, b.newest.get? key = some n ∧ n.query = q ∧
    (b.answers key q = true ∨ b.outcome? n.task = none)

theorem getElem?_modify_some {ks : List Task} {u : Nat} {f : Task → Task} {k' : Task}
    (h : (ks.modify u f)[t]? = some k') :
    ∃ k, ks[t]? = some k ∧ (u = t ∧ k' = f k ∨ u ≠ t ∧ k' = k) := by
  rw [List.getElem?_modify] at h
  obtain ⟨k, hk, rfl⟩ := Option.map_eq_some_iff.mp h
  refine ⟨k, hk, ?_⟩
  split <;> simp_all

/-- A task that has not ended after a step of a task had not before, and the step has not cancelled
it. -/
theorem Progress.of_unfinished {u : Nat} (h : Progress C u b b') {k' : Task}
    (hk : b'.tasks[t]? = some k') (hu : k'.isFinished = false) : ∃ k, b.tasks[t]? = some k ∧ k.isFinished = false ∧
      (k'.cancelAsked = true → k.cancelAsked = true) := by
  cases h with
  | calm hk₀ hp =>
    obtain ⟨k, hkt, ⟨rfl, rfl⟩ | ⟨-, rfl⟩⟩ := getElem?_modify_some hk
    · exact ⟨k, hkt, hu, by simp⟩
    · exact ⟨k', hkt, hu, id⟩
  | enter hk₀ hu₀ | quit hk₀ hu₀ | earn hk₀ hu₀ =>
    obtain ⟨k, hkt, ⟨rfl, rfl⟩ | ⟨-, rfl⟩⟩ := getElem?_modify_some hk
    · obtain rfl := Option.some.inj (hk₀.symm.trans hkt)
      exact ⟨_, hkt, hu₀, id⟩
    · exact ⟨k', hkt, hu, id⟩

theorem Undisturbed.progress (hb : b.Undisturbed) (h : Progress C t b b') : b'.Undisturbed := by
  intro key n k' hn hk' hu
  rw [h.newest] at hn
  obtain ⟨k, hk, hu, ha⟩ := h.of_unfinished hk' hu
  have hcalm := hb key n k hn hk hu
  simpa [hcalm] using ha

/-- Cancelling the newest lookup of another key leaves the task of a lookup as it is. -/
theorem Sound.interruptNewest_ne (hs : Sound C b) {key' : String} {n : Newest} (hne : key ≠ key')
    (hn : b.newest.get? key = some n) :
    (b.interruptNewest key').tasks[n.task]? = b.tasks[n.task]? := by
  unfold interruptNewest
  split
  · rename_i n' hn'
    obtain ⟨k, hk, hj⟩ := hs.newest key n hn
    obtain ⟨k', hk', hj'⟩ := hs.newest key' n' hn'
    have ht : n'.task ≠ n.task := by
      intro he
      rw [he, hk] at hk'
      obtain rfl := Option.some.inj hk'
      obtain ⟨rfl, -⟩ : key = key' ∧ n.query = n'.query := by simpa [hj] using hj'
      exact hne rfl
    simp [interrupt, List.getElem?_modify_ne _ _ ht]
  · rfl

theorem Undisturbed.step (hs : Sound C b) (hb : b.Undisturbed) (h : Step C False b b') :
    b'.Undisturbed := by
  cases h with
  | progress h => exact hb.progress h
  | interrupt hx => exact hx.elim
  | spawn job =>
    intro key n k hn hk hu
    obtain ⟨k₀, hk₀, -⟩ := hs.newest key n hn
    refine hb key n k hn ?_ hu
    rwa [Board.spawn, List.getElem?_append_left (List.getElem?_eq_some_iff.mp hk₀).1] at hk
  | forget key' =>
    intro key n k hn hk hu
    rw [Board.forget, Keyed.get?_erase] at hn
    split at hn
    · cases hn
    · rename_i hne
      exact hb key n k hn ((hs.interruptNewest_ne hne hn) ▸ hk) hu
  | supersede key' q =>
    intro key n k hn hk hu
    rw [Board.supersede, Keyed.get?_put] at hn
    split at hn
    · obtain rfl := Option.some.inj hn
      obtain rfl : _ = k := by simpa [Board.supersede, Board.spawn] using hk
      rfl
    · rename_i hne
      obtain ⟨k₀, hk₀, -⟩ := hs.newest key n hn
      have hlt := (List.getElem?_eq_some_iff.mp hk₀).1
      rw [Board.supersede, Board.spawn, List.getElem?_append_left (by simpa using hlt)] at hk
      exact hb key n k hn ((hs.interruptNewest_ne hne hn) ▸ hk) hu

theorem Undisturbed.steps (hs : Sound C b) (hb : b.Undisturbed) (h : Steps C False b b') :
    b'.Undisturbed := by
  induction h with
  | refl => exact hb
  | tail hsteps h ih => exact ih.step (hs.steps hsteps) h

/-! ### Served queries -/

theorem answers_iff : b.answers key q = true ↔ ∃ e, b.cache.get? key = some e ∧ e.query = q := by
  simp [answers, Option.any_eq_true]

/-- An answer to what was asked last stays until something else is asked. -/
theorem Progress.answers (h : Progress C t b b') {n : Newest} (hn : b.newest.get? key = some n)
    (hq : n.query = q) (ha : b.answers key q = true) : b'.answers key q = true := by
  have put (t : Nat) (job : Job) (o : Outcome) : (b.finish t job o).answers key q = true := by
    unfold Board.finish Board.keep
    split
    · rename_i key' q' d
      split
      · rename_i hsame
        by_cases hkey : key = key'
        · subst hkey
          obtain rfl : q = q' := by simpa [hn, hq] using hsame
          simp [Board.answers]
        · simpa [Board.answers, Keyed.get?_put, hkey] using ha
      · exact ha
    · exact ha
  cases h with
  | calm => exact ha
  | enter => exact ha
  | quit => exact put ..
  | earn => exact put ..

/-- A step of a task keeps a query served: its lookup is not cancelled, and what it ends with is an
answer that fills the cache. -/
theorem Serves.progress {reply : String → String → Reply} {number : String} (hr : Steadfast reply)
    (hw : LinkQuery.wanted? q.number = .ok (some number)) (hs : Sound (Saying reply) b)
    (hb : b.Undisturbed) (hserves : b.Serves key q) (h : Progress (Saying reply) t b b') :
    b'.Serves key q := by
  obtain ⟨n, hn, hq, hserves⟩ := hserves
  refine ⟨n, by rw [h.newest, hn], hq, ?_⟩
  rcases hserves with ha | hrun
  · exact .inl (h.answers hn hq ha)
  obtain ⟨k, hk, hj⟩ := hs.newest key n hn
  have hu : k.isFinished = false := by
    simpa [outcome?, hk, Task.isFinished] using hrun
  have hcalm := hb key n k hn hk hu
  have running (f : Task → Task) (hf : t = n.task → (f k).isFinished = false)
      (hb' : b'.tasks = b.tasks.modify t f) : b'.outcome? n.task = none := by
    rw [outcome?, hb', List.getElem?_modify, hk]
    by_cases ht : t = n.task
    · simpa [ht, Task.isFinished] using hf ht
    · simpa [ht, outcome?, hk] using hrun
  -- the lookup cannot give up, since nobody has cancelled it
  cases h with
  | calm => exact .inr (running _ (fun _ => hu) rfl)
  | enter hk' hu' hl hp ho ha =>
    refine .inr (running _ (fun _ => ?_) rfl)
    rw [← Bool.not_eq_true, Task.isFinished_iff]
    rintro ⟨o, hpo⟩
    exact ho o hpo
  | quit hk' hu' ha =>
    refine .inr (running _ (fun ht => ?_) rfl)
    subst ht
    obtain rfl := Option.some.inj (hk.symm.trans hk')
    simp [hcalm] at ha
  | @earn k' o hk' hu' hl he =>
    by_cases ht : t = n.task
    · subst ht
      obtain rfl := Option.some.inj (hk.symm.trans hk')
      obtain ⟨a, rfl⟩ : ∃ a, o = .answer a := by
        refine Search.Serves.answer (q := q) hr ?_ hw
        simpa [Earns, hj, hq] using he
      left
      simp [Board.answers, Board.finish, Board.keep, hj, hn, hq]
    · exact .inr (running _ (fun h => absurd h ht) rfl)

theorem outcome?_interrupt (b : Board) (u t : Nat) : (b.interrupt u).outcome? t = b.outcome? t := by
  unfold outcome? interrupt
  rw [List.getElem?_modify]
  split
  · cases b.tasks[t]? with
    | none => rfl
    | some k => simp [Task.outcome?]
  · simp

theorem outcome?_interruptNewest (b : Board) (key : String) (t : Nat) :
    (b.interruptNewest key).outcome? t = b.outcome? t := by
  unfold interruptNewest
  split
  · exact outcome?_interrupt b _ t
  · rfl

theorem outcome?_spawn (b : Board) (job : Job) (t : Nat) :
    (b.spawn job).outcome? t = b.outcome? t := by
  rw [outcome?, outcome?, spawn, List.getElem?_append]
  split
  · rfl
  · rename_i hge
    have hnone : b.tasks[t]? = none := List.getElem?_eq_none (by omega)
    rw [hnone, List.getElem?_singleton]
    split <;> rfl

theorem supersede_outcome? (b : Board) (key : String) (q : LinkQuery) (t : Nat) :
    (b.supersede key q).outcome? t = b.outcome? t := by
  have h := outcome?_spawn (b.interruptNewest key) (.lookup key q) t
  rw [outcome?_interruptNewest] at h
  exact h

theorem Serves.spawn (h : b.Serves key q) (job : Job) : (b.spawn job).Serves key q := by
  obtain ⟨n, hn, hq, h⟩ := h
  exact ⟨n, hn, hq, h.imp id fun h => by rw [outcome?_spawn, h]⟩

theorem cache_supersede_ne {key' : String} (hne : key ≠ key') (q : LinkQuery) :
    (b.supersede key' q).cache.get? key = b.cache.get? key := by
  rw [supersede]
  dsimp only
  split
  · rfl
  · rw [Keyed.get?_erase, if_neg hne]

/-- Starting a lookup for another key leaves a query served. -/
theorem Serves.supersede {key' : String} {q' : LinkQuery} (h : b.Serves key q) (hne : key ≠ key') :
    (b.supersede key' q').Serves key q := by
  obtain ⟨n, hn, hq, h⟩ := h
  have hn' : (b.supersede key' q').newest.get? key = some n := by
    simp [Board.supersede, Keyed.get?_put, hne, hn]
  refine ⟨n, hn', hq, h.imp (fun h => ?_) fun h => ?_⟩
  · obtain ⟨e, he, hqe⟩ := answers_iff.mp h
    refine answers_iff.mpr ⟨e, ?_, hqe⟩
    rw [cache_supersede_ne hne, he]
  · rw [supersede_outcome?, h]

theorem serves_supersede (b : Board) (key : String) (q : LinkQuery) :
    (b.supersede key q).Serves key q := by
  refine ⟨_, Keyed.get?_put_self .., rfl, .inr ?_⟩
  simp [outcome?, Board.supersede, Board.spawn, Task.outcome?]

theorem ended_of_running {n : Newest} (h : b.running = []) (hn : b.newest.get? key = some n) :
    ∃ o, b.outcome? n.task = some o := by
  have hmem : n.task ∈ b.newest.map (·.2.task) :=
    List.mem_map.mpr ⟨(key, n), Keyed.mem_of_get? hn, rfl⟩
  have hended := List.filter_eq_nil_iff.mp h n.task hmem
  apply Option.ne_none_iff_exists'.mp
  simpa using hended

/-- When no newest lookup is running, what is served has been answered. -/
theorem Serves.answers (h : b.Serves key q) (hr : b.running = []) : b.answers key q = true := by
  obtain ⟨n, hn, -, h | h⟩ := h
  · exact h
  · obtain ⟨o, ho⟩ := ended_of_running hr hn
    rw [h] at ho
    cases ho

end Board

/-- Nobody but a caller from outside cancels a newest lookup. -/
theorem Resolver.reached_undisturbed {C : Catalog → Prop} {ms : List Resolver.Move}
    (hC : ∀ c t, .turn c t ∈ ms → C c) (hx : ∀ t, .cancel t ∉ ms) :
    (reached ms).board.Undisturbed := by
  have hempty : (reached []).board.Undisturbed := fun key n k hn => by cases hn
  have hsteps := reached_steps (C := C) (X := False) [] ms hC hx
  exact hempty.steps Board.sound_empty hsteps

end DocForms
