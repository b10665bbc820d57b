import DocForms.Proofs.Links.Requests
import DocForms.Proofs.Links.Serving

/-! Which lookups fill the cache. It is a lookup that asks the same as the newest one of its key, and
the newest one itself unless an older lookup for the same query lingers: it was cancelled while it
waited for a catalog that did not give up. -/
namespace DocForms

namespace Board
variable {C : Catalog → Prop} {X : Prop} {b b' : Board} {t : Nat} {k k' : Task}

/-! ### Catalogs that give up -/

/-- A lookup that has not ended is the newest of its key or cancelled. -/
def Led (b : Board) : Prop :=
  ∀ (t : Nat) (k : Task) (key : String) (q : LinkQuery), b.tasks[t]? = some k →
    k.job = .lookup key q → k.isFinished = false → k.cancelAsked = false →
    ∃ n, b.newest.get? key = some n ∧ n.task = t

theorem asked_modify {ks : List Task} {f : Task → Task} (hk : ks[t]? = some k)
    (ha : k.cancelAsked = true) (hf : ∀ k, k.cancelAsked = true → (f k).cancelAsked = true) (u : Nat) :
    ∃ k', (ks.modify u f)[t]? = some k' ∧ k'.cancelAsked = true := by
  rw [List.getElem?_modify, hk]
  by_cases hu : u = t
  · exact ⟨f k, by simp [hu], hf k ha⟩
  · exact ⟨k, by simp [hu], ha⟩

theorem asked_append {ks : List Task} (hk : ks[t]? = some k) (ha : k.cancelAsked = true)
    (new : List Task) : ∃ k', (ks ++ new)[t]? = some k' ∧ k'.cancelAsked = true := by
  have hlt := (List.getElem?_eq_some_iff.mp hk).1
  exact ⟨k, by rw [List.getElem?_append_left hlt, hk], ha⟩

theorem asked_interrupt (hk : b.tasks[t]? = some k) (ha : k.cancelAsked = true) (u : Nat) :
    ∃ k', (b.interrupt u).tasks[t]? = some k' ∧ k'.cancelAsked = true := by
  apply asked_modify hk ha
  intro k ha
  unfold Task.interrupted
  split
  · exact ha
  · rfl

theorem asked_setPhase (hk : b.tasks[t]? = some k) (ha : k.cancelAsked = true) (u : Nat)
    (p : Phase) : ∃ k', (b.setPhase u p).tasks[t]? = some k' ∧ k'.cancelAsked = true := by
  apply asked_modify hk ha
  intro k ha
  exact ha

theorem asked_interruptNewest (hk : b.tasks[t]? = some k) (ha : k.cancelAsked = true)
    (key : String) : ∃ k', (b.interruptNewest key).tasks[t]? = some k' ∧ k'.cancelAsked = true := by
  unfold interruptNewest
  split
  · exact asked_interrupt hk ha _
  · exact ⟨k, hk, ha⟩

theorem Progress.asked (hC : ∀ c, C c → ∀ number, c.heed number = .givesUp) {u : Nat}
    (h : Progress C u b b') (hk : b.tasks[t]? = some k) (ha : k.cancelAsked = true) :
    ∃ k', b'.tasks[t]? = some k' ∧ k'.cancelAsked = true := by
  cases h with
  | calm hk' hp hh =>
    by_cases hu : u = t
    · subst hu
      obtain rfl := Option.some.inj (hk.symm.trans hk')
      obtain ⟨c, hc, hno⟩ := hh ha
      exact absurd (hC c hc _) hno
    · exact ⟨k, by rw [Board.calm, List.getElem?_modify_ne _ _ hu, hk], ha⟩
  | enter => exact asked_setPhase hk ha u _
  | quit => exact asked_setPhase hk ha u _
  | earn => exact asked_setPhase hk ha u _

/-- Where catalogs give up, a task that is cancelled stays cancelled. -/
theorem Step.asked (hC : ∀ c, C c → ∀ number, c.heed number = .givesUp) (h : Step C X b b')
    (hk : b.tasks[t]? = some k) (ha : k.cancelAsked = true) :
    ∃ k', b'.tasks[t]? = some k' ∧ k'.cancelAsked = true := by
  cases h with
  | progress h => exact h.asked hC hk ha
  | supersede key q =>
    obtain ⟨k', hk', ha'⟩ := asked_interruptNewest hk ha key
    exact asked_append hk' ha' _
  | forget key => exact asked_interruptNewest hk ha key
  | spawn job => exact asked_append hk ha _
  | interrupt hx u => exact asked_interrupt hk ha u

theorem Led.step (hC : ∀ c, C c → ∀ number, c.heed number = .givesUp) (hb : b.Led)
    (h : Step C X b b') : b'.Led := by
  intro t k' key q hk' hj hu ha
  rcases h.origin hk' with ⟨k, hk, he⟩ | ⟨-, -, -, hnew⟩
  · have hlt := (List.getElem?_eq_some_iff.mp hk).1
    have hku : k.isFinished = false := he.unfinished hu
    have hka : k.cancelAsked = false := by
      rw [← Bool.not_eq_true]
      intro hask
      obtain ⟨k₂, hk₂, ha₂⟩ := h.asked hC hk hask
      obtain rfl := Option.some.inj (hk'.symm.trans hk₂)
      rw [ha] at ha₂
      cases ha₂
    obtain ⟨n, hn, rfl⟩ := hb t k key q hk (he.job ▸ hj) hku hka
    -- a lookup that is no longer the newest one was cancelled
    rcases h.newest_cases key with hsame | ⟨hcancelled, -⟩
    · exact ⟨n, hsame.trans hn, rfl⟩
    · rcases hcancelled n k' hn hk' hlt with hfin | hask
      · rw [hu] at hfin
        cases hfin
      · rw [ha] at hask
        cases hask
  · exact ⟨_, hnew key q hj, rfl⟩

theorem Led.steps (hC : ∀ c, C c → ∀ number, c.heed number = .givesUp) (hb : b.Led)
    (h : Steps C X b b') : b'.Led := by
  induction h with
  | refl => exact hb
  | tail _ h ih => exact ih.step hC h

end Board

namespace Resolver
open Board (Sound Steps)
variable {C : Catalog → Prop} {c : Catalog} {r : Resolver} {key : String} {q : LinkQuery} {t u : Nat}
  {k : Task} {ms : List Move} {m : Move}

/-- The turn of a task ends a lookup of the key with an answer and puts this into the cache. -/
def Fills (r : Resolver) (c : Catalog) (t : Nat) (key : String) : Prop :=
  ∃ q a, r.outcome? t = none ∧ (r.turn c t).Answered t key q a ∧
    (r.turn c t).cache.get? key = some ⟨q, a⟩

/-- A lookup that asks the same as the newest one of its key, but is another one, waits for the
catalog. -/
def Lingers (r : Resolver) (key : String) : Prop :=
  ∃ n t k number left, r.newest.get? key = some n ∧ r.tasks[t]? = some k ∧
    k.job = .lookup key n.query ∧ k.phase = .asking number left ∧ t ≠ n.task

/-! ### What enters the cache -/

theorem outcome?_schedule (r : Resolver) (key : String) (q : LinkQuery) (t : Nat) :
    (r.schedule key q).1.outcome? t = r.outcome? t := by
  rcases r.schedule_cases key q with ⟨n, -, -, -, he⟩ | he
  · rw [he]
  · rw [he, ← board_outcome?, board_supersede]
    exact Board.supersede_outcome? r.board key q t

theorem outcome?_invalidate (r : Resolver) (key : String) (t : Nat) :
    (r.invalidate key).outcome? t = r.outcome? t := by
  rw [← board_outcome?, board_invalidate]
  exact Board.outcome?_interruptNewest r.board key t

theorem outcome?_cancel (r : Resolver) (u t : Nat) : (r.cancel u).outcome? t = r.outcome? t := by
  refine cancel_same (·.outcome? t) (fun r u => ?_) (fun r u => ?_) r u
  · simp only [outcome?, modify, List.getElem?_modify]
    cases r.tasks[t]? with
    | none => rfl
    | some k =>
      simp only [Option.bind_some]
      split <;> rfl
  · exact congrArg (Board.outcome? · t) (board_wake r u)

/-- A turn ends no task but its own. -/
theorem outcome?_turn (hs : Sound C r.board) (hc : C c) (hne : u ≠ t) :
    (r.turn c u).outcome? t = r.outcome? t := by
  obtain ⟨b, hprog, hb⟩ := turn_parts hs hc u
  have hturn : (r.turn c u).board.outcome? t = b.outcome? t := by
    rw [Board.outcome?, hprog.getElem?_ne hne]
    rfl
  rw [← board_outcome?, hturn]
  rcases hb with rfl | ⟨k, key, q, -, -, rfl⟩
  · rfl
  · exact outcome?_schedule r key q t

/-- A task ends at its own turn. -/
theorem ends_at_turn (hs : Sound C r.board) (m : Move) (hm : ∀ c t, m = .turn c t → C c)
    (h₀ : r.outcome? t = none) (h : (r.move m).outcome? t ≠ none) : ∃ c, m = .turn c t := by
  have spawn (job : Job) : (r.start job).1.outcome? t = none :=
    (Board.outcome?_spawn r.board job t).trans h₀
  cases m with
  | schedule key q => exact absurd ((outcome?_schedule r key q t).trans h₀) h
  | lookup key number types => exact absurd (spawn _) h
  | resolve number types => exact absurd (spawn _) h
  | settle => exact absurd (spawn _) h
  | invalidate key => exact absurd ((outcome?_invalidate r key t).trans h₀) h
  | clear =>
    have hclear := foldl_same (·.outcome? t) (fun r key => outcome?_invalidate r key t) r
      (r.newest.names ++ r.cache.names)
    exact absurd (hclear.trans h₀) h
  | cancel u => exact absurd ((outcome?_cancel r u t).trans h₀) h
  | turn c u =>
    by_cases hu : u = t
    · exact ⟨c, by rw [hu]⟩
    · exact absurd ((outcome?_turn hs (hm c u rfl) hu).trans h₀) h

/-- What enters the cache is put there at the turn of a lookup. -/
theorem cached_or_fills (hs : Sound C r.board) (m : Move) (hm : ∀ c t, m = .turn c t → C c)
    {e : CacheEntry} (he : (r.move m).cache.get? key = some e) :
    r.cache.get? key = some e ∨ ∃ c t, m = .turn c t ∧ r.Fills c t key := by
  have hsteps := move_steps (X := True) hs m hm fun _ _ => trivial
  rcases hsteps.delivered key e he with old | ⟨t, k, hk, hj, hp, ho⟩
  · exact .inl old
  · have hend : (r.move m).outcome? t = some (.answer e.document) :=
      Board.outcome?_eq_some.mpr ⟨k, hk, hp⟩
    obtain ⟨c, rfl⟩ := ends_at_turn hs m hm ho (by rw [hend]; exact Option.some_ne_none _)
    exact .inr ⟨c, t, rfl, e.query, e.document, ho, ⟨k, hk, hj, hp⟩, he⟩

/-! ### Who fills the cache -/

theorem newest_turn (hs : Sound C r.board) (hc : C c) (hk : r.tasks[t]? = some k)
    (hj : k.job = .lookup key q) : (r.turn c t).newest = r.newest := by
  have hcalls : ¬ r.Calls t := by
    rintro ⟨k', key', number, types, hk', -, hj'⟩
    obtain rfl := Option.some.inj (hk.symm.trans hk')
    rw [hj] at hj'
    cases hj'
  exact (turn_progresses hs hc hcalls).newest

/-- What fills the cache is a lookup for the query of the newest one. -/
theorem Fills.newest (hs : Sound C r.board) (hc : C c) (h : r.Fills c t key) :
    ∃ n k, r.newest.get? key = some n ∧ r.tasks[t]? = some k ∧ k.job = .lookup key n.query ∧
      k.isFinished = false ∧
      ∃ k' a, k.Evolves C k' ∧ (r.turn c t).tasks[t]? = some k' ∧ k'.phase = .finished (.answer a) := by
  obtain ⟨q, a, ho, ⟨k', hk', hj', hp'⟩, he⟩ := h
  have hsteps := turn_steps (X := True) hs hc t
  obtain ⟨k, hk⟩ : ∃ k, r.tasks[t]? = some k := by
    apply Option.ne_none_iff_exists'.mp
    intro hnone
    obtain ⟨r', hb, -, hno⟩ := turn_cases c r t
    have hsame : (r.turn c t).tasks = r.tasks := by
      rw [hno hnone]
      exact congrArg Board.tasks hb
    rw [hsame, hnone] at hk'
    cases hk'
  obtain ⟨k₂, hk₂, hev⟩ := hsteps.keeps t k hk
  obtain rfl := Option.some.inj (hk₂.symm.trans hk')
  have hj : k.job = .lookup key q := hev.job ▸ hj'
  obtain ⟨n, hn, hq⟩ := (hs.steps hsteps).cached key _ he
  rw [board_newest, newest_turn hs hc hk hj] at hn
  have hu : k.isFinished = false := by
    rw [outcome?, hk, Option.bind_some] at ho
    rw [Task.isFinished, ho]
    rfl
  exact ⟨n, k, hn, hk, by rw [hq]; exact hj, hu, k₂, a, hev, hk', hp'⟩

/-- A lookup that fills the cache is the newest one of its key, or waited for the catalog. -/
theorem Fills.newest_or_asking (hs : Sound C r.board) (hc : C c) (h : r.Fills c t key) :
    ∃ n, r.newest.get? key = some n ∧ (n.task = t ∨ ∃ k number left, r.tasks[t]? = some k ∧
      k.job = .lookup key n.query ∧ k.phase = .asking number left) := by
  obtain ⟨n, k, hn, hk, hj, hu, k', a, hev, -, hp'⟩ := h.newest hs hc
  have hal := hs.allowed t k hk
  refine ⟨n, hn, ?_⟩
  cases hp : k.phase with
  | fresh =>
    cases ha : k.cancelAsked with
    | false =>
      obtain ⟨n', hn', ht⟩ := hs.pending t k key n.query hk hj hp ha
      obtain rfl := Option.some.inj (hn.symm.trans hn')
      exact .inl ht
    | true =>
      rcases hev.doomed hp ha with ⟨hfresh, -⟩ | hcancelled
      · rw [hp'] at hfresh
        cases hfresh
      · rw [hp'] at hcancelled
        cases hcancelled
  | asking number left => exact .inr ⟨k, number, left, hk, hj, hp⟩
  | awaiting =>
    rw [hj, hp] at hal
    exact hal.elim
  | gathering =>
    rw [hj, hp] at hal
    exact hal.elim
  | finished o =>
    rw [Task.isFinished, Task.outcome?, hp] at hu
    cases hu

/-- A lingering lookup fills the cache if the catalog answers although it is cancelled. -/
theorem fills_late {n : Newest} (hn : r.newest.get? key = some n) (hk : r.tasks[t]? = some k)
    (hj : k.job = .lookup key n.query) {number : String} {left : List String}
    (hp : k.phase = .asking number left) : r.Fills late t key := by
  have hturn := late_turn hk hp
  have htask : (r.turn late t).tasks[t]? =
      some { k with cancelAsked := false, phase := .finished (.answer none) } := by
    rw [← board_tasks, hturn]
    simp [Board.finish, Board.setPhase, Board.calm, hk]
  refine ⟨n.query, none, ?_, ⟨_, htask, hj, rfl⟩, ?_⟩
  · rw [outcome?, hk, Option.bind_some, Task.outcome?, hp]
  · rw [← board_cache, hturn, hj]
    simp [Board.finish, Board.keep, Board.calm, hn]

theorem latest_iff_not_lingers (hs : Sound (fun _ => True) r.board) (key : String) :
    (∀ c t, r.Fills c t key → ∃ q, r.LatestLookup key t q) ↔ ¬ r.Lingers key := by
  constructor
  · rintro h ⟨n, t, k, number, left, hn, hk, hj, hp, hne⟩
    obtain ⟨q, -, hlast⟩ := h late t (fills_late hn hk hj hp)
    obtain ⟨k', hk', hj'⟩ := hs.newest key n hn
    have hle := hs.latest key n t k n.query hn hk hj
    have hge := hlast n.task k' n.query hk' hj'
    omega
  · intro h c t hfills
    obtain ⟨n, hn, rfl | ⟨k, number, left, hk, hj, hp⟩⟩ := hfills.newest_or_asking hs trivial
    · exact ⟨n.query, latestLookup_of_newest hs hn⟩
    · by_cases ht : t = n.task
      · rw [ht]
        exact ⟨n.query, latestLookup_of_newest hs hn⟩
      · exact absurd ⟨n, t, k, number, left, hn, hk, hj, hp, ht⟩ h

/-- The turn of a cancelled task with an open query, under a catalog that gives it up. -/
theorem givenUp_turn (hk : r.tasks[t]? = some k) (ha : k.cancelAsked = true) {number : String}
    {left : List String} (hp : k.phase = .asking number left) (hc : c.heed number = .givesUp) :
    (r.turn c t).board = r.board.finish t k.job .cancelled := by
  obtain ⟨r', hb, hsome, -⟩ := turn_cases c r t
  rw [hsome k hk, step, hp]
  dsimp only [answered]
  rw [ha, hc, board_finish, hb]

theorem latest_of_givesUp (hs : Sound C r.board)
    (hC : ∀ c, C c → ∀ number, c.heed number = .givesUp) (hb : r.board.Led) (hc : C c)
    (h : r.Fills c t key) : ∃ q, r.LatestLookup key t q := by
  obtain ⟨n, k, hn, hk, hj, hu, k', a, hev, hk', hp'⟩ := h.newest hs hc
  suffices ht : n.task = t by
    rw [← ht]
    exact ⟨n.query, latestLookup_of_newest hs hn⟩
  cases ha : k.cancelAsked with
  | false =>
    obtain ⟨n', hn', ht⟩ := hb t k key n.query hk hj hu ha
    obtain rfl := Option.some.inj (hn.symm.trans hn')
    exact ht
  | true =>
    obtain ⟨n', hn', ht | ⟨k₁, number, left, hk₁, -, hp⟩⟩ := h.newest_or_asking hs hc
    · obtain rfl := Option.some.inj (hn.symm.trans hn')
      exact ht
    · -- the cancelled lookup would not have ended with an answer
      obtain rfl := Option.some.inj (hk.symm.trans hk₁)
      have hturn := givenUp_turn hk ha hp (hC c hc number)
      rw [← board_tasks, hturn, Board.finish, Board.setPhase, List.getElem?_modify_eq,
        board_tasks, hk] at hk'
      obtain rfl := Option.some.inj hk'
      cases hp'

/-- Whatever enters the cache under a key is put there by a lookup for what is wanted of the key, and
so never after the key has been forgotten and before it is asked for again. That lookup is the last
one started for the key in all states but those in which an older one for the same query lingers, and
in all states if the catalogs give up queries that are cancelled. -/
theorem fills_latest_iff (ms : List Move) :
    (∀ m key e, (reached (ms ++ [m])).cache.get? key = some e →
      (reached ms).cache.get? key = some e ∨ ∃ c t, m = .turn c t ∧ (reached ms).Fills c t key) ∧
    (∀ c t key, (reached ms).Fills c t key → ∃ q k u, (reached ms).tasks[t]? = some k ∧
      k.job = .lookup key q ∧ (reached ms).LatestLookup key u q ∧ wants ms key = some q) ∧
    (∀ key, (∀ c t, (reached ms).Fills c t key → ∃ q, (reached ms).LatestLookup key t q) ↔
      ¬ (reached ms).Lingers key) ∧
    ∀ c t key, (∀ c', Move.Met (ms ++ [.turn c t]) c' → ∀ number, c'.heed number = .givesUp) →
      (reached ms).Fills c t key → ∃ q, (reached ms).LatestLookup key t q := by
  have hs : Sound (fun _ => True) (reached ms).board := reached_sound ms fun _ _ _ => trivial
  refine ⟨?_, ?_, latest_iff_not_lingers hs, ?_⟩
  · intro m key e he
    rw [reached_append] at he
    exact cached_or_fills hs m (fun _ _ _ => trivial) he
  · intro c t key h
    obtain ⟨n, k, hn, hk, hj, -⟩ := h.newest hs trivial
    refine ⟨n.query, k, n.task, hk, hj, latestLookup_of_newest hs hn, ?_⟩
    rw [← asked?_reached]
    exact asked?_eq_some.mpr ⟨n, hn, rfl⟩
  · intro c t key hgive h
    have hmet : ∀ c' t', .turn c' t' ∈ ms → Move.Met (ms ++ [.turn c t]) c' :=
      fun c' t' hmem => ⟨t', List.mem_append_left _ hmem⟩
    have hempty : (reached []).board.Led := fun t k key q hk => by cases hk
    have hsteps := reached_steps (C := Move.Met (ms ++ [Move.turn c t])) (X := True) [] ms hmet
      fun _ _ => trivial
    have hled : (reached ms).board.Led := hempty.steps hgive hsteps
    exact latest_of_givesUp (reached_sound ms hmet) hgive hled
      ⟨t, List.mem_append_right _ (List.mem_singleton.mpr rfl)⟩ h

/-- A document, and the query for it. -/
def lateDocument : Document := { number := .text "X-1", typeId := "a", id := some "1" }

def lateQuery : LinkQuery := ⟨.text "X-1", ["a"]⟩

/-- A catalog that holds its answer back and gives it although the lookup is cancelled. -/
def stubborn : Catalog where
  replyTo _ _ := .found lateDocument
  isOpen _ := false
  heed _ := .answers

/-- A number is looked up, then another one, and then the first one again. -/
def backAndForth : List Move :=
  [.schedule "k" lateQuery, .turn stubborn 0, .schedule "k" ⟨.text "Y-1", ["a"]⟩,
    .schedule "k" lateQuery]

/-- The first lookup, which is cancelled, fills the cache while the last one has not even begun. -/
theorem superseded_lookup_fills :
    (reached backAndForth).Fills stubborn 0 "k" ∧
      (reached backAndForth).LatestLookup "k" 2 lateQuery ∧
      (reached backAndForth).resolved.get? "k" = none ∧
      (reached (backAndForth ++ [.turn stubborn 0])).resolved.get? "k" = some (some lateDocument) ∧
      (reached (backAndForth ++ [.turn stubborn 0])).outcome? 2 = none := by
  have hs : Sound (fun _ => True) (reached backAndForth).board :=
    reached_sound _ fun _ _ _ => trivial
  have hn : (reached backAndForth).newest.get? "k" = some ⟨2, lateQuery⟩ := by decide +kernel
  have hrunning : (reached backAndForth).outcome? 0 = none := by decide +kernel
  have htask : ((reached backAndForth).turn stubborn 0).tasks[0]? = some
      { job := .lookup "k" lateQuery, phase := .finished (.answer (some lateDocument)) } := by
    decide +kernel
  have hcache : ((reached backAndForth).turn stubborn 0).cache.get? "k" =
      some ⟨lateQuery, some lateDocument⟩ := by
    decide +kernel
  have hanswered : ((reached backAndForth).turn stubborn 0).Answered 0 "k" lateQuery
      (some lateDocument) := ⟨_, htask, rfl, rfl⟩
  have hfills : (reached backAndForth).Fills stubborn 0 "k" :=
    ⟨lateQuery, some lateDocument, hrunning, hanswered, hcache⟩
  refine ⟨hfills, latestLookup_of_newest hs hn, ?_⟩
  decide +kernel

end Resolver
end DocForms
