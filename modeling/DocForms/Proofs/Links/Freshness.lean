import DocForms.Proofs.Links.Moves

/-! The cache of a resolver is fresh: in every order of moves, what it holds under a key answers
what was asked last for the key. -/
namespace DocForms.Resolver
open Board (Sound Steps Delivered Keeps)

/-- The resolver that moves lead a new one to. -/
def reached (ms : List Move) : Resolver := ({} : Resolver).play ms

/-- The query that the cached answer of a key answers. -/
def recorded? (r : Resolver) (key : String) : Option LinkQuery := (r.cache.get? key).map (·.query)

/-- The last lookup that was started for a key, with its query. -/
def LatestLookup (r : Resolver) (key : String) (t : Nat) (q : LinkQuery) : Prop :=
  (∃ k, r.tasks[t]? = some k ∧ k.job = .lookup key q) ∧
    ∀ (u : Nat) (k : Task) (q' : LinkQuery), r.tasks[u]? = some k → k.job = .lookup key q' → u ≤ t

/-- A lookup for a key and a query that has ended with an answer. -/
def Answered (r : Resolver) (t : Nat) (key : String) (q : LinkQuery) (a : Option Document) : Prop :=
  ∃ k, r.tasks[t]? = some k ∧ k.job = .lookup key q ∧ k.phase = .finished (.answer a)

/-- A lookup of the key waits for the catalog. -/
def Asks (r : Resolver) (key : String) : Prop :=
  ∃ (t : Nat) (k : Task) (q : LinkQuery) (number : String) (left : List String),
    r.tasks[t]? = some k ∧ k.job = .lookup key q ∧ k.phase = .asking number left

/-- A move that forgets a key. -/
def Move.Forgets (key : String) : Move → Prop
  | .invalidate k => k = key
  | .clear => True
  | _ => False

/-- The catalogs that moves meet. -/
def Move.Met (ms : List Move) (c : Catalog) : Prop := ∃ t, .turn c t ∈ ms

variable {C : Catalog → Prop} {X : Prop} {r : Resolver} {key : String} {q : LinkQuery}
  {ms : List Move}

theorem resolved_get? (r : Resolver) (key : String) :
    r.resolved.get? key = (r.cache.get? key).map (·.document) :=
  Keyed.get?_map r.cache CacheEntry.document key

theorem reached_append (ms es : List Move) : reached (ms ++ es) = (reached ms).play es :=
  play_append _ ms es

theorem reached_sound (ms : List Move) (hC : ∀ c t, .turn c t ∈ ms → C c) :
    Sound C (reached ms).board :=
  Board.sound_empty.steps (play_steps (X := True) Board.sound_empty ms hC fun _ _ => trivial)

theorem reached_steps (ms es : List Move) (hC : ∀ c t, .turn c t ∈ ms ++ es → C c)
    (hX : ∀ t, .cancel t ∈ es → X) :
    Steps C X (reached ms).board (reached (ms ++ es)).board := by
  rw [reached_append]
  refine play_steps (reached_sound ms ?_) es ?_ hX
  · exact fun c t h => hC c t (List.mem_append_left _ h)
  · exact fun c t h => hC c t (List.mem_append_right _ h)

/-- The invariant holds whatever the catalogs have said. -/
theorem sound_reached (ms : List Move) : Sound (fun _ => True) (reached ms).board :=
  reached_sound ms fun _ _ _ => trivial

theorem steps_reached (ms es : List Move) :
    Steps (fun _ => True) True (reached ms).board (reached (ms ++ es)).board :=
  reached_steps ms es (fun _ _ _ => trivial) fun _ _ => trivial

theorem latestLookup_of_newest (hs : Sound C r.board) {n : Newest} (hn : r.newest.get? key = some n) :
    r.LatestLookup key n.task n.query :=
  ⟨hs.newest key n hn, fun u k q' => hs.latest key n u k q' hn⟩

/-- What is in the cache was answered to the latest lookup's query. -/
theorem cached_answered (hs : Sound C r.board) {r₀ : Resolver} (hd : Delivered r₀.board r.board)
    (h₀ : r₀.cache.get? key = none) {a : Option Document} (ha : r.resolved.get? key = some a) :
    ∃ n u, r.newest.get? key = some n ∧ r.recorded? key = some n.query ∧
      r.Answered u key n.query a ∧ r₀.outcome? u = none := by
  rw [resolved_get?, Option.map_eq_some_iff] at ha
  obtain ⟨e, he, rfl⟩ := ha
  obtain ⟨n, hn, hq⟩ := hs.cached key e he
  rcases hd key e he with h | ⟨u, k, hk, hj, hp, ho⟩
  · simp [h₀] at h
  · exact ⟨n, u, hn, by simp [recorded?, he, hq], ⟨k, hk, hq ▸ hj, hp⟩, ho⟩

theorem answered_resolves (hs : Sound C r.board) {u : Nat} {a : Option Document}
    (h : r.Answered u key q a) : q.Resolves C a := by
  obtain ⟨k, hk, hj, hp⟩ := h
  simpa [hj, hp, Job.Allows, Search.Serves] using hs.allowed u k hk

/-! ### Scheduling something else -/

/-- Scheduling leaves no answer to another query in the cache. -/
theorem schedule_absent (hs : Sound C r.board) (hq : r.recorded? key ≠ some q) :
    (r.schedule key q).1.cache.get? key = none := by
  refine Option.eq_none_iff_forall_ne_some.mpr fun e he => hq ?_
  rcases r.schedule_cases key q with ⟨n, hn, hnq, -, heq⟩ | heq
  · rw [heq] at he
    obtain ⟨n', hn', hq'⟩ := hs.cached key e he
    obtain rfl : n = n' := by simpa [hn] using hn'
    simp [recorded?, he, ← hq', hnq]
  · rw [heq, ← board_cache, board_supersede] at he
    obtain ⟨he, hq⟩ := Board.supersede_cached he
    simp [recorded?, ← board_cache, he, hq rfl]

/-! ### Forgetting -/

/-- Nothing is known of a key, and no lookup is its newest. -/
def Forgotten (r : Resolver) (key : String) : Prop :=
  r.cache.get? key = none ∧ r.newest.get? key = none

theorem invalidate_get? (r : Resolver) (key other : String) :
    (r.invalidate key).cache.get? other = (if other = key then none else r.cache.get? other) ∧
      (r.invalidate key).newest.get? other = if other = key then none else r.newest.get? other := by
  rw [← board_cache, ← board_newest, board_invalidate]
  exact ⟨Keyed.get?_erase .., Keyed.get?_erase ..⟩

theorem foldl_invalidate_forgotten (r : Resolver) (keys : List String) (key : String)
    (h : key ∈ keys ∨ r.Forgotten key) : (keys.foldl invalidate r).Forgotten key := by
  induction keys generalizing r with
  | nil => exact h.resolve_left (by simp)
  | cons k keys ih =>
    refine ih _ ?_
    obtain ⟨hc, hn⟩ := r.invalidate_get? k key
    by_cases hk : key = k
    · exact .inr ⟨by simpa [hk] using hc, by simpa [hk] using hn⟩
    · simpa [Forgotten, hc, hn, hk] using h

theorem forgets_forgotten (r : Resolver) {m : Move} (hm : m.Forgets key) :
    (r.move m).Forgotten key := by
  cases m with
  | invalidate k =>
    obtain rfl : k = key := hm
    exact foldl_invalidate_forgotten r [k] k (by simp)
  | clear =>
    refine foldl_invalidate_forgotten r _ key ?_
    by_cases h : key ∈ r.newest.names ++ r.cache.names
    · exact .inl h
    · rw [List.mem_append, not_or] at h
      exact .inr ⟨Keyed.get?_eq_none h.2, Keyed.get?_eq_none h.1⟩
  | schedule | lookup | resolve | settle | cancel | turn => exact hm.elim

/-- If no lookup of a forgotten key has an open query, only lookups started later can answer: the
others have ended, or were cancelled before their first turn. -/
theorem started_after_forgotten (hs : Sound C r.board) (hf : r.Forgotten key)
    (ha : ¬ r.Asks key) {r' : Resolver} (h : Steps C X r.board r'.board) {u : Nat}
    {a : Option Document} (hu : r'.Answered u key q a) (ho : r.outcome? u = none) : r.tasks.length ≤ u := by
  refine Nat.le_of_not_lt fun hlt => ?_
  obtain ⟨k', hk', hj', hp'⟩ := hu
  obtain ⟨k, hk, he⟩ := h.keeps.of_lt hlt hk'
  rw [board_tasks] at hk
  have hj : k.job = .lookup key q := he.job ▸ hj'
  have hal := hs.allowed u k hk
  cases hp : k.phase with
  | fresh =>
    cases hc : k.cancelAsked with
    | false =>
      obtain ⟨n, hn, -⟩ := hs.pending u k key q hk hj hp hc
      simp [hf.2] at hn
    | true => rcases he.doomed hp hc with ⟨h', -⟩ | h' <;> simp [hp'] at h'
  | asking number left => exact ha ⟨u, k, q, number, left, hk, hj, hp⟩
  | awaiting => simp [Job.Allows, hj, hp] at hal
  | gathering => simp [Job.Allows, hj, hp] at hal
  | finished o => simp [outcome?, hk, Task.outcome?, hp] at ho

/-- A catalog without documents that answers a query although it was cancelled. -/
def late : Catalog where
  replyTo _ _ := .missing
  heed _ := .answers

theorem late_search (number : String) (types : List String) :
    (late.search number types).2 = .ended (.answer none) := by
  induction types with
  | nil => rfl
  | cons type types ih => exact ih

theorem late_goOn (number : String) (types : List String) :
    (late.goOn number types).2 = .ended (.answer none) := by
  cases types with
  | nil => rfl
  | cons type types => exact late_search number types

/-- The turn of a task whose open query is answered, under a catalog that answers cancelled ones
too. -/
theorem answering_turn {c : Catalog} {t : Nat} {k : Task} (hk : r.tasks[t]? = some k)
    {number : String} {left : List String} (hp : k.phase = .asking number left)
    (hc : c.heed number = .answers) {o : Outcome} (ho : (c.goOn number left).2 = .ended o) :
    (r.turn c t).board = (r.board.calm t).finish t k.job o := by
  obtain ⟨r', hb, hsome, -⟩ := turn_cases c r t
  have hon : (r'.step c t k) = (r'.modify t fun k => { k with cancelAsked := false }).continueSearch
      t k.job (c.goOn number left) := by
    simp only [step, hp, answered, hc]
    cases k.cancelAsked <;> rfl
  rw [hsome k hk, hon, board_continueSearch, ho, ← hb]
  rfl

/-- The turn of a task with an open query, under that catalog. -/
theorem late_turn {t : Nat} {k : Task} (hk : r.tasks[t]? = some k) {number : String}
    {left : List String} (hp : k.phase = .asking number left) :
    (r.turn late t).board = (r.board.calm t).finish t k.job (.answer none) :=
  answering_turn hk hp rfl (late_goOn number left)

/-- An open query of a forgotten key can still fill the cache: its answer is taken for that of the
next lookup, if this asks the same. -/
theorem late_answer_cached (hf : r.Forgotten key) {t : Nat} {k : Task} (hk : r.tasks[t]? = some k)
    (hj : k.job = .lookup key q) {number : String} {left : List String}
    (hp : k.phase = .asking number left) :
    (r.play [.schedule key q, .turn late t]).resolved.get? key = some none ∧
      ∀ u q' a, r.tasks.length ≤ u →
        ¬ (r.play [.schedule key q, .turn late t]).Answered u key q' a := by
  have hlt : t < r.tasks.length := (List.getElem?_eq_some_iff.mp hk).1
  have hs : (r.schedule key q).1.board = r.board.supersede key q := by
    rcases r.schedule_cases key q with ⟨n, hn, -⟩ | he
    · simp [hf.2] at hn
    · rw [he, board_supersede]
  have ht : (r.schedule key q).1.tasks = r.tasks ++ [{ job := .lookup key q }] := by
    rw [← board_tasks, hs]
    simp [Board.supersede, Board.interruptNewest, hf.2, Board.spawn]
  have hk' : (r.schedule key q).1.tasks[t]? = some k := by
    rw [ht, List.getElem?_append_left hlt, hk]
  have hturn := late_turn hk' hp
  simp only [play_cons, play_nil, move]
  refine ⟨?_, ?_⟩
  · rw [resolved_get?, ← board_cache, hturn, hs, hj]
    simp [Board.finish, Board.keep, Board.calm, Board.supersede]
  · rintro u q' a hu ⟨k₁, hk₁, -, hp₁⟩
    have hne : t ≠ u := by omega
    have hu₁ : ((r.schedule key q).1.turn late t).tasks[u]? =
        [({ job := .lookup key q } : Task)][u - r.tasks.length]? := by
      rw [← board_tasks, hturn]
      simp [Board.finish, Board.setPhase, Board.calm, ht, hne, List.getElem?_append_right hu]
    rw [hu₁, List.getElem?_eq_some_iff] at hk₁
    obtain ⟨h₁, rfl⟩ := hk₁
    simp at hp₁

/-- However moves are mixed, what the cache holds under a key is what a lookup has answered to the
query of the last lookup that was started for the key, since the key was last forgotten. Once
something else is scheduled, the key is unknown until a lookup for what was asked last has ended.
Once it is forgotten, it is unknown until a lookup that was started since has ended, if and only if
no lookup of the key is left waiting for the catalog. -/
theorem cache_freshness (ms : List Move) :
    (∀ key a, (reached ms).resolved.get? key = some a → ∃ q t u,
      (reached ms).recorded? key = some q ∧ (reached ms).LatestLookup key t q ∧
      (∀ before m after, ms = before ++ m :: after → m.Forgets key →
        (reached before).tasks.length ≤ t) ∧
      (reached ms).Answered u key q a ∧ q.Resolves (Move.Met ms) a) ∧
    (∀ key q, (reached ms).recorded? key ≠ some q →
      (reached (ms ++ [.schedule key q])).resolved.get? key = none ∧
      ∀ es a, (reached (ms ++ [.schedule key q] ++ es)).resolved.get? key = some a → ∃ t q' u,
        (reached (ms ++ [.schedule key q] ++ es)).LatestLookup key t q' ∧
        (reached (ms ++ [.schedule key q] ++ es)).Answered u key q' a ∧
        (reached (ms ++ [.schedule key q])).outcome? u = none) ∧
    (∀ key m, m.Forgets key →
      (reached (ms ++ [m])).resolved.get? key = none ∧
      ((∀ es a, (reached (ms ++ [m] ++ es)).resolved.get? key = some a → ∃ u q,
          (reached (ms ++ [m])).tasks.length ≤ u ∧
          (reached (ms ++ [m] ++ es)).Answered u key q a) ↔
        ¬ (reached (ms ++ [m])).Asks key)) := by
  -- what the catalogs have said matters only for the first part
  have sound (ms : List Move) : Sound (fun _ => True) (reached ms).board :=
    reached_sound ms fun _ _ _ => trivial
  have steps (ms es : List Move) :
      Steps (fun _ => True) True (reached ms).board (reached (ms ++ es)).board :=
    reached_steps ms es (fun _ _ _ => trivial) fun _ _ => trivial
  have fill (ms es : List Move) (key : String) (a : Option Document)
      (h₀ : (reached ms).cache.get? key = none)
      (ha : (reached (ms ++ es)).resolved.get? key = some a) :=
    cached_answered (sound _) (steps ms es).delivered h₀ ha
  have unknown (r : Resolver) (key : String) (h : r.cache.get? key = none) :
      r.resolved.get? key = none := by rw [resolved_get?, h]; rfl
  refine ⟨fun key a ha => ?_, fun key q hq => ?_, fun key m hm => ?_⟩
  · obtain ⟨n, u, hn, hr, hu, -⟩ := fill [] ms key a rfl ha
    refine ⟨n.query, n.task, u, hr, latestLookup_of_newest (sound ms) hn, ?_, hu,
      answered_resolves (reached_sound ms fun _ t h => ⟨t, h⟩) hu⟩
    rintro before m after rfl hm
    have hgone : (reached (before ++ [m])).newest.get? key = none := by
      rw [reached_append]
      exact (forgets_forgotten (reached before) hm).2
    have hms : before ++ m :: after = before ++ [m] ++ after := by simp
    rw [hms] at hn
    exact Nat.le_trans (steps before [m]).keeps.length_le
      ((steps (before ++ [m]) after).newest_ge hgone hn)
  · have hgone : (reached (ms ++ [.schedule key q])).cache.get? key = none := by
      rw [reached_append]
      exact schedule_absent (sound ms) hq
    refine ⟨unknown _ _ hgone, fun es a ha => ?_⟩
    obtain ⟨n, u, hn, -, hu, ho⟩ := fill _ es key a hgone ha
    exact ⟨n.task, n.query, u, latestLookup_of_newest (sound _) hn, hu, ho⟩
  · have hgone : (reached (ms ++ [m])).Forgotten key := by
      rw [reached_append]
      exact forgets_forgotten (reached ms) hm
    refine ⟨unknown _ _ hgone.1, fun h => ?_, fun hasks es a ha => ?_⟩
    · rintro ⟨t, k, q, number, left, hk, hj, hp⟩
      obtain ⟨hfill, hnot⟩ := late_answer_cached hgone hk hj hp
      obtain ⟨u, q', hu, hans⟩ := h [.schedule key q, .turn late t] none (by rwa [reached_append])
      exact hnot u q' none hu (by rwa [reached_append] at hans)
    · obtain ⟨n, u, -, -, hu, ho⟩ := fill _ es key a hgone.1 ha
      exact ⟨u, n.query,
        started_after_forgotten (sound _) hgone hasks (steps _ es) hu ho, hu⟩

/-- A lookup that was cancelled because its key was forgotten, and answers all the same, fills the
cache while the only lookup started since has not even begun. -/
theorem forgotten_key_filled_by_cancelled_lookup :
    let q : LinkQuery := ⟨.text "X-1", ["a"]⟩
    let d : Document := { number := .text "X-1", typeId := "a", id := some "1" }
    let stubborn : Catalog :=
      { replyTo _ _ := .found d, isOpen _ := false, heed _ := .answers }
    let forgotten : List Move := [.schedule "k" q, .turn stubborn 0, .invalidate "k"]
    let es : List Move := [.schedule "k" q, .turn stubborn 0]
    (reached forgotten).resolved.get? "k" = none ∧ (reached forgotten).tasks.length = 1 ∧
    (reached (forgotten ++ es)).resolved.get? "k" = some (some d) ∧
    (reached (forgotten ++ es)).tasks.length = 2 ∧ (reached (forgotten ++ es)).outcome? 1 = none := by
  decide +kernel

end DocForms.Resolver
