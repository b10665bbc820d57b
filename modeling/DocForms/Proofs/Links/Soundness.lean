import DocForms.Proofs.Links.Steps

/-! What holds on the board of a resolver however its moves are mixed: every step preserves
`Sound`, and every move is made of steps. -/
namespace DocForms

/-- A run of steps. -/
abbrev Board.Steps (C : Catalog → Prop) (X : Prop) : Board → Board → Prop :=
  Relation.ReflTransGen (Board.Step C X)

namespace Board
variable {C : Catalog → Prop} {X : Prop} {b b' b'' : Board}

/-- The invariant of the steps. A cached answer is for the query of the newest lookup of its key,
and that one is the last that was started for the key. Of the lookups that have not taken a turn
yet, only the newest of a key is not cancelled. -/
structure Sound (C : Catalog → Prop) (b : Board) : Prop where
  allowed : ∀ (t : Nat) (k : Task), b.tasks[t]? = some k → k.job.Allows C k.phase
  cached : ∀ key e, b.cache.get? key = some e → ∃ n, b.newest.get? key = some n ∧ n.query = e.query
  found : ∀ key e, b.cache.get? key = some e → e.query.Resolves C e.document
  newest : ∀ key n, b.newest.get? key = some n →
    ∃ k, b.tasks[n.task]? = some k ∧ k.job = .lookup key n.query
  latest : ∀ (key : String) (n : Newest) (t : Nat) (k : Task) (q : LinkQuery),
    b.newest.get? key = some n → b.tasks[t]? = some k → k.job = .lookup key q → t ≤ n.task
  pending : ∀ (t : Nat) (k : Task) (key : String) (q : LinkQuery), b.tasks[t]? = some k →
    k.job = .lookup key q → k.phase = .fresh → k.cancelAsked = false →
    ∃ n, b.newest.get? key = some n ∧ n.task = t
  keys : b.newest.names.Nodup

theorem sound_empty : Sound C ({} : Resolver).board where
  allowed _ _ h := by simp at h
  cached _ _ h := by simp at h
  found _ _ h := by simp at h
  newest _ _ h := by simp at h
  latest _ _ _ _ _ h := by simp at h
  pending _ _ _ _ h := by simp at h
  keys := List.nodup_nil

/-- A task after a step is one of before, or untouched. -/
theorem Step.origin (h : Step C X b b') {t : Nat} {k' : Task} (hk : b'.tasks[t]? = some k') :
    (∃ k, b.tasks[t]? = some k ∧ k.Evolves C k') ∨ t = b.tasks.length ∧ k'.phase = .fresh ∧
      k'.cancelAsked = false ∧ ∀ key q, k'.job = .lookup key q → b'.newest.get? key = some ⟨t, q⟩ := by
  rcases Nat.lt_or_ge t b.tasks.length with hlt | hge
  · exact .inl (h.keeps.of_lt hlt hk)
  · exact .inr (h.started hge hk)

theorem Sound.step_allowed (hs : Sound C b) (h : Step C X b b') (t : Nat) (k' : Task)
    (hk : b'.tasks[t]? = some k') : k'.job.Allows C k'.phase := by
  rcases h.origin hk with ⟨k, hk, he⟩ | ⟨-, hf, -, -⟩
  · exact he.allowed (hs.allowed t k hk)
  · rw [hf]; cases k'.job <;> trivial

theorem Sound.step_cached (hs : Sound C b) (h : Step C X b b') (key : String) (e : CacheEntry)
    (he : b'.cache.get? key = some e) : ∃ n, b'.newest.get? key = some n ∧ n.query = e.query := by
  cases h with
  | progress h =>
    rw [h.newest]
    cases h with
    | calm => exact hs.cached key e he
    | enter => exact hs.cached key e he
    | quit | earn =>
      rcases finish_cached he with he | ⟨-, -, hn⟩
      · exact hs.cached key e he
      · exact hn
  | spawn => exact hs.cached key e he
  | interrupt => exact hs.cached key e he
  | supersede key' q =>
    obtain ⟨he, hq⟩ := supersede_cached he
    by_cases hkey : key = key'
    · exact ⟨⟨b.tasks.length, q⟩, by simp [Board.supersede, hkey], (hq hkey).symm⟩
    · simpa [Board.supersede, Keyed.get?_put, hkey] using hs.cached key e he
  | forget key' =>
    simp only [Board.forget, Keyed.get?_erase] at he ⊢
    split at he
    · cases he
    · rw [if_neg ‹_›]
      exact hs.cached key e he

theorem Sound.step_found (hs : Sound C b) (h : Step C X b b') (key : String) (e : CacheEntry)
    (he : b'.cache.get? key = some e) : e.query.Resolves C e.document := by
  rcases h.delivered key e he with old | ⟨t, k, hk, hj, hp, -⟩
  · exact hs.found key e old
  · simpa [hj, hp, Job.Allows, Search.Serves] using hs.step_allowed h t k hk

theorem Sound.step_newest (hs : Sound C b) (h : Step C X b b') (key : String) (n : Newest)
    (hn : b'.newest.get? key = some n) :
    ∃ k, b'.tasks[n.task]? = some k ∧ k.job = .lookup key n.query := by
  rcases h.newest_cases key with hsame | ⟨-, hnone | ⟨q, k, hnew, hk, hj⟩⟩
  · obtain ⟨k, hk, hj⟩ := hs.newest key n (hsame ▸ hn)
    obtain ⟨k', hk', he⟩ := h.keeps _ k hk
    exact ⟨k', hk', he.job.trans hj⟩
  · simp [hnone] at hn
  · obtain rfl : _ = n := by simpa [hnew] using hn
    exact ⟨k, hk, hj⟩

theorem Sound.step_latest (hs : Sound C b) (h : Step C X b b') (key : String) (n : Newest) (t : Nat)
    (k' : Task) (q : LinkQuery) (hn : b'.newest.get? key = some n) (hk : b'.tasks[t]? = some k')
    (hj : k'.job = .lookup key q) : t ≤ n.task := by
  rcases h.origin hk with ⟨k, hk, he⟩ | ⟨-, -, -, hnew⟩
  · rcases h.newest_cases key with hsame | ⟨-, hnone | ⟨q, -, hnew, -⟩⟩
    · exact hs.latest key n t k q (hsame ▸ hn) hk (he.job ▸ hj)
    · simp [hnone] at hn
    · obtain rfl : _ = n := by simpa [hnew] using hn
      exact Nat.le_of_lt (List.getElem?_eq_some_iff.mp hk).1
  · obtain rfl : _ = n := by simpa [hnew key q hj] using hn
    exact Nat.le_refl _

theorem Sound.step_pending (hs : Sound C b) (h : Step C X b b') (t : Nat) (k' : Task) (key : String)
    (q : LinkQuery) (hk : b'.tasks[t]? = some k') (hj : k'.job = .lookup key q)
    (hf : k'.phase = .fresh) (ha : k'.cancelAsked = false) :
    ∃ n, b'.newest.get? key = some n ∧ n.task = t := by
  rcases h.origin hk with ⟨k, hk₀, he⟩ | ⟨-, -, -, hnew⟩
  · -- the task was pending before: a fresh task that is cancelled stays cancelled
    have hkf := he.fresh hf
    have hka : k.cancelAsked = false := by
      cases hka : k.cancelAsked with
      | false => rfl
      | true => rcases he.doomed hkf hka with ⟨-, h'⟩ | h' <;> simp_all
    obtain ⟨n, hn, rfl⟩ := hs.pending t k key q hk₀ (he.job ▸ hj) hkf hka
    rcases h.newest_cases key with hsame | ⟨hcancelled, -⟩
    · exact ⟨n, by rw [hsame, hn], rfl⟩
    · rcases hcancelled n k' hn hk (List.getElem?_eq_some_iff.mp hk₀).1 with hfin | hask
      · simp [Task.isFinished_iff, hf] at hfin
      · simp [ha] at hask
  · exact ⟨_, hnew key q hj, rfl⟩

theorem Sound.step_keys (hs : Sound C b) (h : Step C X b b') : b'.newest.names.Nodup := by
  cases h with
  | progress h => exact h.newest ▸ hs.keys
  | supersede key q => exact Keyed.nodup_put hs.keys key _
  | forget key => exact Keyed.nodup_erase hs.keys key
  | spawn => exact hs.keys
  | interrupt => exact hs.keys

/-- A step keeps the invariant. -/
theorem Sound.step (hs : Sound C b) (h : Step C X b b') : Sound C b' :=
  ⟨hs.step_allowed h, hs.step_cached h, hs.step_found h, hs.step_newest h, hs.step_latest h,
    hs.step_pending h, hs.step_keys h⟩

theorem Sound.steps (hs : Sound C b) (h : Steps C X b b') : Sound C b' := by
  induction h with
  | refl => exact hs
  | tail _ h ih => exact ih.step h

theorem Steps.keeps (h : Steps C X b b') : Keeps C b.tasks b'.tasks := by
  induction h with
  | refl => exact .refl _
  | tail _ h ih => exact ih.trans h.keeps

/-- The newest lookup of a key was the newest one before, or was started since. -/
theorem Steps.newest_back (h : Steps C X b b') {key : String} {n : Newest}
    (hn : b'.newest.get? key = some n) (hlt : n.task < b.tasks.length) :
    b.newest.get? key = some n := by
  induction h generalizing n with
  | refl => exact hn
  | tail hb h ih =>
    rcases h.newest_cases key with hsame | ⟨-, hnone | ⟨q, -, hnew, -⟩⟩
    · exact ih (hsame ▸ hn) hlt
    · simp [hnone] at hn
    · obtain rfl : _ = n := by simpa [hnew] using hn
      exact absurd (Steps.keeps hb).length_le (Nat.not_le_of_lt hlt)

/-- The newest lookup of a key that had none was started since. -/
theorem Steps.newest_ge (h : Steps C X b b') {key : String} (h₀ : b.newest.get? key = none)
    {n : Newest} (hn : b'.newest.get? key = some n) : b.tasks.length ≤ n.task := by
  refine Nat.le_of_not_lt fun hlt => ?_
  simp [h.newest_back hn hlt] at h₀

theorem Steps.delivered (h : Steps C X b b') : Delivered b b' := by
  induction h with
  | refl => exact fun _ _ he => .inl he
  | tail hb h ih =>
    intro key e he
    rcases h.delivered key e he with he | ⟨t, k, hk, hj, hp, ho⟩
    · rcases ih key e he with he | ⟨t, k, hk, hj, hp, ho⟩
      · exact .inl he
      · obtain ⟨k', hk', hev⟩ := h.keeps t k hk
        obtain rfl := hev.finished (Task.isFinished_iff.mpr ⟨_, hp⟩)
        exact .inr ⟨t, k', hk', hj, hp, ho⟩
    · refine .inr ⟨t, k, hk, hj, hp, Option.eq_none_iff_forall_ne_some.mpr fun o hb' => ?_⟩
      simp [Steps.keeps hb |>.outcome? hb'] at ho

end Board

end DocForms
