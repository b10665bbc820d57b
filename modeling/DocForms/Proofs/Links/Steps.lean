import DocForms.Proofs.Links.Board

/-! The steps that the moves of a resolver are made of, and what one step keeps. -/
namespace DocForms

/-- What a search for a number in types comes to when catalogs of `C` answer its queries. -/
inductive Finds (C : Catalog → Prop) (number : String) : List String → Option Document → Prop
  | exhausted : Finds C number [] none
  | hit {c : Catalog} {type : String} {left : List String} {d : Document} (hc : C c)
      (h : c.replyTo type number = .found d) : Finds C number (type :: left) (some d)
  | miss {c : Catalog} {type : String} {left : List String} {a : Option Document} (hc : C c)
      (h : c.replyTo type number = .missing ∨ c.replyTo type number = .failed)
      (rest : Finds C number left a) : Finds C number (type :: left) a

/-- A search that finds a document has been answered with it, for one of the types. -/
theorem Finds.found {C : Catalog → Prop} {number : String} {types : List String} {d : Document}
    (h : Finds C number types (some d)) :
    ∃ type ∈ types, ∃ c, C c ∧ c.replyTo type number = .found d := by
  generalize ha : some d = a at h
  induction h with
  | exhausted => cases ha
  | hit hc hfound =>
    obtain rfl := Option.some.inj ha
    exact ⟨_, List.mem_cons_self .., _, hc, hfound⟩
  | miss _ _ _ ih =>
    obtain ⟨type, htype, hfound⟩ := ih ha
    exact ⟨type, List.mem_cons_of_mem _ htype, hfound⟩

/-- What the lookup for a query comes to when catalogs of `C` answer. -/
def LinkQuery.Resolves (C : Catalog → Prop) (q : LinkQuery) (a : Option Document) : Prop :=
  match wanted? q.number with
  | .ok none => a = none
  | .ok (some number) => Finds C number q.types a
  | .error _ => False

/-- Where the search for a query can stand when catalogs of `C` answer: an end is justified, and
what is left to ask decides the answer. -/
def Search.Serves (C : Catalog → Prop) (q : LinkQuery) : Search → Prop
  | .ended (.answer a) => q.Resolves C a
  | .ended .cancelled => ∃ c, C c ∧ ∃ type number, c.replyTo type number = .withdrawn
  | .ended (.failed e) => LinkQuery.wanted? q.number = .error e
  | .asking number left => LinkQuery.wanted? q.number = .ok (some number) ∧
      ∀ a, Finds C number left a → Finds C number q.types a

namespace Catalog
variable {C : Catalog → Prop} {c : Catalog} {q : LinkQuery} {number : String}

theorem search_serves (hc : C c) (hw : LinkQuery.wanted? q.number = .ok (some number))
    (left : List String) (hl : ∀ a, Finds C number left a → Finds C number q.types a) :
    (c.search number left).2.Serves C q := by
  have answer (a : Option Document) (ha : Finds C number left a) :
      (Search.ended (.answer a)).Serves C q := by
    simpa [Search.Serves, LinkQuery.Resolves, hw] using hl a ha
  induction left with
  | nil => exact answer none .exhausted
  | cons type left ih =>
    unfold search
    split
    · cases hr : c.replyTo type number with
      | found d => exact answer (some d) (.hit hc hr)
      | withdrawn => exact ⟨c, hc, type, number, hr⟩
      | missing =>
        exact ih (fun a ha => hl a (.miss hc (.inl hr) ha)) fun a ha => answer a (.miss hc (.inl hr) ha)
      | failed =>
        exact ih (fun a ha => hl a (.miss hc (.inr hr) ha)) fun a ha => answer a (.miss hc (.inr hr) ha)
    · exact ⟨hw, hl⟩

theorem goOn_serves (hc : C c) (left : List String) (h : (Search.asking number left).Serves C q) :
    (c.goOn number left).2.Serves C q := by
  obtain ⟨hw, hl⟩ := h
  have answer (a : Option Document) (ha : Finds C number left a) :
      (Search.ended (.answer a)).Serves C q := by
    simpa [Search.Serves, LinkQuery.Resolves, hw] using hl a ha
  cases left with
  | nil => exact answer none .exhausted
  | cons type left =>
    cases hr : c.replyTo type number <;> simp only [goOn, hr]
    case found d => exact answer (some d) (.hit hc hr)
    case withdrawn => exact ⟨c, hc, type, number, hr⟩
    case missing => exact search_serves hc hw left fun a ha => hl a (.miss hc (.inl hr) ha)
    case failed => exact search_serves hc hw left fun a ha => hl a (.miss hc (.inr hr) ha)

theorem begin_serves (hc : C c) (q : LinkQuery) :
    (c.begin q.number (.ok q.types)).2.Serves C q := by
  unfold begin
  cases hw : LinkQuery.wanted? q.number with
  | error e => exact hw
  | ok wanted =>
    cases wanted with
    | none => simp [Search.Serves, LinkQuery.Resolves, hw]
    | some number => exact search_serves hc hw q.types fun _ ha => ha

end Catalog

/-- The phases that a task with the job can be in. -/
def Job.Allows (C : Catalog → Prop) : Job → Phase → Prop
  | _, .fresh => True
  | .lookup _ q, .asking number left => (Search.asking number left).Serves C q
  | .lookup _ q, .finished o => o = .cancelled ∨ (Search.ended o).Serves C q
  | .search _ _, .asking _ _ => True
  | .search _ _, .finished _ => True
  | .await _ _ _, .awaiting _ => True
  | .await _ _ _, .finished _ => True
  | .settle, .gathering _ => True
  | .settle, .finished _ => True
  | _, _ => False

namespace Task
variable {C : Catalog → Prop} {k k₁ k₂ k₃ : Task}

/-- A task that can go on: one that was cancelled before its first turn cannot. -/
def Live (k : Task) : Prop := k.phase = .fresh → k.cancelAsked = false

/-- What becomes of a task: it keeps its job, is not taken up again once it has ended, and ends
without a result if it was cancelled before its first turn. -/
structure Evolves (C : Catalog → Prop) (k₁ k₂ : Task) : Prop where
  job : k₂.job = k₁.job
  allowed : k₁.job.Allows C k₁.phase → k₂.job.Allows C k₂.phase
  finished : k₁.isFinished = true → k₂ = k₁
  fresh : k₂.phase = .fresh → k₁.phase = .fresh
  doomed : k₁.phase = .fresh → k₁.cancelAsked = true →
    k₂.phase = .fresh ∧ k₂.cancelAsked = true ∨ k₂.phase = .finished .cancelled

theorem isFinished_iff : k.isFinished = true ↔ ∃ o, k.phase = .finished o := by
  unfold isFinished outcome?
  split <;> simp_all

theorem Evolves.refl (k : Task) : Evolves C k k :=
  ⟨rfl, id, fun _ => rfl, id, fun h ha => .inl ⟨h, ha⟩⟩

theorem Evolves.trans (h : Evolves C k₁ k₂) (h' : Evolves C k₂ k₃) : Evolves C k₁ k₃ where
  job := h'.job.trans h.job
  allowed := h'.allowed ∘ h.allowed
  finished hf := by
    have he := h.finished hf
    rw [h'.finished (he ▸ hf), he]
  fresh := h.fresh ∘ h'.fresh
  doomed hp ha := by
    rcases h.doomed hp ha with ⟨hp', ha'⟩ | hc
    · exact h'.doomed hp' ha'
    · right
      rw [h'.finished (isFinished_iff.mpr ⟨_, hc⟩), hc]

theorem Evolves.unfinished (h : Evolves C k₁ k₂) (hu : k₂.isFinished = false) :
    k₁.isFinished = false := by
  rw [← Bool.not_eq_true]
  intro hf
  rw [h.finished hf, hf] at hu
  cases hu

theorem evolves_interrupted (k : Task) : Evolves C k k.interrupted where
  job := k.interrupted_job
  allowed h := by simpa using h
  finished := interrupted_of_finished
  fresh h := by simpa using h
  doomed hp ha := by
    refine .inl ⟨by simp [hp], ?_⟩
    unfold interrupted
    split <;> simp [ha]

theorem evolves_calm {number : String} {left : List String} (h : k.phase = .asking number left) :
    Evolves C k { k with cancelAsked := false } where
  job := rfl
  allowed := id
  finished hf := by simp [isFinished_iff, h] at hf
  fresh := id
  doomed hp := by simp [h] at hp

theorem evolves_phase {p : Phase} (hl : k.Live) (hu : k.isFinished = false) (hp : p ≠ .fresh)
    (ha : k.job.Allows C p) : Evolves C k { k with phase := p } where
  job := rfl
  allowed _ := ha
  finished hf := by simp [hu] at hf
  fresh h := absurd h hp
  doomed hp hc := by simp [hl hp] at hc

theorem evolves_quit (hu : k.isFinished = false) :
    Evolves C k { k with phase := .finished .cancelled } where
  job := rfl
  allowed _ := by cases k.job <;> simp [Job.Allows]
  finished hf := by simp [hu] at hf
  fresh h := by simp at h
  doomed _ _ := .inr rfl

end Task

namespace Board

/-- Every task of the first list evolves into the one in its place in the second. -/
def Keeps (C : Catalog → Prop) (ks ks' : List Task) : Prop :=
  ∀ (t : Nat) (k : Task), ks[t]? = some k → ∃ k', ks'[t]? = some k' ∧ k.Evolves C k'

section Keeps
variable {C : Catalog → Prop} {ks ks₁ ks₂ ks₃ : List Task}

theorem Keeps.refl (ks : List Task) : Keeps C ks ks := fun _ k hk => ⟨k, hk, .refl k⟩

theorem Keeps.trans (h : Keeps C ks₁ ks₂) (h' : Keeps C ks₂ ks₃) : Keeps C ks₁ ks₃ := by
  intro t k hk
  obtain ⟨k₂, hk₂, he⟩ := h t k hk
  obtain ⟨k₃, hk₃, he'⟩ := h' t k₂ hk₂
  exact ⟨k₃, hk₃, he.trans he'⟩

theorem Keeps.length_le (h : Keeps C ks₁ ks₂) : ks₁.length ≤ ks₂.length := by
  refine Nat.le_of_not_lt fun hlt => ?_
  obtain ⟨k', hk', -⟩ := h ks₂.length _ (List.getElem?_eq_getElem hlt)
  simp at hk'

theorem Keeps.of_lt (h : Keeps C ks₁ ks₂) {t : Nat} (ht : t < ks₁.length) {k' : Task}
    (hk' : ks₂[t]? = some k') : ∃ k, ks₁[t]? = some k ∧ k.Evolves C k' := by
  have hk := List.getElem?_eq_getElem ht
  obtain ⟨k₂, hk₂, he⟩ := h t _ hk
  obtain rfl := Option.some.inj (hk₂.symm.trans hk')
  exact ⟨_, hk, he⟩

theorem keeps_modify {t : Nat} {f : Task → Task}
    (h : ∀ k, ks[t]? = some k → Task.Evolves C k (f k)) : Keeps C ks (ks.modify t f) := by
  intro u k hk
  rw [List.getElem?_modify, hk]
  by_cases hu : t = u
  · exact ⟨f k, by simp [hu], h k (hu ▸ hk)⟩
  · exact ⟨k, by simp [hu], .refl k⟩

theorem keeps_append (ks new : List Task) : Keeps C ks (ks ++ new) := fun t k hk =>
  ⟨k, by rw [List.getElem?_append_left (List.getElem?_eq_some_iff.mp hk).1, hk], .refl k⟩

end Keeps

variable {C : Catalog → Prop} {X : Prop} {b b' : Board} {t : Nat}

/-- What a lookup or a settling task ends with when it is not cancelled. -/
def Earns (C : Catalog → Prop) (b : Board) (job : Job) (o : Outcome) : Prop :=
  match job with
  | .lookup _ q => (Search.ended o).Serves C q
  | .settle => o = .answer none ∧ b.running = []
  | _ => True

/-- A step of one task: it takes back that it was cancelled because the catalog does not give up, asks,
waits for other tasks, gives up because it was cancelled, or ends with what it has earned. -/
inductive Progress (C : Catalog → Prop) (t : Nat) (b : Board) : Board → Prop
  | calm {k : Task} {number : String} {left : List String} (hk : b.tasks[t]? = some k)
      (hp : k.phase = .asking number left)
      (hh : k.cancelAsked = true → ∃ c, C c ∧ c.heed number ≠ .givesUp) : Progress C t b (b.calm t)
  | enter {k : Task} {p : Phase} (hk : b.tasks[t]? = some k)
      (hu : k.isFinished = false) (hl : k.Live) (hp : p ≠ .fresh) (ho : ∀ o, p ≠ .finished o)
      (ha : k.job.Allows C p) : Progress C t b (b.setPhase t p)
  | quit {k : Task} (hk : b.tasks[t]? = some k) (hu : k.isFinished = false)
      (ha : k.cancelAsked = true) : Progress C t b (b.finish t k.job .cancelled)
  | earn {k : Task} {o : Outcome} (hk : b.tasks[t]? = some k)
      (hu : k.isFinished = false) (hl : k.Live) (he : b.Earns C k.job o) :
      Progress C t b (b.finish t k.job o)

/-- A step of a resolver. Tasks are only cancelled from outside if `X` holds. -/
inductive Step (C : Catalog → Prop) (X : Prop) (b : Board) : Board → Prop
  | progress {t : Nat} {b' : Board} (h : Progress C t b b') : Step C X b b'
  | supersede (key : String) (q : LinkQuery) : Step C X b (b.supersede key q)
  | forget (key : String) : Step C X b (b.forget key)
  | spawn (job : Job) (h : ∀ key q, job ≠ .lookup key q) : Step C X b (b.spawn job)
  | interrupt (hx : X) (t : Nat) : Step C X b (b.interrupt t)

/-! ### The tasks -/

theorem keeps_interrupt (b : Board) (t : Nat) : Keeps C b.tasks (b.interrupt t).tasks :=
  keeps_modify fun k _ => k.evolves_interrupted

theorem keeps_interruptNewest (b : Board) (key : String) :
    Keeps C b.tasks (b.interruptNewest key).tasks := by
  unfold interruptNewest
  split
  · exact b.keeps_interrupt _
  · exact .refl _

theorem Earns.allows {job : Job} {o : Outcome} (h : b.Earns C job o) :
    job.Allows C (.finished o) := by
  cases job with
  | lookup key q => exact .inr h
  | _ => trivial

theorem Progress.keeps (h : Progress C t b b') : Keeps C b.tasks b'.tasks := by
  cases h with
  | calm hk hp =>
    exact keeps_modify fun k' hk' => by
      obtain rfl : _ = k' := by simpa [hk] using hk'
      exact Task.evolves_calm hp
  | enter hk hu hl hp ho ha =>
    exact keeps_modify fun k' hk' => by
      obtain rfl : _ = k' := by simpa [hk] using hk'
      exact Task.evolves_phase hl hu hp ha
  | quit hk hu ha =>
    exact keeps_modify fun k' hk' => by
      obtain rfl : _ = k' := by simpa [hk] using hk'
      exact Task.evolves_quit hu
  | earn hk hu hl he =>
    exact keeps_modify fun k' hk' => by
      obtain rfl : _ = k' := by simpa [hk] using hk'
      exact Task.evolves_phase hl hu (by simp) he.allows

theorem Step.keeps (h : Step C X b b') : Keeps C b.tasks b'.tasks := by
  cases h with
  | progress h => exact h.keeps
  | supersede key q => exact (b.keeps_interruptNewest key).trans (keeps_append _ _)
  | forget key => exact b.keeps_interruptNewest key
  | spawn job _ => exact keeps_append _ _
  | interrupt hx t => exact b.keeps_interrupt t

theorem Progress.length (h : Progress C t b b') : b'.tasks.length = b.tasks.length := by
  cases h <;> simp [Board.calm, setPhase, finish]

theorem Progress.newest (h : Progress C t b b') : b'.newest = b.newest := by
  cases h <;> rfl

theorem Progress.getElem?_ne (h : Progress C t b b') {u : Nat} (hne : t ≠ u) :
    b'.tasks[u]? = b.tasks[u]? := by
  cases h <;> exact List.getElem?_modify_ne _ _ hne

/-- A task that a step has added is untouched, and the newest of its key if it is a lookup. -/
theorem Step.started (h : Step C X b b') {t : Nat} {k : Task} (ht : b.tasks.length ≤ t)
    (hk : b'.tasks[t]? = some k) : t = b.tasks.length ∧ k.phase = .fresh ∧ k.cancelAsked = false ∧
      ∀ key q, k.job = .lookup key q → b'.newest.get? key = some ⟨t, q⟩ := by
  have hlt : t < b'.tasks.length := (List.getElem?_eq_some_iff.mp hk).1
  cases h with
  | progress h => rw [h.length] at hlt; omega
  | forget key => simp only [Board.forget, interruptNewest_length] at hlt; omega
  | interrupt hx u => simp only [Board.interrupt, List.length_modify] at hlt; omega
  | supersede key q =>
    obtain rfl : t = b.tasks.length := by simp [Board.supersede, Board.spawn] at hlt; omega
    obtain rfl : _ = k := by simpa [Board.supersede, Board.spawn] using hk
    refine ⟨rfl, rfl, rfl, fun key' q' hj => ?_⟩
    obtain ⟨rfl, rfl⟩ : key = key' ∧ q = q' := by simpa using hj
    exact Keyed.get?_put_self ..
  | spawn job hjob =>
    obtain rfl : t = b.tasks.length := by simp [Board.spawn] at hlt; omega
    obtain rfl : _ = k := by simpa [Board.spawn] using hk
    exact ⟨rfl, rfl, rfl, fun key q hj => absurd hj (hjob key q)⟩

theorem interruptNewest_asked {key : String} {n : Newest} (hn : b.newest.get? key = some n) {k : Task}
    (hk : (b.interruptNewest key).tasks[n.task]? = some k) :
    k.isFinished = true ∨ k.cancelAsked = true := by
  simp only [interruptNewest, hn, interrupt, List.getElem?_modify_eq] at hk
  obtain ⟨k₀, -, rfl⟩ := Option.map_eq_some_iff.mp hk
  cases hf : k₀.isFinished with
  | true => exact .inl (by rw [Task.interrupted_of_finished hf, hf])
  | false => exact .inr (Task.interrupted_cancelAsked hf)

/-! ### The newest lookups and the cache -/

/-- A step leaves the newest lookup of a key in place, or cancels it and starts another one or
none. -/
theorem Step.newest_cases (h : Step C X b b') (key : String) :
    b'.newest.get? key = b.newest.get? key ∨
    (∀ n k, b.newest.get? key = some n → b'.tasks[n.task]? = some k →
      n.task < b.tasks.length → k.isFinished = true ∨ k.cancelAsked = true) ∧
    (b'.newest.get? key = none ∨ ∃ q k, b'.newest.get? key = some ⟨b.tasks.length, q⟩ ∧
      b'.tasks[b.tasks.length]? = some k ∧ k.job = .lookup key q) := by
  cases h with
  | progress h => exact .inl (by rw [h.newest])
  | spawn => exact .inl rfl
  | interrupt => exact .inl rfl
  | supersede key' q =>
    by_cases hkey : key = key'
    · subst hkey
      refine .inr ⟨fun n k hn hk hlt => ?_, .inr ⟨q, { job := .lookup key q },
        Keyed.get?_put_self .., ?_, rfl⟩⟩
      · refine interruptNewest_asked hn ?_
        rwa [Board.supersede, Board.spawn, List.getElem?_append_left (by simpa using hlt)] at hk
      · simp [Board.supersede, Board.spawn]
    · exact .inl (by simp [Board.supersede, Keyed.get?_put, hkey])
  | forget key' =>
    by_cases hkey : key = key'
    · subst hkey
      exact .inr ⟨fun n k hn hk _ => interruptNewest_asked hn hk, .inl (Keyed.get?_erase_self ..)⟩
    · exact .inl (by simp [Board.forget, Keyed.get?_erase, hkey])

/-- What is in the cache after a lookup was started was there before; the entry of the key answers
the query that the lookup is for. -/
theorem supersede_cached {key key' : String} {q : LinkQuery} {e : CacheEntry}
    (h : (b.supersede key q).cache.get? key' = some e) :
    b.cache.get? key' = some e ∧ (key' = key → e.query = q) := by
  simp only [supersede] at h
  split at h
  · rename_i ha
    refine ⟨h, ?_⟩
    rintro rfl
    simpa [answers, h] using ha
  · rw [Keyed.get?_erase] at h
    split at h
    · cases h
    · exact ⟨h, fun hk => absurd hk ‹_›⟩

/-- A task that ends puts nothing in the cache but its answer, under the key of its lookup, whose
newest lookup is for the same query. -/
theorem finish_cached {t : Nat} {job : Job} {o : Outcome} {key : String} {e : CacheEntry}
    (h : (b.finish t job o).cache.get? key = some e) :
    b.cache.get? key = some e ∨ job = .lookup key e.query ∧ o = .answer e.document ∧
      ∃ n, b.newest.get? key = some n ∧ n.query = e.query := by
  simp only [finish, keep] at h
  split at h
  · rename_i key' q d
    split at h
    · rename_i hn
      rw [Keyed.get?_put] at h
      split at h
      · cases h
        subst_vars
        exact .inr ⟨rfl, rfl, by simpa [Option.any_eq_true] using hn⟩
      · exact .inl h
    · exact .inl h
  · exact .inl h

theorem outcome?_eq_some {t : Nat} {o : Outcome} :
    b.outcome? t = some o ↔ ∃ k, b.tasks[t]? = some k ∧ k.phase = .finished o := by
  simp only [outcome?, Option.bind_eq_some_iff, Task.outcome?]
  refine exists_congr fun k => and_congr_right fun _ => ?_
  split <;> simp_all

theorem Keeps.outcome? (h : Keeps C b.tasks b'.tasks) {t : Nat} {o : Outcome}
    (ho : b.outcome? t = some o) : b'.outcome? t = some o := by
  obtain ⟨k, hk, hp⟩ := outcome?_eq_some.mp ho
  obtain ⟨k', hk', he⟩ := h t k hk
  obtain rfl := he.finished (Task.isFinished_iff.mpr ⟨o, hp⟩)
  exact outcome?_eq_some.mpr ⟨k', hk', hp⟩

/-! ### Where cached answers come from -/

/-- What is in the cache of the second board was there on the first, or is what a lookup for its
key and query that had not ended on the first board has ended with since. -/
def Delivered (b b' : Board) : Prop :=
  ∀ key e, b'.cache.get? key = some e → b.cache.get? key = some e ∨
    ∃ (t : Nat) (k : Task), b'.tasks[t]? = some k ∧ k.job = .lookup key e.query ∧
      k.phase = .finished (.answer e.document) ∧ b.outcome? t = none

theorem Step.delivered (h : Step C X b b') : Delivered b b' := by
  intro key e he
  cases h with
  | spawn => exact .inl he
  | interrupt => exact .inl he
  | supersede key' q => exact .inl (supersede_cached he).1
  | forget key' =>
    simp only [Board.forget, Keyed.get?_erase] at he
    split at he
    · cases he
    · exact .inl he
  | @progress t _ h =>
    cases h with
    | calm => exact .inl he
    | enter => exact .inl he
    | quit => exact .inl ((finish_cached he).resolve_right (by simp))
    | @earn k o hk hu =>
      rcases finish_cached he with he | ⟨hj, rfl, -⟩
      · exact .inl he
      · refine .inr ⟨t, { k with phase := .finished (.answer e.document) }, ?_, hj, rfl, ?_⟩
        · simp [finish, setPhase, hk]
        · simpa [outcome?, hk, Task.isFinished] using hu

end Board
end DocForms
