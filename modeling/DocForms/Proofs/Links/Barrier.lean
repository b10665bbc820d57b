import DocForms.Proofs.Links.Requests
import DocForms.Proofs.Links.Settling

/-! The end of a wait for all lookups. However keys are scheduled, looked up and forgotten while a
task waits, when it ends no newest lookup is running, and what is wanted of every key is known unless
the catalog itself cancelled the lookup. -/
namespace DocForms

namespace Board
variable {C : Catalog → Prop} {b b' : Board} {t : Nat} {key : String}

/-- A newest lookup that has ended came to an end of its search, and its answer is in the cache. -/
def Attended (C : Catalog → Prop) (b : Board) : Prop :=
  ∀ (key : String) (n : Newest) (o : Outcome), b.newest.get? key = some n →
    b.outcome? n.task = some o →
    (Search.ended o).Serves C n.query ∧ ∀ a, o = .answer a → b.answers key n.query = true

theorem outcome?_of_unfinished {k : Task} (hk : b.tasks[t]? = some k) :
    b.outcome? t = none ↔ k.isFinished = false := by
  rw [outcome?, hk, Option.bind_some, Task.isFinished, Option.isSome_eq_false_iff,
    Option.isNone_iff_eq_none]

/-- A step that ends the newest lookup of a key, which nobody has cancelled, ends it with what its
search came to. -/
theorem Progress.attends (hs : Sound C b) (hu : b.Undisturbed) {u : Nat} (h : Progress C u b b')
    {n : Newest} {o : Outcome} (hn : b.newest.get? key = some n) (h₀ : b.outcome? n.task = none)
    (ho : b'.outcome? n.task = some o) :
    (Search.ended o).Serves C n.query ∧ ∀ a, o = .answer a → b'.answers key n.query = true := by
  obtain ⟨k, hk, hj⟩ := hs.newest key n hn
  have hrun : k.isFinished = false := (outcome?_of_unfinished hk).mp h₀
  obtain ⟨k', hk', hp'⟩ := outcome?_eq_some.mp ho
  have ht : u = n.task := by
    by_contra hne
    rw [outcome?, h.getElem?_ne hne] at ho
    rw [outcome?, ho] at h₀
    cases h₀
  subst ht
  cases h with
  | calm hk₁ hp =>
    simp only [Board.calm, List.getElem?_modify_eq, hk] at hk'
    obtain rfl := Option.some.inj hk'
    obtain rfl := Option.some.inj (hk.symm.trans hk₁)
    rw [hp] at hp'
    cases hp'
  | enter hk₁ hu₁ hl hp hno ha =>
    simp only [setPhase, List.getElem?_modify_eq, hk] at hk'
    obtain rfl := Option.some.inj hk'
    exact absurd hp' (hno o)
  | quit hk₁ hu₁ ha =>
    obtain rfl := Option.some.inj (hk.symm.trans hk₁)
    rw [hu key n k hn hk hrun] at ha
    cases ha
  | @earn k₁ o₁ hk₁ hu₁ hl he =>
    obtain rfl := Option.some.inj (hk.symm.trans hk₁)
    simp only [finish, setPhase, List.getElem?_modify_eq, hk] at hk'
    obtain rfl := Option.some.inj hk'
    obtain rfl := Phase.finished.inj hp'
    simp only [Earns, hj] at he
    refine ⟨he, ?_⟩
    rintro a rfl
    simp [Board.answers, Board.finish, Board.keep, hj, hn]

theorem Attended.progress (hs : Sound C b) (hu : b.Undisturbed) (hb : b.Attended C) {u : Nat}
    (h : Progress C u b b') : b'.Attended C := by
  intro key n o hn ho
  rw [h.newest] at hn
  cases h₀ : b.outcome? n.task with
  | none => exact h.attends hs hu hn h₀ ho
  | some o₀ =>
    obtain rfl := Option.some.inj ((h.keeps.outcome? h₀).symm.trans ho)
    obtain ⟨hserves, hans⟩ := hb key n o₀ hn h₀
    refine ⟨hserves, ?_⟩
    intro a ha
    exact h.answers hn rfl (hans a ha)

theorem answers_of_cache {key : String} {q : LinkQuery}
    (h : b'.cache.get? key = b.cache.get? key) : b'.answers key q = b.answers key q := by
  rw [answers, answers, h]

theorem Attended.step (hs : Sound C b) (hu : b.Undisturbed) (hb : b.Attended C)
    (h : Step C False b b') : b'.Attended C := by
  cases h with
  | progress h => exact hb.progress hs hu h
  | interrupt hx => exact hx.elim
  | spawn job =>
    intro key n o hn ho
    rw [outcome?_spawn] at ho
    exact hb key n o hn ho
  | forget key' =>
    intro key n o hn ho
    rw [Board.forget, Keyed.get?_erase] at hn
    split at hn
    · cases hn
    · rename_i hne
      have hcache : (b.forget key').cache.get? key = b.cache.get? key := by
        rw [Board.forget, Keyed.get?_erase, if_neg hne]
      have ho₀ : b.outcome? n.task = some o := by
        rw [← outcome?_interruptNewest b key' n.task]
        exact ho
      rw [answers_of_cache hcache]
      exact hb key n o hn ho₀
  | supersede key' q =>
    intro key n o hn ho
    rw [supersede_outcome?] at ho
    rw [Board.supersede, Keyed.get?_put] at hn
    split at hn
    · -- the new lookup has not even begun
      obtain rfl := Option.some.inj hn
      obtain ⟨k, hk, -⟩ := outcome?_eq_some.mp ho
      exact absurd (List.getElem?_eq_some_iff.mp hk).1 (Nat.lt_irrefl _)
    · rename_i hne
      rw [answers_of_cache (cache_supersede_ne hne q)]
      exact hb key n o hn ho

theorem Attended.steps (hs : Sound C b) (hu : b.Undisturbed) (hb : b.Attended C)
    (h : Steps C False b b') : b'.Attended C := by
  induction h with
  | refl => exact hb
  | tail hsteps h ih => exact ih.step (hs.steps hsteps) (hu.steps hs hsteps) h

/-! ### Nothing is running -/

theorem running_keeps (hn : b'.newest = b.newest) (hk : Keeps C b.tasks b'.tasks)
    (h : b.running = []) : b'.running = [] := by
  rw [running, List.filter_eq_nil_iff] at h ⊢
  rw [hn]
  intro u hu
  have hended := h u hu
  simp only [Bool.not_eq_eq_eq_not, Bool.not_true, Bool.not_eq_false, Option.isSome_iff_exists]
    at hended ⊢
  obtain ⟨o, ho⟩ := hended
  exact ⟨o, hk.outcome? ho⟩

end Board

namespace Resolver
open Board (Sound Attended)
variable {C : Catalog → Prop} {c : Catalog} {r : Resolver} {key : String} {q : LinkQuery} {t : Nat}
  {k : Task} {ms : List Move}

/-- A task that waits for all lookups returns at a turn at which none is running. -/
theorem running_of_settled (hs : Sound C r.board) (hk : r.tasks[t]? = some k) (hj : k.job = .settle)
    (h₀ : r.outcome? t = none) (h₁ : (r.turn c t).outcome? t = some (.answer none)) :
    r.running = [] := by
  obtain ⟨r', hb, hsome, -⟩ := turn_cases c r t
  have hk' : r'.tasks[t]? = some k := by
    rw [← board_tasks, hb]
    exact hk
  have hlt : t < r'.board.tasks.length := (List.getElem?_eq_some_iff.mp hk').1
  have hcancelled (job : Job) : (r'.finish t job .cancelled).outcome? t = some .cancelled := by
    rw [← board_outcome?, board_finish]
    exact finish_outcome? hlt job .cancelled
  have hgather (h : (r'.gather t).outcome? t = some (.answer none)) : r.running = [] := by
    rw [← board_running, ← hb, board_running]
    unfold gather at h
    split at h
    · assumption
    · rw [outcome?, modify, List.getElem?_modify_eq, hk'] at h
      cases h
  have hu := hs.allowed t k hk
  rw [hsome k hk, step] at h₁
  split at h₁
  · split at h₁
    · rw [hcancelled] at h₁
      cases h₁
    · simp only [begin, hj] at h₁
      exact hgather h₁
  · rename_i hp
    rw [hj, hp] at hu
    exact hu.elim
  · rename_i hp
    rw [hj, hp] at hu
    exact hu.elim
  · split at h₁
    · rw [hcancelled] at h₁
      cases h₁
    · exact hgather h₁
  · rename_i o hp
    rw [outcome?, hk, Option.bind_some, Task.outcome?, hp] at h₀
    cases h₀

theorem reached_attended (ms : List Move) (hC : ∀ c t, .turn c t ∈ ms → C c)
    (hx : ∀ u, .cancel u ∉ ms) : (reached ms).board.Attended C := by
  have hundisturbed : (reached []).board.Undisturbed := fun key n k hn => by cases hn
  have hempty : (reached []).board.Attended C := fun key n o hn => by cases hn
  exact hempty.steps Board.sound_empty hundisturbed (reached_steps (C := C) (X := False) [] ms hC hx)

/-- Where nothing is running, what is wanted of a key is known, or its lookup was cancelled by the
catalog, or its number is no text. -/
theorem known_of_running (hs : Sound C r.board) (hb : r.board.Attended C) (hr : r.running = [])
    (hq : r.asked? key = some q) : ∃ u o, r.LatestLookup key u q ∧ r.outcome? u = some o ∧
      (o = .cancelled → ∃ c, C c ∧ ∃ type number, c.replyTo type number = .withdrawn) ∧
      (o ≠ .cancelled → (∀ e, LinkQuery.wanted? q.number ≠ .error e) →
        ∃ a, r.resolved.get? key = some a ∧ r.recorded? key = some q ∧ q.Resolves C a) := by
  obtain ⟨n, hn, rfl⟩ := asked?_eq_some.mp hq
  obtain ⟨o, ho⟩ := Board.ended_of_running (b := r.board) hr hn
  obtain ⟨hserves, hans⟩ := hb key n o hn ho
  refine ⟨n.task, o, latestLookup_of_newest hs hn, ho, ?_, ?_⟩
  · rintro rfl
    exact hserves
  · intro hne htext
    cases o with
    | cancelled => exact absurd rfl hne
    | failed e => exact absurd hserves (htext e)
    | answer a =>
      obtain ⟨e, he, heq⟩ := Board.answers_iff.mp (hans a rfl)
      refine ⟨e.document, ?_, ?_, ?_⟩
      · rw [resolved_get?, ← board_cache, he]
        rfl
      · rw [recorded?, ← board_cache, he, Option.map_some, heq]
      · rw [← heq]
        exact hs.found key e he

/-- However keys are scheduled, looked up and forgotten before and while a task waits for all
lookups, when it returns no newest lookup is running. Whatever is wanted of a key then has its last
lookup ended, and the cache holds an answer to it unless a catalog cancelled that lookup. Nobody is
to cancel tasks from outside, and the number is to be a text. -/
theorem settle_barrier (hx : ∀ u, .cancel u ∉ ms) (hk : (reached ms).tasks[t]? = some k)
    (hj : k.job = .settle) (h₀ : (reached ms).outcome? t = none)
    (h₁ : (reached (ms ++ [.turn c t])).outcome? t = some (.answer none)) :
    (reached (ms ++ [.turn c t])).running = [] ∧
    ∀ key q, wants (ms ++ [.turn c t]) key = some q → ∃ u o,
      (reached (ms ++ [.turn c t])).LatestLookup key u q ∧
      (reached (ms ++ [.turn c t])).outcome? u = some o ∧
      (o = .cancelled → ∃ c', Move.Met (ms ++ [.turn c t]) c' ∧
        ∃ type number, c'.replyTo type number = .withdrawn) ∧
      (o ≠ .cancelled → (∀ e, LinkQuery.wanted? q.number ≠ .error e) → ∃ a,
        (reached (ms ++ [.turn c t])).resolved.get? key = some a ∧
        (reached (ms ++ [.turn c t])).recorded? key = some q ∧
        q.Resolves (Move.Met (ms ++ [.turn c t])) a) := by
  have hmet : ∀ c' u, .turn c' u ∈ ms ++ [.turn c t] → Move.Met (ms ++ [.turn c t]) c' :=
    fun c' u h => ⟨u, h⟩
  have hx' : ∀ u, .cancel u ∉ ms ++ [.turn c t] := by
    intro u hmem
    rcases List.mem_append.mp hmem with hmem | hmem
    · exact hx u hmem
    · cases List.mem_singleton.mp hmem
  have hs : Sound (Move.Met (ms ++ [.turn c t])) (reached ms).board :=
    reached_sound ms fun c' u h => hmet c' u (List.mem_append_left _ h)
  have hc : Move.Met (ms ++ [.turn c t]) c := hmet c t (by simp)
  have hcalls : ¬ (reached ms).Calls t := by
    rintro ⟨k', key, number, types, hk', -, hj'⟩
    obtain rfl := Option.some.inj (hk.symm.trans hk')
    rw [hj] at hj'
    cases hj'
  have hturn : reached (ms ++ [.turn c t]) = (reached ms).turn c t := reached_append ms _
  have hprogress := turn_progresses hs hc hcalls
  have hidle : (reached (ms ++ [.turn c t])).running = [] := by
    rw [hturn] at h₁ ⊢
    exact Board.running_keeps hprogress.newest (hprogress.steps (X := True)).keeps
      (running_of_settled hs hk hj h₀ h₁)
  refine ⟨hidle, ?_⟩
  intro key q hq
  rw [← asked?_reached] at hq
  exact known_of_running (reached_sound _ hmet) (reached_attended _ hmet hx') hidle hq

/-- A catalog without documents, which answers at once or holds its answers back. -/
def bare (answersAtOnce : Bool) : Catalog where
  replyTo _ _ := .missing
  isOpen _ := answersAtOnce

/-- While a task waits for the lookup of a key, something else is asked for under the key, and
another key is asked for and forgotten. -/
def restless : List Move :=
  [.schedule "k" ⟨.text "X-1", ["a"]⟩, .settle, .turn (bare false) 0, .turn (bare false) 1,
    .schedule "k" ⟨.text " Y-1", ["a", "b"]⟩, .schedule "j" ⟨.text "Z-1", ["a"]⟩, .invalidate "j",
    .turn (bare true) 0, .turn (bare true) 1, .turn (bare true) 2]

theorem settle_barrier_restless :
    (reached restless).running = [] ∧ (reached restless).outcome? 1 = none ∧
    (reached (restless ++ [.turn (bare true) 1])).running = [] ∧
    (reached (restless ++ [.turn (bare true) 1])).resolved.get? "k" = some none ∧
    (reached (restless ++ [.turn (bare true) 1])).recorded? "k" =
      some ⟨.text " Y-1", ["a", "b"]⟩ := by
  have hk : (reached restless).tasks[1]? = some { job := .settle, phase := .gathering [2] } := by
    decide +kernel
  have h₀ : (reached restless).outcome? 1 = none := by decide +kernel
  have h₁ : (reached (restless ++ [.turn (bare true) 1])).outcome? 1 = some (.answer none) := by
    decide +kernel
  have hwants : wants (restless ++ [.turn (bare true) 1]) "k" = some ⟨.text " Y-1", ["a", "b"]⟩ := by
    decide +kernel
  have hmissing : ∀ c, Move.Met (restless ++ [.turn (bare true) 1]) c →
      ∀ type number, c.replyTo type number = .missing := by
    rintro c ⟨t, hmem⟩ type number
    simp only [restless, List.cons_append, List.nil_append, List.mem_cons, Move.turn.injEq,
      reduceCtorEq, List.not_mem_nil, or_false, false_or] at hmem
    rcases hmem with ⟨rfl, -⟩ | ⟨rfl, -⟩ | ⟨rfl, -⟩ | ⟨rfl, -⟩ | ⟨rfl, -⟩ | ⟨rfl, -⟩ <;> rfl
  obtain ⟨hidle, hknown⟩ := settle_barrier (by simp [restless]) hk rfl h₀ h₁
  obtain ⟨u, o, -, -, hwithdrawn, hanswer⟩ := hknown "k" _ hwants
  have hlasts : o ≠ .cancelled := by
    intro ho
    obtain ⟨c, hc, type, number, hreply⟩ := hwithdrawn ho
    rw [hmissing c hc type number] at hreply
    cases hreply
  have htext : LinkQuery.wanted? (.text " Y-1") = .ok (some "Y-1") := by decide +kernel
  obtain ⟨-, -, hrecorded, -⟩ := hanswer hlasts (by simp [htext])
  have hnone : (reached (restless ++ [.turn (bare true) 1])).resolved.get? "k" = some none := by
    decide +kernel
  refine ⟨?_, h₀, hidle, hnone, hrecorded⟩
  decide +kernel

end Resolver
end DocForms
