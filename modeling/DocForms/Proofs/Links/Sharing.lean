import DocForms.Proofs.Links.Barrier
import DocForms.Proofs.Links.Lingering
import DocForms.Proofs.Links.Queries
import Mathlib.Data.List.Infix

/-! Callers that ask the same share a lookup. However moves are mixed, at most one lookup of a key
runs that nobody has asked to end, and it is the last one started for the key, for what is wanted of
it. A request for what a key's lookup in flight asks, or for what is cached under the key, starts
nothing and queries nothing. -/
namespace DocForms

/-- A lookup of the key for the query that runs and is not asked to end. -/
structure Task.Seeks (k : Task) (key : String) (q : LinkQuery) : Prop where
  job : k.job = .lookup key q
  unfinished : k.isFinished = false
  unasked : k.cancelAsked = false

theorem Task.not_seeks_interrupted (k : Task) (key : String) (q : LinkQuery) :
    ¬ k.interrupted.Seeks key q := by
  rintro ⟨-, hu, ha⟩
  cases hf : k.isFinished with
  | true => simp [interrupted_of_finished hf, hf] at hu
  | false => simp [interrupted_cancelAsked hf] at ha

namespace Board
variable {C : Catalog → Prop} {X : Prop} {b b₁ b₂ b' : Board} {t : Nat}

/-! ### Who is the newest lookup -/

/-- What seeks on the second board is the newest lookup of its key there, unless it was on the first
board already without being the newest one. -/
def HandsOver (b b' : Board) : Prop :=
  ∀ (t : Nat) (k' : Task) (key : String) (q : LinkQuery), b'.tasks[t]? = some k' → k'.Seeks key q →
    b'.newest.get? key = some ⟨t, q⟩ ∨ t < b.tasks.length ∧ b.newest.get? key ≠ some ⟨t, q⟩

/-- What seeks on the second board did so on the first one, and is still the newest lookup if it
was. -/
def Narrows (b b' : Board) : Prop :=
  ∀ (t : Nat) (k' : Task) (key : String) (q : LinkQuery), b'.tasks[t]? = some k' → k'.Seeks key q →
    b.tasks[t]? = some k' ∧ (b.newest.get? key = some ⟨t, q⟩ → b'.newest.get? key = some ⟨t, q⟩)

theorem Narrows.refl (b : Board) : Narrows b b := fun _ _ _ _ hk' _ => ⟨hk', id⟩

theorem Narrows.trans (h : Narrows b b₁) (h' : Narrows b₁ b₂) : Narrows b b₂ := by
  intro t k' key q hk' hs
  obtain ⟨hk₁, hstays'⟩ := h' t k' key q hk' hs
  obtain ⟨hk, hstays⟩ := h t k' key q hk₁ hs
  exact ⟨hk, hstays' ∘ hstays⟩

theorem HandsOver.narrows (h : HandsOver b b₁) (h' : Narrows b₁ b₂) : HandsOver b b₂ := by
  intro t k' key q hk' hs
  obtain ⟨hk₁, hstays⟩ := h' t k' key q hk' hs
  rcases h t k' key q hk₁ hs with hn | hold
  · exact .inl (hstays hn)
  · exact .inr hold

theorem handsOver_of_newest (hl : b'.tasks.length = b.tasks.length) (hn : b'.newest = b.newest) :
    HandsOver b b' := by
  intro t k' key q hk' hs
  have hlt := (List.getElem?_eq_some_iff.mp hk').1
  by_cases h : b.newest.get? key = some ⟨t, q⟩
  · exact .inl (hn ▸ h)
  · exact .inr ⟨hl ▸ hlt, h⟩

/-- A lookup only gives way as the newest one when it has ended or is asked to. -/
theorem Step.handsOver (h : Step C X b b') : HandsOver b b' := by
  intro t k' key q hk' hs
  rcases h.origin hk' with ⟨k, hk, -⟩ | ⟨-, -, -, hnew⟩
  · have hlt := (List.getElem?_eq_some_iff.mp hk).1
    by_cases hn : b.newest.get? key = some ⟨t, q⟩
    · rcases h.newest_cases key with hsame | ⟨hdisplaced, -⟩
      · exact .inl (hsame.trans hn)
      · rcases hdisplaced _ k' hn hk' hlt with hf | ha
        · exact absurd hf (by simp [hs.unfinished])
        · exact absurd ha (by simp [hs.unasked])
    · exact .inr ⟨hlt, hn⟩
  · exact .inl (hnew key q hs.job)

theorem narrows_forget (b : Board) (key : String) : Narrows b (b.forget key) := by
  intro t k' key' q hk' hs
  have htask : b.tasks[t]? = some k' := by
    simp only [forget, interruptNewest] at hk'
    split at hk'
    · obtain ⟨k, hk, ⟨-, rfl⟩ | ⟨-, rfl⟩⟩ := getElem?_modify_some hk'
      · exact absurd hs (k.not_seeks_interrupted key' q)
      · exact hk
    · exact hk'
  refine ⟨htask, fun hn => ?_⟩
  rw [forget, Keyed.get?_erase, if_neg]
  · exact hn
  · -- the newest lookup of the forgotten key has been asked to end
    rintro rfl
    rcases interruptNewest_asked hn hk' with hf | ha
    · exact absurd hf (by simp [hs.unfinished])
    · exact absurd ha (by simp [hs.unasked])

/-- Nobody but a lookup writes to the cache. -/
theorem Progress.cache (h : Progress C t b b') {k : Task} (hk : b.tasks[t]? = some k)
    (hj : ∀ key q, k.job ≠ .lookup key q) : b'.cache = b.cache := by
  have keep (o : Outcome) : b.keep k.job o = b.cache := by
    unfold Board.keep
    split
    · exact absurd ‹k.job = _› (hj _ _)
    · rfl
  cases h with
  | calm => rfl
  | enter => rfl
  | quit hk' | earn hk' =>
    obtain rfl := Option.some.inj (hk.symm.trans hk')
    exact keep _

end Board

namespace Resolver
open Board (Sound Steps HandsOver Narrows)
variable {C : Catalog → Prop} {c : Catalog} {r r' : Resolver} {key : String} {q : LinkQuery}
  {t : Nat} {k : Task} {ms : List Move}

theorem schedule_handsOver (r : Resolver) (key : String) (q : LinkQuery) :
    HandsOver r.board (r.schedule key q).1.board := by
  rcases r.schedule_cases key q with ⟨n, -, -, -, he⟩ | he
  · rw [he]
    exact Board.handsOver_of_newest rfl rfl
  · rw [he, board_supersede]
    exact Board.Step.handsOver (C := fun _ => True) (X := False) (.supersede key q)

theorem foldl_invalidate_narrows (r : Resolver) (keys : List String) :
    Narrows r.board (keys.foldl invalidate r).board := by
  induction keys generalizing r with
  | nil => exact .refl _
  | cons key keys ih =>
    refine .trans ?_ (ih _)
    rw [board_invalidate]
    exact Board.narrows_forget r.board key

theorem progresses_narrows {b b' : Board} (h : Progresses C t b b') (hk : b.tasks[t]? = some k)
    (hj : ∀ key q, k.job ≠ .lookup key q) : Narrows b b' := by
  intro u k' key q hk' hs
  by_cases hu : t = u
  · subst hu
    obtain ⟨k₁, hk₁, he⟩ := (h.steps (X := True)).keeps t k hk
    obtain rfl := Option.some.inj (hk₁.symm.trans hk')
    exact absurd (he.job.symm.trans hs.job) (hj key q)
  · rw [h.getElem?_ne hu] at hk'
    exact ⟨hk', fun hn => h.newest ▸ hn⟩

theorem request?_job (h : k.request? = some (key, q)) : ∃ number types,
    k.job = .await key number types ∧ k.phase = .fresh ∧ k.cancelAsked = false ∧
      LinkQuery.ofValues number types = .ok q := by
  unfold Task.request? at h
  split at h
  · rename_i key' number types hj hp ha
    split at h
    · rename_i q' hq
      obtain ⟨rfl, rfl⟩ : key' = key ∧ q' = q := by simpa using h
      exact ⟨number, types, hj, hp, ha, hq⟩
    · cases h
  · cases h

theorem turn_handsOver (hs : Sound C r.board) (hc : C c) (t : Nat) :
    HandsOver r.board (r.turn c t).board := by
  obtain ⟨b, hprog, rfl | ⟨k, key, q, hk, hreq, rfl⟩⟩ := turn_parts hs hc t
  · exact Board.handsOver_of_newest hprog.length hprog.newest
  · obtain ⟨number, types, hj, -⟩ := request?_job hreq
    have hcall : ∀ key q, k.job ≠ .lookup key q := by simp [hj]
    exact (schedule_handsOver r key q).narrows
      (progresses_narrows hprog (schedule_getElem? hs hk hcall key q) hcall)

theorem move_handsOver (hs : Sound C r.board) (m : Move) (hm : ∀ c t, m = .turn c t → C c) :
    HandsOver r.board (r.move m).board := by
  have spawn (job : Job) (hj : ∀ key q, job ≠ .lookup key q) :
      HandsOver r.board (r.start job).1.board :=
    Board.Step.handsOver (C := C) (X := False) (.spawn job hj)
  have narrows {r' : Resolver} (h : Narrows r.board r'.board) : HandsOver r.board r'.board :=
    (Board.handsOver_of_newest rfl rfl).narrows h
  cases m with
  | schedule key q => exact schedule_handsOver r key q
  | lookup key number types => exact spawn _ (by simp)
  | resolve number types => exact spawn _ (by simp)
  | settle => exact spawn _ (by simp)
  | invalidate key => exact narrows (foldl_invalidate_narrows r [key])
  | clear => exact narrows (foldl_invalidate_narrows r _)
  | cancel t =>
    refine Board.handsOver_of_newest ?_ (newest_cancel r t)
    refine cancel_same (·.tasks.length) (fun r t => List.length_modify ..) (fun r t => ?_) r t
    exact congrArg (·.tasks.length) (board_wake r t)
  | turn c t => exact turn_handsOver hs (hm c t rfl) t

/-! ### Live lookups -/

/-- At some time during the moves the task had been asked to end. -/
def WasAsked (ms : List Move) (t : Nat) : Prop :=
  ∃ before, before <+: ms ∧ ∃ k, (reached before).tasks[t]? = some k ∧ k.cancelAsked = true

/-- A lookup of the key that runs after the moves and has never been asked to end. -/
def LiveLookup (ms : List Move) (key : String) (t : Nat) : Prop :=
  (∃ k q, (reached ms).tasks[t]? = some k ∧ k.job = .lookup key q ∧ k.isFinished = false) ∧
    ¬ WasAsked ms t

theorem WasAsked.append (h : WasAsked ms t) (es : List Move) : WasAsked (ms ++ es) t := by
  obtain ⟨before, hpre, hk⟩ := h
  exact ⟨before, hpre.trans (List.prefix_append ms es), hk⟩

/-- A lookup that runs and has never been asked to end is the newest one of its key. -/
theorem newest_of_unasked (ms : List Move) {t : Nat} {k : Task} {key : String} {q : LinkQuery}
    (hk : (reached ms).tasks[t]? = some k) (hj : k.job = .lookup key q)
    (hu : k.isFinished = false) (ha : ¬ WasAsked ms t) :
    (reached ms).newest.get? key = some ⟨t, q⟩ := by
  induction ms using List.reverseRecOn generalizing k with
  | nil => cases hk
  | append_singleton ms m ih =>
    have hover : HandsOver (reached ms).board (reached (ms ++ [m])).board := by
      rw [reached_append]
      exact move_handsOver (sound_reached ms) m fun _ _ _ => trivial
    have hunasked : k.cancelAsked = false := by
      rw [← Bool.not_eq_true]
      intro h
      exact ha ⟨ms ++ [m], List.prefix_rfl, k, hk, h⟩
    rcases hover t k key q hk ⟨hj, hu, hunasked⟩ with hn | ⟨hlt, hother⟩
    · exact hn
    · -- it ran before the move, and so was the newest one then
      obtain ⟨k₀, hk₀, he⟩ := (steps_reached ms [m]).keeps.of_lt hlt hk
      exact absurd (ih hk₀ (he.job ▸ hj) (he.unfinished hu) fun h => ha (h.append [m])) hother

/-- The newest lookup of a key is live while it runs if nobody cancels tasks. -/
theorem live_of_newest (hx : ∀ u, .cancel u ∉ ms) {n : Newest}
    (hn : (reached ms).newest.get? key = some n) (ho : (reached ms).outcome? n.task = none) :
    LiveLookup ms key n.task := by
  obtain ⟨k, hk, hj⟩ := (sound_reached ms).newest key n hn
  have hu : k.isFinished = false := (Board.outcome?_of_unfinished hk).mp ho
  refine ⟨⟨k, n.query, hk, hj, hu⟩, ?_⟩
  rintro ⟨before, ⟨after, rfl⟩, k₀, hk₀, ha⟩
  have hsteps := steps_reached before after
  have hn₀ := hsteps.newest_back hn (List.getElem?_eq_some_iff.mp hk₀).1
  obtain ⟨k₁, hk₁, he⟩ := hsteps.keeps n.task k₀ hk₀
  obtain rfl := Option.some.inj (hk₁.symm.trans hk)
  have hundisturbed : (reached before).board.Undisturbed :=
    reached_undisturbed (C := fun _ => True) (fun _ _ _ => trivial)
      fun u h => hx u (List.mem_append_left after h)
  have hcalm := hundisturbed key n k₀ hn₀ hk₀ (he.unfinished hu)
  rw [hcalm] at ha
  cases ha

/-! ### Requests for what is current -/

/-- The newest lookup of the key asks the query and runs, or the answer to the query is cached. -/
def Current (r : Resolver) (key : String) (q : LinkQuery) : Prop :=
  (∃ n, r.newest.get? key = some n ∧ n.query = q ∧ r.outcome? n.task = none) ∨
    r.recorded? key = some q

theorem current_iff_serves (hs : Sound C r.board) : r.Current key q ↔ r.board.Serves key q := by
  constructor
  · rintro (⟨n, hn, hq, ho⟩ | hcached)
    · exact ⟨n, hn, hq, .inr ho⟩
    · obtain ⟨e, he, rfl⟩ := Option.map_eq_some_iff.mp hcached
      obtain ⟨n, hn, hq⟩ := hs.cached key e he
      exact ⟨n, hn, hq, .inl (Board.answers_iff.mpr ⟨e, he, rfl⟩)⟩
  · rintro ⟨n, hn, hq, ha | ho⟩
    · obtain ⟨e, he, rfl⟩ := Board.answers_iff.mp ha
      exact .inr (Option.map_eq_some_iff.mpr ⟨e, he, rfl⟩)
    · exact .inl ⟨n, hn, hq, ho⟩

/-- Scheduling what is served gives the newest lookup, and changes nothing. -/
theorem schedule_served {n : Newest} (hn : r.newest.get? key = some n) (h : r.board.Serves key n.query) :
    r.schedule key n.query = (r, n.task) := by
  obtain ⟨n', hn', -, hserves⟩ := h
  obtain rfl := Option.some.inj (hn.symm.trans hn')
  have hreuse : (!r.isFinished n.task || r.answers key n.query) = true := by
    rcases hserves with ha | ho
    · rw [Bool.or_eq_true]
      exact .inr ha
    · rw [isFinished, ← board_outcome?, ho]
      rfl
  simp [schedule, reusable?, hn, hreuse]

/-- The moves never forget the key, and ask for nothing but the query under it. -/
def Repeats (key : String) (q : LinkQuery) : Resolver → List Move → Prop
  | _, [] => True
  | r, m :: ms => (¬ m.Forgets key ∧ ∀ e ∈ r.request? m, e.1 = key → e.2 = q) ∧
      Repeats key q (r.move m) ms

instance decidableRepeats (key : String) (q : LinkQuery) :
    (r : Resolver) → (ms : List Move) → Decidable (Repeats key q r ms)
  | _, [] => .isTrue trivial
  | r, m :: ms =>
    have := decidableRepeats key q (r.move m) ms
    inferInstanceAs (Decidable (_ ∧ _))

theorem newest_schedule_of_served (h : r.board.Serves key q) {key' : String} {q' : LinkQuery}
    (hq : key' = key → q' = q) : (r.schedule key' q').1.newest.get? key = r.newest.get? key := by
  by_cases hkey : key' = key
  · obtain ⟨n, hn, rfl, -⟩ := id h
    rw [hkey, hq hkey, schedule_served hn h]
  · rcases r.schedule_cases key' q' with ⟨n, -, -, -, he⟩ | he
    · rw [he]
    · rw [he, ← board_newest, board_supersede, Board.supersede, Keyed.get?_put,
        if_neg (Ne.symm hkey), board_newest]

/-- Where a query is served, moves that ask for it again leave its lookup the newest one. -/
theorem newest_move_of_served (hs : Sound C r.board) (h : r.board.Serves key q) (m : Move)
    (hm : ∀ c t, m = .turn c t → C c) (hf : ¬ m.Forgets key)
    (hreq : ∀ e ∈ r.request? m, e.1 = key → e.2 = q) :
    (r.move m).newest.get? key = r.newest.get? key := by
  cases m with
  | schedule key' q' => exact newest_schedule_of_served h (hreq (key', q') rfl)
  | lookup key' number types => rfl
  | resolve number types => rfl
  | settle => rfl
  | invalidate key' => rw [move, (r.invalidate_get? key' key).2, if_neg (Ne.symm hf)]
  | clear => exact absurd trivial hf
  | cancel t => rw [move, newest_cancel]
  | turn c t =>
    obtain ⟨b, hprog, hb⟩ := turn_parts hs (hm c t rfl) t
    rw [move, ← board_newest, hprog.newest]
    rcases hb with rfl | ⟨k, key', q', hk, hreq', rfl⟩
    · rfl
    · refine newest_schedule_of_served h (hreq (key', q') ?_)
      rw [request?, hk]
      exact hreq'

/-- Where a query is served, moves that ask for it again keep its lookup the newest one and the query
served, until that lookup ends without an answer. -/
theorem served_of_repeats (ms es : List Move) (hx : ∀ u, .cancel u ∉ ms ++ es) {n : Newest}
    (hn : (reached ms).newest.get? key = some n) (h : (reached ms).board.Serves key n.query)
    (hes : Repeats key n.query (reached ms) es) :
    (reached (ms ++ es)).newest.get? key = some n ∧ (reached (ms ++ es)).board.Serves key n.query ∨
      ∃ o, (reached (ms ++ es)).outcome? n.task = some o ∧ ∀ a, o ≠ .answer a := by
  induction es generalizing ms with
  | nil => exact .inl (by rw [List.append_nil]; exact ⟨hn, h⟩)
  | cons m es ih =>
    obtain ⟨⟨hf, hreq⟩, hes⟩ := hes
    rw [List.append_cons] at hx ⊢
    have hs := sound_reached ms
    have hnext : reached (ms ++ [m]) = (reached ms).move m := reached_append ms [m]
    have hn' : (reached (ms ++ [m])).newest.get? key = some n := by
      rw [hnext, newest_move_of_served hs h m (fun _ _ _ => trivial) hf hreq, hn]
    have hgoes (hserves : (reached (ms ++ [m])).board.Serves key n.query) :=
      ih (ms ++ [m]) hx hn' hserves (hnext ▸ hes)
    cases ho : (reached (ms ++ [m])).outcome? n.task with
    | none => exact hgoes ⟨n, hn', rfl, .inr ho⟩
    | some o =>
      by_cases hanswer : ∃ a, o = .answer a
      · -- an answer is in the cache by now
        obtain ⟨a, ha⟩ := hanswer
        have hattended := reached_attended (C := fun _ => True) (ms ++ [m]) (fun _ _ _ => trivial)
          fun u hu => hx u (List.mem_append_left es hu)
        exact hgoes ⟨n, hn', rfl, .inl ((hattended key n o hn' ho).2 a ha)⟩
      · refine .inr ⟨o, ?_, fun a ha => hanswer ⟨a, ha⟩⟩
        rw [← board_outcome?]
        exact (steps_reached (ms ++ [m]) es).keeps.outcome? ho

/-! ### What callers do -/

/-- Nothing changes but one task and the order of turns: no task is started, and no query made. -/
structure TouchesOnly (t : Nat) (r r' : Resolver) : Prop where
  cache : r'.cache = r.cache
  newest : r'.newest = r.newest
  calls : r'.calls = r.calls
  length : r'.tasks.length = r.tasks.length
  others : ∀ u, u ≠ t → r'.tasks[u]? = r.tasks[u]?

/-- The task has ended with the cached answer to the query, or waits for the last lookup started for
the key, which is for the query. -/
def Joined (r : Resolver) (t : Nat) (key : String) (q : LinkQuery) : Prop :=
  ∃ k, r.tasks[t]? = some k ∧
    ((∃ d, r.cache.get? key = some ⟨q, d⟩ ∧ k.phase = .finished (.answer d)) ∨
      ∃ u, r.LatestLookup key u q ∧ k.phase = .awaiting u)

theorem progresses_cache {b b' : Board} (h : Progresses C t b b') (hk : b.tasks[t]? = some k)
    (hj : ∀ key q, k.job ≠ .lookup key q) : b'.cache = b.cache := by
  induction h with
  | refl => rfl
  | tail hb h ih =>
    have hkeeps := (Progresses.steps (X := True) hb).keeps
    obtain ⟨k₁, hk₁, he⟩ := hkeeps t k hk
    rw [h.cache hk₁ (he.job ▸ hj), ih]

/-- The turn of a call that asks for what is served, or for nothing any more. -/
theorem turn_touches (hs : Sound C r.board) (hc : C c) (hk : r.tasks[t]? = some k)
    {number types : Value} (hj : k.job = .await key number types)
    (hreq : ∀ e ∈ r.request? (.turn c t), r.board.Serves e.1 e.2) :
    TouchesOnly t r (r.turn c t) := by
  have hprog : Progresses C t r.board (r.turn c t).board := by
    obtain ⟨b, hprog, rfl | ⟨k', key', q', hk', hask, rfl⟩⟩ := turn_parts hs hc t
    · exact hprog
    · have hserves : r.board.Serves key' q' := by
        refine hreq (key', q') ?_
        rw [request?, hk']
        exact hask
      obtain ⟨n, hn, rfl, -⟩ := id hserves
      rwa [schedule_served hn hserves] at hprog
  have hcalls : (r.turn c t).calls = r.calls := by
    refine queries_move hs (.turn c t) ?_
    rintro _ _ k' ⟨⟩ hk'
    obtain rfl := Option.some.inj (hk.symm.trans hk')
    rw [hj]
    exact id
  exact ⟨progresses_cache hprog hk (by simp [hj]), hprog.newest, hcalls, hprog.length,
    fun u hu => hprog.getElem?_ne (Ne.symm hu)⟩

/-- A call for what is served is answered from the cache, or waits for the newest lookup. -/
theorem beginAwait_served {n : Newest} (hn : r.newest.get? key = some n)
    (h : r.board.Serves key n.query) (t : Nat) (job : Job) :
    (∃ d, r.cache.get? key = some ⟨n.query, d⟩ ∧
      r.beginAwait t job key n.query = r.finish t job (.answer d)) ∨
    r.beginAwait t job key n.query = r.modify t fun k => { k with phase := .awaiting n.task } := by
  have hcached {e : CacheEntry} (he : r.cache.get? key = some e) (hq : e.query = n.query) :
      ∃ d, r.cache.get? key = some ⟨n.query, d⟩ ∧
        r.beginAwait t job key n.query = r.finish t job (.answer d) :=
    ⟨e.document, by rw [he, ← hq], by simp [beginAwait, hn, he, hq]⟩
  obtain ⟨n', hn', -, hserves⟩ := id h
  obtain rfl := Option.some.inj (hn.symm.trans hn')
  rcases hserves with ha | ho
  · obtain ⟨e, he, hq⟩ := Board.answers_iff.mp ha
    exact .inl (hcached he hq)
  · have hwait : beginAwait.await job key n.query r t =
        r.modify t fun k => { k with phase := .awaiting n.task } := by
      rw [board_outcome?] at ho
      simp only [beginAwait.await, schedule_served hn h, ho]
    cases he : r.cache.get? key with
    | none => exact .inr (by simpa [beginAwait, he] using hwait)
    | some e =>
      by_cases hq : e.query = n.query
      · exact .inl (he ▸ hcached he hq)
      · exact .inr (by simpa [beginAwait, he, hq] using hwait)

theorem turn_joins (hs : Sound C r.board) (hc : C c) (hreq : r.request? (.turn c t) = some (key, q))
    (h : r.board.Serves key q) : (r.turn c t).Joined t key q := by
  obtain ⟨k, hk, hask⟩ := Option.bind_eq_some_iff.mp hreq
  obtain ⟨number, types, hj, hp, ha, hq⟩ := request?_job hask
  have htouches : TouchesOnly t r (r.turn c t) := by
    refine turn_touches hs hc hk hj fun e he => ?_
    obtain rfl := Option.some.inj (hreq.symm.trans he)
    exact h
  obtain ⟨n, hn, rfl, -⟩ := id h
  rw [board_newest] at hn
  obtain ⟨r', hb, hsome, -⟩ := turn_cases c r t
  have hturn : r.turn c t = r'.beginAwait t k.job key n.query := by
    rw [hsome k hk, step, hp]
    simp only [ha, Bool.false_eq_true, if_false, begin, hj, hq]
  have hk' : r'.tasks[t]? = some k := by rw [← board_tasks, hb, board_tasks, hk]
  have hn' : r'.newest.get? key = some n := by rw [← board_newest, hb, board_newest, hn]
  rcases beginAwait_served hn' (hb ▸ h) t k.job with ⟨d, hd, he⟩ | he
  · refine ⟨{ k with phase := .finished (.answer d) }, ?_, .inl ⟨d, ?_, rfl⟩⟩
    · rw [hturn, he, ← board_tasks, board_finish]
      simp [Board.finish, Board.setPhase, hk']
    · rw [htouches.cache, ← board_cache, ← hb, board_cache, hd]
  · refine ⟨{ k with phase := .awaiting n.task }, ?_, .inr ⟨n.task, ?_, rfl⟩⟩
    · rw [hturn, he]
      simp [modify, hk']
    · have hs' : Sound C (r.turn c t).board := hs.steps (turn_steps (X := True) hs hc t)
      exact latestLookup_of_newest hs' (by rw [htouches.newest, hn])

/-- However moves are mixed, at most one lookup of a key runs that has never been asked to end. It is
the last one started for the key, and for what is wanted of the key; if nobody cancels tasks, every
newest lookup that runs is such a one. Whoever schedules what is in flight or cached under a key gets
that last lookup, and nothing changes. A call for it is answered from the cache or waits for that
lookup; no turn of the call starts a task, makes a query or changes another task. So no lookup of the
key is started while nothing else is asked under it, by however many callers and whether before or
after the answer, unless the last one ends without an answer. Only lookups, and searches without a
key, make queries. -/
theorem lookups_shared (ms : List Move) :
    (∀ key t u, LiveLookup ms key t → LiveLookup ms key u → t = u) ∧
    (∀ key t, LiveLookup ms key t →
      ∃ q, (reached ms).LatestLookup key t q ∧ wants ms key = some q) ∧
    ((∀ u, .cancel u ∉ ms) → ∀ key n, (reached ms).newest.get? key = some n →
      (reached ms).outcome? n.task = none → LiveLookup ms key n.task) ∧
    (∀ key q, (reached ms).Current key q → ∃ t, (reached ms).LatestLookup key t q ∧
      (reached ms).schedule key q = (reached ms, t) ∧
      ∀ es, (∀ u, .cancel u ∉ ms ++ es) → Repeats key q (reached ms) es →
        (reached (ms ++ es)).LatestLookup key t q ∧ (reached (ms ++ es)).Current key q ∨
        ∃ o, (reached (ms ++ es)).outcome? t = some o ∧ ∀ a, o ≠ .answer a) ∧
    (∀ c t k key number types, (reached ms).tasks[t]? = some k → k.job = .await key number types →
      (∀ e ∈ (reached ms).request? (.turn c t), (reached ms).Current e.1 e.2) →
      TouchesOnly t (reached ms) (reached (ms ++ [.turn c t])) ∧
      ∀ e ∈ (reached ms).request? (.turn c t),
        (reached (ms ++ [.turn c t])).Joined t e.1 e.2) ∧
    ∀ m, (reached (ms ++ [m])).calls ≠ (reached ms).calls →
      ∃ c t k, m = .turn c t ∧ (reached ms).tasks[t]? = some k ∧ k.job.Queries := by
  have hs := sound_reached ms
  have newest {key : String} {t : Nat} (h : LiveLookup ms key t) :
      ∃ q, (reached ms).newest.get? key = some ⟨t, q⟩ := by
    obtain ⟨⟨k, q, hk, hj, hu⟩, ha⟩ := h
    exact ⟨q, newest_of_unasked ms hk hj hu ha⟩
  refine ⟨fun key t u ht hu => ?_, fun key t ht => ?_, fun hx key n => live_of_newest hx,
    fun key q hcur => ?_, fun c t k key number types hk hj hreq => ?_, fun m hcalls => ?_⟩
  · obtain ⟨q, hn⟩ := newest ht
    obtain ⟨q', hn'⟩ := newest hu
    exact congrArg Newest.task (Option.some.inj (hn.symm.trans hn'))
  · obtain ⟨q, hn⟩ := newest ht
    refine ⟨q, latestLookup_of_newest hs hn, ?_⟩
    rw [← asked?_reached]
    exact asked?_eq_some.mpr ⟨_, hn, rfl⟩
  · have hserves := (current_iff_serves hs).mp hcur
    obtain ⟨n, hn, rfl, -⟩ := id hserves
    refine ⟨n.task, latestLookup_of_newest hs hn, schedule_served hn hserves, fun es hx hes => ?_⟩
    rcases served_of_repeats ms es hx hn hserves hes with ⟨hn', hserves'⟩ | hended
    · have hs' := sound_reached (ms ++ es)
      exact .inl ⟨latestLookup_of_newest hs' hn', (current_iff_serves hs').mpr hserves'⟩
    · exact .inr hended
  · have hserves : ∀ e ∈ (reached ms).request? (.turn c t), (reached ms).board.Serves e.1 e.2 :=
      fun e he => (current_iff_serves hs).mp (hreq e he)
    rw [reached_append]
    exact ⟨turn_touches hs trivial hk hj hserves,
      fun e he => turn_joins hs trivial he (hserves e he)⟩
  · rw [reached_append] at hcalls
    by_contra hno
    refine hcalls (queries_move hs m fun c t k hm hk hj => hno ⟨c, t, k, hm, hk, hj⟩)

/-- A number is scheduled, and the catalog holds its answer back; a call joins the wait. -/
def gathered : List Move :=
  [.schedule "k" lateQuery, .lookup "k" (.text "X-1") (.list [.text "a"]), .turn stubborn 0,
    .turn stubborn 1]

/-- Another call joins, the answer comes, and then the same is scheduled and called for once more. -/
def crowd : List Move :=
  [.lookup "k" (.text "X-1") (.list [.text "a"]), .turn stubborn 2, .turn stubborn 0, .turn stubborn 1,
    .turn stubborn 2, .schedule "k" lateQuery, .lookup "k" (.text "X-1") (.list [.text "a"]),
    .turn stubborn 3]

/-- All of them get the answer of the first lookup, which has made the only query. -/
theorem lookups_shared_crowd :
    LiveLookup gathered "k" 0 ∧ (reached gathered).Current "k" lateQuery ∧
    (reached (gathered ++ crowd)).LatestLookup "k" 0 lateQuery ∧
    (reached (gathered ++ crowd)).Current "k" lateQuery ∧
    (∀ t ∈ [0, 1, 2, 3],
      (reached (gathered ++ crowd)).outcome? t = some (.answer (some lateDocument))) ∧
    (reached (gathered ++ crowd)).calls = [("a", "X-1")] := by
  obtain ⟨-, -, hlive, hshared, -, -⟩ := lookups_shared gathered
  have hn : (reached gathered).newest.get? "k" = some ⟨0, lateQuery⟩ := by decide +kernel
  have hrunning : (reached gathered).outcome? 0 = none := by decide +kernel
  have hcur : (reached gathered).Current "k" lateQuery := .inl ⟨_, hn, rfl, hrunning⟩
  have hanswers : ∀ t ∈ [0, 1, 2, 3],
      (reached (gathered ++ crowd)).outcome? t = some (.answer (some lateDocument)) := by
    decide +kernel
  obtain ⟨t, ht, hschedule, hrun⟩ := hshared "k" lateQuery hcur
  have hsame : (reached gathered).schedule "k" lateQuery = (reached gathered, 0) := by
    decide +kernel
  obtain rfl : 0 = t := congrArg Prod.snd (hsame.symm.trans hschedule)
  have hrepeats : Repeats "k" lateQuery (reached gathered) crowd := by decide +kernel
  rcases hrun crowd (by simp [gathered, crowd]) hrepeats with ⟨hlatest, hcur'⟩ | ⟨o, ho, hno⟩
  · refine ⟨hlive (by simp [gathered]) "k" _ hn hrunning, hcur, hlatest, hcur', hanswers, ?_⟩
    decide +kernel
  · exact absurd (Option.some.inj (ho.symm.trans (hanswers 0 (by simp)))) (hno _)

end Resolver
end DocForms
