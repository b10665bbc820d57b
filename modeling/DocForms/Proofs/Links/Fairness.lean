import DocForms.Proofs.Links.Settling
import Mathlib.Data.Nat.Pairing
import Mathlib.Order.Monotone.Basic

/-! Orders of turns in which every task gets turns again and again. Each turn of a newest lookup
ends it or leaves fewer types to ask, so all of them end, and then the task that waits for them. -/
namespace DocForms

namespace Catalog
variable {c : Catalog} {number n : String} {types left : List String}

theorem search_left (h : (c.search number types).2 = .asking n left) :
    left.length ≤ types.length := by
  induction types with
  | nil => cases h
  | cons type types ih =>
    by_cases ho : c.isOpen number
    · cases hc : c.replyTo type number <;> simp only [search, ho, hc, if_true] at h
      case found => cases h
      case withdrawn => cases h
      all_goals exact Nat.le_succ_of_le (ih h)
    · simp only [search, ho] at h
      cases h
      exact Nat.le_refl _

theorem goOn_left (h : (c.goOn number types).2 = .asking n left) : left.length < types.length := by
  cases types with
  | nil => cases h
  | cons type types =>
    cases hc : c.replyTo type number <;> simp only [goOn, hc] at h
    case found => cases h
    case withdrawn => cases h
    all_goals exact Nat.lt_succ_of_le (search_left h)

theorem begin_left {q : LinkQuery} (h : (c.begin q.number (.ok q.types)).2 = .asking n left) :
    left.length ≤ q.types.length := by
  unfold begin at h
  split at h
  · cases h
  · cases h
  · exact search_left h

end Catalog

/-- The most turns that a lookup takes to end, unless it is cancelled. -/
def Task.turnsLeft (k : Task) : Nat :=
  match k.job, k.phase with
  | .lookup _ q, .fresh => q.types.length + 2
  | .lookup _ _, .asking _ left => left.length + 1
  | _, _ => 0

theorem Task.turnsLeft_finished {k : Task} (h : k.isFinished = true) : k.turnsLeft = 0 := by
  obtain ⟨o, ho⟩ := isFinished_iff.mp h
  unfold turnsLeft
  split <;> simp_all

namespace Board
variable {C : Catalog → Prop} {b b' : Board} {t u : Nat}

/-- The most turns that a lookup takes to end, by its number. -/
def turnsLeft (b : Board) (t : Nat) : Nat := (b.tasks[t]?).elim 0 Task.turnsLeft

theorem turnsLeft_finish (b : Board) (t : Nat) (job : Job) (o : Outcome) :
    (b.finish t job o).turnsLeft t = 0 := by
  unfold turnsLeft finish setPhase
  cases hk : b.tasks[t]? with
  | none => simp [hk]
  | some k => simp [hk, Task.turnsLeft_finished (k := { k with phase := .finished o }) rfl]

theorem turnsLeft_asking (b : Board) (t : Nat) (number : String) (left : List String) :
    (b.setPhase t (.asking number left)).turnsLeft t ≤ left.length + 1 := by
  unfold turnsLeft setPhase
  cases hk : b.tasks[t]? with
  | none => simp [hk]
  | some k => cases hj : k.job <;> simp [hk, Task.turnsLeft, hj]

/-- A lookup that has no turns left has ended. -/
theorem Sound.outcome?_of_turnsLeft (hs : Sound C b) {k : Task} (hk : b.tasks[t]? = some k)
    {key : String} {q : LinkQuery} (hj : k.job = .lookup key q) (h : b.turnsLeft t = 0) :
    (b.outcome? t).isSome = true := by
  have hal := hs.allowed t k hk
  cases hp : k.phase <;> simp [turnsLeft, Task.turnsLeft, hk, hj, hp, Job.Allows] at h hal
  simp [outcome?, hk, Task.outcome?, hp]

end Board

namespace Resolver
open Board (Sound Settling)

variable {reply : String → String → Reply} {r r' : Resolver} {qs : List (String × LinkQuery)}
  {t : Nat} {c : Catalog} {C : Catalog → Prop}

theorem turnsLeft_continueSearch (r : Resolver) (t : Nat) (job : Job)
    (s : List (String × String) × Search) {m : Nat}
    (h : ∀ number left, s.2 = .asking number left → left.length < m) :
    (r.continueSearch t job s).board.turnsLeft t ≤ m := by
  rw [board_continueSearch]
  split
  · rw [Board.turnsLeft_finish]
    exact Nat.zero_le _
  · rename_i number left hs
    exact Nat.le_trans (Board.turnsLeft_asking ..) (h number left hs)

/-- The turn of a lookup that is not cancelled ends it, or leaves it fewer turns. -/
theorem lookup_turn (hs : Sound C r.board) {k : Task} (hk : r.tasks[t]? = some k) {key : String}
    {q : LinkQuery} (hj : k.job = .lookup key q) (hc : k.isFinished = false → k.cancelAsked = false)
    (c : Catalog) : (r.turn c t).board.turnsLeft t ≤ r.board.turnsLeft t - 1 := by
  obtain ⟨r', hb, hsome, -⟩ := turn_cases c r t
  have hal := hs.allowed t k hk
  have hleft : r.board.turnsLeft t = k.turnsLeft := by simp [Board.turnsLeft, hk]
  rw [hsome k hk, hleft]
  cases hp : k.phase with
  | fresh =>
    have hc := hc (unfinished_of_phase hp (by simp))
    simp only [step, hp, hc, begin, hj, Bool.false_eq_true, if_false]
    refine turnsLeft_continueSearch _ _ _ _ fun number left h => ?_
    have := Catalog.begin_left h
    simp only [Task.turnsLeft, hj, hp]
    omega
  | asking number left =>
    have hc := hc (unfinished_of_phase hp (by simp))
    simp only [step, hp, answered, hc]
    refine turnsLeft_continueSearch _ _ _ _ fun number' left' h => ?_
    have := Catalog.goOn_left h
    simp only [Task.turnsLeft, hj, hp]
    omega
  | finished o =>
    have hfin : k.isFinished = true := Task.isFinished_iff.mpr ⟨o, hp⟩
    simp only [step, hp, hb, hleft, Task.turnsLeft_finished hfin]
    exact Nat.zero_le _
  | awaiting => simp [Job.Allows, hj, hp] at hal
  | gathering => simp [Job.Allows, hj, hp] at hal

/-! ### Fair orders -/

/-- The resolver after the first turns of an order. -/
def after (r : Resolver) (order : Nat → Catalog × Nat) : Nat → Resolver
  | 0 => r
  | n + 1 => (after r order n).turn (order n).1 (order n).2

/-- The orders of turns, while nothing is called from outside and the catalogs say the same all the
time, in which every task gets turns again and again. -/
structure Fair (reply : String → String → Reply) (r : Resolver) (order : Nat → Catalog × Nat) :
    Prop where
  saying : ∀ n, Saying reply (order n).1
  closed : ∀ n, ¬ (r.after order n).Calls (order n).2
  again : ∀ t, ¬ r.Calls t → ∀ n, ∃ m, n ≤ m ∧ (order m).2 = t

variable {order : Nat → Catalog × Nat}

theorem Fair.turns (h : Fair reply r order) (n : Nat) : Turns reply r (r.after order n) := by
  induction n with
  | zero => exact .refl
  | succ n ih => exact ih.tail ⟨_, _, h.saying n, h.closed n, rfl⟩

theorem Fair.progresses (h : Fair reply r order) {n : Nat}
    (hs : Sound (Saying reply) (r.after order n).board) :
    Progresses (Saying reply) (order n).2 (r.after order n).board (r.after order (n + 1)).board := by
  exact turn_progresses hs (h.saying n) (h.closed n)

/-- Giving the tasks turns by turns is fair if no call has yet to begin. -/
theorem exists_fair (hs : Sound (Saying reply) r.board) (hq : ∀ t, ¬ r.Calls t) :
    ∃ order, Fair reply r order := by
  let order (n : Nat) : Catalog × Nat := ({ replyTo := reply }, n.unpair.1)
  have invariant (n : Nat) : Sound (Saying reply) (r.after order n).board ∧
      ∀ t, ¬ (r.after order n).Calls t := by
    induction n with
    | zero => exact ⟨hs, hq⟩
    | succ n ih =>
      obtain ⟨hs, hq⟩ := ih
      have h := turn_progresses hs (c := (order n).1) rfl (hq (order n).2)
      exact ⟨h.sound hs, fun t ht => hq t (h.calls ht)⟩
  refine ⟨order, fun _ => rfl, fun n => (invariant n).2 _, fun t _ n => ⟨Nat.pair t n, ?_, ?_⟩⟩
  · exact Nat.right_le_pair t n
  · simp [order]

/-- What does not grow, and shrinks again and again unless it is zero, is zero from some time on. -/
theorem eventually_zero {f : Nat → Nat} (hle : ∀ n, f (n + 1) ≤ f n)
    (hlt : ∀ n, ∃ m, n ≤ m ∧ f (m + 1) ≤ f m - 1) : ∃ N, ∀ n, N ≤ n → f n = 0 := by
  have hanti : Antitone f := antitone_nat_of_succ_le hle
  -- by induction on a bound: each time it shrinks, a smaller one holds from there on
  have below (p n : Nat) (hp : f n ≤ p) : ∃ N, ∀ n, N ≤ n → f n = 0 := by
    induction p generalizing n with
    | zero => exact ⟨n, fun m hm => Nat.le_zero.mp (Nat.le_trans (hanti hm) hp)⟩
    | succ p ih =>
      obtain ⟨m, hm, hlt⟩ := hlt n
      have := hanti hm
      exact ih (m + 1) (by omega)
  exact below (f 0) 0 (Nat.le_refl _)

theorem eventually_all {α : Type} {p : α → Nat → Prop} (as : List α)
    (h : ∀ a ∈ as, ∃ N, ∀ n, N ≤ n → p a n) : ∃ N, ∀ n, N ≤ n → ∀ a ∈ as, p a n := by
  induction as with
  | nil => exact ⟨0, by simp⟩
  | cons a as ih =>
    obtain ⟨N, hN⟩ := h a (List.mem_cons_self ..)
    obtain ⟨M, hM⟩ := ih fun b hb => h b (List.mem_cons_of_mem _ hb)
    refine ⟨max N M, fun n hn b hb => ?_⟩
    rcases List.mem_cons.mp hb with rfl | hb
    · exact hN n (by omega)
    · exact hM n (by omega) b hb

section Ends
variable (hr : Steadfast reply)
  (hw : ∀ e ∈ qs, ∃ number, LinkQuery.wanted? e.2.number = .ok (some number))
  (hs : Settling (Saying reply) qs t r.board) (hf : Fair reply r order)
include hr hw hs hf

theorem Fair.newest (n : Nat) : (r.after order n).newest = r.newest := by
  induction n with
  | zero => rfl
  | succ n ih =>
    have hsound := ((hf.turns n).settling hr hw hs).sound
    exact (hf.progresses hsound).newest.trans ih

/-- From some time on, no newest lookup is running. -/
theorem Fair.idle : ∃ N, ∀ n, N ≤ n → (r.after order n).running = [] := by
  have settling (n : Nat) := (hf.turns n).settling hr hw hs
  have ended : ∀ e ∈ r.newest, ∃ N, ∀ n, N ≤ n → (r.after order n).board.turnsLeft e.2.task = 0 := by
    intro e he
    have found (n : Nat) : (r.after order n).newest.get? e.1 = some e.2 := by
      rw [hf.newest hr hw hs]
      exact Keyed.get?_of_mem hs.sound.keys he
    have turn (n : Nat) (ht : (order n).2 = e.2.task) :
        (r.after order (n + 1)).board.turnsLeft e.2.task ≤
          (r.after order n).board.turnsLeft e.2.task - 1 := by
      obtain ⟨k, hk, hj⟩ := (settling n).sound.newest _ _ (found n)
      have hcalm := (settling n).undisturbed _ _ k (found n) hk
      rw [after, ht]
      exact lookup_turn (settling n).sound hk hj hcalm _
    -- other tasks' turns leave the lookup as it is, and its own come again and again
    refine eventually_zero (fun n => ?_) fun n => ?_
    · by_cases ht : (order n).2 = e.2.task
      · exact Nat.le_trans (turn n ht) (Nat.sub_le _ _)
      · rw [Board.turnsLeft, (hf.progresses (settling n).sound).getElem?_ne ht]
        exact Nat.le_refl _
    · obtain ⟨k, hk, hj⟩ := hs.sound.newest _ _ (found 0)
      have hcalls : ¬ r.Calls e.2.task := by
        rintro ⟨k', key, number, types, hk', -, hj'⟩
        obtain rfl := Option.some.inj (hk.symm.trans hk')
        simp [hj] at hj'
      obtain ⟨m, hm, ht⟩ := hf.again e.2.task hcalls n
      exact ⟨m, hm, turn m ht⟩
  obtain ⟨N, hN⟩ := eventually_all r.newest ended
  refine ⟨N, fun n hn => ?_⟩
  rw [running, hf.newest hr hw hs, List.filter_eq_nil_iff]
  intro u hu
  obtain ⟨e, he, rfl⟩ := List.mem_map.mp hu
  have hfound := (settling n).sound.newest e.1 e.2 (by
    rw [board_newest, hf.newest hr hw hs]
    exact Keyed.get?_of_mem hs.sound.keys he)
  obtain ⟨k, hk, hj⟩ := hfound
  have hended := (settling n).sound.outcome?_of_turnsLeft hk hj (hN n hn e he)
  rw [board_outcome?] at hended
  simp [isFinished, hended]

/-- In every fair order the settling task ends. -/
theorem Fair.ends : ∃ n, (r.after order n).isFinished t = true := by
  obtain ⟨N, hN⟩ := hf.idle hr hw hs
  obtain ⟨k, hk, hj, -⟩ := hs.task
  have hcalls : ¬ r.Calls t := by
    rintro ⟨k', key, number, types, hk', -, hj'⟩
    obtain rfl := Option.some.inj (hk.symm.trans hk')
    simp [hj] at hj'
  obtain ⟨m, hm, ht⟩ := hf.again t hcalls N
  obtain ⟨o, ho⟩ := settle_turn ((hf.turns m).settling hr hw hs) (hN m hm) (order m).1
  refine ⟨m + 1, ?_⟩
  rw [after, ht, isFinished, ← board_outcome?, ho]
  rfl

end Ends

end Resolver
end DocForms
