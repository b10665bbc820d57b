import DocForms.Proofs.Links.Serving

/-! A task that waits for served queries. If nobody cancels tasks or calls anything meanwhile, all of
them have been answered when it ends, in every order of turns, and in every fair order it ends. -/
namespace DocForms

namespace Board
variable {C : Catalog → Prop} {b b' : Board} {t : Nat}

/-- The queries that a settling task waits for. Each of them is served, and they are answered once
the task has ended. -/
structure Settling (C : Catalog → Prop) (qs : List (String × LinkQuery)) (t : Nat) (b : Board) :
    Prop where
  sound : Sound C b
  undisturbed : b.Undisturbed
  serves : ∀ e ∈ qs, b.Serves e.1 e.2
  task : ∃ k, b.tasks[t]? = some k ∧ k.job = .settle ∧ k.cancelAsked = false ∧
    (k.isFinished = true → ∀ e ∈ qs, b.answers e.1 e.2 = true)

theorem Settling.progress {reply : String → String → Reply} {qs : List (String × LinkQuery)}
    (hr : Steadfast reply)
    (hw : ∀ e ∈ qs, ∃ number, LinkQuery.wanted? e.2.number = .ok (some number))
    (hs : Settling (Saying reply) qs t b) {u : Nat} (h : Progress (Saying reply) u b b') :
    Settling (Saying reply) qs t b' where
  sound := hs.sound.step (X := False) (.progress h)
  undisturbed := hs.undisturbed.progress h
  serves e he := by
    obtain ⟨number, hw⟩ := hw e he
    exact (hs.serves e he).progress hr hw hs.sound hs.undisturbed h
  task := by
    obtain ⟨k, hk, hj, hc, hdone⟩ := hs.task
    have stay (hall : ∀ e ∈ qs, b.answers e.1 e.2 = true) : ∀ e ∈ qs, b'.answers e.1 e.2 = true := by
      intro e he
      obtain ⟨n, hn, hq, -⟩ := hs.serves e he
      exact h.answers hn hq (hall e he)
    have moved (f : Task → Task) (hb' : b'.tasks = b.tasks.modify u f)
        (hf : u = t → (f k).job = .settle ∧ (f k).cancelAsked = false ∧
          ((f k).isFinished = true → ∀ e ∈ qs, b'.answers e.1 e.2 = true)) :
        ∃ k, b'.tasks[t]? = some k ∧ k.job = .settle ∧ k.cancelAsked = false ∧
          (k.isFinished = true → ∀ e ∈ qs, b'.answers e.1 e.2 = true) := by
      by_cases hu : u = t
      · exact ⟨f k, by rw [hb', hu, List.getElem?_modify_eq, hk]; rfl, hf hu⟩
      · exact ⟨k, by rw [hb', List.getElem?_modify_ne _ _ hu, hk], hj, hc, fun hf => stay (hdone hf)⟩
    cases h with
    | calm hk' hp => exact moved _ rfl fun _ => ⟨hj, rfl, fun hf => stay (hdone hf)⟩
    | enter hk' hu' hl hp ho ha =>
      refine moved _ rfl fun _ => ⟨hj, hc, fun hf => ?_⟩
      obtain ⟨o, hpo⟩ := Task.isFinished_iff.mp hf
      exact absurd hpo (ho o)
    | quit hk' hu' ha =>
      refine moved _ rfl fun hu => ?_
      subst hu
      obtain rfl := Option.some.inj (hk.symm.trans hk')
      simp [hc] at ha
    | earn hk' hu' hl he =>
      refine moved _ rfl fun hu => ⟨hj, hc, fun _ => stay fun e hmem => ?_⟩
      subst hu
      obtain rfl := Option.some.inj (hk.symm.trans hk')
      have hidle : b.running = [] := by
        simp only [Earns, hj] at he
        exact he.2
      exact (hs.serves e hmem).answers hidle

end Board
namespace Resolver
open Board (Sound Settling Progress)

/-- Turns of tasks in any order, while nothing is called from outside and the catalogs say the same
all the time. -/
def Turns (reply : String → String → Reply) : Resolver → Resolver → Prop :=
  Relation.ReflTransGen fun r r' => ∃ c t, Saying reply c ∧ ¬ r.Calls t ∧ r' = r.turn c t

variable {reply : String → String → Reply} {r r' : Resolver} {qs : List (String × LinkQuery)}
  {t u : Nat} {C : Catalog → Prop}

theorem Settling.progresses (hr : Steadfast reply)
    (hw : ∀ e ∈ qs, ∃ number, LinkQuery.wanted? e.2.number = .ok (some number)) {b b' : Board}
    (hs : Settling (Saying reply) qs t b) {u : Nat} (h : Progresses (Saying reply) u b b') :
    Settling (Saying reply) qs t b' := by
  induction h with
  | refl => exact hs
  | tail _ h ih => exact ih.progress hr hw h

theorem Turns.settling (hr : Steadfast reply)
    (hw : ∀ e ∈ qs, ∃ number, LinkQuery.wanted? e.2.number = .ok (some number))
    (hs : Settling (Saying reply) qs t r.board) (h : Turns reply r r') :
    Settling (Saying reply) qs t r'.board := by
  induction h with
  | refl => exact hs
  | tail _ h ih =>
    obtain ⟨c, u, hc, hcalls, rfl⟩ := h
    exact Settling.progresses hr hw ih (turn_progresses ih.sound hc hcalls)

/-! ### What turns keep -/

theorem Turns.steps {X : Prop} (hs : Sound (Saying reply) r.board) (h : Turns reply r r') :
    Board.Steps (Saying reply) X r.board r'.board := by
  induction h with
  | refl => exact .refl
  | tail _ h ih =>
    obtain ⟨c, u, hc, hcalls, rfl⟩ := h
    exact ih.trans (turn_progresses (hs.steps ih) hc hcalls).steps

theorem Turns.isFinished (hs : Sound (Saying reply) r.board) (h : Turns reply r r')
    (hf : r.isFinished u = true) : r'.isFinished u = true := by
  obtain ⟨o, ho⟩ := Option.isSome_iff_exists.mp hf
  have hkeeps := (h.steps (X := True) hs).keeps
  rw [Resolver.isFinished, ← board_outcome?, hkeeps.outcome? ho]
  rfl

/-! ### The end of the wait -/

theorem finish_outcome? {b : Board} (ht : t < b.tasks.length) (job : Job) (o : Outcome) :
    (b.finish t job o).outcome? t = some o := by
  simp [Board.outcome?, Board.finish, Board.setPhase, ht, Task.outcome?]

/-- The settling task ends at its turn if no newest lookup is running. -/
theorem settle_turn (hs : Settling C qs t r.board) (hr : r.running = []) (c : Catalog) :
    ∃ o, (r.turn c t).board.outcome? t = some o := by
  obtain ⟨k, hk, hj, hc, -⟩ := hs.task
  obtain ⟨r', hb, hsome, -⟩ := turn_cases c r t
  have hlt : t < r'.board.tasks.length := by
    rw [hb]
    exact (List.getElem?_eq_some_iff.mp hk).1
  have hal := hs.sound.allowed t k hk
  have hgather : (r'.gather t).board.outcome? t = some (.answer none) := by
    have hidle : r'.running = [] := by rw [← board_running, hb, board_running, hr]
    rw [gather, hidle]
    simp only
    rw [board_finish]
    exact finish_outcome? hlt ..
  rw [hsome k hk]
  cases hp : k.phase with
  | fresh => exact ⟨_, by simpa [step, hp, hc, begin, hj] using hgather⟩
  | gathering => exact ⟨_, by simpa [step, hp, hc] using hgather⟩
  | asking => simp [Job.Allows, hj, hp] at hal
  | awaiting => simp [Job.Allows, hj, hp] at hal
  | finished o =>
    refine ⟨o, ?_⟩
    simp only [step, hp]
    rw [hb]
    exact Board.outcome?_eq_some.mpr ⟨k, hk, hp⟩

end Resolver
end DocForms
