import DocForms.Proofs.Links.Moves

/-! Which moves query the catalog: the turns of lookups and of searches without a key. Tasks that wait
for others make no query, and neither do calls from outside. -/
namespace DocForms

/-- A task that queries the catalog itself. -/
def Job.Queries : Job → Prop
  | .lookup .. | .search .. => True
  | .await .. | .settle => False

namespace Resolver
open Board (Sound)
variable {C : Catalog → Prop} {r : Resolver} {k : Task}

theorem queries_wake (r : Resolver) (t : Nat) : (r.wake t).calls = r.calls := by
  unfold wake
  split <;> rfl

theorem queries_interrupt (r : Resolver) (t : Nat) : (r.interrupt t).calls = r.calls := by
  unfold interrupt
  split
  · rfl
  · exact queries_wake _ t

theorem queries_schedule (r : Resolver) (key : String) (q : LinkQuery) :
    (r.schedule key q).1.calls = r.calls := by
  have hstale (r : Resolver) : (r.dropStale key q).calls = r.calls := by
    unfold dropStale
    split <;> rfl
  rcases r.schedule_cases key q with ⟨n, -, -, -, he⟩ | he
  · rw [he]
  · rw [he]
    unfold supersede
    split
    · exact (hstale _).trans (queries_interrupt r _)
    · exact hstale r

theorem queries_invalidate (r : Resolver) (key : String) : (r.invalidate key).calls = r.calls := by
  unfold invalidate
  dsimp only
  split
  · exact queries_interrupt _ _
  · rfl

theorem queries_finish (r : Resolver) (t : Nat) (job : Job) (o : Outcome) :
    (r.finish t job o).calls = r.calls := by
  have hkeep : (r.keep job o).calls = r.calls := by
    unfold keep
    split
    · split <;> rfl
    · rfl
  unfold finish wakeWaiting
  rw [foldl_same calls]
  · exact hkeep
  · intro s k
    split
    · exact queries_wake s k.2
    · rfl

theorem queries_beginAwait (r : Resolver) (t : Nat) (job : Job) (key : String) (q : LinkQuery) :
    (r.beginAwait t job key q).calls = r.calls := by
  have await : (beginAwait.await job key q r t).calls = r.calls := by
    unfold beginAwait.await
    dsimp only
    split
    · rw [queries_finish, queries_schedule]
    · exact queries_schedule r key q
  unfold beginAwait
  dsimp only
  split
  · split
    · exact queries_finish ..
    · exact await
  · exact await

theorem queries_gather (r : Resolver) (t : Nat) : (r.gather t).calls = r.calls := by
  unfold gather
  split
  · exact queries_finish ..
  · rfl

/-- A turn of a task that only waits makes no query. -/
theorem queries_step (c : Catalog) (r : Resolver) (t : Nat) (ha : k.job.Allows C k.phase)
    (hj : ¬ k.job.Queries) : (r.step c t k).calls = r.calls := by
  unfold step
  split
  · split
    · exact queries_finish ..
    · unfold begin
      split
      · rename_i hjob
        rw [hjob] at hj
        exact absurd trivial hj
      · rename_i hjob
        rw [hjob] at hj
        exact absurd trivial hj
      · split
        · exact queries_beginAwait ..
        · exact queries_finish ..
      · exact queries_gather r t
  · rename_i hp
    cases hjob : k.job with
    | lookup | search =>
      rw [hjob] at hj
      exact absurd trivial hj
    | await | settle =>
      rw [hjob, hp] at ha
      exact ha.elim
  · split
    · exact queries_finish ..
    · exact queries_finish ..
    · split
      · exact queries_finish ..
      · rfl
  · split
    · exact queries_finish ..
    · exact queries_gather r t
  · rfl

/-- Only the turns of lookups and of searches without a key query the catalog. -/
theorem queries_move (hs : Sound C r.board) (m : Move)
    (hm : ∀ c t k, m = .turn c t → r.tasks[t]? = some k → ¬ k.job.Queries) :
    (r.move m).calls = r.calls := by
  cases m with
  | schedule key q => exact queries_schedule r key q
  | lookup key number types => rfl
  | resolve number types => rfl
  | settle => rfl
  | invalidate key => exact queries_invalidate r key
  | clear => exact foldl_same calls queries_invalidate r _
  | cancel t => exact cancel_same calls (fun _ _ => rfl) queries_wake r t
  | turn c t =>
    rw [move, turn]
    dsimp only
    split
    · rename_i k hk
      exact queries_step c _ t (hs.allowed t k hk) (hm c t k rfl hk)
    · rfl

end Resolver
end DocForms
