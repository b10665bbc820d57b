import DocForms.Registry.Workspace

/-! Running what is built. Steps run one after another until one fails, and the workspace stays as
the last one left it. -/
namespace DocForms.Building
variable {α β : Type} {w : Workspace}

theorem run_bind (b : Building α) (f : α → Building β) : (b >>= f).run.run w =
    match b.run.run w with
    | (.ok a, w') => (f a).run.run w'
    | (.error e, w') => (.error e, w') := by
  rw [ExceptT.run_bind, StateT.run_bind]
  show (match b.run.run w with | (x, w') => _) = _
  rcases b.run.run w with ⟨_ | a, w'⟩ <;> rfl

theorem run_bind_eq_ok {b : Building α} {f : α → Building β} {c : β} {w' : Workspace} :
    (b >>= f).run.run w = (.ok c, w') ↔
      ∃ a w₁, b.run.run w = (.ok a, w₁) ∧ (f a).run.run w₁ = (.ok c, w') := by
  rw [run_bind]
  rcases b.run.run w with ⟨e | a, w₁⟩
  · constructor
    · intro h
      cases congrArg Prod.fst h
    · rintro ⟨a, w₁, h, -⟩
      cases congrArg Prod.fst h
  · constructor
    · intro h
      exact ⟨a, w₁, rfl, h⟩
    · rintro ⟨a', w₁', heq, h⟩
      obtain ⟨ha, rfl⟩ := Prod.mk.inj heq
      obtain rfl := Except.ok.inj ha
      exact h

theorem run_forM_cons (f : α → Building PUnit) (a : α) (as : List α) :
    ((a :: as).forM f).run.run w =
    match (f a).run.run w with
    | (.ok _, w') => (as.forM f).run.run w'
    | (.error e, w') => (.error e, w') := by
  show (f a >>= fun _ => as.forM f : Building PUnit).run.run w = _
  rw [run_bind]
  rcases (f a).run.run w with ⟨_ | _, w'⟩ <;> rfl

theorem run_plain (e : Except Fault α) : (plain e).run.run w = (e, w) := rfl

theorem run_plain_eq_ok {e : Except Fault α} {a : α} {w' : Workspace} :
    (plain e).run.run w = (.ok a, w') ↔ e = .ok a ∧ w = w' := Prod.mk.injEq .. ▸ Iff.rfl

theorem run_read (f : Registry → Except Fault α) : (read f).run.run w = (f w.registry, w) := rfl

theorem run_change (f : Registry → Except Fault (Registry × α)) : (change f).run.run w =
    match f w.registry with
    | .ok (r, a) => (.ok a, { w with registry := r })
    | .error e => (.error e, w) := by
  show ((plain (f w.registry) >>= _ : Building α)).run.run w = _
  rw [run_bind, run_plain]
  cases f w.registry <;> rfl

theorem run_mint (f : Registry → Minting (Registry × α)) : (mint f).run.run w =
    match (f w.registry).run.run w.ids with
    | (.ok (r, a), ids) => (.ok a, ⟨r, ids⟩)
    | (.error e, ids) => (.error e, { w with ids }) := by
  show ((change fun _ => ((f w.registry).run.run w.ids).1 : Building α)).run.run
    { w with ids := ((f w.registry).run.run w.ids).2 } = _
  rw [run_change]
  rcases (f w.registry).run.run w.ids with ⟨_ | p, ids⟩ <;> rfl

theorem run_tryCatch (b : Building α) (handle : Fault → Building α) :
    (tryCatch b handle : Building α).run.run w =
    match b.run.run w with
    | (.ok a, w') => (.ok a, w')
    | (.error e, w') => (handle e).run.run w' := by
  show (ExceptT.tryCatch b handle).run.run w = _
  unfold ExceptT.tryCatch
  rw [ExceptT.run_mk, StateT.run_bind, show StateT.run b w = b.run.run w from rfl]
  rcases b.run.run w with ⟨_ | a, w'⟩ <;> rfl

/-- What has been done before a refusal stays done. -/
theorem run_attempt (b : Building α) : (attempt b).run.run w =
    match b.run.run w with
    | (.ok a, w') => (.ok (.ok a), w')
    | (.error (.refused r), w') => (.ok (.error r), w')
    | (.error (.misuse m), w') => (.error (.misuse m), w') := by
  unfold attempt
  rw [run_tryCatch, run_bind]
  rcases b.run.run w with ⟨(r | m) | a, w'⟩ <;> rfl

end DocForms.Building
