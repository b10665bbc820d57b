import DocForms.Fault
import Mathlib.Data.List.Forall2

/-! A computation that may fail succeeds when each of its steps does. -/
namespace DocForms
variable {α β : Type}

theorem bind_eq_ok {ε : Type} {x : Except ε α} {f : α → Except ε β} {b : β} :
    (x >>= f) = .ok b ↔ ∃ a, x = .ok a ∧ f a = .ok b := by
  cases x <;> simp [bind, Except.bind]

theorem toOption_eq_some {ε : Type} {x : Except ε α} {a : α} (h : x.toOption = some a) :
    x = .ok a := by
  cases x with
  | error e => cases h
  | ok b => exact congrArg Except.ok (Option.some.inj h)

theorem pure_eq_ok {a b : α} : (pure a : Except Fault α) = .ok b ↔ a = b := by
  simp [pure, Except.pure]

theorem map_eq_ok {f : α → β} {x : Except Fault α} {b : β} :
    f <$> x = .ok b ↔ ∃ a, x = .ok a ∧ f a = b := by
  cases x <;> simp [Functor.map, Except.map]

/-- A check that does not refuse. -/
theorem check_eq_ok {p : Prop} [Decidable p] {e : Refusal} {f : β → Except Fault α}
    {x : Except Fault α} {a : α} :
    (if p then refuse e >>= f else x) = .ok a ↔ ¬ p ∧ x = .ok a := by
  split <;> simp_all [refuse, bind, Except.bind]

theorem mapM_eq_ok {f : α → Except Fault β} {g : α → β} {as : List α}
    (h : ∀ a ∈ as, f a = .ok (g a)) : as.mapM f = .ok (as.map g) := by
  induction as with
  | nil => rfl
  | cons a as ih =>
    have hrest := ih fun b hb => h b (List.mem_cons_of_mem _ hb)
    rw [List.mapM_cons, h a (List.mem_cons_self ..), hrest]
    rfl

/-- A loop succeeds when each of its steps does, and gives their results. -/
theorem mapM_eq_ok_iff {f : α → Except Fault β} {as : List α} {bs : List β} (b₀ : β) :
    as.mapM f = .ok bs ↔
      (∀ a ∈ as, ∃ b, f a = .ok b) ∧ bs = as.map fun a => (f a).toOption.getD b₀ := by
  have hvalue (a : α) (h : ∃ b, f a = .ok b) : f a = .ok ((f a).toOption.getD b₀) := by
    obtain ⟨b, hb⟩ := h
    rw [hb]
    rfl
  constructor
  · intro h
    have hall : ∀ a ∈ as, ∃ b, f a = .ok b := by
      induction as generalizing bs with
      | nil => simp
      | cons a as ih =>
        rw [List.mapM_cons] at h
        obtain ⟨b, hb, hrest⟩ := bind_eq_ok.mp h
        obtain ⟨bs, hbs, -⟩ := bind_eq_ok.mp hrest
        exact List.forall_mem_cons.mpr ⟨⟨b, hb⟩, ih hbs⟩
    have hmap := mapM_eq_ok fun a ha => hvalue a (hall a ha)
    exact ⟨hall, Except.ok.inj (h.symm.trans hmap)⟩
  · rintro ⟨hall, rfl⟩
    exact mapM_eq_ok fun a ha => hvalue a (hall a ha)

theorem mapM_eq_ok_forall₂ {f : α → Except Fault β} {as : List α} {bs : List β} :
    as.mapM f = .ok bs ↔ List.Forall₂ (fun a b => f a = .ok b) as bs := by
  induction as generalizing bs with
  | nil => rw [List.mapM_nil, pure_eq_ok, List.forall₂_nil_left_iff, eq_comm]
  | cons a as ih =>
    rw [List.mapM_cons, bind_eq_ok, List.forall₂_cons_left_iff]
    refine exists_congr fun b => ?_
    rw [bind_eq_ok]
    constructor
    · rintro ⟨hb, bs', hbs, h⟩
      exact ⟨bs', hb, ih.mp hbs, (pure_eq_ok.mp h).symm⟩
    · rintro ⟨bs', hb, hbs, rfl⟩
      exact ⟨hb, bs', ih.mpr hbs, rfl⟩

theorem bind_eq_error {x : Except Fault α} {f : α → Except Fault β} {e : Fault} :
    (x >>= f) = .error e ↔ x = .error e ∨ ∃ a, x = .ok a ∧ f a = .error e := by
  cases x <;> simp [bind, Except.bind]

theorem mapM_cons_eq_error {f : α → Except Fault β} {as : List α} {a : α} {e : Fault} :
    (a :: as).mapM f = .error e ↔ f a = .error e ∨ ∃ b, f a = .ok b ∧ as.mapM f = .error e := by
  rw [List.mapM_cons, bind_eq_error]
  refine or_congr_right (exists_congr fun b => and_congr_right fun _ => ?_)
  rw [bind_eq_error]
  refine or_iff_left ?_
  rintro ⟨bs, -, h⟩
  cases h

/-- A loop fails with the first of its steps that fails. -/
theorem mapM_eq_error_iff {f : α → Except Fault β} {as : List α} {e : Fault} :
    as.mapM f = .error e ↔ ∃ before a after bs, as = before ++ a :: after ∧
      List.Forall₂ (fun a b => f a = .ok b) before bs ∧ f a = .error e := by
  induction as with
  | nil =>
    refine iff_of_false nofun ?_
    rintro ⟨before, a, after, bs, h, -⟩
    exact List.append_ne_nil_of_right_ne_nil before (List.cons_ne_nil a after) h.symm
  | cons a as ih =>
    rw [mapM_cons_eq_error, ih]
    constructor
    · rintro (he | ⟨b, hb, before, a', after, bs, rfl, hbefore, he⟩)
      · exact ⟨[], a, as, [], rfl, .nil, he⟩
      · exact ⟨a :: before, a', after, b :: bs, rfl, .cons hb hbefore, he⟩
    · rintro ⟨before, a', after, bs, h, hbefore, he⟩
      cases hbefore with
      | nil =>
        obtain ⟨rfl, -⟩ := List.cons.inj h
        exact .inl he
      | cons hb hbefore =>
        obtain ⟨rfl, rfl⟩ := List.cons.inj h
        exact .inr ⟨_, hb, _, a', after, _, rfl, hbefore, he⟩

/-- A loop depends on what its steps do to the elements gone through. -/
theorem foldlM_congr {f g : β → α → Except Fault β} {as : List α}
    (h : ∀ a ∈ as, ∀ b, f b a = g b a) (b : β) : as.foldlM f b = as.foldlM g b := by
  induction as generalizing b with
  | nil => rfl
  | cons a as ih =>
    rw [List.foldlM_cons, List.foldlM_cons, h a (List.mem_cons_self ..)]
    refine bind_congr fun b' => ?_
    exact ih (fun c hc => h c (List.mem_cons_of_mem _ hc)) b'

theorem refuse_ne_ok {e : Refusal} {a : α} : refuse e ≠ .ok a := by simp [refuse]

/-! ### Results and refusals -/

/-- A computation comes to a result or to a refusal. -/
def Graceful (x : Except Fault α) : Prop := ∀ m, x ≠ .error (.misuse m)

theorem graceful_ok (a : α) : Graceful (.ok a) := by simp [Graceful]

theorem graceful_pure (a : α) : Graceful (pure a) := graceful_ok a

theorem graceful_refuse (e : Refusal) : Graceful (refuse e : Except Fault α) := by
  simp [Graceful, refuse]

theorem Graceful.bind {x : Except Fault α} {f : α → Except Fault β} (hx : Graceful x)
    (hf : ∀ a, x = .ok a → Graceful (f a)) : Graceful (x >>= f) := by
  cases x with
  | error e => exact fun m h => hx m (congrArg Except.error (Except.error.inj h))
  | ok a => exact hf a rfl

theorem Graceful.of_bind {x : Except Fault α} {f : α → Except Fault β} (h : Graceful (x >>= f)) :
    Graceful x := by
  rintro m rfl
  exact h m rfl

theorem Graceful.after {x : Except Fault α} {f : α → Except Fault β} {a : α} (hx : x = .ok a)
    (hf : Graceful (f a)) : Graceful (x >>= f) := by
  rw [hx]
  exact hf

/-- What a computation that comes to no result fails with is a refusal. -/
theorem Graceful.error {x : Except Fault α} {e : Fault} (hx : Graceful x) (he : x = .error e) :
    Graceful (.error e : Except Fault β) := by
  rintro m h
  obtain rfl := Except.error.inj h
  exact hx m he

/-- A check refuses, or it goes on. -/
theorem Graceful.check {p : Prop} [Decidable p] {e : Refusal} {f : β → Except Fault α}
    {x : Except Fault α} (hx : Graceful x) : Graceful (if p then refuse e >>= f else x) := by
  split
  · exact (graceful_refuse e).bind fun b hb => absurd hb refuse_ne_ok
  · exact hx

theorem graceful_mapM {f : α → Except Fault β} {as : List α} (h : ∀ a ∈ as, Graceful (f a)) :
    Graceful (as.mapM f) := by
  induction as with
  | nil => exact graceful_ok []
  | cons a as ih =>
    rw [List.mapM_cons]
    refine (h a (List.mem_cons_self ..)).bind fun b _ => ?_
    refine (ih fun b hb => h b (List.mem_cons_of_mem _ hb)).bind fun bs _ => ?_
    exact graceful_pure _

/-! ### Kinds of refusals -/

section Refusals
variable {own own' : Refusal → Bool} {x : Except Fault α} {f : α → Except Fault β}

/-- All refusals of a computation are of the given kind. -/
def RefusesOnly (own : Refusal → Bool) (x : Except Fault α) : Prop :=
  ∀ e, x = .error (.refused e) → own e = true

theorem RefusesOnly.ok (a : α) : RefusesOnly own (.ok a) := nofun

theorem RefusesOnly.pure (a : α) : RefusesOnly own (pure a : Except Fault α) := nofun

theorem RefusesOnly.of_ok (h : ∃ a, x = .ok a) : RefusesOnly own x := by
  obtain ⟨a, rfl⟩ := h
  exact .ok a

theorem RefusesOnly.misuse (m : Misuse) : RefusesOnly own (misuse m : Except Fault α) := nofun

theorem RefusesOnly.refuse {e : Refusal} (h : own e = true) :
    RefusesOnly own (refuse e : Except Fault α) := by
  intro d hd
  obtain rfl := Fault.refused.inj (Except.error.inj hd)
  exact h

theorem RefusesOnly.bind (hx : RefusesOnly own x) (hf : ∀ a, x = .ok a → RefusesOnly own (f a)) :
    RefusesOnly own (x >>= f) := by
  cases x with
  | error e => exact fun d hd => hx d (congrArg Except.error (Except.error.inj hd))
  | ok a => exact hf a rfl

theorem RefusesOnly.check {p : Prop} [Decidable p] {e : Refusal} {k : β → Except Fault α}
    (he : own e = true) (hx : RefusesOnly own x) :
    RefusesOnly own (if p then DocForms.refuse e >>= k else x) := by
  split
  · exact (RefusesOnly.refuse he).bind fun b hb => absurd hb refuse_ne_ok
  · exact hx

theorem RefusesOnly.mapM {as : List α} (h : ∀ a ∈ as, RefusesOnly own (f a)) :
    RefusesOnly own (as.mapM f) := by
  induction as with
  | nil => exact .ok []
  | cons a as ih =>
    rw [List.mapM_cons]
    refine (h a (List.mem_cons_self ..)).bind fun b _ => ?_
    exact (ih fun b hb => h b (List.mem_cons_of_mem _ hb)).bind fun bs _ => .pure _

theorem RefusesOnly.foldlM {f : β → α → Except Fault β} {as : List α}
    (h : ∀ a ∈ as, ∀ b, RefusesOnly own (f b a)) (b : β) : RefusesOnly own (as.foldlM f b) := by
  induction as generalizing b with
  | nil => exact .pure b
  | cons a as ih =>
    rw [List.foldlM_cons]
    refine (h a (List.mem_cons_self ..) b).bind fun b' _ => ?_
    exact ih (fun c hc => h c (List.mem_cons_of_mem _ hc)) b'

theorem RefusesOnly.mono (h : ∀ e, own e = true → own' e = true) (hx : RefusesOnly own x) :
    RefusesOnly own' x := fun e he => h e (hx e he)

end Refusals

end DocForms
