import DocForms.Keyed
import Mathlib.Data.List.Nodup

/-! What is found under a name after names have been put and taken out of use. -/
namespace DocForms.Keyed
variable {α β : Type}

@[simp] theorem get?_nil (name : String) : get? ([] : Keyed α) name = none := rfl

theorem get?_cons (n name : String) (a : α) (m : Keyed α) :
    get? ((n, a) :: m) name = if name = n then some a else get? m name := by
  rw [get?, List.lookup_cons]
  by_cases h : name = n
  · simp [h]
  · simp [h, beq_false_of_ne h, get?]

theorem get?_put (m : Keyed α) (name other : String) (a : α) :
    (m.put name a).get? other = if other = name then some a else m.get? other := by
  induction m with
  | nil => simp [put, get?_cons]
  | cons e m ih =>
    obtain ⟨n, b⟩ := e
    by_cases h : n = name
    · subst h
      by_cases ho : other = n <;> simp [put, get?_cons, ho]
    · have hput : put ((n, b) :: m) name a = (n, b) :: put m name a := by simp [put, h]
      rw [hput, get?_cons, get?_cons, ih]
      by_cases ho : other = n
      · subst ho; simp [h]
      · simp [ho]

theorem get?_erase (m : Keyed α) (name other : String) :
    (m.erase name).get? other = if other = name then none else m.get? other := by
  induction m with
  | nil => simp [erase]
  | cons e m ih =>
    obtain ⟨n, b⟩ := e
    by_cases h : n = name
    · subst h
      rw [show erase ((n, b) :: m) n = erase m n by simp [erase], ih, get?_cons]
      split <;> rfl
    · rw [show erase ((n, b) :: m) name = (n, b) :: erase m name by simp [erase, h],
        get?_cons, get?_cons, ih]
      by_cases ho : other = n
      · subst ho; simp [h]
      · simp [ho]

@[simp] theorem get?_put_self (m : Keyed α) (name : String) (a : α) :
    (m.put name a).get? name = some a := by simp [get?_put]

@[simp] theorem get?_erase_self (m : Keyed α) (name : String) :
    (m.erase name).get? name = none := by simp [get?_erase]

theorem get?_map (m : Keyed α) (f : α → β) (name : String) :
    get? (m.map fun e => (e.1, f e.2)) name = (m.get? name).map f := by
  induction m with
  | nil => rfl
  | cons e m ih =>
    obtain ⟨n, b⟩ := e
    rw [List.map_cons, get?_cons, get?_cons, ih]
    split <;> rfl

/-- Nothing is found under a name that is not in use. -/
theorem get?_eq_none {m : Keyed α} {name : String} (h : name ∉ m.names) : m.get? name = none := by
  induction m with
  | nil => rfl
  | cons e m ih =>
    simp only [names, List.map_cons, List.mem_cons, not_or] at h
    rw [get?_cons, if_neg h.1]
    exact ih h.2

theorem mem_of_get? {m : Keyed α} {name : String} {a : α} (h : m.get? name = some a) :
    (name, a) ∈ m := by
  induction m with
  | nil => cases h
  | cons e m ih =>
    obtain ⟨n, b⟩ := e
    rw [get?_cons] at h
    split at h
    · subst_vars
      obtain rfl := Option.some.inj h
      exact List.mem_cons_self ..
    · exact List.mem_cons_of_mem _ (ih h)

/-- What is listed under a name is found if nothing else is listed under it. -/
theorem get?_of_unique {m : Keyed α} {name : String} {a : α} (h : (name, a) ∈ m)
    (hu : ∀ b, (name, b) ∈ m → b = a) : m.get? name = some a := by
  induction m with
  | nil => cases h
  | cons e m ih =>
    obtain ⟨n, b⟩ := e
    rw [get?_cons]
    split
    · subst_vars
      rw [hu b (List.mem_cons_self ..)]
    · rename_i hne
      rcases List.mem_cons.mp h with he | hmem
      · exact absurd (congrArg Prod.fst he) hne
      · exact ih hmem fun c hc => hu c (List.mem_cons_of_mem _ hc)

theorem get?_of_mem {m : Keyed α} (hm : m.names.Nodup) {name : String} {a : α} (h : (name, a) ∈ m) :
    m.get? name = some a :=
  get?_of_unique h fun _ hb => congrArg Prod.snd (List.inj_on_of_nodup_map hm hb h rfl)

theorem mem_names_put {m : Keyed α} {name other : String} {a : α} :
    other ∈ (m.put name a).names ↔ other = name ∨ other ∈ m.names := by
  induction m with
  | nil => simp [put, names]
  | cons e m ih =>
    obtain ⟨n, b⟩ := e
    simp only [names] at ih
    by_cases h : n = name
    · simp [put, names, h]
    · simp [put, names, h, ih, or_left_comm]

theorem nodup_put {m : Keyed α} (hm : m.names.Nodup) (name : String) (a : α) :
    (m.put name a).names.Nodup := by
  induction m with
  | nil => simp [put, names]
  | cons e m ih =>
    obtain ⟨n, b⟩ := e
    obtain ⟨hn, hm⟩ := List.nodup_cons.mp hm
    by_cases h : n = name
    · rw [put, if_pos (by simpa using h)]
      exact List.nodup_cons.mpr ⟨hn, hm⟩
    · rw [put, if_neg (by simpa using h)]
      refine List.nodup_cons.mpr ⟨fun hmem => ?_, ih hm⟩
      rcases mem_names_put.mp hmem with he | hmem
      · exact h he
      · exact hn hmem

theorem nodup_erase {m : Keyed α} (hm : m.names.Nodup) (name : String) :
    (m.erase name).names.Nodup := (List.filter_sublist.map _).nodup hm

theorem put_append {pre : Keyed α} {name : String} (h : name ∉ pre.names) (m : Keyed α) (a : α) :
    (pre ++ m).put name a = pre ++ m.put name a := by
  induction pre with
  | nil => rfl
  | cons e pre ih =>
    obtain ⟨n, b⟩ := e
    simp only [names, List.map_cons, List.mem_cons, not_or] at h
    rw [List.cons_append, put, if_neg (by simpa using Ne.symm h.1), ih h.2, List.cons_append]

/-- What is put under names in turn takes the places of these names, as far as they have places, and
comes at the end from there on. -/
theorem foldl_put (pre xs ys : Keyed α) (hnames : xs.names <+: ys.names)
    (hnodup : (names (pre ++ ys)).Nodup) :
    ys.foldl (fun m e => m.put e.1 e.2) (pre ++ xs) = pre ++ ys := by
  induction ys generalizing pre xs with
  | nil =>
    have hxs : xs = [] := List.map_eq_nil_iff.mp (List.prefix_nil.mp hnames)
    rw [hxs, List.foldl_nil]
  | cons e ys ih =>
    obtain ⟨n, a⟩ := e
    have hn : n ∉ names pre := by
      rw [names, List.map_append] at hnodup
      intro hmem
      exact List.disjoint_of_nodup_append hnodup hmem (List.mem_cons_self ..)
    obtain ⟨rest, hrest, hput⟩ : ∃ rest : Keyed α, rest.names <+: names ys ∧
        put xs n a = (n, a) :: rest := by
      cases xs with
      | nil => exact ⟨[], List.nil_prefix, rfl⟩
      | cons e xs =>
        obtain ⟨m, b⟩ := e
        obtain ⟨rfl, hxs⟩ := List.cons_prefix_cons.mp hnames
        exact ⟨xs, hxs, by rw [put, if_pos (by simp)]⟩
    have hstep := ih (pre ++ [(n, a)]) rest hrest (by simpa using hnodup)
    rw [List.foldl_cons, put_append hn, hput]
    simpa using hstep

theorem names_map (f : α → β) (m : Keyed α) : names (m.map fun e => (e.1, f e.2)) = names m := by
  rw [names, names, List.map_map]
  rfl

theorem map_put (f : α → β) (m : Keyed α) (name : String) (a : α) :
    (m.put name a).map (fun e => (e.1, f e.2)) = put (m.map fun e => (e.1, f e.2)) name (f a) := by
  induction m with
  | nil => rfl
  | cons e m ih =>
    obtain ⟨n, b⟩ := e
    rw [List.map_cons, put, put]
    split
    · rfl
    · rw [List.map_cons, ih]

/-- Replacing what is listed under a name in use is putting it there. -/
theorem map_eq_put {m : Keyed α} (hm : m.names.Nodup) {name : String} (h : name ∈ m.names) (a : α) :
    m.map (fun e => if e.1 == name then (name, a) else e) = m.put name a := by
  induction m with
  | nil => cases h
  | cons e m ih =>
    obtain ⟨n, b⟩ := e
    obtain ⟨hn, hm⟩ := List.nodup_cons.mp hm
    rw [List.map_cons, put]
    by_cases hname : n = name
    · subst hname
      have hrest : m.map (fun e => if e.1 == n then (n, a) else e) = m := by
        conv_rhs => rw [← List.map_id m]
        refine List.map_congr_left ?_
        intro e he
        have hne : e.1 ≠ n := by
          rintro rfl
          exact hn (List.mem_map.mpr ⟨e, he, rfl⟩)
        rw [if_neg (by simpa using hne), id]
      rw [hrest, if_pos (by simp), if_pos (by simp)]
    · have hmem : name ∈ names m := (List.mem_cons.mp h).resolve_left (Ne.symm hname)
      rw [if_neg (by simpa using hname), if_neg (by simpa using hname), ih hm hmem]

end DocForms.Keyed
