import DocForms.Proofs.Validation.Entries
import DocForms.Proofs.Validation.Places
import Mathlib.Data.List.Forall2

/-! Validation is local to the fields: what a field is defined as, what its values are and what is
known of its links shows at its own keys only. -/
namespace DocForms

/-- Where a field stands in a form: its group, if it has one, and its name. -/
structure Slot where
  group : Option String
  field : String
deriving DecidableEq

/-- The slot of the field at an address. -/
def Address.slot : Address → Slot
  | .top f => ⟨none, f⟩
  | .member g f => ⟨some g, f⟩
  | .cell g _ f => ⟨some g, f⟩

namespace Form

/-- The keys of the field at a slot. A field of a repeatable group has one in every row. -/
inductive Keys (form : Form) (p : Slot) : String → Prop
  | top {f : Field} (hf : f ∈ form.fields) (hp : p = ⟨none, f.name⟩) :
      Keys form p (Address.top f.name).key
  | member {g : FieldGroup} {f : Field} (hg : g ∈ form.groups) (hr : g.repeatable = false)
      (hf : f ∈ g.fields) (hp : p = ⟨some g.name, f.name⟩) :
      Keys form p (Address.member g.name f.name).key
  | cell {g : FieldGroup} {f : Field} (hg : g ∈ form.groups) (hr : g.repeatable = true)
      (hf : f ∈ g.fields) (hp : p = ⟨some g.name, f.name⟩) (i : Nat) :
      Keys form p (Address.cell g.name i f.name).key

/-- Definitions of a field that differ at most if the field stands at a slot. -/
def SameField (p : Slot) (group : Option String) (f f' : Field) : Prop :=
  f = f' ∨ f.name = f'.name ∧ p = ⟨group, f.name⟩

theorem SameField.name_eq {p : Slot} {group : Option String} {f f' : Field}
    (h : SameField p group f f') : f.name = f'.name := by
  rcases h with rfl | ⟨hname, -⟩
  · rfl
  · exact hname

/-- Groups that differ at most in the definition of the field at a slot. -/
structure SameGroup (p : Slot) (g g' : FieldGroup) : Prop where
  group : g.toGroup = g'.toGroup
  fields : List.Forall₂ (SameField p (some g.name)) g.fields g'.fields

/-- Forms that differ at most in the definition of the field at a slot. -/
structure SameBut (p : Slot) (A B : Form) : Prop where
  fields : List.Forall₂ (SameField p none) A.fields B.fields
  groups : List.Forall₂ (SameGroup p) A.groups B.groups

end Form

/-- Rows that differ at most in the value of the field at a slot. What is no record is an empty
row. -/
def SameRow (p : Slot) (group : Option String) (v w : Value) : Prop :=
  ∀ name, p ≠ ⟨group, name⟩ →
    Entries.get (Validation.rowEntries v) name = Entries.get (Validation.rowEntries w) name

/-- Snapshots with the same rows that differ at most in the values of the field at a slot. -/
structure Snapshot.SameBut (form : Form) (p : Slot) (s s' : Snapshot) : Prop where
  simple : SameRow p none s.simple s'.simple
  shape : ∀ g ∈ form.groups, g.Takes (s.groupValue g) ↔ g.Takes (s'.groupValue g)
  row : ∀ g ∈ form.groups, g.repeatable = false →
    SameRow p (some g.name) (s.groupValue g) (s'.groupValue g)
  rows : ∀ g ∈ form.groups, g.repeatable = true →
    List.Forall₂ (SameRow p (some g.name)) (Validation.rowValues (s.groupValue g))
      (Validation.rowValues (s'.groupValue g))

/-- What is known of links differs at most at the keys of the field at a slot. -/
def ResolvedLinks.SameBut (form : Form) (p : Slot) (L L' : ResolvedLinks) : Prop :=
  ∀ key, ¬ form.Keys p key → L.document? key = L'.document? key

namespace Form
variable {form : Form} {p : Slot} {key : String}

theorem Keys.place (h : form.Keys p key) :
    ∃ f a, form.Places f a ∧ a.slot = p ∧ a.key = key := by
  cases h with
  | top hf hp => exact ⟨_, _, .inl ⟨hf, rfl⟩, hp.symm, rfl⟩
  | member hg _ hf hp => exact ⟨_, _, .inr ⟨_, hg, hf, .inl rfl⟩, hp.symm, rfl⟩
  | cell hg _ hf hp i => exact ⟨_, _, .inr ⟨_, hg, hf, .inr ⟨i, rfl⟩⟩, hp.symm, rfl⟩

/-- The key of a place of another field is none of the keys of the field at a slot. -/
theorem Places.not_keys (hn : form.WellNamed) {f : Field} {a : Address} (ha : form.Places f a)
    (hp : a.slot ≠ p) : ¬ form.Keys p a.key := by
  intro hk
  obtain ⟨f', a', ha', hslot, hkey⟩ := hk.place
  obtain rfl := Address.eq_of_key_eq (ha'.proper hn) (ha.proper hn) hkey
  exact hp hslot

end Form

/-! ### The message of a key -/

namespace ErrorMap
variable {es : ErrorMap} {key m other : String}

theorem message?_cons (e : String × String) (es : ErrorMap) (key : String) :
    message? (e :: es) key = if key = e.1 then some e.2 else es.message? key :=
  Keyed.get?_cons e.1 key e.2 es

theorem message?_isSome (h : key ∈ Keyed.names es) : (es.message? key).isSome = true := by
  induction es with
  | nil => cases h
  | cons e es ih =>
    rw [message?_cons]
    split
    · rfl
    · rename_i hne
      exact ih ((List.mem_cons.mp h).resolve_left hne)

theorem message?_append_single (es : ErrorMap) (key m other : String) :
    message? (es ++ [(key, m)]) other =
      (es.message? other).or (if key = other then some m else none) := by
  induction es with
  | nil =>
    rw [List.nil_append, message?_cons]
    by_cases h : key = other <;> simp [h, message?, eq_comm]
  | cons e es ih =>
    rw [List.cons_append, message?_cons, message?_cons, ih]
    split <;> rfl

/-- A report gives way to an earlier message. -/
theorem message?_report (es : ErrorMap) (key m other : String) : (es.report key m).message? other =
    (es.message? other).or (if key = other then some m else none) := by
  by_cases h : key ∈ Keyed.names es
  · rw [report_of_mem h]
    split
    · rename_i ho
      obtain ⟨m', hm'⟩ := Option.isSome_iff_exists.mp (message?_isSome (ho ▸ h))
      rw [hm', Option.some_or]
    · rw [Option.or_none]
  · rw [report_of_not_mem h, message?_append_single]

theorem message?_replace (es : ErrorMap) (key m other : String) :
    message? (es.map fun e => if e.1 == key then (key, m) else e) other =
      if key = other then (es.message? other).map fun _ => m else es.message? other := by
  induction es with
  | nil => simp [message?]
  | cons e es ih =>
    rw [List.map_cons, message?_cons, message?_cons, ih]
    by_cases he : e.1 = key
    · subst he
      by_cases ho : other = e.1
      · subst ho
        simp
      · simp [ho, Ne.symm ho]
    · by_cases ho : other = e.1
      · subst ho
        simp [he, Ne.symm he]
      · simp [he, ho]

/-- An overwriting message takes the place of an earlier one. -/
theorem message?_overwrite (es : ErrorMap) (key m other : String) :
    (es.overwrite key m).message? other = if key = other then some m else es.message? other := by
  by_cases h : key ∈ Keyed.names es
  · rw [overwrite, if_pos (any_key.mpr h), message?_replace]
    split
    · rename_i ho
      obtain ⟨m', hm'⟩ := Option.isSome_iff_exists.mp (message?_isSome (ho ▸ h))
      rw [hm', Option.map_some]
    · rfl
  · rw [overwrite_of_not_mem h, message?_append_single]
    split
    · rename_i ho
      have hnone : es.message? other = none := Keyed.get?_eq_none (ho ▸ h)
      rw [hnone, Option.none_or]
    · rw [Option.or_none]

end ErrorMap

namespace Validation
variable {K : String → Prop} {L L' : ResolvedLinks} {es es' es₁ es₁' : ErrorMap} {key m : String}
  {c c' : Check} {g g' : FieldGroup}

/-! ### Two runs -/

/-- Checks of two runs that report the same, unless they are reported at one of the given keys. -/
inductive Twin (K : String → Prop) : Check → Check → Prop
  | same {f : Field} {v : Value} {a : Address} (h : ¬ K a.key) :
      Twin K (.field f v a) (.field f v a)
  | own {f f' : Field} {v v' : Value} {a : Address} (h : K a.key) :
      Twin K (.field f v a) (.field f' v' a)
  | count {g g' : FieldGroup} {rows : Nat} (h : g.toGroup = g'.toGroup) :
      Twin K (.count g rows) (.count g' rows)
  | shape {g g' : FieldGroup} {v v' : Value} (h : g.toGroup = g'.toGroup)
      (hv : g.Takes v ↔ g.Takes v') : Twin K (.shape g v) (.shape g' v')

theorem takes_congr (h : g.toGroup = g'.toGroup) {v : Value} : g.Takes v ↔ g'.Takes v := by
  have one {g g' : FieldGroup} (h : g.toGroup = g'.toGroup) (hv : g.Takes v) : g'.Takes v := by
    cases hv with
    | none => exact .none
    | rows hr vs => exact .rows (h ▸ hr) vs
    | row hr es => exact .row (h ▸ hr) es
  exact ⟨one h, one h.symm⟩

theorem countProblem?_congr (h : g.toGroup = g'.toGroup) (rows : Nat) :
    countProblem? g rows = countProblem? g' rows := by
  obtain ⟨group, fields⟩ := g
  obtain rfl : group = g'.toGroup := h
  rfl

theorem shapeProblem?_of_takes {v : Value} (h : g.Takes v) : shapeProblem? g v = none :=
  Option.not_isSome_iff_eq_none.mp (mt shapeProblem_isSome.mp (not_not_intro h))

theorem shapeProblem?_of_not_takes {v : Value} (h : ¬ g.Takes v) : shapeProblem? g v =
    some (g.label ++ if g.repeatable then " must be a list of rows" else " must be a single row") := by
  have hsome := shapeProblem_isSome.mpr h
  unfold shapeProblem? at hsome ⊢
  split <;> simp_all

theorem shapeProblem?_congr (h : g.toGroup = g'.toGroup) {v v' : Value}
    (hv : g.Takes v ↔ g.Takes v') : shapeProblem? g v = shapeProblem? g' v' := by
  by_cases ht : g.Takes v
  · rw [shapeProblem?_of_takes ht, shapeProblem?_of_takes ((takes_congr h).mp (hv.mp ht))]
  · rw [shapeProblem?_of_not_takes ht,
      shapeProblem?_of_not_takes fun ht' => ht (hv.mpr ((takes_congr h).mpr ht')), h]

theorem Twin.path_eq (h : Twin K c c') : c.path = c'.path := by
  cases h with
  | same | own => rfl
  | count h | shape h => simp only [Check.path, countKey, h]

theorem Twin.problem?_eq (h : Twin K c c') (hk : ¬ K c.path)
    (hL : ∀ key, ¬ K key → L.document? key = L'.document? key) :
    c.problem? .standard L = c'.problem? .standard L' := by
  cases h with
  | @same f v a h =>
    have hv := Validators.standard_local f v a.key L L' fun _ _ _ _ => hL a.key h
    simp only [Check.problem?, fieldProblem?, hv]
  | own h => exact absurd h hk
  | count h => exact countProblem?_congr h _
  | shape h hv => exact congrArg Except.ok (shapeProblem?_congr h hv)

theorem Twin.report (h : Twin K c c') (heq : es.message? key = es'.message? key) :
    (c.report m es).message? key = (c'.report m es').message? key := by
  cases h with
  | same | own =>
    simp only [Check.report, ErrorMap.message?_report, heq]
  | count h | shape h =>
    simp only [Check.report, countKey, ErrorMap.message?_overwrite, heq, h]

theorem run_eq_ok {vs : Validators} : c.run vs L es = .ok es₁ ↔
    ∃ o, c.problem? vs L = .ok o ∧ o.elim es (c.report · es) = es₁ := by
  rw [Check.run, bind_eq_ok]
  refine exists_congr fun o => and_congr_right fun _ => ?_
  cases o <;> exact pure_eq_ok

/-- A check leaves the messages of other keys alone. -/
theorem message?_report_ne (h : c.path ≠ key) : (c.report m es).message? key = es.message? key := by
  cases c with
  | field f v a =>
    have h : a.key ≠ key := h
    rw [Check.report, ErrorMap.message?_report, if_neg h, Option.or_none]
  | count g rows =>
    have h : countKey g ≠ key := h
    rw [Check.report, ErrorMap.message?_overwrite, if_neg h]
  | shape g v =>
    have h : g.name ≠ key := h
    rw [Check.report, ErrorMap.message?_overwrite, if_neg h]

theorem message?_run_ne {vs : Validators} (hrun : c.run vs L es = .ok es₁) (h : c.path ≠ key) :
    es₁.message? key = es.message? key := by
  obtain ⟨o, -, rfl⟩ := run_eq_ok.mp hrun
  cases o with
  | none => rfl
  | some m => exact message?_report_ne h

theorem Twin.step (h : Twin K c c') (hL : ∀ key, ¬ K key → L.document? key = L'.document? key)
    (hk : ¬ K key) (heq : es.message? key = es'.message? key)
    (hrun : c.run .standard L es = .ok es₁) (hrun' : c'.run .standard L' es' = .ok es₁') :
    es₁.message? key = es₁'.message? key := by
  by_cases hp : c.path = key
  · obtain ⟨o, ho, rfl⟩ := run_eq_ok.mp hrun
    obtain ⟨o', ho', rfl⟩ := run_eq_ok.mp hrun'
    rw [h.problem?_eq (hp ▸ hk) hL, ho'] at ho
    obtain rfl := Except.ok.inj ho
    cases o' with
    | none => exact heq
    | some m => exact h.report heq
  · rw [message?_run_ne hrun hp, message?_run_ne hrun' (h.path_eq ▸ hp), heq]

/-- Two runs of twin checks give every other key the same message. -/
theorem twins_run {cs cs' : List Check} (h : List.Forall₂ (Twin K) cs cs')
    (hL : ∀ key, ¬ K key → L.document? key = L'.document? key)
    (hk : ¬ K key) (heq : es.message? key = es'.message? key)
    (hrun : cs.foldlM (Check.run .standard L) es = .ok es₁)
    (hrun' : cs'.foldlM (Check.run .standard L') es' = .ok es₁') :
    es₁.message? key = es₁'.message? key := by
  induction h generalizing es es' with
  | nil =>
    obtain rfl := pure_eq_ok.mp hrun
    obtain rfl := pure_eq_ok.mp hrun'
    exact heq
  | cons hc _ ih =>
    obtain ⟨es₂, hstep, hrest⟩ := bind_eq_ok.mp hrun
    obtain ⟨es₂', hstep', hrest'⟩ := bind_eq_ok.mp hrun'
    exact ih (hc.step hL hk heq hstep hstep') hrest hrest'

/-! ### The checks of two runs -/

theorem forall₂_mem {α β : Type} {R : α → β → Prop} {as : List α} {bs : List β}
    (h : List.Forall₂ R as bs) : List.Forall₂ (fun a b => a ∈ as ∧ R a b) as bs :=
  List.forall₂_and_left as bs |>.mpr ⟨fun _ ha => ha, h⟩

theorem forall₂_exists {α β : Type} {R : α → β → Prop} {as : List α} {bs : List β} {a : α}
    (h : List.Forall₂ R as bs) (ha : a ∈ as) : ∃ b ∈ bs, R a b := by
  induction h with
  | nil => cases ha
  | cons hab _ ih =>
    rcases List.mem_cons.mp ha with rfl | ha
    · exact ⟨_, List.mem_cons_self .., hab⟩
    · obtain ⟨b, hb, hr⟩ := ih ha
      exact ⟨b, List.mem_cons_of_mem _ hb, hr⟩

theorem forall₂_zipIdx {α β : Type} {R : α → β → Prop} {as : List α} {bs : List β}
    (h : List.Forall₂ R as bs) (n : Nat) :
    List.Forall₂ (fun a b => R a.1 b.1 ∧ a.2 = b.2) (as.zipIdx n) (bs.zipIdx n) := by
  induction h generalizing n with
  | nil => exact .nil
  | cons hab _ ih => exact .cons ⟨hab, rfl⟩ (ih (n + 1))

section Checks
variable {A B : Form} {p : Slot} {s s' : Snapshot}

/-- The checks of the fields of a row. -/
theorem row_twins {group : Option String} {fs fs' : List Field} {address : String → Address}
    {v w : Value} (hf : List.Forall₂ (Form.SameField p group) fs fs') (hrow : SameRow p group v w)
    (hown : ∀ f ∈ fs, p = ⟨group, f.name⟩ → K (address f.name).key)
    (hother : ∀ f ∈ fs, p ≠ ⟨group, f.name⟩ → ¬ K (address f.name).key) :
    List.Forall₂ (Twin K)
      (fs.map fun f => .field f (Entries.get (rowEntries v) f.name) (address f.name))
      (fs'.map fun f => .field f (Entries.get (rowEntries w) f.name) (address f.name)) := by
  rw [List.forall₂_map_left_iff, List.forall₂_map_right_iff]
  refine (forall₂_mem hf).imp fun f f' ⟨hmem, hsame⟩ => ?_
  by_cases hp : p = ⟨group, f.name⟩
  · rw [← hsame.name_eq]
    exact .own (hown f hmem hp)
  · rcases hsame with rfl | ⟨-, hp'⟩
    · rw [hrow f.name hp]
      exact .same (hother f hmem hp)
    · exact absurd hp' hp

theorem groupChecks_twins (hn : A.WellNamed) (hg : g ∈ A.groups) (hsame : Form.SameGroup p g g')
    {v v' : Value} (hv : g.Takes v ↔ g.Takes v')
    (hrow : g.repeatable = false → SameRow p (some g.name) v v')
    (hrows : g.repeatable = true →
      List.Forall₂ (SameRow p (some g.name)) (rowValues v) (rowValues v')) :
    List.Forall₂ (Twin (A.Keys p)) (groupChecks g v) (groupChecks g' v') := by
  have other {f : Field} {a : Address} (hf : f ∈ g.fields)
      (ha : a = .member g.name f.name ∨ ∃ i, a = .cell g.name i f.name)
      (hp : p ≠ ⟨some g.name, f.name⟩) : ¬ A.Keys p a.key := by
    refine Form.Places.not_keys hn (.inr ⟨g, hg, hf, ha⟩) fun hslot => hp ?_
    rcases ha with rfl | ⟨i, rfl⟩
    · exact hslot.symm
    · exact hslot.symm
  have hgroup := hsame.group
  refine .cons (.shape hgroup hv) ?_
  by_cases ht : g.Takes v
  · have ht' := (takes_congr hgroup).mp (hv.mp ht)
    rw [shapeProblem?_of_takes ht, shapeProblem?_of_takes ht', ← hgroup]
    cases hr : g.repeatable with
    | false =>
      exact row_twins hsame.fields (hrow hr) (fun f hf hp => .member hg hr hf hp)
        fun f hf hp => other hf (.inl rfl) hp
    | true =>
      refine .cons ?_ (List.rel_flatMap (forall₂_zipIdx (hrows hr) 0) ?_)
      · rw [(hrows hr).length_eq]
        exact .count hgroup
      · rintro ⟨w, i⟩ ⟨w', j⟩ ⟨hw, hij⟩
        obtain rfl : i = j := hij
        show List.Forall₂ _ (rowChecks g (.cell g.name i) _) (rowChecks g' (.cell g'.name i) _)
        rw [← hgroup]
        exact row_twins hsame.fields hw (fun f hf hp => .cell hg hr hf hp i)
          fun f hf hp => other hf (.inr ⟨i, rfl⟩) hp
  · have ht' := fun ht' => ht (hv.mpr ((takes_congr hgroup).mpr ht'))
    rw [shapeProblem?_of_not_takes ht, shapeProblem?_of_not_takes ht']
    exact .nil

theorem checks_twins (hn : A.WellNamed) (hf : Form.SameBut p A B) (hs : Snapshot.SameBut A p s s') :
    List.Forall₂ (Twin (A.Keys p)) (checks A s) (checks B s') := by
  refine List.rel_append ?_ (List.rel_flatMap (forall₂_mem hf.groups) ?_)
  · refine row_twins hf.fields hs.simple (fun f hf hp => .top hf hp) fun f hf hp => ?_
    exact Form.Places.not_keys hn (.inl ⟨hf, rfl⟩) (Ne.symm hp)
  · rintro g g' ⟨hg, hsame⟩
    show List.Forall₂ _ (groupChecks g (s.groupValue g)) (groupChecks g' (s'.groupValue g'))
    have hvalue : s'.groupValue g' = s'.groupValue g := by
      rw [Snapshot.groupValue, Snapshot.groupValue, hsame.group]
    rw [hvalue]
    exact groupChecks_twins hn hg hsame (hs.shape g hg) (hs.row g hg) (hs.rows g hg)

end Checks

/-! ### Row counts -/

/-- The message of a row count stays if only fields and the count itself are reported under its
key. -/
theorem message?_collect_count {rows : Nat} {fs : List (Check × String)}
    (h : es.message? (countKey g) = some m ∨ (.count g rows, m) ∈ fs)
    (honly : ∀ e ∈ fs, e.1.path = countKey g →
      e = (.count g rows, m) ∨ ∃ f v a, e.1 = .field f v a) :
    (fs.foldl put es).message? (countKey g) = some m := by
  induction fs generalizing es with
  | nil => exact h.resolve_right nofun
  | cons e fs ih =>
    have counted (es : ErrorMap) : (put es (.count g rows, m)).message? (countKey g) = some m := by
      rw [put, Check.report, ErrorMap.message?_overwrite, if_pos rfl]
    refine ih ?_ fun e he => honly e (List.mem_cons_of_mem _ he)
    rcases h with h | h
    · left
      by_cases hp : e.1.path = countKey g
      · rcases honly e (List.mem_cons_self ..) hp with rfl | ⟨f, v, a, hf⟩
        · exact counted es
        · rw [put, hf, Check.report, ErrorMap.message?_report, h, Option.some_or]
      · rw [put, message?_report_ne hp, h]
    · rcases List.mem_cons.mp h with rfl | h
      · exact .inl (counted es)
      · exact .inr h

/-- In the form of a registry, the message of a row count that fails takes the place of that of an
ungrouped field with the name of the count. -/
theorem count_reported {r : Registry} {id : String} {form : Form} {s : Snapshot} {rows : Nat}
    {f : Field} (hr : r.Reachable) (hform : r.getForm id = .ok form)
    (h : problems .standard form s L = .ok es) (hc : Checked form s (.count g rows))
    (hm : countProblem? g rows = .ok (some m)) (hf : f ∈ form.fields) (hname : f.name = countKey g) :
    es.message? (countKey g) = some m := by
  have hn := Registry.getForm_wellNamed hr hform
  have hapart (f) (hf : f ∈ form.fields) (g) (hg : g ∈ form.groups) : f.name ≠ g.name :=
    Registry.getForm_apart hr hform hf hg
  obtain ⟨-, -, rfl⟩ := problems_eq_ok_iff.mp h
  refine message?_collect_count (.inr (mem_failures.mpr ⟨mem_checks.mpr hc, hm⟩)) ?_
  rintro ⟨c, m'⟩ he hp
  obtain ⟨hmem, hproblem⟩ := mem_failures.mp he
  rcases eq_or_namesakes hn hapart hc (mem_checks.mp hmem) hp.symm with rfl | hcd | hdc
  · obtain rfl : m = m' := by simpa using hm.symm.trans hproblem
    exact .inl rfl
  · cases hcd with
    | field => exact .inr ⟨_, _, _, rfl⟩
    | group hgroup =>
      have hshape := (mem_checks.mp hmem).shape_cases
      exact absurd (hname.trans hgroup.symm) (hapart f hf _ hshape.1)
  · cases hdc

/-- Only an ungrouped field can have the key of a row count. -/
theorem field_of_countKey {form : Form} {p : Slot}
    (h : form.Keys p (countKey g)) (hg : isName g.name = true) :
    ∃ f ∈ form.fields, f.name = countKey g := by
  obtain ⟨f, a, hf, -, hkey⟩ := h.place
  have ha := Address.eq_top_of_key (hkey ▸ dot_not_mem_countKey hg)
  rcases hf with ⟨hf, rfl⟩ | ⟨_, -, -, rfl | ⟨_, rfl⟩⟩
  · exact ⟨f, hf, hkey⟩
  · cases ha
  · cases ha

/-! ### Locality -/

/-- Take two forms of registries that differ at most in the definition of one field, two snapshots
with the same rows that differ at most in its values, and links that differ at most at its keys. If
both are validated to the end, every key that is none of the field gets the same message or none in
both, and so do every other field at its places and every row count that fails. -/
theorem validation_local {r r' : Registry} {id id' : String} {A B : Form} {p : Slot}
    {s s' : Snapshot} (hr : r.Reachable) (hr' : r'.Reachable) (hA : r.getForm id = .ok A)
    (hB : r'.getForm id' = .ok B) (hform : Form.SameBut p A B) (hs : Snapshot.SameBut A p s s')
    (hL : ResolvedLinks.SameBut A p L L') (h : problems .standard A s L = .ok es)
    (h' : problems .standard B s' L' = .ok es') :
    (∀ key, ¬ A.Keys p key → es.message? key = es'.message? key) ∧
      (∀ f a, A.Places f a → a.slot ≠ p → es.message? a.key = es'.message? a.key) ∧
      ∀ g rows, Checked A s (.count g rows) → ¬ g.Bears rows →
        es.message? (countKey g) = es'.message? (countKey g) := by
  have hn := Registry.getForm_wellNamed hr hA
  have twins := checks_twins hn hform hs
  have elsewhere (key : String) (hk : ¬ A.Keys p key) : es.message? key = es'.message? key := by
    rw [problems_of_readable (readable_of_problems h)] at h
    rw [problems_of_readable (readable_of_problems h')] at h'
    exact twins_run twins hL hk rfl h h'
  refine ⟨elsewhere, fun f a ha hp => elsewhere _ (ha.not_keys hn hp), fun g rows hc hbears => ?_⟩
  by_cases hk : A.Keys p (countKey g)
  · -- the field is an ungrouped one with the name of the count, whose message gives way in both
    obtain ⟨f, hf, hname⟩ := field_of_countKey hk (hn.group g hc.count_cases.1)
    obtain ⟨f', hf', hsame⟩ := forall₂_exists hform.fields hf
    obtain ⟨c', hc', htwin⟩ := forall₂_exists twins (mem_checks.mpr hc)
    obtain ⟨m, hm⟩ := (exists_mem_failures (problems_eq_ok_iff.mp h).2.1).mpr ⟨hc, hbears⟩
    have hm := (mem_failures.mp hm).2
    cases htwin with
    | @count _ g' _ hgroup =>
      have hkey : countKey g = countKey g' := by rw [countKey, countKey, hgroup]
      have hm' : countProblem? g' rows = .ok (some m) := countProblem?_congr hgroup rows ▸ hm
      rw [count_reported hr hA h hc hm hf hname, hkey]
      exact (count_reported hr' hB h' (mem_checks.mp hc') hm' hf'
        (hsame.name_eq.symm.trans (hname.trans hkey))).symm
  · exact elsewhere _ hk

/-- The tallies with a count to select, whose options are broken. -/
def brokenTallies : Registry :=
  (tallies.after {} (.deleteField "c")).after { given := some "c" } (.defineField "t" (.named
    [("name", .text "lines_count"), ("label", .text "Count"), ("type", .text "select"),
      ("options", .text "\x7b")]) false)

theorem brokenTallies_reachable : Registry.Reachable brokenTallies := by
  unfold brokenTallies
  refine .step (.step tallies_reachable _ _ ?_) _ _ ?_
  · exact trivial
  · show Registry.field? _ "c" = none
    decide +kernel

/-- The form of a tally with a broken count. -/
def brokenTallyForm : Form :=
  { tallyForm with fields := [
    { id := "c", typeId := "t", name := "lines_count", label := "Count", kind := .select
      problems := ["Options for field 'lines_count' is not valid JSON: " ++
        "Expecting property name enclosed in double quotes"] }] }

theorem brokenTallies_form : brokenTallies.getForm "t" = .ok brokenTallyForm := by decide +kernel

/-- The spoiled tally without a count. -/
def uncountedTally : Snapshot := { spoiledTally with simple := .named [] }

theorem brokenCount_local : ∃ es es', problems .standard tallyForm spoiledTally [] = .ok es ∧
    problems .standard brokenTallyForm uncountedTally [] = .ok es' ∧
    (∀ key, key ≠ "lines_count" → es.message? key = es'.message? key) ∧
    es'.message? "lines_count" = some "Lines allows at most 2 row(s), got 3" := by
  obtain ⟨es, h, hcount⟩ : ∃ es, problems .standard tallyForm spoiledTally [] = .ok es ∧
      es.message? "lines_count" = some "Lines allows at most 2 row(s), got 3" :=
    ⟨[("lines_count", "Lines allows at most 2 row(s), got 3"),
      ("lines[0].amount", "Amount is required"),
      ("lines[1].amount", "Amount must be a number")], by decide +kernel, by decide +kernel⟩
  obtain ⟨es', h'⟩ : ∃ es', problems .standard brokenTallyForm uncountedTally [] = .ok es' :=
    ⟨[("lines_count", "Lines allows at most 2 row(s), got 3"),
      ("lines[0].amount", "Amount is required"),
      ("lines[1].amount", "Amount must be a number")], by decide +kernel⟩
  have hform : Form.SameBut ⟨none, "lines_count"⟩ tallyForm brokenTallyForm :=
    ⟨.cons (.inr ⟨rfl, rfl⟩) .nil, .cons ⟨rfl, .cons (.inl rfl) .nil⟩ .nil⟩
  have hs : Snapshot.SameBut tallyForm ⟨none, "lines_count"⟩ spoiledTally uncountedTally := by
    refine ⟨fun name hne => ?_, fun g _ => .rfl, fun g _ _ name _ => rfl, fun g _ _ => ?_⟩
    · have hname : name ≠ "lines_count" := fun h => hne (h ▸ rfl)
      show Entries.get (Entries.ofNames [("lines_count", .text "3")]) name = .null
      rw [Entries.get_ofNames, List.lookup_cons, beq_false_of_ne hname]
      rfl
    · exact List.forall₂_same.mpr fun _ _ _ _ => rfl
  obtain ⟨hkeys, -, hcounts⟩ := validation_local tallies_reachable brokenTallies_reachable
    tallies_form brokenTallies_form hform hs (fun _ _ => rfl) h h'
  refine ⟨es, es', h, h', fun key hne => hkeys key fun hk => hne ?_, ?_⟩
  · cases hk with
    | top _ hp => exact (congrArg Slot.field hp).symm
    | member _ _ _ hp => cases hp
    | cell _ _ _ hp => cases hp
  · have hlines : tallyForm.groups[0] ∈ tallyForm.groups := List.getElem_mem _
    have hc : Checked tallyForm spoiledTally (.count tallyForm.groups[0] 3) :=
      .count hlines (.rows rfl _) rfl
    have hmany : ¬ tallyForm.groups[0].Bears 3 := fun h => absurd (h.2 2 rfl) (by decide)
    exact (hcounts _ 3 hc hmany).symm.trans hcount

end Validation
end DocForms
