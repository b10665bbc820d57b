import DocForms.Proofs.Json.Reader
import DocForms.Proofs.Value.Written
import DocForms.Schema.Constraint

/-! Every value that JSON can write has a canonical form, and a canonical form is its own. What has
a text keeps it. -/
namespace DocForms

namespace Entries

/-- Named entries in the order of their names. -/
def inOrder (es : List (String × Value)) : List (String × Value) :=
  es.mergeSort fun a b => decide (a.1 ≤ b.1)

theorem inOrder_inOrder (es : List (String × Value)) : inOrder (inOrder es) = inOrder es := by
  refine List.mergeSort_of_pairwise (List.pairwise_mergeSort ?_ ?_ es)
  · intro a b c hab hbc
    simp only [decide_eq_true_eq] at hab hbc ⊢
    exact String.le_trans hab hbc
  · intro a b
    simpa using String.le_total a.1 b.1

theorem mem_inOrder {es : List (String × Value)} {e : String × Value} : e ∈ inOrder es ↔ e ∈ es :=
  List.mem_mergeSort

theorem exists_ofNames {es : Entries} (h : ∀ e ∈ es, ∃ s, e.1 = .text s) :
    ∃ ns, es = ofNames ns := by
  induction es with
  | nil => exact ⟨[], rfl⟩
  | cons e es ih =>
    obtain ⟨s, hs⟩ := h e (List.mem_cons_self ..)
    obtain ⟨ns, rfl⟩ := ih fun e he => h e (List.mem_cons_of_mem _ he)
    exact ⟨(s, e.2) :: ns, by rw [ofNames, ofNames, List.map_cons, ← hs]⟩

theorem sorted?_ofNames (es : List (String × Value)) :
    sorted? (ofNames es) = some (ofNames (inOrder es)) := by
  have hcomparable : ((ofNames es).all fun a => (ofNames es).all fun b =>
      (a.1.inOrder? b.1).isSome) = true := by
    simp [ofNames, Atom.inOrder?]
  have hsort := List.map_mergeSort (r := fun a b : String × Value => decide (a.1 ≤ b.1))
    (s := fun a b : Atom × Value => (a.1.inOrder? b.1).getD true)
    (f := fun e : String × Value => (Atom.text e.1, e.2)) (l := es) fun a _ b _ => rfl
  rw [sorted?, if_pos (by rw [hcomparable, Bool.or_true]), ofNames, ← hsort]
  rfl

theorem perm_of_sorted? {es es' : Entries} (h : es.sorted? = some es') : es'.Perm es := by
  unfold sorted? at h
  dsimp only at h
  split at h
  · obtain rfl := Option.some.inj h
    exact List.mergeSort_perm ..
  · cases h

end Entries

namespace Value
variable {v w : Value}

theorem canonicalItems?_fixed {vs : List Value}
    (h : ∀ v ∈ vs, ∃ w, v.canonical? = some w ∧ w.canonical? = some w) :
    ∃ ws, canonicalItems? vs = some ws ∧ canonicalItems? ws = some ws := by
  induction vs with
  | nil => exact ⟨[], rfl, rfl⟩
  | cons v vs ih =>
    obtain ⟨w, hv, hw⟩ := h v (List.mem_cons_self ..)
    obtain ⟨ws, hvs, hws⟩ := ih fun v hv => h v (List.mem_cons_of_mem _ hv)
    refine ⟨w :: ws, ?_, ?_⟩
    · simp [canonicalItems?, hv, hvs]
    · simp [canonicalItems?, hw, hws]

theorem canonicalEntries?_self {es : Entries} (h : ∀ e ∈ es, e.2.canonical? = some e.2) :
    canonicalEntries? es = some es := by
  induction es with
  | nil => rfl
  | cons e es ih =>
    have hrest := ih fun e he => h e (List.mem_cons_of_mem _ he)
    simp [canonicalEntries?, h e (List.mem_cons_self ..), hrest]

theorem canonicalEntries?_ofNames {es : List (String × Value)}
    (h : ∀ e ∈ es, ∃ w, e.2.canonical? = some w ∧ w.canonical? = some w) :
    ∃ es', canonicalEntries? (Entries.ofNames es) = some (Entries.ofNames es') ∧
      ∀ e ∈ es', e.2.canonical? = some e.2 := by
  induction es with
  | nil => exact ⟨[], rfl, nofun⟩
  | cons e es ih =>
    obtain ⟨w, hv, hw⟩ := h e (List.mem_cons_self ..)
    obtain ⟨es', hes, hes'⟩ := ih fun e he => h e (List.mem_cons_of_mem _ he)
    refine ⟨(e.1, w) :: es', ?_, List.forall_mem_cons.mpr ⟨hw, hes'⟩⟩
    rw [Entries.ofNames] at hes
    simp [Entries.ofNames, canonicalEntries?, hv, hes]

theorem keys_ofNames (es : List (String × Value)) :
    (Entries.ofNames es).mapM (fun e : Atom × Value =>
      e.1.jsonKey?.map fun k => (Atom.text k, e.2)) = some (Entries.ofNames es) := by
  induction es with
  | nil => rfl
  | cons e es ih =>
    rw [Entries.ofNames] at ih
    rw [Entries.ofNames, List.map_cons, List.mapM_cons, ih]
    rfl

/-- The canonical form of a record keyed by texts: its values in canonical form, in the order of
their names. -/
theorem canonical?_named {es es' : List (String × Value)}
    (h : canonicalEntries? (Entries.ofNames es) = some (Entries.ofNames es')) :
    (named es).canonical? = some (named (Entries.inOrder es')) := by
  rw [named, canonical?, h, Option.bind_some, Entries.sorted?_ofNames, Option.bind_some, keys_ofNames]
  rfl

/-- A value that JSON can write has a canonical form, which is its own canonical form. -/
theorem IsJson.canonical (h : v.IsJson) : ∃ w, v.canonical? = some w ∧ w.canonical? = some w := by
  induction h with
  | @atom a ha =>
    cases a with
    | date | moment => cases ha
    | null | bool | int | float | text => exact ⟨_, rfl, rfl⟩
  | list _ ih =>
    obtain ⟨ws, hvs, hws⟩ := canonicalItems?_fixed ih
    exact ⟨.list ws, by rw [canonical?, hvs]; rfl, by rw [canonical?, hws]; rfl⟩
  | record hkeys _ ih =>
    obtain ⟨es, rfl⟩ := Entries.exists_ofNames hkeys
    obtain ⟨es', hes, hes'⟩ := canonicalEntries?_ofNames fun e (he : e ∈ es) =>
      ih (.text e.1, e.2) (List.mem_map_of_mem he)
    refine ⟨_, canonical?_named hes, ?_⟩
    have hself : canonicalEntries? (Entries.ofNames (Entries.inOrder es')) =
        some (Entries.ofNames (Entries.inOrder es')) := by
      refine canonicalEntries?_self fun e he => ?_
      obtain ⟨named, hnamed, rfl⟩ := List.mem_map.mp he
      exact hes' named (Entries.mem_inOrder.mp hnamed)
    rw [canonical?_named hself, Entries.inOrder_inOrder]

theorem mem_of_mapM_some {α β : Type} {f : α → Option β} {as : List α} {bs : List β}
    (h : as.mapM f = some bs) : ∀ b ∈ bs, ∃ a ∈ as, f a = some b := by
  induction as generalizing bs with
  | nil =>
    obtain rfl := Option.some.inj h
    nofun
  | cons a as ih =>
    rw [List.mapM_cons] at h
    obtain ⟨b, hb, h⟩ := Option.bind_eq_some_iff.mp h
    obtain ⟨bs', hbs, h⟩ := Option.bind_eq_some_iff.mp h
    obtain rfl := Option.some.inj h
    refine List.forall_mem_cons.mpr ⟨⟨a, List.mem_cons_self .., hb⟩, fun b' hb' => ?_⟩
    obtain ⟨a', ha', hfa⟩ := ih hbs b' hb'
    exact ⟨a', List.mem_cons_of_mem _ ha', hfa⟩

-- the induction is on the value together with its items and entries

mutual

/-- The canonical form of a value that has a text has one too. -/
theorem canonical?_hasText : (v : Value) → {w : Value} → v.canonical? = some w →
    v.hasText = true → w.hasText = true
  | .atom a, w, h, ht => by
    cases a with
    | date | moment => cases h
    | null | bool | int | float | text =>
      obtain rfl := Option.some.inj h
      exact ht
  | .link _, w, h, _ => by cases h
  | .list vs, w, h, ht => by
    obtain ⟨ws, hws, rfl⟩ := Option.map_eq_some_iff.mp h
    exact canonicalItems?_haveText vs hws ht
  | .record es, w, h, ht => by
    obtain ⟨es', hes, h⟩ := Option.bind_eq_some_iff.mp h
    obtain ⟨sorted, hsorted, h⟩ := Option.bind_eq_some_iff.mp h
    obtain ⟨keyed, hkeyed, rfl⟩ := Option.map_eq_some_iff.mp h
    have hall := entriesHaveText_iff.mp (canonicalEntries?_haveText es hes ht)
    refine entriesHaveText_iff.mpr fun e he => ?_
    obtain ⟨e', he', hkey⟩ := mem_of_mapM_some hkeyed e he
    obtain ⟨k, -, rfl⟩ := Option.map_eq_some_iff.mp hkey
    exact ⟨rfl, (hall e' ((Entries.perm_of_sorted? hsorted).mem_iff.mp he')).2⟩

theorem canonicalItems?_haveText : (vs : List Value) → {ws : List Value} →
    canonicalItems? vs = some ws → itemsHaveText vs = true → itemsHaveText ws = true
  | [], ws, h, _ => by
    obtain rfl := Option.some.inj h
    rfl
  | v :: vs, ws, h, ht => by
    obtain ⟨w, hw, h⟩ := Option.bind_eq_some_iff.mp h
    obtain ⟨ws', hws, rfl⟩ := Option.map_eq_some_iff.mp h
    rw [itemsHaveText, Bool.and_eq_true] at ht ⊢
    exact ⟨canonical?_hasText v hw ht.1, canonicalItems?_haveText vs hws ht.2⟩

theorem canonicalEntries?_haveText : (es : Entries) → {es' : Entries} →
    canonicalEntries? es = some es' → entriesHaveText es = true → entriesHaveText es' = true
  | [], es', h, _ => by
    obtain rfl := Option.some.inj h
    rfl
  | (k, v) :: es, es', h, ht => by
    obtain ⟨w, hw, h⟩ := Option.bind_eq_some_iff.mp h
    obtain ⟨es'', hes, rfl⟩ := Option.map_eq_some_iff.mp h
    rw [entriesHaveText, Bool.and_eq_true, Bool.and_eq_true] at ht ⊢
    exact ⟨⟨ht.1.1, canonical?_hasText v hw ht.1.2⟩, canonicalEntries?_haveText es hes ht.2⟩

end

end Value
end DocForms
