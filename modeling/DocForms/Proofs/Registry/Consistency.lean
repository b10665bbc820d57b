import DocForms.Proofs.Registry.Change
import Mathlib.Data.List.Nodup

/-! The invariant of a registry: identifiers, codes and names are unique where they have to be, and
every record belongs to records that exist. -/
namespace DocForms

section Upsert
variable {α : Type} {id : α → String} {r a : α} {as : List α}

/-- When identifiers are unique, a record that is put takes the place of the one that had its
identifier, and the others stay. -/
theorem mem_upsert (hn : (as.map id).Nodup) :
    a ∈ upsert id r as ↔ a = r ∨ a ∈ as ∧ id a ≠ id r := by
  induction as with
  | nil => simp [upsert]
  | cons b as ih =>
    rw [List.map_cons, List.nodup_cons] at hn
    have others : ∀ c ∈ as, id c ≠ id b := fun c hc he => hn.1 (he ▸ List.mem_map_of_mem hc)
    unfold upsert
    split
    · rename_i hb
      have hb : id b = id r := by simpa using hb
      constructor
      · intro h
        rcases List.mem_cons.mp h with rfl | h
        · exact .inl rfl
        · exact .inr ⟨List.mem_cons_of_mem _ h, hb ▸ others a h⟩
      · rintro (rfl | ⟨h, hne⟩)
        · exact List.mem_cons_self ..
        · rcases List.mem_cons.mp h with rfl | h
          · exact absurd hb hne
          · exact List.mem_cons_of_mem _ h
    · rename_i hb
      have hb : id b ≠ id r := by simpa using hb
      rw [List.mem_cons, ih hn.2, List.mem_cons]
      constructor
      · rintro (rfl | rfl | h)
        · exact .inr ⟨.inl rfl, hb⟩
        · exact .inl rfl
        · exact .inr ⟨.inr h.1, h.2⟩
      · rintro (rfl | ⟨rfl | h, hne⟩)
        · exact .inr (.inl rfl)
        · exact .inl rfl
        · exact .inr (.inr ⟨h, hne⟩)

theorem nodup_upsert (hn : (as.map id).Nodup) : ((upsert id r as).map id).Nodup := by
  induction as with
  | nil => simp [upsert]
  | cons b as ih =>
    rw [List.map_cons, List.nodup_cons] at hn
    unfold upsert
    split
    · rename_i hb
      have hb : id b = id r := by simpa using hb
      simpa [← hb] using hn
    · rename_i hb
      have hb : id b ≠ id r := by simpa using hb
      rw [List.map_cons, List.nodup_cons]
      refine ⟨fun h => ?_, ih hn.2⟩
      obtain ⟨c, hc, hid⟩ := List.mem_map.mp h
      rcases (mem_upsert hn.2).mp hc with rfl | ⟨hc, -⟩
      · exact hb hid.symm
      · exact hn.1 (hid ▸ List.mem_map_of_mem hc)

end Upsert

namespace Registry

/-- Identifiers are unique among the records of a kind. -/
structure Identified (r : Registry) : Prop where
  types : (r.types.map DocumentType.id).Nodup
  groups : (r.groups.map Group.id).Nodup
  fields : (r.fields.map Field.id).Nodup
  templates : (r.templates.map Prod.fst).Nodup

/-- Codes and names are well-formed and unique in their scopes. -/
structure Named (r : Registry) : Prop where
  code : ∀ t ∈ r.types, isCode t.code = true
  codes : ∀ t ∈ r.types, ∀ u ∈ r.types, t.code = u.code → t.id = u.id
  field : ∀ f ∈ r.fields, isName f.name = true
  fields : ∀ f ∈ r.fields, ∀ g ∈ r.fields, f.typeId = g.typeId → f.name = g.name → f.id = g.id
  group : ∀ g ∈ r.groups, isName g.name = true
  groups : ∀ g ∈ r.groups, ∀ h ∈ r.groups, g.typeId = h.typeId → g.name = h.name → g.id = h.id
  apart : ∀ f ∈ r.fields, f.groupId = none → ∀ g ∈ r.groups, f.typeId = g.typeId → f.name ≠ g.name

/-- Every record belongs to records that exist. -/
structure Owned (r : Registry) : Prop where
  field : ∀ f ∈ r.fields, r.HasType f.typeId
  group : ∀ g ∈ r.groups, r.HasType g.typeId
  template : ∀ e ∈ r.templates, r.HasType e.1
  grouped : ∀ f ∈ r.fields, ∀ id, f.groupId = some id → r.HasGroup id f.typeId

variable {r r' : Registry}

theorem Identified.change (hi : r.Identified) (h : r.Change r') : r'.Identified := by
  cases h with
  | putType t => exact { hi with types := nodup_upsert hi.types }
  | dropType id =>
    exact ⟨(List.filter_sublist.map _).nodup hi.types, (List.filter_sublist.map _).nodup hi.groups,
      (List.filter_sublist.map _).nodup hi.fields, (List.filter_sublist.map _).nodup hi.templates⟩
  | putField f => exact { hi with fields := nodup_upsert hi.fields }
  | dropField id => exact { hi with fields := (List.filter_sublist.map _).nodup hi.fields }
  | orderFields order => exact { hi with fields := by simpa [Function.comp_def] using hi.fields }
  | putGroup g => exact { hi with groups := nodup_upsert hi.groups }
  | dropGroup id =>
    exact { hi with
      fields := (List.filter_sublist.map _).nodup hi.fields
      groups := (List.filter_sublist.map _).nodup hi.groups }
  | orderGroups order => exact { hi with groups := by simpa [Function.comp_def] using hi.groups }
  | putTemplate => exact { hi with templates := nodup_upsert hi.templates }

theorem Named.putType {t : DocumentType} (hi : r.Identified) (hn : r.Named) (fits : r.TypeFits t) :
    { r with types := upsert DocumentType.id t r.types }.Named := by
  refine { hn with code := fun u hu => ?_, codes := fun u hu v hv hc => ?_ }
  · rcases (mem_upsert hi.types).mp hu with rfl | ⟨old, -⟩
    · exact fits.code
    · exact hn.code u old
  · rcases (mem_upsert hi.types).mp hu with rfl | ⟨oldU, -⟩ <;>
      rcases (mem_upsert hi.types).mp hv with rfl | ⟨oldV, -⟩
    · rfl
    · exact (fits.unique v oldV hc.symm).symm
    · exact fits.unique u oldU hc
    · exact hn.codes u oldU v oldV hc

theorem Named.putField {f : Field} (hi : r.Identified) (hn : r.Named) (fits : r.FieldFits f) :
    { r with fields := upsert Field.id f r.fields }.Named := by
  refine { hn with
    field := fun g hg => ?_, fields := fun g hg h hh ht hc => ?_, apart := fun g hg hu => ?_ }
  · rcases (mem_upsert hi.fields).mp hg with rfl | ⟨old, -⟩
    · exact fits.name
    · exact hn.field g old
  · rcases (mem_upsert hi.fields).mp hg with rfl | ⟨oldG, -⟩ <;>
      rcases (mem_upsert hi.fields).mp hh with rfl | ⟨oldH, -⟩
    · rfl
    · exact (fits.unique h oldH ht.symm hc.symm).symm
    · exact fits.unique g oldG ht hc
    · exact hn.fields g oldG h oldH ht hc
  · rcases (mem_upsert hi.fields).mp hg with rfl | ⟨old, -⟩
    · exact fun h hh ht => (fits.ungrouped hu h hh ht.symm).symm
    · exact hn.apart g old hu

theorem Named.putGroup {g : Group} (hi : r.Identified) (hn : r.Named) (fits : r.GroupFits g) :
    { r with groups := upsert Group.id g r.groups }.Named := by
  refine { hn with
    group := fun h hh => ?_, groups := fun h hh k hk ht hc => ?_
    apart := fun f hf hu h hh ht => ?_ }
  · rcases (mem_upsert hi.groups).mp hh with rfl | ⟨old, -⟩
    · exact fits.name
    · exact hn.group h old
  · rcases (mem_upsert hi.groups).mp hh with rfl | ⟨oldH, -⟩ <;>
      rcases (mem_upsert hi.groups).mp hk with rfl | ⟨oldK, -⟩
    · rfl
    · exact (fits.unique k oldK ht.symm hc.symm).symm
    · exact fits.unique h oldH ht hc
    · exact hn.groups h oldH k oldK ht hc
  · rcases (mem_upsert hi.groups).mp hh with rfl | ⟨old, -⟩
    · exact fits.apart f hf ht hu
    · exact hn.apart f hf hu h old ht

/-- Names stay unique when records are dropped, and when only their orders are changed. -/
theorem Named.of_subset (hn : r.Named) (types : ∀ t ∈ r'.types, t ∈ r.types)
    (groups : ∀ g ∈ r'.groups, ∃ order, { g with order } ∈ r.groups)
    (fields : ∀ f ∈ r'.fields, ∃ order, { f with order } ∈ r.fields) : r'.Named where
  code t ht := hn.code t (types t ht)
  codes t ht u hu := hn.codes t (types t ht) u (types u hu)
  field f hf := by
    obtain ⟨_, old⟩ := fields f hf
    exact (hn.field _ old :)
  fields f hf g hg := by
    obtain ⟨_, oldF⟩ := fields f hf
    obtain ⟨_, oldG⟩ := fields g hg
    exact (hn.fields _ oldF _ oldG :)
  group g hg := by
    obtain ⟨_, old⟩ := groups g hg
    exact (hn.group _ old :)
  groups g hg h hh := by
    obtain ⟨_, oldG⟩ := groups g hg
    obtain ⟨_, oldH⟩ := groups h hh
    exact (hn.groups _ oldG _ oldH :)
  apart f hf hu g hg := by
    obtain ⟨_, oldF⟩ := fields f hf
    obtain ⟨_, oldG⟩ := groups g hg
    exact (hn.apart _ oldF hu _ oldG :)

theorem Named.change (hi : r.Identified) (hn : r.Named) (h : r.Change r') : r'.Named := by
  have same {α : Type} {as : List α} (p : α → Bool) : ∀ a ∈ as.filter p, a ∈ as :=
    fun a ha => (List.mem_filter.mp ha).1
  cases h with
  | putType t fits => exact hn.putType hi fits
  | putField f fits => exact hn.putField hi fits
  | putGroup g fits => exact hn.putGroup hi fits
  | putTemplate => exact { hn with }
  | dropType id =>
    exact hn.of_subset (same _) (fun g hg => ⟨g.order, same _ g hg⟩)
      fun f hf => ⟨f.order, same _ f hf⟩
  | dropField id =>
    exact hn.of_subset (fun _ ht => ht) (fun g hg => ⟨g.order, hg⟩) fun f hf => ⟨f.order, same _ f hf⟩
  | dropGroup id =>
    exact hn.of_subset (fun _ ht => ht) (fun g hg => ⟨g.order, same _ g hg⟩)
      fun f hf => ⟨f.order, same _ f hf⟩
  | orderFields order =>
    refine hn.of_subset (fun _ ht => ht) (fun g hg => ⟨g.order, hg⟩) fun f hf => ?_
    obtain ⟨f₀, hf₀, rfl⟩ := List.mem_map.mp hf
    exact ⟨f₀.order, hf₀⟩
  | orderGroups order =>
    refine hn.of_subset (fun _ ht => ht) (fun g hg => ?_) fun f hf => ⟨f.order, hf⟩
    obtain ⟨g₀, hg₀, rfl⟩ := List.mem_map.mp hg
    exact ⟨g₀.order, hg₀⟩

/-! ### Owners -/

theorem group?_of_mem (hi : r.Identified) {g : Group} (hg : g ∈ r.groups) :
    r.group? g.id = some g := by
  cases hf : r.group? g.id with
  | none => simpa using List.find?_eq_none.mp hf g hg
  | some g' =>
    obtain ⟨hg', hid⟩ := group?_eq_some hf
    rw [List.inj_on_of_nodup_map hi.groups hg' hg hid]

theorem Owned.putType {t : DocumentType} (hi : r.Identified) (ho : r.Owned) :
    { r with types := upsert DocumentType.id t r.types }.Owned := by
  have stays {id : String} (h : r.HasType id) :
      HasType { r with types := upsert DocumentType.id t r.types } id := by
    obtain ⟨u, hu, rfl⟩ := h
    by_cases he : u.id = t.id
    · exact ⟨t, (mem_upsert hi.types).mpr (.inl rfl), he.symm⟩
    · exact ⟨u, (mem_upsert hi.types).mpr (.inr ⟨hu, he⟩), rfl⟩
  exact {
    field := fun f hf => stays (ho.field f hf)
    group := fun g hg => stays (ho.group g hg)
    template := fun e he => stays (ho.template e he)
    grouped := ho.grouped }

theorem Owned.dropType (ho : r.Owned) (id : String) : Owned {
    types := r.types.filter (·.id != id)
    groups := r.groups.filter (·.typeId != id)
    fields := r.fields.filter (·.typeId != id)
    templates := r.templates.filter (·.1 != id) } := by
  have stays {id' : String} (h : r.HasType id') (hne : id' ≠ id) :
      ∃ t ∈ r.types.filter (·.id != id), t.id = id' := by
    obtain ⟨t, ht, rfl⟩ := h
    exact ⟨t, by simp [ht, hne], rfl⟩
  refine ⟨fun f hf => ?_, fun g hg => ?_, fun e he => ?_, fun f hf gid hgid => ?_⟩
  · obtain ⟨hf, hne⟩ := List.mem_filter.mp hf
    exact stays (ho.field f hf) (by simpa using hne)
  · obtain ⟨hg, hne⟩ := List.mem_filter.mp hg
    exact stays (ho.group g hg) (by simpa using hne)
  · obtain ⟨he, hne⟩ := List.mem_filter.mp he
    exact stays (ho.template e he) (by simpa using hne)
  · obtain ⟨hf, hne⟩ := List.mem_filter.mp hf
    obtain ⟨g, hg, rfl, ht⟩ := ho.grouped f hf gid hgid
    exact ⟨g, List.mem_filter.mpr ⟨hg, by simpa [ht] using hne⟩, rfl, ht⟩

theorem Owned.putField {f : Field} (hi : r.Identified) (ho : r.Owned) (fits : r.FieldFits f) :
    { r with fields := upsert Field.id f r.fields }.Owned := by
  refine { ho with field := fun g hg => ?_, grouped := fun g hg => ?_ }
  · rcases (mem_upsert hi.fields).mp hg with rfl | ⟨old, -⟩
    · rcases fits.owner with h | ⟨g', hg', ht⟩
      · exact h
      · exact ht ▸ ho.field g' hg'
    · exact ho.field g old
  · rcases (mem_upsert hi.fields).mp hg with rfl | ⟨old, -⟩
    · exact fits.group
    · exact ho.grouped g old

theorem Owned.putGroup {g : Group} (hi : r.Identified) (ho : r.Owned) (fits : r.GroupFits g) :
    { r with groups := upsert Group.id g r.groups }.Owned := by
  refine { ho with group := fun h hh => ?_, grouped := fun f hf gid hgid => ?_ }
  · rcases (mem_upsert hi.groups).mp hh with rfl | ⟨old, -⟩
    · rcases fits.owner with h | ⟨g', hg', ht⟩
      · exact h
      · exact ht ▸ ho.group g' hg'
    · exact ho.group h old
  · obtain ⟨h, hh, rfl, ht⟩ := ho.grouped f hf gid hgid
    by_cases he : h.id = g.id
    · have hstay := fits.stays h (he ▸ group?_of_mem hi hh)
      exact ⟨g, (mem_upsert hi.groups).mpr (.inl rfl), he.symm, hstay ▸ ht⟩
    · exact ⟨h, (mem_upsert hi.groups).mpr (.inr ⟨hh, he⟩), rfl, ht⟩

theorem Owned.dropGroup (ho : r.Owned) (id : String) : { r with
    fields := r.fields.filter (·.groupId != some id)
    groups := r.groups.filter (·.id != id) }.Owned := by
  refine { ho with
    field := fun f hf => ho.field f (List.mem_filter.mp hf).1
    group := fun g hg => ho.group g (List.mem_filter.mp hg).1
    grouped := fun f hf gid hgid => ?_ }
  obtain ⟨hf, hne⟩ := List.mem_filter.mp hf
  obtain ⟨g, hg, rfl, ht⟩ := ho.grouped f hf gid hgid
  exact ⟨g, List.mem_filter.mpr ⟨hg, by simpa [hgid] using hne⟩, rfl, ht⟩

theorem Owned.change (hi : r.Identified) (ho : r.Owned) (h : r.Change r') : r'.Owned := by
  cases h with
  | putType t => exact ho.putType hi
  | dropType id => exact ho.dropType id
  | putField f fits => exact ho.putField hi fits
  | putGroup g fits => exact ho.putGroup hi fits
  | dropGroup id => exact ho.dropGroup id
  | dropField id =>
    exact { ho with
      field := fun f hf => ho.field f (List.mem_filter.mp hf).1
      grouped := fun f hf => ho.grouped f (List.mem_filter.mp hf).1 }
  | orderFields order =>
    refine { ho with field := fun f hf => ?_, grouped := fun f hf => ?_ } <;>
      obtain ⟨f₀, hf₀, rfl⟩ := List.mem_map.mp hf
    · exact ho.field f₀ hf₀
    · exact ho.grouped f₀ hf₀
  | orderGroups order =>
    refine { ho with group := fun g hg => ?_, grouped := fun f hf gid hgid => ?_ }
    · obtain ⟨g₀, hg₀, rfl⟩ := List.mem_map.mp hg
      exact ho.group g₀ hg₀
    · obtain ⟨g, hg, hid, ht⟩ := ho.grouped f hf gid hgid
      exact ⟨_, List.mem_map_of_mem hg, hid, ht⟩
  | putTemplate typeId t owner =>
    refine { ho with template := fun e he => ?_ }
    rcases (mem_upsert hi.templates).mp he with rfl | ⟨old, -⟩
    · exact owner
    · exact ho.template e old

/-! ### Bounds -/

theorem rows_change (hi : r.Identified) (hr : ∀ g ∈ r.groups, RowsFit g) (h : r.Change r') :
    ∀ g ∈ r'.groups, RowsFit g := by
  cases h with
  | putType | putField | dropField | orderFields | putTemplate => exact hr
  | dropType | dropGroup => exact fun g hg => hr g (List.mem_filter.mp hg).1
  | putGroup g fits =>
    intro h hh
    rcases (mem_upsert hi.groups).mp hh with rfl | ⟨old, -⟩
    · exact fits.rows
    · exact hr h old
  | orderGroups order =>
    intro g hg
    obtain ⟨g₀, hg₀, rfl⟩ := List.mem_map.mp hg
    exact ⟨(hr g₀ hg₀).single, (hr g₀ hg₀).least, (hr g₀ hg₀).most, (hr g₀ hg₀).ordered⟩

/-- The invariant of a registry. -/
structure Consistent (r : Registry) : Prop where
  identified : r.Identified
  named : r.Named
  owned : r.Owned
  rows : ∀ g ∈ r.groups, RowsFit g

theorem consistent_empty : Consistent Registry.empty := by
  refine ⟨⟨?_, ?_, ?_, ?_⟩, ⟨?_, ?_, ?_, ?_, ?_, ?_, ?_⟩, ⟨?_, ?_, ?_, ?_⟩, ?_⟩ <;> simp [Registry.empty]

theorem Consistent.change (hc : r.Consistent) (h : r.Change r') : r'.Consistent :=
  ⟨hc.identified.change h, hc.named.change hc.identified h, hc.owned.change hc.identified h,
    rows_change hc.identified hc.rows h⟩

/-- Operations keep the invariant, whether they succeed or fail. -/
theorem Reachable.consistent (h : Reachable r) : r.Consistent :=
  h.induct consistent_empty fun _ _ hc h => hc.change h

/-- A registry with a type of orders, which has a number and any number of lines. -/
def orders : Registry :=
  let r := Registry.empty.after { given := some "t" }
    (.defineType (.named [("name", .text "Order"), ("code", .text "PO")]))
  let r := r.after { given := some "g" } (.defineGroup "t" (.named [("name", .text "lines"),
    ("label", .text "Lines"), ("isRepeatable", .bool true), ("minRepeats", .int 1)]))
  let r := r.after { given := some "a" } (.defineField "t" (.named [("name", .text "amount"),
    ("label", .text "Amount"), ("documentFieldGroupId", .text "g")]) true)
  r.after { given := some "n" }
    (.defineField "t" (.named [("name", .text "number"), ("label", .text "Number")]) true)

theorem orders_reachable : Reachable orders := by
  unfold orders
  refine .step (.step (.step (.step .empty _ _ ?_) _ _ ?_) _ _ ?_) _ _ ?_
  · show Registry.type? _ "t" = none
    decide +kernel
  · show Registry.group? _ "g" = none
    decide +kernel
  · show Registry.field? _ "a" = none
    decide +kernel
  · show Registry.field? _ "n" = none
    decide +kernel

end Registry
end DocForms
