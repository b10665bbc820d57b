import DocForms.Proofs.Pattern.Lines
import DocForms.Proofs.Submission.Grounding
import DocForms.Proofs.Validation.Locality

/-! The keys of places are unambiguous: places with the names that the pattern of names allows have
different keys, and in a document no two links are looked up, and no two values checked, under one
key. Fields of a form have slots of their own, and a slot has one place in every row. -/
namespace DocForms

/-- What the pattern of names occurs in has no separators, even if it ends in a line break. -/
theorem unbroken_of_name_occurs {s : String} (h : Definition.namePattern.occursIn s = true) :
    Unbroken s := by
  obtain ⟨cs, tail, hs, hname, htail⟩ := Pattern.name_occurs_iff.mp h
  intro c hc hmem
  rcases List.mem_append.mp (hs ▸ hmem) with hmem | hmem
  · exact isName_not_mem hname hc (by rwa [String.toList_ofList])
  · rcases htail with rfl | rfl
    · cases hmem
    · obtain rfl := List.mem_singleton.mp hmem
      revert hc
      decide

namespace Address
variable {a : Address}

/-- The places whose names the pattern of names allows. It allows a line break after a name. -/
def Allowed (a : Address) : Prop := a.EveryName fun s => Definition.namePattern.occursIn s = true

/-- The pattern allows all proper names. -/
theorem Proper.allowed (h : a.Proper) : a.Allowed := by
  refine h.everyName.imp fun s hs => Pattern.name_occurs_iff.mpr ⟨s.toList, [], ?_, ?_, .inl rfl⟩
  · exact (List.append_nil _).symm
  · simpa using hs

/-- The name of the field. -/
def fieldPart : Address → Value
  | .top f => .text f
  | .member _ f => .text f
  | .cell _ _ f => .text f

/-- The name of the group, if there is one. -/
def groupPart : Address → Value
  | .top _ => .null
  | .member g _ => .text g
  | .cell g _ _ => .text g

/-- The number of the row, if there is one. -/
def rowPart : Address → Value
  | .top _ => .null
  | .member _ _ => .null
  | .cell _ i _ => .nat i

/-- The key of a place is made from its parts, of which only the number of a row can be too long. -/
theorem keyOf_parts (a : Address) : keyOf a.fieldPart a.groupPart a.rowPart =
    if a.rowPart.hasText then .ok (.text a.key) else misuse .content := by
  cases a with
  | top f => rfl
  | member g f => rfl
  | cell g i f =>
    have hkey : keyOf (.text f) (.text g) (.nat i) =
        ((Value.nat i).written .loose).map fun row => .text (memberKey g (some row) f) := by
      unfold keyOf
      cases (Value.nat i).written .loose <;> rfl
    refine hkey.trans ?_
    rw [rowPart, Value.written]
    split <;> rfl

example : keyOf (.text "order_ref") (.text "lines") (.nat 2) = .ok (.text "lines[2].order_ref") := by
  decide +kernel

/-- A place is proper if the names of its slot are. -/
theorem proper_of_slot (hf : isName a.slot.field = true)
    (hg : ∀ g, a.slot.group = some g → isName g = true) : a.Proper := by
  cases a with
  | top => exact hf
  | member => exact ⟨hg _ rfl, hf⟩
  | cell => exact ⟨hg _ rfl, hf⟩

theorem nodup_placeKeys {as : List Address} (h : as.Nodup) (hp : ∀ a ∈ as, a.Proper) :
    (as.map key).Nodup :=
  h.map_on fun _ ha _ hb => eq_of_key_eq (hp _ ha) (hp _ hb)

end Address

/-! ### Slots -/

/-- What is made of the names of fields differs as they do. -/
theorem nodup_of_names {α : Type} {fs : List Field} {k : String → α} (h : (fs.map Field.name).Nodup)
    (hk : Function.Injective k) : (fs.map fun f => k f.name).Nodup := by
  simpa [List.map_map, Function.comp_def] using h.map hk

namespace Form
variable {form : Form}

/-- What differs within every group, and without one, differs altogether. -/
theorem nodup_of_groups {α : Type} (group : α → Option String) {top : List α}
    {part : FieldGroup → List α} (hn : form.WellNamed) (htop : top.Nodup)
    (hfree : ∀ a ∈ top, group a = none) (hpart : ∀ g ∈ form.groups, (part g).Nodup)
    (hgroup : ∀ g ∈ form.groups, ∀ a ∈ part g, group a = some g.name) :
    (top ++ form.groups.flatMap part).Nodup := by
  refine htop.append (List.nodup_flatMap.mpr ⟨hpart, ?_⟩) ?_
  · refine (List.pairwise_map.mp hn.groups).imp_of_mem fun {g g'} hg hg' hne a ha ha' => ?_
    exact hne (Option.some.inj ((hgroup g hg a ha).symm.trans (hgroup g' hg' a ha')))
  · intro a ha ha'
    obtain ⟨g, hg, ha'⟩ := List.mem_flatMap.mp ha'
    cases (hfree a ha).symm.trans (hgroup g hg a ha')

/-- The slot of a field in its group, or of an ungrouped field. -/
def slotOf (e : Option FieldGroup × Field) : Slot := ⟨e.1.map (·.name), e.2.name⟩

/-- Every field has a slot of its own. -/
theorem nodup_slots (hn : form.WellNamed) : (form.allFields.map slotOf).Nodup := by
  have hinj (group : Option String) : Function.Injective (Slot.mk group) := by
    intro _ _ h
    exact (Slot.mk.inj h).2
  rw [allFields, List.map_append, List.map_map, List.map_flatMap]
  refine nodup_of_groups Slot.group hn (nodup_of_names hn.fields (hinj none)) ?_ (fun g hg => ?_) ?_
  · simp [slotOf]
  · rw [List.map_map]
    exact nodup_of_names (hn.members g hg) (hinj (some g.name))
  · simp [slotOf]

theorem proper_of_mem_slots (hn : form.WellNamed) {a : Address}
    (h : a.slot ∈ form.allFields.map slotOf) : a.Proper := by
  obtain ⟨⟨g, f⟩, hmem, hslot⟩ := List.mem_map.mp h
  rcases List.mem_append.mp hmem with hmem | hmem
  · obtain ⟨f, hf, he⟩ := List.mem_map.mp hmem
    obtain ⟨rfl, rfl⟩ := Prod.mk.inj he
    exact Address.proper_of_slot (hslot ▸ hn.field f hf) (hslot ▸ nofun)
  · obtain ⟨g', hg, hmem⟩ := List.mem_flatMap.mp hmem
    obtain ⟨f, hf, he⟩ := List.mem_map.mp hmem
    obtain ⟨rfl, rfl⟩ := Prod.mk.inj he
    refine Address.proper_of_slot (hslot ▸ hn.member g' hg f hf) fun name hname => ?_
    rw [← hslot] at hname
    exact Option.some.inj hname ▸ hn.group g' hg

end Form

/-! ### Lookups -/

namespace Submission
variable {s : Snapshot} {g : Option FieldGroup} {f : Field} {as : List Address} {form : Form}
  {known : List DocumentType} {qs : List (String × LinkQuery)}

/-- The places of a field differ, and have its slot. -/
theorem places_eq_ok (h : places s g f = .ok as) :
    as.Nodup ∧ ∀ a ∈ as, a.slot = Form.slotOf (g, f) := by
  unfold places at h
  split at h
  · cases h
    simp [Address.slot, Form.slotOf]
  · split at h
    · obtain ⟨es, -, h⟩ := bind_eq_ok.mp h
      split at h
      · cases pure_eq_ok.mp h
        refine ⟨List.nodup_range.map fun i j hij => (Address.cell.inj hij).2.1, fun a ha => ?_⟩
        obtain ⟨i, -, rfl⟩ := List.mem_map.mp ha
        rfl
      · cases pure_eq_ok.mp h
        simp
    · cases h
      simp [Address.slot, Form.slotOf]

theorem key_of_linkQuery? {types : List String} {a : Address} {q : String × LinkQuery}
    (h : linkQuery? s types a = .ok (some q)) : q.1 = a.key := by
  obtain ⟨v, -, h⟩ := bind_eq_ok.mp h
  split at h
  · split at h
    · cases pure_eq_ok.mp h
    · cases pure_eq_ok.mp h
      rfl
  · cases pure_eq_ok.mp h

/-- Of the places of a field, those of links with a number are looked up. -/
theorem keys_sublist {types : List String} {found : List (Option (String × LinkQuery))}
    (h : List.Forall₂ (fun a q => linkQuery? s types a = .ok q) as found) :
    ((found.filterMap id).map Prod.fst).Sublist (as.map Address.key) := by
  induction h with
  | nil => exact .slnil
  | @cons a q as found hq _ ih =>
    cases q with
    | none => exact ih.cons a.key
    | some q =>
      rw [List.filterMap_cons_some (f := id) rfl, List.map_cons, List.map_cons, key_of_linkQuery? hq]
      exact ih.cons_cons a.key

/-- The links of fields in different slots are looked up under keys of different places. -/
theorem exists_places {es : List (Option FieldGroup × Field)}
    {found : List (List (Option (String × LinkQuery)))} (hes : (es.map Form.slotOf).Nodup)
    (h : List.Forall₂ (fun e qs => (do
      (← places s e.1 e.2).mapM (linkQuery? s (e.2.candidates form.type.id known))) = .ok qs)
      es found) :
    ∃ as : List Address, as.Nodup ∧ (∀ a ∈ as, a.slot ∈ es.map Form.slotOf) ∧
      ((found.flatten.filterMap id).map Prod.fst).Sublist (as.map Address.key) := by
  induction h with
  | nil => exact ⟨[], .nil, nofun, .slnil⟩
  | @cons e qs es found hfound _ ih =>
    obtain ⟨hnew, hes⟩ := List.nodup_cons.mp hes
    obtain ⟨rest, hrest, hslots, hsub⟩ := ih hes
    obtain ⟨as, has, hqs⟩ := bind_eq_ok.mp hfound
    obtain ⟨hnodup, hslot⟩ := places_eq_ok has
    refine ⟨as ++ rest, hnodup.append hrest fun a ha ha' => ?_, fun a ha => ?_, ?_⟩
    · exact hnew (hslot a ha ▸ hslots a ha')
    · rcases List.mem_append.mp ha with ha | ha
      · exact hslot a ha ▸ List.mem_cons_self ..
      · exact List.mem_cons_of_mem _ (hslots a ha)
    · rw [List.flatten_cons, List.filterMap_append, List.map_append, List.map_append]
      exact (keys_sublist (mapM_eq_ok_forall₂.mp hqs)).append hsub

/-- No two links of a document are looked up under the same key. -/
theorem nodup_linkKeys (hn : form.WellNamed) (h : linkQueries form s known = .ok qs) :
    (qs.map Prod.fst).Nodup := by
  obtain ⟨found, hfound, h⟩ := bind_eq_ok.mp h
  obtain rfl := pure_eq_ok.mp h
  have hsub : ((form.allFields.filter (·.2.kind = .documentLink)).map Form.slotOf).Sublist
      (form.allFields.map Form.slotOf) := List.filter_sublist.map _
  obtain ⟨as, has, hslots, hkeys⟩ :=
    exists_places (hsub.nodup (Form.nodup_slots hn)) (mapM_eq_ok_forall₂.mp hfound)
  refine hkeys.nodup (Address.nodup_placeKeys has fun a ha => ?_)
  exact Form.proper_of_mem_slots hn (hsub.subset (hslots a ha))

end Submission

/-! ### Checks -/

namespace Validation
variable {form : Form} {g : FieldGroup}

/-- The place whose value a check is about. Counts and shapes are about a whole group. -/
def Check.place? : Check → Option Address
  | field _ _ a => some a
  | count _ _ => none
  | shape _ _ => none

theorem filterMap_place? {fs : List Field} (value : Field → Value) (address : String → Address) :
    (fs.map fun f => Check.field f (value f) (address f.name)).filterMap Check.place? =
      fs.map fun f => address f.name := by
  rw [List.filterMap_map]
  exact congrFun (List.filterMap_eq_map (f := fun f : Field => address f.name)) fs

theorem places_rowsChecks (rows : List Value) : (rowsChecks g rows).filterMap Check.place? =
    (List.range rows.length).flatMap fun i => g.fields.map fun f => .cell g.name i f.name := by
  have hrows : (rows.zipIdx.flatMap fun e => rowChecks g (.cell g.name e.2) (rowEntries e.1)
      ).filterMap Check.place? =
        (rows.zipIdx.map Prod.snd).flatMap fun i => g.fields.map fun f => .cell g.name i f.name := by
    rw [List.filterMap_flatMap, List.flatMap_map]
    exact List.flatMap_congr fun e _ => filterMap_place? _ _
  rw [List.range_eq_range', ← List.zipIdx_map_snd, ← hrows]
  rfl

/-- The values of a group are checked at different places, all of them in the group. -/
theorem nodup_groupPlaces (hn : (g.fields.map Field.name).Nodup) (v : Value) :
    ((groupChecks g v).filterMap Check.place?).Nodup ∧
      ∀ a ∈ (groupChecks g v).filterMap Check.place?, a.slot.group = some g.name := by
  rw [groupChecks, List.filterMap_cons_none rfl]
  split
  · simp
  split
  · rw [places_rowsChecks]
    refine ⟨List.nodup_flatMap.mpr ⟨fun i _ => ?_, List.nodup_range.imp ?_⟩, fun a ha => ?_⟩
    · exact nodup_of_names hn fun _ _ h => (Address.cell.inj h).2.2
    · intro i j hne a ha ha'
      obtain ⟨f, -, rfl⟩ := List.mem_map.mp ha
      obtain ⟨f', -, h⟩ := List.mem_map.mp ha'
      exact hne (Address.cell.inj h).2.1.symm
    · obtain ⟨i, -, ha⟩ := List.mem_flatMap.mp ha
      obtain ⟨f, -, rfl⟩ := List.mem_map.mp ha
      rfl
  · rw [rowChecks, filterMap_place?]
    refine ⟨nodup_of_names hn fun _ _ h => (Address.member.inj h).2, ?_⟩
    simp [Address.slot]

/-- No two values are checked at the same place. -/
theorem nodup_checkedPlaces (hn : form.WellNamed) (s : Snapshot) :
    ((checks form s).filterMap Check.place?).Nodup := by
  rw [checks, List.filterMap_append, filterMap_place?, List.filterMap_flatMap]
  refine Form.nodup_of_groups (·.slot.group) hn ?_ ?_ (fun g hg => ?_) fun g hg => ?_
  · exact nodup_of_names hn.fields fun _ _ h => Address.top.inj h
  · simp [Address.slot]
  · exact (nodup_groupPlaces (hn.members g hg) _).1
  · exact (nodup_groupPlaces (hn.members g hg) _).2

/-- No two values are checked under the same key. -/
theorem nodup_checkedKeys (hn : form.WellNamed) (s : Snapshot) :
    (((checks form s).filterMap Check.place?).map Address.key).Nodup := by
  refine Address.nodup_placeKeys (nodup_checkedPlaces hn s) fun a ha => ?_
  obtain ⟨c, hc, hplace⟩ := List.mem_filterMap.mp ha
  cases c with
  | field f v a =>
    cases hplace
    exact (mem_checks.mp hc).places.proper hn
  | count => cases hplace
  | shape => cases hplace

end Validation

/-! ### Keys -/

namespace Address

/-- Keys are unambiguous. The parts of a place make up its key, unless the number of the row is too
long to be written. Places with allowed names have different keys, whichever of the three shapes and
whatever rows they have. The places of a form of a registry have allowed names, and in a document
with such a form no two links are looked up under the same key, and no two values are checked under
the same key. -/
theorem keys_unambiguous :
    (∀ a : Address, keyOf a.fieldPart a.groupPart a.rowPart =
      if a.rowPart.hasText then .ok (.text a.key) else misuse .content) ∧
    Set.InjOn key {a | a.Allowed} ∧
    ∀ (r : Registry) (id : String) (form : Form), r.Reachable → r.getForm id = .ok form →
      (∀ f a, form.Places f a → a.Allowed) ∧
      ∀ s : Snapshot,
        (∀ known qs, Submission.linkQueries form s known = .ok qs → (qs.map Prod.fst).Nodup) ∧
        (((Validation.checks form s).filterMap Validation.Check.place?).map key).Nodup := by
  refine ⟨keyOf_parts, key_injOn.mono fun a ha => ?_, fun r id form hr hform => ?_⟩
  · exact EveryName.imp ha fun _ => unbroken_of_name_occurs
  · have hn := Registry.getForm_wellNamed hr hform
    refine ⟨fun f a ha => (ha.proper hn).allowed, fun s => ⟨fun _ _ => ?_, ?_⟩⟩
    · exact Submission.nodup_linkKeys hn
    · exact Validation.nodup_checkedKeys hn s

/-- Orders with a header that refers to an offer. -/
def offeredOrders : Registry :=
  let r := Submission.linkedOrders.after { given := some "h" } (.defineGroup "t"
    (.named [("name", .text "header"), ("label", .text "Header")]))
  r.after { given := some "o" } (.defineField "t" (.named [("name", .text "offer"),
    ("label", .text "Offer"), ("type", .text "document_link"),
    ("documentFieldGroupId", .text "h")]) true)

/-- The form of such orders: a contract, a header with an offer, and lines with deliveries. -/
def offeredForm : Form where
  type := { id := "t", name := "Order", code := "PO" }
  fields := offeredOrders.scope "t" none
  groups := (offeredOrders.groupsOf "t").map (offeredOrders.withFields "t")

/-- An order with a contract, an offer and two deliveries. -/
def offeredOrder : Snapshot where
  simple := .named [("contract", .link ⟨"C-1", "c", .reference⟩)]
  groups := .named [("header", .named [("offer", .link ⟨"O-4", "o", .reference⟩)]),
    ("lines", .list [.named [("delivery", .link ⟨"D-7", "d", .reference⟩)],
      .named [("delivery", .link ⟨"D-8", "d", .reference⟩)]])]

theorem keys_unambiguous_offeredOrder :
    let known : List DocumentType := [⟨"d", "Delivery", "D", .null, .null, .active⟩]
    let keys := ["contract", "lines[0].delivery", "lines[1].delivery", "header.offer"]
    (member "header" "offer").Allowed ∧ (cell "lines\n" 1 "delivery").Allowed ∧
    (member "header" "offer").key ≠ (cell "lines\n" 1 "delivery").key ∧
    offeredOrders.Reachable ∧ offeredOrders.getForm "t" = .ok offeredForm ∧
    (Submission.linkQueries offeredForm offeredOrder known).map (·.map Prod.fst) = .ok keys ∧
    ((Validation.checks offeredForm offeredOrder).filterMap Validation.Check.place?).map key = keys ∧
    keys.Nodup := by
  intro known keys
  have hoffer : (member "header" "offer").Allowed := ⟨by decide +kernel, by decide +kernel⟩
  have hdelivery : (cell "lines\n" 1 "delivery").Allowed := ⟨by decide +kernel, by decide +kernel⟩
  have hreach : offeredOrders.Reachable := by
    unfold offeredOrders
    refine .step (.step Submission.linkedOrders_reachable _ _ ?_) _ _ ?_
    · show Registry.group? _ "h" = none
      decide +kernel
    · show Registry.field? _ "o" = none
      decide +kernel
  have htype : offeredOrders.requireType "t" = .ok offeredForm.type := by decide +kernel
  have hform : offeredOrders.getForm "t" = .ok offeredForm := by
    rw [Registry.getForm_eq htype, Registry.sortFields_of_ascending (by decide +kernel),
      Registry.sortGroups_of_ascending (by decide +kernel)]
    rfl
  obtain ⟨-, hinj, hforms⟩ := keys_unambiguous
  have hkeys : ((Validation.checks offeredForm offeredOrder).filterMap Validation.Check.place?).map
      key = keys := by decide +kernel
  refine ⟨hoffer, hdelivery, fun h => ?_, hreach, hform, by decide +kernel, hkeys, ?_⟩
  · cases hinj hoffer hdelivery h
  · exact hkeys ▸ ((hforms _ _ _ hreach hform).2 offeredOrder).2

end Address
end DocForms
