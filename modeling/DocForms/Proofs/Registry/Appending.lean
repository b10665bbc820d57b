import DocForms.Proofs.Registry.Scopes

/-! Where new members are listed. A field or a group that is defined without an order is given the
number of the members that its scope has, and it is listed by that. It comes last as long as the orders
of the scope are those of the positions, which new members, other names and new orders keep, and
deletions at the end of the list. Other deletions leave gaps, and then it need not come last. -/
namespace DocForms

/-! ### Sorted insertion -/

/-- A sorted list takes a further element behind those that precede it and before the others, if no
two elements precede each other. -/
theorem mergeSort_concat {α : Type} {le : α → α → Bool} {as : List α} {a : α}
    (trans : ∀ x y z, le x y = true → le y z = true → le x z = true)
    (total : ∀ x y, (le x y || le y x) = true)
    (antisymm : ∀ x ∈ as ++ [a], ∀ y ∈ as ++ [a], le x y = true → le y x = true → x = y) :
    ∃ before after, as.mergeSort le = before ++ after ∧
      (as ++ [a]).mergeSort le = before ++ a :: after ∧
      (∀ b ∈ before, le b a = true) ∧ ∀ b ∈ after, le a b = true := by
  obtain ⟨before, after, hcons, hrest, hbefore⟩ := List.mergeSort_cons trans total a as
  have hperm : ((as ++ [a]).mergeSort le).Perm ((a :: as).mergeSort le) :=
    (List.mergeSort_perm ..).trans ((List.perm_append_singleton a as).trans
      (List.mergeSort_perm ..).symm)
  have hsame : (as ++ [a]).mergeSort le = (a :: as).mergeSort le := by
    refine List.Perm.eq_of_pairwise (fun x y hx hy => ?_) (List.pairwise_mergeSort trans total _)
      (List.pairwise_mergeSort trans total _) hperm
    have hmem {z : α} (hz : z ∈ (as ++ [a]).mergeSort le) : z ∈ as ++ [a] :=
      (List.mergeSort_perm ..).subset hz
    exact antisymm x (hmem hx) y (hmem (hperm.symm.subset hy))
  have hsorted := List.pairwise_mergeSort trans total (a :: as)
  rw [hcons] at hsorted
  refine ⟨before, after, hrest, hsame.trans hcons, fun b hb => ?_, fun b hb => ?_⟩
  · exact (List.pairwise_append.mp hsorted).2.2 b hb a (List.mem_cons_self ..)
  · exact (List.pairwise_cons.mp (List.pairwise_append.mp hsorted).2.1).1 b hb

namespace Registry

/-! ### Histories -/

section Histories
variable {r r' : Registry} {s : Scope}

/-- The registries that operations without orders lead to, none of which moves a field. -/
inductive Orderly : Registry → Prop
  | empty : Orderly Registry.empty
  | step {r : Registry} (h : Orderly r) (s : Ids) (op : Operation) (fresh : r.Fresh s.take.1 op)
      (orderless : Orderless op) (unmoved : r.Unmoved (r.after s op)) : Orderly (r.after s op)

theorem Orderly.reachable {r : Registry} (h : Orderly r) : r.Reachable := by
  induction h with
  | empty => exact .empty
  | step _ s op fresh _ _ ih => exact ih.step s op fresh

theorem after_of_ok {ids : Ids} {op : Operation} (h : ((r.perform op).run.run ids).1 = .ok r') :
    r.after ids op = r' := by
  rw [after, h]

/-- Nothing is lost of a scope whose members all stay. -/
theorem truncates_of_subset (h : r.members s ⊆ r'.members s) : Truncates r r' s := by
  refine ⟨(r.listed s).map Prod.fst, [], (List.append_nil _).symm, fun id hid => h ?_, nofun⟩
  exact ((r.listed_perm s).map Prod.fst).subset hid

/-- The registries with a scope that has been empty or put into a new order, and since then no
operation has given an order or moved a field, and none has deleted a member of the scope other than
the last ones. -/
inductive Intact (s : Scope) : Registry → Prop
  | empty {r : Registry} (h : r.Reachable) (none : r.members s = []) : Intact s r
  | reordered {r : Registry} (h : r.Reachable) (ids : Ids) (order : Value)
      (done : ∃ r', ((r.perform (s.reorder order)).run.run ids).1 = .ok r') :
      Intact s (r.after ids (s.reorder order))
  | step {r : Registry} (h : Intact s r) (ids : Ids) (op : Operation)
      (fresh : r.Fresh ids.take.1 op) (orderless : Orderless op)
      (unmoved : r.Unmoved (r.after ids op)) (truncates : r.Truncates (r.after ids op) s) :
      Intact s (r.after ids op)

theorem Intact.reachable (h : Intact s r) : r.Reachable := by
  induction h with
  | empty h => exact h
  | reordered h ids order =>
    refine h.step ids _ ?_
    cases s <;> trivial
  | step _ ids op fresh _ _ _ ih => exact ih.step ids op fresh

theorem reorder_gapless {ids : Ids} {order : Value} (hi : r.Identified)
    (h : ((r.perform (s.reorder order)).run.run ids).1 = .ok r') : r'.Gapless s := by
  cases s with
  | fields t group =>
    obtain ⟨out, hout, rfl⟩ := map_eq_ok.mp h
    exact (shift_of_reorderFields hi hout (.fields t group)).2
  | groups t =>
    obtain ⟨out, hout, rfl⟩ := map_eq_ok.mp h
    exact (shift_of_reorderGroups hi hout (.groups t)).2

/-- A scope of which only last members have been deleted has no gaps. -/
theorem Intact.gapless (h : Intact s r) : r.Gapless s := by
  induction h with
  | empty h none =>
    rw [Gapless, List.map_eq_nil_iff.mp none]
    exact .refl _
  | reordered h ids order done =>
    obtain ⟨r', hr'⟩ := done
    rw [after_of_ok hr']
    exact reorder_gapless h.consistent.identified hr'
  | @step r h ids op fresh orderless unmoved truncates ih =>
    have hi := h.reachable.consistent.identified
    have hi' := (h.reachable.step ids op fresh).consistent.identified
    cases hrun : ((r.perform op).run.run ids).1 with
    | error e => rwa [show r.after ids op = r by rw [after, hrun]]
    | ok r' =>
      rw [after_of_ok hrun] at hi' unmoved truncates ⊢
      exact ih.shift hi hi' (perform_shift hi fresh orderless unmoved hrun s) truncates

end Histories

/-! ### New members -/

/-- A member with the number of the others as its order, behind those that precede it by order, or by
name where orders are equal, and before the others. -/
structure Placed {α : Type} (order : α → Int) (name : α → String) (before : List α) (a : α)
    (after : List α) : Prop where
  number : order a = (before ++ after).length
  before : ∀ m ∈ before, order m < order a ∨ order m = order a ∧ name m ≤ name a
  after : ∀ m ∈ after, order a < order m ∨ order a = order m ∧ name a ≤ name m

section Members
variable {α : Type} {order : α → Int} {name : α → String} {as : List α} {a : α}

/-- Where a member with a new name comes into a sorted list. -/
theorem placed_of_concat (hnames : ((as ++ [a]).map name).Nodup) (horder : order a = as.length) :
    ∃ before after,
      (as.mergeSort fun a b => precedes (order a) (order b) (name a) (name b)) = before ++ after ∧
      ((as ++ [a]).mergeSort fun a b => precedes (order a) (order b) (name a) (name b)) =
        before ++ a :: after ∧
      Placed order name before a after := by
  let le (a b : α) : Bool := precedes (order a) (order b) (name a) (name b)
  have antisymm : ∀ x ∈ as ++ [a], ∀ y ∈ as ++ [a], le x y = true → le y x = true → x = y := by
    intro x hx y hy hxy hyx
    refine List.inj_on_of_nodup_map hnames hx hy ?_
    rcases precedes_iff.mp hxy with hlt | ⟨heq, hle⟩ <;>
      rcases precedes_iff.mp hyx with hgt | ⟨heq', hge⟩
    · omega
    · omega
    · omega
    · exact String.le_antisymm hle hge
  obtain ⟨before, after, hsorted, hmore, hbefore, hafter⟩ :=
    @mergeSort_concat α le as a (fun _ _ _ => precedes_trans) (fun _ _ => precedes_total ..) antisymm
  refine ⟨before, after, hsorted, hmore, ?_, fun m hm => ?_, fun m hm => ?_⟩
  · rw [horder, ← hsorted, List.length_mergeSort]
  · exact precedes_iff.mp (hbefore m hm)
  · exact precedes_iff.mp (hafter m hm)

/-- A member comes last if all others have orders below their number. -/
theorem Placed.last {before after : List α} (h : Placed order name before a after)
    (hlt : ∀ m ∈ after, order m < (before ++ after).length) : after = [] := by
  cases after with
  | nil => rfl
  | cons m after =>
    have hm : m ∈ m :: after := List.mem_cons_self ..
    have hafter := h.after m hm
    have hbound := hlt m hm
    rw [← h.number] at hbound
    omega

theorem Placed.map {β : Type} {f : α → β} {order' : β → Int} {name' : β → String}
    {before after : List α} (h : Placed order name before a after)
    (horder : ∀ b, order' (f b) = order b) (hname : ∀ b, name' (f b) = name b) :
    Placed order' name' (before.map f) (f a) (after.map f) where
  number := by
    rw [horder, h.number, ← List.map_append, List.length_map]
  before b hb := by
    obtain ⟨m, hm, rfl⟩ := List.mem_map.mp hb
    rw [horder, horder, hname, hname]
    exact h.before m hm
  after b hb := by
    obtain ⟨m, hm, rfl⟩ := List.mem_map.mp hb
    rw [horder, horder, hname, hname]
    exact h.after m hm

end Members

section Listing
variable {r r' : Registry} {typeId : String} {ids : Ids} {spec : Value}

theorem new_field_listed (h : r.Reachable)
    (hnull : ∀ es, spec.entries = .ok es → (Entries.get es "order").isNull = true) {strict : Bool}
    {f : Field} (fresh : r.field? ids.take.1 = none)
    (hdefine : ((r.defineField typeId spec strict).run.run ids).1 = .ok (r', f)) :
    ∃ before after, r.listFields typeId (.ofScope f.groupId) = .ok (before ++ after) ∧
      r'.listFields typeId (.ofScope f.groupId) = .ok (before ++ f :: after) ∧
      Placed Field.order Field.name before f after ∧
      (Intact (.fields typeId f.groupId) r → after = []) := by
  obtain ⟨t, es, ht, hes, hnew, hbuild, hr'⟩ := defineField_adds fresh hdefine
  obtain rfl : r' = r.extend [] [f] := hr'
  have hbuild : r.buildField typeId ids.take.1 es strict = .ok f := hbuild
  have hconsistent : (r.extend [] [f]).Consistent := by
    have hstep := h.step ids (.defineField typeId spec strict) fresh
    rw [after_of_ok (map_result .. ▸ map_eq_ok.mpr ⟨_, hdefine, rfl⟩)] at hstep
    exact hstep.consistent
  have hscope : (r.extend [] [f]).scope typeId f.groupId = r.scope typeId f.groupId ++ [f] :=
    scope_extend_field (by simp [inScope, (buildField_owner hbuild).2])
  have hnames := ((sortFields_perm _).map _).nodup_iff.mp
    (nodup_scopeNames hconsistent typeId f.groupId)
  rw [hscope] at hnames
  obtain ⟨before, after, hlisted, hmore, hplaced⟩ :=
    placed_of_concat hnames (order_of_define hnew (hnull es hes) hbuild)
  have hlisted : sortFields (r.scope typeId f.groupId) = before ++ after := hlisted
  refine ⟨before, after, ?_, ?_, hplaced, fun hintact => hplaced.last fun m hm => ?_⟩
  · rw [listFields_ofScope ht, hlisted]
  · have ht' : (r.extend [] [f]).requireType typeId = .ok t := ht
    rw [listFields_ofScope ht', hscope]
    exact congrArg Except.ok hmore
  · have hmem : m ∈ r.scope typeId f.groupId :=
      (sortFields_perm _).subset (hlisted ▸ List.mem_append_right before hm)
    have hlt := hintact.gapless.lt (List.mem_map_of_mem hmem)
    rwa [places, List.length_map, ← (sortFields_perm _).length_eq, hlisted] at hlt

theorem new_group_listed (h : r.Reachable)
    (hnull : ∀ es, spec.entries = .ok es → (Entries.get es "order").isNull = true) {g : Group}
    (fresh : r.group? ids.take.1 = none)
    (hdefine : ((r.defineGroup typeId spec).run.run ids).1 = .ok (r', g)) :
    ∃ before after, r.listGroups typeId = .ok (before ++ after) ∧
      r'.listGroups typeId = .ok (before ++ { toGroup := g } :: after) ∧
      Placed (·.order) (·.name) before { toGroup := g } after ∧
      (Intact (.groups typeId) r → after = []) := by
  obtain ⟨t, es, ht, hes, hbuild, hr'⟩ := defineGroup_adds fresh hdefine
  obtain rfl : r' = r.extend [g] [] := hr'
  have hbuild : r.buildGroup typeId ids.take.1 es = .ok g := hbuild
  obtain ⟨hid, htype⟩ := buildGroup_owner hbuild
  have hconsistent : (r.extend [g] []).Consistent := by
    have hstep := h.step ids (.defineGroup typeId spec) fresh
    rw [after_of_ok (map_result .. ▸ map_eq_ok.mpr ⟨_, hdefine, rfl⟩)] at hstep
    exact hstep.consistent
  have hgroups : (r.extend [g] []).groupsOf typeId = r.groupsOf typeId ++ [g] :=
    groupsOf_extend_group htype
  have hnames := nodup_groupNames hconsistent typeId
  rw [hgroups] at hnames
  obtain ⟨-, -, -, -, -, horder⟩ := Definition.buildGroup_gives hbuild
  obtain ⟨before, after, hlisted, hmore, hplaced⟩ :=
    placed_of_concat hnames (horder (hnull es hes))
  have hlisted : sortGroups (r.groupsOf typeId) = before ++ after := hlisted
  have hsame : (r.extend [g] []).withFields typeId = r.withFields typeId := by
    simp [funext_iff, withFields, scope, fieldsOf]
  have hempty : r.withFields typeId g = { toGroup := g } := by
    rw [withFields, scope_of_fresh h.consistent.owned (hid ▸ fresh), sortFields, List.mergeSort_nil]
  refine ⟨before.map (r.withFields typeId), after.map (r.withFields typeId), ?_, ?_, ?_,
    fun hintact => ?_⟩
  · rw [listGroups_eq ht, hlisted, List.map_append]
  · have ht' : (r.extend [g] []).requireType typeId = .ok t := ht
    rw [listGroups_eq ht', hsame, hgroups, ← hempty, ← List.map_cons, ← List.map_append]
    exact congrArg (fun gs => Except.ok (gs.map (r.withFields typeId))) hmore
  · rw [← hempty]
    exact hplaced.map (fun _ => rfl) fun _ => rfl
  · have hlast : after = [] := hplaced.last fun m hm => by
      have hmem : m ∈ r.groupsOf typeId :=
        (sortGroups_perm _).subset (hlisted ▸ List.mem_append_right before hm)
      have hlt := hintact.gapless.lt (List.mem_map_of_mem hmem)
      rwa [places, List.length_map, ← (sortGroups_perm _).length_eq, hlisted] at hlt
    rw [hlast, List.map_nil]

end Listing

/-- A field or a group that is defined without an order gets the number of the members that its scope
has, and it is listed by that and by its name: behind the members that precede it, before the others.
It comes last if, since the scope was last empty or put into a new order, no operation has given an
order or moved a field and only last members have been deleted. -/
theorem new_member_listed {r : Registry} (h : r.Reachable) (ids : Ids) (typeId : String)
    (spec : Value) (hnull : ∀ es, spec.entries = .ok es → (Entries.get es "order").isNull = true) :
    (∀ strict r' f, r.field? ids.take.1 = none →
      ((r.defineField typeId spec strict).run.run ids).1 = .ok (r', f) →
        ∃ before after, r.listFields typeId (.ofScope f.groupId) = .ok (before ++ after) ∧
          r'.listFields typeId (.ofScope f.groupId) = .ok (before ++ f :: after) ∧
          Placed Field.order Field.name before f after ∧
          (Intact (.fields typeId f.groupId) r → after = [])) ∧
    ∀ r' g, r.group? ids.take.1 = none →
      ((r.defineGroup typeId spec).run.run ids).1 = .ok (r', g) →
        ∃ before after, r.listGroups typeId = .ok (before ++ after) ∧
          r'.listGroups typeId = .ok (before ++ { toGroup := g } :: after) ∧
          Placed (·.order) (·.name) before { toGroup := g } after ∧
          (Intact (.groups typeId) r → after = []) :=
  ⟨fun _ _ _ fresh hdefine => new_field_listed h hnull fresh hdefine,
    fun _ _ fresh hdefine => new_group_listed h hnull fresh hdefine⟩

instance (r r' : Registry) : Decidable (r.Unmoved r') :=
  inferInstanceAs (Decidable
    (∀ f ∈ r.fields, ∀ f' ∈ r'.fields, f'.id = f.id → f'.groupId = f.groupId))

/-- A registry with another field of type t. -/
private def more (r : Registry) (id name : String) : Registry :=
  r.after { given := some id }
    (.defineField "t" (.named [("name", .text name), ("label", .text name)]) true)

/-- A type of parcels that has no fields yet. -/
private def emptyParcels : Registry :=
  Registry.empty.after { given := some "t" }
    (.defineType (.named [("name", .text "Parcel"), ("code", .text "P")]))

private def parcelType : DocumentType := { id := "t", name := "Parcel", code := "P" }

/-- The type of parcels with three fields, one defined after the other. -/
private def parcels : Registry :=
  ((emptyParcels.more "a" "amount").more "n" "number").more "p" "place"

/-- A field that can be defined in the registry of parcels. -/
private def due : Field :=
  { id := "d", typeId := "t", name := "due", label := "Due", kind := .text, order := 2 }

private def dueSpec : Value := .named [("name", .text "due"), ("label", .text "Due")]

private theorem dueSpec_orderless :
    ∀ es, dueSpec.entries = .ok es → (Entries.get es "order").isNull = true := by
  intro es h
  obtain rfl := Except.ok.inj h
  rfl

private theorem orderless_named (es : Entries) (h : (Entries.get es "order").isNull = true)
    (strict : Bool) : Orderless (.defineField "t" (.record es) strict) := by
  intro es' hes
  obtain rfl := Except.ok.inj hes
  exact h

private theorem Orderly.more {r : Registry} {id name : String} (h : r.Orderly)
    (fresh : r.field? id = none) (unmoved : r.Unmoved (r.more id name)) :
    (r.more id name).Orderly :=
  h.step _ _ fresh (orderless_named _ rfl true) unmoved

private theorem Intact.more {r : Registry} {id name : String} (h : Intact (.fields "t" none) r)
    (fresh : r.field? id = none) (unmoved : r.Unmoved (r.more id name))
    (stay : ∀ m ∈ r.members (.fields "t" none), m ∈ (r.more id name).members (.fields "t" none)) :
    Intact (.fields "t" none) (r.more id name) :=
  h.step _ _ fresh (orderless_named _ rfl true) unmoved (truncates_of_subset stay)

private theorem emptyParcels_orderly : emptyParcels.Orderly :=
  Orderly.empty.step _ _ rfl trivial (by decide +kernel)

private theorem parcels_orderly : parcels.Orderly := by
  refine ((emptyParcels_orderly.more ?_ ?_).more ?_ ?_).more ?_ ?_
  all_goals decide +kernel

private theorem parcels_intact : Intact (.fields "t" none) parcels := by
  have hempty : Intact (.fields "t" none) emptyParcels :=
    .empty emptyParcels_orderly.reachable (by decide +kernel)
  refine ((hempty.more ?_ ?_ ?_).more ?_ ?_ ?_).more ?_ ?_ ?_
  all_goals decide +kernel

/-- The last field of a parcel has been deleted, and then a new one is the last. -/
theorem new_member_listed_parcels :
    let r := parcels.after {} (.deleteField "p")
    r.Reachable ∧ Intact (.fields "t" none) r ∧
    ((r.defineField "t" dueSpec true).run.run { given := some "d" }).1 =
      .ok (r.extend [] [due], due) ∧
    r.listFields "t" .ungrouped = .ok (r.scope "t" none) ∧
    (r.scope "t" none).map Field.name = ["amount", "number"] ∧
    (r.extend [] [due]).listFields "t" .ungrouped = .ok (r.scope "t" none ++ [due]) := by
  intro r
  have hsorted : sortFields (r.scope "t" none) = r.scope "t" none :=
    sortFields_of_ascending (by decide +kernel)
  have hintact : Intact (.fields "t" none) r := by
    refine parcels_intact.step {} (.deleteField "p") trivial trivial (by decide +kernel) ?_
    have hlisted : sortFields (parcels.scope "t" none) = parcels.scope "t" none :=
      sortFields_of_ascending (by decide +kernel)
    refine ⟨["a", "n"], ["p"], ?_, by decide +kernel, by decide +kernel⟩
    rw [listed, hlisted]
    decide +kernel
  have hdefine : ((r.defineField "t" dueSpec true).run.run { given := some "d" }).1 =
      .ok (r.extend [] [due], due) := by decide +kernel
  obtain ⟨before, after, hbefore, hmore, -, hlast⟩ :=
    (new_member_listed hintact.reachable { given := some "d" } "t" dueSpec dueSpec_orderless).1
      true _ _ (by decide +kernel) hdefine
  obtain rfl := hlast hintact
  have hlist : r.listFields "t" .ungrouped = .ok (r.scope "t" none) := by
    have ht : r.requireType "t" = .ok parcelType := by decide +kernel
    have hlist : r.listFields "t" (.ofScope none) = .ok (sortFields (r.scope "t" none)) :=
      listFields_ofScope ht
    rwa [hsorted] at hlist
  obtain rfl : before = r.scope "t" none := by
    rw [← List.append_nil before]
    exact Except.ok.inj (hbefore.symm.trans hlist)
  exact ⟨hintact.reachable, hintact, hdefine, hlist, by decide +kernel, hmore⟩

/-- Without orders being given, a new member need not come last: the first field of a parcel has been
deleted, and then a new one has the order of the last one and precedes it by name. -/
theorem new_member_not_last : ¬ ∀ (r r' : Registry) (ids : Ids) (typeId : String) (spec : Value)
    (strict : Bool) (f : Field), r.Orderly → (∀ es, spec.entries = .ok es →
      (Entries.get es "order").isNull = true) → r.field? ids.take.1 = none →
    ((r.defineField typeId spec strict).run.run ids).1 = .ok (r', f) →
      ∃ before, r.listFields typeId (.ofScope f.groupId) = .ok before ∧
        r'.listFields typeId (.ofScope f.groupId) = .ok (before ++ [f]) := by
  intro h
  let r := parcels.after {} (.deleteField "a")
  let place : Field :=
    { id := "p", typeId := "t", name := "place", label := "place", kind := .text, order := 2 }
  have horderly : r.Orderly := parcels_orderly.step _ _ trivial trivial (by decide +kernel)
  have hdefine : ((r.defineField "t" dueSpec true).run.run { given := some "d" }).1 =
      .ok (r.extend [] [due], due) := by decide +kernel
  obtain ⟨before, hbefore, hmore⟩ :=
    h r _ _ _ dueSpec true due horderly dueSpec_orderless (by decide +kernel) hdefine
  have ht : r.requireType "t" = .ok parcelType := by decide +kernel
  have ht' : (r.extend [] [due]).requireType "t" = .ok parcelType := ht
  obtain rfl := Except.ok.inj (hbefore.symm.trans (listFields_ofScope ht))
  have hplace : place ∈ sortFields (r.scope "t" none) :=
    (sortFields_perm _).symm.subset (by decide +kernel)
  have hlisted : sortFields ((r.extend [] [due]).scope "t" none) =
      sortFields (r.scope "t" none) ++ [due] :=
    Except.ok.inj ((listFields_ofScope ht').symm.trans hmore)
  have hsorted : Sorted Field.order Field.name (sortFields ((r.extend [] [due]).scope "t" none)) :=
    sorted_mergeSort ..
  rw [hlisted] at hsorted
  have hprecedes :=
    (List.pairwise_append.mp hsorted).2.2 place hplace due (List.mem_singleton_self due)
  exact absurd hprecedes (by decide)

end Registry
end DocForms
