import DocForms.Proofs.Registry.Isolation
import Mathlib.Data.List.Perm.Subperm

/-! New orders. A request is accepted just if it lists the identifiers of a scope, each once, and then
the records of the scope are listed as the request lists them. Nothing but their orders is changed. -/
namespace DocForms.Registry

/-! ### Orders that requests list -/

section Requests
variable {scope names : List String} {ids : Value} {e : Refusal} {v : Value}

theorem key?_eq_text {s : String} (h : v.key? = .ok (some (.text s))) : v = .text s := by
  unfold Value.key? at h
  split at h
  · obtain rfl := Option.some.inj (Except.ok.inj h)
    rfl
  · cases h
  · cases h

/-- The name that a key is. -/
def nameOf : Option Atom → Option String
  | some (.text s) => some s
  | _ => none

theorem eq_text_of_nameOf {k : Option Atom} {s : String} (hv : v.key? = .ok k)
    (hk : nameOf k = some s) : v = .text s := by
  unfold nameOf at hk
  split at hk
  · obtain rfl := Option.some.inj hk
    exact key?_eq_text hv
  · cases hk

/-- Keys that are names without exception are those of texts. -/
theorem eq_texts {vs : List Value} {keys : List (Option Atom)}
    (h : List.Forall₂ (fun v k => v.key? = .ok k) vs keys)
    (hlength : (keys.filterMap nameOf).length = vs.length) :
    vs = (keys.filterMap nameOf).map .text := by
  induction h with
  | nil => rfl
  | @cons v k vs keys hv hrest ih =>
    have hle : (keys.filterMap nameOf).length ≤ vs.length :=
      hrest.length_eq ▸ List.length_filterMap_le ..
    cases hk : nameOf k with
    | none =>
      rw [List.filterMap_cons_none hk, List.length_cons] at hlength
      omega
    | some s =>
      rw [List.filterMap_cons_some hk] at hlength ⊢
      rw [List.map_cons, ← ih (Nat.succ.inj hlength), eq_text_of_nameOf hv hk]

theorem keys_texts (names : List String) :
    (names.map Value.text).mapM Value.key? = .ok (names.map fun s => some (.text s)) := by
  rw [List.mapM_map]
  exact mapM_eq_ok fun _ _ => rfl

/-- Names that are as many as those of a scope, all of them in it and none missing, are a
permutation of the scope. -/
theorem perm_iff_complete (hs : scope.Nodup) : names.Perm scope ↔
    names.length = scope.length ∧ (∀ n ∈ names, n ∈ scope) ∧ ∀ n ∈ scope, n ∈ names := by
  refine ⟨fun h => ⟨h.length_eq, fun _ hn => h.subset hn, fun _ hn => h.symm.subset hn⟩, ?_⟩
  rintro ⟨hlength, -, hall⟩
  exact ((List.subperm_of_subset hs hall).perm_of_length_le (Nat.le_of_eq hlength)).symm

/-- A request is compared with the scope by the names among its keys. -/
theorem completeOrder_of_keys {vs : List Value} {keys : List (Option Atom)}
    (hvs : ids.elements = .ok vs) (hlength : vs.length = scope.length)
    (hkeys : vs.mapM Value.key? = .ok keys) :
    completeOrder scope ids e =
      if (keys.filterMap nameOf).length = vs.length && (keys.filterMap nameOf).all scope.contains &&
        scope.all (keys.filterMap nameOf).contains then .ok (keys.filterMap nameOf)
      else refuse e := by
  have hsame : (vs.length != scope.length) = false := by simpa using hlength
  unfold completeOrder
  simp only [hvs, hsame, hkeys, bind, Except.bind]
  rfl

/-- A request is a new order of a scope just if it lists a permutation of the scope. -/
theorem completeOrder_eq_ok (hs : scope.Nodup) : completeOrder scope ids e = .ok names ↔
    ids.elements = .ok (names.map .text) ∧ names.Perm scope := by
  constructor
  · intro h
    obtain ⟨vs, hvs, hrest⟩ := bind_eq_ok.mp h
    obtain ⟨hlength, hrest⟩ := check_eq_ok.mp hrest
    obtain ⟨keys, hkeys, -⟩ := bind_eq_ok.mp hrest
    have hlength : vs.length = scope.length := by simpa using hlength
    rw [completeOrder_of_keys hvs hlength hkeys] at h
    split at h
    · rename_i hall
      obtain rfl := Except.ok.inj h
      simp only [Bool.and_eq_true, decide_eq_true_eq, List.all_eq_true, List.contains_iff_mem]
        at hall
      obtain ⟨⟨hcount, hin⟩, hout⟩ := hall
      have htexts := eq_texts (mapM_eq_ok_forall₂.mp hkeys) hcount
      exact ⟨hvs.trans (congrArg Except.ok htexts),
        (perm_iff_complete hs).mpr ⟨hcount.trans hlength, hin, hout⟩⟩
    · cases h
  · rintro ⟨hvs, hperm⟩
    obtain ⟨hlength, hin, hout⟩ := (perm_iff_complete hs).mp hperm
    have hnames : (names.map fun s => some (Atom.text s)).filterMap nameOf = names := by
      rw [List.filterMap_map]
      exact List.filterMap_some
    rw [completeOrder_of_keys hvs (by simpa using hlength) (keys_texts names), hnames, if_pos]
    simpa using ⟨hin, hout⟩

end Requests

/-! ### Records in a new order -/

section Records
variable {α : Type} {id name : α → String} {order : α → Int} {put : α → Int → α} {as : List α}
  {names : List String} {p : α → Bool}

/-- A list of different names is sorted by their positions. -/
theorem pairwise_positions (h : names.Nodup) :
    names.Pairwise fun m n => positionIn names m ≤ positionIn names n := by
  rw [List.pairwise_iff_getElem]
  intro i j hi hj hlt
  rw [positionIn, positionIn, h.idxOf_getElem i hi, h.idxOf_getElem j hj]
  omega

/-- Records whose orders are the positions of their identifiers are read in the order of these. -/
theorem sorted_positions (hn : names.Nodup) (hp : (as.map id).Perm names)
    (horder : ∀ a ∈ as, order a = positionIn names (id a)) :
    (as.mergeSort fun a b => precedes (order a) (order b) (name a) (name b)).map id = names := by
  have hperm : (as.mergeSort fun a b => precedes (order a) (order b) (name a) (name b)).Perm as :=
    List.mergeSort_perm ..
  have hsorted := sorted_mergeSort order name as
  have hpositions : ((as.mergeSort fun a b =>
      precedes (order a) (order b) (name a) (name b)).map id).Pairwise
        fun m n => positionIn names m ≤ positionIn names n := by
    rw [List.pairwise_map]
    refine hsorted.imp_of_mem fun {a b} ha hb h => ?_
    rw [← horder a (hperm.subset ha), ← horder b (hperm.subset hb)]
    rcases h with h | h
    · exact Int.le_of_lt h
    · exact Int.le_of_eq h.1
  refine List.Perm.eq_of_pairwise ?_ hpositions (pairwise_positions hn) ((hperm.map id).trans hp)
  intro m n hm _ hle hge
  have hm : m ∈ names := ((hperm.map id).trans hp).subset hm
  exact (List.idxOf_inj hm).mp (Int.ofNat.inj (Int.le_antisymm hle hge))

/-- In a list whose identifiers differ, those of a scope say which records are in the scope. -/
theorem contains_iff_scope (hn : (as.map id).Nodup) (hp : names.Perm ((as.filter p).map id)) {a : α}
    (ha : a ∈ as) : names.contains (id a) = p a := by
  rw [Bool.eq_iff_iff, List.contains_iff_mem, hp.mem_iff, List.mem_map]
  constructor
  · rintro ⟨b, hb, hid⟩
    obtain ⟨hb, hpb⟩ := List.mem_filter.mp hb
    rwa [← List.inj_on_of_nodup_map hn hb ha hid]
  · intro hpa
    exact ⟨a, List.mem_filter.mpr ⟨ha, hpa⟩, rfl⟩

/-- Changing the records of a scope only. -/
theorem filter_map_scope {f : α → α} (hp : ∀ a, p (f a) = p a) :
    (as.map fun a => if p a then f a else a).filter p = (as.filter p).map f := by
  induction as with
  | nil => rfl
  | cons a as ih =>
    rw [List.map_cons, List.filter_cons, List.filter_cons, ih]
    cases ha : p a with
    | true => simp [hp, ha]
    | false => simp [ha]

end Records

/-! ### Fields -/

section Fields
variable {r : Registry} {typeId : String} {group : Option String} {t : DocumentType}
  {ids : Value} {names : List String}

/-- Whether a field is in a scope of a type. -/
def inScope (typeId : String) (group : Option String) (f : Field) : Bool :=
  f.typeId == typeId && f.groupId == group

/-- The registry with other orders in one scope. -/
def withFieldOrders (r : Registry) (typeId : String) (group : Option String)
    (order : Field → Int) : Registry :=
  { r with fields := r.fields.map fun f =>
      if inScope typeId group f then { f with order := order f } else f }

theorem scope_eq (r : Registry) (typeId : String) (group : Option String) :
    r.scope typeId group = r.fields.filter (inScope typeId group) := by
  rw [scope, fieldsOf, List.filter_filter]
  exact List.filter_congr fun f _ => Bool.and_comm ..

theorem scope_withFieldOrders (order : Field → Int) :
    (r.withFieldOrders typeId group order).scope typeId group =
      (r.scope typeId group).map fun f => { f with order := order f } := by
  rw [scope_eq, scope_eq]
  exact filter_map_scope fun _ => rfl

theorem nodup_scopeIds (hi : r.Identified) (typeId : String) (group : Option String) :
    ((r.scope typeId group).map Field.id).Nodup := by
  rw [scope_eq]
  exact (List.filter_sublist.map _).nodup hi.fields

theorem checkGroup_of_hasGroup (hi : r.Identified)
    (h : ∀ g, group = some g → r.HasGroup g typeId) : r.checkGroup typeId group = .ok () := by
  cases group with
  | none => rfl
  | some g =>
    obtain ⟨g', hg', rfl, htype⟩ := h g rfl
    simp [checkGroup, requireGroupOf, group?_of_mem hi hg', htype, bind, Except.bind, pure,
      Except.pure]

/-- The registry with the positions in a list of identifiers as orders of a scope. -/
def withFieldPositions (r : Registry) (typeId : String) (group : Option String)
    (names : List String) : Registry :=
  r.withFieldOrders typeId group fun f => positionIn names f.id

/-- A permutation of a scope orders the fields of the scope only. -/
theorem withFieldPositions_eq (hi : r.Identified)
    (hp : names.Perm ((r.scope typeId group).map (·.id))) :
    { r with fields := r.fields.map fun f =>
        if names.contains f.id then { f with order := positionIn names f.id } else f } =
      r.withFieldPositions typeId group names := by
  rw [scope_eq] at hp
  rw [withFieldPositions, withFieldOrders]
  congr 1
  exact List.map_congr_left fun f hf => by rw [contains_iff_scope hi.fields hp hf]

/-- Which requests are accepted, and what becomes of the registry. -/
theorem reorderFields_eq_ok (hi : r.Identified) (ht : r.requireType typeId = .ok t)
    (hg : r.checkGroup typeId group = .ok ()) {out : Registry × List Field} :
    r.reorderFields typeId ids group = .ok out ↔ ∃ names, ids.elements = .ok (names.map .text) ∧
      names.Perm ((r.scope typeId group).map (·.id)) ∧
      out = (r.withFieldPositions typeId group names,
        sortFields ((r.withFieldPositions typeId group names).scope typeId group)) := by
  unfold reorderFields
  simp only [ht, hg, bind_eq_ok, pure_eq_ok, Except.ok.injEq, exists_eq_left', exists_const,
    true_and]
  refine exists_congr fun names => ?_
  rw [completeOrder_eq_ok (nodup_scopeIds hi typeId group), and_assoc]
  refine and_congr_right fun _ => and_congr_right fun hp => ?_
  rw [withFieldPositions_eq hi hp]
  exact eq_comm

/-- The fields of a scope in a new order have the identifiers in the order of the request. -/
theorem sortFields_positions (hi : r.Identified)
    (hp : names.Perm ((r.scope typeId group).map (·.id))) :
    (sortFields ((r.withFieldPositions typeId group names).scope typeId group)).map (·.id) =
      names := by
  rw [withFieldPositions, scope_withFieldOrders]
  refine sorted_positions (hp.nodup_iff.mpr (nodup_scopeIds hi typeId group)) ?_ ?_
  · rw [List.map_map]
    exact hp.symm
  · intro f hf
    obtain ⟨f, -, rfl⟩ := List.mem_map.mp hf
    rfl

end Fields

/-! ### Groups -/

section Groups
variable {r : Registry} {typeId : String} {t : DocumentType} {ids : Value} {names : List String}

/-- The registry with other orders of the groups of a type. -/
def withGroupOrders (r : Registry) (typeId : String) (order : Group → Int) : Registry :=
  { r with groups := r.groups.map fun g =>
      if g.typeId == typeId then { g with order := order g } else g }

/-- The registry with the positions in a list of identifiers as orders of groups. -/
def withGroupPositions (r : Registry) (typeId : String) (names : List String) : Registry :=
  r.withGroupOrders typeId fun g => positionIn names g.id

theorem groupsOf_withGroupOrders (order : Group → Int) :
    (r.withGroupOrders typeId order).groupsOf typeId =
      (r.groupsOf typeId).map fun g => { g with order := order g } :=
  filter_map_scope fun _ => rfl

theorem nodup_groupIds (hi : r.Identified) (typeId : String) :
    ((r.groupsOf typeId).map Group.id).Nodup := (List.filter_sublist.map _).nodup hi.groups

/-- A permutation of the groups of a type orders these only. -/
theorem withGroupPositions_eq (hi : r.Identified)
    (hp : names.Perm ((r.groupsOf typeId).map (·.id))) :
    { r with groups := r.groups.map fun g =>
        if names.contains g.id then { g with order := positionIn names g.id } else g } =
      r.withGroupPositions typeId names := by
  rw [withGroupPositions, withGroupOrders]
  congr 1
  exact List.map_congr_left fun g hg => by rw [contains_iff_scope hi.groups hp hg]

theorem listGroups_eq (ht : r.requireType typeId = .ok t) :
    r.listGroups typeId = .ok ((sortGroups (r.groupsOf typeId)).map (r.withFields typeId)) := by
  simp [listGroups, ht, bind, Except.bind, pure, Except.pure]

/-- Which requests are accepted, and what becomes of the registry. -/
theorem reorderGroups_eq_ok (hi : r.Identified) (ht : r.requireType typeId = .ok t)
    {out : Registry × List FieldGroup} :
    r.reorderGroups typeId ids = .ok out ↔ ∃ names, ids.elements = .ok (names.map .text) ∧
      names.Perm ((r.groupsOf typeId).map (·.id)) ∧
      out.1 = r.withGroupPositions typeId names ∧ out.1.listGroups typeId = .ok out.2 := by
  unfold reorderGroups
  simp only [ht, bind_eq_ok, pure_eq_ok, Except.ok.injEq, exists_eq_left']
  refine exists_congr fun names => ?_
  rw [completeOrder_eq_ok (nodup_groupIds hi typeId), and_assoc]
  refine and_congr_right fun _ => and_congr_right fun hp => ?_
  rw [withGroupPositions_eq hi hp]
  constructor
  · rintro ⟨listed, hlisted, rfl⟩
    exact ⟨rfl, hlisted⟩
  · obtain ⟨r', listed⟩ := out
    rintro ⟨rfl, hlisted⟩
    exact ⟨listed, hlisted, rfl⟩

/-- The groups of a type in a new order have the identifiers in the order of the request. -/
theorem sortGroups_positions (hi : r.Identified)
    (hp : names.Perm ((r.groupsOf typeId).map (·.id))) :
    (sortGroups ((r.withGroupPositions typeId names).groupsOf typeId)).map (·.id) = names := by
  rw [withGroupPositions, groupsOf_withGroupOrders]
  refine sorted_positions (hp.nodup_iff.mpr (nodup_groupIds hi typeId)) ?_ ?_
  · rw [List.map_map]
    exact hp.symm
  · intro g hg
    obtain ⟨g, -, rfl⟩ := List.mem_map.mp hg
    rfl

end Groups

/-! ### What is listed -/

section Listing
variable {r : Registry} {typeId : String} {group : Option String} {t : DocumentType} {ids : Value}

/-- The selection of a scope. -/
def Selection.ofScope : Option String → Selection
  | none => .ungrouped
  | some g => .inGroup g

/-- The fields of a scope in a form. -/
def fieldsIn? (form : Form) : Option String → Option (List Field)
  | none => some form.fields
  | some g => (form.groups.find? (·.id == g)).map (·.fields)

theorem listFields_ofScope (ht : r.requireType typeId = .ok t) :
    r.listFields typeId (.ofScope group) = .ok (sortFields (r.scope typeId group)) := by
  cases group <;> simp [Selection.ofScope, listFields, ht, bind, Except.bind, pure, Except.pure]

theorem getForm_fieldsIn? (hg : ∀ g, group = some g → r.HasGroup g typeId)
    (ht : r.requireType typeId = .ok t) : ∃ form, r.getForm typeId = .ok form ∧
      fieldsIn? form group = some (sortFields (r.scope typeId group)) := by
  refine ⟨_, getForm_eq ht, ?_⟩
  cases group with
  | none => rfl
  | some g =>
    obtain ⟨g', hg', rfl, htype⟩ := hg g rfl
    have hmem : g' ∈ sortGroups (r.groupsOf typeId) :=
      (sortGroups_perm _).symm.subset (List.mem_filter.mpr ⟨hg', by simpa using htype⟩)
    rw [fieldsIn?, List.find?_map]
    cases hfound : (sortGroups (r.groupsOf typeId)).find? ((·.id == g'.id) ∘ r.withFields typeId) with
    | none => simpa [withFields] using List.find?_eq_none.mp hfound g' hmem
    | some g'' =>
      have hid : g''.id = g'.id := by simpa [withFields] using List.find?_some hfound
      simp [withFields, hid]

end Listing

/-! ### New orders -/

/-- In any state, a new order of the fields of a scope, or of the groups of a type, is accepted if
and only if it is a permutation of their identifiers. Then they are listed, and stand in the form of
the type, exactly as the request lists them, and nothing but their orders has changed. -/
theorem reorder_exact {r : Registry} {typeId : String} (h : Reachable r) (ht : r.HasType typeId)
    (ids : Value) :
    (∀ group, (∀ g, group = some g → r.HasGroup g typeId) →
      ((∃ out, r.reorderFields typeId ids group = .ok out) ↔
        ∃ names : List String, ids.elements = .ok (names.map .text) ∧
          names.Perm ((r.scope typeId group).map (·.id))) ∧
      ∀ r' listed, r.reorderFields typeId ids group = .ok (r', listed) →
        ids.elements = .ok ((listed.map (·.id)).map .text) ∧
        (∃ order, r' = r.withFieldOrders typeId group order) ∧
        r'.listFields typeId (.ofScope group) = .ok listed ∧
        ∃ form, r'.getForm typeId = .ok form ∧ fieldsIn? form group = some listed) ∧
    ((∃ out, r.reorderGroups typeId ids = .ok out) ↔
      ∃ names : List String, ids.elements = .ok (names.map .text) ∧
        names.Perm ((r.groupsOf typeId).map (·.id))) ∧
    ∀ r' listed, r.reorderGroups typeId ids = .ok (r', listed) →
      ids.elements = .ok ((listed.map (·.id)).map .text) ∧
      (∃ order, r' = r.withGroupOrders typeId order) ∧
      r'.listGroups typeId = .ok listed ∧
      ∃ form, r'.getForm typeId = .ok form ∧ form.groups = listed := by
  have hi := h.consistent.identified
  obtain ⟨t, hmem, rfl⟩ := ht
  have hreq := requireType_of_mem hi hmem
  refine ⟨fun group hg => ?_, ?_, fun r' listed hout => ?_⟩
  · have hcheck := checkGroup_of_hasGroup hi hg
    constructor
    · constructor
      · rintro ⟨out, hout⟩
        obtain ⟨names, hids, hperm, -⟩ := (reorderFields_eq_ok hi hreq hcheck).mp hout
        exact ⟨names, hids, hperm⟩
      · rintro ⟨names, hids, hperm⟩
        exact ⟨_, (reorderFields_eq_ok hi hreq hcheck).mpr ⟨names, hids, hperm, rfl⟩⟩
    · intro r' listed hout
      obtain ⟨names, hids, hperm, heq⟩ := (reorderFields_eq_ok hi hreq hcheck).mp hout
      obtain ⟨rfl, rfl⟩ := Prod.mk.inj heq
      rw [sortFields_positions hi hperm]
      -- the types and the groups are those from before
      have hreq' : (r.withFieldPositions t.id group names).requireType t.id = .ok t := hreq
      have hg' : ∀ g, group = some g → (r.withFieldPositions t.id group names).HasGroup g t.id := hg
      exact ⟨hids, ⟨_, rfl⟩, listFields_ofScope hreq', getForm_fieldsIn? hg' hreq'⟩
  · constructor
    · rintro ⟨out, hout⟩
      obtain ⟨names, hids, hperm, -⟩ := (reorderGroups_eq_ok hi hreq).mp hout
      exact ⟨names, hids, hperm⟩
    · rintro ⟨names, hids, hperm⟩
      have hreq' : (r.withGroupPositions t.id names).requireType t.id = .ok t := hreq
      exact ⟨(_, _), (reorderGroups_eq_ok hi hreq).mpr ⟨names, hids, hperm, rfl, listGroups_eq hreq'⟩⟩
  · obtain ⟨names, hids, hperm, rfl, hlisted⟩ := (reorderGroups_eq_ok hi hreq).mp hout
    have hreq' : (r.withGroupPositions t.id names).requireType t.id = .ok t := hreq
    have hlist := listGroups_eq hreq'
    obtain rfl := Except.ok.inj (hlist.symm.trans hlisted)
    have hids' : (((sortGroups ((r.withGroupPositions t.id names).groupsOf t.id)).map
        ((r.withGroupPositions t.id names).withFields t.id)).map (·.id)) = names := by
      rw [List.map_map]
      exact sortGroups_positions hi hperm
    rw [hids']
    exact ⟨hids, ⟨_, rfl⟩, hlist, _, getForm_eq hreq', rfl⟩

/-- The registry of orders with a second ungrouped field. -/
def datedOrders : Registry :=
  orders.after { given := some "d" }
    (.defineField "t" (.named [("name", .text "due"), ("label", .text "Due")]) true)

theorem datedOrders_reachable : Reachable datedOrders := by
  refine .step orders_reachable _ _ ?_
  show Registry.field? _ "d" = none
  decide +kernel

/-- Two fields change places; a request that names one of them twice is refused. -/
theorem reorder_exact_datedOrders : Reachable datedOrders ∧ datedOrders.HasType "t" ∧
    (∃ out, datedOrders.reorderFields "t" (.list [.text "d", .text "n"]) none = .ok out) ∧
    ¬ ∃ out, datedOrders.reorderFields "t" (.list [.text "d", .text "d"]) none = .ok out := by
  have htype : datedOrders.HasType "t" := by
    have hfound : (datedOrders.types.any (·.id == "t")) = true := by decide +kernel
    obtain ⟨t, ht, hid⟩ := List.any_eq_true.mp hfound
    exact ⟨t, ht, beq_iff_eq.mp hid⟩
  have hscope : (datedOrders.scope "t" none).map (·.id) = ["n", "d"] := by decide +kernel
  have hexact (ids : Value) := ((reorder_exact datedOrders_reachable htype ids).1 none nofun).1
  refine ⟨datedOrders_reachable, htype, (hexact _).mpr ⟨["d", "n"], rfl, ?_⟩, fun h => ?_⟩
  · rw [hscope]
    exact .swap ..
  · obtain ⟨names, hids, hperm⟩ := (hexact _).mp h
    have htexts : ["d", "d"].map Value.text = names.map Value.text := Except.ok.inj hids
    have hnames : ["d", "d"] = names :=
      (List.map_inj_right fun _ _ h => Atom.text.inj (Value.atom.inj h)).mp htexts
    rw [hscope, ← hnames] at hperm
    exact absurd hperm (by decide)

end DocForms.Registry
