import DocForms.Proofs.Fault
import DocForms.Proofs.Keyed
import DocForms.Proofs.Registry.Forms
import DocForms.Store

/-! The shape of a store. Whatever is done to it, a store holds what its form has room for: values of
ungrouped fields, and for every group a row or a list of rows with values of fields of the group. -/
namespace DocForms

/-- A row whose values are those of fields from a list. -/
def Row.Within (fs : List Field) (r : Row) : Prop :=
  ∀ name ∈ Keyed.names r, ∃ f ∈ fs, f.name = name

/-- Values of the shape that a group has: a list of rows if it is repeatable, and else a row. -/
structure GroupValues.Fits (g : FieldGroup) (v : GroupValues) : Prop where
  rows_iff : (∃ rs, v = .rows rs) ↔ g.repeatable = true
  within : ∀ r ∈ v.toRows, r.Within g.fields

namespace Store

/-- What is done to a store. -/
inductive Operation where
  | reset
  | setSimple (field : String) (v : Value)
  | setMember (group field : String) (v : Value)
  | setCell (group : String) (row : Value) (field : String) (v : Value)
  | addRow (group : String)
  | removeRow (group : String) (row : Value)
  | load (values : Value)

/-- The store after a change and the failure of the change, which leaves the store as it was. -/
def settle (s : Store) : Except Fault Store → Store × Option Fault
  | .ok s' => (s', none)
  | .error e => (s, some e)

/-- The store after an operation, and the failure of the operation, if it fails. -/
def perform (s : Store) : Operation → Store × Option Fault
  | .reset => (empty s.form, none)
  | .setSimple field v => s.settle (s.setSimple field v)
  | .setMember group field v => s.settle (s.setMember group field v)
  | .setCell group row field v => s.settle (s.setCell group row field v)
  | .addRow group => s.settle ((·.1) <$> s.addRow group)
  | .removeRow group row => s.settle (s.removeRow group row)
  | .load values => s.load values

/-- The store after operations, each of which may fail. -/
def run (s : Store) (ops : List Operation) : Store := ops.foldl (fun s op => (s.perform op).1) s

/-- The shape of a store for a form. -/
structure Shaped (form : Form) (s : Store) : Prop where
  form_eq : s.form = form
  simple : s.simple.Within form.fields
  names : s.groups.map (·.1) = form.groups.map (·.name)
  fits : ∀ g ∈ form.groups, ∀ v, (g.name, v) ∈ s.groups → v.Fits g

variable {form : Form} {s s' : Store} {g : FieldGroup} {fs : List Field} {r : Row}

/-! ### Rows -/

theorem within_nil : Row.Within fs [] := by
  intro name h
  cases h

theorem set_eq_put (r : Row) (name : String) (v : Value) : r.set name v = Keyed.put r name v := by
  induction r with
  | nil => rfl
  | cons e r ih => rw [Row.set, Keyed.put, ih]

theorem within_set {f : Field} (h : r.Within fs) (hf : f ∈ fs) (v : Value) :
    (r.set f.name v).Within fs := by
  intro name hname
  rw [set_eq_put] at hname
  rcases Keyed.mem_names_put.mp hname with rfl | hname
  · exact ⟨f, hf, rfl⟩
  · exact h name hname

theorem field?_isSome {name : String} (h : (g.field? name).isSome = true) :
    ∃ f ∈ g.fields, f.name = name := by
  obtain ⟨f, hf⟩ := Option.isSome_iff_exists.mp h
  exact ⟨f, List.mem_of_find?_eq_some hf, by simpa using List.find?_some hf⟩

theorem within_knownRow (es : Entries) : (knownRow g es).Within g.fields := by
  intro name hname
  obtain ⟨⟨n, v⟩, hmem, rfl⟩ := List.mem_map.mp hname
  obtain ⟨e, -, he⟩ := List.mem_filterMap.mp hmem
  split at he
  · split at he
    · rename_i hknown
      obtain ⟨rfl, rfl⟩ := Prod.mk.inj (Option.some.inj he)
      exact field?_isSome hknown
    · cases he
  · cases he

theorem within_rowList {vs : List Value} {rs : List Row} (h : rowList? g vs = some rs) :
    ∀ r ∈ rs, r.Within g.fields := by
  induction vs generalizing rs with
  | nil =>
    obtain rfl := Option.some.inj h
    simp
  | cons v vs ih =>
    unfold rowList? at h
    split at h
    · rename_i heq
      cases heq
    · rename_i heq
      obtain ⟨rfl, rfl⟩ := List.cons.inj heq
      obtain ⟨rest, hrest, rfl⟩ := Option.map_eq_some_iff.mp h
      exact List.forall_mem_cons.mpr ⟨within_knownRow _, ih hrest⟩
    · cases h

theorem mem_modify {α : Type} {f : α → α} {i : Nat} {as : List α} {a : α} (h : a ∈ as.modify i f) :
    a ∈ as ∨ ∃ b ∈ as, a = f b := by
  obtain ⟨j, hj, rfl⟩ := List.mem_iff_getElem.mp h
  rw [List.length_modify] at hj
  rw [List.getElem_modify]
  split
  · exact .inr ⟨as[j], List.getElem_mem hj, rfl⟩
  · exact .inl (List.getElem_mem hj)

/-! ### Values of groups -/

theorem fits_rows (hr : g.repeatable = true) {rs : List Row} (h : ∀ r ∈ rs, r.Within g.fields) :
    (GroupValues.rows rs).Fits g :=
  ⟨iff_of_true ⟨rs, rfl⟩ hr, h⟩

theorem fits_row (hr : g.repeatable = false) (h : r.Within g.fields) : (GroupValues.row r).Fits g :=
  ⟨iff_of_false (by simp) (by simp [hr]), fun _ hmem => List.mem_singleton.mp hmem ▸ h⟩

theorem fits_initial (g : FieldGroup) : (GroupValues.initial g).Fits g := by
  unfold GroupValues.initial
  cases hr : g.repeatable with
  | true => exact fits_rows hr fun r hmem => List.mem_singleton.mp hmem ▸ within_nil
  | false => exact fits_row hr within_nil

theorem fits_groupOf {v : Value} {w : GroupValues} (h : groupOf g v = .ok w) : w.Fits g := by
  unfold groupOf at h
  cases hr : g.repeatable with
  | true =>
    rw [if_pos hr] at h
    split at h
    · split at h
      · rename_i hrows
        obtain rfl := Except.ok.inj h
        exact fits_rows hr (within_rowList hrows)
      · cases h
    · cases h
  | false =>
    rw [if_neg (by simp [hr])] at h
    split at h
    · obtain rfl := Except.ok.inj h
      exact fits_row hr (within_knownRow _)
    · cases h

theorem requireMember_eq_ok {field : String} {u : Unit} (h : requireMember g field = .ok u) :
    ∃ f ∈ g.fields, f.name = field := by
  unfold requireMember at h
  split at h
  · rename_i hf
    exact field?_isSome hf
  · cases h

/-! ### Steps -/

theorem shaped_empty (form : Form) (hn : form.WellNamed) : (empty form).Shaped form := by
  refine ⟨rfl, within_nil, by simp [empty, Function.comp_def], fun g hg v hv => ?_⟩
  obtain ⟨g', hg', he⟩ := List.mem_map.mp hv
  obtain ⟨hname, rfl⟩ := Prod.mk.inj he
  obtain rfl := List.inj_on_of_nodup_map hn.groups hg' hg hname
  exact fits_initial g'

/-- An entry is dropped, or it is the value of an ungrouped field or that of a group. -/
theorem loadEntry_cases {key : Atom} {v : Value} (hs : s.loadEntry key v = .ok s') :
    s' = s ∨
    (∃ name, (s.form.field? name).isSome = true ∧ s' = { s with simple := s.simple.set name v }) ∨
    ∃ name g w, s.form.group? name = some g ∧ groupOf g v = .ok w ∧ s' = s.setGroup name w := by
  unfold loadEntry at hs
  split at hs
  · split at hs
    · split at hs
      · rename_i hf
        exact .inr (.inl ⟨_, hf, (Except.ok.inj hs).symm⟩)
      · exact .inl (Except.ok.inj hs).symm
    · rename_i g hg
      split at hs
      · exact .inl (Except.ok.inj hs).symm
      · obtain ⟨w, hw, hs⟩ := bind_eq_ok.mp hs
        exact .inr (.inr ⟨_, g, w, hg, hw, (pure_eq_ok.mp hs).symm⟩)
  · exact .inl (Except.ok.inj hs).symm

namespace Shaped
variable (hn : form.WellNamed) (h : s.Shaped form)
include h

theorem mem_of_group? {name : String} (hg : s.form.group? name = some g) :
    g ∈ form.groups ∧ g.name = name := by
  rw [h.form_eq] at hg
  exact ⟨List.mem_of_find?_eq_some hg, by simpa using List.find?_some hg⟩

theorem mem_of_requireGroup {name : String} {repeatable : Bool}
    (hg : s.requireGroup name repeatable = .ok g) :
    g ∈ form.groups ∧ g.name = name ∧ g.repeatable = repeatable := by
  unfold requireGroup at hg
  split at hg
  · cases hg
  · rename_i hfound
    split at hg
    · rename_i hr
      obtain rfl := Except.ok.inj hg
      obtain ⟨hmem, hname⟩ := h.mem_of_group? hfound
      exact ⟨hmem, hname, hr⟩
    · cases hg

theorem setField {name : String} (hf : (s.form.field? name).isSome = true) (v : Value) :
    Shaped form { s with simple := s.simple.set name v } := by
  obtain ⟨f, hfound⟩ := Option.isSome_iff_exists.mp hf
  rw [h.form_eq] at hfound
  have hmem := List.mem_of_find?_eq_some hfound
  have hname : f.name = name := by simpa using List.find?_some hfound
  exact { h with simple := hname ▸ within_set h.simple hmem v }

include hn

theorem groupValues_fits (hg : g ∈ form.groups) : (s.groupValues g.name).Fits g := by
  have hmem : g.name ∈ s.groups.map (·.1) := by
    rw [h.names]
    exact List.mem_map_of_mem hg
  have hnames : (Keyed.names s.groups).Nodup := by
    rw [Keyed.names, h.names]
    exact hn.groups
  obtain ⟨⟨name, v⟩, hv, hname⟩ := List.mem_map.mp hmem
  obtain rfl : name = g.name := hname
  have hget : s.groupValues g.name = v :=
    congrArg (·.getD (.row [])) (Keyed.get?_of_mem hnames hv)
  rw [hget]
  exact h.fits g hg v hv

theorem setGroup (hg : g ∈ form.groups) {v : GroupValues} (hv : v.Fits g) :
    (s.setGroup g.name v).Shaped form := by
  refine ⟨h.form_eq, h.simple, ?_, fun g' hg' w hw => ?_⟩
  · rw [← h.names, Store.setGroup, List.map_map]
    apply List.map_congr_left
    intro e he
    by_cases hname : e.1 = g.name <;> simp [hname]
  · obtain ⟨e, he, hew⟩ := List.mem_map.mp hw
    split at hew
    · obtain ⟨hname, rfl⟩ := Prod.mk.inj hew
      obtain rfl := List.inj_on_of_nodup_map hn.groups hg hg' hname
      exact hv
    · exact h.fits g' hg' w (hew ▸ he)

theorem setMember {group field : String} {v : Value} (hs : s.setMember group field v = .ok s') :
    s'.Shaped form := by
  obtain ⟨g, hg, hs⟩ := bind_eq_ok.mp hs
  obtain ⟨hmem, rfl, hr⟩ := h.mem_of_requireGroup hg
  obtain ⟨_, hfield, hs⟩ := bind_eq_ok.mp hs
  obtain ⟨f, hf, rfl⟩ := requireMember_eq_ok hfield
  have hfits := h.groupValues_fits hn hmem
  split at hs
  · rename_i r hrow
    obtain rfl := pure_eq_ok.mp hs
    have hwithin : r.Within g.fields := hfits.within r (by simp [hrow, GroupValues.toRows])
    exact h.setGroup hn hmem (fits_row hr (within_set hwithin hf v))
  · obtain rfl := pure_eq_ok.mp hs
    exact h

theorem setCell {group field : String} {row v : Value} (hs : s.setCell group row field v = .ok s') :
    s'.Shaped form := by
  obtain ⟨g, hg, hs⟩ := bind_eq_ok.mp hs
  obtain ⟨hmem, rfl, hr⟩ := h.mem_of_requireGroup hg
  obtain ⟨_, hfield, hs⟩ := bind_eq_ok.mp hs
  obtain ⟨f, hf, rfl⟩ := requireMember_eq_ok hfield
  obtain ⟨i, -, hs⟩ := bind_eq_ok.mp hs
  obtain rfl := pure_eq_ok.mp hs
  have hwithin := (h.groupValues_fits hn hmem).within
  refine h.setGroup hn hmem (fits_rows hr fun r hrow => ?_)
  rcases mem_modify hrow with hold | ⟨r', hold, rfl⟩
  · exact hwithin r hold
  · exact within_set (hwithin r' hold) hf v

theorem addRow {group : String} {i : Nat} (hs : s.addRow group = .ok (s', i)) : s'.Shaped form := by
  obtain ⟨g, hg, hs⟩ := bind_eq_ok.mp hs
  obtain ⟨hmem, rfl, hr⟩ := h.mem_of_requireGroup hg
  obtain ⟨rfl, -⟩ := Prod.mk.inj (pure_eq_ok.mp hs)
  refine h.setGroup hn hmem (fits_rows hr fun r hrow => ?_)
  rcases List.mem_append.mp hrow with hrow | hrow
  · exact (h.groupValues_fits hn hmem).within r hrow
  · exact List.mem_singleton.mp hrow ▸ within_nil

theorem removeRow {group : String} {row : Value} (hs : s.removeRow group row = .ok s') :
    s'.Shaped form := by
  obtain ⟨g, hg, hs⟩ := bind_eq_ok.mp hs
  obtain ⟨hmem, rfl, hr⟩ := h.mem_of_requireGroup hg
  obtain ⟨i, -, hs⟩ := bind_eq_ok.mp hs
  obtain rfl := pure_eq_ok.mp hs
  refine h.setGroup hn hmem (fits_rows hr fun r hrow => ?_)
  exact (h.groupValues_fits hn hmem).within r (List.mem_of_mem_eraseIdx hrow)

theorem loadEntry {key : Atom} {v : Value} (hs : s.loadEntry key v = .ok s') : s'.Shaped form := by
  rcases loadEntry_cases hs with rfl | ⟨name, hf, rfl⟩ | ⟨name, g, w, hg, hw, rfl⟩
  · exact h
  · exact h.setField hf v
  · obtain ⟨hmem, rfl⟩ := h.mem_of_group? hg
    exact h.setGroup hn hmem (fits_groupOf hw)

/-- Loading keeps the shape entry by entry, so also when it ends at an entry of the wrong shape. -/
theorem loadEntries (es : Entries) : (s.loadEntries es).1.Shaped form := by
  induction es generalizing s with
  | nil => exact h
  | cons e es ih =>
    obtain ⟨k, v⟩ := e
    unfold Store.loadEntries
    split
    · rename_i hs
      exact ih (h.loadEntry hn hs)
    · -- the entry has the wrong shape, and what came before it stays
      exact h

theorem load (values : Value) : (s.load values).1.Shaped form := by
  unfold Store.load
  rw [h.form_eq]
  split
  · exact (shaped_empty form hn).loadEntries hn _
  · exact shaped_empty form hn

theorem perform (op : Operation) : (s.perform op).1.Shaped form := by
  have settle {r : Except Fault Store} (hr : ∀ s', r = .ok s' → s'.Shaped form) :
      (s.settle r).1.Shaped form := by
    cases r with
    | ok s' => exact hr s' rfl
    | error e => exact h
  cases op with
  | reset => exact h.form_eq ▸ shaped_empty form hn
  | setSimple field v =>
    refine settle fun s' hs => ?_
    unfold setSimple at hs
    split at hs
    · rename_i hf
      obtain rfl := Except.ok.inj hs
      exact h.setField hf v
    · cases hs
  | setMember group field v => exact settle fun s' hs => h.setMember hn hs
  | setCell group row field v => exact settle fun s' hs => h.setCell hn hs
  | addRow group =>
    refine settle fun s' hs => ?_
    obtain ⟨⟨s', i⟩, hadd, rfl⟩ := map_eq_ok.mp hs
    exact h.addRow hn hadd
  | removeRow group row => exact settle fun s' hs => h.removeRow hn hs
  | load values => exact h.load hn values

theorem run (ops : List Operation) : (s.run ops).Shaped form := by
  induction ops generalizing s with
  | nil => exact h
  | cons op ops ih => exact ih (h.perform hn op)

end Shaped

theorem settle_of_failure {r : Except Fault Store} {e : Fault} (h : (s.settle r).2 = some e) :
    (s.settle r).1 = s := by
  cases r with
  | ok s' => cases h
  | error e => rfl

/-- Only loading changes a store when it fails. -/
theorem perform_of_failure {op : Operation} {e : Fault} (h : (s.perform op).2 = some e)
    (hload : ∀ values, op ≠ .load values) : (s.perform op).1 = s := by
  cases op with
  | reset => cases h
  | load values => exact absurd rfl (hload values)
  | _ => exact settle_of_failure h

/-- Whatever has been done to a store for a form of a registry, it has the shape of the form, and a
further operation other than loading leaves its snapshot as it is when it fails. -/
theorem shaped_run {r : Registry} {id : String} (hr : r.Reachable)
    (hform : r.getForm id = .ok form) (ops : List Operation) :
    ((empty form).run ops).Shaped form ∧
    ∀ op e, (((empty form).run ops).perform op).2 = some e → (∀ values, op ≠ .load values) →
      (((empty form).run ops).perform op).1.snapshot = ((empty form).run ops).snapshot := by
  have hn := Registry.getForm_wellNamed hr hform
  refine ⟨(shaped_empty form hn).run hn ops, fun op e he hload => ?_⟩
  rw [perform_of_failure he hload]

/-- The form of an order. -/
def orderForm : Form where
  type := { id := "t", name := "Order", code := "PO" }
  fields := [{ id := "n", typeId := "t", name := "number", label := "Number", kind := .text }]
  groups := [
    { id := "g", typeId := "t", name := "lines", label := "Lines", repeatable := true,
      minRows := some 1,
      fields := [
        { id := "a", typeId := "t", name := "amount", label := "Amount", kind := .text,
          groupId := some "g" }] }]

/-- A cell of a row that does not exist, and then values whose lines are not records. -/
def badEdits : List Operation :=
  [.addRow "lines", .setCell "lines" (.int 2) "amount" (.int 3), .load (.named [
    ("number", .text "7"), ("color", .text "red"), ("lines", .list [.int 1])])]

theorem shaped_run_badEdits :
    ((empty orderForm).run badEdits).Shaped orderForm ∧
    ((empty orderForm).run badEdits).simple = [("number", .text "7")] ∧
    ((empty orderForm).run badEdits).groups = [("lines", .rows [[]])] ∧
    (((empty orderForm).run badEdits).perform (.setSimple "amount" .null)).1.snapshot =
      ((empty orderForm).run badEdits).snapshot := by
  have hform : Registry.orders.getForm "t" = .ok orderForm := by decide +kernel
  obtain ⟨hshaped, hfailed⟩ := shaped_run Registry.orders_reachable hform badEdits
  refine ⟨hshaped, by decide +kernel, by decide +kernel, ?_⟩
  exact hfailed _ (.refused (.notUngrouped "amount")) (by decide +kernel) (by simp)

end Store
end DocForms
