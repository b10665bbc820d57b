import DocForms.Proofs.Store.Shape
import DocForms.Proofs.Value.Plain

/-! Stores whose values are in plain form. A store and its plain form are the same as payloads, and
what can be loaded can be loaded in plain form too. -/
namespace DocForms

/-- The row with its values in plain form. -/
def Row.plain (r : Row) : Row := r.map fun e => (e.1, e.2.plain)

/-- The rows of a group with their values in plain form. -/
def GroupValues.plain : GroupValues → GroupValues
  | .row r => .row r.plain
  | .rows rs => .rows (rs.map Row.plain)

/-- The store with its values in plain form. -/
def Store.plain (s : Store) : Store :=
  { s with simple := s.simple.plain, groups := s.groups.map fun g => (g.1, g.2.plain) }

section Plain
variable {g : FieldGroup} {fs : List Field} {r : Row} {v : GroupValues}

theorem Row.toValue_plain (r : Row) : r.toValue.plain = r.plain.toValue := Value.plain_named r

theorem Row.Within.plain (h : r.Within fs) : r.plain.Within fs := by
  intro name hname
  rw [Row.plain, Keyed.names_map] at hname
  exact h name hname

theorem Row.plain_set (r : Row) (name : String) (w : Value) :
    (r.set name w).plain = r.plain.set name w.plain := by
  rw [Store.set_eq_put, Store.set_eq_put]
  exact Keyed.map_put Value.plain r name w

namespace GroupValues

theorem toValue_plain (v : GroupValues) : v.toValue.plain = v.plain.toValue := by
  cases v with
  | row r => exact r.toValue_plain
  | rows rs =>
    rw [toValue, Value.plain_list, plain, toValue, List.map_map, List.map_map]
    exact congrArg Value.list (List.map_congr_left fun r _ => r.toValue_plain)

theorem Fits.of_row (h : (row r).Fits g) : g.repeatable = false := by
  cases hr : g.repeatable with
  | false => rfl
  | true =>
    obtain ⟨rs, hrs⟩ := h.rows_iff.mpr hr
    cases hrs

theorem Fits.plain (h : v.Fits g) : v.plain.Fits g := by
  cases v with
  | row r => exact Store.fits_row h.of_row (h.within r (List.mem_singleton_self r)).plain
  | rows rs =>
    refine Store.fits_rows (h.rows_iff.mp ⟨rs, rfl⟩) ?_
    intro r hr
    obtain ⟨r', hr', rfl⟩ := List.mem_map.mp hr
    exact (h.within r' hr').plain

end GroupValues
end Plain

namespace Store
variable {form : Form} {s s' loaded : Store} {g : FieldGroup}

theorem form_plain (s : Store) : s.plain.form = s.form := rfl

theorem Shaped.plain (h : s.Shaped form) : s.plain.Shaped form := by
  refine ⟨h.form_eq, h.simple.plain, ?_, ?_⟩
  · rw [← h.names]
    exact Keyed.names_map GroupValues.plain s.groups
  · intro g hg v hv
    obtain ⟨⟨name, w⟩, hw, he⟩ := List.mem_map.mp hv
    obtain ⟨rfl, rfl⟩ := Prod.mk.inj he
    exact (h.fits g hg w hw).plain

theorem snapshot_plain (s : Store) :
    s.plain.snapshot = ⟨s.snapshot.simple.plain, s.snapshot.groups.plain⟩ := by
  refine congrArg₂ Snapshot.mk s.simple.toValue_plain.symm ?_
  rw [snapshot, Value.plain_named, plain, List.map_map, List.map_map]
  exact congrArg Value.named (List.map_congr_left fun e _ => by
    exact congrArg (e.1, ·) e.2.toValue_plain.symm)

/-- The plain form of a store is the same as a payload. -/
theorem toValue_plain (s : Store) : s.plain.snapshot.toValue = s.snapshot.toValue := by
  rw [snapshot_plain, Snapshot.toValue, Snapshot.toValue, Value.plain_plain, Value.plain_plain]

/-! ### Loading -/

theorem knownRow_plain (es : Entries) :
    knownRow g (es.map fun e => (e.1, e.2.plain)) = (knownRow g es).plain := by
  rw [knownRow, knownRow, Row.plain, List.filterMap_map, List.map_filterMap]
  refine List.filterMap_congr ?_
  intro e _
  obtain ⟨k, v⟩ := e
  cases k with
  | text name => by_cases hknown : (g.field? name).isSome = true <;> simp [hknown]
  | _ => rfl

theorem rowList_plain {vs : List Value} {rs : List Row} (h : rowList? g vs = some rs) :
    rowList? g (vs.map Value.plain) = some (rs.map Row.plain) := by
  induction vs generalizing rs with
  | nil =>
    obtain rfl := Option.some.inj h
    rfl
  | cons v vs ih =>
    unfold rowList? at h
    split at h
    · rename_i heq
      cases heq
    · rename_i heq
      obtain ⟨rfl, rfl⟩ := List.cons.inj heq
      obtain ⟨rest, hrest, rfl⟩ := Option.map_eq_some_iff.mp h
      rw [List.map_cons, Value.plain_record, rowList?, ih hrest, knownRow_plain]
      rfl
    · cases h

theorem groupOf_plain {v : Value} {w : GroupValues} (h : groupOf g v = .ok w) :
    groupOf g v.plain = .ok w.plain := by
  unfold groupOf at h ⊢
  cases hr : g.repeatable with
  | true =>
    rw [if_pos hr] at h
    rw [if_pos rfl]
    split at h
    · split at h
      · rename_i hrows
        obtain rfl := Except.ok.inj h
        rw [Value.plain_list]
        simp only [rowList_plain hrows]
        rfl
      · cases h
    · cases h
  | false =>
    rw [if_neg (by simp [hr])] at h
    rw [if_neg (by simp)]
    split at h
    · obtain rfl := Except.ok.inj h
      rw [Value.plain_record]
      simp only [knownRow_plain]
      rfl
    · cases h

theorem setGroup_plain (s : Store) (name : String) (v : GroupValues) :
    (s.setGroup name v).plain = s.plain.setGroup name v.plain := by
  rw [setGroup, setGroup, plain, plain, List.map_map, List.map_map]
  congr 1
  refine List.map_congr_left ?_
  intro e _
  by_cases hname : e.1 = name <;> simp [hname]

theorem loadEntry_plain {key : Atom} {v : Value} (h : s.loadEntry key v = .ok s') :
    s.plain.loadEntry key v.plain = .ok s'.plain := by
  cases key with
  | text name =>
    rw [loadEntry] at h ⊢
    rw [form_plain]
    cases hgroup : s.form.group? name with
    | none =>
      simp only [hgroup] at h
      split at h
      · rename_i hfield
        obtain rfl := Except.ok.inj h
        have hset := Row.plain_set s.simple name v
        simp only [if_pos hfield, plain, hset]
      · rename_i hfield
        obtain rfl := Except.ok.inj h
        exact if_neg hfield
    | some g =>
      simp only [hgroup] at h
      split at h
      · rename_i hnull
        obtain rfl := Except.ok.inj h
        exact if_pos ((Value.isNull_plain v).trans hnull)
      · rename_i hnull
        obtain ⟨w, hw, h⟩ := bind_eq_ok.mp h
        obtain rfl := pure_eq_ok.mp h
        simp only [Value.isNull_plain, if_neg hnull, groupOf_plain hw, setGroup_plain]
        rfl
  | _ =>
    obtain rfl := Except.ok.inj h
    rfl

theorem loadEntries_plain {es : Entries} (h : s.loadEntries es = (s', none)) :
    s.plain.loadEntries (es.map fun e => (e.1, e.2.plain)) = (s'.plain, none) := by
  induction es generalizing s with
  | nil =>
    obtain ⟨rfl, -⟩ := Prod.mk.inj h
    rfl
  | cons e es ih =>
    obtain ⟨k, v⟩ := e
    rw [loadEntries] at h
    split at h
    · rename_i hs
      rw [List.map_cons, loadEntries]
      simp only [loadEntry_plain hs]
      exact ih h
    · cases h

theorem plain_empty (form : Form) : (empty form).plain = empty form := by
  have hinitial (g : FieldGroup) : (GroupValues.initial g).plain = .initial g := by
    unfold GroupValues.initial
    split <;> rfl
  rw [plain, empty, List.map_map]
  refine congrArg (Store.mk form []) (List.map_congr_left ?_)
  intro g _
  exact congrArg (g.name, ·) (hinitial g)

/-- What can be loaded can be loaded in plain form, and gives the store in plain form. -/
theorem load_plain {input : Value} (h : s.load input = (loaded, none)) :
    s.load input.plain = (loaded.plain, none) := by
  unfold load at h
  split at h
  · have hload := loadEntries_plain h
    rw [plain_empty] at hload
    rwa [Value.plain_record]
  · cases (Prod.mk.inj h).2

end Store
end DocForms
