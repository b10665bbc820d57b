import DocForms.Proofs.Store.Plain
import DocForms.Proofs.Submission.Instances

/-! A store and the values as they are authored. The values hold every field and every group under a
name of its own, and loading them gives the store back, with its values in plain form. -/
namespace DocForms

namespace Entries

theorem put_ofNames (es : List (String × Value)) (name : String) (v : Value) :
    put (.text name) v (ofNames es) = ofNames (Keyed.put es name v) := by
  induction es with
  | nil => rfl
  | cons e es ih =>
    obtain ⟨n, w⟩ := e
    by_cases h : n = name
    · simp [ofNames, put, Keyed.put, Atom.same, h]
    · rw [Keyed.put, if_neg (by simpa using h), ofNames, List.map_cons, put,
        if_neg (by simpa [Atom.same] using Ne.symm h)]
      exact congrArg _ ih

theorem merge_ofNames (es more : List (String × Value)) :
    merge (ofNames es) (ofNames more) =
      ofNames (more.foldl (fun m e => Keyed.put m e.1 e.2) es) := by
  induction more generalizing es with
  | nil => rfl
  | cons e more ih =>
    rw [List.foldl_cons, ← ih, ← put_ofNames]
    rfl

end Entries

/-- Names are proper ones, and no ungrouped field has the name of a group. -/
structure Form.Separated (form : Form) : Prop extends form.WellNamed where
  apart : ∀ f ∈ form.fields, ∀ g ∈ form.groups, f.name ≠ g.name

/-- A store of the shape of its form, with one value for every ungrouped field. -/
structure Store.Tidy (form : Form) (s : Store) : Prop extends s.Shaped form where
  nodup : (Keyed.names s.simple).Nodup

theorem Registry.getForm_separated {r : Registry} {id : String} {form : Form} (hr : r.Reachable)
    (hform : r.getForm id = .ok form) : form.Separated :=
  ⟨getForm_wellNamed hr hform, fun _ hf _ hg => getForm_apart hr hform hf hg⟩

/-- The values of a store as they are authored: ungrouped fields by name, and then groups. -/
def Store.authored (s : Store) : List (String × Value) :=
  s.simple ++ s.groups.map fun g => (g.1, g.2.toValue)

namespace Store
variable {form : Form} {s s' : Store} {g : FieldGroup} {r : Row}

/-! ### Loading what a store holds -/

theorem knownRow_ofNames (h : r.Within g.fields) : knownRow g (Entries.ofNames r) = r := by
  induction r with
  | nil => rfl
  | cons e r ih =>
    obtain ⟨name, v⟩ := e
    obtain ⟨f, hf, hname⟩ := h name (List.mem_cons_self ..)
    have hknown : (g.field? name).isSome = true :=
      List.find?_isSome.mpr ⟨f, hf, by simpa using hname⟩
    have hrest := ih fun n hn => h n (List.mem_cons_of_mem _ hn)
    have hfirst : knownRow g ((.text name, v) :: Entries.ofNames r) =
        (name, v) :: knownRow g (Entries.ofNames r) := by simp [knownRow, hknown]
    exact hfirst.trans (congrArg _ hrest)

theorem rowList_toValue {rs : List Row} (h : ∀ r ∈ rs, r.Within g.fields) :
    rowList? g (rs.map Row.toValue) = some rs := by
  induction rs with
  | nil => rfl
  | cons r rs ih =>
    obtain ⟨hr, hrs⟩ := List.forall_mem_cons.mp h
    rw [List.map_cons, Row.toValue, Value.named, rowList?, ih hrs, knownRow_ofNames hr]
    rfl

theorem groupOf_toValue {v : GroupValues} (h : v.Fits g) : groupOf g v.toValue = .ok v := by
  unfold groupOf
  cases v with
  | row r =>
    rw [if_neg (by simp [h.of_row])]
    have hr := knownRow_ofNames (h.within r (List.mem_singleton_self r))
    rw [GroupValues.toValue, Row.toValue, Value.named]
    exact congrArg (Except.ok ∘ GroupValues.row) hr
  | rows rs =>
    have hrows : rowList? g (rs.map Row.toValue) = some rs := rowList_toValue h.within
    rw [if_pos (h.rows_iff.mp ⟨rs, rfl⟩), GroupValues.toValue]
    simp only [hrows]

theorem loadEntries_append {es more : Entries} (h : s.loadEntries es = (s', none)) :
    s.loadEntries (es ++ more) = s'.loadEntries more := by
  induction es generalizing s with
  | nil =>
    obtain ⟨rfl, -⟩ := Prod.mk.inj h
    rfl
  | cons e es ih =>
    obtain ⟨k, v⟩ := e
    rw [loadEntries] at h
    rw [List.cons_append, loadEntries]
    split at h
    · exact ih h
    · cases h

/-- Ungrouped values are put in turn. -/
theorem loadEntries_simple (hform : form.Separated) (hs : s.form = form)
    (hr : r.Within form.fields) :
    s.loadEntries (Entries.ofNames r) =
      ({ s with simple := r.foldl (fun m e => Keyed.put m e.1 e.2) s.simple }, none) := by
  induction r generalizing s with
  | nil => rfl
  | cons e r ih =>
    obtain ⟨name, v⟩ := e
    obtain ⟨f, hf, rfl⟩ := hr name (List.mem_cons_self ..)
    have hgroup : s.form.group? f.name = none := by
      rw [hs, Form.group?, List.find?_eq_none]
      intro g hg
      simpa using (hform.apart f hf g hg).symm
    have hfield : (s.form.field? f.name).isSome = true := by
      rw [hs]
      exact List.find?_isSome.mpr ⟨f, hf, by simp⟩
    have hentry : s.loadEntry (.text f.name) v =
        .ok { s with simple := Keyed.put s.simple f.name v } := by
      rw [← set_eq_put, loadEntry]
      simp only [hgroup, if_pos hfield]
    have hrest := ih (s := { s with simple := Keyed.put s.simple f.name v }) hs
      fun n hn => hr n (List.mem_cons_of_mem _ hn)
    rw [Entries.ofNames, List.map_cons, loadEntries]
    simp only [hentry]
    exact hrest

/-- The values of groups take the places of what the groups held. -/
theorem loadEntries_groups (gs : List (String × GroupValues)) (hn : (Keyed.names s.groups).Nodup)
    (hgs : ∀ e ∈ gs, ∃ g, s.form.group? e.1 = some g ∧ e.2.Fits g)
    (hnames : ∀ e ∈ gs, e.1 ∈ Keyed.names s.groups) :
    s.loadEntries (Entries.ofNames (gs.map fun e => (e.1, e.2.toValue))) =
      ({ s with groups := gs.foldl (fun m e => Keyed.put m e.1 e.2) s.groups }, none) := by
  induction gs generalizing s with
  | nil => rfl
  | cons e gs ih =>
    obtain ⟨name, v⟩ := e
    obtain ⟨g, hg, hfits⟩ := hgs _ (List.mem_cons_self ..)
    have hname := hnames _ (List.mem_cons_self ..)
    have hnull : v.toValue.isNull = false := by cases v <;> rfl
    have hset : s.setGroup name v = { s with groups := Keyed.put s.groups name v } := by
      rw [setGroup, Keyed.map_eq_put hn hname]
    have hentry : s.loadEntry (.text name) v.toValue =
        .ok { s with groups := Keyed.put s.groups name v } := by
      rw [loadEntry]
      simp only [hg, hnull, groupOf_toValue hfits, ← hset]
      rfl
    have hrest := ih (s := { s with groups := Keyed.put s.groups name v })
      (Keyed.nodup_put hn name v) (fun e he => hgs e (List.mem_cons_of_mem _ he))
      (fun e he => Keyed.mem_names_put.mpr (.inr (hnames e (List.mem_cons_of_mem _ he))))
    rw [List.map_cons, Entries.ofNames, List.map_cons, loadEntries]
    simp only [hentry]
    exact hrest

/-- Loading does not depend on what the store held. -/
theorem load_eq_load_empty (h : s.form = form) (values : Value) :
    s.load values = (empty form).load values := by
  obtain rfl := h
  rfl

namespace Tidy
variable (hform : form.Separated) (h : s.Tidy form)
include h

theorem plain : s.plain.Tidy form := by
  refine ⟨h.toShaped.plain, ?_⟩
  rw [Store.plain, Row.plain, Keyed.names_map]
  exact h.nodup

include hform

theorem nodup_groups : (Keyed.names s.groups).Nodup := by
  rw [Keyed.names, h.names]
  exact hform.groups

theorem nodup_authored : (Keyed.names s.authored).Nodup := by
  have hnames : Keyed.names s.authored = Keyed.names s.simple ++ Keyed.names s.groups := by
    rw [← Keyed.names_map GroupValues.toValue s.groups]
    exact List.map_append
  rw [hnames]
  refine h.nodup.append (h.nodup_groups hform) ?_
  intro name hsimple hgroup
  obtain ⟨f, hf, rfl⟩ := h.simple name hsimple
  rw [Keyed.names, h.names] at hgroup
  obtain ⟨g, hg, hname⟩ := List.mem_map.mp hgroup
  exact hform.apart f hf g hg hname.symm

theorem field_authored {name : String} {v : Value} (hv : (name, v) ∈ s.authored) :
    (Value.named s.authored).field name = .ok v := by
  have hget := Keyed.get?_of_mem (h.nodup_authored hform) hv
  refine congrArg Except.ok ?_
  rw [Entries.get_ofNames]
  exact congrArg (·.getD Value.null) hget

/-- A store is what loading its own values gives. -/
theorem load_authored (hs : s'.form = form) : s'.load (.named s.authored) = (s, none) := by
  have hnames : Keyed.names (empty form).groups = Keyed.names s.groups := by
    rw [Keyed.names, Keyed.names, h.names, empty, List.map_map]
    rfl
  have hgroups : ∀ e ∈ s.groups, ∃ g, form.group? e.1 = some g ∧ e.2.Fits g := by
    intro e he
    obtain ⟨name, v⟩ := e
    obtain ⟨g, hg, rfl⟩ : ∃ g ∈ form.groups, g.name = name :=
      List.mem_map.mp (h.names ▸ List.mem_map_of_mem he)
    exact ⟨g, Form.group?_of_mem hform.toWellNamed hg, h.fits g hg v he⟩
  have hfirst := loadEntries_simple (s := empty form) hform rfl h.simple
  have hsecond := loadEntries_groups (s := { empty form with simple := s.simple }) s.groups
    (hnames ▸ h.nodup_groups hform) hgroups (fun e he => hnames ▸ List.mem_map_of_mem he)
  have hsimple : s.simple.foldl (fun m e => Keyed.put m e.1 e.2) (empty form).simple = s.simple :=
    Keyed.foldl_put [] [] s.simple List.nil_prefix h.nodup
  have hrest : s.groups.foldl (fun m e => Keyed.put m e.1 e.2) (empty form).groups = s.groups :=
    Keyed.foldl_put [] _ s.groups (hnames ▸ List.prefix_rfl) (h.nodup_groups hform)
  rw [hsimple] at hfirst
  rw [hrest] at hsecond
  have hentries : Entries.ofNames s.authored = Entries.ofNames s.simple ++
      Entries.ofNames (s.groups.map fun g => (g.1, g.2.toValue)) := List.map_append
  obtain rfl : s.form = form := h.form_eq
  calc s'.load (.named s.authored) = (empty s'.form).loadEntries (Entries.ofNames s.authored) := rfl
    _ = (empty s.form).loadEntries (Entries.ofNames s.authored) := by rw [hs]
    _ = (s, none) := by rw [hentries, loadEntries_append hfirst, hsecond]; rfl

/-- The authored values of a snapshot are those of the store, in plain form. -/
theorem toValues_snapshot : s.snapshot.toValues = .ok (.named s.plain.authored) := by
  have hsimple : s.snapshot.simple.plain = .named s.plain.simple :=
    (congrArg Snapshot.simple s.snapshot_plain).symm
  have hgroups : s.snapshot.groups.plain =
      .named (s.plain.groups.map fun g => (g.1, g.2.toValue)) :=
    (congrArg Snapshot.groups s.snapshot_plain).symm
  have hmerge : (s.plain.groups.map fun g => (g.1, g.2.toValue)).foldl
      (fun m e => Keyed.put m e.1 e.2) (s.plain.simple ++ []) = s.plain.authored :=
    Keyed.foldl_put _ _ _ List.nil_prefix (h.plain.nodup_authored hform)
  rw [List.append_nil] at hmerge
  rw [Snapshot.toValues, hsimple, hgroups]
  refine congrArg (Except.ok ∘ Value.record) ?_
  rw [Entries.merge_ofNames, hmerge]

end Tidy

/-! ### Runs -/

theorem setMember_simple {group field : String} {v : Value}
    (hs : s.setMember group field v = .ok s') : s'.simple = s.simple := by
  obtain ⟨g, -, hs⟩ := bind_eq_ok.mp hs
  obtain ⟨_, -, hs⟩ := bind_eq_ok.mp hs
  split at hs
  all_goals
    obtain rfl := pure_eq_ok.mp hs
    rfl

theorem setCell_simple {group field : String} {row v : Value}
    (hs : s.setCell group row field v = .ok s') : s'.simple = s.simple := by
  obtain ⟨g, -, hs⟩ := bind_eq_ok.mp hs
  obtain ⟨_, -, hs⟩ := bind_eq_ok.mp hs
  obtain ⟨i, -, hs⟩ := bind_eq_ok.mp hs
  obtain rfl := pure_eq_ok.mp hs
  rfl

theorem addRow_simple {group : String} {i : Nat} (hs : s.addRow group = .ok (s', i)) :
    s'.simple = s.simple := by
  obtain ⟨g, -, hs⟩ := bind_eq_ok.mp hs
  obtain ⟨rfl, -⟩ := Prod.mk.inj (pure_eq_ok.mp hs)
  rfl

theorem removeRow_simple {group : String} {row : Value} (hs : s.removeRow group row = .ok s') :
    s'.simple = s.simple := by
  obtain ⟨g, -, hs⟩ := bind_eq_ok.mp hs
  obtain ⟨i, -, hs⟩ := bind_eq_ok.mp hs
  obtain rfl := pure_eq_ok.mp hs
  rfl

theorem nodup_set (h : (Keyed.names r).Nodup) (name : String) (v : Value) :
    (Keyed.names (r.set name v)).Nodup := by
  rw [set_eq_put]
  exact Keyed.nodup_put h name v

theorem nodup_loadEntries (h : (Keyed.names s.simple).Nodup) (es : Entries) :
    (Keyed.names (s.loadEntries es).1.simple).Nodup := by
  induction es generalizing s with
  | nil => exact h
  | cons e es ih =>
    obtain ⟨k, v⟩ := e
    rw [loadEntries]
    split
    · rename_i hs
      refine ih ?_
      rcases loadEntry_cases hs with rfl | ⟨name, -, rfl⟩ | ⟨name, g, w, -, -, rfl⟩
      · exact h
      · exact nodup_set h name v
      · exact h
    · exact h

theorem nodup_perform (h : (Keyed.names s.simple).Nodup) (op : Operation) :
    (Keyed.names (s.perform op).1.simple).Nodup := by
  have settle {x : Except Fault Store} (hx : ∀ s', x = .ok s' → s'.simple = s.simple) :
      (Keyed.names (s.settle x).1.simple).Nodup := by
    cases x with
    | ok s' => exact (hx s' rfl).symm ▸ h
    | error e => exact h
  cases op with
  | reset => exact List.nodup_nil
  | setSimple field v =>
    rw [perform, setSimple]
    split
    · exact nodup_set h field v
    · exact h
  | setMember group field v => exact settle fun _ => setMember_simple
  | setCell group row field v => exact settle fun _ => setCell_simple
  | addRow group =>
    refine settle ?_
    intro s' hs
    obtain ⟨⟨s', i⟩, hadd, rfl⟩ := map_eq_ok.mp hs
    exact addRow_simple hadd
  | removeRow group row => exact settle fun _ => removeRow_simple
  | load values =>
    cases values with
    | record es => exact nodup_loadEntries (s := empty s.form) List.nodup_nil es
    | _ => exact List.nodup_nil

theorem nodup_run (h : (Keyed.names s.simple).Nodup) (ops : List Operation) :
    (Keyed.names (s.run ops).simple).Nodup := by
  induction ops generalizing s with
  | nil => exact h
  | cons op ops ih => exact ih (nodup_perform h op)

theorem tidy_run (hform : form.Separated) (ops : List Operation) :
    ((empty form).run ops).Tidy form :=
  ⟨(shaped_empty form hform.toWellNamed).run hform.toWellNamed ops,
    nodup_run (s := empty form) List.nodup_nil ops⟩

/-- The values of a payload are the authored values of the document. -/
theorem payloadOf_values {d : Snapshot} {values : Value} (h : d.toValues = .ok values)
    (typeId : Value) (signers : Signers String) :
    ∃ p, Submission.payloadOf typeId d signers = .ok p ∧ p.field "values" = .ok values := by
  rw [Submission.payloadOf, h]
  refine ⟨_, rfl, ?_⟩
  split <;> rfl

/-- Nothing is lost on the way of a document through its authored values. They hold every field and
every group under a name of its own, and loading them gives a store of the same payload, so that the
values of a payload determine the document. What has been loaded once is loaded from its authored
values as it is from the plain form of the input. -/
theorem reload_lossless {reg : Registry} {id : String} (hr : reg.Reachable)
    (hform : reg.getForm id = .ok form) :
    (∀ ops s, (empty form).run ops = s → ∃ values, s.snapshot.toValues = .ok values ∧
      (∀ name v, (name, v) ∈ s.simple → values.field name = .ok v.plain) ∧
      (∀ name v, (name, v) ∈ s.groups → values.field name = .ok v.toValue.plain) ∧
      ∀ s' : Store, s'.form = form → ∃ loaded, s'.load values = (loaded, none) ∧
        loaded.snapshot.toValue = s.snapshot.toValue) ∧
    (∀ ops ops' s s', (empty form).run ops = s → (empty form).run ops' = s' →
      ∀ typeId typeId' signers signers', ∃ p p',
        Submission.payloadOf typeId s.snapshot signers = .ok p ∧
        Submission.payloadOf typeId' s'.snapshot signers' = .ok p' ∧
        (p.field "values" = p'.field "values" → s.snapshot.toValue = s'.snapshot.toValue)) ∧
    ∀ (s : Store) input loaded, s.form = form → s.load input = (loaded, none) →
      ∃ values, loaded.snapshot.toValues = .ok values ∧ ∀ s' : Store, s'.form = form →
        s'.load values = s'.load input.plain ∧ ∃ again, s'.load values = (again, none) ∧
          again.snapshot.toValue = loaded.snapshot.toValue := by
  have hsep := Registry.getForm_separated hr hform
  have hreload {s : Store} (h : s.Tidy form) : ∀ s' : Store, s'.form = form →
      ∃ loaded, s'.load (.named s.plain.authored) = (loaded, none) ∧
        loaded.snapshot.toValue = s.snapshot.toValue := by
    intro s' hs'
    exact ⟨s.plain, h.plain.load_authored hsep hs', s.toValue_plain⟩
  refine ⟨?_, ?_, ?_⟩
  · rintro ops s rfl
    have h := tidy_run hsep ops
    refine ⟨_, h.toValues_snapshot hsep, ?_, ?_, hreload h⟩
    · intro name v hv
      refine h.plain.field_authored hsep (List.mem_append_left _ ?_)
      exact List.mem_map.mpr ⟨_, hv, rfl⟩
    · intro name v hv
      rw [v.toValue_plain]
      refine h.plain.field_authored hsep (List.mem_append_right _ ?_)
      exact List.mem_map.mpr ⟨(name, v.plain), List.mem_map.mpr ⟨_, hv, rfl⟩, rfl⟩
  · rintro ops ops' s s' rfl rfl typeId typeId' signers signers'
    have h := tidy_run hsep ops
    have h' := tidy_run hsep ops'
    obtain ⟨p, hp, hvalues⟩ := payloadOf_values (h.toValues_snapshot hsep) typeId signers
    obtain ⟨p', hp', hvalues'⟩ := payloadOf_values (h'.toValues_snapshot hsep) typeId' signers'
    refine ⟨p, p', hp, hp', ?_⟩
    intro heq
    rw [hvalues, hvalues'] at heq
    -- what the values are loaded as is the one document and the other
    have hload : (empty form).load (.named _) = _ := h.plain.load_authored hsep rfl
    rw [Except.ok.inj heq, h'.plain.load_authored hsep rfl] at hload
    rw [← toValue_plain, ← toValue_plain ((empty form).run ops'), (Prod.mk.inj hload).1]
  · intro s input loaded hs hload
    rw [load_eq_load_empty hs] at hload
    have h : loaded.Tidy form := by
      have hrun := tidy_run hsep [.load input]
      rwa [run, List.foldl_cons, List.foldl_nil, perform, hload] at hrun
    refine ⟨_, h.toValues_snapshot hsep, ?_⟩
    intro s' hs'
    refine ⟨?_, hreload h s' hs'⟩
    rw [h.plain.load_authored hsep hs', load_eq_load_empty hs', load_plain hload]

/-- Values that a payload writes as texts, an empty row and a missing value. -/
def orderEdits : List Operation :=
  [.setSimple "number" (.date ⟨2026, 1, 15, by decide⟩), .addRow "lines",
    .setCell "lines" (.int 1) "amount" .null]

theorem reload_lossless_orderEdits : ∃ values,
    ((empty orderForm).run orderEdits).snapshot.toValues = .ok values ∧
    values = .named [("number", .text "2026-01-15"),
      ("lines", .list [.named [], .named [("amount", .null)]])] ∧
    ∃ loaded, ((empty orderForm).run badEdits).load values = (loaded, none) ∧
      loaded.snapshot.toValue = ((empty orderForm).run orderEdits).snapshot.toValue := by
  have hform : Registry.orders.getForm "t" = .ok orderForm := by decide +kernel
  obtain ⟨hreload, -, -⟩ := reload_lossless Registry.orders_reachable hform
  obtain ⟨values, hvalues, -, -, hload⟩ := hreload orderEdits _ rfl
  refine ⟨values, hvalues, ?_, hload _ (by decide +kernel)⟩
  have heval : ((empty orderForm).run orderEdits).snapshot.toValues =
      .ok (.named [("number", .text "2026-01-15"),
        ("lines", .list [.named [], .named [("amount", .null)]])]) := by decide +kernel
  exact Except.ok.inj (hvalues.symm.trans heval)

end Store
end DocForms
