import DocForms.Proofs.Store.Reloading

/-! Loads that are refused. A load begins with an empty store and takes over entry by entry. So when
an entry is refused, the store holds what the entries before it say, and nothing of what it held. -/
namespace DocForms

/-- The authored values that a group takes over: none, a list of records, or a single record. -/
inductive FieldGroup.Loads (g : FieldGroup) : Value → Prop
  | missing : Loads g .null
  | rows (hr : g.repeatable = true) {vs : List Value} (h : ∀ v ∈ vs, ∃ es, v = .record es) :
      Loads g (.list vs)
  | row (hr : g.repeatable = false) (es : Entries) : Loads g (.record es)

/-- Authored entries for a group that the group does not take over. -/
def Form.Misshapen (form : Form) (x : Atom × Value) : Prop :=
  ∃ name g, x.1 = .text name ∧ form.group? name = some g ∧ ¬ g.Loads x.2

namespace Store
variable {form : Form} {s s' : Store} {g : FieldGroup} {v : Value} {x : Atom × Value} {e : Fault}
  {name : String}

/-! ### Entries -/

theorem rowList_isSome {vs : List Value} :
    (rowList? g vs).isSome = true ↔ ∀ v ∈ vs, ∃ es, v = .record es := by
  induction vs with
  | nil => simp [rowList?]
  | cons v vs ih =>
    rw [List.forall_mem_cons, ← ih]
    cases v with
    | record es => simp [rowList?]
    | atom a => simp [rowList?]
    | link l => simp [rowList?]
    | list ws => simp [rowList?]

/-- The refusal of values that a group does not take over. -/
def shapeRefusal (g : FieldGroup) : Refusal :=
  if g.repeatable then .rowsExpected g.name else .rowExpected g.name

theorem shapeRefusal_code (g : FieldGroup) : (shapeRefusal g).code = "ShapeError" := by
  unfold shapeRefusal
  split <;> rfl

/-- Values that are given are taken over by a group, or they are refused. -/
theorem groupOf_cases (hnull : v.isNull = false) :
    (g.Loads v ∧ ∃ w, groupOf g v = .ok w) ∨
      ¬ g.Loads v ∧ groupOf g v = .error (.refused (shapeRefusal g)) := by
  have hgiven : v ≠ .null := by
    rintro rfl
    cases hnull
  unfold groupOf shapeRefusal
  cases hr : g.repeatable with
  | true =>
    simp only [if_true]
    split
    · rename_i vs
      cases hrows : rowList? g vs with
      | some rs =>
        have hsome : (rowList? g vs).isSome = true := by
          rw [hrows]
          rfl
        exact .inl ⟨.rows hr (rowList_isSome.mp hsome), _, rfl⟩
      | none =>
        refine .inr ⟨?_, rfl⟩
        rintro (_ | ⟨-, hall⟩ | ⟨hsingle, -⟩)
        rw [← rowList_isSome (g := g), hrows] at hall
        cases hall
    · rename_i hlist
      refine .inr ⟨?_, rfl⟩
      rintro (_ | ⟨-, hall⟩ | ⟨hsingle, es⟩)
      · exact hgiven rfl
      · exact hlist _ rfl
      · cases hr.symm.trans hsingle
  | false =>
    simp only [Bool.false_eq_true, if_false]
    split
    · rename_i es
      exact .inl ⟨.row hr es, _, rfl⟩
    · rename_i hrecord
      refine .inr ⟨?_, rfl⟩
      rintro (_ | ⟨hmany, -⟩ | ⟨-, es⟩)
      · exact hgiven rfl
      · cases hr.symm.trans hmany
      · exact hrecord es rfl

/-- An entry is refused just if it is misshapen, and with the refusal of its group. -/
theorem loadEntry_eq_error_iff : s.loadEntry x.1 x.2 = .error e ↔ ∃ name g, x.1 = .text name ∧
    s.form.group? name = some g ∧ ¬ g.Loads x.2 ∧ e = .refused (shapeRefusal g) := by
  obtain ⟨key, v⟩ := x
  cases key with
  | text name =>
    rw [loadEntry]
    cases hgroup : s.form.group? name with
    | none =>
      simp only
      split <;> simp [hgroup]
    | some g =>
      simp only
      cases hnull : v.isNull with
      | true =>
        obtain rfl : v = .null := by
          unfold Value.isNull at hnull
          split at hnull
          · rfl
          · cases hnull
        refine iff_of_false (fun he => by cases he) ?_
        rintro ⟨name', g', hname, hg', hloads, -⟩
        exact hloads .missing
      | false =>
        simp only [Bool.false_eq_true, if_false]
        rcases groupOf_cases (g := g) hnull with ⟨hloads, w, hw⟩ | ⟨hloads, hw⟩
        · rw [hw]
          refine iff_of_false (fun he => by cases he) ?_
          rintro ⟨name', g', hname, hg', hnot, -⟩
          obtain rfl := Atom.text.inj hname
          obtain rfl := Option.some.inj (hgroup.symm.trans hg')
          exact hnot hloads
        · rw [hw]
          constructor
          · intro he
            exact ⟨name, g, rfl, hgroup, hloads, (Except.error.inj he).symm⟩
          · rintro ⟨name', g', hname, hg', -, rfl⟩
            obtain rfl := Atom.text.inj hname
            obtain rfl := Option.some.inj (hgroup.symm.trans hg')
            rfl
  | _ =>
    refine iff_of_false (fun he => by cases he) ?_
    rintro ⟨name, g, hname, -⟩
    cases hname

theorem misshapen_of_error (h : s.loadEntry x.1 x.2 = .error e) :
    s.form.Misshapen x ∧ ∃ g, e = .refused (shapeRefusal g) := by
  obtain ⟨name, g, hname, hg, hloads, he⟩ := loadEntry_eq_error_iff.mp h
  exact ⟨⟨name, g, hname, hg, hloads⟩, g, he⟩

theorem loadEntry_form (h : s.loadEntry x.1 x.2 = .ok s') : s'.form = s.form := by
  rcases loadEntry_cases h with rfl | ⟨name, -, rfl⟩ | ⟨name, g, w, -, -, rfl⟩ <;> rfl

theorem loadEntries_form (s : Store) (es : Entries) : (s.loadEntries es).1.form = s.form := by
  induction es generalizing s with
  | nil => rfl
  | cons x es ih =>
    rw [loadEntries]
    split
    · rename_i t ht
      exact (ih t).trans (loadEntry_form ht)
    · rfl

/-! ### Entries that are refused -/

/-- A load ends without a refusal, or at the first misshapen entry. -/
theorem loadEntries_cases (s : Store) (es : Entries) :
    ((s.loadEntries es).2 = none ∧ ∀ x ∈ es, ¬ s.form.Misshapen x) ∨
      ∃ before x after s' g, es = before ++ x :: after ∧ s.loadEntries before = (s', none) ∧
        (∀ y ∈ before, ¬ s.form.Misshapen y) ∧ s.form.Misshapen x ∧
        s.loadEntries es = (s', some (.refused (shapeRefusal g))) := by
  induction es generalizing s with
  | nil => exact .inl ⟨rfl, by simp⟩
  | cons x es ih =>
    cases hx : s.loadEntry x.1 x.2 with
    | error e =>
      obtain ⟨hmisshapen, g, rfl⟩ := misshapen_of_error hx
      refine .inr ⟨[], x, es, s, g, rfl, rfl, by simp, hmisshapen, ?_⟩
      rw [loadEntries]
      simp only [hx]
    | ok t =>
      have hform := loadEntry_form hx
      have hstep (es : Entries) : s.loadEntries (x :: es) = t.loadEntries es := by
        rw [loadEntries]
        simp only [hx]
      have hfine : ¬ s.form.Misshapen x := by
        rintro ⟨name, g, hname, hg, hloads⟩
        cases hx.symm.trans (loadEntry_eq_error_iff.mpr ⟨name, g, hname, hg, hloads, rfl⟩)
      have hrest := ih t
      rw [hform] at hrest
      rcases hrest with ⟨hnone, hall⟩ | ⟨before, y, after, s', g, rfl, hbefore, hall, hy, hes⟩
      · rw [hstep]
        exact .inl ⟨hnone, List.forall_mem_cons.mpr ⟨hfine, hall⟩⟩
      · refine .inr ⟨x :: before, y, after, s', g, rfl, ?_, ?_, hy, ?_⟩
        · rw [hstep, hbefore]
        · exact List.forall_mem_cons.mpr ⟨hfine, hall⟩
        · exact (hstep _).trans hes

/-! ### What entries leave as it is -/

theorem lookup_setGroup {other : String} (hne : other ≠ name) (w : GroupValues) :
    (s.setGroup name w).groupValues other = s.groupValues other := by
  rw [groupValues, groupValues, setGroup]
  induction s.groups with
  | nil => rfl
  | cons e gs ih =>
    obtain ⟨n, u⟩ := e
    rw [List.map_cons]
    by_cases hn : n = name
    · subst hn
      simp only [beq_self_eq_true, if_true, List.lookup_cons, beq_false_of_ne hne]
      exact ih
    · simp only [beq_false_of_ne hn, Bool.false_eq_true, if_false, List.lookup_cons]
      cases other == n with
      | true => rfl
      | false => exact ih

/-- Only an entry with the name of a field or of a group changes what is held for it. -/
theorem loadEntry_frame (h : s.loadEntry x.1 x.2 = .ok s') :
    (∀ name ∈ Keyed.names s'.simple, name ∈ Keyed.names s.simple ∨ x.1 = .text name) ∧
      ∀ name, x.1 ≠ .text name → s'.groupValues name = s.groupValues name := by
  obtain ⟨key, v⟩ := x
  cases key with
  | text n =>
    rw [loadEntry] at h
    split at h
    · split at h
      · obtain rfl := Except.ok.inj h
        refine ⟨fun name hname => ?_, fun _ _ => rfl⟩
        rw [set_eq_put] at hname
        rcases Keyed.mem_names_put.mp hname with rfl | hname
        · exact .inr rfl
        · exact .inl hname
      · obtain rfl := Except.ok.inj h
        exact ⟨fun _ => .inl, fun _ _ => rfl⟩
    · split at h
      · obtain rfl := Except.ok.inj h
        exact ⟨fun _ => .inl, fun _ _ => rfl⟩
      · obtain ⟨w, -, h⟩ := bind_eq_ok.mp h
        obtain rfl := pure_eq_ok.mp h
        refine ⟨fun _ => .inl, fun name hne => lookup_setGroup ?_ w⟩
        rintro rfl
        exact hne rfl
  | _ =>
    obtain rfl := Except.ok.inj h
    exact ⟨fun _ => .inl, fun _ _ => rfl⟩

theorem loadEntries_frame {es : Entries} (h : s.loadEntries es = (s', none)) :
    (∀ name ∈ Keyed.names s'.simple, name ∈ Keyed.names s.simple ∨ ∃ y ∈ es, y.1 = .text name) ∧
      ∀ name, (∀ y ∈ es, y.1 ≠ .text name) → s'.groupValues name = s.groupValues name := by
  induction es generalizing s with
  | nil =>
    obtain ⟨rfl, -⟩ := Prod.mk.inj h
    exact ⟨fun _ => .inl, fun _ _ => rfl⟩
  | cons x es ih =>
    rw [loadEntries] at h
    split at h
    · rename_i t ht
      obtain ⟨hsimple, hgroups⟩ := loadEntry_frame ht
      obtain ⟨hsimple', hgroups'⟩ := ih h
      constructor
      · intro name hname
        rcases hsimple' name hname with hname | ⟨y, hy, hkey⟩
        · rcases hsimple name hname with hname | hkey
          · exact .inl hname
          · exact .inr ⟨x, List.mem_cons_self .., hkey⟩
        · exact .inr ⟨y, List.mem_cons_of_mem _ hy, hkey⟩
      · intro name hall
        obtain ⟨hx, hall⟩ := List.forall_mem_cons.mp hall
        exact (hgroups' name hall).trans (hgroups name hx)
    · cases (Prod.mk.inj h).2

theorem groupValues_empty (hn : form.WellNamed) (hg : g ∈ form.groups) :
    (empty form).groupValues g.name = .initial g := by
  have hnames : (Keyed.names (empty form).groups).Nodup := by
    rw [Keyed.names, (shaped_empty form hn).names]
    exact hn.groups
  have hmem : (g.name, GroupValues.initial g) ∈ (empty form).groups :=
    List.mem_map.mpr ⟨g, hg, rfl⟩
  exact congrArg (·.getD (.row [])) (Keyed.get?_of_mem hnames hmem)

/-! ### Snapshots -/

theorem named_injective : Function.Injective Value.named := by
  intro es es' h
  refine List.map_injective_iff.mpr ?_ (Value.record.inj h)
  intro e e' he
  obtain ⟨hname, hvalue⟩ := Prod.mk.inj he
  exact Prod.ext (Atom.text.inj hname) hvalue

theorem toValue_injective : Function.Injective GroupValues.toValue := by
  intro w w' h
  cases w with
  | row r =>
    cases w' with
    | row r' => exact congrArg GroupValues.row (named_injective h)
    | rows rs' => cases h
  | rows rs =>
    cases w' with
    | row r' => cases h
    | rows rs' =>
      have hrows := List.map_injective_iff.mpr named_injective (Value.list.inj h)
      exact congrArg GroupValues.rows hrows

/-- The snapshot of a store shows all that the store holds. -/
theorem eq_of_snapshot (h : s.snapshot = s'.snapshot) :
    s.simple = s'.simple ∧ s.groups = s'.groups := by
  obtain ⟨hsimple, hgroups⟩ := Snapshot.mk.inj h
  refine ⟨named_injective hsimple, List.map_injective_iff.mpr ?_ (named_injective hgroups)⟩
  intro e e' he
  obtain ⟨hname, hvalue⟩ := Prod.mk.inj he
  exact Prod.ext hname (toValue_injective hvalue)

/-! ### Refused loads -/

/-- Entries that name all that a store holds: every field that has a value, and every group that is
not as it was at first. -/
def Covers (s : Store) (es : Entries) : Prop :=
  (∀ name ∈ Keyed.names s.simple, ∃ y ∈ es, y.1 = .text name) ∧
    ∀ g ∈ s.form.groups, s.groupValues g.name = .initial g ∨ ∃ y ∈ es, y.1 = .text g.name

/-- After a load the entries name all that the store holds. -/
theorem covers_of_loadEntries {es : Entries} (hn : form.WellNamed)
    (h : (empty form).loadEntries es = (s', none)) : s'.Covers es := by
  obtain ⟨hsimple, hgroups⟩ := loadEntries_frame h
  have hform : s'.form = form := by
    have hkept := loadEntries_form (empty form) es
    rwa [h] at hkept
  constructor
  · intro name hname
    exact (hsimple name hname).resolve_left nofun
  · intro g hg
    rw [hform] at hg
    by_cases hno : ∀ y ∈ es, y.1 ≠ .text g.name
    · exact .inl ((hgroups g.name hno).trans (groupValues_empty hn hg))
    · push Not at hno
      exact .inr hno

theorem Covers.of_snapshot {es : Entries} (hc : s'.Covers es) (hform : s'.form = s.form)
    (h : s'.snapshot = s.snapshot) : s.Covers es := by
  obtain ⟨hsimple, hgroups⟩ := eq_of_snapshot h
  unfold Covers groupValues at hc ⊢
  rwa [← hform, ← hsimple, ← hgroups]

/-- A load into a store for a form of a registry is refused just if one of the entries is misshapen.
Then the store holds what it would hold had only the entries before the first such entry been
loaded. So the snapshot stays only if these entries name all that the store held before. -/
theorem refused_load_iff {reg : Registry} {id : String} (hr : reg.Reachable)
    (hform : reg.getForm id = .ok form) (ops : List Operation) (values : Value) :
    let s := (empty form).run ops
    ((∃ e, (s.load values).2 = some (.refused e)) ↔
      ∃ es, values = .record es ∧ ∃ x ∈ es, form.Misshapen x) ∧
    ∀ e s', s.load values = (s', some (.refused e)) → e.code = "ShapeError" ∧
      ∃ before x after, values = .record (before ++ x :: after) ∧
        (∀ y ∈ before, ¬ form.Misshapen y) ∧ form.Misshapen x ∧
        s.load (.record before) = (s', none) ∧
        (s'.snapshot = s.snapshot → s.Covers before) := by
  intro s
  have hn := Registry.getForm_wellNamed hr hform
  have hs : s.form = form := ((shaped_empty form hn).run hn ops).form_eq
  have hload (es : Entries) : s.load (.record es) = (empty form).loadEntries es :=
    load_eq_load_empty hs (.record es)
  cases values with
  | record es =>
    rcases loadEntries_cases (empty form) es with
      ⟨hnone, hall⟩ | ⟨before, x, after, s₁, g, rfl, hbefore, hall, hx, hes⟩
    · refine ⟨?_, fun e s' h => ?_⟩
      · rw [hload, hnone]
        refine iff_of_false (by simp) ?_
        rintro ⟨es', he, x, hx, hmisshapen⟩
        obtain rfl := Value.record.inj he
        exact hall x hx hmisshapen
      · rw [hload] at h
        rw [h] at hnone
        cases hnone
    · refine ⟨?_, fun e s' h => ?_⟩
      · rw [hload, hes]
        refine iff_of_true ⟨_, rfl⟩ ⟨_, rfl, x, ?_, hx⟩
        exact List.mem_append_right _ (List.mem_cons_self ..)
      · rw [hload, hes] at h
        obtain ⟨rfl, he⟩ := Prod.mk.inj h
        obtain rfl := Fault.refused.inj (Option.some.inj he)
        have hform' : s₁.form = s.form := by
          have hkept := loadEntries_form (empty form) before
          rw [hbefore] at hkept
          exact hkept.trans hs.symm
        exact ⟨shapeRefusal_code g, before, x, after, rfl, hall, hx, (hload before).trans hbefore,
          (covers_of_loadEntries hn hbefore).of_snapshot hform'⟩
  | _ =>
    refine ⟨iff_of_false (by simp [load]) (by simp), fun e s' h => ?_⟩
    cases (Prod.mk.inj h).2

/-- The number of an order. -/
def numberEdit : List Operation := [.setSimple "number" (.text "7")]

/-- Authored values of an order whose lines are not records. -/
def scalarLines : Entries := Entries.ofNames [("lines", .list [.int 1])]

theorem refused_load_scalarLines :
    (∃ x ∈ scalarLines, orderForm.Misshapen x) ∧
    ∃ e before x after, (((empty orderForm).run numberEdit).load (.record scalarLines)).2 =
        some (.refused e) ∧ e.code = "ShapeError" ∧
      scalarLines = before ++ x :: after ∧ orderForm.Misshapen x ∧
      (((empty orderForm).run numberEdit).load (.record scalarLines)).1 =
        (((empty orderForm).run numberEdit).load (.record before)).1 := by
  have hform : Registry.orders.getForm "t" = .ok orderForm := by decide +kernel
  obtain ⟨hiff, hstate⟩ :=
    refused_load_iff Registry.orders_reachable hform numberEdit (.record scalarLines)
  have hload : ((empty orderForm).run numberEdit).load (.record scalarLines) =
      (empty orderForm, some (.refused (.rowsExpected "lines"))) := by decide +kernel
  obtain ⟨es, hes, hmisshapen⟩ := hiff.mp ⟨_, congrArg Prod.snd hload⟩
  obtain ⟨hcode, before, x, after, hsplit, -, hx, hbefore, -⟩ := hstate _ _ hload
  obtain rfl := Value.record.inj hes
  refine ⟨hmisshapen, _, before, x, after, congrArg Prod.snd hload, hcode, ?_, hx, ?_⟩
  · exact Value.record.inj hsplit
  · rw [hload, hbefore]

/-- The number of an order is gone after lines that are not records have been refused. -/
theorem refused_load_forgets :
    Registry.orders.Reachable ∧ Registry.orders.getForm "t" = .ok orderForm ∧
    (((empty orderForm).run numberEdit).load (.record scalarLines)).2 =
      some (.refused (.rowsExpected "lines")) ∧
    Refusal.code (.rowsExpected "lines") = "ShapeError" ∧
    (((empty orderForm).run numberEdit).load (.record scalarLines)).1.snapshot ≠
      ((empty orderForm).run numberEdit).snapshot := by
  refine ⟨Registry.orders_reachable, by decide +kernel, by decide +kernel, rfl, ?_⟩
  intro h
  obtain ⟨hsimple, -⟩ := eq_of_snapshot h
  exact absurd hsimple (by decide +kernel)

end Store
end DocForms
