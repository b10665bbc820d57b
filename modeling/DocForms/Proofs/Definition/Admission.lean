import DocForms.Definition.Check
import DocForms.Proofs.Shape.Legibility

/-! What can be relied on in a definition of the right shape, and that the check of definitions
comes to a result. -/
namespace DocForms.Definition
variable {v : Value} {es raw : Entries} {shape : Shape}

/-! ### Parts of the right shape -/

theorem choice_of_meets {names : List String} (h : Shape.Meets [.oneOf (names.map Value.text)] v) :
    ∃ n ∈ names, v = .text n := by
  obtain ⟨w, hw, hlisted⟩ := Shape.met_oneOf.mp (h _ (.head _))
  obtain ⟨n, hn, rfl⟩ := List.mem_map.mp hw
  exact ⟨n, hn, Shape.eq_of_listed hlisted⟩

theorem get?_of_has {name : String} (h : Entries.has es name = true) :
    ∃ v, Entries.get? es name = some v := by
  obtain ⟨e, he, hsame⟩ := List.any_eq_true.mp h
  cases hfind : List.find? (fun e => (Atom.text name).same e.1) es with
  | none => simpa [hsame] using List.find?_eq_none.mp hfind e he
  | some e' => exact ⟨e'.2, by rw [Entries.get?, Entries.lookup?, hfind]; rfl⟩

/-- What stands at an entry that a record can have is of the shape for the entry. -/
theorem part_of_meets {required known : List String} {entries : List (String × Shape)} (i : Nat)
    {name : String} (h : Shape.Meets [.type [.object], .required required, .closed known,
      .properties entries] (.record es)) (hi : entries[i]? = some (name, shape))
    (hv : Entries.get? es name = some v) : shape.Meets v :=
  h.property (.tail _ (.tail _ (.tail _ (.head _)))) (List.mem_of_getElem? hi) hv

/-- A record has the entries that it has to have, and each of those it can have is of its shape. -/
theorem record_of_meets {required known : List String} {entries : List (String × Shape)}
    (h : Shape.Meets [.type [.object], .required required, .closed known, .properties entries] v) :
    ∃ es, v = .record es ∧ (∀ n ∈ required, ∃ w, Entries.get? es n = some w) ∧
      ∀ (i : Nat) (name : String) (shape : Shape), entries[i]? = some (name, shape) →
        ∀ w, Entries.get? es name = some w → shape.Meets w := by
  obtain ⟨es, rfl⟩ := Shape.record_of_met (h _ (.head _))
  refine ⟨es, rfl, fun n hn => ?_, fun i name shape hi w hw => part_of_meets i h hi hw⟩
  exact get?_of_has (Shape.met_required.mp (h _ (.tail _ (.head _))) n hn)

/-- The members under a name are of the shape for members. -/
theorem members_of_meets {name : String} (h : ∀ v, Entries.get? es name = some v →
      Shape.Meets [.type [.array], .items shape] v) :
    ∃ vs, members es name = .ok vs ∧ ∀ w ∈ vs, shape.Meets w := by
  cases hv : Entries.get? es name with
  | none => exact ⟨[], by rw [members, hv], by simp⟩
  | some v =>
    obtain ⟨vs, rfl⟩ := Shape.list_of_met (h v hv _ (.head _))
    refine ⟨vs, by rw [members, hv]; rfl, ?_⟩
    exact Shape.met_items.mp (h _ hv _ (.tail _ (.head _)))

theorem hasText_member (ht : (Value.record es).hasText = true) {name : String} {vs : List Value}
    (h : members es name = .ok vs) (hv : v ∈ vs) : v.hasText = true := by
  unfold members at h
  split at h
  · rename_i w hw
    have htext := Value.hasText_get? ht hw
    unfold Value.elements at h
    split at h
    · obtain rfl := Except.ok.inj h
      exact Value.hasText_list.mp htext _ hv
    · obtain rfl := Except.ok.inj h
      obtain ⟨c, -, rfl⟩ := List.mem_map.mp hv
      rfl
    · obtain rfl := Except.ok.inj h
      obtain ⟨e, he, rfl⟩ := List.mem_map.mp hv
      exact (Value.hasText_record.mp htext _ he).1
    · cases h
  · obtain rfl := Except.ok.inj h
    cases hv

/-! ### Definitions of the right shape -/

/-- What can be relied on in the entry of a field. -/
structure FieldEntry (es : Entries) : Prop where
  name : ∃ s, Entries.get? es "name" = some (.text s)
  label : ∃ s, Entries.get? es "label" = some (.text s)
  kind : ∃ k : FieldKind, Entries.get? es "type" = some (.text k.name)
  target : ∀ v, Entries.get? es "target_code" = some v → ∃ s, v = .text s
  relation : ∀ v, Entries.get? es "link_type" = some v → ∃ s, v = .text s

/-- What can be relied on in the entry of a group. -/
structure GroupEntry (es : Entries) : Prop where
  name : ∃ s, Entries.get? es "name" = some (.text s)
  label : ∃ s, Entries.get? es "label" = some (.text s)
  low : ∀ v, Entries.get? es "min_repeats" = some v → ∃ n, v.number? = some n
  high : ∀ v, Entries.get? es "max_repeats" = some v → ∃ n, v.number? = some n
  fields : ∃ vs, members es "fields" = .ok vs ∧ ∀ v ∈ vs, ∃ fs, v = .record fs ∧ FieldEntry fs

/-- What can be relied on in a definition. -/
structure Admitted (raw : Entries) : Prop where
  code : ∃ s, Entries.get? raw "code" = some (.text s)
  name : ∃ s, Entries.get? raw "name" = some (.text s)
  fields : ∃ vs, members raw "fields" = .ok vs ∧ ∀ v ∈ vs, ∃ es, v = .record es ∧ FieldEntry es
  groups : ∃ vs, members raw "groups" = .ok vs ∧ ∀ v ∈ vs, ∃ es, v = .record es ∧ GroupEntry es

theorem fieldEntry_of_meets (h : fieldShape.Meets v) : ∃ es, v = .record es ∧ FieldEntry es := by
  obtain ⟨es, rfl, hrequired, hparts⟩ := record_of_meets h
  obtain ⟨name, hname⟩ := hrequired "name" (by simp)
  obtain ⟨label, hlabel⟩ := hrequired "label" (by simp)
  obtain ⟨kind, hkind⟩ := hrequired "type" (by simp)
  obtain ⟨s, rfl⟩ := Shape.text_of_met (hparts 0 _ _ rfl name hname _ (.head _))
  obtain ⟨t, rfl⟩ := Shape.text_of_met (hparts 1 _ _ rfl label hlabel _ (.head _))
  obtain ⟨n, hn, rfl⟩ := choice_of_meets (hparts 2 _ _ rfl kind hkind)
  obtain ⟨k, -, rfl⟩ := List.mem_map.mp hn
  refine ⟨es, rfl, ⟨s, hname⟩, ⟨t, hlabel⟩, ⟨k, hkind⟩, fun v hv => ?_, fun v hv => ?_⟩
  · exact Shape.text_of_met (hparts 5 _ _ rfl v hv _ (.head _))
  · obtain ⟨n, -, rfl⟩ := choice_of_meets (hparts 6 _ _ rfl v hv)
    exact ⟨n, rfl⟩

theorem groupEntry_of_meets (h : groupShape.Meets v) : ∃ es, v = .record es ∧ GroupEntry es := by
  obtain ⟨es, rfl, hrequired, hparts⟩ := record_of_meets h
  obtain ⟨name, hname⟩ := hrequired "name" (by simp)
  obtain ⟨label, hlabel⟩ := hrequired "label" (by simp)
  obtain ⟨s, rfl⟩ := Shape.text_of_met (hparts 0 _ _ rfl name hname _ (.head _))
  obtain ⟨t, rfl⟩ := Shape.text_of_met (hparts 1 _ _ rfl label hlabel _ (.head _))
  obtain ⟨vs, hvs, hfields⟩ := members_of_meets (hparts 6 "fields" _ rfl)
  refine ⟨es, rfl, ⟨s, hname⟩, ⟨t, hlabel⟩, fun v hv => ?_, fun v hv => ?_, vs, hvs, fun v hv => ?_⟩
  · exact Shape.number_of_met (hparts 4 _ _ rfl v hv _ (.head _))
  · exact Shape.number_of_met (hparts 5 _ _ rfl v hv _ (.head _))
  · exact fieldEntry_of_meets (hfields v hv)

theorem admitted_of_meets (h : Definition.shape.Meets (.record raw)) : Admitted raw := by
  obtain ⟨_, hraw, hrequired, hparts⟩ := record_of_meets h
  obtain rfl := Value.record.inj hraw
  obtain ⟨code, hcode⟩ := hrequired "code" (by simp)
  obtain ⟨name, hname⟩ := hrequired "name" (by simp)
  obtain ⟨s, rfl⟩ := Shape.text_of_met (hparts 1 _ _ rfl code hcode _ (.head _))
  obtain ⟨t, rfl⟩ := Shape.text_of_met (hparts 2 _ _ rfl name hname _ (.head _))
  obtain ⟨vs, hvs, hfields⟩ := members_of_meets (hparts 6 "fields" _ rfl)
  obtain ⟨gs, hgs, hgroups⟩ := members_of_meets (hparts 7 "groups" _ rfl)
  refine ⟨⟨s, hcode⟩, ⟨t, hname⟩, ⟨vs, hvs, fun v hv => ?_⟩, gs, hgs, fun v hv => ?_⟩
  · exact fieldEntry_of_meets (hfields v hv)
  · exact groupEntry_of_meets (hgroups v hv)

/-! ### Names -/

/-- All values are texts. -/
def Texts (vs : List Value) : Prop := ∀ v ∈ vs, ∃ s, v = .text s

theorem hasText_of_texts {vs : List Value} (h : Texts vs) : (Value.list vs).hasText = true := by
  refine Value.hasText_list.mpr fun v hv => ?_
  obtain ⟨s, rfl⟩ := h v hv
  rfl

theorem distinct_subset (vs : List Value) : distinct vs ⊆ vs := by
  induction vs with
  | nil => exact List.Subset.refl _
  | cons v vs ih =>
    refine List.cons_subset_cons v fun w hw => ?_
    exact ih (List.mem_filter.mp hw).1

/-- Texts can be compared. -/
theorem sorted_of_texts {vs : List Value} (h : Texts vs) : ∃ ws, sorted vs = .ok ws ∧ Texts ws := by
  have hordered : (vs.all fun a => vs.all fun b => (before? a b).isSome) = true := by
    refine List.all_eq_true.mpr fun a ha => List.all_eq_true.mpr fun b hb => ?_
    obtain ⟨s, rfl⟩ := h a ha
    obtain ⟨t, rfl⟩ := h b hb
    rfl
  refine ⟨_, by rw [sorted, hordered, Bool.or_true, if_pos rfl], fun w hw => ?_⟩
  exact h w ((List.mergeSort_perm ..).mem_iff.mp hw)

theorem checkKeys_graceful {vs : List Value} (h : Texts vs) : Graceful (checkKeys vs) := by
  induction vs with
  | nil => exact graceful_ok ()
  | cons v vs ih =>
    obtain ⟨⟨s, rfl⟩, hrest⟩ := List.forall_mem_cons.mp h
    exact ih hrest

theorem duplicateProblem_graceful {names : List Value} (h : Texts names) :
    Graceful (duplicateProblem names) := by
  have hagain : Texts (repeated names) := fun v hv =>
    h v (List.mem_filter.mp (distinct_subset _ hv)).1
  refine (checkKeys_graceful hagain).bind fun _ _ => ?_
  split
  · exact graceful_pure _
  · obtain ⟨ws, hws, htexts⟩ := sorted_of_texts hagain
    rw [hws]
    exact (Value.written_graceful (hasText_of_texts htexts)).bind fun _ _ => graceful_pure _

theorem clashProblem_graceful {groups fields : List Value} (hgroups : Texts groups)
    (hfields : Texts fields) : Graceful (clashProblem groups fields) := by
  have hall : Texts (groups ++ fields) := List.forall_mem_append.mpr ⟨hgroups, hfields⟩
  refine (checkKeys_graceful hall).bind fun _ _ => ?_
  dsimp only
  split
  · exact graceful_pure _
  · obtain ⟨ws, hws, htexts⟩ := sorted_of_texts fun v hv =>
      hgroups v (List.mem_filter.mp (distinct_subset _ hv)).1
    rw [hws]
    exact (Value.written_graceful (hasText_of_texts htexts)).bind fun _ _ => graceful_pure _

theorem part_of_get? {name : String} (h : Entries.get? es name = some v) :
    part (.record es) name = .ok v := by
  rw [part, h]

theorem mapM_ok_of {α β : Type} {f : α → Except Fault β} {P : β → Prop} {as : List α}
    (h : ∀ a ∈ as, ∃ b, f a = .ok b ∧ P b) : ∃ bs, as.mapM f = .ok bs ∧ ∀ b ∈ bs, P b := by
  induction as with
  | nil => exact ⟨[], rfl, by simp⟩
  | cons a as ih =>
    obtain ⟨⟨b, hb, hP⟩, hrest⟩ := List.forall_mem_cons.mp h
    obtain ⟨bs, hbs, hPs⟩ := ih hrest
    exact ⟨b :: bs, by rw [List.mapM_cons, hb, hbs]; rfl, List.forall_mem_cons.mpr ⟨hP, hPs⟩⟩

theorem names_of_fields {vs : List Value} (h : ∀ v ∈ vs, ∃ es, v = .record es ∧ FieldEntry es) :
    ∃ names, vs.mapM (part · "name") = .ok names ∧ Texts names := by
  refine mapM_ok_of fun v hv => ?_
  obtain ⟨es, rfl, hentry⟩ := h v hv
  obtain ⟨s, hs⟩ := hentry.name
  exact ⟨_, part_of_get? hs, s, rfl⟩

theorem fieldNames_ok (h : Admitted raw) : ∃ names, fieldNames raw = .ok names ∧ Texts names := by
  obtain ⟨vs, hvs, hfields⟩ := h.fields
  obtain ⟨gs, hgs, hgroups⟩ := h.groups
  obtain ⟨top, htop, htexts⟩ := names_of_fields hfields
  obtain ⟨inner, hinner, hall⟩ : ∃ inner, (gs.mapM fun g => do
      (← members (← g.entries) "fields").mapM (part · "name")) = .ok inner ∧
      ∀ names ∈ inner, Texts names := by
    refine mapM_ok_of fun g hg => ?_
    obtain ⟨es, rfl, hentry⟩ := hgroups g hg
    obtain ⟨vs, hvs, hfields⟩ := hentry.fields
    obtain ⟨names, hnames, htexts⟩ := names_of_fields hfields
    refine ⟨names, ?_, htexts⟩
    show (members es "fields" >>= fun vs => vs.mapM (part · "name")) = _
    rw [hvs]
    exact hnames
  refine ⟨top ++ inner.flatten, ?_, List.forall_mem_append.mpr ⟨htexts, fun v hv => ?_⟩⟩
  · simp only [fieldNames, bind_eq_ok, pure_eq_ok]
    exact ⟨vs, hvs, top, htop, gs, hgs, inner, hinner, rfl⟩
  · obtain ⟨names, hnames, hv⟩ := List.mem_flatten.mp hv
    exact hall names hnames v hv

theorem groupNames_ok (h : Admitted raw) : ∃ names, groupNames raw = .ok names ∧ Texts names := by
  obtain ⟨gs, hgs, hgroups⟩ := h.groups
  rw [groupNames, hgs]
  refine mapM_ok_of fun g hg => ?_
  obtain ⟨es, rfl, hentry⟩ := hgroups g hg
  obtain ⟨s, hs⟩ := hentry.name
  exact ⟨_, part_of_get? hs, s, rfl⟩

/-! ### The check -/

theorem before?_of_numbers {a b : Value} {x y : Number} (ha : a.number? = some x)
    (hb : b.number? = some y) : (before? a b).isSome = true := by
  unfold Value.number? at ha hb
  split at ha <;> split at hb <;> first | rfl | contradiction

theorem boundsProblem_graceful (h : GroupEntry es) (ht : (Value.record es).hasText = true) :
    Graceful (boundsProblem (.record es)) := by
  have number {name : String}
      (hv : ∀ v, Entries.get? es name = some v → ∃ n, v.number? = some n)
      (hnull : (Entries.get es name).isNull = false) :
      ∃ n, (Entries.get es name).number? = some n := by
    rw [Entries.get] at hnull ⊢
    cases hget : Entries.get? es name with
    | none => simp [hget, Value.isNull] at hnull
    | some v => exact hv v hget
  obtain ⟨s, hs⟩ := h.name
  show Graceful (if _ then _ else _)
  split
  · exact graceful_pure _
  · rename_i hboth
    simp only [Bool.or_eq_true, not_or, Bool.not_eq_true] at hboth
    obtain ⟨low, hlow⟩ := number h.low hboth.1
    obtain ⟨high, hhigh⟩ := number h.high hboth.2
    have hsome := before?_of_numbers hhigh hlow
    split
    · rename_i hnone
      simp [hnone] at hsome
    · exact graceful_pure _
    · refine .after (part_of_get? hs) ?_
      refine (Value.written_graceful rfl).bind fun _ _ => ?_
      refine (Value.written_graceful (Value.hasText_get ht _)).bind fun _ _ => ?_
      exact (Value.written_graceful (Value.hasText_get ht _)).bind fun _ _ => graceful_pure _

theorem shapeProblem?_graceful (formats : Formats) (ht : (Value.record raw).hasText = true) :
    Graceful (shapeProblem? formats raw) := by
  have hversion : Graceful (version raw) := by
    unfold version
    split
    · rename_i v hv
      exact Value.written_graceful (Value.hasText_get? ht hv)
    · exact graceful_ok _
  refine hversion.bind fun name _ => ?_
  split
  · exact graceful_pure _
  · exact (Shape.report_graceful ht _).bind fun _ _ => graceful_pure _

/-- With the shipped formats a definition without a problem of shape is of the one shape. -/
theorem meets_of_shape (h : shapeProblem? formats raw = .ok none) :
    Definition.shape.Meets (.record raw) := by
  obtain ⟨name, -, h⟩ := bind_eq_ok.mp h
  split at h
  · cases pure_eq_ok.mp h
  · rename_i shape hshape
    obtain ⟨violation, hreport, h⟩ := bind_eq_ok.mp h
    obtain ⟨rfl, -⟩ : violation = none ∧ True := by
      cases violation with
      | none => exact ⟨rfl, trivial⟩
      | some v => cases pure_eq_ok.mp h
    obtain rfl : shape = Definition.shape := by
      simp only [Keyed.get?, formats, List.lookup_cons, List.lookup_nil] at hshape
      split at hshape
      · exact (Option.some.inj hshape).symm
      · cases hshape
    exact Shape.report_eq_none.mp hreport

theorem admitted_of_shape (h : shapeProblem? formats raw = .ok none) : Admitted raw :=
  admitted_of_meets (meets_of_shape h)

/-- Every problem of a definition can be told, unless it has a very long integer. -/
theorem problems_graceful (ht : (Value.record raw).hasText = true) :
    Graceful (problems formats raw) := by
  refine (shapeProblem?_graceful formats ht).bind fun problem hproblem => ?_
  cases problem with
  | some p => exact graceful_pure _
  | none =>
    have hraw := admitted_of_shape hproblem
    obtain ⟨fields, hfields, hfieldTexts⟩ := fieldNames_ok hraw
    obtain ⟨groups, hgroups, hgroupTexts⟩ := groupNames_ok hraw
    obtain ⟨gs, hgs, hentries⟩ := hraw.groups
    have hbounds : Graceful (gs.mapM boundsProblem) := by
      refine graceful_mapM fun g hg => ?_
      obtain ⟨es, rfl, hentry⟩ := hentries g hg
      exact boundsProblem_graceful hentry (hasText_member ht hgs hg)
    refine .after hfields ((duplicateProblem_graceful hfieldTexts).bind fun _ _ => ?_)
    refine .after hgroups ((clashProblem_graceful hgroupTexts hfieldTexts).bind fun _ _ => ?_)
    exact .after hgs (hbounds.bind fun _ _ => graceful_pure _)

theorem admitted_of_problems (h : problems formats raw = .ok []) : Admitted raw := by
  obtain ⟨problem, hproblem, h⟩ := bind_eq_ok.mp h
  cases problem with
  | some p => cases pure_eq_ok.mp h
  | none => exact admitted_of_shape hproblem

end DocForms.Definition
