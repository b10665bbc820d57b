import DocForms.Definition.Loading
import DocForms.Proofs.Registry.Parsing
import DocForms.Proofs.Registry.Supply
import DocForms.Proofs.Shape.Meeting
import DocForms.Proofs.Submission.Instances

/-! What a definition says of the type, of its fields and of its groups, and that what is built from
its entries is as they say. -/
namespace DocForms

/-- A payload is taken for what it is parsed to, and a malformed one for none if that is allowed. -/
def TakenAs {α : Type} (strict : Bool) (parsed : Except Fault (Option α)) (a : Option α) : Prop :=
  parsed = .ok a ∨ strict = false ∧ a = none ∧ ∃ e, parsed = .error (.refused e)

theorem takenAs_of_recordRefusal {α : Type} {strict : Bool} {own : Refusal → Bool}
    {x : Except Fault (Option α)} {a : Option α} {problems : List String}
    (h : recordRefusal strict own x = .ok (a, problems)) :
    TakenAs strict x a ∧ (strict = true → problems = []) := by
  unfold recordRefusal at h
  split at h
  · obtain ⟨rfl, rfl⟩ := Prod.mk.inj (Except.ok.inj h)
    exact ⟨.inl rfl, fun _ => rfl⟩
  · rename_i e
    split at h
    · rename_i hown
      obtain ⟨rfl, rfl⟩ := Prod.mk.inj (Except.ok.inj h)
      have hstrict : strict = false := by
        simp only [Bool.and_eq_true, Bool.not_eq_true'] at hown
        exact hown.1
      exact ⟨.inr ⟨hstrict, rfl, e, rfl⟩, fun hs => absurd (hs.symm.trans hstrict) (by decide)⟩
    · cases h
  · cases h

namespace Definition

/-- Every value of a list is a record that says what stands at its place. -/
def Listed {α : Type} (describes : Entries → α → Prop) (vs : List Value) (as : List α) : Prop :=
  List.Forall₂ (fun v a => ∃ es, v = .record es ∧ describes es a) vs as

/-- What an entry says of the links of a field when some types are known: they go to the type with
the target code, if it has one. -/
structure DescribesLink (types : List DocumentType) (es : Entries) (o : LinkOptions) : Prop where
  target : (Entries.get es "target_code").isTruthy = true →
    ∃ t ∈ types, Entries.get es "target_code" = .text t.code ∧ o.target = some t.id
  untargeted : (Entries.get es "target_code").isTruthy = false → o.target = none
  relation : (Entries.get es "link_type").orElse (.text LinkType.reference.name) =
    .text o.linkType.name

/-- What an entry says of a field. The options of a link field are not its own entry. -/
structure DescribesField (strict : Bool) (types : List DocumentType) (es : Entries) (f : Field) :
    Prop where
  name : (Entries.get es "name").trimmed = .ok f.name
  label : (Entries.get es "label").trimmed = .ok f.label
  kind : (Entries.get es "type").orElse (.text FieldKind.text.name) = .text f.kind.name
  required : f.required = (Entries.get es "required").isTruthy
  options : f.kind ≠ .documentLink →
    TakenAs strict (Options.parse f.kind (Entries.get es "options") (some f.name)) f.options
  link : f.kind = .documentLink →
    (∃ o, f.options = some (.link o) ∧ DescribesLink types es o) ∨ strict = false ∧ f.options = none
  rules : TakenAs strict (Rules.parse (Entries.get es "validation_rules") (some f.name)) f.rules
  problems : strict = true → f.problems = []

/-- What an entry says of a group and of its fields. -/
structure DescribesGroup (strict : Bool) (types : List DocumentType) (es : Entries)
    (g : FieldGroup) : Prop where
  name : (Entries.get es "name").trimmed = .ok g.name
  label : (Entries.get es "label").trimmed = .ok g.label
  description : g.description = (Entries.get es "description").orNull
  repeatable : g.repeatable = (Entries.get es "repeatable").isTruthy
  single : g.repeatable = false → g.minRows = none ∧ g.maxRows = none
  rows : g.repeatable = true → Entries.get es "min_repeats" = .int? g.minRows ∧
    Entries.get es "max_repeats" = .int? g.maxRows
  fields : ∃ entries, members es "fields" = .ok entries ∧
    Listed (DescribesField strict types) entries g.fields

/-- What a definition says of its type. -/
structure DescribesType (raw : Entries) (t : DocumentType) : Prop where
  code : (Entries.get raw "code").trimmed = .ok t.code
  name : (Entries.get raw "name").trimmed = .ok t.name
  description : t.description = (Entries.get raw "description").orNull
  category : t.category = (Entries.get raw "category_id").orNull
  status : (Entries.get raw "status").orElse (.text TypeStatus.active.name) = .text t.status.name

/-- What a definition says of the members of its type: the form has these and no others, in the
order of the definition. -/
structure DescribesMembers (strict : Bool) (types : List DocumentType) (raw : Entries)
    (form : Form) : Prop where
  fields : ∃ entries, members raw "fields" = .ok entries ∧
    Listed (DescribesField strict types) entries form.fields
  groups : ∃ entries, members raw "groups" = .ok entries ∧
    Listed (DescribesGroup strict types) entries form.groups

/-! ### Types -/

theorem part_eq_ok {es : Entries} {name : String} {v : Value}
    (h : part (.record es) name = .ok v) : Entries.get es name = v := by
  simp only [part] at h
  split at h
  · rename_i w hw
    obtain rfl := Except.ok.inj h
    rw [Entries.get, hw]
    rfl
  · cases h

theorem status_of_ofValue? {v : Value} {status : TypeStatus}
    (h : TypeStatus.ofValue? v = some status) :
    v.orElse (.text TypeStatus.active.name) = .text status.name := by
  unfold TypeStatus.ofValue? at h
  split at h
  · rename_i s hs
    have hname : status.name = s := by simpa using List.find?_some h
    rw [hname]
    exact hs
  · cases h

theorem getD_orElse (es : Entries) (name : String) (v : Value) (hv : v.isTruthy = true) :
    ((Entries.get? es name).getD v).orElse v = (Entries.get es name).orElse v := by
  rw [Entries.get]
  cases Entries.get? es name with
  | some w => rfl
  | none =>
    rw [Option.getD_none, Option.getD_none, Value.orElse, if_pos hv]
    rfl

/-- A type that is built holds what its specification gives. -/
theorem buildType_gives {r : Registry} {id : String} {spec : Entries} {t : DocumentType}
    (h : r.buildType id spec = .ok t) :
    (Entries.get spec "code").trimmed = .ok t.code ∧
      (Entries.get spec "name").trimmed = .ok t.name ∧
      TypeStatus.ofValue? (Entries.get spec "status") = some t.status ∧
      t.description = (Entries.get spec "description").orNull ∧
      t.category = (Entries.get spec "categoryId").orNull := by
  unfold Registry.buildType at h
  simp only [↓check_eq_ok, bind_eq_ok] at h
  obtain ⟨name, hname, code, hcode, -, -, -, h⟩ := h
  split at h
  · exact absurd h refuse_ne_ok
  · rename_i status hstatus
    obtain rfl := pure_eq_ok.mp h
    exact ⟨hcode, hname, hstatus, rfl, rfl⟩

theorem typeSpec_describes {raw : Entries} {spec : Value} (h : typeSpec raw = .ok spec) :
    ∃ es, spec = .record es ∧ ∀ (r : Registry) (id : String) (t : DocumentType),
      r.buildType id es = .ok t → DescribesType raw t := by
  simp only [typeSpec, bind_eq_ok, pure_eq_ok] at h
  obtain ⟨code, hcode, name, hname, rfl⟩ := h
  obtain rfl := part_eq_ok hcode
  obtain rfl := part_eq_ok hname
  refine ⟨_, rfl, fun r id t ht => ?_⟩
  obtain ⟨hcode, hname, hstatus, hdescription, hcategory⟩ := buildType_gives ht
  simp only [Entries.get_ofNames] at hcode hname hstatus hdescription hcategory
  refine ⟨hcode, hname, hdescription, hcategory, ?_⟩
  rw [← status_of_ofValue? hstatus]
  exact (getD_orElse _ _ _ (by decide)).symm

/-! ### Groups -/

/-- A group that is built holds what its specification gives. -/
theorem buildGroup_gives {r : Registry} {typeId id : String} {spec : Entries} {g : Group}
    (h : r.buildGroup typeId id spec = .ok g) :
    (Entries.get spec "name").trimmed = .ok g.name ∧
      (Entries.get spec "label").trimmed = .ok g.label ∧
      g.description = (Entries.get spec "description").orNull ∧
      g.repeatable = (Entries.get spec "isRepeatable").isTruthy ∧
      Registry.rowBounds g.repeatable spec = .ok (g.minRows, g.maxRows) ∧
      ((Entries.get spec "order").isNull = true → g.order = (r.groupsOf typeId).length) := by
  unfold Registry.buildGroup at h
  simp only [↓check_eq_ok, bind_eq_ok] at h
  obtain ⟨name, hname, label, hlabel, -, -, -, -, ⟨low, high⟩, hrows, h⟩ := h
  split at h
  · simp only [bind_eq_ok, pure_eq_ok] at h
    obtain ⟨order, rfl, rfl⟩ := h
    exact ⟨hname, hlabel, rfl, rfl, hrows, fun _ => rfl⟩
  · rename_i hnull
    simp only [bind_eq_ok, pure_eq_ok] at h
    obtain ⟨order, -, rfl⟩ := h
    exact ⟨hname, hlabel, rfl, rfl, hrows, fun h => absurd h hnull⟩

theorem rowBound_gives {b : RowBound} {v : Value} {n : Option Int}
    (h : Registry.rowBound b v = .ok n) : v = .int? n := by
  unfold Registry.rowBound at h
  split at h
  · obtain rfl := Except.ok.inj h
    rfl
  · split at h
    · exact absurd h refuse_ne_ok
    · obtain rfl := Except.ok.inj h
      rfl
  · exact absurd h refuse_ne_ok

theorem rowBounds_gives {repeatable : Bool} {spec : Entries} {low high : Option Int}
    (h : Registry.rowBounds repeatable spec = .ok (low, high)) :
    (repeatable = false → low = none ∧ high = none) ∧
      (repeatable = true → Entries.get spec "minRepeats" = .int? low ∧
        Entries.get spec "maxRepeats" = .int? high) := by
  refine ⟨(Registry.rowBounds_ok h).1, ?_⟩
  rintro rfl
  simp only [Registry.rowBounds, Bool.not_true, Bool.false_eq_true, if_false, bind_eq_ok] at h
  obtain ⟨low', hlow, high', hhigh, h⟩ := h
  have hpair : (low', high') = (low, high) := by
    split at h
    · split at h
      · exact absurd h refuse_ne_ok
      · exact pure_eq_ok.mp h
    · exact pure_eq_ok.mp h
  obtain ⟨rfl, rfl⟩ := Prod.mk.inj hpair
  exact ⟨rowBound_gives hlow, rowBound_gives hhigh⟩

theorem getD_isTruthy (es : Entries) (name : String) :
    ((Entries.get? es name).getD (.bool false)).isTruthy = (Entries.get es name).isTruthy := by
  rw [Entries.get]
  cases Entries.get? es name <;> rfl

/-- Everything but its fields that an entry tells of a group comes from the entry. -/
theorem groupSpec_describes {group spec : Value} (h : groupSpec group = .ok spec) :
    ∃ es gs, group = .record es ∧ spec = .record gs ∧
      ∀ (r : Registry) (typeId id : String) (g : Group), r.buildGroup typeId id gs = .ok g →
        g.order = (r.groupsOf typeId).length ∧
          ∀ (strict : Bool) (types : List DocumentType) (entries : List Value)
            (fields : List Field), members es "fields" = .ok entries →
              Listed (DescribesField strict types) entries fields →
              DescribesGroup strict types es { toGroup := g, fields } := by
  simp only [groupSpec, bind_eq_ok, pure_eq_ok] at h
  obtain ⟨name, hname, label, hlabel, es, hes, rfl⟩ := h
  cases group with
  | record =>
    obtain rfl := Except.ok.inj hes
    obtain rfl := part_eq_ok hname
    obtain rfl := part_eq_ok hlabel
    refine ⟨_, _, rfl, rfl, fun r typeId id g hg => ?_⟩
    obtain ⟨hname, hlabel, hdescription, hrepeatable, hrows, horder⟩ := buildGroup_gives hg
    obtain ⟨hsingle, hboth⟩ := rowBounds_gives hrows
    simp only [Entries.get_ofNames] at hname hlabel hdescription hrepeatable hboth horder
    refine ⟨horder rfl, fun strict types entries fields hentries hfields => ?_⟩
    exact ⟨hname, hlabel, hdescription, hrepeatable.trans (getD_isTruthy _ _), hsingle, hboth,
      entries, hentries, hfields⟩
  | atom => cases hes
  | link => cases hes
  | list => cases hes

/-! ### Links -/

theorem linkOptions_eq_ok {r : Registry} {es : Entries} {options : Value}
    (h : linkOptions r es = .ok options) : ∃ target : List (String × Value),
    ((Entries.get es "target_code").isTruthy = true → ∃ t ∈ r.types,
      Entries.get es "target_code" = .text t.code ∧
        target = [("targetDocumentTypeId", .text t.id)]) ∧
    ((Entries.get es "target_code").isTruthy = false → target = []) ∧
    options = if (target ++ if (Entries.get es "link_type").isTruthy then
        [("linkType", Entries.get es "link_type")] else []).isEmpty then .null
      else .named (target ++ if (Entries.get es "link_type").isTruthy then
        [("linkType", Entries.get es "link_type")] else []) := by
  simp only [linkOptions, bind_eq_ok] at h
  obtain ⟨target, htarget, h⟩ := h
  refine ⟨target, fun hcode => ?_, fun hcode => ?_, (pure_eq_ok.mp h).symm⟩
  · rw [if_pos hcode] at htarget
    split at htarget
    · rename_i t hfound
      split at hfound
      · rename_i c hc
        refine ⟨t, List.mem_of_find?_eq_some hfound, ?_, (pure_eq_ok.mp htarget).symm⟩
        rw [hc, show t.code = c by simpa using List.find?_some hfound]
      · cases hfound
    · simp only [bind_eq_ok] at htarget
      obtain ⟨_, -, _, -, _, -, htarget⟩ := htarget
      exact absurd htarget refuse_ne_ok
  · rw [if_neg (by simp [hcode])] at htarget
    exact (pure_eq_ok.mp htarget).symm

theorem relation_of_meets {data : Entries} {v : Value} (h : linkOptionsShape.Meets (.record data))
    (hv : Entries.get? data "linkType" = some v) :
    v = .null ∨ ∃ t : LinkType, v = .text t.name := by
  have hrelation := h.property (.tail _ (.head _)) (.tail _ (.head _)) hv
  obtain ⟨w, hw, hlisted⟩ := Shape.met_oneOf.mp (hrelation _ (.head _))
  rcases List.mem_append.mp hw with hw | hw
  · obtain ⟨t, -, rfl⟩ := List.mem_map.mp hw
    exact .inr ⟨t, Shape.eq_of_listed hlisted⟩
  · obtain rfl := List.mem_singleton.mp hw
    exact .inl (Shape.eq_of_listed_null hlisted)

theorem ofValue_gives {field : Option String} {data : Entries} {o : LinkOptions}
    (h : LinkOptions.ofValue field (.record data) = .ok o) :
    (∀ s, Entries.get data "targetDocumentTypeId" = .text s → s ≠ "" → o.target = some s) ∧
      (Entries.get data "targetDocumentTypeId" = .null → o.target = none) ∧
      (Entries.get data "linkType").orElse (.text LinkType.reference.name) =
        .text o.linkType.name := by
  obtain ⟨violation, hshape, h⟩ := bind_eq_ok.mp h
  cases violation with
  | some v => exact absurd h refuse_ne_ok
  | none =>
    obtain rfl := Except.ok.inj h
    refine ⟨fun s hs hne => ?_, fun hnull => ?_, ?_⟩
    · simp [hs, hne]
    · simp [hnull]
    · have hmeets := Shape.report_eq_none.mp hshape
      cases hv : Entries.get? data "linkType" with
      | none => simp [Entries.get, hv, Value.orElse, Value.isTruthy]
      | some v =>
        rcases relation_of_meets hmeets hv with rfl | ⟨t, rfl⟩
        · simp [Entries.get, hv, Value.orElse, Value.isTruthy]
        · have hname : t.name ≠ "" := by cases t <;> decide
          simp [Entries.get, hv, Value.orElse, Value.isTruthy, LinkType.ofName?_name, hname]

theorem parse_link_record {field : Option String} {data : Entries} {x : Option Options}
    (h : Options.parse .documentLink (.record data) field = .ok x) :
    ∃ o, x = some (.link o) ∧ LinkOptions.ofValue field (.record data) = .ok o := by
  obtain ⟨v, hv, h⟩ := bind_eq_ok.mp h
  obtain rfl := Except.ok.inj hv
  obtain ⟨o, ho, h⟩ := bind_eq_ok.mp h
  exact ⟨o, (pure_eq_ok.mp h).symm, ho⟩

/-- The options of a link field lead to the type with the target code. -/
theorem linkOptions_describes {r : Registry} {es : Entries} {options : Value}
    (h : linkOptions r es = .ok options) (hids : ∀ t ∈ r.types, t.id ≠ "")
    {field : Option String} {x : Option Options}
    (hx : Options.parse .documentLink options field = .ok x) :
    ∃ o, x = some (.link o) ∧ DescribesLink r.types es o := by
  obtain ⟨target, htarget, hnone, rfl⟩ := linkOptions_eq_ok h
  have relation (v : Value) (hv : v.isTruthy = false) :
      v.orElse (.text LinkType.reference.name) = .text LinkType.reference.name :=
    if_neg (by simp [hv])
  cases hcode : (Entries.get es "target_code").isTruthy with
  | false =>
    obtain rfl := hnone hcode
    cases hrelation : (Entries.get es "link_type").isTruthy with
    | false =>
      rw [hrelation] at hx
      obtain rfl := Except.ok.inj hx
      exact ⟨{}, rfl, by simp [hcode], fun _ => rfl, relation _ hrelation⟩
    | true =>
      rw [hrelation] at hx
      obtain ⟨o, rfl, ho⟩ := parse_link_record hx
      obtain ⟨-, hnull, hname⟩ := ofValue_gives ho
      exact ⟨o, rfl, by simp [hcode], fun _ => hnull (Entries.get_ofNames ..),
        (congrArg (Value.orElse · _) (Entries.get_ofNames ..)).symm.trans hname⟩
  | true =>
    obtain ⟨t, ht, htext, rfl⟩ := htarget hcode
    have found {o : LinkOptions} {data : List (String × Value)}
        (ho : LinkOptions.ofValue field
          (.named (("targetDocumentTypeId", .text t.id) :: data)) = .ok o) :
        o.target = some t.id := (ofValue_gives ho).1 t.id (Entries.get_ofNames ..) (hids t ht)
    cases hrelation : (Entries.get es "link_type").isTruthy with
    | false =>
      rw [hrelation] at hx
      obtain ⟨o, rfl, ho⟩ := parse_link_record hx
      refine ⟨o, rfl, fun _ => ⟨t, ht, htext, found ho⟩, by simp [hcode], ?_⟩
      rw [relation _ hrelation, ← (ofValue_gives ho).2.2]
      rfl
    | true =>
      rw [hrelation] at hx
      obtain ⟨o, rfl, ho⟩ := parse_link_record hx
      refine ⟨o, rfl, fun _ => ⟨t, ht, htext, found ho⟩, by simp [hcode], ?_⟩
      rw [← (ofValue_gives ho).2.2]
      rfl

/-! ### Fields -/

/-- A field that is built holds what its specification gives. -/
theorem buildField_gives {r : Registry} {typeId id : String} {spec : Entries} {strict : Bool}
    {f : Field} (h : r.buildField typeId id spec strict = .ok f) :
    (Entries.get spec "name").trimmed = .ok f.name ∧
      (Entries.get spec "label").trimmed = .ok f.label ∧
      Registry.groupIdOf spec = .ok f.groupId ∧
      (Entries.get spec "type").orElse (.text FieldKind.text.name) = .text f.kind.name ∧
      Constraints.parse strict f.kind (Entries.get spec "options")
        (Entries.get spec "validationRules") (some f.name) =
          .ok ⟨f.options, f.rules, f.problems⟩ ∧
      f.required = (Entries.get spec "required").isTruthy ∧
      r.fieldOrder typeId id f.groupId (Entries.get spec "order") = .ok f.order := by
  unfold Registry.buildField at h
  simp only [↓check_eq_ok, bind_eq_ok, pure_eq_ok] at h
  obtain ⟨name, hname, label, hlabel, -, -, group, hgroup, ⟨⟩, -, ⟨⟩, -, kind, hkind, constraints,
    hparse, order, horder, rfl⟩ := h
  refine ⟨hname, hlabel, hgroup, ?_, hparse, rfl, horder⟩
  unfold FieldKind.ofValue at hkind
  split at hkind
  · rename_i s hs
    split at hkind
    · rename_i k hk
      obtain rfl := Except.ok.inj hkind
      rw [show k.name = s by simpa using List.find?_some hk]
      exact hs
    · exact absurd hkind refuse_ne_ok
  · exact absurd hkind refuse_ne_ok

theorem constraints_eq_ok {strict : Bool} {kind : FieldKind} {rawOptions rawRules : Value}
    {field : Option String} {c : Constraints}
    (h : Constraints.parse strict kind rawOptions rawRules field = .ok c) :
    TakenAs strict (Options.parse kind rawOptions field) c.options ∧
      TakenAs strict (Rules.parse rawRules field) c.rules ∧ (strict = true → c.problems = []) := by
  obtain ⟨⟨options, first⟩, hoptions, h⟩ := bind_eq_ok.mp h
  obtain ⟨⟨rules, second⟩, hrules, h⟩ := bind_eq_ok.mp h
  obtain rfl := pure_eq_ok.mp h
  obtain ⟨hoptions, hfirst⟩ := takenAs_of_recordRefusal hoptions
  obtain ⟨hrules, hsecond⟩ := takenAs_of_recordRefusal hrules
  refine ⟨hoptions, hrules, fun hstrict => ?_⟩
  show first ++ second = []
  rw [hfirst hstrict, hsecond hstrict, List.append_nil]

theorem groupIdOf_text? {spec : Entries} {group : Option String} (hg : group ≠ some "")
    (h : Entries.get spec "documentFieldGroupId" = .text? group) :
    Registry.groupIdOf spec = .ok group := by
  cases group with
  | none => simp [Registry.groupIdOf, h, Value.text?, Value.isTruthy]
  | some g =>
    have hne : g ≠ "" := fun he => hg (he ▸ rfl)
    simp [Registry.groupIdOf, h, Value.text?, Value.isTruthy, hne]
    rfl

theorem isLink_iff {kind : FieldKind} {v : Value}
    (h : v.orElse (.text FieldKind.text.name) = .text kind.name) :
    v = .text FieldKind.documentLink.name ↔ kind = .documentLink := by
  constructor
  · rintro rfl
    have hname : FieldKind.documentLink.name = kind.name := by
      simpa [Value.orElse, Value.isTruthy, FieldKind.name] using h
    cases kind <;> first | rfl | exact absurd hname (by decide)
  · rintro rfl
    rw [Value.orElse] at h
    split at h
    · exact h
    · exact absurd h (by decide)

theorem fieldSpec_eq_ok {r : Registry} {group : Option String} {field spec : Value}
    (h : fieldSpec r group field = .ok spec) : ∃ es options, field = .record es ∧
      (Entries.get es "type" = .text FieldKind.documentLink.name → linkOptions r es = .ok options) ∧
      (Entries.get es "type" ≠ .text FieldKind.documentLink.name →
        options = Entries.get es "options") ∧
      spec = .named [("name", Entries.get es "name"), ("label", Entries.get es "label"),
        ("type", Entries.get es "type"),
        ("required", (Entries.get? es "required").getD (.bool false)),
        ("documentFieldGroupId", .text? group), ("options", options),
        ("validationRules", Entries.get es "validation_rules")] := by
  simp only [fieldSpec, bind_eq_ok] at h
  obtain ⟨es, hes, kind, hkind, h⟩ := h
  cases field with
  | record =>
    obtain rfl := Except.ok.inj hes
    obtain rfl := part_eq_ok hkind
    split at h
    · rename_i hlink
      simp only [bind_eq_ok, pure_eq_ok] at h
      obtain ⟨options, hoptions, name, hname, label, hlabel, rfl⟩ := h
      obtain rfl := part_eq_ok hname
      obtain rfl := part_eq_ok hlabel
      exact ⟨_, options, rfl, fun _ => hoptions, fun hne => absurd hlink hne, rfl⟩
    · rename_i hplain
      simp only [bind_eq_ok, pure_eq_ok] at h
      obtain ⟨options, rfl, name, hname, label, hlabel, rfl⟩ := h
      obtain rfl := part_eq_ok hname
      obtain rfl := part_eq_ok hlabel
      exact ⟨_, _, rfl, fun hlink => absurd hlink hplain, fun _ => rfl, rfl⟩
  | atom => cases hes
  | link => cases hes
  | list => cases hes

/-- Everything that an entry tells of a field comes from the entry, where a target code stands for
the type that has it. -/
theorem fieldSpec_describes {r : Registry} {group : Option String} {field spec : Value}
    (hg : group ≠ some "") (hids : ∀ t ∈ r.types, t.id ≠ "")
    (h : fieldSpec r group field = .ok spec) :
    ∃ es fs, field = .record es ∧ spec = .record fs ∧
      ∀ (r' : Registry) (typeId id : String) (strict : Bool) (f : Field),
        r'.buildField typeId id fs strict = .ok f → DescribesField strict r.types es f ∧
          f.groupId = group ∧ r'.fieldOrder typeId id group .null = .ok f.order := by
  obtain ⟨es, options, rfl, hlinkOptions, hown, rfl⟩ := fieldSpec_eq_ok h
  refine ⟨es, _, rfl, rfl, fun r' typeId id strict f hf => ?_⟩
  obtain ⟨hname, hlabel, hgroup, hkind, hparse, hrequired, horder⟩ := buildField_gives hf
  rw [groupIdOf_text? hg (Entries.get_ofNames ..)] at hgroup
  obtain rfl := Except.ok.inj hgroup
  simp only [Entries.get_ofNames] at hname hlabel hkind hparse hrequired horder
  obtain ⟨hparsed, hrules, hproblems⟩ := constraints_eq_ok hparse
  refine ⟨⟨hname, hlabel, hkind, hrequired.trans (getD_isTruthy _ _), fun hne => ?_,
    fun hlink => ?_, hrules, hproblems⟩, rfl, horder⟩
  · obtain rfl := hown (mt (isLink_iff hkind).mp hne)
    exact hparsed
  · rw [hlink] at hparsed
    rcases hparsed with hparsed | ⟨hstrict, hnone, -⟩
    · exact .inl (linkOptions_describes (hlinkOptions ((isLink_iff hkind).mpr hlink)) hids hparsed)
    · exact .inr ⟨hstrict, hnone⟩

/-! ### The entries of a form -/

/-- A definition has an entry for a field, by itself or in a group. -/
inductive HasEntry (raw es : Entries) : Prop
  | alone {vs : List Value} (fields : members raw "fields" = .ok vs) (listed : .record es ∈ vs)
  | grouped {gs vs : List Value} {group : Entries} (groups : members raw "groups" = .ok gs)
      (listedGroup : .record group ∈ gs) (fields : members group "fields" = .ok vs)
      (listed : .record es ∈ vs)

theorem Listed.entry {α : Type} {describes : Entries → α → Prop} {vs : List Value} {as : List α}
    (h : Listed describes vs as) {a : α} (ha : a ∈ as) :
    ∃ es, .record es ∈ vs ∧ describes es a := by
  induction h with
  | nil => cases ha
  | cons hfirst hrest ih =>
    obtain ⟨es, rfl, hdescribes⟩ := hfirst
    rcases List.mem_cons.mp ha with rfl | ha
    · exact ⟨es, List.mem_cons_self .., hdescribes⟩
    · obtain ⟨es', hmem, hdescribes⟩ := ih ha
      exact ⟨es', List.mem_cons_of_mem _ hmem, hdescribes⟩

/-- Every field of the form that a definition describes has an entry there. -/
theorem DescribesMembers.entry {raw : Entries} {form : Form}
    {strict : Bool} {types : List DocumentType}
    (h : DescribesMembers strict types raw form) {f : Field} (hf : f ∈ form.allFields.map (·.2)) :
    ∃ es, HasEntry raw es ∧ DescribesField strict types es f := by
  obtain ⟨p, hp, rfl⟩ := List.mem_map.mp hf
  rcases List.mem_append.mp hp with hp | hp
  · obtain ⟨f, hfield, rfl⟩ := List.mem_map.mp hp
    obtain ⟨vs, hvs, hlisted⟩ := h.fields
    obtain ⟨es, hes, hdescribes⟩ := hlisted.entry hfield
    exact ⟨es, .alone hvs hes, hdescribes⟩
  · obtain ⟨g, hg, hp⟩ := List.mem_flatMap.mp hp
    obtain ⟨f, hfield, rfl⟩ := List.mem_map.mp hp
    obtain ⟨gs, hgs, hlisted⟩ := h.groups
    obtain ⟨group, hgroup, hdescribed⟩ := hlisted.entry hg
    obtain ⟨vs, hvs, hlisted⟩ := hdescribed.fields
    obtain ⟨es, hes, hdescribes⟩ := hlisted.entry hfield
    exact ⟨es, .grouped hgs hgroup hvs hes, hdescribes⟩

end Definition
end DocForms
