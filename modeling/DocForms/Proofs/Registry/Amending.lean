import DocForms.Proofs.Definition.Descriptions
import DocForms.Proofs.Registry.Isolation
import DocForms.Proofs.Schema.Rereading
import DocForms.Proofs.Validation.Locality
import DocForms.Proofs.Value.Entries

/-! What operations leave of the constraints of a field. Only an update of the field itself builds
it again, and then its payloads are parsed again: rules stay what they were, options that are not
settled change, and whatever was recorded of a payload that could not be parsed is forgotten. -/
namespace DocForms

/-- Changes that name neither the kind of a field nor one of its payloads. -/
def Entries.SpareConstraints (es : Entries) : Prop :=
  es.has "type" = false ∧ es.has "options" = false ∧ es.has "validationRules" = false

/-- What has been parsed of the payloads of a field, and what has been recorded of them. -/
def Field.constraints (f : Field) : Constraints := ⟨f.options, f.rules, f.problems⟩

namespace Registry
variable {r r' : Registry} {id : String} {f g : Field} {changes : Value} {es : Entries}

/-! ### Updates of the field -/

/-- The kind and the payloads that are written for a field. -/
theorem toValue_entries (f : Field) : ∃ fs, f.toValue = .record fs ∧
    Entries.get fs "type" = .text f.kind.name ∧
    Entries.get fs "options" = Options.payload? f.options ∧
    Entries.get fs "validationRules" = Rules.payload? f.rules := by
  refine ⟨_, rfl, ?_, ?_, ?_⟩
  all_goals
    rw [Entries.get_ofNames]
    rfl

/-- An updated field takes the place of the one that it was. -/
theorem updateField_eq_ok (hf : r.field? id = some f) (hes : changes.changes = .ok es)
    (h : r.updateField id changes = .ok (r', g)) :
    r' = { r with fields := upsert Field.id g r.fields } ∧
      ∀ fs, f.toValue = .record fs →
        r.buildField f.typeId id (Entries.merge fs es) true = .ok g := by
  unfold updateField at h
  obtain ⟨current, hcurrent, h⟩ := bind_eq_ok.mp h
  obtain rfl := Option.some.inj ((field?_of_require hcurrent).symm.trans hf)
  obtain ⟨fs, hfs, h⟩ := bind_eq_ok.mp h
  obtain ⟨es', hes', h⟩ := bind_eq_ok.mp h
  obtain rfl := Except.ok.inj (hes'.symm.trans hes)
  obtain ⟨built, hbuilt, h⟩ := bind_eq_ok.mp h
  obtain ⟨rfl, rfl⟩ := Prod.mk.inj (pure_eq_ok.mp h)
  refine ⟨rfl, fun fs' hfs' => ?_⟩
  rw [hfs'] at hfs
  obtain rfl := Except.ok.inj hfs
  exact hbuilt

theorem kind_of_name {k l : FieldKind}
    (h : (Value.text k.name).orElse (.text FieldKind.text.name) = .text l.name) : l = k := by
  have hname : (Value.text k.name).orElse (.text FieldKind.text.name) = .text k.name := by
    cases k <;> rfl
  rw [hname] at h
  have hfound := FieldKind.ofName?_name l
  rw [← Atom.text.inj (Value.atom.inj h), FieldKind.ofName?_name] at hfound
  exact (Option.some.inj hfound).symm

/-- The payloads of the field are parsed again, under the same kind, and nothing is recorded. -/
theorem update_parses (hf : r.field? id = some f) (hes : changes.changes = .ok es)
    (hspare : es.SpareConstraints) (h : r.updateField id changes = .ok (r', g)) :
    g.kind = f.kind ∧ g.problems = [] ∧
      Options.parse f.kind (Options.payload? f.options) (some g.name) = .ok g.options ∧
      Rules.parse (Rules.payload? f.rules) (some g.name) = .ok g.rules := by
  obtain ⟨fs, hfs, htype, hoptions, hrules⟩ := toValue_entries f
  obtain ⟨-, -, -, hkind, hparse, -, -⟩ :=
    Definition.buildField_gives ((updateField_eq_ok hf hes h).2 fs hfs)
  obtain ⟨hsameType, hsameOptions, hsameRules⟩ := hspare
  rw [Entries.get_merge hsameType, htype] at hkind
  rw [Entries.get_merge hsameOptions, Entries.get_merge hsameRules, hoptions, hrules,
    kind_of_name hkind] at hparse
  obtain ⟨hreadOptions, hreadRules, hproblems⟩ := Definition.constraints_eq_ok hparse
  have taken {α : Type} {x : Except Fault (Option α)} {a : Option α}
      (ht : TakenAs true x a) : x = .ok a := by
    rcases ht with hx | ⟨hlenient, -⟩
    · exact hx
    · cases hlenient
  exact ⟨kind_of_name hkind, hproblems rfl, taken hreadOptions, taken hreadRules⟩

theorem eq_ok_of_recordRefusal {α : Type} {strict : Bool} {own : Refusal → Bool}
    {x : Except Fault (Option α)} {a : Option α} {problems : List String}
    (h : recordRefusal strict own x = .ok (a, problems)) (ha : a ≠ none ∨ problems = []) :
    x = .ok a := by
  unfold recordRefusal at h
  split at h
  · obtain ⟨rfl, -⟩ := Prod.mk.inj (Except.ok.inj h)
    rfl
  · split at h
    · obtain ⟨rfl, rfl⟩ := Prod.mk.inj (Except.ok.inj h)
      simp at ha
    · cases h
  · cases h

/-- Constraints that are there have been parsed from some payload, and so has their absence when
nothing has been recorded. -/
theorem parsed_from (h : f.Parsed) :
    (f.options ≠ none ∨ f.problems = [] →
      ∃ raw, Options.parse f.kind raw (some f.name) = .ok f.options) ∧
    (f.rules ≠ none ∨ f.problems = [] →
      ∃ raw, Rules.parse raw (some f.name) = .ok f.rules) := by
  obtain ⟨strict, rawOptions, rawRules, h⟩ := h
  obtain ⟨⟨options, first⟩, hoptions, h⟩ := bind_eq_ok.mp h
  obtain ⟨⟨rules, second⟩, hrules, h⟩ := bind_eq_ok.mp h
  have hc := pure_eq_ok.mp h
  obtain rfl : options = f.options := congrArg Constraints.options hc
  obtain rfl : rules = f.rules := congrArg Constraints.rules hc
  have hproblems : f.problems = first ++ second := (congrArg Constraints.problems hc).symm
  rw [hproblems, List.append_eq_nil_iff]
  exact ⟨fun hf => ⟨rawOptions, eq_ok_of_recordRefusal hoptions (hf.imp_right And.left)⟩,
    fun hf => ⟨rawRules, eq_ok_of_recordRefusal hrules (hf.imp_right And.right)⟩⟩

/-- A missing payload of options is read as no options, unless the kind is that of links. -/
theorem parse_null_iff {kind : FieldKind} {field : Option String} {o : Option Options}
    (h : Options.parse kind .null field = .ok o) : o = none ↔ kind ≠ .documentLink := by
  obtain ⟨data, hdecode, hgiven⟩ := Options.parse_eq_ok.mp h
  obtain rfl := Except.ok.inj hdecode
  cases hgiven with
  | unrestricted => exact iff_of_false nofun (not_not_intro rfl)
  | link hnull => exact absurd rfl hnull
  | none hkind => exact iff_of_true rfl hkind
  | payload _ _ hnull => exact absurd rfl hnull

/-- Options are kept just if they are settled. A link field that has lost its options gets new
ones. -/
theorem update_options_iff (hp : f.Parsed) {field : Option String} {o : Option Options}
    (h : Options.parse f.kind (Options.payload? f.options) field = .ok o) :
    o = f.options ↔ (f.options = none → f.kind ≠ .documentLink) ∧
      ∀ options, f.options = some options → options.Settled := by
  cases hf : f.options with
  | none =>
    rw [hf] at h
    rw [parse_null_iff h]
    simp
  | some options =>
    obtain ⟨raw, hraw⟩ := (parsed_from hp).1 (.inl (by simp [hf]))
    rw [hf] at h hraw
    have hread := Options.reread_iff hraw field
    constructor
    · rintro rfl
      refine ⟨nofun, fun options' he => ?_⟩
      obtain rfl := Option.some.inj he
      exact hread.mp h
    · rintro ⟨-, hsettled⟩
      exact Except.ok.inj (h.symm.trans (hread.mpr (hsettled options rfl)))

theorem update_rules (hp : f.Parsed) {field : Option String} {rs : Option Rules}
    (h : Rules.parse (Rules.payload? f.rules) field = .ok rs) : rs = f.rules := by
  cases hf : f.rules with
  | none =>
    rw [hf] at h
    exact (Except.ok.inj h).symm
  | some rules =>
    obtain ⟨raw, hraw⟩ := (parsed_from hp).2 (.inl (by simp [hf]))
    rw [hf] at h hraw
    exact Except.ok.inj (h.symm.trans ((Rules.accepted_of_parsed hraw).parse_toValue field))

theorem find?_upsert {α : Type} (key : α → String) (a : α) (as : List α) :
    (upsert key a as).find? (key · == key a) = some a := by
  induction as with
  | nil => simp [upsert]
  | cons b as ih =>
    unfold upsert
    split
    · simp
    · rename_i hb
      rw [List.find?_cons, Bool.eq_false_iff.mpr hb]
      exact ih

/-- An update that names neither the kind nor a payload keeps the kind and the rules. It forgets
what has been recorded of the payloads, and it keeps options just if they are settled. So all
constraints stay just if nothing has been recorded and the options are settled. -/
theorem amended_constraints (hr : r.Reachable) (hf : r.field? id = some f)
    (hes : changes.changes = .ok es) (hspare : es.SpareConstraints)
    (h : r.updateField id changes = .ok (r', g)) :
    r'.field? id = some g ∧ g.kind = f.kind ∧ g.rules = f.rules ∧ g.problems = [] ∧
      (g.options = f.options ↔ (f.options = none → f.kind ≠ .documentLink) ∧
        ∀ o, f.options = some o → o.Settled) ∧
      (g.constraints = f.constraints ↔
        f.problems = [] ∧ ∀ o, f.options = some o → o.Settled) := by
  have hp := hr.parsed f (List.mem_of_find?_eq_some hf)
  obtain ⟨hkind, hproblems, hoptions, hrules⟩ := update_parses hf hes hspare h
  have hkept := update_options_iff hp hoptions
  have hsame := update_rules hp hrules
  obtain ⟨rfl, hbuild⟩ := updateField_eq_ok hf hes h
  obtain ⟨fs, hfs, -⟩ := toValue_entries f
  obtain ⟨rfl, -⟩ := buildField_owner (hbuild fs hfs)
  refine ⟨find?_upsert Field.id g r.fields, hkind, hsame, hproblems, hkept, ?_⟩
  constructor
  · intro hc
    have hoptions : g.options = f.options := congrArg Constraints.options hc
    have hrecorded : g.problems = f.problems := congrArg Constraints.problems hc
    exact ⟨hrecorded.symm.trans hproblems, (hkept.mp hoptions).2⟩
  · rintro ⟨hsound, hsettled⟩
    have hlink : f.options = none → f.kind ≠ .documentLink := by
      intro hnone hkind
      obtain ⟨raw, hraw⟩ := (parsed_from hp).1 (.inr hsound)
      rw [hnone, hkind] at hraw
      obtain ⟨data, -, hgiven⟩ := Options.parse_eq_ok.mp hraw
      cases hgiven with
      | none hne => exact hne rfl
    unfold Field.constraints
    rw [hkept.mpr ⟨hlink, hsettled⟩, hsame, hproblems, hsound]

/-! ### Other operations -/

/-- The identifier of the field that an operation builds, if it builds one. The first identifier
that it may ask for is given. -/
def builtField? (newId : String) : Operation → Option String
  | .defineField .. => some newId
  | .updateField id _ => some id
  | _ => none

theorem mem_of_mem_upsert {α : Type} {key : α → String} {a b : α} {as : List α}
    (h : b ∈ upsert key a as) : b = a ∨ b ∈ as := by
  induction as with
  | nil => exact .inl (List.mem_singleton.mp h)
  | cons c as ih =>
    unfold upsert at h
    split at h
    · exact (List.mem_cons.mp h).imp_right (List.mem_cons_of_mem _)
    · rcases List.mem_cons.mp h with rfl | h
      · exact .inr (List.mem_cons_self ..)
      · exact (ih h).imp_right (List.mem_cons_of_mem _)

theorem storeTemplate_fields {typeId : String} {t : Template} {out : Registry × Template}
    (h : r.storeTemplate typeId t = .ok out) : out.1.fields = r.fields := by
  simp only [storeTemplate, bind_eq_ok, pure_eq_ok] at h
  obtain ⟨form, -, -, -, rfl⟩ := h
  rfl

/-- A field after an operation is the one that the operation has built, or it has its kind and its
constraints from before. -/
theorem field_of_perform {s : Ids} {op : Operation}
    (h : ((r.perform op).run.run s).1 = .ok r') (hg : g ∈ r'.fields) :
    builtField? s.take.1 op = some g.id ∨
      ∃ f ∈ r.fields, f.id = g.id ∧ g.kind = f.kind ∧ g.constraints = f.constraints := by
  have same {fs : List Field} (hfs : fs = r.fields) (hg : g ∈ fs) :
      ∃ f ∈ r.fields, f.id = g.id ∧ g.kind = f.kind ∧ g.constraints = f.constraints :=
    ⟨g, hfs ▸ hg, rfl, rfl, rfl⟩
  cases op <;> simp only [perform, map_result, plain_result] at h
  case deleteType =>
    simp only [deleteType, bind_eq_ok, pure_eq_ok] at h
    obtain ⟨-, -, rfl⟩ := h
    exact .inr ⟨g, (List.mem_filter.mp hg).1, rfl, rfl, rfl⟩
  case deleteField =>
    simp only [deleteField, bind_eq_ok, pure_eq_ok] at h
    obtain ⟨-, -, rfl⟩ := h
    exact .inr ⟨g, (List.mem_filter.mp hg).1, rfl, rfl, rfl⟩
  case deleteGroup =>
    simp only [deleteGroup, bind_eq_ok, pure_eq_ok] at h
    obtain ⟨-, -, rfl⟩ := h
    exact .inr ⟨g, (List.mem_filter.mp hg).1, rfl, rfl, rfl⟩
  all_goals
    obtain ⟨out, hout, rfl⟩ := map_eq_ok.mp h
  case defineType =>
    have hout := addType_of_define hout
    simp only [addType, bind_eq_ok, pure_eq_ok] at hout
    obtain ⟨_, -, t, -, rfl⟩ := hout
    exact .inr (same rfl hg)
  case updateType =>
    simp only [updateType, bind_eq_ok, pure_eq_ok] at hout
    obtain ⟨_, -, _, -, t, -, rfl⟩ := hout
    exact .inr (same rfl hg)
  case defineField =>
    have hout := addField_of_define hout
    simp only [addField, bind_eq_ok, pure_eq_ok] at hout
    obtain ⟨_, -, _, -, f, hf, rfl⟩ := hout
    rcases mem_of_mem_upsert hg with rfl | hg
    · exact .inl (congrArg some (buildField_owner hf).1.symm)
    · exact .inr (same rfl hg)
  case updateField =>
    simp only [updateField, bind_eq_ok, pure_eq_ok] at hout
    obtain ⟨_, -, _, -, _, -, f, hf, rfl⟩ := hout
    rcases mem_of_mem_upsert hg with rfl | hg
    · exact .inl (congrArg some (buildField_owner hf).1.symm)
    · exact .inr (same rfl hg)
  case reorderFields =>
    simp only [reorderFields, bind_eq_ok, pure_eq_ok] at hout
    obtain ⟨_, -, _, -, names, -, rfl⟩ := hout
    obtain ⟨f, hf, rfl⟩ := List.mem_map.mp hg
    refine .inr ⟨f, hf, ?_⟩
    split <;> exact ⟨rfl, rfl, rfl⟩
  case defineGroup =>
    have hout := addGroup_of_define hout
    simp only [addGroup, bind_eq_ok, pure_eq_ok] at hout
    obtain ⟨_, -, _, -, g', -, rfl⟩ := hout
    exact .inr (same rfl hg)
  case updateGroup =>
    simp only [updateGroup, bind_eq_ok, pure_eq_ok] at hout
    obtain ⟨_, -, _, -, _, -, g', -, rfl⟩ := hout
    exact .inr (same rfl hg)
  case reorderGroups =>
    simp only [reorderGroups, bind_eq_ok, pure_eq_ok] at hout
    obtain ⟨_, -, names, -, _, -, rfl⟩ := hout
    exact .inr (same rfl hg)
  case saveTemplate =>
    simp only [saveTemplate, bind_eq_ok] at hout
    obtain ⟨t, -, hout⟩ := hout
    exact .inr (same (storeTemplate_fields hout) hg)
  case storeTemplate => exact .inr (same (storeTemplate_fields hout) hg)
  case createStarterTemplate =>
    simp only [createStarterTemplate, ↓check_eq_ok, bind_eq_ok] at hout
    obtain ⟨form, -, -, hout⟩ := hout
    exact .inr (same (storeTemplate_fields hout) hg)
  case duplicateTemplate =>
    simp only [duplicateTemplate, ↓check_eq_ok, bind_eq_ok] at hout
    obtain ⟨t, -, -, hout⟩ := hout
    exact .inr (same (storeTemplate_fields hout) hg)

/-- A field that stays, and that an operation does not update, keeps its kind and its
constraints. -/
theorem constraints_after {s : Ids} {op : Operation} (hr : r.Reachable)
    (fresh : r.Fresh s.take.1 op) (hop : ∀ changes, op ≠ .updateField id changes)
    (hf : r.field? id = some f) (hg : (r.after s op).field? id = some g) :
    g.kind = f.kind ∧ g.constraints = f.constraints := by
  unfold after at hg
  split at hg
  · rename_i r' hr'
    have hid : g.id = id := by simpa using List.find?_some hg
    rcases field_of_perform hr' (List.mem_of_find?_eq_some hg) with hbuilt | ⟨f', hf', hsame, h⟩
    · rw [hid] at hbuilt
      cases op with
      | defineField =>
        -- a new identifier is not that of a field that exists
        rw [Option.some.inj hbuilt] at fresh
        cases fresh.symm.trans hf
      | updateField _ changes =>
        rw [Option.some.inj hbuilt] at hop
        exact absurd rfl (hop changes)
      | _ => cases hbuilt
    · rw [← field_of_id hr.consistent.identified hf hf' (hsame.trans hid)]
      exact h
  · obtain rfl := Option.some.inj (hf.symm.trans hg)
    exact ⟨rfl, rfl⟩

/-- The registries that operations lead to while a field stays and none of them updates it. -/
inductive Unamended (id : String) (r : Registry) : Registry → Prop
  | refl : Unamended id r r
  | step {m : Registry} (h : Unamended id r m) (s : Ids) (op : Operation)
      (fresh : m.Fresh s.take.1 op) (hop : ∀ changes, op ≠ .updateField id changes)
      (stays : ((m.after s op).field? id).isSome = true) : Unamended id r (m.after s op)

/-- However long it stays, a field that is not updated keeps its kind and its constraints. -/
theorem Unamended.constraints (h : Unamended id r r') (hr : r.Reachable)
    (hf : r.field? id = some f) : r'.Reachable ∧
      ∃ g, r'.field? id = some g ∧ g.kind = f.kind ∧ g.constraints = f.constraints := by
  induction h with
  | refl => exact ⟨hr, f, hf, rfl, rfl⟩
  | step _ s op fresh hop stays ih =>
    obtain ⟨hm, g, hg, hkind, hc⟩ := ih
    obtain ⟨g', hg'⟩ := Option.isSome_iff_exists.mp stays
    obtain ⟨hkind', hc'⟩ := constraints_after hm fresh hop hg hg'
    exact ⟨hm.step s op fresh, g', hg', hkind'.trans hkind, hc'.trans hc⟩

open Validation in
/-- What has been recorded of the payloads of a field is reported wherever the field is validated,
as long as the field is not updated. An update forgets it, even one that names neither the kind nor
a payload: it keeps the rules, and it keeps options just if they are settled. So all constraints
stay just if nothing has been recorded and the options are settled. -/
theorem recorded_until_updated {m : Registry} (hr : r.Reachable) (hf : r.field? id = some f)
    (hrun : Unamended id r m) :
    (∀ typeId form s links errors g v a, m.getForm typeId = .ok form →
      problems .standard form s links = .ok errors → Checked form s (.field g v a) → g.id = id →
        f.problems ≠ [] → a.key ∈ Keyed.names errors) ∧
    ∀ changes es r' g, changes.changes = .ok es → es.SpareConstraints →
      m.updateField id changes = .ok (r', g) →
        r'.field? id = some g ∧ g.kind = f.kind ∧ g.rules = f.rules ∧ g.problems = [] ∧
          (g.options = f.options ↔ (f.options = none → f.kind ≠ .documentLink) ∧
            ∀ o, f.options = some o → o.Settled) ∧
          (g.constraints = f.constraints ↔
            f.problems = [] ∧ ∀ o, f.options = some o → o.Settled) := by
  obtain ⟨hm, f', hf', hkind, hc⟩ := hrun.constraints hr hf
  have hoptions : f'.options = f.options := congrArg Constraints.options hc
  have hrules : f'.rules = f.rules := congrArg Constraints.rules hc
  have hproblems : f'.problems = f.problems := congrArg Constraints.problems hc
  constructor
  · intro typeId form s links errors g v a hform hs hchecked hid hrecorded
    have hg : g ∈ m.fields := getForm_places hform hchecked.places
    obtain rfl := field_of_id hm.consistent.identified hf' hg hid
    exact (mem_keys hs).mpr ⟨_, hchecked, .inl (hproblems ▸ hrecorded), rfl⟩
  · intro changes es r' g hes hspare h
    have hamended := amended_constraints hm hf' hes hspare h
    rw [hkind, hoptions, hrules, hproblems, hc] at hamended
    exact hamended

/-- The count of the broken tallies. -/
def brokenCount : Field :=
  { id := "c", typeId := "t", name := "lines_count", label := "Count", kind := .select
    problems := ["Options for field 'lines_count' is not valid JSON: " ++
      "Expecting property name enclosed in double quotes"] }

/-- The broken tallies with another label for the count. -/
def relabelledTallies : Registry :=
  { Validation.brokenTallies with
    fields := upsert Field.id { brokenCount with label := "Number", problems := [] }
      Validation.brokenTallies.fields }

open Validation in
/-- Another label makes the broken count a sound one, and what was an error is accepted. -/
theorem relabelled_brokenCount :
    let s : Snapshot := ⟨.named [("lines_count", .text "3")],
      .named [("lines", .list [.named []])]⟩
    let changes : Entries := [(.text "label", .text "Number")]
    let relabelled := { brokenCount with label := "Number", problems := [] }
    brokenTallies.Reachable ∧ brokenTallies.field? "c" = some brokenCount ∧
      changes.SpareConstraints ∧
      brokenTallies.updateField "c" (.record changes) = .ok (relabelledTallies, relabelled) ∧
      relabelledTallies.field? "c" = some relabelled ∧
      relabelled.problems ≠ brokenCount.problems ∧
      (brokenTallies.getForm "t" >>= fun form => problems .standard form s []) =
        .ok [("lines_count", "Configuration error: Options for field 'lines_count' is not valid " ++
          "JSON: Expecting property name enclosed in double quotes"),
          ("lines[0].amount", "Amount is required")] ∧
      (relabelledTallies.getForm "t" >>= fun form => problems .standard form s []) =
        .ok [("lines[0].amount", "Amount is required")] := by
  refine ⟨brokenTallies_reachable, ?_, ⟨rfl, rfl, rfl⟩, ?_, ?_, ?_, ?_, ?_⟩
  all_goals decide +kernel

open Validation in
/-- A broken count is reported until its label is changed, which forgets why it was broken. -/
theorem brokenCount_until_updated :
    (∀ s links errors g v a, problems .standard brokenTallyForm s links = .ok errors →
      Checked brokenTallyForm s (.field g v a) → g.id = "c" → a.key ∈ Keyed.names errors) ∧
    ∃ r' g, brokenTallies.updateField "c" (.named [("label", .text "Number")]) = .ok (r', g) ∧
      g.kind = .select ∧ g.rules = none ∧ g.problems = [] ∧ g.options = none := by
  have hcount : brokenTallies.field? "c" = some brokenCount := by decide +kernel
  have hupdate : brokenTallies.updateField "c" (.named [("label", .text "Number")]) =
      .ok (relabelledTallies, { brokenCount with label := "Number", problems := [] }) := by
    decide +kernel
  obtain ⟨hreported, hupdated⟩ := recorded_until_updated brokenTallies_reachable hcount .refl
  obtain ⟨-, hkind, hrules, hproblems, hoptions, -⟩ :=
    hupdated _ _ _ _ rfl ⟨rfl, rfl, rfl⟩ hupdate
  refine ⟨fun s links errors g v a hs hchecked hid => ?_, _, _, hupdate, hkind, hrules, hproblems, ?_⟩
  · exact hreported "t" _ s links errors g v a brokenTallies_form hs hchecked hid (by decide)
  · exact hoptions.mpr ⟨fun _ => by decide, nofun⟩

end Registry
end DocForms
