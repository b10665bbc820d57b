import DocForms.Proofs.Service.Lookups

/-! Which refusals are answered with 404. What the path and the arguments of a request name is looked
up for every action, and its absence is answered with 404 unless the action finds fault with the body
before it looks. When all of that exists, a 404 tells of a template that is not there, or of the type
that the body of a document to be validated names; whatever else a body names is answered with 400. -/
namespace DocForms

namespace Service
variable {shelf : Shelf} {q : Request} {w : Workspace} {r : Registry} {t id : String}

/-! ### What requests name -/

/-- Everything exists that the path of an action and the arguments of its request name. -/
def Action.Found (r : Registry) (target : Target) : Action → Prop
  | .listTypes | .createType | .validate => True
  | .readForm t | .updateType t | .deleteType t | .createField t | .orderFields t | .listGroups t
  | .createGroup t | .orderGroups t | .bind t | .readTemplate t | .saveTemplate t
  | .createStarterTemplate t | .duplicateTemplate t => r.HasType t
  | .listFields t => r.HasType t ∧ ∀ g, target.argument? "groupId" = some g → r.HasGroup g t
  | .updateField t f | .deleteField t f => r.HasType t ∧ r.HasField f t
  | .readGroup t g | .updateGroup t g | .deleteGroup t g => r.HasType t ∧ r.HasGroup g t

/-- The body is at fault in a way that an action looks for before anything else. -/
def Action.Misworded (q : Request) : Action → Prop
  | .updateType _ | .createField _ | .orderFields _ | .createGroup _ | .orderGroups _ | .bind _ =>
    ∀ es, q.record ≠ .ok es
  | .saveTemplate _ => ∀ es, q.record = .ok es → ∀ template, Template.ofValue (.record es) ≠ .ok template
  | .duplicateTemplate _ => ∀ es, q.record = .ok es →
    (Entries.get es "targetDocumentTypeId").isTruthy = false
  | _ => False

/-- The type of an action has no template, and the action comes to ask for it. -/
def Action.LacksTemplate (r : Registry) (q : Request) : Action → Prop
  | .readTemplate t => r.templates.lookup t = none
  | .duplicateTemplate t => r.templates.lookup t = none ∧ ∃ es, q.record = .ok es ∧
    (Entries.get es "targetDocumentTypeId").isTruthy = true
  | .bind t => r.templates.lookup t = none ∧ ∃ es form store, q.record = .ok es ∧
    r.getForm t = .ok form ∧ storeOf form (Entries.get es "values") = .ok store ∧
    Entries.get es "template" = .null
  | _ => False

/-- The body of a document that is to be validated names a type that does not exist. -/
def Action.LacksNamedType (r : Registry) (q : Request) : Action → Prop
  | .validate => ∃ es id, q.record = .ok es ∧
    (Entries.get es "documentTypeId").isTruthy = true ∧
    (Entries.get es "documentTypeId").idText = .ok id ∧ ¬ r.HasType id
  | _ => False

/-! ### Actions whose request names what does not exist -/

section Missing
variable {p : Prop}

/-- A body that is no record is not at fault for anything that does not exist. -/
theorem blames_record (hp : (∀ es, q.record ≠ .ok es) → ¬ p) : Blames p q.record := by
  intro e he
  have hno (es : Entries) : q.record ≠ .ok es := fun hes => nomatch he.symm.trans hes
  exact blames_of_present (record_present q) (hp hno) e he

/-- A change of a type that does not exist, made with a body that is a record. -/
theorem missing_after_record {α : Type} {g : Entries → Registry → Except Fault (Registry × α)}
    {f : Entries → α → Building Result} {k : Entries → DocumentType → Except Fault (Registry × α)}
    (h : ¬ w.registry.HasType t) (hg : ∀ es, g es w.registry = (w.registry.requireType t >>= k es)) :
    Blames (¬ ∀ es, q.record ≠ .ok es) ((do
      let body ← Building.plain q.record
      f body (← Building.change (g body)) : Building Result).run.run w).1 := by
  refine blames_plain (blames_record not_not_intro) fun es hes => ?_
  refine blames_change ?_ fun r a hok => ?_
  · rw [hg]
    exact blames_of_absent (absent_of_type h) fun hno => hno es hes
  · rw [hg] at hok
    exact absurd (type_of_bind_ok hok) h

/-- The same for what asks for an identifier. -/
theorem missing_mint_after_record {α : Type} {g : Entries → Registry → Minting (Registry × α)}
    {f : Entries → α → Building Result} {k : Entries → DocumentType → Except Fault (Registry × α)}
    (h : ¬ w.registry.HasType t)
    (hg : ∀ es, ((g es w.registry).run.run w.ids).1 = (w.registry.requireType t >>= k es)) :
    Blames (¬ ∀ es, q.record ≠ .ok es) ((do
      let body ← Building.plain q.record
      f body (← Building.mint (g body)) : Building Result).run.run w).1 := by
  refine blames_plain (blames_record not_not_intro) fun es hes => ?_
  rw [Building.run_bind, Building.run_mint]
  rcases hrun : (g es w.registry).run.run w.ids with ⟨e | out, ids⟩
  · have hres := (congrArg Prod.fst hrun).symm.trans (hg es)
    refine blames_of_absent (fun d hd => ?_) fun hno => hno es hes
    exact absent_of_type h d (hres.symm.trans (congrArg Except.error (Except.error.inj hd)))
  · exact absurd (type_of_bind_ok ((hg es).symm.trans (congrArg Prod.fst hrun))) h

/-- An action whose request names something that does not exist is refused on account of that, unless
the body is at fault first. -/
theorem perform_missing (hi : w.registry.Identified) {a : Action}
    (h : ¬ a.Found w.registry q.target) :
    Blames (¬ a.Misworded q) ((perform shelf q a).run.run w).1 := by
  cases a with
  | listTypes | createType | validate => exact absurd trivial h
  | readForm t => exact blames_of_absent ((absent_of_type h).bind fun _ _ => .pure _) not_false
  | listGroups t => exact blames_of_absent ((absent_of_type h).bind fun _ _ => .pure _) not_false
  | updateType t => exact missing_after_record h fun es => rfl
  | createField t => exact missing_mint_after_record h fun es => defineField_result _ t _ _ _
  | createGroup t => exact missing_mint_after_record h fun es => defineGroup_result _ t _ _
  | deleteType t =>
    refine blames_change (blames_of_absent (absent_map (absent_of_type h)) not_false) ?_
    intro r a hok
    obtain ⟨r', hr', -⟩ := map_eq_ok.mp hok
    exact absurd (type_of_bind_ok hr') h
  | listFields t =>
    refine blames_of_absent (RefusesOnly.bind ?_ fun _ _ => .pure _) not_false
    unfold listFields
    have hlist (which : Registry.Selection) : Absent (w.registry.listFields t which) :=
      requireType_absent.bind fun _ _ => .pure _
    split
    · exact groupOf_absent.bind fun _ _ => hlist _
    · exact hlist _
  | updateField t f | deleteField t f =>
    refine blames_read (blames_of_absent checkField_absent not_false) fun _ hok => ?_
    exact absurd ((checkField_ok_iff hi).mp hok) h
  | orderFields t =>
    refine blames_plain (blames_record not_not_intro) fun es hes => ?_
    have hp : ¬ ∀ es, q.record ≠ .ok es := fun hno => hno es hes
    refine blames_change (Blames.bind ?_ fun ids _ => ?_) fun r a hok => ?_
    · exact blames_of_absent (itemsOf_refusesOnly _) hp
    · exact blames_of_absent (absent_of_type h) hp
    · obtain ⟨ids, -, hok⟩ := bind_eq_ok.mp hok
      exact absurd (type_of_bind_ok hok) h
  | readGroup t g =>
    exact blames_of_absent (groupOf_absent.bind fun _ _ => .pure _) not_false
  | updateGroup t g | deleteGroup t g =>
    refine blames_read (blames_of_absent groupOf_absent not_false) fun g hok => ?_
    exact absurd (groupOf_ok_iff.mp ⟨g, hok⟩) h
  | orderGroups t =>
    refine blames_plain (blames_record not_not_intro) fun es hes => ?_
    have hp : ¬ ∀ es, q.record ≠ .ok es := fun hno => hno es hes
    refine blames_plain (blames_of_absent (itemsOf_refusesOnly _) hp) fun ids _ => ?_
    refine blames_change (blames_of_absent (absent_of_type h) hp) fun r a hok => ?_
    exact absurd (type_of_bind_ok hok) h
  | bind t =>
    refine blames_plain (blames_record not_not_intro) fun es hes => ?_
    refine blames_read (blames_of_absent (absent_of_form h) fun hno => hno es hes) fun v hok => ?_
    exact absurd (type_of_form_ok hok) h
  | readTemplate t =>
    refine blames_of_absent (getTemplate_absent.bind fun _ hok => ?_) not_false
    exact absurd (type_of_bind_ok hok) h
  | saveTemplate t =>
    have hplain : Blames (¬ Action.Misworded q (.saveTemplate t)) q.record :=
      blames_record fun hno => not_not_intro fun es hes => absurd hes (hno es)
    refine blames_plain hplain fun es hes => blames_change (Blames.bind ?_ fun template ht => ?_) ?_
    · intro e he
      have hno : Action.Misworded q (.saveTemplate t) := by
        intro es' hes' template ht
        obtain rfl := Except.ok.inj (hes.symm.trans hes')
        cases he.symm.trans ht
      exact blames_of_present (templateOfValue_present _) (not_not_intro hno) e he
    · exact blames_of_absent (absent_of_form h) fun hno => hno es hes template ht
    · intro r a hok
      obtain ⟨template, -, hok⟩ := bind_eq_ok.mp hok
      exact absurd (type_of_form_ok hok) h
  | createStarterTemplate t =>
    refine blames_change (blames_of_absent (absent_of_form h) not_false) fun r a hok => ?_
    exact absurd (type_of_form_ok hok) h
  | duplicateTemplate t =>
    have hplain : Blames (¬ Action.Misworded q (.duplicateTemplate t)) q.record :=
      blames_record fun hno => not_not_intro fun es hes => absurd hes (hno es)
    refine blames_plain hplain fun es hes => ?_
    cases htarget : (Entries.get es "targetDocumentTypeId").isTruthy with
    | false =>
      have hno : Action.Misworded q (.duplicateTemplate t) := by
        intro es' hes'
        obtain rfl := Except.ok.inj (hes.symm.trans hes')
        exact htarget
      have hrefused := duplicateTemplate_untargeted (r := w.registry) (t := t) htarget
      refine blames_change ?_ fun r a hok => ?_
      · rw [hrefused]
        exact blames_of_present (.refuse rfl) (not_not_intro hno)
      · exact absurd (hrefused.symm.trans hok) refuse_ne_ok
    | true =>
      have hp : ¬ Action.Misworded q (.duplicateTemplate t) := by
        intro hno
        rw [hno es hes] at htarget
        cases htarget
      refine blames_change ?_ fun r a hok => ?_
      · rw [duplicateTemplate_targeted htarget]
        refine blames_of_absent (getTemplate_absent.bind fun _ hok => ?_) hp
        exact absurd (type_of_bind_ok hok) h
      · rw [duplicateTemplate_targeted htarget] at hok
        obtain ⟨_, htemplate, -⟩ := bind_eq_ok.mp hok
        exact absurd (type_of_bind_ok htemplate) h

end Missing

/-! ### Actions whose request names what exists -/

section Found

/-- The validation of a document blames the type that its body names if that does not exist. -/
theorem validate_blames {es : Entries} (hes : q.record = .ok es) :
    Blames (Action.LacksNamedType r q .validate) (validate shelf r es) := by
  have named : Action.LacksNamedType r q .validate ↔
      ∃ id, (Entries.get es "documentTypeId").isTruthy = true ∧
        (Entries.get es "documentTypeId").idText = .ok id ∧ ¬ r.HasType id := by
    refine ⟨fun ⟨es', id, hes', h⟩ => ?_, fun ⟨id, h⟩ => ⟨es, id, hes, h⟩⟩
    obtain rfl := Except.ok.inj (hes.symm.trans hes')
    exact ⟨id, h⟩
  rw [named]
  refine Blames.check (fun hfalse => blames_of_present (.refuse rfl) ?_) fun htrue => ?_
  · rintro ⟨id, htrue, -⟩
    simp [htrue] at hfalse
  refine Blames.bind (blames_of_silent (idText_refusesOnly _)) fun id hid => ?_
  by_cases htype : r.HasType id
  · refine blames_of_present ((getForm_present htype).bind fun form _ => ?_) ?_
    · refine (storeOf_present form _).bind fun store _ => ?_
      refine (signers_present _).bind fun signers _ => ?_
      have hprepared := prepare_present (catalogOf shelf) {} store r.types signers
      split
      · exact (RefusesOnly.bind (snapshotValues_refusesOnly _) fun _ _ => .pure _).bind fun _ _ => .pure _
      · exact .pure _
      · rename_i e hno he
        rw [he] at hprepared
        intro d hd
        exact hprepared d (congrArg Except.error (Except.error.inj hd))
    · rintro ⟨id', -, hid', hno⟩
      obtain rfl := Except.ok.inj (hid.symm.trans hid')
      exact hno htype
  · exact blames_of_absent (absent_of_form htype) ⟨id, by simpa using htrue, hid, htype⟩

/-- What binds a template blames the lack of one if it comes to ask for the saved one. -/
theorem bindBody_blames {es : Entries} (hes : q.record = .ok es) (h : r.HasType t) :
    Blames (Action.LacksTemplate r q (.bind t)) (bindBody r t es) := by
  obtain ⟨form, hform⟩ := getForm_ok_iff.mpr h
  have lacks : Action.LacksTemplate r q (.bind t) ↔ r.templates.lookup t = none ∧
      ∃ store, storeOf form (Entries.get es "values") = .ok store ∧
        Entries.get es "template" = .null := by
    refine ⟨fun ⟨hnone, es', form', store, hes', hform', hrest⟩ => ?_,
      fun ⟨hnone, store, hrest⟩ => ⟨hnone, es, form, store, hes, hform, hrest⟩⟩
    obtain rfl := Except.ok.inj (hes.symm.trans hes')
    obtain rfl := Except.ok.inj (hform.symm.trans hform')
    exact ⟨hnone, store, hrest⟩
  rw [lacks, bindBody, hform]
  show Blames _ (storeOf form _ >>= _)
  refine Blames.bind (fun e he => ?_) fun store hstore => ?_
  · refine blames_of_present (storeOf_present form _) ?_ e he
    rintro ⟨-, store, hstore, -⟩
    cases he.symm.trans hstore
  have other (hgiven : Entries.get es "template" ≠ .null) : ¬ (r.templates.lookup t = none ∧
      ∃ store, storeOf form (Entries.get es "values") = .ok store ∧
        Entries.get es "template" = .null) := fun ⟨_, _, _, hnull⟩ => hgiven hnull
  split
  · rename_i hnull
    have hsaved : Blames (r.templates.lookup t = none) (do
        boundBody form store.snapshot (← r.getTemplate t)) := by
      refine (getTemplate_blames h).bind fun template hok => ?_
      have hlookup := lookup_of_getTemplate hok
      exact blames_of_present (boundBody_present _ _ _) fun hnone => nomatch hlookup.symm.trans hnone
    exact hsaved.congr ⟨fun hnone => ⟨hnone, store, hstore, hnull⟩, And.left⟩
  · rename_i hgiven
    refine blames_of_present ?_ (other (by rw [hgiven]; nofun))
    exact (templateOfValue_present _).bind fun _ _ => boundBody_present _ _ _
  · rename_i hgiven
    refine blames_of_present ?_ (other (by rw [hgiven]; nofun))
    refine (bindTemplate_refusesOnly _ _ _ _).bind fun _ _ => ?_
    exact RefusesOnly.bind ((scan_refusesOnly _).bind fun _ _ => .pure _) fun _ _ => .pure _
  · rename_i hgiven _ _
    exact blames_of_present (.refuse rfl) (other hgiven)

/-- What duplicates a template blames the lack of one, and never the target that the body names. -/
theorem duplicateTemplate_blames {es : Entries} (hes : q.record = .ok es) (h : r.HasType t) :
    Blames (Action.LacksTemplate r q (.duplicateTemplate t)) (duplicateTemplate r t es) := by
  have lacks : Action.LacksTemplate r q (.duplicateTemplate t) ↔ r.templates.lookup t = none ∧
      (Entries.get es "targetDocumentTypeId").isTruthy = true := by
    refine ⟨fun ⟨hnone, es', hes', htarget⟩ => ?_, fun ⟨hnone, htarget⟩ => ⟨hnone, es, hes, htarget⟩⟩
    obtain rfl := Except.ok.inj (hes.symm.trans hes')
    exact ⟨hnone, htarget⟩
  rw [lacks]
  cases htarget : (Entries.get es "targetDocumentTypeId").isTruthy with
  | false =>
    rw [duplicateTemplate_untargeted htarget]
    exact blames_of_present (.refuse rfl) fun hlacks => nomatch hlacks.2
  | true =>
    rw [duplicateTemplate_targeted htarget]
    refine Blames.congr (and_iff_left rfl).symm ((getTemplate_blames h).bind fun template hok => ?_)
    have hlookup := lookup_of_getTemplate hok
    refine blames_of_present ?_ fun hnone => nomatch hlookup.symm.trans hnone
    refine (idText_refusesOnly _).bind fun target _ => RefusesOnly.bind ?_ fun _ _ => .pure _
    unfold Registry.duplicateTemplate
    rw [hok]
    show Present (if (r.type? target).isNone = true then _ else _)
    split
    · exact .refuse rfl
    · rename_i hfound
      have htype : r.HasType target := by
        cases hfind : r.type? target with
        | none => exact absurd (by rw [hfind]; rfl) hfound
        | some u => exact Registry.requireType_ok (t := u) (by rw [Registry.requireType, hfind])
      exact storeTemplate_present htype template

/-- An action whose request names what exists is refused on account of something that does not exist
only if it lacks a template or the type of a document to be validated. -/
theorem perform_found (hc : w.registry.Consistent) {a : Action} (h : a.Found w.registry q.target) :
    Blames (a.LacksTemplate w.registry q ∨ a.LacksNamedType w.registry q)
      ((perform shelf q a).run.run w).1 := by
  have hnone : ¬ (False ∨ False) := not_or.mpr ⟨not_false, not_false⟩
  have hrecord : Blames (False ∨ False) q.record := blames_of_present (record_present q) hnone
  cases a with
  | listTypes => exact blames_of_present (.pure _) hnone
  | createType =>
    refine blames_plain hrecord fun es _ => blames_mint ?_ fun _ _ => (shows_created _).blames
    exact blames_of_present (addType_present _ _ _) hnone
  | readForm t => exact blames_of_present ((getForm_present h).bind fun _ _ => .pure _) hnone
  | updateType t =>
    refine blames_plain hrecord fun es _ => blames_change ?_ fun _ _ _ => (shows_okay _).blames
    exact blames_of_present (updateType_present h _) hnone
  | deleteType t =>
    refine blames_change (blames_of_present ?_ hnone) fun _ _ _ => (shows_okay _).blames
    exact RefusesOnly.bind ((requireType_present h).bind fun _ _ => .pure _) fun _ _ => .pure _
  | listFields t =>
    refine blames_of_present (RefusesOnly.bind ?_ fun _ _ => .pure _) hnone
    have hlist (which : Registry.Selection) : Present (w.registry.listFields t which) :=
      (requireType_present h.1).bind fun _ _ => .pure _
    unfold listFields
    split
    · rename_i g hg
      exact (RefusesOnly.of_ok (groupOf_ok_iff.mpr ⟨h.1, h.2 g hg⟩)).bind fun _ _ => hlist _
    · exact hlist _
  | createField t =>
    refine blames_plain hrecord fun es _ => blames_mint ?_ fun _ _ => (shows_created _).blames
    rw [defineField_result]
    exact blames_of_present ((requireType_present h).bind fun _ _ => addField_present h _ _ _) hnone
  | updateField t f =>
    refine blames_read (blames_of_present ?_ hnone) fun _ _ => ?_
    · exact .of_ok ⟨(), (checkField_ok_iff hc.identified).mpr h⟩
    · refine blames_plain hrecord fun es _ => blames_change ?_ fun _ _ _ => (shows_okay _).blames
      exact blames_of_present (updateField_present h.2 _) hnone
  | deleteField t f =>
    refine blames_read (blames_of_present ?_ hnone) fun _ _ => blames_change ?_ fun _ _ _ =>
      (shows_okay _).blames
    · exact .of_ok ⟨(), (checkField_ok_iff hc.identified).mpr h⟩
    · refine blames_of_present (RefusesOnly.bind ?_ fun _ _ => .pure _) hnone
      exact (requireField_present h.2).bind fun _ _ => .pure _
  | orderFields t =>
    refine blames_plain hrecord fun es _ => blames_change ?_ fun _ _ _ => (shows_okay _).blames
    exact blames_of_present (orderFields_present h es) hnone
  | listGroups t => exact blames_of_present ((listGroups_present h).bind fun _ _ => .pure _) hnone
  | createGroup t =>
    refine blames_plain hrecord fun es _ => blames_mint ?_ fun _ _ => (shows_created _).blames
    rw [defineGroup_result]
    exact blames_of_present ((requireType_present h).bind fun _ _ => addGroup_present h _ _) hnone
  | readGroup t g =>
    have hgroup : Present (groupOf w.registry t g) := .of_ok (groupOf_ok_iff.mpr h)
    exact blames_of_present (hgroup.bind fun _ _ => .pure _) hnone
  | updateGroup t g =>
    refine blames_read (blames_of_present (.of_ok (groupOf_ok_iff.mpr h)) hnone) fun _ _ => ?_
    refine blames_plain hrecord fun es _ => ?_
    refine blames_change (blames_of_present (updateGroup_present _ g _) hnone) fun r out hok => ?_
    obtain ⟨g', hg'⟩ := getGroup_of_update hc hok
    have hread : Shows (do return okay (← Building.read (·.getGroup g)).toValue)
        { w with registry := r } := .read hg' (shows_okay _)
    exact hread.blames
  | deleteGroup t g =>
    refine blames_read (blames_of_present (.of_ok (groupOf_ok_iff.mpr h)) hnone) fun _ _ => ?_
    refine blames_change (blames_of_present ?_ hnone) fun _ _ _ => (shows_okay _).blames
    exact RefusesOnly.bind ((requireGroup_present _ g).bind fun _ _ => .pure _) fun _ _ => .pure _
  | orderGroups t =>
    refine blames_plain hrecord fun es _ => ?_
    refine blames_plain (blames_of_present (itemsOf_refusesOnly _) hnone) fun ids _ => ?_
    refine blames_change ?_ fun _ _ _ => (shows_okay _).blames
    exact blames_of_present (reorderGroups_present h ids) hnone
  | validate =>
    refine Blames.congr (false_or _).symm.to_iff ?_
    have hplain : Blames (Action.LacksNamedType w.registry q .validate) q.record := by
      refine blames_record fun hno => ?_
      rintro ⟨es, -, hes, -⟩
      exact hno es hes
    exact blames_plain hplain fun es hes => blames_read (validate_blames hes) fun _ _ =>
      (shows_okay _).blames
  | bind t =>
    refine Blames.congr (or_false _).symm.to_iff ?_
    have hplain : Blames (Action.LacksTemplate w.registry q (.bind t)) q.record := by
      refine blames_record fun hno => ?_
      rintro ⟨-, es, -, -, hes, -⟩
      exact hno es hes
    exact blames_plain hplain fun es hes => blames_read (bindBody_blames hes h) fun _ _ =>
      (shows_okay _).blames
  | readTemplate t =>
    refine Blames.congr (or_false _).symm.to_iff ((getTemplate_blames h).bind fun template hok => ?_)
    have hlookup := lookup_of_getTemplate hok
    refine blames_of_present ?_ fun hnone => nomatch hlookup.symm.trans hnone
    exact (templateBody_present h template).bind fun _ _ => .pure _
  | saveTemplate t =>
    refine blames_plain hrecord fun es _ => blames_change ?_ fun r saved hok => ?_
    · refine blames_of_present ((templateOfValue_present _).bind fun template _ => ?_) hnone
      exact storeTemplate_present h template
    · obtain ⟨template, -, hstore⟩ := bind_eq_ok.mp hok
      obtain ⟨v, hv⟩ := templateBody_of_store hstore
      have hread : Shows (do return okay (← Building.read (templateBody · t saved)))
        { w with registry := r } := .read hv (shows_okay _)
      exact hread.blames
  | createStarterTemplate t =>
    refine blames_change ?_ fun r saved hok => ?_
    · refine blames_of_present ((getForm_present h).bind fun form _ => .check rfl ?_) hnone
      exact storeTemplate_present h _
    · simp only [Registry.createStarterTemplate, ↓check_eq_ok, bind_eq_ok] at hok
      obtain ⟨form, -, -, hstore⟩ := hok
      obtain ⟨v, hv⟩ := templateBody_of_store hstore
      have hread : Shows (do return created (← Building.read (templateBody · t saved)))
        { w with registry := r } := .read hv (shows_created _)
      exact hread.blames
  | duplicateTemplate t =>
    refine Blames.congr (or_false _).symm.to_iff ?_
    have hplain : Blames (Action.LacksTemplate w.registry q (.duplicateTemplate t)) q.record := by
      refine blames_record fun hno => ?_
      rintro ⟨-, es, hes, -⟩
      exact hno es hes
    refine blames_plain hplain fun es hes => blames_change ?_ fun r out hok => ?_
    · exact duplicateTemplate_blames hes h
    · simp only [duplicateTemplate, ↓check_eq_ok, bind_eq_ok, pure_eq_ok, Prod.mk.injEq] at hok
      obtain ⟨-, _, -, target, -, ⟨r', saved⟩, hdup, rfl, rfl⟩ := hok
      simp only [Registry.duplicateTemplate, ↓check_eq_ok, bind_eq_ok] at hdup
      obtain ⟨_, -, -, hstore⟩ := hdup
      obtain ⟨v, hv⟩ := templateBody_of_store hstore
      have hread : Shows (do return created (← Building.read (templateBody · target saved)))
        { w with registry := r' } := .read hv (shows_created _)
      exact hread.blames

end Found

/-! ### Answers -/

section Answers

/-- What a request that comes to an action is answered when it is refused. -/
theorem answer_of_refusal {a : Action} {e : Refusal}
    (hroute : Route.ofRequest q = .action a ∨ Route.ofRequest q = .statusOf a)
    (he : ((perform shelf q a).run.run w).1 = .error (.refused e)) :
    (answer shelf q w).1.status = if e.isAbsence then 404 else 400 := by
  rw [(answer_of_route hroute).1, performed_status, he]
  rfl

/-- A request that is refused is answered with 404 or 400. If its path or its arguments name something
that does not exist, the status is 404 unless the body is at fault first. If all of that exists, the
status is 404 just when a template is asked for that is not there or the type of a document to be
validated does not exist, so that whatever else the body names is answered with 400. -/
theorem refusal_status (h : Served r) (shelf : Shelf) (q : Request) (ids : Ids) {a : Action}
    {e : Refusal} (hroute : Route.ofRequest q = .action a ∨ Route.ofRequest q = .statusOf a)
    (he : ((perform shelf q a).run.run ⟨r, ids⟩).1 = .error (.refused e)) :
    let status := (answer shelf q ⟨r, ids⟩).1.status
    (status = 404 ∨ status = 400) ∧
    (¬ a.Found r q.target → (status = 404 ↔ ¬ a.Misworded q)) ∧
    (a.Found r q.target → (status = 404 ↔ a.LacksTemplate r q ∨ a.LacksNamedType r q)) := by
  have hc := h.reachable.consistent
  have hstatus := answer_of_refusal hroute he
  have habsence : (answer shelf q ⟨r, ids⟩).1.status = 404 ↔ e.isAbsence = true := by
    rw [hstatus]
    split <;> simp_all
  refine ⟨?_, fun hmissing => ?_, fun hfound => ?_⟩
  · rw [hstatus]
    split
    · exact .inl rfl
    · exact .inr rfl
  · exact habsence.trans (perform_missing hc.identified hmissing e he)
  · exact habsence.trans (perform_found hc hfound e he)

/-- A request to add a field to a group that no type has. -/
def strayMember : Request where
  method := "POST"
  target := ⟨["api", "v1", "document-types", "t", "fields"], []⟩
  body := some (.named [("name", .text "due"), ("label", .text "Due"),
    ("documentFieldGroupId", .text "lost")])

/-- A request to change a field that no type has. -/
def strayField : Request where
  method := "PUT"
  target := ⟨["api", "v1", "document-types", "t", "fields", "lost"], []⟩
  body := some (.named [("label", .text "Due")])

theorem refusal_status_stray : Served Registry.orders ∧
    (((perform [] strayMember (.createField "t")).run.run ⟨Registry.orders, {}⟩).1 =
        .error (.refused (.unknownGroup "lost")) ∧
      (answer [] strayMember ⟨Registry.orders, {}⟩).1.status = 400) ∧
    ((perform [] strayField (.updateField "t" "lost")).run.run ⟨Registry.orders, {}⟩).1 =
        .error (.refused (.unknownField "lost")) ∧
      (answer [] strayField ⟨Registry.orders, {}⟩).1.status = 404 := by
  have hserved := Served.start Registry.orders_reachable
  have hmember : ((perform [] strayMember (.createField "t")).run.run ⟨Registry.orders, {}⟩).1 =
      .error (.refused (.unknownGroup "lost")) := by decide +kernel
  have hfield : ((perform [] strayField (.updateField "t" "lost")).run.run
      ⟨Registry.orders, {}⟩).1 = .error (.refused (.unknownField "lost")) := by decide +kernel
  have hroute : Route.ofRequest strayMember = .action (.createField "t") := by decide +kernel
  have hroute' : Route.ofRequest strayField = .action (.updateField "t" "lost") := by decide +kernel
  refine ⟨hserved, ⟨hmember, ?_⟩, hfield, ?_⟩
  · obtain ⟨hboth, -, hfound⟩ := refusal_status hserved [] strayMember {} (.inl hroute) hmember
    refine hboth.resolve_left fun hno => ?_
    have htype : ∃ u ∈ Registry.orders.types, u.id = "t" := by decide +kernel
    exact ((hfound htype).mp hno).elim id id
  · obtain ⟨-, hmissing, -⟩ := refusal_status hserved [] strayField {} (.inl hroute') hfield
    have hno : ¬ ∃ f ∈ Registry.orders.fields, f.id = "lost" ∧ f.typeId = "t" := by decide +kernel
    exact (hmissing fun hfound => hno hfound.2).mpr not_false

/-- A request to validate a document of a type that does not exist. -/
def strayDocument : Request where
  method := "POST"
  target := ⟨["api", "v1", "documents", "validate"], []⟩
  body := some (.named [("documentTypeId", .text "missing"), ("values", .record [])])

/-- A request can be answered with 404 although its path and its arguments name nothing that does not
exist and no template is asked for. -/
theorem unknown_type_in_body_not_found : ¬ ∀ (r : Registry) (_ : Served r) (shelf : Shelf)
    (q : Request) (ids : Ids) (a : Action) (e : Refusal), Route.ofRequest q = .action a →
    ((perform shelf q a).run.run ⟨r, ids⟩).1 = .error (.refused e) →
    a.Found r q.target → ¬ a.LacksTemplate r q →
    (answer shelf q ⟨r, ids⟩).1.status = 400 := by
  intro h
  have hstatus := h Registry.empty (.start .empty) [] strayDocument {} .validate
    (.unknownType "missing") (by decide +kernel) (by decide +kernel) trivial not_false
  exact absurd hstatus (by decide +kernel)

end Answers
end Service
end DocForms
