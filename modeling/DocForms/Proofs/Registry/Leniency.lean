import DocForms.Proofs.Registry.Amending
import DocForms.Proofs.Registry.Refusing

/-! Strict and lenient definition of fields. Both build the same field or fail alike, unless a
payload cannot be parsed. Then the strict one refuses with what the lenient one records first, and
what is recorded is reported wherever the field is validated. -/
namespace DocForms

/-! ### Two modes -/

/-- Whether a refusal is about a malformed payload of a field. -/
def Refusal.isPayload (e : Refusal) : Bool := e.isOptions || e.isRules

/-- A computation that refuses on account of no payload. -/
abbrev Blameless {α : Type} (x : Except Fault α) : Prop := RefusesOnly (fun e => !e.isPayload) x

section Modes
variable {α β : Type} {problems : α → List String} {problems' : β → List String}
  {x y : Except Fault α}

/-- How the outcome of a strict mode and that of a lenient one are related. -/
inductive Modes (problems : α → List String) : Except Fault α → Except Fault α → Prop
  /-- Both are the same, and no payload is to blame. -/
  | same {x : Except Fault α} (hnone : ∀ a, x = .ok a → problems a = [])
      (hother : Blameless x) : Modes problems x x
  /-- The strict mode refuses with the first problem of what the lenient one gives. -/
  | recorded {e : Refusal} {a : α} (he : e.isPayload = true)
      (hfirst : (problems a).head? = some e.message) : Modes problems (.error (.refused e)) (.ok a)

/-- A step that comes before, the same in both modes. -/
theorem Modes.after {b : Except Fault β} {f g : β → Except Fault α}
    (hb : Blameless b)
    (h : ∀ a, b = .ok a → Modes problems (f a) (g a)) : Modes problems (b >>= f) (b >>= g) := by
  cases b with
  | error e => exact .same nofun fun d hd => hb d (congrArg Except.error (Except.error.inj hd))
  | ok a => exact h a rfl

/-- A check that comes before, the same in both modes. -/
theorem Modes.check {p : Prop} [Decidable p] {e : Refusal} {f g : β → Except Fault α}
    (he : e.isPayload = false) (h : Modes problems x y) :
    Modes problems (if p then refuse e >>= f else x) (if p then refuse e >>= g else y) := by
  split
  · refine .after (.refuse ?_) fun b hb => absurd hb refuse_ne_ok
    rw [he]
    rfl
  · exact h

/-- A step that comes afterwards, succeeds, and keeps the problems. -/
theorem Modes.bind_ok {f : α → Except Fault β} (h : Modes problems x y)
    (hf : ∀ a, ∃ b, f a = .ok b ∧ problems' b = problems a) :
    Modes problems' (x >>= f) (y >>= f) := by
  cases h with
  | same hnone hother =>
    refine .same (fun b hb => ?_) (hother.bind fun a _ => ?_)
    · obtain ⟨a, ha, hb⟩ := bind_eq_ok.mp hb
      obtain ⟨b', hb', hproblems⟩ := hf a
      obtain rfl := Except.ok.inj (hb.symm.trans hb')
      rw [hproblems, hnone a ha]
    · obtain ⟨b, hb, -⟩ := hf a
      rw [hb]
      exact .ok b
  | @recorded e a he hfirst =>
    obtain ⟨b, hb, hproblems⟩ := hf a
    show Modes problems' (.error (.refused e)) (f a)
    rw [hb]
    exact .recorded he (hproblems ▸ hfirst)

theorem Modes.refused_iff (h : Modes problems x y) :
    (∃ e, x = .error (.refused e) ∧ e.isPayload = true) ↔ ∃ a, y = .ok a ∧ problems a ≠ [] := by
  cases h with
  | same hnone hother =>
    constructor
    · rintro ⟨e, he, hpayload⟩
      simpa [hpayload] using hother e he
    · rintro ⟨a, ha, hproblems⟩
      exact absurd (hnone a ha) hproblems
  | @recorded e a he hfirst =>
    refine iff_of_true ⟨e, rfl, he⟩ ⟨a, rfl, ?_⟩
    intro hnil
    rw [hnil] at hfirst
    cases hfirst

theorem Modes.first {e : Refusal} {a : α} (h : Modes problems x y) (hx : x = .error (.refused e))
    (he : e.isPayload = true) (hy : y = .ok a) : (problems a).head? = some e.message := by
  cases h with
  | same => cases hx.symm.trans hy
  | recorded _ hfirst =>
    obtain rfl := Fault.refused.inj (Except.error.inj hx)
    obtain rfl := Except.ok.inj hy
    exact hfirst

theorem Modes.eq_of_not_refused (h : Modes problems x y)
    (hno : ¬ ∃ e, x = .error (.refused e) ∧ e.isPayload = true) : x = y := by
  cases h with
  | same => rfl
  | @recorded e a he => exact absurd ⟨e, rfl, he⟩ hno

end Modes

/-- A payload that cannot be parsed is refused as such in the strict mode, and recorded in the
lenient one. -/
theorem recordRefusal_cases {α : Type} {own : Refusal → Bool} {x : Except Fault (Option α)}
    (hx : Graceful x) (hown : RefusesOnly own x) :
    (∃ a, ∀ strict, recordRefusal strict own x = .ok (a, [])) ∨
      ∃ e, own e = true ∧ recordRefusal true own x = .error (.refused e) ∧
        recordRefusal false own x = .ok (none, [e.message]) := by
  cases x with
  | ok a => exact .inl ⟨a, fun _ => rfl⟩
  | error e =>
    cases e with
    | misuse m => exact absurd rfl (hx m)
    | refused e =>
      have he := hown e rfl
      refine .inr ⟨e, he, rfl, ?_⟩
      simp [recordRefusal, he]

theorem Constraints.parse_modes {kind : FieldKind} {rawOptions rawRules : Value}
    {field : Option String} (hoptions : Graceful (Options.parse kind rawOptions field))
    (hrules : Graceful (Rules.parse rawRules field)) :
    Modes Constraints.problems (Constraints.parse true kind rawOptions rawRules field)
      (Constraints.parse false kind rawOptions rawRules field) := by
  have hfirst := recordRefusal_cases hoptions (options_refusesOnly kind rawOptions field)
  have hsecond := recordRefusal_cases hrules (rules_refusesOnly rawRules field)
  have hpayload {e : Refusal} (he : e.isOptions = true ∨ e.isRules = true) :
      e.isPayload = true := by
    simpa [Refusal.isPayload] using he
  unfold Constraints.parse
  rcases hfirst with ⟨options, hparsed⟩ | ⟨e, he, hstrict, hlenient⟩
  · rcases hsecond with ⟨rules, hparsed'⟩ | ⟨e, he, hstrict, hlenient⟩
    · simp only [hparsed, hparsed']
      exact .same (fun c hc => by obtain rfl := Except.ok.inj hc; rfl) (.ok _)
    · simp only [hparsed, hstrict, hlenient]
      exact .recorded (hpayload (.inr he)) rfl
  · rcases hsecond with ⟨rules, hparsed'⟩ | ⟨e', -, -, hlenient'⟩
    · simp only [hstrict, hlenient, hparsed']
      exact .recorded (hpayload (.inl he)) rfl
    · simp only [hstrict, hlenient, hlenient']
      exact .recorded (hpayload (.inl he)) rfl

namespace Registry
variable {r : Registry} {typeId id : String} {es : Entries}

/-- Specifications of fields whose order, if there is one, is an integer, and whose payloads are
parsed or refused. -/
structure Specifies (es : Entries) : Prop where
  order : (Entries.get es "order").isNull = true ∨ ∃ n, (Entries.get es "order").toInteger = .ok n
  options : ∀ kind name, (Entries.get es "name").trimmed = .ok name →
    FieldKind.ofValue ((Entries.get es "type").orElse (.text "text")) (some name) = .ok kind →
      Graceful (Options.parse kind (Entries.get es "options") (some name))
  rules : ∀ name, (Entries.get es "name").trimmed = .ok name →
    Graceful (Rules.parse (Entries.get es "validationRules") (some name))

theorem Specifies.fieldOrder (h : Specifies es) (r : Registry) (typeId id : String)
    (group : Option String) :
    ∃ n, r.fieldOrder typeId id group (Entries.get es "order") = .ok n := by
  unfold Registry.fieldOrder
  split
  · exact ⟨_, rfl⟩
  · rename_i hno
    exact h.order.resolve_left hno

theorem buildField_modes (hes : Specifies es) : Modes Field.problems
    (r.buildField typeId id es true) (r.buildField typeId id es false) := by
  unfold buildField
  refine .after (trimmed_refusesOnly _) fun name hname => ?_
  refine .after (trimmed_refusesOnly _) fun label _ => .check rfl (.check rfl ?_)
  refine .after (groupIdOf_refusesOnly es) fun group _ => ?_
  refine .after (checkGroup_refusesOnly r typeId group fun _ => rfl) fun _ _ => ?_
  refine .after (checkFieldName_refusesOnly r typeId id group (by rfl) (by rfl)) fun _ _ => ?_
  refine .after (kind_refusesOnly _ _ fun _ _ => rfl) fun kind hkind => ?_
  refine (Constraints.parse_modes (hes.options kind name hname hkind)
    (hes.rules name hname)).bind_ok fun c => ?_
  obtain ⟨n, hn⟩ := hes.fieldOrder r typeId id group
  rw [hn]
  exact ⟨_, rfl, rfl⟩

theorem addField_modes (hes : Specifies es) : Modes (fun out => out.2.problems)
    (r.addField typeId id (.record es) true) (r.addField typeId id (.record es) false) := by
  unfold addField
  refine .after (requireType_refusesOnly r typeId (by rfl)) fun _ _ => ?_
  refine .after (.ok es) fun es' hes' => ?_
  obtain rfl := Except.ok.inj hes'
  exact (buildField_modes hes).bind_ok fun f => ⟨_, rfl, rfl⟩

theorem defineField_run (r : Registry) (typeId : String) (spec : Value) (strict : Bool) (s : Ids) :
    (r.defineField typeId spec strict).run.run s = match r.requireType typeId with
      | .error e => (.error e, s)
      | .ok _ => (r.addField typeId s.take.1 spec strict, s.take.2) := by
  unfold defineField
  cases r.requireType typeId <;> rfl

theorem defineField_modes (r : Registry) (typeId : String) (hes : Specifies es) (s : Ids) :
    Modes (fun out : Registry × Field => out.2.problems)
      ((r.defineField typeId (.record es) true).run.run s).1
      ((r.defineField typeId (.record es) false).run.run s).1 ∧
    ((r.defineField typeId (.record es) true).run.run s).2 =
      ((r.defineField typeId (.record es) false).run.run s).2 := by
  rw [defineField_run, defineField_run]
  cases ht : r.requireType typeId with
  | error e =>
    have htype : Blameless (r.requireType typeId) := requireType_refusesOnly r typeId rfl
    have hother : Blameless (.error e : Except Fault (Registry × Field)) := by
      intro d hd
      obtain rfl := Except.error.inj hd
      exact htype d ht
    dsimp only
    exact ⟨Modes.same (fun a ha => nomatch ha) hother, rfl⟩
  | ok t =>
    dsimp only
    exact ⟨addField_modes hes, rfl⟩

/-! ### Fields with problems -/

/-- A field that has been defined is found under its new identifier. -/
theorem field_of_define {s : Ids} {spec : Value} {strict : Bool} {r' : Registry} {f : Field}
    (hr : r.Reachable) (fresh : r.field? s.take.1 = none)
    (h : ((r.defineField typeId spec strict).run.run s).1 = .ok (r', f)) :
    r'.Reachable ∧ r'.field? f.id = some f := by
  have hafter : r.after s (.defineField typeId spec strict) = r' := by
    rw [after, perform, map_result, h]
    rfl
  refine ⟨hafter ▸ hr.step s (.defineField typeId spec strict) fresh, ?_⟩
  have hadd := addField_of_define h
  simp only [addField, bind_eq_ok, pure_eq_ok] at hadd
  obtain ⟨_, -, _, -, f', -, hout⟩ := hadd
  obtain ⟨rfl, rfl⟩ := Prod.mk.inj hout
  exact find?_upsert Field.id f' r.fields

/-- A field of a registry is in the form of its type. -/
theorem mem_form_of_field {f : Field} (hr : r.Reachable) (hf : f ∈ r.fields) :
    ∃ form, r.getForm f.typeId = .ok form ∧ f ∈ form.allFields.map (·.2) := by
  have hc := hr.consistent
  obtain ⟨t, ht, hid⟩ := hc.owned.field f hf
  refine ⟨_, getForm_eq (hid ▸ requireType_of_mem hc.identified ht), ?_⟩
  rw [allFields_eq, mem_scopes hc]
  exact List.mem_filter.mpr ⟨hf, by simp⟩

end Registry

namespace Validation
variable {r : Registry} {id : String} {form : Form} {s : Snapshot} {links : ResolvedLinks}
  {f : Field} {p : String} {ps : List String}

/-- How a field with a problem is reported when a snapshot is validated. -/
structure Reported (form : Form) (s : Snapshot) (links : ResolvedLinks) (f : Field)
    (p : String) : Prop where
  /-- Validation ends if all checks but those of the field have an outcome. -/
  ends : (∃ errors, problems .standard form s links = .ok errors) ↔
    Readable form s ∧ ∀ c, Checked form s c → (∀ v a, c ≠ .field f v a) → ¬ c.Stuck
  /-- Then there is an entry for each place of the field, whatever the value. -/
  keys : ∀ errors, problems .standard form s links = .ok errors →
    ∀ v a, Checked form s (.field f v a) → a.key ∈ Keyed.names errors
  /-- The entry shows the problem, unless a row count fails that has the same key. -/
  shown : ∀ errors, problems .standard form s links = .ok errors →
    ∀ v a, Checked form s (.field f v a) →
      (∀ g rows, Checked form s (.count g rows) → ¬ g.Bears rows → a.key ≠ countKey g) →
        errors.message? a.key = some ("Configuration error: " ++ p)
  /-- If one does, then the entry shows the message of the count. -/
  hidden : ∀ errors, problems .standard form s links = .ok errors →
    ∀ v a, Checked form s (.field f v a) → ∀ g rows m, Checked form s (.count g rows) →
      countProblem? g rows = .ok (some m) → a.key = countKey g → errors.message? a.key = some m

theorem ends_iff_others (hp : f.problems ≠ []) :
    (∃ errors, problems .standard form s links = .ok errors) ↔
      Readable form s ∧ ∀ c, Checked form s c → (∀ v a, c ≠ .field f v a) → ¬ c.Stuck := by
  constructor
  · rintro ⟨es, h⟩
    obtain ⟨hr, hall, -⟩ := problems_eq_ok_iff.mp h
    exact ⟨hr, fun c hc _ => check_decides.ends.mp (hall c (mem_checks.mpr hc))⟩
  · rintro ⟨hr, hall⟩
    refine ⟨_, problems_eq_ok_iff.mpr ⟨hr, fun c hc => check_decides.ends.mpr ?_, rfl⟩⟩
    by_cases hown : ∃ v a, c = .field f v a
    · obtain ⟨v, a, rfl⟩ := hown
      exact fun hstuck => hp hstuck.1
    · push Not at hown
      exact hall c (mem_checks.mp hc) hown

/-- In the form of a registry, every field with problems is reported by the first of them. -/
theorem reported_of_problems (hr : r.Reachable) (hform : r.getForm id = .ok form)
    (hp : f.problems = p :: ps) : Reported form s links f p := by
  have hn := Registry.getForm_wellNamed hr hform
  have hapart (f) (hf : f ∈ form.fields) (g) (hg : g ∈ form.groups) : f.name ≠ g.name :=
    Registry.getForm_apart hr hform hf hg
  have hfails (v : Value) (a : Address) : Check.Fails links (.field f v a) := .inl (by simp [hp])
  refine ⟨ends_iff_others (by simp [hp]), ?keys, ?shown, ?hidden⟩
  case keys =>
    intro errors h v a hc
    exact (mem_keys h).mpr ⟨_, hc, hfails v a, rfl⟩
  case shown =>
    intro errors h v a hc hno
    have halone (d : Check) (hd : d ∈ failing form s links) (hpath : d.path = a.key) :
        d = .field f v a := by
      rcases eq_or_namesakes hn hapart hd.1 hc hpath with rfl | hcount | hcount
      · rfl
      · cases hcount with
        | field hname => exact absurd hname (hno _ _ hd.1 hd.2)
      · cases hcount
    obtain ⟨m, hm, hmessage⟩ := message_of_alone h ⟨hc, hfails v a⟩ halone
    have hfirst : fieldProblem? .standard f v a.key links =
        .ok (some ("Configuration error: " ++ p)) := by
      rw [fieldProblem?, hp]
    obtain rfl := Option.some.inj (Except.ok.inj (hm.symm.trans hfirst))
    exact hmessage
  case hidden =>
    intro errors h v a hc g rows m hg hm hkey
    have hdot := dot_not_mem_countKey (hn.group g hg.count_cases.1)
    obtain ⟨hf, hname, rfl⟩ := hc.top_of_key hkey hdot
    rw [hkey]
    exact count_reported hr hform h hg hm hf hname

end Validation

namespace Registry
open Validation
variable {r : Registry} {typeId : String} {es : Entries}

/-- A strict definition refuses a payload just if a lenient one records a problem, and the first
problem is what the strict one says; otherwise both come to the same. The field that the lenient one
defines is in the form of its type, and until it is updated, its first problem is reported at each
of its places when a snapshot is validated to the end and no row count that fails has the same
key. -/
theorem strict_iff_lenient (hes : Specifies es) (ids : Ids) :
    let strict := (r.defineField typeId (.record es) true).run.run ids
    let lenient := (r.defineField typeId (.record es) false).run.run ids
    ((∃ e, strict.1 = .error (.refused e) ∧ e.isPayload = true) ↔
      ∃ r' f, lenient.1 = .ok (r', f) ∧ f.problems ≠ []) ∧
    (∀ e r' f, strict.1 = .error (.refused e) → e.isPayload = true → lenient.1 = .ok (r', f) →
      f.problems.head? = some e.message) ∧
    ((¬ ∃ e, strict.1 = .error (.refused e) ∧ e.isPayload = true) → strict = lenient) ∧
    (r.Reachable → r.field? ids.take.1 = none → ∀ r' f p ps, lenient.1 = .ok (r', f) →
      f.problems = p :: ps → ∀ m, Unamended f.id r' m →
        ∃ g form, m.field? f.id = some g ∧ g.problems = f.problems ∧
          m.getForm g.typeId = .ok form ∧ g ∈ form.allFields.map (·.2) ∧
          ∀ s links, Reported form s links g p) := by
  intro strict lenient
  obtain ⟨hmodes, hids⟩ := defineField_modes r typeId hes ids
  refine ⟨?_, fun e r' f hstrict he hlenient => hmodes.first hstrict he hlenient, ?_, ?_⟩
  · rw [hmodes.refused_iff]
    exact Prod.exists
  · intro hno
    exact Prod.ext (hmodes.eq_of_not_refused hno) hids
  · intro hr fresh r' f p ps hlenient hp m hm
    obtain ⟨hr', hf⟩ := field_of_define hr fresh hlenient
    obtain ⟨hreachable, g, hg, -, hconstraints⟩ := hm.constraints hr' hf
    have hproblems : g.problems = f.problems := congrArg Constraints.problems hconstraints
    obtain ⟨form, hform, hmem⟩ := mem_form_of_field hreachable (List.mem_of_find?_eq_some hg)
    exact ⟨g, form, hg, hproblems, hform, hmem, fun s links =>
      reported_of_problems hreachable hform (hproblems.trans hp)⟩

/-- The tallies without a count. -/
def countlessTallies : Registry := tallies.after {} (.deleteField "c")

theorem countlessTallies_reachable : countlessTallies.Reachable :=
  .step tallies_reachable {} (.deleteField "c") trivial

/-- A count to select, whose options are broken. -/
def brokenSpec : Entries := Entries.ofNames
  [("name", .text "lines_count"), ("label", .text "Count"), ("type", .text "select"),
    ("options", .text "\x7b")]

theorem brokenSpec_specifies : Specifies brokenSpec := by
  have hname : (Entries.get brokenSpec "name").trimmed = .ok "lines_count" := by decide +kernel
  refine ⟨.inl (by decide), fun kind name h hkind => ?_, fun name h => ?_⟩
  · obtain rfl := Except.ok.inj (hname.symm.trans h)
    have hselect : FieldKind.ofValue ((Entries.get brokenSpec "type").orElse (.text "text"))
        (some "lines_count") = .ok .select := by decide +kernel
    obtain rfl := Except.ok.inj (hselect.symm.trans hkind)
    have hparse : Options.parse .select (Entries.get brokenSpec "options") (some "lines_count") =
        refuse (.optionsNotJson (some "lines_count") .expectingName) := by decide +kernel
    rw [hparse]
    exact graceful_refuse _
  · exact graceful_ok none

theorem brokenSpec_defines :
    ((countlessTallies.defineField "t" (.record brokenSpec) false).run.run
      { given := some "c" }).1 = .ok (brokenTallies, brokenCount) := by decide +kernel

/-- A tally of a single line without an amount. -/
def singleLine : Snapshot :=
  ⟨.named [("lines_count", .text "3")], .named [("lines", .list [.named []])]⟩

/-- The broken count is refused by a strict definition, and otherwise reported. -/
theorem strict_iff_lenient_brokenSpec :
    (∃ e, ((countlessTallies.defineField "t" (.record brokenSpec) true).run.run
        { given := some "c" }).1 = .error (.refused e) ∧ e.isPayload = true ∧
      brokenCount.problems = [e.message]) ∧
    ∃ errors, problems .standard brokenTallyForm singleLine [] = .ok errors ∧
      "lines_count" ∈ Keyed.names errors := by
  obtain ⟨hiff, hfirst, -, hreported⟩ :=
    @strict_iff_lenient countlessTallies "t" _ brokenSpec_specifies { given := some "c" }
  obtain ⟨e, hstrict, he⟩ := hiff.mpr ⟨_, _, brokenSpec_defines, by decide⟩
  have hmessage := hfirst e _ _ hstrict he brokenSpec_defines
  obtain ⟨g, form, hg, -, hform, hmem, hall⟩ := hreported countlessTallies_reachable
    (by decide +kernel) _ _ _ _ brokenSpec_defines rfl _ .refl
  have hcount : brokenTallies.field? "c" = some brokenCount := by decide +kernel
  obtain rfl := Option.some.inj (hcount.symm.trans hg)
  obtain rfl := Except.ok.inj (brokenTallies_form.symm.trans hform)
  refine ⟨⟨e, hstrict, he, congrArg Option.toList hmessage⟩, ?_⟩
  have hends : problems .standard brokenTallyForm singleLine [] =
      .ok [("lines_count", "Configuration error: Options for field 'lines_count' is not valid " ++
        "JSON: Expecting property name enclosed in double quotes"),
        ("lines[0].amount", "Amount is required")] := by decide +kernel
  have hchecked : Checked brokenTallyForm singleLine
      (.field brokenCount (.text "3") (.top "lines_count")) := .top (List.mem_singleton_self _)
  exact ⟨_, hends, (hall _ []).keys _ hends _ _ hchecked⟩

/-- The problem of the broken count is not reported when there are too few lines, and neither when
an amount is below a bound that cannot be written. -/
theorem broken_count_unreported : countlessTallies.Reachable ∧ Specifies brokenSpec ∧
    ((countlessTallies.defineField "t" (.record brokenSpec) false).run.run
      { given := some "c" }).1 = .ok (brokenTallies, brokenCount) ∧ brokenCount.problems ≠ [] ∧
    brokenTallies.getForm "t" = .ok brokenTallyForm ∧
    Checked brokenTallyForm {} (.field brokenCount .null (.top "lines_count")) ∧
    problems .standard brokenTallyForm {} [] =
      .ok [("lines_count", "Lines requires at least 1 row(s), got 0")] ∧
    problems .standard brokenTallyForm ⟨.named [],
      .named [("lines", .list [.named [("amount", .int 5)]])]⟩ [] = .error (.misuse .magnitude) :=
  ⟨countlessTallies_reachable, brokenSpec_specifies, brokenSpec_defines, by decide,
    brokenTallies_form, .top (List.mem_singleton_self _), by decide +kernel, by decide +kernel⟩

end Registry
end DocForms
