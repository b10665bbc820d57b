import DocForms.Proofs.Store.Shape
import DocForms.Proofs.Submission.Instances
import DocForms.Proofs.Template.Filling
import DocForms.Template.Layout

/-! Tokens of fields that a form does not have. A template reports them, and since a store has room
only for the fields of its form, they show nothing when the template is bound to its values. -/
namespace DocForms
open Placeholder

/-- The names of the fields, each with the name of its group. -/
def Form.addresses (form : Form) : List (Option String × String) :=
  form.allFields.map fun e => (e.1.map (·.name), e.2.name)

/-- The group and the name of the field that a token is for. -/
def Placeholder.address? : Placeholder → Option (Option String × String)
  | .field name => some (none, name)
  | .member group name => some (some group, name)
  | _ => none

/-- A token of a field that the form does not have. -/
def Token.Foreign (form : Form) (t : Token) : Prop :=
  ∃ a ∈ t.placeholder.address?, a ∉ form.addresses

instance (form : Form) : DecidablePred (Token.Foreign form) :=
  fun t => inferInstanceAs (Decidable (∃ a ∈ t.placeholder.address?, a ∉ form.addresses))

namespace Form
variable {form : Form} {group name : String}

theorem mem_addresses_field : (none, name) ∈ form.addresses ↔ ∃ f ∈ form.fields, f.name = name := by
  simp [addresses, allFields]

theorem mem_addresses_member : (some group, name) ∈ form.addresses ↔
    ∃ g ∈ form.groups, g.name = group ∧ ∃ f ∈ g.fields, f.name = name := by
  simp only [addresses, allFields, List.map_append, List.map_map, List.map_flatMap, List.mem_append,
    List.mem_map, List.mem_flatMap, Function.comp_apply, Option.map_none, Option.map_some,
    Prod.mk.injEq, Option.some.injEq, reduceCtorEq, false_and, and_false, exists_false, false_or]
  constructor
  · rintro ⟨g, hg, f, hf, hname, hfield⟩
    exact ⟨g, hg, hname, f, hf, hfield⟩
  · rintro ⟨g, hg, hname, f, hf, hfield⟩
    exact ⟨g, hg, f, hf, hname, hfield⟩

theorem group?_eq_some (hn : form.WellNamed) {g : FieldGroup} :
    form.group? group = some g ↔ g ∈ form.groups ∧ g.name = group := by
  constructor
  · intro h
    exact ⟨List.mem_of_find?_eq_some h, by simpa using List.find?_some h⟩
  · rintro ⟨hg, rfl⟩
    exact group?_of_mem hn hg

end Form

theorem find?_name_eq_none {fs : List Field} {name : String} :
    fs.find? (·.name == name) = none ↔ ¬ ∃ f ∈ fs, f.name = name := by
  simp

namespace Placeholder
variable {form : Form} {p : Placeholder} {a : Option String × String}

theorem address?_eq_none : p.address? = none ↔ p.isSignature = true := by
  cases p <;> simp [address?, isSignature]

theorem isSignature_of_address? (ha : p.address? = some a) : p.isSignature = false := by
  rw [Bool.eq_false_iff, ne_eq, ← address?_eq_none, ha]
  exact Option.some_ne_none a

/-- The lookup of a token's field fails where the form has no field at its address. -/
theorem field?_eq_none (hn : form.WellNamed) (ha : p.address? = some a) :
    p.field? form = none ↔ a ∉ form.addresses := by
  cases p with
  | field name =>
    obtain rfl := Option.some.inj ha
    rw [Form.mem_addresses_field]
    exact find?_name_eq_none
  | member group name =>
    obtain rfl := Option.some.inj ha
    rw [Form.mem_addresses_member, field?, Option.bind_eq_none_iff]
    simp only [Form.group?_eq_some hn, FieldGroup.field?, find?_name_eq_none, not_exists, not_and,
      and_imp]
  | signatures => cases ha
  | signature => cases ha

end Placeholder

namespace Snapshot
variable {s : Snapshot} {p : Placeholder}

/-- A snapshot of two records has a value for every token of a field. -/
theorem exists_holds (hp : p.isSignature = false) {es es' : Entries} (hs : s.simple = .record es)
    (hg : s.groups = .record es') : ∃ v, s.Holds p v := by
  cases p with
  | field name => exact ⟨_, .field hs⟩
  | member group name =>
    by_cases hrow : ∃ row, Entries.get es' group = .record row
    · obtain ⟨row, hrow⟩ := hrow
      exact ⟨_, .row hg hrow⟩
    · by_cases hfirst : ∃ row rows, Entries.get es' group = .list (.record row :: rows)
      · obtain ⟨row, rows, hfirst⟩ := hfirst
        exact ⟨_, .first hg hfirst⟩
      · exact ⟨_, .absent hg (not_exists.mp hrow) fun row rows h => hfirst ⟨row, rows, h⟩⟩
  | signatures => cases hp
  | signature => cases hp

end Snapshot

namespace Store
variable {form : Form} {s : Store} {fs : List Field} {r : Row}

/-- A row has no value under a name that none of its fields has. -/
theorem get_of_within (h : r.Within fs) {name : String} (hname : ¬ ∃ f ∈ fs, f.name = name) :
    Entries.get (Entries.ofNames r) name = .null := by
  have hnone : r.lookup name = none := by
    apply Keyed.get?_eq_none
    intro hmem
    exact hname (h name hmem)
  rw [Entries.get_ofNames, hnone, Option.getD_none]

theorem Shaped.fits_of_lookup (h : s.Shaped form) {group : String} {v : GroupValues}
    (hv : s.groups.lookup group = some v) : ∃ g ∈ form.groups, g.name = group ∧ v.Fits g := by
  have hmem : (group, v) ∈ s.groups := Keyed.mem_of_get? hv
  have hname : group ∈ form.groups.map (·.name) := h.names ▸ List.mem_map_of_mem hmem
  obtain ⟨g, hg, rfl⟩ := List.mem_map.mp hname
  exact ⟨g, hg, rfl, h.fits g hg v hmem⟩

/-- The snapshot of a store holds nothing at addresses that its form does not have: not under the
name of a group, nor in a row or a first row, nor where there are no rows. -/
theorem Shaped.holds_null (h : s.Shaped form) {p : Placeholder} {a : Option String × String}
    (ha : p.address? = some a) (hout : a ∉ form.addresses) : s.snapshot.Holds p .null := by
  cases p with
  | field name =>
    obtain rfl := Option.some.inj ha
    rw [Form.mem_addresses_field] at hout
    rw [← get_of_within h.simple hout]
    exact .field rfl
  | member group name =>
    obtain rfl := Option.some.inj ha
    rw [Form.mem_addresses_member] at hout
    have hget := groups_get s group
    cases hv : s.groups.lookup group with
    | none =>
      rw [hv, Option.map_none, Option.getD_none] at hget
      exact .absent rfl (by simp [hget]) (by simp [hget])
    | some v =>
      rw [hv, Option.map_some, Option.getD_some] at hget
      obtain ⟨g, hg, hname, hfits⟩ := h.fits_of_lookup hv
      have hnull : ∀ r ∈ v.toRows, Entries.get (Entries.ofNames r) name = .null := by
        intro r hr
        exact get_of_within (hfits.within r hr) fun hf => hout ⟨g, hg, hname, hf⟩
      cases v with
      | row r =>
        rw [← hnull r (List.mem_singleton_self r)]
        exact .row rfl hget
      | rows rs =>
        cases rs with
        | nil =>
          rw [GroupValues.toValue, List.map_nil] at hget
          exact .absent rfl (by simp [hget]) (by simp [hget])
        | cons r rs =>
          rw [← hnull r (List.mem_cons_self ..)]
          exact .first rfl hget
  | signatures => cases ha
  | signature => cases ha

end Store

namespace Token
variable {rs : Renderers} {form : Form} {s : Store} {escape : Bool} {t u : Token}

theorem foreign_iff (hn : form.WellNamed) : t.Foreign form ↔
    t.placeholder.isSignature = false ∧ t.placeholder.field? form = none := by
  rw [Foreign]
  cases ha : t.placeholder.address? with
  | none =>
    rw [Placeholder.address?_eq_none] at ha
    simp [ha]
  | some a =>
    have hfield := Placeholder.isSignature_of_address? ha
    simp [hfield, Placeholder.field?_eq_none hn ha]

/-- Tokens of the same text are for the same field. -/
theorem foreign_congr {template : String} (ht : t ∈ all template) (hu : u ∈ all template)
    (hraw : t.raw = u.raw) : t.Foreign form ↔ u.Foreign form := by
  obtain ⟨-, hword, htext⟩ := mem_all.mp ht
  obtain ⟨-, hword', htext'⟩ := mem_all.mp hu
  rw [← htext, hraw, htext'] at hword
  rw [Foreign, Foreign, hword.functional hword']

/-- A token of a field that the form does not have shows the empty text. -/
theorem shows_foreign (h : s.Shaped form) (hforeign : t.Foreign form) {shown : String} :
    t.Shows rs s.snapshot (some form) escape shown ↔ shown = "" := by
  obtain ⟨a, ha, hout⟩ := hforeign
  exact Template.shows_null (Placeholder.isSignature_of_address? ha) (h.holds_null ha hout)

/-- A token has a text to show from the snapshot of a store when the value that the store has for it
is displayable; tokens of signatures have no value. -/
theorem exists_shows_iff : (∃ shown, t.Shows .standard s.snapshot (some form) escape shown) ↔
    ∀ v, s.snapshot.Holds t.placeholder v →
      Rendering.Displayable v (t.placeholder.field? form) := by
  cases hp : t.placeholder.isSignature with
  | true =>
    refine iff_of_true ⟨_, .signature hp⟩ fun v hv => ?_
    rw [isSignature_of_holds hv] at hp
    cases hp
  | false =>
    obtain ⟨w, hw⟩ := Snapshot.exists_holds (s := s.snapshot) hp rfl rfl
    rw [Template.shows_standard hp hw]
    constructor
    · intro h v hv
      rwa [holds_unique hp hv hw]
    · exact fun h => h w hw

end Token

namespace Template
variable {rs : Renderers} {form : Form} {s : Store} {escape : Bool} {t : Template}

/-- No position of a signature is too long to be read. -/
def Readable (template : String) : Prop := ∀ t ∈ Token.all template, t.isTooLong = false

theorem unknownPlaceholders_eq_ok (hn : form.WellNamed) {names : List String} :
    t.unknownPlaceholders form = .ok names ↔ Readable t.content ∧
      names = ((Token.all t.content).filter (·.Foreign form)).map (·.raw) := by
  have hfilter : (fun k : Token => !k.placeholder.isSignature && (k.placeholder.field? form).isNone) =
      fun k => decide (k.Foreign form) := by
    funext k
    rw [Bool.eq_iff_iff, decide_eq_true_iff, Token.foreign_iff hn]
    simp
  simp only [unknownPlaceholders, unknownTokens, hfilter, bind_eq_ok, pure_eq_ok, scan_eq_ok]
  constructor
  · rintro ⟨_, ⟨_, ⟨hread, rfl⟩, rfl⟩, rfl⟩
    exact ⟨hread, rfl⟩
  · rintro ⟨hread, rfl⟩
    exact ⟨_, ⟨_, ⟨hread, rfl⟩, rfl⟩, rfl⟩

theorem mem_foreign_raws {template : String} {k : Token} (hk : k ∈ Token.all template) :
    k.raw ∈ ((Token.all template).filter (·.Foreign form)).map (·.raw) ↔ k.Foreign form := by
  constructor
  · intro hmem
    obtain ⟨k', hk', hraw⟩ := List.mem_map.mp hmem
    obtain ⟨hk', hforeign⟩ := List.mem_filter.mp hk'
    exact (Token.foreign_congr hk' hk hraw).mp (of_decide_eq_true hforeign)
  · intro hforeign
    exact List.mem_map_of_mem (List.mem_filter.mpr ⟨hk, decide_eq_true hforeign⟩)

theorem bind_returns_iff_readable {template : String} {s : Snapshot} {form : Option Form} :
    (∃ c, bind rs template s form escape = .ok c) ↔
      Readable template ∧ ∀ k ∈ Token.all template, ∃ u, k.Shows rs s form escape u := by
  rw [bind_returns_iff]
  constructor
  · rintro ⟨ts, hscan, hshow⟩
    obtain ⟨hread, rfl⟩ := scan_eq_ok.mp hscan
    exact ⟨hread, hshow⟩
  · rintro ⟨hread, hshow⟩
    exact ⟨_, scan_eq_ok.mpr ⟨hread, rfl⟩, hshow⟩

/-- Binding to the values of a store fails at positions that are too long, and at tokens of the
fields of the form whose values have no text to show. -/
theorem bind_returns_iff_own {template : String} (h : s.Shaped form) :
    (∃ c, bind rs template s.snapshot (some form) escape = .ok c) ↔ Readable template ∧
      ∀ k ∈ Token.all template, ¬ k.Foreign form →
        ∃ u, k.Shows rs s.snapshot (some form) escape u := by
  rw [bind_returns_iff_readable]
  refine and_congr_right fun _ => forall₂_congr fun k _ => ?_
  constructor
  · exact fun hshow _ => hshow
  · intro hshow
    by_cases hforeign : k.Foreign form
    · exact ⟨"", (Token.shows_foreign h hforeign).mpr rfl⟩
    · exact hshow hforeign

theorem standard_bind_returns_iff {template : String} :
    (∃ c, bind .standard template s.snapshot (some form) escape = .ok c) ↔ Readable template ∧
      ∀ k ∈ Token.all template, ∀ v, s.snapshot.Holds k.placeholder v →
        Rendering.Displayable v (k.placeholder.field? form) := by
  rw [bind_returns_iff_readable]
  exact and_congr_right fun _ => forall₂_congr fun _ _ => Token.exists_shows_iff

/-- A template lists its tokens of fields that a form of a registry does not have, and when it is
bound to the values of a store for the form, whatever has been done to the store, nothing takes the
place of these tokens. The listing fails only where the position of a signature is too long to be
read. The binding fails there too, and where the value of another token has no text to show: by the
standard renderers, where it is not displayable. -/
theorem foreign_never_shown {r : Registry} {id : String} {form : Form} (hr : r.Reachable)
    (hform : r.getForm id = .ok form) (ops : List Store.Operation) (t : Template)
    (rs : Renderers) (escape : Bool) :
    let s := ((Store.empty form).run ops).snapshot
    ((∃ names, t.unknownPlaceholders form = .ok names) ↔ Readable t.content) ∧
    ((∃ c, bind rs t.content s (some form) escape = .ok c) ↔ Readable t.content ∧
      ∀ k ∈ Token.all t.content, ¬ k.Foreign form → ∃ u, k.Shows rs s (some form) escape u) ∧
    ((∃ c, bind .standard t.content s (some form) escape = .ok c) ↔ Readable t.content ∧
      ∀ k ∈ Token.all t.content, ∀ v, s.Holds k.placeholder v →
        Rendering.Displayable v (k.placeholder.field? form)) ∧
    (∀ names, t.unknownPlaceholders form = .ok names →
      names = ((Token.all t.content).filter (·.Foreign form)).map (·.raw) ∧
      ∀ k ∈ Token.all t.content, k.raw ∈ names ↔ k.Foreign form) ∧
    ∀ c, bind rs t.content s (some form) escape = .ok c →
      ∃ shown, c.toList = fill shown t.content.toList 0 (Token.all t.content) ∧
        (∀ k ∈ Token.all t.content, k.Shows rs s (some form) escape (shown k)) ∧
        ∀ k ∈ Token.all t.content, k.Foreign form → shown k = "" := by
  have hn := Registry.getForm_wellNamed hr hform
  have hshaped := (Store.shaped_empty form hn).run hn ops
  refine ⟨?_, bind_returns_iff_own hshaped, standard_bind_returns_iff, ?_, ?_⟩
  · simp only [unknownPlaceholders_eq_ok hn, exists_and_left, exists_eq, and_true]
  · intro names hnames
    obtain ⟨-, rfl⟩ := (unknownPlaceholders_eq_ok hn).mp hnames
    exact ⟨rfl, fun k hk => mem_foreign_raws hk⟩
  · intro c hc
    obtain ⟨ts, shown, hscan, hshown, hfill⟩ := bind_eq_ok_iff.mp hc
    obtain ⟨-, rfl⟩ := scan_eq_ok.mp hscan
    refine ⟨shown, hfill, hshown, ?_⟩
    intro k hk hforeign
    exact (Token.shows_foreign hshaped hforeign).mp (hshown k hk)

/-- The number of an order, a token that names a group, and tokens of groups that do not have the
field. -/
def strayLetter : Template where
  content := fieldToken none "number" ++ " " ++ fieldToken none "lines" ++
    fieldToken (some "lines") "number" ++ fieldToken (some "client") "number" ++
    String.ofList signaturesToken

theorem foreign_never_shown_strayLetter :
    strayLetter.unknownPlaceholders Store.orderForm = .ok [fieldToken none "lines",
      fieldToken (some "lines") "number", fieldToken (some "client") "number"] ∧
    bind .standard strayLetter.content ((Store.empty Store.orderForm).run Store.badEdits).snapshot
      (some Store.orderForm) true = .ok "7 \x7b\x7bsignatures\x7d\x7d" ∧
    ∃ shown, "7 \x7b\x7bsignatures\x7d\x7d".toList =
        fill shown strayLetter.content.toList 0 (Token.all strayLetter.content) ∧
      ∀ k ∈ Token.all strayLetter.content, k.Foreign Store.orderForm → shown k = "" := by
  have hform : Registry.orders.getForm "t" = .ok Store.orderForm := by decide +kernel
  have hbind : bind .standard strayLetter.content
      ((Store.empty Store.orderForm).run Store.badEdits).snapshot (some Store.orderForm) true =
        .ok "7 \x7b\x7bsignatures\x7d\x7d" := by decide +kernel
  obtain ⟨-, -, -, -, hbound⟩ := foreign_never_shown Registry.orders_reachable hform Store.badEdits
    strayLetter .standard true
  obtain ⟨shown, hfill, -, hempty⟩ := hbound _ hbind
  exact ⟨by decide +kernel, hbind, shown, hfill, hempty⟩

/-- The position of a signature with one digit more than can be read. -/
def longPosition : List Char := List.replicate (Decimal.maxIntegerDigits + 1) '1'

/-- A token of a field that orders do not have, before that of a signature. -/
def unreadable : Template where
  content := fieldToken none "color" ++ signatureToken (String.ofList longPosition)

theorem word_longPosition : Word (signatureToken (String.ofList longPosition)).toList
    (.signature (List.replicate (Decimal.maxIntegerDigits + 1) 1)) := by
  have hdigit : Text.digitValue? '1' = some 1 := by decide +kernel
  have hne : longPosition ≠ [] := by
    rw [longPosition, List.replicate_succ]
    exact List.cons_ne_nil _ _
  rw [signatureToken, String.toList_ofList, String.toList_ofList]
  refine .signature hne ?_
  rw [longPosition, List.map_replicate, List.map_replicate, hdigit]

theorem not_readable_unreadable : ¬ Readable unreadable.content := by
  intro hread
  have hmem := Token.mem_all_append word_longPosition (fieldToken none "color") ""
  rw [String.append_empty] at hmem
  have hshort := hread _ hmem
  rw [Token.isTooLong, decide_eq_false_iff_not, List.length_replicate] at hshort
  exact hshort (Nat.lt_succ_self _)

theorem foreign_not_listed : Registry.orders.Reachable ∧
    Registry.orders.getForm "t" = .ok Store.orderForm ∧
    (∃ k ∈ Token.all unreadable.content, k.Foreign Store.orderForm) ∧
    (∀ names, unreadable.unknownPlaceholders Store.orderForm ≠ .ok names) ∧
    ∀ c, bind .standard unreadable.content (Store.empty Store.orderForm).snapshot
      (some Store.orderForm) true ≠ .ok c := by
  have hform : Registry.orders.getForm "t" = .ok Store.orderForm := by decide +kernel
  have hn := Registry.getForm_wellNamed Registry.orders_reachable hform
  have hcolor : Word (fieldToken none "color").toList (.field "color") :=
    word_fieldToken (by decide +kernel) (by simp)
  have hmem := Token.mem_all_append hcolor "" (signatureToken (String.ofList longPosition))
  rw [String.empty_append] at hmem
  refine ⟨Registry.orders_reachable, hform, ⟨_, hmem, ?_⟩, ?_, ?_⟩
  · exact ⟨(none, "color"), rfl, by decide +kernel⟩
  · intro names hnames
    exact not_readable_unreadable ((unknownPlaceholders_eq_ok hn).mp hnames).1
  · intro c hc
    exact not_readable_unreadable (bind_returns_iff_readable.mp ⟨c, hc⟩).1

end Template
end DocForms
