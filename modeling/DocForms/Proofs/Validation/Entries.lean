import DocForms.Proofs.Registry.Forms
import DocForms.Proofs.Validation.Conformance
import Mathlib.Data.Set.Card

/-! The entries of the error map. Checks of the form of a registry have paths of their own, with one
exception: the row count of a group shares its path with an ungrouped field, or with a group, whose
name is that of the count. -/
namespace DocForms

theorem dot_not_mem_countKey {g : FieldGroup} (h : isName g.name = true) :
    '.' ∉ (Validation.countKey g).toList := by
  rw [Validation.countKey, String.toList_append, List.mem_append, not_or]
  exact ⟨isName_not_mem h rfl, by decide⟩

namespace Validation

/-- The row count of a group, and what else is named as the count is. -/
inductive Namesakes : Check → Check → Prop
  | field {g : FieldGroup} {rows : Nat} {f : Field} {v : Value} (h : f.name = countKey g) :
      Namesakes (.count g rows) (.field f v (.top f.name))
  | group {g g' : FieldGroup} {rows : Nat} {v : Value} (h : g'.name = countKey g) :
      Namesakes (.count g rows) (.shape g' v)

variable {form : Form} {s : Snapshot} {links : ResolvedLinks} {es : ErrorMap} {c d : Check}

theorem Namesakes.path_eq (h : Namesakes c d) : c.path = d.path := by
  cases h with
  | field h => exact h.symm
  | group h => exact h.symm

theorem Namesakes.ne (h : Namesakes c d) : c ≠ d := by
  cases h <;> nofun

/-! ### Checks and paths -/

theorem Checked.places {f : Field} {v : Value} {a : Address} (h : Checked form s (.field f v a)) :
    form.Places f a := by
  cases h with
  | top hf => exact .inl ⟨hf, rfl⟩
  | member hg _ _ hf => exact .inr ⟨_, hg, hf, .inl rfl⟩
  | cell hg _ _ _ hf => exact .inr ⟨_, hg, hf, .inr ⟨_, rfl⟩⟩

/-- The value that is checked at a place. -/
def valueAt (s : Snapshot) : Address → Value
  | .top f => Entries.get (rowEntries s.simple) f
  | .member g f => Entries.get (rowEntries (Entries.get (rowEntries s.groups) g)) f
  | .cell g i f =>
    Entries.get (rowEntries ((rowValues (Entries.get (rowEntries s.groups) g)).getD i .null)) f

theorem Checked.value {f : Field} {v : Value} {a : Address} (h : Checked form s (.field f v a)) :
    v = valueAt s a := by
  cases h with
  | top => rfl
  | member => rfl
  | cell _ _ _ hrow =>
    rw [valueAt, List.getD_eq_getElem?_getD]
    exact congrArg (fun row => Entries.get (rowEntries (row.getD .null)) _) hrow.symm

/-- At a place one value of one field is checked. -/
theorem field_eq_of_key (hn : form.WellNamed) {f f' : Field} {v v' : Value} {a a' : Address}
    (h : Checked form s (.field f v a)) (h' : Checked form s (.field f' v' a'))
    (hk : a.key = a'.key) : Check.field f v a = .field f' v' a' := by
  obtain rfl := Address.eq_of_key_eq (h.places.proper hn) (h'.places.proper hn) hk
  rw [h.places.unique hn h'.places, h.value, h'.value]

/-- A field that is checked at a key without a dot is an ungrouped one, and the key is its name. -/
theorem Checked.top_of_key {f : Field} {v : Value} {a : Address} {key : String}
    (h : Checked form s (.field f v a)) (hk : a.key = key) (hdot : '.' ∉ key.toList) :
    f ∈ form.fields ∧ f.name = key ∧ a = .top f.name := by
  have ha := Address.eq_top_of_key (hk ▸ hdot)
  rcases h.places with ⟨hf, rfl⟩ | ⟨g, -, -, rfl | ⟨i, rfl⟩⟩
  · exact ⟨hf, hk, rfl⟩
  · cases ha
  · cases ha

theorem Checked.count_cases {g : FieldGroup} {rows : Nat} (h : Checked form s (.count g rows)) :
    g ∈ form.groups ∧ rows = (rowValues (s.groupValue g)).length := by
  cases h with
  | count hg => exact ⟨hg, rfl⟩

theorem Checked.shape_cases {g : FieldGroup} {v : Value} (h : Checked form s (.shape g v)) :
    g ∈ form.groups ∧ v = s.groupValue g := by
  cases h with
  | shape hg => exact ⟨hg, rfl⟩

/-- Different checks with the same path are those of a count and its namesake. -/
theorem eq_or_namesakes (hn : form.WellNamed)
    (hapart : ∀ f ∈ form.fields, ∀ g ∈ form.groups, f.name ≠ g.name)
    (hc : Checked form s c) (hd : Checked form s d) (hp : c.path = d.path) :
    c = d ∨ Namesakes c d ∨ Namesakes d c := by
  -- counts and shapes have paths without dots, where only ungrouped fields are checked
  have field_count {f : Field} {v : Value} {a : Address} {g : FieldGroup} {rows : Nat}
      (hf : Checked form s (.field f v a)) (hg : Checked form s (.count g rows))
      (hk : a.key = countKey g) : Namesakes (.count g rows) (.field f v a) := by
    obtain ⟨-, hname, rfl⟩ := hf.top_of_key hk (dot_not_mem_countKey (hn.group g hg.count_cases.1))
    exact .field hname
  have field_shape {f : Field} {v w : Value} {a : Address} {g : FieldGroup}
      (hf : Checked form s (.field f v a)) (hg : Checked form s (.shape g w))
      (hk : a.key = g.name) : False := by
    obtain ⟨hg, -⟩ := hg.shape_cases
    obtain ⟨hf, hname, -⟩ := hf.top_of_key hk (isName_not_mem (hn.group g hg) rfl)
    exact hapart f hf g hg hname
  cases c with
  | field f v a =>
    cases d with
    | field f' v' a' => exact .inl (field_eq_of_key hn hc hd hp)
    | count g rows => exact .inr (.inr (field_count hc hd hp))
    | shape g w => exact (field_shape hc hd hp).elim
  | count g rows =>
    cases d with
    | field f v a => exact .inr (.inl (field_count hd hc hp.symm))
    | count g' rows' =>
      obtain ⟨hg, rfl⟩ := hc.count_cases
      obtain ⟨hg', rfl⟩ := hd.count_cases
      have hname : g.name = g'.name := by simpa [Check.path, countKey] using hp
      obtain rfl := List.inj_on_of_nodup_map hn.groups hg hg' hname
      exact .inl rfl
    | shape g' w => exact .inr (.inl (.group hp.symm))
  | shape g w =>
    cases d with
    | field f v a => exact (field_shape hd hc hp.symm).elim
    | count g' rows => exact .inr (.inr (.group hp))
    | shape g' w' =>
      obtain ⟨hg, rfl⟩ := hc.shape_cases
      obtain ⟨hg', rfl⟩ := hd.shape_cases
      obtain rfl := List.inj_on_of_nodup_map hn.groups hg hg' hp
      exact .inl rfl

/-! ### Entries -/

/-- The checks of a snapshot that fail. -/
def failing (form : Form) (s : Snapshot) (links : ResolvedLinks) : Set Check :=
  {c | Checked form s c ∧ c.Fails links}

theorem finite_failing : (failing form s links).Finite :=
  (checks form s).finite_toSet.subset fun _ h => mem_checks.mpr h.1

section Ended
variable (h : problems .standard form s links = .ok es)
include h

/-- There are as many entries as failing checks just if the paths of these differ. -/
theorem length_eq_iff_injOn :
    es.length = (failing form s links).ncard ↔ Set.InjOn Check.path (failing form s links) := by
  have keys : ((Keyed.names es).toFinset : Set String) = Check.path '' failing form s links := by
    ext key
    rw [List.coe_toFinset, Set.mem_ofPred, mem_keys h]
    exact exists_congr fun c => and_assoc.symm
  have length : es.length = (Check.path '' failing form s links).ncard := by
    rw [← keys, Set.ncard_coe_finset, List.toFinset_card_of_nodup (nodup_keys h), Keyed.names,
      List.length_map]
  rw [length, Set.ncard_image_iff finite_failing]

/-- The message of a failing check is reported if no other one fails with its path. -/
theorem message_of_alone (hc : c ∈ failing form s links)
    (halone : ∀ d ∈ failing form s links, d.path = c.path → d = c) :
    ∃ m, c.problem? .standard links = .ok (some m) ∧ es.message? c.path = some m := by
  obtain ⟨⟨key, m⟩, hm, hkey⟩ := List.mem_map.mp ((mem_keys h).mpr ⟨c, hc.1, hc.2, rfl⟩)
  obtain ⟨d, hd, hf, hp, hmessage⟩ := check_of_mem h hm
  obtain rfl : d = c := halone d ⟨hd, hf⟩ (hp.trans hkey)
  subst hp
  exact ⟨m, hmessage, Keyed.get?_of_mem (nodup_keys h) hm⟩

/-- If the paths of the failing checks differ, then the message of each of them is reported. -/
theorem message_of_injOn (hinj : Set.InjOn Check.path (failing form s links))
    (hc : c ∈ failing form s links) :
    ∃ m, c.problem? .standard links = .ok (some m) ∧ es.message? c.path = some m :=
  message_of_alone h hc fun _ hd hp => hinj hd hc hp

/-- In the form of a registry, every failing check has an entry of its own with its own message,
just if no row count fails together with its namesake. -/
theorem own_entries_iff {r : Registry} {id : String} (hr : r.Reachable)
    (hform : r.getForm id = .ok form) :
    (es.length = (failing form s links).ncard ∧ ∀ c ∈ failing form s links,
      ∃ m, c.problem? .standard links = .ok (some m) ∧ es.message? c.path = some m) ↔
    ∀ c ∈ failing form s links, ∀ d ∈ failing form s links, ¬ Namesakes c d := by
  constructor
  · rintro ⟨hlength, -⟩ c hc d hd hcd
    exact hcd.ne ((length_eq_iff_injOn h).mp hlength hc hd hcd.path_eq)
  · intro hno
    have hinj : Set.InjOn Check.path (failing form s links) := by
      intro c hc d hd hp
      have hn := Registry.getForm_wellNamed hr hform
      have hapart (f) (hf : f ∈ form.fields) (g) (hg : g ∈ form.groups) : f.name ≠ g.name :=
        Registry.getForm_apart hr hform hf hg
      rcases eq_or_namesakes hn hapart hc.1 hd.1 hp with rfl | hcd | hdc
      · rfl
      · exact absurd hcd (hno c hc d hd)
      · exact absurd hdc (hno d hd c hc)
    exact ⟨(length_eq_iff_injOn h).mpr hinj, fun c hc => message_of_injOn h hinj hc⟩

end Ended

theorem own_entries_of_spoiledTally : problems .standard tallyForm spoiledTally [] =
      .ok [("lines_count", "Lines allows at most 2 row(s), got 3"),
        ("lines[0].amount", "Amount is required"), ("lines[1].amount", "Amount must be a number")] ∧
    (failing tallyForm spoiledTally []).ncard = 3 := by
  have h : problems .standard tallyForm spoiledTally [] =
      .ok [("lines_count", "Lines allows at most 2 row(s), got 3"),
        ("lines[0].amount", "Amount is required"),
        ("lines[1].amount", "Amount must be a number")] := by decide +kernel
  refine ⟨h, ((own_entries_iff h tallies_reachable tallies_form).mpr ?_).1.symm⟩
  intro c hc d hd hcd
  cases hcd with
  | field hname =>
    obtain ⟨hchecked, hfails⟩ := hd
    obtain ⟨hf, -, -⟩ := hchecked.top_of_key hname (dot_not_mem_countKey
      ((Registry.getForm_wellNamed tallies_reachable tallies_form).group _ hc.1.count_cases.1))
    obtain rfl := List.mem_singleton.mp hf
    obtain rfl := hchecked.value
    have hno : fieldProblem? .standard tallyForm.fields[0]
        (valueAt spoiledTally (.top "lines_count")) "lines_count" [] = .ok none := by decide +kernel
    cases ((field_decides "lines_count" []).reports hno).mpr hfails
  | group hname =>
    obtain rfl := List.mem_singleton.mp hc.1.count_cases.1
    obtain rfl := List.mem_singleton.mp hd.1.shape_cases.1
    revert hname
    decide

theorem required_count_hidden : Registry.Reachable tallies ∧
    tallies.getForm "t" = .ok tallyForm ∧
    (failures .standard [] (checks tallyForm {})).map (fun e => (e.1.path, e.2)) =
      [("lines_count", "Count is required"),
        ("lines_count", "Lines requires at least 1 row(s), got 0")] ∧
    problems .standard tallyForm {} [] =
      .ok [("lines_count", "Lines requires at least 1 row(s), got 0")] :=
  ⟨tallies_reachable, tallies_form, by decide +kernel, by decide +kernel⟩

end Validation
end DocForms
