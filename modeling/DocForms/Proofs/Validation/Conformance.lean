import DocForms.Proofs.Registry.Consistency
import DocForms.Proofs.Validation.Messages
import DocForms.Proofs.Validation.Rules

/-! Validation is conformance to the form. It ends unless one of its checks is stuck, and then the
keys of the error map are the paths of the checks that fail. -/
namespace DocForms

/-- The value of a group in a snapshot. -/
def Snapshot.groupValue (s : Snapshot) (g : FieldGroup) : Value :=
  Entries.get (Validation.rowEntries s.groups) g.name

namespace Validation

/-- The checks of a snapshot. Of a group whose value has the wrong shape, only the shape is checked.
Every row of a repeatable group is checked, and one that is no record counts as empty. -/
inductive Checked (form : Form) (s : Snapshot) : Check → Prop
  | top {f : Field} (hf : f ∈ form.fields) :
      Checked form s (.field f (Entries.get (rowEntries s.simple) f.name) (.top f.name))
  | shape {g : FieldGroup} (hg : g ∈ form.groups) : Checked form s (.shape g (s.groupValue g))
  | member {g : FieldGroup} {f : Field} (hg : g ∈ form.groups) (hv : g.Takes (s.groupValue g))
      (hr : g.repeatable = false) (hf : f ∈ g.fields) :
      Checked form s (.field f (Entries.get (rowEntries (s.groupValue g)) f.name)
        (.member g.name f.name))
  | count {g : FieldGroup} (hg : g ∈ form.groups) (hv : g.Takes (s.groupValue g))
      (hr : g.repeatable = true) : Checked form s (.count g (rowValues (s.groupValue g)).length)
  | cell {g : FieldGroup} {f : Field} {i : Nat} {row : Value} (hg : g ∈ form.groups)
      (hv : g.Takes (s.groupValue g)) (hr : g.repeatable = true)
      (hrow : (rowValues (s.groupValue g))[i]? = some row) (hf : f ∈ g.fields) :
      Checked form s (.field f (Entries.get (rowEntries row) f.name) (.cell g.name i f.name))

namespace Check

/-- What it means that a check fails. -/
def Fails (links : ResolvedLinks) : Check → Prop
  | field f v a => f.Fails v a.key links
  | count g rows => ¬ g.Bears rows
  | shape g v => ¬ g.Takes v

/-- What it means that a check has no outcome. -/
def Stuck : Check → Prop
  | field f v _ => f.Stuck v
  | count g rows => g.Uncounted rows
  | shape _ _ => False

end Check

variable {form : Form} {s : Snapshot} {links : ResolvedLinks} {es : ErrorMap} {g : FieldGroup}
  {v : Value} {c : Check}

theorem shapeProblem_isSome : (shapeProblem? g v).isSome = true ↔ ¬ g.Takes v := by
  unfold shapeProblem?
  split
  · exact iff_of_false (by simp) (not_not_intro .none)
  · rename_i hr
    exact iff_of_false (by simp) (not_not_intro (.rows hr _))
  · rename_i hr hnull hlist
    refine iff_of_true rfl ?_
    rintro (_ | ⟨_, vs⟩ | ⟨hr', _⟩)
    · exact hnull rfl
    · exact hlist vs rfl
    · cases hr.symm.trans hr'
  · exact iff_of_false (by simp) (not_not_intro .none)
  · rename_i hr
    exact iff_of_false (by simp) (not_not_intro (.row hr _))
  · rename_i hr hnull hrecord
    refine iff_of_true rfl ?_
    rintro (_ | ⟨hr', _⟩ | ⟨_, es⟩)
    · exact hnull rfl
    · cases hr.symm.trans hr'
    · exact hrecord es rfl

theorem check_decides : Decides (c.problem? .standard links) (c.Fails links) c.Stuck := by
  cases c with
  | field f v a => exact field_decides a.key links
  | count g rows => exact count_decides
  | shape g v => exact decides_ok shapeProblem_isSome id

/-! ### The checks -/

theorem mem_rowChecks {address : String → Address} {row : Entries} :
    c ∈ rowChecks g address row ↔
      ∃ f ∈ g.fields, .field f (Entries.get row f.name) (address f.name) = c :=
  List.mem_map

theorem mem_rowsChecks {rows : List Value} : c ∈ rowsChecks g rows ↔ c = .count g rows.length ∨
    ∃ i row, rows[i]? = some row ∧ c ∈ rowChecks g (.cell g.name i) (rowEntries row) := by
  rw [rowsChecks, List.mem_cons, List.mem_flatMap]
  refine or_congr .rfl ⟨?_, ?_⟩
  · rintro ⟨⟨row, i⟩, hmem, hc⟩
    exact ⟨i, row, List.mem_zipIdx_iff_getElem?.mp hmem, hc⟩
  · rintro ⟨i, row, hi, hc⟩
    exact ⟨(row, i), List.mem_zipIdx_iff_getElem?.mpr hi, hc⟩

theorem mem_groupChecks : c ∈ groupChecks g v ↔ c = .shape g v ∨ g.Takes v ∧
    if g.repeatable = true then c ∈ rowsChecks g (rowValues v)
    else c ∈ rowChecks g (.member g.name) (rowEntries v) := by
  rw [groupChecks, List.mem_cons]
  refine or_congr .rfl ?_
  by_cases hv : g.Takes v
  · rw [if_neg (mt shapeProblem_isSome.mp (not_not_intro hv))]
    cases g.repeatable <;> simp [hv]
  · rw [if_pos (shapeProblem_isSome.mpr hv)]
    simp [hv]

theorem mem_checks : c ∈ checks form s ↔ Checked form s c := by
  rw [checks, List.mem_append, List.mem_map, List.mem_flatMap]
  constructor
  · rintro (⟨f, hf, rfl⟩ | ⟨g, hg, hc⟩)
    · exact .top hf
    · rcases mem_groupChecks.mp hc with rfl | ⟨hv, hc⟩
      · exact .shape hg
      · split at hc
        · rename_i hr
          rcases mem_rowsChecks.mp hc with rfl | ⟨i, row, hi, hc⟩
          · exact .count hg hv hr
          · obtain ⟨f, hf, rfl⟩ := mem_rowChecks.mp hc
            exact .cell hg hv hr hi hf
        · rename_i hr
          obtain ⟨f, hf, rfl⟩ := mem_rowChecks.mp hc
          exact .member hg hv (Bool.eq_false_iff.mpr hr) hf
  · rintro (hf | hg | ⟨hg, hv, hr, hf⟩ | ⟨hg, hv, hr⟩ | ⟨hg, hv, hr, hi, hf⟩)
    · exact .inl ⟨_, hf, rfl⟩
    · exact .inr ⟨_, hg, mem_groupChecks.mpr (.inl rfl)⟩
    · refine .inr ⟨_, hg, mem_groupChecks.mpr (.inr ⟨hv, ?_⟩)⟩
      rw [if_neg (by simp [hr])]
      exact mem_rowChecks.mpr ⟨_, hf, rfl⟩
    · refine .inr ⟨_, hg, mem_groupChecks.mpr (.inr ⟨hv, ?_⟩)⟩
      rw [if_pos hr]
      exact mem_rowsChecks.mpr (.inl rfl)
    · refine .inr ⟨_, hg, mem_groupChecks.mpr (.inr ⟨hv, ?_⟩)⟩
      rw [if_pos hr]
      exact mem_rowsChecks.mpr (.inr ⟨_, _, hi, mem_rowChecks.mpr ⟨_, hf, rfl⟩⟩)

/-! ### Endings and keys -/

/-- A registry with a type of tallies: a count, and one or two lines with large amounts. -/
def tallies : Registry :=
  let r := Registry.empty.after { given := some "t" }
    (.defineType (.named [("name", .text "Tally"), ("code", .text "TALLY")]))
  let r := r.after { given := some "g" } (.defineGroup "t" (.named [("name", .text "lines"),
    ("label", .text "Lines"), ("isRepeatable", .bool true), ("minRepeats", .int 1),
    ("maxRepeats", .int 2)]))
  let r := r.after { given := some "a" } (.defineField "t" (.named [("name", .text "amount"),
    ("label", .text "Amount"), ("type", .text "number"), ("required", .bool true),
    ("validationRules", .named [("min", .int (10 ^ 400))]),
    ("documentFieldGroupId", .text "g")]) true)
  r.after { given := some "c" } (.defineField "t" (.named [("name", .text "lines_count"),
    ("label", .text "Count"), ("required", .bool true)]) true)

theorem tallies_reachable : Registry.Reachable tallies := by
  unfold tallies
  refine .step (.step (.step (.step .empty _ _ ?_) _ _ ?_) _ _ ?_) _ _ ?_
  · show Registry.type? _ "t" = none
    decide +kernel
  · show Registry.group? _ "g" = none
    decide +kernel
  · show Registry.field? _ "a" = none
    decide +kernel
  · show Registry.field? _ "c" = none
    decide +kernel

/-- The form of a tally. -/
def tallyForm : Form where
  type := { id := "t", name := "Tally", code := "TALLY" }
  fields := [
    { id := "c", typeId := "t", name := "lines_count", label := "Count", kind := .text,
      required := true }]
  groups := [
    { id := "g", typeId := "t", name := "lines", label := "Lines", repeatable := true,
      minRows := some 1, maxRows := some 2,
      fields := [
        { id := "a", typeId := "t", name := "amount", label := "Amount", kind := .number,
          required := true, groupId := some "g",
          rules := some { minimum := some (.int (10 ^ 400)) } }] }]

theorem tallies_form : tallies.getForm "t" = .ok tallyForm := by decide +kernel

/-- Validation has an outcome just if the parts that the form looks into are records and no check
is stuck. -/
theorem ends_iff_not_stuck : (∃ es, problems .standard form s links = .ok es) ↔
    Readable form s ∧ ∀ c, Checked form s c → ¬ c.Stuck := by
  constructor
  · rintro ⟨es, h⟩
    obtain ⟨hr, hall, -⟩ := problems_eq_ok_iff.mp h
    exact ⟨hr, fun c hc => check_decides.ends.mp (hall c (mem_checks.mpr hc))⟩
  · rintro ⟨hr, hall⟩
    refine ⟨_, problems_eq_ok_iff.mpr ⟨hr, fun c hc => ?_, rfl⟩⟩
    exact check_decides.ends.mpr (hall c (mem_checks.mp hc))

theorem amount_below_huge_bound : Registry.Reachable tallies ∧
    tallies.getForm "t" = .ok tallyForm ∧
    problems .standard tallyForm ⟨.named [("lines_count", .text "1")],
      .named [("lines", .list [.named [("amount", .int 5)]])]⟩ [] = .error (.misuse .magnitude) :=
  ⟨tallies_reachable, tallies_form, by decide +kernel⟩

/-- A check that ends fails just if it gives a message. -/
theorem exists_mem_failures (h : ∀ c ∈ checks form s, ∃ o, c.problem? .standard links = .ok o) :
    (∃ m, (c, m) ∈ failures .standard links (checks form s)) ↔
      Checked form s c ∧ c.Fails links := by
  rw [← mem_checks]
  constructor
  · rintro ⟨m, hm⟩
    obtain ⟨hc, hp⟩ := mem_failures.mp hm
    exact ⟨hc, (check_decides.reports hp).mp rfl⟩
  · rintro ⟨hc, hf⟩
    obtain ⟨o, ho⟩ := h c hc
    obtain ⟨m, rfl⟩ := Option.isSome_iff_exists.mp ((check_decides.reports ho).mpr hf)
    exact ⟨m, mem_failures.mpr ⟨hc, ho⟩⟩

section Ended
variable (h : problems .standard form s links = .ok es)
include h

theorem nodup_keys : (Keyed.names es).Nodup := by
  obtain ⟨-, -, rfl⟩ := problems_eq_ok_iff.mp h
  exact nodup_names_collect List.nodup_nil

theorem mem_keys {key : String} :
    key ∈ Keyed.names es ↔ ∃ c, Checked form s c ∧ c.Fails links ∧ c.path = key := by
  obtain ⟨-, hall, rfl⟩ := problems_eq_ok_iff.mp h
  refine mem_names_collect.trans ⟨?_, ?_⟩
  · rintro (hkey | ⟨⟨c, m⟩, hm, rfl⟩)
    · cases hkey
    · obtain ⟨hc, hf⟩ := (exists_mem_failures hall).mp ⟨m, hm⟩
      exact ⟨c, hc, hf, rfl⟩
  · rintro ⟨c, hc, hf, rfl⟩
    obtain ⟨m, hm⟩ := (exists_mem_failures hall).mpr ⟨hc, hf⟩
    exact .inr ⟨(c, m), hm, rfl⟩

/-- A message is that of a failing check with the key as its path. -/
theorem check_of_mem {key m : String} (hm : (key, m) ∈ es) : ∃ c, Checked form s c ∧
    c.Fails links ∧ c.path = key ∧ c.problem? .standard links = .ok (some m) := by
  obtain ⟨-, hall, rfl⟩ := problems_eq_ok_iff.mp h
  rcases mem_collect hm with hm | ⟨⟨c, m'⟩, he, hx⟩
  · cases hm
  · obtain ⟨rfl, rfl⟩ := Prod.mk.inj hx
    obtain ⟨hc, hf⟩ := (exists_mem_failures hall).mp ⟨m, he⟩
    exact ⟨c, hc, hf, rfl, (mem_failures.mp he).2⟩

/-- When validation ends, the keys of the error map are the paths of the checks that fail, each of
them once. -/
theorem keys_iff_failing : (es.map (·.1)).Nodup ∧
    ∀ key, key ∈ es.map (·.1) ↔ ∃ c, Checked form s c ∧ c.Fails links ∧ c.path = key :=
  ⟨nodup_keys h, fun _ => mem_keys h⟩

end Ended

/-- A tally with a line too many. The first line is no record, and the second has no number. -/
def spoiledTally : Snapshot :=
  ⟨.named [("lines_count", .text "3")], .named [("lines", .list [.int 7,
    .named [("amount", .text "x")], .named [("amount", .int (10 ^ 400))]])]⟩

theorem keys_of_spoiledTally : problems .standard tallyForm spoiledTally [] =
      .ok [("lines_count", "Lines allows at most 2 row(s), got 3"),
        ("lines[0].amount", "Amount is required"), ("lines[1].amount", "Amount must be a number")] ∧
    ∀ key, key ∈ ["lines_count", "lines[0].amount", "lines[1].amount"] ↔
      ∃ c, Checked tallyForm spoiledTally c ∧ c.Fails [] ∧ c.path = key := by
  have h : problems .standard tallyForm spoiledTally [] =
      .ok [("lines_count", "Lines allows at most 2 row(s), got 3"),
        ("lines[0].amount", "Amount is required"),
        ("lines[1].amount", "Amount must be a number")] := by decide +kernel
  exact ⟨h, (keys_iff_failing h).2⟩

end Validation
end DocForms
