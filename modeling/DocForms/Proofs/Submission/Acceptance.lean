import DocForms.Proofs.Validation.Conformance
import DocForms.Proofs.Validation.Places

/-! An accepted document has passed every check, at every place of its store. -/
namespace DocForms

namespace Store
variable {s : Store} {f : Field} {g : FieldGroup} {a : Address}

theorem groupValue_snapshot (s : Store) (g : FieldGroup) : s.snapshot.groupValue g =
    ((s.groups.lookup g.name).map GroupValues.toValue).getD .null := s.groups_get g.name

theorem get_toValue (r : Row) (name : String) :
    Entries.get (Validation.rowEntries r.toValue) name = r.get name := Entries.get_ofNames r name

/-- The places of a group whose value has the right shape are among those that are checked. -/
theorem checked_group (hg : g ∈ s.form.groups) (hf : f ∈ g.fields)
    (hv : g.Takes (s.snapshot.groupValue g)) (ha : a ∈ s.places (some g) f) :
    Validation.Checked s.form s.snapshot (.field f (s.valueAt a) a) := by
  have hvalue := s.groupValue_snapshot g
  cases hr : g.repeatable with
  | false =>
    obtain rfl : a = .member g.name f.name := by simpa [places, hr] using ha
    have hsame : s.valueAt (.member g.name f.name) =
        Entries.get (Validation.rowEntries (s.snapshot.groupValue g)) f.name := by
      rw [hvalue, valueAt, groupValues]
      cases hs : s.groups.lookup g.name with
      | none => rfl
      | some v =>
        cases v with
        | row r => exact (get_toValue r f.name).symm
        | rows rs => rfl
    rw [hsame]
    exact .member hg hv hr hf
  | true =>
    cases hs : s.groups.lookup g.name with
    | none => simp [places, hr, groupValues, hs] at ha
    | some v =>
      cases v with
      | row r => simp [places, hr, groupValues, hs] at ha
      | rows rs =>
        simp only [places, hr, groupValues, hs, Option.getD_some] at ha
        obtain ⟨i, hi, rfl⟩ := List.mem_map.mp ha
        have hi : i < rs.length := List.mem_range.mp hi
        have hsame : s.valueAt (.cell g.name i f.name) =
            Entries.get (Validation.rowEntries rs[i].toValue) f.name := by
          rw [get_toValue]
          simp [valueAt, groupValues, hs, hi]
        have hrow : (Validation.rowValues (s.snapshot.groupValue g))[i]? = some rs[i].toValue := by
          rw [hvalue, hs]
          simp [GroupValues.toValue, Validation.rowValues, hi]
        rw [hsame]
        exact .cell hg hv hr hrow hf

/-- If the values of all groups have the right shapes, every place of the store is checked. -/
theorem checked_of_mem_instances
    (hv : ∀ g ∈ s.form.groups, g.Takes (s.snapshot.groupValue g)) (h : (f, a) ∈ s.instances) :
    Validation.Checked s.form s.snapshot (.field f (s.valueAt a) a) := by
  obtain ⟨⟨g, f'⟩, hmem, h⟩ := List.mem_flatMap.mp h
  obtain ⟨a', ha, he⟩ := List.mem_map.mp h
  obtain ⟨rfl, rfl⟩ := Prod.mk.inj he
  rcases List.mem_append.mp hmem with hmem | hmem
  · obtain ⟨f, hf, he⟩ := List.mem_map.mp hmem
    obtain ⟨rfl, rfl⟩ := Prod.mk.inj he
    obtain rfl := List.mem_singleton.mp ha
    have hsame : s.valueAt (.top f.name) =
        Entries.get (Validation.rowEntries s.snapshot.simple) f.name :=
      (get_toValue s.simple f.name).symm
    rw [hsame]
    exact .top hf
  · obtain ⟨g, hg, hmem⟩ := List.mem_flatMap.mp hmem
    obtain ⟨f, hf, he⟩ := List.mem_map.mp hmem
    obtain ⟨rfl, rfl⟩ := Prod.mk.inj he
    exact checked_group hg hf (hv g hg) ha

end Store

namespace Submission
variable {vs : Validators} {s : Store} {signers : Signers String} {links : ResolvedLinks}
  {d : Submission} {f : Field} {a : Address}

theorem judge_eq_ok (h : judge vs s signers links = .ok d) :
    Validation.problems vs s.form s.snapshot links = .ok [] ∧
      d = ⟨s.form.type.id, s.snapshot, signers⟩ := by
  obtain ⟨es, hes, h⟩ := bind_eq_ok.mp h
  split at h
  · rename_i hempty
    obtain rfl := List.isEmpty_iff.mp hempty
    exact ⟨hes, (pure_eq_ok.mp h).symm⟩
  · exact absurd h refuse_ne_ok

theorem accepted_passes (h : judge .standard s signers links = .ok d) {c : Validation.Check}
    (hc : Validation.Checked s.form s.snapshot c) : ¬ c.Fails links := by
  intro hfails
  have hkey := (Validation.mem_keys (judge_eq_ok h).1).mpr ⟨c, hc, hfails, rfl⟩
  cases hkey

/-- No field of an accepted document fails, at none of its places. -/
theorem accepted_field (h : judge .standard s signers links = .ok d) (hmem : (f, a) ∈ s.instances) :
    ¬ f.Fails (s.valueAt a) a.key links := by
  have hshapes : ∀ g ∈ s.form.groups, g.Takes (s.snapshot.groupValue g) := by
    intro g hg
    exact not_not.mp (accepted_passes h (.shape hg))
  exact accepted_passes h (Store.checked_of_mem_instances hshapes hmem)

/-- A link of an accepted document that is not blank is one that a lookup vouches for. -/
theorem accepted_vouched (h : judge .standard s signers links = .ok d)
    (hmem : (f, a) ∈ s.instances) (hk : f.kind = .documentLink) (hb : ¬ (s.valueAt a).Blank) :
    ∃ l, s.linkAt? a = some l ∧ l.Vouched f.linkOptions.target a.key links := by
  have hadmits : f.Admits (s.valueAt a) a.key links := by
    by_contra hrejects
    exact accepted_field h hmem (.inr (.inr ⟨hb, hrejects⟩))
  simpa [Field.Admits, hk, Store.linkAt?] using hadmits

end Submission
end DocForms
