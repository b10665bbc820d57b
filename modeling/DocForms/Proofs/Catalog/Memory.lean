import DocForms.Proofs.Fault
import DocForms.Proofs.Links.Steps
import DocForms.Service.Handler

/-! What a catalog in memory holds. Documents are only added to it, so what it has ever answered
with is held for good. -/
namespace DocForms

/-- A text is the same as nothing but itself. -/
theorem Value.eq_of_same_text {s : String} {v : Value} (h : (Value.text s).same v = true) :
    v = .text s := by
  cases v with
  | atom a =>
    cases a with
    | text t => exact congrArg Value.text (beq_iff_eq.mp h).symm
    | _ => cases h
  | _ => cases h

namespace Shelf
variable {s s' s'' : Shelf} {type number : String} {d : Document}

/-- A document of the type with just the number is there. -/
def Holds (s : Shelf) (type number : String) : Prop :=
  ∃ d ∈ s, d.typeId = type ∧ d.number = .text number

instance : Decidable (s.Holds type number) :=
  inferInstanceAs (Decidable (∃ d ∈ s, d.typeId = type ∧ d.number = .text number))

theorem mem_of_find? (h : s.find? type number = some d) :
    d ∈ s ∧ d.typeId = type ∧ d.number = .text number := by
  have hmatch := List.find?_some h
  obtain ⟨htype, hnumber⟩ := Bool.and_eq_true_iff.mp hmatch
  exact ⟨List.mem_of_find?_eq_some h, beq_iff_eq.mp htype, beq_iff_eq.mp hnumber⟩

/-- A document gives way only to another one of its type with its number. -/
theorem Holds.add (h : s.Holds type number) (hadd : s.add d = .ok s') : s'.Holds type number := by
  obtain ⟨e, he, htype, hnumber⟩ := h
  obtain ⟨-, -, hadd⟩ := bind_eq_ok.mp hadd
  obtain rfl := pure_eq_ok.mp hadd
  by_cases hsame : e.typeId == d.typeId && e.number.same d.number
  · obtain ⟨ht, hn⟩ := Bool.and_eq_true_iff.mp hsame
    rw [hnumber] at hn
    refine ⟨d, List.mem_append_right _ (List.mem_singleton.mpr rfl), ?_, ?_⟩
    · rw [← htype, beq_iff_eq.mp ht]
    · exact Value.eq_of_same_text hn
  · refine ⟨e, List.mem_append_left _ (List.mem_filter.mpr ⟨he, ?_⟩), htype, hnumber⟩
    rw [Bool.eq_false_iff.mpr hsame]
    rfl

/-- Documents have been added, or none. -/
abbrev Grows : Shelf → Shelf → Prop := Relation.ReflTransGen fun s s' => ∃ d, s.add d = .ok s'

theorem Holds.grows (h : s.Holds type number) (hg : Grows s s') : s'.Holds type number := by
  induction hg with
  | refl => exact h
  | tail _ hadd ih =>
    obtain ⟨d, hadd⟩ := hadd
    exact ih.add hadd

/-- A catalog that answers from the documents of a shelf, or from those that it had earlier. When
it answers is left open. -/
def Backs (s : Shelf) (c : Catalog) : Prop :=
  ∃ old, Grows old s ∧ c.replyTo = (Service.catalogOf old).replyTo

theorem backs_catalogOf (s : Shelf) : s.Backs (Service.catalogOf s) := ⟨s, .refl, rfl⟩

/-- A document that has been answered with has the number that was asked for, and such a document of
the type is held from then on. -/
theorem Backs.found {c : Catalog} (hc : s.Backs c) (h : c.replyTo type number = .found d) :
    d.number = .text number ∧ s.Holds type number := by
  obtain ⟨old, hg, hreply⟩ := hc
  have hfound : old.find? type number = some d := by
    rw [hreply] at h
    unfold Service.catalogOf at h
    dsimp only at h
    split at h
    · rename_i e he
      rw [he, Reply.found.inj h]
    · cases h
  obtain ⟨hmem, htype, hnumber⟩ := mem_of_find? hfound
  have hold : old.Holds type number := ⟨d, hmem, htype, hnumber⟩
  exact ⟨hnumber, hold.grows hg⟩

end Shelf
end DocForms
