import DocForms.Proofs.Registry.Consistency

/-! The codes and names in a registry. -/
namespace DocForms

/-- One or more capital letters, digits, underscores and hyphens. -/
def CodeShape (s : String) : Prop :=
  s ≠ "" ∧ ∀ c ∈ s.toList, 'A' ≤ c ∧ c ≤ 'Z' ∨ '0' ≤ c ∧ c ≤ '9' ∨ c = '_' ∨ c = '-'

/-- A lower-case letter, and after it nothing but lower-case letters, digits and underscores. -/
def NameShape (s : String) : Prop :=
  ∃ c cs, s.toList = c :: cs ∧ ('a' ≤ c ∧ c ≤ 'z') ∧
    ∀ d ∈ cs, 'a' ≤ d ∧ d ≤ 'z' ∨ '0' ≤ d ∧ d ≤ '9' ∨ d = '_'

theorem isDigit_range {c : Char} (h : c.isDigit = true) : '0' ≤ c ∧ c ≤ '9' := by
  simpa [Char.isDigit, Char.le_def] using h

theorem isUpper_range {c : Char} (h : c.isUpper = true) : 'A' ≤ c ∧ c ≤ 'Z' := by
  rw [Char.le_def, Char.le_def]
  exact of_decide_eq_true h

theorem codeShape_of_isCode {s : String} (h : isCode s = true) : CodeShape s := by
  simp only [isCode, Bool.and_eq_true, bne_iff_ne, List.all_eq_true] at h
  refine ⟨h.1, fun c hc => ?_⟩
  have hc := h.2 c hc
  simp only [isCodeChar, Bool.or_eq_true, beq_iff_eq] at hc
  rcases hc with ((hu | hd) | rfl) | rfl
  · exact .inl (isUpper_range hu)
  · exact .inr (.inl (isDigit_range hd))
  · simp
  · simp

theorem nameShape_of_isName {s : String} (h : isName s = true) : NameShape s := by
  unfold isName at h
  split at h
  · cases h
  · rename_i c cs hs
    simp only [Bool.and_eq_true, isLowerLetter, decide_eq_true_eq, List.all_eq_true] at h
    refine ⟨c, cs, hs, h.1, fun d hd => ?_⟩
    have hd := h.2 d hd
    simp only [isNameChar, isLowerLetter, Bool.or_eq_true, Bool.and_eq_true, decide_eq_true_eq,
      beq_iff_eq] at hd
    rcases hd with (hl | hn) | rfl
    · exact .inl hl
    · exact .inr (.inl (isDigit_range hn))
    · simp

namespace Registry
variable {r : Registry}

theorem nodup_codes (h : r.Consistent) : (r.types.map DocumentType.code).Nodup :=
  h.identified.types.of_map.map_on fun t ht u hu hc =>
    List.inj_on_of_nodup_map h.identified.types ht hu (h.named.codes t ht u hu hc)

theorem nodup_fieldNames (h : r.Consistent) (typeId : String) :
    ((r.fieldsOf typeId).map Field.name).Nodup := by
  refine (h.identified.fields.of_map.filter _).map_on fun f hf g hg hn => ?_
  obtain ⟨hf, hft⟩ := List.mem_filter.mp hf
  obtain ⟨hg, hgt⟩ := List.mem_filter.mp hg
  refine List.inj_on_of_nodup_map h.identified.fields hf hg (h.named.fields f hf g hg ?_ hn)
  simp_all

theorem nodup_groupNames (h : r.Consistent) (typeId : String) :
    ((r.groupsOf typeId).map Group.name).Nodup := by
  refine (h.identified.groups.of_map.filter _).map_on fun f hf g hg hn => ?_
  obtain ⟨hf, hft⟩ := List.mem_filter.mp hf
  obtain ⟨hg, hgt⟩ := List.mem_filter.mp hg
  refine List.inj_on_of_nodup_map h.identified.groups hf hg (h.named.groups f hf g hg ?_ hn)
  simp_all

/-- Whatever operations have been made, codes are well-formed and differ, the field names of a type
differ, its group names differ from each other and from the names of its ungrouped fields, names
are well-formed, and the bounds on the rows of every group fit. -/
theorem naming_invariant (h : Reachable r) :
    (r.types.map (·.code)).Nodup ∧ (∀ t ∈ r.types, CodeShape t.code) ∧
    (∀ typeId, ((r.fieldsOf typeId).map (·.name)).Nodup ∧ ((r.groupsOf typeId).map (·.name)).Nodup ∧
      ∀ g ∈ r.groupsOf typeId, ∀ f ∈ r.scope typeId none, g.name ≠ f.name) ∧
    (∀ f ∈ r.fields, NameShape f.name) ∧ (∀ g ∈ r.groups, NameShape g.name) ∧
    ∀ g ∈ r.groups, RowsFit g := by
  have hc := h.consistent
  refine ⟨nodup_codes hc, fun t ht => codeShape_of_isCode (hc.named.code t ht), fun typeId => ?_,
    fun f hf => nameShape_of_isName (hc.named.field f hf),
    fun g hg => nameShape_of_isName (hc.named.group g hg), hc.rows⟩
  refine ⟨nodup_fieldNames hc typeId, nodup_groupNames hc typeId, fun g hg f hf => ?_⟩
  simp only [groupsOf, scope, fieldsOf, List.mem_filter, beq_iff_eq] at hg hf
  exact (hc.named.apart f hf.1.1 hf.2 g hg.1 (hf.1.2.trans hg.2.symm)).symm

theorem naming_orders : Reachable orders ∧ (orders.types.map (·.code)) = ["PO"] ∧
    ((orders.fieldsOf "t").map (·.name)).Nodup ∧
    (orders.fieldsOf "t").map (·.name) = ["amount", "number"] :=
  ⟨orders_reachable, by decide +kernel, ((naming_invariant orders_reachable).2.2.1 "t").1,
    by decide +kernel⟩

end Registry
end DocForms
