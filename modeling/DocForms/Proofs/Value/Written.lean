import DocForms.Proofs.Fault
import DocForms.Proofs.Value.Entries
import DocForms.Value.Written

/-! Values that have texts. A list or a record has a text when all that it consists of has one. -/
namespace DocForms.Value
variable {v w : Value} {vs : List Value} {es : Entries}

theorem hasText_int {n : Int} :
    (Value.int n).hasText = true ↔ n.natAbs < 10 ^ Decimal.maxIntegerDigits := by
  rw [hasText, Atom.hasText, decide_eq_true_iff]

theorem itemsHaveText_iff : itemsHaveText vs = true ↔ ∀ v ∈ vs, v.hasText = true := by
  induction vs with
  | nil => simp [itemsHaveText]
  | cons v vs ih => rw [itemsHaveText, Bool.and_eq_true, ih, List.forall_mem_cons]

theorem entriesHaveText_iff :
    entriesHaveText es = true ↔ ∀ e ∈ es, e.1.hasText = true ∧ e.2.hasText = true := by
  induction es with
  | nil => simp [entriesHaveText]
  | cons e es ih =>
    rw [entriesHaveText, Bool.and_eq_true, Bool.and_eq_true, ih, List.forall_mem_cons]

theorem hasText_list : (list vs).hasText = true ↔ ∀ v ∈ vs, v.hasText = true := by
  rw [hasText, itemsHaveText_iff]

theorem hasText_record :
    (record es).hasText = true ↔ ∀ e ∈ es, e.1.hasText = true ∧ e.2.hasText = true := by
  rw [hasText, entriesHaveText_iff]

theorem hasText_named {data : List (String × Value)} :
    (named data).hasText = true ↔ ∀ e ∈ data, e.2.hasText = true := by
  rw [named, hasText_record, Entries.ofNames, List.forall_mem_map]
  exact forall₂_congr fun _ _ => and_iff_right rfl

theorem hasText_get? (h : (record es).hasText = true) {name : String}
    (hv : Entries.get? es name = some v) : v.hasText = true := by
  obtain ⟨e, he, rfl⟩ := Entries.mem_of_get? hv
  exact (hasText_record.mp h e he).2

theorem hasText_get (h : (record es).hasText = true) (name : String) :
    (Entries.get es name).hasText = true := by
  rw [Entries.get]
  cases hv : Entries.get? es name with
  | none => rfl
  | some v => exact hasText_get? h hv

theorem hasText_orElse (hv : v.hasText = true) (hw : w.hasText = true) :
    (v.orElse w).hasText = true := by
  unfold orElse
  split
  · exact hv
  · exact hw

/-! ### Writing -/

theorem written_of_hasText (c : Custody) (h : v.hasText = true) : v.written c = .ok (v.display c) := by
  rw [written, if_pos h]

theorem written_of_not_hasText (c : Custody) (h : v.hasText = false) :
    v.written c = misuse .content := by
  rw [written, h]
  rfl

theorem written_graceful {c : Custody} (h : v.hasText = true) : Graceful (v.written c) := by
  rw [written_of_hasText c h]
  exact graceful_ok _

end DocForms.Value
