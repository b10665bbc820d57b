import DocForms.Proofs.Decimal.Short
import DocForms.Proofs.Value.Written
import DocForms.Value.Access

/-! Values that requests can hold. What is read from JSON is keyed by texts, and its numbers are short
enough to be written. A record stays so when such values are put into it. -/
namespace DocForms

/-- A scalar that a JSON text can hold, of which the whole part has a text if it is a number. -/
def Atom.isSendable : Atom → Bool
  | .float x => x.truncate?.all fun n => (Atom.int n).hasText
  | .date _ | .moment _ => false
  | a => a.hasText

theorem Atom.hasText_int {n : Int} : (Atom.int n).hasText = true ↔ Decimal.Short n := by
  rw [hasText, decide_eq_true_iff, Decimal.Short]

theorem Atom.isSendable_int {n : Int} : (Atom.int n).isSendable = true ↔ Decimal.Short n := by
  rw [isSendable, hasText_int] <;> nofun

/-- Whether a key is a text. -/
def Atom.isText : Atom → Bool
  | .text _ => true
  | _ => false

namespace Value

mutual

/-- Whether a JSON text can hold a value. -/
def isSendable : Value → Bool
  | .atom a => a.isSendable
  | .link _ => false
  | .list items => itemsSendable items
  | .record entries => entriesSendable entries

/-- Whether a JSON text can hold the items of a list. -/
def itemsSendable : List Value → Bool
  | [] => true
  | v :: vs => isSendable v && itemsSendable vs

/-- Whether a JSON text can hold the entries of a record. -/
def entriesSendable : List (Atom × Value) → Bool
  | [] => true
  | (k, v) :: es => k.isText && isSendable v && entriesSendable es

end

/-- A value that a JSON text can hold. -/
def Sendable (v : Value) : Prop := v.isSendable = true

instance : DecidablePred Sendable := fun v => inferInstanceAs (Decidable (v.isSendable = true))

variable {v w : Value} {vs : List Value} {es more : Entries} {data : List (String × Value)}

theorem itemsSendable_iff : itemsSendable vs = true ↔ ∀ v ∈ vs, v.Sendable := by
  induction vs with
  | nil => simp [itemsSendable]
  | cons v vs ih => rw [itemsSendable, Bool.and_eq_true, ih, List.forall_mem_cons, Sendable]

theorem entriesSendable_iff :
    entriesSendable es = true ↔ ∀ e ∈ es, e.1.isText = true ∧ e.2.Sendable := by
  induction es with
  | nil => simp [entriesSendable]
  | cons e es ih =>
    rw [entriesSendable, Bool.and_eq_true, Bool.and_eq_true, ih, List.forall_mem_cons, Sendable]

theorem sendable_list : (list vs).Sendable ↔ ∀ v ∈ vs, v.Sendable := by
  rw [Sendable, isSendable, itemsSendable_iff]

theorem sendable_record :
    (record es).Sendable ↔ ∀ e ∈ es, e.1.isText = true ∧ e.2.Sendable := by
  rw [Sendable, isSendable, entriesSendable_iff]

theorem sendable_named : (named data).Sendable ↔ ∀ e ∈ data, e.2.Sendable := by
  rw [named, sendable_record, Entries.ofNames, List.forall_mem_map]
  exact forall₂_congr fun _ _ => and_iff_right rfl

theorem sendable_text (s : String) : (text s).Sendable := rfl

theorem sendable_bool (b : Bool) : (bool b).Sendable := rfl

theorem sendable_int {n : Int} : (int n).Sendable ↔ Decimal.Short n := by
  rw [Sendable, isSendable, Atom.isSendable_int]

theorem sendable_text? (s : Option String) : (text? s).Sendable := by
  cases s <;> rfl

/-! ### Records -/

theorem eq_record_of_entries (h : v.entries = .ok es) : v = .record es := by
  unfold entries at h
  split at h
  · exact congrArg Value.record (Except.ok.inj h)
  · cases h

theorem sendable_get? (h : (record es).Sendable) {name : String}
    (hv : Entries.get? es name = some v) : v.Sendable := by
  obtain ⟨e, he, rfl⟩ := Entries.mem_of_get? hv
  exact (sendable_record.mp h e he).2

theorem sendable_get (h : (record es).Sendable) (name : String) :
    (Entries.get es name).Sendable := by
  rw [Entries.get]
  cases hv : Entries.get? es name with
  | none => rfl
  | some v => exact sendable_get? h hv

theorem sendable_put (hes : (record es).Sendable) {key : Atom} (hkey : key.isText = true)
    (hv : v.Sendable) : (record (es.put key v)).Sendable := by
  rw [sendable_record] at hes ⊢
  intro e he
  rcases Entries.mem_put he with he | ⟨rfl, rfl | ⟨w, hw⟩⟩
  · exact hes e he
  · exact ⟨hkey, hv⟩
  · exact ⟨(hes _ hw).1, hv⟩

theorem sendable_set (hes : (record es).Sendable) (name : String) (hv : v.Sendable) :
    (record (es.set name v)).Sendable := sendable_put hes rfl hv

theorem sendable_merge (hes : (record es).Sendable) (hmore : (record more).Sendable) :
    (record (Entries.merge es more)).Sendable := by
  induction more generalizing es with
  | nil => exact hes
  | cons e more ih =>
    obtain ⟨he, hrest⟩ := List.forall_mem_cons.mp (sendable_record.mp hmore)
    exact ih (sendable_put hes he.1 he.2) (sendable_record.mpr hrest)

theorem sendable_orNull (hv : v.Sendable) : v.orNull.Sendable := by
  unfold orNull
  split
  · exact hv
  · rfl

/-! ### Numbers -/

theorem sendable_ofNumber {n : Number} (hv : v.Sendable) (hn : v.number? = some n) :
    (ofNumber n).Sendable := by
  unfold number? at hn
  split at hn
  · obtain rfl := Option.some.inj hn
    exact hv
  · obtain rfl := Option.some.inj hn
    exact hv
  · cases hn

/-- The integer that a value stands for has a text. -/
theorem short_of_toInteger {n : Int} (hv : v.Sendable) (hn : v.toInteger = .ok n) :
    Decimal.Short n := by
  unfold toInteger at hn
  split at hn
  · obtain rfl := Except.ok.inj hn
    exact sendable_int.mp hv
  · obtain rfl := Except.ok.inj hn
    exact Decimal.short_of_lt_ten (by split <;> decide)
  · split at hn
    · cases hn
    · cases hn
    · rename_i x _ _ _
      obtain rfl := Except.ok.inj hn
      cases hx : x.truncate? with
      | none => exact Decimal.short_of_lt_ten (by decide)
      | some n =>
        have hall : x.truncate?.all (fun n => (Atom.int n).hasText) = true := hv
        rw [hx, Option.all_some] at hall
        exact Atom.hasText_int.mp hall
  · split at hn
    · rename_i s n hread
      obtain rfl := Except.ok.inj hn
      exact Decimal.readInt?_short hread
    · cases hn
  · cases hn

end Value
end DocForms
