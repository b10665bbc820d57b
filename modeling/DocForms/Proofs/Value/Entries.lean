import DocForms.Value.Same
import Mathlib.Tactic.Common

/-! Entries under names: a text is the same key as nothing but itself, so what is put under another
key leaves a name as it was, and nothing but what is put comes into a record. -/
namespace DocForms

theorem Atom.text_same_iff {s : String} {a : Atom} : Atom.same (.text s) a = true ↔ a = .text s := by
  cases a with
  | text t =>
    exact ⟨fun h => congrArg Atom.text (beq_iff_eq.mp h).symm,
      fun h => beq_iff_eq.mpr (Atom.text.inj h).symm⟩
  | _ => simp [same, number?]

theorem Atom.same_text_iff {s : String} {a : Atom} : a.same (.text s) = true ↔ a = .text s := by
  cases a with
  | float x => cases x <;> simp [same, number?]
  | _ => simp [same, number?]

/-- A text is all that is the same as it. -/
theorem Value.same_text_iff {s : String} {v : Value} : v.same (.text s) = true ↔ v = .text s := by
  cases v with
  | atom a => exact Atom.same_text_iff.trans (Value.atom.injEq a (.text s) ▸ Iff.rfl)
  | _ => exact iff_of_false nofun nofun

namespace Entries
variable {es more : Entries} {name : String}

/-- An entry that is put stands under its own key or in the place of one that was there. -/
theorem mem_put {key : Atom} {v : Value} {e : Atom × Value} (h : e ∈ es.put key v) :
    e ∈ es ∨ e.2 = v ∧ (e.1 = key ∨ ∃ w, (e.1, w) ∈ es) := by
  induction es with
  | nil =>
    obtain rfl := List.mem_singleton.mp h
    exact .inr ⟨rfl, .inl rfl⟩
  | cons x es ih =>
    obtain ⟨k, w⟩ := x
    rw [put] at h
    split at h
    · rcases List.mem_cons.mp h with rfl | h
      · exact .inr ⟨rfl, .inr ⟨w, List.mem_cons_self ..⟩⟩
      · exact .inl (List.mem_cons_of_mem _ h)
    · rcases List.mem_cons.mp h with rfl | h
      · exact .inl (List.mem_cons_self ..)
      · rcases ih h with h | ⟨hv, h | ⟨u, h⟩⟩
        · exact .inl (List.mem_cons_of_mem _ h)
        · exact .inr ⟨hv, .inl h⟩
        · exact .inr ⟨hv, .inr ⟨u, List.mem_cons_of_mem _ h⟩⟩

theorem mem_of_get? {v : Value} (h : get? es name = some v) : ∃ e ∈ es, e.2 = v := by
  obtain ⟨e, he, rfl⟩ := Option.map_eq_some_iff.mp h
  exact ⟨e, List.mem_of_find?_eq_some he, rfl⟩

theorem get_put {key : Atom} (h : key ≠ .text name) (v : Value) :
    get (es.put key v) name = get es name := by
  have hkey : Atom.same (.text name) key = false :=
    Bool.eq_false_iff.mpr (mt Atom.text_same_iff.mp h)
  suffices hfind : lookup? (.text name) (es.put key v) = lookup? (.text name) es by
    rw [get, get, get?, get?, hfind]
  induction es with
  | nil => simp [put, lookup?, hkey]
  | cons e es ih =>
    obtain ⟨k, w⟩ := e
    rw [put]
    split
    · rename_i hk
      have hother : Atom.same (.text name) k = false := by
        refine Bool.eq_false_iff.mpr fun hname => h ?_
        rw [Atom.text_same_iff.mp hname] at hk
        exact Atom.same_text_iff.mp hk
      simp [lookup?, hother]
    · simp only [lookup?, List.find?_cons] at ih ⊢
      cases Atom.same (.text name) k with
      | true => rfl
      | false => exact ih

/-- A name that changes do not have is looked up as before. -/
theorem get_merge (h : more.has name = false) : get (es.merge more) name = get es name := by
  induction more generalizing es with
  | nil => rfl
  | cons e more ih =>
    simp only [has, hasKey, List.any_cons, Bool.or_eq_false_iff] at h
    have hkey : e.1 ≠ .text name := fun he => by simp [he, Atom.same] at h
    rw [merge, List.foldl_cons]
    exact (ih h.2).trans (get_put hkey e.2)

theorem get_eq_text {s : String} : get es name = .text s ↔ get? es name = some (.text s) := by
  rw [get]
  cases get? es name with
  | none => exact iff_of_false nofun nofun
  | some w => exact Option.some_inj.symm

theorem get?_eq_none : get? es name = none ↔ has es name = false := by
  rw [get?, lookup?, Option.map_eq_none_iff, List.find?_eq_none, has, hasKey, List.any_eq_false]

/-- What is put under a name that is not in use comes last. -/
theorem set_of_absent (h : has es name = false) (v : Value) :
    set es name v = es ++ [(.text name, v)] := by
  induction es with
  | nil => rfl
  | cons e es ih =>
    obtain ⟨he, hes⟩ := Bool.or_eq_false_iff.mp h
    have hset : set (e :: es) name v = e :: set es name v := if_neg (Bool.eq_false_iff.mp he)
    rw [hset, ih hes, List.cons_append]

theorem get?_append (es fs : Entries) (name : String) :
    get? (es ++ fs) name = (get? es name).or (get? fs name) := by
  rw [get?, lookup?, List.find?_append, Option.map_or]
  rfl

end Entries
end DocForms
