import DocForms.Proofs.Keyed
import DocForms.Proofs.Validation.Checks

/-! The error map that failing checks are collected in. Its keys are the paths of the checks, each
of them once, and each message is that of a check with the path. -/
namespace DocForms
variable {es : ErrorMap} {key m : String}

namespace ErrorMap

theorem any_key : es.any (·.1 == key) = true ↔ key ∈ Keyed.names es := by
  simp [Keyed.names, List.any_eq_true]

theorem report_of_mem (h : key ∈ Keyed.names es) : es.report key m = es := by
  rw [report, if_pos (any_key.mpr h)]

theorem report_of_not_mem (h : key ∉ Keyed.names es) : es.report key m = es ++ [(key, m)] := by
  rw [report, if_neg (mt any_key.mp h)]

theorem names_overwrite_of_mem (h : key ∈ Keyed.names es) :
    Keyed.names (es.overwrite key m) = Keyed.names es := by
  rw [overwrite, if_pos (any_key.mpr h), Keyed.names, List.map_map]
  apply List.map_congr_left
  intro e he
  by_cases hk : e.1 = key <;> simp [hk]

theorem overwrite_of_not_mem (h : key ∉ Keyed.names es) : es.overwrite key m = es ++ [(key, m)] := by
  rw [overwrite, if_neg (mt any_key.mp h)]

theorem mem_overwrite_of_mem {x : String × String} (h : key ∈ Keyed.names es)
    (hx : x ∈ es.overwrite key m) : x ∈ es ∨ x = (key, m) := by
  rw [overwrite, if_pos (any_key.mpr h)] at hx
  obtain ⟨e, he, rfl⟩ := List.mem_map.mp hx
  split
  · exact .inr rfl
  · exact .inl he

end ErrorMap

namespace Validation
variable {e : Check × String} {fs : List (Check × String)}

/-- A new path gets an entry of its own. -/
theorem put_of_not_mem (h : e.1.path ∉ Keyed.names es) : put es e = es ++ [(e.1.path, e.2)] := by
  obtain ⟨c, m⟩ := e
  cases c with
  | field => exact ErrorMap.report_of_not_mem h
  | count => exact ErrorMap.overwrite_of_not_mem h
  | shape => exact ErrorMap.overwrite_of_not_mem h

theorem names_put_of_mem (h : e.1.path ∈ Keyed.names es) :
    Keyed.names (put es e) = Keyed.names es := by
  obtain ⟨c, m⟩ := e
  cases c with
  | field => exact congrArg _ (ErrorMap.report_of_mem h)
  | count => exact ErrorMap.names_overwrite_of_mem h
  | shape => exact ErrorMap.names_overwrite_of_mem h

theorem mem_names_put : key ∈ Keyed.names (put es e) ↔ key ∈ Keyed.names es ∨ key = e.1.path := by
  by_cases h : e.1.path ∈ Keyed.names es
  · rw [names_put_of_mem h]
    constructor
    · exact .inl
    · rintro (hk | rfl)
      · exact hk
      · exact h
  · rw [put_of_not_mem h]
    simp [Keyed.names]

theorem nodup_names_put (hn : (Keyed.names es).Nodup) : (Keyed.names (put es e)).Nodup := by
  by_cases h : e.1.path ∈ Keyed.names es
  · rwa [names_put_of_mem h]
  · rw [put_of_not_mem h, Keyed.names, List.map_append]
    exact List.nodup_append_comm.mp (List.nodup_cons.mpr ⟨h, hn⟩)

/-- The keys are the paths of the checks that fail. -/
theorem mem_names_collect : key ∈ Keyed.names (fs.foldl put es) ↔
    key ∈ Keyed.names es ∨ ∃ e ∈ fs, e.1.path = key := by
  induction fs generalizing es with
  | nil => simp
  | cons e fs ih =>
    rw [List.foldl_cons, ih, mem_names_put, List.exists_mem_cons_iff, or_assoc, eq_comm (a := key)]

theorem nodup_names_collect (hn : (Keyed.names es).Nodup) :
    (Keyed.names (fs.foldl put es)).Nodup := by
  induction fs generalizing es with
  | nil => exact hn
  | cons e fs ih => exact ih (nodup_names_put hn)

theorem mem_put {x : String × String} (h : x ∈ put es e) : x ∈ es ∨ x = (e.1.path, e.2) := by
  by_cases hp : e.1.path ∈ Keyed.names es
  · obtain ⟨c, m⟩ := e
    cases c with
    | field => exact .inl (ErrorMap.report_of_mem hp ▸ h)
    | count => exact ErrorMap.mem_overwrite_of_mem hp h
    | shape => exact ErrorMap.mem_overwrite_of_mem hp h
  · rw [put_of_not_mem hp] at h
    exact (List.mem_append.mp h).imp_right List.mem_singleton.mp

/-- Every entry is the path and the message of a check that fails. -/
theorem mem_collect {x : String × String} (h : x ∈ fs.foldl put es) :
    x ∈ es ∨ ∃ e ∈ fs, x = (e.1.path, e.2) := by
  induction fs generalizing es with
  | nil => exact .inl h
  | cons e fs ih =>
    rcases ih h with h | ⟨e', he', rfl⟩
    · exact (mem_put h).imp_right fun hx => ⟨e, List.mem_cons_self .., hx⟩
    · exact .inr ⟨e', List.mem_cons_of_mem _ he', rfl⟩

end Validation
end DocForms
