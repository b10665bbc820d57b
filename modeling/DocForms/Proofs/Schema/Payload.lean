import DocForms.Proofs.Shape.Legibility
import DocForms.Schema.Constraint

/-! Which payloads of a field are neither read nor refused. A payload that is no JSON text, with no
integer that is too long to be written, is one of these only if it has to be kept and has no
canonical form, or if its pattern is beyond the limits of patterns. -/
namespace DocForms
variable {kind : FieldKind} {v : Value} {field : Option String}

theorem decodePayload_of_decoded (defect : Json.Defect → Refusal) (h : ∀ s, v ≠ .text s) :
    decodePayload defect v = .ok v := by
  unfold decodePayload
  split
  · exact absurd rfl (h _)
  · rfl

/-- Every entry of a list of choices is read or refused. -/
theorem choice_graceful (h : v.hasText = true) : Graceful (Choice.ofValue field v) := by
  have hmalformed : Graceful (do
      refuse (.choiceMalformed field (← v.writtenQuoted .loose)) : Except Fault Choice) := by
    rw [Value.writtenQuoted, if_pos h]
    exact graceful_refuse _
  unfold Choice.ofValue
  dsimp only
  split
  · exact graceful_refuse _
  · exact graceful_refuse _
  · exact graceful_ok _
  · exact (Value.written_graceful h).bind fun _ _ => graceful_pure _
  · exact graceful_ok _
  · split
    · exact hmalformed
    · refine (Value.written_graceful (Value.hasText_get h _)).bind fun _ _ => ?_
      refine Graceful.bind (Value.written_graceful ?_) fun _ _ => graceful_pure _
      split
      · exact Value.hasText_get h _
      · exact Value.hasText_get h _
  · exact hmalformed

/-- Choices are always read or refused, and other options unless they have no canonical form. -/
theorem Options.parse_graceful_iff (hkind : kind ≠ .documentLink) (htext : v.hasText = true)
    (hdecoded : ∀ s, v ≠ .text s) : Graceful (Options.parse kind v field) ↔
      kind = .select ∨ v.isNull = true ∨ v.canonical?.isSome = true := by
  rw [Options.parse, decodePayload_of_decoded _ hdecoded]
  dsimp only [bind, Except.bind]
  split
  · exact absurd rfl hkind
  · exact absurd rfl hkind
  · exact iff_of_true (graceful_pure _) (.inr (.inl rfl))
  · rename_i entries
    refine iff_of_true ?_ (.inl rfl)
    refine Graceful.bind (graceful_mapM fun entry hentry => ?_) fun _ _ => graceful_pure _
    exact choice_graceful (Value.hasText_list.mp htext _ hentry)
  · exact iff_of_true (graceful_refuse _) (.inl rfl)
  · rename_i hselect hnull _ _
    have hvalue : v.isNull = false := by
      unfold Value.isNull
      split
      · exact absurd rfl hnull
      · rfl
    cases hcanonical : v.canonical? with
    | none => exact iff_of_false (fun h => h .operand rfl) (by simpa [hvalue] using hselect)
    | some c =>
      refine iff_of_true ?_ (.inr (.inr rfl))
      dsimp only
      rw [if_pos htext]
      exact graceful_pure _

/-- Rules are read or refused unless their pattern is beyond the limits of patterns. -/
theorem Rules.parse_graceful_iff (htext : v.hasText = true) (hdecoded : ∀ s, v ≠ .text s) :
    Graceful (Rules.parse v field) ↔ ∀ es, v = .record es → Rules.shape.Meets v →
      Graceful (Rules.parsePattern field (Entries.get es "pattern")) := by
  rw [Rules.parse, decodePayload_of_decoded _ hdecoded]
  constructor
  · rintro h es rfl hmeets
    have hread : Graceful (Rules.shape.report (.record es) >>= _) := h
    rw [Shape.report_eq_none.mpr hmeets] at hread
    exact Graceful.of_bind
      (show Graceful (parsePattern field (Entries.get es "pattern") >>= _) from hread)
  · intro h
    show Graceful (if v.isNull = true then pure none else _)
    split
    · exact graceful_pure _
    · refine (Shape.report_graceful htext Rules.shape).bind fun problem hproblem => ?_
      cases problem with
      | some problem => exact graceful_refuse _
      | none =>
        have hmeets := Shape.report_eq_none.mp hproblem
        obtain ⟨es, rfl⟩ := Shape.record_of_met (hmeets _ (.head _))
        show Graceful (parsePattern field (Entries.get es "pattern") >>= _)
        refine (h es rfl hmeets).bind fun pattern _ => ?_
        dsimp only
        split
        · exact graceful_refuse _
        · split
          · exact graceful_refuse _
          · exact graceful_pure _

end DocForms
