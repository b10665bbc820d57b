import DocForms.Proofs.Fault
import DocForms.Registry.Minting

/-! What is refused: of each step the refusals that it can come to, whatever it is given. Reading a
value refuses nothing, parsing a payload refuses only its own defects, and a lookup refuses only what
does not exist. -/
namespace DocForms

/-! ### Values -/

section Values
variable {own : Refusal → Bool} {v : Value}

theorem written_refusesOnly (c : Custody) : RefusesOnly own (v.written c) := by
  unfold Value.written
  split
  · exact .ok _
  · exact .misuse _

theorem writtenQuoted_refusesOnly (c : Custody) : RefusesOnly own (v.writtenQuoted c) := by
  unfold Value.writtenQuoted
  split
  · exact .ok _
  · exact .misuse _

theorem entries_refusesOnly : RefusesOnly own v.entries := by
  unfold Value.entries
  split
  · exact .ok _
  · exact .misuse _

theorem trimmed_refusesOnly (v : Value) : RefusesOnly own v.trimmed := by
  unfold Value.trimmed
  split
  · exact .ok _
  · exact .misuse _

theorem key_refusesOnly (v : Value) : RefusesOnly own v.key? := by
  unfold Value.key?
  split
  · exact .ok _
  · exact .ok _
  · exact .misuse _

theorem idText_refusesOnly (v : Value) : RefusesOnly own v.idText :=
  (key_refusesOnly v).bind fun _ _ => .pure _

theorem elements_refusesOnly (v : Value) : RefusesOnly own v.elements := by
  unfold Value.elements
  split
  · exact .ok _
  · exact .ok _
  · exact .ok _
  · exact .misuse _

theorem pair_refusesOnly (v : Value) : RefusesOnly own v.pair := by
  unfold Value.pair
  refine (elements_refusesOnly v).bind fun vs _ => ?_
  split
  · refine (key_refusesOnly _).bind fun k _ => ?_
    split
    · exact .pure _
    · exact .misuse _
  · exact .misuse _

theorem changes_refusesOnly (v : Value) : RefusesOnly own v.changes := by
  unfold Value.changes
  split
  · exact .ok _
  · exact (elements_refusesOnly v).bind fun vs _ => .mapM fun w _ => pair_refusesOnly w

theorem toInteger_refusesOnly (v : Value) : RefusesOnly own v.toInteger := by
  unfold Value.toInteger
  split
  · exact .ok _
  · exact .ok _
  · split
    · exact .misuse _
    · exact .misuse _
    · exact .ok _
  · split
    · exact .ok _
    · exact .misuse _
  · exact .misuse _

end Values

/-! ### Payloads -/

section Payloads
variable {own : Refusal → Bool} {raw v : Value} {field : Option String} {kind : FieldKind}

theorem report_refusesOnly (shape : Shape) : RefusesOnly own (shape.report v) := by
  unfold Shape.report
  split
  · exact .ok _
  · exact .misuse _

theorem decodePayload_refusesOnly {defect : Json.Defect → Refusal}
    (h : ∀ d, own (defect d) = true) : RefusesOnly own (decodePayload defect raw) := by
  unfold decodePayload
  split
  · split
    · exact .ok _
    · split
      · exact .ok _
      · split
        · exact .misuse _
        · exact .refuse (h _)
  · exact .ok _

theorem choice_refusesOnly (field : Option String) (entry : Value) :
    RefusesOnly Refusal.isOptions (Choice.ofValue field entry) := by
  have hmalformed : RefusesOnly Refusal.isOptions (do
      refuse (.choiceMalformed field (← entry.writtenQuoted .loose)) : Except Fault Choice) :=
    (writtenQuoted_refusesOnly _).bind fun _ _ => .refuse rfl
  unfold Choice.ofValue
  split
  · exact .refuse rfl
  · exact .refuse rfl
  · exact .ok _
  · exact (written_refusesOnly _).bind fun _ _ => .pure _
  · exact .ok _
  · dsimp only
    split
    · exact hmalformed
    · refine (written_refusesOnly _).bind fun _ _ => ?_
      exact (written_refusesOnly _).bind fun _ _ => .pure _
  · exact hmalformed

theorem linkOptions_refusesOnly (field : Option String) (data : Value) :
    RefusesOnly Refusal.isOptions (LinkOptions.ofValue field data) := by
  unfold LinkOptions.ofValue
  refine (report_refusesOnly _).bind fun problem _ => ?_
  split
  · exact .refuse rfl
  · split <;> exact .ok _

theorem options_refusesOnly (kind : FieldKind) (raw : Value) (field : Option String) :
    RefusesOnly Refusal.isOptions (Options.parse kind raw field) := by
  unfold Options.parse
  refine (decodePayload_refusesOnly fun _ => rfl).bind fun data _ => ?_
  split
  · exact .pure _
  · exact (linkOptions_refusesOnly field _).bind fun _ _ => .pure _
  · exact .pure _
  · exact (RefusesOnly.mapM fun entry _ => choice_refusesOnly field entry).bind fun _ _ => .pure _
  · exact .refuse rfl
  · split
    · split
      · exact .pure _
      · exact .misuse _
    · exact .misuse _

theorem pattern_refusesOnly (field : Option String) (v : Value) :
    RefusesOnly Refusal.isRules (Rules.parsePattern field v) := by
  unfold Rules.parsePattern
  split
  · split
    · exact .ok _
    · exact .refuse rfl
    · exact .misuse _
    · exact .misuse _
  · exact .ok _

theorem rules_refusesOnly (raw : Value) (field : Option String) :
    RefusesOnly Refusal.isRules (Rules.parse raw field) := by
  unfold Rules.parse
  refine (decodePayload_refusesOnly fun _ => rfl).bind fun data _ => ?_
  split
  · exact .pure _
  · refine (report_refusesOnly _).bind fun problem _ => ?_
    split
    · exact .refuse rfl
    · refine entries_refusesOnly.bind fun es _ => (pattern_refusesOnly field _).bind fun _ _ => ?_
      dsimp only
      split
      · exact .refuse rfl
      · split
        · exact .refuse rfl
        · exact .pure _

end Payloads

/-! ### Records -/

namespace Registry
variable {own : Refusal → Bool} (r : Registry) (typeId id : String)

theorem groupIdOf_refusesOnly (es : Entries) : RefusesOnly own (groupIdOf es) := by
  unfold groupIdOf
  dsimp only
  split
  · exact (idText_refusesOnly _).bind fun _ _ => .pure _
  · exact .ok _

theorem requireType_refusesOnly (h : own (.unknownType id) = true) :
    RefusesOnly own (r.requireType id) := by
  unfold requireType
  split
  · exact .ok _
  · exact .refuse h

theorem checkGroup_refusesOnly (group : Option String) (h : ∀ g, own (.unknownGroup g) = true) :
    RefusesOnly own (r.checkGroup typeId group) := by
  unfold checkGroup
  split
  · exact .ok _
  · refine RefusesOnly.bind ?_ fun _ _ => .pure _
    unfold requireGroupOf
    split
    · split
      · exact .ok _
      · exact .refuse (h _)
    · exact .refuse (h _)

theorem checkFieldName_refusesOnly {name : String} (group : Option String)
    (hfield : own (.fieldNameTaken name) = true) (hgroup : own (.groupNameTaken name) = true) :
    RefusesOnly own (r.checkFieldName typeId id name group) := by
  unfold checkFieldName
  refine .check hfield ?_
  split
  · exact .refuse hgroup
  · exact .pure _

theorem kind_refusesOnly (v : Value) (field : Option String)
    (h : ∀ kind kinds, own (.unknownKind kind field kinds) = true) :
    RefusesOnly own (FieldKind.ofValue v field) := by
  unfold FieldKind.ofValue
  dsimp only
  split
  · split
    · exact .ok _
    · exact .refuse (h _ _)
  · exact .refuse (h _ _)

end Registry
end DocForms
