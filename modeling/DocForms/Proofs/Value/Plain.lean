import DocForms.Value.Plain

/-! The plain form of values is stable: a value that has been stored and read again is stored as it
was. -/
namespace DocForms

theorem Atom.plain_plain (a : Atom) : a.plain.plain = a.plain := by
  cases a <;> rfl

namespace Value

theorem plainItems_eq_map (vs : List Value) : plainItems vs = vs.map plain := by
  induction vs with
  | nil => rfl
  | cons v vs ih => rw [plainItems, ih, List.map_cons]

theorem plainEntries_eq_map (es : Entries) :
    plainEntries es = es.map fun e => (e.1, e.2.plain) := by
  induction es with
  | nil => rfl
  | cons e es ih =>
    obtain ⟨k, v⟩ := e
    rw [plainEntries, ih, List.map_cons]

theorem plain_list (vs : List Value) : (list vs).plain = .list (vs.map plain) := by
  rw [plain, plainItems_eq_map]

theorem plain_record (es : Entries) :
    (record es).plain = .record (es.map fun e => (e.1, e.2.plain)) := by
  rw [plain, plainEntries_eq_map]

theorem plain_named (es : List (String × Value)) :
    (named es).plain = .named (es.map fun e => (e.1, e.2.plain)) := by
  rw [named, plain_record, named, Entries.ofNames, Entries.ofNames, List.map_map, List.map_map]
  rfl

theorem isNull_plain (v : Value) : v.plain.isNull = v.isNull := by
  cases v with
  | atom a => cases a <;> rfl
  | _ => rfl

-- the induction is on the value together with its items and entries

mutual

theorem plain_plain : (v : Value) → v.plain.plain = v.plain
  | .atom a => congrArg Value.atom a.plain_plain
  | .link _ => rfl
  | .list items => congrArg Value.list (plainItems_plainItems items)
  | .record entries => congrArg Value.record (plainEntries_plainEntries entries)

theorem plainItems_plainItems : (vs : List Value) → plainItems (plainItems vs) = plainItems vs
  | [] => rfl
  | v :: vs => by
    rw [plainItems, plainItems, plain_plain v, plainItems_plainItems vs]

theorem plainEntries_plainEntries : (es : List (Atom × Value)) →
    plainEntries (plainEntries es) = plainEntries es
  | [] => rfl
  | (k, v) :: es => by
    rw [plainEntries, plainEntries, plain_plain v, plainEntries_plainEntries es]

end

end Value
end DocForms
