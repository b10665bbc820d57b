import DocForms.Definition.Format
import DocForms.Value.Access
import DocForms.Value.Same
import DocForms.Yaml.Reader

/-! Whether a definition can be used: it has the shape that its version asks for, its names differ,
and the bounds of its groups are in order. -/
namespace DocForms.Definition

/-- The definition that a text holds. -/
def decode (text : String) : Except Fault Entries :=
  match Yaml.read text with
  | .error .malformed => refuse .definitionMalformed
  | .error (.misuse m) => misuse m
  | .ok v =>
    if v.isTruthy then
      match v with
      | .record es => .ok es
      | _ => refuse .definitionNotMapping
    else refuse .definitionEmpty

/-! ### Parts -/

/-- The members that an entry lists; no entry lists none. -/
def members (es : Entries) (name : String) : Except Fault (List Value) :=
  match Entries.get? es name with
  | some v => v.elements
  | none => .ok []

/-- An entry that a record has to have. -/
def part (v : Value) (name : String) : Except Fault Value :=
  match v with
  | .record es =>
    match Entries.get? es name with
    | some w => .ok w
    | none => misuse .key
  | _ => misuse .operand

/-- The names of fields, also of those in groups. -/
def fieldNames (raw : Entries) : Except Fault (List Value) := do
  let top ← (← members raw "fields").mapM (part · "name")
  let inner ← (← members raw "groups").mapM fun g => do
    (← members (← g.entries) "fields").mapM (part · "name")
  return top ++ inner.flatten

/-- The names of groups. -/
def groupNames (raw : Entries) : Except Fault (List Value) := do
  (← members raw "groups").mapM (part · "name")

/-! ### Comparisons -/

/-- Whether `a` comes before `b`, if values like these have an order. -/
def before? (a b : Value) : Option Bool :=
  match a, b with
  | .text s, .text t => some (decide (s < t))
  | .date d, .date e => some (decide (d.ordinal < e.ordinal))
  | .atom a, .atom b =>
    match a.number?, b.number? with
    | some x, some y => some (x.lt y)
    | _, _ => none
  | _, _ => none

/-- The values without repetitions. -/
def distinct : List Value → List Value
  | [] => []
  | v :: vs => v :: (distinct vs).filter fun w => !w.same v

/-- Different values in their order, which they need to have if there are several. -/
def sorted (vs : List Value) : Except Fault (List Value) :=
  let ordered := vs.all fun a => vs.all fun b => (before? a b).isSome
  if vs.length ≤ 1 || ordered then
    .ok (vs.mergeSort fun a b => !(before? b a).getD false)
  else misuse .operand

/-- Refuses values that cannot be compared by a key. -/
def checkKeys (vs : List Value) : Except Fault Unit := vs.forM fun v => do let _ ← v.key?

/-- The values that occur more than once. -/
def repeated (vs : List Value) : List Value :=
  distinct (vs.filter fun v => 1 < vs.countP (·.same v))

/-! ### Problems -/

/-- The problem with names that occur more than once. -/
def duplicateProblem (names : List Value) : Except Fault (List String) := do
  let again := repeated names
  checkKeys again
  if again.isEmpty then return []
  return ["Duplicate field names: " ++ (← (Value.list (← sorted again)).written .loose)]

/-- The problem with names that are both a group's and a field's. -/
def clashProblem (groups fields : List Value) : Except Fault (List String) := do
  checkKeys (groups ++ fields)
  let both := distinct (groups.filter fun g => fields.any (·.same g))
  if both.isEmpty then return []
  return ["Group names clash with field names: " ++
    (← (Value.list (← sorted both)).written .loose)]

/-- The problem with the bounds on the rows of a group. -/
def boundsProblem (g : Value) : Except Fault (List String) := do
  let es ← g.entries
  let low := Entries.get es "min_repeats"
  let high := Entries.get es "max_repeats"
  if low.isNull || high.isNull then return []
  match before? high low with
  | none => misuse .operand
  | some false => return []
  | some true =>
    let name ← (← part g "name").written .loose
    return ["Group '" ++ name ++ "' has min_repeats (" ++ (← low.written .loose) ++
      ") > max_repeats (" ++ (← high.written .loose) ++ ")"]

/-- The version of a definition. -/
def version (raw : Entries) : Except Fault String :=
  match Entries.get? raw "schema_version" with
  | some v => v.written .loose
  | none => .ok usualVersion

/-- The problem with the shape of a definition. -/
def shapeProblem? (formats : Formats) (raw : Entries) : Except Fault (Option String) := do
  let name ← version raw
  match formats.get? name with
  | none => return some ("Unknown schema version: " ++ name)
  | some shape =>
    return (← shape.report (.record raw)).map fun v =>
      let place := ".".intercalate (v.path.map Shape.Step.text)
      "Schema validation: " ++ v.message ++ (if place = "" then "" else " (at " ++ place ++ ")")

/-- Every problem of a definition. One of a wrong shape is not looked at further. -/
def problems (formats : Formats) (raw : Entries) : Except Fault (List String) := do
  match ← shapeProblem? formats raw with
  | some p => return [p]
  | none =>
    let fields ← fieldNames raw
    let duplicates ← duplicateProblem fields
    let groups ← groupNames raw
    let clashes ← clashProblem groups fields
    let twice := if (distinct groups).length = groups.length then [] else ["Duplicate group names"]
    let bounds ← (← members raw "groups").mapM boundsProblem
    return duplicates ++ clashes ++ twice ++ bounds.flatten

/-- The problems of the definition that a text holds. -/
def textProblems (formats : Formats) (text : String) : Except Fault (List String) :=
  match decode text with
  | .ok raw => problems formats raw
  | .error (.refused r) => .ok [r.message]
  | .error (.misuse m) => misuse m

end DocForms.Definition
