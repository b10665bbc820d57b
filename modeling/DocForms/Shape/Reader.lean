import DocForms.Json.Reader
import DocForms.Shape.Basic

/-! Shapes that are written as JSON. Each entry of a record is one demand, in the order written;
entries without a meaning here demand nothing. A reference is replaced by what it points to in the
same text. -/
namespace DocForms.Shape

/-- The kinds that a value names. -/
def typeNames : Value → List TypeName
  | .text s => (TypeName.ofName? s).toList
  | .list vs => vs.filterMap fun
    | .text s => TypeName.ofName? s
    | _ => none
  | _ => []

/-- The texts of a list. -/
def textsOf : Value → List String
  | .list vs => vs.filterMap fun
    | .text s => some s
    | _ => none
  | _ => []

/-- The keys of a record that are texts. -/
def keysOf : Value → List String
  | .record es => es.filterMap fun
    | (.text s, _) => some s
    | _ => none
  | _ => []

/-- What a reference points to: a path from the root of the text. -/
def target? (root : Value) (reference : String) : Option Value :=
  match reference.splitOn "/" with
  | "#" :: steps => steps.foldlM (fun v step =>
      match v with
      | .record es => Entries.get? es step
      | _ => none) root
  | _ => none

/-- The demands that a value makes, with references followed for at most `fuel` levels. -/
def ofValue (root : Value) : (fuel : Nat) → Value → Shape
  | 0, _ => []
  | fuel + 1, .record es =>
    match Entries.get? es "$ref" with
    | some (.text reference) => ((target? root reference).map (ofValue root fuel)).getD []
    | _ => es.flatMap fun
      | (.text "type", v) => [.type (typeNames v)]
      | (.text "enum", .list vs) => [.oneOf vs]
      | (.text "required", v) => [.required (textsOf v)]
      | (.text "additionalProperties", .bool false) =>
        [.closed (keysOf (Entries.get es "properties"))]
      | (.text "properties", .record ps) => [.properties (ps.filterMap fun
        | (.text name, v) => some (name, ofValue root fuel v)
        | _ => none)]
      | (.text "pattern", .text s) => (Pattern.ofSource s).toOption.toList.map .matching
      | (.text "minLength", .int n) => [.minLength n.toNat]
      | (.text "minimum", v) => v.number?.toList.map .minimum
      | (.text "items", v) => [.items (ofValue root fuel v)]
      | _ => []
  | _ + 1, _ => []

/-- How deep references are followed. -/
def maxDepth : Nat := 64

/-- The shape that a JSON text describes, if it is one. -/
def ofJson? (text : String) : Option Shape :=
  (Json.read text).toOption.map fun v => ofValue v maxDepth v

end DocForms.Shape
