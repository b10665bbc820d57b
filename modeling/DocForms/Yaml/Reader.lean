import DocForms.Yaml.Atom
import DocForms.Yaml.Node

/-! The value of a YAML text. Mappings become records whose keys are scalars, and the last entry of
a key has the last word. When several nodes have no value, the one that is met first decides:
collections are gone through level by level, keys at once. -/
namespace DocForms.Yaml.Node

mutual

/-- The value of a node all of whose parts have one. -/
def value : Node → Value
  | .scalar tag s => .atom ((readAtom tag s).toOption.getD .null)
  | .sequence _ items => .list (values items)
  | .mapping _ es => .record (entryValues [] es)

/-- The values of nodes. -/
def values : List Node → List Value
  | [] => []
  | n :: ns => value n :: values ns

/-- The entries of a mapping, put after those in `done`. -/
def entryValues (done : Entries) : List (Node × Node) → Entries
  | [] => done
  | (k, v) :: es =>
    let key := match value k with
      | .atom a => a
      | _ => .null
    entryValues (Entries.put key (value v) done) es

end

/-! ### Defects -/

/-- The defect that shows when a node is met, before its parts are looked at. -/
def outerDefect? : Node → Option Defect
  | .scalar tag s =>
    match tag with
    | .sequence => none
    | .mapping => none
    | tag => match readAtom tag s with
      | .ok _ => none
      | .error e => some e
  | .sequence tag _ => if tag == .sequence || tag == .mapping then none else some .malformed
  | .mapping tag _ => if tag == .sequence || tag == .mapping then none else some .malformed

/-- Whether a collection tag stands at another kind of node. -/
def isMislabelled : Node → Bool
  | .scalar tag _ => tag == .sequence || tag == .mapping
  | .sequence tag _ => tag != .sequence
  | .mapping tag _ => tag != .mapping

mutual

/-- The first defect of a node with all its parts. -/
def deepDefect? : Node → Option Defect
  | .scalar tag s => (outerDefect? (.scalar tag s)).or
      (if isMislabelled (.scalar tag s) then some .malformed else none)
  | .sequence tag items =>
    if tag != .sequence then some .malformed else deepDefects? items
  | .mapping tag es =>
    if tag != .mapping then some .malformed else deepEntryDefect? es

/-- The first defect of nodes with all their parts. -/
def deepDefects? : List Node → Option Defect
  | [] => none
  | n :: ns => (deepDefect? n).or (deepDefects? ns)

/-- The first defect of entries with all their parts; only scalars are keys. -/
def deepEntryDefect? : List (Node × Node) → Option Defect
  | [] => none
  | (k, v) :: es =>
    let key := (deepDefect? k).or (match k with
      | .scalar .. => none
      | _ => some .malformed)
    key.or ((deepDefect? v).or (deepEntryDefect? es))

end

/-- The first defect of a key. -/
def keyDefect? (k : Node) : Option Defect :=
  (deepDefect? k).or (match k with
    | .scalar .. => none
    | _ => some .malformed)

/-- The parts of a collection, and the first defect that shows when it is gone through. -/
def parts : Node → Option Defect × List Node
  | .scalar tag s => (if isMislabelled (.scalar tag s) then some .malformed else none, [])
  | .sequence tag items =>
    if tag != .sequence then (some .malformed, [])
    else (items.findSome? outerDefect?, items)
  | .mapping tag es =>
    if tag != .mapping then (some .malformed, [])
    else (es.findSome? fun e => (keyDefect? e.1).or (outerDefect? e.2), es.map (·.2))

/-- The first defect of the nodes of one level and of those below, for at most `depth` levels. -/
def levelDefect? : (depth : Nat) → List Node → Option Defect
  | 0, _ => none
  | _ + 1, [] => none
  | depth + 1, ns =>
    let looked := ns.map parts
    (looked.findSome? (·.1)).or (levelDefect? depth (looked.flatMap (·.2)))

/-- The first defect of a node. -/
def defect? (depth : Nat) (n : Node) : Option Defect := (outerDefect? n).or (levelDefect? depth [n])

end Node

/-- The value of a text, the missing value if it holds no document. -/
def read (text : String) : Except Defect Value := do
  let tokens ← Token.ofText text
  match ← Node.ofTokens? tokens with
  | none => return .null
  | some n =>
    match n.defect? (tokens.length + 2) with
    | some e => .error e
    | none => return n.value

end DocForms.Yaml
