import DocForms.Yaml.Tag
import DocForms.Yaml.Token

/-! The nodes of a YAML document. Aliases have been replaced by the nodes that they name, and merged
mappings by their entries, which come before the mapping's own. An alias inside the very node that
it names stands for an empty one. -/
namespace DocForms.Yaml

/-- A node of a document. -/
inductive Node where
  | scalar (tag : Tag) (text : String)
  | sequence (tag : Tag) (items : List Node)
  | mapping (tag : Tag) (entries : List (Node × Node))

namespace Node

instance : Inhabited Node := ⟨.scalar .null ""⟩

/-- The node where nothing is written. -/
def empty : Node := .scalar (Tag.ofPlain "") ""

/-- The tag of a node. -/
def tag : Node → Tag
  | .scalar t _ => t
  | .sequence t _ => t
  | .mapping t _ => t

/-! ### Mappings -/

/-- The entries that the value of a merge key brings. Of several mappings the first has the last
word. -/
def merged : Node → Except Defect (List (Node × Node))
  | .mapping _ es => .ok es
  | .sequence _ items =>
    items.foldlM (fun (done : List (Node × Node)) n =>
      match n with
      | .mapping _ es => .ok (es ++ done)
      | _ => malformed) []
  | .scalar .. => malformed

/-- A default key is a text like any other. -/
def plainKey : Node → Node
  | .scalar .default s => .scalar .text s
  | n => n

/-- The entries of a mapping after those that its merge keys bring. -/
def flatten (entries : List (Node × Node)) : Except Defect (List (Node × Node)) := do
  let brought ← (entries.filter (·.1.tag == .merge)).mapM fun e => merged e.2
  let own := (entries.filter (·.1.tag != .merge)).map fun e => (e.1.plainKey, e.2)
  return brought.flatten ++ own

/-! ### From tokens -/

/-- What reading nodes needs to know of the document. -/
structure Context where
  /-- What the handles of tags stand for. -/
  handles : List (String × String)
  /-- The nodes with an anchor. -/
  anchors : List (String × Node) := []

/-- The full name of a tag as it is written. -/
def Context.tagName (k : Context) : WrittenTag → Except Defect String
  | .verbatim name => .ok name
  | .handled handle suffix =>
    match k.handles.lookup handle with
    | some lead => .ok (lead ++ suffix)
    | none => malformed

/-- Gives a node an anchor, in the place of what the anchor stood for before. -/
def Context.bind (k : Context) (anchor : Option String) (n : Node) : Context :=
  match anchor with
  | some a => { k with anchors := (a, n) :: k.anchors }
  | none => k

/-- The anchor and the tag before a node, in either order. -/
def properties : List Token → Option String × Option WrittenTag × List Token
  | .anchor a :: .tag t :: ts => (some a, some t, ts)
  | .anchor a :: ts => (some a, none, ts)
  | .tag t :: .anchor a :: ts => (some a, some t, ts)
  | .tag t :: ts => (none, some t, ts)
  | ts => (none, none, ts)

/-- The tag of a collection, given the full name of the one that is written. -/
def collectionTag (usual : Tag) (name : Option String) : Tag :=
  match name with
  | none => usual
  | some "!" => usual
  | some n => .ofName n

/-- The tag of a scalar, given the full name of the one that is written. -/
def scalarTag (plain : Bool) (name : Option String) (text : String) : Tag :=
  match name with
  | none => if plain then .ofPlain text else .text
  | some "!" => .ofPlain text
  | some n => .ofName n

/-- A piece of a document, what is known after it, and the tokens after it. -/
abbrev Parsed (α : Type) := α × Context × List Token

/-- The node where nothing is written. -/
def nothing (k : Context) (ts : List Token) : Except Defect (Parsed Node) := .ok (empty, k, ts)

mutual

/-- A node. `block` tells whether it may be a block collection, `indentless` whether it may be a
sequence that is not indented. -/
def read (block indentless : Bool) :
    (fuel : Nat) → Context → List Token → Except Defect (Parsed Node)
  | 0, _, _ => malformed
  | fuel + 1, k, ts =>
    match ts with
    | .alias name :: ts =>
      match k.anchors.lookup name with
      | some n => .ok (n, k, ts)
      | none => malformed
    | ts => do
      let (anchor, written, ts) := properties ts
      let name ← written.mapM k.tagName
      if (anchor.bind (k.anchors.lookup ·)).isSome then malformed
      let seqTag := collectionTag .sequence name
      let mapTag := collectionTag .mapping name
      let inSeq := k.bind anchor (.sequence seqTag [])
      let inMap := k.bind anchor (.mapping mapTag [])
      let seq (r : Except Defect (Parsed (List Node))) : Except Defect (Parsed Node) := do
        let (items, k, ts) ← r
        let n := .sequence seqTag items
        return (n, k.bind anchor n, ts)
      let map (r : Except Defect (Parsed (List (Node × Node)))) : Except Defect (Parsed Node) := do
        let (es, k, ts) ← r
        let n := .mapping mapTag (← flatten es)
        return (n, k.bind anchor n, ts)
      let leaf (n : Node) (ts : List Token) : Except Defect (Parsed Node) :=
        .ok (n, k.bind anchor n, ts)
      match ts with
      | .blockEntry :: _ =>
        if indentless then seq (readIndentless fuel inSeq ts)
        else if anchor.isSome || written.isSome then leaf (.scalar (scalarTag true name "") "") ts
        else malformed
      | .scalar text plain :: ts => leaf (.scalar (scalarTag plain name text) text) ts
      | .flowSequence :: ts => seq (readFlowItems fuel inSeq true ts)
      | .flowMapping :: ts => map (readFlowEntries fuel inMap true ts)
      | .blockSequence :: rest =>
        if block then seq (readItems fuel inSeq rest)
        else if anchor.isSome || written.isSome then leaf (.scalar (scalarTag true name "") "") ts
        else malformed
      | .blockMapping :: rest =>
        if block then map (readEntries fuel inMap rest)
        else if anchor.isSome || written.isSome then leaf (.scalar (scalarTag true name "") "") ts
        else malformed
      | ts =>
        if anchor.isSome || written.isSome then leaf (.scalar (scalarTag true name "") "") ts
        else malformed

/-- The items of a block sequence up to its end. -/
def readItems : (fuel : Nat) → Context → List Token → Except Defect (Parsed (List Node))
  | 0, _, _ => malformed
  | fuel + 1, k, ts =>
    match ts with
    | .blockEnd :: ts => .ok ([], k, ts)
    | .blockEntry :: ts => do
      let (n, k, ts) ← (match ts with
        | .blockEntry :: _ => nothing k ts
        | .blockEnd :: _ => nothing k ts
        | ts => read true false fuel k ts : Except Defect (Parsed Node))
      let (ns, k, ts) ← readItems fuel k ts
      return (n :: ns, k, ts)
    | _ => malformed

/-- The items of a sequence that is not indented. -/
def readIndentless : (fuel : Nat) → Context → List Token → Except Defect (Parsed (List Node))
  | 0, _, _ => malformed
  | fuel + 1, k, ts =>
    match ts with
    | .blockEntry :: ts => do
      let (n, k, ts) ← (match ts with
        | .blockEntry :: _ => nothing k ts
        | .key :: _ => nothing k ts
        | .value :: _ => nothing k ts
        | .blockEnd :: _ => nothing k ts
        | ts => read true false fuel k ts : Except Defect (Parsed Node))
      let (ns, k, ts) ← readIndentless fuel k ts
      return (n :: ns, k, ts)
    | ts => .ok ([], k, ts)

/-- A key or a value of a block mapping. -/
def readPart : (fuel : Nat) → Context → List Token → Except Defect (Parsed Node)
  | 0, _, _ => malformed
  | fuel + 1, k, ts =>
    match ts with
    | .key :: _ => nothing k ts
    | .value :: _ => nothing k ts
    | .blockEnd :: _ => nothing k ts
    | ts => read true true fuel k ts

/-- The entries of a block mapping up to its end. -/
def readEntries : (fuel : Nat) → Context → List Token →
    Except Defect (Parsed (List (Node × Node)))
  | 0, _, _ => malformed
  | fuel + 1, k, ts =>
    match ts with
    | .blockEnd :: ts => .ok ([], k, ts)
    | ts => do
      let (key, k, ts) ← (match ts with
        | .key :: ts => readPart fuel k ts
        | .value :: _ => nothing k ts
        | _ => malformed : Except Defect (Parsed Node))
      let (value, k, ts) ← (match ts with
        | .value :: ts => readPart fuel k ts
        | ts => nothing k ts : Except Defect (Parsed Node))
      let (es, k, ts) ← readEntries fuel k ts
      return ((key, value) :: es, k, ts)

/-- A key or a value in a flow collection. -/
def readFlowPart : (fuel : Nat) → Context → List Token → Except Defect (Parsed Node)
  | 0, _, _ => malformed
  | fuel + 1, k, ts =>
    match ts with
    | .value :: _ => nothing k ts
    | .flowEntry :: _ => nothing k ts
    | .flowSequenceEnd :: _ => nothing k ts
    | .flowMappingEnd :: _ => nothing k ts
    | ts => read false false fuel k ts

/-- The items of a flow sequence up to its end; a single entry of a mapping is an item. -/
def readFlowItems : (fuel : Nat) → Context → (first : Bool) → List Token →
    Except Defect (Parsed (List Node))
  | 0, _, _, _ => malformed
  | fuel + 1, k, first, ts =>
    match ts with
    | .flowSequenceEnd :: ts => .ok ([], k, ts)
    | ts => do
      let ts ← afterComma first ts
      match ts with
      | .flowSequenceEnd :: ts => return ([], k, ts)
      | ts => do
        let (n, k, ts) ← (match ts with
          | .key :: ts => do
            let (key, k, ts) ← readFlowPart fuel k ts
            let (value, k, ts) ← (match ts with
              | .value :: ts => readFlowPart fuel k ts
              | ts => nothing k ts : Except Defect (Parsed Node))
            return (.mapping .mapping (← flatten [(key, value)]), k, ts)
          | ts => read false false fuel k ts : Except Defect (Parsed Node))
        let (ns, k, ts) ← readFlowItems fuel k false ts
        return (n :: ns, k, ts)

/-- The entries of a flow mapping up to its end; a node without a colon is a key. -/
def readFlowEntries : (fuel : Nat) → Context → (first : Bool) → List Token →
    Except Defect (Parsed (List (Node × Node)))
  | 0, _, _, _ => malformed
  | fuel + 1, k, first, ts =>
    match ts with
    | .flowMappingEnd :: ts => .ok ([], k, ts)
    | ts => do
      let ts ← afterComma first ts
      match ts with
      | .flowMappingEnd :: ts => return ([], k, ts)
      | ts => do
        let (e, k, ts) ← (match ts with
          | .key :: ts => do
            let (key, k, ts) ← readFlowPart fuel k ts
            let (value, k, ts) ← (match ts with
              | .value :: ts => readFlowPart fuel k ts
              | ts => nothing k ts : Except Defect (Parsed Node))
            return ((key, value), k, ts)
          | ts => do
            let (key, k, ts) ← read false false fuel k ts
            return ((key, empty), k, ts) : Except Defect (Parsed (Node × Node)))
        let (es, k, ts) ← readFlowEntries fuel k false ts
        return (e :: es, k, ts)

/-- The tokens after the comma that stands between two members of a flow collection. -/
def afterComma : (first : Bool) → List Token → Except Defect (List Token)
  | true, ts => .ok ts
  | false, .flowEntry :: ts => .ok ts
  | false, _ => malformed

end

/-! ### Documents -/

/-- The handles of tags that need no directive. -/
def standardHandles : List (String × String) := [("!", "!"), ("!!", Tag.standardLead)]

/-- The handles that the directives of a document define, and the tokens after these. -/
def directives (versioned : Bool) (handles : List (String × String)) :
    List Token → Except Defect (List (String × String) × List Token)
  | .directive d :: ts =>
    match d with
    | .version major => if versioned || major != 1 then malformed else directives true handles ts
    | .tag handle lead =>
      if (handles.lookup handle).isSome then malformed
      else directives versioned ((handle, lead) :: handles) ts
    | .other => directives versioned handles ts
  | ts => .ok (handles, ts)

/-- The content of a document that is announced. -/
def content (k : Context) (ts : List Token) : Except Defect (Parsed Node) :=
  match ts with
  | [] => nothing k ts
  | .directive _ :: _ => nothing k ts
  | .documentStart :: _ => nothing k ts
  | .documentEnd :: _ => nothing k ts
  | ts => read true false (3 * ts.length + 3) k ts

/-- The root of the only document of a text, if there is one. -/
def ofTokens? (ts : List Token) : Except Defect (Option Node) := do
  let (n, _, ts) ← (match ts with
    | [] => .ok (none, ⟨[], []⟩, [])
    | ts => do
      let announced := match ts with
        | .directive _ :: _ => true
        | .documentStart :: _ => true
        | _ => false
      let (n, k, ts) ← (if announced then do
          let (handles, ts) ← directives false [] ts
          match ts with
          | .documentStart :: ts => content ⟨handles ++ standardHandles, []⟩ ts
          | _ => malformed
        else read true false (3 * ts.length + 3) ⟨standardHandles, []⟩ ts :
          Except Defect (Parsed Node))
      return (some n, k, ts) : Except Defect (Parsed (Option Node)))
  if (ts.dropWhile (· == .documentEnd)).isEmpty then return n else malformed

end Node
end DocForms.Yaml
