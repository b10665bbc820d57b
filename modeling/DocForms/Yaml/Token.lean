import DocForms.Yaml.Scalar

/-! The tokens of a YAML text. Indentation is made explicit: a block collection has a token where it
begins and one where it ends, and a key that is recognised by the colon after it gets its token
before it. -/
namespace DocForms.Yaml

/-- A directive at the head of a document. -/
inductive Directive where
  | version (major : Nat)
  | tag (handle lead : String)
  | other
deriving DecidableEq, Repr

/-- A tag as it is written: one that says nothing, a full name, or a handle and what follows it. -/
inductive WrittenTag where
  | verbatim (name : String)
  | handled (handle suffix : String)
deriving DecidableEq, Repr

/-- A token. -/
inductive Token where
  | directive (d : Directive)
  | documentStart | documentEnd
  | blockSequence | blockMapping | blockEnd
  | flowSequence | flowSequenceEnd
  | flowMapping | flowMappingEnd
  | blockEntry | flowEntry | key | value
  | alias (name : String)
  | anchor (name : String)
  | tag (t : WrittenTag)
  | scalar (text : String) (plain : Bool)
deriving DecidableEq, Repr

namespace Token

/-! ### Directives, anchors and tags -/

/-- A name and the position after it. -/
def name (c : Cursor) : Except Defect (String × Cursor) :=
  let (cs, c) := c.span isNameChar
  if cs.isEmpty then malformed else .ok (String.ofList cs, c)

/-- Decimal digits and the position after them. -/
def digits (c : Cursor) : Except Defect (Nat × Cursor) :=
  let (cs, c) := c.span Char.isDigit
  if cs.isEmpty then malformed else .ok (Json.digitsValue cs, c)

/-- A tag handle: an exclamation mark, or a name between two. -/
def handle (c : Cursor) : Except Defect (String × Cursor) :=
  if c.here != '!' then malformed
  else if c.next.here == ' ' then .ok ("!", c.next)
  else
    let (cs, after) := c.next.span isNameChar
    if after.here == '!' then .ok (String.ofList ('!' :: cs ++ ['!']), after.next) else malformed

/-- What a tag consists of, besides escaped bytes. -/
def isTagChar (c : Char) : Bool := c.isAlphanum || "-;/?:@&=+$,_.!~*'()[]".toList.contains c

/-- The bytes of percent escapes. -/
def escapedBytes : (fuel : Nat) → Cursor → Except Defect (List UInt8 × Cursor)
  | 0, c => .ok ([], c)
  | fuel + 1, c =>
    if c.here != '%' then .ok ([], c)
    else match Json.hexValue? (c.ahead 1), Json.hexValue? (c.ahead 2) with
      | some a, some b => do
        let (bs, c) ← escapedBytes fuel (c.skip 3)
        return (UInt8.ofNat (a * 16 + b) :: bs, c)
      | _, _ => malformed

/-- The characters of a tag up to the first that no tag has. -/
def tagChars : (fuel : Nat) → (done : List Char) → Cursor → Except Defect (List Char × Cursor)
  | 0, done, c => .ok (done, c)
  | fuel + 1, done, c =>
    if c.here == '%' then do
      let (bs, c) ← escapedBytes (c.rest.length + 1) c
      match String.fromUTF8? ⟨bs.toArray⟩ with
      | some s => tagChars fuel (done ++ s.toList) c
      | none => malformed
    else if isTagChar c.here then tagChars fuel (done ++ [c.here]) c.next
    else .ok (done, c)

/-- The text of a tag, which is not empty. -/
def tagText (c : Cursor) : Except Defect (String × Cursor) := do
  let (cs, after) ← tagChars (c.rest.length + 1) [] c
  if cs.isEmpty && after.index == c.index then malformed else return (String.ofList cs, after)

/-- The value of a directive with a name. -/
def directiveValue (name : String) (c : Cursor) : Except Defect (Directive × Cursor) := do
  if name == "YAML" then
    let (major, c) ← digits (c.skipWhile (· == ' '))
    if c.here != '.' then malformed
    let (_, c) ← digits c.next
    if isSpaceOrEnd c.here then return (.version major, c) else malformed
  else if name == "TAG" then
    let (handle, c) ← handle (c.skipWhile (· == ' '))
    if c.here != ' ' then malformed
    let (lead, c) ← tagText (c.skipWhile (· == ' '))
    if isSpaceOrEnd c.here then return (.tag handle lead, c) else malformed
  else return (.other, c.skipWhile (!isLineEnd ·))

/-- A directive after its percent sign, up to the end of its line. -/
def directiveLine (c : Cursor) : Except Defect (Directive × Cursor) := do
  let (name, c) ← name c
  if !isSpaceOrEnd c.here then malformed
  let (d, c) ← directiveValue name c
  return (d, ← c.endLine)

/-- The name of an anchor or alias after its indicator. -/
def anchorName (c : Cursor) : Except Defect (String × Cursor) := do
  let (name, c) ← name c
  if isBlankOrEnd c.here || "?:,]\x7d%@\x60".toList.contains c.here then return (name, c)
  else malformed

/-- Whether another exclamation mark follows in the word that begins here. -/
def hasHandle (c : Cursor) : Bool :=
  (c.rest.takeWhile (!isSpaceOrEnd ·)).contains '!'

/-- A tag, of which the first exclamation mark stands here. -/
def writtenTag (c : Cursor) : Except Defect (WrittenTag × Cursor) := do
  let (t, c) ← (do
    if c.ahead 1 == '<' then
      let (s, c) ← tagText (c.skip 2)
      if c.here == '>' then return (.verbatim s, c.next) else malformed
    else if isBlankOrEnd (c.ahead 1) then return (.verbatim "!", c.next)
    else
      let (handle, c) ← if hasHandle c.next then handle c else pure ("!", c.next)
      let (s, c) ← tagText c
      return (.handled handle s, c) : Except Defect (WrittenTag × Cursor))
  if isSpaceOrEnd c.here then return (t, c) else malformed

end Token

/-! ### The token list -/

/-- A token that may turn out to be a key: when a colon follows on the same line. -/
structure KeyCandidate where
  /-- The number of tokens before it. -/
  position : Nat
  /-- Whether nothing but a key can stand there. -/
  required : Bool
  index : Nat
  line : Nat
  column : Nat

/-- The state of reading tokens. -/
structure Lexer where
  cursor : Cursor
  tokens : Array Token := #[]
  /-- The number of flow collections around the cursor. -/
  depth : Nat := 0
  /-- The column of the innermost block collection, and those of the ones around it. -/
  indent : Int := -1
  outer : List Int := []
  /-- Whether a key may begin at the cursor. -/
  keyAllowed : Bool := true
  /-- The candidates by depth. -/
  candidates : List (Nat × KeyCandidate) := []

namespace Lexer

/-- Adds a token that ends at a position. -/
def push (s : Lexer) (t : Token) (c : Cursor) : Lexer :=
  { s with tokens := s.tokens.push t, cursor := c }

/-- The column of the cursor. -/
def column (s : Lexer) : Int := s.cursor.column

/-- Ends the block collections that are indented more than a column. -/
def unwind (column : Int) : List Int → Lexer → Lexer
  | [], s => s
  | i :: outer, s =>
    if s.depth = 0 && decide (column < s.indent) then
      unwind column outer { s with tokens := s.tokens.push .blockEnd, indent := i, outer }
    else s

/-- Ends the block collections that are indented more than a column. -/
def dedent (s : Lexer) (column : Int) : Lexer := unwind column s.outer s

/-- Begins a block collection at a column, unless one has begun there already. -/
def openBlock (s : Lexer) (column : Int) : Option Lexer :=
  if s.indent < column then some { s with outer := s.indent :: s.outer, indent := column } else none

/-- Gives up the candidates that the cursor has left behind. -/
def dropStale (s : Lexer) : Except Defect Lexer :=
  let stale (k : KeyCandidate) : Bool :=
    k.line != s.cursor.line || decide (k.index + 1024 < s.cursor.index)
  if s.candidates.any fun k => stale k.2 && k.2.required then malformed
  else .ok { s with candidates := s.candidates.filter fun k => !stale k.2 }

/-- Gives up the candidate at the present depth. -/
def dropCandidate (s : Lexer) : Except Defect Lexer :=
  if s.candidates.any fun k => k.1 == s.depth && k.2.required then malformed
  else .ok { s with candidates := s.candidates.filter (·.1 != s.depth) }

/-- Makes the next token a candidate if a key may begin here. -/
def saveCandidate (s : Lexer) : Except Defect Lexer :=
  if s.keyAllowed then do
    let c := s.cursor
    let required := s.depth == 0 && s.indent == s.column
    let s ← s.dropCandidate
    let candidate := (s.depth, ⟨s.tokens.size, required, c.index, c.line, c.column⟩)
    return { s with candidates := candidate :: s.candidates }
  else .ok s

/-- Skips spaces, comments and line breaks. A key may begin on a new line outside of flow
collections. -/
def skipSpace : (fuel : Nat) → Lexer → Lexer
  | 0, s => s
  | fuel + 1, s =>
    let c := s.cursor.skipWhile (· == ' ')
    let c := if c.here == '#' then c.skipWhile (!isLineEnd ·) else c
    match c.lineBreak with
    | ([], c) => { s with cursor := c }
    | (_, c) => skipSpace fuel { s with cursor := c, keyAllowed := s.keyAllowed || s.depth == 0 }

/-- A token that begins a node. -/
def node (s : Lexer) (read : Cursor → Except Defect (Token × Cursor)) : Except Defect Lexer := do
  let s ← s.saveCandidate
  let (t, c) ← read s.cursor
  return { s with keyAllowed := false }.push t c

/-- A token that a document or the text's end begins with: it ends all blocks. -/
def boundary (s : Lexer) : Except Defect Lexer := do
  let s ← (s.dedent (-1)).dropCandidate
  return { s with keyAllowed := false }

/-- An entry of a sequence. -/
def entry (s : Lexer) : Except Defect Lexer := do
  let s ← (if s.depth == 0 then
      if s.keyAllowed then
        match s.openBlock s.column with
        | some s => pure (s.push .blockSequence s.cursor)
        | none => pure s
      else malformed
    else pure s : Except Defect Lexer)
  let s ← { s with keyAllowed := true }.dropCandidate
  return s.push .blockEntry s.cursor.next

/-- A key that a question mark announces. -/
def announcedKey (s : Lexer) : Except Defect Lexer := do
  let s ← (if s.depth == 0 then
      if s.keyAllowed then
        match s.openBlock s.column with
        | some s => pure (s.push .blockMapping s.cursor)
        | none => pure s
      else malformed
    else pure s : Except Defect Lexer)
  let s ← { s with keyAllowed := s.depth == 0 }.dropCandidate
  return s.push .key s.cursor.next

/-- Puts the tokens before a candidate that make it a key. -/
def confirmKey (s : Lexer) (k : KeyCandidate) : Lexer :=
  let tokens := s.tokens.insertIdxIfInBounds k.position .key
  let s := { s with
    tokens, keyAllowed := false, candidates := s.candidates.filter (·.1 != s.depth) }
  if s.depth == 0 then
    match s.openBlock k.column with
    | some s => { s with tokens := s.tokens.insertIdxIfInBounds k.position .blockMapping }
    | none => s
  else s

/-- The value of a key. Without a candidate the key is empty or was announced. -/
def colon (s : Lexer) : Except Defect Lexer := do
  let s ← (match s.candidates.find? (·.1 == s.depth) with
    | some (_, k) => pure (s.confirmKey k)
    | none => do
      if s.depth == 0 && !s.keyAllowed then malformed
      let s := if s.depth == 0 then
          match s.openBlock s.column with
          | some s => s.push .blockMapping s.cursor
          | none => s
        else s
      { s with keyAllowed := s.depth == 0 }.dropCandidate : Except Defect Lexer)
  return s.push .value s.cursor.next

/-- The beginning of a flow collection. -/
def openFlow (s : Lexer) (t : Token) : Except Defect Lexer := do
  let s ← s.saveCandidate
  return { s with depth := s.depth + 1, keyAllowed := true }.push t s.cursor.next

/-- The end of a flow collection. -/
def closeFlow (s : Lexer) (t : Token) : Except Defect Lexer := do
  if s.depth == 0 then malformed
  let s ← s.dropCandidate
  return { s with depth := s.depth - 1, keyAllowed := false }.push t s.cursor.next

/-- A block scalar. -/
def blockScalar (s : Lexer) (folds : Bool) : Except Defect Lexer := do
  let s ← { s with keyAllowed := true }.dropCandidate
  let (cs, c) ← Block.read folds s.indent s.cursor.next
  return s.push (.scalar (String.ofList cs) false) c

/-- A quoted scalar. -/
def quotedScalar (s : Lexer) (double : Bool) : Except Defect Lexer :=
  s.node fun c => do
    let (cs, c) ← Quoted.read double (c.rest.length + 1) [] c.next
    return (.scalar (String.ofList cs) false, c)

/-- A plain scalar. A key may follow it if it ends at the start of a line. -/
def plainScalar (s : Lexer) : Except Defect Lexer := do
  let s ← s.saveCandidate
  let (cs, c, atLine) := Plain.read (s.depth != 0) (s.indent + 1) (s.cursor.rest.length + 1) []
    s.cursor
  return { s with keyAllowed := atLine }.push (.scalar (String.ofList cs) true) c

/-- Whether a plain scalar can begin here. -/
def startsPlain (s : Lexer) : Bool :=
  let c := s.cursor.here
  let indicator := isBlankOrEnd c || "-?:,[]\x7b\x7d#&*!|>'\"%@\x60".toList.contains c
  !indicator || (!isBlankOrEnd (s.cursor.ahead 1) &&
    (c == '-' || (s.depth == 0 && (c == '?' || c == ':'))))

/-- The next token; none at the end of the text. -/
def token (s : Lexer) : Except Defect (Lexer × Bool) := do
  let s ← (skipSpace (s.cursor.rest.length + 1) s).dropStale
  let s := s.dedent s.column
  let c := s.cursor
  let more (r : Except Defect Lexer) : Except Defect (Lexer × Bool) := r.map (·, true)
  let marker (t : Token) : Except Defect Lexer := do return (← s.boundary).push t (c.skip 3)
  let blankNext := isBlankOrEnd (c.ahead 1)
  let inFlow := s.depth != 0
  match c.here with
  | '\x00' => return (← s.boundary, false)
  | '[' => more (s.openFlow .flowSequence)
  | '\x7b' => more (s.openFlow .flowMapping)
  | ']' => more (s.closeFlow .flowSequenceEnd)
  | '\x7d' => more (s.closeFlow .flowMappingEnd)
  | ',' => more (do
      let s ← { s with keyAllowed := true }.dropCandidate
      return s.push .flowEntry s.cursor.next)
  | '*' => more (s.node fun c => do
      let (n, c) ← Token.anchorName c.next
      return (.alias n, c))
  | '&' => more (s.node fun c => do
      let (n, c) ← Token.anchorName c.next
      return (.anchor n, c))
  | '!' => more (s.node fun c => do
      let (t, c) ← Token.writtenTag c
      return (.tag t, c))
  | '\'' => more (s.quotedScalar false)
  | '"' => more (s.quotedScalar true)
  | ch =>
    if ch == '%' && c.column == 0 then more (do
      let s ← s.boundary
      let (d, c) ← Token.directiveLine s.cursor.next
      return s.push (.directive d) c)
    else if c.column == 0 && c.isMarker '-' then more (marker .documentStart)
    else if c.column == 0 && c.isMarker '.' then more (marker .documentEnd)
    else if ch == '-' && blankNext then more s.entry
    else if ch == '?' && (inFlow || blankNext) then more s.announcedKey
    else if ch == ':' && (inFlow || blankNext) then more s.colon
    else if (ch == '|' || ch == '>') && !inFlow then more (s.blockScalar (ch == '>'))
    else if s.startsPlain then more s.plainScalar
    else malformed

/-- Every token from here on. -/
def all : (fuel : Nat) → Lexer → Except Defect (List Token)
  | 0, _ => malformed
  | fuel + 1, s => do
    let (s, more) ← s.token
    if more then all fuel s else return s.tokens.toList

end Lexer

/-- The tokens of a text. A byte order mark at its start counts for nothing. -/
def Token.ofText (text : String) : Except Defect (List Token) :=
  let cs := text.toList
  if cs.all isPrintable then
    let c : Cursor := { rest := cs }
    Lexer.all (cs.length + 2) { cursor := if c.here == '\ufeff' then c.next else c }
  else malformed

end DocForms.Yaml
