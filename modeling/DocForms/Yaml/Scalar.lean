import DocForms.Json.Reader
import DocForms.Yaml.Cursor

/-! The texts of scalars: plain, quoted and block ones. Line breaks inside plain and quoted scalars
are folded into spaces, those of block scalars are kept or folded as their heads ask. -/
namespace DocForms.Yaml

/-- What stands for a single line break and the further ones that follow it. -/
def folded (first : List Char) (more : List Char) : List Char :=
  if first != ['\n'] then first ++ more else if more.isEmpty then [' '] else more

namespace Plain

/-- Whether a colon ends a plain scalar, given the character after it. -/
def endsAtColon (flow : Bool) (after : Char) : Bool :=
  isBlankOrEnd after || (flow && ",[]\x7b\x7d".toList.contains after)

/-- The characters of a plain scalar up to the next blank or indicator. -/
def run (flow : Bool) : List Char → List Char
  | [] => []
  | c :: cs =>
    let ends := isBlankOrEnd c || (c == ':' && endsAtColon flow (cs.headD endMark)) ||
      (flow && ",?[]\x7b\x7d".toList.contains c)
    if ends then [] else c :: run flow cs

/-- What follows a run: the white space before the next one, if the scalar can go on. -/
structure Gap where
  space : Option (List Char)
  crossesLine : Bool
  cursor : Cursor

/-- The further line breaks of a gap and the position after them and the spaces; none if a document
begins or ends on the way. -/
def breaks : (fuel : Nat) → (done : List Char) → Cursor → Option (List Char) × Cursor
  | 0, done, c => (some done, c)
  | fuel + 1, done, c =>
    if c.here == ' ' then breaks fuel done c.next
    else match c.lineBreak with
      | ([], c) => (some done, c)
      | (b, c) => if c.isDocumentMarker then (none, c) else breaks fuel (done ++ b) c

/-- The white space after a run. -/
def gap (c : Cursor) : Gap :=
  let (spaces, c) := c.span (· == ' ')
  match c.lineBreak with
  | ([], c) => ⟨some spaces, false, c⟩
  | (first, c) =>
    if c.isDocumentMarker then ⟨none, true, c⟩
    else
      let (more, c) := breaks (c.rest.length + 1) [] c
      ⟨more.map (folded first), true, c⟩

/-- A plain scalar with the position after it, and whether that is at the start of a line. -/
def read (flow : Bool) (indent : Int) :
    (fuel : Nat) → (done : List Char) → Cursor → List Char × Cursor × Bool
  | 0, done, c => (done, c, false)
  | fuel + 1, done, c =>
    let chars := run flow c.rest
    let done := done ++ chars
    let g := gap (c.skip chars.length)
    let dedents := !flow && decide ((g.cursor.column : Int) < indent)
    match g.space with
    | none => (done, g.cursor, g.crossesLine)
    | some space =>
      let stops := space.isEmpty || g.cursor.here == '#' || dedents ||
        (run flow g.cursor.rest).isEmpty
      if stops then (done, g.cursor, g.crossesLine)
      else read flow indent fuel (done ++ space) g.cursor

end Plain

namespace Quoted

/-- The character that an escape letter stands for. -/
def escaped? : Char → Option Char
  | '0' => some '\x00'
  | 'a' => some '\x07'
  | 'b' => some '\x08'
  | 't' => some '\t'
  | '\t' => some '\t'
  | 'n' => some '\n'
  | 'v' => some '\x0b'
  | 'f' => some '\x0c'
  | 'r' => some '\r'
  | 'e' => some '\x1b'
  | ' ' => some ' '
  | '"' => some '"'
  | '\\' => some '\\'
  | '/' => some '/'
  | 'N' => some '\x85'
  | '_' => some '\xa0'
  | 'L' => some '\u2028'
  | 'P' => some '\u2029'
  | _ => none

/-- The number of hexadecimal digits after an escape letter. -/
def codeLength? : Char → Option Nat
  | 'x' => some 2
  | 'u' => some 4
  | 'U' => some 8
  | _ => none

/-- The character with the number that `n` hexadecimal digits stand for. -/
def readCode (n : Nat) (cs : List Char) : Except Defect Char :=
  let digits := (cs.take n).filterMap Json.hexValue?
  if digits.length < n then malformed
  else
    let code := digits.foldl (fun m d => m * 16 + d) 0
    if 0x110000 ≤ code then .error (.misuse .content) else .ok (Text.ofCode code)

/-- The line breaks at the start of lines, with the blanks around them skipped. -/
def breaks : (fuel : Nat) → (done : List Char) → Cursor → Except Defect (List Char × Cursor)
  | 0, done, c => .ok (done, c)
  | fuel + 1, done, c =>
    if c.isDocumentMarker then malformed
    else match (c.skipWhile isBlank).lineBreak with
      | ([], c) => .ok (done, c)
      | (b, c) => breaks fuel (done ++ b) c

/-- The blanks before the next characters: as they are inside a line, folded across lines. -/
def spaces (c : Cursor) : Except Defect (List Char × Cursor) :=
  let (blanks, c) := c.span isBlank
  if c.here == endMark then malformed
  else match c.lineBreak with
    | ([], c) => .ok (blanks, c)
    | (first, c) => do
      let (more, c) ← breaks (c.rest.length + 1) [] c
      return (folded first more, c)

/-- The characters up to the closing quote, after those in `done`. -/
def read (double : Bool) :
    (fuel : Nat) → (done : List Char) → Cursor → Except Defect (List Char × Cursor)
  | 0, _, _ => malformed
  | fuel + 1, done, c =>
    let ch := c.here
    if isBlankOrEnd ch then do
      let (cs, c) ← spaces c
      read double fuel (done ++ cs) c
    else if double then
      if ch == '"' then .ok (done, c.next)
      else if ch == '\\' then
        let letter := c.ahead 1
        match escaped? letter, codeLength? letter with
        | some d, _ => read double fuel (done ++ [d]) (c.skip 2)
        | none, some n => do
          let d ← readCode n (c.rest.drop 2)
          read double fuel (done ++ [d]) (c.skip (2 + n))
        | none, none =>
          match c.next.lineBreak with
          | ([], _) => malformed
          | (_, c) => do
            let (more, c) ← breaks (c.rest.length + 1) [] c
            read double fuel (done ++ more) c
      else read double fuel (done ++ [ch]) c.next
    else if ch == '\'' then
      if c.ahead 1 == '\'' then read double fuel (done ++ ['\'']) (c.skip 2)
      else .ok (done, c.next)
    else read double fuel (done ++ [ch]) c.next

end Quoted

namespace Block

/-- What happens to the line breaks at the end of a block scalar. -/
inductive Chomping where
  | strip | clip | keep
deriving DecidableEq

/-- A chomping indicator. -/
def chomping? : Char → Option Chomping
  | '+' => some .keep
  | '-' => some .strip
  | _ => none

/-- An indentation indicator, which is not zero. -/
def increment? (c : Char) : Except Defect (Option Nat) :=
  if c == '0' then malformed else .ok (if c.isDigit then some (c.toNat - 48) else none)

/-- The head of a block scalar: its two indicators in either order. -/
def head (c : Cursor) : Except Defect (Chomping × Option Nat × Cursor) := do
  let (chomping, increment, c) ← (match chomping? c.here with
    | some ch => do
      let n ← increment? c.next.here
      return (ch, n, if n.isSome then c.skip 2 else c.next)
    | none => do
      match ← increment? c.here with
      | none => return (.clip, none, c)
      | some n =>
        match chomping? c.next.here with
        | some ch => return (ch, some n, c.skip 2)
        | none => return (.clip, some n, c.next) : Except Defect (Chomping × Option Nat × Cursor))
  if isSpaceOrEnd c.here then return (chomping, increment, ← c.endLine) else malformed

/-- The line breaks before the first line, the greatest indentation among these lines, and the
position after them. -/
def leading : (fuel : Nat) → (done : List Char) → (widest : Nat) → Cursor →
    List Char × Nat × Cursor
  | 0, done, widest, c => (done, widest, c)
  | fuel + 1, done, widest, c =>
    if c.here == ' ' then leading fuel done (max widest c.next.column) c.next
    else match c.lineBreak with
      | ([], c) => (done, widest, c)
      | (b, c) => leading fuel (done ++ b) widest c

/-- The line breaks of empty lines, with the indentation skipped. -/
def breaks (indent : Nat) : (fuel : Nat) → (done : List Char) → Cursor → List Char × Cursor
  | 0, done, c => (done, c)
  | fuel + 1, done, c =>
    match (c.skipIndent indent).lineBreak with
    | ([], c) => (done, c)
    | (b, c) => breaks indent fuel (done ++ b) c

/-- The lines of a block scalar from an indented one on. `before` are the line breaks before it. -/
def lines (folds : Bool) (chomping : Chomping) (indent : Nat) :
    (fuel : Nat) → (done before : List Char) → Cursor → List Char × Cursor
  | 0, done, _, c => (done, c)
  | fuel + 1, done, before, c =>
    let (line, after) := c.span (!isLineEnd ·)
    let done := done ++ before ++ line
    let (ending, after) := after.lineBreak
    let (more, after) := breaks indent (after.rest.length + 1) [] after
    if after.column == indent && after.here != endMark then
      let foldsHere := folds && ending == ['\n'] && !isBlank c.here && !isBlank after.here
      let joint := if !foldsHere then ending else if more.isEmpty then [' '] else []
      lines folds chomping indent fuel (done ++ joint) more after
    else
      match chomping with
      | .strip => (done, after)
      | .clip => (done ++ ending, after)
      | .keep => (done ++ ending ++ more, after)

/-- A block scalar after its mark, inside a block that is indented by `parent`. -/
def read (folds : Bool) (parent : Int) (c : Cursor) : Except Defect (List Char × Cursor) := do
  let (chomping, increment, c) ← head c
  let least := max (parent + 1) 1
  let (before, indent, c) := match increment with
    | none =>
      let (before, widest, c) := leading (c.rest.length + 1) [] 0 c
      (before, max least.toNat widest, c)
    | some n =>
      let indent := (least + n - 1).toNat
      let (before, c) := breaks indent (c.rest.length + 1) [] c
      (before, indent, c)
  if c.column == indent && c.here != endMark then
    return lines folds chomping indent (c.rest.length + 1) [] before c
  else
    return (if chomping == .keep then before else [], c)

end Block
end DocForms.Yaml
