import DocForms.Fault

/-! Reading positions in a YAML text. Line breaks count lines, and a byte order mark takes no
column. -/
namespace DocForms.Yaml

/-- Why a text has no value. -/
inductive Defect where
  /-- The text is not written as YAML asks, or names what there is not. -/
  | malformed
  /-- A scalar is not what it is marked to be. -/
  | misuse (m : Misuse)
deriving DecidableEq, Repr

/-- The text is not written as YAML asks. -/
def malformed {α : Type} : Except Defect α := .error .malformed

/-! ### Characters -/

/-- Stands behind the last character. It is not printable, so no text holds it. -/
def endMark : Char := '\x00'

/-- Characters that end a line. -/
def isBreak (c : Char) : Bool :=
  c == '\n' || c == '\r' || c == '\x85' || c == '\u2028' || c == '\u2029'

/-- Line ends and the end of the text. -/
def isLineEnd (c : Char) : Bool := c == endMark || isBreak c

/-- Spaces, line ends and the end of the text. -/
def isSpaceOrEnd (c : Char) : Bool := c == ' ' || isLineEnd c

/-- Spaces, tabs, line ends and the end of the text. -/
def isBlankOrEnd (c : Char) : Bool := c == '\t' || isSpaceOrEnd c

/-- Spaces and tabs. -/
def isBlank (c : Char) : Bool := c == ' ' || c == '\t'

/-- What the names of anchors, tag handles and directives consist of. -/
def isNameChar (c : Char) : Bool := c.isAlphanum || c == '-' || c == '_'

/-- Characters that a text may hold. -/
def isPrintable (c : Char) : Bool :=
  let n := c.toNat
  n == 0x09 || n == 0x0a || n == 0x0d || (0x20 ≤ n && n ≤ 0x7e) || n == 0x85 ||
    (0xa0 ≤ n && n ≤ 0xd7ff) || (0xe000 ≤ n && n ≤ 0xfffd) || 0x10000 ≤ n

/-! ### Positions -/

/-- What is left of a text, and the place of its first character. -/
structure Cursor where
  rest : List Char
  index : Nat := 0
  line : Nat := 0
  column : Nat := 0

namespace Cursor

/-- The character `n` places ahead. -/
def ahead (c : Cursor) (n : Nat) : Char := c.rest.getD n endMark

/-- The next character. -/
def here (c : Cursor) : Char := c.rest.headD endMark

/-- The position after the next character. -/
def next (c : Cursor) : Cursor :=
  match c.rest with
  | [] => c
  | ch :: rest =>
    let endsLine := isBreak ch && !(ch == '\r' && rest.head? == some '\n')
    if endsLine then ⟨rest, c.index + 1, c.line + 1, 0⟩
    else ⟨rest, c.index + 1, c.line, if ch == '\ufeff' then c.column else c.column + 1⟩

/-- The position after `n` characters. -/
def skip (c : Cursor) : Nat → Cursor
  | 0 => c
  | n + 1 => c.next.skip n

/-- The leading characters that `p` holds of, and the position after them. -/
def span (c : Cursor) (p : Char → Bool) : List Char × Cursor :=
  let cs := c.rest.takeWhile p
  (cs, c.skip cs.length)

/-- The position after the leading characters that `p` holds of. -/
def skipWhile (c : Cursor) (p : Char → Bool) : Cursor := (c.span p).2

/-- The position after the spaces that do not reach beyond a column. -/
def skipIndent (c : Cursor) (indent : Nat) : Cursor :=
  c.skip (min (indent - c.column) (c.rest.takeWhile (· == ' ')).length)

/-- A line break in its usual form, if there is one, and the position after it. -/
def lineBreak (c : Cursor) : List Char × Cursor :=
  match c.rest with
  | '\r' :: '\n' :: _ => (['\n'], c.skip 2)
  | ch :: _ =>
    if ch == '\u2028' || ch == '\u2029' then ([ch], c.next)
    else if isBreak ch then (['\n'], c.next)
    else ([], c)
  | [] => ([], c)

/-- The position after the end of a line on which only a comment follows. -/
def endLine (c : Cursor) : Except Defect Cursor :=
  let c := c.skipWhile (· == ' ')
  let c := if c.here == '#' then c.skipWhile (!isLineEnd ·) else c
  if isLineEnd c.here then .ok c.lineBreak.2 else malformed

/-- Whether three equal marks stand here, followed by a blank or an end. -/
def isMarker (c : Cursor) (mark : Char) : Bool :=
  c.ahead 0 == mark && c.ahead 1 == mark && c.ahead 2 == mark && isBlankOrEnd (c.ahead 3)

/-- Whether a document begins or ends here, given that a line begins. -/
def isDocumentMarker (c : Cursor) : Bool := c.isMarker '-' || c.isMarker '.'

end Cursor
end DocForms.Yaml
