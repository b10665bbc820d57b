import DocForms.Natural

/-! Search patterns as trees. The flags under which a part was written are resolved into its nodes,
so that a tree means the same wherever it stands. -/
namespace DocForms.Pattern

/-- How letters are compared. -/
inductive Folding where
  /-- Every letter matches itself only. -/
  | exact
  /-- The case of the ASCII letters is ignored. -/
  | ascii
  /-- The case of all letters is ignored. -/
  | full
deriving DecidableEq, Repr

/-- The flags in force at a place of a pattern. -/
structure Flags where
  ignoreCase : Bool := false
  multiline : Bool := false
  dotAll : Bool := false
  verbose : Bool := false
  ascii : Bool := false
deriving DecidableEq, Repr

/-- How letters are compared under the flags. -/
def Flags.folding (f : Flags) : Folding :=
  if !f.ignoreCase then .exact else if f.ascii then .ascii else .full

/-- The named classes of characters. -/
inductive Category where
  | digit | space | word
deriving DecidableEq, Repr

/-- One member of a character set. -/
inductive Member where
  | range (low high : Nat)
  | category (c : Category) (negated ascii : Bool)
deriving DecidableEq, Repr

/-- A place in the text that a pattern can ask for. -/
inductive Anchor where
  /-- The beginning of the text, or of a line. -/
  | start (lines : Bool)
  /-- The end of the text or of its last line, or of any line. -/
  | finish (lines : Bool)
  /-- The very end of the text. -/
  | last
  /-- A place where a word begins or ends. -/
  | boundary (negated ascii : Bool)
deriving DecidableEq, Repr

/-- Which of its possible counts a repetition tries first. -/
inductive Greed where
  /-- The most, then fewer. -/
  | greedy
  /-- The fewest, then more. -/
  | reluctant
  /-- The most, and no others. -/
  | possessive
deriving DecidableEq, Repr

/-- A pattern. -/
inductive Node where
  | empty
  | sequence (first second : Node)
  | choice (first second : Node)
  | literal (code : Nat) (folding : Folding)
  | anything (lineBreaks : Bool)
  | set (negated : Bool) (members : List Member) (folding : Folding)
  | anchor (a : Anchor)
  | capture (group : Nat) (body : Node)
  | plain (body : Node)
  | atomic (body : Node)
  | repetition (greed : Greed) (least : Nat) (most : Option Nat) (body : Node)
  | ahead (negated : Bool) (body : Node)
  | behind (negated : Bool) (width : Nat) (body : Node)
  | reference (group : Nat) (folding : Folding)
  | conditional (group : Nat) (whenSet otherwise : Node)
deriving DecidableEq, Repr

namespace Node

/-- Nodes one after the other. -/
def ofList : List Node → Node
  | [] => .empty
  | [n] => n
  | n :: ns => .sequence n (ofList ns)

/-- The groups that a reference or a condition asks for. -/
def asked : Node → List Nat
  | .sequence a b => asked a ++ asked b
  | .choice a b => asked a ++ asked b
  | .capture _ n => asked n
  | .plain n => asked n
  | .atomic n => asked n
  | .repetition _ _ _ n => asked n
  | .ahead _ n => asked n
  | .behind _ _ n => asked n
  | .reference g _ => [g]
  | .conditional g a b => g :: (asked a ++ asked b)
  | _ => []

/-- The width beyond which all widths count as the same. -/
def maxWidth : Nat := 2 ^ 64

/-- The least and the greatest number of characters that the pattern matches; `widths` gives those
of the groups. -/
def width (widths : Nat → Nat × Nat) : Node → Nat × Nat
  | .empty => (0, 0)
  | .sequence a b =>
    let p := width widths a
    let q := width widths b
    (min (p.1 + q.1) maxWidth, min (p.2 + q.2) maxWidth)
  | .choice a b =>
    let p := width widths a
    let q := width widths b
    (min p.1 q.1, max p.2 q.2)
  | .literal .. => (1, 1)
  | .anything _ => (1, 1)
  | .set .. => (1, 1)
  | .anchor _ => (0, 0)
  | .capture _ n => width widths n
  | .plain n => width widths n
  | .atomic n => width widths n
  | .repetition _ least most n =>
    let p := width widths n
    let high := match most with
      | none => if p.2 = 0 then 0 else maxWidth
      | some m => p.2 * m
    (min (p.1 * least) maxWidth, min high maxWidth)
  | .ahead .. => (0, 0)
  | .behind .. => (0, 0)
  | .reference g _ => widths g
  | .conditional _ a b =>
    let p := width widths a
    let q := width widths b
    (min p.1 q.1, max p.2 q.2)

end Node
end DocForms.Pattern
