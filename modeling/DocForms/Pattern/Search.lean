import DocForms.Pattern.Node
import DocForms.Text.Class

/-! Searching a text for a pattern. A node maps a place to the places where a match of it can end,
the preferred one first; equal outcomes are kept once, since whatever follows treats them alike. -/
namespace DocForms.Pattern

/-- A place in the text and the spans of the groups matched on the way to it. -/
structure Outcome where
  position : Nat
  spans : List (Nat × Nat × Nat)
deriving DecidableEq

namespace Outcome

/-- The span of a group. -/
def span? (o : Outcome) (group : Nat) : Option (Nat × Nat) := o.spans.lookup group

/-- The outcome with the span of a group set. -/
def record (o : Outcome) (group start finish : Nat) : Outcome :=
  { o with spans := (group, start, finish) :: o.spans.filter (·.1 != group) }

end Outcome

/-- Outcomes without repetitions, first come first. -/
def distinct (os : List Outcome) : List Outcome := os.eraseDups

/-- ASCII letters in lower case. -/
def foldAscii (n : Nat) : Nat := if 65 ≤ n ∧ n ≤ 90 then n + 32 else n

/-- The codes that a character matches under a folding. -/
def variants (f : Folding) (c : Char) : List Nat :=
  match f with
  | .exact => [Text.code c]
  | .ascii =>
    let n := foldAscii (Text.code c)
    if 97 ≤ n ∧ n ≤ 122 then [n, n - 32] else [n]
  | .full => (Text.caseVariants c).map Text.code

/-- Whether a character belongs to a named class. -/
def Category.holds (k : Category) (ascii : Bool) (c : Char) : Bool :=
  match k with
  | .digit => if ascii then c.isDigit else Text.isDigit c
  | .space =>
    if ascii then c == ' ' || (decide (9 ≤ c.toNat) && decide (c.toNat ≤ 13)) else Text.isBlank c
  | .word => if ascii then c == '_' || c.isAlphanum else Text.isWord c

/-- Whether a character, given with its variants, belongs to a member of a set. -/
def Member.holds (m : Member) (c : Char) (codes : List Nat) : Bool :=
  match m with
  | .range low high => codes.any fun n => decide (low ≤ n) && decide (n ≤ high)
  | .category k negated ascii => k.holds ascii c != negated

/-- Whether the pattern's place is at a position of the text. -/
def Anchor.holds (text : Array Char) (p : Nat) : Anchor → Bool
  | .start lines => p == 0 || (lines && text[p - 1]? == some '\n')
  | .finish lines =>
    p == text.size || (text[p]? == some '\n' && (lines || p + 1 == text.size))
  | .last => p == text.size
  | .boundary negated ascii =>
    let word (i : Option Char) := match i with
      | some c => Category.word.holds ascii c
      | none => false
    let before := if p = 0 then false else word text[p - 1]?
    text.size != 0 && ((before != word text[p]?) != negated)

/-- One step over a character with a property. -/
def oneChar (text : Array Char) (ok : Char → Bool) (o : Outcome) : List Outcome :=
  match text[o.position]? with
  | some c => if ok c then [{ o with position := o.position + 1 }] else []
  | none => []

/-- The outcomes of exactly `n` rounds of `body`. Once a round changes nothing, no later one
does. -/
def rounds (body : Outcome → List Outcome) : (n : Nat) → List Outcome → List Outcome
  | 0, os => os
  | n + 1, os =>
    let next := distinct (os.flatMap body)
    if next.isEmpty || next == os then next else rounds body n next

/-- A search through the rounds of a repetition: outcomes found so far, last first, and the round
beginnings already explored. -/
structure Trail where
  found : List Outcome := []
  seen : List (Option Nat × Outcome) := []

/-- Explores up to `most` more rounds from an outcome whose last round began at `last`. A round
that matched nothing is not followed by another. -/
def explore (body : Outcome → List Outcome) (greed : Greed) :
    (fuel : Nat) → (most : Option Nat) → (last : Option Nat) → Trail → Outcome → Trail
  | 0, _, _, t, o => { t with found := o :: t.found }
  | fuel + 1, most, last, t, o =>
    if t.seen.contains (most, o) then t
    else
      let t := { t with seen := (most, o) :: t.seen }
      let deeper (t : Trail) : Trail :=
        if most == some 0 || last == some o.position then t
        else (body o).foldl
          (fun t next => explore body greed fuel (most.map (· - 1)) (some o.position) t next) t
      match greed with
      | .reluctant => deeper { t with found := o :: t.found }
      | _ =>
        let t := deeper t
        { t with found := o :: t.found }

/-- The outcomes of a repetition. -/
def repeatFrom (size : Nat) (body : Outcome → List Outcome) (greed : Greed) (least : Nat)
    (most : Option Nat) (o : Outcome) : List Outcome :=
  let starts := rounds body least [o]
  let trail := starts.foldl
    (fun t s => explore body greed (size + 2) (most.map (· - least)) none t s) {}
  let all := distinct trail.found.reverse
  match greed with
  | .possessive => all.take 1
  | _ => all

/-- The outcomes of matching a node from an outcome on, in order of preference; only the groups in
`tracked` are recorded. -/
def Node.outcomes (text : Array Char) (tracked : List Nat) : Node → Outcome → List Outcome
  | .empty, o => [o]
  | .sequence a b, o => distinct ((outcomes text tracked a o).flatMap (outcomes text tracked b))
  | .choice a b, o => distinct (outcomes text tracked a o ++ outcomes text tracked b o)
  | .literal code f, o => oneChar text (fun c => (variants f c).contains code) o
  | .anything lineBreaks, o => oneChar text (fun c => lineBreaks || c != '\n') o
  | .set negated ms f, o =>
    oneChar text (fun c =>
      let codes := variants f c
      ms.any (·.holds c codes) != negated) o
  | .anchor a, o => if a.holds text o.position then [o] else []
  | .capture g n, o =>
    if tracked.contains g then
      (outcomes text tracked n o).map fun e => e.record g o.position e.position
    else outcomes text tracked n o
  | .plain n, o => outcomes text tracked n o
  | .atomic n, o => (outcomes text tracked n o).take 1
  | .repetition greed least most n, o =>
    repeatFrom text.size (outcomes text tracked n) greed least most o
  | .ahead negated n, o =>
    match outcomes text tracked n o with
    | [] => if negated then [o] else []
    | e :: _ => if negated then [] else [{ e with position := o.position }]
  | .behind negated width n, o =>
    let found := if o.position < width then []
      else outcomes text tracked n { o with position := o.position - width }
    match found with
    | [] => if negated then [o] else []
    | e :: _ => if negated then [] else [{ e with position := o.position }]
  | .reference g f, o =>
    match o.span? g with
    | none => []
    | some (start, finish) =>
      let agrees := (List.range (finish - start)).all fun i =>
        match text[start + i]?, text[o.position + i]? with
        | some a, some b => (variants f b).contains (Text.code a)
        | _, _ => false
      if agrees then [{ o with position := o.position + (finish - start) }] else []
  | .conditional g a b, o =>
    if (o.span? g).isSome then outcomes text tracked a o else outcomes text tracked b o

/-- Whether the pattern matches somewhere in the text. -/
def Node.search (n : Node) (s : String) : Bool :=
  let text := s.toList.toArray
  let tracked := n.asked
  (List.range (text.size + 1)).any fun p => !(n.outcomes text tracked ⟨p, []⟩).isEmpty

end DocForms.Pattern
