import DocForms.Decimal.Reader
import DocForms.Json.Reader
import DocForms.Pattern.Node
import DocForms.Text.Class
import DocForms.Text.Names

/-! The reader of search patterns. It accepts classes, sets, groups of every kind, references,
conditions, look-around, inline flags, and greedy, reluctant and possessive repetition. -/
namespace DocForms.Pattern

/-- Why a text is no pattern. -/
inductive Defect where
  /-- The text breaks the rules of the notation. -/
  | malformed
  /-- A repetition count does not fit into 32 bits. -/
  | hugeCount
  /-- The whole pattern is asked to know ASCII only and all characters. -/
  | conflictingFlags
deriving DecidableEq, Repr

/-- A character, or a character after a backslash. -/
inductive Token where
  | plain (c : Char)
  | escape (c : Char)
deriving DecidableEq, Repr

/-- The tokens of a pattern; a backslash at the end is none. -/
def tokens : List Char → Except Defect (List Token)
  | [] => .ok []
  | '\\' :: [] => .error .malformed
  | '\\' :: c :: cs => (tokens cs).map (Token.escape c :: ·)
  | c :: cs => (tokens cs).map (Token.plain c :: ·)

/-- The characters that a token was written with. -/
def Token.chars : Token → List Char
  | .plain c => [c]
  | .escape c => ['\\', c]

/-- What the reader knows while it reads. -/
structure Progress where
  rest : List Token
  /-- The names that characters have. -/
  characters : Text.Names
  /-- The flags of the whole pattern. -/
  flags : Flags := {}
  /-- Whether the whole pattern was told to know all characters. -/
  unicode : Bool := false
  /-- The widths of the groups opened so far, in order; none while a group is open. -/
  groups : List (Option (Nat × Nat)) := []
  names : List (String × Nat) := []
  /-- The number of groups opened before the outermost look-behind around this place. -/
  behindFrom : Option Nat := none
  /-- Whether every look-behind so far has a fixed width. -/
  fixedBehind : Bool := true
  /-- Groups that conditions ask for by number. -/
  asked : List Nat := []

/-- A step of the reader. -/
abbrev Read := StateT Progress (Except Defect)

namespace Read

/-- The text is no pattern. -/
def fail {α : Type} : Read α := throw .malformed

/-- The next token. -/
def peek : Read (Option Token) := do return (← get).rest.head?

/-- Takes the next token. -/
def next : Read (Option Token) := do
  let s ← get
  set { s with rest := s.rest.tail }
  return s.rest.head?

/-- Takes the next token if it is the given character. -/
def take (c : Char) : Read Bool := do
  if (← peek) == some (.plain c) then
    let _ ← next
    return true
  else return false

/-- Takes up to `n` tokens that are characters of a class. -/
def takeWhile (p : Char → Bool) : (n : Nat) → Read (List Char)
  | 0 => return []
  | n + 1 => do
    match ← peek with
    | some (.plain c) =>
      if p c then
        let _ ← next
        return c :: (← takeWhile p n)
      else return []
    | _ => return []

/-- The characters up to a terminator, which is taken too; there has to be at least one. -/
def takeUntil (terminator : Char) : Read (List Char) := do
  let s ← get
  let name := s.rest.takeWhile (· != .plain terminator)
  match s.rest.drop name.length with
  | [] => fail
  | _ :: rest =>
    if name.isEmpty then fail
    else
      set { s with rest }
      return name.flatMap Token.chars

/-- The widths of a group that has been closed. -/
def closedWidth? (group : Nat) : Read (Option (Nat × Nat)) := do
  let s ← get
  return if group = 0 then none else (s.groups[group - 1]?).join

/-- Refuses a group inside a look-behind that is open or begins there. -/
def checkBehind (group : Nat) : Read Unit := do
  match (← get).behindFrom with
  | none => return ()
  | some limit =>
    if (← closedWidth? group).isNone then fail
    else if limit < group then fail

end Read

open Read

/-- ASCII digits. -/
def isAsciiDigit (c : Char) : Bool := c.isDigit

/-- Octal digits. -/
def isOctal (c : Char) : Bool := decide ('0' ≤ c) && decide (c ≤ '7')

/-- Hexadecimal digits. -/
def isHex (c : Char) : Bool := (Json.hexValue? c).isSome

/-- The number that digits stand for in a base. -/
def numberOf (base : Nat) (ds : List Char) : Nat :=
  ds.foldl (fun n c => n * base + (Json.hexValue? c).getD 0) 0

/-- A name that a group can have: word characters, the first of which is no digit. -/
def isGroupName (cs : List Char) : Bool :=
  match cs with
  | [] => false
  | c :: _ => !Text.isDigit c && cs.all Text.isWord

/-- The control characters that have an escape of their own. -/
def controlCode? : Char → Option Nat
  | 'a' => some 7
  | 'b' => some 8
  | 'f' => some 12
  | 'n' => some 10
  | 'r' => some 13
  | 't' => some 9
  | 'v' => some 11
  | '\\' => some 92
  | _ => none

/-- The classes that have an escape. -/
def category? (f : Flags) : Char → Option Member
  | 'd' => some (.category .digit false f.ascii)
  | 'D' => some (.category .digit true f.ascii)
  | 's' => some (.category .space false f.ascii)
  | 'S' => some (.category .space true f.ascii)
  | 'w' => some (.category .word false f.ascii)
  | 'W' => some (.category .word true f.ascii)
  | _ => none

/-- The code of an escape with exactly `n` hexadecimal digits. -/
def hexCode (n : Nat) : Read Nat := do
  let ds ← takeWhile isHex n
  if ds.length = n && numberOf 16 ds < 0x110000 then return numberOf 16 ds else fail

/-- The code of a character whose name stands in braces. -/
def namedCode : Read Nat := do
  if !(← take '\x7b') then fail
  let name ← takeUntil '\x7d'
  match (← get).characters (String.ofList name) with
  | none => fail
  | some n => return n

/-- The code of an escape that means the same inside and outside of sets. -/
def commonEscape (c : Char) : Read Nat := do
  match c with
  | 'x' => hexCode 2
  | 'u' => hexCode 4
  | 'U' => hexCode 8
  | 'N' => namedCode
  | c => if c.isAlpha || c.isDigit then fail else return Text.code c

/-- An escape inside a set. -/
def setEscape (f : Flags) (c : Char) : Read Member := do
  match controlCode? c, category? f c with
  | some n, _ => return .range n n
  | none, some m => return m
  | none, none =>
    if isOctal c then
      let ds ← takeWhile isOctal 2
      let n := numberOf 8 (c :: ds)
      if 0o377 < n then fail else return .range n n
    else
      let n ← commonEscape c
      return .range n n

/-- A reference to a group by number, or an octal code of three digits. -/
def referenceOrOctal (f : Flags) (c : Char) : Read Node := do
  let second ← takeWhile isAsciiDigit 1
  let ds := c :: second
  let third ← if second.length = 1 && ds.all isOctal then takeWhile isOctal 1 else pure []
  if third.length = 1 then
    let n := numberOf 8 (ds ++ third)
    if 0o377 < n then fail else return .literal n f.folding
  else
    let group := numberOf 10 ds
    if (← closedWidth? group).isNone then fail
    else
      checkBehind group
      return .reference group f.folding

/-- An escape outside of sets. -/
def nodeEscape (f : Flags) (c : Char) : Read Node := do
  match c with
  | 'A' => return .anchor (.start false)
  | 'Z' => return .anchor .last
  | 'b' => return .anchor (.boundary false f.ascii)
  | 'B' => return .anchor (.boundary true f.ascii)
  | '0' => do
    let ds ← takeWhile isOctal 2
    return .literal (numberOf 8 ds) f.folding
  | c =>
    match category? f c, controlCode? c with
    | some m, _ => return .set false [m] .exact
    | none, some n => return .literal n f.folding
    | none, none =>
      if isAsciiDigit c then referenceOrOctal f c
      else return .literal (← commonEscape c) f.folding

/-- The code of a member that is a single character. -/
def singleCode? : Member → Option Nat
  | .range a b => if a = b then some a else none
  | _ => none

/-- A member of a set from its first token. -/
def memberOf (f : Flags) : Token → Read Member
  | .plain c => return .range (Text.code c) (Text.code c)
  | .escape c => setEscape f c

/-- The members of a set up to its closing bracket, after those in `done`, last first. -/
def members (f : Flags) : (fuel : Nat) → (done : List Member) → Read (List Member)
  | 0, _ => fail
  | fuel + 1, done => do
    match ← next with
    | none => fail
    | some token =>
      if token == .plain ']' && !done.isEmpty then return done.reverse
      else
        let low ← memberOf f token
        if ← take '-' then
          match ← next with
          | none => fail
          | some (.plain ']') => return (.range 45 45 :: low :: done).reverse
          | some token =>
            let high ← memberOf f token
            match singleCode? low, singleCode? high with
            | some a, some b => if b < a then fail else members f fuel (.range a b :: done)
            | _, _ => fail
        else members f fuel (low :: done)

/-- The counts of a repetition in braces; none if the braces are ordinary characters. -/
def counts : Read (Option (Nat × Option Nat)) := do
  let start ← get
  if (← peek) == some (.plain '\x7d') then return none
  else
    let low ← takeWhile isAsciiDigit start.rest.length
    let high ← if ← take ',' then takeWhile isAsciiDigit start.rest.length else pure low
    if ← take '\x7d' then
      let least := numberOf 10 low
      let most := if high.isEmpty then none else some (numberOf 10 high)
      if 4294967295 ≤ least then throw .hugeCount
      match most with
      | none => return some (least, none)
      | some m =>
        if 4294967295 ≤ m then throw .hugeCount
        else if m < least then fail
        else return some (least, some m)
    else
      set start
      return none

/-- The last of the nodes read, repeated. A place cannot be repeated, nor a repetition. -/
def repeated (least : Nat) (most : Option Nat) : List Node → Read (List Node)
  | [] => fail
  | .anchor _ :: _ => fail
  | .repetition .. :: _ => fail
  | n :: ns => do
    let greed ←
      if ← take '?' then pure Greed.reluctant
      else if ← take '+' then pure Greed.possessive
      else pure Greed.greedy
    return .repetition greed least most n :: ns

/-- The letters of the flags. -/
def isFlag (c : Char) : Bool := ['i', 'L', 'm', 's', 'x', 'a', 't', 'u'].contains c

/-- The flags with one more switched on or off. -/
def Flags.switch (f : Flags) (on : Bool) : Char → Flags
  | 'i' => { f with ignoreCase := on }
  | 'm' => { f with multiline := on }
  | 's' => { f with dotAll := on }
  | 'x' => { f with verbose := on }
  | 'a' => { f with ascii := true }
  | 'u' => { f with ascii := false }
  | _ => f

/-- Letters of flags up to a token that is none, which is taken too. -/
def flagLetters : (fuel : Nat) → (first : Char) → Read (List Char × Char)
  | 0, _ => fail
  | fuel + 1, c => do
    if !isFlag c then fail
    else match ← next with
      | some (.plain d) =>
        if d == ')' || d == '-' || d == ':' then return ([c], d)
        else
          let (cs, terminator) ← flagLetters fuel d
          return (c :: cs, terminator)
      | _ => fail

/-- Inline flags after their first token: those switched on, those switched off, and whether they
are for the whole pattern. -/
def inlineFlags (first : Char) : Read (List Char × List Char × Bool) := do
  let fuel := (← get).rest.length + 1
  let (on, terminator) ←
    if first == '-' then pure ([], '-') else flagLetters fuel first
  if on.contains 'L' || (on.contains 'a' && on.contains 'u') then fail
  if terminator == ')' then return (on, [], true)
  if on.contains 't' then fail
  if terminator == ':' then return (on, [], false)
  match ← next with
  | some (.plain c) =>
    let (off, terminator) ← flagLetters fuel c
    if terminator != ':' then fail
    if off.any fun d => d == 'a' || d == 'u' || d == 'L' || d == 't' || on.contains d then fail
    return (on, off, false)
  | _ => fail

/-- What the characters after an opening bracket begin. -/
inductive Opening where
  | capture (name : Option String)
  | plain
  | atomic
  | flagged (on off : List Char)
  | whole (on : List Char)
  | comment
  | ahead (negated : Bool)
  | behind (negated : Bool)
  | reference (group : Nat)
  | conditional (group : Nat)

/-- The group with a name. -/
def namedGroup (cs : List Char) : Read Nat := do
  if !isGroupName cs then fail
  match (← get).names.lookup (String.ofList cs) with
  | none => fail
  | some group => return group

/-- The group of a condition: a name or a number. -/
def conditionGroup (cs : List Char) : Read Nat := do
  if isGroupName cs then namedGroup cs
  else match Decimal.readInt? (String.ofList cs) with
    | some (.ofNat (n + 1)) =>
      modify fun s => { s with asked := (n + 1) :: s.asked }
      return n + 1
    | _ => fail

/-- Reads what an opening bracket begins. -/
def opening : Read Opening := do
  if !(← take '?') then return .capture none
  match ← next with
  | some (.plain 'P') =>
    if ← take '<' then
      let cs ← takeUntil '>'
      if isGroupName cs then return .capture (some (String.ofList cs)) else fail
    else if ← take '=' then
      let group ← namedGroup (← takeUntil ')')
      if (← closedWidth? group).isNone then fail
      checkBehind group
      return .reference group
    else fail
  | some (.plain ':') => return .plain
  | some (.plain '#') =>
    let s ← get
    match s.rest.dropWhile (· != .plain ')') with
    | [] => fail
    | _ :: rest =>
      set { s with rest }
      return .comment
  | some (.plain '=') => return .ahead false
  | some (.plain '!') => return .ahead true
  | some (.plain '<') =>
    match ← next with
    | some (.plain '=') => return .behind false
    | some (.plain '!') => return .behind true
    | _ => fail
  | some (.plain '(') =>
    let group ← conditionGroup (← takeUntil ')')
    checkBehind group
    return .conditional group
  | some (.plain '>') => return .atomic
  | some (.plain c) =>
    if isFlag c || c == '-' then
      let (on, off, whole) ← inlineFlags c
      return if whole then .whole on else .flagged on off
    else fail
  | _ => fail

/-- Opens a capturing group and gives its number. -/
def openGroup (name : Option String) : Read Nat := do
  let s ← get
  let group := s.groups.length + 1
  let names ← match name with
    | none => pure s.names
    | some n => if (s.names.lookup n).isSome then fail else pure ((n, group) :: s.names)
  set { s with groups := s.groups ++ [none], names }
  return group

/-- The widths of the closed groups. -/
def widthsOf (s : Progress) (group : Nat) : Nat × Nat :=
  ((s.groups[group - 1]?).join).getD (0, 0)

/-- Closes a capturing group. -/
def closeGroup (group : Nat) (body : Node) : Read Unit := do
  modify fun s => { s with groups := s.groups.set (group - 1) (some (body.width (widthsOf s))) }

/-- Takes a closing bracket. -/
def close : Read Unit := do
  if !(← take ')') then fail

/-- Spaces that a verbose pattern may hold between its parts. -/
def isVerboseSpace (c : Char) : Bool :=
  c == ' ' || c == '\t' || c == '\n' || c == '\r' || c == '\x0b' || c == '\x0c'

/-- Leaves out the rest of a comment line. -/
def skipLine : Read Unit :=
  modify fun s => { s with rest := (s.rest.dropWhile (· != .plain '\n')).tail }

mutual

/-- Alternatives up to a closing bracket or the end. -/
def alternatives : (fuel : Nat) → (top : Bool) → (first : Bool) → Flags → Read Node
  | 0, _, _, _ => fail
  | fuel + 1, top, first, f => do
    let n ← parts fuel top first f []
    if ← take '|' then
      let s ← get
      let f := if top then s.flags else f
      return .choice n (← alternatives fuel top false f)
    else return n

/-- Parts one after the other, after those in `done`, last first. `top` tells the outermost level
and `first` its first alternative. -/
def parts : (fuel : Nat) → (top first : Bool) → Flags → (done : List Node) → Read Node
  | 0, _, _, _, _ => fail
  | fuel + 1, top, first, f, done => do
    let continueWith (n : Node) := parts fuel top first f (n :: done)
    match ← peek with
    | none => return .ofList done.reverse
    | some (.escape c) =>
      let _ ← next
      continueWith (← nodeEscape f c)
    | some (.plain c) =>
      if c == '|' || c == ')' then return .ofList done.reverse
      let _ ← next
      if f.verbose && isVerboseSpace c then parts fuel top first f done
      else if f.verbose && c == '#' then
        skipLine
        parts fuel top first f done
      else match c with
        | '[' =>
          let negated ← take '^'
          let ms ← members f ((← get).rest.length + 1) []
          continueWith (.set negated ms f.folding)
        | '?' => parts fuel top first f (← repeated 0 (some 1) done)
        | '*' => parts fuel top first f (← repeated 0 none done)
        | '+' => parts fuel top first f (← repeated 1 none done)
        | '\x7b' =>
          match ← counts with
          | some (least, most) => parts fuel top first f (← repeated least most done)
          | none => continueWith (.literal (Text.code c) f.folding)
        | '.' => continueWith (.anything f.dotAll)
        | '^' => continueWith (.anchor (.start f.multiline))
        | '$' => continueWith (.anchor (.finish f.multiline))
        | '(' =>
          match ← opening with
          | .comment => parts fuel top first f done
          | .reference group => continueWith (.reference group f.folding)
          | .whole on =>
            if !top || !first || !done.isEmpty then fail
            let s ← get
            let ascii := s.flags.ascii || on.contains 'a'
            let unicode := s.unicode || on.contains 'u'
            let flags := { on.foldl (·.switch true) s.flags with ascii }
            set { s with flags, unicode }
            parts fuel top first flags done
          | .capture name =>
            let group ← openGroup name
            let body ← alternatives fuel false false f
            close
            closeGroup group body
            continueWith (.capture group body)
          | .plain =>
            let body ← alternatives fuel false false f
            close
            continueWith (.plain body)
          | .atomic =>
            let body ← alternatives fuel false false f
            close
            continueWith (.atomic body)
          | .flagged on off =>
            let inner := off.foldl (·.switch false) (on.foldl (·.switch true) f)
            let body ← alternatives fuel false false inner
            close
            continueWith (.plain body)
          | .ahead negated =>
            let body ← alternatives fuel false false f
            close
            continueWith (.ahead negated body)
          | .behind negated =>
            let outer := (← get).behindFrom
            if outer.isNone then
              modify fun s => { s with behindFrom := some s.groups.length }
            let body ← alternatives fuel false false f
            modify fun s => { s with behindFrom := outer }
            close
            let (low, high) := body.width (widthsOf (← get))
            if low != high || 4294967295 < low then
              modify fun s => { s with fixedBehind := false }
            continueWith (.behind negated low body)
          | .conditional group =>
            let whenSet ← parts fuel false false f []
            let otherwise ← if ← take '|' then parts fuel false false f [] else pure Node.empty
            close
            continueWith (.conditional group whenSet otherwise)
        | c => continueWith (.literal (Text.code c) f.folding)

end

/-- The tree of a pattern that may ask for characters by their names. -/
def read (characters : Text.Names) (source : String) : Except Defect Node := do
  let ts ← tokens source.toList
  let (n, s) ← (alternatives (4 * ts.length + 4) true true {}).run { rest := ts, characters }
  if s.flags.ascii && s.unicode then throw .conflictingFlags
  if !s.rest.isEmpty || !s.fixedBehind || s.asked.any (s.groups.length < ·) then throw .malformed
  return n

end DocForms.Pattern
