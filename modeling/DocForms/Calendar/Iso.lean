import DocForms.Calendar.Moment

/-! ISO 8601 texts of days and moments: the one form that is written, and the forms that are read,
which add the basic forms without separators, the week dates and reduced times. Texts are read
octet by octet; a zero octet counts as the end of the text. -/
namespace DocForms.Iso

/-- The octets of the text's encoding, each as the character with its number. -/
def octets (s : String) : List Char := s.toUTF8.toList.map fun b => Char.ofNat b.toNat

/-- A number in decimal, filled with zeros up to `width` digits. -/
def padded (width n : Nat) : List Char :=
  let ds := Nat.toDigits 10 n
  List.replicate (width - ds.length) '0' ++ ds

/-! ### Writing -/

/-- A day as year, month and day. -/
def writeDate (d : Date) : List Char :=
  padded 4 d.year ++ '-' :: padded 2 d.month ++ '-' :: padded 2 d.day

/-- A fraction of a second, if it is not zero. -/
def writeMicros (n : Nat) : List Char := if n = 0 then [] else '.' :: padded 6 n

/-- A time with seconds, and with microseconds if there are any. -/
def writeTime (t : TimeOfDay) : List Char :=
  padded 2 t.hour ++ ':' :: padded 2 t.minute ++ ':' :: padded 2 t.second ++ writeMicros t.micro

/-- An offset as signed hours and minutes, with seconds and microseconds if there are any. -/
def writeOffset (o : Offset) : List Char :=
  let n := o.micros.natAbs
  let seconds := n / 1000000
  let tail :=
    if seconds % 60 = 0 && n % 1000000 = 0 then []
    else ':' :: padded 2 (seconds % 60) ++ writeMicros (n % 1000000)
  (if o.micros < 0 then '-' else '+') :: padded 2 (seconds / 3600) ++
    ':' :: padded 2 (seconds / 60 % 60) ++ tail

/-- A moment with the given character between day and time. -/
def writeMoment (separator : Char) (m : Moment) : List Char :=
  writeDate m.date ++ separator :: writeTime m.time ++
    match m.offset with
    | none => []
    | some o => writeOffset o

/-- The text of a day. -/
def dateText (d : Date) : String := String.ofList (writeDate d)

/-- The text of a moment, with `T` between day and time. -/
def momentText (m : Moment) : String := String.ofList (writeMoment 'T' m)

/-! ### Reading -/

/-- The value of an ASCII digit. -/
def digit? (c : Char) : Option Nat :=
  if '0' ≤ c ∧ c ≤ '9' then some (c.toNat - 48) else none

/-- A number of exactly `width` digits, and the rest. -/
def number? : (width : Nat) → (start : Nat) → List Char → Option (Nat × List Char)
  | 0, n, cs => some (n, cs)
  | _ + 1, _, [] => none
  | w + 1, n, c :: cs => (digit? c).bind fun d => number? w (n * 10 + d) cs

/-- The next octet, zero at the end. -/
def peek (cs : List Char) : Char := cs.headD '\x00'

/-- The weekday that follows the week of a week date, Monday when the day part ends there. -/
def weekdayOf? (dashed : Bool) (atEnd : Bool) (cs : List Char) : Option Nat :=
  if atEnd then some 1
  else
    let cs? := if dashed then (if peek cs == '-' then some cs.tail else none) else some cs
    cs?.bind fun cs => (number? 1 0 cs).map (·.1)

/-- The day that the first `length` octets of a text name. What follows a complete day within them
is not looked at. -/
def readDay? (cs : List Char) (length : Nat) : Option Date := do
  let (year, rest) ← number? 4 0 cs
  let dashed := peek rest == '-'
  let rest := if dashed then rest.tail else rest
  if peek rest == 'W' then
    let (week, tail) ← number? 2 0 rest.tail
    let used := if dashed then 8 else 7
    let weekday ← weekdayOf? dashed (length ≤ used) tail
    Date.ofWeek? year week weekday
  else
    let (month, rest) ← number? 2 0 rest
    let rest ← if dashed then (if peek rest == '-' then some rest.tail else none) else some rest
    let (day, _) ← number? 2 0 rest
    Date.ofNumbers? year month day

/-- The day that a text of 7, 8 or 10 octets names. -/
def readDate? (s : String) : Option Date :=
  let cs := octets s
  if cs.length = 7 || cs.length = 8 || cs.length = 10 then readDay? cs cs.length else none

/-- The length of the leading run of digits. -/
def digitCount (cs : List Char) : Nat := (cs.takeWhile fun c => (digit? c).isSome).length

/-- How many octets of a moment's text belong to its day. The octet after them separates day and
time, whatever it is. -/
def dayLength (cs : List Char) : Nat :=
  let len := cs.length
  if len = 7 then 7
  else if peek (cs.drop 4) == '-' then
    if peek (cs.drop 5) == 'W' then
      if 8 < len && peek (cs.drop 8) == '-' then
        if 10 < len && (digit? (peek (cs.drop 10))).isSome then 8 else 10
      else 8
    else 10
  else if peek (cs.drop 4) == 'W' then
    let pos := 7 + digitCount (cs.drop 7)
    if pos < 9 then pos else if pos % 2 = 0 then 7 else 8
  else 8

/-- The numbers of a time text: up to three fields, the microseconds, and whether the text ends
after them. -/
structure Clock where
  fields : List Nat
  micros : Nat
  complete : Bool

/-- The microseconds of a fraction with `left` octets before the end of the time; digits after the
sixth are dropped. -/
def readFraction? (cs : List Char) (left : Nat) : Option Clock := do
  let width := min left 6
  let (n, rest) ← number? width 0 cs
  let rest := rest.dropWhile fun c => (digit? c).isSome
  some ⟨[], n * 10 ^ (6 - width), peek rest == '\x00'⟩

/-- Up to `count` fields of two digits, of a time that has `left` more octets. The octet after the
first field decides whether the fields are separated by colons. -/
def readClock? : (count : Nat) → (colons : Option Bool) → List Char → (left : Nat) → Option Clock
  | 0, _, cs, left => readFraction? cs left
  | count + 1, colons, cs, left => do
    let (v, rest) ← number? 2 0 cs
    let c := peek rest
    let separated := colons.getD (c == ':')
    let more (k : Option Clock) : Option Clock := k.map fun k => { k with fields := v :: k.fields }
    if left ≤ 3 then some ⟨[v], 0, c == '\x00'⟩
    else if separated && c == ':' then more (readClock? count (some separated) rest.tail (left - 3))
    else if c == '.' || c == ',' then more (readFraction? rest.tail (left - 3))
    else if !separated then more (readClock? count (some separated) rest (left - 2))
    else none

/-- A field of a time text, zero when it is missing. -/
def Clock.field (k : Clock) (i : Nat) : Nat := k.fields.getD i 0

/-- The seconds that hours, minutes and seconds make together. -/
def Clock.seconds (k : Clock) : Nat := (k.field 0 * 60 + k.field 1) * 60 + k.field 2

/-- Whether an octet begins the offset of a time. -/
def beginsOffset (c : Char) : Bool := c == '+' || c == '-' || c == 'Z'

/-- The offset that ends a time text; whole seconds of zero mean universal time. -/
def readOffset? (cs : List Char) : Option Offset :=
  match cs with
  | 'Z' :: rest => if peek rest == '\x00' then some .utc else none
  | sign :: rest =>
    (readClock? 3 none rest rest.length).bind fun k =>
      if !k.complete then none
      else if k.seconds = 0 then some .utc
      else
        let n : Int := (k.seconds * 1000000 + k.micros : Nat)
        Offset.ofMicros? (if sign == '-' then -n else n)
  | [] => none

/-- The time and offset that a text after the separator stands for. -/
def readTime? (cs : List Char) : Option (TimeOfDay × Option Offset) := do
  let length := match cs with
    | [] => 0
    | c :: rest => if beginsOffset c then 0 else 1 + (rest.takeWhile (!beginsOffset ·)).length
  let k ← readClock? 3 none cs length
  let time := TimeOfDay.ofNumbers? (k.field 0) (k.field 1) (k.field 2) k.micros
  if length = cs.length then
    if k.complete then time.map (·, none) else none
  else do
    let offset ← readOffset? (cs.drop length)
    time.map (·, some offset)

/-- The octets of the encoded character that begins a text. -/
def leadLength (cs : List Char) : Nat :=
  let n := (peek cs).toNat
  if n < 0x80 then 1 else if n < 0xe0 then 2 else if n < 0xf0 then 3 else 4

/-- The moment that a text stands for; midnight when it holds a day only. -/
def readMoment? (s : String) : Option Moment := do
  let cs := octets s
  let n := dayLength cs
  let date ← readDay? cs n
  if cs.length ≤ n then some ⟨date, .midnight, none⟩
  else
    let rest := cs.drop n
    let (time, offset) ← readTime? (rest.drop (leadLength rest))
    some ⟨date, time, offset⟩

end DocForms.Iso
