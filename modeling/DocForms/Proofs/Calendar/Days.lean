import DocForms.Calendar.Display
import DocForms.Proofs.Calendar.Numerals
import Mathlib.Data.List.Forall2

/-! The two readers of days. The one for storage reads back a day that is written, and the one for
display reads the same day if nothing follows it but a clock. A text that both of them can read
begins with the day as it is written. -/
namespace DocForms

theorem Calendar.daysInMonth_le (year month : Nat) : daysInMonth year month ≤ 31 := by
  unfold daysInMonth
  split
  case h_2 => split <;> decide
  all_goals decide

theorem Calendar.month_of_days {year month : Nat} (h : 0 < daysInMonth year month) :
    1 ≤ month ∧ month ≤ 12 := by
  unfold daysInMonth at h
  split at h
  case h_13 => cases h
  all_goals decide

namespace Date

theorem bounds (d : Date) :
    1 ≤ d.year ∧ d.year ≤ 9999 ∧ 1 ≤ d.month ∧ d.month ≤ 12 ∧ 1 ≤ d.day ∧ d.day ≤ 31 := by
  obtain ⟨year, month, day, h⟩ := d
  simp only [Calendar.isDay, Bool.and_eq_true, decide_eq_true_eq] at h
  obtain ⟨⟨⟨hlow, hhigh⟩, hday⟩, hle⟩ := h
  obtain ⟨hmonth, hmonth'⟩ := Calendar.month_of_days (Nat.lt_of_lt_of_le hday hle)
  exact ⟨hlow, hhigh, hmonth, hmonth', hday, hle.trans (Calendar.daysInMonth_le year month)⟩

theorem ofNumbers?_self (d : Date) : ofNumbers? d.year d.month d.day = some d :=
  dif_pos d.isDay

theorem ofNumbers?_eq_some_iff {d : Date} {year month day : Nat} :
    ofNumbers? year month day = some d ↔ d.year = year ∧ d.month = month ∧ d.day = day := by
  constructor
  · intro h
    unfold ofNumbers? at h
    split at h
    · cases h
      exact ⟨rfl, rfl, rfl⟩
    · cases h
  · rintro ⟨rfl, rfl, rfl⟩
    exact d.ofNumbers?_self

end Date

namespace Iso
variable {d : Date} {cs os rest : List Char} {length : Nat}

/-- A day with a dash after its year and no week is read where it is written. -/
theorem readDay?_dashed {year : Nat} (hy : year < 10000) (hw : peek rest ≠ 'W') :
    readDay? (padded 4 year ++ '-' :: rest) length = some d ↔
      d.year = year ∧ ∃ tail, rest = padded 2 d.month ++ '-' :: (padded 2 d.day ++ tail) := by
  obtain ⟨-, -, -, hmonth, -, hday⟩ := d.bounds
  have hread : readDay? (padded 4 year ++ '-' :: rest) length =
      (number? 2 0 rest).bind fun m =>
        (if peek m.2 = '-' then some m.2.tail else none).bind fun rest =>
          (number? 2 0 rest).bind fun n => Date.ofNumbers? year m.1 n.1 := by
    have hdash : peek ('-' :: rest) = '-' := rfl
    simp [readDay?, number?_padded (show 0 < 4 by decide) hy, hdash, hw]
  simp only [hread, Option.bind_eq_some_iff, Prod.exists, number?_iff (show 0 < 2 by decide),
    Option.ite_none_right_eq_some, Option.some.injEq, Date.ofNumbers?_eq_some_iff]
  constructor
  · rintro ⟨m, r, ⟨-, rfl⟩, r', ⟨hpeek, rfl⟩, n, tail, ⟨-, hr⟩, rfl, rfl, rfl⟩
    obtain ⟨r', rfl⟩ := (peek_eq_iff (by decide)).mp hpeek
    exact ⟨rfl, tail, by rw [← hr]; rfl⟩
  · rintro ⟨rfl, tail, rfl⟩
    exact ⟨_, _, ⟨by omega, rfl⟩, _, ⟨rfl, rfl⟩, _, tail, ⟨by omega, rfl⟩, rfl, rfl, rfl⟩

/-- A day that begins a text in the form in which it is written is read back. -/
theorem readDay?_writeDate (d : Date) (rest : List Char) (length : Nat) :
    readDay? (writeDate d ++ rest) length = some d := by
  obtain ⟨-, hyear, -, hmonth, -⟩ := d.bounds
  obtain ⟨k, hk, cs, hcs⟩ := padded_eq_cons (w := 2) (by decide) (show d.month < 100 by omega)
  have hw : peek (padded 2 d.month ++ '-' :: (padded 2 d.day ++ rest)) ≠ 'W' := by
    rw [hcs]
    interval_cases k <;> exact fun h => nomatch h
  simp only [writeDate, List.append_assoc, List.cons_append]
  exact (readDay?_dashed (by omega) hw).mpr ⟨rfl, rest, rfl⟩

theorem length_writeDate (d : Date) : (writeDate d).length = 10 := by
  obtain ⟨-, hyear, -, hmonth, -, hday⟩ := d.bounds
  simp [writeDate, length_padded (w := 4) (n := d.year) (by decide) (by omega),
    length_padded (w := 2) (n := d.month) (by decide) (by omega),
    length_padded (w := 2) (n := d.day) (by decide) (by omega)]

theorem written_writeDate {c : Char} (h : c ∈ writeDate d) : Written c :=
  written_joined (by decide) h

end Iso

namespace Display
open Text
variable {d : Date} {c : Char} {cs rest tail h m : List Char} {n : Nat}

/-! ### Spellings -/

/-- The text is one of the spellings of a field. -/
def Field.Spells (f : Field) (cs : List Char) : Prop :=
  ∃ spelling ∈ f, List.Forall₂ (fun p c => p c = true) spelling cs

/-- The number that a spelling stands for. -/
def spelled (cs : List Char) : Nat :=
  cs.foldl (fun n c => match digitValue? c with | some d => n * 10 + d | none => n) 0

theorem Field.read?_eq (f : Field) (cs : List Char) :
    f.read? cs = (f.findSome? fun spelling => spell? spelling cs).map fun r => (spelled r.1, r.2) :=
  rfl

theorem spell?_eq_some_iff {ps : List (Char → Bool)} : spell? ps cs = some (h, rest) ↔
    List.Forall₂ (fun p c => p c = true) ps h ∧ cs = h ++ rest := by
  induction ps generalizing cs h with
  | nil =>
    rw [spell?, Option.some_inj, Prod.mk.injEq, List.forall₂_nil_left_iff]
    constructor
    · rintro ⟨rfl, rfl⟩
      exact ⟨rfl, rfl⟩
    · rintro ⟨rfl, rfl⟩
      exact ⟨rfl, rfl⟩
  | cons p ps ih =>
    cases cs with
    | nil =>
      refine iff_of_false nofun ?_
      rintro ⟨hps, heq⟩
      cases hps
      cases heq
    | cons c cs =>
      rw [spell?, Option.ite_none_right_eq_some, Option.map_eq_some_iff, List.forall₂_cons_left_iff]
      constructor
      · rintro ⟨hp, ⟨h', rest'⟩, hspell, heq⟩
        obtain ⟨rfl, rfl⟩ := Prod.mk.inj heq
        obtain ⟨hps, rfl⟩ := ih.mp hspell
        exact ⟨⟨c, h', hp, hps, rfl⟩, rfl⟩
      · rintro ⟨⟨c', h', hp, hps, rfl⟩, heq⟩
        obtain ⟨rfl, rfl⟩ := List.cons.inj heq
        exact ⟨hp, (h', rest), ih.mpr ⟨hps, rfl⟩, rfl⟩

/-- What is read in a field is one of its spellings. -/
theorem Field.spells_of_read? {f : Field} (hr : f.read? cs = some (n, rest)) :
    ∃ h, f.Spells h ∧ cs = h ++ rest ∧ spelled h = n := by
  obtain ⟨⟨h, rest'⟩, hfind, heq⟩ := Option.map_eq_some_iff.mp hr
  obtain ⟨rfl, rfl⟩ := Prod.mk.inj heq
  obtain ⟨spelling, hmem, hspell⟩ := List.exists_of_findSome?_eq_some hfind
  obtain ⟨hps, rfl⟩ := spell?_eq_some_iff.mp hspell
  exact ⟨h, ⟨spelling, hmem, hps⟩, rfl, rfl⟩

theorem exists_digitValue (hc : isDigit c = true) : ∃ v < 10, digitValue? c = some v := by
  obtain ⟨span, hspan, hin⟩ := List.any_eq_true.mp hc
  have hsome : (digitValue? c).isSome = true := by
    rw [digitValue?, Option.isSome_map, List.find?_isSome]
    exact ⟨span, hspan, hin⟩
  obtain ⟨v, hv⟩ := Option.isSome_iff_exists.mp hsome
  obtain ⟨found, -, rfl⟩ := Option.map_eq_some_iff.mp hv
  exact ⟨_, Nat.mod_lt _ (by decide), hv⟩

theorem exists_digit_of_between {k : Nat} (hk : k < 10)
    (hc : between '0' (Nat.digitChar k) c = true) : ∃ d ≤ k, c = Nat.digitChar d := by
  rw [between, Bool.and_eq_true, decide_eq_true_eq, decide_eq_true_eq] at hc
  obtain ⟨hlow, hhigh⟩ := hc
  have hnine : Nat.digitChar k ≤ '9' := by interval_cases k <;> decide
  obtain ⟨hd, hc⟩ := Iso.eq_digitChar (if_pos ⟨hlow, Char.le_trans hhigh hnine⟩)
  refine ⟨_, ?_, hc⟩
  have hle : c.toNat ≤ (Nat.digitChar k).toNat := hhigh
  have hcode := Nat.toNat_digitChar_of_lt_ten hk
  omega

theorem digitValue?_digitChar {v : Nat} (hv : v < 10) : digitValue? (Nat.digitChar v) = some v := by
  interval_cases v <;> rfl

theorem isDigit_digitChar {v : Nat} (hv : v < 10) : isDigit (Nat.digitChar v) = true := by
  interval_cases v <;> rfl

/-! ### The day -/

theorem yearField_padded (hn : n < 10000) (rest : List Char) :
    yearField.read? (Iso.padded 4 n ++ rest) = some (n, rest) := by
  have hdigit (v : Nat) : v % 10 < 10 := Nat.mod_lt _ (by decide)
  rw [Iso.padded_eq_numeral (by decide) hn]
  simp [Field.read?, yearField, spell?, Iso.numeral, isDigit_digitChar, digitValue?_digitChar, hdigit]
  omega

theorem monthField_padded (hlow : 1 ≤ n) (hhigh : n ≤ 12) (rest : List Char) :
    monthField.read? (Iso.padded 2 n ++ rest) = some (n, rest) := by
  interval_cases n <;> rfl

theorem dayField_padded (hlow : 1 ≤ n) (hhigh : n ≤ 31) (rest : List Char) :
    dayField.read? (Iso.padded 2 n ++ rest) = some (n, rest) := by
  interval_cases n <;> rfl

/-- The fields of every form after the year. -/
def dayFields : List (Char × Field) := [('-', monthField), ('-', dayField)]

/-- The fields after the day. -/
def clocks : List (List (Char × Field)) :=
  let minute := [('T', hourField), (':', minuteField)]
  [[], minute, minute ++ [(':', secondField)]]

theorem forms_eq : forms = clocks.map (dayFields ++ ·) := rfl

/-- The time that a text shows with the fields of a clock. -/
def readClock? (cs : List Char) (clock : List (Char × Field)) : Option TimeOfDay :=
  (readFields? clock cs).bind fun ns =>
    TimeOfDay.ofNumbers? (ns.getD 0 0) (ns.getD 1 0) (ns.getD 2 0) 0

/-- After a day as it is written, only the clock decides. -/
theorem readForm?_writeDate (d : Date) (tail : List Char) (clock : List (Char × Field)) :
    readForm? (Iso.writeDate d ++ tail) (dayFields ++ clock) =
      (readClock? tail clock).map fun _ => d := by
  obtain ⟨-, hyear, hmonth, hmonth', hday, hday'⟩ := d.bounds
  have hfields : readFields? (dayFields ++ clock)
      ('-' :: (Iso.padded 2 d.month ++ '-' :: (Iso.padded 2 d.day ++ tail))) =
        (readFields? clock tail).map fun ns => d.month :: d.day :: ns := by
    simp [dayFields, readFields?, after?, monthField_padded hmonth hmonth',
      dayField_padded hday hday']
    cases readFields? clock tail <;> rfl
  have hread : readForm? (Iso.writeDate d ++ tail) (dayFields ++ clock) =
      ((readFields? clock tail).map fun ns => d.month :: d.day :: ns).bind fun ns =>
        (TimeOfDay.ofNumbers? (ns.getD 2 0) (ns.getD 3 0) (ns.getD 4 0) 0).bind fun _ =>
          Date.ofNumbers? d.year (ns.getD 0 0) (ns.getD 1 0) := by
    simp only [readForm?, Iso.writeDate, List.append_assoc, List.cons_append, Option.bind_eq_bind,
      yearField_padded (show d.year < 10000 by omega), Option.bind_some, hfields]
  rw [hread, readClock?]
  cases readFields? clock tail with
  | none => rfl
  | some ns =>
    rw [Option.map_some, Option.bind_some, Option.bind_some]
    show (TimeOfDay.ofNumbers? (ns.getD 0 0) (ns.getD 1 0) (ns.getD 2 0) 0).bind
      (fun _ => Date.ofNumbers? d.year d.month d.day) = _
    rw [d.ofNumbers?_self]
    cases TimeOfDay.ofNumbers? (ns.getD 0 0) (ns.getD 1 0) (ns.getD 2 0) 0 <;> rfl

/-! ### The clock -/

/-- What may follow a day that is displayed: nothing, or hour and minute after a T, and perhaps the
second, which is spelled like a minute. -/
inductive Clocked : List Char → Prop
  | none : Clocked []
  | minute {t : Char} {h m : List Char} (ht : t = 'T' ∨ t = 't') (hh : hourField.Spells h)
      (hm : minuteField.Spells m) : Clocked (t :: (h ++ ':' :: m))
  | second {t : Char} {h m s : List Char} (ht : t = 'T' ∨ t = 't') (hh : hourField.Spells h)
      (hm : minuteField.Spells m) (hs : minuteField.Spells s) :
      Clocked (t :: (h ++ ':' :: (m ++ ':' :: s)))

theorem hourField_spells_iff : hourField.Spells h ↔
    (∃ c, between '0' '3' c = true ∧ h = ['2', c]) ∨
    (∃ a c, between '0' '1' a = true ∧ isDigit c = true ∧ h = [a, c]) ∨
    ∃ c, isDigit c = true ∧ h = [c] := by
  simp [Field.Spells, hourField, List.forall₂_cons_left_iff]

theorem minuteField_spells_iff : minuteField.Spells h ↔
    (∃ a c, between '0' '5' a = true ∧ isDigit c = true ∧ h = [a, c]) ∨
    ∃ c, isDigit c = true ∧ h = [c] := by
  simp [Field.Spells, minuteField, List.forall₂_cons_left_iff]

theorem spelled_one {a : Char} {u : Nat} (ha : digitValue? a = some u) : spelled [a] = u := by
  simp [spelled, ha]

theorem spelled_two {a b : Char} {u v : Nat} (ha : digitValue? a = some u)
    (hb : digitValue? b = some v) : spelled [a, b] = u * 10 + v := by
  simp [spelled, ha, hb]

/-- An hour before a colon is read as it is spelled. -/
theorem hourField_read? (hh : hourField.Spells h) (rest : List Char) :
    hourField.read? (h ++ ':' :: rest) = some (spelled h, ':' :: rest) ∧ spelled h < 24 := by
  rcases hourField_spells_iff.mp hh with ⟨c, hc, rfl⟩ | ⟨a, c, ha, hc, rfl⟩ | ⟨c, hc, rfl⟩
  · obtain ⟨v, hv, rfl⟩ := exists_digit_of_between (k := 3) (by decide) hc
    interval_cases v <;> exact ⟨rfl, by decide⟩
  · obtain ⟨u, hu, rfl⟩ := exists_digit_of_between (k := 1) (by decide) ha
    obtain ⟨v, hv, hvalue⟩ := exists_digitValue hc
    have htwo : (Nat.digitChar u == '2') = false := by interval_cases u <;> rfl
    have hspelled := spelled_two (digitValue?_digitChar (v := u) (by omega)) hvalue
    refine ⟨by simp [Field.read?_eq, hourField, spell?, htwo, ha, hc], ?_⟩
    omega
  · obtain ⟨v, hv, hvalue⟩ := exists_digitValue hc
    have hcolon : isDigit ':' = false ∧ between '0' '3' ':' = false := by decide
    have hspelled := spelled_one hvalue
    refine ⟨by simp [Field.read?_eq, hourField, spell?, hc, hcolon], ?_⟩
    omega

theorem spelled_minute_lt (hm : minuteField.Spells m) : spelled m < 60 := by
  rcases minuteField_spells_iff.mp hm with ⟨a, c, ha, hc, rfl⟩ | ⟨c, hc, rfl⟩
  · obtain ⟨u, hu, rfl⟩ := exists_digit_of_between (k := 5) (by decide) ha
    obtain ⟨v, hv, hvalue⟩ := exists_digitValue hc
    have hspelled := spelled_two (digitValue?_digitChar (v := u) (by omega)) hvalue
    omega
  · obtain ⟨v, hv, hvalue⟩ := exists_digitValue hc
    have hspelled := spelled_one hvalue
    omega

/-- A minute is read as it is spelled unless a digit follows. -/
theorem minuteField_read? (hm : minuteField.Spells m) (hrest : ∀ c ∈ rest.head?, isDigit c = false) :
    minuteField.read? (m ++ rest) = some (spelled m, rest) := by
  rcases minuteField_spells_iff.mp hm with ⟨a, c, ha, hc, rfl⟩ | ⟨c, hc, rfl⟩
  · simp [Field.read?_eq, minuteField, spell?, ha, hc]
  · cases rest with
    | nil => simp [Field.read?_eq, minuteField, spell?, hc]
    | cons b rest =>
      have hb : isDigit b = false := hrest b rfl
      simp [Field.read?_eq, minuteField, spell?, hc, hb]

/-- A second that ends a text is read as it is spelled, if it is spelled like a minute. -/
theorem secondField_read? (hm : minuteField.Spells m) :
    secondField.read? m = some (spelled m, []) := by
  rcases minuteField_spells_iff.mp hm with ⟨a, c, ha, hc, rfl⟩ | ⟨c, hc, rfl⟩
  · obtain ⟨u, hu, rfl⟩ := exists_digit_of_between (k := 5) (by decide) ha
    have hsix : (Nat.digitChar u == '6') = false := by interval_cases u <;> rfl
    simp [Field.read?_eq, secondField, spell?, hsix, ha, hc]
  · simp [Field.read?_eq, secondField, spell?, hc]

/-- The second that is read as one of a time is spelled like a minute. -/
theorem minuteField_spells_of_second (hs : secondField.Spells h) (hlt : spelled h < 60) :
    minuteField.Spells h := by
  have hcases : (∃ c, between '0' '1' c = true ∧ h = ['6', c]) ∨ minuteField.Spells h := by
    rw [minuteField_spells_iff]
    simpa [Field.Spells, secondField, List.forall₂_cons_left_iff] using hs
  rcases hcases with ⟨c, hc, rfl⟩ | hm
  · obtain ⟨v, hv, rfl⟩ := exists_digit_of_between (k := 1) (by decide) hc
    interval_cases v <;> exact absurd hlt (by decide)
  · exact hm

theorem after?_eq_some_iff {t : Char} : after? t cs = some rest ↔
    ∃ c, (c = t ∨ c = t.toLower) ∧ cs = c :: rest := by
  cases cs with
  | nil => simp [after?]
  | cons c cs =>
    simp only [after?, Bool.or_eq_true, beq_iff_eq, Option.ite_none_right_eq_some, Option.some.injEq]
    constructor
    · rintro ⟨hc, rfl⟩
      exact ⟨c, hc, rfl⟩
    · rintro ⟨c', hc, heq⟩
      obtain ⟨rfl, rfl⟩ := List.cons.inj heq
      exact ⟨hc, rfl⟩

theorem readFields?_nil {ns : List Nat} : readFields? [] cs = some ns ↔ cs = [] ∧ ns = [] := by
  cases cs <;> simp [readFields?, eq_comm]

theorem readFields?_cons {t : Char} {f : Field} {more : List (Char × Field)} {ns : List Nat} :
    readFields? ((t, f) :: more) cs = some ns ↔ ∃ c rest n rest' ns',
      (c = t ∨ c = t.toLower) ∧ cs = c :: rest ∧ f.read? rest = some (n, rest') ∧
      readFields? more rest' = some ns' ∧ n :: ns' = ns := by
  simp only [readFields?, Option.bind_eq_bind, Option.bind_eq_some_iff, after?_eq_some_iff,
    Prod.exists, Option.some.injEq]
  constructor
  · rintro ⟨rest, ⟨c, hc, rfl⟩, n, rest', hread, ns', hmore, rfl⟩
    exact ⟨c, rest, n, rest', ns', hc, rfl, hread, hmore, rfl⟩
  · rintro ⟨c, rest, n, rest', ns', hc, rfl, hread, hmore, rfl⟩
    exact ⟨rest, ⟨c, hc, rfl⟩, n, rest', hread, ns', hmore, rfl⟩

/-- The hour and the minute of a clock, and what is read after them. -/
theorem readFields?_minute {more : List (Char × Field)} {ns : List Nat} :
    readFields? (('T', hourField) :: (':', minuteField) :: more) cs = some ns ↔
      ∃ t h n rest rest' ns', (t = 'T' ∨ t = 't') ∧ hourField.Spells h ∧
        cs = t :: (h ++ ':' :: rest) ∧ minuteField.read? rest = some (n, rest') ∧
        readFields? more rest' = some ns' ∧ spelled h :: n :: ns' = ns := by
  simp only [readFields?_cons]
  constructor
  · rintro ⟨t, _, _, _, _, ht, rfl, hhour, ⟨c, rest, n, rest', ns', hc, rfl, hminute, hmore, rfl⟩,
      rfl⟩
    obtain ⟨h, hh, rfl, rfl⟩ := Field.spells_of_read? hhour
    obtain rfl : c = ':' := hc.elim id id
    exact ⟨t, h, n, rest, rest', ns', ht, hh, rfl, hminute, hmore, rfl⟩
  · rintro ⟨t, h, n, rest, rest', ns', ht, hh, rfl, hminute, hmore, rfl⟩
    exact ⟨t, _, _, _, _, ht, rfl, (hourField_read? hh rest).1,
      ⟨':', rest, n, rest', ns', .inl rfl, rfl, hminute, hmore, rfl⟩, rfl⟩

theorem readClock?_eq_some_iff {clock : List (Char × Field)} {t : TimeOfDay} :
    readClock? cs clock = some t ↔ ∃ ns, readFields? clock cs = some ns ∧
      TimeOfDay.ofNumbers? (ns.getD 0 0) (ns.getD 1 0) (ns.getD 2 0) 0 = some t :=
  Option.bind_eq_some_iff

theorem ofNumbers?_isSome {a b c : Nat} : (∃ t, TimeOfDay.ofNumbers? a b c 0 = some t) ↔
    a < 24 ∧ b < 60 ∧ c < 60 := by
  simp [TimeOfDay.ofNumbers?]

/-- The texts that are read as a clock. -/
theorem clocked_iff : Clocked cs ↔ ∃ clock ∈ clocks, ∃ t, readClock? cs clock = some t := by
  have hminutes {m : List Char} (hm : minuteField.Spells m) :
      minuteField.read? m = some (spelled m, []) := by
    have hend : ∀ c ∈ ([] : List Char).head?, isDigit c = false := nofun
    simpa using minuteField_read? hm hend
  constructor
  · rintro (_ | ⟨ht, hh, hm⟩ | ⟨ht, hh, hm, hs⟩)
    · exact ⟨[], .head _, _, rfl⟩
    · have hfields := readFields?_minute.mpr
        ⟨_, _, _, _, _, _, ht, hh, rfl, hminutes hm, readFields?_nil.mpr ⟨rfl, rfl⟩, rfl⟩
      obtain ⟨t, htime⟩ := ofNumbers?_isSome.mpr
        ⟨(hourField_read? hh []).2, spelled_minute_lt hm, show 0 < 60 by decide⟩
      exact ⟨_, .tail _ (.head _), t, readClock?_eq_some_iff.mpr ⟨_, hfields, htime⟩⟩
    · have hsecond := readFields?_cons.mpr ⟨':', _, _, _, _, .inl rfl, rfl, secondField_read? hs,
        readFields?_nil.mpr ⟨rfl, rfl⟩, rfl⟩
      have hfields := readFields?_minute.mpr
        ⟨_, _, _, _, _, _, ht, hh, rfl, minuteField_read? hm (by rintro c ⟨⟩; rfl), hsecond, rfl⟩
      obtain ⟨t, htime⟩ := ofNumbers?_isSome.mpr
        ⟨(hourField_read? hh []).2, spelled_minute_lt hm, spelled_minute_lt hs⟩
      exact ⟨_, .tail _ (.tail _ (.head _)), t, readClock?_eq_some_iff.mpr ⟨_, hfields, htime⟩⟩
  · rintro ⟨clock, hclock, time, hread⟩
    obtain ⟨ns, hfields, htime⟩ := readClock?_eq_some_iff.mp hread
    simp only [clocks, List.mem_cons, List.not_mem_nil, or_false] at hclock
    rcases hclock with rfl | rfl | rfl
    · obtain ⟨rfl, -⟩ := readFields?_nil.mp hfields
      exact .none
    · obtain ⟨t, h, n, rest, rest', ns', ht, hh, rfl, hminute, hmore, rfl⟩ :=
        readFields?_minute.mp hfields
      obtain ⟨rfl, rfl⟩ := readFields?_nil.mp hmore
      obtain ⟨m, hm, rfl, rfl⟩ := Field.spells_of_read? hminute
      rw [List.append_nil]
      exact .minute ht hh hm
    · obtain ⟨t, h, n, rest, after, ns', ht, hh, rfl, hminute, hmore, rfl⟩ :=
        readFields?_minute.mp hfields
      obtain ⟨c, rest', k, rest'', ns'', hc, rfl, hsecond, hnil, rfl⟩ := readFields?_cons.mp hmore
      obtain ⟨rfl, rfl⟩ := readFields?_nil.mp hnil
      obtain ⟨m, hm, rfl, rfl⟩ := Field.spells_of_read? hminute
      obtain ⟨s, hs, rfl, rfl⟩ := Field.spells_of_read? hsecond
      obtain rfl : c = ':' := hc.elim id id
      rw [List.append_nil]
      exact .second ht hh hm (minuteField_spells_of_second hs (ofNumbers?_isSome.mp ⟨_, htime⟩).2.2)

/-! ### Displayed days -/

/-- A text that begins with a day as it is written is displayed just if a clock follows, and then it
shows this day. -/
theorem findSome?_writeDate {d' : Date} :
    forms.findSome? (readForm? (Iso.writeDate d ++ tail)) = some d' ↔ d' = d ∧ Clocked tail := by
  have shows {d' : Date} (h : forms.findSome? (readForm? (Iso.writeDate d ++ tail)) = some d') :
      d' = d ∧ Clocked tail := by
    obtain ⟨form, hform, hread⟩ := List.exists_of_findSome?_eq_some h
    obtain ⟨clock, hclock, rfl⟩ := List.mem_map.mp (forms_eq ▸ hform)
    rw [readForm?_writeDate] at hread
    obtain ⟨t, ht, rfl⟩ := Option.map_eq_some_iff.mp hread
    exact ⟨rfl, clocked_iff.mpr ⟨clock, hclock, t, ht⟩⟩
  refine ⟨shows, ?_⟩
  rintro ⟨rfl, hclocked⟩
  obtain ⟨clock, hclock, t, ht⟩ := clocked_iff.mp hclocked
  have hsome : (forms.findSome? (readForm? (Iso.writeDate d' ++ tail))).isSome = true := by
    rw [List.findSome?_isSome_iff]
    refine ⟨dayFields ++ clock, forms_eq ▸ List.mem_map_of_mem hclock, ?_⟩
    rw [readForm?_writeDate, ht]
    rfl
  obtain ⟨d, hd⟩ := Option.isSome_iff_exists.mp hsome
  rw [hd, (shows hd).1]

/-- A text that is displayed as a day has a dash after four characters, and no week after it. -/
theorem dash_of_readForm? {clock : List (Char × Field)}
    (hread : readForm? cs (dayFields ++ clock) = some d) : ∃ y m rest, y.length = 4 ∧
      cs = y ++ '-' :: m :: rest ∧ m.toNat < 128 ∧ m ≠ 'W' := by
  simp only [readForm?, Option.bind_eq_bind, Option.bind_eq_some_iff] at hread
  obtain ⟨⟨year, cs'⟩, hyear, ns, hfields, -⟩ := hread
  obtain ⟨y, ⟨spelling, hspelling, hy⟩, rfl, -⟩ := Field.spells_of_read? hyear
  obtain rfl := List.mem_singleton.mp hspelling
  obtain ⟨c, rest, n, rest', -, hc, rfl, hmonth, -⟩ := readFields?_cons.mp hfields
  obtain rfl : c = '-' := hc.elim id id
  obtain ⟨h, hh, rfl, -⟩ := Field.spells_of_read? hmonth
  have hfirst : ∃ m h', h = m :: h' ∧ m ≤ '9' := by
    simp only [Field.Spells, monthField, List.mem_cons, List.not_mem_nil, or_false, exists_eq_or_imp,
      exists_eq_left, List.forall₂_cons_left_iff, List.forall₂_nil_left_iff, beq_iff_eq] at hh
    rcases hh with ⟨m, h', rfl, -, rfl⟩ | ⟨m, h', rfl, -, rfl⟩ | ⟨m, h', hm, -, rfl⟩
    · exact ⟨_, _, rfl, by decide⟩
    · exact ⟨_, _, rfl, by decide⟩
    · rw [between, Bool.and_eq_true, decide_eq_true_eq, decide_eq_true_eq] at hm
      exact ⟨_, _, rfl, hm.2⟩
  obtain ⟨m, h', rfl, hm⟩ := hfirst
  have hcode : m.toNat ≤ 57 := hm
  refine ⟨y, m, h' ++ rest', hy.length_eq.symm, rfl, by omega, ?_⟩
  rintro rfl
  exact absurd hcode (by decide)

/-- A text of which the first ten characters are read as a day, and which is displayed as a day,
begins with that day as it is written. -/
theorem take_eq_writeDate {d' : Date}
    (hread : Iso.readDate? (String.ofList (cs.take 10)) = some d)
    (hshown : forms.findSome? (readForm? (cs.take 19)) = some d') :
    cs.take 10 = Iso.writeDate d := by
  rw [Iso.readDate?, Iso.octets_ofList] at hread
  obtain ⟨-, hday⟩ := Option.ite_none_right_eq_some.mp hread
  obtain ⟨⟨year, rest⟩, hyear, -⟩ := Option.bind_eq_some_iff.mp hday
  obtain ⟨hlt, hos⟩ := (Iso.number?_iff (by decide)).mp hyear
  obtain ⟨cs', hcs, hrest⟩ :=
    Iso.flatMap_charOctets_append (fun _ ho => (Iso.written_padded ho).ascii) hos
  obtain ⟨form, hform, hread'⟩ := List.exists_of_findSome?_eq_some hshown
  obtain ⟨clock, -, rfl⟩ := List.mem_map.mp (forms_eq ▸ hform)
  obtain ⟨y, m, r, hy, hcut, hm, hweek⟩ := dash_of_readForm? hread'
  have hten : cs.take 10 = y ++ '-' :: m :: r.take 4 := by
    have htake : cs.take 10 = (cs.take 19).take 10 := by
      rw [List.take_take, Nat.min_eq_left (by decide)]
    rw [htake, hcut, List.take_append, hy, List.take_of_length_le (by omega)]
    rfl
  have hyears : (Iso.padded 4 year).length = y.length := by
    rw [Iso.length_padded (by decide) hlt, hy]
  obtain ⟨rfl, rfl⟩ := List.append_inj (hcs.symm.trans hten) hyears
  rw [List.flatMap_cons, Iso.charOctets_ascii (by decide), List.flatMap_cons,
    Iso.charOctets_ascii hm] at hrest
  rw [hos, ← hrest] at hday
  have hpeek : Iso.peek ([m] ++ (r.take 4).flatMap Iso.charOctets) ≠ 'W' := hweek
  obtain ⟨rfl, tail, htail⟩ := (Iso.readDay?_dashed hlt hpeek).mp hday
  -- the octets after the year are those of month and day
  have hwritten : (cs.take 10).flatMap Iso.charOctets = Iso.writeDate d ++ tail := by
    rw [hos, ← hrest]
    simpa [Iso.writeDate] using htail
  obtain ⟨cs'', heq, -⟩ :=
    Iso.flatMap_charOctets_append (fun _ ho => (Iso.written_writeDate ho).ascii) hwritten
  have hlength : (cs.take 10).length ≤ 10 := List.length_take_le ..
  rw [heq, List.length_append, Iso.length_writeDate] at hlength
  rw [heq, List.length_eq_zero_iff.mp (show cs''.length = 0 by omega), List.append_nil]

end Display
end DocForms
