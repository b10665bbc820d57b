import DocForms.Proofs.Calendar.Days

/-! Moments that are written are read back, with their offset unless it is shorter than a second:
such an offset is read as universal time. -/
namespace DocForms

namespace TimeOfDay

theorem ofNumbers?_self (t : TimeOfDay) : ofNumbers? t.hour t.minute t.second t.micro = some t :=
  dif_pos t.inRange

end TimeOfDay

namespace Offset

/-- The offset as it is read: one of less than a second counts as none. -/
def cut (o : Offset) : Offset := if o.micros.natAbs < 1000000 then utc else o

/-- The distance of an offset as a time. -/
def clock (o : Offset) : TimeOfDay where
  hour := o.micros.natAbs / 1000000 / 3600
  minute := o.micros.natAbs / 1000000 / 60 % 60
  second := o.micros.natAbs / 1000000 % 60
  micro := o.micros.natAbs % 1000000
  inRange := by
    have h := o.inRange
    omega

end Offset

namespace Iso
variable {t : TimeOfDay} {v left count : Nat} {rest : List Char} {colons : Option Bool}

/-! ### Clocks -/

/-- No digit goes on. -/
def Halts (rest : List Char) : Prop := digit? (peek rest) = none

theorem readClock?_last (hv : v < 100) (hleft : left ≤ 3) :
    readClock? (count + 1) colons (padded 2 v ++ rest) left =
      some ⟨[v], 0, peek rest == '\x00'⟩ := by
  rw [readClock?, number?_padded (by decide) hv]
  simp [hleft]

theorem readClock?_colon (hv : v < 100) (hleft : 3 < left) (hc : colons.getD true = true) :
    readClock? (count + 1) colons (padded 2 v ++ ':' :: rest) left =
      (readClock? count (some true) rest (left - 3)).map fun k =>
        { k with fields := v :: k.fields } := by
  have hpeek : peek (':' :: rest) = ':' := rfl
  rw [readClock?, number?_padded (by decide) hv]
  simp [Nat.not_le.mpr hleft, hc, hpeek]

theorem dropWhile_of_halts (h : Halts rest) :
    rest.dropWhile (fun c => (digit? c).isSome) = rest := by
  cases rest with
  | nil => rfl
  | cons c rest =>
    have hc : digit? c = none := h
    rw [List.dropWhile_cons, if_neg (by simp [hc])]

theorem readClock?_point {u : Nat} (hv : v < 100) (hu : u < 1000000) (h : Halts rest) :
    readClock? (count + 1) (some true) (padded 2 v ++ '.' :: (padded 6 u ++ rest)) 9 =
      some ⟨[v], u, peek rest == '\x00'⟩ := by
  have hpeek : peek ('.' :: (padded 6 u ++ rest)) = '.' := rfl
  have hmicros : readFraction? (padded 6 u ++ rest) 6 = some ⟨[], u, peek rest == '\x00'⟩ := by
    rw [readFraction?, Nat.min_self, number?_padded (by decide) hu]
    simp [dropWhile_of_halts h]
  rw [readClock?, number?_padded (by decide) hv]
  simp [hpeek, hmicros]

theorem writeTime_append (t : TimeOfDay) (rest : List Char) :
    writeTime t ++ rest = padded 2 t.hour ++ ':' :: (padded 2 t.minute ++
      ':' :: (padded 2 t.second ++ (writeMicros t.micro ++ rest))) := by
  simp [writeTime]

theorem length_writeTime (t : TimeOfDay) :
    (writeTime t).length = if t.micro = 0 then 8 else 15 := by
  obtain ⟨hhour, hminute, hsecond, hmicro⟩ := t.inRange
  have two {n : Nat} (hn : n < 60) : (padded 2 n).length = 2 :=
    length_padded (by decide) (Nat.lt_trans hn (by decide))
  have six : (padded 6 t.micro).length = 6 := length_padded (by decide) hmicro
  simp only [writeTime, writeMicros, List.length_append, List.length_cons,
    two (Nat.lt_trans hhour (by decide)), two hminute, two hsecond]
  split
  · rfl
  · rw [List.length_cons, six]

/-- A time that is written is read to its end. -/
theorem readClock?_writeTime (t : TimeOfDay) (h : Halts rest) :
    readClock? 3 none (writeTime t ++ rest) (writeTime t).length =
      some ⟨[t.hour, t.minute, t.second], t.micro, peek rest == '\x00'⟩ := by
  obtain ⟨hhour, hminute, hsecond, hmicro⟩ := t.inRange
  have hhour : t.hour < 100 := by omega
  have hminute : t.minute < 100 := by omega
  have hsecond : t.second < 100 := by omega
  have hnone : (none : Option Bool).getD true = true := rfl
  have hsome : (some true).getD true = true := rfl
  rw [length_writeTime, writeTime_append, writeMicros]
  split
  · rename_i hzero
    have hhours : 3 < 8 := by decide
    have hminutes : 3 < 8 - 3 := by decide
    have hseconds : 8 - 3 - 3 ≤ 3 := by decide
    rw [readClock?_colon hhour hhours hnone, readClock?_colon hminute hminutes hsome,
      List.nil_append, readClock?_last hsecond hseconds, hzero]
    rfl
  · have hhours : 3 < 15 := by decide
    have hminutes : 3 < 15 - 3 := by decide
    rw [readClock?_colon hhour hhours hnone, readClock?_colon hminute hminutes hsome,
      List.cons_append, readClock?_point hsecond hmicro h]
    rfl

/-! ### Offsets -/

/-- The text of an offset after its sign. -/
def writeDistance (o : Offset) : List Char :=
  if o.clock.second = 0 ∧ o.clock.micro = 0 then
    padded 2 o.clock.hour ++ ':' :: padded 2 o.clock.minute
  else writeTime o.clock

theorem writeOffset_eq (o : Offset) :
    writeOffset o = (if o.micros < 0 then '-' else '+') :: writeDistance o := by
  rw [writeDistance]
  by_cases hwhole : o.clock.second = 0 ∧ o.clock.micro = 0
  · have hsecond : o.micros.natAbs / 1000000 % 60 = 0 := hwhole.1
    have hmicro : o.micros.natAbs % 1000000 = 0 := hwhole.2
    rw [if_pos hwhole]
    simp [writeOffset, hsecond, hmicro, Offset.clock]
  · have hpart : ¬ (o.micros.natAbs / 1000000 % 60 = 0 ∧ o.micros.natAbs % 1000000 = 0) := hwhole
    rw [if_neg hwhole]
    simp only [writeOffset, Bool.and_eq_true, decide_eq_true_eq, if_neg hpart, writeTime,
      Offset.clock, List.append_assoc, List.cons_append]

theorem readOffset?_sign {sign : Char} (h : sign = '-' ∨ sign = '+') :
    readOffset? (sign :: rest) = (readClock? 3 none rest rest.length).bind fun k =>
      if !k.complete then none
      else if k.seconds = 0 then some .utc
      else Offset.ofMicros? (if sign == '-' then -((k.seconds * 1000000 + k.micros : Nat) : Int)
        else (k.seconds * 1000000 + k.micros : Nat)) := by
  rcases h with rfl | rfl <;> rfl

/-- The distance of an offset is read to its end. -/
theorem readClock?_writeDistance (o : Offset) : ∃ k,
    readClock? 3 none (writeDistance o) (writeDistance o).length = some k ∧ k.complete = true ∧
      k.seconds = o.micros.natAbs / 1000000 ∧ k.micros = o.micros.natAbs % 1000000 := by
  obtain ⟨hhour, hminute, -⟩ := o.clock.inRange
  rw [writeDistance]
  split
  · rename_i hwhole
    obtain ⟨hsecond, hmicro⟩ := hwhole
    have hhour : o.clock.hour < 100 := by omega
    have hminute : o.clock.minute < 100 := by omega
    have hlength : (padded 2 o.clock.hour ++ ':' :: padded 2 o.clock.minute).length = 5 := by
      rw [List.length_append, List.length_cons, length_padded (by decide) hhour,
        length_padded (by decide) hminute]
    have hhours : 3 < 5 := by decide
    have hminutes : 5 - 3 ≤ 3 := by decide
    have hnone : (none : Option Bool).getD true = true := rfl
    refine ⟨⟨[o.clock.hour, o.clock.minute], 0, true⟩, ?_, rfl, ?_, hmicro.symm⟩
    · rw [hlength, readClock?_colon hhour hhours hnone, ← List.append_nil (padded 2 o.clock.minute),
        readClock?_last hminute hminutes]
      rfl
    · simp only [Clock.seconds, Clock.field, Offset.clock] at hsecond ⊢
      simp
      omega
  · refine ⟨⟨[o.clock.hour, o.clock.minute, o.clock.second], o.clock.micro, true⟩, ?_, rfl, ?_, rfl⟩
    · have hend : Halts [] := rfl
      have hread := readClock?_writeTime o.clock hend
      rwa [List.append_nil] at hread
    · simp [Clock.seconds, Clock.field, Offset.clock]
      omega

/-- An offset that is written is read back, unless it is shorter than a second. -/
theorem readOffset?_writeOffset (o : Offset) : readOffset? (writeOffset o) = some o.cut := by
  obtain ⟨k, hread, hcomplete, hseconds, hmicros⟩ := readClock?_writeDistance o
  have hsign : (if o.micros < 0 then '-' else '+') = '-' ∨
      (if o.micros < 0 then '-' else '+') = '+' := by
    split
    · exact .inl rfl
    · exact .inr rfl
  have htotal : k.seconds * 1000000 + k.micros = o.micros.natAbs := by
    rw [hseconds, hmicros, Nat.div_add_mod']
  rw [writeOffset_eq, readOffset?_sign hsign, hread, Option.bind_some, hcomplete, htotal, hseconds,
    Offset.cut]
  by_cases hshort : o.micros.natAbs < 1000000
  · rw [if_pos hshort, if_pos (Nat.div_eq_of_lt hshort)]
    rfl
  · have hne : o.micros.natAbs / 1000000 ≠ 0 := by omega
    have hmicros : (if (if o.micros < 0 then '-' else '+') == '-' then -(o.micros.natAbs : Int)
        else (o.micros.natAbs : Int)) = o.micros := by
      by_cases hneg : o.micros < 0
      · have hminus : ('-' == '-') = true := rfl
        rw [if_pos hneg, if_pos hminus]
        omega
      · rw [if_neg hneg, if_neg (by decide)]
        omega
    rw [if_neg hshort, if_neg hne, hmicros]
    exact dif_pos o.inRange

/-! ### Moments -/

/-- Every character of a time that is written is a digit, a colon or a point. -/
theorem mem_writeTime {c : Char} (h : c ∈ writeTime t) :
    c = ':' ∨ c = '.' ∨ ∃ v < 10, c = Nat.digitChar v := by
  have hmicros (h : c ∈ writeMicros t.micro) : c = '.' ∨ ∃ v < 10, c = Nat.digitChar v := by
    rw [writeMicros] at h
    split at h
    · cases h
    · rcases List.mem_cons.mp h with rfl | h
      · exact .inl rfl
      · exact .inr (mem_padded h)
  simp only [writeTime, List.mem_append, List.mem_cons] at h
  rcases h with ((h | rfl | h) | rfl | h) | h
  · exact .inr (.inr (mem_padded h))
  · exact .inl rfl
  · exact .inr (.inr (mem_padded h))
  · exact .inl rfl
  · exact .inr (.inr (mem_padded h))
  · exact .inr (hmicros h)

/-- The text of an offset that may be missing. -/
def writeOffset? : Option Offset → List Char
  | none => []
  | some o => writeOffset o

theorem writeMoment_eq (separator : Char) (m : Moment) : writeMoment separator m =
    writeDate m.date ++ separator :: (writeTime m.time ++ writeOffset? m.offset) := by
  unfold writeMoment
  cases m.offset <;> simp [writeOffset?]

theorem written_writeTime {c : Char} (h : c ∈ writeTime t) : Written c := by
  rcases mem_writeTime h with rfl | rfl | hdigit
  · exact .inl (by decide)
  · exact .inl (by decide)
  · exact .inr hdigit

theorem written_writeDistance {o : Offset} {c : Char} (h : c ∈ writeDistance o) : Written c := by
  rw [writeDistance] at h
  split at h
  · rcases List.mem_append.mp h with h | h
    · exact written_padded h
    · rcases List.mem_cons.mp h with rfl | h
      · exact .inl (by decide)
      · exact written_padded h
  · exact written_writeTime h

theorem written_writeOffset? {o : Option Offset} {c : Char} (h : c ∈ writeOffset? o) :
    Written c := by
  cases o with
  | none => cases h
  | some o =>
    rw [writeOffset?, writeOffset_eq, List.mem_cons] at h
    rcases h with rfl | h
    · split <;> exact .inl (by decide)
    · exact written_writeDistance h

theorem written_writeMoment {m : Moment} {c : Char} (h : c ∈ writeMoment 'T' m) : Written c := by
  rw [writeMoment_eq, List.mem_append, List.mem_cons, List.mem_append] at h
  rcases h with h | rfl | h | h
  · exact written_writeDate h
  · exact .inl (by decide)
  · exact written_writeTime h
  · exact written_writeOffset? h

/-- The time reaches to the first octet that begins an offset. -/
theorem readTime?_eq {cs : List Char} {n : Nat}
    (hn : (cs.takeWhile fun c => !beginsOffset c).length = n) :
    readTime? cs = (readClock? 3 none cs n).bind fun k =>
      let time := TimeOfDay.ofNumbers? (k.field 0) (k.field 1) (k.field 2) k.micros
      if n = cs.length then if k.complete then time.map (·, none) else none
      else (readOffset? (cs.drop n)).bind fun o => time.map (·, some o) := by
  subst hn
  cases cs with
  | nil => rfl
  | cons c rest =>
    have hlength : (if beginsOffset c then 0
        else 1 + (rest.takeWhile fun c => !beginsOffset c).length) =
          ((c :: rest).takeWhile fun c => !beginsOffset c).length := by
      rw [List.takeWhile_cons]
      cases beginsOffset c <;> simp [Nat.add_comm]
    rw [← hlength]
    rfl

theorem beginsOffset_of_writeOffset {o : Offset} :
    ∃ sign rest, writeOffset o = sign :: rest ∧ beginsOffset sign = true ∧ digit? sign = none := by
  rw [writeOffset_eq]
  refine ⟨_, _, rfl, ?_⟩
  split <;> exact ⟨rfl, rfl⟩

/-- A time and an offset that are written are read back, the offset unless it is shorter than a
second. -/
theorem readTime?_write (t : TimeOfDay) (o : Option Offset) :
    readTime? (writeTime t ++ writeOffset? o) = some (t, o.map Offset.cut) := by
  have htime : ∀ c ∈ writeTime t, (!beginsOffset c) = true := by
    intro c hc
    rcases mem_writeTime hc with rfl | rfl | ⟨v, hv, rfl⟩
    · rfl
    · rfl
    · interval_cases v <;> rfl
  have hlength : ((writeTime t ++ writeOffset? o).takeWhile fun c => !beginsOffset c).length =
      (writeTime t).length := by
    rw [List.takeWhile_append_of_pos htime, List.length_append]
    cases o with
    | none => rfl
    | some o =>
      obtain ⟨sign, rest, heq, hsign, -⟩ := @beginsOffset_of_writeOffset o
      rw [writeOffset?, heq, List.takeWhile_cons, if_neg (by simp [hsign])]
      rfl
  have hself : TimeOfDay.ofNumbers? t.hour t.minute t.second t.micro = some t := t.ofNumbers?_self
  rw [readTime?_eq hlength]
  cases o with
  | none =>
    have hend : Halts (writeOffset? none) := rfl
    rw [readClock?_writeTime t hend, Option.bind_some]
    simp [writeOffset?, Clock.field, hself, peek]
  | some o =>
    obtain ⟨sign, rest, heq, -, hdigit⟩ := @beginsOffset_of_writeOffset o
    have hend : Halts (writeOffset? (some o)) := by
      rw [Halts, writeOffset?, heq]
      exact hdigit
    have hmore : writeOffset o ≠ [] := by
      rw [heq]
      exact List.cons_ne_nil _ _
    rw [readClock?_writeTime t hend, Option.bind_some, List.drop_left, writeOffset?,
      readOffset?_writeOffset]
    simp [Clock.field, hself, hmore]

theorem dayLength_writeMoment (separator : Char) (m : Moment) :
    dayLength (writeMoment separator m) = 10 := by
  obtain ⟨-, hyear, -, hmonth, -⟩ := m.date.bounds
  have hlength : (padded 4 m.date.year).length = 4 := length_padded (by decide) (by omega)
  obtain ⟨v, hv, cs, hcs⟩ := padded_eq_cons (w := 2) (by decide) (show m.date.month < 10 ^ 2 by omega)
  obtain ⟨rest, hrest⟩ : ∃ rest,
      writeMoment separator m = padded 4 m.date.year ++ '-' :: Nat.digitChar v :: rest := by
    rw [writeMoment_eq, writeDate, hcs]
    simp
  have hfour : (writeMoment separator m).drop 4 = '-' :: Nat.digitChar v :: rest := by
    rw [hrest]
    exact List.drop_left' hlength
  have hfive : (writeMoment separator m).drop 5 = Nat.digitChar v :: rest := by
    rw [← List.drop_drop (i := 1) (j := 4), hfour]
    rfl
  have hlong : (writeMoment separator m).length ≠ 7 := by
    rw [writeMoment_eq, List.length_append, length_writeDate]
    omega
  have hweek : (peek (Nat.digitChar v :: rest) == 'W') = false := by interval_cases v <;> rfl
  have hdash : (peek ('-' :: Nat.digitChar v :: rest) == '-') = true := rfl
  simp [dayLength, hlong, hfour, hfive, hdash, hweek]

/-- A moment that is written is read back with the offset as it is read. -/
theorem readMoment?_writeMoment (m : Moment) :
    readMoment? (String.ofList (writeMoment 'T' m)) =
      some ⟨m.date, m.time, m.offset.map Offset.cut⟩ := by
  have hdrop : (writeMoment 'T' m).drop 10 = 'T' :: (writeTime m.time ++ writeOffset? m.offset) := by
    rw [writeMoment_eq, ← length_writeDate m.date, List.drop_left]
  have hlong : ¬ (writeMoment 'T' m).length ≤ 10 := by
    rw [writeMoment_eq, List.length_append, length_writeDate]
    simp
  have hday : readDay? (writeMoment 'T' m) 10 = some m.date := by
    rw [writeMoment_eq]
    exact readDay?_writeDate ..
  have hlead : leadLength ('T' :: (writeTime m.time ++ writeOffset? m.offset)) = 1 := rfl
  rw [readMoment?, octets_ascii fun _ hc => (written_writeMoment hc).ascii, dayLength_writeMoment]
  simp only [hday, Option.bind_eq_bind, Option.bind_some, if_neg hlong, hdrop, hlead,
    List.drop_one, List.tail_cons, readTime?_write]

end Iso
end DocForms
