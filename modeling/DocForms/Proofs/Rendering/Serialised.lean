import DocForms.Proofs.Calendar.Moments
import DocForms.Proofs.Rendering.Showing
import DocForms.Value.Plain

/-! Days and moments in plain form. Their texts are accepted, are read as the day and as the moment,
and are displayed as these are. Only an offset of less than a second is lost. -/
namespace DocForms

theorem Offset.cut_eq_self {o : Offset} (h : o.micros = 0 ∨ 1000000 ≤ o.micros.natAbs) :
    o.cut = o := by
  rw [cut]
  split
  · obtain ⟨micros, hrange⟩ := o
    obtain rfl : micros = 0 := by
      rcases h with h | h
      · exact h
      · omega
    rfl
  · rfl

namespace Moment

/-- The moment as it is read from its text. -/
def reread (m : Moment) : Moment := { m with offset := m.offset.map Offset.cut }

/-- The offset, if there is one, is none at all or at least a second. -/
def Readable (m : Moment) : Prop := ∀ o ∈ m.offset, o.micros = 0 ∨ 1000000 ≤ o.micros.natAbs

variable {m : Moment}

theorem reread_eq_self (h : m.Readable) : m.reread = m := by
  obtain ⟨date, time, _ | o⟩ := m
  · rfl
  · exact congrArg (fun o => Moment.mk date time (some o)) (Offset.cut_eq_self (h o rfl))

/-- The moment that is read is the same just if no offset is lost. -/
theorem reread_same_iff : m.reread.same m = true ↔ m.Readable := by
  constructor
  · intro hsame o ho
    by_contra hlost
    have hcut : o.cut = .utc := if_pos (by omega)
    have hmicros : (0 : Int) = o.micros := by
      have hequal : m.clockMicros - 0 = m.clockMicros - o.micros := by
        simpa [same, reread, Option.mem_def.mp ho, hcut, clockMicros, Offset.utc] using hsame
      omega
    omega
  · intro hreadable
    rw [reread_eq_self hreadable, same]
    cases m.offset <;> simp

end Moment

namespace Rendering
variable {d : Date} {m : Moment}

/-! ### Plain texts -/

theorem trimChars_writeDate (d : Date) : Text.trimChars (Iso.writeDate d) = Iso.writeDate d :=
  Text.trimChars_of_written fun _ hc => Iso.written_writeDate hc

theorem trimChars_writeMoment (m : Moment) :
    Text.trimChars (Iso.writeMoment 'T' m) = Iso.writeMoment 'T' m :=
  Text.trimChars_of_written fun _ hc => Iso.written_writeMoment hc

/-- A text that begins with a day as it is written is read as this day. -/
theorem readDate?_writeDate {cs : List Char} (hcs : cs.take 10 = Iso.writeDate d)
    (htrim : Text.trimChars cs = cs) :
    (Value.text (String.ofList cs)).readDate? = some (.date d) := by
  rw [readDate?_text, String.toList_ofList, htrim, hcs, Iso.readDate?,
    Iso.octets_ascii fun _ hc => (Iso.written_writeDate hc).ascii, Iso.length_writeDate]
  have hday := Iso.readDay?_writeDate d [] 10
  rwa [List.append_nil] at hday

/-- The clock of a moment that is written can be displayed after the day. -/
theorem clocked_written (t : TimeOfDay) : Display.Clocked ('T' :: (Iso.padded 2 t.hour ++
    ':' :: (Iso.padded 2 t.minute ++ ':' :: Iso.padded 2 t.second))) := by
  obtain ⟨hhour, hminute, hsecond, -⟩ := t.inRange
  have spells {f : Display.Field} {n : Nat} (hread : f.read? (Iso.padded 2 n) = some (n, [])) :
      f.Spells (Iso.padded 2 n) := by
    obtain ⟨h, hh, heq, -⟩ := Display.Field.spells_of_read? hread
    rwa [heq, List.append_nil]
  have minute {n : Nat} (hn : n < 60) : Display.minuteField.Spells (Iso.padded 2 n) :=
    spells (by interval_cases n <;> rfl)
  have hour {n : Nat} (hn : n < 24) : Display.hourField.Spells (Iso.padded 2 n) :=
    spells (by interval_cases n <;> rfl)
  exact .second (.inl rfl) (hour hhour) (minute hminute) (minute hsecond)

theorem shows_dateText (d : Date) : Shows (Iso.dateText d) d := by
  refine ⟨[], ?_, .none⟩
  rw [Iso.dateText, String.toList_ofList, trimChars_writeDate, List.append_nil]
  exact List.take_of_length_le (by rw [Iso.length_writeDate]; decide)

theorem shows_momentText (m : Moment) : Shows (Iso.momentText m) m.date := by
  obtain ⟨hhour, hminute, hsecond, -⟩ := m.time.inRange
  have two {n : Nat} (hn : n < 60) : (Iso.padded 2 n).length = 2 :=
    Iso.length_padded (by decide) (Nat.lt_trans hn (by decide))
  have hsplit : Iso.writeMoment 'T' m = (Iso.writeDate m.date ++ 'T' :: (Iso.padded 2 m.time.hour ++
      ':' :: (Iso.padded 2 m.time.minute ++ ':' :: Iso.padded 2 m.time.second))) ++
      (Iso.writeMicros m.time.micro ++ Iso.writeOffset? m.offset) := by
    simp [Iso.writeMoment_eq, Iso.writeTime_append]
  refine ⟨_, ?_, clocked_written m.time⟩
  rw [Iso.momentText, String.toList_ofList, trimChars_writeMoment, hsplit]
  refine List.take_left' ?_
  simp [Iso.length_writeDate, two (Nat.lt_trans hhour (by decide)), two hminute, two hsecond]

/-- The text of a moment is read as the moment up to a lost offset. -/
theorem readMoment?_momentText (m : Moment) :
    (Value.text (Iso.momentText m)).readMoment? = some m.reread := by
  have htext : Value.momentText (Iso.momentText m) = String.ofList (Iso.writeMoment 'T' m) := by
    rw [Iso.momentText, Value.momentText, String.toList_ofList, trimChars_writeMoment]
    split
    · rename_i rest hlast
      have hmem : 'Z' ∈ Iso.writeMoment 'T' m :=
        List.mem_reverse.mp (hlast ▸ List.mem_cons_self)
      rcases Iso.written_writeMoment hmem with hmark | ⟨v, hv, hdigit⟩
      · exact absurd hmark (by decide)
      · interval_cases v <;> cases hdigit
    · rfl
  rw [Value.readMoment?, htext, Iso.readMoment?_writeMoment]
  rfl

/-! ### Fields -/

/-- A value that stands for a day in a date field. -/
inductive FallsOn : Value → Date → Prop
  | day (d : Date) : FallsOn (.date d) d
  | moment (m : Moment) : FallsOn (.moment m) m.date

theorem FallsOn.plain {v : Value} (h : FallsOn v d) : ∃ s, v.plain = .text s ∧
    (Value.text s).readDate? = some (.date d) ∧ Shows s d ∧ date v = .ok (Display.dateText d) := by
  cases h with
  | day =>
    refine ⟨_, rfl, readDate?_writeDate ?_ (trimChars_writeDate d), shows_dateText d, rfl⟩
    exact List.take_of_length_le (by rw [Iso.length_writeDate])
  | moment m =>
    refine ⟨_, rfl, readDate?_writeDate ?_ (trimChars_writeMoment m), shows_momentText m, rfl⟩
    rw [Iso.writeMoment_eq]
    exact List.take_left' (Iso.length_writeDate m.date)

/-- A day or moment in plain form is accepted in a date field, is read as the same day, and is
displayed as before. A moment in plain form is accepted in a date and time field, is displayed as
before, and is read as the same moment just if its offset is none or at least a second. -/
theorem plain_keeps_moments (key : String) (links : ResolvedLinks) :
    (∀ f : Field, f.kind = .date → ∀ v d, FallsOn v d →
      Validators.standard f.kind f v.plain key links = .ok none ∧
      v.plain.readDate? = some (.date d) ∧
      ∃ u, Renderers.standard.render v (some f) = .ok u ∧
        Renderers.standard.render v.plain (some f) = .ok u) ∧
    (∀ f : Field, f.kind = .datetime → ∀ m : Moment,
      Validators.standard f.kind f (Value.moment m).plain key links = .ok none ∧
      (∃ u, Renderers.standard.render (.moment m) (some f) = .ok u ∧
        Renderers.standard.render (Value.moment m).plain (some f) = .ok u) ∧
      ∃ n, (Value.moment m).plain.readMoment? = some n ∧ n.date = m.date ∧ n.time = m.time ∧
        (n.same m = true ↔ m.Readable) ∧ (m.Readable → n = m)) := by
  constructor
  · intro f hkind v d hv
    obtain ⟨s, hplain, hread, hshows, hdate⟩ := hv.plain
    have hnull : v.isNull = false := by cases hv <;> rfl
    rw [hplain]
    refine ⟨(Validation.accepts_date_iff hkind).mpr ⟨_, hread⟩, hread, Display.dateText d, ?_, ?_⟩
    · rw [render_date hkind hnull, hdate]
    · rw [render_date hkind rfl, date, (date_text hread).1 hshows]
  · intro f hkind m
    have hread : (Value.moment m).plain.readMoment? = some m.reread := readMoment?_momentText m
    refine ⟨(Validation.accepts_moment_iff hkind).mpr ⟨_, hread⟩,
      ⟨Display.momentText m, ?_, ?_⟩, m.reread, hread, rfl, rfl, m.reread_same_iff,
      m.reread_eq_self⟩
    · rw [render_moment hkind rfl, moment]
    · -- the moment that is read differs at most in its offset, which is not displayed
      rw [render_moment hkind rfl]
      exact congrArg Except.ok ((moment_text (readMoment?_momentText m)).trans rfl)

/-- A field for a moment. -/
def startField : Field :=
  { id := "s", typeId := "t", name := "start", label := "Start", kind := .datetime }

/-- A moment of that morning at an offset. -/
def morning (o : Offset) : Moment := ⟨⟨2026, 4, 2, by decide⟩, ⟨9, 30, 0, 250000, by decide⟩, some o⟩

/-- An offset with seconds is kept. -/
theorem plain_keeps_seconds :
    let m := morning ⟨-19815000000, by decide⟩
    Iso.momentText m = "2026-04-02T09:30:00.250000-05:30:15" ∧
    Validators.standard .datetime startField (Value.moment m).plain "start" [] = .ok none ∧
    (∃ u, Renderers.standard.render (.moment m) (some startField) = .ok u ∧
      Renderers.standard.render (Value.moment m).plain (some startField) = .ok u) ∧
    (Value.moment m).plain.readMoment? = some m ∧
    (Value.moment m).plain.readDate? = some (.date m.date) := by
  intro m
  have hreadable : m.Readable := by
    rintro o ⟨⟩
    exact .inr (by decide)
  obtain ⟨hdays, hmoments⟩ := plain_keeps_moments "start" []
  obtain ⟨haccepts, hrender, n, hread, -, -, -, hsame⟩ := hmoments startField rfl m
  obtain rfl := hsame hreadable
  exact ⟨by decide +kernel, haccepts, hrender, hread, (hdays dueField rfl _ _ (.moment m)).2.1⟩

/-- An offset of a millionth of a second is lost. -/
theorem microsecond_lost :
    let m := morning ⟨1, by decide⟩
    Iso.momentText m = "2026-04-02T09:30:00.250000+00:00:00.000001" ∧
    (Value.moment m).plain.readMoment? = some (morning .utc) ∧ (morning .utc).same m = false := by
  decide +kernel

end Rendering
end DocForms
