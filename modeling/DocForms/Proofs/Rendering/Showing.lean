import DocForms.Proofs.Calendar.Days
import DocForms.Rendering
import DocForms.Validation.Validator
import Mathlib.Data.List.TakeWhile

/-! How accepted texts are displayed. A moment is displayed by the reader that accepts it. A day has
two readers: the accepted text is displayed as its day if the day is written in full with dashes and
nothing but a clock follows it in the first nineteen characters, and else as it stands. -/
namespace DocForms

namespace Text
variable {cs : List Char}

theorem trimChars_of_blank {s : String} (h : isBlankText s = true) : trimChars s.toList = [] := by
  have hdrop : s.toList.dropWhile isBlank = [] :=
    List.dropWhile_eq_nil_iff.mpr (List.all_eq_true.mp h)
  rw [trimChars, trimEnds, hdrop]
  rfl

theorem trimEnds_of_none {off : Char → Bool} (h : ∀ c ∈ cs, off c = false) :
    trimEnds off cs = cs := by
  have hdrop {cs : List Char} (h : ∀ c ∈ cs, off c = false) : cs.dropWhile off = cs := by
    cases cs with
    | nil => rfl
    | cons c cs => rw [List.dropWhile_cons, if_neg (by simp [h c List.mem_cons_self])]
  rw [trimEnds, hdrop h, hdrop fun c hc => h c (List.mem_reverse.mp hc), List.reverse_reverse]

theorem isBlank_written {c : Char} (h : Iso.Written c) : isBlank c = false := by
  have hmarks : Iso.marks.any isBlank = false := by decide +kernel
  rcases h with h | ⟨v, hv, rfl⟩
  · exact Bool.eq_false_iff.mpr (List.any_eq_false.mp hmarks c h)
  · interval_cases v <;> rfl

theorem trimChars_of_written (h : ∀ c ∈ cs, Iso.Written c) : trimChars cs = cs :=
  trimEnds_of_none fun c hc => isBlank_written (h c hc)

end Text

namespace Validation
variable {f : Field} {v : Value} {key : String} {links : ResolvedLinks}

theorem accepts_date_iff (hkind : f.kind = .date) :
    Validators.standard f.kind f v key links = .ok none ↔ ∃ a, v.readDate? = some a := by
  rw [hkind, Validators.standard, date, ← Option.isSome_iff_exists]
  cases v.readDate? with
  | none => exact iff_of_false nofun nofun
  | some a => exact iff_of_true rfl rfl

theorem accepts_moment_iff (hkind : f.kind = .datetime) :
    Validators.standard f.kind f v key links = .ok none ↔ ∃ m, v.readMoment? = some m := by
  rw [hkind, Validators.standard, moment, ← Option.isSome_iff_exists]
  cases v.readMoment? with
  | none => exact iff_of_false nofun nofun
  | some m => exact iff_of_true rfl rfl

end Validation

namespace Rendering
variable {s : String} {d : Date} {m : Moment}

/-- Day, month and year in all their digits. -/
def numericDay (d : Date) : List Char :=
  Iso.padded 2 d.day ++ '/' :: Iso.padded 2 d.month ++ '/' :: Iso.padded 4 d.year

/-- Day, month, year, hour and minute in all their digits. -/
def numericMoment (m : Moment) : List Char :=
  numericDay m.date ++ ' ' :: Iso.padded 2 m.time.hour ++ ':' :: Iso.padded 2 m.time.minute

/-- What a text shows of itself is a day in full and at most a clock. -/
def Shows (s : String) (d : Date) : Prop :=
  ∃ tail, (Text.trimChars s.toList).take 19 = Iso.writeDate d ++ tail ∧ Display.Clocked tail

theorem toDigits_year {n : Nat} (hlow : 1000 ≤ n) (hhigh : n ≤ 9999) :
    Nat.toDigits 10 n = Iso.padded 4 n := by
  have hlength : ¬ (Nat.toDigits 10 n).length ≤ 3 := by
    rw [Nat.length_toDigits_le_iff (by decide) (by decide)]
    omega
  rw [Iso.padded, show 4 - (Nat.toDigits 10 n).length = 0 by omega]
  rfl

theorem dateText_eq (h : 1000 ≤ d.year) : Display.dateText d = String.ofList (numericDay d) := by
  rw [Display.dateText, Display.dateChars, toDigits_year h d.bounds.2.1, numericDay]

theorem momentText_eq (h : 1000 ≤ m.date.year) :
    Display.momentText m = String.ofList (numericMoment m) := by
  rw [Display.momentText, Display.dateChars, toDigits_year h m.date.bounds.2.1, numericMoment,
    numericDay]

/-! ### Days -/

theorem readDate?_text : (Value.text s).readDate? = some (.date d) ↔
    Iso.readDate? (String.ofList ((Text.trimChars s.toList).take 10)) = some d := by
  simp [Value.readDate?]

/-- Of a text that is read as a day, at most that day is shown. -/
theorem displayed_iff (hread : (Value.text s).readDate? = some (.date d)) {d' : Date} :
    Display.readDate? s = some d' ↔ d' = d ∧ Shows s d := by
  constructor
  · intro hshown
    have hten := Display.take_eq_writeDate (readDate?_text.mp hread) hshown
    have hcut : (Text.trimChars s.toList).take 19 =
        Iso.writeDate d ++ ((Text.trimChars s.toList).drop 10).take 9 := by
      rw [← hten, ← List.take_add]
    rw [Display.readDate?, hcut] at hshown
    obtain ⟨rfl, hclocked⟩ := Display.findSome?_writeDate.mp hshown
    exact ⟨rfl, _, hcut, hclocked⟩
  · rintro ⟨rfl, tail, hcut, hclocked⟩
    rw [Display.readDate?, hcut]
    exact Display.findSome?_writeDate.mpr ⟨rfl, hclocked⟩

theorem written_numericDay {c : Char} (h : c ∈ numericDay d) : Iso.Written c :=
  Iso.written_joined (by decide) h

theorem numericDay_slash (d : Date) : ((numericDay d).take 10)[2]? = some '/' := by
  obtain ⟨-, -, -, -, -, hday⟩ := d.bounds
  have hlength : (Iso.padded 2 d.day).length = 2 :=
    Iso.length_padded (by decide) (Nat.lt_of_le_of_lt hday (by decide))
  simp [numericDay, hlength]

/-- A day as it is displayed is not read as a day: its third character is no digit of a year. -/
theorem ne_numericDay (hread : (Value.text s).readDate? = some (.date d)) (d' : Date) :
    s ≠ String.ofList (numericDay d') := by
  rintro rfl
  have hascii : ∀ c ∈ (numericDay d').take 10, c.toNat < 128 := fun c hc =>
    (written_numericDay (List.mem_of_mem_take hc)).ascii
  have hread := readDate?_text.mp hread
  rw [String.toList_ofList, Text.trimChars_of_written fun _ hc => written_numericDay hc,
    Iso.readDate?, Iso.octets_ascii hascii] at hread
  obtain ⟨-, hday⟩ := Option.ite_none_right_eq_some.mp hread
  obtain ⟨⟨year, rest⟩, hyear, -⟩ := Option.bind_eq_some_iff.mp hday
  obtain ⟨hlt, heq⟩ := (Iso.number?_iff (by decide)).mp hyear
  have hlength : 2 < (Iso.padded 4 year).length := by
    rw [Iso.length_padded (by decide) hlt]
    decide
  have hslash := numericDay_slash d'
  rw [heq, List.getElem?_append_left hlength] at hslash
  obtain ⟨v, hv, hdigit⟩ := Iso.mem_padded (List.mem_of_getElem? hslash)
  interval_cases v <;> cases hdigit

/-- What is displayed of a text that is read as a day. -/
theorem date_text (hread : (Value.text s).readDate? = some (.date d)) :
    (Shows s d → dayText s = Display.dateText d) ∧ (¬ Shows s d → dayText s = s) := by
  have hblank : Text.isBlankText s = false := by
    rw [← Bool.not_eq_true]
    intro hblank
    have hsome := readDate?_text.mp hread
    have hnone : Iso.readDate? (String.ofList ([].take 10)) = none := by decide +kernel
    rw [Text.trimChars_of_blank hblank, hnone] at hsome
    cases hsome
  rw [dayText, if_neg (by simp [hblank])]
  constructor
  · intro hshows
    rw [(displayed_iff hread).mpr ⟨rfl, hshows⟩]
  · intro hno
    cases hshown : Display.readDate? s with
    | none => rfl
    | some d' => exact absurd ((displayed_iff hread).mp hshown).2 hno

/-! ### Moments -/

theorem moment_text (hread : (Value.text s).readMoment? = some m) :
    momentText s = Display.momentText m := by
  have hblank : Text.isBlankText s = false := by
    rw [← Bool.not_eq_true]
    intro hblank
    have hnone : Iso.readMoment? (String.ofList []) = none := by decide +kernel
    rw [Value.readMoment?, Value.momentText, Text.trimChars_of_blank hblank] at hread
    cases hnone.symm.trans hread
  rw [momentText, if_neg (by simp [hblank]), hread]

/-! ### Accepted texts -/

theorem render_date {f : Field} {v : Value} (hkind : f.kind = .date) (hv : v.isNull = false) :
    Renderers.standard.render v (some f) = date v := by
  rw [Renderers.render, hv, hkind]
  rfl

theorem render_moment {f : Field} {v : Value} (hkind : f.kind = .datetime)
    (hv : v.isNull = false) : Renderers.standard.render v (some f) = moment v := by
  rw [Renderers.render, hv, hkind]
  rfl

/-- An accepted text of a date field is displayed as the day that it is read as, just if it shows
this day, and else as it stands. An accepted text of a date and time field is displayed as the
moment that it is read as. -/
theorem accepted_displayed_iff {f : Field} {key : String} {links : ResolvedLinks}
    (h : Validators.standard f.kind f (.text s) key links = .ok none) :
    (f.kind = .date → ∃ d, (Value.text s).readDate? = some (.date d) ∧ (1000 ≤ d.year →
      (Renderers.standard.render (.text s) (some f) = .ok (String.ofList (numericDay d)) ↔
        Shows s d) ∧
      (¬ Shows s d → Renderers.standard.render (.text s) (some f) = .ok s))) ∧
    (f.kind = .datetime → ∃ m, (Value.text s).readMoment? = some m ∧ (1000 ≤ m.date.year →
      Renderers.standard.render (.text s) (some f) = .ok (String.ofList (numericMoment m)))) := by
  constructor
  · intro hkind
    obtain ⟨a, ha⟩ := (Validation.accepts_date_iff hkind).mp h
    obtain ⟨d, -, rfl⟩ := Option.map_eq_some_iff.mp ha
    refine ⟨d, ha, fun hyear => ?_⟩
    obtain ⟨hshown, helse⟩ := date_text ha
    rw [render_date hkind rfl, date, Except.ok.injEq, Except.ok.injEq, ← dateText_eq hyear]
    refine ⟨⟨fun heq => ?_, hshown⟩, helse⟩
    by_contra hno
    exact ne_numericDay ha d (((helse hno).symm.trans heq).trans (dateText_eq hyear))
  · intro hkind
    obtain ⟨m, hm⟩ := (Validation.accepts_moment_iff hkind).mp h
    refine ⟨m, hm, fun hyear => ?_⟩
    rw [render_moment hkind rfl, moment, moment_text hm, momentText_eq hyear]

/-- A field for a day. -/
def dueField : Field := { id := "d", typeId := "t", name := "due", label := "Due", kind := .date }

/-- A clock with seconds is cut off with the zone, so that the day is displayed. -/
theorem zoned_seconds_displayed :
    let v : Value := .text "2026-03-02T09:30:00Z"
    Validators.standard .date dueField v "due" [] = .ok none ∧
    Renderers.standard.render v (some dueField) = .ok "02/03/2026" ∧
    ∃ d, v.readDate? = some (.date d) ∧ Shows "2026-03-02T09:30:00Z" d := by
  have h : Validators.standard .date dueField (.text "2026-03-02T09:30:00Z") "due" [] =
      .ok none := by decide +kernel
  have hrender : Renderers.standard.render (.text "2026-03-02T09:30:00Z") (some dueField) =
      .ok "02/03/2026" := by decide +kernel
  obtain ⟨d, hd, hshows⟩ := (accepted_displayed_iff (f := dueField) h).1 rfl
  have hread : (Value.text "2026-03-02T09:30:00Z").readDate? =
      some (.date ⟨2026, 3, 2, by decide⟩) := by decide +kernel
  obtain rfl := Atom.date.inj (Option.some.inj (hd.symm.trans hread))
  exact ⟨h, hrender, _, hd, (hshows (by decide)).1.mp (hrender.trans (by decide +kernel))⟩

/-- Without seconds the zone is not cut off, and the text is displayed as it stands. -/
theorem zoned_minutes_displayed :
    let v : Value := .text "2026-03-02T09:30Z"
    Validators.standard .date dueField v "due" [] = .ok none ∧
    v.readDate? = some (.date ⟨2026, 3, 2, by decide⟩) ∧
    Renderers.standard.render v (some dueField) = .ok "2026-03-02T09:30Z" ∧
    String.ofList (numericDay ⟨2026, 3, 2, by decide⟩) = "02/03/2026" := by
  decide +kernel

end Rendering
end DocForms
