import DocForms.Proofs.Value.Written
import DocForms.Rendering

/-! Which values can be displayed. What is displayed of a value is all of it, the name of a file, the
number of a linked document, or just whether a box is ticked. A very long integer in it has no text,
and then nothing is displayed. -/
namespace DocForms.Rendering
variable {v : Value} {field : Option Field} {p q : Prop} {x : Except Fault String}

/-- Values that a field displays, or that are displayed without a field: those that have a text, and
those of which only a part is displayed that has one. -/
inductive Displayable (v : Value) (field : Option Field) : Prop where
  | whole (h : v.hasText = true)
  | box {f : Field} (hf : field = some f) (hkind : f.kind = .checkbox)
  | file {f : Field} (hf : field = some f) (hkind : f.kind = .file)
    (h : (filePart v).hasText = true)
  | link {l : LinkValue} (hkind : ∀ f ∈ field, f.kind = .documentLink)
    (h : LinkValue.ofValue? v = some l)

/-- A rendering that gives a text just if a condition holds, and else finds that there is none. -/
inductive Writes (p : Prop) : Except Fault String → Prop where
  | text (h : p) (s : String) : Writes p (.ok s)
  | none (h : ¬ p) : Writes p (.error (.misuse .content))

namespace Writes

theorem returns_iff (h : Writes p x) : (∃ s, x = .ok s) ↔ p := by
  cases h with
  | text h s => exact iff_of_true ⟨s, rfl⟩ h
  | none h => exact iff_of_false nofun h

theorem refusesOnly {own : Refusal → Bool} (h : Writes p x) : RefusesOnly own x := by
  cases h with
  | text => exact .ok _
  | none => exact .misuse _

theorem congr (h : Writes p x) (hpq : p ↔ q) : Writes q x := by
  rwa [← hpq]

/-- What is made of a text is a text. -/
theorem map (h : Writes p x) (f : String → String) : Writes p (x >>= fun s => pure (f s)) := by
  cases h with
  | text h s => exact .text h (f s)
  | none h => exact .none h

end Writes

theorem writes_shown (v : Value) : Writes (v.hasText = true) (shown v) := by
  cases h : v.hasText with
  | true =>
    rw [shown, Value.written_of_hasText _ h]
    exact .text rfl _
  | false =>
    rw [shown, Value.written_of_not_hasText _ h]
    exact .none nofun

theorem hasText_of_isNull (h : v.isNull = true) : v.hasText = true := by
  cases v with
  | atom a =>
    cases a with
    | null => rfl
    | _ => cases h
  | _ => cases h

/-! ### Kinds -/

theorem writes_text (v : Value) : Writes (v.hasText = true) (text v) := by
  unfold text
  split
  · rename_i hnull
    exact .text (hasText_of_isNull hnull) _
  · exact writes_shown _

theorem writes_number (v : Value) : Writes (v.hasText = true) (number v) := by
  unfold number
  split
  · exact .text rfl _
  · exact .text rfl _
  · exact .text rfl _
  · exact writes_shown _

theorem writes_date (v : Value) : Writes (v.hasText = true) (date v) := by
  unfold date
  split
  · exact .text rfl _
  · exact .text rfl _
  · exact .text rfl _
  · exact .text rfl _
  · exact writes_shown _

theorem writes_moment (v : Value) : Writes (v.hasText = true) (moment v) := by
  unfold moment
  split
  · exact .text rfl _
  · exact .text rfl _
  · exact .text rfl _
  · exact writes_shown _

theorem select_eq (v : Value) (field : Option Field) : select v field =
    if v.isNull then .ok ""
    else shown v >>= fun s =>
      pure (((field.bind Field.choices?).bind (labelFor? · s)).getD s) := by
  unfold select
  split
  · rfl
  · refine bind_congr fun s => ?_
    cases (field.bind Field.choices?).bind (labelFor? · s) <;> rfl

theorem writes_select (v : Value) (field : Option Field) :
    Writes (v.hasText = true) (select v field) := by
  rw [select_eq]
  split
  · rename_i hnull
    exact .text (hasText_of_isNull hnull) _
  · exact (writes_shown v).map _

/-- A value that has a text has one for its file too. -/
theorem hasText_filePart (h : v.hasText = true) : (filePart v).hasText = true := by
  cases v with
  | record es =>
    have hurl := Value.hasText_orElse (Value.hasText_get h "url") (w := .text "") rfl
    exact Value.hasText_orElse (Value.hasText_get h "name") hurl
  | _ => exact h

theorem writes_file (v : Value) : Writes ((filePart v).hasText = true) (file v) := by
  unfold file
  split
  · rename_i hnull
    exact .text (hasText_filePart (hasText_of_isNull hnull)) _
  · exact writes_shown _

/-- Links are shown by their numbers, and other values in whole. -/
def HasNumber (v : Value) : Prop := v.hasText = true ∨ ∃ l, LinkValue.ofValue? v = some l

theorem writes_link (v : Value) : Writes (HasNumber v) (link v) := by
  unfold link
  split
  · rename_i hnull
    exact .text (.inl (hasText_of_isNull hnull)) _
  · split
    · rename_i l hl
      exact .text (.inr ⟨l, hl⟩) _
    · rename_i hl
      exact (writes_shown v).congr (or_iff_left (by simp [hl])).symm

theorem writes_bare (v : Value) : Writes (HasNumber v) (bare v) := by
  have whole {a : Atom} : (Value.atom a).hasText = true ↔ HasNumber (.atom a) :=
    (or_iff_left (by simp [LinkValue.ofValue?])).symm
  unfold bare
  split
  · exact .text (.inl rfl) _
  · exact .text (.inl rfl) _
  · exact (writes_number _).congr whole
  · exact (writes_number _).congr whole
  · exact (writes_moment _).congr whole
  · exact (writes_date _).congr whole
  · exact writes_link _

/-! ### Fields -/

theorem displayable_whole {f : Field} (hkind : f.kind ∉ [.checkbox, .file, .documentLink]) :
    v.hasText = true ↔ Displayable v (some f) := by
  constructor
  · exact .whole
  · rintro (h | ⟨⟨⟩, hbox⟩ | ⟨⟨⟩, hfile, -⟩ | ⟨hlink, -⟩)
    · exact h
    · simp [hbox] at hkind
    · simp [hfile] at hkind
    · simp [hlink f rfl] at hkind

theorem displayable_file {f : Field} (hkind : f.kind = .file) :
    (filePart v).hasText = true ↔ Displayable v (some f) := by
  constructor
  · exact .file rfl hkind
  · rintro (h | ⟨⟨⟩, hbox⟩ | ⟨-, -, h⟩ | ⟨hlink, -⟩)
    · exact hasText_filePart h
    · cases hkind.symm.trans hbox
    · exact h
    · cases hkind.symm.trans (hlink f rfl)

theorem displayable_link (hkind : ∀ f ∈ field, f.kind = .documentLink) :
    HasNumber v ↔ Displayable v field := by
  constructor
  · rintro (h | ⟨l, h⟩)
    · exact .whole h
    · exact .link hkind h
  · rintro (h | ⟨rfl, hbox⟩ | ⟨rfl, hfile, -⟩ | ⟨-, h⟩)
    · exact .inl h
    · cases (hkind _ rfl).symm.trans hbox
    · cases (hkind _ rfl).symm.trans hfile
    · exact .inr ⟨_, h⟩

theorem writes_kind {f : Field} {kind : FieldKind} (hkind : f.kind = kind) :
    Writes (Displayable v (some f)) (Renderers.standard kind v (some f)) := by
  cases kind with
  | text => exact (writes_text v).congr (displayable_whole (by simp [hkind]))
  | textarea => exact (writes_text v).congr (displayable_whole (by simp [hkind]))
  | number => exact (writes_number v).congr (displayable_whole (by simp [hkind]))
  | date => exact (writes_date v).congr (displayable_whole (by simp [hkind]))
  | datetime => exact (writes_moment v).congr (displayable_whole (by simp [hkind]))
  | select => exact (writes_select v _).congr (displayable_whole (by simp [hkind]))
  | checkbox => exact .text (.box rfl hkind) _
  | file => exact (writes_file v).congr (displayable_file hkind)
  | documentLink => exact (writes_link v).congr (displayable_link (by simpa using hkind))

/-- The standard renderers display just the displayable values. -/
theorem writes_render (v : Value) (field : Option Field) :
    Writes (Displayable v field) (Renderers.standard.render v field) := by
  unfold Renderers.render
  split
  · rename_i hnull
    exact .text (.whole (hasText_of_isNull hnull)) _
  · cases field with
    | none => exact (writes_bare v).congr (displayable_link (by simp))
    | some f => exact writes_kind rfl

end DocForms.Rendering
