import DocForms.Proofs.Value.Written
import DocForms.Validation.Engine

/-! When a value meets the rule of its field, and when this cannot be said because the text of a
number would be too long. -/
namespace DocForms

namespace Value

/-- The missing value, and texts of nothing but white space. -/
inductive Blank : Value → Prop
  | null : Blank .null
  | text {s : String} (h : ∀ c ∈ s.toList, Text.isBlank c = true) : Blank (.text s)

/-- The values of a ticked box. -/
inductive Ticked : Value → Prop
  | bool : Ticked (.bool true)
  | text : Ticked (.text "true")
  | number {v : Value} {n : Number} (hv : v.number? = some n) (hn : n.eq (.int 1) = true) : Ticked v

/-- The values of a box, ticked or not. -/
inductive Boxed : Value → Prop
  | bool (b : Bool) : Boxed (.bool b)
  | text {s : String} (h : s = "true" ∨ s = "false") : Boxed (.text s)
  | number {v : Value} {n : Number} (hv : v.number? = some n)
      (hn : n.eq (.int 0) = true ∨ n.eq (.int 1) = true) : Boxed v

/-- Values that do not consist of others. -/
inductive Single : Value → Prop
  | atom (a : Atom) : Single (.atom a)
  | link (l : LinkValue) : Single (.link l)

end Value

/-- Integers that have no text. -/
def TooLong (n : Int) : Prop := 10 ^ Decimal.maxIntegerDigits ≤ n.natAbs

namespace Number

/-- A number that is too long to be written. -/
def Unwritten : Number → Prop
  | .int n => TooLong n
  | .float _ => False

/-- A number that lies beyond the binary numbers. -/
def Unrounded : Number → Prop
  | .int n => Binary64.ofInt? n = none
  | .float _ => False

/-- The bound that a number breaks; the lower one is looked at first. -/
inductive Breaks (low high : Option Number) (x : Number) : Number → Prop
  | low {n : Number} (hn : n ∈ low) (hx : x.lt n = true) : Breaks low high x n
  | high {n : Number} (hlow : ∀ m ∈ low, x.lt m = false) (hn : n ∈ high) (hx : n.lt x = true) :
      Breaks low high x n

end Number

/-- The texts that rules allow. -/
structure Rules.FitsText (r : Rules) (s : String) : Prop where
  shortest : ∀ n ∈ r.minLength, (Number.int s.length).lt n = false
  longest : ∀ n ∈ r.maxLength, n.lt (.int s.length) = false
  pattern : ∀ p ∈ r.pattern, p.occursIn s = true

/-- The numbers that rules allow. -/
structure Rules.FitsNumber (r : Rules) (x : Number) : Prop where
  least : ∀ n ∈ r.minimum, x.lt n = false
  most : ∀ n ∈ r.maximum, n.lt x = false

/-- A link with a number and a type, to the target type if there is one, for which a document with
just that number was found at the key. -/
structure LinkValue.Vouched (l : LinkValue) (target : Option String) (key : String)
    (links : ResolvedLinks) : Prop where
  number : ¬ (Value.text l.documentNumber).Blank
  type : ¬ (Value.text l.documentTypeId).Blank
  target : ∀ t ∈ target, t ≠ "" → l.documentTypeId = t
  found : ∃ d, links.document? key = some d ∧ d.number = .text (Text.trim l.documentNumber)

namespace Field

/-- The values, apart from blank ones, that a field accepts. -/
def Admits (f : Field) (v : Value) (key : String) (links : ResolvedLinks) : Prop :=
  match f.kind with
  | .text | .textarea => v.Single ∧ ∀ r ∈ f.rules, r.FitsText (v.display .kept)
  | .number => ∃ x ∈ v.readNumber?, ∀ r ∈ f.rules, r.FitsNumber x
  | .date => ∃ d, v.readDate? = some d
  | .datetime => ∃ m, v.readMoment? = some m
  | .select => ∀ cs, f.options = some (.choices cs) → ∃ c ∈ cs, c.value = v.display .kept
  | .checkbox => v.Boxed
  | .file => (∃ s, v = .text s) ∨ ∃ es, v = .record es
  | .documentLink => ∃ l ∈ LinkValue.ofValue? v, l.Vouched f.linkOptions.target key links

/-- The values that a field cannot judge: a text or a bound would have to be written that is too
long or too large for it. -/
def Unwritable (f : Field) (v : Value) : Prop :=
  match f.kind with
  | .text | .textarea => v.Single ∧ (v.hasText = false ∨ ∃ r ∈ f.rules, ∃ n,
      Number.Breaks r.minLength r.maxLength (.int (v.display .kept).length) n ∧ n.Unwritten)
  | .number => ∃ x ∈ v.readNumber?, ∃ r ∈ f.rules, ∃ n,
      Number.Breaks r.minimum r.maximum x n ∧ n.Unrounded
  | .select => (∃ cs, f.options = some (.choices cs)) ∧ v.hasText = false
  | _ => False

/-- A required box that is not ticked, or another required field that is blank. -/
def Lacks (f : Field) (v : Value) : Prop :=
  f.required = true ∧ if f.kind = .checkbox then ¬ v.Ticked else v.Blank

/-- A field fails if its constraints are defective, if it lacks a value, or if it has one that it
does not accept. -/
def Fails (f : Field) (v : Value) (key : String) (links : ResolvedLinks) : Prop :=
  f.problems ≠ [] ∨ f.Lacks v ∨ ¬ v.Blank ∧ ¬ f.Admits v key links

/-- A field is stuck if it has a value that it cannot judge. -/
def Stuck (f : Field) (v : Value) : Prop :=
  f.problems = [] ∧ ¬ f.Lacks v ∧ ¬ v.Blank ∧ f.Unwritable v

end Field

namespace FieldGroup

/-- The numbers of rows that a group may have. -/
def Bears (g : FieldGroup) (rows : Nat) : Prop :=
  g.minRows.getD 0 ≤ rows ∧ ∀ m ∈ g.maxRows, (rows : Int) ≤ m

/-- The numbers of rows whose excess or lack cannot be written. -/
def Uncounted (g : FieldGroup) (rows : Nat) : Prop :=
  ∃ b : Int, (TooLong b ∨ TooLong rows) ∧ (b = g.minRows.getD 0 ∧ rows < b ∨
    g.minRows.getD 0 ≤ rows ∧ b ∈ g.maxRows ∧ b < rows)

/-- The values of a group: none yet, rows in a list, or a single row. -/
inductive Takes (g : FieldGroup) : Value → Prop
  | none : Takes g .null
  | rows (h : g.repeatable = true) (vs : List Value) : Takes g (.list vs)
  | row (h : g.repeatable = false) (es : Entries) : Takes g (.record es)

end FieldGroup

namespace Value
variable {v : Value}

theorem blank_text_iff {s : String} : (Value.text s).Blank ↔ Text.isBlankText s = true := by
  rw [Text.isBlankText, List.all_eq_true]
  constructor
  · rintro ⟨h⟩
    assumption
  · exact .text

theorem blank_iff : v.Blank ↔ v.isBlank = true := by
  constructor
  · rintro (_ | h)
    · rfl
    · exact blank_text_iff.mp (.text h)
  · intro h
    unfold isBlank at h
    split at h
    · exact .null
    · exact blank_text_iff.mpr h
    · cases h

theorem ticked_iff : v.Ticked ↔ v.isChecked = true := by
  constructor
  · rintro (_ | _ | ⟨hv, hn⟩)
    · rfl
    · rfl
    · unfold isChecked
      split <;> simp_all [number?]
  · intro h
    unfold isChecked at h
    split at h
    · rw [h]
      exact .bool
    · rw [beq_iff_eq.mp h]
      exact .text
    · split at h
      · exact .number ‹_› h
      · cases h

theorem single_cases (v : Value) : v.Single ∨ (∃ vs, v = .list vs) ∨ ∃ es, v = .record es := by
  cases v with
  | atom a => exact .inl (.atom a)
  | link l => exact .inl (.link l)
  | list vs => exact .inr (.inl ⟨vs, rfl⟩)
  | record es => exact .inr (.inr ⟨es, rfl⟩)

theorem hasText_eq_false {n : Int} : (Value.int n).hasText = false ↔ TooLong n := by
  rw [← Bool.not_eq_true, hasText_int, Nat.not_lt, TooLong]

end Value

namespace Validation
variable {f : Field} {v : Value} {r : Except Fault (Option String)} {fails stuck : Prop}

/-- A check has no outcome if it is stuck, and else a message just if it fails. -/
structure Decides (r : Except Fault (Option String)) (fails stuck : Prop) : Prop where
  ends : (∃ o, r = .ok o) ↔ ¬ stuck
  reports : ∀ {o}, r = .ok o → (o.isSome = true ↔ fails)

theorem Decides.congr {fails' stuck' : Prop} (h : Decides r fails stuck) (hf : fails ↔ fails')
    (hs : stuck ↔ stuck') : Decides r fails' stuck' := by
  rwa [← propext hf, ← propext hs]

theorem decides_ok {o : Option String} (hf : o.isSome = true ↔ fails) (hs : ¬ stuck) :
    Decides (.ok o) fails stuck :=
  ⟨iff_of_true ⟨o, rfl⟩ hs, fun h => Except.ok.inj h ▸ hf⟩

theorem decides_accept (hf : ¬ fails) (hs : ¬ stuck) : Decides accept fails stuck :=
  decides_ok (iff_of_false (by simp) hf) hs

theorem decides_some {m : String} (hf : fails) (hs : ¬ stuck) : Decides (.ok (some m)) fails stuck :=
  decides_ok (iff_of_true rfl hf) hs

theorem decides_error {e : Fault} (hs : stuck) : Decides (.error e) fails stuck :=
  ⟨iff_of_false (by simp) (not_not_intro hs), fun h => nomatch h⟩

theorem decides_if {p : Prop} [Decidable p] {m : String} :
    Decides (if p then accept else .ok (some m)) (¬ p) False := by
  by_cases h : p
  · rw [if_pos h]
    exact decides_accept (not_not_intro h) id
  · rw [if_neg h]
    exact decides_some h id

/-- What needs the text of a value is stuck if there is none. -/
theorem decides_written {c : Custody} {k : String → Except Fault (Option String)}
    (h : Decides (k (v.display c)) fails stuck) :
    Decides (v.written c >>= k) fails (v.hasText = false ∨ stuck) := by
  cases ht : v.hasText with
  | true =>
    rw [Value.written_of_hasText c ht]
    exact h.congr .rfl (by simp)
  | false =>
    rw [Value.written_of_not_hasText c ht]
    exact decides_error (.inl rfl)

/-! ### Bounds -/

theorem breaks_eq_some {α : Type} {bound : Option α} {bad : α → Bool} {a : α} :
    breaks bound bad = some a ↔ a ∈ bound ∧ bad a = true := by
  simp [breaks, Option.filter_eq_some_iff]

theorem breaks_eq_none {α : Type} {bound : Option α} {bad : α → Bool} :
    breaks bound bad = none ↔ ∀ a ∈ bound, bad a = false := by
  simp [breaks, Option.filter_eq_none_iff]

/-- A lower and an upper bound, and after them what else is checked. -/
theorem bounds_decides {low high : Option Number} {x : Number} {fits : Prop}
    {stuck : Number → Prop} {small large : Number → Except Fault (Option String)}
    (hsmall : ∀ n, Decides (small n) True (stuck n)) (hlarge : ∀ n, Decides (large n) True (stuck n))
    (hr : Decides r (¬ fits) False) :
    Decides (match breaks low x.lt with
      | some n => small n
      | none => match breaks high (·.lt x) with
        | some n => large n
        | none => r)
      (¬ ((∀ n ∈ low, x.lt n = false) ∧ (∀ n ∈ high, n.lt x = false) ∧ fits))
      (∃ n, Number.Breaks low high x n ∧ stuck n) := by
  cases hlow : breaks low x.lt with
  | some n =>
    obtain ⟨hn, hx⟩ := breaks_eq_some.mp hlow
    -- the number that is broken first is unique, so the check is stuck only if its text is missing
    refine (hsmall n).congr (iff_of_true trivial fun h => ?_) ⟨fun h => ⟨n, .low hn hx, h⟩, ?_⟩
    · simp [h.1 n hn] at hx
    · rintro ⟨m, ⟨hm, -⟩ | ⟨hm, -, -⟩, h⟩
      · rwa [Option.mem_unique hn hm]
      · simp [hm n hn] at hx
  | none =>
    have hlow := breaks_eq_none.mp hlow
    cases hhigh : breaks high (·.lt x) with
    | some n =>
      obtain ⟨hn, hx⟩ := breaks_eq_some.mp hhigh
      refine (hlarge n).congr (iff_of_true trivial fun h => ?_) ⟨fun h => ⟨n, .high hlow hn hx, h⟩, ?_⟩
      · simp [h.2.1 n hn] at hx
      · rintro ⟨m, ⟨hm, hx⟩ | ⟨-, hm, -⟩, h⟩
        · simp [hlow m hm] at hx
        · rwa [Option.mem_unique hn hm]
    | none =>
      have hhigh := breaks_eq_none.mp hhigh
      refine hr.congr (not_congr ⟨fun h => ⟨hlow, hhigh, h⟩, fun h => h.2.2⟩)
        (iff_of_false id ?_)
      rintro ⟨m, ⟨hm, hx⟩ | ⟨-, hm, hx⟩, -⟩
      · simp [hlow m hm] at hx
      · simp [hhigh m hm] at hx

theorem lengthText_decides (n : Number) (before after : String) :
    Decides (do reject f (before ++ (← lengthText n) ++ after)) True n.Unwritten := by
  refine (decides_written (decides_some trivial id)).congr .rfl ?_
  rw [or_false]
  cases n with
  | int n => exact Value.hasText_eq_false
  | float x => simp [Value.ofNumber, Value.hasText, Atom.hasText, Number.Unwritten]

theorem boundText_decides (n : Number) (before : String) :
    Decides (do reject f (before ++ (← boundText n))) True n.Unrounded := by
  cases n with
  | int n =>
    rw [Number.Unrounded, boundText]
    cases Binary64.ofInt? n with
    | some x => exact decides_some trivial (by simp)
    | none => exact decides_error rfl
  | float x => exact decides_some trivial id

theorem pattern_decides (pattern : Option Pattern) (s : String) :
    Decides (match breaks pattern fun p => !p.occursIn s with
      | some _ => reject f " has an invalid format"
      | none => accept) (¬ ∀ p ∈ pattern, p.occursIn s = true) False := by
  cases h : breaks pattern fun p => !p.occursIn s with
  | some p =>
    obtain ⟨hp, hs⟩ := breaks_eq_some.mp h
    refine decides_some (fun h => ?_) id
    simp [h p hp] at hs
  | none =>
    have h := breaks_eq_none.mp h
    exact decides_accept (not_not_intro (by simpa using h)) id

theorem lengthAndPattern_decides (s : String) :
    Decides (lengthAndPattern f s) (¬ ∀ r ∈ f.rules, r.FitsText s)
      (∃ r ∈ f.rules, ∃ n, Number.Breaks r.minLength r.maxLength (.int s.length) n ∧ n.Unwritten) := by
  unfold lengthAndPattern
  cases f.rules with
  | none => exact decides_accept (by simp) (by simp)
  | some r =>
    refine (bounds_decides (fun n => lengthText_decides n ..) (fun n => lengthText_decides n ..)
      (pattern_decides r.pattern s)).congr (not_congr ?_) (by simp)
    constructor
    · rintro ⟨hmin, hmax, hp⟩ _ ⟨⟩
      exact ⟨hmin, hmax, hp⟩
    · intro h
      have h := h r rfl
      exact ⟨h.shortest, h.longest, h.pattern⟩

theorem range_decides (x : Number) :
    Decides (range f x) (¬ ∀ r ∈ f.rules, r.FitsNumber x)
      (∃ r ∈ f.rules, ∃ n, Number.Breaks r.minimum r.maximum x n ∧ n.Unrounded) := by
  unfold range
  cases f.rules with
  | none => exact decides_accept (by simp) (by simp)
  | some r =>
    have rest : Decides accept (¬ True) False := decides_accept (by simp) id
    refine (bounds_decides (fun n => boundText_decides n ..) (fun n => boundText_decides n ..)
      rest).congr (not_congr ?_) (by simp)
    constructor
    · rintro ⟨hmin, hmax, -⟩ _ ⟨⟩
      exact ⟨hmin, hmax⟩
    · intro h
      have h := h r rfl
      exact ⟨h.least, h.most, trivial⟩

/-! ### Kinds -/

variable (key : String) (links : ResolvedLinks)

theorem text_decides : Decides (text f v key links)
    (¬ (v.Single ∧ ∀ r ∈ f.rules, r.FitsText (v.display .kept)))
    (v.Single ∧ (v.hasText = false ∨ ∃ r ∈ f.rules, ∃ n,
      Number.Breaks r.minLength r.maxLength (.int (v.display .kept).length) n ∧ n.Unwritten)) := by
  have single (hv : v.Single) : text f v key links = shown v >>= lengthAndPattern f := by
    cases hv <;> rfl
  rcases v.single_cases with hv | ⟨vs, rfl⟩ | ⟨es, rfl⟩
  · rw [single hv, shown]
    cases ht : v.hasText with
    | true =>
      rw [Value.written_of_hasText _ ht]
      exact (lengthAndPattern_decides _).congr (by simp [hv]) (by simp [hv])
    | false =>
      rw [Value.written_of_not_hasText _ ht]
      exact decides_error ⟨hv, .inl rfl⟩
  · exact decides_some (fun h => nomatch h.1) fun h => nomatch h.1
  · exact decides_some (fun h => nomatch h.1) fun h => nomatch h.1

theorem number_decides : Decides (number f v key links)
    (¬ ∃ x ∈ v.readNumber?, ∀ r ∈ f.rules, r.FitsNumber x)
    (∃ x ∈ v.readNumber?, ∃ r ∈ f.rules, ∃ n,
      Number.Breaks r.minimum r.maximum x n ∧ n.Unrounded) := by
  unfold number
  cases v.readNumber? with
  | none => exact decides_some (by simp) (by simp)
  | some x => exact (range_decides x).congr (by simp) (by simp)

theorem choices?_eq_some {cs : List Choice} :
    f.choices? = some cs ↔ f.options = some (.choices cs) := by
  unfold Field.choices? Options.choices?
  split <;> simp_all

theorem select_decides : Decides (select f v key links)
    (¬ ∀ cs, f.options = some (.choices cs) → ∃ c ∈ cs, c.value = v.display .kept)
    ((∃ cs, f.options = some (.choices cs)) ∧ v.hasText = false) := by
  simp only [← choices?_eq_some]
  unfold select shown
  cases f.choices? with
  | none => exact decides_accept (by simp) (by simp)
  | some cs =>
    cases ht : v.hasText with
    | true =>
      rw [Value.written_of_hasText _ ht]
      exact decides_if.congr (by simp [allows]) (by simp)
    | false =>
      rw [Value.written_of_not_hasText _ ht]
      exact decides_error ⟨⟨cs, rfl⟩, rfl⟩

theorem checkbox_decides : Decides (checkbox f v key links) (¬ v.Boxed) False := by
  refine decides_if.congr (not_congr ?_) .rfl
  constructor
  · intro h
    split at h
    · exact .bool _
    · exact .text (by simpa using h)
    · split at h
      · exact .number ‹_› (by simpa using h)
      · cases h
  · rintro (b | h | ⟨hv, hn⟩)
    · rfl
    · simpa using h
    · split <;> simp_all [Value.number?]

theorem file_decides :
    Decides (file f v key links) (¬ ((∃ s, v = .text s) ∨ ∃ es, v = .record es)) False := by
  unfold file
  split
  · exact decides_accept (by simp) id
  · exact decides_accept (by simp) id
  · rename_i htext hrecord
    refine decides_some ?_ id
    rintro (⟨s, rfl⟩ | ⟨es, rfl⟩)
    · exact htext s rfl
    · exact hrecord es rfl

theorem found_decides (number message : String) :
    Decides (match links.document? key with
      | some d => if d.number = .text number then accept else .ok (some message)
      | none => .ok (some message))
      (¬ ∃ d, links.document? key = some d ∧ d.number = .text number) False := by
  cases links.document? key with
  | none => exact decides_some (by simp) id
  | some d => exact decides_if.congr (by simp) .rfl

theorem link_decides : Decides (link f v key links)
    (¬ ∃ l ∈ LinkValue.ofValue? v, l.Vouched f.linkOptions.target key links) False := by
  unfold link
  cases LinkValue.ofValue? v with
  | none => exact decides_some (by simp) id
  | some l =>
    simp only [Option.mem_some_iff, exists_eq_left']
    split
    · rename_i hblank
      refine decides_some (fun h => ?_) id
      rw [Bool.or_eq_true, ← Value.blank_text_iff, ← Value.blank_text_iff] at hblank
      exact hblank.elim h.number h.type
    · rename_i hblank
      rw [Bool.or_eq_true, not_or, ← Value.blank_text_iff, ← Value.blank_text_iff] at hblank
      have found := found_decides key links (Text.trim l.documentNumber)
        ("Document '" ++ l.documentNumber ++ "' was not found")
      have vouched (h : ∀ t ∈ f.linkOptions.target, t ≠ "" → l.documentTypeId = t) :
          (∃ d, links.document? key = some d ∧ d.number = .text (Text.trim l.documentNumber)) ↔
            l.Vouched f.linkOptions.target key links :=
        ⟨fun hd => ⟨hblank.1, hblank.2, h, hd⟩, fun h => h.found⟩
      cases ht : f.linkOptions.target with
      | none => exact found.congr (not_congr (ht ▸ vouched (by simp [ht]))) .rfl
      | some t =>
        dsimp only
        split
        · rename_i haway
          simp only [Bool.and_eq_true, bne_iff_ne] at haway
          exact decides_some (fun h => haway.2 (h.target t rfl haway.1)) id
        · rename_i haway
          simp only [Bool.and_eq_true, bne_iff_ne, not_and, Decidable.not_not] at haway
          exact found.congr (not_congr (ht ▸ vouched (by simpa [ht] using haway))) .rfl

theorem standard_decides :
    Decides (Validators.standard f.kind f v key links) (¬ f.Admits v key links) (f.Unwritable v) := by
  unfold Field.Admits Field.Unwritable
  cases f.kind with
  | text => exact text_decides key links
  | textarea => exact text_decides key links
  | number => exact number_decides key links
  | date =>
    cases h : v.readDate? <;> simp only [Validators.standard, date, h] <;> exact decides_ok (by simp) id
  | datetime =>
    cases h : v.readMoment? <;> simp only [Validators.standard, moment, h] <;> exact decides_ok (by simp) id
  | select => exact select_decides key links
  | checkbox => exact checkbox_decides key links
  | file => exact file_decides key links
  | documentLink => exact link_decides key links

/-! ### Checks -/

theorem missing_isSome : (missing? f v).isSome = true ↔ f.Lacks v := by
  unfold missing? Field.Lacks
  rw [Value.ticked_iff, Value.blank_iff]
  cases f.required <;> by_cases hk : f.kind = .checkbox <;> simp [hk]

theorem field_decides : Decides (fieldProblem? .standard f v key links) (f.Fails v key links)
    (f.Stuck v) := by
  unfold fieldProblem? Field.Fails Field.Stuck
  cases f.problems with
  | cons p ps => exact decides_some (.inl (by simp)) fun h => nomatch h.1
  | nil =>
    rw [← missing_isSome, Value.blank_iff]
    cases missing? f v with
    | some m => exact decides_some (.inr (.inl rfl)) fun h => h.2.1 rfl
    | none =>
      cases v.isBlank with
      | true => exact decides_accept (by simp) (by simp)
      | false => exact (standard_decides key links).congr (by simp) (by simp)

variable {g : FieldGroup} {rows : Nat}

theorem countMessage_decides (verb : String) (bound : Int) :
    Decides (countMessage g verb bound rows) True (TooLong bound ∨ TooLong rows) := by
  unfold countMessage
  refine (decides_written (decides_written (decides_some trivial id))).congr .rfl ?_
  rw [or_false]
  exact or_congr Value.hasText_eq_false Value.hasText_eq_false

theorem count_decides : Decides (countProblem? g rows) (¬ g.Bears rows) (g.Uncounted rows) := by
  unfold countProblem? Group.rowBounds FieldGroup.Bears FieldGroup.Uncounted
  dsimp only
  split
  · rename_i hlow
    refine (countMessage_decides _ _).congr (iff_of_true trivial (by omega)) ⟨fun h => ?_, ?_⟩
    · exact ⟨_, h, .inl ⟨rfl, hlow⟩⟩
    · rintro ⟨b, h, ⟨rfl, -⟩ | ⟨hb, -⟩⟩
      · exact h
      · omega
  · rename_i hlow
    have hlow : g.minRows.getD 0 ≤ rows := by omega
    cases g.maxRows with
    | none => exact decides_accept (by simpa using hlow) (by simp; omega)
    | some m =>
      dsimp only
      split
      · rename_i hhigh
        refine (countMessage_decides _ _).congr (iff_of_true trivial fun h => ?_) ⟨fun h => ?_, ?_⟩
        · have hm := h.2 m rfl
          omega
        · exact ⟨m, h, .inr ⟨hlow, rfl, hhigh⟩⟩
        · rintro ⟨b, h, ⟨rfl, hb⟩ | ⟨-, ⟨⟩, -⟩⟩
          · omega
          · exact h
      · rename_i hhigh
        refine decides_accept (not_not_intro ⟨hlow, fun _ hm => ?_⟩) ?_
        · cases hm
          omega
        · rintro ⟨b, -, ⟨rfl, hb⟩ | ⟨-, ⟨⟩, hb⟩⟩ <;> omega

end Validation
end DocForms
