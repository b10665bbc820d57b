import DocForms.Text.Tables

/-! Character classes and case of Unicode text: white space, decimal digits, word characters,
printable characters, and the characters that match each other when case is ignored. -/
namespace DocForms.Text

/-- Whether one of the closed intervals holds the character. -/
def covers (spans : List (Nat × Nat)) (c : Char) : Bool :=
  spans.any fun s => decide (s.1 ≤ c.toNat) && decide (c.toNat ≤ s.2)

/-- The code point that a character stands for. A text can hold single surrogates, which are no
characters: the last 2048 private characters stand for them. -/
def code (c : Char) : Nat :=
  if 0x10f800 ≤ c.toNat then c.toNat - 0x10f800 + 0xd800 else c.toNat

/-- The character that stands for a code point. -/
def ofCode (n : Nat) : Char :=
  Char.ofNat (if 0xd800 ≤ n ∧ n < 0xe000 then n - 0xd800 + 0x10f800 else n)

/-- The code point of a character is its number, unless it stands for a surrogate. -/
theorem code_cases (c : Char) : code c = c.toNat ∨ 0xd800 ≤ code c ∧ 0xd800 ≤ c.toNat := by
  unfold code
  split <;> omega

/-- Different code points are different characters, single surrogates among them. -/
theorem code_ofCode {n : Nat} (h : n < 0x10f800) : code (ofCode n) = n := by
  have toNat {m : Nat} (hm : m.isValidChar) : (Char.ofNat m).toNat = m := by
    rw [Char.ofNat, dif_pos hm]
    rfl
  unfold ofCode code
  split
  · rw [toNat (.inr (by omega)), if_pos (by omega)]
    omega
  · rw [toNat (by unfold Nat.isValidChar; omega), if_neg (by omega)]

/-- White space in the sense of trimming and of the `\s` class. -/
def isBlank (c : Char) : Bool := covers blankSpans c

/-- The value of a decimal digit of any script. -/
def digitValue? (c : Char) : Option Nat :=
  (digitSpans.find? fun s => decide (s.1 ≤ c.toNat) && decide (c.toNat ≤ s.2)).map
    fun s => (c.toNat - s.1) % 10

/-- Decimal digits of any script. -/
def isDigit (c : Char) : Bool := covers digitSpans c

/-- Letters, numbers and the underscore. -/
def isWord (c : Char) : Bool := c == '_' || covers alnumSpans c

/-- Characters that a quoted text shows as themselves. -/
def isPrintable (c : Char) : Bool := !covers unprintableSpans c

/-- The simple lower-case form of a character. -/
def lower (c : Char) : Char :=
  match lowerRuns.find? fun r =>
      decide (r.1 ≤ c.toNat) && decide (c.toNat ≤ r.2.1) && (c.toNat - r.1) % r.2.2.1 == 0 with
  | some r => Char.ofNat (c.toNat + r.2.2.2).toNat
  | none => c

/-- The code points whose lower-case form is `n`. -/
private def raisedForms (n : Nat) : List Nat :=
  lowerRuns.filterMap fun r =>
    let m := ((n : Int) - r.2.2.2).toNat
    if decide (r.1 ≤ m) && decide (m ≤ r.2.1) && (m - r.1) % r.2.2.1 == 0 then some m else none

/-- Every character that matches `c` when case is ignored, `c` itself among them. -/
def caseVariants (c : Char) : List Char :=
  let base := (lower c).toNat
  let kin := base :: (caseKin.filter (·.1 == base)).map (·.2)
  c :: (kin.flatMap fun n => n :: raisedForms n).map Char.ofNat

/-- The characters without those at both ends that are to be taken off. -/
def trimEnds (off : Char → Bool) (cs : List Char) : List Char :=
  ((cs.dropWhile off).reverse.dropWhile off).reverse

/-- The characters without the white space at both ends. -/
def trimChars (cs : List Char) : List Char := trimEnds isBlank cs

/-- The text without the white space at both ends. -/
def trim (s : String) : String := String.ofList (trimChars s.toList)

/-- Texts that are empty once trimmed. -/
def isBlankText (s : String) : Bool := s.toList.all isBlank

end DocForms.Text
