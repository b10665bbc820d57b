import DocForms.Calendar.Iso
import Mathlib.Data.List.Basic
import Mathlib.Tactic.IntervalCases
import Mathlib.Tactic.Ring

/-! Numbers in a fixed count of digits, and the octets of a text. What is written so is read back,
and a number that is read from a text stands there in the form in which it is written. -/
namespace DocForms.Iso

/-- The last `width` digits of a number. -/
def numeral : (width : Nat) → (n : Nat) → List Char
  | 0, _ => []
  | width + 1, n => Nat.digitChar (n / 10 ^ width % 10) :: numeral width n

variable {w n k d : Nat} {c : Char} {cs rest : List Char}

/-! ### Digits -/

theorem digit?_digitChar (h : d < 10) : digit? (Nat.digitChar d) = some d := by
  interval_cases d <;> rfl

theorem eq_digitChar (h : digit? c = some d) : d < 10 ∧ c = Nat.digitChar d := by
  unfold digit? at h
  split at h
  · rename_i hc
    obtain ⟨hlow, hhigh⟩ := hc
    have hlow : 48 ≤ c.toNat := hlow
    have hhigh : c.toNat ≤ 57 := hhigh
    obtain rfl := Option.some.inj h
    refine ⟨by omega, Char.toNat_inj.mp ?_⟩
    rw [Nat.toNat_digitChar_of_lt_ten (by omega)]
    omega
  · cases h

theorem numeral_add_mul (w d n : Nat) : numeral w (d * 10 ^ w + n) = numeral w n := by
  induction w generalizing d with
  | zero => rfl
  | succ w ih =>
    have hpow : d * 10 ^ (w + 1) = d * 10 * 10 ^ w := by ring
    have hdiv : (d * 10 * 10 ^ w + n) / 10 ^ w = n / 10 ^ w + d * 10 := by
      rw [Nat.add_comm, Nat.add_mul_div_right _ _ (Nat.pow_pos (by decide))]
    rw [numeral, numeral, hpow, ih, hdiv, Nat.add_mul_mod_self_right]

theorem numeral_concat (w n : Nat) :
    numeral (w + 1) n = numeral w (n / 10) ++ [Nat.digitChar (n % 10)] := by
  induction w with
  | zero => simp [numeral]
  | succ w ih =>
    have hdiv : n / 10 ^ (w + 1) = n / 10 / 10 ^ w := by
      rw [Nat.div_div_eq_div_mul, Nat.pow_succ']
    rw [numeral, ih, hdiv]
    rfl

/-- A number that fits into the width is written as its digits. -/
theorem padded_eq_numeral (hw : 0 < w) (h : n < 10 ^ w) : padded w n = numeral w n := by
  induction w, hw using Nat.le_induction generalizing n with
  | base =>
    have hn : n < 10 := h
    rw [padded, Nat.toDigits_of_lt_base hn, numeral, numeral, Nat.pow_zero, Nat.div_one,
      Nat.mod_eq_of_lt hn]
    rfl
  | succ w hw ih =>
    have hdiv : n / 10 < 10 ^ w := Nat.div_lt_of_lt_mul (by rwa [Nat.pow_succ'] at h)
    rw [numeral_concat, ← ih hdiv, padded, padded, Nat.toDigits_eq_if (by decide)]
    split
    · rename_i hn
      rw [Nat.div_eq_of_lt hn, Nat.mod_eq_of_lt hn]
      obtain ⟨v, rfl⟩ := Nat.exists_eq_succ_of_ne_zero (Nat.ne_of_gt hw)
      simp only [Nat.toDigits_of_lt_base (show 0 < 10 by decide), List.length_cons, List.length_nil,
        Nat.zero_add, Nat.succ_eq_add_one, Nat.add_sub_cancel]
      rw [List.replicate_succ']
      rfl
    · simp

theorem length_numeral (w n : Nat) : (numeral w n).length = w := by
  induction w with
  | zero => rfl
  | succ w ih => rw [numeral, List.length_cons, ih]

theorem numeral_cons (hd : d < 10) (hk : k < 10 ^ w) :
    numeral (w + 1) (d * 10 ^ w + k) = Nat.digitChar d :: numeral w k := by
  have hdiv : (d * 10 ^ w + k) / 10 ^ w = d := by
    rw [Nat.add_comm, Nat.add_mul_div_right _ _ (Nat.pow_pos (by decide)), Nat.div_eq_of_lt hk,
      Nat.zero_add]
  rw [numeral, numeral_add_mul, hdiv, Nat.mod_eq_of_lt hd]

theorem leading_lt (hd : d < 10) (hk : k < 10 ^ w) : d * 10 ^ w + k < 10 ^ (w + 1) :=
  calc d * 10 ^ w + k
    _ < (d + 1) * 10 ^ w := by
      rw [Nat.succ_mul]
      exact Nat.add_lt_add_left hk _
    _ ≤ 10 * 10 ^ w := Nat.mul_le_mul_right _ hd
    _ = 10 ^ (w + 1) := Nat.pow_succ'.symm

theorem exists_leading (h : n < 10 ^ (w + 1)) : ∃ d < 10, ∃ k < 10 ^ w, n = d * 10 ^ w + k :=
  ⟨n / 10 ^ w, Nat.div_lt_of_lt_mul (by rwa [← Nat.pow_succ]), n % 10 ^ w,
    Nat.mod_lt _ (Nat.pow_pos (by decide)), (Nat.div_add_mod' ..).symm⟩

/-- A number is read just where its digits stand. -/
theorem number?_eq_some_iff {a : Nat} : number? w a cs = some (n, rest) ↔
    ∃ k < 10 ^ w, n = a * 10 ^ w + k ∧ cs = numeral w k ++ rest := by
  induction w generalizing a cs with
  | zero =>
    rw [number?, Option.some_inj, Prod.mk.injEq]
    constructor
    · rintro ⟨rfl, rfl⟩
      exact ⟨0, by decide, by simp, rfl⟩
    · rintro ⟨k, hk, rfl, rfl⟩
      obtain rfl : k = 0 := Nat.lt_one_iff.mp hk
      simp
  | succ w ih =>
    cases cs with
    | nil => simp [number?, numeral]
    | cons c cs =>
      simp only [number?, Option.bind_eq_some_iff, ih]
      constructor
      · rintro ⟨d, hdigit, k, hk, rfl, rfl⟩
        obtain ⟨hd, rfl⟩ := eq_digitChar hdigit
        refine ⟨d * 10 ^ w + k, leading_lt hd hk, by ring, ?_⟩
        rw [numeral_cons hd hk]
        rfl
      · rintro ⟨n, hn, rfl, hcs⟩
        obtain ⟨d, hd, k, hk, rfl⟩ := exists_leading hn
        rw [numeral_cons hd hk] at hcs
        obtain ⟨rfl, rfl⟩ := List.cons.inj hcs
        exact ⟨d, digit?_digitChar hd, k, hk, by ring, rfl⟩

/-- What is read as a number is that number as it is written. -/
theorem number?_iff (hw : 0 < w) :
    number? w 0 cs = some (n, rest) ↔ n < 10 ^ w ∧ cs = padded w n ++ rest := by
  rw [number?_eq_some_iff]
  constructor
  · rintro ⟨k, hk, rfl, rfl⟩
    rw [Nat.zero_mul, Nat.zero_add]
    exact ⟨hk, by rw [padded_eq_numeral hw hk]⟩
  · rintro ⟨hn, rfl⟩
    exact ⟨n, hn, by simp, by rw [padded_eq_numeral hw hn]⟩

theorem number?_padded (hw : 0 < w) (h : n < 10 ^ w) (rest : List Char) :
    number? w 0 (padded w n ++ rest) = some (n, rest) :=
  (number?_iff hw).mpr ⟨h, rfl⟩

theorem length_padded (hw : 0 < w) (h : n < 10 ^ w) : (padded w n).length = w := by
  rw [padded_eq_numeral hw h, length_numeral]

/-- Every character of a number that is written is a digit. -/
theorem mem_padded (h : c ∈ padded w n) : ∃ d < 10, c = Nat.digitChar d := by
  rw [padded, List.mem_append, List.mem_replicate] at h
  rcases h with ⟨-, rfl⟩ | h
  · exact ⟨0, by decide, rfl⟩
  · have hdigit := Nat.isDigit_of_mem_toDigits (by decide) (by decide) h
    rw [Char.isDigit, Bool.and_eq_true, decide_eq_true_eq, decide_eq_true_eq] at hdigit
    exact ⟨_, eq_digitChar (if_pos hdigit)⟩

/-- What stands between the numbers of days and moments. -/
def marks : List Char := ['T', '-', '+', ':', '.', '/']

/-- The characters of days and moments. -/
def Written (c : Char) : Prop := c ∈ marks ∨ ∃ d < 10, c = Nat.digitChar d

theorem written_padded (h : c ∈ padded w n) : Written c := .inr (mem_padded h)

/-- Three numbers with marks between them. -/
theorem written_joined {m : Char} (hm : m ∈ marks) {u v x y z : Nat}
    (h : c ∈ padded u x ++ m :: padded v y ++ m :: padded w z) : Written c := by
  simp only [List.mem_append, List.mem_cons] at h
  rcases h with (h | rfl | h) | rfl | h
  · exact written_padded h
  · exact .inl hm
  · exact written_padded h
  · exact .inl hm
  · exact written_padded h

theorem Written.ascii (h : Written c) : c.toNat < 128 := by
  have hmarks : (marks.all fun c => decide (c.toNat < 128)) = true := by decide
  rcases h with h | ⟨d, hd, rfl⟩
  · exact decide_eq_true_eq.mp (List.all_eq_true.mp hmarks c h)
  · rw [Nat.toNat_digitChar_of_lt_ten hd]
    omega

theorem padded_eq_cons (hw : 0 < w) (h : n < 10 ^ w) :
    ∃ d < 10, ∃ cs, padded w n = Nat.digitChar d :: cs := by
  cases hp : padded w n with
  | nil =>
    rw [← length_padded hw h, hp] at hw
    cases hw
  | cons c cs =>
    obtain ⟨d, hd, rfl⟩ := mem_padded (hp ▸ List.mem_cons_self)
    exact ⟨d, hd, cs, rfl⟩

theorem peek_eq_iff (h : c ≠ '\x00') : peek cs = c ↔ ∃ rest, cs = c :: rest := by
  cases cs with
  | nil => simp [peek, h.symm]
  | cons d cs => simp [peek]

/-! ### Octets -/

/-- The octets of a character, each as the character with its number. -/
def charOctets (c : Char) : List Char :=
  (String.utf8EncodeChar c).map fun b => Char.ofNat b.toNat

theorem byteArray_loop (bs : ByteArray) (i : Nat) (read : List UInt8) :
    ByteArray.toList.loop bs i read = read.reverse ++ bs.data.toList.drop i := by
  fun_induction ByteArray.toList.loop bs i read with
  | case1 i read h ih =>
    have hi : i < bs.data.toList.length := h
    have hget : bs.get! i = bs.data.toList[i] := getElem!_pos bs.data i h
    rw [ih, hget, List.reverse_cons, List.append_assoc, List.singleton_append,
      ← List.drop_eq_getElem_cons]
  | case2 i read h => rw [List.drop_of_length_le (Nat.le_of_not_lt h), List.append_nil]

theorem byteArray_toList (bs : ByteArray) : bs.toList = bs.data.toList :=
  byteArray_loop bs 0 []

/-- The octets of a text are those of its characters. -/
theorem octets_ofList (cs : List Char) : octets (String.ofList cs) = cs.flatMap charOctets := by
  have hbytes : (String.ofList cs).toUTF8 = (cs.flatMap String.utf8EncodeChar).toByteArray := rfl
  rw [octets, hbytes, byteArray_toList, List.toList_data_toByteArray, List.map_flatMap]
  rfl

theorem toNat_ofNat {n : Nat} (h : n < 256) : (Char.ofNat n).toNat = n := by
  rw [Char.ofNat, dif_pos (.inl (by omega))]
  rfl

theorem charOctets_ascii (h : c.toNat < 128) : charOctets c = [c] := by
  have hval : c.val.toNat ≤ 127 := Nat.le_of_lt_succ h
  have hmod : c.val.toNat % 256 = c.toNat := Nat.mod_eq_of_lt (Nat.lt_trans h (by decide))
  rw [charOctets, String.utf8EncodeChar, if_pos hval]
  simp only [List.map_cons, List.map_nil, UInt8.toNat_ofNat', List.cons.injEq, and_true]
  exact (congrArg Char.ofNat hmod).trans (Char.ofNat_toNat c)

/-- Other characters begin with an octet that is no ASCII character either. -/
theorem charOctets_wide (h : ¬ c.toNat < 128) :
    ∃ o os, charOctets c = o :: os ∧ ¬ o.toNat < 128 := by
  have hval : ¬ c.val.toNat ≤ 127 := fun hle => h (Nat.lt_succ_of_le hle)
  have first (n : Nat) (hn : 128 ≤ n % 2 ^ 8) :
      ¬ (Char.ofNat (UInt8.ofNat n).toNat).toNat < 128 := by
    rw [UInt8.toNat_ofNat', toNat_ofNat (Nat.mod_lt _ (by decide))]
    exact Nat.not_lt.mpr hn
  rw [charOctets, String.utf8EncodeChar, if_neg hval]
  split
  · exact ⟨_, _, rfl, first _ (by omega)⟩
  · split
    · exact ⟨_, _, rfl, first _ (by omega)⟩
    · exact ⟨_, _, rfl, first _ (by omega)⟩

theorem octets_ascii (h : ∀ c ∈ cs, c.toNat < 128) : octets (String.ofList cs) = cs := by
  rw [octets_ofList]
  induction cs with
  | nil => rfl
  | cons c cs ih =>
    rw [List.flatMap_cons, charOctets_ascii (h c List.mem_cons_self),
      ih fun d hd => h d (List.mem_cons_of_mem c hd)]
    rfl

/-- An octet that is an ASCII character stands for this character. -/
theorem flatMap_charOctets_cons {o : Char} {os : List Char} (ho : o.toNat < 128)
    (h : cs.flatMap charOctets = o :: os) : ∃ cs', cs = o :: cs' ∧ cs'.flatMap charOctets = os := by
  cases cs with
  | nil => cases h
  | cons c cs =>
    rw [List.flatMap_cons] at h
    by_cases hc : c.toNat < 128
    · rw [charOctets_ascii hc] at h
      obtain ⟨rfl, rfl⟩ := List.cons.inj h
      exact ⟨cs, rfl, rfl⟩
    · obtain ⟨o', os', heq, hwide⟩ := charOctets_wide hc
      rw [heq] at h
      obtain ⟨rfl, -⟩ := List.cons.inj h
      exact absurd ho hwide

theorem flatMap_charOctets_append {os os' : List Char} (hos : ∀ o ∈ os, o.toNat < 128)
    (h : cs.flatMap charOctets = os ++ os') :
    ∃ cs', cs = os ++ cs' ∧ cs'.flatMap charOctets = os' := by
  induction os generalizing cs with
  | nil => exact ⟨cs, rfl, h⟩
  | cons o os ih =>
    rw [List.cons_append] at h
    obtain ⟨cs, rfl, htail⟩ := flatMap_charOctets_cons (hos o List.mem_cons_self) h
    obtain ⟨cs', rfl, hrest⟩ := ih (fun d hd => hos d (List.mem_cons_of_mem o hd)) htail
    exact ⟨cs', rfl, hrest⟩

end DocForms.Iso
