import DocForms.Definition.Format
import DocForms.Schema.Name
import Mathlib.Logic.Relation

/-! Texts in which the patterns of names and of codes occur. What a repetition finds has been reached
by rounds of its body, so the patterns occur in nothing but names and codes, after which there may be
a line break; that of names occurs in all of them. -/
namespace DocForms.Pattern
open Relation (ReflTransGen TransGen)

section Rounds
variable {body : Outcome → List Outcome} {o e : Outcome} {os : List Outcome}

/-- One round of a body leads from an outcome to another. -/
def Round (body : Outcome → List Outcome) (o e : Outcome) : Prop := e ∈ body o

theorem mem_distinct : o ∈ distinct os ↔ o ∈ os := List.mem_eraseDups

/-- What a given number of rounds comes to has been reached, by some round if the number is not
zero. -/
theorem reached_of_rounds {n : Nat} (h : e ∈ rounds body n os) :
    ∃ o ∈ os, ReflTransGen (Round body) o e ∧ (0 < n → TransGen (Round body) o e) := by
  induction n generalizing os with
  | zero => exact ⟨e, h, .refl, nofun⟩
  | succ n ih =>
    have next {m : Outcome} (hm : m ∈ distinct (os.flatMap body)) : ∃ o ∈ os, Round body o m :=
      List.mem_flatMap.mp (mem_distinct.mp hm)
    rw [rounds] at h
    split at h
    · obtain ⟨o, ho, hround⟩ := next h
      exact ⟨o, ho, .single hround, fun _ => .single hround⟩
    · obtain ⟨m, hm, hreached, -⟩ := ih h
      obtain ⟨o, ho, hround⟩ := next hm
      exact ⟨o, ho, .head hround hreached, fun _ => .head' hround hreached⟩

/-- What an exploration finds has been reached from where it set out. -/
theorem reached_of_explore {greed : Greed} {fuel : Nat} {most last : Option Nat} {t : Trail}
    (h : e ∈ (explore body greed fuel most last t o).found) :
    e ∈ t.found ∨ ReflTransGen (Round body) o e := by
  induction fuel generalizing most last t o with
  | zero =>
    rcases List.mem_cons.mp h with rfl | h
    · exact .inr .refl
    · exact .inl h
  | succ fuel ih =>
    -- the rounds that follow are those of all outcomes of one round
    have hdeeper (nexts : List Outcome) (hnexts : ∀ n ∈ nexts, Round body o n) (most' : Option Nat)
        (t : Trail) (h : e ∈ (nexts.foldl (fun t n =>
          explore body greed fuel most' (some o.position) t n) t).found) :
        e ∈ t.found ∨ ReflTransGen (Round body) o e := by
      induction nexts generalizing t with
      | nil => exact .inl h
      | cons n nexts ihs =>
        obtain ⟨hn, hnexts⟩ := List.forall_mem_cons.mp hnexts
        rcases ihs hnexts _ h with h | h
        · rcases ih h with h | h
          · exact .inl h
          · exact .inr (.head hn h)
        · exact .inr h
    have hall (t : Trail) (h : e ∈ (if most == some 0 || last == some o.position then t
        else (body o).foldl (fun t next =>
          explore body greed fuel (most.map (· - 1)) (some o.position) t next) t).found) :
        e ∈ t.found ∨ ReflTransGen (Round body) o e := by
      split at h
      · exact .inl h
      · exact hdeeper (body o) (fun _ hn => hn) _ t h
    rw [explore] at h
    split at h
    · exact .inl h
    · dsimp only at h
      split at h
      · rcases hall _ h with h | h
        · rcases List.mem_cons.mp h with rfl | h
          · exact .inr .refl
          · exact .inl h
        · exact .inr h
      · rcases List.mem_cons.mp h with rfl | h
        · exact .inr .refl
        · exact (hall _ h).imp_left id

/-- What a repetition comes to has been reached by rounds of its body. -/
theorem reached_of_repeat {size least : Nat} {greed : Greed} {most : Option Nat}
    (h : e ∈ repeatFrom size body greed least most o) :
    ReflTransGen (Round body) o e ∧ (0 < least → TransGen (Round body) o e) := by
  have hfound (starts : List Outcome) (t : Trail)
      (h : e ∈ (starts.foldl (fun t s =>
        explore body greed (size + 2) (most.map (· - least)) none t s) t).found) :
      e ∈ t.found ∨ ∃ s ∈ starts, ReflTransGen (Round body) s e := by
    induction starts generalizing t with
    | nil => exact .inl h
    | cons s starts ih =>
      rcases ih _ h with h | ⟨s', hs', h⟩
      · rcases reached_of_explore h with h | h
        · exact .inl h
        · exact .inr ⟨s, List.mem_cons_self .., h⟩
      · exact .inr ⟨s', List.mem_cons_of_mem _ hs', h⟩
  have hmem : e ∈ distinct (((rounds body least [o]).foldl (fun t s =>
      explore body greed (size + 2) (most.map (· - least)) none t s) {}).found.reverse) := by
    unfold repeatFrom at h
    dsimp only at h
    split at h
    · exact List.mem_of_mem_take h
    · exact h
  rcases hfound _ _ (List.mem_reverse.mp (mem_distinct.mp hmem)) with hnone | ⟨s, hs, hmore⟩
  · cases hnone
  · obtain ⟨o', ho', hfirst, hsome⟩ := reached_of_rounds hs
    obtain rfl := List.mem_singleton.mp ho'
    exact ⟨hfirst.trans hmore, fun hleast => (hsome hleast).trans_left hmore⟩

end Rounds

section Runs
variable {text : Array Char} {ok : Char → Bool} {o e : Outcome}

theorem mem_oneChar : e ∈ oneChar text ok o ↔
    (∃ c, text[o.position]? = some c ∧ ok c = true) ∧ e = { o with position := o.position + 1 } := by
  unfold oneChar
  cases text[o.position]? with
  | none => simp
  | some c => cases hc : ok c <;> simp [hc]

/-- From one position to another the text has characters with a property only. -/
structure Run (text : Array Char) (ok : Char → Bool) (i j : Nat) : Prop where
  le : i ≤ j
  all : ∀ k, i ≤ k → k < j → ∃ c, text[k]? = some c ∧ ok c = true

theorem Run.refl (i : Nat) : Run text ok i i := ⟨Nat.le_refl i, fun k hi hj => by omega⟩

theorem Run.snoc {i j : Nat} {c : Char} (h : Run text ok i j) (hc : text[j]? = some c)
    (hok : ok c = true) : Run text ok i (j + 1) where
  le := Nat.le_succ_of_le h.le
  all k hi hk := by
    rcases Nat.lt_or_eq_of_le (Nat.le_of_lt_succ hk) with hlt | rfl
    · exact h.all k hi hlt
    · exact ⟨c, hc, hok⟩

/-- Rounds over one character go through a run. -/
theorem run_of_reached (h : ReflTransGen (Round (oneChar text ok)) o e) :
    Run text ok o.position e.position := by
  induction h with
  | refl => exact .refl _
  | tail _ hround ih =>
    obtain ⟨⟨c, hc, hok⟩, rfl⟩ := mem_oneChar.mp hround
    exact ih.snoc hc hok

theorem lt_of_reached (h : TransGen (Round (oneChar text ok)) o e) : o.position < e.position := by
  obtain ⟨m, hround, hmore⟩ := TransGen.head'_iff.mp h
  obtain ⟨-, rfl⟩ := mem_oneChar.mp hround
  exact Nat.lt_of_succ_le (run_of_reached hmore).le

/-- The characters of a run are those between its ends. -/
theorem Run.slice {cs : List Char} {i j : Nat} (h : Run cs.toArray ok i j) :
    ((cs.take j).drop i).all ok = true := by
  refine List.all_eq_true.mpr fun c hc => ?_
  obtain ⟨k, hk, rfl⟩ := List.mem_drop_iff_getElem.mp hc
  rw [List.length_take] at hk
  obtain ⟨c', hc', hok⟩ := h.all (i + k) (by omega) (by omega)
  rw [List.getElem?_toArray, List.getElem?_eq_getElem (by omega)] at hc'
  rw [List.getElem_take]
  exact Option.some.inj hc' ▸ hok

/-- A part of a text that has characters with a property only is a run. -/
theorem run_of_append {cs ds : List Char} (before after : List Char) (hs : cs = before ++ ds ++ after)
    (h : ds.all ok = true) : Run cs.toArray ok before.length (before.length + ds.length) where
  le := Nat.le_add_right ..
  all k hi hk := by
    have hget : cs[k]? = ds[k - before.length]? := by
      rw [hs, List.append_assoc, List.getElem?_append_right hi, List.getElem?_append_left (by omega)]
    have hlt : k - before.length < ds.length := by omega
    refine ⟨ds[k - before.length], ?_, List.all_eq_true.mp h _ (List.getElem_mem hlt)⟩
    rw [List.getElem?_toArray, hget, List.getElem?_eq_getElem hlt]

/-- A greedy exploration over one character finds the end of every run. -/
theorem found_of_run {fuel j : Nat} {last : Option Nat} {t : Trail} (h : Run text ok o.position j)
    (hfuel : j < o.position + fuel) (hlast : last ≠ some o.position)
    (hseen : ∀ e ∈ t.seen, e.2.position < o.position) :
    { o with position := j } ∈ (explore (oneChar text ok) .greedy fuel none last t o).found := by
  induction fuel generalizing o last t with
  | zero => exact absurd h.le (by omega)
  | succ fuel ih =>
    have hnew : ¬ t.seen.contains (none, o) = true := by
      rw [List.contains_iff_mem]
      exact fun hmem => Nat.lt_irrefl _ (hseen _ hmem)
    rw [explore, if_neg hnew]
    dsimp only
    rcases Nat.eq_or_lt_of_le h.le with rfl | hlt
    · exact List.mem_cons_self ..
    · obtain ⟨c, hc, hok⟩ := h.all o.position (Nat.le_refl _) hlt
      have hround : oneChar text ok o = [{ o with position := o.position + 1 }] := by
        simp [oneChar, hc, hok]
      refine List.mem_cons_of_mem _ ?_
      rw [if_neg (by simp [hlast]), hround, List.foldl_cons, List.foldl_nil]
      -- what has been seen stays behind, so the next round is a new one
      refine ih (o := { o with position := o.position + 1 }) ?_ ?_ ?_ ?_
      · exact ⟨hlt, fun k hi hk => h.all k (Nat.le_of_succ_le hi) hk⟩
      · dsimp only
        omega
      · simp
      · refine List.forall_mem_cons.mpr ⟨Nat.lt_succ_self _, fun e he => ?_⟩
        exact Nat.lt_succ_of_lt (hseen e he)

/-- A greedy repetition of one character comes to the end of every run. -/
theorem mem_repeat_of_run {j : Nat} (h : Run text ok o.position j) (hj : j ≤ text.size) :
    { o with position := j } ∈ repeatFrom text.size (oneChar text ok) .greedy 0 none o := by
  have hfound : { o with position := j } ∈
      (explore (oneChar text ok) .greedy (text.size + 2) none none {} o).found :=
    found_of_run h (by omega) (by simp) (by simp)
  simpa [repeatFrom, rounds, mem_distinct] using hfound

end Runs

/-! ### Nodes -/

section Nodes
variable {text : Array Char} {tracked : List Nat} {o e : Outcome}

theorem mem_sequence {a b : Node} : e ∈ (Node.sequence a b).outcomes text tracked o ↔
    ∃ m ∈ a.outcomes text tracked o, e ∈ b.outcomes text tracked m := by
  rw [Node.outcomes, mem_distinct, List.mem_flatMap]

theorem mem_anchor {a : Anchor} : e ∈ (Node.anchor a).outcomes text tracked o ↔
    a.holds text o.position = true ∧ e = o := by
  rw [Node.outcomes]
  split <;> simp_all

theorem outcomes_set {ms : List Member} : (Node.set false ms .exact).outcomes text tracked =
    oneChar text fun c => ms.any (·.holds c [Text.code c]) := by
  funext o
  simp [Node.outcomes, variants]

theorem occursIn_iff {p : Pattern} {s : String} : p.occursIn s = true ↔ ∃ i ≤ s.toList.length,
    ∃ e, e ∈ p.node.outcomes s.toList.toArray p.node.asked ⟨i, []⟩ := by
  rw [occursIn, Node.search, List.any_eq_true]
  refine exists_congr fun i => and_congr ?_ ?_
  · rw [List.mem_range, List.size_toArray, Nat.lt_succ_iff]
  · rw [Bool.not_eq_true', List.isEmpty_eq_false_iff_exists_mem]

theorem start_of_holds {i : Nat} (h : (Anchor.start false).holds text i = true) : i = 0 := by
  simpa [Anchor.holds] using h

/-- After the end of the last line there is nothing but perhaps a line break. -/
theorem drop_of_finish {cs : List Char} {i : Nat}
    (h : (Anchor.finish false).holds cs.toArray i = true) :
    cs.drop i = [] ∨ cs.drop i = ['\n'] := by
  simp only [Anchor.holds, List.size_toArray, List.getElem?_toArray, Bool.false_or, Bool.or_eq_true,
    Bool.and_eq_true, beq_iff_eq] at h
  rcases h with rfl | ⟨hbreak, hlast⟩
  · exact .inl List.drop_length
  · obtain ⟨hi, hget⟩ := List.getElem?_eq_some_iff.mp hbreak
    refine .inr ?_
    rw [List.drop_eq_getElem_cons hi, hget, List.drop_of_length_le (by omega)]

theorem finish_holds {cs tail : List Char} (htail : tail = [] ∨ tail = ['\n']) :
    (Anchor.finish false).holds (cs ++ tail).toArray cs.length = true := by
  rcases htail with rfl | rfl <;> simp [Anchor.holds]

end Nodes

/-! ### Lines -/

/-- A text that consists of certain characters, after which there may be a line break. -/
def Line (s : String) (ok : List Char → Prop) : Prop :=
  ∃ cs tail, s.toList = cs ++ tail ∧ ok cs ∧ (tail = [] ∨ tail = ['\n'])

theorem line_of_take {s : String} {ok : List Char → Prop} {i : Nat}
    (hfinish : (Anchor.finish false).holds s.toList.toArray i = true)
    (hok : ok (s.toList.take i)) : Line s ok :=
  ⟨_, _, (List.take_append_drop i s.toList).symm, hok, drop_of_finish hfinish⟩

/-- What follows the beginning of the text, up to the end of its last line. -/
theorem line_of_occurs {p : Pattern} {n : Node} {s : String} (h : p.occursIn s = true)
    (hp : p.node = .sequence (.anchor (.start false)) n) :
    ∃ tracked e, e ∈ n.outcomes s.toList.toArray tracked ⟨0, []⟩ := by
  obtain ⟨i, -, e, he⟩ := occursIn_iff.mp h
  rw [hp] at he
  obtain ⟨o, hstart, he⟩ := mem_sequence.mp he
  obtain ⟨hholds, rfl⟩ := mem_anchor.mp hstart
  obtain rfl : i = 0 := start_of_holds hholds
  exact ⟨_, e, he⟩

theorem isBlank_of_visible {c : Char} (hlow : 32 < c.toNat) (hhigh : c.toNat < 127) :
    Text.isBlank c = false := by
  simp [Text.isBlank, Text.covers, Text.blankSpans]
  omega

/-- Trimming takes nothing but the line break from a line without white space. -/
theorem trim_of_line {s : String} {cs tail : List Char} (hs : s.toList = cs ++ tail)
    (hcs : ∀ c ∈ cs, Text.isBlank c = false) (htail : tail = [] ∨ tail = ['\n']) :
    Text.trim s = String.ofList cs := by
  have hblank : ∀ c ∈ tail, Text.isBlank c = true := by
    rcases htail with rfl | rfl
    · simp
    · simpa using by decide
  have stays {ds : List Char} (hds : ∀ c ∈ ds, Text.isBlank c = false) :
      ds.dropWhile Text.isBlank = ds := by
    cases ds with
    | nil => rfl
    | cons d ds => rw [List.dropWhile_cons_of_neg (by simp [hds d (List.mem_cons_self ..)])]
  rw [Text.trim, Text.trimChars, Text.trimEnds, hs]
  congr 1
  cases cs with
  | nil => rcases htail with rfl | rfl <;> decide
  | cons c cs =>
    rw [List.cons_append, List.dropWhile_cons_of_neg (by simp [hcs c (List.mem_cons_self ..)]),
      ← List.cons_append, List.reverse_append,
      List.dropWhile_append_of_pos (by simpa using hblank),
      stays (fun d hd => hcs d (List.mem_reverse.mp hd)), List.reverse_reverse]

/-! ### Codes -/

/-- The members of a code. -/
private def codeMembers : List Member := [.range 65 90, .range 48 57, .range 95 95, .range 45 45]

theorem toNat_eq_iff {c d : Char} : c.toNat = d.toNat ↔ c = d :=
  ⟨fun h => Char.toNat_inj.mp h, congrArg Char.toNat⟩

theorem code_holds (c : Char) : codeMembers.any (·.holds c [Text.code c]) = isCodeChar c := by
  have hunder : c = '_' ↔ c.toNat = 95 := toNat_eq_iff.symm
  have hhyphen : c = '-' ↔ c.toNat = 45 := toNat_eq_iff.symm
  have hupper : c.isUpper = true ↔ 65 ≤ c.toNat ∧ c.toNat ≤ 90 := decide_eq_true_iff
  have hcode := Text.code_cases c
  rw [Bool.eq_iff_iff]
  simp [codeMembers, Member.holds, isCodeChar, Char.isDigit, hunder, hhyphen, hupper,
    UInt32.le_iff_toNat_le, Char.toNat_val]
  omega

theorem code_of_occurs {s : String} (h : Definition.codePattern.occursIn s = true) :
    Line s fun cs => cs ≠ [] ∧ cs.all isCodeChar = true := by
  obtain ⟨tracked, e, he⟩ := line_of_occurs (n := .sequence (.repetition .greedy 1 none
    (.set false codeMembers .exact)) (.anchor (.finish false))) h rfl
  obtain ⟨o, hrepeat, he⟩ := mem_sequence.mp he
  obtain ⟨hfinish, -⟩ := mem_anchor.mp he
  rw [Node.outcomes, outcomes_set] at hrepeat
  obtain ⟨hreached, hsome⟩ := reached_of_repeat hrepeat
  simp only [code_holds] at hreached hsome
  have hrun := run_of_reached hreached
  refine line_of_take hfinish ⟨?_, hrun.slice⟩
  have hlt := lt_of_reached (hsome Nat.one_pos)
  obtain ⟨c, hc, -⟩ := hrun.all 0 (Nat.le_refl 0) hlt
  intro hnil
  rcases List.take_eq_nil_iff.mp hnil with hzero | hnone
  · exact absurd hlt (by simp [hzero])
  · simp [hnone] at hc

theorem ne_blank_of_codeChar {c : Char} (h : isCodeChar c = true) : Text.isBlank c = false := by
  have hcode := Text.code_cases c
  rw [← code_holds] at h
  simp [codeMembers, Member.holds] at h
  exact isBlank_of_visible (by omega) (by omega)

/-- What the pattern of codes occurs in is a code, once it is trimmed. -/
theorem isCode_trim {s : String} (h : Definition.codePattern.occursIn s = true) :
    isCode (Text.trim s) = true := by
  obtain ⟨cs, tail, hs, ⟨hsome, hall⟩, htail⟩ := code_of_occurs h
  have hblank : ∀ c ∈ cs, Text.isBlank c = false := fun c hc =>
    ne_blank_of_codeChar (List.all_eq_true.mp hall c hc)
  rw [trim_of_line hs hblank htail, isCode, String.toList_ofList, hall, Bool.and_true, bne_iff_ne]
  intro hempty
  exact hsome (by simpa using congrArg String.toList hempty)

/-! ### Names -/

/-- The members of a name after its first letter. -/
private def nameMembers : List Member := [.range 97 122, .range 48 57, .range 95 95]

theorem letter_holds (c : Char) :
    [Member.range 97 122].any (·.holds c [Text.code c]) = isLowerLetter c := by
  have hcode := Text.code_cases c
  rw [Bool.eq_iff_iff]
  simp [Member.holds, isLowerLetter, Char.le_def, UInt32.le_iff_toNat_le, Char.toNat_val]
  omega

theorem name_holds (c : Char) : nameMembers.any (·.holds c [Text.code c]) = isNameChar c := by
  have hunder : c = '_' ↔ c.toNat = 95 := toNat_eq_iff.symm
  have hcode := Text.code_cases c
  rw [Bool.eq_iff_iff]
  simp [nameMembers, Member.holds, isNameChar, isLowerLetter, Char.isDigit, hunder, Char.le_def,
    UInt32.le_iff_toNat_le, Char.toNat_val]
  omega

theorem name_of_occurs {s : String} (h : Definition.namePattern.occursIn s = true) :
    Line s fun cs => ∃ c more, cs = c :: more ∧ isLowerLetter c = true ∧
      more.all isNameChar = true := by
  obtain ⟨tracked, e, he⟩ := line_of_occurs (n := .sequence (.set false [.range 97 122] .exact)
    (.sequence (.repetition .greedy 0 none (.set false nameMembers .exact))
      (.anchor (.finish false)))) h rfl
  obtain ⟨m, hfirst, he⟩ := mem_sequence.mp he
  obtain ⟨o, hrepeat, he⟩ := mem_sequence.mp he
  obtain ⟨hfinish, -⟩ := mem_anchor.mp he
  rw [outcomes_set] at hfirst
  simp only [letter_holds] at hfirst
  obtain ⟨⟨c, hc, hletter⟩, rfl⟩ := mem_oneChar.mp hfirst
  rw [Node.outcomes, outcomes_set] at hrepeat
  simp only [name_holds] at hrepeat
  have hrun := run_of_reached (reached_of_repeat hrepeat).1
  obtain ⟨cs, hcs⟩ : ∃ cs, s.toList = c :: cs := by
    rw [List.getElem?_toArray] at hc
    cases hs : s.toList with
    | nil => simp [hs] at hc
    | cons d cs => exact ⟨cs, by simpa [hs] using hc⟩
  have hslice := hrun.slice
  have htake : s.toList.take o.position = c :: (s.toList.take o.position).drop 1 := by
    obtain ⟨n, hn⟩ := Nat.exists_eq_add_of_le hrun.le
    rw [hcs, hn, Nat.zero_add, Nat.add_comm, List.take_succ_cons, List.drop_one, List.tail_cons]
  exact line_of_take hfinish ⟨c, _, htake, hletter, hslice⟩

theorem isName_cons (c : Char) (more : List Char) :
    isName (String.ofList (c :: more)) = (isLowerLetter c && more.all isNameChar) := by
  rw [isName, String.toList_ofList]

/-- The pattern of names occurs just in names, after which there may be a line break. -/
theorem name_occurs_iff {s : String} : Definition.namePattern.occursIn s = true ↔
    Line s fun cs => isName (String.ofList cs) = true := by
  constructor
  · intro h
    obtain ⟨_, tail, hs, ⟨c, more, rfl, hletter, hall⟩, htail⟩ := name_of_occurs h
    have hname : isName (String.ofList (c :: more)) = true := by
      rw [isName_cons, hletter, hall, Bool.and_self]
    exact ⟨_, tail, hs, hname, htail⟩
  · rintro ⟨cs, tail, hs, hname, htail⟩
    cases cs with
    | nil => cases hname
    | cons c more =>
      rw [isName_cons, Bool.and_eq_true] at hname
      obtain ⟨hletter, hall⟩ := hname
      let tracked := Definition.namePattern.node.asked
      have hfirst : (⟨1, []⟩ : Outcome) ∈ (Node.set false [.range 97 122] .exact).outcomes
          s.toList.toArray tracked ⟨0, []⟩ := by
        rw [outcomes_set]
        simp only [letter_holds]
        exact mem_oneChar.mpr ⟨⟨c, by simp [hs], hletter⟩, rfl⟩
      have hmore : (⟨(c :: more).length, []⟩ : Outcome) ∈ (Node.repetition .greedy 0 none
          (.set false nameMembers .exact)).outcomes s.toList.toArray tracked ⟨1, []⟩ := by
        have hrun : Run s.toList.toArray isNameChar 1 (c :: more).length := by
          simpa [Nat.add_comm] using run_of_append [c] tail hs hall
        rw [Node.outcomes, outcomes_set]
        simp only [name_holds]
        exact mem_repeat_of_run (o := ⟨1, []⟩) hrun (by simp [hs])
      refine occursIn_iff.mpr ⟨0, Nat.zero_le _, ⟨(c :: more).length, []⟩, ?_⟩
      refine mem_sequence.mpr ⟨_, mem_anchor.mpr ⟨rfl, rfl⟩, mem_sequence.mpr ⟨_, hfirst, ?_⟩⟩
      exact mem_sequence.mpr ⟨_, hmore, mem_anchor.mpr ⟨hs ▸ finish_holds htail, rfl⟩⟩

theorem ne_blank_of_nameChar {c : Char} (h : isNameChar c = true) : Text.isBlank c = false := by
  have hcode := Text.code_cases c
  rw [← name_holds] at h
  simp [nameMembers, Member.holds] at h
  exact isBlank_of_visible (by omega) (by omega)

/-- What the pattern of names occurs in is a name, once it is trimmed. -/
theorem isName_trim {s : String} (h : Definition.namePattern.occursIn s = true) :
    isName (Text.trim s) = true := by
  obtain ⟨_, tail, hs, ⟨c, cs, rfl, hletter, hall⟩, htail⟩ := name_of_occurs h
  have hblank : ∀ d ∈ c :: cs, Text.isBlank d = false := by
    refine List.forall_mem_cons.mpr ⟨ne_blank_of_nameChar (by simp [isNameChar, hletter]), ?_⟩
    exact fun d hd => ne_blank_of_nameChar (List.all_eq_true.mp hall d hd)
  rw [trim_of_line hs hblank htail, isName_cons, hletter, hall, Bool.and_self]

end DocForms.Pattern
