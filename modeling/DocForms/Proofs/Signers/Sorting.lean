import DocForms.Proofs.Signers

/-! Sorting the signers of a payload. Sorting by a key keeps the order of the elements with one key,
and is the only way to do so. An entry without an order is sorted like one with the order zero, so
that it comes ahead of all others just if none of them has a negative order and none before it has
the order zero. -/
namespace DocForms.Signers

/-! ### Sorting -/

section Sorting
variable {α : Type} {key : α → Int} {l l' : List α}

/-- A list sorted by a key; elements with the same key keep their order. -/
def sortBy (key : α → Int) (l : List α) : List α := l.mergeSort fun a b => decide (key a ≤ key b)

/-- The elements with a key. -/
def withKey (key : α → Int) (k : Int) (l : List α) : List α := l.filter fun a => key a == k

theorem sortBy_perm (key : α → Int) (l : List α) : (sortBy key l).Perm l := List.mergeSort_perm ..

theorem sortBy_sorted (key : α → Int) (l : List α) :
    (sortBy key l).Pairwise fun a b => key a ≤ key b := by
  have hsorted := @List.pairwise_mergeSort α (fun a b => decide (key a ≤ key b))
    (by simpa using fun a b c => Int.le_trans) (by simpa using fun a b => Int.le_total ..) l
  exact hsorted.imp of_decide_eq_true

/-- Sorting keeps the order of the elements with one key. -/
theorem withKey_sortBy (key : α → Int) (k : Int) (l : List α) :
    withKey key k (sortBy key l) = withKey key k l := by
  have hsub : (withKey key k l).Sublist (sortBy key l) := by
    refine List.sublist_mergeSort (by simpa using fun a b c => Int.le_trans)
      (by simpa using fun a b => Int.le_total ..) ?_ List.filter_sublist
    apply List.pairwise_filter.mpr
    apply List.pairwise_of_forall
    intro a b ha hb
    simp_all
  have hkeep := hsub.filter fun a => key a == k
  have hself : (withKey key k l).filter (fun a => key a == k) = withKey key k l := by
    rw [withKey, List.filter_filter]
    simp only [Bool.and_self]
  rw [hself] at hkeep
  exact (hkeep.eq_of_length ((sortBy_perm key l).filter _).length_eq.symm).symm

theorem mem_withKey {a : α} {k : Int} : a ∈ withKey key k l ↔ a ∈ l ∧ key a = k := by
  simp [withKey]

theorem withKey_cons (key : α → Int) (k : Int) (a : α) (l : List α) :
    withKey key k (a :: l) = if key a = k then a :: withKey key k l else withKey key k l := by
  simp [withKey, List.filter_cons]

theorem mem_of_withKey (h : ∀ k, withKey key k l = withKey key k l') {a : α} (ha : a ∈ l) :
    a ∈ l' := by
  have hkey : a ∈ withKey key (key a) l := mem_withKey.mpr ⟨ha, rfl⟩
  rw [h] at hkey
  exact (mem_withKey.mp hkey).1

/-- The first element of a sorted list has the least key. -/
theorem key_le_of_mem {a b : α} (hl : (a :: l).Pairwise fun a b => key a ≤ key b)
    (hb : b ∈ a :: l) : key a ≤ key b := by
  rcases List.mem_cons.mp hb with rfl | hb
  · exact Int.le_refl _
  · exact (List.pairwise_cons.mp hl).1 b hb

/-- Sorted lists that agree on the elements of every key are the same. -/
theorem eq_of_withKey (hl : l.Pairwise fun a b => key a ≤ key b)
    (hl' : l'.Pairwise fun a b => key a ≤ key b) (h : ∀ k, withKey key k l = withKey key k l') :
    l = l' := by
  induction l generalizing l' with
  | nil =>
    refine (List.eq_nil_iff_forall_not_mem.mpr fun b hb => ?_).symm
    exact List.not_mem_nil (mem_of_withKey (fun k => (h k).symm) hb)
  | cons a l ih =>
    cases l' with
    | nil => exact absurd (mem_of_withKey h List.mem_cons_self) List.not_mem_nil
    | cons b l' =>
      have hb : b ∈ a :: l := mem_of_withKey (fun k => (h k).symm) List.mem_cons_self
      have ha : a ∈ b :: l' := mem_of_withKey h List.mem_cons_self
      have hkey : key b = key a := Int.le_antisymm (key_le_of_mem hl' ha) (key_le_of_mem hl hb)
      have hheads := h (key a)
      rw [withKey_cons, withKey_cons, if_pos rfl, if_pos hkey] at hheads
      obtain ⟨rfl, -⟩ := List.cons.inj hheads
      have htails (k : Int) : withKey key k l = withKey key k l' := by
        have hk := h k
        rw [withKey_cons, withKey_cons] at hk
        split at hk
        · exact (List.cons.inj hk).2
        · exact hk
      rw [ih (List.pairwise_cons.mp hl).2 (List.pairwise_cons.mp hl').2 htails]

end Sorting

/-! ### The documented sequence -/

/-- An entry of a payload: its order, if it has one, and its user. -/
abbrev Entry := Option Int × String

namespace Entry

/-- What an entry is sorted by. -/
def key (e : Entry) : Int := e.1.getD 0

end Entry

/-- The entries without an order as they are given, and then the others sorted by their orders. -/
def documented (es : List Entry) : List Entry :=
  es.filter (·.1.isNone) ++ sortBy Entry.key (es.filter (·.1.isSome))

/-- The entries without an order cannot come after one that has an order. -/
structure Apart (es : List Entry) : Prop where
  nonneg : ∀ a ∈ es, ∀ b ∈ es, b.1 = none → 0 ≤ a.key
  zero : es.Pairwise fun a b => b.1 = none → a.1 ≠ some 0

section
variable {es : List Entry} {e : Entry}

theorem key_of_none (h : e.1 = none) : e.key = 0 := by rw [Entry.key, h, Option.getD_none]

theorem isNone_of_mem (h : e ∈ es.filter (·.1.isNone)) : e ∈ es ∧ e.1 = none := by
  simpa using h

/-- The entries with an order that is not zero are the same in both sequences. -/
theorem withKey_documented (k : Int) (es : List Entry) : withKey Entry.key k (documented es) =
    (if k = 0 then es.filter (·.1.isNone) else []) ++
      (withKey Entry.key k es).filter (·.1.isSome) := by
  have hsome : withKey Entry.key k (es.filter (·.1.isSome)) =
      (withKey Entry.key k es).filter (·.1.isSome) := List.filter_comm ..
  have hnone : withKey Entry.key k (es.filter (·.1.isNone)) =
      if k = 0 then es.filter (·.1.isNone) else [] := by
    split
    · rename_i hk
      apply List.filter_eq_self.mpr
      intro a ha
      rw [key_of_none (isNone_of_mem ha).2, hk]
      rfl
    · rename_i hk
      apply List.filter_eq_nil_iff.mpr
      intro a ha
      rw [key_of_none (isNone_of_mem ha).2, beq_iff_eq]
      exact fun h => hk h.symm
  unfold documented withKey at *
  rw [List.filter_append, hnone]
  exact congrArg _ ((withKey_sortBy ..).trans hsome)

/-- The entries that are sorted like those without an order come after these. -/
theorem withKey_zero (h : es.Pairwise fun a b => b.1 = none → a.1 ≠ some 0) :
    withKey Entry.key 0 es =
      es.filter (·.1.isNone) ++ (withKey Entry.key 0 es).filter (·.1.isSome) := by
  induction es with
  | nil => rfl
  | cons a es ih =>
    obtain ⟨hfirst, hrest⟩ := List.pairwise_cons.mp h
    have ih := ih hrest
    rw [withKey_cons]
    rcases a with ⟨_ | n, u⟩
    · rw [if_pos (key_of_none rfl), List.filter_cons_of_pos rfl,
        List.filter_cons_of_neg (by simp), List.cons_append, ← ih]
    · rw [List.filter_cons_of_neg (by simp)]
      split
      · rename_i hzero
        have hnone : es.filter (·.1.isNone) = [] := by
          apply List.filter_eq_nil_iff.mpr
          intro b hb hnone
          exact hfirst b hb (Option.isNone_iff_eq_none.mp hnone) (congrArg some hzero)
        rw [hnone, List.nil_append] at ih ⊢
        rw [List.filter_cons_of_pos rfl, ← ih]
      · exact ih

theorem withKey_of_apart (h : Apart es) (k : Int) :
    withKey Entry.key k es = withKey Entry.key k (documented es) := by
  rw [withKey_documented]
  split
  · rename_i hk
    rw [hk]
    exact withKey_zero h.zero
  · rename_i hk
    refine (List.filter_eq_self.mpr fun a ha => ?_).symm
    rw [← Option.ne_none_iff_isSome]
    intro hnone
    exact hk ((mem_withKey.mp ha).2.symm.trans (key_of_none hnone))

theorem documented_sorted (h : Apart es) :
    (documented es).Pairwise fun a b => a.key ≤ b.key := by
  refine List.pairwise_append.mpr ⟨?_, sortBy_sorted .., ?_⟩
  · refine List.pairwise_of_forall_mem_list fun a ha b hb => ?_
    exact Int.le_of_eq ((key_of_none (isNone_of_mem ha).2).trans
      (key_of_none (isNone_of_mem hb).2).symm)
  · intro a ha b hb
    obtain ⟨ha, hnone⟩ := isNone_of_mem ha
    rw [key_of_none hnone]
    exact h.nonneg b (List.mem_of_mem_filter ((sortBy_perm ..).subset hb)) a ha hnone

/-- The sequence that entries are sorted into is the documented one just if no entry with an order
gets ahead of one without. -/
theorem sortBy_key_eq_iff : sortBy Entry.key es = documented es ↔ Apart es := by
  constructor
  · intro heq
    constructor
    · intro a ha b hb hnone
      rw [← key_of_none hnone]
      by_cases hsome : a.1 = none
      · exact Int.le_of_eq ((key_of_none hnone).trans (key_of_none hsome).symm)
      · have hsorted := sortBy_sorted Entry.key es
        rw [heq, documented] at hsorted
        refine (List.pairwise_append.mp hsorted).2.2 b ?_ a ?_
        · exact List.mem_filter.mpr ⟨hb, Option.isNone_iff_eq_none.mpr hnone⟩
        · apply (sortBy_perm ..).symm.subset
          exact List.mem_filter.mpr ⟨ha, Option.ne_none_iff_isSome.mp hsome⟩
    · -- among the entries sorted like those without an order, these come first
      have hzero : withKey Entry.key 0 es =
          es.filter (·.1.isNone) ++ (withKey Entry.key 0 es).filter (·.1.isSome) := by
        have hsame := withKey_documented 0 es
        rwa [← heq, withKey_sortBy, if_pos rfl] at hsame
      have hpairs : (withKey Entry.key 0 es).Pairwise fun a b => b.1 = none → a.1 ≠ some 0 := by
        rw [hzero]
        refine List.pairwise_append.mpr ⟨?_, ?_, ?_⟩
        · refine List.pairwise_of_forall_mem_list fun a ha b _ _ => ?_
          rw [(isNone_of_mem ha).2]
          exact nofun
        · refine List.pairwise_of_forall_mem_list fun a _ b hb hnone => ?_
          exact absurd hnone (Option.ne_none_iff_isSome.mpr (List.mem_filter.mp hb).2)
        · intro a ha b _ _
          rw [(isNone_of_mem ha).2]
          exact nofun
      refine (List.pairwise_filter.mp hpairs).imp fun {a b} h hb ha => ?_
      exact h (by simp [Entry.key, ha]) (by simp [Entry.key, hb]) hb ha
  · intro h
    refine eq_of_withKey (sortBy_sorted ..) (documented_sorted h) fun k => ?_
    rw [withKey_sortBy, withKey_of_apart h]

end

end DocForms.Signers
