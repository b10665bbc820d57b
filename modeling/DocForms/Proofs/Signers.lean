import DocForms.Proofs.Fault
import DocForms.Proofs.Submission.Instances
import DocForms.Signers
import Mathlib.Data.List.Induction
import Mathlib.Data.List.InsertIdx
import Mathlib.Data.List.Perm.Subperm

/-! Signers are in order whatever calls are made: nobody signs twice, the orders are those of the
places, and a call moves nobody but the user that it names. -/
namespace DocForms.Signers

section Lists
variable {α : Type}

theorem numbered_users (s : Signers α) : s.numbered.map Prod.snd = s.users := by
  rw [numbered, List.map_map]
  exact List.zipIdx_map_fst ..

theorem numbered_orders (s : Signers α) :
    s.numbered.map Prod.fst = List.range' 1 s.users.length := by
  rw [numbered, List.map_map, List.range'_eq_map_range]
  apply List.ext_getElem <;> simp [Nat.add_comm]

/-- The place that an order means among `count` signers: orders are counted from one, and those
outside the list mean its ends. -/
def placeOf (count : Nat) (order : Int) : Nat := (max 0 (min (order - 1) count)).toNat

theorem position_int (count : Nat) (k : Int) : position count (.int k) = .ok (placeOf count k) := by
  have hplace : min (k - 1).toNat count = placeOf count k := by
    unfold placeOf
    omega
  rw [← hplace]
  rfl

theorem position_le {count i : Nat} {order : Value} (h : position count order = .ok i) :
    i ≤ count := by
  unfold position at h
  split at h
  · obtain rfl := Except.ok.inj h
    exact Nat.le_refl _
  · obtain rfl := Except.ok.inj h
    exact Nat.min_le_right ..
  · obtain rfl := Except.ok.inj h
    exact Nat.zero_le _
  · dsimp only at h
    split at h
    · obtain rfl := Except.ok.inj h
      exact Nat.zero_le _
    · split at h
      · obtain rfl := Except.ok.inj h
        exact Nat.le_refl _
      · cases h
  · cases h

/-- A list that is as long as the users and names each of them once is a permutation of them. -/
theorem perm_iff_sameUsers {us vs : List α} (hv : vs.Nodup) : us.Perm vs ↔
    us.length = vs.length ∧ (∀ u ∈ us, u ∈ vs) ∧ ∀ v ∈ vs, v ∈ us := by
  refine ⟨fun h => ⟨h.length_eq, fun _ hu => h.subset hu, fun _ hv => h.symm.subset hv⟩, ?_⟩
  rintro ⟨hlength, -, hall⟩
  exact ((List.subperm_of_subset hv hall).perm_of_length_le (Nat.le_of_eq hlength)).symm

/-- Lengths and mutual containment are all that is compared, which is enough because nobody signs
twice. -/
theorem reorder_eq_ok [BEq α] [LawfulBEq α] {s s' : Signers α} (hs : s.users.Nodup) {users : List α} :
    s.reorder users = .ok s' ↔ users.Perm s.users ∧ s' = ⟨users⟩ := by
  have hsame : (users.length = s.users.length && (users.all (fun u => s.users.any (· == u)) &&
      s.users.all fun u => users.any (· == u))) = true ↔ users.Perm s.users := by
    simp [perm_iff_sameUsers hs]
  unfold reorder
  dsimp only
  split
  · rename_i h
    simp [hsame.mp (by simpa using h), eq_comm]
  · rename_i h
    have hnot : ¬ users.Perm s.users := fun hp => h (by simpa using hsame.mpr hp)
    simp [hnot, refuse]

end Lists

/-! ### Calls -/

section Calls
variable {α : Type} [BEq α] [UserName α] {s s' : Signers α} {user : α} {order : Value}

/-- The calls that are made on a list of signers. -/
inductive Call (α : Type) where
  | add (user : α) (order : Value)
  | remove (user : α)
  | reorder (users : List α)

/-- What a call gives. -/
def perform (s : Signers α) : Call α → Except Fault (Signers α)
  | .add user order => s.add user order
  | .remove user => s.remove user
  | .reorder users => s.reorder users

/-- The signers after a call, successful or not. -/
def after (s : Signers α) (c : Call α) : Signers α :=
  match s.perform c with
  | .ok s' => s'
  | .error _ => s

/-- The lists of signers that calls lead to, one after another, from the empty one. -/
inductive Reachable : Signers α → Prop
  | empty : Reachable {}
  | call {s : Signers α} (h : Reachable s) (c : Call α) : Reachable (s.after c)

variable [LawfulBEq α]

theorem add_eq_ok : s.add user order = .ok s' ↔
    user ∉ s.users ∧ ∃ i, position s.users.length order = .ok i ∧ s' = ⟨s.users.insertIdx i user⟩ := by
  have hmem : (s.users.any (· == user)) = true ↔ user ∈ s.users := by simp
  unfold add
  rw [check_eq_ok, hmem, bind_eq_ok]
  exact and_congr_right fun _ => exists_congr fun i => and_congr_right fun _ =>
    pure_eq_ok.trans eq_comm

theorem remove_eq_ok : s.remove user = .ok s' ↔
    user ∈ s.users ∧ s' = ⟨s.users.filter (· != user)⟩ := by
  have hmem : (s.users.any (· == user)) = true ↔ user ∈ s.users := by simp
  unfold remove
  split
  · rename_i h
    constructor
    · intro he
      exact ⟨hmem.mp h, (Except.ok.inj he).symm⟩
    · rintro ⟨-, rfl⟩
      rfl
  · rename_i h
    exact ⟨fun he => absurd he refuse_ne_ok, fun he => absurd (hmem.mpr he.1) h⟩

/-- No call makes a user sign twice. -/
theorem nodup_perform (hs : s.users.Nodup) {c : Call α} (h : s.perform c = .ok s') :
    s'.users.Nodup := by
  cases c with
  | add user order =>
    obtain ⟨hnew, i, hi, rfl⟩ := add_eq_ok.mp h
    exact (List.perm_insertIdx user s.users (position_le hi)).nodup_iff.mpr
      (List.nodup_cons.mpr ⟨hnew, hs⟩)
  | remove user =>
    obtain ⟨-, rfl⟩ := remove_eq_ok.mp h
    exact hs.filter _
  | reorder users =>
    obtain ⟨hperm, rfl⟩ := (reorder_eq_ok hs).mp h
    exact hperm.nodup_iff.mpr hs

theorem Reachable.nodup (h : Reachable s) : s.users.Nodup := by
  induction h with
  | empty => exact List.nodup_nil
  | @call s _ c ih =>
    unfold after
    split
    · exact nodup_perform ih ‹_›
    · exact ih

/-- A new user who is given no order signs last. -/
theorem add_last (hnew : user ∉ s.users) : s.add user .null = .ok ⟨s.users ++ [user]⟩ :=
  add_eq_ok.mpr ⟨hnew, s.users.length, rfl, by simp⟩

/-- All lists without repetitions come about, by adding one user after another. -/
theorem reachable_of_nodup {users : List α} (h : users.Nodup) :
    Reachable (⟨users⟩ : Signers α) := by
  induction users using List.reverseRecOn with
  | nil => exact .empty
  | append_singleton users user ih =>
    obtain ⟨hu, -, hapart⟩ := List.nodup_append.mp h
    have hnew : user ∉ users := fun hmem => hapart user hmem user (by simp) rfl
    have hafter : (⟨users⟩ : Signers α).after (.add user .null) = ⟨users ++ [user]⟩ := by
      rw [after, perform, add_last hnew]
    exact hafter ▸ (ih hu).call _

end Calls

/-! ### Payloads -/

section Payloads
variable {s s' : Signers String} {es : List (Int × String)}

theorem nodup_foldlM (hs : s.users.Nodup)
    (h : es.foldlM (fun (s : Signers String) e => s.add e.2 .null) s = .ok s') : s'.users.Nodup := by
  induction es generalizing s with
  | nil =>
    obtain rfl := pure_eq_ok.mp h
    exact hs
  | cons e es ih =>
    rw [List.foldlM_cons] at h
    obtain ⟨s₁, hadd, h⟩ := bind_eq_ok.mp h
    exact ih (nodup_perform (c := .add e.2 .null) hs hadd) h

theorem nodup_ofValue {data : Value} (h : ofValue data = .ok s) : s.users.Nodup := by
  unfold ofValue at h
  split at h
  · obtain ⟨entries, -, h⟩ := bind_eq_ok.mp h
    exact nodup_foldlM List.nodup_nil h
  · exact absurd h refuse_ne_ok

/-- New users are added at the end. -/
theorem foldlM_add (es : List (Int × String)) (h : (s.users ++ es.map Prod.snd).Nodup) :
    es.foldlM (fun (s : Signers String) e => s.add e.2 .null) s =
      .ok ⟨s.users ++ es.map Prod.snd⟩ := by
  induction es generalizing s with
  | nil => simp [pure, Except.pure]
  | cons e es ih =>
    have hnew : e.2 ∉ s.users := fun hmem => List.disjoint_of_nodup_append h hmem (by simp)
    rw [List.foldlM_cons, add_last hnew]
    exact (ih (s := ⟨s.users ++ [e.2]⟩) (by simpa using h)).trans (by simp)

/-- The payload of one signer. -/
def entryValue (u : Nat × String) : Value := .named [("userId", .text u.2), ("order", .nat u.1)]

theorem entryOf_entryValue {u : Nat × String} (hu : u.2 ≠ "") :
    entryOf (entryValue u) = .ok (u.1, u.2) := by
  have huser : Entries.get (Entries.ofNames [("userId", .text u.2), ("order", .nat u.1)]) "userId" =
      .text u.2 := Entries.get_ofNames ..
  have horder : Entries.get (Entries.ofNames [("userId", .text u.2), ("order", .nat u.1)]) "order" =
      .nat u.1 := Entries.get_ofNames ..
  simp only [entryOf, entryValue, Value.named, huser, horder]
  rw [if_pos (by simpa [Value.isTruthy] using hu)]
  rfl

/-- Signers are read back from their payload: its orders are ascending already, and nobody in it
signs twice. -/
theorem ofValue_toValue (hs : s.users.Nodup) (hne : ∀ u ∈ s.users, u ≠ "") :
    ofValue s.toValue = .ok s := by
  have hentries : (s.numbered.map entryValue).mapM entryOf =
      .ok (s.numbered.map fun u => ((u.1 : Int), u.2)) := by
    rw [List.mapM_map]
    refine mapM_eq_ok fun u hu => entryOf_entryValue (hne _ ?_)
    exact numbered_users s ▸ List.mem_map_of_mem hu
  have hsorted : (s.numbered.map fun u => ((u.1 : Int), u.2)).mergeSort
      (fun a b => decide (a.1 ≤ b.1)) = s.numbered.map fun u => ((u.1 : Int), u.2) := by
    apply List.mergeSort_of_pairwise
    rw [List.pairwise_map]
    have horders : (s.numbered.map Prod.fst).Pairwise (· < ·) := by
      rw [numbered_orders]
      exact List.pairwise_lt_range' ..
    exact (List.pairwise_map.mp horders).imp fun h => by simpa using Nat.le_of_lt h
  have hadd := foldlM_add (s := {}) (s.numbered.map fun u => ((u.1 : Int), u.2))
  simp only [List.map_map, List.nil_append, Function.comp_def] at hadd
  rw [show (s.numbered.map fun u => u.2) = s.users from numbered_users s] at hadd
  show ((s.numbered.map entryValue).mapM entryOf >>= _ : Except Fault (Signers String)) = _
  rw [hentries]
  show List.foldlM _ _ (List.mergeSort _ _) = _
  rw [hsorted]
  exact hadd hs

end Payloads

/-! ### All calls together -/

/-- Whatever calls are made on signers, successful or not, nobody signs twice and the orders count
the places from one. A new user is inserted at the place that the order means and nobody else is
moved; whoever is removed is taken out; a new order is accepted if and only if it is a permutation
of the users; and a call that fails changes nothing. Signers that are read from a payload are of
this kind, whatever the payload is, and are read back from the payload that is made of them. -/
theorem signers_in_order {α : Type} [BEq α] [LawfulBEq α] [UserName α] {s : Signers α}
    (h : Reachable s) :
    (s.users.Nodup ∧ s.numbered.map Prod.snd = s.users ∧
      s.numbered.map Prod.fst = List.range' 1 s.users.length) ∧
    (∀ user, user ∉ s.users → s.add user .null = .ok ⟨s.users ++ [user]⟩ ∧
      ∀ k, s.add user (.int k) = .ok ⟨s.users.insertIdx (placeOf s.users.length k) user⟩) ∧
    (∀ user order s', s.add user order = .ok s' →
      user ∉ s.users ∧ ∃ i ≤ s.users.length, s' = ⟨s.users.insertIdx i user⟩) ∧
    (∀ user s', s.remove user = .ok s' ↔
      user ∈ s.users ∧ s' = ⟨s.users.filter (· != user)⟩) ∧
    (∀ users s', s.reorder users = .ok s' ↔ users.Perm s.users ∧ s' = ⟨users⟩) ∧
    (∀ c e, s.perform c = .error e → s.after c = s) ∧
    (∀ text : String → α, Function.Injective text → ∀ data t, ofValue data = .ok t →
      Reachable (⟨t.users.map text⟩ : Signers α)) ∧
    ∀ t : Signers String, Reachable t → (∀ u ∈ t.users, u ≠ "") → ofValue t.toValue = .ok t := by
  refine ⟨⟨h.nodup, numbered_users s, numbered_orders s⟩, fun user hnew => ⟨add_last hnew, fun k => ?_⟩,
    fun user order s' hadd => ?_, fun user s' => remove_eq_ok, fun users s' => reorder_eq_ok h.nodup,
    fun c e he => ?_, fun text htext data t ht => ?_, fun t ht => ofValue_toValue ht.nodup⟩
  · exact add_eq_ok.mpr ⟨hnew, _, position_int .., rfl⟩
  · obtain ⟨hnew, i, hi, rfl⟩ := add_eq_ok.mp hadd
    exact ⟨hnew, i, position_le hi, rfl⟩
  · rw [after, he]
  · exact reachable_of_nodup ((nodup_ofValue ht).map htext)

/-- Two signers of a payload, the second of whom comes first in it. -/
def twoSigners : Value :=
  .list [.named [("userId", .text "b"), ("order", .int 5)],
    .named [("userId", .text "a"), ("order", .text "2")]]

theorem signers_in_order_twoSigners : ofValue twoSigners = .ok ⟨["a", "b"]⟩ ∧
    Reachable (⟨["a", "b"]⟩ : Signers String) ∧
    add ⟨["a", "b"]⟩ "c" (.int (-7)) = .ok ⟨["c", "a", "b"]⟩ ∧
    add ⟨["a", "b"]⟩ "c" (.int 2) = .ok ⟨["a", "c", "b"]⟩ ∧
    add ⟨["a", "b"]⟩ "c" (.int 9) = .ok ⟨["a", "b", "c"]⟩ ∧
    reorder ⟨["a", "b"]⟩ ["b", "a"] = .ok ⟨["b", "a"]⟩ ∧
    ∀ s', reorder ⟨["a", "b"]⟩ ["b", "b"] ≠ .ok s' := by
  have hsorted : [((5 : Int), "b"), (2, "a")].mergeSort (fun a b => decide (a.1 ≤ b.1)) =
      [(2, "a"), (5, "b")] := by simp [List.mergeSort]
  have hread : ofValue twoSigners = .ok ⟨["a", "b"]⟩ := by
    show List.foldlM _ _ (List.mergeSort [((5 : Int), "b"), (2, "a")] _) = _
    rw [hsorted]
    rfl
  have hreach : Reachable (⟨["a", "b"]⟩ : Signers String) := reachable_of_nodup (by decide)
  obtain ⟨-, hadd, -, -, hreorder, -⟩ := signers_in_order hreach
  have hnew := (hadd "c" (by decide)).2
  refine ⟨hread, hreach, hnew (-7), hnew 2, hnew 9, (hreorder _ _).mpr ⟨.swap .., rfl⟩, ?_⟩
  intro s' h
  exact absurd ((hreorder _ _).mp h).1 (by decide)

end DocForms.Signers
