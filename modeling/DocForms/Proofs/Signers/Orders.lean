import DocForms.Proofs.Signers.Sorting

/-! The signers that are read from a payload. Each entry has a user and may have an order, which is
an integer or what is taken for one. -/
namespace DocForms.Signers

/-! ### Reading -/

/-- The integer that an order stands for. -/
inductive Stands : Value → Int → Prop
  | int (n : Int) : Stands (.int n) n
  | float {x : Binary64} {n : Int} (hx : x.isInteger = true) (h : x.truncate? = some n) :
    Stands (.float x) n
  | text {s : String} {n : Int} (h : Decimal.readInt? s = some n) : Stands (.text s) n

/-- The order is a number with a fraction. -/
def Fractional (order : Value) : Prop :=
  ∃ x n, order = .float x ∧ x.isInteger = false ∧ x.truncate? = some n

/-- The integer that an order is taken for. -/
inductive Taken : Value → Int → Prop
  | whole {order : Value} {n : Int} (h : Stands order n) : Taken order n
  | cut {x : Binary64} {n : Int} (hx : x.isInteger = false) (h : x.truncate? = some n) :
    Taken (.float x) n

/-- The order is infinite. -/
def Infinite (order : Value) : Prop := ∃ neg, order = .float (.infinite neg)

/-- The text of the user in a record. -/
def Names (es : Entries) (user : String) : Prop :=
  (Entries.get es "userId").isTruthy = true ∧ (Entries.get es "userId").written .loose = .ok user

/-- What is read in an entry, by a reading of orders. -/
inductive Entry.Reads (order : Value → Int → Prop) : Value → Entry → Prop
  | missing {es : Entries} {user : String} (huser : Names es user)
    (horder : Entries.get es "order" = .null) : Reads order (.record es) (none, user)
  | given {es : Entries} {user : String} {n : Int} (huser : Names es user)
    (horder : order (Entries.get es "order") n) : Reads order (.record es) (some n, user)

section
variable {v o : Value} {n : Int} {m : Misuse} {r : Refusal} {x : Binary64}

theorem toInteger_float (h : x.truncate? = some n) : (Value.float x).toInteger = .ok n := by
  cases x with
  | nan => cases h
  | infinite neg => cases h
  | finite neg m e => simp [Value.toInteger, h]

theorem orderOf_taken (h : Taken o n) : orderOf o = .ok n := by
  rcases h with h | ⟨-, h⟩
  · rcases h with n | ⟨-, h⟩ | h
    · rfl
    · simp [orderOf, toInteger_float h]
    · simp [orderOf, Value.toInteger, h]
  · simp [orderOf, toInteger_float h]

theorem orderOf_infinite (h : Infinite o) : orderOf o = misuse .magnitude := by
  obtain ⟨neg, rfl⟩ := h
  rfl

/-- An order is missing, taken for an integer, infinite or refused. -/
theorem orderOf_cases (o : Value) : o = .null ∨ (∃ n, Taken o n) ∨ Infinite o ∨
    orderOf o = refuse .signerOrderNotInteger := by
  rcases o with (_ | _ | n | x | s | _ | _) | _ | _ | _
  case atom.null => exact .inl rfl
  case atom.int => exact .inr (.inl ⟨n, .whole (.int n)⟩)
  case atom.float =>
    cases x with
    | nan => exact .inr (.inr (.inr rfl))
    | infinite neg => exact .inr (.inr (.inl ⟨neg, rfl⟩))
    | finite neg m e =>
      cases hx : (Binary64.finite neg m e).isInteger with
      | true => exact .inr (.inl ⟨_, .whole (.float hx rfl)⟩)
      | false => exact .inr (.inl ⟨_, .cut hx rfl⟩)
  case atom.text =>
    cases hs : Decimal.readInt? s with
    | none => exact .inr (.inr (.inr (by simp [orderOf, Value.toInteger, hs, misuse])))
    | some n => exact .inr (.inl ⟨n, .whole (.text hs)⟩)
  all_goals exact .inr (.inr (.inr rfl))

theorem orderOf_eq_ok : orderOf o = .ok n ↔ (o = .null ∧ n = 0) ∨ Taken o n := by
  constructor
  · intro h
    rcases orderOf_cases o with rfl | ⟨k, hk⟩ | hinfinite | hrefused
    · exact .inl ⟨rfl, (Except.ok.inj h).symm⟩
    · obtain rfl := Except.ok.inj ((orderOf_taken hk).symm.trans h)
      exact .inr hk
    · cases (orderOf_infinite hinfinite).symm.trans h
    · cases hrefused.symm.trans h
  · rintro (⟨rfl, rfl⟩ | h)
    · rfl
    · exact orderOf_taken h

theorem orderOf_eq_error {e : Fault} (h : orderOf o = .error e) :
    e = .refused .signerOrderNotInteger ∨ e = .misuse .magnitude ∧ Infinite o := by
  rcases orderOf_cases o with rfl | ⟨k, hk⟩ | hinfinite | hrefused
  · cases h
  · cases (orderOf_taken hk).symm.trans h
  · have he := Except.error.inj ((orderOf_infinite hinfinite).symm.trans h)
    exact .inr ⟨he.symm, hinfinite⟩
  · exact .inl (Except.error.inj (hrefused.symm.trans h)).symm

theorem entryOf_of_truthy {es : Entries} (h : (Entries.get es "userId").isTruthy = true) :
    entryOf (.record es) = (do
      let n ← orderOf (Entries.get es "order")
      let user ← (Entries.get es "userId").written .loose
      return (n, user)) := if_pos h

theorem entryOf_of_not_truthy {es : Entries} (h : ¬ (Entries.get es "userId").isTruthy = true) :
    entryOf (.record es) = refuse .signerWithoutUser := if_neg h

theorem entryOf_of_not_record (h : ∀ es, v ≠ .record es) : entryOf v = refuse .signerNotObject := by
  cases v with
  | record es => exact absurd rfl (h es)
  | _ => rfl

/-- The entries that are read. -/
theorem entryOf_eq_ok {k : Int × String} :
    entryOf v = .ok k ↔ ∃ e, Entry.Reads Taken v e ∧ k = (e.key, e.2) := by
  constructor
  · intro h
    by_cases hrecord : ∃ es, v = .record es
    · obtain ⟨es, rfl⟩ := hrecord
      by_cases htruthy : (Entries.get es "userId").isTruthy = true
      · rw [entryOf_of_truthy htruthy] at h
        obtain ⟨n, horder, h⟩ := bind_eq_ok.mp h
        obtain ⟨user, huser, h⟩ := bind_eq_ok.mp h
        obtain rfl := pure_eq_ok.mp h
        rcases orderOf_eq_ok.mp horder with ⟨hnull, rfl⟩ | htaken
        · exact ⟨_, .missing ⟨htruthy, huser⟩ hnull, rfl⟩
        · exact ⟨_, .given ⟨htruthy, huser⟩ htaken, rfl⟩
      · rw [entryOf_of_not_truthy htruthy] at h
        cases h
    · rw [entryOf_of_not_record (not_exists.mp hrecord)] at h
      cases h
  · rintro ⟨e, he, rfl⟩
    cases he with
    | missing huser horder =>
      obtain ⟨htruthy, hwritten⟩ := huser
      rw [entryOf_of_truthy htruthy, horder, hwritten]
      rfl
    | given huser horder =>
      obtain ⟨htruthy, hwritten⟩ := huser
      rw [entryOf_of_truthy htruthy, orderOf_taken horder, hwritten]
      rfl

/-- An entry that is neither read nor refused. -/
def Breaks (v : Value) : Prop :=
  ∃ es, v = .record es ∧ (Entries.get es "userId").isTruthy = true ∧
    (Infinite (Entries.get es "order") ∨
      (∃ n, orderOf (Entries.get es "order") = .ok n) ∧ (Entries.get es "userId").hasText = false)

/-- The refusals of a payload. -/
def refusals : List Refusal :=
  [.signersNotList, .signerNotObject, .signerWithoutUser, .signerOrderNotInteger]

theorem entryOf_eq_error {e : Fault} (h : entryOf v = .error e) :
    (∃ r ∈ refusals, e = .refused r) ∨ Breaks v ∧ ∃ m, e = .misuse m := by
  by_cases hrecord : ∃ es, v = .record es
  · obtain ⟨es, rfl⟩ := hrecord
    by_cases htruthy : (Entries.get es "userId").isTruthy = true
    · rw [entryOf_of_truthy htruthy] at h
      rcases bind_eq_error.mp h with h | ⟨n, horder, h⟩
      · rcases orderOf_eq_error h with rfl | ⟨rfl, hinfinite⟩
        · exact .inl ⟨_, by decide, rfl⟩
        · exact .inr ⟨⟨es, rfl, htruthy, .inl hinfinite⟩, _, rfl⟩
      · rcases bind_eq_error.mp h with h | ⟨user, -, h⟩
        · unfold Value.written at h
          split at h
          · cases h
          · rename_i htext
            obtain rfl := Except.error.inj h
            exact .inr ⟨⟨es, rfl, htruthy, .inr ⟨⟨n, horder⟩, Bool.eq_false_iff.mpr htext⟩⟩, _, rfl⟩
        · cases h
    · rw [entryOf_of_not_truthy htruthy] at h
      exact .inl ⟨_, by decide, (Except.error.inj h).symm⟩
  · rw [entryOf_of_not_record (not_exists.mp hrecord)] at h
    exact .inl ⟨_, by decide, (Except.error.inj h).symm⟩

theorem Breaks.entryOf (h : Breaks v) : ∃ m, entryOf v = .error (.misuse m) := by
  obtain ⟨es, rfl, htruthy, hinfinite | ⟨⟨n, horder⟩, htext⟩⟩ := h
  · rw [entryOf_of_truthy htruthy, orderOf_infinite hinfinite]
    exact ⟨_, rfl⟩
  · rw [entryOf_of_truthy htruthy, horder, Value.written, htext]
    exact ⟨_, rfl⟩

theorem Taken.unique {k : Int} (h : Taken o n) (h' : Taken o k) : n = k :=
  Except.ok.inj ((orderOf_taken h).symm.trans (orderOf_taken h'))

theorem Entry.Reads.whole {e : Entry} (h : Entry.Reads Stands v e) : Entry.Reads Taken v e := by
  cases h with
  | missing huser horder => exact .missing huser horder
  | given huser horder => exact .given huser (.whole horder)

theorem not_taken_of_null (h : o = .null) : ¬ Taken o n := by
  subst h
  rintro (h | _)
  cases h

theorem Entry.Reads.unique {e e' : Entry} (h : Entry.Reads Taken v e)
    (h' : Entry.Reads Taken v e') : e = e' := by
  have huser {es : Entries} {a b : String} (ha : Names es a) (hb : Names es b) : a = b :=
    Except.ok.inj (ha.2.symm.trans hb.2)
  cases h with
  | missing hname horder =>
    cases h' with
    | missing hname' => rw [huser hname hname']
    | given _ horder' => exact absurd horder' (not_taken_of_null horder)
  | given hname horder =>
    cases h' with
    | missing _ horder' => exact absurd horder (not_taken_of_null horder')
    | given hname' horder' => rw [huser hname hname', horder.unique horder']

end

/-! ### Payloads -/

section
variable {vs : List Value} {es es' : List Entry} {s : Signers String} {data : Value} {e : Fault}

/-- The entries of a payload, as far as they are read. -/
abbrev ReadsAll (order : Value → Int → Prop) : List Value → List Entry → Prop :=
  List.Forall₂ (Entry.Reads order)

theorem ReadsAll.unique (h : ReadsAll Taken vs es) (h' : ReadsAll Taken vs es') : es = es' :=
  List.right_unique_forall₂' (fun _ _ _ he he' => he.unique he') h h'

theorem mapM_entryOf {ks : List (Int × String)} : vs.mapM entryOf = .ok ks ↔
    ∃ es, ReadsAll Taken vs es ∧ ks = es.map fun e => (e.key, e.2) := by
  rw [mapM_eq_ok_forall₂]
  constructor
  · intro h
    induction h with
    | nil => exact ⟨[], .nil, rfl⟩
    | cons hv _ ih =>
      obtain ⟨e, he, rfl⟩ := entryOf_eq_ok.mp hv
      obtain ⟨es, hes, rfl⟩ := ih
      exact ⟨e :: es, .cons he hes, rfl⟩
  · rintro ⟨es, hes, rfl⟩
    exact List.forall₂_map_right_iff.mpr (hes.imp fun v e he => entryOf_eq_ok.mpr ⟨e, he, rfl⟩)

theorem foldlM_add_twice {ks : List (Int × String)} (hs : s.users.Nodup)
    (h : ¬ (s.users ++ ks.map Prod.snd).Nodup) :
    ∃ user, ks.foldlM (fun (s : Signers String) k => s.add k.2 .null) s =
      .error (.refused (.signerTwice user)) := by
  induction ks generalizing s with
  | nil => exact absurd (by simpa using hs) h
  | cons k ks ih =>
    rw [List.foldlM_cons]
    by_cases hmem : k.2 ∈ s.users
    · refine ⟨k.2, ?_⟩
      unfold add
      rw [if_pos (by simpa using hmem)]
      rfl
    · rw [add_last hmem]
      refine ih (s := ⟨s.users ++ [k.2]⟩) ?_ (by simpa using h)
      exact (List.perm_append_singleton k.2 s.users).nodup_iff.mpr
        (List.nodup_cons.mpr ⟨hmem, hs⟩)

/-- What becomes of a payload whose entries are read. -/
theorem ofValue_of_readsAll (h : ReadsAll Taken vs es) :
    ((es.map Prod.snd).Nodup → ofValue (.list vs) = .ok ⟨(sortBy Entry.key es).map Prod.snd⟩) ∧
    (¬ (es.map Prod.snd).Nodup →
      ∃ user, ofValue (.list vs) = .error (.refused (.signerTwice user))) := by
  have hsorted : (es.map fun e => (e.key, e.2)).mergeSort (fun a b => decide (a.1 ≤ b.1)) =
      (sortBy Entry.key es).map fun e => (e.key, e.2) :=
    (List.map_mergeSort (f := fun e : Entry => (e.key, e.2)) fun _ _ _ _ => rfl).symm
  have husers : ((sortBy Entry.key es).map fun e => (e.key, e.2)).map Prod.snd =
      (sortBy Entry.key es).map Prod.snd := List.map_map ..
  have hperm : ((sortBy Entry.key es).map Prod.snd).Perm (es.map Prod.snd) :=
    (sortBy_perm ..).map _
  have hread : ofValue (.list vs) = ((sortBy Entry.key es).map fun e => (e.key, e.2)).foldlM
      (fun (s : Signers String) k => s.add k.2 .null) {} := by
    rw [← hsorted, ofValue, mapM_entryOf.mpr ⟨es, h, rfl⟩]
    rfl
  rw [hread]
  constructor
  · intro hnodup
    have hadd := foldlM_add (s := {}) ((sortBy Entry.key es).map fun e => (e.key, e.2))
    rw [husers, List.nil_append] at hadd
    exact hadd (hperm.nodup_iff.mpr hnodup)
  · intro htwice
    refine foldlM_add_twice List.nodup_nil ?_
    rw [husers, List.nil_append]
    exact fun hnodup => htwice (hperm.nodup_iff.mp hnodup)

/-- The payloads that signers are read from. -/
theorem ofValue_eq_ok : ofValue data = .ok s ↔ ∃ vs es, data = .list vs ∧ ReadsAll Taken vs es ∧
    (es.map Prod.snd).Nodup ∧ s = ⟨(sortBy Entry.key es).map Prod.snd⟩ := by
  constructor
  · intro h
    cases data with
    | list vs =>
      obtain ⟨ks, hks, -⟩ := bind_eq_ok.mp h
      obtain ⟨es, hes, -⟩ := mapM_entryOf.mp hks
      obtain ⟨hok, htwice⟩ := ofValue_of_readsAll hes
      by_cases hnodup : (es.map Prod.snd).Nodup
      · exact ⟨vs, es, rfl, hes, hnodup, Except.ok.inj (h.symm.trans (hok hnodup))⟩
      · obtain ⟨user, herror⟩ := htwice hnodup
        cases h.symm.trans herror
    | atom a => cases h
    | link l => cases h
    | record es => cases h
  · rintro ⟨vs, es, rfl, hes, hnodup, rfl⟩
    exact (ofValue_of_readsAll hes).1 hnodup

theorem ofValue_eq_error {e : Fault} (h : ofValue data = .error e) :
    (∃ r, e = .refused r ∧ (r ∈ refusals ∨ ∃ user, r = .signerTwice user)) ∨
    ∃ before v after es m, data = .list (before ++ v :: after) ∧ ReadsAll Taken before es ∧
      Breaks v ∧ e = .misuse m := by
  cases data with
  | list vs =>
    cases hread : vs.mapM entryOf with
    | ok ks =>
      obtain ⟨es, hes, -⟩ := mapM_entryOf.mp hread
      obtain ⟨hok, htwice⟩ := ofValue_of_readsAll hes
      by_cases hnodup : (es.map Prod.snd).Nodup
      · cases h.symm.trans (hok hnodup)
      · obtain ⟨user, herror⟩ := htwice hnodup
        exact .inl ⟨_, Except.error.inj (h.symm.trans herror), .inr ⟨user, rfl⟩⟩
    | error e' =>
      rw [ofValue, hread] at h
      obtain rfl := Except.error.inj h
      obtain ⟨before, v, after, ks, rfl, hbefore, he⟩ := mapM_eq_error_iff.mp hread
      obtain ⟨es, hes, -⟩ := mapM_entryOf.mp (mapM_eq_ok_forall₂.mpr hbefore)
      rcases entryOf_eq_error he with ⟨r, hr, rfl⟩ | ⟨hbreaks, m, rfl⟩
      · exact .inl ⟨r, rfl, .inl hr⟩
      · exact .inr ⟨before, v, after, es, m, rfl, hes, hbreaks, rfl⟩
  | atom a => exact .inl ⟨_, (Except.error.inj h).symm, .inl (by decide)⟩
  | link l => exact .inl ⟨_, (Except.error.inj h).symm, .inl (by decide)⟩
  | record es => exact .inl ⟨_, (Except.error.inj h).symm, .inl (by decide)⟩

theorem ofValue_breaks {before after : List Value} {v : Value} (h : ReadsAll Taken before es)
    (hv : Breaks v) : ∃ m, ofValue (.list (before ++ v :: after)) = .error (.misuse m) := by
  obtain ⟨m, hm⟩ := hv.entryOf
  have hbefore := mapM_eq_ok_forall₂.mp (mapM_entryOf.mpr ⟨es, h, rfl⟩)
  refine ⟨m, ?_⟩
  rw [ofValue, mapM_eq_error_iff.mpr ⟨before, v, after, _, rfl, hbefore, hm⟩]
  rfl

theorem code_of_refusals {r : Refusal} (h : r ∈ refusals) : r.code = "SchemaDefinitionError" := by
  have hall : ∀ r ∈ refusals, r.code = "SchemaDefinitionError" := by decide
  exact hall r h

/-- The order of an entry is a number with a fraction. -/
def CutEntry (v : Value) : Prop := ∃ es, v = .record es ∧ Fractional (Entries.get es "order")

theorem Stands.not_fractional {o : Value} {n : Int} (h : Stands o n) : ¬ Fractional o := by
  rintro ⟨x, k, rfl, hx, -⟩
  cases h with
  | float hinteger _ => exact Bool.false_ne_true (hx.symm.trans hinteger)

theorem Entry.Reads.not_cutEntry {v : Value} {e : Entry} (h : Entry.Reads Stands v e) :
    ¬ CutEntry v := by
  rintro ⟨es, rfl, hcut⟩
  cases h with
  | missing _ horder =>
    obtain ⟨x, n, hx, -⟩ := hcut
    cases hx.symm.trans horder
  | given _ horder => exact horder.not_fractional hcut

theorem Entry.Reads.stands {v : Value} {e : Entry} (h : Entry.Reads Taken v e)
    (hcut : ¬ CutEntry v) : Entry.Reads Stands v e := by
  cases h with
  | missing huser horder => exact .missing huser horder
  | @given es user n huser horder =>
    refine .given huser ?_
    generalize ho : Entries.get es "order" = o at horder
    cases horder with
    | whole h => exact h
    | cut hx hn => exact absurd ⟨es, rfl, _, _, ho, hx, hn⟩ hcut

theorem readsAll_stands_iff : ReadsAll Stands vs es ↔
    ReadsAll Taken vs es ∧ ∀ v ∈ vs, ¬ CutEntry v := by
  constructor
  · intro h
    refine ⟨h.imp fun _ _ he => he.whole, ?_⟩
    induction h with
    | nil => exact nofun
    | cons hv _ ih => exact List.forall_mem_cons.mpr ⟨hv.not_cutEntry, ih⟩
  · rintro ⟨h, hcut⟩
    induction h with
    | nil => exact .nil
    | cons hv _ ih =>
      obtain ⟨hfirst, hrest⟩ := List.forall_mem_cons.mp hcut
      exact .cons (hv.stands hfirst) (ih hrest)

/-- Users that come in the same sequence are those of the same entries. -/
theorem users_eq_iff {ps qs : List Entry} (hp : ps.Perm es) (hq : qs.Perm es)
    (hnodup : (es.map Prod.snd).Nodup) : ps.map Prod.snd = qs.map Prod.snd ↔ ps = qs := by
  refine ⟨fun h => ?_, fun h => congrArg _ h⟩
  have hlength : ps.length = qs.length := hp.length_eq.trans hq.length_eq.symm
  refine List.ext_getElem hlength fun i hi hi' => ?_
  refine List.inj_on_of_nodup_map hnodup (hp.subset (List.getElem_mem hi))
    (hq.subset (List.getElem_mem hi')) ?_
  have hat : (ps.map Prod.snd)[i]? = (qs.map Prod.snd)[i]? := by rw [h]
  simpa [hi, hi'] using hat

theorem documented_perm (es : List Entry) : (documented es).Perm es := by
  have hsplit := List.filter_append_perm (fun e : Entry => e.1.isNone) es
  simp only [Option.not_isNone] at hsplit
  exact ((sortBy_perm ..).append_left _).trans hsplit

/-- What is documented of the signers of a payload: a refusal, or the signers without an order as
they are given and then the others by their orders, which are integers. -/
def AsDocumented (data : Value) : Prop :=
  (∃ r, ofValue data = .error (.refused r) ∧
    (r.code = "SchemaDefinitionError" ∨ r.code = "DuplicateNameError")) ∨
  ∃ vs es s, data = .list vs ∧ ReadsAll Stands vs es ∧ ofValue data = .ok s ∧
    s.numbered.map Prod.snd = (documented es).map Prod.snd ∧
    s.numbered.map Prod.fst = List.range' 1 es.length

/-- The payloads that are not treated as documented. -/
inductive Stray : Value → Prop
  /-- An infinite order, or a user that has no text, is not refused. -/
  | breaks {before after : List Value} {v : Value} {es : List Entry}
    (hbefore : ReadsAll Taken before es) (hv : Breaks v) : Stray (.list (before ++ v :: after))
  /-- An order is cut to an integer. -/
  | cut {vs : List Value} {es : List Entry} {v : Value} (hes : ReadsAll Taken vs es)
    (hnodup : (es.map Prod.snd).Nodup) (hv : v ∈ vs) (hcut : CutEntry v) : Stray (.list vs)
  /-- An entry with an order gets ahead of one without. -/
  | ahead {vs : List Value} {es : List Entry} (hes : ReadsAll Taken vs es)
    (hnodup : (es.map Prod.snd).Nodup) (hahead : ¬ Apart es) : Stray (.list vs)

theorem asDocumented_list (hes : ReadsAll Taken vs es) (hnodup : (es.map Prod.snd).Nodup) :
    AsDocumented (.list vs) ↔ Apart es ∧ ∀ v ∈ vs, ¬ CutEntry v := by
  have hok := (ofValue_of_readsAll hes).1 hnodup
  have hsame : (sortBy Entry.key es).map Prod.snd = (documented es).map Prod.snd ↔ Apart es :=
    (users_eq_iff (sortBy_perm ..) (documented_perm es) hnodup).trans sortBy_key_eq_iff
  constructor
  · rintro (⟨r, hr, -⟩ | ⟨vs', es', s, hdata, hstands, hs, husers, -⟩)
    · cases hok.symm.trans hr
    · obtain rfl := Value.list.inj hdata
      obtain ⟨hes', hcut⟩ := readsAll_stands_iff.mp hstands
      obtain rfl := hes.unique hes'
      obtain rfl := Except.ok.inj (hok.symm.trans hs)
      rw [numbered_users] at husers
      exact ⟨hsame.mp husers, hcut⟩
  · rintro ⟨hapart, hcut⟩
    refine .inr ⟨vs, es, _, rfl, readsAll_stands_iff.mpr ⟨hes, hcut⟩, hok, ?_, ?_⟩
    · rw [numbered_users]
      exact hsame.mpr hapart
    · rw [numbered_orders, List.length_map, (sortBy_perm ..).length_eq]

/-- Signers are read from a payload as documented, unless the payload is a stray one. In any case
they are sorted by the integers that their orders are taken for, no order being taken for zero. -/
theorem asDocumented_iff (data : Value) :
    (AsDocumented data ↔ ¬ Stray data) ∧
    (∀ s, ofValue data = .ok s ↔ ∃ vs es, data = .list vs ∧ ReadsAll Taken vs es ∧
      (es.map Prod.snd).Nodup ∧ s = ⟨(sortBy Entry.key es).map Prod.snd⟩) ∧
    ((∃ m, ofValue data = .error (.misuse m)) ↔ ∃ before v after es,
      data = .list (before ++ v :: after) ∧ ReadsAll Taken before es ∧ Breaks v) := by
  refine ⟨⟨fun h hstray => ?_, fun h => ?_⟩, fun s => ofValue_eq_ok, ?_, ?_⟩
  · cases hstray with
    | @breaks before after v es hbefore hv =>
      have hbreaks : ∃ m, ofValue (.list (before ++ v :: after)) = .error (.misuse m) :=
        ofValue_breaks hbefore hv
      obtain ⟨m, hm⟩ := hbreaks
      rcases h with ⟨r, hr, -⟩ | ⟨_, _, s, -, -, hs, -⟩
      · cases hm.symm.trans hr
      · cases hm.symm.trans hs
    | cut hes hnodup hv hcut => exact ((asDocumented_list hes hnodup).mp h).2 _ hv hcut
    | ahead hes hnodup hahead => exact hahead ((asDocumented_list hes hnodup).mp h).1
  · cases hdata : ofValue data with
    | error e =>
      rcases ofValue_eq_error hdata with ⟨r, rfl, hr⟩ | ⟨before, v, after, es, m, rfl, hes, hv, -⟩
      · refine .inl ⟨r, hdata, ?_⟩
        rcases hr with hr | ⟨user, rfl⟩
        · exact .inl (code_of_refusals hr)
        · exact .inr rfl
      · exact absurd (.breaks hes hv) h
    | ok s =>
      obtain ⟨vs, es, rfl, hes, hnodup, -⟩ := ofValue_eq_ok.mp hdata
      refine (asDocumented_list hes hnodup).mpr ⟨?_, fun v hv hcut => h (.cut hes hnodup hv hcut)⟩
      exact by_contra fun hahead => h (.ahead hes hnodup hahead)
  · rintro ⟨m, hm⟩
    rcases ofValue_eq_error hm with ⟨r, hr, -⟩ | ⟨before, v, after, es, -, rfl, hes, hv, -⟩
    · cases hr
    · exact ⟨before, v, after, es, rfl, hes, hv⟩
  · rintro ⟨before, v, after, es, rfl, hes, hv⟩
    exact ofValue_breaks hes hv

/-- A payload of one signer who has a negative order and one who has none. -/
def negativeOrder : Value :=
  .list [.named [("userId", .text "a"), ("order", .int (-1))], .named [("userId", .text "b")]]

/-- The signer without an order comes second. -/
theorem negative_order_ahead : ofValue negativeOrder = .ok ⟨["a", "b"]⟩ ∧ ∃ vs,
    negativeOrder = .list vs ∧ ReadsAll Stands vs [(some (-1), "a"), (none, "b")] ∧
      (documented [(some (-1), "a"), (none, "b")]).map Prod.snd = ["b", "a"] := by
  have hsorted : [((-1 : Int), "a"), (0, "b")].mergeSort (fun a b => decide (a.1 ≤ b.1)) =
      [(-1, "a"), (0, "b")] := by simp [List.mergeSort]
  refine ⟨?_, _, rfl, ?_, ?_⟩
  · show List.foldlM _ _ (List.mergeSort [((-1 : Int), "a"), (0, "b")] _) = _
    rw [hsorted]
    rfl
  · exact .cons (.given ⟨rfl, rfl⟩ (.int (-1))) (.cons (.missing ⟨rfl, rfl⟩ rfl) .nil)
  · simp [documented, sortBy]

end

end DocForms.Signers
