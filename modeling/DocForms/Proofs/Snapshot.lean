import DocForms.Proofs.Fault
import DocForms.Proofs.Value.Plain
import DocForms.Snapshot
import DocForms.Value.Held

/-! Snapshots that are written as payloads and read again. A snapshot holds kept copies of what it
is made of, and a payload holds loose ones in plain form, so nothing but the days, the moments and the
references changes between the two. -/
namespace DocForms

/-! ### Custody -/

namespace Held

-- the inductions are on the value together with its items and entries

mutual

theorem value_held (c : Custody) : (v : Value) → (v.held c).value = v
  | .atom _ => rfl
  | .link _ => rfl
  | .list items => congrArg Value.list (valueItems_held c items)
  | .record entries => congrArg Value.record (valueEntries_held c entries)

theorem valueItems_held (c : Custody) : (vs : List Value) →
    valueItems (Value.heldItems c vs) = vs
  | [] => rfl
  | v :: vs => by
    rw [Value.heldItems, valueItems, value_held c v, valueItems_held c vs]

theorem valueEntries_held (c : Custody) : (es : List (Atom × Value)) →
    valueEntries (Value.heldEntries c es) = es
  | [] => rfl
  | (k, v) :: es => by
    rw [Value.heldEntries, valueEntries, value_held c v, valueEntries_held c es]

end

mutual

/-- A frozen value is the same value, kept throughout. -/
theorem freeze_eq_held : (h : Held) → h.freeze = h.value.held .kept
  | .atom _ => rfl
  | .link _ => rfl
  | .list _ items => congrArg (Held.list .kept) (freezeItems_eq_held items)
  | .record _ entries => congrArg (Held.record .kept) (freezeEntries_eq_held entries)

theorem freezeItems_eq_held : (hs : List Held) →
    freezeItems hs = Value.heldItems .kept (valueItems hs)
  | [] => rfl
  | h :: hs => by
    rw [freezeItems, valueItems, Value.heldItems, freeze_eq_held h, freezeItems_eq_held hs]

theorem freezeEntries_eq_held : (es : List (Atom × Held)) →
    freezeEntries es = Value.heldEntries .kept (valueEntries es)
  | [] => rfl
  | (k, h) :: es => by
    rw [freezeEntries, valueEntries, Value.heldEntries, freeze_eq_held h, freezeEntries_eq_held es]

end

mutual

/-- A thawed value is the plain form of the value, loose throughout. -/
theorem thaw_eq_held : (h : Held) → h.thaw = h.value.plain.held .loose
  | .atom _ => rfl
  | .link _ => rfl
  | .list _ items => congrArg (Held.list .loose) (thawItems_eq_held items)
  | .record _ entries => congrArg (Held.record .loose) (thawEntries_eq_held entries)

theorem thawItems_eq_held : (hs : List Held) →
    thawItems hs = Value.heldItems .loose (Value.plainItems (valueItems hs))
  | [] => rfl
  | h :: hs => by
    rw [thawItems, valueItems, Value.plainItems, Value.heldItems, thaw_eq_held h,
      thawItems_eq_held hs]

theorem thawEntries_eq_held : (es : List (Atom × Held)) →
    thawEntries es = Value.heldEntries .loose (Value.plainEntries (valueEntries es))
  | [] => rfl
  | (k, h) :: es => by
    rw [thawEntries, valueEntries, Value.plainEntries, Value.heldEntries, thaw_eq_held h,
      thawEntries_eq_held es]

end

@[simp] theorem value_freeze (h : Held) : h.freeze.value = h.value := by
  rw [freeze_eq_held, value_held]

@[simp] theorem value_thaw (h : Held) : h.thaw.value = h.value.plain := by
  rw [thaw_eq_held, value_held]

theorem thaw_freeze (h : Held) : h.freeze.thaw = h.thaw := by
  rw [thaw_eq_held, value_freeze, ← thaw_eq_held]

theorem thaw_thaw (h : Held) : h.thaw.thaw = h.thaw := by
  rw [thaw_eq_held, value_thaw, Value.plain_plain, ← thaw_eq_held]

end Held

/-! ### Plain values -/

/-- A value that holds no day, no moment and no reference. -/
inductive Value.Portable : Value → Prop
  | atom {a : Atom} (hd : ∀ d, a ≠ .date d) (hm : ∀ m, a ≠ .moment m) : Portable (.atom a)
  | list {vs : List Value} (h : ∀ v ∈ vs, v.Portable) : Portable (.list vs)
  | record {es : Entries} (h : ∀ e ∈ es, e.2.Portable) : Portable (.record es)

namespace Value

theorem Portable.plain {v : Value} (h : v.Portable) : v.plain = v := by
  induction h with
  | @atom a hd hm =>
    cases a with
    | date d => exact absurd rfl (hd d)
    | moment m => exact absurd rfl (hm m)
    | _ => rfl
  | list _ ih =>
    rw [plain_list, List.map_congr_left ih, List.map_id']
  | @record es _ ih =>
    have hself : ∀ e ∈ es, (e.1, e.2.plain) = e := fun e he => Prod.ext rfl (ih e he)
    rw [plain_record, List.map_congr_left hself, List.map_id']

mutual

theorem portable_of_plain : {v : Value} → v.plain = v → v.Portable
  | .atom a, h => by
    refine .atom ?_ ?_ <;> rintro x rfl <;> cases h
  | .link l, h => by cases h
  | .list vs, h => .list (portableItems_of_plain (Value.list.inj h))
  | .record es, h => .record (portableEntries_of_plain (Value.record.inj h))

theorem portableItems_of_plain : {vs : List Value} → plainItems vs = vs → ∀ v ∈ vs, v.Portable
  | [], _ => by simp
  | v :: vs, h => by
    obtain ⟨hv, hvs⟩ := List.cons.inj h
    exact List.forall_mem_cons.mpr ⟨portable_of_plain hv, portableItems_of_plain hvs⟩

theorem portableEntries_of_plain : {es : List (Atom × Value)} → plainEntries es = es →
    ∀ e ∈ es, e.2.Portable
  | [], _ => by simp
  | (k, v) :: es, h => by
    obtain ⟨he, hes⟩ := List.cons.inj h
    exact List.forall_mem_cons.mpr
      ⟨portable_of_plain (Prod.mk.inj he).2, portableEntries_of_plain hes⟩

end

/-- The values that are their own plain form. -/
theorem plain_eq_self_iff {v : Value} : v.plain = v ↔ v.Portable :=
  ⟨portable_of_plain, Portable.plain⟩

theorem isTruthy_plain (v : Value) : v.plain.isTruthy = v.isTruthy := by
  cases v with
  | atom a =>
    cases a with
    | date d => simp [plain, Atom.plain, isTruthy, Iso.dateText, Iso.writeDate]
    | moment m => simp [plain, Atom.plain, isTruthy, Iso.momentText, Iso.writeMoment]
    | _ => rfl
  | link l => rfl
  | list vs => simp [plain_list, isTruthy]
  | record es => simp [plain_record, isTruthy]

end Value

/-! ### Payloads -/

namespace Snapshot
variable {simple groups : Value}

theorem orElse_plain_orElse (v : Value) :
    (v.orElse (.record [])).plain.orElse (.record []) = (v.orElse (.record [])).plain := by
  unfold Value.orElse
  by_cases hv : v.isTruthy = true
  · rw [if_pos hv, if_pos ((Value.isTruthy_plain v).trans hv)]
  · rw [if_neg hv]
    rfl

/-- What a part of a snapshot is made of, where a part that says nothing is empty. -/
def part (h : Held) : Held := if h.value.isTruthy then h else .record .loose []

theorem value_part (h : Held) : (part h).value = h.value.orElse (.record []) := by
  unfold part Value.orElse
  split <;> rfl

/-- A snapshot holds its parts frozen, and its payload holds them thawed. -/
theorem create_held (simple groups : Held) :
    let s := create simple.value groups.value
    s.simple.held .kept = (part simple).freeze ∧ s.groups.held .kept = (part groups).freeze ∧
      s.toValue = .named [("simple", (part simple).freeze.thaw.value),
        ("groups", (part groups).freeze.thaw.value)] := by
  intro s
  refine ⟨?_, ?_, ?_⟩
  · rw [Held.freeze_eq_held, value_part]
    rfl
  · rw [Held.freeze_eq_held, value_part]
    rfl
  · rw [Held.value_thaw, Held.value_thaw, Held.value_freeze, Held.value_freeze, value_part,
      value_part]
    rfl

/-- A snapshot is read again in plain form. -/
theorem ofValue_toValue (simple groups : Value) :
    ofValue (create simple groups).toValue =
      .ok ⟨(create simple groups).simple.plain, (create simple groups).groups.plain⟩ := by
  refine congrArg Except.ok (congrArg₂ Snapshot.mk ?_ ?_)
  · exact orElse_plain_orElse simple
  · exact orElse_plain_orElse groups

/-- A snapshot holds frozen copies of what it is made of, and its payload thawed copies of those. The
payload is read again. What is read gives the same payload and the same authored values, and it is the
snapshot itself just if that holds no day, no moment and no reference. Thawing once is enough, and it
does not matter whether the value was frozen before. -/
theorem payload_lossless (simple groups : Held) :
    let s := create simple.value groups.value
    (s.simple.held .kept = (part simple).freeze ∧ s.groups.held .kept = (part groups).freeze ∧
      s.toValue = .named [("simple", (part simple).freeze.thaw.value),
        ("groups", (part groups).freeze.thaw.value)]) ∧
    (∃ t, ofValue s.toValue = .ok t ∧ t.toValue = s.toValue ∧ t.toValues = s.toValues ∧
      (t = s ↔ s.simple.Portable ∧ s.groups.Portable) ∧
      (s.simple.Portable → s.groups.Portable → ∀ field group row,
        t.get field group row = s.get field group row)) ∧
    ((∃ es, s.simple = .record es) → (∃ es, s.groups = .record es) →
      ∃ values, s.toValues = .ok (.record values)) ∧
    ∀ h : Held, h.thaw.thaw = h.thaw ∧ h.freeze.thaw = h.thaw := by
  intro s
  have hiff : (⟨s.simple.plain, s.groups.plain⟩ : Snapshot) = s ↔
      s.simple.Portable ∧ s.groups.Portable := by
    rw [← Value.plain_eq_self_iff, ← Value.plain_eq_self_iff]
    constructor
    · exact Snapshot.mk.inj
    · rintro ⟨hsimple, hgroups⟩
      rw [hsimple, hgroups]
  refine ⟨create_held .., ⟨_, ofValue_toValue .., ?_, ?_, hiff, ?_⟩, ?_, fun h => ⟨h.thaw_thaw, h.thaw_freeze⟩⟩
  · rw [toValue, toValue, Value.plain_plain, Value.plain_plain]
  · rw [toValues, toValues, Value.plain_plain, Value.plain_plain]
  · intro hsimple hgroups field group row
    rw [hiff.mpr ⟨hsimple, hgroups⟩]
  · rintro ⟨es, hes⟩ ⟨es', hes'⟩
    rw [toValues, hes, hes', Value.plain_record, Value.plain_record]
    exact ⟨_, rfl⟩

/-- A kept list of rows inside of loose records. -/
def linesPart : Held :=
  .record .loose [(.text "lines", .list .kept [.record .loose [(.text "amount", .atom (.int 3))]])]

theorem payload_lossless_linesPart :
    (create Value.null linesPart.value).groups.held .kept = linesPart.freeze ∧
    ∃ t, ofValue (create Value.null linesPart.value).toValue = .ok t ∧
      t = create Value.null linesPart.value ∧
      t.get (.text "amount") (.text "lines") (.int 0) =
        (create Value.null linesPart.value).get (.text "amount") (.text "lines") (.int 0) ∧
      ∃ values, t.toValues = .ok (.record values) := by
  obtain ⟨⟨-, hheld, -⟩, ⟨t, hread, -, hvalues, hself, hget⟩, htotal, -⟩ :=
    payload_lossless (.atom .null) linesPart
  have hsimple : (create Value.null linesPart.value).simple.Portable :=
    Value.plain_eq_self_iff.mp rfl
  have hgroups : (create Value.null linesPart.value).groups.Portable :=
    Value.plain_eq_self_iff.mp rfl
  obtain ⟨values, hok⟩ := htotal ⟨_, rfl⟩ ⟨_, rfl⟩
  exact ⟨hheld, t, hread, hself.mpr ⟨hsimple, hgroups⟩, hget hsimple hgroups _ _ _, values,
    hvalues.trans hok⟩

end Snapshot
end DocForms
