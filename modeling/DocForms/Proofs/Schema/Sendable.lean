import DocForms.Proofs.Schema.Rereading
import DocForms.Service.Body
import DocForms.Template.Layout

/-! Payloads that requests can hold. What is parsed from such a payload is written back as one, and an
answer can carry it. -/
namespace DocForms
variable {kind : FieldKind} {raw data : Value} {field : Option String}

namespace Value

theorem isWritable_int {n : Int} : (int n).isWritable = true ↔ Decimal.Short n := by
  rw [isWritable, Atom.isWritable, Atom.hasText_int]
  nofun

theorem isSome_sorted? {es : Entries} (h : ∀ e ∈ es, e.1.isText = true) :
    (Entries.sorted? es).isSome = true := by
  have hnamed : ∀ e ∈ es, ∃ s, e.1 = .text s := by
    intro e he
    obtain ⟨k, v⟩ := e
    cases k with
    | text s => exact ⟨s, rfl⟩
    | _ => cases h _ he
  obtain ⟨ns, rfl⟩ := Entries.exists_ofNames hnamed
  rw [Entries.sorted?_ofNames, Option.isSome_some]

-- the inductions are on the value together with its items and entries

mutual

/-- An answer can carry what a request can hold. -/
theorem isWritable_of_sendable : (v : Value) → v.Sendable → v.isWritable = true
  | .atom a, h => by
    cases a with
    | date | moment => cases h
    | null | bool | float | text => rfl
    | int n => exact isWritable_int.mpr (sendable_int.mp h)
  | .link _, h => by cases h
  | .list vs, h => itemsWritable_of_sendable vs h
  | .record es, h => by
    have hkeys : ∀ e ∈ es, e.1.isText = true := fun e he => (entriesSendable_iff.mp h e he).1
    exact Bool.and_eq_true_iff.mpr ⟨isSome_sorted? hkeys, entriesWritable_of_sendable es h⟩

theorem itemsWritable_of_sendable : (vs : List Value) → itemsSendable vs = true →
    itemsWritable vs = true
  | [], _ => rfl
  | v :: vs, h => by
    obtain ⟨hv, hvs⟩ := Bool.and_eq_true_iff.mp h
    exact Bool.and_eq_true_iff.mpr ⟨isWritable_of_sendable v hv, itemsWritable_of_sendable vs hvs⟩

theorem entriesWritable_of_sendable : (es : Entries) → entriesSendable es = true →
    entriesWritable es = true
  | [], _ => rfl
  | (k, v) :: es, h => by
    obtain ⟨hkv, hes⟩ := Bool.and_eq_true_iff.mp h
    obtain ⟨hk, hv⟩ := Bool.and_eq_true_iff.mp hkv
    have hkey : k.isWritableKey = true := by
      cases k with
      | text s => rfl
      | _ => cases hk
    exact Bool.and_eq_true_iff.mpr ⟨Bool.and_eq_true_iff.mpr ⟨hkey, isWritable_of_sendable v hv⟩,
      entriesWritable_of_sendable es hes⟩

end

mutual

theorem canonical?_sendable : (v : Value) → {w : Value} → v.canonical? = some w → v.Sendable →
    w.Sendable
  | .atom a, w, h, hv => by
    cases a with
    | date | moment => cases h
    | null | bool | int | float | text =>
      obtain rfl := Option.some.inj h
      exact hv
  | .link _, w, h, _ => by cases h
  | .list vs, w, h, hv => by
    obtain ⟨ws, hws, rfl⟩ := Option.map_eq_some_iff.mp h
    exact canonicalItems?_sendable vs hws hv
  | .record es, w, h, hv => by
    obtain ⟨es', hes, h⟩ := Option.bind_eq_some_iff.mp h
    obtain ⟨sorted, hsorted, h⟩ := Option.bind_eq_some_iff.mp h
    obtain ⟨keyed, hkeyed, rfl⟩ := Option.map_eq_some_iff.mp h
    have hall := entriesSendable_iff.mp (canonicalEntries?_sendable es hes hv)
    refine entriesSendable_iff.mpr fun e he => ?_
    obtain ⟨e', he', hkey⟩ := mem_of_mapM_some hkeyed e he
    obtain ⟨k, -, rfl⟩ := Option.map_eq_some_iff.mp hkey
    exact ⟨rfl, (hall e' ((Entries.perm_of_sorted? hsorted).mem_iff.mp he')).2⟩

theorem canonicalItems?_sendable : (vs : List Value) → {ws : List Value} →
    canonicalItems? vs = some ws → itemsSendable vs = true → itemsSendable ws = true
  | [], ws, h, _ => by
    obtain rfl := Option.some.inj h
    rfl
  | v :: vs, ws, h, hv => by
    obtain ⟨w, hw, h⟩ := Option.bind_eq_some_iff.mp h
    obtain ⟨ws', hws, rfl⟩ := Option.map_eq_some_iff.mp h
    rw [itemsSendable, Bool.and_eq_true] at hv ⊢
    exact ⟨canonical?_sendable v hw hv.1, canonicalItems?_sendable vs hws hv.2⟩

theorem canonicalEntries?_sendable : (es : Entries) → {es' : Entries} →
    canonicalEntries? es = some es' → entriesSendable es = true → entriesSendable es' = true
  | [], es', h, _ => by
    obtain rfl := Option.some.inj h
    rfl
  | (k, v) :: es, es', h, hv => by
    obtain ⟨w, hw, h⟩ := Option.bind_eq_some_iff.mp h
    obtain ⟨es'', hes, rfl⟩ := Option.map_eq_some_iff.mp h
    rw [entriesSendable, Bool.and_eq_true, Bool.and_eq_true] at hv ⊢
    exact ⟨⟨hv.1.1, canonical?_sendable v hw hv.1.2⟩, canonicalEntries?_sendable es hes hv.2⟩

end

-- the plain form of what a request can hold is the value itself

mutual

theorem plain_of_sendable : (v : Value) → v.Sendable → v.plain = v
  | .atom a, h => by
    cases a with
    | date | moment => cases h
    | null | bool | int | float | text => rfl
  | .link _, h => by cases h
  | .list vs, h => congrArg Value.list (plainItems_of_sendable vs h)
  | .record es, h => congrArg Value.record (plainEntries_of_sendable es h)

theorem plainItems_of_sendable : (vs : List Value) → itemsSendable vs = true → plainItems vs = vs
  | [], _ => rfl
  | v :: vs, h => by
    obtain ⟨hv, hvs⟩ := Bool.and_eq_true_iff.mp h
    rw [plainItems, plain_of_sendable v hv, plainItems_of_sendable vs hvs]

theorem plainEntries_of_sendable : (es : Entries) → entriesSendable es = true →
    plainEntries es = es
  | [], _ => rfl
  | (k, v) :: es, h => by
    obtain ⟨hkv, hes⟩ := Bool.and_eq_true_iff.mp h
    rw [plainEntries, plain_of_sendable v (Bool.and_eq_true_iff.mp hkv).2,
      plainEntries_of_sendable es hes]

end

end Value

open Value

/-! ### Constraints -/

theorem decodePayload_sendable {defect : Json.Defect → Refusal} (hraw : raw.Sendable)
    (h : decodePayload defect raw = .ok data) : data.Sendable := by
  unfold decodePayload at h
  split at h
  · split at h
    · obtain rfl := Except.ok.inj h
      rfl
    · split at h
      · rename_i v hv
        obtain rfl := Except.ok.inj h
        exact Json.read_sendable hv
      · split at h
        · cases h
        · exact absurd h refuse_ne_ok
  · obtain rfl := Except.ok.inj h
    exact hraw

theorem sendable_linkOptions (o : LinkOptions) : o.toValue.Sendable := by
  obtain ⟨_ | target, t⟩ := o
  · rfl
  · rw [LinkOptions.toValue]
    dsimp only
    split <;> rfl

theorem Options.sendable_of_parse {o : Options} (hraw : raw.Sendable)
    (h : Options.parse kind raw field = .ok (some o)) : o.toValue.Sendable := by
  obtain ⟨data, hdecode, hgiven⟩ := parse_eq_ok.mp h
  cases hgiven with
  | unrestricted => rfl
  | link => exact sendable_linkOptions _
  | choices =>
    refine sendable_list.mpr fun v hv => ?_
    obtain ⟨c, -, rfl⟩ := List.mem_map.mp hv
    rfl
  | payload _ _ _ hv _ => exact canonical?_sendable data hv (decodePayload_sendable hraw hdecode)

theorem Rules.sendable_numberEntry {v : Value} (hv : v.Sendable) (name : String) :
    ∀ e ∈ numberEntry name v.number?, e.2.Sendable := by
  intro e he
  obtain ⟨n, hn, rfl⟩ := List.mem_map.mp he
  exact sendable_ofNumber hv (Option.mem_toList.mp hn)

/-- The numbers of rules are values of the payload that they are parsed from. -/
theorem Rules.sendable_of_parse {r : Rules} (hraw : raw.Sendable)
    (h : Rules.parse raw field = .ok (some r)) : r.toValue.Sendable := by
  obtain ⟨data, hdecode, h⟩ := bind_eq_ok.mp h
  have hdata := decodePayload_sendable hraw hdecode
  split at h
  · cases pure_eq_ok.mp h
  · obtain ⟨violation, -, h⟩ := bind_eq_ok.mp h
    split at h
    · exact absurd h refuse_ne_ok
    · obtain ⟨es, hes, h⟩ := bind_eq_ok.mp h
      obtain ⟨pattern, -, h⟩ := bind_eq_ok.mp h
      dsimp only at h
      split at h
      · exact absurd h refuse_ne_ok
      · split at h
        · exact absurd h refuse_ne_ok
        · have hgiven := pure_eq_ok.mp h
          split at hgiven
          · cases hgiven
          · obtain rfl := Option.some.inj hgiven
            obtain rfl := eq_record_of_entries hes
            have hnumber (name key : String) :=
              sendable_numberEntry (sendable_get hdata key) name
            refine sendable_named.mpr fun e he => ?_
            simp only [List.mem_append] at he
            rcases he with (((he | he) | he) | he) | he
            · exact hnumber _ _ e he
            · exact hnumber _ _ e he
            · exact hnumber _ _ e he
            · exact hnumber _ _ e he
            · obtain ⟨p, -, rfl⟩ := List.mem_map.mp he
              rfl

/-! ### Templates -/

theorem Template.sendable_toValue {t : Template} : t.toValue.Sendable ↔
    (marginsValue t.margins).Sendable ∧ (Value.list (plainItems t.sections)).Sendable := by
  rw [toValue, sendable_named]
  simp only [List.mem_append, List.mem_cons, List.not_mem_nil, or_false]
  constructor
  · intro h
    refine ⟨h _ (.inl (.inr (.inr (.inr rfl)))), ?_⟩
    cases hsections : t.sections with
    | nil => rfl
    | cons v vs => exact h ("sections", _) (.inr (by simp [hsections]))
  · rintro ⟨hmargins, hsections⟩ e ((rfl | rfl | rfl | rfl) | he)
    · rfl
    · rfl
    · rfl
    · exact hmargins
    · split at he
      · cases he
      · obtain rfl := List.mem_singleton.mp he
        exact hsections

theorem Template.sendable_defaultMargins : (marginsValue {}).Sendable := by
  have hside : (Value.int 20).Sendable :=
    sendable_int.mpr (Decimal.short_of_le (m := 2) (by decide) (by decide))
  refine sendable_named.mpr ?_
  simp only [List.forall_mem_cons, List.not_mem_nil, false_implies, implies_true, and_true]
  exact ⟨hside, hside, hside, hside⟩

theorem Template.sendable_margins {v : Value} (hv : v.Sendable) :
    (marginsValue (marginsOf v)).Sendable := by
  unfold marginsOf
  split
  · rename_i es
    have hside (name : String) : (Value.ofNumber
        (((Entries.get? es name).bind Value.number?).getD (.int 20))).Sendable := by
      cases hget : (Entries.get? es name).bind Value.number? with
      | none => exact sendable_int.mpr (Decimal.short_of_le (m := 2) (by decide) (by decide))
      | some n =>
        obtain ⟨w, hw, hn⟩ := Option.bind_eq_some_iff.mp hget
        exact sendable_ofNumber (sendable_get? hv hw) hn
    refine sendable_named.mpr ?_
    simp only [List.forall_mem_cons, List.not_mem_nil, false_implies, implies_true, and_true]
    exact ⟨hside "top", hside "right", hside "bottom", hside "left"⟩
  · exact sendable_defaultMargins

theorem Template.sendable_of_payload {t : Template} (hdata : data.Sendable)
    (h : Template.ofValue data = .ok t) : t.toValue.Sendable := by
  unfold Template.ofValue at h
  split at h
  · exact absurd h refuse_ne_ok
  · obtain ⟨es, hes, h⟩ := bind_eq_ok.mp h
    obtain rfl := pure_eq_ok.mp h
    obtain rfl := eq_record_of_entries hes
    refine sendable_toValue.mpr ⟨sendable_margins (sendable_get hdata "margins"), ?_⟩
    dsimp only
    split
    · rename_i vs hvs
      have hsections := sendable_get hdata "sections"
      rw [hvs] at hsections
      rwa [plainItems_of_sendable vs hsections]
    · rfl

end DocForms
