import DocForms.Proofs.Registry.Forms

/-! The options and the rules of fields have been parsed, so a field never refers to a type without an
identifier. -/
namespace DocForms

theorem recordRefusal_eq_ok {α : Type} {strict : Bool} {own : Refusal → Bool}
    {x : Except Fault (Option α)} {a : α} {problems : List String}
    (h : recordRefusal strict own x = .ok (some a, problems)) : x = .ok (some a) := by
  unfold recordRefusal at h
  split at h
  · obtain ⟨rfl, -⟩ := Prod.mk.inj (Except.ok.inj h)
    rfl
  · split at h
    · cases (Prod.mk.inj (Except.ok.inj h)).1
    · cases h
  · cases h

/-- An empty text is not taken for a target. -/
theorem LinkOptions.target_ne_empty {field : Option String} {data : Value} {o : LinkOptions}
    (h : LinkOptions.ofValue field data = .ok o) : o.target ≠ some "" := by
  obtain ⟨violation, -, h⟩ := bind_eq_ok.mp h
  split at h
  · exact absurd h refuse_ne_ok
  · split at h
    · obtain rfl := Except.ok.inj h
      dsimp only
      split
      · split
        · simp
        · rename_i hne
          intro he
          exact hne (Option.some.inj he)
      · simp
    · obtain rfl := Except.ok.inj h
      simp

theorem Options.parse_link {kind : FieldKind} {raw : Value} {field : Option String} {o : LinkOptions}
    (h : Options.parse kind raw field = .ok (some (.link o))) : o.target ≠ some "" := by
  obtain ⟨data, -, h⟩ := bind_eq_ok.mp h
  split at h
  · obtain rfl := Options.link.inj (Option.some.inj (pure_eq_ok.mp h))
    nofun
  · obtain ⟨o', ho, h⟩ := bind_eq_ok.mp h
    obtain rfl := Options.link.inj (Option.some.inj (pure_eq_ok.mp h))
    exact LinkOptions.target_ne_empty ho
  · cases pure_eq_ok.mp h
  · obtain ⟨cs, -, h⟩ := bind_eq_ok.mp h
    cases Option.some.inj (pure_eq_ok.mp h)
  · exact absurd h refuse_ne_ok
  · split at h
    · split at h
      · cases Option.some.inj (pure_eq_ok.mp h)
      · cases h
    · cases h

theorem Field.Parsed.target_ne_empty {f : Field} (h : f.Parsed) : f.linkOptions.target ≠ some "" := by
  obtain ⟨strict, options, rules, h⟩ := h
  obtain ⟨⟨o, first⟩, ho, h⟩ := bind_eq_ok.mp h
  obtain ⟨⟨r, second⟩, -, h⟩ := bind_eq_ok.mp h
  have hoptions : o = f.options := congrArg Constraints.options (pure_eq_ok.mp h)
  rw [hoptions] at ho
  unfold linkOptions
  cases hf : f.options with
  | none => nofun
  | some options =>
    rw [hf] at ho
    cases options with
    | link l => exact Options.parse_link (recordRefusal_eq_ok ho)
    | choices => nofun
    | payload => nofun

namespace Registry
variable {r r' : Registry} {f : Field}

theorem parsed_change (hi : r.Identified) (hp : ∀ f ∈ r.fields, f.Parsed) (h : r.Change r') :
    ∀ f ∈ r'.fields, f.Parsed := by
  cases h with
  | putType | putGroup | orderGroups | putTemplate => exact hp
  | dropType | dropField | dropGroup => exact fun f hf => hp f (List.mem_filter.mp hf).1
  | putField f fits =>
    intro g hg
    rcases (mem_upsert hi.fields).mp hg with rfl | ⟨old, -⟩
    · exact fits.parsed
    · exact hp g old
  | orderFields order =>
    intro f hf
    obtain ⟨f₀, hf₀, rfl⟩ := List.mem_map.mp hf
    exact hp f₀ hf₀

theorem Reachable.parsed (h : Reachable r) : ∀ f ∈ r.fields, f.Parsed := by
  have hboth : r.Identified ∧ ∀ f ∈ r.fields, f.Parsed := by
    apply h.induct (P := fun r => r.Identified ∧ ∀ f ∈ r.fields, f.Parsed)
    · exact ⟨consistent_empty.identified, fun f hf => by cases hf⟩
    · rintro r r' ⟨hi, hp⟩ hchange
      exact ⟨hi.change hchange, parsed_change hi hp hchange⟩
  exact hboth.2

/-- The fields of a form, those of its groups too, are fields of the registry. -/
theorem getForm_places {id : String} {form : Form} {a : Address} (h : r.getForm id = .ok form)
    (hf : form.Places f a) : f ∈ r.fields := by
  obtain ⟨t, -, rfl⟩ := getForm_eq_ok h
  have scope {group : Option String} (hmem : f ∈ sortFields (r.scope id group)) : f ∈ r.fields :=
    (List.mem_filter.mp (mem_scope.mp hmem).1).1
  rcases hf with ⟨hmem, -⟩ | ⟨g, hg, hmem, -⟩
  · exact scope hmem
  · obtain ⟨g, -, rfl⟩ := List.mem_map.mp hg
    exact scope hmem

/-- No field of a form refers to a type without an identifier. -/
theorem getForm_target {id : String} {form : Form} {a : Address} (hr : Reachable r)
    (h : r.getForm id = .ok form) (hf : form.Places f a) : f.linkOptions.target ≠ some "" :=
  (hr.parsed f (getForm_places h hf)).target_ne_empty

end Registry
end DocForms
