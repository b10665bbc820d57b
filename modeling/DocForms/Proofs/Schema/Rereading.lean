import DocForms.Proofs.Registry.Parsing
import DocForms.Proofs.Schema.Canonical
import DocForms.Proofs.Schema.Payload
import DocForms.Proofs.Submission.Instances

/-! Options and rules that have been parsed are written back as payloads, and a payload is parsed
again when its field changes. Rules, choices and link options are read as what they were. So are
payloads that a kind does not interpret, unless they are texts: these are taken for JSON again. -/
namespace DocForms
variable {kind : FieldKind} {raw data : Value} {field : Option String}

/-! ### Choices and link options -/

theorem Choice.ofValue_toValue (c : Choice) (field : Option String) :
    Choice.ofValue field c.toValue = .ok c := rfl

theorem choices_reread (cs : List Choice) (field : Option String) :
    (cs.map Choice.toValue).mapM (Choice.ofValue field) = .ok cs := by
  induction cs with
  | nil => rfl
  | cons c cs ih =>
    rw [List.map_cons, List.mapM_cons, ih, Choice.ofValue_toValue]
    rfl

theorem LinkOptions.toValue_untargeted (t : LinkType) :
    LinkOptions.toValue ⟨none, t⟩ = .named [("linkType", .text t.name)] := rfl

theorem LinkOptions.toValue_targeted {target : String} (h : target ≠ "") (t : LinkType) :
    LinkOptions.toValue ⟨some target, t⟩ =
      .named [("linkType", .text t.name), ("targetDocumentTypeId", .text target)] := by
  rw [toValue]
  dsimp only
  rw [if_neg h]

theorem linkOptionsShape_meets {es : List (String × Value)}
    (hlink : ∀ v, es.lookup "linkType" = some v → ∃ t : LinkType, v = .text t.name)
    (htarget : ∀ v, es.lookup "targetDocumentTypeId" = some v → ∃ s, v = .text s) :
    linkOptionsShape.Meets (.named es) := by
  refine List.forall_mem_cons.mpr ⟨rfl, List.forall_mem_singleton.mpr ?_⟩
  rw [Value.named, Shape.met_properties]
  refine List.forall_mem_cons.mpr ⟨fun v hv => ?_, List.forall_mem_singleton.mpr fun v hv => ?_⟩
  · obtain ⟨s, rfl⟩ := htarget v ((Entries.lookup?_ofNames ..).symm.trans hv)
    exact List.forall_mem_singleton.mpr rfl
  · obtain ⟨t, rfl⟩ := hlink v ((Entries.lookup?_ofNames ..).symm.trans hv)
    refine List.forall_mem_singleton.mpr (Shape.met_oneOf.mpr ⟨.text t.name, ?_, ?_⟩)
    · cases t <;> decide
    · simp [Shape.listed, Value.same, Atom.same]

/-- Link options are read as what they were, unless they have an empty target. -/
theorem LinkOptions.ofValue_toValue {o : LinkOptions} (h : o.target ≠ some "")
    (field : Option String) : LinkOptions.ofValue field o.toValue = .ok o := by
  obtain ⟨target, t⟩ := o
  cases target with
  | none =>
    have hmeets : linkOptionsShape.Meets (.named [("linkType", .text t.name)]) :=
      linkOptionsShape_meets (fun v hv => ⟨t, (Option.some.inj hv).symm⟩) nofun
    rw [toValue_untargeted, ofValue.eq_def, Shape.report_eq_none.mpr hmeets]
    show Except.ok (LinkOptions.mk none ((LinkType.ofName? t.name).getD .reference)) = _
    rw [LinkType.ofName?_name]
    rfl
  | some target =>
    have htarget : target ≠ "" := fun he => h (congrArg some he)
    have hmeets : linkOptionsShape.Meets
        (.named [("linkType", .text t.name), ("targetDocumentTypeId", .text target)]) :=
      linkOptionsShape_meets (fun v hv => ⟨t, (Option.some.inj hv).symm⟩)
        fun v hv => ⟨target, (Option.some.inj hv).symm⟩
    rw [toValue_targeted htarget, ofValue.eq_def, Shape.report_eq_none.mpr hmeets]
    show Except.ok (LinkOptions.mk (if target = "" then none else some target)
      ((LinkType.ofName? t.name).getD .reference)) = _
    rw [if_neg htarget, LinkType.ofName?_name]
    rfl

/-! ### Options -/

/-- What options a decoded payload gives a field of a kind. -/
inductive Options.Given (field : Option String) : FieldKind → Value → Option Options → Prop
  | unrestricted : Given field .documentLink .null (some (.link {}))
  | link {data : Value} {o : LinkOptions} : data ≠ .null → LinkOptions.ofValue field data = .ok o →
      Given field .documentLink data (some (.link o))
  | none {kind : FieldKind} : kind ≠ .documentLink → Given field kind .null none
  | choices {entries : List Value} {cs : List Choice} :
      entries.mapM (Choice.ofValue field) = .ok cs →
      Given field .select (.list entries) (some (.choices cs))
  | payload {kind : FieldKind} {data v : Value} : kind ≠ .documentLink → kind ≠ .select →
      data ≠ .null → data.canonical? = some v → data.hasText = true →
      Given field kind data (some (.payload v))

theorem Options.parse_eq_ok {o : Option Options} : Options.parse kind raw field = .ok o ↔
    ∃ data, decodePayload (.optionsNotJson field) raw = .ok data ∧ Given field kind data o := by
  rw [Options.parse, bind_eq_ok]
  refine exists_congr fun data => and_congr_right fun _ => ?_
  constructor
  · intro h
    split at h
    · obtain rfl := pure_eq_ok.mp h
      exact .unrestricted
    · rename_i hnull
      obtain ⟨o, ho, h⟩ := bind_eq_ok.mp h
      obtain rfl := pure_eq_ok.mp h
      exact .link hnull ho
    · rename_i hkind _
      obtain rfl := pure_eq_ok.mp h
      exact .none hkind
    · obtain ⟨cs, hcs, h⟩ := bind_eq_ok.mp h
      obtain rfl := pure_eq_ok.mp h
      exact .choices hcs
    · exact absurd h refuse_ne_ok
    · split at h
      · split at h
        · rename_i hlink hselect hnull _ _ _ v hv htext
          obtain rfl := pure_eq_ok.mp h
          exact .payload hlink hselect hnull hv htext
        · cases h
      · cases h
  · intro h
    cases h with
    | unrestricted => rfl
    | link hnull ho =>
      split
      · exact absurd rfl hnull
      · rw [ho]
        rfl
      all_goals simp_all
    | none hkind => split <;> simp_all [pure, Except.pure]
    | choices hcs =>
      show (do return some (Options.choices (← _)) : Except Fault (Option Options)) = _
      rw [hcs]
      rfl
    | payload hlink hselect hnull hv htext => split <;> simp_all [pure, Except.pure]

/-- Options that their own payload gives again: a payload that is kept must be in canonical form,
and it must not be a text. -/
def Options.Settled : Options → Prop
  | .payload v => (∀ s, v ≠ .text s) ∧ v.canonical? = some v
  | _ => True

theorem Value.eq_of_canonical?_atom {v : Value} {a : Atom} (h : v.canonical? = some (.atom a)) :
    v = .atom a := by
  cases v with
  | atom b =>
    cases b with
    | date | moment => cases h
    | null | bool | int | float | text => exact Option.some.inj h
  | link => cases h
  | list vs =>
    obtain ⟨ws, -, hws⟩ := Option.map_eq_some_iff.mp h
    cases hws
  | record es =>
    obtain ⟨es', -, h⟩ := Option.bind_eq_some_iff.mp h
    obtain ⟨es'', -, h⟩ := Option.bind_eq_some_iff.mp h
    obtain ⟨ws, -, hws⟩ := Option.map_eq_some_iff.mp h
    cases hws

/-- A text is decoded to something else: to nothing, or to what it is the JSON of. -/
theorem decodePayload_text_ne {defect : Json.Defect → Refusal} {s : String} :
    decodePayload defect (.text s) ≠ .ok (.text s) := by
  intro h
  unfold decodePayload at h
  dsimp only at h
  split at h
  · cases h
  · split at h
    · rename_i v hv
      obtain rfl := Except.ok.inj h
      exact Json.read_ne_self s hv
    · split at h
      · cases h
      · exact absurd h refuse_ne_ok

/-- Options are read from their own payload as what they were when they are settled, and only
then. -/
theorem Options.reread_iff {o : Options} (h : Options.parse kind raw field = .ok (some o))
    (field' : Option String) : Options.parse kind o.toValue field' = .ok (some o) ↔ o.Settled := by
  obtain ⟨data, -, hgiven⟩ := parse_eq_ok.mp h
  cases hgiven with
  | unrestricted =>
    have hread := LinkOptions.ofValue_toValue (o := {}) nofun field'
    exact iff_of_true (parse_eq_ok.mpr ⟨_, rfl, .link nofun hread⟩) trivial
  | @link _ l _ ho =>
    have hread := LinkOptions.ofValue_toValue (LinkOptions.target_ne_empty ho) field'
    exact iff_of_true (parse_eq_ok.mpr ⟨_, rfl, .link nofun hread⟩) trivial
  | @choices _ cs _ =>
    have hread := choices_reread cs field'
    exact iff_of_true (parse_eq_ok.mpr ⟨_, rfl, .choices hread⟩) trivial
  | @payload _ _ v hlink hselect hnull hv htext =>
    show Options.parse kind v field' = .ok (some (.payload v)) ↔ _
    constructor
    · intro hread
      obtain ⟨data', hdecode, hgiven⟩ := parse_eq_ok.mp hread
      cases hgiven with
      | payload _ _ _ hv' _ =>
        have htexts : ∀ s, v ≠ .text s := by
          rintro s rfl
          rw [Value.eq_of_canonical?_atom hv'] at hdecode
          exact decodePayload_text_ne hdecode
        rw [decodePayload_of_decoded _ htexts] at hdecode
        obtain rfl := Except.ok.inj hdecode
        exact ⟨htexts, hv'⟩
    · rintro ⟨htexts, hcanonical⟩
      have hsome : v ≠ .null := by
        rintro rfl
        exact hnull (Value.eq_of_canonical?_atom hv)
      exact parse_eq_ok.mpr ⟨v, decodePayload_of_decoded _ htexts,
        .payload hlink hselect hsome hcanonical (Value.canonical?_hasText data hv htext)⟩

theorem decodePayload_isJson {defect : Json.Defect → Refusal} (hraw : raw.IsJson)
    (h : decodePayload defect raw = .ok data) : data.IsJson := by
  unfold decodePayload at h
  split at h
  · split at h
    · obtain rfl := Except.ok.inj h
      exact .atom rfl
    · split at h
      · rename_i v hv
        obtain rfl := Except.ok.inj h
        exact Json.read_isJson hv
      · split at h
        · cases h
        · exact absurd h refuse_ne_ok
  · obtain rfl := Except.ok.inj h
    exact hraw

/-- What is read from JSON is settled unless it is a text. -/
theorem Options.settled_of_json {o : Options} (hraw : raw.IsJson)
    (h : Options.parse kind raw field = .ok (some o)) :
    o.Settled ↔ ∀ s, o ≠ .payload (.text s) := by
  obtain ⟨data, hdecode, hgiven⟩ := parse_eq_ok.mp h
  cases hgiven with
  | unrestricted | link | choices => exact iff_of_true trivial nofun
  | @payload _ _ v _ _ _ hv _ =>
    obtain ⟨w, hw, hcanonical⟩ := (decodePayload_isJson hraw hdecode).canonical
    obtain rfl := Option.some.inj (hw.symm.trans hv)
    constructor
    · rintro ⟨htexts, -⟩ s hs
      exact htexts s (Options.payload.inj hs)
    · intro htexts
      exact ⟨fun s hs => htexts s (congrArg Options.payload hs), hcanonical⟩

/-! ### Rules -/

namespace Rules

/-- A bound on a length: a number without fractional part that is not negative. -/
def IsLength (n : Number) : Prop := n.isInteger = true ∧ n.lt (.int 0) = false

/-- What a bound on a length has to look like. -/
abbrev lengthShape : Shape := [.type [.integer], .minimum (.int 0)]

/-- What is checked of rules before a field has them. -/
structure Accepted (r : Rules) : Prop where
  minLength : ∀ n, r.minLength = some n → IsLength n
  maxLength : ∀ n, r.maxLength = some n → IsLength n
  pattern : ∀ p, r.pattern = some p → Pattern.ofSource p.source = .ok p
  bounds : crossed r.minimum r.maximum = false
  lengths : crossed r.minLength r.maxLength = false
  given : r.isEmpty = false

theorem source_of_read {s : String} {p : Pattern} (h : Pattern.ofSource s = .ok p) :
    p.source = s := by
  unfold Pattern.ofSource at h
  cases hread : Pattern.read Text.namesOfLatin s with
  | error e => simp [hread, Except.map] at h
  | ok node =>
    rw [hread] at h
    obtain rfl := Except.ok.inj h
    rfl

theorem pattern_of_parsed {v : Value} {p : Pattern} (h : parsePattern field v = .ok (some p)) :
    Pattern.ofSource p.source = .ok p := by
  unfold parsePattern at h
  split at h
  · split at h
    · rename_i hread
      obtain rfl := Option.some.inj (Except.ok.inj h)
      rw [source_of_read hread]
      exact hread
    · exact absurd h refuse_ne_ok
    · cases h
    · cases h
  · cases h

theorem isLength_of_meets {v : Value} {n : Number}
    (h : lengthShape.Meets v) (hn : v.number? = some n) :
    IsLength n := by
  have htype := Shape.holds_of_met (h _ (.head _))
  have hminimum : Shape.ruleViolations true v (.minimum (.int 0)) = [] := h _ (.tail _ (.head _))
  rw [Shape.ruleViolations, hn] at hminimum
  refine ⟨by simpa [TypeName.holds, hn] using htype, ?_⟩
  by_contra hneg
  rw [Bool.not_eq_false] at hneg
  simp [hneg] at hminimum

theorem isLength_of_get {es : Entries} {name : String} {n : Number}
    {entries : List (String × Shape)} (h : Rules.shape.Meets (.record es))
    (hentries : .properties entries ∈ Rules.shape) (hname : (name, lengthShape) ∈ entries)
    (hn : (Entries.get es name).number? = some n) : IsLength n := by
  rw [Entries.get] at hn
  cases hv : Entries.get? es name with
  | none =>
    rw [hv] at hn
    cases hn
  | some v =>
    rw [hv] at hn
    exact isLength_of_meets (h.property hentries hname hv) hn

theorem accepted_of_parsed {r : Rules} (h : parse raw field = .ok (some r)) : r.Accepted := by
  obtain ⟨data, -, h⟩ := bind_eq_ok.mp h
  split at h
  · cases pure_eq_ok.mp h
  · obtain ⟨violation, hreport, h⟩ := bind_eq_ok.mp h
    split at h
    · exact absurd h refuse_ne_ok
    · have hmeets := Shape.report_eq_none.mp hreport
      obtain ⟨es, rfl⟩ := Shape.record_of_met (hmeets _ (.head _))
      obtain ⟨entries, hentries, h⟩ := bind_eq_ok.mp h
      obtain rfl := Except.ok.inj hentries
      obtain ⟨pattern, hpattern, h⟩ := bind_eq_ok.mp h
      dsimp only at h
      split at h
      · exact absurd h refuse_ne_ok
      · split at h
        · exact absurd h refuse_ne_ok
        · rename_i hbounds hlengths
          have hgiven := pure_eq_ok.mp h
          split at hgiven
          · cases hgiven
          · rename_i hempty
            obtain rfl := Option.some.inj hgiven
            have hproperties : .properties _ ∈ Rules.shape := .tail _ (.head _)
            exact {
              minLength := fun n hn =>
                isLength_of_get hmeets hproperties (.tail _ (.tail _ (.head _))) hn
              maxLength := fun n hn =>
                isLength_of_get hmeets hproperties (.tail _ (.tail _ (.tail _ (.head _)))) hn
              pattern := fun p hp => pattern_of_parsed (hpattern.trans (congrArg Except.ok hp))
              bounds := Bool.eq_false_iff.mpr hbounds
              lengths := Bool.eq_false_iff.mpr hlengths
              given := Bool.eq_false_iff.mpr hempty }

/-- A number stands under its own name, if it is given. -/
theorem lookup_numberEntry (name key : String) (n : Option Number) :
    (numberEntry name n).lookup key = if key = name then n.map Value.ofNumber else none := by
  cases n with
  | none => simp [numberEntry]
  | some n =>
    by_cases h : key = name
    · simp [numberEntry, h]
    · simp [numberEntry, h]

theorem number?_ofNumber (n : Number) : (Value.ofNumber n).number? = some n := by
  cases n <;> rfl

theorem meets_number (n : Number) : Shape.Meets [.type [.number]] (.ofNumber n) := by
  refine List.forall_mem_singleton.mpr (Shape.met_type.mpr ⟨_, .head _, ?_⟩)
  rw [TypeName.holds, number?_ofNumber]
  rfl

theorem meets_length {n : Number} (h : IsLength n) :
    lengthShape.Meets (.ofNumber n) := by
  refine List.forall_mem_cons.mpr ⟨Shape.met_type.mpr ⟨_, .head _, ?_⟩,
    List.forall_mem_singleton.mpr ?_⟩
  · rw [TypeName.holds, number?_ofNumber]
    exact h.1
  · simp [Shape.Met, Shape.ruleViolations, number?_ofNumber, h.2]

/-- The entries of rules. -/
theorem get?_toValue (r : Rules) : ∃ es, r.toValue = .record es ∧
    Entries.get? es "min" = r.minimum.map .ofNumber ∧
    Entries.get? es "max" = r.maximum.map .ofNumber ∧
    Entries.get? es "minLength" = r.minLength.map .ofNumber ∧
    Entries.get? es "maxLength" = r.maxLength.map .ofNumber ∧
    Entries.get? es "pattern" = r.pattern.map fun p => .text p.source := by
  refine ⟨_, rfl, ?_, ?_, ?_, ?_, ?_⟩
  all_goals
    rw [Entries.get?, Entries.lookup?_ofNames]
    cases r.pattern <;> simp [List.lookup_append, List.lookup_cons, lookup_numberEntry]

theorem Accepted.meets {r : Rules} (h : r.Accepted) : Rules.shape.Meets r.toValue := by
  obtain ⟨es, hes, hmin, hmax, hminLength, hmaxLength, hpattern⟩ := get?_toValue r
  rw [hes]
  refine List.forall_mem_cons.mpr ⟨rfl, List.forall_mem_singleton.mpr (Shape.met_properties.mpr ?_)⟩
  simp only [List.forall_mem_cons, List.not_mem_nil, false_imp_iff, implies_true, and_true,
    hmin, hmax, hminLength, hmaxLength, hpattern, Option.map_eq_some_iff]
  refine ⟨?_, ?_, ?_, ?_, ?_⟩
  · rintro w ⟨n, -, rfl⟩
    exact meets_number n
  · rintro w ⟨n, -, rfl⟩
    exact meets_number n
  · rintro w ⟨n, hn, rfl⟩
    exact meets_length (h.minLength n hn)
  · rintro w ⟨n, hn, rfl⟩
    exact meets_length (h.maxLength n hn)
  · rintro w ⟨p, -, rfl⟩
    exact List.forall_mem_singleton.mpr rfl

/-- Rules are read from their own payload as what they were. -/
theorem Accepted.parse_toValue {r : Rules} (h : r.Accepted) (field : Option String) :
    parse r.toValue field = .ok (some r) := by
  have hreport := Shape.report_eq_none.mpr h.meets
  obtain ⟨es, hes, hmin, hmax, hminLength, hmaxLength, hpattern⟩ := get?_toValue r
  rw [hes] at hreport ⊢
  have hnumber (o : Option Number) : ((o.map Value.ofNumber).getD .null).number? = o := by
    cases o with
    | none => rfl
    | some n => exact number?_ofNumber n
  have hread : parsePattern field (Entries.get es "pattern") = .ok r.pattern := by
    rw [Entries.get, hpattern]
    cases hp : r.pattern with
    | none => rfl
    | some p => simp [parsePattern, h.pattern p hp]
  show (Shape.report Rules.shape (.record es) >>= _) = _
  rw [hreport]
  show (parsePattern field (Entries.get es "pattern") >>= _) = _
  rw [hread]
  simp only [Entries.get, hmin, hmax, hminLength, hmaxLength, hnumber]
  show (if crossed r.minimum r.maximum = true then _ else
    if crossed r.minLength r.maxLength = true then _ else
      pure (if r.isEmpty = true then none else some r)) = _
  rw [h.bounds, h.lengths, h.given]
  rfl

end Rules

/-! ### Constraints -/

/-- The payload of options, which is missing without any. -/
def Options.payload? (o : Option Options) : Value := (o.map Options.toValue).getD .null

/-- The payload of rules, which is missing without any. -/
def Rules.payload? (r : Option Rules) : Value := (r.map Rules.toValue).getD .null

/-- Whatever is read from JSON is read from its own payload again, options as options and rules as
rules. Only a text that is kept as it is does not survive: it is taken for JSON once more. -/
theorem Constraints.reread (kind : FieldKind) (raw : Value) (hraw : raw.IsJson)
    (field field' : Option String) :
    (∀ o, Options.parse kind raw field = .ok o →
      (Options.parse kind (Options.payload? o) field' = .ok o ↔
        ∀ s, o ≠ some (.payload (.text s)))) ∧
    ∀ r, Rules.parse raw field = .ok (some r) → Rules.parse r.toValue field' = .ok (some r) := by
  refine ⟨fun o ho => ?_, fun r hr => (Rules.accepted_of_parsed hr).parse_toValue field'⟩
  cases o with
  | none =>
    refine iff_of_true ?_ nofun
    obtain ⟨data, -, hgiven⟩ := Options.parse_eq_ok.mp ho
    cases hgiven with
    | none hkind => exact Options.parse_eq_ok.mpr ⟨.null, rfl, .none hkind⟩
  | some o =>
    have hread := Options.reread_iff ho field'
    have hsettled := Options.settled_of_json hraw ho
    rw [show Options.payload? (some o) = o.toValue from rfl, hread, hsettled]
    exact forall_congr' fun s => not_congr (Option.some_inj).symm

/-- Entries that a kind keeps are put into the order of their names, and they stay so; as rules they
are read for their numbers. -/
theorem Constraints.reread_record :
    let raw : Value := .named [("min", .int 1), ("hint", .text "whole")]
    let kept : Value := .named [("hint", .text "whole"), ("min", .int 1)]
    let rules : Rules := { minimum := some (.int 1) }
    Options.parse .file raw none = .ok (some (.payload kept)) ∧
    Options.parse .file kept (some "scan") = .ok (some (.payload kept)) ∧
    Rules.parse (Rules.toValue rules) (some "scan") = .ok (some rules) := by
  intro raw kept rules
  have hraw : raw.IsJson := by
    refine .record (fun e he => ?_) fun e he => ?_
    · obtain ⟨named, -, rfl⟩ := List.mem_map.mp he
      exact ⟨named.1, rfl⟩
    · simp only [Entries.ofNames, List.map_cons, List.map_nil, List.mem_cons, List.not_mem_nil,
        or_false] at he
      rcases he with rfl | rfl <;> exact .atom rfl
  have hsorted : Entries.inOrder [("min", .int 1), ("hint", .text "whole")] =
      [("hint", .text "whole"), ("min", .int 1)] := by
    simp [Entries.inOrder, List.mergeSort]
  have hoptions : Options.parse .file raw none = .ok (some (.payload kept)) := by
    refine Options.parse_eq_ok.mpr ⟨raw, rfl,
      .payload (by decide) (by decide) (by decide) ?_ (by decide +kernel)⟩
    exact (Value.canonical?_named rfl).trans (congrArg (fun es => some (Value.named es)) hsorted)
  have hrules : Rules.parse raw none = .ok (some rules) := by decide +kernel
  have h := Constraints.reread .file raw hraw none (some "scan")
  have hkept (s : String) : some (Options.payload kept) ≠ some (.payload (.text s)) := by
    simp [kept, Value.named]
  exact ⟨hoptions, (h.1 _ hoptions).mpr hkept, h.2 _ hrules⟩

/-- A text that is written as JSON is kept without its quotation marks, and then it is no JSON any
more, or the JSON of something else. -/
theorem Constraints.misread_text :
    Options.parse .text (.text "\"plain\"") (some "note") =
      .ok (some (.payload (.text "plain"))) ∧
    Options.parse .text (Options.payload? (some (.payload (.text "plain")))) (some "note") =
      refuse (.optionsNotJson (some "note") .expectingValue) ∧
    Options.parse .text (.text "\"5\"") (some "note") = .ok (some (.payload (.text "5"))) ∧
    Options.parse .text (Options.payload? (some (.payload (.text "5")))) (some "note") =
      .ok (some (.payload (.int 5))) := by
  decide +kernel

end DocForms
