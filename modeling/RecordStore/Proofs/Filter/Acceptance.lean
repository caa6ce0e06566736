import RecordStore.Filter.Description
import RecordStore.Proofs.Entity.Build
import RecordStore.Proofs.Filter.Construction
import RecordStore.Proofs.Outcome
import RecordStore.Proofs.Value.Shape

/-!
# `RecordStore.Proofs.Filter.Acceptance`: which descriptions are filters

A description is checked in turn by the operators, the fields, the reader of values and
`Filter.new`. `Accepted` says of the description itself whether it passes all of them: its operand
has the right shape, and what is in it can be read. `Refused` names the first error of one that does
not.

* `accepts_of_takes`, `exists_takes_of_accepts`: an operand that can be read is one that the
  operator takes exactly if its JSON form has the right shape.
* `induct`: induction over the children of descriptions.
* `accepted_or_refused`: a description is either.
* `build_decides`: `Description.build` tells which.
-/

set_option autoImplicit false

namespace RecordStore

/-! ### Operands -/

/-- The operand of a description reads as the given operand of a filter; `null` and no operand are
none. -/
def Field.ReadsAs (f : Field) (operand : Option Json) (value : Option Value) : Prop :=
  match operand with
  | none => value = none
  | some raw => Value.ofJson f.type raw = .ok value

/-- The JSON value reads as some value of the field. -/
def Field.CanRead (f : Field) (raw : Json) : Prop :=
  ∃ v, Value.ofJson f.type raw = .ok (some v)

/-- The operator can be applied to the field and the operand of a description: an equality to one
value that the field can read, a membership to an array of such values that is not empty, a bound
to such a value if the field has an order, and a presence to anything that the field can read, to
`null` and to nothing. -/
def Operator.Accepts (op : Operator) (f : Field) (operand : Option Json) : Prop :=
  match op.kind with
  | .equality => ∃ raw, operand = some raw ∧ raw.IsSingle ∧ f.CanRead raw
  | .membership => ∃ raws, operand = some (.array raws) ∧ raws ≠ [] ∧
      ∀ raw ∈ raws, raw.IsSingle ∧ f.CanRead raw
  | .bound => f.IsOrdered ∧ ∃ raw, operand = some raw ∧ raw.IsSingle ∧ f.CanRead raw
  | .presence => operand = none ∨ operand = some .null ∨ ∃ raw, operand = some raw ∧ f.CanRead raw
  | .disjunction => False

/-- A single value that the field can read is read as one that it admits. -/
theorem Field.exists_admits_of_isSingle {f : Field} {raw : Json} (h : raw.IsSingle)
    (hread : f.CanRead raw) : ∃ v, f.ReadsAs (some raw) (some v) ∧ f.Admits v := by
  obtain ⟨v, hv⟩ := hread
  have hitem := Value.ofJson_eq_ok_some_iff.mp hv
  exact ⟨v, hv, Field.admits_iff.mpr ((Value.isScalar_iff_of_readItem hitem).mpr h)⟩

/-- What is read as a value that the field admits is a single value. -/
theorem Field.isSingle_of_admits {f : Field} {operand : Option Json} {v : Value}
    (hread : f.ReadsAs operand (some v)) (hv : f.Admits v) :
    ∃ raw, operand = some raw ∧ raw.IsSingle ∧ f.CanRead raw := by
  cases operand with
  | none => cases hread
  | some raw =>
    have hitem := Value.ofJson_eq_ok_some_iff.mp hread
    exact ⟨raw, rfl, (Value.isScalar_iff_of_readItem hitem).mp (Field.admits_iff.mp hv), v, hread⟩

/-- An array of single values that the field can read is read as a list of values that it
admits. -/
theorem Field.exists_admits_of_array {f : Field} {raws : List Json} (hne : raws ≠ [])
    (h : ∀ raw ∈ raws, raw.IsSingle ∧ f.CanRead raw) :
    ∃ vs, f.ReadsAs (some (.array raws)) (some (.list vs)) ∧ vs ≠ [] ∧ ∀ v ∈ vs, f.Admits v := by
  have hitems : ∀ raw ∈ raws, ∃ v, Value.readItem f.type.element raw = .ok v := by
    intro raw hraw
    obtain ⟨v, hv⟩ := (h raw hraw).2
    exact ⟨v, Value.ofJson_eq_ok_some_iff.mp hv⟩
  obtain ⟨vs, hvs⟩ := Value.exists_readItems_iff.mpr hitems
  have hscalars := (Value.areScalars_iff_of_readItems hvs).mpr fun raw hraw => (h raw hraw).1
  have hlength := (Value.readItems_eq_ok_iff.mp hvs).length_eq
  refine ⟨vs, Value.ofJson_eq_ok_some_iff.mpr (Value.readItem_array_eq_ok_iff.mpr ⟨vs, hvs, rfl⟩),
    ?_, fun v hv => Field.admits_iff.mpr (hscalars v hv)⟩
  intro hnil
  rw [hnil] at hlength
  exact hne (List.length_eq_zero_iff.mp hlength)

/-- What is read as a list of values that the field admits is an array of single values. -/
theorem Field.array_of_admits {f : Field} {operand : Option Json} {vs : List Value}
    (hread : f.ReadsAs operand (some (.list vs))) (hne : vs ≠ []) (hvs : ∀ v ∈ vs, f.Admits v) :
    ∃ raws, operand = some (.array raws) ∧ raws ≠ [] ∧
      ∀ raw ∈ raws, raw.IsSingle ∧ f.CanRead raw := by
  cases operand with
  | none => cases hread
  | some raw =>
    obtain ⟨raws, rfl, hraws⟩ :=
      Value.exists_array_of_readItem (Value.ofJson_eq_ok_some_iff.mp hread)
    have hlength := (Value.readItems_eq_ok_iff.mp hraws).length_eq
    have hsingle := (Value.areScalars_iff_of_readItems hraws).mp fun v hv =>
      Field.admits_iff.mp (hvs v hv)
    refine ⟨raws, rfl, ?_, fun raw hraw => ⟨hsingle raw hraw, ?_⟩⟩
    · intro hnil
      rw [hnil] at hlength
      exact hne (List.length_eq_zero_iff.mp hlength.symm)
    · obtain ⟨v, hv⟩ := Value.exists_readItems_iff.mp ⟨vs, hraws⟩ raw hraw
      exact ⟨v, Value.ofJson_eq_ok_some_iff.mpr hv⟩

/-- Only one operator makes disjunctions. -/
theorem Operator.kind_ne_disjunction {op : Operator} (h : op ≠ .anyOf) :
    op.kind ≠ .disjunction := by
  cases op with
  | anyOf => exact absurd rfl h
  | is | isNot | isOneOf | isNotOneOf | greaterThan | lessThan | present | absent => nofun

/-- What is read as an operand that the operator takes has a JSON form of the right shape. -/
theorem Operator.accepts_of_takes {op : Operator} (hop : op ≠ .anyOf) {f : Field}
    {operand : Option Json} {value : Option Value} (hread : f.ReadsAs operand value)
    (htakes : op.Takes (some f) value) : op.Accepts f operand := by
  unfold Takes at htakes
  unfold Accepts
  cases hk : op.kind with
  | equality =>
    rw [hk] at htakes
    obtain ⟨g, v, hg, rfl, hv⟩ := htakes
    cases hg
    exact Field.isSingle_of_admits hread hv
  | membership =>
    rw [hk] at htakes
    obtain ⟨g, vs, hg, rfl, hne, hvs⟩ := htakes
    cases hg
    exact Field.array_of_admits hread hne hvs
  | bound =>
    rw [hk] at htakes
    obtain ⟨g, v, hg, rfl, hordered, hv⟩ := htakes
    cases hg
    exact ⟨hordered, Field.isSingle_of_admits hread hv⟩
  | presence =>
    cases operand with
    | none => exact .inl rfl
    | some raw =>
      cases value with
      | none => exact .inr (.inl (congrArg some (Value.ofJson_eq_ok_none_iff.mp hread)))
      | some v => exact .inr (.inr ⟨raw, rfl, v, hread⟩)
  | disjunction => exact absurd hk (kind_ne_disjunction hop)

/-- What has a JSON form of the right shape is read as an operand that the operator takes. -/
theorem Operator.exists_takes_of_accepts {op : Operator} {f : Field} {operand : Option Json}
    (h : op.Accepts f operand) : ∃ value, f.ReadsAs operand value ∧ op.Takes (some f) value := by
  unfold Accepts at h
  unfold Takes
  cases hk : op.kind with
  | equality =>
    rw [hk] at h
    obtain ⟨raw, rfl, hsingle, hread⟩ := h
    obtain ⟨v, hv, hadmits⟩ := Field.exists_admits_of_isSingle hsingle hread
    exact ⟨some v, hv, f, v, rfl, rfl, hadmits⟩
  | membership =>
    rw [hk] at h
    obtain ⟨raws, rfl, hne, hraws⟩ := h
    obtain ⟨vs, hread, hne, hvs⟩ := Field.exists_admits_of_array hne hraws
    exact ⟨_, hread, f, vs, rfl, rfl, hne, hvs⟩
  | bound =>
    rw [hk] at h
    obtain ⟨hordered, raw, rfl, hsingle, hread⟩ := h
    obtain ⟨v, hv, hadmits⟩ := Field.exists_admits_of_isSingle hsingle hread
    exact ⟨some v, hv, f, v, rfl, rfl, hordered, hadmits⟩
  | presence =>
    rw [hk] at h
    rcases h with rfl | rfl | ⟨raw, rfl, v, hv⟩
    · exact ⟨none, rfl, f, rfl⟩
    · exact ⟨none, rfl, f, rfl⟩
    · exact ⟨some v, hv, f, rfl⟩
  | disjunction =>
    rw [hk] at h
    exact h.elim

/-! ### Descriptions -/

namespace Description

mutual

/-- What holds of each description if it holds of its children holds of all descriptions. -/
theorem induct {motive : Description → Prop}
    (mk : ∀ field word operand filters, (∀ d ∈ filters.getD [], motive d) →
      motive (.mk field word operand filters)) : (d : Description) → motive d
  | .mk field word operand none => mk field word operand none nofun
  | .mk field word operand (some ds) => mk field word operand (some ds) (inductAll mk ds)

/-- It then holds of each one in a list. -/
theorem inductAll {motive : Description → Prop}
    (mk : ∀ field word operand filters, (∀ d ∈ filters.getD [], motive d) →
      motive (.mk field word operand filters)) : (ds : List Description) → ∀ d ∈ ds, motive d
  | [] => nofun
  | d :: rest => List.forall_mem_cons.mpr ⟨induct mk d, inductAll mk rest⟩

end

/-- The description passes all checks:

- `disjunction`: all children do, and there may be none, whatever else it says;
- `condition`: its field is declared, and its operator accepts the operand for this field. -/
inductive Accepted (s : Schema) : Description → Prop where
  | disjunction {field : Option String} {operand : Option Json}
      {filters : Option (List Description)} (children : ∀ d ∈ filters.getD [], Accepted s d) :
      Accepted s (.mk field Operator.anyOf.word operand filters)
  | condition {name : String} {op : Operator} {operand : Option Json}
      {filters : Option (List Description)} {f : Field} (hop : op ≠ .anyOf)
      (declared : s.field? name = some f) (accepts : op.Accepts f operand) :
      Accepted s (.mk (some name) op.word operand filters)

/-- The first error of a description:

- `unknownOperator`: no operator has the word;
- `child`: the first child of a disjunction that is refused has this error;
- `unknownField`: the field is not declared;
- `unreadable`: the operand cannot be read for the field;
- `noField`: there is no field;
- `unfit`: the operator finds this fault in what was read. -/
inductive Refused (s : Schema) : Description → Error → Prop where
  | unknownOperator {field : Option String} {word : String} {operand : Option Json}
      {filters : Option (List Description)} (unknown : ∀ op : Operator, word ≠ op.word) :
      Refused s (.mk field word operand filters) (.unknownOperator word)
  | child {field : Option String} {operand : Option Json} {before : List Description}
      {d : Description} {after : List Description} {e : Error}
      (accepted : ∀ other ∈ before, Accepted s other) (refused : Refused s d e) :
      Refused s (.mk field Operator.anyOf.word operand (some (before ++ d :: after))) e
  | unknownField {name : String} {op : Operator} {operand : Option Json}
      {filters : Option (List Description)} (hop : op ≠ .anyOf)
      (undeclared : s.field? name = none) :
      Refused s (.mk (some name) op.word operand filters) (.unknownField s.name name)
  | unreadable {name : String} {op : Operator} {raw : Json} {filters : Option (List Description)}
      {f : Field} {e : Error} (hop : op ≠ .anyOf) (declared : s.field? name = some f)
      (unread : Value.ofJson f.type raw = .error e) :
      Refused s (.mk (some name) op.word (some raw) filters) e
  | noField {op : Operator} {operand : Option Json} {filters : Option (List Description)}
      (hop : op ≠ .anyOf) :
      Refused s (.mk none op.word operand filters) (.invalidFilter (.noField op))
  | unfit {name : String} {op : Operator} {operand : Option Json}
      {filters : Option (List Description)} {f : Field} {value : Option Value}
      {fault : FilterFault} (hop : op ≠ .anyOf) (declared : s.field? name = some f)
      (reads : f.ReadsAs operand value) (refuses : op.Refuses (some f) value fault) :
      Refused s (.mk (some name) op.word operand filters) (.invalidFilter fault)

variable {s : Schema}

/-- The operand of a condition can be read, and its operator takes it or not, or it cannot be
read. -/
theorem condition_accepted_or_refused {op : Operator} (hop : op ≠ .anyOf)
    (field : Option String) (operand : Option Json) (filters : Option (List Description)) :
    Accepted s (.mk field op.word operand filters) ∨
      ∃ e, Refused s (.mk field op.word operand filters) e := by
  cases field with
  | none => exact .inr ⟨_, .noField hop⟩
  | some name =>
    cases hf : s.field? name with
    | none => exact .inr ⟨_, .unknownField hop hf⟩
    | some f =>
      have hread : (∃ value, f.ReadsAs operand value) ∨
          ∃ raw e, operand = some raw ∧ Value.ofJson f.type raw = .error e := by
        cases operand with
        | none => exact .inl ⟨none, rfl⟩
        | some raw =>
          cases hraw : Value.ofJson f.type raw with
          | ok value => exact .inl ⟨value, hraw⟩
          | error e => exact .inr ⟨raw, e, rfl, hraw⟩
      rcases hread with ⟨value, hvalue⟩ | ⟨raw, e, rfl, hraw⟩
      · rcases op.takes_or_refuses (some f) value with htakes | ⟨fault, hrefuses⟩
        · exact .inl (.condition hop hf (op.accepts_of_takes hop hvalue htakes))
        · exact .inr ⟨_, .unfit hop hf hvalue hrefuses⟩
      · exact .inr ⟨e, .unreadable hop hf hraw⟩

/-- A description passes all checks or has a first error. -/
theorem accepted_or_refused (d : Description) : d.Accepted s ∨ ∃ e, d.Refused s e := by
  induction d using induct with
  | mk field word operand filters ih =>
    cases hword : Operator.ofWord? word with
    | none =>
      refine .inr ⟨_, .unknownOperator fun op heq => ?_⟩
      rw [heq, Operator.ofWord?_word] at hword
      cases hword
    | some op =>
      rw [Operator.eq_word_of_ofWord? hword]
      -- Only a disjunction looks at its children.
      by_cases hop : op = .anyOf
      · subst hop
        rcases all_or_first ih with hall | ⟨before, d, after, e, hfilters, hbefore, hd⟩
        · exact .inl (.disjunction hall)
        · cases filters with
          | none => cases before <;> cases hfilters
          | some ds =>
            cases hfilters
            exact .inr ⟨e, .child hbefore hd⟩
      · exact condition_accepted_or_refused hop field operand filters

/-! ### Building -/

/-- A word that stands for no operator is reported. -/
theorem build_of_unknown {field : Option String} {word : String} {operand : Option Json}
    {filters : Option (List Description)} (h : ∀ op : Operator, word ≠ op.word) :
    build s (.mk field word operand filters) = .error (.unknownOperator word) := by
  have hword : Operator.ofWord? word = none := by
    cases hop : Operator.ofWord? word with
    | none => rfl
    | some op => exact absurd (Operator.eq_word_of_ofWord? hop) (h op)
  cases filters <;> simp only [build, hword]

/-- A disjunction is built of its children alone. -/
theorem build_anyOf (field : Option String) (operand : Option Json)
    (filters : Option (List Description)) :
    build s (.mk field Operator.anyOf.word operand filters) =
      (buildAll s (filters.getD [])).map .anyOf := by
  cases filters with
  | none => simp only [build, Operator.ofWord?_word]; rfl
  | some ds =>
    simp only [build, Operator.ofWord?_word, Option.getD_some]
    cases buildAll s ds <;> rfl

/-- A condition is built of all but its children. -/
theorem build_of_ne_anyOf {op : Operator} (hop : op ≠ .anyOf) (field : Option String)
    (operand : Option Json) (filters : Option (List Description)) :
    build s (.mk field op.word operand filters) = buildLeaf s op field operand := by
  cases op with
  | anyOf => exact absurd rfl hop
  | is | isNot | isOneOf | isNotOneOf | greaterThan | lessThan | present | absent =>
    simp only [build, Operator.ofWord?_word]

/-- A condition whose operand can be read is what `Filter.new` makes of it. -/
theorem buildLeaf_of_reads {name : String} {op : Operator} {operand : Option Json} {f : Field}
    {value : Option Value} (declared : s.field? name = some f) (reads : f.ReadsAs operand value) :
    buildLeaf s op (some name) operand =
      (Filter.new op (some f) value []).mapError Error.invalidFilter := by
  have hread : readValue (some f) operand = .ok value := by
    cases operand with
    | none =>
      cases reads
      rfl
    | some raw => exact reads
  simp only [buildLeaf, findField, declared, hread]
  cases Filter.new op (some f) value [] <;> rfl

/-- Filters are built of descriptions one by one. -/
theorem buildAll_eq_ok_iff {ds : List Description} {fs : List Filter} :
    buildAll s ds = .ok fs ↔ List.Forall₂ (fun d f => build s d = .ok f) ds fs := by
  induction ds generalizing fs with
  | nil => rw [buildAll, Except.ok.injEq, List.forall₂_nil_left_iff, eq_comm]
  | cons d rest ih =>
    rw [buildAll, List.forall₂_cons_left_iff]
    simp only [← ih]
    cases build s d with
    | error e => simp
    | ok f =>
      cases buildAll s rest with
      | error e => simp
      | ok gs =>
        constructor
        · intro h
          cases h
          exact ⟨f, gs, rfl, rfl, rfl⟩
        · rintro ⟨_, _, ⟨⟩, ⟨⟩, rfl⟩
          rfl

/-- The first description of which no filter can be built decides the error of all. -/
theorem buildAll_of_first {before : List Description} {d : Description} {e : Error}
    (hbefore : ∀ other ∈ before, ∃ f, build s other = .ok f) (hd : build s d = .error e)
    (after : List Description) : buildAll s (before ++ d :: after) = .error e := by
  induction before with
  | nil => simp only [List.nil_append, buildAll, hd]
  | cons other rest ih =>
    obtain ⟨f, hf⟩ := hbefore other List.mem_cons_self
    have hrest := ih fun other hother => hbefore other (List.mem_cons_of_mem _ hother)
    simp only [List.cons_append, buildAll, hf, hrest]

/-- A description that passes all checks is a filter. -/
theorem exists_build_of_accepted {d : Description} (h : d.Accepted s) :
    ∃ f, d.build s = .ok f := by
  -- The induction is on how the description passes: the children of a disjunction have passed.
  induction h with
  | disjunction children ih =>
    obtain ⟨fs, hfs⟩ := exists_forall₂_iff.mpr ih
    exact ⟨.anyOf fs, by rw [build_anyOf, buildAll_eq_ok_iff.mpr hfs]; rfl⟩
  | condition hop declared accepts =>
    obtain ⟨value, hread, htakes⟩ := Operator.exists_takes_of_accepts accepts
    obtain ⟨f, hf, -⟩ := Filter.new_of_takes htakes []
    exact ⟨f, by rw [build_of_ne_anyOf hop, buildLeaf_of_reads declared hread, hf]; rfl⟩

/-- A description that does not pass is refused with its first error. -/
theorem build_of_refused {d : Description} {e : Error} (h : d.Refused s e) :
    d.build s = .error e := by
  -- The induction is on the error: that of a disjunction is the error of a child.
  induction h with
  | unknownOperator unknown => exact build_of_unknown unknown
  | child accepted _ ih =>
    have hbefore := fun other hother => exists_build_of_accepted (accepted other hother)
    rw [build_anyOf, Option.getD_some, buildAll_of_first hbefore ih]
    rfl
  | unknownField hop undeclared =>
    simp only [build_of_ne_anyOf hop, buildLeaf, findField, undeclared]
  | unreadable hop declared unread =>
    simp only [build_of_ne_anyOf hop, buildLeaf, findField, declared, readValue, unread]
  | @noField op _ _ hop =>
    have hrefuses : op.Refuses none none _ := .noField (Operator.kind_ne_disjunction hop)
    simp only [build_of_ne_anyOf hop, buildLeaf, findField, readValue,
      Filter.new_of_refuses hrefuses]
  | unfit hop declared reads refuses =>
    rw [build_of_ne_anyOf hop, buildLeaf_of_reads declared reads, Filter.new_of_refuses refuses]
    rfl

/-- A filter is built of a description exactly if the description passes all checks, and the error
of any other is its first. Where the operand cannot be read, that error is a mismatch or a text
that is no date-time. A disjunction is built of its children alone, and a condition of all but its
children. -/
theorem build_decides (s : Schema) :
    (∀ d : Description, ((∃ f, d.build s = .ok f) ↔ d.Accepted s) ∧
      ∀ e, d.build s = .error e ↔ d.Refused s e) ∧
    (∀ type raw e, Value.ofJson type raw = .error e → Value.IsReadError e) ∧
    (∀ field field' operand operand' filters,
      build s (.mk field Operator.anyOf.word operand filters) =
        build s (.mk field' Operator.anyOf.word operand' filters)) ∧
    ∀ field word operand filters filters', word ≠ Operator.anyOf.word →
      build s (.mk field word operand filters) = build s (.mk field word operand filters') := by
  refine ⟨fun d => ?_, fun type raw e => Value.isReadError_of_ofJson, ?_, ?_⟩
  · exact exists_outcome_iff (accepted_or_refused d) exists_build_of_accepted
      fun e => build_of_refused
  · intro field field' operand operand' filters
    rw [build_anyOf, build_anyOf]
  · intro field word operand filters filters' hword
    by_cases hunknown : ∀ op : Operator, word ≠ op.word
    · rw [build_of_unknown hunknown, build_of_unknown hunknown]
    · obtain ⟨op, rfl⟩ : ∃ op : Operator, word = op.word := by simpa using hunknown
      have hop : op ≠ .anyOf := fun h => hword (congrArg _ h)
      rw [build_of_ne_anyOf hop, build_of_ne_anyOf hop]

/-- A station that is one of two, under a disjunction that says more than it needs to; the same
with a list in place of a station, which is the first of two errors; and a condition with a child,
which nobody asks for. -/
theorem build_decides_weather :
    let oneOf : List Json → Description := fun raws =>
      .mk (some "station") Operator.isOneOf.word (some (.array raws)) none
    let either : List Description → Description := fun ds =>
      .mk (some "depth") Operator.anyOf.word (some (.array [.null])) (some ds)
    let known : List Description → Description := fun ds =>
      .mk (some "station") Operator.present.word none (some ds)
    (∃ f, (either [oneOf [.string "Oslo", .bool true]]).build .weather = .ok f) ∧
    (either [oneOf [.string "Oslo", .array []], .mk none "between" none none]).build .weather =
      .error (.invalidFilter (.wrongType (.list []) .string)) ∧
    Value.IsReadError (.mismatch (.nullItem .string)) ∧
    (known [either []]).build .weather = (known []).build .weather := by
  intro oneOf either known
  obtain ⟨hdecides, hread, -, hchildren⟩ := build_decides .weather
  refine ⟨(hdecides _).1.mpr ?_, ((hdecides _).2 _).mpr ?_, ?_, ?_⟩
  · refine .disjunction (List.forall_mem_singleton.mpr ?_)
    refine .condition (by decide) rfl ⟨_, rfl, by simp, ?_⟩
    simp only [List.forall_mem_cons]
    exact ⟨⟨⟨nofun, nofun⟩, _, rfl⟩, ⟨⟨nofun, nofun⟩, _, rfl⟩, nofun⟩
  · let station : Field := ⟨"station", .scalar .string, none, some "station.keyword"⟩
    have hrefuses : Operator.isOneOf.Refuses (some station)
        (some (.list ([.string "Oslo"] ++ .list [] :: []))) _ :=
      .item rfl (by decide) (by decide)
    exact @Refused.child _ _ _ [] _ _ _ nofun (.unfit (by decide) rfl rfl hrefuses)
  · exact hread (.list .string) (.array [.null]) _ rfl
  · exact hchildren _ _ _ _ _ (by decide)

end Description

end RecordStore
