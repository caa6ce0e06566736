import RecordStore.Proofs.Filter.Acceptance
import RecordStore.Proofs.Filter.Constructible

/-!
# `RecordStore.Proofs.Filter.Obtained`: what holds in every filter

A filter is obtained from `Filter.new`, from one of the helpers that call it, from a constructor
that needs no check, or from a description. All ways can be mixed, and filters that were obtained
in one way can be parts of one that is obtained in another. `Filter.new` checks what evaluation and
queries rely on, and no way leads around it: at every node the operator can be applied to the
node's field and operand.

* `constructible_of_build`: what is built of a description is made by `Filter.new`.
* `constructible_of_obtained`: so is every filter, whatever way it was obtained.
* `construction_exact`: what `Filter.new` makes of its arguments, and what holds at every node of
  every filter.
-/

set_option autoImplicit false

namespace RecordStore

/-! ### Descriptions -/

namespace Description

variable {s : Schema}

/-- A condition that is built is made by `Filter.new`. -/
theorem exists_new_of_buildLeaf {op : Operator} {field : Option String} {operand : Option Json}
    {f : Filter} (h : buildLeaf s op field operand = .ok f) :
    ∃ g? v?, Filter.new op g? v? [] = .ok f := by
  rw [buildLeaf] at h
  cases hfield : findField s field with
  | error e => simp only [hfield, reduceCtorEq] at h
  | ok g? =>
    cases hread : readValue g? operand with
    | error e => simp only [hfield, hread, reduceCtorEq] at h
    | ok v? =>
      refine ⟨g?, v?, ?_⟩
      cases hnew : Filter.new op g? v? [] with
      | error fault => simp only [hfield, hread, hnew, reduceCtorEq] at h
      | ok made => simpa only [hfield, hread, hnew, Except.ok.injEq] using h

/-- What is built of a description is made by `Filter.new`, and so are its parts. -/
theorem constructible_of_build (d : Description) {f : Filter} (h : d.build s = .ok f) :
    f.Constructible := by
  induction d using induct generalizing f with
  | mk field word operand filters ih =>
    by_cases hunknown : ∀ op : Operator, word ≠ op.word
    · rw [build_of_unknown hunknown] at h
      cases h
    · obtain ⟨op, rfl⟩ : ∃ op : Operator, word = op.word := by simpa using hunknown
      by_cases hop : op = .anyOf
      · subst hop
        rw [build_anyOf, map_eq_ok_iff] at h
        obtain ⟨fs, hfs, rfl⟩ := h
        refine Filter.constructible_anyOf fun g hg => ?_
        obtain ⟨d, hd, hbuild⟩ := exists_mem_of_forall₂ (buildAll_eq_ok_iff.mp hfs) hg
        exact ih d hd hbuild
      · rw [build_of_ne_anyOf hop] at h
        obtain ⟨g?, v?, hnew⟩ := exists_new_of_buildLeaf h
        exact Filter.constructible_of_new hnew

/-- What is built of a JSON value is built of the description that it is. -/
theorem exists_build_of_buildJson {raw : Json} {f : Filter} (h : buildJson s raw = .ok f) :
    ∃ d : Description, d.build s = .ok f := by
  rw [buildJson] at h
  cases hd : decode raw with
  | error fault => simp only [hd, reduceCtorEq] at h
  | ok d => exact ⟨d, by simpa only [hd] using h⟩

end Description

namespace Filter

/-! ### Ways to a filter -/

/-- The filters that can be obtained:

- `new`: what `Filter.new` makes of filters that were obtained before;
- `compared`: what the helpers for comparisons make;
- `present`, `anyOf`: what the constructors without a check make, the second of filters that were
  obtained before;
- `built`, `read`: what is built of a description and of one in JSON form. -/
inductive Obtained : Filter → Prop where
  | new {op : Operator} {field : Option Field} {value : Option Value} {filters : List Filter}
      {f : Filter} (parts : ∀ g ∈ filters, Obtained g)
      (made : Filter.new op field value filters = .ok f) : Obtained f
  | compared {helper : Field → Value → Except FilterFault Filter} {field : Field} {value : Value}
      {f : Filter} (known : helper ∈ [is, isNot, isOneOf, isNotOneOf, greaterThan, lessThan])
      (made : helper field value = .ok f) : Obtained f
  | present (negated : Bool) (field : Field) : Obtained (.present negated field)
  | anyOf {filters : List Filter} (parts : ∀ g ∈ filters, Obtained g) : Obtained (.anyOf filters)
  | built {s : Schema} {d : Description} {f : Filter} (made : d.build s = .ok f) : Obtained f
  | read {s : Schema} {raw : Json} {f : Filter} (made : Description.buildJson s raw = .ok f) :
      Obtained f

/-- The node is the filter itself or a node of one that it is a disjunction of. -/
inductive HasNode : Filter → Filter → Prop where
  | root (f : Filter) : HasNode f f
  | child {filters : List Filter} {g node : Filter} (mem : g ∈ filters) (below : HasNode g node) :
      HasNode (.anyOf filters) node

/-- The helpers for comparisons call `Filter.new`. -/
theorem exists_new_of_compared {helper : Field → Value → Except FilterFault Filter}
    (known : helper ∈ [is, isNot, isOneOf, isNotOneOf, greaterThan, lessThan]) (field : Field)
    (value : Value) : ∃ op, helper field value = Filter.new op (some field) (some value) [] := by
  simp only [List.mem_cons, List.not_mem_nil, or_false] at known
  rcases known with rfl | rfl | rfl | rfl | rfl | rfl
  · exact ⟨.is, rfl⟩
  · exact ⟨.isNot, rfl⟩
  · exact ⟨.isOneOf, rfl⟩
  · exact ⟨.isNotOneOf, rfl⟩
  · exact ⟨.greaterThan, rfl⟩
  · exact ⟨.lessThan, rfl⟩

/-- A filter is made by `Filter.new`, whatever way it was obtained. -/
theorem constructible_of_obtained {f : Filter} (h : f.Obtained) : f.Constructible := by
  -- The induction is on the last way that was taken. The parts were obtained before.
  induction h with
  | new _ made ih => exact .new ih made
  | compared known made =>
    obtain ⟨op, hop⟩ := exists_new_of_compared known _ _
    exact constructible_of_new (hop.symm.trans made)
  | present negated field => exact constructible_of_fits _ (by simp [leaves, fits])
  | anyOf _ ih => exact constructible_anyOf ih
  | built made => exact Description.constructible_of_build _ made
  | read made =>
    obtain ⟨d, hd⟩ := Description.exists_build_of_buildJson made
    exact Description.constructible_of_build d hd

/-! ### Nodes -/

/-- The nodes of a filter that can be made can be made. -/
theorem constructible_of_hasNode {f node : Filter} (h : f.Constructible) (hnode : f.HasNode node) :
    node.Constructible := by
  -- The induction follows the way down to the node, through disjunctions only.
  induction hnode with
  | root f => exact h
  | child hmem _ ih => exact ih (constructible_anyOf_iff.mp h _ hmem)

/-- The operator of a filter that can be made can be applied to its field and operand. -/
theorem takes_of_constructible {f : Filter} (h : f.Constructible) :
    f.operator.Takes f.field? f.value? := by
  cases h with
  | new _ made => exact takes_of_new made

/-- `Filter.new` makes a filter exactly if the operator can be applied to the field and the operand,
the filter has the parts that were given, and every failure is the operator's first fault. At every
node of every filter, whatever way it was obtained, the operator can be applied to the field and the
operand. -/
theorem construction_exact :
    (∀ (op : Operator) (field : Option Field) (value : Option Value) (filters : List Filter),
      ((∃ f, Filter.new op field value filters = .ok f) ↔ op.Takes field value) ∧
      (∀ f, Filter.new op field value filters = .ok f → f.HasParts op field value filters) ∧
      ∀ e, (Filter.new op field value filters).mapError Error.invalidFilter = .error e ↔
        ∃ fault, e = .invalidFilter fault ∧ op.Refuses field value fault) ∧
    ∀ f : Filter, f.Obtained → ∀ node, f.HasNode node →
      node.operator.Takes node.field? node.value? := by
  refine ⟨fun op field value filters => ?_, fun f hf node hnode => ?_⟩
  · obtain ⟨hok, herror⟩ := new_decides op field value filters
    refine ⟨hok, fun f => hasParts_of_new, fun e => ?_⟩
    simp only [← herror]
    cases Filter.new op field value filters with
    | ok f => simp [Except.mapError]
    | error fault => simp [Except.mapError, eq_comm]
  · exact takes_of_constructible (constructible_of_hasNode (constructible_of_obtained hf) hnode)

/-- A bound from a helper and a list from a description, both under disjunctions, and a bound on a
field without an order. -/
theorem construction_exact_weather :
    let station : Field := ⟨"station", .scalar .string, none, some "station.keyword"⟩
    let celsius : Field := ⟨"celsius", .scalar .float, some "temp_c", none⟩
    let zero : Value := .float ⟨false, 0, by decide⟩
    let warm : Filter := .beyond .above celsius zero
    let known : Filter := .member false station [.string "Oslo"]
    (∃ f, Filter.new .greaterThan (some celsius) (some zero) [known] = .ok f) ∧
    warm.HasParts .greaterThan (some celsius) (some zero) [known] ∧
    (Filter.new .greaterThan (some station) none []).mapError Error.invalidFilter =
      .error (.invalidFilter (.unordered "station")) ∧
    warm.operator.Takes warm.field? warm.value? ∧
    known.operator.Takes known.field? known.value? := by
  intro station celsius zero warm known
  obtain ⟨hnew, hnodes⟩ := construction_exact
  obtain ⟨hok, hparts, -⟩ := hnew .greaterThan (some celsius) (some zero) [known]
  obtain ⟨-, -, herror⟩ := hnew .greaterThan (some station) none []
  have hknown : known.Obtained := by
    let oneOf : Description := .mk (some "station") Operator.isOneOf.word
      (some (.array [.string "Oslo"])) none
    exact .built (s := .weather) (d := oneOf) rfl
  have hmade : greaterThan celsius zero = .ok warm := rfl
  have hwarm : warm.Obtained := .compared (by simp) hmade
  have hboth : (anyOf [warm, anyOf [known]]).Obtained :=
    .anyOf (List.forall_mem_cons.mpr ⟨hwarm, List.forall_mem_singleton.mpr
      (.anyOf (List.forall_mem_singleton.mpr hknown))⟩)
  refine ⟨hok.mpr ⟨celsius, zero, rfl, rfl, by decide, by decide⟩, hparts warm rfl,
    (herror _).mpr ⟨_, rfl, .unordered rfl (by decide)⟩, ?_, ?_⟩
  · exact hnodes _ hboth warm (.child List.mem_cons_self (.root warm))
  · refine hnodes _ hboth known (.child (List.mem_cons_of_mem _ List.mem_cons_self) ?_)
    exact .child List.mem_cons_self (.root known)

end Filter

end RecordStore
