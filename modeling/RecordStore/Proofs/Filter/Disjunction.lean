import Mathlib.Tactic.Tauto
import RecordStore.Proofs.Entity.Build
import RecordStore.Proofs.Filter.Constructible
import RecordStore.Store.Memory

/-!
# `RecordStore.Proofs.Filter.Disjunction`: the alternatives of a filter

A disjunction offers the alternatives of all its parts, and a membership offers one equality for
each of its values. A filter holds if one of its alternatives does: some element is among the values
if some value is among the elements, also where there are no elements, where there are several, and
where an element is no number and differs from itself. A negated membership is the other way round:
it holds if each of the negated equalities does.

So nothing depends on the order of the parts and values, on how often they are given, and on how
disjunctions are nested; nor on the order and number of the filters that a store is asked for.

* `holds_iff_alternatives`: a filter and its alternatives.
* `holds_of_rearranged`, `constructible_of_rearranged`: filters that differ in order, number and
  nesting.
* `read_of_rearranged`: what a store lists for them.
* `alternatives_decide`: all of them.
-/

set_option autoImplicit false

namespace RecordStore.Filter

variable {e : Entity}

/-! ### Alternatives -/

mutual

/-- The conditions of which one must hold for the filter to hold, none of them a disjunction or a
membership: disjunctions are taken apart, and a value that is one of several is equal to one. -/
def alternatives : Filter → List Filter
  | .equal negated f v => [.equal negated f v]
  | .member false f vs => vs.map (.equal false f)
  | .member true f vs => [.member true f vs]
  | .beyond side f v => [.beyond side f v]
  | .present negated f => [.present negated f]
  | .anyOf fs => alternativesAll fs

/-- The alternatives of several filters. -/
def alternativesAll : List Filter → List Filter
  | [] => []
  | f :: rest => alternatives f ++ alternativesAll rest

end

/-- A membership holds if one of the equalities does. -/
theorem holds_member_iff {f : Field} {vs : List Value} :
    (member false f vs).holds e = true ↔ ∃ v ∈ vs, (equal false f v).holds e = true := by
  simp only [holds, Bool.false_bne, List.any_eq_true]
  -- Some element is equal to some value: which of the two is chosen first does not matter.
  constructor
  · rintro ⟨w, hw, v, hv, hsame⟩
    exact ⟨v, hv, w, hw, hsame⟩
  · rintro ⟨v, hv, w, hw, hsame⟩
    exact ⟨w, hw, v, hv, hsame⟩

/-- A negated membership holds if all of the negated equalities do. -/
theorem holds_member_negated_iff {f : Field} {vs : List Value} :
    (member true f vs).holds e = true ↔ ∀ v ∈ vs, (equal true f v).holds e = true := by
  have hnegated : ∀ v, (equal true f v).holds e = true ↔ ¬(equal false f v).holds e = true := by
    intro v
    simp only [holds, Bool.true_bne, Bool.false_bne, Bool.not_eq_true', Bool.not_eq_true]
  have hmember : (member true f vs).holds e = true ↔ ¬(member false f vs).holds e = true := by
    simp only [holds, Bool.true_bne, Bool.false_bne, Bool.not_eq_true', Bool.not_eq_true]
  simp only [hmember, holds_member_iff, hnegated, not_exists, not_and]

/-- A disjunction holds if one of its parts does. -/
theorem holds_anyOf_iff {fs : List Filter} :
    (anyOf fs).holds e = true ↔ ∃ f ∈ fs, f.holds e = true := by
  rw [holds, holdsAny_eq_any, List.any_eq_true]

mutual

/-- A filter holds if one of its alternatives does. -/
theorem holds_iff_alternatives (e : Entity) : (f : Filter) →
    (f.holds e = true ↔ ∃ leaf ∈ f.alternatives, leaf.holds e = true)
  | .equal _ _ _ => by simp only [alternatives, List.mem_singleton, exists_eq_left]
  | .member false _ _ => by
    rw [holds_member_iff]
    simp only [alternatives, List.mem_map, exists_exists_and_eq_and]
  | .member true _ _ => by simp only [alternatives, List.mem_singleton, exists_eq_left]
  | .beyond _ _ _ => by simp only [alternatives, List.mem_singleton, exists_eq_left]
  | .present _ _ => by simp only [alternatives, List.mem_singleton, exists_eq_left]
  | .anyOf fs => by
    rw [holds, alternatives]
    exact holdsAny_iff_alternatives e fs

/-- One of several filters holds if one of their alternatives does. -/
theorem holdsAny_iff_alternatives (e : Entity) : (fs : List Filter) →
    (holdsAny e fs = true ↔ ∃ leaf ∈ alternativesAll fs, leaf.holds e = true)
  | [] => by simp [holdsAny, alternativesAll]
  | f :: rest => by
    rw [holdsAny, Bool.or_eq_true, holds_iff_alternatives e f, holdsAny_iff_alternatives e rest,
      alternativesAll]
    simp only [List.mem_append, or_and_right, exists_or]

end

/-! ### Construction -/

/-- An equality can be made if its value fits. -/
theorem constructible_equal_iff {negated : Bool} {f : Field} {v : Value} :
    (equal negated f v).Constructible ↔ v.isScalar f.type.element = true := by
  simp only [constructible_iff, leaves, List.mem_singleton, forall_eq, fits]

/-- A membership can be made if there are values and all of them fit. -/
theorem constructible_member_iff {negated : Bool} {f : Field} {vs : List Value} :
    (member negated f vs).Constructible ↔
      (∃ v, v ∈ vs) ∧ ∀ v ∈ vs, v.isScalar f.type.element = true := by
  simp only [constructible_iff, leaves, List.mem_singleton, forall_eq, fits, Bool.and_eq_true,
    Bool.not_eq_true', List.isEmpty_eq_false_iff_exists_mem, List.all_eq_true]

mutual

/-- An alternative has no others than itself, and can be made if the filter can. -/
theorem alternatives_of_mem : (f : Filter) → ∀ leaf ∈ f.alternatives,
    leaf.alternatives = [leaf] ∧ (f.Constructible → leaf.Constructible)
  | .equal _ _ _, _, hleaf => by
    rw [List.mem_singleton.mp hleaf]
    exact ⟨rfl, id⟩
  | .member false _ _, _, hleaf => by
    obtain ⟨v, hv, rfl⟩ := List.mem_map.mp hleaf
    exact ⟨rfl, fun h => constructible_equal_iff.mpr ((constructible_member_iff.mp h).2 v hv)⟩
  | .member true _ _, _, hleaf => by
    rw [List.mem_singleton.mp hleaf]
    exact ⟨rfl, id⟩
  | .beyond _ _ _, _, hleaf => by
    rw [List.mem_singleton.mp hleaf]
    exact ⟨rfl, id⟩
  | .present _ _, _, hleaf => by
    rw [List.mem_singleton.mp hleaf]
    exact ⟨rfl, id⟩
  | .anyOf fs, leaf, hleaf => by
    obtain ⟨hself, hmade⟩ := alternativesAll_of_mem fs leaf hleaf
    exact ⟨hself, fun h => hmade (constructible_anyOf_iff.mp h)⟩

/-- An alternative of several filters has no others than itself, and can be made if all of them
can. -/
theorem alternativesAll_of_mem : (fs : List Filter) → ∀ leaf ∈ alternativesAll fs,
    leaf.alternatives = [leaf] ∧ ((∀ f ∈ fs, f.Constructible) → leaf.Constructible)
  | [], _, hleaf => nomatch hleaf
  | f :: rest, leaf, hleaf => by
    rcases List.mem_append.mp hleaf with hleaf | hleaf
    · obtain ⟨hself, hmade⟩ := alternatives_of_mem f leaf hleaf
      exact ⟨hself, fun h => hmade (h f List.mem_cons_self)⟩
    · obtain ⟨hself, hmade⟩ := alternativesAll_of_mem rest leaf hleaf
      exact ⟨hself, fun h => hmade fun g hg => h g (List.mem_cons_of_mem _ hg)⟩

end

/-! ### Order, number and nesting -/

/-- The filters differ in the order and the number of values and of parts, and in how disjunctions
are nested:

- `values`: memberships in the same values;
- `parts`: disjunctions of the same filters;
- `nested`: a disjunction among the parts of another, and its parts in its place;
- `single`: the disjunction of one filter, and the filter;
- `inside`: one part of a disjunction, that differs so itself. -/
inductive Rearranged : Filter → Filter → Prop where
  | values {negated : Bool} {f : Field} {vs ws : List Value} (same : ∀ v, v ∈ vs ↔ v ∈ ws) :
      Rearranged (.member negated f vs) (.member negated f ws)
  | parts {fs gs : List Filter} (same : ∀ f, f ∈ fs ↔ f ∈ gs) :
      Rearranged (.anyOf fs) (.anyOf gs)
  | nested (before inner after : List Filter) :
      Rearranged (.anyOf (before ++ .anyOf inner :: after)) (.anyOf (before ++ inner ++ after))
  | single (f : Filter) : Rearranged (.anyOf [f]) f
  | inside (before after : List Filter) {f g : Filter} (h : Rearranged f g) :
      Rearranged (.anyOf (before ++ f :: after)) (.anyOf (before ++ g :: after))
  | refl (f : Filter) : Rearranged f f
  | symm {f g : Filter} (h : Rearranged f g) : Rearranged g f
  | trans {f g k : Filter} (first : Rearranged f g) (second : Rearranged g k) : Rearranged f k

/-- Filters that differ in order, number and nesting hold alike. -/
theorem holds_of_rearranged {f g : Filter} (h : f.Rearranged g) :
    f.holds e = true ↔ g.holds e = true := by
  -- The induction is on how the filters differ; a disjunction looks at its parts as a set.
  induction h with
  | @values negated f vs ws same =>
    cases negated with
    | false => simp only [holds_member_iff, same]
    | true => simp only [holds_member_negated_iff, same]
  | parts same => simp only [holds_anyOf_iff, same]
  | nested before inner after =>
    simp only [holds_anyOf_iff, List.mem_append, List.mem_cons, or_and_right, exists_or,
      exists_eq_left, or_assoc]
  | single => simp only [holds_anyOf_iff, List.mem_singleton, exists_eq_left]
  | inside before after _ ih =>
    simp only [holds_anyOf_iff, List.mem_append, List.mem_cons, or_and_right, exists_or,
      exists_eq_left, ih]
  | refl => rfl
  | symm _ ih => exact ih.symm
  | trans _ _ first second => exact first.trans second

/-- Filters that differ in order, number and nesting can be made alike. -/
theorem constructible_of_rearranged {f g : Filter} (h : f.Rearranged g) :
    f.Constructible ↔ g.Constructible := by
  induction h with
  | values same => simp only [constructible_member_iff, same]
  | parts same => simp only [constructible_anyOf_iff, same]
  | nested before inner after =>
    simp only [constructible_anyOf_iff, List.forall_mem_append, List.forall_mem_cons, and_assoc]
  | single => simp only [constructible_anyOf_iff, List.forall_mem_singleton]
  | inside before after _ ih =>
    simp only [constructible_anyOf_iff, List.forall_mem_append, List.forall_mem_cons, ih]
  | refl => rfl
  | symm _ ih => exact ih.symm
  | trans _ _ first second => exact first.trans second

/-- Each filter of one list differs from one of the other in no more than order, number and
nesting. -/
def AllRearranged (fs gs : List Filter) : Prop :=
  (∀ f ∈ fs, ∃ g ∈ gs, f.Rearranged g) ∧ ∀ g ∈ gs, ∃ f ∈ fs, f.Rearranged g

/-- A store lists the same entities for filters that differ so, in any order and number. -/
theorem read_of_rearranged {fs gs : List Filter} (h : AllRearranged fs gs) (s : MemoryStore) :
    s.read fs = s.read gs := by
  obtain ⟨hfs, hgs⟩ := h
  refine List.filter_congr fun e _ => ?_
  rw [Bool.eq_iff_iff, List.all_eq_true, List.all_eq_true]
  -- Each filter of either list has a counterpart in the other one.
  constructor
  · intro hall g hg
    obtain ⟨f, hf, hfg⟩ := hgs g hg
    exact (holds_of_rearranged hfg).mp (hall f hf)
  · intro hall f hf
    obtain ⟨g, hg, hfg⟩ := hfs f hf
    exact (holds_of_rearranged hfg).mpr (hall g hg)

/-- A filter holds if one of its alternatives does, and these are conditions that can be made if the
filter can; a disjunction of nothing never holds. A negated membership holds if all of the negated
equalities do. Filters that differ in the order, the number and the nesting of what they are made of
hold alike, and a store lists the same entities for them, in whatever order and however often they
are given. -/
theorem alternatives_decide :
    (∀ (f : Filter) (e : Entity),
      f.holds e = true ↔ ∃ leaf ∈ f.alternatives, leaf.holds e = true) ∧
    (∀ (f : Filter), f.Constructible → ∀ leaf ∈ f.alternatives,
      leaf.alternatives = [leaf] ∧ leaf.Constructible) ∧
    (∀ e : Entity, (anyOf []).holds e = false) ∧
    (∀ (f : Field) (vs : List Value) (e : Entity),
      (member true f vs).holds e = true ↔ ∀ v ∈ vs, (equal true f v).holds e = true) ∧
    (∀ f g : Filter, f.Rearranged g →
      (f.Constructible ↔ g.Constructible) ∧ ∀ e : Entity, f.holds e = g.holds e) ∧
    ∀ (s : MemoryStore) (fs gs : List Filter), AllRearranged fs gs → s.read fs = s.read gs := by
  refine ⟨fun f e => holds_iff_alternatives e f, fun f hf leaf hleaf => ?_, fun e => rfl,
    fun f vs e => holds_member_negated_iff,
    fun f g h => ⟨constructible_of_rearranged h, fun e => ?_⟩,
    fun s fs gs h => read_of_rearranged h s⟩
  · obtain ⟨hself, hmade⟩ := alternatives_of_mem f leaf hleaf
    exact ⟨hself, hmade hf⟩
  · rw [Bool.eq_iff_iff]
    exact holds_of_rearranged h

/-- A record that has no number among its gusts, and one that has no gusts at all. -/
theorem alternatives_decide_no_number :
    let gusts : Field := ⟨"gusts", .list .float, none, none⟩
    let station : Field := ⟨"station", .scalar .string, none, some "station.keyword"⟩
    let calm : Value := .float (.zero true)
    let broken : Value := .float (.quietNaN false)
    let record := Entity.empty.put "gusts" (.list [broken, .float (.zero false)])
    let either : Filter := .anyOf [.anyOf [.member false gusts [broken, calm]],
      .present true station]
    let other : Filter := .anyOf [.present true station, .member false gusts [calm, broken, calm],
      .present true station]
    let store := MemoryStore.ofList [("silent", .silent), ("record", record)]
    either.holds record = true ∧
    (equal false gusts broken).Constructible ∧
    (∀ v ∈ [broken], (equal true gusts v).holds record = true) ∧
    (other.Constructible ∧ either.holds .silent = other.holds .silent) ∧
    store.read [either, .present false gusts] =
      store.read [.present false gusts, other, either] := by
  intro gusts station calm broken record either other store
  obtain ⟨hholds, hleaves, -, hnegated, hsame, hread⟩ := alternatives_decide
  have hrearranged : either.Rearranged other := by
    have hvalues : ∀ v, v ∈ [broken, calm] ↔ v ∈ [calm, broken, calm] := by
      intro v
      simp only [List.mem_cons, List.not_mem_nil]
      tauto
    have hparts : ∀ f, f ∈ [member false gusts [calm, broken, calm], present true station] ↔
        f ∈ [present true station, member false gusts [calm, broken, calm],
          present true station] := by
      intro f
      simp only [List.mem_cons, List.not_mem_nil]
      tauto
    -- The inner disjunction of one filter goes first, then its values and the parts are given anew.
    exact .trans (.inside [] [.present true station] (.trans (.single _) (.values hvalues)))
      (.parts hparts)
  have hmade : either.Constructible := by decide
  have hlists : AllRearranged [either, .present false gusts]
      [.present false gusts, other, either] := by
    constructor
    · exact List.forall_mem_cons.mpr ⟨⟨other, by simp, hrearranged⟩,
        List.forall_mem_singleton.mpr ⟨_, List.mem_cons_self, .refl _⟩⟩
    · exact List.forall_mem_cons.mpr ⟨⟨_, by simp, .refl _⟩, List.forall_mem_cons.mpr
        ⟨⟨either, by simp, hrearranged⟩, List.forall_mem_singleton.mpr ⟨either, by simp, .refl _⟩⟩⟩
  refine ⟨(hholds either record).mpr ⟨.equal false gusts calm, ?_, by decide⟩,
    (hleaves either hmade _ ?_).2, (hnegated gusts [broken] record).mp (by decide),
    ⟨(hsame either other hrearranged).1.mp hmade, (hsame either other hrearranged).2 _⟩,
    hread store _ _ hlists⟩
  · exact List.mem_cons_of_mem _ List.mem_cons_self
  · exact List.mem_cons_self

end RecordStore.Filter
