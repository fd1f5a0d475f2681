import Meemee.Guarantees.ApprovalConstraints

/-!
# Constraints match as JSON values agree

`Same` says what it means for two JSON values to be equal: structure for structure, numbers by
their exact values, and a number that is not finite equal to nothing. The comparison of
`constraints_match` decides it, and the text in which a grant keeps its constraints changes no
answer.
-/
namespace Meemee.Guarantees.ApprovalMatching
open Source Source.Approvals List
open Source.DeviceProtocol (validateConstraints finiteJson finiteItems finiteFields)
open Guarantees.ApprovalConstraints
open Guarantees.JsonLoading (Loadable LoadableItems LoadableFields)

/-- Equal JSON values. Objects have the same names, each with equal values. -/
inductive Same : Json → Json → Prop where
  | null : Same .null .null
  | bool (value : Bool) : Same (.bool value) (.bool value)
  | str (text : String) : Same (.str text) (.str text)
  | number {a b : Json} {value : ℚ} (left : number a = some value) (right : number b = some value) :
      Same a b
  | arr {items others : List Json} (lengths : items.length = others.length)
      (each : ∀ (i : Nat) (a b : Json), items[i]? = some a → others[i]? = some b → Same a b) :
      Same (.arr items) (.arr others)
  | obj {fields others : List (String × Json)}
      (names : ∀ name, name ∈ fields.map Prod.fst ↔ name ∈ others.map Prod.fst)
      (each : ∀ name a b, (name, a) ∈ fields → (name, b) ∈ others → Same a b) :
      Same (.obj fields) (.obj others)

variable {a b left right : Json} {fields others : List (String × Json)}

theorem same_symm (same : Same a b) : Same b a := by
  induction same with
  | null => exact Same.null
  | bool value => exact Same.bool value
  | str text => exact Same.str text
  | number left right => exact Same.number right left
  | arr lengths _ ih => exact Same.arr lengths.symm (fun i a b here there => ih i b a there here)
  | obj names _ ih =>
    exact Same.obj (fun name => (names name).symm) (fun name a b here there => ih name b a there here)

theorem loadable_field {name : String} (loadable : LoadableFields fields)
    (mem : (name, a) ∈ fields) : Loadable a := by
  induction fields with
  | nil => cases mem
  | cons field rest ih =>
    rcases mem_cons.mp mem with rfl | later
    · exact loadable.1
    · exact ih loadable.2 later

theorem field_unique {name : String} (distinct : (fields.map Prod.fst).Nodup)
    (here : (name, a) ∈ fields) (there : (name, b) ∈ fields) : a = b :=
  congrArg Prod.snd (inj_on_of_nodup_map distinct here there rfl)

theorem lookup_iff {name : String} (distinct : (fields.map Prod.fst).Nodup) :
    fields.lookup name = some a ↔ (name, a) ∈ fields := by
  constructor
  · intro found
    obtain ⟨before, after, rfl, -⟩ := lookup_eq_some_iff.mp found
    simp
  · intro mem
    have named : (fields.lookup name).isSome = true :=
      lookup_isSome_iff.mpr ⟨(name, a), mem, by simp⟩
    obtain ⟨value, found⟩ := Option.isSome_iff_exists.mp named
    obtain ⟨before, after, split, -⟩ := lookup_eq_some_iff.mp found
    have listed : (name, value) ∈ fields := by rw [split]; simp
    rw [found, field_unique distinct mem listed]

theorem same_scalar (scalar : number left = none) (plain : ∀ items, left ≠ .arr items)
    (flat : ∀ fields, left ≠ .obj fields) (loadable : Loadable left) :
    sameScalar left right = true ↔ Same left right := by
  constructor
  · intro same
    cases left <;> cases right <;> simp only [sameScalar, decide_eq_true_eq, Bool.false_eq_true] at same
    · exact Same.null
    · rw [same]
      exact Same.bool _
    · rw [same]
      exact Same.str _
  · intro same
    cases same with
    | null => rfl
    | bool value => exact decide_eq_true rfl
    | str text => exact decide_eq_true rfl
    | number left right =>
      rw [scalar] at left
      cases left
    | arr lengths each => exact absurd rfl (plain _)
    | obj names each => exact absurd rfl (flat _)

theorem same_number {value : ℚ} (numeral : number left = some value) :
    decide (number right = some value) = true ↔ Same left right := by
  rw [decide_eq_true_eq]
  constructor
  · exact Same.number numeral
  · intro same
    cases same with
    | number here there =>
      rw [numeral] at here
      rw [there, here]
    | null | bool | str | arr | obj => cases numeral

mutual

theorem equal_iff : ∀ left right : Json, Loadable left → Loadable right →
    (equal left right = true ↔ Same left right)
  | .null, right, loadable, _ => same_scalar rfl (by simp) (by simp) loadable
  | .bool _, right, loadable, _ => same_scalar rfl (by simp) (by simp) loadable
  | .str _, right, loadable, _ => same_scalar rfl (by simp) (by simp) loadable
  | .float .nan, right, loadable, _ => same_scalar rfl (by simp) (by simp) loadable
  | .float (.infinity _), right, loadable, _ => same_scalar rfl (by simp) (by simp) loadable
  | .int _, right, _, _ => same_number rfl
  | .float (.finite _), right, _, _ => same_number rfl
  | .arr items, right, loadable, loadableRight => by
    cases right with
    | arr others =>
      refine (items_iff items others loadable loadableRight).trans ⟨?_, ?_⟩
      · rintro ⟨lengths, each⟩
        exact Same.arr lengths each
      · intro same
        cases same with
        | arr lengths each => exact ⟨lengths, each⟩
        | number here there => cases here
    | null | bool | int | float | str | obj | object =>
      constructor
      · intro same
        cases same
      · intro same
        cases same with
        | number here there => cases here
  | .obj fields, right, loadable, loadableRight => by
    cases right with
    | obj others =>
      change (sameNames fields others && equalFields fields others) = true ↔ _
      rw [Bool.and_eq_true, sameNames_iff,
        fields_iff fields others loadable.2 loadableRight.1 loadableRight.2]
      constructor
      · rintro ⟨names, each⟩
        refine Same.obj names (fun name a b here there => ?_)
        obtain ⟨other, listed, same⟩ := each name a here
        rw [field_unique loadableRight.1 there listed]
        exact same
      · intro same
        cases same with
        | obj names each =>
          refine ⟨names, fun name a here => ?_⟩
          obtain ⟨⟨found, b⟩, there, rfl⟩ :=
            mem_map.mp ((names name).mp (mem_map_of_mem here))
          exact ⟨b, there, each found a b here there⟩
        | number here there => cases here
    | null | bool | int | float | str | arr | object =>
      constructor
      · intro same
        cases same
      · intro same
        cases same with
        | number here there => cases here
  | .object _, _, loadable, _ => loadable.elim

theorem items_iff : ∀ items others : List Json, LoadableItems items → LoadableItems others →
    (equalItems items others = true ↔ items.length = others.length ∧
      ∀ (i : Nat) (a b : Json), items[i]? = some a → others[i]? = some b → Same a b)
  | [], [], _, _ => by simp [equalItems]
  | [], _ :: _, _, _ => by simp [equalItems]
  | _ :: _, [], _, _ => by simp [equalItems]
  | item :: rest, other :: more, loadable, loadableRight => by
    rw [equalItems, Bool.and_eq_true, equal_iff item other loadable.1 loadableRight.1,
      items_iff rest more loadable.2 loadableRight.2, length_cons, length_cons]
    constructor
    · rintro ⟨first, lengths, each⟩
      refine ⟨by omega, fun i a b here there => ?_⟩
      cases i with
      | zero =>
        cases here
        cases there
        exact first
      | succ i => exact each i a b here there
    · rintro ⟨lengths, each⟩
      exact ⟨each 0 item other rfl rfl, by omega, fun i a b here there => each (i + 1) a b here there⟩

theorem fields_iff : ∀ fields others : List (String × Json), LoadableFields fields →
    (others.map Prod.fst).Nodup → LoadableFields others → (equalFields fields others = true ↔
      ∀ name a, (name, a) ∈ fields → ∃ b, (name, b) ∈ others ∧ Same a b)
  | [], _, _, _, _ => by simp [equalFields]
  | (name, value) :: rest, others, loadable, distinct, loadableRight => by
    have here : (∃ other, others.lookup name = some other ∧ equal value other = true) ↔
        ∃ b, (name, b) ∈ others ∧ Same value b := by
      refine exists_congr (fun b => ?_)
      rw [lookup_iff distinct]
      exact and_congr_right (fun listed =>
        equal_iff value b loadable.1 (loadable_field loadableRight listed))
    rw [equalFields_iff, forall_mem_cons, here, ← equalFields_iff,
      fields_iff rest others loadable.2 distinct loadableRight]
    constructor
    · rintro ⟨first, more⟩ found a mem
      rcases mem_cons.mp mem with same | later
      · cases same
        exact first
      · exact more found a later
    · intro all
      exact ⟨all name value mem_cons_self,
        fun found a later => all found a (mem_cons_of_mem _ later)⟩

end

mutual

theorem same_refl : ∀ v : Json, Loadable v → finiteJson v = true → Same v v
  | .null, _, _ => Same.null
  | .bool value, _, _ => Same.bool value
  | .str text, _, _ => Same.str text
  | .int _, _, _ => Same.number rfl rfl
  | .float (.finite _), _, _ => Same.number rfl rfl
  | .arr items, loadable, finite => by
    refine Same.arr rfl (fun i a b here there => ?_)
    rw [here] at there
    cases there
    exact same_item items loadable finite a (mem_of_getElem? here)
  | .obj fields, loadable, finite => by
    refine Same.obj (fun _ => Iff.rfl) (fun name a b here there => ?_)
    rw [← field_unique loadable.1 here there]
    exact same_field fields loadable.2 finite name a here

theorem same_item : ∀ items : List Json, LoadableItems items → finiteItems items = true →
    ∀ a ∈ items, Same a a
  | [], _, _, _, mem => by cases mem
  | item :: rest, loadable, finite, a, mem => by
    rw [finiteItems, Bool.and_eq_true] at finite
    rcases mem_cons.mp mem with here | later
    · rw [here]
      exact same_refl item loadable.1 finite.1
    · exact same_item rest loadable.2 finite.2 a later

theorem same_field : ∀ fields : List (String × Json), LoadableFields fields →
    finiteFields fields = true → ∀ name a, (name, a) ∈ fields → Same a a
  | [], _, _, _, _, mem => by cases mem
  | (_, value) :: rest, loadable, finite, name, a, mem => by
    rw [finiteFields, Bool.and_eq_true] at finite
    rcases mem_cons.mp mem with here | later
    · cases here
      exact same_refl value loadable.1 finite.1
    · exact same_field rest loadable.2 finite.2 name a later

end

/-- Every constrained key is among the arguments with an equal value. -/
def Agrees (fields arguments : List (String × Json)) : Prop :=
  ∀ name a, (name, a) ∈ fields → ∃ b, (name, b) ∈ arguments ∧ Same a b

theorem matched_iff {arguments : List (String × Json)} (loadable : Loadable (.obj fields))
    (loadableArguments : Loadable (.obj arguments))
    (valid : validateConstraints (.obj fields) = .ok ()) :
    constraintsMatch (.obj fields) (.obj arguments) = true ↔ Agrees fields arguments := by
  have finite : finiteFields fields = true := by
    rcases validated_cases valid with none | ⟨others, same, finite⟩
    · cases none
    · cases same
      exact finite
  change (finiteFields fields && equalFields fields arguments) = true ↔ _
  rw [finite]
  exact fields_iff fields arguments loadable.2 loadableArguments.1 loadableArguments.2

theorem unequal_of_infinite {value : JsonFloat} (infinite : number (.float value) = none) (other : Json) :
    equal (.float value) other = false ∧ equal other (.float value) = false := by
  cases value with
  | finite repr => cases infinite
  | nan | infinity =>
    constructor
    · cases other <;> rfl
    · cases other with
      | float value => cases value <;> simp [equal, number, sameScalar]
      | null | bool | int | str | arr | obj | object => simp [equal, number, sameScalar]

theorem matched_of_more {added : List (String × Json)} {arguments : Json}
    (matched : constraintsMatch (.obj (fields ++ added)) arguments = true) :
    constraintsMatch (.obj fields) arguments = true := by
  simp only [constraintsMatch, Bool.and_eq_true, Option.any_eq_true, finiteFields_iff,
    equalFields_iff] at matched ⊢
  obtain ⟨finite, supplied, given, each⟩ := matched
  exact ⟨fun f mem => finite f (mem_append_left _ mem), supplied, given,
    fun f mem => each f (mem_append_left _ mem)⟩

/-- `constraints_match` is exact agreement of JSON values: it holds when each constrained key is
there with an equal value, equality is reflexive and symmetric on finite values and holds of no
other number, more constraints match less, and the stored text answers as the constraints do. -/
theorem constraints_exact (fields : List (String × Json)) (loadable : Loadable (.obj fields))
    (valid : validateConstraints (.obj fields) = .ok ()) :
    (∀ arguments, Loadable (.obj arguments) →
      (constraintsMatch (.obj fields) (.obj arguments) = true ↔ Agrees fields arguments)) ∧
    (∀ a b, Loadable a → Loadable b → (equal a b = true ↔ Same a b) ∧ equal a b = equal b a ∧
      (finiteJson a = true → equal a a = true)) ∧
    (∀ value other, number (.float value) = none →
      equal (.float value) other = false ∧ equal other (.float value) = false) ∧
    (∀ added arguments, constraintsMatch (.obj (fields ++ added)) arguments = true →
      constraintsMatch (.obj fields) arguments = true) ∧
    ∃ text read, SQLite.constraintText (.obj fields) = .ok text ∧
      SQLite.readConstraints text = .ok read ∧
      ∀ arguments, constraintsMatch read arguments = constraintsMatch (.obj fields) arguments := by
  refine ⟨fun arguments given => matched_iff loadable given valid, fun a b here there => ?_,
    fun value other infinite => unequal_of_infinite infinite other,
    fun added arguments matched => matched_of_more matched, ?_⟩
  · refine ⟨equal_iff a b here there, ?_, fun finite => ?_⟩
    · rw [Bool.eq_iff_iff, equal_iff a b here there, equal_iff b a there here]
      exact ⟨same_symm, same_symm⟩
    · exact (equal_iff a a here here).mpr (same_refl a here finite)
  · obtain ⟨text, written⟩ := constraints_written valid
    exact ⟨text, _, written, constraints_read loadable valid written,
      fun arguments => constraintsMatch_sorted _ arguments⟩

/-- A flag and a count. -/
def flagged : List (String × Json) := [("force", .bool true), ("count", .int 1)]

theorem flagged_loadable : Loadable (.obj flagged) := ⟨by decide, trivial, trivial, trivial⟩

theorem flagged_valid : validateConstraints (.obj flagged) = .ok () := rfl

/-- The number 1 is not the flag. -/
theorem flagged_exact : constraintsMatch (.obj flagged)
      (.obj [("force", .int 1), ("count", .int 1)]) = false ∧
    ∀ arguments, Loadable (.obj arguments) →
      (constraintsMatch (.obj flagged) (.obj arguments) = true ↔ Agrees flagged arguments) :=
  ⟨rfl, (constraints_exact flagged flagged_loadable flagged_valid).1⟩

end Meemee.Guarantees.ApprovalMatching
