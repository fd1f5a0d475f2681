import Meemee.Guarantees.JsonLoading
import Meemee.Source.Approvals

/-!
# Constraints and their columns

Matching looks the names of an object up, so it does not see the order that `sort_keys` gives them.
The text column is read back as the constraints with their names in order.
-/
namespace Meemee.Guarantees.ApprovalConstraints
open Source Source.Approvals Source.DeviceProtocol Source.Json List
open Guarantees.JsonLoading (Loadable byName sortFields_eq loadable_sorted encode_written
  styleOf styleOf_readable loads_written)

variable {fields others : List (String × Json)}

theorem finiteFields_iff : finiteFields fields = true ↔ ∀ f ∈ fields, finiteJson f.2 = true := by
  induction fields with
  | nil => simp [finiteFields]
  | cons field rest ih => simp [finiteFields, ih]

theorem finiteFields_perm (shuffled : fields.Perm others) :
    finiteFields fields = finiteFields others := by
  rw [Bool.eq_iff_iff, finiteFields_iff, finiteFields_iff]
  exact forall_congr' (fun f => by rw [shuffled.mem_iff])

theorem sorted_perm (fields : List (String × Json)) :
    ((sortFields fields).insertionSort byName).Perm (sortFields fields) :=
  perm_insertionSort byName _

mutual

theorem finite_sorted : ∀ v : Json, finiteJson v.sortKeys = finiteJson v
  | .null | .bool _ | .int _ | .float _ | .str _ | .object _ => rfl
  | .arr items => finiteItems_sorted items
  | .obj fields => (finiteFields_perm (sorted_perm fields)).trans (finiteFields_sorted fields)

theorem finiteItems_sorted : ∀ items : List Json, finiteItems (sortItems items) = finiteItems items
  | [] => rfl
  | item :: rest => by
    rw [sortItems, finiteItems, finiteItems, finite_sorted item, finiteItems_sorted rest]

theorem finiteFields_sorted : ∀ fields : List (String × Json),
    finiteFields (sortFields fields) = finiteFields fields
  | [] => rfl
  | (_, value) :: rest => by
    rw [sortFields, finiteFields, finiteFields, finite_sorted value, finiteFields_sorted rest]

end

variable {constraints : Json} {text : Option String} {c : GrantCall} {expiry : Option Datetime}

theorem validated_cases (valid : validateConstraints constraints = .ok ()) :
    constraints = .null ∨ ∃ fields, constraints = .obj fields ∧ finiteFields fields = true := by
  cases constraints with
  | null => exact .inl rfl
  | obj fields =>
    refine .inr ⟨fields, rfl, ?_⟩
    rw [validateConstraints] at valid
    split at valid
    next finite => exact finite
    next => cases valid
  | bool | int | float | str | arr | object => cases valid

theorem equalFields_iff :
    equalFields fields others = true ↔
      ∀ f ∈ fields, ∃ other, others.lookup f.1 = some other ∧ equal f.2 other = true := by
  induction fields with
  | nil => simp [equalFields]
  | cons field rest ih =>
    obtain ⟨name, value⟩ := field
    rw [equalFields, Bool.and_eq_true, ih, forall_mem_cons]
    cases others.lookup name <;> simp

theorem equalFields_perm (shuffled : fields.Perm others) (supplied : List (String × Json)) :
    equalFields fields supplied = equalFields others supplied := by
  rw [Bool.eq_iff_iff, equalFields_iff, equalFields_iff]
  exact forall_congr' (fun f => by rw [shuffled.mem_iff])

theorem sameNames_iff : sameNames fields others = true ↔
    ∀ name, name ∈ fields.map Prod.fst ↔ name ∈ others.map Prod.fst := by
  simp only [sameNames, Bool.and_eq_true, all_eq_true, any_eq_true, decide_eq_true_eq]
  constructor
  · rintro ⟨forth, back⟩ name
    constructor
    · intro mem
      obtain ⟨field, inFields, rfl⟩ := mem_map.mp mem
      obtain ⟨other, inOthers, same⟩ := forth field inFields
      exact mem_map.mpr ⟨other, inOthers, same⟩
    · intro mem
      obtain ⟨other, inOthers, rfl⟩ := mem_map.mp mem
      obtain ⟨field, inFields, same⟩ := back other inOthers
      exact mem_map.mpr ⟨field, inFields, same⟩
  · intro same
    constructor
    · intro field mem
      obtain ⟨other, inOthers, named⟩ := mem_map.mp ((same field.1).mp (mem_map_of_mem mem))
      exact ⟨other, inOthers, named⟩
    · intro other mem
      obtain ⟨field, inFields, named⟩ := mem_map.mp ((same other.1).mpr (mem_map_of_mem mem))
      exact ⟨field, inFields, named⟩

theorem sameNames_congr {supplied : List (String × Json)}
    (names : (fields.map Prod.fst).Perm (others.map Prod.fst)) :
    sameNames fields supplied = sameNames others supplied := by
  rw [Bool.eq_iff_iff, sameNames_iff, sameNames_iff]
  exact forall_congr' (fun name => by rw [names.mem_iff])

mutual

theorem equal_sorted : ∀ v right : Json, equal v.sortKeys right = equal v right
  | .null, _ | .bool _, _ | .int _, _ | .float _, _ | .str _, _ | .object _, _ => rfl
  | .arr items, right => by
    cases right with
    | arr others => exact equalItems_sorted items others
    | null | bool | int | float | str | obj | object => rfl
  | .obj fields, right => by
    cases right with
    | obj others =>
      have names : (((sortFields fields).insertionSort byName).map Prod.fst).Perm
          (fields.map Prod.fst) := by
        rw [← JsonLoading.sortFields_names fields]
        exact (sorted_perm fields).map Prod.fst
      have inner := (equalFields_perm (sorted_perm fields) others).trans (equalFields_sorted fields others)
      change (sameNames ((sortFields fields).insertionSort byName) others &&
        equalFields ((sortFields fields).insertionSort byName) others) = _
      rw [sameNames_congr names, inner]
      rfl
    | null | bool | int | float | str | arr | object => rfl

theorem equalItems_sorted : ∀ items others : List Json,
    equalItems (sortItems items) others = equalItems items others
  | [], _ => rfl
  | item :: rest, others => by
    cases others with
    | nil => rfl
    | cons other more =>
      change (equal item.sortKeys other && equalItems (sortItems rest) more) = _
      rw [equal_sorted item other, equalItems_sorted rest more]
      rfl

theorem equalFields_sorted : ∀ fields others : List (String × Json),
    equalFields (sortFields fields) others = equalFields fields others
  | [], _ => rfl
  | (name, value) :: rest, others => by
    rw [sortFields, equalFields, equalFields, equalFields_sorted rest others]
    cases others.lookup name with
    | none => rfl
    | some other => simp only [equal_sorted value other]

end

theorem constraintsMatch_sorted (constraints arguments : Json) :
    constraintsMatch constraints.sortKeys arguments = constraintsMatch constraints arguments := by
  cases constraints with
  | null | bool | int | float | str | arr | object => rfl
  | obj fields =>
    change (finiteFields ((sortFields fields).insertionSort byName) &&
      (suppliedFields arguments).any (equalFields ((sortFields fields).insertionSort byName))) = _
    have inner : ∀ supplied, equalFields ((sortFields fields).insertionSort byName) supplied =
        equalFields fields supplied := fun supplied =>
      (equalFields_perm (sorted_perm fields) supplied).trans (equalFields_sorted fields supplied)
    rw [finiteFields_perm (sorted_perm fields), finiteFields_sorted, funext inner]
    rfl

mutual

theorem encode_finite (options : DumpOptions) : ∀ v : Json, finiteJson v = true →
    ∃ text, encode options v = .ok text
  | .null, _ | .bool _, _ | .int _, _ | .str _, _ => ⟨_, rfl⟩
  | .float (.finite _), _ => ⟨_, rfl⟩
  | .arr items, finite => by
    obtain ⟨texts, done⟩ := encodeItems_finite options items finite
    exact ⟨_, by rw [encode, done]; rfl⟩
  | .obj fields, finite => by
    obtain ⟨texts, done⟩ := encodeFields_finite options fields finite
    exact ⟨_, by rw [encode, done]; rfl⟩

theorem encodeItems_finite (options : DumpOptions) : ∀ items : List Json, finiteItems items = true →
    ∃ texts, encodeItems options items = .ok texts
  | [], _ => ⟨[], rfl⟩
  | item :: rest, finite => by
    rw [finiteItems, Bool.and_eq_true] at finite
    obtain ⟨text, done⟩ := encode_finite options item finite.1
    obtain ⟨texts, others⟩ := encodeItems_finite options rest finite.2
    exact ⟨text :: texts, by rw [encodeItems, done, others]; rfl⟩

theorem encodeFields_finite (options : DumpOptions) : ∀ fields : List (String × Json),
    finiteFields fields = true → ∃ texts, encodeFields options fields = .ok texts
  | [], _ => ⟨[], rfl⟩
  | (name, value) :: rest, finite => by
    rw [finiteFields, Bool.and_eq_true] at finite
    obtain ⟨text, done⟩ := encode_finite options value finite.1
    obtain ⟨texts, others⟩ := encodeFields_finite options rest finite.2
    exact ⟨_, by rw [encodeFields, done, others]; rfl⟩

end

theorem constraints_written {value : Json} (valid : validateConstraints value = .ok ()) :
    ∃ text, SQLite.constraintText value = .ok text := by
  rcases validated_cases valid with rfl | ⟨fields, rfl, finite⟩
  · exact ⟨none, rfl⟩
  · have sortedFinite : finiteJson (Json.obj fields).sortKeys = true :=
      (finite_sorted (.obj fields)).trans finite
    obtain ⟨text, encoded⟩ := encode_finite { sortKeys := true } _ sortedFinite
    refine ⟨some text, ?_⟩
    change (encode { sortKeys := true } (Json.obj fields).sortKeys).map some = _
    rw [encoded]
    rfl

/-- Constraints that were validated are read back from their text with their names in order. -/
theorem constraints_read (loadable : Loadable constraints)
    (valid : validateConstraints constraints = .ok ())
    (written : SQLite.constraintText constraints = .ok text) :
    SQLite.readConstraints text = .ok constraints.sortKeys := by
  rcases validated_cases valid with rfl | ⟨fields, rfl, -⟩
  · cases written
    rfl
  · change (encode { sortKeys := true } (Json.obj fields).sortKeys).map some = .ok text at written
    cases encoded : encode { sortKeys := true } (Json.obj fields).sortKeys with
    | error e => rw [encoded] at written; cases written
    | ok document =>
      rw [encoded] at written
      cases written
      have chars := encode_written _ _ _ (loadable_sorted _ loadable) encoded
      have filled : document ≠ "" := by
        rintro rfl
        cases chars
      rw [SQLite.readConstraints, if_neg filled,
        loads_written (styleOf_readable _) (loadable_sorted _ loadable) chars]

section Granting

variable {moment : String → Except Exc Datetime} {s : SQLite.TextGrants}

theorem checked_valid (checked : checkGrant moment c = .ok expiry) :
    validateConstraints c.argumentConstraints = .ok () := by
  unfold checkGrant at checked
  cases valid : validateConstraints c.argumentConstraints with
  | ok _ => rfl
  | error e =>
    rw [valid] at checked
    split at checked <;> cases checked

theorem sqlite_granted (checked : checkGrant moment c = .ok expiry)
    (written : SQLite.constraintText c.argumentConstraints = .ok text) :
    SQLite.grant moment c s = (.ok (), s.replace ⟨c.principal, c.tool, c.now.isoformat,
      expiry.map Datetime.isoformat, none, c.grantedBy, text⟩) := by
  unfold SQLite.grant
  rw [checked, written]
  rfl

end Granting

end Meemee.Guarantees.ApprovalConstraints
