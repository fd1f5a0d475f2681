import Meemee.Guarantees.ApprovalConstraints
import Meemee.Guarantees.NumberText

/-!
# Values that a `jsonb` column gives back

A `jsonb` column keeps the decimal that `repr` writes, and a decimal without a fraction comes back as
an integer. A double that is not that integer no longer equals itself; every other value does.
-/
namespace Meemee.Guarantees.JsonbColumn
open Library Source Source.Approvals Source.JsonbColumn Source.Numbers List
open Source.DeviceProtocol (finiteJson finiteItems finiteFields)
open Source.Json
open Source.PgJobs (storesText)
open Guarantees.ApprovalConstraints Guarantees.NumberText

/-- A float whose decimal has no fraction is that integer. -/
def PrintsFloat (repr : String) : Prop :=
  (decimal repr.toList).numeric.scale = 0 → floatValue repr = (decimal repr.toList).numeric.value

mutual

/-- Every float in the value that a `jsonb` column prints without a point is an integer exactly. -/
def Prints : Json → Prop
  | .float (.finite repr) => PrintsFloat repr
  | .arr items => PrintsItems items
  | .obj fields => PrintsFields fields
  | _ => True

def PrintsItems : List Json → Prop
  | [] => True
  | item :: rest => Prints item ∧ PrintsItems rest

def PrintsFields : List (String × Json) → Prop
  | [] => True
  | (_, value) :: rest => Prints value ∧ PrintsFields rest

end

mutual

/-- No string in the value holds a NUL. -/
def nulFree : Json → Bool
  | .str text => storesText text
  | .arr items => nulFreeItems items
  | .obj fields => nulFreeFields fields
  | _ => true

def nulFreeItems : List Json → Bool
  | [] => true
  | item :: rest => nulFree item && nulFreeItems rest

def nulFreeFields : List (String × Json) → Bool
  | [] => true
  | (name, value) :: rest => storesText name && nulFree value && nulFreeFields rest

end

variable {repr : String}

theorem number_stored (prints : PrintsFloat repr) :
    number (decimal repr.toList).numeric.json = some (floatValue repr) := by
  rw [Numeric.json]
  split
  next whole =>
    have exactly := prints whole
    rw [exactly, Numeric.value, whole, Nat.pow_zero, Rat.mkRat_one, number]
  next =>
    have read : floatValue (String.ofList (decimal repr.toList).numeric.text) = floatValue repr := by
      rw [floatValue, String.toList_ofList, numeric_text, floatValue]
    rw [number, read]

theorem finite_number (n : Numeric) : finiteJson n.json = true := by
  rw [Numeric.json]
  split <;> rfl

theorem equal_number (n : Numeric) {value : ℚ} (same : number n.json = some value) (right : Json) :
    equal n.json right = decide (number right = some value) := by
  rw [Numeric.json] at same ⊢
  split at same
  next whole =>
    rw [if_pos whole, equal]
    rw [number] at same
    rw [same]
  next point =>
    rw [if_neg point, equal]
    rw [number] at same
    rw [same]

mutual

theorem jsonb_stored : ∀ v : Json, finiteJson v = true → nulFree v = true →
    ∃ stored, jsonb v = .ok stored
  | .null, _, _ | .bool _, _, _ | .int _, _, _ => ⟨_, rfl⟩
  | .float (.finite _), _, _ => ⟨_, rfl⟩
  | .str text, _, plain => ⟨_, if_pos plain⟩
  | .arr items, finite, plain => by
    obtain ⟨stored, done⟩ := jsonbItems_stored items finite plain
    exact ⟨.arr stored, by rw [jsonb, done]; rfl⟩
  | .obj fields, finite, plain => by
    obtain ⟨stored, done⟩ := jsonbFields_stored fields finite plain
    exact ⟨.obj stored, by rw [jsonb, done]; rfl⟩

theorem jsonbItems_stored : ∀ items : List Json, finiteItems items = true →
    nulFreeItems items = true → ∃ stored, jsonbItems items = .ok stored
  | [], _, _ => ⟨[], rfl⟩
  | item :: rest, finite, plain => by
    rw [finiteItems, Bool.and_eq_true] at finite
    rw [nulFreeItems, Bool.and_eq_true] at plain
    obtain ⟨stored, done⟩ := jsonb_stored item finite.1 plain.1
    obtain ⟨others, rest⟩ := jsonbItems_stored rest finite.2 plain.2
    exact ⟨stored :: others, by rw [jsonbItems, done, rest]; rfl⟩

theorem jsonbFields_stored : ∀ fields : List (String × Json), finiteFields fields = true →
    nulFreeFields fields = true → ∃ stored, jsonbFields fields = .ok stored
  | [], _, _ => ⟨[], rfl⟩
  | (name, value) :: rest, finite, plain => by
    rw [finiteFields, Bool.and_eq_true] at finite
    rw [nulFreeFields, Bool.and_eq_true, Bool.and_eq_true] at plain
    obtain ⟨stored, done⟩ := jsonb_stored value finite.1 plain.1.2
    obtain ⟨others, rest⟩ := jsonbFields_stored rest finite.2 plain.2
    exact ⟨(name, stored) :: others, by rw [jsonbFields, plain.1.1, done, rest]; rfl⟩

end

mutual

theorem jsonb_equal : ∀ v stored : Json, Prints v → jsonb v = .ok stored →
    finiteJson stored = finiteJson v ∧ ∀ right, equal stored right = equal v right
  | .null, _, _, done | .bool _, _, _, done | .int _, _, _, done => by
    cases done
    exact ⟨rfl, fun _ => rfl⟩
  | .float .nan, _, _, done | .float (.infinity _), _, _, done | .object _, _, _, done => by cases done
  | .float (.finite repr), _, prints, done => by
    cases done
    refine ⟨finite_number _, fun right => ?_⟩
    rw [equal_number _ (number_stored prints), equal]
  | .str text, _, _, done => by
    rw [jsonb] at done
    split at done <;> cases done
    exact ⟨rfl, fun _ => rfl⟩
  | .arr items, stored, prints, done => by
    rw [jsonb] at done
    obtain ⟨others, inner, same⟩ := Library.except_bind_returned done
    cases same
    obtain ⟨finite, alike⟩ := jsonbItems_equal items others prints inner
    refine ⟨finite, fun right => ?_⟩
    cases right with
    | arr more => exact alike more
    | null | bool | int | float | str | obj | object => rfl
  | .obj fields, stored, prints, done => by
    rw [jsonb] at done
    obtain ⟨others, inner, same⟩ := Library.except_bind_returned done
    cases same
    obtain ⟨names, finite, alike⟩ := jsonbFields_equal fields others prints inner
    refine ⟨finite, fun right => ?_⟩
    cases right with
    | obj more =>
      change (sameNames others more && equalFields others more) = _
      rw [sameNames_congr (List.Perm.of_eq names), alike more]
      rfl
    | null | bool | int | float | str | arr | object => rfl

theorem jsonbItems_equal : ∀ items stored : List Json, PrintsItems items →
    jsonbItems items = .ok stored →
      finiteItems stored = finiteItems items ∧ ∀ others, equalItems stored others = equalItems items others
  | [], _, _, done => by
    cases done
    exact ⟨rfl, fun _ => rfl⟩
  | item :: rest, stored, prints, done => by
    rw [jsonbItems] at done
    obtain ⟨first, one, others⟩ := Library.except_bind_returned done
    obtain ⟨more, tail, same⟩ := Library.except_bind_returned others
    cases same
    obtain ⟨finite, alike⟩ := jsonb_equal item first prints.1 one
    obtain ⟨finiteRest, alikeRest⟩ := jsonbItems_equal rest more prints.2 tail
    refine ⟨by rw [finiteItems, finiteItems, finite, finiteRest], fun right => ?_⟩
    cases right with
    | nil => rfl
    | cons other others => rw [equalItems, equalItems, alike, alikeRest]

theorem jsonbFields_equal : ∀ fields stored : List (String × Json), PrintsFields fields →
    jsonbFields fields = .ok stored → stored.map Prod.fst = fields.map Prod.fst ∧
      finiteFields stored = finiteFields fields ∧
      ∀ others, equalFields stored others = equalFields fields others
  | [], _, _, done => by
    cases done
    exact ⟨rfl, rfl, fun _ => rfl⟩
  | (name, value) :: rest, stored, prints, done => by
    rw [jsonbFields] at done
    cases plain : storesText name with
    | false => rw [plain] at done; cases done
    | true =>
      rw [plain] at done
      obtain ⟨first, one, others⟩ := Library.except_bind_returned done
      obtain ⟨more, tail, same⟩ := Library.except_bind_returned others
      cases same
      obtain ⟨finite, alike⟩ := jsonb_equal value first prints.1 one
      obtain ⟨names, finiteRest, alikeRest⟩ := jsonbFields_equal rest more prints.2 tail
      refine ⟨by rw [map_cons, map_cons, names],
        by rw [finiteFields, finiteFields, finite, finiteRest], fun right => ?_⟩
      rw [equalFields, equalFields, alikeRest]
      cases right.lookup name with
      | none => rfl
      | some other => simp only [alike other]

end

end Meemee.Guarantees.JsonbColumn
