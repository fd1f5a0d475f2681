import Meemee.Guarantees.AuditAnchors
import Meemee.Guarantees.JsonLoading
import Meemee.Guarantees.NumberText
import Meemee.Source.AuditColumns

/-!
# Metadata that PostgreSQL gives back as it was hashed

The hash of a row is over the text of its metadata, `verify` encodes what the `jsonb` column gives
back. Every value comes back as it was but two kinds of floats: one whose decimal has no digits
after the point comes back an integer, and a negative zero comes back a zero.
-/
namespace Meemee.Guarantees.AuditMetadata
open Library Library.History Source Source.Json Source.Audit List
open Source.AuditColumns
open Source.JsonLoads (loads)
open Source.Numbers (Numeric Decimal decimal binary64)
open Guarantees.AuditRuns Guarantees.JsonLoading
open Guarantees.NumberText (numeric_text signed_digits)

mutual

/-- The texts of the floats in a value. -/
def floatTexts : Json → List String
  | .float (.finite repr) => [repr]
  | .arr items => itemFloats items
  | .obj fields => fieldFloats fields
  | _ => []

def itemFloats : List Json → List String
  | [] => []
  | item :: rest => floatTexts item ++ itemFloats rest

def fieldFloats : List (String × Json) → List String
  | [] => []
  | (_, value) :: rest => floatTexts value ++ fieldFloats rest

end

/-- The column gives the float back: digits after the point, and no negative zero. -/
def Kept (repr : String) : Prop := (decimal repr.toList).numeric.scale ≠ 0 ∧ repr ≠ "-0.0"

instance : DecidablePred Kept := fun _ => inferInstanceAs (Decidable (_ ∧ _))

/-- The text is the `repr` of the float it reads as. -/
def Canonical (floats : Floats) (repr : String) : Prop := floats.reprOf repr = repr

variable {fields : List (String × Json)} {repr : String} {stored : Postgres.Jsonb}
  {sha256 : String → String} {call : AppendCall} {c t : Postgres.TypedChain} {n : Nat}

theorem mem_fieldFloats : repr ∈ fieldFloats fields ↔ ∃ f ∈ fields, repr ∈ floatTexts f.2 := by
  induction fields with
  | nil => simp [fieldFloats]
  | cons field rest ih => simp [fieldFloats, ih]

mutual

theorem floats_sorted : ∀ (v : Json) (repr : String), repr ∈ floatTexts v.sortKeys ↔ repr ∈ floatTexts v
  | .null, _ | .bool _, _ | .int _, _ | .float _, _ | .str _, _ | .object _, _ => Iff.rfl
  | .arr items, repr => floats_sortedItems items repr
  | .obj fields, repr => by
    have shuffled := perm_insertionSort byName (sortFields fields)
    change repr ∈ fieldFloats ((sortFields fields).insertionSort byName) ↔ repr ∈ fieldFloats fields
    rw [← floats_sortedFields fields repr, mem_fieldFloats, mem_fieldFloats]
    simp only [shuffled.mem_iff]

theorem floats_sortedItems : ∀ (items : List Json) (repr : String),
    repr ∈ itemFloats (sortItems items) ↔ repr ∈ itemFloats items
  | [], _ => Iff.rfl
  | item :: rest, repr => by
    rw [sortItems, itemFloats, itemFloats, mem_append, mem_append, floats_sorted item repr,
      floats_sortedItems rest repr]

theorem floats_sortedFields : ∀ (fields : List (String × Json)) (repr : String),
    repr ∈ fieldFloats (sortFields fields) ↔ repr ∈ fieldFloats fields
  | [], _ => Iff.rfl
  | (_, value) :: rest, repr => by
    rw [sortFields, fieldFloats, fieldFloats, mem_append, mem_append,
      floats_sorted value repr, floats_sortedFields rest repr]

end

section Column

variable (floats : Floats)

/-- A float that has been through the column. -/
def rereadFloat (repr : String) : Json :=
  if (decimal repr.toList).numeric.scale = 0 then .int (decimal repr.toList).numeric.unscaled
  else .float (.finite (floats.reprOf (String.ofList (decimal repr.toList).numeric.text)))

mutual

/-- A value that has been through the column. -/
def reread : Json → Json
  | .float (.finite repr) => rereadFloat floats repr
  | .arr items => .arr (rereadItems items)
  | .obj fields => .obj (rereadFields fields)
  | other => other

def rereadItems : List Json → List Json
  | [] => []
  | item :: rest => reread item :: rereadItems rest

def rereadFields : List (String × Json) → List (String × Json)
  | [] => []
  | (name, value) :: rest => (name, reread value) :: rereadFields rest

end

theorem negative_text (n : Numeric) : (decimal n.text).negative = decide (n.unscaled < 0) := by
  have begins : ∀ whole : List Char, whole ≠ [] → (∀ c ∈ whole, c.isDigit = true) →
      ∀ rest, (Numbers.signed (whole ++ rest)).1 = false := by
    intro whole nonempty digits rest
    cases whole with
    | nil => exact absurd rfl nonempty
    | cons c others => rw [signed_digits (cons_append ..) (digits c mem_cons_self)]
  unfold decimal Numeric.text
  by_cases negative : n.unscaled < 0
  · rw [if_pos negative, decide_eq_true negative]
    rfl
  · rw [if_neg negative, decide_eq_false negative]
    exact begins _ Nat.toDigits_ne_nil (fun _ mem => digit_of_digits mem) _

theorem numeric_negative (d : Decimal) :
    decide (d.numeric.unscaled < 0) = (d.negative && decide (d.shifted ≠ 0)) := by
  unfold Decimal.numeric
  cases d.negative with
  | true =>
    simp only [if_true]
    congr 1
    apply propext
    omega
  | false =>
    simp only [Bool.false_eq_true, if_false, Bool.false_and, decide_eq_false_iff_not]
    omega

theorem magnitude_text (n : Numeric) : magnitude (String.ofList n.text) =
    binary64 (Numeric.value ⟨n.unscaled.natAbs, n.scale⟩) := by
  rw [magnitude, String.toList_ofList, numeric_text]

theorem binary64_zero : binary64 0 = 0 := by decide +kernel

theorem minus_zero (canonical : Canonical floats repr)
    (negative : (decimal repr.toList).negative = true) (zero : (decimal repr.toList).shifted = 0) :
    repr = "-0.0" := by
  have unscaled : (decimal repr.toList).numeric.unscaled.natAbs = 0 := by
    rw [Decimal.numeric, zero, negative]
    rfl
  rw [Canonical, Floats.reprOf, negative, magnitude, unscaled, Numeric.value] at canonical
  have nothing : mkRat ((0 : Nat) : Int) (10 ^ (decimal repr.toList).numeric.scale) = 0 := Rat.zero_mkRat _
  rw [nothing, binary64_zero, floats.minusZero] at canonical
  exact canonical.symm

/-- A float that has digits after its point and a sign that counts comes back as it was. -/
theorem reread_kept (canonical : Canonical floats repr) (kept : Kept repr) :
    rereadFloat floats repr = .float (.finite repr) := by
  have sign : decide ((decimal repr.toList).numeric.unscaled < 0) = (decimal repr.toList).negative := by
    rw [numeric_negative]
    cases negative : (decimal repr.toList).negative with
    | false => rfl
    | true =>
      rw [Bool.true_and, decide_eq_true_eq]
      exact fun zero => kept.2 (minus_zero floats canonical negative zero)
  rw [rereadFloat, if_neg kept.1, Floats.reprOf, String.toList_ofList, negative_text, sign,
    magnitude_text]
  exact congrArg (fun text => Json.float (.finite text)) canonical

theorem reread_changed (changed : ¬ Kept repr) :
    rereadFloat floats repr ≠ .float (.finite repr) := by
  unfold rereadFloat
  split
  next => exact nofun
  next point =>
    have minus : repr = "-0.0" := by
      by_contra other
      exact changed ⟨point, other⟩
    intro same
    have text := JsonFloat.finite.inj (Json.float.inj same)
    rw [minus] at text
    have zero : floats.reprOf (String.ofList (decimal ("-0.0" : String).toList).numeric.text) = "0.0" := by
      have parts : (decimal (decimal ("-0.0" : String).toList).numeric.text).negative = false := by
        decide +kernel
      have value : magnitude (String.ofList (decimal ("-0.0" : String).toList).numeric.text) = 0 := by
        decide +kernel
      rw [Floats.reprOf, String.toList_ofList, parts, value, floats.zero]
    rw [zero] at text
    exact absurd text (by decide)

theorem reread_float_iff (canonical : Canonical floats repr) :
    rereadFloat floats repr = .float (.finite repr) ↔ Kept repr := by
  constructor
  · intro same
    by_contra changed
    exact reread_changed floats changed same
  · exact reread_kept floats canonical

mutual

theorem reread_iff : ∀ v : Json, (∀ repr ∈ floatTexts v, Canonical floats repr) →
    (reread floats v = v ↔ ∀ repr ∈ floatTexts v, Kept repr)
  | .null, _ | .bool _, _ | .int _, _ | .str _, _ | .object _, _ | .float .nan, _
  | .float (.infinity _), _ => iff_of_true rfl nofun
  | .float (.finite repr), canonical => by
    rw [reread, reread_float_iff floats (canonical repr mem_cons_self), floatTexts,
      forall_mem_singleton]
  | .arr items, canonical => by
    rw [reread, Json.arr.injEq]
    exact rereadItems_iff items canonical
  | .obj fields, canonical => by
    rw [reread, Json.obj.injEq]
    exact rereadFields_iff fields canonical

theorem rereadItems_iff : ∀ items : List Json, (∀ repr ∈ itemFloats items, Canonical floats repr) →
    (rereadItems floats items = items ↔ ∀ repr ∈ itemFloats items, Kept repr)
  | [], _ => iff_of_true rfl nofun
  | item :: rest, canonical => by
    rw [itemFloats, forall_mem_append] at canonical
    rw [rereadItems, List.cons.injEq, reread_iff item canonical.1, rereadItems_iff rest canonical.2,
      itemFloats, forall_mem_append]

theorem rereadFields_iff : ∀ fields : List (String × Json),
    (∀ repr ∈ fieldFloats fields, Canonical floats repr) →
      (rereadFields floats fields = fields ↔ ∀ repr ∈ fieldFloats fields, Kept repr)
  | [], _ => iff_of_true rfl nofun
  | (name, value) :: rest, canonical => by
    rw [fieldFloats, forall_mem_append] at canonical
    rw [rereadFields, List.cons.injEq, Prod.mk.injEq, reread_iff value canonical.1,
      rereadFields_iff rest canonical.2, fieldFloats, forall_mem_append]
    simp only [true_and]

end

theorem rereadFields_eq (fields : List (String × Json)) :
    rereadFields floats fields = fields.map (fun f => (f.1, reread floats f.2)) := by
  induction fields with
  | nil => rfl
  | cons field rest ih => rw [rereadFields, ih, map_cons]

theorem rereadFields_names (fields : List (String × Json)) :
    (rereadFields floats fields).map Prod.fst = fields.map Prod.fst := by
  rw [rereadFields_eq, map_map]
  rfl

mutual

theorem sortKeys_reread : ∀ v : Json, (reread floats v).sortKeys = reread floats v.sortKeys
  | .null | .bool _ | .int _ | .str _ | .object _ | .float .nan | .float (.infinity _) => rfl
  | .float (.finite repr) => by
    change (rereadFloat floats repr).sortKeys = rereadFloat floats repr
    unfold rereadFloat
    split <;> rfl
  | .arr items => congrArg Json.arr (sortItems_reread items)
  | .obj fields => by
    have inner := sortFields_reread fields
    refine congrArg Json.obj ?_
    change (sortFields (rereadFields floats fields)).insertionSort byName =
      rereadFields floats ((sortFields fields).insertionSort byName)
    rw [inner, rereadFields_eq, rereadFields_eq]
    exact (map_insertionSort byName byName (fun f => (f.1, reread floats f.2))
      (sortFields fields) (fun _ _ _ _ => Iff.rfl)).symm

theorem sortItems_reread : ∀ items : List Json,
    sortItems (rereadItems floats items) = rereadItems floats (sortItems items)
  | [] => rfl
  | item :: rest => by
    rw [rereadItems, sortItems, sortItems, rereadItems, sortKeys_reread item, sortItems_reread rest]

theorem sortFields_reread : ∀ fields : List (String × Json),
    sortFields (rereadFields floats fields) = rereadFields floats (sortFields fields)
  | [] => rfl
  | (name, value) :: rest => by
    rw [rereadFields, sortFields, sortFields, rereadFields, sortKeys_reread value,
      sortFields_reread rest]

end

theorem loaded_number (n : Numeric) : floats.loaded n.json =
    if n.scale = 0 then .int n.unscaled else .float (.finite (floats.reprOf (String.ofList n.text))) := by
  unfold Numeric.json
  split <;> rfl

/-- A dictionary of pairs: each name once, each value one of theirs. -/
theorem foldl_put_loadable (pairs : List (String × Json)) (loadable : LoadableFields pairs)
    (fields : List (String × Json)) (made : Loadable (.obj fields)) :
    Loadable (.obj (pairs.foldl JsonLoads.put fields)) := by
  have built := foldl_built pairs fields made.1
  refine ⟨built.names, loadableFields_iff.mpr (fun f mem => ?_)⟩
  rcases built.origin f mem with old | new
  · exact loadableFields_iff.mp made.2 f old
  · exact loadableFields_iff.mp loadable f new

mutual

/-- What is loaded of a stored value is one that `json.loads` makes; of a dictionary it is `reread`. -/
theorem loaded_stored : ∀ v stored : Json, JsonbColumn.jsonb v = .ok stored →
    Loadable (floats.loaded stored) ∧ (Loadable v → floats.loaded stored = reread floats v)
  | .null, _, done | .bool _, _, done | .int _, _, done => by cases done; exact ⟨trivial, fun _ => rfl⟩
  | .float .nan, _, done | .float (.infinity _), _, done | .object _, _, done => by cases done
  | .float (.finite repr), _, done => by
    cases done
    rw [loaded_number]
    refine ⟨?_, fun _ => rfl⟩
    split
    · trivial
    · exact floats.reads _ _
  | .str text, _, done => by
    rw [JsonbColumn.jsonb] at done
    split at done <;> cases done
    exact ⟨trivial, fun _ => rfl⟩
  | .arr items, stored, done => by
    rw [JsonbColumn.jsonb] at done
    obtain ⟨others, inner, same⟩ := except_bind_returned done
    cases same
    obtain ⟨made, read⟩ := loadedItems_stored items others inner
    exact ⟨made, fun loadable => congrArg Json.arr (read loadable)⟩
  | .obj fields, stored, done => by
    rw [JsonbColumn.jsonb] at done
    obtain ⟨others, inner, same⟩ := except_bind_returned done
    cases same
    obtain ⟨made, read⟩ := loadedFields_stored fields others inner
    refine ⟨foldl_put_loadable _ made [] ⟨nodup_nil, trivial⟩, fun loadable => ?_⟩
    have distinct := (rereadFields_names floats fields).symm ▸ loadable.1
    rw [Floats.loaded, read loadable.2, dict_distinct distinct]
    rfl

theorem loadedItems_stored : ∀ items stored : List Json,
    JsonbColumn.jsonbItems items = .ok stored → LoadableItems (floats.loadedItems stored) ∧
      (LoadableItems items → floats.loadedItems stored = rereadItems floats items)
  | [], _, done => by cases done; exact ⟨trivial, fun _ => rfl⟩
  | item :: rest, _, done => by
    rw [JsonbColumn.jsonbItems] at done
    obtain ⟨first, one, others⟩ := except_bind_returned done
    obtain ⟨more, tail, same⟩ := except_bind_returned others
    cases same
    obtain ⟨made, read⟩ := loaded_stored item first one
    obtain ⟨all, reads⟩ := loadedItems_stored rest more tail
    refine ⟨⟨made, all⟩, fun loadable => ?_⟩
    rw [Floats.loadedItems, rereadItems, read loadable.1, reads loadable.2]

theorem loadedFields_stored : ∀ fields stored : List (String × Json),
    JsonbColumn.jsonbFields fields = .ok stored → LoadableFields (floats.loadedFields stored) ∧
      (LoadableFields fields → floats.loadedFields stored = rereadFields floats fields)
  | [], _, done => by cases done; exact ⟨trivial, fun _ => rfl⟩
  | (name, value) :: rest, _, done => by
    rw [JsonbColumn.jsonbFields] at done
    cases plain : PgJobs.storesText name with
    | false => rw [plain] at done; cases done
    | true =>
      rw [plain] at done
      obtain ⟨first, one, others⟩ := except_bind_returned done
      obtain ⟨more, tail, same⟩ := except_bind_returned others
      cases same
      obtain ⟨made, read⟩ := loaded_stored value first one
      obtain ⟨all, reads⟩ := loadedFields_stored rest more tail
      refine ⟨⟨made, all⟩, fun loadable => ?_⟩
      rw [Floats.loadedFields, rereadFields, read loadable.1, reads loadable.2]

end

/-- The metadata column: what is read back of a value that is bound. -/
def column (v : Json) : Except Exc Postgres.Jsonb :=
  match stored : JsonbColumn.jsonb v with
  | .ok value => .ok ⟨(floats.loaded value).sortKeys, sortKeys_idem _,
      (AuditText.wellFormed_iff _).mpr (loadable_sorted _ (loaded_stored floats v value stored).1),
      replicate (Postgres.floatCount (floats.loaded value).sortKeys) 0, length_replicate⟩
  | .error e => .error e

theorem column_value {v : Json} (json : Loadable v) (kept : column floats v = .ok stored) :
    stored.value = (reread floats v).sortKeys := by
  unfold column at kept
  split at kept
  next value done =>
    cases kept
    exact congrArg Json.sortKeys ((loaded_stored floats v value done).2 json)
  next => cases kept

theorem orEmpty_object (fields : List (String × Json)) : orEmpty (.obj fields) = .obj fields := by
  cases fields <;> rfl

/-- Metadata come back with the text that was hashed when each of their floats is kept. -/
theorem encoded_iff {metadata : Json} (object : orEmpty metadata = .obj fields)
    (json : Loadable (.obj fields))
    (canonical : ∀ repr ∈ floatTexts (.obj fields), Canonical floats repr) {encoded : String}
    (written : encodeMetadata metadata = .ok encoded)
    (kept : column floats (.obj fields) = .ok stored) :
    stored.encoded = encoded ↔ ∀ repr ∈ floatTexts (.obj fields), Kept repr := by
  have value := column_value floats json kept
  have whole : orEmpty stored.value = stored.value := by
    rw [value]
    exact orEmpty_object _
  have text := AuditText.encodes_stored stored
  rw [encodeMetadata, whole] at text
  rw [encodeMetadata, object] at written
  have sorted : ∀ repr ∈ floatTexts (Json.obj fields).sortKeys, Canonical floats repr :=
    fun repr mem => canonical repr ((floats_sorted _ repr).mp mem)
  have same : stored.value = (Json.obj fields).sortKeys ↔ ∀ repr ∈ floatTexts (.obj fields), Kept repr := by
    rw [value, sortKeys_reread, reread_iff floats _ sorted]
    simp only [floats_sorted]
  rw [← same]
  constructor
  · intro equal
    have loaded := AuditText.encoded_loads stored
    rw [whole, equal, sorted_loaded json rfl written] at loaded
    exact (Option.some.inj loaded).symm
  · intro equal
    have again : Json.dumps { sortKeys := true, compact := true } stored.value = .ok encoded := by
      rw [equal, Json.dumps, sortKeys_idem]
      rwa [Json.dumps] at written
    exact Except.ok.inj (text.symm.trans again)

/-- Metadata of JSON, each float the `repr` of one. -/
def Metadata (call : AppendCall) : Prop :=
  ∃ fields, orEmpty call.metadata = .obj fields ∧ Loadable (.obj fields) ∧
    ∀ repr ∈ floatTexts (.obj fields), Canonical floats repr

/-- Each float of the metadata comes back from the column. -/
def Survives (call : AppendCall) : Prop := ∀ repr ∈ floatTexts (orEmpty call.metadata), Kept repr

abbrev auditLog (sha256 : String → String) : Store String Datetime Postgres.Jsonb :=
  postgres (column floats) sha256

theorem append_stored (returned : (auditLog floats sha256).append call c = (.ok n, t)) :
    (∃ encoded, encodeMetadata call.metadata = .ok encoded) ∧
      ∃ stored, column floats (orEmpty call.metadata) = .ok stored := by
  change Postgres.append (column floats) sha256 call.now call.actor call.action call.resource
    call.outcome call.metadata call.fault call.drawn c = (.ok n, t) at returned
  unfold Postgres.append at returned
  dsimp only at returned
  split at returned
  next run =>
    obtain ⟨encoded, wrote, run⟩ := Txn.ofExcept_bind_returned (Txn.atomically_ok.mp run)
    obtain ⟨stored, kept, -⟩ := Txn.ofExcept_bind_returned run
    exact ⟨⟨encoded, of_mapError wrote⟩, stored, of_mapError kept⟩
  next => cases returned

theorem reencodes_iff (metadata : Metadata floats call)
    (returned : (auditLog floats sha256).append call c = (.ok n, t)) :
    Postgres.Reencodes (column floats) call ↔ Survives call := by
  obtain ⟨fields, object, json, canonical⟩ := metadata
  obtain ⟨⟨encoded, written⟩, stored, kept⟩ := append_stored floats returned
  rw [object] at kept
  have same := encoded_iff floats object json canonical written kept
  rw [Survives, object, ← same, Postgres.Reencodes, object]
  constructor
  · intro reencodes
    exact reencodes encoded stored written kept
  · intro equal encoded' stored' written' kept'
    rw [written] at written'
    rw [kept] at kept'
    cases written'
    cases kept'
    exact equal

/-- After any run of appends and prunes the chain verifies exactly when the metadata of every
append that returned survive the column. -/
theorem metadata_verifies_iff {sha256 : String → String} (injective : Function.Injective sha256)
    (sign : String → Anchor → String) (run : List Action)
    (metadata : ∀ call, Action.append call ∈ run → Metadata floats call) :
    Postgres.verify sha256 (AuditAnchors.reached (auditLog floats sha256) sign run).chain = (true, none) ↔
      ∀ e ∈ history (step (auditLog floats sha256) sign) start run, ∀ call n,
        e.action = .append call → e.answer = .ok (.appended n) → Survives call := by
  have lawful := Postgres.lawful injective (column floats)
  have survives : ∀ e ∈ history (step (auditLog floats sha256) sign) start run,
      Faithful (Postgres.Reencodes (column floats)) e ↔
        ∀ call n, e.action = .append call → e.answer = .ok (.appended n) → Survives call := by
    intro e member
    refine forall_congr' (fun call => forall_congr' (fun n => forall_congr' (fun appends =>
      forall_congr' (fun answered => ?_))))
    have done := step_of_mem member
    rw [appends, answered] at done
    have json : Metadata floats call := metadata call (appends ▸ action_of_mem member)
    simp only [step, Keeper.appends] at done
    cases result : (auditLog floats sha256).append call e.before.chain with
    | mk answer t =>
      rw [result] at done
      cases answer with
      | error _ => cases done
      | ok number => exact reencodes_iff floats json result
  have ends : ((∀ e ∈ history (step (auditLog floats sha256) sign) start run,
        Faithful (Postgres.Reencodes (column floats)) e) ∧
        Sound sha256 (auditLog floats sha256) Postgres.Numbered
          (final (step (auditLog floats sha256) sign) start run)) ∨
      ((∃ e ∈ history (step (auditLog floats sha256) sign) start run,
        ¬ Faithful (Postgres.Reencodes (column floats)) e) ∧
        Doomed sha256 (auditLog floats sha256) Postgres.Numbered
          (final (step (auditLog floats sha256) sign) start run)) :=
    sound_or_doomed_of_allowed (step_sound lawful) (step_broken lawful) (step_doomed lawful)
      (start_sound lawful) (fun e _ => Postgres.current (column floats) sha256 e)
  rw [← forall₂_congr survives]
  rcases ends with ⟨all, sound⟩ | ⟨⟨e, member, breaks⟩, doomed⟩
  · exact iff_of_true (verify_of_sound lawful sound) all
  · exact iff_of_false (not_verify_of_doomed lawful doomed) (fun all => breaks (all e member))

end Column

/-- The `repr` of the four floats that the samples hold or read. -/
def sampleRepr (negative : Bool) (q : ℚ) : String :=
  if q = 0 then (if negative then "-0.0" else "0.0") else if q = mkRat 1 2 then "0.5" else "1e+16"

theorem sampleRepr_cases (negative : Bool) (q : ℚ) :
    sampleRepr negative q ∈ ["-0.0", "0.0", "0.5", "1e+16"] := by
  unfold sampleRepr
  split
  · cases negative <;> decide
  · split <;> decide

theorem sampleRepr_reads (negative : Bool) (q : ℚ) :
    JsonLoads.readNumber (sampleRepr negative q).toList =
      some (.float (.finite (sampleRepr negative q)), []) := by
  have known := sampleRepr_cases negative q
  generalize sampleRepr negative q = text at known
  simp only [mem_cons, not_mem_nil, or_false] at known
  rcases known with rfl | rfl | rfl | rfl <;> rfl

def sampleFloats : Floats :=
  ⟨sampleRepr, sampleRepr_reads, rfl, rfl⟩

theorem clock_valid : (1 ≤ 2026 ∧ 2026 ≤ 9999) ∧ (1 ≤ 1 ∧ 1 ≤ 12) ∧ (1 ≤ 5 ∧ 5 ≤ 31) ∧
    9 ≤ 23 ∧ 0 ≤ 59 ∧ 0 ≤ 59 ∧ 0 ≤ 999999 := by decide

/-- An append of one float under the name `total`. -/
def totalCall (repr : String) : AppendCall :=
  { now := ⟨2026, 1, 5, 9, 0, 0, 0, clock_valid⟩, actor := "ada", action := "quota.set",
    resource := "ada", outcome := "success", metadata := .obj [("total", .float (.finite repr))],
    fault := .ok (), drawn := false }

def unsigned : String → Anchor → String := fun _ _ => ""

/-- The chain after one append of a float. -/
def totalChain (repr : String) : Postgres.TypedChain :=
  (AuditAnchors.reached (auditLog sampleFloats id) unsigned [.append (totalCall repr)]).chain

theorem half_metadata : Metadata sampleFloats (totalCall "0.5") := by
  refine ⟨[("total", .float (.finite "0.5"))], rfl, ⟨by decide, rfl, trivial⟩, ?_⟩
  intro repr mem
  rw [mem_singleton.mp mem]
  have read : (decimal ("0.5" : String).toList).negative = false ∧ magnitude "0.5" = mkRat 1 2 := by
    decide +kernel
  rw [Canonical, Floats.reprOf]
  decide +kernel

theorem half_verifies : Postgres.verify id (totalChain "0.5") = (true, none) :=
  (metadata_verifies_iff sampleFloats Function.injective_id unsigned [.append (totalCall "0.5")] (by
    intro call member
    cases mem_singleton.mp member
    exact half_metadata)).mpr (by
    intro e member call n appends _
    have here := action_of_mem member
    rw [appends] at here
    cases mem_singleton.mp here
    intro repr inside
    rw [mem_singleton.mp inside]
    decide +kernel)

/-- The append of `1e16` returns, and the chain does not verify after it. -/
theorem large_float_breaks : (totalChain "1e+16").log.entries.length = 1 ∧
    Postgres.verify id (totalChain "1e+16") = (false, some 1) := by decide +kernel

end Meemee.Guarantees.AuditMetadata
