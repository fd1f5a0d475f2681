import Mathlib.Algebra.Group.Nat.Defs
import Meemee.Guarantees.JsonPrinted
import Meemee.Library.Separated
import Meemee.Source.Audit

/-!
# What an audit row's text tells

The hashed text is seven parts joined with the unit separator. ISO times and the JSON
text of metadata hold no separator and tell their values, but `metadata or {}` writes
every value that counts as false like an empty object, and a float does not tell the decimal
that is stored. Where the fields hold no separator the whole text tells the link and the parts.
-/
namespace Meemee.Guarantees.AuditText
open Library Library.Separated Source Source.Audit List
open Guarantees.JsonLoading Guarantees.JsonPrinted

/-- What separates the parts of the hashed text. -/
def separator : Char := '\x1f'

variable {n m width : Nat} {s t : List Char} {columns : Columns χ τ μ} {row row' : Fields χ τ μ}

theorem digit_inj (same : digit n = digit m) : n % 10 = m % 10 := by
  have small : ∀ a < 10, ∀ b < 10, Char.ofNat (48 + a) = Char.ofNat (48 + b) → a = b := by decide
  exact small (n % 10) (Nat.mod_lt n (by decide)) (m % 10) (Nat.mod_lt m (by decide)) same

theorem digit_isDigit (n : Nat) : (digit n).isDigit = true := by
  have small : ∀ a < 10, (Char.ofNat (48 + a)).isDigit = true := by decide
  exact small (n % 10) (Nat.mod_lt n (by decide))

theorem pad_length (width n : Nat) : (pad width n).length = width := by
  induction width generalizing n with
  | zero => rfl
  | succ width ih => rw [pad, length_append, ih, length_singleton]

theorem pad_isDigit : ∀ c ∈ pad width n, c.isDigit = true := by
  induction width generalizing n with
  | zero =>
    intro c mem
    cases mem
  | succ width ih =>
    intro c mem
    rcases mem_append.mp mem with before | last
    · exact ih c before
    · rw [mem_singleton.mp last]
      exact digit_isDigit n

theorem pad_inj (fits : n < 10 ^ width) (fits' : m < 10 ^ width)
    (same : pad width n = pad width m) : n = m := by
  induction width generalizing n m with
  | zero =>
    omega
  | succ width ih =>
    obtain ⟨before, last⟩ := append_inj same (by rw [pad_length, pad_length])
    have high : n / 10 = m / 10 := ih (by omega) (by omega) before
    have low : n % 10 = m % 10 := digit_inj (singleton_inj.mp last)
    omega

theorem pad_append_inj (same : pad width n ++ s = pad width m ++ t) (fits : n < 10 ^ width)
    (fits' : m < 10 ^ width) : n = m ∧ s = t := by
  obtain ⟨numbers, rest⟩ := append_inj same (by rw [pad_length, pad_length])
  exact ⟨pad_inj fits fits' numbers, rest⟩

theorem pad_cons_inj {c : Char} (same : c :: (pad width n ++ s) = c :: (pad width m ++ t))
    (fits : n < 10 ^ width) (fits' : m < 10 ^ width) : n = m ∧ s = t :=
  pad_append_inj (List.cons.inj same).2 fits fits'

theorem fraction_inj (fits : n ≤ 999999) (fits' : m ≤ 999999)
    (same : fraction n ++ '+' :: s = fraction m ++ '+' :: t) : n = m := by
  unfold fraction at same
  split at same
  next whole =>
    split at same
    next whole' => rw [whole, whole']
    next => simp at same
  next =>
    split at same
    next => simp at same
    next =>
      simp only [cons_append, List.cons.injEq, true_and] at same
      exact (pad_append_inj same (by omega) (by omega)).1

theorem isoformat_inj {t u : Datetime} (same : t.isoformat = u.isoformat) : t = u := by
  obtain ⟨year, month, day, hour, minute, second, microsecond, valid⟩ := t
  obtain ⟨year', month', day', hour', minute', second', microsecond', valid'⟩ := u
  have text := String.ofList_inj.mp same
  simp only [append_assoc, cons_append] at text
  obtain ⟨rfl, afterYear⟩ := pad_append_inj text (by omega) (by omega)
  obtain ⟨rfl, afterMonth⟩ := pad_cons_inj afterYear (by omega) (by omega)
  obtain ⟨rfl, afterDay⟩ := pad_cons_inj afterMonth (by omega) (by omega)
  obtain ⟨rfl, afterHour⟩ := pad_cons_inj afterDay (by omega) (by omega)
  obtain ⟨rfl, afterMinute⟩ := pad_cons_inj afterHour (by omega) (by omega)
  obtain ⟨rfl, afterSecond⟩ := pad_cons_inj afterMinute (by omega) (by omega)
  obtain rfl := fraction_inj (by omega) (by omega) afterSecond
  rfl

theorem notMem_isoformat {c : Char} (letter : c.isDigit = false) (apart : c ∉ ['-', 'T', ':', '.', '+'])
    (t : Datetime) : c ∉ t.isoformat.toList := by
  simp only [mem_cons, not_mem_nil, or_false, not_or] at apart
  obtain ⟨dash, time, colon, point, plus⟩ := apart
  have zero : c ≠ '0' := by
    rintro rfl
    cases letter
  have padded : ∀ width n, c ∉ pad width n := by
    intro width n mem
    rw [pad_isDigit c mem] at letter
    cases letter
  have fractional : c ∉ fraction t.microsecond := by
    unfold fraction
    split
    · exact not_mem_nil
    · simp only [mem_cons, padded, or_false]
      exact point
  simp only [Datetime.isoformat, String.toList_ofList, mem_append, mem_cons,
    padded, fractional, dash, time, colon, plus, zero, or_false, not_mem_nil, not_false_eq_true]

theorem separator_notMem_isoformat (t : Datetime) : separator ∉ t.isoformat.toList :=
  notMem_isoformat (by decide) (by decide) t

mutual

theorem wellFormed_iff : ∀ v : Json, Postgres.wellFormed v = true ↔ Loadable v
  | .null | .bool _ | .int _ | .str _ | .float .nan | .float (.infinity _) => iff_of_true rfl trivial
  | .object _ => iff_of_false nofun id
  | .float (.finite repr) => by
    simp only [Postgres.wellFormed, Postgres.numberText, Loadable]
    split
    next text read => simp [read]
    next other => exact iff_of_false Bool.false_ne_true (fun read => other repr read)
  | .arr items => wellFormedItems_iff items
  | .obj fields => by
    rw [Postgres.wellFormed, Bool.and_eq_true, decide_eq_true_eq, wellFormedFields_iff fields]
    rfl

theorem wellFormedItems_iff : ∀ items : List Json,
    Postgres.wellFormedItems items = true ↔ LoadableItems items
  | [] => iff_of_true rfl trivial
  | item :: rest => by
    rw [Postgres.wellFormedItems, Bool.and_eq_true, wellFormed_iff item, wellFormedItems_iff rest]
    rfl

theorem wellFormedFields_iff : ∀ fields : List (String × Json),
    Postgres.wellFormedFields fields = true ↔ LoadableFields fields
  | [] => iff_of_true rfl trivial
  | (_, value) :: rest => by
    rw [Postgres.wellFormedFields, Bool.and_eq_true, wellFormed_iff value, wellFormedFields_iff rest]
    rfl

end

variable {stored other : Postgres.Jsonb}

theorem loadable_orEmpty (stored : Postgres.Jsonb) : Loadable (orEmpty stored.value) := by
  unfold orEmpty
  split
  · exact (wellFormed_iff _).mp stored.wellFormed
  · exact ⟨nodup_nil, trivial⟩

theorem sorted_orEmpty (stored : Postgres.Jsonb) :
    (orEmpty stored.value).sortKeys = orEmpty stored.value := by
  unfold orEmpty
  split
  · exact stored.sorted
  · rfl

theorem encodes_stored (stored : Postgres.Jsonb) : encodeMetadata stored.value = .ok stored.encoded := by
  obtain ⟨text, written⟩ := dumps_ok { sortKeys := true, compact := true } (loadable_orEmpty stored) rfl
  rw [Postgres.Jsonb.encoded, encodeMetadata, written]
  rfl

theorem encoded_loads (stored : Postgres.Jsonb) :
    JsonLoads.loads stored.encoded = some (orEmpty stored.value) := by
  rw [sorted_loaded (loadable_orEmpty stored) rfl (encodes_stored stored), sorted_orEmpty]

theorem encoded_inj (holds : truthy stored.value = true) (exact_ : Postgres.floatCount stored.value = 0)
    (same : stored.encoded = other.encoded) : stored = other := by
  have values := encoded_loads stored
  rw [same, encoded_loads, Option.some.injEq, orEmpty, orEmpty, if_pos holds] at values
  split at values
  next =>
    obtain ⟨value, sorted, wellFormed, decimals, counted⟩ := stored
    obtain ⟨value', sorted', wellFormed', decimals', counted'⟩ := other
    subst values
    obtain rfl := length_eq_zero_iff.mp (counted.trans exact_)
    obtain rfl := length_eq_zero_iff.mp (counted'.trans exact_)
    rfl
  next =>
    rw [← values] at holds
    cases holds

theorem separator_notMem_encoded (stored : Postgres.Jsonb) : separator ∉ stored.encoded.toList := by
  have printable := dumps_printable (loadable_orEmpty stored) (encodes_stored stored) separator
  exact fun mem => absurd (printable mem) (by unfold Printable; decide)

theorem encoded_of_falsy {stored : Postgres.Jsonb} (empty : truthy stored.value = false) :
    ∃ other : Postgres.Jsonb, other ≠ stored ∧ other.encoded = stored.encoded := by
  have texts : ∀ a b : Postgres.Jsonb, truthy a.value = false → truthy b.value = false →
      a.encoded = b.encoded := by
    intro a b falsy falsy'
    rw [Postgres.Jsonb.encoded, Postgres.Jsonb.encoded, encodeMetadata, encodeMetadata, orEmpty, orEmpty,
      falsy, falsy']
    rfl
  by_cases null : stored = ⟨.null, rfl, rfl, [], rfl⟩
  · refine ⟨⟨.arr [], rfl, rfl, [], rfl⟩, ?_, texts _ _ rfl empty⟩
    rw [null]
    intro same
    cases congrArg Postgres.Jsonb.value same
  · exact ⟨⟨.null, rfl, rfl, [], rfl⟩, fun same => null same.symm, texts _ _ rfl empty⟩

/-- Another decimal that is read as the same float. -/
theorem encoded_of_float {stored : Postgres.Jsonb} (floats : Postgres.floatCount stored.value ≠ 0) :
    ∃ other : Postgres.Jsonb, other ≠ stored ∧ other.encoded = stored.encoded := by
  obtain ⟨value, sorted, wellFormed, decimals, counted⟩ := stored
  cases decimals with
  | nil => exact absurd counted.symm floats
  | cons first rest =>
    refine ⟨⟨value, sorted, wellFormed, (first + 1) :: rest, counted⟩, ?_, rfl⟩
    intro same
    have head : first + 1 = first := (List.cons.inj (congrArg Postgres.Jsonb.decimals same)).1
    omega

variable {χ τ μ : Type}

/-- The texts of a row's six columns. -/
def parts (columns : Columns χ τ μ) (row : Fields χ τ μ) : List (List Char) :=
  [(columns.occurred row.occurredAt).toList, (columns.text row.actorId).toList,
    (columns.text row.action).toList, (columns.text row.resource).toList,
    (columns.text row.outcome).toList, (columns.metadata row.metadata).toList]

/-- No column's text holds the separator. -/
def CleanRow (columns : Columns χ τ μ) (row : Fields χ τ μ) : Prop := Clean separator (parts columns row)

theorem canonical_parts (columns : Columns χ τ μ) (previous : String) (row : Fields χ τ μ) :
    (canonical columns previous row).toList =
      join separator (previous.toList :: parts columns row) := by
  have mark : ("\x1f" : String).toList = [separator] := rfl
  simp only [canonical, String.toList_append, mark, parts, join, append_assoc,
    cons_append, nil_append]

theorem canonical_congr
    (same : join separator (parts columns row) = join separator (parts columns row'))
    (previous : String) : canonical columns previous row = canonical columns previous row' := by
  apply String.toList_inj.mp
  rw [canonical_parts, canonical_parts]
  exact congrArg (fun text => previous.toList ++ separator :: text) same

theorem parts_of_canonical {previous : String} (clean : CleanRow columns row)
    (same : canonical columns previous row' = canonical columns previous row) :
    parts columns row' = parts columns row := by
  have texts := congrArg String.toList same
  rw [canonical_parts, canonical_parts] at texts
  have tails := append_cancel_left texts
  rw [List.cons.injEq] at tails
  have lengths : (parts columns row).length = (parts columns row').length := rfl
  exact (join_inj clean lengths tails.2.symm).symm

theorem link_of_canonical {previous previous' : String} (clean : CleanRow columns row)
    (link : separator ∉ previous.toList)
    (same : canonical columns previous' row' = canonical columns previous row) :
    previous' = previous := by
  have texts := congrArg String.toList same
  rw [canonical_parts, canonical_parts] at texts
  have all : Clean separator (previous.toList :: parts columns row) := by
    intro part mem
    rcases mem_cons.mp mem with here | there
    · rw [here]
      exact link
    · exact clean part there
  have lengths : (previous.toList :: parts columns row).length =
      (previous'.toList :: parts columns row').length := rfl
  have lists := join_inj all lengths texts.symm
  rw [List.cons.injEq] at lists
  exact (String.toList_inj.mp lists.1).symm

end Meemee.Guarantees.AuditText
