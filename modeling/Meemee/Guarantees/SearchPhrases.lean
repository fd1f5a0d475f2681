import Meemee.Source.SearchText

/-!
# A search text is data

The parts of a query that holds no NUL character are read by FTS5 as just these strings, each
an alternative. A NUL is no white space, so it stands in a part, and FTS5 does not see the
quote behind it: such a query is an unterminated string, and the search raises.
-/
namespace Meemee.Guarantees.SearchPhrases
open Library FullText Source SearchText Memory

/-- Any of the parts of a query, or the empty string when there are none. -/
def sought (query : String) : Query :=
  match parts query with
  | [] => word []
  | first :: rest => any first rest

theorem nul_parts (query : String) :
    '\x00' ∈ query.toList ↔ ∃ part ∈ parts query, '\x00' ∈ part := by
  constructor
  · exact fun mem => Words.mem_words mem (by decide)
  · rintro ⟨part, mem, cut⟩
    exact Words.mem_of_words mem cut

theorem alternatives_nil_iff (strings : List (List Char)) :
    alternatives strings = [] ↔ strings = [] := by
  cases strings with
  | nil => simp [alternatives]
  | cons content rest =>
    cases rest with
    | nil => simp [alternatives, quote]
    | cons next rest => simp [alternatives_cons, quote]

theorem safe_parts {query : String} {first : List Char} {rest : List (List Char)}
    (split : parts query = first :: rest) : safe query = alternatives (first :: rest) := by
  have filled : alternatives (first :: rest) ≠ [] := by
    rw [ne_eq, alternatives_nil_iff]
    exact List.cons_ne_nil first rest
  rw [safe, split]
  exact if_neg filled

theorem read_safe {query : String} (free : '\x00' ∉ query.toList) :
    read (safe query) = .ok (sought query) := by
  rw [nul_parts] at free
  unfold sought
  cases split : parts query with
  | nil =>
    have empty : safe query = quote [] := by
      rw [safe, split]
      rfl
    rw [empty]
    rfl
  | cons first rest =>
    rw [safe_parts split]
    refine read_alternatives first rest fun part mem cut => free ⟨part, ?_, cut⟩
    rwa [split]

theorem read_nul {query : String} (cut : '\x00' ∈ query.toList) :
    read (safe query) = .error .unterminatedString := by
  rw [nul_parts] at cut
  cases split : parts query with
  | nil =>
    rw [split] at cut
    simp at cut
  | cons first rest =>
    rw [safe_parts split]
    rw [split] at cut
    exact read_cut cut

/-- The expression reads as the query's parts; answers are its owner's matching rows. -/
structure Phrased (query : String) : Prop where
  expression : read (safe query) = .ok (sought query)
  memories : ∀ (matching : Query → List MemoryRow) (limit : Int) (ownerId : String),
    search matching query limit ownerId = .ok (limited limit
      ((matching (sought query)).filter (fun row => row.ownerId = ownerId)))
  facts : ∀ (matching : Query → List FactRow) (userId : String) (limit : Int),
    searchFacts matching userId query limit = .ok (limited (min (max limit 1) 50)
      ((matching (sought query)).filter
        (fun row => row.userId = userId ∧ row.supersededBy = none)))

/-- A query is searched for as its parts exactly when it holds no NUL character. -/
theorem searched_parts_iff (query : String) : Phrased query ↔ '\x00' ∉ query.toList := by
  constructor
  · intro phrased cut
    have failed := phrased.expression
    rw [read_nul cut] at failed
    cases failed
  · intro free
    have parsed := read_safe free
    refine ⟨parsed, fun matching limit ownerId => ?_, fun matching userId limit => ?_⟩
    · rw [search, parsed]
      rfl
    · rw [searchFacts, parsed]
      rfl

/-- `a\0b`: both searches raise. -/
theorem cut_query_raises :
    ¬ Phrased (String.ofList ['a', '\x00', 'b']) ∧
      read (safe (String.ofList ['a', '\x00', 'b'])) = .error .unterminatedString :=
  have cut : '\x00' ∈ (String.ofList ['a', '\x00', 'b']).toList := by decide
  have failed := read_nul cut
  ⟨fun phrased => (by
    have parsed := phrased.expression
    cases parsed), failed⟩

/-- Operators, filters and quotes of a query are text. -/
example : read (safe "a:b OR \"x") =
    .ok (any "a:b".toList ["OR".toList, "\"x".toList]) := by decide +kernel

end Meemee.Guarantees.SearchPhrases
