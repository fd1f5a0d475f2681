import Meemee.Library.Tally

/-!
# Two tables row by row

Two tables are paired by a relation on their rows when their rows correspond one to one, in order.
What looks at related rows alike selects paired rows, and operations that take related rows to
related rows keep the pairing.
-/
namespace Library.Table

variable {κ ρ ρ' : Type} {key : ρ → κ} {key' : ρ' → κ} {R : ρ → ρ' → Prop} {t : Table key}
  {u : Table key'}

/-- The rows of two tables, related one to one. -/
def Paired (R : ρ → ρ' → Prop) (t : Table key) (u : Table key') : Prop := List.Forall₂ R t.rows u.rows

theorem paired_empty : Paired R (empty : Table key) (empty : Table key') := List.Forall₂.nil

variable {p : ρ → Bool} {q : ρ' → Bool}

theorem Paired.select (paired : Paired R t u) (alike : ∀ r r', R r r' → p r = q r') :
    List.Forall₂ R (t.select p) (u.select q) := by
  refine List.rel_filter ?_ paired
  intro r r' related
  simp only [alike r r' related]

theorem Paired.tally (paired : Paired R t u) (alike : ∀ r r', R r r' → p r = q r') :
    t.tally p = u.tally q :=
  (paired.select alike).length_eq

theorem Paired.isEmpty (paired : Paired R t u) (alike : ∀ r r', R r r' → p r = q r') :
    (t.select p).isEmpty = (u.select q).isEmpty := by
  have lengths := (paired.select alike).length_eq
  rw [Bool.eq_iff_iff, List.isEmpty_iff_length_eq_zero, List.isEmpty_iff_length_eq_zero, lengths]

theorem Paired.delete (paired : Paired R t u) (alike : ∀ r r', R r r' → p r = q r') :
    Paired R (t.delete p) (u.delete q) := by
  refine List.rel_filter ?_ paired
  intro r r' related
  simp only [alike r r' related]

theorem Paired.update (paired : Paired R t u) {f : ρ → ρ} {g : ρ' → ρ'}
    (keeps : ∀ r, key (f r) = key r) (keeps' : ∀ r, key' (g r) = key' r)
    (alike : ∀ r r', R r r' → p r = q r') (related : ∀ r r', R r r' → R (f r) (g r')) :
    Paired R (t.update p f keeps) (u.update q g keeps') := by
  refine List.rel_map ?_ paired
  intro r r' here
  simp only [alike r r' here]
  split
  · exact related r r' here
  · exact here

variable [DecidableEq κ]

omit [DecidableEq κ] in
theorem find?_related {rows : List ρ} {rows' : List ρ'} (related : List.Forall₂ R rows rows')
    (alike : ∀ r r', R r r' → p r = q r') : Option.Rel R (rows.find? p) (rows'.find? q) := by
  induction related with
  | nil => exact .none
  | cons here rest ih =>
    rw [List.find?_cons, List.find?_cons, alike _ _ here]
    split
    · exact .some here
    · exact ih

theorem Paired.find (paired : Paired R t u) (same : ∀ r r', R r r' → key r = key' r') (k : κ) :
    Option.Rel R (t.find k) (u.find k) := by
  apply find?_related paired
  intro r r' related
  rw [same r r' related]

theorem Paired.replace (paired : Paired R t u) (same : ∀ r r', R r r' → key r = key' r') {r : ρ}
    {r' : ρ'} (related : R r r') : Paired R (t.replace r) (u.replace r') := by
  have deleted := paired.delete (p := fun other => decide (key other = key r))
    (q := fun other => decide (key' other = key' r')) (by
      intro other other' here
      rw [same other other' here, same r r' related])
  rw [Table.replace, Table.replace, insertOrIgnore_fresh (fresh_deleted t (key r)),
    insertOrIgnore_fresh (fresh_deleted u (key' r'))]
  exact List.rel_append deleted (List.Forall₂.cons related List.Forall₂.nil)

end Library.Table
