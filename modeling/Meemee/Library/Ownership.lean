import Meemee.Library.Table

/-!
# Rows and their owners

A row names its owner in a column, or belongs to the row of another table whose key it holds; `path`
lists the tables that lead to the owner column. A deletion of an owner's rows takes the dependents
first, and `Purged` says what it leaves: exactly the rows that were not the owner's.
-/
namespace Library.Ownership
open Library.Table List

/-- A row: its primary key, its owner column, the row it is part of, and its other columns. -/
structure Row (κ ω γ : Type) where
  key : κ
  owner : Option ω
  of : Option κ
  columns : γ
  deriving DecidableEq

variable {τ κ ω γ : Type} [DecidableEq τ] [DecidableEq κ] [DecidableEq ω]

abbrev Database (τ κ ω γ : Type) : Type := τ → Table (Row.key : Row κ ω γ → κ)

/-- The row is the owner's, by the tables its owner is found through. -/
def belongs (db : Database τ κ ω γ) (w : ω) : List τ → Row κ ω γ → Bool
  | [], r => decide (r.owner = some w)
  | t :: rest, r => r.of.any (fun k => ((db t).find k).any (belongs db w rest))

/-- `DELETE FROM t WHERE` the row is the owner's. -/
def deleteOwned (db : Database τ κ ω γ) (w : ω) (t : τ) (path : List τ) : Database τ κ ω γ :=
  fun u => if u = t then (db u).delete (belongs db w path) else db u

/-- One table after the other. -/
def deleteAll (path : τ → List τ) (w : ω) : List τ → Database τ κ ω γ → Database τ κ ω γ
  | [], db => db
  | t :: rest, db => deleteAll path w rest (deleteOwned db w t (path t))

/-- The path of a table continues as the path of the table it leads to. -/
def Coherent (path : τ → List τ) : Prop := ∀ t u rest, path t = u :: rest → rest = path u

/-- No table is emptied before one whose rows are found through it. -/
def DependentsFirst (path : τ → List τ) (tables : List τ) : Prop :=
  tables.Pairwise (fun t u => t ≠ u ∧ t ∉ path u)

/-- The rows of an owner went from some tables, and no other row went from any. -/
def Purged (path : τ → List τ) (w : ω) (tables : List τ) (db db' : Database τ κ ω γ) : Prop :=
  ∀ t, db' t = if t ∈ tables then (db t).delete (belongs db w (path t)) else db t

variable {path : τ → List τ} {v w : ω} {tables : List τ} {db db' : Database τ κ ω γ}
  {r : Row κ ω γ} {t : τ}

omit [DecidableEq τ] in
theorem belongs_column : belongs db w [] r = true ↔ r.owner = some w := by
  simp [belongs]

variable {chain : List τ}

omit [DecidableEq τ] in
theorem belongs_through : belongs db w (t :: chain) r = true ↔
    ∃ k parent, r.of = some k ∧ (db t).find k = some parent ∧ belongs db w chain parent = true := by
  simp [belongs, Option.any_eq_true]

omit [DecidableEq τ] in
theorem belongs_single (first : belongs db v chain r = true)
    (second : belongs db w chain r = true) : v = w := by
  induction chain generalizing r with
  | nil =>
    rw [belongs_column] at first second
    rw [first] at second
    exact Option.some.inj second
  | cons t rest ih =>
    obtain ⟨k, parent, names, found, owned⟩ := belongs_through.mp first
    obtain ⟨k', parent', names', found', owned'⟩ := belongs_through.mp second
    rw [names] at names'
    cases names'
    rw [found] at found'
    cases found'
    exact ih owned owned'

omit [DecidableEq τ] in
theorem belongs_congr (same : ∀ t ∈ chain, db' t = db t) :
    belongs db' w chain = belongs db w chain := by
  induction chain with
  | nil => rfl
  | cons t rest ih =>
    funext r
    rw [belongs, belongs, ih (fun u mem => same u (mem_cons_of_mem _ mem)),
      same t mem_cons_self]

variable {u : τ}

theorem deleteOwned_other (other : u ≠ t) :
    deleteOwned db w t chain u = db u := by
  rw [deleteOwned, if_neg other]

theorem deleteOwned_self :
    deleteOwned db w t chain t = (db t).delete (belongs db w chain) := by
  rw [deleteOwned, if_pos rfl]

theorem purged_deleteAll (order : DependentsFirst path tables) :
    Purged path w tables db (deleteAll path w tables db) := by
  induction tables generalizing db with
  | nil =>
    intro t
    rfl
  | cons t rest ih =>
    obtain ⟨first, later⟩ := pairwise_cons.mp order
    intro u
    rw [deleteAll, ih later u]
    by_cases mem : u ∈ rest
    · obtain ⟨other, untouched⟩ := first u mem
      rw [if_pos mem, if_pos (mem_cons_of_mem _ mem), deleteOwned_other (Ne.symm other)]
      congr 1
      apply belongs_congr
      intro p onPath
      apply deleteOwned_other
      rintro rfl
      exact untouched onPath
    · rw [if_neg mem]
      by_cases here : u = t
      · subst here
        rw [if_pos mem_cons_self, deleteOwned_self]
      · rw [deleteOwned_other here, if_neg]
        intro stored
        rcases mem_cons.mp stored with same | rest
        · exact here same
        · exact mem rest

namespace Purged

variable (purged : Purged path w tables db db')
include purged

theorem mem (stored : r ∈ db' t) : r ∈ db t := by
  rw [purged t] at stored
  split at stored
  · exact (mem_delete.mp stored).1
  · exact stored

theorem find_of_find {k : κ} (found : (db' t).find k = some r) : (db t).find k = some r :=
  find_some_iff.mpr ⟨mem purged (mem_of_find found), key_of_find found⟩

theorem absent (mem : t ∈ tables) (owned : belongs db w (path t) r = true) : r ∉ db' t := by
  intro stored
  rw [purged t, if_pos mem] at stored
  rw [(mem_delete.mp stored).2] at owned
  cases owned

theorem kept (stored : r ∈ db t) (others : belongs db w (path t) r = false) : r ∈ db' t := by
  rw [purged t]
  split
  · exact mem_delete.mpr ⟨stored, others⟩
  · exact stored

theorem belongs_before (owned : belongs db' v chain r = true) :
    belongs db v chain r = true := by
  induction chain generalizing r with
  | nil => exact owned
  | cons t rest ih =>
    obtain ⟨k, parent, names, found, above⟩ := belongs_through.mp owned
    exact belongs_through.mpr ⟨k, parent, names, find_of_find purged found, ih above⟩

theorem gone (mem : t ∈ tables) (stored : r ∈ db' t) : belongs db' w (path t) r = false := by
  cases owned : belongs db' w (path t) r with
  | false => rfl
  | true => exact absurd stored (absent purged mem (belongs_before purged owned))

theorem belongs_other (coherent : Coherent path) (other : v ≠ w) :
    belongs db' v (path t) r = belongs db v (path t) r := by
  have forth : ∀ (chain : List τ) (u : τ) (r : Row κ ω γ), path u = chain →
      belongs db v chain r = true → belongs db' v chain r = true := by
    intro chain
    induction chain with
    | nil => exact fun _ _ _ owned => owned
    | cons p rest ih =>
      intro u r leads owned
      obtain ⟨k, parent, names, found, above⟩ := belongs_through.mp owned
      obtain rfl := coherent u p rest leads
      have stays : belongs db w (path p) parent = false := by
        cases mine : belongs db w (path p) parent with
        | false => rfl
        | true => exact absurd (belongs_single above mine) other
      refine belongs_through.mpr ⟨k, parent, names, ?_, ih p parent rfl above⟩
      exact find_some_iff.mpr
        ⟨kept purged (mem_of_find found) stays, key_of_find found⟩
  rw [Bool.eq_iff_iff]
  exact ⟨belongs_before purged, forth (path t) t r rfl⟩

theorem select_other (coherent : Coherent path) (other : v ≠ w) :
    (db' t).select (belongs db' v (path t)) = (db t).select (belongs db v (path t)) := by
  have same : belongs db' v (path t) = belongs db v (path t) :=
    funext (fun r => belongs_other purged coherent other)
  rw [same, purged t]
  split
  · unfold Table.select Table.delete
    rw [filter_filter]
    apply filter_congr
    intro r _
    cases owned : belongs db v (path t) r with
    | false => rfl
    | true =>
      cases mine : belongs db w (path t) r with
      | false => rfl
      | true => exact absurd (belongs_single owned mine) other
  · rfl

end Purged

theorem purged_nil : Purged path w [] db db := by
  intro t
  rw [if_neg not_mem_nil]

/-- `INSERT OR IGNORE INTO t`. -/
def inserted (db : Database τ κ ω γ) (t : τ) (r : Row κ ω γ) : Database τ κ ω γ :=
  fun u => if u = t then ((db u).insertOrIgnore r).1 else db u

/-- The row with other columns. -/
def Row.recolumned (f : γ → γ) (r : Row κ ω γ) : Row κ ω γ := { r with columns := f r.columns }

omit [DecidableEq κ] [DecidableEq ω] in
@[simp] theorem Row.recolumned_key (f : γ → γ) (r : Row κ ω γ) : (r.recolumned f).key = r.key := rfl

/-- `UPDATE t SET` columns `WHERE p`. -/
def updated (db : Database τ κ ω γ) (t : τ) (p : Row κ ω γ → Bool) (f : γ → γ) :
    Database τ κ ω γ :=
  fun u => if u = t then (db u).update p (Row.recolumned f) (Row.recolumned_key f) else db u

variable {new : Row κ ω γ}

omit [DecidableEq ω] in
theorem mem_inserted (stored : r ∈ inserted db t new u) :
    r ∈ db u ∨ (u = t ∧ r = new) := by
  unfold inserted at stored
  split at stored
  next here =>
    cases fresh : (db u).find new.key with
    | some other =>
      rw [insertOrIgnore_conflict fresh] at stored
      exact .inl stored
    | none =>
      rw [insertOrIgnore_fresh fresh] at stored
      rcases (mem_insert fresh).mp stored with before | same
      · exact .inl before
      · exact .inr ⟨here, same⟩
  next => exact .inl stored

omit [DecidableEq ω] in
theorem find_inserted {k : κ}
    (found : (inserted db t new u).find k = some r) :
    (db u).find k = some r ∨ (u = t ∧ r = new) := by
  rcases mem_inserted (mem_of_find found) with before | same
  · left
    exact find_some_iff.mpr ⟨before, key_of_find found⟩
  · exact .inr same

/-- A row that comes makes rows an owner's only if it is that owner's itself. -/
theorem belongs_inserted (coherent : Coherent path)
    (others : belongs (inserted db t new) w (path t) new = false)
    (owned : belongs (inserted db t new) w (path u) r = true) : belongs db w (path u) r = true := by
  have back : ∀ (chain : List τ) (u : τ) (r : Row κ ω γ), path u = chain →
      belongs (inserted db t new) w chain r = true → belongs db w chain r = true := by
    intro chain
    induction chain with
    | nil => exact fun _ _ _ owned => owned
    | cons p rest ih =>
      intro u r leads owned
      obtain ⟨k, parent, names, found, above⟩ := belongs_through.mp owned
      obtain rfl := coherent u p rest leads
      rcases find_inserted found with before | ⟨rfl, rfl⟩
      · exact belongs_through.mpr ⟨k, parent, names, before, ih p parent rfl above⟩
      · rw [others] at above
        cases above
  exact back (path u) u r rfl owned

variable {p : Row κ ω γ → Bool} {f : γ → γ}

omit [DecidableEq κ] [DecidableEq ω] in
theorem mem_updated (stored : r ∈ updated db t p f u) :
    ∃ old ∈ db u, old.key = r.key ∧ old.owner = r.owner ∧ old.of = r.of := by
  unfold updated at stored
  split at stored
  next =>
    obtain ⟨old, there, rfl⟩ := mem_update.mp stored
    refine ⟨old, there, ?_⟩
    split
    · exact ⟨rfl, rfl, rfl⟩
    · exact ⟨rfl, rfl, rfl⟩
  next => exact ⟨r, stored, rfl, rfl, rfl⟩

omit [DecidableEq ω] in
theorem find_updated {k : κ}
    (found : (updated db t p f u).find k = some r) :
    ∃ old, (db u).find k = some old ∧ old.owner = r.owner ∧ old.of = r.of := by
  obtain ⟨old, there, key, owner, of⟩ := mem_updated (mem_of_find found)
  refine ⟨old, find_some_iff.mpr ⟨there, ?_⟩, owner, of⟩
  rw [key, key_of_find found]

theorem belongs_updated {old : Row κ ω γ}
    (owner : old.owner = r.owner) (of : old.of = r.of)
    (owned : belongs (updated db t p f) w chain r = true) : belongs db w chain old = true := by
  induction chain generalizing r old with
  | nil =>
    rw [belongs_column] at owned ⊢
    rw [owner, owned]
  | cons u rest ih =>
    obtain ⟨k, parent, names, found, above⟩ := belongs_through.mp owned
    obtain ⟨before, found', owner', of'⟩ := find_updated found
    exact belongs_through.mpr ⟨k, before, of.trans names, found', ih owner' of' above⟩

/-- No row of the table is the owner's. -/
def NoneOf (path : τ → List τ) (w : ω) (db : Database τ κ ω γ) (t : τ) : Prop :=
  ∀ r ∈ db t, belongs db w (path t) r = false

omit [DecidableEq τ] in
theorem belongs_of_sub (sub : ∀ u, ∀ r ∈ db' u, r ∈ db u)
    (owned : belongs db' w chain r = true) : belongs db w chain r = true := by
  induction chain generalizing r with
  | nil => exact owned
  | cons t rest ih =>
    obtain ⟨k, parent, names, found, above⟩ := belongs_through.mp owned
    refine belongs_through.mpr ⟨k, parent, names, ?_, ih above⟩
    exact find_some_iff.mpr ⟨sub t parent (mem_of_find found), key_of_find found⟩

omit [DecidableEq τ] in
theorem noneOf_of_sub (sub : ∀ u, ∀ r ∈ db' u, r ∈ db u)
    (before : NoneOf path w db u) : NoneOf path w db' u := by
  intro r stored
  cases owned : belongs db' w (path u) r with
  | false => rfl
  | true =>
    rw [← belongs_of_sub sub owned]
    exact before r (sub u r stored)

theorem noneOf_inserted (coherent : Coherent path)
    (others : belongs (inserted db t new) w (path t) new = false)
    (before : NoneOf path w db u) : NoneOf path w (inserted db t new) u := by
  intro r stored
  cases owned : belongs (inserted db t new) w (path u) r with
  | false => rfl
  | true =>
    rcases mem_inserted stored with old | ⟨rfl, rfl⟩
    · have owned' := belongs_inserted coherent others owned
      rw [before r old] at owned'
      cases owned'
    · rw [others] at owned
      cases owned

theorem noneOf_updated (before : NoneOf path w db u) :
    NoneOf path w (updated db t p f) u := by
  intro r stored
  cases owned : belongs (updated db t p f) w (path u) r with
  | false => rfl
  | true =>
    obtain ⟨old, there, -, owner, of⟩ := mem_updated stored
    have owned' := belongs_updated owner of owned
    rw [before old there] at owned'
    cases owned'

omit [DecidableEq τ] in
theorem noneOf_congr (here : db' u = db u) (above : ∀ p ∈ path u, db' p = db p)
    (before : NoneOf path w db u) : NoneOf path w db' u := by
  intro r stored
  rw [here] at stored
  rw [belongs_congr above]
  exact before r stored

theorem noneOf_inserted_aside (aside : ¬ (u = t ∨ t ∈ path u))
    (before : NoneOf path w db u) : NoneOf path w (inserted db t new) u := by
  have same : ∀ p, p = u ∨ p ∈ path u → inserted db t new p = db p := by
    intro p near
    apply if_neg
    rintro rfl
    rcases near with rfl | onPath
    · exact aside (.inl rfl)
    · exact aside (.inr onPath)
  exact noneOf_congr (same u (.inl rfl)) (fun p onPath => same p (.inr onPath)) before

end Library.Ownership
