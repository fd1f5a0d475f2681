import Mathlib.Data.List.Nodup
import Mathlib.Data.List.Forall2

/-!
# Tables with a primary key

A table is the list of its rows in insertion order, with the proof that no two rows share a primary
key. Every statement is characterised by what `find` answers afterwards; proofs about stores rewrite
with these and never look at the list.
-/
namespace Library
open Option List

/-- Rows of type `ρ`, told apart by the primary key `key`. -/
structure Table {κ ρ : Type} (key : ρ → κ) where
  rows : List ρ
  unique : (rows.map key).Nodup

namespace Table

variable {κ ρ : Type} {key : ρ → κ}

instance : Membership ρ (Table key) := ⟨fun t r => r ∈ t.rows⟩

variable {t : Table key} {r other : ρ} {p : ρ → Bool} {f : ρ → ρ} {k : κ} {before : ρ → ρ → Bool}
  {rows : List ρ}

theorem ext_rows {u : Table key} (same : t.rows = u.rows) : t = u := by
  cases u
  cases same
  rfl

theorem mem_rows : r ∈ t.rows ↔ r ∈ t := Iff.rfl

def empty : Table key := ⟨[], by simp⟩

theorem keys_update (rows : List ρ) (p : ρ → Bool) (f : ρ → ρ) (keeps : ∀ r, key (f r) = key r) :
    (rows.map (fun r => if p r then f r else r)).map key = rows.map key := by
  rw [List.map_map]
  apply map_congr_left
  intro r _
  simp only [Function.comp_apply]
  split
  · exact keeps r
  · rfl

/-- `UPDATE ... SET f WHERE p`; the primary key is never assigned. -/
def update (t : Table key) (p : ρ → Bool) (f : ρ → ρ) (keeps : ∀ r, key (f r) = key r) :
    Table key where
  rows := t.rows.map (fun r => if p r then f r else r)
  unique := by
    rw [keys_update t.rows p f keeps]
    exact t.unique

/-- `DELETE ... WHERE p`. -/
def delete (t : Table key) (p : ρ → Bool) : Table key where
  rows := t.rows.filter (fun r => !p r)
  unique := (List.Sublist.map key filter_sublist).nodup t.unique

/-- `SELECT * ... WHERE p`, in insertion order. -/
def select (t : Table key) (p : ρ → Bool) : List ρ := t.rows.filter p

theorem mem_update {keeps : ∀ r, key (f r) = key r} :
    other ∈ t.update p f keeps ↔ ∃ r ∈ t, (if p r then f r else r) = other := by
  simp [← mem_rows, update]

theorem origin_of_updated (keeps : ∀ r, key (f r) = key r) (mem : other ∈ t.update p f keeps) :
    ∃ r ∈ t, (if p r then f r else r) = other := mem_update.mp mem

theorem updated_mem (p : ρ → Bool) (keeps : ∀ r, key (f r) = key r) (mem : r ∈ t) :
    (if p r then f r else r) ∈ t.update p f keeps :=
  mem_update.mpr ⟨r, mem, rfl⟩

theorem mem_delete : r ∈ t.delete p ↔ r ∈ t ∧ p r = false := by
  simp [← mem_rows, delete]

theorem update_congr {q : ρ → Bool} {keeps : ∀ r, key (f r) = key r} (agree : ∀ r ∈ t, p r = q r) :
    t.update p f keeps = t.update q f keeps := by
  refine ext_rows (map_congr_left ?_)
  intro r mem
  rw [agree r mem]

theorem update_none {t : Table key} {p : ρ → Bool} {f : ρ → ρ} {keeps : ∀ r, key (f r) = key r}
    (unmatched : ∀ r ∈ t, p r = false) : t.update p f keeps = t := by
  refine ext_rows ?_
  conv_rhs => rw [← map_id t.rows]
  refine map_congr_left ?_
  intro r mem
  simp [unmatched r mem]

theorem delete_congr {q : ρ → Bool} (agree : ∀ r ∈ t, p r = q r) : t.delete p = t.delete q := by
  refine ext_rows (filter_congr ?_)
  intro r mem
  rw [agree r mem]

theorem delete_none (unmatched : ∀ r ∈ t, p r = false) : t.delete p = t := by
  refine ext_rows (filter_eq_self.mpr ?_)
  intro r mem
  simp [unmatched r mem]

theorem select_none (unmatched : ∀ r ∈ t, p r = false) : t.select p = [] := by
  rw [select, filter_eq_nil_iff]
  intro r mem
  simp [unmatched r mem]

theorem select_isEmpty : (t.select p).isEmpty = true ↔ ∀ r ∈ t, p r = false := by
  simp [select, filter_eq_nil_iff, mem_rows]

section Keyed

variable [DecidableEq κ]

/-- `SELECT * ... WHERE key = k`. -/
def find (t : Table key) (k : κ) : Option ρ := t.rows.find? (fun r => key r = k)

theorem find_some_iff : t.find k = some r ↔ r ∈ t ∧ key r = k := by
  constructor
  · intro found
    exact ⟨mem_of_find?_eq_some found, by simpa using List.find?_some found⟩
  · rintro ⟨mem, rfl⟩
    cases found : t.find (key r) with
    | none => simpa using List.find?_eq_none.mp found r mem
    | some other =>
      have there := mem_of_find?_eq_some found
      have same : key other = key r := by simpa using List.find?_some found
      rw [inj_on_of_nodup_map t.unique there mem same]

theorem find_none_iff : t.find k = none ↔ ∀ r ∈ t, key r ≠ k := by
  simp [find, List.find?_eq_none, mem_rows]

theorem key_of_find (found : t.find k = some r) : key r = k :=
  (find_some_iff.mp found).2

theorem mem_of_find (found : t.find k = some r) : r ∈ t :=
  (find_some_iff.mp found).1

theorem find_of_mem (mem : r ∈ t) : t.find (key r) = some r :=
  find_some_iff.mpr ⟨mem, rfl⟩

theorem eq_of_find (found : t.find k = some r) (mem : other ∈ t) (keyed : key other = k) :
    other = r := by
  have there := find_of_mem mem
  rw [keyed, found] at there
  exact (Option.some.inj there).symm

theorem select_keyed (t : Table key) (k : κ) (q : ρ → Bool) :
    t.select (fun r => decide (key r = k) && q r) = ((t.find k).filter q).toList := by
  obtain ⟨rows, unique⟩ := t
  simp only [select, find]
  induction rows with
  | nil => rfl
  | cons r rest ih =>
    rw [map_cons, nodup_cons] at unique
    by_cases here : key r = k
    · have alone : rest.filter (fun r => decide (key r = k) && q r) = [] := by
        rw [filter_eq_nil_iff]
        intro other mem met
        simp only [Bool.and_eq_true, decide_eq_true_eq] at met
        exact unique.1 (mem_map.mpr ⟨other, mem, met.1.trans here.symm⟩)
      cases met : q r <;> simp [here, met, alone, filter_some]
    · simp [here, ih unique.2]

@[simp] theorem find_empty (k : κ) : (empty : Table key).find k = none := rfl

theorem find_update (t : Table key) (p : ρ → Bool) (f : ρ → ρ) (keeps : ∀ r, key (f r) = key r)
    (k : κ) : (t.update p f keeps).find k = (t.find k).map (fun r => if p r then f r else r) := by
  simp only [find, update]
  induction t.rows with
  | nil => rfl
  | cons r rest ih =>
    have same : key (if p r then f r else r) = key r := by
      split
      · exact keeps r
      · rfl
    by_cases here : key r = k
    · simp [same, here]
    · simpa [same, here] using ih

theorem find_update_key (t : Table key) (k : κ) (f : ρ → ρ) (keeps : ∀ r, key (f r) = key r)
    (other : κ) : (t.update (fun r => decide (key r = k)) f keeps).find other =
      if other = k then (t.find other).map f else t.find other := by
  rw [find_update]
  cases found : t.find other with
  | none => simp
  | some r =>
    have keyed := key_of_find found
    by_cases here : other = k <;> simp [keyed, here]

section Many

variable {υ : Type} {target : υ → κ} {assign : υ → ρ → ρ}
  {keeps : ∀ u r, key (assign u r) = key r}

/-- `executemany` of `UPDATE ... WHERE key = ?`. -/
def updateMany (t : Table key) (target : υ → κ) (assign : υ → ρ → ρ)
    (keeps : ∀ u r, key (assign u r) = key r) (us : List υ) : Table key :=
  us.foldl (fun t u => t.update (fun r => decide (key r = target u)) (assign u) (keeps u)) t

theorem find_updateMany_other {us : List υ} (others : ∀ u ∈ us, target u ≠ k) :
    (t.updateMany target assign keeps us).find k = t.find k := by
  induction us generalizing t with
  | nil => rfl
  | cons u rest ih =>
    have different : ¬ k = target u := fun same => others u mem_cons_self same.symm
    change (Table.updateMany _ target assign keeps rest).find k = _
    rw [ih (fun u' mem => others u' (mem_cons_of_mem _ mem)), find_update_key,
      if_neg different]

theorem find_updateMany {us : List υ} {u : υ} (distinct : (us.map target).Nodup) (mem : u ∈ us) :
    (t.updateMany target assign keeps us).find (target u) =
      (t.find (target u)).map (assign u) := by
  induction us generalizing t with
  | nil => cases mem
  | cons first rest ih =>
    rw [map_cons, nodup_cons] at distinct
    change (Table.updateMany _ target assign keeps rest).find (target u) = _
    rcases mem_cons.mp mem with rfl | later
    · rw [find_updateMany_other, find_update_key, if_pos rfl]
      intro other there same
      exact distinct.1 (mem_map.mpr ⟨other, there, same⟩)
    · have different : ¬ target u = target first := by
        intro same
        exact distinct.1 (mem_map.mpr ⟨u, later, same⟩)
      rw [ih distinct.2 later, find_update_key, if_neg different]

end Many

theorem find_delete (t : Table key) (p : ρ → Bool) (k : κ) :
    (t.delete p).find k = (t.find k).filter (fun r => !p r) := by
  cases found : t.find k with
  | none =>
    refine find_none_iff.mpr ?_
    intro r mem
    exact find_none_iff.mp found r (mem_of_mem_filter mem)
  | some r =>
    obtain ⟨mem, keyed⟩ := find_some_iff.mp found
    by_cases gone : p r
    · simp only [filter_some, gone, Bool.not_true, Bool.false_eq_true, if_false]
      refine find_none_iff.mpr ?_
      intro other there same
      obtain ⟨stored, kept⟩ := mem_filter.mp there
      have : other = r := inj_on_of_nodup_map t.unique stored mem (same.trans keyed.symm)
      subst this
      simp [gone] at kept
    · simp only [filter_some, gone, Bool.not_false, if_true]
      exact find_some_iff.mpr ⟨mem_filter.mpr ⟨mem, by simp [gone]⟩, keyed⟩

/-- `INSERT` of a row whose key is new. -/
def insert (t : Table key) (r : ρ) (fresh : t.find (key r) = none) : Table key where
  rows := t.rows ++ [r]
  unique := by
    rw [map_append, nodup_append]
    refine ⟨t.unique, by simp, ?_⟩
    intro k there k' here same
    obtain ⟨other, member, rfl⟩ := mem_map.mp there
    simp only [map_cons, map_nil, mem_singleton] at here
    exact find_none_iff.mp fresh other member (same.trans here)

theorem find_insert (t : Table key) (r : ρ) (fresh : t.find (key r) = none) (k : κ) :
    (t.insert r fresh).find k = if key r = k then some r else t.find k := by
  have split : (t.insert r fresh).find k = (t.find k).or ([r].find? (fun r => key r = k)) := by
    simp [find, insert]
  rw [split]
  by_cases here : key r = k
  · subst here
    simp [fresh]
  · simp [here]

/-- `INSERT ... ON CONFLICT DO NOTHING`: the table, and whether the row went in. -/
def insertOrIgnore (t : Table key) (r : ρ) : Table key × Bool :=
  if fresh : t.find (key r) = none then (t.insert r fresh, true) else (t, false)

theorem insertOrIgnore_fresh {t : Table key} {r : ρ} (fresh : t.find (key r) = none) :
    t.insertOrIgnore r = (t.insert r fresh, true) := by
  unfold insertOrIgnore
  rw [dif_pos fresh]

theorem insertOrIgnore_conflict {t : Table key} {r other : ρ}
    (found : t.find (key r) = some other) : t.insertOrIgnore r = (t, false) := by
  unfold insertOrIgnore
  rw [dif_neg (by simp [found])]

theorem find_inserted (fresh : t.find (key r) = none) (k : κ) :
    (t.insertOrIgnore r).1.find k = if key r = k then some r else t.find k := by
  rw [insertOrIgnore_fresh fresh, find_insert]

theorem fresh_of_inserted (inserted : (t.insertOrIgnore r).2 = true) : t.find (key r) = none := by
  cases found : t.find (key r) with
  | none => rfl
  | some other =>
    rw [insertOrIgnore_conflict found] at inserted
    cases inserted

theorem find_insert_of_found (fresh : t.find (key r) = none) (found : t.find k = some other) :
    (t.insert r fresh).find k = some other := by
  rw [find_insert, if_neg, found]
  rintro rfl
  rw [fresh] at found
  cases found

theorem select_insert (fresh : t.find (key r) = none) (p : ρ → Bool) :
    (t.insert r fresh).select p = t.select p ++ if p r then [r] else [] := by
  simp only [select, insert, filter_append, filter_cons, filter_nil]

theorem mem_insert (fresh : t.find (key r) = none) :
    other ∈ t.insert r fresh ↔ other ∈ t ∨ other = r := by
  simp [← mem_rows, insert]

theorem mem_insertOrIgnore (mem : other ∈ t) : other ∈ (t.insertOrIgnore r).1 := by
  cases found : t.find (key r) with
  | none =>
    rw [insertOrIgnore_fresh found, mem_insert]
    exact .inl mem
  | some stored =>
    rw [insertOrIgnore_conflict found]
    exact mem

/-- `INSERT OR REPLACE`. -/
def replace (t : Table key) (r : ρ) : Table key :=
  ((t.delete (fun other => decide (key other = key r))).insertOrIgnore r).1

theorem fresh_deleted (t : Table key) (k : κ) :
    (t.delete (fun other => decide (key other = k))).find k = none := by
  rw [find_delete]
  cases found : t.find k with
  | none => rfl
  | some r => simp [filter_some, key_of_find found]

theorem mem_replace : other ∈ t.replace r ↔ (other ∈ t ∧ key other ≠ key r) ∨ other = r := by
  rw [replace, insertOrIgnore_fresh (fresh_deleted t (key r)), mem_insert, mem_delete]
  simp

theorem find_replace (t : Table key) (r : ρ) (k : κ) :
    (t.replace r).find k = if key r = k then some r else t.find k := by
  rw [replace, find_inserted (fresh_deleted t (key r)), find_delete]
  by_cases here : key r = k
  · rw [if_pos here, if_pos here]
  · cases found : t.find k with
    | none => rfl
    | some other =>
      have keyed := key_of_find found
      have different : ¬ key other = key r := fun same => here (same.symm.trans keyed)
      simp [filter_some, different]

/-- The rows of one table with those of another put in their place or added. -/
def merge (t u : Table key) : Table key where
  rows := t.rows.filter (fun r => (u.find (key r)).isNone) ++ u.rows
  unique := by
    rw [map_append, nodup_append]
    refine ⟨(filter_sublist.map key).nodup t.unique, u.unique, ?_⟩
    intro k there k' here same
    obtain ⟨r, member, rfl⟩ := mem_map.mp there
    obtain ⟨other, stored, rfl⟩ := mem_map.mp here
    have absent := (mem_filter.mp member).2
    rw [same, find_of_mem stored] at absent
    cases absent

theorem find_merge (t u : Table key) (k : κ) : (t.merge u).find k = (u.find k).or (t.find k) := by
  have split : (t.merge u).find k =
      ((t.rows.filter (fun r => (u.find (key r)).isNone)).find? (fun r => key r = k)).or
        (u.find k) := by
    simp [find, merge]
  have kept : (t.rows.filter (fun r => (u.find (key r)).isNone)).find? (fun r => key r = k) =
      (t.find k).filter (fun r => (u.find (key r)).isNone) := by
    have deleted := find_delete t (fun r => (u.find (key r)).isSome) k
    simp only [not_isSome] at deleted
    rw [← deleted]
    simp [find, delete]
  rw [split, kept]
  cases found : u.find k with
  | none =>
    cases stored : t.find k with
    | none => rfl
    | some r => simp [filter_some, key_of_find stored, found]
  | some other =>
    cases stored : t.find k with
    | none => rfl
    | some r => simp [filter_some, key_of_find stored, found]

end Keyed

section Related

variable {ρ' : Type} {R : ρ → ρ' → Prop} {a : Option ρ} {b : Option ρ'}

theorem rel_some (related : Option.Rel R a b) (found : a = some r) :
    ∃ r', b = some r' ∧ R r r' := by
  subst found
  cases related with
  | some pair => exact ⟨_, rfl, pair⟩

theorem rel_none (related : Option.Rel R a b) (absent : a = none) : b = none := by
  subst absent
  cases related
  rfl

theorem rel_map {f : ρ' → ρ'} (related : Option.Rel R a b)
    (keeps : ∀ r r', a = some r → R r r' → R r (f r')) : Option.Rel R a (b.map f) := by
  cases related with
  | none => exact .none
  | some pair => exact .some (keeps _ _ rfl pair)

theorem rel_refl {R : ρ → ρ → Prop} (refl : ∀ r, R r r) (a : Option ρ) : Option.Rel R a a := by
  cases a with
  | none => exact .none
  | some r => exact .some (refl r)

end Related

/-- The first row of a list under an order; among equals, the earlier one. -/
def leastOf (before : ρ → ρ → Bool) : List ρ → Option ρ
  | [] => none
  | r :: rest =>
    match leastOf before rest with
    | none => some r
    | some best => if before best r then some best else some r

/-- `SELECT * ... WHERE p ORDER BY before LIMIT 1`. -/
def first (t : Table key) (p : ρ → Bool) (before : ρ → ρ → Bool) : Option ρ :=
  leastOf before (t.select p)

theorem leastOf_mem (least : leastOf before rows = some r) : r ∈ rows := by
  induction rows generalizing r with
  | nil => cases least
  | cons head rest ih =>
    simp only [leastOf] at least
    split at least
    · cases least
      exact mem_cons_self
    next best found =>
      split at least
      · cases least
        exact mem_cons_of_mem _ (ih found)
      · cases least
        exact mem_cons_self

theorem leastOf_isSome {before : ρ → ρ → Bool} {rows : List ρ} (nonempty : rows ≠ []) :
    (leastOf before rows).isSome := by
  cases rows with
  | nil => exact absurd rfl nonempty
  | cons head rest =>
    simp only [leastOf]
    split
    · rfl
    · split <;> rfl

theorem first_some (least : t.first p before = some r) : r ∈ t ∧ p r = true :=
  mem_filter.mp (leastOf_mem least)

theorem leastOf_related {ρ' : Type} {R : ρ → ρ' → Prop} {before' : ρ' → ρ' → Bool}
    (agree : ∀ a a' b b', R a a' → R b b' → before a b = before' a' b') {rows' : List ρ'}
    (related : List.Forall₂ R rows rows') :
    Option.Rel R (leastOf before rows) (leastOf before' rows') := by
  induction related with
  | nil => exact .none
  | cons head _ ih =>
    simp only [leastOf]
    revert ih
    cases leastOf before _ <;> cases leastOf before' _ <;> intro ih
    · exact .some head
    · cases ih
    · cases ih
    · cases ih with
      | some best =>
        simp only [agree _ _ _ _ best head]
        split
        · exact .some best
        · exact .some head

section Matched

variable {ρ' : Type} {key' : ρ' → κ} {R S : ρ → ρ' → Prop}

theorem key_of_mem_zip {rows' : List ρ'} (order : rows.map key = rows'.map key') {r' : ρ'}
    (mem : (r, r') ∈ rows.zip rows') : key r = key' r' := by
  induction rows generalizing rows' with
  | nil => simp at mem
  | cons first rest ih =>
    cases rows' with
    | nil => simp at mem
    | cons first' rest' =>
      simp only [map_cons, List.cons.injEq] at order
      rcases mem_cons.mp mem with here | later
      · cases here
        exact order.1
      · exact ih order.2 later

variable [DecidableEq κ]

/-- The same keys in the same order, and related rows under each. -/
structure Matched (R : ρ → ρ' → Prop) (t : Table key) (u : Table key') : Prop where
  order : t.rows.map key = u.rows.map key'
  rows : ∀ k, Option.Rel R (t.find k) (u.find k)

variable {u : Table key'}

theorem Matched.forall₂ (matched : Matched R t u) :
    List.Forall₂ R t.rows u.rows := by
  have lengths : t.rows.length = u.rows.length := by
    simpa using congrArg List.length matched.order
  refine List.forall₂_iff_zip.mpr ⟨lengths, ?_⟩
  intro r r' mem
  have there : t.find (key r) = some r := find_of_mem (of_mem_zip mem).1
  have there' : u.find (key' r') = some r' := find_of_mem (of_mem_zip mem).2
  have pair := matched.rows (key r)
  rw [there, key_of_mem_zip matched.order mem, there'] at pair
  cases pair with
  | some related => exact related

theorem Matched.first (matched : Matched R t u) {q : ρ' → Bool}
    {before' : ρ' → ρ' → Bool} (select : ∀ r r', R r r' → p r = q r')
    (agree : ∀ a a' b b', R a a' → R b b' → before a b = before' a' b') :
    Option.Rel R (t.first p before) (u.first q before') := by
  refine leastOf_related agree (rel_filter ?_ matched.forall₂)
  intro r r' related
  simp only [select r r' related]

theorem Matched.update (matched : Matched R t u) {g : ρ' → ρ'}
    (keeps : ∀ r, key (f r) = key r) (keeps' : ∀ r, key' (g r) = key' r)
    (here : ∀ r r', t.find k = some r → R r r' → S (f r) (g r'))
    (others : ∀ r r', key r ≠ k → R r r' → S r r') :
    Matched S (t.update (fun r => decide (key r = k)) f keeps)
      (u.update (fun r => decide (key' r = k)) g keeps') := by
  refine ⟨?_, ?_⟩
  · rw [Table.update, Table.update, keys_update t.rows _ f keeps, keys_update u.rows _ g keeps']
    exact matched.order
  · intro other
    rw [find_update_key, find_update_key]
    have pair := matched.rows other
    cases found : t.find other with
    | none =>
      rw [rel_none pair found]
      split <;> exact .none
    | some r =>
      obtain ⟨r', found', related⟩ := rel_some pair found
      rw [found']
      by_cases same : other = k
      · subst same
        rw [if_pos rfl, if_pos rfl]
        exact .some (here r r' found related)
      · rw [if_neg same, if_neg same]
        refine .some (others r r' ?_ related)
        rw [key_of_find found]
        exact same

theorem Matched.insert (matched : Matched R t u) {r' : ρ'} (same : key r = key' r')
    (related : R r r') (fresh : t.find (key r) = none) (fresh' : u.find (key' r') = none) :
    Matched R (t.insert r fresh) (u.insert r' fresh') := by
  refine ⟨?_, ?_⟩
  · simp only [Table.insert, map_append, matched.order, map_cons, same, map_nil]
  · intro other
    rw [find_insert, find_insert, ← same]
    by_cases here : key r = other
    · rw [if_pos here, if_pos here]
      exact .some related
    · rw [if_neg here, if_neg here]
      exact matched.rows other

end Matched

end Table

end Library
