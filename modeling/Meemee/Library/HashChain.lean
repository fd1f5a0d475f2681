import Mathlib.Data.List.Induction
import Mathlib.Data.List.Forall2

/-!
# Hash chains

Each entry of a chain names the hash of the one before it and carries its own. Appending, and cutting
off a prefix with the hash it ended in kept as the new start, keep a chain linked. An edit that deletes
at the end only goes unseen exactly when no digest changes, and a chain that does not come back to its
start shows every other deletion.
-/
namespace Library
open List

/-- How the entries `ρ` of a chain carry hashes `κ`. `digest start` is the hash an entry
should have after `start`. -/
structure ChainFormat (ρ κ : Type) where
  previous : ρ → κ
  hash : ρ → κ
  digest : κ → ρ → κ

namespace ChainFormat

variable {ρ κ : Type} (F : ChainFormat ρ κ)

/-- Each entry names the hash before it and carries the digest that follows from it. -/
def Linked : κ → List ρ → Prop
  | _, [] => True
  | start, r :: rest => (F.previous r = start ∧ F.hash r = F.digest start r) ∧ Linked (F.hash r) rest

/-- The hash the next entry will name. -/
def head : κ → List ρ → κ
  | start, [] => start
  | _, r :: rest => head (F.hash r) rest

theorem head_append (start : κ) (first second : List ρ) :
    F.head start (first ++ second) = F.head (F.head start first) second := by
  induction first generalizing start with
  | nil => rfl
  | cons r rest ih => exact ih (F.hash r)

theorem head_concat (start : κ) (rows : List ρ) (r : ρ) : F.head start (rows ++ [r]) = F.hash r := by
  rw [head_append]
  rfl

theorem linked_append (start : κ) (first second : List ρ) :
    F.Linked start (first ++ second) ↔ F.Linked start first ∧ F.Linked (F.head start first) second := by
  induction first generalizing start with
  | nil => simp [Linked, head]
  | cons r rest ih => simp only [cons_append, Linked, head, ih, and_assoc]

theorem linked_concat (start : κ) (rows : List ρ) (r : ρ) :
    F.Linked start (rows ++ [r]) ↔ F.Linked start rows ∧
      F.previous r = F.head start rows ∧ F.hash r = F.digest (F.head start rows) r := by
  simp [linked_append, Linked]

/-- An edit keeps an entry, perhaps rewritten, or deletes it; the hash it leaves alone. -/
def LeavesHash (f : ρ → Option ρ) : Prop := ∀ r r', f r = some r' → F.hash r' = F.hash r

/-- What is deleted is at the end. -/
def KeepsPrefix (f : ρ → Option ρ) : List ρ → Prop
  | [] => True
  | r :: rest =>
    match f r with
    | none => ∀ later ∈ rest, f later = none
    | some _ => KeepsPrefix f rest

/-- Every entry that is kept names the hash before it and has the digest it had. -/
def SameDigests (f : ρ → Option ρ) : κ → List ρ → Prop
  | _, [] => True
  | start, r :: rest =>
    (∀ r', f r = some r' → F.previous r' = start ∧ F.digest start r' = F.digest start r) ∧
      SameDigests f (F.hash r) rest

variable {f : ρ → Option ρ} {rows others : List ρ} {start : κ} {r : ρ}

theorem filterMap_none (gone : ∀ r ∈ rows, f r = none) : rows.filterMap f = [] := by
  rw [filterMap_eq_nil_iff]
  exact gone

theorem sameDigests_of_gone (gone : ∀ r ∈ rows, f r = none) (start : κ) :
    F.SameDigests f start rows := by
  induction rows generalizing start with
  | nil => trivial
  | cons r rest ih =>
    constructor
    · intro r' kept
      rw [gone r mem_cons_self] at kept
      cases kept
    · exact ih (fun later mem => gone later (mem_cons_of_mem _ mem)) _

/-- An edit that deletes at the end only goes unseen exactly when no digest changes. -/
theorem linked_edit_iff (leaves : F.LeavesHash f) (linked : F.Linked start rows)
    (keeps : KeepsPrefix f rows) :
    F.Linked start (rows.filterMap f) ↔ F.SameDigests f start rows := by
  induction rows generalizing start with
  | nil => exact Iff.rfl
  | cons r rest ih =>
    obtain ⟨⟨-, carries⟩, later⟩ := linked
    cases kept : f r with
    | none =>
      simp only [KeepsPrefix, kept] at keeps
      have gone : ∀ other ∈ r :: rest, f other = none := by
        intro other mem
        rcases mem_cons.mp mem with here | there
        · rw [here]
          exact kept
        · exact keeps other there
      rw [filterMap_none gone]
      exact iff_of_true trivial (F.sameDigests_of_gone gone start)
    | some r' =>
      simp only [KeepsPrefix, kept] at keeps
      have sameHash := leaves r r' kept
      have rest_iff := ih later keeps
      simp only [filterMap_cons, kept, Linked, SameDigests, Option.some.injEq, forall_eq',
        sameHash, rest_iff, ← carries]
      apply and_congr_left'
      apply and_congr_right'
      exact eq_comm

theorem first_kept (f : ρ → Option ρ) (rows : List ρ) :
    (∀ r ∈ rows, f r = none) ∨ ∃ before r r' after, rows = before ++ r :: after ∧
      (∀ other ∈ before, f other = none) ∧ f r = some r' := by
  induction rows with
  | nil => exact .inl nofun
  | cons r rest ih =>
    cases kept : f r with
    | some r' => exact .inr ⟨[], r, r', rest, rfl, nofun, kept⟩
    | none =>
      have extend : ∀ gone : List ρ, (∀ other ∈ gone, f other = none) →
          ∀ other ∈ r :: gone, f other = none := by
        intro gone all other mem
        rcases mem_cons.mp mem with here | there
        · rw [here]
          exact kept
        · exact all other there
      rcases ih with all | ⟨before, x, x', after, split, gone, found⟩
      · exact .inl (extend rest all)
      · exact .inr ⟨r :: before, x, x', after, by rw [split]; rfl, extend before gone, found⟩

theorem head_mem (start : κ) (rows : List ρ) : F.head start rows ∈ start :: rows.map F.hash := by
  induction rows generalizing start with
  | nil => exact mem_cons_self
  | cons r rest ih => exact mem_cons_of_mem _ (ih (F.hash r))

/-- An entry's digest after another hash or with other content is never the one it has. -/
def Binds (rows : List ρ) : Prop :=
  ∀ x ∈ rows, ∀ link ∈ rows.map F.hash, ∀ start y, F.digest start y = F.digest link x → start = link

theorem Binds.mono (binds : F.Binds rows) (subset : others ⊆ rows) : F.Binds others :=
  fun x mem link linkMember => binds x (subset mem) link (map_subset _ subset linkMember)

/-- A row that digests as a later entry follows a hash the chain carries before it. -/
theorem start_mem_of_digest {before after : List ρ} {x : ρ}
    (binds : F.Binds (r :: (before ++ x :: after)))
    (linked : F.Linked (F.hash r) (before ++ x :: after)) {y : ρ}
    (same : F.digest start y = F.hash x) :
    start ∈ ((r :: (before ++ x :: after)).map F.hash).dropLast := by
  obtain ⟨-, ⟨-, carries⟩, -⟩ := (F.linked_append _ _ _).mp linked
  have among : F.head (F.hash r) before ∈ F.hash r :: before.map F.hash := F.head_mem _ _
  have shape : (r :: (before ++ x :: after)).map F.hash =
      (F.hash r :: before.map F.hash) ++ (x :: after).map F.hash := by simp
  have known : F.head (F.hash r) before ∈ (r :: (before ++ x :: after)).map F.hash := by
    rw [shape]
    exact mem_append_left _ among
  have follows : start = F.head (F.hash r) before :=
    binds x (by simp) _ known start y (by rw [same, carries])
  rw [shape, map_cons, dropLast_append_of_ne_nil (cons_ne_nil _ _), follows]
  exact mem_append_left _ among

theorem hash_not_repeated {rest : List ρ} (binds : F.Binds (r :: rest))
    (linked : F.Linked start (r :: rest)) (apart : start ∉ ((r :: rest).map F.hash).dropLast) :
    F.hash r ∉ rest.map F.hash := by
  intro repeated
  obtain ⟨x, mem, same⟩ := mem_map.mp repeated
  obtain ⟨before, after, split⟩ := append_of_mem mem
  subst split
  obtain ⟨⟨-, carries⟩, later⟩ := linked
  exact apart (F.start_mem_of_digest binds later (by rw [same, carries]))

theorem keepsPrefix_of_linked (leaves : F.LeavesHash f) (binds : F.Binds rows)
    (linked : F.Linked start rows) (apart : start ∉ (rows.map F.hash).dropLast)
    (edited : F.Linked start (rows.filterMap f)) : KeepsPrefix f rows := by
  induction rows generalizing start with
  | nil => trivial
  | cons r rest ih =>
    have apart' : F.hash r ∉ (rest.map F.hash).dropLast := fun repeated =>
      F.hash_not_repeated binds linked apart (dropLast_subset _ repeated)
    obtain ⟨-, later⟩ := linked
    cases kept : f r with
    | some r' =>
      simp only [filterMap_cons, kept, Linked, leaves r r' kept] at edited
      simp only [KeepsPrefix, kept]
      exact ih (Binds.mono F binds (subset_cons_self _ _)) later apart' edited.2
    | none =>
      simp only [KeepsPrefix, kept]
      rcases first_kept f rest with all | ⟨before, x, x', after, split, gone, found⟩
      · exact all
      · -- The first entry kept after a deletion follows the start of the chain.
        have carries : F.hash x' = F.digest start x' := by
          rw [split, filterMap_cons, kept, filterMap_append, filterMap_none gone,
            filterMap_cons, found] at edited
          exact edited.1.2
        subst split
        have same : F.digest start x' = F.hash x := by
          rw [← carries]
          exact leaves x x' found
        exact absurd (F.start_mem_of_digest binds later same) apart

/-- Two entries with the same link, the same hash and, after some link, the same digest. -/
def Twins (b a : ρ) : Prop :=
  F.previous b = F.previous a ∧ F.hash b = F.hash a ∧ ∃ link, F.digest link b = F.digest link a

/-- The last entries of two chains with one head are twins, and what they follow is one. -/
theorem twins_of_same_head {first : List ρ} {a b : ρ} (binds : F.Binds (first ++ [a]))
    (linked : F.Linked start (first ++ [a])) (linked' : F.Linked start (others ++ [b]))
    (heads : F.head start (others ++ [b]) = F.head start (first ++ [a]))
    (earlier : first = [] → others = []) :
    F.Twins b a ∧ F.head start others = F.head start first := by
  obtain ⟨-, named, carries⟩ := (F.linked_concat _ _ _).mp linked
  obtain ⟨-, named', carries'⟩ := (F.linked_concat _ _ _).mp linked'
  rw [F.head_concat, F.head_concat] at heads
  have digests : F.digest (F.head start others) b = F.digest (F.head start first) a := by
    rw [← carries', ← carries, heads]
  have links : F.head start others = F.head start first := by
    rcases eq_nil_or_concat first with empty | ⟨front, last, shape⟩
    · rw [empty, earlier empty]
    · have known : F.head start first ∈ (first ++ [a]).map F.hash := by
        rw [shape, concat_eq_append, F.head_concat]
        simp
      exact binds a (by simp) _ known _ b digests
  refine ⟨⟨?_, heads, F.head start first, ?_⟩, links⟩
  · rw [named, named', links]
  · rw [← digests, links]

theorem twins_of_length (binds : F.Binds rows) (linked : F.Linked start rows)
    (linked' : F.Linked start others) (heads : F.head start others = F.head start rows)
    (lengths : others.length = rows.length) : List.Forall₂ F.Twins others rows := by
  induction rows using List.reverseRecOn generalizing others with
  | nil =>
    rw [length_eq_zero_iff.mp lengths]
    exact List.Forall₂.nil
  | append_singleton first a ih =>
    rcases eq_nil_or_concat others with empty | ⟨before, b, shape⟩
    · rw [empty] at lengths
      simp at lengths
    · rw [concat_eq_append] at shape
      subst shape
      have shorter : before.length = first.length := by simpa using lengths
      obtain ⟨twins, links⟩ := F.twins_of_same_head binds linked linked' heads
        (fun empty => length_eq_zero_iff.mp (by rw [shorter, empty]; rfl))
      have rest := ih (Binds.mono F binds (subset_append_left _ _))
        ((F.linked_append _ _ _).mp linked).1 ((F.linked_append _ _ _).mp linked').1 links shorter
      exact rel_append rest (List.Forall₂.cons twins List.Forall₂.nil)

theorem returns_of_shorter (binds : F.Binds rows) (linked : F.Linked start rows)
    (linked' : F.Linked start others) (heads : F.head start others = F.head start rows)
    (shorter : others.length < rows.length) :
    start ∈ rows.map F.hash ∧ (others ≠ [] → start ∈ (rows.map F.hash).dropLast) := by
  induction rows using List.reverseRecOn generalizing others with
  | nil => simp at shorter
  | append_singleton first a ih =>
    have split : ((first ++ [a]).map F.hash).dropLast = first.map F.hash := by
      rw [map_append, map_singleton, dropLast_concat]
    have within : first.map F.hash ⊆ (first ++ [a]).map F.hash :=
      map_subset _ (subset_append_left _ _)
    rcases eq_nil_or_concat others with empty | ⟨before, b, shape⟩
    · subst empty
      rw [F.head_concat] at heads
      have start_last : start = F.hash a := heads
      exact ⟨by simp [start_last], fun nonempty => absurd rfl nonempty⟩
    · rw [concat_eq_append] at shape
      subst shape
      have less : before.length < first.length := by simpa using shorter
      obtain ⟨-, links⟩ := F.twins_of_same_head binds linked linked' heads
        (fun empty => by rw [empty] at less; simp at less)
      have returns := (ih (Binds.mono F binds (subset_append_left _ _))
        ((F.linked_append _ _ _).mp linked).1 ((F.linked_append _ _ _).mp linked').1 links less).1
      exact ⟨within returns, fun _ => by rw [split]; exact returns⟩

theorem linked_of_return {first : List ρ} {rest : List ρ}
    (linked : F.Linked start (first ++ r :: rest)) (returns : F.hash r = start) :
    F.Linked start rest := by
  have split := ((F.linked_append _ _ _).mp linked).2.2
  rwa [returns] at split

end ChainFormat

end Library
