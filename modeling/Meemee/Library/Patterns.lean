import Mathlib.Data.List.Basic

/-!
# Patterns found in a text

A pattern is tried at a place of a text, alternatives in order, repetitions as long as they can be,
and given back where what follows does not fit. `find` is that search; `Takes` says what a pattern
may take, and the search succeeds exactly where something may be taken. `scan` goes through a text
from its start and passes over what each match took.
-/
namespace Library.Patterns
open Option List

variable {κ ρ : Type}

/-- A place in a text: what stands before it, what stands from it on, and the groups read so far. -/
structure Place (κ : Type) where
  before : Option κ
  rest : List κ
  groups : List (List κ)
deriving DecidableEq, Repr

inductive Pattern (κ : Type)
  | nothing
  | set (holds : κ → Bool)
  | many (holds : κ → Bool) (least : Nat)
  | boundary
  | sequence (first second : Pattern κ)
  | either (first second : Pattern κ)
  | group (inner : Pattern κ)

/-- Whether a word starts or ends between two neighbours. -/
def edge (word : κ → Bool) (before after : Option κ) : Bool :=
  before.any word != after.any word

/-- What stands before a place once some characters were passed. -/
def behind : Option κ → List κ → Option κ
  | before, [] => before
  | _, c :: taken => behind (some c) taken

@[simp] theorem behind_nil (before : Option κ) : behind before [] = before := rfl

@[simp] theorem behind_cons (before : Option κ) (c : κ) (taken : List κ) :
    behind before (c :: taken) = behind (some c) taken := rfl

theorem behind_append (before : Option κ) (first second : List κ) :
    behind before (first ++ second) = behind (behind before first) second := by
  induction first generalizing before with
  | nil => rfl
  | cons c first ih => exact ih (some c)

/-- A repetition takes one more character first, and stops only where that leads nowhere. -/
def greedy (holds : κ → Bool) (groups : List (List κ)) (next : Place κ → Option ρ) :
    Nat → Option κ → List κ → Option ρ
  | least, before, [] => if least = 0 then next ⟨before, [], groups⟩ else none
  | least, before, c :: rest =>
    (if holds c then greedy holds groups next (least - 1) (some c) rest else none).or
      (if least = 0 then next ⟨before, c :: rest, groups⟩ else none)

/-- What of a place's text lies before a later place. -/
def taken (place last : Place κ) : List κ :=
  place.rest.take (place.rest.length - last.rest.length)

def Pattern.find (word : κ → Bool) : Pattern κ → Place κ → (Place κ → Option ρ) → Option ρ
  | .nothing, place, next => next place
  | .set holds, place, next =>
    match place.rest with
    | [] => none
    | c :: rest => if holds c then next ⟨some c, rest, place.groups⟩ else none
  | .many holds least, place, next => greedy holds place.groups next least place.before place.rest
  | .boundary, place, next => if edge word place.before place.rest.head? then next place else none
  | .sequence first second, place, next =>
    first.find word place (fun middle => second.find word middle next)
  | .either first second, place, next =>
    (first.find word place next).or (second.find word place next)
  | .group inner, place, next =>
    inner.find word place
      (fun last => next ⟨last.before, last.rest, last.groups ++ [taken place last]⟩)

def Pattern.Takes (word : κ → Bool) : Pattern κ → Place κ → Place κ → Prop
  | .nothing, place, last => last = place
  | .set holds, place, last =>
    ∃ c rest, place.rest = c :: rest ∧ holds c = true ∧ last = ⟨some c, rest, place.groups⟩
  | .many holds least, place, last =>
    ∃ run rest, place.rest = run ++ rest ∧ least ≤ run.length ∧ (∀ c ∈ run, holds c = true) ∧
      last = ⟨behind place.before run, rest, place.groups⟩
  | .boundary, place, last => edge word place.before place.rest.head? = true ∧ last = place
  | .sequence first second, place, last =>
    ∃ middle, first.Takes word place middle ∧ second.Takes word middle last
  | .either first second, place, last => first.Takes word place last ∨ second.Takes word place last
  | .group inner, place, last =>
    ∃ middle, inner.Takes word place middle ∧
      last = ⟨middle.before, middle.rest, middle.groups ++ [taken place middle]⟩

variable {holds word : κ → Bool} {groups : List (List κ)} {next : Place κ → Option ρ} {result : ρ}
  {text run rest : List κ} {before : Option κ} {place last : Place κ} {pattern : Pattern κ}

theorem greedy_some {least : Nat}
    (found : greedy holds groups next least before text = some result) :
    ∃ run rest, text = run ++ rest ∧ least ≤ run.length ∧ (∀ c ∈ run, holds c = true) ∧
      next ⟨behind before run, rest, groups⟩ = some result := by
  induction text generalizing least before with
  | nil =>
    rw [greedy] at found
    split at found
    next none => exact ⟨[], [], rfl, Nat.le_of_eq none, by simp, found⟩
    next => cases found
  | cons c text ih =>
    rw [greedy, or_eq_some_iff] at found
    obtain further | ⟨_, stopped⟩ := found
    · split at further
      next fits =>
        obtain ⟨run, rest, rfl, long, all, reached⟩ := ih further
        refine ⟨c :: run, rest, rfl, by rw [length_cons]; omega, ?_, reached⟩
        exact forall_mem_cons.mpr ⟨fits, all⟩
      next => cases further
    · split at stopped
      next none => exact ⟨[], c :: text, rfl, Nat.le_of_eq none, by simp, stopped⟩
      next => cases stopped

theorem greedy_isSome {holds : κ → Bool} {groups : List (List κ)} {next : Place κ → Option ρ}
    {run rest : List κ} {least : Nat} {before : Option κ} (long : least ≤ run.length)
    (all : ∀ c ∈ run, holds c = true) (reached : (next ⟨behind before run, rest, groups⟩).isSome) :
    (greedy holds groups next least before (run ++ rest)).isSome := by
  induction run generalizing least before with
  | nil =>
    have none : least = 0 := Nat.le_zero.mp long
    cases rest with
    | nil => rw [nil_append, greedy, if_pos none]; exact reached
    | cons c rest =>
      rw [nil_append, greedy, if_pos none, isSome_or]
      exact Bool.or_eq_true_iff.mpr (.inr reached)
  | cons c run ih =>
    rw [cons_append, greedy, if_pos (all c mem_cons_self), isSome_or]
    rw [length_cons] at long
    have further := ih (by omega : least - 1 ≤ run.length)
      (fun d mem => all d (mem_cons_of_mem c mem)) reached
    exact Bool.or_eq_true_iff.mpr (.inl further)

/-- Where what follows always succeeds, a repetition takes as many characters as there are. -/
theorem greedy_longest (total : ∀ place, (next place).isSome) {least : Nat}
    (found : greedy holds groups next least before text = some result) :
    ∃ run rest, text = run ++ rest ∧ least ≤ run.length ∧ (∀ c ∈ run, holds c = true) ∧
      (∀ c, rest.head? = some c → holds c = false) ∧
      next ⟨behind before run, rest, groups⟩ = some result := by
  induction text generalizing least before with
  | nil =>
    obtain ⟨run, rest, read, long, all, reached⟩ := greedy_some found
    obtain ⟨rfl, rfl⟩ := append_eq_nil_iff.mp read.symm
    exact ⟨[], [], rfl, long, all, nofun, reached⟩
  | cons c text ih =>
    rw [greedy, or_eq_some_iff] at found
    cases fits : holds c with
    | true =>
      rw [if_pos fits] at found
      obtain further | ⟨missed, stopped⟩ := found
      · obtain ⟨run, rest, rfl, long, all, stops, reached⟩ := ih further
        refine ⟨c :: run, rest, rfl, by rw [length_cons]; omega, ?_, stops, reached⟩
        exact forall_mem_cons.mpr ⟨fits, all⟩
      · have none : least = 0 := by
          by_contra some
          rw [if_neg some] at stopped
          cases stopped
        have some := @greedy_isSome κ ρ holds groups next [] text (least - 1) (Option.some c)
          (Nat.le_of_eq (show least - 1 = 0 by omega)) nofun
          (total _)
        rw [nil_append, missed] at some
        cases some
    | false =>
      rw [if_neg (by rw [fits]; exact Bool.false_ne_true)] at found
      obtain further | ⟨_, stopped⟩ := found
      · cases further
      · split at stopped
        next none =>
          refine ⟨[], c :: text, rfl, Nat.le_of_eq none, nofun, ?_,
            stopped⟩
          intro d head
          obtain rfl := Option.some.inj head
          exact fits
        next => cases stopped

theorem run_unique {run' rest' : List κ} (read : run ++ rest = run' ++ rest')
    (all : ∀ c ∈ run, holds c = true) (all' : ∀ c ∈ run', holds c = true)
    (stops : ∀ c, rest.head? = some c → holds c = false)
    (stops' : ∀ c, rest'.head? = some c → holds c = false) : run = run' ∧ rest = rest' := by
  induction run generalizing run' with
  | nil =>
    cases run' with
    | nil => exact ⟨rfl, read⟩
    | cons c run' =>
      have fits := all' c mem_cons_self
      rw [stops c (congrArg List.head? read)] at fits
      cases fits
  | cons c run ih =>
    cases run' with
    | nil =>
      have fits := all c mem_cons_self
      rw [stops' c (congrArg List.head? read.symm)] at fits
      cases fits
    | cons d run' =>
      obtain ⟨rfl, further⟩ := List.cons.inj read
      obtain ⟨rfl, same⟩ := ih further (fun d mem => all d (mem_cons_of_mem c mem))
        (fun d mem => all' d (mem_cons_of_mem c mem))
      exact ⟨rfl, same⟩

theorem find_sequence {first second : Pattern κ} :
    (Pattern.sequence first second).find word place next =
      first.find word place (fun middle => second.find word middle next) := rfl

/-- What the search finds, the pattern may take, and the rest was found from there. -/
theorem find_some (found : pattern.find word place next = some result) :
    ∃ last, pattern.Takes word place last ∧ next last = some result := by
  induction pattern generalizing place next with
  | nothing => exact ⟨place, rfl, found⟩
  | set holds =>
    rw [Pattern.find] at found
    split at found
    next => cases found
    next c rest read =>
      split at found
      next fits => exact ⟨_, ⟨c, rest, read, fits, rfl⟩, found⟩
      next => cases found
  | many holds least =>
    obtain ⟨run, rest, read, long, all, reached⟩ := greedy_some found
    exact ⟨_, ⟨run, rest, read, long, all, rfl⟩, reached⟩
  | boundary =>
    rw [Pattern.find] at found
    split at found
    next here => exact ⟨place, ⟨here, rfl⟩, found⟩
    next => cases found
  | sequence first second firstIh secondIh =>
    obtain ⟨middle, before, further⟩ := firstIh found
    obtain ⟨last, after, reached⟩ := secondIh further
    exact ⟨last, ⟨middle, before, after⟩, reached⟩
  | either first second firstIh secondIh =>
    rw [Pattern.find, or_eq_some_iff] at found
    obtain left | ⟨_, right⟩ := found
    · obtain ⟨last, takes, reached⟩ := firstIh left
      exact ⟨last, .inl takes, reached⟩
    · obtain ⟨last, takes, reached⟩ := secondIh right
      exact ⟨last, .inr takes, reached⟩
  | group inner ih =>
    obtain ⟨last, takes, reached⟩ := ih found
    exact ⟨_, ⟨last, takes, rfl⟩, reached⟩

/-- Where the pattern may take something from which the rest is found, the search succeeds. -/
theorem find_isSome (takes : pattern.Takes word place last) (reached : (next last).isSome) :
    (pattern.find word place next).isSome := by
  induction pattern generalizing place last next with
  | nothing =>
    obtain rfl : last = place := takes
    exact reached
  | set holds =>
    obtain ⟨c, rest, read, fits, rfl⟩ := takes
    rw [Pattern.find, read]
    exact (congrArg Option.isSome (if_pos fits)).trans reached
  | many holds least =>
    obtain ⟨run, rest, read, long, all, rfl⟩ := takes
    rw [Pattern.find, read]
    exact greedy_isSome long all reached
  | boundary =>
    obtain ⟨here, rfl⟩ := takes
    rw [Pattern.find, if_pos here]
    exact reached
  | sequence first second firstIh secondIh =>
    obtain ⟨middle, before, after⟩ := takes
    exact firstIh before (secondIh after reached)
  | either first second firstIh secondIh =>
    rw [Pattern.find, isSome_or, Bool.or_eq_true_iff]
    exact takes.imp (fun left => firstIh left reached) (fun right => secondIh right reached)
  | group inner ih =>
    obtain ⟨middle, inside, rfl⟩ := takes
    exact ih inside reached

theorem find_eq_none :
    pattern.find word place some = none ↔ ∀ last, ¬ pattern.Takes word place last := by
  constructor
  · intro missed last takes
    have found := find_isSome takes (show (some last).isSome from rfl)
    rw [missed] at found
    cases found
  · intro never
    cases found : pattern.find word place some with
    | none => rfl
    | some last =>
      obtain ⟨last, takes, _⟩ := find_some found
      exact absurd takes (never last)

/-- Whether what a pattern takes does not depend on its neighbours and reads no group. -/
def Pattern.plain : Pattern κ → Bool
  | .nothing | .set _ | .many _ _ => true
  | .boundary | .group _ => false
  | .sequence first second | .either first second => first.plain && second.plain

def Pattern.Accepts : Pattern κ → List κ → Prop
  | .nothing, text => text = []
  | .set holds, text => ∃ c, text = [c] ∧ holds c = true
  | .many holds least, text => least ≤ text.length ∧ ∀ c ∈ text, holds c = true
  | .boundary, _ => False
  | .sequence first second, text =>
    ∃ front back, text = front ++ back ∧ first.Accepts front ∧ second.Accepts back
  | .either first second, text => first.Accepts text ∨ second.Accepts text
  | .group inner, text => inner.Accepts text

theorem takes_plain (plain : pattern.plain = true) :
    pattern.Takes word place last ↔ ∃ run rest, place.rest = run ++ rest ∧ pattern.Accepts run ∧
      last = ⟨behind place.before run, rest, place.groups⟩ := by
  induction pattern generalizing place last with
  | nothing =>
    constructor
    · rintro rfl
      exact ⟨[], last.rest, rfl, rfl, rfl⟩
    · rintro ⟨run, rest, read, rfl, rfl⟩
      rw [nil_append] at read
      rw [← read]
      rfl
  | set holds =>
    constructor
    · rintro ⟨c, rest, read, fits, rfl⟩
      exact ⟨[c], rest, read, ⟨c, rfl, fits⟩, rfl⟩
    · rintro ⟨_, rest, read, ⟨c, rfl, fits⟩, rfl⟩
      exact ⟨c, rest, read, fits, rfl⟩
  | many holds least =>
    constructor
    · rintro ⟨run, rest, read, long, all, rfl⟩
      exact ⟨run, rest, read, ⟨long, all⟩, rfl⟩
    · rintro ⟨run, rest, read, ⟨long, all⟩, rfl⟩
      exact ⟨run, rest, read, long, all, rfl⟩
  | boundary => cases plain
  | group inner => cases plain
  | sequence first second firstIh secondIh =>
    obtain ⟨firstPlain, secondPlain⟩ := Bool.and_eq_true_iff.mp plain
    constructor
    · rintro ⟨middle, before, after⟩
      obtain ⟨front, rest, read, fits, rfl⟩ := (firstIh firstPlain).mp before
      obtain ⟨back, rest, rfl, fits', rfl⟩ := (secondIh secondPlain).mp after
      refine ⟨front ++ back, rest, ?_, ⟨front, back, rfl, fits, fits'⟩, ?_⟩
      · rw [read, append_assoc]
      · rw [behind_append]
    · rintro ⟨_, rest, read, ⟨front, back, rfl, fits, fits'⟩, rfl⟩
      rw [append_assoc] at read
      refine ⟨_, (firstIh firstPlain).mpr ⟨front, back ++ rest, read, fits, rfl⟩, ?_⟩
      rw [behind_append]
      exact (secondIh secondPlain).mpr ⟨back, rest, rfl, fits', rfl⟩
  | either first second firstIh secondIh =>
    obtain ⟨firstPlain, secondPlain⟩ := Bool.and_eq_true_iff.mp plain
    constructor
    · rintro (left | right)
      · obtain ⟨run, rest, read, fits, rfl⟩ := (firstIh firstPlain).mp left
        exact ⟨run, rest, read, .inl fits, rfl⟩
      · obtain ⟨run, rest, read, fits, rfl⟩ := (secondIh secondPlain).mp right
        exact ⟨run, rest, read, .inr fits, rfl⟩
    · rintro ⟨run, rest, read, left | right, rfl⟩
      · exact .inl ((firstIh firstPlain).mpr ⟨run, rest, read, left, rfl⟩)
      · exact .inr ((secondIh secondPlain).mpr ⟨run, rest, read, right, rfl⟩)

theorem taken_run (read : place.rest = run ++ rest) (before : Option κ) (groups : List (List κ)) :
    taken place ⟨before, rest, groups⟩ = run := by
  rw [taken, read, length_append, Nat.add_sub_cancel, take_left]

theorem takes_group {inner : Pattern κ} (plain : inner.plain = true) :
    (Pattern.group inner).Takes word place last ↔
      ∃ run rest, place.rest = run ++ rest ∧ inner.Accepts run ∧
        last = ⟨behind place.before run, rest, place.groups ++ [run]⟩ := by
  constructor
  · rintro ⟨middle, inside, rfl⟩
    obtain ⟨run, rest, read, fits, rfl⟩ := (takes_plain plain).mp inside
    exact ⟨run, rest, read, fits, by rw [taken_run read]⟩
  · rintro ⟨run, rest, read, fits, rfl⟩
    refine ⟨_, (takes_plain plain).mpr ⟨run, rest, read, fits, rfl⟩, ?_⟩
    rw [taken_run read]

/-- One match: what stands between the one before and it, what it took, and its groups. -/
structure Found (κ : Type) where
  gap : List κ
  text : List κ
  groups : List (List κ)
deriving DecidableEq, Repr

/-- One more character before the first match. -/
def keep (c : κ) : List (Found κ) × List κ → List (Found κ) × List κ
  | ([], tail) => ([], c :: tail)
  | (found :: more, tail) => ({ found with gap := c :: found.gap } :: more, tail)

/-- The matches of a text from left to right, and what stands after the last. A number of
characters is still passed over; a match that takes nothing is not looked for. -/
def Pattern.scan (word : κ → Bool) (pattern : Pattern κ) :
    Option κ → Nat → List κ → List (Found κ) × List κ
  | _, _, [] => ([], [])
  | _, passed + 1, c :: rest => pattern.scan word (some c) passed rest
  | before, 0, c :: rest =>
    match pattern.find word ⟨before, c :: rest, []⟩ some with
    | some last =>
      let run := taken ⟨before, c :: rest, []⟩ last
      let more := pattern.scan word (some c) (run.length - 1) rest
      (⟨[], run, last.groups⟩ :: more.1, more.2)
    | none => keep c (pattern.scan word (some c) 0 rest)

/-- The text with each match replaced. -/
def assemble (put : Found κ → List κ) (parts : List (Found κ) × List κ) : List κ :=
  parts.1.flatMap (fun found => found.gap ++ put found) ++ parts.2

def Pattern.finditer (word : κ → Bool) (pattern : Pattern κ) (text : List κ) : List (Found κ) :=
  (pattern.scan word none 0 text).1

def Pattern.sub (word : κ → Bool) (pattern : Pattern κ) (put : Found κ → List κ)
    (text : List κ) : List κ :=
  assemble put (pattern.scan word none 0 text)

theorem assemble_keep {put : Found κ → List κ} (c : κ) (parts : List (Found κ) × List κ)
    (blind : ∀ found gap, put { found with gap := gap } = put found) :
    assemble put (keep c parts) = c :: assemble put parts := by
  obtain ⟨found, tail⟩ := parts
  cases found with
  | nil => rfl
  | cons first more =>
    change c :: (first.gap ++ put _ ++ _) ++ tail = _
    rw [blind]
    rfl

theorem assemble_cons {put : Found κ → List κ} (found : Found κ) (more : List (Found κ))
    (tail : List κ) :
    assemble put (found :: more, tail) = found.gap ++ put found ++ assemble put (more, tail) := by
  rw [assemble, flatMap_cons, append_assoc]
  rfl

/-- The scan of a text, one character or one match at a time. -/
inductive Scanned (word : κ → Bool) (pattern : Pattern κ) :
    Option κ → List κ → List (Found κ) × List κ → Prop
  | done (before : Option κ) : Scanned word pattern before [] ([], [])
  | keep {before : Option κ} {c : κ} {rest : List κ} {parts : List (Found κ) × List κ}
      (none : pattern.find word ⟨before, c :: rest, []⟩ some = none)
      (more : Scanned word pattern (some c) rest parts) :
      Scanned word pattern before (c :: rest) (keep c parts)
  | take {before : Option κ} {run rest : List κ} {groups : List (List κ)}
      {parts : List (Found κ) × List κ} (nonempty : run ≠ [])
      (found : pattern.find word ⟨before, run ++ rest, []⟩ some =
        some ⟨behind before run, rest, groups⟩)
      (more : Scanned word pattern (behind before run) rest parts) :
      Scanned word pattern before (run ++ rest) (⟨[], run, groups⟩ :: parts.1, parts.2)

/-- A pattern that never takes an empty text. -/
def Pattern.Solid (word : κ → Bool) (pattern : Pattern κ) : Prop :=
  ∀ place last, pattern.Takes word place last →
    ∃ run, run ≠ [] ∧ place.rest = run ++ last.rest ∧ last.before = behind place.before run

theorem scan_passed (before : Option κ) (run rest : List κ) :
    pattern.scan word before run.length (run ++ rest) =
      pattern.scan word (behind before run) 0 rest := by
  induction run generalizing before with
  | nil => rfl
  | cons c run ih => exact ih (some c)

theorem scan_keep {c : κ} (none : pattern.find word ⟨before, c :: rest, []⟩ some = none) :
    pattern.scan word before 0 (c :: rest) = keep c (pattern.scan word (some c) 0 rest) := by
  rw [Pattern.scan, none]

theorem scan_take {last : Option κ} (nonempty : run ≠ [])
    (found : pattern.find word ⟨before, run ++ rest, []⟩ some = some ⟨last, rest, groups⟩) :
    pattern.scan word before 0 (run ++ rest) =
      (⟨[], run, groups⟩ :: (pattern.scan word (behind before run) 0 rest).1,
        (pattern.scan word (behind before run) 0 rest).2) := by
  cases run with
  | nil => exact absurd rfl nonempty
  | cons c run =>
    rw [cons_append] at found ⊢
    have cut : taken (⟨before, c :: (run ++ rest), []⟩ : Place κ) ⟨last, rest, groups⟩ = c :: run :=
      taken_run cons_append.symm _ groups
    rw [Pattern.scan, found]
    dsimp only
    rw [cut, length_cons, Nat.add_sub_cancel, scan_passed]
    rfl

theorem scan_scanned (solid : pattern.Solid word) (before : Option κ) (text : List κ) :
    Scanned word pattern before text (pattern.scan word before 0 text) := by
  induction length : text.length using Nat.strongRecOn generalizing before text with
  | _ size ih =>
    cases text with
    | nil => exact .done before
    | cons c text =>
      rw [length_cons] at length
      cases found : pattern.find word ⟨before, c :: text, []⟩ some with
      | none =>
        rw [scan_keep found]
        exact .keep found (ih text.length (by omega) (some c) text rfl)
      | some last =>
        obtain ⟨last, takes, same⟩ := find_some found
        cases same
        obtain ⟨run, nonempty, read, beside⟩ := solid _ _ takes
        obtain ⟨_, rest, groups⟩ := last
        obtain rfl : _ = behind before run := beside
        have whole : c :: text = run ++ rest := read
        have lengths := congrArg List.length whole
        rw [length_cons, length_append] at lengths
        have some := length_pos_iff.mpr nonempty
        rw [whole] at found ⊢
        rw [scan_take nonempty found]
        exact .take nonempty found (ih rest.length (by omega) _ rest rfl)

/-- No match starts in a part of a text. -/
def Pattern.Quiet (word : κ → Bool) (pattern : Pattern κ) : Option κ → List κ → List κ → Prop
  | _, [], _ => True
  | before, c :: part, rest => pattern.find word ⟨before, c :: (part ++ rest), []⟩ some = none ∧
      pattern.Quiet word (some c) part rest

theorem scanned_first {tail : List κ} {found : Found κ} {more : List (Found κ)}
    (scanned : Scanned word pattern before text (found :: more, tail)) :
    ∃ rest, text = found.gap ++ (found.text ++ rest) ∧
      pattern.Quiet word before found.gap (found.text ++ rest) ∧
      pattern.find word ⟨behind before found.gap, found.text ++ rest, []⟩ some =
        some ⟨behind (behind before found.gap) found.text, rest, found.groups⟩ ∧
      Scanned word pattern (behind (behind before found.gap) found.text) rest (more, tail) := by
  generalize shape : (found :: more, tail) = parts at scanned
  induction scanned generalizing found more tail with
  | done before => cases shape
  | @keep before c rest parts none further ih =>
    obtain ⟨others, last⟩ := parts
    cases others with
    | nil => cases shape
    | cons first others =>
      cases shape
      obtain ⟨rest, rfl, quiet, matched, further⟩ := ih rfl
      exact ⟨rest, rfl, ⟨none, quiet⟩, matched, further⟩
  | @take before run rest groups parts nonempty matched further ih =>
    cases shape
    exact ⟨rest, rfl, trivial, matched, further⟩

theorem scanned_tail {tail : List κ} (scanned : Scanned word pattern before text ([], tail)) :
    text = tail ∧ pattern.Quiet word before tail [] := by
  generalize shape : (([] : List (Found κ)), tail) = parts at scanned
  induction scanned generalizing tail with
  | done before =>
    cases shape
    exact ⟨rfl, trivial⟩
  | @keep before c rest parts none further ih =>
    obtain ⟨others, last⟩ := parts
    cases others with
    | nil =>
      cases shape
      obtain ⟨rfl, quiet⟩ := ih rfl
      refine ⟨rfl, ?_, quiet⟩
      rw [append_nil]
      exact none
    | cons first others => cases shape
  | take nonempty matched further ih => cases shape

end Library.Patterns
