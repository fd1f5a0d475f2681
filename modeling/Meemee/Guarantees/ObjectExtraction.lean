import Meemee.Source.Providers
import Mathlib.Data.Bool.AllAny
import Mathlib.Data.List.TakeWhile

/-!
# The first JSON object of a text

The brace scanner and the JSON decoder walk a text side by side: behind every value that the
decoder has read, the scanner is outside strings and at the depth at which it was before the
value, and inside the value it never comes back to depth zero. So the candidate at a brace ends
where the object that starts there ends, if one does.
-/
namespace Meemee.Guarantees.ObjectExtraction
open Source JsonLoads Providers Option

/-- The scanner comes from the one text to the other without a candidate in between. -/
def Passes (s : Scan) (text : List Char) (t : Scan) (rest : List Char) : Prop :=
  ∃ consumed, text = consumed ++ rest ∧
    candidate s text = (candidate t rest).map (· + consumed.length)

theorem Passes.refl (s : Scan) (text : List Char) : Passes s text s text :=
  ⟨[], rfl, by simp⟩

variable {s : Scan} {a b text rest : List Char} {c : Char} {start stop : Nat}

theorem Passes.trans {t u : Scan} {c : List Char} (first : Passes s a t b)
    (second : Passes t b u c) : Passes s a u c := by
  obtain ⟨front, rfl, run⟩ := first
  obtain ⟨middle, rfl, run'⟩ := second
  refine ⟨front ++ middle, (List.append_assoc front middle c).symm, ?_⟩
  rw [run, run', map_map, List.length_append]
  refine congrArg (Option.map · _) (funext fun count => ?_)
  simp only [Function.comp]
  omega

theorem passes_char {s : Scan} {ch : Char} (rest : List Char) (within : s.closes ch = false) :
    Passes s (ch :: rest) (s.next ch) rest := by
  refine ⟨[ch], rfl, ?_⟩
  rw [candidate, within]
  rfl

/-- The scanner outside strings. -/
def outside (depth : Int) : Scan := ⟨depth, false, false⟩

/-- A character that the scanner ignores outside strings. -/
def Ordinary (c : Char) : Prop := c ≠ '"' ∧ c ≠ '\x7b' ∧ c ≠ '\x7d'

instance : DecidablePred Ordinary := fun _ => inferInstanceAs (Decidable (_ ∧ _ ∧ _))

theorem passes_ordinary {word : List Char} (ordinary : ∀ c ∈ word, Ordinary c) (d : Int)
    (rest : List Char) : Passes (outside d) (word ++ rest) (outside d) rest := by
  induction word with
  | nil => exact Passes.refl _ _
  | cons c word ih =>
    obtain ⟨quote, opening, closing⟩ := ordinary c List.mem_cons_self
    have one : Passes (outside d) (c :: (word ++ rest)) (outside d) (word ++ rest) := by
      have step := @passes_char (outside d) c (word ++ rest) (by simp [Scan.closes, closing])
      rwa [show (outside d).next c = outside d by
        simp [Scan.next, outside, quote, opening, closing]] at step
    exact one.trans (ih fun c mem => ordinary c (List.mem_cons_of_mem _ mem))

theorem blank_ordinary (white : blank c = true) : Ordinary c := by
  have listed : ∀ c ∈ [' ', '\t', '\n', '\r'], Ordinary c :=
    List.all_iff_forall_prop.mp (by decide)
  exact listed c (of_decide_eq_true white)

theorem passes_skip (d : Int) (text : List Char) :
    Passes (outside d) text (outside d) (skip text) := by
  have front := @passes_ordinary (text.takeWhile blank)
    (fun c mem => blank_ordinary (List.mem_takeWhile_imp mem)) d (skip text)
  rwa [skip, List.takeWhile_append_dropWhile] at front

def escaping : StringState → Bool
  | .escape => true
  | _ => false

theorem string_passes (d : Int) {state : StringState} (read : passString state text = some rest) :
    Passes ⟨d, true, escaping state⟩ text (outside d) rest := by
  induction text generalizing state with
  | nil => cases state <;> cases read
  | cons c text ih =>
    have open' : ∀ e, (⟨d, true, e⟩ : Scan).closes c = false := fun _ => rfl
    refine Passes.trans (passes_char text (open' _)) ?_
    cases state with
    | plain =>
      rw [passString] at read
      by_cases quote : c = '"'
      · rw [if_pos quote] at read
        obtain rfl := Option.some.inj read
        rw [quote]
        exact Passes.refl _ _
      · rw [if_neg quote] at read
        by_cases slash : c = '\\'
        · rw [if_pos slash] at read
          rw [slash]
          exact ih read
        · rw [if_neg slash] at read
          split at read
          next => cases read
          next =>
            rw [show Scan.next ⟨d, true, escaping .plain⟩ c = ⟨d, true, false⟩ by
              simp [Scan.next, quote, slash]]
            exact ih read
    | escape =>
      rw [passString] at read
      split at read
      next => exact ih read
      next =>
        split at read
        next => exact ih read
        next => cases read
    | hex left =>
      simp only [passString] at read
      split at read
      next digit =>
        have plain : c ≠ '\\' ∧ c ≠ '"' := by
          constructor <;> (rintro rfl; exact absurd digit (by decide))
        rw [show Scan.next ⟨d, true, escaping (.hex left)⟩ c = ⟨d, true, false⟩ by
          simp [Scan.next, plain]]
        cases left with
        | zero => exact ih read
        | succ left => exact ih read
      next => cases read

theorem ordinary_of_digit (digit : c.isDigit = true) : Ordinary c := by
  refine ⟨?_, ?_, ?_⟩ <;> (rintro rfl; exact absurd digit (by decide))

/-- The text ends in the rest, and what stands before it are ordinary characters. -/
def Spelled (text rest : List Char) : Prop := ∃ word, text = word ++ rest ∧ ∀ c ∈ word, Ordinary c

theorem Spelled.refl (text : List Char) : Spelled text text := ⟨[], rfl, by simp⟩

theorem Spelled.trans {c : List Char} (first : Spelled a b) (second : Spelled b c) :
    Spelled a c := by
  obtain ⟨front, rfl, ordinary⟩ := first
  obtain ⟨middle, rfl, ordinary'⟩ := second
  exact ⟨front ++ middle, (List.append_assoc front middle c).symm, fun d mem =>
    (List.mem_append.mp mem).elim (ordinary d) (ordinary' d)⟩

theorem spelled_cons (ordinary : Ordinary c) (rest : List Char) : Spelled (c :: rest) rest :=
  ⟨[c], rfl, fun d mem => by rwa [List.mem_singleton.mp mem]⟩

theorem spelled_digits (text : List Char) : Spelled text (text.dropWhile Char.isDigit) :=
  ⟨text.takeWhile Char.isDigit, List.takeWhile_append_dropWhile.symm, fun _ mem =>
    ordinary_of_digit (List.mem_takeWhile_imp mem)⟩

theorem wholePart_spelled {digits : List Char} (read : wholePart text = some (digits, rest)) :
    Spelled text rest := by
  cases text with
  | nil => cases read
  | cons c text =>
    rw [wholePart] at read
    split at read
    next zero =>
      obtain ⟨-, rfl⟩ := Prod.mk.inj (Option.some.inj read)
      exact spelled_cons (by rw [zero]; exact ordinary_of_digit (by decide)) text
    next =>
      split at read
      next digit =>
        obtain ⟨-, rfl⟩ := Prod.mk.inj (Option.some.inj read)
        exact (spelled_cons (ordinary_of_digit digit) text).trans (spelled_digits text)
      next => cases read

theorem digitsAfter_spelled {marks : List Char} (spelled : Spelled text rest) :
    Spelled text (digitsAfter marks text rest).2 := by
  unfold digitsAfter
  split
  next => exact Spelled.refl text
  next => exact spelled.trans (spelled_digits rest)

theorem fractionPart_spelled (text : List Char) : Spelled text (fractionPart text).2 := by
  cases text with
  | nil => exact Spelled.refl _
  | cons c rest =>
    rw [fractionPart]
    split
    next dot =>
      exact digitsAfter_spelled (spelled_cons (by rw [dot]; decide) rest)
    next => exact Spelled.refl _

theorem exponentPart_spelled (text : List Char) : Spelled text (exponentPart text).2 := by
  cases text with
  | nil => exact Spelled.refl _
  | cons c rest =>
    simp only [exponentPart]
    split
    next marked =>
      have mark : Ordinary c := by
        rcases marked with rfl | rfl <;> (decide)
      cases rest with
      | nil => exact Spelled.refl _
      | cons sign more =>
        dsimp only
        split
        next signed =>
          have ordinary : Ordinary sign := by
            rcases signed with rfl | rfl <;> (decide)
          exact digitsAfter_spelled ((spelled_cons mark _).trans (spelled_cons ordinary more))
        next => exact digitsAfter_spelled (spelled_cons mark _)
    next => exact Spelled.refl _

theorem readUnsigned_spelled {sign : List Char} {v : Json}
    (read : readUnsigned sign text = some (v, rest)) : Spelled text rest := by
  cases whole : wholePart text with
  | none =>
    rw [readUnsigned, whole] at read
    cases read
  | some first =>
    have parts : Spelled text (exponentPart (fractionPart first.2).2).2 :=
      ((wholePart_spelled whole).trans (fractionPart_spelled first.2)).trans
        (exponentPart_spelled _)
    rw [readUnsigned, whole] at read
    dsimp only [Option.bind_eq_bind, Option.bind_some] at read
    split at read
    all_goals
      obtain ⟨-, rfl⟩ := Prod.mk.inj (Option.some.inj read)
      exact parts

theorem readWord_spelled {v : Json} (read : readWord text = some (v, rest)) :
    Spelled text rest := by
  unfold readWord at read
  cases found : names.find? (fun name => name.1.isPrefixOf text) with
  | some name =>
    rw [found] at read
    obtain ⟨-, rfl⟩ := Prod.mk.inj (Option.some.inj read)
    have front : name.1 <+: text := by
      have matched := List.find?_some found
      exact List.isPrefixOf_iff_prefix.mp matched
    obtain ⟨more, rfl⟩ := front
    rw [List.drop_left]
    have listed : ∀ name ∈ names,
        name.1.all (fun c => decide (Ordinary c)) = true := by decide
    exact ⟨name.1, rfl, List.all_iff_forall_prop.mp (listed name (List.mem_of_find?_eq_some found))⟩
  | none =>
    rw [found] at read
    cases text with
    | nil => cases read
    | cons c text =>
      simp only [readNumber] at read
      split at read
      next minus =>
        exact (spelled_cons (by rw [minus]; decide) text).trans
          (readUnsigned_spelled read)
      next => exact readUnsigned_spelled read

theorem Spelled.passes (spelled : Spelled text rest) (d : Int) :
    Passes (outside d) text (outside d) rest := by
  obtain ⟨word, rfl, ordinary⟩ := spelled
  exact passes_ordinary ordinary d rest

theorem head_tail (head : text.head? = some c) : text = c :: text.tail := by
  cases text with
  | nil => cases head
  | cons d text => rw [Option.some.inj head, List.tail_cons]

theorem passes_head (head : text.head? = some c) (ordinary : Ordinary c) (d : Int) :
    Passes (outside d) text (outside d) text.tail := by
  rw [head_tail head]
  exact (spelled_cons ordinary _).passes d

theorem passes_quote (head : text.head? = some '"') (d : Int) :
    Passes (outside d) text ⟨d, true, false⟩ text.tail := by
  rw [head_tail head]
  exact passes_char text.tail rfl

variable {close : Char}

theorem continuation_closed {text rest : List Char}
    (read : continuation close text = .closed rest) (d : Int) :
    Passes (outside d) text (outside d) (close :: rest) := by
  have front := passes_skip d text
  unfold continuation at read
  split at read
  next => cases read
  next c after skipped =>
    split at read
    next same =>
      rw [skipped, same, Continuation.closed.inj read] at front
      exact front
    next =>
      split at read <;> cases read

theorem continuation_more {text more : List Char}
    (read : continuation close text = .more more) (d : Int) :
    Passes (outside d) text (outside d) more := by
  have front := passes_skip d text
  unfold continuation at read
  split at read
  next => cases read
  next c after skipped =>
    split at read
    next => cases read
    next =>
      split at read
      next comma =>
        rw [skipped] at front
        rw [← Continuation.more.inj read]
        exact (front.trans ((spelled_cons (by rw [comma]; decide) after).passes d)).trans
          (passes_skip d after)
      next => cases read

theorem bracket_ordinary : Ordinary '[' ∧ Ordinary ']' ∧ Ordinary ':' := by
  decide

theorem passes_brace (d : Int) (text : List Char) :
    Passes (outside d) ('\x7b' :: text) (outside (d + 1)) text :=
  passes_char text rfl

theorem passes_inner_brace {d : Int} (inner : 1 ≤ d) (text : List Char) :
    Passes (outside (d + 1)) ('\x7d' :: text) (outside d) text := by
  have step := @passes_char (outside (d + 1)) '\x7d' text (by
    simp only [Scan.closes, outside, Bool.not_false, Bool.true_and, decide_eq_false_iff_not]
    omega)
  rwa [show (outside (d + 1)).next '\x7d' = outside d by
    simp [Scan.next, outside]] at step

mutual

/-- Behind a value the scanner is where it was, with at least one brace still open. -/
theorem value_passes : ∀ (fuel : Nat) {text rest : List Char} {d : Int}, 1 ≤ d →
    passValue fuel text = some rest → Passes (outside d) text (outside d) rest
  | 0, _, _, _, _, read => by cases read
  | _ + 1, [], _, _, _, read => by cases read
  | fuel + 1, c :: text, rest, d, inner, read => by
    rw [passValue] at read
    split at read
    next quote =>
      rw [quote]
      exact (passes_quote rfl d).trans (string_passes d read)
    next =>
      split at read
      next bracket =>
        rw [bracket]
        have first : Passes (outside d) ('[' :: text) (outside d) (skip text) :=
          ((spelled_cons bracket_ordinary.1 text).passes d).trans (passes_skip d text)
        split at read
        next closing =>
          rw [← Option.some.inj read]
          exact first.trans (passes_head closing bracket_ordinary.2.1 d)
        next => exact first.trans (items_passes fuel inner read)
      next =>
        split at read
        next brace =>
          rw [brace]
          have first : Passes (outside d) ('\x7b' :: text) (outside (d + 1)) (skip text) :=
            (passes_brace d text).trans (passes_skip (d + 1) text)
          refine first.trans (Passes.trans ?_ (passes_inner_brace inner rest))
          split at read
          next closing =>
            rw [← Option.some.inj read, ← head_tail closing]
            exact Passes.refl _ _
          next => exact fields_passes fuel (by omega) read
        next =>
          obtain ⟨⟨v, after⟩, word, rfl⟩ := map_eq_some_iff.mp read
          exact (readWord_spelled word).passes d

theorem items_passes : ∀ (fuel : Nat) {text rest : List Char} {d : Int}, 1 ≤ d →
    passItems fuel text = some rest → Passes (outside d) text (outside d) rest
  | 0, _, _, _, _, read => by cases read
  | fuel + 1, text, rest, d, inner, read => by
    rw [passItems] at read
    obtain ⟨after, value, next⟩ := bind_eq_some_iff.mp read
    refine (value_passes fuel inner value).trans ?_
    split at next
    next closed =>
      rw [← Option.some.inj next]
      exact (continuation_closed closed d).trans
        ((spelled_cons bracket_ordinary.2.1 _).passes d)
    next more => exact (continuation_more more d).trans (items_passes fuel inner next)
    next => cases next

theorem fields_passes : ∀ (fuel : Nat) {text rest : List Char} {d : Int}, 1 ≤ d →
    passFields fuel text = some rest → Passes (outside d) text (outside d) ('\x7d' :: rest)
  | 0, _, _, _, _, read => by cases read
  | fuel + 1, text, rest, d, inner, read => by
    rw [passFields] at read
    split at read
    next quote =>
      obtain ⟨after, name, read⟩ := bind_eq_some_iff.mp read
      refine ((passes_quote quote d).trans (string_passes d name)).trans ?_
      split at read
      next colon =>
        obtain ⟨behind, value, next⟩ := bind_eq_some_iff.mp read
        refine (passes_skip d after).trans ((passes_head colon bracket_ordinary.2.2 d).trans ?_)
        refine (passes_skip d _).trans ((value_passes fuel inner value).trans ?_)
        split at next
        next closed =>
          rw [← Option.some.inj next]
          exact continuation_closed closed d
        next more => exact (continuation_more more d).trans (fields_passes fuel inner next)
        next => cases next
      next => cases read
    next => cases read

end

theorem Passes.length {t : Scan} (passes : Passes s a t b) : b.length ≤ a.length := by
  obtain ⟨consumed, rfl, -⟩ := passes
  rw [List.length_append]
  exact Nat.le_add_left _ _

theorem skip_length (text : List Char) : (skip text).length ≤ text.length :=
  (passes_skip 1 text).length

theorem value_length {fuel : Nat} (read : passValue fuel text = some rest) :
    rest.length ≤ text.length :=
  (value_passes fuel (Int.le_refl 1) read).length

theorem continuation_closed_length (read : continuation close text = .closed rest) :
    rest.length < text.length :=
  (continuation_closed read 1).length

theorem continuation_more_length {more : List Char}
    (read : continuation close text = .more more) : more.length < text.length := by
  have shorter := skip_length text
  unfold continuation at read
  split at read
  next => cases read
  next c after skipped =>
    rw [skipped, List.length_cons] at shorter
    split at read
    next => cases read
    next =>
      split at read
      next =>
        have behind := skip_length after
        rw [Continuation.more.inj read] at behind
        omega
      next => cases read

theorem tail_length (head : text.head? = some c) : text.tail.length + 1 = text.length := by
  rw [head_tail head, List.length_cons, List.tail_cons]

mutual

/-- What some number of levels reads, one level for each character reads too. -/
theorem value_enough : ∀ (fuel : Nat) {text rest : List Char}, passValue fuel text = some rest →
    ∀ levels, text.length < levels + rest.length → passValue levels text = some rest
  | 0, _, _, read => by cases read
  | _ + 1, [], _, read => by cases read
  | fuel + 1, c :: text, rest, read => by
    have shorter := value_length read
    intro levels enough
    obtain ⟨levels, rfl⟩ := Nat.exists_eq_add_of_lt (show 0 < levels by omega)
    rw [Nat.zero_add] at enough ⊢
    rw [passValue] at read ⊢
    have white := skip_length text
    rw [List.length_cons] at enough
    split
    next quote => rwa [if_pos quote] at read
    next quote =>
      rw [if_neg quote] at read
      split
      next bracket =>
        rw [if_pos bracket] at read
        split
        next closing => rwa [if_pos closing] at read
        next other =>
          rw [if_neg other] at read
          exact items_enough fuel read levels (by omega)
      next bracket =>
        rw [if_neg bracket] at read
        split
        next brace =>
          rw [if_pos brace] at read
          split
          next closing => rwa [if_pos closing] at read
          next other =>
            rw [if_neg other] at read
            exact fields_enough fuel read levels (by omega)
        next brace => rwa [if_neg brace] at read

theorem items_enough : ∀ (fuel : Nat) {text rest : List Char}, passItems fuel text = some rest →
    ∀ levels, text.length < levels + rest.length → passItems levels text = some rest
  | 0, _, _, read => by cases read
  | fuel + 1, text, rest, read => by
    intro levels enough
    have shorter := (items_passes (fuel + 1) (Int.le_refl 1) read).length
    obtain ⟨levels, rfl⟩ := Nat.exists_eq_add_of_lt (show 0 < levels by omega)
    rw [Nat.zero_add] at enough ⊢
    rw [passItems] at read ⊢
    obtain ⟨after, value, next⟩ := bind_eq_some_iff.mp read
    have length := value_length value
    split at next
    next behind closed =>
      obtain rfl := Option.some.inj next
      have close := continuation_closed_length closed
      rw [value_enough fuel value levels (by omega), bind_some, closed]
    next more continued =>
      have comma := continuation_more_length continued
      have later := (items_passes fuel (Int.le_refl 1) next).length
      rw [value_enough fuel value levels (by omega), bind_some, continued]
      exact items_enough fuel next levels (by omega)
    next => cases next

theorem fields_enough : ∀ (fuel : Nat) {text rest : List Char}, passFields fuel text = some rest →
    ∀ levels, text.length < levels + rest.length → passFields levels text = some rest
  | 0, _, _, read => by cases read
  | fuel + 1, text, rest, read => by
    intro levels enough
    have shorter := (fields_passes (fuel + 1) (Int.le_refl 1) read).length
    rw [List.length_cons] at shorter
    obtain ⟨levels, rfl⟩ := Nat.exists_eq_add_of_lt (show 0 < levels by omega)
    rw [Nat.zero_add] at enough ⊢
    rw [passFields] at read ⊢
    split at read
    next quote =>
      rw [if_pos quote]
      obtain ⟨after, name, read⟩ := bind_eq_some_iff.mp read
      rw [name, bind_some]
      have opening := tail_length quote
      have string := (string_passes 1 name).length
      have white := skip_length after
      split at read
      next colon =>
        rw [if_pos colon]
        have mark := tail_length colon
        have white' := skip_length (skip after).tail
        obtain ⟨behind, value, next⟩ := bind_eq_some_iff.mp read
        have length := value_length value
        split at next
        next last closed =>
          obtain rfl := Option.some.inj next
          have close := continuation_closed_length closed
          rw [value_enough fuel value levels (by omega), bind_some, closed]
        next more continued =>
          have comma := continuation_more_length continued
          have later := (fields_passes fuel (Int.le_refl 1) next).length
          rw [List.length_cons] at later
          rw [value_enough fuel value levels (by omega), bind_some, continued]
          exact fields_enough fuel next levels (by omega)
        next => cases next
      next => cases read
    next => cases read

end

theorem accepts_iff (text : List Char) : accepts text = true ↔
    ∃ levels rest, passValue levels (skip text) = some rest ∧ (skip rest).isEmpty = true := by
  unfold accepts
  constructor
  · intro accepted
    split at accepted
    next rest read => exact ⟨_, rest, read, accepted⟩
    next => cases accepted
  · rintro ⟨levels, rest, read, empty⟩
    have shorter := skip_length text
    rw [value_enough levels read (text.length + 1) (by omega)]
    exact empty

theorem candidate_append {count : Nat} (run : candidate s text = some count) (more : List Char) :
    candidate s (text ++ more) = some count := by
  induction text generalizing s count with
  | nil => cases run
  | cons ch text ih =>
    rw [List.cons_append]
    rw [candidate] at run ⊢
    split at run
    next closes => rw [if_pos closes, run]
    next within =>
      obtain ⟨count, later, rfl⟩ := map_eq_some_iff.mp run
      rw [if_neg within, ih later]
      rfl

theorem candidate_spec {count : Nat} (run : candidate s text = some count) :
    0 < count ∧ count ≤ text.length ∧ text[count - 1]? = some '\x7d' := by
  induction text generalizing s count with
  | nil => cases run
  | cons ch text ih =>
    rw [candidate] at run
    split at run
    next closes =>
      obtain rfl := Option.some.inj run
      simp only [Scan.closes, Bool.and_eq_true, decide_eq_true_eq] at closes
      exact ⟨Nat.one_pos, by simp, by simp [closes.2.1]⟩
    next =>
      obtain ⟨count, later, rfl⟩ := map_eq_some_iff.mp run
      obtain ⟨positive, within, last⟩ := ih later
      refine ⟨Nat.succ_pos count, by simp only [List.length_cons]; omega, ?_⟩
      rw [← Nat.succ_pred_eq_of_pos positive]
      exact last

theorem skip_nil_blank (empty : (skip text).isEmpty = true) : ∀ c ∈ text, blank c = true :=
  List.dropWhile_eq_nil_iff.mp (List.isEmpty_iff.mp empty)

theorem candidate_of_accepts {inner : List Char} (accepted : accepts ('\x7b' :: inner) = true)
    (last : ('\x7b' :: inner).getLast? = some '\x7d') :
    candidate (outside 0) ('\x7b' :: inner) = some ('\x7b' :: inner).length := by
  have start : skip ('\x7b' :: inner) = '\x7b' :: inner := rfl
  unfold accepts at accepted
  rw [start, passValue, if_neg (by decide), if_neg (by decide), if_pos rfl] at accepted
  have object : ∀ rest, (skip rest).isEmpty = true →
      Passes (outside 1) inner (outside 1) ('\x7d' :: rest) →
      candidate (outside 0) ('\x7b' :: inner) = some ('\x7b' :: inner).length := by
    intro rest empty passes
    obtain ⟨body, rfl, run⟩ := passes
    have alone : rest = [] := by
      by_contra filled
      have shape : '\x7b' :: (body ++ '\x7d' :: rest) = ('\x7b' :: (body ++ ['\x7d'])) ++ rest := by
        simp
      rw [shape, List.getLast?_append_of_ne_nil _ filled] at last
      have white := skip_nil_blank empty _ (List.mem_of_getLast? last)
      exact absurd white (by decide)
    rw [alone] at run ⊢
    change (candidate (outside 1) _).map _ = _
    rw [run]
    change some (1 + body.length + 1) = _
    simp only [List.length_cons, List.length_append, List.length_nil]
    congr 1
    omega
  split at accepted
  next rest read =>
    refine object rest accepted ?_
    have blanks := passes_skip 1 inner
    split at read
    next closing =>
      rw [← Option.some.inj read, ← head_tail closing]
      exact blanks
    next => exact blanks.trans (fields_passes _ (by omega) read)
  next => cases accepted

/-- A complete JSON object, from its opening to its closing brace. -/
structure ObjectAt (text : List Char) (start stop : Nat) : Prop where
  ordered : start < stop
  within : stop ≤ text.length
  opens : text[start]? = some '\x7b'
  ends : text[stop - 1]? = some '\x7d'
  accepted : accepts (slice text start stop) = true

theorem slice_length {text : List Char} {start stop : Nat} (within : stop ≤ text.length) :
    (slice text start stop).length = stop - start := by
  rw [slice, List.length_take, List.length_drop]
  omega

theorem slice_opens (ordered : start < stop) (opens : text[start]? = some '\x7b') :
    ∃ inner, slice text start stop = '\x7b' :: inner := by
  obtain ⟨inside, char⟩ := List.getElem?_eq_some_iff.mp opens
  refine ⟨(text.drop (start + 1)).take (stop - start - 1), ?_⟩
  rw [slice, List.drop_eq_getElem_cons inside, char, ← Nat.succ_pred_eq_of_pos (Nat.sub_pos_of_lt ordered)]
  rfl

theorem ObjectAt.candidate (object : ObjectAt text start stop) :
    candidate ⟨0, false, false⟩ (text.drop start) = some (stop - start) := by
  obtain ⟨inner, shape⟩ := slice_opens object.ordered object.opens
  have length := @slice_length text start stop object.within
  have last : (slice text start stop).getLast? = some '\x7d' := by
    rw [List.getLast?_eq_getElem?, length, slice, List.getElem?_take_of_lt (by have := object.ordered; omega),
      List.getElem?_drop, ← object.ends]
    congr 1
    have := object.ordered
    omega
  have accepted := object.accepted
  rw [shape] at accepted last length
  have own := candidate_of_accepts accepted last
  rw [length, ← shape] at own
  have whole := candidate_append own ((text.drop start).drop (stop - start))
  rwa [slice, List.take_append_drop] at whole

theorem ObjectAt.stop_unique {stop' : Nat} (object : ObjectAt text start stop)
    (object' : ObjectAt text start stop') : stop = stop' := by
  have same := Option.some.inj (object.candidate.symm.trans object'.candidate)
  have ordered' := object'.ordered
  omega

/-- What is tried at a brace succeeds for the object that starts there, if one does. -/
theorem tried_iff (opens : text[start]? = some '\x7b') (found : List Char) :
    tried text start = some found ↔ ∃ stop, ObjectAt text start stop ∧ found = slice text start stop := by
  constructor
  · intro run
    unfold tried at run
    split at run
    next => cases run
    next count closed =>
      split at run
      next accepted =>
        obtain ⟨positive, within, last⟩ := candidate_spec closed
        rw [List.length_drop] at within
        rw [List.getElem?_drop] at last
        refine ⟨start + count, ⟨by omega, by omega, opens, ?_, accepted⟩, (Option.some.inj run).symm⟩
        rw [← last]
        congr 1
        omega
      next => cases run
  · rintro ⟨stop, object, rfl⟩
    have ordered := object.ordered
    unfold tried
    rw [object.candidate]
    dsimp only
    rw [Nat.add_sub_of_le ordered.le, if_pos object.accepted]

theorem find_some {brace : Nat} (found : find text start = some brace) :
    start ≤ brace ∧ text[brace]? = some '\x7b' ∧ ∀ i, start ≤ i → i < brace → text[i]? ≠ some '\x7b' := by
  unfold find at found
  split at found
  next =>
    obtain ⟨offset, index, rfl⟩ := map_eq_some_iff.mp found
    obtain ⟨bound, here, before⟩ := List.findIdx?_eq_some_iff_getElem.mp index
    rw [List.length_drop] at bound
    refine ⟨Nat.le_add_right _ _, ?_, fun i low high other => ?_⟩
    · rw [List.getElem_drop] at here
      exact List.getElem?_eq_some_iff.mpr ⟨by omega, of_decide_eq_true here⟩
    · obtain ⟨inside, char⟩ := List.getElem?_eq_some_iff.mp other
      have absent := before (i - start) (by omega)
      simp only [List.getElem_drop, Nat.add_sub_of_le low, char] at absent
      exact absent (by decide)
  next => cases found

theorem find_none (missing : find text start = none) : ∀ i, start ≤ i → text[i]? ≠ some '\x7b' := by
  intro i low other
  obtain ⟨inside, char⟩ := List.getElem?_eq_some_iff.mp other
  unfold find at missing
  rw [if_pos (by omega), map_eq_none_iff, List.findIdx?_eq_none_iff] at missing
  have mem : '\x7b' ∈ text.drop start := by
    refine List.mem_iff_getElem?.mpr ⟨i - start, ?_⟩
    rw [List.getElem?_drop, Nat.add_sub_of_le low]
    exact other
  exact absurd (missing _ mem) (by decide)

/-- The error of a text without an object. -/
def noObject : ModelClient.PyExc := .modelError "model output contains no JSON object"

/-- The first object that starts at or behind a place, or the error when there is none. -/
def Answers (text : List Char) (from_ : Nat) (answer : Except ModelClient.PyExc (List Char)) : Prop :=
  (∃ start stop, ObjectAt text start stop ∧ from_ ≤ start ∧
    (∀ start' stop', ObjectAt text start' stop' → from_ ≤ start' → start ≤ start') ∧
    answer = .ok (slice text start stop)) ∨
  ((∀ start stop, from_ ≤ start → ¬ ObjectAt text start stop) ∧ answer = .error noObject)

theorem extractFrom_answers (text : List Char) : ∀ (rounds start : Nat),
    text.length < start + rounds → Answers text start (extractFrom text rounds start)
  | 0, start, enough => by
    refine .inr ⟨fun s stop low object => ?_, rfl⟩
    have ordered := object.ordered
    have within := object.within
    omega
  | rounds + 1, start, enough => by
    rw [extractFrom]
    split
    next missing =>
      exact .inr ⟨fun s stop low object => find_none missing s low object.opens, rfl⟩
    next brace found =>
      obtain ⟨low, opens, first⟩ := find_some found
      have behind : ∀ s stop, ObjectAt text s stop → start ≤ s → brace ≤ s := by
        intro s stop object later
        by_contra earlier
        exact first s later (by omega) object.opens
      split
      next result run =>
        obtain ⟨stop, object, rfl⟩ := (tried_iff opens result).mp run
        exact .inl ⟨brace, stop, object, low, behind, rfl⟩
      next failed =>
        have other : ∀ stop, ¬ ObjectAt text brace stop := by
          intro stop object
          have run := (tried_iff opens _).mpr ⟨stop, object, rfl⟩
          rw [failed] at run
          cases run
        have beyond : ∀ s stop, ObjectAt text s stop → start ≤ s → brace + 1 ≤ s := by
          intro s stop object later
          have least := behind s stop object later
          rcases Nat.lt_or_ge brace s with more | less
          · exact more
          · obtain rfl : s = brace := by omega
            exact absurd object (other stop)
        rcases extractFrom_answers text rounds (brace + 1) (by omega) with
          ⟨s, stop, object, later, least, run⟩ | ⟨none, run⟩
        · exact .inl ⟨s, stop, object, by omega, fun s' stop' object' later' =>
            least s' stop' object' (beyond s' stop' object' later'), run⟩
        · exact .inr ⟨fun s stop later object =>
            none s stop (beyond s stop object later) object, run⟩

/-- The answer is the first complete object of the text, from its start to its end, which the
start determines; a `ModelError` says that none starts anywhere. -/
theorem extracted_first (text : String) :
    ((∃ start stop, ObjectAt text.toList start stop ∧
        (∀ start' stop', ObjectAt text.toList start' stop' →
          start < start' ∨ start = start' ∧ stop = stop') ∧
        extractJsonObject text = .ok (String.ofList (slice text.toList start stop))) ∨
      ((∀ start stop, ¬ ObjectAt text.toList start stop) ∧
        extractJsonObject text = .error noObject)) := by
  unfold extractJsonObject
  rcases @extractFrom_answers text.toList (text.toList.length + 1) 0 (by omega) with
    ⟨start, stop, object, -, least, run⟩ | ⟨none, run⟩
  · refine Or.inl ⟨start, stop, object, fun start' stop' object' => ?_, by rw [run]; rfl⟩
    rcases Nat.lt_or_eq_of_le (least start' stop' object' (Nat.zero_le _)) with less | rfl
    · exact Or.inl less
    · exact Or.inr ⟨rfl, object.stop_unique object'⟩
  · exact Or.inr ⟨fun start stop => none start stop (Nat.zero_le _), by rw [run]; rfl⟩

/-- Braces in prose and in strings are passed over. -/
example : extractJsonObject "so \x7bx\x7d or \x7b\"a\": \"\x7d\"\x7d then" =
    .ok "\x7b\"a\": \"\x7d\"\x7d" := by
  decide +kernel

end Meemee.Guarantees.ObjectExtraction
