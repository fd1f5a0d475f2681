import Meemee.Source.Sensitive
import Mathlib.Data.Bool.AllAny

/-!
# Tokens and their marks

A token stands between two word boundaries and contains a character that no mark contains. A mark
put in its place ends words where the token did, so that neither a mark nor what stands around it can
be part of a token that was not there before.
-/
namespace Meemee.Guarantees.ScrubTokens
open Library.Patterns
open Source
open Source.Sensitive
open Source.PgJobs (isSpace)
open Source.Sse (Bytes utf8)

variable {words : Words} {sha256 : Bytes → Bytes}

/-- A character that a marker may contain. -/
def markChar (c : Char) : Bool :=
  c ∈ "REDACTED:[]".toList || c ∈ "0123456789abcdef".toList

/-- A text in brackets. -/
def Bracketed (text : List Char) : Prop :=
  ∃ body, text = '[' :: body ++ [']'] ∧ ∀ c ∈ body, markChar c = true

/-- What is put in a text: a marker, or the sign of an assignment and a marker. -/
def Mark (put : List Char) : Prop := ∃ text, Bracketed text ∧ (put = text ∨ put = '=' :: text)

theorem hexDigit_mark : ∀ n < 16, markChar (Json.hexDigit n) = true := by decide

theorem hexdigest_mark (bytes : Bytes) :
    ∀ c ∈ (WebhookVerify.hexdigest bytes).toList, markChar c = true := by
  intro c mem
  rw [WebhookVerify.hexdigest, String.toList_ofList, List.mem_flatMap] at mem
  obtain ⟨byte, _, digit⟩ := mem
  have small : byte.toNat < 256 := byte.toNat_lt
  simp only [List.mem_cons, List.not_mem_nil, or_false] at digit
  obtain rfl | rfl := digit
  · exact hexDigit_mark _ (by omega)
  · exact hexDigit_mark _ (by omega)

variable {c : Char} {text out run : List Char} {before : Option Char}
  {kept : Option Char → List Char → Prop} {kinds : List (Pattern Char)}

theorem digit_mark (digit : c.isDigit = true) : markChar c = true := by
  have listed : c ∈ "0123456789abcdef".toList := by
    obtain ⟨n, small, rfl⟩ : ∃ n < 10, c = Char.ofNat (48 + n) := by
      simp only [Char.isDigit, Bool.and_eq_true, decide_eq_true_eq] at digit
      have low : 48 ≤ c.toNat := digit.1
      have high : c.toNat ≤ 57 := digit.2
      refine ⟨c.toNat - 48, by omega, ?_⟩
      rw [Nat.add_sub_cancel' low, Char.ofNat_toNat]
    revert n
    decide
  rw [markChar, Bool.or_eq_true]
  exact .inr (decide_eq_true listed)

theorem heading_mark : ∀ c ∈ "REDACTED:".toList, markChar c = true :=
  List.all_eq_true.mp (by decide)

theorem bracketed_heading (hex digits : List Char) :
    "[REDACTED:".toList ++ hex ++ ':' :: digits ++ [']'] =
      '[' :: ("REDACTED:".toList ++ (hex ++ ':' :: digits)) ++ [']'] := by
  have heading : "[REDACTED:".toList = '[' :: "REDACTED:".toList := by decide +kernel
  rw [heading]
  simp only [List.append_assoc, List.cons_append]

theorem marker_bracketed (value : List Char) : Bracketed (marker sha256 value) := by
  refine ⟨"REDACTED:".toList ++
    ((WebhookVerify.hexdigest (sha256 (utf8 (String.ofList value)))).toList.take 16 ++
      ':' :: (toString value.length).toList), ?_, ?_⟩
  · exact bracketed_heading _ _
  · intro c mem
    obtain written | hex | digits := (List.mem_append.mp mem).imp_right List.mem_append.mp
    · exact heading_mark c written
    · exact hexdigest_mark _ c (List.mem_of_mem_take hex)
    · obtain rfl | digit := List.mem_cons.mp digits
      · rfl
      · rw [Nat.toString_eq_repr, Nat.toList_repr] at digit
        exact digit_mark (Nat.isDigit_of_mem_toDigits (by decide) (by decide) digit)

theorem bracketed_chars (bracketed : Bracketed text) : ∀ c ∈ text, markChar c = true := by
  obtain ⟨body, rfl, all⟩ := bracketed
  intro c mem
  simp only [List.cons_append, List.mem_cons, List.mem_append, List.not_mem_nil, or_false] at mem
  obtain rfl | inside | rfl := mem
  · decide
  · exact all c inside
  · decide

theorem mark_chars {put : List Char} (mark : Mark put) :
    ∀ c ∈ put, markChar c = true ∨ c = '=' := by
  obtain ⟨text, bracketed, rfl | rfl⟩ := mark
  · exact fun c mem => .inl (bracketed_chars bracketed c mem)
  · refine List.forall_mem_cons.mpr ⟨.inr rfl, ?_⟩
    exact fun c mem => .inl (bracketed_chars bracketed c mem)

theorem mark_last {put : List Char} (mark : Mark put) : ∃ front, put = front ++ [']'] := by
  obtain ⟨_, ⟨body, rfl, _⟩, rfl | rfl⟩ := mark
  · exact ⟨'[' :: body, rfl⟩
  · exact ⟨'=' :: '[' :: body, rfl⟩

theorem word_sign : ∀ c ∈ ['[', ']', '=', ':', ',', ';', '-'], words.word c = false := by
  intro c mem
  have ascii : ∀ c ∈ ['[', ']', '=', ':', ',', ';', '-'], c.toNat < 128 :=
    List.all_iff_forall_prop.mp (by decide)
  have plain : ∀ c ∈ ['[', ']', '=', ':', ',', ';', '-'], (c.isAlphanum || c == '_') = false :=
    List.all_iff_forall_prop.mp (by decide)
  rw [words.ascii c (ascii c mem)]
  exact plain c mem

/-- A pattern whose texts start with a word and have a character that no mark has. -/
structure Token (words : Words) (inner : Pattern Char) : Prop where
  plain : inner.plain = true
  starts : ∀ run, inner.Accepts run → ∃ c rest, run = c :: rest ∧ words.word c = true
  unbracketed : ∀ run, inner.Accepts run → ∀ c ∈ run, c ≠ '[' ∧ c ≠ ']'
  foreign : ∀ run, inner.Accepts run → ∃ c ∈ run, markChar c = false ∧ c ≠ '='

/-- A token stands at the start of a text. -/
def Here (words : Words) (inner : Pattern Char) (before : Option Char) (text : List Char) : Prop :=
  ∃ run rest, text = run ++ rest ∧ inner.Accepts run ∧ edge words.word before text.head? = true ∧
    edge words.word (behind before run) rest.head? = true

/-- No token stands anywhere in a text. -/
def Free (words : Words) (inner : Pattern Char) (before : Option Char) (text : List Char) : Prop :=
  ∀ front c rest, text = front ++ c :: rest → ¬ Here words inner (behind before front) (c :: rest)

theorem free_nil {inner : Pattern Char} : Free words inner before [] := by
  intro front c rest read
  cases front with
  | nil => cases read
  | cons d front => cases read

theorem free_cons {inner : Pattern Char} {rest : List Char} :
    Free words inner before (c :: rest) ↔
      ¬ Here words inner before (c :: rest) ∧ Free words inner (some c) rest := by
  constructor
  · intro free
    refine ⟨free [] c rest rfl, fun front d rest' read => ?_⟩
    subst read
    exact free (c :: front) d rest' rfl
  · rintro ⟨absent, free⟩ front d rest' read
    cases front with
    | nil =>
      obtain ⟨rfl, rfl⟩ := List.cons.inj read
      exact absent
    | cons e front =>
      obtain ⟨rfl, rfl⟩ := List.cons.inj (read.trans List.cons_append)
      exact free front d rest' rfl

theorem takes_bounded {inner : Pattern Char} (plain : inner.plain = true) {place last : Place Char} :
    (bounded inner).Takes words.word place last ↔
      ∃ run rest, place.rest = run ++ rest ∧ inner.Accepts run ∧
        edge words.word place.before place.rest.head? = true ∧
        edge words.word (behind place.before run) rest.head? = true ∧
        last = ⟨behind place.before run, rest, place.groups⟩ := by
  constructor
  · rintro ⟨_, ⟨starts, rfl⟩, middle, inside, ends, rfl⟩
    obtain ⟨run, rest, read, fits, rfl⟩ := (takes_plain plain).mp inside
    exact ⟨run, rest, read, fits, starts, ends, rfl⟩
  · rintro ⟨run, rest, read, fits, starts, ends, rfl⟩
    exact ⟨place, ⟨starts, rfl⟩, _, (takes_plain plain).mpr ⟨run, rest, read, fits, rfl⟩, ends, rfl⟩

theorem bounded_solid {inner : Pattern Char} (token : Token words inner) :
    (bounded inner).Solid words.word := by
  intro place last takes
  obtain ⟨run, rest, read, fits, _, _, rfl⟩ := (takes_bounded token.plain).mp takes
  obtain ⟨c, more, rfl, _⟩ := token.starts run fits
  exact ⟨c :: more, List.cons_ne_nil c more, read, rfl⟩

theorem find_bounded {inner : Pattern Char} (token : Token words inner) :
    (bounded inner).find words.word ⟨before, text, []⟩ some = none ↔
      ¬ Here words inner before text := by
  rw [find_eq_none]
  constructor
  · rintro never ⟨run, rest, read, fits, starts, ends⟩
    exact never _ ((takes_bounded token.plain).mpr ⟨run, rest, read, fits, starts, ends, rfl⟩)
  · intro absent last takes
    obtain ⟨run, rest, read, fits, starts, ends, _⟩ := (takes_bounded token.plain).mp takes
    exact absent ⟨run, rest, read, fits, starts, ends⟩

theorem free_append {inner : Pattern Char} {first second : List Char}
    (free : Free words inner before (first ++ second)) :
    Free words inner (behind before first) second := by
  induction first generalizing before with
  | nil => exact free
  | cons c first ih => exact ih (free_cons.mp free).2

theorem sub_free {inner : Pattern Char} (token : Token words inner) {put : Found Char → List Char}
    (free : Free words inner none text) : (bounded inner).sub words.word put text = text := by
  have scanned : ∀ before text, Free words inner before text →
      (bounded inner).scan words.word before 0 text = ([], text) := by
    intro before text free
    induction text generalizing before with
    | nil => rfl
    | cons c rest ih =>
      obtain ⟨absent, free⟩ := free_cons.mp free
      rw [Pattern.scan, (find_bounded token).mpr absent, ih (some c) free]
      rfl
  rw [Pattern.sub, scanned none text free]
  rfl

/-- A text with parts replaced by marks, each at a boundary on both sides. -/
inductive Marked (words : Words) (kept : Option Char → List Char → Prop) :
    Option Char → List Char → List Char → Prop
  | done (before : Option Char) : Marked words kept before [] []
  | keep {before : Option Char} {c : Char} {rest out : List Char} (here : kept before (c :: rest))
      (more : Marked words kept (some c) rest out) :
      Marked words kept before (c :: rest) (c :: out)
  | mark {before : Option Char} {part rest put out : List Char} (nonempty : part ≠ [])
      (mark : Mark put) (starts : edge words.word before part.head? = true)
      (ends : ∀ c, rest.head? = some c → words.word c = true →
        edge words.word (behind before part) (some c) = true)
      (more : Marked words kept (behind before part) rest out) :
      Marked words kept before (part ++ rest) (put ++ out)

/-- A run without brackets that ends at a boundary in the marked text was in the text. -/
theorem marked_run
    {after : List Char} (marked : Marked words kept before text out)
    (read : out = run ++ after) (plain : ∀ c ∈ run, c ≠ '[')
    (ends : edge words.word (behind before run) after.head? = true) :
    ∃ rest, text = run ++ rest ∧ edge words.word (behind before run) rest.head? = true := by
  induction marked generalizing run with
  | done before =>
    obtain ⟨rfl, rfl⟩ := List.append_eq_nil_iff.mp read.symm
    exact ⟨[], rfl, ends⟩
  | @keep before c rest out here more ih =>
    cases run with
    | nil =>
      obtain rfl : c :: out = after := read
      exact ⟨c :: rest, rfl, ends⟩
    | cons d run =>
      obtain ⟨rfl, rfl⟩ := List.cons.inj (read.trans List.cons_append)
      obtain ⟨rest, rfl, ends⟩ := ih rfl (fun e mem => plain e (List.mem_cons_of_mem c mem)) ends
      exact ⟨rest, rfl, ends⟩
  | @mark before part rest put out nonempty mark starts _ more ih =>
    cases run with
    | nil =>
      refine ⟨part ++ rest, rfl, ?_⟩
      rw [List.head?_append_of_ne_nil _ nonempty]
      exact starts
    | cons d run =>
      have first := plain d List.mem_cons_self
      obtain ⟨_, ⟨body, rfl, _⟩, rfl | rfl⟩ := mark
      · exact absurd (List.cons.inj read).1.symm first
      · obtain ⟨rfl, further⟩ := List.cons.inj read
        cases run with
        | nil =>
          obtain rfl : _ = after := further
          have bare : edge words.word (some '=') (some '[') = true := ends
          rw [edge, Option.any_some, Option.any_some, word_sign '=' (by decide),
            word_sign '[' (by decide)] at bare
          cases bare
        | cons e run =>
          exact absurd (List.cons.inj further).1.symm (plain e (by simp))

theorem free_mark {inner : Pattern Char} (token : Token words inner)
    {front : List Char} (marks : ∀ c ∈ front, markChar c = true ∨ c = '=')
    (free : Free words inner (some ']') out) :
    Free words inner before ((front ++ [']']) ++ out) := by
  have apart : ∀ {before front}, (∀ c ∈ front, markChar c = true ∨ c = '=') →
      ¬ Here words inner before ((front ++ [']']) ++ out) := by
    rintro before front marks ⟨run, rest, read, fits, _, _⟩
    obtain ⟨c, mem, foreign, notSign⟩ := token.foreign run fits
    obtain ⟨more, longer, _⟩ | ⟨more, shorter, _⟩ := List.append_eq_append_iff.mp read
    · refine (token.unbracketed _ fits ']' ?_).2 rfl
      rw [longer]
      simp
    · have inside : c ∈ front ++ [']'] := by
        rw [shorter]
        exact List.mem_append_left _ mem
      rw [List.mem_append, List.mem_singleton] at inside
      obtain inside | rfl := inside
      · obtain marked | sign := marks c inside
        · rw [marked] at foreign
          cases foreign
        · exact notSign sign
      · cases foreign
  induction front generalizing before with
  | nil => exact free_cons.mpr ⟨apart marks, free⟩
  | cons c front ih =>
    refine free_cons.mpr ⟨apart marks, ?_⟩
    exact ih (fun d mem => marks d (List.mem_cons_of_mem c mem))

theorem marked_free {inner : Pattern Char} (token : Token words inner) {other : Option Char}
    (marked : Marked words kept before text out)
    (clear : ∀ before text, kept before text → ¬ Here words inner before text)
    (same : ∀ c, text.head? = some c → words.word c = true →
      edge words.word other (some c) = true → edge words.word before (some c) = true) :
    Free words inner other out := by
  induction marked generalizing other with
  | done before => exact free_nil
  | @keep before c rest out here more ih =>
    refine free_cons.mpr ⟨?_, ih (fun _ _ _ known => known)⟩
    rintro ⟨run, after, read, fits, starts, ends⟩
    obtain ⟨d, run, rfl, isWord⟩ := token.starts run fits
    obtain ⟨rfl, _⟩ := List.cons.inj (read.trans List.cons_append)
    have plain := fun e mem => (token.unbracketed _ fits e mem).1
    have again := Marked.keep here more
    obtain ⟨rest', kept', ends'⟩ := marked_run again read plain ends
    refine clear before _ here ⟨c :: run, rest', kept', fits, ?_, ends'⟩
    exact same c rfl isWord starts
  | @mark before part rest put out nonempty mark starts ends more ih =>
    obtain ⟨front, rfl⟩ := mark_last mark
    refine free_mark token (fun c mem => mark_chars mark c (List.mem_append_left _ mem)) ?_
    exact ih (fun c head isWord _ => ends c head isWord)

theorem all_plain {parts : List (Pattern Char)} (plain : ∀ part ∈ parts, part.plain = true) :
    (all parts).plain = true := by
  induction parts with
  | nil => rfl
  | cons part parts ih =>
    obtain ⟨first, others⟩ := List.forall_mem_cons.mp plain
    exact Bool.and_eq_true_iff.mpr ⟨first, ih others⟩

theorem accepts_sets {test : Char → Char → Bool} {chars run : List Char} :
    (all (chars.map (fun c => .set (test c)))).Accepts run ↔
      List.Forall₂ (fun c d => test c d = true) chars run := by
  induction chars generalizing run with
  | nil => exact List.forall₂_nil_left_iff.symm
  | cons c chars ih =>
    constructor
    · rintro ⟨_, back, rfl, ⟨d, rfl, fits⟩, others⟩
      exact .cons fits (ih.mp others)
    · intro fits
      cases fits with
      | cons first others => exact ⟨[_], _, rfl, ⟨_, rfl, first⟩, ih.mpr others⟩

theorem accepts_literal {text : String} : (literal text).Accepts run ↔ run = text.toList := by
  rw [literal, @accepts_sets (fun c d => d == c)]
  simp only [beq_iff_eq]
  constructor
  · intro same
    exact (List.forall₂_eq_eq_eq ▸ same.imp (fun _ _ equal => equal.symm) :
      text.toList = run).symm
  · rintro rfl
    exact List.forall₂_same.mpr (fun _ _ => rfl)

theorem accepts_ignoringCase {text : String} :
    (ignoringCase text).Accepts run ↔ run.map fold = text.toList := by
  rw [ignoringCase, @accepts_sets (fun c d => fold d == c)]
  simp only [beq_iff_eq]
  rw [← List.forall₂_eq_eq_eq, List.forall₂_map_left_iff]
  exact ⟨fun same => same.flip, fun same => same.flip⟩

theorem plain_literal (text : String) : (literal text).plain = true := by
  refine all_plain (fun part mem => ?_)
  obtain ⟨c, _, rfl⟩ := List.mem_map.mp mem
  rfl

theorem plain_ignoringCase (text : String) : (ignoringCase text).plain = true := by
  refine all_plain (fun part mem => ?_)
  obtain ⟨c, _, rfl⟩ := List.mem_map.mp mem
  rfl

theorem toLower_same (other : ¬ ('A'.val ≤ c.val ∧ c.val ≤ 'Z'.val)) : c.toLower = c := dif_neg other

theorem isLower_iff : c.isLower = true ↔ 97 ≤ c.toNat ∧ c.toNat ≤ 122 := by
  change (decide (97 ≤ c.toNat) && decide (c.toNat ≤ 122)) = true ↔ _
  rw [Bool.and_eq_true, decide_eq_true_eq, decide_eq_true_eq]

theorem upper_lower (upper : c.isUpper = true) : c.toLower.isLower = true := by
  have bounds := of_decide_eq_true upper
  have low : 65 ≤ c.val.toNat := bounds.1
  have high : c.val.toNat ≤ 90 := bounds.2
  have lowered : c.toLower.val = c.val + 32 := congrArg Char.val (dif_pos bounds)
  have value : c.toLower.toNat = c.val.toNat + 32 := by
    rw [Char.toNat, lowered]
    change (c.val.toNat + 32) % 2 ^ 32 = _
    omega
  rw [isLower_iff]
  omega

theorem lower_alpha (letter : c.toLower.isLower = true) : c.isAlpha = true := by
  change (c.isUpper || c.isLower) = true
  rw [Bool.or_eq_true]
  cases upper : c.isUpper with
  | true => exact .inl rfl
  | false =>
    have same : c.toLower = c := toLower_same (of_decide_eq_false upper)
    rw [same] at letter
    exact .inr letter

theorem isAlphanum_iff : c.isAlphanum = true ↔ (65 ≤ c.toNat ∧ c.toNat ≤ 90) ∨
    (97 ≤ c.toNat ∧ c.toNat ≤ 122) ∨ (48 ≤ c.toNat ∧ c.toNat ≤ 57) := by
  change ((decide (65 ≤ c.toNat ∧ c.toNat ≤ 90) || c.isLower) ||
    (decide (48 ≤ c.toNat) && decide (c.toNat ≤ 57))) = true ↔ _
  rw [Bool.or_eq_true, Bool.or_eq_true, isLower_iff, decide_eq_true_eq, Bool.and_eq_true,
    decide_eq_true_eq, decide_eq_true_eq, or_assoc]

theorem alphanum_ascii (alphanum : c.isAlphanum = true) : c.toNat < 128 := by
  have ranges := isAlphanum_iff.mp alphanum
  omega

theorem fold_word {c : Char} (letter : (fold c).isLower = true) : words.word c = true := by
  rw [fold] at letter
  split at letter
  next cased =>
    obtain rfl | rfl := cased
    · exact words.cased _ (by simp)
    · exact words.cased _ (by simp)
  next =>
    split at letter
    next cased => exact cased ▸ words.cased longS (by simp)
    next =>
      split at letter
      next cased => exact cased ▸ words.cased kelvin (by simp)
      next =>
        have alpha : c.isAlpha = true := lower_alpha letter
        have alphanum : c.isAlphanum = true := Bool.or_eq_true_iff.mpr (.inl alpha)
        rw [words.ascii c (alphanum_ascii alphanum), alphanum]
        rfl

theorem wordChar_unbracketed (fits : wordChar c = true) : c ≠ '[' ∧ c ≠ ']' := by
  constructor
  · rintro rfl
    cases fits
  · rintro rfl
    cases fits

theorem bearerChar_unbracketed (fits : bearerChar c = true) : c ≠ '[' ∧ c ≠ ']' := by
  constructor
  · rintro rfl
    cases fits
  · rintro rfl
    cases fits

theorem mark_space (space : isSpace c = true) : markChar c = false := by
  cases marked : markChar c with
  | false => rfl
  | true =>
    have listed : c ∈ "REDACTED:[]".toList ++ "0123456789abcdef".toList := by
      rw [markChar, Bool.or_eq_true, decide_eq_true_eq, decide_eq_true_eq] at marked
      exact List.mem_append.mpr marked
    have solid : ∀ c ∈ "REDACTED:[]".toList ++ "0123456789abcdef".toList, isSpace c = false :=
      List.all_iff_forall_prop.mp (by decide)
    rw [solid c listed] at space
    cases space

/-- A literal, and then characters of one kind. -/
theorem prefixed_token {text : String} {kind : Char → Bool} {count : Nat} {first : Char}
    (mark : Char) (head : text.toList.head? = some first) (word : words.word first = true)
    (listed : mark ∈ text.toList) (foreign : markChar mark = false ∧ mark ≠ '=')
    (known : ∀ c ∈ text.toList, c ≠ '[' ∧ c ≠ ']') (others : ∀ c, kind c = true → c ≠ '[' ∧ c ≠ ']') :
    Token words (all [literal text, .many kind count]) where
  plain := by
    refine all_plain (fun part mem => ?_)
    simp only [List.mem_cons, List.not_mem_nil, or_false] at mem
    obtain rfl | rfl := mem
    · exact plain_literal _
    · rfl
  starts := by
    rintro _ ⟨front, _, rfl, start, _⟩
    obtain ⟨rest, opening⟩ := List.head?_eq_some_iff.mp head
    rw [accepts_literal.mp start, opening]
    exact ⟨first, _, rfl, word⟩
  unbracketed := by
    rintro _ ⟨front, _, rfl, start, run, _, rfl, ⟨_, chars⟩, rfl⟩ c mem
    obtain rfl := accepts_literal.mp start
    rw [List.append_nil] at mem
    obtain written | mem := List.mem_append.mp mem
    · exact known c written
    · exact others c (chars c mem)
  foreign := by
    rintro _ ⟨front, _, rfl, start, _⟩
    obtain rfl := accepts_literal.mp start
    exact ⟨mark, List.mem_append_left _ listed, foreign⟩

theorem githubPat_token : Token words githubPat :=
  prefixed_token '_' rfl (words.ascii 'g' (by decide)) (by decide) (by decide)
    (List.all_iff_forall_prop.mp (by decide)) (fun _ => wordChar_unbracketed)

theorem githubToken_token : Token words githubToken where
  plain := by
    refine all_plain (fun part mem => ?_)
    simp only [List.mem_cons, List.not_mem_nil, or_false] at mem
    obtain rfl | rfl | rfl | rfl := mem
    · exact plain_literal _
    · rfl
    · exact plain_literal _
    · rfl
  starts := by
    rintro _ ⟨front, _, rfl, start, _⟩
    obtain rfl := accepts_literal.mp start
    exact ⟨'g', _, rfl, words.ascii 'g' (by decide)⟩
  unbracketed := by
    rintro _ ⟨_, _, rfl, start, _, _, rfl, ⟨kind, rfl, listed⟩, _, _, rfl, middle, run, _, rfl,
      ⟨_, chars⟩, rfl⟩ c mem
    obtain rfl := accepts_literal.mp start
    obtain rfl := accepts_literal.mp middle
    rw [List.append_nil] at mem
    simp only [List.mem_append, List.mem_singleton] at mem
    obtain written | rfl | written | mem := mem
    · have known : ∀ c ∈ "gh".toList, c ≠ '[' ∧ c ≠ ']' :=
        List.all_iff_forall_prop.mp (by decide)
      exact known c written
    · have known : ∀ c ∈ ['o', 'p', 's', 'u'], c ≠ '[' ∧ c ≠ ']' :=
        List.all_iff_forall_prop.mp (by decide)
      exact known c (of_decide_eq_true listed)
    · have known : ∀ c ∈ "_".toList, c ≠ '[' ∧ c ≠ ']' :=
        List.all_iff_forall_prop.mp (by decide)
      exact known c written
    · exact wordChar_unbracketed (Bool.or_eq_true_iff.mpr (.inl (chars c mem)))
  foreign := by
    rintro _ ⟨_, _, rfl, start, _, _, rfl, _, _, _, rfl, middle, _⟩
    obtain rfl := accepts_literal.mp middle
    exact ⟨'_', by simp, by decide, by decide⟩

theorem secretKey_token : Token words secretKey := by
  refine prefixed_token '-' rfl (words.ascii 's' (by decide)) (by decide) (by decide)
    (List.all_iff_forall_prop.mp (by decide)) (fun c fits => ?_)
  obtain fits | hyphen := Bool.or_eq_true_iff.mp fits
  · exact wordChar_unbracketed fits
  · rw [beq_iff_eq.mp hyphen]
    decide

theorem fold_unbracketed {text : String} (known : ∀ c ∈ text.toList, c ≠ '[' ∧ c ≠ ']')
    (fits : run.map fold = text.toList) : ∀ c ∈ run, c ≠ '[' ∧ c ≠ ']' := by
  intro c mem
  have folded : fold c ∈ text.toList := fits ▸ List.mem_map_of_mem mem
  have same : fold '[' = '[' ∧ fold ']' = ']' := by decide +kernel
  constructor
  · rintro rfl
    exact (known _ folded).1 same.1
  · rintro rfl
    exact (known _ folded).2 same.2

theorem bearer_token : Token words bearer where
  plain := by
    refine all_plain (fun part mem => ?_)
    simp only [List.mem_cons, List.not_mem_nil, or_false] at mem
    obtain rfl | rfl | rfl | rfl := mem
    · exact plain_ignoringCase _
    · rfl
    · rfl
    · rfl
  starts := by
    rintro _ ⟨front, _, rfl, start, _⟩
    have folded := accepts_ignoringCase.mp start
    cases front with
    | nil =>
      have bare : ([] : List Char) ≠ "bearer".toList := by decide
      exact absurd folded bare
    | cons c front =>
      have first : fold c = 'b' := (List.cons.inj folded).1
      exact ⟨c, _, rfl, fold_word (by rw [first]; rfl)⟩
  unbracketed := by
    rintro _ ⟨_, _, rfl, start, _, _, rfl, ⟨_, spaces⟩, _, _, rfl, ⟨_, chars⟩, _, _, rfl,
      ⟨_, signs⟩, rfl⟩ c mem
    rw [List.append_nil] at mem
    simp only [List.mem_append] at mem
    obtain name | space | char | sign := mem
    · exact fold_unbracketed (List.all_iff_forall_prop.mp (by decide)) (accepts_ignoringCase.mp start) c name
    · constructor
      · rintro rfl
        cases spaces _ space
      · rintro rfl
        cases spaces _ space
    · exact bearerChar_unbracketed (chars c char)
    · rw [beq_iff_eq.mp (signs c sign)]
      decide
  foreign := by
    rintro _ ⟨_, _, rfl, _, spaces, _, rfl, ⟨some, all⟩, _⟩
    cases spaces with
    | nil => cases some
    | cons c spaces =>
      have white := all c List.mem_cons_self
      refine ⟨c, List.mem_append_right _ List.mem_cons_self, mark_space white, ?_⟩
      rintro rfl
      cases white

/-- The tokens, in the order of their passes. -/
def tokens : List (Pattern Char) := [githubPat, githubToken, secretKey, bearer]

theorem tokens_token : ∀ inner ∈ tokens, Token words inner := by
  intro inner mem
  simp only [tokens, List.mem_cons, List.not_mem_nil, or_false] at mem
  obtain rfl | rfl | rfl | rfl := mem
  · exact githubPat_token
  · exact githubToken_token
  · exact secretKey_token
  · exact bearer_token

theorem scanned_marked {inner : Pattern Char} (token : Token words inner)
    {parts : List (Found Char) × List Char}
    (scanned : Scanned words.word (bounded inner) before text parts) :
    Marked words (fun before text => ¬ Here words inner before text) before text
      (assemble (putMarker sha256) parts) := by
  induction scanned with
  | done before => exact .done before
  | keep none more ih =>
    rw [assemble_keep _ _ (fun _ _ => rfl)]
    exact .keep ((find_bounded token).mp none) ih
  | @take before run rest groups parts nonempty found more ih =>
    obtain ⟨last, takes, same⟩ := find_some found
    cases same
    obtain ⟨run', rest', read, fits, starts, ends, same⟩ := (takes_bounded token.plain).mp takes
    obtain ⟨_, rfl, _⟩ := Place.mk.inj same
    obtain rfl := List.append_cancel_right read
    rw [assemble_cons]
    refine .mark nonempty ⟨marker sha256 run, marker_bracketed run, .inl rfl⟩ ?_ ?_ ih
    · rw [List.head?_append_of_ne_nil _ nonempty] at starts
      exact starts
    · intro c head _
      rw [← head]
      exact ends

theorem marked_kept {other : Pattern Char} (marked : Marked words kept before text out)
    (free : Free words other before text) :
    Marked words (fun before text => ¬ Here words other before text) before text out := by
  induction marked with
  | done before => exact .done before
  | keep _ _ ih =>
    obtain ⟨absent, free⟩ := free_cons.mp free
    exact .keep absent (ih free)
  | mark nonempty mark starts ends _ ih =>
    exact .mark nonempty mark starts ends (ih (free_append free))

theorem sub_clears {inner : Pattern Char} (token : Token words inner) (text : List Char) :
    Free words inner none ((bounded inner).sub words.word (putMarker sha256) text) :=
  marked_free token (scanned_marked token (scan_scanned (bounded_solid token) none text))
    (fun _ _ absent => absent) (fun _ _ _ known => known)

theorem sub_keeps {inner other : Pattern Char} (token : Token words inner)
    (second : Token words other) (free : Free words other none text) :
    Free words other none ((bounded inner).sub words.word (putMarker sha256) text) :=
  marked_free second
    (marked_kept (scanned_marked token (scan_scanned (bounded_solid token) none text)) free)
    (fun _ _ absent => absent) (fun _ _ _ known => known)

def marksOf (words : Words) (sha256 : Bytes → Bytes) (kinds : List (Pattern Char))
    (text : List Char) : List Char :=
  kinds.foldl (fun result inner => (bounded inner).sub words.word (putMarker sha256) result) text

theorem marksOf_keeps (all : ∀ inner ∈ kinds, Token words inner) {other : Pattern Char}
    (token : Token words other) (free : Free words other none text) :
    Free words other none (marksOf words sha256 kinds text) := by
  induction kinds generalizing text with
  | nil => exact free
  | cons inner kinds ih =>
    obtain ⟨first, others⟩ := List.forall_mem_cons.mp all
    exact ih others (sub_keeps first token free)

theorem marksOf_clears (all : ∀ inner ∈ kinds, Token words inner) (text : List Char) :
    ∀ inner ∈ kinds, Free words inner none (marksOf words sha256 kinds text) := by
  induction kinds generalizing text with
  | nil => exact fun inner mem => absurd mem List.not_mem_nil
  | cons first kinds ih =>
    obtain ⟨token, others⟩ := List.forall_mem_cons.mp all
    intro inner mem
    obtain rfl | mem := List.mem_cons.mp mem
    · exact marksOf_keeps others token (sub_clears token text)
    · exact ih others _ inner mem

theorem marksOf_free (all : ∀ inner ∈ kinds, Token words inner)
    (free : ∀ inner ∈ kinds, Free words inner none text) :
    marksOf words sha256 kinds text = text := by
  induction kinds with
  | nil => rfl
  | cons inner kinds ih =>
    obtain ⟨token, others⟩ := List.forall_mem_cons.mp all
    obtain ⟨first, rest⟩ := List.forall_mem_cons.mp free
    rw [marksOf, List.foldl_cons, sub_free token first]
    exact ih others rest

end Meemee.Guarantees.ScrubTokens
