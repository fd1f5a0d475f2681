import Meemee.Guarantees.ScrubTokens

/-!
# Scrubbing twice

The last pass of `scrub_text` finds the assignments it wrote itself: a marker is a value like any
other. A scrubbed text is therefore scrubbed again to another text, unless no assignment was found
in it or the digest of every marker happens to be the one it carries.
-/
namespace Meemee.Guarantees.ScrubMarkers
open Library.Patterns Option
open Source
open Source.Sensitive
open Source.PgJobs (isSpace)
open Source.Sse (Bytes utf8)
open Guarantees.ScrubTokens

variable {words : Words} {sha256 : Bytes → Bytes}

/-- The names of secrets in lower case. -/
def keyWords : List (List Char) :=
  ["password", "passwd", "apikey", "api_key", "api-key", "accesstoken", "access_token",
    "access-token", "secret"].map String.toList

variable {run front follow : List Char} {last : Place Char}
  {parts : List (Found Char) × List Char}

theorem accepts_maybe (accepts : (maybe (fun c => c ∈ ['_', '-'])).Accepts run) :
    run = ['_'] ∨ run = ['-'] ∨ run = [] := by
  obtain ⟨c, rfl, listed⟩ | rfl := accepts
  · simp only [List.mem_cons, List.not_mem_nil, or_false, decide_eq_true_eq] at listed
    exact listed.elim (fun same => .inl (by rw [same])) (fun same => .inr (.inl (by rw [same])))
  · exact .inr (.inr rfl)

theorem accepts_joined {first second : String}
    (accepts : (all [ignoringCase first, maybe (fun c => c ∈ ['_', '-']),
      ignoringCase second]).Accepts run) :
    run.map fold = first.toList ++ second.toList ∨
      run.map fold = first.toList ++ '_' :: second.toList ∨
      run.map fold = first.toList ++ '-' :: second.toList := by
  obtain ⟨front, _, rfl, start, middle, _, rfl, between, back, _, rfl, finish, rfl⟩ := accepts
  rw [List.map_append, List.map_append, accepts_ignoringCase.mp start, List.map_append,
    accepts_ignoringCase.mp finish]
  have same : fold '_' = '_' ∧ fold '-' = '-' := by decide +kernel
  obtain rfl | rfl | rfl := accepts_maybe between
  · rw [List.map_singleton, same.1]
    simp
  · rw [List.map_singleton, same.2]
    simp
  · simp

variable {key sign key' rest rest' value sign' text value' gap : List Char} {c : Char}
  {before other : Option Char} {inner : Pattern Char}

theorem key_word (accepts : keyName.Accepts key) : key.map fold ∈ keyWords := by
  obtain name | name | name | name | name := accepts
  · rw [accepts_ignoringCase.mp name]
    decide
  · rw [accepts_ignoringCase.mp name]
    decide
  · obtain folded | folded | folded := accepts_joined name
    all_goals
      rw [folded]
      decide
  · obtain folded | folded | folded := accepts_joined name
    all_goals
      rw [folded]
      decide
  · rw [accepts_ignoringCase.mp name]
    decide

theorem keyWords_apart : ∀ a ∈ keyWords, ∀ b ∈ keyWords, a <+: b → a = b := by decide

theorem keyWords_head : ∀ a ∈ keyWords, ∃ c, a.head? = some c ∧ c ∈ ['p', 'a', 's'] := by
  have heads : ∀ a ∈ keyWords, a.head?.any (fun c => decide (c ∈ ['p', 'a', 's'])) = true := by decide
  intro a mem
  obtain ⟨c, head, listed⟩ := (any_eq_true _ _).mp (heads a mem)
  exact ⟨c, head, of_decide_eq_true listed⟩

theorem keyWords_last : ∀ a ∈ keyWords, ∃ c, a.getLast? = some c ∧ c.isLower = true := by
  have lasts : ∀ a ∈ keyWords, a.getLast?.any Char.isLower = true := by decide
  exact fun a mem => (any_eq_true _ _).mp (lasts a mem)

theorem keyWords_chars : ∀ a ∈ keyWords, ∀ c ∈ a, c.isLower = true ∨ c = '_' ∨ c = '-' := by
  have listed : ∀ a ∈ keyWords,
      a.all (fun c => decide (c.isLower = true ∨ c = '_' ∨ c = '-')) = true := by decide
  exact fun a mem => List.all_iff_forall_prop.mp (listed a mem)

theorem keyWords_hyphen : ∀ a ∈ keyWords, ∀ n < 13, (a.take n).getLast? = some '-' →
    ∀ c, (a.drop n).head? = some c → c ∉ ['p', 'a', 's'] := by
  have heads : ∀ a ∈ keyWords, ∀ n < 13, (a.take n).getLast? = some '-' →
      (a.drop n).head?.all (fun c => decide (c ∉ ['p', 'a', 's'])) = true := by decide
  intro a mem n within hyphen c head
  have listed := heads a mem n within hyphen
  rw [head] at listed
  exact of_decide_eq_true listed

theorem keyWords_short : ∀ a ∈ keyWords, a.length < 13 := by decide

theorem key_head (accepts : keyName.Accepts key) :
    ∃ c rest, key = c :: rest ∧ fold c ∈ ['p', 'a', 's'] := by
  obtain ⟨c, head, listed⟩ := keyWords_head _ (key_word accepts)
  cases key with
  | nil => cases head
  | cons d key =>
    obtain rfl := Option.some.inj head
    exact ⟨d, key, rfl, listed⟩

theorem head_lower : ∀ c ∈ ['p', 'a', 's'], c.isLower = true :=
  List.all_iff_forall_prop.mp (by decide)

theorem key_last (words : Words) (accepts : keyName.Accepts key) (before : Option Char) :
    (behind before key).any words.word = true := by
  obtain ⟨c, last, lower⟩ := keyWords_last _ (key_word accepts)
  rw [List.getLast?_map] at last
  obtain ⟨d, final, rfl⟩ := map_eq_some_iff.mp last
  obtain ⟨front, rfl⟩ := List.getLast?_eq_some_iff.mp final
  rw [behind_append, behind_cons]
  exact fold_word lower

theorem fold_space (space : isSpace c = true) : fold c = c := by
  have solid : ∀ c ∈ [dottedI, dotlessI, longS, kelvin], isSpace c = false :=
    List.all_iff_forall_prop.mp (by decide)
  have uncased : ∀ d ∈ [dottedI, dotlessI, longS, kelvin], c ≠ d := by
    rintro d mem rfl
    rw [solid c mem] at space
    cases space
  rw [fold, if_neg (not_or.mpr ⟨uncased _ (by simp), uncased _ (by simp)⟩),
    if_neg (uncased _ (by simp)), if_neg (uncased _ (by simp))]
  refine toLower_same ?_
  rintro ⟨low, high⟩
  rw [isSpace, decide_eq_true_eq] at space
  have low : 65 ≤ c.toNat := low
  have high : c.toNat ≤ 90 := high
  omega

theorem space_lower (space : isSpace c = true) : c.isLower = false := by
  cases lower : c.isLower with
  | false => rfl
  | true =>
    rw [isLower_iff] at lower
    rw [isSpace, decide_eq_true_eq] at space
    omega

theorem valueChar_iff : valueChar c = true ↔ isSpace c = false ∧ c ≠ ',' ∧ c ≠ ';' := by
  simp [valueChar, and_assoc]

theorem fold_value (folded : (fold c).isLower = true ∨ fold c = '_' ∨ fold c = '-') :
    valueChar c = true := by
  refine valueChar_iff.mpr ⟨?_, ?_, ?_⟩
  · cases space : isSpace c with
    | false => rfl
    | true =>
      rw [fold_space space, space_lower space] at folded
      obtain lower | rfl | rfl := folded
      · cases lower
      · cases space
      · cases space
  · rintro rfl
    revert folded
    decide
  · rintro rfl
    revert folded
    decide

theorem key_value (accepts : keyName.Accepts key) : ∀ c ∈ key, valueChar c = true := by
  intro c mem
  exact fold_value (keyWords_chars _ (key_word accepts) _ (List.mem_map_of_mem mem))

theorem marker_value (value : List Char) : ∀ c ∈ marker sha256 value, valueChar c = true := by
  intro c mem
  have marked := bracketed_chars (marker_bracketed value) c mem
  refine valueChar_iff.mpr ⟨?_, ?_, ?_⟩
  · cases space : isSpace c with
    | false => rfl
    | true =>
      rw [mark_space space] at marked
      cases marked
  · rintro rfl
    revert marked
    decide
  · rintro rfl
    revert marked
    decide

theorem marker_sign (value : List Char) : '=' ∉ marker sha256 value := by
  intro mem
  have marked := bracketed_chars (marker_bracketed value) _ mem
  revert marked
  decide

theorem heading_long (hex digits : List Char) :
    8 ≤ ("[REDACTED:".toList ++ hex ++ ':' :: digits ++ [']']).length := by
  have heading : "[REDACTED:".toList.length = 10 := by decide +kernel
  rw [List.length_append, List.length_append, List.length_append]
  omega

theorem marker_long (value : List Char) : 8 ≤ (marker sha256 value).length := heading_long _ _

theorem assigns_iff :
    assigns.Accepts sign ↔ ∃ left c right, sign = left ++ c :: right ∧
      (∀ d ∈ left, isSpace d = true) ∧ (c = ':' ∨ c = '=') ∧ ∀ d ∈ right, isSpace d = true := by
  constructor
  · rintro ⟨left, _, rfl, ⟨_, before⟩, _, _, rfl, ⟨c, rfl, listed⟩, right, _, rfl, ⟨_, after⟩, rfl⟩
    simp only [List.mem_cons, List.not_mem_nil, or_false, decide_eq_true_eq] at listed
    exact ⟨left, c, right, by simp, before, listed, after⟩
  · rintro ⟨left, c, right, rfl, before, listed, after⟩
    refine ⟨left, c :: right, rfl, ⟨Nat.zero_le _, before⟩, [c], right, rfl, ⟨c, rfl, ?_⟩, right, [],
      (List.append_nil right).symm, ⟨Nat.zero_le _, after⟩, rfl⟩
    simp only [List.mem_cons, List.not_mem_nil, or_false, decide_eq_true_eq]
    exact listed

theorem fold_same (unlettered : (fold c).isLower = false) : fold c = c := by
  have lower : ('i'.isLower = true) ∧ ('s'.isLower = true) ∧ ('k'.isLower = true) := by decide
  rw [fold] at unlettered ⊢
  split at unlettered
  next => cases lower.1.symm.trans unlettered
  next notI =>
    split at unlettered
    next => cases lower.2.1.symm.trans unlettered
    next notS =>
      split at unlettered
      next => cases lower.2.2.symm.trans unlettered
      next notK =>
        rw [if_neg notI, if_neg notS, if_neg notK]
        refine toLower_same (fun within => ?_)
        rw [upper_lower (decide_eq_true within)] at unlettered
        cases unlettered

theorem key_inner {back : List Char} (accepts : keyName.Accepts key) (split : key = front ++ back)
    (nonempty : front ≠ []) (head : back.head? = some c)
    (starts : edge words.word (behind before front) (some c) = true) :
    fold c ∉ ['p', 'a', 's'] := by
  intro listed
  have known := key_word accepts
  obtain ⟨front, d, rfl⟩ : ∃ most last, front = most ++ [last] :=
    ⟨_, _, (List.dropLast_append_getLast nonempty).symm⟩
  have bare : words.word d = false := by
    rw [behind_append, behind_cons, behind_nil, edge, any_some, any_some,
      fold_word (head_lower _ listed)] at starts
    cases word : words.word d with
    | false => rfl
    | true =>
      rw [word] at starts
      cases starts
  have hyphen : fold d = '-' := by
    have mem : fold d ∈ key.map fold := by
      rw [split]
      exact List.mem_map_of_mem (by simp)
    obtain lower | underscore | hyphen := keyWords_chars _ known _ mem
    · rw [fold_word lower] at bare
      cases bare
    · have same : d = '_' := (fold_same (by rw [underscore]; rfl)).symm.trans underscore
      rw [same, words.ascii '_' (by decide)] at bare
      cases bare
    · exact hyphen
  have folded : key.map fold = (front.map fold ++ ['-']) ++ back.map fold := by
    rw [split, List.map_append, List.map_append, List.map_singleton, hyphen]
  have short := keyWords_short _ known
  have size : (front.map fold ++ ['-']).length ≤ (key.map fold).length := by
    rw [folded]
    simp only [List.length_append]
    omega
  refine keyWords_hyphen _ known (front.map fold ++ ['-']).length (by omega) ?_ (fold c) ?_ listed
  · rw [folded, List.take_left]
    exact List.getLast?_concat
  · rw [folded, List.drop_left, List.head?_map, head]
    rfl

/-- An assignment stands at the start of a text. -/
structure Assigned (words : Words) (before : Option Char) (text key sign value rest : List Char) :
    Prop where
  read : text = key ++ (sign ++ (value ++ rest))
  starts : edge words.word before text.head? = true
  key : keyName.Accepts key
  sign : assigns.Accepts sign
  long : 8 ≤ value.length
  chars : ∀ c ∈ value, valueChar c = true
  stops : ∀ c, rest.head? = some c → valueChar c = false

theorem key_unique (first : keyName.Accepts key) (second : keyName.Accepts key')
    (read : key ++ rest = key' ++ rest') : key = key' ∧ rest = rest' := by
  have lengths : key.length = key'.length := by
    have starts : key <+: key' ∨ key' <+: key :=
      List.prefix_or_prefix_of_prefix (List.prefix_append key rest)
        (read ▸ List.prefix_append key' rest')
    have same : key.map fold = key'.map fold := by
      obtain starts | starts := starts
      · exact keyWords_apart _ (key_word first) _ (key_word second) (starts.map fold)
      · exact (keyWords_apart _ (key_word second) _ (key_word first) (starts.map fold)).symm
    rw [← List.length_map fold, same, List.length_map]
  exact List.append_inj read lengths

theorem value_solid (long : 8 ≤ value.length) (chars : ∀ c ∈ value, valueChar c = true) :
    ∀ c, (value ++ rest).head? = some c → isSpace c = false := by
  intro c head
  cases value with
  | nil => cases long
  | cons d value =>
    obtain rfl := Option.some.inj head
    exact (valueChar_iff.mp (chars d List.mem_cons_self)).1

theorem sign_unique (first : assigns.Accepts sign)
    (second : assigns.Accepts sign') (solid : ∀ c, rest.head? = some c → isSpace c = false)
    (solid' : ∀ c, rest'.head? = some c → isSpace c = false)
    (read : sign ++ rest = sign' ++ rest') : sign = sign' ∧ rest = rest' := by
  obtain ⟨left, c, right, rfl, leftSpace, isSign, rightSpace⟩ := assigns_iff.mp first
  obtain ⟨left', c', right', rfl, leftSpace', isSign', rightSpace'⟩ := assigns_iff.mp second
  have bare : ∀ {c : Char}, c = ':' ∨ c = '=' → isSpace c = false := by
    rintro c (rfl | rfl)
    · rfl
    · rfl
  rw [List.append_assoc, List.append_assoc] at read
  obtain ⟨rfl, middle⟩ := run_unique read leftSpace leftSpace'
    (fun d head => Option.some.inj head ▸ bare isSign)
    (fun d head => Option.some.inj head ▸ bare isSign')
  obtain ⟨rfl, further⟩ := List.cons.inj middle
  obtain ⟨rfl, same⟩ := run_unique further rightSpace rightSpace' solid solid'
  exact ⟨rfl, same⟩

theorem assigned_unique {before' : Option Char}
    (first : Assigned words before text key sign value rest)
    (second : Assigned words before' text key' sign' value' rest') :
    key = key' ∧ sign = sign' ∧ value = value' ∧ rest = rest' := by
  obtain ⟨rfl, signs⟩ := key_unique first.key second.key (first.read.symm.trans second.read)
  obtain ⟨rfl, values⟩ := sign_unique first.sign second.sign
    (value_solid first.long first.chars) (value_solid second.long second.chars) signs
  obtain ⟨rfl, same⟩ := run_unique values first.chars second.chars first.stops second.stops
  exact ⟨rfl, rfl, rfl, same⟩

theorem keyName_plain : keyName.plain = true := by
  have named := plain_ignoringCase
  have joined : ∀ first second, (all [ignoringCase first, maybe (fun c => c ∈ ['_', '-']),
      ignoringCase second]).plain = true := by
    intro first second
    refine all_plain (fun part mem => ?_)
    simp only [List.mem_cons, List.not_mem_nil, or_false] at mem
    obtain rfl | rfl | rfl := mem
    · exact named first
    · rfl
    · exact named second
  simp only [keyName, Pattern.plain, named, joined, Bool.and_self]

theorem assigns_plain : assigns.plain = true := rfl

theorem takes_assignment {place : Place Char} :
    assignment.Takes words.word place last ↔ ∃ key sign value rest,
      place.rest = key ++ (sign ++ (value ++ rest)) ∧
      edge words.word place.before place.rest.head? = true ∧ keyName.Accepts key ∧
      assigns.Accepts sign ∧ 8 ≤ value.length ∧ (∀ c ∈ value, valueChar c = true) ∧
      last = ⟨behind place.before (key ++ (sign ++ value)), rest, place.groups ++ [key, value]⟩ := by
  constructor
  · rintro ⟨_, ⟨starts, rfl⟩, _, named, _, signed, valued⟩
    obtain ⟨key, _, read, isKey, rfl⟩ := (takes_group keyName_plain).mp named
    obtain ⟨sign, _, rfl, isSign, rfl⟩ := (takes_plain assigns_plain).mp signed
    obtain ⟨value, rest, rfl, ⟨long, chars⟩, rfl⟩ := (takes_group rfl).mp valued
    refine ⟨key, sign, value, rest, read, starts, isKey, isSign, long, chars, ?_⟩
    rw [behind_append, behind_append, List.append_assoc]
    rfl
  · rintro ⟨key, sign, value, rest, read, starts, isKey, isSign, long, chars, rfl⟩
    refine ⟨place, ⟨starts, rfl⟩, _, (takes_group keyName_plain).mpr ⟨key, _, read, isKey, rfl⟩, _,
      (takes_plain assigns_plain).mpr ⟨sign, _, rfl, isSign, rfl⟩,
      (takes_group rfl).mpr ⟨value, rest, rfl, ⟨long, chars⟩, ?_⟩⟩
    rw [behind_append, behind_append, List.append_assoc]
    rfl

theorem find_assigned (found : assignment.find words.word ⟨before, text, []⟩ some = some last) :
    ∃ key sign value rest, Assigned words before text key sign value rest ∧
      last = ⟨behind before (key ++ (sign ++ value)), rest, [key, value]⟩ := by
  rw [assignment, find_sequence] at found
  obtain ⟨_, ⟨starts, rfl⟩, found⟩ := find_some found
  rw [find_sequence] at found
  obtain ⟨_, named, found⟩ := find_some found
  obtain ⟨key, _, read, isKey, rfl⟩ := (takes_group keyName_plain).mp named
  rw [find_sequence] at found
  obtain ⟨_, signed, found⟩ := find_some found
  obtain ⟨sign, _, rfl, isSign, rfl⟩ := (takes_plain assigns_plain).mp signed
  obtain ⟨value, rest, rfl, long, chars, stops, same⟩ := greedy_longest (fun _ => rfl) found
  cases same
  refine ⟨key, sign, value, rest, ⟨read, starts, isKey, isSign, long, chars, stops⟩, ?_⟩
  rw [taken_run rfl, behind_append, behind_append]
  rfl

theorem assigned_find (assigned : Assigned words before text key sign value rest) :
    assignment.find words.word ⟨before, text, []⟩ some =
      some ⟨behind before (key ++ (sign ++ value)), rest, [key, value]⟩ := by
  have takes : assignment.Takes words.word ⟨before, text, []⟩
      ⟨behind before (key ++ (sign ++ value)), rest, [key, value]⟩ :=
    takes_assignment.mpr ⟨key, sign, value, rest, assigned.read, assigned.starts, assigned.key,
      assigned.sign, assigned.long, assigned.chars, rfl⟩
  have some_found := find_isSome takes (show (some _).isSome from rfl)
  obtain ⟨last, found⟩ := isSome_iff_exists.mp some_found
  obtain ⟨_, _, _, _, other, rfl⟩ := find_assigned found
  obtain ⟨rfl, rfl, rfl, rfl⟩ := assigned_unique assigned other
  exact found

theorem find_absent :
    assignment.find words.word ⟨before, text, []⟩ some = none ↔
      ∀ key sign value rest, ¬ Assigned words before text key sign value rest := by
  constructor
  · intro missed key sign value rest assigned
    rw [assigned_find assigned] at missed
    cases missed
  · intro absent
    cases found : assignment.find words.word ⟨before, text, []⟩ some with
    | none => rfl
    | some last =>
      obtain ⟨key, sign, value, rest, assigned, _⟩ := find_assigned found
      exact absurd assigned (absent key sign value rest)

theorem assignment_solid : assignment.Solid words.word := by
  intro place last takes
  obtain ⟨key, sign, value, rest, read, _, isKey, _, _, _, rfl⟩ := takes_assignment.mp takes
  obtain ⟨c, key, rfl, _⟩ := key_head isKey
  refine ⟨(c :: key) ++ (sign ++ value), List.cons_ne_nil _ _, ?_, rfl⟩
  rw [read, List.append_assoc, List.append_assoc]

section Written

variable (words sha256)

/-- A name and a sign at the end of a text, with a value that goes on to its end. -/
def OpenHere (before : Option Char) (gap : List Char) : Prop :=
  ∃ key sign value, gap = key ++ (sign ++ value) ∧ edge words.word before gap.head? = true ∧
    keyName.Accepts key ∧ assigns.Accepts sign ∧ ∀ c ∈ value, valueChar c = true

def Opened (before : Option Char) (gap : List Char) : Prop :=
  ∃ front back, gap = front ++ back ∧ OpenHere words (behind before front) back

/-- What the pass writes in place of an assignment, and what follows. -/
structure Written (before : Option Char) (text key value rest : List Char) : Prop where
  read : text = key ++ '=' :: (marker sha256 value ++ rest)
  starts : edge words.word before text.head? = true
  key : keyName.Accepts key
  stops : ∀ c, rest.head? = some c → valueChar c = false

/-- The last pass, from a place on. -/
def putIn (before : Option Char) (text : List Char) : List Char :=
  assemble (putAssignment sha256) (assignment.scan words.word before 0 text)

end Written

theorem opened_cons :
    Opened words before (c :: gap) ↔ OpenHere words before (c :: gap) ∨ Opened words (some c) gap := by
  constructor
  · rintro ⟨front, back, read, here⟩
    cases front with
    | nil =>
      obtain rfl : c :: gap = back := read
      exact .inl here
    | cons d front =>
      obtain ⟨rfl, rfl⟩ := List.cons.inj (read.trans List.cons_append)
      exact .inr ⟨front, back, rfl, here⟩
  · rintro (here | ⟨front, back, rfl, here⟩)
    · exact ⟨[], c :: gap, rfl, here⟩
    · exact ⟨c :: front, back, rfl, here⟩

theorem openHere_head (here : OpenHere words before gap) :
    ∃ c rest, gap = c :: rest ∧ valueChar c = true := by
  obtain ⟨key, sign, value, rfl, _, isKey, _, _⟩ := here
  have chars := key_value isKey
  obtain ⟨c, key, rfl, _⟩ := key_head isKey
  exact ⟨c, _, rfl, chars c List.mem_cons_self⟩

theorem opened_nil : ¬ Opened words before [] := by
  rintro ⟨front, back, read, here⟩
  obtain ⟨rfl, rfl⟩ := List.append_eq_nil_iff.mp read.symm
  obtain ⟨c, rest, impossible, _⟩ := openHere_head here
  cases impossible

theorem assigned_open (written : Written words sha256 before text key value rest)
    (read : gap = key' ++ (sign' ++ value')) (starts : edge words.word other gap.head? = true)
    (isKey : keyName.Accepts key') (isSign : assigns.Accepts sign')
    (chars : ∀ c ∈ value', valueChar c = true) :
    Assigned words other (gap ++ text) key' sign' (value' ++ (key ++ '=' :: marker sha256 value))
      rest where
  read := by simp [read, written.read]
  starts := by
    obtain ⟨c, more, rfl, _⟩ := key_head isKey
    rw [read] at starts ⊢
    exact starts
  key := isKey
  sign := isSign
  long := by
    have long := @marker_long sha256 value
    simp only [List.length_append, List.length_cons]
    omega
  chars := by
    intro c mem
    simp only [List.mem_append, List.mem_cons] at mem
    obtain inside | named | rfl | marked := mem
    · exact chars c inside
    · exact key_value written.key c named
    · decide
    · exact marker_value value c marked
  stops := written.stops

theorem sign_bare {sign : List Char} (accepts : assigns.Accepts sign) :
    ∀ d ∈ sign, words.word d = false := by
  obtain ⟨left, c, right, rfl, leftSpace, isSign, rightSpace⟩ := assigns_iff.mp accepts
  intro d mem
  simp only [List.mem_append, List.mem_cons] at mem
  obtain before | rfl | after := mem
  · exact words.space d (leftSpace d before)
  · obtain rfl | rfl := isSign
    · exact word_sign ':' (by decide)
    · exact word_sign '=' (by decide)
  · exact words.space d (rightSpace d after)

/-- A name and its sign that start in a gap do not go on into the name after it. -/
theorem key_apart {after : List Char} {d : Char} (nonempty : gap ≠ []) (isKey : keyName.Accepts key)
    (isSign : assigns.Accepts sign) (listed : fold d ∈ ['p', 'a', 's'])
    (starts : edge words.word (behind before gap) (some d) = true) :
    key ++ sign ≠ gap ++ d :: after := by
  intro longer
  have absent : d ∉ sign := by
    intro mem
    have letter := @fold_word words d (head_lower _ listed)
    rw [sign_bare isSign d mem] at letter
    cases letter
  obtain ⟨more, _, signed⟩ | ⟨more, inKey, signed⟩ := List.append_eq_append_iff.mp longer
  · exact absent (by rw [signed]; simp)
  · cases more with
    | nil => exact absent (by rw [List.nil_append] at signed; rw [← signed]; simp)
    | cons e more =>
      obtain ⟨rfl, _⟩ := List.cons.inj signed
      exact key_inner isKey inKey nonempty rfl starts listed

theorem open_assigned
    (absent : ∀ key sign value rest, ¬ Assigned words before (c :: gap ++ follow) key sign value rest)
    (same : edge words.word other (some c) = true → edge words.word before (some c) = true)
    (written : Written words sha256 (behind (some c) gap) text key value rest)
    (assigned : Assigned words other (c :: gap ++ text) key' sign' value' rest') :
    ∃ value, c :: gap = key' ++ (sign' ++ value) ∧ ∀ c ∈ value, valueChar c = true := by
  obtain ⟨d, key, rfl, listed⟩ := key_head written.key
  have head : text = d :: (key ++ '=' :: (marker sha256 value ++ rest)) := written.read
  have starts : edge words.word (behind none (c :: gap)) (some d) = true := by
    have starts := written.starts
    rw [head] at starts
    exact starts
  have whole : (c :: gap) ++ text = (key' ++ sign') ++ (value' ++ rest') := by
    rw [assigned.read, List.append_assoc]
  obtain ⟨after, longer, further⟩ | ⟨after, shorter, further⟩ := List.append_eq_append_iff.mp whole
  · cases after with
    | nil =>
      refine ⟨[], ?_, by simp⟩
      rw [List.append_nil]
      exact (longer.trans (List.append_nil _)).symm
    | cons e after =>
      rw [head] at further
      obtain ⟨rfl, _⟩ := List.cons.inj further
      exact absurd longer
        (key_apart (List.cons_ne_nil c gap) assigned.key assigned.sign listed starts)
  · rw [List.append_assoc] at shorter
    obtain ⟨more, ends, reached⟩ | ⟨more, ends, _⟩ := List.append_eq_append_iff.mp further
    · cases more with
      | nil =>
        rw [List.append_nil] at ends
        exact ⟨after, shorter, fun c mem => assigned.chars c (ends ▸ mem)⟩
      | cons e more =>
        refine absurd ?_ (absent key' sign' value' (e :: more ++ follow))
        refine ⟨?_, same assigned.starts, assigned.key, assigned.sign, assigned.long, assigned.chars,
          ?_⟩
        · rw [shorter, ends]
          simp
        · intro c first
          refine assigned.stops c ?_
          rw [reached]
          exact first
    · refine ⟨after, shorter, fun c mem => assigned.chars c ?_⟩
      rw [ends]
      exact List.mem_append_left _ mem

/-- The two neighbours at which a text is continued are the same, or no assignment starts there. -/
def Joined (before other : Option Char) (text : List Char) : Prop :=
  other = before ∨ ∀ c, text.head? = some c → valueChar c = false

theorem assigned_joined (joined : Joined before other text)
    (assigned : Assigned words other text key sign value rest) : other = before := by
  refine joined.resolve_right (fun stopped => ?_)
  have chars := key_value assigned.key
  obtain ⟨c, more, rfl, _⟩ := key_head assigned.key
  have barred := stopped c (by rw [assigned.read]; rfl)
  rw [chars c List.mem_cons_self] at barred
  cases barred

theorem putIn_keep
    (absent : ∀ key sign value rest', ¬ Assigned words before (c :: rest) key sign value rest') :
    putIn words sha256 before (c :: rest) = c :: putIn words sha256 (some c) rest := by
  rw [putIn, scan_keep (find_absent.mpr absent), assemble_keep _ _ (fun _ _ => rfl)]
  rfl

theorem putIn_assigned (assigned : Assigned words before text key sign value rest) :
    putIn words sha256 before text = key ++ '=' :: (marker sha256 value ++
      putIn words sha256 (behind before (key ++ (sign ++ value))) rest) := by
  have found := assigned_find assigned
  have read : text = (key ++ (sign ++ value)) ++ rest := by
    rw [assigned.read, List.append_assoc, List.append_assoc]
  have nonempty : key ++ (sign ++ value) ≠ [] := by
    obtain ⟨c, more, rfl, _⟩ := key_head assigned.key
    exact List.cons_ne_nil _ _
  rw [read] at found ⊢
  rw [putIn, scan_take nonempty found, assemble_cons]
  change key ++ '=' :: marker sha256 value ++ _ = _
  rw [List.append_assoc]
  rfl

theorem putIn_head (stops : ∀ c, text.head? = some c → valueChar c = false) :
    (putIn words sha256 before text).head? = text.head? := by
  cases text with
  | nil => rfl
  | cons c text =>
    rw [putIn_keep]
    · rfl
    · intro key sign value rest assigned
      have chars := key_value assigned.key
      obtain ⟨d, more, rfl, _⟩ := key_head assigned.key
      obtain ⟨rfl, _⟩ := List.cons.inj assigned.read
      have barred := stops c rfl
      rw [chars c List.mem_cons_self] at barred
      cases barred

/-- Passing over a written assignment leaves it, if its marker is its own, and what follows. -/
theorem written_iff (written : Written words sha256 before text key value rest) :
    putIn words sha256 before text = text ↔ marker sha256 (marker sha256 value) = marker sha256 value ∧
      putIn words sha256 (behind before (key ++ (['='] ++ marker sha256 value))) rest = rest := by
  have assigned : Assigned words before text key ['='] (marker sha256 value) rest :=
    ⟨written.read, written.starts, written.key, assigns_iff.mpr ⟨[], '=', [], by simp⟩, marker_long value,
      marker_value value, written.stops⟩
  rw [putIn_assigned assigned]
  constructor
  · intro same
    have further := List.append_cancel_left (same.trans written.read)
    exact run_unique (List.cons.inj further).2 (marker_value _) (marker_value _)
      (fun c head => written.stops c ((putIn_head written.stops) ▸ head)) written.stops
  · rintro ⟨marks, same⟩
    rw [marks, same]
    exact written.read.symm

theorem gap_iff (quiet : assignment.Quiet words.word before gap follow)
    (joined : Joined before other (gap ++ text))
    (written : Written words sha256 (behind before gap) text key value rest) :
    putIn words sha256 other (gap ++ text) = gap ++ text ↔
      ¬ Opened words before gap ∧ putIn words sha256 (behind other gap) text = text := by
  induction gap generalizing before other with
  | nil => exact (and_iff_right opened_nil).symm
  | cons c gap ih =>
    by_cases here : ∃ key sign value rest, Assigned words other (c :: gap ++ text) key sign value rest
    · obtain ⟨key', sign', value', rest', assigned⟩ := here
      obtain rfl := assigned_joined joined assigned
      obtain ⟨value₀, opens, chars⟩ :=
        open_assigned (find_absent.mp quiet.1) id written assigned
      constructor
      · intro same
        exfalso
        have again := assigned_open written opens assigned.starts assigned.key assigned.sign chars
        obtain ⟨_, _, rfl, rfl⟩ := assigned_unique assigned again
        rw [putIn_assigned assigned] at same
        have further := List.append_cancel_left (same.trans assigned.read)
        have sign : assigns.Accepts ['='] := assigns_iff.mpr ⟨[], '=', [], by simp⟩
        obtain ⟨_, values⟩ := sign_unique sign assigned.sign
          (value_solid (marker_long _) (marker_value _)) (value_solid assigned.long assigned.chars)
          further
        obtain ⟨own, _⟩ := run_unique values (marker_value _) assigned.chars
          (fun c head => written.stops c ((putIn_head written.stops) ▸ head)) written.stops
        refine @marker_sign sha256 (value₀ ++ (key ++ '=' :: marker sha256 value)) ?_
        rw [own]
        simp
      · rintro ⟨closed, _⟩
        exact absurd ⟨[], _, rfl, key', sign', value₀, opens, assigned.starts, assigned.key,
          assigned.sign, chars⟩ closed
    · have absent : ∀ key sign value rest,
          ¬ Assigned words other (c :: (gap ++ text)) key sign value rest :=
        fun key sign value rest assigned => here ⟨key, sign, value, rest, assigned⟩
      have closed : ¬ OpenHere words before (c :: gap) := by
        intro opened
        obtain rfl | stopped := joined
        · obtain ⟨key', sign', value', opens, starts, isKey, isSign, chars⟩ := opened
          exact here ⟨_, _, _, _, assigned_open written opens starts isKey isSign chars⟩
        · obtain ⟨d, more, read, char⟩ := openHere_head opened
          obtain ⟨rfl, _⟩ := List.cons.inj read
          rw [stopped c rfl] at char
          cases char
      rw [List.cons_append, putIn_keep absent, List.cons_inj_right, ih quiet.2 (.inl rfl) written,
        opened_cons]
      simp only [closed, false_or]
      rfl

/-- Where a gap starts with a character that no value contains, what stands before it is no matter. -/
theorem opened_none (stops : ∀ c, gap.head? = some c → valueChar c = false) :
    Opened words before gap ↔ Opened words none gap := by
  cases gap with
  | nil => exact iff_of_false opened_nil opened_nil
  | cons c gap =>
    have closed : ∀ before, ¬ OpenHere words before (c :: gap) := by
      intro before opened
      obtain ⟨d, more, read, char⟩ := openHere_head opened
      obtain ⟨rfl, _⟩ := List.cons.inj read
      rw [stops c rfl] at char
      cases char
    rw [opened_cons, opened_cons]
    simp only [closed]

theorem putIn_quiet (quiet : assignment.Quiet words.word before text [])
    (joined : Joined before other text) : putIn words sha256 other text = text := by
  induction text generalizing before other with
  | nil => rfl
  | cons c text ih =>
    have absent := find_absent.mp quiet.1
    rw [List.append_nil] at absent
    rw [putIn_keep, ih quiet.2 (.inl rfl)]
    intro key sign value rest assigned
    obtain rfl := assigned_joined joined assigned
    exact absent key sign value rest assigned

/-- A match whose marker is its own, after a gap that does not end in an open assignment. -/
def Settled (words : Words) (sha256 : Bytes → Bytes) (found : Found Char) : Prop :=
  marker sha256 (marker sha256 (groupOf found 2)) = marker sha256 (groupOf found 2) ∧
    ¬ Opened words none found.gap

theorem written_other (joined : Joined before other (gap ++ text))
    (written : Written words sha256 (behind before gap) text key value rest) :
    Written words sha256 (behind other gap) text key value rest := by
  refine ⟨written.read, ?_, written.key, written.stops⟩
  cases gap with
  | cons c gap => exact written.starts
  | nil =>
    obtain rfl | stopped := joined
    · exact written.starts
    · have chars := key_value written.key
      obtain ⟨c, more, rfl, _⟩ := key_head written.key
      have barred := stopped c (by rw [written.read]; rfl)
      rw [chars c List.mem_cons_self] at barred
      cases barred

/-- A written text starts as the text did, if no value contains that character. -/
theorem assembled_head (scanned : Scanned words.word assignment before text parts)
    (stops : ∀ c, text.head? = some c → valueChar c = false) :
    (assemble (putAssignment sha256) parts).head? = text.head? := by
  cases scanned with
  | done => rfl
  | keep none more =>
    rw [assemble_keep _ _ (fun _ _ => rfl)]
    rfl
  | take nonempty found more =>
    obtain ⟨key, sign, value, rest, assigned, _⟩ := find_assigned found
    have chars := key_value assigned.key
    obtain ⟨c, more, rfl, _⟩ := key_head assigned.key
    have barred := stops c (by rw [assigned.read]; rfl)
    rw [chars c List.mem_cons_self] at barred
    cases barred

theorem again_iff {founds : List (Found Char)} {tail : List Char}
    (scanned : Scanned words.word assignment before text (founds, tail))
    (start : before = none ∧ other = none ∨ ∀ c, text.head? = some c → valueChar c = false) :
    putIn words sha256 other (assemble (putAssignment sha256) (founds, tail)) =
        assemble (putAssignment sha256) (founds, tail) ↔
      ∀ found ∈ founds, Settled words sha256 found := by
  induction founds generalizing before other text with
  | nil =>
    obtain ⟨rfl, quiet⟩ := scanned_tail scanned
    have joined : Joined before other text := start.imp (fun both => both.2.trans both.1.symm) id
    exact iff_of_true (putIn_quiet quiet joined) (by simp)
  | cons found more ih =>
    obtain ⟨gap, run, groups⟩ := found
    obtain ⟨rest, rfl, quiet, matched, further⟩ := scanned_first scanned
    obtain ⟨key, sign, value, rest', assigned, same⟩ := find_assigned matched
    obtain ⟨_, rfl, rfl⟩ := Place.mk.inj same
    have stops : ∀ c, (assemble (putAssignment sha256) (more, tail)).head? = some c →
        valueChar c = false :=
      fun c head => assigned.stops c ((assembled_head further assigned.stops) ▸ head)
    have written_text : assemble (putAssignment sha256) (⟨gap, run, [key, value]⟩ :: more, tail) =
        gap ++ (key ++ '=' :: (marker sha256 value ++
          assemble (putAssignment sha256) (more, tail))) := by
      rw [assemble_cons]
      change gap ++ (key ++ '=' :: marker sha256 value) ++ _ = _
      rw [List.append_assoc, List.append_assoc, List.cons_append]
    have heads : (key ++ '=' :: (marker sha256 value ++
        assemble (putAssignment sha256) (more, tail))).head? = (run ++ rest).head? := by
      obtain ⟨c, key, rfl, _⟩ := key_head assigned.key
      rw [assigned.read]
      rfl
    have written : Written words sha256 (behind before gap) _ key value
        (assemble (putAssignment sha256) (more, tail)) :=
      ⟨rfl, heads ▸ assigned.starts, assigned.key, stops⟩
    have joined : Joined before other (gap ++ (key ++ '=' :: (marker sha256 value ++
        assemble (putAssignment sha256) (more, tail)))) := by
      refine start.imp (fun both => both.2.trans both.1.symm) (fun stopped c head => stopped c ?_)
      rw [List.head?_append] at head ⊢
      rw [← heads]
      exact head
    have opened : Opened words before gap ↔ Opened words none gap := by
      obtain ⟨rfl, _⟩ | stopped := start
      · rfl
      · refine opened_none (fun c head => stopped c ?_)
        rw [List.head?_append, head]
        rfl
    rw [written_text, gap_iff quiet joined written, written_iff (written_other joined written),
      ih further (.inr assigned.stops), List.forall_mem_cons, opened]
    exact ⟨fun both => ⟨⟨both.2.1, both.1⟩, both.2.2⟩, fun both => ⟨both.1.2, both.1.1, both.2⟩⟩

theorem marked_front {out : List Char} (free : Free words inner before (front ++ rest))
    (more : Marked words (fun before text => ¬ Here words inner before text) (behind before front)
      rest out) :
    Marked words (fun before text => ¬ Here words inner before text) before (front ++ rest)
      (front ++ out) := by
  induction front generalizing before with
  | nil => exact more
  | cons c front ih =>
    obtain ⟨absent, free⟩ := free_cons.mp free
    exact .keep absent (ih free more)

theorem stop_bare (stop : valueChar c = false) : words.word c = false := by
  cases space : isSpace c with
  | true => exact words.space c space
  | false =>
    have listed : c ∈ ['[', ']', '=', ':', ',', ';', '-'] := by
      by_contra other
      rw [valueChar_iff.mpr ⟨space, ?_, ?_⟩] at stop
      · cases stop
      · rintro rfl
        exact other (by simp)
      · rintro rfl
        exact other (by simp)
    exact word_sign c listed

theorem written_free (scanned : Scanned words.word assignment before text parts)
    (free : Free words inner before text) :
    Marked words (fun before text => ¬ Here words inner before text) before text
      (assemble (putAssignment sha256) parts) := by
  induction scanned with
  | done before => exact .done before
  | keep none more ih =>
    rw [assemble_keep _ _ (fun _ _ => rfl)]
    obtain ⟨absent, free⟩ := free_cons.mp free
    exact .keep absent (ih free)
  | @take before run rest groups parts nonempty found more ih =>
    obtain ⟨key, sign, value, rest', assigned, same⟩ := find_assigned found
    obtain ⟨_, rfl, rfl⟩ := Place.mk.inj same
    obtain rfl : run = key ++ (sign ++ value) := by
      refine List.append_cancel_right (assigned.read.trans ?_)
      rw [List.append_assoc, List.append_assoc]
    have later := ih (free_append free)
    have split : key ++ (sign ++ value) ++ rest = key ++ ((sign ++ value) ++ rest) :=
      List.append_assoc key (sign ++ value) rest
    have put : assemble (putAssignment sha256)
        (⟨[], key ++ (sign ++ value), [key, value]⟩ :: parts.1, parts.2) =
        key ++ (('=' :: marker sha256 value) ++ assemble (putAssignment sha256) parts) := by
      rw [assemble_cons]
      exact List.append_assoc key _ _
    rw [behind_append] at later
    rw [split] at free
    rw [put, split]
    have mark : Mark ('=' :: marker sha256 value) :=
      ⟨marker sha256 value, marker_bracketed value, .inr rfl⟩
    refine marked_front free (.mark ?_ mark ?_ ?_ later)
    · obtain ⟨left, c, right, rfl, _⟩ := assigns_iff.mp assigned.sign
      simp
    · obtain ⟨left, c, right, rfl, _⟩ := assigns_iff.mp assigned.sign
      have bare := @sign_bare words _ assigned.sign
      rw [edge, key_last words assigned.key before]
      cases left with
      | nil =>
        change (true != words.word c) = true
        rw [bare c (by simp)]
        rfl
      | cons d left =>
        change (true != words.word d) = true
        rw [bare d (by simp)]
        rfl
    · intro c head isWord
      rw [stop_bare (assigned.stops c head)] at isWord
      cases isWord

/-- The text with its tokens marked: the passes before the last. -/
def tokensMarked (words : Words) (sha256 : Bytes → Bytes) (text : List Char) : List Char :=
  marksOf words sha256 tokens text

theorem scrub_eq (text : List Char) :
    scrub words sha256 text = putIn words sha256 none (tokensMarked words sha256 text) := rfl

theorem putIn_free (token : Token words inner) (free : Free words inner none text) :
    Free words inner none (putIn words sha256 none text) :=
  marked_free token (written_free (scan_scanned assignment_solid none text) free)
    (fun _ _ absent => absent) (fun _ _ _ known => known)

theorem tokensMarked_free (words : Words) (sha256 : Bytes → Bytes) (text : List Char) :
    ∀ inner ∈ tokens, Free words inner none (tokensMarked words sha256 text) :=
  marksOf_clears tokens_token text

theorem scrub_free (free : ∀ inner ∈ tokens, Free words inner none text) :
    scrub words sha256 text = putIn words sha256 none text := by
  rw [scrub_eq, tokensMarked, marksOf_free tokens_token free]

theorem scrub_written {marked : List Char} (free : ∀ inner ∈ tokens, Free words inner none marked) :
    scrub words sha256 (putIn words sha256 none marked) =
      putIn words sha256 none (putIn words sha256 none marked) :=
  scrub_free (fun inner mem => putIn_free (tokens_token inner mem) (free inner mem))

theorem scrub_again_iff (text : List Char) :
    scrub words sha256 (scrub words sha256 text) = scrub words sha256 text ↔
      ∀ found ∈ assignment.finditer words.word (tokensMarked words sha256 text),
        Settled words sha256 found := by
  rw [scrub_eq text]
  have free := tokensMarked_free words sha256 text
  generalize tokensMarked words sha256 text = marked at free ⊢
  rw [scrub_written free]
  exact again_iff (scan_scanned assignment_solid none marked) (.inl ⟨rfl, rfl⟩)

/-- Scrubbing a scrubbed text changes nothing exactly where, with the tokens of the text marked, every
assignment found in it is settled. -/
theorem scrubbed_twice_iff (words : Words) (sha256 : Bytes → Bytes) (text : String) :
    scrubText words sha256 (scrubText words sha256 text) = scrubText words sha256 text ↔
      ∀ found ∈ assignment.finditer words.word (tokensMarked words sha256 text.toList),
        Settled words sha256 found := by
  rw [scrubText, scrubText, String.toList_ofList, String.ofList_inj]
  exact scrub_again_iff text.toList

def plainWord (c : Char) : Bool :=
  c.isAlphanum || c == '_' || c ∈ [dottedI, dotlessI, longS, kelvin]

theorem plainWord_ascii (c : Char) (small : c.toNat < 128) :
    plainWord c = (c.isAlphanum || c == '_') := by
  have large : ∀ d ∈ [dottedI, dotlessI, longS, kelvin], 128 ≤ d.toNat :=
    List.all_iff_forall_prop.mp (by decide)
  have absent : c ∉ [dottedI, dotlessI, longS, kelvin] :=
    fun mem => absurd (large c mem) (by omega)
  rw [plainWord, decide_eq_false absent, Bool.or_false]

theorem plainWord_cased : ∀ c ∈ [dottedI, dotlessI, longS, kelvin], plainWord c = true :=
  List.all_iff_forall_prop.mp (by decide)

theorem plainWord_space (c : Char) (space : isSpace c = true) : plainWord c = false := by
  have listed : ∀ d ∈ '_' :: [dottedI, dotlessI, longS, kelvin], c ≠ d := by
    have solid : ∀ d ∈ '_' :: [dottedI, dotlessI, longS, kelvin], isSpace d = false :=
      List.all_iff_forall_prop.mp (by decide)
    rintro d mem rfl
    rw [solid c mem] at space
    cases space
  obtain ⟨underscore, cased⟩ := List.forall_mem_cons.mp listed
  have absent : c ∉ [dottedI, dotlessI, longS, kelvin] := fun mem => cased c mem rfl
  have alphanum : c.isAlphanum = false := by
    cases alphanum : c.isAlphanum with
    | false => rfl
    | true =>
      have ranges := isAlphanum_iff.mp alphanum
      rw [isSpace, decide_eq_true_eq] at space
      omega
  rw [plainWord, alphanum, beq_false_of_ne underscore, decide_eq_false absent]
  rfl

def plainWords : Words := ⟨plainWord, plainWord_ascii, plainWord_cased, plainWord_space⟩

/-- The digests of the password and of the marker put in its place. -/
def digests (bytes : Bytes) : Bytes :=
  if bytes = utf8 "hunter-hunter-123" then
    [54, 146, 250, 224, 113, 1, 154, 0, 91, 139, 93, 185, 16, 190, 50, 199, 173, 227, 128,
      76, 53, 229, 124, 75, 236, 241, 127, 132, 32, 23, 157, 131]
  else
    [253, 181, 200, 78, 71, 6, 70, 199, 29, 55, 185, 94, 20, 214, 130, 86, 183, 60, 188, 144,
      134, 183, 235, 44, 222, 197, 253, 71, 1, 163, 184, 117]

theorem password_marked_again :
    scrubText plainWords digests "password=hunter-hunter-123" =
        "password=[REDACTED:3692fae071019a00:17]" ∧
      scrubText plainWords digests (scrubText plainWords digests "password=hunter-hunter-123") ≠
        scrubText plainWords digests "password=hunter-hunter-123" := by
  have once : scrubText plainWords digests "password=hunter-hunter-123" =
      "password=[REDACTED:3692fae071019a00:17]" := by decide +kernel
  rw [once]
  decide +kernel

end Meemee.Guarantees.ScrubMarkers
