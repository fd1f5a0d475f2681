import Meemee.Source.DeviceProtocol
import Meemee.Source.JsonLoads

/-!
# Written values are loaded back

`json.loads` reads what `json.dumps` writes, whatever the separators and the escapes: strings
character by character, numbers as far as their characters go, arrays and objects by induction
on the value.
-/
namespace Meemee.Guarantees.JsonLoading
open Source Source.Json Source.JsonLoads List
open Source.DeviceProtocol (escapeControl quoteControl compactText compactItems compactFields)

/-- A text that is not empty and begins with another character. -/
def Opens (close : Char) (text : List Char) : Prop := ∃ c rest, text = c :: rest ∧ c ≠ close

/-- Each character's escape is read back, and begins with no quote. -/
structure Unescaped (escape : Char → List Char) : Prop where
  reads : ∀ c rest, readChar (escape c ++ rest) = some (c, rest)
  opens : ∀ c, Opens '"' (escape c)

theorem hexValue_hexDigit : ∀ n < 16, hexValue (hexDigit n) = some n := by decide

variable {n : Nat} {c d : Char} {text tail rest : List Char} {v : Json}
  {fields : List (String × Json)}

/-- What may follow a value. -/
def Stop (rest : List Char) : Prop := ∀ c ∈ rest.head?, c = ',' ∨ c = ']' ∨ c = '\x7d'

theorem stop_comma (s : List Char) : Stop (',' :: s) := by simp [Stop]

theorem stop_bracket (s : List Char) : Stop (']' :: s) := by simp [Stop]

theorem stop_brace (s : List Char) : Stop ('\x7d' :: s) := by simp [Stop]

def intChars : Int → List Char
  | .ofNat n => Nat.toDigits 10 n
  | .negSucc n => '-' :: Nat.toDigits 10 (n + 1)

theorem toList_toString (n : Int) : (toString n).toList = intChars n := by
  cases n with
  | ofNat n => exact Nat.toList_repr
  | negSucc n =>
    have text : toString (Int.negSucc n) = "-" ++ (n + 1).repr := rfl
    rw [text, String.toList_append, Nat.toList_repr]
    rfl

def floatChars : JsonFloat → List Char
  | .finite repr => repr.toList
  | .nan => "NaN".toList
  | .infinity negative => if negative then "-Infinity".toList else "Infinity".toList

theorem digits_alone {digits : List Char} (all : ∀ c ∈ digits, c.isDigit = true) :
    digits.takeWhile Char.isDigit = digits ∧ digits.dropWhile Char.isDigit = [] := by
  have taken : (digits ++ []).takeWhile Char.isDigit = _ := List.takeWhile_append_of_pos all
  have dropped : (digits ++ []).dropWhile Char.isDigit = _ := List.dropWhile_append_of_pos all
  simp only [List.append_nil, List.takeWhile_nil] at taken dropped
  exact ⟨taken, dropped⟩

theorem digit_of_digits (mem : c ∈ Nat.toDigits 10 n) : c.isDigit = true :=
  Nat.isDigit_of_mem_toDigits (by decide) (by decide) mem

theorem codeUnit_digits (small : n < 65536) (rest : List Char) :
    codeUnit (hexDigit (n / 4096 % 16) :: hexDigit (n / 256 % 16) :: hexDigit (n / 16 % 16) ::
      hexDigit (n % 16) :: rest) = some (n, rest) := by
  have value : ((n / 4096 % 16 * 16 + n / 256 % 16) * 16 + n / 16 % 16) * 16 + n % 16 = n := by omega
  simp only [codeUnit, hexValue_hexDigit _ (Nat.mod_lt _ (by decide : 0 < 16)), Option.bind_eq_bind,
    Option.bind_some, value]
  rfl

theorem readChar_basic (small : c.toNat < 65536) (rest : List Char) :
    readChar (unicodeEscape c.toNat ++ rest) = some (c, rest) := by
  have valid : c.toNat < 55296 ∨ 57343 < c.toNat ∧ c.toNat < 1114112 := c.valid
  have notLow : ¬ (56320 ≤ c.toNat ∧ c.toNat < 57344) := by omega
  have notHigh : ¬ (55296 ≤ c.toNat ∧ c.toNat < 56320) := by omega
  simp only [unicodeEscape, List.cons_append, List.nil_append, readChar, if_true, readUnicode,
    codeUnit_digits small, Option.bind_eq_bind, Option.bind_some, if_neg notLow, if_neg notHigh,
    Char.ofNat_toNat, Option.pure_def]

theorem readChar_surrogates {high low : Nat} (first : 55296 ≤ high ∧ high < 56320)
    (second : 56320 ≤ low ∧ low < 57344) (rest : List Char) :
    readChar (unicodeEscape high ++ unicodeEscape low ++ rest) =
      some (Char.ofNat (65536 + (high - 55296) * 1024 + (low - 56320)), rest) := by
  have highSmall : high < 65536 := by omega
  have lowSmall : low < 65536 := by omega
  have notLow : ¬ (56320 ≤ high ∧ high < 57344) := by omega
  simp only [unicodeEscape, List.cons_append, List.nil_append, readChar, if_true, readUnicode,
    codeUnit_digits highSmall, codeUnit_digits lowSmall, Option.bind_eq_bind, Option.bind_some,
    if_neg notLow, if_pos first, if_pos second, Option.pure_def]

theorem readChar_pair (large : ¬ c.toNat < 65536) (rest : List Char) :
    readChar (unicodeEscape (55296 + (c.toNat - 65536) / 1024) ++
      unicodeEscape (56320 + (c.toNat - 65536) % 1024) ++ rest) = some (c, rest) := by
  have valid : c.toNat < 55296 ∨ 57343 < c.toNat ∧ c.toNat < 1114112 := c.valid
  have together : 65536 + (55296 + (c.toNat - 65536) / 1024 - 55296) * 1024 +
      (56320 + (c.toNat - 65536) % 1024 - 56320) = c.toNat := by omega
  rw [readChar_surrogates (by omega) (by omega), together, Char.ofNat_toNat]

theorem readChar_short (other : c ≠ 'u') (found : backslash.lookup c = some d) (rest : List Char) :
    readChar ('\\' :: c :: rest) = some (d, rest) := by
  simp only [readChar, if_true, if_neg other, found, Option.map_some]

theorem readChar_plain (other : c ≠ '\\') (printed : ¬ c.toNat < 32) (rest : List Char) :
    readChar (c :: rest) = some (c, rest) := by
  simp only [readChar, if_neg other, if_neg printed]

theorem readChar_ofNat (here : c.toNat = n) (other : d ≠ 'u')
    (found : backslash.lookup d = some (Char.ofNat n)) (rest : List Char) :
    readChar ('\\' :: d :: rest) = some (c, rest) := by
  have same : c = Char.ofNat n := by rw [← here, Char.ofNat_toNat]
  rw [same]
  exact readChar_short other found rest

theorem escapeChar_reads (c : Char) (rest : List Char) :
    readChar (escapeChar c ++ rest) = some (c, rest) := by
  unfold escapeChar
  split
  next here => subst here; exact readChar_short (by decide) (by decide) rest
  split
  next here => subst here; exact readChar_short (by decide) (by decide) rest
  split
  next here => subst here; exact readChar_short (by decide) (by decide) rest
  split
  next here => subst here; exact readChar_short (by decide) (by decide) rest
  split
  next here => subst here; exact readChar_short (by decide) (by decide) rest
  split
  next here => exact readChar_ofNat here (by decide) (by decide) rest
  split
  next here => exact readChar_ofNat here (by decide) (by decide) rest
  split
  next notSlash _ _ _ _ _ printed => exact readChar_plain notSlash (by omega) rest
  split
  next small => exact readChar_basic small rest
  next large => exact readChar_pair large rest

theorem escapeControl_reads (c : Char) (rest : List Char) :
    readChar (escapeControl c ++ rest) = some (c, rest) := by
  unfold escapeControl
  split
  next here => subst here; exact readChar_short (by decide) (by decide) rest
  split
  next here => subst here; exact readChar_short (by decide) (by decide) rest
  split
  next here => subst here; exact readChar_short (by decide) (by decide) rest
  split
  next here => subst here; exact readChar_short (by decide) (by decide) rest
  split
  next here => subst here; exact readChar_short (by decide) (by decide) rest
  split
  next here => exact readChar_ofNat here (by decide) (by decide) rest
  split
  next here => exact readChar_ofNat here (by decide) (by decide) rest
  split
  next control => exact readChar_basic (by omega) rest
  next notSlash _ _ _ _ _ printed => exact readChar_plain notSlash printed rest

theorem escape_opens (c : Char) : Opens '"' (escapeChar c) := by
  unfold escapeChar
  split
  · exact ⟨'\\', _, rfl, by decide⟩
  next notQuote =>
    repeat' split
    all_goals first | exact ⟨'\\', _, rfl, by decide⟩ | exact ⟨c, _, rfl, notQuote⟩

theorem escapeControl_opens (c : Char) : Opens '"' (escapeControl c) := by
  unfold escapeControl
  split
  · exact ⟨'\\', _, rfl, by decide⟩
  next notQuote =>
    repeat' split
    all_goals first | exact ⟨'\\', _, rfl, by decide⟩ | exact ⟨c, _, rfl, notQuote⟩

theorem unescaped_ascii : Unescaped escapeChar := ⟨escapeChar_reads, escape_opens⟩

theorem unescaped_unicode : Unescaped escapeControl := ⟨escapeControl_reads, escapeControl_opens⟩

section Strings

variable {escape : Char → List Char} (unescaped : Unescaped escape)
include unescaped

theorem readChars_escaped (cs : List Char) (rest : List Char) : ∀ fuel,
    (cs.flatMap escape).length < fuel →
      readChars fuel (cs.flatMap escape ++ '"' :: rest) = some (cs, rest) := by
  induction cs with
  | nil =>
    intro fuel enough
    cases fuel with
    | zero => exact absurd enough (Nat.not_lt_zero _)
    | succ fuel => rfl
  | cons c cs ih =>
    intro fuel enough
    obtain ⟨first, others, begins, noQuote⟩ := unescaped.opens c
    rw [List.flatMap_cons, List.length_append] at enough
    have progress : 0 < (escape c).length := by rw [begins]; exact Nat.succ_pos _
    cases fuel with
    | zero => exact absurd enough (Nat.not_lt_zero _)
    | succ fuel =>
      rw [List.flatMap_cons, List.append_assoc]
      have unquoted : (escape c ++ (cs.flatMap escape ++ '"' :: rest)).head? ≠ some '"' := by
        rw [begins]
        exact fun same => noQuote (Option.some.inj same)
      simp only [readChars, if_neg unquoted, unescaped.reads, Option.bind_eq_bind, Option.bind_some,
        ih fuel (by omega)]
      rfl

theorem readString_escaped (s : String) (rest : List Char) :
    readString (s.toList.flatMap escape ++ '"' :: rest) = some (s, rest) := by
  have enough : (s.toList.flatMap escape).length <
      (s.toList.flatMap escape ++ '"' :: rest).length := by
    rw [List.length_append, List.length_cons]
    omega
  rw [readString, readChars_escaped unescaped s.toList rest _ enough, Option.map_some,
    String.ofList_toList]

end Strings

section Numbers

variable {rest : List Char} (stop : Stop rest)
include stop

theorem stop_head (head : rest.head? = some c) :
    c.isDigit = false ∧ c ≠ '.' ∧ ¬ (c = 'e' ∨ c = 'E') ∧ ¬ (c = '+' ∨ c = '-') := by
  rcases stop c head with here | here | here <;> (rw [here]; decide)

theorem takeWhile_stop (text : List Char) :
    (text ++ rest).takeWhile Char.isDigit = text.takeWhile Char.isDigit := by
  induction text with
  | nil =>
    cases rest with
    | nil => rfl
    | cons c rest => rw [List.nil_append, List.takeWhile_cons, (stop_head stop rfl).1]; rfl
  | cons c text ih => rw [List.cons_append, List.takeWhile_cons, List.takeWhile_cons, ih]

theorem dropWhile_stop (text : List Char) :
    (text ++ rest).dropWhile Char.isDigit = text.dropWhile Char.isDigit ++ rest := by
  induction text with
  | nil =>
    cases rest with
    | nil => rfl
    | cons c rest =>
      rw [List.nil_append, List.dropWhile_cons, (stop_head stop rfl).1]
      rfl
  | cons c text ih =>
    rw [List.cons_append, List.dropWhile_cons, List.dropWhile_cons, ih]
    split <;> rfl

theorem digitsAfter_stop (marks text tail : List Char) :
    digitsAfter marks (text ++ rest) (tail ++ rest) =
      ((digitsAfter marks text tail).1, (digitsAfter marks text tail).2 ++ rest) := by
  rw [digitsAfter, digitsAfter, takeWhile_stop stop, dropWhile_stop stop]
  split <;> rfl

theorem fractionPart_stop (text : List Char) :
    fractionPart (text ++ rest) = ((fractionPart text).1, (fractionPart text).2 ++ rest) := by
  cases text with
  | nil =>
    cases rest with
    | nil => rfl
    | cons c rest =>
      simp only [List.nil_append, fractionPart, if_neg (stop_head stop rfl).2.1]
  | cons c text =>
    simp only [List.cons_append, fractionPart]
    split
    · exact digitsAfter_stop stop ['.'] (c :: text) text
    · rfl

theorem exponentPart_stop (text : List Char) :
    exponentPart (text ++ rest) = ((exponentPart text).1, (exponentPart text).2 ++ rest) := by
  cases text with
  | nil =>
    cases rest with
    | nil => rfl
    | cons c rest =>
      simp only [List.nil_append, exponentPart, if_neg (stop_head stop rfl).2.2.1]
  | cons c text =>
    simp only [List.cons_append, exponentPart]
    split
    · cases text with
      | nil =>
        cases rest with
        | nil => rfl
        | cons d rest =>
          simp only [List.nil_append, if_neg (stop_head stop rfl).2.2.2]
          have none := digitsAfter_stop stop [c] [c] []
          simpa [digitsAfter] using none
      | cons d text =>
        simp only [List.cons_append]
        split
        · exact digitsAfter_stop stop [c, d] (c :: d :: text) text
        · exact digitsAfter_stop stop [c] (c :: d :: text) (d :: text)
    · rfl

theorem wholePart_stop {whole : List Char} (read : wholePart text = some (whole, tail)) :
    wholePart (text ++ rest) = some (whole, tail ++ rest) := by
  cases text with
  | nil => cases read
  | cons c text =>
    simp only [wholePart, List.cons_append] at read ⊢
    rw [takeWhile_stop stop, dropWhile_stop stop]
    split at read
    next zero =>
      cases read
      rw [if_pos zero]
    next other =>
      rw [if_neg other]
      split at read
      next digit =>
        cases read
        rw [if_pos digit]
      next => cases read

theorem readUnsigned_stop {sign : List Char} (read : readUnsigned sign text = some (v, tail)) :
    readUnsigned sign (text ++ rest) = some (v, tail ++ rest) := by
  unfold readUnsigned at read ⊢
  cases whole : wholePart text with
  | none => rw [whole] at read; cases read
  | some part =>
    rw [whole] at read
    rw [wholePart_stop stop whole]
    simp only [Option.bind_eq_bind, Option.bind_some] at read ⊢
    rw [fractionPart_stop stop, exponentPart_stop stop]
    split at read
    next here =>
      rw [if_pos here]
      cases read
      rfl
    next here =>
      rw [if_neg here]
      cases read
      rfl

theorem readNumber_stop (read : readNumber text = some (v, tail)) :
    readNumber (text ++ rest) = some (v, tail ++ rest) := by
  cases text with
  | nil => cases read
  | cons c text =>
    simp only [readNumber, List.cons_append] at read ⊢
    split at read
    next minus =>
      rw [if_pos minus]
      exact readUnsigned_stop stop read
    next other =>
      rw [if_neg other]
      exact readUnsigned_stop stop read

end Numbers

theorem toDigits_head (positive : 0 < n) : (Nat.toDigits 10 n).head? ≠ some '0' := by
  induction n using Nat.strongRecOn with
  | ind n ih =>
    by_cases small : n < 10
    · rw [Nat.toDigits_of_lt_base small]
      have noZero : ∀ k < 10, 0 < k → [Nat.digitChar k].head? ≠ some '0' := by decide
      exact noZero n small positive
    · rw [Nat.toDigits_of_base_le (by decide) (by omega),
        List.head?_append_of_ne_nil _ Nat.toDigits_ne_nil]
      exact ih (n / 10) (by omega) (by omega)

theorem all_digits (n : Nat) : ∀ c ∈ Nat.toDigits 10 n, c.isDigit = true :=
  fun _ mem => digit_of_digits mem

theorem wholePart_digits (n : Nat) : wholePart (Nat.toDigits 10 n) = some (Nat.toDigits 10 n, []) := by
  rcases Nat.eq_zero_or_pos n with rfl | positive
  · rfl
  · have digits := all_digits n
    have noZero := toDigits_head positive
    cases split : Nat.toDigits 10 n with
    | nil => exact absurd split Nat.toDigits_ne_nil
    | cons c cs =>
      rw [split] at digits noZero
      have other : c ≠ '0' := fun same => noZero (by rw [same]; rfl)
      have tail : ∀ d ∈ cs, d.isDigit = true := fun d mem =>
        digits d (List.mem_cons_of_mem _ mem)
      obtain ⟨taken, dropped⟩ := digits_alone tail
      simp only [wholePart, if_neg other, digits c List.mem_cons_self, if_true, taken, dropped]

theorem readUnsigned_digits (sign : List Char) (n : Nat) : readUnsigned sign (Nat.toDigits 10 n) =
    some (.int (if sign.isEmpty then n else -n), []) := by
  have value : Nat.ofDigitChars 10 (Nat.toDigits 10 n) 0 = n := Nat.ofDigitChars_ten_toDigits
  simp only [readUnsigned, wholePart_digits, Option.bind_eq_bind, Option.bind_some, fractionPart,
    exponentPart, List.isEmpty_nil, Bool.and_self, if_true, value, Option.pure_def]

theorem readNumber_int (n : Int) : readNumber (intChars n) = some (.int n, []) := by
  cases n with
  | negSucc n =>
    rw [intChars, readNumber, readUnsigned_digits]
    rfl
  | ofNat n =>
    have digits := all_digits n
    have read := readUnsigned_digits [] n
    rw [intChars]
    cases split : Nat.toDigits 10 n with
    | nil => exact absurd split Nat.toDigits_ne_nil
    | cons c cs =>
      rw [split] at digits read
      have positive : c ≠ '-' := by
        intro same
        have digit := digits c List.mem_cons_self
        rw [same] at digit
        exact absurd digit (by decide)
      rw [readNumber, if_neg positive, read]
      rfl

theorem wholePart_head {whole : List Char} (read : wholePart text = some (whole, tail)) :
    ∃ c more, text = c :: more ∧ c.isDigit = true := by
  cases text with
  | nil => cases read
  | cons c more =>
    refine ⟨c, more, rfl, ?_⟩
    simp only [wholePart] at read
    split at read
    next zero => rw [zero]; decide
    next =>
      split at read
      next digit => exact digit
      next => cases read

theorem readUnsigned_head {sign : List Char} (read : readUnsigned sign text = some (v, tail)) :
    ∃ c more, text = c :: more ∧ c.isDigit = true := by
  unfold readUnsigned at read
  cases whole : wholePart text with
  | none => rw [whole] at read; cases read
  | some part => exact wholePart_head whole

theorem not_prefix (other : c ≠ d) (name text : List Char) :
    List.isPrefixOf (c :: name) (d :: text) = false := by
  rw [List.isPrefixOf_cons_cons, beq_false_of_ne other, Bool.false_and]

theorem names_number (read : readNumber text = some (v, tail)) (rest : List Char) :
    names.find? (fun name => name.1.isPrefixOf (text ++ rest)) = none := by
  have others : ∀ {c : Char}, c.isDigit = true → 'n' ≠ c ∧ 't' ≠ c ∧ 'f' ≠ c ∧ 'N' ≠ c ∧ 'I' ≠ c ∧
      '-' ≠ c := by
    intro c digit
    refine ⟨?_, ?_, ?_, ?_, ?_, ?_⟩ <;> (rintro rfl; exact absurd digit (by decide))
  cases text with
  | nil => cases read
  | cons c text =>
    simp only [readNumber] at read
    split at read
    next minus =>
      obtain ⟨d, more, rfl, digit⟩ := readUnsigned_head read
      subst minus
      have infinite : List.isPrefixOf "-Infinity".toList ('-' :: d :: more ++ rest) = false := by
        change List.isPrefixOf ('-' :: 'I' :: _) ('-' :: d :: (more ++ rest)) = false
        rw [List.isPrefixOf_cons_cons, not_prefix (others digit).2.2.2.2.1, Bool.and_false]
      simp only [names, List.find?_cons, infinite]
      rfl
    next =>
      obtain ⟨d, more, same, digit⟩ := readUnsigned_head read
      obtain ⟨rfl, rfl⟩ := List.cons.inj same
      obtain ⟨n, t, f, nan, infinity, minus⟩ := others digit
      have none : ∀ name ∈ names, name.1.isPrefixOf (c :: text ++ rest) = false := by
        intro name mem
        simp only [names, List.mem_cons, List.not_mem_nil, or_false] at mem
        rcases mem with rfl | rfl | rfl | rfl | rfl | rfl
        · exact not_prefix n _ _
        · exact not_prefix t _ _
        · exact not_prefix f _ _
        · exact not_prefix nan _ _
        · exact not_prefix infinity _ _
        · exact not_prefix minus _ _
      rw [List.find?_eq_none]
      intro name mem
      rw [none name mem]
      exact Bool.false_ne_true

theorem readWord_number (read : readNumber text = some (v, [])) (stop : Stop rest) :
    readWord (text ++ rest) = some (v, rest) := by
  rw [readWord, names_number read]
  exact readNumber_stop stop read

/-- How an encoder writes: its escapes, and what it puts after commas and colons. -/
structure Style where
  escape : Char → List Char
  gap : List Char

structure Style.Readable (style : Style) : Prop where
  unescaped : Unescaped style.escape
  blank : ∀ c ∈ style.gap, blank c = true

mutual

/-- A value with a text that `json.loads` reads: each float is the text of one, and no two
fields of an object have one name. -/
def Loadable : Json → Prop
  | .float (.finite repr) => readNumber repr.toList = some (.float (.finite repr), [])
  | .arr items => LoadableItems items
  | .obj fields => (fields.map Prod.fst).Nodup ∧ LoadableFields fields
  | .object _ => False
  | _ => True

def LoadableItems : List Json → Prop
  | [] => True
  | item :: rest => Loadable item ∧ LoadableItems rest

def LoadableFields : List (String × Json) → Prop
  | [] => True
  | (_, value) :: rest => Loadable value ∧ LoadableFields rest

end

def Style.quoted (style : Style) (s : String) : List Char :=
  '"' :: (s.toList.flatMap style.escape ++ ['"'])

def Style.comma (style : Style) : List Char := ',' :: style.gap

def Style.colon (style : Style) : List Char := ':' :: style.gap

mutual

/-- The text of a value. -/
def Style.written (style : Style) : Json → List Char
  | .null => "null".toList
  | .bool value => if value then "true".toList else "false".toList
  | .int value => intChars value
  | .float value => floatChars value
  | .str value => style.quoted value
  | .arr items => '[' :: (style.comma.intercalate (style.writtenItems items) ++ [']'])
  | .obj fields => '\x7b' :: (style.comma.intercalate (style.writtenFields fields) ++ ['\x7d'])
  | .object _ => []

def Style.writtenItems (style : Style) : List Json → List (List Char)
  | [] => []
  | item :: rest => style.written item :: style.writtenItems rest

def Style.writtenFields (style : Style) : List (String × Json) → List (List Char)
  | [] => []
  | (name, value) :: rest =>
    (style.quoted name ++ style.colon ++ style.written value) :: style.writtenFields rest

end

/-- A character that begins a value: it is neither white space nor a closing bracket. -/
def Begins (c : Char) : Prop := blank c = false ∧ c ≠ ']'

theorem begins_digit (digit : c.isDigit = true) : Begins c := by
  constructor
  · by_contra white
    simp only [blank, List.mem_cons, List.not_mem_nil, or_false, decide_eq_false_iff_not,
      Decidable.not_not] at white
    rcases white with here | here | here | here <;> (rw [here] at digit; exact absurd digit (by decide))
  · rintro rfl
    exact absurd digit (by decide)

theorem readNumber_head (read : readNumber text = some (v, tail)) :
    ∃ c more, text = c :: more ∧ (c.isDigit = true ∨ c = '-') := by
  cases text with
  | nil => cases read
  | cons c text =>
    refine ⟨c, text, rfl, ?_⟩
    simp only [readNumber] at read
    split at read
    next minus => exact .inr minus
    next =>
      obtain ⟨d, more, same, digit⟩ := readUnsigned_head read
      obtain ⟨rfl, rfl⟩ := List.cons.inj same
      exact .inl digit

theorem skip_solid (solid : blank c = false) : skip (c :: text) = c :: text := by
  rw [skip, List.dropWhile_cons, solid, if_neg Bool.false_ne_true]

theorem skip_gap {gap : List Char} (white : ∀ c ∈ gap, blank c = true) (solid : blank c = false) :
    skip (gap ++ c :: text) = c :: text := by
  rw [skip, List.dropWhile_append_of_pos white]
  exact skip_solid solid

theorem readValue_number (read : readNumber text = some (v, [])) (stop : Stop rest) (fuel : Nat) :
    readValue (fuel + 1) (text ++ rest) = some (v, rest) := by
  have word := readWord_number read stop
  obtain ⟨c, more, rfl, first⟩ := readNumber_head read
  have others : c ≠ '"' ∧ c ≠ '[' ∧ c ≠ '\x7b' := by
    refine ⟨?_, ?_, ?_⟩ <;> (rintro rfl; rcases first with digit | minus <;> contradiction)
  rw [cons_append, readValue, if_neg others.1, if_neg others.2.1, if_neg others.2.2]
  exact word

section Written

variable {style : Style}

theorem written_begins : ∀ {v : Json}, Loadable v →
    ∃ c more, style.written v = c :: more ∧ Begins c
  | .null, _ => ⟨'n', _, rfl, by decide, by decide⟩
  | .bool true, _ => ⟨'t', _, rfl, by decide, by decide⟩
  | .bool false, _ => ⟨'f', _, rfl, by decide, by decide⟩
  | .int value, _ => by
    obtain ⟨c, more, text, first⟩ := readNumber_head (readNumber_int value)
    refine ⟨c, more, text, ?_⟩
    rcases first with digit | minus
    · exact begins_digit digit
    · rw [minus]
      exact ⟨by decide, by decide⟩
  | .float .nan, _ => ⟨'N', _, rfl, by decide, by decide⟩
  | .float (.infinity true), _ => ⟨'-', _, rfl, by decide, by decide⟩
  | .float (.infinity false), _ => ⟨'I', _, rfl, by decide, by decide⟩
  | .float (.finite repr), number => by
    obtain ⟨c, more, text, first⟩ := readNumber_head number
    refine ⟨c, more, text, ?_⟩
    rcases first with digit | minus
    · exact begins_digit digit
    · rw [minus]
      exact ⟨by decide, by decide⟩
  | .str value, _ => ⟨'"', _, rfl, by decide, by decide⟩
  | .arr items, _ => ⟨'[', _, rfl, by decide, by decide⟩
  | .obj fields, _ => ⟨'\x7b', _, rfl, by decide, by decide⟩
  | .object _, loadable => loadable.elim

theorem readValue_float {value : JsonFloat} (loadable : Loadable (.float value)) (stop : Stop rest)
    (fuel : Nat) : readValue (fuel + 1) (floatChars value ++ rest) = some (.float value, rest) := by
  cases value with
  | nan => rfl
  | infinity negative => cases negative <;> rfl
  | finite repr => exact readValue_number loadable stop fuel

end Written

theorem foldl_put {pairs : List (String × Json)} (distinct : ((fields ++ pairs).map Prod.fst).Nodup) :
    pairs.foldl put fields = fields ++ pairs := by
  induction pairs generalizing fields with
  | nil => rw [List.foldl_nil, List.append_nil]
  | cons pair rest ih =>
    have fresh : fields.any (fun f => decide (f.1 = pair.1)) = false := by
      rw [List.any_eq_false]
      intro f mem
      rw [decide_eq_true_eq]
      rw [List.map_append, List.nodup_append] at distinct
      exact distinct.2.2 f.1 (List.mem_map_of_mem mem) pair.1
        (List.mem_map_of_mem List.mem_cons_self)
    have moved : fields ++ pair :: rest = fields ++ [pair] ++ rest := by
      rw [List.append_assoc]
      rfl
    rw [List.foldl_cons, put, fresh, if_neg Bool.false_ne_true, moved, ih (by rwa [moved] at distinct)]

theorem dict_distinct (distinct : (fields.map Prod.fst).Nodup) :
    dict fields = fields := foldl_put distinct

theorem replaced_names (field : String × Json) (fields : List (String × Json)) :
    (fields.map (fun f => if f.1 = field.1 then field else f)).map Prod.fst = fields.map Prod.fst := by
  rw [List.map_map]
  refine List.map_congr_left (fun f _ => ?_)
  by_cases same : f.1 = field.1 <;> simp [same]

theorem put_names (field : String × Json) (distinct : (fields.map Prod.fst).Nodup) :
    ((put fields field).map Prod.fst).Nodup := by
  unfold put
  split
  next => rwa [replaced_names]
  next absent =>
    simp only [List.any_eq_true, decide_eq_true_eq, not_exists, not_and] at absent
    rw [List.map_append, List.nodup_append]
    refine ⟨distinct, List.nodup_singleton _, ?_⟩
    intro name mem other here
    obtain ⟨f, stored, rfl⟩ := List.mem_map.mp mem
    rw [List.mem_singleton.mp here]
    exact absent f stored

theorem mem_put {field f : String × Json} (mem : f ∈ put fields field) : f ∈ fields ∨ f = field := by
  unfold put at mem
  split at mem
  next =>
    obtain ⟨other, stored, rfl⟩ := List.mem_map.mp mem
    by_cases equal : other.1 = field.1
    · exact .inr (if_pos equal)
    · exact .inl (by rwa [if_neg equal])
  next => simpa using mem

theorem name_put {name : String} (field : String × Json) :
    name ∈ (put fields field).map Prod.fst ↔ name ∈ fields.map Prod.fst ∨ name = field.1 := by
  unfold put
  split
  next present =>
    simp only [List.any_eq_true, decide_eq_true_eq] at present
    obtain ⟨there, stored, equal⟩ := present
    rw [replaced_names]
    constructor
    · exact .inl
    · rintro (mem | rfl)
      · exact mem
      · exact List.mem_map.mpr ⟨there, stored, equal⟩
  next => simp

/-- What a dictionary built from pairs holds. -/
structure Built (fields pairs built : List (String × Json)) : Prop where
  names : (built.map Prod.fst).Nodup
  origin : ∀ f ∈ built, f ∈ fields ∨ f ∈ pairs
  covers : ∀ name, name ∈ built.map Prod.fst ↔
    name ∈ fields.map Prod.fst ∨ name ∈ pairs.map Prod.fst

theorem foldl_built (pairs : List (String × Json)) : ∀ fields, (fields.map Prod.fst).Nodup →
    Built fields pairs (pairs.foldl put fields) := by
  induction pairs with
  | nil => exact fun fields distinct => ⟨distinct, fun _ => .inl, fun name => by simp⟩
  | cons field rest ih =>
    intro fields distinct
    have built := ih (put fields field) (put_names field distinct)
    refine ⟨built.names, fun f mem => ?_, fun name => ?_⟩
    · rcases built.origin f mem with earlier | later
      · rcases mem_put earlier with stored | rfl
        · exact .inl stored
        · exact .inr List.mem_cons_self
      · exact .inr (List.mem_cons_of_mem _ later)
    · rw [List.foldl_cons, built.covers name, name_put, List.map_cons, List.mem_cons, or_assoc]

theorem continuation_closed {close : Char} (solid : blank close = false) (rest : List Char) :
    continuation close (close :: rest) = .closed rest := by
  rw [continuation, skip_solid solid]
  exact if_pos rfl

section Readable

variable {style : Style} (readable : style.Readable)
include readable

theorem continuation_more {close : Char} (other : ',' ≠ close) {c : Char} {text : List Char}
    (solid : blank c = false) : continuation close (style.comma ++ c :: text) = .more (c :: text) := by
  rw [Style.comma, List.cons_append, continuation, skip_solid (by decide)]
  simp only [if_neg other, if_true, skip_gap readable.blank solid]

theorem readString_quoted (s : String) (rest : List Char) :
    readString ((style.quoted s).tail ++ rest) = some (s, rest) := by
  rw [Style.quoted, List.tail_cons, List.append_assoc]
  exact readString_escaped readable.unescaped s rest

omit readable in
/-- After a field: the object closes, or goes on with others. -/
def afterField (fuel : Nat) (field : String × Json) :
    Continuation → Option (List (String × Json) × List Char)
  | .closed rest => some ([field], rest)
  | .more text => (readFields fuel text).map (fun read => (field :: read.1, read.2))
  | .bad => none

theorem readFields_field {fuel : Nat} (name : String) {value : Json} (loadable : Loadable value)
    (read : readValue fuel (style.written value ++ tail) = some (value, tail)) :
    readFields (fuel + 1) (style.quoted name ++ style.colon ++ style.written value ++ tail) =
      afterField fuel (name, value) (continuation '\x7d' tail) := by
  have named := readString_quoted readable name (style.colon ++ (style.written value ++ tail))
  obtain ⟨c, more, text, solid, -⟩ := @written_begins style _ loadable
  have colon : skip (style.colon ++ (style.written value ++ tail)) =
      style.colon ++ (style.written value ++ tail) := skip_solid (by decide)
  have valued : skip (style.colon ++ (style.written value ++ tail)).tail =
      style.written value ++ tail := by
    rw [text]
    exact skip_gap readable.blank solid
  have content : (style.quoted name ++ style.colon ++ style.written value ++ tail).tail =
      (style.quoted name).tail ++ (style.colon ++ (style.written value ++ tail)) := by
    simp [Style.quoted]
  have marked : (style.colon ++ (style.written value ++ tail)).head? = some ':' := rfl
  rw [readFields, content, named]
  simp only [Option.bind_eq_bind, Option.bind_some, colon, valued, read]
  cases continuation '\x7d' tail with
  | closed rest => rfl
  | bad => rfl
  | more text =>
    rw [afterField, Option.map_eq_bind]
    rfl

omit readable in
theorem items_begin {item : Json} (loadable : Loadable item) (items : List Json) (rest : List Char) :
    ∃ c more, style.comma.intercalate (style.writtenItems (item :: items)) ++ rest = c :: more ∧
      Begins c := by
  obtain ⟨c, more, text, begins⟩ := @written_begins style _ loadable
  cases items with
  | nil => exact ⟨c, more ++ rest, by simp [Style.writtenItems, text], begins⟩
  | cons next items =>
    exact ⟨c, _, by simp [Style.writtenItems, intercalate_cons_cons, text]; rfl, begins⟩

omit readable in
theorem fields_begin (field : String × Json) (fields : List (String × Json)) (rest : List Char) :
    ∃ more, style.comma.intercalate (style.writtenFields (field :: fields)) ++ rest = '"' :: more := by
  cases fields with
  | nil => exact ⟨_, by simp [Style.writtenFields, Style.quoted]; rfl⟩
  | cons next fields =>
    exact ⟨_, by simp [Style.writtenFields, List.intercalate_cons_cons, Style.quoted]; rfl⟩

mutual

/-- What is written of a value is read back, and the reading stops where the text does. -/
theorem value_loaded : ∀ v : Json, Loadable v → ∀ fuel rest, Stop rest →
    (style.written v).length ≤ fuel → readValue fuel (style.written v ++ rest) = some (v, rest)
  | v, loadable, 0, rest, _, enough => by
    obtain ⟨c, more, text, -⟩ := @written_begins style _ loadable
    rw [text] at enough
    exact absurd enough (Nat.not_succ_le_zero _)
  | .null, _, _ + 1, _, _, _ => rfl
  | .bool true, _, _ + 1, _, _, _ => rfl
  | .bool false, _, _ + 1, _, _, _ => rfl
  | .int value, _, fuel + 1, _, stop, _ => readValue_number (readNumber_int value) stop fuel
  | .float _, loadable, fuel + 1, _, stop, _ => readValue_float loadable stop fuel
  | .str value, _, fuel + 1, rest, _, _ => by
    change (readString ((style.quoted value).tail ++ rest)).map _ = _
    rw [readString_quoted readable]
    rfl
  | .arr items, loadable, fuel + 1, rest, _, enough => by
    have read := items_loaded items loadable fuel rest
    cases items with
    | nil => rfl
    | cons item others =>
      obtain ⟨c, more, text, solid, other⟩ := @items_begin style _ loadable.1 others
        (']' :: rest)
      have fits := read (List.cons_ne_nil _ _) (by simpa [Style.written] using enough)
      rw [Style.written, List.cons_append, List.append_assoc, List.singleton_append, text, readValue,
        if_neg (by decide), if_pos rfl, skip_solid solid, List.head?_cons,
        if_neg (fun same => other (Option.some.inj same)), ← text, fits]
      rfl
  | .obj fields, loadable, fuel + 1, rest, _, enough => by
    have read := fields_loaded fields loadable.2 fuel rest
    cases fields with
    | nil => rfl
    | cons field others =>
      obtain ⟨more, text⟩ := @fields_begin style field others ('\x7d' :: rest)
      have fits := read (List.cons_ne_nil _ _) (by simpa [Style.written] using enough)
      rw [Style.written, List.cons_append, List.append_assoc, List.singleton_append, text, readValue,
        if_neg (by decide), if_neg (by decide), if_pos rfl, skip_solid (by decide), List.head?_cons,
        if_neg (by decide), ← text, fits, Option.map_some, dict_distinct loadable.1]
  | .object _, loadable, _ + 1, _, _, _ => loadable.elim

theorem items_loaded : ∀ items : List Json, LoadableItems items → ∀ fuel rest, items ≠ [] →
    (style.comma.intercalate (style.writtenItems items)).length + 1 ≤ fuel →
      readItems fuel (style.comma.intercalate (style.writtenItems items) ++ ']' :: rest) =
        some (items, rest)
  | [], _, _, _, nonempty, _ => absurd rfl nonempty
  | _ :: _, _, 0, _, _, enough => absurd enough (Nat.not_succ_le_zero _)
  | item :: items, loadable, fuel + 1, rest, _, enough => by
    have later := items_loaded items loadable.2 fuel rest
    cases items with
    | nil =>
      have first := value_loaded item loadable.1 fuel (']' :: rest) (stop_bracket rest)
        (by simpa [Style.writtenItems] using enough)
      simp only [Style.writtenItems, List.intercalate_singleton, readItems, first,
        Option.bind_eq_bind, Option.bind_some,
        @continuation_closed ']' (by decide) rest, Option.pure_def]
    | cons next others =>
      obtain ⟨c, more, text, solid, -⟩ := @items_begin style _ loadable.2.1 others
        (']' :: rest)
      simp only [Style.writtenItems, List.intercalate_cons_cons, List.length_append] at enough
      have first := value_loaded item loadable.1 fuel (style.comma ++ c :: more)
        (stop_comma _) (by omega)
      have fits := later (List.cons_ne_nil _ _) (by
        simp only [Style.writtenItems, Style.comma, List.length_cons] at enough ⊢
        omega)
      rw [Style.writtenItems, Style.writtenItems, List.intercalate_cons_cons, List.append_assoc,
        List.append_assoc, ← Style.writtenItems, text, readItems]
      rw [text] at fits
      simp only [first, Option.bind_eq_bind, Option.bind_some,
        @continuation_more style readable ']' (by decide) _ _ solid, fits, Option.pure_def]

theorem fields_loaded : ∀ fields : List (String × Json), LoadableFields fields → ∀ fuel rest,
    fields ≠ [] → (style.comma.intercalate (style.writtenFields fields)).length + 1 ≤ fuel →
      readFields fuel (style.comma.intercalate (style.writtenFields fields) ++ '\x7d' :: rest) =
        some (fields, rest)
  | [], _, _, _, nonempty, _ => absurd rfl nonempty
  | _ :: _, _, 0, _, _, enough => absurd enough (Nat.not_succ_le_zero _)
  | (name, value) :: fields, loadable, fuel + 1, rest, _, enough => by
    have later := fields_loaded fields loadable.2 fuel rest
    cases fields with
    | nil =>
      have first := value_loaded value loadable.1 fuel ('\x7d' :: rest) (stop_brace rest) (by
        simp only [Style.writtenFields, List.intercalate_singleton, List.length_append,
          Style.quoted, List.length_cons] at enough
        omega)
      simp only [Style.writtenFields, List.intercalate_singleton]
      rw [readFields_field readable name loadable.1 first,
        @continuation_closed '\x7d' (by decide) rest]
      rfl
    | cons next others =>
      obtain ⟨more, text⟩ := @fields_begin style next others ('\x7d' :: rest)
      have first := value_loaded value loadable.1 fuel (style.comma ++ '"' :: more)
        (stop_comma _) (by
          simp only [Style.writtenFields, intercalate_cons_cons, length_append,
            Style.quoted, length_cons] at enough
          omega)
      have fits := later (cons_ne_nil _ _) (by
        simp only [Style.writtenFields, intercalate_cons_cons, length_append,
          Style.comma, Style.quoted, length_cons] at enough ⊢
        omega)
      rw [text] at fits
      rw [Style.writtenFields, Style.writtenFields, intercalate_cons_cons, append_assoc,
        append_assoc, ← Style.writtenFields, text, readFields_field readable name loadable.1 first,
        @continuation_more style readable '\x7d' (by decide) _ _ (by decide), afterField, fits]
      rfl

end

theorem loads_written (loadable : Loadable v) {text : String}
    (written : text.toList = style.written v) : loads text = some v := by
  obtain ⟨c, more, begins, solid, -⟩ := @written_begins style _ loadable
  have read := value_loaded readable v loadable (text.length + 1) [] nofun (by
    rw [← written]
    exact Nat.le_succ _)
  have start : skip text.toList = style.written v ++ [] := by
    rw [written, begins, append_nil, skip_solid solid]
  rw [loads, start, read]
  rfl

end Readable

/-- How `json.dumps` writes, with its escapes of everything but ASCII. -/
def styleOf (options : DumpOptions) : Style := ⟨escapeChar, if options.compact then [] else [' ']⟩

theorem styleOf_readable (options : DumpOptions) : (styleOf options).Readable := by
  refine ⟨unescaped_ascii, ?_⟩
  intro c mem
  unfold styleOf at mem
  split at mem
  · cases mem
  · rw [mem_singleton.mp mem]
    rfl

/-- How `json.dumps` writes with `ensure_ascii=False` and no spaces. -/
def compactStyle : Style := ⟨escapeControl, []⟩

theorem compactStyle_readable : compactStyle.Readable := ⟨unescaped_unicode, nofun⟩

theorem floatText_written {allowNan : Bool} {value : JsonFloat} {text : String}
    (encoded : floatText allowNan value = .ok text) : text.toList = floatChars value := by
  cases value with
  | finite repr => cases encoded; rfl
  | nan =>
    simp only [floatText] at encoded
    split at encoded <;> cases encoded
    rfl
  | infinity negative =>
    simp only [floatText] at encoded
    split at encoded <;> cases encoded
    cases negative <;> rfl

theorem bracketed (opening closing : Char) (comma : String) (texts : List String) :
    (String.singleton opening ++ comma.intercalate texts ++ String.singleton closing).toList =
      opening :: (comma.toList.intercalate (texts.map String.toList) ++ [closing]) := by
  simp [String.toList_intercalate]

theorem comma_written (options : DumpOptions) :
    (if options.compact then "," else ", ").toList = (styleOf options).comma := by
  cases spaces : options.compact <;> simp [Style.comma, styleOf, spaces]

theorem colon_written (options : DumpOptions) :
    (if options.compact then ":" else ": ").toList = (styleOf options).colon := by
  cases spaces : options.compact <;> simp [Style.colon, styleOf, spaces]

mutual

theorem encode_written (options : DumpOptions) : ∀ v text, Loadable v →
    encode options v = .ok text → text.toList = (styleOf options).written v
  | .null, _, _, encoded => by cases encoded; rfl
  | .bool true, _, _, encoded => by cases encoded; rfl
  | .bool false, _, _, encoded => by cases encoded; rfl
  | .int value, _, _, encoded => by cases encoded; exact toList_toString value
  | .float value, _, _, encoded => floatText_written encoded
  | .str value, _, _, encoded => by
    cases encoded
    exact String.toList_ofList
  | .arr items, text, loadable, encoded => by
    rw [encode] at encoded
    obtain ⟨texts, inner, done⟩ := Library.except_bind_returned encoded
    cases done
    have written := encodeItems_written options items texts loadable inner
    rw [Style.written, ← written]
    rw [← comma_written]
    exact bracketed '[' ']' _ texts
  | .obj fields, text, loadable, encoded => by
    rw [encode] at encoded
    obtain ⟨texts, inner, done⟩ := Library.except_bind_returned encoded
    cases done
    have written := encodeFields_written options fields texts loadable.2 inner
    rw [Style.written, ← written]
    rw [← comma_written]
    exact bracketed '\x7b' '\x7d' _ texts
  | .object _, _, loadable, _ => loadable.elim

theorem encodeItems_written (options : DumpOptions) : ∀ items texts, LoadableItems items →
    encodeItems options items = .ok texts →
      texts.map String.toList = (styleOf options).writtenItems items
  | [], _, _, encoded => by cases encoded; rfl
  | item :: rest, texts, loadable, encoded => by
    rw [encodeItems] at encoded
    obtain ⟨text, first, others⟩ := Library.except_bind_returned encoded
    obtain ⟨remaining, tail, done⟩ := Library.except_bind_returned others
    cases done
    rw [map_cons, encode_written options item text loadable.1 first,
      encodeItems_written options rest remaining loadable.2 tail, Style.writtenItems]

theorem encodeFields_written (options : DumpOptions) : ∀ fields texts, LoadableFields fields →
    encodeFields options fields = .ok texts →
      texts.map String.toList = (styleOf options).writtenFields fields
  | [], _, _, encoded => by cases encoded; rfl
  | (name, value) :: rest, texts, loadable, encoded => by
    rw [encodeFields] at encoded
    obtain ⟨text, first, others⟩ := Library.except_bind_returned encoded
    obtain ⟨remaining, tail, done⟩ := Library.except_bind_returned others
    cases done
    have written := encode_written options value text loadable.1 first
    have named : (quote name).toList = (styleOf options).quoted name := String.toList_ofList
    rw [map_cons, encodeFields_written options rest remaining loadable.2 tail,
      Style.writtenFields, String.toList_append, String.toList_append, colon_written, named, written]

end

theorem dumps_written {options : DumpOptions} {v : Json} (loadable : Loadable v) {text : String}
    (plain : options.sortKeys = false) (encoded : dumps options v = .ok text) :
    text.toList = (styleOf options).written v := by
  rw [dumps, plain] at encoded
  exact encode_written options v text loadable encoded

mutual

theorem compactText_written : ∀ v text, Loadable v → compactText v = .ok text →
    text.toList = compactStyle.written v
  | .null, _, _, encoded => by cases encoded; rfl
  | .bool true, _, _, encoded => by cases encoded; rfl
  | .bool false, _, _, encoded => by cases encoded; rfl
  | .int value, _, _, encoded => by cases encoded; exact toList_toString value
  | .float value, _, _, encoded => floatText_written encoded
  | .str value, _, _, encoded => by
    cases encoded
    exact String.toList_ofList
  | .arr items, text, loadable, encoded => by
    rw [compactText] at encoded
    obtain ⟨texts, inner, done⟩ := Library.except_bind_returned encoded
    cases done
    rw [Style.written, ← compactItems_written items texts loadable inner]
    exact bracketed '[' ']' "," texts
  | .obj fields, text, loadable, encoded => by
    rw [compactText] at encoded
    obtain ⟨texts, inner, done⟩ := Library.except_bind_returned encoded
    cases done
    rw [Style.written, ← compactFields_written fields texts loadable.2 inner]
    exact bracketed '\x7b' '\x7d' "," texts
  | .object _, _, loadable, _ => loadable.elim

theorem compactItems_written : ∀ items texts, LoadableItems items →
    compactItems items = .ok texts → texts.map String.toList = compactStyle.writtenItems items
  | [], _, _, encoded => by cases encoded; rfl
  | item :: rest, texts, loadable, encoded => by
    rw [compactItems] at encoded
    obtain ⟨text, first, others⟩ := Library.except_bind_returned encoded
    obtain ⟨remaining, tail, done⟩ := Library.except_bind_returned others
    cases done
    rw [map_cons, compactText_written item text loadable.1 first,
      compactItems_written rest remaining loadable.2 tail, Style.writtenItems]

theorem compactFields_written : ∀ fields texts, LoadableFields fields →
    compactFields fields = .ok texts → texts.map String.toList = compactStyle.writtenFields fields
  | [], _, _, encoded => by cases encoded; rfl
  | (name, value) :: rest, texts, loadable, encoded => by
    rw [compactFields] at encoded
    obtain ⟨text, first, others⟩ := Library.except_bind_returned encoded
    obtain ⟨remaining, tail, done⟩ := Library.except_bind_returned others
    cases done
    have named : (quoteControl name).toList = compactStyle.quoted name := String.toList_ofList
    have colon : ":".toList = compactStyle.colon := rfl
    rw [map_cons, compactFields_written rest remaining loadable.2 tail, Style.writtenFields,
      String.toList_append, String.toList_append, colon, named,
      compactText_written value text loadable.1 first]

end

/-- The order of `sort_keys`. -/
def byName (a b : String × Json) : Prop := a.1 ≤ b.1

instance : DecidableRel byName := fun a b => inferInstanceAs (Decidable (a.1 ≤ b.1))

instance : Std.Total byName := ⟨fun a b => String.le_total a.1 b.1⟩

instance : IsTrans (String × Json) byName := ⟨fun _ _ _ first second => String.le_trans first second⟩

theorem loadableItems_iff {items : List Json} : LoadableItems items ↔ ∀ v ∈ items, Loadable v := by
  induction items with
  | nil => simp [LoadableItems]
  | cons item rest ih => simp [LoadableItems, ih]

theorem loadableFields_iff : LoadableFields fields ↔ ∀ f ∈ fields, Loadable f.2 := by
  induction fields with
  | nil => simp [LoadableFields]
  | cons field rest ih => simp [LoadableFields, ih]

theorem sortFields_names (fields : List (String × Json)) :
    (sortFields fields).map Prod.fst = fields.map Prod.fst := by
  induction fields with
  | nil => rfl
  | cons field rest ih => rw [sortFields, map_cons, map_cons, ih]

mutual

theorem loadable_sorted : ∀ v, Loadable v → Loadable v.sortKeys
  | .null, loadable | .bool _, loadable | .int _, loadable | .float _, loadable
  | .str _, loadable | .object _, loadable => loadable
  | .arr items, loadable => loadable_sortedItems items loadable
  | .obj fields, loadable => by
    have shuffled := perm_insertionSort byName (sortFields fields)
    refine ⟨?_, ?_⟩
    · have names := (shuffled.map Prod.fst).nodup_iff
      rw [sortFields_names] at names
      exact names.mpr loadable.1
    · have inner := loadableFields_iff.mp (loadable_sortedFields fields loadable.2)
      exact loadableFields_iff.mpr (fun f mem => inner f (shuffled.mem_iff.mp mem))

theorem loadable_sortedItems : ∀ items, LoadableItems items → LoadableItems (sortItems items)
  | [], _ => trivial
  | item :: rest, loadable =>
    ⟨loadable_sorted item loadable.1, loadable_sortedItems rest loadable.2⟩

theorem loadable_sortedFields : ∀ fields, LoadableFields fields → LoadableFields (sortFields fields)
  | [], _ => trivial
  | (_, value) :: rest, loadable =>
    ⟨loadable_sorted value loadable.1, loadable_sortedFields rest loadable.2⟩

end

theorem sorted_loaded {options : DumpOptions} (loadable : Loadable v) {text : String}
    (sorted : options.sortKeys = true) (encoded : dumps options v = .ok text) :
    loads text = some v.sortKeys := by
  rw [dumps, if_pos sorted] at encoded
  have value := loadable_sorted v loadable
  exact loads_written (styleOf_readable options) value (encode_written options _ text value encoded)

theorem sortFields_eq (fields : List (String × Json)) :
    sortFields fields = fields.map (fun f => (f.1, f.2.sortKeys)) := by
  induction fields with
  | nil => rfl
  | cons field rest ih => rw [sortFields, ih, map_cons]

mutual

theorem sortKeys_idem : ∀ v : Json, v.sortKeys.sortKeys = v.sortKeys
  | .null | .bool _ | .int _ | .float _ | .str _ | .object _ => rfl
  | .arr items => congrArg Json.arr (sortItems_idem items)
  | .obj fields => by
    have inner := sortFields_idem fields
    have sorted := pairwise_insertionSort byName (sortFields fields)
    have again : sortFields ((sortFields fields).insertionSort byName) =
        (sortFields fields).insertionSort byName := by
      rw [sortFields_eq (sortFields fields)] at inner
      have fixed := map_inj_left.mp (inner.trans (map_id _).symm)
      rw [sortFields_eq (List.insertionSort _ _), map_congr_left (g := id), map_id]
      exact fun f mem => fixed f ((mem_insertionSort byName).mp mem)
    change Json.obj ((sortFields ((sortFields fields).insertionSort byName)).insertionSort byName) = _
    rw [again, sorted.insertionSort_eq]
    rfl

theorem sortItems_idem : ∀ items : List Json, sortItems (sortItems items) = sortItems items
  | [] => rfl
  | item :: rest => by rw [sortItems, sortItems, sortKeys_idem item, sortItems_idem rest]

theorem sortFields_idem : ∀ fields : List (String × Json),
    sortFields (sortFields fields) = sortFields fields
  | [] => rfl
  | (name, value) :: rest => by
    rw [sortFields, sortFields, sortKeys_idem value, sortFields_idem rest]

end

theorem sorted_unique {first second : List (String × Json)} (names : (first.map Prod.fst).Nodup)
    (shuffled : first.Perm second) : first.insertionSort byName = second.insertionSort byName := by
  have left := perm_insertionSort byName first
  have right := perm_insertionSort byName second
  refine List.Perm.eq_of_pairwise ?_ (pairwise_insertionSort byName first)
    (pairwise_insertionSort byName second) (left.trans (shuffled.trans right.symm))
  intro a b here there before after
  have equal : a.1 = b.1 := String.le_antisymm before after
  exact inj_on_of_nodup_map names (left.mem_iff.mp here)
    (shuffled.mem_iff.mpr (right.mem_iff.mp there)) equal

end Meemee.Guarantees.JsonLoading
