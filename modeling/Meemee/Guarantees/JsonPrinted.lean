import Meemee.Guarantees.JsonLoading
import Meemee.Guarantees.JsonText

/-!
# Printing the values that json.loads makes

`json.dumps` raises on none of them, and writes no control character.
-/
namespace Meemee.Guarantees.JsonPrinted
open Source Source.Json Source.JsonLoads Option List
open Guarantees.JsonLoading
open Guarantees.JsonText (encodable itemsEncodable fieldsEncodable dumps_answers)

def Printable (c : Char) : Prop := 32 ≤ c.toNat

theorem hexDigit_printable (n : Nat) : Printable (hexDigit (n % 16)) := by
  have small : ∀ m < 16, 32 ≤ (hexDigit m).toNat := by decide
  exact small (n % 16) (Nat.mod_lt n (by decide))

theorem unicodeEscape_printable (n : Nat) : ∀ c ∈ unicodeEscape n, Printable c := by
  simp only [unicodeEscape, List.forall_mem_cons, hexDigit_printable]
  exact ⟨by simp [Printable], by simp [Printable], by simp⟩

theorem escape_printable (c : Char) : ∀ d ∈ escapeChar c, Printable d := by
  unfold escapeChar
  repeat' split
  all_goals try simp only [List.forall_mem_cons, Printable]
  all_goals first
    | exact ⟨by decide, by decide, by simp⟩
    | exact unicodeEscape_printable _
    | skip
  · next printable => exact ⟨printable.1, by simp⟩
  · intro d mem
    rcases List.mem_append.mp mem with high | low
    · exact unicodeEscape_printable _ d high
    · exact unicodeEscape_printable _ d low

/-- The characters of numbers and of the names. -/
def Word (c : Char) : Prop := c.isAlphanum = true ∨ c ∈ ['.', '+', '-']

instance (c : Char) : Decidable (Word c) := inferInstanceAs (Decidable (_ ∨ _))

variable {c : Char} {rest : List Char} {style : Style} {options : DumpOptions} {v : Json}

theorem word_printable (word : Word c) : Printable c := by
  unfold Printable
  by_contra control
  have low : c.toNat < 32 := by omega
  have none : ∀ n < 32, ¬ Word (Char.ofNat n) := by decide
  have same : Char.ofNat c.toNat = c := Char.ofNat_toNat c
  exact none c.toNat low (by rw [same]; exact word)

theorem word_digits {w : List Char} (digits : ∀ c ∈ w, c.isDigit = true) : ∀ c ∈ w, Word c := by
  intro c mem
  exact .inl (by simp [Char.isAlphanum, digits c mem])

theorem intChars_words (n : Int) : ∀ c ∈ intChars n, Word c := by
  cases n with
  | ofNat n => exact word_digits (all_digits n)
  | negSucc n => exact forall_mem_cons.mpr ⟨by decide, word_digits (all_digits (n + 1))⟩

theorem takeWhile_digits (text : List Char) : ∀ c ∈ text.takeWhile Char.isDigit, Word c :=
  word_digits (all_eq_true.mp all_takeWhile)

theorem wholePart_words {text whole : List Char} (read : wholePart text = some (whole, rest)) :
    ∀ c ∈ whole, Word c := by
  cases text with
  | nil => cases read
  | cons c text =>
    simp only [wholePart] at read
    split at read
    · cases read
      exact forall_mem_singleton.mpr (by decide)
    · split at read
      next digit =>
        cases read
        exact forall_mem_cons.mpr ⟨.inl (by simp [Char.isAlphanum, digit]), takeWhile_digits _⟩
      next => cases read

theorem digitsAfter_words {marks : List Char} (words : ∀ c ∈ marks, Word c) (text rest : List Char) :
    ∀ c ∈ (digitsAfter marks text rest).1, Word c := by
  rw [digitsAfter]
  split
  · exact fun _ mem => by cases mem
  · exact List.forall_mem_append.mpr ⟨words, takeWhile_digits _⟩

theorem fractionPart_words (text : List Char) : ∀ c ∈ (fractionPart text).1, Word c := by
  cases text with
  | nil => exact fun _ mem => by cases mem
  | cons c text =>
    simp only [fractionPart]
    split
    · exact digitsAfter_words (List.forall_mem_singleton.mpr (by decide)) _ _
    · exact fun _ mem => by cases mem

theorem exponentPart_words (text : List Char) : ∀ c ∈ (exponentPart text).1, Word c := by
  cases text with
  | nil => exact fun _ mem => by cases mem
  | cons c text =>
    simp only [exponentPart]
    split
    next mark =>
      have word : Word c := by rcases mark with rfl | rfl <;> decide
      cases text with
      | nil => exact fun _ mem => by cases mem
      | cons sign more =>
        simp only
        split
        next signed =>
          have both : Word sign := by rcases signed with rfl | rfl <;> decide
          exact digitsAfter_words (by simp [word, both]) _ _
        · exact digitsAfter_words (by simp [word]) _ _
    · exact fun _ mem => by cases mem

theorem readUnsigned_words {sign text : List Char} {repr : String} (words : ∀ c ∈ sign, Word c)
    (read : readUnsigned sign text = some (.float (.finite repr), rest)) :
    ∀ c ∈ repr.toList, Word c := by
  unfold readUnsigned at read
  cases whole : wholePart text with
  | none => rw [whole] at read; cases read
  | some part =>
    rw [whole] at read
    simp only [bind_eq_bind, bind_some] at read
    split at read
    · cases read
    · cases read
      rw [String.toList_ofList]
      exact forall_mem_append.mpr ⟨forall_mem_append.mpr
        ⟨forall_mem_append.mpr ⟨words, wholePart_words whole⟩, fractionPart_words _⟩,
          exponentPart_words _⟩

theorem readNumber_words {text : List Char} {repr : String}
    (read : readNumber text = some (.float (.finite repr), rest)) : ∀ c ∈ repr.toList, Word c := by
  cases text with
  | nil => cases read
  | cons c text =>
    simp only [readNumber] at read
    split at read
    · exact readUnsigned_words (forall_mem_singleton.mpr (by decide)) read
    · exact readUnsigned_words (fun _ mem => by cases mem) read

theorem name_printable {name : List Char} (all : name.all (fun c => decide (32 ≤ c.toNat)) = true) :
    ∀ c ∈ name, Printable c := fun c mem =>
  @of_decide_eq_true (32 ≤ c.toNat) _ (all_eq_true.mp all c mem)

theorem float_printable {value : JsonFloat} (loadable : Loadable (.float value)) :
    ∀ c ∈ floatChars value, Printable c := by
  cases value with
  | finite repr => exact fun c mem => word_printable (readNumber_words loadable c mem)
  | nan => exact name_printable rfl
  | infinity negative => cases negative <;> exact name_printable rfl

theorem intercalate_printable {comma : List Char} (marks : ∀ c ∈ comma, Printable c)
    {texts : List (List Char)} (all : ∀ t ∈ texts, ∀ c ∈ t, Printable c) :
    ∀ c ∈ comma.intercalate texts, Printable c := by
  induction texts with
  | nil => exact nofun
  | cons text rest ih =>
    have first := all text mem_cons_self
    have later := ih (fun t mem => all t (mem_cons_of_mem _ mem))
    cases rest with
    | nil => rwa [intercalate_singleton]
    | cons next others =>
      rw [intercalate_cons_cons]
      exact forall_mem_append.mpr ⟨forall_mem_append.mpr ⟨first, marks⟩, later⟩

/-- A style whose escapes and gaps hold no control character. -/
structure Printed (style : Style) : Prop where
  escapes : ∀ c, ∀ d ∈ style.escape c, Printable d
  gap : ∀ c ∈ style.gap, Printable c

theorem quoted_printable (printed : Printed style) (s : String) :
    ∀ c ∈ style.quoted s, Printable c := by
  refine forall_mem_cons.mpr ⟨by simp [Printable],
    forall_mem_append.mpr ⟨?_, by simp [Printable]⟩⟩
  intro c mem
  obtain ⟨d, -, inside⟩ := mem_flatMap.mp mem
  exact printed.escapes d c inside

theorem comma_printable (printed : Printed style) : ∀ c ∈ style.comma, Printable c :=
  forall_mem_cons.mpr ⟨by simp [Printable], printed.gap⟩

mutual

theorem written_printable (printed : Printed style) :
    ∀ v : Json, Loadable v → ∀ c ∈ style.written v, Printable c
  | .null, _ => name_printable rfl
  | .bool true, _ => name_printable rfl
  | .bool false, _ => name_printable rfl
  | .int value, _ => fun c mem => word_printable (intChars_words value c mem)
  | .float _, loadable => float_printable loadable
  | .str value, _ => quoted_printable printed value
  | .arr items, loadable => by
    have inside := intercalate_printable (comma_printable printed)
      (items_printable printed items loadable)
    rw [Style.written]
    exact forall_mem_cons.mpr ⟨by simp [Printable],
      forall_mem_append.mpr ⟨inside, by simp [Printable]⟩⟩
  | .obj fields, loadable => by
    have inside := intercalate_printable (comma_printable printed)
      (fields_printable printed fields loadable.2)
    rw [Style.written]
    exact forall_mem_cons.mpr ⟨by simp [Printable],
      forall_mem_append.mpr ⟨inside, by simp [Printable]⟩⟩
  | .object _, loadable => loadable.elim

theorem items_printable (printed : Printed style) :
    ∀ items : List Json, LoadableItems items →
      ∀ t ∈ style.writtenItems items, ∀ c ∈ t, Printable c
  | [], _ => nofun
  | item :: rest, loadable => by
    rw [Style.writtenItems]
    exact forall_mem_cons.mpr
      ⟨written_printable printed item loadable.1, items_printable printed rest loadable.2⟩

theorem fields_printable (printed : Printed style) :
    ∀ fields : List (String × Json), LoadableFields fields →
      ∀ t ∈ style.writtenFields fields, ∀ c ∈ t, Printable c
  | [], _ => nofun
  | (name, value) :: rest, loadable => by
    have colon : ∀ c ∈ style.colon, Printable c :=
      forall_mem_cons.mpr ⟨by simp [Printable], printed.gap⟩
    rw [Style.writtenFields]
    refine forall_mem_cons.mpr ⟨?_, fields_printable printed rest loadable.2⟩
    exact forall_mem_append.mpr ⟨forall_mem_append.mpr
      ⟨quoted_printable printed name, colon⟩, written_printable printed value loadable.1⟩

end

theorem styleOf_printed (options : Json.DumpOptions) : Printed (styleOf options) := by
  refine ⟨escape_printable, ?_⟩
  unfold styleOf
  split <;> simp [Printable]

/-- No text of `json.dumps` holds a control character. -/
theorem dumps_printable (loadable : Loadable v) {text : String} (encoded : dumps options v = .ok text) :
    ∀ c ∈ text.toList, Printable c := by
  have printed : ∀ w, Loadable w → encode options w = .ok text → ∀ c ∈ text.toList, Printable c := by
    intro w loadable encoded
    rw [encode_written options w text loadable encoded]
    exact written_printable (styleOf_printed options) w loadable
  rw [dumps] at encoded
  split at encoded
  · exact printed _ (loadable_sorted v loadable) encoded
  · exact printed v loadable encoded

mutual

theorem loadable_encodable : ∀ v : Json, Loadable v → encodable {} v = true
  | .null, _ => rfl
  | .bool _, _ => rfl
  | .int _, _ => rfl
  | .float (.finite _), _ => rfl
  | .float .nan, _ => rfl
  | .float (.infinity _), _ => rfl
  | .str _, _ => rfl
  | .arr items, loadable => items_encodable items loadable
  | .obj fields, loadable => fields_encodable fields loadable.2
  | .object _, loadable => loadable.elim

theorem items_encodable : ∀ items : List Json, LoadableItems items → itemsEncodable {} items = true
  | [], _ => rfl
  | item :: rest, loadable => by
    rw [itemsEncodable, loadable_encodable item loadable.1, items_encodable rest loadable.2]
    rfl

theorem fields_encodable : ∀ fields : List (String × Json), LoadableFields fields →
    fieldsEncodable {} fields = true
  | [], _ => rfl
  | (_, value) :: rest, loadable => by
    rw [fieldsEncodable, loadable_encodable value loadable.1, fields_encodable rest loadable.2]
    rfl

end

theorem dumps_ok (options : DumpOptions) (loadable : Loadable v) (allowNan : options.allowNan = true) :
    ∃ text, dumps options v = .ok text := by
  have answers := dumps_answers options v
  cases written : dumps options v with
  | ok text => exact ⟨text, rfl⟩
  | error e =>
    rw [written] at answers
    obtain ⟨-, strict | unplain⟩ := answers
    · cases allowNan.symm.trans strict.1
    · cases unplain.1.symm.trans (loadable_encodable v loadable)

end Meemee.Guarantees.JsonPrinted
