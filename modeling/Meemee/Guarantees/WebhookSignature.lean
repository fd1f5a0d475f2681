import Meemee.Guarantees.SseFrames
import Meemee.Library.Separated
import Meemee.Source.WebhookVerify

/-!
# One reading of a signature

What a sender signs is accepted while the clock is within the tolerance, and a signature speaks for
one timestamp text and one body: `int` reads no text with a full stop, so the first one in the signed
bytes is the separator.
-/
namespace Meemee.Guarantees.WebhookSignature
open Library Source Source.WebhookVerify List
open Source.Sse (Bytes utf8)
open Guarantees.SseFrames (byte_ascii utf8_append utf8_inj)

theorem hexDigit_inj : ∀ a < 16, ∀ b < 16, Json.hexDigit a = Json.hexDigit b → a = b := by decide

theorem hexDigit_ascii : ∀ a < 16, (Json.hexDigit a).toNat < 128 := by decide

theorem halves (b : UInt8) : b.toNat / 16 < 16 ∧ b.toNat % 16 < 16 := by
  have bound := b.toNat_lt
  omega

theorem hexdigest_inj {a b : Bytes} (same : hexdigest a = hexdigest b) : a = b := by
  have texts := String.ofList_inj.mp same
  clear same
  induction a generalizing b with
  | nil =>
    cases b with
    | nil => rfl
    | cons y b => cases texts
  | cons x a ih =>
    cases b with
    | nil => cases texts
    | cons y b =>
      simp only [flatMap_cons, cons_append, nil_append, List.cons.injEq] at texts
      obtain ⟨high, low, rest⟩ := texts
      have first := hexDigit_inj _ (halves x).1 _ (halves y).1 high
      have second := hexDigit_inj _ (halves x).2 _ (halves y).2 low
      rw [ih rest, UInt8.toNat_inj.mp (show x.toNat = y.toNat by omega)]

theorem hexdigest_ascii (bytes : Bytes) : ∀ c ∈ (hexdigest bytes).toList, c.toNat < 128 := by
  intro c mem
  rw [hexdigest, String.toList_ofList] at mem
  obtain ⟨b, -, here⟩ := mem_flatMap.mp mem
  simp only [mem_cons, not_mem_nil, or_false] at here
  rcases here with rfl | rfl
  · exact hexDigit_ascii _ (halves b).1
  · exact hexDigit_ascii _ (halves b).2

section Timestamps

variable {decimal : Char → Option Nat}

theorem numeral_plain {text : List Char} (numeral : isNumeral text = true) : '.' ∉ text := by
  induction text using isNumeral.induct with
  | case1 => cases numeral
  | case2 c =>
    intro mem
    obtain rfl := mem_singleton.mp mem
    revert numeral
    decide
  | case3 c next rest afterMark after =>
    rw [isNumeral, Bool.and_eq_true] at numeral
    have head : '.' ≠ c := by
      rintro rfl
      exact absurd numeral.1 (by decide)
    split at numeral
    next mark =>
      rw [mark, mem_cons, mem_cons]
      rintro (here | here | later)
      · exact head here
      · cases here
      · exact afterMark numeral.2 later
    next =>
      rw [mem_cons]
      rintro (here | later)
      · exact head here
      · exact after numeral.2 later

theorem mem_trimmed {c : Char} {text : List Char} (solid : isAsciiSpace c = false) (mem : c ∈ text) :
    c ∈ trimmed text := by
  have kept : ∀ {text : List Char}, c ∈ text → c ∈ text.dropWhile isAsciiSpace := by
    intro text mem
    rw [← takeWhile_append_dropWhile (p := isAsciiSpace) (l := text)] at mem
    rcases mem_append.mp mem with dropped | here
    · have space := all_eq_true.mp all_takeWhile c dropped
      rw [solid] at space
      cases space
    · exact here
  exact mem_reverse.mpr (kept (mem_reverse.mpr (kept mem)))

theorem mem_signed {c : Char} {text : List Char} (unsigned : c ≠ '-' ∧ c ≠ '+') (mem : c ∈ text) :
    c ∈ (Numbers.signed text).2 := by
  unfold Numbers.signed
  cases text with
  | nil => cases mem
  | cons first rest =>
    dsimp only
    rcases mem_cons.mp mem with rfl | later
    · rw [if_neg unsigned.1, if_neg unsigned.2]
      exact mem_cons_self
    · split
      · exact later
      · split
        · exact later
        · exact mem_cons_of_mem _ later

theorem int_plain {text : String} {n : Int} (read : int decimal text = some n) : '.' ∉ text.toList := by
  intro mem
  have image : '.' ∈ text.toList.map (transformed decimal) := mem_map.mpr ⟨'.', mem, rfl⟩
  have kept := mem_signed (by decide) (mem_trimmed rfl image)
  unfold int at read
  dsimp only at read
  split at read
  next both => exact numeral_plain (Bool.and_eq_true_iff.mp both).1 kept
  next => cases read

theorem utf8_plain {text : String} (plain : '.' ∉ text.toList) : (46 : UInt8) ∉ utf8 text := by
  intro byte
  obtain ⟨c, mem, inside⟩ := mem_flatMap.mp byte
  have code := byte_ascii (by decide) inside
  have same : c = '.' := Char.toNat_inj.mp code
  exact plain (same ▸ mem)

end Timestamps

section Signatures

variable {hmac : Bytes → Bytes → Bytes} {decimal : Char → Option Nat}

theorem signature_wellFormed (secret timestamp body : String) :
    wellFormed (signature hmac secret timestamp body) = true := by
  rw [wellFormed, signature, String.toList_append, all_append, Bool.and_eq_true,
    Bool.and_eq_true]
  refine ⟨⟨by decide, all_eq_true.mpr ?_⟩, isPrefixOf_iff_prefix.mpr (prefix_append _ _)⟩
  intro c mem
  exact decide_eq_true (hexdigest_ascii _ c mem)

theorem signed_bytes (timestamp body : String) :
    utf8 (timestamp ++ "." ++ body) = utf8 timestamp ++ 46 :: utf8 body := by
  have mark : utf8 "." = [46] := rfl
  rw [utf8_append, utf8_append, mark, append_assoc, singleton_append]

/-- A signature is accepted for its timestamp and body while the clock is within the tolerance. -/
theorem signature_accepted (secret timestamp body : String) (toleranceSeconds now : Int) :
    verifySignature hmac decimal secret timestamp (utf8 body)
        (some (signature hmac secret timestamp body)) toleranceSeconds now = true ↔
      ∃ observed, int decimal timestamp = some observed ∧
        ((now - observed).natAbs : Int) ≤ toleranceSeconds := by
  unfold verifySignature
  dsimp only
  rw [signature_wellFormed, Bool.not_true, Bool.or_false]
  cases read : int decimal timestamp with
  | none => simp
  | some observed =>
    have expected : "sha256=" ++ hexdigest (hmac (utf8 secret) (utf8 timestamp ++ 46 :: utf8 body)) =
        signature hmac secret timestamp body := by rw [signature, signed_bytes]
    simp only [expected, decide_true, Option.some.injEq, exists_eq_left', decide_eq_true_eq]
    split
    next negative => exact ⟨nofun, fun near => by omega⟩
    next =>
      split
      next far => exact ⟨nofun, fun near => by omega⟩
      next near => exact ⟨fun _ => by omega, fun _ => rfl⟩

theorem accepted_parts {secret timestamp signature : String} {body : Bytes}
    {toleranceSeconds now : Int}
    (accepted : verifySignature hmac decimal secret timestamp body (some signature) toleranceSeconds
      now = true) :
    (46 : UInt8) ∉ utf8 timestamp ∧
      "sha256=" ++ hexdigest (hmac (utf8 secret) (utf8 timestamp ++ 46 :: body)) = signature := by
  unfold verifySignature at accepted
  dsimp only at accepted
  split at accepted
  next => cases accepted
  next =>
    split at accepted
    next => cases accepted
    next observed read =>
      split at accepted
      next => cases accepted
      next => exact ⟨utf8_plain (int_plain read), of_decide_eq_true accepted⟩

/-- Signing and verifying agree, and a signature under a secret is accepted for at most one
timestamp text and body, whatever the tolerances and clocks. -/
theorem signatures_speak_once (hmac : Bytes → Bytes → Bytes)
    (injective : ∀ key, Function.Injective (hmac key)) (decimal : Char → Option Nat) :
    (∀ (secret timestamp body : String) (toleranceSeconds now : Int),
      verifySignature hmac decimal secret timestamp (utf8 body)
          (some (signature hmac secret timestamp body)) toleranceSeconds now = true ↔
        ∃ observed, int decimal timestamp = some observed ∧
          ((now - observed).natAbs : Int) ≤ toleranceSeconds) ∧
    ∀ (secret : String) (signature : Option String) (timestamp other : String) (body content : Bytes)
      (tolerance tolerance' now now' : Int),
      verifySignature hmac decimal secret timestamp body signature tolerance now = true →
        verifySignature hmac decimal secret other content signature tolerance' now' = true →
          timestamp = other ∧ body = content := by
  refine ⟨signature_accepted, fun secret signature timestamp other body content _ _ _ _ first second => ?_⟩
  cases signature with
  | none => cases first
  | some signature =>
    obtain ⟨plain, expected⟩ := accepted_parts first
    obtain ⟨plain', expected'⟩ := accepted_parts second
    have digests := String.append_right_inj _ |>.mp (expected.trans expected'.symm)
    have messages := injective _ (hexdigest_inj digests)
    obtain ⟨stamps, bodies⟩ := Separated.append_cons_inj plain plain' messages
    exact ⟨utf8_inj stamps, bodies⟩

end Signatures

/-- The HMAC-SHA256 of one message under one key, and some bytes of their own for all others. -/
def sampleHmac (key message : Bytes) : Bytes :=
  if key = utf8 "whsec" ∧ message = utf8 "1700000000.\x7b\"a\":1.5\x7d" then
    [144, 215, 112, 230, 226, 29, 39, 88, 135, 25, 115, 206, 242, 207, 116, 161, 95, 16, 48, 7, 209, 49,
      115, 41, 30, 215, 4, 185, 244, 131, 22, 142]
  else 0 :: message

theorem sampleHmac_injective (key : Bytes) : Function.Injective (sampleHmac key) := by
  intro first second same
  unfold sampleHmac at same
  split at same
  next one =>
    split at same
    next two => rw [one.2, two.2]
    next => cases same
  next =>
    split at same
    next => cases same
    next => exact (List.cons.inj same).2

/-- The body holds the separator, and a minute later the signature is accepted. -/
theorem sample_accepted :
    verifySignature sampleHmac (fun _ => none) "whsec" "1700000000" (utf8 "\x7b\"a\":1.5\x7d")
        (some "sha256=90d770e6e21d2758871973cef2cf74a15f103007d13173291ed704b9f483168e") 300
        1700000060 = true ∧
    (∀ (secret timestamp body : String) (toleranceSeconds now : Int),
      verifySignature sampleHmac (fun _ => none) secret timestamp (utf8 body)
          (some (signature sampleHmac secret timestamp body)) toleranceSeconds now = true ↔
        ∃ observed, int (fun _ => none) timestamp = some observed ∧
          ((now - observed).natAbs : Int) ≤ toleranceSeconds) ∧
    ∀ (secret : String) (signature : Option String) (timestamp other : String) (body content : Bytes)
      (tolerance tolerance' now now' : Int),
      verifySignature sampleHmac (fun _ => none) secret timestamp body signature tolerance now = true →
        verifySignature sampleHmac (fun _ => none) secret other content signature tolerance' now' =
            true →
          timestamp = other ∧ body = content :=
  ⟨by decide +kernel, signatures_speak_once sampleHmac sampleHmac_injective (fun _ => none)⟩

end Meemee.Guarantees.WebhookSignature
