import Mathlib.Data.Prod.Lex
import Mathlib.Data.String.Basic
import Meemee.Guarantees.JsonLoading
import Meemee.Library.Keyset
import Meemee.Source.Cursors

/-!
# Lists read page by page

A cursor is read back as the pair it was made of: its JSON is ASCII, base64 skips nothing of its
own letters, and the padding that was cut off is put back. A list followed from cursor to cursor
gives each row that meets its filter once, in its order.
-/
namespace Meemee.Guarantees.Pagination
open Library Source Source.Cursors List
open Guarantees.JsonLoading (Loadable styleOf styleOf_readable dumps_written loads_written)

theorem letterValue_letter : ∀ n < 64, letterValue (Base64.letter n) = some n := by decide +kernel

theorem a2b_letter {n : Nat} (small : n < 64) (rest : List Char) (quad left pads : Nat) :
    a2b (Base64.letter n :: rest) quad left pads =
      if quad = 0 then a2b rest 1 n 0
      else if quad = 1 then (a2b rest 2 (n % 16) 0).map (Base64.byte (left * 4 + n / 16) :: ·)
      else if quad = 2 then (a2b rest 3 (n % 4) 0).map (Base64.byte (left * 16 + n / 4) :: ·)
      else (a2b rest 0 0 0).map (Base64.byte (left * 64 + n) :: ·) := by
  rw [a2b, if_neg (Base64.letter_ne_padding n small), letterValue_letter n small]

theorem a2b_encode (bytes : List UInt8) : a2b (Base64.encode bytes) 0 0 0 = some bytes := by
  induction bytes using Base64.encode.induct with
  | case1 => rfl
  | case2 a =>
    have bound := a.toNat_lt
    rw [Base64.encode, a2b_letter (by omega), if_pos rfl, a2b_letter (by omega), Base64.byte_toNat (a := a) (by omega)]
    rfl
  | case3 a b =>
    have bound := a.toNat_lt
    have bound' := b.toNat_lt
    rw [Base64.encode, a2b_letter (by omega), if_pos rfl, a2b_letter (by omega), if_neg (by decide),
      if_pos rfl, a2b_letter (by omega), if_neg (by decide), if_neg (by decide), Base64.byte_toNat (a := a) (by omega), Base64.byte_toNat (a := b) (by omega)]
    rfl
  | case4 a b c rest ih =>
    have bound := a.toNat_lt
    have bound' := b.toNat_lt
    have bound'' := c.toNat_lt
    rw [Base64.encode, a2b_letter (by omega), if_pos rfl, a2b_letter (by omega), if_neg (by decide),
      if_pos rfl, a2b_letter (by omega), if_neg (by decide), if_neg (by decide), if_pos rfl,
      a2b_letter (by omega), if_neg (by decide), if_neg (by decide), if_neg (by decide), ih,
      Base64.byte_toNat (a := a) (by omega), Base64.byte_toNat (a := b) (by omega),
      Base64.byte_toNat (a := c) (by omega)]
    rfl

theorem letter_ascii : ∀ n < 64, (Base64.letter n).toNat < 128 := by decide +kernel

theorem encode_ascii (bytes : List UInt8) : ∀ c ∈ Base64.encode bytes, c.toNat < 128 := by
  induction bytes using Base64.encode.induct with
  | case1 => exact fun _ mem => by cases mem
  | case2 a =>
    have bound := a.toNat_lt
    simp only [Base64.encode, forall_mem_cons, not_mem_nil, false_imp_iff, implies_true,
      and_true]
    exact ⟨letter_ascii _ (by omega), letter_ascii _ (by omega), by decide, by decide⟩
  | case3 a b =>
    have bound := a.toNat_lt
    have bound' := b.toNat_lt
    simp only [Base64.encode, forall_mem_cons, not_mem_nil, false_imp_iff, implies_true,
      and_true]
    exact ⟨letter_ascii _ (by omega), letter_ascii _ (by omega), letter_ascii _ (by omega), by decide⟩
  | case4 a b c rest ih =>
    have bound := a.toNat_lt
    have bound' := b.toNat_lt
    have bound'' := c.toNat_lt
    simp only [Base64.encode, forall_mem_cons]
    exact ⟨letter_ascii _ (by omega), letter_ascii _ (by omega), letter_ascii _ (by omega),
      letter_ascii _ (by omega), ih⟩

theorem encode_padded (bytes : List UInt8) : ∃ letters, Base64.encode bytes =
    letters ++ padding letters.length ∧ ∀ c ∈ letters.getLast?, c ≠ '=' := by
  induction bytes using Base64.encode.induct with
  | case1 => exact ⟨[], rfl, fun _ mem => by cases mem⟩
  | case2 a =>
    refine ⟨[Base64.letter (a.toNat / 4), Base64.letter (a.toNat % 4 * 16)], rfl, ?_⟩
    intro c last
    cases last
    exact Base64.letter_ne_padding _ (by omega)
  | case3 a b =>
    refine ⟨[Base64.letter (a.toNat / 4), Base64.letter (a.toNat % 4 * 16 + b.toNat / 16),
      Base64.letter (b.toNat % 16 * 4)], rfl, ?_⟩
    intro c last
    cases last
    exact Base64.letter_ne_padding _ (by omega)
  | case4 a b c rest ih =>
    obtain ⟨letters, whole, last⟩ := ih
    refine ⟨Base64.letter (a.toNat / 4) :: Base64.letter (a.toNat % 4 * 16 + b.toNat / 16) ::
      Base64.letter (b.toNat % 16 * 4 + c.toNat / 64) :: Base64.letter (c.toNat % 64) :: letters,
      ?_, ?_⟩
    · have same : (letters.length + 1 + 1 + 1 + 1) % 4 = letters.length % 4 := by omega
      rw [Base64.encode, whole]
      simp only [cons_append, length_cons, padding, same]
    · intro d final
      cases letters with
      | nil =>
        cases final
        exact Base64.letter_ne_padding _ (by omega)
      | cons e more => exact last d final

theorem unpadded_append {letters : List Char} (last : ∀ c ∈ letters.getLast?, c ≠ '=') (length : Nat) :
    unpadded (letters ++ padding length) = letters := by
  have marks : ∀ c ∈ (padding length).reverse, decide (c = '=') = true := by
    intro c mem
    rw [mem_reverse, padding, mem_replicate] at mem
    rw [mem.2]
    rfl
  rw [unpadded, reverse_append, dropWhile_append_of_pos marks]
  cases back : letters.reverse with
  | nil => rw [dropWhile_nil, reverse_nil, ← reverse_eq_nil_iff.mp back]
  | cons c more =>
    have other : ¬ decide (c = '=') = true := by
      rw [decide_eq_true_eq]
      apply last
      rw [List.getLast?_eq_head?_reverse, back]
      rfl
    rw [dropWhile_cons, if_neg other, ← back, reverse_reverse]

theorem decode_unpadded (bytes : List UInt8) :
    urlsafeB64decode (unpadded (Base64.encode bytes) ++
      padding (unpadded (Base64.encode bytes)).length) = some bytes := by
  obtain ⟨letters, whole, last⟩ := encode_padded bytes
  have ascii : (Base64.encode bytes).all (fun c => decide (c.toNat < 128)) = true := by
    rw [all_eq_true]
    exact fun c mem => decide_eq_true (encode_ascii bytes c mem)
  have back : unpadded (Base64.encode bytes) = letters := by rw [whole, unpadded_append last]
  rw [back, ← whole, urlsafeB64decode, ascii, if_pos rfl, a2b_encode]

theorem utf8_bytes (text : String) : utf8 text.toUTF8.data.toList = some text := by
  have whole : (⟨text.toUTF8.data.toList.toArray⟩ : ByteArray) = text.toByteArray := by
    rfl
  rw [utf8, whole, String.fromUTF8?, dif_pos text.isValidUTF8]
  rfl

theorem bytes_begin {text : String} {more : List Char} (begins : text.toList = '[' :: '"' :: more) :
    ∃ tail, text.toUTF8.data.toList = 0x5B :: 0x22 :: tail := by
  have bytes : text.toUTF8.data.toList = text.toList.flatMap String.utf8EncodeChar := by
    have encoded : text.toByteArray = text.toList.utf8Encode := String.utf8Encode_toList.symm
    rw [String.toUTF8_eq_toByteArray, encoded]
    exact List.toList_data_toByteArray
  rw [bytes, begins]
  exact ⟨more.flatMap String.utf8EncodeChar, rfl⟩

theorem detect_text {b tail : List UInt8} (begins : b = 0x5B :: 0x22 :: tail) :
    detectEncoding b = .utf8 := by
  subst begins
  have marked : ∀ (x : UInt8) (xs : List UInt8), 0x5B ≠ x →
      (x :: xs).isPrefixOf (0x5B :: 0x22 :: tail) = false := by
    intro x xs other
    rw [List.isPrefixOf_cons_cons, beq_false_of_ne other.symm, Bool.false_and]
  have first : (0x5B :: 0x22 :: tail : List UInt8).getD 0 0 = 0x5B := rfl
  have second : (0x5B :: 0x22 :: tail : List UInt8).getD 1 0 = 0x22 := rfl
  simp only [detectEncoding, marked 0 _ (by decide), marked 0xFF _ (by decide),
    marked 0xFE _ (by decide), marked 0xEF _ (by decide), first, second]
  repeat' split
  all_goals first | rfl | contradiction

theorem cursor_text (sortValue ident : String) : ∃ text,
    Json.dumps { compact := true } (.arr [.str sortValue, .str ident]) = .ok text ∧
      loadsBytes text.toUTF8.data.toList = some (.arr [.str sortValue, .str ident]) := by
  have loadable : Loadable (.arr [.str sortValue, .str ident]) := ⟨trivial, trivial, trivial⟩
  refine ⟨_, rfl, ?_⟩
  have written := @dumps_written { compact := true } _ loadable _ rfl rfl
  obtain ⟨tail, bytes⟩ := bytes_begin written
  rw [loadsBytes, detect_text bytes, decodeText, utf8_bytes, Option.bind_some,
    loads_written (styleOf_readable _) loadable written]

theorem encodeCursor_returns (sortValue ident : String) : ∃ text,
    encodeCursor sortValue ident = .ok text ∧
      (urlsafeB64decode (text.toList ++ padding text.length)).bind loadsBytes =
        some (.arr [.str sortValue, .str ident]) := by
  obtain ⟨text, dumped, loaded⟩ := cursor_text sortValue ident
  refine ⟨_, by rw [encodeCursor, dumped]; rfl, ?_⟩
  rw [String.toList_ofList, String.length_ofList, decode_unpadded, Option.bind_some, loaded]

theorem decode_encode {sortValue ident : String} (timed : sortValue ≠ "") (named : ident ≠ "") :
    (encodeCursor sortValue ident).bind decodeCursor = .ok (sortValue, ident) := by
  obtain ⟨text, encoded, loaded⟩ := encodeCursor_returns sortValue ident
  rw [encoded]
  change decodeCursor text = _
  rw [decodeCursor, loaded, Option.bind_some, textPair, if_pos ⟨timed, named⟩]

theorem decode_cases (value : String) :
    (∃ sortValue ident, decodeCursor value = .ok (sortValue, ident) ∧ sortValue ≠ "" ∧ ident ≠ "") ∨
      decodeCursor value = .error (.valueError "invalid pagination cursor") := by
  unfold decodeCursor
  split
  next pair read =>
    refine .inl ⟨pair.1, pair.2, rfl, ?_⟩
    obtain ⟨v, -, paired⟩ := Option.bind_eq_some_iff.mp read
    unfold textPair at paired
    split at paired
    next =>
      split at paired
      next full =>
        cases paired
        exact full
      next => cases paired
    next => cases paired
  next => exact .inr rfl

section Pages

variable {ρ : Type} {stamp : ρ → String × String} {rows : List ρ} {p : ρ → Bool}

/-- The place of a row in the order. -/
def place (stamp : ρ → String × String) (r : ρ) : String ×ₗ String := toLex (stamp r)

theorem older_iff (a b : String × String) : older a b = true ↔ toLex a < toLex b := by
  rw [older, decide_eq_true_eq, Prod.Lex.toLex_lt_toLex]

theorem newestFirst_eq (rows : List ρ) : newestFirst stamp rows = Keyset.newest (place stamp) rows := by
  have same : (fun a b => older (stamp a) (stamp b) = false) =
      (fun a b => place stamp b ≤ place stamp a) := by
    funext a b
    rw [← Bool.not_eq_true, older_iff, not_lt]
    rfl
  unfold newestFirst Keyset.newest
  congr

theorem positive_pageSize (limit : Int) : 0 < pageSize limit := by
  unfold pageSize
  omega

theorem bounded_filter (rows : List ρ) (bound : Option (String × String)) :
    rows.filter (fun r => p r && bound.all (older (stamp r))) =
      (rows.filter p).filter (Keyset.below (place stamp) (bound.map toLex)) := by
  rw [List.filter_filter]
  apply List.filter_congr
  intro r _
  rw [Bool.and_comm]
  congr 1
  cases bound with
  | none => rfl
  | some b =>
    rw [Option.all_some, Option.map_some, Keyset.below, Option.all_some, Bool.eq_iff_iff, older_iff,
      decide_eq_true_eq]
    rfl

/-- The text of a cursor at a place. -/
def textOf (k : String ×ₗ String) : String :=
  ((encodeCursor (ofLex k).1 (ofLex k).2).toOption).getD ""

theorem encodeCursor_textOf (a : String × String) : encodeCursor a.1 a.2 = .ok (textOf (toLex a)) := by
  obtain ⟨text, encoded, -⟩ := encodeCursor_returns a.1 a.2
  have same : textOf (toLex a) = text := by
    change ((encodeCursor a.1 a.2).toOption).getD "" = text
    rw [encoded]
    rfl
  rw [same, encoded]

theorem readCursor_textOf {a : String × String} (full : a.1 ≠ "" ∧ a.2 ≠ "") :
    readCursor (some (textOf (toLex a))) = .ok (some a) := by
  have back := decode_encode full.1 full.2
  have bound : ∀ text, (Except.ok text : Except Exc String).bind decodeCursor = decodeCursor text :=
    fun _ => rfl
  rw [encodeCursor_textOf, bound] at back
  rw [readCursor, back]
  rfl

theorem nextCursor_eq (items : List ρ) (more : Bool) : nextCursor stamp items more =
    .ok (Option.map textOf (if more then items.getLast?.map (place stamp) else none)) := by
  unfold nextCursor
  cases items.getLast? with
  | none => cases more <;> rfl
  | some last =>
    cases more with
    | false => rfl
    | true =>
      change (encodeCursor (stamp last).1 (stamp last).2).map some = _
      rw [encodeCursor_textOf]
      rfl

theorem listPage_page {limit : Int} {cursor : Option String} {bound : Option (String × String)}
    (read : readCursor cursor = .ok bound) : listPage stamp rows p limit cursor =
      .ok (Prod.map id (Option.map textOf)
        (Keyset.page (place stamp) (pageSize limit) (rows.filter p) (bound.map toLex))) := by
  unfold listPage Keyset.page
  simp only [read, bind, Except.bind, bounded_filter, newestFirst_eq, nextCursor_eq, pure,
    Except.pure, decide_eq_true_eq]
  rfl

/-- Page by page a list gives every row of its filter once, newest first. -/
def Complete (stamp : ρ → String × String) (rows : List ρ) (p : ρ → Bool)
    (fetch : Option String → Except Exc (List ρ × Option String)) : Prop :=
  ∃ all, Keyset.follow fetch ((rows.filter p).length + 1) none = .ok (some all) ∧
    all.Perm (rows.filter p) ∧ all.Pairwise (fun a b => older (stamp b) (stamp a) = true)

theorem textOf_truthy {a : String × String} (full : a.1 ≠ "" ∧ a.2 ≠ "") :
    truthy (some (textOf (toLex a))) = some (textOf (toLex a)) := by
  have refused : readCursor (some "") = .error invalidCursor := rfl
  have read := readCursor_textOf full
  have written : textOf (toLex a) ≠ "" := by
    intro empty
    rw [empty] at read
    cases read
  rw [truthy, Option.filter_some, if_pos (by rw [decide_eq_true_eq]; exact written)]

theorem complete_list {cursorOf : Option String → Option String} (limit : Int)
    (distinct : (rows.map stamp).Nodup) (full : ∀ r ∈ rows, (stamp r).1 ≠ "" ∧ (stamp r).2 ≠ "")
    (first : cursorOf none = none)
    (next : ∀ a : String × String, a.1 ≠ "" ∧ a.2 ≠ "" →
      cursorOf (some (textOf (toLex a))) = some (textOf (toLex a))) :
    Complete stamp rows p (fun cursor => listPage stamp rows p limit (cursorOf cursor)) := by
  have places : ((rows.filter p).map (place stamp)).Nodup :=
    (List.filter_sublist.map (place stamp)).nodup distinct
  refine ⟨_, @Keyset.follow_all _ _ _ (place stamp) _ _ _ textOf _ _ (positive_pageSize limit) places ?_ ?_,
    Keyset.newest_perm _ _, ?_⟩
  · intro r mem
    have filled := full r (List.mem_of_mem_filter mem)
    change listPage stamp rows p limit (cursorOf (some (textOf (toLex (stamp r))))) = _
    rw [next (stamp r) filled]
    exact listPage_page (readCursor_textOf filled)
  · rw [first]
    exact @listPage_page _ _ _ _ _ none none rfl
  · exact (Keyset.newest_sorted (place stamp) places).imp (fun lower => (older_iff _ _).mpr lower)

end Pages

theorem distinct_stamps {ρ : Type} {ident : ρ → String} (rows : Table ident)
    {stamp : ρ → String × String} (named : ∀ r, (stamp r).2 = ident r) :
    (rows.rows.map stamp).Nodup := by
  have unique := rows.unique
  have same : rows.rows.map ident = (rows.rows.map stamp).map Prod.snd := by
    rw [List.map_map]
    exact List.map_congr_left (fun r _ => (named r).symm)
  rw [same] at unique
  exact unique.of_map

/-- The four lists are complete at every page size and under every filter; a cursor is read back,
and any other text is refused or read as a pair. -/
theorem pages_complete (γ : Type) :
    (∀ (jobs : Table (JobRow.id (γ := γ))) principal status before limit,
      Complete JobRow.stamp jobs.rows (jobFilter principal status before)
        (listForPrincipal jobs principal status before limit)) ∧
    (∀ (tokens : Table (TokenRow.id (γ := γ))) revoked before ownerId tokenKind limit,
      Complete TokenRow.stamp tokens.rows (tokenFilter revoked before ownerId tokenKind)
        (fun cursor => listMetadata tokens revoked before limit cursor ownerId tokenKind)) ∧
    (∀ (subscriptions : Table (SubscriptionRow.id (γ := γ))) principal limit,
      Complete SubscriptionRow.stamp subscriptions.rows (subscriptionFilter principal)
        (listSubscriptions subscriptions principal limit)) ∧
    (∀ (subscriptions : Table (SubscriptionRow.id (γ := γ)))
        (deliveries : Table (DeliveryRow.id (γ := γ))) principal status after limit,
      Complete DeliveryRow.stamp deliveries.rows (deliveryFilter subscriptions principal status after)
        (listDeliveries subscriptions deliveries principal status after limit)) ∧
    (∀ sortValue ident : String, sortValue ≠ "" → ident ≠ "" →
      (encodeCursor sortValue ident).bind decodeCursor = .ok (sortValue, ident)) ∧
    (∀ value : String,
      (∃ sortValue ident, decodeCursor value = .ok (sortValue, ident) ∧ sortValue ≠ "" ∧
        ident ≠ "") ∨
      decodeCursor value = .error (.valueError "invalid pagination cursor")) := by
  refine ⟨?_, ?_, ?_, ?_, ?_, decode_cases⟩
  · intro jobs principal status before limit
    exact complete_list limit (distinct_stamps jobs (fun _ => rfl)) (fun r _ => r.stamped) rfl
      (fun _ _ => rfl)
  · intro tokens revoked before ownerId tokenKind limit
    exact complete_list limit (distinct_stamps tokens (fun _ => rfl)) (fun r _ => r.stamped) rfl
      (fun _ _ => rfl)
  · intro subscriptions principal limit
    exact complete_list limit (distinct_stamps subscriptions (fun _ => rfl)) (fun r _ => r.stamped)
      rfl (fun _ full => textOf_truthy full)
  · intro subscriptions deliveries principal status after limit
    exact complete_list limit (distinct_stamps deliveries (fun _ => rfl)) (fun r _ => r.stamped)
      rfl (fun _ full => textOf_truthy full)
  · intro sortValue ident timed named
    exact decode_encode timed named

/-- Two jobs of ada, updated at one time. -/
def adasJobs : Table (JobRow.id (γ := Unit)) :=
  ⟨[⟨"a", "ada", "done", "2026-01-02T03:04:05+00:00", (), by decide⟩,
    ⟨"b", "ada", "queued", "2026-01-02T03:04:05+00:00", (), by decide⟩], by decide⟩

/-- A page each. -/
example :
    (listForPrincipal adasJobs "ada" none none 1 none).map (fun page => (page.1.map JobRow.id, page.2)) =
      .ok (["b"], some "WyIyMDI2LTAxLTAyVDAzOjA0OjA1KzAwOjAwIiwiYiJd") ∧
    (listForPrincipal adasJobs "ada" none none 1
      (some "WyIyMDI2LTAxLTAyVDAzOjA0OjA1KzAwOjAwIiwiYiJd")).map (fun page => (page.1.map JobRow.id, page.2)) = .ok (["a"], none) := by
  decide +kernel

end Meemee.Guarantees.Pagination
