import Meemee.Source.Webhooks

/-!
# When json.dumps raises, and when the outbox does

A value is encodable under options when every leaf of it is. Sorting the keys and
selecting fields change no leaf, so a webhook event whose whole payload is encoded can
be encoded for every subscription, and `enqueue` raises only what `checked` raises.
-/
namespace Meemee.Guarantees.JsonText
open Library Source Source.Json Source.Webhooks

def floatEncodable (options : DumpOptions) : JsonFloat → Bool
  | .finite _ => true
  | _ => options.allowNan

mutual

def encodable (options : DumpOptions) : Json → Bool
  | .float value => floatEncodable options value
  | .arr items => itemsEncodable options items
  | .obj fields => fieldsEncodable options fields
  | .object _ => options.defaultStr
  | _ => true

def itemsEncodable (options : DumpOptions) : List Json → Bool
  | [] => true
  | item :: rest => encodable options item && itemsEncodable options rest

def fieldsEncodable (options : DumpOptions) : List (String × Json) → Bool
  | [] => true
  | (_, value) :: rest => encodable options value && fieldsEncodable options rest

end

/-- The text of what is encodable; a `ValueError` only for a float; else a `TypeError`. -/
def Answers (options : DumpOptions) (encodes plain : Bool) {α : Type} : Except Exc α → Prop
  | .ok _ => encodes = true
  | .error e => encodes = false ∧
      ((options.allowNan = false ∧ ∃ text, e = .valueError text) ∨
        (plain = false ∧ ∃ text, e = .typeError text))

variable {options : DumpOptions} {e : Exc} {event : WebhookEvent} {limit : Nat}

theorem answers_map {encodes plain : Bool} {α β : Type} {result : Except Exc α}
    (answers : Answers options encodes plain result) (f : α → β) :
    Answers options encodes plain (result >>= fun a => pure (f a)) := by
  cases result with
  | ok a => exact answers
  | error e => exact answers

theorem answers_cons {encodes plain encodes' plain' : Bool} {α β γ : Type} {head : Except Exc α}
    {rest : Except Exc β} (first : Answers options encodes plain head)
    (others : Answers options encodes' plain' rest) (f : α → β → γ) :
    Answers options (encodes && encodes') (plain && plain')
      (head >>= fun a => rest >>= fun b => pure (f a b)) := by
  cases head with
  | error e =>
    obtain ⟨failed, why⟩ := first
    refine ⟨by rw [failed, Bool.false_and], why.imp_right ?_⟩
    rintro ⟨unplain, text⟩
    exact ⟨by rw [unplain, Bool.false_and], text⟩
  | ok a =>
    subst encodes
    cases rest with
    | error e =>
      obtain ⟨failed, why⟩ := others
      refine ⟨by rw [failed, Bool.and_false], why.imp_right ?_⟩
      rintro ⟨unplain, text⟩
      exact ⟨by rw [unplain, Bool.and_false], text⟩
    | ok b => exact others

theorem floatText_answers (options : DumpOptions) (value : JsonFloat) :
    Answers options (floatEncodable options value) true (floatText options.allowNan value) := by
  cases value with
  | finite repr => rfl
  | nan =>
    cases allowed : options.allowNan with
    | true => exact allowed
    | false => exact ⟨allowed, .inl ⟨allowed, _, rfl⟩⟩
  | infinity negative =>
    cases allowed : options.allowNan with
    | true => exact allowed
    | false => exact ⟨allowed, .inl ⟨allowed, _, rfl⟩⟩

mutual

theorem encode_answers (options : DumpOptions) : ∀ value : Json,
    Answers options (encodable options value) (encodable {} value) (encode options value)
  | .null | .bool _ | .int _ | .str _ => rfl
  | .float value => by
    cases value with
    | finite repr => rfl
    | nan => exact floatText_answers options .nan
    | infinity negative => exact floatText_answers options (.infinity negative)
  | .arr items => answers_map (encodeItems_answers options items) _
  | .obj fields => answers_map (encodeFields_answers options fields) _
  | .object text => by
    unfold encode encodable
    cases options.defaultStr with
    | true => rfl
    | false => exact ⟨rfl, .inr ⟨rfl, _, rfl⟩⟩

theorem encodeItems_answers (options : DumpOptions) : ∀ items : List Json,
    Answers options (itemsEncodable options items) (itemsEncodable {} items)
      (encodeItems options items)
  | [] => rfl
  | item :: rest =>
    answers_cons (encode_answers options item) (encodeItems_answers options rest) _

theorem encodeFields_answers (options : DumpOptions) : ∀ fields : List (String × Json),
    Answers options (fieldsEncodable options fields) (fieldsEncodable {} fields)
      (encodeFields options fields)
  | [] => rfl
  | (_, value) :: rest =>
    answers_cons (encode_answers options value) (encodeFields_answers options rest) _

end

theorem fieldsEncodable_all (options : DumpOptions) (fields : List (String × Json)) :
    fieldsEncodable options fields = fields.all (fun f => encodable options f.2) := by
  induction fields with
  | nil => rfl
  | cons field rest ih => rw [fieldsEncodable, List.all_cons, ih]

mutual

theorem encodable_sortKeys (options : DumpOptions) : ∀ value : Json,
    encodable options value.sortKeys = encodable options value
  | .null | .bool _ | .int _ | .str _ | .float _ | .object _ => rfl
  | .arr items => itemsEncodable_sort options items
  | .obj fields => by
    have sorted := List.Perm.all_eq (f := fun f : String × Json => encodable options f.2)
      (List.perm_insertionSort (fun a b : String × Json => a.1 ≤ b.1) (sortFields fields))
    rw [sortKeys, encodable, fieldsEncodable_all, sorted, ← fieldsEncodable_all,
      fieldsEncodable_sort options fields, encodable]

theorem itemsEncodable_sort (options : DumpOptions) : ∀ items : List Json,
    itemsEncodable options (sortItems items) = itemsEncodable options items
  | [] => rfl
  | item :: rest => by
    rw [sortItems, itemsEncodable, encodable_sortKeys options item,
      itemsEncodable_sort options rest, itemsEncodable]

theorem fieldsEncodable_sort (options : DumpOptions) : ∀ fields : List (String × Json),
    fieldsEncodable options (sortFields fields) = fieldsEncodable options fields
  | [] => rfl
  | (_, value) :: rest => by
    rw [sortFields, fieldsEncodable, encodable_sortKeys options value,
      fieldsEncodable_sort options rest, fieldsEncodable]

end

theorem dumps_answers (options : DumpOptions) (value : Json) :
    Answers options (encodable options value) (encodable {} value) (dumps options value) := by
  unfold dumps
  cases options.sortKeys with
  | false => exact encode_answers options value
  | true =>
    have answers := encode_answers options value.sortKeys
    rwa [encodable_sortKeys, encodable_sortKeys] at answers

theorem dumps_plain_error {value : Json} (raised : dumps {} value = .error e) :
    ∃ text, e = .typeError text := by
  have answers := dumps_answers {} value
  rw [raised] at answers
  obtain ⟨-, strict | unplain⟩ := answers
  · cases strict.1
  · exact unplain.2

def envelopeOptions : DumpOptions := { sortKeys := true, compact := true, allowNan := false }

theorem event_answers (event : WebhookEvent) (data : List (String × Json)) :
    Answers envelopeOptions (fieldsEncodable envelopeOptions data) (fieldsEncodable {} data)
      (event.encode data) := by
  have answers := dumps_answers envelopeOptions (event.envelope data)
  have shape : ∀ options, encodable options (event.envelope data) = fieldsEncodable options data := by
    intro options
    simp only [WebhookEvent.envelope, encodable, fieldsEncodable, Bool.true_and, Bool.and_true]
  rwa [shape, shape] at answers

theorem select_encodable {fields : List String} {payload : List (String × Json)}
    (encodes : fieldsEncodable options payload = true) :
    fieldsEncodable options (selectFields fields payload) = true := by
  rw [fieldsEncodable_all, List.all_eq_true] at encodes ⊢
  intro field mem
  obtain ⟨name, -, found⟩ := List.mem_filterMap.mp mem
  exact encodes field (List.mem_of_find?_eq_some found)

theorem deliverAll_returns (encoded : String) (now : Instant)
    (encodes : fieldsEncodable envelopeOptions event.payload = true)
    (subscriptions : List Subscription) (s : Outbox) :
    ∃ count t, deliverAll event encoded now subscriptions s = (.ok count, t) := by
  induction subscriptions generalizing s with
  | nil => exact ⟨0, s, rfl⟩
  | cons subscription rest ih =>
    unfold deliverAll
    split
    next => exact ih s
    next =>
      have body : ∃ text, (if subscription.fields.isEmpty then .ok encoded
          else event.encode (selectFields subscription.fields event.payload)) = .ok text := by
        split
        next => exact ⟨encoded, rfl⟩
        next =>
          have answers := event_answers event (selectFields subscription.fields event.payload)
          cases written : event.encode (selectFields subscription.fields event.payload) with
          | ok text => exact ⟨text, rfl⟩
          | error e =>
            rw [written, select_encodable encodes] at answers
            cases answers.1
      obtain ⟨text, written⟩ := body
      rw [written, Txn.run_bind_ok (Txn.run_ofExcept _ _)]
      let queued := s.deliveries.insertOrIgnore
        ⟨subscription.id, event.eventId, event.eventType, text, "queued", now⟩
      obtain ⟨count, t, done⟩ := ih { s with deliveries := queued.1 }
      refine ⟨count + if queued.2 then 1 else 0, t, ?_⟩
      rw [Txn.run_bind_read, Txn.run_bind_write, Txn.run_bind_ok done]
      rfl

theorem checked_ok {encoded : String} (checked : event.checked limit = .ok encoded) :
    fieldsEncodable envelopeOptions event.payload = true := by
  obtain ⟨text, written, -⟩ := except_bind_returned checked
  have answers := event_answers event event.payload
  rwa [written] at answers

theorem checked_error (plain : fieldsEncodable {} event.payload = true)
    (raised : event.checked limit = .error e) : ∃ text, e = .valueError text := by
  have answers := event_answers event event.payload
  unfold WebhookEvent.checked at raised
  cases written : event.encode event.payload with
  | error e' =>
    rw [written] at answers raised
    cases raised
    obtain ⟨-, strict | unplain⟩ := answers
    · exact strict.2
    · rw [plain] at unplain
      cases unplain.1
  | ok text =>
    rw [written] at raised
    simp only [bind, Except.bind] at raised
    split at raised
    · cases raised
      exact ⟨_, rfl⟩
    · cases raised

theorem enqueue_returns {encoded : String} (checked : event.checked limit = .ok encoded)
    (now : Instant) (s : Outbox) : ∃ count t, enqueue limit event now s = (.ok count, t) := by
  obtain ⟨count, t, done⟩ := deliverAll_returns encoded now (checked_ok checked)
    (s.subscriptions.select (fun r => r.active && decide (r.principal = event.principal))) s
  refine ⟨count, t, ?_⟩
  unfold enqueue
  rw [checked, Txn.run_bind_ok (Txn.run_ofExcept _ _), Txn.atomically_ok]
  exact done

theorem enqueue_raises (refused : event.checked limit = .error e) (now : Instant) (s : Outbox) :
    enqueue limit event now s = (.error e, s) := by
  unfold enqueue
  rw [refused, Txn.run_bind_error (Txn.run_ofExcept _ _)]

end Meemee.Guarantees.JsonText
