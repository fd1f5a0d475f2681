import Meemee.Guarantees.JsonLoading
import Meemee.Guarantees.JsonText
import Meemee.Source.WebhookOutbox

/-!
# Who is queued a webhook event, and what with

A delivery is queued for the subscriptions whose joined events, split again, hold the type, with
the fields that the joined names, split again, spell. That is what the sets of the subscription
say unless white space inside a name, or an empty name, makes a difference.
-/
namespace Meemee.Guarantees.WebhookScope
open Library Library.Words Source Source.Json Source.JsonLoads Library.Table List
open Source.WebhookOutbox Guarantees.JsonLoading
open Source.Sse (utf8)
open Source.Webhooks (WebhookEvent selectFields)

/-- The word is one of those of a name. -/
def Spells (names : List String) (word : String) : Prop := ∃ name ∈ names, word ∈ split name

instance (names : List String) (word : String) : Decidable (Spells names word) :=
  inferInstanceAs (Decidable (∃ name ∈ names, word ∈ split name))

variable {names : List String} {name encoded : String} {fields payload : List (String × Json)}
  {event : WebhookEvent} {subscription : Subscription} {s t : Outbox} {row : Delivery}

theorem mem_split_joined {word : String} : word ∈ split (joined names) ↔ Spells names word := by
  rw [split, joined, String.toList_ofList, words_join (by decide), flatMap_map, map_flatMap,
    mem_flatMap]
  constructor
  · rintro ⟨name, mem, inside⟩
    exact ⟨name, (mem_insertionSort _).mp mem, inside⟩
  · rintro ⟨name, mem, inside⟩
    exact ⟨name, (mem_insertionSort _).mpr mem, inside⟩

/-- A set joins to the empty text when it holds nothing but the empty name. -/
theorem joined_empty (distinct : names.Nodup) : joined names = "" ↔ ∀ name ∈ names, name = "" := by
  have sorted := perm_insertionSort (fun a b : String => a ≤ b) names
  have empty : joined names = "" ↔ names = [] ∨ names = [""] := by
    rw [joined, ← String.toList_inj, String.toList_ofList, String.toList_empty, join_nil_iff]
    simp only [map_eq_nil_iff]
    constructor
    · rintro (none | one)
      · rw [none] at sorted
        exact .inl sorted.symm.eq_nil
      · obtain ⟨name, alone, blank⟩ := map_eq_singleton_iff.mp one
        rw [alone] at sorted
        rw [String.toList_eq_nil_iff.mp blank] at sorted
        exact .inr (perm_singleton.mp sorted.symm)
    · rintro (rfl | rfl)
      · exact .inl rfl
      · exact .inr rfl
  rw [empty]
  constructor
  · rintro (rfl | rfl) <;> simp
  · intro blank
    cases names with
    | nil => exact .inl rfl
    | cons name rest =>
      cases rest with
      | nil => exact .inr (by rw [blank name mem_cons_self])
      | cons next rest =>
        have same : name = next := by
          rw [blank name mem_cons_self,
            blank next (mem_cons_of_mem _ mem_cons_self)]
        rw [same] at distinct
        exact absurd mem_cons_self (nodup_cons.mp distinct).1

variable {field : String × Json} {data first second : List (String × Json)} {kept : String → Prop}
  {rest : List Subscription}

theorem mem_selectFields (distinct : (payload.map Prod.fst).Nodup) :
    field ∈ selectFields names payload ↔ field ∈ payload ∧ field.1 ∈ names := by
  rw [selectFields, mem_filterMap]
  constructor
  · rintro ⟨name, mem, found⟩
    have here : field.1 = name := by simpa using List.find?_some found
    exact ⟨mem_of_find?_eq_some found, here ▸ mem⟩
  · rintro ⟨stored, mem⟩
    refine ⟨field.1, mem, ?_⟩
    cases found : payload.find? (fun f => f.1 = field.1) with
    | none => simpa using List.find?_eq_none.mp found field stored
    | some other =>
      have same : other.1 = field.1 := by simpa using List.find?_some found
      rw [inj_on_of_nodup_map distinct (mem_of_find?_eq_some found) stored same]

/-- A part of a payload: some of its fields, no name twice. -/
structure Part (payload data : List (String × Json)) (kept : String → Prop) : Prop where
  names : (data.map Prod.fst).Nodup
  fields : ∀ field, field ∈ data ↔ field ∈ payload ∧ kept field.1

theorem selected_part (fields : String) (distinct : (payload.map Prod.fst).Nodup) :
    Part payload (selected fields payload) (· ∈ split fields) := by
  have built := foldl_built (selectFields (split fields) payload) [] nodup_nil
  refine ⟨built.names, fun field => ⟨fun mem => ?_, fun here => ?_⟩⟩
  · rcases built.origin field mem with none | chosen
    · cases none
    · exact (mem_selectFields distinct).mp chosen
  · have chosen := (mem_selectFields distinct).mpr here
    obtain ⟨other, stored, same⟩ := mem_map.mp
      ((built.covers field.1).mpr (.inr (mem_map_of_mem chosen)))
    rcases built.origin other stored with none | also
    · cases none
    · rwa [inj_on_of_nodup_map distinct ((mem_selectFields distinct).mp also).1 here.1 same]
        at stored

theorem part_whole (distinct : (payload.map Prod.fst).Nodup) :
    Part payload payload (fun _ => True) := ⟨distinct, fun field => by simp⟩

theorem part_filter (distinct : (payload.map Prod.fst).Nodup) (kept : String → Prop)
    [DecidablePred kept] :
    Part payload (payload.filter (fun field => decide (kept field.1))) kept := by
  refine ⟨(List.Sublist.map Prod.fst filter_sublist).nodup distinct, fun field => ?_⟩
  rw [mem_filter, decide_eq_true_eq]

theorem Part.loadable (part : Part payload data kept) (loadable : Loadable (.obj payload)) :
    Loadable (.obj data) :=
  ⟨part.names, loadableFields_iff.mpr (fun field mem =>
    loadableFields_iff.mp loadable.2 field ((part.fields field).mp mem).1)⟩

theorem sortedNames :
    name ∈ ((sortFields fields).insertionSort byName).map Prod.fst ↔ name ∈ fields.map Prod.fst := by
  rw [((perm_insertionSort byName (sortFields fields)).map Prod.fst).mem_iff, sortFields_names]

/-- Two parts are written as the same object when they keep the same fields. -/
theorem Part.sorted_iff {kept' : String → Prop}
    (part : Part payload first kept) (part' : Part payload second kept') :
    (Json.obj first).sortKeys = (Json.obj second).sortKeys ↔
      ∀ field ∈ payload, kept field.1 ↔ kept' field.1 := by
  have held : ∀ {data : List (String × Json)} {chosen : String → Prop}, Part payload data chosen →
      ∀ field ∈ payload, field.1 ∈ data.map Prod.fst ↔ chosen field.1 := by
    intro data chosen one field stored
    constructor
    · intro mem
      obtain ⟨other, inside, same⟩ := mem_map.mp mem
      exact same ▸ ((one.fields other).mp inside).2
    · intro keeps
      exact mem_map_of_mem ((one.fields field).mpr ⟨stored, keeps⟩)
  constructor
  · intro same field stored
    have order : (sortFields first).insertionSort byName = (sortFields second).insertionSort byName :=
      Json.obj.inj same
    rw [← held part field stored, ← held part' field stored, ← sortedNames, order, sortedNames]
  · intro agree
    have shuffled : first.Perm second := by
      rw [perm_ext_iff_of_nodup (List.Nodup.of_map _ part.names) (List.Nodup.of_map _ part'.names)]
      intro field
      rw [part.fields, part'.fields]
      exact and_congr_right (agree field)
    have sorted : (sortFields first).Perm (sortFields second) := by
      rw [sortFields_eq, sortFields_eq]
      exact shuffled.map _
    have names : ((sortFields first).map Prod.fst).Nodup := by
      rw [sortFields_names]
      exact part.names
    exact congrArg Json.obj (sorted_unique names sorted)

theorem envelope_loadable (event : WebhookEvent) (loadable : Loadable (.obj data)) :
    Loadable (event.envelope data) := by
  refine ⟨by simp, trivial, trivial, trivial, loadable, trivial⟩

theorem data_of_envelope :
    (event.envelope first).sortKeys = (event.envelope second).sortKeys ↔
      (Json.obj first).sortKeys = (Json.obj second).sortKeys := by
  constructor
  · intro same
    have order := Json.obj.inj same
    have data : ("data", (Json.obj first).sortKeys) ∈
        (sortFields [("schema", .str "meemee.webhook.v1"), ("event_id", .str event.eventId),
          ("event_type", .str event.eventType), ("data", .obj first)]).insertionSort byName :=
      (mem_insertionSort _).mpr (by simp [sortFields])
    have there := (mem_insertionSort _).mp ((congrArg (_ ∈ ·) order).mp data)
    simpa [sortFields] using there
  · intro same
    refine congrArg (fun fields => Json.obj (List.insertionSort byName fields)) ?_
    simp only [sortFields, same]

/-- The data that is sent to a subscription. -/
def sentData (subscription : Subscription) (payload : List (String × Json)) :
    List (String × Json) :=
  match subscription.fields with
  | none => payload
  | some fields => if fields.isEmpty then payload else selected fields payload

theorem bodyOf_encodes (whole : event.encode event.payload = .ok encoded) :
    bodyOf event encoded subscription = event.encode (sentData subscription event.payload) := by
  unfold bodyOf sentData
  cases subscription.fields with
  | none => exact whole.symm
  | some fields =>
    dsimp only
    split
    · exact whole.symm
    · rfl

theorem sentData_encodable (distinct : (payload.map Prod.fst).Nodup)
    (encodes : JsonText.fieldsEncodable JsonText.envelopeOptions payload = true) :
    JsonText.fieldsEncodable JsonText.envelopeOptions (sentData subscription payload) = true := by
  unfold sentData
  cases subscription.fields with
  | none => exact encodes
  | some fields =>
    dsimp only
    split
    · exact encodes
    · rw [JsonText.fieldsEncodable_all, all_eq_true] at encodes ⊢
      intro field mem
      exact encodes field (((selected_part fields distinct).fields field).mp mem).1

section Calls

variable (store : WebhookStore)

/-- The row was made for the subscription by a call for the event. -/
def Wrote (event : WebhookEvent) (subscription : Subscription) (row : Delivery) : Prop :=
  ∃ body now, event.encode (sentData subscription event.payload) = .ok body ∧
    row = store.delivery event now subscription body

/-- What queueing an event for some subscriptions does to the rows. -/
structure Queued (event : WebhookEvent) (subscriptions : List Subscription) (before after : Outbox) :
    Prop where
  same : after.subscriptions = before.subscriptions
  kept : ∀ key row, before.deliveries.find key = some row → after.deliveries.find key = some row
  made : ∀ key row, after.deliveries.find key = some row → before.deliveries.find key = some row ∨
    ∃ subscription ∈ subscriptions, subscription.wants event.eventType = true ∧
      Wrote store event subscription row
  held : ∀ subscription ∈ subscriptions, subscription.wants event.eventType = true →
    ∃ row, after.deliveries.find (subscription.id, event.eventId) = some row

theorem Queued.skipped (queued : Queued store event rest s t)
    (unwanted : subscription.wants event.eventType = false) :
    Queued store event (subscription :: rest) s t := by
  refine ⟨queued.same, queued.kept, fun key row found => ?_, fun other mem wanted => ?_⟩
  · rcases queued.made key row found with stored | ⟨other, mem, made⟩
    · exact .inl stored
    · exact .inr ⟨other, mem_cons_of_mem _ mem, made⟩
  · rcases mem_cons.mp mem with rfl | later
    · rw [unwanted] at wanted
      cases wanted
    · exact queued.held other later wanted

theorem Queued.inserted (wrote : Wrote store event subscription row)
    (wanted : subscription.wants event.eventType = true)
    (queued : Queued store event rest
      { s with deliveries := (s.deliveries.insertOrIgnore row).1 } t) :
    Queued store event (subscription :: rest) s t := by
  have place : row.key = (subscription.id, event.eventId) := by
    obtain ⟨body, now, -, rfl⟩ := wrote
    rfl
  have first : ∃ there, t.deliveries.find (subscription.id, event.eventId) = some there := by
    rw [← place]
    cases before : s.deliveries.find row.key with
    | none =>
      refine ⟨row, queued.kept _ _ ?_⟩
      rw [find_inserted before, if_pos rfl]
    | some other =>
      refine ⟨other, queued.kept _ _ ?_⟩
      rw [insertOrIgnore_conflict before]
      exact before
  refine ⟨queued.same, fun key other found => queued.kept key other ?_, fun key other found => ?_,
    fun other mem wanted => ?_⟩
  · cases before : s.deliveries.find row.key with
    | none =>
      rw [find_inserted before]
      split
      next here =>
        rw [here, found] at before
        cases before
      next => exact found
    | some there => rwa [insertOrIgnore_conflict before]
  · rcases queued.made key other found with stored | ⟨chosen, mem, made⟩
    · cases before : s.deliveries.find row.key with
      | none =>
        rw [find_inserted before] at stored
        split at stored
        next =>
          cases stored
          exact .inr ⟨subscription, mem_cons_self, wanted, wrote⟩
        next => exact .inl stored
      | some there =>
        rw [insertOrIgnore_conflict before] at stored
        exact .inl stored
    · exact .inr ⟨chosen, mem_cons_of_mem _ mem, made⟩
  · rcases mem_cons.mp mem with rfl | later
    · exact first
    · exact queued.held other later wanted

theorem deliverAll_queues (now : Instant) (distinct : (event.payload.map Prod.fst).Nodup)
    (whole : event.encode event.payload = .ok encoded)
    (encodes : JsonText.fieldsEncodable JsonText.envelopeOptions event.payload = true)
    (subscriptions : List Subscription) : ∀ s : Outbox, ∃ count t,
      store.deliverAll event encoded now subscriptions s = (.ok count, t) ∧
        Queued store event subscriptions s t := by
  induction subscriptions with
  | nil => exact fun s => ⟨0, s, rfl, rfl, fun _ _ => id, fun _ _ => .inl, nofun⟩
  | cons subscription rest ih =>
    intro s
    cases wanted : subscription.wants event.eventType with
    | false =>
      obtain ⟨count, t, done, queued⟩ := ih s
      refine ⟨count, t, ?_, queued.skipped store wanted⟩
      rw [WebhookStore.deliverAll, wanted]
      exact done
    | true =>
      obtain ⟨body, written⟩ : ∃ body,
          event.encode (sentData subscription event.payload) = .ok body := by
        have answers := JsonText.event_answers event (sentData subscription event.payload)
        cases written : event.encode (sentData subscription event.payload) with
        | ok body => exact ⟨body, rfl⟩
        | error e =>
          rw [written, sentData_encodable distinct encodes] at answers
          cases answers.1
      let row := store.delivery event now subscription body
      obtain ⟨count, t, done, queued⟩ := ih
        { s with deliveries := (s.deliveries.insertOrIgnore row).1 }
      refine ⟨count + if (s.deliveries.insertOrIgnore row).2 then 1 else 0, t, ?_,
        queued.inserted store ⟨body, now, written, rfl⟩ wanted⟩
      have text : bodyOf event encoded subscription = .ok body := (bodyOf_encodes whole).trans written
      rw [WebhookStore.deliverAll, wanted, if_neg (by decide), text,
        Txn.run_bind_ok (Txn.run_ofExcept _ _), Txn.run_bind_read, Txn.run_bind_write,
        Txn.run_bind_ok done]
      rfl

/-- The subscriptions that `enqueue` selects. -/
def chosen (s : Outbox) (event : WebhookEvent) : List Subscription :=
  s.subscriptions.select (fun r => r.active && decide (r.principal = event.principal))

/-- An event within bounds is queued for the active subscriptions of its owner. -/
theorem enqueue_queues (now : Instant) (distinct : (event.payload.map Prod.fst).Nodup)
    (accepted : event.checked store.maxPayloadBytes = .ok encoded) (s : Outbox) :
    Queued store event (chosen s event) s (store.enqueue event now s).2 := by
  obtain ⟨text, whole, rest⟩ := except_bind_returned accepted
  have same : text = encoded := by
    split at rest
    · cases rest
    · exact Except.ok.inj rest
  obtain ⟨count, t, done, queued⟩ := deliverAll_queues store now distinct (same ▸ whole)
    (JsonText.checked_ok accepted) (chosen s event) s
  have run : store.enqueue event now s = (.ok count, t) := by
    unfold WebhookStore.enqueue
    rw [accepted, Txn.run_bind_ok (Txn.run_ofExcept _ _), Txn.atomically_ok]
    exact done
  rw [run]
  exact queued

theorem enqueue_refused {e : Exc} (now : Instant)
    (refused : event.checked store.maxPayloadBytes = .error e) (s : Outbox) :
    store.enqueue event now s = (.error e, s) := by
  unfold WebhookStore.enqueue
  rw [refused, Txn.run_bind_error (Txn.run_ofExcept _ _)]

/-- The rows for an event, after some calls: each was made for a subscription that wanted it. -/
structure Progress (s : Outbox) (event : WebhookEvent) (t : Outbox) : Prop where
  same : t.subscriptions = s.subscriptions
  made : ∀ row ∈ t.deliveries, row.eventId = event.eventId →
    ∃ subscription ∈ chosen s event, subscription.wants event.eventType = true ∧
      Wrote store event subscription row

variable {store}

theorem Wrote.key (wrote : Wrote store event subscription row) :
    row.subscriptionId = subscription.id ∧ row.eventId = event.eventId := by
  obtain ⟨body, now, -, rfl⟩ := wrote
  exact ⟨rfl, rfl⟩

theorem Progress.call {other : WebhookEvent} (progress : Progress store s event t) (now : Instant)
    (distinct : (other.payload.map Prod.fst).Nodup)
    (repeated : other.eventId = event.eventId → other = event) :
    Progress store s event (store.enqueue other now t).2 := by
  cases accepted : other.checked store.maxPayloadBytes with
  | error e =>
    rw [enqueue_refused store now accepted]
    exact progress
  | ok encoded =>
    have queued := enqueue_queues store now distinct accepted t
    refine ⟨queued.same.trans progress.same, fun row mem ofEvent => ?_⟩
    rcases queued.made row.key row (find_of_mem mem) with stored | ⟨subscription, among, wanted, wrote⟩
    · exact progress.made row (mem_of_find stored) ofEvent
    · have equal := repeated (wrote.key.2.symm.trans ofEvent)
      have listed : chosen t event = chosen s event := by rw [chosen, progress.same, chosen]
      rw [equal] at among wanted wrote
      exact ⟨subscription, listed ▸ among, wanted, wrote⟩

theorem Progress.calls (calls : List (WebhookEvent × Instant))
    (distinct : ∀ call ∈ calls, (call.1.payload.map Prod.fst).Nodup)
    (repeated : ∀ call ∈ calls, call.1.eventId = event.eventId → call.1 = event) :
    ∀ t, Progress store s event t → Progress store s event (store.enqueueAll t calls) := by
  induction calls with
  | nil => exact fun _ progress => progress
  | cons call rest ih =>
    intro t progress
    exact ih (fun other mem => distinct other (mem_cons_of_mem _ mem))
      (fun other mem => repeated other (mem_cons_of_mem _ mem)) _
      (progress.call call.2 (distinct call mem_cons_self) (repeated call mem_cons_self))

theorem enqueue_keeps (call : WebhookEvent × Instant)
    (distinct : (call.1.payload.map Prod.fst).Nodup) {key : String × String}
    (found : t.deliveries.find key = some row) :
    (store.enqueue call.1 call.2 t).2.deliveries.find key = some row := by
  cases accepted : call.1.checked store.maxPayloadBytes with
  | error e =>
    rw [enqueue_refused store call.2 accepted]
    exact found
  | ok encoded => exact (enqueue_queues store call.2 distinct accepted t).kept key row found

theorem enqueueAll_keeps {key : String × String} (calls : List (WebhookEvent × Instant))
    (distinct : ∀ call ∈ calls, (call.1.payload.map Prod.fst).Nodup) :
    ∀ t, t.deliveries.find key = some row →
      (store.enqueueAll t calls).deliveries.find key = some row := by
  induction calls with
  | nil => exact fun _ found => found
  | cons call rest ih =>
    intro t found
    exact ih (fun other mem => distinct other (mem_cons_of_mem _ mem)) _
      (enqueue_keeps call (distinct call mem_cons_self) found)

theorem enqueueAll_held {now : Instant}
    (accepted : event.checked store.maxPayloadBytes = .ok encoded)
    (calls : List (WebhookEvent × Instant))
    (distinct : ∀ call ∈ calls, (call.1.payload.map Prod.fst).Nodup)
    (repeated : ∀ call ∈ calls, call.1.eventId = event.eventId → call.1 = event)
    (called : (event, now) ∈ calls) : ∀ t, Progress store s event t →
      ∀ subscription ∈ chosen s event, subscription.wants event.eventType = true →
        ∃ row, (store.enqueueAll t calls).deliveries.find (subscription.id, event.eventId) = some row := by
  induction calls with
  | nil => cases called
  | cons call rest ih =>
    intro t progress subscription among wanted
    have later := fun other mem => distinct other (mem_cons_of_mem call mem)
    rcases mem_cons.mp called with rfl | again
    · have listed : chosen t event = chosen s event := by rw [chosen, progress.same, chosen]
      have queued := enqueue_queues store now (distinct _ mem_cons_self) accepted t
      obtain ⟨row, found⟩ := queued.held subscription (listed ▸ among) wanted
      exact ⟨row, enqueueAll_keeps rest later _ found⟩
    · exact ih later (fun other mem => repeated other (mem_cons_of_mem _ mem)) again _
        (progress.call call.2 (distinct call mem_cons_self) (repeated call mem_cons_self))
        subscription among wanted

end Calls

end Meemee.Guarantees.WebhookScope
