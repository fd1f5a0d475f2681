import Meemee.Guarantees.WebhookScope

/-!
# Exactly the subscriptions that want an event

After any number of calls, the deliveries of an event are those of the active subscriptions of its
owner that selected its type, each with the selected fields, when no white space inside a name and no
empty name tells otherwise.
-/
namespace Meemee.Guarantees.WebhookEnqueue
open Library Source Source.JsonLoads Source.WebhookOutbox List
open Guarantees.JsonLoading (Loadable sorted_loaded)
open Guarantees.WebhookScope
open Source.Sse (utf8)
open Source.Webhooks (WebhookEvent)

/-- The set of events holds the type or `*`. -/
def Selects (r : Registration) (eventType : String) : Prop :=
  eventType ∈ r.events ∨ "*" ∈ r.events

/-- The field is selected; all are when none is named. -/
def Keeps (r : Registration) (key : String) : Prop := r.fields = [] ∨ key ∈ r.fields

instance (r : Registration) : DecidablePred (Selects r) :=
  fun eventType => inferInstanceAs (Decidable (eventType ∈ r.events ∨ "*" ∈ r.events))

instance (r : Registration) : DecidablePred (Keeps r) :=
  fun key => inferInstanceAs (Decidable (r.fields = [] ∨ key ∈ r.fields))

def restrict (r : Registration) (payload : List (String × Json)) : List (String × Json) :=
  payload.filter (fun field => decide (Keeps r field.1))

/-- The subscription is one the event is for. -/
def For (event : WebhookEvent) (r : Registration) : Prop :=
  r.active = true ∧ r.principal = event.principal ∧ Selects r event.eventType

/-- The deliveries of the event are exactly those that were asked for. -/
structure Exact (store : WebhookStore) (registrations : List Registration) (event : WebhookEvent)
    (t : Outbox) : Prop where
  held : ∀ r ∈ registrations, For event r →
    ∃! row, row ∈ t.deliveries ∧ row.subscriptionId = r.id ∧ row.eventId = event.eventId
  nobody : ∀ row ∈ t.deliveries, row.eventId = event.eventId →
    ∃ r ∈ registrations, r.id = row.subscriptionId ∧ For event r
  digests : ∀ row ∈ t.deliveries, row.eventId = event.eventId →
    row.payloadSha256 = store.sha256 (utf8 row.payload)
  bodies : ∀ row ∈ t.deliveries, row.eventId = event.eventId →
    ∀ r ∈ registrations, r.id = row.subscriptionId →
      loads row.payload = some (event.envelope (restrict r event.payload)).sortKeys

def Hears (r : Registration) (eventType : String) : Prop :=
  Spells r.events eventType ∨ Spells r.events "*"

def Sends (r : Registration) (key : String) : Prop :=
  (∀ name ∈ r.fields, name = "") ∨ Spells r.fields key

/-- White space inside a name and empty names make no difference to the event. -/
def Faithful (event : WebhookEvent) (r : Registration) : Prop :=
  (Hears r event.eventType ↔ Selects r event.eventType) ∧
    (Selects r event.eventType → ∀ field ∈ event.payload, Sends r field.1 ↔ Keeps r field.1)

instance (event : WebhookEvent) : DecidablePred (Faithful event) := fun r =>
  inferInstanceAs (Decidable (((Spells r.events event.eventType ∨ Spells r.events "*") ↔
    Selects r event.eventType) ∧ (Selects r event.eventType → ∀ field ∈ event.payload,
      ((∀ name ∈ r.fields, name = "") ∨ Spells r.fields field.1) ↔ Keeps r field.1)))

variable {r : Registration} {event : WebhookEvent}

theorem wants_iff (r : Registration) (eventType : String) :
    r.row.wants eventType = true ↔ Hears r eventType := by
  simp only [Subscription.wants, Registration.row, Bool.or_eq_true, contains_iff_mem,
    mem_split_joined, Hears]

theorem sent_part (r : Registration) {payload : List (String × Json)}
    (distinct : (payload.map Prod.fst).Nodup) :
    ∃ kept : String → Prop, Part payload (sentData r.row payload) kept ∧ ∀ key, kept key ↔ Sends r key := by
  unfold sentData
  simp only [Registration.row, storedFields]
  by_cases blank : joined r.fields = ""
  · rw [if_pos blank]
    exact ⟨_, part_whole distinct, fun key =>
      ⟨fun _ => .inl ((joined_empty r.fieldsSet).mp blank), fun _ => trivial⟩⟩
  · rw [if_neg blank]
    have filled : (joined r.fields).isEmpty = false := by
      rw [Bool.eq_false_iff]
      exact fun none => blank (String.isEmpty_iff.mp none)
    simp only [filled]
    refine ⟨_, selected_part _ distinct, fun key => ?_⟩
    rw [mem_split_joined]
    constructor
    · exact .inr
    · rintro (none | spelled)
      · exact absurd ((joined_empty r.fieldsSet).mpr none) blank
      · exact spelled

theorem row_of_wrote {store : WebhookStore} {row : Delivery}
    (payload : Loadable (.obj event.payload)) (wrote : Wrote store event r.row row) :
    row.payloadSha256 = store.sha256 (utf8 row.payload) ∧
      loads row.payload = some (event.envelope (sentData r.row event.payload)).sortKeys := by
  obtain ⟨body, now, written, rfl⟩ := wrote
  obtain ⟨kept, part, -⟩ := sent_part r payload.1
  exact ⟨rfl, sorted_loaded (envelope_loadable event (part.loadable payload)) rfl written⟩

theorem sent_restricted (payload : Loadable (.obj event.payload)) :
    (event.envelope (sentData r.row event.payload)).sortKeys =
        (event.envelope (restrict r event.payload)).sortKeys ↔
      ∀ field ∈ event.payload, Sends r field.1 ↔ Keeps r field.1 := by
  obtain ⟨kept, part, spelled⟩ := sent_part r payload.1
  rw [data_of_envelope, restrict, part.sorted_iff (part_filter payload.1 (Keeps r))]
  simp only [spelled]

section Rows

variable {store : WebhookStore} {s : Outbox} {registrations : List Registration}
  (stored : s.subscriptions.rows = registrations.map Registration.row)
include stored

theorem mem_chosen {subscription : Subscription} :
    subscription ∈ chosen s event ↔
      ∃ r ∈ registrations, r.active = true ∧ r.principal = event.principal ∧ r.row = subscription := by
  rw [chosen, Table.select, stored, mem_filter, mem_map]
  constructor
  · rintro ⟨⟨r, mem, rfl⟩, here⟩
    obtain ⟨active, owned⟩ := Bool.and_eq_true_iff.mp here
    exact ⟨r, mem, active, of_decide_eq_true owned, rfl⟩
  · rintro ⟨r, mem, active, owned, rfl⟩
    refine ⟨⟨r, mem, rfl⟩, ?_⟩
    simp only [Registration.row, active, owned, decide_true, Bool.and_self]

theorem same_registration {other : Registration} (mem : r ∈ registrations)
    (member' : other ∈ registrations) (same : r.id = other.id) : r = other := by
  have unique : (registrations.map Registration.id).Nodup := by
    have rows := s.subscriptions.unique
    rwa [stored, map_map] at rows
  exact inj_on_of_nodup_map unique mem member' same

theorem exact_of_faithful {t : Outbox} (payload : Loadable (.obj event.payload))
    (progress : Progress store s event t)
    (held : ∀ subscription ∈ chosen s event, subscription.wants event.eventType = true →
      ∃ row, t.deliveries.find (subscription.id, event.eventId) = some row)
    (faithful : ∀ r ∈ registrations, r.active = true → r.principal = event.principal →
      Faithful event r) : Exact store registrations event t := by
  have origin : ∀ row ∈ t.deliveries, row.eventId = event.eventId →
      ∃ r ∈ registrations, For event r ∧ r.id = row.subscriptionId ∧ Wrote store event r.row row := by
    intro row mem ofEvent
    obtain ⟨subscription, among, wanted, wrote⟩ := progress.made row mem ofEvent
    obtain ⟨r, listed, active, owned, rfl⟩ := (mem_chosen stored).mp among
    exact ⟨r, listed, ⟨active, owned, (faithful r listed active owned).1.mp ((wants_iff r _).mp wanted)⟩,
      wrote.key.1.symm, wrote⟩
  refine ⟨fun r listed wanted => ?_, fun row mem ofEvent => ?_, fun row mem ofEvent => ?_,
    fun row mem ofEvent r listed same => ?_⟩
  · have hears := (faithful r listed wanted.1 wanted.2.1).1.mpr wanted.2.2
    obtain ⟨row, found⟩ := held r.row
      ((mem_chosen stored).mpr ⟨r, listed, wanted.1, wanted.2.1, rfl⟩) ((wants_iff r _).mpr hears)
    have key := Table.key_of_find found
    refine ⟨row, ⟨Table.mem_of_find found, congrArg Prod.fst key, congrArg Prod.snd key⟩, ?_⟩
    rintro other ⟨mem, sub, ofEvent⟩
    have place : other.key = (r.row.id, event.eventId) := by rw [Delivery.key, sub, ofEvent]; rfl
    exact Option.some.inj ((Table.find_of_mem mem).symm.trans (place ▸ found))
  · obtain ⟨r, listed, wanted, same, -⟩ := origin row mem ofEvent
    exact ⟨r, listed, same, wanted⟩
  · obtain ⟨r, -, -, -, wrote⟩ := origin row mem ofEvent
    exact (row_of_wrote payload wrote).1
  · obtain ⟨other, listed', wanted, same', wrote⟩ := origin row mem ofEvent
    cases same_registration stored listed' listed (same'.trans same.symm)
    have fields := (faithful r listed wanted.1 wanted.2.1).2 wanted.2.2
    rw [(row_of_wrote payload wrote).2, (sent_restricted payload).mpr fields]

/-- Where exactly what was asked for is queued, the active subscriptions are faithful. -/
theorem faithful_of_exact {t : Outbox} (payload : Loadable (.obj event.payload))
    (progress : Progress store s event t)
    (held : ∀ subscription ∈ chosen s event, subscription.wants event.eventType = true →
      ∃ row, t.deliveries.find (subscription.id, event.eventId) = some row)
    (asked : Exact store registrations event t) (listed : r ∈ registrations)
    (active : r.active = true) (owned : r.principal = event.principal) : Faithful event r := by
  have among := (mem_chosen stored).mpr ⟨r, listed, active, owned, rfl⟩
  refine ⟨⟨fun hears => ?_, fun selects => ?_⟩, fun selects => ?_⟩
  · obtain ⟨row, found⟩ := held r.row among ((wants_iff r _).mpr hears)
    have key := Table.key_of_find found
    obtain ⟨other, listed', same, wanted⟩ :=
      asked.nobody row (Table.mem_of_find found) (congrArg Prod.snd key)
    cases same_registration stored listed' listed (same.trans (congrArg Prod.fst key))
    exact wanted.2.2
  · obtain ⟨row, ⟨mem, sub, ofEvent⟩, -⟩ := asked.held r listed ⟨active, owned, selects⟩
    obtain ⟨subscription, among', wanted, wrote⟩ := progress.made row mem ofEvent
    obtain ⟨other, listed', -, -, rfl⟩ := (mem_chosen stored).mp among'
    cases same_registration stored listed' listed (wrote.key.1.symm.trans sub)
    exact (wants_iff r _).mp wanted
  · obtain ⟨row, ⟨mem, sub, ofEvent⟩, -⟩ := asked.held r listed ⟨active, owned, selects⟩
    obtain ⟨subscription, among', wanted, wrote⟩ := progress.made row mem ofEvent
    obtain ⟨other, listed', -, -, rfl⟩ := (mem_chosen stored).mp among'
    cases same_registration stored listed' listed (wrote.key.1.symm.trans sub)
    have body := asked.bodies row mem ofEvent r listed sub.symm
    rw [(row_of_wrote payload wrote).2] at body
    exact (sent_restricted payload).mp (Option.some.inj body)

end Rows

/-- After calls that enqueue the event at least once, its deliveries are exactly what the
subscriptions asked for if and only if the active ones of its owner are faithful. -/
theorem queued_exactly_iff (store : WebhookStore) (s : Outbox) (registrations : List Registration)
    (stored : s.subscriptions.rows = registrations.map Registration.row) (event : WebhookEvent)
    (payload : Loadable (.obj event.payload)) (encoded : String)
    (accepted : event.checked store.maxPayloadBytes = .ok encoded)
    (fresh : ∀ row ∈ s.deliveries, row.eventId ≠ event.eventId)
    (calls : List (WebhookEvent × Instant)) (called : ∃ now, (event, now) ∈ calls)
    (dictionaries : ∀ call ∈ calls, (call.1.payload.map Prod.fst).Nodup)
    (repeated : ∀ call ∈ calls, call.1.eventId = event.eventId → call.1 = event) :
    Exact store registrations event (store.enqueueAll s calls) ↔
      ∀ r ∈ registrations, r.active = true → r.principal = event.principal → Faithful event r := by
  obtain ⟨now, among⟩ := called
  have start : Progress store s event s :=
    ⟨rfl, fun row member ofEvent => absurd ofEvent (fresh row member)⟩
  have progress := Progress.calls calls dictionaries repeated s start
  have held := enqueueAll_held accepted calls dictionaries repeated among s start
  exact ⟨fun asked r listed active owned =>
    faithful_of_exact stored payload progress held asked listed active owned,
    exact_of_faithful stored payload progress held⟩

def sampleEvent : WebhookEvent :=
  { eventId := "job:1:done", eventType := "job.done",
    payload := [("job_id", .str "1"), ("status", .str "done")], principal := "ada" }

theorem sample_loadable : Loadable (.obj sampleEvent.payload) :=
  ⟨by decide, trivial, trivial, trivial⟩

/-- A subscription of the sample's owner to everything, with one field selected. -/
def selecting (field : String) : Registration :=
  { id := "w1", principal := "ada", events := ["*"], fields := [field], active := true,
    eventsSet := nodup_singleton _, fieldsSet := nodup_singleton _ }

def outboxOf (r : Registration) : Outbox := ⟨Table.empty.replace r.row, Table.empty⟩

/-- The digest of the one body the sample sends. -/
def sampleStore : WebhookStore :=
  ⟨256000, fun _ => "b0db934a56c1b347f8019654b1303c1954e19ebb00845ac42fdf6f6225dd53a0"⟩

def sampleEncoded : String :=
  "\x7b\"data\":\x7b\"job_id\":\"1\",\"status\":\"done\"\x7d,\"event_id\":\"job:1:done\"," ++
    "\"event_type\":\"job.done\",\"schema\":\"meemee.webhook.v1\"\x7d"

theorem sample_encoding : sampleEvent.checked sampleStore.maxPayloadBytes = .ok sampleEncoded := by
  decide +kernel

theorem sample_fresh (r : Registration) :
    ∀ row ∈ (outboxOf r).deliveries, row.eventId ≠ sampleEvent.eventId :=
  nofun

theorem sample_rows (r : Registration) :
    (outboxOf r).subscriptions.rows = [r].map Registration.row := rfl

/-- The event of the sample, enqueued twice. -/
def sampleCalls : List (WebhookEvent × Instant) := [(sampleEvent, 0), (sampleEvent, seconds 60)]

theorem sample_repeated : ∀ call ∈ sampleCalls, call.1 = sampleEvent := by
  intro call mem
  rcases mem_cons.mp mem with rfl | later
  · rfl
  · rw [mem_singleton.mp later]

theorem sample_dictionaries : ∀ call ∈ sampleCalls, (call.1.payload.map Prod.fst).Nodup := by
  intro call mem
  rw [sample_repeated call mem]
  exact sample_loadable.1

/-- A subscription that selects `job_id` is queued that field, once. -/
theorem selected_field_queued : Exact sampleStore [selecting "job_id"] sampleEvent
    (sampleStore.enqueueAll (outboxOf (selecting "job_id")) sampleCalls) :=
  (queued_exactly_iff sampleStore _ _ (sample_rows _) sampleEvent sample_loadable sampleEncoded
    sample_encoding (sample_fresh _) sampleCalls ⟨0, mem_cons_self⟩ sample_dictionaries
    (fun call member _ => sample_repeated call member)).mpr (by
      intro r listed _ _
      rw [mem_singleton.mp listed]
      decide +kernel)

/-- A subscription that selects a field `job_id status` is queued `job_id` and `status`. -/
theorem spaced_field_split : ¬ Exact sampleStore [selecting "job_id status"] sampleEvent
    (sampleStore.enqueueAll (outboxOf (selecting "job_id status")) sampleCalls) := by
  intro asked
  have start : Progress sampleStore (outboxOf (selecting "job_id status")) sampleEvent
      (outboxOf (selecting "job_id status")) :=
    ⟨rfl, fun row member ofEvent => absurd ofEvent (sample_fresh _ row member)⟩
  have repeated := fun call member (_ : call.1.eventId = sampleEvent.eventId) =>
    sample_repeated call member
  have progress := Progress.calls sampleCalls sample_dictionaries repeated _ start
  have held := enqueueAll_held sample_encoding sampleCalls sample_dictionaries repeated
    mem_cons_self _ start
  have faithful := faithful_of_exact (sample_rows _) sample_loadable progress held asked
    mem_cons_self rfl rfl
  have unfaithful : ¬ Faithful sampleEvent (selecting "job_id status") := by decide +kernel
  exact unfaithful faithful

end Meemee.Guarantees.WebhookEnqueue
