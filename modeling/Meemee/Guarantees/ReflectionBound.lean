import Meemee.Guarantees.PersonalVersions
import Meemee.Source.Reflector

/-!
# Reflection is bound by its evidence

A batch of claims is published as a whole or not at all. Its statements add evidence, add versions,
rewrite the confidence, the validity and the status of items that the user does not stand behind, and
do nothing else.
-/
namespace Meemee.Guarantees.ReflectionBound
open Library Source Source.PurgeTargets Source.Rows Library.Txn Library.Table List
open Source.PersonalModel hiding upsertBatch
open Source.Reflection (ContextRecord ReflectionClaim checkRecords supported allowedKinds)
open Source.Reflector Guarantees.PersonalVersions
open Source.PgJobs (strip)

variable {s t u : Stores} {ownerId ident : String} {item : PersonalItemInput} {now : Instant}

/-- An active item with evidence from the user. -/
structure UserItem (s : Stores) (r : StoredRow) : Prop where
  stored : r ∈ s.tables .personalItems
  active : isActive r = true
  evidence : ∃ e ∈ s.tables .personalEvidence, e.of = some r.key ∧
    column evidenceColumns "source_id" e = .text "user"

/-- What no statement of a batch takes from an item. -/
def SameItem (r r' : StoredRow) : Prop :=
  r'.key = r.key ∧ r'.owner = r.owner ∧
    column itemColumns "kind" r' = column itemColumns "kind" r ∧
    column itemColumns "title" r' = column itemColumns "title" r ∧
    column itemColumns "value" r' = column itemColumns "value" r

theorem SameItem.refl (r : StoredRow) : SameItem r r := ⟨rfl, rfl, rfl, rfl, rfl⟩

theorem SameItem.trans {a b c : StoredRow} (first : SameItem a b) (second : SameItem b c) :
    SameItem a c :=
  ⟨second.1.trans first.1, second.2.1.trans first.2.1, second.2.2.1.trans first.2.2.1,
    second.2.2.2.1.trans first.2.2.2.1, second.2.2.2.2.trans first.2.2.2.2⟩

/-- What an item of a batch leaves of the stores. -/
structure Grows (s t : Stores) : Prop where
  items : ∀ r ∈ s.tables .personalItems, ∃ r' ∈ t.tables .personalItems, SameItem r r'
  evidence : ∀ e ∈ s.tables .personalEvidence, e ∈ t.tables .personalEvidence
  user : ∀ r, UserItem s r → r ∈ t.tables .personalItems

theorem Grows.refl (s : Stores) : Grows s s :=
  ⟨fun r stored => ⟨r, stored, SameItem.refl r⟩, fun _ stored => stored, fun _ kept => kept.stored⟩

theorem Grows.userItem {r : StoredRow} (grows : Grows s t) (kept : UserItem s r) : UserItem t r := by
  obtain ⟨e, stored, names, user⟩ := kept.evidence
  exact ⟨grows.user r kept, kept.active, e, grows.evidence e stored, names, user⟩

theorem Grows.trans (first : Grows s t) (second : Grows t u) : Grows s u where
  items r stored := by
    obtain ⟨r', there, same⟩ := first.items r stored
    obtain ⟨r'', last, again⟩ := second.items r' there
    exact ⟨r'', last, same.trans again⟩
  evidence e stored := second.evidence e (first.evidence e stored)
  user r kept := second.user r (first.userItem kept)

/-- The evidence row is of the item, from its source. -/
def OfItem (ownerId : String) (item : PersonalItemInput) (e : StoredRow) : Prop :=
  e.owner = some ownerId ∧ column evidenceColumns "source_id" e = .text item.sourceId ∧
    column evidenceColumns "source_record_id" e = .text item.sourceRecordId ∧
    column evidenceColumns "observed_value" e = .text (strip item.value)

/-- The stores hold a version with what the item says, and its evidence. -/
def Published (t : Stores) (ownerId : String) (item : PersonalItemInput) : Prop :=
  ∃ r ∈ t.tables .personalItems, ∃ e ∈ t.tables .personalEvidence, r.owner = some ownerId ∧
    column itemColumns "kind" r = .text item.kind ∧
    column itemColumns "title" r = .text (strip item.title) ∧
    column itemColumns "value" r = .text (strip item.value) ∧ e.of = some r.key ∧
    OfItem ownerId item e

theorem Published.grows (published : Published s ownerId item) (grows : Grows s t) :
    Published t ownerId item := by
  obtain ⟨r, stored, e, seen, own, kind, title, value, names, of⟩ := published
  obtain ⟨r', there, key, owner, kind', title', value'⟩ := grows.items r stored
  exact ⟨r', there, e, grows.evidence e seen, owner.trans own, kind'.trans kind, title'.trans title,
    value'.trans value, by rw [key]; exact names, of⟩

/-- An item is placed: the row it is placed as. -/
structure PlacedAs (t : Stores) (ownerId : String) (item : PersonalItemInput) (named : Key) : Prop where
  row : ∃ r, (t.tables .personalItems).find named = some r ∧ r.owner = some ownerId ∧
    column itemColumns "kind" r = .text item.kind ∧
    column itemColumns "title" r = .text (strip item.title) ∧
    column itemColumns "value" r = .text (strip item.value)

variable {row : StoredRow} {written : List Written}

theorem grows_revised {changes : List (String × Cell)}
    (unconfirmed : ¬ ∃ e ∈ s.tables .personalEvidence, e.of = some row.key ∧
      column evidenceColumns "source_id" e = .text "user") (kind : changes.lookup "kind" = none)
    (title : changes.lookup "title" = none) (value : changes.lookup "value" = none)
    (run : updateRows .personalItems itemColumns (hasKey row.key) changes s = (.ok (), t)) :
    Grows s t := by
  obtain ⟨rows, aside⟩ := updateRows_items run
  have revised : ∀ r ∈ s.tables .personalItems,
      revise (hasKey row.key) (setColumns itemColumns changes) r ∈ t.tables .personalItems := by
    intro r stored
    rw [← mem_rows, rows]
    exact mem_map_of_mem stored
  refine ⟨fun r stored => ⟨_, revised r stored, ?_⟩, ?_, ?_⟩
  · refine ⟨revise_key, revise_owner, ?_⟩
    unfold revise
    split
    · exact ⟨column_kept kind, column_kept title, column_kept value⟩
    · exact ⟨rfl, rfl, rfl⟩
  · intro e stored
    rw [aside .personalEvidence (by decide)]
    exact stored
  · intro r kept
    have same := revised r kept.stored
    have other : hasKey row.key r = false := by
      refine Bool.eq_false_iff.mpr (fun here => unconfirmed ?_)
      rw [← of_decide_eq_true here]
      exact kept.evidence
    rw [revise, if_neg (by simp [other])] at same
    exact same

theorem grows_inserted {table : TableName} (run : insertPersonal table row s = (.ok (), t)) :
    Grows s t := by
  obtain ⟨fresh, rows, aside⟩ := insertPersonal_returned run
  have stays : ∀ other, ∀ r ∈ s.tables other, r ∈ t.tables other := by
    intro other r stored
    by_cases here : other = table
    · subst here
      rw [rows]
      exact (mem_insert fresh).mpr (.inl stored)
    · rw [aside other here]
      exact stored
  exact ⟨fun r stored => ⟨r, stays _ r stored, SameItem.refl r⟩, stays _,
    fun r kept => stays _ r kept.stored⟩

theorem placedAs_new {named : Cell}
    (run : insertPersonal .personalItems (newItem ownerId ident item named now) s = (.ok (), t)) :
    PlacedAs t ownerId item [.text ident] := by
  obtain ⟨fresh, rows, -⟩ := insertPersonal_returned run
  refine ⟨newItem ownerId ident item named now, ?_, rfl, rfl, rfl, rfl⟩
  rw [rows, find_insert]
  exact if_pos rfl

theorem unconfirmed_current (stored : row ∈ s.tables .personalItems)
    (own : row.owner = some ownerId) (left : confirmed ownerId (some row) s = false) :
    ¬ ∃ e ∈ s.tables .personalEvidence, e.of = some row.key ∧
      column evidenceColumns "source_id" e = .text "user" := by
  rintro ⟨e, seen, names, user⟩
  have owner := s.evidenceOwned e seen row.key row names (find_of_mem stored)
  have none := any_eq_false.mp left e seen
  exact none (decide_eq_true ⟨names, owner.trans own, user⟩)

variable {named : Key} {a b : PersonalItemInput} {claims : List ReflectionClaim}

theorem placeItem_grows {current : Option StoredRow}
    (read : current = ((s.tables .personalItems).select (isCurrent ownerId item)).head?)
    (left : confirmed ownerId current s = false)
    (run : placeItem ownerId ident current item now s = (.ok named, t)) :
    Grows s t ∧ PlacedAs t ownerId item named ∧
      t.tables .personalEvidence = s.tables .personalEvidence := by
  cases current with
  | none =>
    obtain ⟨_, s₁, started, done⟩ := bind_returned run
    cases done
    exact ⟨grows_inserted started, placedAs_new started,
      (insertPersonal_returned started).2.2 .personalEvidence (by decide)⟩
  | some row =>
    obtain ⟨stored, here⟩ := mem_filter.mp (mem_of_mem_head? read.symm)
    obtain ⟨own, kind, title, -⟩ := of_decide_eq_true here
    have unconfirmed := unconfirmed_current stored own left
    rw [placeItem] at run
    split at run
    next value =>
      obtain ⟨_, s₁, written, done⟩ := bind_returned run
      cases done
      obtain ⟨rows, aside⟩ := updateRows_items written
      have kept := find_revised rows row.key
      rw [find_of_mem stored] at kept
      refine ⟨grows_revised unconfirmed rfl rfl rfl written, ⟨_, kept, revise_owner.trans own, ?_⟩,
        aside .personalEvidence (by decide)⟩
      unfold revise
      rw [if_pos (by simp [hasKey])]
      exact ⟨(column_kept rfl).trans kind, (column_kept rfl).trans title, (column_kept rfl).trans value⟩
    next =>
      obtain ⟨_, s₁, written, rest⟩ := bind_returned run
      obtain ⟨_, s₂, added, done⟩ := bind_returned rest
      cases done
      obtain ⟨rows, aside⟩ := updateRows_items written
      refine ⟨(grows_revised unconfirmed rfl rfl rfl written).trans (grows_inserted added),
        placedAs_new added, ?_⟩
      rw [(insertPersonal_returned added).2.2 .personalEvidence (by decide)]
      exact aside .personalEvidence (by decide)

theorem addEvidence_grows (placed : PlacedAs s ownerId item named)
    (run : addEvidence ownerId named item now s = (.ok (), t)) :
    Grows s t ∧ Published t ownerId item ∧
      ∀ e ∈ t.tables .personalEvidence, e ∈ s.tables .personalEvidence ∨ OfItem ownerId item e := by
  obtain ⟨row, found, own, kind, title, value⟩ := placed.row
  have key : row.key = named := key_of_find found
  unfold addEvidence at run
  simp only [run_bind_read] at run
  split at run
  next known =>
    cases run
    obtain ⟨e, seen, same⟩ := any_eq_true.mp known
    obtain ⟨names, source, record, observed⟩ := of_decide_eq_true same
    have owner := s.evidenceOwned e seen named row names found
    exact ⟨Grows.refl s, ⟨row, mem_of_find found, e, seen, own, kind, title, value,
      by rw [key]; exact names, owner.trans own, source, record, observed⟩, fun e stored => .inl stored⟩
  next =>
    obtain ⟨fresh, rows, aside⟩ := insertPersonal_returned run
    have items := aside .personalItems (by decide)
    have seen := (mem_insert fresh).mpr (.inr rfl)
    rw [← rows] at seen
    refine ⟨grows_inserted run, ?_, ?_⟩
    · exact ⟨row, by rw [items]; exact mem_of_find found, _, seen, own, kind, title, value,
        by rw [key], rfl, rfl, rfl, rfl⟩
    · intro e stored
      rw [rows] at stored
      rcases (mem_insert fresh).mp stored with before | rfl
      · exact .inl before
      · exact .inr ⟨rfl, rfl, rfl, rfl⟩

/-- What an item of a batch comes to. -/
inductive Comes (s : Stores) (ownerId : String) (item : PersonalItemInput) : Written → Stores → Prop where
  | preserved {current : Option StoredRow} : Comes s ownerId item (.preserved current) s
  | published {view : Option ItemView} {t : Stores} : Grows s t → Published t ownerId item →
      (∀ e ∈ t.tables .personalEvidence, e ∈ s.tables .personalEvidence ∨ OfItem ownerId item e) →
      Comes s ownerId item (.item view) t

theorem upsertExpecting_comes {written : Written}
    (run : upsertExpecting ownerId item ident true none now s = (.ok written, t)) :
    Comes s ownerId item written t := by
  unfold upsertExpecting at run
  simp only [run_bind_read, run_ite] at run
  split at run
  next displaced => cases displaced
  next =>
    split at run
    next =>
      cases run
      exact .preserved
    next left =>
      obtain ⟨named, s₁, placed, rest⟩ := bind_returned run
      obtain ⟨_, s₂, added, done⟩ := bind_returned rest
      cases done
      obtain ⟨grows, as_, same⟩ := placeItem_grows rfl (by simpa using left) placed
      obtain ⟨more, published, fresh⟩ := addEvidence_grows as_ added
      refine .published (grows.trans more) published ?_
      rw [← same]
      exact fresh

/-- The claim was left to the user. -/
def leftAlone : Written → Bool
  | .preserved _ => true
  | _ => false

/-- What a batch comes to. -/
structure Batch (s : Stores) (ownerId : String) (items : List PersonalItemInput) (written : List Written)
    (t : Stores) : Prop where
  length : written.length = items.length
  grows : Grows s t
  published : ∀ p ∈ items.zip written, leftAlone p.2 = false → Published t ownerId p.1
  evidence : ∀ e ∈ t.tables .personalEvidence, e ∈ s.tables .personalEvidence ∨
    ∃ p ∈ items.zip written, leftAlone p.2 = false ∧ OfItem ownerId p.1 e

theorem batch_cons {items : List PersonalItemInput} {one : Written}
    (first : Comes s ownerId item one t) (rest : Batch t ownerId items written u) :
    Batch s ownerId (item :: items) (one :: written) u := by
  have later : ∀ e ∈ u.tables .personalEvidence, e ∈ t.tables .personalEvidence ∨
      ∃ p ∈ (item :: items).zip (one :: written), leftAlone p.2 = false ∧ OfItem ownerId p.1 e := by
    intro e stored
    rcases rest.evidence e stored with before | ⟨p, mem, wrote, of⟩
    · exact .inl before
    · exact .inr ⟨p, mem_cons_of_mem _ mem, wrote, of⟩
  cases first with
  | preserved =>
    refine ⟨by simp [rest.length], rest.grows, ?_, later⟩
    intro p mem wrote
    rcases mem_cons.mp mem with rfl | other
    · cases wrote
    · exact rest.published p other wrote
  | published grows published fresh =>
    refine ⟨by simp [rest.length], grows.trans rest.grows, ?_, ?_⟩
    · intro p mem wrote
      rcases mem_cons.mp mem with rfl | other
      · exact published.grows rest.grows
      · exact rest.published p other wrote
    · intro e stored
      rcases later e stored with before | found
      · rcases fresh e before with earlier | of
        · exact .inl earlier
        · exact .inr ⟨_, mem_cons_self, rfl, of⟩
      · exact .inr found

theorem upsertEach_batch (draws : List Draw)
    (run : upsertEach ownerId true draws s = (.ok written, t)) :
    Batch s ownerId (draws.map Draw.item) written t := by
  induction draws generalizing s written with
  | nil =>
    cases run
    exact ⟨rfl, Grows.refl _, nofun, fun _ stored => .inl stored⟩
  | cons draw rest ih =>
    obtain ⟨one, s₁, upserted, others⟩ := bind_returned run
    obtain ⟨more, s₂, later, done⟩ := bind_returned others
    cases done
    exact batch_cons (upsertExpecting_comes upserted) (ih later)

theorem upsertBatch_batch {draws : List Draw}
    (run : upsertBatch ownerId draws true s = (.ok written, t)) :
    Batch s ownerId (draws.map Draw.item) written t := by
  obtain ⟨-, body⟩ := require_bind_returned run
  exact upsertEach_batch draws (atomically_ok.mp body)

theorem drawsOf_items (draws : Nat → String × Instant) (items : List PersonalItemInput) :
    (drawsOf draws items).map Draw.item = items := by
  rw [drawsOf, map_map]
  exact zipIdx_map_fst 0 items

section Claims

variable {setting : Setting} {records : List ContextRecord}

theorem validated_same {raw checked : PersonalItemInput} (ok : validated setting raw = .ok checked) :
    checked.kind = raw.kind ∧ checked.title = raw.title ∧ checked.value = raw.value ∧
      checked.sourceId = raw.sourceId ∧ checked.sourceRecordId = raw.sourceRecordId := by
  unfold validated at ok
  split at ok
  next =>
    split at ok
    next =>
      cases ok
      exact ⟨rfl, rfl, rfl, rfl, rfl⟩
    next => cases ok
  next => cases ok

/-- What of an item decides its evidence and its version. -/
def SameClaims (a b : PersonalItemInput) : Prop :=
  a.kind = b.kind ∧ a.title = b.title ∧ a.value = b.value ∧ a.sourceId = b.sourceId ∧
    a.sourceRecordId = b.sourceRecordId

theorem OfItem.same {e : StoredRow} (same : SameClaims a b) (of : OfItem ownerId a e) :
    OfItem ownerId b e := by
  obtain ⟨-, -, value, source, record⟩ := same
  rw [OfItem, value, source, record] at of
  exact of

theorem Published.same (same : SameClaims a b) (published : Published t ownerId a) :
    Published t ownerId b := by
  obtain ⟨r, stored, e, seen, own, kind, title, value, names, of⟩ := published
  have alike := same
  obtain ⟨kind', title', value', -⟩ := alike
  exact ⟨r, stored, e, seen, own, by rw [← kind']; exact kind, by rw [← title']; exact title,
    by rw [← value']; exact value, names, of.same same⟩

/-- The claims that are prepared, and the number of the others. -/
structure Prepared (setting : Setting) (records : List ContextRecord) (claims : List ReflectionClaim)
    (ready : List (ReflectionClaim × PersonalItemInput) × Nat) : Prop where
  count : ready.1.length + ready.2 = claims.length
  chosen : (ready.1.map Prod.fst).Sublist claims
  each : ∀ p ∈ ready.1, supported records p.1 = true ∧ validated setting (itemOf p.1) = .ok p.2

theorem prepare_prepared {ready : List (ReflectionClaim × PersonalItemInput) × Nat}
    (ok : prepare setting records claims = .ok ready) : Prepared setting records claims ready := by
  induction claims generalizing ready with
  | nil =>
    cases ok
    exact ⟨rfl, List.Sublist.refl _, nofun⟩
  | cons claim rest ih =>
    unfold prepare at ok
    split at ok
    next eligible =>
      obtain ⟨value, valid, more⟩ := except_bind_returned ok
      obtain ⟨others, prepared, done⟩ := except_bind_returned more
      cases done
      obtain ⟨count, chosen, each⟩ := ih prepared
      refine ⟨by simp only [length_cons]; omega, chosen.cons_cons claim, ?_⟩
      intro p mem
      rcases mem_cons.mp mem with rfl | other
      · exact ⟨eligible, valid⟩
      · exact each p other
    next =>
      obtain ⟨others, prepared, done⟩ := except_bind_returned ok
      cases done
      obtain ⟨count, chosen, each⟩ := ih prepared
      exact ⟨by simp only [length_cons]; omega, chosen.cons claim, each⟩

/-- The pairs that were published. -/
def publishedPairs (pairs : List ((ReflectionClaim × PersonalItemInput) × Written)) :
    List ((ReflectionClaim × PersonalItemInput) × Written) :=
  pairs.filter (fun p => !leftAlone p.2)

theorem settle_counts (sha256 : String → String)
    (pairs : List ((ReflectionClaim × PersonalItemInput) × Written)) :
    (settle sha256 pairs).1.length = (publishedPairs pairs).length ∧
      (settle sha256 pairs).1.length + (settle sha256 pairs).2 = pairs.length := by
  induction pairs with
  | nil => exact ⟨rfl, rfl⟩
  | cons pair rest ih =>
    obtain ⟨prepared, written⟩ := pair
    cases written with
    | preserved =>
      refine ⟨ih.1, ?_⟩
      simp only [settle, length_cons]
      omega
    | displaced | item =>
      refine ⟨congrArg Nat.succ ih.1, ?_⟩
      simp only [settle, length_cons]
      omega

end Claims

section Reflect

variable {setting : Setting} {records : List ContextRecord} {draws : Nat → String × Instant}

theorem supported_cites {claim : ReflectionClaim} (owned : ∀ r ∈ records, r.ownerId = ownerId)
    (ok : supported records claim = true) : ∃ record ∈ records, record.ownerId = ownerId ∧
      record.sourceId = claim.sourceId ∧ record.externalId = claim.sourceRecordId := by
  simp only [supported, Bool.and_eq_true] at ok
  obtain ⟨record, mem, cites⟩ := any_eq_true.mp ok.2
  exact ⟨record, mem, owned record mem, (of_decide_eq_true cites).1, (of_decide_eq_true cites).2⟩

theorem checkRecords_owned (ok : checkRecords ownerId records = .ok ()) :
    ∀ r ∈ records, r.ownerId = ownerId := by
  intro r mem
  unfold checkRecords at ok
  split at ok
  next => cases ok
  next fine =>
    have same := any_eq_false.mp (Bool.eq_false_iff.mpr (fun other => fine (.inr other))) r mem
    simpa using same

/-- What the claims of a pass came to. -/
structure Bound (s : Stores) (ownerId : String) (records : List ContextRecord)
    (claims applied : List ReflectionClaim) (result : Reflected) (t : Stores) : Prop where
  chosen : applied.Sublist claims
  accepted : result.accepted = applied.length
  counted : result.accepted + result.rejected = claims.length
  /-- An applied claim cites a record of the owner that was supplied, and is there with its
  evidence. -/
  there : ∀ claim ∈ applied, supported records claim = true ∧ Published t ownerId (itemOf claim)
  /-- All new evidence is of applied claims. -/
  evidence : ∀ e ∈ t.tables .personalEvidence, e ∈ s.tables .personalEvidence ∨
    ∃ claim ∈ applied, OfItem ownerId (itemOf claim) e

theorem zipStrict_ok {α β : Type} {first : List α} {second : List β} {pairs : List (α × β)}
    (ok : zipStrict first second = .ok pairs) :
    first.length = second.length ∧ pairs = first.zip second := by
  unfold zipStrict at ok
  split at ok
  next => cases ok
  next =>
    split at ok
    next => cases ok
    next =>
      cases ok
      exact ⟨by omega, rfl⟩

theorem publish_bound {result : Reflected}
    (run : publish setting ownerId records draws claims s = (.ok result, t)) :
    Grows s t ∧ ∃ applied, Bound s ownerId records claims applied result t := by
  obtain ⟨ready, prepared, rest⟩ := ofExcept_bind_returned run
  obtain ⟨written, s₁, upserted, zipped⟩ := bind_returned rest
  obtain ⟨pairs, paired, done⟩ := ofExcept_bind_returned zipped
  cases done
  obtain ⟨count, chosen, each⟩ := prepare_prepared prepared
  obtain ⟨lengths, rfl⟩ := zipStrict_ok paired
  obtain ⟨published, settled⟩ := settle_counts setting.sha256 (ready.1.zip written)
  have batch := upsertBatch_batch upserted
  rw [drawsOf_items] at batch
  have zipped : (ready.1.map Prod.snd).zip written =
      (ready.1.zip written).map (fun p => (p.1.2, p.2)) := zip_map_left
  have claimed : (ready.1.zip written).map (fun p => p.1.1) = ready.1.map Prod.fst := by
    calc (ready.1.zip written).map (fun p => p.1.1)
      _ = ((ready.1.zip written).map Prod.fst).map Prod.fst := by rw [map_map]; rfl
      _ = ready.1.map Prod.fst := by rw [map_fst_zip (by omega)]
  have pairs : (ready.1.zip written).length = ready.1.length := by
    rw [length_zip]
    omega
  -- an item of a pair is the one its claim asked for
  have same : ∀ p ∈ ready.1.zip written, supported records p.1.1 = true ∧
      SameClaims p.1.2 (itemOf p.1.1) := by
    intro p mem
    obtain ⟨eligible, valid⟩ := each p.1 (of_mem_zip mem).1
    exact ⟨eligible, validated_same valid⟩
  refine ⟨batch.grows, (publishedPairs (ready.1.zip written)).map (fun p => p.1.1), ?_⟩
  constructor
  · refine List.Sublist.trans ?_ chosen
    rw [← claimed]
    exact filter_sublist.map _
  · rw [length_map, ← published]
  · dsimp only
    omega
  · intro claim mem
    obtain ⟨p, kept, rfl⟩ := mem_map.mp mem
    obtain ⟨there, wrote⟩ := mem_filter.mp kept
    refine ⟨(same p there).1, (batch.published (p.1.2, p.2) ?_ (by simpa using wrote)).same (same p there).2⟩
    rw [zipped]
    exact mem_map_of_mem there
  · intro e stored
    rcases batch.evidence e stored with before | ⟨q, mem, wrote, of⟩
    · exact .inl before
    · rw [zipped] at mem
      obtain ⟨p, there, rfl⟩ := mem_map.mp mem
      refine .inr ⟨p.1.1, mem_map_of_mem (mem_filter.mpr ⟨there, ?_⟩), of.same (same p there).2⟩
      simpa using wrote

theorem upsertBatch_clean (draws : List Draw) : Txn.RaisesClean (upsertBatch ownerId draws true) :=
  raisesClean_require_bind (raisesClean_atomically _)

/-- A pass that raises has changed nothing: after the batch nothing raises. -/
theorem publish_clean (claims : List ReflectionClaim) :
    Txn.RaisesClean (publish setting ownerId records draws claims) := by
  refine raisesClean_ofExcept_bind ?_
  intro ready _ s e t run
  cases upserted : upsertBatch ownerId (drawsOf draws (ready.1.map Prod.snd)) true s with
  | mk answer s₁ =>
    cases answer with
    | error raised =>
      rw [run_bind_error upserted] at run
      cases run
      exact upsertBatch_clean _ s _ _ upserted
    | ok written =>
      have batch := upsertBatch_batch upserted
      rw [drawsOf_items] at batch
      have lengths := batch.length
      rw [length_map] at lengths
      rw [run_bind_ok upserted, zipStrict, if_neg (by omega), if_neg (by omega)] at run
      cases run

/-- For all claims a model may come back with, over all stores: a pass raises and changes nothing, or
the accepted claims, which are counted with the rejected ones, are all there with the evidence of
supplied records, all new evidence is theirs, and the items the user stands behind are as they were. -/
theorem reflection_bound (setting : Setting) (ownerId : String) (records : List ContextRecord)
    (draws : Nat → String × Instant) (reply : Except Exc (List ReflectionClaim)) (s : Stores) :
    (∀ e t, reflectRecords setting ownerId records draws reply s = (.error e, t) → t = s) ∧
    ∀ result t, reflectRecords setting ownerId records draws reply s = (.ok result, t) →
      (∀ r, UserItem s r → r ∈ t.tables .personalItems) ∧
      ((records = [] ∧ result.accepted = 0 ∧ result.rejected = 0 ∧ t = s) ∨
        ∃ claims applied, reply = .ok claims ∧ Bound s ownerId records claims applied result t ∧
          ∀ claim ∈ applied, ∃ record ∈ records, record.ownerId = ownerId ∧
            record.sourceId = claim.sourceId ∧ record.externalId = claim.sourceRecordId) := by
  unfold reflectRecords
  split
  next =>
    refine ⟨nofun, fun result t run => ?_⟩
    cases run
    exact ⟨fun r kept => kept.stored, Or.inl ⟨rfl, rfl, rfl, rfl⟩⟩
  next =>
    constructor
    · intro e t run
      refine (raisesClean_ofExcept_bind (fun _ _ => ?_)) s e t run
      exact raisesClean_ofExcept_bind (fun claims _ => publish_clean claims)
    · intro result t run
      obtain ⟨_, checked, asked⟩ := ofExcept_bind_returned run
      obtain ⟨claims, replied, published⟩ := ofExcept_bind_returned asked
      obtain ⟨grows, applied, bound⟩ := publish_bound published
      exact ⟨grows.user, Or.inr ⟨claims, applied, replied, bound, fun claim member =>
        supported_cites (checkRecords_owned checked) (bound.there claim member).1⟩⟩

end Reflect

end Meemee.Guarantees.ReflectionBound
