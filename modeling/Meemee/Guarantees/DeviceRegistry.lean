import Meemee.Library.History
import Meemee.Source.Devices

/-!
# The device registry over any run

Owners and devices call the registry in any order. `Effect` lists what a call that returns can
do to the three tables; a call that raises does nothing. Everything else is read off that list:
what a stored pairing, device or command may become, and where each came from.
-/
namespace Meemee.Guarantees.DeviceRegistry
open Library Library.History Source Source.DeviceProtocol Source.Devices Library.Txn Library.Table List

inductive Call where
  | createPairing (ownerId : String) (ttlSeconds : Int) (draw : PairingDraw)
  | pair (pairingId code deviceId name : String) (capabilities : Presented) (secret : ByteArray)
      (now : Instant)
  | updateManifest (ownerId deviceId : String) (capabilities : Envelope) (now : Instant)
  | issue (ownerId deviceId capability : String) (arguments : Envelope) (draw : CommandDraw)
      (now : Instant)
  | complete (commandId : String) (result : Json) (error : Option String) (now : Instant)
  | revoke (ownerId deviceId : String) (now : Instant)

inductive Value where
  | pairing (pairingId code : String) (expires : Instant)
  | paired (device : Paired)
  | envelope (envelope : Envelope)
  | done
  | revoked (any : Bool)

section System

variable (codeHash : String → String) (hmac : ByteArray → ByteArray → String)

def step (s : DeviceStore) : Call → Except DeviceExc Value × DeviceStore
  | .createPairing ownerId ttlSeconds draw =>
    Txn.answer (fun made => .pairing made.1 made.2.1 made.2.2)
      (createPairing codeHash ownerId ttlSeconds draw) s
  | .pair pairingId code deviceId name capabilities secret now =>
    Txn.answer .paired (pair codeHash pairingId code deviceId name capabilities secret now) s
  | .updateManifest ownerId deviceId capabilities now =>
    Txn.answer (fun _ => .done) (updateManifest ownerId deviceId capabilities now) s
  | .issue ownerId deviceId capability arguments draw now =>
    Txn.answer .envelope (issue hmac ownerId deviceId capability arguments draw now) s
  | .complete commandId result error now =>
    Txn.answer (fun _ => .done) (complete commandId result error now) s
  | .revoke ownerId deviceId now => Txn.answer .revoked (revoke ownerId deviceId now) s

end System

/-- The row of a new pairing. -/
def pairingOf (codeHash : String → String) (ownerId : String) (ttlSeconds : Int)
    (draw : PairingDraw) : PairingRow :=
  ⟨draw.pairingId, ownerId, codeHash draw.code, draw.now + seconds ttlSeconds, none⟩

def markUsed (pairing : PairingRow) (now : Instant) (pairings : Table PairingRow.id) :
    Table PairingRow.id :=
  pairings.update (fun r => decide (r.id = pairing.id)) (PairingRow.use now) (PairingRow.use_id now)

/-- What a call that returns has done. -/
inductive Effect (codeHash : String → String) (s : DeviceStore) : Call → DeviceStore → Prop where
  | created {ownerId : String} {ttlSeconds : Int} {draw : PairingDraw}
      (fresh : s.pairings.find draw.pairingId = none) :
      Effect codeHash s (.createPairing ownerId ttlSeconds draw)
        { s with pairings := s.pairings.insert (pairingOf codeHash ownerId ttlSeconds draw) fresh }
  | paired {code deviceId name : String} {fields : Envelope} {secret : ByteArray} {now : Instant}
      {pairing : PairingRow} (stored : pairing ∈ s.pairings)
      (admitted : pairing.admits codeHash code now = true) (fresh : s.devices.find deviceId = none) :
      Effect codeHash s (.pair pairing.id code deviceId name (.dict fields) secret now)
        { s with
          devices := s.devices.insert
            ⟨deviceId, pairing.ownerId, name, secret, fields, now, now, none⟩ fresh,
          pairings := markUsed pairing now s.pairings }
  | declared {ownerId deviceId : String} {capabilities : Envelope} {now : Instant} :
      Effect codeHash s (.updateManifest ownerId deviceId capabilities now)
        { s with devices := s.devices.update (current ownerId deviceId)
                              (DeviceRow.declare capabilities now)
                              (DeviceRow.declare_deviceId capabilities now) }
  | issued {capability : String} {arguments envelope : Envelope} {draw : CommandDraw} {now : Instant}
      {device : DeviceRow} (stored : device ∈ s.devices) (unrevoked : device.revokedAt = none)
      (declared : capability ∈ device.manifest.map Prod.fst)
      (fresh : s.commands.find (commandIdOf envelope) = none) :
      Effect codeHash s (.issue device.ownerId device.deviceId capability arguments draw now)
        { s with commands := s.commands.insert
                  ⟨commandIdOf envelope, device.deviceId, capability, envelope, .issued, now, none,
                    none, none⟩ fresh }
  | completed {commandId : String} {result : Json} {text error : Option String} {now : Instant} :
      Effect codeHash s (.complete commandId result error now)
        { s with commands := s.commands.update (outstanding commandId)
                              (CommandRow.settle text error now)
                              (CommandRow.settle_commandId text error now) }
  | revoked {ownerId deviceId : String} {now : Instant} :
      Effect codeHash s (.revoke ownerId deviceId now)
        { s with devices := s.devices.update (current ownerId deviceId) (DeviceRow.retire now)
                              (DeviceRow.retire_deviceId now) }

variable {ownerId commandId : String} {now : Instant} {capabilities : Envelope} {result : Json}
  {error : Option String} {d : DeviceRow} {c : CommandRow}

section Programs

variable {codeHash : String → String} {hmac : ByteArray → ByteArray → String} {s t : DeviceStore}

theorem createPairing_returned {ttlSeconds : Int} {draw : PairingDraw}
    {made : String × String × Instant}
    (run : createPairing codeHash ownerId ttlSeconds draw s = (.ok made, t)) :
    Effect codeHash s (.createPairing ownerId ttlSeconds draw) t := by
  obtain ⟨-, run⟩ := require_bind_returned run
  obtain ⟨-, run⟩ := require_bind_returned run
  obtain ⟨inserted, run⟩ := require_bind_returned run
  have fresh := fresh_of_inserted inserted
  cases run
  simp only [insertOrIgnore_fresh fresh]
  exact .created fresh

theorem createPairing_clean {ttlSeconds : Int} {draw : PairingDraw} :
    Txn.RaisesClean (createPairing codeHash ownerId ttlSeconds draw) := by
  refine raisesClean_require_bind (raisesClean_require_bind ?_)
  intro s e t raised
  rw [run_bind_read, run_require_bind] at raised
  split at raised <;> cases raised
  rfl

variable {deviceId : String}

theorem pair_returned {pairingId code name : String} {capabilities : Presented}
    {secret : ByteArray} {made : Paired}
    (run : pair codeHash pairingId code deviceId name capabilities secret now s = (.ok made, t)) :
    Effect codeHash s (.pair pairingId code deviceId name capabilities secret now) t := by
  replace run := atomically_ok.mp run
  rw [run_bind_read] at run
  cases found : s.pairings.find pairingId with
  | none =>
    rw [found] at run
    cases run
  | some pairing =>
    rw [found] at run
    obtain ⟨admitted, run⟩ := require_bind_returned run
    cases capabilities with
    | other => cases run
    | dict fields =>
      obtain ⟨-, run⟩ := require_bind_returned run
      obtain ⟨_, -, run⟩ := ofExcept_bind_returned run
      obtain ⟨_, s', enrolled, run⟩ := bind_returned run
      obtain ⟨inserted, enrolled⟩ := require_bind_returned enrolled
      have fresh := fresh_of_inserted inserted
      obtain ⟨stored, rfl⟩ := find_some_iff.mp found
      cases enrolled
      cases run
      simp only [insertOrIgnore_fresh fresh]
      exact .paired stored admitted fresh

theorem assignManifest_returned {changed : Nat}
    (run : assignManifest ownerId deviceId capabilities now s = (.ok changed, t)) :
    changed = (s.devices.select (current ownerId deviceId)).length ∧
      t = { s with devices := s.devices.update (current ownerId deviceId)
                                (DeviceRow.declare capabilities now)
                                (DeviceRow.declare_deviceId capabilities now) } := by
  replace run := atomically_ok.mp run
  obtain ⟨_, -, run⟩ := ofExcept_bind_returned run
  cases run
  exact ⟨rfl, rfl⟩

theorem updateManifest_returned
    (run : updateManifest ownerId deviceId capabilities now s = (.ok (), t)) :
    Effect codeHash s (.updateManifest ownerId deviceId capabilities now) t := by
  obtain ⟨-, run⟩ := require_bind_returned run
  obtain ⟨changed, s', assigned, run⟩ := bind_returned run
  obtain ⟨-, rfl⟩ := assignManifest_returned assigned
  unfold Txn.require at run
  split at run
  · cases run
    exact .declared
  · cases run

theorem select_length_zero {κ ρ : Type} {key : ρ → κ} {t : Table key} {p : ρ → Bool}
    (none : (t.select p).length = 0) : ∀ r ∈ t, p r = false :=
  select_isEmpty.mp (isEmpty_iff_length_eq_zero.mpr none)

theorem updateManifest_clean :
    Txn.RaisesClean (updateManifest ownerId deviceId capabilities now) := by
  refine raisesClean_require_bind ?_
  intro s e t raised
  rcases assigned : assignManifest ownerId deviceId capabilities now s with ⟨result, s'⟩
  cases result with
  | error e' =>
    rw [run_bind_error assigned] at raised
    cases raised
    exact atomically_error assigned
  | ok changed =>
    rw [run_bind_ok assigned] at raised
    obtain ⟨rfl, rfl⟩ := assignManifest_returned assigned
    unfold Txn.require at raised
    split at raised
    next => cases raised
    next unmatched =>
      cases raised
      simp only [decide_not, Bool.not_eq_true', decide_eq_false_iff_not, not_not] at unmatched
      rw [update_none (select_length_zero unmatched)]

theorem issue_returned {capability : String} {arguments envelope : Envelope}
    {draw : CommandDraw}
    (run : issue hmac ownerId deviceId capability arguments draw now s = (.ok envelope, t)) :
    Effect codeHash s (.issue ownerId deviceId capability arguments draw now) t := by
  replace run := atomically_ok.mp run
  rw [run_bind_read] at run
  cases found : (s.devices.find deviceId).filter (current ownerId deviceId) with
  | none =>
    rw [found] at run
    cases run
  | some device =>
    rw [found] at run
    obtain ⟨stored, live⟩ := Option.filter_eq_some_iff.mp found
    simp only [current, Bool.and_eq_true, decide_eq_true_eq, Option.isNone_iff_eq_none] at live
    obtain ⟨⟨rfl, rfl⟩, unrevoked⟩ := live
    obtain ⟨declared, run⟩ := require_bind_returned run
    obtain ⟨made, -, run⟩ := ofExcept_bind_returned run
    obtain ⟨inserted, run⟩ := require_bind_returned run
    have fresh := fresh_of_inserted inserted
    have named : capability ∈ device.manifest.map Prod.fst := by
      obtain ⟨field, mem, same⟩ := any_eq_true.mp declared
      exact mem_map.mpr ⟨field, mem, of_decide_eq_true same⟩
    cases run
    simp only [insertOrIgnore_fresh fresh]
    exact .issued (mem_of_find stored) unrevoked named fresh

theorem assignResult_returned {changed : Nat}
    (run : assignResult commandId result error now s = (.ok changed, t)) :
    changed = (s.commands.select (outstanding commandId)).length ∧ ∃ text,
      t = { s with commands := s.commands.update (outstanding commandId)
                                 (CommandRow.settle text error now)
                                 (CommandRow.settle_commandId text error now) } := by
  replace run := atomically_ok.mp run
  obtain ⟨text, s', columns, run⟩ := bind_returned run
  have same : s = s' := by
    cases error with
    | some text => exact congrArg Prod.snd columns
    | none =>
      obtain ⟨_, -, columns⟩ := ofExcept_bind_returned columns
      exact congrArg Prod.snd columns
  subst same
  cases run
  exact ⟨rfl, text, rfl⟩

theorem complete_returned (run : complete commandId result error now s = (.ok (), t)) :
    Effect codeHash s (.complete commandId result error now) t := by
  obtain ⟨changed, s', assigned, run⟩ := bind_returned run
  obtain ⟨-, text, rfl⟩ := assignResult_returned assigned
  unfold Txn.require at run
  split at run
  · cases run
    exact .completed
  · cases run

theorem complete_clean : Txn.RaisesClean (complete commandId result error now) := by
  intro s e t raised
  rcases assigned : assignResult commandId result error now s with ⟨answer, s'⟩
  unfold complete at raised
  cases answer with
  | error e' =>
    rw [run_bind_error assigned] at raised
    cases raised
    exact atomically_error assigned
  | ok changed =>
    rw [run_bind_ok assigned] at raised
    obtain ⟨rfl, text, rfl⟩ := assignResult_returned assigned
    unfold Txn.require at raised
    split at raised
    next => cases raised
    next unmatched =>
      cases raised
      simp only [decide_not, Bool.not_eq_true', decide_eq_false_iff_not, not_not] at unmatched
      rw [update_none (select_length_zero unmatched)]

theorem revoke_returned {any : Bool}
    (run : revoke ownerId deviceId now s = (.ok any, t)) :
    Effect codeHash s (.revoke ownerId deviceId now) t := by
  cases run
  exact .revoked

/-- A call that raises changes nothing, and a call that returns has its effect. -/
theorem step_cases (codeHash : String → String) (hmac : ByteArray → ByteArray → String)
    (s : DeviceStore) (call : Call) :
    ((∃ e, (step codeHash hmac s call).1 = .error e) ∧ (step codeHash hmac s call).2 = s) ∨
      (∃ value, (step codeHash hmac s call).1 = .ok value) ∧
        Effect codeHash s call (step codeHash hmac s call).2 := by
  rcases ran : step codeHash hmac s call with ⟨answer, t⟩
  cases answer with
  | error e =>
    refine .inl ⟨⟨e, rfl⟩, ?_⟩
    cases call with
    | createPairing ownerId ttlSeconds draw => exact createPairing_clean s e t (answer_error ran)
    | pair pairingId code deviceId name capabilities secret now =>
      exact atomically_error (answer_error ran)
    | updateManifest ownerId deviceId capabilities now =>
      exact updateManifest_clean s e t (answer_error ran)
    | issue ownerId deviceId capability arguments draw now =>
      exact atomically_error (answer_error ran)
    | complete commandId result error now => exact complete_clean s e t (answer_error ran)
    | revoke ownerId deviceId now =>
      have raised : revoke ownerId deviceId now s = (.error e, t) := answer_error ran
      exact atomically_error raised
  | ok value =>
    refine .inr ⟨⟨value, rfl⟩, ?_⟩
    cases call with
    | createPairing ownerId ttlSeconds draw =>
      obtain ⟨made, run, -⟩ := answer_ok ran
      exact createPairing_returned run
    | pair pairingId code deviceId name capabilities secret now =>
      obtain ⟨made, run, -⟩ := answer_ok ran
      exact pair_returned run
    | updateManifest ownerId deviceId capabilities now =>
      obtain ⟨_, run, -⟩ := answer_ok ran
      exact updateManifest_returned run
    | issue ownerId deviceId capability arguments draw now =>
      obtain ⟨envelope, run, -⟩ := answer_ok ran
      exact issue_returned run
    | complete commandId result error now =>
      obtain ⟨_, run, -⟩ := answer_ok ran
      exact complete_returned run
    | revoke ownerId deviceId now =>
      have answered : Txn.answer Value.revoked (revoke ownerId deviceId now) s = (.ok value, t) := ran
      obtain ⟨any, run, -⟩ := answer_ok answered
      exact revoke_returned run

end Programs

/-- A device keeps what pairing gave it, and a revoked device keeps everything. -/
structure SameDevice (d d' : DeviceRow) : Prop where
  deviceId : d'.deviceId = d.deviceId
  ownerId : d'.ownerId = d.ownerId
  secret : d'.secret = d.secret
  revoked : d.revokedAt ≠ none → d' = d

/-- A command stays as it is, or leaves `issued`. -/
def Advances (c c' : CommandRow) : Prop :=
  c' = c ∨ c.status = .issued ∧ c'.status ≠ .issued ∧
    ∃ result error now, c' = c.settle result error now

/-- What a later store still has of an earlier one. -/
structure Later (s t : DeviceStore) : Prop where
  pairings : ∀ p ∈ s.pairings, ∃ p' ∈ t.pairings, p' = p ∨ ∃ now, p' = p.use now
  devices : ∀ d ∈ s.devices, ∃ d' ∈ t.devices, SameDevice d d'
  commands : ∀ c ∈ s.commands, ∃ c' ∈ t.commands, Advances c c'
  silent : ∀ d ∈ s.devices, d.revokedAt ≠ none → ∀ c ∈ t.commands, c.deviceId = d.deviceId →
    ∃ c₀ ∈ s.commands, Advances c₀ c

theorem SameDevice.refl (d : DeviceRow) : SameDevice d d := ⟨rfl, rfl, rfl, fun _ => rfl⟩

theorem SameDevice.trans {d' d'' : DeviceRow} (first : SameDevice d d') (second : SameDevice d' d'') :
    SameDevice d d'' where
  deviceId := second.deviceId.trans first.deviceId
  ownerId := second.ownerId.trans first.ownerId
  secret := second.secret.trans first.secret
  revoked := by
    intro revoked
    have same := first.revoked revoked
    subst same
    exact second.revoked revoked

theorem statusOf_ne_issued (error : Option String) : statusOf error ≠ .issued := by
  unfold statusOf
  split <;> decide

theorem advances_trans {c' c'' : CommandRow} (first : Advances c c') (second : Advances c' c'') :
    Advances c c'' := by
  rcases first with rfl | ⟨issued, left, result, error, now, rfl⟩
  · exact second
  · rcases second with rfl | ⟨back, -⟩
    · exact .inr ⟨issued, left, result, error, now, rfl⟩
    · exact absurd back left

theorem Advances.deviceId {c' : CommandRow} (advances : Advances c c') :
    c'.deviceId = c.deviceId := by
  rcases advances with rfl | ⟨-, -, result, error, now, rfl⟩ <;> rfl

theorem later_refl (s : DeviceStore) : Later s s where
  pairings p mem := ⟨p, mem, .inl rfl⟩
  devices d mem := ⟨d, mem, SameDevice.refl d⟩
  commands c mem := ⟨c, mem, .inl rfl⟩
  silent _ _ _ c mem _ := ⟨c, mem, .inl rfl⟩

theorem later_trans (s t u : DeviceStore) (first : Later s t) (second : Later t u) : Later s u where
  pairings p mem := by
    obtain ⟨p', member', became⟩ := first.pairings p mem
    obtain ⟨p'', member'', became'⟩ := second.pairings p' member'
    refine ⟨p'', member'', ?_⟩
    rcases became with rfl | ⟨now, rfl⟩
    · exact became'
    · rcases became' with rfl | ⟨again, rfl⟩
      · exact .inr ⟨now, rfl⟩
      · exact .inr ⟨again, rfl⟩
  devices d mem := by
    obtain ⟨d', member', same⟩ := first.devices d mem
    obtain ⟨d'', member'', same'⟩ := second.devices d' member'
    exact ⟨d'', member'', same.trans same'⟩
  commands c mem := by
    obtain ⟨c', member', advances⟩ := first.commands c mem
    obtain ⟨c'', member'', advances'⟩ := second.commands c' member'
    exact ⟨c'', member'', advances_trans advances advances'⟩
  silent d mem revoked c member' same := by
    obtain ⟨d', stored, kept⟩ := first.devices d mem
    obtain rfl := kept.revoked revoked
    obtain ⟨c', there, advances⟩ := second.silent d' stored revoked c member' same
    obtain ⟨c₀, here, advances'⟩ := first.silent d' mem revoked c' there
      (advances.deviceId.symm.trans same)
    exact ⟨c₀, here, advances_trans advances' advances⟩

section Steps

variable {codeHash : String → String} {hmac : ByteArray → ByteArray → String} {s t : DeviceStore}
  {call : Call}

theorem devices_updated {f : DeviceRow → DeviceRow}
    (keeps : ∀ d, (f d).deviceId = d.deviceId) {devices : Table DeviceRow.deviceId}
    (same : ∀ d, d.revokedAt = none → SameDevice d (f d)) :
    ∀ d ∈ devices, ∃ d' ∈ devices.update (current ownerId deviceId) f keeps, SameDevice d d' := by
  intro d mem
  refine ⟨_, updated_mem _ keeps mem, ?_⟩
  split
  next live =>
    simp only [current, Bool.and_eq_true, Option.isNone_iff_eq_none] at live
    exact same d live.2
  next => exact SameDevice.refl d

theorem same_declare (capabilities : Envelope) (now : Instant) (d : DeviceRow)
    (unrevoked : d.revokedAt = none) : SameDevice d (d.declare capabilities now) :=
  ⟨rfl, rfl, rfl, fun revoked => absurd unrevoked revoked⟩

theorem same_retire (now : Instant) (d : DeviceRow) (unrevoked : d.revokedAt = none) :
    SameDevice d (d.retire now) :=
  ⟨rfl, rfl, rfl, fun revoked => absurd unrevoked revoked⟩

theorem advances_settled {result : Option String} (c : CommandRow) :
    Advances c (if outstanding commandId c then c.settle result error now else c) := by
  split
  next here =>
    simp only [outstanding, decide_eq_true_eq] at here
    exact .inr ⟨here.2, statusOf_ne_issued error, result, error, now, rfl⟩
  next => exact .inl rfl

theorem later_of_effect (effect : Effect codeHash s call t) : Later s t := by
  have kept := later_refl s
  cases effect with
  | created fresh =>
    refine { kept with pairings := ?_ }
    intro p mem
    exact ⟨p, (mem_insert fresh).mpr (.inl mem), .inl rfl⟩
  | @paired _ _ _ _ _ now pairing _ _ fresh =>
    refine { kept with pairings := ?_, devices := ?_ }
    · intro p mem
      refine ⟨_, updated_mem _ (PairingRow.use_id now) mem, ?_⟩
      split
      · exact .inr ⟨now, rfl⟩
      · exact .inl rfl
    · intro d mem
      exact ⟨d, (mem_insert fresh).mpr (.inl mem), SameDevice.refl d⟩
  | declared => exact { kept with devices := devices_updated (DeviceRow.declare_deviceId _ _) (same_declare _ _) }
  | @issued _ _ _ _ _ device stored unrevoked _ fresh =>
    refine { kept with commands := ?_, silent := ?_ }
    · intro c mem
      exact ⟨c, (mem_insert fresh).mpr (.inl mem), .inl rfl⟩
    · intro d mem revoked c there same
      rcases (mem_insert fresh).mp there with here | rfl
      · exact ⟨c, here, .inl rfl⟩
      · have one : device = d := by
          have found := find_of_mem stored
          exact (eq_of_find found mem same.symm).symm
        rw [one] at unrevoked
        exact absurd unrevoked revoked
  | completed =>
    refine { kept with commands := ?_, silent := ?_ }
    · intro c mem
      exact ⟨_, updated_mem _ (CommandRow.settle_commandId _ _ _) mem, advances_settled c⟩
    · intro d mem revoked c there same
      obtain ⟨c₀, here, rfl⟩ := origin_of_updated (CommandRow.settle_commandId _ _ _) there
      exact ⟨c₀, here, advances_settled c₀⟩
  | revoked => exact { kept with devices := devices_updated (DeviceRow.retire_deviceId _) (same_retire _) }

theorem later_step (s : DeviceStore) (call : Call) : Later s (step codeHash hmac s call).2 := by
  rcases step_cases codeHash hmac s call with ⟨-, same⟩ | ⟨-, effect⟩
  · rw [same]
    exact later_refl s
  · exact later_of_effect effect

end Steps

abbrev RegistryEvent := Event DeviceStore Call (Except DeviceExc Value)

def Returned (e : RegistryEvent) : Prop := ∃ value, e.answer = .ok value

/-- Two texts that SHA-256 does not tell apart. -/
def Collide (codeHash : String → String) (code other : String) : Prop :=
  code ≠ other ∧ codeHash code = codeHash other

/-- `e` paired the device by the pairing `created` made: its code, owner, and in time. -/
def Redeems (codeHash : String → String) (created e : RegistryEvent) (device : DeviceRow) : Prop :=
  ∃ ownerId ttlSeconds draw code name capabilities secret now,
    (created.action = .createPairing ownerId ttlSeconds draw ∧ Returned created) ∧
    (e.action = .pair draw.pairingId code device.deviceId name capabilities secret now ∧ Returned e) ∧
    (code = draw.code ∨ Collide codeHash code draw.code) ∧
    now ≤ draw.now + seconds ttlSeconds ∧ device.ownerId = ownerId ∧ device ∈ e.after.devices

/-- The event pairs a device by this pairing. -/
def pairsBy (pairingId : String) (e : RegistryEvent) : Bool :=
  match e.action, e.answer with
  | .pair id _ _ _ _ _ _, .ok _ => decide (id = pairingId)
  | _, _ => false

/-- The pairing of a row was created by one of these events. -/
def CreatedBy (codeHash : String → String) (events : List RegistryEvent) (p : PairingRow) : Prop :=
  ∃ created ∈ events, Returned created ∧ ∃ ttlSeconds draw,
    created.action = .createPairing p.ownerId ttlSeconds draw ∧ p.id = draw.pairingId ∧
      p.codeHash = codeHash draw.code ∧ p.expiresAt = draw.now + seconds ttlSeconds

/-- The device of a row was paired by one of these events, after its pairing was created. -/
def PairedBy (codeHash : String → String) (events : List RegistryEvent) (d : DeviceRow) : Prop :=
  ∃ pre e post, events = pre ++ e :: post ∧ ∃ created ∈ pre, ∃ device,
    Redeems codeHash created e device ∧ SameDevice device d

structure Traced (codeHash : String → String) (events : List RegistryEvent) (s : DeviceStore) : Prop where
  pairings : ∀ p ∈ s.pairings, CreatedBy codeHash events p
  devices : ∀ d ∈ s.devices, PairedBy codeHash events d

section Origins

variable {codeHash : String → String} {hmac : ByteArray → ByteArray → String}
  {events : List RegistryEvent} {s : DeviceStore} {call : Call}

theorem CreatedBy.append {p : PairingRow} (created : CreatedBy codeHash events p)
    (later : List RegistryEvent) : CreatedBy codeHash (events ++ later) p := by
  obtain ⟨e, mem, rest⟩ := created
  exact ⟨e, mem_append_left _ mem, rest⟩

theorem PairedBy.append (paired : PairedBy codeHash events d) (later : List RegistryEvent) :
    PairedBy codeHash (events ++ later) d := by
  obtain ⟨pre, e, post, rfl, rest⟩ := paired
  exact ⟨pre, e, post ++ later, by simp, rest⟩

theorem PairedBy.same {d' : DeviceRow} (paired : PairedBy codeHash events d)
    (same : SameDevice d d') : PairedBy codeHash events d' := by
  obtain ⟨pre, e, post, split, created, mem, device, redeems, kept⟩ := paired
  exact ⟨pre, e, post, split, created, mem, device, redeems, kept.trans same⟩

theorem Redeems.stored {created e : RegistryEvent} {device : DeviceRow}
    (redeems : Redeems codeHash created e device) : device ∈ e.after.devices := by
  obtain ⟨_, _, _, _, _, _, _, _, -, -, -, -, -, stored⟩ := redeems
  exact stored

theorem redeems_of_paired {pairingId code name : String} {capabilities : Presented}
    {secret : ByteArray} (traced : Traced codeHash events s) {t : DeviceStore}
    {answer : Except DeviceExc Value} (returned : ∃ value, answer = .ok value)
    (effect : Effect codeHash s (.pair pairingId code deviceId name capabilities secret now) t) :
    ∃ created ∈ events, ∃ device, device.deviceId = deviceId ∧ Redeems codeHash created
      ⟨s, .pair pairingId code deviceId name capabilities secret now, answer, t⟩ device := by
  cases effect with
  | @paired _ _ _ fields _ _ pairing stored admitted fresh =>
    obtain ⟨created, mem, made, ttlSeconds, draw, acted, named, hashed, expires⟩ :=
      traced.pairings pairing stored
    simp only [PairingRow.admits, Bool.and_eq_true, Bool.not_eq_true', decide_eq_true_eq,
      decide_eq_false_iff_not] at admitted
    refine ⟨created, mem, ⟨deviceId, pairing.ownerId, name, secret, fields, now, now, none⟩, rfl,
      pairing.ownerId, ttlSeconds, draw, code, name, .dict fields, secret, now, ⟨acted, made⟩,
      ⟨by rw [named], returned⟩, ?_, ?_, rfl, (mem_insert fresh).mpr (.inr rfl)⟩
    · by_cases same : code = draw.code
      · exact .inl same
      · exact .inr ⟨same, admitted.2.symm.trans hashed⟩
    · rw [← expires]
      exact not_lt.mp admitted.1.2

theorem traced_effect {t : DeviceStore} (traced : Traced codeHash events s)
    {answer : Except DeviceExc Value} (returned : ∃ value, answer = .ok value)
    (effect : Effect codeHash s call t) :
    Traced codeHash (events ++ [⟨s, call, answer, t⟩]) t := by
  have before : Traced codeHash (events ++ [⟨s, call, answer, t⟩]) s :=
    ⟨fun p mem => (traced.pairings p mem).append _,
      fun d mem => (traced.devices d mem).append _⟩
  have updated : ∀ {ownerId deviceId : String} {f : DeviceRow → DeviceRow}
      (keeps : ∀ d, (f d).deviceId = d.deviceId), (∀ d, d.revokedAt = none → SameDevice d (f d)) →
      ∀ d ∈ s.devices.update (current ownerId deviceId) f keeps,
        PairedBy codeHash (events ++ [⟨s, call, answer, t⟩]) d := by
    intro ownerId deviceId f keeps same d mem
    obtain ⟨d₀, stored, rfl⟩ := origin_of_updated keeps mem
    have paired := before.devices d₀ stored
    split
    next live =>
      simp only [current, Bool.and_eq_true, Option.isNone_iff_eq_none] at live
      exact paired.same (same d₀ live.2)
    next => exact paired
  have whole := effect
  cases effect with
  | created fresh =>
    refine { before with pairings := ?_ }
    intro p mem
    rcases (mem_insert fresh).mp mem with here | rfl
    · exact before.pairings p here
    · exact ⟨_, mem_append_right _ (mem_singleton_self _), returned, _, _, rfl, rfl, rfl, rfl⟩
  | paired stored admitted fresh =>
    refine ⟨?_, ?_⟩
    · intro p mem
      obtain ⟨p₀, there, rfl⟩ := origin_of_updated (PairingRow.use_id _) mem
      have created := before.pairings p₀ there
      split
      · exact created
      · exact created
    · intro d mem
      rcases (mem_insert fresh).mp mem with here | rfl
      · exact before.devices d here
      · obtain ⟨created, made, device, named, redeems⟩ := redeems_of_paired traced returned whole
        refine ⟨events, _, [], rfl, created, made, device, redeems, ?_⟩
        have row := eq_of_find (find_of_mem redeems.stored) mem named.symm
        rw [row]
        exact SameDevice.refl device
  | declared => exact { before with devices := updated (DeviceRow.declare_deviceId _ _) (same_declare _ _) }
  | issued => exact ⟨before.pairings, before.devices⟩
  | completed => exact ⟨before.pairings, before.devices⟩
  | revoked => exact { before with devices := updated (DeviceRow.retire_deviceId _) (same_retire _) }

theorem traced_step (events : List RegistryEvent) (s : DeviceStore) (call : Call)
    (traced : Traced codeHash events s) :
    Traced codeHash (events ++ [⟨s, call, (step codeHash hmac s call).1, (step codeHash hmac s call).2⟩])
      (step codeHash hmac s call).2 := by
  rcases step_cases codeHash hmac s call with ⟨-, same⟩ | ⟨returned, effect⟩
  · rw [same]
    exact ⟨fun p mem => (traced.pairings p mem).append _,
      fun d mem => (traced.devices d mem).append _⟩
  · exact traced_effect traced returned effect

theorem traced_empty : Traced codeHash [] DeviceStore.empty :=
  ⟨fun _ mem => absurd mem not_mem_nil, fun _ mem => absurd mem not_mem_nil⟩

theorem traced_run (calls : List Call) :
    Traced codeHash (history (step codeHash hmac) DeviceStore.empty calls)
      (final (step codeHash hmac) DeviceStore.empty calls) := by
  have run := @traced _ _ _ (step codeHash hmac) (Traced codeHash) traced_step [] DeviceStore.empty
    traced_empty calls
  rwa [nil_append] at run

end Origins

section Once

variable {codeHash : String → String} {hmac : ByteArray → ByteArray → String} {pairingId : String}

def Used (pairingId : String) (s : DeviceStore) : Prop :=
  ∃ p ∈ s.pairings, p.id = pairingId ∧ p.usedAt ≠ none

theorem used_step (s : DeviceStore) (call : Call) (used : Used pairingId s) :
    Used pairingId (step codeHash hmac s call).2 := by
  obtain ⟨p, mem, named, marked⟩ := used
  obtain ⟨p', member', same⟩ := (later_step s call).pairings p mem
  rcases same with rfl | ⟨now, rfl⟩
  · exact ⟨p', member', named, marked⟩
  · exact ⟨_, member', named, by simp [PairingRow.use]⟩

theorem pairs_used {s : DeviceStore} {call : Call}
    (pairs : pairsBy pairingId ⟨s, call, (step codeHash hmac s call).1, (step codeHash hmac s call).2⟩ = true) :
    ¬ Used pairingId s ∧ Used pairingId (step codeHash hmac s call).2 := by
  rcases step_cases codeHash hmac s call with ⟨⟨e, raised⟩, -⟩ | ⟨⟨value, returned⟩, effect⟩
  · simp only [pairsBy, raised] at pairs
    cases pairs
  · simp only [pairsBy] at pairs
    split at pairs
    next _ id code deviceId name capabilities secret now _ answered =>
      have same : id = pairingId := of_decide_eq_true pairs
      subst same
      generalize (step codeHash hmac s _).2 = t at effect ⊢
      cases effect with
      | @paired _ _ _ _ _ _ pairing stored admitted fresh =>
        constructor
        · rintro ⟨p, mem, named, marked⟩
          have one := eq_of_find (find_of_mem stored) mem named
          simp only [PairingRow.admits, Bool.and_eq_true, Option.isNone_iff_eq_none] at admitted
          rw [one] at marked
          exact marked admitted.1.1
        · have there := updated_mem (fun r => decide (r.id = pairing.id))
            (PairingRow.use_id now) stored
          rw [if_pos (decide_eq_true rfl)] at there
          exact ⟨_, there, rfl, by simp [PairingRow.use]⟩
    next => cases pairs

end Once

section Registry

variable {codeHash : String → String} {hmac : ByteArray → ByteArray → String}

/-- A new command is for a device that is unrevoked and declares its capability. -/
theorem declared_of_stored {s : DeviceStore} {call : Call}
    (stored : c ∈ (step codeHash hmac s call).2.commands) (new : s.commands.find c.commandId = none) :
    ∃ d ∈ s.devices, d.deviceId = c.deviceId ∧ d.revokedAt = none ∧
      c.capability ∈ d.manifest.map Prod.fst ∧ c.status = .issued := by
  have absent : c ∉ s.commands := by
    intro mem
    have found := find_of_mem mem
    rw [new] at found
    cases found
  rcases step_cases codeHash hmac s call with ⟨-, same⟩ | ⟨-, effect⟩
  · rw [same] at stored
    exact absurd stored absent
  · generalize (step codeHash hmac s call).2 = t at effect stored
    cases effect with
    | created | paired | declared | revoked => exact absurd stored absent
    | @issued _ _ _ _ _ device present unrevoked declared fresh =>
      rcases (mem_insert fresh).mp stored with here | rfl
      · exact absurd here absent
      · exact ⟨device, present, rfl, unrevoked, declared, rfl⟩
    | completed =>
      obtain ⟨c₀, here, became⟩ := origin_of_updated (CommandRow.settle_commandId _ _ _) stored
      have found := find_of_mem here
      have named : c.commandId = c₀.commandId := by
        rw [← became]
        split <;> rfl
      rw [← named, new] at found
      cases found

/-- In every order of the calls: a pairing pairs at most one device, with its code, by its expiry
and for the owner who created it; every device was paired so; a new command is for an unrevoked
device that declares its capability; a revoked device keeps its row and gets no new command;
a command leaves `issued` at most once and then stays; a call that raises changes nothing. -/
theorem registry_upheld (codeHash : String → String) (hmac : ByteArray → ByteArray → String)
    (calls : List Call) :
    (∀ pairingId, (history (step codeHash hmac) DeviceStore.empty calls).countP (pairsBy pairingId) ≤ 1) ∧
    (∀ pre e post, history (step codeHash hmac) DeviceStore.empty calls = pre ++ e :: post →
      ∀ pairingId code deviceId name capabilities secret now,
        e.action = .pair pairingId code deviceId name capabilities secret now → Returned e →
          ∃ created ∈ pre, ∃ device, device.deviceId = deviceId ∧ Redeems codeHash created e device) ∧
    (∀ d ∈ (final (step codeHash hmac) DeviceStore.empty calls).devices,
      PairedBy codeHash (history (step codeHash hmac) DeviceStore.empty calls) d) ∧
    (∀ e ∈ history (step codeHash hmac) DeviceStore.empty calls, ∀ c ∈ e.after.commands,
      e.before.commands.find c.commandId = none → ∃ d ∈ e.before.devices, d.deviceId = c.deviceId ∧
        d.revokedAt = none ∧ c.capability ∈ d.manifest.map Prod.fst ∧ c.status = .issued) ∧
    (∀ first second, calls = first ++ second →
      Later (final (step codeHash hmac) DeviceStore.empty first)
        (final (step codeHash hmac) DeviceStore.empty calls)) ∧
    (∀ e ∈ history (step codeHash hmac) DeviceStore.empty calls, ∀ error, e.answer = .error error →
      e.after = e.before) := by
  refine ⟨?_, ?_, (traced_run calls).devices, ?_, ?_, ?_⟩
  · intro pairingId
    refine count_le_one used_step ?_ (fun s call pairs => (pairs_used pairs).2) _ calls
    intro s call used
    by_contra pairs
    exact (pairs_used (Bool.not_eq_false _ ▸ pairs)).1 used
  · intro pre e post split pairingId code deviceId name capabilities secret now acted returned
    have traced := @traced_before _ _ _ (step codeHash hmac) (Traced codeHash) traced_step _
      traced_empty _ _ _ _ split
    have member : e ∈ history (step codeHash hmac) DeviceStore.empty calls := by
      rw [split]
      exact mem_append_right _ mem_cons_self
    have ran := step_of_mem member
    rcases e with ⟨before, call, answer, after⟩
    obtain rfl : call = _ := acted
    rcases step_cases codeHash hmac before _ with ⟨⟨error, raised⟩, -⟩ | ⟨-, effect⟩
    · obtain ⟨value, rfl⟩ : ∃ value, answer = .ok value := returned
      rw [ran] at raised
      cases raised
    · rw [ran] at effect
      exact redeems_of_paired traced returned effect
  · intro e member c stored new
    have stored' : c ∈ (step codeHash hmac e.before e.action).2.commands := by
      rw [step_of_mem member]
      exact stored
    exact declared_of_stored stored' new
  · rintro first second rfl
    rw [final_append]
    exact relates later_refl later_trans later_step _ second
  · intro e member error answered
    have ran := step_of_mem member
    rcases step_cases codeHash hmac e.before e.action with ⟨-, same⟩ | ⟨⟨value, returned⟩, -⟩
    · rw [ran] at same
      exact same
    · rw [ran, answered] at returned
      cases returned

end Registry

end Meemee.Guarantees.DeviceRegistry
