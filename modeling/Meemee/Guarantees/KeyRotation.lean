import Meemee.Library.Base64
import Meemee.Source.KeyRotation

/-!
# A rotation of keys is all or nothing

A rotation that an `Exception` stops puts both databases back. Only `except Exception` does so:
`KeyboardInterrupt`, `SystemExit` or a cancellation between the commit of the webhooks and the
commit of the vault leaves the two files on two keys. `Torn` is exactly when that happens.
-/
namespace Meemee.Guarantees.KeyRotation
open Library Source.KeyRotation Library.Txn Library.Table Option List

/-- What is relied on of base64 and of AES-GCM: what one key opens no other key opens. -/
structure Correct (crypto : Crypto) : Prop where
  encoded : ∀ bytes, crypto.b64decode (crypto.b64encode bytes) = some bytes
  opened : ∀ key nonce value context, key.length = 32 → nonce.length = 12 →
    crypto.decrypt key nonce (crypto.encrypt key nonce value context) context = some value
  foreign : ∀ key other nonce ciphertext context, key.length = 32 → other.length = 32 →
    (crypto.decrypt key nonce ciphertext context).isSome → other ≠ key →
      crypto.decrypt other nonce ciphertext context = none

section Values

variable (crypto : Crypto)

def openVault (key : String) (r : VaultRow) : Option String :=
  (material crypto key).toOption.bind (fun bytes =>
    crypto.decrypt bytes r.nonce r.ciphertext r.name)

def openHook (key : String) (r : HookRow) : Option String :=
  (material crypto key).toOption.bind (fun bytes =>
    SecretCipher.decrypt crypto bytes r.secret (context r.id))

/-- The row under a name, and in it the plaintext when the key opens it. -/
def valueAt {ρ : Type} {key : ρ → String} (opens : ρ → Option String) (t : Option (Table key))
    (k : String) : Option (Option String) :=
  (t.bind (fun table => table.find k)).map opens

/-- The same secrets, first under one key, then under another. -/
def SameSecrets (key key' : String) (before after : Disk) : Prop :=
  (∀ name, valueAt (openVault crypto key') after.vault name =
    valueAt (openVault crypto key) before.vault name) ∧
  ∀ id, valueAt (openHook crypto key') after.hooks id =
    valueAt (openHook crypto key) before.hooks id

/-- Everything is under the new key, or everything is under the old one. -/
def AllOrNothing (old new : String) (before after : Disk) : Prop :=
  SameSecrets crypto old new before after ∨ SameSecrets crypto old old before after

end Values

/-- The calls before the first commit. -/
def BeforeCommits : Call → Prop
  | .readKeys | .prepare | .checkMarker | .makeBackups | .publishMarker
  | .writeMarker | .connectVault | .connectHooks | .selectVault | .selectHooks
  | .decodeVault | .decodeHooks | .sealVault | .sealHooks
  | .beginVault | .updateVault | .beginHooks | .updateHooks => True
  | _ => False

/-- No `Exception` is raised when the webhooks are committed and the vault is not. -/
def Between (plan : Call → Option Fault) : Prop :=
  plan .commitHooks = some ⟨.interrupt, true⟩ ∨
    (plan .commitHooks = none ∧ plan .commitVault = some ⟨.interrupt, false⟩)

/-- A database with something in it, all of it readable. -/
def Readable {ρ : Type} {key : ρ → String}
    (decode : List ρ → Except Raised (List (String × String))) (t : Option (Table key)) : Prop :=
  ∃ table values, t = some table ∧ table.rows ≠ [] ∧ decode table.rows = .ok values

/-- Two keys, secrets under the old one in both databases, an interrupt between the commits. -/
structure Torn (plan : Call → Option Fault) (crypto : Crypto) (old new : String) (disk : Disk)
    (oldKey newKey : Bytes) : Prop where
  oldMaterial : material crypto old = .ok oldKey
  newMaterial : material crypto new = .ok newKey
  different : oldKey ≠ newKey
  unmarked : disk.marker = false
  vault : Readable (decodeVault crypto oldKey) disk.vault
  hooks : Readable (decodeHooks crypto oldKey) disk.hooks
  quiet : ∀ c, BeforeCommits c → plan c = none
  between : Between plan

variable {key bytes : Bytes} {values : List (String × String)} {s t : Rotation}
  {handler : RotationTxn Unit}

section Rewriting

variable {crypto : Crypto}

theorem decodeVault_ok {rows : List VaultRow} (decoded : decodeVault crypto key rows = .ok values) :
    List.Forall₂ (fun r v => v.1 = r.name ∧
      crypto.decrypt key r.nonce r.ciphertext r.name = some v.2) rows values := by
  induction rows generalizing values with
  | nil =>
    cases decoded
    exact .nil
  | cons r rest ih =>
    simp only [decodeVault] at decoded
    split at decoded
    next => cases decoded
    next value found =>
      cases later : decodeVault crypto key rest with
      | error e =>
        rw [later] at decoded
        cases decoded
      | ok others =>
        rw [later] at decoded
        cases decoded
        exact .cons ⟨rfl, found⟩ (ih later)

theorem decodeHooks_ok {rows : List HookRow} (decoded : decodeHooks crypto key rows = .ok values) :
    List.Forall₂ (fun r v => v.1 = r.id ∧
      SecretCipher.decrypt crypto key r.secret (context r.id) = some v.2) rows values := by
  induction rows generalizing values with
  | nil =>
    cases decoded
    exact .nil
  | cons r rest ih =>
    simp only [decodeHooks] at decoded
    split at decoded
    next =>
      split at decoded
      next => cases decoded
      next value found =>
        cases later : decodeHooks crypto key rest with
        | error e =>
          rw [later] at decoded
          cases decoded
        | ok others =>
          rw [later] at decoded
          cases decoded
          exact .cons ⟨rfl, found⟩ (ih later)
    next => cases decoded

theorem material_length {key : String} (ok : material crypto key = .ok bytes) :
    bytes.length = 32 := by
  unfold material at ok
  split at ok
  next => cases ok
  next =>
    split at ok
    next right =>
      cases ok
      exact right
    next => cases ok

theorem cipher_prefixed (crypto : Crypto) (key : Bytes) (nonce : Nonce) (value text : String) :
    PREFIX.toList.isPrefixOf (SecretCipher.encrypt crypto key nonce value text).toList = true := by
  simp [SecretCipher.encrypt]

theorem cipher_opened (correct : Correct crypto) (length : key.length = 32) (nonce : Nonce)
    (value text : String) :
    SecretCipher.decrypt crypto key (SecretCipher.encrypt crypto key nonce value text) text =
      some value := by
  have prefixed := cipher_prefixed crypto key nonce value text
  have rest : String.ofList ((SecretCipher.encrypt crypto key nonce value text).toList.drop
      PREFIX.length) = crypto.b64encode (nonce.val ++ crypto.encrypt key nonce.val value text) := by
    simp [SecretCipher.encrypt, ← String.length_toList]
  have here := nonce.property
  simp only [SecretCipher.decrypt, prefixed, rest, correct.encoded]
  simp [← here, correct.opened key nonce.val value text length here]

theorem cipher_foreign (correct : Correct crypto) {other : Bytes} {value text : String}
    (length : key.length = 32) (length' : other.length = 32)
    (opened : (SecretCipher.decrypt crypto key value text).isSome) (different : other ≠ key) :
    SecretCipher.decrypt crypto other value text = none := by
  by_cases prefixed : PREFIX.toList.isPrefixOf value.toList
  · simp only [SecretCipher.decrypt, if_pos prefixed] at opened ⊢
    cases payload : crypto.b64decode (String.ofList (value.toList.drop PREFIX.length)) with
    | none => rfl
    | some bytes =>
      rw [payload] at opened
      exact correct.foreign _ _ _ _ _ length length' opened different
  · rw [SecretCipher.decrypt, if_neg prefixed]

/-- Rows all read, sealed anew and updated by key give the same values, read the new way. -/
theorem find_rewritten {ρ : Type} {key : ρ → String} {assign : ρ → ρ → ρ}
    {keeps : ∀ u r, key (assign u r) = key r} {t : Table key} {make : String × String → ρ}
    {before after : ρ → Option String}
    (decoded : List.Forall₂ (fun r v => v.1 = key r ∧ before r = some v.2) t.rows values)
    (sealed : ∀ v, key (make v) = v.1)
    (opened : ∀ v r, key r = v.1 → after (assign (make v) r) = some v.2) (k : String) :
    ((t.updateMany key assign keeps (values.map make)).find k).map after =
      (t.find k).map before := by
  have names : (values.map make).map key = t.rows.map key := by
    generalize t.rows = rows at decoded
    induction decoded with
    | nil => rfl
    | cons head _ ih => simp [sealed, head.1, ih]
  cases found : t.find k with
  | none =>
    rw [find_updateMany_other, found]
    · rfl
    · intro u mem same
      have there : key u ∈ t.rows.map key := names ▸ mem_map.mpr ⟨u, mem, rfl⟩
      obtain ⟨r, stored, keyed⟩ := mem_map.mp there
      exact find_none_iff.mp found r stored (keyed.trans same)
  | some r =>
    obtain ⟨stored, rfl⟩ := find_some_iff.mp found
    have paired : ∃ v ∈ values, v.1 = key r ∧ before r = some v.2 := by
      obtain ⟨i, bound, here⟩ := getElem_of_mem stored
      have lengths := decoded.length_eq
      refine ⟨values[i], getElem_mem _, ?_⟩
      have pair := List.Forall₂.get decoded bound (lengths ▸ bound)
      simp only [get_eq_getElem, here] at pair
      exact pair
    obtain ⟨v, mem, keyed, value⟩ := paired
    have updated : (t.updateMany key assign keeps (values.map make)).find (key (make v)) =
        (t.find (key (make v))).map (assign (make v)) :=
      find_updateMany (names ▸ t.unique) (mem_map.mpr ⟨v, mem, rfl⟩)
    rw [sealed v, keyed, found] at updated
    rw [updated]
    simp [value, opened v r keyed.symm]

end Rewriting

section Calls

variable {plan : Call → Option Fault} {c : Call} {effect : Rotation → Rotation}
  {condition : Rotation → Bool} {s t : Rotation}

variable {α : Type}

theorem perform_bind {next : Unit → RotationTxn α} {a : α}
    (run : (perform plan c effect >>= next) s = (.ok a, t)) :
    plan c = none ∧ next () (effect s) = (.ok a, t) := by
  obtain ⟨_, s', ran, rest⟩ := bind_returned run
  unfold perform at ran
  split at ran
  next quiet =>
    cases ran
    exact ⟨quiet, rest⟩
  next => cases ran

theorem perform_quiet (quiet : plan c = none) : perform plan c effect s = (.ok (), effect s) := by
  rw [perform, quiet]

theorem performIf_bind {next : Unit → RotationTxn α} {a : α}
    (run : (performIf plan condition c effect >>= next) s = (.ok a, t)) :
    (condition s = true → plan c = none) ∧
      next () (if condition s then effect s else s) = (.ok a, t) := by
  obtain ⟨_, s', ran, rest⟩ := bind_returned run
  unfold performIf at ran
  split at ran
  next holds =>
    rcases planned : plan c with _ | fault
    · rw [perform, planned] at ran
      cases ran
      exact ⟨fun _ => rfl, by rwa [if_pos holds]⟩
    · rw [perform, planned] at ran
      cases ran
  next fails =>
    cases ran
    exact ⟨fun holds => absurd holds fails, by rwa [if_neg fails]⟩

theorem performIf_quiet (quiet : plan c = none) (holds : condition s = true) :
    performIf plan condition c effect s = (.ok (), effect s) := by
  rw [performIf, if_pos holds, perform_quiet quiet]

theorem attempt_bind {β : Type} {result : Except Raised α} {next : α → RotationTxn β} {b : β}
    (run : (attempt plan c result >>= next) s = (.ok b, t)) :
    plan c = none ∧ ∃ a, result = .ok a ∧ next a s = (.ok b, t) := by
  obtain ⟨a, s', ran, rest⟩ := bind_returned run
  obtain ⟨quiet, computed⟩ := perform_bind ran
  cases computed
  exact ⟨quiet, a, rfl, rest⟩

theorem attempt_quiet {result : Except Raised α} {a : α} (quiet : plan c = none)
    (ok : result = .ok a) : attempt plan c result s = (.ok a, s) := by
  rw [attempt, run_bind_ok (perform_quiet quiet), ok]
  rfl

theorem performIf_cases (plan : Call → Option Fault) (condition : Rotation → Bool) (c : Call)
    (effect : Rotation → Rotation) (s : Rotation) :
    (condition s = false ∧ performIf plan condition c effect s = (.ok (), s)) ∨
    (condition s = true ∧ plan c = none ∧
      performIf plan condition c effect s = (.ok (), effect s)) ∨
    (condition s = true ∧ ∃ raised applied, plan c = some ⟨raised, applied⟩ ∧
      performIf plan condition c effect s =
        (.error raised, if applied then effect s else s)) := by
  unfold performIf
  split
  next holds =>
    cases planned : plan c with
    | none =>
      rw [perform, planned]
      exact .inr (.inl ⟨holds, rfl, rfl⟩)
    | some fault =>
      rw [perform, planned]
      exact .inr (.inr ⟨holds, fault.raised, fault.applied, rfl, rfl⟩)
  next fails => exact .inl ⟨eq_false_of_ne_true fails, rfl⟩

variable {R : Rotation → Rotation → Prop} (refl : ∀ s, R s s) (keeps : ∀ s, R s (effect s))
include refl keeps

theorem confined_perform : Txn.Confined R (perform plan c effect) := by
  intro s
  unfold perform
  split
  · exact keeps s
  · split
    · exact keeps s
    · exact refl s

theorem confined_performIf : Txn.Confined R (performIf plan condition c effect) := by
  intro s
  unfold performIf
  split
  · exact confined_perform refl keeps s
  · exact refl s

end Calls

theorem perform_cases (plan : Call → Option Fault) (c : Call) (effect : Rotation → Rotation)
    (s : Rotation) : (plan c = none ∧ perform plan c effect s = (.ok (), effect s)) ∨
      ∃ e, perform plan c effect s = (.error e, effect s) ∨
        perform plan c effect s = (.error e, s) := by
  unfold perform
  cases plan c with
  | none => exact .inl ⟨rfl, rfl⟩
  | some fault =>
    rcases fault with ⟨e, _ | _⟩
    · exact .inr ⟨e, .inr rfl⟩
    · exact .inr ⟨e, .inl rfl⟩

theorem attempt_cases (plan : Call → Option Fault) (c : Call) (result : Except Raised α)
    (s : Rotation) : (∃ e, attempt plan c result s = (.error e, s)) ∨
      (plan c = none ∧ ∃ a, result = .ok a ∧ attempt plan c result s = (.ok a, s)) := by
  rcases perform_cases plan c id s with ⟨quiet, ran⟩ | ⟨e, ran | ran⟩
  · cases result with
    | ok a => exact .inr ⟨quiet, a, rfl, attempt_quiet quiet rfl⟩
    | error e => exact .inl ⟨e, run_bind_ok ran⟩
  · exact .inl ⟨e, run_bind_error ran⟩
  · exact .inl ⟨e, run_bind_error ran⟩

theorem perform_id (plan : Call → Option Fault) (c : Call) (s : Rotation) :
    (perform plan c id s).2 = s := by
  unfold perform
  split
  · rfl
  · split <;> rfl

theorem confined_attempt {plan : Call → Option Fault} {c : Call}
    {R : Rotation → Rotation → Prop} (refl : ∀ s, R s s) (result : Except Raised α) :
    Txn.Confined R (attempt plan c result) := by
  intro s
  have kept : R s (perform plan c id s).2 := confined_perform refl refl s
  unfold attempt
  rcases run : perform plan c id s with ⟨_ | _, t⟩
  · rw [run] at kept
    rw [run_bind_error run]
    exact kept
  · rw [run] at kept
    rw [run_bind_ok run]
    exact kept

/-- The files and the backups stay. -/
def SameFiles (s t : Rotation) : Prop := t.disk = s.disk ∧ t.backups = s.backups

theorem sameFiles_refl (s : Rotation) : SameFiles s s := ⟨rfl, rfl⟩

theorem sameFiles_trans (s t u : Rotation) (first : SameFiles s t) (later : SameFiles t u) :
    SameFiles s u := ⟨later.1.trans first.1, later.2.trans first.2⟩

theorem updateVault_files {updates : List VaultRow} (s : Rotation) :
    SameFiles s (s.updateVault updates) := by
  unfold Rotation.updateVault
  split <;> exact ⟨rfl, rfl⟩

theorem updateHooks_files {updates : List HookRow} (s : Rotation) :
    SameFiles s (s.updateHooks updates) := by
  unfold Rotation.updateHooks
  split <;> exact ⟨rfl, rfl⟩

def pending {τ : Type} : Option τ → Connection τ
  | none => .none
  | some content => .writing content

/-- The vault with every secret sealed anew. -/
def newVault (crypto : Crypto) (key : Bytes) (draws : Draws) (values : List (String × String))
    (t : Option (Table VaultRow.name)) : Option (Table VaultRow.name) :=
  t.map (rewriteVault (sealVault crypto key draws values))

def newHooks (crypto : Crypto) (key : Bytes) (draws : Draws) (values : List (String × String))
    (t : Option (Table HookRow.id)) : Option (Table HookRow.id) :=
  t.map (rewriteHooks (sealHooks crypto key draws values))

/-- Both transactions hold their updates. -/
def written (s : Rotation) (vault : Option (Table VaultRow.name))
    (hooks : Option (Table HookRow.id)) : Rotation :=
  { s with vault := pending vault, hooks := pending hooks, mutated := true }

section Rotations

variable {plan : Call → Option Fault} {crypto : Crypto} {oldKey newKey : Bytes} {draws : Draws}

theorem writeUpdates_confined :
    Txn.Confined SameFiles (writeUpdates plan crypto oldKey newKey draws) := by
  have step {c : Call} {condition : Rotation → Bool} {effect : Rotation → Rotation}
      (keeps : ∀ s, SameFiles s (effect s)) {α : Type} {next : Unit → RotationTxn α}
      (rest : ∀ a, Txn.Confined SameFiles (next a)) :
      Txn.Confined SameFiles (performIf plan condition c effect >>= next) :=
    confined_bind sameFiles_trans (confined_performIf sameFiles_refl keeps) rest
  have stepAttempt {c : Call} {α β : Type} {result : Except Raised α} {next : α → RotationTxn β}
      (rest : ∀ a, Txn.Confined SameFiles (next a)) :
      Txn.Confined SameFiles (attempt plan c result >>= next) :=
    confined_bind sameFiles_trans (confined_attempt sameFiles_refl result) rest
  refine confined_bind sameFiles_trans
    (confined_perform sameFiles_refl sameFiles_refl) (fun _ => ?_)
  refine step ?connected (fun _ => step ?connected' (fun _ => ?_))
  case connected => exact fun s => ⟨rfl, rfl⟩
  case connected' => exact fun s => ⟨rfl, rfl⟩
  refine step sameFiles_refl (fun _ => confined_read (fun vaultRows => ?_))
  refine step sameFiles_refl (fun _ => confined_read (fun hookRows => ?_))
  refine stepAttempt (fun _ => stepAttempt (fun _ => ?_))
  refine stepAttempt (fun _ => stepAttempt (fun _ => ?_))
  refine confined_bind sameFiles_trans (fun s => ⟨rfl, rfl⟩) (fun _ => ?_)
  refine step ?began (fun _ => step updateVault_files (fun _ => ?_))
  case began => exact fun s => ⟨rfl, rfl⟩
  refine step ?began' (fun _ => step updateHooks_files (fun _ => ?_))
  case began' => exact fun s => ⟨rfl, rfl⟩
  exact confined_pure sameFiles_refl _

theorem writeUpdates_returned {counts : Nat × Nat} (vaultNone : s.vault = .none)
    (hooksNone : s.hooks = .none)
    (run : writeUpdates plan crypto oldKey newKey draws s = (.ok counts, t)) :
    ∃ vaultValues hookValues,
      decodeVault crypto oldKey (rowsOf s.disk.vault) = .ok vaultValues ∧
      decodeHooks crypto oldKey (rowsOf s.disk.hooks) = .ok hookValues ∧
      t = written s (newVault crypto newKey draws vaultValues s.disk.vault)
        (newHooks crypto newKey draws hookValues s.disk.hooks) ∧
      (s.disk.vault.isSome → s.disk.hooks.isSome →
        plan .writeMarker = none ∧ plan .connectVault = none ∧ plan .connectHooks = none ∧
        plan .selectVault = none ∧ plan .selectHooks = none ∧ plan .decodeVault = none ∧
        plan .decodeHooks = none ∧ plan .sealVault = none ∧ plan .sealHooks = none ∧
        plan .beginVault = none ∧ plan .updateVault = none ∧ plan .beginHooks = none ∧
        plan .updateHooks = none) := by
  obtain ⟨marked, run⟩ := perform_bind run
  obtain ⟨connectVault, run⟩ := performIf_bind run
  obtain ⟨connectHooks, run⟩ := performIf_bind run
  obtain ⟨selectVault, run⟩ := performIf_bind run
  obtain ⟨selectHooks, run⟩ := performIf_bind run
  obtain ⟨decodeVault, vaultValues, vaultDecoded, run⟩ := attempt_bind run
  obtain ⟨decodeHooks, hookValues, hooksDecoded, run⟩ := attempt_bind run
  obtain ⟨sealVault, vaultUpdates, vaultSealed, run⟩ := attempt_bind run
  obtain ⟨sealHooks, hookUpdates, hooksSealed, run⟩ := attempt_bind run
  obtain ⟨beginVault, run⟩ := performIf_bind run
  obtain ⟨updateVault, run⟩ := performIf_bind run
  obtain ⟨beginHooks, run⟩ := performIf_bind run
  obtain ⟨updateHooks, run⟩ := performIf_bind run
  cases run
  cases vaultSealed
  cases hooksSealed
  refine ⟨vaultValues, hookValues, ?_⟩
  rcases s with ⟨⟨_ | vault, _ | hooks, marker⟩, backups, _, _, mutated⟩
  all_goals cases vaultNone
  all_goals cases hooksNone
  · exact ⟨vaultDecoded, hooksDecoded, rfl, nofun⟩
  · exact ⟨vaultDecoded, hooksDecoded, rfl, nofun⟩
  · exact ⟨vaultDecoded, hooksDecoded, rfl, nofun⟩
  · exact ⟨vaultDecoded, hooksDecoded, rfl, fun _ _ => ⟨marked, connectVault rfl, connectHooks rfl,
      selectVault rfl, selectHooks rfl, decodeVault, decodeHooks, sealVault, sealHooks,
      beginVault rfl, updateVault rfl, beginHooks rfl, updateHooks rfl⟩⟩

theorem writeUpdates_quiet (newKey : Bytes) (draws : Draws) {vault : Table VaultRow.name}
    {hooks : Table HookRow.id} {vaultValues hookValues : List (String × String)}
    (quiet : ∀ c, BeforeCommits c → plan c = none) (hasVault : s.disk.vault = some vault)
    (hasHooks : s.disk.hooks = some hooks)
    (vaultDecoded : decodeVault crypto oldKey vault.rows = .ok vaultValues)
    (hooksDecoded : decodeHooks crypto oldKey hooks.rows = .ok hookValues) :
    ∃ counts, writeUpdates plan crypto oldKey newKey draws s = (.ok counts,
      written s (newVault crypto newKey draws vaultValues s.disk.vault)
        (newHooks crypto newKey draws hookValues s.disk.hooks)) := by
  rcases s with ⟨⟨_, _, marker⟩, backups, vaultConnection, hooksConnection, mutated⟩
  cases hasVault
  cases hasHooks
  rw [writeUpdates, run_bind_ok (perform_quiet (quiet .writeMarker trivial)),
    run_bind_ok (performIf_quiet (quiet .connectVault trivial) rfl),
    run_bind_ok (performIf_quiet (quiet .connectHooks trivial) rfl),
    run_bind_ok (performIf_quiet (quiet .selectVault trivial) rfl), run_bind_read,
    run_bind_ok (performIf_quiet (quiet .selectHooks trivial) rfl), run_bind_read]
  dsimp only [id, rowsOf]
  rw [run_bind_ok (attempt_quiet (quiet .decodeVault trivial) vaultDecoded),
    run_bind_ok (attempt_quiet (quiet .decodeHooks trivial) hooksDecoded),
    run_bind_ok (attempt_quiet (quiet .sealVault trivial) rfl),
    run_bind_ok (attempt_quiet (quiet .sealHooks trivial) rfl), run_bind_write,
    run_bind_ok (performIf_quiet (quiet .beginVault trivial) rfl),
    run_bind_ok (performIf_quiet (quiet .updateVault trivial) rfl),
    run_bind_ok (performIf_quiet (quiet .beginHooks trivial) rfl),
    run_bind_ok (performIf_quiet (quiet .updateHooks trivial) rfl)]
  exact ⟨_, rfl⟩

/-- How far the commits of two transactions got. -/
inductive Committed (plan : Call → Option Fault) (s t : Rotation)
    (vault : Option (Table VaultRow.name)) (hooks : Option (Table HookRow.id)) : Prop where
  | neither (vaultKept : t.disk.vault = s.disk.vault) (hooksKept : t.disk.hooks = s.disk.hooks)
  | both (vaultMoved : t.disk.vault = vault) (hooksMoved : t.disk.hooks = hooks)
  | hooksOnly (vaultKept : t.disk.vault = s.disk.vault) (hooksMoved : t.disk.hooks = hooks)
      (between : vault.isSome → hooks.isSome → Between plan)

/-- Both databases and the backups stay, only the marker may not. -/
def SameData (s t : Rotation) : Prop :=
  t.disk.vault = s.disk.vault ∧ t.disk.hooks = s.disk.hooks ∧ t.backups = s.backups ∧
    t.mutated = s.mutated

theorem sameData_refl (s : Rotation) : SameData s s := ⟨rfl, rfl, rfl, rfl⟩

theorem sameData_mark (marked : Bool) (s : Rotation) : SameData s (s.mark marked) :=
  ⟨rfl, rfl, rfl, rfl⟩

theorem pending_none {τ : Type} {content : Option τ} (idle : (pending content).connected = false) :
    content = none := by
  cases content with
  | none => rfl
  | some => cases idle

theorem pending_some {τ : Type} {content : Option τ}
    (connected : (pending content).connected = true) : ∃ c, content = some c := by
  cases content with
  | none => cases connected
  | some c => exact ⟨c, rfl⟩

theorem commitVault_cases {result : Except Raised Unit} {vault : Option (Table VaultRow.name)}
    (held : s.vault = pending vault) (noVault : vault = none → s.disk.vault = none)
    (run : (performIf plan (fun s => s.vault.connected) .commitVault Rotation.commitVault >>=
      fun _ => perform plan .unlinkMarker (Rotation.mark false)) s = (result, t)) :
    (t.disk.hooks = s.disk.hooks ∧ t.backups = s.backups ∧ t.mutated = s.mutated) ∧
    (result = .ok () → t.disk.vault = vault) ∧
    (result = .error .interrupt → t.disk.vault = vault ∨
      (t.disk.vault = s.disk.vault ∧ (vault.isSome →
        plan .commitVault = some ⟨.interrupt, false⟩))) := by
  have committed (content : Table VaultRow.name) (here : vault = some content) :
      s.commitVault = { s with disk := { s.disk with vault := some content }, vault := .idle } := by
    rw [Rotation.commitVault, held, here]
    rfl
  have unlinked (u : Rotation) :
      SameData u (perform plan .unlinkMarker (Rotation.mark false) u).2 :=
    confined_perform sameData_refl (sameData_mark false) u
  rcases performIf_cases plan (fun s => s.vault.connected) .commitVault Rotation.commitVault s with
    ⟨idle, ran⟩ | ⟨connected, quiet, ran⟩ | ⟨connected, raised, applied, planned, ran⟩
  · rw [run_bind_ok ran] at run
    rw [held] at idle
    obtain rfl := pending_none idle
    obtain ⟨vaultSame, hooksSame, backupsSame, mutatedSame⟩ := run ▸ unlinked s
    have absent : t.disk.vault = none := vaultSame.trans (noVault rfl)
    exact ⟨⟨hooksSame, backupsSame, mutatedSame⟩, fun _ => absent, fun _ => .inl absent⟩
  · rw [run_bind_ok ran] at run
    rw [held] at connected
    obtain ⟨content, rfl⟩ := pending_some connected
    rw [committed content rfl] at run
    obtain ⟨vaultSame, hooksSame, backupsSame, mutatedSame⟩ := run ▸ unlinked _
    exact ⟨⟨hooksSame, backupsSame, mutatedSame⟩, fun _ => vaultSame, fun _ => .inl vaultSame⟩
  · rw [run_bind_error ran] at run
    cases run
    rw [held] at connected
    obtain ⟨content, rfl⟩ := pending_some connected
    cases applied with
    | true =>
      rw [committed content rfl]
      exact ⟨⟨rfl, rfl, rfl⟩, nofun, fun _ => .inl rfl⟩
    | false =>
      refine ⟨⟨rfl, rfl, rfl⟩, nofun, fun stopped => ?_⟩
      cases stopped
      exact .inr ⟨rfl, fun _ => planned⟩

/-- A commit stopped between the two transactions moves the webhooks alone. -/
theorem commit_cases {result : Except Raised Unit} {vault : Option (Table VaultRow.name)}
    {hooks : Option (Table HookRow.id)} (noVault : vault = none → s.disk.vault = none)
    (noHooks : hooks = none → s.disk.hooks = none)
    (run : commit plan (written s vault hooks) = (result, t)) :
    (t.backups = s.backups ∧ t.mutated = true) ∧
    (result = .ok () → t.disk.vault = vault ∧ t.disk.hooks = hooks) ∧
    (result = .error .interrupt → Committed plan s t vault hooks) := by
  unfold commit at run
  rcases performIf_cases plan (fun s => s.hooks.connected) .commitHooks Rotation.commitHooks
    (written s vault hooks) with ⟨idle, ran⟩ | ⟨connected, hooksQuiet, ran⟩ |
      ⟨connected, raised, applied, planned, ran⟩
  · obtain rfl := pending_none idle
    obtain ⟨⟨hooksSame, backupsSame, mutatedSame⟩, returned, stopped⟩ :=
      commitVault_cases (s := written s vault none) rfl noVault run
    have absent : t.disk.hooks = none := hooksSame.trans (noHooks rfl)
    refine ⟨⟨backupsSame, mutatedSame⟩, fun ok => ⟨returned ok, absent⟩, fun interrupted => ?_⟩
    rcases stopped interrupted with moved | ⟨kept, between⟩
    · exact .both moved absent
    · exact .hooksOnly kept absent nofun
  · rw [run_bind_ok ran] at run
    obtain ⟨content, rfl⟩ := pending_some connected
    obtain ⟨⟨hooksSame, backupsSame, mutatedSame⟩, returned, stopped⟩ :=
      commitVault_cases (s := { written s vault (some content) with
        disk := { s.disk with hooks := some content }, hooks := .idle }) rfl noVault run
    refine ⟨⟨backupsSame, mutatedSame⟩, fun ok => ⟨returned ok, hooksSame⟩, fun interrupted => ?_⟩
    rcases stopped interrupted with moved | ⟨kept, between⟩
    · exact .both moved hooksSame
    · exact .hooksOnly kept hooksSame (fun there _ => .inr ⟨hooksQuiet, between there⟩)
  · rw [run_bind_error ran] at run
    cases run
    obtain ⟨content, rfl⟩ := pending_some connected
    cases applied with
    | true =>
      refine ⟨⟨rfl, rfl⟩, nofun, fun interrupted => ?_⟩
      cases interrupted
      exact .hooksOnly rfl rfl (fun _ _ => .inl planned)
    | false =>
      refine ⟨⟨rfl, rfl⟩, nofun, fun _ => ?_⟩
      exact .neither rfl rfl

theorem commit_between (s : Rotation) (vault : Table VaultRow.name) (hooks : Table HookRow.id)
    (between : Between plan) : ∃ t, commit plan (written s (some vault) (some hooks)) =
      (.error .interrupt, t) ∧ t.disk.vault = s.disk.vault ∧ t.disk.hooks = some hooks := by
  rcases between with hooksStopped | ⟨hooksQuiet, vaultStopped⟩
  · simp only [commit, run_bind, performIf, perform, hooksStopped]
    exact ⟨_, rfl, rfl, rfl⟩
  · rw [commit, run_bind_ok (performIf_quiet hooksQuiet rfl)]
    simp only [run_bind, performIf, perform, vaultStopped]
    exact ⟨_, rfl, rfl, rfl⟩

theorem recover_data
    (backups : s.mutated = true ∨ s.disk.vault = s.backups.vault ∧ s.disk.hooks = s.backups.hooks) :
    (recover plan s).2.disk.vault = s.backups.vault ∧
      (recover plan s).2.disk.hooks = s.backups.hooks := by
  have same {c : Call} (u : Rotation) : (perform plan c id u).2 = u := perform_id plan c u
  have restored : recover plan s = perform plan .unlinkMarkerAgain (Rotation.mark false)
      (Rotation.restore { s with vault := .none, hooks := .none }) := by
    simp only [recover, run_bind, quietly, same]
    rfl
  obtain ⟨vaultSame, hooksSame, -, -⟩ : SameData _ (perform plan .unlinkMarkerAgain
      (Rotation.mark false) (Rotation.restore { s with vault := .none, hooks := .none })).2 :=
    confined_perform sameData_refl (sameData_mark false) _
  rw [restored, vaultSame, hooksSame]
  unfold Rotation.restore
  split
  · exact ⟨rfl, rfl⟩
  · next kept => exact backups.resolve_left kept

/-- How the databases stand after a rotation of the keys `oldKey` and `newKey`. -/
inductive Outcome (plan : Call → Option Fault) (crypto : Crypto) (oldKey newKey : Bytes)
    (draws : Draws) (disk after : Disk) : Prop where
  | unchanged (vaultKept : after.vault = disk.vault) (hooksKept : after.hooks = disk.hooks)
  | moved {vaultValues hookValues : List (String × String)}
      (vaultDecoded : decodeVault crypto oldKey (rowsOf disk.vault) = .ok vaultValues)
      (hooksDecoded : decodeHooks crypto oldKey (rowsOf disk.hooks) = .ok hookValues)
      (hooksMoved : after.hooks = newHooks crypto newKey draws hookValues disk.hooks)
      (vaultMoved : after.vault = newVault crypto newKey draws vaultValues disk.vault ∨
        (after.vault = disk.vault ∧ (disk.vault.isSome → disk.hooks.isSome →
          (∀ c, BeforeCommits c → plan c = none) ∧ Between plan)))

theorem Outcome.of_same {plan : Call → Option Fault} {crypto : Crypto} {oldKey newKey : Bytes}
    {draws : Draws} {disk disk' after : Disk}
    (outcome : Outcome plan crypto oldKey newKey draws disk after)
    (sameVault : disk.vault = disk'.vault) (sameHooks : disk.hooks = disk'.hooks) :
    Outcome plan crypto oldKey newKey draws disk' after := by
  obtain ⟨vault, hooks, marker⟩ := disk
  cases sameVault
  cases sameHooks
  cases outcome with
  | unchanged vaultKept hooksKept => exact .unchanged vaultKept hooksKept
  | moved vaultDecoded hooksDecoded hooksMoved vaultMoved =>
    exact .moved vaultDecoded hooksDecoded hooksMoved vaultMoved

variable {m : RotationTxn α}

theorem guarded_exception {text : String}
    (run : m s = (.error (.exception text), t)) : (guarded m handler s).2 = (handler t).2 := by
  simp only [guarded, run]
  split <;> next handled => rw [handled]

theorem guarded_interrupt (run : m s = (.error .interrupt, t)) :
    (guarded m handler s).2 = t := by
  simp only [guarded, run]

theorem guarded_returned {a : α} (run : m s = (.ok a, t)) :
    (guarded m handler s).2 = t := by
  simp only [guarded, run]

/-- The `try` statement with its handler. -/
def body (plan : Call → Option Fault) (crypto : Crypto) (oldKey newKey : Bytes) (draws : Draws) :
    RotationTxn (Nat × Nat) :=
  guarded (do
      let counts ← writeUpdates plan crypto oldKey newKey draws
      commit plan
      return counts)
    (recover plan)

theorem body_outcome (vaultNone : s.vault = .none) (hooksNone : s.hooks = .none)
    (vaultBacked : s.disk.vault = s.backups.vault) (hooksBacked : s.disk.hooks = s.backups.hooks)
    (quiet : plan .readKeys = none ∧ plan .prepare = none ∧ plan .checkMarker = none ∧
      plan .makeBackups = none ∧ plan .publishMarker = none) :
    Outcome plan crypto oldKey newKey draws s.disk
      (body plan crypto oldKey newKey draws s).2.disk := by
  have files : SameFiles s (writeUpdates plan crypto oldKey newKey draws s).2 :=
    writeUpdates_confined s
  unfold body
  rcases wrote : writeUpdates plan crypto oldKey newKey draws s with ⟨result, u⟩
  rw [wrote] at files
  obtain ⟨diskSame, backupsSame⟩ := files
  cases result with
  | error e =>
    cases e with
    | exception text =>
      rw [guarded_exception (run_bind_error wrote)]
      have handled : (recover plan u).2.disk.vault = u.backups.vault ∧
          (recover plan u).2.disk.hooks = u.backups.hooks :=
        recover_data (.inr ⟨by rw [diskSame, backupsSame, vaultBacked],
          by rw [diskSame, backupsSame, hooksBacked]⟩)
      rw [backupsSame, ← vaultBacked, ← hooksBacked] at handled
      exact .unchanged handled.1 handled.2
    | interrupt =>
      rw [guarded_interrupt (run_bind_error wrote)]
      exact .unchanged (by rw [diskSame]) (by rw [diskSame])
  | ok counts =>
    obtain ⟨vaultValues, hookValues, vaultDecoded, hooksDecoded, rfl, silent⟩ :=
      writeUpdates_returned vaultNone hooksNone wrote
    have noVault : newVault crypto newKey draws vaultValues s.disk.vault = none →
        s.disk.vault = none := map_eq_none_iff.mp
    have noHooks : newHooks crypto newKey draws hookValues s.disk.hooks = none →
        s.disk.hooks = none := map_eq_none_iff.mp
    rcases ended : commit plan (written s (newVault crypto newKey draws vaultValues s.disk.vault)
      (newHooks crypto newKey draws hookValues s.disk.hooks)) with ⟨result, t⟩
    obtain ⟨⟨backupsKept, mutated⟩, returned, stopped⟩ := commit_cases noVault noHooks ended
    cases result with
    | ok =>
      rw [guarded_returned ((run_bind_ok wrote).trans (run_bind_ok ended))]
      obtain ⟨vaultMoved, hooksMoved⟩ := returned rfl
      exact .moved vaultDecoded hooksDecoded hooksMoved (.inl vaultMoved)
    | error e =>
      cases e with
      | exception text =>
        rw [guarded_exception ((run_bind_ok wrote).trans (run_bind_error ended))]
        have handled : (recover plan t).2.disk.vault = t.backups.vault ∧
            (recover plan t).2.disk.hooks = t.backups.hooks := recover_data (.inl mutated)
        rw [backupsKept, ← vaultBacked, ← hooksBacked] at handled
        exact .unchanged handled.1 handled.2
      | interrupt =>
        rw [guarded_interrupt ((run_bind_ok wrote).trans (run_bind_error ended))]
        cases stopped rfl with
        | neither vaultKept hooksKept => exact .unchanged vaultKept hooksKept
        | both vaultMoved hooksMoved =>
          exact .moved vaultDecoded hooksDecoded hooksMoved (.inl vaultMoved)
        | hooksOnly vaultKept hooksMoved between =>
          refine .moved vaultDecoded hooksDecoded hooksMoved (.inr ⟨vaultKept, ?_⟩)
          intro hasVault hasHooks
          have inside := silent hasVault hasHooks
          refine ⟨fun c before => ?_, between ?_ ?_⟩
          · cases c <;> first | exact before.elim | simp only [quiet, inside]
          · simpa [newVault] using hasVault
          · simpa [newHooks] using hasHooks

end Rotations

theorem finally_snd {cleanup : RotationTxn Unit} (s : Rotation) :
    (finally_ m cleanup s).2 = (cleanup (m s).2).2 := by
  unfold finally_
  rcases m s with ⟨result, t⟩
  rcases cleaned : cleanup t with ⟨_ | _, u⟩ <;> simp only [cleaned]

theorem closeConnections_confined (plan : Call → Option Fault) :
    Txn.Confined SameFiles (closeConnections plan) := by
  refine confined_bind sameFiles_trans (confined_performIf sameFiles_refl ?_)
    (fun _ => confined_performIf sameFiles_refl ?_)
  · exact fun s => ⟨rfl, rfl⟩
  · exact fun s => ⟨rfl, rfl⟩

/-- Without both keys, or with a marker, nothing is touched; else as the `try` leaves it. -/
theorem rotateKeys_outcome (plan : Call → Option Fault) (crypto : Crypto) (old new : String)
    (draws : Draws) (disk : Disk) :
    (∃ oldKey newKey, material crypto old = .ok oldKey ∧ material crypto new = .ok newKey ∧
      disk.marker = false ∧ Outcome plan crypto oldKey newKey draws disk
        (rotateKeys plan crypto old new draws (Rotation.start disk)).2.disk) ∨
    ((rotateKeys plan crypto old new draws (Rotation.start disk)).2.disk.vault = disk.vault ∧
      (rotateKeys plan crypto old new draws (Rotation.start disk)).2.disk.hooks = disk.hooks) := by
  unfold rotateKeys
  rcases attempt_cases plan .readKeys (readKeys crypto old new) (Rotation.start disk) with
    ⟨e, ran⟩ | ⟨readQuiet, keys, read, ran⟩
  · rw [run_bind_error ran]
    exact .inr ⟨rfl, rfl⟩
  obtain ⟨oldKey, oldRead, read⟩ := except_bind_returned read
  obtain ⟨newKey, newRead, read⟩ := except_bind_returned read
  cases read
  rw [run_bind_ok ran]
  rcases perform_cases plan .prepare id (Rotation.start disk) with
    ⟨prepareQuiet, ran⟩ | ⟨e, ran | ran⟩
  rotate_left
  · rw [run_bind_error ran]
    exact .inr ⟨rfl, rfl⟩
  · rw [run_bind_error ran]
    exact .inr ⟨rfl, rfl⟩
  rw [run_bind_ok ran, run_bind_read]
  dsimp only [id]
  rcases attempt_cases plan .checkMarker (refuseMarked (Rotation.start disk).disk.marker)
    (Rotation.start disk) with ⟨e, ran⟩ | ⟨checkQuiet, _, unmarked, ran⟩
  · rw [run_bind_error ran]
    exact .inr ⟨rfl, rfl⟩
  have absent : disk.marker = false := by
    cases here : disk.marker with
    | false => rfl
    | true =>
      rw [Rotation.start, here] at unmarked
      cases unmarked
  rw [run_bind_ok ran, finally_snd, perform_id]
  rcases perform_cases plan .makeBackups Rotation.backup (Rotation.start disk) with
    ⟨backupQuiet, ran⟩ | ⟨e, ran | ran⟩
  rotate_left
  · rw [run_bind_error ran]
    exact .inr ⟨rfl, rfl⟩
  · rw [run_bind_error ran]
    exact .inr ⟨rfl, rfl⟩
  rw [run_bind_ok ran]
  rcases perform_cases plan .publishMarker (Rotation.mark true) (Rotation.start disk).backup with
    ⟨publishQuiet, ran⟩ | ⟨e, ran | ran⟩
  rotate_left
  · rw [run_bind_error ran]
    exact .inr ⟨rfl, rfl⟩
  · rw [run_bind_error ran]
    exact .inr ⟨rfl, rfl⟩
  rw [run_bind_ok ran, finally_snd, (closeConnections_confined plan _).1]
  have reached : Outcome plan crypto oldKey newKey draws
      ((Rotation.start disk).backup.mark true).disk
      (body plan crypto oldKey newKey draws ((Rotation.start disk).backup.mark true)).2.disk :=
    body_outcome rfl rfl rfl rfl
      ⟨readQuiet, prepareQuiet, checkQuiet, backupQuiet, publishQuiet⟩
  exact .inl ⟨oldKey, newKey, oldRead, newRead, absent, reached.of_same rfl rfl⟩

section Secrets

variable {plan : Call → Option Fault} {crypto : Crypto} {old new : String} {oldKey newKey : Bytes}
  {draws : Draws} {disk after : Disk}

theorem openVault_of {key : String} (ok : material crypto key = .ok bytes) (r : VaultRow) :
    openVault crypto key r =
      crypto.decrypt bytes r.nonce r.ciphertext r.name := by
  rw [openVault, ok]
  rfl

theorem openHook_of {key : String} (ok : material crypto key = .ok bytes) (r : HookRow) :
    openHook crypto key r =
      SecretCipher.decrypt crypto bytes r.secret (context r.id) := by
  rw [openHook, ok]
  rfl

/-- The new vault gives under the new key what the old one gave under the old key. -/
theorem newVault_values (draws : Draws) (correct : Correct crypto)
    (oldRead : material crypto old = .ok oldKey) (newRead : material crypto new = .ok newKey)
    {t : Option (Table VaultRow.name)} (decoded : decodeVault crypto oldKey (rowsOf t) = .ok values)
    (name : String) :
    valueAt (openVault crypto new) (newVault crypto newKey draws values t) name =
      valueAt (openVault crypto old) t name := by
  cases t with
  | none => rfl
  | some table =>
    refine find_rewritten ?_ ?_ ?_ name
    · simp only [openVault_of oldRead]
      exact decodeVault_ok decoded
    · exact fun v => rfl
    · intro v r keyed
      rw [openVault_of newRead]
      simp only [VaultRow.assign, keyed]
      exact correct.opened _ _ _ _ (material_length newRead) (draws.vault v.1).property

theorem newHooks_values (draws : Draws) (correct : Correct crypto)
    (oldRead : material crypto old = .ok oldKey) (newRead : material crypto new = .ok newKey)
    {t : Option (Table HookRow.id)} (decoded : decodeHooks crypto oldKey (rowsOf t) = .ok values)
    (id : String) :
    valueAt (openHook crypto new) (newHooks crypto newKey draws values t) id =
      valueAt (openHook crypto old) t id := by
  cases t with
  | none => rfl
  | some table =>
    refine find_rewritten ?_ ?_ ?_ id
    · simp only [openHook_of oldRead]
      exact decodeHooks_ok decoded
    · exact fun v => rfl
    · intro v r keyed
      rw [openHook_of newRead]
      simp only [HookRow.assign, keyed]
      exact cipher_opened correct (material_length newRead) _ _ _

theorem newVault_empty {t : Option (Table VaultRow.name)}
    (decoded : decodeVault crypto oldKey (rowsOf t) = .ok values) (empty : rowsOf t = []) :
    newVault crypto newKey draws values t = t := by
  rw [empty] at decoded
  cases decoded
  cases t <;> rfl

theorem newHooks_empty {t : Option (Table HookRow.id)}
    (decoded : decodeHooks crypto oldKey (rowsOf t) = .ok values) (empty : rowsOf t = []) :
    newHooks crypto newKey draws values t = t := by
  rw [empty] at decoded
  cases decoded
  cases t <;> rfl

theorem readable_of {ρ : Type} {key : ρ → String} {t : Option (Table key)}
    {decode : List ρ → Except Raised (List (String × String))}
    (decoded : decode (rowsOf t) = .ok values) (nonempty : rowsOf t ≠ []) : Readable decode t := by
  cases t with
  | none => exact absurd rfl nonempty
  | some table => exact ⟨table, values, rfl, nonempty, decoded⟩

theorem isSome_of_rows {ρ : Type} {key : ρ → String} {t : Option (Table key)}
    (nonempty : rowsOf t ≠ []) : t.isSome := by
  cases t with
  | none => exact absurd rfl nonempty
  | some table => rfl

theorem sameSecrets_of_same {key : String} (vaultKept : after.vault = disk.vault)
    (hooksKept : after.hooks = disk.hooks) : SameSecrets crypto key key disk after := by
  rw [SameSecrets, vaultKept, hooksKept]
  exact ⟨fun _ => rfl, fun _ => rfl⟩

theorem Outcome.allOrNothing (correct : Correct crypto) (oldRead : material crypto old = .ok oldKey)
    (newRead : material crypto new = .ok newKey) (unmarked : disk.marker = false)
    (outcome : Outcome plan crypto oldKey newKey draws disk after)
    (whole : ¬ Torn plan crypto old new disk oldKey newKey) :
    AllOrNothing crypto old new disk after := by
  cases outcome with
  | unchanged vaultKept hooksKept => exact .inr (sameSecrets_of_same vaultKept hooksKept)
  | @moved vaultValues hookValues vaultDecoded hooksDecoded hooksMoved vaultMoved =>
    have newSecrets (moved : after.vault = newVault crypto newKey draws vaultValues disk.vault) :
        AllOrNothing crypto old new disk after := by
      refine .inl ⟨fun name => ?_, fun id => ?_⟩
      · rw [moved]
        exact newVault_values draws correct oldRead newRead vaultDecoded name
      · rw [hooksMoved]
        exact newHooks_values draws correct oldRead newRead hooksDecoded id
    rcases vaultMoved with moved | ⟨vaultKept, stopped⟩
    · exact newSecrets moved
    by_cases vaultEmpty : rowsOf disk.vault = []
    · exact newSecrets (vaultKept.trans (newVault_empty vaultDecoded vaultEmpty).symm)
    by_cases hooksEmpty : rowsOf disk.hooks = []
    · refine .inr (sameSecrets_of_same vaultKept ?_)
      rw [hooksMoved, newHooks_empty hooksDecoded hooksEmpty]
    by_cases same : oldKey = newKey
    · subst same
      refine .inl ⟨fun name => ?_, fun id => ?_⟩
      · have opens : openVault crypto new = openVault crypto old := by
          funext r
          rw [openVault_of oldRead, openVault_of newRead]
        rw [vaultKept, opens]
      · rw [hooksMoved]
        exact newHooks_values draws correct oldRead newRead hooksDecoded id
    · obtain ⟨quiet, between⟩ := stopped (isSome_of_rows vaultEmpty) (isSome_of_rows hooksEmpty)
      exact absurd ⟨oldRead, newRead, same, unmarked, readable_of vaultDecoded vaultEmpty,
        readable_of hooksDecoded hooksEmpty, quiet, between⟩ whole

/-- An interrupt between the commits: the webhooks are moved, the vault is not. -/
theorem rotateKeys_torn (torn : Torn plan crypto old new disk oldKey newKey) :
    ∃ hookValues, decodeHooks crypto oldKey (rowsOf disk.hooks) = .ok hookValues ∧
      (rotateKeys plan crypto old new draws (Rotation.start disk)).2.disk.vault = disk.vault ∧
      (rotateKeys plan crypto old new draws (Rotation.start disk)).2.disk.hooks =
        newHooks crypto newKey draws hookValues disk.hooks := by
  obtain ⟨oldRead, newRead, -, unmarked, ⟨vault, vaultValues, hasVault, -, vaultDecoded⟩,
    ⟨hooks, hookValues, hasHooks, -, hooksDecoded⟩, quiet, between⟩ := torn
  obtain ⟨_, _, marker⟩ := disk
  cases hasVault
  cases hasHooks
  cases unmarked
  have read : readKeys crypto old new = .ok (oldKey, newKey) := by
    rw [readKeys, oldRead, newRead]
    rfl
  refine ⟨hookValues, hooksDecoded, ?_⟩
  rw [rotateKeys, run_bind_ok (attempt_quiet (quiet .readKeys trivial) read),
    run_bind_ok (perform_quiet (quiet .prepare trivial)), run_bind_read]
  dsimp only [id]
  have passed : refuseMarked (Rotation.start ⟨some vault, some hooks, false⟩).disk.marker =
      .ok () := rfl
  rw [run_bind_ok (attempt_quiet (quiet .checkMarker trivial) passed), finally_snd,
    perform_id, run_bind_ok (perform_quiet (quiet .makeBackups trivial)),
    run_bind_ok (perform_quiet (quiet .publishMarker trivial)), finally_snd,
    (closeConnections_confined plan _).1]
  obtain ⟨counts, wrote⟩ := writeUpdates_quiet newKey draws
    (s := (Rotation.start ⟨some vault, some hooks, false⟩).backup.mark true) quiet rfl rfl
    vaultDecoded hooksDecoded
  obtain ⟨t, ended, vaultKept, hooksMoved⟩ := commit_between
    ((Rotation.start ⟨some vault, some hooks, false⟩).backup.mark true)
    (rewriteVault (sealVault crypto newKey draws vaultValues) vault)
    (rewriteHooks (sealHooks crypto newKey draws hookValues) hooks) between
  rw [guarded_interrupt ((run_bind_ok wrote).trans (run_bind_error ended))]
  exact ⟨vaultKept, hooksMoved⟩

theorem read_of_decoded {ρ : Type} {key : ρ → String} {opens : ρ → Option String} {rows : List ρ}
    {r : ρ} (decoded : List.Forall₂ (fun r v => v.1 = key r ∧ opens r = some v.2) rows values)
    (mem : r ∈ rows) : ∃ value, opens r = some value := by
  induction decoded with
  | nil => cases mem
  | cons head _ ih =>
    rcases mem_cons.mp mem with rfl | later
    · exact ⟨_, head.2⟩
    · exact ih later

theorem not_allOrNothing (correct : Correct crypto)
    (torn : Torn plan crypto old new disk oldKey newKey)
    {hookValues : List (String × String)}
    (hooksDecoded : decodeHooks crypto oldKey (rowsOf disk.hooks) = .ok hookValues)
    (vaultKept : after.vault = disk.vault)
    (hooksMoved : after.hooks = newHooks crypto newKey draws hookValues disk.hooks) :
    ¬ AllOrNothing crypto old new disk after := by
  obtain ⟨oldRead, newRead, different, -,
    ⟨vault, vaultValues, hasVault, vaultNonempty, vaultDecoded⟩,
    ⟨hooks, _, hasHooks, hooksNonempty, -⟩, -, -⟩ := torn
  have oldLength := material_length oldRead
  have newLength := material_length newRead
  rintro (⟨vaultSame, -⟩ | ⟨-, hooksSame⟩)
  · obtain ⟨r, mem⟩ := exists_mem_of_ne_nil _ vaultNonempty
    obtain ⟨value, opened⟩ := read_of_decoded (decodeVault_ok vaultDecoded) mem
    have closed := correct.foreign _ _ _ _ _ oldLength newLength
      (isSome_of_eq_some opened) different.symm
    have same := vaultSame r.name
    rw [vaultKept, hasVault, valueAt, valueAt, bind_some, find_of_mem mem,
      map_some, map_some, openVault_of oldRead, openVault_of newRead, opened,
      closed] at same
    cases same
  · obtain ⟨r, mem⟩ := exists_mem_of_ne_nil _ hooksNonempty
    have newValue := newHooks_values draws correct oldRead newRead hooksDecoded r.id
    have oldValue := hooksSame r.id
    rw [hasHooks] at hooksDecoded
    obtain ⟨value, opened⟩ := read_of_decoded (decodeHooks_ok hooksDecoded) mem
    have before : valueAt (openHook crypto old) disk.hooks r.id = some (some value) := by
      rw [hasHooks, valueAt, bind_some, find_of_mem mem, map_some,
        openHook_of oldRead, opened]
    rw [← hooksMoved, before] at newValue
    rw [before] at oldValue
    obtain ⟨sealed, found, openedNew⟩ := map_eq_some_iff.mp newValue
    obtain ⟨other, found', openedOld⟩ := map_eq_some_iff.mp oldValue
    obtain rfl := Option.some.inj (found.symm.trans found')
    rw [openHook_of newRead] at openedNew
    rw [openHook_of oldRead] at openedOld
    have closed := cipher_foreign correct oldLength newLength (isSome_of_eq_some openedOld)
      different.symm
    rw [closed] at openedNew
    cases openedNew

end Secrets

/-- A rotation leaves all secrets under one key, the old or the new, except when it is torn. -/
theorem rotation_whole_iff (crypto : Crypto) (correct : Correct crypto) (plan : Call → Option Fault)
    (old new : String) (draws : Draws) (disk : Disk) :
    AllOrNothing crypto old new disk
        (rotateKeys plan crypto old new draws (Rotation.start disk)).2.disk ↔
      ¬ ∃ oldKey newKey, Torn plan crypto old new disk oldKey newKey := by
  constructor
  · rintro whole ⟨oldKey, newKey, torn⟩
    obtain ⟨hookValues, hooksDecoded, vaultKept, hooksMoved⟩ := rotateKeys_torn torn
    exact not_allOrNothing correct torn hooksDecoded vaultKept hooksMoved whole
  · intro whole
    rcases rotateKeys_outcome plan crypto old new draws disk with
      ⟨oldKey, newKey, oldRead, newRead, unmarked, outcome⟩ | ⟨vaultKept, hooksKept⟩
    · exact outcome.allOrNothing correct oldRead newRead unmarked
        (fun torn => whole ⟨oldKey, newKey, torn⟩)
    · exact Or.inr (sameSecrets_of_same vaultKept hooksKept)

section Example

/-- Base64, and a cipher that puts key, nonce and associated text before the plaintext. -/
def openCipher : Crypto where
  b64encode bytes := String.ofList (Base64.encode bytes)
  b64decode text := Base64.decode text.toList
  encrypt key nonce value context :=
    key ++ nonce ++ context.toByteArray.data.toList ++ value.toByteArray.data.toList
  decrypt key nonce ciphertext context :=
    let tag := key ++ nonce ++ context.toByteArray.data.toList
    if tag <+: ciphertext then String.fromUTF8? ⟨(ciphertext.drop tag.length).toArray⟩ else none

theorem openCipher_correct : Correct openCipher where
  encoded bytes := by
    simp only [openCipher, String.toList_ofList]
    exact Base64.decode_encode bytes
  opened key nonce value context _ _ := by
    simp only [openCipher]
    rw [if_pos (prefix_append _ _), drop_left, String.fromUTF8?,
      dif_pos value.isValidUTF8]
    rfl
  foreign key other nonce ciphertext context length length' opened different := by
    simp only [openCipher] at opened ⊢
    split at opened
    next tagged =>
      rw [if_neg]
      intro tagged'
      rw [append_assoc] at tagged tagged'
      refine different ?_
      have front := prefix_iff_eq_take.mp ((prefix_append _ _).trans tagged)
      have front' := prefix_iff_eq_take.mp ((prefix_append _ _).trans tagged')
      rw [front, front', length, length']
    next => cases opened

def keyOf (byte : UInt8) : Bytes := List.replicate 32 byte

def keyText (byte : UInt8) : String := String.ofList (Base64.encode (keyOf byte))

def zeroNonce : Nonce := ⟨List.replicate 12 0, length_replicate⟩

def zeroDraws : Draws := ⟨fun _ => zeroNonce, fun _ => zeroNonce⟩

def modelRow : VaultRow :=
  ⟨"model", zeroNonce.val, openCipher.encrypt (keyOf 1) zeroNonce.val "top-secret" "model"⟩

def whsecRow : HookRow :=
  ⟨"h1", SecretCipher.encrypt openCipher (keyOf 1) zeroNonce "whsec" (context "h1")⟩

/-- A secret in either database, under the key of ones. -/
def twoSecrets : Disk where
  vault := some (Table.empty.insert modelRow (find_empty _))
  hooks := some (Table.empty.insert whsecRow (find_empty _))
  marker := false

/-- Control-C before the vault is committed. -/
def interruptedCommit (c : Call) : Option Fault :=
  if c = .commitVault then some ⟨.interrupt, false⟩ else none

theorem material_keyText (byte : UInt8) :
    material openCipher (keyText byte) = .ok (keyOf byte) := by
  have decoded : openCipher.b64decode (keyText byte) = some (keyOf byte) :=
    openCipher_correct.encoded (keyOf byte)
  rw [material, decoded]
  simp [keyOf]

theorem interruptedCommit_torn : Torn interruptedCommit openCipher (keyText 1) (keyText 2)
    twoSecrets (keyOf 1) (keyOf 2) where
  oldMaterial := material_keyText 1
  newMaterial := material_keyText 2
  different := by decide
  unmarked := rfl
  vault := by
    refine ⟨_, [("model", "top-secret")], rfl, by simp [Table.insert], ?_⟩
    rfl
  hooks := by
    refine ⟨_, [("h1", "whsec")], rfl, by simp [Table.insert], ?_⟩
    have prefixed : PREFIX.toList.isPrefixOf whsecRow.secret.toList = true :=
      cipher_prefixed openCipher (keyOf 1) zeroNonce "whsec" (context "h1")
    have read : SecretCipher.decrypt openCipher (keyOf 1) whsecRow.secret (context whsecRow.id) =
        some "whsec" :=
      cipher_opened openCipher_correct length_replicate zeroNonce "whsec" (context "h1")
    change decodeHooks openCipher (keyOf 1) [whsecRow] = _
    rw [decodeHooks, if_pos prefixed, read]
    rfl
  quiet c before := by cases c <;> first | exact before.elim | rfl
  between := .inr ⟨rfl, rfl⟩

theorem interruptedCommit_tears : ¬ AllOrNothing openCipher (keyText 1) (keyText 2) twoSecrets
    (rotateKeys interruptedCommit openCipher (keyText 1) (keyText 2) zeroDraws
      (Rotation.start twoSecrets)).2.disk := by
  obtain ⟨hookValues, hooksDecoded, vaultKept, hooksMoved⟩ := rotateKeys_torn interruptedCommit_torn
  exact not_allOrNothing openCipher_correct interruptedCommit_torn hooksDecoded vaultKept hooksMoved

theorem rotation_whole_openCipher : Correct openCipher ∧
    (AllOrNothing openCipher (keyText 1) (keyText 2) twoSecrets
        (rotateKeys interruptedCommit openCipher (keyText 1) (keyText 2) zeroDraws
          (Rotation.start twoSecrets)).2.disk ↔
      ¬ ∃ oldKey newKey, Torn interruptedCommit openCipher (keyText 1) (keyText 2) twoSecrets
        oldKey newKey) :=
  ⟨openCipher_correct, rotation_whole_iff openCipher openCipher_correct interruptedCommit
    (keyText 1) (keyText 2) zeroDraws twoSecrets⟩

end Example

end Meemee.Guarantees.KeyRotation
