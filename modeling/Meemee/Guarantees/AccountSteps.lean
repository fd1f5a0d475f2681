import Mathlib.Logic.Function.Basic
import Meemee.Library.History
import Meemee.Source.Accounts

/-!
# Any number of logins and token requests over one token store

A login on SQLite and an API-key request on either store take several transactions; between them a
call waits in `calls` with what it read. Three ghosts count how often an account was disabled or given
a new password, keep the count at which each token was authorised, and count the failed logins.
-/
namespace Meemee.Guarantees.AccountSteps
open Library Library.History Source Source.Accounts Library.Txn Library.Table

abbrev CallId := Nat

/-- A call between two of its transactions. -/
inductive Call where
  /-- A wrong password at `now`: the failure is to be recorded. -/
  | failing (row : Account) (now : Instant)
  /-- The right password: the failures are to be cleared. -/
  | clearing (row : Account) (generation : Nat)
  /-- The session token is to be inserted. -/
  | issuing (row : Account) (generation : Nat)
  /-- An authenticated API-key request: the key is to be inserted. -/
  | minting (principal : Principal) (request : AccountTokenRequest) (generation : Nat)

structure Fleet where
  store : TokenStore
  calls : CallId → Option Call
  /-- Ghost: how often a disable or a reset of the account succeeded. -/
  generation : String → Nat
  /-- Ghost: the clock reading of the last of them. -/
  invalidatedAt : String → Instant
  /-- Ghost: for each token, its owner's generation when its creation was authorised. -/
  authorised : String → Nat
  /-- Ghost: the logins of the account that found a wrong password and have returned. -/
  guesses : String → Nat

inductive Action where
  /-- The read of a login on SQLite, the whole login on PostgreSQL. -/
  | login (caller : CallId) (email password : String) (now : Instant) (drawn : Drawn)
  /-- The next transaction of a call. -/
  | resume (caller : CallId) (drawn : Drawn)
  | requestKey (caller : CallId) (secret : String) (request : AccountTokenRequest) (now : Instant)
  | authenticate (secret : String) (now : Instant)
  | revoke (ident : String) (ownerId : Option String) (now : Instant)
  | disable (accountId : String) (now : Instant)
  | reset (accountId password salt : String) (now : Instant)

inductive Answer where
  | idle
  /-- The call goes on from what it read. -/
  | read (verdict : Verdict)
  | pending
  /-- `login_account` returned `None`. -/
  | refused (verdict : Verdict)
  | loggedIn (accountId : String)
  | created (ident : String)
  | rejected (refusal : Refusal)
  | principal (found : Option Principal)
  | changed (any : Bool)
  | raised (e : Exc)

def Fleet.waits (s : Fleet) (caller : CallId) (call : Call) : Fleet :=
  { s with calls := Function.update s.calls caller (some call) }

/-- The call has returned. -/
def Fleet.returns (s : Fleet) (caller : CallId) : Fleet :=
  { s with calls := Function.update s.calls caller none }

def Fleet.counts (s : Fleet) (accountId : String) : Fleet :=
  { s with guesses := Function.update s.guesses accountId (s.guesses accountId + 1) }

def Fleet.issues (s : Fleet) (ident : String) (generation : Nat) : Fleet :=
  { s with authorised := Function.update s.authorised ident generation }

def Fleet.invalidates (s : Fleet) (accountId : String) (now : Instant) (changed : Bool) : Fleet :=
  if changed then
    { s with generation := Function.update s.generation accountId (s.generation accountId + 1)
             invalidatedAt := Function.update s.invalidatedAt accountId now }
  else s

section System

variable (prim : Primitives) (backend : Backend)

/-- The first lock section of a login on SQLite, and what the call decides from it. -/
def readLogin (s : Fleet) (caller : CallId) (email password : String) (now : Instant) :
    Answer × Fleet :=
  match verdict prim password now (s.store.enabledAccount (prim.normalized email)) with
  | .wrong row => (.read (.wrong row), s.waits caller (.failing row now))
  | .right row => (.read (.right row), s.waits caller (.clearing row (s.generation row.id)))
  | other => (.refused other, s)

/-- A whole login on PostgreSQL. -/
def wholeLogin (s : Fleet) (email password : String) (now : Instant) (drawn : Drawn) :
    Answer × Fleet :=
  match loginPostgres prim email password now drawn s.store with
  | (.ok (.wrong row), t) => (.refused (.wrong row), { s with store := t }.counts row.id)
  | (.ok (.right row), t) =>
    (.loggedIn row.id, { s with store := t }.issues drawn.ident (s.generation row.id))
  | (.ok other, t) => (.refused other, { s with store := t })
  | (.error e, t) => (.raised e, { s with store := t })

/-- The next transaction of a call that waits. -/
def resume (s : Fleet) (caller : CallId) (drawn : Drawn) : Call → Answer × Fleet
  | .failing row now =>
    match Txn.atomically (setFailures .sqlite row.id (row.failedLogins + 1)
        (lockFor (row.failedLogins + 1) now)) s.store with
    | (.ok (), t) => (.refused (.wrong row), ({ s with store := t }.returns caller).counts row.id)
    | (.error e, t) => (.raised e, { s with store := t }.returns caller)
  | .clearing row generation =>
    match Txn.atomically (setFailures .sqlite row.id 0 none) s.store with
    | (.ok (), t) => (.pending, { s with store := t }.waits caller (.issuing row generation))
    | (.error e, t) => (.raised e, { s with store := t }.returns caller)
  | .issuing row generation =>
    match createSession prim row drawn s.store with
    | (.ok (), t) =>
      (.loggedIn row.id, ({ s with store := t }.returns caller).issues drawn.ident generation)
    | (.error e, t) => (.raised e, { s with store := t }.returns caller)
  | .minting principal request generation =>
    match createApiKey prim backend principal request drawn s.store with
    | (.ok (), t) =>
      (.created drawn.ident, ({ s with store := t }.returns caller).issues drawn.ident generation)
    | (.error e, t) => (.raised e, { s with store := t }.returns caller)

/-- The dependency of the API-key route and the route's checks. -/
def requestKey (s : Fleet) (caller : CallId) (secret : String) (request : AccountTokenRequest)
    (now : Instant) : Answer × Fleet :=
  match authenticate (prim.digest secret) now s.store with
  | (.ok found, t) =>
    match checkApiKeyRequest request found with
    | .ok principal =>
      (.pending, { s with store := t }.waits caller
        (.minting principal request (s.generation principal.id)))
    | .error refusal => (.rejected refusal, { s with store := t })
  | (.error e, t) => (.raised e, { s with store := t })

def step (s : Fleet) : Action → Answer × Fleet
  | .login caller email password now drawn =>
    match s.calls caller, backend with
    | some _, _ => (.idle, s)
    | none, .sqlite => readLogin prim s caller email password now
    | none, .postgres => wholeLogin prim s email password now drawn
  | .resume caller drawn =>
    match s.calls caller with
    | none => (.idle, s)
    | some call => resume prim backend s caller drawn call
  | .requestKey caller secret request now =>
    match s.calls caller with
    | some _ => (.idle, s)
    | none => requestKey prim s caller secret request now
  | .authenticate secret now =>
    match authenticate (prim.digest secret) now s.store with
    | (.ok found, t) => (.principal found, { s with store := t })
    | (.error e, t) => (.raised e, { s with store := t })
  | .revoke ident ownerId now =>
    match revoke ident ownerId now s.store with
    | (.ok changed, t) => (.changed changed, { s with store := t })
    | (.error e, t) => (.raised e, { s with store := t })
  | .disable accountId now =>
    match disableAccount accountId now s.store with
    | (.ok changed, t) => (.changed changed, { s with store := t }.invalidates accountId now changed)
    | (.error e, t) => (.raised e, { s with store := t })
  | .reset accountId password salt now =>
    match resetPassword prim accountId password salt now s.store with
    | (.ok changed, t) => (.changed changed, { s with store := t }.invalidates accountId now changed)
    | (.error e, t) => (.raised e, { s with store := t })

/-- Any stored accounts and tokens, no call under way. -/
def start (store : TokenStore) : Fleet :=
  ⟨store, fun _ => none, fun _ => 0, fun _ => 0, fun _ => 0, fun _ => 0⟩

end System

/-- A later token was there before, of its owner and expiry; one in force now was in force then. -/
def Keeps (t u : Table Token.id) : Prop :=
  ∀ token ∈ u, ∃ old ∈ t, old.id = token.id ∧ old.ownerId = token.ownerId ∧
    old.expiresAt = token.expiresAt ∧ (token.revokedAt = none → old.revokedAt = none)

theorem Keeps.refl (t : Table Token.id) : Keeps t t :=
  fun token mem => ⟨token, mem, rfl, rfl, rfl, id⟩

/-- An UPDATE that assigns no owner, no expiry and no empty revocation keeps the tokens. -/
theorem keeps_update (t : Table Token.id) (p : Token → Bool) (f : Token → Token)
    (ids : ∀ token, (f token).id = token.id) (owners : ∀ token, (f token).ownerId = token.ownerId)
    (expiries : ∀ token, (f token).expiresAt = token.expiresAt)
    (revoked : ∀ token, (f token).revokedAt = none → token.revokedAt = none) :
    Keeps t (t.update p f ids) := by
  intro token mem
  obtain ⟨old, stored, updated⟩ := mem_update.mp mem
  split at updated
  · subst updated
    exact ⟨old, stored, (ids old).symm, (owners old).symm, (expiries old).symm, revoked old⟩
  · subst updated
    exact ⟨old, stored, rfl, rfl, rfl, id⟩

/-- The store after an INSERT of a token. -/
def inserted (s : TokenStore) (token : Token) (fresh : s.tokens.find token.id = none) : TokenStore :=
  { s with tokens := s.tokens.insert token fresh }

theorem counted_id (failures : Nat) (lockedUntil : Option Instant) (a : Account) :
    (a.counted failures lockedUntil).id = a.id := rfl

/-- The store after an UPDATE of an account's failures. -/
def counted (s : TokenStore) (ident : String) (failures : Nat) (lockedUntil : Option Instant) :
    TokenStore :=
  { s with accounts := s.accounts.update (fun a => decide (a.id = ident))
                        (fun a => a.counted failures lockedUntil) (counted_id failures lockedUntil) }

variable {s t : TokenStore} {token : Token} {backend : Backend}

theorem fits_iff : s.fits token = true ↔
    s.tokens.find token.id = none ∧ ∀ t ∈ s.tokens, t.digest ≠ token.digest := by
  rw [TokenStore.fits, Bool.and_eq_true, select_isEmpty]
  simp

theorem insertToken_returned (run : insertToken token s = (.ok (), t)) :
    (∀ other ∈ s.tokens, other.digest ≠ token.digest) ∧
      ∃ fresh : s.tokens.find token.id = none, t = inserted s token fresh := by
  obtain ⟨fits, run⟩ := require_bind_returned run
  obtain ⟨fresh, distinct⟩ := fits_iff.mp fits
  have stored := (Prod.mk.inj run).2
  simp only [insertOrIgnore_fresh fresh] at stored
  exact ⟨distinct, fresh, stored.symm⟩

theorem insertToken_fits (fresh : s.tokens.find token.id = none)
    (distinct : ∀ other ∈ s.tokens, other.digest ≠ token.digest) :
    insertToken token s = (.ok (), inserted s token fresh) := by
  have fits := fits_iff.mpr ⟨fresh, distinct⟩
  simp [insertToken, inserted, fits, insertOrIgnore_fresh fresh]

/-- The columns of a backend take the name. -/
def Storable (backend : Backend) (name : String) : Prop :=
  backend = .postgres → PgJobs.storesText name = true ∧ name.toList.any (fun c => c ≠ ' ') = true

variable {name ident email : String} {failures : Nat} {lockedUntil : Option Instant}
  {row : Account}

theorem checkColumns_returned (run : checkColumns name backend s = (.ok (), t)) :
    Storable backend name ∧ t = s := by
  cases backend with
  | sqlite =>
    refine ⟨?_, ((Prod.mk.inj run).2).symm⟩
    intro impossible
    cases impossible
  | postgres =>
    obtain ⟨text, run⟩ := require_bind_returned run
    rw [Txn.require] at run
    split at run
    next spaces => exact ⟨fun _ => ⟨text, spaces⟩, ((Prod.mk.inj run).2).symm⟩
    · cases run

theorem checkColumns_storable (storable : Storable backend name) (s : TokenStore) :
    checkColumns name backend s = (.ok (), s) := by
  cases backend with
  | sqlite => rfl
  | postgres =>
    obtain ⟨text, spaces⟩ := storable rfl
    rw [checkColumns, text, run_require_bind, Txn.require, if_pos spaces]
    rfl

/-- The name, the scopes and the expiry pass, and neither the id nor the digest is taken. -/
structure Accepted (prim : Primitives) (backend : Backend) (name : String) (scopes : List String)
    (expiresAt : Option Expiry) (drawn : Drawn) (s : TokenStore) : Prop where
  named : (!PgJobs.blank name && !scopes.isEmpty) = true
  parses : expiresAt ≠ some .malformed
  storable : Storable backend name
  fresh : s.tokens.find drawn.ident = none
  distinct : ∀ t ∈ s.tokens, t.digest ≠ prim.digest drawn.secret

section Create

variable {prim : Primitives} {backend : Backend} {name : String} {scopes : List String}
  {expiresAt : Option Expiry} {ownerId : Option String} {tokenKind : String} {drawn : Drawn}
  {s t : TokenStore}

theorem create_returned
    (run : create prim backend name scopes expiresAt ownerId tokenKind drawn s = (.ok (), t)) :
    Accepted prim backend name scopes expiresAt drawn s ∧
      ∃ expiry, normalizeExpiry expiresAt = .ok expiry ∧ ∃ fresh : s.tokens.find drawn.ident = none,
        t = inserted s (newToken prim name scopes expiry ownerId tokenKind drawn) fresh := by
  obtain ⟨named, run⟩ := require_bind_returned run
  obtain ⟨expiry, normal, run⟩ := ofExcept_bind_returned run
  rw [atomically_ok] at run
  obtain ⟨_, s', checked, insertion⟩ := bind_returned run
  obtain ⟨storable, same⟩ := checkColumns_returned checked
  rw [same] at insertion
  obtain ⟨distinct, fresh, stored⟩ := insertToken_returned insertion
  refine ⟨⟨named, ?_, storable, fresh, distinct⟩, expiry, normal, fresh, stored⟩
  rintro rfl
  cases normal

theorem create_accepted (accepted : Accepted prim backend name scopes expiresAt drawn s) :
    ∃ expiry, create prim backend name scopes expiresAt ownerId tokenKind drawn s =
      (.ok (), inserted s (newToken prim name scopes expiry ownerId tokenKind drawn)
        accepted.fresh) := by
  have normal : ∃ expiry, normalizeExpiry expiresAt = .ok expiry := by
    cases expiresAt with
    | none => exact ⟨_, rfl⟩
    | some expiry =>
      cases expiry with
      | malformed => exact absurd rfl accepted.parses
      | moment instant => exact ⟨_, rfl⟩
  obtain ⟨expiry, normal⟩ := normal
  refine ⟨expiry, ?_⟩
  have inserts : insertToken (newToken prim name scopes expiry ownerId tokenKind drawn) s = _ :=
    insertToken_fits accepted.fresh accepted.distinct
  rw [create, checkName, accepted.named, Txn.require, if_pos rfl, normal]
  apply atomically_of_ok
  rw [run_bind_ok (checkColumns_storable accepted.storable s)]
  exact inserts

theorem create_raised {e : Exc}
    (run : create prim backend name scopes expiresAt ownerId tokenKind drawn s = (.error e, t)) :
    t = s := by
  rw [create, checkName, Txn.require] at run
  split at run
  · cases normal : normalizeExpiry expiresAt with
    | error e' =>
      rw [normal] at run
      exact ((Prod.mk.inj run).2).symm
    | ok expiry =>
      rw [normal] at run
      exact atomically_error run
  · exact ((Prod.mk.inj run).2).symm

end Create

theorem updateTokens_run (p : Token → Bool) (f : Token → Token) (ids : ∀ t, (f t).id = t.id)
    (s : TokenStore) : updateTokens p f ids s =
      (.ok (!(s.tokens.select p).isEmpty), { s with tokens := s.tokens.update p f ids }) := rfl

theorem updateAccount_run (p : Account → Bool) (f : Account → Account) (ids : ∀ a, (f a).id = a.id)
    (s : TokenStore) : updateAccount p f ids s =
      (.ok (!(s.accounts.select p).isEmpty), { s with accounts := s.accounts.update p f ids }) := rfl

/-- `authenticate` answers the principal of the live token, and only dates its use. -/
theorem authenticate_run (digest : String) (now : Instant) (s : TokenStore) :
    ∃ t, authenticate digest now s = (.ok ((s.liveToken digest now).map Token.principal), t) ∧
      t.accounts = s.accounts ∧ Keeps s.tokens t.tokens := by
  cases found : s.liveToken digest now with
  | none =>
    refine ⟨s, ?_, rfl, Keeps.refl _⟩
    apply atomically_of_ok
    rw [run_bind_read, found]
    rfl
  | some row =>
    let p := fun t : Token => decide (t.id = row.id)
    have dated : updateTokens p (fun t => t.used now) (fun _ => rfl) s = _ := updateTokens_run _ _ _ s
    have keeps : Keeps s.tokens (s.tokens.update p (fun t => t.used now) (fun _ => rfl)) :=
      keeps_update _ _ _ _ (fun _ => rfl) (fun _ => rfl) (fun _ => id)
    refine ⟨{ s with tokens := s.tokens.update p (fun t => t.used now) (fun _ => rfl) }, ?_, rfl, keeps⟩
    apply atomically_of_ok
    rw [run_bind_read, found]
    exact run_bind_ok dated

/-- An UPDATE of `revoked_at`: the tokens that meet the condition are revoked after it. -/
theorem revokeWhere_run (p : Token → Bool) (now : Instant) (s : TokenStore) :
    ∃ changed t, revokeWhere p now s = (.ok changed, t) ∧ t.accounts = s.accounts ∧
      Keeps s.tokens t.tokens ∧ ∀ token ∈ t.tokens, p token = true → token.revokedAt ≠ none := by
  refine ⟨_, _, updateTokens_run _ (fun t => t.revoked now) (fun _ => rfl) s, rfl, ?_, ?_⟩
  · apply keeps_update
    · exact fun _ => rfl
    · exact fun _ => rfl
    · exact fun _ => rfl
    · intro token unrevoked
      cases unrevoked
  · intro token mem meets unrevoked
    have within : token ∈ s.tokens.update (fun t => p t && decide (t.revokedAt = none))
      (fun t => t.revoked now) (fun _ => rfl) := mem
    obtain ⟨old, stored, updated⟩ := mem_update.mp within
    split at updated
    next =>
      subst updated
      cases unrevoked
    next passed =>
      subst updated
      simp [meets, unrevoked] at passed

theorem revoke_run (ident : String) (ownerId : Option String) (now : Instant) (s : TokenStore) :
    ∃ changed t, revoke ident ownerId now s = (.ok changed, t) ∧ t.accounts = s.accounts ∧
      Keeps s.tokens t.tokens := by
  obtain ⟨changed, t, run, accounts, keeps, -⟩ := revokeWhere_run
    (fun t => decide (t.id = ident) && ownerId.all (fun owner => decide (t.ownerId = some owner)))
    now s
  exact ⟨changed, t, atomically_of_ok run, accounts, keeps⟩

/-- A reset or a disable that matched revoked the account's tokens; another changed nothing. -/
theorem invalidate_run (accountId : String) (f : Account → Account) (keeps : ∀ a, (f a).id = a.id)
    (now : Instant) (s : TokenStore) :
    ∃ changed t, invalidate accountId f keeps now s = (.ok changed, t) ∧
      t.accounts = s.accounts.update (fun a => decide (a.id = accountId ∧ a.disabledAt = none)) f keeps ∧
      Keeps s.tokens t.tokens ∧
      (changed = true → ∀ token ∈ t.tokens, token.ownerId = some accountId → token.revokedAt ≠ none) ∧
      (changed = false → t.accounts = s.accounts) := by
  let p := fun a : Account => decide (a.id = accountId ∧ a.disabledAt = none)
  have updates : updateAccount p f keeps s = _ := updateAccount_run p f keeps s
  cases matched : (s.accounts.select p).isEmpty with
  | true =>
    refine ⟨false, { s with accounts := s.accounts.update p f keeps }, ?_, rfl, Keeps.refl _, ?_, ?_⟩
    · apply atomically_of_ok
      rw [run_bind_ok updates, matched]
      rfl
    · intro impossible
      cases impossible
    · intro _
      have same : s.accounts.update p f keeps = s.accounts :=
        update_none (select_isEmpty.mp matched)
      exact same
  | false =>
    obtain ⟨any, t, run, accounts, keepsTokens, revoked⟩ := revokeWhere_run
      (fun t => decide (t.ownerId = some accountId)) now
      { s with accounts := s.accounts.update p f keeps }
    refine ⟨true, t, ?_, accounts, keepsTokens, ?_, ?_⟩
    · apply atomically_of_ok
      rw [run_bind_ok updates, matched]
      exact run_bind_ok run
    · intro _ token mem owned
      exact revoked token mem (by simp [owned])
    · intro impossible
      cases impossible

theorem resetPassword_run (prim : Primitives) (accountId password salt : String) (now : Instant)
    (s : TokenStore) :
    (∃ e, resetPassword prim accountId password salt now s = (.error e, s)) ∨
      resetPassword prim accountId password salt now s = invalidate accountId
        (fun a => a.rekeyed (prim.password password salt) salt) (fun _ => rfl) now s := by
  rw [resetPassword, run_require_bind]
  split
  · exact .inr rfl
  · exact .inl ⟨_, rfl⟩

theorem setFailures_run (backend : Backend) (ident : String) (failures : Nat)
    (lockedUntil : Option Instant) (s : TokenStore) :
    setFailures backend ident failures lockedUntil s =
      if failures ≤ maxFailures backend then
        (.ok (), counted s ident failures lockedUntil)
      else (.error (tooManyFailures backend), s) := by
  rw [setFailures, run_require_bind]
  by_cases fits : failures ≤ maxFailures backend
  · rw [if_pos fits, if_pos (decide_eq_true fits)]
    rfl
  · rw [if_neg fits, if_neg (by simpa using fits)]

theorem setFailures_returned
    (run : setFailures backend ident failures lockedUntil s = (.ok (), t)) :
    t = counted s ident failures lockedUntil := by
  rw [setFailures_run] at run
  split at run
  · exact ((Prod.mk.inj run).2).symm
  · cases run

theorem setFailures_bind_returned {β : Type} {next : Unit → StoreTxn β} {b : β}
    (run : (setFailures backend ident failures lockedUntil >>= next) s = (.ok b, t)) :
    next () (counted s ident failures lockedUntil) = (.ok b, t) := by
  obtain ⟨_, written, counts, rest⟩ := bind_returned run
  rw [setFailures_returned counts] at rest
  exact rest

theorem enabledAccount_stored (found : s.enabledAccount email = some row) :
    s.accounts.find row.id = some row :=
  find_of_mem (List.mem_of_mem_filter (List.mem_of_head? found))

theorem counted_find (s : TokenStore) (ident : String) (failures : Nat)
    (lockedUntil : Option Instant) (other : String) :
    (counted s ident failures lockedUntil).accounts.find other =
      if other = ident then (s.accounts.find other).map (fun a => a.counted failures lockedUntil)
      else s.accounts.find other :=
  find_update_key s.accounts ident (fun a => a.counted failures lockedUntil) (fun _ => rfl) other

theorem verdict_stored {prim : Primitives} {password : String} {now : Instant}
    (judged : verdict prim password now (s.enabledAccount email) = .wrong row ∨
      verdict prim password now (s.enabledAccount email) = .right row) :
    s.accounts.find row.id = some row := by
  cases found : s.enabledAccount email with
  | none => simp [found, verdict] at judged
  | some stored =>
    have same : stored = row := by
      rw [found] at judged
      simp only [verdict] at judged
      split at judged
      · simp at judged
      · split at judged <;> simpa using judged
    rw [← same]
    exact enabledAccount_stored found

/-- The outcomes of a login on PostgreSQL. -/
inductive LoggedIn (prim : Primitives) (drawn : Drawn) (now : Instant) (s : TokenStore) :
    Except Exc Verdict → TokenStore → Prop where
  | raised (e : Exc) : LoggedIn prim drawn now s (.error e) s
  | refused (verdict : Verdict) (unread : ∀ row, verdict ≠ .wrong row ∧ verdict ≠ .right row) :
      LoggedIn prim drawn now s (.ok verdict) s
  | wrong (row : Account) (stored : s.accounts.find row.id = some row) :
      LoggedIn prim drawn now s (.ok (.wrong row))
        (counted s row.id (row.failedLogins + 1) (lockFor (row.failedLogins + 1) now))
  | right (row : Account) (token : Token) (ident : token.id = drawn.ident)
      (owner : token.ownerId = some row.id) (fresh : s.tokens.find token.id = none) :
      LoggedIn prim drawn now s (.ok (.right row)) (inserted (counted s row.id 0 none) token fresh)

theorem loginPostgres_cases (prim : Primitives) (email password : String) (now : Instant)
    (drawn : Drawn) (s : TokenStore) :
    LoggedIn prim drawn now s (loginPostgres prim email password now drawn s).1
      (loginPostgres prim email password now drawn s).2 := by
  rw [loginPostgres]
  generalize body : Txn.require (σ := TokenStore) (PgJobs.storesText _) _ >>= _ = m
  rcases atomically_cases m s with ⟨answered, t, run, done⟩ | ⟨e, t, -, done⟩
  · rw [done]
    rw [← body] at run
    obtain ⟨-, run⟩ := require_bind_returned run
    rw [run_bind_read] at run
    cases judged : verdict prim password now (s.enabledAccount (prim.normalized email)) with
    | wrong row =>
      simp only [judged] at run
      have run := setFailures_bind_returned run
      simp only [run_pure, Prod.mk.injEq] at run
      rw [← run.1, ← run.2]
      exact .wrong row (verdict_stored (.inl judged))
    | right row =>
      simp only [judged] at run
      have run := setFailures_bind_returned run
      obtain ⟨_, unchanged, checked, run⟩ := bind_returned run
      obtain ⟨-, same⟩ := checkColumns_returned checked
      rw [same] at run
      obtain ⟨_, issued, inserts, run⟩ := bind_returned run
      obtain ⟨-, fresh, stored⟩ := insertToken_returned inserts
      cases run
      rw [stored]
      exact @LoggedIn.right prim drawn now s row _ rfl rfl fresh
    | unknown =>
      simp only [judged] at run
      cases run
      exact .refused _ (by simp)
    | locked row =>
      simp only [judged] at run
      cases run
      exact .refused _ (by simp)
  · rw [done]
    exact .raised e

/-- Hashing that keeps what it hashes apart. -/
def plain : Primitives := ⟨fun password salt => password ++ "/" ++ salt, id, id⟩

def ada : Account :=
  { id := "acct_1", email := "ada@example.com", displayName := "Ada",
    passwordHash := "correct horse battery/s", passwordSalt := "s", createdAt := 0,
    disabledAt := none, failedLogins := 0, lockedUntil := none }

def adaStore : TokenStore := ⟨⟨[ada], by simp⟩, Table.empty⟩

end Meemee.Guarantees.AccountSteps
