import Meemee.Guarantees.AccountSteps

/-!
# Disable and reset against tokens still being created

A login on SQLite inserts its token in a transaction after the one that read the password hash, and an
API-key request on either store after the one that authenticated it; a token inserted after the
revocation of `disable_account` or `reset_password` outlives it unless it has expired by then. This
says exactly when.
-/
namespace Meemee.Guarantees.SessionInvalidation
open Library Library.History Source Source.Accounts Guarantees.AccountSteps List

/-- A token that authenticates from its owner's last invalidation on was authorised after it. -/
def Invalidated (prim : Primitives) (s : Fleet) : Prop :=
  ∀ secret now token owner, s.store.liveToken (prim.digest secret) now = some token →
    token.ownerId = some owner → s.invalidatedAt owner ≤ now → s.generation owner ≤ s.authorised token.id

/-- A token with this expiry has not expired at a reading. -/
def Outlasts (expiresAt : Option Expiry) (now : Instant) : Prop :=
  ∀ instant, expiresAt = some (.moment instant) → now < instant

/-- A token about to be inserted belongs to an owner not invalidated since, or had expired then. -/
def AuthorisedInForce (prim : Primitives) (backend : Backend) (e : Event Fleet Action Answer) :
    Prop :=
  ∀ caller drawn, e.action = .resume caller drawn →
    (∀ row generation, e.before.calls caller = some (.issuing row generation) →
      Accepted prim .sqlite row.displayName SESSION_SCOPES
        (some (.moment (drawn.issued + SESSION_LIFE))) drawn e.before.store →
      Outlasts (some (.moment (drawn.issued + SESSION_LIFE))) (e.before.invalidatedAt row.id) →
      e.before.generation row.id ≤ generation) ∧
    (∀ principal request generation,
      e.before.calls caller = some (.minting principal request generation) →
      Accepted prim backend request.name request.scopes request.expiresAt drawn e.before.store →
      Outlasts request.expiresAt (e.before.invalidatedAt principal.id) →
      e.before.generation principal.id ≤ generation)

/-- Every token neither revoked nor expired at its owner's last invalidation was authorised
under the generation of its owner. -/
def Sound (tokens : Table Token.id) (generation : String → Nat) (invalidatedAt : String → Instant)
    (authorised : String → Nat) : Prop :=
  ∀ token ∈ tokens, ∀ owner, token.ownerId = some owner → token.revokedAt = none →
    (∀ expires, token.expiresAt = some expires → invalidatedAt owner < expires) →
    generation owner ≤ authorised token.id

variable {t : Table Token.id} {generation authorised : String → Nat} {invalidatedAt : String → Instant}
  {g : Nat} {s : Fleet}

theorem sound_keeps {u : Table Token.id} (sound : Sound t generation invalidatedAt authorised)
    (keeps : Keeps t u) : Sound u generation invalidatedAt authorised := by
  intro token mem owner owned unrevoked lasts
  obtain ⟨old, stored, ident, owners, expiries, revoked⟩ := keeps token mem
  rw [← ident]
  rw [← expiries] at lasts
  exact sound old stored owner (owners.trans owned) (revoked unrevoked) lasts

theorem sound_insert {token : Token} (sound : Sound t generation invalidatedAt authorised)
    (fresh : t.find token.id = none)
    (inForce : ∀ owner, token.ownerId = some owner →
      (∀ expires, token.expiresAt = some expires → invalidatedAt owner < expires) →
      generation owner ≤ g) :
    Sound (t.insert token fresh) generation invalidatedAt (Function.update authorised token.id g) := by
  intro other mem owner owned unrevoked lasts
  rcases (Table.mem_insert fresh).mp mem with stored | rfl
  · have different : other.id ≠ token.id := Table.find_none_iff.mp fresh other stored
    rw [Function.update_of_ne different]
    exact sound other stored owner owned unrevoked lasts
  · rw [Function.update_self]
    exact inForce owner owned lasts

theorem sound_revoked {u : Table Token.id} {accountId : String} {now : Instant}
    (sound : Sound t generation invalidatedAt authorised) (keeps : Keeps t u)
    (revoked : ∀ token ∈ u, token.ownerId = some accountId → token.revokedAt ≠ none) :
    Sound u (Function.update generation accountId g) (Function.update invalidatedAt accountId now)
      authorised := by
  intro token mem owner owned unrevoked lasts
  have different : owner ≠ accountId := by
    rintro rfl
    exact revoked token mem owned unrevoked
  rw [Function.update_of_ne different] at lasts ⊢
  exact sound_keeps sound keeps token mem owner owned unrevoked lasts

variable {prim : Primitives} {backend : Backend}

theorem invalidates_sound {t : TokenStore} {accountId : String} {now : Instant} {changed : Bool}
    (sound : Sound s.store.tokens s.generation s.invalidatedAt s.authorised) (keeps : Keeps s.store.tokens t.tokens)
    (revoked : changed = true →
      ∀ token ∈ t.tokens, token.ownerId = some accountId → token.revokedAt ≠ none) :
    Sound ({ s with store := t }.invalidates accountId now changed).store.tokens
      ({ s with store := t }.invalidates accountId now changed).generation
      ({ s with store := t }.invalidates accountId now changed).invalidatedAt
      ({ s with store := t }.invalidates accountId now changed).authorised := by
  cases changed with
  | false => exact sound_keeps sound keeps
  | true => exact sound_revoked sound keeps (revoked rfl)

theorem wholeLogin_sound (s : Fleet) (email password : String) (now : Instant) (drawn : Drawn)
    (sound : Sound s.store.tokens s.generation s.invalidatedAt s.authorised) :
    Sound (wholeLogin prim s email password now drawn).2.store.tokens
      (wholeLogin prim s email password now drawn).2.generation
      (wholeLogin prim s email password now drawn).2.invalidatedAt
      (wholeLogin prim s email password now drawn).2.authorised := by
  have outcome := loginPostgres_cases prim email password now drawn s.store
  rw [wholeLogin]
  generalize loginPostgres prim email password now drawn s.store = committed at outcome ⊢
  obtain ⟨result, t⟩ := committed
  cases outcome with
  | raised e => exact sound
  | refused verdict unread =>
    cases verdict with
    | unknown => exact sound
    | locked row => exact sound
    | wrong row => exact absurd rfl (unread row).1
    | right row => exact absurd rfl (unread row).2
  | wrong row stored => exact sound
  | right row token ident owner fresh =>
    have inForce : ∀ other, token.ownerId = some other →
        (∀ expires, token.expiresAt = some expires → s.invalidatedAt other < expires) →
        s.generation other ≤ s.generation row.id := by
      intro other owned _
      rw [owner, Option.some.injEq] at owned
      rw [owned]
    have inserts := sound_insert sound fresh inForce
    rw [ident] at inserts
    exact inserts

theorem create_sound {t : TokenStore} {name : String} {scopes : List String}
    {expiresAt : Option Expiry} {owner tokenKind : String} {drawn : Drawn}
    (sound : Sound s.store.tokens s.generation s.invalidatedAt s.authorised)
    (run : create prim backend name scopes expiresAt (some owner) tokenKind drawn s.store = (.ok (), t))
    (inForce : Accepted prim backend name scopes expiresAt drawn s.store →
      Outlasts expiresAt (s.invalidatedAt owner) → s.generation owner ≤ g) :
    Sound t.tokens s.generation s.invalidatedAt (Function.update s.authorised drawn.ident g) := by
  obtain ⟨accepted, expiry, normal, fresh, stored⟩ := create_returned run
  rw [stored]
  refine sound_insert sound fresh ?_
  intro other owned lasts
  have same : owner = other := Option.some.inj owned
  subst same
  apply inForce accepted
  intro instant given
  rw [given] at normal
  cases normal
  exact lasts instant rfl

theorem resume_sound (s : Fleet) (caller : CallId) (drawn : Drawn) (call : Call)
    (waiting : s.calls caller = some call)
    (sound : Sound s.store.tokens s.generation s.invalidatedAt s.authorised)
    (inForce : AuthorisedInForce prim backend ⟨s, .resume caller drawn,
      (resume prim backend s caller drawn call).1, (resume prim backend s caller drawn call).2⟩) :
    Sound (resume prim backend s caller drawn call).2.store.tokens
      (resume prim backend s caller drawn call).2.generation
      (resume prim backend s caller drawn call).2.invalidatedAt
      (resume prim backend s caller drawn call).2.authorised := by
  obtain ⟨sessions, keys⟩ := inForce caller drawn rfl
  cases call with
  | failing row now =>
    simp only [resume]
    split
    next t run =>
      rw [Txn.atomically_ok] at run
      rw [setFailures_returned run]
      exact sound
    next e t run =>
      rw [Txn.atomically_error run]
      exact sound
  | clearing row generation =>
    simp only [resume]
    split
    next t run =>
      rw [Txn.atomically_ok] at run
      rw [setFailures_returned run]
      exact sound
    next e t run =>
      rw [Txn.atomically_error run]
      exact sound
  | issuing row generation =>
    simp only [resume]
    split
    next t run => exact create_sound sound run (sessions row generation waiting)
    next e t run =>
      rw [create_raised run]
      exact sound
  | minting principal request generation =>
    simp only [resume]
    split
    next t run => exact create_sound sound run (keys principal request generation waiting)
    next e t run =>
      rw [create_raised run]
      exact sound

/-- A step keeps the tokens sound when what it inserts is authorised in force. -/
theorem step_sound (s : Fleet) (a : Action)
    (sound : Sound s.store.tokens s.generation s.invalidatedAt s.authorised)
    (inForce : AuthorisedInForce prim backend
      ⟨s, a, (step prim backend s a).1, (step prim backend s a).2⟩) :
    Sound (step prim backend s a).2.store.tokens (step prim backend s a).2.generation
      (step prim backend s a).2.invalidatedAt (step prim backend s a).2.authorised := by
  cases a with
  | login caller email password now drawn =>
    simp only [step]
    split
    · exact sound
    · simp only [readLogin]
      split <;> exact sound
    · exact wholeLogin_sound s email password now drawn sound
  | resume caller drawn =>
    simp only [step] at inForce ⊢
    split
    · exact sound
    next call waiting =>
      exact resume_sound s caller drawn call waiting sound inForce
  | requestKey caller secret request now =>
    simp only [step]
    split
    · exact sound
    · obtain ⟨t, run, -, keeps⟩ := authenticate_run (prim.digest secret) now s.store
      simp only [requestKey, run]
      split <;> exact sound_keeps sound keeps
  | authenticate secret now =>
    obtain ⟨t, run, -, keeps⟩ := authenticate_run (prim.digest secret) now s.store
    simp only [step, run]
    exact sound_keeps sound keeps
  | revoke ident ownerId now =>
    obtain ⟨changed, t, run, -, keeps⟩ := revoke_run ident ownerId now s.store
    simp only [step, run]
    exact sound_keeps sound keeps
  | disable accountId now =>
    obtain ⟨changed, t, run, -, keeps, revoked, -⟩ := invalidate_run accountId
      (fun a => { a with disabledAt := some now }) (fun _ => rfl) now s.store
    simp only [step, disableAccount, run]
    exact invalidates_sound sound keeps revoked
  | reset accountId password salt now =>
    rcases resetPassword_run prim accountId password salt now s.store with ⟨e, raised⟩ | update
    · simp only [step, raised]
      exact sound
    · obtain ⟨changed, t, run, -, keeps, revoked, -⟩ := invalidate_run accountId
        (fun a => a.rekeyed (prim.password password salt) salt) (fun _ => rfl) now s.store
      simp only [step, update, run]
      exact invalidates_sound sound keeps revoked

theorem invalidated_of_sound (sound : Sound s.store.tokens s.generation s.invalidatedAt s.authorised) :
    Invalidated prim s := by
  intro secret now token owner found owned later
  obtain ⟨mem, live⟩ := mem_filter.mp (mem_of_head? found)
  simp only [Token.live, Bool.and_eq_true, decide_eq_true_eq] at live
  refine sound token mem owner owned live.1.2 (fun expires given => ?_)
  have unexpired := live.2
  rw [given, Option.all_some, decide_eq_true_eq] at unexpired
  exact Int.lt_of_le_of_lt later unexpired

/-- A token inserted for an authorisation that is no longer in force authenticates, from the
invalidation until it expires. -/
theorem created_survives {t : TokenStore} {name : String} {scopes : List String}
    {expiresAt : Option Expiry} {owner tokenKind : String} {drawn : Drawn}
    {calls : CallId → Option Call} {guesses : String → Nat}
    (run : create prim backend name scopes expiresAt (some owner) tokenKind drawn s.store = (.ok (), t))
    (lasts : Outlasts expiresAt (s.invalidatedAt owner)) (stale : g < s.generation owner) :
    ¬ Invalidated prim ⟨t, calls, s.generation, s.invalidatedAt,
      Function.update s.authorised drawn.ident g, guesses⟩ := by
  obtain ⟨accepted, expiry, normal, fresh, stored⟩ := create_returned run
  intro invalidated
  have before : expiry.all (fun expires => decide (s.invalidatedAt owner < expires)) = true := by
    cases expiresAt with
    | none =>
      cases normal
      rfl
    | some given =>
      cases given with
      | malformed => cases normal
      | moment instant =>
        cases normal
        exact decide_eq_true (lasts instant rfl)
  have found : t.liveToken (prim.digest drawn.secret) (s.invalidatedAt owner) =
      some (newToken prim name scopes expiry (some owner) tokenKind drawn) := by
    have others : s.store.tokens.rows.filter
        (fun t => t.live (prim.digest drawn.secret) (s.invalidatedAt owner)) = [] := by
      rw [filter_eq_nil_iff]
      intro other mem
      simp [Token.live, accepted.distinct other mem]
    have itself : (newToken prim name scopes expiry (some owner) tokenKind drawn).live
        (prim.digest drawn.secret) (s.invalidatedAt owner) = true := by
      simp [Token.live, newToken, before]
    rw [stored, TokenStore.liveToken, Table.select]
    simp only [inserted, Table.insert, filter_append, others, nil_append, filter_cons,
      itself, if_true, filter_nil, List.head?_cons]
  have least := invalidated drawn.secret _ _ owner found rfl (Int.le_refl _)
  simp only [newToken, Function.update_self] at least
  omega

/-- A step that inserts a token whose authorisation is no longer in force breaks the contract. -/
theorem step_inForce (s : Fleet) (a : Action) (invalidated : Invalidated prim (step prim backend s a).2) :
    AuthorisedInForce prim backend ⟨s, a, (step prim backend s a).1, (step prim backend s a).2⟩ := by
  rintro caller drawn rfl
  constructor
  · intro row generation waiting accepted lasts
    by_contra stale
    obtain ⟨expiry, run⟩ := @create_accepted _ _ _ _ _ (some row.id) "session" _ _ accepted
    have session : createSession prim row drawn s.store = _ := run
    have waits : s.calls caller = _ := waiting
    simp only [step, waits, resume, session] at invalidated
    exact created_survives run lasts (Nat.lt_of_not_le stale) invalidated
  · intro principal request generation waiting accepted lasts
    by_contra stale
    obtain ⟨expiry, run⟩ := @create_accepted _ _ _ _ _ (some principal.id) "api" _ _ accepted
    have key : createApiKey prim backend principal request drawn s.store = _ := run
    have waits : s.calls caller = _ := waiting
    simp only [step, waits, resume, key] at invalidated
    exact created_survives run lasts (Nat.lt_of_not_le stale) invalidated

/-- In every run, over either store: no token outlives the invalidation of its account if
and only if no token that has not expired by then is inserted for a login or an API-key request
that was authorised before the account was last disabled or given a new password. -/
theorem invalidation_iff_in_force (prim : Primitives) (backend : Backend) (store : TokenStore)
    (run : List Action) :
    (∀ e ∈ history (step prim backend) (start store) run, Invalidated prim e.after) ↔
      ∀ e ∈ history (step prim backend) (start store) run, AuthorisedInForce prim backend e := by
  constructor
  · intro invalidated e member
    have stepped := step_of_mem member
    have after := invalidated e member
    obtain ⟨before, action, answer, result⟩ := e
    have inForce := @step_inForce prim backend before action (by rw [stepped]; exact after)
    exact inForce
  · intro inForce e member
    have initial : Sound (start store).store.tokens (start store).generation
        (start store).invalidatedAt (start store).authorised := fun _ _ _ _ _ _ => Nat.le_refl 0
    have sound : ∀ e ∈ history (step prim backend) (start store) run, _ ∧
        Sound e.after.store.tokens e.after.generation e.after.invalidatedAt e.after.authorised :=
      (@invariant_of_meets _ _ _ _
        (fun s => Sound s.store.tokens s.generation s.invalidatedAt s.authorised)
        (AuthorisedInForce prim backend) step_sound _ initial _ inForce).1
    exact invalidated_of_sound (sound e member).2

def firstToken : Drawn := ⟨"t1", "mee_1", 1, 1⟩

/-- A login checks the password; the account is disabled; the login inserts its token. -/
def disabledBetween : List Action :=
  [.login 1 "ada@example.com" "correct horse battery" 1 firstToken,
   .resume 1 firstToken, .disable "acct_1" 2, .resume 1 firstToken]

/-- An API-key request is authenticated; the password is reset; the key is inserted. -/
def resetBetween : List Action :=
  [.login 1 "ada@example.com" "correct horse battery" 1 firstToken,
   .requestKey 2 "mee_1" ⟨"key", ["jobs:read"], none⟩ 2,
   .reset "acct_1" "another password" "t" 3,
   .resume 2 ⟨"t2", "mee_2", 4, 4⟩]

/-- The contract fails on SQLite by a login, on PostgreSQL by an API-key request. -/
theorem disabled_account_authenticates :
    (¬ ∀ e ∈ history (step plain .sqlite) (start adaStore) disabledBetween,
      Invalidated plain e.after) ∧
    ¬ ∀ e ∈ history (step plain .postgres) (start adaStore) resetBetween,
      Invalidated plain e.after := by
  constructor
  · intro contract
    have last := contract _ (mem_of_getLast? rfl) "mee_1" 3 _ "acct_1" rfl rfl (by decide +kernel)
    exact absurd last (by decide +kernel)
  · intro contract
    have last := contract _ (mem_of_getLast? rfl) "mee_2" 5 _ "acct_1" rfl rfl (by decide +kernel)
    exact absurd last (by decide +kernel)

end Meemee.Guarantees.SessionInvalidation
