import Meemee.Guarantees.AccountSteps

/-!
# Counting the wrong guesses of parallel logins

A wrong password writes the failure count the login read, plus one. PostgreSQL reads and
writes under the row's lock. SQLite reads in one lock section and writes in another,
with the password hashed between them, so of two logins that read the same count one is not counted.
-/
namespace Meemee.Guarantees.LoginLockout
open Library Library.History Source Source.Accounts Guarantees.AccountSteps

/-- The failures of an account and its lock, as stored. -/
def count (accountId : String) (s : Fleet) : Option (Nat × Option Instant) :=
  (s.store.accounts.find accountId).map (fun a => (a.failedLogins, a.lockedUntil))

/-- Some login found a wrong password for the row and has not returned yet. -/
def Fails (accountId : String) (row : Account) (now : Instant) (s : Fleet) : Prop :=
  row.id = accountId ∧ ∃ caller, s.calls caller = some (.failing row now)

/-- No login of the account has found the right password. -/
def Unproven (accountId : String) (s : Fleet) : Prop :=
  ∀ caller row generation, s.calls caller = some (.clearing row generation) → row.id ≠ accountId

/-- A login that is right or finds the account locked, or a reset of its password. -/
def Interrupts (accountId : String) (e : Event Fleet Action Answer) : Prop :=
  (∃ row, row.id = accountId ∧ (e.answer = .read (.right row) ∨ e.answer = .refused (.locked row))) ∨
    e.answer = .loggedIn accountId ∨
    ∃ password salt now, e.action = .reset accountId password salt now ∧ e.answer = .changed true

/-- A login about to record a wrong guess finds the count as it read it. -/
def CountStands (accountId : String) (e : Event Fleet Action Answer) : Prop :=
  ∀ caller drawn row now, e.action = .resume caller drawn →
    e.before.calls caller = some (.failing row now) → row.id = accountId →
    row.failedLogins + 1 ≤ maxFailures .sqlite →
    (count accountId e.before).map Prod.fst = some row.failedLogins

/-- What one step does to an account's count. -/
inductive Move (accountId : String) (e : Event Fleet Action Answer) : Prop where
  | still (stands : CountStands accountId e) (same : count accountId e.after = count accountId e.before)
      (guesses : e.after.guesses accountId = e.before.guesses accountId)
      (reads : ∀ row now, Fails accountId row now e.after →
        Fails accountId row now e.before ∨ e.before.store.accounts.find accountId = some row)
  | counts (row : Account) (now : Instant)
      (known : Fails accountId row now e.before ∨ e.before.store.accounts.find accountId = some row)
      (stands : CountStands accountId e ↔
        (count accountId e.before).map Prod.fst = some row.failedLogins)
      (written : count accountId e.after = (count accountId e.before).map
        (fun _ => (row.failedLogins + 1, lockFor (row.failedLogins + 1) now)))
      (guesses : e.after.guesses accountId = e.before.guesses accountId + 1)
      (reads : ∀ other now, Fails accountId other now e.after → Fails accountId other now e.before)

variable {prim : Primitives} {backend : Backend} {accountId : String}

theorem count_counted_self (s : TokenStore) (fleet after : Fleet) (failures : Nat)
    (lockedUntil : Option Instant) (here : fleet.store = s)
    (there : after.store = counted s accountId failures lockedUntil) :
    count accountId after = (count accountId fleet).map (fun _ => (failures, lockedUntil)) := by
  rw [count, count, there, here, counted_find, if_pos rfl, Option.map_map, Option.map_map]
  rfl

theorem count_counted_other {ident : String} (s : TokenStore) (fleet after : Fleet) (failures : Nat)
    (lockedUntil : Option Instant) (here : fleet.store = s)
    (there : after.store.accounts = (counted s ident failures lockedUntil).accounts)
    (different : ident ≠ accountId) : count accountId after = count accountId fleet := by
  rw [count, count, there, here, counted_find, if_neg (Ne.symm different)]

variable {e : Event Fleet Action Answer} {s : Fleet}

theorem still_of_same
    (stands : CountStands accountId e) (same : count accountId e.after = count accountId e.before)
    (guesses : e.after.guesses accountId = e.before.guesses accountId)
    (calls : ∀ caller row now, row.id = accountId →
      e.after.calls caller = some (.failing row now) → e.before.calls caller = some (.failing row now)) :
    Move accountId e := by
  refine .still stands same guesses ?_
  rintro row now ⟨keyed, caller, there⟩
  exact .inl ⟨keyed, caller, calls caller row now keyed there⟩

theorem stands_of_action (other : ∀ caller drawn, e.action ≠ .resume caller drawn) :
    CountStands accountId e :=
  fun caller drawn _ _ resumes => absurd resumes (other caller drawn)

theorem waits_other {caller other : CallId} {call waiting : Call}
    (there : (s.waits caller call).calls other = some waiting) :
    (other = caller ∧ waiting = call) ∨ s.calls other = some waiting := by
  by_cases same : other = caller
  · subst same
    simp only [Fleet.waits, Function.update_self, Option.some.injEq] at there
    exact .inl ⟨rfl, there.symm⟩
  · simp only [Fleet.waits, Function.update_of_ne same] at there
    exact .inr there

theorem returns_other {caller other : CallId} {waiting : Call}
    (there : (s.returns caller).calls other = some waiting) : s.calls other = some waiting := by
  by_cases same : other = caller
  · subst same
    simp [Fleet.returns] at there
  · simp only [Fleet.returns, Function.update_of_ne same] at there
    exact there

theorem counts_guesses (s : Fleet) (ident : String) :
    (s.counts ident).guesses accountId =
      if ident = accountId then s.guesses accountId + 1 else s.guesses accountId := by
  by_cases same : ident = accountId
  · subst same
    simp [Fleet.counts]
  · rw [if_neg same]
    exact Function.update_of_ne (Ne.symm same) _ _

/-- What a step that interrupts no guessing does to the count; it proves no login right. -/
def Quiet (accountId : String) (e : Event Fleet Action Answer) : Prop :=
  Move accountId e ∧ Unproven accountId e.after

theorem quiet_of_same (unproven : Unproven accountId e.before) (stands : CountStands accountId e)
    (same : count accountId e.after = count accountId e.before)
    (guesses : e.after.guesses accountId = e.before.guesses accountId)
    (calls : ∀ caller call, e.after.calls caller = some call →
      e.before.calls caller = some call ∨ (∀ row now, call ≠ .failing row now) ∧
        ∀ row generation, call = .clearing row generation → row.id ≠ accountId) :
    Quiet accountId e := by
  constructor
  · apply still_of_same stands same guesses
    intro caller row now _ there
    rcases calls caller _ there with kept | ⟨other, -⟩
    · exact kept
    · exact absurd rfl (other row now)
  · intro caller row generation there
    rcases calls caller _ there with kept | ⟨-, other⟩
    · exact unproven caller row generation kept
    · exact other row generation rfl

theorem readLogin_quiet (s : Fleet) (caller : CallId) (email password : String) (now : Instant)
    (drawn : Drawn) (unproven : Unproven accountId s)
    (guessing : ¬ Interrupts accountId ⟨s, .login caller email password now drawn,
      (readLogin prim s caller email password now).1, (readLogin prim s caller email password now).2⟩) :
    Quiet accountId ⟨s, .login caller email password now drawn,
      (readLogin prim s caller email password now).1, (readLogin prim s caller email password now).2⟩ := by
  have stands : CountStands accountId ⟨s, .login caller email password now drawn,
      (readLogin prim s caller email password now).1, (readLogin prim s caller email password now).2⟩ :=
    stands_of_action nofun
  revert stands guessing
  simp only [readLogin]
  split
  next row judged =>
    intro guessing stands
    refine ⟨.still stands rfl rfl ?_, ?_⟩
    · rintro other at_ ⟨keyed, waiter, there⟩
      rcases waits_other there with ⟨-, fails⟩ | kept
      · cases fails
        rw [← keyed]
        exact .inr (verdict_stored (.inl judged))
      · exact .inl ⟨keyed, waiter, kept⟩
    · intro waiter other generation there
      rcases waits_other there with ⟨-, impossible⟩ | kept
      · cases impossible
      · exact unproven waiter other generation kept
  next row judged =>
    intro guessing stands
    apply quiet_of_same unproven stands rfl rfl
    intro waiter call there
    rcases waits_other there with ⟨-, clears⟩ | kept
    · subst clears
      refine .inr ⟨nofun, ?_⟩
      intro other generation same
      cases same
      intro keyed
      exact guessing (.inl ⟨row, keyed, .inl rfl⟩)
    · exact .inl kept
  next =>
    intro guessing stands
    exact quiet_of_same unproven stands rfl rfl (fun _ _ there => .inl there)

theorem wholeLogin_quiet (s : Fleet) (caller : CallId) (email password : String) (now : Instant)
    (drawn : Drawn) (unproven : Unproven accountId s)
    (guessing : ¬ Interrupts accountId ⟨s, .login caller email password now drawn,
      (wholeLogin prim s email password now drawn).1, (wholeLogin prim s email password now drawn).2⟩) :
    Quiet accountId ⟨s, .login caller email password now drawn,
      (wholeLogin prim s email password now drawn).1, (wholeLogin prim s email password now drawn).2⟩ := by
  have stands : CountStands accountId ⟨s, .login caller email password now drawn,
      (wholeLogin prim s email password now drawn).1, (wholeLogin prim s email password now drawn).2⟩ :=
    stands_of_action nofun
  have outcome := loginPostgres_cases prim email password now drawn s.store
  revert stands guessing
  rw [wholeLogin]
  generalize loginPostgres prim email password now drawn s.store = committed at outcome ⊢
  obtain ⟨result, t⟩ := committed
  intro guessing stands
  cases outcome with
  | raised e => exact quiet_of_same unproven stands rfl rfl (fun _ _ there => .inl there)
  | refused verdict unread =>
    cases verdict with
    | unknown => exact quiet_of_same unproven stands rfl rfl (fun _ _ there => .inl there)
    | locked row => exact quiet_of_same unproven stands rfl rfl (fun _ _ there => .inl there)
    | wrong row => exact absurd rfl (unread row).1
    | right row => exact absurd rfl (unread row).2
  | wrong row stored =>
    refine ⟨?_, unproven⟩
    by_cases keyed : row.id = accountId
    · subst keyed
      refine .counts row now (.inr stored) ?_ ?_ ?_ (fun _ _ fails => fails)
      · simp only [stands, true_iff]
        rw [count, stored]
        rfl
      · exact count_counted_self s.store s _ _ _ rfl rfl
      · simp [Fleet.counts]
    · apply still_of_same stands
      · exact count_counted_other s.store s _ _ _ rfl rfl keyed
      · exact (counts_guesses _ _).trans (if_neg keyed)
      · exact fun _ _ _ _ there => there
  | right row token ident owner fresh =>
    have different : row.id ≠ accountId := by
      rintro rfl
      exact guessing (.inr (.inl rfl))
    exact quiet_of_same unproven stands (count_counted_other s.store s _ _ _ rfl rfl different) rfl
      (fun _ _ there => .inl there)

theorem failing_quiet (s : Fleet) (caller : CallId) (drawn : Drawn) (row : Account) (now : Instant)
    (waiting : s.calls caller = some (.failing row now)) (unproven : Unproven accountId s) :
    Quiet accountId ⟨s, .resume caller drawn,
      (resume prim backend s caller drawn (.failing row now)).1,
      (resume prim backend s caller drawn (.failing row now)).2⟩ := by
  -- The one call this step is about.
  have this_call : ∀ other other_drawn other_row at_, Action.resume caller drawn = .resume other other_drawn →
      s.calls other = some (.failing other_row at_) → other_row = row := by
    rintro other other_drawn other_row at_ ⟨⟩ there
    rw [waiting] at there
    cases there
    rfl
  have returned : ∀ (t : Fleet) other call, t.calls = (s.returns caller).calls →
      t.calls other = some call → s.calls other = some call := by
    intro t other call same there
    rw [same] at there
    exact returns_other there
  have run := setFailures_run .sqlite row.id (row.failedLogins + 1) (lockFor (row.failedLogins + 1) now)
    s.store
  by_cases fits : row.failedLogins + 1 ≤ maxFailures .sqlite
  · rw [if_pos fits] at run
    simp only [resume, Txn.atomically_of_ok run]
    constructor
    · by_cases keyed : row.id = accountId
      · subst keyed
        refine .counts row now (.inl ⟨rfl, caller, waiting⟩) ?_ ?_ ?_ ?_
        · constructor
          · intro stands
            exact stands caller drawn row now rfl waiting rfl fits
          · intro same other other_drawn other_row at_ resumes there _ _
            rw [this_call other other_drawn other_row at_ resumes there]
            exact same
        · exact count_counted_self s.store s _ _ _ rfl rfl
        · exact (counts_guesses _ _).trans (if_pos rfl)
        · rintro other at_ ⟨other_keyed, waiter, there⟩
          exact ⟨other_keyed, waiter, returned _ waiter _ rfl there⟩
      · apply still_of_same
        · intro other other_drawn other_row at_ resumes there other_keyed
          rw [this_call other other_drawn other_row at_ resumes there] at other_keyed
          exact absurd other_keyed keyed
        · exact count_counted_other s.store s _ _ _ rfl rfl keyed
        · exact (counts_guesses _ _).trans (if_neg keyed)
        · exact fun waiter _ _ _ there => returned _ waiter _ rfl there
    · intro waiter other generation there
      exact unproven waiter other generation (returned _ waiter _ rfl there)
  · rw [if_neg fits] at run
    simp only [resume, Txn.atomically_of_error run]
    apply quiet_of_same unproven
    · intro other other_drawn other_row at_ resumes there _ other_fits
      rw [this_call other other_drawn other_row at_ resumes there] at other_fits
      exact absurd other_fits fits
    · rfl
    · rfl
    · exact fun waiter call there => .inl (returned _ waiter _ rfl there)

theorem create_accounts {name : String} {scopes : List String} {expiresAt : Option Expiry}
    {ownerId : Option String} {tokenKind : String} {drawn : Drawn} {s t : TokenStore}
    (run : create prim backend name scopes expiresAt ownerId tokenKind drawn s = (.ok (), t)) :
    t.accounts = s.accounts := by
  obtain ⟨-, expiry, -, fresh, stored⟩ := create_returned run
  rw [stored]
  rfl

theorem resume_quiet (s : Fleet) (caller : CallId) (drawn : Drawn) (call : Call)
    (waiting : s.calls caller = some call) (unproven : Unproven accountId s) :
    Quiet accountId ⟨s, .resume caller drawn, (resume prim backend s caller drawn call).1,
      (resume prim backend s caller drawn call).2⟩ := by
  have stands : (∀ row now, call ≠ .failing row now) → ∀ answer after,
      CountStands accountId ⟨s, .resume caller drawn, answer, after⟩ := by
    rintro other answer after caller' drawn' row now ⟨⟩ there
    exact absurd (Option.some.inj (waiting.symm.trans there)) (other row now)
  have returned : ∀ (t : Fleet) other call', t.calls = (s.returns caller).calls →
      t.calls other = some call' → s.calls other = some call' := by
    intro t other call' same there
    rw [same] at there
    exact returns_other there
  cases call with
  | failing row now => exact failing_quiet s caller drawn row now waiting unproven
  | clearing row generation =>
    have different : row.id ≠ accountId := unproven caller row generation waiting
    simp only [resume]
    split
    next t run =>
      rw [Txn.atomically_ok] at run
      apply quiet_of_same unproven (stands nofun _ _)
      · exact count_counted_other s.store s _ 0 none rfl
          (congrArg TokenStore.accounts (setFailures_returned run)) different
      · rfl
      · intro waiter other there
        rcases waits_other there with ⟨-, issues⟩ | kept
        · subst issues
          exact .inr ⟨nofun,
            nofun⟩
        · exact .inl kept
    next e t run =>
      rw [Txn.atomically_error run]
      exact quiet_of_same unproven (stands nofun _ _) rfl rfl
        (fun waiter _ there => .inl (returned _ waiter _ rfl there))
  | issuing row generation =>
    simp only [resume]
    split
    next t run =>
      apply quiet_of_same unproven (stands nofun _ _)
      · exact congrArg (fun accounts => (Table.find accounts accountId).map _) (create_accounts run)
      · rfl
      · exact fun waiter _ there => .inl (returned _ waiter _ rfl there)
    next e t run =>
      rw [create_raised run]
      exact quiet_of_same unproven (stands nofun _ _) rfl rfl
        (fun waiter _ there => .inl (returned _ waiter _ rfl there))
  | minting principal request generation =>
    simp only [resume]
    split
    next t run =>
      apply quiet_of_same unproven (stands nofun _ _)
      · exact congrArg (fun accounts => (Table.find accounts accountId).map _) (create_accounts run)
      · rfl
      · exact fun waiter _ there => .inl (returned _ waiter _ rfl there)
    next e t run =>
      rw [create_raised run]
      exact quiet_of_same unproven (stands nofun _ _) rfl rfl
        (fun waiter _ there => .inl (returned _ waiter _ rfl there))

theorem count_update (s after : Fleet) (p : Account → Bool) (f : Account → Account)
    (ids : ∀ a, (f a).id = a.id) (there : after.store.accounts = s.store.accounts.update p f ids)
    (same : ∀ a, p a = true → a.id = accountId →
      (f a).failedLogins = a.failedLogins ∧ (f a).lockedUntil = a.lockedUntil) :
    count accountId after = count accountId s := by
  rw [count, count, there, Table.find_update]
  cases found : s.store.accounts.find accountId with
  | none => rfl
  | some row =>
    by_cases meets : p row = true
    · obtain ⟨failures, lock⟩ := same row meets (Table.key_of_find found)
      simp [meets, failures, lock]
    · simp [meets]

theorem invalidates_quiet (s : Fleet) (a : Action) (answer : Answer) (t : TokenStore) (ident : String)
    (now : Instant) (changed : Bool) (unproven : Unproven accountId s) (other : ∀ caller drawn, a ≠ .resume caller drawn)
    (same : count accountId { s with store := t } = count accountId s) :
    Quiet accountId ⟨s, a, answer, { s with store := t }.invalidates ident now changed⟩ := by
  cases changed with
  | false => exact quiet_of_same unproven (stands_of_action other) same rfl (fun _ _ there => .inl there)
  | true => exact quiet_of_same unproven (stands_of_action other) same rfl (fun _ _ there => .inl there)

theorem step_quiet (s : Fleet) (a : Action) (unproven : Unproven accountId s)
    (guessing : ¬ Interrupts accountId ⟨s, a, (step prim backend s a).1, (step prim backend s a).2⟩) :
    Quiet accountId ⟨s, a, (step prim backend s a).1, (step prim backend s a).2⟩ := by
  have unseen : ∀ answer, (∀ caller drawn, a ≠ .resume caller drawn) →
      Quiet accountId ⟨s, a, answer, s⟩ := fun answer other =>
    quiet_of_same unproven (stands_of_action other) rfl rfl (fun _ _ there => .inl there)
  cases a with
  | login caller email password now drawn =>
    simp only [step] at guessing ⊢
    split
    · exact unseen _ (fun _ _ impossible => by cases impossible)
    next idle =>
      simp only [idle] at guessing
      exact readLogin_quiet s caller email password now drawn unproven guessing
    next idle =>
      simp only [idle] at guessing
      exact wholeLogin_quiet s caller email password now drawn unproven guessing
  | resume caller drawn =>
    simp only [step] at guessing ⊢
    split
    next idle =>
      refine quiet_of_same unproven ?_ rfl rfl (fun _ _ there => .inl there)
      rintro other drawn' row now ⟨⟩ there
      exact absurd (idle.symm.trans there) (by simp)
    next call waiting => exact resume_quiet s caller drawn call waiting unproven
  | requestKey caller secret request now =>
    have other : ∀ waiter drawn, Action.requestKey caller secret request now ≠ .resume waiter drawn :=
      fun _ _ impossible => by cases impossible
    simp only [step]
    split
    · exact unseen _ other
    · obtain ⟨t, run, accounts, -⟩ := authenticate_run (prim.digest secret) now s.store
      have same : count accountId { s with store := t } = count accountId s := by
        rw [count, count, accounts]
      simp only [requestKey, run]
      split
      · refine quiet_of_same unproven (stands_of_action other) same rfl ?_
        intro waiter call there
        rcases waits_other there with ⟨-, mints⟩ | kept
        · subst mints
          exact .inr ⟨(fun _ _ impossible => by cases impossible),
            fun _ _ impossible => by cases impossible⟩
        · exact .inl kept
      · exact quiet_of_same unproven (stands_of_action other) same rfl (fun _ _ there => .inl there)
  | authenticate secret now =>
    obtain ⟨t, run, accounts, -⟩ := authenticate_run (prim.digest secret) now s.store
    simp only [step, run]
    apply quiet_of_same unproven (stands_of_action (fun _ _ impossible => by cases impossible))
    · rw [count, count, accounts]
    · rfl
    · exact fun _ _ there => .inl there
  | revoke ident ownerId now =>
    obtain ⟨changed, t, run, accounts, -⟩ := revoke_run ident ownerId now s.store
    simp only [step, run]
    apply quiet_of_same unproven (stands_of_action (fun _ _ impossible => by cases impossible))
    · rw [count, count, accounts]
    · rfl
    · exact fun _ _ there => .inl there
  | disable ident now =>
    obtain ⟨changed, t, run, accounts, -⟩ := invalidate_run ident
      (fun a => { a with disabledAt := some now }) (fun _ => rfl) now s.store
    simp only [step, disableAccount, run]
    apply invalidates_quiet s _ _ t ident now changed unproven
      (fun _ _ impossible => by cases impossible)
    exact count_update s _ _ _ _ accounts (fun _ _ _ => ⟨rfl, rfl⟩)
  | reset ident password salt now =>
    have other : ∀ waiter drawn, Action.reset ident password salt now ≠ .resume waiter drawn :=
      fun _ _ impossible => by cases impossible
    rcases resetPassword_run prim ident password salt now s.store with ⟨e, raised⟩ | update
    · simp only [step, raised]
      exact unseen _ other
    · obtain ⟨changed, t, run, accounts, -, -, unchanged⟩ := invalidate_run ident
        (fun a => a.rekeyed (prim.password password salt) salt) (fun _ => rfl) now s.store
      simp only [step, update, run] at guessing ⊢
      apply invalidates_quiet s _ _ t ident now changed unproven other
      cases changed with
      | false => rw [count, count, unchanged rfl]
      | true =>
        refine count_update s _ _ _ _ accounts ?_
        intro row meets keyed
        have matched : row.id = ident := (of_decide_eq_true meets).1
        rw [keyed] at matched
        subst matched
        exact absurd (.inr (.inr ⟨password, salt, now, rfl, rfl⟩)) guessing

/-- Every guess that returned is counted, and no login has read a higher count. -/
structure Counted (accountId : String) (before : Nat) (s : Fleet) : Prop where
  stored : ∃ lock, count accountId s = some (before + s.guesses accountId, lock) ∧
    (0 < s.guesses accountId → 5 ≤ before + s.guesses accountId → lock.isSome = true)
  reads : ∀ row now, Fails accountId row now s → row.failedLogins ≤ before + s.guesses accountId
  unproven : Unproven accountId s

/-- A guess is lost, and no login has read a count that would make up for it. -/
structure Missed (accountId : String) (before : Nat) (s : Fleet) : Prop where
  stored : ∃ failures lock, count accountId s = some (failures, lock) ∧
    failures < before + s.guesses accountId
  reads : ∀ row now, Fails accountId row now s → row.failedLogins < before + s.guesses accountId
  unproven : Unproven accountId s

theorem failures_of_stored {row : Account} {failures : Nat} {lock : Option Instant}
    (stored : s.store.accounts.find accountId = some row)
    (counted : count accountId s = some (failures, lock)) : row.failedLogins = failures := by
  rw [count, stored, Option.map_some, Option.some.injEq, Prod.mk.injEq] at counted
  exact counted.1

theorem lockFor_isSome {failures : Nat} (now : Instant) (many : 5 ≤ failures) :
    (lockFor failures now).isSome = true := by
  rw [lockFor, if_pos many]
  rfl

variable {before : Nat}

theorem counted_step (s : Fleet) (a : Action)
    (guessing : ¬ Interrupts accountId ⟨s, a, (step prim backend s a).1, (step prim backend s a).2⟩)
    (sound : Counted accountId before s)
    (stands : CountStands accountId ⟨s, a, (step prim backend s a).1, (step prim backend s a).2⟩) :
    Counted accountId before (step prim backend s a).2 := by
  obtain ⟨lock, stored, locks⟩ := sound.stored
  obtain ⟨move, unproven⟩ := step_quiet s a sound.unproven guessing
  cases move with
  | still _ same guesses reads =>
    refine ⟨⟨lock, ?_, ?_⟩, ?_, unproven⟩
    · rw [same, guesses]
      exact stored
    · rw [guesses]
      exact locks
    · intro row now fails
      rw [guesses]
      rcases reads row now fails with earlier | read
      · exact sound.reads row now earlier
      · exact Nat.le_of_eq (failures_of_stored read stored)
  | counts row now known stand written guesses reads =>
    simp only at known stand written guesses reads
    have current : row.failedLogins = before + s.guesses accountId := by
      have found := stand.mp stands
      rw [stored] at found
      exact (Option.some.inj found).symm
    rw [stored, current] at written
    refine ⟨⟨lockFor (before + s.guesses accountId + 1) now, ?_, ?_⟩, ?_, unproven⟩
    · rw [guesses]
      exact written
    · rw [guesses]
      exact fun _ many => lockFor_isSome now many
    · intro other at_ fails
      have earlier := sound.reads other at_ (reads other at_ fails)
      omega

theorem missed_of_broken (s : Fleet) (a : Action)
    (guessing : ¬ Interrupts accountId ⟨s, a, (step prim backend s a).1, (step prim backend s a).2⟩)
    (sound : Counted accountId before s)
    (broken : ¬ CountStands accountId ⟨s, a, (step prim backend s a).1, (step prim backend s a).2⟩) :
    Missed accountId before (step prim backend s a).2 := by
  obtain ⟨lock, stored, -⟩ := sound.stored
  obtain ⟨move, unproven⟩ := step_quiet s a sound.unproven guessing
  cases move with
  | still stands _ _ _ => exact absurd stands broken
  | counts row now known stand written guesses reads =>
    simp only at known stand written guesses reads
    have bound : row.failedLogins ≤ before + s.guesses accountId := by
      rcases known with fails | read
      · exact sound.reads row now fails
      · exact Nat.le_of_eq (failures_of_stored read stored)
    have stale : row.failedLogins ≠ before + s.guesses accountId := by
      intro current
      apply broken
      rw [stand, stored, current]
      rfl
    rw [stored] at written
    refine ⟨⟨_, _, written, ?_⟩, ?_, unproven⟩
    · omega
    · intro other at_ fails
      have earlier := sound.reads other at_ (reads other at_ fails)
      omega

theorem missed_step (s : Fleet) (a : Action)
    (guessing : ¬ Interrupts accountId ⟨s, a, (step prim backend s a).1, (step prim backend s a).2⟩)
    (missed : Missed accountId before s) : Missed accountId before (step prim backend s a).2 := by
  obtain ⟨failures, lock, stored, short⟩ := missed.stored
  obtain ⟨move, unproven⟩ := step_quiet s a missed.unproven guessing
  have known_short : ∀ row now, Fails accountId row now s ∨
      s.store.accounts.find accountId = some row → row.failedLogins < before + s.guesses accountId := by
    rintro row now (fails | read)
    · exact missed.reads row now fails
    · rw [failures_of_stored read stored]
      exact short
  cases move with
  | still _ same guesses reads =>
    refine ⟨⟨failures, lock, same.trans stored, ?_⟩, ?_, unproven⟩
    · rw [guesses]
      exact short
    · intro row now fails
      rw [guesses]
      exact known_short row now (reads row now fails)
  | counts row now known _ written guesses reads =>
    simp only at known written guesses reads
    have bound := known_short row now known
    rw [stored] at written
    refine ⟨⟨_, _, written, ?_⟩, ?_, unproven⟩
    · omega
    · intro other at_ fails
      have earlier := missed.reads other at_ (reads other at_ fails)
      omega

/-- On PostgreSQL no login waits between its read and its UPDATE. -/
def NoneFailing (s : Fleet) : Prop := ∀ caller row now, s.calls caller ≠ some (.failing row now)

theorem postgres_noneFailing (s : Fleet) (a : Action) (none_failing : NoneFailing s) :
    NoneFailing (step prim .postgres s a).2 := by
  have waits : ∀ (t : Fleet) caller call, t.calls = s.calls → (∀ row now, call ≠ .failing row now) →
      NoneFailing (t.waits caller call) := by
    intro t caller call same other waiter row now there
    rcases waits_other there with ⟨-, fails⟩ | kept
    · exact other row now fails.symm
    · rw [same] at kept
      exact none_failing waiter row now kept
  have returns : ∀ (t : Fleet) caller, t.calls = s.calls → NoneFailing (t.returns caller) := by
    intro t caller same waiter row now there
    have kept := returns_other there
    rw [same] at kept
    exact none_failing waiter row now kept
  cases a with
  | login caller email password now drawn =>
    simp only [step]
    split
    · exact none_failing
    next impossible => cases impossible
    · simp only [wholeLogin]
      split <;> exact none_failing
  | resume caller drawn =>
    simp only [step]
    split
    · exact none_failing
    next call waiting =>
      cases call with
      | failing row now => exact absurd waiting (none_failing caller row now)
      | clearing row generation =>
        simp only [resume]
        split
        · exact waits _ _ _ rfl nofun
        · exact returns _ _ rfl
      | issuing row generation =>
        simp only [resume]
        split <;> exact returns _ _ rfl
      | minting principal request generation =>
        simp only [resume]
        split <;> exact returns _ _ rfl
  | requestKey caller secret request now =>
    simp only [step]
    split
    · exact none_failing
    · simp only [requestKey]
      split
      · split
        · exact waits _ _ _ rfl nofun
        · exact none_failing
      · exact none_failing
  | authenticate secret now =>
    simp only [step]
    split <;> exact none_failing
  | revoke ident ownerId now =>
    simp only [step]
    split <;> exact none_failing
  | disable ident now =>
    simp only [step]
    split
    next changed t _ => cases changed <;> exact none_failing
    · exact none_failing
  | reset ident password salt now =>
    simp only [step]
    split
    next changed t _ => cases changed <;> exact none_failing
    · exact none_failing

/-- After a run each wrong guess of the account is counted, and it is locked. -/
def AllCounted (accountId : String) (before : Nat) (s : Fleet) : Prop :=
  ∃ lock, count accountId s = some (before + s.guesses accountId, lock) ∧ lock.isSome = true

/-- In every run, over either store, that holds five or more wrong guesses at an account
and nothing that interrupts them: the failures have grown by exactly the guesses that
returned and the account is locked if and only if each UPDATE found the count as its
login had read it. On PostgreSQL each does. -/
theorem guesses_counted_iff (prim : Primitives) (backend : Backend) (store : TokenStore)
    (run : List Action) (accountId : String) (row : Account)
    (stored : store.accounts.find accountId = some row)
    (guessing : ∀ e ∈ history (step prim backend) (start store) run, ¬ Interrupts accountId e)
    (many : 5 ≤ (final (step prim backend) (start store) run).guesses accountId) :
    (AllCounted accountId row.failedLogins (final (step prim backend) (start store) run) ↔
        ∀ e ∈ history (step prim backend) (start store) run, CountStands accountId e) ∧
      (backend = .postgres →
        ∀ e ∈ history (step prim backend) (start store) run, CountStands accountId e) := by
  have initial : Counted accountId row.failedLogins (start store) := by
    refine ⟨⟨row.lockedUntil, ?_, ?_⟩, ?_, ?_⟩
    · rw [count]
      simp [start, stored]
    · simp [start]
    · rintro _ _ ⟨-, _, there⟩
      cases there
    · intro _ _ _ there
      cases there
  constructor
  · rcases @sound_or_doomed_of_allowed _ _ _ (step prim backend) _ _ _ _ counted_step missed_of_broken
      missed_step _ initial _ guessing with ⟨stands, sound⟩ | ⟨⟨e, member, broken⟩, missed⟩
    · obtain ⟨lock, counted, locks⟩ := sound.stored
      have all : AllCounted accountId row.failedLogins (final (step prim backend) (start store) run) :=
        ⟨lock, counted, locks (by omega) (by omega)⟩
      exact ⟨fun _ => stands, fun _ => all⟩
    · obtain ⟨failures, lock, counted, short⟩ := missed.stored
      constructor
      · rintro ⟨other, equal, -⟩
        rw [counted, Option.some.injEq, Prod.mk.injEq] at equal
        omega
      · intro all
        exact absurd (all e member) broken
  · rintro rfl e member caller drawn row now resumes waiting
    have none_failing := (invariant postgres_noneFailing (s := start store)
      (fun _ _ _ there => by cases there) run).1 e member
    exact absurd waiting (none_failing.1 caller row now)

/-- A wrong guess by a caller. -/
def guess (caller : CallId) : Action :=
  .login caller "ada@example.com" "hunter2 hunter2" 1 ⟨"", "", 1, 1⟩

def finish (caller : CallId) : Action := .resume caller ⟨"", "", 1, 1⟩

def isGuess : Answer → Bool
  | .read (.wrong _) | .refused (.wrong _) => true
  | _ => false

theorem guesses_uninterrupted {events : List (Event Fleet Action Answer)}
    (wrong : events.all (fun e => isGuess e.answer) = true) :
    ∀ e ∈ events, ¬ Interrupts accountId e := by
  intro e mem
  have guessed := List.all_eq_true.mp wrong e mem
  rintro (⟨row, -, read | refused⟩ | loggedIn | ⟨_, _, _, -, changed⟩)
  · simp [read, isGuess] at guessed
  · simp [refused, isGuess] at guessed
  · simp [loggedIn, isGuess] at guessed
  · simp [changed, isGuess] at guessed

def fiveGuesses : List Action := [guess 1, guess 2, guess 3, guess 4, guess 5]

theorem postgres_guesses_counted :
    AllCounted "acct_1" 0 (final (step plain .postgres) (start adaStore) fiveGuesses) :=
  have counted := guesses_counted_iff plain .postgres adaStore fiveGuesses "acct_1" ada rfl
    (guesses_uninterrupted (by decide +kernel))
    (by decide +kernel)
  counted.1.mpr (counted.2 rfl)

/-- Five logins read the count before any of them writes it. -/
def parallelGuesses : List Action :=
  fiveGuesses ++ [finish 1, finish 2, finish 3, finish 4, finish 5]

/-- Five parallel guesses on SQLite count as one. -/
theorem parallel_guesses_lost :
    ¬ ∀ (store : TokenStore) (run : List Action) (accountId : String) (row : Account),
      store.accounts.find accountId = some row →
      (∀ e ∈ history (step plain .sqlite) (start store) run, ¬ Interrupts accountId e) →
      5 ≤ (final (step plain .sqlite) (start store) run).guesses accountId →
      AllCounted accountId row.failedLogins (final (step plain .sqlite) (start store) run) := by
  intro contract
  obtain ⟨lock, counted, -⟩ := contract adaStore parallelGuesses "acct_1" ada rfl
    (guesses_uninterrupted (by decide +kernel))
    (by decide +kernel)
  have one : (count "acct_1" (final (step plain .sqlite) (start adaStore) parallelGuesses)).map
      Prod.fst = some 1 := by decide +kernel
  have five : (final (step plain .sqlite) (start adaStore) parallelGuesses).guesses "acct_1" = 5 := by
    decide +kernel
  rw [counted, five] at one
  simp [ada] at one

end Meemee.Guarantees.LoginLockout
