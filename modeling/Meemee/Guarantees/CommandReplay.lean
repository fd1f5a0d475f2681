import Meemee.Library.History
import Meemee.Source.DeviceProtocol

/-!
# An envelope is accepted once

A run is a list of calls of `verify_command` with one secret and one guard. `Retains` says
what a claimed nonce leaves behind: an entry that no claim before its expiry prunes, and
that refuses the nonce until then. An accepted envelope is retained past the last second in
which its signature window is open, whatever the TTL of the guard is.
-/
namespace Meemee.Guarantees.CommandReplay
open Library Library.History Source Source.DeviceProtocol List

/-- The guard holds the nonce until `limit`, or longer. -/
def Retains (guard : ReplayGuard) (nonce : String) (limit : ℚ) : Prop :=
  match guard with
  | .memory g => ∃ entry ∈ g.seen, entry.1 = nonce ∧ limit ≤ entry.2
  | .ledger g => ∃ r ∈ g.ledger, r.peer = g.peer ∧ r.nonce = nonce ∧ limit ≤ r.expiresAt

theorem mem_pruned {ledger : Table ReplayRow.key} (peer : String) {now : ℚ} {r : ReplayRow}
    (mem : r ∈ ledger) (late : now < r.expiresAt) :
    r ∈ ledger.delete (fun r => decide (r.peer = peer ∧ r.expiresAt ≤ now)) := by
  rw [Table.mem_delete]
  refine ⟨mem, decide_eq_false ?_⟩
  rintro ⟨-, expired⟩
  exact absurd late (not_lt.mpr expired)

theorem retains_weaken {guard : ReplayGuard} {nonce : String} {limit sooner : ℚ}
    (held : Retains guard nonce limit) (le : sooner ≤ limit) : Retains guard nonce sooner := by
  cases guard with
  | memory g =>
    obtain ⟨entry, mem, same, late⟩ := held
    exact ⟨entry, mem, same, le.trans late⟩
  | ledger g =>
    obtain ⟨r, mem, peer, same, late⟩ := held
    exact ⟨r, mem, peer, same, le.trans late⟩

section Claim

variable {guard : ReplayGuard} {nonce other : String} {limit now : ℚ} {retain : Int}

theorem claim_refuses (held : Retains guard nonce limit) (early : now < limit) :
    (guard.claim nonce retain now).1 = false := by
  cases guard with
  | memory g =>
    obtain ⟨entry, mem, same, late⟩ := held
    have seen : (g.seen.filter (fun entry => decide (now < entry.2))).any
        (fun entry => decide (entry.1 = nonce)) = true := by
      rw [any_eq_true]
      refine ⟨entry, mem_filter.mpr ⟨mem, ?_⟩, ?_⟩
      · exact decide_eq_true (lt_of_lt_of_le early late)
      · exact decide_eq_true same
    simp only [ReplayGuard.claim, MemoryGuard.claim, seen, if_true]
  | ledger g =>
    obtain ⟨r, mem, peer, same, late⟩ := held
    have found := Table.find_of_mem (mem_pruned g.peer mem (lt_of_lt_of_le early late))
    rw [ReplayRow.key, peer, same] at found
    have conflict := @Table.insertOrIgnore_conflict _ _ ReplayRow.key _ _
      ⟨g.peer, nonce, retention g.ttl now retain⟩ _ found
    simp only [ReplayGuard.claim, LedgerGuard.claim, conflict]

theorem claim_keeps (held : Retains guard nonce limit) (early : now < limit) :
    Retains (guard.claim other retain now).2 nonce limit := by
  cases guard with
  | memory g =>
    obtain ⟨entry, mem, same, late⟩ := held
    have kept : entry ∈ g.seen.filter (fun entry => decide (now < entry.2)) :=
      mem_filter.mpr ⟨mem, decide_eq_true (lt_of_lt_of_le early late)⟩
    simp only [ReplayGuard.claim, MemoryGuard.claim]
    split
    · exact ⟨entry, kept, same, late⟩
    · exact ⟨entry, mem_append_left _ kept, same, late⟩
  | ledger g =>
    obtain ⟨r, mem, peer, same, late⟩ := held
    have kept := mem_pruned g.peer mem (lt_of_lt_of_le early late)
    exact ⟨r, Table.mem_insertOrIgnore kept, peer, same, late⟩

theorem claim_retains (claimed : (guard.claim nonce retain now).1 = true) :
    Retains (guard.claim nonce retain now).2 nonce (now + retain) := by
  cases guard with
  | memory g =>
    simp only [ReplayGuard.claim, MemoryGuard.claim] at claimed ⊢
    split at claimed
    · cases claimed
    next unseen =>
      rw [if_neg unseen]
      refine ⟨_, mem_append_right _ (mem_singleton_self _), rfl, ?_⟩
      exact add_le_add_right (le_max_right _ _) now
  | ledger g =>
    simp only [ReplayGuard.claim, LedgerGuard.claim] at claimed ⊢
    have fresh := Table.fresh_of_inserted claimed
    rw [Table.insertOrIgnore_fresh fresh]
    refine ⟨_, (Table.mem_insert fresh).mpr (.inr rfl), rfl, rfl, ?_⟩
    exact add_le_add_right (le_max_right _ _) now

end Claim

/-- A call of `verify_command`, with what its two clocks read. -/
structure Call where
  presented : Presented
  check : Verification
  time : ℚ
  reading : ℚ

variable {command : VerifiedCommand}

section Calls

variable (hmac : ByteArray → ByteArray → String) (secret : ByteArray)

def step (guard : ReplayGuard) (call : Call) : Except DeviceExc VerifiedCommand × ReplayGuard :=
  verifyCommand hmac call.presented secret call.check call.time call.reading guard

/-- The guard reads its clock in the second that the signature window is checked at. -/
def SameSecond (call : Call) : Prop := ⌊call.reading⌋ = clockOf call.check call.time

variable {hmac secret} {guard : ReplayGuard} {call : Call} {nonce : String} {limit : ℚ}

theorem within_window {check : Verification} {clock : Int}
    (admitted : admissible check command clock = .ok ()) :
    clock ≤ command.issuedAt + check.tolerance := by
  unfold admissible at admitted
  split at admitted
  · cases admitted
  next inside =>
    have near := le_of_abs_le (not_lt.mp inside)
    omega

theorem step_accepted (accepted : (step hmac secret guard call).1 = .ok command) :
    let retain := command.issuedAt + call.check.tolerance - clockOf call.check call.time + 1
    authenticate hmac call.presented secret = .ok command ∧
      clockOf call.check call.time ≤ command.issuedAt + call.check.tolerance ∧
      (guard.claim command.nonce retain call.reading).1 = true ∧
      (step hmac secret guard call).2 = (guard.claim command.nonce retain call.reading).2 := by
  unfold step verifyCommand at accepted ⊢
  cases read : authenticate hmac call.presented secret with
  | error e =>
    rw [read] at accepted
    cases accepted
  | ok found =>
    rw [read] at accepted
    simp only at accepted ⊢
    cases admitted : admissible call.check found (clockOf call.check call.time) with
    | error e =>
      rw [admitted] at accepted
      cases accepted
    | ok _ =>
      rw [admitted] at accepted
      simp only at accepted ⊢
      split at accepted
      next fresh =>
        cases accepted
        rw [if_pos fresh]
        exact ⟨rfl, within_window admitted, fresh, rfl⟩
      · cases accepted

theorem step_guard (hmac : ByteArray → ByteArray → String) (secret : ByteArray)
    (guard : ReplayGuard) (call : Call) :
    (step hmac secret guard call).2 = guard ∨
      ∃ other retain, (step hmac secret guard call).2 = (guard.claim other retain call.reading).2 := by
  unfold step verifyCommand
  split
  · exact .inl rfl
  next command _ =>
    simp only
    split
    · exact .inl rfl
    · refine .inr ⟨command.nonce,
        command.issuedAt + call.check.tolerance - clockOf call.check call.time + 1, ?_⟩
      split <;> rfl

theorem step_keeps (held : Retains guard nonce limit) (early : call.reading < limit) :
    Retains (step hmac secret guard call).2 nonce limit := by
  rcases step_guard hmac secret guard call with same | ⟨other, retain, claimed⟩
  · rw [same]
    exact held
  · rw [claimed]
    exact claim_keeps held early

theorem accepted_late (held : Retains guard command.nonce limit)
    (accepted : (step hmac secret guard call).1 = .ok command) : limit ≤ call.reading := by
  obtain ⟨-, -, fresh, -⟩ := step_accepted accepted
  by_contra early
  rw [claim_refuses held (not_le.mp early)] at fresh
  cases fresh

/-- An accepted envelope is retained through the last second of its signature window. -/
theorem accepted_retained (sameSecond : SameSecond call)
    (accepted : (step hmac secret guard call).1 = .ok command) :
    Retains (step hmac secret guard call).2 command.nonce
      (command.issuedAt + call.check.tolerance + 1 : Int) := by
  obtain ⟨-, -, fresh, after⟩ := step_accepted accepted
  rw [after]
  refine retains_weaken (claim_retains fresh) ?_
  have reading : (clockOf call.check call.time : ℚ) ≤ call.reading := by
    rw [← sameSecond]
    exact Int.floor_le call.reading
  push_cast
  linarith

/-- An accepted call read the guard's clock before the end of its own signature window. -/
theorem accepted_early (sameSecond : SameSecond call)
    (accepted : (step hmac secret guard call).1 = .ok command) :
    call.reading < (command.issuedAt + call.check.tolerance + 1 : Int) := by
  obtain ⟨-, inside, -, -⟩ := step_accepted accepted
  have second := Int.lt_floor_add_one call.reading
  rw [sameSecond] at second
  have bound : (clockOf call.check call.time : ℚ) + 1 ≤
      (command.issuedAt + call.check.tolerance + 1 : Int) := by
    exact_mod_cast Int.add_le_add_right inside 1
  linarith

theorem step_refused {e : DeviceExc} (refused : (step hmac secret guard call).1 = .error e)
    (unreplayed : e ≠ valueError "replayed command") : (step hmac secret guard call).2 = guard := by
  unfold step verifyCommand at refused ⊢
  split at refused
  · rfl
  next command _ =>
    simp only at refused ⊢
    split at refused
    · rfl
    · split at refused
      · cases refused
      · cases refused
        exact absurd rfl unreplayed

end Calls

/-- The event accepts an envelope with this nonce and issue time. -/
def Accepts (nonce : String) (issuedAt : Int) (e : Event ReplayGuard Call (Except DeviceExc VerifiedCommand)) :
    Prop :=
  ∃ command, e.answer = .ok command ∧ command.nonce = nonce ∧ command.issuedAt = issuedAt

/-- The guard's clock never goes back. -/
def Ordered (calls : List Call) : Prop :=
  calls.Pairwise (fun earlier later => earlier.reading ≤ later.reading)

section Runs

variable {hmac : ByteArray → ByteArray → String} {secret : ByteArray} {guard : ReplayGuard}
  {calls : List Call}

theorem accepted_after {nonce : String} {issuedAt : Int} {limit : ℚ}
    (held : Retains guard nonce limit) (ordered : Ordered calls)
    {e : Event ReplayGuard Call (Except DeviceExc VerifiedCommand)}
    (mem : e ∈ history (step hmac secret) guard calls) (accepts : Accepts nonce issuedAt e) :
    limit ≤ e.action.reading := by
  induction calls generalizing guard with
  | nil => simp at mem
  | cons call rest ih =>
    obtain ⟨first, later⟩ := pairwise_cons.mp ordered
    rcases mem_cons.mp mem with here | there
    · subst here
      obtain ⟨command, accepted, rfl, -⟩ := accepts
      exact accepted_late held accepted
    · by_cases early : call.reading < limit
      · exact ih (step_keeps held early) later there
      · exact (not_lt.mp early).trans (first e.action (action_of_mem there))

theorem accepted_wider (ordered : Ordered calls) (sameSecond : ∀ call ∈ calls, SameSecond call)
    (nonce : String) (issuedAt : Int) :
    (history (step hmac secret) guard calls).Pairwise (fun earlier later =>
      Accepts nonce issuedAt earlier → Accepts nonce issuedAt later →
        earlier.action.check.tolerance < later.action.check.tolerance) := by
  refine @pairwise_of_tail _ _ _ _ (fun calls => Ordered calls ∧ ∀ call ∈ calls, SameSecond call) _
    ?_ ?_ guard _ ⟨ordered, sameSecond⟩
  · rintro call rest ⟨ordered, sameSecond⟩
    exact ⟨(pairwise_cons.mp ordered).2,
      fun other mem => sameSecond other (mem_cons_of_mem _ mem)⟩
  · rintro guard call rest ⟨ordered, sameSecond⟩ e mem ⟨command, accepted, rfl, rfl⟩ accepts
    have held := accepted_retained (sameSecond call mem_cons_self) accepted
    have late := accepted_after held (pairwise_cons.mp ordered).2 mem accepts
    obtain ⟨again, answered, -, issued⟩ := accepts
    have second := sameSecond e.action (mem_cons_of_mem _ (action_of_mem mem))
    have ran := step_of_mem mem
    have early := accepted_early second ((congrArg Prod.fst ran).trans answered)
    have bounds := late.trans_lt early
    rw [Int.cast_lt] at bounds
    have wider : call.check.tolerance < e.action.check.tolerance := by omega
    exact wider

/-- For every guard and every order of the calls: an envelope that is always checked with one
tolerance is accepted at most once, an envelope that is accepted again was checked with a
larger tolerance the second time, and a refusal for anything but a replay leaves the guard as
it was. -/
theorem accepted_once (hmac : ByteArray → ByteArray → String) (secret : ByteArray)
    (guard : ReplayGuard) (calls : List Call) (ordered : Ordered calls)
    (sameSecond : ∀ call ∈ calls, SameSecond call) :
    (∀ nonce issuedAt tolerance,
      (∀ e ∈ history (step hmac secret) guard calls,
        Accepts nonce issuedAt e → e.action.check.tolerance = tolerance) →
      (history (step hmac secret) guard calls).Pairwise (fun earlier later =>
        ¬ (Accepts nonce issuedAt earlier ∧ Accepts nonce issuedAt later))) ∧
    (∀ nonce issuedAt,
      (history (step hmac secret) guard calls).Pairwise (fun earlier later =>
        Accepts nonce issuedAt earlier → Accepts nonce issuedAt later →
          earlier.action.check.tolerance < later.action.check.tolerance)) ∧
    (∀ e ∈ history (step hmac secret) guard calls, ∀ error, e.answer = .error error →
      error ≠ valueError "replayed command" → e.after = e.before) := by
  refine ⟨?_, accepted_wider ordered sameSecond, ?_⟩
  · intro nonce issuedAt tolerance one
    apply List.Pairwise.imp_of_mem _ (accepted_wider ordered sameSecond nonce issuedAt)
    rintro earlier later before after wider ⟨first, second⟩
    have grows := wider first second
    have same := one earlier before first
    have same' := one later after second
    omega
  · intro e member error answered unreplayed
    have ran := step_of_mem member
    have kept := step_refused ((congrArg Prod.fst ran).trans answered) unreplayed
    rw [ran] at kept
    exact kept

end Runs

/-- A stand-in for HMAC-SHA256. -/
def bareDigest (_ bytes : ByteArray) : String := if bytes.size = 0 then "00" else "01"

/-- An envelope issued at 1000 seconds. -/
def rebootEnvelope : Envelope :=
  envelopeOf "c1" "d1" "reboot" [] 1000 "n1" ++ [("signature", .str "01")]

def rebootCall (seconds : Int) : Call :=
  ⟨.dict rebootEnvelope, ⟨some "d1", none, some seconds, 300⟩, seconds, seconds⟩

/-- The envelope is presented too late, too early, and then twice in its window. -/
def rebootCalls : List Call := [rebootCall 600, rebootCall 700, rebootCall 1300]

theorem rebootCalls_accepted_once :
    (history (step bareDigest ByteArray.empty) (.memory ⟨1, []⟩) rebootCalls).map
        (fun e => e.answer.toOption.map VerifiedCommand.commandId) = [none, some "c1", none] ∧
      (∀ e ∈ history (step bareDigest ByteArray.empty) (.memory ⟨1, []⟩) rebootCalls,
        ∀ error, e.answer = .error error → error ≠ valueError "replayed command" →
          e.after = e.before) := by
  refine ⟨by decide +kernel, ?_⟩
  exact (accepted_once bareDigest ByteArray.empty (.memory ⟨1, []⟩) rebootCalls
    (by unfold Ordered; decide +kernel) (by unfold SameSecond; decide +kernel)).2.2

end Meemee.Guarantees.CommandReplay
