import Meemee.Guarantees.SendPermission
import Meemee.Source.Destinations

/-!
# Challenges and grants over any run

Owners ask for challenges, consume them, revoke grants and ask whether a destination is
verified, in any order and at any clocks. `Effect` lists what a call that returns can do; a call
that is refused does nothing. A grant goes back to one challenge of its owner.
-/
namespace Meemee.Guarantees.DestinationControl
open Library Library.History Source Source.Checkins Source.Destinations Library.Txn Library.Table
open Guarantees.SendPermission (Granted grantsValid_iff)

inductive Call where
  | create (owner destination : String) (draw : ChallengeDraw) (clock : Instant)
  | consume (owner ident nonce grantId : String) (clock : Instant)
  | verify (owner channel destination : String) (clock : Instant)
  | revoke (owner grantId : String) (clock : Instant)

inductive Value where
  | challenge (row : ChallengeRow) (nonce : String)
  | grant (grant : DestinationGrant)
  | verified (answer : Bool)
  | revoked (any : Bool)

section System

variable (sha256 : String → String) (splits : String → Bool)

def step (s : DestinationStore) : Call → Except Exc Value × DestinationStore
  | .create owner destination draw clock =>
    Txn.answer (fun made => .challenge made.1 made.2)
      (createChallenge sha256 splits owner destination draw clock) s
  | .consume owner ident nonce grantId clock =>
    Txn.answer .grant (consumeChallenge sha256 owner ident nonce grantId clock) s
  | .verify owner channel destination clock =>
    Txn.answer .verified (destinationIsVerified owner channel destination clock) s
  | .revoke owner grantId clock => Txn.answer .revoked (revokeDestination owner grantId clock) s

end System

def challengeOf (sha256 : String → String) (owner destination : String) (draw : ChallengeDraw)
    (clock : Instant) : ChallengeRow :=
  ⟨draw.ident, owner, destination, sha256 draw.nonce, clock, clock + seconds 60, none⟩

def grantOf (challenge : ChallengeRow) (grantId : String) (clock : Instant) : DestinationGrant :=
  ⟨grantId, challenge.ownerId, challenge.destination, clock, clock + days 7, none⟩

/-- What a call that returns a value has done. -/
inductive Effect (sha256 : String → String) (s : DestinationStore) :
    Call → Value → DestinationStore → Prop where
  | created {owner destination : String} {draw : ChallengeDraw} {clock : Instant}
      (fresh : (pruned owner clock s.challenges).find draw.ident = none) :
      Effect sha256 s (.create owner destination draw clock)
        (.challenge (challengeOf sha256 owner destination draw clock) draw.nonce)
        { s with challenges := (pruned owner clock s.challenges).insert
                  (challengeOf sha256 owner destination draw clock) fresh }
  | granted {challenge : ChallengeRow} {nonce grantId : String} {clock : Instant}
      (stored : challenge ∈ s.challenges) (answered : challenge.answers sha256 nonce clock = true)
      (fresh : s.companion.destinationGrants.find grantId = none) :
      Effect sha256 s (.consume challenge.ownerId challenge.id nonce grantId clock)
        (.grant (grantOf challenge grantId clock))
        (DestinationStore.withGrants
          { s with challenges := s.challenges.update (fun r => decide (r.id = challenge.id))
                    (ChallengeRow.consume clock) (ChallengeRow.consume_id clock) }
          (s.companion.destinationGrants.insert (grantOf challenge grantId clock) fresh))
  | verified {owner channel destination : String} {clock : Instant} {answer : Bool}
      (exact : answer = true ↔ channel = "local" ∨
        channel = "webhook" ∧ Granted s.companion owner (some destination) clock) :
      Effect sha256 s (.verify owner channel destination clock) (.verified answer) s
  | unknown {owner grantId : String} {clock : Instant} :
      Effect sha256 s (.revoke owner grantId clock) (.revoked false) s
  | revoked {owner grantId : String} {clock : Instant} :
      Effect sha256 s (.revoke owner grantId clock) (.revoked true)
        (s.withGrants (s.companion.destinationGrants.update (fun g => decide (g.id = grantId))
          (revokeGrant clock) (revokeGrant_id clock)))

variable {clock : Instant} {owner nonce grantId : String}

variable {destination ident : String} {draw : ChallengeDraw} {grant g : DestinationGrant}

section Programs

variable {sha256 : String → String} {splits : String → Bool} {s t : DestinationStore}

theorem addTime_returned {added : Instant} {time : Int}
    (run : addTime clock time s = (.ok added, t)) : added = clock + time ∧ t = s := by
  obtain ⟨-, run⟩ := require_bind_returned run
  cases run
  exact ⟨rfl, rfl⟩

theorem createChallenge_returned {made : ChallengeRow × String}
    (run : createChallenge sha256 splits owner destination draw clock s = (.ok made, t)) :
    Effect sha256 s (.create owner destination draw clock) (.challenge made.1 made.2) t := by
  obtain ⟨-, run⟩ := require_bind_returned run
  obtain ⟨-, run⟩ := require_bind_returned run
  replace run := atomically_ok.mp run
  rw [run_bind_read] at run
  obtain ⟨expires, s', added, run⟩ := bind_returned run
  obtain ⟨rfl, rfl⟩ := addTime_returned added
  obtain ⟨-, run⟩ := require_bind_returned run
  obtain ⟨_, s'', cleaned, run⟩ := bind_returned run
  cases cleaned
  obtain ⟨-, run⟩ := require_bind_returned run
  obtain ⟨inserted, run⟩ := require_bind_returned run
  have fresh := fresh_of_inserted inserted
  cases run
  simp only [insertOrIgnore_fresh fresh]
  exact .created fresh

theorem consumeChallenge_returned
    (run : consumeChallenge sha256 owner ident nonce grantId clock s = (.ok grant, t)) :
    Effect sha256 s (.consume owner ident nonce grantId clock) (.grant grant) t := by
  replace run := atomically_ok.mp run
  obtain ⟨-, run⟩ := require_bind_returned run
  rw [run_bind_read] at run
  cases found : (s.challenges.find ident).filter (fun r => decide (r.ownerId = owner)) with
  | none =>
    rw [found] at run
    cases run
  | some challenge =>
    rw [found] at run
    obtain ⟨here, owned⟩ := Option.filter_eq_some_iff.mp found
    obtain ⟨stored, rfl⟩ := find_some_iff.mp here
    obtain rfl := of_decide_eq_true owned
    obtain ⟨answered, run⟩ := require_bind_returned run
    obtain ⟨_, s', consumed, run⟩ := bind_returned run
    cases consumed
    obtain ⟨expires, s'', added, run⟩ := bind_returned run
    obtain ⟨rfl, rfl⟩ := addTime_returned added
    obtain ⟨inserted, run⟩ := require_bind_returned run
    have fresh := fresh_of_inserted inserted
    cases run
    simp only [insertOrIgnore_fresh fresh]
    exact .granted stored answered fresh

theorem revokeDestination_returned {any : Bool}
    (run : revokeDestination owner grantId clock s = (.ok any, t)) :
    Effect sha256 s (.revoke owner grantId clock) (.revoked any) t := by
  replace run := atomically_ok.mp run
  rw [run_bind_read] at run
  cases found : (s.companion.destinationGrants.find grantId).filter (ownGrant owner grantId) with
  | none =>
    rw [found] at run
    cases run
    exact .unknown
  | some grant =>
    rw [found] at run
    cases run
    exact .revoked

theorem createChallenge_clean :
    Txn.RaisesClean (createChallenge sha256 splits owner destination draw clock) :=
  raisesClean_require_bind (raisesClean_require_bind (raisesClean_atomically _))

/-- A call that is refused changes nothing, and a call that returns has its effect. -/
theorem step_cases (sha256 : String → String) (splits : String → Bool) (s : DestinationStore)
    (call : Call) :
    ((∃ e, (step sha256 splits s call).1 = .error e) ∧ (step sha256 splits s call).2 = s) ∨
      ∃ value, (step sha256 splits s call).1 = .ok value ∧
        Effect sha256 s call value (step sha256 splits s call).2 := by
  rcases ran : step sha256 splits s call with ⟨answer, t⟩
  cases answer with
  | error e =>
    refine .inl ⟨⟨e, rfl⟩, ?_⟩
    cases call with
    | create owner destination draw clock =>
      exact createChallenge_clean s e t (answer_error ran)
    | consume owner ident nonce grantId clock => exact atomically_error (answer_error ran)
    | verify owner channel destination clock => cases ran
    | revoke owner grantId clock =>
      have raised : revokeDestination owner grantId clock s = (.error e, t) := answer_error ran
      exact atomically_error raised
  | ok value =>
    refine .inr ⟨value, rfl, ?_⟩
    cases call with
    | create owner destination draw clock =>
      obtain ⟨made, run, rfl⟩ := answer_ok ran
      exact createChallenge_returned run
    | consume owner ident nonce grantId clock =>
      obtain ⟨grant, run, rfl⟩ := answer_ok ran
      exact consumeChallenge_returned run
    | verify owner channel destination clock =>
      cases ran
      exact .verified grantsValid_iff
    | revoke owner grantId clock =>
      have answered : Txn.answer Value.revoked (revokeDestination owner grantId clock) s =
        (.ok value, t) := ran
      obtain ⟨any, run, rfl⟩ := answer_ok answered
      exact revokeDestination_returned run

end Programs

/-- A grant keeps what it was given; only its revocation is written, and it stays revoked. -/
structure SameGrant (g g' : DestinationGrant) : Prop where
  id : g'.id = g.id
  ownerId : g'.ownerId = g.ownerId
  destination : g'.destination = g.destination
  issuedAt : g'.issuedAt = g.issuedAt
  expiresAt : g'.expiresAt = g.expiresAt
  revoked : g.revokedAt ≠ none → g'.revokedAt ≠ none

def Later (s t : DestinationStore) : Prop :=
  ∀ g ∈ s.companion.destinationGrants, ∃ g' ∈ t.companion.destinationGrants, SameGrant g g'

theorem SameGrant.refl (g : DestinationGrant) : SameGrant g g := ⟨rfl, rfl, rfl, rfl, rfl, fun h => h⟩

theorem SameGrant.trans {g' g'' : DestinationGrant} (first : SameGrant g g')
    (second : SameGrant g' g'') : SameGrant g g'' where
  id := second.id.trans first.id
  ownerId := second.ownerId.trans first.ownerId
  destination := second.destination.trans first.destination
  issuedAt := second.issuedAt.trans first.issuedAt
  expiresAt := second.expiresAt.trans first.expiresAt
  revoked before := second.revoked (first.revoked before)

theorem same_revoked (grantId : String) (clock : Instant) (g : DestinationGrant) :
    SameGrant g (if decide (g.id = grantId) then revokeGrant clock g else g) := by
  split
  · exact ⟨rfl, rfl, rfl, rfl, rfl, fun _ => Option.some_ne_none clock⟩
  · exact SameGrant.refl g

theorem later_refl (s : DestinationStore) : Later s s := fun g mem => ⟨g, mem, SameGrant.refl g⟩

theorem later_trans (s t u : DestinationStore) (first : Later s t) (second : Later t u) :
    Later s u := by
  intro g mem
  obtain ⟨g', member', same⟩ := first g mem
  obtain ⟨g'', member'', same'⟩ := second g' member'
  exact ⟨g'', member'', same.trans same'⟩

section Steps

variable {sha256 : String → String} {splits : String → Bool} {s t : DestinationStore} {call : Call}
  {value : Value}

theorem later_of_effect (effect : Effect sha256 s call value t) : Later s t := by
  cases effect with
  | created => exact later_refl s
  | granted _ _ fresh =>
    intro g mem
    exact ⟨g, (mem_insert fresh).mpr (.inl mem), SameGrant.refl g⟩
  | verified => exact later_refl s
  | unknown => exact later_refl s
  | @revoked _ grantId clock =>
    intro g mem
    exact ⟨_, updated_mem _ (revokeGrant_id clock) mem, same_revoked grantId clock g⟩

theorem later_step (s : DestinationStore) (call : Call) : Later s (step sha256 splits s call).2 := by
  rcases step_cases sha256 splits s call with ⟨-, same⟩ | ⟨value, -, effect⟩
  · rw [same]
    exact later_refl s
  · exact later_of_effect effect

end Steps

abbrev ControlEvent := Event DestinationStore Call (Except Exc Value)

def Returned (e : ControlEvent) : Prop := ∃ value, e.answer = .ok value

/-- Two nonces that SHA-256 does not tell apart. -/
def Collide (sha256 : String → String) (nonce other : String) : Prop :=
  nonce ≠ other ∧ sha256 nonce = sha256 other

/-- `e` consumed the challenge `created` issued: its owner, nonce, minute and destination. -/
def Redeems (sha256 : String → String) (created e : ControlEvent) (grant : DestinationGrant) : Prop :=
  ∃ draw issued nonce,
    (created.action = .create grant.ownerId grant.destination draw issued ∧ Returned created) ∧
    (e.action = .consume grant.ownerId draw.ident nonce grant.id grant.issuedAt ∧ Returned e) ∧
    (nonce = draw.nonce ∨ Collide sha256 nonce draw.nonce) ∧
    (issued ≤ grant.issuedAt ∧ grant.issuedAt < issued + seconds 60) ∧
    grant.expiresAt = grant.issuedAt + days 7 ∧ grant.revokedAt = none ∧
    grant ∈ e.after.companion.destinationGrants

/-- The event consumes the challenge. -/
def Consumes (ident : String) (e : ControlEvent) : Prop :=
  Returned e ∧ ∃ owner nonce grantId clock, e.action = .consume owner ident nonce grantId clock

/-- The event issues a challenge under this id. -/
def Issues (ident : String) (e : ControlEvent) : Prop :=
  Returned e ∧ ∃ owner destination draw clock,
    e.action = .create owner destination draw clock ∧ draw.ident = ident

/-- The challenge of a row was issued by one of these events. -/
def IssuedBy (sha256 : String → String) (events : List ControlEvent) (r : ChallengeRow) : Prop :=
  ∃ created ∈ events, Returned created ∧ ∃ draw,
    created.action = .create r.ownerId r.destination draw r.createdAt ∧ r.id = draw.ident ∧
      r.nonceSha256 = sha256 draw.nonce ∧ r.expiresAt = r.createdAt + seconds 60

/-- The grant of a row was made by one of these events, after its challenge was issued. -/
def GrantedBy (sha256 : String → String) (events : List ControlEvent) (g : DestinationGrant) : Prop :=
  ∃ pre e post, events = pre ++ e :: post ∧ ∃ created ∈ pre, ∃ grant,
    Redeems sha256 created e grant ∧ SameGrant grant g

structure Traced (sha256 : String → String) (events : List ControlEvent) (s : DestinationStore) :
    Prop where
  challenges : ∀ r ∈ s.challenges, IssuedBy sha256 events r
  grants : ∀ g ∈ s.companion.destinationGrants, GrantedBy sha256 events g

section Origins

variable {sha256 : String → String} {splits : String → Bool} {events : List ControlEvent}
  {s t : DestinationStore} {call : Call} {value : Value}

theorem IssuedBy.append {r : ChallengeRow} (issued : IssuedBy sha256 events r)
    (later : List ControlEvent) : IssuedBy sha256 (events ++ later) r := by
  obtain ⟨e, mem, rest⟩ := issued
  exact ⟨e, List.mem_append_left _ mem, rest⟩

theorem GrantedBy.append (granted : GrantedBy sha256 events g) (later : List ControlEvent) :
    GrantedBy sha256 (events ++ later) g := by
  obtain ⟨pre, e, post, rfl, rest⟩ := granted
  exact ⟨pre, e, post ++ later, by simp, rest⟩

theorem Traced.append (traced : Traced sha256 events s) (later : List ControlEvent) :
    Traced sha256 (events ++ later) s :=
  ⟨fun r mem => (traced.challenges r mem).append later,
    fun g mem => (traced.grants g mem).append later⟩

theorem redeems_of_granted (traced : Traced sha256 events s)
    (effect : Effect sha256 s (.consume owner ident nonce grantId clock) (.grant grant) t) :
    ∃ created ∈ events, Redeems sha256 created
      ⟨s, .consume owner ident nonce grantId clock, .ok (.grant grant), t⟩ grant := by
  cases effect with
  | @granted challenge _ _ _ stored answered fresh =>
    obtain ⟨created, mem, returned, draw, acted, named, hashed, expires⟩ :=
      traced.challenges challenge stored
    simp only [ChallengeRow.answers, Bool.and_eq_true, decide_eq_true_eq] at answered
    obtain ⟨⟨⟨-, within⟩, -⟩, same⟩ := answered
    rw [expires] at within
    refine ⟨created, mem, draw, challenge.createdAt, nonce, ⟨acted, returned⟩,
      ⟨by rw [named]; rfl, _, rfl⟩, ?_, within, rfl, rfl, (mem_insert fresh).mpr (.inr rfl)⟩
    by_cases equal : nonce = draw.nonce
    · exact .inl equal
    · exact .inr ⟨equal, same.trans hashed⟩

theorem traced_effect (traced : Traced sha256 events s) (effect : Effect sha256 s call value t) :
    Traced sha256 (events ++ [⟨s, call, .ok value, t⟩]) t := by
  have before := traced.append [⟨s, call, .ok value, t⟩]
  cases whole : effect with
  | created fresh =>
    refine ⟨?_, before.grants⟩
    intro r mem
    rcases (mem_insert fresh).mp mem with here | rfl
    · exact before.challenges r (mem_delete.mp here).1
    · exact ⟨_, List.mem_append_right _ (List.mem_singleton_self _), ⟨_, rfl⟩, _, rfl, rfl, rfl, rfl⟩
  | @granted challenge _ _ clock stored answered fresh =>
    obtain ⟨created, mem, redeems⟩ := redeems_of_granted traced effect
    constructor
    · intro r there
      obtain ⟨r₀, here, rfl⟩ := origin_of_updated (ChallengeRow.consume_id clock) there
      have issued := before.challenges r₀ here
      split
      · exact issued
      · exact issued
    · intro g there
      rcases (mem_insert fresh).mp there with here | rfl
      · exact before.grants g here
      · exact ⟨events, _, [], rfl, created, mem, _, redeems, SameGrant.refl _⟩
  | verified => exact before
  | unknown => exact before
  | @revoked _ grantId clock =>
    refine ⟨before.challenges, ?_⟩
    intro g there
    obtain ⟨g₀, here, rfl⟩ := origin_of_updated (revokeGrant_id clock) there
    obtain ⟨pre, e, post, split, created, mem, grant, redeems, same⟩ := before.grants g₀ here
    exact ⟨pre, e, post, split, created, mem, grant, redeems,
      same.trans (same_revoked grantId clock g₀)⟩

theorem traced_step (events : List ControlEvent) (s : DestinationStore) (call : Call)
    (traced : Traced sha256 events s) :
    Traced sha256 (events ++ [⟨s, call, (step sha256 splits s call).1, (step sha256 splits s call).2⟩])
      (step sha256 splits s call).2 := by
  rcases step_cases sha256 splits s call with ⟨-, same⟩ | ⟨value, answered, effect⟩
  · rw [same]
    exact traced.append _
  · rw [answered]
    exact traced_effect traced effect

end Origins

/-- The users are known, and nothing was asked for yet. -/
def opened (users : Table UserProfile.userId) : DestinationStore :=
  ⟨{ CompanionStore.empty with users := users }, Table.empty⟩

theorem traced_opened (sha256 : String → String) (users : Table UserProfile.userId) :
    Traced sha256 [] (opened users) :=
  ⟨fun _ mem => absurd mem List.not_mem_nil, fun _ mem => absurd mem List.not_mem_nil⟩

/-- No challenge under this id is open. -/
def Spent (ident : String) (s : DestinationStore) : Prop :=
  ∀ r ∈ s.challenges, r.id = ident → r.consumedAt ≠ none

section Once

variable {sha256 : String → String} {splits : String → Bool} {s t : DestinationStore} {call : Call}
  {value : Value} {ident : String}

theorem spent_effect (spent : Spent ident s) (effect : Effect sha256 s call value t) :
    Spent ident t ∨ ∃ owner destination draw clock,
      call = .create owner destination draw clock ∧ draw.ident = ident := by
  cases effect with
  | @created owner destination draw clock fresh =>
    by_cases drawn : draw.ident = ident
    · exact .inr ⟨owner, destination, draw, clock, rfl, drawn⟩
    · refine .inl ?_
      intro r mem named
      rcases (mem_insert fresh).mp mem with here | rfl
      · exact spent r (mem_delete.mp here).1 named
      · exact absurd named drawn
  | @granted _ _ _ clock _ _ fresh =>
    refine .inl ?_
    intro r there named
    obtain ⟨r₀, here, rfl⟩ := origin_of_updated (ChallengeRow.consume_id clock) there
    split
    · exact Option.some_ne_none clock
    next other =>
      rw [if_neg other] at named
      exact spent r₀ here named
  | verified | unknown | revoked => exact .inl spent

theorem consumed_effect
    (effect : Effect sha256 s (.consume owner ident nonce grantId clock) value t) :
    ¬ Spent ident s ∧ Spent ident t := by
  cases effect with
  | @granted challenge _ _ _ stored answered fresh =>
    simp only [ChallengeRow.answers, Bool.and_eq_true, Option.isNone_iff_eq_none] at answered
    constructor
    · intro spent
      exact spent challenge stored rfl answered.1.1.1
    · intro r there named
      obtain ⟨r₀, here, rfl⟩ := origin_of_updated (ChallengeRow.consume_id clock) there
      split
      · exact Option.some_ne_none clock
      next other =>
        rw [if_neg other] at named
        exact absurd (decide_eq_true named) other

theorem consumes_cases {e : ControlEvent} (ran : step sha256 splits e.before e.action = (e.answer, e.after))
    (consumes : Consumes ident e) : ¬ Spent ident e.before ∧ Spent ident e.after := by
  obtain ⟨⟨value, answered⟩, owner, nonce, grantId, clock, acted⟩ := consumes
  rcases step_cases sha256 splits e.before e.action with ⟨⟨error, raised⟩, -⟩ | ⟨value', -, effect⟩
  · rw [ran, answered] at raised
    cases raised
  · rw [ran, acted] at effect
    exact consumed_effect effect

theorem spent_step (s : DestinationStore) (call : Call) (spent : Spent ident s) :
    Spent ident (step sha256 splits s call).2 ∨
      Issues ident ⟨s, call, (step sha256 splits s call).1, (step sha256 splits s call).2⟩ := by
  rcases step_cases sha256 splits s call with ⟨-, same⟩ | ⟨value, answered, effect⟩
  · rw [same]
    exact .inl spent
  · rcases spent_effect spent effect with kept | drawn
    · exact .inl kept
    · exact .inr ⟨⟨value, answered⟩, drawn⟩

end Once

/-- In every order of the calls: a challenge that was consumed is not consumed again before its
id is issued anew; a consumption redeems a challenge that was issued before it to the same owner,
and no grant comes from anything else; a destination is verified exactly when it is granted; a
grant keeps its owner, its destination and its times, and stays revoked; and a call that is
refused, or finds no grant to revoke, changes nothing. -/
theorem control_upheld (sha256 : String → String) (splits : String → Bool)
    (users : Table UserProfile.userId) (calls : List Call) :
    (∀ ident pre e₁ mid e₂ post,
      history (step sha256 splits) (opened users) calls = pre ++ e₁ :: (mid ++ e₂ :: post) →
        Consumes ident e₁ → Consumes ident e₂ → ∃ e ∈ mid, Issues ident e) ∧
    (∀ pre e post, history (step sha256 splits) (opened users) calls = pre ++ e :: post →
      ∀ owner ident nonce grantId clock, e.action = .consume owner ident nonce grantId clock →
        Returned e → ∃ created ∈ pre, ∃ grant, e.answer = .ok (.grant grant) ∧
          Redeems sha256 created e grant) ∧
    (∀ g ∈ (final (step sha256 splits) (opened users) calls).companion.destinationGrants,
      GrantedBy sha256 (history (step sha256 splits) (opened users) calls) g) ∧
    (∀ e ∈ history (step sha256 splits) (opened users) calls, ∀ owner destination clock,
      e.action = .verify owner "webhook" destination clock → ∃ answer,
        e.answer = .ok (.verified answer) ∧ e.after = e.before ∧
          (answer = true ↔ Granted e.before.companion owner (some destination) clock)) ∧
    (∀ first second, calls = first ++ second →
      Later (final (step sha256 splits) (opened users) first)
        (final (step sha256 splits) (opened users) calls)) ∧
    (∀ e ∈ history (step sha256 splits) (opened users) calls,
      (∃ error, e.answer = .error error) ∨ e.answer = .ok (.revoked false) → e.after = e.before) := by
  refine ⟨?_, ?_, ?_, ?_, ?_, ?_⟩
  · intro ident pre e₁ mid e₂ post split first second
    have ran := fun e member => @step_of_mem _ _ _ (step sha256 splits) (opened users) calls e member
    rw [split] at ran
    have spent := (consumes_cases (ran e₁ (by simp)) first).2
    rcases holds_between spent_step split spent with kept | issued
    · exact absurd kept (consumes_cases (ran e₂ (by simp)) second).1
    · exact issued
  · intro pre e post split owner ident nonce grantId clock acted returned
    have traced := @traced_before _ _ _ (step sha256 splits) (Traced sha256) traced_step _
      (traced_opened sha256 users) _ _ _ _ split
    have ran := fun e member => @step_of_mem _ _ _ (step sha256 splits) (opened users) calls e member
    rw [split] at ran
    have here := ran e (by simp)
    rcases e with ⟨before, call, answer, after⟩
    obtain rfl : call = _ := acted
    obtain ⟨value, rfl⟩ : ∃ value, answer = .ok value := returned
    rcases step_cases sha256 splits before (.consume owner ident nonce grantId clock) with
      ⟨⟨error, raised⟩, -⟩ | ⟨value', answered, effect⟩
    · rw [here] at raised
      cases raised
    · rw [here] at answered effect
      cases answered
      cases whole : effect with
      | granted =>
        obtain ⟨created, member, redeems⟩ := redeems_of_granted traced effect
        exact ⟨created, member, _, rfl, redeems⟩
  · have run := @traced _ _ _ (step sha256 splits) (Traced sha256) traced_step [] (opened users)
      (traced_opened sha256 users) calls
    exact run.grants
  · intro e member owner destination clock acted
    have ran := step_of_mem member
    rcases e with ⟨before, call, answer, after⟩
    obtain rfl : call = _ := acted
    obtain ⟨answered, same⟩ := Prod.mk.inj ran
    refine ⟨_, answered.symm, same.symm, ?_⟩
    have told : destinationGrantsValid "webhook"
        (destinationGrantsLocked owner "webhook" (some destination) before.companion) clock = true ↔ _ :=
      grantsValid_iff
    simpa using told
  · rintro first second rfl
    rw [final_append]
    exact relates later_refl later_trans later_step _ second
  · rintro ⟨before, call, answer, after⟩ member refused
    have ran : step sha256 splits before call = (answer, after) := step_of_mem member
    change (∃ error, answer = .error error) ∨ answer = .ok (.revoked false) at refused
    rcases step_cases sha256 splits before call with ⟨-, same⟩ | ⟨value, answered, effect⟩
    · rw [ran] at same
      exact same
    · rw [ran] at answered effect
      rcases refused with ⟨error, raised⟩ | unknown
      · rw [raised] at answered
        cases answered
      · rw [unknown] at answered
        cases answered
        cases whole : effect with
        | unknown => rfl

end Meemee.Guarantees.DestinationControl
