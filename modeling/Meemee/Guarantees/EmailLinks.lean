import Meemee.Library.OneTime
import Meemee.Source.EmailVerification

/-!
# Email links are accepted once

Both stores make the marks of one-time secrets: a place is an account and a purpose, an issue is a call
that returns its token, an acceptance one that returns True, at the reading of the clock that found the
row live.
-/
namespace Meemee.Guarantees.EmailLinks
open Library Library.History Library.OneTime Source Source.EmailVerification Function Option List

abbrev LinkMark := Mark Place String Instant

def placeOf : Call → Place
  | .issue accountId _ _ | .verify accountId _ => (.verify, accountId)
  | .issuePasswordReset accountId _ _ | .consumePasswordReset accountId _ => (.reset, accountId)

/-- The slots of the rows. -/
def slotsOf (rows : Challenges) : Slots Place String Instant :=
  fun k => (rows.find k).map (fun row => ⟨row.tokenDigest, row.expiresAt, row.usedAt.isSome⟩)

theorem slotsOf_replace (rows : Challenges) (row : Challenge) : slotsOf (rows.replace row) =
    Function.update (slotsOf rows) row.place
      (some ⟨row.tokenDigest, row.expiresAt, row.usedAt.isSome⟩) := by
  funext k
  simp only [slotsOf, Table.find_replace]
  by_cases here : row.place = k
  · subst here
    rw [if_pos rfl, update_self, map_some]
  · rw [if_neg here, update_of_ne (fun same => here same.symm)]
    rfl

/-- The tokens are told apart by their digests. -/
def Apart (sha256 : String → String) (tokens : List String) : Prop :=
  ∀ a ∈ tokens, ∀ b ∈ tokens, sha256 a = sha256 b → a = b

variable {purpose : Purpose} {accountId raw t : String} {row : Challenge} {mark : LinkMark}
  {sha256 : String → String} {rows : RowVersions Challenge.place} {call : Option Call}

section Sqlite

variable {sha256 : String → String} {s : Challenges}

abbrev CallEvent := Event Challenges (Call × Instant) (Except Exc SQLite.Reply)

/-- What a call made: an issue with its deadline, or an acceptance. -/
def callMark (e : CallEvent) : Option LinkMark :=
  match e.answer with
  | .ok (.token raw) =>
    (e.after.find (placeOf e.action.1)).map (fun row => .issued (placeOf e.action.1) raw row.expiresAt)
  | .ok (.consumed true) => some (.accepted (placeOf e.action.1) e.action.1.raw e.action.2)
  | _ => none

/-- What a call comes to. -/
inductive Comes (sha256 : String → String) (s : Challenges) (call : Call) (now : Instant) :
    Except Exc SQLite.Reply × Challenges → Prop where
  | raised {e : Exc} : Comes sha256 s call now (.error e, s)
  | refused : Comes sha256 s call now (.ok (.consumed false), s)
  | issued {row : Challenge} : call.drawn = some call.raw → row.place = placeOf call →
      row.tokenDigest = sha256 call.raw → row.usedAt = none →
      Comes sha256 s call now (.ok (.token call.raw), s.replace row)
  | accepted {row : Challenge} : call.drawn = none → s.find (placeOf call) = some row →
      row.usedAt = none → row.tokenDigest = sha256 call.raw → now < row.expiresAt →
      Comes sha256 s call now (.ok (.consumed true), s.update
        (fun r => decide (r.place = placeOf call)) (used now) (used_place now))

theorem issue_comes {call : Call} {ttlMinutes : Int} {now : Instant} (drawn : call.drawn = some raw)
    (said : call.raw = raw) (there : placeOf call = (purpose, accountId)) :
    Comes sha256 s call now (SQLite.issueChallenge sha256 s purpose accountId ttlMinutes raw now) := by
  subst said
  unfold SQLite.issueChallenge
  split
  next => exact .raised
  next => exact .issued drawn there.symm rfl rfl

theorem consume_comes {call : Call} {now : Instant} (drawn : call.drawn = none)
    (said : call.raw = raw) (there : placeOf call = (purpose, accountId)) :
    Comes sha256 s call now (SQLite.consumeChallenge sha256 s purpose accountId raw now) := by
  subst said
  unfold SQLite.consumeChallenge
  split
  next => exact .refused
  next row found =>
    split
    next taken =>
      simp only [SQLite.takes, Bool.not_eq_true', Bool.or_eq_false_iff, decide_eq_false_iff_not] at taken
      obtain ⟨⟨unused, early⟩, same⟩ := taken
      rw [← there] at found ⊢
      exact .accepted drawn found (by simpa using unused) (by simpa using same)
        (Int.not_le.mp early)
    next => exact .refused

theorem call_comes (call : Call) (now : Instant) :
    Comes sha256 s call now (SQLite.step sha256 s (call, now)) := by
  cases call with
  | issue | issuePasswordReset => exact issue_comes rfl rfl rfl
  | verify | consumePasswordReset => exact consume_comes rfl rfl rfl

theorem slotsOf_used (found : s.find row.place = some row) (now : Instant) :
    slotsOf (s.update (fun r => decide (r.place = row.place)) (used now) (used_place now)) =
      Function.update (slotsOf s) row.place (some ⟨row.tokenDigest, row.expiresAt, true⟩) := by
  funext k
  simp only [slotsOf, s.find_update_key row.place (used now) (used_place now) k]
  by_cases here : k = row.place
  · subst here
    rw [if_pos rfl, update_self, found]
    rfl
  · rw [if_neg here, update_of_ne here]
    rfl

theorem call_quiet (call : Call) (now : Instant)
    (quiet : callMark ⟨s, (call, now), (SQLite.step sha256 s (call, now)).1,
      (SQLite.step sha256 s (call, now)).2⟩ = none) : (SQLite.step sha256 s (call, now)).2 = s := by
  have comes := @call_comes sha256 s call now
  generalize SQLite.step sha256 s (call, now) = result at comes quiet ⊢
  cases comes with
  | raised | refused => rfl
  | issued _ there =>
    simp only [callMark, ← there, Table.find_replace] at quiet
    cases quiet
  | accepted => cases quiet

theorem call_follows (call : Call) (now : Instant)
    (made : callMark ⟨s, (call, now), (SQLite.step sha256 s (call, now)).1,
      (SQLite.step sha256 s (call, now)).2⟩ = some mark) :
    Follows sha256 (slotsOf s) mark (slotsOf (SQLite.step sha256 s (call, now)).2) := by
  have comes := @call_comes sha256 s call now
  generalize SQLite.step sha256 s (call, now) = result at comes made ⊢
  cases comes with
  | raised | refused => cases made
  | @issued row _ there digest unused =>
    simp only [callMark, ← there, Table.find_replace] at made
    cases made
    rw [slotsOf_replace, digest, unused]
    exact .issued
  | @accepted row _ found unused digest early =>
    cases made
    obtain there := Table.key_of_find found
    rw [← there] at found ⊢
    rw [slotsOf_used found]
    have slot : slotsOf s row.place = some ⟨row.tokenDigest, row.expiresAt, row.usedAt.isSome⟩ := by
      rw [slotsOf, found]
      rfl
    exact .accepted slot (by rw [unused]; rfl) digest early

/-- The secret of a mark is the token of the call, and drawn by it when the mark issues it. -/
theorem callMark_raw (call : Call) (now : Instant)
    (made : callMark ⟨s, (call, now), (SQLite.step sha256 s (call, now)).1,
      (SQLite.step sha256 s (call, now)).2⟩ = some mark) :
    mark.secret = call.raw ∧ (mark.issue = none ∨ mark.issue = call.drawn) := by
  have comes := @call_comes sha256 s call now
  generalize SQLite.step sha256 s (call, now) = result at comes made
  cases comes with
  | raised | refused => cases made
  | issued drawn there =>
    simp only [callMark, ← there, Table.find_replace] at made
    cases made
    exact ⟨rfl, .inr drawn.symm⟩
  | accepted =>
    cases made
    exact ⟨rfl, .inl rfl⟩

/-- The marks of a run of calls. -/
def callMarks (sha256 : String → String) (calls : List (Call × Instant)) : List LinkMark :=
  (history (SQLite.step sha256) Table.empty calls).filterMap callMark

theorem sqlite_rightful {calls : List (Call × Instant)}
    (fresh : (calls.filterMap (fun asked => asked.1.drawn)).Nodup)
    (apart : Apart sha256 (calls.map (fun asked => asked.1.raw))) :
    Rightful (callMarks sha256 calls) := by
  have marked := @marked_history Place String String Instant _ _ sha256 _ _ _ (SQLite.step sha256)
    slotsOf callMark (fun _ => True) (fun _ _ _ => trivial)
    (fun s a _ quiet => congrArg slotsOf (call_quiet a.1 a.2 quiet))
    (fun s a m _ made => call_follows a.1 a.2 made) Table.empty trivial
    (by funext k; rfl) calls
  have made : ∀ e ∈ history (SQLite.step sha256) Table.empty calls, ∀ mark, callMark e = some mark →
      mark.secret = e.action.1.raw ∧ (mark.issue = none ∨ mark.issue = e.action.1.drawn) := by
    intro e mem mark here
    have step := step_of_mem mem
    obtain ⟨before, ⟨call, now⟩, answer, after⟩ := e
    rw [show answer = (SQLite.step sha256 before (call, now)).1 by rw [step],
      show after = (SQLite.step sha256 before (call, now)).2 by rw [step]] at here
    exact callMark_raw call now here
  refine marked_rightful marked ?_ ?_
  · rw [← filterMap_actions (fun asked : Call × Instant => asked.1.drawn) Table.empty calls] at fresh
    rw [Distinct, callMarks, filterMap_filterMap]
    refine fresh.sublist (filterMap_sublist (fun e mem => ?_))
    cases here : callMark e with
    | none => exact .inl rfl
    | some mark => exact (made e mem mark here).2
  · have said : ∀ mark ∈ callMarks sha256 calls, mark.secret ∈ calls.map (fun asked => asked.1.raw) := by
      intro mark mem
      obtain ⟨e, there, here⟩ := mem_filterMap.mp mem
      rw [(made e there mark here).1]
      exact mem_map_of_mem (action_of_mem there)
    exact fun a first b second => apart _ (said a first) _ (said b second)

end Sqlite

section Postgresql

open Postgres RowVersions

variable {server : Server} {d : Deployment} {i j : Nat}

abbrev StepEvent := Event Deployment Action Answer

def actor : Action → Nat
  | .begin i _ | .go i _ | .abort i => i

/-- What a step made: the call of its session returned its token, or True. -/
def stepMark (e : StepEvent) : Option LinkMark :=
  match e.answer, e.before.sessions (actor e.action) with
  | .token _, .issued raw row => some (.issued row.place raw row.expiresAt)
  | .consumed true, .taken raw row asked => some (.accepted row.place raw asked)
  | _, _ => none

/-- The committed row that a session found, unused and live. -/
structure Live (sha256 : String → String) (rows : RowVersions Challenge.place) (raw : String)
    (row : Challenge) (asked : Instant) : Prop where
  there : rows.committed.find row.place = some row
  unused : row.usedAt = none
  digest : row.tokenDigest = sha256 raw
  early : asked < row.expiresAt

/-- The transaction has written this row and no other. -/
def Wrote (rows : RowVersions Challenge.place) (i : Nat) (row : Challenge) : Prop :=
  ∀ k, (rows.writes i).find k = if row.place = k then some row else none

def Clean (rows : RowVersions Challenge.place) (i : Nat) : Prop := ∀ k, (rows.writes i).find k = none

/-- What a session relies on. -/
def Fits (sha256 : String → String) (rows : RowVersions Challenge.place) (i : Nat) : Session → Prop
  | .issued raw row => Wrote rows i row ∧ row.tokenDigest = sha256 raw ∧ row.usedAt = none
  | .taking raw row asked =>
    Clean rows i ∧ rows.locks row.place = some i ∧ Live sha256 rows raw row asked
  | .taken raw row asked => (∃ now, Wrote rows i (used now row)) ∧ Live sha256 rows raw row asked
  | _ => Clean rows i

structure Sound (sha256 : String → String) (d : Deployment) : Prop where
  locked : Locked d.rows
  fits : ∀ i, Fits sha256 d.rows i (d.sessions i)

theorem wrote_held {rows : RowVersions Challenge.place} {row : Challenge} (locked : Locked rows)
    (wrote : Wrote rows i row) : rows.locks row.place = some i :=
  locked i row.place row (by rw [wrote, if_pos rfl])

theorem fits_other {rows' : RowVersions Challenge.place} {session : Session} (locked : Locked rows)
    (acts : Acts rows i rows') (other : j ≠ i) (fits : Fits sha256 rows j session) :
    Fits sha256 rows' j session := by
  have writes := acts_writes acts other
  have clean : Clean rows j → Clean rows' j := fun clean k => by rw [writes, clean]
  have wrote : ∀ {row}, Wrote rows j row → Wrote rows' j row := fun wrote k => by rw [writes, wrote]
  have live : ∀ {raw row asked}, rows.locks row.place = some j → Live sha256 rows raw row asked →
      Live sha256 rows' raw row asked := fun held live =>
    ⟨by rw [acts_committed acts locked other held, live.there], live.unused, live.digest, live.early⟩
  cases session with
  | idle | issuing | looking | refusing => exact clean fits
  | issued raw row => exact ⟨wrote fits.1, fits.2⟩
  | taking raw row asked =>
    obtain ⟨none, held, found⟩ := fits
    exact ⟨clean none, acts_locks acts other held, live held found⟩
  | taken raw row asked =>
    obtain ⟨⟨now, written⟩, found⟩ := fits
    have held : rows.locks row.place = some j := @wrote_held j rows (used now row) locked written
    exact ⟨⟨now, wrote written⟩, live held found⟩

/-- The token a session is to return. -/
def tokenOf : Session → Option String
  | .issuing _ _ _ raw | .issued raw _ => some raw
  | _ => none

/-- The token a session was called with. -/
def rawOf : Session → Option String
  | .idle => none
  | .issuing _ _ _ raw | .issued raw _ | .looking _ _ raw | .taking raw _ _ | .taken raw _ _
  | .refusing raw => some raw

/-- The tokens of a session are the ones it had, or those of the call it begins. -/
def Descends (call : Option Call) (before after : Session) : Prop :=
  (tokenOf after = none ∨ tokenOf after = tokenOf before ∨ tokenOf after = call.bind Call.drawn) ∧
    (rawOf after = none ∨ rawOf after = rawOf before ∨ rawOf after = call.map Call.raw)

/-- An action of session `i`: what it does to the rows, and what its session relies on after. -/
structure Moves (sha256 : String → String) (call : Option Call) (d : Deployment) (i : Nat)
    (d' : Deployment) : Prop where
  acts : Acts d.rows i d'.rows
  others : ∀ j, j ≠ i → d'.sessions j = d.sessions j
  fits : Fits sha256 d'.rows i (d'.sessions i)
  descends : Descends call (d.sessions i) (d'.sessions i)

/-- The call of the session has not returned. -/
def Underway : Answer → Prop
  | .token _ | .consumed _ => False
  | _ => True

/-- An action of session `i`, by what it answers. -/
inductive Goes (sha256 : String → String) (call : Option Call) (d : Deployment) (i : Nat) :
    Answer × Deployment → Prop where
  | underway {answer : Answer} {d' : Deployment} : Moves sha256 call d i d' →
      d'.rows.committed = d.rows.committed → Underway answer → Goes sha256 call d i (answer, d')
  | token {raw : String} {row : Challenge} : d.sessions i = .issued raw row →
      Goes sha256 call d i (.token raw, d.commit i)
  | accepted {raw : String} {row : Challenge} {asked : Instant} :
      d.sessions i = .taken raw row asked → Goes sha256 call d i (.consumed true, d.commit i)
  | refused {raw : String} : d.sessions i = .refusing raw →
      Goes sha256 call d i (.consumed false, d.commit i)

theorem clean_rollback (rows : RowVersions Challenge.place) (i : Nat) : Clean (rows.rollback i) i :=
  fun k => by rw [find_writes_rollback, if_pos rfl]

theorem moves_commit (sha256 : String → String) (call : Option Call) (d : Deployment) (i : Nat) :
    Moves sha256 call d i (d.commit i) where
  acts := .commit
  others := fun _ other => update_of_ne other ..
  fits := by
    have idle : (d.commit i).sessions i = .idle := update_self ..
    rw [idle]
    exact clean_rollback d.rows i
  descends := by
    have idle : (d.commit i).sessions i = .idle := update_self ..
    rw [idle]
    exact ⟨.inl rfl, .inl rfl⟩

theorem moves_rollback (sha256 : String → String) (call : Option Call) (d : Deployment) (i : Nat) :
    Moves sha256 call d i (d.rollback i) where
  acts := .rollback
  others := fun _ other => update_of_ne other ..
  fits := by
    have idle : (d.rollback i).sessions i = .idle := update_self ..
    rw [idle]
    exact clean_rollback d.rows i
  descends := by
    have idle : (d.rollback i).sessions i = .idle := update_self ..
    rw [idle]
    exact ⟨.inl rfl, .inl rfl⟩

theorem moves_to {session : Session} (acts : Acts d.rows i rows) (fits : Fits sha256 rows i session)
    (descends : Descends call (d.sessions i) session) :
    Moves sha256 call d i ({ d with rows := rows }.resume i session) where
  acts := acts
  others := fun _ other => update_of_ne other ..
  fits := by
    have here : ({ d with rows := rows }.resume i session).sessions i = session :=
      update_self ..
    rw [here]
    exact fits
  descends := by
    have here : ({ d with rows := rows }.resume i session).sessions i = session :=
      update_self ..
    rw [here]
    exact descends

theorem descends_same {before after : Session} (token : tokenOf after = tokenOf before)
    (raw : rawOf after = rawOf before) : Descends call before after :=
  ⟨.inr (.inl token), .inr (.inl raw)⟩

theorem moves_wait (fits : Fits sha256 d.rows i (d.sessions i)) : Moves sha256 call d i d :=
  ⟨.same, fun _ _ => rfl, fits, descends_same rfl rfl⟩

theorem wrote_put (clean : Clean rows i) (row : Challenge) : Wrote (rows.put i row) i row := by
  intro k
  rw [find_writes_put, clean k]
  simp

theorem insert_goes {ttlMinutes : Int} (now : Instant)
    (session : d.sessions i = .issuing purpose accountId ttlMinutes raw) (clean : Clean d.rows i) :
    Goes server.sha256 none d i (insertRow server d i purpose accountId ttlMinutes raw now) := by
  unfold insertRow
  split
  next => exact .underway (moves_rollback _ _ d i) rfl trivial
  split
  next => exact .underway (moves_rollback _ _ d i) rfl trivial
  next expiresAt _ =>
    dsimp only
    split
    next => exact .underway (moves_wait (by rw [session]; exact clean)) rfl trivial
    next free =>
      split
      next => exact .underway (moves_rollback _ _ d i) rfl trivial
      next =>
        have available : d.rows.free i (issuedRow purpose accountId (server.sha256 raw) expiresAt
          now).place = true := by simpa using free
        exact .underway (moves_to (.put available) ⟨wrote_put clean _, rfl, rfl⟩
          (by rw [session]; exact descends_same rfl rfl)) rfl trivial

theorem refuses (session : d.sessions i = .looking purpose accountId raw) :
    Descends none (d.sessions i) (.refusing raw) := by
  rw [session]
  exact descends_same rfl rfl

theorem select_goes (now : Instant) (session : d.sessions i = .looking purpose accountId raw)
    (clean : Clean d.rows i) :
    Goes server.sha256 none d i (selectRow server d i purpose accountId raw now) := by
  unfold selectRow
  split
  next => exact .underway (moves_rollback _ _ d i) rfl trivial
  split
  next => exact .underway (moves_to .same clean (refuses session)) rfl trivial
  next row seen =>
    split
    next => exact .underway (moves_wait (by rw [session]; exact clean)) rfl trivial
    next free =>
      have available : d.rows.free i row.place = true := by simpa using free
      have committed : d.rows.committed.find row.place = some row := by
        rw [find_visible, clean] at seen
        rw [Table.key_of_find seen]
        exact seen
      split
      next => exact .underway (moves_to (.lock available) clean (refuses session)) rfl trivial
      next live =>
        split
        next => exact .underway (moves_to (.lock available) clean (refuses session)) rfl trivial
        next same =>
          simp only [Bool.or_eq_true, Bool.not_eq_true', decide_eq_false_iff_not, not_or,
            Decidable.not_not, Bool.not_eq_true, isSome_eq_false_iff,
            isNone_iff_eq_none] at live
          refine .underway (moves_to (.lock available) ⟨clean, update_self .., ?_⟩
            (by rw [session]; exact descends_same rfl rfl)) rfl trivial
          exact ⟨committed, live.1, Decidable.not_not.mp same, live.2⟩

theorem update_goes {asked : Instant} (now : Instant)
    (session : d.sessions i = .taking raw row asked) (clean : Clean d.rows i)
    (held : d.rows.locks row.place = some i) (live : Live server.sha256 d.rows raw row asked) :
    Goes server.sha256 none d i (updateRow d i raw row asked now) := by
  have seen : (d.rows.visible i).find row.place = some row := by
    rw [find_visible, clean]
    exact live.there
  have free : d.rows.free i row.place = true := by
    rw [free_iff]
    intro j other
    rw [held] at other
    exact (Option.some.inj other).symm
  unfold updateRow
  rw [seen]
  dsimp only
  rw [free]
  exact .underway (moves_to (.put free) ⟨⟨now, wrote_put clean _⟩, live.there, live.unused,
    live.digest, live.early⟩ (by rw [session]; exact descends_same rfl rfl)) rfl trivial

theorem advance_goes (sound : Sound server.sha256 d) (now : Instant) :
    Goes server.sha256 none d i (advance server d i now) := by
  have fits := sound.fits i
  unfold advance
  cases session : d.sessions i with
  | idle => exact .underway (moves_wait fits) rfl trivial
  | issuing =>
    rw [session] at fits
    exact insert_goes now session fits
  | issued raw row => exact .token session
  | looking =>
    rw [session] at fits
    exact select_goes now session fits
  | taking raw row asked =>
    rw [session] at fits
    exact update_goes now session fits.1 fits.2.1 fits.2.2
  | taken raw row asked => exact .accepted session
  | refusing => exact .refused session

theorem step_goes (sound : Sound server.sha256 d) (a : Action) :
    Goes server.sha256 a.call d (actor a) (step server d a) := by
  cases a with
  | begin i call =>
    unfold Postgres.step
    dsimp only
    split
    next idle =>
      have clean : Clean d.rows i := by
        have fits := sound.fits i
        rw [idle] at fits
        exact fits
      have fits : Fits server.sha256 d.rows i (begun call) := by cases call <;> exact clean
      refine .underway (moves_to .same fits ⟨.inr (.inr ?_), .inr (.inr ?_)⟩) rfl trivial
      · cases call <;> rfl
      · cases call <;> rfl
    next => exact .underway (moves_wait (sound.fits i)) rfl trivial
  | go i now => exact advance_goes sound now
  | abort i => exact .underway (moves_rollback _ _ d i) rfl trivial

theorem goes_moves {answer : Answer} {d' : Deployment} (goes : Goes sha256 call d i (answer, d')) :
    Moves sha256 call d i d' := by
  cases goes with
  | underway moves => exact moves
  | token | accepted | refused => exact moves_commit sha256 call d i

theorem step_moves (sound : Sound server.sha256 d) (a : Action) :
    Moves server.sha256 a.call d (actor a) (step server d a).2 := goes_moves (step_goes sound a)

theorem step_sound (sound : Sound server.sha256 d) (a : Action) :
    Sound server.sha256 (step server d a).2 := by
  have moves := step_moves sound a
  refine ⟨acts_locked moves.acts sound.locked, fun j => ?_⟩
  by_cases other : j = actor a
  · rw [other]
    exact moves.fits
  · rw [moves.others j other]
    exact fits_other sound.locked moves.acts other (sound.fits j)

theorem sound_start (sha256 : String → String) : Sound sha256 Deployment.start :=
  ⟨locked_start _, fun _ _ => rfl⟩

/-- The slots of the committed rows. -/
def slots (d : Deployment) : Slots Place String Instant := slotsOf d.rows.committed

theorem committed_clean (clean : Clean d.rows i) (k : Place) :
    (d.commit i).rows.committed.find k = d.rows.committed.find k := by
  rw [show (d.commit i).rows = d.rows.commit i from rfl, find_committed_commit, clean k]
  rfl

theorem slots_commit (wrote : Wrote d.rows i row) : slots (d.commit i) =
    Function.update (slots d) row.place (some ⟨row.tokenDigest, row.expiresAt, row.usedAt.isSome⟩) := by
  funext k
  rw [slots, slotsOf, show (d.commit i).rows = d.rows.commit i from rfl, find_committed_commit, wrote k]
  by_cases here : row.place = k
  · subst here
    rw [if_pos rfl, update_self]
    rfl
  · rw [if_neg here, update_of_ne (fun same => here same.symm)]
    rfl

theorem step_quiet (sound : Sound server.sha256 d) (a : Action)
    (quiet : stepMark ⟨d, a, (step server d a).1, (step server d a).2⟩ = none) (k : Place) :
    (step server d a).2.rows.committed.find k = d.rows.committed.find k := by
  have goes := step_goes sound a
  have fits := sound.fits (actor a)
  generalize step server d a = result at goes quiet ⊢
  cases goes with
  | underway _ same => exact congrArg (fun rows => Table.find rows k) same
  | token session =>
    simp only [stepMark, session] at quiet
    cases quiet
  | accepted session =>
    simp only [stepMark, session] at quiet
    cases quiet
  | refused session =>
    rw [session] at fits
    exact committed_clean fits k

theorem step_follows (sound : Sound server.sha256 d) (a : Action)
    (made : stepMark ⟨d, a, (step server d a).1, (step server d a).2⟩ = some mark) :
    Follows server.sha256 (slots d) mark (slots (step server d a).2) := by
  have goes := step_goes sound a
  have fits := sound.fits (actor a)
  generalize step server d a = result at goes made ⊢
  cases goes with
  | @underway answer _ _ _ underway =>
    cases answer with
    | token | consumed => cases underway
    | running | waiting | raised | aborted => cases made
  | @token raw row session =>
    rw [session] at fits
    simp only [stepMark, session] at made
    cases made
    obtain ⟨wrote, digest, unused⟩ := fits
    rw [slots_commit wrote, digest, unused]
    exact .issued
  | @accepted raw row asked session =>
    rw [session] at fits
    simp only [stepMark, session] at made
    cases made
    obtain ⟨⟨now, wrote⟩, live⟩ := fits
    rw [slots_commit wrote]
    have slot : slots d row.place = some ⟨row.tokenDigest, row.expiresAt, row.usedAt.isSome⟩ := by
      rw [slots, slotsOf, live.there]
      rfl
    exact .accepted slot (by rw [live.unused]; rfl) live.digest live.early
  | refused => cases made

/-- The tokens that the begun calls drew. -/
def drawnTokens (events : List StepEvent) : List String :=
  events.filterMap (fun e => e.action.call.bind Call.drawn)

/-- The tokens that the begun calls were made with. -/
def spokenTokens (events : List StepEvent) : List String :=
  events.filterMap (fun e => e.action.call.map Call.raw)

def issuedTokens (events : List StepEvent) : List String :=
  (events.filterMap stepMark).filterMap Mark.issue

/-- Each drawn token is held by one session at most, which has not returned it. -/
structure Tokens (events : List StepEvent) (d : Deployment) : Prop where
  once : (issuedTokens events).Nodup
  known : ∀ t ∈ issuedTokens events, t ∈ drawnTokens events
  held : ∀ i t, tokenOf (d.sessions i) = some t → t ∈ drawnTokens events ∧ t ∉ issuedTokens events
  single : ∀ i j t, tokenOf (d.sessions i) = some t → tokenOf (d.sessions j) = some t → i = j
  spoken : ∀ i t, rawOf (d.sessions i) = some t → t ∈ spokenTokens events
  marked : ∀ mark ∈ events.filterMap stepMark, mark.secret ∈ spokenTokens events

theorem stepMark_session {e : StepEvent} (made : stepMark e = some mark) :
    rawOf (e.before.sessions (actor e.action)) = some mark.secret ∧ ¬ Underway e.answer ∧
      ∀ t, mark.issue = some t → tokenOf (e.before.sessions (actor e.action)) = some t := by
  unfold stepMark at made
  split at made
  next answered held =>
    cases made
    rw [held, answered]
    exact ⟨rfl, id, fun t issued => issued⟩
  next answered held =>
    cases made
    rw [held, answered]
    exact ⟨rfl, id, nofun⟩
  next => cases made

theorem goes_idle {answer : Answer} {d' : Deployment} (goes : Goes sha256 call d i (answer, d'))
    (returned : ¬ Underway answer) : d'.sessions i = .idle := by
  cases goes with
  | underway _ _ underway => exact absurd underway returned
  | token | accepted | refused => exact update_self ..

section Tokens

variable {events : List StepEvent} {a : Action}

theorem filterMap_snoc {α β : Type} (f : α → Option β) (l : List α) (a : α) :
    (l ++ [a]).filterMap f = l.filterMap f ++ (f a).toList := by
  rw [filterMap_append, filterMap_cons]
  cases f a <;> rfl

theorem drawn_snoc (e : StepEvent) : drawnTokens (events ++ [e]) =
    drawnTokens events ++ (e.action.call.bind Call.drawn).toList := filterMap_snoc _ events e

theorem spoken_snoc (e : StepEvent) : spokenTokens (events ++ [e]) =
    spokenTokens events ++ (e.action.call.map Call.raw).toList := filterMap_snoc _ events e

theorem issued_snoc (e : StepEvent) : issuedTokens (events ++ [e]) =
    issuedTokens events ++ ((stepMark e).bind Mark.issue).toList := by
  rw [issuedTokens, filterMap_filterMap, filterMap_snoc]
  simp only [issuedTokens, filterMap_filterMap]

/-- The event of an action. -/
abbrev eventOf (server : Server) (d : Deployment) (a : Action) : StepEvent :=
  ⟨d, a, (Postgres.step server d a).1, (Postgres.step server d a).2⟩

/-- A token that a session holds after a step: the acting session's from its call, or as before. -/
theorem held_before (sound : Sound server.sha256 d) {j : Nat}
    (held : tokenOf ((Postgres.step server d a).2.sessions j) = some t) :
    tokenOf (d.sessions j) = some t ∨ (j = actor a ∧ a.call.bind Call.drawn = some t) := by
  have moves := step_moves sound a
  by_cases other : j = actor a
  · subst other
    rcases moves.descends.1 with none | same | begun
    · rw [none] at held
      cases held
    · exact .inl (same.symm.trans held)
    · exact .inr ⟨rfl, begun.symm.trans held⟩
  · rw [moves.others j other] at held
    exact .inl held

theorem spoken_before (sound : Sound server.sha256 d) {j : Nat}
    (held : rawOf ((Postgres.step server d a).2.sessions j) = some t) :
    rawOf (d.sessions j) = some t ∨ a.call.map Call.raw = some t := by
  have moves := step_moves sound a
  by_cases other : j = actor a
  · subst other
    rcases moves.descends.2 with none | same | begun
    · rw [none] at held
      cases held
    · exact .inl (same.symm.trans held)
    · exact .inr (begun.symm.trans held)
  · rw [moves.others j other] at held
    exact .inl held

theorem issues_held (sound : Sound server.sha256 d)
    (issues : (stepMark (eventOf server d a)).bind Mark.issue = some t) :
    tokenOf (d.sessions (actor a)) = some t ∧
      (Postgres.step server d a).2.sessions (actor a) = .idle := by
  obtain ⟨mark, made, issue⟩ := bind_eq_some_iff.mp issues
  obtain ⟨-, returned, held⟩ := stepMark_session made
  exact ⟨held t issue, goes_idle (step_goes sound a) returned⟩

theorem tokens_step (sound : Sound server.sha256 d) (tokens : Tokens events d)
    (fresh : (drawnTokens (events ++ [eventOf server d a])).Nodup) :
    Tokens (events ++ [eventOf server d a]) (Postgres.step server d a).2 := by
  -- a token that the call draws is held by nobody, and was not returned
  have new : ∀ t, a.call.bind Call.drawn = some t → t ∉ drawnTokens events := by
    intro t begun there
    rw [drawn_snoc, show (eventOf server d a).action.call.bind Call.drawn = some t from begun] at fresh
    exact (nodup_append.mp fresh).2.2 t there t (mem_singleton_self t) rfl
  refine ⟨?_, ?_, ?_, ?_, ?_, ?_⟩
  · rw [issued_snoc]
    cases issues : (stepMark (eventOf server d a)).bind Mark.issue with
    | none => simpa using tokens.once
    | some t =>
      have unreturned := (tokens.held _ t (issues_held sound issues).1).2
      rw [nodup_append]
      refine ⟨tokens.once, nodup_singleton t, ?_⟩
      rintro old there t' here rfl
      rw [mem_singleton.mp here] at there
      exact unreturned there
  · intro t issued
    rw [issued_snoc] at issued
    rw [drawn_snoc]
    rcases mem_append.mp issued with earlier | now
    · exact mem_append_left _ (tokens.known t earlier)
    · exact mem_append_left _ (tokens.held _ t (issues_held sound (mem_toList.mp now)).1).1
  · intro j t held
    rw [drawn_snoc, issued_snoc]
    have unissued : ¬ (stepMark (eventOf server d a)).bind Mark.issue = some t := by
      intro issues
      obtain ⟨mine, idle⟩ := issues_held sound issues
      by_cases other : j = actor a
      · rw [other, idle] at held
        cases held
      · rcases held_before sound held with before | ⟨same, -⟩
        · exact other (tokens.single j (actor a) t before mine)
        · exact other same
    have drawn : t ∈ drawnTokens events ++ ((eventOf server d a).action.call.bind Call.drawn).toList ∧
        t ∉ issuedTokens events := by
      rcases held_before sound held with before | ⟨-, begun⟩
      · exact ⟨mem_append_left _ (tokens.held j t before).1, (tokens.held j t before).2⟩
      · exact ⟨mem_append_right _ (mem_toList.mpr begun),
          fun issued => new t begun (tokens.known t issued)⟩
    refine ⟨drawn.1, fun issued => ?_⟩
    rcases mem_append.mp issued with earlier | now
    · exact drawn.2 earlier
    · exact unissued (mem_toList.mp now)
  · intro i j t first second
    rcases held_before sound first with before | ⟨here, begun⟩
    · rcases held_before sound second with before' | ⟨there, begun⟩
      · exact tokens.single i j t before before'
      · exact absurd (tokens.held i t before).1 (new t begun)
    · rcases held_before sound second with before' | ⟨there, -⟩
      · exact absurd (tokens.held j t before').1 (new t begun)
      · exact here.trans there.symm
  · intro j t held
    rw [spoken_snoc]
    rcases spoken_before sound held with before | begun
    · exact mem_append_left _ (tokens.spoken j t before)
    · exact mem_append_right _ (mem_toList.mpr begun)
  · intro mark mem
    rw [filterMap_snoc] at mem
    rw [spoken_snoc]
    rcases mem_append.mp mem with earlier | now
    · exact mem_append_left _ (tokens.marked mark earlier)
    · exact mem_append_left _ (tokens.spoken _ _ (stepMark_session (mem_toList.mp now)).1)

theorem tokens_start : Tokens [] Deployment.start where
  once := nodup_nil
  known := nofun
  held := nofun
  single := nofun
  spoken := nofun
  marked := nofun

end Tokens

/-- The marks of a run of the sessions. -/
def stepMarks (server : Server) (actions : List Action) : List LinkMark :=
  (history (Postgres.step server) Deployment.start actions).filterMap stepMark

theorem postgres_rightful {actions : List Action}
    (fresh : (actions.filterMap (fun a => a.call.bind Call.drawn)).Nodup)
    (apart : Apart server.sha256 (actions.filterMap (fun a => a.call.map Call.raw))) :
    Rightful (stepMarks server actions) := by
  have marked := @marked_history Place String String Instant _ _ server.sha256 _ _ _ (Postgres.step server)
    slots stepMark (Sound server.sha256) (fun _ a sound => step_sound sound a)
    (fun d a sound quiet => by
      funext k
      rw [slots, slots, slotsOf, slotsOf, step_quiet sound a quiet k])
    (fun _ a _ sound made => step_follows sound a made) Deployment.start (sound_start _)
    (by funext k; rfl) actions
  have run := @traced _ _ _ (Postgres.step server)
    (fun events d => (drawnTokens events).Nodup → Sound server.sha256 d ∧ Tokens events d)
    (fun events d a so fresh => by
      have earlier : (drawnTokens events).Nodup := by
        rw [drawn_snoc] at fresh
        exact (nodup_append.mp fresh).1
      obtain ⟨sound, tokens⟩ := so earlier
      exact ⟨step_sound sound a, tokens_step sound tokens fresh⟩)
    [] Deployment.start (fun _ => ⟨sound_start _, tokens_start⟩) actions
  rw [nil_append] at run
  have drawn : drawnTokens (history (Postgres.step server) Deployment.start actions) =
      actions.filterMap (fun a => a.call.bind Call.drawn) :=
    filterMap_actions (fun a : Action => a.call.bind Call.drawn) Deployment.start actions
  have spoken : spokenTokens (history (Postgres.step server) Deployment.start actions) =
      actions.filterMap (fun a => a.call.map Call.raw) :=
    filterMap_actions (fun a : Action => a.call.map Call.raw) Deployment.start actions
  obtain ⟨-, tokens⟩ := run (by rw [drawn]; exact fresh)
  refine marked_rightful marked tokens.once ?_
  intro a first b second
  have said := tokens.marked a first
  have said' := tokens.marked b second
  rw [spoken] at said said'
  exact apart _ said _ said'

end Postgresql

/-- In every run of the calls of either store, from no rows, with distinct tokens that SHA-256 tells
apart: a token is accepted once at most, where it was issued, before its deadline, and not after
another one was issued there; a call that returns neither a token nor True changes no row. -/
theorem links_accepted_once (sha256 : String → String) (server : Postgres.Server) :
    (∀ calls : List (Call × Instant), (calls.filterMap (fun asked => asked.1.drawn)).Nodup →
      Apart sha256 (calls.map (fun asked => asked.1.raw)) →
      Rightful (callMarks sha256 calls) ∧
        ∀ e ∈ history (SQLite.step sha256) Table.empty calls, (∀ raw, e.answer ≠ .ok (.token raw)) →
          e.answer ≠ .ok (.consumed true) → e.after = e.before) ∧
    ∀ actions : List Postgres.Action, (actions.filterMap (fun a => a.call.bind Call.drawn)).Nodup →
      Apart server.sha256 (actions.filterMap (fun a => a.call.map Call.raw)) →
      Rightful (stepMarks server actions) ∧
        ∀ e ∈ history (Postgres.step server) .start actions, (∀ raw, e.answer ≠ .token raw) →
          e.answer ≠ .consumed true →
          ∀ k, e.after.rows.committed.find k = e.before.rows.committed.find k := by
  constructor
  · intro calls fresh apart
    refine ⟨sqlite_rightful fresh apart, fun e member untold refused => ?_⟩
    have step := step_of_mem member
    have comes := @call_comes sha256 e.before e.action.1 e.action.2
    rw [step] at comes
    generalize same : (e.answer, e.after) = result at comes
    cases comes with
    | raised | refused => exact congrArg Prod.snd same
    | issued => exact absurd (congrArg Prod.fst same) (untold _)
    | accepted => exact absurd (congrArg Prod.fst same) refused
  · intro actions fresh apart
    refine ⟨postgres_rightful fresh apart, fun e member untold refused k => ?_⟩
    have sound := ((@invariant _ _ _ (Postgres.step server) (Sound server.sha256)
      (fun _ a sound => step_sound sound a) _ (sound_start server.sha256) actions).1 e member).1
    have step := step_of_mem member
    obtain ⟨before, a, answer, after⟩ := e
    have quiet : stepMark ⟨before, a, (Postgres.step server before a).1,
        (Postgres.step server before a).2⟩ = none := by
      rw [step]
      cases answer with
      | token raw => exact absurd rfl (untold raw)
      | consumed accepted =>
        cases accepted with
        | true => exact absurd rfl refused
        | false => rfl
      | running | waiting | raised | aborted => rfl
    have same := step_quiet sound a quiet k
    rw [step] at same
    exact same

section Two

/-- The digests of two tokens. -/
def digestOf : String → String
  | "link-1" => "8e9fa224f488a601af1b14e867eb6bf8496025b1bb5c0a78d1b94d3c7122efec"
  | "link-2" => "ad35fe9f886138cdb26c03bee187ad40a53c20ac773a5eba1b4947b59e44c320"
  | _ => ""

def twoLinks : List (Call × Instant) :=
  [(.issue "ana" 30 "link-1", 0), (.issuePasswordReset "ana" 20 "link-2", 1),
    (.verify "ana" "link-1", minutes 29), (.verify "ana" "link-1", minutes 29),
    (.consumePasswordReset "ana" "link-2", minutes 21)]

def anaServer : Postgres.Server :=
  ⟨digestOf, fun account => decide (account = "ana"), fun now ttl => some (now + minutes ttl)⟩

/-- Two hosts get the same link. -/
def twoHosts : List Postgres.Action :=
  [.begin 0 (.issue "ana" 30 "link-1"), .go 0 0, .go 0 0,
    .begin 1 (.verify "ana" "link-1"), .begin 2 (.verify "ana" "link-1"), .go 1 5, .go 2 5, .go 1 6,
    .go 1 6, .go 2 7, .go 2 7]

theorem digests_apart {tokens : List String} (two : ∀ t ∈ tokens, t ∈ ["link-1", "link-2"]) :
    Apart digestOf tokens := by
  intro a first b second same
  have one := two a first
  have other := two b second
  simp only [mem_cons, not_mem_nil, or_false] at one other
  rcases one with rfl | rfl <;> rcases other with rfl | rfl <;>
    first | rfl | exact absurd same (by decide)

theorem two_links_once : (callMarks digestOf twoLinks).length = 3 ∧
    (stepMarks anaServer twoHosts).length = 2 ∧ Rightful (callMarks digestOf twoLinks) ∧
    Rightful (stepMarks anaServer twoHosts) :=
  ⟨by decide +kernel, by decide +kernel,
    ((links_accepted_once digestOf anaServer).1 twoLinks (by decide)
      (digests_apart (by decide))).1,
    ((links_accepted_once digestOf anaServer).2 twoHosts (by decide)
      (digests_apart (by decide))).1⟩

end Two

end Meemee.Guarantees.EmailLinks
