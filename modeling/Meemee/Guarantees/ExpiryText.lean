import Meemee.Guarantees.ApprovalConstraints
import Meemee.Guarantees.NumberText
import Meemee.Guarantees.TimeText
import Meemee.Library.History
import Meemee.Source.Expiry

/-!
# Expiry by text and by time

The shift to UTC keeps the instant, and ISO texts of real dates compare as their instants do. So a
grant or token whose column was written by `normalize_expiry` is live exactly while the instant that
was parsed lies ahead, and introspection, which parses the column again, finds the same.
-/
namespace Meemee.Guarantees.ExpiryText
open Library Library.Gregorian Library.History Source Source.Expiry Library.Txn Option List
open Source.Approvals (Grant GrantCall SQLite.TextGrants)
open Guarantees.TimeText (isoformat_lt)

/-- The date of the fields is a date of the calendar. -/
def Real (t : Datetime) : Prop := (dateOf t).Real

theorem dayTime_lt (t : Datetime) : dayTime t < dayLength := by
  obtain ⟨-, -, -, hour, minute, second, microsecond⟩ := t.valid
  simp only [dayTime, dayLength]
  omega

theorem lt_iff_fields (t u : Datetime) :
    t < u ↔ (dateOf t).Before (dateOf u) ∨ dateOf t = dateOf u ∧ dayTime t < dayTime u := by
  obtain ⟨year, month, day, hour, minute, second, microsecond, valid⟩ := t
  obtain ⟨year', month', day', hour', minute', second', microsecond', valid'⟩ := u
  simp only [Datetime.lt_iff, Datetime.rank, dateOf, Date.Before, Date.mk.injEq, dayTime]
  omega

variable {t now : Datetime} {d : Date} {deadline : Option Int} {row : TokenRow} {s : Tokens}

theorem lt_iff_instant {u : Datetime} (real : Real t) (real' : Real u) :
    t < u ↔ instantOf t < instantOf u := by
  have before := before_iff real real'
  have time := dayTime_lt t
  have time' := dayTime_lt u
  rw [lt_iff_fields, before]
  simp only [instantOf, dayLength] at time time' ⊢
  constructor
  · rintro (earlier | ⟨same, earlier⟩)
    · omega
    · rw [same]
      omega
  · intro earlier
    by_cases ordinals : (dateOf t).ordinal < (dateOf u).ordinal
    · exact .inl ordinals
    · have same : (dateOf t).ordinal = (dateOf u).ordinal := by omega
      exact .inr ⟨eq_of_ordinal real real' same, by omega⟩

theorem compose_ok {time : Nat} (composed : compose d time = .ok t) :
    dateOf t = d ∧ dayTime t = time ∧ 1 ≤ d.year := by
  unfold compose at composed
  split at composed
  next valid =>
    obtain rfl := Except.ok.inj composed
    refine ⟨rfl, ?_, valid.1.1⟩
    simp only [dayTime]
    omega
  next => cases composed

theorem utcMoment_ok {m : Moment} (shifted : utcMoment m = .ok t) :
    Real t ∧ instantOf t = m.instant := by
  have bounded := m.bounded
  have time := dayTime_lt m.wall
  unfold utcMoment at shifted
  dsimp only at shifted
  unfold Real Moment.instant instantOf
  split at shifted
  next early =>
    obtain ⟨date, dayTimes, year⟩ := compose_ok shifted
    have later : (dateOf m.wall).previous.year ≠ 0 := by omega
    have ordinal := previous_ordinal m.real later
    rw [date, dayTimes]
    simp only [dayLength] at bounded time early ⊢
    exact ⟨previous_real m.real later, by omega⟩
  next =>
    split at shifted
    next late =>
      obtain ⟨date, dayTimes, -⟩ := compose_ok shifted
      have ordinal := next_ordinal m.real
      rw [date, dayTimes]
      simp only [dayLength] at bounded time late ⊢
      exact ⟨next_real m.real, by omega⟩
    next inside _ =>
      obtain ⟨date, dayTimes, -⟩ := compose_ok shifted
      rw [date]
      exact ⟨m.real, by omega⟩

theorem compose_of_year (time : Nat) (year : 1 ≤ d.year ∧ d.year ≤ 9999)
    (month : 1 ≤ d.month ∧ d.month ≤ 12) (day : 1 ≤ d.day ∧ d.day ≤ monthLength d.year d.month)
    (within : time < dayLength) : ∃ t, compose d time = .ok t := by
  have length := (monthLength_bounds d.year month.1).2
  unfold compose
  split
  next => exact ⟨_, rfl⟩
  next invalid =>
    simp only [dayLength] at within
    omega

theorem previous_year (d : Date) : d.previous.year ≤ d.year := by
  unfold Date.previous
  split
  next => exact Nat.le_refl _
  next =>
    split
    next => exact Nat.le_refl _
    next => exact Nat.sub_le _ _

theorem first_of_previous (real : d.Real) (before : d.previous.year = 0) : d = ⟨1, 1, 1⟩ := by
  have years := real.year
  have days := real.day
  have months := real.month
  obtain ⟨year, month, day⟩ := d
  unfold Date.previous at before
  simp only [Date.mk.injEq] at *
  split at before
  next =>
    simp only at before
    omega
  next =>
    split at before <;>
    · simp only at before
      omega

theorem last_of_next (real : d.Real) (within : d.year ≤ 9999) (beyond : ¬ d.next.year ≤ 9999) :
    d = ⟨9999, 12, 31⟩ := by
  have days := real.day
  have months := real.month
  obtain ⟨year, month, day⟩ := d
  unfold Date.next at beyond
  simp only [Date.mk.injEq] at *
  split at beyond
  next =>
    simp only at beyond
    omega
  next last =>
    split at beyond
    next =>
      simp only at beyond
      omega
    next final =>
      simp only at beyond
      obtain rfl : month = 12 := by omega
      have length : monthLength year 12 = 31 := rfl
      omega

/-- Only before the first day and after the last one there is no date to shift to. -/
theorem utcMoment_error {m : Moment} {e : Exc} (raised : utcMoment m = .error e) :
    dateOf m.wall = ⟨1, 1, 1⟩ ∨ dateOf m.wall = ⟨9999, 12, 31⟩ := by
  have bounded := m.bounded
  have time := dayTime_lt m.wall
  have years : 1 ≤ (dateOf m.wall).year ∧ (dateOf m.wall).year ≤ 9999 := m.wall.valid.1
  have real := m.real
  have month := real.month
  have day := real.day
  unfold utcMoment at raised
  dsimp only at raised
  split at raised
  next early =>
    by_cases later : (dateOf m.wall).previous.year = 0
    · exact .inl (first_of_previous real later)
    · have previous := previous_real real later
      have bound := previous_year (dateOf m.wall)
      obtain ⟨t, composed⟩ := compose_of_year
        ((((dayTime m.wall : Int) - m.offset.getD 0) + dayLength).toNat) ⟨previous.year, by omega⟩ previous.month
        previous.day (by omega)
      rw [composed] at raised
      cases raised
  next =>
    split at raised
    next late =>
      by_cases within : (dateOf m.wall).next.year ≤ 9999
      · have next := next_real real
        obtain ⟨t, composed⟩ := compose_of_year
          (((dayTime m.wall : Int) - m.offset.getD 0) - dayLength).toNat ⟨next.year, within⟩ next.month
          next.day (by omega)
        rw [composed] at raised
        cases raised
      · exact .inr (last_of_next real years.2 within)
    next inside =>
      obtain ⟨t, composed⟩ := compose_of_year
        (((dayTime m.wall : Int) - m.offset.getD 0).toNat) years month day (by omega)
      rw [composed] at raised
      cases raised

section Columns

variable {fromisoformat : String → Option Moment} {sha256 : String → String}

/-- The instant an expiry names. -/
def deadlineOf (fromisoformat : String → Option Moment) (given : Option String) : Option Int :=
  given.bind (fun value => (fromisoformat (cleaned value)).map Moment.instant)

/-- The column was written for an expiry that names the deadline. -/
def Holds (fromisoformat : String → Option Moment) (column : Option String) (deadline : Option Int) : Prop :=
  ∃ given expiry, Approvals.normalizeExpiry (normalized fromisoformat) given = .ok expiry ∧
    column = expiry.map Datetime.isoformat ∧ deadline = deadlineOf fromisoformat given

/-- The deadline, if there is one, lies ahead. -/
def ahead (deadline : Option Int) (now : Int) : Bool := deadline.all (fun instant => decide (now < instant))

theorem holds_cases {column : Option String} (holds : Holds fromisoformat column deadline) :
    column = none ∧ deadline = none ∨
      ∃ t, Real t ∧ column = some t.isoformat ∧ deadline = some (instantOf t) := by
  obtain ⟨given, expiry, accepted, rfl, rfl⟩ := holds
  cases given with
  | none =>
    cases accepted
    exact .inl ⟨rfl, rfl⟩
  | some value =>
    simp only [Approvals.normalizeExpiry, normalized] at accepted
    cases parsed : fromisoformat (cleaned value) with
    | none =>
      rw [parsed] at accepted
      cases accepted
    | some moment =>
      rw [parsed] at accepted
      dsimp only at accepted
      cases shifted : utcMoment moment with
      | error e =>
        rw [shifted] at accepted
        cases accepted
      | ok t =>
        rw [shifted] at accepted
        cases accepted
        obtain ⟨real, instant⟩ := utcMoment_ok shifted
        refine .inr ⟨t, real, rfl, ?_⟩
        rw [deadlineOf, bind_some, parsed, map_some, instant]

theorem text_ahead {column : Option String} (holds : Holds fromisoformat column deadline)
    (real : Real now) :
    column.all (fun expiry => decide (now.isoformat < expiry)) = ahead deadline (instantOf now) := by
  rcases holds_cases holds with ⟨rfl, rfl⟩ | ⟨t, realExpiry, rfl, rfl⟩
  · rfl
  · rw [ahead, all_some, all_some, decide_eq_decide, isoformat_lt,
      lt_iff_instant real realExpiry]

theorem active_exact {row : Grant String String}
    (holds : Holds fromisoformat row.expiresAt deadline) (real : Real now) :
    row.active now.isoformat = (row.revokedAt.isNone && ahead deadline (instantOf now)) := by
  rw [Grant.active, text_ahead holds real]

theorem allows_exact {s : SQLite.TextGrants} {principal tool : String} {now : Moment}
    {current : Datetime} (shifted : utcMoment now = .ok current) {row : Grant String String}
    (found : s.find (principal, tool) = some row)
    (holds : Holds fromisoformat row.expiresAt deadline) (arguments : Json) :
    allows s principal tool now arguments =
      if row.revokedAt.isNone && ahead deadline now.instant then
        (Approvals.SQLite.readConstraints row.argumentConstraints).map (fun constraints =>
          Approvals.constraintsMatch constraints arguments)
      else .ok false := by
  obtain ⟨real, instant⟩ := utcMoment_ok shifted
  have active := active_exact holds real
  rw [instant] at active
  unfold allows
  rw [shifted]
  change Approvals.SQLite.allows s principal tool current arguments = _
  unfold Approvals.SQLite.allows Approvals.activeGrant
  rw [found, ← active]
  cases live : row.active current.isoformat with
  | true => simp [filter_some, live]
  | false => simp [filter_some, live]

theorem activeCount_exact {s : SQLite.TextGrants} {principal : String} {now : Moment} {current : Datetime}
    (shifted : utcMoment now = .ok current) {deadline : Grant String String → Option Int}
    (holds : ∀ row ∈ s, Holds fromisoformat row.expiresAt (deadline row)) :
    activeCount s principal now = .ok (s.tally (fun row => decide (row.principal = principal) &&
      (row.revokedAt.isNone && ahead (deadline row) now.instant))) := by
  obtain ⟨real, instant⟩ := utcMoment_ok shifted
  unfold activeCount
  rw [shifted]
  change Except.ok (Approvals.countActive s principal current.isoformat) = _
  congr 1
  apply Table.tally_congr
  intro row mem
  rw [Approvals.activeOf, active_exact (holds row mem) real, instant]

/-- The principal of a row. -/
def principalOf (row : TokenRow) : Principal := ⟨orElse row.ownerId row.id, row.name, row.scopes⟩

theorem live_exact (holds : Holds fromisoformat row.expiresAt deadline) (real : Real now) :
    row.live now.isoformat = (row.revokedAt.isNone && ahead deadline (instantOf now)) := by
  rw [TokenRow.live, text_ahead holds real]

theorem authenticate_found {token : String} (found : s.find (sha256 token) = some row)
    (now : Datetime) :
    (authenticate sha256 token now s).1 =
      .ok (if row.live now.isoformat then some (principalOf row) else none) := by
  unfold authenticate
  rw [run_bind_read, found, filter_some]
  cases row.live now.isoformat with
  | true => rfl
  | false => rfl

/-- What a token's row holds. -/
structure Written (fromisoformat : String → Option Moment) (row : TokenRow) : Prop where
  expires : ∃ deadline, Holds fromisoformat row.expiresAt deadline
  revoked : ∀ text, row.revokedAt = some text → text ≠ ""

def AllWritten (fromisoformat : String → Option Moment) (s : Tokens) : Prop :=
  ∀ row ∈ s, Written fromisoformat row

theorem isoformat_ne_empty (t : Datetime) : t.isoformat ≠ "" := by
  intro same
  have characters := congrArg String.toList same
  simp [Datetime.isoformat] at characters

theorem used_written (written : Written fromisoformat row) (now : String) :
    Written fromisoformat (row.used now) := ⟨written.expires, written.revoked⟩

theorem revoke_written (written : Written fromisoformat row) (now : Datetime) :
    Written fromisoformat (row.revoke now.isoformat) := by
  refine ⟨written.expires, ?_⟩
  intro text stored
  rw [← Option.some.inj stored]
  exact isoformat_ne_empty now

theorem create_keeps (written : AllWritten fromisoformat s) (c : CreateCall) :
    AllWritten fromisoformat (create fromisoformat sha256 c s).2 := by
  unfold create
  rw [run_require_bind]
  split
  · rw [run_bind]
    cases accepted : Approvals.normalizeExpiry (normalized fromisoformat) c.expiresAt with
    | error e => exact written
    | ok expiry =>
      simp only [run_ofExcept, run_bind_read, run_require_bind]
      split
      · intro row mem
        rcases Table.mem_replace.mp mem with ⟨earlier, -⟩ | rfl
        · exact written row earlier
        · exact ⟨⟨_, c.expiresAt, expiry, accepted, rfl, rfl⟩, fun text stored => by cases stored⟩
      · exact written
  · exact written

theorem authenticate_keeps (written : AllWritten fromisoformat s) (token : String)
    (now : Datetime) : AllWritten fromisoformat (authenticate sha256 token now s).2 := by
  unfold authenticate
  rw [run_bind_read]
  cases (s.find (sha256 token)).filter (TokenRow.live now.isoformat) with
  | none => exact written
  | some row =>
    intro updated mem
    obtain ⟨old, earlier, origin⟩ := Table.origin_of_updated (used_digest now.isoformat) mem
    rw [← origin]
    split
    · exact used_written (written old earlier) now.isoformat
    · exact written old earlier

theorem revokeWhere_keeps (written : AllWritten fromisoformat s) (p : TokenRow → Bool)
    (now : Datetime) : AllWritten fromisoformat (revokeWhere p now s).2 := by
  intro row mem
  obtain ⟨old, earlier, origin⟩ := Table.origin_of_updated (revoke_digest now.isoformat) mem
  rw [← origin]
  split
  · exact revoke_written (written old earlier) now
  · exact written old earlier

theorem call_keeps (s : Tokens) (c : Call) (written : AllWritten fromisoformat s) :
    AllWritten fromisoformat (call fromisoformat sha256 s c).2 := by
  cases c with
  | create c =>
    rw [call, answer_state]
    exact create_keeps written c
  | authenticate token now =>
    rw [call, answer_state]
    exact authenticate_keeps written token now
  | revoke ident ownerId now =>
    exact revokeWhere_keeps written _ now
  | revokeOwned ownerId now =>
    exact revokeWhere_keeps written _ now

theorem run_written (calls : List Call) :
    AllWritten fromisoformat (final (call fromisoformat sha256) Table.empty calls) :=
  final_invariant call_keeps (fun row mem => by cases mem) calls

/-- `fromisoformat` reads back what `isoformat` writes. -/
def Inverts (fromisoformat : String → Option Moment) : Prop :=
  ∀ t, Real t → ∃ moment, fromisoformat t.isoformat = some moment ∧ moment.wall = t ∧
    moment.offset = some 0

theorem replaceZ_isoformat (t : Datetime) : replaceZ t.isoformat = t.isoformat := by
  have plain : 'Z' ∉ t.isoformat.toList := AuditText.notMem_isoformat (by decide) (by decide) t
  have single : t.isoformat.toList.flatMap (fun c => if c = 'Z' then "+00:00".toList else [c]) =
      t.isoformat.toList := by
    rw [flatMap_congr (g := fun c => [c]), flatMap_singleton']
    intro c mem
    rw [if_neg]
    rintro rfl
    exact plain mem
  rw [replaceZ, single, String.ofList_toList]

theorem active_unless (instant now : Int) :
    (if instant ≤ now then TokenState.expired else .active) = .active ↔ now < instant := by
  by_cases past : instant ≤ now
  · simp only [past, if_true, reduceCtorEq, false_iff]
    omega
  · simp only [past, if_false, true_iff]
    omega

theorem state_active (inverts : Inverts fromisoformat) (written : Written fromisoformat row)
    (real : Real now) :
    tokenState fromisoformat row.revokedAt row.expiresAt now = .active ↔ row.live now.isoformat = true := by
  obtain ⟨deadline, holds⟩ := written.expires
  rw [live_exact holds real]
  unfold tokenState
  cases revocation : row.revokedAt with
  | some text =>
    have filled := written.revoked text revocation
    simp [filled]
  | none =>
    simp only [any_none, Bool.false_eq_true, if_false, isNone_none, Bool.true_and]
    rcases holds_cases holds with ⟨column, rfl⟩ | ⟨t, realExpiry, column, rfl⟩
    · rw [column]
      simp [ahead]
    · obtain ⟨moment, parsed, wall, offset⟩ := inverts t realExpiry
      have instant : moment.instant = instantOf t := by
        rw [Moment.instant, wall, offset, getD_some, Int.sub_zero]
      rw [column, filter_some, if_pos (by simp [isoformat_ne_empty])]
      dsimp only
      rw [replaceZ_isoformat, parsed]
      dsimp only
      rw [instant, active_unless, ahead, all_some, decide_eq_true_eq]

theorem checked_expiry {moment : String → Except Exc Datetime} {c : GrantCall} {expiry : Option Datetime}
    (checked : Approvals.checkGrant moment c = .ok expiry) :
    Approvals.normalizeExpiry moment c.expiresAt = .ok expiry := by
  have valid := ApprovalConstraints.checked_valid checked
  unfold Approvals.checkGrant at checked
  rw [valid] at checked
  split at checked
  next => cases checked
  next => exact checked

def GrantsWritten (fromisoformat : String → Option Moment) (s : SQLite.TextGrants) : Prop :=
  ∀ row ∈ s, ∃ deadline, Holds fromisoformat row.expiresAt deadline

theorem approval_call_keeps (s : SQLite.TextGrants) (c : Approvals.Call)
    (written : GrantsWritten fromisoformat s) :
    GrantsWritten fromisoformat (Approvals.SQLite.call (normalized fromisoformat) s c).2 := by
  cases c with
  | grant c =>
    rw [Approvals.SQLite.call, answer_state]
    unfold Approvals.SQLite.grant
    rw [run_bind]
    cases checked : Approvals.checkGrant (normalized fromisoformat) c with
    | error e => exact written
    | ok expiry =>
      have accepted := checked_expiry checked
      rw [run_ofExcept]
      cases Approvals.SQLite.constraintText c.argumentConstraints with
      | error e => exact written
      | ok text =>
        intro row mem
        rcases Table.mem_replace.mp mem with ⟨earlier, -⟩ | rfl
        · exact written row earlier
        · exact ⟨_, c.expiresAt, expiry, accepted, rfl, rfl⟩
  | revoke principal tool now =>
    intro row mem
    obtain ⟨old, earlier, origin⟩ :=
      Table.origin_of_updated (Approvals.withRevoked_place now.isoformat) mem
    obtain ⟨deadline, holds⟩ := written old earlier
    rw [← origin]
    refine ⟨deadline, ?_⟩
    split
    · exact holds
    · exact holds
  | allows principal tool now arguments => exact written
  | activeCount principal now => exact written

theorem grants_written (calls : List Approvals.Call) : GrantsWritten fromisoformat
    (final (Approvals.SQLite.call (normalized fromisoformat)) Table.empty calls) :=
  final_invariant approval_call_keeps (fun row mem => by cases mem) calls

end Columns

instance (d : Date) : Decidable d.Real :=
  decidable_of_iff (1 ≤ d.year ∧ (1 ≤ d.month ∧ d.month ≤ 12) ∧
      (1 ≤ d.day ∧ d.day ≤ monthLength d.year d.month))
    ⟨fun real => ⟨real.1, real.2.1, real.2.2⟩, fun real => ⟨real.year, real.month, real.day⟩⟩

/-- A number of fixed width, and what follows the mark after it. -/
def readField (width : Nat) (text : List Char) : Nat × List Char :=
  (Numbers.digitsValue (text.take width), text.drop (width + 1))

def datetimeOf (year month day hour minute second microsecond : Nat) : Option Datetime :=
  if valid : (1 ≤ year ∧ year ≤ 9999) ∧ (1 ≤ month ∧ month ≤ 12) ∧ (1 ≤ day ∧ day ≤ 31) ∧
      hour ≤ 23 ∧ minute ≤ 59 ∧ second ≤ 59 ∧ microsecond ≤ 999999 then
    some ⟨year, month, day, hour, minute, second, microsecond, valid⟩
  else none

/-- The microseconds after the seconds, none if there is no point. -/
def readFraction (text : List Char) : Nat :=
  if text.head? = some '.' then Numbers.digitsValue ((text.drop 1).take 6) else 0

def readFields (text : List Char) : Option Datetime :=
  let year := readField 4 text
  let month := readField 2 year.2
  let day := readField 2 month.2
  let hour := readField 2 day.2
  let minute := readField 2 hour.2
  datetimeOf year.1 month.1 day.1 hour.1 minute.1 (Numbers.digitsValue (minute.2.take 2))
    (readFraction (minute.2.drop 2))

theorem utc_bounded : -(dayLength : Int) < (some 0 : Option Int).getD 0 ∧
    (some 0 : Option Int).getD 0 < (dayLength : Int) := by decide

/-- A datetime of the calendar, in UTC. -/
def inUtc (t : Datetime) : Option Moment :=
  if real : (dateOf t).Real then some ⟨t, some 0, real, utc_bounded⟩ else none

instance (t : Datetime) : Decidable (Real t) := inferInstanceAs (Decidable (dateOf t).Real)

/-- Reads the texts that `isoformat` writes of UTC datetimes, and no others. -/
def readIso (text : String) : Option Moment :=
  ((readFields text.toList).filter (fun t => decide (t.isoformat = text))).bind inUtc

theorem readField_pad {width n : Nat} (fits : n < 10 ^ width) (c : Char) (rest : List Char) :
    readField width (pad width n ++ c :: rest) = (n, rest) := by
  have length := AuditText.pad_length width n
  have value := NumberText.pad_value width n
  rw [Nat.mod_eq_of_lt fits] at value
  have after : (pad width n ++ c :: rest).drop (width + 1) = rest := by
    rw [← drop_drop, drop_left' length, drop_one, tail_cons]
  rw [readField, take_left' length, value, after]

theorem readFraction_fraction {n : Nat} (fits : n ≤ 999999) (rest : List Char) :
    readFraction (fraction n ++ '+' :: rest) = n := by
  unfold readFraction fraction
  split
  next zero => simp [zero]
  next =>
    have value := NumberText.pad_value 6 n
    rw [Nat.mod_eq_of_lt (by omega)] at value
    simp only [cons_append, List.head?_cons, if_true, drop_one, tail_cons,
      take_left' (AuditText.pad_length 6 n), value]

theorem readFields_isoformat (t : Datetime) : readFields t.isoformat.toList = some t := by
  obtain ⟨year, month, day, hour, minute, second, microsecond, valid⟩ := t
  have value := NumberText.pad_value 2 second
  rw [Nat.mod_eq_of_lt (by omega)] at value
  unfold readFields
  simp only [Datetime.isoformat, String.toList_ofList, append_assoc, cons_append,
    readField_pad (show year < 10 ^ 4 by omega), readField_pad (show month < 10 ^ 2 by omega),
    readField_pad (show day < 10 ^ 2 by omega), readField_pad (show hour < 10 ^ 2 by omega),
    readField_pad (show minute < 10 ^ 2 by omega), take_left' (AuditText.pad_length 2 second),
    drop_left' (AuditText.pad_length 2 second), value,
    readFraction_fraction (show microsecond ≤ 999999 by omega), datetimeOf, valid, dif_pos, and_self]

theorem readIso_inverts : Inverts readIso := by
  intro t real
  refine ⟨⟨t, some 0, real, utc_bounded⟩, ?_, rfl, rfl⟩
  have calendar : (dateOf t).Real := real
  rw [readIso, readFields_isoformat, filter_some, if_pos (by simp), bind_some, inUtc,
    dif_pos calendar]

/-- Grants and tokens are live exactly while the instant of their expiry lies ahead: to `allows` and
`active_count` at any moment that can be shifted to UTC, and to `authenticate`. Of every token of a
run, introspection says that it is active exactly when authentication would succeed then. -/
theorem expiry_by_time (fromisoformat : String → Option Moment) (sha256 : String → String)
    (inverts : Inverts fromisoformat) :
    (∀ calls, ∀ row ∈ final (Approvals.SQLite.call (normalized fromisoformat)) Table.empty calls,
      ∃ deadline, Holds fromisoformat row.expiresAt deadline) ∧
    (∀ calls, ∀ row ∈ final (call fromisoformat sha256) Table.empty calls,
      ∃ deadline, Holds fromisoformat row.expiresAt deadline) ∧
    (∀ (s : SQLite.TextGrants) (principal tool : String) (now : Moment) (current : Datetime)
      (row : Grant String String) (deadline : Option Int) (arguments : Json),
      utcMoment now = .ok current → s.find (principal, tool) = some row →
      Holds fromisoformat row.expiresAt deadline →
        allows s principal tool now arguments =
          if row.revokedAt.isNone && ahead deadline now.instant then
            (Approvals.SQLite.readConstraints row.argumentConstraints).map (fun constraints =>
              Approvals.constraintsMatch constraints arguments)
          else .ok false) ∧
    (∀ (s : SQLite.TextGrants) (principal : String) (now : Moment) (current : Datetime)
      (deadline : Grant String String → Option Int), utcMoment now = .ok current →
      (∀ row ∈ s, Holds fromisoformat row.expiresAt (deadline row)) →
        activeCount s principal now = .ok (s.tally (fun row => decide (row.principal = principal) &&
          (row.revokedAt.isNone && ahead (deadline row) now.instant)))) ∧
    (∀ (now : Moment) (e : Exc), utcMoment now = .error e →
      dateOf now.wall = ⟨1, 1, 1⟩ ∨ dateOf now.wall = ⟨9999, 12, 31⟩) ∧
    (∀ (s : Tokens) (token : String) (now : Datetime) (row : TokenRow) (deadline : Option Int),
      Real now → s.find (sha256 token) = some row → Holds fromisoformat row.expiresAt deadline →
        (authenticate sha256 token now s).1 =
          .ok (if row.revokedAt.isNone && ahead deadline (instantOf now) then some (principalOf row)
            else none)) ∧
    ∀ calls token now found, Real now →
      introspect fromisoformat sha256 (final (call fromisoformat sha256) Table.empty calls) token now =
        some found →
      (found.state = .active ↔ ∃ principal, (authenticate sha256 token now
        (final (call fromisoformat sha256) Table.empty calls)).1 = .ok (some principal)) := by
  refine ⟨grants_written, fun calls row member => (run_written calls row member).expires, ?_, ?_,
    fun now e raised => utcMoment_error raised, ?_, ?_⟩
  · intro s principal tool now current row deadline arguments shifted found holds
    exact allows_exact shifted found holds arguments
  · intro s principal now current deadline shifted holds
    exact activeCount_exact shifted holds
  · intro s token now row deadline real found holds
    rw [authenticate_found found, live_exact holds real]
  · intro calls token now record real introspected
    have written := @run_written fromisoformat sha256 calls
    obtain ⟨row, found, rfl⟩ := map_eq_some_iff.mp introspected
    have active := state_active inverts (written row (Table.mem_of_find found)) real
    rw [authenticate_found found]
    change tokenState fromisoformat row.revokedAt row.expiresAt now = .active ↔ _
    rw [active]
    cases row.live now.isoformat with
    | true => simp
    | false => simp

theorem morning_valid : (1 ≤ 2024 ∧ 2024 ≤ 9999) ∧ (1 ≤ 5 ∧ 5 ≤ 12) ∧ (1 ≤ 1 ∧ 1 ≤ 31) ∧
    9 ≤ 23 ∧ 30 ≤ 59 ∧ 0 ≤ 59 ∧ 500 ≤ 999999 := by decide

def morning : Datetime := ⟨2024, 5, 1, 9, 30, 0, 500, morning_valid⟩

/-- A token that expires at noon. -/
def untilNoon : Call :=
  .create ⟨"ci", ["read"], some " 2024-05-01T12:00:00Z", none, "api", "t1", "s", morning⟩

/-- In the morning it is introspected as active, and so authenticates. -/
theorem token_until_noon :
    ∃ found, introspect readIso id (final (call readIso id) Table.empty [untilNoon]) "mee_s" morning =
        some found ∧
      found.state = .active ∧
      ∃ principal, (authenticate id "mee_s" morning
        (final (call readIso id) Table.empty [untilNoon])).1 = .ok (some principal) := by
  have state : (introspect readIso id (final (call readIso id) Table.empty [untilNoon]) "mee_s"
      morning).map Introspection.state = some .active := by decide +kernel
  obtain ⟨found, introspected, active⟩ := map_eq_some_iff.mp state
  obtain ⟨-, -, -, -, -, -, agree⟩ := expiry_by_time readIso id readIso_inverts
  exact ⟨found, introspected, active,
    (agree [untilNoon] "mee_s" morning found (by decide) introspected).mp active⟩

end Meemee.Guarantees.ExpiryText
