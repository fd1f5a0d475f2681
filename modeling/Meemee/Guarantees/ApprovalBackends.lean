import Meemee.Guarantees.JsonbColumn
import Meemee.Guarantees.TimeText
import Meemee.Library.History
import Meemee.Library.Pairing

/-!
# The two approval stores side by side

A `jsonb` column keeps the decimal that `repr` writes, and a decimal without a fraction comes back as
an integer. A double that is not that integer no longer equals itself. Up to such numbers, and to NUL
characters in texts, the stores answer every call alike.
-/
namespace Meemee.Guarantees.ApprovalBackends
open Library Library.History Source Source.Approvals Source.JsonbColumn Source.Numbers List
open Source.DeviceProtocol (validateConstraints finiteJson finiteItems finiteFields)
open Source.Json
open Source.PgJobs (storesText)
open Guarantees.ApprovalConstraints Guarantees.JsonbColumn Guarantees.TimeText
open Guarantees.JsonLoading (Loadable)

variable {repr principal tool : String} {value : Json} {column : Option Json} {c : GrantCall}

/-- The text column and the `jsonb` column of one value. -/
structure SameConstraints (text : Option String) (column : Option Json) (value : Json) : Prop where
  loadable : Loadable value
  valid : validateConstraints value = .ok ()
  prints : Prints value
  written : SQLite.constraintText value = .ok text
  stored : Postgres.constraintColumn value = .ok column

theorem constraints_stored (valid : validateConstraints value = .ok ())
    (plain : nulFree value = true) : (∃ text, SQLite.constraintText value = .ok text) ∧
      ∃ column, Postgres.constraintColumn value = .ok column := by
  refine ⟨constraints_written valid, ?_⟩
  rcases validated_cases valid with rfl | ⟨fields, rfl, finite⟩
  · exact ⟨none, rfl⟩
  · obtain ⟨stored, done⟩ := jsonb_stored (.obj fields) finite plain
    refine ⟨some stored, ?_⟩
    change (jsonb (.obj fields)).map some = _
    rw [done]
    rfl

/-- Constraints that come back from the column match as the constraints do. -/
theorem matched_stored {fields : List (String × Json)} {stored : Json} (prints : Prints (.obj fields))
    (done : jsonb (.obj fields) = .ok stored) (arguments : Json) :
    constraintsMatch stored arguments = constraintsMatch (.obj fields) arguments := by
  obtain ⟨others, inner, same⟩ := Library.except_bind_returned done
  cases same
  obtain ⟨-, finite, alike⟩ := jsonbFields_equal fields others prints inner
  change (finiteFields others && (suppliedFields arguments).any (equalFields others)) = _
  rw [finite, funext alike]
  rfl

theorem columns_match {text : Option String} (same : SameConstraints text column value)
    (arguments : Json) :
    (SQLite.readConstraints text).map (fun constraints => constraintsMatch constraints arguments) =
      .ok (constraintsMatch (column.getD .null) arguments) := by
  rw [constraints_read same.loadable same.valid same.written]
  change Except.ok (constraintsMatch value.sortKeys arguments) = _
  rw [constraintsMatch_sorted]
  have stored := same.stored
  rcases validated_cases same.valid with rfl | ⟨fields, rfl, -⟩
  · cases stored
    rfl
  · change (jsonb (.obj fields)).map some = .ok column at stored
    cases kept : jsonb (.obj fields) with
    | error e => rw [kept] at stored; cases stored
    | ok constraints =>
      rw [kept] at stored
      cases stored
      rw [Option.getD_some, matched_stored same.prints kept]

/-- One grant in the two stores. -/
structure SameGrant (a : Grant String String) (b : Grant Datetime Json) : Prop where
  place : a.place = b.place
  grantedAt : a.grantedAt = b.grantedAt.isoformat
  expiresAt : a.expiresAt = b.expiresAt.map Datetime.isoformat
  revokedAt : a.revokedAt = b.revokedAt.map Datetime.isoformat
  grantedBy : a.grantedBy = b.grantedBy
  constraints : ∃ value, SameConstraints a.argumentConstraints b.argumentConstraints value

/-- The two stores after the same calls. -/
def SameStores (s : SQLite.TextGrants) (u : Postgres.TypedGrants) : Prop := Table.Paired SameGrant s u

section Rows

variable {a : Grant String String} {b : Grant Datetime Json}

theorem SameGrant.revoked (same : SameGrant a b) : a.revokedAt.isNone = b.revokedAt.isNone := by
  rw [same.revokedAt, Option.isNone_map]

theorem SameGrant.active (same : SameGrant a b) (now : Datetime) :
    a.active now.isoformat = b.active now := by
  have later : (fun expiry : Datetime => decide (now.isoformat < expiry.isoformat)) =
      fun expiry => decide (now < expiry) := by
    funext expiry
    rw [decide_eq_decide, isoformat_lt]
  rw [Grant.active, Grant.active, same.revoked, same.expiresAt, Option.all_map, later]

theorem SameGrant.counted (same : SameGrant a b) (principal : String) (now : Datetime) :
    activeOf principal now.isoformat a = activeOf principal now b := by
  have owner : a.principal = b.principal := congrArg Prod.fst same.place
  rw [activeOf, activeOf, same.active, owner]

theorem SameGrant.stands (same : SameGrant a b) (principal tool : String) :
    standing principal tool a = standing principal tool b := by
  rw [standing, standing, same.place, same.revoked]

theorem SameGrant.withRevoked (same : SameGrant a b) (now : Datetime) :
    SameGrant (withRevoked now.isoformat a) (withRevoked now b) :=
  ⟨same.place, same.grantedAt, same.expiresAt, rfl, same.grantedBy, same.constraints⟩

end Rows

section Stores

variable {s : SQLite.TextGrants} {u : Postgres.TypedGrants}

theorem count_same (same : SameStores s u) (principal : String) (now : Datetime) :
    countActive s principal now.isoformat = countActive u principal now :=
  same.tally (fun _ _ related => related.counted principal now)

theorem activeGrant_same (same : SameStores s u) (principal tool : String) (now : Datetime) :
    Option.Rel SameGrant (activeGrant s principal tool now.isoformat) (activeGrant u principal tool now) := by
  have found := same.find (fun _ _ related => related.place) (principal, tool)
  unfold activeGrant
  cases left : s.find (principal, tool) with
  | none =>
    rw [Table.rel_none found left]
    exact .none
  | some a =>
    obtain ⟨b, right, related⟩ := Table.rel_some found left
    rw [right, Option.filter_some, Option.filter_some, related.active]
    split
    · exact .some related
    · exact .none

theorem allows_same (same : SameStores s u) (now : Datetime) (arguments : Json)
    (bound : storesText principal = true ∧ storesText tool = true) :
    SQLite.allows s principal tool now arguments = Postgres.allows u principal tool now arguments := by
  have held := activeGrant_same same principal tool now
  unfold SQLite.allows Postgres.allows Postgres.bindText
  rw [if_pos bound.1, if_pos bound.2]
  cases left : activeGrant s principal tool now.isoformat with
  | none =>
    rw [Table.rel_none held left]
    rfl
  | some a =>
    obtain ⟨b, right, related⟩ := Table.rel_some held left
    obtain ⟨value, columns⟩ := related.constraints
    rw [right]
    exact columns_match columns arguments

theorem revoke_same (same : SameStores s u) (principal tool : String) (now : Datetime) :
    (revokeGrant principal tool now.isoformat s).1 = (revokeGrant principal tool now u).1 ∧
      SameStores (revokeGrant principal tool now.isoformat s).2 (revokeGrant principal tool now u).2 := by
  have stands : ∀ a b, SameGrant a b → standing principal tool a = standing principal tool b :=
    fun _ _ related => related.stands principal tool
  refine ⟨?_, ?_⟩
  · rw [revokeGrant, revokeGrant, same.isEmpty stands]
  · exact same.update (withRevoked_place _) (withRevoked_place _) stands
      (fun _ _ related => related.withRevoked now)

end Stores

/-- A call of the claim's domain: the constraints of a grant are JSON without NUL characters. -/
def JsonCall : Call → Prop
  | .grant c => Loadable c.argumentConstraints ∧ nulFree c.argumentConstraints = true
  | .revoke _ _ _ | .allows _ _ _ _ | .activeCount _ _ => True

/-- The call binds no text with a NUL, and a grant that passes the checks has constraints that print. -/
def Alike (moment : String → Except Exc Datetime) : Call → Prop
  | .grant c => ∀ expiry, checkGrant moment c = .ok expiry → (storesText c.principal = true ∧
      storesText c.tool = true ∧ storesText c.grantedBy = true) ∧ Prints c.argumentConstraints
  | .revoke principal tool _ | .allows principal tool _ _ =>
    storesText principal = true ∧ storesText tool = true
  | .activeCount principal _ => storesText principal = true

section Calls

variable {moment : String → Except Exc Datetime} {s : SQLite.TextGrants} {u : Postgres.TypedGrants}

theorem grant_refused {c : GrantCall} {e : Exc} (checked : checkGrant moment c = .error e) :
    SQLite.grant moment c s = (.error e, s) ∧ Postgres.grant moment c u = (.error e, u) := by
  unfold SQLite.grant Postgres.grant
  rw [checked]
  exact ⟨rfl, rfl⟩

theorem postgres_granted {expiry : Option Datetime}
    (checked : checkGrant moment c = .ok expiry)
    (bound : storesText c.principal = true ∧ storesText c.tool = true ∧ storesText c.grantedBy = true)
    (stored : Postgres.constraintColumn c.argumentConstraints = .ok column) :
    Postgres.grant moment c u = (.ok (), u.replace ⟨c.principal, c.tool, c.now, expiry, none,
      c.grantedBy, column⟩) := by
  unfold Postgres.grant Postgres.bindText
  rw [checked, stored, if_pos bound.1, if_pos bound.2.1, if_pos bound.2.2]
  rfl

theorem postgres_revoked (now : Datetime)
    (bound : storesText principal = true ∧ storesText tool = true) :
    Postgres.revoke principal tool now u =
      (.ok (revokeGrant principal tool now u).1, (revokeGrant principal tool now u).2) := by
  unfold Postgres.revoke Postgres.bindText
  rw [if_pos bound.1, if_pos bound.2]
  rfl

theorem postgres_counted (now : Datetime) (bound : storesText principal = true) :
    Postgres.activeCount u principal now = .ok (countActive u principal now) := by
  unfold Postgres.activeCount Postgres.bindText
  rw [if_pos bound]
  rfl

theorem grant_same (same : SameStores s u) (json : JsonCall (.grant c))
    (alike : Alike moment (.grant c)) :
    (SQLite.call moment s (.grant c)).1 = (Postgres.call moment u (.grant c)).1 ∧
      SameStores (SQLite.call moment s (.grant c)).2 (Postgres.call moment u (.grant c)).2 := by
  rw [SQLite.call, Postgres.call]
  cases checked : checkGrant moment c with
  | error e =>
    obtain ⟨left, right⟩ := @grant_refused _ s u _ _ checked
    rw [Txn.answer_of_error left, Txn.answer_of_error right]
    exact ⟨rfl, same⟩
  | ok expiry =>
    obtain ⟨bound, prints⟩ := alike expiry checked
    have valid := checked_valid checked
    obtain ⟨⟨text, written⟩, column, stored⟩ := constraints_stored valid json.2
    rw [Txn.answer_of_ok (sqlite_granted checked written),
      Txn.answer_of_ok (postgres_granted checked bound stored)]
    exact ⟨rfl, same.replace (fun _ _ related => related.place)
      ⟨rfl, rfl, rfl, rfl, rfl, _, ⟨json.1, valid, prints, written, stored⟩⟩⟩

/-- Under the condition, both stores answer a call alike and stay the same. -/
theorem call_same (same : SameStores s u) {call : Call} (json : JsonCall call)
    (alike : Alike moment call) : (SQLite.call moment s call).1 = (Postgres.call moment u call).1 ∧
      SameStores (SQLite.call moment s call).2 (Postgres.call moment u call).2 := by
  cases call with
  | grant c => exact grant_same same json alike
  | revoke principal tool now =>
    obtain ⟨answers, stores⟩ := revoke_same same principal tool now
    rw [Postgres.call, Txn.answer_of_ok (postgres_revoked now alike), ← answers]
    exact ⟨rfl, stores⟩
  | allows principal tool now arguments =>
    rw [SQLite.call, allows_same same now arguments alike]
    exact ⟨rfl, same⟩
  | activeCount principal now =>
    rw [SQLite.call, Postgres.call, postgres_counted now alike, count_same same]
    exact ⟨rfl, same⟩

end Calls

/-- The two stores side by side. -/
structure Both where
  sqlite : SQLite.TextGrants
  postgres : Postgres.TypedGrants

def Both.step (moment : String → Except Exc Datetime) (s : Both) (call : Call) :
    (Except Exc Answer × Except Exc Answer) × Both :=
  (((SQLite.call moment s.sqlite call).1, (Postgres.call moment s.postgres call).1),
    ⟨(SQLite.call moment s.sqlite call).2, (Postgres.call moment s.postgres call).2⟩)

/-- In a run of calls from the same stores whose calls all meet the condition, both stores answer
every call alike. -/
theorem stores_agree (moment : String → Except Exc Datetime) {s : Both}
    (same : SameStores s.sqlite s.postgres) (calls : List Call) (json : ∀ call ∈ calls, JsonCall call)
    (alike : ∀ call ∈ calls, Alike moment call) :
    (∀ e ∈ history (Both.step moment) s calls, e.answer.1 = e.answer.2 ∧
      SameStores e.after.sqlite e.after.postgres) := by
  have run := (@invariant_of_meets _ _ _ (Both.step moment)
    (fun s => SameStores s.sqlite s.postgres) (fun e => JsonCall e.action ∧ Alike moment e.action)
    (fun s call same meets => (call_same same meets.1 meets.2).2) s same calls
    (fun e member => ⟨json _ (action_of_mem member), alike _ (action_of_mem member)⟩)).1
  intro e member
  refine ⟨?_, (run e member).2⟩
  have here := action_of_mem member
  have answers := (call_same (run e member).1 (json _ here) (alike _ here)).1
  have stepped : (Both.step moment e.before e.action).1 = e.answer :=
    congrArg Prod.fst (step_of_mem member)
  rw [← stepped]
  exact answers

section LargeFloat

def newStores : Both := ⟨Table.empty, Table.empty⟩

theorem newStores_same : SameStores newStores.sqlite newStores.postgres := Table.paired_empty

def noMoment (_ : String) : Except Exc Datetime := .error (.valueError "")

theorem noon_valid : (1 ≤ 2024 ∧ 2024 ≤ 9999) ∧ (1 ≤ 5 ∧ 5 ≤ 12) ∧ (1 ≤ 1 ∧ 1 ≤ 31) ∧
    12 ≤ 23 ∧ 0 ≤ 59 ∧ 0 ≤ 59 ∧ 0 ≤ 999999 := by decide

def noon : Datetime := ⟨2024, 5, 1, 12, 0, 0, 0, noon_valid⟩

/-- A constraint whose one value is a float. -/
def limited (repr : String) : Json := .obj [("limit", .float (.finite repr))]

/-- A grant with that constraint, and a call that it should allow. -/
def granted (repr : String) : List Call :=
  [.grant ⟨"ana", "pay", "admin", none, limited repr, noon⟩, .allows "ana" "pay" noon (limited repr)]

theorem limited_loadable
    (read : JsonLoads.readNumber repr.toList = some (.float (.finite repr), [])) :
    Loadable (limited repr) := ⟨nodup_singleton _, read, trivial⟩

theorem granted_json (read : JsonLoads.readNumber repr.toList = some (.float (.finite repr), [])) :
    ∀ call ∈ granted repr, JsonCall call := by
  intro call mem
  simp only [granted, mem_cons, not_mem_nil, or_false] at mem
  rcases mem with rfl | rfl
  · exact ⟨limited_loadable read, by simp [limited, nulFree, nulFreeFields]; decide⟩
  · trivial

theorem large_read : JsonLoads.readNumber "1e+23".toList = some (.float (.finite "1e+23"), []) := by rfl

theorem half_read : JsonLoads.readNumber "0.5".toList = some (.float (.finite "0.5"), []) := by rfl

/-- The double that `1e23` names is not that integer; and SQLite answers of a text with a NUL. -/
theorem large_float_disagrees : (∀ call ∈ granted "1e+23", JsonCall call) ∧
    (history (Both.step noMoment) newStores (granted "1e+23")).map Event.answer =
      [(.ok .done, .ok .done), (.ok (.flag true), .ok (.flag false))] ∧
    (Both.step noMoment newStores (.activeCount "\x00" noon)).1 =
      (.ok (.count 0), .error Postgres.nul) :=
  ⟨granted_json large_read, by decide +kernel, by decide +kernel⟩

theorem half_alike : ∀ call ∈ granted "0.5", Alike noMoment call := by
  intro call mem
  simp only [granted, mem_cons, not_mem_nil, or_false] at mem
  rcases mem with rfl | rfl
  · intro expiry checked
    exact ⟨by decide, ⟨fun whole => absurd whole (by decide), trivial⟩⟩
  · exact ⟨by decide, by decide⟩

theorem half_agrees : SameStores newStores.sqlite newStores.postgres ∧
    ∀ e ∈ history (Both.step noMoment) newStores (granted "0.5"), e.answer.1 = e.answer.2 ∧
      SameStores e.after.sqlite e.after.postgres :=
  ⟨newStores_same, stores_agree noMoment newStores_same _ (granted_json half_read) half_alike⟩

end LargeFloat

end Meemee.Guarantees.ApprovalBackends
