import Meemee.Guarantees.ApprovalConstraints
import Meemee.Guarantees.TimeText
import Meemee.Library.History

/-!
# The plan's limit on standing approvals

Whether a grant is active is asked with no arguments, which a grant with constraints never allows.
So the count stays within the limit in every run, but a request that replaces such a grant is
refused once the limit is reached, although it would add none.
-/
namespace Meemee.Guarantees.ApprovalLimit
open Library Library.History Source Source.Approvals Library.Table Option
open Source.DeviceProtocol (validateConstraints)
open Source.JobCreation (Failure)
open Source.WebhookRoutes (valueErrorAs found)
open Guarantees.ApprovalConstraints Guarantees.TimeText
open Guarantees.JsonLoading (Loadable)

/-- The grants, and the last reading of the clock. -/
structure Site where
  grants : SQLite.TextGrants
  clock : Datetime

/-- A grant request with a JSON body. -/
structure JsonRequest extends GrantRequest where
  loadable : Loadable argumentConstraints

inductive Request where
  | grant (r : JsonRequest)
  | revoke (principal tool : String) (now : Datetime)

def step (d : Deployment) (s : Site) : Request → Except Failure Unit × Site
  | .grant r =>
    let run := d.grantToolApproval s.grants r.toGrantRequest
    (run.1, ⟨run.2, r.granted⟩)
  | .revoke principal tool now =>
    let run := revokeToolApproval s.grants principal tool now
    (run.1, ⟨run.2, now⟩)

abbrev RequestEvent := Event Site Request (Except Failure Unit)

/-- The clock readings of a request follow one another, and those of the requests before it. -/
def Forward (e : RequestEvent) : Prop :=
  match e.action with
  | .grant r => e.before.clock ≤ r.asked ∧ r.asked ≤ r.counted ∧ r.counted ≤ r.granted
  | .revoke _ _ now => e.before.clock ≤ now

/-- The plan's limit on a principal's approvals. -/
def allowance (d : Deployment) (principal : String) : Nat :=
  d.entitlements.limit principal .persistentApprovals

/-- Now and later, no principal has more active grants than its plan allows. -/
def WithinLimit (d : Deployment) (s : Site) : Prop :=
  ∀ principal now, s.clock ≤ now → countActive s.grants principal now.isoformat ≤ allowance d principal

/-- The request is refused for the plan's limit. -/
def LimitRefused (e : RequestEvent) : Prop :=
  e.answer = .error (.http 403 "plan persistent approval limit reached")

/-- The grant that is active when a request asks. -/
def replaced (s : Site) (r : GrantRequest) : Option (Grant String String) :=
  activeGrant s.grants r.principal r.tool r.asked.isoformat

/-- Refused for the limit exactly when the tool has no active grant and the plan no room. -/
def Served (d : Deployment) (e : RequestEvent) : Prop :=
  match e.action with
  | .grant r =>
    (replaced e.before r.toGrantRequest ≠ none → ¬ LimitRefused e) ∧
    (replaced e.before r.toGrantRequest = none → (LimitRefused e ↔ r.tool ∈ d.tools ∧
      allowance d r.principal ≤ countActive e.before.grants r.principal r.counted.isoformat))
  | .revoke _ _ _ => True

/-- The constraints of a grant ask for some argument. -/
def Demands (row : Grant String String) : Prop :=
  ∃ field rest, SQLite.readConstraints row.argumentConstraints = .ok (.obj (field :: rest))

/-- A request for a known tool that replaces an active grant with constraints finds room. -/
def Clear (d : Deployment) (e : RequestEvent) : Prop :=
  match e.action with
  | .grant r => r.tool ∈ d.tools → ∀ row, replaced e.before r.toGrantRequest = some row → Demands row →
      countActive e.before.grants r.principal r.counted.isoformat < allowance d r.principal
  | .revoke _ _ _ => True

/-- What `grant` puts into the text columns. -/
structure Written (row : Grant String String) : Prop where
  constraints : ∃ value, Loadable value ∧ validateConstraints value = .ok () ∧
    SQLite.constraintText value = .ok row.argumentConstraints
  expiry : ∃ moment : Option Datetime, row.expiresAt = moment.map Datetime.isoformat

def AllWritten (s : Site) : Prop := ∀ row ∈ s.grants, Written row

variable {row : Grant String String} {t u : Datetime} {s : Site}

theorem active_iff {moment : Option Datetime}
    (expires : row.expiresAt = moment.map Datetime.isoformat) (now : Datetime) :
    row.active now.isoformat = true ↔
      row.revokedAt.isNone = true ∧ ∀ expiry, moment = some expiry → now < expiry := by
  rw [Grant.active, expires, Bool.and_eq_true, all_map, all_eq_true]
  simp only [decide_eq_true_eq, isoformat_lt]

theorem active_earlier (written : Written row) (earlier : t ≤ u)
    (active : row.active u.isoformat = true) : row.active t.isoformat = true := by
  obtain ⟨moment, expires⟩ := written.expiry
  obtain ⟨standing, later⟩ := (active_iff expires u).mp active
  exact (active_iff expires t).mpr ⟨standing, fun expiry given =>
    Datetime.lt_of_le_of_lt earlier (later expiry given)⟩

theorem count_earlier (written : AllWritten s) (principal : String) (earlier : t ≤ u)
    (p : Grant String String → Bool) :
    s.grants.tally (fun row => activeOf principal u.isoformat row && p row) ≤
      s.grants.tally (fun row => activeOf principal t.isoformat row && p row) := by
  apply tally_le
  intro row mem counted
  simp only [activeOf, Bool.and_eq_true] at counted ⊢
  exact ⟨⟨counted.1.1, active_earlier (written row mem) earlier counted.1.2⟩, counted.2⟩

theorem allows_iff (written : AllWritten s) (principal tool : String) (now : Datetime) :
    ∃ allowed, SQLite.allows s.grants principal tool now .null = .ok allowed ∧
      (allowed = true ↔ ∃ row, activeGrant s.grants principal tool now.isoformat = some row ∧
        ¬ Demands row) := by
  rw [SQLite.allows]
  cases held : activeGrant s.grants principal tool now.isoformat with
  | none => exact ⟨false, rfl, by simp⟩
  | some row =>
    have mem : row ∈ s.grants := mem_of_find (filter_eq_some_iff.mp held).1
    obtain ⟨value, loadable, valid, text⟩ := (written row mem).constraints
    have read := constraints_read loadable valid text
    refine ⟨constraintsMatch value.sortKeys .null, by simp only [read]; rfl, ?_⟩
    have demands : Demands row ↔ ∃ field rest, value.sortKeys = .obj (field :: rest) := by
      unfold Demands
      rw [read]
      simp only [Except.ok.injEq]
    have only : (∃ other, some row = some other ∧ ¬ Demands other) ↔ ¬ Demands row := by simp
    rw [only, demands]
    rcases validated_cases valid with rfl | ⟨fields, rfl, finite⟩
    · simp [constraintsMatch, Json.sortKeys]
    · have sortedFinite := finite_sorted (.obj fields)
      rw [Json.sortKeys] at sortedFinite ⊢
      cases sorted : (Json.sortFields fields).insertionSort (fun a b => a.1 ≤ b.1) with
      | nil => simp [constraintsMatch, DeviceProtocol.finiteFields, suppliedFields, equalFields]
      | cons field rest =>
        simp [constraintsMatch, suppliedFields, equalFields]

/-- The row a grant writes. -/
def grantedRow (c : GrantCall) (expiry : Option Datetime) (text : Option String) : Grant String String :=
  ⟨c.principal, c.tool, c.now.isoformat, expiry.map Datetime.isoformat, none, c.grantedBy, text⟩

theorem grant_cases (moment : String → Except Exc Datetime) (c : GrantCall) (s : SQLite.TextGrants) :
    (∃ e, SQLite.grant moment c s = (.error e, s)) ∨
    ∃ expiry text, validateConstraints c.argumentConstraints = .ok () ∧
      SQLite.constraintText c.argumentConstraints = .ok text ∧
      SQLite.grant moment c s = (.ok (), s.replace (grantedRow c expiry text)) := by
  unfold SQLite.grant
  cases checked : checkGrant moment c with
  | error e => exact .inl ⟨e, rfl⟩
  | ok expiry =>
    have valid := checked_valid checked
    cases written : SQLite.constraintText c.argumentConstraints with
    | error e => exact .inl ⟨e, rfl⟩
    | ok text => exact .inr ⟨expiry, text, valid, rfl, rfl⟩

section Step

variable {d : Deployment} {s : Site}

/-- A request for a known tool is refused for the limit, or goes on to `grant`. -/
theorem request_cases (written : AllWritten s) (r : GrantRequest) (known : r.tool ∈ d.tools) :
    ((∀ row, replaced s r = some row → Demands row) ∧ d.room s.grants r = false ∧
      d.grantToolApproval s.grants r =
        (.error (.http 403 "plan persistent approval limit reached"), s.grants)) ∨
    (((∃ row, replaced s r = some row ∧ ¬ Demands row) ∨ d.room s.grants r = true) ∧
      d.grantToolApproval s.grants r =
        ((SQLite.grant d.moment r.call s.grants).1.mapError (valueErrorAs 422),
          (SQLite.grant d.moment r.call s.grants).2)) := by
  obtain ⟨allowed, asked, active⟩ := allows_iff written r.principal r.tool r.asked
  unfold Deployment.grantToolApproval
  rw [if_neg (by simpa using known), asked]
  cases allowed with
  | true => exact .inr ⟨.inl (active.mp rfl), rfl⟩
  | false =>
    cases room : d.room s.grants r with
    | true => exact .inr ⟨.inr rfl, by simp⟩
    | false =>
      refine .inl ⟨?_, rfl, by simp⟩
      intro row held
      by_contra open_
      exact absurd (active.mpr ⟨row, held, open_⟩) Bool.false_ne_true

theorem request_unknown (s : SQLite.TextGrants) (r : GrantRequest) (unknown : r.tool ∉ d.tools) :
    d.grantToolApproval s r = (.error (.http 422 "unknown tool"), s) := by
  unfold Deployment.grantToolApproval
  rw [if_pos (by simpa using unknown)]

theorem request_effect (written : AllWritten s) (r : GrantRequest) :
    (d.grantToolApproval s.grants r).2 = s.grants ∨
    ∃ expiry text, validateConstraints r.argumentConstraints = .ok () ∧
      SQLite.constraintText r.argumentConstraints = .ok text ∧
      ((∃ row, replaced s r = some row ∧ ¬ Demands row) ∨ d.room s.grants r = true) ∧
      (d.grantToolApproval s.grants r).2 = s.grants.replace (grantedRow r.call expiry text) := by
  by_cases known : r.tool ∈ d.tools
  · rcases request_cases written r known with ⟨-, -, run⟩ | ⟨admitted, run⟩
    · exact .inl (by rw [run])
    · rw [run]
      rcases grant_cases d.moment r.call s.grants with ⟨e, refused⟩ | ⟨expiry, text, valid, encoded, done⟩
      · exact .inl (by rw [refused])
      · exact .inr ⟨expiry, text, valid, encoded, admitted, by rw [done]⟩
  · exact .inl (by rw [request_unknown s.grants r known])

theorem written_revoked (written : Written row) (at_ : String) :
    Written (withRevoked at_ row) := ⟨written.constraints, written.expiry⟩

theorem step_written (written : AllWritten s) (request : Request) :
    AllWritten (step d s request).2 := by
  cases request with
  | grant r =>
    intro row mem
    rcases request_effect (d := d) written r.toGrantRequest with
      same | ⟨expiry, text, valid, encoded, -, after⟩
    · rw [step, same] at mem
      exact written row mem
    · rw [step, after, mem_replace] at mem
      rcases mem with ⟨old, -⟩ | rfl
      · exact written row old
      · exact ⟨⟨r.argumentConstraints, r.loadable, valid, encoded⟩, ⟨expiry, rfl⟩⟩
  | revoke principal tool now =>
    intro row mem
    obtain ⟨old, stored, here⟩ := origin_of_updated (withRevoked_place _) mem
    rw [← here]
    split
    · exact written_revoked (written old stored) _
    · exact written old stored

/-- The grants of other tools that are active. -/
def others (s : Site) (principal : String) (place : String × String) (now : Datetime) : Nat :=
  s.grants.tally (fun row => activeOf principal now.isoformat row && !decide (row.place = place))

theorem others_earlier (written : AllWritten s) (principal : String) (place : String × String)
    (earlier : t ≤ u) : others s principal place u ≤ others s principal place t :=
  count_earlier written principal earlier _

theorem others_le (s : Site) (principal : String) (place : String × String) (now : Datetime) :
    others s principal place now ≤ countActive s.grants principal now.isoformat :=
  tally_le (fun _ _ counted => (Bool.and_eq_true _ _ ▸ counted).1)

theorem others_replaced {r : GrantRequest} (held : replaced s r = some row) :
    others s r.principal (r.principal, r.tool) r.asked + 1 =
      countActive s.grants r.principal r.asked.isoformat := by
  obtain ⟨found, active⟩ := filter_eq_some_iff.mp held
  have place : row.place = (r.principal, r.tool) := key_of_find found
  have counted := tally_apart (mem_of_find found) (activeOf r.principal r.asked.isoformat)
  have one : Table.weight (activeOf r.principal r.asked.isoformat) row = 1 := by
    have owner : row.principal = r.principal := congrArg Prod.fst place
    rw [Table.weight, activeOf, active, owner, decide_eq_true rfl]
    rfl
  rw [one, place] at counted
  exact counted

/-- A request that was admitted has room for its grant at every later moment. -/
theorem others_admitted (written : AllWritten s) (within : WithinLimit d s) {r : JsonRequest}
    (forward : s.clock ≤ r.asked ∧ r.asked ≤ r.counted ∧ r.counted ≤ r.granted)
    (admitted : (∃ row, replaced s r.toGrantRequest = some row ∧ ¬ Demands row) ∨
      d.room s.grants r.toGrantRequest = true) {now : Datetime} (later : r.granted ≤ now) :
    others s r.principal (r.principal, r.tool) now + 1 ≤ allowance d r.principal := by
  obtain ⟨first, second, third⟩ := forward
  rcases admitted with ⟨row, held, -⟩ | room
  · have fewer := others_earlier written r.principal (r.principal, r.tool)
      (Datetime.le_trans second (Datetime.le_trans third later))
    have counted := others_replaced held
    have bound := within r.principal r.asked first
    omega
  · have fewer := others_earlier written r.principal (r.principal, r.tool)
      (Datetime.le_trans third later)
    have counted := others_le s r.principal (r.principal, r.tool) r.counted
    have bound : countActive s.grants r.principal r.counted.isoformat < allowance d r.principal :=
      of_decide_eq_true room
    omega

theorem revoked_count (s : SQLite.TextGrants) (principal tool owner : String) (at_ current : String) :
    countActive (revokeGrant principal tool at_ s).2 owner current ≤ countActive s owner current := by
  apply tally_update_le (withRevoked_place at_)
  intro row _ _ counted
  simp [activeOf, Grant.active, withRevoked] at counted

theorem step_within (written : AllWritten s) (within : WithinLimit d s) (request : Request)
    (forward : Forward ⟨s, request, (step d s request).1, (step d s request).2⟩) :
    WithinLimit d (step d s request).2 := by
  cases request with
  | revoke principal tool now =>
    intro owner moment later
    exact Nat.le_trans (revoked_count s.grants principal tool owner _ _)
      (within owner moment (Datetime.le_trans forward later))
  | grant r =>
    intro owner moment later
    have sooner : s.clock ≤ moment :=
      Datetime.le_trans forward.1 (Datetime.le_trans forward.2.1 (Datetime.le_trans forward.2.2 later))
    rcases request_effect (d := d) written r.toGrantRequest with
      same | ⟨expiry, text, -, -, admitted, after⟩
    · rw [step, same]
      exact within owner moment sooner
    · rw [step, after]
      change (s.grants.replace (grantedRow r.call expiry text)).tally _ ≤ _
      rw [tally_replace]
      have counted := others_le s owner (r.principal, r.tool) moment
      by_cases own : r.principal = owner
      · subst own
        have room := others_admitted written within forward admitted later
        have one : Table.weight (activeOf r.principal moment.isoformat)
            (grantedRow r.call expiry text) ≤ 1 := by
          unfold Table.weight
          split <;> omega
        exact Nat.le_trans (Nat.add_le_add_left one _) room
      · have none : Table.weight (activeOf owner moment.isoformat) (grantedRow r.call expiry text) = 0 := by
          have other : decide ((grantedRow r.call expiry text).principal = owner) = false :=
            decide_eq_false own
          rw [Table.weight, activeOf, other, Bool.false_and, if_neg Bool.false_ne_true]
        rw [none]
        exact Nat.le_trans counted (within owner moment sooner)

end Step

variable {d : Deployment}

theorem grant_unlimited (run : Except Exc Unit) :
    run.mapError (valueErrorAs 422) ≠ .error (.http 403 "plan persistent approval limit reached") := by
  intro same
  cases run with
  | ok _ => cases same
  | error e => cases e <;> cases same

theorem served_iff {e : RequestEvent} (written : AllWritten e.before)
    (stepped : step d e.before e.action = (e.answer, e.after)) : Served d e ↔ Clear d e := by
  obtain ⟨s, request, answer, after⟩ := e
  cases request with
  | revoke => exact Iff.rfl
  | grant r =>
    have answered : (d.grantToolApproval s.grants r.toGrantRequest).1 = answer :=
      congrArg Prod.fst stepped
    have roomless : d.room s.grants r.toGrantRequest = false ↔ allowance d r.principal ≤
        countActive s.grants r.principal r.counted.isoformat := by
      rw [← Nat.not_lt]
      exact decide_eq_false_iff_not
    unfold Served Clear LimitRefused
    rw [← answered]
    by_cases known : r.tool ∈ d.tools
    · rcases request_cases written r.toGrantRequest known with ⟨demands, full, run⟩ | ⟨admitted, run⟩
      · rw [run]
        have reached := roomless.mp full
        constructor
        · rintro ⟨kept, -⟩ - row held
          exact absurd rfl (kept (by rw [held]; exact some_ne_none row))
        · intro clear
          refine ⟨fun held => ?_, fun _ => ⟨fun _ => ⟨known, reached⟩, fun _ => rfl⟩⟩
          obtain ⟨row, held⟩ := ne_none_iff_exists'.mp held
          have room := clear known row held (demands row held)
          exact absurd reached (Nat.not_le_of_lt room)
      · rw [run]
        have unlimited := grant_unlimited (SQLite.grant d.moment r.toGrantRequest.call s.grants).1
        constructor
        · rintro ⟨-, refused⟩ - row held demands
          rcases admitted with ⟨other, same, open_⟩ | room
          · rw [held] at same
            cases same
            exact absurd demands open_
          · exact of_decide_eq_true room
        · intro clear
          refine ⟨fun _ => unlimited, fun absent => ⟨fun limit => absurd limit unlimited, ?_⟩⟩
          rintro ⟨-, reached⟩
          rcases admitted with ⟨other, same, -⟩ | room
          · rw [absent] at same
            cases same
          · rw [roomless.mpr reached] at room
            cases room
    · rw [request_unknown s.grants r.toGrantRequest known]
      constructor
      · exact fun _ here => absurd here known
      · intro _
        have unlimited : (Except.error (.http 422 "unknown tool") : Except Failure Unit) ≠
            .error (.http 403 "plan persistent approval limit reached") := by simp
        exact ⟨fun _ => unlimited, fun _ => ⟨fun limit => absurd limit unlimited,
          fun here => absurd here.1 known⟩⟩

theorem unserved {r : JsonRequest} (held : (replaced s r.toGrantRequest).isSome = true)
    (refused : (step d s (.grant r)).1 =
      .error (.http 403 "plan persistent approval limit reached")) :
    ¬ Served d ⟨s, .grant r, (step d s (.grant r)).1, (step d s (.grant r)).2⟩ := by
  rintro ⟨kept, -⟩
  exact kept (isSome_iff_ne_none.mp held) refused

/-- In a run of requests under one plan that starts within the limit, all that is claimed holds at
every request and in every state exactly when every request is clear. -/
theorem served_iff_clear {s : Site} (written : AllWritten s) (start : WithinLimit d s)
    (requests : List Request) (forward : ∀ e ∈ history (step d) s requests, Forward e) :
    (∀ e ∈ history (step d) s requests,
      Served d e ∧ WithinLimit d e.before ∧ WithinLimit d e.after) ↔
      ∀ e ∈ history (step d) s requests, Clear d e := by
  have sound := (@invariant_of_meets _ _ _ (step d) (fun s => AllWritten s ∧ WithinLimit d s) Forward
    (fun s request both forward => ⟨step_written both.1 request,
      step_within both.1 both.2 request forward⟩)
    s ⟨written, start⟩ requests forward).1
  constructor
  · intro kept e member
    exact (served_iff (sound e member).1.1 (step_of_mem member)).mp (kept e member).1
  · intro clear e member
    obtain ⟨before, after⟩ := sound e member
    exact ⟨(served_iff before.1 (step_of_mem member)).mpr (clear e member), before.2, after.2⟩

section Starter

/-- Ten tools, under the starter plan: ten approvals. -/
def toolNames : List String := ["t0", "t1", "t2", "t3", "t4", "t5", "t6", "t7", "t8", "t9"]

def starter : Deployment := ⟨⟨Table.empty, .starter⟩, toolNames, fun _ => .error (.valueError "")⟩

theorem noon_valid : (1 ≤ 2024 ∧ 2024 ≤ 9999) ∧ (1 ≤ 5 ∧ 5 ≤ 12) ∧ (1 ≤ 1 ∧ 1 ≤ 31) ∧
    12 ≤ 23 ∧ 0 ≤ 59 ∧ 0 ≤ 59 ∧ 0 ≤ 999999 := by decide

def noon : Datetime := ⟨2024, 5, 1, 12, 0, 0, 0, noon_valid⟩

def demand : Json := .obj [("path", .int 1)]

theorem demand_loadable : Loadable demand := ⟨List.nodup_singleton _, trivial, trivial⟩

/-- A grant of a tool to ana, whose constraints demand an argument. -/
def grantTo (tool : String) : JsonRequest :=
  { principal := "ana", tool := tool, expiresAt := none, argumentConstraints := demand, asked := noon,
    counted := noon, granted := noon, loadable := demand_loadable }

theorem demand_text : SQLite.constraintText demand = .ok (some "\x7b\"path\": 1\x7d") := by
  decide +kernel

/-- The row of such a grant. -/
def rowOf (tool : String) : Grant String String :=
  grantedRow (grantTo tool).call none (some "\x7b\"path\": 1\x7d")

theorem places_distinct : ((toolNames.map rowOf).map Grant.place).Nodup := by decide

/-- Every tool is granted: the plan has no more room. -/
def full : Site := ⟨⟨toolNames.map rowOf, places_distinct⟩, noon⟩

theorem rowOf_written (tool : String) : Written (rowOf tool) :=
  ⟨⟨demand, demand_loadable, rfl, demand_text⟩, ⟨none, rfl⟩⟩

theorem full_written : AllWritten full := by
  intro row mem
  obtain ⟨tool, -, rfl⟩ := List.mem_map.mp mem
  exact rowOf_written tool

theorem full_within : WithinLimit starter full := by
  intro principal now later
  exact Nat.le_trans (List.length_filter_le _ _) (Nat.le_refl 10)

/-- The grant of a tool again. -/
def regrant : List Request := [.grant (grantTo "t9")]

theorem regrant_forward : ∀ e ∈ history (step starter) full regrant, Forward e := by
  intro e mem
  obtain rfl := List.mem_singleton.mp mem
  exact ⟨Nat.le_refl _, Nat.le_refl _, Nat.le_refl _⟩

theorem regrant_refused : (replaced full (grantTo "t9").toGrantRequest).isSome = true ∧
    (step starter full (.grant (grantTo "t9"))).1 =
      .error (.http 403 "plan persistent approval limit reached") := by
  decide +kernel

theorem replacement_refused : AllWritten full ∧ WithinLimit starter full ∧
    (∀ e ∈ history (step starter) full regrant, Forward e) ∧
    ¬ ∀ e ∈ history (step starter) full regrant, Served starter e := by
  refine ⟨full_written, full_within, regrant_forward, ?_⟩
  intro served
  exact unserved regrant_refused.1 regrant_refused.2 (served _ List.mem_cons_self)

theorem regrant_unclear : (history (step starter) full regrant).length = 1 ∧
    ((∀ e ∈ history (step starter) full regrant,
        Served starter e ∧ WithinLimit starter e.before ∧ WithinLimit starter e.after) ↔
      ∀ e ∈ history (step starter) full regrant, Clear starter e) :=
  ⟨rfl, served_iff_clear full_written full_within regrant regrant_forward⟩

end Starter

end Meemee.Guarantees.ApprovalLimit
