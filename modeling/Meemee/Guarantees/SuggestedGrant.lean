import Meemee.Guarantees.ApprovalMatching
import Meemee.Source.AgentLoop

/-!
# The grant that a refusal suggests

A refused call names the grant that would have allowed it: the tool, and the short scalar arguments
that redaction left alone. A call that passes the policy has no infinite argument, so the store
takes that grant, and from then on it allows the call; it also allows other calls of the tool whose
arguments agree on the pinned ones.
-/
namespace Meemee.Guarantees.SuggestedGrant
open Library Source Source.Approvals Source.Json List
open Source.AgentLoop (Redaction Refusal Reason pinnable constraintArguments redact redactFields
  refusal)
open Source.Policy (Risk Arguments PolicyEngine Matching)
open Source.DeviceProtocol (validateConstraints finiteJson finiteFields)
open Guarantees.ApprovalConstraints Guarantees.ApprovalMatching
open Guarantees.JsonLoading (Loadable LoadableFields byName)

variable {fields : List (String × Json)} {name : String}

theorem encoded_of_fields {options : DumpOptions} {texts : List String}
    (written : encodeFields options fields = .ok texts) {value : Json}
    (mem : (name, value) ∈ fields) : ∃ text, encode options value = .ok text := by
  induction fields generalizing texts with
  | nil => cases mem
  | cons field rest ih =>
    obtain ⟨text, first, others⟩ := Library.except_bind_returned written
    obtain ⟨more, tail, -⟩ := Library.except_bind_returned others
    rcases mem_cons.mp mem with here | later
    · subst here
      exact ⟨text, first⟩
    · exact ih tail later

theorem sortFields_mem {value : Json} (mem : (name, value) ∈ fields) :
    (name, value.sortKeys) ∈ sortFields fields := by
  induction fields with
  | nil => cases mem
  | cons field rest ih =>
    rcases mem_cons.mp mem with here | later
    · subst here
      exact mem_cons_self
    · exact mem_cons_of_mem _ (ih later)

theorem policy_finite {m : Matching} {engine : PolicyEngine} {tool : String} {arguments : Arguments}
    {risk : Risk} (passes : (engine.evaluate m tool arguments risk).allowed = true)
    {negative : Bool} : (name, Json.float (.infinity negative)) ∉ arguments := by
  intro mem
  unfold PolicyEngine.evaluate at passes
  split at passes
  next => cases passes
  split at passes
  next => cases passes
  split at passes
  next => cases passes
  next encoded written =>
    obtain ⟨texts, fields, -⟩ := Library.except_bind_returned written
    have sorted := (sorted_perm arguments).mem_iff.mpr (sortFields_mem mem)
    obtain ⟨text, finite⟩ := encoded_of_fields fields sorted
    cases finite

/-- A scalar of at most 500 characters. -/
def Short : Json → Prop
  | .str text => text.length ≤ 500
  | .int value => (toString value).length ≤ 500
  | .float (.finite repr) => repr.length ≤ 500
  | .bool _ => True
  | _ => False

variable {r : Redaction} {arguments : Arguments} {key : String} {value : Json}

theorem redact_pinned (pinned : pinnable (redact r value) = true) : redact r value = value := by
  cases value with
  | null | bool | int | float | object => rfl
  | arr | obj => cases pinned
  | str text =>
    rw [redact] at pinned ⊢
    split at pinned
    next => cases pinned
    next within => rw [if_neg within]

/-- A pinned argument is an argument of the call, under a key that is not sensitive. -/
theorem pinned_cases (mem : (key, value) ∈ constraintArguments r arguments) :
    (key, value) ∈ arguments ∧ r.sensitive key = false ∧ pinnable value = true := by
  obtain ⟨redacted, pinned⟩ := mem_filter.mp mem
  clear mem
  induction arguments with
  | nil => cases redacted
  | cons field rest ih =>
    rcases mem_cons.mp redacted with here | later
    · cases secret : r.sensitive field.1 with
      | true =>
        rw [secret, Prod.mk.injEq] at here
        rw [here.2] at pinned
        cases pinned
      | false =>
        rw [secret] at here
        obtain ⟨rfl, rfl⟩ := here
        have same := redact_pinned pinned
        rw [same]
        rw [same] at pinned
        exact ⟨mem_cons_self, secret, pinned⟩
    · obtain ⟨listed, plain⟩ := ih later
      exact ⟨mem_cons_of_mem _ listed, plain⟩

theorem redactFields_names (fields : Arguments) :
    (redactFields r fields).map Prod.fst = fields.map Prod.fst := by
  induction fields with
  | nil => rfl
  | cons field rest ih => rw [redactFields, map_cons, map_cons, ih]

theorem loadableFields_of_mem (each : ∀ name value, (name, value) ∈ fields → Loadable value) :
    LoadableFields fields := by
  induction fields with
  | nil => trivial
  | cons field rest ih =>
    exact ⟨each field.1 field.2 mem_cons_self,
      ih (fun name value later => each name value (mem_cons_of_mem _ later))⟩

theorem pinned_short (pinned : pinnable value = true) (finite : ∀ negative,
    value ≠ .float (.infinity negative)) : Short value ∧ finiteJson value = true := by
  cases value with
  | str text =>
    have within : text.length ≤ 500 := of_decide_eq_true pinned
    exact ⟨within, rfl⟩
  | int n =>
    have within : (toString n).length ≤ 500 := of_decide_eq_true pinned
    exact ⟨within, rfl⟩
  | bool b => exact ⟨trivial, rfl⟩
  | float f =>
    cases f with
    | finite repr =>
      have within : repr.length ≤ 500 := of_decide_eq_true pinned
      exact ⟨within, rfl⟩
    | nan => cases pinned
    | infinity negative => exact absurd rfl (finite negative)
  | null | arr | obj | object => cases pinned

/-- A passed call's pinned arguments: JSON constraints that agree with it. -/
structure Pins (r : Redaction) (arguments : Arguments) : Prop where
  loadable : Loadable (.obj (constraintArguments r arguments))
  valid : validateConstraints (.obj (constraintArguments r arguments)) = .ok ()
  agrees : Agrees (constraintArguments r arguments) arguments
  short : ∀ key value, (key, value) ∈ constraintArguments r arguments →
    r.sensitive key = false ∧ Short value

theorem pins_of_finite (loadable : Loadable (.obj arguments))
    (finite : ∀ name negative, (name, Json.float (.infinity negative)) ∉ arguments) :
    Pins r arguments := by
  have plain : ∀ key value, (key, value) ∈ constraintArguments r arguments →
      Short value ∧ finiteJson value = true := by
    intro key value mem
    obtain ⟨listed, -, pinned⟩ := pinned_cases mem
    refine pinned_short pinned (fun negative infinite => finite key negative ?_)
    rw [← infinite]
    exact listed
  have values : ∀ key value, (key, value) ∈ constraintArguments r arguments → Loadable value :=
    fun key value mem => loadable_field loadable.2 (pinned_cases mem).1
  have names : ((constraintArguments r arguments).map Prod.fst).Nodup := by
    have all : ((redactFields r arguments).map Prod.fst).Nodup := by
      rw [redactFields_names]
      exact loadable.1
    exact all.sublist (filter_sublist.map Prod.fst)
  refine ⟨⟨names, loadableFields_of_mem values⟩, ?_, ?_, ?_⟩
  · have fields : finiteFields (constraintArguments r arguments) = true :=
      finiteFields_iff.mpr (fun f mem => (plain f.1 f.2 mem).2)
    change (if finiteFields (constraintArguments r arguments) = true then _ else _) = _
    rw [if_pos fields]
  · intro key value mem
    exact ⟨value, (pinned_cases mem).1,
      same_refl value (values key value mem) (plain key value mem).2⟩
  · intro key value mem
    exact ⟨(pinned_cases mem).2.1, (plain key value mem).1⟩

/-- The row of a grant without an expiry allows what agrees with its constraints. -/
theorem allows_granted {s : SQLite.TextGrants} {principal tool : String} {now asked : Datetime}
    {grantedBy : String} {others : List (String × Json)} {text : Option String}
    (loadable : Loadable (.obj fields)) (valid : validateConstraints (.obj fields) = .ok ())
    (written : SQLite.constraintText (.obj fields) = .ok text) (given : Loadable (.obj others)) :
    SQLite.allows (s.replace ⟨principal, tool, now.isoformat, none, none, grantedBy, text⟩) principal
      tool asked (.obj others) = .ok true ↔ Agrees fields others := by
  have active : activeGrant (s.replace ⟨principal, tool, now.isoformat, none, none, grantedBy, text⟩)
      principal tool asked.isoformat =
        some ⟨principal, tool, now.isoformat, none, none, grantedBy, text⟩ := by
    rw [activeGrant, Table.find_replace]
    simp [Grant.place, Grant.active]
  rw [SQLite.allows, active]
  change (SQLite.readConstraints text).map _ = _ ↔ _
  rw [constraints_read loadable valid written]
  change Except.ok (constraintsMatch (Json.obj fields).sortKeys (.obj others)) = .ok true ↔ _
  rw [constraintsMatch_sorted, Except.ok.injEq, matched_iff loadable given valid]

/-- A call that passes the policy and is refused for lack of approval: the store accepts the
suggested grant, which then allows the refused arguments, and other arguments exactly when they
agree with the pinned ones; these are short scalars under keys that are not sensitive. -/
theorem grant_unblocks (agent : AgentLoop.Agent) (moment : String → Except Exc Datetime)
    (s : SQLite.TextGrants) (step : Nat) (name : String) (risk : Risk) (detail : String)
    (arguments : Arguments) (owner grantedBy : String) (now : Datetime)
    (loadable : Loadable (.obj arguments))
    (passes : (agent.policy.evaluate agent.matching name arguments risk).allowed = true)
    (named : owner ≠ "" ∧ name ≠ "" ∧ grantedBy ≠ "") :
    ∃ pinned granted,
      (refusal agent.redaction step name risk .approvalRequired detail arguments).persistentGrant =
        some (name, pinned) ∧
      SQLite.grant moment ⟨owner, name, grantedBy, none, .obj pinned, now⟩ s = (.ok (), granted) ∧
      (∀ asked, SQLite.allows granted owner name asked (.obj arguments) = .ok true) ∧
      (∀ asked others, Loadable (.obj others) →
        (SQLite.allows granted owner name asked (.obj others) = .ok true ↔ Agrees pinned others)) ∧
      ∀ key value, (key, value) ∈ pinned → agent.redaction.sensitive key = false ∧ Short value := by
  have pins : Pins agent.redaction arguments :=
    pins_of_finite loadable (fun _ _ => policy_finite passes)
  obtain ⟨text, written⟩ := constraints_written pins.valid
  have checked : checkGrant moment ⟨owner, name, grantedBy, none,
      .obj (constraintArguments agent.redaction arguments), now⟩ = .ok none := by
    rw [checkGrant, if_neg (by simp [named])]
    rw [pins.valid]
    rfl
  exact ⟨constraintArguments agent.redaction arguments, _, rfl, sqlite_granted checked written,
    fun asked => (allows_granted pins.loadable pins.valid written loadable).mpr pins.agrees,
    fun asked others given => allows_granted pins.loadable pins.valid written given, pins.short⟩

/-- An agent with the default policy. -/
def plainAgent : AgentLoop.Agent where
  maxSteps := 12
  policy := { positive := Policy.default_positive }
  tools := fun _ => some .write
  matching := ⟨fun _ _ => false, id, fun _ => some ""⟩
  redaction := ⟨fun key => decide (key = "token"), id⟩

theorem morning_valid : (1 ≤ 2026 ∧ 2026 ≤ 9999) ∧ (1 ≤ 1 ∧ 1 ≤ 12) ∧ (1 ≤ 5 ∧ 5 ≤ 31) ∧
    9 ≤ 23 ∧ 0 ≤ 59 ∧ 0 ≤ 59 ∧ 0 ≤ 999999 := by decide

def morning : Datetime := ⟨2026, 1, 5, 9, 0, 0, 0, morning_valid⟩

/-- A call with a path and a list of lines. -/
def write (lines : List Json) : Arguments := [("path", .str "notes.txt"), ("lines", .arr lines)]

theorem write_loadable (n : Int) : Loadable (.obj (write [.int n])) :=
  ⟨by simp [write], trivial, ⟨trivial, trivial⟩, trivial⟩

theorem write_passes : (plainAgent.policy.evaluate plainAgent.matching "workspace.edit"
    (write [.int 1]) .write).allowed = true := by
  decide +kernel

theorem named : "ana" ≠ "" ∧ "workspace.edit" ≠ "" ∧ "admin" ≠ "" := by decide

/-- The suggested grant of the call with line 1 also allows the call with line 2. -/
theorem other_arguments_allowed :
    (plainAgent.policy.evaluate plainAgent.matching "workspace.edit" (write [.int 1]) .write).allowed =
        true ∧
      (refusal plainAgent.redaction 1 "workspace.edit" .write .approvalRequired "" (write [.int 1])
        ).persistentGrant = some ("workspace.edit", [("path", .str "notes.txt")]) ∧
      ∃ granted, SQLite.grant (fun _ => .error (.valueError "")) ⟨"ana", "workspace.edit", "admin",
          none, .obj [("path", .str "notes.txt")], morning⟩ Table.empty = (.ok (), granted) ∧
        SQLite.allows granted "ana" "workspace.edit" morning (.obj (write [.int 1])) = .ok true ∧
        SQLite.allows granted "ana" "workspace.edit" morning (.obj (write [.int 2])) = .ok true ∧
        write [.int 2] ≠ write [.int 1] := by
  have pinned : [("path", Json.str "notes.txt")] =
      constraintArguments plainAgent.redaction (write [.int 1]) := by rfl
  have pins : Pins plainAgent.redaction (write [.int 1]) :=
    pins_of_finite (write_loadable 1) (fun _ _ => policy_finite write_passes)
  obtain ⟨text, written⟩ := constraints_written pins.valid
  rw [← pinned] at written
  have agrees : ∀ n, Agrees [("path", Json.str "notes.txt")] (write [.int n]) := by
    intro n name a member
    cases mem_singleton.mp member
    exact ⟨_, mem_cons_self, Same.str _⟩
  have allowed : ∀ n, SQLite.allows (Table.empty.replace ⟨"ana", "workspace.edit", morning.isoformat,
      none, none, "admin", text⟩) "ana" "workspace.edit" morning (.obj (write [.int n])) = .ok true :=
    fun n => (allows_granted (by rw [pinned]; exact pins.loadable) (by rw [pinned]; exact pins.valid)
      written (write_loadable n)).mpr (agrees n)
  refine ⟨write_passes, rfl, _, sqlite_granted rfl written, allowed 1, allowed 2, ?_⟩
  intro same
  cases same

/-- Its grant, by the theorem. -/
theorem write_unblocked : Loadable (.obj (write [.int 1])) ∧
    ∃ pinned granted, SQLite.grant (fun _ => .error (.valueError ""))
        ⟨"ana", "workspace.edit", "admin", none, .obj pinned, morning⟩ Table.empty = (.ok (), granted) ∧
      ∀ asked, SQLite.allows granted "ana" "workspace.edit" asked (.obj (write [.int 1])) = .ok true := by
  obtain ⟨pinned, granted, -, done, allowed, -⟩ := grant_unblocks plainAgent
    (fun _ => .error (.valueError "")) Table.empty 1 "workspace.edit" .write "" (write [.int 1]) "ana"
    "admin" morning (write_loadable 1) write_passes named
  exact ⟨write_loadable 1, pinned, granted, done, allowed⟩

end Meemee.Guarantees.SuggestedGrant
