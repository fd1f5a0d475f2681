import Mathlib.Data.List.Induction
import Meemee.Source.ModelProfiles

/-!
# Routes of models

A routed call gives the result of the first usable profile that does not fail with a `ModelError`
and traces every profile it skipped or tried, if no profile it tries raises anything else. A paid
profile is called without a key or without leave where its transport returns before those checks, or
where its document says that it needs no key.
-/
namespace Meemee.Guarantees.ModelRouting
open Source Source.ModelProfiles List
open Source.Audit (truthy)

variable {ρ ε : Type}

/-- The call came to a `ModelError`. -/
def Fails (called : Called ρ ε) : Prop := ∃ text, called = .modelError text

/-- Every call before one failed. -/
def Reached (world : Nat → Called ρ ε) (i : Nat) : Prop := ∀ j < i, Fails (world j)

/-- The usable profiles of the role's route. -/
def usable (host : Host) (catalog : ModelCatalog) (role : String) : List ModelProfile :=
  (catalog.route role).filter (fun profile => (catalog.skips host profile).isNone)

/-- The names that are skipped, each once. -/
def skippedNames (host : Host) (catalog : ModelCatalog) (role : String) : List String :=
  (((catalog.route role).filter (fun profile => (catalog.skips host profile).isSome)).map
    ModelProfile.name).eraseDups

/-- What a routed call promises. -/
structure RoutesRightly (host : Host) (catalog : ModelCatalog) (role : String)
    (world : Nat → Called ρ ε) (routed : Routed ρ ε) : Prop where
  result : ∀ i profile v, (usable host catalog role)[i]? = some profile → Reached world i →
    world i = .value v → routed.result = .value v
  order : routed.called <+: usable host catalog role
  trace : routed.trace.attempts.map Attempt.profile =
    skippedNames host catalog role ++ routed.called.map ModelProfile.name
  paid : ∀ profile ∈ routed.called, profile.kind = .hostedPaid →
    truthy profile.apiKey = true ∧ catalog.allowPaid = true

/-- A paid profile whose key or leave is not checked. -/
def Unguarded (catalog : ModelCatalog) (profile : ModelProfile) : Prop :=
  profile.kind = .hostedPaid ∧
    ((profile.transport ≠ .openai ∧ ¬ (truthy profile.apiKey = true ∧ catalog.allowPaid = true)) ∨
      (profile.transport = .openai ∧ profile.requiresKey = false ∧ truthy profile.apiKey = false))

/-- The profiles that are tried raise nothing but a `ModelError`, and none of them is unguarded. -/
def Tame (host : Host) (catalog : ModelCatalog) (role : String) (world : Nat → Called ρ ε) : Prop :=
  ∀ i profile, (usable host catalog role)[i]? = some profile → Reached world i →
    (∀ e, world i ≠ .raised e) ∧ ¬ Unguarded catalog profile

variable {host : Host} {catalog : ModelCatalog} {profile : ModelProfile} {k i : Nat}

theorem skips_none (openai : profile.transport = .openai) : catalog.skips host profile = none ↔
      (profile.requiresKey = false ∨ truthy profile.apiKey = true) ∧
        (profile.paid = false ∨ catalog.allowPaid = true) := by
  simp only [ModelCatalog.skips, ModelProfile.unavailableReason, openai, reduceCtorEq, if_false]
  cases profile.requiresKey <;> cases truthy profile.apiKey <;> cases profile.paid <;>
    cases catalog.allowPaid <;> decide

theorem guarded_iff (used : catalog.skips host profile = none) : ¬ Unguarded catalog profile ↔
      (profile.kind = .hostedPaid → truthy profile.apiKey = true ∧ catalog.allowPaid = true) := by
  by_cases openai : profile.transport = .openai
  · obtain ⟨key, leave⟩ := (skips_none openai).mp used
    constructor
    · intro guarded paid
      have allowed : catalog.allowPaid = true := by
        rcases leave with unpaid | allowed
        · rw [ModelProfile.paid, decide_eq_true paid] at unpaid
          cases unpaid
        · exact allowed
      refine ⟨?_, allowed⟩
      by_contra missing
      rcases key with needless | there
      · exact guarded ⟨paid, .inr ⟨openai, needless, Bool.eq_false_iff.mpr missing⟩⟩
      · exact missing there
    · rintro both ⟨paid, other | ⟨-, -, missing⟩⟩
      · exact other.1 openai
      · rw [(both paid).1] at missing
        cases missing
  · constructor
    · intro guarded paid
      by_contra missing
      exact guarded ⟨paid, .inl ⟨openai, missing⟩⟩
    · rintro both ⟨paid, other | other⟩
      · exact other.2 (both paid)
      · exact openai other.1

theorem putReason_names (skipped : List (String × String)) (entry : String × String) :
    (putReason skipped entry).map Prod.fst =
      if entry.1 ∈ skipped.map Prod.fst then skipped.map Prod.fst
      else skipped.map Prod.fst ++ [entry.1] := by
  unfold putReason
  have present : (skipped.any (fun s => decide (s.1 = entry.1)) = true) ↔ entry.1 ∈ skipped.map Prod.fst := by
    simp only [any_eq_true, decide_eq_true_eq, mem_map]
  split
  next there =>
    rw [if_pos (present.mp there), map_map]
    refine map_congr_left (fun s _ => ?_)
    by_cases same : s.1 = entry.1 <;> simp [same]
  next absent =>
    rw [if_neg (fun there => absent (present.mpr there)), map_append, map_singleton]

theorem eraseDups_concat (names : List String) (name : String) : (names ++ [name]).eraseDups =
    if name ∈ names then names.eraseDups else names.eraseDups ++ [name] := by
  rw [eraseDups_append]
  split
  next there =>
    have gone : [name].removeAll names = [] := by simp [List.removeAll, there]
    rw [gone, eraseDups_nil, append_nil]
  next absent =>
    have kept : [name].removeAll names = [name] := by simp [List.removeAll, absent]
    rw [kept]
    rfl

theorem foldl_names (entries : List (String × String)) :
    (entries.foldl putReason []).map Prod.fst = (entries.map Prod.fst).eraseDups := by
  induction entries using List.reverseRecOn with
  | nil => rfl
  | append_singleton entries entry ih =>
    rw [foldl_append, foldl_cons, foldl_nil, putReason_names, ih, map_append,
      map_singleton, eraseDups_concat]
    simp only [mem_eraseDups]

theorem chain_skipped (host : Host) (catalog : ModelCatalog) (role : String) :
    (catalog.chain host role).2.map Prod.fst = skippedNames host catalog role := by
  unfold ModelCatalog.chain skippedNames
  rw [foldl_names]
  refine congrArg List.eraseDups ?_
  induction catalog.route role with
  | nil => rfl
  | cons profile rest ih =>
    rw [filterMap_cons, filter_cons]
    cases catalog.skips host profile with
    | none => simpa using ih
    | some reason => simpa using ih

section Loop

variable (role : String) (world : Nat → Called ρ ε) (repr : Json → String)

/-- Every call of the loop before one failed. -/
def ReachedFrom (k i : Nat) : Prop := ∀ j < i, Fails (world (k + j))

theorem reachedFrom_succ (first : Fails (world k)) :
    ReachedFrom world k (i + 1) ↔ ReachedFrom world (k + 1) i := by
  constructor
  · intro reached j below
    have there := reached (j + 1) (Nat.succ_lt_succ below)
    rwa [Nat.add_assoc, Nat.add_comm 1 j]
  · intro reached j below
    cases j with
    | zero => exact first
    | succ j =>
      have there := reached j (Nat.lt_of_succ_lt_succ below)
      rwa [Nat.add_assoc, Nat.add_comm 1 j] at there

theorem reachedFrom_zero (k : Nat) : ReachedFrom world k 0 := fun _ none => absurd none (Nat.not_lt_zero _)

/-- What the loop does with the profiles it is given. -/
structure Looped (k : Nat) (profiles : List ModelProfile) (attempts : List Attempt)
    (routed : Routed ρ ε) : Prop where
  result : ∀ i v, i < profiles.length → ReachedFrom world k i → world (k + i) = .value v →
    routed.result = .value v
  order : routed.called <+: profiles
  called : ∀ i profile, profiles[i]? = some profile → ReachedFrom world k i → profile ∈ routed.called
  reached : ∀ profile ∈ routed.called, ∃ i, profiles[i]? = some profile ∧ ReachedFrom world k i
  traced : (∀ i < profiles.length, ReachedFrom world k i → ∀ e, world (k + i) ≠ .raised e) →
    routed.trace.attempts.map Attempt.profile =
      attempts.map Attempt.profile ++ routed.called.map ModelProfile.name
  untraced : ∀ i < profiles.length, ReachedFrom world k i → ∀ e, world (k + i) = .raised e →
    routed.trace.attempts.length + 1 = attempts.length + routed.called.length

variable {world}

theorem first_of_settled (settled : ¬ Fails (world k)) (reached : ReachedFrom world k i) :
    i = 0 := by
  cases i with
  | zero => rfl
  | succ i => exact absurd (reached 0 (Nat.succ_pos i)) settled

theorem single_looped {rest : List ModelProfile} {attempts : List Attempt} {routed : Routed ρ ε}
    (settled : ¬ Fails (world k)) (called : routed.called = [profile])
    (value : ∀ v, world k = .value v → routed.result = .value v ∧
      routed.trace.attempts.map Attempt.profile = attempts.map Attempt.profile ++ [profile.name])
    (raised : ∀ e, world k = .raised e → routed.trace.attempts.length = attempts.length) :
    Looped world k (profile :: rest) attempts routed := by
  refine ⟨fun i v _ reached answered => ?_, ?_, fun i other found reached => ?_,
    fun other mem => ?_, fun tame => ?_, fun i _ reached e answered => ?_⟩
  · rw [first_of_settled settled reached] at answered
    exact (value v answered).1
  · rw [called]
    exact ⟨rest, rfl⟩
  · rw [first_of_settled settled reached] at found
    cases found
    rw [called]
    exact mem_singleton_self _
  · rw [called] at mem
    rw [mem_singleton.mp mem]
    exact ⟨0, rfl, reachedFrom_zero world k⟩
  · rw [called]
    have calm := tame 0 (Nat.succ_pos _) (reachedFrom_zero world k)
    cases outcome : world k with
    | value v => exact (value v outcome).2
    | modelError text => exact absurd ⟨text, outcome⟩ settled
    | raised e => exact absurd outcome (calm e)
  · rw [first_of_settled settled reached] at answered
    rw [raised e answered, called]
    rfl

theorem tryProfiles_looped (profiles : List ModelProfile) : ∀ k attempts errors,
    Looped world k profiles attempts (tryProfiles role attempts errors world repr k profiles) := by
  induction profiles with
  | nil =>
    intro k attempts errors
    exact ⟨fun i _ none => absurd none (Nat.not_lt_zero i), nil_prefix,
      nofun, nofun,
      fun _ => (append_nil _).symm, fun i none => absurd none (Nat.not_lt_zero i)⟩
  | cons profile rest ih =>
    intro k attempts errors
    rw [tryProfiles]
    cases outcome : world k with
    | value v =>
      have settled : ¬ Fails (world k) := by
        rintro ⟨text, failed⟩
        rw [outcome] at failed
        cases failed
      refine single_looped settled rfl (fun v' answered => ?_) (fun e answered => ?_)
      · rw [outcome] at answered
        cases answered
        exact ⟨rfl, map_append⟩
      · rw [outcome] at answered
        cases answered
    | raised e =>
      have settled : ¬ Fails (world k) := by
        rintro ⟨text, failed⟩
        rw [outcome] at failed
        cases failed
      refine single_looped settled rfl (fun v' answered => ?_) (fun _ _ => rfl)
      rw [outcome] at answered
      cases answered
    | modelError text =>
      have failed : Fails (world k) := ⟨text, outcome⟩
      dsimp only
      have later := ih (k + 1) (attempts ++ [⟨profile.name, "failed: " ++ shortened text⟩])
        (errors ++ [profile.name ++ ": " ++ text])
      generalize tryProfiles role _ _ world repr (k + 1) rest = routed at later
      refine ⟨fun i v below reached answered => ?_, ?_, fun i other found reached => ?_,
        fun other mem => ?_, fun tame => ?_, fun i below reached e answered => ?_⟩
      · cases i with
        | zero =>
          rw [Nat.add_zero, outcome] at answered
          cases answered
        | succ i =>
          refine later.result i v (Nat.lt_of_succ_lt_succ below)
            ((reachedFrom_succ world failed).mp reached) ?_
          rwa [Nat.add_assoc, Nat.add_comm 1 i]
      · exact prefix_cons_inj profile |>.mpr later.order
      · cases i with
        | zero =>
          cases found
          exact mem_cons_self
        | succ i =>
          exact mem_cons_of_mem profile
            (later.called i other found ((reachedFrom_succ world failed).mp reached))
      · rcases mem_cons.mp mem with rfl | there
        · exact ⟨0, rfl, reachedFrom_zero world k⟩
        · obtain ⟨i, found, reached⟩ := later.reached other there
          exact ⟨i + 1, found, (reachedFrom_succ world failed).mpr reached⟩
      · have calm := later.traced (fun i below reached e answered => by
          refine tame (i + 1) (Nat.succ_lt_succ below) ((reachedFrom_succ world failed).mpr reached) e ?_
          rwa [Nat.add_assoc, Nat.add_comm 1 i] at answered)
        rw [calm, map_append, append_assoc]
        rfl
      · cases i with
        | zero =>
          rw [Nat.add_zero, outcome] at answered
          cases answered
        | succ i =>
          have count := later.untraced i (Nat.lt_of_succ_lt_succ below)
            ((reachedFrom_succ world failed).mp reached) e (by
              rwa [Nat.add_assoc, Nat.add_comm 1 i])
          rw [length_append, length_singleton] at count
          change routed.trace.attempts.length + 1 = attempts.length + (routed.called.length + 1)
          omega

end Loop

theorem run_looped (host : Host) (catalog : ModelCatalog) (role : String)
    (world : Nat → Called ρ ε) : ∃ attempts : List Attempt,
      attempts.map Attempt.profile = skippedNames host catalog role ∧
        Looped world 0 (usable host catalog role) attempts (run host catalog role world) := by
  let attempts : List Attempt :=
    (catalog.chain host role).2.map (fun s => ⟨s.1, "skipped: " ++ s.2⟩)
  have names : attempts.map Attempt.profile = skippedNames host catalog role := by
    rw [← chain_skipped, map_map]
    rfl
  refine ⟨attempts, names, ?_⟩
  unfold run
  dsimp only
  split
  next nothing =>
    have none : usable host catalog role = [] := isEmpty_iff.mp nothing
    rw [none]
    exact ⟨fun i _ none => absurd none (Nat.not_lt_zero i), nil_prefix,
      nofun, nofun,
      fun _ => (append_nil _).symm, fun i none => absurd none (Nat.not_lt_zero i)⟩
  next => exact tryProfiles_looped role host.repr (usable host catalog role) 0 attempts []

theorem reachedFrom_all {world : Nat → Called ρ ε} : ReachedFrom world 0 i ↔ Reached world i := by
  simp only [ReachedFrom, Reached, Nat.zero_add]

theorem usable_skips {role : String} (found : (usable host catalog role)[i]? = some profile) :
    catalog.skips host profile = none := by
  have mem := mem_of_getElem? found
  exact Option.isNone_iff_eq_none.mp (mem_filter.mp mem).2

/-- A routed call keeps its promises exactly when no profile it tries raises anything but a
`ModelError` and none of them is unguarded. -/
theorem routes_rightly_iff (host : Host) (catalog : ModelCatalog) (role : String)
    (world : Nat → Called ρ ε) : RoutesRightly host catalog role world (run host catalog role world) ↔
      Tame host catalog role world := by
  obtain ⟨attempts, skipped, looped⟩ := run_looped host catalog role world
  constructor
  · intro right i profile found reached
    have there := looped.called i profile found (reachedFrom_all.mpr reached)
    refine ⟨fun e answered => ?_, ?_⟩
    · have below : i < (usable host catalog role).length := (List.getElem?_eq_some_iff.mp found).1
      have count := looped.untraced i below (reachedFrom_all.mpr reached) e (by rwa [Nat.zero_add])
      have lengths := congrArg List.length right.trace
      rw [length_map, length_append, length_map, ← skipped, length_map] at lengths
      omega
    · exact (guarded_iff (usable_skips found)).mpr (right.paid profile there)
  · intro tame
    refine ⟨fun i profile v found reached answered => ?_, looped.order, ?_, fun profile member => ?_⟩
    · exact looped.result i v (List.getElem?_eq_some_iff.mp found).1 (reachedFrom_all.mpr reached)
        (by rwa [Nat.zero_add])
    · rw [← skipped]
      refine looped.traced (fun i below reached e answered => ?_)
      rw [Nat.zero_add] at answered
      exact (tame i _ (List.getElem?_eq_getElem below) (reachedFrom_all.mp reached)).1 e answered
    · obtain ⟨i, found, reached⟩ := looped.reached profile member
      exact (guarded_iff (usable_skips found)).mp (tame i profile found (reachedFrom_all.mp reached)).2

/-- A machine without keys in its environment; nothing is missing on it. -/
def sampleHost : Host where
  env _ := none
  readFile _ := none
  str value := match value with
    | .str text => text
    | _ => ""
  repr _ := ""
  decodeError _ := ""
  transformersMissing := none
  sharedReason := none

/-- The defaults, with a document of custom profiles and a route of the agent. -/
def sampleSettings (document route : String) : Settings where
  modelBaseUrl := "http://127.0.0.1:11434/v1"
  modelName := "qwen2.5-coder:14b"
  modelApiKey := "local"
  hfRouterBaseUrl := "https://router.huggingface.co/v1"
  hfInklingModel := "thinkingmachines/Inkling-Small"
  hfToken := none
  hfFallback := true
  inklingBaseUrl := "http://127.0.0.1:8000/v1"
  inklingSelfHostedModel := "thinkingmachines/Inkling-Small"
  inklingApiKey := none
  fuguModel := "fugu-ultra"
  fuguApiKey := none
  transformersModel := "Qwen/Qwen2.5-0.5B-Instruct"
  modelProfiles := some document
  modelRoutes := some route
  allowPaidModels := false

/-- A document with one paid profile of a transport. -/
def paidDocument (transport : String) : String :=
  "[\x7b\"name\": \"pro\", \"base_url\": \"https://pro.example/v1\", \"model\": \"pro-1\", " ++
    "\"kind\": \"hosted_paid\", \"transport\": \"" ++ transport ++ "\"\x7d]"

def emptyCatalog : ModelCatalog := ⟨[], [], false⟩

/-- The catalog of a document, with a route through its profile and the default one. -/
def sampleCatalog (document : String) : ModelCatalog :=
  (ModelCatalog.fromSettings sampleHost (sampleSettings document "agent=pro,local")).toOption.getD
    emptyCatalog

def answering : Nat → Called String String := fun _ => .value "hello"

/-- Without a key the paid profile is skipped, and the default one is called. -/
theorem paid_skipped_without_key :
    (usable sampleHost (sampleCatalog (paidDocument "openai")) "agent").map ModelProfile.kind =
        [.onHost] ∧
      skippedNames sampleHost (sampleCatalog (paidDocument "openai")) "agent" = ["pro"] ∧
      RoutesRightly sampleHost (sampleCatalog (paidDocument "openai")) "agent" answering
        (run sampleHost (sampleCatalog (paidDocument "openai")) "agent" answering) := by
  have kinds : (usable sampleHost (sampleCatalog (paidDocument "openai")) "agent").map
      ModelProfile.kind = [.onHost] := by decide +kernel
  refine ⟨kinds, by decide +kernel, (routes_rightly_iff _ _ _ _).mpr ?_⟩
  intro i profile found reached
  refine ⟨nofun, fun unguarded => ?_⟩
  have listed := mem_map_of_mem (f := ModelProfile.kind) (mem_of_getElem? found)
  rw [kinds, mem_singleton, unguarded.1] at listed
  cases listed

/-- The shared layer has no key and no leave to be paid, and is called. -/
theorem paid_called_without_key :
    ModelCatalog.fromSettings sampleHost (sampleSettings (paidDocument "instinct") "agent=pro,local") =
        .ok (sampleCatalog (paidDocument "instinct")) ∧
      ¬ RoutesRightly sampleHost (sampleCatalog (paidDocument "instinct")) "agent" answering
        (run sampleHost (sampleCatalog (paidDocument "instinct")) "agent" answering) := by
  constructor
  · unfold sampleCatalog
    have accepted : (ModelCatalog.fromSettings sampleHost
        (sampleSettings (paidDocument "instinct") "agent=pro,local")).toOption.isSome = true := by
      decide +kernel
    cases built : ModelCatalog.fromSettings sampleHost
        (sampleSettings (paidDocument "instinct") "agent=pro,local") with
    | ok catalog => rfl
    | error e =>
      rw [built] at accepted
      cases accepted
  · intro right
    have called : (run sampleHost (sampleCatalog (paidDocument "instinct")) "agent" answering).called.map
        (fun profile => (profile.paid, truthy profile.apiKey)) = [(true, false)] := by decide +kernel
    cases listed : (run sampleHost (sampleCatalog (paidDocument "instinct")) "agent" answering).called with
    | nil =>
      rw [listed] at called
      cases called
    | cons profile rest =>
      rw [listed] at called
      have first := Prod.mk.inj (List.cons.inj called).1
      have promised := right.paid profile (by rw [listed]; exact mem_cons_self)
        (of_decide_eq_true first.1)
      rw [promised.1] at first
      cases first.2

end Meemee.Guarantees.ModelRouting
