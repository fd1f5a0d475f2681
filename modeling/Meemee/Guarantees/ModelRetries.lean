import Mathlib.Tactic.Linarith
import Mathlib.Algebra.Order.Field.Rat
import Meemee.Source.ModelClient

/-!
# Bounded retries of the model client

A call returns a value or raises a `ModelError`, posts no more often than it may, posts again only
after a transient fault, and sleeps between zero and 30.25 seconds each time, if no retried response
carries a `Retry-After` that reads as a NaN or as less than zero: `min` bounds it from above only.
-/
namespace Meemee.Guarantees.ModelRetries
open Source Source.ModelClient

/-- A transient error or status. -/
def Transient : Posted → Prop
  | .timeoutException _ | .networkError _ | .remoteProtocolError _ => True
  | .requestError _ => False
  | .response status _ _ => transientStatus status = true

/-- A delay within bounds. -/
def Bounded (delay : PyFloat) : Prop := ∃ q, delay = .finite q ∧ 0 ≤ q ∧ q ≤ mkRat 121 4

/-- What a call may do from its attempt `first` on, with `max` posts. -/
structure Behaves {ρ : Type} (max first : Nat) (world : Nat → Posted) (run : Run ρ) : Prop where
  result : ∀ exc, run.result = .error exc → exc.isModelError = true
  posts : run.posts ≤ max
  again : ∀ k, k + 1 < run.posts → Transient (world (first + k))
  delays : ∀ delay ∈ run.delays, Bounded delay

/-- A number that is not at least zero. -/
def Negative : PyFloat → Prop
  | .finite q => q < 0
  | .infinite negative => negative = true
  | .nan => True

/-- The `Retry-After` of a response. -/
def headerOf : Posted → Option String
  | .response _ retryAfter _ => retryAfter
  | _ => none

variable {exc : PyExc} {attempt : Nat}

section Client

variable {δ ρ : Type} (python : Python δ)

/-- The header reads as a NaN or as less than zero. -/
def Hostile (header : Option String) : Prop :=
  ∃ text, header = some text ∧ text ≠ "" ∧ ∃ value, python.float text = some value ∧ Negative value

/-- `asyncio.sleep` returns after a delay within bounds. -/
def Sleeps : Prop := ∀ delay, Bounded delay → python.sleep delay = none

theorem getKey_caught {value : Json} {key : String}
    (raised : getKey python value key = .error exc) : retryable exc = none := by
  unfold getKey at raised
  split at raised
  · split at raised <;> cases raised
    rfl
  · cases raised
    rfl

theorem getFirst_caught {value : Json} (raised : getFirst python value = .error exc) :
    retryable exc = none := by
  unfold getFirst at raised
  split at raised
  · cases raised; rfl
  · cases raised
  · split at raised <;> cases raised
    rfl
  · cases raised; rfl
  · cases raised; rfl

theorem raised_of_bind {α β : Type} {first : Except PyExc α} {next : α → Except PyExc β}
    (raised : first.bind next = .error exc) : first = .error exc ∨ ∃ a, next a = .error exc := by
  cases first with
  | error e =>
    cases raised
    exact .inl rfl
  | ok a => exact .inr ⟨a, raised⟩

theorem content_caught {payload : Json} (raised : content python payload = .error exc) :
    retryable exc = none := by
  rcases raised_of_bind raised with first | ⟨choices, raised⟩
  · exact getKey_caught python first
  rcases raised_of_bind raised with first | ⟨choice, raised⟩
  · exact getFirst_caught python first
  unfold choiceContent at raised
  split at raised
  · split at raised
    · cases raised; rfl
    · split at raised
      · cases raised; rfl
      · rcases raised_of_bind raised with first | ⟨message, raised⟩
        · exact getKey_caught python first
        · exact getKey_caught python raised
  · cases raised; rfl

theorem fault_caught (fault : Fault) : retryable fault.exc = none := by cases fault <;> rfl

theorem mapped_caught {α : Type} {result : Except Fault α}
    (raised : result.mapError Fault.exc = .error exc) : retryable exc = none := by
  cases result with
  | error fault => cases raised; exact fault_caught fault
  | ok _ => cases raised

theorem decision_caught {text : Json} {exc : PyExc} (raised : decision python text = .error exc) :
    retryable exc = none := mapped_caught raised

theorem reply_caught {text : Json} {exc : PyExc} (raised : reply text = .error exc) :
    retryable exc = none := by
  unfold reply at raised
  split at raised
  · split at raised <;> cases raised
    rfl
  · cases raised; rfl

theorem attempted_transient (read : Json → Except PyExc ρ) {posted : Posted}
    (transient : Transient posted) : ∃ exc, attempted python read posted = .error exc ∧
      retryable exc = some true ∧ retryAfterOf exc = headerOf posted := by
  cases posted with
  | timeoutException text | networkError text | remoteProtocolError text => exact ⟨_, rfl, rfl, rfl⟩
  | requestError text => cases transient
  | response status retryAfter body =>
    have listed : transientStatus status = true := transient
    exact ⟨_, if_pos listed, congrArg some listed, rfl⟩

theorem attempted_settled {read : Json → Except PyExc ρ}
    (caught : ∀ text exc, read text = .error exc → retryable exc = none) {posted : Posted}
    (settled : ¬ Transient posted) (raised : attempted python read posted = .error exc) :
    retryable exc ≠ some true := by
  cases posted with
  | timeoutException text | networkError text | remoteProtocolError text =>
    exact absurd trivial settled
  | requestError text =>
    cases raised
    exact nofun
  | response status retryAfter body =>
    have unlisted : ¬ transientStatus status = true := settled
    rw [attempted, if_neg unlisted] at raised
    split at raised
    · have payload : retryable exc = none := by
        rcases raised_of_bind raised with first | ⟨payload, raised⟩
        · exact mapped_caught first
        rcases raised_of_bind raised with first | ⟨text, raised⟩
        · exact content_caught python first
        · exact caught text exc raised
      rw [payload]
      exact nofun
    · cases raised
      exact fun same => unlisted (Option.some.inj same)

theorem reraised_model {noun : String} (other : retryable exc = none) :
    (reraised python noun exc).isModelError = true := by
  cases exc <;> first | rfl | cases other

theorem negative_atMost {bound : ℚ} (positive : 0 ≤ bound) (value : PyFloat) :
    Negative (value.atMost bound) ↔ Negative value := by
  cases value with
  | nan => exact Iff.rfl
  | infinite negative =>
    cases negative with
    | true => exact Iff.rfl
    | false =>
      constructor
      · intro below
        exact absurd positive (not_le.mpr below)
      · intro same
        cases same
  | finite q =>
    simp only [PyFloat.atMost, Negative]
    split
    next above =>
      constructor
      · intro below
        exact absurd positive (not_le.mpr below)
      · intro below
        linarith
    next => exact Iff.rfl

theorem quarter_eq : mkRat 1 4 = 1 / 4 := by rw [Rat.mkRat_eq_div]; norm_num

theorem longest_eq : mkRat 121 4 = 121 / 4 := by rw [Rat.mkRat_eq_div]; norm_num

theorem thirty_within : (30 : ℚ) ≤ mkRat 121 4 := by rw [longest_eq]; norm_num

theorem bounded_atMost {value : PyFloat} (number : ¬ Negative value) : Bounded (value.atMost 30) := by
  cases value with
  | nan => exact absurd trivial number
  | infinite negative =>
    cases negative with
    | true => exact absurd rfl number
    | false => exact ⟨30, rfl, by norm_num, thirty_within⟩
  | finite q =>
    have least : 0 ≤ q := not_lt.mp number
    simp only [PyFloat.atMost]
    split
    next => exact ⟨30, rfl, by norm_num, thirty_within⟩
    next within =>
      exact ⟨q, rfl, least, (not_lt.mp within).trans thirty_within⟩

theorem backoff_le (attempt : Nat) : ((backoff attempt : Nat) : ℚ) ≤ 8 := by
  have small : backoff attempt ≤ 8 := Nat.min_le_right _ _
  exact_mod_cast small

theorem backoff_bounded (attempt : Nat) : Bounded (.finite (backoff attempt)) := by
  have most : (8 : ℚ) ≤ mkRat 121 4 := le_trans (by norm_num) thirty_within
  exact ⟨_, rfl, Nat.cast_nonneg _, (backoff_le attempt).trans most⟩

theorem jitter_bounded (attempt : Nat) (random : Fraction) :
    Bounded (.finite (backoff attempt + random.1 * mkRat 1 4)) := by
  obtain ⟨q, least, less⟩ := random
  have whole := backoff_le attempt
  refine ⟨_, rfl, ?_, ?_⟩
  · rw [quarter_eq]
    linarith
  · rw [longest_eq]
    linarith

theorem not_negative {delay : PyFloat} (bounded : Bounded delay) : ¬ Negative delay := by
  obtain ⟨q, rfl, least, -⟩ := bounded
  exact not_lt.mpr least

theorem delay_bounded_iff (attempt : Nat) (random : Fraction) (exc : PyExc) :
    Bounded (delayOf python attempt random exc) ↔ ¬ Hostile python (retryAfterOf exc) := by
  unfold delayOf
  cases header : retryAfterOf exc with
  | none =>
    refine iff_of_true (jitter_bounded attempt random) ?_
    rintro ⟨text, same, -⟩
    cases same
  | some text =>
    dsimp only
    split
    next empty =>
      refine iff_of_true (jitter_bounded attempt random) ?_
      rintro ⟨other, same, nonempty, -⟩
      cases same
      exact nonempty empty
    next nonempty =>
      cases read : python.float text with
      | none =>
        refine iff_of_true (backoff_bounded attempt) ?_
        rintro ⟨other, same, -, value, reads, -⟩
        cases same
        rw [read] at reads
        cases reads
      | some value =>
        constructor
        · rintro bounded ⟨other, same, -, value', reads, negative⟩
          cases same
          rw [read] at reads
          cases reads
          exact not_negative bounded ((negative_atMost (by norm_num) value).mpr negative)
        · intro kind
          exact bounded_atMost (fun negative => kind ⟨text, rfl, nonempty, value, read, negative⟩)

section Loop

variable {python} {read : Json → Except PyExc ρ}
  (caught : ∀ text exc, read text = .error exc → retryable exc = none) (noun : String)
  (world : Nat → Posted) (random : Nat → Fraction)

theorem single_behaves {remaining : Nat} {result : Except PyExc ρ}
    (model : ∀ exc, result = .error exc → exc.isModelError = true) :
    Behaves (remaining + 1) attempt world ⟨1, [], result⟩ :=
  ⟨model, Nat.succ_le_succ (Nat.zero_le remaining),
    fun k more => absurd (Nat.lt_of_succ_lt_succ more) (Nat.not_lt_zero k), nofun⟩

theorem attempts_last (attempt : Nat) :
    Behaves 1 attempt world (attempts python read noun world random attempt 0) := by
  unfold attempts
  cases tried : attempted python read (world attempt) with
  | ok value => exact single_behaves world nofun
  | error exc =>
    dsimp only
    cases kind : retryable exc with
    | some again =>
      exact single_behaves world (fun exc raised => by cases raised; rfl)
    | none =>
      refine single_behaves world (fun exc' raised => ?_)
      cases raised
      exact reraised_model python kind

/-- After a transient fault the call sleeps, and goes on if `asyncio.sleep` returns. -/
theorem attempts_transient (remaining : Nat) (transient : Transient (world attempt)) :
    ∃ delay, (Bounded delay ↔ ¬ Hostile python (headerOf (world attempt))) ∧
      attempts python read noun world random attempt (remaining + 1) =
        match python.sleep delay with
        | none => (attempts python read noun world random (attempt + 1) remaining).after delay
        | some text => ⟨1, [delay], .error (.valueError text)⟩ := by
  obtain ⟨exc, tried, kind, header⟩ := attempted_transient python read transient
  refine ⟨delayOf python attempt (random attempt) exc, ?_, ?_⟩
  · rw [delay_bounded_iff, header]
  · rw [attempts, tried]
    dsimp only
    generalize retryable exc = answer at kind
    subst kind
    rfl

/-- The transient faults of a call that it may still repeat carry no hostile header. -/
def Unharmed (python : Python δ) (world : Nat → Posted) (first remaining : Nat) : Prop :=
  ∀ k < remaining, (∀ j ≤ k, Transient (world (first + j))) →
    ¬ Hostile python (headerOf (world (first + k)))

theorem attempts_harmed (sleeps : Sleeps python) : ∀ remaining attempt,
    (∀ delay ∈ (attempts python read noun world random attempt remaining).delays, Bounded delay) →
      Unharmed python world attempt remaining := by
  intro remaining
  induction remaining with
  | zero => exact fun attempt _ k none => absurd none (Nat.not_lt_zero k)
  | succ remaining ih =>
    intro attempt all k less transient hostile
    have first : Transient (world attempt) := transient 0 (Nat.zero_le k)
    obtain ⟨delay, bounded, run⟩ := attempts_transient noun world random remaining first
    rw [run] at all
    have fine : Bounded delay := by
      cases slept : python.sleep delay with
      | none =>
        rw [slept] at all
        exact all delay List.mem_cons_self
      | some text =>
        rw [slept] at all
        exact all delay List.mem_cons_self
    rw [sleeps delay fine] at all
    cases k with
    | zero => exact bounded.mp fine hostile
    | succ k =>
      refine ih (attempt + 1) (fun other mem => all other (List.mem_cons_of_mem _ mem)) k
        (Nat.lt_of_succ_lt_succ less) (fun j below => ?_) ?_
      · have there := transient (j + 1) (Nat.succ_le_succ below)
        rwa [Nat.add_assoc, Nat.add_comm 1 j]
      · rwa [Nat.add_assoc, Nat.add_comm 1 k]

include caught

theorem attempts_settled {remaining : Nat} (settled : ¬ Transient (world attempt)) :
    Behaves (remaining + 1) attempt world
      (attempts python read noun world random attempt remaining) ∧
      (attempts python read noun world random attempt remaining).delays = [] := by
  cases remaining with
  | zero =>
    refine ⟨attempts_last noun world random attempt, ?_⟩
    unfold attempts
    split
    · rfl
    · split <;> rfl
  | succ remaining =>
    unfold attempts
    cases tried : attempted python read (world attempt) with
    | ok value => exact ⟨single_behaves world nofun, rfl⟩
    | error exc =>
      have final := attempted_settled python caught settled tried
      dsimp only
      cases kind : retryable exc with
      | none =>
        refine ⟨single_behaves world (fun exc' raised => ?_), rfl⟩
        cases raised
        exact reraised_model python kind
      | some again =>
        cases again with
        | true => exact absurd kind final
        | false => exact ⟨single_behaves world (fun exc raised => by cases raised; rfl), rfl⟩

theorem attempts_behave (sleeps : Sleeps python) : ∀ remaining attempt,
    Unharmed python world attempt remaining →
      Behaves (remaining + 1) attempt world
        (attempts python read noun world random attempt remaining) := by
  intro remaining
  induction remaining with
  | zero => exact fun attempt _ => attempts_last noun world random attempt
  | succ remaining ih =>
    intro attempt unharmed
    by_cases transient : Transient (world attempt)
    · obtain ⟨delay, bounded, run⟩ := attempts_transient noun world random remaining
        transient
      have fine : Bounded delay := bounded.mpr (unharmed 0 (Nat.succ_pos remaining) (fun j zero => by
        rw [Nat.le_zero.mp zero]
        exact transient))
      rw [run, sleeps delay fine]
      have later := ih (attempt + 1) (fun k less all => by
        have shift := unharmed (k + 1) (Nat.succ_lt_succ less) (fun j below => by
          cases j with
          | zero => exact transient
          | succ j =>
            have there := all j (Nat.le_of_succ_le_succ below)
            rwa [Nat.add_assoc, Nat.add_comm 1 j] at there)
        rwa [Nat.add_assoc, Nat.add_comm 1 k])
      refine ⟨later.result, Nat.succ_le_succ later.posts, fun k more => ?_, fun other mem => ?_⟩
      · cases k with
        | zero => exact transient
        | succ k =>
          have there := later.again k (Nat.lt_of_succ_lt_succ more)
          rwa [Nat.add_assoc, Nat.add_comm 1 k] at there
      · rcases List.mem_cons.mp mem with rfl | rest
        · exact fine
        · exact later.delays other rest
    · exact (attempts_settled caught noun world random transient).1

end Loop

end Client

/-- `decide` and `chat` keep their bounds exactly when no response they retry is hostile. -/
theorem retries_bounded_iff {δ : Type} (client : OpenAICompatibleModel) (python : Python δ)
    (sleeps : Sleeps python) (world : Nat → Posted) (random : Nat → Fraction) :
    (Behaves client.maxAttempts 1 world (client.decide python world random) ↔
      Unharmed python world 1 (client.maxAttempts - 1)) ∧
    (Behaves client.maxAttempts 1 world (client.chat python world random) ↔
      Unharmed python world 1 (client.maxAttempts - 1)) := by
  have all : client.maxAttempts - 1 + 1 = client.maxAttempts := Nat.sub_add_cancel client.positive
  refine ⟨⟨fun behaves => ?_, fun unharmed => ?_⟩, ⟨fun behaves => ?_, fun unharmed => ?_⟩⟩
  · exact attempts_harmed "decision" world random sleeps _ _ behaves.delays
  · have run := attempts_behave (fun text exc => @decision_caught δ python text exc) "decision" world
      random sleeps _ _ unharmed
    rwa [all] at run
  · exact attempts_harmed "chat" world random sleeps _ _ behaves.delays
  · have run := attempts_behave (fun text exc => @reply_caught text exc) "chat" world random sleeps _ _ unharmed
    rwa [all] at run

/-- Three attempts. -/
def sampleClient : OpenAICompatibleModel := ⟨3, Nat.succ_le_succ (Nat.zero_le 2)⟩

/-- The floats of the samples' headers; a decision is the text it was read from. -/
def samplePython : Python Json where
  float text := if text = "7" then some (.finite 7) else if text = "-5" then some (.finite (-5)) else none
  repr exc := exc.text
  reprKey key := "'" ++ key ++ "'"
  notSubscriptable _ := "object is not subscriptable"
  statusText _ := "Client error"
  validate text := .ok text
  sleep _ := none

def sampleBody : Except Fault Json :=
  .ok (.obj [("choices", .arr [.obj [("message", .obj [("content", .str "hi")])]])])

/-- One response 429 with a header, and then an answer. -/
def limitedOnce (header : String) (attempt : Nat) : Posted :=
  if attempt = 1 then .response 429 (some header) sampleBody else .response 200 none sampleBody

theorem zero_fraction : (0 : ℚ) ≤ 0 ∧ (0 : ℚ) < 1 := ⟨le_refl 0, zero_lt_one⟩

def noJitter : Nat → Fraction := fun _ => ⟨0, zero_fraction⟩

theorem sample_sleeps : Sleeps samplePython := fun _ _ => rfl

/-- A header of seven seconds keeps the bounds. -/
theorem seven_seconds_bounded : Behaves 3 1 (limitedOnce "7")
    (sampleClient.decide samplePython (limitedOnce "7") noJitter) :=
  (retries_bounded_iff sampleClient samplePython sample_sleeps (limitedOnce "7") noJitter).1.mpr (by
    intro k _ transient
    cases k with
    | zero =>
      rintro ⟨text, same, -, value, read, negative⟩
      cases same
      cases read
      have above : ¬ (7 : ℚ) < 0 := by norm_num
      exact above negative
    | succ k =>
      have second := transient 1 (Nat.succ_le_succ (Nat.zero_le k))
      cases second)

/-- After a header of minus five seconds the call sleeps minus five seconds. -/
theorem negative_delay_slept : ¬ Behaves 3 1 (limitedOnce "-5")
    (sampleClient.decide samplePython (limitedOnce "-5") noJitter) := by
  intro behaves
  have slept : PyFloat.finite (-5) ∈
      (sampleClient.decide samplePython (limitedOnce "-5") noJitter).delays := by decide +kernel
  obtain ⟨q, same, least, -⟩ := behaves.delays _ slept
  cases same
  exact absurd least (by norm_num)

end Meemee.Guarantees.ModelRetries
