import Meemee.Source.ClientRetries

/-!
# What the SDK's clients send again

A turn goes round again for one refresh, or after a sleep while attempts are left and the method or
a key permits it. Sends are then bounded, an unsafe write is sent again only after its refresh, and
every sleep is within the caps where the policy's window is not negative.
-/
namespace Meemee.Guarantees.RetrySafety
open Source Source.ClientRetries
open Source.ModelClient (PyFloat Fraction)

/-- Not less than zero, and no NaN. -/
def NonNegative (x : PyFloat) : Prop := Le (.finite 0) x

/-- A rounded number, an infinity or a NaN. -/
def IsFloat (python : Python) : PyFloat → Prop
  | .finite q => python.round q = q
  | _ => True

/-- A policy with times and windows that are finite and not negative; writes not retried. -/
structure Conditions (python : Python) (policy : RetryPolicy) : Prop where
  once : 1 ≤ policy.maxAttempts
  base : NonNegative policy.backoffBaseSeconds
  cap : NonNegative policy.backoffMaxSeconds
  directed : NonNegative policy.retryAfterMaxSeconds
  float : IsFloat python policy.backoffMaxSeconds
  windows : ∀ attempt : Nat, 1 ≤ attempt → attempt < policy.maxAttempts →
    ∃ q, window python policy attempt = .finite q
  noWrites : ∀ method ∈ ["POST", "PUT", "PATCH"], method ∉ policy.retryMethods

/-- A write that is sent again after no error and no status. -/
def Unsafe (python : Python) (request : Request) : Prop :=
  python.upper request.method ∈ ["PUT", "PATCH"] ∨
    (python.upper request.method = "POST" ∧ keyed request = false)

def Step.isSent : Step → Bool
  | .sent _ => true
  | _ => false

def sends (steps : List Step) : Nat := steps.countP Step.isSent

def RateLimited : Step → Prop
  | .sent (.response status _ _) => status = 429
  | _ => False

/-- One send, or one more after a 401 and the refresh that follows it. -/
def SentOnce (steps : List Step) : Prop :=
  sends steps ≤ 1 ∨ ∃ header rest,
    steps = .sent (.response 401 header true) :: .refreshed :: rest ∧ sends rest ≤ 1

variable {python : Python} {policy : RetryPolicy} {draws : Nat → Fraction} {request : Request}
  {s : State} {answer : Answer} {answers more : List Answer} {call : Call}

/-- Whether a sleep may follow: an attempt is left, and the method or the key permits it. -/
def Permitted (python : Python) (policy : RetryPolicy) (request : Request) (attempt : Nat)
    (answer : Answer) : Prop :=
  (attempt : Int) < policy.maxAttempts ∧
    (python.upper request.method ∈ policy.retryMethods ∨
      (python.upper request.method = "POST" ∧ keyed request = true ∧ ¬ RateLimited (.sent answer)))

/-- A refresh, or a sleep that is permitted. -/
def Pauses (python : Python) (policy : RetryPolicy) (draws : Nat → Fraction) (request : Request)
    (s : State) (answer : Answer) (step : Step) : Prop :=
  step = .refreshed ∨ ∃ retryAfter, Permitted python policy request (s.attempt + 1) answer ∧
    step = .slept (delay python policy draws (s.attempt + 1) retryAfter s.drawn).1

/-- What the turns of a request do. -/
inductive Runs (python : Python) (policy : RetryPolicy) (draws : Nat → Fraction)
    (request : Request) : State → List Answer → Call → Prop
  | waiting (s : State) : Runs python policy draws request s [] ⟨[], none⟩
  | refreshed {s : State} {header : Option String} {more : List Answer} {call : Call}
      (first : s.authRefreshed = false)
      (rest : Runs python policy draws request { s with authRefreshed := true } more call) :
      Runs python policy draws request s (.response 401 header true :: more)
        ⟨.sent (.response 401 header true) :: .refreshed :: call.steps, call.ending⟩
  | slept {s next : State} {answer : Answer} {more : List Answer} {call : Call}
      (retryAfter : Option PyFloat)
      (permitted : Permitted python policy request (s.attempt + 1) answer)
      (rest : Runs python policy draws request next more call)
      (attempt : next.attempt = s.attempt + 1) (same : next.authRefreshed = s.authRefreshed) :
      Runs python policy draws request s (answer :: more) ⟨.sent answer ::
        .slept (delay python policy draws (s.attempt + 1) retryAfter s.drawn).1 :: call.steps,
          call.ending⟩
  | left {s : State} {answer : Answer} {more : List Answer} {steps : List Step} (ending : Ending)
      (quiet : ∀ step ∈ steps, Pauses python policy draws request s answer step) :
      Runs python policy draws request s (answer :: more) ⟨.sent answer :: steps, some ending⟩

theorem pause_runs {rest : State → Call} (retryAfter : Option PyFloat)
    (runs : ∀ next, Runs python policy draws request next more (rest next))
    (permitted : Permitted python policy request (s.attempt + 1) answer) :
    Runs python policy draws request s (answer :: more)
      ((pause python policy draws request { s with attempt := s.attempt + 1 } retryAfter).then
        answer rest) := by
  simp only [pause]
  split
  · exact .slept retryAfter permitted (runs _) rfl rfl
  · exact .left _ (List.forall_mem_singleton.mpr (.inr ⟨retryAfter, permitted, rfl⟩))

theorem turn_runs {rest : State → Call} (s : State) (answer : Answer)
    (runs : ∀ next, Runs python policy draws request next more (rest next)) :
    Runs python policy draws request s (answer :: more)
      ((turn python policy draws request s answer).then answer rest) := by
  rcases answer with _ | _ | ⟨status, header, _ | _⟩
  case transportError =>
    simp only [turn]
    split
    next asked =>
      simp only [canRetry, Bool.or_eq_true, Bool.and_eq_true, decide_eq_true_eq] at asked
      refine pause_runs none runs ?_
      rcases asked with ⟨listed, before⟩ | ⟨⟨post, key⟩, before⟩
      · exact ⟨before, .inl listed⟩
      · exact ⟨before, .inr ⟨post, key, id⟩⟩
    next => exact .left _ nofun
  case raised => exact .left _ nofun
  case response.false => exact .left _ nofun
  case response.true =>
    simp only [turn, Bool.not_true, Bool.false_eq_true, if_false]
    split
    next asked =>
      obtain ⟨rfl, first, -⟩ := asked
      split
      · exact .refreshed first (runs _)
      · exact .left _ (List.forall_mem_singleton.mpr (.inl rfl))
    next =>
      split
      next asked =>
        obtain ⟨-, -, asked⟩ := asked
        simp only [canRetry, Bool.or_eq_true, Bool.and_eq_true, decide_eq_true_eq] at asked
        refine pause_runs _ runs ?_
        rcases asked with ⟨listed, before⟩ | ⟨⟨⟨post, key⟩, other⟩, before⟩
        · exact ⟨before, .inl listed⟩
        · exact ⟨before, .inr ⟨post, key, other⟩⟩
      next => split <;> exact .left _ nofun

theorem loop_runs (s : State) (answers : List Answer) : Runs python policy draws request s answers
    (loop (turn python policy draws request) s answers) := by
  induction answers generalizing s with
  | nil => exact .waiting s
  | cons answer more ih => exact turn_runs s answer ih

theorem Pauses.not_sent {step : Step} (pauses : Pauses python policy draws request s answer step) :
    ¬ Step.isSent step = true := by
  rcases pauses with rfl | ⟨_, -, rfl⟩ <;> nofun

/-- How many sends are left. -/
def budget (policy : RetryPolicy) (s : State) : Int :=
  policy.maxAttempts - s.attempt + if s.authRefreshed then 0 else 1

theorem runs_bounded (runs : Runs python policy draws request s answers call)
    (before : s.attempt < policy.maxAttempts) : sends call.steps ≤ budget policy s ∧
      (budget policy s ≤ answers.length → call.ending.isSome = true) := by
  induction runs with
  | waiting s =>
    simp only [sends, budget, List.countP_nil, List.length_nil]
    exact ⟨by split <;> omega, fun long => by split at long <;> omega⟩
  | refreshed first rest ih =>
    obtain ⟨bounded, ends⟩ := ih before
    simp only [sends, budget, first, List.countP_cons, List.length_cons, Step.isSent, if_true,
      Bool.false_eq_true, if_false] at bounded ends ⊢
    exact ⟨by omega, fun long => ends (by omega)⟩
  | slept _ permitted rest attempt same ih =>
    have left := permitted.1
    obtain ⟨bounded, ends⟩ := ih (by omega)
    simp only [sends, budget, attempt, same, List.countP_cons, List.length_cons, Step.isSent,
      if_true, Bool.false_eq_true, if_false] at bounded ends ⊢
    exact ⟨by omega, fun long => ends (by omega)⟩
  | left _ quiet =>
    simp only [sends, budget, List.countP_cons, Step.isSent, if_true,
      List.countP_eq_zero.mpr (fun step mem => (quiet step mem).not_sent)]
    exact ⟨by split <;> omega, fun _ => rfl⟩

theorem unsafe_unpermitted (conditions : Conditions python policy) (write : Unsafe python request)
    {attempt : Nat} : ¬ Permitted python policy request attempt answer := by
  rintro ⟨-, listed | ⟨post, key, -⟩⟩
  · rcases write with put | ⟨post, -⟩
    · exact conditions.noWrites _ (List.mem_cons_of_mem _ put) listed
    · exact conditions.noWrites _ (post ▸ List.mem_cons_self) listed
  · rcases write with put | ⟨-, unkeyed⟩
    · rw [post] at put
      exact absurd put (by decide)
    · rw [unkeyed] at key
      cases key

theorem runs_once (conditions : Conditions python policy) (write : Unsafe python request)
    (runs : Runs python policy draws request s answers call) :
    SentOnce call.steps ∧ (s.authRefreshed = true → sends call.steps ≤ 1) := by
  induction runs with
  | waiting s => exact ⟨.inl (Nat.zero_le _), fun _ => Nat.zero_le _⟩
  | refreshed first _ ih =>
    exact ⟨.inr ⟨_, _, rfl, ih.2 rfl⟩, fun done => by rw [first] at done; cases done⟩
  | slept _ permitted => exact absurd permitted (unsafe_unpermitted conditions write)
  | @left _ answer _ steps _ quiet =>
    have one : sends (.sent answer :: steps) ≤ 1 := by
      rw [sends, List.countP_cons,
        List.countP_eq_zero.mpr (fun step mem => (quiet step mem).not_sent)]
      exact Nat.le_refl 1
    exact ⟨.inl one, fun _ => one⟩

theorem runs_limited (conditions : Conditions python policy)
    (post : python.upper request.method = "POST")
    (runs : Runs python policy draws request s answers call) :
    call.steps.Pairwise (fun first later => RateLimited first → ¬ Step.isSent later = true) := by
  induction runs with
  | waiting => exact .nil
  | refreshed _ _ ih =>
    refine .cons (fun _ _ limited => ?_) (.cons (fun _ _ limited => limited.elim) ih)
    cases (show (401 : Int) = 429 from limited)
  | slept _ permitted _ _ _ ih =>
    refine .cons (fun _ _ limited => ?_) (.cons (fun _ _ limited => limited.elim) ih)
    rcases permitted.2 with listed | ⟨-, -, unlimited⟩
    · exact absurd listed (conditions.noWrites _ (post ▸ List.mem_cons_self))
    · exact absurd limited unlimited
  | left _ quiet =>
    refine .cons (fun step mem _ => (quiet step mem).not_sent) ?_
    refine List.pairwise_of_forall_mem_list (fun step mem _ _ limited => ?_)
    rcases quiet step mem with rfl | ⟨_, -, rfl⟩ <;> exact limited.elim

/-- Between zero and the larger of the two caps. -/
def Within (policy : RetryPolicy) (time : PyFloat) : Prop :=
  NonNegative time ∧
    (Le time policy.backoffMaxSeconds ∨ Le time policy.retryAfterMaxSeconds)

theorem le_of_less {x y : PyFloat} (less : lt x y = true) : Le x y := by
  cases x <;> cases y <;> simp_all [lt, Le, le_of_lt]

theorem least_under {x cap : PyFloat} (bounded : NonNegative cap) :
    least x cap = .nan ∨ Le (least x cap) cap := by
  rw [least]
  split
  · cases cap <;> simp_all [NonNegative, Le]
  · cases x <;> cases cap <;> simp_all [NonNegative, lt, Le]

theorem greatest_within {x cap : PyFloat} (bounded : NonNegative cap) (under : x = .nan ∨ Le x cap) :
    NonNegative (greatest (.finite 0) x) ∧ Le (greatest (.finite 0) x) cap := by
  rw [greatest]
  cases less : lt (.finite 0) x with
  | false =>
    rw [if_neg Bool.false_ne_true]
    exact ⟨le_refl (0 : ℚ), bounded⟩
  | true =>
    rw [if_pos rfl]
    rcases under with rfl | under
    · cases less
    · exact ⟨le_of_less less, under⟩

theorem raised_nonNegative {x : PyFloat} (positive : NonNegative x) (n : Nat) :
    NonNegative (raised python x n) := by
  cases n with
  | zero => exact zero_le_one (α := ℚ)
  | succ n =>
    cases x with
    | finite q => exact python.positive q _ positive
    | infinite negative => simp_all [NonNegative, Le, raised]
    | nan => exact positive.elim

theorem times_float {x y : PyFloat} {q : ℚ} (left : NonNegative x) (right : NonNegative y)
    (finite : times python x y = .finite q) : 0 ≤ q ∧ python.round q = q := by
  cases x with
  | nan => exact left.elim
  | infinite => cases y <;> simp only [times] at finite <;> first | cases finite | split at finite <;> cases finite
  | finite a =>
    cases y with
    | nan => exact right.elim
    | infinite => simp only [times] at finite; split at finite <;> cases finite
    | finite b =>
      cases finite
      refine ⟨?_, python.again _⟩
      calc 0 = python.round 0 := python.zero.symm
        _ ≤ python.round (a * b) := python.monotone _ _ (mul_nonneg left right)

theorem window_float {attempt : Nat} {w : ℚ} (conditions : Conditions python policy)
    (positive : NonNegative policy.backoffMultiplier)
    (finite : window python policy attempt = .finite w) :
    0 ≤ w ∧ python.round w = w ∧ Le (.finite w) policy.backoffMaxSeconds := by
  have under := least_under (x := times python policy.backoffBaseSeconds
    (raised python policy.backoffMultiplier (attempt - 1))) conditions.cap
  rw [window] at finite
  rw [finite] at under
  have capped := under.resolve_left nofun
  rw [least] at finite
  split at finite
  · have float := conditions.float
    have nonNegative := conditions.cap
    rw [finite] at float nonNegative
    exact ⟨nonNegative, float, capped⟩
  · obtain ⟨nonNegative, float⟩ :=
      times_float conditions.base (raised_nonNegative positive _) finite
    exact ⟨nonNegative, float, capped⟩

theorem delay_within (conditions : Conditions python policy)
    (positive : NonNegative policy.backoffMultiplier) {attempt : Nat} (first : 1 ≤ attempt)
    (before : (attempt : Int) < policy.maxAttempts) (retryAfter : Option PyFloat) (drawn : Nat) :
    Within policy (delay python policy draws attempt retryAfter drawn).1 := by
  unfold delay
  split
  · obtain ⟨nonNegative, capped⟩ :=
      greatest_within conditions.directed (least_under conditions.directed)
    exact ⟨nonNegative, .inr capped⟩
  · obtain ⟨w, finite⟩ := conditions.windows attempt first before
    obtain ⟨nonNegative, float, capped⟩ := window_float conditions positive finite
    obtain ⟨draw, low, high⟩ := draws drawn
    have zero : 0 ≤ python.round (w * draw) :=
      python.zero ▸ python.monotone _ _ (mul_nonneg nonNegative low)
    have top : python.round (w * draw) ≤ w :=
      calc python.round (w * draw) ≤ python.round w :=
            python.monotone _ _ (mul_le_of_le_one_right nonNegative high.le)
        _ = w := float
    rw [finite]
    refine ⟨zero, .inl ?_⟩
    cases cap : policy.backoffMaxSeconds with
    | finite c => rw [cap] at capped; exact le_trans top capped
    | infinite => rw [cap] at capped; exact capped
    | nan => rw [cap] at capped; exact capped

theorem runs_within (conditions : Conditions python policy)
    (positive : NonNegative policy.backoffMultiplier)
    (runs : Runs python policy draws request s answers call) :
    ∀ time, .slept time ∈ call.steps → Within policy time := by
  induction runs with
  | waiting => exact nofun
  | refreshed _ _ ih => exact fun time mem => ih time (by simpa using mem)
  | @slept s _ _ _ _ retryAfter permitted _ _ _ ih =>
    intro time mem
    rcases List.mem_cons.mp ((List.mem_cons.mp mem).resolve_left nofun) with same | mem
    · cases same
      exact delay_within conditions positive (Nat.le_add_left 1 _) permitted.1 retryAfter s.drawn
    · exact ih time mem
  | @left s _ _ _ _ quiet =>
    intro time mem
    rcases quiet _ ((List.mem_cons.mp mem).resolve_left nofun) with
      other | ⟨retryAfter, permitted, same⟩
    · cases other
    · cases same
      exact delay_within conditions positive (Nat.le_add_left 1 _) permitted.1 retryAfter s.drawn

/-- With a multiplier that is not negative: a request is sent at most once more often than the
policy's attempts, and over by then; a PUT, a PATCH and a POST without a key once, or once more after
the refresh that a 401 asked for; no POST after a 429. Sleeps are within the caps, and the
asynchronous client does the same. -/
theorem retries_safe (python : Python) (policy : RetryPolicy) (draws : Nat → Fraction)
    (request : Request) (answers : List Answer) (conditions : Conditions python policy)
    (positive : NonNegative policy.backoffMultiplier) :
    let call := syncRequest python policy draws request answers
    (sends call.steps ≤ policy.maxAttempts + 1 ∧
      (policy.maxAttempts + 1 ≤ answers.length → call.ending.isSome = true)) ∧
    (Unsafe python request → SentOnce call.steps) ∧
    (python.upper request.method = "POST" → keyed request = true →
      call.steps.Pairwise (fun first later => RateLimited first → ¬ Step.isSent later = true)) ∧
    (∀ time, .slept time ∈ call.steps → Within policy time) ∧
    asyncRequest python policy draws request answers = call := by
  have runs : Runs python policy draws request {} answers _ := loop_runs {} answers
  have bounded := runs_bounded runs (Int.lt_of_lt_of_le Int.one_pos conditions.once)
  refine ⟨by simpa [budget, syncRequest] using bounded, fun write => (runs_once conditions write runs).1,
    fun post _ => runs_limited conditions post runs, runs_within conditions positive runs, rfl⟩

/-- Arithmetic as on small numbers; no header is a number, and methods are in capitals. -/
def exact : Python where
  round q := q
  monotone _ _ less := less
  zero := rfl
  again _ := rfl
  power q n := q ^ n
  positive _ n bounded := pow_nonneg bounded n
  float _ := none
  upper method := method

/-- The policy with this multiplier, and times that are powers of two. -/
def alternating (multiplier : ℚ) : RetryPolicy where
  maxAttempts := 3
  backoffBaseSeconds := .finite 1
  backoffMultiplier := .finite multiplier
  backoffMaxSeconds := .finite 32
  retryStatuses := [408, 429, 500, 502, 503, 504]
  retryMethods := ["GET", "HEAD", "DELETE"]
  respectRetryAfter := true
  retryAfterMaxSeconds := .finite 128

theorem alternating_conditions (multiplier : ℚ) : Conditions exact (alternating multiplier) where
  once := show (1 : Int) ≤ 3 by decide
  base := zero_le_one (α := ℚ)
  cap := by norm_num [NonNegative, Le, alternating]
  directed := by norm_num [NonNegative, Le, alternating]
  float := rfl
  windows attempt first _ := by
    obtain ⟨n, rfl⟩ := Nat.exists_eq_add_of_le' first
    cases n <;> simp only [window, least, alternating, raised, times, Nat.add_sub_cancel] <;>
      split <;> exact ⟨_, rfl⟩
  noWrites := show ∀ method ∈ ["POST", "PUT", "PATCH"], method ∉ ["GET", "HEAD", "DELETE"] by decide

def half : Nat → Fraction := fun _ => ⟨1 / 2, by norm_num, by norm_num⟩

def reading : Request := ⟨"GET", none, [], false, false, fun _ => true⟩

theorem half_slept : (delay exact (alternating (-1)) half 2 none 1).1 = .finite (-1 / 2) := by
  norm_num [delay, window, least, lt, times, raised, exact, alternating, half]

/-- The second sleep of a GET that meets two 503s is half a second less than none. -/
theorem negative_sleep : ¬ ∀ (python : Python) (policy : RetryPolicy) (draws : Nat → Fraction)
    (request : Request) (answers : List Answer), Conditions python policy →
    ∀ time, .slept time ∈ (syncRequest python policy draws request answers).steps →
      Within policy time := by
  intro always
  have member : Step.slept (.finite (-1 / 2)) ∈ (syncRequest exact (alternating (-1)) half reading
      [.response 503 none true, .response 503 none true]).steps := by
    rw [← half_slept]
    exact List.mem_of_getElem? (i := 3) rfl
  have within := (always _ _ _ _ _ (alternating_conditions (-1)) _ member).1
  norm_num [NonNegative, Le] at within

theorem doubling_safe : sends (syncRequest exact (alternating 2) half reading
    [.response 503 none true, .transportError]).steps ≤ (4 : Int) :=
  (retries_safe exact (alternating 2) half reading _ (alternating_conditions 2)
    (by norm_num [NonNegative, Le, alternating])).1.1

end Meemee.Guarantees.RetrySafety
