import Meemee.Source.RateLimits

/-!
# What the rate limiter allows

A hit is decided by the number of earlier hits of its identity in its window, whatever cleanups ran
in between: a cleanup removes only windows that no later clock reading falls into.
-/
namespace Meemee.Guarantees.RateLimiting
open Library List
open Source
open Source.RateLimits

variable {limiter : Limiter}

/-- A hit of an identity in the window with a start. -/
def inWindow (limiter : Limiter) (identity : String) (start : Int) : Call → Bool
  | .hit other now => decide (other = identity) && decide (limiter.windowStart now = start)
  | .cleanup _ => false

def hits (limiter : Limiter) (past : List Call) (identity : String) (start : Int) : Nat :=
  past.countP (inWindow limiter identity start)

/-- What a hit answers if the earlier hits of its identity and window are all that counts. -/
def expected (limiter : Limiter) (past : List Call) (identity : String) (now : ℚ) : Answer :=
  if storable (limiter.windowStart now) then
    .decided (limiter.decision (limiter.windowStart now)
      (hits limiter past identity (limiter.windowStart now) + 1))
  else .raised tooLarge

theorem find_upsert (counters : Counters) (identity : String) (start : Int) (key : String × Int) :
    (Limiter.upsert counters identity start).find key =
      if key = (identity, start) then
        some (((counters.find key).map Counter.counted).getD ⟨identity, start, 1⟩)
      else counters.find key := by
  unfold Limiter.upsert
  cases found : counters.find (identity, start) with
  | none =>
    have fresh : counters.find (Counter.id ⟨identity, start, 1⟩) = none := found
    rw [Table.insertOrIgnore_fresh fresh]
    refine (Table.find_insert counters _ fresh key).trans ?_
    by_cases same : key = (identity, start)
    · subst same
      rw [if_pos rfl, found]
      exact if_pos rfl
    · rw [if_neg same]
      exact if_neg (fun other => same other.symm)
  | some row =>
    rw [Table.find_update_key]
    by_cases same : key = (identity, start)
    · subst same
      rw [if_pos rfl, if_pos rfl, found]
      rfl
    · rw [if_neg same, if_neg same]

theorem countOf_eq (counters : Counters) (identity : String) (start : Int) :
    Limiter.countOf counters identity start =
      ((counters.find (identity, start)).map Counter.count).getD 0 := by
  unfold Limiter.countOf
  cases counters.find (identity, start) with
  | none => rfl
  | some row => rfl

theorem countOf_upsert (counters : Counters) (identity other : String) (start start' : Int) :
    Limiter.countOf (Limiter.upsert counters identity start) other start' =
      Limiter.countOf counters other start' + if (other, start') = (identity, start) then 1 else 0 := by
  rw [countOf_eq, countOf_eq, find_upsert]
  split
  next =>
    cases counters.find (other, start') with
    | none => rfl
    | some row => rfl
  next => exact (Int.add_zero _).symm

variable {counters : Counters} {start : Int} {now : ℚ} {identity : String}
  {past calls : List Call}

theorem countOf_delete {cutoff : Int} (later : cutoff ≤ start) (identity : String) :
    Limiter.countOf (counters.delete (fun c => decide (c.windowStart < cutoff))) identity start =
      Limiter.countOf counters identity start := by
  rw [countOf_eq, countOf_eq, Table.find_delete]
  cases found : counters.find (identity, start) with
  | none => rfl
  | some row =>
    have keyed : row.windowStart = start := congrArg Prod.snd (Table.key_of_find found)
    have kept : decide (row.windowStart < cutoff) = false := decide_eq_false (by omega)
    rw [Option.filter_some, kept]
    rfl

theorem wholeSeconds_mono {a b : ℚ} (later : a ≤ b) : wholeSeconds a ≤ wholeSeconds b := by
  unfold wholeSeconds
  split
  next first => rw [if_pos (first.trans later)]; exact Int.floor_mono later
  next first =>
    split
    next second =>
      have negative : ⌈a⌉ ≤ 0 := Int.ceil_le.mpr (by push_cast; exact (not_le.mp first).le)
      exact negative.trans (Int.floor_nonneg.mpr second)
    next => exact Int.ceil_mono later

theorem wholeSeconds_add (a : ℚ) {window : Int} (positive : 1 ≤ window) :
    wholeSeconds (a + window) ≤ wholeSeconds a + window := by
  unfold wholeSeconds
  split
  next =>
    rw [Int.floor_add_intCast]
    split
    next => exact le_refl _
    next => exact Int.add_le_add_right (Int.floor_le_ceil a) window
  next negative =>
    have before : ¬ 0 ≤ a := by
      intro first
      exact negative (add_nonneg first (by exact_mod_cast (by omega : 0 ≤ window)))
    rw [if_neg before, Int.ceil_add_intCast]

theorem windowStart_eq (now : ℚ) :
    limiter.windowStart now = limiter.window * (wholeSeconds now / limiter.window) := by
  have whole := Int.mul_ediv_add_emod (wholeSeconds now) limiter.window
  unfold Limiter.windowStart
  omega

theorem windowStart_bounds (now : ℚ) :
    limiter.windowStart now ≤ wholeSeconds now ∧
      wholeSeconds now < limiter.windowStart now + limiter.window := by
  have positive := limiter.window_pos
  have low := Int.emod_nonneg (wholeSeconds now) (by omega : limiter.window ≠ 0)
  have high := Int.emod_lt_of_pos (wholeSeconds now) (by omega : 0 < limiter.window)
  unfold Limiter.windowStart
  omega

theorem windowStart_near {origin : ℚ} (after : origin ≤ now)
    (within : now < origin + limiter.window) :
    limiter.windowStart now = limiter.windowStart origin ∨
      limiter.windowStart now = limiter.windowStart origin + limiter.window := by
  have positive := limiter.window_pos
  have low := Int.ediv_le_ediv (by omega : 0 < limiter.window) (wholeSeconds_mono after)
  have high := Int.ediv_le_ediv (by omega : 0 < limiter.window)
    ((wholeSeconds_mono within.le).trans (wholeSeconds_add origin positive))
  rw [Int.add_ediv_of_dvd_right (dvd_refl _), Int.ediv_self (by omega)] at high
  rw [windowStart_eq, windowStart_eq]
  obtain same | next : wholeSeconds now / limiter.window = wholeSeconds origin / limiter.window ∨
      wholeSeconds now / limiter.window = wholeSeconds origin / limiter.window + 1 := by omega
  · exact .inl (by rw [same])
  · exact .inr (by rw [next, Int.mul_add, Int.mul_one])

/-- The store has counted every hit of the windows that a later cleanup would still leave. -/
def Counts (limiter : Limiter) (past : List Call) (counters : Counters) : Prop :=
  ∀ latest, (∀ call ∈ past, wholeSeconds call.now ≤ latest) →
    ∀ identity start, latest - limiter.window * 2 ≤ start →
      (storable start = true →
        Limiter.countOf counters identity start = hits limiter past identity start)

theorem hits_append (past : List Call) (call : Call) (identity : String) (start : Int) :
    hits limiter (past ++ [call]) identity start =
      hits limiter past identity start + if inWindow limiter identity start call then 1 else 0 := by
  rw [hits, countP_append, countP_singleton]
  rfl

theorem inWindow_hit {other : String} :
    inWindow limiter identity start (.hit other now) = true ↔
      other = identity ∧ limiter.windowStart now = start := by
  rw [inWindow, Bool.and_eq_true, decide_eq_true_eq, decide_eq_true_eq]

theorem inWindow_self (identity : String) (now : ℚ) :
    inWindow limiter identity (limiter.windowStart now) (.hit identity now) = true :=
  inWindow_hit.mpr ⟨rfl, rfl⟩

theorem counts_start : Counts limiter [] Table.empty := by
  intro latest _ identity start _ _
  rfl

theorem counts_same {call : Call}
    (counts : Counts limiter past counters)
    (other : ∀ identity start, storable start = true → inWindow limiter identity start call = false) :
    Counts limiter (past ++ [call]) counters := by
  intro latest within identity start late fits
  rw [hits_append, other identity start fits, counts latest ?_ identity start late fits]
  · rfl
  · exact fun c mem => within c (mem_append_left _ mem)

theorem step_hit (counts : Counts limiter past counters) (ordered : ∀ call ∈ past, call.now ≤ now) :
    (step limiter counters (.hit identity now)).1 = expected limiter past identity now ∧
      Counts limiter (past ++ [.hit identity now]) (step limiter counters (.hit identity now)).2 := by
  have latest : ∀ call ∈ past, wholeSeconds call.now ≤ wholeSeconds now :=
    fun call mem => wholeSeconds_mono (ordered call mem)
  have bounds := @windowStart_bounds limiter now
  unfold step Limiter.hit Txn.atomically expected
  dsimp only
  cases fits : storable (limiter.windowStart now) with
  | false =>
    refine ⟨rfl, counts_same counts (fun other start storable => ?_)⟩
    refine Bool.and_eq_false_iff.mpr (.inr (decide_eq_false ?_))
    rintro rfl
    rw [fits] at storable
    cases storable
  | true =>
    have counted := counts (wholeSeconds now) latest identity (limiter.windowStart now)
      (by have := limiter.window_pos; omega) fits
    have count : Limiter.countOf (Limiter.upsert counters identity (limiter.windowStart now)) identity
        (limiter.windowStart now) = hits limiter past identity (limiter.windowStart now) + 1 := by
      rw [countOf_upsert, if_pos rfl, counted]
    refine ⟨?_, ?_⟩
    · change Answer.decided (limiter.decision _ (Limiter.countOf _ _ _)) = _
      rw [count]
      rfl
    · intro late within other start early storable
      change Limiter.countOf (Limiter.upsert counters identity (limiter.windowStart now)) other start = _
      rw [countOf_upsert, hits_append, counts late ?_ other start early storable]
      · by_cases same : (other, start) = (identity, limiter.windowStart now)
        · obtain ⟨rfl, rfl⟩ := Prod.mk.inj same
          rw [if_pos rfl, if_pos (inWindow_self other now)]
          rfl
        · have different : inWindow limiter other start (.hit identity now) = false := by
            refine Bool.eq_false_iff.mpr (fun inside => same ?_)
            obtain ⟨rfl, rfl⟩ := inWindow_hit.mp inside
            rfl
          rw [if_neg same, different]
          rfl
      · exact fun c mem => within c (mem_append_left _ mem)

theorem step_cleanup (counts : Counts limiter past counters) :
    Counts limiter (past ++ [.cleanup now]) (step limiter counters (.cleanup now)).2 := by
  unfold step Limiter.cleanup
  dsimp only
  cases fits : storable (wholeSeconds now - limiter.window * 2) with
  | false => exact counts_same counts (fun _ _ _ => rfl)
  | true =>
    intro late within other start early storable
    change Limiter.countOf (counters.delete _) other start = _
    have last : wholeSeconds now ≤ late := within (.cleanup now) (by simp)
    rw [countOf_delete (by omega), hits_append,
      counts late (fun c mem => within c (mem_append_left _ mem)) other start early storable]
    rfl

/-- The hits among some calls, each with what it answers if only hits count. -/
def expectedHits (limiter : Limiter) : List Call → List Call → List (Call × Answer)
  | _, [] => []
  | past, .hit identity now :: rest =>
    (.hit identity now, expected limiter past identity now) ::
      expectedHits limiter (past ++ [.hit identity now]) rest
  | past, .cleanup now :: rest => expectedHits limiter (past ++ [.cleanup now]) rest

/-- The answers of the hits of a run. -/
def hitAnswers (limiter : Limiter) (calls : List Call) : List (Call × Answer) :=
  (run limiter calls).filter (fun answered => answered.1.isHit)

theorem history_hits (counts : Counts limiter past counters)
    (ordered : (past ++ calls).Pairwise (fun a b => a.now ≤ b.now)) :
    ((History.history (step limiter) counters calls).map (fun e => (e.action, e.answer))).filter
        (fun answered => answered.1.isHit) = expectedHits limiter past calls := by
  induction calls generalizing past counters with
  | nil => rfl
  | cons call rest ih =>
    have before : ∀ c ∈ past, c.now ≤ call.now :=
      fun c mem => (pairwise_append.mp ordered).2.2 c mem call mem_cons_self
    have later : ((past ++ [call]) ++ rest).Pairwise (fun a b => a.now ≤ b.now) := by
      rw [append_assoc]
      exact ordered
    cases call with
    | hit identity now =>
      obtain ⟨answer, after⟩ := step_hit counts before
      exact congrArg₂ List.cons (congrArg (Prod.mk _) answer) (ih after later)
    | cleanup now =>
      exact ih (step_cleanup counts) later

theorem hitAnswers_expected (ordered : calls.Pairwise (fun a b => a.now ≤ b.now)) :
    hitAnswers limiter calls = expectedHits limiter [] calls :=
  history_hits counts_start ordered

theorem hits_filter {keep : Call → Bool} (keeps : ∀ now, keep (.hit identity now) = true)
    (past : List Call) (start : Int) :
    hits limiter (past.filter keep) identity start = hits limiter past identity start := by
  rw [hits, countP_filter]
  refine countP_congr (fun call _ => ?_)
  cases call with
  | cleanup now => rfl
  | hit other now =>
    rw [Bool.and_eq_true]
    refine and_iff_left_of_imp (fun inside => ?_)
    obtain ⟨rfl, _⟩ := inWindow_hit.mp inside
    exact keeps now

/-- What some hits are expected to answer depends only on the hits of their identities. -/
theorem expectedHits_filter {keep selected : Call → Bool}
    (keeps : ∀ identity now now', selected (.hit identity now) = true →
      keep (.hit identity now') = true) (past calls : List Call) :
    (expectedHits limiter past calls).filter (fun answered => selected answered.1) =
      (expectedHits limiter (past.filter keep) (calls.filter keep)).filter
        (fun answered => selected answered.1) := by
  induction calls generalizing past with
  | nil => rfl
  | cons call rest ih =>
    have later := ih (past ++ [call])
    rw [filter_append] at later
    cases kept : keep call with
    | true =>
      rw [filter_cons_of_pos kept]
      rw [filter_cons_of_pos kept] at later
      cases call with
      | cleanup now => exact later
      | hit identity now =>
        rw [expectedHits, expectedHits, filter_cons, filter_cons]
        cases chosen : selected (.hit identity now) with
        | false => exact later
        | true =>
          have same : expected limiter (past.filter keep) identity now =
              expected limiter past identity now := by
            rw [expected, hits_filter (fun now' => keeps identity now now' chosen)]
            rfl
          rw [same]
          exact congrArg₂ List.cons rfl later
    | false =>
      rw [filter_cons_of_neg (by rw [kept]; exact Bool.false_ne_true)]
      rw [filter_cons_of_neg (by rw [kept]; exact Bool.false_ne_true), filter_nil,
        append_nil] at later
      cases call with
      | cleanup now => exact later
      | hit identity now =>
        have unchosen : selected (.hit identity now) = false := by
          cases chosen : selected (.hit identity now) with
          | false => rfl
          | true =>
            rw [keeps identity now now chosen] at kept
            cases kept
        rw [expectedHits, filter_cons_of_neg (by rw [unchosen]; exact Bool.false_ne_true)]
        exact later

def Answer.allowed : Answer → Bool
  | .decided decision => decision.allowed
  | _ => false

/-- Whether each hit of an identity in a window was allowed, in order. -/
def allowedFlags (limiter : Limiter) (calls : List Call) (identity : String) (start : Int) :
    List Bool :=
  ((hitAnswers limiter calls).filter (fun answered => inWindow limiter identity start answered.1)).map
    (fun answered => Answer.allowed answered.2)

theorem expected_flags (fits : storable start = true) (past calls : List Call) :
    ((expectedHits limiter past calls).filter
        (fun answered => inWindow limiter identity start answered.1)).map
        (fun answered => Answer.allowed answered.2) =
      (List.range (hits limiter calls identity start)).map
        (fun earlier => decide (((hits limiter past identity start + earlier : Nat) : Int) <
          limiter.limit)) := by
  induction calls generalizing past with
  | nil => rfl
  | cons call rest ih =>
    have later := ih (past ++ [call])
    rw [hits_append] at later
    cases inside : inWindow limiter identity start call with
    | false =>
      rw [inside] at later
      have count : hits limiter (call :: rest) identity start = hits limiter rest identity start := by
        rw [hits, countP_cons_of_neg (by rw [inside]; exact Bool.false_ne_true)]
        rfl
      rw [count]
      cases call with
      | cleanup now => exact later
      | hit other now =>
        rw [expectedHits, filter_cons_of_neg (by rw [inside]; exact Bool.false_ne_true)]
        exact later
    | true =>
      cases call with
      | cleanup now => cases inside
      | hit other now =>
        obtain ⟨rfl, rfl⟩ := inWindow_hit.mp inside
        have count : hits limiter (.hit other now :: rest) other (limiter.windowStart now) =
            hits limiter rest other (limiter.windowStart now) + 1 := by
          rw [hits, countP_cons_of_pos inside]
          rfl
        have first : Answer.allowed (expected limiter past other now) =
            decide (((hits limiter past other (limiter.windowStart now) + 0 : Nat) : Int) <
              limiter.limit) := by
          rw [expected, if_pos fits]
          exact decide_eq_decide.mpr (by rw [Nat.add_zero]; exact Int.add_one_le_iff)
        rw [inside, if_pos rfl] at later
        rw [expectedHits, filter_cons, if_pos inside, map_cons, later, count,
          range_succ_eq_map, map_cons, map_map, first]
        refine congrArg (List.cons _) (map_congr_left (fun earlier _ => ?_))
        rw [Function.comp_apply, Nat.add_assoc, Nat.add_comm 1]

theorem flags_replicate (limit : Int) (n : Nat) :
    (List.range n).map (fun (earlier : Nat) => decide ((earlier : Int) < limit)) =
      List.replicate (min n limit.toNat) true ++ List.replicate (n - limit.toNat) false := by
  induction n with
  | zero => simp
  | succ n ih =>
    rw [range_succ, map_append, ih, map_singleton]
    by_cases within : (n : Int) < limit
    · rw [decide_eq_true within, Nat.min_eq_left (by omega), Nat.min_eq_left (by omega),
        Nat.sub_eq_zero_of_le (by omega), Nat.sub_eq_zero_of_le (by omega), replicate_zero,
        append_nil, append_nil, replicate_succ']
    · rw [decide_eq_false within, Nat.min_eq_right (by omega), Nat.min_eq_right (by omega),
        Nat.sub_add_comm (by omega), replicate_succ', append_assoc]

theorem allowedFlags_eq {calls : List Call} (ordered : calls.Pairwise (fun a b => a.now ≤ b.now))
    {identity : String} {start : Int} (fits : storable start = true) :
    allowedFlags limiter calls identity start =
      List.replicate (min (hits limiter calls identity start) limiter.limit.toNat) true ++
        List.replicate (hits limiter calls identity start - limiter.limit.toNat) false := by
  rw [allowedFlags, hitAnswers_expected ordered, expected_flags fits, ← flags_replicate]
  refine map_congr_left (fun earlier _ => ?_)
  rw [hits, countP_nil, Nat.zero_add]

theorem expected_refused (large : storable start = false) (past calls : List Call) :
    ∀ answered ∈ expectedHits limiter past calls, inWindow limiter identity start answered.1 = true →
      answered.2 = .raised tooLarge := by
  induction calls generalizing past with
  | nil => exact fun answered mem => absurd mem not_mem_nil
  | cons call rest ih =>
    cases call with
    | cleanup now => exact ih _
    | hit other now =>
      refine forall_mem_cons.mpr ⟨fun inside => ?_, ih _⟩
      obtain ⟨rfl, rfl⟩ := inWindow_hit.mp inside
      exact if_neg (by rw [large]; exact Bool.false_ne_true)

theorem allowed_le {calls : List Call} (ordered : calls.Pairwise (fun a b => a.now ≤ b.now))
    (identity : String) (start : Int) :
    (hitAnswers limiter calls).countP (fun answered =>
      inWindow limiter identity start answered.1 && Answer.allowed answered.2) ≤
        limiter.limit.toNat := by
  cases fits : storable start with
  | false =>
    rw [hitAnswers_expected ordered, countP_eq_zero.mpr]
    · exact Nat.zero_le _
    · intro answered mem both
      obtain ⟨inside, allowed⟩ := Bool.and_eq_true_iff.mp both
      rw [expected_refused fits [] calls answered mem inside] at allowed
      cases allowed
  | true =>
    have flags := congrArg (List.countP id) (@allowedFlags_eq limiter calls ordered identity start fits)
    rw [allowedFlags, countP_map, countP_filter, countP_append, countP_replicate,
      countP_replicate] at flags
    rw [if_pos (by rfl), if_neg (by exact Bool.false_ne_true), Nat.add_zero] at flags
    have same : (hitAnswers limiter calls).countP (fun answered =>
        inWindow limiter identity start answered.1 && Answer.allowed answered.2) =
        min (hits limiter calls identity start) limiter.limit.toNat := by
      rw [← flags]
      exact countP_congr (fun answered _ => by rw [Bool.and_comm]; rfl)
    rw [same]
    exact Nat.min_le_right _ _

/-- A hit of an identity in a half-open interval of the clock. -/
def between (identity : String) (origin : ℚ) (length : Int) : Call → Bool
  | .hit other now => decide (other = identity) && decide (origin ≤ now) && decide (now < origin + length)
  | .cleanup _ => false

theorem countP_either {α : Type} {p q r : α → Bool} (either : ∀ a, p a = true → q a = true ∨ r a = true)
    (rows : List α) : rows.countP p ≤ rows.countP q + rows.countP r := by
  induction rows with
  | nil => exact Nat.le_refl 0
  | cons a rows ih =>
    rw [countP_cons, countP_cons, countP_cons]
    cases here : p a with
    | false =>
      rw [if_neg Bool.false_ne_true]
      omega
    | true =>
      obtain first | second := either a here
      · rw [if_pos rfl, if_pos first]
        omega
      · rw [if_pos rfl, if_pos second]
        omega

/-- In any interval as long as a window, an identity has at most twice the limit. -/
theorem allowed_between (ordered : calls.Pairwise (fun a b => a.now ≤ b.now)) (identity : String)
    (origin : ℚ) :
    (hitAnswers limiter calls).countP (fun answered =>
      between identity origin limiter.window answered.1 && Answer.allowed answered.2) ≤
        2 * limiter.limit.toNat := by
  have first := @allowed_le limiter calls ordered identity (limiter.windowStart origin)
  have second := @allowed_le limiter calls ordered identity
    (limiter.windowStart origin + limiter.window)
  refine (countP_either ?_ (hitAnswers limiter calls)).trans
    ((Nat.add_le_add first second).trans (by omega))
  rintro ⟨call, answer⟩ both
  obtain ⟨inside, allowed⟩ := Bool.and_eq_true_iff.mp both
  cases call with
  | cleanup now => cases inside
  | hit other now =>
    simp only [between, Bool.and_eq_true, decide_eq_true_eq] at inside
    obtain ⟨⟨rfl, after⟩, within⟩ := inside
    refine (windowStart_near after within).imp (fun same => ?_) (fun next => ?_)
    · exact Bool.and_eq_true_iff.mpr ⟨inWindow_hit.mpr ⟨rfl, same⟩, allowed⟩
    · exact Bool.and_eq_true_iff.mpr ⟨inWindow_hit.mpr ⟨rfl, next⟩, allowed⟩

/-- A hit of an identity. -/
def hitOf (identity : String) : Call → Bool
  | .hit other _ => decide (other = identity)
  | .cleanup _ => false

/-- What the limiter promises of a run. -/
structure Limits (limiter : Limiter) (calls : List Call) : Prop where
  /-- In each window the first hits are allowed, up to the limit, and no other. -/
  firstHits : ∀ identity start, storable start = true →
    allowedFlags limiter calls identity start =
      List.replicate (min (hits limiter calls identity start) limiter.limit.toNat) true ++
        List.replicate (hits limiter calls identity start - limiter.limit.toNat) false
  /-- A hit is refused by the database only in a window whose start it cannot hold. -/
  refused : ∀ identity now answer, (Call.hit identity now, answer) ∈ hitAnswers limiter calls →
    (answer = .raised tooLarge ↔ storable (limiter.windowStart now) = false)
  bounded : ∀ identity origin, (hitAnswers limiter calls).countP (fun answered =>
    between identity origin limiter.window answered.1 && Answer.allowed answered.2) ≤
      2 * limiter.limit.toNat
  /-- The hits of other identities change no answer. -/
  apart : ∀ identity, (hitAnswers limiter calls).filter (fun answered => hitOf identity answered.1) =
    (hitAnswers limiter (calls.filter (fun call => !call.isHit || hitOf identity call))).filter
      (fun answered => hitOf identity answered.1)
  /-- The cleanups change no answer. -/
  uncleaned : hitAnswers limiter calls = hitAnswers limiter (calls.filter Call.isHit)

theorem expected_raised :
    ∀ identity now answer, (Call.hit identity now, answer) ∈ expectedHits limiter past calls →
      (answer = .raised tooLarge ↔ storable (limiter.windowStart now) = false) := by
  induction calls generalizing past with
  | nil => exact fun _ _ _ mem => absurd mem not_mem_nil
  | cons call rest ih =>
    intro identity now answer mem
    cases call with
    | cleanup later => exact ih identity now answer mem
    | hit other later =>
      obtain here | mem := mem_cons.mp mem
      · obtain ⟨same, rfl⟩ := Prod.mk.inj here
        obtain ⟨rfl, rfl⟩ := Call.hit.inj same
        rw [expected]
        cases fits : storable (limiter.windowStart now) with
        | true => exact iff_of_false nofun (Ne.symm Bool.false_ne_true)
        | false => exact iff_of_true rfl rfl
      · exact ih identity now answer mem

/-- Every run of hits and cleanups on a clock that does not go back is limited. -/
theorem limiter_limits (limiter : Limiter) (calls : List Call)
    (ordered : calls.Pairwise (fun a b => a.now ≤ b.now)) : Limits limiter calls where
  firstHits _ _ fits := allowedFlags_eq ordered fits
  refused := by
    rw [hitAnswers_expected ordered]
    exact expected_raised
  bounded := allowed_between ordered
  apart identity := by
    rw [hitAnswers_expected ordered, hitAnswers_expected (ordered.filter _)]
    refine expectedHits_filter (fun other now now' chosen => ?_) [] calls
    exact Bool.or_eq_true_iff.mpr (Or.inr chosen)
  uncleaned := by
    have same := @expectedHits_filter limiter Call.isHit (fun _ => true) (fun _ _ _ _ => rfl) [] calls
    rw [filter_true, filter_true] at same
    rw [hitAnswers_expected ordered, hitAnswers_expected (ordered.filter _)]
    exact same

/-- Two hits within a second, a cleanup after them, and a third hit. -/
def secondBurst : List Call :=
  [.hit "ana" (mkRat 1 2), .hit "ana" (mkRat 3 4), .cleanup 1, .hit "ana" 1]

theorem secondBurst_limited :
    Limits ⟨1, 1, by decide, by decide⟩ secondBurst :=
  limiter_limits _ secondBurst (by decide +kernel)

end Meemee.Guarantees.RateLimiting
