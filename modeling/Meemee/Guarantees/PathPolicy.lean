import Meemee.Source.Workspace

/-!
# Denied paths and resolved files

The policy matches its patterns on a path's text and on its lexical normal form, and the workspace
root plays no part in either. Spellings that are alike share a normal form, and a pattern that matches
it denies them all. An absolute and a relative spelling of one file have different ones.
-/
namespace Meemee.Guarantees.PathPolicy
open Library.Paths Source Source.Policy Source.Workspace List

theorem kind_up_iff (component : List Char) : kind component = .up ↔ component = ['.', '.'] := by
  unfold kind
  by_cases up : component = ['.', '.']
  · subst up
    decide
  · split <;> simp [up]

theorem kind_stay_iff (component : List Char) :
    kind component = .stay ↔ component = [] ∨ component = ['.'] := by
  unfold kind
  by_cases blank : component = [] ∨ component = ['.']
  · simp [blank]
  · rw [if_neg blank]
    split <;> simp [blank]

theorem normalize_relative (kept : List (List Char)) (component : List Char) :
    Policy.normalize false kept component = lexical kind kept component := by
  unfold Policy.normalize lexical
  simp only [← kind_stay_iff, ← kind_up_iff, ne_eq]
  cases does : kind component with
  | stay => simp
  | name => simp
  | up => cases kept <;> simp

variable {kept : List (List Char)} {first second : String}

theorem normalize_rooted (named : ∀ c ∈ kept, kind c = .name) (component : List Char) :
    Policy.normalize true kept component = walk kind kept component := by
  unfold Policy.normalize walk
  simp only [← kind_stay_iff, ← kind_up_iff, ne_eq]
  cases does : kind component with
  | stay => simp
  | name => simp
  | up =>
    cases kept with
    | nil => simp
    | cons last rest => simp [named last mem_cons_self]

theorem walk_named (named : ∀ c ∈ kept, kind c = .name) (component : List Char) :
    ∀ c ∈ walk kind kept component, kind c = .name := by
  intro c mem
  unfold walk at mem
  split at mem
  next => exact named c mem
  next => exact named c (mem_of_mem_tail mem)
  next does =>
    rcases mem_cons.mp mem with rfl | later
    · exact does
    · exact named c later

theorem foldl_rooted (components : List (List Char)) (named : ∀ c ∈ kept, kind c = .name) :
    components.foldl (Policy.normalize true) kept = components.foldl (walk kind) kept := by
  induction components generalizing kept with
  | nil => rfl
  | cons component rest ih =>
    rw [foldl_cons, foldl_cons, normalize_rooted named, ih (walk_named named component)]

theorem foldl_relative (components : List (List Char)) :
    components.foldl (Policy.normalize false) [] = components.foldl (lexical kind) [] := by
  congr 1
  funext kept component
  exact normalize_relative kept component

/-- The components that `normpath` keeps, reversed. -/
def keptOf (raw : String) : List (List Char) :=
  (components raw).foldl (Policy.normalize (decide (0 < initialSlashes raw.toList))) []

/-- A relative path that leads out of the directory it is read in. -/
def Climbs (raw : String) : Prop := ['.', '.'] ∈ keptOf raw

/-- Two relative paths inside the workspace, or two absolute ones with equal slashes. -/
def Alike (first second : String) : Prop :=
  initialSlashes first.toList = initialSlashes second.toList ∧
    (initialSlashes first.toList = 0 → ¬ Climbs first ∧ ¬ Climbs second)

theorem absolute_iff (raw : String) : absolute raw = true ↔ 0 < initialSlashes raw.toList := by
  unfold absolute
  cases raw.toList with
  | nil => simp [initialSlashes]
  | cons c rest =>
    by_cases slash : c = '/'
    · unfold initialSlashes
      split <;> simp_all
    · simp [initialSlashes, slash]

theorem normpath_congr (slashes : initialSlashes first.toList = initialSlashes second.toList)
    (kept : keptOf first = keptOf second) : normpath first = normpath second := by
  change (if List.replicate (initialSlashes first.toList) '/' ++
      List.intercalate ['/'] (keptOf first).reverse = [] then "." else String.ofList
        (List.replicate (initialSlashes first.toList) '/' ++ List.intercalate ['/'] (keptOf first).reverse)) = _
  rw [kept, slashes]
  rfl

theorem normpath_of_resolve {root : Root} {file : List (List Char)} (alike : Alike first second)
    (resolved : resolve root first = some file) (resolved' : resolve root second = some file) :
    normpath first = normpath second := by
  obtain ⟨slashes, inside⟩ := alike
  refine normpath_congr slashes ?_
  have place : ∀ raw, resolve root raw = some file → joined root raw = file := by
    intro raw found
    unfold resolve at found
    split at found
    next => cases found
    next =>
      split at found
      next => exact Option.some.inj found
      next => cases found
  have same : joined root first = joined root second := (place first resolved).trans (place second resolved').symm
  have walked := reverse_injective same
  by_cases relative : initialSlashes first.toList = 0
  · obtain ⟨stays, stays'⟩ := inside relative
    have relative' : initialSlashes second.toList = 0 := slashes ▸ relative
    have plain : absolute first = false := by
      rw [Bool.eq_false_iff, Ne, absolute_iff]
      omega
    have plain' : absolute second = false := by
      rw [Bool.eq_false_iff, Ne, absolute_iff]
      omega
    rw [plain, plain'] at walked
    unfold Climbs keptOf at stays stays'
    unfold keptOf
    rw [relative] at stays ⊢
    rw [relative'] at stays' ⊢
    simp only [Nat.lt_irrefl, decide_false, foldl_relative] at stays stays' ⊢
    refine lexical_of_walk ?_ ?_ walked
    · intro c mem up
      rw [(kind_up_iff c).mp up] at mem
      exact stays mem
    · intro c mem up
      rw [(kind_up_iff c).mp up] at mem
      exact stays' mem
  · have rooted : 0 < initialSlashes first.toList := Nat.pos_of_ne_zero relative
    have rooted' : 0 < initialSlashes second.toList := slashes ▸ rooted
    rw [(absolute_iff first).mpr rooted, (absolute_iff second).mpr rooted'] at walked
    have empty : ∀ c ∈ ([] : List (List Char)), kind c = .name := nofun
    unfold keptOf
    simp only [rooted, rooted', decide_true]
    rw [foldl_rooted _ empty, foldl_rooted _ empty]
    exact walked

section Policy

variable {m : Matching} {engine : PolicyEngine}

/-- Some pattern matches a text. -/
def Matched (m : Matching) (engine : PolicyEngine) (text : String) : Prop :=
  ∃ pattern ∈ engine.deniedPaths, m.fnmatch text pattern = true

theorem pathDenied_iff (raw : String) : pathDenied m engine.deniedPaths (.str raw) = true ↔
    Matched m engine raw ∨ Matched m engine (normpath raw) := by
  unfold pathDenied Matched
  simp only [any_eq_true, Bool.or_eq_true]
  constructor
  · rintro ⟨pattern, listed, first | second⟩
    · exact .inl ⟨pattern, listed, first⟩
    · exact .inr ⟨pattern, listed, second⟩
  · rintro (⟨pattern, listed, first⟩ | ⟨pattern, listed, second⟩)
    · exact ⟨pattern, listed, .inl first⟩
    · exact ⟨pattern, listed, .inr second⟩

theorem evaluate_denied {arguments : Arguments} {raw : String}
    (named : arguments.get? "path" = some (.str raw))
    (denies : pathDenied m engine.deniedPaths (.str raw) = true) (tool : String) (risk : Risk) :
    (engine.evaluate m tool arguments risk).allowed = false := by
  have found : ∃ key, deniedPathKey m engine arguments = some key := by
    refine ⟨"path", ?_⟩
    unfold deniedPathKey
    rw [List.find?_cons_of_pos]
    rw [named, Option.any_some, denies]
  obtain ⟨key, found⟩ := found
  unfold PolicyEngine.evaluate
  split
  · rfl
  · split
    · rfl
    · split
      · rfl
      · split
        · rfl
        · rw [found]
          rfl

/-- Verdicts on one normal form agree exactly when the patterns match form or texts alike. -/
theorem verdicts_agree_iff (same : normpath first = normpath second) :
    pathDenied m engine.deniedPaths (.str first) = pathDenied m engine.deniedPaths (.str second) ↔
      Matched m engine (normpath first) ∨ (Matched m engine first ↔ Matched m engine second) := by
  rw [Bool.eq_iff_iff, pathDenied_iff, pathDenied_iff, ← same]
  constructor
  · intro agree
    by_cases normal : Matched m engine (normpath first)
    · exact .inl normal
    · simp only [normal, or_false] at agree
      exact .inr agree
  · rintro (normal | agree)
    · simp only [normal, or_true]
    · rw [agree]

/-- The policy is lexical. Alike spellings of one file have one normal form, and a pattern that matches
it denies them both, whatever else the calls hold. Their verdicts differ only where the patterns match
the text of one of them and neither the other nor the normal form. -/
theorem alike_spellings_denied (m : Matching) (engine : PolicyEngine) (root : Root) (first second : String)
    (file : List (List Char)) (alike : Alike first second)
    (resolved : resolve root first = some file) (resolved' : resolve root second = some file) :
    normpath first = normpath second ∧
    (Matched m engine (normpath first) → ∀ tool risk arguments arguments',
      Arguments.get? arguments "path" = some (.str first) →
      Arguments.get? arguments' "path" = some (.str second) →
      (engine.evaluate m tool arguments risk).allowed = false ∧
        (engine.evaluate m tool arguments' risk).allowed = false) ∧
    (pathDenied m engine.deniedPaths (.str first) = pathDenied m engine.deniedPaths (.str second) ↔
      Matched m engine (normpath first) ∨ (Matched m engine first ↔ Matched m engine second)) := by
  have same := normpath_of_resolve alike resolved resolved'
  refine ⟨same, ?_, verdicts_agree_iff same⟩
  intro matched tool risk arguments arguments' named named'
  have denies := (pathDenied_iff first).mpr (Or.inr matched)
  have denies' := (pathDenied_iff second).mpr (Or.inr (same ▸ matched))
  exact ⟨evaluate_denied named denies tool risk, evaluate_denied named' denies' tool risk⟩

end Policy

/-- `fnmatch` for patterns without brackets: a star, a question mark, or the character itself. -/
def glob : List Char → List Char → Bool
  | [], text => text.isEmpty
  | c :: pattern, text =>
    if c = '*' then text.tails.any (glob pattern)
    else match text with
      | [] => false
      | d :: rest => (decide (c = '?') || decide (c = d)) && glob pattern rest

def plainMatching : Matching where
  fnmatch := fun name pattern => glob pattern.toList name.toList
  lower := id
  hostname := some

def work : Root := ⟨["work".toList], work_resolved⟩

def readOf (path : String) : Arguments := [("path", .str path)]

/-- An absolute spelling of a denied file is allowed, and so is its normal form where only the text of
another spelling is matched. -/
theorem spellings_differ :
    resolve work "secrets/key" = resolve work "/work/secrets/key" ∧
      (resolve work "secrets/key").isSome = true ∧
      (PolicyEngine.evaluate plainMatching { deniedPaths := ["secrets/*"] } "workspace.read_file"
        (readOf "secrets/key") .read).allowed = false ∧
      (PolicyEngine.evaluate plainMatching { deniedPaths := ["secrets/*"] } "workspace.read_file"
        (readOf "/work/secrets/key") .read).allowed = true ∧
      resolve work "./.env" = resolve work ".env" ∧
      (PolicyEngine.evaluate plainMatching { deniedPaths := ["*/.env"] } "workspace.read_file"
        (readOf "./.env") .read).allowed = false ∧
      (PolicyEngine.evaluate plainMatching { deniedPaths := ["*/.env"] } "workspace.read_file"
        (readOf ".env") .read).allowed = true := by
  decide +kernel

theorem private_spellings_denied :
    (PolicyEngine.evaluate plainMatching { deniedPaths := ["private/*"] } "workspace.read_file"
        (readOf "a/../private//notes") .read).allowed = false ∧
      (PolicyEngine.evaluate plainMatching { deniedPaths := ["private/*"] } "workspace.read_file"
        (readOf "private/./notes/") .read).allowed = false := by
  have climbs : ¬ Climbs "a/../private//notes" ∧ ¬ Climbs "private/./notes/" := by
    unfold Climbs
    decide +kernel
  have denied := (alike_spellings_denied plainMatching { deniedPaths := ["private/*"] } work
    "a/../private//notes" "private/./notes/" ["work".toList, "private".toList, "notes".toList] ⟨by decide +kernel, fun _ => climbs⟩
    (by decide +kernel) (by decide +kernel)).2.1
  exact denied ⟨"private/*", mem_singleton.mpr rfl, by decide +kernel⟩ "workspace.read_file" .read
    (readOf "a/../private//notes") (readOf "private/./notes/") rfl rfl

end Meemee.Guarantees.PathPolicy
