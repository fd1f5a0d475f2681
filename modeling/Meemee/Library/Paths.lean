import Mathlib.Data.List.Induction

/-!
# Paths as walks

A path is read component by component. Below a known directory each step up leaves the directory
reached; read on its own, a path keeps the steps up that lead out of its beginning. The two readings
agree on what they enter, and a path's own reading says how far it climbs first.
-/
namespace Library.Paths
open List

/-- What a component does: nothing, a step up, or a step into what it names. -/
inductive Kind where
  | stay | up | name
  deriving DecidableEq, Repr

variable {γ : Type} (kind : γ → Kind)

/-- A step from a directory, whose components are reversed. The root is above itself. -/
def walk (reached : List γ) (component : γ) : List γ :=
  match kind component with
  | .stay => reached
  | .up => reached.tail
  | .name => component :: reached

/-- A step of a path that is read on its own. -/
def lexical (kept : List γ) (component : γ) : List γ :=
  match kind component with
  | .stay => kept
  | .up =>
    match kept with
    | [] => [component]
    | last :: rest => if kind last = .up then component :: kept else rest
  | .name => component :: kept

variable {kind}

/-- What a path's own reading keeps: the names it enters, and before them the steps that climb. -/
structure Reading (kind : γ → Kind) (components kept : List γ) (names climbs : List γ) : Prop where
  kept : kept = names ++ climbs
  named : ∀ c ∈ names, kind c = .name
  up : ∀ c ∈ climbs, kind c = .up
  walked : ∀ reached, components.foldl (walk kind) reached = names ++ reached.drop climbs.length

theorem lexical_stay {c : γ} (does : kind c = .stay) (kept : List γ) : lexical kind kept c = kept := by
  simp only [lexical, does]

theorem lexical_name {c : γ} (does : kind c = .name) (kept : List γ) :
    lexical kind kept c = c :: kept := by
  simp only [lexical, does]

theorem lexical_snoc (components : List γ) (c : γ) (start : List γ) :
    (components ++ [c]).foldl (lexical kind) start = lexical kind (components.foldl (lexical kind) start) c := by
  rw [foldl_append, foldl_cons, foldl_nil]

theorem walk_snoc (components : List γ) (c : γ) (reached : List γ) :
    (components ++ [c]).foldl (walk kind) reached = walk kind (components.foldl (walk kind) reached) c := by
  rw [foldl_append, foldl_cons, foldl_nil]

/-- The induction is on the path from its end, where a step undoes the last name or climbs. -/
theorem reading (components : List γ) : ∃ names climbs,
    Reading kind components (components.foldl (lexical kind) []) names climbs := by
  induction components using List.reverseRecOn with
  | nil => exact ⟨[], [], rfl, by simp, by simp, fun reached => rfl⟩
  | append_singleton components c ih =>
    obtain ⟨names, climbs, kept, named, up, walked⟩ := ih
    cases does : kind c with
    | stay =>
      refine ⟨names, climbs, ?_, named, up, ?_⟩
      · rw [lexical_snoc, lexical_stay does]
        exact kept
      · intro reached
        rw [walk_snoc, walk, does]
        exact walked reached
    | name =>
      refine ⟨c :: names, climbs, ?_, ?_, up, ?_⟩
      · rw [lexical_snoc, lexical_name does, kept]
        rfl
      · intro d mem
        rcases mem_cons.mp mem with rfl | later
        · exact does
        · exact named d later
      · intro reached
        rw [walk_snoc, walk, does, walked]
        rfl
    | up =>
      cases names with
      | nil =>
        refine ⟨[], c :: climbs, ?_, by simp, ?_, ?_⟩
        · rw [lexical_snoc, kept]
          cases climbs with
          | nil => simp only [lexical, does, nil_append]
          | cons first rest =>
            simp only [lexical, does, up first mem_cons_self, if_true, nil_append]
        · intro d mem
          rcases mem_cons.mp mem with rfl | later
          · exact does
          · exact up d later
        · intro reached
          rw [walk_snoc, walk, does, walked]
          simp
      | cons last rest =>
        have inner : kind last = .name := named last mem_cons_self
        refine ⟨rest, climbs, ?_, fun d mem => named d (mem_cons_of_mem last mem), up, ?_⟩
        · rw [lexical_snoc, kept]
          simp only [lexical, does, inner, reduceCtorEq, if_false, cons_append]
        · intro reached
          rw [walk_snoc, walk, does, walked]
          rfl

/-- Two paths that do not climb lead from one directory to one place only if they read the same. -/
theorem lexical_of_walk {first second : List γ} {reached : List γ}
    (inside : ∀ c ∈ first.foldl (lexical kind) [], kind c ≠ .up)
    (inside' : ∀ c ∈ second.foldl (lexical kind) [], kind c ≠ .up)
    (same : first.foldl (walk kind) reached = second.foldl (walk kind) reached) :
    first.foldl (lexical kind) [] = second.foldl (lexical kind) [] := by
  have plain : ∀ components : List γ, (∀ c ∈ components.foldl (lexical kind) [], kind c ≠ .up) →
      components.foldl (walk kind) reached = components.foldl (lexical kind) [] ++ reached := by
    intro components stays
    obtain ⟨names, climbs, kept, -, up, walked⟩ := @reading γ kind components
    have level : climbs = [] := by
      cases climbs with
      | nil => rfl
      | cons c rest =>
        exact absurd (up c mem_cons_self) (stays c (by rw [kept]; simp))
    rw [walked, kept, level]
    simp
  rw [plain first inside, plain second inside'] at same
  exact append_cancel_right same

end Library.Paths
