import Meemee.Library.History
import Meemee.Library.Lineage
import Meemee.Source.PersonalModel

/-!
# The versions of a personal model

An item is a version of its owner's claim of a kind and a title. Every statement either
rewrites items in place, and then none of them becomes active or becomes a version of
another claim, or appends one active version after the one it supersedes has stopped
being active.
-/
namespace Meemee.Guarantees.PersonalVersions
open Library Library.Ownership Library.History Source Source.PurgeTargets Library.Txn Library.Table List
open Source.Rows Source.PersonalModel
open Source.PgJobs (strip)

theorem lookup_zip_set (names : List String) (g : String × Cell → Cell) (columns : List Cell)
    (name : String) :
    (names.zip ((names.zip columns).map g)).lookup name =
      ((names.zip columns).lookup name).map (fun c => g (name, c)) := by
  induction names generalizing columns with
  | nil => rfl
  | cons first rest ih =>
    cases columns with
    | nil => rfl
    | cons c others =>
      by_cases here : name = first
      · subst here
        simp
      · have different : (name == first) = false := by simpa using here
        simp only [zip_cons_cons, map_cons, lookup_cons, different]
        exact ih others

section Columns

variable {names : List String} {changes : List (String × Cell)} {name : String} {r : StoredRow}

theorem column_kept (unset : changes.lookup name = none) :
    column names name (r.recolumned (setColumns names changes)) = column names name r := by
  unfold column setColumns
  simp only [Row.recolumned]
  rw [lookup_zip_set]
  cases (names.zip r.columns).lookup name with
  | none => rfl
  | some c => simp [unset]

theorem column_set {c : Cell} (changed : changes.lookup name = some c) :
    column names name (r.recolumned (setColumns names changes)) = c ∨
      column names name (r.recolumned (setColumns names changes)) = .null := by
  unfold column setColumns
  simp only [Row.recolumned]
  rw [lookup_zip_set]
  cases (names.zip r.columns).lookup name with
  | none => exact .inr rfl
  | some old => exact .inl (by simp [changed])

end Columns

/-- Two items are versions of one claim. -/
def SameClaim (a b : StoredRow) : Prop :=
  a.owner = b.owner ∧ column itemColumns "kind" a = column itemColumns "kind" b ∧
    column itemColumns "title" a = column itemColumns "title" b

/-- The key that `supersedes_id` names. -/
def supersedes (r : StoredRow) : Option Key :=
  if column itemColumns "supersedes_id" r = .null then none
  else some [column itemColumns "supersedes_id" r]

abbrev itemKey (r : StoredRow) : Key := r.key

/-- One version of a claim replaces another. -/
def Replaces (s : Stores) (k k' : Key) : Prop :=
  ∃ r ∈ (s.tables .personalItems).rows, itemKey r = k ∧ supersedes r = some k'

structure Versioned (s : Stores) : Prop where
  /-- The columns `id TEXT PRIMARY KEY` and `owner_id`. -/
  keyed : ∀ r ∈ s.tables .personalItems, ∃ id, r.key = [.text id]
  owned : ∀ r ∈ s.tables .personalItems, r.owner ≠ some ""
  /-- At most one active item per owner, kind and title. -/
  single : ∀ a ∈ s.tables .personalItems, ∀ b ∈ s.tables .personalItems,
    isActive a = true → isActive b = true → SameClaim a b → a = b
  /-- `supersedes_id` names an earlier item of the same claim. -/
  earlier : NamesEarlier itemKey supersedes SameClaim (s.tables .personalItems).rows
  /-- Evidence belongs to an item of its owner. -/
  evidence : ∀ e ∈ s.tables .personalEvidence, ∃ k item, e.of = some k ∧
    (s.tables .personalItems).find k = some item ∧ e.owner = item.owner

variable {s t u : Stores} {p : StoredRow → Bool} {f : List Cell → List Cell} {r : StoredRow}
  {named : Key} {preserveUser : Bool}

theorem Versioned.acyclic (versioned : Versioned s) : Acyclic (Replaces s) :=
  acyclic_names (s.tables .personalItems).unique versioned.earlier

/-- An UPDATE that makes no item active and no item a version of another claim. -/
structure Rewrites (f : List Cell → List Cell) : Prop where
  kind : ∀ r, column itemColumns "kind" (r.recolumned f) = column itemColumns "kind" r
  title : ∀ r, column itemColumns "title" (r.recolumned f) = column itemColumns "title" r
  supersedes : ∀ r, column itemColumns "supersedes_id" (r.recolumned f) =
    column itemColumns "supersedes_id" r
  active : ∀ r, isActive (r.recolumned f) = true → isActive r = true

variable {changes : List (String × Cell)} {current : Option StoredRow} {value draw : String}
  {item : PersonalItemInput}

theorem rewrites_set {status : Option Cell} (kind : changes.lookup "kind" = none)
    (title : changes.lookup "title" = none) (named : changes.lookup "supersedes_id" = none)
    (set : changes.lookup "status" = status) (inactive : status ≠ some (.text "active")) :
    Rewrites (setColumns itemColumns changes) where
  kind _ := column_kept kind
  title _ := column_kept title
  supersedes _ := column_kept named
  active r := by
    intro live
    simp only [isActive, decide_eq_true_eq] at live ⊢
    cases status with
    | none =>
      rw [column_kept set] at live
      exact live
    | some c =>
      rcases @column_set itemColumns changes "status" r c set with changed | missing
      · rw [changed] at live
        exact absurd (congrArg some live) inactive
      · rw [missing] at live
        cases live

theorem inactive_set {changes : List (String × Cell)} {c : Cell} {r : StoredRow}
    (set : changes.lookup "status" = some c) (other : c ≠ .text "active") :
    isActive (r.recolumned (setColumns itemColumns changes)) = false := by
  refine decide_eq_false ?_
  rcases @column_set itemColumns changes "status" r c set with changed | missing
  · rw [changed]
    exact other
  · rw [missing]
    exact Cell.noConfusion

/-- The items with `f` written where `p` holds. -/
def revise (p : StoredRow → Bool) (f : List Cell → List Cell) (r : StoredRow) : StoredRow :=
  if p r then r.recolumned f else r

section Revise

variable {p : StoredRow → Bool} {f : List Cell → List Cell} {r : StoredRow}

theorem revise_key : (revise p f r).key = r.key := by
  unfold revise
  split <;> rfl

theorem revise_owner : (revise p f r).owner = r.owner := by
  unfold revise
  split <;> rfl

theorem revise_kept (rewrites : Rewrites f) :
    column itemColumns "kind" (revise p f r) = column itemColumns "kind" r ∧
      column itemColumns "title" (revise p f r) = column itemColumns "title" r ∧
      column itemColumns "supersedes_id" (revise p f r) = column itemColumns "supersedes_id" r := by
  unfold revise
  split
  next => exact ⟨rewrites.kind r, rewrites.title r, rewrites.supersedes r⟩
  next => exact ⟨rfl, rfl, rfl⟩

theorem revise_active (rewrites : Rewrites f) (live : isActive (revise p f r) = true) :
    isActive r = true := by
  unfold revise at live
  split at live
  next => exact rewrites.active r live
  next => exact live

theorem revise_claim {b : StoredRow} (rewrites : Rewrites f) :
    SameClaim (revise p f r) (revise p f b) ↔ SameClaim r b := by
  obtain ⟨kindR, titleR, -⟩ := revise_kept (p := p) (r := r) rewrites
  obtain ⟨kindB, titleB, -⟩ := revise_kept (p := p) (r := b) rewrites
  simp only [SameClaim, revise_owner, kindR, titleR, kindB, titleB]

end Revise

theorem updateWith_items (run : updateWith .personalItems p f s = (.ok (), t)) :
    (t.tables .personalItems).rows = (s.tables .personalItems).rows.map (revise p f) ∧
      ∀ u, u ≠ .personalItems → t.tables u = s.tables u := by
  cases run
  refine ⟨rfl, ?_⟩
  intro u other
  simp [updated, other]

theorem find_revised
    (rows : (t.tables .personalItems).rows = (s.tables .personalItems).rows.map (revise p f))
    (k : Key) : (t.tables .personalItems).find k =
      ((s.tables .personalItems).find k).map (revise p f) := by
  have updated : t.tables .personalItems = (s.tables .personalItems).update p
      (Row.recolumned f) (Row.recolumned_key f) := ext_rows rows
  rw [updated, find_update]
  rfl

theorem versioned_revised (versioned : Versioned s) (rewrites : Rewrites f)
    (rows : (t.tables .personalItems).rows = (s.tables .personalItems).rows.map (revise p f))
    (aside : ∀ u, u ≠ .personalItems → t.tables u = s.tables u) : Versioned t := by
  have from_old : ∀ r ∈ t.tables .personalItems, ∃ old ∈ s.tables .personalItems,
      revise p f old = r := by
    intro r mem
    rw [← mem_rows, rows] at mem
    exact mem_map.mp mem
  refine ⟨?_, ?_, ?_, ?_, ?_⟩
  · intro r mem
    obtain ⟨old, stored, rfl⟩ := from_old r mem
    rw [revise_key]
    exact versioned.keyed old stored
  · intro r mem
    obtain ⟨old, stored, rfl⟩ := from_old r mem
    rw [revise_owner]
    exact versioned.owned old stored
  · intro a first b second liveA liveB same
    obtain ⟨oldA, storedA, rfl⟩ := from_old a first
    obtain ⟨oldB, storedB, rfl⟩ := from_old b second
    rw [versioned.single oldA storedA oldB storedB (revise_active rewrites liveA)
      (revise_active rewrites liveB) ((revise_claim rewrites).mp same)]
  · rw [rows]
    refine namesEarlier_map (fun _ => revise_key) ?_ ?_ versioned.earlier
    · intro r
      simp only [supersedes, (revise_kept (p := p) (r := r) rewrites).2.2]
    · intro a b same
      exact (revise_claim rewrites).mpr same
  · intro e mem
    rw [aside .personalEvidence (by decide)] at mem
    obtain ⟨k, item, names, found, same⟩ := versioned.evidence e mem
    exact ⟨k, revise p f item, names, by rw [find_revised rows, found, Option.map_some],
      same.trans revise_owner.symm⟩

theorem insertPersonal_returned {t : TableName} (run : insertPersonal t r s = (.ok (), u)) :
    ∃ fresh : (s.tables t).find r.key = none, u.tables t = (s.tables t).insert r fresh ∧
      ∀ other, other ≠ t → u.tables other = s.tables other := by
  unfold insertPersonal at run
  split at run
  next => cases run
  next taken =>
    split at run
    next fits =>
      cases run
      have fresh : (s.tables t).find r.key = none := by simpa using taken
      refine ⟨fresh, ?_, ?_⟩
      · simp only [inserted, if_true]
        rw [insertOrIgnore_fresh fresh]
      · intro other different
        simp only [inserted, different, if_false]
    next => cases run

theorem versioned_item (versioned : Versioned s)
    (run : insertPersonal .personalItems r s = (.ok (), u)) (keyed : ∃ id, r.key = [.text id])
    (owned : r.owner ≠ some "")
    (vacant : ∀ a ∈ s.tables .personalItems, isActive a = true → ¬ SameClaim a r)
    (back : ∀ k, supersedes r = some k → ∃ b ∈ (s.tables .personalItems).rows, itemKey b = k ∧
      SameClaim b r) : Versioned u := by
  obtain ⟨fresh, rows, aside⟩ := insertPersonal_returned run
  have from_old : ∀ a ∈ u.tables .personalItems, a ∈ s.tables .personalItems ∨ a = r := by
    intro a mem
    rw [rows] at mem
    exact (mem_insert fresh).mp mem
  refine ⟨?_, ?_, ?_, ?_, ?_⟩
  · intro a mem
    rcases from_old a mem with stored | rfl
    · exact versioned.keyed a stored
    · exact keyed
  · intro a mem
    rcases from_old a mem with stored | rfl
    · exact versioned.owned a stored
    · exact owned
  · intro a first b second liveA liveB same
    rcases from_old a first with storedA | rfl
    · rcases from_old b second with storedB | rfl
      · exact versioned.single a storedA b storedB liveA liveB same
      · exact absurd same (vacant a storedA liveA)
    · rcases from_old b second with storedB | rfl
      · exact absurd ⟨same.1.symm, same.2.1.symm, same.2.2.symm⟩ (vacant b storedB liveB)
      · rfl
  · rw [rows]
    exact namesEarlier_append versioned.earlier back
  · intro e mem
    rw [aside .personalEvidence (by decide)] at mem
    obtain ⟨k, item, names, found, same⟩ := versioned.evidence e mem
    refine ⟨k, item, names, ?_, same⟩
    rw [rows]
    exact find_insert_of_found fresh found

theorem versioned_evidence {e : StoredRow} {k : Key} {item : StoredRow} (versioned : Versioned s)
    (run : insertPersonal .personalEvidence e s = (.ok (), u)) (names : e.of = some k)
    (found : (s.tables .personalItems).find k = some item) (same : e.owner = item.owner) :
    Versioned u := by
  obtain ⟨fresh, rows, aside⟩ := insertPersonal_returned run
  have items := aside .personalItems (by decide)
  refine ⟨by rw [items]; exact versioned.keyed, by rw [items]; exact versioned.owned,
    by rw [items]; exact versioned.single, by rw [items]; exact versioned.earlier, ?_⟩
  intro other mem
  rw [rows] at mem
  rw [items]
  rcases (mem_insert fresh).mp mem with stored | rfl
  · exact versioned.evidence other stored
  · exact ⟨k, item, names, found, same⟩

section Place

variable {ownerId ident : String} {item : PersonalItemInput} {now : Instant} {s t : Stores}

theorem newItem_claim (named : Cell) :
    column itemColumns "kind" (newItem ownerId ident item named now) = .text item.kind ∧
      column itemColumns "title" (newItem ownerId ident item named now) = .text (strip item.title) ∧
      column itemColumns "supersedes_id" (newItem ownerId ident item named now) = named :=
  ⟨rfl, rfl, rfl⟩

theorem isCurrent_iff (ident : String) (now : Instant) (named : Cell) :
    isCurrent ownerId item r = true ↔
      isActive r = true ∧ SameClaim r (newItem ownerId ident item named now) := by
  obtain ⟨kind, title, -⟩ := @newItem_claim ownerId ident item now named
  simp only [isCurrent, isActive, SameClaim, decide_eq_true_eq]
  tauto

/-- The item that a claim is placed as, and its owner. -/
def Placed (ownerId : String) (named : Key) (t : Stores) : Prop :=
  Versioned t ∧ ∃ r, (t.tables .personalItems).find named = some r ∧ r.owner = some ownerId

theorem newItem_placed {named : Cell} (versioned : Versioned s) (nonempty : ownerId ≠ "")
    (run : insertPersonal .personalItems (newItem ownerId ident item named now) s = (.ok (), t))
    (vacant : ∀ a ∈ s.tables .personalItems, isCurrent ownerId item a = false)
    (back : named ≠ .null → ∃ b ∈ (s.tables .personalItems).rows, itemKey b = [named] ∧
      SameClaim b (newItem ownerId ident item named now)) : Placed ownerId [.text ident] t := by
  refine ⟨versioned_item versioned run ⟨ident, rfl⟩ ?_ ?_ ?_, ?_⟩
  · exact fun same => nonempty (Option.some.inj same)
  · intro a stored live same
    have current := (isCurrent_iff ident now named).mpr ⟨live, same⟩
    rw [vacant a stored] at current
    cases current
  · intro k names
    unfold supersedes at names
    rw [(newItem_claim named).2.2] at names
    split at names
    next => cases names
    next there =>
      obtain rfl := Option.some.inj names
      exact back there
  · obtain ⟨fresh, rows, -⟩ := insertPersonal_returned run
    refine ⟨newItem ownerId ident item named now, ?_, rfl⟩
    rw [rows, find_insert]
    exact if_pos rfl

theorem updateRows_items (run : updateRows .personalItems itemColumns p changes s = (.ok (), t)) :
    (t.tables .personalItems).rows =
        (s.tables .personalItems).rows.map (revise p (setColumns itemColumns changes)) ∧
      ∀ u, u ≠ .personalItems → t.tables u = s.tables u :=
  updateWith_items run

theorem placeItem_placed (versioned : Versioned s) (nonempty : ownerId ≠ "")
    (read : current = ((s.tables .personalItems).select (isCurrent ownerId item)).head?)
    (run : placeItem ownerId ident current item now s = (.ok named, t)) :
    Placed ownerId named t := by
  cases current with
  | none =>
    obtain ⟨_, s₁, started, done⟩ := bind_returned run
    cases done
    refine newItem_placed versioned nonempty started ?_ (fun other => absurd rfl other)
    intro a stored
    have empty := List.head?_eq_none_iff.mp read.symm
    exact Bool.eq_false_iff.mpr (filter_eq_nil_iff.mp empty a stored)
  | some row =>
    obtain ⟨stored, here⟩ := mem_filter.mp (mem_of_mem_head? read.symm)
    obtain ⟨live, same⟩ := (isCurrent_iff ident now .null).mp here
    have found : (s.tables .personalItems).find row.key = some row := find_of_mem stored
    have own : row.owner = some ownerId := same.1
    rw [placeItem] at run
    split at run
    next =>
      obtain ⟨_, s₁, written, done⟩ := bind_returned run
      cases done
      obtain ⟨rows, aside⟩ := updateRows_items written
      have kept := find_revised rows row.key
      rw [found] at kept
      exact ⟨versioned_revised versioned (rewrites_set rfl rfl rfl (show _ = none from rfl)
        (by simp)) rows aside, _, kept, revise_owner.trans own⟩
    next =>
      obtain ⟨_, s₁, written, rest⟩ := bind_returned run
      obtain ⟨_, s₂, added, done⟩ := bind_returned rest
      cases done
      obtain ⟨rows, aside⟩ := updateRows_items written
      have rewrites : Rewrites (setColumns itemColumns [("status", .text "superseded"),
          ("updated_at", .integer now)]) :=
        rewrites_set rfl rfl rfl (show _ = some (.text "superseded") from rfl) (by simp)
      have revised := versioned_revised versioned rewrites rows aside
      obtain ⟨id, keyed⟩ := versioned.keyed row stored
      have head : row.key.headD .null = .text id := by rw [keyed, headD_cons]
      rw [head] at added
      have changed : revise (hasKey row.key) (setColumns itemColumns [("status", .text "superseded"),
          ("updated_at", .integer now)]) row ∈ (s₁.tables .personalItems).rows := by
        rw [rows]
        exact mem_map_of_mem stored
      refine newItem_placed revised nonempty added ?_ ?_
      · -- An active version would have been the current item, which is superseded now.
        intro a mem
        refine Bool.eq_false_iff.mpr ?_
        intro current
        obtain ⟨liveA, sameA⟩ := (isCurrent_iff ident now .null).mp current
        rw [← mem_rows, rows] at mem
        obtain ⟨old, there, rfl⟩ := mem_map.mp mem
        obtain ⟨kind, title, -⟩ := revise_kept (p := hasKey row.key) (r := old) rewrites
        have one : old = row := versioned.single old there row stored (revise_active rewrites liveA) live
          ⟨revise_owner.symm.trans (sameA.1.trans same.1.symm),
            kind.symm.trans (sameA.2.1.trans same.2.1.symm),
            title.symm.trans (sameA.2.2.trans same.2.2.symm)⟩
        subst one
        have inactive := @inactive_set [("status", .text "superseded"),
          ("updated_at", .integer now)] _ old rfl (by simp)
        rw [revise, if_pos (by simp [hasKey])] at liveA
        rw [inactive] at liveA
        cases liveA
      · intro _
        obtain ⟨kind, title, -⟩ := revise_kept (p := hasKey row.key) (r := row) rewrites
        exact ⟨_, changed, revise_key.trans keyed, revise_owner.trans same.1,
          kind.trans same.2.1, title.trans same.2.2⟩

theorem addEvidence_versioned (placed : Placed ownerId named s)
    (run : addEvidence ownerId named item now s = (.ok (), t)) : Versioned t := by
  obtain ⟨versioned, row, found, own⟩ := placed
  unfold addEvidence at run
  simp only [run_bind_read] at run
  split at run
  next =>
    cases run
    exact versioned
  next => exact versioned_evidence versioned run rfl found own.symm

theorem placed_versioned (versioned : Versioned s) (nonempty : ownerId ≠ "")
    (read : current = ((s.tables .personalItems).select (isCurrent ownerId item)).head?)
    {s₁ : Stores} (placed : placeItem ownerId ident current item now s = (.ok named, s₁))
    (added : addEvidence ownerId named item now s₁ = (.ok (), t)) : Versioned t :=
  addEvidence_versioned (placeItem_placed versioned nonempty read placed) added

theorem upsertExpecting_versioned {expected : Option Key} {written : Written}
    (versioned : Versioned s) (nonempty : ownerId ≠ "")
    (run : upsertExpecting ownerId item ident preserveUser expected now s = (.ok written, t)) :
    Versioned t := by
  unfold upsertExpecting at run
  simp only [run_bind_read, run_ite] at run
  split at run
  next =>
    cases run
    exact versioned
  next =>
    split at run
    next =>
      cases run
      exact versioned
    next =>
      obtain ⟨named, s₁, placed, rest⟩ := bind_returned run
      obtain ⟨_, s₂, added, done⟩ := bind_returned rest
      cases done
      exact placed_versioned versioned nonempty rfl placed added

theorem upsertLocked_versioned {preserved : Bool} (versioned : Versioned s)
    (nonempty : ownerId ≠ "")
    (run : upsertLocked ownerId item ident preserveUser now s = (.ok preserved, t)) :
    Versioned t := by
  unfold upsertLocked at run
  simp only [run_bind_read] at run
  split at run
  next =>
    cases run
    exact versioned
  next =>
    obtain ⟨named, s₁, placed, rest⟩ := bind_returned run
    obtain ⟨_, s₂, added, done⟩ := bind_returned rest
    cases done
    exact placed_versioned versioned nonempty rfl placed added

end Place

section Calls

variable {ownerId : String} {now : Instant}

theorem upsertAll_versioned (nonempty : ownerId ≠ "") (items : List (PersonalItemInput × String))
    {preserved : List Bool} (versioned : Versioned s)
    (run : upsertAll ownerId preserveUser now items s = (.ok preserved, t)) : Versioned t := by
  induction items generalizing s preserved with
  | nil =>
    cases run
    exact versioned
  | cons first rest ih =>
    obtain ⟨one, s₁, upserted, others⟩ := bind_returned run
    obtain ⟨more, s₂, later, done⟩ := bind_returned others
    cases done
    exact ih (upsertLocked_versioned versioned nonempty upserted) later

variable {s : Stores}

theorem upsertBatch_versioned (versioned : Versioned s) (items : List (PersonalItemInput × String))
    (preserveUser : Bool) : Versioned (upsertBatch ownerId items preserveUser now s).2 := by
  unfold upsertBatch
  rw [run_require_bind]
  split
  next nonempty =>
    exact atomically_keeps versioned (fun _ _ run =>
      upsertAll_versioned (of_decide_eq_true nonempty) items versioned run)
  next => exact versioned

theorem upsert_versioned (versioned : Versioned s) (item : PersonalItemInput) (ident : String)
    (preserveUser : Bool) (expected : Option Key) :
    Versioned (upsert ownerId item ident preserveUser expected now s).2 := by
  unfold upsert
  rw [run_require_bind]
  split
  next nonempty =>
    exact atomically_keeps versioned (fun _ _ run =>
      upsertExpecting_versioned versioned (of_decide_eq_true nonempty) run)
  next => exact versioned

theorem updateWith_versioned (versioned : Versioned s) (p : StoredRow → Bool)
    (rewrites : Rewrites f) : Versioned (updateWith .personalItems p f s).2 := by
  obtain ⟨rows, aside⟩ := updateWith_items (t := (updateWith .personalItems p f s).2) rfl
  exact versioned_revised versioned rewrites rows aside

theorem decay_versioned (versioned : Versioned s) (scaled : Int → Int) (inRange : Bool)
    (before : Instant) : Versioned (decay scaled inRange ownerId before now s).2 := by
  have rewrites : Rewrites (decayed scaled now) := by
    have each (columns : List Cell) : Rewrites (setColumns itemColumns
        [("confidence", .integer (scaled (integerOf (cellOf itemColumns "confidence" columns)))),
          ("updated_at", .integer now)]) :=
      rewrites_set rfl rfl rfl (show _ = none from rfl) (by simp)
    exact ⟨fun r => (each r.columns).kind r, fun r => (each r.columns).title r,
      fun r => (each r.columns).supersedes r, fun r => (each r.columns).active r⟩
  unfold decay
  rw [run_require_bind]
  split
  next =>
    refine atomically_keeps versioned (fun _ _ run => ?_)
    cases run
    exact updateWith_versioned versioned _ rewrites
  next => exact versioned

theorem deleteItem_versioned (versioned : Versioned s) (k : Key) :
    Versioned (deleteItem ownerId k now s).2 := by
  refine atomically_keeps versioned (fun _ _ run => ?_)
  cases run
  exact updateWith_versioned versioned _ (rewrites_set rfl rfl rfl
    (show _ = some (.text "deleted") from rfl) (by simp))

theorem writeExpired_versioned (versioned : Versioned s) (expired : List Key) :
    Versioned (writeExpired ownerId now expired s).2 := by
  have each : ∀ (s t : Stores), Versioned s → expireItems ownerId now expired s = (.ok (), t) →
      Versioned t := by
    induction expired with
    | nil =>
      intro s t before run
      cases run
      exact before
    | cons k rest ih =>
      intro s t before run
      obtain ⟨_, s₁, written, later⟩ := bind_returned run
      obtain ⟨rows, aside⟩ := updateRows_items written
      exact ih s₁ t (versioned_revised before (rewrites_set rfl rfl rfl
        (show _ = some (.text "superseded") from rfl) (by simp)) rows aside) later
  refine atomically_keeps versioned (fun _ _ run => ?_)
  obtain ⟨_, s₁, written, done⟩ := bind_returned run
  cases done
  exact each s _ versioned written

end Calls

/-- A `correct` that has read its item. -/
structure Correcting where
  ownerId : String
  key : Key
  item : PersonalItemInput

/-- An `expire` that has read its items. -/
structure Expiring where
  ownerId : String
  clock : Instant
  expired : List Key

structure Model where
  store : Stores
  correcting : Nat → Option Correcting
  expiring : Nat → Option Expiring

inductive Action where
  | upsert (ownerId : String) (item : PersonalItemInput) (ident : String) (preserveUser : Bool)
      (expected : Option Key) (now : Instant)
  | upsertBatch (ownerId : String) (items : List (PersonalItemInput × String)) (preserveUser : Bool)
      (now : Instant)
  | readCorrection (n : Nat) (ownerId : String) (k : Key) (value draw : String)
  | writeCorrection (n : Nat) (ident : String) (now : Instant)
  | decay (scaled : Int → Int) (inRange : Bool) (ownerId : String) (before now : Instant)
  | delete (ownerId : String) (k : Key) (now : Instant)
  | readExpired (n : Nat) (ownerId : String) (clock : Instant)
  | writeExpired (n : Nat)

inductive Value where
  | goesOn
  | written (value : Written)
  | batch (preserved : List Bool)
  | corrected (view : Option ItemView)
  | number (value : Nat)
  | told (value : Bool)

section System

variable (validated : PersonalItemInput → Except Exc PersonalItemInput) (certain : Int)
  (lapsed : String → Instant → Bool)

/-- The store after a call, and its answer. -/
def Model.call {α : Type} (m : Model) (wrap : α → Value) (program : StoreTxn α) :
    Except Exc Value × Model :=
  ((Txn.answer wrap program m.store).1, { m with store := (Txn.answer wrap program m.store).2 })

def Model.awaiting (m : Model) (n : Nat) (c : Option Correcting) : Model :=
  { m with correcting := Function.update m.correcting n c }

/-- The reading half of a `correct` ends the call, or leaves it with its claim. -/
def Model.readCorrection (m : Model) (n : Nat) (ownerId : String) (k : Key) (value draw : String) :
    Except Exc Value × Model :=
  match (PersonalModel.readCorrection validated certain ownerId k value draw m.store).1 with
  | .error e => (.error e, m.awaiting n none)
  | .ok none => (.ok (.corrected none), m.awaiting n none)
  | .ok (some item) => (.ok .goesOn, m.awaiting n (some ⟨ownerId, k, item⟩))

def step (m : Model) : Action → Except Exc Value × Model
  | .upsert ownerId item ident preserveUser expected now =>
    m.call .written (PersonalModel.upsert ownerId item ident preserveUser expected now)
  | .upsertBatch ownerId items preserveUser now =>
    m.call .batch (PersonalModel.upsertBatch ownerId items preserveUser now)
  | .readCorrection n ownerId k value draw =>
    m.readCorrection validated certain n ownerId k value draw
  | .writeCorrection n ident now =>
    match m.correcting n with
    | none => (.ok .goesOn, m)
    | some c =>
      (m.awaiting n none).call .corrected
        (PersonalModel.writeCorrection c.ownerId c.key c.item ident now)
  | .decay scaled inRange ownerId before now =>
    m.call .number (PersonalModel.decay scaled inRange ownerId before now)
  | .delete ownerId k now => m.call .told (deleteItem ownerId k now)
  | .readExpired n ownerId clock =>
    let expired := PersonalModel.readExpired lapsed ownerId clock m.store
    (.ok .goesOn, { m with expiring := Function.update m.expiring n (some ⟨ownerId, clock, expired⟩) })
  | .writeExpired n =>
    match m.expiring n with
    | none => (.ok .goesOn, m)
    | some x =>
      { m with expiring := Function.update m.expiring n none }.call .number
        (PersonalModel.writeExpired x.ownerId x.clock x.expired)

end System

/-- The owner's item of the key is active. -/
def ActiveItem (s : Stores) (ownerId : String) (k : Key) : Prop :=
  ∃ r, (s.tables .personalItems).find k = some r ∧ r.owner = some ownerId ∧ isActive r = true

section Correction

variable {validated : PersonalItemInput → Except Exc PersonalItemInput} {certain : Int}
  {ownerId : String} {k : Key} {s : Stores}

theorem getItem_some {view : ItemView} (read : getItem ownerId k s = some view) :
    (s.tables .personalItems).find k = some view.1 ∧ view.1.owner = some ownerId := by
  unfold getItem at read
  rw [Option.bind_eq_some_iff] at read
  obtain ⟨r, found, here⟩ := read
  split at here
  next own =>
    cases here
    exact ⟨found, own⟩
  next => cases here

theorem readCorrection_inactive (inactive : ¬ ActiveItem s ownerId k) :
    PersonalModel.readCorrection validated certain ownerId k value draw s = (.ok none, s) := by
  unfold PersonalModel.readCorrection
  simp only [run_bind_read]
  cases read : getItem ownerId k s with
  | none => rfl
  | some view =>
    obtain ⟨found, own⟩ := getItem_some read
    have status : isActive view.1 = false :=
      Bool.eq_false_iff.mpr (fun live => inactive ⟨view.1, found, own, live⟩)
    simp only [status, Bool.false_eq_true, if_false, run_pure]

theorem readCorrection_goesOn
    (read : (PersonalModel.readCorrection validated certain ownerId k value draw s).1 =
      .ok (some item)) : ActiveItem s ownerId k := by
  by_cases active : ActiveItem s ownerId k
  · exact active
  · rw [readCorrection_inactive active] at read
    cases read

theorem displaced_of_inactive (inactive : ¬ ActiveItem s ownerId k) :
    displaced (some k) ((s.tables .personalItems).select (isCurrent ownerId item)).head? = true := by
  cases read : ((s.tables .personalItems).select (isCurrent ownerId item)).head? with
  | none => rfl
  | some row =>
    obtain ⟨stored, here⟩ := mem_filter.mp (mem_of_mem_head? read)
    obtain ⟨live, same⟩ := (isCurrent_iff "" 0 .null).mp here
    simp only [displaced, Option.any_some, Option.all_some, decide_eq_true_eq]
    rintro rfl
    exact inactive ⟨row, find_of_mem stored, same.1, live⟩

theorem writeCorrection_inactive {item : PersonalItemInput} {ident : String} {now : Instant}
    (nonempty : ownerId ≠ "") (inactive : ¬ ActiveItem s ownerId k) :
    PersonalModel.writeCorrection ownerId k item ident now s = (.ok none, s) := by
  have written : PersonalModel.upsert ownerId item ident false (some k) now s =
      (.ok .displaced, s) := by
    unfold PersonalModel.upsert
    rw [run_require_bind, if_pos (decide_eq_true nonempty)]
    refine atomically_of_ok ?_
    unfold upsertExpecting
    simp only [run_bind_read, displaced_of_inactive inactive, if_true, run_pure]
  unfold PersonalModel.writeCorrection
  rw [run_bind_ok written]
  rfl

end Correction

/-- The store keeps its versions, and every correction that has read an item has an owner. -/
structure Sound (m : Model) : Prop where
  versioned : Versioned m.store
  owned : ∀ n c, m.correcting n = some c → c.ownerId ≠ ""

/-- A correction of an item that is no longer active answers `None` and changes nothing. -/
def CorrectsActive (e : Event Model Action (Except Exc Value)) : Prop :=
  (∀ n ownerId k value draw, e.action = .readCorrection n ownerId k value draw →
    ¬ ActiveItem e.before.store ownerId k →
      e.answer = .ok (.corrected none) ∧ e.after.store = e.before.store) ∧
  (∀ n ident now c, e.action = .writeCorrection n ident now → e.before.correcting n = some c →
    ¬ ActiveItem e.before.store c.ownerId c.key →
      e.answer = .ok (.corrected none) ∧ e.after.store = e.before.store)

variable {m : Model}

section Runs

variable {validated : PersonalItemInput → Except Exc PersonalItemInput} {certain : Int}
  {lapsed : String → Instant → Bool}

theorem call_sound {α : Type} {wrap : α → Value} {program : StoreTxn α} (sound : Sound m)
    (kept : Versioned (program m.store).2) : Sound (m.call wrap program).2 := by
  refine ⟨?_, sound.owned⟩
  unfold Model.call Txn.answer
  rcases run : program m.store with ⟨answer, t⟩
  rw [run] at kept
  cases answer <;> exact kept

theorem Sound.awaiting (sound : Sound m) (n : Nat) {slot : Option Correcting}
    (owned : ∀ c, slot = some c → c.ownerId ≠ "") : Sound (m.awaiting n slot) := by
  refine ⟨sound.versioned, ?_⟩
  intro other c pending
  simp only [Model.awaiting, Function.update_apply] at pending
  split at pending
  next => exact owned c pending
  next => exact sound.owned other c pending

theorem Sound.settled {m : Model} (sound : Sound m) (n : Nat) : Sound (m.awaiting n none) :=
  sound.awaiting n nofun

theorem readCorrection_sound (sound : Sound m) (n : Nat) (ownerId : String) (k : Key)
    (value draw : String) :
    Sound (m.readCorrection validated certain n ownerId k value draw).2 := by
  unfold Model.readCorrection
  cases read : (PersonalModel.readCorrection validated certain ownerId k value draw m.store).1 with
  | error e => exact sound.settled n
  | ok result =>
    cases result with
    | none => exact sound.settled n
    | some item =>
      obtain ⟨row, found, own, -⟩ := readCorrection_goesOn read
      refine sound.awaiting n ?_
      intro c pending
      cases pending
      rintro rfl
      exact sound.versioned.owned row (mem_of_find found) own

theorem writeCorrection_versioned (versioned : Versioned s) (ownerId : String) (k : Key)
    (item : PersonalItemInput) (ident : String) (now : Instant) :
    Versioned (PersonalModel.writeCorrection ownerId k item ident now s).2 := by
  have kept := @upsert_versioned ownerId now s versioned item ident false (some k)
  unfold PersonalModel.writeCorrection
  rcases run : PersonalModel.upsert ownerId item ident false (some k) now s with ⟨answer, t⟩
  rw [run] at kept
  cases answer with
  | error e =>
    rw [run_bind_error run]
    exact kept
  | ok written =>
    rw [run_bind_ok run]
    cases written <;> exact kept

theorem step_sound (m : Model) (action : Action) (sound : Sound m) :
    Sound (step validated certain lapsed m action).2 := by
  cases action with
  | upsert ownerId item ident preserveUser expected now =>
    exact call_sound sound (upsert_versioned sound.versioned item ident preserveUser expected)
  | upsertBatch ownerId items preserveUser now =>
    exact call_sound sound (upsertBatch_versioned sound.versioned items preserveUser)
  | readCorrection n ownerId k value draw => exact readCorrection_sound sound n ownerId k value draw
  | writeCorrection n ident now =>
    rw [step]
    cases pending : m.correcting n with
    | none => exact sound
    | some c =>
      exact call_sound (sound.settled n)
        (writeCorrection_versioned sound.versioned c.ownerId c.key c.item ident now)
  | decay scaled inRange ownerId before now =>
    exact call_sound sound (decay_versioned sound.versioned scaled inRange before)
  | delete ownerId k now => exact call_sound sound (deleteItem_versioned sound.versioned k)
  | readExpired n ownerId clock => exact ⟨sound.versioned, sound.owned⟩
  | writeExpired n =>
    rw [step]
    cases pending : m.expiring n with
    | none => exact sound
    | some x =>
      have settled : Sound { m with expiring := Function.update m.expiring n none } :=
        ⟨sound.versioned, sound.owned⟩
      exact call_sound settled (writeExpired_versioned sound.versioned x.expired)

theorem step_correctsActive (m : Model) (action : Action) (sound : Sound m) :
    CorrectsActive ⟨m, action, (step validated certain lapsed m action).1,
      (step validated certain lapsed m action).2⟩ := by
  constructor
  · rintro n ownerId k value draw rfl inactive
    simp only [step, Model.readCorrection, readCorrection_inactive inactive]
    trivial
  · rintro n ident now c rfl pending inactive
    have written := @writeCorrection_inactive c.ownerId c.key m.store c.item ident now
      (sound.owned n c pending) inactive
    have waiting : m.correcting n = some c := pending
    have settled : PersonalModel.writeCorrection c.ownerId c.key c.item ident now
        (m.awaiting n none).store = (.ok none, m.store) := written
    simp only [step, waiting, Model.call, answer_of_ok settled]
    exact ⟨trivial, trivial⟩

end Runs

/-- In every run of `upsert`, `upsert_batch`, `correct` (its reading and its writing are two
steps), `decay`, `delete` and `expire`, by any owners: the store keeps its versions, what
supersedes what has no cycle, and a correction of an item that is not active does nothing. -/
theorem versions_upheld (validated : PersonalItemInput → Except Exc PersonalItemInput) (certain : Int)
    (lapsed : String → Instant → Bool) (s : Stores) (start : Versioned s) (run : List Action) :
    ∀ e ∈ history (step validated certain lapsed) ⟨s, fun _ => none, fun _ => none⟩ run,
      Versioned e.after.store ∧ Acyclic (Replaces e.after.store) ∧ CorrectsActive e := by
  have sound : Sound ⟨s, fun _ => none, fun _ => none⟩ := ⟨start, nofun⟩
  intro e member
  obtain ⟨before, after⟩ := (@invariant Model Action (Except Exc Value)
    (step validated certain lapsed) Sound step_sound _ sound run).1 e member
  have here := step_of_mem member
  have shape : e = ⟨e.before, e.action, (step validated certain lapsed e.before e.action).1,
      (step validated certain lapsed e.before e.action).2⟩ := by rw [here]
  refine ⟨after.versioned, after.versioned.acyclic, ?_⟩
  rw [shape]
  exact step_correctsActive e.before e.action before

def emptyStores : Stores where
  tables := fun _ => Table.empty
  evidenceOwned := nofun
  jobs := Jobs.JobStore.empty

theorem emptyStores_versioned : Versioned emptyStores where
  keyed _ stored := by cases stored
  owned _ stored := by cases stored
  single _ stored := by cases stored
  earlier := namesEarlier_nil
  evidence _ stored := by cases stored

def tea (value : String) : PersonalItemInput :=
  ⟨"preference", "tea", value, 1, "user", "form", none, none⟩

/-- ada's correction has read the first version when another call supersedes it. -/
def lateCorrection : List Action :=
  [.upsert "ada" (tea "green") "i1" false none 1,
   .readCorrection 0 "ada" [.text "i1"] "black" "d1",
   .upsert "ada" (tea "white") "i2" false none 2,
   .writeCorrection 0 "i3" 3]

/-- The late half of the correction answers that there is no active item. -/
theorem lateCorrection_upheld :
    ((history (step Except.ok 1 (fun _ _ => false))
      ⟨emptyStores, fun _ => none, fun _ => none⟩ lateCorrection).map (fun e => match e.answer with
        | .ok (.corrected view) => view.isSome
        | _ => true)) = [true, true, true, false] ∧
    ∀ e ∈ history (step Except.ok 1 (fun _ _ => false))
      ⟨emptyStores, fun _ => none, fun _ => none⟩ lateCorrection,
        Versioned e.after.store ∧ Acyclic (Replaces e.after.store) ∧ CorrectsActive e :=
  ⟨by decide +kernel,
    versions_upheld Except.ok 1 (fun _ _ => false) emptyStores emptyStores_versioned lateCorrection⟩

end Meemee.Guarantees.PersonalVersions
