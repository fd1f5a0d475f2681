import Meemee.Guarantees.ApprovalConstraints
import Meemee.Source.EventPayload

/-!
# What identifies an event's payload

A payload that the preflight lets pass denotes one value, and its canonical text is that value's. Such
texts are read back, so two are the same exactly for values that are equal up to the order of keys,
with the types of scalars, the characters of strings and the signs of zeros as they are.
-/
namespace Meemee.Guarantees.PayloadIdentity
open Source Source.Json EventPayload DeviceProtocol Option
open MonitorIdentity (EventIdentity ReplayStatus checkText checkCap identifier classify)
open Guarantees.JsonLoading Guarantees.ApprovalConstraints

theorem mapM_some_iff {α β : Type} {f : α → Option β} {items : List α} {found : List β} :
    items.mapM f = some found ↔ List.Forall₂ (fun a b => f a = some b) items found := by
  induction items generalizing found with
  | nil => simp [eq_comm]
  | cons item rest ih =>
    rw [List.mapM_cons, List.forall₂_cons_left_iff]
    simp only [bind_eq_bind, bind_eq_some_iff, pure_def, Option.some.injEq]
    constructor
    · rintro ⟨b, here, bs, later, rfl⟩
      exact ⟨b, bs, here, ih.mp later, rfl⟩
    · rintro ⟨b, bs, here, later, rfl⟩
      exact ⟨b, here, bs, ih.mpr later, rfl⟩

theorem mapM_exists {α β : Type} {f : α → Option β} {items : List α}
    (each : ∀ item ∈ items, ∃ b, f item = some b) : ∃ found, items.mapM f = some found := by
  induction items with
  | nil => exact ⟨[], rfl⟩
  | cons item rest ih =>
    obtain ⟨b, here⟩ := each item List.mem_cons_self
    obtain ⟨bs, later⟩ := ih fun other mem => each other (List.mem_cons_of_mem _ mem)
    exact ⟨b :: bs, by rw [List.mapM_cons, here, later]; rfl⟩

theorem forall₂_right {α β : Type} {R : α → β → Prop} {items : List α} {found : List β}
    (related : List.Forall₂ R items found) : ∀ b ∈ found, ∃ a ∈ items, R a b := by
  induction related with
  | nil => exact nofun
  | cons here _ ih =>
    intro b mem
    rcases List.mem_cons.mp mem with rfl | later
    · exact ⟨_, List.mem_cons_self, here⟩
    · obtain ⟨a, inside, related⟩ := ih b later
      exact ⟨a, List.mem_cons_of_mem _ inside, related⟩

variable {heap : Heap} {maxBytes : Nat}

/-- The value of one field of a dictionary. -/
def fieldValue (heap : Heap) (levels : Nat) (field : Ref × Ref) : Option (String × Json) :=
  (heap.node field.1).name.bind fun name => (value heap levels field.2).map (name, ·)

variable {levels remaining after : Nat} {ref : Ref} {fields : List (Ref × Ref)} {v w : Json}
  {text : String} {sha256 : String → String} {prior : Option EventIdentity}

theorem fieldValue_some {field : Ref × Ref} {found : String × Json} :
    fieldValue heap levels field = some found ↔
      (heap.node field.1).name = some found.1 ∧ value heap levels field.2 = some found.2 := by
  obtain ⟨name, v⟩ := found
  simp only [fieldValue, bind_eq_some_iff, map_eq_some_iff, Prod.mk.injEq]
  constructor
  · rintro ⟨_, named, _, held, rfl, rfl⟩
    exact ⟨named, held⟩
  · rintro ⟨named, held⟩
    exact ⟨name, named, v, held, rfl, rfl⟩

theorem value_list {items : List Ref} (node : heap.node ref = .list items) :
    value heap (levels + 1) ref = (items.mapM (value heap levels)).map .arr := by
  rw [value, node]

theorem value_dict (node : heap.node ref = .dict fields) :
    value heap (levels + 1) ref = (fields.mapM (fieldValue heap levels)).map .obj := by
  rw [value, node]
  rfl

theorem value_more : ∀ (levels : Nat) {ref : Ref} {v : Json}, value heap levels ref = some v →
    value heap (levels + 1) ref = some v
  | 0, _, _, found => by cases found
  | levels + 1, ref, v, found => by
    cases node : heap.node ref with
    | list items =>
      rw [value_list node, map_eq_some_iff] at found ⊢
      obtain ⟨values, each, rfl⟩ := found
      exact ⟨values, mapM_some_iff.mpr ((mapM_some_iff.mp each).imp fun _ _ => value_more levels), rfl⟩
    | dict fields =>
      rw [value_dict node, map_eq_some_iff] at found ⊢
      obtain ⟨values, each, rfl⟩ := found
      refine ⟨values, mapM_some_iff.mpr ((mapM_some_iff.mp each).imp fun _ _ one => ?_), rfl⟩
      rw [fieldValue_some] at one ⊢
      exact ⟨one.1, value_more levels one.2⟩
    | _ =>
      rw [value, node] at found ⊢
      exact found

/-- The value that an object has, whatever holds it. A cyclic object has none. -/
def Denotes (heap : Heap) (ref : Ref) (v : Json) : Prop := ∃ levels, value heap levels ref = some v

theorem value_add (found : value heap levels ref = some v) (more : Nat) :
    value heap (levels + more) ref = some v := by
  induction more with
  | zero => exact found
  | succ more ih => exact value_more _ ih

theorem Denotes.unique (one : Denotes heap ref v) (other : Denotes heap ref w) : v = w := by
  obtain ⟨levels, found⟩ := one
  obtain ⟨levels', found'⟩ := other
  have more := value_add found levels'
  have more' := value_add found' levels
  rw [Nat.add_comm levels' levels, more] at more'
  exact Option.some.inj more'

theorem finiteItems_iff {items : List Json} :
    finiteItems items = true ↔ ∀ v ∈ items, finiteJson v = true := by
  induction items with
  | nil => simp [finiteItems]
  | cons item rest ih => simp [finiteItems, ih]

theorem visitItems_ok {visit : Nat → Ref → Except Exc Nat} {items : List Ref}
    (passed : visitItems visit remaining items = .ok after) :
    ∀ child ∈ items, ∃ before after, visit before child = .ok after := by
  induction items generalizing remaining with
  | nil => exact nofun
  | cons child rest ih =>
    obtain ⟨left, first, later⟩ := Library.except_bind_returned passed
    intro other mem
    rcases List.mem_cons.mp mem with rfl | inside
    · exact ⟨remaining, left, first⟩
    · exact ih later other inside

theorem visitFields_ok {visit : Nat → Ref → Except Exc Nat}
    (passed : visitFields heap visit remaining fields = .ok after) :
    ∀ field ∈ fields, checkKey (heap.node field.1) = .ok () ∧
      (∃ before after, visit before field.1 = .ok after) ∧
      ∃ before after, visit before field.2 = .ok after := by
  induction fields generalizing remaining with
  | nil => exact nofun
  | cons field rest ih =>
    obtain ⟨_, key, passed⟩ := Library.except_bind_returned passed
    obtain ⟨left, first, passed⟩ := Library.except_bind_returned passed
    obtain ⟨left', second, later⟩ := Library.except_bind_returned passed
    intro other mem
    rcases List.mem_cons.mp mem with rfl | inside
    · exact ⟨key, ⟨remaining, left, first⟩, left, left', second⟩
    · exact ih later other inside

theorem visit_ok (passed : visit heap maxBytes (levels + 1) remaining ref = .ok after) :
    checkNode maxBytes (heap.node ref) = .ok () ∧
      (∀ items, heap.node ref = .list items →
        visitItems (visit heap maxBytes levels) (remaining - 1) items = .ok after) ∧
      ∀ fields, heap.node ref = .dict fields →
        visitFields heap (visit heap maxBytes levels) (remaining - 1) fields = .ok after := by
  rw [visit] at passed
  by_cases empty : remaining = 0
  · rw [if_pos empty] at passed
    cases passed
  · rw [if_neg empty] at passed
    obtain ⟨_, checked, passed⟩ := Library.except_bind_returned passed
    refine ⟨checked, fun items node => ?_, fun fields node => ?_⟩
    · rw [node] at passed
      exact passed
    · rw [node] at passed
      exact passed

theorem key_named {before : Nat} {key : Ref} (kind : checkKey (heap.node key) = .ok ())
    (passed : visit heap maxBytes levels before key = .ok after) :
    ∃ name, (heap.node key).name = some name := by
  cases levels with
  | zero => cases passed
  | succ levels =>
    have checked := (visit_ok passed).1
    cases node : heap.node key with
    | str name => exact ⟨name, rfl⟩
    | surrogates length =>
      rw [node] at checked
      simp only [checkNode] at checked
      split at checked <;> cases checked
    | _ =>
      rw [node] at kind
      cases kind

theorem field_names {values : List (String × Json)}
    (related : List.Forall₂ (fun field f => fieldValue heap levels field = some f) fields values) :
    values.map Prod.fst = fields.filterMap (fun field => (heap.node field.1).name) := by
  induction related with
  | nil => rfl
  | cons here _ ih => rw [List.map_cons, List.filterMap_cons, (fieldValue_some.mp here).1, ih]

theorem visit_value : ∀ (levels : Nat) {remaining after : Nat} {ref : Ref},
    visit heap maxBytes levels remaining ref = .ok after →
      ∃ v, value heap levels ref = some v ∧ Loadable v ∧ finiteJson v = true
  | 0, _, _, _, passed => by cases passed
  | levels + 1, remaining, after, ref, passed => by
    obtain ⟨checked, list, dict⟩ := visit_ok passed
    cases node : heap.node ref with
    | none => exact ⟨.null, by rw [value, node], trivial, rfl⟩
    | bool b => exact ⟨.bool b, by rw [value, node], trivial, rfl⟩
    | int n => exact ⟨.int n, by rw [value, node], trivial, rfl⟩
    | str s => exact ⟨.str s, by rw [value, node], trivial, rfl⟩
    | surrogates length =>
      rw [node] at checked
      simp only [checkNode] at checked
      split at checked <;> cases checked
    | other =>
      rw [node] at checked
      cases checked
    | float f =>
      cases f with
      | finite repr => exact ⟨.float (.finite repr), by rw [value, node], heap.floats ref repr node, rfl⟩
      | nan => rw [node] at checked; cases checked
      | infinity negative => rw [node] at checked; cases checked
    | list items =>
      have inside := visitItems_ok (list items node)
      obtain ⟨values, each⟩ := mapM_exists (f := value heap levels) fun child mem => by
        obtain ⟨_, _, passed⟩ := inside child mem
        obtain ⟨v, found, -⟩ := visit_value levels passed
        exact ⟨v, found⟩
      have sound : ∀ v ∈ values, Loadable v ∧ finiteJson v = true := by
        intro v mem
        obtain ⟨child, held, found⟩ := forall₂_right (mapM_some_iff.mp each) v mem
        obtain ⟨_, _, passed⟩ := inside child held
        obtain ⟨w, found', sound⟩ := visit_value levels passed
        obtain rfl := Option.some.inj (found.symm.trans found')
        exact sound
      refine ⟨.arr values, by rw [value_list node, each]; rfl, ?_, ?_⟩
      · exact loadableItems_iff.mpr fun v mem => (sound v mem).1
      · exact finiteItems_iff.mpr fun v mem => (sound v mem).2
    | dict fields =>
      have inside := visitFields_ok (dict fields node)
      obtain ⟨values, each⟩ := mapM_exists (f := fieldValue heap levels) fun field mem => by
        obtain ⟨kind, ⟨_, _, key⟩, _, _, child⟩ := inside field mem
        obtain ⟨name, named⟩ := key_named kind key
        obtain ⟨v, found, -⟩ := visit_value levels child
        exact ⟨(name, v), fieldValue_some.mpr ⟨named, found⟩⟩
      have related := mapM_some_iff.mp each
      have sound : ∀ f ∈ values, Loadable f.2 ∧ finiteJson f.2 = true := by
        intro f mem
        obtain ⟨field, held, found⟩ := forall₂_right related f mem
        obtain ⟨_, -, _, _, child⟩ := inside field held
        obtain ⟨w, found', sound⟩ := visit_value levels child
        obtain rfl := Option.some.inj ((fieldValue_some.mp found).2.symm.trans found')
        exact sound
      refine ⟨.obj values, by rw [value_dict node, each]; rfl, ⟨?_, ?_⟩, ?_⟩
      · rw [field_names related]
        exact heap.names ref fields node
      · exact loadableFields_iff.mpr fun f mem => (sound f mem).1
      · exact finiteFields_iff.mpr fun f mem => (sound f mem).2

/-- Values equal but for key order, with scalars of one type, given which floats agree. -/
inductive Alike (floats : JsonFloat → JsonFloat → Prop) : Json → Json → Prop
  | null : Alike floats .null .null
  | bool (value : Bool) : Alike floats (.bool value) (.bool value)
  | int (value : Int) : Alike floats (.int value) (.int value)
  | str (value : String) : Alike floats (.str value) (.str value)
  | float {a b : JsonFloat} (same : floats a b) : Alike floats (.float a) (.float b)
  | arr {items others : List Json} (lengths : items.length = others.length)
      (each : ∀ (i : Nat) a b, items[i]? = some a → others[i]? = some b → Alike floats a b) :
      Alike floats (.arr items) (.arr others)
  | obj {fields others : List (String × Json)}
      (names : ∀ name, name ∈ fields.map Prod.fst ↔ name ∈ others.map Prod.fst)
      (each : ∀ name a b, (name, a) ∈ fields → (name, b) ∈ others → Alike floats a b) :
      Alike floats (.obj fields) (.obj others)

/-- Values with the same floats, signs of zeros included. -/
abbrev Equal : Json → Json → Prop := Alike (· = ·)

theorem sortItems_eq (items : List Json) : sortItems items = items.map Json.sortKeys := by
  induction items with
  | nil => rfl
  | cons item rest ih => rw [sortItems, ih, List.map_cons]

theorem equal_sorted (equal : Equal v w) (loadable : Loadable v) (loadable' : Loadable w) :
    v.sortKeys = w.sortKeys := by
  induction equal with
  | null | bool | int | str => rfl
  | float same => rw [same]
  | @arr items others lengths _ ih =>
    change Json.arr (sortItems items) = .arr (sortItems others)
    rw [sortItems_eq, sortItems_eq]
    refine congrArg Json.arr (List.ext_getElem (by simpa using lengths) fun i first second => ?_)
    rw [List.length_map] at first second
    rw [List.getElem_map, List.getElem_map]
    exact ih i _ _ (List.getElem?_eq_getElem first) (List.getElem?_eq_getElem second)
      (loadableItems_iff.mp loadable _ (List.getElem_mem first))
      (loadableItems_iff.mp loadable' _ (List.getElem_mem second))
  | @obj fields others names _ ih =>
    have distinct : ((sortFields fields).map Prod.fst).Nodup := by
      rw [sortFields_names]
      exact loadable.1
    have distinct' : ((sortFields others).map Prod.fst).Nodup := by
      rw [sortFields_names]
      exact loadable'.1
    have held : ∀ name u, (name, u) ∈ sortFields fields ↔ (name, u) ∈ sortFields others := by
      intro name u
      rw [sortFields_eq, sortFields_eq, List.mem_map, List.mem_map]
      constructor
      · rintro ⟨⟨_, a⟩, mem, pair⟩
        obtain ⟨rfl, rfl⟩ := Prod.mk.inj pair
        obtain ⟨⟨_, b⟩, member', rfl⟩ := List.mem_map.mp
          ((names _).mp (List.mem_map_of_mem (f := Prod.fst) mem))
        refine ⟨_, member', ?_⟩
        rw [ih _ a b mem member' (loadableFields_iff.mp loadable.2 _ mem)
          (loadableFields_iff.mp loadable'.2 _ member')]
      · rintro ⟨⟨_, b⟩, member', pair⟩
        obtain ⟨rfl, rfl⟩ := Prod.mk.inj pair
        obtain ⟨⟨_, a⟩, mem, rfl⟩ := List.mem_map.mp
          ((names _).mpr (List.mem_map_of_mem (f := Prod.fst) member'))
        refine ⟨_, mem, ?_⟩
        rw [ih _ a b mem member' (loadableFields_iff.mp loadable.2 _ mem)
          (loadableFields_iff.mp loadable'.2 _ member')]
    have shuffled : (sortFields fields).Perm (sortFields others) :=
      (List.perm_ext_iff_of_nodup (List.Nodup.of_map _ distinct)
        (List.Nodup.of_map _ distinct')).mpr fun f => held f.1 f.2
    exact congrArg Json.obj (sorted_unique distinct shuffled)

theorem mem_sorted {fields : List (String × Json)} {name : String} (mem : (name, v) ∈ fields) :
    (name, v.sortKeys) ∈ (sortFields fields).insertionSort byName := by
  rw [List.mem_insertionSort, sortFields_eq]
  exact List.mem_map_of_mem (f := fun f : String × Json => (f.1, f.2.sortKeys)) mem

theorem sorted_names {fields : List (String × Json)} {name : String} :
    name ∈ ((sortFields fields).insertionSort byName).map Prod.fst ↔ name ∈ fields.map Prod.fst := by
  rw [((List.perm_insertionSort byName (sortFields fields)).map Prod.fst).mem_iff, sortFields_names]

mutual

theorem sorted_equal : ∀ v w : Json, Loadable v → Loadable w → v.sortKeys = w.sortKeys → Equal v w
  | .null, w, _, _, same => by cases w <;> cases same; exact .null
  | .bool b, w, _, _, same => by cases w <;> cases same; exact .bool b
  | .int n, w, _, _, same => by cases w <;> cases same; exact .int n
  | .str s, w, _, _, same => by cases w <;> cases same; exact .str s
  | .float f, w, _, _, same => by cases w <;> cases same; exact .float rfl
  | .object _, _, loadable, _, _ => loadable.elim
  | .arr items, w, loadable, loadable', same => by
    cases w with
    | arr others =>
      have lists : items.map Json.sortKeys = others.map Json.sortKeys := by
        rw [← sortItems_eq, ← sortItems_eq]
        exact Json.arr.inj same
      refine .arr (by simpa using congrArg List.length lists) fun i a b here there => ?_
      have one := congrArg (fun l => l[i]?) lists
      simp only [List.getElem?_map, here, there, map_some, Option.some.injEq] at one
      exact sorted_item items loadable a (List.mem_of_getElem? here) b
        (loadableItems_iff.mp loadable' b (List.mem_of_getElem? there)) one
    | _ => cases same
  | .obj fields, w, loadable, loadable', same => by
    cases w with
    | obj others =>
      have lists : (sortFields fields).insertionSort byName = (sortFields others).insertionSort byName :=
        Json.obj.inj same
      refine .obj (fun name => by rw [← sorted_names, lists, sorted_names]) fun name a b here there => ?_
      have left := mem_sorted here
      have right := mem_sorted there
      rw [lists] at left
      have distinct : (((sortFields others).insertionSort byName).map Prod.fst).Nodup := by
        rw [((List.perm_insertionSort byName (sortFields others)).map Prod.fst).nodup_iff,
          sortFields_names]
        exact loadable'.1
      have pair := List.inj_on_of_nodup_map distinct left right rfl
      exact sorted_field fields loadable.2 name a here b
        (loadableFields_iff.mp loadable'.2 _ there) (Prod.mk.inj pair).2
    | _ => cases same

theorem sorted_item : ∀ items : List Json, LoadableItems items → ∀ a ∈ items, ∀ w, Loadable w →
    a.sortKeys = w.sortKeys → Equal a w
  | [], _, _, mem, _, _, _ => by cases mem
  | item :: rest, loadable, a, mem, w, loadable', same => by
    rcases List.mem_cons.mp mem with here | later
    · rw [here] at same ⊢
      exact sorted_equal item w loadable.1 loadable' same
    · exact sorted_item rest loadable.2 a later w loadable' same

theorem sorted_field : ∀ fields : List (String × Json), LoadableFields fields → ∀ name a,
    (name, a) ∈ fields → ∀ w, Loadable w → a.sortKeys = w.sortKeys → Equal a w
  | [], _, _, _, mem, _, _, _ => by cases mem
  | (_, value) :: rest, loadable, name, a, mem, w, loadable', same => by
    rcases List.mem_cons.mp mem with here | later
    · cases here
      exact sorted_equal _ w loadable.1 loadable' same
    · exact sorted_field rest loadable.2 name a later w loadable' same

end

theorem equal_iff_sorted (loadable : Loadable v) (loadable' : Loadable w) :
    Equal v w ↔ v.sortKeys = w.sortKeys :=
  ⟨fun equal => equal_sorted equal loadable loadable',
    sorted_equal v w loadable loadable'⟩

theorem escapeChar_eq (c : Char) : MonitorIdentity.escapeChar c = escapeControl c := by
  unfold MonitorIdentity.escapeChar Json.escapeChar escapeControl
  by_cases ascii : c.toNat < 127
  · rw [if_pos ascii]
    repeat' split
    all_goals first | rfl | omega
  · have large : ∀ d : Char, d.toNat < 127 → c ≠ d := by
      rintro d small rfl
      exact ascii small
    rw [if_neg ascii, if_neg (large '"' (by decide)), if_neg (large '\\' (by decide)),
      if_neg (large '\n' (by decide)), if_neg (large '\r' (by decide)), if_neg (large '\t' (by decide)),
      if_neg (by omega), if_neg (by omega), if_neg (by omega)]

theorem quote_written (s : String) : (MonitorIdentity.quote s).toList = compactStyle.quoted s := by
  rw [MonitorIdentity.quote, String.toList_ofList, funext escapeChar_eq]
  rfl

mutual

theorem text_written : ∀ v : Json, finiteJson v = true →
    (MonitorIdentity.text v).toList = compactStyle.written v
  | .null, _ => rfl
  | .bool true, _ | .bool false, _ => rfl
  | .int n, _ => JsonLoading.toList_toString n
  | .float (.finite _), _ => rfl
  | .str s, _ => quote_written s
  | .arr items, finite => by
    rw [Style.written, ← textItems_written items finite]
    exact bracketed '[' ']' "," _
  | .obj fields, finite => by
    rw [Style.written, ← textFields_written fields finite]
    exact bracketed '\x7b' '\x7d' "," _

theorem textItems_written : ∀ items : List Json, finiteItems items = true →
    (MonitorIdentity.textItems items).map String.toList = compactStyle.writtenItems items
  | [], _ => rfl
  | item :: rest, finite => by
    rw [finiteItems, Bool.and_eq_true] at finite
    rw [MonitorIdentity.textItems, List.map_cons, text_written item finite.1,
      textItems_written rest finite.2, Style.writtenItems]

theorem textFields_written : ∀ fields : List (String × Json), finiteFields fields = true →
    (MonitorIdentity.textFields fields).map String.toList = compactStyle.writtenFields fields
  | [], _ => rfl
  | (name, value) :: rest, finite => by
    rw [finiteFields, Bool.and_eq_true] at finite
    have colon : ":".toList = compactStyle.colon := rfl
    rw [MonitorIdentity.textFields, List.map_cons, String.toList_append, String.toList_append,
      quote_written, colon, text_written value finite.1, textFields_written rest finite.2,
      Style.writtenFields]

end

/-- The value that a canonical text stands for. -/
structure Canonical (heap : Heap) (maxBytes : Nat) (ref : Ref) (text : String) (v : Json) : Prop where
  denotes : Denotes heap ref v
  loadable : Loadable v
  bounded : text.utf8ByteSize ≤ maxBytes
  encoded : text = MonitorIdentity.text v.sortKeys
  loads : JsonLoads.loads text = some v.sortKeys

theorem payload_canonical (written : payload heap maxBytes ref = .ok text) :
    ∃ v, Canonical heap maxBytes ref text v := by
  unfold payload at written
  split at written
  next fields node =>
    obtain ⟨after, passed, written⟩ := Library.except_bind_returned written
    obtain ⟨v, found, loadable, finite⟩ := visit_value depths passed
    rw [found] at written
    dsimp only at written
    split at written
    next => cases written
    next fits =>
      obtain rfl := Except.ok.inj written
      refine ⟨v, ⟨depths, found⟩, loadable, by omega, rfl, ?_⟩
      exact loads_written compactStyle_readable (loadable_sorted v loadable)
        (text_written _ ((finite_sorted v).trans finite))
  next => cases written

theorem Canonical.text_iff {heap heap' : Heap} {maxBytes maxBytes' : Nat} {ref' : Ref}
    {text' : String} (canonical : Canonical heap maxBytes ref text v)
    (canonical' : Canonical heap' maxBytes' ref' text' w) : text = text' ↔ Equal v w := by
  rw [equal_iff_sorted canonical.loadable canonical'.loadable]
  constructor
  · rintro rfl
    exact Option.some.inj (canonical.loads.symm.trans canonical'.loads)
  · intro same
    rw [canonical.encoded, canonical'.encoded, same]

/-- The arguments of one call of `identify_event`. -/
structure Call where
  heap : Heap
  ref : Ref
  ownerId : String
  sourceId : String
  eventId : String
  maxBytes : Nat

def Call.key (call : Call) : String × String × String := (call.ownerId, call.sourceId, call.eventId)

def Call.identify (call : Call) (sha256 : String → String) (prior : Option EventIdentity) :
    Except Exc ReplayDecision :=
  identifyEvent call.heap call.maxBytes sha256 call.ownerId call.sourceId call.eventId call.ref prior

/-- The payloads of two calls have equal values. -/
def Call.SamePayload (call other : Call) : Prop :=
  ∃ v w, Denotes call.heap call.ref v ∧ Denotes other.heap other.ref w ∧ Equal v w

/-- `hexdigest()` is 64 lowercase hexadecimal digits. -/
def HexDigests (sha256 : String → String) : Prop :=
  ∀ text, (sha256 text).length = 64 ∧ (sha256 text).toList.all MonitorIdentity.lowerHex = true

variable {call : Call}

theorem identify_ok {decision : ReplayDecision}
    (identified : call.identify sha256 prior = .ok decision) :
    checkCap call.maxBytes = .ok () ∧ identifier call.ownerId = .ok call.ownerId ∧
      identifier call.sourceId = .ok call.sourceId ∧ identifier call.eventId = .ok call.eventId ∧
      payload call.heap call.maxBytes call.ref = .ok decision.canonicalPayload ∧
      decision.identity = ⟨call.ownerId, call.sourceId, call.eventId,
        sha256 decision.canonicalPayload⟩ := by
  obtain ⟨_, cap, rest⟩ := Library.except_bind_returned identified
  obtain ⟨owner, first, rest⟩ := Library.except_bind_returned rest
  obtain ⟨source, second, rest⟩ := Library.except_bind_returned rest
  obtain ⟨event, third, rest⟩ := Library.except_bind_returned rest
  obtain ⟨text, written, rest⟩ := Library.except_bind_returned rest
  obtain ⟨status, -, rest⟩ := Library.except_bind_returned rest
  cases rest
  obtain rfl := MonitorIdentity.identifier_same first
  obtain rfl := MonitorIdentity.identifier_same second
  obtain rfl := MonitorIdentity.identifier_same third
  exact ⟨cap, first, second, third, written, rfl⟩

/-- A call that passes its checks is decided by what the prior record makes of its identity. -/
theorem identify_classified {decision : ReplayDecision}
    (accepted : call.identify sha256 prior = .ok decision) (other : Option EventIdentity) :
    call.identify sha256 other = (classify decision.identity other).map
      (⟨·, decision.identity, decision.canonicalPayload⟩) := by
  obtain ⟨cap, first, second, third, written, identity⟩ := identify_ok accepted
  unfold Call.identify identifyEvent
  rw [cap, first, second, third, written, identity]
  change (classify _ other >>= fun status => pure _) = _
  cases classify _ other <;> rfl

theorem classify_prior (digests : HexDigests sha256) {earlier : ReplayDecision}
    (before : call.identify sha256 prior = .ok earlier) (identity : EventIdentity) :
    classify identity (some earlier.identity) =
      if identity.key ≠ call.key then .error (.valueError "prior identity key mismatch")
      else if earlier.identity.payloadSha256 = identity.payloadSha256 then .ok .replay
      else .ok .conflict := by
  obtain ⟨-, first, second, third, -, same⟩ := identify_ok before
  have shape := digests earlier.canonicalPayload
  rw [same]
  simp only [classify, first, second, third, shape.1, shape.2]
  change (if identity.key ≠ call.key then _ else _) = _
  split
  next => rfl
  next =>
    rfl

/-- A payload's text is bounded, reads back, and is its own; a replay is under its key. -/
structure Identifies (sha256 : String → String) : Prop where
  text : ∀ (heap : Heap) (maxBytes : Nat) (ref : Ref),
    (∃ e, payload heap maxBytes ref = .error e) ∨
      ∃ text v read, payload heap maxBytes ref = .ok text ∧ text.utf8ByteSize ≤ maxBytes ∧
        Denotes heap ref v ∧ JsonLoads.loads text = some read ∧ Equal read v
  injective : ∀ (heap heap' : Heap) (maxBytes maxBytes' : Nat) (ref ref' : Ref) (text text' : String)
    (v w : Json), payload heap maxBytes ref = .ok text → payload heap' maxBytes' ref' = .ok text' →
    Denotes heap ref v → Denotes heap' ref' w → (text = text' ↔ Equal v w)
  replay : ∀ (call earlier : Call) (prior : Option EventIdentity) (accepted before : ReplayDecision),
    earlier.identify sha256 prior = .ok before → call.identify sha256 none = .ok accepted →
    (sha256 before.canonicalPayload = sha256 accepted.canonicalPayload →
      before.canonicalPayload = accepted.canonicalPayload) →
    ((∃ decision, call.identify sha256 (some before.identity) = .ok decision ∧
      decision.status = .replay) ↔ call.key = earlier.key ∧ call.SamePayload earlier)

theorem Canonical.equal (canonical : Canonical heap maxBytes ref text v) : Equal v.sortKeys v :=
  (equal_iff_sorted (loadable_sorted v canonical.loadable) canonical.loadable).mpr (sortKeys_idem v)

theorem replay_iff (digests : HexDigests sha256) {earlier : Call} {accepted before : ReplayDecision}
    (first : earlier.identify sha256 prior = .ok before)
    (second : call.identify sha256 none = .ok accepted)
    (distinct : sha256 before.canonicalPayload = sha256 accepted.canonicalPayload →
      before.canonicalPayload = accepted.canonicalPayload) :
    (∃ decision, call.identify sha256 (some before.identity) = .ok decision ∧
      decision.status = .replay) ↔ call.key = earlier.key ∧ call.SamePayload earlier := by
  obtain ⟨-, -, -, -, written, identity⟩ := identify_ok second
  obtain ⟨-, -, -, -, written', identity'⟩ := identify_ok first
  obtain ⟨v, canonical⟩ := payload_canonical written
  obtain ⟨w, canonical'⟩ := payload_canonical written'
  have key : accepted.identity.key = call.key := by rw [identity]; rfl
  have digest : before.identity.payloadSha256 = accepted.identity.payloadSha256 ↔
      call.SamePayload earlier := by
    rw [identity, identity']
    constructor
    · intro same
      exact ⟨v, w, canonical.denotes, canonical'.denotes,
        (canonical.text_iff canonical').mp (distinct same).symm⟩
    · rintro ⟨v', w', denotes, denotes', equal⟩
      rw [denotes.unique canonical.denotes, denotes'.unique canonical'.denotes] at equal
      exact congrArg sha256 ((canonical.text_iff canonical').mpr equal).symm
  rw [identify_classified second, classify_prior digests first, key, ← digest]
  by_cases keys : call.key = earlier.key
  · rw [if_neg (not_not_intro keys)]
    by_cases same : before.identity.payloadSha256 = accepted.identity.payloadSha256
    · rw [if_pos same]
      exact iff_of_true ⟨_, rfl, rfl⟩ ⟨keys, same⟩
    · rw [if_neg same]
      refine iff_of_false ?_ fun both => same both.2
      rintro ⟨decision, answered, replay⟩
      cases answered
      cases replay
  · rw [if_pos keys]
    refine iff_of_false ?_ fun both => keys both.1
    rintro ⟨decision, answered, -⟩
    cases answered

/-- Every payload is refused or identified by its text, and replays are told from conflicts by it,
as long as no two of the compared texts have one digest. -/
theorem payload_identified {sha256 : String → String} (digests : HexDigests sha256) :
    Identifies sha256 where
  text heap maxBytes ref := by
    cases written : payload heap maxBytes ref with
    | error e => exact Or.inl ⟨e, rfl⟩
    | ok text =>
      obtain ⟨v, canonical⟩ := payload_canonical written
      exact Or.inr ⟨text, v, v.sortKeys, rfl, canonical.bounded, canonical.denotes, canonical.loads,
        canonical.equal⟩
  injective heap heap' maxBytes maxBytes' ref ref' text text' v w written written' denotes denotes' := by
    obtain ⟨u, canonical⟩ := payload_canonical written
    obtain ⟨u', canonical'⟩ := payload_canonical written'
    rw [denotes.unique canonical.denotes, denotes'.unique canonical'.denotes]
    exact canonical.text_iff canonical'
  replay call earlier prior accepted before first second distinct :=
    replay_iff digests first second distinct

/-- A record, and the same one from other objects whose keys stand in another order. -/
def recordNode : Ref → Node
  | 0 => .dict [(1, 2), (3, 4), (5, 6)]
  | 1 => .str "user"
  | 2 => .dict [(7, 8), (9, 10)]
  | 3 => .str "score"
  | 4 => .float (.finite "1.5")
  | 5 => .str "tags"
  | 6 => .list [11, 12]
  | 7 => .str "name"
  | 8 => .str "ada"
  | 9 => .str "age"
  | 10 => .int 36
  | 11 => .str "a"
  | 12 => .none
  | 13 => .dict [(5, 6), (1, 14), (3, 4)]
  | 14 => .dict [(9, 10), (7, 8)]
  | _ => .other

theorem recordNode_names (ref : Ref) (fields : List (Ref × Ref)) (node : recordNode ref = .dict fields) :
    (fields.filterMap (fun field => (recordNode field.1).name)).Nodup := by
  unfold recordNode at node
  split at node <;> cases node <;> decide

theorem recordNode_floats (ref : Ref) (repr : String) (node : recordNode ref = .float (.finite repr)) :
    JsonLoads.readNumber repr.toList = some (.float (.finite repr), []) := by
  unfold recordNode at node
  split at node <;> cases node
  rfl

def recordHeap : Heap := ⟨recordNode, recordNode_names, recordNode_floats⟩

def recordCall (ref : Ref) : Call := ⟨recordHeap, ref, "owner", "source", "event", 64⟩

def recordText : String :=
  "\x7b\"score\":1.5,\"tags\":[\"a\",null],\"user\":\x7b\"age\":36,\"name\":\"ada\"\x7d\x7d"

/-- SHA-256 of the record's text; nothing is asked of the other digests. -/
def knownDigest (text : String) : String :=
  if text = recordText then "8beb6771f077d6ff9ab50e68a2511fd4290bd5ec2c4a589c355e739667edd7dc"
  else "0000000000000000000000000000000000000000000000000000000000000000"

theorem knownDigest_hex : HexDigests knownDigest := by
  intro text
  unfold knownDigest
  split <;> decide +kernel

def recordDecision : ReplayDecision :=
  ⟨.new, ⟨"owner", "source", "event", knownDigest recordText⟩, recordText⟩

theorem recordCall_new : (recordCall 0).identify knownDigest none = .ok recordDecision ∧
    (recordCall 13).identify knownDigest none = .ok recordDecision := by decide +kernel

def recordValue : Json :=
  .obj [("user", .obj [("name", .str "ada"), ("age", .int 36)]), ("score", .float (.finite "1.5")),
    ("tags", .arr [.str "a", .null])]

def reorderedValue : Json :=
  .obj [("tags", .arr [.str "a", .null]), ("user", .obj [("age", .int 36), ("name", .str "ada")]),
    ("score", .float (.finite "1.5"))]

/-- The record is a replay of the one with its keys in another order. -/
theorem reordered_replayed : ∃ decision,
    (recordCall 13).identify knownDigest (some recordDecision.identity) = .ok decision ∧
      decision.status = .replay :=
  have denotes : Denotes recordHeap 0 recordValue := ⟨3, rfl⟩
  have denotes' : Denotes recordHeap 13 reorderedValue := ⟨3, rfl⟩
  have loadable : Loadable recordValue :=
    ⟨by decide, ⟨by decide, trivial, trivial, trivial⟩, rfl, ⟨trivial, trivial, trivial⟩, trivial⟩
  have loadable' : Loadable reorderedValue :=
    ⟨by decide, ⟨trivial, trivial, trivial⟩, ⟨by decide, trivial, trivial, trivial⟩, rfl, trivial⟩
  have equal : Equal reorderedValue recordValue :=
    (equal_iff_sorted loadable' loadable).mpr rfl
  ((payload_identified knownDigest_hex).replay (recordCall 13) (recordCall 0) none recordDecision
    recordDecision recordCall_new.1 recordCall_new.2 (fun _ => rfl)).mpr
    ⟨rfl, _, _, denotes', denotes, equal⟩

/-- Equality of floats in Python: zeros are equal whatever their signs. -/
def FloatEq (a b : JsonFloat) : Prop :=
  a = b ∧ a ≠ .nan ∨ (a = .finite "0.0" ∨ a = .finite "-0.0") ∧ (b = .finite "0.0" ∨ b = .finite "-0.0")

/-- `{"v": 0.0}` and `{"v": -0.0}`. -/
def zeroNode : Ref → Node
  | 0 => .dict [(1, 2)]
  | 1 => .str "v"
  | 2 => .float (.finite "0.0")
  | 3 => .dict [(1, 4)]
  | 4 => .float (.finite "-0.0")
  | _ => .none

theorem zeroNode_names (ref : Ref) (fields : List (Ref × Ref)) (node : zeroNode ref = .dict fields) :
    (fields.filterMap (fun field => (zeroNode field.1).name)).Nodup := by
  unfold zeroNode at node
  split at node <;> cases node <;> decide

theorem zeroNode_floats (ref : Ref) (repr : String) (node : zeroNode ref = .float (.finite repr)) :
    JsonLoads.readNumber repr.toList = some (.float (.finite repr), []) := by
  unfold zeroNode at node
  split at node <;> cases node <;> rfl

def zeroHeap : Heap := ⟨zeroNode, zeroNode_names, zeroNode_floats⟩

/-- Two payloads that Python calls equal, with the same exact types, have different texts. -/
theorem zeros_differ :
    Alike FloatEq (.obj [("v", .float (.finite "0.0"))]) (.obj [("v", .float (.finite "-0.0"))]) ∧
      Denotes zeroHeap 0 (.obj [("v", .float (.finite "0.0"))]) ∧
      Denotes zeroHeap 3 (.obj [("v", .float (.finite "-0.0"))]) ∧
      payload zeroHeap 64 0 = .ok "\x7b\"v\":0.0\x7d" ∧
      payload zeroHeap 64 3 = .ok "\x7b\"v\":-0.0\x7d" ∧
      "\x7b\"v\":0.0\x7d" ≠ "\x7b\"v\":-0.0\x7d" := by
  refine ⟨.obj (fun _ => Iff.rfl) fun name a b here there => ?_, ⟨2, rfl⟩, ⟨2, rfl⟩, ?_, ?_, ?_⟩
  · obtain ⟨rfl, rfl⟩ := Prod.mk.inj (List.mem_singleton.mp here)
    obtain ⟨-, rfl⟩ := Prod.mk.inj (List.mem_singleton.mp there)
    exact .float (Or.inr ⟨Or.inl rfl, Or.inr rfl⟩)
  · decide +kernel
  · decide +kernel
  · decide

end Meemee.Guarantees.PayloadIdentity
