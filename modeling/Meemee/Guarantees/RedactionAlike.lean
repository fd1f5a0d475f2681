import Meemee.Source.AgentLoop

/-!
# Redaction hides what stands below a sensitive key

Two values are alike where they are the same outside the sensitive keys, at any depth: what the keys
may stand over is a parameter. Redaction takes values that differ in any way there to values that
differ in the hash and the length of a marker, and leaves everything else of a value as it was.
-/
namespace Meemee.Guarantees.RedactionAlike
open Source Source.ToolAudit
open Source.AgentLoop (Redaction fingerprint truncated redactItems redactFields)

/-- No list and no dictionary. -/
def Scalar : Json → Prop
  | .arr _ | .obj _ => False
  | _ => True

mutual

/-- The same value, but for what stands under a sensitive key. -/
inductive Alike (below : Json → Json → Prop) : Json → Json → Prop
  | scalar {v : Json} (scalar : Scalar v) : Alike below v v
  | arr {xs ys : List Json} (items : AlikeItems below xs ys) : Alike below (.arr xs) (.arr ys)
  /-- A dictionary is the same in any order of its keys. -/
  | obj {fields fields' shuffled : List (String × Json)} (inside : AlikeFields below fields fields')
      (order : fields'.Perm shuffled) : Alike below (.obj fields) (.obj shuffled)

inductive AlikeItems (below : Json → Json → Prop) : List Json → List Json → Prop
  | nil : AlikeItems below [] []
  | cons {x y : Json} {xs ys : List Json} (first : Alike below x y)
      (rest : AlikeItems below xs ys) : AlikeItems below (x :: xs) (y :: ys)

inductive AlikeFields (below : Json → Json → Prop) :
    List (String × Json) → List (String × Json) → Prop
  | nil : AlikeFields below [] []
  | hidden {name : String} {v w : Json} {fields fields' : List (String × Json)}
      (sensitive : sensitiveKey name = true) (value : below v w)
      (rest : AlikeFields below fields fields') :
      AlikeFields below ((name, v) :: fields) ((name, w) :: fields')
  | shown {name : String} {v w : Json} {fields fields' : List (String × Json)}
      (plain : sensitiveKey name = false) (value : Alike below v w)
      (rest : AlikeFields below fields fields') :
      AlikeFields below ((name, v) :: fields) ((name, w) :: fields')

end

/-- Two markers: the same but for the hash and the length. -/
def Marked (v w : Json) : Prop :=
  ∃ hash hash' : String, ∃ bytes bytes' : Int,
    v = .obj [("redacted", .bool true), ("sha256", .str hash), ("bytes", .int bytes)] ∧
    w = .obj [("redacted", .bool true), ("sha256", .str hash'), ("bytes", .int bytes')]

mutual

/-- Every string has at most 20000 characters. -/
def Short : Json → Prop
  | .str text => text.length ≤ 20000
  | .arr items => ShortItems items
  | .obj fields => ShortFields fields
  | _ => True

def ShortItems : List Json → Prop
  | [] => True
  | item :: rest => Short item ∧ ShortItems rest

def ShortFields : List (String × Json) → Prop
  | [] => True
  | (_, value) :: rest => Short value ∧ ShortFields rest

end

variable {sha256 : String → String} {below : Json → Json → Prop} {v w : Json}
  {fields fields' : List (String × Json)}

theorem marked (r : Redaction) (v w : Json) : Marked (fingerprint r v) (fingerprint r w) :=
  ⟨_, _, _, _, rfl, rfl⟩

theorem alike_plain (plain : ∀ f ∈ fields, sensitiveKey f.1 = false ∧ Scalar f.2) :
    AlikeFields below fields fields := by
  induction fields with
  | nil => exact .nil
  | cons f fields ih =>
    obtain ⟨⟨shown, scalar⟩, rest⟩ := List.forall_mem_cons.mp plain
    exact .shown shown (.scalar scalar) (ih rest)

theorem alike_truncated (r : Redaction) (text : String) :
    Alike below (truncated r text) (truncated r text) := by
  refine .obj (alike_plain ?_) (.refl _)
  simp only [List.forall_mem_cons, Scalar, and_true]
  exact ⟨by decide, by decide, by decide, by decide, nofun⟩

theorem redactFields_eq (r : Redaction) (fields : List (String × Json)) :
    redactFields r fields = fields.map (fun f =>
      (f.1, if r.sensitive f.1 then fingerprint r f.2 else AgentLoop.redact r f.2)) := by
  induction fields with
  | nil => rw [redactFields, List.map_nil]
  | cons f fields ih => rw [redactFields, ih, List.map_cons]

theorem redact_scalar (scalar : Scalar v) :
    Alike below (AgentLoop.redact (redaction sha256) v) (AgentLoop.redact (redaction sha256) v) := by
  cases v with
  | arr => exact scalar.elim
  | obj => exact scalar.elim
  | str text =>
    rw [AgentLoop.redact]
    split
    · exact alike_truncated _ text
    · exact .scalar trivial
  | _ => exact .scalar trivial

mutual

theorem redact_alike {v w : Json} (same : Alike below v w) :
    Alike Marked (AgentLoop.redact (redaction sha256) v) (AgentLoop.redact (redaction sha256) w) := by
  cases same with
  | scalar scalar => exact redact_scalar scalar
  | arr items => exact .arr (redact_items items)
  | obj inside order =>
    refine .obj (redact_fields inside) ?_
    rw [redactFields_eq, redactFields_eq]
    exact order.map _

theorem redact_items {xs ys : List Json} (same : AlikeItems below xs ys) :
    AlikeItems Marked (redactItems (redaction sha256) xs) (redactItems (redaction sha256) ys) := by
  cases same with
  | nil => exact .nil
  | cons first rest => exact .cons (redact_alike first) (redact_items rest)

theorem redact_fields {fields fields' : List (String × Json)}
    (same : AlikeFields below fields fields') :
    AlikeFields Marked (redactFields (redaction sha256) fields)
      (redactFields (redaction sha256) fields') := by
  cases same with
  | nil => exact .nil
  | hidden sensitive value rest =>
    rw [redactFields, redactFields, redaction, if_pos sensitive, if_pos sensitive]
    exact .hidden sensitive (marked _ _ _) (redact_fields rest)
  | shown plain value rest =>
    rw [redactFields, redactFields, redaction, if_neg (ne_true_of_eq_false plain),
      if_neg (ne_true_of_eq_false plain)]
    exact .shown plain (redact_alike value) (redact_fields rest)

end

mutual

theorem redact_keeps : ∀ {v : Json}, Short v →
    Alike (fun value out => out = fingerprint (redaction sha256) value) v
      (AgentLoop.redact (redaction sha256) v)
  | .str text, short => by
    rw [AgentLoop.redact, if_neg (Nat.not_lt.mpr short)]
    exact .scalar trivial
  | .arr items, short => .arr (items_kept short)
  | .obj fields, short => .obj (fields_kept short) (.refl _)
  | .null, _ | .bool _, _ | .int _, _ | .float _, _ | .object _, _ => .scalar trivial

theorem items_kept : ∀ {items : List Json}, ShortItems items →
    AlikeItems (fun value out => out = fingerprint (redaction sha256) value) items
      (redactItems (redaction sha256) items)
  | [], _ => .nil
  | _ :: _, short => .cons (redact_keeps short.1) (items_kept short.2)

theorem fields_kept : ∀ {fields : List (String × Json)}, ShortFields fields →
    AlikeFields (fun value out => out = fingerprint (redaction sha256) value) fields
      (redactFields (redaction sha256) fields)
  | [], _ => .nil
  | (name, value) :: rest, short => by
    rw [redactFields]
    cases key : sensitiveKey name with
    | true => exact .hidden key (if_pos key) (fields_kept short.2)
    | false =>
      rw [if_neg (show ¬ (redaction sha256).sensitive name = true from ne_true_of_eq_false key)]
      exact .shown key (redact_keeps short.1) (fields_kept short.2)

end

theorem redact_unkeyed (v : Json) : redact sha256 v = AgentLoop.redact (redaction sha256) v := by
  rw [redact, if_neg (by decide)]

/-- Values that differ in any way under the sensitive keys are redacted to values that differ in
the hash and the length of the markers there; under a key of its own each becomes such a marker. A
value of short strings keeps its keys, its lists' lengths and every other scalar. -/
theorem redact_noninterferent (sha256 : String → String) :
    (∀ v w, Alike (fun _ _ => True) v w → Alike Marked (redact sha256 v) (redact sha256 w)) ∧
    (∀ key v w, sensitiveKey key = true → Marked (redact sha256 v key) (redact sha256 w key)) ∧
    ∀ v, Short v →
      Alike (fun value out => out = fingerprint (redaction sha256) value) v (redact sha256 v) := by
  refine ⟨fun v w same => ?_, fun key v w sensitive => ?_, fun v short => ?_⟩
  · rw [redact_unkeyed, redact_unkeyed]
    exact redact_alike same
  · rw [redact, redact, if_pos sensitive, if_pos sensitive]
    exact marked _ v w
  · rw [redact_unkeyed]
    exact redact_keeps short

end Meemee.Guarantees.RedactionAlike
