import Meemee.Guarantees.ApprovalMatching

/-!
# A signed command survives storage, and nothing else is accepted

The bytes that are signed tell the fields of an envelope up to the order of keys, and do not depend
on that order. So an envelope that was stored as JSON text and parsed is signed as it was made, and
an accepted one holds what the envelope of its signature does.
-/
namespace Meemee.Guarantees.CommandTransport
open Source Source.DeviceProtocol Source.Json List
open Source.JsonLoads (loads)
open Guarantees.JsonLoading
open Guarantees.ApprovalConstraints (finite_sorted encode_finite sorted_perm)
open Guarantees.ApprovalMatching (lookup_iff)

variable {v w : Json} {a b envelope : Envelope} {bytes : ByteArray} {name : String}

theorem finite_of_canonical (encoded : canonicalJson (.obj a) = .ok bytes) :
    finiteJson (.obj a) = true := by
  by_contra infinite
  rw [canonicalJson, validateConstraints, if_neg infinite] at encoded
  cases encoded

theorem canonical_eq (finite : finiteJson (.obj a) = true) : canonicalJson (.obj a) =
    (compactText (Json.obj a).sortKeys).bind (fun text => .ok text.toUTF8) := by
  rw [canonicalJson, validateConstraints, if_pos finite]
  rfl

theorem canonical_congr (same : (Json.obj a).sortKeys = (Json.obj b).sortKeys)
    (encoded : canonicalJson (.obj a) = .ok bytes) : canonicalJson (.obj b) = .ok bytes := by
  have finite := finite_of_canonical encoded
  rw [← finite_sorted, same, finite_sorted] at finite
  rw [canonical_eq (finite_of_canonical encoded), same] at encoded
  rw [canonical_eq finite, encoded]

theorem canonical_loads (loadable : Loadable (.obj a)) (encoded : canonicalJson (.obj a) = .ok bytes) :
    ∃ text : String, bytes = text.toUTF8 ∧ loads text = some (Json.obj a).sortKeys := by
  rw [canonical_eq (finite_of_canonical encoded)] at encoded
  obtain ⟨text, written, done⟩ := Library.except_bind_returned encoded
  cases done
  have sorted := loadable_sorted _ loadable
  exact ⟨text, rfl, loads_written compactStyle_readable sorted (compactText_written _ _ sorted written)⟩

theorem canonical_inj (loadable : Loadable (.obj a)) (loadable' : Loadable (.obj b))
    (first : canonicalJson (.obj a) = .ok bytes) (second : canonicalJson (.obj b) = .ok bytes) :
    (Json.obj a).sortKeys = (Json.obj b).sortKeys := by
  obtain ⟨text, here, read⟩ := canonical_loads loadable first
  obtain ⟨text', there, read'⟩ := canonical_loads loadable' second
  obtain rfl : text = text' := String.toByteArray_inj.mp (here.symm.trans there)
  exact Option.some.inj (read.symm.trans read')

/-- The fields of a dictionary in key order, as they come back from a column. -/
def sortedFields (fields : Envelope) : Envelope := (sortFields fields).insertionSort byName

theorem names_sorted (fields : Envelope) :
    ((sortedFields fields).map Prod.fst).Perm (fields.map Prod.fst) :=
  ((sorted_perm fields).map Prod.fst).trans (sortFields_names fields ▸ .refl _)

theorem lookup_sorted (distinct : (a.map Prod.fst).Nodup) (found : a.lookup name = some v) :
    (sortedFields a).lookup name = some v.sortKeys := by
  rw [lookup_iff ((names_sorted a).nodup_iff.mpr distinct)]
  have mem := (lookup_iff distinct).mp found
  rw [sortedFields, (sorted_perm a).mem_iff, sortFields_eq]
  exact mem_map_of_mem (f := fun f : String × Json => (f.1, f.2.sortKeys)) mem

theorem sortFields_unsigned (fields : Envelope) :
    sortFields (unsigned fields) = unsigned (sortFields fields) := by
  rw [sortFields_eq, sortFields_eq, unsigned, unsigned, filter_map]
  rfl

/-- What is signed of the fields that come back is what was signed of them. -/
theorem unsigned_sorted (distinct : (a.map Prod.fst).Nodup) :
    (Json.obj (unsigned (sortedFields a))).sortKeys = (Json.obj (unsigned a)).sortKeys := by
  have kept : (sortFields (sortFields (unsigned a))) = sortFields (unsigned a) :=
    sortFields_idem _
  have shuffled : (sortFields (unsigned (sortedFields a))).Perm (sortFields (unsigned a)) := by
    rw [← kept, sortFields_unsigned a, sortFields_eq, sortFields_eq]
    exact ((sorted_perm a).filter _).map _
  have names : ((sortFields (unsigned (sortedFields a))).map Prod.fst).Nodup := by
    rw [sortFields_names]
    exact ((filter_sublist).map Prod.fst).nodup ((names_sorted a).nodup_iff.mpr distinct)
  exact congrArg Json.obj (sorted_unique names shuffled)

variable {hmac : ByteArray → ByteArray → String} {secret : ByteArray} {signature : String}

theorem sign_ok (signed : sign hmac secret a = .ok signature) :
    ∃ bytes, canonicalJson (.obj (unsigned a)) = .ok bytes ∧ hmac secret bytes = signature := by
  obtain ⟨bytes, encoded, done⟩ := Library.except_bind_returned signed
  cases done
  exact ⟨bytes, encoded, rfl⟩

theorem sign_sorted (distinct : (a.map Prod.fst).Nodup) (signed : sign hmac secret a = .ok signature) :
    sign hmac secret (sortedFields a) = .ok signature := by
  obtain ⟨bytes, encoded, rfl⟩ := sign_ok signed
  rw [sign, canonical_congr (unsigned_sorted distinct).symm encoded]
  rfl

variable {command : VerifiedCommand}

theorem authenticated
    (accepted : authenticate hmac (.dict envelope) secret = .ok command) :
    readEnvelope envelope = some command ∧ ∃ signature, envelope.lookup "signature" = some (.str signature) ∧
      isAscii signature = true ∧ sign hmac secret envelope = .ok signature := by
  rw [authenticate] at accepted
  cases read : readEnvelope envelope with
  | none => rw [read] at accepted; cases accepted
  | some found =>
    simp only [read] at accepted
    split at accepted
    next supplied named =>
      split at accepted
      next ascii =>
        split at accepted
        · cases accepted
        next signature signed =>
          split at accepted
          next same =>
            cases accepted
            exact ⟨rfl, supplied, named, ascii, same ▸ signed⟩
          · cases accepted
      · cases accepted
    · cases accepted

/-- Envelopes of one signature have the same fields, or their bytes are a collision. -/
theorem fields_of_signature (loadable : Loadable (.obj a)) (loadable' : Loadable (.obj b))
    (first : sign hmac secret a = .ok signature) (second : sign hmac secret b = .ok signature) :
    (Json.obj (unsigned a)).sortKeys = (Json.obj (unsigned b)).sortKeys ∨
      ∃ bytes bytes', canonicalJson (.obj (unsigned a)) = .ok bytes ∧
        canonicalJson (.obj (unsigned b)) = .ok bytes' ∧ bytes ≠ bytes' ∧
        hmac secret bytes = hmac secret bytes' := by
  obtain ⟨bytes, here, digest⟩ := sign_ok first
  obtain ⟨bytes', there, digest'⟩ := sign_ok second
  have part : ∀ {c : Envelope}, Loadable (.obj c) → Loadable (.obj (unsigned c)) := fun loadable =>
    ⟨(filter_sublist.map Prod.fst).nodup loadable.1, loadableFields_iff.mpr
      (fun f mem => loadableFields_iff.mp loadable.2 f (mem_filter.mp mem).1)⟩
  by_cases same : bytes = bytes'
  · exact .inl (canonical_inj (part loadable) (part loadable') here (same ▸ there))
  · exact .inr ⟨bytes, bytes', here, there, same, digest.trans digest'.symm⟩

variable {c : VerifiedCommand}

theorem textField_sorted (distinct : (a.map Prod.fst).Nodup) {text : String} (filled : text ≠ "")
    (found : a.lookup name = some (.str text)) : textField name (sortedFields a) = some text := by
  rw [textField, lookup_sorted distinct found]
  exact if_neg filled

/-- The envelope of a command, signed. -/
def signedEnvelope (c : VerifiedCommand) (signature : String) : Envelope :=
  envelopeOf c.commandId c.deviceId c.capability c.arguments c.issuedAt c.nonce ++
    [("signature", .str signature)]

theorem signed_distinct : ((signedEnvelope c signature).map Prod.fst).Nodup := by
  change requiredFields.Nodup
  decide

/-- No text of the command is empty. -/
def Filled (c : VerifiedCommand) : Prop :=
  c.commandId ≠ "" ∧ c.deviceId ≠ "" ∧ c.capability ≠ "" ∧ c.nonce ≠ ""

/-- The envelope of a command is read back from its fields in key order. -/
theorem read_sorted (filled : Filled c) : readEnvelope (sortedFields (signedEnvelope c signature)) =
    some { c with arguments := sortedFields c.arguments } := by
  obtain ⟨drawn, device, able, once⟩ := filled
  have distinct := @signed_distinct signature c
  have named : ((sortedFields (signedEnvelope c signature)).map Prod.fst).isPerm requiredFields = true :=
    isPerm_iff.mpr (names_sorted _)
  rw [readEnvelope, if_pos named,
    lookup_sorted distinct (v := .int 1) rfl, lookup_sorted distinct (v := .int c.issuedAt) rfl,
    lookup_sorted distinct (v := .obj c.arguments) rfl, textField_sorted distinct drawn rfl,
    textField_sorted distinct device rfl, textField_sorted distinct able rfl,
    textField_sorted distinct once rfl]
  rfl

theorem made_command {deviceId capability : String} {arguments : Envelope} {issued : Option Int}
    {once ident : Option String} {draw : CommandDraw}
    (made : makeCommand hmac deviceId capability arguments secret issued once ident draw = .ok envelope)
    (drawn : draw.commandId ≠ "" ∧ draw.nonce ≠ "") : ∃ c signature, envelope = signedEnvelope c signature ∧
      sign hmac secret envelope = .ok signature ∧ Filled c ∧
      c = ⟨ident.getD draw.commandId, deviceId, capability, arguments, issued.getD ⌊draw.time⌋,
        once.getD draw.nonce⟩ := by
  unfold makeCommand at made
  split at made
  · cases made
  next valid =>
    obtain ⟨signature, signed, done⟩ := Library.except_bind_returned made
    cases done
    refine ⟨_, signature, rfl, signed, ⟨?_, fun empty => valid (.inl empty),
      fun empty => valid (.inr (.inl empty)), ?_⟩, rfl⟩
    · cases ident with
      | none => exact drawn.1
      | some ident => exact fun empty => valid (.inr (.inr (.inr (congrArg some empty))))
    · cases once with
      | none => exact drawn.2
      | some once => exact fun empty => valid (.inr (.inr (.inl (congrArg some empty))))

theorem signed_stored (c : VerifiedCommand) (loadable : Loadable (.obj c.arguments))
    (finite : finiteJson (.obj c.arguments) = true) :
    ∃ text, dumps { sortKeys := true } (.obj (signedEnvelope c signature)) = .ok text ∧
      loads text = some (.obj (sortedFields (signedEnvelope c signature))) := by
  have whole : finiteJson (.obj (signedEnvelope c signature)) = true := by
    change (true && (true && (true && (true && (finiteJson (.obj c.arguments) && _))))) = true
    rw [finite]
    rfl
  rw [← finite_sorted] at whole
  obtain ⟨text, encoded⟩ := encode_finite { sortKeys := true } _ whole
  have signed : Loadable (.obj (signedEnvelope c signature)) :=
    ⟨signed_distinct, trivial, trivial, trivial, trivial, loadable, trivial, trivial, trivial, trivial⟩
  exact ⟨text, encoded, sorted_loaded signed rfl encoded⟩

/-- What `verify_command` asks of an authenticated command, besides a fresh nonce. -/
def Admits (check : Verification) (command : VerifiedCommand) (clock : Int) : Prop :=
  |clock - command.issuedAt| ≤ check.tolerance ∧
    (∀ id ∈ check.expectedDeviceId, command.deviceId = id) ∧
    ∀ allowed ∈ check.allowedCapabilities, command.capability ∈ allowed

theorem admissible_iff (check : Verification) (command : VerifiedCommand) (clock : Int) :
    admissible check command clock = .ok () ↔ Admits check command clock := by
  unfold admissible Admits
  split
  next late => exact iff_of_false nofun (fun admits => absurd late (not_lt.mpr admits.1))
  next early =>
    split
    next other =>
      obtain ⟨id, expected, different⟩ := (Option.any_eq_true _ _).mp other
      exact iff_of_false nofun
        (fun admits => absurd (admits.2.1 id expected) (of_decide_eq_true different))
    next addressed =>
      split
      next other =>
        obtain ⟨allowed, declared, absent⟩ := (Option.any_eq_true _ _).mp other
        refine iff_of_false nofun (fun admits => ?_)
        rw [contains_iff_mem.mpr (admits.2.2 allowed declared)] at absent
        cases absent
      next able =>
        refine iff_of_true rfl ⟨not_lt.mp early, fun id expected => ?_, fun allowed declared => ?_⟩
        · by_contra different
          exact addressed ((Option.any_eq_true _ _).mpr ⟨id, expected, decide_eq_true different⟩)
        · by_contra absent
          exact able ((Option.any_eq_true _ _).mpr ⟨allowed, declared, by simpa using absent⟩)

theorem authenticate_ok (read : readEnvelope envelope = some command)
    (supplied : envelope.lookup "signature" = some (.str signature)) (ascii : isAscii signature = true)
    (signed : sign hmac secret envelope = .ok signature) :
    authenticate hmac (.dict envelope) secret = .ok command := by
  simp only [authenticate, read, supplied, ascii, signed, if_true]

theorem verify_iff {check : Verification} {time reading : ℚ}
    {guard : ReplayGuard} (known : authenticate hmac (.dict envelope) secret = .ok command) :
    (verifyCommand hmac (.dict envelope) secret check time reading guard).1 = .ok command ↔
      Admits check command (clockOf check time) ∧ (guard.claim command.nonce
        (command.issuedAt + check.tolerance - clockOf check time + 1) reading).1 = true := by
  rw [← admissible_iff, verifyCommand, known]
  cases admitted : admissible check command (clockOf check time) with
  | error e => simp [admitted]
  | ok _ =>
    simp only [admitted, true_and]
    split
    next fresh => exact iff_of_true rfl fresh
    next stale => exact iff_of_false nofun stale

/-- The signed bytes are those of the fields whatever their order, and of no others. A command that
was made, stored and parsed is accepted in its window, by its device, for a capability that is
allowed, while its nonce is fresh, with the fields it was made with; and an accepted envelope has
exactly the fields that its signature was made for, unless the digests of two texts collide. -/
theorem commands_transported (hmac : ByteArray → ByteArray → String) (secret : ByteArray) :
    (∀ (a b : Envelope) (bytes : ByteArray), Loadable (.obj a) → Loadable (.obj b) →
      canonicalJson (.obj a) = .ok bytes →
        (canonicalJson (.obj b) = .ok bytes ↔ (Json.obj a).sortKeys = (Json.obj b).sortKeys)) ∧
    ((∀ bytes, isAscii (hmac secret bytes) = true) →
      ∀ (deviceId capability : String) (arguments : Envelope) (issuedAt : Option Int)
        (nonce commandId : Option String) (draw : CommandDraw) (envelope : Envelope),
      Loadable (.obj arguments) → draw.commandId ≠ "" ∧ draw.nonce ≠ "" →
      makeCommand hmac deviceId capability arguments secret issuedAt nonce commandId draw = .ok envelope →
        ∃ text stored, dumps { sortKeys := true } (.obj envelope) = .ok text ∧
          loads text = some (.obj stored) ∧
          ∀ (check : Verification) (time reading : ℚ) (guard : ReplayGuard),
            let command : VerifiedCommand := ⟨commandId.getD draw.commandId, deviceId, capability,
              sortedFields arguments, issuedAt.getD ⌊draw.time⌋, nonce.getD draw.nonce⟩
            (verifyCommand hmac (.dict stored) secret check time reading guard).1 = .ok command ↔
              Admits check command (clockOf check time) ∧ (guard.claim command.nonce
                (command.issuedAt + check.tolerance - clockOf check time + 1) reading).1 = true) ∧
    ∀ (presented signed : Envelope) (command : VerifiedCommand) (signature : String),
      Loadable (.obj presented) → Loadable (.obj signed) →
      authenticate hmac (.dict presented) secret = .ok command →
      presented.lookup "signature" = some (.str signature) → sign hmac secret signed = .ok signature →
        (Json.obj (unsigned presented)).sortKeys = (Json.obj (unsigned signed)).sortKeys ∨
          ∃ bytes bytes', canonicalJson (.obj (unsigned presented)) = .ok bytes ∧
            canonicalJson (.obj (unsigned signed)) = .ok bytes' ∧ bytes ≠ bytes' ∧
            hmac secret bytes = hmac secret bytes' := by
  refine ⟨fun a b bytes loadable loadable' encoded => ⟨canonical_inj loadable loadable' encoded,
    fun same => canonical_congr same encoded⟩, ?_, ?_⟩
  · intro ascii deviceId capability arguments issuedAt nonce commandId draw envelope loadable drawn made
    obtain ⟨c, signature, rfl, signed, filled, same⟩ := made_command made drawn
    obtain ⟨bytes, encoded, rfl⟩ := sign_ok signed
    have finite := finite_of_canonical encoded
    have within : finiteJson (.obj c.arguments) = true :=
      ApprovalConstraints.finiteFields_iff.mp finite ("arguments", .obj c.arguments)
        (mem_filter.mpr ⟨by simp [signedEnvelope, envelopeOf], rfl⟩)
    obtain ⟨text, written, read⟩ := signed_stored c (same ▸ loadable) within
    refine ⟨text, _, written, read, fun check time reading guard => verify_iff ?_⟩
    subst same
    exact authenticate_ok (read_sorted filled) (lookup_sorted signed_distinct (v := .str _) rfl)
      (ascii _) (sign_sorted signed_distinct signed)
  · intro presented signed command signature loadable loadable' accepted named made
    obtain ⟨-, supplied, found, -, own⟩ := authenticated accepted
    cases found.symm.trans named
    exact fields_of_signature loadable loadable' own made

/-- What HMAC-SHA256 makes of the bytes of the command below and the secret `key`. -/
def sampleDigest : ByteArray → ByteArray → String :=
  fun _ _ => "fb421d802db8379efae3a615f6bc97d0fd6f454c3edd477ee920810ccec04f51"

def sampleArguments : Envelope := [("level", .int 3), ("area", .obj [("hall", .bool true)])]

def sampleEnvelope : Envelope :=
  envelopeOf "cmd-1" "lamp" "light.set" sampleArguments 100 "once" ++
    [("signature", .str (sampleDigest .empty "key".toUTF8))]

/-- A command that was made at 100 is accepted at 110 from its stored text; the order of its fields
does not matter to what is signed. -/
theorem sample_transported :
    (∃ bytes, canonicalJson (.obj sampleEnvelope) = .ok bytes ∧
      canonicalJson (.obj sampleEnvelope.reverse) = .ok bytes) ∧
    (∃ text stored, dumps { sortKeys := true } (.obj sampleEnvelope) = .ok text ∧
      loads text = some (.obj stored) ∧
      (verifyCommand sampleDigest (.dict stored) "key".toUTF8
        ⟨some "lamp", some ["light.set"], none, 30⟩ 110 7 (.memory ⟨60, []⟩)).1 =
          .ok ⟨"cmd-1", "lamp", "light.set", sortedFields sampleArguments, 100, "once"⟩) ∧
    ((Json.obj (unsigned sampleEnvelope)).sortKeys =
        (Json.obj (unsigned sampleEnvelope.reverse)).sortKeys ∨
      ∃ bytes bytes', canonicalJson (.obj (unsigned sampleEnvelope)) = .ok bytes ∧
        canonicalJson (.obj (unsigned sampleEnvelope.reverse)) = .ok bytes' ∧ bytes ≠ bytes' ∧
        sampleDigest "key".toUTF8 bytes = sampleDigest "key".toUTF8 bytes') := by
  have ascii (bytes) : isAscii (sampleDigest "key".toUTF8 bytes) = true := by
    change isAscii (sampleDigest .empty .empty) = true
    decide
  have arguments : Loadable (.obj sampleArguments) :=
    ⟨by decide, trivial, ⟨by decide, trivial, trivial⟩, trivial⟩
  have plain : Loadable (.obj sampleEnvelope) :=
    ⟨by decide, trivial, trivial, trivial, trivial, arguments, trivial, trivial, trivial, trivial⟩
  have turned : Loadable (.obj sampleEnvelope.reverse) :=
    ⟨by decide, trivial, trivial, trivial, arguments, trivial, trivial, trivial, trivial, trivial⟩
  obtain ⟨canonical, transported, bound⟩ := commands_transported sampleDigest "key".toUTF8
  refine ⟨⟨_, rfl, (canonical _ _ _ plain turned rfl).mpr rfl⟩, ?_,
    bound _ _ _ _ plain turned rfl rfl rfl⟩
  obtain ⟨text, stored, written, read, verified⟩ := transported ascii "lamp" "light.set"
    sampleArguments none none none ⟨100, "cmd-1", "once"⟩ sampleEnvelope arguments (by decide) rfl
  refine ⟨text, stored, written, read, (verified _ 110 7 (.memory ⟨60, []⟩)).mpr ⟨⟨?_, ?_, ?_⟩, ?_⟩⟩
  · decide
  · simp
  · simp
  · decide

end Meemee.Guarantees.CommandTransport
