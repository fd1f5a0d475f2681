import Meemee.Source.PgJobs

/-!
# Memories and their vectors

`meemee/memory.py`, with the connections of any number of processes on one file. Python's
`sqlite3` opens a transaction at the first write, so `reindex` reads its batch in one
transaction and writes it in another, and the first SELECT of `delete_runs` comes before
its transaction. The encoder of a space, with the check of what it returns, is a
parameter, and so are `scrub_text` and the JSON of the metadata.
-/
namespace Meemee.Source.Memory
open Library Source

/-- A row of `memories`. -/
structure MemoryRow where
  id : Nat
  runId : String
  kind : String
  content : String
  metadata : String
  createdAt : Instant
  ownerId : String
  deriving DecidableEq

/-- A row of `memory_embeddings`, over the numbers `φ` of the encoders. -/
structure EmbeddingRow (φ : Type) where
  memoryId : Nat
  dimensions : Nat
  embedding : List φ
  spaceId : String
  deriving DecidableEq

structure MemoryStore (φ : Type) where
  memories : Table MemoryRow.id
  embeddings : Table (@EmbeddingRow.memoryId φ)

def MemoryStore.empty (φ : Type) : MemoryStore φ := ⟨Table.empty, Table.empty⟩

variable {φ : Type}

abbrev MemoryTxn (φ : Type) := Txn (MemoryStore φ) Exc

/-- The id of a new row: the largest stored id plus one. -/
def nextMemoryId (s : MemoryStore φ) : Nat := (s.memories.rows.map MemoryRow.id).foldr max 0 + 1

/-- What one write leaves of the two tables. -/
def setEmbeddings (f : Table (@EmbeddingRow.memoryId φ) → Table (@EmbeddingRow.memoryId φ)) :
    MemoryTxn φ Unit :=
  Txn.write (fun s => { s with embeddings := f s.embeddings })

def setMemories (f : Table MemoryRow.id → Table MemoryRow.id) : MemoryTxn φ Unit :=
  Txn.write (fun s => { s with memories := f s.memories })

section Encoding

-- `embed` and `validate_embedding_batch`, by the embedding space and the text.
variable (encode : String → String → Except Exc (List φ)) (scrubText : String → String)

/-- The row of a vector. -/
def vectorRow (id : Nat) (space : String) (vector : List φ) : EmbeddingRow φ :=
  ⟨id, vector.length, vector, space⟩

/-- `INSERT INTO memory_embeddings`. -/
def insertVector (row : EmbeddingRow φ) : MemoryTxn φ Unit := do
  let fresh ← Txn.read (fun s => (s.embeddings.insertOrIgnore row).2)
  Txn.require fresh (.integrityError "UNIQUE constraint failed: memory_embeddings.memory_id")
  setEmbeddings (fun embeddings => (embeddings.insertOrIgnore row).1)

/-- `add`, over a connection with an encoder of the space. -/
def add (space runId kind content metadata ownerId : String) (now : Instant) : MemoryTxn φ Nat := do
  Txn.require (!PgJobs.blank ownerId) (.valueError "owner_id is required")
  Txn.atomically do
    let id ← Txn.read nextMemoryId
    setMemories (fun memories =>
      (memories.insertOrIgnore ⟨id, runId, kind, scrubText content, metadata, now, ownerId⟩).1)
    let vector ← Txn.ofExcept (encode space (scrubText content))
    insertVector (vectorRow id space vector)
    return id

/-- A memory without a vector of the space. -/
def stale (space : String) (s : MemoryStore φ) (m : MemoryRow) : Bool :=
  (s.embeddings.find m.id).all (fun e => decide (e.spaceId ≠ space))

/-- The batch that `reindex` reads. -/
def readBatch (space : String) (batchSize : Nat) (s : MemoryStore φ) : List (Nat × String) :=
  (((s.memories.select (stale space s)).mergeSort (fun a b => decide (a.id ≤ b.id))).take
    batchSize).map (fun m => (m.id, m.content))

/-- The vectors of a batch, which are computed outside of any transaction. -/
def encodeBatch (space : String) : List (Nat × String) → Except Exc (List (EmbeddingRow φ))
  | [] => .ok []
  | (id, content) :: rest => do
    let vector ← encode space content
    let others ← encodeBatch space rest
    return vectorRow id space vector :: others

/-- `INSERT OR REPLACE` for each row of the batch. -/
def replaceVectors : List (EmbeddingRow φ) → MemoryTxn φ Unit
  | [] => pure ()
  | row :: rest => do
    setEmbeddings (fun embeddings => embeddings.replace row)
    replaceVectors rest

/-- The second half of a round of `reindex`. -/
def writeBatch (space : String) (batch : List (Nat × String)) : MemoryTxn φ Nat := do
  let rows ← Txn.ofExcept (encodeBatch encode space batch)
  Txn.atomically do
    replaceVectors rows
    return rows.length

/-- The loop of `reindex`, for at most so many rounds. -/
def reindexRounds (space : String) (batchSize : Nat) : Nat → Nat → MemoryTxn φ Nat
  | 0, count => pure count
  | rounds + 1, count => do
    let batch ← Txn.read (readBatch space batchSize)
    if batch.isEmpty then return count
    else do
      let written ← writeBatch encode space batch
      reindexRounds space batchSize rounds (count + written)

/-- `reindex` with no other connection in between; a round takes one memory at least. -/
def reindex (space : String) (batchSize : Int) : MemoryTxn φ Nat := do
  Txn.require (decide (1 ≤ batchSize)) (.valueError "batch_size must be positive")
  let memories ← Txn.read (fun s => s.memories.rows.length)
  reindexRounds encode space batchSize.toNat memories 0

end Encoding

/-- `memory_id IN (SELECT id FROM memories WHERE owner_id=?)`. -/
def ownedVector (ownerId : String) (s : MemoryStore φ) (e : EmbeddingRow φ) : Bool :=
  s.memories.rows.any (fun m => decide (m.id = e.memoryId ∧ m.ownerId = ownerId))

def purgeOwner (ownerId : String) : MemoryTxn φ Nat := do
  Txn.require (!PgJobs.blank ownerId) (.valueError "owner_id is required")
  Txn.atomically do
    let owned ← Txn.read (fun s => ownedVector ownerId s)
    setEmbeddings (fun embeddings => embeddings.delete owned)
    let rows ← Txn.read (fun s => s.memories.select (fun m => decide (m.ownerId = ownerId)))
    setMemories (fun memories => memories.delete (fun m => decide (m.ownerId = ownerId)))
    return rows.length

def ofRun (ownerId runId : String) (m : MemoryRow) : Bool :=
  decide (m.runId = runId ∧ m.ownerId = ownerId)

def runIdsOf (ownerId runId : String) (s : MemoryStore φ) : List Nat :=
  (s.memories.select (ofRun ownerId runId)).map MemoryRow.id

/-- The deletes of one run, after its ids were read. -/
def deleteRun (ownerId runId : String) (ids : List Nat) : MemoryTxn φ Nat := do
  setEmbeddings (fun embeddings => embeddings.delete (fun e => ids.contains e.memoryId))
  let rows ← Txn.read (fun s => s.memories.select (ofRun ownerId runId))
  setMemories (fun memories => memories.delete (ofRun ownerId runId))
  return rows.length

def deleteRunsFrom (ownerId : String) : List String → MemoryTxn φ Nat
  | [] => pure 0
  | runId :: rest => do
    let ids ← Txn.read (runIdsOf ownerId runId)
    let deleted ← deleteRun ownerId runId ids
    let later ← deleteRunsFrom ownerId rest
    return deleted + later

/-- What `delete_runs` reads before its transaction: the ids of its first run. -/
def readRun (ownerId : String) (runIds : List String) (s : MemoryStore φ) : List Nat :=
  match runIds.eraseDups with
  | [] => []
  | runId :: _ => runIdsOf ownerId runId s

/-- `delete_runs` once the ids of its first run are read. -/
def deleteRuns (ownerId : String) (runIds : List String) (ids : List Nat) : MemoryTxn φ Nat := do
  Txn.require (!PgJobs.blank ownerId) (.valueError "owner_id is required")
  Txn.atomically do
    match runIds.eraseDups with
    | [] => return 0
    | runId :: rest =>
      let deleted ← deleteRun ownerId runId ids
      let later ← deleteRunsFrom ownerId rest
      return deleted + later

end Meemee.Source.Memory
