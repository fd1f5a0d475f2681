import Meemee.Library.FullText
import Meemee.Library.Words
import Meemee.Source.Memory

/-!
# Full-text search

`search` of `meemee/memory.py` and `search_facts` of `meemee/companion/store.py`: the text of a
query becomes an FTS5 expression, and what the expression matches is restricted to one owner.
The rows that a parsed expression matches, in the order of `bm25`, are a parameter.
-/
namespace Meemee.Source.SearchText
open Library FullText Source Memory

/-- `query.split()`. -/
def parts (query : String) : List (List Char) := Words.words PgJobs.isSpace query.toList

/-- `" OR ".join(…) or '""'`. -/
def safe (query : String) : List Char :=
  let joined := alternatives (parts query)
  if joined = [] then quote [] else joined

/-- `LIMIT ?`: a negative number is no limit. -/
def limited {α : Type} (limit : Int) (rows : List α) : List α :=
  if limit < 0 then rows else rows.take limit.toNat

/-- `MemoryStore.search`: the rows, or what FTS5 raises as `sqlite3.OperationalError`. -/
def search (matching : Query → List MemoryRow) (query : String) (limit : Int) (ownerId : String) :
    Except Fault (List MemoryRow) := do
  let parsed ← read (safe query)
  pure (limited limit ((matching parsed).filter (fun row => row.ownerId = ownerId)))

/-- A row of `companion_facts`. -/
structure FactRow where
  id : Nat
  userId : String
  fact : String
  supersededBy : Option Nat
  deriving DecidableEq

def searchFacts (matching : Query → List FactRow) (userId query : String) (limit : Int) :
    Except Fault (List FactRow) := do
  let parsed ← read (safe query)
  pure (limited (min (max limit 1) 50)
    ((matching parsed).filter (fun row => row.userId = userId ∧ row.supersededBy = none)))

end Meemee.Source.SearchText
