import Meemee.Source.JsonLoads

/-!
# The server-sent events parser

`meemee_client/sse.py`. A line of bytes that are no UTF-8 is decoded with replacement characters,
by a function that is a parameter; the lines of the server are UTF-8.
-/
namespace Meemee.Source.Sse
open Source

abbrev Bytes := List UInt8

/-- `text.encode()`. -/
def utf8 (text : String) : Bytes := text.toList.flatMap String.utf8EncodeChar

section Decoding

variable (replaced : Bytes → String)

/-- `raw.decode("utf-8", errors="replace")`. -/
def decode (raw : Bytes) : String := (String.fromUTF8? raw.toByteArray).getD (replaced raw)

end Decoding

inductive SSEMessage where
  | event (event data : String) (id : Option String)
  | comment (comment : String)
  deriving DecidableEq, Repr

structure SSEParser where
  buffer : Bytes := []
  dataLines : List String := []
  eventType : String := ""
  lastEventId : Option String := none

/-- `text.removeprefix(" ")`. -/
def removeSpace (text : List Char) : List Char := if text.head? = some ' ' then text.tail else text

/-- The field and the value of a line: the value is empty where the line has no colon. -/
def field (line : List Char) : String × String :=
  (String.ofList (line.takeWhile (· ≠ ':')),
    String.ofList (removeSpace (line.dropWhile (· ≠ ':')).tail))

def SSEParser.dispatch (p : SSEParser) : SSEParser × Option SSEMessage :=
  if p.dataLines.isEmpty then ({ p with eventType := "" }, none)
  else
    ({ p with dataLines := [], eventType := "" },
      some (.event (if p.eventType = "" then "message" else p.eventType)
        ("\n".intercalate p.dataLines) p.lastEventId))

/-- What a field does; unknown fields are ignored. -/
def SSEParser.assign (p : SSEParser) (name value : String) : SSEParser :=
  if name = "data" then { p with dataLines := p.dataLines ++ [value] }
  else if name = "event" then { p with eventType := value }
  else if name = "id" then
    if Char.ofNat 0 ∈ value.toList then p else { p with lastEventId := some value }
  else p

def SSEParser.processLine (p : SSEParser) (line : List Char) : SSEParser × Option SSEMessage :=
  match line with
  | [] => p.dispatch
  | ':' :: comment => (p, some (.comment (String.ofList (removeSpace comment))))
  | _ => (p.assign (field line).1 (field line).2, none)

/-- `line.removesuffix("\r")`. -/
def removeReturn (line : List Char) : List Char :=
  if line.getLast? = some '\r' then line.dropLast else line

/-- The loop of `feed`: each round takes a line out of the buffer. -/
def SSEParser.drain (replaced : Bytes → String) : Nat → SSEParser → SSEParser × List SSEMessage
  | 0, p => (p, [])
  | rounds + 1, p =>
    match p.buffer.dropWhile (· ≠ 10) with
    | [] => (p, [])
    | _ :: rest =>
      let line := removeReturn (decode replaced (p.buffer.takeWhile (· ≠ 10))).toList
      let (p, message) := { p with buffer := rest }.processLine line
      let (p, messages) := p.drain replaced rounds
      (p, message.toList ++ messages)

/-- `feed`; a buffer has no more lines than bytes. -/
def SSEParser.feed (replaced : Bytes → String) (p : SSEParser) (chunk : Bytes) :
    SSEParser × List SSEMessage :=
  { p with buffer := p.buffer ++ chunk }.drain replaced (p.buffer ++ chunk).length

example : (SSEParser.feed (fun _ => "") {} (utf8 "id: 7\nevent: done\r\ndata: \x7b\x7d\n\n: heartbeat 7\n\nid")).2 =
    [.event "done" "\x7b\x7d" (some "7"), .comment "heartbeat 7"] := by decide +kernel

end Meemee.Source.Sse
