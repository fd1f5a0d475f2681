import Meemee.Library.Lines
import Meemee.Source.ClientStreams
import Meemee.Guarantees.JsonPrinted

/-!
# Reading the frames of the event stream

The parser finds the same messages however the bytes are cut into chunks. A frame of the server is
three lines and an empty one, none of which holds a control character, so that the parser hands on
the event's kind, its JSON text and its number, and `json.loads` reads the row back.
-/
namespace Meemee.Guarantees.SseFrames
open Library.Lines Source Source.Jobs Source.Sse Source.ClientStreams Source.JsonLoads Option List
open Guarantees.JsonLoading
open Guarantees.JsonPrinted (Printable intChars_words word_printable name_printable dumps_printable
  dumps_ok)

theorem utf8_append (a b : String) : utf8 (a ++ b) = utf8 a ++ utf8 b := by
  rw [utf8, String.toList_append, flatMap_append]
  rfl

theorem decode_utf8 (replaced : Bytes → String) (text : String) :
    decode replaced (utf8 text) = text := by
  have bytes : (utf8 text).toByteArray = text.toByteArray := String.utf8Encode_toList
  have valid : String.fromUTF8? text.toByteArray = some text := by
    rw [String.fromUTF8?, dif_pos text.isValidUTF8]
    rfl
  rw [decode, bytes, valid, getD_some]

variable {c : Char} {text : String} {rest : List Char} {style : Style} {row : Row} {p : SSEParser}

theorem byte_ascii {b : UInt8} (small : b.toNat < 128) (byte : b ∈ String.utf8EncodeChar c) :
    c.toNat = b.toNat := by
  have high : ∀ n, 128 ≤ n → n < 256 → b ≠ UInt8.ofNat n := by
    intro n low bound same
    have values := congrArg UInt8.toNat same
    rw [UInt8.toNat_ofNat_of_lt' (by simpa using bound)] at values
    omega
  unfold String.utf8EncodeChar at byte
  dsimp only at byte
  split at byte
  next ascii =>
    have values := congrArg UInt8.toNat (mem_singleton.mp byte)
    rw [UInt8.toNat_ofNat_of_lt' (Nat.lt_of_le_of_lt ascii (by decide))] at values
    exact values.symm
  next =>
    exfalso
    split at byte
    · simp only [mem_cons, not_mem_nil, or_false] at byte
      rcases byte with here | here <;> exact high _ (by omega) (by omega) here
    split at byte
    · simp only [mem_cons, not_mem_nil, or_false] at byte
      rcases byte with here | here | here <;> exact high _ (by omega) (by omega) here
    · simp only [mem_cons, not_mem_nil, or_false] at byte
      rcases byte with here | here | here | here <;> exact high _ (by omega) (by omega) here

theorem byte_newline (byte : 10 ∈ String.utf8EncodeChar c) : c.toNat = 10 :=
  byte_ascii (by decide) byte

theorem utf8_inj {a b : String} (same : utf8 a = utf8 b) : a = b := by
  rw [← decode_utf8 (fun _ => "") a, same, decode_utf8]

/-- A text without control characters. -/
def Line (text : String) : Prop := ∀ c ∈ text.toList, Printable c

theorem line_append {a b : String} (first : Line a) (second : Line b) : Line (a ++ b) := by
  intro c mem
  rw [String.toList_append, mem_append] at mem
  exact mem.elim (first c) (second c)

theorem line_int (n : Int) : Line (toString n) := by
  intro c mem
  rw [toList_toString] at mem
  exact word_printable (intChars_words n c mem)

theorem line_bytes (line : Line text) : (10 : UInt8) ∉ utf8 text := by
  intro mem
  obtain ⟨c, inside, byte⟩ := mem_flatMap.mp mem
  have printable : 32 ≤ c.toNat := line c inside
  have newline := byte_newline byte
  omega

theorem line_without (line : Line text) (control : c.toNat < 32) : c ∉ text.toList := by
  intro mem
  have printable : 32 ≤ c.toNat := line c mem
  omega

theorem removeReturn_line (line : Line text) : removeReturn text.toList = text.toList := by
  rw [removeReturn, if_neg]
  intro last
  exact line_without line (by decide) (mem_of_getLast? last)

theorem dumps_loaded {options : Json.DumpOptions} {v : Json} (loadable : Loadable v)
    (plain : options.sortKeys = false) (encoded : Json.dumps options v = .ok text) :
    loads text = some v :=
  loads_written (styleOf_readable options) loadable (dumps_written loadable plain encoded)

section Parser

variable (replaced : Bytes → String)

/-- The messages of a list of finished lines. -/
def readLines (p : SSEParser) : List Bytes → SSEParser × List SSEMessage
  | [] => (p, [])
  | line :: rest =>
    let (p, message) := p.processLine (removeReturn (decode replaced line).toList)
    let (p, messages) := readLines p rest
    (p, message.toList ++ messages)

/-- The messages of a list of chunks. -/
def feedAll (p : SSEParser) : List Bytes → List SSEMessage
  | [] => []
  | chunk :: rest => (p.feed replaced chunk).2 ++ feedAll (p.feed replaced chunk).1 rest

variable {replaced}

/-- A parser with another buffer. -/
def held (p : SSEParser) (buffer : Bytes) : SSEParser := { p with buffer := buffer }

theorem processLine_held (p : SSEParser) (buffer : Bytes) (line : List Char) :
    (held p buffer).processLine line =
      (held (p.processLine line).1 buffer, (p.processLine line).2) := by
  unfold SSEParser.processLine
  split
  · obtain ⟨old, dataLines, eventType, lastEventId⟩ := p
    cases dataLines <;> rfl
  · rfl
  · simp only [SSEParser.assign]
    repeat' split
    all_goals rfl

theorem readLines_held (lines : List Bytes) (p : SSEParser) (buffer : Bytes) :
    readLines replaced (held p buffer) lines =
      (held (readLines replaced p lines).1 buffer, (readLines replaced p lines).2) := by
  induction lines generalizing p with
  | nil => rfl
  | cons line rest ih => simp only [readLines, processLine_held, ih]

theorem readLines_append (first second : List Bytes) (p : SSEParser) :
    readLines replaced p (first ++ second) =
      ((readLines replaced (readLines replaced p first).1 second).1,
        (readLines replaced p first).2 ++
          (readLines replaced (readLines replaced p first).1 second).2) := by
  induction first generalizing p with
  | nil => rfl
  | cons line rest ih =>
    simp only [cons_append, readLines, ih, append_assoc]

/-- The loop of `feed` reads the finished lines and keeps the unfinished one. -/
theorem drain_eq (rounds : Nat) (p : SSEParser) (enough : p.buffer.length ≤ rounds) :
    p.drain replaced rounds =
      (held (readLines replaced p (cut 10 p.buffer).1).1 (cut 10 p.buffer).2,
        (readLines replaced p (cut 10 p.buffer).1).2) := by
  induction rounds generalizing p with
  | zero =>
    obtain ⟨buffer, dataLines, eventType, lastEventId⟩ := p
    obtain rfl : buffer = [] := eq_nil_of_length_eq_zero (Nat.le_zero.mp enough)
    rfl
  | succ rounds ih =>
    have parts := takeWhile_append_dropWhile (p := (fun b => decide (b ≠ 10))) (l := p.buffer)
    have unbroken : (10 : UInt8) ∉ p.buffer.takeWhile (· ≠ 10) := by
      intro mem
      have other := all_eq_true.mp all_takeWhile _ mem
      exact absurd rfl (of_decide_eq_true other)
    cases rest : p.buffer.dropWhile (· ≠ 10) with
    | nil =>
      rw [rest, append_nil] at parts
      rw [parts] at unbroken
      simp only [SSEParser.drain, rest, cut_unfinished unbroken, readLines, held]
    | cons b after =>
      have stop : b = 10 := by
        have head := List.head?_dropWhile_not (fun b => decide (b ≠ 10)) p.buffer
        rw [rest] at head
        simpa using head
      subst stop
      rw [rest] at parts
      have whole := cut_line unbroken after
      rw [parts] at whole
      have shorter : after.length ≤ rounds := by
        have lengths := congrArg List.length parts
        rw [length_append, length_cons] at lengths
        omega
      simp only [SSEParser.drain, rest, whole, readLines]
      rw [show ({ p with buffer := after } : SSEParser) = held p after from rfl, processLine_held,
        ih _ shorter, readLines_held]
      rfl

theorem feed_eq (p : SSEParser) (chunk : Bytes) : p.feed replaced chunk =
    (held (readLines replaced p (cut 10 (p.buffer ++ chunk)).1).1 (cut 10 (p.buffer ++ chunk)).2,
      (readLines replaced p (cut 10 (p.buffer ++ chunk)).1).2) := by
  have loop := @drain_eq replaced (p.buffer ++ chunk).length (held p (p.buffer ++ chunk)) (Nat.le_refl _)
  rw [readLines_held] at loop
  exact loop

/-- However a text is cut into chunks, its messages are those of its finished lines. -/
theorem feedAll_eq (chunks : List Bytes) (p : SSEParser) (unfinished : (10 : UInt8) ∉ p.buffer) :
    feedAll replaced p chunks =
      (readLines replaced p (cut 10 (p.buffer ++ chunks.flatten)).1).2 := by
  induction chunks generalizing p with
  | nil => rw [flatten_nil, append_nil, cut_unfinished unfinished]; rfl
  | cons chunk rest ih =>
    have later := ih (held (readLines replaced p (cut 10 (p.buffer ++ chunk)).1).1
      (cut 10 (p.buffer ++ chunk)).2) (cut_end _)
    rw [readLines_held] at later
    rw [feedAll, feed_eq, later, flatten_cons, ← append_assoc,
      cut_append (p.buffer ++ chunk) rest.flatten, readLines_append]
    rfl

theorem readLines_prefix {first lines : List Bytes} (front : first <+: lines) (p : SSEParser) :
    (readLines replaced p first).2 <+: (readLines replaced p lines).2 := by
  obtain ⟨second, rfl⟩ := front
  rw [readLines_append]
  exact prefix_append _ _

/-- A parser between two frames. -/
def Idle (p : SSEParser) : Prop := p.dataLines = [] ∧ p.eventType = ""

theorem processLine_field (p : SSEParser) {name : List Char} (named : name ≠ []) (plain : ':' ∉ name)
    (value : List Char) : p.processLine (name ++ ':' :: ' ' :: value) =
      (p.assign (String.ofList name) (String.ofList value), none) := by
  have before : ∀ c ∈ name, decide (c ≠ ':') = true := by
    intro c mem
    refine decide_eq_true (fun same => plain ?_)
    rwa [← same]
  have parts : field (name ++ ':' :: ' ' :: value) = (String.ofList name, String.ofList value) := by
    rw [field, takeWhile_append_of_pos before, dropWhile_append_of_pos before]
    simp [removeSpace]
  obtain ⟨c, rest, rfl⟩ := exists_cons_of_ne_nil named
  unfold SSEParser.processLine
  split
  next empty => cases empty
  next colon =>
    rw [cons_append, List.cons.injEq] at colon
    exact absurd (colon.1 ▸ mem_cons_self) plain
  next => rw [parts]

/-- The lines of a frame, and of a heartbeat. -/
def frameLines (row : Row) (data : String) : List String :=
  ["id: " ++ toString row.sequence, "event: " ++ kindText row.kind, "data: " ++ data, ""]

def beatLines (cursor : Int) : List String := [": heartbeat " ++ toString cursor, ""]

theorem line_empty : Line "" := nofun

theorem line_kind (kind : EventKind) : Line (kindText kind) := by
  cases kind <;> exact name_printable rfl

theorem frameLines_line (row : Row) {data : String} (line : Line data) :
    ∀ text ∈ frameLines row data, Line text := by
  have mark : Line "id: " := name_printable rfl
  have event : Line "event: " := name_printable rfl
  have text : Line "data: " := name_printable rfl
  simp only [frameLines, forall_mem_cons]
  exact ⟨line_append mark (line_int row.sequence), line_append event (line_kind row.kind),
    line_append text line, line_empty, nofun⟩

theorem beatLines_line (cursor : Int) : ∀ text ∈ beatLines cursor, Line text := by
  have mark : Line ": heartbeat " := name_printable rfl
  simp only [beatLines, forall_mem_cons]
  exact ⟨line_append mark (line_int cursor), line_empty, nofun⟩

/-- A text as its lines. -/
def body (lines : List String) : Bytes := lines.flatMap (fun line => utf8 line ++ [10])

theorem frame_body {frame : String} (sent : row.frame = .ok frame) :
    ∃ data, row.text = .ok data ∧ utf8 frame = body (frameLines row data) := by
  obtain ⟨data, written, rest⟩ := Library.except_bind_returned sent
  cases rest
  refine ⟨data, written, ?_⟩
  have event : utf8 "\nevent: " = 10 :: utf8 "event: " := rfl
  have text : utf8 "\ndata: " = 10 :: utf8 "data: " := rfl
  have two : utf8 "\n\n" = [10, 10] := rfl
  have empty : utf8 "" = [] := rfl
  simp only [utf8_append, body, frameLines, event, text, two, empty, flatMap_cons,
    flatMap_nil, append_assoc, cons_append, nil_append]

theorem beat_body (cursor : Int) : utf8 (heartbeat cursor) = body (beatLines cursor) := by
  have two : utf8 "\n\n" = [10, 10] := rfl
  have empty : utf8 "" = [] := rfl
  simp only [heartbeat, utf8_append, body, beatLines, two, empty, flatMap_cons,
    flatMap_nil, append_assoc, cons_append, nil_append]

theorem readLines_line (line : Line text) (p : SSEParser) (rest : List Bytes) :
    readLines replaced p (utf8 text :: rest) =
      ((readLines replaced (p.processLine text.toList).1 rest).1,
        (p.processLine text.toList).2.toList ++
          (readLines replaced (p.processLine text.toList).1 rest).2) := by
  simp only [readLines, decode_utf8, removeReturn_line line]

theorem processLine_text (p : SSEParser) {mark name : String} (named : name.toList ≠ [])
    (plain : ':' ∉ name.toList) (marked : mark = name ++ ": ") (value : String) :
    p.processLine (mark ++ value).toList = (p.assign name value, none) := by
  have line := processLine_field p named plain value.toList
  rw [String.ofList_toList, String.ofList_toList] at line
  rw [← line, marked, String.toList_append, String.toList_append, append_assoc]
  rfl

theorem kind_named (kind : EventKind) : kindText kind ≠ "" ∧ kindText kind ≠ "error" := by
  cases kind <;> decide

theorem frame_read (idle : Idle p) (row : Row) {data : String} (line : Line data)
    (rest : List Bytes) :
    ∃ q, Idle q ∧ readLines replaced p ((frameLines row data).map utf8 ++ rest) =
      ((readLines replaced q rest).1,
        .event (kindText row.kind) data (some (toString row.sequence)) ::
          (readLines replaced q rest).2) := by
  obtain ⟨buffer, dataLines, eventType, lastEventId⟩ := p
  obtain ⟨rfl, rfl⟩ : dataLines = [] ∧ eventType = "" := idle
  have number := line_int row.sequence
  have marked : Char.ofNat 0 ∉ (toString row.sequence).toList := line_without number (by decide)
  refine ⟨⟨buffer, [], "", some (toString row.sequence)⟩, ⟨rfl, rfl⟩, ?_⟩
  obtain ⟨first, second, third, last, -⟩ : Line ("id: " ++ toString row.sequence) ∧
      Line ("event: " ++ kindText row.kind) ∧ Line ("data: " ++ data) ∧ Line "" ∧ True := by
    simpa [frameLines] using frameLines_line row line
  have one : (⟨buffer, [], "", lastEventId⟩ : SSEParser).processLine
      ("id: " ++ toString row.sequence).toList =
        (⟨buffer, [], "", some (toString row.sequence)⟩, none) := by
    rw [@processLine_text _ "id: " "id" (by decide) (by decide) rfl]
    simp only [SSEParser.assign, if_neg marked]
    rfl
  have two : (⟨buffer, [], "", some (toString row.sequence)⟩ : SSEParser).processLine
      ("event: " ++ kindText row.kind).toList =
        (⟨buffer, [], kindText row.kind, some (toString row.sequence)⟩, none) := by
    rw [@processLine_text _ "event: " "event" (by decide) (by decide) rfl]
    simp [SSEParser.assign]
  have three : (⟨buffer, [], kindText row.kind, some (toString row.sequence)⟩ : SSEParser).processLine
      ("data: " ++ data).toList =
        (⟨buffer, [data], kindText row.kind, some (toString row.sequence)⟩, none) := by
    rw [@processLine_text _ "data: " "data" (by decide) (by decide) rfl]
    simp [SSEParser.assign]
  have four : (⟨buffer, [data], kindText row.kind, some (toString row.sequence)⟩ : SSEParser).processLine
      "".toList = (⟨buffer, [], "", some (toString row.sequence)⟩,
        some (.event (kindText row.kind) data (some (toString row.sequence)))) := by
    change SSEParser.dispatch _ = _
    simp [SSEParser.dispatch, (kind_named row.kind).1]
  simp only [frameLines, map_cons, map_nil, cons_append, nil_append,
    readLines_line first, readLines_line second, readLines_line third, readLines_line last, one, two,
    three, four, toList_none, toList_some]

theorem beat_read (idle : Idle p) (cursor : Int) (rest : List Bytes) :
    ∃ q, Idle q ∧ readLines replaced p ((beatLines cursor).map utf8 ++ rest) =
      ((readLines replaced q rest).1,
        .comment ("heartbeat " ++ toString cursor) :: (readLines replaced q rest).2) := by
  have first := beatLines_line cursor _ mem_cons_self
  have last := line_empty
  refine ⟨p.dispatch.1, ?_, ?_⟩
  · rw [SSEParser.dispatch, idle.1]
    exact ⟨rfl, rfl⟩
  have comment : p.processLine (": heartbeat " ++ toString cursor).toList =
      (p, some (.comment ("heartbeat " ++ toString cursor))) := by
    rw [String.toList_append]
    change (p, some (SSEMessage.comment (String.ofList ("heartbeat ".toList ++ (toString cursor).toList)))) = _
    rw [← String.toList_append, String.ofList_toList]
  have blank : p.processLine "".toList = (p.dispatch.1, none) := by
    change p.dispatch = _
    rw [SSEParser.dispatch, idle.1]
    rfl
  simp only [beatLines, map_cons, map_nil, cons_append, nil_append,
    readLines_line first, readLines_line last, comment, blank, toList_some, toList_none]

/-- What the server sends of some rows: their frames in order, with heartbeats in between. -/
inductive Sent : List Row → Bytes → Prop where
  | nothing : Sent [] []
  | beat {rows : List Row} {rest : Bytes} (cursor : Int) (sent : Sent rows rest) :
      Sent rows (utf8 (heartbeat cursor) ++ rest)
  | event {row : Row} {frame : String} {rows : List Row} {rest : Bytes}
      (framed : row.frame = .ok frame) (sent : Sent rows rest) : Sent (row :: rows) (utf8 frame ++ rest)

/-- Messages that hold some rows in order, in their frames; the others are comments. -/
inductive Carries : List Row → List SSEMessage → Prop where
  | nothing : Carries [] []
  | beat {rows : List Row} {messages : List SSEMessage} (text : String) (carries : Carries rows messages) :
      Carries rows (.comment text :: messages)
  | event {row : Row} {data : String} {rows : List Row} {messages : List SSEMessage}
      (loaded : loads data = some row.data) (carries : Carries rows messages) :
      Carries (row :: rows)
        (.event (kindText row.kind) data (some (toString row.sequence)) :: messages)

/-- A row whose payload is one that `json.loads` makes. -/
def Readable (row : Row) : Prop := Loadable (.obj row.payload)

theorem data_loadable (readable : Readable row) : Loadable row.data :=
  ⟨(by decide : ["sequence", "job_id", "kind", "payload", "created_at"].Nodup),
    trivial, trivial, trivial, readable, trivial, trivial⟩

theorem frame_ok (readable : Readable row) : ∃ frame, row.frame = .ok frame := by
  obtain ⟨text, written⟩ :=
    dumps_ok { compact := true, defaultStr := true } (data_loadable readable) rfl
  unfold Row.frame Row.text
  rw [written]
  exact ⟨_, rfl⟩

/-- The bytes of some rows without heartbeats. -/
def frames (rows : List Row) : Bytes := rows.flatMap (fun row => utf8 (row.frame.toOption.getD ""))

theorem frames_sent {rows : List Row} (readable : ∀ row ∈ rows, Readable row) :
    Sent rows (frames rows) := by
  induction rows with
  | nil => exact .nothing
  | cons row rest ih =>
    obtain ⟨here, later⟩ := forall_mem_cons.mp readable
    obtain ⟨frame, framed⟩ := frame_ok here
    rw [frames, flatMap_cons, framed]
    exact .event framed (ih later)

theorem body_lines (lines : List String) :
    body lines = (lines.map utf8).flatMap (fun line => line ++ [10]) := by
  rw [body, flatMap_map]

theorem lines_unbroken {lines : List String} (all : ∀ line ∈ lines, Line line) :
    ∀ bytes ∈ lines.map utf8, (10 : UInt8) ∉ bytes := by
  intro bytes mem
  obtain ⟨line, inside, rfl⟩ := mem_map.mp mem
  exact line_bytes (all line inside)

/-- The bytes sent are finished lines, and the lines make messages that carry the rows. -/
theorem sent_lines {rows : List Row} {bytes : Bytes} (sent : Sent rows bytes)
    (readable : ∀ row ∈ rows, Readable row) :
    ∃ lines : List Bytes, bytes = lines.flatMap (fun line => line ++ [10]) ∧
      (∀ line ∈ lines, (10 : UInt8) ∉ line) ∧
      ∀ p, Idle p → Idle (readLines replaced p lines).1 ∧
        Carries rows (readLines replaced p lines).2 := by
  induction sent with
  | nothing =>
    refine ⟨[], rfl, ?_, fun _ idle => ⟨idle, .nothing⟩⟩
    intro line mem
    cases mem
  | @beat rows rest cursor sent ih =>
    obtain ⟨lines, same, unbroken, carries⟩ := ih readable
    refine ⟨(beatLines cursor).map utf8 ++ lines, ?_, ?_, ?_⟩
    · rw [flatMap_append, ← body_lines, ← beat_body, same]
    · exact forall_mem_append.mpr ⟨lines_unbroken (beatLines_line cursor), unbroken⟩
    · intro p idle
      obtain ⟨q, next, read⟩ := beat_read idle cursor lines
      obtain ⟨still, messages⟩ := carries q next
      rw [read]
      exact ⟨still, .beat _ messages⟩
  | @event row frame rows rest framed sent ih =>
    obtain ⟨here, later⟩ := forall_mem_cons.mp readable
    obtain ⟨lines, same, unbroken, carries⟩ := ih later
    obtain ⟨data, written, bytes⟩ := frame_body framed
    have line := dumps_printable (data_loadable here) written
    refine ⟨(frameLines row data).map utf8 ++ lines, ?_, ?_, ?_⟩
    · rw [flatMap_append, ← body_lines, ← bytes, same]
    · exact forall_mem_append.mpr ⟨lines_unbroken (frameLines_line row line), unbroken⟩
    · intro p idle
      obtain ⟨q, next, read⟩ := frame_read idle row line lines
      obtain ⟨still, messages⟩ := carries q next
      rw [read]
      exact ⟨still, .event (dumps_loaded (data_loadable here) rfl written) messages⟩

/-- The lines of the frame for a job that is gone. -/
def goneLines : List String := ["event: error", "data: \x7b\"detail\":\"job not found\"\x7d", ""]

theorem gone_body :
    utf8 notFoundFrame = (goneLines.map utf8).flatMap (fun line => line ++ [10]) := by
  decide +kernel

theorem goneLines_line : ∀ text ∈ goneLines, Line text := by
  have error : Line "event: error" := name_printable rfl
  have detail : Line "data: \x7b\"detail\":\"job not found\"\x7d" := name_printable rfl
  simp only [goneLines, forall_mem_cons]
  exact ⟨error, detail, line_empty, nofun⟩

/-- The message of a job that is gone; it keeps the id before it. -/
def goneMessage (id : Option String) : SSEMessage :=
  .event "error" "\x7b\"detail\":\"job not found\"\x7d" id

theorem gone_read (idle : Idle p) :
    (readLines replaced p (goneLines.map utf8)).2 = [goneMessage p.lastEventId] := by
  obtain ⟨buffer, dataLines, eventType, lastEventId⟩ := p
  obtain ⟨rfl, rfl⟩ : dataLines = [] ∧ eventType = "" := idle
  obtain ⟨error, detail, last, -⟩ := forall_mem_cons.mp goneLines_line |>.imp id
    (fun rest => forall_mem_cons.mp rest |>.imp id forall_mem_cons.mp)
  simp only [goneLines, map_cons, map_nil, readLines_line error, readLines_line detail]
  rfl

/-- A first part of the bytes, cut anyhow, parses to a first part of one list of messages. -/
theorem sent_read (replaced : Bytes → String) {rows : List Row} {bytes : Bytes} (sent : Sent rows bytes)
    (readable : ∀ row ∈ rows, Readable row) :
    ∃ messages id, Carries rows messages ∧ ∀ chunks : List Bytes,
      (chunks.flatten <+: bytes → feedAll replaced {} chunks <+: messages) ∧
        (chunks.flatten = bytes → feedAll replaced {} chunks = messages) ∧
        (chunks.flatten = bytes ++ utf8 notFoundFrame →
          feedAll replaced {} chunks = messages ++ [goneMessage id]) := by
  obtain ⟨lines, same, unbroken, carries⟩ := @sent_lines replaced _ _ sent readable
  obtain ⟨idle, carried⟩ := carries {} ⟨rfl, rfl⟩
  have whole : cut 10 bytes = (lines, []) := by rw [same, cut_lines unbroken]
  have ended : cut 10 (bytes ++ utf8 notFoundFrame) = (lines ++ goneLines.map utf8, []) := by
    rw [same, gone_body, ← flatMap_append]
    exact cut_lines (forall_mem_append.mpr ⟨unbroken, lines_unbroken goneLines_line⟩)
  refine ⟨(readLines replaced {} lines).2, (readLines replaced {} lines).1.lastEventId, carried,
    fun chunks => ⟨?_, ?_, ?_⟩⟩
  · intro front
    have finished := @cut_front _ _ 10 _ _ front
    rw [whole] at finished
    rw [feedAll_eq chunks {} not_mem_nil]
    exact readLines_prefix finished {}
  · intro all
    rw [feedAll_eq chunks {} not_mem_nil, nil_append, all, whole]
  · intro all
    rw [feedAll_eq chunks {} not_mem_nil, nil_append, all, ended, readLines_append,
      gone_read idle]

end Parser

end Meemee.Guarantees.SseFrames
