import Meemee.Guarantees.SseFrames

/-!
# The parser undoes the stream's encoding

Fed in chunks, the parser says what it says of all the bytes at once. Everything that
`job_event_stream` yields is a block of finished lines, and a parser between two blocks makes one
message of each: an event's with its number, its kind and its JSON, and a heartbeat's comment.
-/
namespace Meemee.Guarantees.SseRoundTrip
open Library.Lines Source Source.Sse Source.ClientStreams Source.Streaming Source.JsonLoads
open Guarantees.SseFrames Guarantees.JsonLoading

variable {replaced : Bytes → String} {row : Row} {p : SSEParser}

/-- Feeding chunks, from any parser that has taken the finished lines out of its buffer. -/
theorem feed_chunks (unfinished : (10 : UInt8) ∉ p.buffer) (chunks : List Bytes) :
    feedAll replaced p chunks = (p.feed replaced chunks.flatten).2 := by
  rw [feedAll_eq chunks p unfinished, feed_eq]

/-- The message that a yield is to become. -/
def Answers : Yield → SSEMessage → Prop
  | .event row, message => ∃ data,
    message = .event (kindText row.kind) data (some (toString row.sequence)) ∧
      loads data = some row.data
  | .heartbeat cursor, message => message = .comment ("heartbeat " ++ toString cursor)
  | .notFound, message => ∃ id, message = goneMessage id

/-- A text of finished lines that a parser between two blocks makes one message of. -/
def Block (replaced : Bytes → String) (text : String) (answers : SSEMessage → Prop) : Prop :=
  ∃ lines : List String, utf8 text = body lines ∧ (∀ line ∈ lines, Line line) ∧
    ∀ p rest, Idle p → ∃ q message, Idle q ∧ answers message ∧
      readLines replaced p (lines.map utf8 ++ rest) =
        ((readLines replaced q rest).1, message :: (readLines replaced q rest).2)

theorem event_block (readable : Readable row) {frame : String} (framed : row.frame = .ok frame) :
    Block replaced frame (Answers (.event row)) := by
  obtain ⟨data, written, bytes⟩ := frame_body framed
  have line := JsonPrinted.dumps_printable (data_loadable readable) written
  have loaded := dumps_loaded (data_loadable readable) rfl written
  refine ⟨frameLines row data, bytes, frameLines_line row line, fun p rest idle => ?_⟩
  obtain ⟨q, next, read⟩ := frame_read idle row line rest
  exact ⟨q, _, next, ⟨data, rfl, loaded⟩, read⟩

theorem heartbeat_block (cursor : Int) :
    Block replaced (ClientStreams.heartbeat cursor) (Answers (.heartbeat cursor)) := by
  refine ⟨beatLines cursor, beat_body cursor, beatLines_line cursor, fun p rest idle => ?_⟩
  obtain ⟨q, next, read⟩ := beat_read idle cursor rest
  exact ⟨q, _, next, rfl, read⟩

theorem notFound_block : Block replaced notFoundFrame (Answers .notFound) := by
  refine ⟨goneLines, ?_, goneLines_line, fun p rest idle => ?_⟩
  · rw [gone_body, body_lines]
  obtain ⟨buffer, dataLines, eventType, lastEventId⟩ := p
  obtain ⟨rfl, rfl⟩ : dataLines = [] ∧ eventType = "" := idle
  obtain ⟨error, detail, last, -⟩ := List.forall_mem_cons.mp goneLines_line |>.imp id
    (fun rest => List.forall_mem_cons.mp rest |>.imp id List.forall_mem_cons.mp)
  refine ⟨⟨buffer, [], "", lastEventId⟩, goneMessage lastEventId, ⟨rfl, rfl⟩, ⟨_, rfl⟩, ?_⟩
  simp only [goneLines, List.map_cons, List.map_nil, List.cons_append, List.nil_append,
    readLines_line error, readLines_line detail, readLines_line last]
  rfl

theorem yield_block (yielded : Yield) (readable : ∀ row, yielded = .event row → Readable row) :
    ∃ text, yielded.text = .ok text ∧ Block replaced text (Answers yielded) := by
  cases yielded with
  | event row =>
    obtain ⟨frame, framed⟩ := frame_ok (readable row rfl)
    exact ⟨frame, framed, event_block (readable row rfl) framed⟩
  | heartbeat cursor => exact ⟨_, rfl, heartbeat_block cursor⟩
  | notFound => exact ⟨_, rfl, notFound_block⟩

/-- The rows among what was yielded. -/
def AllReadable (yields : List Yield) : Prop := ∀ row, Yield.event row ∈ yields → Readable row

theorem stream_lines {yields : List Yield} (readable : AllReadable yields) :
    ∃ text, streamText yields = .ok text ∧ ∃ lines : List String,
      utf8 text = body lines ∧ (∀ line ∈ lines, Line line) ∧
        ∀ p, Idle p → List.Forall₂ Answers yields (readLines replaced p (lines.map utf8)).2 := by
  induction yields with
  | nil =>
    refine ⟨"", rfl, [], rfl, ?_, fun _ _ => .nil⟩
    intro line mem
    cases mem
  | cons first rest ih =>
    obtain ⟨text, written, lines, bytes, all, answers⟩ :=
      ih (fun row mem => readable row (List.mem_cons_of_mem _ mem))
    obtain ⟨head, texts, block, start, line, reads⟩ := @yield_block replaced first
      (fun row same => readable row (same ▸ List.mem_cons_self))
    refine ⟨head ++ text, ?_, block ++ lines, ?_, List.forall_mem_append.mpr ⟨line, all⟩, ?_⟩
    · rw [streamText, texts, written]
      rfl
    · rw [utf8_append, start, bytes, body, body, body, List.flatMap_append]
    · intro p idle
      obtain ⟨q, message, next, answer, read⟩ := reads p (lines.map utf8) idle
      rw [List.map_append, read]
      exact .cons answer (answers q next)

/-- However the text of a stream is cut, its messages answer what was yielded, one by one. -/
theorem stream_read {yields : List Yield} (readable : AllReadable yields) :
    ∃ text, streamText yields = .ok text ∧ ∀ chunks : List Bytes, chunks.flatten = utf8 text →
      List.Forall₂ Answers yields (feedAll replaced {} chunks) := by
  obtain ⟨text, written, lines, bytes, all, answers⟩ := @stream_lines replaced _ readable
  refine ⟨text, written, fun chunks same => ?_⟩
  have whole : cut 10 (utf8 text) = (lines.map utf8, []) := by
    rw [bytes, body_lines, cut_lines (lines_unbroken all)]
  rw [feedAll_eq chunks {} List.not_mem_nil, List.nil_append, same, whole]
  exact answers {} ⟨rfl, rfl⟩

/-- What a round may read. -/
def Round.Readable (round : Round) : Prop := ∀ cursor, ∀ row ∈ round.events cursor, SseFrames.Readable row

section Clock

variable {φ : Type} [Zero φ] [Add φ] [LE φ] [DecidableLE φ] {pollSeconds heartbeatSeconds : φ}

theorem rounds_readable {reads : List Round} (readable : ∀ round ∈ reads, Round.Readable round)
    (cursor : Int) (sinceHeartbeat : φ) :
    AllReadable (rounds pollSeconds heartbeatSeconds cursor sinceHeartbeat reads) := by
  induction reads generalizing cursor sinceHeartbeat with
  | nil =>
    intro row mem
    cases mem
  | cons round more ih =>
    obtain ⟨here, later⟩ := List.forall_mem_cons.mp readable
    intro row mem
    simp only [rounds] at mem
    rcases List.mem_append.mp mem with sent | rest
    · obtain ⟨other, inside, same⟩ := List.mem_map.mp sent
      cases same
      exact here cursor row inside
    · generalize (if (round.events cursor).isEmpty = true then sinceHeartbeat else 0) = since at rest
      split at rest
      · simp at rest
      · split at rest
        · cases rest
        · split at rest
          · rcases List.mem_cons.mp rest with same | after
            · cases same
            · exact ih later _ _ row after
          · exact ih later _ _ row rest

end Clock

/-- Parsing does not depend on the chunks, and it undoes the encoding: of any events and heartbeats,
and of all that `job_event_stream` yields, each becomes one message, in order. -/
theorem stream_round_trip (replaced : Bytes → String) :
    (∀ p : SSEParser, (10 : UInt8) ∉ p.buffer → ∀ chunks : List Bytes,
      feedAll replaced p chunks = (p.feed replaced chunks.flatten).2) ∧
    (∀ yields : List Yield, AllReadable yields → ∃ text, streamText yields = .ok text ∧
      ∀ chunks : List Bytes, chunks.flatten = utf8 text →
        List.Forall₂ Answers yields (feedAll replaced {} chunks)) ∧
    ∀ (φ : Type) [Zero φ] [Add φ] [LE φ] [DecidableLE φ] (pollSeconds heartbeatSeconds : φ)
      (after : Int) (reads : List Round), (∀ round ∈ reads, Round.Readable round) →
        ∃ text, streamText (jobEventStream pollSeconds heartbeatSeconds after reads) = .ok text ∧
          ∀ chunks : List Bytes, chunks.flatten = utf8 text →
            List.Forall₂ Answers (jobEventStream pollSeconds heartbeatSeconds after reads)
              (feedAll replaced {} chunks) := by
  refine ⟨fun p unfinished chunks => feed_chunks unfinished chunks, fun yields readable =>
    stream_read readable, ?_⟩
  intro φ _ _ _ _ pollSeconds heartbeatSeconds after reads readable
  exact stream_read (rounds_readable readable after 0)

def sampleQueued : Row :=
  ⟨1, "job-1", .queued, [("run_at", .null)], "2026-01-01T00:00:00+00:00"⟩

def sampleDone : Row :=
  ⟨2, "job-1", .done, [("result", .obj [("message", .str "tidy\nup")])], "2026-01-01T00:00:30+00:00"⟩

/-- What three rounds read of a job that is done at the third. -/
def sampleReads : List Round :=
  [⟨fun _ => [sampleQueued], some .queued, fun _ => []⟩, ⟨fun _ => [], some .running, fun _ => []⟩,
    ⟨fun _ => [sampleDone], some .done, fun _ => []⟩]

/-- Sent byte by byte, two events and the heartbeat between them are read as they were yielded. -/
theorem sample_read :
    (∀ chunks : List Bytes, feedAll (fun _ => "") {} chunks =
      (SSEParser.feed (fun _ => "") {} chunks.flatten).2) ∧
    (∃ text, streamText [.event sampleDone, .heartbeat 2] = .ok text ∧
      List.Forall₂ Answers [.event sampleDone, .heartbeat 2] (feedAll (fun _ => "") {} [utf8 text])) ∧
    ∃ text, streamText (jobEventStream (10 : Int) 15 0 sampleReads) = .ok text ∧
      List.Forall₂ Answers [.event sampleQueued, .heartbeat 1, .event sampleDone]
        (feedAll (fun _ => "") {} ((utf8 text).map ([·]))) := by
  obtain ⟨split, stream, rounds⟩ := stream_round_trip (fun _ => "")
  have queued : SseFrames.Readable sampleQueued := ⟨by decide, trivial, trivial⟩
  have ended : SseFrames.Readable sampleDone := ⟨by decide, ⟨by decide, trivial, trivial⟩, trivial⟩
  refine ⟨split {} List.not_mem_nil, ?_, ?_⟩
  · obtain ⟨text, written, read⟩ := stream [.event sampleDone, .heartbeat 2]
      (by simp [AllReadable, ended])
    exact ⟨text, written, read _ (List.flatten_singleton)⟩
  · obtain ⟨text, written, read⟩ := rounds Int 10 15 0 sampleReads
      (by simp [sampleReads, Round.Readable, queued, ended])
    exact ⟨text, written, read _ (by simp [← List.flatMap_def])⟩

end Meemee.Guarantees.SseRoundTrip
