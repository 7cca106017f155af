import Mathlib.Algebra.Order.BigOperators.Group.List
import Mathlib.Algebra.Order.Group.Nat
import Monik.JsonText
import Monik.Protocol

/-! `Worker.streamLogs` against what `handleAgentSparkLogBatch` takes. Records come from
`LogHub.append`, which numbers them, or from `CloseProfile`, which does not. -/

namespace Monik.LogBatches
open JsonText Protocol

def logMaxLine : Nat := 16 * 1024

structure Record where
  sequence : Int
  at_ : Time
  text : List Char
  gap : Bool
  deriving DecidableEq

/-- The last pass of `Redactor.Clean`. -/
def stripControl (s : List Char) : List Char :=
  s.filter fun c => decide (32 ≤ c.toNat ∧ ¬(127 ≤ c.toNat ∧ c.toNat < 160)) || c == '\t'

def appended (seq : Nat) (now : Time) (line : List Char) (gap : Bool) : Record :=
  ⟨seq + 1, now, stripControl line, gap⟩

def closing (now : Time) (reason : List Char) : Record :=
  ⟨0, now, "[log stream closed: ".toList ++ reason ++ [']'], true⟩

variable (zero : Time)

/-- What a subscriber can be sent; the clock never shows the zero time. -/
inductive Delivered : Record → Prop
  | append (seq now line gap) : now ≠ zero → Delivered (appended seq now line gap)
  | close (now reason) : now ≠ zero → Delivered (closing now reason)

structure Stream where
  batch : List Record := []
  bytes : Nat := 0

inductive Event
  | tick
  | record (r : Record)
  | ended

def flush (s : Stream) : List (List Record) := if s.batch = [] then [] else [s.batch]

def step (s : Stream) : Event → Stream × List (List Record)
  | .tick | .ended => ({}, flush s)
  | .record r =>
    if logMaxLine < byteSize r.text then (s, [])
    else if 200 ≤ s.batch.length ∨ 128 * 1024 < s.bytes + byteSize r.text + 1 then
      (⟨[r], byteSize r.text + 1⟩, flush s)
    else (⟨s.batch ++ [r], s.bytes + byteSize r.text + 1⟩, [])

def posts (s : Stream) : List Event → List (List Record)
  | [] => []
  | e :: rest => (step s e).2 ++ posts (step s e).1 rest

structure Envelope where
  streamId : List Char
  agentSession : List Char
  timeSize : Time → Nat

def recordSize (v : Envelope) (r : Record) : Nat :=
  27 + decimalSize r.sequence + v.timeSize r.at_ + byteSize (quote r.text) + if r.gap then 11 else 0

/-- The length of the JSON text of a batch, with a comma after each record but the last. -/
def encodedSize (v : Envelope) (records : List Record) : Nat :=
  44 + byteSize (quote v.streamId) + byteSize (quote v.agentSession) +
    (records.map fun r => recordSize v r + 1).sum - 1

def validRecord (r : Record) : Bool :=
  decide (1 ≤ r.sequence ∧ r.at_ ≠ zero ∧ byteSize r.text ≤ 16 * 1024) &&
    r.text.all fun c => !(decide (c.toNat < 32 ∧ c ≠ '\t') || decide (c.toNat = 127))

def accepts (v : Envelope) (records : List Record) : Bool :=
  decide (encodedSize v records ≤ 192 * 1024 ∧ records.length ≤ 200) && records.all (validRecord zero) &&
    decide ((records.map fun r => byteSize r.text).sum ≤ 128 * 1024)

structure Built (records : List Record) (bytes : Nat) : Prop where
  count : records.length ≤ 200
  bytes_eq : bytes = (records.map fun r => byteSize r.text + 1).sum
  total : bytes ≤ 128 * 1024
  each : ∀ r ∈ records, Delivered zero r ∧ byteSize r.text ≤ logMaxLine

variable {zero} {s : Stream}

theorem built_singleton {r : Record} (h : Delivered zero r) (short : byteSize r.text ≤ logMaxLine) :
    Built zero [r] (byteSize r.text + 1) := by
  refine ⟨by simp, by simp, ?_, by simp [h, short]⟩
  unfold logMaxLine at short
  omega

theorem flush_built (h : Built zero s.batch s.bytes) : ∀ b ∈ flush s, ∃ bytes, Built zero b bytes := by
  intro b mem
  unfold flush at mem
  split at mem
  · cases mem
  · rw [List.mem_singleton.mp mem]
    exact ⟨s.bytes, h⟩

theorem step_built (e : Event) (delivered : ∀ r, e = .record r → Delivered zero r) (h : Built zero s.batch s.bytes) :
    Built zero (step s e).1.batch (step s e).1.bytes ∧ ∀ b ∈ (step s e).2, ∃ bytes, Built zero b bytes := by
  have empty : Built zero [] 0 := ⟨by simp, by simp, by simp, by simp⟩
  cases e with
  | tick | ended => exact ⟨empty, flush_built h⟩
  | record r =>
    dsimp only [step]
    split
    · exact ⟨h, by simp⟩
    · rename_i short
      split
      · exact ⟨built_singleton (delivered r rfl) (Nat.le_of_not_lt short), flush_built h⟩
      · refine ⟨⟨?_, ?_, ?_, ?_⟩, by simp⟩
        · simp
          omega
        · have before := h.bytes_eq
          simp only [List.map_append, List.sum_append, List.map_cons, List.map_nil, List.sum_cons, List.sum_nil]
          omega
        · dsimp only
          omega
        · intro r' mem
          rcases List.mem_append.mp mem with old | new
          · exact h.each r' old
          · rw [List.mem_singleton.mp new]
            exact ⟨delivered r rfl, Nat.le_of_not_lt short⟩

theorem posts_built {events : List Event} (delivered : ∀ r, .record r ∈ events → Delivered zero r)
    (h : Built zero s.batch s.bytes) : ∀ b ∈ posts s events, ∃ bytes, Built zero b bytes := by
  induction events generalizing s with
  | nil => simp [posts]
  | cons e rest ih =>
    obtain ⟨next, posted⟩ := step_built e (fun r same => delivered r (same ▸ List.mem_cons_self)) h
    intro b mem
    rcases List.mem_append.mp mem with now | later
    · exact posted b now
    · exact ih (fun r mem => delivered r (List.mem_cons_of_mem e mem)) next b later

theorem validRecord_iff {r : Record} (h : Delivered zero r) (short : byteSize r.text ≤ logMaxLine) :
    validRecord zero r ↔ r.sequence ≠ 0 := by
  unfold logMaxLine at short
  cases h with
  | append seq now line gap set =>
    have clean : (stripControl line).all
        (fun c => !(decide (c.toNat < 32 ∧ c ≠ '\t') || decide (c.toNat = 127))) := by
      simp only [stripControl, List.all_eq_true, List.mem_filter]
      rintro c ⟨-, kept⟩
      by_cases tab : c = '\t'
      · subst tab
        decide
      · simp [tab] at kept ⊢
        omega
    simp only [validRecord, appended, clean] at short ⊢
    simp [short, set]
    omega
  | close now reason set => simp [validRecord, closing]

/-- Times as `encoding/json` writes them, and names of at most a kilobyte. -/
structure Envelope.Bounded (v : Envelope) : Prop where
  names : byteSize (quote v.streamId) + byteSize (quote v.agentSession) ≤ 1024
  times : ∀ t, v.timeSize t ≤ 37

def Plain (r : Record) : Prop := r.sequence < 2 ^ 63 ∧ ∀ c ∈ r.text, escape c = [c]

theorem recordSize_plain {v : Envelope} (bounded : v.Bounded) {r : Record} (h : Delivered zero r) (plain : Plain r) :
    recordSize v r + 1 ≤ (byteSize r.text + 1) + 96 := by
  have low : 0 ≤ r.sequence := by
    cases h with
    | append seq => exact Int.natCast_nonneg (seq + 1)
    | close => exact le_refl _
  have digits : decimalSize r.sequence ≤ 19 := decimalSize_le low (by decide) (by have := plain.1; omega)
  have time := bounded.times r.at_
  rw [recordSize, byteSize_plain plain.2]
  split <;> omega

theorem encodedSize_plain {v : Envelope} (bounded : v.Bounded) {b : List Record} {bytes : Nat}
    (built : Built zero b bytes) (plain : ∀ r ∈ b, Plain r) : encodedSize v b ≤ 192 * 1024 := by
  have each : (b.map fun r => recordSize v r + 1).sum ≤ (b.map fun r => (byteSize r.text + 1) + 96).sum :=
    List.sum_le_sum fun r hr => recordSize_plain bounded (built.each r hr).1 (plain r hr)
  rw [List.sum_map_add (g := fun _ => 96), ← built.bytes_eq, List.map_const', List.sum_replicate_nat] at each
  have names := bounded.names
  have total := built.total
  have count := built.count
  unfold encodedSize
  omega

/-- For every stream of the hub a batch is accepted exactly if the closing record is not in it and its JSON
keeps to the limit, as it does if no character is escaped. -/
theorem posted_batch_accepted_iff (v : Envelope) (events : List Event)
    (delivered : ∀ r, .record r ∈ events → Delivered zero r) :
    ∀ b ∈ posts {} events, (accepts zero v b ↔
      (∀ r ∈ b, r.sequence ≠ 0) ∧ encodedSize v b ≤ 192 * 1024) ∧
      (v.Bounded → (∀ r ∈ b, Plain r) → encodedSize v b ≤ 192 * 1024) := by
  intro b mem
  obtain ⟨bytes, built⟩ := posts_built delivered ⟨by simp, by simp, by simp, by simp⟩ b mem
  refine ⟨?_, fun bounded plain => encodedSize_plain bounded built plain⟩
  have total : (b.map fun r => byteSize r.text).sum ≤ 128 * 1024 := by
    have less : (b.map fun r => byteSize r.text).sum ≤ (b.map fun r => byteSize r.text + 1).sum :=
      List.sum_le_sum fun r _ => Nat.le_add_right _ 1
    have := built.bytes_eq
    have := built.total
    omega
  have records : b.all (validRecord zero) ↔ ∀ r ∈ b, r.sequence ≠ 0 := by
    rw [List.all_eq_true]
    exact forall₂_congr fun r hr => validRecord_iff (built.each r hr).1 (built.each r hr).2
  simp only [accepts, Bool.and_eq_true, decide_eq_true_eq, records, total, built.count]
  tauto

theorem line_batch_accepted :
    accepts 0 ⟨['s'], ['a'], fun _ => 22⟩ [appended 0 1 ['x'] false] :=
  (posted_batch_accepted_iff ⟨['s'], ['a'], fun _ => 22⟩ [.record (appended 0 1 ['x'] false), .tick]
    (fun r mem => by
      obtain rfl : r = appended 0 1 ['x'] false := by simpa using mem
      exact .append 0 1 ['x'] false (by decide))
    [appended 0 1 ['x'] false] (by decide +kernel)).1.mpr (by decide +kernel)

theorem closing_batch_refused :
    let line := appended 0 1 ['x'] false
    let last := closing 2 "log_source_closed".toList
    Delivered 0 line ∧ Delivered 0 last ∧ posts {} [.record line, .record last, .ended] = [[line, last]] ∧
      accepts 0 ⟨['s'], ['a'], fun _ => 22⟩ [line, last] = false :=
  ⟨.append 0 1 ['x'] false (by decide), .close 2 _ (by decide), by decide +kernel, by decide +kernel⟩

/-! `RecordAssembler`: the lines of a child's output, out of the chunks it arrives in. -/

abbrev Bytes := List UInt8

def newline : UInt8 := 10

structure RecordAssembler where
  pending : Bytes := []
  dropping : Bool := false

def RecordAssembler.take (a : RecordAssembler) (part : Bytes) : RecordAssembler :=
  if a.dropping then a
  else if logMaxLine < a.pending.length + part.length then ⟨[], true⟩
  else { a with pending := a.pending ++ part }

def marker (text : String) : Bytes × Bool := (text.toUTF8.toList, true)

def RecordAssembler.emit (a : RecordAssembler) : Bytes × Bool :=
  if a.dropping then marker "[oversized log record dropped]" else (a.pending, false)

def feed (a : RecordAssembler) (chunk : Bytes) : RecordAssembler × List (Bytes × Bool) :=
  if chunk = [] then (a, [])
  else match chunk.idxOf? newline with
    | none => (a.take chunk, [])
    | some idx =>
      let fed := feed {} (chunk.drop (idx + 1))
      (fed.1, (a.take (chunk.take idx)).emit :: fed.2)
termination_by chunk.length
decreasing_by
  have some_bytes := List.length_pos_iff.mpr ‹chunk ≠ []›
  simp only [List.length_drop]
  omega

def finish (a : RecordAssembler) : List (Bytes × Bool) :=
  if a.pending ≠ [] ∨ a.dropping then [marker "[incomplete log record dropped]"] else []

def assemble (a : RecordAssembler) : List Bytes → List (Bytes × Bool)
  | [] => finish a
  | chunk :: rest => (feed a chunk).2 ++ assemble (feed a chunk).1 rest

/-- What a stream is to give: each line or its marker, and a marker for an unfinished last one. -/
def records (stream : Bytes) : List (Bytes × Bool) :=
  let lines := stream.splitOn newline
  lines.dropLast.map (fun line =>
      if line.length ≤ logMaxLine then (line, false) else marker "[oversized log record dropped]") ++
    if lines.getLast? = some [] then [] else [marker "[incomplete log record dropped]"]

variable {line part rest : Bytes}

/-- The state of an assembler that has seen the beginning of a line. -/
def held (line : Bytes) : RecordAssembler := if line.length ≤ logMaxLine then ⟨line, false⟩ else ⟨[], true⟩

theorem take_held (line part : Bytes) : (held line).take part = held (line ++ part) := by
  simp only [held, RecordAssembler.take, List.length_append]
  grind

theorem feed_part (plain : newline ∉ part) : feed (held line) part = (held (line ++ part), []) := by
  rw [feed, List.idxOf?_eq_none_iff.mpr plain]
  split_ifs with empty
  · simp [empty]
  · simp [take_held]

theorem feed_line (plain : newline ∉ part) :
    feed (held line) (part ++ newline :: rest) = ((feed {} rest).1, (held (line ++ part)).emit :: (feed {} rest).2) := by
  have idx : (part ++ newline :: rest).idxOf? newline = some part.length := by
    have none_before : part.findIdx? (· == newline) = none := List.idxOf?_eq_none_iff.mpr plain
    simp [List.idxOf?, List.findIdx?_append, List.findIdx?_cons, none_before]
  rw [feed, if_neg (by simp), idx]
  simp [take_held]

theorem records_line (plain : newline ∉ line) (rest : Bytes) :
    records (line ++ newline :: rest) = (held line).emit :: records rest := by
  have lines := List.splitOn_append_cons_self_of_not_mem plain rest
  have more : rest.splitOn newline ≠ [] := List.splitOn_ne_nil _ _
  simp only [records, lines, List.dropLast_cons_of_ne_nil more, List.getLast?_cons_of_ne_nil more, held,
    RecordAssembler.emit]
  grind

theorem records_rest (plain : newline ∉ line) : records line = finish (held line) := by
  simp only [records, List.splitOn_eq_singleton plain, held, finish]
  grind

/-- Feeding a chunk emits the lines it ends and holds the line it leaves open. -/
theorem feed_held (chunk : Bytes) (plain : newline ∉ line) :
    ∃ now, (feed (held line) chunk).1 = held now ∧ newline ∉ now ∧
      ∀ rest, records (line ++ chunk ++ rest) = (feed (held line) chunk).2 ++ records (now ++ rest) := by
  induction size : chunk.length using Nat.strongRecOn generalizing chunk line with
  | _ n ih =>
    by_cases mem : newline ∈ chunk
    · obtain ⟨part, tail, rfl, fresh⟩ := List.eq_append_cons_of_mem mem
      have both : newline ∉ line ++ part := by simp [plain, fresh]
      obtain ⟨now, state, open_, out⟩ := ih tail.length (by simp at size; omega) tail (by simp : newline ∉ ([] : Bytes)) rfl
      rw [feed_line fresh]
      refine ⟨now, state, open_, fun rest => ?_⟩
      have first := records_line both (tail ++ rest)
      simp only [List.append_assoc, List.cons_append, List.nil_append] at first out ⊢
      rw [first, out]
      rfl
    · refine ⟨line ++ chunk, ?_, ?_, ?_⟩ <;> simp [feed_part mem, plain, mem]

theorem assemble_held (chunks : List Bytes) (plain : newline ∉ line) :
    assemble (held line) chunks = records (line ++ chunks.flatten) := by
  induction chunks generalizing line with
  | nil => simp [assemble, records_rest plain]
  | cons chunk rest ih =>
    obtain ⟨now, state, open_, out⟩ := feed_held chunk plain
    rw [assemble, state, ih open_, List.flatten_cons, ← List.append_assoc, out]

theorem records_independent_of_chunks (chunks : List Bytes) : assemble {} chunks = records chunks.flatten :=
  assemble_held chunks (by simp : newline ∉ ([] : Bytes))

end Monik.LogBatches
