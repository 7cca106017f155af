import Mathlib.Algebra.Group.Int.Defs
import Mathlib.Algebra.GroupWithZero.Nat
import Monik.AgentRuntime
import Monik.CrashPoints

/-! The spool of an agent: one file per report, and a ledger of what retention gave up, written
before the files are deleted and struck out afterwards. `written`, `removed` and `lost` are history.
-/

namespace Monik.Spool
open Protocol Persistence CrashPoints
open AgentRuntime
open Ingestion

def spoolMaxAge : Time := 30 * minute

def spoolMaxBytes : Nat := 100 * 1024 * 1024

def maxReportBytes : Nat := 8 * 2 ^ 20

def lossBatchLimit : Nat := 256

inductive Place
  | record (name : Time × String)
  | old (name : String)
  deriving DecidableEq

structure File where
  report : AgentReport
  mod : Time
  size : Nat
  deriving DecidableEq

abbrev Entry := Place × File

/-- Hash, time text, encoding, and a sort by modification time, in any order of equal times. -/
structure Library where
  digest : String × String × Int → String
  injective : ∀ a b, digest a = digest b → a = b
  stamp : Time → String
  codec : Codec
  bytes : AgentReport → Nat
  byMod : List Entry → List Entry
  perm : ∀ l, (byMod l).Perm l
  sorted : ∀ l, (byMod l).Pairwise fun a b => a.2.mod ≤ b.2.mod

structure Ledger where
  dropped : Int
  fromTime : Option Time
  toTime : Option Time
  priorUnknown : Bool
  pending : List Place

def Ledger.none : Ledger := ⟨0, .none, .none, false, []⟩

structure Disk where
  files : Map Place File
  ledger : Option Ledger
  written : List (AgentReport × Time)
  removed : List AgentReport
  lost : List (Place × Time)

def Disk.loss (d : Disk) : Ledger := d.ledger.getD .none

structure Finish where
  examine : Place → Except String Unit
  remove : Place → Except String Unit
  sync : Except String Unit
  save : Bool

structure Retire where
  before : Finish
  save : Bool
  after : Finish

structure Trim where
  first : Finish
  list : Except String Unit
  now : Time
  batch : Nat → Retire

def save (done : Bool) (f : Disk → Disk) : Proc Disk Bool :=
  Proc.replace (if done then .done else .failed) f

def saveFailed : String := "state file was not replaced"

section procedures

variable (k : Library)

def Place.rel : Place → String
  | .record (t, h) => "records-v2/" ++ k.stamp t ++ "-" ++ h ++ ".json"
  | .old name => name

def validLossPath (p : String) : Bool :=
  let parts := p.toList.splitOn '/'
  !p.isEmpty && p.utf8ByteSize ≤ 180 && !p.toList.contains '\\' && p.toList.head? != some '/' &&
    !p.toList.contains ':' && parts.length ≤ 2 &&
    (parts.length != 2 || parts.head? == some "records-v2".toList) &&
    parts.all (fun part => !([[], ['.'], ['.', '.']].contains part)) &&
    parts.getLast?.any fun part => decide (".json".toList <:+ part)

def removePending (env : Finish) : List Place → Proc Disk (Option String)
  | [] => pure none
  | p :: rest =>
    if validLossPath (p.rel k) = false then pure (some "invalid pending retirement")
    else
      match env.examine p with
      | .error text => pure (some text)
      | .ok _ => do
        if (← Proc.read fun d => d.files.get p).isNone then removePending env rest
        else
          match env.remove p with
          | .error text => pure (some text)
          | .ok _ => do
            Proc.op fun d => { d with files := d.files.erase p }
            removePending env rest

def finishLoss (m : Ledger) (env : Finish) : Proc Disk (Ledger × Option String) :=
  if m.pending = [] then pure (m, none)
  else do
    match ← removePending k env m.pending with
    | some text => return (m, some text)
    | none =>
      match env.sync with
      | .error text => return (m, some text)
      | .ok _ =>
        let cleared := { m with pending := [] }
        if ← save env.save fun d => { d with ledger := some cleared } then return (cleared, none)
        else return (m, some saveFailed)

def addLoss (v : Ledger) (e : Entry) : Except String Ledger :=
  if validLossPath (e.1.rel k) = false then .error "invalid spool record retirement path"
  else if v.dropped = 2 ^ 63 - 1 then .error "spool loss counter exhausted"
  else .ok { v with
    dropped := v.dropped + 1
    fromTime := some (match v.fromTime with
      | none => e.2.mod
      | some t => if e.2.mod < t then e.2.mod else t)
    toTime := some (match v.toTime with
      | none => e.2.mod
      | some t => if t < e.2.mod then e.2.mod else t)
    pending := v.pending ++ [e.1] }

def retireLoss (m : Ledger) (entries : List Entry) (env : Retire) : Proc Disk (Ledger × Option String) :=
  if entries = [] then pure (m, none)
  else if entries.length > lossBatchLimit then pure (m, some "spool retirement batch exceeds limit")
  else do
    match ← finishLoss k m env.before with
    | (m, some text) => return (m, some text)
    | (m, none) =>
      match entries.foldlM (addLoss k) m with
      | .error text => return (m, some text)
      | .ok v =>
        if ← save env.save fun d =>
            { d with ledger := some v, lost := d.lost ++ entries.map fun e => (e.1, e.2.mod) } then
          finishLoss k v env.after
        else return (m, some saveFailed)

/-- The loop of `trimLocked`: entries are given up from the oldest on, as long as too much is left
or the next one is too old. -/
def trimLoop (env : Trim) : Nat → Ledger → Nat → List Entry → List Entry → Proc Disk (Ledger × Option String)
  | n, m, _, retiring, [] => retireLoss k m retiring (env.batch n)
  | n, m, total, retiring, e :: rest =>
    if total ≤ spoolMaxBytes ∧ env.now - spoolMaxAge < e.2.mod then retireLoss k m retiring (env.batch n)
    else
      let left := total - e.2.size
      let retiring := retiring ++ [e]
      if retiring.length = lossBatchLimit then do
        match ← retireLoss k m retiring (env.batch n) with
        | (m, some text) => return (m, some text)
        | (m, none) => trimLoop env (n + 1) m left [] rest
      else trimLoop env n m left retiring rest

def sizes (entries : List Entry) : Nat := (entries.map fun e => e.2.size).sum

def trim (m : Ledger) (env : Trim) : Proc Disk (Ledger × Option String) := do
  match ← finishLoss k m env.first with
  | (m, some text) => return (m, some text)
  | (m, none) =>
    match env.list with
    | .error text => return (m, some text)
    | .ok _ =>
      let entries ← Proc.read fun d => k.byMod d.files.rows
      trimLoop k env 0 m (sizes entries) [] entries

def readRecord (io : Except String Unit) (f : File) : Except String AgentReport := do
  io
  if f.size > maxReportBytes then .error "invalid spool record size/type"
  else if f.report.agentId = "" ∨ f.report.sessionId = "" ∨ f.report.sequence < 1 ∨
      f.report.observedAt = zeroTime then .error "invalid spool report identity/time"
  else return f.report

structure Push where
  read : Except String Unit
  write : Bool
  mod : Time
  trim : Trim

def place (r : AgentReport) : Place := .record (recordName k.digest r)

def push (m : Ledger) (rep : AgentReport) (env : Push) : Proc Disk (Ledger × Option String) :=
  if k.bytes rep > maxReportBytes then pure (m, some "spool report exceeds 8 MiB")
  else do
    match ← Proc.read fun d => d.files.get (place k rep) with
    | some f =>
      match readRecord env.read f with
      | .error text => return (m, some text)
      | .ok old =>
        if sameReport old rep && observationPayload k.codec old == observationPayload k.codec rep then
          trim k m env.trim
        else return (m, some "spool identity conflict")
    | none =>
      if ← save env.write fun d => { d with
          files := d.files.put (place k rep) ⟨rep, env.mod, k.bytes rep⟩
          written := d.written ++ [(rep, env.mod)] } then
        trim k m env.trim
      else return (m, some saveFailed)

structure Listing where
  trim : Trim
  list : Except String Unit
  read : Place → Except String Unit
  byName : List Entry → List Entry

def readEntries (read : Place → Except String Unit) (limit : Nat) :
    List Entry → List AgentReport × Bool → List AgentReport × Bool
  | [], out => out
  | e :: rest, (out, unreadable) =>
    if 0 < limit ∧ limit ≤ out.length then (out, unreadable)
    else
      match readRecord (read e.1) e.2 with
      | .error _ => readEntries read limit rest (out, true)
      | .ok r => readEntries read limit rest (out ++ [r], unreadable)

def listLimit (m : Ledger) (limit : Nat) (env : Listing) :
    Proc Disk (Ledger × List AgentReport × Option String) := do
  match ← trim k m env.trim with
  | (m, some text) => return (m, [], some text)
  | (m, none) =>
    match env.list with
    | .error text => return (m, [], some text)
    | .ok _ =>
      let entries ← Proc.read fun d => env.byName d.files.rows
      match readEntries env.read limit entries ([], false) with
      | (out, true) => return (m, out, some "unreadable or corrupt spool record")
      | (out, false) => return (m, out, none)

structure Drop where
  read : Place → Except String Unit
  remove : Place → Except String Unit

def dropPlaces (rep : AgentReport) (env : Drop) : List Place → Proc Disk (Option String)
  | [] => pure none
  | p :: rest => do
    match ← Proc.read fun d => d.files.get p with
    | none => dropPlaces rep env rest
    | some f =>
      match readRecord (env.read p) f with
      | .error text => return some text
      | .ok old =>
        if sameReport old rep = false then dropPlaces rep env rest
        else
          match env.remove p with
          | .error text => return some text
          | .ok _ => do
            Proc.op fun d => { d with
              files := d.files.erase p
              removed := if p = place k rep then d.removed ++ [rep] else d.removed }
            dropPlaces rep env rest

def dropReport (rep : AgentReport) (env : Drop) : Proc Disk (Option String) :=
  dropPlaces k rep env [place k rep, .old (k.stamp rep.observedAt ++ ".json")]

structure Opening where
  directories : Except String Unit
  read : Except String Unit
  finish : Finish

def Ledger.invalid (v : Ledger) : Option String :=
  if v.dropped < 0 ∨ v.pending.length > lossBatchLimit ∨ (v.pending.length : Int) > v.dropped then
    some "invalid spool loss ledger fields"
  else if v.dropped > 0 ∧ (v.fromTime.isNone ∨ v.toTime.isNone ∨ v.fromTime = some zeroTime ∨
      v.toTime.getD 0 < v.fromTime.getD 0) then some "invalid spool loss interval"
  else if v.dropped = 0 ∧ (v.fromTime.isSome ∨ v.toTime.isSome) then
    some "unexpected empty spool loss interval"
  else if (∃ p ∈ v.pending, validLossPath (p.rel k) = false) ∨ ¬v.pending.Nodup then
    some "invalid spool loss retirement path"
  else .none

def openSpool (env : Opening) : Proc Disk (Except String Ledger) := do
  match env.directories, env.read with
  | .error text, _ | .ok _, .error text => return .error text
  | .ok _, .ok _ =>
    match ← Proc.read Disk.ledger with
    | none => return .ok .none
    | some v =>
      match v.invalid k with
      | some text => return .error text
      | none =>
        match ← finishLoss k v env.finish with
        | (_, some text) => return .error text
        | (m, none) => return .ok m

end procedures

end Monik.Spool
