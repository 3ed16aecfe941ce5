import TurboPanel.Data.Interleaving
import TurboPanel.Transcripts.Index

/-!
# Execution logs in an object store

The store keeps one object for the index of a command, one for each part while the transcript is
live, and one for the whole once it is sealed. Every get, put and delete is an operation of its own;
gets and deletes that are sent together are served in any order. `appendChunk`, `readFrom` and
`seal` are the programs of `ObjectExecutionLogStore`.

The index is kept as a value and the sealed object uncompressed: the JSON text and gzip lose
nothing.
-/

namespace TurboPanel.Transcripts

open Interleaving Js Paste

/-! ## The objects of a command -/

structure Objects where
  index : Option ExecutionLogIndex
  /-- `executionLogPartKey`: by partition and sequence number. -/
  part : ℤ → ℕ → Option Bytes
  /-- `executionLogSealedKey`: by partition. -/
  sealed : ℤ → Option Bytes

def Objects.empty : Objects := ⟨none, fun _ _ => none, fun _ => none⟩

inductive Op where
  | now
  | getIndex
  | putIndex (index : ExecutionLogIndex)
  /-- One of the parts that are asked for is served. -/
  | getPart (partition : ℤ) (parts : List ExecutionLogPart)
  | putPart (partition : ℤ) (seq : ℕ) (bytes : Bytes)
  | getSealed (partition : ℤ)
  | putSealed (partition : ℤ) (bytes : Bytes)
  /-- One of the parts that shall go is deleted. -/
  | deletePart (partition : ℤ) (parts : List ExecutionLogPart)
  /-- `appendChunk` returns. -/
  | appended (chunk : ExecutionLogChunk) (nextSeq : ℕ)
  /-- `readFrom` returns. -/
  | shown (fromSeq maxBytes : Number) (result : Option ExecutionLogReadResult)

@[reducible] def Ans : Op → Type
  | .now => Date
  | .getIndex => Option ExecutionLogIndex
  | .putIndex _ => Unit
  | .getPart _ _ => ExecutionLogPart × Option Bytes
  | .putPart _ _ _ => Unit
  | .getSealed _ => Option Bytes
  | .putSealed _ _ => Unit
  | .deletePart _ _ => ExecutionLogPart
  | .appended _ _ => Unit
  | .shown _ _ _ => Unit

structure Env where
  now : Date := 0
  /-- Which of the requests that are open is served. -/
  pick : ℕ := 0

def Objects.setPart (s : Objects) (partition : ℤ) (seq : ℕ) (object : Option Bytes) : Objects :=
  { s with part := fun p n => if p = partition ∧ n = seq then object else s.part p n }

def exec (e : Env) (o : Op) (s : Objects) : Option (Ans o × Objects) :=
  match o with
  | .now => some (e.now, s)
  | .getIndex => some (s.index, s)
  | .putIndex index => some ((), { s with index := some index })
  | .getPart partition parts => parts[e.pick]?.map fun part => ((part, s.part partition part.seq), s)
  | .putPart partition seq bytes => some ((), s.setPart partition seq (some bytes))
  | .getSealed partition => some (s.sealed partition, s)
  | .putSealed partition bytes =>
    some ((), { s with sealed := fun p => if p = partition then some bytes else s.sealed p })
  | .deletePart partition parts =>
    parts[e.pick]?.map fun part => (part, s.setPart partition part.seq none)
  | .appended _ _ => some ((), s)
  | .shown _ _ _ => some ((), s)

def machine : Machine Op Ans Objects Env where
  exec _ := exec
  drop _ s := s

abbrev Proc := Prog Op Ans

abbrev ask (o : Op) : Proc (Ans o) := Prog.call o

/-! ## The programs -/

def putMarker (partition : ℤ) (seq : ℕ) : Option Bytes → Proc Unit
  | some marker => ask (.putPart partition seq marker)
  | none => pure ()

/-- What `appendChunk` does for a plan: the part first, and then the index. -/
def carryOut (index : ExecutionLogIndex) (now : Date) : ExecutionLogAppendPlan → Proc ℕ
  | .replay nextSeq => pure nextSeq
  | .truncated seq marker => do
    putMarker index.datePartition seq marker
    let next := applyExecutionLogTruncation index seq (marker.map List.length) now
    ask (.putIndex next)
    pure next.nextSeq
  | .write part bytes => do
    ask (.putPart index.datePartition part.seq bytes)
    let next := applyExecutionLogWrite index part now
    ask (.putIndex next)
    pure next.nextSeq

def appendTo (index : ExecutionLogIndex) (now : Date) (chunk : ExecutionLogChunk) :
    Proc (Except ExecutionLogError ℕ) :=
  match planExecutionLogAppend index chunk with
  | .error error => pure (.error error)
  | .ok plan => do
    let nextSeq ← carryOut index now plan
    pure (.ok nextSeq)

def appendChunk (commandId : String) (chunk : ExecutionLogChunk) : Proc (Except ExecutionLogError ℕ) := do
  let now ← ask .now
  let stored ← ask .getIndex
  appendTo (stored.getD (createExecutionLogIndex commandId now)) now chunk

/-- A part is laid into the window where the index has it; one that is missing leaves a hole. -/
def placePart (start stop : ℕ) (part : ExecutionLogPart) (body : Option Bytes) (out : Bytes) : Bytes :=
  match body with
  | none => out
  | some body =>
    let copyStart := max start part.offset
    let copyEnd := min stop (part.offset + part.length)
    if copyEnd ≤ copyStart then out
    else place out (slice body (copyStart - part.offset) (copyEnd - part.offset)) (copyStart - start)

/-- The gets of the parts, of which `count` are open. -/
def fetchParts (partition : ℤ) (start stop : ℕ) : (count : ℕ) → List ExecutionLogPart → Bytes → Proc Bytes
  | 0, _, out => pure out
  | count + 1, parts, out => do
    let served ← ask (.getPart partition parts)
    fetchParts partition start stop count (parts.erase served.1) (placePart start stop served.1 served.2 out)

def assemblePartsInto (partition : ℤ) (parts : List ExecutionLogPart) (start stop : ℕ) : Proc Bytes :=
  fetchParts partition start stop parts.length parts (List.replicate (stop - start) 0)

def readSealed (index : ExecutionLogIndex) (window : ExecutionLogReadWindow) :
    Proc ExecutionLogReadResult := do
  let stored ← ask (.getSealed index.datePartition)
  match stored with
  | none => pure (shapeExecutionLogRead index window [])
  | some plain => pure (shapeExecutionLogRead index window (slice plain window.start window.stop))

def covering (index : ExecutionLogIndex) (window : ExecutionLogReadWindow) : List ExecutionLogPart :=
  index.parts.filter fun part =>
    decide (part.offset < window.stop ∧ window.start < part.offset + part.length)

def readParts (index : ExecutionLogIndex) (window : ExecutionLogReadWindow) : Proc ExecutionLogReadResult :=
  if covering index window = [] then pure (shapeExecutionLogRead index window [])
  else do
    let assembled ←
      assemblePartsInto index.datePartition (covering index window) window.start window.stop
    pure (shapeExecutionLogRead index window assembled)

def readWindow (index : ExecutionLogIndex) (window : ExecutionLogReadWindow) :
    Proc ExecutionLogReadResult :=
  if window.stop ≤ window.start then pure (shapeExecutionLogRead index window [])
  else if index.sealed then readSealed index window
  else readParts index window

def readIndexed (fromSeq maxBytes : Number) : Option ExecutionLogIndex → Proc (Option ExecutionLogReadResult)
  | none => pure none
  | some index => do
    let result ← readWindow index (resolveExecutionLogReadWindow index fromSeq maxBytes)
    pure (some result)

def readFrom (fromSeq maxBytes : Number) : Proc (Option ExecutionLogReadResult) := do
  let stored ← ask .getIndex
  readIndexed fromSeq maxBytes stored

/-- The deletes of the parts, of which `count` are open. -/
def deleteParts (partition : ℤ) : (count : ℕ) → List ExecutionLogPart → Proc Unit
  | 0, _ => pure ()
  | count + 1, parts => do
    let part ← ask (.deletePart partition parts)
    deleteParts partition count (parts.erase part)

def sealIndex (index : ExecutionLogIndex) : Proc ℕ := do
  let transcript ← assemblePartsInto index.datePartition index.parts 0 index.totalBytes
  ask (.putSealed index.datePartition transcript)
  let now ← ask .now
  ask (.putIndex { index with sealed := true, updatedAt := now })
  deleteParts index.datePartition index.parts.length index.parts
  pure transcript.length

def sealIndexed : Option ExecutionLogIndex → Proc (Option ℕ)
  | none => pure none
  | some index =>
    if index.sealed then pure (some index.totalBytes)
    else do
      let bytes ← sealIndex index
      pure (some bytes)

/-- `seal`, with the size that it returns. -/
def sealLog : Proc (Option ℕ) := do
  let stored ← ask .getIndex
  sealIndexed stored

/-! ## What is laid into a window -/

/-- **A part that holds its piece of the content is pasted right.** -/
theorem placePart_agrees {content : List (ℕ × Bytes)} {part : ExecutionLogPart} {body : Bytes}
    (hincreasing : content.Pairwise fun x y => x.1 < y.1) (hpart : part ∈ layout 0 content)
    (hbody : (part.seq, body) ∈ content) {start stop : ℕ} {out : Bytes} {P : ℕ → Prop}
    (hlen : out.length = stop - start) (h : Agrees (bytesOf content) start out P) :
    (placePart start stop part (some body) out).length = stop - start ∧
      Agrees (bytesOf content) start (placePart start stop part (some body) out)
        (fun k => P k ∨ part.offset ≤ k ∧ k < part.offset + part.length) := by
  obtain ⟨done, bytes, rest, hsplit, hoffset, hlength⟩ := mem_layout hpart
  obtain rfl : body = bytes := by
    refine piece_unique hincreasing hbody ?_
    rw [hsplit]
    exact List.mem_append_right _ List.mem_cons_self
  have hbodyLe : part.offset + part.length ≤ (bytesOf content).length := by
    rw [hsplit, bytesOf_append, bytesOf_cons, List.length_append, List.length_append, hoffset, hlength]
    exact Nat.add_le_add_left (Nat.le_add_right _ _) _
  rw [placePart]
  split
  · refine ⟨hlen, fun j hj hk => h j hj (hk.resolve_right fun hin => ?_)⟩
    omega
  · rename_i hsome
    have hslice : slice body (max start part.offset - part.offset)
        (min stop (part.offset + part.length) - part.offset) = slice (bytesOf content)
          (max start part.offset) (min stop (part.offset + part.length)) := by
      have hpiece : slice (bytesOf content) part.offset (part.offset + part.length) = body := by
        rw [hoffset, hlength]
        exact slice_of_split hsplit
      rw [← hpiece, slice_slice (by omega)]
      congr 1 <;> omega
    have hlen' : (place out (slice (bytesOf content) (max start part.offset)
        (min stop (part.offset + part.length))) (max start part.offset - start)).length = stop - start := by
      rw [length_place, hlen]
      rw [length_slice (by omega)]
      omega
    rw [hslice]
    refine ⟨hlen', fun j hj hk => ?_⟩
    refine h.place (Nat.le_max_left _ _) (by omega) (by omega) (by omega) j hj (hk.imp_right fun hin => ?_)
    omega

end TurboPanel.Transcripts
