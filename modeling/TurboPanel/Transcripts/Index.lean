import TurboPanel.Data.Paste
import TurboPanel.Js.Number

/-!
# The index of an execution log

The transcript of a command is a sequence of chunks. Its index says which of them are stored, and
where each begins in the whole. What an append does is planned from the index alone
(`planExecutionLogAppend`), and so is the window of a read (`resolveExecutionLogReadWindow`).

An index lays out a content: pieces of bytes under their sequence numbers, one after the other
(`Lays`). A write adds a piece, and a read from a sequence number takes some of the pieces from it
on (`resolve_lays`), at least one if the budget holds the largest chunk (`scanParts_pending`).
-/

namespace TurboPanel.Transcripts

open Js Paste List

abbrev Bytes := List UInt8

/-- A time, in milliseconds. -/
abbrev Date := ℤ

structure ExecutionLogChunk where
  seq : Number
  bytes : Bytes

structure ExecutionLogPart where
  seq : ℕ
  /-- Where its first byte is in the transcript. -/
  offset : ℕ
  length : ℕ
  deriving DecidableEq

/-- The index of a command. The partition stands for the UTC day under which the bytes are stored.
-/
structure ExecutionLogIndex where
  commandId : String
  datePartition : ℤ
  nextSeq : ℕ
  totalBytes : ℕ
  sealed : Bool
  truncated : Bool
  createdAt : Date
  updatedAt : Date
  parts : List ExecutionLogPart

inductive ExecutionLogError where
  | gap (expectedSeq : ℕ) (receivedSeq : Number)
  | sealed (commandId : String)
  | chunkTooLarge (byteLength : ℕ)
  deriving DecidableEq

def maxExecutionLogChunkBytes : ℕ := 256 * 1024

def maxExecutionLogTotalBytes : ℕ := 8 * 1024 * 1024

def executionLogTruncationMarker : String :=
  "\n[turbopanel] execution log truncated: output exceeded the retained size limit\n"

/-- `TextEncoder.encode`. -/
def encode (text : String) : Bytes := text.toUTF8.data.toList

def executionLogDatePartition (now : Date) : ℤ := now / (24 * 60 * 60 * 1000)

def createExecutionLogIndex (commandId : String) (now : Date) : ExecutionLogIndex where
  commandId := commandId
  datePartition := executionLogDatePartition now
  nextSeq := 0
  totalBytes := 0
  sealed := false
  truncated := false
  createdAt := now
  updatedAt := now
  parts := []

/-! ## Appends -/

inductive ExecutionLogAppendPlan where
  | replay (nextSeq : ℕ)
  | truncated (seq : ℕ) (marker : Option Bytes)
  | write (part : ExecutionLogPart) (bytes : Bytes)
  deriving DecidableEq

def planExecutionLogAppend (index : ExecutionLogIndex) (chunk : ExecutionLogChunk) :
    Except ExecutionLogError ExecutionLogAppendPlan :=
  match chunk.seq.natural? with
  | none => .error (.gap index.nextSeq chunk.seq)
  | some seq =>
    if maxExecutionLogChunkBytes < chunk.bytes.length then
      .error (.chunkTooLarge chunk.bytes.length)
    else if index.sealed then
      .error (.sealed index.commandId)
    else if seq < index.nextSeq then
      .ok (.replay index.nextSeq)
    else if index.nextSeq < seq then
      .error (.gap index.nextSeq chunk.seq)
    else if index.truncated ∨ maxExecutionLogTotalBytes ≤ index.totalBytes then
      -- The chunk is swallowed, so that the daemon goes on; the marker is written once.
      .ok (.truncated seq (if index.truncated then none else some (encode executionLogTruncationMarker)))
    else
      .ok (.write ⟨seq, index.totalBytes, chunk.bytes.length⟩ chunk.bytes)

def applyExecutionLogWrite (index : ExecutionLogIndex) (part : ExecutionLogPart) (now : Date) :
    ExecutionLogIndex :=
  { index with
    nextSeq := part.seq + 1
    totalBytes := part.offset + part.length
    updatedAt := now
    parts := index.parts ++ [part] }

def applyExecutionLogTruncation (index : ExecutionLogIndex) (seq : ℕ) (markerLength : Option ℕ)
    (now : Date) : ExecutionLogIndex :=
  let base := { index with nextSeq := seq + 1, truncated := true, updatedAt := now }
  match markerLength with
  | none => base
  | some length =>
    { base with
      totalBytes := index.totalBytes + length
      parts := index.parts ++ [⟨seq, index.totalBytes, length⟩] }

variable {index : ExecutionLogIndex} {seq : ℕ} {done rest : List (ℕ × Bytes)} (offset : ℕ) (l l' : List (ℕ × Bytes))
  (content : List (ℕ × Bytes))

/-- **What an append plans**: nothing new below the next number, the chunk at the next number, or
the marker in its place once the transcript is full, and after that nothing. -/
theorem plan_cases {chunk : ExecutionLogChunk} {plan : ExecutionLogAppendPlan}
    (h : planExecutionLogAppend index chunk = .ok plan) :
    index.sealed = false ∧ chunk.bytes.length ≤ maxExecutionLogChunkBytes ∧
      ((∃ seq, chunk.seq.natural? = some seq ∧ seq < index.nextSeq ∧ plan = .replay index.nextSeq) ∨
      (chunk.seq.natural? = some index.nextSeq ∧
        ((index.truncated = true ∧ plan = .truncated index.nextSeq none) ∨
        (index.truncated = false ∧ maxExecutionLogTotalBytes ≤ index.totalBytes ∧
          plan = .truncated index.nextSeq (some (encode executionLogTruncationMarker))) ∨
        (index.truncated = false ∧ index.totalBytes < maxExecutionLogTotalBytes ∧
          plan = .write ⟨index.nextSeq, index.totalBytes, chunk.bytes.length⟩ chunk.bytes)))) := by
  rw [planExecutionLogAppend] at h
  split at h
  · cases h
  rename_i seq hseq
  split at h
  · cases h
  rename_i hsize
  split at h
  · cases h
  rename_i hsealed
  refine ⟨Bool.not_eq_true _ ▸ hsealed, Nat.le_of_not_lt hsize, ?_⟩
  split at h
  · rename_i hlt
    exact .inl ⟨seq, hseq, hlt, (Except.ok.inj h).symm⟩
  rename_i hge
  split at h
  · cases h
  rename_i hle
  obtain rfl : seq = index.nextSeq := by omega
  refine .inr ⟨hseq, ?_⟩
  split at h
  · rename_i hfull
    cases htrunc : index.truncated with
    | true =>
      rw [htrunc, if_pos rfl] at h
      exact .inl ⟨rfl, (Except.ok.inj h).symm⟩
    | false =>
      rw [htrunc, if_neg Bool.false_ne_true] at h
      rw [htrunc] at hfull
      exact .inr (.inl ⟨rfl, hfull.resolve_left Bool.false_ne_true, (Except.ok.inj h).symm⟩)
  · rename_i hroom
    rw [not_or, Bool.not_eq_true, Nat.not_le] at hroom
    exact .inr (.inr ⟨hroom.1, hroom.2, (Except.ok.inj h).symm⟩)

/-! ## Reads -/

structure ExecutionLogReadWindow where
  start : ℕ
  /-- Where the window ends; the byte there is not of it. -/
  stop : ℕ
  nextSeq : ℕ

structure ExecutionLogReadResult where
  bytes : Bytes
  nextSeq : ℕ
  sealed : Bool
  truncated : Bool

/-- The loop over the pending parts, with the end of the window and the number to resume from. -/
def scanParts (start budget : ℕ) : List ExecutionLogPart → ℕ → ℕ → ℕ × ℕ
  | [], stop, nextSeq => (stop, nextSeq)
  | part :: rest, stop, nextSeq =>
    if budget < part.offset + part.length - start then (stop, nextSeq)
    else scanParts start budget rest (part.offset + part.length) (part.seq + 1)

def resolveExecutionLogReadWindow (index : ExecutionLogIndex) (fromSeq maxBytes : Number) :
    ExecutionLogReadWindow :=
  let requested := fromSeq.natural?.getD 0
  let budget := maxBytes.natural?.getD 0
  match index.parts.filter fun part => decide (requested ≤ part.seq) with
  | [] => ⟨index.totalBytes, index.totalBytes, max requested index.nextSeq⟩
  | first :: rest =>
    let start := first.offset
    let (stop, nextSeq) := scanParts start budget (first :: rest) start first.seq
    if stop = start then ⟨start, min (start + budget) index.totalBytes, nextSeq⟩
    else ⟨start, stop, nextSeq⟩

def shapeExecutionLogRead (index : ExecutionLogIndex) (window : ExecutionLogReadWindow) (bytes : Bytes) :
    ExecutionLogReadResult :=
  ⟨bytes, window.nextSeq, index.sealed, index.truncated⟩

/-! ## The content of a transcript -/

/-- The bytes of some pieces, one after the other. -/
def bytesOf (content : List (ℕ × Bytes)) : Bytes := content.flatMap Prod.snd

@[simp] theorem bytesOf_nil : bytesOf [] = [] := rfl

@[simp] theorem bytesOf_cons (piece : ℕ × Bytes) (content : List (ℕ × Bytes)) :
    bytesOf (piece :: content) = piece.2 ++ bytesOf content := rfl

@[simp] theorem bytesOf_append : bytesOf (l ++ l') = bytesOf l ++ bytesOf l' :=
  flatMap_append

/-- The parts of pieces that follow each other from an offset on. -/
def layout : ℕ → List (ℕ × Bytes) → List ExecutionLogPart
  | _, [] => []
  | offset, (seq, bytes) :: rest => ⟨seq, offset, bytes.length⟩ :: layout (offset + bytes.length) rest

theorem layout_append :
    layout offset (l ++ l') = layout offset l ++ layout (offset + (bytesOf l).length) l' := by
  induction l generalizing offset with
  | nil => rfl
  | cons piece l ih =>
    rw [cons_append, layout, layout, ih, bytesOf_cons, length_append, Nat.add_assoc,
      cons_append]

theorem length_layout :
    (layout offset content).length = content.length := by
  induction content generalizing offset with
  | nil => rfl
  | cons piece content ih => rw [layout, length_cons, ih, length_cons]

theorem map_seq_layout :
    (layout offset content).map ExecutionLogPart.seq = content.map Prod.fst := by
  induction content generalizing offset with
  | nil => rfl
  | cons piece content ih => rw [layout, map_cons, ih, map_cons]

/-- The parts tile the bytes from one offset to another. -/
def Tiles : ℕ → List ExecutionLogPart → ℕ → Prop
  | lo, [], hi => lo = hi
  | lo, part :: rest, hi => part.offset = lo ∧ Tiles (lo + part.length) rest hi

theorem tiles_layout :
    Tiles offset (layout offset content) (offset + (bytesOf content).length) := by
  induction content generalizing offset with
  | nil => rfl
  | cons piece content ih =>
    rw [bytesOf_cons, length_append, ← Nat.add_assoc]
    exact ⟨rfl, ih _⟩

theorem mem_layout_from {offset : ℕ} {content : List (ℕ × Bytes)} {part : ExecutionLogPart}
    (h : part ∈ layout offset content) : ∃ done bytes rest, content = done ++ (part.seq, bytes) :: rest ∧
      part.offset = offset + (bytesOf done).length ∧ part.length = bytes.length := by
  induction content using List.reverseRecOn with
  | nil => cases h
  | append_singleton content piece ih =>
    rw [layout_append, mem_append] at h
    obtain h | h := h
    · obtain ⟨done, bytes, rest, rfl, hoffset, hlength⟩ := ih h
      exact ⟨done, bytes, rest ++ [piece], by simp, hoffset, hlength⟩
    · obtain rfl := mem_singleton.1 h
      exact ⟨content, piece.2, [], rfl, rfl, rfl⟩

theorem mem_layout {content : List (ℕ × Bytes)} {part : ExecutionLogPart} (h : part ∈ layout 0 content) :
    ∃ done bytes rest, content = done ++ (part.seq, bytes) :: rest ∧
      part.offset = (bytesOf done).length ∧ part.length = bytes.length := by
  obtain ⟨done, bytes, rest, hsplit, hoffset, hlength⟩ := mem_layout_from h
  exact ⟨done, bytes, rest, hsplit, hoffset.trans (Nat.zero_add _), hlength⟩

theorem exists_mem_layout {content : List (ℕ × Bytes)} {k : ℕ} (hk : k < (bytesOf content).length) :
    ∃ part ∈ layout 0 content, part.offset ≤ k ∧ k < part.offset + part.length := by
  induction content using List.reverseRecOn with
  | nil => exact absurd hk (Nat.not_lt_zero _)
  | append_singleton content piece ih =>
    rw [layout_append]
    rw [bytesOf_append, bytesOf_cons, bytesOf_nil, append_nil, length_append] at hk
    by_cases hlt : k < (bytesOf content).length
    · obtain ⟨part, hpart, hin⟩ := ih hlt
      exact ⟨part, mem_append_left _ hpart, hin⟩
    · refine ⟨⟨piece.1, 0 + (bytesOf content).length, piece.2.length⟩,
        mem_append_right _ mem_cons_self, ?_, ?_⟩
      · simp only
        omega
      · simp only
        omega

theorem slice_of_split {content done rest : List (ℕ × Bytes)} {piece : ℕ × Bytes}
    (h : content = done ++ piece :: rest) :
    slice (bytesOf content) (bytesOf done).length ((bytesOf done).length + piece.2.length) = piece.2 := by
  rw [h, bytesOf_append, bytesOf_cons, ← append_assoc]
  exact slice_append _ _ _

theorem piece_unique {content : List (ℕ × Bytes)} (h : content.Pairwise fun x y => x.1 < y.1) {bytes bytes' : Bytes}
    (hbytes : (seq, bytes) ∈ content) (hbytes' : (seq, bytes') ∈ content) :
    bytes = bytes' := by
  induction content with
  | nil => cases hbytes
  | cons piece content ih =>
    obtain ⟨hpiece, hcontent⟩ := pairwise_cons.1 h
    obtain rfl | hmem := mem_cons.1 hbytes
    · obtain heq | hmem' := mem_cons.1 hbytes'
      · exact (congrArg Prod.snd heq).symm
      · exact absurd (hpiece _ hmem') (Nat.lt_irrefl _)
    · obtain rfl | hmem' := mem_cons.1 hbytes'
      · exact absurd (hpiece _ hmem) (Nat.lt_irrefl _)
      · exact ih hcontent hmem hmem'

/-- The pieces below a sequence number. -/
def below (seq : ℕ) (content : List (ℕ × Bytes)) : List (ℕ × Bytes) :=
  content.filter fun piece => decide (piece.1 < seq)

/-- The pieces from a sequence number on. -/
def onward (seq : ℕ) (content : List (ℕ × Bytes)) : List (ℕ × Bytes) :=
  content.filter fun piece => decide (seq ≤ piece.1)

theorem below_append_onward {content : List (ℕ × Bytes)} (h : content.Pairwise fun x y => x.1 < y.1)
    (seq : ℕ) : below seq content ++ onward seq content = content := by
  induction content with
  | nil => rfl
  | cons piece content ih =>
    obtain ⟨hpiece, hcontent⟩ := pairwise_cons.1 h
    by_cases hlt : piece.1 < seq
    · rw [below, onward, filter_cons_of_pos (by simpa using hlt),
        filter_cons_of_neg (by simpa using hlt), cons_append]
      exact congrArg (piece :: ·) (ih hcontent)
    · have hnone : ∀ other ∈ piece :: content, ¬decide (other.1 < seq) = true := fun other hother => by
        obtain rfl | hother := mem_cons.1 hother
        · simpa using hlt
        · have := hpiece other hother
          rw [decide_eq_true_eq]
          omega
      have hall : ∀ other ∈ piece :: content, decide (seq ≤ other.1) = true := fun other hother => by
        have := hnone other hother
        rw [decide_eq_true_eq] at this ⊢
        omega
      rw [below, onward, filter_eq_nil_iff.2 hnone, filter_eq_self.2 hall, nil_append]

theorem below_of_split (hdone : ∀ piece ∈ done, piece.1 < seq) (hrest : ∀ piece ∈ rest, seq ≤ piece.1) :
    below seq (done ++ rest) = done := by
  rw [below, filter_append, filter_eq_self.2 fun piece hp => by simpa using hdone piece hp,
    filter_eq_nil_iff.2 fun piece hp => by simpa using hrest piece hp, append_nil]

theorem onward_of_split (hdone : ∀ piece ∈ done, piece.1 < seq) (hrest : ∀ piece ∈ rest, seq ≤ piece.1) :
    onward seq (done ++ rest) = rest := by
  rw [onward, filter_append, filter_eq_nil_iff.2 fun piece hp => by simpa using hdone piece hp,
    filter_eq_self.2 fun piece hp => by simpa using hrest piece hp, nil_append]

/-- The index is that of a content. -/
structure Lays (content : List (ℕ × Bytes)) (index : ExecutionLogIndex) : Prop where
  parts : index.parts = layout 0 content
  totalBytes : index.totalBytes = (bytesOf content).length
  increasing : content.Pairwise fun x y => x.1 < y.1
  early : ∀ piece ∈ content, piece.1 < index.nextSeq
  small : ∀ piece ∈ content, piece.2.length ≤ maxExecutionLogChunkBytes

theorem lays_create (commandId : String) (now : Date) : Lays [] (createExecutionLogIndex commandId now) where
  parts := rfl
  totalBytes := rfl
  increasing := List.Pairwise.nil
  early _ h := nomatch h
  small _ h := nomatch h

theorem Lays.concat {content : List (ℕ × Bytes)} {index index' : ExecutionLogIndex} (h : Lays content index)
    {bytes : Bytes} (hsmall : bytes.length ≤ maxExecutionLogChunkBytes)
    (hparts : index'.parts = index.parts ++ [⟨index.nextSeq, index.totalBytes, bytes.length⟩])
    (htotal : index'.totalBytes = index.totalBytes + bytes.length)
    (hnext : index'.nextSeq = index.nextSeq + 1) : Lays (content ++ [(index.nextSeq, bytes)]) index' where
  parts := by
    rw [hparts, layout_append, ← h.parts, Nat.zero_add, ← h.totalBytes]
    rfl
  totalBytes := by
    rw [htotal, h.totalBytes, bytesOf_append, length_append, bytesOf_cons, bytesOf_nil,
      append_nil]
  increasing := by
    refine pairwise_append.2 ⟨h.increasing, pairwise_singleton _ _, fun x hx y hy => ?_⟩
    rw [mem_singleton.1 hy]
    exact h.early x hx
  early piece hpiece := by
    rw [hnext]
    obtain hpiece | hpiece := mem_append.1 hpiece
    · exact Nat.lt_succ_of_lt (h.early piece hpiece)
    · rw [mem_singleton.1 hpiece]
      exact Nat.lt_succ_self _
  small piece hpiece := by
    obtain hpiece | hpiece := mem_append.1 hpiece
    · exact h.small piece hpiece
    · rw [mem_singleton.1 hpiece]
      exact hsmall

theorem Lays.congr {content : List (ℕ × Bytes)} {index index' : ExecutionLogIndex} (h : Lays content index)
    (hparts : index'.parts = index.parts) (htotal : index'.totalBytes = index.totalBytes)
    (hnext : index.nextSeq ≤ index'.nextSeq) : Lays content index' where
  parts := hparts.trans h.parts
  totalBytes := htotal.trans h.totalBytes
  increasing := h.increasing
  early piece hpiece := (h.early piece hpiece).trans_le hnext
  small := h.small

/-! ## The window of a read -/

theorem scanParts_layout (start budget : ℕ) (pieces : List (ℕ × Bytes)) (k nextSeq : ℕ) (hk : k ≤ budget) :
    ∃ taken rest, pieces = taken ++ rest ∧
      scanParts start budget (layout (start + k) pieces) (start + k) nextSeq =
        (start + k + (bytesOf taken).length, (taken.getLast?.map fun piece => piece.1 + 1).getD nextSeq) ∧
      ∀ piece ∈ rest.head?, budget < k + (bytesOf taken).length + piece.2.length := by
  induction pieces generalizing k nextSeq with
  | nil => exact ⟨[], [], rfl, rfl, fun _ h => nomatch h⟩
  | cons piece pieces ih =>
    rw [layout, scanParts]
    split
    · rename_i hover
      simp only at hover
      refine ⟨[], piece :: pieces, rfl, rfl, fun other hother => ?_⟩
      cases hother
      simp only [bytesOf_nil, length_nil]
      omega
    · rename_i hroom
      simp only at hroom
      have hk' : k + piece.2.length ≤ budget := by omega
      obtain ⟨taken, rest, rfl, hscan, hrest⟩ := ih (k + piece.2.length) (piece.1 + 1) hk'
      refine ⟨piece :: taken, rest, rfl, ?_, fun other hother => ?_⟩
      · rw [Nat.add_assoc start, hscan, bytesOf_cons, length_append, getLast?_cons]
        cases taken.getLast? with
        | none => exact Prod.ext (by simp only; omega) rfl
        | some last => exact Prod.ext (by simp only; omega) rfl
      · have := hrest other hother
        rw [bytesOf_cons, length_append]
        omega

theorem filter_layout {content : List (ℕ × Bytes)} (h : content.Pairwise fun x y => x.1 < y.1) (seq : ℕ) :
    ((layout 0 content).filter fun part => decide (seq ≤ part.seq)) =
      layout (bytesOf (below seq content)).length (onward seq content) := by
  have hfilter : ∀ (offset : ℕ) (pieces : List (ℕ × Bytes)) (keep : Bool),
      (∀ piece ∈ pieces, decide (seq ≤ piece.1) = keep) →
        ((layout offset pieces).filter fun part => decide (seq ≤ part.seq)) =
          if keep then layout offset pieces else [] := by
    intro offset pieces keep hkeep
    induction pieces generalizing offset with
    | nil => cases keep <;> rfl
    | cons piece pieces ih =>
      rw [layout, filter_cons, hkeep piece mem_cons_self,
        ih _ fun other hother => hkeep other (mem_cons_of_mem _ hother)]
      cases keep <;> rfl
  conv_lhs => rw [← below_append_onward h seq]
  rw [layout_append, filter_append, hfilter 0 (below seq content) false, hfilter _ _ true, Nat.zero_add]
  · rfl
  · exact fun piece hpiece => (mem_filter.1 hpiece).2
  · intro piece hpiece
    have := (mem_filter.1 hpiece).2
    rw [decide_eq_true_eq] at this
    rw [decide_eq_false_iff_not]
    omega

/-- What a read finds, from the number `requested` on: the bytes from those of the pieces below it,
up to those below the number it returns. -/
structure Resolved (content : List (ℕ × Bytes)) (nextSeq requested budget : ℕ)
    (window : ExecutionLogReadWindow) : Prop where
  start : window.start = (bytesOf (below requested content)).length
  stop : window.stop = (bytesOf (below window.nextSeq content)).length
  progress : onward requested content ≠ [] → requested < window.nextSeq ∧
    (onward window.nextSeq content).length < (onward requested content).length
  upTo : requested ≤ window.nextSeq
  known : window.nextSeq ≤ max requested nextSeq
  /-- A budget for the whole gives the whole. -/
  all : (bytesOf content).length ≤ budget → onward window.nextSeq content = []

theorem below_eq_self {content : List (ℕ × Bytes)} (h : ∀ piece ∈ content, piece.1 < seq) :
    below seq content = content :=
  filter_eq_self.2 fun piece hpiece => decide_eq_true (h piece hpiece)

theorem onward_eq_nil {content : List (ℕ × Bytes)} (h : ∀ piece ∈ content, piece.1 < seq) :
    onward seq content = [] :=
  filter_eq_nil_iff.2 fun piece hpiece hle =>
    absurd (of_decide_eq_true hle) (Nat.not_le_of_lt (h piece hpiece))

theorem resolved_nil {content : List (ℕ × Bytes)} (h : Lays content index) {requested budget : ℕ}
    (hpending : onward requested content = []) :
    Resolved content index.nextSeq requested budget
      ⟨index.totalBytes, index.totalBytes, max requested index.nextSeq⟩ where
  start := by
    have hsplit := below_append_onward h.increasing requested
    rw [hpending, append_nil] at hsplit
    rw [hsplit, h.totalBytes]
  stop := by
    rw [below_eq_self fun piece hp => (h.early piece hp).trans_le (Nat.le_max_right _ _), h.totalBytes]
  progress hne := absurd hpending hne
  upTo := Nat.le_max_left _ _
  known := le_rfl
  all _ := onward_eq_nil fun piece hp => (h.early piece hp).trans_le (Nat.le_max_right _ _)

theorem resolved_taken {content : List (ℕ × Bytes)} (h : Lays content index) {requested budget : ℕ}
    {taken rest : List (ℕ × Bytes)} {last : ℕ × Bytes} (hpending : onward requested content = taken ++ last :: rest)
    (hall : (bytesOf content).length ≤ budget → rest = []) :
    Resolved content index.nextSeq requested budget ⟨(bytesOf (below requested content)).length,
      (bytesOf (below requested content)).length + (bytesOf (taken ++ [last])).length, last.1 + 1⟩ := by
  have hsplit : below requested content ++ taken ++ last :: rest = content := by
    rw [append_assoc, ← hpending, below_append_onward h.increasing]
  have hincreasing := h.increasing
  rw [← hsplit] at hincreasing
  obtain ⟨-, hlast, hbefore⟩ := pairwise_append.1 hincreasing
  have hrest : ∀ piece ∈ rest, last.1 + 1 ≤ piece.1 := (pairwise_cons.1 hlast).1
  have hdone : ∀ piece ∈ below requested content ++ taken ++ [last], piece.1 < last.1 + 1 := by
    intro piece hpiece
    obtain hpiece | hpiece := mem_append.1 hpiece
    · exact Nat.lt_succ_of_lt (hbefore piece hpiece last mem_cons_self)
    · rw [mem_singleton.1 hpiece]
      exact Nat.lt_succ_self _
  have hcontent : content = below requested content ++ taken ++ [last] ++ rest := by
    rw [append_assoc (_ ++ taken), singleton_append, hsplit]
  have hbelow : below (last.1 + 1) content = below requested content ++ taken ++ [last] := by
    conv_lhs => rw [hcontent]
    exact below_of_split hdone hrest
  have honward : onward (last.1 + 1) content = rest := by
    conv_lhs => rw [hcontent]
    exact onward_of_split hdone hrest
  have hmem : last ∈ onward requested content := by
    rw [hpending]
    exact mem_append_right _ mem_cons_self
  have hle : requested ≤ last.1 := of_decide_eq_true (mem_filter.1 hmem).2
  have hearly : last.1 < index.nextSeq := h.early last (mem_filter.1 hmem).1
  refine ⟨rfl, ?_, fun _ => ⟨Nat.lt_succ_of_le hle, ?_⟩, Nat.le_succ_of_le hle,
    (Nat.succ_le_of_lt hearly).trans (Nat.le_max_right _ _), fun hbudget => ?_⟩
  · rw [hbelow, append_assoc, bytesOf_append (below requested content), length_append]
  · rw [honward, hpending, length_append, length_cons]
    omega
  · rw [honward, hall hbudget]

theorem scanParts_pending (start : ℕ) {budget : ℕ} {first : ℕ × Bytes} {others : List (ℕ × Bytes)}
    (hfits : ∀ piece ∈ first :: others, piece.2.length ≤ budget) :
    ∃ taken last rest, first :: others = taken ++ last :: rest ∧
      scanParts start budget (layout start (first :: others)) start first.1 =
        (start + (bytesOf (taken ++ [last])).length, last.1 + 1) ∧
      (rest = [] ∨ 0 < (bytesOf (taken ++ [last])).length ∧
        budget < (bytesOf (taken ++ [last])).length + (bytesOf rest).length) := by
  obtain ⟨taken, rest, heq, hscan, hrest⟩ :=
    scanParts_layout start budget (first :: others) 0 first.1 (Nat.zero_le _)
  obtain rfl | ⟨taken, last, rfl⟩ := eq_nil_or_concat taken
  · obtain rfl : first :: others = rest := heq
    have hover := hrest first rfl
    have hfit := hfits first mem_cons_self
    rw [bytesOf_nil, length_nil] at hover
    omega
  · rw [concat_eq_append] at heq hscan hrest
    rw [append_assoc, singleton_append] at heq
    rw [getLast?_append_of_ne_nil _ (cons_ne_nil _ _), getLast?_singleton] at hscan
    refine ⟨taken, last, rest, heq, hscan, ?_⟩
    cases rest with
    | nil => exact .inl rfl
    | cons piece rest =>
      have hover := hrest piece rfl
      have hfit : piece.2.length ≤ budget := hfits piece <| by
        rw [heq]
        exact mem_append_right _ (mem_cons_of_mem _ mem_cons_self)
      rw [bytesOf_cons, length_append]
      exact .inr ⟨by omega, by omega⟩

/-- **What a read finds**, when every piece fits into the budget. -/
theorem resolve_lays {content : List (ℕ × Bytes)} (h : Lays content index) (fromSeq : Number) {maxBytes : Number}
    (hfits : ∀ piece ∈ content, piece.2.length ≤ maxBytes.natural?.getD 0) :
    Resolved content index.nextSeq (fromSeq.natural?.getD 0) (maxBytes.natural?.getD 0)
      (resolveExecutionLogReadWindow index fromSeq maxBytes) := by
  rw [resolveExecutionLogReadWindow]
  generalize fromSeq.natural?.getD 0 = requested
  generalize maxBytes.natural?.getD 0 = budget at hfits ⊢
  simp only
  rw [h.parts, filter_layout h.increasing]
  cases hpending : onward requested content with
  | nil => exact resolved_nil h hpending
  | cons first others =>
    have hfits' : ∀ piece ∈ first :: others, piece.2.length ≤ budget := fun piece hp =>
      hfits piece (mem_filter.1 (hpending ▸ hp)).1
    obtain ⟨taken, last, rest, heq, hscan, hrest⟩ :=
      scanParts_pending (bytesOf (below requested content)).length hfits'
    have htotal : (bytesOf (below requested content)).length +
        ((bytesOf (taken ++ [last])).length + (bytesOf rest).length) = (bytesOf content).length := by
      conv_rhs => rw [← below_append_onward h.increasing requested, hpending, heq, ← singleton_append,
        ← append_assoc taken]
      rw [bytesOf_append (below requested content), bytesOf_append (taken ++ [last]), length_append,
        length_append]
    have hall : (bytesOf content).length ≤ budget → rest = [] := fun hbudget =>
      hrest.resolve_right fun hover => by omega
    have hwindow := resolved_taken h (hpending.trans heq) hall
    simp only [layout] at hscan ⊢
    rw [hscan]
    split
    · rename_i hempty
      -- Only empty pieces were taken: none is left, and the window ends where the transcript does.
      have hnil : rest = [] := hrest.resolve_right fun hover => by
        simp only at hempty
        omega
      have hstop : min ((bytesOf (below requested content)).length + budget) index.totalBytes =
          (bytesOf (below requested content)).length + (bytesOf (taken ++ [last])).length := by
        rw [h.totalBytes, ← htotal, hnil, bytesOf_nil, length_nil]
        simp only at hempty
        omega
      rw [hstop]
      exact hwindow
    · exact hwindow

end TurboPanel.Transcripts
