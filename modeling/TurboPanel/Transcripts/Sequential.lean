import TurboPanel.Transcripts.Store

/-!
# Calls one after the other

Calls on one command that do not overlap: appends with any numbers and of any size, seals, and the
reads of one reader, who begins at `0` and resumes where the last answer says. The index lays out a
content, the objects hold it (`Stored`), and the reader has seen what is below its cursor
(`Session.Sound`).
-/

namespace TurboPanel.Transcripts

open Interleaving Js Paste List

/-- The objects hold the content: in parts, or as a whole once it is sealed. -/
structure Stored (content : List (ℕ × Bytes)) (s : Objects) (index : ExecutionLogIndex) : Prop where
  lays : Lays content index
  parts : index.sealed = false → ∀ piece ∈ content, s.part index.datePartition piece.1 = some piece.2
  whole : index.sealed = true → s.sealed index.datePartition = some (bytesOf content)

/-! ## Reading -/

variable {s : Objects} {index : ExecutionLogIndex} {parts : List ExecutionLogPart} {chunk : ExecutionLogChunk}
  {maxBytes : Number} {partition : ℤ} {truncated truncated' : Bool}

variable {content : List (ℕ × Bytes)} {i : ℕ}

section

variable (hincreasing : content.Pairwise fun x y => x.1 < y.1)
  (hstored : ∀ piece ∈ content, s.part partition piece.1 = some piece.2)
include hincreasing hstored

theorem ends_fetchParts {start stop : ℕ} {count : ℕ}
    (hcount : parts.length = count) (hparts : ∀ part ∈ parts, part ∈ layout 0 content) {out : Bytes} {P : ℕ → Prop}
    (hlen : out.length = stop - start) (hout : Agrees (bytesOf content) start out P) :
    (fetchParts partition start stop count parts out).Ends machine i (fun out' s' => s' = s ∧
      out'.length = stop - start ∧ Agrees (bytesOf content) start out' fun k =>
        P k ∨ ∃ part ∈ parts, part.offset ≤ k ∧ k < part.offset + part.length) s := by
  induction count generalizing parts out P with
  | zero =>
    obtain rfl := length_eq_zero_iff.1 hcount
    refine ⟨rfl, hlen, hout.mono fun k hk => hk.resolve_right ?_⟩
    rintro ⟨part, hpart, -⟩
    cases hpart
  | succ count ih =>
    rw [fetchParts, Prog.ends_call_bind]
    refine ⟨⟨⟨0, 0⟩, ?_⟩, fun e served s' hexec => ?_⟩
    · cases parts with
      | nil => cases hcount
      | cons part parts => exact ⟨_, _, rfl⟩
    · obtain ⟨part, hget, heq⟩ := Option.map_eq_some_iff.1 hexec
      cases heq
      have hmem : part ∈ parts := mem_of_getElem? hget
      obtain ⟨done, bytes, rest, hsplit, -⟩ := mem_layout (hparts part hmem)
      have hbytes : (part.seq, bytes) ∈ content := by
        rw [hsplit]
        exact mem_append_right _ mem_cons_self
      obtain ⟨hlen', hout'⟩ := placePart_agrees hincreasing (hparts part hmem) hbytes hlen hout
      simp only
      rw [hstored _ hbytes]
      refine (ih ?_ (fun other hother => hparts other (mem_of_mem_erase hother)) hlen' hout').mono ?_
      · rw [length_erase_of_mem hmem, hcount, Nat.add_sub_cancel]
      · rintro out' s' ⟨rfl, hlen'', hagrees⟩
        refine ⟨rfl, hlen'', hagrees.mono ?_⟩
        rintro k (hk | ⟨other, hother, hin⟩)
        · exact .inl (.inl hk)
        · by_cases heq : other = part
          · exact .inl (.inr (heq ▸ hin))
          · exact .inr ⟨other, (mem_erase_of_ne heq).2 hother, hin⟩

theorem ends_assemblePartsInto {start stop : ℕ}
    (hparts : ∀ part ∈ parts, part ∈ layout 0 content) (hle : start ≤ stop)
    (hcover : ∀ k, start ≤ k → k < stop → ∃ part ∈ parts, part.offset ≤ k ∧ k < part.offset + part.length) :
    (assemblePartsInto partition parts start stop).Ends machine i
      (fun out s' => s' = s ∧ out = slice (bytesOf content) start stop) s := by
  refine (ends_fetchParts hincreasing hstored rfl hparts length_replicate
    (agrees_nothing _ _ _)).mono ?_
  rintro out s' ⟨hs, hlen, hagrees⟩
  have hstop : start + out.length = stop := by omega
  refine ⟨hs, ?_⟩
  rw [← hstop] at hcover ⊢
  exact hagrees.eq_slice fun k hlo hhi => .inr (hcover k hlo hhi)

end

theorem length_below_le (h : content.Pairwise fun x y => x.1 < y.1) (seq : ℕ) :
    (bytesOf (below seq content)).length ≤ (bytesOf content).length := by
  conv_rhs => rw [← below_append_onward h seq, bytesOf_append, length_append]
  exact Nat.le_add_right _ _

theorem ends_readWindow (h : Stored content s index) {window : ExecutionLogReadWindow}
    (hstop : window.stop ≤ (bytesOf content).length) (i : ℕ) :
    (readWindow index window).Ends machine i (fun result s' => s' = s ∧ result =
      shapeExecutionLogRead index window (slice (bytesOf content) window.start window.stop)) s := by
  rw [readWindow]
  split
  · rename_i hempty
    refine ⟨rfl, ?_⟩
    rw [slice_of_le _ hempty]
  · rename_i hsome
    split
    · rename_i hsealed
      refine ⟨⟨⟨0, 0⟩, _, _, rfl⟩, fun e ans s' hexec => ?_⟩
      cases hexec
      simp only
      rw [h.whole hsealed]
      exact ⟨rfl, rfl⟩
    · rename_i hsealed
      have hlive := h.parts (Bool.not_eq_true _ ▸ hsealed)
      have hcover : ∀ k, window.start ≤ k → k < window.stop → ∃ part ∈ covering index window,
          part.offset ≤ k ∧ k < part.offset + part.length := by
        intro k hlo hhi
        obtain ⟨part, hpart, hin⟩ := exists_mem_layout (hhi.trans_le hstop)
        refine ⟨part, mem_filter.2 ⟨h.lays.parts ▸ hpart, decide_eq_true ?_⟩, hin⟩
        omega
      rw [readParts]
      split
      · rename_i hnone
        obtain ⟨part, hpart, -⟩ := hcover window.start le_rfl (Nat.lt_of_not_le hsome)
        rw [hnone] at hpart
        cases hpart
      · refine (ends_assemblePartsInto h.lays.increasing hlive (fun part hpart => ?_)
          (Nat.le_of_not_le hsome) hcover).bind ?_
        · exact h.lays.parts ▸ (mem_filter.1 hpart).1
        · rintro out s' ⟨hs, rfl⟩
          exact ⟨hs, rfl⟩

/-- **What a read returns**: the bytes of the pieces from the number on that it is asked for, up to
the number that it returns. -/
theorem ends_readFrom (hindex : s.index = some index) (h : Stored content s index)
    (fromSeq : Number) (hfits : ∀ piece ∈ content, piece.2.length ≤ maxBytes.natural?.getD 0) (i : ℕ) :
    (readFrom fromSeq maxBytes).Ends machine i (fun result s' => s' = s ∧ ∃ window,
      Resolved content index.nextSeq (fromSeq.natural?.getD 0) (maxBytes.natural?.getD 0) window ∧
      result = some (shapeExecutionLogRead index window
        (slice (bytesOf content) window.start window.stop))) s := by
  refine ⟨⟨⟨0, 0⟩, _, _, rfl⟩, fun e ans s' hexec => ?_⟩
  cases hexec
  have hresolved := resolve_lays h.lays fromSeq hfits
  have hstop : (resolveExecutionLogReadWindow index fromSeq maxBytes).stop ≤ (bytesOf content).length := by
    rw [hresolved.stop]
    exact length_below_le h.lays.increasing _
  rw [hindex]
  refine (ends_readWindow h hstop i).bind ?_
  rintro result s' ⟨rfl, rfl⟩
  exact ⟨rfl, _, hresolved, rfl⟩

/-! ## Sealing -/

theorem ends_deleteParts {count : ℕ} (hcount : parts.length = count) (s : Objects) :
    (deleteParts partition count parts).Ends machine i
      (fun _ s' => s'.index = s.index ∧ s'.sealed = s.sealed) s := by
  induction count generalizing parts s with
  | zero => exact ⟨rfl, rfl⟩
  | succ count ih =>
    rw [deleteParts, Prog.ends_call_bind]
    refine ⟨⟨⟨0, 0⟩, ?_⟩, fun e served s' hexec => ?_⟩
    · cases parts with
      | nil => cases hcount
      | cons part parts => exact ⟨_, _, rfl⟩
    · obtain ⟨part, hget, heq⟩ := Option.map_eq_some_iff.1 hexec
      obtain ⟨rfl, rfl⟩ := Prod.mk.inj heq
      refine Prog.Ends.mono (fun _ _ => id) (ih ?_ (s.setPart partition part.seq none))
      rw [length_erase_of_mem (mem_of_getElem? hget), hcount, Nat.add_sub_cancel]

/-- **A seal keeps the content**: from then on the whole holds it. -/
theorem ends_sealIndex (h : Stored content s index) (hsealed : index.sealed = false) (i : ℕ) :
    (sealIndex index).Ends machine i (fun bytes s' => bytes = index.totalBytes ∧ ∃ index',
      s'.index = some index' ∧ index'.nextSeq = index.nextSeq ∧ index'.truncated = index.truncated ∧
      Stored content s' index') s := by
  have hcover : ∀ k, 0 ≤ k → k < index.totalBytes → ∃ part ∈ index.parts,
      part.offset ≤ k ∧ k < part.offset + part.length := by
    intro k _ hk
    rw [h.lays.totalBytes] at hk
    rw [h.lays.parts]
    exact exists_mem_layout hk
  refine (ends_assemblePartsInto h.lays.increasing (h.parts hsealed)
    (fun part hpart => h.lays.parts ▸ hpart) (Nat.zero_le _) hcover).bind ?_
  rintro transcript s' ⟨rfl, rfl⟩
  have hwhole : slice (bytesOf content) 0 index.totalBytes = bytesOf content := by
    rw [h.lays.totalBytes, slice_self]
  rw [hwhole]
  refine ⟨⟨⟨0, 0⟩, _, _, rfl⟩, fun e ans s₁ hexec => ?_⟩
  cases hexec
  refine ⟨⟨⟨0, 0⟩, _, _, rfl⟩, fun e now s₂ hexec => ?_⟩
  cases hexec
  refine ⟨⟨⟨0, 0⟩, _, _, rfl⟩, fun e' ans s₃ hexec => ?_⟩
  cases hexec
  refine (ends_deleteParts rfl _).bind ?_
  rintro _ s' ⟨hindex, hobject⟩
  refine ⟨h.lays.totalBytes.symm, _, hindex, rfl, rfl, ?_, ?_, ?_⟩
  · exact h.lays.congr rfl rfl le_rfl
  · exact fun hlive => (nomatch hlive)
  · intro _
    rw [hobject]
    exact if_pos rfl

/-! ## Appending -/

/-- The marker that the transcript is cut, as bytes. -/
def markerBytes : Bytes := encode executionLogTruncationMarker

theorem length_markerBytes : markerBytes.length ≤ maxExecutionLogChunkBytes := by decide

/-- What an append at the next number makes of the content: the chunk is added, or the marker in its
place, or nothing once the transcript is cut. -/
inductive Grows (seq : ℕ) (bytes : Bytes) : List (ℕ × Bytes) → Bool → List (ℕ × Bytes) → Bool → Prop where
  | swallow (content : List (ℕ × Bytes)) : Grows seq bytes content true content true
  | cut (content : List (ℕ × Bytes)) :
      Grows seq bytes content false (content ++ [(seq, markerBytes)]) true
  | write (content : List (ℕ × Bytes)) :
      Grows seq bytes content false (content ++ [(seq, bytes)]) false

theorem Stored.put {index index' : ExecutionLogIndex} (h : Stored content s index)
    {bytes : Bytes} (hlays : Lays (content ++ [(index.nextSeq, bytes)]) index')
    (hpartition : index'.datePartition = index.datePartition) (hsealed : index.sealed = false)
    (hsealed' : index'.sealed = false) : Stored (content ++ [(index.nextSeq, bytes)])
      { s.setPart index.datePartition index.nextSeq (some bytes) with index := some index' } index' where
  lays := hlays
  parts _ piece hpiece := by
    rw [hpartition]
    obtain hpiece | hpiece := mem_append.1 hpiece
    · refine (if_neg fun heq => ?_).trans (h.parts hsealed piece hpiece)
      exact absurd heq.2 (Nat.ne_of_lt (h.lays.early piece hpiece))
    · obtain rfl := mem_singleton.1 hpiece
      exact if_pos ⟨rfl, rfl⟩
  whole hwhole := by
    rw [hsealed'] at hwhole
    cases hwhole

/-- What `appendChunk` leaves: the objects as they were, or a grown content under an index that goes
on by one. -/
def AppendResult (content : List (ℕ × Bytes)) (s : Objects) (index : ExecutionLogIndex)
    (chunk : ExecutionLogChunk) (nextSeq : ℕ) (s' : Objects) : Prop :=
  (s' = s ∧ nextSeq = index.nextSeq ∧ ∃ seq, chunk.seq.natural? = some seq ∧ seq < index.nextSeq) ∨
  ∃ content' index', s'.index = some index' ∧ Stored content' s' index' ∧
    chunk.seq.natural? = some index.nextSeq ∧ index'.nextSeq = index.nextSeq + 1 ∧
    nextSeq = index'.nextSeq ∧
    Grows index.nextSeq chunk.bytes content index.truncated content' index'.truncated

theorem ends_carryOut (h : Stored content s index) {plan : ExecutionLogAppendPlan}
    (hplan : planExecutionLogAppend index chunk = .ok plan) (now : Date) (i : ℕ) :
    (carryOut index now plan).Ends machine i (AppendResult content s index chunk) s := by
  obtain ⟨hlive, hsize, ⟨seq, hseq, hlt, rfl⟩ | ⟨hseq, hcases⟩⟩ := plan_cases hplan
  · exact .inl ⟨rfl, rfl, seq, hseq, hlt⟩
  · obtain ⟨htrunc, rfl⟩ | ⟨htrunc, -, rfl⟩ | ⟨htrunc, -, rfl⟩ := hcases
    · refine ⟨⟨⟨0, 0⟩, _, _, rfl⟩, fun e ans s' hexec => ?_⟩
      cases hexec
      refine .inr ⟨content, _, rfl, ⟨?_, h.parts, h.whole⟩, hseq, rfl, rfl, ?_⟩
      · exact h.lays.congr rfl rfl (Nat.le_succ _)
      · rw [htrunc]
        exact .swallow content
    · refine ⟨⟨⟨0, 0⟩, _, _, rfl⟩, fun e ans s' hexec => ?_⟩
      cases hexec
      refine ⟨⟨⟨0, 0⟩, _, _, rfl⟩, fun e ans s' hexec => ?_⟩
      cases hexec
      refine .inr ⟨content ++ [(index.nextSeq, markerBytes)], _, rfl, ?_, hseq, rfl, rfl, ?_⟩
      · exact h.put (h.lays.concat length_markerBytes rfl rfl rfl) rfl hlive hlive
      · rw [htrunc]
        exact .cut content
    · refine ⟨⟨⟨0, 0⟩, _, _, rfl⟩, fun e ans s' hexec => ?_⟩
      cases hexec
      refine ⟨⟨⟨0, 0⟩, _, _, rfl⟩, fun e ans s' hexec => ?_⟩
      cases hexec
      refine .inr ⟨content ++ [(index.nextSeq, chunk.bytes)], _, rfl, ?_, hseq, rfl, rfl, ?_⟩
      · exact h.put (h.lays.concat hsize rfl rfl rfl) rfl hlive hlive
      · rw [applyExecutionLogWrite, htrunc]
        exact .write content

theorem ends_appendTo (h : Stored content s index) (chunk : ExecutionLogChunk)
    (now : Date) (i : ℕ) :
    (appendTo index now chunk).Ends machine i (fun result s' => (∀ error, result = .error error → s' = s) ∧
      ∀ nextSeq, result = .ok nextSeq → AppendResult content s index chunk nextSeq s') s := by
  rw [appendTo]
  split
  · exact ⟨fun _ _ => rfl, fun _ hok => (nomatch hok)⟩
  · rename_i plan hplan
    refine (ends_carryOut h hplan now i).bind fun nextSeq s' hresult => ?_
    refine ⟨fun _ herror => (nomatch herror), fun nextSeq' hok => ?_⟩
    exact Except.ok.inj hok ▸ hresult

variable {commandId : String}

/-- **What an append does**: it fails and changes nothing, it is a replay and changes nothing, or
the content grows. -/
theorem ends_appendChunk
    (h : ∀ now, Stored content s (s.index.getD (createExecutionLogIndex commandId now))) (chunk : ExecutionLogChunk)
    (i : ℕ) :
    (appendChunk commandId chunk).Ends machine i (fun result s' => (∀ error, result = .error error → s' = s) ∧
      ∀ nextSeq, result = .ok nextSeq → ∃ now, AppendResult content s
        (s.index.getD (createExecutionLogIndex commandId now)) chunk nextSeq s') s := by
  refine ⟨⟨⟨0, 0⟩, _, _, rfl⟩, fun e now s' hexec => ?_⟩
  cases hexec
  refine ⟨⟨⟨0, 0⟩, _, _, rfl⟩, fun e' ans s' hexec => ?_⟩
  cases hexec
  refine (ends_appendTo (h e.now) chunk e.now i).mono fun result s' hresult => ?_
  exact ⟨hresult.1, fun nextSeq hok => ⟨e.now, hresult.2 nextSeq hok⟩⟩

/-! ## Sessions -/

inductive Action where
  | append (chunk : ExecutionLogChunk)
  | sealLog
  /-- The reader reads on, with a budget. -/
  | read (maxBytes : Number)

/-- The objects, where the reader resumes, and all the bytes that it was given. -/
structure Session where
  objects : Objects
  cursor : ℕ
  seen : Bytes

def Session.start : Session := ⟨.empty, 0, []⟩

/-- The budget holds the largest chunk. -/
def Ample (maxBytes : Number) : Prop := maxExecutionLogChunkBytes ≤ maxBytes.natural?.getD 0

def Action.Ample : Action → Prop
  | .read maxBytes => Transcripts.Ample maxBytes
  | _ => True

/-- The chunks that the appends send. -/
def sent (actions : List Action) : List ExecutionLogChunk :=
  actions.filterMap fun
    | .append chunk => some chunk
    | _ => none

theorem sent_append (l l' : List Action) : sent (l ++ l') = sent l ++ sent l' := filterMap_append

/-- A call, alone on the objects. Where there is no transcript the reader is given nothing and
stays. -/
inductive Session.Step (commandId : String) : Session → Action → Session → Prop where
  | append {s : Session} {chunk : ExecutionLogChunk} {result : Except ExecutionLogError ℕ}
      {objects : Objects} (h : (appendChunk commandId chunk).Runs machine 0 s.objects result objects) :
      Session.Step commandId s (.append chunk) { s with objects := objects }
  | sealLog {s : Session} {result : Option ℕ} {objects : Objects}
      (h : sealLog.Runs machine 0 s.objects result objects) :
      Session.Step commandId s .sealLog { s with objects := objects }
  | read {s : Session} {maxBytes : Number} {result : Option ExecutionLogReadResult} {objects : Objects}
      (h : (readFrom (.finite s.cursor) maxBytes).Runs machine 0 s.objects result objects) :
      Session.Step commandId s (.read maxBytes)
        ⟨objects, (result.map ExecutionLogReadResult.nextSeq).getD s.cursor,
          s.seen ++ (result.map ExecutionLogReadResult.bytes).getD []⟩

inductive Session.Goes (commandId : String) : Session → List Action → Session → Prop where
  | nil (s : Session) : Session.Goes commandId s [] s
  | cons {s s' s'' : Session} {action : Action} {actions : List Action}
      (hstep : Session.Step commandId s action s') (hrest : Session.Goes commandId s' actions s'') :
      Session.Goes commandId s (action :: actions) s''

/-- The pieces are chunks that were sent, and after them the marker once the transcript is cut. -/
def Marked (chunks : List ExecutionLogChunk) (content : List (ℕ × Bytes)) (truncated : Bool) : Prop :=
  ∃ own, (∀ piece ∈ own, ∃ chunk ∈ chunks, chunk.seq.natural? = some piece.1 ∧ chunk.bytes = piece.2) ∧
    ∃ marker, content = own ++ marker ∧ (∀ piece ∈ marker, piece.2 = markerBytes) ∧
      marker.length = if truncated then 1 else 0

variable {chunks : List ExecutionLogChunk} {seq : ℕ}

theorem Marked.grows {content' : List (ℕ × Bytes)}
    (h : Marked chunks content truncated) (hseq : chunk.seq.natural? = some seq)
    (hgrows : Grows seq chunk.bytes content truncated content' truncated') :
    Marked (chunks ++ [chunk]) content' truncated' := by
  obtain ⟨own, hown, marker, rfl, hmarker, hlen⟩ := h
  have hown' : ∀ piece ∈ own, ∃ chunk' ∈ chunks ++ [chunk], chunk'.seq.natural? = some piece.1 ∧
      chunk'.bytes = piece.2 := fun piece hpiece => by
    obtain ⟨chunk', hchunk', heq⟩ := hown piece hpiece
    exact ⟨chunk', mem_append_left _ hchunk', heq⟩
  cases hgrows with
  | swallow => exact ⟨own, hown', marker, rfl, hmarker, hlen⟩
  | cut =>
    obtain rfl : marker = [] := length_eq_zero_iff.1 hlen
    refine ⟨own, hown', [(seq, markerBytes)], by rw [append_nil], fun piece hpiece => ?_, rfl⟩
    rw [mem_singleton.1 hpiece]
  | write =>
    obtain rfl : marker = [] := length_eq_zero_iff.1 hlen
    refine ⟨own ++ [(seq, chunk.bytes)], fun piece hpiece => ?_, [], by simp, fun _ h => (nomatch h), rfl⟩
    obtain hpiece | hpiece := mem_append.1 hpiece
    · exact hown' piece hpiece
    · rw [mem_singleton.1 hpiece]
      exact ⟨chunk, mem_append_right _ mem_cons_self, hseq, rfl⟩

/-- What the objects hold, after the calls that sent these chunks. -/
structure Objects.Hold (chunks : List ExecutionLogChunk) (content : List (ℕ × Bytes)) (s : Objects) :
    Prop where
  stored : ∀ index ∈ s.index, Stored content s index ∧ Marked chunks content index.truncated
  nothing : s.index = none → content = []

/-- The invariant: the reader has seen what is below its cursor, and the cursor is not beyond the
index. -/
structure Session.Inv (chunks : List ExecutionLogChunk) (content : List (ℕ × Bytes)) (s : Session) :
    Prop where
  hold : s.objects.Hold chunks content
  seen : s.seen = bytesOf (below s.cursor content)
  cursor : s.cursor ≤ (s.objects.index.map ExecutionLogIndex.nextSeq).getD 0

theorem inv_start : Session.start.Inv [] [] where
  hold := ⟨fun _ h => (nomatch h), fun _ => rfl⟩
  seen := rfl
  cursor := le_rfl

theorem Marked.mono {more : List ExecutionLogChunk} {truncated : Bool}
    (h : Marked chunks content truncated) : Marked (chunks ++ more) content truncated := by
  obtain ⟨own, hown, hmarker⟩ := h
  refine ⟨own, fun piece hpiece => ?_, hmarker⟩
  obtain ⟨chunk, hchunk, heq⟩ := hown piece hpiece
  exact ⟨chunk, mem_append_left _ hchunk, heq⟩

theorem Objects.Hold.mono {more : List ExecutionLogChunk}
    (h : s.Hold chunks content) : s.Hold (chunks ++ more) content where
  stored index hindex := ⟨(h.stored index hindex).1, (h.stored index hindex).2.mono⟩
  nothing := h.nothing

theorem Objects.Hold.getD (h : s.Hold chunks content) (commandId : String) (now : Date) :
    let index := s.index.getD (createExecutionLogIndex commandId now)
    Stored content s index ∧ Marked chunks content index.truncated ∧
      index.nextSeq = (s.index.map ExecutionLogIndex.nextSeq).getD 0 := by
  cases hindex : s.index with
  | none =>
    obtain rfl := h.nothing hindex
    refine ⟨⟨lays_create _ _, fun _ _ hpiece => (nomatch hpiece), fun hsealed => (nomatch hsealed)⟩, ?_, rfl⟩
    exact ⟨[], fun _ hpiece => (nomatch hpiece), [], rfl, fun _ hpiece => (nomatch hpiece), rfl⟩
  | some index =>
    obtain ⟨hstored, hmarked⟩ := h.stored index hindex
    exact ⟨hstored, hmarked, rfl⟩

theorem Grows.eq_append {bytes : Bytes} {content' : List (ℕ × Bytes)}
    (h : Grows seq bytes content truncated content' truncated') :
    ∃ more, content' = content ++ more ∧ ∀ piece ∈ more, piece.1 = seq := by
  cases h with
  | swallow => exact ⟨[], (append_nil _).symm, fun _ h => (nomatch h)⟩
  | cut => exact ⟨_, rfl, fun piece h => by rw [mem_singleton.1 h]⟩
  | write => exact ⟨_, rfl, fun piece h => by rw [mem_singleton.1 h]⟩

theorem below_append_late {more : List (ℕ × Bytes)} (h : ∀ piece ∈ more, seq ≤ piece.1) :
    below seq (content ++ more) = below seq content := by
  have hlate : below seq more = [] := filter_eq_nil_iff.2 fun piece hp => by simpa using h piece hp
  rw [below, filter_append]
  exact (congrArg (below seq content ++ ·) hlate).trans (append_nil _)

theorem Session.Inv.append {s : Session}
    (h : s.Inv chunks content) {result : Except ExecutionLogError ℕ} {objects : Objects}
    (hruns : (appendChunk commandId chunk).Runs machine 0 s.objects result objects) :
    ∃ more, Session.Inv (chunks ++ [chunk]) (content ++ more) { s with objects := objects } := by
  obtain ⟨herror, hok⟩ := hruns.ends (ends_appendChunk (fun now => (h.hold.getD commandId now).1) chunk 0)
  have hsame : objects = s.objects → ∃ more,
      Session.Inv (chunks ++ [chunk]) (content ++ more) { s with objects := objects } := by
    rintro rfl
    exact ⟨[], by rw [append_nil]; exact ⟨h.hold.mono, h.seen, h.cursor⟩⟩
  cases result with
  | error error => exact hsame (herror error rfl)
  | ok nextSeq =>
    obtain ⟨now, ⟨heq, -⟩ | ⟨content', index', hindex', hstored', hseq, hnext, -, hgrows⟩⟩ := hok nextSeq rfl
    · exact hsame heq
    · obtain ⟨-, hmarked, hcurrent⟩ := h.hold.getD commandId now
      obtain ⟨more, rfl, hmore⟩ := hgrows.eq_append
      have hcursor := h.cursor
      rw [← hcurrent] at hcursor
      refine ⟨more, ⟨fun index hindex => ?_, fun hnone => ?_⟩, ?_, ?_⟩
      · cases hindex'.symm.trans hindex
        exact ⟨hstored', hmarked.grows hseq hgrows⟩
      · rw [hindex'] at hnone
        cases hnone
      · rw [below_append_late fun piece hpiece => hcursor.trans (hmore piece hpiece).ge]
        exact h.seen
      · simp only
        rw [hindex', Option.map_some, Option.getD_some, hnext]
        exact hcursor.trans (Nat.le_succ _)

theorem ends_sealLog (h : s.Hold chunks content) :
    sealLog.Ends machine 0 (fun _ s' => s' = s ∨ ∃ index,
      s.index = some index ∧ ∃ index', s'.index = some index' ∧ index'.nextSeq = index.nextSeq ∧
        index'.truncated = index.truncated ∧ Stored content s' index') s := by
  refine ⟨⟨⟨0, 0⟩, _, _, rfl⟩, fun e ans s' hexec => ?_⟩
  cases hexec
  change Prog.Ends machine 0 _ (sealIndexed s.index) s
  cases hindex : s.index with
  | none => exact .inl rfl
  | some index =>
    rw [sealIndexed]
    split
    · exact .inl rfl
    · rename_i hlive
      refine (ends_sealIndex (h.stored index hindex).1 (Bool.not_eq_true _ ▸ hlive) 0).bind ?_
      rintro bytes s' ⟨-, hsealed⟩
      exact .inr ⟨index, rfl, hsealed⟩

theorem Session.Inv.sealLog {s : Session}
    (h : s.Inv chunks content) {result : Option ℕ} {objects : Objects}
    (hruns : sealLog.Runs machine 0 s.objects result objects) :
    Session.Inv chunks content { s with objects := objects } := by
  obtain rfl | ⟨index, hindex, index', hindex', hnext, htrunc, hstored'⟩ := hruns.ends (ends_sealLog h.hold)
  · exact h
  · have hcursor := h.cursor
    rw [hindex, Option.map_some, Option.getD_some] at hcursor
    refine ⟨⟨fun index'' hindex'' => ?_, fun hnone => ?_⟩, h.seen, ?_⟩
    · cases hindex'.symm.trans hindex''
      refine ⟨hstored', ?_⟩
      rw [htrunc]
      exact (h.hold.stored index hindex).2
    · rw [hindex'] at hnone
      cases hnone
    · simp only
      rw [hindex', Option.map_some, Option.getD_some, hnext]
      exact hcursor

theorem ends_read (h : s.Hold chunks content) (cursor : ℕ) (hample : Ample maxBytes) :
    (readFrom (.finite cursor) maxBytes).Ends machine 0 (fun result s' => s' = s ∧
      ((s.index = none ∧ result = none) ∨ ∃ index window, s.index = some index ∧
        Resolved content index.nextSeq cursor (maxBytes.natural?.getD 0) window ∧
        result = some (shapeExecutionLogRead index window
          (slice (bytesOf content) window.start window.stop)))) s := by
  cases hindex : s.index with
  | none =>
    refine ⟨⟨⟨0, 0⟩, _, _, rfl⟩, fun e ans s' hexec => ?_⟩
    cases hexec
    rw [hindex]
    exact ⟨rfl, .inl ⟨rfl, rfl⟩⟩
  | some index =>
    have hstored := (h.stored index hindex).1
    refine (ends_readFrom hindex hstored (.finite cursor)
      (fun piece hpiece => (hstored.lays.small piece hpiece).trans hample) 0).mono ?_
    rintro result s' ⟨hs, window, hresolved, hresult⟩
    rw [Number.natural?_natCast, Option.getD_some] at hresolved
    exact ⟨hs, .inr ⟨index, window, rfl, hresolved, hresult⟩⟩

theorem below_below {lo hi : ℕ} (hle : lo ≤ hi) : below lo (below hi content) = below lo content := by
  rw [below, below, filter_filter]
  refine filter_congr fun piece _ => ?_
  rw [Bool.eq_iff_iff, Bool.and_eq_true, decide_eq_true_eq, decide_eq_true_eq]
  omega

theorem slice_below (h : content.Pairwise fun x y => x.1 < y.1) {lo hi : ℕ}
    (hle : lo ≤ hi) : bytesOf (below lo content) ++ slice (bytesOf content)
      (bytesOf (below lo content)).length (bytesOf (below hi content)).length =
        bytesOf (below hi content) := by
  have hmiddle := below_append_onward (h.filter fun piece => decide (piece.1 < hi)) lo
  change below lo (below hi content) ++ onward lo (below hi content) = below hi content at hmiddle
  rw [below_below hle] at hmiddle
  have hbytes := congrArg bytesOf (below_append_onward h hi)
  rw [← hmiddle, bytesOf_append, bytesOf_append] at hbytes
  rw [← hmiddle, ← hbytes, bytesOf_append (below lo content), length_append, slice_append]

/-- **A read gives the reader what follows**: the bytes up to the next cursor, which goes on unless
nothing is left. -/
theorem Session.Inv.read {s : Session}
    (h : s.Inv chunks content) (hample : Ample maxBytes) {s' : Session}
    (hstep : Session.Step commandId s (.read maxBytes) s') :
    s'.objects = s.objects ∧ s'.Inv chunks content ∧ s.cursor ≤ s'.cursor ∧
      (onward s.cursor content ≠ [] → s.cursor < s'.cursor ∧
        (onward s'.cursor content).length < (onward s.cursor content).length) := by
  cases hstep with
  | read hruns =>
    obtain ⟨rfl, ⟨hindex, rfl⟩ | ⟨index, window, hindex, hresolved, rfl⟩⟩ :=
      hruns.ends (ends_read h.hold s.cursor hample)
    · refine ⟨rfl, ⟨h.hold, ?_, h.cursor⟩, le_rfl, fun hpending => ?_⟩
      · exact (append_nil _).trans h.seen
      · rw [h.hold.nothing hindex] at hpending
        exact absurd rfl hpending
    · have hcursor := h.cursor
      rw [hindex, Option.map_some, Option.getD_some] at hcursor
      refine ⟨rfl, ⟨h.hold, ?_, ?_⟩, hresolved.upTo, hresolved.progress⟩
      · have hlays := (h.hold.stored index hindex).1.lays
        simp only [shapeExecutionLogRead, Option.map_some, Option.getD_some]
        rw [h.seen, hresolved.start, hresolved.stop]
        exact slice_below hlays.increasing hresolved.upTo
      · simp only [shapeExecutionLogRead, Option.map_some, Option.getD_some]
        rw [hindex, Option.map_some, Option.getD_some]
        exact hresolved.known.trans (max_le hcursor le_rfl)

theorem Session.Inv.step {chunks : List ExecutionLogChunk} {content : List (ℕ × Bytes)} {s s' : Session}
    (h : s.Inv chunks content) {commandId : String} {action : Action} (hample : action.Ample)
    (hstep : Session.Step commandId s action s') :
    ∃ more, s'.Inv (chunks ++ sent [action]) (content ++ more) := by
  cases action with
  | append chunk =>
    cases hstep with
    | append hruns => exact h.append hruns
  | sealLog =>
    cases hstep with
    | sealLog hruns => exact ⟨[], by simpa [sent] using h.sealLog hruns⟩
  | read maxBytes => exact ⟨[], by simpa [sent] using (h.read hample hstep).2.1⟩

/-- **The invariant holds along every session.** -/
theorem Session.Inv.goes {s s' : Session} (h : s.Inv chunks content) {actions : List Action}
    (hample : ∀ action ∈ actions, action.Ample) (hgoes : Session.Goes commandId s actions s') :
    ∃ more, s'.Inv (chunks ++ sent actions) (content ++ more) := by
  induction hgoes generalizing chunks content with
  | nil s => exact ⟨[], by simpa [sent] using h⟩
  | @cons s s₁ s₂ action actions hstep _ ih =>
    obtain ⟨more, hmore⟩ := h.step (hample action mem_cons_self) hstep
    obtain ⟨more', hmore'⟩ := ih hmore fun action haction => hample action (mem_cons_of_mem _ haction)
    refine ⟨more ++ more', ?_⟩
    rw [append_assoc, ← sent_append, singleton_append, append_assoc] at hmore'
    exact hmore'

/-! ## The law of sessions -/

/-- The transcript as it is stored. -/
def Objects.transcript (s : Objects) : Bytes :=
  match s.index with
  | none => []
  | some index =>
    if index.sealed then (s.sealed index.datePartition).getD []
    else index.parts.flatMap fun part => (s.part index.datePartition part.seq).getD []

theorem flatMap_layout (f : ℕ → Bytes) (offset : ℕ) (content : List (ℕ × Bytes)) :
    ((layout offset content).flatMap fun part => f part.seq) = content.flatMap fun piece => f piece.1 := by
  induction content generalizing offset with
  | nil => rfl
  | cons piece content ih => rw [layout, flatMap_cons, ih, flatMap_cons]

theorem Stored.transcript (h : Stored content s index) (hindex : s.index = some index) :
    s.transcript = bytesOf content := by
  rw [Objects.transcript, hindex]
  simp only
  split
  · rename_i hsealed
    rw [h.whole hsealed, Option.getD_some]
  · rename_i hlive
    rw [h.lays.parts, flatMap_layout (fun seq => (s.part index.datePartition seq).getD [])]
    refine flatMap_congr fun piece hpiece => ?_
    rw [h.parts (Bool.not_eq_true _ ▸ hlive) piece hpiece, Option.getD_some]

theorem Objects.Hold.transcript (h : s.Hold chunks content) : s.transcript = bytesOf content := by
  cases hindex : s.index with
  | none =>
    rw [h.nothing hindex, Objects.transcript, hindex]
    rfl
  | some index => exact (h.stored index hindex).1.transcript hindex

/-- The bytes of a part in the transcript. -/
def Objects.partBytes (s : Objects) (part : ExecutionLogPart) : Bytes :=
  slice s.transcript part.offset (part.offset + part.length)

/-- What holds of a session, after appends of these chunks. -/
structure Session.Sound (commandId : String) (chunks : List ExecutionLogChunk) (s : Session) : Prop where
  tiles : ∀ index ∈ s.objects.index, Tiles 0 index.parts index.totalBytes
  increasing : ∀ index ∈ s.objects.index, index.parts.Pairwise fun x y => x.seq < y.seq
  early : ∀ index ∈ s.objects.index, ∀ part ∈ index.parts, part.seq < index.nextSeq
  /-- The parts are those of chunks, and after them the marker, once the transcript is cut. -/
  marker : ∀ index ∈ s.objects.index, ∃ own marker, index.parts = own ++ marker ∧
    (∀ part ∈ own, ∃ chunk ∈ chunks, chunk.seq.natural? = some part.seq ∧
      s.objects.partBytes part = chunk.bytes) ∧
    (∀ part ∈ marker, s.objects.partBytes part = markerBytes) ∧
    marker.length = if index.truncated then 1 else 0
  /-- A rejected or replayed append changes nothing. -/
  unchanged : ∀ chunk result objects,
    (appendChunk commandId chunk).Runs machine 0 s.objects result objects →
    ((∃ error, result = .error error) ∨ ∃ index ∈ s.objects.index, ∃ seq < index.nextSeq,
      chunk.seq.natural? = some seq) → objects = s.objects
  /-- Every call ends. -/
  ends : ∀ action : Action, action.Ample → ∃ s', Session.Step commandId s action s'
  /-- The transcript is only added to, and a seal leaves it as it is. -/
  kept : ∀ action s', action.Ample → Session.Step commandId s action s' →
    s.objects.transcript <+: s'.objects.transcript ∧
      (action = .sealLog → s'.objects.transcript = s.objects.transcript)
  /-- What the reader was given is the beginning of the transcript. -/
  seen : s.seen <+: s.objects.transcript
  /-- A read changes nothing, and the cursor goes on until all is read. -/
  goesOn : ∀ maxBytes s', Ample maxBytes → Session.Step commandId s (.read maxBytes) s' →
    s'.objects = s.objects ∧ (s.seen ≠ s.objects.transcript → s.cursor < s'.cursor)
  /-- As many reads as there are parts give the reader the whole transcript. -/
  exhausts : ∀ (reads : List Number) s', (∀ maxBytes ∈ reads, Ample maxBytes) →
    (∀ index ∈ s.objects.index, index.parts.length ≤ reads.length) →
    Session.Goes commandId s (reads.map .read) s' →
    s'.objects = s.objects ∧ s'.seen = s.objects.transcript

section

variable {chunks : List ExecutionLogChunk} {content : List (ℕ × Bytes)} {s : Session} {commandId : String}

theorem bytesOf_below_initial (h : content.Pairwise fun x y => x.1 < y.1) (seq : ℕ) :
    bytesOf (below seq content) <+: bytesOf content :=
  ⟨bytesOf (onward seq content), by rw [← bytesOf_append, below_append_onward h]⟩

theorem Objects.Hold.increasing {s : Objects} (h : s.Hold chunks content) :
    content.Pairwise fun x y => x.1 < y.1 := by
  cases hindex : s.index with
  | none =>
    rw [h.nothing hindex]
    exact List.Pairwise.nil
  | some index => exact (h.stored index hindex).1.lays.increasing

theorem Session.Inv.seen_of_nil (h : s.Inv chunks content) (hnil : onward s.cursor content = []) :
    s.seen = s.objects.transcript := by
  have hsplit := below_append_onward h.hold.increasing s.cursor
  rw [hnil, append_nil] at hsplit
  rw [h.seen, hsplit, h.hold.transcript]

theorem onward_nil_mono {lo hi : ℕ} (h : onward lo content = []) (hle : lo ≤ hi) :
    onward hi content = [] := by
  refine onward_eq_nil fun piece hpiece => ?_
  have := filter_eq_nil_iff.1 h piece hpiece
  rw [decide_eq_true_eq] at this
  omega

section

variable (h : s.Inv chunks content)
include h

theorem Session.Inv.reads {reads : List Number}
    (hample : ∀ maxBytes ∈ reads, Ample maxBytes) (hlen : (onward s.cursor content).length ≤ reads.length)
    {s' : Session} (hgoes : Session.Goes commandId s (reads.map .read) s') :
    s'.objects = s.objects ∧ s'.seen = s.objects.transcript := by
  induction reads generalizing s with
  | nil =>
    cases hgoes with
    | nil => exact ⟨rfl, h.seen_of_nil (length_eq_zero_iff.1 (Nat.le_zero.1 hlen))⟩
  | cons maxBytes reads ih =>
    cases hgoes with
    | cons hstep hrest =>
      obtain ⟨hobjects, hinv, hle, hprogress⟩ := h.read (hample maxBytes mem_cons_self) hstep
      rw [← hobjects]
      refine ih hinv (fun other hother => hample other (mem_cons_of_mem _ hother)) ?_ hrest
      by_cases hpending : onward s.cursor content = []
      · rw [onward_nil_mono hpending hle]
        exact Nat.zero_le _
      · have := (hprogress hpending).2
        rw [length_cons] at hlen
        omega

theorem Session.Inv.ends (action : Action) (hample : action.Ample) :
    ∃ s', Session.Step commandId s action s' := by
  cases action with
  | append chunk =>
    obtain ⟨result, objects, hruns⟩ :=
      (ends_appendChunk (fun now => (h.hold.getD commandId now).1) chunk 0).runs
    exact ⟨_, .append hruns⟩
  | sealLog =>
    obtain ⟨result, objects, hruns⟩ := (ends_sealLog h.hold).runs
    exact ⟨_, .sealLog hruns⟩
  | read maxBytes =>
    obtain ⟨result, objects, hruns⟩ := (ends_read h.hold s.cursor hample).runs
    exact ⟨_, .read hruns⟩

theorem Session.Inv.unchanged {chunk : ExecutionLogChunk}
    {result : Except ExecutionLogError ℕ} {objects : Objects}
    (hruns : (appendChunk commandId chunk).Runs machine 0 s.objects result objects)
    (hvain : (∃ error, result = .error error) ∨ ∃ index ∈ s.objects.index, ∃ seq < index.nextSeq,
      chunk.seq.natural? = some seq) : objects = s.objects := by
  obtain ⟨herror, hok⟩ := hruns.ends (ends_appendChunk (fun now => (h.hold.getD commandId now).1) chunk 0)
  obtain ⟨error, rfl⟩ | ⟨index, hindex, seq, hlt, hseq⟩ := hvain
  · exact herror error rfl
  · cases result with
    | error error => exact herror error rfl
    | ok nextSeq =>
      obtain ⟨now, ⟨heq, -⟩ | ⟨_, _, -, -, hseq', -⟩⟩ := hok nextSeq rfl
      · exact heq
      · rw [Option.mem_def.1 hindex, Option.getD_some, hseq] at hseq'
        exact absurd (Option.some.inj hseq') (Nat.ne_of_lt hlt)

theorem Session.Inv.marker {index : ExecutionLogIndex}
    (hindex : s.objects.index = some index) : ∃ own marker, index.parts = own ++ marker ∧
      (∀ part ∈ own, ∃ chunk ∈ chunks, chunk.seq.natural? = some part.seq ∧
        s.objects.partBytes part = chunk.bytes) ∧
      (∀ part ∈ marker, s.objects.partBytes part = markerBytes) ∧
      marker.length = if index.truncated then 1 else 0 := by
  obtain ⟨hstored, own, hown, marker, rfl, hmarker, hlen⟩ := h.hold.stored index hindex
  have hbytes : ∀ {done rest bytes} {part : ExecutionLogPart},
      own ++ marker = done ++ (part.seq, bytes) :: rest → part.offset = (bytesOf done).length →
      part.length = bytes.length → s.objects.partBytes part = bytes := by
    intro done rest bytes part hsplit hoffset hlength
    rw [Objects.partBytes, hstored.transcript hindex, hoffset, hlength]
    exact slice_of_split hsplit
  refine ⟨layout 0 own, layout (bytesOf own).length marker, ?_, fun part hpart => ?_, fun part hpart => ?_, ?_⟩
  · rw [hstored.lays.parts, layout_append, Nat.zero_add]
  · obtain ⟨done, bytes, rest, rfl, hoffset, hlength⟩ := mem_layout hpart
    obtain ⟨chunk, hchunk, hseq, heq⟩ :=
      hown (part.seq, bytes) (mem_append_right _ mem_cons_self)
    refine ⟨chunk, hchunk, hseq, ?_⟩
    rw [heq]
    exact hbytes (by rw [append_assoc, cons_append]) hoffset hlength
  · obtain ⟨done, bytes, rest, rfl, hoffset, hlength⟩ := mem_layout_from hpart
    rw [← hmarker (part.seq, bytes) (mem_append_right _ mem_cons_self)]
    refine hbytes (append_assoc _ _ _).symm ?_ hlength
    rw [hoffset, bytesOf_append, length_append]
  · rw [length_layout, hlen]

/-- **What the invariant says of a session.** -/
theorem Session.Inv.sound : s.Sound commandId chunks where
  tiles index hindex := by
    have hlays := (h.hold.stored index hindex).1.lays
    rw [hlays.parts, hlays.totalBytes]
    simpa only [Nat.zero_add] using tiles_layout 0 content
  increasing index hindex := by
    have hlays := (h.hold.stored index hindex).1.lays
    have hmap : (index.parts.map ExecutionLogPart.seq).Pairwise (· < ·) := by
      rw [hlays.parts, map_seq_layout]
      exact pairwise_map.2 hlays.increasing
    exact pairwise_map.1 hmap
  early index hindex part hpart := by
    have hlays := (h.hold.stored index hindex).1.lays
    rw [hlays.parts] at hpart
    obtain ⟨done, bytes, rest, rfl, -⟩ := mem_layout hpart
    exact hlays.early _ (mem_append_right _ mem_cons_self)
  marker _ hindex := h.marker hindex
  unchanged _ _ _ hruns hvain := h.unchanged hruns hvain
  ends action hample := h.ends action hample
  kept action s' hample hstep := by
    obtain ⟨more, hmore⟩ := h.step hample hstep
    rw [hmore.hold.transcript, h.hold.transcript]
    refine ⟨⟨bytesOf more, (bytesOf_append _ _).symm⟩, ?_⟩
    rintro rfl
    cases hstep with
    | sealLog hruns => rw [← hmore.hold.transcript, (h.sealLog hruns).hold.transcript]
  seen := by
    rw [h.seen, h.hold.transcript]
    exact bytesOf_below_initial h.hold.increasing _
  goesOn maxBytes s' hample hstep := by
    obtain ⟨hobjects, -, -, hprogress⟩ := h.read hample hstep
    exact ⟨hobjects, fun hne => (hprogress fun hnil => hne (h.seen_of_nil hnil)).1⟩
  exhausts reads s' hample hlen hgoes := by
    refine h.reads hample ?_ hgoes
    refine (length_filter_le _ _).trans ?_
    cases hindex : s.objects.index with
    | none =>
      rw [h.hold.nothing hindex]
      exact Nat.zero_le _
    | some index =>
      have hparts := hlen index hindex
      rwa [(h.hold.stored index hindex).1.lays.parts, length_layout] at hparts

end

end

/-- **Transcripts of calls one after the other.** After any appends, seals and reads of a reader
that begins at `0` and resumes at the number it is given, with budgets that hold the largest chunk:
the parts tile the transcript in the order of their numbers, all below the next one; rejected and
replayed appends change nothing; the marker is there at most once, at the end; and what the reader
was given is the beginning of the transcript, to which every read adds until it is the whole. -/
theorem transcript_sessions (commandId : String) (actions : List Action) (s : Session)
    (hample : ∀ action ∈ actions, action.Ample) (hgoes : Session.Goes commandId .start actions s) :
    s.Sound commandId (sent actions) := by
  obtain ⟨content, hinv⟩ := inv_start.goes hample hgoes
  exact hinv.sound

/-- A chunk, a read, the seal, and a read after it. -/
def chunkAndSeal : List Action :=
  [.append ⟨.finite (0 : ℕ), [7]⟩, .read (.finite (262144 : ℕ)), .sealLog, .read (.finite (262144 : ℕ))]

/-- The objects after the append and after the seal. -/
def appendedObjects : Objects where
  index := some ⟨"command", 0, 1, 1, false, false, 0, 0, [⟨0, 0, 1⟩]⟩
  part p n := if p = 0 ∧ n = 0 then some [7] else none
  sealed _ := none

def sealedObjects : Objects where
  index := some ⟨"command", 0, 1, 1, true, false, 0, 0, [⟨0, 0, 1⟩]⟩
  part p n := if p = 0 ∧ n = 0 then none else appendedObjects.part p n
  sealed p := if p = 0 then some [7] else none

theorem transcript_sessions_chunkAndSeal :
    Session.Goes "command" .start chunkAndSeal ⟨sealedObjects, 1, [7]⟩ ∧
      Session.Sound "command" (sent chunkAndSeal) ⟨sealedObjects, 1, [7]⟩ := by
  have happend : (appendChunk "command" ⟨.finite (0 : ℕ), [7]⟩).Runs machine 0 .empty (.ok 1)
      appendedObjects :=
    .op (e := ⟨0, 0⟩) rfl (.op (e := ⟨0, 0⟩) rfl (.op (e := ⟨0, 0⟩) rfl (.op (e := ⟨0, 0⟩) rfl (.pure _ _))))
  have hread : (readFrom (.finite (0 : ℕ)) (.finite (262144 : ℕ))).Runs machine 0 appendedObjects
      (some ⟨[7], 1, false, false⟩) appendedObjects :=
    .op (e := ⟨0, 0⟩) rfl (.op (e := ⟨0, 0⟩) rfl (.pure _ _))
  have hseal : sealLog.Runs machine 0 appendedObjects (some 1) sealedObjects :=
    .op (e := ⟨0, 0⟩) rfl (.op (e := ⟨0, 0⟩) rfl (.op (e := ⟨0, 0⟩) rfl (.op (e := ⟨0, 0⟩) rfl
      (.op (e := ⟨0, 0⟩) rfl (.op (e := ⟨0, 0⟩) rfl (.pure _ _))))))
  have hrest : (readFrom (.finite (1 : ℕ)) (.finite (262144 : ℕ))).Runs machine 0 sealedObjects
      (some ⟨[], 1, true, false⟩) sealedObjects :=
    .op (e := ⟨0, 0⟩) rfl (.pure _ _)
  have hgoes : Session.Goes "command" .start chunkAndSeal ⟨sealedObjects, 1, [7]⟩ :=
    .cons (.append happend) (.cons (.read hread) (.cons (.sealLog hseal) (.cons (.read hrest) (.nil _))))
  refine ⟨hgoes, transcript_sessions _ _ _ (fun action haction => ?_) hgoes⟩
  obtain rfl | rfl | rfl | rfl : action = _ ∨ action = _ ∨ action = _ ∨ action = _ := by
    simpa only [chunkAndSeal, mem_cons, not_mem_nil, or_false] using haction
  · trivial
  · exact (le_of_eq rfl : (262144 : ℕ) ≤ 262144)
  · trivial
  · exact (le_of_eq rfl : (262144 : ℕ) ≤ 262144)

end TurboPanel.Transcripts
