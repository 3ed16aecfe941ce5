import TurboPanel.Transcripts.Sequential

/-!
# Calls that overlap

Appends, retries of them, seals and reads of one command run at the same time, operation by
operation. A retry sends the bytes that were sent before, so that the bytes of a number are fixed
(`chunks`), and with them the content of an index, by its next number (`contentAt`).

The contract says what an operation of a call has to do with the index that the call read.
-/

namespace TurboPanel.Transcripts

open Interleaving Js Paste List

section

variable (chunks : ℕ → Bytes)

/-! ## The content that the chunks make -/

/-- The content once all numbers below `n` were appended, and whether it is cut. -/
def contentAt : ℕ → List (ℕ × Bytes) × Bool
  | 0 => ([], false)
  | n + 1 =>
    if (contentAt n).2 then contentAt n
    else if maxExecutionLogTotalBytes ≤ (bytesOf (contentAt n).1).length then
      ((contentAt n).1 ++ [(n, markerBytes)], true)
    else ((contentAt n).1 ++ [(n, chunks n)], false)

/-- What is stored under a number. -/
def expected (n : ℕ) : Bytes :=
  if maxExecutionLogTotalBytes ≤ (bytesOf (contentAt chunks n).1).length then markerBytes else chunks n

variable {h : Trace Op Ans} {parts : List ExecutionLogPart} {stored : Option ExecutionLogIndex}
  {index' : ExecutionLogIndex} {chunk : ExecutionLogChunk} {n : ℕ}

theorem contentAt_of_cut (h : (contentAt chunks n).2 = true) :
    contentAt chunks (n + 1) = contentAt chunks n := by
  rw [contentAt, if_pos h]

theorem contentAt_of_live (h : (contentAt chunks n).2 = false) :
    contentAt chunks (n + 1) = ((contentAt chunks n).1 ++ [(n, expected chunks n)],
      decide (maxExecutionLogTotalBytes ≤ (bytesOf (contentAt chunks n).1).length)) := by
  rw [contentAt, if_neg (by rw [h]; exact Bool.false_ne_true), expected]
  split
  · rename_i hfull
    rw [decide_eq_true hfull]
  · rename_i hroom
    rw [decide_eq_false hroom]

theorem mem_contentAt {piece : ℕ × Bytes} (h : piece ∈ (contentAt chunks n).1) :
    piece.2 = expected chunks piece.1 := by
  induction n with
  | zero => cases h
  | succ n ih =>
    cases hcut : (contentAt chunks n).2 with
    | true =>
      rw [contentAt_of_cut chunks hcut] at h
      exact ih h
    | false =>
      rw [contentAt_of_live chunks hcut, mem_append] at h
      obtain h | h := h
      · exact ih h
      · rw [mem_singleton.1 h]

theorem contentAt_initial {n m : ℕ} (h : n ≤ m) : (contentAt chunks n).1 <+: (contentAt chunks m).1 := by
  induction m, h using Nat.le_induction with
  | base => exact prefix_rfl
  | succ m _ ih =>
    refine ih.trans ?_
    cases hcut : (contentAt chunks m).2 with
    | true => rw [contentAt_of_cut chunks hcut]
    | false =>
      rw [contentAt_of_live chunks hcut]
      exact prefix_append _ _

/-- **Below the cap the content is the chunks themselves.** -/
theorem contentAt_early (h : ((List.range n).flatMap chunks).length < maxExecutionLogTotalBytes) :
    bytesOf (contentAt chunks n).1 = (List.range n).flatMap chunks ∧ (contentAt chunks n).2 = false := by
  induction n with
  | zero => exact ⟨rfl, rfl⟩
  | succ n ih =>
    rw [range_succ, flatMap_append] at h ⊢
    have hlt : ((List.range n).flatMap chunks).length < maxExecutionLogTotalBytes :=
      (by rw [length_append]; exact Nat.le_add_right _ _ : _ ≤ _).trans_lt h
    obtain ⟨hbytes, hlive⟩ := ih hlt
    have hroom : ¬maxExecutionLogTotalBytes ≤ (bytesOf (contentAt chunks n).1).length := by
      rw [hbytes]
      exact Nat.not_le_of_lt hlt
    rw [contentAt_of_live chunks hlive, bytesOf_append, hbytes, expected, if_neg hroom]
    exact ⟨rfl, decide_eq_false (Nat.not_le_of_lt hlt)⟩

theorem bytesOf_contentAt {n m : ℕ} (hn : n < m)
    (h : ((List.range n).flatMap chunks).length < maxExecutionLogTotalBytes) :
    ∃ rest, bytesOf (contentAt chunks m).1 = (List.range n).flatMap chunks ++ chunks n ++ rest := by
  obtain ⟨hbytes, hlive⟩ := contentAt_early chunks h
  obtain ⟨rest, hrest⟩ := contentAt_initial chunks (Nat.succ_le_of_lt hn)
  have hroom : ¬maxExecutionLogTotalBytes ≤ (bytesOf (contentAt chunks n).1).length := by
    rw [hbytes]
    exact Nat.not_le_of_lt h
  refine ⟨bytesOf rest, ?_⟩
  rw [← hrest, Nat.succ_eq_add_one, contentAt_of_live chunks hlive, expected, if_neg hroom, bytesOf_append,
    bytesOf_append, hbytes, bytesOf_cons, bytesOf_nil, append_nil]

/-- The index is that of the chunks below its next number. -/
structure Good (index : ExecutionLogIndex) : Prop where
  lays : Lays (contentAt chunks index.nextSeq).1 index
  truncated : index.truncated = (contentAt chunks index.nextSeq).2

theorem good_create (commandId : String) (now : Date) : Good chunks (createExecutionLogIndex commandId now) where
  lays := lays_create commandId now
  truncated := rfl

/-- What the calls of an index would read, if nothing were deleted. -/
def ideal (index : ExecutionLogIndex) : Objects where
  index := some index
  part _ n := some (expected chunks n)
  sealed _ := some (bytesOf (contentAt chunks index.nextSeq).1)

theorem stored_ideal {index : ExecutionLogIndex} (h : Good chunks index) :
    Stored (contentAt chunks index.nextSeq).1 (ideal chunks index) index where
  lays := h.lays
  parts _ _ hpiece := congrArg some (mem_contentAt chunks hpiece).symm
  whole _ := rfl

/-! ## Calls -/

inductive Call where
  /-- A chunk, or a retry of it. -/
  | append (chunk : ExecutionLogChunk) (h : ∀ n ∈ chunk.seq.natural?, chunk.bytes = chunks n)
  | sealLog
  | read (fromSeq maxBytes : Number)

/-- What the caller of `appendChunk` is told. -/
def report (chunk : ExecutionLogChunk) : Except ExecutionLogError ℕ → Proc Unit
  | .ok nextSeq => ask (.appended chunk nextSeq)
  | .error _ => pure ()

def body (commandId : String) : Call chunks → Proc Unit
  | .append chunk _ => do
    let result ← appendChunk commandId chunk
    report chunk result
  | .sealLog => do
    let _ ← sealLog
    pure ()
  | .read fromSeq maxBytes => do
    let result ← readFrom fromSeq maxBytes
    ask (.shown fromSeq maxBytes result)

/-! ## The contract -/

/-- Not an operation on the index, nor a delete. -/
def Quiet : (o : Op) × Ans o → Prop
  | ⟨.getIndex, _⟩ => False
  | ⟨.putIndex _, _⟩ => False
  | ⟨.deletePart _ _, _⟩ => False
  | _ => True

/-- The call has read the index, and it has not written one since. -/
def ReadIndex (stored : Option ExecutionLogIndex) (h : Trace Op Ans) : Prop :=
  Since (· = ⟨.getIndex, stored⟩) Quiet h

/-- What is read of the transcript of an index. -/
def Reads (index : ExecutionLogIndex) : Op → Prop
  | .getPart partition parts => parts ≠ [] ∧ index.sealed = false ∧ partition = index.datePartition ∧
    ∀ part ∈ parts, part ∈ index.parts
  | .getSealed partition => index.sealed = true ∧ partition = index.datePartition
  | _ => False

/-- What was read of the transcript is what the chunks make of it. -/
def Honest (index : ExecutionLogIndex) (h : Trace Op Ans) : Prop :=
  ∀ ev ∈ h, Reads index ev.1 → ∃ e s', exec e ev.1 (ideal chunks index) = some (ev.2, s')

/-- The index that an append puts over the one it read. -/
structure Extends (index index' : ExecutionLogIndex) (h : Trace Op Ans) : Prop where
  live : index.sealed = false
  live' : index'.sealed = false
  partition : index'.datePartition = index.datePartition
  next : index'.nextSeq = index.nextSeq + 1
  good : Good chunks index → Good chunks index'
  /-- A part is put before the index that has it. -/
  put : ∀ part ∈ index'.parts, part ∈ index.parts ∨
    ∃ bytes, ⟨.putPart index'.datePartition part.seq bytes, ()⟩ ∈ h

/-- What a read returns, for the index that it read. -/
def Shows (index : ExecutionLogIndex) (fromSeq maxBytes : Number) (result : Option ExecutionLogReadResult) :
    Prop :=
  ∃ window, Resolved (contentAt chunks index.nextSeq).1 index.nextSeq (fromSeq.natural?.getD 0)
      (maxBytes.natural?.getD 0) window ∧
    result = some (shapeExecutionLogRead index window
      (slice (bytesOf (contentAt chunks index.nextSeq).1) window.start window.stop))

/-- What each operation of a call is, after those that the call made before. -/
def Contract (commandId : String) (h : Trace Op Ans) : Op → Prop
  | .now => True
  | .getIndex => ∀ ev ∈ h, ev.1 = .now
  | .putPart partition seq bytes => ∃ stored now, ReadIndex stored h ∧
    let index := stored.getD (createExecutionLogIndex commandId now)
    partition = index.datePartition ∧ seq = index.nextSeq ∧ (Good chunks index → bytes = expected chunks seq)
  | .putIndex index' =>
    (∃ stored now, ReadIndex stored h ∧
      Extends chunks (stored.getD (createExecutionLogIndex commandId now)) index' h) ∨
    ∃ index now, ReadIndex (some index) h ∧ index.sealed = false ∧
      index' = { index with sealed := true, updatedAt := now } ∧
      ∃ bytes, ⟨.putSealed index.datePartition bytes, ()⟩ ∈ h
  | .getPart partition parts => ∃ index, ReadIndex (some index) h ∧ Reads index (.getPart partition parts)
  | .getSealed partition => ∃ index, ReadIndex (some index) h ∧ Reads index (.getSealed partition)
  | .putSealed partition bytes => ∃ index, ReadIndex (some index) h ∧ index.sealed = false ∧
    partition = index.datePartition ∧ (Good chunks index → Honest chunks index h →
      bytes = bytesOf (contentAt chunks index.nextSeq).1)
  | .deletePart _ parts => parts ≠ [] ∧ ∃ index, index.sealed = true ∧ ⟨.putIndex index, ()⟩ ∈ h
  | .appended chunk _ => ∃ n ∈ chunk.seq.natural?, ∃ index : ExecutionLogIndex, n < index.nextSeq ∧
    (⟨.getIndex, some index⟩ ∈ h ∨ ⟨.putIndex index, ()⟩ ∈ h)
  | .shown fromSeq maxBytes result => ∃ stored, ReadIndex stored h ∧ ∀ index ∈ stored,
    Good chunks index → Honest chunks index h →
    (∀ piece ∈ (contentAt chunks index.nextSeq).1, piece.2.length ≤ maxBytes.natural?.getD 0) →
    Shows chunks index fromSeq maxBytes result

/-- What is served was asked for. -/
def Answers : (o : Op) → Ans o → Prop
  | .getPart _ parts, ans => ans.1 ∈ parts
  | .deletePart _ parts, ans => ans ∈ parts
  | _, _ => True

theorem answers_of_exec {i : ℕ} {e : Env} {o : Op} {s : Objects} {ans : Ans o} {s' : Objects}
    (h : machine.exec i e o s = some (ans, s')) : Answers o ans := by
  cases o with
  | getPart partition parts =>
    obtain ⟨part, hget, heq⟩ := Option.map_eq_some_iff.1 h
    cases heq
    exact mem_of_getElem? hget
  | deletePart partition parts =>
    obtain ⟨part, hget, heq⟩ := Option.map_eq_some_iff.1 h
    cases heq
    exact mem_of_getElem? hget
  | _ => trivial

/-! ## Appends keep the contract -/

variable {chunks} {index : ExecutionLogIndex}

theorem Good.expected_full (h : Good chunks index) (hfull : maxExecutionLogTotalBytes ≤ index.totalBytes) :
    expected chunks index.nextSeq = markerBytes :=
  if_pos (h.lays.totalBytes ▸ hfull)

theorem Good.expected_room (h : Good chunks index) (hroom : index.totalBytes < maxExecutionLogTotalBytes) :
    expected chunks index.nextSeq = chunks index.nextSeq :=
  if_neg (Nat.not_le_of_lt (h.lays.totalBytes ▸ hroom))

theorem Good.concat (h : Good chunks index) (hlive : index.truncated = false) {bytes : Bytes}
    (hsmall : bytes.length ≤ maxExecutionLogChunkBytes) (hbytes : bytes = expected chunks index.nextSeq)
    (hparts : index'.parts = index.parts ++ [⟨index.nextSeq, index.totalBytes, bytes.length⟩])
    (htotal : index'.totalBytes = index.totalBytes + bytes.length) (hnext : index'.nextSeq = index.nextSeq + 1)
    (htrunc : index'.truncated = decide (maxExecutionLogTotalBytes ≤ index.totalBytes)) :
    Good chunks index' := by
  have hcontent := contentAt_of_live chunks (h.truncated.symm.trans hlive)
  have hlays := h.lays.concat hsmall hparts htotal hnext
  refine ⟨?_, ?_⟩
  · rw [hnext, hcontent, ← hbytes]
    exact hlays
  · rw [hnext, hcontent, htrunc, h.lays.totalBytes]

theorem Good.swallow (h : Good chunks index) (hcut : index.truncated = true) (hparts : index'.parts = index.parts)
    (htotal : index'.totalBytes = index.totalBytes) (hnext : index'.nextSeq = index.nextSeq + 1)
    (htrunc : index'.truncated = true) :
    Good chunks index' := by
  have hcontent := contentAt_of_cut chunks (h.truncated.symm.trans hcut)
  refine ⟨?_, ?_⟩
  · rw [hnext, hcontent]
    exact h.lays.congr hparts htotal (by rw [hnext]; exact Nat.le_succ _)
  · rw [hnext, hcontent, htrunc, ← h.truncated, hcut]

theorem ReadIndex.concat (hread : ReadIndex stored h) {ev : (o : Op) × Ans o} (hquiet : Quiet ev) :
    ReadIndex stored (h ++ [ev]) :=
  since_concat.2 (.inr ⟨hread, hquiet⟩)

theorem ReadIndex.mem (hread : ReadIndex stored h) :
    ⟨.getIndex, stored⟩ ∈ h := by
  obtain ⟨before, ev, after, rfl, rfl, -⟩ := hread
  exact mem_append_right _ mem_cons_self

/-- The append is known to be in an index that the call has read or put. -/
def Known (chunk : ExecutionLogChunk) (h : Trace Op Ans) : Prop :=
  ∃ n ∈ chunk.seq.natural?, ∃ index : ExecutionLogIndex, n < index.nextSeq ∧
    (⟨.getIndex, some index⟩ ∈ h ∨ ⟨.putIndex index, ()⟩ ∈ h)

theorem known_put (hseq : chunk.seq.natural? = some n) (hnext : index'.nextSeq = n + 1) :
    Known chunk (h ++ [⟨.putIndex index', ()⟩]) :=
  ⟨n, hseq, index', by rw [hnext]; exact Nat.lt_succ_self n,
    .inr (mem_append_right _ mem_cons_self)⟩

variable {commandId : String}

theorem sat_carryOut {now : Date} (hread : ReadIndex stored h)
    (hchunk : ∀ n ∈ chunk.seq.natural?, chunk.bytes = chunks n) {plan : ExecutionLogAppendPlan}
    (hplan : planExecutionLogAppend (stored.getD (createExecutionLogIndex commandId now)) chunk = .ok plan) :
    (carryOut (stored.getD (createExecutionLogIndex commandId now)) now plan).Sat Answers
      (Contract chunks commandId) (fun h' _ => Known chunk h') h := by
  obtain ⟨hlive, hsize, ⟨seq, hseq, hlt, rfl⟩ | ⟨hseq, hcases⟩⟩ := plan_cases hplan
  · -- A replay: the index that was read has the number already, so that it was there.
    cases stored with
    | none => exact absurd hlt (Nat.not_lt_zero _)
    | some index => exact ⟨seq, hseq, index, hlt, .inl hread.mem⟩
  · have hbytes := hchunk _ hseq
    obtain ⟨htrunc, rfl⟩ | ⟨htrunc, hfull, rfl⟩ | ⟨htrunc, hroom, rfl⟩ := hcases
    · refine ⟨.inl ⟨stored, now, hread, hlive, hlive, rfl, rfl, fun hgood => ?_, fun part hpart => ?_⟩,
        fun _ _ => known_put hseq rfl⟩
      · exact hgood.swallow htrunc rfl rfl rfl rfl
      · exact .inl hpart
    · refine ⟨⟨stored, now, hread, rfl, rfl, fun hgood => (hgood.expected_full hfull).symm⟩, fun _ _ => ?_⟩
      refine ⟨.inl ⟨stored, now, hread.concat trivial, hlive, hlive, rfl, rfl, fun hgood => ?_,
        fun part hpart => ?_⟩, fun _ _ => known_put hseq rfl⟩
      · refine hgood.concat htrunc length_markerBytes (hgood.expected_full hfull).symm rfl rfl rfl ?_
        exact (decide_eq_true hfull).symm
      · obtain hpart | hpart := mem_append.1 hpart
        · exact .inl hpart
        · rw [mem_singleton.1 hpart]
          exact .inr ⟨_, mem_append_right _ mem_cons_self⟩
    · refine ⟨⟨stored, now, hread, rfl, rfl, fun hgood => ?_⟩, fun _ _ => ?_⟩
      · exact hbytes.trans (hgood.expected_room hroom).symm
      refine ⟨.inl ⟨stored, now, hread.concat trivial, hlive, hlive, rfl, rfl, fun hgood => ?_,
        fun part hpart => ?_⟩, fun _ _ => known_put hseq rfl⟩
      · refine hgood.concat htrunc hsize (hbytes.trans (hgood.expected_room hroom).symm) rfl rfl rfl ?_
        exact htrunc.trans (decide_eq_false (Nat.not_le_of_lt hroom)).symm
      · obtain hpart | hpart := mem_append.1 hpart
        · exact .inl hpart
        · rw [mem_singleton.1 hpart]
          exact .inr ⟨_, mem_append_right _ mem_cons_self⟩

theorem append_obeys (hchunk : ∀ n ∈ chunk.seq.natural?, chunk.bytes = chunks n) :
    (body chunks commandId (.append chunk hchunk)).Sat Answers (Contract chunks commandId)
      (fun _ _ => True) [] := by
  refine ⟨trivial, fun now _ => ⟨fun ev hev => ?_, fun stored _ => ?_⟩⟩
  · rw [mem_singleton.1 hev]
  · have hread : ReadIndex stored [⟨.now, now⟩, ⟨.getIndex, stored⟩] :=
      since_concat (l := [_]).2 (.inl rfl)
    change Prog.Sat _ _ _ (Prog.bind (appendTo _ now chunk) (report chunk)) _
    rw [appendTo]
    split
    · trivial
    · rename_i plan hplan
      have hknown : Prog.Sat Answers (Contract chunks commandId) (fun h' result =>
          (∃ nextSeq, result = Except.ok nextSeq) ∧ Known chunk h')
          (carryOut (stored.getD (createExecutionLogIndex commandId now)) now plan >>= fun nextSeq =>
            pure (Except.ok nextSeq : Except ExecutionLogError ℕ)) [⟨.now, now⟩, ⟨.getIndex, stored⟩] :=
        (sat_carryOut hread hchunk hplan).bind fun h' nextSeq hknown => ⟨⟨nextSeq, rfl⟩, hknown⟩
      refine hknown.bind fun h' result hresult => ?_
      obtain ⟨⟨nextSeq, rfl⟩, hknown⟩ := hresult
      exact ⟨hknown, fun _ _ => trivial⟩

/-! ## Reads keep the contract -/

theorem reads_pure {i : ℕ} {s : Objects} (o : Op) (ho : Reads index o) (e : Env) (ans : Ans o) (s' : Objects)
    (h : machine.exec i e o s = some (ans, s')) : s' = s := by
  cases o with
  | getPart partition parts =>
    obtain ⟨part, -, heq⟩ := Option.map_eq_some_iff.1 h
    exact (Prod.mk.inj heq).2.symm
  | getSealed partition => exact (Prod.mk.inj (Option.some.inj h)).2.symm
  | _ => exact ho.elim

theorem quiet_reads {o : Op} (ho : Reads index o) (ans : Ans o) : Quiet ⟨o, ans⟩ := by
  cases o with
  | getPart partition parts => trivial
  | getSealed partition => trivial
  | _ => exact ho.elim

theorem contract_reads (hread : ReadIndex (some index) h) {o : Op} (ho : Reads index o) :
    Contract chunks commandId h o := by
  cases o with
  | getPart partition parts => exact ⟨index, hread, ho⟩
  | getSealed partition => exact ⟨index, hread, ho⟩
  | _ => exact ho.elim

theorem sat_of_ends {α : Type} {p : Proc α} {C : Prop} {Q : α → Objects → Prop}
    (hends : C → p.Ends machine 0 Q (ideal chunks index)) (honly : p.Only (Reads index) fun _ => True)
    (hread : ReadIndex (some index) h) :
    p.Sat Answers (Contract chunks commandId) (fun h' a => ReadIndex (some index) h' ∧
      (C → Honest chunks index h' → Q a (ideal chunks index))) h := by
  have hP : ∀ h o, Reads index o → ReadIndex (some index) h → Contract chunks commandId h o :=
    fun _ _ ho hread => contract_reads hread ho
  have hK : ∀ (h : Trace Op Ans) (o : Op) (ans : Ans o), Reads index o → ReadIndex (some index) h →
      ReadIndex (some index) (h ++ [⟨o, ans⟩]) := fun _ _ ans ho hread => hread.concat (quiet_reads ho ans)
  by_cases hC : C
  · refine Prog.Sat.mono ?_ ((hends hC).sat_of_reads reads_pure hP hK honly hread)
    exact fun h' a hh' => ⟨hh'.1, fun _ => hh'.2⟩
  · refine Prog.Sat.mono ?_ (honly.sat hP hK hread)
    exact fun h' a hh' => ⟨hh'.1, fun hC' => absurd hC' hC⟩

theorem only_fetchParts (hlive : index.sealed = false) {start stop count : ℕ} (hcount : count ≤ parts.length)
    (hparts : ∀ part ∈ parts, part ∈ index.parts) (out : Bytes) :
    (fetchParts index.datePartition start stop count parts out).Only (Reads index) fun _ => True := by
  induction count generalizing parts out with
  | zero => trivial
  | succ count ih =>
    refine ⟨⟨?_, hlive, rfl, hparts⟩, fun served => ?_⟩
    · rintro rfl
      exact absurd hcount (Nat.not_succ_le_zero _)
    · refine ih ?_ (fun part hpart => hparts part (mem_of_mem_erase hpart)) _
      have := length_erase (a := served.1) (l := parts)
      split at this <;> omega

theorem only_assemblePartsInto (hlive : index.sealed = false) (start stop : ℕ)
    (hparts : ∀ part ∈ parts, part ∈ index.parts) :
    (assemblePartsInto index.datePartition parts start stop).Only (Reads index) fun _ => True :=
  only_fetchParts hlive le_rfl hparts _

theorem only_readWindow (window : ExecutionLogReadWindow) :
    (readWindow index window).Only (Reads index) fun _ => True := by
  rw [readWindow]
  split
  · trivial
  · split
    · rename_i hsealed
      refine ⟨⟨hsealed, rfl⟩, fun stored => ?_⟩
      cases stored <;> trivial
    · rename_i hlive
      rw [readParts]
      split
      · trivial
      · refine (only_assemblePartsInto (Bool.not_eq_true _ ▸ hlive) _ _ fun part hpart => ?_).bind
          fun _ _ => trivial
        exact (mem_filter.1 hpart).1

theorem read_obeys (fromSeq maxBytes : Number) :
    (body chunks commandId (.read fromSeq maxBytes)).Sat Answers (Contract chunks commandId)
      (fun _ _ => True) [] := by
  refine ⟨fun ev hev => (nomatch hev), fun stored _ => ?_⟩
  have hread : ReadIndex stored [⟨.getIndex, stored⟩] := since_concat (l := []).2 (.inl rfl)
  cases stored with
  | none => exact ⟨⟨none, hread, fun _ hindex => (nomatch hindex)⟩, fun _ _ => trivial⟩
  | some index =>
    have hshows : Prog.Sat Answers (Contract chunks commandId) (fun h' result =>
        ReadIndex (some index) h' ∧ ((Good chunks index ∧ ∀ piece ∈ (contentAt chunks index.nextSeq).1,
          piece.2.length ≤ maxBytes.natural?.getD 0) → Honest chunks index h' →
            Shows chunks index fromSeq maxBytes (some result)))
        (readWindow index (resolveExecutionLogReadWindow index fromSeq maxBytes))
        [⟨.getIndex, some index⟩] := by
      refine sat_of_ends (Q := fun result _ => Shows chunks index fromSeq maxBytes (some result))
        (fun hC => ?_) (only_readWindow _) hread
      have hresolved := resolve_lays hC.1.lays fromSeq hC.2
      have hstop : (resolveExecutionLogReadWindow index fromSeq maxBytes).stop ≤
          (bytesOf (contentAt chunks index.nextSeq).1).length := by
        rw [hresolved.stop]
        exact length_below_le hC.1.lays.increasing _
      refine (ends_readWindow (stored_ideal chunks hC.1) hstop 0).mono ?_
      rintro result s' ⟨-, rfl⟩
      exact ⟨_, hresolved, rfl⟩
    have hresult := hshows.bind (f := fun result => (pure (some result) : Proc _)) (R := fun h' result =>
      ReadIndex (some index) h' ∧ ((Good chunks index ∧ ∀ piece ∈ (contentAt chunks index.nextSeq).1,
        piece.2.length ≤ maxBytes.natural?.getD 0) → Honest chunks index h' →
          Shows chunks index fromSeq maxBytes result)) fun _ _ hh' => hh'
    refine hresult.bind fun h' result hh' => ⟨⟨some index, hh'.1, fun index' hindex' => ?_⟩, fun _ _ => trivial⟩
    cases hindex'
    exact fun hgood hhonest hfits => hh'.2 ⟨hgood, hfits⟩ hhonest

/-! ## Seals keep the contract -/

/-- A delete of some parts. -/
def Deletes : Op → Prop
  | .deletePart _ parts => parts ≠ []
  | _ => False

theorem only_deleteParts {partition : ℤ} {count : ℕ} (hcount : count ≤ parts.length) :
    (deleteParts partition count parts).Only Deletes fun _ => True := by
  induction count generalizing parts with
  | zero => trivial
  | succ count ih =>
    refine ⟨?_, fun part => ih ?_⟩
    · rintro rfl
      exact absurd hcount (Nat.not_succ_le_zero _)
    · have := length_erase (a := part) (l := parts)
      split at this <;> omega

theorem sat_deleteParts (hsealed : index.sealed = true) {partition : ℤ} (hput : ⟨.putIndex index, ()⟩ ∈ h) :
    (deleteParts partition parts.length parts).Sat Answers (Contract chunks commandId) (fun _ _ => True) h := by
  refine Prog.Sat.mono (fun _ _ _ => trivial) ((only_deleteParts le_rfl).sat
    (K := fun h => ⟨.putIndex index, ()⟩ ∈ h) (fun h o ho hput => ?_)
    (fun h o ans ho hput => mem_append_left _ hput) hput)
  cases o with
  | deletePart partition parts => exact ⟨ho, index, hsealed, hput⟩
  | _ => exact ho.elim

theorem sat_sealIndex (hlive : index.sealed = false) (hread : ReadIndex (some index) h) :
    (sealIndex index).Sat Answers (Contract chunks commandId) (fun _ _ => True) h := by
  have htranscript : (assemblePartsInto index.datePartition index.parts 0 index.totalBytes).Sat Answers
      (Contract chunks commandId) (fun h' out => ReadIndex (some index) h' ∧ (Good chunks index →
        Honest chunks index h' → out = bytesOf (contentAt chunks index.nextSeq).1)) h := by
    refine sat_of_ends (Q := fun out _ => out = bytesOf (contentAt chunks index.nextSeq).1)
      (fun hgood => ?_) (only_assemblePartsInto hlive _ _ fun _ hpart => hpart) hread
    have hstored := stored_ideal chunks hgood
    refine (ends_assemblePartsInto hstored.lays.increasing (hstored.parts hlive)
      (fun part hpart => hstored.lays.parts ▸ hpart) (Nat.zero_le _) fun k _ hk => ?_).mono ?_
    · rw [hstored.lays.totalBytes] at hk
      rw [hstored.lays.parts]
      exact exists_mem_layout hk
    · rintro out s' ⟨-, rfl⟩
      rw [hstored.lays.totalBytes, slice_self]
  refine htranscript.bind fun h' out hh' => ?_
  refine ⟨⟨index, hh'.1, hlive, rfl, hh'.2⟩, fun _ _ => ⟨trivial, fun now _ => ⟨?_, fun _ _ => ?_⟩⟩⟩
  · have hread' : ReadIndex (some index) (h' ++ [⟨.putSealed index.datePartition out, ()⟩]) :=
      hh'.1.concat trivial
    refine .inr ⟨index, now, hread'.concat trivial, hlive, rfl, out, ?_⟩
    exact mem_append_left _ (mem_append_right _ mem_cons_self)
  · have hput : ⟨.putIndex { index with sealed := true, updatedAt := now }, ()⟩ ∈
        (h' ++ [⟨.putSealed index.datePartition out, ()⟩] ++ [⟨.now, now⟩] ++
          [⟨.putIndex { index with sealed := true, updatedAt := now }, ()⟩] : Trace Op Ans) :=
      mem_append_right _ mem_cons_self
    exact (sat_deleteParts rfl hput).bind fun _ _ _ => trivial

theorem seal_obeys : (body chunks commandId .sealLog).Sat Answers (Contract chunks commandId)
    (fun _ _ => True) [] := by
  refine ⟨fun ev hev => (nomatch hev), fun stored _ => ?_⟩
  have hread : ReadIndex stored [⟨.getIndex, stored⟩] := since_concat (l := []).2 (.inl rfl)
  cases stored with
  | none => trivial
  | some index =>
    change Prog.Sat _ _ _ (Prog.bind (sealIndexed (some index)) fun _ => pure ()) _
    rw [sealIndexed]
    split
    · trivial
    · rename_i hlive
      have hbytes : (sealIndex index >>= fun bytes => (pure (some bytes) : Proc (Option ℕ))).Sat Answers
          (Contract chunks commandId) (fun _ _ => True) [⟨.getIndex, some index⟩] :=
        (sat_sealIndex (Bool.not_eq_true _ ▸ hlive) hread).bind fun _ _ _ => trivial
      exact hbytes.bind fun _ _ _ => trivial

/-- **Every call keeps the contract.** -/
theorem body_obeys (x : Call chunks) : (body chunks commandId x).Sat Answers (Contract chunks commandId)
    (fun _ _ => True) [] := by
  cases x with
  | append chunk hchunk => exact append_obeys hchunk
  | sealLog => exact seal_obeys
  | read fromSeq maxBytes => exact read_obeys fromSeq maxBytes

end

end TurboPanel.Transcripts
