import TurboPanel.Transcripts.Calls

/-!
# Acknowledged chunks

The index is read, extended and written back as a whole. A call that writes it after another one did
writes over what the other added: the chunk is acknowledged, and lost. A second seal, or a read that
goes on while the parts are deleted, finds holes.

When no other call has written the index since a call read it, at the time when the call writes the
index or the sealed object, and no part was deleted since, at the time when it fetches one, every
acknowledged chunk is in every transcript that is read later.
-/

namespace TurboPanel.Transcripts

open Option Interleaving Js Paste List

/-! ## The condition -/

/-- The call has read the index. -/
def IsRead (i : ℕ) (stored : Option ExecutionLogIndex) (ev : Event Op Ans) : Prop :=
  ev.thread = i ∧ (⟨ev.op, ev.ans⟩ : (o : Op) × Ans o) = ⟨.getIndex, stored⟩

def NoPut (ev : Event Op Ans) : Prop := ∀ index, ev.op ≠ .putIndex index

def NoDelete (ev : Event Op Ans) : Prop := ∀ partition parts, ev.op ≠ .deletePart partition parts

/-- Since the call read the index, no other call wrote it, when the call writes the index or the
sealed object, and no other call deleted a part, when it fetches one. -/
def Undisturbed (i : ℕ) (w : World Op Ans Objects) : Op → Prop
  | .putIndex _ => Since (fun ev => ev.thread = i ∧ ev.op = .getIndex)
    (fun ev => ev.thread ≠ i → NoPut ev) w.log
  | .putSealed _ _ => Since (fun ev => ev.thread = i ∧ ev.op = .getIndex)
    (fun ev => ev.thread ≠ i → NoPut ev) w.log
  | .getPart _ _ => Since (fun ev => ev.thread = i ∧ ev.op = .getIndex)
    (fun ev => ev.thread ≠ i → NoDelete ev) w.log
  | _ => True

theorem since_isRead {i : ℕ} {stored : Option ExecutionLogIndex} {log : List (Event Op Ans)}
    (hread : ReadIndex stored (own i log)) {Q : Event Op Ans → Prop}
    (hok : Since (fun ev => ev.thread = i ∧ ev.op = .getIndex) (fun ev => ev.thread ≠ i → Q ev) log)
    (hQ : ∀ ev : Event Op Ans, Quiet ⟨ev.op, ev.ans⟩ → Q ev) : Since (IsRead i stored) Q log := by
  have hsince := (since_of_own hread).and_of_last hok fun ev hquiet hread => ?_
  · refine hsince.mono (fun ev hev => hev) fun ev hev => ?_
    by_cases hi : ev.thread = i
    · exact hQ ev (hev.1 hi)
    · exact hev.2 hi
  · obtain ⟨j, o, ans⟩ := ev
    obtain ⟨rfl, rfl⟩ := hread
    exact hquiet rfl

variable {ev : Event Op Ans}

theorem noPut_of_quiet (h : Quiet ⟨ev.op, ev.ans⟩) : NoPut ev := by
  obtain ⟨j, o, ans⟩ := ev
  rintro index rfl
  exact h

theorem noDelete_of_quiet (h : Quiet ⟨ev.op, ev.ans⟩) : NoDelete ev := by
  obtain ⟨j, o, ans⟩ := ev
  rintro partition parts rfl
  exact h

/-! ## What an operation does to the objects -/

section

variable {i : ℕ} {e : Env} {o : Op} {s : Objects} {ans : Ans o} {s' : Objects}

section

variable (h : machine.exec i e o s = some (ans, s'))
include h

theorem exec_index (ho : ∀ index, o ≠ .putIndex index) : s'.index = s.index := by
  cases o with
  | putIndex index => exact absurd rfl (ho index)
  | getPart partition parts =>
    obtain ⟨part, -, heq⟩ := map_eq_some_iff.1 h
    exact (Prod.mk.inj heq).2 ▸ rfl
  | deletePart partition parts =>
    obtain ⟨part, -, heq⟩ := map_eq_some_iff.1 h
    exact (Prod.mk.inj heq).2 ▸ rfl
  | _ => exact (Prod.mk.inj (Option.some.inj h)).2 ▸ rfl

theorem exec_sealed (ho : ∀ partition bytes, o ≠ .putSealed partition bytes) : s'.sealed = s.sealed := by
  cases o with
  | putSealed partition bytes => exact absurd rfl (ho partition bytes)
  | getPart partition parts =>
    obtain ⟨part, -, heq⟩ := map_eq_some_iff.1 h
    exact (Prod.mk.inj heq).2 ▸ rfl
  | deletePart partition parts =>
    obtain ⟨part, -, heq⟩ := map_eq_some_iff.1 h
    exact (Prod.mk.inj heq).2 ▸ rfl
  | _ => exact (Prod.mk.inj (Option.some.inj h)).2 ▸ rfl

theorem exec_part
    (ho : ∀ partition parts, o ≠ .deletePart partition parts) {partition : ℤ} {seq : ℕ}
    (hsome : (s.part partition seq).isSome) : (s'.part partition seq).isSome := by
  cases o with
  | deletePart partition parts => exact absurd rfl (ho partition parts)
  | getPart partition parts =>
    obtain ⟨part, -, heq⟩ := map_eq_some_iff.1 h
    exact (Prod.mk.inj heq).2 ▸ hsome
  | putPart partition' seq' bytes =>
    rw [← (Prod.mk.inj (Option.some.inj h)).2, Objects.setPart]
    simp only
    split
    · rfl
    · exact hsome
  | _ => exact (Prod.mk.inj (Option.some.inj h)).2 ▸ hsome

end

end

/-! ## The index -/

/-- The event shows that the index was there. -/
def Saw (index : ExecutionLogIndex) (ev : Event Op Ans) : Prop :=
  ∃ i, ev = ⟨i, .getIndex, some index⟩ ∨ ev = ⟨i, .putIndex index, ()⟩

/-- The chunk is in the index. -/
def Covers (stored : Option ExecutionLogIndex) (chunk : ExecutionLogChunk) : Prop :=
  ∃ n ∈ chunk.seq.natural?, ∃ index ∈ stored, n < index.nextSeq

/-- What holds of the index in every world of a run. -/
structure Indexes (chunks : ℕ → Bytes) (w : World Op Ans Objects) : Prop where
  good : ∀ index ∈ w.state.index, Good chunks index
  read : ∀ i index, ⟨i, .getIndex, some index⟩ ∈ w.log → Good chunks index
  /-- What a call has read is there until an index is put. -/
  fresh : ∀ i stored, Since (IsRead i stored) NoPut w.log → w.state.index = stored
  /-- A call reads the index once. -/
  once : ∀ i stored stored', ⟨i, .getIndex, stored⟩ ∈ w.log → ⟨i, .getIndex, stored'⟩ ∈ w.log →
    stored = stored'
  /-- The next number only grows, and a sealed index stays. -/
  saw : ∀ ev ∈ w.log, ∀ index, Saw index ev → ∃ current ∈ w.state.index,
    index.nextSeq ≤ current.nextSeq ∧ (index.sealed = true → current = index)
  acked : ∀ i chunk nextSeq, ⟨i, .appended chunk nextSeq, ()⟩ ∈ w.log → Covers w.state.index chunk
  /-- A call that reads the index later finds the chunk in it. -/
  later : ∀ before i stored after, w.log = before ++ ⟨i, .getIndex, stored⟩ :: after →
    ∀ j chunk nextSeq, ⟨j, .appended chunk nextSeq, ()⟩ ∈ before → Covers stored chunk

theorem indexes_init (chunks : ℕ → Bytes) : Indexes chunks ⟨.empty, []⟩ where
  good _ hindex := nomatch hindex
  read _ _ hev := nomatch hev
  fresh _ _ hsince := absurd hsince not_since_nil
  once _ _ _ hev := nomatch hev
  saw _ hev := nomatch hev
  acked _ _ _ hev := nomatch hev
  later before i stored after heq := by
    have hmem : ⟨i, .getIndex, stored⟩ ∈ before ++ (⟨i, .getIndex, stored⟩ : Event Op Ans) :: after :=
      mem_append_right _ mem_cons_self
    rw [← heq] at hmem
    cases hmem

theorem mem_push {w : World Op Ans Objects} {i : ℕ} {o : Op} {ans : Ans o} {s' : Objects}
    : ev ∈ (w.push i o ans s').log ↔ ev ∈ w.log ∨ ev = ⟨i, o, ans⟩ := by
  rw [World.push, mem_append, mem_singleton]

section

variable {chunks : ℕ → Bytes} {commandId : String} {i : ℕ} {e : Env} {o : Op} {w : World Op Ans Objects}
  {ans : Ans o} {s' : Objects}

/-- **What a put of the index is**: it extends the index that is there, or seals it. -/
theorem Indexes.put_cases (hw : Indexes chunks w) {index' : ExecutionLogIndex}
    (hok : Undisturbed i w (.putIndex index'))
    (hcontract : Contract chunks commandId (own i w.log) (.putIndex index')) :
    (∃ index, Good chunks index ∧ Extends chunks index index' (own i w.log) ∧
      ((w.state.index = none ∧ index.parts = []) ∨ w.state.index = some index)) ∨
    ∃ index now bytes, Good chunks index ∧ index.sealed = false ∧ w.state.index = some index ∧
      Since (IsRead i (some index)) NoPut w.log ∧
      index' = { index with sealed := true, updatedAt := now } ∧
      ⟨i, .putSealed index.datePartition bytes, ()⟩ ∈ w.log := by
  obtain ⟨stored, now, hread, hextends⟩ | ⟨index, now, hread, hlive, heq, bytes, hbytes⟩ := hcontract
  · have hcurrent := hw.fresh i stored (since_isRead hread hok fun _ => noPut_of_quiet)
    cases stored with
    | none => exact .inl ⟨_, good_create chunks commandId now, hextends, .inl ⟨hcurrent, rfl⟩⟩
    | some index => exact .inl ⟨index, hw.good index hcurrent, hextends, .inr hcurrent⟩
  · have hsince := since_isRead hread hok fun _ => noPut_of_quiet
    have hcurrent := hw.fresh i (some index) hsince
    exact .inr ⟨index, now, bytes, hw.good index hcurrent, hlive, hcurrent, hsince, heq, mem_own.1 hbytes⟩

theorem Indexes.put_grows (hw : Indexes chunks w) {index' : ExecutionLogIndex}
    (hok : Undisturbed i w (.putIndex index'))
    (hcontract : Contract chunks commandId (own i w.log) (.putIndex index')) :
    Good chunks index' ∧ ∀ current ∈ w.state.index,
      current.sealed = false ∧ current.nextSeq ≤ index'.nextSeq := by
  obtain ⟨index, hgood, hextends, hindex⟩ | ⟨index, now, bytes, hgood, hlive, hcurrent, -, rfl, -⟩ :=
    hw.put_cases hok hcontract
  · refine ⟨hextends.good hgood, fun current hcurrent => ?_⟩
    obtain ⟨hnone, -⟩ | hsome := hindex
    · rw [hnone] at hcurrent
      cases hcurrent
    · cases hsome.symm.trans hcurrent
      exact ⟨hextends.live, by rw [hextends.next]; exact Nat.le_succ _⟩
  · refine ⟨⟨hgood.lays.congr rfl rfl le_rfl, hgood.truncated⟩, fun current hcurrent' => ?_⟩
    cases hcurrent.symm.trans hcurrent'
    exact ⟨hlive, le_rfl⟩

theorem Indexes.step (hw : Indexes chunks w) (hok : Undisturbed i w o)
    (hcontract : Contract chunks commandId (own i w.log) o)
    (hexec : machine.exec i e o w.state = some (ans, s')) :
    (s'.index = w.state.index ∧ ∀ index, o ≠ .putIndex index) ∨
      ∃ index', o = .putIndex index' ∧ s'.index = some index' ∧ Good chunks index' ∧
        ∀ current ∈ w.state.index, current.sealed = false ∧ current.nextSeq ≤ index'.nextSeq := by
  by_cases ho : ∃ index', o = .putIndex index'
  · obtain ⟨index', rfl⟩ := ho
    obtain ⟨hgood, hcurrent⟩ := hw.put_grows hok hcontract
    exact .inr ⟨index', rfl, (Prod.mk.inj (Option.some.inj hexec)).2 ▸ rfl, hgood, hcurrent⟩
  · have ho' : ∀ index, o ≠ .putIndex index := fun index heq => ho ⟨index, heq⟩
    exact .inl ⟨exec_index hexec ho', ho'⟩

variable {j : ℕ}

theorem getIndex_exec {stored : Option ExecutionLogIndex}
    (hexec : machine.exec i e o w.state = some (ans, s'))
    (heq : (⟨j, .getIndex, stored⟩ : Event Op Ans) = ⟨i, o, ans⟩) :
    j = i ∧ o = .getIndex ∧ w.state.index = stored ∧ s' = w.state := by
  cases heq
  cases hexec
  exact ⟨rfl, rfl, rfl, rfl⟩

theorem Covers.step {chunk : ExecutionLogChunk} (h : Covers w.state.index chunk)
    (hstep : (s'.index = w.state.index ∧ ∀ index, o ≠ .putIndex index) ∨
      ∃ index', o = .putIndex index' ∧ s'.index = some index' ∧ Good chunks index' ∧
        ∀ current ∈ w.state.index, current.sealed = false ∧ current.nextSeq ≤ index'.nextSeq) :
    Covers s'.index chunk := by
  obtain ⟨hsame, -⟩ | ⟨index', -, hindex', -, hgrows⟩ := hstep
  · rw [hsame]
    exact h
  · obtain ⟨n, hn, index, hindex, hlt⟩ := h
    exact ⟨n, hn, index', hindex', hlt.trans_le (hgrows index hindex).2⟩

theorem Indexes.push_fresh (hw : Indexes chunks w) (hexec : machine.exec i e o w.state = some (ans, s'))
    {stored : Option ExecutionLogIndex}
    (hsince : Since (IsRead j stored) NoPut (w.push i o ans s').log) : s'.index = stored := by
  obtain hread | ⟨hsince, hno⟩ := since_concat.1 hsince
  · obtain ⟨rfl, heq⟩ := hread
    cases heq
    cases hexec
    rfl
  · rw [exec_index hexec hno]
    exact hw.fresh j stored hsince

section

variable (hw : Indexes chunks w) (hok : Undisturbed i w o)
  (hcontract : Contract chunks commandId (own i w.log) o)
  (hexec : machine.exec i e o w.state = some (ans, s'))
include hw hok hcontract hexec

theorem Indexes.push_saw {ev : Event Op Ans}
    (hev : ev ∈ (w.push i o ans s').log) {index : ExecutionLogIndex} (hsaw : Saw index ev) :
    ∃ current ∈ s'.index, index.nextSeq ≤ current.nextSeq ∧ (index.sealed = true → current = index) := by
  obtain hev | rfl := mem_push.1 hev
  · obtain ⟨current, hcurrent, hle, hsealed⟩ := hw.saw ev hev index hsaw
    obtain ⟨hsame, -⟩ | ⟨index', -, hindex', -, hgrows⟩ := hw.step hok hcontract hexec
    · rw [hsame]
      exact ⟨current, hcurrent, hle, hsealed⟩
    · obtain ⟨hlive, hnext⟩ := hgrows current hcurrent
      refine ⟨index', hindex', hle.trans hnext, fun hidx => ?_⟩
      rw [hsealed hidx, hidx] at hlive
      cases hlive
  · obtain ⟨j, heq | heq⟩ := hsaw
    · obtain ⟨rfl, rfl, hindex, rfl⟩ := getIndex_exec hexec heq.symm
      exact ⟨index, hindex, le_rfl, fun _ => rfl⟩
    · cases heq
      cases hexec
      exact ⟨index, rfl, le_rfl, fun _ => rfl⟩

theorem Indexes.push_acked {chunk : ExecutionLogChunk} {nextSeq : ℕ}
    (hev : ⟨j, .appended chunk nextSeq, ()⟩ ∈ (w.push i o ans s').log) : Covers s'.index chunk := by
  obtain hev | heq := mem_push.1 hev
  · exact (hw.acked j chunk nextSeq hev).step (hw.step hok hcontract hexec)
  · cases heq
    cases hexec
    obtain ⟨n, hn, index, hlt, hknown⟩ := hcontract
    have hsaw : ∃ ev ∈ w.log, Saw index ev := by
      obtain hread | hput := hknown
      · exact ⟨_, mem_own.1 hread, i, .inl rfl⟩
      · exact ⟨_, mem_own.1 hput, i, .inr rfl⟩
    obtain ⟨ev, hev, hsaw⟩ := hsaw
    obtain ⟨current, hcurrent, hle, -⟩ := hw.saw ev hev index hsaw
    exact ⟨n, hn, current, hcurrent, hlt.trans_le hle⟩

/-- **The index is kept.** -/
theorem Indexes.push : Indexes chunks (w.push i o ans s') where
  good index hindex := by
    obtain ⟨hsame, -⟩ | ⟨index', -, hindex', hgood, -⟩ := hw.step hok hcontract hexec
    · exact hw.good index (hsame ▸ hindex)
    · cases hindex'.symm.trans hindex
      exact hgood
  read j index hev := by
    obtain hev | heq := mem_push.1 hev
    · exact hw.read j index hev
    · obtain ⟨-, -, hindex, -⟩ := getIndex_exec hexec heq
      exact hw.good index hindex
  fresh _ _ hsince := hw.push_fresh hexec hsince
  once j stored stored' hev hev' := by
    obtain hold | heq := mem_push.1 hev
    · obtain hold' | heq' := mem_push.1 hev'
      · exact hw.once j stored stored' hold hold'
      · obtain ⟨rfl, rfl, -⟩ := getIndex_exec hexec heq'
        exact absurd (hcontract _ (mem_own.2 hold)) (fun hnow => (nomatch hnow))
    · obtain hold' | heq' := mem_push.1 hev'
      · obtain ⟨rfl, rfl, -⟩ := getIndex_exec hexec heq
        exact absurd (hcontract _ (mem_own.2 hold')) (fun hnow => (nomatch hnow))
      · obtain ⟨-, -, hindex, -⟩ := getIndex_exec hexec heq
        obtain ⟨-, -, hindex', -⟩ := getIndex_exec hexec heq'
        exact hindex.symm.trans hindex'
  saw _ hev _ hsaw := hw.push_saw hok hcontract hexec hev hsaw
  acked _ _ _ hev := hw.push_acked hok hcontract hexec hev
  later before j stored after heq k chunk nextSeq hacked := by
    obtain ⟨-, rfl, hlast⟩ | ⟨after', rfl, hbefore⟩ := concat_eq_append_cons heq
    · obtain ⟨-, -, rfl, -⟩ := getIndex_exec hexec hlast.symm
      exact hw.acked k chunk nextSeq hacked
    · exact hw.later before j stored after' hbefore k chunk nextSeq hacked

end

end

/-! ## The objects -/

/-- What holds of the objects in every world of a run. -/
structure Contents (chunks : ℕ → Bytes) (w : World Op Ans Objects) : Prop where
  indexes : Indexes chunks w
  objects : ∀ partition n bytes, w.state.part partition n = some bytes → bytes = expected chunks n
  /-- The parts of an index that is not sealed are there. -/
  present : ∀ index ∈ w.state.index, index.sealed = false → ∀ part ∈ index.parts,
    (w.state.part index.datePartition part.seq).isSome
  /-- The parts of an index that a call has read are there until one is deleted. -/
  kept : ∀ i index, Since (IsRead i (some index)) NoDelete w.log → index.sealed = false →
    ∀ part ∈ index.parts, (w.state.part index.datePartition part.seq).isSome
  /-- A part that was put is there until the index is sealed. -/
  put : ∀ i partition n bytes, ⟨i, .putPart partition n bytes, ()⟩ ∈ w.log →
    (w.state.part partition n).isSome ∨ ∃ index ∈ w.state.index, index.sealed = true
  whole : ∀ index ∈ w.state.index, index.sealed = true →
    w.state.sealed index.datePartition = some (bytesOf (contentAt chunks index.nextSeq).1)
  /-- The sealed object that a call has put is there until an index is put. -/
  sealing : ∀ i index bytes, Since (IsRead i (some index)) NoPut w.log →
    ⟨i, .putSealed index.datePartition bytes, ()⟩ ∈ w.log →
    w.state.sealed index.datePartition = some (bytesOf (contentAt chunks index.nextSeq).1)
  fetched : ∀ i partition parts served, ⟨i, .getPart partition parts, served⟩ ∈ w.log →
    served.1 ∈ parts ∧ served.2 = some (expected chunks served.1.seq)
  fetchedWhole : ∀ i partition object, ⟨i, .getSealed partition, object⟩ ∈ w.log →
    ∃ index, ⟨i, .getIndex, some index⟩ ∈ w.log ∧ partition = index.datePartition ∧
      object = some (bytesOf (contentAt chunks index.nextSeq).1)
  shown : ∀ i fromSeq maxBytes result, ⟨i, .shown fromSeq maxBytes result, ()⟩ ∈ w.log →
    ∃ stored, ⟨i, .getIndex, stored⟩ ∈ w.log ∧ ∀ index ∈ stored,
      (∀ piece ∈ (contentAt chunks index.nextSeq).1, piece.2.length ≤ maxBytes.natural?.getD 0) →
      Shows chunks index fromSeq maxBytes result

theorem contents_init (chunks : ℕ → Bytes) : Contents chunks ⟨.empty, []⟩ where
  indexes := indexes_init chunks
  objects _ _ _ hpart := nomatch hpart
  present _ hindex := nomatch hindex
  kept _ _ hsince := absurd hsince not_since_nil
  put _ _ _ _ hev := nomatch hev
  whole _ hindex := nomatch hindex
  sealing _ _ _ hsince := absurd hsince not_since_nil
  fetched _ _ _ _ hev := nomatch hev
  fetchedWhole _ _ _ hev := nomatch hev
  shown _ _ _ _ hev := nomatch hev

section

variable {chunks : ℕ → Bytes} {commandId : String} {i : ℕ} {e : Env} {o : Op} {w : World Op Ans Objects}
  {ans : Ans o} {s' : Objects}

variable {partition : ℤ} {index : ExecutionLogIndex} {bytes : Bytes} {j : ℕ} {parts : List ExecutionLogPart}

section

variable (hw : Contents chunks w)
include hw

theorem Contents.sealed_of_delete
    (hcontract : Contract chunks commandId (own i w.log) (.deletePart partition parts)) :
    ∃ index ∈ w.state.index, index.sealed = true := by
  obtain ⟨-, index, hsealed, hput⟩ := hcontract
  obtain ⟨current, hcurrent, -, heq⟩ := hw.indexes.saw _ (mem_own.1 hput) index ⟨i, .inr rfl⟩
  obtain rfl := heq hsealed
  exact ⟨_, hcurrent, hsealed⟩

theorem Contents.push_objects (hcontract : Contract chunks commandId (own i w.log) o)
    (hexec : machine.exec i e o w.state = some (ans, s')) {n : ℕ} (hpart : s'.part partition n = some bytes) :
    bytes = expected chunks n := by
  cases o with
  | putPart partition' n' bytes' =>
    cases hexec
    rw [Objects.setPart] at hpart
    simp only at hpart
    split at hpart
    · rename_i heq
      obtain ⟨stored, now, hread, -, -, hbytes⟩ := hcontract
      cases hpart
      rw [heq.2]
      refine hbytes ?_
      cases stored with
      | none => exact good_create chunks commandId now
      | some index => exact hw.indexes.read i index (mem_own.1 hread.mem)
    · exact hw.objects partition n bytes hpart
  | deletePart partition' parts =>
    obtain ⟨part, -, heq⟩ := map_eq_some_iff.1 hexec
    cases heq
    rw [Objects.setPart] at hpart
    simp only at hpart
    split at hpart
    · cases hpart
    · exact hw.objects partition n bytes hpart
  | getPart partition' parts =>
    obtain ⟨part, -, heq⟩ := map_eq_some_iff.1 hexec
    cases heq
    exact hw.objects partition n bytes hpart
  | _ =>
    cases hexec
    exact hw.objects partition n bytes hpart

theorem Contents.sealed_stays (hok : Undisturbed i w o)
    (hcontract : Contract chunks commandId (own i w.log) o)
    (hexec : machine.exec i e o w.state = some (ans, s'))
    (h : ∃ index ∈ w.state.index, index.sealed = true) : ∃ index ∈ s'.index, index.sealed = true := by
  obtain ⟨hsame, -⟩ | ⟨index', -, -, -, hgrows⟩ := hw.indexes.step hok hcontract hexec
  · rw [hsame]
    exact h
  · obtain ⟨index, hindex, hsealed⟩ := h
    rw [(hgrows index hindex).1] at hsealed
    cases hsealed

theorem Contents.push_put (hok : Undisturbed i w o)
    (hcontract : Contract chunks commandId (own i w.log) o) (hexec : machine.exec i e o w.state = some (ans, s'))
    {n : ℕ} (hev : ⟨j, .putPart partition n bytes, ()⟩ ∈ (w.push i o ans s').log) :
    (s'.part partition n).isSome ∨ ∃ index ∈ s'.index, index.sealed = true := by
  obtain hev | heq := mem_push.1 hev
  · obtain hsome | hsealed := hw.put j partition n bytes hev
    · by_cases ho : ∃ partition' parts, o = .deletePart partition' parts
      · obtain ⟨partition', parts, rfl⟩ := ho
        exact .inr (hw.sealed_stays hok hcontract hexec (hw.sealed_of_delete hcontract))
      · exact .inl (exec_part hexec (fun partition' parts heq => ho ⟨partition', parts, heq⟩) hsome)
    · exact .inr (hw.sealed_stays hok hcontract hexec hsealed)
  · cases heq
    cases hexec
    rw [Objects.setPart]
    simp

theorem Contents.push_present (hok : Undisturbed i w o)
    (hcontract : Contract chunks commandId (own i w.log) o)
    (hexec : machine.exec i e o w.state = some (ans, s')) {index' : ExecutionLogIndex}
    (hindex' : s'.index = some index') (hlive : index'.sealed = false) {part : ExecutionLogPart}
    (hpart : part ∈ index'.parts) : (s'.part index'.datePartition part.seq).isSome := by
  obtain ⟨hsame, -⟩ | ⟨index'', rfl, hindex'', -, -⟩ := hw.indexes.step hok hcontract hexec
  · rw [hsame] at hindex'
    refine exec_part hexec ?_ (hw.present index' hindex' hlive part hpart)
    rintro partition parts rfl
    obtain ⟨index, hindex, hsealed⟩ := hw.sealed_of_delete hcontract
    cases hindex'.symm.trans hindex
    rw [hlive] at hsealed
    cases hsealed
  · cases hindex''.symm.trans hindex'
    cases hexec
    obtain ⟨index, -, hextends, hindex⟩ | ⟨index, now, bytes, -, -, -, -, rfl, -⟩ :=
      hw.indexes.put_cases hok hcontract
    · obtain hold | ⟨bytes, hput⟩ := hextends.put part hpart
      · obtain ⟨-, hnil⟩ | hindex := hindex
        · rw [hnil] at hold
          cases hold
        · rw [hextends.partition]
          exact hw.present index hindex hextends.live part hold
      · refine (hw.put i _ _ _ (mem_own.1 hput)).resolve_right ?_
        rintro ⟨current, hcurrent, hsealed⟩
        obtain ⟨hnone, -⟩ | hindex := hindex
        · rw [hnone] at hcurrent
          cases hcurrent
        · cases hindex.symm.trans hcurrent
          rw [hextends.live] at hsealed
          cases hsealed
    · cases hlive

theorem Contents.push_kept (hexec : machine.exec i e o w.state = some (ans, s'))
    (hsince : Since (IsRead j (some index)) NoDelete (w.push i o ans s').log) (hlive : index.sealed = false)
    {part : ExecutionLogPart} (hpart : part ∈ index.parts) :
    (s'.part index.datePartition part.seq).isSome := by
  obtain ⟨rfl, heq⟩ | ⟨hsince, hno⟩ := since_concat.1 hsince
  · cases heq
    obtain ⟨hindex, rfl⟩ := Prod.mk.inj (Option.some.inj hexec)
    exact hw.present index hindex hlive part hpart
  · exact exec_part hexec hno (hw.kept j index hsince hlive part hpart)

theorem Contents.honest (hread : ⟨i, .getIndex, some index⟩ ∈ w.log) :
    Honest chunks index (own i w.log) := by
  rintro ⟨o, ans⟩ hev hreads
  cases o with
  | getPart partition parts =>
    obtain ⟨hmem, hbytes⟩ := hw.fetched i partition parts ans (mem_own.1 hev)
    obtain ⟨k, hk⟩ := mem_iff_getElem?.1 hmem
    refine ⟨⟨0, k⟩, ideal chunks index, ?_⟩
    change (parts[k]?).map _ = _
    rw [hk, map_some]
    exact congrArg some (Prod.ext (Prod.ext rfl hbytes.symm) rfl)
  | getSealed partition =>
    obtain ⟨index', hread', rfl, rfl⟩ := hw.fetchedWhole i partition ans (mem_own.1 hev)
    obtain rfl := Option.some.inj (hw.indexes.once i _ _ hread hread')
    exact ⟨⟨0, 0⟩, ideal chunks index, rfl⟩
  | _ => exact hreads.elim

theorem Contents.sealed_bytes (hok : Undisturbed i w (.putSealed partition bytes))
    (hcontract : Contract chunks commandId (own i w.log) (.putSealed partition bytes)) :
    ∃ index, w.state.index = some index ∧ index.sealed = false ∧ partition = index.datePartition ∧
      bytes = bytesOf (contentAt chunks index.nextSeq).1 := by
  obtain ⟨index, hread, hlive, hpartition, hbytes⟩ := hcontract
  have hcurrent := hw.indexes.fresh i (some index) (since_isRead hread hok fun _ => noPut_of_quiet)
  have hmem := mem_own.1 hread.mem
  exact ⟨index, hcurrent, hlive, hpartition,
    hbytes (hw.indexes.good index hcurrent) (hw.honest hmem)⟩

theorem Contents.push_whole (hok : Undisturbed i w o)
    (hcontract : Contract chunks commandId (own i w.log) o)
    (hexec : machine.exec i e o w.state = some (ans, s')) {index' : ExecutionLogIndex}
    (hindex' : s'.index = some index') (hsealed : index'.sealed = true) :
    s'.sealed index'.datePartition = some (bytesOf (contentAt chunks index'.nextSeq).1) := by
  obtain ⟨hsame, -⟩ | ⟨index'', rfl, hindex'', -, -⟩ := hw.indexes.step hok hcontract hexec
  · rw [hsame] at hindex'
    rw [exec_sealed hexec]
    · exact hw.whole index' hindex' hsealed
    · rintro partition bytes rfl
      obtain ⟨index, hindex, hlive, -⟩ := hw.sealed_bytes hok hcontract
      cases hindex'.symm.trans hindex
      rw [hlive] at hsealed
      cases hsealed
  · cases hindex''.symm.trans hindex'
    cases hexec
    obtain ⟨index, -, hextends, -⟩ | ⟨index, now, bytes, -, -, -, hsince, rfl, hput⟩ :=
      hw.indexes.put_cases hok hcontract
    · rw [hextends.live'] at hsealed
      cases hsealed
    · exact hw.sealing i index bytes hsince hput

theorem Contents.push_sealing (hok : Undisturbed i w o)
    (hcontract : Contract chunks commandId (own i w.log) o) (hexec : machine.exec i e o w.state = some (ans, s'))
    (hsince : Since (IsRead j (some index)) NoPut (w.push i o ans s').log)
    (hev : ⟨j, .putSealed index.datePartition bytes, ()⟩ ∈ (w.push i o ans s').log) :
    s'.sealed index.datePartition = some (bytesOf (contentAt chunks index.nextSeq).1) := by
  obtain ⟨rfl, heq⟩ | ⟨hbefore, -⟩ := since_concat.1 hsince
  · -- The call reads the index: it has not sealed yet.
    cases heq
    obtain hev | heq := mem_push.1 hev
    · exact absurd (hcontract _ (mem_own.2 hev)) fun hnow => (nomatch hnow)
    · cases heq
  · by_cases ho : ∃ partition bytes', o = .putSealed partition bytes'
    · obtain ⟨partition, bytes', rfl⟩ := ho
      obtain ⟨index', hindex', -, rfl, rfl⟩ := hw.sealed_bytes hok hcontract
      obtain rfl := Option.some.inj ((hw.indexes.fresh j (some index) hbefore).symm.trans hindex')
      cases hexec
      exact if_pos rfl
    · rw [exec_sealed hexec fun partition bytes' heq => ho ⟨partition, bytes', heq⟩]
      obtain hev | heq := mem_push.1 hev
      · exact hw.sealing j index bytes hbefore hev
      · cases heq
        exact absurd ⟨_, _, rfl⟩ ho

theorem Contents.push_fetched (hok : Undisturbed i w o)
    (hcontract : Contract chunks commandId (own i w.log) o) (hexec : machine.exec i e o w.state = some (ans, s'))
    {served : ExecutionLogPart × Option Bytes} (hev : ⟨j, .getPart partition parts,
      served⟩ ∈ (w.push i o ans s').log) :
    served.1 ∈ parts ∧ served.2 = some (expected chunks served.1.seq) := by
  obtain hev | heq := mem_push.1 hev
  · exact hw.fetched j partition parts served hev
  · cases heq
    obtain ⟨index, hread, -, hlive, rfl, hparts⟩ := hcontract
    obtain ⟨part, hget, heq⟩ := map_eq_some_iff.1 hexec
    cases heq
    have hmem := mem_of_getElem? hget
    have hsome := hw.kept i index (since_isRead hread hok fun _ => noDelete_of_quiet) hlive part
      (hparts part hmem)
    obtain ⟨bytes, hbytes⟩ := isSome_iff_exists.1 hsome
    exact ⟨hmem, hbytes.trans (congrArg some (hw.objects _ _ _ hbytes))⟩

theorem Contents.push_fetchedWhole (hcontract : Contract chunks commandId (own i w.log) o)
    (hexec : machine.exec i e o w.state = some (ans, s')) {object : Option Bytes}
    (hev : ⟨j, .getSealed partition, object⟩ ∈ (w.push i o ans s').log) :
    ∃ index, ⟨j, .getIndex, some index⟩ ∈ w.log ∧ partition = index.datePartition ∧
      object = some (bytesOf (contentAt chunks index.nextSeq).1) := by
  obtain hev | heq := mem_push.1 hev
  · exact hw.fetchedWhole j partition object hev
  · cases heq
    obtain ⟨index, hread, hsealed, rfl⟩ := hcontract
    cases hexec
    have hmem := mem_own.1 hread.mem
    obtain ⟨current, hcurrent, -, heq⟩ := hw.indexes.saw _ hmem index ⟨_, .inl rfl⟩
    obtain rfl := heq hsealed
    exact ⟨current, hmem, rfl, hw.whole current hcurrent hsealed⟩

theorem Contents.push_shown (hcontract : Contract chunks commandId (own i w.log) o)
    {fromSeq maxBytes : Number} {result : Option ExecutionLogReadResult}
    (hev : ⟨j, .shown fromSeq maxBytes result, ()⟩ ∈ (w.push i o ans s').log) :
    ∃ stored, ⟨j, .getIndex, stored⟩ ∈ w.log ∧ ∀ index ∈ stored,
      (∀ piece ∈ (contentAt chunks index.nextSeq).1, piece.2.length ≤ maxBytes.natural?.getD 0) →
      Shows chunks index fromSeq maxBytes result := by
  obtain hev | heq := mem_push.1 hev
  · exact hw.shown j fromSeq maxBytes result hev
  · cases heq
    obtain ⟨stored, hread, hshows⟩ := hcontract
    have hmem := mem_own.1 hread.mem
    refine ⟨stored, hmem, fun index hindex hfits => ?_⟩
    obtain rfl := hindex
    exact hshows index rfl (hw.indexes.read _ index hmem) (hw.honest hmem) hfits

/-- **The objects are kept.** -/
theorem Contents.push (hok : Undisturbed i w o)
    (hcontract : Contract chunks commandId (own i w.log) o)
    (hexec : machine.exec i e o w.state = some (ans, s')) : Contents chunks (w.push i o ans s') where
  indexes := hw.indexes.push hok hcontract hexec
  objects _ _ _ hpart := hw.push_objects hcontract hexec hpart
  present _ hindex hlive _ hpart := hw.push_present hok hcontract hexec hindex hlive hpart
  kept _ _ hsince hlive _ hpart := hw.push_kept hexec hsince hlive hpart
  put _ _ _ _ hev := hw.push_put hok hcontract hexec hev
  whole _ hindex hsealed := hw.push_whole hok hcontract hexec hindex hsealed
  sealing _ _ _ hsince hev := hw.push_sealing hok hcontract hexec hsince hev
  fetched _ _ _ _ hev := hw.push_fetched hok hcontract hexec hev
  fetchedWhole _ _ _ hev := by
    obtain ⟨index, hread, hindex⟩ := hw.push_fetchedWhole hcontract hexec hev
    exact ⟨index, mem_push.2 (.inl hread), hindex⟩
  shown _ _ _ _ hev := by
    obtain ⟨stored, hread, hshows⟩ := hw.push_shown hcontract hev
    exact ⟨stored, mem_push.2 (.inl hread), hshows⟩

end

end

/-! ## Acknowledged chunks survive -/

/-- Whatever is read from `0` after a chunk below the cap was acknowledged, with a budget for all
that the index has, is the chunks with smaller numbers, then this one, then more. -/
def AcknowledgedSurvive (chunks : ℕ → Bytes) (log : List (Event Op Ans)) : Prop :=
  ∀ before j chunk nextSeq middle i stored after,
    log = before ++ ⟨j, .appended chunk nextSeq, ()⟩ :: middle ++ ⟨i, .getIndex, stored⟩ :: after →
    ∀ n ∈ chunk.seq.natural?, ((List.range n).flatMap chunks).length < maxExecutionLogTotalBytes →
    ∀ maxBytes result, ⟨i, .shown (.finite (0 : ℕ)) maxBytes result, ()⟩ ∈ after →
    (∀ index ∈ stored, index.totalBytes ≤ maxBytes.natural?.getD 0) →
    ∃ read ∈ result, ∃ rest, read.bytes = (List.range n).flatMap chunks ++ chunks n ++ rest

theorem below_zero (content : List (ℕ × Bytes)) : below 0 content = [] :=
  filter_eq_nil_iff.2 fun _ _ => by simp

theorem length_le_bytesOf {content : List (ℕ × Bytes)} {piece : ℕ × Bytes} (h : piece ∈ content) :
    piece.2.length ≤ (bytesOf content).length := by
  obtain ⟨done, rest, rfl⟩ := append_of_mem h
  rw [bytesOf_append, bytesOf_cons, length_append, length_append]
  omega

section

variable {chunks : ℕ → Bytes} {w : World Op Ans Objects}

theorem shows_all {index : ExecutionLogIndex} (hgood : Good chunks index) {maxBytes : Number}
    (hbudget : index.totalBytes ≤ maxBytes.natural?.getD 0) {result : Option ExecutionLogReadResult}
    (hshows : Shows chunks index (.finite (0 : ℕ)) maxBytes result) :
    ∃ read ∈ result, read.bytes = bytesOf (contentAt chunks index.nextSeq).1 := by
  obtain ⟨window, hresolved, rfl⟩ := hshows
  rw [Number.natural?_natCast, getD_some] at hresolved
  refine ⟨_, rfl, ?_⟩
  have hnil := hresolved.all (hgood.lays.totalBytes ▸ hbudget)
  have hsplit := below_append_onward hgood.lays.increasing window.nextSeq
  rw [hnil, append_nil] at hsplit
  simp only [shapeExecutionLogRead]
  rw [hresolved.start, hresolved.stop, below_zero, hsplit]
  exact slice_self _

theorem Contents.survive (hw : Contents chunks w) : AcknowledgedSurvive chunks w.log := by
  intro before j chunk nextSeq middle i stored after hlog n hn hcap maxBytes result hshown hbudget
  have hacked : ⟨j, .appended chunk nextSeq, ()⟩ ∈ before ++ ⟨j, .appended chunk nextSeq, ()⟩ :: middle :=
    mem_append_right _ mem_cons_self
  obtain ⟨n', hn', index, hindex, hlt⟩ := hw.indexes.later _ i stored after hlog j chunk nextSeq hacked
  cases hn.symm.trans hn'
  have hread : ⟨i, .getIndex, stored⟩ ∈ w.log := by
    rw [hlog]
    exact mem_append_right _ mem_cons_self
  have hlater : ⟨i, .shown (.finite (0 : ℕ)) maxBytes result, ()⟩ ∈ w.log := by
    rw [hlog]
    exact mem_append_right _ (mem_cons_of_mem _ hshown)
  obtain ⟨stored', hread', hshows⟩ := hw.shown i _ maxBytes result hlater
  obtain rfl := hw.indexes.once i _ _ hread hread'
  obtain rfl := hindex
  have hgood := hw.indexes.read i index hread
  have hfits : ∀ piece ∈ (contentAt chunks index.nextSeq).1, piece.2.length ≤ maxBytes.natural?.getD 0 := by
    intro piece hpiece
    refine (length_le_bytesOf hpiece).trans ?_
    rw [← hgood.lays.totalBytes]
    exact hbudget index rfl
  obtain ⟨read, hresult, hbytes⟩ := shows_all hgood (hbudget index rfl) (hshows index rfl hfits)
  obtain ⟨rest, hrest⟩ := bytesOf_contentAt chunks hlt hcap
  exact ⟨read, hresult, rest, hbytes.trans hrest⟩

theorem exists_exec {commandId : String} {h : Trace Op Ans} {o : Op} (hcontract : Contract chunks commandId h o)
    (i : ℕ) (s : Objects) : ∃ e, (machine.exec i e o s).isSome := by
  refine ⟨⟨0, 0⟩, ?_⟩
  cases o with
  | getPart partition parts =>
    obtain ⟨-, -, hparts, -⟩ := hcontract
    obtain ⟨part, rest, rfl⟩ := exists_cons_of_ne_nil hparts
    rfl
  | deletePart partition parts =>
    obtain ⟨part, rest, rfl⟩ := exists_cons_of_ne_nil hcontract.1
    rfl
  | _ => rfl

end

/-- **Acknowledged chunks survive** in every run in which no other call wrote the index since a call
read it, when the call writes the index or the sealed object, and no other call deleted a part
since, when it fetches one; and no call gets stuck. -/
theorem acknowledged_survive (chunks : ℕ → Bytes) (commandId : String)
    (choices : List (Choice Env (Call chunks)))
    (hmeets : Meets machine (body chunks commandId) Undisturbed (.init .empty) choices) :
    let c := (Config.init .empty).run machine (body chunks commandId) choices
    AcknowledgedSurvive chunks c.world.log ∧ ∀ (i : ℕ) (o : Op) (next : Ans o → Proc Unit),
      c.threads[i]? = some (.op o next) → ∃ e, (machine.exec i e o c.world.state).isSome := by
  have hinit : Contents chunks (Config.init .empty : Config Op Ans Objects).world := contents_init chunks
  obtain ⟨hobeys, hinv⟩ := Config.run_inv Contents.push (fun hw => hw) body_obeys answers_of_exec
    (obeys_init .empty) hinit hmeets
  exact ⟨hinv.survive, fun i o next hthread => exists_exec (hobeys.threads i _ hthread).1 i _⟩

/-- Two chunks of one byte. -/
def twoChunks : ℕ → Bytes
  | 0 => [65]
  | 1 => [66]
  | _ => []

def sendChunk (n : ℕ) : Call twoChunks :=
  .append ⟨.finite n, twoChunks n⟩ fun m hm => by
    rw [Option.some.inj ((Number.natural?_natCast n).symm.trans hm)]

/-- The calls of a thread, one after the other. -/
def steps (i count : ℕ) : List (Choice Env (Call twoChunks)) := List.replicate count (.step i ⟨0, 0⟩)

/-- A chunk is appended, and then it is read. -/
def chunkThenRead : List (Choice Env (Call twoChunks)) :=
  .call (sendChunk 0) :: steps 0 5 ++ .call (.read (.finite (0 : ℕ)) (.finite (10 : ℕ))) :: steps 1 3

theorem acknowledged_survive_chunkThenRead :
    Meets machine (body twoChunks "command") Undisturbed (.init .empty) chunkThenRead ∧
      AcknowledgedSurvive twoChunks
        ((Config.init .empty).run machine (body twoChunks "command") chunkThenRead).world.log := by
  have hmeets : Meets machine (body twoChunks "command") Undisturbed (.init .empty) chunkThenRead := by
    refine meets_call _ _ (meets_step _ _ rfl trivial (meets_step _ _ rfl trivial
      (meets_step _ _ rfl trivial (meets_step _ _ rfl ?_ (meets_step _ _ rfl trivial (meets_call _ _
        (meets_step _ _ rfl trivial (meets_step _ _ rfl ?_ (meets_step _ _ rfl trivial trivial)))))))))
    · exact ⟨[_], _, [_], rfl, ⟨rfl, rfl⟩, fun ev hev hother => absurd (mem_singleton.1 hev ▸ rfl) hother⟩
    · exact ⟨[_, _, _, _, _], _, [], rfl, ⟨rfl, rfl⟩, fun _ hev => (nomatch hev)⟩
  exact ⟨hmeets, (acknowledged_survive twoChunks "command" chunkThenRead hmeets).1⟩

/-- A seal reads the index, the second chunk is appended and acknowledged, and the seal goes on. -/
def lateChunk : List (Choice Env (Call twoChunks)) :=
  .call (sendChunk 0) :: steps 0 5 ++ .call .sealLog :: steps 1 1 ++ .call (sendChunk 1) :: steps 2 5 ++
    steps 1 5 ++ .call (.read (.finite (0 : ℕ)) (.finite (10 : ℕ))) :: steps 3 3

def lateChunkLog : List (Event Op Ans) :=
  ((Config.init .empty).run machine (body twoChunks "command") lateChunk).world.log

/-- A seal that read the index before a chunk was appended loses it. -/
theorem late_chunk_is_lost : ¬∀ (chunks : ℕ → Bytes) (commandId : String)
    (choices : List (Choice Env (Call chunks))), AcknowledgedSurvive chunks
      ((Config.init .empty).run machine (body chunks commandId) choices).world.log := by
  intro h
  have hshown : ⟨3, .shown (.finite (0 : ℕ)) (.finite (10 : ℕ)) (some ⟨[65], 1, true, false⟩), ()⟩ ∈
      lateChunkLog.drop 17 := .tail _ (.head _)
  obtain ⟨read, hread, rest, hbytes⟩ := h twoChunks "command" lateChunk (lateChunkLog.take 10) 2
    ⟨.finite (1 : ℕ), [66]⟩ 2 ((lateChunkLog.drop 11).take 5) 3 _ (lateChunkLog.drop 17) rfl 1 rfl
    (by decide) _ _ hshown (fun index hindex => by
      cases hindex
      decide)
  cases hread
  cases hbytes

end TurboPanel.Transcripts
