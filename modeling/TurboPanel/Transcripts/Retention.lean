import TurboPanel.Data.Draining
import TurboPanel.Js.Map
import TurboPanel.Transcripts.Keys

/-!
# Retention of execution logs

A sweep pages through the keys of the bytes from the oldest on, up to the first partition after the
one of the cutoff, and deletes the transcripts that it met, as many as its limit. The age of a
transcript is that of its partition, a whole day, so that transcripts of the cutoff's own day go
with it, and some of them are younger than the retention time: what is promised is kept if there are
none of these (`keepsPromise_iff`).
-/

namespace TurboPanel.Retention

open List Js

/-! ## The store -/

/-- A transcript that is stored: its index, and the objects of its bytes. Its day is one of a year
of four digits. -/
structure Transcript where
  commandId : Text
  createdAt : ℤ
  /-- The sequence numbers of the parts that are stored. -/
  parts : List ℕ
  /-- Whether the sealed object is stored. -/
  sealedObject : Bool
  commandId_ne : commandId ≠ []
  slash_not_mem : '/' ∉ commandId
  year_nonneg : 0 ≤ yearFromDay (createdAt / msPerDay)
  year_le : yearFromDay (createdAt / msPerDay) ≤ 9999
  stored : parts ≠ [] ∨ sealedObject = true

namespace Transcript

def datePartition (t : Transcript) : Text := executionLogDatePartition t.createdAt

/-- The keys of the bytes. -/
def dataKeys (t : Transcript) : List Text :=
  t.parts.map (executionLogPartKey t.datePartition t.commandId) ++
    if t.sealedObject then [executionLogSealedKey t.datePartition t.commandId] else []

def keys (t : Transcript) : List Text := executionLogIndexKey t.commandId :: t.dataKeys

end Transcript

/-- The keys of a store in their order. -/
abbrev Keys := List Text

/-- The keys of a set of transcripts. -/
def storeOf (transcripts : List Transcript) : Keys :=
  (transcripts.flatMap Transcript.keys).dedup.insertionSort (· ≤ ·)

/-- `backend.list(head, limit)`. -/
def listKeys (keys : Keys) (head : Text) (limit : ℕ) : List Text :=
    (keys.filter (head <+: ·)).take limit

/-- `backend.delete(gone)`. -/
def deleteKeys (keys : Keys) (gone : List Text) : Keys := keys.filter (· ∉ gone)

/-- `#deleteTranscript`, with the parts of the index if there is one. -/
def deleteTranscript (keys : Keys) (datePartition commandId : Text)
    (index : Option (List ℕ)) : Keys :=
  let partKeys := match index with
    | some parts => parts.map (executionLogPartKey datePartition commandId)
    | none => listKeys keys (executionLogPartsPrefix datePartition commandId) 1000
  deleteKeys keys (partKeys ++ [executionLogSealedKey datePartition commandId,
    executionLogIndexKey commandId])

/-! ## The sweep -/

/-- `Math.trunc`. -/
def trunc (q : ℚ) : ℤ := if 0 ≤ q then ⌊q⌋ else ⌈q⌉

structure ExecutionLogSweepOptions where
  retentionDays : ℚ
  limit : ℚ
  now : ℤ

namespace ExecutionLogSweepOptions

def boundedLimit (opts : ExecutionLogSweepOptions) : ℕ :=
    (min (max (trunc opts.limit) 1) 1000).toNat

/-- The time that lies the retention time before now. -/
def cutoff (opts : ExecutionLogSweepOptions) : ℚ :=
    opts.now - opts.retentionDays * 24 * 60 * 60 * 1000

/-- `new Date(cutoff)`, which drops a part of a millisecond; the end of the range of dates is left
out. -/
def cutoffMs (opts : ExecutionLogSweepOptions) : ℤ := trunc opts.cutoff

def cutoffPartition (opts : ExecutionLogSweepOptions) : Text :=
    executionLogDatePartition opts.cutoffMs

end ExecutionLogSweepOptions

def sweepKeyPageFactor : ℕ := 4

/-- The commands of the page by partition, up to the first partition that is not expired. -/
def collectExpired (cutoffPartition : Text) : List Text → Map Text (List Text) →
    Map Text (List Text)
  | [], expired => expired
  | key :: keys, expired =>
    match datePartitionFromExecutionLogDataKey key with
    | none => collectExpired cutoffPartition keys expired
    | some partition =>
      if parseExecutionLogDatePartition partition = none then
        collectExpired cutoffPartition keys expired
      else if partition > cutoffPartition then expired
      else
        match commandIdFromExecutionLogDataKey key partition with
        | none => collectExpired cutoffPartition keys expired
        | some commandId =>
          if commandId = [] then collectExpired cutoffPartition keys expired
          else
            let ids := (expired.get? partition).getD []
            collectExpired cutoffPartition keys (expired.set partition (setAdd ids commandId))

/-- The transcripts to delete, in the order in which they were met. -/
def pendingOf (expired : Map Text (List Text)) : List (Text × Text) :=
  expired.entries.flatMap fun (partition, commandIds) => commandIds.map fun commandId =>
    (partition, commandId)

/-- One deletion after the other, none after the limit. -/
def deletePending (limit : ℕ) : List (Text × Text) → Keys → ℕ → Keys × ℕ
  | [], keys, removed => (keys, removed)
  | (partition, commandId) :: pending, keys, removed =>
    if removed ≥ limit then deletePending limit pending keys removed
    else deletePending limit pending (deleteTranscript keys partition commandId none) (removed + 1)

/-- The keys that are left, and how many transcripts were removed. -/
def sweepExpired (opts : ExecutionLogSweepOptions) (keys : Keys) : Keys × ℕ :=
  let limit := opts.boundedLimit
  let page := listKeys keys (executionLogDataPrefix ++ ['/']) (limit * sweepKeyPageFactor)
  deletePending limit (pendingOf (collectExpired opts.cutoffPartition page Map.empty)) keys 0

/-- The keys that are left after some sweeps with the same options. -/
def sweeps (opts : ExecutionLogSweepOptions) (n : ℕ) (keys : Keys) : Keys :=
    (fun k => (sweepExpired opts k).1)^[n] keys

/-! ## What a key says -/

variable {expired : Map Text (List Text)} {partition commandId : Text} {keys : Keys} {key : Text}
  {pending : List (Text × Text)} (t : Transcript)

theorem mem_storeOf {transcripts : List Transcript} :
    key ∈ storeOf transcripts ↔ ∃ t ∈ transcripts, key ∈ t.keys := by
  rw [storeOf, (perm_insertionSort _ _).mem_iff, mem_dedup, mem_flatMap]

theorem Transcript.isPartition : IsPartition t.datePartition :=
  isPartition_executionLogDatePartition t.year_nonneg t.year_le

theorem Transcript.of_mem_dataKeys {t : Transcript} (h : key ∈ t.dataKeys) :
    (∃ rest, key = dataKey t.datePartition rest) ∧
      commandIdFromExecutionLogDataKey key t.datePartition = some t.commandId := by
  rw [Transcript.dataKeys, mem_append, mem_map] at h
  obtain ⟨seq, -, rfl⟩ | h := h
  · rw [executionLogPartKey_eq]
    exact ⟨⟨_, rfl⟩, commandIdFromExecutionLogDataKey_slash t.commandId_ne t.slash_not_mem _ _⟩
  · split at h
    · obtain rfl := mem_singleton.1 h
      exact ⟨⟨_, rfl⟩, commandIdFromExecutionLogDataKey_sealed t.slash_not_mem _⟩
    · cases h

theorem Transcript.datePartition_of_mem {t : Transcript} (h : key ∈ t.dataKeys) :
    datePartitionFromExecutionLogDataKey key = some t.datePartition := by
  obtain ⟨⟨rest, rfl⟩, -⟩ := t.of_mem_dataKeys h
  exact datePartitionFromExecutionLogDataKey_dataKey t.isPartition rest

theorem not_prefix_indexKey (commandId : Text) :
    ¬ (executionLogDataPrefix ++ ['/']) <+: executionLogIndexKey commandId := by
  intro h
  have hshort : (executionLogDataPrefix ++ ['/']) <+: executionLogIndexPrefix :=
    prefix_of_prefix_length_le h (prefix_append _ _) (by decide)
  exact absurd hshort (by decide)

theorem datePartitionFromExecutionLogDataKey_indexKey (commandId : Text) :
    datePartitionFromExecutionLogDataKey (executionLogIndexKey commandId) = none := by
  rw [datePartitionFromExecutionLogDataKey, if_pos (not_prefix_indexKey commandId)]

theorem indexKey_injective {a b : Text}
    (h : executionLogIndexKey a = executionLogIndexKey b) : a = b := by
  rw [executionLogIndexKey, executionLogIndexKey, append_cancel_left_eq, List.cons.injEq,
    append_cancel_right_eq] at h
  exact h.2

/-- The keys that the deletion of a transcript may take. -/
def Touches (partition commandId key : Text) : Prop :=
  executionLogPartsPrefix partition commandId <+: key ∨
    key = executionLogSealedKey partition commandId ∨
    key = executionLogIndexKey commandId

/-- **A deletion takes the keys of its own transcript only.** -/
theorem Transcript.commandId_eq_of_touches {t : Transcript} {partition commandId key : Text}
    (hpartition : IsPartition partition) (hne : commandId ≠ []) (hslash : '/' ∉ commandId)
    (hkey : key ∈ t.keys)
    (h : Touches partition commandId key) : t.commandId = commandId := by
  have hdata : key ∈ t.dataKeys → datePartitionFromExecutionLogDataKey key = some partition →
      commandIdFromExecutionLogDataKey key partition = some commandId →
        t.commandId = commandId := by
    intro hmem hdate hcommand
    rw [t.datePartition_of_mem hmem, Option.some.injEq] at hdate
    rw [← hdate, (t.of_mem_dataKeys hmem).2] at hcommand
    exact Option.some.inj hcommand
  have hbytes : datePartitionFromExecutionLogDataKey key = some partition →
      commandIdFromExecutionLogDataKey key partition = some commandId →
        t.commandId = commandId := by
    intro hdate hcommand
    obtain rfl | hmem := mem_cons.1 hkey
    · rw [datePartitionFromExecutionLogDataKey_indexKey] at hdate
      cases hdate
    · exact hdata hmem hdate hcommand
  obtain ⟨rest, rfl⟩ | rfl | rfl := h
  · have hform : executionLogPartsPrefix partition commandId ++ rest = dataKey partition
        (commandId ++ '/' :: rest) := by
      simp [executionLogPartsPrefix, dataKey]
    rw [hform] at hbytes
    exact hbytes (datePartitionFromExecutionLogDataKey_dataKey hpartition _)
      (commandIdFromExecutionLogDataKey_slash hne hslash partition rest)
  · exact hbytes (datePartitionFromExecutionLogDataKey_dataKey hpartition _)
      (commandIdFromExecutionLogDataKey_sealed hslash partition)
  · obtain hindex | hmem := mem_cons.1 hkey
    · exact (indexKey_injective hindex).symm
    · have hdate := t.datePartition_of_mem hmem
      rw [datePartitionFromExecutionLogDataKey_indexKey] at hdate
      cases hdate

/-! ## Deletions -/

theorem deleteTranscript_sublist (keys : Keys) (partition commandId : Text)
    (index : Option (List ℕ)) :
    (deleteTranscript keys partition commandId index).Sublist keys := filter_sublist

theorem mem_deleteTranscript {partition commandId key : Text} (hkey : key ∈ keys)
    (h : ¬ Touches partition commandId key) :
    key ∈ deleteTranscript keys partition commandId none := by
  rw [Touches, not_or, not_or] at h
  refine mem_filter.2 ⟨hkey, decide_eq_true fun hgone => ?_⟩
  rw [mem_append, mem_cons, mem_singleton] at hgone
  obtain hpart | hsealed | hindex := hgone
  · exact h.1 (of_decide_eq_true (mem_filter.1 (mem_of_mem_take hpart)).2)
  · exact h.2.1 hsealed
  · exact h.2.2 hindex

theorem not_mem_deleteTranscript (keys : Keys) (partition commandId : Text) :
    executionLogSealedKey partition commandId ∉ deleteTranscript keys partition commandId none ∧
      executionLogIndexKey commandId ∉ deleteTranscript keys partition commandId none := by
  constructor
  · intro h
    exact of_decide_eq_true (mem_filter.1 h).2 (by simp)
  · intro h
    exact of_decide_eq_true (mem_filter.1 h).2 (by simp)

/-- Deletions one after the other. -/
def deleteAll (pending : List (Text × Text)) (keys : Keys) : Keys :=
  pending.foldl (fun keys transcript => deleteTranscript keys transcript.1 transcript.2 none) keys

theorem deletePending_eq (limit : ℕ) (pending : List (Text × Text)) (keys : Keys) (removed : ℕ) :
    deletePending limit pending keys removed =
      (deleteAll (pending.take (limit - removed)) keys,
      removed + (pending.take (limit - removed)).length) := by
  induction pending generalizing keys removed with
  | nil => simp [deletePending, deleteAll]
  | cons transcript pending ih =>
    obtain ⟨partition, commandId⟩ := transcript
    rw [deletePending]
    split
    · rename_i hfull
      rw [ih, Nat.sub_eq_zero_of_le hfull]
      rfl
    · rename_i hfull
      obtain ⟨k, hk⟩ : ∃ k, limit - removed = k + 1 := ⟨limit - removed - 1, by omega⟩
      rw [ih, hk, show limit - (removed + 1) = k by omega, take_succ_cons, length_cons]
      refine Prod.ext rfl ?_
      dsimp only
      omega

theorem deleteAll_sublist (pending : List (Text × Text)) (keys : Keys) :
    (deleteAll pending keys).Sublist keys := by
  induction pending generalizing keys with
  | nil => exact List.Sublist.refl _
  | cons transcript pending ih => exact (ih _).trans (deleteTranscript_sublist _ _ _ _)

theorem exists_touches (hkey : key ∈ keys) (hgone : key ∉ deleteAll pending keys) :
    ∃ transcript ∈ pending, Touches transcript.1 transcript.2 key := by
  induction pending generalizing keys with
  | nil => exact absurd hkey hgone
  | cons transcript pending ih =>
    by_cases htouches : Touches transcript.1 transcript.2 key
    · exact ⟨transcript, mem_cons_self, htouches⟩
    · obtain ⟨other, hmem, htouches⟩ := ih (mem_deleteTranscript hkey htouches) hgone
      exact ⟨other, mem_cons_of_mem _ hmem, htouches⟩

theorem not_mem_deleteAll {transcript : Text × Text} (h : transcript ∈ pending) (keys : Keys) :
    executionLogSealedKey transcript.1 transcript.2 ∉ deleteAll pending keys ∧
      executionLogIndexKey transcript.2 ∉ deleteAll pending keys := by
  induction pending generalizing keys with
  | nil => cases h
  | cons first pending ih =>
    obtain rfl | h := mem_cons.1 h
    · obtain ⟨hsealed, hindex⟩ := not_mem_deleteTranscript keys transcript.1 transcript.2
      exact ⟨fun hmem => hsealed ((deleteAll_sublist pending _).subset hmem),
        fun hmem => hindex ((deleteAll_sublist pending _).subset hmem)⟩
    · exact ih h _

/-! ## The page -/

theorem mem_pendingOf :
    (partition, commandId) ∈ pendingOf expired ↔
    ∃ ids, expired.get? partition = some ids ∧ commandId ∈ ids := by
  rw [pendingOf, mem_flatMap]
  constructor
  · rintro ⟨⟨p, ids⟩, hentry, hmem⟩
    obtain ⟨id, hid, heq⟩ := mem_map.1 hmem
    cases heq
    exact ⟨ids, Map.get?_eq_some_iff.2 hentry, hid⟩
  · rintro ⟨ids, hget, hid⟩
    exact ⟨(partition, ids), Map.get?_eq_some_iff.1 hget, mem_map.2 ⟨commandId, hid, rfl⟩⟩

/-- A transcript of a partition that is expired, by one of its keys. -/
def Expired (cutoffPartition key partition commandId : Text) : Prop :=
  datePartitionFromExecutionLogDataKey key = some partition ∧ ¬ cutoffPartition < partition ∧
    commandIdFromExecutionLogDataKey key partition = some commandId

/-- **What is collected is expired**, by a key of the page. -/
theorem expired_of_mem_pendingOf {cutoffPartition : Text} {page : List Text}
    (h : (partition, commandId) ∈ pendingOf (collectExpired cutoffPartition page expired)) :
    (partition, commandId) ∈ pendingOf expired ∨ ∃ key ∈ page,
    Expired cutoffPartition key partition commandId := by
  induction page generalizing expired with
  | nil => exact .inl h
  | cons key page ih =>
    have hlater : ∀ {expired},
      (partition, commandId) ∈ pendingOf (collectExpired cutoffPartition page expired) →
        (partition, commandId) ∈ pendingOf expired ∨
          ∃ key' ∈ key :: page, Expired cutoffPartition key' partition commandId := by
      intro expired h
      exact (ih h).imp_right fun ⟨key', hmem, hkey'⟩ => ⟨key', mem_cons_of_mem _ hmem, hkey'⟩
    rw [collectExpired] at h
    split at h
    · exact hlater h
    · rename_i p hdate
      split at h
      · exact hlater h
      · split at h
        · exact .inl h
        · rename_i hcutoff
          split at h
          · exact hlater h
          · rename_i id hcommand
            split at h
            · exact hlater h
            · obtain hset | hfound := hlater h
              · obtain ⟨ids, hget, hmem⟩ := mem_pendingOf.1 hset
                rw [Map.get?_set] at hget
                split at hget
                · rename_i heq
                  subst heq
                  rw [← Option.some.inj hget, mem_setAdd] at hmem
                  obtain hold | rfl := hmem
                  · cases hids : expired.get? partition with
                    | none =>
                      rw [hids, Option.getD_none] at hold
                      cases hold
                    | some ids =>
                      rw [hids, Option.getD_some] at hold
                      exact .inl (mem_pendingOf.2 ⟨ids, hids, hold⟩)
                  · exact .inr ⟨key, mem_cons_self, hdate, hcutoff, hcommand⟩
                · exact .inl (mem_pendingOf.2 ⟨ids, hget, hmem⟩)
              · exact .inr hfound

/-- A map whose first transcript is a given one. -/
def StartsWith (expired : Map Text (List Text)) (partition commandId : Text) : Prop :=
  ∃ ids rest, expired.entries = (partition, commandId :: ids) :: rest

section

variable (h : StartsWith expired partition commandId)
include h

theorem StartsWith.set (p id : Text) :
    StartsWith (expired.set p (setAdd ((expired.get? p).getD []) id)) partition commandId := by
  obtain ⟨ids, rest, hentries⟩ := h
  by_cases hp : partition = p
  · subst hp
    have hget : expired.get? partition = some (commandId :: ids) :=
      Map.get?_eq_some_iff.2 (hentries ▸ mem_cons_self)
    have hset : (expired.set partition (setAdd (commandId :: ids) id)).entries =
        (partition, setAdd (commandId :: ids) id) :: rest := by
      change setEntry _ _ expired.entries = _
      rw [hentries, setEntry, if_pos rfl]
    rw [hget, Option.getD_some]
    rw [setAdd] at hset ⊢
    split at hset
    · rename_i hmem
      rw [if_pos hmem]
      exact ⟨ids, rest, hset⟩
    · rename_i hmem
      rw [if_neg hmem]
      exact ⟨ids ++ [id], rest, hset⟩
  · refine ⟨ids, setEntry p (setAdd ((expired.get? p).getD []) id) rest, ?_⟩
    change setEntry _ _ expired.entries = _
    rw [hentries, setEntry, if_neg hp]

theorem StartsWith.collectExpired (cutoffPartition : Text) (page : List Text) :
    StartsWith (collectExpired cutoffPartition page expired) partition commandId := by
  induction page generalizing expired with
  | nil => exact h
  | cons key page ih =>
    rw [Retention.collectExpired]
    split
    · exact ih h
    · split
      · exact ih h
      · split
        · exact h
        · split
          · exact ih h
          · split
            · exact ih h
            · exact ih (h.set _ _)

theorem StartsWith.pendingOf : ∃ rest, pendingOf expired = (partition, commandId) :: rest := by
  obtain ⟨ids, rest, hentries⟩ := h
  rw [Retention.pendingOf, hentries]
  exact ⟨_, rfl⟩

end

/-- **The transcript of the first key is the first that is collected**, if it is expired. -/
theorem startsWith_collectExpired {cutoffPartition key partition commandId : Text}
    (hpartition : IsPartition partition)
    (hne : commandId ≠ []) (h : Expired cutoffPartition key partition commandId)
    (page : List Text) :
    StartsWith (collectExpired cutoffPartition (key :: page) Map.empty) partition commandId := by
  obtain ⟨hdate, hcutoff, hcommand⟩ := h
  rw [collectExpired, hdate]
  dsimp only
  rw [if_neg (parseExecutionLogDatePartition_isSome hpartition), if_neg hcutoff, hcommand]
  dsimp only
  rw [if_neg hne]
  exact StartsWith.collectExpired ⟨[], [], rfl⟩ cutoffPartition page

/-! ## One sweep -/

variable {transcripts : List Transcript} {opts : ExecutionLogSweepOptions}

theorem ExecutionLogSweepOptions.boundedLimit_pos (opts : ExecutionLogSweepOptions) :
    0 < opts.boundedLimit := by
  rw [ExecutionLogSweepOptions.boundedLimit]
  omega

/-- The transcripts that a sweep deletes. -/
def swept (opts : ExecutionLogSweepOptions) (keys : Keys) : List (Text × Text) :=
  (pendingOf (collectExpired opts.cutoffPartition
    (listKeys keys (executionLogDataPrefix ++ ['/']) (opts.boundedLimit * sweepKeyPageFactor))
      Map.empty)).take
      opts.boundedLimit

theorem sweepExpired_eq (opts : ExecutionLogSweepOptions) (keys : Keys) :
    sweepExpired opts keys = (deleteAll (swept opts keys) keys, (swept opts keys).length) := by
  rw [sweepExpired, deletePending_eq, Nat.sub_zero, Nat.zero_add]
  rfl

theorem sweepExpired_sublist (opts : ExecutionLogSweepOptions) (keys : Keys) :
    (sweepExpired opts keys).1.Sublist keys := by
  rw [sweepExpired_eq]
  exact deleteAll_sublist _ _

/-- The keys of a store on the way: some of those of the transcripts, in order. -/
structure Stored (transcripts : List Transcript) (keys : Keys) : Prop where
  ordered : keys.Pairwise (· ≤ ·)
  owned : ∀ key ∈ keys, ∃ t ∈ transcripts, key ∈ t.keys

theorem Stored.sublist {keys keys' : Keys} (h : Stored transcripts keys)
    (hsub : keys'.Sublist keys) :
    Stored transcripts keys' :=
  ⟨h.ordered.sublist hsub, fun key hkey => h.owned key (hsub.subset hkey)⟩

theorem stored_storeOf (transcripts : List Transcript) : Stored transcripts (storeOf transcripts) :=
  ⟨pairwise_insertionSort _ _, fun _ hkey => mem_storeOf.1 hkey⟩

theorem Stored.exists_dataKeys (h : Stored transcripts keys) {key partition : Text}
    (hkey : key ∈ keys)
    (hdate : datePartitionFromExecutionLogDataKey key = some partition) :
    ∃ t ∈ transcripts, key ∈ t.dataKeys ∧ t.datePartition = partition := by
  obtain ⟨t, ht, hmem⟩ := h.owned key hkey
  obtain rfl | hmem := mem_cons.1 hmem
  · rw [datePartitionFromExecutionLogDataKey_indexKey] at hdate
    cases hdate
  · refine ⟨t, ht, hmem, ?_⟩
    rw [t.datePartition_of_mem hmem] at hdate
    exact Option.some.inj hdate

/-- **What a sweep deletes is a transcript of a partition that is expired.** -/
theorem Stored.of_mem_swept (h : Stored transcripts keys) {transcript : Text × Text}
    (hswept : transcript ∈ swept opts keys) :
    ∃ t ∈ transcripts, transcript = (t.datePartition, t.commandId) ∧
    t.datePartition ≤ opts.cutoffPartition := by
  obtain ⟨partition, commandId⟩ := transcript
  obtain hnone | ⟨key, hpage, hdate, hcutoff, hcommand⟩ :=
    expired_of_mem_pendingOf (mem_of_mem_take hswept)
  · cases hnone
  · have hkey : key ∈ keys := (mem_filter.1 (mem_of_mem_take hpage)).1
    obtain ⟨t, ht, hmem, rfl⟩ := h.exists_dataKeys hkey hdate
    rw [(t.of_mem_dataKeys hmem).2] at hcommand
    exact ⟨t, ht, by rw [Option.some.inj hcommand], not_lt.1 hcutoff⟩

theorem Stored.mem_swept (h : Stored transcripts keys)
    (hdistinct : (transcripts.map Transcript.commandId).Nodup)
    {t : Transcript} (ht : t ∈ transcripts) (hmem : key ∈ t.keys) (hkey : key ∈ keys)
    (hgone : key ∉ (sweepExpired opts keys).1) :
    (t.datePartition, t.commandId) ∈ swept opts keys ∧ t.datePartition ≤ opts.cutoffPartition := by
  rw [sweepExpired_eq] at hgone
  obtain ⟨transcript, hswept, htouches⟩ := exists_touches hkey hgone
  obtain ⟨other, hother, rfl, hcutoff⟩ := h.of_mem_swept hswept
  have hid := t.commandId_eq_of_touches other.isPartition other.commandId_ne other.slash_not_mem
    hmem htouches
  obtain rfl := inj_on_of_nodup_map hdistinct ht hother hid
  exact ⟨hswept, hcutoff⟩

theorem not_mem_deleteTranscript_of_first {rest : List Text} {t : Transcript}
    (hfirst : keys.filter ((executionLogDataPrefix ++ ['/']) <+: ·) = key :: rest)
    (hmem : key ∈ t.dataKeys) :
    key ∉ deleteTranscript keys t.datePartition t.commandId none := by
  have hpart : key ∈ listKeys keys (executionLogPartsPrefix t.datePartition t.commandId) 1000 ∨
      key = executionLogSealedKey t.datePartition t.commandId := by
    rw [Transcript.dataKeys, mem_append, mem_map] at hmem
    obtain ⟨seq, -, rfl⟩ | hsealed := hmem
    · left
      -- the keys of the parts are among the keys of bytes, so that its first one is the first of
      -- all
      have hhead : executionLogPartsPrefix t.datePartition t.commandId <+:
          executionLogPartKey t.datePartition t.commandId seq := prefix_append _ _
      have hsub : keys.filter (executionLogPartsPrefix t.datePartition t.commandId <+: ·) =
          (keys.filter ((executionLogDataPrefix ++ ['/']) <+: ·)).filter
            (executionLogPartsPrefix t.datePartition t.commandId <+: ·) := by
        rw [filter_filter]
        refine filter_congr fun other _ => ?_
        rw [Bool.eq_iff_iff, Bool.and_eq_true, decide_eq_true_iff, decide_eq_true_iff]
        refine ⟨fun h => ⟨h, List.IsPrefix.trans ?_ h⟩, fun h => h.1⟩
        rw [executionLogPartsPrefix, dataKey, append_cons]
        exact prefix_append _ _
      rw [listKeys, hsub, hfirst, filter_cons, if_pos (decide_eq_true hhead)]
      exact mem_cons_self
    · right
      split at hsealed
      · exact mem_singleton.1 hsealed
      · cases hsealed
  intro h
  refine of_decide_eq_true (mem_filter.1 h).2 ?_
  rw [mem_append, mem_cons]
  exact hpart.imp_right .inl

/-- **A sweep takes something away** as long as there is a key of a partition that is expired. -/
theorem Stored.length_lt (h : Stored transcripts keys) {key partition : Text} (hkey : key ∈ keys)
    (hdate : datePartitionFromExecutionLogDataKey key = some partition)
    (hcutoff : partition ≤ opts.cutoffPartition) :
    (sweepExpired opts keys).1.length < keys.length := by
  have hhead : (executionLogDataPrefix ++ ['/']) <+: key := by
    by_contra hnot
    rw [datePartitionFromExecutionLogDataKey, if_pos hnot] at hdate
    cases hdate
  cases hdata : keys.filter ((executionLogDataPrefix ++ ['/']) <+: ·) with
  | nil =>
    have hmem : key ∈ keys.filter ((executionLogDataPrefix ++ ['/']) <+: ·) :=
      mem_filter.2 ⟨hkey, decide_eq_true hhead⟩
    rw [hdata] at hmem
    cases hmem
  | cons first rest =>
    have hfirst : first ∈ keys.filter ((executionLogDataPrefix ++ ['/']) <+: ·) :=
      hdata ▸ mem_cons_self
    have hfirstKeys : first ∈ keys := (mem_filter.1 hfirst).1
    have hle : first ≤ key := by
      have hordered := h.ordered.sublist (@List.filter_sublist _ (decide <|
          (executionLogDataPrefix ++ ['/']) <+: ·) keys)
      have hmem : key ∈ keys.filter ((executionLogDataPrefix ++ ['/']) <+: ·) :=
        mem_filter.2 ⟨hkey, decide_eq_true hhead⟩
      rw [hdata] at hordered hmem
      obtain rfl | hlater := mem_cons.1 hmem
      · exact le_refl _
      · exact (pairwise_cons.1 hordered).1 key hlater
    obtain ⟨t, ht, hmem, hpartition⟩ := h.exists_dataKeys hkey hdate
    obtain ⟨⟨s, hs⟩, -⟩ := t.of_mem_dataKeys hmem
    obtain ⟨t₁, ht₁, hmem₁⟩ : ∃ t₁ ∈ transcripts, first ∈ t₁.dataKeys := by
      obtain ⟨t₁, ht₁, hmem₁⟩ := h.owned first hfirstKeys
      obtain rfl | hmem₁ := mem_cons.1 hmem₁
      · exact absurd (of_decide_eq_true (mem_filter.1 hfirst).2) (not_prefix_indexKey t₁.commandId)
      · exact ⟨t₁, ht₁, hmem₁⟩
    obtain ⟨⟨s₁, hs₁⟩, hcommand₁⟩ := t₁.of_mem_dataKeys hmem₁
    have hpartition₁ : t₁.datePartition ≤ opts.cutoffPartition := by
      rw [hs, hs₁] at hle
      exact (dataKey_le t₁.isPartition t.isPartition hle).trans (hpartition ▸ hcutoff)
    obtain ⟨k, hk⟩ : ∃ k, opts.boundedLimit * sweepKeyPageFactor = k + 1 :=
      ⟨opts.boundedLimit * sweepKeyPageFactor - 1, by
        have hpos := opts.boundedLimit_pos
        rw [sweepKeyPageFactor]
        omega⟩
    have hstarts := startsWith_collectExpired t₁.isPartition t₁.commandId_ne
      ⟨t₁.datePartition_of_mem hmem₁, not_lt.2 hpartition₁, hcommand₁⟩ (rest.take k)
    obtain ⟨others, hpending⟩ := hstarts.pendingOf
    obtain ⟨l, hl⟩ : ∃ l, opts.boundedLimit = l + 1 := ⟨opts.boundedLimit - 1, by
      have hpos := opts.boundedLimit_pos
      omega⟩
    have hswept : swept opts keys = (t₁.datePartition, t₁.commandId) :: others.take l := by
      rw [swept, listKeys, hdata, hk, take_succ_cons, hpending, hl, take_succ_cons]
    have hgone : first ∉ (sweepExpired opts keys).1 := by
      rw [sweepExpired_eq, hswept]
      exact fun hleft => not_mem_deleteTranscript_of_first hdata hmem₁
        ((deleteAll_sublist _ _).subset hleft)
    refine lt_of_le_of_ne (sweepExpired_sublist opts keys).length_le fun heq => hgone ?_
    rwa [(sweepExpired_sublist opts keys).eq_of_length heq]

/-! ## Sweep after sweep -/

/-- A set of transcripts. There is one index for a command. -/
structure TranscriptSet where
  transcripts : List Transcript
  distinct : (transcripts.map Transcript.commandId).Nodup

namespace TranscriptSet

/-- The keys that are left of a set of transcripts after some sweeps. -/
def after (stock : TranscriptSet) (opts : ExecutionLogSweepOptions) (n : ℕ) : Keys :=
  sweeps opts n (storeOf stock.transcripts)

/-- A sweep takes something of a transcript. -/
def Loses (stock : TranscriptSet) (opts : ExecutionLogSweepOptions) (n : ℕ)
    (t : Transcript) : Prop :=
  ∃ key ∈ t.keys, key ∈ stock.after opts n ∧ key ∉ stock.after opts (n + 1)

variable {stock : TranscriptSet}

theorem after_succ (stock : TranscriptSet) (opts : ExecutionLogSweepOptions) (n : ℕ) :
    stock.after opts (n + 1) = (sweepExpired opts (stock.after opts n)).1 :=
  Function.iterate_succ_apply' _ _ _

theorem stored_after (stock : TranscriptSet) (opts : ExecutionLogSweepOptions) (n : ℕ) :
    Stored stock.transcripts (stock.after opts n) :=
  Draining.iterate_invariant (fun keys h => h.sublist (sweepExpired_sublist opts keys))
    (stored_storeOf _) n

theorem Loses.mem_swept {n : ℕ} {t : Transcript} (ht : t ∈ stock.transcripts)
    (h : stock.Loses opts n t) :
    (t.datePartition, t.commandId) ∈ swept opts (stock.after opts n) ∧
    t.datePartition ≤ opts.cutoffPartition := by
  obtain ⟨key, hmem, hkey, hgone⟩ := h
  rw [after_succ] at hgone
  exact (stock.stored_after opts n).mem_swept stock.distinct ht hmem hkey hgone

theorem whole_or_gone (stock : TranscriptSet) (opts : ExecutionLogSweepOptions) {t : Transcript}
    (ht : t ∈ stock.transcripts) (n : ℕ) : (∀ key ∈ t.keys, key ∈ stock.after opts n) ∨
      executionLogSealedKey t.datePartition t.commandId ∉ stock.after opts n ∧
        executionLogIndexKey t.commandId ∉ stock.after opts n := by
  induction n with
  | zero => exact .inl fun key hkey => mem_storeOf.2 ⟨t, ht, hkey⟩
  | succ n ih =>
    obtain hwhole | hgone := ih
    · by_cases hloses : stock.Loses opts n t
      · rw [after_succ, sweepExpired_eq]
        exact .inr (not_mem_deleteAll (hloses.mem_swept ht).1 _)
      · refine .inl fun key hkey => ?_
        by_contra hlost
        exact hloses ⟨key, hkey, hwhole key hkey, hlost⟩
    · have hsub : (stock.after opts (n + 1)).Sublist (stock.after opts n) := by
        rw [after_succ]
        exact sweepExpired_sublist _ _
      exact .inr ⟨fun hmem => hgone.1 (hsub.subset hmem), fun hmem => hgone.2 (hsub.subset hmem)⟩

/-- **In the end nothing is left of the partitions that are expired.** -/
theorem exists_swept (stock : TranscriptSet) (opts : ExecutionLogSweepOptions) :
    ∃ n, ∀ m, n ≤ m → ∀ t ∈ stock.transcripts, t.datePartition ≤ opts.cutoffPartition →
      ∀ key ∈ t.keys, key ∉ stock.after opts m := by
  obtain ⟨n, hn⟩ : ∃ n, ∀ m, n ≤ m → ∀ key ∈ stock.after opts m,
      ¬ ∃ partition, datePartitionFromExecutionLogDataKey key = some partition ∧
        partition ≤ opts.cutoffPartition :=
    Draining.exists_drained (fun keys => sweepExpired_sublist opts keys)
      (fun keys (h : Stored stock.transcripts keys) => h.sublist (sweepExpired_sublist opts keys))
      (fun keys h key hkey ⟨partition, hdate, hcutoff⟩ => h.length_lt hkey hdate hcutoff)
        (stored_storeOf _)
  refine ⟨n, fun m hm t ht hcutoff => ?_⟩
  have hdata : ∀ key ∈ t.dataKeys, key ∉ stock.after opts m := fun key hkey hleft =>
    hn m hm key hleft ⟨_, t.datePartition_of_mem hkey, hcutoff⟩
  obtain ⟨first, hfirst⟩ : ∃ key, key ∈ t.dataKeys := by
    obtain hparts | hsealed := t.stored
    · obtain ⟨seq, parts, hcons⟩ := exists_cons_of_ne_nil hparts
      exact ⟨_, mem_append_left _ (mem_map_of_mem (hcons ▸ mem_cons_self))⟩
    · refine ⟨executionLogSealedKey t.datePartition t.commandId, mem_append_right _ ?_⟩
      rw [if_pos hsealed]
      exact mem_singleton_self _
  have hindex : executionLogIndexKey t.commandId ∉ stock.after opts m := by
    obtain hwhole | hgone := stock.whole_or_gone opts ht m
    · exact absurd (hwhole first (mem_cons_of_mem _ hfirst)) (hdata first hfirst)
    · exact hgone.2
  intro key hkey
  obtain rfl | hkey := mem_cons.1 hkey
  · exact hindex
  · exact hdata key hkey

end TranscriptSet

/-! ## The promise -/

/-- What retention promises of repeated sweeps at one time: a transcript that loses something is as
old as the retention time, a sweep deletes no more transcripts than its limit, and in the end
nothing is left of the days before the one of the cutoff. -/
structure KeepsPromise (stock : TranscriptSet) (opts : ExecutionLogSweepOptions) : Prop where
  old : ∀ n, ∀ t ∈ stock.transcripts, stock.Loses opts n t → (t.createdAt : ℚ) ≤ opts.cutoff
  counted : ∀ n, ((sweepExpired opts (stock.after opts n)).2 : ℚ) ≤ min (max opts.limit 1) 1000
  bounded : ∀ n, ∀ lost : List Transcript, lost.Nodup →
    (∀ t ∈ lost, t ∈ stock.transcripts ∧ stock.Loses opts n t) →
    (lost.length : ℚ) ≤ min (max opts.limit 1) 1000
  ends : ∃ n, ∀ m, n ≤ m → ∀ t ∈ stock.transcripts,
    t.createdAt / msPerDay < opts.cutoffMs / msPerDay →
    ∀ key ∈ t.keys, key ∉ stock.after opts m

theorem lt_trunc_add_one (q : ℚ) : (trunc q : ℚ) < q + 1 := by
  rw [trunc]
  split
  · exact (Int.floor_le q).trans_lt (lt_add_one q)
  · exact Int.ceil_lt_add_one q

theorem le_cutoff_of_lt {opts : ExecutionLogSweepOptions} {createdAt : ℤ}
    (h : createdAt / msPerDay < opts.cutoffMs / msPerDay) : (createdAt : ℚ) ≤ opts.cutoff := by
  have hlt : createdAt + 1 ≤ opts.cutoffMs := by
    rw [msPerDay] at h
    omega
  have hcast : (createdAt : ℚ) + 1 ≤ opts.cutoffMs := by exact_mod_cast hlt
  have htrunc : (opts.cutoffMs : ℚ) < opts.cutoff + 1 := lt_trunc_add_one opts.cutoff
  linarith

theorem boundedLimit_le (opts : ExecutionLogSweepOptions) :
    (opts.boundedLimit : ℚ) ≤ min (max opts.limit 1) 1000 := by
  have htrunc : (trunc opts.limit : ℚ) ≤ max opts.limit 1 := by
    rw [trunc]
    split
    · exact (Int.floor_le _).trans (le_max_left _ _)
    · rename_i hneg
      have hceil : ⌈opts.limit⌉ ≤ 1 := by
        rw [Int.ceil_le]
        push_cast
        linarith
      exact le_max_of_le_right (by exact_mod_cast hceil)
  have hlimit : (opts.boundedLimit : ℤ) = min (max (trunc opts.limit) 1) 1000 := by
    rw [ExecutionLogSweepOptions.boundedLimit]
    omega
  have hcast : (opts.boundedLimit : ℚ) = min (max (trunc opts.limit : ℚ) 1) 1000 := by
    exact_mod_cast hlimit
  rw [hcast]
  exact min_le_min (max_le htrunc (le_max_right _ _)) le_rfl

theorem length_swept_le (opts : ExecutionLogSweepOptions) (keys : Keys) :
    ((swept opts keys).length : ℚ) ≤ min (max opts.limit 1) 1000 := by
  refine le_trans ?_ (boundedLimit_le opts)
  exact_mod_cast length_take_le _ _

variable {stock : TranscriptSet}

theorem length_lost_le {n : ℕ} {lost : List Transcript} (hnodup : lost.Nodup)
    (h : ∀ t ∈ lost, t ∈ stock.transcripts ∧ stock.Loses opts n t) :
    (lost.length : ℚ) ≤ min (max opts.limit 1) 1000 := by
  have hinj : (lost.map fun t => (t.datePartition, t.commandId)).Nodup := by
    refine (nodup_map_iff_inj_on hnodup).2 fun t ht other hother heq => ?_
    exact inj_on_of_nodup_map stock.distinct (h t ht).1 (h other hother).1 (Prod.mk.inj heq).2
  have hsubset : lost.map (fun t => (t.datePartition, t.commandId)) ⊆ swept opts
    (stock.after opts n) := by
    intro transcript hmem
    obtain ⟨t, ht, rfl⟩ := mem_map.1 hmem
    exact ((h t ht).2.mem_swept (h t ht).1).1
  have hlength := (hinj.subperm hsubset).length_le
  rw [length_map] at hlength
  refine le_trans ?_ (length_swept_le opts (stock.after opts n))
  exact_mod_cast hlength

theorem KeepsPromise.createdAt_le (h : KeepsPromise stock opts) {t : Transcript}
    (ht : t ∈ stock.transcripts)
    (hcutoff : t.datePartition ≤ opts.cutoffPartition) : (t.createdAt : ℚ) ≤ opts.cutoff := by
  obtain ⟨n, hn⟩ := stock.exists_swept opts
  have hkey : executionLogIndexKey t.commandId ∈ t.keys := mem_cons_self
  obtain ⟨m, -, hin, hout⟩ := Draining.exists_lost (mem_storeOf.2 ⟨t, ht, hkey⟩)
    (hn n le_rfl t ht hcutoff _ hkey)
  exact h.old m t ht ⟨_, hkey, hin, hout⟩

theorem Transcript.day_le_of_le (hcutoff : t.datePartition ≤ opts.cutoffPartition) :
    t.createdAt / msPerDay ≤ opts.cutoffMs / msPerDay := by
  obtain hneg | hnonneg := lt_or_ge (yearFromDay (opts.cutoffMs / msPerDay)) 0
  · exact absurd (executionLogDatePartition_of_neg t.year_nonneg t.year_le hneg) (not_lt.2 hcutoff)
  · obtain hsmall | hlarge := le_or_gt (yearFromDay (opts.cutoffMs / msPerDay)) 9999
    · exact (executionLogDatePartition_le_iff t.year_nonneg t.year_le hnonneg hsmall).1 hcutoff
    · by_contra hafter
      have hyear := date_lt (not_le.1 hafter)
      have hle := t.year_le
      omega

theorem Transcript.le_of_day_le (hyear : yearFromDay (opts.cutoffMs / msPerDay) ≤ 9999)
    (h : t.createdAt / msPerDay ≤ opts.cutoffMs / msPerDay) :
    t.datePartition ≤ opts.cutoffPartition := by
  have hnonneg : 0 ≤ yearFromDay (opts.cutoffMs / msPerDay) :=
    t.year_nonneg.trans (le_yearFromDay ((yearFromDay_spec _).1.trans h))
  exact (executionLogDatePartition_le_iff t.year_nonneg t.year_le hnonneg hyear).2 h

/-- **Retention keeps its promise if and only if no transcript was created on the cutoff's own day,
after the cutoff**, and the year of the cutoff has four digits or comes after the transcripts in the
order of texts as well. -/
theorem keepsPromise_iff (stock : TranscriptSet) (opts : ExecutionLogSweepOptions) :
    KeepsPromise stock opts ↔ ∀ t ∈ stock.transcripts,
      (t.createdAt / msPerDay = opts.cutoffMs / msPerDay → (t.createdAt : ℚ) ≤ opts.cutoff) ∧
        (9999 < yearFromDay (opts.cutoffMs / msPerDay) →
        t.datePartition ≤ opts.cutoffPartition) := by
  constructor
  · intro h t ht
    refine ⟨fun hday => ?_, fun hyear => ?_⟩
    · refine h.createdAt_le ht (t.le_of_day_le ?_ hday.le)
      rw [← hday]
      exact t.year_le
    · have hbefore : t.createdAt / msPerDay < opts.cutoffMs / msPerDay := by
        by_contra hafter
        have hmono := le_yearFromDay ((yearFromDay_spec _).1.trans (not_lt.1 hafter))
        have hle := t.year_le
        omega
      obtain ⟨n, hn⟩ := h.ends
      have hkey : executionLogIndexKey t.commandId ∈ t.keys := mem_cons_self
      obtain ⟨m, -, hin, hout⟩ :=
        Draining.exists_lost (mem_storeOf.2 ⟨t, ht, hkey⟩) (hn n le_rfl t ht hbefore _ hkey)
      have hloses : stock.Loses opts m t := ⟨_, hkey, hin, hout⟩
      exact (hloses.mem_swept ht).2
  · intro h
    refine ⟨fun n t ht hloses => ?_, fun n => ?_,
      fun n lost hnodup hlost => length_lost_le hnodup hlost, ?_⟩
    · obtain hbefore | hsame := (t.day_le_of_le (hloses.mem_swept ht).2).lt_or_eq
      · exact le_cutoff_of_lt hbefore
      · exact (h t ht).1 hsame
    · rw [sweepExpired_eq]
      exact length_swept_le opts _
    · obtain ⟨n, hn⟩ := stock.exists_swept opts
      refine ⟨n, fun m hm t ht hbefore => hn m hm t ht ?_⟩
      obtain hsmall | hlarge := le_or_gt (yearFromDay (opts.cutoffMs / msPerDay)) 9999
      · exact t.le_of_day_le hsmall hbefore.le
      · exact (h t ht).2 hlarge

/-- A transcript of the last minute of the first of March 2026. -/
def lateTranscript : Transcript where
  commandId := "c".toList
  createdAt := 1772409540000
  parts := [0]
  sealedObject := false
  commandId_ne := by decide
  slash_not_mem := by decide
  year_nonneg := by decide
  year_le := by decide
  stored := .inl (by decide)

/-- A sweep two minutes later that keeps a day. -/
def earlySweep : ExecutionLogSweepOptions :=
    { retentionDays := 1, limit := 10, now := 1772409660000 }

/-- A transcript goes with its day before its time. -/
theorem lateTranscript_swept :
    ¬ KeepsPromise { transcripts := [lateTranscript], distinct := nodup_singleton _ }
    earlySweep := by
  intro h
  have hcutoff : earlySweep.cutoffMs = 1772323260000 := by
    rw [ExecutionLogSweepOptions.cutoffMs, ExecutionLogSweepOptions.cutoff, earlySweep, trunc]
    norm_num
  have hyear : yearFromDay (earlySweep.cutoffMs / msPerDay) ≤ 9999 := by
    rw [hcutoff]
    decide
  have hday : lateTranscript.createdAt / msPerDay ≤ earlySweep.cutoffMs / msPerDay := by
    rw [hcutoff]
    decide
  have hold := h.createdAt_le (mem_singleton_self _) (lateTranscript.le_of_day_le hyear hday)
  rw [ExecutionLogSweepOptions.cutoff, earlySweep, lateTranscript] at hold
  norm_num at hold

end TurboPanel.Retention
