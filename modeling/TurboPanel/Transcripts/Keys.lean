import TurboPanel.Js.DateText

/-!
# The keys of an execution log

The bytes of a transcript are stored under the day of its index, `yyyy/mm/dd`, so that the keys of
the bytes are in the order of their days: of two keys in order, the partitions are in order
(`dataKey_le`), and the partitions of years of four digits are in the order of the days
(`executionLogDatePartition_le_iff`). A year of more digits is out of order, and one before the
beginning of years is before every other (`executionLogDatePartition_of_neg`).
-/

namespace TurboPanel.Retention

open Option Js List

/-! ## Partitions -/

/-- `executionLogDatePartition(new Date(atMs))`. -/
def executionLogDatePartition (atMs : ℤ) : Text :=
  let day := atMs / msPerDay
  padStart 4 (intText (yearFromDay day)) ++ '/' :: (padStart 2 (intText (monthFromDay day + 1)) ++
    '/' :: padStart 2 (intText (dateFromDay day)))

/-- The characters at the start of a text that are of the classes of an expression. -/
def matchClasses : List (Char → Bool) → Text → Option Text
  | [], _ => some []
  | _ :: _, [] => none
  | p :: classes, c :: rest => if p c then (matchClasses classes rest).map (c :: ·) else none

/-- `\d{4}\/\d{2}\/\d{2}`. -/
def partitionClasses : List (Char → Bool) :=
  List.replicate 4 (isDigitOf 10) ++ (· == '/') :: (List.replicate 2 (isDigitOf 10) ++
    (· == '/') :: List.replicate 2 (isDigitOf 10))

def parseExecutionLogDatePartition (partition : Text) : Option ℤ :=
  if matchClasses partitionClasses partition = some partition then
    some (dateUtc (ofDigits 10 (partition.take 4)) (ofDigits 10 ((partition.drop 5).take 2) - 1)
      (ofDigits 10 (partition.drop 8)) 0 0 0)
  else none

/-! ## Keys -/

def executionLogDataPrefix : Text := "execution-logs/data".toList

def executionLogIndexPrefix : Text := "execution-logs/index".toList

def executionLogIndexKey (commandId : Text) : Text := executionLogIndexPrefix ++ '/' :: (commandId ++ ".json".toList)

/-- A key of bytes: what comes after its partition. -/
def dataKey (datePartition rest : Text) : Text := executionLogDataPrefix ++ '/' :: (datePartition ++ '/' :: rest)

def executionLogPartsPrefix (datePartition commandId : Text) : Text := dataKey datePartition (commandId ++ ['/'])

def executionLogPartKey (datePartition commandId : Text) (seq : ℕ) : Text :=
  executionLogPartsPrefix datePartition commandId ++ (padStart 9 (Nat.toDigits 10 seq) ++ ".part".toList)

def executionLogSealedKey (datePartition commandId : Text) : Text :=
  dataKey datePartition (commandId ++ ".log.gz".toList)

def executionLogPartitionPrefix (datePartition : Text) : Text := dataKey datePartition []

def datePartitionFromExecutionLogDataKey (key : Text) : Option Text :=
  let head := executionLogDataPrefix ++ ['/']
  if ¬ head <+: key then none
  else (matchClasses (partitionClasses ++ [(· == '/')]) (key.drop head.length)).map (·.take 10)

def commandIdFromExecutionLogDataKey (key datePartition : Text) : Option Text :=
  let head := executionLogPartitionPrefix datePartition
  if ¬ head <+: key then none
  else
    let rest := key.drop head.length
    if rest = [] then none
    else if '/' ∈ rest ∧ 0 < rest.idxOf '/' then some (rest.take (rest.idxOf '/'))
    else if ".log.gz".toList <:+ rest then some (rest.take (rest.length - 7))
    else none

/-! ## What is read from a key -/

theorem matchClasses_append {classes : List (Char → Bool)} {a : Text} (h : matchClasses classes a = some a)
    (classes' : List (Char → Bool)) (b : Text) :
    matchClasses (classes ++ classes') (a ++ b) = (matchClasses classes' b).map (a ++ ·) := by
  induction classes generalizing a with
  | nil =>
    obtain rfl : [] = a := Option.some.inj h
    rw [nil_append, nil_append]
    cases matchClasses classes' b <;> rfl
  | cons p classes ih =>
    cases a with
    | nil => exact absurd h (by simp [matchClasses])
    | cons c a =>
      rw [matchClasses] at h
      split at h
      · rename_i hc
        obtain ⟨a', ha', hcons⟩ := map_eq_some_iff.1 h
        obtain rfl := (List.cons.inj hcons).2
        rw [cons_append, cons_append, matchClasses, if_pos hc, ih ha', Option.map_map]
        rfl
      · cases h

theorem matchClasses_replicate {p : Char → Bool} {l : Text} (h : ∀ c ∈ l, p c = true) :
    matchClasses (List.replicate l.length p) l = some l := by
  induction l with
  | nil => rfl
  | cons c l ih =>
    rw [length_cons, replicate_succ, matchClasses, if_pos (h c mem_cons_self),
      ih fun c hc => h c (mem_cons_of_mem _ hc)]
    rfl

theorem length_of_matchClasses {classes : List (Char → Bool)} {l a : Text} (h : matchClasses classes l = some a) :
    a.length = classes.length := by
  induction classes generalizing l a with
  | nil =>
    obtain rfl : [] = a := by simpa [matchClasses] using h
    rfl
  | cons p classes ih =>
    cases l with
    | nil => exact absurd h (by simp [matchClasses])
    | cons c l =>
      rw [matchClasses] at h
      split at h
      · obtain ⟨a', ha', rfl⟩ := map_eq_some_iff.1 h
        rw [length_cons, length_cons, ih ha']
      · cases h

/-- A text of the form of a partition. -/
def IsPartition (partition : Text) : Prop := matchClasses partitionClasses partition = some partition

theorem IsPartition.length_eq {partition : Text} (h : IsPartition partition) : partition.length = 10 :=
  length_of_matchClasses h

theorem parseExecutionLogDatePartition_isSome {partition : Text} (h : IsPartition partition) :
    parseExecutionLogDatePartition partition ≠ none := by
  have hmatch : matchClasses partitionClasses partition = some partition := h
  rw [parseExecutionLogDatePartition, if_pos hmatch]
  exact some_ne_none _

theorem datePartitionFromExecutionLogDataKey_dataKey {partition : Text} (h : IsPartition partition) (rest : Text) :
    datePartitionFromExecutionLogDataKey (dataKey partition rest) = some partition := by
  have hkey : dataKey partition rest = (executionLogDataPrefix ++ ['/']) ++ (partition ++ '/' :: rest) := by
    rw [dataKey, append_assoc, singleton_append]
  have hslash : matchClasses [(· == '/')] ('/' :: rest) = some ['/'] := rfl
  rw [datePartitionFromExecutionLogDataKey, if_neg (not_not.2 (hkey ▸ prefix_append _ _)), hkey,
    drop_left, matchClasses_append h, hslash, map_some, map_some,
    take_left' h.length_eq]

theorem take_rest (partition rest : Text) :
    executionLogPartitionPrefix partition <+: dataKey partition rest ∧
      (dataKey partition rest).drop (executionLogPartitionPrefix partition).length = rest := by
  have hkey : dataKey partition rest = executionLogPartitionPrefix partition ++ rest := by
    simp [dataKey, executionLogPartitionPrefix]
  rw [hkey]
  exact ⟨prefix_append _ _, drop_left⟩

theorem commandIdFromExecutionLogDataKey_slash {commandId : Text} (hne : commandId ≠ []) (hslash : '/' ∉ commandId)
    (partition rest : Text) :
    commandIdFromExecutionLogDataKey (dataKey partition (commandId ++ '/' :: rest)) partition = some commandId := by
  obtain ⟨hhead, hdrop⟩ := take_rest partition (commandId ++ '/' :: rest)
  have hindex : (commandId ++ '/' :: rest).idxOf '/' = commandId.length := by
    rw [idxOf_append_of_notMem hslash, idxOf_cons_self, add_zero]
  rw [commandIdFromExecutionLogDataKey, if_neg (not_not.2 hhead)]
  simp only [hdrop, hindex]
  rw [if_neg (by simp [hne]), if_pos ⟨by simp, length_pos_iff.2 hne⟩, take_left]

theorem executionLogPartKey_eq (partition commandId : Text) (seq : ℕ) :
    executionLogPartKey partition commandId seq =
      dataKey partition (commandId ++ '/' :: (padStart 9 (Nat.toDigits 10 seq) ++ ".part".toList)) := by
  simp [executionLogPartKey, executionLogPartsPrefix, dataKey]

theorem commandIdFromExecutionLogDataKey_sealed {commandId : Text} (hslash : '/' ∉ commandId) (partition : Text) :
    commandIdFromExecutionLogDataKey (executionLogSealedKey partition commandId) partition = some commandId := by
  obtain ⟨hhead, hdrop⟩ := take_rest partition (commandId ++ ".log.gz".toList)
  have hnone : '/' ∉ commandId ++ ".log.gz".toList := by
    rw [mem_append, not_or]
    exact ⟨hslash, by decide⟩
  have hlength : (commandId ++ ".log.gz".toList).length - 7 = commandId.length := by
    rw [length_append, show ".log.gz".toList.length = 7 from by decide, Nat.add_sub_cancel]
  rw [executionLogSealedKey, commandIdFromExecutionLogDataKey, if_neg (not_not.2 hhead)]
  simp only [hdrop, hlength]
  rw [if_neg (by simp), if_neg fun h => hnone h.1, if_pos (suffix_append _ _), take_left]

/-! ## Order -/

/-- **Of keys in order, the partitions are in order.** -/
theorem dataKey_le {a b : Text} (ha : IsPartition a) (hb : IsPartition b) {s t : Text}
    (h : dataKey a s ≤ dataKey b t) : a ≤ b := by
  have hlength : a.length = b.length := ha.length_eq.trans hb.length_eq.symm
  have hhead : ∀ partition rest : Text, dataKey partition rest =
      (executionLogDataPrefix ++ ['/']) ++ (partition ++ '/' :: rest) := by
    intro partition rest
    rw [dataKey, append_assoc, singleton_append]
  rw [hhead, hhead, Lexicographic.append_left_le_iff] at h
  exact Lexicographic.le_of_append_le hlength h

theorem executionLogDatePartition_eq {atMs : ℤ} (hlow : 0 ≤ yearFromDay (atMs / msPerDay))
    (hhigh : yearFromDay (atMs / msPerDay) ≤ 9999) :
    executionLogDatePartition atMs = fixedDigits 4 (yearFromDay (atMs / msPerDay)).toNat ++
      '/' :: (fixedDigits 2 (monthFromDay (atMs / msPerDay) + 1).toNat ++
        '/' :: fixedDigits 2 (dateFromDay (atMs / msPerDay)).toNat) := by
  have hmonth := monthFromDay_mem (atMs / msPerDay)
  have hdate := dateFromDay_mem (atMs / msPerDay)
  have hlength := daysInMonth_le (yearFromDay (atMs / msPerDay)) (monthFromDay (atMs / msPerDay))
  have hpad : ∀ (width : ℕ) (n : ℤ), 0 < width → 0 ≤ n → n.toNat < 10 ^ width →
      padStart width (intText n) = fixedDigits width n.toNat := by
    intro width n hwidth hn hlt
    obtain ⟨k, rfl⟩ := Int.eq_ofNat_of_zero_le hn
    exact padStart_toDigits hwidth hlt
  rw [executionLogDatePartition, hpad 4 _ (by decide) hlow (by omega), hpad 2 _ (by decide) (by omega) (by omega),
    hpad 2 _ (by decide) (by omega) (by omega)]

theorem matchClasses_fixedDigits (width n : ℕ) :
    matchClasses (List.replicate width (isDigitOf 10)) (fixedDigits width n) = some (fixedDigits width n) := by
  have hmatch := @matchClasses_replicate (isDigitOf 10) (fixedDigits width n) fun c hc =>
      isDigitOf_of_mem_fixedDigits hc
  rwa [length_fixedDigits width n] at hmatch

theorem isPartition_executionLogDatePartition {atMs : ℤ} (hlow : 0 ≤ yearFromDay (atMs / msPerDay))
    (hhigh : yearFromDay (atMs / msPerDay) ≤ 9999) : IsPartition (executionLogDatePartition atMs) := by
  have hslash : matchClasses [(· == '/')] ['/'] = some ['/'] := rfl
  have hcons : ∀ (classes : List (Char → Bool)) (l : Text), matchClasses classes l = some l →
      matchClasses ((· == '/') :: classes) ('/' :: l) = some ('/' :: l) := by
    intro classes l h
    have happend := matchClasses_append hslash classes l
    rw [h] at happend
    exact happend
  rw [executionLogDatePartition_eq hlow hhigh, IsPartition, partitionClasses,
    matchClasses_append (matchClasses_fixedDigits _ _),
    hcons _ _ ((matchClasses_append (matchClasses_fixedDigits _ _) _ _).trans
      (congrArg (Option.map _) (hcons _ _ (matchClasses_fixedDigits _ _))))]
  rfl

/-- **The partitions of years of four digits are in the order of the days.** -/
theorem executionLogDatePartition_lt {a b : ℤ} (hlow : 0 ≤ yearFromDay (a / msPerDay))
    (hhigh : yearFromDay (b / msPerDay) ≤ 9999) (h : a / msPerDay < b / msPerDay) :
    executionLogDatePartition a < executionLogDatePartition b := by
  have hdate := date_lt h
  have hyear : yearFromDay (a / msPerDay) ≤ yearFromDay (b / msPerDay) := by omega
  have hmonth := monthFromDay_mem (a / msPerDay)
  have hmonth' := monthFromDay_mem (b / msPerDay)
  have hday := (dateFromDay_mem (a / msPerDay)).1
  have hday' := (dateFromDay_mem (b / msPerDay)).2
  rw [executionLogDatePartition_eq hlow (hyear.trans hhigh), executionLogDatePartition_eq (hlow.trans hyear) hhigh]
  have hdays := daysInMonth_le (yearFromDay (b / msPerDay)) (monthFromDay (b / msPerDay))
  generalize yearFromDay (a / msPerDay) = y, yearFromDay (b / msPerDay) = y' at *
  generalize monthFromDay (a / msPerDay) = m, monthFromDay (b / msPerDay) = m' at *
  generalize dateFromDay (a / msPerDay) = d, dateFromDay (b / msPerDay) = d' at *
  have hlength : ∀ width n n', (fixedDigits width n).length = (fixedDigits width n').length := by
    intro width n n'
    rw [length_fixedDigits, length_fixedDigits]
  obtain hlt | ⟨rfl, hlt | ⟨rfl, hlt⟩⟩ := hdate
  · exact Lexicographic.append_lt_append (hlength _ _ _) (fixedDigits_lt (by omega) (by omega)) _ _
  · refine Lexicographic.append_left_lt_iff.2 (cons_lt_cons_iff.2 (.inr ⟨rfl, ?_⟩))
    exact Lexicographic.append_lt_append (hlength _ _ _) (fixedDigits_lt (by omega) (by omega)) _ _
  · refine Lexicographic.append_left_lt_iff.2 (cons_lt_cons_iff.2 (.inr ⟨rfl, ?_⟩))
    refine Lexicographic.append_left_lt_iff.2 (cons_lt_cons_iff.2 (.inr ⟨rfl, ?_⟩))
    exact fixedDigits_lt (by omega) (by omega)

theorem executionLogDatePartition_le_iff {a b : ℤ} (ha : 0 ≤ yearFromDay (a / msPerDay))
    (ha' : yearFromDay (a / msPerDay) ≤ 9999) (hb : 0 ≤ yearFromDay (b / msPerDay))
    (hb' : yearFromDay (b / msPerDay) ≤ 9999) :
    executionLogDatePartition a ≤ executionLogDatePartition b ↔ a / msPerDay ≤ b / msPerDay := by
  constructor
  · intro h
    by_contra hlt
    exact absurd (executionLogDatePartition_lt hb ha' (not_le.1 hlt)) (not_lt.2 h)
  · intro h
    obtain hlt | heq := h.lt_or_eq
    · exact (executionLogDatePartition_lt ha hb' hlt).le
    · rw [executionLogDatePartition, executionLogDatePartition, heq]

theorem zero_le_of_isDigitOf {c : Char} (h : isDigitOf 10 c = true) : '0' ≤ c :=
  Char.le_def.2 (UInt32.le_iff_toNat_le.2 (toNat_of_isDigitOf (by decide) h).1)

theorem minus_lt_digits {k : ℕ} {digits : Text} (hdigits : ∀ c ∈ digits, isDigitOf 10 c = true)
    (h : k < digits.length) (s t : Text) : List.replicate k '0' ++ '-' :: s < digits ++ t := by
  induction k generalizing digits with
  | zero =>
    obtain ⟨c, digits, rfl⟩ := exists_cons_of_length_pos h
    have hc := hdigits c mem_cons_self
    exact cons_lt_cons_iff.2 (.inl (lt_of_lt_of_le (by decide) (zero_le_of_isDigitOf hc)))
  | succ k ih =>
    obtain ⟨c, digits, rfl⟩ := exists_cons_of_length_pos (Nat.zero_lt_of_lt h)
    have hc := hdigits c mem_cons_self
    have hrest := ih (fun c hc => hdigits c (mem_cons_of_mem _ hc)) (Nat.lt_of_succ_lt_succ h)
    rw [replicate_succ]
    exact cons_lt_cons_iff.2 ((zero_le_of_isDigitOf hc).lt_or_eq.imp_right fun heq => ⟨heq, hrest⟩)

/-- **The partition of a year before the first one is before those of years of four digits.** -/
theorem executionLogDatePartition_of_neg {a b : ℤ} (ha : 0 ≤ yearFromDay (a / msPerDay))
    (ha' : yearFromDay (a / msPerDay) ≤ 9999) (hb : yearFromDay (b / msPerDay) < 0) :
    executionLogDatePartition b < executionLogDatePartition a := by
  obtain ⟨n, hn⟩ : ∃ n, yearFromDay (b / msPerDay) = Int.negSucc n := ⟨_, Int.eq_negSucc_of_lt_zero hb |>.choose_spec⟩
  rw [executionLogDatePartition_eq ha ha', executionLogDatePartition, hn, intText, padStart, append_assoc,
    cons_append]
  refine minus_lt_digits (fun c hc => isDigitOf_of_mem_fixedDigits hc) ?_ _ _
  rw [length_fixedDigits, length_cons]
  omega

end TurboPanel.Retention
