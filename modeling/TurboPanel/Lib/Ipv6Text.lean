import TurboPanel.Lib.Ipv6Forms

/-!
# IPv6 addresses are read as they are printed

The validator accepts exactly the hexadecimal forms of the standard (`isValidIpv6Address_iff`), and
the printer writes one of them: the groups of the number, with a run of zero groups in place of
which `::` stands (`spells_bigIntToIpv6`). So the reader inverts the printer for both families
(`parseIpVersion_bigIntToIp`, `ipToBigInt_bigIntToIp`), and a text that is accepted has a number of
its family (`exists_of_parseIpVersion`).
-/

namespace TurboPanel.Ip

open Bool Js List

/-! ## Runs of zero groups -/

/-- `run` is a run of zero groups of `hextets`; it may be empty. -/
def ZeroRun.IsIn (run : ZeroRun) (hextets : List ℕ) : Prop :=
  ∃ before after, hextets = before ++ List.replicate run.length 0 ++ after ∧
    before.length = run.start

variable {ver : IpAddressVersion} {l : Text} (hextets : List ℕ)

theorem ZeroRun.isIn_nil_run : ZeroRun.IsIn ⟨0, 0⟩ hextets :=
  ⟨[], hextets, rfl, rfl⟩

theorem replicate_zero_append {before : List ℕ} {n : ℕ} :
    before ++ List.replicate n 0 ++ [0] = before ++ List.replicate (n + 1) 0 := by
  rw [append_assoc, replicate_succ']

theorem isIn_zeroRunLoop {hs : List ℕ} : ∀ {seen : List ℕ} {best : ZeroRun} {run : Option ZeroRun},
    best.IsIn (seen ++ hs) →
    (∀ r ∈ run, ∃ before, seen = before ++ List.replicate r.length 0 ∧ before.length = r.start) →
    (zeroRunLoop hs seen.length best run).IsIn (seen ++ hs) := by
  induction hs with
  | nil =>
    intro seen best run hbest hrun
    cases run with
    | none => exact hbest
    | some r =>
      obtain ⟨before, hseen, hlen⟩ := hrun r rfl
      simp only [zeroRunLoop]
      split_ifs
      · exact ⟨before, [], by rw [hseen], hlen⟩
      · exact hbest
  | cons h hs ih =>
    intro seen best run hbest hrun
    have hcons : seen ++ h :: hs = seen ++ [h] ++ hs := by simp
    have hnext : seen.length + 1 = (seen ++ [h]).length := by simp
    unfold zeroRunLoop
    rw [hnext, hcons]
    rw [hcons] at hbest
    split_ifs with hzero
    · subst hzero
      refine ih hbest ?_
      rintro r hr
      rw [Option.mem_some_iff] at hr
      subst hr
      cases run with
      | none => exact ⟨seen, rfl, rfl⟩
      | some r =>
        obtain ⟨before, hseen, hlen⟩ := hrun r rfl
        exact ⟨before, by rw [hseen, replicate_zero_append]; rfl, hlen⟩
    · cases run with
      | none => exact ih hbest (by simp)
      | some r =>
        obtain ⟨before, hseen, hlen⟩ := hrun r rfl
        refine ih ?_ (by simp)
        split_ifs
        · exact ⟨before, h :: hs, by rw [hseen]; simp, hlen⟩
        · exact hbest

theorem isIn_longestIpv6ZeroRun :
    (longestIpv6ZeroRun hextets).IsIn hextets :=
  @isIn_zeroRunLoop hextets [] _ _ (ZeroRun.isIn_nil_run hextets) (by simp)

/-! ## The groups of a number -/

theorem foldl_hextetLoop : ∀ (n remaining : ℕ) (hextets : List ℕ),
    (hextetLoop n remaining hextets).foldl (fun value h => value * 2 ^ 16 + h) 0 =
      hextets.foldl (fun value h => value * 2 ^ 16 + h) (remaining % 2 ^ (16 * n))
  | 0, remaining, hextets => by simp [hextetLoop, Nat.mod_one]
  | n + 1, remaining, hextets => by
    have hlow : remaining &&& 0xffff = remaining % 2 ^ 16 :=
      Nat.and_two_pow_sub_one_eq_mod remaining 16
    have hpow : 2 ^ (16 * (n + 1)) = 2 ^ 16 * 2 ^ (16 * n) := by rw [Nat.mul_succ, pow_add, mul_comm]
    rw [hextetLoop, foldl_hextetLoop n, foldl_cons, hlow, Nat.shiftRight_eq_div_pow, hpow,
      Nat.mod_mul, Nat.mul_comm, Nat.add_comm]

theorem length_hextetLoop : ∀ (n remaining : ℕ) (hextets : List ℕ),
    (hextetLoop n remaining hextets).length = n + hextets.length
  | 0, _, _ => by simp [hextetLoop]
  | n + 1, remaining, hextets => by
    rw [hextetLoop, length_hextetLoop n, length_cons]
    omega

variable {h : ℕ}

theorem lt_of_mem_hextetLoop : ∀ {n remaining : ℕ} {hextets : List ℕ},
    (∀ g ∈ hextets, g < 2 ^ 16) → h ∈ hextetLoop n remaining hextets → h < 2 ^ 16
  | 0, _, _, hlt, hmem => hlt h hmem
  | n + 1, remaining, hextets, hlt, hmem => by
    rw [hextetLoop] at hmem
    refine lt_of_mem_hextetLoop (fun g hg => ?_) hmem
    rcases mem_cons.1 hg with rfl | hg
    · exact Nat.and_lt_two_pow _ (by decide)
    · exact hlt g hg

theorem length_ipv6HextetsFromBigInt (v : ℕ) : (ipv6HextetsFromBigInt v).length = 8 :=
  length_hextetLoop 8 _ []

variable {v : ℕ}

theorem lt_of_mem_ipv6HextetsFromBigInt (hmem : h ∈ ipv6HextetsFromBigInt v) : h < 2 ^ 16 :=
  lt_of_mem_hextetLoop (by simp) hmem

/-- **The groups of a number are groups of that number.** -/
theorem numberOf_ipv6HextetsFromBigInt (hv : v < 2 ^ 128) : numberOf (ipv6HextetsFromBigInt v) = v := by
  rw [numberOf, ipv6HextetsFromBigInt, foldl_hextetLoop, foldl_nil,
    Nat.and_two_pow_sub_one_eq_mod, Nat.mod_mod]
  exact Nat.mod_eq_of_lt hv

/-! ## The printed form -/

theorem spellsHextet_toDigits (hlt : h < 2 ^ 16) : SpellsHextet (Nat.toDigits 16 h) h where
  ne_nil := Nat.toDigits_ne_nil
  length_le := (Nat.length_toDigits_le_iff (by decide) (by decide)).2 hlt
  digits := isDigitOf_of_mem_toDigits (by decide) (by decide)
  value := ofDigits_toDigits (by decide) (by decide) h

theorem spells_toDigits : ∀ {hextets : List ℕ}, (∀ h ∈ hextets, h < 2 ^ 16) →
    List.Forall₂ SpellsHextet (hextets.map (Nat.toDigits 16)) hextets
  | [], _ => .nil
  | _ :: _, h => .cons (spellsHextet_toDigits (h _ (by simp)))
      (spells_toDigits fun g hg => h g (mem_cons_of_mem _ hg))

theorem formatHexHextets_eq :
    formatHexHextets hextets = colonJoin (hextets.map (Nat.toDigits 16)) := rfl

theorem bigIntToIpv6_of_compressed {v : ℕ} {before after : List ℕ} {best : ZeroRun}
    (hbest : longestIpv6ZeroRun (ipv6HextetsFromBigInt v) = best) (htwo : 2 ≤ best.length)
    (hsplit : ipv6HextetsFromBigInt v = before ++ List.replicate best.length 0 ++ after)
    (hstart : before.length = best.start) :
    bigIntToIpv6 v = formatHexHextets before ++ ':' :: ':' :: formatHexHextets after := by
  have hlen := length_ipv6HextetsFromBigInt v
  rw [hsplit, length_append, length_append, length_replicate] at hlen
  have htake : (ipv6HextetsFromBigInt v).take best.start = before := by
    rw [hsplit, append_assoc, ← hstart, take_left]
  have hdrop : (ipv6HextetsFromBigInt v).drop (best.start + best.length) = after := by
    rw [hsplit, ← hstart]
    exact drop_left' (by simp)
  have hnil : ∀ l : List ℕ, l.length = 0 → formatHexHextets l = [] := by
    intro l hl
    rw [length_eq_zero_iff.1 hl]
    rfl
  simp only [bigIntToIpv6, hbest, htake, hdrop, if_neg (show ¬best.length < 2 by omega)]
  split_ifs with h₁ h₂ h₃
  · rw [hnil before (by omega), hnil after (by omega), nil_append]
  · rw [hnil before (by omega), nil_append]
  · rw [hnil after (by omega)]
  · rfl

/-- **The printer writes a form of the groups.** -/
theorem spells_bigIntToIpv6 (v : ℕ) : SpellsIpv6 (bigIntToIpv6 v) (ipv6HextetsFromBigInt v) := by
  have hlt : ∀ h ∈ ipv6HextetsFromBigInt v, h < 2 ^ 16 := fun h => lt_of_mem_ipv6HextetsFromBigInt
  have hlen := length_ipv6HextetsFromBigInt v
  by_cases htwo : (longestIpv6ZeroRun (ipv6HextetsFromBigInt v)).length < 2
  · simp only [bigIntToIpv6, if_pos htwo, formatHexHextets_eq]
    exact .full (by simpa using hlen) (spells_toDigits hlt)
  · obtain ⟨before, after, hsplit, hstart⟩ := isIn_longestIpv6ZeroRun (ipv6HextetsFromBigInt v)
    rw [bigIntToIpv6_of_compressed rfl (by omega) hsplit hstart, formatHexHextets_eq,
      formatHexHextets_eq]
    rw [hsplit] at hlt hlen ⊢
    refine .compressed (spells_toDigits fun h hh => hlt h ?_) (spells_toDigits fun h hh => hlt h ?_)
      (by omega) ?_
    · exact mem_append_left _ (mem_append_left _ hh)
    · exact mem_append_right _ hh
    · simpa [Nat.add_assoc] using hlen

/-! ## What is accepted -/

theorem spellsHextet_of_isIpv6Hextet {part : Text} (h : isIpv6Hextet part = true) :
    SpellsHextet part (ofDigits 16 part) := by
  simp only [isIpv6Hextet, and_eq_true, not_eq_true', isEmpty_eq_false_iff,
    decide_eq_true_eq, all_eq_true] at h
  exact ⟨h.1.1, h.1.2, h.2, rfl⟩

theorem spells_of_areValidIpv6Hextets : ∀ {parts : List Text}, areValidIpv6Hextets parts = true →
    List.Forall₂ SpellsHextet parts (parts.map (ofDigits 16))
  | [], _ => .nil
  | part :: parts, h => by
    rw [areValidIpv6Hextets, all_cons, and_eq_true] at h
    exact .cons (spellsHextet_of_isIpv6Hextet h.1) (spells_of_areValidIpv6Hextets h.2)

theorem colonJoin_splitOn (l : Text) : colonJoin (l.splitOn ':') = l :=
  intercalate_splitOn ':'

theorem colonJoin_sideHextets (side : Text) : colonJoin (sideHextets side) = side := by
  rw [sideHextets]
  split_ifs with h
  · rw [isEmpty_iff.1 h]
    rfl
  · exact colonJoin_splitOn side

/-- **The validator accepts the forms of the standard and nothing else.** -/
theorem isValidIpv6Address_iff :
    isValidIpv6Address l = true ↔ ∃ groups, SpellsIpv6 l groups := by
  refine ⟨fun h => ?_, ?_⟩
  swap
  · rintro ⟨groups, h⟩
    exact h.isValidIpv6Address_eq
  have hjoin := @intercalate_splitPair ':' ':' l
  simp only [isValidIpv6Address, if_false_left, and_eq_true] at h
  obtain ⟨-, h⟩ := h
  rcases hparts : splitPair ':' ':' l with _ | ⟨left, _ | ⟨right, _ | ⟨third, rest⟩⟩⟩
  · exact absurd hparts (splitPair_ne_nil l)
  · rw [hparts] at h
    have hfull : isValidFullIpv6 l = true := h
    simp only [isValidFullIpv6, and_eq_true, beq_iff_eq] at hfull
    have hform := SpellsIpv6.full hfull.1 (spells_of_areValidIpv6Hextets hfull.2)
    rw [colonJoin_splitOn] at hform
    exact ⟨_, hform⟩
  · rw [hparts] at h
    have hcompressed : isValidCompressedIpv6 l = true := h
    simp only [isValidCompressedIpv6, hextetsAroundCompression, hparts, and_eq_true,
      decide_eq_true_eq, length_append, areValidIpv6Hextets, all_append] at hcompressed
    obtain ⟨⟨hl, hr⟩, hlt⟩ := hcompressed
    rw [hparts, intercalate_cons_cons, intercalate_singleton] at hjoin
    have hform := SpellsIpv6.compressed (spells_of_areValidIpv6Hextets hl)
      (spells_of_areValidIpv6Hextets hr) (Nat.sub_pos_of_lt hlt) (by omega)
    rw [colonJoin_sideHextets, colonJoin_sideHextets] at hform
    have htext : left ++ ':' :: ':' :: right = l := by simpa using hjoin
    rw [htext] at hform
    exact ⟨_, hform⟩
  · rw [hparts] at h
    cases h

theorem numberOf_lt : ∀ {groups : List ℕ}, (∀ g ∈ groups, g < 2 ^ 16) →
    numberOf groups < 2 ^ (16 * groups.length) := by
  intro groups
  rw [numberOf]
  induction groups using List.reverseRecOn with
  | nil => simp
  | append_singleton groups g ih =>
    intro hlt
    have hg := hlt g (by simp)
    have hprev := ih fun x hx => hlt x (by simp [hx])
    have hpow : 2 ^ (16 * (groups ++ [g]).length) = 2 ^ (16 * groups.length) * 2 ^ 16 := by
      rw [← pow_add, length_append, length_singleton]
      congr 1
    rw [foldl_append, foldl_cons, foldl_nil, hpow]
    calc _ < (groups.foldl (fun value h => value * 2 ^ 16 + h) 0 + 1) * 2 ^ 16 := by omega
      _ ≤ _ := Nat.mul_le_mul_right _ hprev

theorem SpellsIpv6.length_groups {text : Text} {groups : List ℕ} (h : SpellsIpv6 text groups) :
    groups.length = 8 := by
  cases h with
  | full hlen hs => rw [← hs.length_eq, hlen]
  | compressed hl hr _ hlen =>
    rw [length_append, length_append, length_replicate, ← hl.length_eq,
      ← hr.length_eq, hlen]

theorem SpellsIpv6.numberOf_lt {text : Text} {groups : List ℕ} (h : SpellsIpv6 text groups) :
    numberOf groups < 2 ^ 128 := by
  have := Ip.numberOf_lt fun g => h.lt_of_mem
  rwa [h.length_groups] at this

theorem exists_spells_of_parseIpVersion (h : parseIpVersion l = some .v6) :
    ∃ groups, SpellsIpv6 (trim l) groups := by
  simp only [parseIpVersion] at h
  split_ifs at h with h₁ h₂ h₃
  · cases h
  · rw [and_eq_true] at h₃
    exact isValidIpv6Address_iff.1 h₃.2

theorem stripInetPrefixSuffix_of_parseIpVersion (h : parseIpVersion l = some ver) :
    stripInetPrefixSuffix l = trim l := by
  cases ver with
  | v4 => exact stripInetPrefixSuffix_of_ipv4 (ipv4_of_parseIpVersion h)
  | v6 =>
    obtain ⟨groups, hs⟩ := exists_spells_of_parseIpVersion h
    exact stripInetPrefixSuffix_of_not_mem (hs.not_mem_text (by decide) (by decide))

@[simp] theorem parseIpVersion_trim (l : Text) : parseIpVersion (trim l) = parseIpVersion l := by
  simp [parseIpVersion]

theorem ipToBigInt_trim (h : parseIpVersion l = some ver) :
    ipToBigInt? (trim l) = ipToBigInt? l := by
  have h' := stripInetPrefixSuffix_of_parseIpVersion ((parseIpVersion_trim l).trans h)
  rw [trim_trim] at h'
  simp only [ipToBigInt?, ipToBigInt, stripInetPrefixSuffix_of_parseIpVersion h, h']

theorem exists_groups_of_parseIpVersion (h : parseIpVersion l = some .v6) :
    ∃ groups, SpellsIpv6 (trim l) groups ∧ ipToBigInt? l = some (numberOf groups) := by
  obtain ⟨groups, hs⟩ := exists_spells_of_parseIpVersion h
  exact ⟨groups, hs, by rw [← ipToBigInt_trim h, hs.ipToBigInt_eq]⟩

theorem colon_mem_of_v6 {a : Text} (h : parseIpVersion a = some .v6) : ':' ∈ a := by
  obtain ⟨groups, hs⟩ := exists_spells_of_parseIpVersion h
  exact mem_of_mem_trim hs.colon_mem

theorem colon_not_mem_of_v4 {a : Text} (h : parseIpVersion a = some .v4) : ':' ∉ a := by
  obtain ⟨v, -, htrim, -⟩ := exists_of_parseIpVersion_v4 h
  obtain ⟨w, r, hw, hr, e⟩ := exists_eq_append_trim a
  have hspace : isSpace ':' = false := by decide
  rw [e, htrim, bigIntToIpv4_eq, mem_append, mem_append]
  rintro ((hmem | hmem) | hmem)
  · exact absurd (hw _ hmem) (by rw [hspace]; exact false_ne_true)
  · exact not_mem_dotted (by decide) (by decide) hmem
  · exact absurd (hr _ hmem) (by rw [hspace]; exact false_ne_true)

/-- **An accepted text has a number of its family.** -/
theorem exists_of_parseIpVersion (h : parseIpVersion l = some ver) :
    ∃ v < 2 ^ ver.bitWidth, ipToBigInt? l = some v := by
  cases ver with
  | v4 =>
    obtain ⟨v, hv, -, hread⟩ := exists_of_parseIpVersion_v4 h
    exact ⟨v, hv, hread⟩
  | v6 =>
    obtain ⟨groups, hs, hread⟩ := exists_groups_of_parseIpVersion h
    exact ⟨_, hs.numberOf_lt, hread⟩

/-! ## The round trip -/

/-- **A printed address is of its family.** -/
theorem parseIpVersion_bigIntToIp (v : ℕ) (ver : IpAddressVersion) :
    parseIpVersion (bigIntToIp v ver) = some ver := by
  cases ver with
  | v4 => exact parseIpVersion_bigIntToIpv4 v
  | v6 => exact (spells_bigIntToIpv6 v).parseIpVersion_eq

/-- **The reader inverts the printer**, for both families. -/
theorem ipToBigInt_bigIntToIp (hv : v < 2 ^ ver.bitWidth) : ipToBigInt? (bigIntToIp v ver) = some v := by
  cases ver with
  | v4 => exact ipToBigInt_bigIntToIpv4 hv
  | v6 =>
    rw [bigIntToIp, (spells_bigIntToIpv6 v).ipToBigInt_eq, numberOf_ipv6HextetsFromBigInt hv]

theorem not_isSpace_of_mem_bigIntToIp {version : IpAddressVersion} {c : Char}
    (h : c ∈ bigIntToIp v version) : isSpace c = false := by
  cases version with
  | v4 =>
    rw [bigIntToIp, bigIntToIpv4_eq] at h
    exact isSpace_of_mem_dotted h
  | v6 =>
    rcases (spells_bigIntToIpv6 v).mem_text h with rfl | hd
    · decide
    · exact not_isSpace_of_isDigitOf (by decide) hd

theorem bigIntToIp_inj {w : ℕ} (hv : v < 2 ^ ver.bitWidth) (hw : w < 2 ^ ver.bitWidth) :
    bigIntToIp v ver = bigIntToIp w ver ↔ v = w := by
  refine ⟨fun h => ?_, fun h => h ▸ rfl⟩
  have := ipToBigInt_bigIntToIp hv
  rw [h, ipToBigInt_bigIntToIp hw] at this
  exact (Option.some.inj this).symm

end TurboPanel.Ip
