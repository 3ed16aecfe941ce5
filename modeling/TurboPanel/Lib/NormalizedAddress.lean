import TurboPanel.Lib.AddressScope

/-!
# What a normalized address denotes

`Denotes` says which address a text names once the padding, the prefix length, the brackets and the
zone are gone; it does not mention `normalizeIpAddress`. The function is sound for it but for two
kinds of text: a pair of hexadecimal groups alone (`7f00:1`), which names no address and is answered
with the IPv4 address made of the two groups, and an IPv4-mapped address that is not spelled
`::ffff:` and two groups, which is answered as it stands (`normalizesSoundly_iff`).
-/

namespace TurboPanel.Ip

open Option Js List

/-! ## The abstract reading -/

/-- The text that is judged: one `/digits` suffix, one pair of brackets and a `%zone` are gone. -/
def candidateOf (value : Text) : Text := cutZone (unbracket (stripInetPrefixSuffix (trim value)))

/-- The high bits of an IPv4-mapped address. -/
def mappedPrefix : ℕ := 0xffff

/-- The address that a text names: an IPv4 address, an IPv6 address (where an IPv4-mapped one stands
for the IPv4 address), or `::ffff:` and a dotted quad. -/
inductive Denotes (text : Text) : IpAddressVersion → ℕ → Prop
  | ipv4 {n : ℕ} (version : parseIpVersion text = some .v4) (number : ipToBigInt? text = some n) :
      Denotes text .v4 n
  | ipv6 {n : ℕ} (version : parseIpVersion text = some .v6) (number : ipToBigInt? text = some n)
      (other : n / 2 ^ 32 ≠ mappedPrefix) : Denotes text .v6 n
  | mapped {n : ℕ} (version : parseIpVersion text = some .v6) (number : ipToBigInt? text = some n)
      (inside : n / 2 ^ 32 = mappedPrefix) : Denotes text .v4 (n % 2 ^ 32)
  | quad {n : ℕ} (start : startsMapped text = true) (dotted : isIpv4Address (text.drop 7) = true)
      (number : ipToBigInt? (text.drop 7) = some n) : Denotes text .v4 n

/-- An IPv4-mapped address in any spelling but `::ffff:` and two groups. -/
structure IsUnspelledMapped (text : Text) : Prop where
  version : parseIpVersion text = some .v6
  inside : ∃ n, ipToBigInt? text = some n ∧ n / 2 ^ 32 = mappedPrefix
  unspelled : ¬(startsMapped text = true ∧ (hexMapped (text.drop 7)).isSome)

/-- `normalizeIpAddress` answers with the address that the text names, and with `null` when it names
none. -/
structure NormalizesSoundly (value : Text) : Prop where
  denoted : ∀ r, normalizeIpAddress value = some r → ∃ version n,
    Denotes (candidateOf value) version n ∧ parseIpVersion r = some version ∧
      ipToBigInt? r = some n
  refused : (¬∃ version n, Denotes (candidateOf value) version n) → normalizeIpAddress value = none

/-! ## The answer for a candidate -/

/-- What is done with the candidate. -/
def unwrapMapped (candidate : Text) : Option Text :=
  let mapped := stripMappedPrefix candidate
  if mapped ≠ candidate ∧ isIpv4Address mapped = true then some mapped
  else
    match hexMapped (if mapped ≠ candidate then mapped else candidate) with
    | some (hi, lo) =>
      some (dottedOfGroups ((parseInt 16 hi).getD 0).toNat ((parseInt 16 lo).getD 0).toNat)
    | none => if isValidIpAddress candidate then some candidate else none

theorem normalizeIpAddress_eq (value : Text) :
    normalizeIpAddress value = unwrapMapped (candidateOf value) := rfl

variable {a : Text} {version : IpAddressVersion} {candidate : Text}

theorem candidateOf_of_spells {groups : List ℕ} (h : SpellsIpv6 a groups) :
    candidateOf a = a := candidate_of_spells h

theorem candidateOf_bigIntToIpv4 (v : ℕ) : candidateOf (bigIntToIpv4 v) = bigIntToIpv4 v := by
  have hnot : ∀ c, c ≠ '.' → isDigitOf 10 c = false → c ∉ bigIntToIpv4 v := by
    intro c h₁ h₂
    rw [bigIntToIpv4_eq]
    exact not_mem_dotted h₁ h₂
  exact candidate_eq (trim_bigIntToIpv4 v) (hnot '/' (by decide) (by decide))
    (hnot '[' (by decide) (by decide)) (hnot '%' (by decide) (by decide))

/-- The pair of groups that is read as an IPv4 address, with the answer. -/
def hexDotted (pair : Text × Text) : Text :=
  dottedOfGroups ((parseInt 16 pair.1).getD 0).toNat ((parseInt 16 pair.2).getD 0).toNat

theorem hexDotted_eq {a hi lo : Text} (h : hexMapped a = some (hi, lo)) :
    hexDotted (hi, lo) = bigIntToIpv4 (ofDigits 16 hi * 2 ^ 16 + ofDigits 16 lo) ∧
      ofDigits 16 hi < 2 ^ 16 ∧ ofDigits 16 lo < 2 ^ 16 := by
  obtain ⟨-, hhi, hlo⟩ := hexMapped_eq_some.1 h
  have hx := (spellsHextet_of_isIpv6Hextet hhi).lt
  have hy := (spellsHextet_of_isIpv6Hextet hlo).lt
  refine ⟨?_, hx, hy⟩
  simp only [hexDotted, parseInt_of_isIpv6Hextet hhi, parseInt_of_isIpv6Hextet hlo]
  exact dottedOfGroups_eq hx hy

theorem stripMappedPrefix_ne (h : startsMapped candidate = true) :
    stripMappedPrefix candidate = candidate.drop 7 ∧ candidate.drop 7 ≠ candidate := by
  refine ⟨by rw [stripMappedPrefix, if_pos h], fun heq => ?_⟩
  obtain ⟨group, rest, ha, hlen, -⟩ := startsMapped_iff.1 h
  have hlt := congrArg List.length heq
  rw [length_drop, ha] at hlt
  simp only [length_cons, length_append] at hlt
  omega

theorem unwrapMapped_of_not_start (h : startsMapped candidate = false) :
    unwrapMapped candidate = ((hexMapped candidate).map hexDotted).orElse fun _ =>
      if isValidIpAddress candidate then some candidate else none := by
  have hstrip : stripMappedPrefix candidate = candidate := by
    rw [stripMappedPrefix, if_neg (by rw [h]; exact Bool.false_ne_true)]
  unfold unwrapMapped
  simp only [hstrip, ne_eq, not_true_eq_false, false_and, if_false]
  cases hexMapped candidate <;> rfl

theorem unwrapMapped_of_start (h : startsMapped candidate = true) :
    unwrapMapped candidate =
      if isIpv4Address (candidate.drop 7) then some (candidate.drop 7)
      else ((hexMapped (candidate.drop 7)).map hexDotted).orElse fun _ =>
        if isValidIpAddress candidate then some candidate else none := by
  obtain ⟨hstrip, hne⟩ := stripMappedPrefix_ne h
  unfold unwrapMapped
  simp only [hstrip, ne_eq, hne, not_false_eq_true, true_and, if_true]
  split_ifs
  · rfl
  · cases hexMapped (candidate.drop 7) <;> rfl
  · cases hexMapped (candidate.drop 7) <;> rfl

/-! ## Kinds of candidates -/

theorem startsMapped_eq_false_of_count (h : a.count ':' < 3) :
    startsMapped a = false := by
  rw [← Bool.not_eq_true]
  intro hstart
  obtain ⟨group, rest, rfl, -⟩ := startsMapped_iff.1 hstart
  simp only [count_cons_self, count_append] at h
  omega

theorem two_le_count_colon_of_v6 (h : parseIpVersion a = some .v6) :
    2 ≤ a.count ':' := by
  obtain ⟨groups, hs⟩ := exists_spells_of_parseIpVersion h
  obtain ⟨w, r, hw, hr, e⟩ := exists_eq_append_trim a
  have := two_le_count_colon hs
  rw [e, count_append, count_append]
  omega

theorem parseIpVersion_of_hexMapped {a hi lo : Text} (h : hexMapped a = some (hi, lo)) :
    parseIpVersion a = none := by
  have hcount := count_colon_of_hexMapped h
  cases hver : parseIpVersion a with
  | none => rfl
  | some ver =>
    cases ver with
    | v4 =>
      rw [count_eq_zero_of_not_mem (colon_not_mem_of_v4 hver)] at hcount
      exact absurd hcount (by omega)
    | v6 =>
      have := two_le_count_colon_of_v6 hver
      omega

theorem isValidIpAddress_eq : isValidIpAddress a = (parseIpVersion a).isSome := rfl

theorem unwrapMapped_of_v4 (h : parseIpVersion a = some .v4) :
    unwrapMapped a = some a := by
  have hcount : a.count ':' = 0 := count_eq_zero_of_not_mem (colon_not_mem_of_v4 h)
  have hhex : hexMapped a = none := by
    rw [eq_none_iff_forall_not_mem]
    rintro ⟨hi, lo⟩ hmem
    rw [count_colon_of_hexMapped hmem] at hcount
    omega
  rw [unwrapMapped_of_not_start (startsMapped_eq_false_of_count (by omega)), hhex,
    isValidIpAddress_eq, h]
  rfl

theorem spells_of_hexMapped {a hi lo : Text} (hstart : startsMapped a = true)
    (hhex : hexMapped (a.drop 7) = some (hi, lo)) :
    SpellsIpv6 a (mappedGroups (ofDigits 16 hi) (ofDigits 16 lo)) := by
  obtain ⟨group, rest, ha, hlen, hf⟩ := startsMapped_iff.1 hstart
  have hgroup := spellsHextet_of_f hlen hf
  obtain ⟨c, d, e, f, rfl⟩ := length_eq_four.1 hlen
  obtain ⟨hrest, hhi, hlo⟩ := hexMapped_eq_some.1 hhex
  have hform : SpellsIpv6 (colonJoin [] ++ ':' :: ':' :: colonJoin [[c, d, e, f], hi, lo])
      ([] ++ List.replicate 5 0 ++ [0xffff, ofDigits 16 hi, ofDigits 16 lo]) :=
    .compressed .nil (.cons hgroup (.cons (spellsHextet_of_isIpv6Hextet hhi)
      (.cons (spellsHextet_of_isIpv6Hextet hlo) .nil))) (by omega) rfl
  have htext : colonJoin [] ++ ':' :: ':' :: colonJoin [[c, d, e, f], hi, lo] = a := by
    rw [ha] at hrest ⊢
    change rest = hi ++ ':' :: lo at hrest
    rw [hrest]
    simp [colonJoin, intercalate_cons_cons]
  rw [htext] at hform
  exact hform

theorem unwrapMapped_of_v6 (h : parseIpVersion a = some .v6) :
    unwrapMapped a = ((if startsMapped a then hexMapped (a.drop 7) else none).map hexDotted).orElse
      fun _ => some a := by
  have hcolons := two_le_count_colon_of_v6 h
  have hvalid : isValidIpAddress a = true := by rw [isValidIpAddress_eq, h]; rfl
  cases hstart : startsMapped a with
  | true =>
    have hdot : isIpv4Address (a.drop 7) = false := by
      -- an address with colons has no dots
      obtain ⟨groups, hs⟩ := exists_spells_of_parseIpVersion h
      obtain ⟨w, r, hw, hr, e⟩ := exists_eq_append_trim a
      rw [← Bool.not_eq_true, isIpv4Address_iff]
      rintro ⟨v, -, hv⟩
      have hmem : '.' ∈ a.drop 7 := by
        rw [hv, bigIntToIpv4_eq, octetsOf]
        simp [dotted, intercalate_cons_cons]
      have hmem := mem_of_mem_drop hmem
      rw [e, mem_append, mem_append] at hmem
      rcases hmem with (hmem | hmem) | hmem
      · exact absurd (hw _ hmem) (by decide)
      · exact hs.not_mem_text (by decide) (by decide) hmem
      · exact absurd (hr _ hmem) (by decide)
    rw [unwrapMapped_of_start hstart, hdot, hvalid]
    rfl
  | false =>
    have hhex : hexMapped a = none := by
      rw [eq_none_iff_forall_not_mem]
      rintro ⟨hi, lo⟩ hmem
      have := count_colon_of_hexMapped hmem
      omega
    rw [unwrapMapped_of_not_start hstart, hhex, hvalid]
    rfl

theorem unwrapMapped_of_kept (h : parseIpVersion a = some .v6)
    (hspelled : ¬(startsMapped a = true ∧ (hexMapped (a.drop 7)).isSome)) :
    unwrapMapped a = some a := by
  rw [unwrapMapped_of_v6 h]
  split_ifs with hstart
  · cases hpair : hexMapped (a.drop 7) with
    | none => rfl
    | some pair => exact absurd ⟨hstart, by rw [hpair]; rfl⟩ hspelled
  · rfl

theorem unwrapMapped_of_hexMapped {a hi lo : Text} (h : hexMapped a = some (hi, lo)) :
    unwrapMapped a = some (hexDotted (hi, lo)) := by
  have hcount := count_colon_of_hexMapped h
  rw [unwrapMapped_of_not_start (startsMapped_eq_false_of_count (by omega)), h]
  rfl

theorem unwrapMapped_of_none (h : parseIpVersion a = none) (hhex : hexMapped a = none) :
    unwrapMapped a =
      if startsMapped a ∧ isIpv4Address (a.drop 7) then some (a.drop 7) else none := by
  have hvalid : isValidIpAddress a = false := by rw [isValidIpAddress_eq, h]; rfl
  cases hstart : startsMapped a with
  | true =>
    have hrest : hexMapped (a.drop 7) = none := by
      rw [eq_none_iff_forall_not_mem]
      rintro ⟨hi, lo⟩ hmem
      have := (spells_of_hexMapped hstart hmem).parseIpVersion_eq
      rw [h] at this
      cases this
    rw [unwrapMapped_of_start hstart, hrest, hvalid]
    simp
  | false =>
    rw [unwrapMapped_of_not_start hstart, hhex, hvalid]
    simp

/-! ## Soundness -/

/-- The kinds of text that are answered wrongly. -/
def IsMisread (text : Text) : Prop := (hexMapped text).isSome ∨ IsUnspelledMapped text

theorem not_denotes_of_hexMapped {a hi lo : Text} (h : hexMapped a = some (hi, lo)) {n : ℕ} :
    ¬Denotes a version n := by
  have hver := parseIpVersion_of_hexMapped h
  have hcount := count_colon_of_hexMapped h
  intro hd
  cases hd with
  | ipv4 hv => rw [hver] at hv; cases hv
  | ipv6 hv => rw [hver] at hv; cases hv
  | mapped hv => rw [hver] at hv; cases hv
  | quad hstart =>
    rw [startsMapped_eq_false_of_count (by omega)] at hstart
    cases hstart

theorem version_of_denotes {m n : ℕ} (hd : Denotes a version m) (hnum : ipToBigInt? a = some n)
    (hin : n / 2 ^ 32 = mappedPrefix) :
    version = .v4 := by
  cases hd with
  | ipv4 => rfl
  | ipv6 _ hm hother =>
    rw [hnum, Option.some.injEq] at hm
    exact absurd (hm ▸ hin) hother
  | mapped => rfl
  | quad => rfl

theorem exists_denotes {a r : Text} (h : unwrapMapped a = some r) (hread : ¬IsMisread a) :
    ∃ version n, Denotes a version n ∧ parseIpVersion r = some version ∧
      ipToBigInt? r = some n := by
  have hhex : hexMapped a = none := by
    cases hh : hexMapped a with
    | none => rfl
    | some pair => exact absurd (.inl (by rw [hh]; rfl)) hread
  match hver : parseIpVersion a with
  | some .v4 =>
    rw [unwrapMapped_of_v4 hver, Option.some.injEq] at h
    subst h
    obtain ⟨n, -, hn⟩ := exists_of_parseIpVersion hver
    exact ⟨.v4, n, .ipv4 hver hn, hver, hn⟩
  | some .v6 =>
    obtain ⟨n, -, hn⟩ := exists_of_parseIpVersion hver
    by_cases hspelled : startsMapped a = true ∧ (hexMapped (a.drop 7)).isSome
    · obtain ⟨hstart, hsome⟩ := hspelled
      obtain ⟨⟨hi, lo⟩, hpair⟩ := isSome_iff_exists.1 hsome
      obtain ⟨hdotted, hx, hy⟩ := hexDotted_eq hpair
      rw [unwrapMapped_of_v6 hver, if_pos hstart, hpair] at h
      obtain rfl : hexDotted (hi, lo) = r := Option.some.inj h
      have hnum := (spells_of_hexMapped hstart hpair).ipToBigInt_eq
      rw [hn, Option.some.injEq, numberOf_mappedGroups] at hnum
      refine ⟨.v4, n % 2 ^ 32, .mapped hver hn ?_, ?_, ?_⟩
      · rw [hnum, mappedPrefix]
        omega
      · rw [hdotted, parseIpVersion_bigIntToIpv4]
      · rw [hdotted, ipToBigInt_bigIntToIpv4 (by omega), hnum]
        refine congrArg some ?_
        omega
    · rw [unwrapMapped_of_kept hver hspelled, Option.some.injEq] at h
      subst h
      refine ⟨.v6, n, .ipv6 hver hn fun hin => hread (.inr ?_), hver, hn⟩
      exact ⟨hver, ⟨n, hn, hin⟩, hspelled⟩
  | none =>
    rw [unwrapMapped_of_none hver hhex] at h
    split_ifs at h with hquad
    cases h
    obtain ⟨v, hv, htext⟩ := isIpv4Address_iff.1 hquad.2
    have hn : ipToBigInt? (a.drop 7) = some v := by rw [htext, ipToBigInt_bigIntToIpv4 hv]
    have hv4 : parseIpVersion (a.drop 7) = some .v4 := by
      rw [htext, parseIpVersion_bigIntToIpv4]
    exact ⟨.v4, v, .quad hquad.1 hquad.2 hn, hv4, hn⟩

theorem unwrapMapped_ne_none {n : ℕ} (h : Denotes a version n) : unwrapMapped a ≠ none := by
  have hv6 : parseIpVersion a = some .v6 → unwrapMapped a ≠ none := by
    intro hver
    rw [unwrapMapped_of_v6 hver]
    cases (if startsMapped a then hexMapped (a.drop 7) else none) <;>
      simp [Option.orElse]
  cases h with
  | ipv4 hver => rw [unwrapMapped_of_v4 hver]; exact some_ne_none a
  | ipv6 hver => exact hv6 hver
  | mapped hver => exact hv6 hver
  | quad hstart hdot _ =>
    rw [unwrapMapped_of_start hstart, if_pos hdot]
    exact some_ne_none _

/-- **Soundness of normalization.** The answer is the address that the text names, and `null` when
it names none, exactly when the candidate is no bare pair of groups and no IPv4-mapped address in
another spelling than `::ffff:` and two groups. But for the bare pairs, a text is answered exactly
when it names an address. -/
theorem normalizesSoundly_iff (value : Text) :
    (NormalizesSoundly value ↔ ¬IsMisread (candidateOf value)) ∧
      (hexMapped (candidateOf value) = none →
        (normalizeIpAddress value = none ↔ ¬∃ version n, Denotes (candidateOf value) version n)) := by
  have hrefused : hexMapped (candidateOf value) = none →
      (¬∃ version n, Denotes (candidateOf value) version n) → normalizeIpAddress value = none := by
    intro hhex hnone
    rw [normalizeIpAddress_eq, eq_none_iff_forall_ne_some]
    intro r hr
    -- an unspelled mapped address still names one
    by_cases hread : IsMisread (candidateOf value)
    · rcases hread with hsome | ⟨hver, ⟨n, hn, hin⟩, -⟩
      · rw [hhex] at hsome
        cases hsome
      · exact hnone ⟨.v4, _, .mapped hver hn hin⟩
    · obtain ⟨version, n, hd, -⟩ := exists_denotes hr hread
      exact hnone ⟨version, n, hd⟩
  refine ⟨⟨fun h hread => ?_, fun hread => ⟨fun r hr => exists_denotes hr hread, ?_⟩⟩, fun hhex => ?_⟩
  · rcases hread with hsome | ⟨hver, ⟨n, hn, hin⟩, hspelled⟩
    · obtain ⟨⟨hi, lo⟩, hpair⟩ := isSome_iff_exists.1 hsome
      obtain ⟨version, m, hd, -⟩ := h.denoted _ (unwrapMapped_of_hexMapped hpair)
      exact not_denotes_of_hexMapped hpair hd
    · obtain ⟨version, m, hd, hver', -⟩ :=
        h.denoted (candidateOf value) (unwrapMapped_of_kept hver hspelled)
      rw [hver, version_of_denotes hd hn hin] at hver'
      cases hver'
  · refine hrefused ?_
    cases hh : hexMapped (candidateOf value) with
    | none => rfl
    | some pair => exact absurd (.inl (by rw [hh]; rfl)) hread
  · refine ⟨fun h => ?_, hrefused hhex⟩
    rintro ⟨version, n, hd⟩
    exact unwrapMapped_ne_none hd h

theorem mapped_quad_normalized : NormalizesSoundly "::ffff:192.0.2.1".toList ∧
    (normalizeIpAddress "::ffff:192.0.2.1".toList = none ↔
      ¬∃ version n, Denotes (candidateOf "::ffff:192.0.2.1".toList) version n) := by
  have hpair : hexMapped (candidateOf "::ffff:192.0.2.1".toList) = none := by decide
  obtain ⟨hsound, hnull⟩ := normalizesSoundly_iff "::ffff:192.0.2.1".toList
  refine ⟨hsound.2 ?_, hnull hpair⟩
  rintro (h | h)
  · rw [hpair] at h
    cases h
  · cases h.version

/-- Two groups alone are taken for an IPv4 address. -/
theorem bare_pair_normalized : ¬NormalizesSoundly "7f00:1".toList := by
  intro h
  obtain ⟨version, n, hd, -⟩ := h.denoted "127.0.0.1".toList (by decide)
  have hpair : hexMapped (candidateOf "7f00:1".toList) = some ("7f00".toList, "1".toList) := by
    decide
  exact not_denotes_of_hexMapped hpair hd

end TurboPanel.Ip
