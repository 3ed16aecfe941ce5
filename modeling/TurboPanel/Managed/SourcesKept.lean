import TurboPanel.Data.Traversal
import TurboPanel.Js.Bounded
import TurboPanel.Managed.SourcePatterns

/-!
# Saved places stay as they are

Each place is stored in a form that is read back as the same place (`reparse_iff`): a pattern of
octets or groups, an address in its short form, a server id in lower case. So a list that was taken
is taken again unchanged, but for two kinds of entries: an IPv4-mapped address that is not spelled
`::ffff:` and two groups, which is stored as an IPv6 address that is read as the IPv4 address in it
the next time, and an IPv4 address with blanks left around it (`login_sources_stable`).
-/

namespace TurboPanel.LoginSources

open Js Ip Compose List

/-! ## Texts -/

theorem cutStart_eq_some {start entry rest : Text} :
    cutStart start entry = some rest ↔ entry = start ++ rest := by
  rw [cutStart]
  constructor
  · intro h
    split_ifs at h with hstart
    rw [← Option.some.inj h]
    exact prefix_append_drop ( isPrefixOf_iff_prefix.1 hstart)
  · rintro rfl
    rw [if_pos ( isPrefixOf_iff_prefix.2 (prefix_append start rest)), drop_left]

theorem trim_append {start : Text} (hhead : ∀ c ∈ start.head?, isSpace c = false)
    (hlast : ∀ c ∈ start.getLast?, isSpace c = false) (hne : start ≠ []) (t : Text) :
    ∃ u, trim (start ++ t) = start ++ u ∧ trim u = trim t := by
  obtain ⟨w, r, hw, hr, ht⟩ := exists_eq_append_trim t
  have hhead' : ∀ rest, ∀ c ∈ (start ++ rest).head?, isSpace c = false := by
    intro rest c hc
    rw [head?_append_of_ne_nil _ hne] at hc
    exact hhead c hc
  by_cases hnil : trim t = []
  · refine ⟨[], ?_, by rw [hnil]; rfl⟩
    rw [hnil, append_nil] at ht
    have hspaces : ∀ c ∈ w ++ r, isSpace c = true := fun c hc =>
      (mem_append.1 hc).elim (hw c) (hr c)
    have htrim := @trim_padded [] start (w ++ r) (by simp) hspaces hhead hlast hne
    rw [ht, append_nil]
    rwa [nil_append] at htrim
  · refine ⟨w ++ trim t, ?_, ?_⟩
    · have htrim := @trim_padded [] (start ++ (w ++ trim t)) r (by simp) hr (hhead' _)
        (fun c hc => ?_) (append_ne_nil_of_left_ne_nil hne _)
      · rw [nil_append, append_assoc, ← ht] at htrim
        exact htrim
      · rw [← append_assoc, getLast?_append_of_ne_nil _ hnil] at hc
        exact getLast?_trim t c hc
    · have htrim := @trim_padded w (trim t) [] hw (by simp) (head?_trim t) (getLast?_trim t) hnil
      rwa [append_nil] at htrim

theorem trim_append_self {start t : Text} (hhead : ∀ c ∈ start.head?, isSpace c = false)
    (hlast : ∀ c ∈ start.getLast?, isSpace c = false) (hne : start ≠ []) (ht : trim t = t) :
    trim (start ++ t) = start ++ t := by
  refine trim_eq_self (fun c hc => ?_) fun c hc => ?_
  · rw [head?_append_of_ne_nil _ hne] at hc
    exact hhead c hc
  · by_cases hnil : t = []
    · rw [hnil, append_nil] at hc
      exact hlast c hc
    · rw [getLast?_append_of_ne_nil _ hnil] at hc
      exact getLast?_trim t c (ht.symm ▸ hc)

theorem mem_trim {c : Char} {l : Text} (h : c ∈ l) (hc : isSpace c = false) : c ∈ trim l := by
  obtain ⟨w, r, hw, hr, hl⟩ := exists_eq_append_trim l
  rw [hl, mem_append, mem_append] at h
  rcases h with (h | h) | h
  · rw [hw c h] at hc
    cases hc
  · exact h
  · rw [hr c h] at hc
    cases hc

/-! ## Entries that are stored in another spelling -/

/-- The text of the one address that a value names: typed alone, or a range without host bits. -/
def hostText (value : Text) : Option Text :=
  if value.contains '/' then
    match parseCidr value with
    | some cidr => if cidr.hostBits = 0 then some (beforeSlash value) else none
    | none => none
  else if value.getLast? = some '%' then none
  else some value

/-- The value names one address, and its stored form does not name it: an IPv4-mapped address that
is not spelled `::ffff:` and two groups, or an IPv4 address with blanks left around it. -/
def IsRespelled (value : Text) : Prop :=
  ∃ text, hostText value = some text ∧
    (IsUnspelledMapped (candidateOf text) ∨ IsPaddedIpv4 (candidateOf text))

/-- The stored form of a value. -/
inductive Written (value : Text) : Text → Prop
  | octets {octets : List ℕ} (nohost : hostText value = none) (some_octet : octets ≠ []) (le : octets.length ≤ 3)
      (lt : ∀ o ∈ octets, o < 256) : Written value (octetsPattern octets)
  | groups {groups : List ℕ} (nohost : hostText value = none) (some_group : groups ≠ [])
      (le : groups.length ≤ 7) (lt : ∀ g ∈ groups, g < 2 ^ 16) (nonzero : ∀ g ∈ groups, g ≠ 0) :
      Written value (groupsPattern groups)
  | address {text : Text} {version : IpAddressVersion} {n : ℕ} (host : hostText value = some text)
      (lt : n < 2 ^ version.bitWidth) (unpadded : ¬IsPaddedIpv4 (candidateOf text))
      (mapped : version = .v6 ∧ n / 2 ^ 32 = mappedPrefix ↔ IsUnspelledMapped (candidateOf text)) :
      Written value (bigIntToIp n version)
  | padded (host : hostText value = some value) (padded : IsPaddedIpv4 (candidateOf value)) :
      Written value (candidateOf value)

theorem mem_octetsOf_lt {base o : ℕ} (h : o ∈ octetsOf base) : o < 256 := by
  simp only [octetsOf, mem_cons, not_mem_nil, or_false] at h
  omega

theorem written_of_canonical {value text t : Text} (hhost : hostText value = some text)
    (hpad : ¬IsPaddedIpv4 (candidateOf text)) (h : canonicalIpAddress text = some t) : Written value t := by
  cases hnorm : normalizeIpAddress text with
  | none =>
    rw [canonicalIpAddress, hnorm] at h
    cases h
  | some r =>
    obtain ⟨version, n, hn, hcanon, hmapped⟩ := exists_of_normalizeIpAddress hnorm
    rw [hcanon, Option.some.injEq] at h
    rw [← h]
    exact .address hhost hn hpad hmapped

theorem written_of_range {value t : Text} (hslash : '/' ∈ value) (h : cidrToSourcePrefix value = .ok t) :
    Written value t := by
  obtain ⟨cidr, hcidr, hpattern⟩ := rangePattern_of_ok h
  have hcontains : value.contains '/' = true := by simpa using hslash
  have hnohost : cidr.hostBits ≠ 0 → hostText value = none := by
    intro hbits
    rw [hostText, if_pos hcontains, hcidr]
    exact if_neg hbits
  cases hpattern with
  | host hhost htext =>
    have hsome : hostText value = some (beforeSlash value) := by
      rw [hostText, if_pos hcontains, hcidr]
      exact if_pos hhost
    obtain ⟨hver, b, -, hnum, -⟩ := beforeSlash_of_parseCidr hcidr
    have hpad := not_padded_of_parseIpVersion hver
    refine written_of_canonical hsome hpad ?_
    rw [← standardAddress_eq hpad, htext]
    by_cases hspelled : IsSpelledMapped (candidateOf (beforeSlash value))
    · rw [(host_pattern hcidr hhost).1 hspelled, Option.getD_some]
    · rw [(host_pattern hcidr hhost).2 hspelled, Option.getD_some]
  | @octets k version length pos le =>
    refine .octets (hnohost ?_) (fun hnil => ?_) ?_ fun o ho => mem_octetsOf_lt (mem_of_mem_take ho)
    · rw [ParsedCidr.hostBits, version, length]
      change 32 - _ ≠ 0
      omega
    · have hlen := congrArg List.length hnil
      rw [length_take, length_nil] at hlen
      change min k 4 = 0 at hlen
      omega
    · rw [length_take]
      exact (Nat.min_le_left _ _).trans le
  | @groups k version length pos le nonzero =>
    refine .groups (hnohost ?_) (fun hnil => ?_) ?_
      (fun g hg => lt_of_mem_ipv6HextetsFromBigInt (mem_of_mem_take hg)) nonzero
    · rw [ParsedCidr.hostBits, version, length]
      change 128 - _ ≠ 0
      omega
    · have hlen := congrArg List.length hnil
      rw [length_take, length_ipv6HextetsFromBigInt, length_nil] at hlen
      omega
    · rw [length_take]
      exact (Nat.min_le_left _ _).trans le

theorem written_of_ok {raw t : Text} (h : parseAddressEntry raw = .ok t) : Written (trim raw) t := by
  rw [parseAddressEntry] at h
  split_ifs at h with hslash hlast
  · exact written_of_range (by simpa using hslash) h
  · have hnohost : hostText (trim raw) = none := by
      rw [hostText, if_neg hslash, if_pos hlast]
    cases typedPattern_of_ok h with
    | @octets parts text some_part le digits inRange =>
      refine .octets hnohost (by simpa using some_part) (by rwa [length_map]) fun o ho => ?_
      obtain ⟨p, hp, rfl⟩ := mem_map.1 ho
      have hrange := inRange p hp
      simp only [octetInRange, Bool.and_eq_true, decide_eq_true_eq] at hrange
      omega
    | @groups parts text some_part le digits nonzero =>
      refine .groups hnohost (by simpa using some_part) (by rwa [length_map]) (fun g hg => ?_)
        fun g hg => ?_
      · obtain ⟨p, hp, rfl⟩ := mem_map.1 hg
        exact (spellsHextet_of_isIpv6Hextet (digits p hp)).lt
      · obtain ⟨p, hp, rfl⟩ := mem_map.1 hg
        exact nonzero p hp
  · have hhost : hostText (trim raw) = some (trim raw) := by
      rw [hostText, if_neg hslash, if_neg hlast]
    split at h
    · rename_i address haddress
      cases h
      by_cases hpad : IsPaddedIpv4 (candidateOf (trim raw))
      · rw [standardAddress_of_padded hpad, Option.some.injEq] at haddress
        rw [← haddress]
        exact .padded hhost hpad
      · rw [standardAddress_eq hpad] at haddress
        exact written_of_canonical hhost hpad haddress
    · cases h

/-! ## Stored forms are read back -/

/-- A stored form that is read back as it is. -/
structure IsKept (t : Text) : Prop where
  trimmed : trim t = t
  reparsed : parseAddressEntry t = .ok t

theorem parseAddressEntry_trim (raw : Text) : parseAddressEntry (trim raw) = parseAddressEntry raw := by
  rw [parseAddressEntry, parseAddressEntry, trim_trim]

theorem mem_octetsPattern {octets : List ℕ} {c : Char} (h : c ∈ octetsPattern octets) :
    c = '.' ∨ c = '%' ∨ isDigitOf 10 c = true := by
  rcases mem_append.1 h with h | h
  · rcases mem_intercalate_singleton h with h | ⟨p, hp, hc⟩
    · exact .inl h
    · obtain ⟨n, -, rfl⟩ := mem_map.1 hp
      exact .inr (.inr (isDigitOf_of_mem_decimal hc))
  · simp only [mem_cons, not_mem_nil, or_false] at h
    exact h.imp_right .inl

theorem mem_groupsPattern {groups : List ℕ} {c : Char} (h : c ∈ groupsPattern groups) :
    c = ':' ∨ c = '%' ∨ isDigitOf 16 c = true := by
  rcases mem_append.1 h with h | h
  · rcases mem_intercalate_singleton h with h | ⟨p, hp, hc⟩
    · exact .inl h
    · obtain ⟨n, -, rfl⟩ := mem_map.1 hp
      exact .inr (.inr (isDigitOf_of_mem_toDigits (by decide) (by decide) c hc))
  · simp only [mem_cons, not_mem_nil, or_false] at h
    exact h.imp_right .inl

set_option maxRecDepth 4000 in
theorem octetInRange_toDigits : ∀ n < 256, isOctetDigits (Nat.toDigits 10 n) = true ∧
    octetInRange (Nat.toDigits 10 n) = true := by decide

theorem parseAddressEntry_pattern {t : Text} (htrim : trim t = t) (hslash : '/' ∉ t)
    (hlast : t.getLast? = some '%') : parseAddressEntry t = parseTypedPrefix t := by
  rw [parseAddressEntry, htrim, if_neg (by simpa using hslash), if_pos hlast]

theorem isKept_octets {octets : List ℕ} (hne : octets ≠ []) (hle : octets.length ≤ 3)
    (hlt : ∀ o ∈ octets, o < 256) : IsKept (octetsPattern octets) := by
  have htrim : trim (octetsPattern octets) = octetsPattern octets := by
    refine trim_eq_self_of_forall fun c hc => ?_
    rcases mem_octetsPattern hc with rfl | rfl | hd
    · decide
    · decide
    · exact not_isSpace_of_isDigitOf (by decide) hd
  have hslash : '/' ∉ octetsPattern octets := fun h => by
    rcases mem_octetsPattern h with h | h | h <;> cases h
  refine ⟨htrim, ?_⟩
  have hparts : ∀ p ∈ octets.map (Nat.toDigits 10), isOctetDigits p = true ∧ octetInRange p = true := by
    intro p hp
    obtain ⟨n, hn, rfl⟩ := mem_map.1 hp
    exact octetInRange_toDigits n (hlt n hn)
  have hread : ipv4Prefix (octetsPattern octets) = some (octets.map (Nat.toDigits 10)) := by
    refine (prefixGroups_eq_some fun p hp => dot_not_mem_of_isOctetDigits hp).2 ⟨rfl, by simpa using hne, ?_,
      fun p hp => (hparts p hp).1⟩
    rwa [length_map]
  rw [parseAddressEntry_pattern htrim hslash (by simp [octetsPattern]), parseTypedPrefix, hread]
  exact if_pos (all_eq_true.2 fun p hp => (hparts p hp).2)

theorem isKept_groups {groups : List ℕ} (hne : groups ≠ []) (hle : groups.length ≤ 7)
    (hlt : ∀ g ∈ groups, g < 2 ^ 16) (hzero : ∀ g ∈ groups, g ≠ 0) : IsKept (groupsPattern groups) := by
  have htrim : trim (groupsPattern groups) = groupsPattern groups := by
    refine trim_eq_self_of_forall fun c hc => ?_
    rcases mem_groupsPattern hc with rfl | rfl | hd
    · decide
    · decide
    · exact not_isSpace_of_isDigitOf (by decide) hd
  have hnot : ∀ c, c ≠ ':' → c ≠ '%' → isDigitOf 16 c = false → c ∉ groupsPattern groups := by
    intro c hcolon hpercent hdigit h
    rcases mem_groupsPattern h with h | h | h
    · exact hcolon h
    · exact hpercent h
    · rw [hdigit] at h
      cases h
  refine ⟨htrim, ?_⟩
  have hoctets : ipv4Prefix (groupsPattern groups) = none := by
    rw [Option.eq_none_iff_forall_ne_some]
    intro parts hparts
    obtain ⟨htext, -⟩ := (prefixGroups_eq_some fun p hp => dot_not_mem_of_isOctetDigits hp).1 hparts
    have hdot : '.' ∈ groupsPattern groups := by
      rw [htext]
      exact mem_append_right _ mem_cons_self
    exact hnot '.' (by decide) (by decide) (by decide) hdot
  have hparts : ∀ p ∈ groups.map (Nat.toDigits 16), isIpv6Hextet p = true := by
    intro p hp
    obtain ⟨g, hg, rfl⟩ := mem_map.1 hp
    exact (spellsHextet_toDigits (hlt g hg)).isIpv6Hextet
  have hnumber : ∀ g ∈ groups, groupNumber (Nat.toDigits 16 g) = g := by
    intro g hg
    rw [groupNumber_eq (hparts _ (mem_map_of_mem hg)), ofDigits_toDigits (by decide) (by decide)]
  have hread : ipv6Prefix (groupsPattern groups) = some (groups.map (Nat.toDigits 16)) := by
    refine (prefixGroups_eq_some fun p hp => colon_not_mem_of_isIpv6Hextet hp).2
      ⟨rfl, by simpa using hne, ?_, hparts⟩
    rwa [length_map]
  rw [parseAddressEntry_pattern htrim (hnot '/' (by decide) (by decide) (by decide))
    (by simp [groupsPattern]), parseTypedPrefix, hoctets, hread]
  dsimp only
  rw [if_pos, map_map]
  · refine congrArg (fun texts => Except.ok ([':'].intercalate texts ++ [':', '%'])) ?_
    exact map_congr_left fun g hg => congrArg (Nat.toDigits 16) (hnumber g hg)
  · rw [all_eq_true]
    intro p hp
    obtain ⟨g, hg, rfl⟩ := mem_map.1 hp
    rw [hnumber g hg]
    simpa using hzero g hg

theorem not_padded_bigIntToIp (n : ℕ) (version : IpAddressVersion) :
    ¬IsPaddedIpv4 (candidateOf (bigIntToIp n version)) :=
  not_padded_of_parseIpVersion (parseIpVersion_bigIntToIp n version)

theorem trim_bigIntToIp (n : ℕ) (version : IpAddressVersion) :
    trim (bigIntToIp n version) = bigIntToIp n version := by
  cases version with
  | v4 => exact trim_bigIntToIpv4 n
  | v6 => exact (spells_bigIntToIpv6 n).trim_eq

theorem parseAddressEntry_bigIntToIp {n : ℕ} {version : IpAddressVersion} (hn : n < 2 ^ version.bitWidth) :
    parseAddressEntry (bigIntToIp n version) =
      if version = .v6 ∧ n / 2 ^ 32 = mappedPrefix then .ok (bigIntToIpv4 (n % 2 ^ 32))
      else .ok (bigIntToIp n version) := by
  have hslash := slash_not_mem_of_parseIpVersion (parseIpVersion_bigIntToIp n version)
  have hlast : (bigIntToIp n version).getLast? ≠ some '%' := fun h =>
    percent_not_mem (mem_of_getLast? h)
  rw [parseAddressEntry, trim_bigIntToIp, if_neg (by simpa using hslash), if_neg hlast,
    standardAddress_eq (not_padded_bigIntToIp n version), canonicalIpAddress_bigIntToIp hn]
  split_ifs <;> rfl

/-- **A stored value is read back as it is, unless it is stored in another spelling**; then it is
read as another value. -/
theorem Written.kept_or_changed {value t : Text} (h : Written value t) :
    (¬IsRespelled value → IsKept t) ∧
      (IsRespelled value → ∀ u, trim u = trim t → parseAddressEntry u ≠ .ok t) := by
  have hnone : hostText value = none → ¬IsRespelled value := by
    rintro hnone ⟨text, hsome, -⟩
    rw [hnone] at hsome
    cases hsome
  cases h with
  | octets nohost some_octet le lt =>
    exact ⟨fun _ => isKept_octets some_octet le lt, fun h => absurd h (hnone nohost)⟩
  | groups nohost some_group le lt nonzero =>
    exact ⟨fun _ => isKept_groups some_group le lt nonzero, fun h => absurd h (hnone nohost)⟩
  | @address text version n host lt unpadded mapped =>
    refine ⟨fun hkept => ⟨trim_bigIntToIp n version, ?_⟩, ?_⟩
    · rw [parseAddressEntry_bigIntToIp lt, if_neg]
      exact fun hin => hkept ⟨text, host, .inl (mapped.1 hin)⟩
    · rintro ⟨text', hhost, hbad⟩ u hu hread
      cases host.symm.trans hhost
      have hin := mapped.2 (hbad.resolve_right unpadded)
      rw [← parseAddressEntry_trim, hu, trim_bigIntToIp, parseAddressEntry_bigIntToIp lt, if_pos hin,
        Except.ok.injEq] at hread
      have hversion := parseIpVersion_bigIntToIp n version
      rw [← hread, parseIpVersion_bigIntToIpv4, hin.1] at hversion
      cases hversion
  | padded host padded =>
    refine ⟨fun hkept => absurd ⟨value, host, .inr padded⟩ hkept, fun _ u hu hread => ?_⟩
    obtain ⟨v, hv, htext, -⟩ := exists_of_parseIpVersion_v4 padded.1
    have hv4 : parseAddressEntry (bigIntToIpv4 v) = .ok (bigIntToIpv4 v) :=
      (@parseAddressEntry_bigIntToIp v .v4 hv).trans (if_neg fun h => nomatch h.1)
    rw [← parseAddressEntry_trim, hu, htext, hv4, Except.ok.injEq] at hread
    exact padded.2 (htext.trans hread)

theorem Written.slash_not_mem {value t : Text} (h : Written value t) : '/' ∉ t := by
  cases h with
  | octets =>
    intro hmem
    rcases mem_octetsPattern hmem with h | h | h <;> cases h
  | groups =>
    intro hmem
    rcases mem_groupsPattern hmem with h | h | h <;> cases h
  | @address _ version n =>
    exact slash_not_mem_of_parseIpVersion (parseIpVersion_bigIntToIp n version)
  | padded _ padded => exact slash_not_mem_of_parseIpVersion padded.1

/-! ## Server ids -/

theorem lower_uuid_char : ∀ n < 128, isDigitOf 16 (Char.ofNat n) = true ∨ Char.ofNat n = '-' →
    (isDigitOf 16 (Char.ofNat n).toLower = isDigitOf 16 (Char.ofNat n) ∧
      ((Char.ofNat n).toLower = '-' ↔ Char.ofNat n = '-')) ∧
    (Char.ofNat n).toLower.toLower = (Char.ofNat n).toLower ∧ (Char.ofNat n).toLower.toNat < 128 := by
  decide

theorem lower_of_uuid_char {c : Char} (h : isDigitOf 16 c = true ∨ c = '-') :
    (isDigitOf 16 c.toLower = isDigitOf 16 c ∧ (c.toLower = '-' ↔ c = '-')) ∧
      c.toLower.toLower = c.toLower ∧ c.toLower.toNat < 128 := by
  have hlt : c.toNat < 128 := by
    rcases h with h | rfl
    · have := toNat_of_isDigitOf (by decide) h
      omega
    · decide
  have hchar := lower_uuid_char c.toNat hlt
  rw [Char.ofNat_toNat] at hchar
  exact hchar h

theorem uuid_char {id : Text} (h : isUuid id = true) {c : Char} (hc : c ∈ id) :
    isDigitOf 16 c = true ∨ c = '-' := by
  rw [isUuid, Bool.and_eq_true, all_eq_true] at h
  obtain ⟨i, hi, rfl⟩ := mem_iff_getElem.1 hc
  have hplace := h.2 (id[i], i) (mem_zipIdx_iff_getElem?.2 (getElem?_eq_getElem hi))
  dsimp only at hplace
  split_ifs at hplace with hdash
  · exact .inr (of_decide_eq_true hplace)
  · exact .inl hplace

theorem isUuid_toLowerCase {id : Text} (h : isUuid id = true) :
    isUuid (toLowerCase id) = true ∧ toLowerCase (toLowerCase id) = toLowerCase id := by
  have hlower : toLowerCase id = id.map Char.toLower := by
    refine toLowerCase_eq_map fun c hc => ?_
    obtain ⟨d, hd, rfl⟩ := mem_map.1 hc
    exact (lower_of_uuid_char (uuid_char h hd)).2.2
  have htwice : (id.map Char.toLower).map Char.toLower = id.map Char.toLower := by
    rw [map_map]
    exact map_congr_left fun c hc => (lower_of_uuid_char (uuid_char h hc)).2.1
  constructor
  · have hid := h
    rw [isUuid, Bool.and_eq_true, all_eq_true] at hid
    rw [hlower, isUuid, Bool.and_eq_true, length_map, zipIdx_map, all_eq_true]
    refine ⟨hid.1, fun p hp => ?_⟩
    obtain ⟨⟨c, i⟩, hmem, rfl⟩ := mem_map.1 hp
    obtain ⟨⟨hdigit, hdash⟩, -⟩ := lower_of_uuid_char (uuid_char h (fst_mem_of_mem_zipIdx hmem))
    have hplace := hid.2 (c, i) hmem
    dsimp only [Prod.map, id_eq] at hplace ⊢
    rwa [hdigit, decide_eq_decide.2 hdash]
  · rw [hlower, toLowerCase_eq_map, htwice]
    intro c hc
    rw [htwice] at hc
    obtain ⟨d, hd, rfl⟩ := mem_map.1 hc
    exact (lower_of_uuid_char (uuid_char h hd)).2.2

/-! ## Places -/

/-- The entry names one address, and its stored form does not name it. -/
def IsRespelledEntry (entry : Text) : Prop :=
  ∃ rest, trim entry = "address:".toList ++ rest ∧ IsRespelled (trim rest)

theorem parseSourceEntry_address (rest : Text) : parseSourceEntry ("address:".toList ++ rest) =
    (parseAddressEntry rest).map ("address:".toList ++ ·) := by
  have hinternal : "address:".toList ++ rest ≠ "internal".toList := fun h =>
    absurd (List.cons.inj h).1 (by decide)
  have hserver : cutStart "server:".toList ("address:".toList ++ rest) = none := by
    rw [Option.eq_none_iff_forall_ne_some]
    intro id hid
    exact absurd (List.cons.inj (cutStart_eq_some.1 hid)).1 (by decide)
  rw [parseSourceEntry, if_neg hinternal, hserver, cutStart_eq_some.2 rfl]

theorem parseSourceEntry_server {id : Text} (h : isUuid id = true) :
    parseSourceEntry ("server:".toList ++ id) = .ok ("server:".toList ++ toLowerCase id) := by
  have hinternal : "server:".toList ++ id ≠ "internal".toList := fun h =>
    absurd (List.cons.inj h).1 (by decide)
  rw [parseSourceEntry, if_neg hinternal, cutStart_eq_some.2 rfl]
  exact if_pos h

/-- The three kinds of places. -/
inductive PlaceOf (entry : Text) : Text → Prop
  | internal (text : entry = "internal".toList) : PlaceOf entry "internal".toList
  | server {id : Text} (text : entry = "server:".toList ++ id) (uuid : isUuid id = true) :
      PlaceOf entry ("server:".toList ++ toLowerCase id)
  | address {rest t : Text} (text : entry = "address:".toList ++ rest) (parsed : parseAddressEntry rest = .ok t) :
      PlaceOf entry ("address:".toList ++ t)

theorem placeOf_of_ok {entry place : Text} (h : parseSourceEntry entry = .ok place) : PlaceOf entry place := by
  rw [parseSourceEntry] at h
  split_ifs at h with hinternal
  · rw [← Except.ok.inj h, hinternal]
    exact .internal rfl
  · split at h
    · rename_i id hid
      split_ifs at h with huuid
      rw [← Except.ok.inj h]
      exact .server (cutStart_eq_some.1 hid) huuid
    · split at h
      · rename_i rest hrest
        cases hparse : parseAddressEntry rest with
        | error e =>
          rw [hparse] at h
          cases h
        | ok t =>
          rw [hparse] at h
          rw [← Except.ok.inj h]
          exact .address (cutStart_eq_some.1 hrest) hparse
      · cases h

/-- What is known of a place that an entry is stored as. -/
structure PlaceFacts (entry place : Text) : Prop where
  kept : ¬IsRespelledEntry entry → trim place = place ∧ parseSourceEntry place = .ok place
  changed : IsRespelledEntry entry → parseSourceEntry (trim place) ≠ .ok place
  slash : '/' ∉ place
  word : ∃ c ∈ place, isSpace c = false ∧ c ∉ anyWord

theorem addressStart : (∀ c ∈ "address:".toList.head?, isSpace c = false) ∧
    (∀ c ∈ "address:".toList.getLast?, isSpace c = false) ∧ "address:".toList ≠ [] := by
  have hhead : "address:".toList.head? = some 'a' := by decide
  have hlast : "address:".toList.getLast? = some ':' := by decide
  refine ⟨fun c hc => ?_, fun c hc => ?_, by decide⟩
  · cases hhead.symm.trans hc
    decide
  · cases hlast.symm.trans hc
    decide

/-- **A place is read back as it is, unless its address is stored in another spelling.** -/
theorem placeFacts {entry place : Text} (h : parseSourceEntry (trim entry) = .ok place) :
    PlaceFacts entry place := by
  cases placeOf_of_ok h with
  | internal text =>
    refine ⟨fun _ => ⟨by decide, by decide⟩, ?_, by decide, 'i', by decide, by decide, by decide⟩
    rintro ⟨rest, haddress, -⟩
    rw [text] at haddress
    exact absurd (List.cons.inj haddress).1 (by decide)
  | @server id text uuid =>
    obtain ⟨huuid, hlower⟩ := isUuid_toLowerCase uuid
    have hchar : ∀ c ∈ toLowerCase id, isDigitOf 16 c = true ∨ c = '-' := fun c hc => uuid_char huuid hc
    refine ⟨fun _ => ⟨trim_eq_self_of_forall fun c hc => ?_, ?_⟩, ?_, fun hmem => ?_, ':', ?_, by decide,
      by decide⟩
    · rcases mem_append.1 hc with hc | hc
      · exact (show ∀ c ∈ "server:".toList, isSpace c = false by decide) c hc
      · rcases hchar c hc with hd | rfl
        · exact not_isSpace_of_isDigitOf (by decide) hd
        · decide
    · rw [parseSourceEntry_server huuid, hlower]
    · rintro ⟨rest, haddress, -⟩
      rw [text] at haddress
      exact absurd (List.cons.inj haddress).1 (by decide)
    · rcases mem_append.1 hmem with hmem | hmem
      · exact absurd hmem (by decide)
      · rcases hchar '/' hmem with h | h <;> cases h
    · exact mem_append_left _ (by decide)
  | @address rest t text parsed =>
    obtain ⟨hhead, hlast, hne⟩ := addressStart
    have hwritten := written_of_ok parsed
    obtain ⟨hkept, hchanged⟩ := hwritten.kept_or_changed
    refine ⟨fun hrespelled => ?_, ?_, fun hmem => ?_, ':', mem_append_left _ (by decide), by decide,
      by decide⟩
    · obtain ⟨htrim, hread⟩ := hkept fun h => hrespelled ⟨rest, text, h⟩
      refine ⟨trim_append_self hhead hlast hne htrim, ?_⟩
      rw [parseSourceEntry_address, hread]
      rfl
    · rintro ⟨rest', htext, hrespelled⟩ hread
      obtain rfl := append_cancel_left (text.symm.trans htext)
      obtain ⟨u, htrim, hu⟩ := trim_append hhead hlast hne t
      rw [htrim, parseSourceEntry_address] at hread
      cases hparse : parseAddressEntry u with
      | error e =>
        rw [hparse] at hread
        cases hread
      | ok v =>
        rw [hparse] at hread
        have hv := append_cancel_left (Except.ok.inj hread)
        exact hchanged hrespelled u hu (hv ▸ hparse)
    · rcases mem_append.1 hmem with hmem | hmem
      · exact absurd hmem (by decide)
      · exact hwritten.slash_not_mem hmem

theorem PlaceFacts.tidyEntry_eq {entry place : Text} (h : PlaceFacts entry place) :
    tidyEntry place = trim place ∧ trim place ≠ anyWord := by
  have hslash : isAnywhereEntry (trim place) = false := by
    rw [isAnywhereEntry]
    split
    · rfl
    · rename_i rest hrest
      have hmem : '/' ∉ trim rest := by
        intro hmem
        have hplace := mem_append_right "address:".toList (mem_of_mem_trim hmem)
        rw [← cutStart_eq_some.1 hrest] at hplace
        exact h.slash (mem_of_mem_trim hplace)
      have hcontains : (trim rest).contains '/' = false := by simpa using hmem
      dsimp only
      rw [hcontains, Bool.false_and]
  refine ⟨by rw [tidyEntry, if_neg (by rw [hslash]; exact Bool.false_ne_true)], fun hany => ?_⟩
  obtain ⟨c, hc, hspace, hword⟩ := h.word
  exact hword (hany ▸ mem_trim hc hspace)

/-! ## Lists -/

theorem parseEntries_eq_ok {list out places : List Text} : parseEntries list out = .ok places ↔
    ∃ parsed, List.Forall₂ (fun entry place => parseSourceEntry entry = .ok place) list parsed ∧
      places = parsed.foldl setAdd out := by
  induction list generalizing out with
  | nil =>
    constructor
    · intro h
      exact ⟨[], .nil, (Except.ok.inj h).symm⟩
    · rintro ⟨parsed, hparsed, rfl⟩
      cases hparsed
      rfl
  | cons entry list ih =>
    rw [parseEntries]
    constructor
    · intro h
      split at h
      · cases h
      · rename_i place hplace
        obtain ⟨parsed, hparsed, hplaces⟩ := ih.1 h
        exact ⟨place :: parsed, .cons hplace hparsed, hplaces⟩
    · rintro ⟨parsed, hparsed, rfl⟩
      cases hparsed with
      | @cons _ place _ parsed hplace hparsed =>
        rw [hplace]
        exact ih.2 ⟨parsed, hparsed, rfl⟩

/-- What a requested list has to be, to be taken. -/
structure Taken (entries list parsed places : List Text) : Prop where
  list_eq : list = (entries.map tidyEntry).foldl setAdd []
  some_entry : list ≠ []
  le : list.length ≤ maxLoginSourceEntries
  limited : anyWord ∉ list
  pairs : List.Forall₂ (fun entry place => parseSourceEntry entry = .ok place) list parsed
  places_eq : places = parsed.foldl setAdd []

theorem normalizeSourceList_eq_some {raw : Json} {list : List Text} :
    normalizeSourceList raw = .ok (some list) ↔ ∃ entries, typedEntries raw = some entries ∧
      list = (entries.map tidyEntry).foldl setAdd [] ∧ list ≠ [] ∧ list.length ≤ maxLoginSourceEntries ∧
        anyWord ∉ list := by
  cases raw with
  | null =>
    refine ⟨fun h => ?_, ?_⟩
    · cases h
    · rintro ⟨entries, hentries, -⟩
      cases hentries
  | _ =>
    unfold normalizeSourceList
    dsimp only
    split
    · rename_i hnone
      constructor
      · intro h
        cases h
      · rintro ⟨entries, hentries, -⟩
        rw [hnone] at hentries
        cases hentries
    · rename_i entries hentries
      constructor
      · intro h
        split_ifs at h with hempty hmany hany hone
        · cases Except.ok.inj h
          refine ⟨entries, hentries, rfl, fun hnil => hempty (congrArg List.length hnil), not_lt.1 hmany, ?_⟩
          simpa using hany
        · cases Except.ok.inj h
      · rintro ⟨entries', hentries', rfl, hempty, hle, hlimited⟩
        cases hentries.symm.trans hentries'
        rw [if_neg fun hlen => hempty (length_eq_zero_iff.1 hlen), if_neg (not_lt.2 hle), if_pos]
        simpa using hlimited

theorem parseLoginAllowedSources_eq_some {raw : Json} {places : List Text} :
    parseLoginAllowedSources raw = .ok (some places) ↔
      ∃ entries list parsed, typedEntries raw = some entries ∧ Taken entries list parsed places := by
  rw [parseLoginAllowedSources]
  constructor
  · intro h
    split at h
    · cases h
    · cases Except.ok.inj h
    · rename_i list hlist
      obtain ⟨entries, hentries, hlist, hempty, hle, hlimited⟩ := normalizeSourceList_eq_some.1 hlist
      cases hparse : parseEntries list [] with
      | error e =>
        rw [hparse] at h
        cases h
      | ok places' =>
        rw [hparse] at h
        cases Except.ok.inj h
        obtain ⟨parsed, hparsed, hplaces⟩ := parseEntries_eq_ok.1 hparse
        exact ⟨entries, list, parsed, hentries, hlist, hempty, hle, hlimited, hparsed, hplaces⟩
  · rintro ⟨entries, list, parsed, hentries, hlist, hempty, hle, hlimited, hparsed, hplaces⟩
    rw [normalizeSourceList_eq_some.2 ⟨entries, hentries, hlist, hempty, hle, hlimited⟩]
    dsimp only
    rw [parseEntries_eq_ok.2 ⟨parsed, hparsed, hplaces⟩]
    rfl

theorem any_mem_of_none {raw : Json} {entries : List Text} (hentries : typedEntries raw = some entries)
    (h : parseLoginAllowedSources raw = .ok none) : anyWord ∈ entries.map tidyEntry := by
  have hnorm : normalizeSourceList raw = .ok none := by
    rw [parseLoginAllowedSources] at h
    split at h
    · cases h
    · assumption
    · rename_i list _
      cases hparse : parseEntries list [] with
      | error e =>
        rw [hparse] at h
        cases h
      | ok places =>
        rw [hparse] at h
        cases Except.ok.inj h
  cases raw with
  | null => cases hentries
  | _ =>
    unfold normalizeSourceList at hnorm
    dsimp only at hnorm
    rw [hentries] at hnorm
    dsimp only at hnorm
    split_ifs at hnorm with hempty hmany hany hone
    · cases Except.ok.inj hnorm
    · have hmem : anyWord ∈ (entries.map tidyEntry).foldl setAdd [] := by simpa using hany
      exact (mem_foldl_setAdd.1 hmem).resolve_left not_mem_nil

/-- The places as they are sent. -/
def placesJson (places : List Text) : Json := .arr (places.map fun place => .str (String.ofList place))

theorem typedEntries_placesJson (places : List Text) : typedEntries (placesJson places) = some places := by
  have hread : (places.map fun place => Json.str (String.ofList place)).mapM Json.str? =
      some (places.map String.ofList) := by
    induction places with
    | nil => rfl
    | cons place places ih =>
      rw [map_cons, mapM_cons, ih]
      rfl
  rw [typedEntries, placesJson]
  change Option.map _ (List.mapM _ _) = _
  rw [hread, Option.map_some, map_map]
  refine congrArg some ((map_congr_left fun place _ => ?_).trans (map_id places))
  exact String.toList_ofList

section

variable {entries list parsed places : List Text} (h : Taken entries list parsed places)

include h

theorem Taken.place {place : Text} (hplace : place ∈ places) :
    ∃ entry ∈ entries, parseSourceEntry (trim entry) = .ok place := by
  have hparsed : place ∈ parsed := by
    rw [h.places_eq] at hplace
    exact (mem_foldl_setAdd.1 hplace).resolve_left not_mem_nil
  obtain ⟨tidy, htidy, hread⟩ := exists_left_of_mem h.pairs hparsed
  have hmem : tidy ∈ entries.map tidyEntry := by
    rw [h.list_eq] at htidy
    exact (mem_foldl_setAdd.1 htidy).resolve_left not_mem_nil
  obtain ⟨entry, hentry, rfl⟩ := mem_map.1 hmem
  refine ⟨entry, hentry, ?_⟩
  have hany : tidyEntry entry ≠ anyWord := fun hany => h.limited (hany ▸ htidy)
  rw [tidyEntry] at hany hread
  split_ifs at hany hread
  · exact absurd rfl hany
  · exact hread

theorem Taken.entry {entry : Text} (hentry : entry ∈ entries) :
    ∃ place ∈ places, parseSourceEntry (trim entry) = .ok place := by
  have hlist : tidyEntry entry ∈ list := by
    rw [h.list_eq]
    exact mem_foldl_setAdd.2 (.inr (mem_map_of_mem hentry))
  obtain ⟨place, hplace, hread⟩ := exists_right_of_mem h.pairs hlist
  refine ⟨place, ?_, ?_⟩
  · rw [h.places_eq]
    exact mem_foldl_setAdd.2 (.inr hplace)
  · have hany : tidyEntry entry ≠ anyWord := fun hany => h.limited (hany ▸ hlist)
    rw [tidyEntry] at hany hread
    split_ifs at hany hread
    · exact absurd rfl hany
    · exact hread

theorem Taken.length_eq : list.length = parsed.length := h.pairs.length_eq

theorem Taken.nodup : places.Nodup := by
  rw [h.places_eq]
  exact nodup_foldl_setAdd parsed nodup_nil

theorem Taken.ne_nil : places ≠ [] := by
  obtain ⟨tidy, htidy⟩ := exists_mem_of_ne_nil _ h.some_entry
  obtain ⟨place, hplace, -⟩ := exists_right_of_mem h.pairs htidy
  have hmem : place ∈ places := by
    rw [h.places_eq]
    exact mem_foldl_setAdd.2 (.inr hplace)
  exact ne_nil_of_mem hmem

theorem Taken.tidyEntry_eq {place : Text} (hplace : place ∈ places) :
    tidyEntry place = trim place ∧ trim place ≠ anyWord := by
  obtain ⟨entry, -, hread⟩ := h.place hplace
  exact (placeFacts hread).tidyEntry_eq

theorem Taken.readBack : loginSourcesFromStored (some (loginSourcesToStored (some places))) = some places := by
  have hpos : 0 < places.length := length_pos_iff.2 h.ne_nil
  have hlimited : places.any (fun entry => loginSourcesAnywhere.contains entry) = false := by
    rw [any_eq_false]
    intro place hplace hany
    obtain ⟨entry, -, hread⟩ := h.place hplace
    have hmem : place ∈ loginSourcesAnywhere := by simpa using hany
    have hslash : ∀ place ∈ loginSourcesAnywhere, '/' ∈ place := by decide
    exact (placeFacts hread).slash (hslash place hmem)
  rw [loginSourcesToStored, if_pos hpos, loginSourcesFromStored, if_neg hpos.ne', hlimited,
    if_neg Bool.false_ne_true]

theorem Taken.le_hundred : places.length ≤ maxLoginSourceEntries := by
  have hle := length_foldl_setAdd_le parsed []
  rw [← h.places_eq, ← h.length_eq] at hle
  exact hle.trans (by simpa using h.le)

/-- **A list is taken again unchanged when no entry was stored in a spelling that is read in another
way.** -/
theorem Taken.reparse_iff : parseLoginAllowedSources (placesJson places) = .ok (some places) ↔
    ∀ entry ∈ entries, ¬IsRespelledEntry entry := by
  have htidy : places.map tidyEntry = places.map trim :=
    map_congr_left fun place hplace => (h.tidyEntry_eq hplace).1
  rw [parseLoginAllowedSources_eq_some]
  constructor
  · rintro ⟨entries', list', parsed', hentries', h'⟩ entry hentry hrespelled
    obtain rfl := Option.some.inj ((typedEntries_placesJson places).symm.trans hentries')
    -- no repeats are dropped in either set, since as many places come out as went in
    have hlist := h'.list_eq
    have hplaces := h'.places_eq
    have hparsed_le : places.length ≤ parsed'.length := by
      have hle := length_foldl_setAdd_le parsed' []
      rw [← hplaces] at hle
      simpa using hle
    have hlist_le : (places.map tidyEntry).length ≤ ((places.map tidyEntry).foldl setAdd []).length := by
      rw [← hlist, length_map, h'.length_eq]
      exact hparsed_le
    rw [foldl_setAdd_eq_self hlist_le, htidy] at hlist
    have hparsed_eq : parsed'.length = places.length := by
      rw [← h'.length_eq, hlist, length_map]
    rw [foldl_setAdd_eq_self (by rw [← hplaces, hparsed_eq])] at hplaces
    have hpairs := h'.pairs
    rw [hlist, ← hplaces, forall₂_map_left_iff, forall₂_same] at hpairs
    obtain ⟨place, hplace, hread⟩ := h.entry hentry
    exact (placeFacts hread).changed hrespelled (hpairs place hplace)
  · intro hkept
    have hfacts : ∀ place ∈ places, trim place = place ∧ parseSourceEntry place = .ok place := by
      intro place hplace
      obtain ⟨entry, hentry, hread⟩ := h.place hplace
      exact (placeFacts hread).kept (hkept entry hentry)
    have htrim : places.map tidyEntry = places := by
      rw [htidy]
      exact (map_congr_left fun place hplace => (hfacts place hplace).1).trans (map_id places)
    have hset : places.foldl setAdd [] = places := foldl_setAdd_of_nodup h.nodup
    refine ⟨places, places, places, typedEntries_placesJson places, by rw [htrim, hset], h.ne_nil, h.le_hundred,
      fun hany => ?_, forall₂_same.2 fun place hplace => (hfacts place hplace).2, hset.symm⟩
    exact (h.tidyEntry_eq hany).2 (by decide)

theorem Taken.not_anywhere : parseLoginAllowedSources (placesJson places) ≠ .ok none := by
  intro hnone
  obtain ⟨place, hplace, hany⟩ := mem_map.1 (any_mem_of_none (typedEntries_placesJson places) hnone)
  obtain ⟨htidy, hne⟩ := h.tidyEntry_eq hplace
  exact hne (htidy ▸ hany)

end

/-! ## Saved, loaded and saved again -/

/-- The stored list, after the places read from it are saved again. -/
def resave (stored : List Text) : Parsed (List Text) :=
  (parseLoginAllowedSources (((loginSourcesFromStored (some stored)).map placesJson).getD .null)).map
    loginSourcesToStored

def resaves : ℕ → List Text → Parsed (List Text)
  | 0, stored => .ok stored
  | n + 1, stored =>
    match resave stored with
    | .error e => .error e
    | .ok stored => resaves n stored

theorem resaves_of_resave_eq {stored : List Text} (h : resave stored = .ok stored) (n : ℕ) :
    resaves n stored = .ok stored := by
  induction n with
  | zero => rfl
  | succ n ih =>
    rw [resaves, h]
    exact ih

/-- A stored list that limits a login is a list that was taken. -/
def IsLimited (stored : List Text) : Prop :=
  ∃ raw places, parseLoginAllowedSources raw = .ok (some places) ∧ stored = loginSourcesToStored (some places)

theorem IsLimited.readBack {stored : List Text} (h : IsLimited stored) :
    ∃ places, loginSourcesFromStored (some stored) = some places := by
  obtain ⟨raw, places, hraw, rfl⟩ := h
  obtain ⟨entries, list, parsed, -, htaken⟩ := parseLoginAllowedSources_eq_some.1 hraw
  exact ⟨places, htaken.readBack⟩

theorem IsLimited.resave {stored stored' : List Text} (h : IsLimited stored) (hsave : resave stored = .ok stored') :
    IsLimited stored' := by
  obtain ⟨raw, places, hraw, rfl⟩ := h
  obtain ⟨entries, list, parsed, -, htaken⟩ := parseLoginAllowedSources_eq_some.1 hraw
  rw [LoginSources.resave, htaken.readBack] at hsave
  change Except.map _ (parseLoginAllowedSources (placesJson places)) = _ at hsave
  cases hparse : parseLoginAllowedSources (placesJson places) with
  | error e =>
    rw [hparse] at hsave
    cases hsave
  | ok sources =>
    rw [hparse] at hsave
    cases sources with
    | none => exact absurd hparse htaken.not_anywhere
    | some places' => exact ⟨placesJson places, places', hparse, (Except.ok.inj hsave).symm⟩

theorem IsLimited.resaves {stored stored' : List Text} {n : ℕ} (h : IsLimited stored)
    (hsave : resaves n stored = .ok stored') : IsLimited stored' := by
  induction n generalizing stored with
  | zero =>
    cases hsave
    exact h
  | succ n ih =>
    rw [LoginSources.resaves] at hsave
    split at hsave
    · cases hsave
    · rename_i next hnext
      exact ih (h.resave hnext) hsave

/-- What is promised of a list that was taken. -/
structure StaysTheSame (places : List Text) : Prop where
  some_place : places ≠ []
  nodup : places.Nodup
  reparsed : parseLoginAllowedSources (placesJson places) = .ok (some places)
  readBack : loginSourcesFromStored (some (loginSourcesToStored (some places))) = some places
  resaved : ∀ n, resaves n (loginSourcesToStored (some places)) = .ok (loginSourcesToStored (some places))

/-- No entry names one address in a spelling that is stored in a form that is read in another way.
-/
def KeepsSpelling (raw : Json) : Prop :=
  ∀ entries, typedEntries raw = some entries → ∀ entry ∈ entries, ¬IsRespelledEntry entry

theorem not_isRespelledEntry {entry : Text}
    (h : (cutStart "address:".toList (trim entry)).bind (fun rest => hostText (trim rest)) = none) :
    ¬IsRespelledEntry entry := by
  rintro ⟨rest, haddress, text, hhost, -⟩
  rw [cutStart_eq_some.2 haddress, Option.bind_some, hhost] at h
  cases h

/-- **A limit stays the same exactly when no address in it is respelled, and a limited login never
becomes an unlimited one, or the reverse.** -/
theorem login_sources_stable (raw : Json) :
    (∀ places, parseLoginAllowedSources raw = .ok (some places) →
      (StaysTheSame places ↔ KeepsSpelling raw) ∧
      ∀ n stored, resaves n (loginSourcesToStored (some places)) = .ok stored →
        ∃ places', loginSourcesFromStored (some stored) = some places') ∧
    (parseLoginAllowedSources raw = .ok none →
      loginSourcesFromStored (some (loginSourcesToStored none)) = none ∧
      ∀ n, resaves n (loginSourcesToStored none) = .ok (loginSourcesToStored none)) := by
  refine ⟨fun places hplaces => ⟨?_, fun n stored hsave => ?_⟩, fun _ => ⟨by decide, ?_⟩⟩
  · obtain ⟨entries, list, parsed, hentries, htaken⟩ := parseLoginAllowedSources_eq_some.1 hplaces
    have hkeeps : KeepsSpelling raw ↔ ∀ entry ∈ entries, ¬IsRespelledEntry entry := by
      refine ⟨fun h => h entries hentries, fun h entries' hentries' => ?_⟩
      cases hentries.symm.trans hentries'
      exact h
    rw [hkeeps]
    refine ⟨fun h => htaken.reparse_iff.1 h.reparsed, fun h => ?_⟩
    have hreparsed := htaken.reparse_iff.2 h
    refine ⟨htaken.ne_nil, htaken.nodup, hreparsed, htaken.readBack, fun n => resaves_of_resave_eq ?_ n⟩
    rw [resave, htaken.readBack]
    change Except.map _ (parseLoginAllowedSources (placesJson places)) = _
    rw [hreparsed]
    rfl
  · exact (IsLimited.resaves ⟨raw, places, hplaces, rfl⟩ hsave).readBack
  · exact fun n => resaves_of_resave_eq (by decide) n

theorem typed_places_stay : StaysTheSame ["address:203.0.113.%".toList, "internal".toList] ∧
    loginSourcesFromStored (some (loginSourcesToStored none)) = none := by
  have hnohost : ∀ entry ∈ [" address:203.0.113.7/24 ".toList, "internal".toList],
      (cutStart "address:".toList (trim entry)).bind (fun rest => hostText (trim rest)) = none := by decide
  refine ⟨(((login_sources_stable (.arr [.str " address:203.0.113.7/24 ", .str "internal"])).1 _ (by decide)).1).2
    fun entries hentries entry hentry => ?_, ((login_sources_stable .null).2 (by decide)).1⟩
  obtain rfl := Option.some.inj ((show typedEntries _ = some [" address:203.0.113.7/24 ".toList,
    "internal".toList] by decide).symm.trans hentries)
  exact not_isRespelledEntry (hnohost entry hentry)

/-- A mapped address is stored in a form that a re-save reads as IPv4. -/
theorem mapped_address_changes :
    parseLoginAllowedSources (.arr [.str "address:0:0:0:0:0:ffff:7f00:1"]) =
      .ok (some ["address:::ffff:7f00:1".toList]) ∧
    parseLoginAllowedSources (placesJson ["address:::ffff:7f00:1".toList]) =
      .ok (some ["address:127.0.0.1".toList]) ∧
    ¬StaysTheSame ["address:::ffff:7f00:1".toList] := by
  refine ⟨by decide, by decide, fun h => ?_⟩
  cases h.reparsed

end TurboPanel.LoginSources
