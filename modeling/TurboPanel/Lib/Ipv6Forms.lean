import TurboPanel.Lib.Ipv4Text

/-!
# The textual forms of an IPv6 address

An IPv6 address is a list of eight groups. `SpellsIpv6 text groups` says that `text` is one of its
hexadecimal forms: all eight groups, or a `::` in place of a run of zero groups, with each group in
any case and with any zero padding up to four digits. The relation is the standard's and does not
mention the reader; the reader accepts every form (`SpellsIpv6.parseIpVersion_eq`) and reads the
number of the address from it (`SpellsIpv6.ipToBigInt_eq`).
-/

namespace TurboPanel.Ip

open List Bool Js

/-- `part` writes the group `h`: one to four hexadecimal digits. -/
structure SpellsHextet (part : Text) (h : ℕ) : Prop where
  ne_nil : part ≠ []
  length_le : part.length ≤ 4
  digits : ∀ c ∈ part, isDigitOf 16 c = true
  value : ofDigits 16 part = h

/-- The groups, joined by colons. -/
def colonJoin (parts : List Text) : Text := [':'].intercalate parts

/-- `text` is a form of the address with these groups. -/
inductive SpellsIpv6 : Text → List ℕ → Prop
  | full {parts : List Text} {groups : List ℕ} (length_eq : parts.length = 8)
      (spells : List.Forall₂ SpellsHextet parts groups) : SpellsIpv6 (colonJoin parts) groups
  | compressed {left right : List Text} {high low : List ℕ} {gap : ℕ}
      (spells_left : List.Forall₂ SpellsHextet left high)
      (spells_right : List.Forall₂ SpellsHextet right low) (gap_pos : 0 < gap)
      (length_eq : left.length + gap + right.length = 8) :
      SpellsIpv6 (colonJoin left ++ ':' :: ':' :: colonJoin right)
        (high ++ List.replicate gap 0 ++ low)

/-- The number of an address. -/
def numberOf (groups : List ℕ) : ℕ := groups.foldl (fun value h => value * 2 ^ 16 + h) 0

/-! ## Groups -/

theorem SpellsHextet.zero : SpellsHextet ['0'] 0 :=
  ⟨by simp, by simp, by simp; decide, rfl⟩

theorem SpellsHextet.lt {part : Text} {h : ℕ} (hs : SpellsHextet part h) : h < 2 ^ 16 := by
  rw [← hs.value]
  calc ofDigits 16 part < 16 ^ part.length := ofDigits_lt hs.digits
    _ ≤ 16 ^ 4 := Nat.pow_le_pow_right (by decide) hs.length_le

theorem SpellsHextet.not_mem {part : Text} {h : ℕ} (hs : SpellsHextet part h) {c : Char}
    (hc : isDigitOf 16 c = false) : c ∉ part := by
  intro hmem
  rw [hs.digits c hmem] at hc
  exact Bool.noConfusion hc

theorem SpellsHextet.isIpv6Hextet {part : Text} {h : ℕ} (hs : SpellsHextet part h) :
    isIpv6Hextet part = true := by
  simp only [Ip.isIpv6Hextet, and_eq_true, not_eq_true', isEmpty_eq_false_iff,
    decide_eq_true_eq, all_eq_true]
  exact ⟨⟨hs.ne_nil, hs.length_le⟩, hs.digits⟩

theorem exists_spellsHextet {parts : List Text} {groups : List ℕ}
    (h : List.Forall₂ SpellsHextet parts groups) : ∀ p ∈ parts, ∃ g, SpellsHextet p g := by
  induction h with
  | nil => simp
  | cons hp _ ih =>
    intro p hmem
    rcases mem_cons.1 hmem with rfl | hmem
    · exact ⟨_, hp⟩
    · exact ih p hmem

theorem forall₂_replicate_zero (gap : ℕ) :
    List.Forall₂ SpellsHextet (List.replicate gap ['0']) (List.replicate gap 0) := by
  induction gap with
  | zero => exact List.Forall₂.nil
  | succ n ih => exact List.Forall₂.cons SpellsHextet.zero ih

theorem areValidIpv6Hextets_of_spells {parts : List Text} {groups : List ℕ}
    (h : List.Forall₂ SpellsHextet parts groups) : areValidIpv6Hextets parts = true := by
  rw [areValidIpv6Hextets, all_eq_true]
  intro p hp
  obtain ⟨g, hg⟩ := exists_spellsHextet h p hp
  exact hg.isIpv6Hextet

theorem readGroups_of_spells {parts : List Text} {groups : List ℕ}
    (h : List.Forall₂ SpellsHextet parts groups) :
    readGroups 16 16 parts = some (numberOf groups) := by
  rw [readGroups, numberOf]
  -- the accumulator is carried through both folds
  generalize 0 = acc
  induction h generalizing acc with
  | nil => rfl
  | cons hp _ ih =>
    have hread := parseInt_digits (by decide) hp.ne_nil hp.digits
    rw [hp.value] at hread
    rw [foldlM_cons, foldl_cons, hread]
    simpa [Nat.shiftLeft_eq] using ih _

/-! ## Joined groups -/

section Join

variable {parts : List Text} {groups : List ℕ} (h : List.Forall₂ SpellsHextet parts groups)

include h

theorem mem_colonJoin {c : Char} (hc : c ∈ colonJoin parts) : c = ':' ∨ isDigitOf 16 c = true := by
  rcases mem_intercalate_singleton hc with rfl | ⟨p, hp, hmem⟩
  · exact .inl rfl
  · obtain ⟨g, hg⟩ := exists_spellsHextet h p hp
    exact .inr (hg.digits c hmem)

theorem colonJoin_chain : NoPair ':' ':' (colonJoin parts) ∧
    (∀ c ∈ (colonJoin parts).head?, c ≠ ':') ∧ ∀ c ∈ (colonJoin parts).getLast?, c ≠ ':' := by
  refine noPair_intercalate (fun p hp => ?_) fun p hp => ?_
  · obtain ⟨g, hg⟩ := exists_spellsHextet h p hp
    exact hg.ne_nil
  · obtain ⟨g, hg⟩ := exists_spellsHextet h p hp
    exact hg.not_mem (by decide)

theorem splitOn_colonJoin (hne : parts ≠ []) : (colonJoin parts).splitOn ':' = parts := by
  refine splitOn_intercalate ':' (fun p hp => ?_) hne
  obtain ⟨g, hg⟩ := exists_spellsHextet h p hp
  exact hg.not_mem (by decide)

theorem sideHextets_colonJoin : sideHextets (colonJoin parts) = parts := by
  by_cases hne : parts = []
  · subst hne
    rfl
  · have hemp : (colonJoin parts).isEmpty = false := by
      obtain ⟨p, ps, rfl⟩ := exists_cons_of_ne_nil hne
      obtain ⟨g, hg⟩ := exists_spellsHextet h p (by simp)
      obtain ⟨c, p', rfl⟩ := exists_cons_of_ne_nil hg.ne_nil
      cases ps <;> simp [colonJoin, intercalate_cons_cons]
    rw [sideHextets, hemp]
    exact splitOn_colonJoin h hne

end Join

theorem splitPair_compressed {left right : List Text} {high low : List ℕ}
    (hl : List.Forall₂ SpellsHextet left high) (hr : List.Forall₂ SpellsHextet right low) :
    splitPair ':' ':' (colonJoin left ++ ':' :: ':' :: colonJoin right) =
      [colonJoin left, colonJoin right] := by
  obtain ⟨hchain, -, hlast⟩ := colonJoin_chain hl
  rw [splitPair_append, splitPair_of_noPair (colonJoin_chain hr).1]
  refine List.IsChain.append hchain (isChain_singleton _) ?_
  exact fun c hc d _ hcd => hlast c hc hcd.1

/-! ## Reading a form -/

namespace SpellsIpv6

variable {text : Text} {groups : List ℕ} (h : SpellsIpv6 text groups)

include h

theorem mem_text {c : Char} (hc : c ∈ text) : c = ':' ∨ isDigitOf 16 c = true := by
  cases h with
  | full _ hs => exact mem_colonJoin hs hc
  | compressed hl hr _ _ =>
    simp only [mem_append, mem_cons] at hc
    rcases hc with hc | hc | hc | hc
    · exact mem_colonJoin hl hc
    · exact .inl hc
    · exact .inl hc
    · exact mem_colonJoin hr hc

theorem not_mem_text {c : Char} (hc : c ≠ ':') (hd : isDigitOf 16 c = false) : c ∉ text := by
  intro hmem
  rcases h.mem_text hmem with e | hdig
  · exact hc e
  · rw [hd] at hdig
    exact Bool.noConfusion hdig

theorem trim_eq : trim text = text := by
  refine trim_eq_self_of_forall fun c hc => ?_
  rcases h.mem_text hc with rfl | hd
  · decide
  · exact not_isSpace_of_isDigitOf (by decide) hd

theorem stripInetPrefixSuffix_eq : stripInetPrefixSuffix text = text := by
  rw [stripInetPrefixSuffix_of_not_mem, h.trim_eq]
  rw [h.trim_eq]
  exact h.not_mem_text (by decide) (by decide)

theorem colon_mem : ':' ∈ text := by
  cases h with
  | @full parts _ hlen _ =>
    obtain ⟨p, q, ps, rfl⟩ : ∃ p q ps, parts = p :: q :: ps := by
      match parts, hlen with
      | p :: q :: ps, _ => exact ⟨p, q, ps, rfl⟩
    simp [colonJoin, intercalate_cons_cons]
  | compressed => simp

theorem lt_of_mem {g : ℕ} (hg : g ∈ groups) : g < 2 ^ 16 := by
  have key : ∀ {parts : List Text} {gs : List ℕ}, List.Forall₂ SpellsHextet parts gs → ∀ g ∈ gs,
      g < 2 ^ 16 := by
    intro parts gs hs
    induction hs with
    | nil => simp
    | cons hp _ ih =>
      intro g hg
      rcases mem_cons.1 hg with rfl | hg
      · exact hp.lt
      · exact ih g hg
  cases h with
  | full _ hs => exact key hs g hg
  | compressed hl hr _ _ =>
    simp only [mem_append, mem_replicate] at hg
    rcases hg with (hg | ⟨-, rfl⟩) | hg
    · exact key hl g hg
    · positivity
    · exact key hr g hg

theorem not_isIpv4Address : isIpv4Address text = false := by
  rw [← not_eq_true, isIpv4Address_iff]
  rintro ⟨v, -, e⟩
  have hmem := h.colon_mem
  rw [e, bigIntToIpv4_eq] at hmem
  exact not_mem_dotted (by decide) (by decide) hmem

theorem isValidIpv6Address_eq : isValidIpv6Address text = true := by
  have hdot : text.contains '.' = false := by simpa using h.not_mem_text (by decide) (by decide)
  have hpct : text.contains '%' = false := by simpa using h.not_mem_text (by decide) (by decide)
  rw [isValidIpv6Address, hdot, hpct]
  cases h with
  | @full parts _ hlen hs =>
    have hne : parts ≠ [] := by rintro rfl; simp at hlen
    simp [splitPair_of_noPair (colonJoin_chain hs).1, isValidFullIpv6, splitOn_colonJoin hs hne,
      hlen, areValidIpv6Hextets_of_spells hs]
  | @compressed left right _ _ gap hl hr hgap hlen =>
    have hlt : left.length + right.length < 8 := by omega
    have hval : areValidIpv6Hextets (left ++ right) = true := by
      rw [areValidIpv6Hextets, all_append, and_eq_true]
      exact ⟨areValidIpv6Hextets_of_spells hl, areValidIpv6Hextets_of_spells hr⟩
    simp [splitPair_compressed hl hr, isValidCompressedIpv6, hextetsAroundCompression,
      sideHextets_colonJoin hl, sideHextets_colonJoin hr, hval, hlt]

/-- **Every form is accepted.** -/
theorem parseIpVersion_eq : parseIpVersion text = some .v6 := by
  have hne : text.isEmpty = false := by
    simpa using ne_nil_of_mem h.colon_mem
  simp [parseIpVersion, h.trim_eq, hne, h.not_isIpv4Address, h.colon_mem,
    h.isValidIpv6Address_eq]

/-- **Every form is read as the number of the address.** -/
theorem ipToBigInt_eq : ipToBigInt? text = some (numberOf groups) := by
  have hexp : (expandIpv6Hextets text).bind (readGroups 16 16) = some (numberOf groups) := by
    cases h with
    | @full parts _ hlen hs =>
      have hne : parts ≠ [] := by rintro rfl; simp at hlen
      simp [expandIpv6Hextets, splitPair_of_noPair (colonJoin_chain hs).1,
        splitOn_colonJoin hs hne, hlen, readGroups_of_spells hs]
    | @compressed left right _ _ gap hl hr hgap hlen =>
      have hle : left.length + right.length ≤ 8 := by omega
      have hpad : 8 - left.length - right.length = gap := by omega
      simp only [expandIpv6Hextets, splitPair_compressed hl hr, sideHextets_colonJoin hl,
        sideHextets_colonJoin hr, if_pos hle, hpad, Option.bind_some]
      refine readGroups_of_spells (rel_append ?_ hr)
      exact rel_append hl (forall₂_replicate_zero gap)
  rw [ipToBigInt?_v6 (by rw [h.stripInetPrefixSuffix_eq, h.parseIpVersion_eq]), h.stripInetPrefixSuffix_eq, hexp]

end SpellsIpv6

end TurboPanel.Ip
