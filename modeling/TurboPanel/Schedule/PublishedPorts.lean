import TurboPanel.Compose.PortForms

/-!
# The host port that the scheduler sees

`parsePublishedPort` reads the number in front of the first colon of a port, whatever stands there.
So it agrees with the published port that the merge reads (`parseShortPort`) when the port has no
address, takes the first octet of an IPv4 address for a port, finds none behind an IPv6 address, and
takes the target of a mapping that publishes nothing for a host port
(`parsePublishedPort_short_iff`).
-/

namespace TurboPanel.Schedule

open Js Ip Compose List

/-! ## Published ports -/

/-- An integer from 1 to 65535. -/
def hostPort? (value : ℤ) : Option ℕ := if 1 ≤ value ∧ value ≤ 65535 then some value.toNat else none

mutual

def parsePublishedPort : Json → Option ℕ
  | .num text => if isDecimal text.toList then hostPort? (ofDigits 10 text.toList) else none
  | .str entry =>
    let host := trim ((entry.toList.splitOn ':').headD [])
    if host.isEmpty || host.contains '-' then none
    else (parseInt 10 host).bind hostPort?
  | .obj entry => parsePublishedField entry
  | _ => none

/-- `parsePublishedPort(entry.published)`. -/
def parsePublishedField : Fields → Option ℕ
  | [] => none
  | (key, value) :: rest => if key = "published" then parsePublishedPort value else parsePublishedField rest

end

theorem hostPort?_natCast {n : ℕ} (h₁ : 1 ≤ n) (h₂ : n ≤ 65535) : hostPort? (n : ℤ) = some n := by
  rw [hostPort?, if_pos (by omega), Int.toNat_natCast]

theorem parsePublishedPort_str {entry host : Text} (h : (entry.splitOn ':').headD [] = host)
    (hspace : trim host = host) (hne : host ≠ []) (hdash : '-' ∉ host) :
    parsePublishedPort (.str (String.ofList entry)) = (parseInt 10 host).bind hostPort? := by
  rw [parsePublishedPort, String.toList_ofList, h, hspace, if_neg (by simp [hne, hdash])]

theorem headD_splitOn_append {a rest : Text} (h : ':' ∉ a) : ((a ++ ':' :: rest).splitOn ':').headD [] = a := by
  rw [splitOn_append_cons_self_of_not_mem h, headD_cons]

theorem parseInt_port {text : Text} (h : IsPort text) (rest : Text) (hrest : ∀ ch ∈ rest.head?, ch = '.' ∨ ch = '/') :
    (parseInt 10 (text ++ rest)).bind hostPort? = some (ofDigits 10 text) := by
  have hdigits : ∀ ch ∈ text, isDigitOf 10 ch = true := by
    have hdecimal := h.1
    rw [isDecimal, Bool.and_eq_true, all_eq_true] at hdecimal
    exact hdecimal.2
  have hread := parseInt_run (w := []) (r := rest) (by decide) (by simp) (ne_nil_of_isPort h) hdigits fun ch hch => by
    obtain rfl | rfl := hrest ch hch <;> decide
  rw [nil_append] at hread
  rw [hread, Option.bind_some, hostPort?_natCast h.2.1 h.2.2]

/-! ## Short forms -/

/-- The published port in a key of the merge. -/
def publishedNumber (key : PortKey) : Option ℕ := if key.published = [] then none else some (ofDigits 10 key.published)

variable {m : PortMapping}

theorem publishedNumber_short (hm : m.Valid) :
    publishedNumber (parseShortPort m.short) = m.published.map (ofDigits 10) := by
  have hread : (parseShortPort m.short).published = m.published.getD [] := by
    by_cases hv6 : ∃ address, m.hostIp = some (.v6 address)
    · obtain ⟨address, hhost⟩ := hv6
      obtain ⟨published, hpublished⟩ := hm.exists_published hhost
      rw [parseShortPort_bracketed hm hhost hpublished, hpublished, Option.getD_some]
    · rw [not_exists] at hv6
      rw [parseShortPort_short hm hv6]
  rw [publishedNumber, hread]
  cases hpublished : m.published with
  | none => rfl
  | some published => rw [Option.getD_some, if_neg (ne_nil_of_isPort (hm.published _ hpublished)), Option.map_some]

/-- The first octet of a dotted address. -/
def firstOctet (address : Text) : ℕ := ofDigits 10 ((address.splitOn '.').headD [])

theorem parsePublishedPort_target (hm : m.Valid) (hpublished : m.published = none) :
    parsePublishedPort (.str (String.ofList m.short)) = some (ofDigits 10 m.target) := by
  have hshort : m.short = m.target ++ m.suffix := by
    rw [m.short_eq, PortMapping.body, PortMapping.parts, hpublished, hm.hostIp_of_published hpublished]
    simp [List.intercalate]
  have hplain : ∀ ch, ch ∈ m.target ++ m.suffix → ch = '/' ∨ Plain ch := fun ch => hm.of_mem_target
  have hcolon : ':' ∉ m.target ++ m.suffix := by
    intro hmem
    obtain heq | h := hplain _ hmem
    · cases heq
    · exact h.ne_colon rfl
  have hdash : '-' ∉ m.target ++ m.suffix := by
    intro hmem
    obtain heq | h := hplain _ hmem
    · cases heq
    · exact h.ne_dash rfl
  have hspace : trim (m.target ++ m.suffix) = m.target ++ m.suffix := by
    refine trim_eq_self_of_forall fun ch hch => ?_
    obtain rfl | h := hplain ch hch
    · decide
    · exact h.not_space
  rw [hshort, parsePublishedPort_str (by rw [splitOn_eq_singleton hcolon, headD_cons]) hspace
    (by simp [ne_nil_of_isPort hm.target]) hdash]
  refine parseInt_port hm.target _ fun ch hch => .inr ?_
  rw [PortMapping.suffix] at hch
  cases hprotocol : m.protocol with
  | none => simp [hprotocol] at hch
  | some protocol => simpa [hprotocol, eq_comm] using hch

theorem parsePublishedPort_published (hm : m.Valid) (hhost : m.hostIp = none) {published : Text}
    (hpublished : m.published = some published) :
    parsePublishedPort (.str (String.ofList m.short)) = some (ofDigits 10 published) := by
  have hport := hm.published _ hpublished
  have hplain := plain_of_isPort hport
  have hshort : m.short = published ++ ':' :: (m.target ++ m.suffix) := by
    rw [m.short_eq, PortMapping.body, PortMapping.parts, hpublished, hhost]
    simp [List.intercalate, List.intersperse]
  have hcolon : ':' ∉ published := fun hmem => (hplain _ hmem).ne_colon rfl
  have hdash : '-' ∉ published := fun hmem => (hplain _ hmem).ne_dash rfl
  rw [hshort, parsePublishedPort_str (headD_splitOn_append hcolon)
    (trim_eq_self_of_forall fun ch hch => (hplain ch hch).not_space) (ne_nil_of_isPort hport) hdash]
  simpa using parseInt_port hport [] (by simp)

theorem parsePublishedPort_ipv4 (hm : m.Valid) {address : Text}
    (hhost : m.hostIp = some (.v4 address)) :
    parsePublishedPort (.str (String.ofList m.short)) = hostPort? (firstOctet address) := by
  obtain ⟨published, hpublished⟩ := hm.exists_published hhost
  have hplain := plain_of_mem_ipv4 (hm.hostIp _ hhost)
  have hshort : m.short = address ++ ':' :: (published ++ ':' :: (m.target ++ m.suffix)) := by
    rw [m.short_eq, PortMapping.body, PortMapping.parts, hpublished, hhost]
    simp [HostIp.short, List.intercalate, List.intersperse]
  have hcolon : ':' ∉ address := fun hmem => (hplain _ hmem).ne_colon rfl
  have hdash : '-' ∉ address := fun hmem => (hplain _ hmem).ne_dash rfl
  obtain ⟨a, -, b, -, c, -, d, -, rfl⟩ := isIpv4Address_iff_dotted.1 (hm.hostIp _ hhost)
  have hdots : dotted [a, b, c, d] = Nat.toDigits 10 a ++ '.' :: dotted [b, c, d] := by
    simp [dotted, List.intercalate, List.intersperse]
  have hread : parseInt 10 (dotted [a, b, c, d]) = some (a : ℤ) := by
    have hrun : parseInt 10 ([] ++ Nat.toDigits 10 a ++ '.' :: dotted [b, c, d]) =
        some (ofDigits 10 (Nat.toDigits 10 a) : ℤ) :=
      parseInt_run (by decide) (by simp) Nat.toDigits_ne_nil (isDigitOf_of_mem_toDigits (by decide) (by decide))
        (by simp; decide)
    rw [ofDigits_toDigits (by decide) (by decide), nil_append] at hrun
    rw [hdots, hrun]
  have hfirst : firstOctet (dotted [a, b, c, d]) = a := by
    rw [firstOctet, splitOn_dotted (by simp), map_cons, headD_cons, ofDigits_toDigits (by decide) (by decide)]
  rw [hshort, parsePublishedPort_str (headD_splitOn_append hcolon) (trim_dotted _) (by simp [hdots])
      hdash, hread, hfirst,
    Option.bind_some]

theorem parseInt_bracket (rest : Text) : parseInt 10 (trim ('[' :: rest)) = none := by
  obtain ⟨w₁, w₂, hw₁, hw₂, hsplit⟩ := exists_eq_append_trim ('[' :: rest)
  have hbracket : ∀ w : Text, (∀ ch ∈ w, isSpace ch = true) → ∀ tail, w ≠ '[' :: tail := by
    rintro w hw tail rfl
    exact absurd (hw '[' mem_cons_self) (by decide)
  obtain ⟨tail, htail⟩ : ∃ tail, trim ('[' :: rest) = '[' :: tail := by
    cases w₁ with
    | cons ch w =>
      rw [cons_append, cons_append, List.cons.injEq] at hsplit
      exact absurd (by rw [hsplit.1]) (hbracket _ hw₁ w)
    | nil =>
      cases htrim : trim ('[' :: rest) with
      | nil =>
        rw [htrim] at hsplit
        exact absurd hsplit.symm (hbracket _ hw₂ rest)
      | cons ch tail =>
        rw [htrim, nil_append, cons_append, List.cons.injEq] at hsplit
        exact ⟨tail, by rw [hsplit.1]⟩
  rw [htail]
  rfl

theorem parsePublishedPort_ipv6 (hm : m.Valid) {address : Text}
    (hhost : m.hostIp = some (.v6 address)) : parsePublishedPort (.str (String.ofList m.short)) = none := by
  obtain ⟨published, hpublished⟩ := hm.exists_published hhost
  obtain ⟨hcolon, -, -⟩ : HostIp.Literal (.v6 address) := hm.hostIp _ hhost
  obtain ⟨group, rest, rfl, hgroup⟩ := eq_append_cons_of_mem hcolon
  have hshort : m.short =
      ('[' :: group) ++ ':' :: (rest ++ ']' :: ':' :: (published ++ ':' :: (m.target ++ m.suffix))) := by
    rw [PortMapping.short_bracketed hhost hpublished]
    simp
  have hhead : ':' ∉ '[' :: group := by simp [hgroup]
  rw [parsePublishedPort, String.toList_ofList, hshort, headD_splitOn_append hhead, parseInt_bracket]
  simp

/-- **When the scheduler sees the host port that the merge reads**: when the short form publishes a
port and has no address, or an IPv4 address whose first octet is the port. -/
theorem parsePublishedPort_short_iff {m : PortMapping} (hm : m.Valid) :
    parsePublishedPort (.str (String.ofList m.short)) = publishedNumber (parseShortPort m.short) ↔
      ∃ published, m.published = some published ∧ (m.hostIp = none ∨
        ∃ address, m.hostIp = some (.v4 address) ∧ firstOctet address = ofDigits 10 published) := by
  rw [publishedNumber_short hm]
  cases hpublished : m.published with
  | none =>
    rw [parsePublishedPort_target hm hpublished]
    simp
  | some published =>
    have hport := hm.published _ hpublished
    rw [Option.map_some]
    cases hhost : m.hostIp with
    | none =>
      rw [parsePublishedPort_published hm hhost hpublished]
      simp
    | some hostIp =>
      cases hostIp with
      | v6 address =>
        rw [parsePublishedPort_ipv6 hm hhost]
        simp
      | v4 address =>
        rw [parsePublishedPort_ipv4 hm hhost]
        have hfits : hostPort? (firstOctet address) = some (ofDigits 10 published) ↔
            firstOctet address = ofDigits 10 published := by
          rw [hostPort?]
          obtain ⟨-, h₁, h₂⟩ := hport
          constructor
          · intro h
            split at h
            · simpa using h
            · cases h
          · intro h
            rw [if_pos (by omega), h, Int.toNat_natCast]
        rw [hfits]
        simp

theorem parsePublishedPort_udp : parsePublishedPort (.str "8080:80/udp") =
    publishedNumber (parseShortPort "8080:80/udp".toList) := by
  have hm : (⟨none, some "8080".toList, "80".toList, some "udp".toList⟩ : PortMapping).Valid := by
    constructor
    · simp
    · simp [IsPort]; decide +kernel
    · simp [IsPort]; decide +kernel
    · simp [IsProtocol]; decide +kernel
    · simp
  exact (parsePublishedPort_short_iff hm).2 ⟨_, rfl, .inl rfl⟩

theorem parsePublishedPort_loopback : ¬ ∀ m : PortMapping, m.Valid →
    parsePublishedPort (.str (String.ofList m.short)) = publishedNumber (parseShortPort m.short) := by
  intro hall
  have hm : (⟨some (.v4 "127.0.0.1".toList), some "8080".toList, "80".toList, none⟩ : PortMapping).Valid := by
    constructor
    · simp [HostIp.Literal]; decide +kernel
    · simp [IsPort]; decide +kernel
    · simp [IsPort]; decide +kernel
    · simp
    · simp
  have hseen := hall _ hm
  rw [parsePublishedPort_ipv4 hm rfl, publishedNumber_short hm] at hseen
  exact absurd hseen (by decide +kernel)

end TurboPanel.Schedule
