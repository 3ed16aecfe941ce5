import TurboPanel.Compose.Merge
import TurboPanel.Lib.Ipv4Text

/-!
# Short and long ports

A port mapping is written as a text `[host_ip:][published:]target[/protocol]`, with an IPv6 address
in brackets, or as a mapping. `parseShortPort` reads a text without brackets back
(`parseShortPort_short`), so both forms have one key. It keeps the brackets of an address, and the
protocol on the target behind them (`parseShortPort_bracketed`), so with an IPv6 address the keys of
the two forms differ (`portUniqueKey_long_ne_bracketed`).
-/

namespace TurboPanel.Compose

open List Js Ip

/-! ## Port mappings -/

inductive HostIp
  | v4 (address : Text)
  | v6 (address : Text)

/-- An IPv6 literal has a colon and no bracket. -/
def HostIp.Literal : HostIp → Prop
  | .v4 address => isIpv4Address address = true
  | .v6 address => ':' ∈ address ∧ '[' ∉ address ∧ ']' ∉ address

def HostIp.long : HostIp → Text
  | .v4 address => address
  | .v6 address => address

def HostIp.short : HostIp → Text
  | .v4 address => address
  | .v6 address => '[' :: address ++ [']']

structure PortMapping where
  hostIp : Option HostIp
  published : Option Text
  target : Text
  protocol : Option Text

def IsPort (text : Text) : Prop := isDecimal text = true ∧ 1 ≤ ofDigits 10 text ∧ ofDigits 10 text ≤ 65535

def IsProtocol (text : Text) : Prop := text ≠ [] ∧ ∀ ch ∈ text, isAlphanumeric ch = true

structure PortMapping.Valid (m : PortMapping) : Prop where
  hostIp : ∀ hostIp ∈ m.hostIp, hostIp.Literal
  published : ∀ published ∈ m.published, IsPort published
  target : IsPort m.target
  protocol : ∀ protocol ∈ m.protocol, IsProtocol protocol
  /-- Without a published port there is no address. -/
  hostIp_of_published : m.published = none → m.hostIp = none

/-- The parts of the short form that are joined by colons, without the protocol. -/
def PortMapping.parts (m : PortMapping) : List Text :=
  (m.hostIp.map HostIp.short).toList ++ m.published.toList ++ [m.target]

/-- `[host_ip:][published:]target[/protocol]`. -/
def PortMapping.short (m : PortMapping) : Text :=
  [':'].intercalate m.parts ++ (m.protocol.map ('/' :: ·)).getD []

/-- A field of a mapping is a text, or a number with this text. -/
def SpelledAs (field : Option Json) : Option Text → Prop
  | none => field = none
  | some text => field = some (.str (String.ofList text)) ∨ field = some (.num (String.ofList text))

/-- The long form of a port mapping. -/
structure PortMapping.IsLong (m : PortMapping) (entry : Fields) : Prop where
  hostIp : entry.lookup "host_ip" = m.hostIp.map fun hostIp => .str (String.ofList hostIp.long)
  published : SpelledAs (entry.lookup "published") m.published
  target : SpelledAs (entry.lookup "target") (some m.target)
  protocol : entry.lookup "protocol" = m.protocol.map fun protocol => .str (String.ofList protocol)

/-- The protocol of a key. -/
def PortMapping.keyProtocol (m : PortMapping) : Text := (m.protocol.map toLowerCase).getD "tcp".toList

/-! ## Characters of the parts -/

/-- A character of a port, an address or a protocol, which no part of a short form is cut at. -/
structure Plain (ch : Char) : Prop where
  ne_colon : ch ≠ ':'
  ne_slash : ch ≠ '/'
  ne_bracket : ch ≠ '['
  ne_dash : ch ≠ '-'
  not_space : isSpace ch = false

variable {m : PortMapping} {ch : Char} {text : Text} {address : Text}

theorem plain_of_digit (h : isDigitOf 10 ch = true) : Plain ch where
  ne_colon := by rintro rfl; cases h
  ne_slash := by rintro rfl; cases h
  ne_bracket := by rintro rfl; cases h
  ne_dash := by rintro rfl; cases h
  not_space := not_isSpace_of_isDigitOf (by decide) h

theorem isDigitOf_of_isDigit (h : ch.isDigit = true) : isDigitOf 10 ch = true := by
  rw [Char.isDigit, Bool.and_eq_true, decide_eq_true_eq, decide_eq_true_eq] at h
  have h₁ : 48 ≤ ch.toNat := h.1
  have h₂ : ch.toNat ≤ 57 := h.2
  have hzero : '0'.toNat = 48 := rfl
  rw [isDigitOf, decide_eq_true_eq, digitValue, if_pos ⟨h.1, h.2⟩]
  omega

theorem plain_of_alphanumeric (h : isAlphanumeric ch = true) : Plain ch where
  ne_colon := by rintro rfl; cases h
  ne_slash := by rintro rfl; cases h
  ne_bracket := by rintro rfl; cases h
  ne_dash := by rintro rfl; cases h
  not_space := by
    rw [isAlphanumeric, Bool.or_eq_true] at h
    obtain halpha | hdigit := h
    · exact not_isSpace_of_isAlpha halpha
    · exact not_isSpace_of_isDigitOf (by decide) (isDigitOf_of_isDigit hdigit)

theorem plain_of_mem_ipv4 (h : isIpv4Address address = true) : ∀ ch ∈ address, Plain ch := by
  intro ch hch
  obtain ⟨a, -, b, -, c, -, d, -, rfl⟩ := isIpv4Address_iff_dotted.1 h
  obtain rfl | hdigit := mem_dotted hch
  · exact ⟨by decide, by decide, by decide, by decide, by decide⟩
  · exact plain_of_digit hdigit

theorem plain_of_isPort (h : IsPort text) : ∀ ch ∈ text, Plain ch := by
  have hdigits := h.1
  rw [isDecimal, Bool.and_eq_true, all_eq_true] at hdigits
  exact fun ch hch => plain_of_digit (hdigits.2 ch hch)

theorem ne_nil_of_isPort (h : IsPort text) : text ≠ [] := by
  rintro rfl
  cases h.1

theorem plain_of_isProtocol (h : IsProtocol text) : ∀ ch ∈ text, Plain ch :=
  fun ch hch => plain_of_alphanumeric (h.2 ch hch)

/-! ## Reading the short form -/

/-- The protocol as it is written. -/
def PortMapping.suffix (m : PortMapping) : Text := (m.protocol.map ('/' :: ·)).getD []

/-- The short form before the protocol. -/
def PortMapping.body (m : PortMapping) : Text := [':'].intercalate m.parts

theorem PortMapping.short_eq (m : PortMapping) : m.short = m.body ++ m.suffix := rfl

section

variable (hm : m.Valid) (hv6 : ∀ address, m.hostIp ≠ some (.v6 address))
include hm hv6

theorem PortMapping.Valid.plain_of_mem_parts : ∀ part ∈ m.parts, ∀ ch ∈ part, Plain ch := by
  intro part hpart
  rw [parts, mem_append, mem_append, Option.mem_toList, Option.mem_toList, mem_singleton,
    Option.map_eq_some_iff] at hpart
  obtain (⟨hostIp, hhost, rfl⟩ | hpublished) | rfl := hpart
  · cases hostIp with
    | v4 address => exact plain_of_mem_ipv4 (hm.hostIp _ hhost)
    | v6 address => exact absurd hhost (hv6 address)
  · exact plain_of_isPort (hm.published _ hpublished)
  · exact plain_of_isPort hm.target

theorem PortMapping.splitOn_body : m.body.splitOn ':' = m.parts :=
  splitOn_intercalate ':' (fun part hpart hch => (hm.plain_of_mem_parts hv6 part hpart _ hch).ne_colon rfl)
    (by simp [parts])

theorem PortMapping.body_ne_nil : m.body ≠ [] := by
  intro hnil
  have hparts := splitOn_body hm hv6
  rw [hnil, splitOn_nil] at hparts
  have htarget : m.target ∈ [([] : Text)] := by rw [hparts]; simp [parts]
  exact ne_nil_of_isPort hm.target (mem_singleton.1 htarget)

end

theorem splitPortProtocol_word {body protocol : Text} (hbody : body ≠ []) (hbracket : '[' ∉ body)
    (h : IsProtocol protocol) :
    splitPortProtocol (body ++ '/' :: protocol) = (body, toLowerCase protocol) := by
  have hplain := plain_of_isProtocol h
  have hslash : lastIndexOf '/' (body ++ '/' :: protocol) = some (body.length - 1 + 1) := by
    have hpos := length_pos_of_ne_nil hbody
    rw [lastIndexOf_append_cons body fun hmem => (hplain _ hmem).ne_slash rfl, Nat.sub_add_cancel hpos]
  have hlen : body.length - 1 + 1 = body.length := Nat.sub_add_cancel (length_pos_of_ne_nil hbody)
  have hnone : (body ++ '/' :: protocol).contains '[' = false := by
    rw [← Bool.not_eq_true, contains_iff_mem, mem_append, mem_cons]
    rintro (hmem | heq | hmem)
    · exact hbracket hmem
    · cases heq
    · exact (hplain _ hmem).ne_bracket rfl
  unfold splitPortProtocol
  simp only [hslash]
  have hdrop : (body ++ '/' :: protocol).drop (body.length - 1 + 2) = protocol := by
    rw [show body.length - 1 + 2 = body.length + 1 by omega]
    simp
  have hword : protocol.all isAlphanumeric = true := all_eq_true.2 h.2
  rw [hdrop, hnone, hlen, if_pos (by simp [h.1, hword]), take_left' rfl]

theorem splitPortProtocol_bare {body : Text} (hslash : '/' ∉ body) :
    splitPortProtocol body = (body, "tcp".toList) := by
  unfold splitPortProtocol
  rw [lastIndexOf_eq_none.2 hslash]

section

variable (hm : m.Valid) (hv6 : ∀ address, m.hostIp ≠ some (.v6 address))
include hm hv6

theorem PortMapping.Valid.of_mem_body (h : ch ∈ m.body) : ch = ':' ∨ Plain ch := by
  obtain heq | ⟨part, hpart, hch⟩ := mem_intercalate_singleton h
  · exact .inl heq
  · exact .inr (hm.plain_of_mem_parts hv6 part hpart ch hch)

theorem PortMapping.Valid.bracket_not_mem_body : '[' ∉ m.body := by
  intro hmem
  obtain heq | hplain := hm.of_mem_body hv6 hmem
  · cases heq
  · exact hplain.ne_bracket rfl

theorem splitPortProtocol_short : splitPortProtocol m.short = (m.body, m.keyProtocol) := by
  have hslash : '/' ∉ m.body := by
    intro hmem
    obtain heq | hplain := hm.of_mem_body hv6 hmem
    · cases heq
    · exact hplain.ne_slash rfl
  rw [m.short_eq, PortMapping.suffix, PortMapping.keyProtocol]
  cases hprotocol : m.protocol with
  | none => rw [Option.map_none, Option.getD_none, append_nil, splitPortProtocol_bare hslash]; rfl
  | some protocol =>
    rw [Option.map_some, Option.getD_some, splitPortProtocol_word (PortMapping.body_ne_nil hm hv6)
      (hm.bracket_not_mem_body hv6) (hm.protocol _ hprotocol)]
    rfl

end

theorem splitPortColons_bare {body : Text} (h : '[' ∉ body) : splitPortColons body = body.splitOn ':' := by
  unfold splitPortColons
  split
  · exact absurd mem_cons_self h
  · rfl

theorem PortMapping.Valid.of_mem_suffix (hm : m.Valid) (h : ch ∈ m.suffix) :
    ch = '/' ∨ Plain ch := by
  rw [suffix] at h
  cases hprotocol : m.protocol with
  | none => rw [hprotocol] at h; cases h
  | some protocol =>
    rw [hprotocol, Option.map_some, Option.getD_some, mem_cons] at h
    exact h.imp_right (plain_of_isProtocol (hm.protocol _ hprotocol) ch)

theorem PortMapping.Valid.of_mem_target (hm : m.Valid) (h : ch ∈ m.target ++ m.suffix) :
    ch = '/' ∨ Plain ch := by
  obtain h | h := mem_append.1 h
  · exact .inr (plain_of_isPort hm.target ch h)
  · exact hm.of_mem_suffix h

/-- **The short form is read back**, unless its address is in brackets. -/
theorem parseShortPort_short (hm : m.Valid) (hv6 : ∀ address, m.hostIp ≠ some (.v6 address)) :
    parseShortPort m.short =
      ⟨(m.hostIp.map HostIp.long).getD [], m.target, m.published.getD [], m.keyProtocol⟩ := by
  have htrim : trim m.short = m.short := by
    refine trim_eq_self_of_forall fun ch hch => ?_
    rw [m.short_eq, mem_append] at hch
    obtain hch | hch := hch
    · obtain rfl | hplain := hm.of_mem_body hv6 hch
      · decide
      · exact hplain.not_space
    · obtain rfl | hplain := hm.of_mem_suffix hch
      · decide
      · exact hplain.not_space
  rw [parseShortPort, htrim, splitPortProtocol_short hm hv6]
  simp only [splitPortColons_bare (hm.bracket_not_mem_body hv6), PortMapping.splitOn_body hm hv6]
  cases hpublished : m.published with
  | none =>
    rw [PortMapping.parts, hpublished, hm.hostIp_of_published hpublished]
    rfl
  | some published =>
    cases hhost : m.hostIp with
    | none =>
      rw [PortMapping.parts, hpublished, hhost]
      rfl
    | some hostIp =>
      cases hostIp with
      | v4 address =>
        rw [PortMapping.parts, hpublished, hhost]
        simp [HostIp.short, HostIp.long]
      | v6 address => exact absurd hhost (hv6 address)

theorem PortMapping.Valid.exists_published (hm : m.Valid) {hostIp : HostIp} (hhost : m.hostIp = some hostIp) :
    ∃ published, m.published = some published := by
  refine Option.ne_none_iff_exists'.1 fun hnone => ?_
  rw [hm.hostIp_of_published hnone] at hhost
  cases hhost

theorem PortMapping.short_bracketed {address published : Text} (hhost : m.hostIp = some (.v6 address))
    (hpublished : m.published = some published) :
    m.short = '[' :: (address ++ ']' :: ':' :: (published ++ ':' :: (m.target ++ m.suffix))) := by
  rw [m.short_eq, body, parts, hhost, hpublished]
  simp [HostIp.short, List.intercalate, List.intersperse]

theorem splitPortColons_bracketed {address rest : Text} (h : ']' ∉ address) :
    splitPortColons ('[' :: (address ++ ']' :: ':' :: rest)) = ('[' :: address ++ [']']) :: rest.splitOn ':' := by
  have hall : ∀ ch ∈ address, decide (ch ≠ ']') = true := by
    intro ch hch
    rw [decide_eq_true_eq]
    rintro rfl
    exact h hch
  have htake : (address ++ ']' :: ':' :: rest).takeWhile (· ≠ ']') = address := by
    rw [takeWhile_append_of_pos hall]
    simp
  have hdrop : (address ++ ']' :: ':' :: rest).dropWhile (· ≠ ']') = ']' :: ':' :: rest := by
    rw [dropWhile_append_of_pos hall]
    simp
  have hclose : (address ++ ']' :: ':' :: rest).contains ']' = true := by simp
  unfold splitPortColons
  simp only [hclose, htake, hdrop, drop_succ_cons, drop_zero, if_true]

theorem PortMapping.Valid.splitOn_published (hm : m.Valid) {published : Text}
    (hpublished : m.published = some published) :
    (published ++ ':' :: (m.target ++ m.suffix)).splitOn ':' = [published, m.target ++ m.suffix] := by
  have hjoin : published ++ ':' :: (m.target ++ m.suffix) =
      [':'].intercalate [published, m.target ++ m.suffix] := by simp [List.intercalate, List.intersperse]
  rw [hjoin]
  refine splitOn_intercalate ':' (fun part hpart hch => ?_) (by simp)
  rw [mem_cons, mem_singleton] at hpart
  obtain rfl | rfl := hpart
  · exact (plain_of_isPort (hm.published _ hpublished) _ hch).ne_colon rfl
  · obtain heq | hplain := hm.of_mem_target hch
    · cases heq
    · exact hplain.ne_colon rfl

theorem parseShortPort_bracketed (hm : m.Valid) {address published : Text} (hhost : m.hostIp = some (.v6 address))
    (hpublished : m.published = some published) :
    parseShortPort m.short = ⟨'[' :: address ++ [']'], m.target ++ m.suffix, published, "tcp".toList⟩ := by
  have htarget : ∀ ch ∈ m.target ++ m.suffix, isSpace ch = false := by
    intro ch hch
    obtain rfl | hplain := hm.of_mem_target hch
    · decide
    · exact hplain.not_space
  have hshort := PortMapping.short_bracketed hhost hpublished
  have htrim : trim m.short = m.short := by
    rw [hshort]
    refine trim_eq_self (fun ch hch => ?_) fun ch hch => htarget ch ?_
    · obtain rfl : '[' = ch := by simpa using hch
      decide
    · have hassoc : '[' :: (address ++ ']' :: ':' :: (published ++ ':' :: (m.target ++ m.suffix))) =
          ('[' :: address ++ ']' :: ':' :: published ++ [':']) ++ (m.target ++ m.suffix) := by simp
      have hne : m.target ++ m.suffix ≠ [] := by simp [ne_nil_of_isPort hm.target]
      rw [hassoc, List.getLast?_append_of_ne_nil _ hne] at hch
      exact mem_of_getLast? hch
  have hprotocol : splitPortProtocol m.short = (m.short, "tcp".toList) := by
    have hbracket : m.short.contains '[' = true := by rw [hshort]; simp
    unfold splitPortProtocol
    rw [hbracket]
    split
    · simp
    · rfl
  rw [parseShortPort, htrim, hprotocol, hshort]
  simp [splitPortColons_bracketed (hm.hostIp _ hhost).2.2, hm.splitOn_published hpublished]

/-! ## Keys -/

theorem isFiniteText_of_isPort (h : IsPort text) : isFiniteText (String.ofList text) = true := by
  have hne : ∀ name : String, isDecimal name.toList = false → String.ofList text ≠ name := by
    rintro name hname rfl
    rw [String.toList_ofList, h.1] at hname
    cases hname
  simp [isFiniteText, hne "NaN" (by decide), hne "Infinity" (by decide), hne "-Infinity" (by decide)]

theorem composePortFieldString_spelledAs {field : Option Json} {text : Option Text} (h : SpelledAs field text)
    (hdigits : ∀ t ∈ text, IsPort t) : composePortFieldString field = text.getD [] := by
  cases text with
  | none =>
    rw [show field = none from h]
    rfl
  | some t =>
    obtain rfl | rfl := h
    · simp [composePortFieldString]
    · simp [composePortFieldString, isFiniteText_of_isPort (hdigits t rfl)]

theorem portUniqueKey_long (hm : m.Valid) {entry : Fields} (h : m.IsLong entry) :
    portUniqueKey (.obj entry) = some (portKeyString
      ⟨(m.hostIp.map HostIp.long).getD [], m.target, m.published.getD [], m.keyProtocol⟩) := by
  have htarget := composePortFieldString_spelledAs h.target (by simpa using hm.target)
  have hpublished := composePortFieldString_spelledAs h.published hm.published
  rw [portUniqueKey, htarget, hpublished, h.hostIp, h.protocol, PortMapping.keyProtocol]
  cases m.hostIp <;> cases m.protocol <;> simp [Json.str?]

theorem portUniqueKey_bracketed (hm : m.Valid) (hhost : m.hostIp = some (.v6 address)) :
    portUniqueKey (.str (String.ofList m.short)) = some (portKeyString
      ⟨'[' :: address ++ [']'], m.target ++ m.suffix, m.published.getD [], "tcp".toList⟩) := by
  obtain ⟨published, hpublished⟩ := hm.exists_published hhost
  rw [portUniqueKey, String.toList_ofList, parseShortPort_bracketed hm hhost hpublished, hpublished, Option.getD_some]

theorem portUniqueKey_long_ne_bracketed (hm : m.Valid) {entry : Fields} (h : m.IsLong entry)
    (hhost : m.hostIp = some (.v6 address)) :
    portUniqueKey (.obj entry) ≠ portUniqueKey (.str (String.ofList m.short)) := by
  obtain ⟨hcolon, hopen, -⟩ : HostIp.Literal (.v6 address) := hm.hostIp _ hhost
  rw [portUniqueKey_long hm h, portUniqueKey_bracketed hm hhost, hhost, ne_eq, Option.some.injEq]
  cases address with
  | nil => cases hcolon
  | cons first rest =>
    intro heq
    have hfirst : first = '[' := by
      simp only [portKeyString, List.intercalate, List.intersperse, HostIp.long, Option.map_some,
          Option.getD_some] at heq
      exact (List.cons.inj heq).1
    rw [hfirst] at hopen
    exact hopen mem_cons_self

/-- **The long and the short form of a port have one key**, when there is no address or it is an
IPv4 address. The protocol behind an IPv6 address is part of the key as it is written. -/
theorem portUniqueKey_long_eq_short {m : PortMapping} (hm : m.Valid) :
    ((∀ address, m.hostIp ≠ some (.v6 address)) → ∀ entry, m.IsLong entry →
      portUniqueKey (.obj entry) = portUniqueKey (.str (String.ofList m.short))) ∧
    ∀ address, m.hostIp = some (.v6 address) → ∀ m' : PortMapping, m'.Valid → m'.hostIp = m.hostIp →
      m'.published = m.published → m'.target = m.target →
      portUniqueKey (.str (String.ofList m'.short)) = portUniqueKey (.str (String.ofList m.short)) →
      m'.protocol = m.protocol := by
  constructor
  · intro hv6 entry hlong
    rw [portUniqueKey_long hm hlong, portUniqueKey, String.toList_ofList, parseShortPort_short hm hv6]
  · intro address hhost m' hm' hhost' hpublished htarget hkey
    rw [portUniqueKey_bracketed hm hhost, portUniqueKey_bracketed hm' (hhost'.trans hhost), hpublished, htarget,
      Option.some.injEq] at hkey
    have hsuffix : m'.suffix = m.suffix := by
      simpa [portKeyString, List.intercalate, List.intersperse] using hkey
    rw [PortMapping.suffix, PortMapping.suffix] at hsuffix
    cases hprotocol : m.protocol <;> cases hprotocol' : m'.protocol <;> simp_all

theorem portUniqueKey_ipv4_forms :
    portUniqueKey (.obj [("host_ip", .str "127.0.0.1"), ("published", .num "8443"), ("target", .num "443"),
      ("protocol", .str "tcp")]) = portUniqueKey (.str "127.0.0.1:8443:443/tcp") := by
  have hm : (⟨some (.v4 "127.0.0.1".toList), some "8443".toList, "443".toList, some "tcp".toList⟩ :
      PortMapping).Valid := by
    constructor
    · simp [HostIp.Literal]; decide +kernel
    · simp [IsPort]; decide +kernel
    · simp [IsPort]; decide +kernel
    · simp [IsProtocol]; decide +kernel
    · simp
  exact (portUniqueKey_long_eq_short hm).1 (by simp) _ ⟨by simp; rfl, .inr rfl, .inr rfl, rfl⟩

theorem portUniqueKey_ipv6_forms :
    ¬ ∀ (m : PortMapping) (entry : Fields), m.Valid → m.IsLong entry →
      portUniqueKey (.obj entry) = portUniqueKey (.str (String.ofList m.short)) := by
  intro hall
  have hm : (⟨some (.v6 "::1".toList), some "8080".toList, "80".toList, some "udp".toList⟩ : PortMapping).Valid := by
    constructor
    · simp [HostIp.Literal]
    · simp [IsPort]; decide +kernel
    · simp [IsPort]; decide +kernel
    · simp [IsProtocol]; decide +kernel
    · simp
  have hlong : PortMapping.IsLong ⟨some (.v6 "::1".toList), some "8080".toList, "80".toList, some "udp".toList⟩
      [("host_ip", .str "::1"), ("published", .num "8080"), ("target", .num "80"), ("protocol", .str "udp")] :=
    ⟨by simp; rfl, .inr rfl, .inr rfl, rfl⟩
  exact portUniqueKey_long_ne_bracketed hm hlong rfl (hall _ _ hm hlong)

end TurboPanel.Compose
