import TurboPanel.Js.IntegerText

/-!
# Envelopes

The text of a sealed or signed value: a scheme, the version of the key and the fields, with dots
between them. The version is a double, as `parseInt` reads it, and only its own text is accepted.
-/

namespace TurboPanel.Secrets

open TurboPanel.Js List

/-- `v${version}`. -/
def versionText (version : ℕ) : Text := 'v' :: integerText version

def formatEnvelope (scheme : Text) (version : ℕ) (fields : List Text) : Text :=
  ['.'].intercalate (scheme :: versionText version :: fields)

/-- `VERSION_TOKEN`: the digits after the `v`, the first of them not zero. -/
def versionDigits? : Text → Option Text
  | 'v' :: first :: rest =>
    if first ≠ '0' ∧ isDigitOf 10 first = true ∧ rest.all (isDigitOf 10) = true then some (first :: rest) else none
  | _ => none

structure Envelope where
  version : ℕ
  fields : List Text

/-- The version that a token gives: `Number.isInteger` refuses `Infinity`. -/
def parseVersion (versionToken : Text) : Option ℕ :=
  match versionDigits? versionToken with
  | none => none
  | some digits =>
    match (Number.ofNat (ofDigits 10 digits)).natural? with
    | none => none
    | some version => if version < 1 then none else if versionToken ≠ versionText version then none else some version

def parseEnvelope (scheme value : Text) (expectedFieldCount : ℕ) : Option Envelope :=
  if ¬ (scheme ++ ['.']) <+: value then none
  else
    let tokens := value.splitOn '.'
    if tokens.length ≠ 2 + expectedFieldCount then none
    else
      match tokens with
      | tokenScheme :: versionToken :: fields =>
        if tokenScheme ≠ scheme ∨ fields.length ≠ expectedFieldCount then none
        else
          match parseVersion versionToken with
          | none => none
          | some version => if fields.any List.isEmpty then none else some { version, fields }
      | _ => none

/-! ## Versions -/

variable {version : ℕ}

theorem parseVersion_some {token : Text} (h : parseVersion token = some version) :
    1 ≤ version ∧ token = versionText version := by
  unfold parseVersion at h
  split at h
  · cases h
  · split at h
    · cases h
    · split_ifs at h with hlow hother
      rw [← Option.some.inj h]
      exact ⟨by omega, not_not.1 hother⟩

/-- **A safe version is read back.** -/
theorem parseVersion_versionText (hlow : 1 ≤ version) (hsafe : version < safeBound) :
    parseVersion (versionText version) = some version := by
  obtain ⟨first, rest, hdigits, hfirst⟩ := toDigits_cons hlow
  have hall : ∀ c ∈ Nat.toDigits 10 version, isDigitOf 10 c = true := fun c hc => isDigitOf_of_mem_decimal hc
  have htoken : versionText version = 'v' :: Nat.toDigits 10 version := by
    rw [versionText, integerText_of_safe hsafe]
  have hmatch : versionDigits? (versionText version) = some (Nat.toDigits 10 version) := by
    rw [htoken, hdigits]
    rw [hdigits] at hall
    rw [versionDigits?, if_pos]
    refine ⟨hfirst, hall first (by simp), all_eq_true.2 fun c hc => hall c (by simp [hc])⟩
  have hvalue : (Number.ofNat (ofDigits 10 (Nat.toDigits 10 version))).natural? = some version := by
    rw [ofDigits_toDigits (by decide) (by decide), Number.ofNat_of_lt hsafe, Number.natural?_natCast]
  unfold parseVersion
  rw [hmatch]
  simp only [hvalue]
  rw [if_neg (by omega), if_neg (by simp)]

/-! ## Round trips -/

/-- **What `formatEnvelope` writes is read back**, with a version that is a positive safe integer
and fields that are not empty and have no dot. -/
theorem parseEnvelope_formatEnvelope {scheme : Text} {fields : List Text} (hscheme : '.' ∉ scheme)
    (hlow : 1 ≤ version) (hsafe : version < safeBound) (hfields : ∀ field ∈ fields, field ≠ [] ∧ '.' ∉ field) :
    parseEnvelope scheme (formatEnvelope scheme version fields) fields.length = some { version, fields } := by
  have hversion : '.' ∉ versionText version := by
    rw [versionText, integerText_of_safe hsafe, mem_cons, not_or]
    exact ⟨by decide, not_mem_decimal (by decide)⟩
  have htokens : (formatEnvelope scheme version fields).splitOn '.' = scheme :: versionText version :: fields := by
    refine splitOn_intercalate '.' ?_ (cons_ne_nil _ _)
    intro token htoken
    simp only [mem_cons] at htoken
    obtain rfl | rfl | hfield := htoken
    · exact hscheme
    · exact hversion
    · exact (hfields token hfield).2
  have hprefix : (scheme ++ ['.']) <+: formatEnvelope scheme version fields := by
    refine ⟨['.'].intercalate (versionText version :: fields), ?_⟩
    rw [formatEnvelope, intercalate_cons_of_ne_nil (cons_ne_nil _ _), append_assoc]
  have hempty : fields.any List.isEmpty = false := by
    rw [any_eq_false]
    intro field hfield
    rw [List.isEmpty_iff]
    exact (hfields field hfield).1
  rw [parseEnvelope, if_neg (not_not.2 hprefix)]
  simp only [htokens, parseVersion_versionText hlow hsafe, hempty, length_cons]
  rw [if_neg (by omega), if_neg (by simp)]
  rfl

/-- **A text that is accepted is the one that its parts are written as.** -/
theorem parseEnvelope_some {scheme value : Text} {expectedFieldCount : ℕ} {e : Envelope}
    (h : parseEnvelope scheme value expectedFieldCount = some e) :
    formatEnvelope scheme e.version e.fields = value ∧ 1 ≤ e.version ∧ e.fields.length = expectedFieldCount ∧
      ∀ field ∈ e.fields, field ≠ [] := by
  have hjoin : ['.'].intercalate (value.splitOn '.') = value := intercalate_splitOn '.'
  rw [parseEnvelope] at h
  split at h
  · cases h
  · dsimp only at h
    split at h
    · cases h
    · split at h
      · rename_i tokenScheme versionToken fields htokens
        split at h
        · cases h
        · rename_i hscheme
          rw [not_or, not_not, not_not] at hscheme
          obtain ⟨rfl, hlength⟩ := hscheme
          split at h
          · cases h
          · rename_i version hversion
            obtain ⟨hlow, rfl⟩ := parseVersion_some hversion
            split at h
            · cases h
            · rename_i hempty
              cases h
              refine ⟨?_, hlow, hlength, fun field hfield hnil => hempty ?_⟩
              · rw [formatEnvelope, ← htokens, hjoin]
              · exact any_eq_true.2 ⟨field, hfield, isEmpty_iff.2 hnil⟩
      · cases h

end TurboPanel.Secrets
