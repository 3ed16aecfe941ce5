import TurboPanel.Js.Bounded
import TurboPanel.Js.Words

/-!
# Base64url

Bytes as text, six bits a character and without padding. `atob` is the forgiving decoder: it drops
white space and the bits that are left over, so that more than one text decodes to the same bytes;
the text that `base64urlEncode` writes decodes to the bytes it was written for
(`base64urlDecode_base64urlEncode`).
-/

namespace TurboPanel.Secrets

open TurboPanel.Js List

/-! ## Six bits a character -/

def base64Alphabet : Text := "ABCDEFGHIJKLMNOPQRSTUVWXYZabcdefghijklmnopqrstuvwxyz0123456789+/".toList

def base64Char (digit : ℕ) : Char := base64Alphabet.getD digit '='

/-- The groups of six bits of bytes, the last one filled up with zeros. -/
def sextets : List UInt8 → List ℕ
  | [] => []
  | [a] => [a.toNat / 4, a.toNat % 4 * 16]
  | [a, b] => [a.toNat / 4, a.toNat % 4 * 16 + b.toNat / 16, b.toNat % 16 * 4]
  | a :: b :: c :: rest =>
    a.toNat / 4 :: (a.toNat % 4 * 16 + b.toNat / 16) :: (b.toNat % 16 * 4 + c.toNat / 64) :: c.toNat % 64 ::
      sextets rest

/-- The bytes of groups of six bits; the bits that fill no byte are dropped. -/
def octets : List ℕ → List UInt8
  | a :: b :: c :: d :: rest =>
    UInt8.ofNat (a * 4 + b / 16) :: UInt8.ofNat (b % 16 * 16 + c / 4) :: UInt8.ofNat (c % 4 * 64 + d) :: octets rest
  | [a, b, c] => [UInt8.ofNat (a * 4 + b / 16), UInt8.ofNat (b % 16 * 16 + c / 4)]
  | [a, b] => [UInt8.ofNat (a * 4 + b / 16)]
  | _ => []

/-- The padding that brings a length to a multiple of four. -/
def padding (length : ℕ) : Text := List.replicate ((4 - length % 4) % 4) '='

/-- `btoa`, of a string of bytes. -/
def btoa (bytes : List UInt8) : Text := (sextets bytes).map base64Char ++ padding (sextets bytes).length

def isAsciiWhitespace (c : Char) : Bool := c == '\t' || c == '\n' || c == '\x0c' || c == '\r' || c == ' '

/-- One or two `=` at the end. -/
def stripPadding (data : Text) : Text :=
  match data.reverse with
  | '=' :: '=' :: rest => rest.reverse
  | '=' :: rest => rest.reverse
  | _ => data

/-- `atob`, to bytes. -/
def atob (input : Text) : Option (List UInt8) :=
  let data := input.filter (!isAsciiWhitespace ·)
  let data := if data.length % 4 = 0 then stripPadding data else data
  if data.length % 4 = 1 ∨ ¬ (∀ c ∈ data, c ∈ base64Alphabet) then none
  else some (octets (data.map fun c => base64Alphabet.idxOf c))

def base64urlEncode (bytes : List UInt8) : Text :=
  (((btoa bytes).map fun c => if c = '+' then '-' else c).map fun c => if c = '/' then '_' else c).filter (· ≠ '=')

def base64urlDecode (input : Text) : Option (List UInt8) :=
  let padded := input ++ padding (utf16Length input)
  atob ((padded.map fun c => if c = '-' then '+' else c).map fun c => if c = '_' then '/' else c)

/-! ## Round trip -/

theorem octets_sextets : ∀ bytes : List UInt8, octets (sextets bytes) = bytes
  | [] => rfl
  | [a] => by
    have ha := a.toNat_lt
    rw [sextets, octets, show a.toNat / 4 * 4 + a.toNat % 4 * 16 / 16 = a.toNat by omega, UInt8.ofNat_toNat]
  | [a, b] => by
    have ha := a.toNat_lt
    have hb := b.toNat_lt
    rw [sextets, octets, show a.toNat / 4 * 4 + (a.toNat % 4 * 16 + b.toNat / 16) / 16 = a.toNat by omega,
      show (a.toNat % 4 * 16 + b.toNat / 16) % 16 * 16 + b.toNat % 16 * 4 / 4 = b.toNat by omega, UInt8.ofNat_toNat,
      UInt8.ofNat_toNat]
  | a :: b :: c :: rest => by
    have ha := a.toNat_lt
    have hb := b.toNat_lt
    have hc := c.toNat_lt
    rw [sextets, octets, octets_sextets rest,
      show a.toNat / 4 * 4 + (a.toNat % 4 * 16 + b.toNat / 16) / 16 = a.toNat by omega,
      show (a.toNat % 4 * 16 + b.toNat / 16) % 16 * 16 + (b.toNat % 16 * 4 + c.toNat / 64) / 4 = b.toNat by omega,
      show (b.toNat % 16 * 4 + c.toNat / 64) % 4 * 64 + c.toNat % 64 = c.toNat by omega, UInt8.ofNat_toNat,
      UInt8.ofNat_toNat, UInt8.ofNat_toNat]

theorem sextets_lt : ∀ (bytes : List UInt8), ∀ digit ∈ sextets bytes, digit < 64
  | [], digit, h => absurd h not_mem_nil
  | [a], digit, h => by
    have ha := a.toNat_lt
    simp only [sextets, mem_cons, not_mem_nil, or_false] at h
    omega
  | [a, b], digit, h => by
    have ha := a.toNat_lt
    have hb := b.toNat_lt
    simp only [sextets, mem_cons, not_mem_nil, or_false] at h
    omega
  | a :: b :: c :: rest, digit, h => by
    have ha := a.toNat_lt
    have hb := b.toNat_lt
    have hc := c.toNat_lt
    simp only [sextets, mem_cons] at h
    rcases h with h | h | h | h | h
    · omega
    · omega
    · omega
    · omega
    · exact sextets_lt rest digit h

theorem length_sextets : ∀ bytes : List UInt8, (sextets bytes).length % 4 ≠ 1
  | [] => by decide
  | [_] => by simp [sextets]
  | [_, _] => by simp [sextets]
  | _ :: _ :: _ :: rest => by
    have hrest := length_sextets rest
    simp only [sextets, length_cons]
    omega

/-- The character of six bits in a URL. -/
def base64urlChar (digit : ℕ) : Char :=
  if base64Char digit = '+' then '-' else if base64Char digit = '/' then '_' else base64Char digit

theorem base64urlChar_spec : ∀ digit < 64, base64urlChar digit ≠ '=' ∧ base64urlChar digit ≠ '.' ∧
    (base64urlChar digit).toNat < 128 ∧ base64Char digit ∈ base64Alphabet ∧ base64Char digit ≠ '=' ∧
      base64Alphabet.idxOf (base64Char digit) = digit ∧ isAsciiWhitespace (base64Char digit) = false ∧
        (if (if base64urlChar digit = '-' then '+' else base64urlChar digit) = '_' then '/'
          else if base64urlChar digit = '-' then '+' else base64urlChar digit) = base64Char digit := by
  decide +kernel

theorem base64urlEncode_eq (bytes : List UInt8) : base64urlEncode bytes = (sextets bytes).map base64urlChar := by
  have hchars : ((((sextets bytes).map base64Char).map fun c => if c = '+' then '-' else c).map
      fun c => if c = '/' then '_' else c) = (sextets bytes).map base64urlChar := by
    rw [map_map, map_map]
    refine map_congr_left fun digit _ => ?_
    simp only [Function.comp_apply, base64urlChar]
    split_ifs with hplus hslash hslash
    · cases hslash
    · rfl
    · rfl
    · rfl
  have hkept : ((sextets bytes).map base64urlChar).filter (· ≠ '=') = (sextets bytes).map base64urlChar := by
    refine filter_eq_self.2 fun c hc => ?_
    obtain ⟨digit, hdigit, rfl⟩ := mem_map.1 hc
    exact decide_eq_true (base64urlChar_spec digit (sextets_lt bytes digit hdigit)).1
  rw [base64urlEncode, btoa, map_append, map_append, filter_append, hchars, hkept, padding,
    map_replicate, map_replicate]
  simp

theorem stripPadding_append {data : Text} (hdata : '=' ∉ data) {k : ℕ} (hk : k ≤ 2) :
    stripPadding (data ++ List.replicate k '=') = data := by
  have hrest : ∀ rest, data.reverse ≠ '=' :: rest := by
    intro rest h
    exact hdata (mem_reverse.1 (h ▸ mem_cons_self))
  rw [stripPadding, reverse_append, reverse_replicate]
  interval_cases k
  · simp only [replicate_zero, nil_append, append_nil]
    split
    · rename_i h
      exact absurd h (hrest _)
    · rename_i h
      exact absurd h (hrest _)
    · rfl
  · simp only [replicate_succ, replicate_zero, singleton_append]
    exact reverse_reverse data
  · simp only [replicate_succ, replicate_zero, cons_append, nil_append, reverse_reverse]

/-- **What `base64urlEncode` writes decodes to its bytes.** -/
theorem base64urlDecode_base64urlEncode (bytes : List UInt8) : base64urlDecode
    (base64urlEncode bytes) = some bytes := by
  have hspec := fun digit hdigit => base64urlChar_spec digit (sextets_lt bytes digit hdigit)
  have hlength := length_sextets bytes
  have hutf16 : utf16Length ((sextets bytes).map base64urlChar) = (sextets bytes).length := by
    rw [utf16Length, map_map]
    have hone : (sextets bytes).map ((fun c : Char => if c.toNat < 0x10000 then 1 else 2) ∘ base64urlChar) =
        (sextets bytes).map fun _ => 1 := by
      refine map_congr_left fun digit hdigit => if_pos ?_
      have hascii := (hspec digit hdigit).2.2.1
      omega
    rw [hone, map_const', sum_replicate, smul_eq_mul, mul_one]
  have hback : ((((sextets bytes).map base64urlChar ++ padding (sextets bytes).length).map
      fun c => if c = '-' then '+' else c).map fun c => if c = '_' then '/' else c) =
        (sextets bytes).map base64Char ++ padding (sextets bytes).length := by
    rw [map_append, map_append, map_map, map_map, padding, map_replicate, map_replicate]
    congr 1
    exact map_congr_left fun digit hdigit => (hspec digit hdigit).2.2.2.2.2.2.2
  have hfilter : ((sextets bytes).map base64Char ++ padding (sextets bytes).length).filter (!isAsciiWhitespace ·) =
      (sextets bytes).map base64Char ++ padding (sextets bytes).length := by
    refine filter_eq_self.2 fun c hc => ?_
    obtain hc | hc := mem_append.1 hc
    · obtain ⟨digit, hdigit, rfl⟩ := mem_map.1 hc
      rw [(hspec digit hdigit).2.2.2.2.2.2.1]
      rfl
    · rw [padding] at hc
      rw [eq_of_mem_replicate hc]
      rfl
  have hequals : '=' ∉ (sextets bytes).map base64Char := by
    intro hmem
    obtain ⟨digit, hdigit, heq⟩ := mem_map.1 hmem
    exact (hspec digit hdigit).2.2.2.2.1 heq
  have hpadded : ((sextets bytes).map base64Char ++ padding (sextets bytes).length).length % 4 = 0 := by
    rw [length_append, length_map, padding, length_replicate]
    omega
  have hstrip : stripPadding ((sextets bytes).map base64Char ++ padding (sextets bytes).length) =
      (sextets bytes).map base64Char := stripPadding_append hequals (by omega)
  have hindex : ((sextets bytes).map base64Char).map (fun c => base64Alphabet.idxOf c) = sextets bytes := by
    rw [map_map]
    conv_rhs => rw [← map_id (sextets bytes)]
    exact map_congr_left fun digit hdigit => (hspec digit hdigit).2.2.2.2.2.1
  have hmem : ∀ c ∈ (sextets bytes).map base64Char, c ∈ base64Alphabet := by
    intro c hc
    obtain ⟨digit, hdigit, rfl⟩ := mem_map.1 hc
    exact (hspec digit hdigit).2.2.2.1
  rw [base64urlEncode_eq, base64urlDecode]
  simp only [hutf16, hback]
  rw [atob]
  simp only [hfilter, if_pos hpadded, hstrip, hindex, octets_sextets]
  rw [if_neg]
  rintro (h | h)
  · rw [length_map] at h
    exact hlength h
  · exact h hmem

theorem not_mem_base64urlEncode (bytes : List UInt8) : '.' ∉ base64urlEncode bytes := by
  rw [base64urlEncode_eq]
  intro hmem
  obtain ⟨digit, hdigit, heq⟩ := mem_map.1 hmem
  exact (base64urlChar_spec digit (sextets_lt bytes digit hdigit)).2.1 heq

theorem base64urlEncode_ne_nil {bytes : List UInt8} (h : bytes ≠ []) : base64urlEncode bytes ≠ [] := by
  intro hnil
  have hdecode := base64urlDecode_base64urlEncode bytes
  have hempty : base64urlDecode [] = some [] := by decide
  rw [hnil, hempty] at hdecode
  exact h (Option.some.inj hdecode).symm

end TurboPanel.Secrets
