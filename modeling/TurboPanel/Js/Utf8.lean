import TurboPanel.Js.Text

/-!
# Text as bytes

`TextEncoder` and `TextDecoder`. The decoder is the one of the encoding standard: bytes that are no
character become replacement characters, and a byte order mark in front is dropped. What was encoded
is decoded to the same text (`textDecode_textEncode`).
-/

namespace TurboPanel.Js

open List

/-- `new TextEncoder().encode(text)`. -/
def textEncode (text : Text) : List UInt8 := text.flatMap String.utf8EncodeChar

/-! ## The decoder -/

/-- A character of which bytes are missing: how many, what is read of it, and the range of its next
byte. -/
structure Partial where
  needed : ℕ
  point : ℕ
  lower : ℕ
  upper : ℕ

inductive Begun
  | char (c : Char)
  | more (p : Partial)
  | malformed

/-- What the first byte of a character says. -/
def beginChar (b : ℕ) : Begun :=
  if b ≤ 0x7F then .char (Char.ofNat b)
  else if 0xC2 ≤ b ∧ b ≤ 0xDF then .more ⟨1, b - 0xC0, 0x80, 0xBF⟩
  else if 0xE0 ≤ b ∧ b ≤ 0xEF then
    .more ⟨2, b - 0xE0, if b = 0xE0 then 0xA0 else 0x80, if b = 0xED then 0x9F else 0xBF⟩
  else if 0xF0 ≤ b ∧ b ≤ 0xF4 then
    .more ⟨3, b - 0xF0, if b = 0xF0 then 0x90 else 0x80, if b = 0xF4 then 0x8F else 0xBF⟩
  else .malformed

/-- The characters of bytes. A byte that does not go on with the character before it is read anew.
-/
def decodeChars : Option Partial → List UInt8 → Text
  | none, [] => []
  | some _, [] => ['\uFFFD']
  | none, b :: rest =>
    match beginChar b.toNat with
    | .char c => c :: decodeChars none rest
    | .more p => decodeChars (some p) rest
    | .malformed => '\uFFFD' :: decodeChars none rest
  | some p, b :: rest =>
    if p.lower ≤ b.toNat ∧ b.toNat ≤ p.upper then
      let point := p.point * 64 + b.toNat % 64
      if p.needed = 1 then Char.ofNat point :: decodeChars none rest
      else decodeChars (some ⟨p.needed - 1, point, 0x80, 0xBF⟩) rest
    else
      match beginChar b.toNat with
      | .char c => '\uFFFD' :: c :: decodeChars none rest
      | .more p => '\uFFFD' :: decodeChars (some p) rest
      | .malformed => '\uFFFD' :: '\uFFFD' :: decodeChars none rest

/-- `new TextDecoder().decode(bytes)`. -/
def textDecode (bytes : List UInt8) : Text :=
  match decodeChars none bytes with
  | '\uFEFF' :: rest => rest
  | text => text

/-! ## Round trip -/

variable {p : Partial} {b : UInt8}

theorem decodeChars_more (hlower : p.lower ≤ b.toNat) (hupper : b.toNat ≤ p.upper)
    (hneeded : p.needed ≠ 1) (rest : List UInt8) : decodeChars (some p) (b :: rest) =
      decodeChars (some ⟨p.needed - 1, p.point * 64 + b.toNat % 64, 0x80, 0xBF⟩) rest := by
  rw [decodeChars, if_pos ⟨hlower, hupper⟩]
  exact if_neg hneeded

theorem decodeChars_last (hlower : p.lower ≤ b.toNat) (hupper : b.toNat ≤ p.upper)
    (hneeded : p.needed = 1) (rest : List UInt8) :
    decodeChars (some p) (b :: rest) = Char.ofNat (p.point * 64 + b.toNat % 64) :: decodeChars none rest := by
  rw [decodeChars, if_pos ⟨hlower, hupper⟩]
  exact if_pos hneeded

theorem decodeChars_begin (h : beginChar b.toNat = .more p) (rest : List UInt8) :
    decodeChars none (b :: rest) = decodeChars (some p) rest := by
  rw [decodeChars, h]

theorem toNat_ofNat_byte {n : ℕ} (h : n < 256) : (UInt8.ofNat n).toNat = n := by
  rw [UInt8.toNat_ofNat']
  exact Nat.mod_eq_of_lt h

theorem decodeChars_utf8EncodeChar (c : Char) (rest : List UInt8) :
    decodeChars none (String.utf8EncodeChar c ++ rest) = c :: decodeChars none rest := by
  have hvalid : c.toNat < 0xD800 ∨ 0xDFFF < c.toNat ∧ c.toNat < 0x110000 := c.valid
  have hback : Char.ofNat c.toNat = c := Char.ofNat_toNat c
  have hval : c.val.toNat = c.toNat := rfl
  unfold String.utf8EncodeChar
  rw [hval]
  generalize c.toNat = v at hvalid hback
  dsimp only
  split_ifs with hone htwo hthree
  · rw [singleton_append, decodeChars, toNat_ofNat_byte (by omega), beginChar, if_pos hone, hback]
  · have hfirst := toNat_ofNat_byte (show v / 64 % 0x20 + 0xC0 < 256 by omega)
    have hsecond := toNat_ofNat_byte (show v % 0x40 + 0x80 < 256 by omega)
    have hbegin : beginChar (UInt8.ofNat (v / 64 % 0x20 + 0xC0)).toNat = .more ⟨1, v / 64, 0x80, 0xBF⟩ := by
      rw [hfirst, beginChar, if_neg (by omega), if_pos (by omega),
        show v / 64 % 0x20 + 0xC0 - 0xC0 = v / 64 by omega]
    rw [cons_append, singleton_append, decodeChars_begin hbegin,
      decodeChars_last (by dsimp only; omega) (by dsimp only; omega) rfl, hsecond]
    dsimp only
    rw [show v / 64 * 64 + (v % 0x40 + 0x80) % 64 = v by omega, hback]
  · have hfirst := toNat_ofNat_byte (show v / 4096 % 0x10 + 0xE0 < 256 by omega)
    have hsecond := toNat_ofNat_byte (show v / 64 % 0x40 + 0x80 < 256 by omega)
    have hthird := toNat_ofNat_byte (show v % 0x40 + 0x80 < 256 by omega)
    have hbegin : beginChar (UInt8.ofNat (v / 4096 % 0x10 + 0xE0)).toNat =
        .more ⟨2, v / 4096, if v / 4096 = 0 then 0xA0 else 0x80, if v / 4096 = 13 then 0x9F else 0xBF⟩ := by
      have hzero : v / 4096 % 0x10 + 0xE0 = 0xE0 ↔ v / 4096 = 0 := by omega
      have hsurrogate : v / 4096 % 0x10 + 0xE0 = 0xED ↔ v / 4096 = 13 := by omega
      rw [hfirst, beginChar, if_neg (by omega), if_neg (by omega), if_pos (by omega),
        show v / 4096 % 0x10 + 0xE0 - 0xE0 = v / 4096 by omega]
      simp only [hzero, hsurrogate]
    rw [cons_append, cons_append, singleton_append, decodeChars_begin hbegin,
      decodeChars_more (by dsimp only; split_ifs <;> omega) (by dsimp only; split_ifs <;> omega) (by dsimp only; omega),
      decodeChars_last (by dsimp only; omega) (by dsimp only; omega) rfl, hsecond, hthird]
    dsimp only
    rw [show (v / 4096 * 64 + (v / 64 % 0x40 + 0x80) % 64) * 64 + (v % 0x40 + 0x80) % 64 = v by omega, hback]
  · have hfirst := toNat_ofNat_byte (show v / 262144 % 0x08 + 0xF0 < 256 by omega)
    have hsecond := toNat_ofNat_byte (show v / 4096 % 0x40 + 0x80 < 256 by omega)
    have hthird := toNat_ofNat_byte (show v / 64 % 0x40 + 0x80 < 256 by omega)
    have hfourth := toNat_ofNat_byte (show v % 0x40 + 0x80 < 256 by omega)
    have hbegin : beginChar (UInt8.ofNat (v / 262144 % 0x08 + 0xF0)).toNat =
        .more ⟨3, v / 262144, if v / 262144 = 0 then 0x90 else 0x80, if v / 262144 = 4 then 0x8F else 0xBF⟩ := by
      have hzero : v / 262144 % 0x08 + 0xF0 = 0xF0 ↔ v / 262144 = 0 := by omega
      have hlast : v / 262144 % 0x08 + 0xF0 = 0xF4 ↔ v / 262144 = 4 := by omega
      rw [hfirst, beginChar, if_neg (by omega), if_neg (by omega), if_neg (by omega), if_pos (by omega),
        show v / 262144 % 0x08 + 0xF0 - 0xF0 = v / 262144 by omega]
      simp only [hzero, hlast]
    rw [cons_append, cons_append, cons_append, singleton_append, decodeChars_begin hbegin,
      decodeChars_more (by dsimp only; split_ifs <;> omega) (by dsimp only; split_ifs <;> omega) (by dsimp only; omega),
      decodeChars_more (by dsimp only; omega) (by dsimp only; omega) (by dsimp only; omega),
      decodeChars_last (by dsimp only; omega) (by dsimp only; omega) rfl, hsecond, hthird, hfourth]
    dsimp only
    rw [show ((v / 262144 * 64 + (v / 4096 % 0x40 + 0x80) % 64) * 64 + (v / 64 % 0x40 + 0x80) % 64) * 64 +
      (v % 0x40 + 0x80) % 64 = v by omega, hback]

theorem decodeChars_textEncode (text : Text) : decodeChars none (textEncode text) = text := by
  induction text with
  | nil => rfl
  | cons c text ih =>
    rw [textEncode] at ih ⊢
    rw [flatMap_cons, decodeChars_utf8EncodeChar, ih]

/-- **What was encoded is decoded to the same text**, where it does not begin with a byte order
mark. -/
theorem textDecode_textEncode {text : Text} (h : text.head? ≠ some '\uFEFF') : textDecode (textEncode text) = text := by
  rw [textDecode, decodeChars_textEncode]
  split
  · exact absurd rfl h
  · rfl

theorem textEncode_injective : Function.Injective textEncode := by
  intro a b h
  rw [← decodeChars_textEncode a, ← decodeChars_textEncode b, h]

end TurboPanel.Js
