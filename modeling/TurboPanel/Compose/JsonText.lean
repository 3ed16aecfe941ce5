import Mathlib.Data.Int.Log
import TurboPanel.Compose.Merge
import TurboPanel.Js.IntegerText

/-!
# Reading JSON

`JSON.parse`, which reads a number as the double next to it. A member that comes twice keeps both
values here, and `prop?` gives the later one. What is left out is a string with half of a surrogate
pair, which no text of characters has. A string that `JSON.stringify` wrote is read back, and so is
an object of such strings and of safe integers (`parseJson_object`).
-/

namespace TurboPanel.Compose

open Option Js List

/-! ## Numbers -/

/-- A number as a double: 53 significant bits or as many as are above 2^-1074, and a half goes to
the even one. -/
def doubleOf (q : ℚ) : Number :=
  let unit : ℚ := 2 ^ max (Int.log 2 |q| - 52) (-1074)
  let significand := ⌊|q| / unit⌋
  let rest := |q| / unit - significand
  let up := 1 / 2 < rest ∨ rest = 1 / 2 ∧ significand % 2 = 1
  let rounded := (if up then significand + 1 else significand : ℤ) * unit
  if rounded < 2 ^ 1024 then .finite (if q < 0 then -rounded else rounded)
  else if q < 0 then .negInf else .posInf

/-- The digits at the start of a text, and the rest. -/
def spanDigits (l : Text) : Text × Text := l.span (isDigitOf 10)

/-- The digits after a dot. -/
def readFraction : Text → Option (Text × Text)
  | '.' :: rest =>
    match spanDigits rest with
    | ([], _) => none
    | digits => some digits
  | rest => some ([], rest)

def readExponent (l : Text) : Option (ℤ × Text) :=
  let digitsOf (sign : ℤ) (l : Text) : Option (ℤ × Text) :=
    match spanDigits l with
    | ([], _) => none
    | (digits, rest) => some (sign * ofDigits 10 digits, rest)
  match l with
  | c :: rest =>
    if c = 'e' ∨ c = 'E' then
      match rest with
      | '-' :: rest => digitsOf (-1) rest
      | '+' :: rest => digitsOf 1 rest
      | rest => digitsOf 1 rest
    else some (0, l)
  | [] => some (0, [])

/-- A number without its sign. A zero in front stands alone. -/
def readAmount (l : Text) : Option (ℚ × Text) :=
  match spanDigits l with
  | ([], _) => none
  | (digits, rest) =>
    if digits.head? = some '0' ∧ digits ≠ ['0'] then none
    else
      match readFraction rest with
      | none => none
      | some (fraction, rest) =>
        (readExponent rest).map fun (exponent, rest) =>
          ((ofDigits 10 (digits ++ fraction) : ℚ) * 10 ^ (exponent - fraction.length), rest)

def readNumber : Text → Option (Number × Text)
  | '-' :: rest => (readAmount rest).map fun (q, rest) => (doubleOf (-q), rest)
  | l => (readAmount l).map fun (q, rest) => (doubleOf q, rest)

/-! ## Strings -/

def simpleEscape : Char → Option Char
  | '"' => some '"'
  | '\\' => some '\\'
  | '/' => some '/'
  | 'b' => some '\x08'
  | 'f' => some '\x0c'
  | 'n' => some '\n'
  | 'r' => some '\r'
  | 't' => some '\t'
  | _ => none

/-- The code unit of four hexadecimal digits. -/
def codeUnit (a b c d : Char) : Option ℕ :=
  if [a, b, c, d].all (isDigitOf 16) then some (ofDigits 16 [a, b, c, d]) else none

/-- The rest of a string, up to its closing quotation mark. -/
def readString : ℕ → Text → Option (Text × Text)
  | 0, _ => none
  | fuel + 1, l =>
    match l with
    | [] => none
    | '"' :: rest => some ([], rest)
    | '\\' :: 'u' :: a :: b :: c :: d :: rest =>
      match codeUnit a b c d with
      | none => none
      | some unit =>
        if unit < 0xD800 ∨ 0xE000 ≤ unit then
          (readString fuel rest).map fun (s, rest) => (Char.ofNat unit :: s, rest)
        else
          match rest with
          | '\\' :: 'u' :: a :: b :: c :: d :: rest =>
            match codeUnit a b c d with
            | none => none
            | some low =>
              if unit < 0xDC00 ∧ 0xDC00 ≤ low ∧ low < 0xE000 then
                (readString fuel rest).map fun (s, rest) =>
                  (Char.ofNat (0x10000 + (unit - 0xD800) * 0x400 + (low - 0xDC00)) :: s, rest)
              else none
          | _ => none
    | '\\' :: c :: rest =>
      match simpleEscape c with
      | none => none
      | some ch => (readString fuel rest).map fun (s, rest) => (ch :: s, rest)
    | ch :: rest =>
      if ch.toNat < 32 ∨ ch = '\\' then none
      else (readString fuel rest).map fun (s, rest) => (ch :: s, rest)

/-! ## Values -/

/-- What `JSON.parse` gives. -/
inductive Parsed
  | null
  | bool (b : Bool)
  | num (x : Number)
  | str (s : Text)
  | arr (items : List Parsed)
  | obj (members : List (Text × Parsed))

/-- White space of JSON. -/
def skipBlanks (l : Text) : Text := l.dropWhile fun c => c == ' ' || c == '\t' || c == '\n' || c == '\r'

mutual

/-- A value, and what comes after it. Each call has read a character more than the one that made it.
-/
def readValue : ℕ → Text → Option (Parsed × Text)
  | 0, _ => none
  | fuel + 1, l =>
    match skipBlanks l with
    | '"' :: rest => (readString (rest.length + 1) rest).map fun (s, rest) => (.str s, rest)
    | '\x7b' :: rest =>
      match skipBlanks rest with
      | '\x7d' :: rest => some (.obj [], rest)
      | rest => (readMembers fuel rest).map fun (members, rest) => (.obj members, rest)
    | '[' :: rest =>
      match skipBlanks rest with
      | ']' :: rest => some (.arr [], rest)
      | rest => (readItems fuel rest).map fun (items, rest) => (.arr items, rest)
    | 'n' :: 'u' :: 'l' :: 'l' :: rest => some (.null, rest)
    | 't' :: 'r' :: 'u' :: 'e' :: rest => some (.bool true, rest)
    | 'f' :: 'a' :: 'l' :: 's' :: 'e' :: rest => some (.bool false, rest)
    | l => (readNumber l).map fun (x, rest) => (.num x, rest)

def readItems : ℕ → Text → Option (List Parsed × Text)
  | 0, _ => none
  | fuel + 1, l =>
    match readValue fuel l with
    | none => none
    | some (item, rest) =>
      match skipBlanks rest with
      | ',' :: rest => (readItems fuel rest).map fun (items, rest) => (item :: items, rest)
      | ']' :: rest => some ([item], rest)
      | _ => none

def readMembers : ℕ → Text → Option (List (Text × Parsed) × Text)
  | 0, _ => none
  | fuel + 1, l =>
    match skipBlanks l with
    | '"' :: rest =>
      match readString (rest.length + 1) rest with
      | none => none
      | some (key, rest) =>
        match skipBlanks rest with
        | ':' :: rest =>
          match readValue fuel rest with
          | none => none
          | some (value, rest) =>
            match skipBlanks rest with
            | ',' :: rest => (readMembers fuel rest).map fun (members, rest) => ((key, value) :: members, rest)
            | '\x7d' :: rest => some ([(key, value)], rest)
            | _ => none
        | _ => none
    | _ => none

end

/-- `JSON.parse`. -/
def parseJson (l : Text) : Option Parsed :=
  match readValue (l.length + 1) l with
  | some (value, rest) => if skipBlanks rest = [] then some value else none
  | none => none

/-- A property of what was parsed. -/
def Parsed.prop? : Parsed → Text → Option Parsed
  | .obj members, key => (members.reverse.find? (·.1 = key)).map Prod.snd
  | _, _ => none

/-! ## Reading what was written -/

theorem doubleOf_intCast {n : ℤ} (h : n.natAbs < safeBound) : doubleOf n = .finite n := by
  have habs : |(n : ℚ)| = (n.natAbs : ℚ) := by
    rw [← Int.cast_abs, Int.abs_eq_natAbs, Int.cast_natCast]
  obtain ⟨k, hk⟩ : ∃ k : ℕ, max (Int.log 2 |(n : ℚ)| - 52) (-1074) = -(k : ℤ) := by
    rw [habs, Int.log_natCast]
    have hlog : Nat.log 2 n.natAbs < 53 := by
      rw [safeBound] at h
      exact Nat.log_lt_of_lt_pow' (by omega) h
    exact ⟨(-max ((Nat.log 2 n.natAbs : ℤ) - 52) (-1074)).toNat, by omega⟩
  have hscaled : |(n : ℚ)| / 2 ^ (-(k : ℤ)) = ((|n| * 2 ^ k : ℤ) : ℚ) := by
    rw [zpow_neg, zpow_natCast, div_inv_eq_mul]
    push_cast
    rfl
  have hback : ((|n| * 2 ^ k : ℤ) : ℚ) * 2 ^ (-(k : ℤ)) = |(n : ℚ)| := by
    rw [← hscaled, div_mul_cancel₀ _ (by positivity)]
  have hfinite : |(n : ℚ)| < 2 ^ 1024 := by
    have hlt := lt_two_pow (by rwa [safeBound] at h : n.natAbs < 2 ^ 53) (by omega : 53 ≤ 1024)
    rw [habs]
    exact_mod_cast hlt
  have hsign : (if (n : ℚ) < 0 then -|(n : ℚ)| else |(n : ℚ)|) = n := by
    split_ifs with hneg
    · rw [abs_of_neg hneg, neg_neg]
    · exact abs_of_nonneg (not_lt.1 hneg)
  have hexact : ¬((1 : ℚ) / 2 < 0 ∨ (0 : ℚ) = 1 / 2 ∧ |n| * 2 ^ k % 2 = 1) := by norm_num
  unfold doubleOf
  generalize (2 : ℚ) ^ 1024 = bound at hfinite ⊢
  dsimp only
  simp only [hk, hscaled, Int.floor_intCast, sub_self]
  rw [if_neg hexact, hback, hsign, if_pos hfinite]

theorem codeUnit_hexPair : ∀ n < 32, codeUnit '0' '0' (Nat.digitChar (n / 16)) (Nat.digitChar (n % 16)) = some n := by
  decide +kernel

theorem readString_escapeChar (fuel : ℕ) (ch : Char) (rest : Text) :
    readString (fuel + 1) (escapeChar ch ++ rest) = (readString fuel rest).map fun (s, rest) => (ch :: s, rest) := by
  rw [escapeChar]
  split_ifs with hquote hslash hback hfeed hline hreturn htab hcontrol
  · subst hquote
    rfl
  · subst hslash
    rfl
  · have hch : ch = '\x08' := Char.ext (UInt32.toNat_inj.1 hback)
    subst hch
    rfl
  · have hch : ch = '\x0c' := Char.ext (UInt32.toNat_inj.1 hfeed)
    subst hch
    rfl
  · subst hline
    rfl
  · subst hreturn
    rfl
  · subst htab
    rfl
  · have hunit := codeUnit_hexPair ch.toNat hcontrol
    simp only [hexPair, cons_append, nil_append, readString, hunit]
    rw [if_pos (by omega), Char.ofNat_toNat]
  · rw [singleton_append, readString.eq_def]
    dsimp only
    split
    · rename_i h
      exact absurd h (cons_ne_nil _ _)
    · rename_i h
      exact absurd (List.cons.inj h).1 hquote
    · rename_i h
      exact absurd (List.cons.inj h).1 hslash
    · rename_i h
      exact absurd (List.cons.inj h).1 hslash
    · rename_i first _ _ _ _ h
      cases h
      rw [if_neg (not_or.2 ⟨hcontrol, hslash⟩)]

/-- **A string that was written is read back.** -/
theorem readString_escaped {fuel : ℕ} {s : Text} (hfuel : s.length < fuel) (rest : Text) :
    readString fuel (s.flatMap escapeChar ++ '"' :: rest) = some (s, rest) := by
  induction s generalizing fuel with
  | nil =>
    obtain ⟨fuel, rfl⟩ := Nat.exists_eq_succ_of_ne_zero (Nat.ne_of_gt hfuel)
    rfl
  | cons ch s ih =>
    obtain ⟨fuel, rfl⟩ := Nat.exists_eq_succ_of_ne_zero (Nat.ne_of_gt (Nat.zero_lt_of_lt hfuel))
    rw [flatMap_cons, append_assoc, readString_escapeChar, ih (Nat.lt_of_succ_lt_succ hfuel)]
    rfl

/-- What a value may stand before: nothing of a number. -/
def EndsValue (rest : Text) : Prop :=
  ∀ c ∈ rest.head?, isDigitOf 10 c = false ∧ c ≠ '.' ∧ c ≠ 'e' ∧ c ≠ 'E'

theorem spanDigits_append {digits rest : Text} (hdigits : ∀ c ∈ digits, isDigitOf 10 c = true)
    (hrest : EndsValue rest) : spanDigits (digits ++ rest) = (digits, rest) := by
  rw [spanDigits, span_eq_takeWhile_dropWhile]
  rw [takeWhile_append_of_pos hdigits, dropWhile_append_of_pos hdigits]
  cases rest with
  | nil => simp
  | cons c rest =>
    have hc := (hrest c rfl).1
    simp [hc]

theorem readAmount_append {n : ℕ} {rest : Text} (hrest : EndsValue rest) :
    readAmount (Nat.toDigits 10 n ++ rest) = some ((n : ℚ), rest) := by
  have hdigits : ∀ c ∈ Nat.toDigits 10 n, isDigitOf 10 c = true := fun c hc => isDigitOf_of_mem_decimal hc
  have hfraction : readFraction rest = some ([], rest) := by
    cases rest with
    | nil => rfl
    | cons c rest =>
      have hdot := (hrest c rfl).2.1
      rw [readFraction.eq_def]
      split
      · rename_i h
        exact absurd (List.cons.inj h).1 hdot
      · rfl
  have hexponent : readExponent rest = some (0, rest) := by
    cases rest with
    | nil => rfl
    | cons c rest =>
      have hc := (hrest c rfl).2.2
      simp only [readExponent]
      rw [if_neg (not_or.2 hc)]
  have hzero : ¬((Nat.toDigits 10 n).head? = some '0' ∧ Nat.toDigits 10 n ≠ ['0']) := by
    rintro ⟨hhead, hne⟩
    obtain rfl | hpos := Nat.eq_zero_or_pos n
    · exact hne rfl
    · obtain ⟨first, others, hcons, hfirst⟩ := toDigits_cons hpos
      rw [hcons, head?_cons, Option.some.injEq] at hhead
      exact hfirst hhead
  rw [readAmount, spanDigits_append hdigits hrest]
  split
  · rename_i h
    exact absurd (Prod.mk.inj h).1 (by simp)
  · rename_i h
    cases h
    rw [if_neg hzero, hfraction]
    simp only [hexponent, map_some, append_nil, length_nil]
    rw [ofDigits_toDigits (by decide) (by decide)]
    simp

theorem readNumber_intText {n : ℤ} (hn : n.natAbs < safeBound) {rest : Text} (hrest : EndsValue rest) :
    readNumber (intText n ++ rest) = some (.finite n, rest) := by
  have hdouble := doubleOf_intCast hn
  cases n with
  | ofNat n =>
    rw [intText, readNumber.eq_def]
    split
    · rename_i h
      obtain hnil | ⟨first, others, hcons, -⟩ := (Nat.eq_zero_or_pos n).imp_right toDigits_cons
      · subst hnil
        exact absurd (List.cons.inj h).1 (by decide)
      · have hdash : isDigitOf 10 '-' = true := by
          have hmem : '-' ∈ Nat.toDigits 10 n := by
            rw [hcons, cons_append] at h
            rw [hcons, (List.cons.inj h).1]
            exact mem_cons_self
          exact isDigitOf_of_mem_decimal hmem
        cases hdash
    · rw [readAmount_append hrest]
      simp only [map_some, Int.ofNat_eq_natCast, Int.cast_natCast] at hdouble ⊢
      rw [hdouble]
  | negSucc n =>
    have hneg : (Int.negSucc n : ℚ) = -((n + 1 : ℕ) : ℚ) := by
      rw [Int.cast_negSucc]
    rw [intText, cons_append, readNumber, readAmount_append hrest]
    rw [hneg] at hdouble ⊢
    rw [map_some]
    dsimp only
    rw [hdouble]

/-! ## Flat objects -/

/-- A value is written as a text that is read as another one. -/
def ReadsAs (j : Json) (value : Parsed) : Prop :=
  ∀ fuel rest, EndsValue rest → readValue (fuel + 1) (stringify j ++ rest) = some (value, rest)

theorem skipBlanks_cons {c : Char} (h : (c == ' ' || c == '\t' || c == '\n' || c == '\r') = false) (l : Text) :
    skipBlanks (c :: l) = c :: l := by
  rw [skipBlanks, dropWhile_cons, h, if_neg Bool.false_ne_true]

theorem length_le_escaped (s : Text) : s.length ≤ (s.flatMap escapeChar).length := by
  induction s with
  | nil => exact le_rfl
  | cons ch s ih =>
    have hone : 1 ≤ (escapeChar ch).length := by
      unfold escapeChar
      split_ifs <;> simp
    rw [flatMap_cons, length_append, length_cons]
    omega

theorem readString_quoteText (s : String) (rest : Text) :
    ∃ body, quoteText s ++ rest = '"' :: body ∧ readString (body.length + 1) body = some (s.toList, rest) := by
  refine ⟨s.toList.flatMap escapeChar ++ '"' :: rest, by simp [quoteText], readString_escaped ?_ rest⟩
  have hlength := length_le_escaped s.toList
  rw [length_append]
  omega

theorem readsAs_str (s : String) : ReadsAs (.str s) (.str s.toList) := by
  intro fuel rest _
  obtain ⟨body, hquoted, hread⟩ := readString_quoteText s rest
  have hvalue : readValue (fuel + 1) ('"' :: body) =
      (readString (body.length + 1) body).map fun (s, rest) => (.str s, rest) := rfl
  rw [stringify, hquoted, hvalue, hread, map_some]

theorem readsAs_num {n : ℤ} (hn : n.natAbs < safeBound) :
    ReadsAs (.num (String.ofList (intText n))) (.num (.finite n)) := by
  intro fuel rest hrest
  have hfinite : isFiniteText (String.ofList (intText n)) = true := by
    have hletter : ∀ c ∈ intText n, c ≠ 'N' ∧ c ≠ 'I' := by
      intro c hc
      refine ⟨?_, ?_⟩ <;> rintro rfl
      · exact absurd (mem_intText hc) (by decide)
      · exact absurd (mem_intText hc) (by decide)
    rw [isFiniteText, decide_eq_true_eq]
    intro hmem
    simp only [mem_cons, not_mem_nil, or_false] at hmem
    rcases hmem with h | h | h
    · have hlist := congrArg String.toList h
      rw [String.toList_ofList] at hlist
      exact (hletter 'N' (by rw [hlist]; decide)).1 rfl
    · have hlist := congrArg String.toList h
      rw [String.toList_ofList] at hlist
      exact (hletter 'I' (by rw [hlist]; decide)).2 rfl
    · have hlist := congrArg String.toList h
      rw [String.toList_ofList] at hlist
      exact (hletter 'I' (by rw [hlist]; decide)).2 rfl
  obtain ⟨first, others, hcons⟩ : ∃ first others, intText n = first :: others := by
    cases n with
    | ofNat n =>
      cases h : Nat.toDigits 10 n with
      | nil => exact absurd h (by simp)
      | cons first others => exact ⟨first, others, h⟩
    | negSucc n => exact ⟨'-', _, rfl⟩
  have hfirst : first = '-' ∨ isDigitOf 10 first = true := mem_intText (by rw [hcons]; exact mem_cons_self)
  have hblank : (first == ' ' || first == '\t' || first == '\n' || first == '\r') = false := by
    by_contra hne
    simp only [Bool.not_eq_false, Bool.or_eq_true, beq_iff_eq] at hne
    rcases hne with ((rfl | rfl) | rfl) | rfl <;> exact absurd hfirst (by decide)
  have hnumber := readNumber_intText hn hrest
  rw [stringify, if_pos hfinite, String.toList_ofList]
  rw [hcons, cons_append] at hnumber ⊢
  rw [readValue, skipBlanks_cons hblank]
  split
  · rename_i h
    rw [(List.cons.inj h).1] at hfirst
    exact absurd hfirst (by decide)
  · rename_i h
    rw [(List.cons.inj h).1] at hfirst
    exact absurd hfirst (by decide)
  · rename_i h
    rw [(List.cons.inj h).1] at hfirst
    exact absurd hfirst (by decide)
  · rename_i h
    rw [(List.cons.inj h).1] at hfirst
    exact absurd hfirst (by decide)
  · rename_i h
    rw [(List.cons.inj h).1] at hfirst
    exact absurd hfirst (by decide)
  · rename_i h
    rw [(List.cons.inj h).1] at hfirst
    exact absurd hfirst (by decide)
  · rw [hnumber, map_some]

theorem endsValue_comma (rest : Text) : EndsValue (',' :: rest) := by
  rintro c ⟨rfl⟩
  decide

theorem endsValue_close (rest : Text) : EndsValue ('\x7d' :: rest) := by
  rintro c ⟨rfl⟩
  decide

theorem readMembers_entry {j : Json} {value : Parsed} (hj : ReadsAs j value) (fuel : ℕ) (key : String) {rest : Text}
    (hrest : EndsValue rest) :
    readMembers (fuel + 2) (quoteText key ++ ':' :: stringify j ++ rest) =
      match skipBlanks rest with
      | ',' :: rest =>
        (readMembers (fuel + 1) rest).map fun (members, rest) => ((key.toList, value) :: members, rest)
      | '\x7d' :: rest => some ([(key.toList, value)], rest)
      | _ => none := by
  obtain ⟨body, hquoted, hread⟩ := readString_quoteText key (':' :: (stringify j ++ rest))
  have hmember : readMembers (fuel + 2) ('"' :: body) =
      match readString (body.length + 1) body with
      | none => none
      | some (key, rest) =>
        match skipBlanks rest with
        | ':' :: rest =>
          match readValue (fuel + 1) rest with
          | none => none
          | some (value, rest) =>
            match skipBlanks rest with
            | ',' :: rest =>
              (readMembers (fuel + 1) rest).map fun (members, rest) => ((key, value) :: members, rest)
            | '\x7d' :: rest => some ([(key, value)], rest)
            | _ => none
        | _ => none := rfl
  rw [append_assoc, cons_append, hquoted, hmember, hread]
  show (match readValue (fuel + 1) (stringify j ++ rest) with
    | none => none
    | some (value, rest) =>
      match skipBlanks rest with
      | ',' :: rest =>
        (readMembers (fuel + 1) rest).map fun (members, rest) => ((key.toList, value) :: members, rest)
      | '\x7d' :: rest => some ([(key.toList, value)], rest)
      | _ => none : Option (List (Text × Parsed) × Text)) = _
  rw [hj fuel rest hrest]

theorem readMembers_entries {entries : Fields} {values : List Parsed}
    (h : List.Forall₂ (fun entry value => ReadsAs entry.2 value) entries values) (hne : entries ≠ []) {fuel : ℕ}
    (hfuel : entries.length < fuel) (rest : Text) :
    readMembers fuel ([','].intercalate (stringifyEntries entries) ++ '\x7d' :: rest) =
      some ((entries.map fun entry => entry.1.toList).zip values, rest) := by
  induction h generalizing fuel with
  | nil => exact absurd rfl hne
  | cons hfirst hothers ih =>
    rename_i entry value entries values
    obtain ⟨fuel, rfl⟩ : ∃ k, fuel = k + 2 := ⟨fuel - 2, by rw [length_cons] at hfuel; omega⟩
    obtain ⟨key, j⟩ := entry
    cases hothers with
    | nil =>
      rw [stringifyEntries, stringifyEntries, intercalate_singleton,
        readMembers_entry hfirst fuel key (endsValue_close rest), skipBlanks_cons (by decide)]
      rfl
    | cons hsecond hlater =>
      rename_i entry' value' entries values
      have htail : stringifyEntries (entry' :: entries) ≠ [] := cons_ne_nil _ _
      rw [stringifyEntries, intercalate_cons_of_ne_nil htail, append_assoc, append_assoc,
        singleton_append, readMembers_entry hfirst fuel key (endsValue_comma _), skipBlanks_cons (by decide)]
      have hfuel' : (entry' :: entries).length < fuel + 1 := by
        simp only [length_cons] at hfuel ⊢
        omega
      have hlater := ih (cons_ne_nil _ _) hfuel'
      exact congrArg (Option.map fun (members, rest) => ((key.toList, value) :: members, rest)) hlater

theorem intercalate_stringifyEntries {entries : Fields} (hne : entries ≠ []) :
    ∃ body, [','].intercalate (stringifyEntries entries) = '"' :: body ∧ entries.length ≤ body.length + 1 := by
  induction entries with
  | nil => exact absurd rfl hne
  | cons entry entries ih =>
    obtain ⟨key, j⟩ := entry
    cases entries with
    | nil =>
      rw [stringifyEntries, stringifyEntries, intercalate_singleton, quoteText]
      exact ⟨_, rfl, by simp⟩
    | cons entry' entries =>
      obtain ⟨body, hbody, hlength⟩ := ih (cons_ne_nil _ _)
      have htail : stringifyEntries (entry' :: entries) ≠ [] := cons_ne_nil _ _
      rw [stringifyEntries, intercalate_cons_of_ne_nil htail, hbody, quoteText]
      refine ⟨_, rfl, ?_⟩
      simp only [length_cons, append_eq, length_append] at hlength ⊢
      omega

/-- **An object of strings and safe integers is read back.** -/
theorem parseJson_object {entries : Fields} {values : List Parsed}
    (h : List.Forall₂ (fun entry value => ReadsAs entry.2 value) entries values) (hne : entries ≠ []) :
    parseJson (stringify (.obj entries)) = some (.obj ((entries.map fun entry => entry.1.toList).zip values)) := by
  obtain ⟨body, hbody, hlength⟩ := intercalate_stringifyEntries hne
  have htext : stringify (.obj entries) = '\x7b' :: '"' :: (body ++ ['\x7d']) := by
    rw [stringify, hbody]
    rfl
  have hmembers : readMembers ((body ++ ['\x7d']).length + 2) ('"' :: (body ++ ['\x7d'])) =
      some ((entries.map fun entry => entry.1.toList).zip values, []) := by
    rw [← cons_append, ← hbody]
    exact readMembers_entries h hne (by rw [length_append]; omega) []
  have hvalue : readValue ((body ++ ['\x7d']).length + 2 + 1) ('\x7b' :: '"' :: (body ++ ['\x7d'])) =
      (readMembers ((body ++ ['\x7d']).length + 2) ('"' :: (body ++ ['\x7d']))).map
        fun (members, rest) => (.obj members, rest) := rfl
  rw [parseJson, htext]
  simp only [length_cons, hvalue, hmembers, map_some]
  rfl

end TurboPanel.Compose
