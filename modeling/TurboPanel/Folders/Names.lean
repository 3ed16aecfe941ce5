import TurboPanel.Js.Text

/-!
# Folder names

The model of the folder names in `src/contracts/directory-names.ts` and
`src/features/folders/names.ts`: the rule, the name made from a domain or a label, and the suffix of
a name that is taken. The Unicode tables and the URL parser of the runtime are a parameter (`Host`).
The names that the rule accepts are those of `isValidFolderName_iff`.
-/

namespace TurboPanel.Folders

open Js List

/-! ## The rule -/

def isLowerAlnum (c : Char) : Bool := decide ('a' ≤ c ∧ c ≤ 'z') || decide ('0' ≤ c ∧ c ≤ '9')

def isSeparator (c : Char) : Bool := c = '.' || c = '-' || c = '_'

def isFolderChar (c : Char) : Bool := isLowerAlnum c || isSeparator c

def folderNameMaxLength : ℕ := 63

/-- `FOLDER_NAME_RE`: `/^[a-z0-9]([a-z0-9._-]{0,61}[a-z0-9])?$/`. -/
def folderNameRe : Text → Bool
  | [] => false
  | first :: rest =>
    isLowerAlnum first &&
      (rest.isEmpty || decide (rest.dropLast.length ≤ 61) && rest.dropLast.all isFolderChar &&
        rest.getLast?.any isLowerAlnum)

/-- A service or volume folder name: the rule, and never `..` inside it. -/
def isValidFolderName (value : Text) : Bool := folderNameRe value && !decide (['.', '.'] <:+: value)

def isLowerHex (c : Char) : Bool := decide ('0' ≤ c ∧ c ≤ '9') || decide ('a' ≤ c ∧ c ≤ 'f')

/-- `PATH_ID_RE`, a lowercase canonical UUID. -/
def isPathId (value : Text) : Bool :=
  let parts := value.splitOn '-'
  parts.map List.length = [8, 4, 4, 4, 12] && parts.all fun part => part.all isLowerHex

/-! ## SHA-256 -/

def sha256K : List UInt32 :=
  [0x428a2f98, 0x71374491, 0xb5c0fbcf, 0xe9b5dba5, 0x3956c25b, 0x59f111f1, 0x923f82a4, 0xab1c5ed5,
   0xd807aa98, 0x12835b01, 0x243185be, 0x550c7dc3, 0x72be5d74, 0x80deb1fe, 0x9bdc06a7, 0xc19bf174,
   0xe49b69c1, 0xefbe4786, 0x0fc19dc6, 0x240ca1cc, 0x2de92c6f, 0x4a7484aa, 0x5cb0a9dc, 0x76f988da,
   0x983e5152, 0xa831c66d, 0xb00327c8, 0xbf597fc7, 0xc6e00bf3, 0xd5a79147, 0x06ca6351, 0x14292967,
   0x27b70a85, 0x2e1b2138, 0x4d2c6dfc, 0x53380d13, 0x650a7354, 0x766a0abb, 0x81c2c92e, 0x92722c85,
   0xa2bfe8a1, 0xa81a664b, 0xc24b8b70, 0xc76c51a3, 0xd192e819, 0xd6990624, 0xf40e3585, 0x106aa070,
   0x19a4c116, 0x1e376c08, 0x2748774c, 0x34b0bcb5, 0x391c0cb3, 0x4ed8aa4a, 0x5b9cca4f, 0x682e6ff3,
   0x748f82ee, 0x78a5636f, 0x84c87814, 0x8cc70208, 0x90befffa, 0xa4506ceb, 0xbef9a3f7, 0xc67178f2]

def rotateRight (value bits : UInt32) : UInt32 := (value >>> bits) ||| (value <<< (32 - bits))

structure HashState where
  (a b c d e f g hh : UInt32)

def HashState.add (s t : HashState) : HashState :=
  ⟨s.a + t.a, s.b + t.b, s.c + t.c, s.d + t.d, s.e + t.e, s.f + t.f, s.g + t.g, s.hh + t.hh⟩

def HashState.words (s : HashState) : List UInt32 := [s.a, s.b, s.c, s.d, s.e, s.f, s.g, s.hh]

/-- The 64 words of a block of 16. -/
def sha256Schedule (block : List UInt32) : List UInt32 :=
  (List.range' 16 48).foldl
    (fun w i =>
      let at' := fun k => w.getD (i - k) 0
      let s0 := rotateRight (at' 15) 7 ^^^ rotateRight (at' 15) 18 ^^^ (at' 15 >>> 3)
      let s1 := rotateRight (at' 2) 17 ^^^ rotateRight (at' 2) 19 ^^^ (at' 2 >>> 10)
      w ++ [at' 16 + s0 + at' 7 + s1])
    block

def sha256Round (s : HashState) (kw : UInt32 × UInt32) : HashState :=
  let s1 := rotateRight s.e 6 ^^^ rotateRight s.e 11 ^^^ rotateRight s.e 25
  let t1 := s.hh + s1 + ((s.e &&& s.f) ^^^ (~~~s.e &&& s.g)) + kw.1 + kw.2
  let s0 := rotateRight s.a 2 ^^^ rotateRight s.a 13 ^^^ rotateRight s.a 22
  let t2 := s0 + ((s.a &&& s.b) ^^^ (s.a &&& s.c) ^^^ (s.b &&& s.c))
  ⟨t1 + t2, s.a, s.b, s.c, s.d + t1, s.e, s.f, s.g⟩

def sha256Block (h : HashState) (block : List UInt32) : HashState :=
  h.add ((sha256K.zip (sha256Schedule block)).foldl sha256Round h)

/-- The words of the padded bytes, most significant byte first. -/
def sha256Words (data : List UInt8) : List UInt32 :=
  let length := (data.length + 9 + 63) / 64 * 64
  let bits := data.length * 8
  let padded := data ++ [0x80] ++ List.replicate (length - data.length - 9) 0 ++
    (List.range 8).map fun i => UInt8.ofNat (bits / 256 ^ (7 - i))
  (padded.toChunks 4).map fun bytes => bytes.foldl (fun word byte => word * 256 + byte.toUInt32) 0

/-- A word in hexadecimal, padded to eight digits. -/
def hexWord (word : UInt32) : Text := (List.range 8).map fun i => Nat.digitChar (word.toNat / 16 ^ (7 - i) % 16)

def sha256Hex (text : Text) : Text :=
  let h : HashState :=
    ⟨0x6a09e667, 0xbb67ae85, 0x3c6ef372, 0xa54ff53a, 0x510e527f, 0x9b05688c, 0x1f83d9ab, 0x5be0cd19⟩
  (((sha256Words (String.ofList text).toUTF8.toList).toChunks 16).foldl sha256Block h).words.flatMap hexWord

/-! ## Default names -/

/-- What the runtime answers: the Unicode normal forms, the marks, and the host name of `http://`
and a text. -/
structure Host where
  normalizeNFC : Text → Text
  normalizeNFKD : Text → Text
  isMark : Char → Bool
  hostname : Text → Option Text

def defaultNameCutLength : ℕ := 54
def defaultNameHashLength : ℕ := 8
def collisionSuffixMin : ℕ := 2
def collisionSuffixMax : ℕ := 99

def dropFinalDot (text : Text) : Text := if text.getLast? = some '.' then text.dropLast else text

def domainToAscii (host : Host) (input : Text) : Option Text :=
  let text := dropFinalDot (host.normalizeNFC (trim input))
  let wildcard := ['*', '.'].isPrefixOf text
  let rest := if wildcard then text.drop 2 else text
  let labels := rest.splitOn '.'
  if rest.isEmpty || rest.any fun c => isSpace c || ['/', '?', '#', '@', ':', '\\', '%', '*', '[', ']'].contains c then
    none
  else if labels.any List.isEmpty then none
  else if isDecimal (labels.getLastD []) then none
  else
    match host.hostname rest with
    | none => none
    | some name =>
      let name := dropFinalDot name
      let labels := name.splitOn '.'
      if labels.any List.isEmpty then none
      else if name.isEmpty || decide (253 < utf16Length name) || labels.length = 4 && labels.all isDecimal then none
      else some ((if wildcard then ['*', '.'] else []) ++ toLowerCase name)

/-- `.`, `-` and `_` are cut off both ends. -/
def trimEdgeSeparators (value : Text) : Text :=
  ((value.dropWhile isSeparator).reverse.dropWhile isSeparator).reverse

/-- `replace(/\.{2,}/g, '.')` -/
def collapseDots : Text → Text
  | '.' :: '.' :: rest => collapseDots ('.' :: rest)
  | c :: rest => c :: collapseDots rest
  | [] => []

/-- The default folder name of a web hosting service, from its domain. -/
def defaultFolderNameFromDomain (host : Host) (input : Text) : Option Text :=
  (domainToAscii host input).map fun ascii =>
    let named := if ['*', '.'].isPrefixOf ascii then "wildcard.".toList ++ ascii.drop 2 else ascii
    if isValidFolderName named then named
    else
      let cleaned := collapseDots (named.filter isFolderChar)
      let base := trimEdgeSeparators (cleaned.take defaultNameCutLength)
      let hash := (sha256Hex ascii).take defaultNameHashLength
      if base.isEmpty then hash else base ++ '-' :: hash

/-- `replace(/[^a-z0-9._]+/g, '-')` -/
def hyphenRuns : Text → Text
  | [] => []
  | c :: rest =>
    if isFolderChar c && c ≠ '-' then c :: hyphenRuns rest
    else
      match hyphenRuns rest with
      | '-' :: more => '-' :: more
      | more => '-' :: more

/-- The default folder name from a display name or a compose key. -/
def folderNameFromLabel (host : Host) (label : Option Text) : Option Text :=
  let folded := collapseDots (hyphenRuns (toLowerCase
    ((host.normalizeNFKD (label.getD [])).filter fun c => !host.isMark c)))
  let cut := trimEdgeSeparators (folded.take folderNameMaxLength)
  if isValidFolderName cut then some cut else none

/-- The name of a new asset when none was typed. -/
def defaultFolderBase (host : Host) (domain label : Option Text) (assetId : Text) : Text :=
  ((truthy domain).bind (defaultFolderNameFromDomain host)).getD ((folderNameFromLabel host label).getD assetId)

/-- A base with `-n` after it, cut so that the whole name stays valid; `n` is from 2 to 99. -/
def withCollisionSuffix (base : Text) (n : ℕ) : Text :=
  let suffix := '-' :: Nat.toDigits 10 n
  let room := folderNameMaxLength - suffix.length
  let cut := if room < base.length then trimEdgeSeparators (base.take room) else base
  cut ++ suffix

/-- The first free name: the base, then `-2` up to `-99`. -/
def firstFreeFolderName (base : Text) (isTaken : Text → Bool) : Option Text :=
  if !isTaken base then some base
  else ((List.range' collisionSuffixMin (collisionSuffixMax - collisionSuffixMin + 1)).map
      (withCollisionSuffix base)).find?
    fun candidate => !isTaken candidate

/-! ## Valid names -/

/-- What the rule asks of a name. -/
structure ValidName (value : Text) : Prop where
  first : ∃ c, value.head? = some c ∧ isLowerAlnum c = true
  last : ∃ c, value.getLast? = some c ∧ isLowerAlnum c = true
  chars : ∀ c ∈ value, isFolderChar c = true
  length : value.length ≤ 63
  dots : ¬ ['.', '.'] <:+: value

variable {c : Char} {n : ℕ} (value : Text)

theorem isFolderChar_of_isLowerAlnum (h : isLowerAlnum c = true) : isFolderChar c = true := by
  rw [isFolderChar, h, Bool.true_or]

theorem isSeparator_of_isLowerAlnum (h : isLowerAlnum c = true) : isSeparator c = false := by
  by_contra hseparator
  simp only [isSeparator, Bool.not_eq_false, Bool.or_eq_true, decide_eq_true_eq] at hseparator
  rcases hseparator with (rfl | rfl) | rfl <;> cases h

theorem isLowerAlnum_of_isFolderChar (h : isFolderChar c = true) (hseparator : isSeparator c = false) :
    isLowerAlnum c = true := by
  rwa [isFolderChar, hseparator, Bool.or_false] at h

theorem isValidFolderName_iff {value : Text} : isValidFolderName value = true ↔ ValidName value := by
  rw [isValidFolderName, Bool.and_eq_true, Bool.not_eq_true', decide_eq_false_iff_not]
  constructor
  · rintro ⟨hrule, hdots⟩
    cases value with
    | nil => exact nomatch hrule
    | cons first rest =>
      rw [folderNameRe, Bool.and_eq_true, Bool.or_eq_true] at hrule
      obtain ⟨hfirst, hrest⟩ := hrule
      obtain rfl | ⟨front, last, rfl⟩ := eq_nil_or_concat rest
      · exact ⟨⟨first, rfl, hfirst⟩, ⟨first, rfl, hfirst⟩,
          fun c hc => mem_singleton.1 hc ▸ isFolderChar_of_isLowerAlnum hfirst, by simp, hdots⟩
      · simp only [concat_eq_append, dropLast_concat, getLast?_concat, Bool.and_eq_true,
          decide_eq_true_eq, all_eq_true, Option.any_some] at hrest
        have hrest := hrest.resolve_left (by simp)
        refine ⟨⟨first, rfl, hfirst⟩, ⟨last, ?_, hrest.2⟩, fun c hc => ?_, ?_, hdots⟩
        · rw [concat_eq_append, ← cons_append, getLast?_concat]
        · simp only [concat_eq_append, mem_cons, mem_append, not_mem_nil, or_false] at hc
          obtain rfl | hc | rfl := hc
          · exact isFolderChar_of_isLowerAlnum hfirst
          · exact hrest.1.2 c hc
          · exact isFolderChar_of_isLowerAlnum hrest.2
        · simp only [concat_eq_append, length_cons, length_append, length_nil]
          omega
  · rintro ⟨⟨first, hhead, hfirst⟩, ⟨last, hgetLast, hlast⟩, hchars, hlength, hdots⟩
    refine ⟨?_, hdots⟩
    cases value with
    | nil => exact nomatch hhead
    | cons first' rest =>
      cases hhead
      rw [folderNameRe, hfirst, Bool.true_and, Bool.or_eq_true]
      obtain rfl | ⟨front, last', rfl⟩ := eq_nil_or_concat rest
      · exact .inl rfl
      · have hlast' : last' = last := by
          rw [concat_eq_append, ← cons_append, getLast?_concat] at hgetLast
          exact Option.some.inj hgetLast
        refine .inr ?_
        simp only [concat_eq_append, dropLast_concat, getLast?_concat, Bool.and_eq_true,
          decide_eq_true_eq, all_eq_true, Option.any_some, hlast', hlast, and_true]
        refine ⟨?_, fun c hc => hchars c (by simp [concat_eq_append, hc])⟩
        simp only [concat_eq_append, length_cons, length_append, length_nil] at hlength
        omega

/-! ## Cuts -/

theorem head?_trimEdgeSeparators : ∀ c ∈ (trimEdgeSeparators value).head?, isSeparator c = false := by
  intro c hc
  rw [trimEdgeSeparators, head?_reverse] at hc
  have hlast := getLast?_dropWhile_of_mem hc
  rw [getLast?_reverse] at hlast
  exact head?_dropWhile_not isSeparator value c hlast

theorem getLast?_trimEdgeSeparators :
    ∀ c ∈ (trimEdgeSeparators value).getLast?, isSeparator c = false := by
  intro c hc
  rw [trimEdgeSeparators, getLast?_reverse] at hc
  exact head?_dropWhile_not isSeparator _ c hc

theorem trimEdgeSeparators_isInfix : trimEdgeSeparators value <:+: value := by
  have hsuffix := dropWhile_suffix isSeparator (l := (value.dropWhile isSeparator).reverse)
  have hpre : trimEdgeSeparators value <+: value.dropWhile isSeparator := by
    rw [trimEdgeSeparators, ← reverse_suffix, reverse_reverse]
    exact hsuffix
  exact hpre.isInfix.trans (dropWhile_suffix isSeparator).isInfix

theorem trimEdgeSeparators_isPrefix {value : Text} (h : ∀ c ∈ value.head?, isSeparator c = false) :
    trimEdgeSeparators value <+: value := by
  have hstart : value.dropWhile isSeparator = value := dropWhile_eq_self_of_head h
  rw [trimEdgeSeparators, hstart, ← reverse_suffix, reverse_reverse]
  exact dropWhile_suffix isSeparator

theorem trimEdgeSeparators_ne_nil {value : Text} (hmem : c ∈ value) (hc : isSeparator c = false) :
    trimEdgeSeparators value ≠ [] := by
  intro hnil
  rw [trimEdgeSeparators, reverse_eq_nil_iff, dropWhile_eq_nil_iff] at hnil
  have hstart : ∀ d ∈ value.dropWhile isSeparator, isSeparator d = true := fun d hd =>
    hnil d (mem_reverse.2 hd)
  cases hdrop : value.dropWhile isSeparator with
  | nil =>
    rw [dropWhile_eq_nil_iff.1 hdrop c hmem] at hc
    exact nomatch hc
  | cons d rest =>
    have hd := head?_dropWhile_not isSeparator value d (by rw [hdrop]; rfl)
    rw [hstart d (by rw [hdrop]; exact mem_cons_self)] at hd
    exact nomatch hd

theorem validName_trimEdgeSeparators {value : Text} (hchars : ∀ c ∈ value, isFolderChar c = true)
    (hlength : value.length ≤ 63) (hdots : ¬ ['.', '.'] <:+: value) (hne : trimEdgeSeparators value ≠ []) :
    ValidName (trimEdgeSeparators value) := by
  have hin := trimEdgeSeparators_isInfix value
  have hkept : ∀ c ∈ trimEdgeSeparators value, isFolderChar c = true := fun c hc => hchars c (hin.subset hc)
  refine ⟨?_, ?_, hkept, hin.length_le.trans hlength, fun h => hdots (h.trans hin)⟩
  · obtain ⟨c, hc⟩ := Option.ne_none_iff_exists'.1 (fun h => hne (head?_eq_none_iff.1 h))
    exact ⟨c, hc, isLowerAlnum_of_isFolderChar (hkept c (mem_of_mem_head? hc)) (head?_trimEdgeSeparators _ c hc)⟩
  · obtain ⟨c, hc⟩ := Option.ne_none_iff_exists'.1 (fun h => hne (getLast?_eq_none_iff.1 h))
    exact ⟨c, hc,
      isLowerAlnum_of_isFolderChar (hkept c (mem_of_getLast? hc)) (getLast?_trimEdgeSeparators _ c hc)⟩

theorem not_dots_append {front back : Text} (hfront : ¬ ['.', '.'] <:+: front) (hback : ¬ ['.', '.'] <:+: back) :
    ¬ ['.', '.'] <:+: front ++ '-' :: back := by
  induction front with
  | nil =>
    rw [nil_append, infix_cons_iff]
    rintro (hpre | hin)
    · exact absurd (cons_prefix_cons.1 hpre).1 (by decide)
    · exact hback hin
  | cons c front ih =>
    rw [cons_append, infix_cons_iff]
    rintro (hpre | hin)
    · obtain ⟨hc, hpre⟩ := cons_prefix_cons.1 hpre
      cases front with
      | nil => exact absurd (cons_prefix_cons.1 hpre).1 (by decide)
      | cons d front =>
        have hd := (cons_prefix_cons.1 hpre).1
        exact hfront ⟨[], front, by rw [← hc, ← hd]; rfl⟩
    · exact ih (fun h => hfront (infix_cons_iff.2 (.inr h))) hin

/-- **A valid name before a hyphen and a short tail is a valid name.** -/
theorem ValidName.append {front back : Text} (h : ValidName front) (hback : ∀ c ∈ back, isLowerAlnum c = true)
    (hne : back ≠ []) (hlength : front.length + 1 + back.length ≤ 63) : ValidName (front ++ '-' :: back) := by
  obtain ⟨first, hfirst, hfirst'⟩ := h.first
  refine ⟨⟨first, ?_, hfirst'⟩, ?_, fun c hc => ?_, ?_, not_dots_append h.dots fun hin => ?_⟩
  · rw [head?_append, hfirst]
    rfl
  · obtain ⟨c, hc⟩ := Option.ne_none_iff_exists'.1 (fun h => hne (getLast?_eq_none_iff.1 h))
    refine ⟨c, ?_, hback c (mem_of_getLast? hc)⟩
    rw [getLast?_append, getLast?_cons, hc]
    rfl
  · obtain hc | hc := mem_append.1 hc
    · exact h.chars c hc
    · obtain rfl | hc := mem_cons.1 hc
      · rfl
      · exact isFolderChar_of_isLowerAlnum (hback c hc)
  · rw [length_append, length_cons]
    omega
  · exact absurd (hback '.' (hin.subset mem_cons_self)) (by decide)

/-! ## Suffixed names -/

theorem isLowerAlnum_of_mem_toDigits (h : c ∈ Nat.toDigits 10 n) : isLowerAlnum c = true := by
  obtain ⟨hc, hlt⟩ := eq_digitChar_of_isDigit (isDigitOf_of_mem_decimal h)
  have hdigits : ∀ d < 10, isLowerAlnum (Nat.digitChar d) = true := by decide
  rw [hc]
  exact hdigits _ hlt

theorem length_suffix (hn : n ≤ collisionSuffixMax) :
    (Nat.toDigits 10 n).length ≤ 2 ∧ Nat.toDigits 10 n ≠ [] := by
  have hall : ∀ n ≤ 99, (Nat.toDigits 10 n).length ≤ 2 ∧ Nat.toDigits 10 n ≠ [] := by decide +kernel
  exact hall n hn

theorem withCollisionSuffix_eq {base : Text} (hbase : ValidName base) (hn : n ≤ collisionSuffixMax) :
    ∃ cut, cut <+: base ∧ ValidName cut ∧ cut.length + 1 + (Nat.toDigits 10 n).length ≤ 63 ∧
      withCollisionSuffix base n = cut ++ '-' :: Nat.toDigits 10 n := by
  obtain ⟨hdigits, -⟩ := length_suffix hn
  rw [withCollisionSuffix, length_cons, folderNameMaxLength]
  generalize hroom : 63 - ((Nat.toDigits 10 n).length + 1) = room
  split_ifs with hlong
  · obtain ⟨first, hfirst, hfirst'⟩ := hbase.first
    have hhead : (base.take room).head? = some first := by
      rw [head?_take, if_neg (by omega), hfirst]
    have hmem : first ∈ base.take room := mem_of_mem_head? hhead
    have hpre : trimEdgeSeparators (base.take room) <+: base.take room := by
      refine trimEdgeSeparators_isPrefix fun c hc => ?_
      cases hhead.symm.trans hc
      exact isSeparator_of_isLowerAlnum hfirst'
    have htake := take_prefix room base
    refine ⟨_, hpre.trans htake, validName_trimEdgeSeparators (fun c hc => hbase.chars c (htake.subset hc)) ?_ ?_ ?_,
      ?_, rfl⟩
    · rw [length_take]
      omega
    · exact fun h => hbase.dots (h.trans htake.isInfix)
    · exact trimEdgeSeparators_ne_nil hmem (isSeparator_of_isLowerAlnum hfirst')
    · have hle := hpre.length_le
      rw [length_take] at hle
      omega
  · exact ⟨base, prefix_refl base, hbase, by omega, rfl⟩

/-- **A suffixed name is a valid name.** -/
theorem validName_withCollisionSuffix {base : Text} (hbase : ValidName base) (hn : n ≤ collisionSuffixMax) :
    ValidName (withCollisionSuffix base n) := by
  obtain ⟨cut, -, hcut, hlength, heq⟩ := withCollisionSuffix_eq hbase hn
  rw [heq]
  exact hcut.append (fun c hc => isLowerAlnum_of_mem_toDigits hc) (length_suffix hn).2 hlength

/-! ## Defaults -/

theorem head?_collapseDots : (collapseDots value).head? = value.head? := by
  fun_induction collapseDots value with
  | case1 rest ih => exact ih
  | case2 c rest hnot ih => rfl
  | case3 => rfl

theorem not_dots_collapseDots : ¬ ['.', '.'] <:+: collapseDots value := by
  fun_induction collapseDots value with
  | case1 rest ih => exact ih
  | case2 c rest hnot ih =>
    rw [infix_cons_iff]
    rintro (hpre | hin)
    · obtain ⟨hc, hpre⟩ := cons_prefix_cons.1 hpre
      obtain ⟨more, hmore⟩ := hpre
      have hhead := head?_collapseDots rest
      rw [← hmore] at hhead
      cases rest with
      | nil => exact nomatch hhead
      | cons d rest =>
        cases hhead
        exact hnot rest hc.symm rfl
    · exact ih hin
  | case3 => exact fun h => nomatch h.length_le

theorem collapseDots_sublist : (collapseDots value).Sublist value := by
  fun_induction collapseDots value with
  | case1 rest ih => exact ih.trans (sublist_cons_self _ _)
  | case2 c rest hnot ih => exact ih.cons_cons c
  | case3 => exact List.Sublist.slnil

theorem isLowerAlnum_of_mem_sha256Hex {text : Text} (h : c ∈ sha256Hex text) : isLowerAlnum c = true := by
  obtain ⟨word, -, hc⟩ := mem_flatMap.1 h
  obtain ⟨i, -, rfl⟩ := mem_map.1 hc
  have hdigits : ∀ d < 16, isLowerAlnum (Nat.digitChar d) = true := by decide
  exact hdigits _ (Nat.mod_lt _ (by decide))

theorem length_hash (text : Text) : ((sha256Hex text).take defaultNameHashLength).length = 8 := by
  rw [sha256Hex, HashState.words, flatMap_cons, take_append_of_le_length (by simp [hexWord,
    defaultNameHashLength])]
  simp [hexWord, defaultNameHashLength]

theorem validName_of_lowerAlnum {value : Text} (hne : value ≠ []) (hchars : ∀ c ∈ value, isLowerAlnum c = true)
    (hlength : value.length ≤ 63) : ValidName value := by
  refine ⟨?_, ?_, fun c hc => isFolderChar_of_isLowerAlnum (hchars c hc), hlength, fun h => ?_⟩
  · obtain ⟨c, hc⟩ := Option.ne_none_iff_exists'.1 (fun h => hne (head?_eq_none_iff.1 h))
    exact ⟨c, hc, hchars c (mem_of_mem_head? hc)⟩
  · obtain ⟨c, hc⟩ := Option.ne_none_iff_exists'.1 (fun h => hne (getLast?_eq_none_iff.1 h))
    exact ⟨c, hc, hchars c (mem_of_getLast? hc)⟩
  · exact absurd (hchars '.' (h.subset mem_cons_self)) (by decide)

/-- **The name made from a domain is a valid name.** -/
theorem validName_defaultFolderNameFromDomain {host : Host} {input name : Text}
    (h : defaultFolderNameFromDomain host input = some name) : ValidName name := by
  obtain ⟨ascii, -, rfl⟩ := Option.map_eq_some_iff.1 h
  generalize (if ['*', '.'].isPrefixOf ascii then "wildcard.".toList ++ ascii.drop 2 else ascii) = named
  have hhash : ∀ c ∈ (sha256Hex ascii).take defaultNameHashLength, isLowerAlnum c = true := fun c hc =>
    isLowerAlnum_of_mem_sha256Hex (mem_of_mem_take hc)
  have hlength := length_hash ascii
  have hne : (sha256Hex ascii).take defaultNameHashLength ≠ [] := by
    intro hnil
    rw [hnil] at hlength
    exact nomatch hlength
  have hcleaned : ∀ c ∈ (collapseDots (named.filter isFolderChar)).take defaultNameCutLength, isFolderChar c = true :=
    fun c hc => (mem_filter.1 ((collapseDots_sublist _).subset (mem_of_mem_take hc))).2
  have hcut : ((collapseDots (named.filter isFolderChar)).take defaultNameCutLength).length ≤ 54 :=
    length_take_le _ _
  dsimp only
  split_ifs with hvalid hempty
  · exact isValidFolderName_iff.1 hvalid
  · exact validName_of_lowerAlnum hne hhash (by omega)
  · rw [List.isEmpty_iff] at hempty
    have hbase := validName_trimEdgeSeparators hcleaned (by omega)
      (fun h => not_dots_collapseDots _ (h.trans ( take_prefix _ _).isInfix)) hempty
    have hle := (trimEdgeSeparators_isInfix ((collapseDots (named.filter isFolderChar)).take
      defaultNameCutLength)).length_le
    exact hbase.append hhash hne (by omega)

theorem validName_folderNameFromLabel {host : Host} {label : Option Text} {name : Text}
    (h : folderNameFromLabel host label = some name) : ValidName name := by
  rw [folderNameFromLabel] at h
  split_ifs at h with hvalid
  exact Option.some.inj h ▸ isValidFolderName_iff.1 hvalid

/-- **A canonical id is a valid name.** -/
theorem validName_of_isPathId {value : Text} (h : isPathId value = true) : ValidName value := by
  rw [isPathId, Bool.and_eq_true, decide_eq_true_eq, all_eq_true] at h
  obtain ⟨hlengths, hhex⟩ := h
  have hvalue : ['-'].intercalate (value.splitOn '-') = value := intercalate_splitOn '-'
  have hchars : ∀ part ∈ value.splitOn '-', ∀ c ∈ part, isLowerAlnum c = true := by
    intro part hpart c hc
    have hc := all_eq_true.1 (hhex part hpart) c hc
    rw [isLowerHex, Bool.or_eq_true, decide_eq_true_eq, decide_eq_true_eq] at hc
    rw [isLowerAlnum, Bool.or_eq_true, decide_eq_true_eq, decide_eq_true_eq]
    have hle : 'f' ≤ 'z' := by decide
    exact hc.symm.imp_left fun h => ⟨h.1, Char.le_trans h.2 hle⟩
  generalize value.splitOn '-' = parts at hlengths hvalue hchars
  obtain ⟨a, b, c, d, e, rfl⟩ : ∃ a b c d e, parts = [a, b, c, d, e] := by
    clear hvalue hchars
    rcases parts with _ | ⟨a, _ | ⟨b, _ | ⟨c, _ | ⟨d, _ | ⟨e, _ | ⟨f, rest⟩⟩⟩⟩⟩⟩ <;> simp at hlengths ⊢
  simp only [map_cons, map_nil, List.cons.injEq, and_true] at hlengths
  obtain ⟨ha, hb, hc, hd, he⟩ := hlengths
  simp only [forall_mem_cons] at hchars
  have hne : ∀ {part : Text} {n : ℕ}, part.length = n + 1 → part ≠ [] := by
    rintro part n hpart rfl
    exact nomatch hpart
  have hwhole := ((((validName_of_lowerAlnum (hne ha) hchars.1 (by omega)).append hchars.2.1 (hne hb) (by omega)).append
    hchars.2.2.1 (hne hc) (by simp; omega)).append hchars.2.2.2.1 (hne hd) (by simp; omega)).append hchars.2.2.2.2.1
    (hne he) (by simp; omega)
  rw [← hvalue]
  simpa [List.intercalate] using hwhole

/-- **The default is a valid name.** -/
theorem validName_defaultFolderBase (host : Host) (domain label : Option Text) {assetId : Text}
    (hasset : isPathId assetId = true) : ValidName (defaultFolderBase host domain label assetId) := by
  rw [defaultFolderBase]
  cases hdomain : (truthy domain).bind (defaultFolderNameFromDomain host) with
  | some name =>
    obtain ⟨input, -, hname⟩ := Option.bind_eq_some_iff.1 hdomain
    exact validName_defaultFolderNameFromDomain hname
  | none =>
    cases hlabel : folderNameFromLabel host label with
    | some name => exact validName_folderNameFromLabel hlabel
    | none => exact validName_of_isPathId hasset

end TurboPanel.Folders
