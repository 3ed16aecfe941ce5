import TurboPanel.Js.Text

/-!
# Version ranges of Node

The model of `src/lib/node-version-range.ts`: which major series a range from an app's
`engines.node` allows. Each alternative becomes one half-open interval of versions, and a series is
allowed when it overlaps one.
-/

namespace TurboPanel.Deploy.NodeRange

open Js

structure Version where
  major : ℕ
  minor : ℕ
  patch : ℕ

/-- `[lo, hi)`; without `hi` it is unbounded. -/
structure Interval where
  lo : Version
  hi : Option Version

/-- A version as written: the numbers given before the first wildcard. -/
structure WrittenVersion where
  parts : List ℕ

def zero : Version := ⟨0, 0, 0⟩
def everything : Interval := ⟨zero, none⟩
def nothing : Interval := ⟨zero, some zero⟩
def maxComponentDigits : ℕ := 9

def compareVersions (a b : Version) : ℤ :=
  if (a.major : ℤ) - b.major ≠ 0 then a.major - b.major
  else if (a.minor : ℤ) - b.minor ≠ 0 then a.minor - b.minor
  else if (a.patch : ℤ) - b.patch ≠ 0 then a.patch - b.patch
  else 0

def floorOf (written : WrittenVersion) : Version :=
  ⟨written.parts.getD 0 0, written.parts.getD 1 0, written.parts.getD 2 0⟩

/-- The first version past everything `written` names when `count` parts are kept. -/
def nextAfter (written : WrittenVersion) (count : ℕ) : Version :=
  let floor := floorOf written
  if count ≤ 1 then ⟨floor.major + 1, 0, 0⟩
  else if count = 2 then ⟨floor.major, floor.minor + 1, 0⟩
  else ⟨floor.major, floor.minor, floor.patch + 1⟩

def isDigits (value : Text) : Bool :=
  if value.length = 0 ∨ value.length > maxComponentDigits then false
  else value.all fun ch => '0' ≤ ch && ch ≤ '9'

def isWildcard (value : Text) : Bool := value = ['x'] || value = ['X'] || value = ['*']

/-- One round of `withoutPrefix`. -/
def dropPrefix : Text → Text
  | first :: rest => if first = 'v' ∨ first = 'V' ∨ first = '=' then rest else first :: rest
  | [] => []

def withoutPrefix (value : Text) : Text := dropPrefix (dropPrefix value)

/-- The head before the marker, and whether there was one. -/
def cutAt (value : Text) (marker : Char) : Text × Bool :=
  (value.takeWhile (· ≠ marker), value.elem marker)

/-- The loop over the pieces: numbers, and then wildcards only. -/
def readPieces : Bool → List Text → Option (List ℕ)
  | _, [] => some []
  | wildcardSeen, piece :: pieces =>
    if isWildcard piece then readPieces true pieces
    else if wildcardSeen || !isDigits piece then none
    else (readPieces wildcardSeen pieces).map (ofDigits 10 piece :: ·)

def parseWrittenVersion (raw : Text) : Option WrittenVersion :=
  let withoutBuild := (cutAt (withoutPrefix raw) '+').1
  let (core, prerelease) := cutAt withoutBuild '-'
  if core.length = 0 then none
  else
    let pieces := core.splitOn '.'
    if pieces.length > 3 then none
    else if prerelease && pieces.length != 3 then none
    else (readPieces false pieces).map WrittenVersion.mk

/-- `^x.y.z`: up to the next change in the first non-zero part. -/
def caretInterval (written : WrittenVersion) : Interval :=
  let parts := written.parts
  let lo := floorOf written
  if parts.length = 0 then everything
  else if parts.getD 0 0 > 0 ∨ parts.length = 1 then ⟨lo, some (nextAfter written 1)⟩
  else if parts.getD 1 0 > 0 ∨ parts.length = 2 then ⟨lo, some (nextAfter written 2)⟩
  else ⟨lo, some (nextAfter written 3)⟩

def tildeInterval (written : WrittenVersion) : Interval :=
  let count := written.parts.length
  if count = 0 then everything else ⟨floorOf written, some (nextAfter written (min count 2))⟩

def exactInterval (written : WrittenVersion) : Interval :=
  let count := written.parts.length
  if count = 0 then everything else ⟨floorOf written, some (nextAfter written count)⟩

/-- The operators, and the empty one of a bare version. -/
inductive Operator
  | atLeast | atMost | tildeGreater | greater | less | equal | tilde | caret | bare
  deriving DecidableEq

def Operator.text : Operator → Text
  | .atLeast => ['>', '=']
  | .atMost => ['<', '=']
  | .tildeGreater => ['~', '>']
  | .greater => ['>']
  | .less => ['<']
  | .equal => ['=']
  | .tilde => ['~']
  | .caret => ['^']
  | .bare => []

def comparisonInterval (operator : Operator) (written : WrittenVersion) : Interval :=
  let count := written.parts.length
  match operator with
  | .atLeast => if count = 0 then everything else ⟨floorOf written, none⟩
  | .greater => if count = 0 then nothing else ⟨nextAfter written count, none⟩
  | .atMost => if count = 0 then everything else ⟨zero, some (nextAfter written count)⟩
  | _ => if count = 0 then nothing else ⟨zero, some (floorOf written)⟩

/-- Longest first. -/
def operators : List Operator :=
  [.atLeast, .atMost, .tildeGreater, .greater, .less, .equal, .tilde, .caret]

def splitOperator (token : Text) : Operator × Text :=
  match operators.find? fun operator => operator.text.isPrefixOf token with
  | some operator => (operator, token.drop operator.text.length)
  | none => (.bare, token)

def intervalOf (operator : Operator) (written : WrittenVersion) : Interval :=
  match operator with
  | .caret => caretInterval written
  | .tilde | .tildeGreater => tildeInterval written
  | .bare | .equal => exactInterval written
  | _ => comparisonInterval operator written

def comparatorInterval (token : Text) : Option Interval :=
  let (operator, version) := splitOperator token
  (parseWrittenVersion version).map (intervalOf operator)

def intersect (a b : Interval) : Interval :=
  let lo := if compareVersions a.lo b.lo ≥ 0 then a.lo else b.lo
  match a.hi, b.hi with
  | none, hi => ⟨lo, hi⟩
  | some hi, none => ⟨lo, some hi⟩
  | some hi, some hi' => ⟨lo, some (if compareVersions hi hi' ≤ 0 then hi else hi')⟩

/-- `1.2 - 2.3.4`: from the first, filled with zeros, through all of the second. -/
def hyphenInterval (low high : Text) : Option Interval :=
  match parseWrittenVersion low, parseWrittenVersion high with
  | some low, some high =>
    let count := high.parts.length
    some ⟨floorOf low, if count = 0 then none else some (nextAfter high count)⟩
  | _, _ => none

/-- The loop over the words: a bare operator is joined to the version after it. -/
def joinWords : Text → List Text → List Text
  | pending, [] => if pending.length > 0 then [pending] else []
  | pending, word :: words =>
    if word.length = 0 then joinWords pending words
    else if (operators.map Operator.text).elem word then joinWords (pending ++ word) words
    else (pending ++ word) :: joinWords [] words

def comparatorTokens (alternative : Text) : List Text := joinWords [] (alternative.splitOn ' ')

/-- The loop over the tokens. -/
def intersectTokens : Interval → List Text → Option Interval
  | interval, [] => some interval
  | interval, token :: tokens =>
    match comparatorInterval token with
    | none => none
    | some next => intersectTokens (intersect interval next) tokens

def alternativeInterval (alternative : Text) : Option Interval :=
  match comparatorTokens alternative with
  | [] => some everything
  | [low, ['-'], high] => hyphenInterval low high
  | tokens => intersectTokens everything tokens

/-- Tabs and line breaks count as spaces. -/
def normalizeSpaces (range : Text) : Text :=
  range.map fun c => if c = '\t' ∨ c = '\r' ∨ c = '\n' then ' ' else c

structure NodeVersionRange where
  intervals : List Interval

/-- The alternatives of a range. -/
def alternatives (range : Text) : List Text := splitPair '|' '|' (trim (normalizeSpaces range))

def parseNodeVersionRange (range : Text) : Option NodeVersionRange :=
  if (trim (normalizeSpaces range)).length = 0 then none
  else ((alternatives range).mapM alternativeInterval).map NodeVersionRange.mk

def rangeAllowsMajor (range : NodeVersionRange) (major : ℕ) : Bool :=
  let seriesLo : Version := ⟨major, 0, 0⟩
  let seriesHi : Version := ⟨major + 1, 0, 0⟩
  range.intervals.any fun interval =>
    if interval.hi.any fun hi => compareVersions interval.lo hi ≥ 0 then false
    else compareVersions interval.lo seriesHi < 0 &&
      interval.hi.all fun hi => compareVersions hi seriesLo > 0

def newestAllowedSeries (range : NodeVersionRange) (offered : List Text) : Option Text :=
  let majors := ((offered.filter isDigits).map (ofDigits 10)).mergeSort fun a b => b ≤ a
  (majors.find? (rangeAllowsMajor range)).map (Nat.toDigits 10)

end TurboPanel.Deploy.NodeRange
