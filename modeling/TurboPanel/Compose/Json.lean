import TurboPanel.Js.Map
import TurboPanel.Js.Text

/-!
# Compose data

A Compose document is stored as JSON. An object is the list of its own properties in the order in
which `Object.entries` gives them: the array indices in ascending order, then the other keys as they
were added. A number is kept as the text that `String(n)` gives.

`setProp` is the assignment `o[k] = v`. The key `__proto__` is a key as any other, as it is in Deno,
whose `Object.prototype` has no such accessor. What an object inherits are functions only, and the
source treats a function as it treats what is not there, except for the operator `in` (`hasProp`).
-/

namespace TurboPanel.Compose

open Js

/-! ## Values -/

inductive Json
  | null
  | bool (b : Bool)
  | num (text : String)
  | str (s : String)
  | arr (items : List Json)
  | obj (fields : List (String × Json))
  deriving Repr

/-- The own properties of an object, in order. -/
abbrev Fields := List (String × Json)

namespace Json

/-- `isPlainObject(value)`, with the properties. -/
def fields? : Json → Option Fields
  | obj fs => some fs
  | _ => none

/-- `Array.isArray(value)`, with the items. -/
def items? : Json → Option (List Json)
  | arr items => some items
  | _ => none

/-- `typeof value === 'string'`, with the string. -/
def str? : Json → Option String
  | str s => some s
  | _ => none

end Json

theorem Json.induction {motive : Json → Prop} (null : motive .null) (bool : ∀ b, motive (.bool b))
    (num : ∀ text, motive (.num text)) (str : ∀ s, motive (.str s))
    (arr : ∀ items, (∀ j ∈ items, motive j) → motive (.arr items))
    (obj : ∀ fields, (∀ e ∈ fields, motive e.2) → motive (.obj fields)) (j : Json) : motive j := by
  refine @Json.rec motive (fun items => ∀ j ∈ items, motive j)
    (fun fields => ∀ e ∈ fields, motive e.2) (fun e => motive e.2)
    null bool num str arr obj ?_ ?_ ?_ ?_ ?_ j
  · exact fun j hj => absurd hj List.not_mem_nil
  · intro item items hitem hitems j hj
    obtain rfl | hj := List.mem_cons.1 hj
    · exact hitem
    · exact hitems j hj
  · exact fun e he => absurd he List.not_mem_nil
  · intro field fields hfield hfields e he
    obtain rfl | he := List.mem_cons.1 he
    · exact hfield
    · exact hfields e he
  · exact fun key value hvalue => hvalue

/-! ## Entries of a list form -/

def isListSeparator (ch : Char) : Bool := ch == '=' || ch == ':'

/-- `KEY=value`, `KEY:value` or `KEY`: the key is what stands before the first separator. -/
def listEntryKey (item : Text) : Text := item.takeWhile fun ch => !isListSeparator ch

/-- What stands after the first separator; `none` without one. -/
def listEntryValue (item : Text) : Option Text :=
  match item.dropWhile fun ch => !isListSeparator ch with
  | [] => none
  | _ :: rest => some rest

/-! ## Properties -/

/-- The key is a canonical array index. -/
def arrayIndex? (key : String) : Option ℕ :=
  let n := ofDigits 10 key.toList
  if isDecimal key.toList ∧ Nat.toDigits 10 n = key.toList ∧ n < 2 ^ 32 - 1 then some n else none

/-- A new property `key` goes before the property `key'`. -/
def precedes (key key' : String) : Bool :=
  match arrayIndex? key, arrayIndex? key' with
  | some n, some m => decide (n < m)
  | some _, none => true
  | none, _ => false

variable {ν : Type*}

/-- Add a property that is not there yet. -/
def insertProp (key : String) (v : ν) : List (String × ν) → List (String × ν)
  | [] => [(key, v)]
  | e :: rest =>
    if precedes key e.1 then (key, v) :: e :: rest else e :: insertProp key v rest

/-- `o[key] = v`. -/
def setProp (o : List (String × ν)) (key : String) (v : ν) : List (String × ν) :=
  if key ∈ o.map Prod.fst then setEntry key v o else insertProp key v o

/-- `for (const [key, v] of entries) o[key] = v`, and `{ ...o, ...entries }`. -/
def assignInto (o entries : List (String × ν)) : List (String × ν) :=
  entries.foldl (fun o e => setProp o e.1 e.2) o

/-- `delete o[key]`. -/
def deleteProp (o : List (String × ν)) (key : String) : List (String × ν) :=
  o.filter fun e => e.1 ≠ key

theorem insertProp_perm (key : String) (v : ν) (o : List (String × ν)) :
    (insertProp key v o).Perm ((key, v) :: o) := by
  induction o with
  | nil => exact List.Perm.refl _
  | cons e rest ih =>
    rw [insertProp]
    split
    · exact List.Perm.refl _
    · exact (ih.cons e).trans (List.Perm.swap _ _ _)

variable {o : List (String × ν)}

theorem lookup_insertProp {key : String} {v : ν} (h : key ∉ o.map Prod.fst) (k : String) :
    (insertProp key v o).lookup k = if k = key then some v else o.lookup k := by
  induction o with
  | nil => rw [insertProp, lookup_cons_if]
  | cons e rest ih =>
    obtain ⟨hne, hrest⟩ := not_or.1 (fun h' => h (List.mem_cons.2 h'))
    rw [insertProp]
    split
    · rw [lookup_cons_if]
    · rw [lookup_cons_if, lookup_cons_if, ih hrest]
      by_cases hk : k = key
      · rw [if_neg (hk ▸ hne), if_pos hk, if_pos hk]
      · rw [if_neg hk, if_neg hk]

theorem lookup_setProp (o : List (String × ν)) (key : String) (v : ν) (k : String) :
    (setProp o key v).lookup k = if k = key then some v else o.lookup k := by
  rw [setProp]
  split
  · rw [lookup_setEntry]
  · rename_i h
    rw [lookup_insertProp h]

theorem nodup_setProp (h : (o.map Prod.fst).Nodup) (key : String) (v : ν) :
    ((setProp o key v).map Prod.fst).Nodup := by
  rw [setProp]
  split
  · rename_i hmem
    rwa [keys_setEntry, if_pos hmem]
  · rename_i hmem
    rw [((insertProp_perm key v o).map Prod.fst).nodup_iff]
    exact List.nodup_cons.2 ⟨hmem, h⟩

theorem mem_setProp {key : String} {v : ν} {e : String × ν}
    (h : e ∈ setProp o key v) : e = (key, v) ∨ e ∈ o := by
  rw [setProp] at h
  split at h
  · clear * - h
    induction o with
    | nil => exact .inl (List.mem_singleton.1 h)
    | cons e' rest ih =>
      rw [setEntry] at h
      split at h
      · exact (List.mem_cons.1 h).imp_right (List.mem_cons_of_mem e')
      · obtain rfl | h := List.mem_cons.1 h
        · exact .inr List.mem_cons_self
        · exact (ih h).imp_right (List.mem_cons_of_mem e')
  · exact List.mem_cons.1 ((insertProp_perm key v o).mem_iff.1 h)

theorem nodup_assignInto (h : (o.map Prod.fst).Nodup)
    (entries : List (String × ν)) : ((assignInto o entries).map Prod.fst).Nodup :=
  List.foldlRecOn (motive := fun o : List (String × ν) => (o.map Prod.fst).Nodup) entries _ h
    fun _ ho e _ => nodup_setProp ho e.1 e.2

theorem mem_assignInto {entries : List (String × ν)} {e : String × ν}
    (h : e ∈ assignInto o entries) : e ∈ o ∨ e ∈ entries := by
  induction entries generalizing o with
  | nil => exact .inl h
  | cons e' rest ih =>
    obtain h | h := ih h
    · obtain rfl | h := mem_setProp h
      · exact .inr List.mem_cons_self
      · exact .inl h
    · exact .inr (List.mem_cons_of_mem e' h)

theorem lookup_assignInto (o : List (String × ν)) {entries : List (String × ν)}
    (h : (entries.map Prod.fst).Nodup) (k : String) :
    (assignInto o entries).lookup k = (entries.lookup k).or (o.lookup k) := by
  induction entries generalizing o with
  | nil => rfl
  | cons e rest ih =>
    obtain ⟨hnot, hrest⟩ := List.nodup_cons.1 h
    rw [assignInto, List.foldl_cons, ← assignInto, ih _ hrest, lookup_setProp, lookup_cons_if]
    by_cases hk : k = e.1
    · rw [if_pos hk, if_pos hk, lookup_eq_none_iff.2 (hk ▸ hnot), Option.none_or, Option.some_or]
    · rw [if_neg hk, if_neg hk]

theorem nodup_deleteProp (h : (o.map Prod.fst).Nodup) (key : String) :
    ((deleteProp o key).map Prod.fst).Nodup :=
  h.sublist (List.filter_sublist.map Prod.fst)

theorem lookup_deleteProp (o : List (String × ν)) (key k : String) :
    (deleteProp o key).lookup k = if k = key then none else o.lookup k := by
  induction o with
  | nil => simp [deleteProp]
  | cons e rest ih =>
    rw [deleteProp, List.filter_cons, lookup_cons_if]
    rw [deleteProp] at ih
    by_cases he : e.1 = key
    · rw [if_neg (by simpa using he), ih]
      by_cases hk : k = key
      · rw [if_pos hk, if_pos hk]
      · rw [if_neg hk, if_neg hk, if_neg fun h => hk (h.trans he)]
    · rw [if_pos (by simpa using he), lookup_cons_if, ih]
      by_cases hk : k = key
      · rw [if_pos hk, if_pos hk, if_neg fun h => he (h.symm.trans hk)]
      · rw [if_neg hk, if_neg hk]

/-- The names that every object inherits. -/
def inheritedMembers : List String :=
  ["constructor", "__defineGetter__", "__defineSetter__", "hasOwnProperty", "__lookupGetter__",
    "__lookupSetter__", "isPrototypeOf", "propertyIsEnumerable", "toString", "valueOf",
    "toLocaleString"]

/-- `key in o`. -/
def hasProp (o : List (String × ν)) (key : String) : Bool :=
  (o.map Prod.fst).contains key || inheritedMembers.contains key

/-! ## Documents -/

structure ComposeComment where
  before : Option String
  inline : Option String
  keyBefore : Option String
  keyInline : Option String

inductive ComposeEditorView
  | editor
  | visual
  deriving DecidableEq

structure ComposePresentation where
  keyOrder : List String
  comments : List (String × ComposeComment)
  blankLines : Option (List (String × ℕ))
  documentCommentBefore : Option String
  documentComment : Option String
  editorView : Option ComposeEditorView

/-- The version of a document is always 1. -/
structure ComposeDocument where
  data : Fields
  presentation : ComposePresentation

def emptyComposeDocument : ComposeDocument where
  data := []
  presentation :=
    { keyOrder := []
      comments := []
      blankLines := none
      documentCommentBefore := none
      documentComment := none
      editorView := none }

/-- A document without presentation. -/
def plainDocument (data : Fields) : ComposeDocument := { emptyComposeDocument with data }

end TurboPanel.Compose
