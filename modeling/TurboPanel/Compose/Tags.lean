import TurboPanel.Compose.Json

/-!
# Merge tags and normal documents

The model of `src/features/compose/tags.ts` and of `normalizeCompose` of
`src/features/compose/types.ts`. The tags `!reset` and `!override` are stored as a mapping with a
reserved key, a sentinel; `resolveComposeTags` puts the plain value in the place of each.
-/

namespace TurboPanel.Compose

open Js

/-! ## Sentinels -/

def composeTagKey : String := "__turbopanelComposeTag"

inductive ComposeTagName
  | reset
  | override
  deriving DecidableEq

/-- The tag of a mapping that is a sentinel. -/
def composeTag? (fields : Fields) : Option ComposeTagName :=
  if "value" ∈ fields.map Prod.fst then
    match fields.lookup composeTagKey with
    | some (.str "reset") => some .reset
    | some (.str "override") => some .override
    | _ => none
  else none

def composeTagOf : Json → Option ComposeTagName
  | .obj fields => composeTag? fields
  | _ => none

def isComposeTaggedValue (value : Json) : Bool := (composeTagOf value).isSome

def makeComposeTag (tag : ComposeTagName) (value : Json) : Json :=
  .obj [(composeTagKey, .str (match tag with | .reset => "reset" | .override => "override")),
    ("value", value)]

mutual

/-- Unwrap every sentinel. -/
def resolveComposeTags : Json → Json
  | .arr items => .arr (resolveItems items)
  | .obj fields =>
    if (composeTag? fields).isSome then ((resolveEntries fields).lookup "value").getD .null
    else .obj (assignInto [] (resolveEntries fields))
  | value => value

def resolveItems : List Json → List Json
  | [] => []
  | item :: rest => resolveComposeTags item :: resolveItems rest

def resolveEntries : Fields → Fields
  | [] => []
  | (key, child) :: rest => (key, resolveComposeTags child) :: resolveEntries rest

end

theorem resolveItems_eq (items : List Json) : resolveItems items = items.map resolveComposeTags := by
  induction items with
  | nil => rfl
  | cons item rest ih => rw [resolveItems, ih, List.map_cons]

theorem resolveEntries_eq (fields : Fields) :
    resolveEntries fields = fields.map fun e => (e.1, resolveComposeTags e.2) := by
  induction fields with
  | nil => rfl
  | cons e rest ih =>
    obtain ⟨key, child⟩ := e
    rw [resolveEntries, ih, List.map_cons]

mutual

/-- The value has a sentinel in it, at any depth. -/
def hasTag : Json → Bool
  | .arr items => itemsHaveTag items
  | .obj fields => (composeTag? fields).isSome || entriesHaveTag fields
  | _ => false

def itemsHaveTag : List Json → Bool
  | [] => false
  | item :: rest => hasTag item || itemsHaveTag rest

def entriesHaveTag : Fields → Bool
  | [] => false
  | (_, child) :: rest => hasTag child || entriesHaveTag rest

end

theorem itemsHaveTag_iff {items : List Json} :
    itemsHaveTag items = true ↔ ∃ j ∈ items, hasTag j = true := by
  induction items with
  | nil => simp [itemsHaveTag]
  | cons item rest ih => rw [itemsHaveTag, Bool.or_eq_true, ih, List.exists_mem_cons_iff]

theorem entriesHaveTag_iff {fields : Fields} :
    entriesHaveTag fields = true ↔ ∃ e ∈ fields, hasTag e.2 = true := by
  induction fields with
  | nil => simp [entriesHaveTag]
  | cons e rest ih =>
    obtain ⟨key, child⟩ := e
    rw [entriesHaveTag, Bool.or_eq_true, ih, List.exists_mem_cons_iff]

/-! ## Normal documents -/

/-- The key of what is kept for the platform itself. -/
def turbopanelExtensionKey : String := "x-turbopanel"

def isEmptyComposeMapping : Json → Bool
  | .obj [] => true
  | _ => false

def isBlankComposeData (data : Fields) : Bool := data.all fun e => isEmptyComposeMapping e.2

def pruneBlankComposeData (data : Fields) : Fields :=
  assignInto [] (data.filter fun e => !isEmptyComposeMapping e.2)

def normalizeCompose (document : ComposeDocument) : ComposeDocument :=
  let data := pruneBlankComposeData document.data
  if isBlankComposeData data then emptyComposeDocument
  else
    let keyOrder := document.presentation.keyOrder.filter (hasProp data)
    { data
      presentation :=
        { keyOrder := if hasProp data turbopanelExtensionKey then keyOrder
            else keyOrder.filter (· ≠ turbopanelExtensionKey)
          comments := document.presentation.comments
          blankLines := document.presentation.blankLines
          documentCommentBefore := truthyString document.presentation.documentCommentBefore
          documentComment := truthyString document.presentation.documentComment
          editorView := document.presentation.editorView } }

end TurboPanel.Compose
