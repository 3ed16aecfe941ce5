import TurboPanel.Compose.Tags

/-!
# The merge of Compose documents

The model of `src/features/compose/merge.ts`. The overlay is merged into the base key by key; a
sequence is merged by the strategy of its path. `mergeNodes` gives the merged value, `none` when the
key is to be deleted, and the sequences that were merged on the way, with the places that the items
of the overlay got in them.
-/

namespace TurboPanel.Compose

open Js

/-! ## Strategies -/

abbrev MergePath := List String

inductive SequenceStrategy
  | replace
  | ports
  | volumes
  | secretsConfigs
  | scalarDedup
  | keyedList
  | plainAppend
  deriving DecidableEq

def scalarDedupAttrs : List String := ["expose", "extra_hosts"]

def keyedListAttrs : List String := ["labels", "environment", "depends_on"]

def mapListDualityAttrs : List String := ["labels", "environment", "depends_on", "extra_hosts"]

def leafAttribute (path : MergePath) : String := path.getLast?.getD ""

def isHealthcheckTestPath : MergePath → Bool
  | [root, _, attr, leaf] => root == "services" && attr == "healthcheck" && leaf == "test"
  | _ => false

def isServiceAttrPath (path : MergePath) (attr : String) : Bool :=
  match path with
  | [root, _, leaf] => root == "services" && leaf == attr
  | _ => false

def isRootAttrPath (path : MergePath) (attr : String) : Bool := path == [attr]

def resolveSequenceStrategy (path : MergePath) : SequenceStrategy :=
  if isHealthcheckTestPath path then .replace
  else if isServiceAttrPath path "command" || isRootAttrPath path "command" then .replace
  else if isServiceAttrPath path "entrypoint" || isRootAttrPath path "entrypoint" then .replace
  else if isServiceAttrPath path "ports" || isRootAttrPath path "ports" then .ports
  else if isServiceAttrPath path "volumes" then .volumes
  else if isServiceAttrPath path "secrets" || isServiceAttrPath path "configs" then .secretsConfigs
  else if scalarDedupAttrs.contains (leafAttribute path) then .scalarDedup
  else if keyedListAttrs.contains (leafAttribute path) then .keyedList
  else .plainAppend

def presentationPath (path : MergePath) : Text := ['.'].intercalate (path.map String.toList)

/-! ## Keys of the items of a sequence -/

structure PortKey where
  hostIp : Text
  target : Text
  published : Text
  protocol : Text

def portKeyString (key : PortKey) : Text :=
  ['|'].intercalate [key.hostIp, key.target, key.published, key.protocol]

/-- The text of a number is that of a finite one. -/
def isFiniteText (text : String) : Bool := text ∉ ["NaN", "Infinity", "-Infinity"]

def composePortFieldString : Option Json → Text
  | some (.str s) => s.toList
  | some (.num text) => if isFiniteText text then text.toList else []
  | _ => []

/-- `[host_ip:][published:]target`, in parts; an address in brackets is one part. -/
def splitPortColons (body : Text) : List Text :=
  match body with
  | '[' :: inner =>
    if inner.contains ']' then
      let host := '[' :: inner.takeWhile (· ≠ ']') ++ [']']
      match (inner.dropWhile (· ≠ ']')).drop 1 with
      | ':' :: rest => host :: rest.splitOn ':'
      | _ => [host]
    else body.splitOn ':'
  | _ => body.splitOn ':'

def isAlphanumeric (ch : Char) : Bool := ch.isAlpha || ch.isDigit

/-- The body and the protocol of a short port. -/
def splitPortProtocol (trimmed : Text) : Text × Text :=
  match lastIndexOf '/' trimmed with
  | some (slash + 1) =>
    let maybeProto := trimmed.drop (slash + 2)
    if !trimmed.contains '[' && !maybeProto.isEmpty && maybeProto.all isAlphanumeric then
      (trimmed.take (slash + 1), toLowerCase maybeProto)
    else (trimmed, "tcp".toList)
  | _ => (trimmed, "tcp".toList)

def parseShortPort (raw : Text) : PortKey :=
  let (body, protocol) := splitPortProtocol (trim raw)
  match (splitPortColons body).reverse with
  | [] => ⟨[], [], [], protocol⟩
  | [target] => ⟨[], target, [], protocol⟩
  | [target, published] => ⟨[], target, published, protocol⟩
  | target :: published :: host => ⟨[':'].intercalate host.reverse, target, published, protocol⟩

def portUniqueKey : Json → Option Text
  | .str s => some (portKeyString (parseShortPort s.toList))
  | .num text => some (portKeyString (parseShortPort text.toList))
  | .obj entry =>
    let protocol := match (entry.lookup "protocol").bind Json.str? with
      | some protocol => toLowerCase protocol.toList
      | none => "tcp".toList
    let hostIp := match (entry.lookup "host_ip").bind Json.str? with
      | some hostIp => hostIp.toList
      | none => []
    some (portKeyString ⟨hostIp, composePortFieldString (entry.lookup "target"),
      composePortFieldString (entry.lookup "published"), protocol⟩)
  | _ => none

def volumeTargetKey : Json → Option Text
  | .str s =>
    match s.toList.splitOn ':' with
    | [] => none
    | [single] => some single
    | _ :: target :: _ => some target
  | .obj entry => ((entry.lookup "target").bind Json.str?).map String.toList
  | _ => none

def secretConfigKey : Json → Option Text
  | .str s => some s.toList
  | .obj entry =>
    ((truthyString ((entry.lookup "target").bind Json.str?)).or
      ((entry.lookup "source").bind Json.str?)).map String.toList
  | _ => none

def keyedListKey : Json → Option Text
  | .str s => some (listEntryKey s.toList)
  | _ => none

/-- `out[key] = value` of an entry of the list form; an item that is not a text is skipped. -/
def assignListEntry (out : Fields) : Json → Fields
  | .str item => setProp out (String.ofList (listEntryKey item.toList))
      (match listEntryValue item.toList with
        | none => .null
        | some rest => .str (String.ofList rest))
  | _ => out

/-- The map form of `labels`, `environment`, `depends_on` and `extra_hosts`. -/
def normalizeKeyedList : Json → Option Fields
  | .obj fields => some (assignInto [] fields)
  | .arr items => some (items.foldl assignListEntry [])
  | _ => none

/-! ## Texts of values -/

/-- The two hexadecimal digits of a control character. -/
def hexPair (n : ℕ) : Text := [Nat.digitChar (n / 16), Nat.digitChar (n % 16)]

/-- A character in a JSON text. -/
def escapeChar (ch : Char) : Text :=
  if ch = '"' then ['\\', '"']
  else if ch = '\\' then ['\\', '\\']
  else if ch.toNat = 8 then ['\\', 'b']
  else if ch.toNat = 12 then ['\\', 'f']
  else if ch = '\n' then ['\\', 'n']
  else if ch = '\r' then ['\\', 'r']
  else if ch = '\t' then ['\\', 't']
  else if ch.toNat < 32 then ['\\', 'u', '0', '0'] ++ hexPair ch.toNat
  else [ch]

def quoteText (s : String) : Text := '"' :: s.toList.flatMap escapeChar ++ ['"']

mutual

/-- `JSON.stringify(value)`. -/
def stringify : Json → Text
  | .null => "null".toList
  | .bool b => if b then "true".toList else "false".toList
  | .num text => if isFiniteText text then text.toList else "null".toList
  | .str s => quoteText s
  | .arr items => '[' :: [','].intercalate (stringifyItems items) ++ [']']
  | .obj fields => '\x7b' :: [','].intercalate (stringifyEntries fields) ++ ['\x7d']

def stringifyItems : List Json → List Text
  | [] => []
  | item :: rest => stringify item :: stringifyItems rest

def stringifyEntries : Fields → List Text
  | [] => []
  | (key, child) :: rest => (quoteText key ++ ':' :: stringify child) :: stringifyEntries rest

end

/-- What two items that are one and the same have in common. -/
def dedupKey : Json → Text
  | .str s => s.toList
  | .num text => text.toList
  | .bool b => if b then "true".toList else "false".toList
  | item => stringify item

/-! ## Sequences -/

/-- The places of the items of the overlay in the merged sequence. -/
abbrev OverlayIndexMap := Map ℕ ℕ

structure SequenceMergeResult where
  value : List Json
  overlayIndexMap : Option OverlayIndexMap

/-- What the loop of `appendWithUniqueKey` changes; `next` is the index in the overlay. -/
structure UniqueState where
  out : List Json
  indexByKey : Map Text ℕ
  overlayIndexMap : OverlayIndexMap
  next : ℕ

/-- The index of the last item with each key. -/
def indexKeys (keyOf : Json → Option Text) (items : List Json) : Map Text ℕ :=
  items.zipIdx.foldl (fun m e =>
    match keyOf e.1 with
    | none => m
    | some key => m.set key e.2) Map.empty

/-- One round of the loop over the overlay. -/
def appendUnique (keyOf : Json → Option Text) (st : UniqueState) (entry : Json) : UniqueState :=
  let push := fun indexByKey =>
    { out := st.out ++ [entry]
      indexByKey := indexByKey
      overlayIndexMap := st.overlayIndexMap.set st.next st.out.length
      next := st.next + 1 }
  match keyOf entry with
  | none => push st.indexByKey
  | some key =>
    match st.indexByKey.get? key with
    | none => push (st.indexByKey.set key st.out.length)
    | some existing =>
      { out := st.out.set existing entry
        indexByKey := st.indexByKey
        overlayIndexMap := st.overlayIndexMap.set st.next existing
        next := st.next + 1 }

def appendWithUniqueKey (base overlay : List Json) (keyOf : Json → Option Text) :
    SequenceMergeResult :=
  let st := overlay.foldl (appendUnique keyOf)
    { out := base, indexByKey := indexKeys keyOf base, overlayIndexMap := Map.empty, next := 0 }
  { value := st.out, overlayIndexMap := some st.overlayIndexMap }

/-- What the loop of `appendScalarDedup` changes. -/
structure DedupState where
  out : List Json
  seen : List Text
  overlayIndexMap : OverlayIndexMap
  next : ℕ

/-- One round of the loop over the overlay. -/
def appendNew (st : DedupState) (item : Json) : DedupState :=
  if dedupKey item ∈ st.seen then { st with next := st.next + 1 }
  else
    { out := st.out ++ [item]
      seen := setAdd st.seen (dedupKey item)
      overlayIndexMap := st.overlayIndexMap.set st.next st.out.length
      next := st.next + 1 }

def appendScalarDedup (base overlay : List Json) : SequenceMergeResult :=
  let st := overlay.foldl appendNew
    { out := base, seen := (base.map dedupKey).foldl setAdd [], overlayIndexMap := Map.empty, next := 0 }
  { value := st.out, overlayIndexMap := some st.overlayIndexMap }

def appendKeyedList (base overlay : List Json) : SequenceMergeResult :=
  appendWithUniqueKey base overlay keyedListKey

def plainAppend (base overlay : List Json) : SequenceMergeResult where
  value := base ++ overlay
  overlayIndexMap := some (Map.ofEntries ((List.range overlay.length).map fun oi =>
    (oi, base.length + oi)))

def mergeSequences (base overlay : List Json) (path : MergePath) : SequenceMergeResult :=
  match resolveSequenceStrategy path with
  | .replace => ⟨overlay, none⟩
  | .ports => appendWithUniqueKey base overlay portUniqueKey
  | .volumes => appendWithUniqueKey base overlay volumeTargetKey
  | .secretsConfigs => appendWithUniqueKey base overlay secretConfigKey
  | .scalarDedup => appendScalarDedup base overlay
  | .keyedList => appendKeyedList base overlay
  | .plainAppend => plainAppend base overlay

/-! ## Nodes -/

/-- The entries that are set in `sequenceIndexMaps`, in order. -/
abbrev SequenceIndexLog := List (Text × OverlayIndexMap)

def mergeArrayNodes (base overlay : List Json) (path : MergePath) : Json × SequenceIndexLog :=
  let merged := mergeSequences base overlay path
  (.arr merged.value, match merged.overlayIndexMap with
    | none => []
    | some indexMap => [(presentationPath path, indexMap)])

/-- Tags of the base have no effect. -/
def untagged (base : Option Json) : Option Json :=
  base.map fun b => if isComposeTaggedValue b then resolveComposeTags b else b

def isDualPath (path : MergePath) : Bool := mapListDualityAttrs.contains (leafAttribute path)

/-- The mapping of the base into which a mapping of the overlay is merged; `none` when the overlay
takes the place of the base. -/
def mappingBase (base : Option Json) (path : MergePath) : Option Fields :=
  match base with
  | none => none
  | some b => if isDualPath path then normalizeKeyedList b else b.fields?

/-- The entry of a merged key; `none` deletes it. -/
def putMerged (out : Fields) (key : String) : Option Json → Fields
  | none => deleteProp out key
  | some merged => setProp out key merged

mutual

/-- Merge a node of the overlay into what the base has at the path. -/
def mergeNodes (base : Option Json) : Json → MergePath → Option Json × SequenceIndexLog
  | .obj fields, path =>
    match composeTag? fields with
    | some .reset => (none, [])
    | some .override => (some (resolveComposeTags (.obj fields)), [])
    | none =>
      match mappingBase (untagged base) path with
      | none => (some (.obj fields), [])
      | some out =>
        let merged := mergeMappings out fields path
        (some (.obj merged.1), merged.2)
  | .arr items, path =>
    match untagged base with
    | some (.arr baseItems) =>
      let merged := mergeArrayNodes baseItems items path
      (some merged.1, merged.2)
    | some (.obj baseFields) =>
      -- in the map form the values of the list are texts or `null`, which win over the base
      if isDualPath path then
        (some (.obj (assignInto (assignInto [] baseFields) (items.foldl assignListEntry []))), [])
      else (some (.arr items), [])
    | _ => (some (.arr items), [])
  | scalar, _ => (some scalar, [])

def mergeMappings (out : Fields) : Fields → MergePath → Fields × SequenceIndexLog
  | [], _ => (out, [])
  | (key, value) :: rest, path =>
    let merged := mergeNodes (out.lookup key) value (path ++ [key])
    let next := mergeMappings (putMerged out key merged.1) rest path
    (next.1, merged.2 ++ next.2)

end

/-- The value is neither a list nor a mapping. -/
def isScalar : Json → Bool
  | .arr _ | .obj _ => false
  | _ => true

theorem mergeNodes_scalar (base : Option Json) {v : Json} (h : isScalar v = true)
    (path : MergePath) : mergeNodes base v path = (some v, []) := by
  cases v with
  | arr items => cases h
  | obj fields => cases h
  | _ => rfl

theorem mergeMappings_scalars {fields : Fields} (h : ∀ e ∈ fields, isScalar e.2 = true)
    (out : Fields) (path : MergePath) : mergeMappings out fields path = (assignInto out fields, []) := by
  induction fields generalizing out with
  | nil => rfl
  | cons e rest ih =>
    obtain ⟨key, value⟩ := e
    rw [mergeMappings, mergeNodes_scalar _ (h _ List.mem_cons_self)]
    exact ih (fun e he => h e (List.mem_cons_of_mem _ he)) _

theorem mergeMappings_listEntries (items : List Json) (out : Fields) (path : MergePath) :
    mergeMappings out (items.foldl assignListEntry []) path =
      (assignInto out (items.foldl assignListEntry []), []) := by
  refine mergeMappings_scalars ?_ out path
  refine List.foldlRecOn (motive := fun fields : Fields => ∀ e ∈ fields, isScalar e.2 = true) items _
    (fun e he => absurd he List.not_mem_nil) fun fields hfields item _ e he => ?_
  cases item with
  | str s =>
    obtain rfl | he := mem_setProp he
    · dsimp only
      cases listEntryValue s.toList <;> rfl
    · exact hfields e he
  | _ => exact hfields e he

/-! ## Presentation -/

def mergeKeyOrder (baseOrder overlayOrder : List String) (merged : Fields) : List String :=
  let authored := (baseOrder ++ overlayOrder).foldl (fun result key =>
    if hasProp merged key then setAdd result key else result) []
  (merged.map Prod.fst).foldl setAdd authored

/-- The first `[digits]` of a path: what stands before it, the digits, and what stands after it. -/
def findIndex : Text → Option (Text × Text × Text)
  | [] => none
  | ch :: rest =>
    let digits := rest.takeWhile Char.isDigit
    match rest.dropWhile Char.isDigit with
    | ']' :: tail =>
      if ch = '[' ∧ digits ≠ [] then some ([], digits, tail)
      else (findIndex rest).map fun found => (ch :: found.1, found.2)
    | _ => (findIndex rest).map fun found => (ch :: found.1, found.2)

def isLineTerminator (ch : Char) : Bool := [0x0a, 0x0d, 0x2028, 0x2029].contains ch.toNat

/-- `/^(.*?)\[(\d+)\](.*)$/`. -/
def matchIndexedPath (path : Text) : Option (Text × Text × Text) :=
  if path.any isLineTerminator then none else findIndex path

def shiftIndexedPath (path : Text) (sequenceIndexMaps : Map Text OverlayIndexMap) : Option Text :=
  match matchIndexedPath path with
  | none => some path
  | some (head, index, rest) =>
    match sequenceIndexMaps.get? head with
    | none => some path
    | some indexMap => (indexMap.get? (ofDigits 10 index)).map fun mapped =>
      head ++ '[' :: Nat.toDigits 10 mapped ++ ']' :: rest

/-- The mark of a path that stands for the key of a node. -/
def keySuffix : Text := "#key".toList

def shiftPresentationPaths {ν : Type} (overlayPaths : List (String × ν))
    (sequenceIndexMaps : Map Text OverlayIndexMap) : List (String × ν) :=
  overlayPaths.foldl (fun out e =>
    let rawPath := e.1.toList
    let isKey := keySuffix.isSuffixOf rawPath
    let path := if isKey then rawPath.take (rawPath.length - 4) else rawPath
    match shiftIndexedPath path sequenceIndexMaps with
    | none => out
    | some shifted =>
      setProp out (String.ofList (if isKey then shifted ++ keySuffix else shifted)) e.2) []

def mergePresentation (base overlay : ComposePresentation) (mergedData : Fields)
    (sequenceIndexMaps : Map Text OverlayIndexMap) : ComposePresentation :=
  let blankLines := assignInto (base.blankLines.getD [])
    (shiftPresentationPaths (overlay.blankLines.getD []) sequenceIndexMaps)
  { keyOrder := mergeKeyOrder base.keyOrder overlay.keyOrder mergedData
    comments := assignInto base.comments (shiftPresentationPaths overlay.comments sequenceIndexMaps)
    blankLines := if blankLines.length > 0 then some blankLines else none
    documentCommentBefore := truthyString (base.documentCommentBefore.or overlay.documentCommentBefore)
    documentComment := truthyString (base.documentComment.or overlay.documentComment)
    editorView := overlay.editorView.or base.editorView }

/-! ## Documents -/

def resolveDocumentTags (doc : ComposeDocument) : ComposeDocument where
  data := (resolveComposeTags (.obj doc.data)).fields?.getD []
  presentation := doc.presentation

def mergeComposeOverlay (base : ComposeDocument) (overlay : Option ComposeDocument) :
    ComposeDocument :=
  let baseDoc := resolveDocumentTags (normalizeCompose base)
  match overlay with
  | none => baseDoc
  | some overlay =>
    let overlayDoc := normalizeCompose overlay
    if isBlankComposeData overlayDoc.data && overlayDoc.presentation.comments.isEmpty then baseDoc
    else
      let merged := mergeMappings baseDoc.data overlayDoc.data []
      { data := merged.1
        presentation := mergePresentation baseDoc.presentation overlayDoc.presentation merged.1
          (Map.ofEntries merged.2) }

/-- The documents in order, each merged into the result of those before it. -/
def mergeComposeDocuments : List ComposeDocument → ComposeDocument
  | [] => emptyComposeDocument
  | first :: rest =>
    rest.foldl (fun acc doc => mergeComposeOverlay acc (some doc))
      (resolveDocumentTags (normalizeCompose first))

end TurboPanel.Compose
