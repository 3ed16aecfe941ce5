import TurboPanel.Compose.Json

/-!
# Networks that span servers

The model of `src/features/fabric/spanning.ts`. A network spans when the document declares it with
`driver: overlay` and the services that join it, or the platform attachments, are on two or more
servers.
-/

namespace TurboPanel.Fabric

open Js Compose

structure SpanningSlot where
  serviceId : String
  serverId : String

structure SpanningServiceRow where
  id : String
  composeServiceName : String

structure PlatformAttachment where
  serverId : String
  networkKeys : List String

/-- `entry.driver.trim() === 'overlay'`, for an entry that is a mapping with a text there. -/
def isOverlayEntry (entry : Json) : Bool :=
  match (entry.fields?.bind (·.lookup "driver")).bind Json.str? with
  | none => false
  | some driver => trim driver.toList == "overlay".toList

def readOverlayDeclaredNetworkKeys (document : ComposeDocument) : List String :=
  match (document.data.lookup "networks").bind Json.fields? with
  | none => []
  | some networks => (networks.filter fun e => isOverlayEntry e.2).map Prod.fst

/-- The keys of the networks that a service joins; `none` is a service that the document does not
have. -/
def composeServiceNetworkKeys (body : Option Json) : List String :=
  match (body.bind Json.fields?).bind (·.lookup "networks") with
  | none => ["default"]
  | some (.arr entries) => entries.filterMap Json.str?
  | some (.obj networks) => networks.map Prod.fst
  | some _ => ["default"]

/-- `isPlainObject(document.data.services) ? document.data.services : {}`. -/
def documentServices (document : ComposeDocument) : Fields :=
  ((document.data.lookup "services").bind Json.fields?).getD []

/-- Put servers into the set under a key; a key that is not there has the empty set. -/
def addServers (m : Map String (List String)) (key : String) (serverIds : List String) :
    Map String (List String) :=
  m.set key (serverIds.foldl setAdd ((m.get? key).getD []))

def nameByServiceId (serviceRows : List SpanningServiceRow) : Map String String :=
  Map.ofEntries (serviceRows.map fun row => (row.id, row.composeServiceName))

/-- The name of the service of a slot; the empty name is no name. -/
def slotServiceName (serviceRows : List SpanningServiceRow) (slot : SpanningSlot) :
    Option String :=
  truthyString ((nameByServiceId serviceRows).get? slot.serviceId)

def serversByServiceName (slots : List SpanningSlot) (serviceRows : List SpanningServiceRow) :
    Map String (List String) :=
  slots.foldl (fun m slot =>
    match slotServiceName serviceRows slot with
    | none => m
    | some name => addServers m name [slot.serverId]) Map.empty

def serversByNetworkFromSlots (document : ComposeDocument) (slots : List SpanningSlot)
    (serviceRows : List SpanningServiceRow) : Map String (List String) :=
  (documentServices document).foldl (fun m e =>
    match (serversByServiceName slots serviceRows).get? e.1 with
    | none | some [] => m
    | some memberServers =>
      (composeServiceNetworkKeys (some e.2)).foldl (fun m key => addServers m key memberServers) m)
    Map.empty

def addPlatformAttachmentServers (serversByNetwork : Map String (List String))
    (platformAttachments : List PlatformAttachment) : Map String (List String) :=
  platformAttachments.foldl (fun m attachment =>
    attachment.networkKeys.foldl (fun m key => addServers m key [attachment.serverId]) m)
    serversByNetwork

def collectSpanningComposeNetworkKeys (c : Collation) (document : ComposeDocument)
    (slots : List SpanningSlot) (serviceRows : List SpanningServiceRow)
    (platformAttachments : List PlatformAttachment) : List String :=
  let servers := slots.map (·.serverId) ++ platformAttachments.map (·.serverId)
  if (servers.foldl setAdd []).length ≤ 1 then []
  else
    let serversByNetwork := addPlatformAttachmentServers
      (serversByNetworkFromSlots document slots serviceRows) platformAttachments
    let declared := readOverlayDeclaredNetworkKeys document
    sortKeys c ((serversByNetwork.entries.filter fun e =>
      decide (e.2.length > 1) && declared.contains e.1).map Prod.fst)

def participatingServerIdsForNetwork (c : Collation) (document : ComposeDocument)
    (slots : List SpanningSlot) (serviceRows : List SpanningServiceRow) (networkKey : String)
    (platformAttachments : List PlatformAttachment) : List String :=
  let joined := slots.filter fun slot =>
    match slotServiceName serviceRows slot with
    | none => false
    | some name =>
      (composeServiceNetworkKeys ((documentServices document).lookup name)).contains networkKey
  let attached := platformAttachments.filter fun a => a.networkKeys.contains networkKey
  sortKeys c ((joined.map (·.serverId) ++ attached.map (·.serverId)).foldl setAdd [])

end TurboPanel.Fabric
