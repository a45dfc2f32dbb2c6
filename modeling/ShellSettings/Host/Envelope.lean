import ShellSettings.Catalog.Feed
import ShellSettings.Document.Codec
import ShellSettings.Host.Error

/-!
# Requests, responses and messages

What goes over the wire between the settings client and the host that owns the
durable document. A request is answered by a response or, for a save, later by a
message; persist results and change notifications share one ordered stream.
-/

namespace ShellSettings

namespace Protocol

def low : Int32 := 1

def high : Int32 := 1

def loadOp : String := "load"

def persistOp : String := "persist"

end Protocol

variable {σ : Type} [Source σ]

-- ---------------------------------------------------------------------------
-- Requests
-- ---------------------------------------------------------------------------

structure HostRequest where
  version : Int32
  op : String
  id : String
  payload : Json

namespace HostRequest

def load (id : String) (path : Option String) : HostRequest where
  version := Protocol.high
  op := Protocol.loadOp
  id := id
  payload := .obj (path.map fun p => ("path", .str p)).toList

def persist (id : String) (d : Document) (digest : String) : HostRequest where
  version := Protocol.high
  op := Protocol.persistOp
  id := id
  payload := .obj [("digest", .str digest), ("document", d.toValue)]

def path? (r : HostRequest) : Option String := (r.payload.get? "path").bind Json.string?

def digest? (r : HostRequest) : Option String := (r.payload.get? "digest").bind Json.string?

def document? (r : HostRequest) : Read (Option Document) :=
  match r.payload.get? "document" with
  | none => .ok none
  | some v => some <$> Document.ofJson? v

/-- The document of a save request, if there is one and its digest is the one claimed. -/
def savable (r : HostRequest) : Except HostError Document :=
  match r.document? with
  | .error e => .error (.invalidRequest e.message)
  | .ok none => .error (.invalidRequest "persist without document")
  | .ok (some d) =>
    if r.digest? = some d.digest then .ok d
    else .error (.invalidRequest "document digest mismatch")

inductive Member where
  | version (v : Int32)
  | op (s : String)
  | id (s : String)
  | payload (v : Json)

def Member.read (field : String) (s : σ) : Read Member :=
  match field with
  | "protocol_version" => .version <$> Read.int32 s
  | "op" => .op <$> Read.text s
  | "request_id" => .id <$> Read.text s
  | _ => .payload <$> Read.json s

def record : Record σ Member where
  title := "struct HostRequest"
  fields := ["protocol_version", "op", "request_id", "payload"]
  read := Member.read
  other := Record.passOver

def ofMembers (ms : List Member) : Read HostRequest := do
  let version ← Read.require "protocol_version"
    (ms.findSome? fun | .version v => some v | _ => none)
  let op ← Read.require "op" (ms.findSome? fun | .op s => some s | _ => none)
  let id ← Read.require "request_id" (ms.findSome? fun | .id s => some s | _ => none)
  let payload ← Read.require "payload" (ms.findSome? fun | .payload v => some v | _ => none)
  return { version, op, id, payload }

def read (s : σ) : Read HostRequest := do ofMembers (← record.ofMapOrSequence [] s)

def toJson (r : HostRequest) : Json :=
  .obj [("protocol_version", .int r.version.toInt), ("op", .str r.op), ("request_id", .str r.id),
    ("payload", r.payload)]

end HostRequest

-- ---------------------------------------------------------------------------
-- Responses
-- ---------------------------------------------------------------------------

structure HostResponse where
  version : Int32
  requestId : String
  ok : Bool
  payload : Option Json := none
  error : Option HostError := none

namespace HostResponse

def success (version : Int32) (requestId : String) (payload : Json) : HostResponse :=
  ⟨version, requestId, true, some payload, none⟩

def failure (version : Int32) (requestId : String) (error : HostError) : HostResponse :=
  ⟨version, requestId, false, none, some error⟩

inductive Member where
  | version (v : Int32)
  | requestId (s : String)
  | ok (b : Bool)
  | payload (v : Option Json)
  | error (e : Option HostError)

def Member.read (field : String) (s : σ) : Read Member :=
  match field with
  | "protocol_version" => .version <$> Read.int32 s
  | "request_id" => .requestId <$> Read.text s
  | "ok" => .ok <$> Read.bool s
  | "payload" => .payload <$> Read.optional Read.json s
  | _ => .error <$> Read.optional HostError.read s

def record : Record σ Member where
  title := "struct HostResponse"
  fields := ["protocol_version", "request_id", "ok", "payload", "error"]
  read := Member.read
  other := Record.passOver

def ofMembers (ms : List Member) : Read HostResponse := do
  let version ← Read.require "protocol_version"
    (ms.findSome? fun | .version v => some v | _ => none)
  let requestId ← Read.require "request_id"
    (ms.findSome? fun | .requestId s => some s | _ => none)
  let ok ← Read.require "ok" (ms.findSome? fun | .ok b => some b | _ => none)
  return {
    version, requestId, ok
    payload := (ms.findSome? fun | .payload v => some v | _ => none).getD none
    error := (ms.findSome? fun | .error e => some e | _ => none).getD none }

def read (s : σ) : Read HostResponse := do ofMembers (← record.ofMapOrSequence [] s)

def toJson (r : HostResponse) : Json :=
  .obj ([("protocol_version", .int r.version.toInt), ("request_id", .str r.requestId),
      ("ok", .bool r.ok)] ++
    (r.payload.map fun v => ("payload", v)).toList ++
    (r.error.map fun e => ("error", e.toJson)).toList)

end HostResponse

-- ---------------------------------------------------------------------------
-- Messages
-- ---------------------------------------------------------------------------

inductive HostMessage where
  -- A save has been settled.
  | persistResult (requestId : String) (ok : Bool) (error : Option HostError)
  -- The durable document changed, for whatever reason.
  | changed (document : Document)
  -- A catalog was published anew.
  | catalogUpdated (feed : Feed)

namespace HostMessage

def persisted (requestId : String) : HostMessage := .persistResult requestId true none

def persistFailed (requestId : String) (error : HostError) : HostMessage :=
  .persistResult requestId false (some error)

inductive Tag where
  | persistResult
  | changed
  | catalogUpdated
deriving DecidableEq, Repr

def tagKey : String := "kind"

namespace Tag

def table : List (String × Tag) :=
  [("persist_result", .persistResult), ("changed", .changed), ("catalog_updated", .catalogUpdated)]

def read (s : σ) : Read Tag := do Read.variant table (← Read.textAs "variant identifier" s)

end Tag

/-- Finds the tag among the members and sets the others aside, in their order. -/
def splitTag : Option Tag → List (String × σ) → Read (Option Tag × List (String × Json))
  | tag, [] => .ok (tag, [])
  | tag, (key, s) :: rest =>
    if key = tagKey then
      if tag.isSome then .error (.duplicateField tagKey)
      else do splitTag (some (← Tag.read s)) rest
    else do
      let v ← Source.whole s
      let (tag, members) ← splitTag tag rest
      return (tag, (key, v) :: members)

/-- The tag of a message and what it carries. A sequence begins with the tag. -/
def readTagged (s : σ) : Read (Tag × SetAside) :=
  match Source.view s with
  | .map members stop => do
    let (tag, members) ← splitTag none members
    Read.finish stop.fault?
    return (← Read.require tagKey tag, ⟨.obj members⟩)
  | .sequence [] fault => do
    Read.finish fault
    .error (.missingField tagKey)
  | .sequence (first :: items) fault => do
    let tag ← Tag.read first
    let items ← items.mapM Source.whole
    Read.finish fault
    return (tag, ⟨.arr items⟩)
  | v => .error (v.mismatch "internally tagged enum HostMessage")

inductive ResultMember where
  | requestId (s : String)
  | ok (b : Bool)
  | error (e : Option HostError)

def resultRecord : Record σ ResultMember where
  title := "struct variant HostMessage::PersistResult"
  fields := ["request_id", "ok", "error"]
  read field s :=
    match field with
    | "request_id" => .requestId <$> Read.text s
    | "ok" => .ok <$> Read.bool s
    | _ => .error <$> Read.optional HostError.read s
  other := Record.passOver

def readResult (s : σ) : Read HostMessage := do
  let ms ← resultRecord.ofMapOrSequence ["error"] s
  let requestId ← Read.require "request_id"
    (ms.findSome? fun | .requestId s => some s | _ => none)
  let ok ← Read.require "ok" (ms.findSome? fun | .ok b => some b | _ => none)
  return .persistResult requestId ok
    ((ms.findSome? fun | .error e => some e | _ => none).getD none)

def changedRecord : Record σ Document where
  title := "struct variant HostMessage::Changed"
  fields := ["document"]
  read _ s := Document.read s
  other := Record.passOver

def readChanged (s : σ) : Read HostMessage := do
  let ds ← changedRecord.ofMapOrSequence [] s
  return .changed (← Read.require "document" ds.head?)

def catalogRecord : Record σ Feed where
  title := "struct variant HostMessage::CatalogUpdated"
  fields := ["feed"]
  read _ s := Feed.read s
  other := Record.passOver

def readCatalog (s : σ) : Read HostMessage := do
  let feeds ← catalogRecord.ofMapOrSequence [] s
  return .catalogUpdated (← Read.require "feed" feeds.head?)

def read (s : σ) : Read HostMessage := do
  let (tag, content) ← readTagged s
  match tag with
  | .persistResult => readResult content
  | .changed => readChanged content
  | .catalogUpdated => readCatalog content

def toJson : HostMessage → Json
  | .persistResult requestId ok error =>
    .obj ([(tagKey, .str "persist_result"), ("request_id", .str requestId), ("ok", .bool ok)] ++
      (error.map fun e => ("error", e.toJson)).toList)
  | .changed document => .obj [(tagKey, .str "changed"), ("document", document.toJson)]
  | .catalogUpdated feed => .obj [(tagKey, .str "catalog_updated"), ("feed", feed.toJson)]

end HostMessage

end ShellSettings
