import ShellSettings.Json.Record

/-!
# Errors that a host reports

A code that programs go by, one line for people, and whatever else the host
wants to say.
-/

namespace ShellSettings

inductive HostErrorCode where
  | invalidRequest
  | unsupportedProtocol
  | unknownOperation
  | notFound
  | storageFailure
  | rejected
deriving DecidableEq, Repr

namespace HostErrorCode

def table : List (String × HostErrorCode) :=
  [("INVALID_REQUEST", .invalidRequest), ("UNSUPPORTED_PROTOCOL", .unsupportedProtocol),
    ("UNKNOWN_OPERATION", .unknownOperation), ("NOT_FOUND", .notFound),
    ("STORAGE_FAILURE", .storageFailure), ("REJECTED", .rejected)]

def name : HostErrorCode → String
  | .invalidRequest => "INVALID_REQUEST"
  | .unsupportedProtocol => "UNSUPPORTED_PROTOCOL"
  | .unknownOperation => "UNKNOWN_OPERATION"
  | .notFound => "NOT_FOUND"
  | .storageFailure => "STORAGE_FAILURE"
  | .rejected => "REJECTED"

def read {σ : Type} [Source σ] (s : σ) : Read HostErrorCode := Read.name table s

end HostErrorCode

structure HostError where
  code : HostErrorCode
  message : String
  data : Option Json := none

namespace HostError

variable {σ : Type} [Source σ]

def display (e : HostError) : String := e.code.name ++ ": " ++ e.message

def invalidRequest (message : String) : HostError := ⟨.invalidRequest, message, none⟩

def storageFailure (message : String) : HostError := ⟨.storageFailure, message, none⟩

def rejected (message : String) : HostError := ⟨.rejected, message, none⟩

def unknownOperation (op : String) : HostError :=
  ⟨.unknownOperation, "unknown operation: " ++ op, some (.obj [("op", .str op)])⟩

def unsupportedProtocol (version low high : Int32) : HostError where
  code := .unsupportedProtocol
  message := "protocol_version " ++ toString version.toInt ++ " is outside supported range [" ++
    toString low.toInt ++ ", " ++ toString high.toInt ++ "]"
  data := some (.obj
    [("max", .int high.toInt), ("min", .int low.toInt), ("requested", .int version.toInt)])

inductive Member where
  | code (c : HostErrorCode)
  | message (s : String)
  | data (v : Option Json)

def Member.read (field : String) (s : σ) : Read Member :=
  match field with
  | "code" => .code <$> HostErrorCode.read s
  | "message" => .message <$> Read.text s
  | _ => .data <$> Read.optional Read.json s

def record : Record σ Member where
  title := "struct HostError"
  fields := ["code", "message", "data"]
  read := Member.read
  other := Record.passOver

def ofMembers (ms : List Member) : Read HostError := do
  let code ← Read.require "code" (ms.findSome? fun | .code c => some c | _ => none)
  let message ← Read.require "message" (ms.findSome? fun | .message s => some s | _ => none)
  return { code, message, data := (ms.findSome? fun | .data v => some v | _ => none).getD none }

def read (s : σ) : Read HostError := do ofMembers (← record.ofMapOrSequence [] s)

def toJson (e : HostError) : Json :=
  .obj ([("code", .str e.code.name), ("message", .str e.message)] ++
    (e.data.map fun v => ("data", v)).toList)

end HostError

end ShellSettings
