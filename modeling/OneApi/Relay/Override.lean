import OneApi.Lib.Go
import Mathlib.Data.List.AList

/-!
# Parameter and header overrides

The overrides of a channel, after `relay/common/override.go`: an override of headers, and an override of
the request body whose operations can also set, copy and delete header overrides.

A header map is an `AList`, its entries in the order in which Go iterates over the map.  What the operations
on headers do is written out.  What the JSON library does to the body (paths, wildcards, conditions) is
taken from an `Engine`, about which nothing is assumed.  Values of a header override are the texts that
`%v` prints, and header names are ASCII.  The audit of operations is left out, and so is the name of the
operation in front of an error.
-/

namespace OneApi.Relay

open OneApi.Lib

abbrev Headers := AList fun _ : String => String

def Headers.get (headers : Headers) (name : String) : Option String := AList.lookup name headers

/-! ## Header maps -/

def normalizeHeaderContextKey (key : String) : String := Go.trimSpace key.toLower

def isHeaderPassthroughRuleKeyForOverride (key : String) : Bool :=
  let key := normalizeHeaderContextKey key
  key = "*" || "re:".toList.isPrefixOf key.toList || "regex:".toList.isPrefixOf key.toList

def sanitizeEntry (target : Headers) (entry : Σ _ : String, String) : Headers :=
  let normalizedKey := normalizeHeaderContextKey entry.1
  let normalizedValue := Go.trimSpace entry.2
  if normalizedKey = "" then target
  else if normalizedValue = "" then
    if isHeaderPassthroughRuleKeyForOverride normalizedKey then target.insert normalizedKey "" else target
  else target.insert normalizedKey normalizedValue

def sanitizeHeaderOverrideMap (source : Headers) : Headers := source.entries.foldl sanitizeEntry ∅

def requestEntry (target : Headers) (entry : Σ _ : String, String) : Headers :=
  let normalized := normalizeHeaderContextKey entry.1
  let value := Go.trimSpace entry.2
  if normalized = "" ∨ value = "" then target else target.insert normalized value

def buildRequestHeadersContext (headers : Headers) : Headers := headers.entries.foldl requestEntry ∅

/-! ## Operations -/

/-- A JSON value of a configuration; `number` keeps the text of the number. -/
inductive Value
  | null
  | bool (b : Bool)
  | number (text : String)
  | text (s : String)
  | list (items : List Value)
  | object (fields : List (String × Value))

mutual

/-- The text that `%v` prints; the fields of an object are listed by key. -/
def Value.print : Value → String
  | .null => "<nil>"
  | .bool b => if b then "true" else "false"
  | .number text => text
  | .text s => s
  | .list items => "[" ++ " ".intercalate (printList items) ++ "]"
  | .object fields => "map[" ++ " ".intercalate (printFields fields) ++ "]"

def printList : List Value → List String
  | [] => []
  | item :: items => item.print :: printList items

def printFields : List (String × Value) → List String
  | [] => []
  | (key, value) :: fields => (key ++ ":" ++ value.print) :: printFields fields

end

/-- The operations on the request body. -/
inductive BodyMode
  | delete
  | set
  | move
  | copy
  | prepend
  | append
  | trimPrefix
  | trimSuffix
  | ensurePrefix
  | ensureSuffix
  | trimSpace
  | toLower
  | toUpper
  | replace
  | regexReplace
  | pruneObjects
  deriving Repr, DecidableEq

inductive Mode
  | body (mode : BodyMode)
  | returnError
  | setHeader
  | deleteHeader
  | copyHeader
  | moveHeader
  | passHeaders
  | syncFields
  | unknown (mode : String)
  deriving Repr, DecidableEq

structure ConditionOperation where
  path : String
  mode : String
  value : Value := .null
  invert : Bool := false
  passMissingKey : Bool := false

structure ParamOperation where
  path : String := ""
  mode : Mode
  value : Value := .null
  keepOrigin : Bool := false
  source : String := ""
  target : String := ""
  conditions : List ConditionOperation := []
  logic : String := "OR"

/-- A parameter override: fields that are set as they are, and operations if there are any. -/
structure ParamOverride where
  legacy : List (String × Value) := []
  operations : Option (List ParamOperation) := none

def ParamOverride.isEmpty (o : ParamOverride) : Bool := o.legacy.isEmpty && o.operations.isNone

structure LastError where
  statusCode : ℤ
  message : String
  code : String
  type : String
  skipRetry : Bool

/-- What conditions and header operations can read beside the body. -/
structure OverrideContext where
  upstreamModel : String
  originalModel : String
  requestPath : String
  requestHeaders : Headers
  headerOverride : Headers
  retryIndex : ℕ
  lastError : Option LastError
  isChannelTest : Bool

/-- The JSON library on bodies of a type. -/
structure Engine (β : Type) where
  setLiteral : β → String → Value → Except String β
  checkConditions : β → OverrideContext → List ConditionOperation → String → Except String Bool
  apply : β → OverrideContext → BodyMode → ParamOperation → Except String β
  parseReturnError : Value → String
  parseHeaderPassThroughNames : Value → Except String (List String)
  read : β → String → Option Value
  write : β → String → Value → Except String β

section Headers

variable (context : OverrideContext)

/-- The header override comes first, then the header of the client. -/
def getHeaderValueFromContext (headerName : String) : Option String :=
  let headerName := normalizeHeaderContextKey headerName
  let found := fun headers : Headers =>
    (headers.get headerName).bind fun raw =>
      let value := Go.trimSpace raw
      if value = "" then none else some value
  if headerName = "" then none else (found context.headerOverride).or (found context.requestHeaders)

def splitHeaderListValue (raw : String) : List String :=
  ((raw.splitOn ",").map Go.trimSpace).filter (· ≠ "")

/-- `lo.Uniq`: the first of equal tokens stays. -/
def uniq (tokens : List String) : List String := tokens.reverse.dedup.reverse

mutual

def parseHeaderReplacementTokens : Value → Except String (List String)
  | .null => .ok []
  | .text s => .ok (splitHeaderListValue s)
  | .list items => do return uniq (← replacementTokensOfList items)
  | .object _ => .error "header replacement value must be string, array or null"
  | .bool b => .ok [if b then "true" else "false"]
  | .number text => .ok (if Go.trimSpace text = "" then [] else [Go.trimSpace text])

def replacementTokensOfList : List Value → Except String (List String)
  | [] => .ok []
  | item :: items => do return (← parseHeaderReplacementTokens item) ++ (← replacementTokensOfList items)

end

def field (mapping : List (String × Value)) (key : String) : Option Value :=
  (mapping.find? fun entry => entry.1 = key).map Prod.snd

def parseHeaderKeepOnlyDeclared (mapping : List (String × Value)) : Bool :=
  match field mapping "$keep_only_declared" with
  | some (.bool b) => b
  | _ => false

/-- The tokens that take the place of one token of the header. -/
def replaceToken (mapping : List (String × Value)) (token : String) : Except String (List String) :=
  let keepOnlyDeclared := parseHeaderKeepOnlyDeclared mapping
  let replacement := (field mapping token).or (if keepOnlyDeclared then none else field mapping "*")
  match replacement with
  | some raw => parseHeaderReplacementTokens raw
  | none => .ok (if keepOnlyDeclared then [] else [token])

def resolveHeaderOverrideValueByMapping (headerName : String) (mapping : List (String × Value)) :
    Except String (Option String) := do
  if mapping.isEmpty then throw "header value mapping cannot be empty"
  let appendTokens ← parseHeaderReplacementTokens ((field mapping "$append").getD .null)
  let sourceTokens := ((getHeaderValueFromContext context headerName).map splitHeaderListValue).getD []
  let replaced ← sourceTokens.mapM (replaceToken mapping)
  let resultTokens := uniq (replaced.flatten ++ appendTokens)
  return if resultTokens.isEmpty then none else some (",".intercalate resultTokens)

def resolveHeaderOverrideValue (headerName : String) : Value → Except String (Option String)
  | .null => .error "header value is required"
  | .object mapping => resolveHeaderOverrideValueByMapping context headerName mapping
  | value =>
    let headerValue := Go.trimSpace value.print
    .ok (if headerValue = "" then none else some headerValue)

def setHeaderOverrideInContext (headerName : String) (value : Value) (keepOrigin : Bool) :
    Except String OverrideContext := do
  let headerName := normalizeHeaderContextKey headerName
  if headerName = "" then throw "header name is required"
  let kept := (context.headerOverride.get headerName).any fun existing => Go.trimSpace existing ≠ ""
  if keepOrigin && kept then return context
  match ← resolveHeaderOverrideValue context headerName value with
  | none => return { context with headerOverride := context.headerOverride.erase headerName }
  | some headerValue =>
    return { context with headerOverride := context.headerOverride.insert headerName headerValue }

def deleteHeaderOverrideInContext (headerName : String) : Except String OverrideContext :=
  let headerName := normalizeHeaderContextKey headerName
  if headerName = "" then .error "header name is required"
  else .ok { context with headerOverride := context.headerOverride.erase headerName }

/-- `none` is a source header that does not exist, which is not an error for the callers. -/
def copyHeaderInContext (fromHeader toHeader : String) (keepOrigin : Bool) :
    Except String (Option OverrideContext) := do
  let fromHeader := normalizeHeaderContextKey fromHeader
  let toHeader := normalizeHeaderContextKey toHeader
  if fromHeader = "" ∨ toHeader = "" then throw "copy_header from/to is required"
  match getHeaderValueFromContext context fromHeader with
  | none => return none
  | some value => return some (← setHeaderOverrideInContext context toHeader (.text value) keepOrigin)

def moveHeaderInContext (fromHeader toHeader : String) (keepOrigin : Bool) :
    Except String (Option OverrideContext) := do
  let fromHeader := normalizeHeaderContextKey fromHeader
  let toHeader := normalizeHeaderContextKey toHeader
  if fromHeader = "" ∨ toHeader = "" then throw "move_header from/to is required"
  match ← copyHeaderInContext context fromHeader toHeader keepOrigin with
  | none => return none
  | some copied =>
    if fromHeader = toHeader then return some copied
    else return some (← deleteHeaderOverrideInContext copied fromHeader)

end Headers

/-- What `sync_fields` names: a header, or a path of the body. -/
inductive SyncTarget
  | json (key : String)
  | header (key : String)
  deriving Repr, DecidableEq

/-- A text without a colon is a path. -/
def parseSyncTarget (spec : String) : Except String SyncTarget :=
  let raw := Go.trimSpace spec
  if raw = "" then .error "sync_fields target is required"
  else if ':' ∉ raw.toList then .ok (.json raw)
  else
    let kind := (Go.trimSpace (String.ofList (raw.toList.takeWhile (· ≠ ':')))).toLower
    let key := Go.trimSpace (String.ofList ((raw.toList.dropWhile (· ≠ ':')).drop 1))
    if key = "" then .error ("sync_fields target key is required: " ++ raw)
    else if kind = "json" ∨ kind = "body" then .ok (.json key)
    else if kind = "header" then .ok (.header key)
    else .error ("sync_fields target prefix is invalid: " ++ raw)

section Operations

variable {β : Type} (engine : Engine β)

def readSyncTargetValue (data : β) (context : OverrideContext) : SyncTarget → Option Value
  | .json key =>
    match engine.read data key with
    | none => none
    | some .null => none
    | some (.text s) => if Go.trimSpace s = "" then none else some (.text s)
    | some value => some value
  | .header key => (getHeaderValueFromContext context key).map .text

def writeSyncTargetValue (data : β) (context : OverrideContext) (target : SyncTarget) (value : Value) :
    Except String (β × OverrideContext) :=
  match target with
  | .json key => do return (← engine.write data key value, context)
  | .header key => do return (data, ← setHeaderOverrideInContext context key value false)

/-- The side that is missing is filled from the other one. -/
def syncFieldsBetweenTargets (data : β) (context : OverrideContext) (fromSpec toSpec : String) :
    Except String (β × OverrideContext) := do
  let fromTarget ← parseSyncTarget fromSpec
  let toTarget ← parseSyncTarget toSpec
  match readSyncTargetValue engine data context fromTarget, readSyncTargetValue engine data context toTarget with
  | some value, none => writeSyncTargetValue engine data context toTarget value
  | none, some value => writeSyncTargetValue engine data context fromTarget value
  | _, _ => return (data, context)

/-- The headers of `copy_header` and `move_header` default to the path. -/
def headerOr (name path : String) : String :=
  if Go.trimSpace name = "" then Go.trimSpace path else Go.trimSpace name

/-- Headers that the client did not send are not passed. -/
def passHeaders (keepOrigin : Bool) : OverrideContext → List String → Except String OverrideContext
  | context, [] => .ok context
  | context, name :: names => do
    let copied ← copyHeaderInContext context name name keepOrigin
    passHeaders keepOrigin (copied.getD context) names

def applyMode (data : β) (context : OverrideContext) (op : ParamOperation) : Except String (β × OverrideContext) :=
  match op.mode with
  | .body mode => do return (← engine.apply data context mode op, context)
  | .returnError => .error (engine.parseReturnError op.value)
  | .setHeader => do return (data, ← setHeaderOverrideInContext context op.path op.value op.keepOrigin)
  | .deleteHeader => do return (data, ← deleteHeaderOverrideInContext context op.path)
  | .copyHeader => do
    let copied ← copyHeaderInContext context (headerOr op.source op.path) (headerOr op.target op.path) op.keepOrigin
    return (data, copied.getD context)
  | .moveHeader => do
    let moved ← moveHeaderInContext context (headerOr op.source op.path) (headerOr op.target op.path) op.keepOrigin
    return (data, moved.getD context)
  | .passHeaders => do
    let names ← engine.parseHeaderPassThroughNames op.value
    return (data, ← passHeaders op.keepOrigin context names)
  | .syncFields => syncFieldsBetweenTargets engine data context op.source op.target
  | .unknown mode => .error ("unknown operation: " ++ mode)

def applyOperations (data : β) (context : OverrideContext) :
    List ParamOperation → Except String (β × OverrideContext)
  | [] => .ok (data, context)
  | op :: ops => do
    if ← engine.checkConditions data context op.conditions op.logic then
      let (data, context) ← applyMode engine data context op
      applyOperations data context ops
    else applyOperations data context ops

def applyOperationsLegacy (data : β) : List (String × Value) → Except String β
  | [] => .ok data
  | (key, value) :: fields => do applyOperationsLegacy (← engine.setLiteral data key value) fields

/-- The body and the context after an override; the context carries the headers. -/
def applyParamOverride (data : β) (paramOverride : ParamOverride) (context : OverrideContext) :
    Except String (β × OverrideContext) := do
  let data ← applyOperationsLegacy engine data paramOverride.legacy
  applyOperations engine data context (paramOverride.operations.getD [])

end Operations

end OneApi.Relay
