import AsmLens.Bound
import AsmLens.Buffer.Basic
import AsmLens.Json.Basic
import AsmLens.Uri.Reader

/-!
# Messages from the editor

The methods that an editor may call, and their parameters. A request is answered and a
notification is not. Parameters of the wrong shape make a request fail and a notification go
unheard; members with other names are ignored.
-/

namespace AsmLens

inductive RpcError where
  | notInitialised
  | invalidRequest
  | methodNotFound
  | invalidParams
  deriving DecidableEq

def RpcError.code : RpcError → Int
  | .notInitialised => -32002
  | .invalidRequest => -32600
  | .methodNotFound => -32601
  | .invalidParams => -32602

/-- A position in a buffer that the editor asks about. -/
structure Site where
  uri : Uri
  position : Position

/-- What the editor says about itself at the start. -/
structure Greeting where
  /-- The folders of the workspace, if the editor knows of folders. -/
  folders : Option (List Uri)
  root : Option Uri
  options : Option Json

inductive Request where
  | completion (site : Site)
  | hover (site : Site)
  | signature (site : Site)
  | definition (site : Site)
  | outline (uri : Uri)
  /-- A request of the protocol that this server does not offer. -/
  | unsupported

inductive Notification where
  | initialised
  | configured (payload : Json)
  | opened (buffer : Buffer)
  | edited (uri : Uri) (edits : List Edit) (version : Int)
  | saved (uri : Uri) (text : Option Text)
  | closed (uri : Uri)

/-! ## Shapes of parameters -/

namespace Params

/-- A member that must be there. -/
def need? {α : Type} (decode : Json → Option α) (j : Json) (key : String) : Option α :=
  (j.at? key).bind decode

/-- A member that may be absent or null. -/
def may? {α : Type} (decode : Json → Option α) (j : Json) (key : String) : Option (Option α) :=
  match j.at? key with
  | none | some .null => some none
  | some v => (decode v).map some

def text? : Json → Option Text
  | .str s => some s
  | _ => none

def bool? : Json → Option Bool
  | .bool b => some b
  | _ => none

def object? : Json → Option Json
  | .obj members => some (.obj members)
  | _ => none

def word? : Json → Option Nat
  | .int n => if 0 ≤ n ∧ n < Bound.word then some n.toNat else none
  | _ => none

def int? : Json → Option Int
  | .int n => if -(Bound.signedWord : Int) ≤ n ∧ n < Bound.signedWord then some n else none
  | _ => none

def list? {α : Type} (decode : Json → Option α) : Json → Option (List α)
  | .arr items => items.mapM decode
  | _ => none

def uri? (j : Json) : Option Uri := (text? j).bind Uri.read?

def position? (j : Json) : Option Position := do
  return ⟨← need? word? j "line", ← need? word? j "character"⟩

def range? (j : Json) : Option EditorRange := do
  return ⟨← need? position? j "start", ← need? position? j "end"⟩

def document? (j : Json) : Option Uri := need? uri? j "uri"

/-- The token by which progress is reported: a number or a string. -/
def token? : Json → Option Unit
  | .str _ => some ()
  | j => (int? j).map fun _ => ()

/-- The tokens that any request may carry. -/
def tokens? (j : Json) : Option Unit := do
  let _ ← may? token? j "workDoneToken"
  let _ ← may? token? j "partialResultToken"
  return ()

def site? (j : Json) : Option Site := do
  let uri ← need? document? j "textDocument"
  let position ← need? position? j "position"
  tokens? j
  return ⟨uri, position⟩

def completionContext? (j : Json) : Option Unit := do
  let _ ← need? int? j "triggerKind"
  let _ ← may? text? j "triggerCharacter"
  return ()

def signatureContext? (j : Json) : Option Unit := do
  let _ ← need? int? j "triggerKind"
  let _ ← may? text? j "triggerCharacter"
  let _ ← need? bool? j "isRetrigger"
  return ()

def completion? (j : Json) : Option Site := do
  let site ← site? j
  let _ ← may? completionContext? j "context"
  return site

def signature? (j : Json) : Option Site := do
  let site ← site? j
  let _ ← may? signatureContext? j "context"
  return site

def outline? (j : Json) : Option Uri := do
  let uri ← need? document? j "textDocument"
  tokens? j
  return uri

def folder? (j : Json) : Option Uri := do
  let uri ← need? uri? j "uri"
  let _ ← need? text? j "name"
  return uri

def client? (j : Json) : Option Unit := do
  let _ ← need? text? j "name"
  let _ ← may? text? j "version"
  return ()

def trace? : Json → Option Unit
  | .str s => if ["off".toList, "messages".toList, "verbose".toList].contains s then some ()
      else none
  | _ => none

def greeting? (j : Json) : Option Greeting := do
  let _ ← need? object? j "capabilities"
  let _ ← may? word? j "processId"
  let _ ← may? text? j "rootPath"
  let _ ← may? trace? j "trace"
  let _ ← may? client? j "clientInfo"
  let _ ← may? text? j "locale"
  return ⟨← may? (list? folder?) j "workspaceFolders", ← may? uri? j "rootUri",
    ← may? some j "initializationOptions"⟩

def opened? (j : Json) : Option Buffer := do
  let d ← need? object? j "textDocument"
  let _ ← need? text? d "languageId"
  return ⟨← need? uri? d "uri", ← need? text? d "text", ← need? int? d "version"⟩

def edit? (j : Json) : Option Edit := do
  let _ ← may? word? j "rangeLength"
  return ⟨← may? range? j "range", ← need? text? j "text"⟩

def edited? (j : Json) : Option (Uri × List Edit × Int) := do
  let d ← need? object? j "textDocument"
  let uri ← need? uri? d "uri"
  let version ← need? int? d "version"
  return (uri, ← need? (list? edit?) j "contentChanges", version)

/-- A document that has been saved, with its text if the editor sends it. -/
def saved? (j : Json) : Option (Uri × Option Text) := do
  return (← need? document? j "textDocument", ← may? text? j "text")

def closed? (j : Json) : Option Uri := need? document? j "textDocument"

end Params

/-! ## Methods -/

inductive Method where
  /-- The request that starts a session. -/
  | initialise
  /-- The request that ends it. -/
  | shutdown
  /-- A request, with the reading of its parameters. -/
  | request (read : Json → Option Request)
  /-- A notification, with the reading of its parameters. -/
  | notification (read : Json → Option Notification)

namespace Method

def offered : List (String × Method) := [
  ("initialize", .initialise),
  ("shutdown", .shutdown),
  ("textDocument/completion", .request fun j => (Params.completion? j).map .completion),
  ("textDocument/hover", .request fun j => (Params.site? j).map .hover),
  ("textDocument/signatureHelp", .request fun j => (Params.signature? j).map .signature),
  ("textDocument/definition", .request fun j => (Params.site? j).map .definition),
  ("textDocument/documentSymbol", .request fun j => (Params.outline? j).map .outline),
  ("initialized", .notification fun j => (Params.object? j).map fun _ => .initialised),
  ("workspace/didChangeConfiguration",
    .notification fun j => (j.at? "settings").map .configured),
  ("textDocument/didOpen", .notification fun j => (Params.opened? j).map .opened),
  ("textDocument/didChange", .notification fun j =>
    (Params.edited? j).map fun (uri, edits, version) => .edited uri edits version),
  ("textDocument/didSave", .notification fun j =>
    (Params.saved? j).map fun (uri, text) => .saved uri text),
  ("textDocument/didClose", .notification fun j => (Params.closed? j).map .closed)]

/-- Requests about a position that the protocol knows and this server does not offer. -/
def unofferedSites : List String := [
  "textDocument/declaration", "textDocument/typeDefinition", "textDocument/implementation",
  "textDocument/references", "textDocument/documentHighlight", "textDocument/prepareRename",
  "textDocument/prepareCallHierarchy", "textDocument/prepareTypeHierarchy",
  "textDocument/moniker", "textDocument/linkedEditingRange", "textDocument/rename",
  "textDocument/onTypeFormatting"]

/-- Requests about a document that the protocol knows and this server does not offer. -/
def unofferedDocuments : List String := [
  "textDocument/documentLink", "textDocument/codeLens", "textDocument/foldingRange",
  "textDocument/selectionRange", "textDocument/semanticTokens/full",
  "textDocument/semanticTokens/full/delta", "textDocument/semanticTokens/range",
  "textDocument/inlineValue", "textDocument/inlayHint", "textDocument/diagnostic",
  "textDocument/codeAction", "textDocument/documentColor", "textDocument/colorPresentation",
  "textDocument/formatting", "textDocument/rangeFormatting", "textDocument/willSaveWaitUntil"]

/-- Other requests that the protocol knows and this server does not offer. -/
def unofferedOthers : List String := [
  "callHierarchy/incomingCalls", "callHierarchy/outgoingCalls", "typeHierarchy/supertypes",
  "typeHierarchy/subtypes", "documentLink/resolve", "codeLens/resolve", "inlayHint/resolve",
  "completionItem/resolve", "codeAction/resolve", "workspace/diagnostic", "workspace/symbol",
  "workspaceSymbol/resolve", "workspace/willCreateFiles", "workspace/willRenameFiles",
  "workspace/willDeleteFiles", "workspace/executeCommand"]

def ofName? (name : Text) : Option Method :=
  let isAmong (names : List String) : Bool := names.any (·.toList == name)
  match offered.find? (fun (n, _) => n.toList == name) with
  | some (_, m) => some m
  | none =>
    if isAmong unofferedSites then
      some (.request fun j => (Params.site? j).map fun _ => .unsupported)
    else if isAmong unofferedDocuments then
      some (.request fun j => (Params.outline? j).map fun _ => .unsupported)
    else if isAmong unofferedOthers then
      some (.request fun j => (Params.object? j).map fun _ => .unsupported)
    else none

end Method

end AsmLens
