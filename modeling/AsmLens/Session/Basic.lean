import AsmLens.Assist.Encode
import AsmLens.Session.Rebuild
import AsmLens.Session.Request
import AsmLens.Settings

/-!
# Sessions

A session serves one editor. It keeps the open buffers and their snapshots, answers requests from
them, and has buffers rebuilt when they are opened, edited or saved. An edit is followed by a
rebuild only after a delay, and only if no later edit of the buffer has come in the meantime.

Handling a message takes one step. Rebuilds and delays that it causes are left in the session,
to be carried on afterwards.
-/

namespace AsmLens

/-- What has been asked of the assembler. -/
inductive AssemblerCall where
  | configured (config : AssemblerConfig)
  | assembled (request : AssemblyRequest)

/-- A delay after an edit. -/
structure Timer where
  deadline : Nat
  uri : Uri
  /-- The number of the edit among those of its buffer. -/
  edit : Nat

/-- A rebuild that is on its way. A held one waits until it is let go on. -/
structure Job where
  rebuild : Rebuild
  held : Bool := false

inductive Lifecycle where
  | fresh
  | serving
  | stopped
  deriving DecidableEq

/-- The state of a session. Notices and calls are kept in the order in which they were made. -/
structure Session where
  lifecycle : Lifecycle := .fresh
  workspace : Workspace := {}
  settings : Settings := {}
  roots : List Uri := []
  /-- How many edits of each buffer have been followed by a delay. -/
  edits : List (Uri × Nat) := []
  /-- The time in milliseconds. -/
  clock : Nat := 0
  timers : List Timer := []
  jobs : List Job := []
  notices : List Notice := []
  calls : List AssemblerCall := []

inductive Reply where
  | silent
  | result (value : Json)
  | refused (error : RpcError)

namespace Session

def notify (s : Session) (n : Notice) : Session := { s with notices := s.notices ++ [n] }

/-- The session with other settings, of which the assembler is told. -/
def applySettings (s : Session) (settings : Settings) : Session :=
  { s with settings := settings, calls := s.calls ++ [.configured settings.assembler] }

def enqueue (s : Session) (uri : Uri) : Session :=
  { s with jobs := s.jobs ++ [{ rebuild := { uri } }] }

/-- The snapshot of a buffer, which is empty before its first rebuild has ended. -/
def snapshot (s : Session) (uri : Uri) : Snapshot :=
  (s.workspace.projects.get? uri).getD { uri, generation := 0 }

/-- Start a rebuild: it reads its buffer and the assembler runs. -/
def startJob (around : Surroundings) (s : Session) (r : Rebuild) : Session :=
  let (w, r) := r.start around s.workspace
  let s := { s with workspace := w }
  match r.stage with
  | .running b _ =>
    { s with
      calls := s.calls ++ [.assembled b.request]
      jobs := s.jobs ++ [⟨r, around.waits b.request⟩] }
  | _ => s

/-! ## Requests -/

/-- Answer a question about a buffer from its text and its snapshot. A buffer that is not open
has no answer. -/
def ask (s : Session) (uri : Uri) (answer : Snapshot → Text → Json) : Json :=
  match s.workspace.buffers.text? uri with
  | some text => answer (s.snapshot uri) text
  | none => .null

def outline (s : Session) (uri : Uri) : Json :=
  let snapshot := s.snapshot uri
  match snapshot.mainFile? with
  | some file => Outline.toJson snapshot.catalogue file
  | none => .arr []

def answer (s : Session) : Request → Reply
  | .completion ⟨uri, p⟩ => .result (s.ask uri fun snapshot text =>
      Json.ofList CompletionItem.toJson (Completion.provide snapshot text p))
  | .hover ⟨uri, p⟩ => .result (s.ask uri fun snapshot text =>
      Json.ofOption Hover.toJson (Hover.provide? snapshot text p))
  | .signature ⟨uri, p⟩ => .result (s.ask uri fun snapshot text =>
      Json.ofOption SignatureHint.toJson (SignatureHint.provide? snapshot text p))
  | .definition ⟨uri, p⟩ => .result (s.ask uri fun snapshot text =>
      Json.ofOption Location.toJson (Definition.provide? snapshot text p))
  | .outline uri => .result (s.outline uri)
  | .unsupported => .refused .methodNotFound

def capabilities : Json :=
  Json.record [
    ("textDocumentSync", Json.record [("openClose", .bool true), ("change", .nat 1),
      ("save", .bool true)]),
    ("completionProvider", Json.record [
      ("triggerCharacters", Json.ofList Json.string [".", "#", ":"])]),
    ("hoverProvider", .bool true),
    ("signatureHelpProvider", Json.record [
      ("triggerCharacters", Json.ofList Json.string ["(", ",", ":"])]),
    ("definitionProvider", .bool true),
    ("documentSymbolProvider", .bool true)]

def welcome : Json :=
  Json.record [
    ("capabilities", capabilities),
    ("serverInfo", Json.record [("name", Json.string "kickass-analyzer"),
      ("version", Json.string "0.1.0")])]

/-- The roots of a workspace: its folders, else the one root, else those known before. -/
def rootsOf (s : Session) (g : Greeting) : List Uri :=
  match g.folders, g.root with
  | some folders, _ => folders
  | none, some root => [root]
  | none, none => s.roots

/-- The settings at the start: the defaults, those of the workspace, those of the editor. -/
def initialSettings (around : Surroundings) (roots : List Uri) (options : Option Json) :
    Settings :=
  let settingsFile (root : Text) := around.findFile (Disk.join root Settings.fileName)
  let base := Settings.mergeWorkspace {} settingsFile (roots.filterMap Uri.toFilePath?)
  match options with
  | some payload => base.merge payload
  | none => base

def initialise (around : Surroundings) (s : Session) (g : Greeting) : Session :=
  let roots := s.rootsOf g
  ({ s with roots := roots, lifecycle := .serving }).applySettings
    (initialSettings around roots g.options)

def refusal : Lifecycle → RpcError
  | .fresh => .notInitialised
  | .serving | .stopped => .invalidRequest

def request (around : Surroundings) (s : Session) (method : Text) (params : Option Json) :
    Session × Reply :=
  match Method.ofName? method with
  | none => (s, .refused .methodNotFound)
  | some .initialise =>
    if s.lifecycle = .fresh then
      match params.bind Params.greeting? with
      | some g => (s.initialise around g, .result welcome)
      | none => (s, .refused .invalidParams)
    else (s, .refused .invalidRequest)
  | some .shutdown =>
    if s.lifecycle = .serving then
      ({ s with lifecycle := .stopped },
        if params.isNone then .result .null else .refused .invalidParams)
    else (s, .refused (refusal s.lifecycle))
  | some (.request read) =>
    if s.lifecycle = .serving then
      match params.bind read with
      | some r => (s, s.answer r)
      | none => (s, .refused .invalidParams)
    else (s, .refused (refusal s.lifecycle))
  | some (.notification _) =>
    if s.lifecycle = .serving then (s, .silent) else (s, .refused (refusal s.lifecycle))

/-! ## Notifications -/

def missingJarWarning : Text :=
  Notice.signed "Set kickass-analyzer.assembler.jarPath to enable symbols and diagnostics.".toList

/-- The session after the editor has heard the answer to its first request. -/
def initialised (s : Session) : Session :=
  if s.settings.assembler.jar.isNone then s.notify (.warning missingJarWarning) else s

/-- The session after new settings of the editor. When the assembler is concerned, all buffers
are rebuilt. -/
def configured (s : Session) (payload : Json) : Session :=
  let merged := s.settings.merge payload
  if merged = s.settings then s
  else
    let changed := merged.assembler ≠ s.settings.assembler
    let s := s.applySettings merged
    if changed then s.workspace.buffers.uris.foldl enqueue s else s

def putBuffer (s : Session) (b : Buffer) : Session :=
  { s with workspace := { s.workspace with buffers := s.workspace.buffers.put b } }

def opened (s : Session) (b : Buffer) : Session :=
  let line := Notice.signed ("Opened ".toList ++ b.uri.shortName)
  let s := if s.settings.level.allowsInfo then s.notify (.log line) else s
  (s.putBuffer b).enqueue b.uri

/-- The number of the last edit of a buffer that was followed by a delay. -/
def editCount (s : Session) (uri : Uri) : Nat :=
  match s.edits.find? (·.1 == uri) with
  | some (_, n) => n
  | none => 0

def delay (s : Session) (uri : Uri) : Session :=
  let n := s.editCount uri + 1
  { s with
    edits := (uri, n) :: s.edits.filter (·.1 != uri)
    timers := s.timers ++ [⟨s.clock + s.settings.delay, uri, n⟩] }

/-- The session after edits of a buffer. Edits of a buffer that is not open are ignored. -/
def edited (s : Session) (uri : Uri) (edits : List Edit) (version : Int) : Session :=
  match s.workspace.buffers.edit? uri edits version with
  | none => s
  | some buffers =>
    let s := { s with workspace := { s.workspace with buffers := buffers } }
    if s.settings.onType then s.delay uri else s

/-- The session after a buffer has been saved. The text that is sent with the message opens a
buffer that is not open. -/
def saved (around : Surroundings) (s : Session) (uri : Uri) (text : Option Text) : Session :=
  let s := match text with
    | some t => s.putBuffer ⟨uri, t, (s.workspace.buffers.version? uri).getD 0⟩
    | none => s
  if s.settings.onSave then s.startJob around { uri } else s

def closed (s : Session) (uri : Uri) : Session :=
  let w := { s.workspace with buffers := s.workspace.buffers.close uri }
  let w := { w with projects := w.projects.remove uri }
  ({ s with workspace := w }).notify (.diagnostics uri [] none)

def react (around : Surroundings) (s : Session) : Notification → Session
  | .initialised => s.initialised
  | .configured payload => s.configured payload
  | .opened b => s.opened b
  | .edited uri edits version => s.edited uri edits version
  | .saved uri text => s.saved around uri text
  | .closed uri => s.closed uri

/-- A message without an answer. It is heard only while the session serves. -/
def hear (around : Surroundings) (s : Session) (method : Text) (params : Option Json) : Session :=
  if s.lifecycle = .serving then
    match Method.ofName? method with
    | some .shutdown => { s with lifecycle := .stopped }
    | some (.notification read) =>
      match params.bind read with
      | some n => s.react around n
      | none => s
    | _ => s
  else s

end Session

end AsmLens
