import AsmLens.Assembler.Basic
import AsmLens.Bound
import AsmLens.Toml.Reader

/-!
# Settings

The settings of the server, and the overlays that change them. An overlay comes from the editor
as JSON or from a file of the workspace. It is taken as a whole or not at all: when one of the
members it is known by has the wrong shape, the overlay changes nothing. Members that are absent
or null leave their setting as it is, and members with other names are ignored.

After every overlay the settings are in normal form: no blanks around texts, no empty arguments,
and a delay within its bounds.
-/

namespace AsmLens

inductive LogLevel where
  | error
  | warn
  | info
  | debug
  | trace
  deriving DecidableEq

namespace LogLevel

def named : List (Text × LogLevel) :=
  [("error".toList, .error), ("warn".toList, .warn), ("info".toList, .info),
    ("debug".toList, .debug), ("trace".toList, .trace)]

def ofName? (name : Text) : Option LogLevel := (named.find? (·.1 == name)).map (·.2)

def allowsInfo : LogLevel → Bool
  | .error | .warn => false
  | .info | .debug | .trace => true

end LogLevel

structure Settings where
  assembler : AssemblerConfig := {}
  /-- Whether an edit leads to a new run. -/
  onType : Bool := true
  /-- Whether saving leads to a new run. -/
  onSave : Bool := true
  /-- How long the server waits after an edit, in milliseconds. -/
  delay : Nat := 300
  level : LogLevel := .info
  deriving DecidableEq

structure SettingsPatch where
  java : Option Text := none
  jar : Option Text := none
  extraArguments : Option (List Text) := none
  onType : Option Bool := none
  onSave : Option Bool := none
  delay : Option Nat := none
  level : Option LogLevel := none

namespace SettingsPatch

/-- A member of an object read with a decoder. A member that is absent or null has no value, and
a member of the wrong shape has no reading. -/
def field {α : Type} (decode : Json → Option α) (j : Json) (key : String) : Option (Option α) :=
  match j.at? key with
  | none | some .null => some none
  | some v => (decode v).map some

def text? : Json → Option Text
  | .str s => some s
  | _ => none

def bool? : Json → Option Bool
  | .bool b => some b
  | _ => none

def texts? : Json → Option (List Text)
  | .arr items => items.mapM text?
  | _ => none

/-- A number of milliseconds, which has 64 bits and no sign. -/
def delay? : Json → Option Nat
  | .int n => if 0 ≤ n ∧ n < Bound.long then some n.toNat else none
  | _ => none

/-- A level: its name, or an object that has this name as its only key and null behind it. -/
def level? (j : Json) : Option LogLevel :=
  match j with
  | .str name => LogLevel.ofName? name
  | .obj ((name, _) :: others) =>
    match others.all (·.1 == name), j.get? name with
    | true, some .null => LogLevel.ofName? name
    | _, _ => none
  | _ => none

/-- A group of settings: an object, or an empty one where it is absent. -/
def group? (j : Json) (key : String) : Option Json :=
  match j.at? key with
  | none | some .null => some (.obj [])
  | some (.obj members) => some (.obj members)
  | some _ => none

/-- The settings that a JSON value gives, if it has the shape of an overlay. -/
def ofJson? (j : Json) : Option SettingsPatch :=
  match j with
  | .obj _ => do
    let assembler ← group? j "assembler"
    let diagnostics ← group? j "diagnostics"
    let logging ← group? j "logging"
    return { java := ← field text? assembler "javaPath"
             jar := ← field text? assembler "jarPath"
             extraArguments := ← field texts? assembler "extraArgs"
             onType := ← field bool? diagnostics "onType"
             onSave := ← field bool? diagnostics "onSave"
             delay := ← field delay? diagnostics "debounceMs"
             level := ← field level? logging "level" }
  | _ => none

end SettingsPatch

namespace Settings

/-- The settings with those of a patch in their places. -/
def overlay (s : Settings) (p : SettingsPatch) : Settings where
  assembler :=
    { java := p.java.getD s.assembler.java
      jar := p.jar <|> s.assembler.jar
      extraArguments := p.extraArguments.getD s.assembler.extraArguments }
  onType := p.onType.getD s.onType
  onSave := p.onSave.getD s.onSave
  delay := p.delay.getD s.delay
  level := p.level.getD s.level

def leastDelay : Nat := 50

def greatestDelay : Nat := 5000

/-- A text without blanks around it, unless nothing is left. -/
def trimmed? (t : Text) : Option Text :=
  let t := Text.trim t
  if t.isEmpty then none else some t

def normalise (s : Settings) : Settings :=
  { s with
    assembler :=
      { java := (trimmed? s.assembler.java).getD "java".toList
        jar := s.assembler.jar.bind trimmed?
        extraArguments := s.assembler.extraArguments.filterMap trimmed? }
    delay := max leastDelay (min s.delay greatestDelay) }

/-- The member of a payload that holds the settings when it holds others too. -/
def sectionKey : String := "kickass-analyzer"

/-- The overlays of a payload: the payload itself, and its member for this server. -/
def candidates (payload : Json) : List Json := payload :: (payload.at? sectionKey).toList

/-- The settings after one overlay, which changes nothing if it has the wrong shape. -/
def applyCandidate (s : Settings) (j : Json) : Settings :=
  match SettingsPatch.ofJson? j with
  | some patch => s.overlay patch
  | none => s

def merge (s : Settings) (payload : Json) : Settings :=
  ((candidates payload).foldl applyCandidate s).normalise

/-- The settings after the text of a settings file. One that cannot be read changes nothing. -/
def mergeFile (s : Settings) (text : Text) : Settings :=
  match Toml.parse? text with
  | some payload => s.merge payload
  | none => s

def fileName : Text := "kickass-analyzer.toml".toList

/-- The settings after those of a workspace: the first of its roots that has a settings file
gives them. -/
def mergeWorkspace (s : Settings) (settingsFile : Text → Option Text) (roots : List Text) :
    Settings :=
  match roots.findSome? settingsFile with
  | some text => s.mergeFile text
  | none => s

end Settings

end AsmLens
