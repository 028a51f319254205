import AsmLens.Assist.Spot
import AsmLens.Instruction.Preprocessor
import AsmLens.Instruction.Table
import AsmLens.Numeral

/-!
# Hover

What is known about the word under the cursor, as sections of Markdown. A directive, an
instruction and a number have one section; a name has one for each declaration that it can mean,
innermost first.
-/

namespace AsmLens.Hover

def sourceBlock (t : Text) : Text := "```kickass\n".toList ++ t ++ "\n```\n".toList

/-- A paragraph behind a rule. -/
def underRule (t : Text) : Text := "\n---\n\n".toList ++ t ++ ['\n']

def code (t : Text) : Text := '\x60' :: t ++ ['\x60']

def directiveSection (name usage summary : Text) : Text :=
  sourceBlock (if usage.isEmpty then name else usage) ++
    (if summary.isEmpty then [] else underRule summary)

def numberSection (literal : Text) (value : Nat) : Text :=
  code literal ++ " = ".toList ++ Numeral.describe value

/-- What a symbol is, and how far it can be seen. -/
def badge (s : Symbol) : Text :=
  "\n*(".toList ++ s.category.describe ++
    (if s.isBuiltin then " · builtin".toList
      else if s.isGlobal then " · global".toList
      else []) ++
    ")*\n".toList

def valueLine (s : Symbol) : Text :=
  match s.kind.value?.bind (·.number) with
  | some n => "\nValue: ".toList ++ code (Numeral.describe n) ++ ['\n']
  | none => []

def kindMark : ParameterKind → Text
  | .value => []
  | .string => " *(string)*".toList
  | .file => " *(file)*".toList
  | .choice => " *(enum)*".toList

def parameterLine (p : Parameter) : Text :=
  "- ".toList ++ code p.shown ++ kindMark p.kind ++
    (match p.description with
      | some d => ": ".toList ++ d
      | none => []) ++
    ['\n']

def parameterLines (s : Symbol) : Text :=
  if s.parameters.isEmpty then []
  else "\nParameters:\n".toList ++ s.parameters.flatMap parameterLine

def originLine (fileName : Option Text) (s : Symbol) : Text :=
  match fileName with
  | some name =>
    if s.isBuiltin then []
    else "\nDefined in ".toList ++ code (name ++ ':' :: Text.ofNat (s.span.startLine + 1)) ++
      ['\n']
  | none => []

def symbolSection (fileName : Option Text) (s : Symbol) : Text :=
  sourceBlock s.signature ++ badge s ++ valueLine s ++
    (match s.doc with
      | some doc => underRule doc
      | none => []) ++
    parameterLines s ++ originLine fileName s

/-- The section of a preprocessor directive: the report knows it better than the table. -/
def preprocessorSection? (r : Report) (word : Text) : Option Text :=
  match r.preprocessor.find? (fun d => Text.sameLetters d.name word) with
  | some d => some (directiveSection d.name d.usage d.summary)
  | none => (PreprocessorDirective.find? word).map fun d =>
    directiveSection d.name.toList d.usage.toList d.summary.toList

def assemblerSection? (r : Report) (word : Text) : Option Text :=
  (r.directives.find? (fun d => Text.sameLetters d.name word)).map fun d =>
    directiveSection d.name d.usage d.summary

def looksPreprocessor : Text → Bool
  | '#' :: c :: _ => c.isAlpha
  | _ => false

/-- The sections of the declarations that a word can mean at a line. -/
def symbolSections (snapshot : Snapshot) (row : Nat) (word : Text) : List Text :=
  let name := word.dropWhile (fun c => c == '#' || c == '@')
  (snapshot.resolve name row).map fun s => symbolSection (snapshot.fileName? s.file) s

/-- The sections of a word that is no preprocessor directive. -/
def plainSections (snapshot : Snapshot) (row : Nat) (word : Text) : List Text :=
  if word.head? = some '.' then (assemblerSection? snapshot.report word).toList
  else match Instruction.find? word with
    | some i => [i.markdown]
    | none => match Numeral.value? word with
      | some n => [numberSection (word.dropWhile (· == '#')) n]
      | none => symbolSections snapshot row word

def wordSections (snapshot : Snapshot) (row : Nat) (word : Text) : List Text :=
  match (if looksPreprocessor word then preprocessorSection? snapshot.report word else none) with
  | some found => [found]
  | none => plainSections snapshot row word

def sections (snapshot : Snapshot) (text : Text) (p : Position) : List Text :=
  match Spot.at? text p with
  | some spot =>
    match spot.identifier? with
    | some word => wordSections snapshot spot.row word
    | none => []
  | none => []

/-- The sections at a position as one text, if there are any. -/
def provide? (snapshot : Snapshot) (text : Text) (p : Position) : Option Text :=
  match sections snapshot text p with
  | [] => none
  | found => some (Text.join "\n---\n\n".toList found)

end AsmLens.Hover
