import AsmLens.Catalogue.Basic
import AsmLens.Cursor.Word
import AsmLens.Instruction.Preprocessor
import AsmLens.Instruction.Table
import AsmLens.Report.Basic
import AsmLens.Source.Comment

/-!
# Where the cursor stands

The text left of the cursor is split into the token the cursor is in and the tokens before it.
There is no context inside a comment or a string literal, nor at a word that starts or ends with a
quote. The token before the cursor decides what can be offered there.
-/

namespace AsmLens.Cursor

/-- The text left of the cursor, split at white space. -/
structure Context where
  /-- The token the cursor is in, up to the cursor. -/
  token : Text
  tokenStart : Nat
  /-- The tokens before it. -/
  preceding : List Text
  /-- The character in front of the cursor. -/
  trigger : Option Char
  deriving DecidableEq

def isQuote (c : Char) : Bool := c == '"' || c == '\x27'

def touchesQuote (t : Text) : Bool := t.head?.any isQuote || t.getLast?.any isQuote

def contextAt? (line : Text) (cursor : Nat) : Option Context :=
  let cursor := clamp line cursor
  let left := line.take cursor
  if (Source.commentStart? left).isSome || Source.endsQuoted left ||
      (wordAt? line cursor).any (fun w => touchesQuote w.text) then none
  else
    let start := runStart isInk line cursor
    some {
      token := left.drop start
      tokenStart := start
      preceding := Text.words (left.take start)
      trigger := left.getLast? }

inductive Place where
  | bare
  | afterInstruction
  | afterSymbol
  | afterPreprocessor (directive : Text)
  | preprocessorStart
  | directiveStart
  deriving DecidableEq

inductive Offer where
  | instructions
  | namedLabels
  | labels
  | constants
  | vars
  | functions
  | macroDefs
  | pseudoCommands
  | nameSpaces
  | flags
  | preprocessorDirectives
  | directives
  deriving DecidableEq

/-- The category of the symbols in a group, if it is a group of symbols. -/
def Offer.category? : Offer → Option Category
  | .namedLabels => some .namedLabel
  | .labels => some .label
  | .constants => some .constant
  | .vars => some .var
  | .functions => some .function
  | .macroDefs => some .macroDef
  | .pseudoCommands => some .pseudoCommand
  | .nameSpaces => some .nameSpace
  | .flags => some .flag
  | .instructions | .preprocessorDirectives | .directives => none

/-- The groups that are offered at a place. A new preprocessor symbol has no candidates. -/
def Place.offers : Place → List Offer
  | .bare => [.instructions, .macroDefs, .pseudoCommands, .nameSpaces]
  | .afterInstruction =>
    [.namedLabels, .functions, .vars, .labels, .constants, .macroDefs, .nameSpaces]
  | .afterSymbol => [.namedLabels, .vars, .labels, .constants, .nameSpaces]
  | .afterPreprocessor directive =>
    if Text.sameLetters directive "#define".toList then [] else [.flags]
  | .preprocessorStart => [.preprocessorDirectives]
  | .directiveStart => [.directives]

/-- Marks that may stand in front of a symbol. -/
def isSymbolMark (c : Char) : Bool :=
  c == '@' || c == ':' || c == '#' || c == '<' || c == '>'

/-- Whether a token is a symbol, possibly with an argument list behind it. -/
def isSymbol (c : Catalogue) (token : Text) : Bool :=
  let bare := token.dropWhile isSymbolMark
  c.containsName bare ||
    match Text.cut? '(' bare with
    | some (head, _) => c.containsName head
    | none => false

def isDirective (r : Report) (token : Text) : Bool :=
  r.directives.any fun d => Text.sameLetters d.name token

/-- Whether the token or the character in front of the cursor shows that a word with the given
first character is being written. -/
def Context.opens (ctx : Context) (c : Char) : Bool :=
  ctx.trigger == some c || ctx.token.head? == some c

def placeAfter (c : Catalogue) (r : Report) (token : Text) : Place :=
  let last := Text.dropEndWhile (fun c => c == ',' || c == ':') token
  if Instruction.isInstruction last then .afterInstruction
  else if isSymbol c last then .afterSymbol
  else if PreprocessorDirective.hasArguments last then .afterPreprocessor (Text.lower last)
  else if isDirective r last then .afterSymbol
  else .bare

def place (c : Catalogue) (r : Report) (ctx : Context) : Place :=
  match ctx.preceding.getLast? with
  | some last => placeAfter c r last
  | none =>
    if ctx.opens '#' then .preprocessorStart
    else if ctx.opens '.' then .directiveStart
    else .bare

end AsmLens.Cursor
