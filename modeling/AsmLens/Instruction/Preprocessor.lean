import AsmLens.Text.Basic

/-!
# Preprocessor directives

The directives that are known without asking the assembler. Names are compared in any case.
-/

namespace AsmLens

/-- A preprocessor directive, with an example of its use. -/
structure PreprocessorDirective where
  name : String
  usage : String
  summary : String
  /-- Whether arguments follow the directive. -/
  takesArguments : Bool

namespace PreprocessorDirective

def all : List PreprocessorDirective :=
  [⟨"#define", "#define DEBUG",
      "Defines a preprocessor symbol.", true⟩,
   ⟨"#undef", "#undef DEBUG",
      "Removes a preprocessor symbol.", true⟩,
   ⟨"#if", "#if DEBUG",
      "Assembles the following block if the condition holds.", true⟩,
   ⟨"#elif", "#elif RELEASE",
      "Alternative condition of an #if block.", true⟩,
   ⟨"#else", "#else",
      "Fallback branch of an #if block.", false⟩,
   ⟨"#endif", "#endif",
      "Ends an #if block.", false⟩,
   ⟨"#import", "#import \"file.asm\"",
      "Imports a source file.", false⟩,
   ⟨"#importif", "#importif DEBUG \"debug.asm\"",
      "Imports a source file if the condition holds.", true⟩,
   ⟨"#importonce", "#importonce",
      "Makes the current file importable only once.", false⟩]

def find? (name : Text) : Option PreprocessorDirective :=
  all.find? fun d => Text.sameLetters d.name.toList name

def hasArguments (name : Text) : Bool :=
  match find? name with
  | some d => d.takesArguments
  | none => false

end PreprocessorDirective

end AsmLens
