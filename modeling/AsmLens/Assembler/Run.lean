import AsmLens.Assembler.Basic
import AsmLens.Report.Basic
import AsmLens.Uri.Disk

/-!
# Running the assembler

A run works on a copy of the buffer in a scratch directory, where the report and the assembled
program go too. Every run has a number, so that runs do not share files. The name of the copy
holds the marker by which the report's main file is known.

What the machine does is a parameter: which files there are, and what comes of a command.
-/

namespace AsmLens

structure Command where
  program : Text
  arguments : List Text
  directory : Option Text
  deriving DecidableEq

structure ScratchFiles where
  source : Text
  report : Text
  program : Text
  deriving DecidableEq

def ScratchFiles.ofRun (scratch : Text) (number : Nat) : ScratchFiles where
  source := Disk.join scratch
    (SourceFile.bufferMarker ++ '.' :: Text.ofNat number ++ ".asm".toList)
  report := Disk.join scratch ("asminfo-".toList ++ Text.ofNat number ++ ".txt".toList)
  program := Disk.join scratch ("out-".toList ++ Text.ofNat number ++ ".prg".toList)

/-- What a machine does for the assembler. -/
structure Machine where
  isFile : Text → Bool
  /-- Makes a directory, or says why there is none. -/
  makeDirectory : Text → Except Text Unit
  /-- Writes a text to a file, or says why it cannot. -/
  writeFile : Text → Text → Except Text Unit
  /-- What comes of a command that finds the given text in its source file: everything the run
  left behind, or the reason why the program did not start. -/
  run : Command → Text → Except Text AssemblyOutput

namespace Assembler

/-- The archive to run, which must be a file. -/
def jar (m : Machine) (config : AssemblerConfig) : Except AssemblerError Text :=
  match config.jar with
  | some path => if m.isFile path then .ok path else .error (.missingJar (some path))
  | none => .error (.missingJar none)

/-- The command of a run. The directory of the buffer is searched for imports, and the program
runs in it. -/
def command (config : AssemblerConfig) (jar : Text) (files : ScratchFiles)
    (request : AssemblyRequest) : Command :=
  let directory := request.path.bind Disk.directory?
  { program := config.java
    arguments := ["-jar".toList, jar, files.source, "-asminfo".toList, "all".toList,
        "-asminfofile".toList, files.report, "-o".toList, files.program] ++
      (match directory with
        | some d => ["-libdir".toList, d]
        | none => []) ++
      config.extraArguments
    directory := directory }

/-- Assemble a buffer, in the run with a number. -/
def assemble (m : Machine) (config : AssemblerConfig) (scratch : Text) (number : Nat)
    (request : AssemblyRequest) : Except AssemblerError AssemblyOutput := do
  let archive ← jar m config
  (m.makeDirectory scratch).mapError (.io ("creating ".toList ++ scratch))
  let files := ScratchFiles.ofRun scratch number
  (m.writeFile files.source request.text).mapError (.io ("writing ".toList ++ files.source))
  (m.run (command config archive files request) request.text).mapError (.spawn config.java)

end Assembler

end AsmLens
