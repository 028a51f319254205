import AsmLens.Text.Decimal

/-!
# The assembler

The program that assembles a buffer is started by the analyzer and writes its report to a file.
This module says what a run is asked, how the program is configured, what a run leaves behind,
and in which ways the program can fail to run at all.
-/

namespace AsmLens

/-- How the assembler is started: the Java program, the archive it runs, and further
arguments. -/
structure AssemblerConfig where
  java : Text := "java".toList
  jar : Option Text := none
  extraArguments : List Text := []
  deriving DecidableEq

/-- One buffer to assemble, with its place on disk. -/
structure AssemblyRequest where
  text : Text
  path : Option Text
  deriving DecidableEq

/-- Everything one run left behind. A run that a signal ended has no exit status. -/
structure AssemblyOutput where
  report : Option Text := none
  stdout : Text := []
  stderr : Text := []
  exitStatus : Option Int := none
  deriving DecidableEq

inductive AssemblerError where
  | missingJar (path : Option Text)
  | spawn (program cause : Text)
  | io (context cause : Text)
  deriving DecidableEq

def AssemblerError.message : AssemblerError → Text
  | .missingJar none => "KickAss.jar not found".toList
  | .missingJar (some path) => "KickAss.jar not found at ".toList ++ path
  | .spawn program cause =>
    "failed to start \x60".toList ++ program ++ "\x60: ".toList ++ cause
  | .io context cause => context ++ ": ".toList ++ cause

namespace AssemblyOutput

/-- The first line that is not blank, of what was printed as errors and then of what was printed
otherwise. -/
def firstErrorLine? (o : AssemblyOutput) : Option Text :=
  ((Text.split '\n' o.stderr ++ Text.split '\n' o.stdout).map Text.trim).find?
    (fun line => !line.isEmpty)

/-- What to tell about a run that wrote no report. -/
def failure? (o : AssemblyOutput) : Option Text :=
  o.firstErrorLine? <|>
    o.exitStatus.map fun n => "Kick Assembler exited with status ".toList ++ Text.ofInt n

end AssemblyOutput

end AsmLens
