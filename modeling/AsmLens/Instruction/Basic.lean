import AsmLens.Text.Basic

/-!
# Instructions and addressing modes

What is known about the processor without asking the assembler. An instruction has a mnemonic,
the flags it may change, and the addressing modes in which it can be written.
-/

namespace AsmLens

/-- How an instruction finds its operand. -/
inductive AddressingMode where
  | implied
  | accumulator
  | immediate
  | zeroPage
  | zeroPageX
  | zeroPageY
  | absolute
  | absoluteX
  | absoluteY
  | indirect
  | indirectX
  | indirectY
  | relative
  deriving DecidableEq

def AddressingMode.operand : AddressingMode → String
  | .implied => ""
  | .accumulator => "a"
  | .immediate => "#value"
  | .zeroPage => "zp"
  | .zeroPageX => "zp,x"
  | .zeroPageY => "zp,y"
  | .absolute => "addr"
  | .absoluteX => "addr,x"
  | .absoluteY => "addr,y"
  | .indirect => "(addr)"
  | .indirectX => "(zp,x)"
  | .indirectY => "(zp),y"
  | .relative => "label"

structure Instruction where
  mnemonic : String
  description : String
  /-- The flags the instruction may change, in the order `NV-BDIZC`. -/
  flags : String
  modes : List AddressingMode
  documented : Bool

namespace Instruction

/-- The lines that show an instruction in each of its modes. -/
def forms (i : Instruction) : Text :=
  i.modes.flatMap fun m =>
    i.mnemonic.toList ++
      (if m.operand.isEmpty then [] else ' ' :: m.operand.toList) ++ ['\n']

def markdown (i : Instruction) : Text :=
  "**".toList ++ Text.upper i.mnemonic.toList ++ "** - ".toList ++ i.description.toList ++
    (if i.documented then [] else " *(undocumented)*".toList) ++
    "\n\n```kickass\n".toList ++ i.forms ++ "```".toList ++
    (if i.flags.isEmpty then [] else "\n\nFlags: `".toList ++ i.flags.toList ++ ['\x60'])

end Instruction

end AsmLens
