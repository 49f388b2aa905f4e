namespace C0

/-- An instruction that has no operand. -/
inductive Op where
  | nop | pop | dup
  | load8 | load16 | load32 | load64
  | store8 | store16 | store32 | store64
  | alloc | free
  | addI | subI | mulI | divI
  | addF | subF | mulF | divF
  | divU | shl | shr | and | or | xor | not | inv
  /-- Compares two integers and leaves -1, 0 or 1. -/
  | cmpI
  | cmpU
  /-- Compares two floating point numbers and leaves -1, 0 or 1. -/
  | cmpF
  | negI | negF
  | itof | ftoi
  | shrl
  | setLt | setGt
  | ret
  | scanI | scanC | scanF
  | printI | printC | printF | printS | println
  | panic
  deriving DecidableEq, Repr

/-- An instruction whose operand is a count, a slot or an address. -/
inductive Indexed where
  /-- Drops so many slots. -/
  | popn
  /-- Pushes the address of a local slot. -/
  | loca
  /-- Pushes the address of an argument slot. -/
  | arga
  /-- Pushes the address of a global variable. -/
  | globa
  /-- Reserves so many slots. -/
  | stackalloc
  /-- Calls the function at a directory address. -/
  | call
  /-- Calls the library function that a directory address names. -/
  | callname
  deriving DecidableEq, Repr

/-- When a branch is taken. -/
inductive Branch where
  | always
  | onFalse
  | onTrue
  deriving DecidableEq, Repr

/-- One instruction of the stack machine. -/
inductive Instruction where
  | plain (op : Op)
  /-- Pushes a word: an integer, or the bits of a floating point number. -/
  | push (word : UInt64)
  | indexed (op : Indexed) (operand : UInt32)
  /-- Goes on so many instructions after the next one. -/
  | branch (test : Branch) (offset : Int32)
  deriving DecidableEq, Repr

/-- The operand of an instruction. -/
inductive Operand where
  | unsigned (value : UInt32)
  | signed (value : Int32)
  | word (value : UInt64)
  deriving DecidableEq, Repr

namespace Op

/-- The name of the instruction in listings. -/
def mnemonic : Op → String
  | nop => "nop"
  | pop => "pop"
  | dup => "dup"
  | load8 => "load_8"
  | load16 => "load_16"
  | load32 => "load_32"
  | load64 => "load_64"
  | store8 => "store_8"
  | store16 => "store_16"
  | store32 => "store_32"
  | store64 => "store_64"
  | alloc => "alloc"
  | free => "free"
  | addI => "add_i"
  | subI => "sub_i"
  | mulI => "mul_i"
  | divI => "div_i"
  | addF => "add_f"
  | subF => "sub_f"
  | mulF => "mul_f"
  | divF => "div_f"
  | divU => "div_u"
  | shl => "shl"
  | shr => "shr"
  | and => "and"
  | or => "or"
  | xor => "xor"
  | not => "not"
  | inv => "inv"
  | cmpI => "cmp_i"
  | cmpU => "cmp_u"
  | cmpF => "cmp_f"
  | negI => "neg_i"
  | negF => "neg_f"
  | itof => "itof"
  | ftoi => "ftoi"
  | shrl => "shrl"
  | setLt => "set_lt"
  | setGt => "set_gt"
  | ret => "ret"
  | scanI => "scan_i"
  | scanC => "scan_c"
  | scanF => "scan_f"
  | printI => "print_i"
  | printC => "print_c"
  | printF => "print_f"
  | printS => "print_s"
  | println => "println"
  | panic => "panic"

end Op

/-- The name of the instruction in listings. -/
def Indexed.mnemonic : Indexed → String
  | popn => "popn"
  | loca => "loca"
  | arga => "arga"
  | globa => "globa"
  | stackalloc => "stackalloc"
  | call => "call"
  | callname => "callname"

/-- The name of the branch in listings. -/
def Branch.mnemonic : Branch → String
  | always => "br"
  | onFalse => "br_false"
  | onTrue => "br_true"

namespace Operand

/-- How many bytes the operand takes when encoded. -/
def width : Operand → Nat
  | unsigned _ => 4
  | signed _ => 4
  | word _ => 8

/-- The operand in decimal. A word is shown as a signed number. -/
def render : Operand → String
  | unsigned value => toString value.toNat
  | signed value => toString value.toInt
  | word value => toString value.toInt64.toInt

end Operand

namespace Instruction

/-- The name of the instruction in listings. -/
def mnemonic : Instruction → String
  | plain op => op.mnemonic
  | push _ => "push"
  | indexed op _ => op.mnemonic
  | branch test _ => test.mnemonic

/-- The operand, if the instruction has one. -/
def operand? : Instruction → Option Operand
  | plain _ => none
  | push word => some (.word word)
  | indexed _ operand => some (.unsigned operand)
  | branch _ offset => some (.signed offset)

/-- How many bytes the operand takes when encoded. -/
def operandWidth (instruction : Instruction) : Nat :=
  (instruction.operand?.map Operand.width).getD 0

/-- Whether the operand tells where to go on. -/
def isBranch : Instruction → Bool
  | branch _ _ => true
  | _ => false

/-- The instruction as a line of a listing. -/
def render (instruction : Instruction) : String :=
  match instruction.operand? with
  | some operand => s!"{instruction.mnemonic} {operand.render}"
  | none => instruction.mnemonic

end Instruction

end C0
