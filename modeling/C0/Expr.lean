import C0.Library
import C0.Operator
import C0.Routine
import C0.Variable

namespace C0

/-- What a call calls. -/
inductive Callee where
  | routine (signature : Signature)
  /-- A library function and its address in the directory. -/
  | library (address : Nat) (function : Library)
  deriving DecidableEq, Repr

namespace Callee

/-- The type of the value that the call leaves. -/
def returnType : Callee → Ty
  | routine signature => signature.returnType
  | library _ function => function.returnType

/-- The instruction that makes the call. -/
def instruction : Callee → Instruction
  | routine signature => .indexed .call (UInt32.ofNat signature.address)
  | library address _ => .indexed .callname (UInt32.ofNat address)

end Callee

/-- An expression as it is written, with its names resolved and its types known. -/
inductive Expr where
  | int (word : UInt64)
  /-- A floating point number by its bits. -/
  | double (bits : UInt64)
  | char (value : Char)
  /-- A string literal and its address in the directory. -/
  | text (value : String) (address : Nat)
  /-- The value of a variable. -/
  | load (source : Variable)
  /-- Gives a variable a value, and has none itself. -/
  | assign (target : Variable) (value : Expr)
  | call (callee : Callee) (arguments : List Expr)
  /-- An expression in parentheses. -/
  | group (inner : Expr)
  /-- Makes a value of one type into one of another. -/
  | cast (source target : Ty) (operand : Expr)
  /-- An operator on an operand of a type. -/
  | unary (op : Operator) (ty : Ty) (operand : Expr)
  /-- An operator on two operands of a type. -/
  | binary (op : Operator) (ty : Ty) (left right : Expr)

/-- The conversion between two types. -/
def castCode : Ty → Ty → List Instruction
  | .int, .double => [.plain .itof]
  | .double, .int => [.plain .ftoi]
  | _, _ => []

/-- The instructions that give a place the value of some code. -/
def storeCode (place : Place) (value : List Instruction) : List Instruction :=
  place.instruction :: value ++ [.plain .store64]

namespace Expr

/-- The type of the expression. -/
def ty : Expr → Ty
  | int _ => .int
  | double _ => .double
  | char _ => .int
  | text _ _ => .int
  | load source => source.ty
  | assign _ _ => .void
  | call callee _ => callee.returnType
  | group inner => inner.ty
  | cast _ target _ => target
  | unary op ty _ => op.resultType ty
  | binary op ty _ _ => op.resultType ty

mutual

/-- The instructions that leave the value of the expression on the stack: first those of its
parts from left to right, then what joins them. -/
def code : Expr → List Instruction
  | int word => [.push word]
  | double bits => [.push bits]
  | char value => [.push (UInt64.ofNat value.toNat)]
  | text _ address => [.push (UInt64.ofNat address)]
  | load source => [source.place.instruction, .plain .load64]
  | assign target value => storeCode target.place value.code
  | call callee arguments =>
    .indexed .stackalloc (UInt32.ofNat callee.returnType.slots) ::
      codeAll arguments ++ [callee.instruction]
  | group inner => inner.code
  | cast source target operand => operand.code ++ castCode source target
  | unary op ty operand => operand.code ++ (op.instructions? ty).getD []
  | binary op ty left right => left.code ++ right.code ++ (op.instructions? ty).getD []

/-- The instructions of expressions one after the other. -/
def codeAll : List Expr → List Instruction
  | [] => []
  | first :: rest => first.code ++ codeAll rest

end

end Expr

end C0
