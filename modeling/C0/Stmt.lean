import C0.Expr
import C0.Symbol

namespace C0

/-- A statement as it is written, with its names resolved. -/
inductive Stmt where
  /-- Nothing at all: the end of the statements in a block, or a branch that is not there. -/
  | skip
  /-- One statement after the other. -/
  | seq (first rest : Stmt)
  /-- A statement that does nothing. -/
  | empty
  /-- Declares a variable, with a first value if there is one. -/
  | declare (symbol : Symbol) (value : Option Expr)
  /-- Evaluates an expression for what it does and drops its value. -/
  | evaluate (expr : Expr)
  | block (body : Stmt)
  /-- Runs one of two statements. -/
  | conditional (test : Expr) (yes no : Stmt)
  /-- Tests, runs the body and starts over, as long as the test holds. -/
  | iteration (test : Expr) (body : Stmt)
  /-- Goes on after the innermost loop. -/
  | leave
  /-- Goes on with the test of the innermost loop. -/
  | again
  /-- Returns from the function, with a value if there is one. -/
  | giveBack (value : Option Expr)

/-- Statements one after the other. -/
def Stmt.ofList : List Stmt → Stmt
  | [] => .skip
  | first :: rest => .seq first (ofList rest)

/-- The code of a declaration. Without a first value there is nothing to do. -/
def declareCode (symbol : Symbol) : Option Expr → List Instruction
  | none => []
  | some value => storeCode symbol.place value.code

/-- The code of an expression whose value is dropped. -/
def evaluateCode (expr : Expr) : List Instruction :=
  expr.code ++ if expr.ty = .void then [] else [.indexed .popn 1]

/-- The code of a return. The slot of the returned value is the first argument slot. -/
def returnCode : Option Expr → List Instruction
  | none => [.indexed .arga 0, .plain .ret]
  | some value => .indexed .arga 0 :: value.code ++ [.plain .store64, .plain .ret]

end C0
