import C0.Analysis.Program

namespace C0

/-- What a caller may choose about a compilation. -/
structure Options where
  /-- How deep blocks, conditions, loops and parts of expressions may nest. -/
  maxNestingDepth : Nat := 256

/-- The stretch of source of the lexeme at an index. Beyond the last one it is that of the last. -/
def spanAt (lexemes : List Lexeme) (site : Nat) : Span :=
  match lexemes[site]? with
  | some lexeme => lexeme.span
  | none => (lexemes.getLast?.map Lexeme.span).getD ⟨0, 0⟩

/-- Reads and checks a source: the program or the first fault, and the log. The analysis works on
the readings alone. Where a fault lies in the source is looked up afterwards. -/
def analyzeLogged (source : String) (options : Options) :
    Except Diagnostic CheckedProgram × List Event :=
  let lexemes := lexemes source
  let start := State.initial (lexemes.map Lexeme.reading)
  match (Analysis.program options.maxNestingDepth).run start with
  | .ok checked s => (.ok checked, s.log)
  | .error fault s => (.error (fault.mapSite (spanAt lexemes)), s.log)

/-- Reads and checks a source. -/
def analyze (source : String) (options : Options) : Except Diagnostic CheckedProgram :=
  (analyzeLogged source options).1

/-- What a compilation reports. -/
def compilationLog (source : String) (options : Options) : List Event :=
  (analyzeLogged source options).2

/-- Compiles a source into a program, or tells the first fault. -/
def compile (source : String) (options : Options) : Except Diagnostic Program :=
  (analyze source options).map CheckedProgram.program

end C0
