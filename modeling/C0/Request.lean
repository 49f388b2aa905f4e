import C0.Compile

namespace C0

/-- What the command line asks for. -/
structure Request where
  /-- The file to read. A dash stands for the standard input. -/
  input : String
  /-- The file to write. A dash stands for the standard output. -/
  output : String
  options : Options
  /-- Whether to list the tokens of the source instead of compiling it. -/
  listTokens : Bool

/-- The name that stands for the standard streams. -/
def streamName : String :=
  "-"

/-- The tokens of a source, one a line, or the first fault. -/
def tokenListing (source : String) : Except Diagnostic String :=
  let line (lexeme : Lexeme) : Except Diagnostic String :=
    match lexeme.reading with
    | .ok kind => .ok s!"{kind.name} {lexeme.span.render}\n"
    | .error cause => .error ⟨cause, lexeme.span⟩
  ((lexemes source).mapM line).map String.join

/-- The text that a request asks for, made from a source. -/
def Request.answer (request : Request) (source : String) : Except Diagnostic String :=
  if request.listTokens then tokenListing source
  else (compile source request.options).map Program.render

/-- Why a file could not be read or written. -/
inductive FileError where
  | missing
  | isDirectory
  | notUtf8
  /-- Anything else, in the words of the system. -/
  | other (message : String)

/-- The error in words. -/
def FileError.message : FileError → String
  | missing => "No such file or directory (os error 2)"
  | isDirectory => "Is a directory (os error 21)"
  | notUtf8 => "stream did not contain valid UTF-8"
  | other message => message

/-- What a run leaves: the exit code and what it wrote to the standard streams. -/
structure Reply where
  exit : Nat
  stdout : String
  stderr : String

namespace Request

/-- The text to write once the input was read, or the reply if there is none. -/
def process (request : Request) (content : Except FileError ByteArray) : Except Reply String :=
  let source := content.bind fun bytes =>
    match String.fromUTF8? bytes with
    | some source => .ok source
    | none => .error .notUtf8
  match source with
  | .error error => .error ⟨2, "", s!"failed to read {request.input}: {error.message}\n"⟩
  | .ok source =>
    match request.answer source with
    | .error fault => .error ⟨1, "", s!"{request.input}: {fault.context source}\n"⟩
    | .ok text => .ok text

/-- The reply once the text was written to a file. -/
def afterWriting (request : Request) : Except FileError Unit → Reply
  | .error error => ⟨2, "", s!"failed to write {request.output}: {error.message}\n"⟩
  | .ok () => ⟨0, "", ""⟩

end Request

end C0
