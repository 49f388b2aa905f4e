import C0.Main.Arguments

namespace C0

/-- The error of a file operation. -/
def FileError.ofSystem : IO.Error → FileError
  | .noFileOrDirectory .. => .missing
  | .inappropriateType .. => .isDirectory
  | error => .other (toString error)

/-- Tells how a file operation went. -/
def attempt {α : Type} (action : IO α) : IO (Except FileError α) := do
  try
    return .ok (← action)
  catch error =>
    return .error (FileError.ofSystem error)

/-- Does what a request asks for. -/
def Request.perform (request : Request) : IO Reply := do
  let content ←
    if request.input = streamName then attempt do (← IO.getStdin).readBinToEnd
    else attempt (IO.FS.readBinFile request.input)
  match request.process content with
  | .error reply => return reply
  | .ok text =>
    if request.output = streamName then return ⟨0, text, ""⟩
    else return request.afterWriting (← attempt (IO.FS.writeFile request.output text))

end C0

/-- The command line. -/
def main (arguments : List String) : IO UInt32 := do
  match C0.Request.ofArguments? arguments with
  | none =>
    IO.eprintln "usage: [-o FILE] [--max-nesting-depth N] [--tokens] INPUT"
    return 2
  | some request =>
    let reply ← request.perform
    IO.print reply.stdout
    IO.eprint reply.stderr
    return UInt32.ofNat reply.exit
