import C0.Main.Arguments

namespace C0

/-- The files below a folder, by their paths from there. -/
structure Folder where
  files : List (List String × ByteArray)

namespace Folder

/-- The steps of a path. Empty steps and dots lead nowhere. -/
def steps (path : String) : List String :=
  (path.splitOn "/").filter fun step => step != "" && step != "."

/-- The content of a file. -/
def get? (folder : Folder) (path : List String) : Option ByteArray :=
  folder.files.lookup path

/-- Whether a path leads to the folder itself or to one on the way to a file. -/
def isDirectory (folder : Folder) (path : List String) : Bool :=
  path.isEmpty || folder.files.any fun file => path.isPrefixOf file.1 && file.1 != path

/-- A folder with some files. -/
def ofFiles (files : List (String × ByteArray)) : Folder :=
  ⟨files.map fun file => (steps file.1, file.2)⟩

/-- Reads a file. -/
def read (folder : Folder) (path : String) : Except FileError ByteArray :=
  let path := steps path
  if folder.isDirectory path then .error .isDirectory
  else match folder.get? path with
    | some content => .ok content
    | none => .error .missing

/-- Writes a file in place of what it held. The folder that it goes to must be there. -/
def write (folder : Folder) (path : String) (content : ByteArray) : Except FileError Folder :=
  let path := steps path
  if folder.isDirectory path then .error .isDirectory
  else if folder.isDirectory path.dropLast then
    .ok ⟨(path, content) :: folder.files.filter (·.1 != path)⟩
  else .error .missing

/-- Does what a request asks for in a folder, with some standard input. -/
def perform (folder : Folder) (request : Request) (stdin : ByteArray) : Reply × Folder :=
  let content := if request.input = streamName then .ok stdin else folder.read request.input
  match request.process content with
  | .error reply => (reply, folder)
  | .ok text =>
    if request.output = streamName then (⟨0, text, ""⟩, folder)
    else match folder.write request.output text.toUTF8 with
      | .ok folder => (request.afterWriting (.ok ()), folder)
      | .error error => (request.afterWriting (.error error), folder)

/-- Runs a command line in a folder, with some standard input. There is no reply if the arguments
are used wrongly. -/
def run (folder : Folder) (arguments : List String) (stdin : ByteArray) :
    Option Reply × Folder :=
  match Request.ofArguments? arguments with
  | none => (none, folder)
  | some request =>
    let (reply, folder) := folder.perform request stdin
    (some reply, folder)

end Folder

end C0
