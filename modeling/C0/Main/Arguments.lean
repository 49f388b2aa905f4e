import C0.Request

namespace C0

/-- The arguments read so far. Each may be given once. -/
structure Arguments where
  input : Option String
  output : Option String
  maxNestingDepth : Option Nat
  listTokens : Bool

/-- What one argument on the command line is. -/
inductive Argument where
  /-- Two dashes, which end the options. -/
  | separator
  /-- An option with a long name, and the value after an equals sign if there is one. -/
  | long (name : String) (value : Option String)
  /-- An option with a short name, and the value attached to it if there is one. -/
  | short (name : Char) (value : Option String)
  | positional (text : String)

namespace Argument

/-- The value attached to a short option. An equals sign before it is dropped. -/
def attached : List Char → Option String
  | [] => none
  | '=' :: value => some (String.ofList value)
  | value => some (String.ofList value)

/-- Splits a long option at its first equals sign. -/
def splitLong (cs : List Char) : Argument :=
  let name := String.ofList (cs.takeWhile (· != '='))
  match cs.dropWhile (· != '=') with
  | [] => long name none
  | _ :: value => long name (some (String.ofList value))

/-- Tells by its dashes what an argument is. A single dash is no option. -/
def ofString (text : String) : Argument :=
  match text.toList with
  | ['-', '-'] => separator
  | '-' :: '-' :: cs => splitLong cs
  | '-' :: c :: cs => short c (attached cs)
  | _ => positional text

end Argument

/-- Text that may be a value of its own after an option. -/
def isOptionValue (text : String) : Bool :=
  match Argument.ofString text with
  | .positional _ => true
  | _ => false

/-- A nesting limit: a decimal number, with a sign or not, that 32 bits hold. -/
def parseLimit? (text : String) : Option Nat :=
  let (sign, digits) := Numeral.splitSign text.toList
  let limit := ofDigits digits
  if digits.isEmpty || !digits.all Char.isDigit then none
  else if sign = ['-'] ∧ limit ≠ 0 then none
  else if limit < UInt32.size then some limit
  else none

namespace Arguments

/-- No arguments. -/
def none : Arguments :=
  ⟨.none, .none, .none, false⟩

/-- Adds the name of the input, which must not be empty. -/
def setInput (arguments : Arguments) (text : String) : Option Arguments :=
  if arguments.input.isSome || text.isEmpty then .none
  else some { arguments with input := some text }

/-- Adds the name of the output, which must not be empty. -/
def setOutput (arguments : Arguments) (text : String) : Option Arguments :=
  if arguments.output.isSome || text.isEmpty then .none
  else some { arguments with output := some text }

/-- Adds the nesting limit. -/
def setLimit (arguments : Arguments) (text : String) : Option Arguments :=
  if arguments.maxNestingDepth.isSome then .none
  else match parseLimit? text with
    | some limit => some { arguments with maxNestingDepth := some limit }
    | .none => .none

/-- Asks for the tokens. -/
def setListTokens (arguments : Arguments) : Option Arguments :=
  if arguments.listTokens then .none else some { arguments with listTokens := true }

/-- What to do with the value of an option that takes one. -/
def setter? : Argument → Option (Arguments → String → Option Arguments)
  | .long "output" _ => some setOutput
  | .short 'o' _ => some setOutput
  | .long "max-nesting-depth" _ => some setLimit
  | _ => .none

/-- The value that is part of an option. -/
def ownValue? : Argument → Option String
  | .long _ value => value
  | .short _ value => value
  | _ => .none

/-- Reads arguments from left to right. It fails at one that is unknown, repeated or malformed. -/
def read (arguments : Arguments) : List String → Option Arguments
  | [] => some arguments
  | text :: rest =>
    match Argument.ofString text with
    | .separator => rest.foldlM setInput arguments
    | .positional text => (arguments.setInput text).bind fun arguments => arguments.read rest
    | .long "tokens" .none => arguments.setListTokens.bind fun arguments => arguments.read rest
    | option =>
      match setter? option, ownValue? option, rest with
      | .none, _, _ => .none
      | some set, some value, rest =>
        (set arguments value).bind fun arguments => arguments.read rest
      | some set, .none, value :: rest =>
        if isOptionValue value then (set arguments value).bind fun arguments => arguments.read rest
        else .none
      | some _, .none, [] => .none

end Arguments

namespace Request

/-- The request that arguments make, unless they are used wrongly. How arguments are told apart is
settled here alone: everything else starts from the request. -/
def ofArguments? (texts : List String) : Option Request := do
  let arguments ← Arguments.none.read texts
  let input ← arguments.input
  let defaults : Options := {}
  let maxNestingDepth := arguments.maxNestingDepth.getD defaults.maxNestingDepth
  return ⟨input, arguments.output.getD streamName, ⟨maxNestingDepth⟩, arguments.listTokens⟩

end Request

end C0
