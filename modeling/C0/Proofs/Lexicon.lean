import C0.CheckedProgram
import C0.Token.Scan
import Mathlib.Algebra.Ring.Nat
import Mathlib.Data.List.Basic
import Mathlib.Tactic.Common

namespace C0

/-- What the body of a function says about its names. -/
structure BodyNames where
  /-- The local variables that it declares, in their order. -/
  declared : List String
  /-- The slots that it takes the address of, in their order. -/
  mentions : List Place
  deriving DecidableEq, Repr

/-- What names mean at a place of a source: the globals and functions before it, and the parameters
and open blocks of the function around it. -/
structure Lexicon where
  /-- The globals in the order of their declaration. -/
  globals : List String
  functions : List String
  /-- Whether the place is in the head of a function. -/
  inHead : Bool
  params : List String
  returnSlots : Nat
  /-- The open blocks, the innermost first, with the variables and slots that each has declared so
  far, the last one first. -/
  blocks : List (List (String × Nat))
  /-- What the body of the function says up to the place. -/
  body : BodyNames
  /-- What the bodies of the functions before it say. -/
  finished : List BodyNames

namespace Lexicon

/-- The meaning of names before the first token. -/
def start : Lexicon :=
  ⟨[], [], false, [], 0, [], ⟨[], []⟩, []⟩

/-- Where the variable of a name is kept: the one of the innermost block that declared it, else the
parameter, else the global. -/
def place? (lexicon : Lexicon) (name : String) : Option Place :=
  ((lexicon.blocks.findSome? (·.lookup name)).map .frame).or
    (((lexicon.params.idxOf? name).map fun i => .argument (lexicon.returnSlots + i)).or
      ((lexicon.globals.idxOf? name).map .static))

/-- Adds an address to what the body says. -/
def mention (lexicon : Lexicon) (place : Place) : Lexicon :=
  { lexicon with body := { lexicon.body with mentions := lexicon.body.mentions ++ [place] } }

/-- A function or a global has a name. -/
def isNamed (lexicon : Lexicon) (name : String) : Bool :=
  lexicon.functions.contains name || lexicon.globals.contains name

/-- A name cannot be declared, whatever its block has declared. -/
def isTaken (lexicon : Lexicon) (name : String) : Bool :=
  if lexicon.blocks.isEmpty then name == entryName || lexicon.isNamed name
  else lexicon.params.contains name

/-- The innermost block has declared a name. -/
def isInBlock (lexicon : Lexicon) (name : String) : Bool :=
  (lexicon.blocks.head?.getD []).any (·.1 == name)

/-- Where the next variable is kept. -/
def newPlace (lexicon : Lexicon) : Place :=
  if lexicon.blocks.isEmpty then .static lexicon.globals.length
  else .frame lexicon.body.declared.length

/-- Declares a variable. Outside functions it is a global. -/
def declare (lexicon : Lexicon) (name : String) : Lexicon :=
  match lexicon.blocks with
  | [] => { lexicon with globals := lexicon.globals ++ [name] }
  | block :: outer =>
    { lexicon with
      blocks := ((name, lexicon.body.declared.length) :: block) :: outer
      body := { lexicon.body with declared := lexicon.body.declared ++ [name] } }

/-- Begins a function. -/
def enter (lexicon : Lexicon) (name : String) : Lexicon :=
  { lexicon with
    functions := lexicon.functions ++ [name], inHead := true, params := [], returnSlots := 0
    body := ⟨[], []⟩ }

/-- Opens a block. -/
def opened (lexicon : Lexicon) : Lexicon :=
  { lexicon with inHead := false, blocks := [] :: lexicon.blocks }

/-- Closes the innermost block. With the last one the function ends. -/
def closed (lexicon : Lexicon) : Lexicon :=
  match lexicon.blocks with
  | _ :: second :: outer => { lexicon with blocks := second :: outer }
  | _ =>
    { lexicon with
      params := [], returnSlots := 0, blocks := []
      finished := lexicon.finished ++ [lexicon.body] }

/-- What comes of a token. -/
inductive Move where
  /-- Nothing more can be told. -/
  | stop
  | refuse (fault : Fault Nat)
  /-- Goes on after the token and so many readings behind it. -/
  | go (next : Lexicon) (more : Nat)

/-- A declaration after its name at a site, which is not taken. -/
def typeMove (lexicon : Lexicon) (name : String) (site : Nat) : List Reading → Move
  | .ok (.mark .colon) :: .ok (.type ty) :: rest =>
    if ty = .void then .stop
    else if lexicon.isInBlock name then .refuse ⟨.duplicateDeclaration, site⟩
    else if rest.head? = some (.ok (.mark .assign)) then
      .go ((lexicon.declare name).mention lexicon.newPlace) 3
    else .go (lexicon.declare name) 3
  | _ => .stop

/-- A declaration after its first word at a site. -/
def declarationMove (lexicon : Lexicon) (site : Nat) : List Reading → Move
  | .ok (.identifier name) :: rest =>
    if lexicon.isTaken name then .refuse ⟨.duplicateDeclaration, site + 1⟩
    else lexicon.typeMove name (site + 1) rest
  | _ => .stop

/-- A function after its first word at a site. -/
def functionMove (lexicon : Lexicon) (site : Nat) : List Reading → Move
  | .ok (.identifier name) :: _ =>
    if name == entryName || (Library.ofName? name).isSome || lexicon.isNamed name then
      .refuse ⟨.duplicateDeclaration, site + 1⟩
    else .go (lexicon.enter name) 1
  | _ => .stop

/-- A parameter after its name at a site. -/
def paramMove (lexicon : Lexicon) (name : String) (site : Nat) : List Reading → Move
  | .ok (.mark .colon) :: .ok (.type ty) :: _ =>
    if ty = .void then .stop
    else if lexicon.params.contains name then .refuse ⟨.duplicateDeclaration, site⟩
    else .go { lexicon with params := lexicon.params ++ [name] } 2
  | _ => .stop

/-- A name at a site in an expression. Before a parenthesis it is that of a function. -/
def nameMove (lexicon : Lexicon) (name : String) (site : Nat) (rest : List Reading) : Move :=
  match rest.head?.getD (.ok .eof) with
  | .error _ => .stop
  | .ok kind =>
    if kind = .mark .openParen then
      if (Library.ofName? name).isSome || lexicon.functions.contains name then .go lexicon 0
      else .refuse ⟨.notDeclared, site⟩
    else
      match lexicon.place? name with
      | some place => .go (lexicon.mention place) 0
      | none => .refuse ⟨.notDeclared, site⟩

/-- The end of the source at a site. There must be a function to start with. -/
def endMove (lexicon : Lexicon) (site : Nat) : Move :=
  if lexicon.blocks.isEmpty && !lexicon.inHead && !lexicon.functions.contains mainName then
    .refuse ⟨.notDeclared, site⟩
  else .stop

/-- What comes of a token of a kind at a site, by the readings behind it. -/
def move (lexicon : Lexicon) (site : Nat) (kind : Kind) (rest : List Reading) : Move :=
  match kind with
  | .eof => lexicon.endMove site
  | .identifier name =>
    if lexicon.inHead then lexicon.paramMove name site rest else lexicon.nameMove name site rest
  | .keyword .fnWord => lexicon.functionMove site rest
  | .keyword .letWord => lexicon.declarationMove site rest
  | .keyword .constWord =>
    if lexicon.inHead then .go lexicon 0 else lexicon.declarationMove site rest
  | .keyword .returnWord => .go (lexicon.mention (.argument 0)) 0
  | .mark .openBrace => .go lexicon.opened 0
  | .mark .closeBrace => .go lexicon.closed 0
  | .mark .arrow =>
    match rest with
    | .ok (.type ty) :: _ => .go { lexicon with returnSlots := ty.slots } 1
    | _ => .stop
  | _ => .go lexicon 0

/-- What names mean in the end, after readings from a site on, and the first name that cannot be
declared or has no declaration. -/
def scan (lexicon : Lexicon) (site : Nat) (readings : List Reading) :
    Lexicon × Option (Fault Nat) :=
  match readings with
  | [] =>
    match lexicon.endMove site with
    | .refuse fault => (lexicon, some fault)
    | _ => (lexicon, none)
  | .error _ :: _ => (lexicon, none)
  | .ok kind :: rest =>
    match lexicon.move site kind rest with
    | .stop => (lexicon, none)
    | .refuse fault => (lexicon, some fault)
    | .go next more => next.scan (site + 1 + more) (rest.drop more)
termination_by readings.length

end Lexicon

end C0
