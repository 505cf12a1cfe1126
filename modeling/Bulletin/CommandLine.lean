import Bulletin.Text.Split

/-!
# Command lines

A command line names a command, and the file of the configuration if it is not the usual one:

    read ["--config", "a.toml", "load"] = .ok (.run .load (some "a.toml"))
    read ["load", "--config=a.toml"]    = .ok (.run .load (some "a.toml"))
    read ["help", "serve"]              = .ok (.help (.command .serve) true)
    read ["load", "more"]               = .error (.unknownArgument "more")

The option may stand in front of the command and behind it; then the one behind counts. What it is
given is only looked at when the next option has been found, or all arguments are read.
-/

namespace Bulletin

/-- What the program can do. -/
inductive Command where
  | serve
  | load
  | dump
  deriving DecidableEq, Repr, Inhabited

namespace Command

def name : Command → String
  | serve => "serve"
  | load => "load"
  | dump => "dump"

def all : List Command := [serve, load, dump]

def ofName? (name : String) : Option Command := all.find? (·.name = name)

end Command

namespace CommandLine

/-- What there is help on. -/
inductive Topic where
  | program
  | command (c : Command)
  | help
  deriving DecidableEq, Repr, Inhabited

inductive Request where
  /-- A command, with the file of the configuration if one is named. -/
  | run (c : Command) (config : Option String)
  /-- Help, which may be at some length. -/
  | help (topic : Topic) (long : Bool)
  | version
  deriving DecidableEq, Repr, Inhabited

/-- Why a command line cannot be followed. -/
inductive UsageError where
  | noArguments
  | noCommand
  | unknownCommand (name : String)
  | unknownArgument (arg : String)
  /-- The configuration has no name. -/
  | noValue
  /-- The configuration is named twice. -/
  | repeated
  /-- A flag is given a value. -/
  | surplusValue (value flag : String)
  deriving DecidableEq, Repr, Inhabited

/-! ## Arguments -/

/-- An argument, taken for itself. -/
inductive Argument where
  /-- Two dashes, behind which there are no options. -/
  | separator
  | long (name : String) (value : Option String)
  | short (letter : Char)
  | word (text : String)
  deriving DecidableEq, Repr, Inhabited

/-- What an argument is by its first characters. -/
def Argument.ofString (s : String) : Argument :=
  match s.toList with
  | ['-', '-'] => .separator
  | '-' :: '-' :: rest =>
    match Text.cutFirst? '=' rest with
    | some (name, value) => .long (String.ofList name) (some (String.ofList value))
    | none => .long (String.ofList rest) none
  | '-' :: letter :: _ => .short letter
  | _ => .word s

/-- What a value of the option is, until it is looked at. -/
inductive Pending where
  | nothing
  /-- The option has been found, and its value is to follow. -/
  | awaited
  | given (value : String)
  deriving DecidableEq, Repr, Inhabited

/-- The options that have been read. -/
structure Options where
  config : Option String
  pending : Pending
  deriving DecidableEq, Repr, Inhabited

namespace Options

def none : Options := ⟨.none, .nothing⟩

/-- Names the configuration. -/
def accept (o : Options) (value : String) : Except UsageError Options :=
  if o.config.isSome then .error .repeated
  else if value.isEmpty then .error .noValue
  else .ok ⟨some value, .nothing⟩

/-- Looks at a value that has been given. -/
def settle (o : Options) : Except UsageError Options :=
  match o.pending with
  | .nothing => .ok o
  | .awaited => .error .noValue
  | .given value => o.accept value

end Options

/-! ## Reading -/

/-- What an argument leads to. -/
inductive Step where
  | options (o : Options)
  | request (r : Request)
  /-- A word that is no value. -/
  | word (text : String)
  | separator
  deriving DecidableEq, Repr, Inhabited

/-- A flag that asks for something. -/
def flag (o : Options) (name : String) (value : Option String) (r : Request) :
    Except UsageError Step :=
  match value with
  | some value => .error (.surplusValue value ("--" ++ name))
  | none => o.settle.map fun _ => .request r

/-- Reads an argument where there is help on a topic. Only the program as a whole has a version. -/
def step (topic : Topic) (o : Options) : Argument → Except UsageError Step
  | .separator => .ok .separator
  | .long "config" (some value) => do return .options (← (← o.settle).accept value)
  | .long "config" none => do return .options { ← o.settle with pending := .awaited }
  | .long "help" value => flag o "help" value (.help topic true)
  | .long name value =>
    if name = "version" && topic = .program then flag o name value .version
    else .error (.unknownArgument ("--" ++ name))
  | .short letter =>
    if letter = 'h' then o.settle.map fun _ => .request (.help topic false)
    else if letter = 'V' && topic = .program then o.settle.map fun _ => .request .version
    else .error (.unknownArgument (String.ofList ['-', letter]))
  | .word text =>
    .ok (if o.pending = .awaited then .options { o with pending := .given text } else .word text)

def readCommand (c : Command) : Options → List String → Except UsageError Request
  | o, [] => do return .run c (← o.settle).config
  | o, arg :: rest => do
    match ← step (.command c) o (.ofString arg) with
    | .options o => readCommand c o rest
    | .request r => return r
    | .word text => throw (.unknownArgument text)
    | .separator =>
      match rest with
      | [] => return .run c (← o.settle).config
      | arg :: _ => throw (.unknownArgument arg)

/-- What is wrong with an argument behind the separator, where there are no commands. -/
def separated (arg : String) : UsageError :=
  if arg = "help" || (Command.ofName? arg).isSome then .unknownArgument arg else .unknownCommand arg

def readHelp : List String → Except UsageError Request
  | [] => .ok (.help .program true)
  | name :: rest => do
    let topic ←
      if name = "help" then pure Topic.help
      else
        match Command.ofName? name with
        | some c => pure (Topic.command c)
        | none => throw (.unknownCommand name)
    match rest with
    | [] => return .help topic true
    | name :: _ => throw (.unknownCommand name)

/-- What is wrong if there is no command. -/
def withoutCommand (o : Options) : Except UsageError Request := do
  throw (if (← o.settle).config.isSome then .noCommand else .noArguments)

def readWith : Options → List String → Except UsageError Request
  | o, [] => withoutCommand o
  | o, arg :: rest => do
    match ← step .program o (.ofString arg) with
    | .options o => readWith o rest
    | .request r => return r
    | .word text =>
      if text = "help" then readHelp rest
      else
        match Command.ofName? text with
        | none => throw (.unknownCommand text)
        | some c =>
          match ← readCommand c .none rest with
          | .run c config => return .run c (config <|> (← o.settle).config)
          | r => return r
    | .separator =>
      match rest with
      | [] => withoutCommand o
      | arg :: _ => throw (separated arg)

def read (args : List String) : Except UsageError Request := readWith .none args

end CommandLine

end Bulletin
