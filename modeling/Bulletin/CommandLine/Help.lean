import Bulletin.CommandLine
import Bulletin.Text.Column
import Bulletin.Text.Terminal

/-!
# Help

What there is to say about the program and its commands, and about command lines that cannot be
followed. Help at length differs only where there is more to say about a command than one sentence.
-/

namespace Bulletin

def programName : String := "reportd"

/-- Where the configuration is, unless it is named. -/
def usualConfig : String := "./config/reportd.toml"

namespace Command

def about : Command → String
  | serve => "Load all archives, watch for reload triggers and serve the HTTP API"
  | load => "Load all archives once and print what was ingested"
  | dump => "Load all archives once and print the result set as pretty JSON"

/-- What a command does, at length, if that is more. -/
def details? : Command → Option String
  | serve => some <|
      "Load all archives, watch for reload triggers and serve the HTTP API.\n\n" ++
      "The server starts answering immediately; \x60/health\x60 reports " ++
      "\x60\"phase\": \"cold\"\x60 until the initial load has finished."
  | load | dump => none

end Command

namespace CommandLine

/-! ## Layout -/

/-- Something to be explained: its name, and what there is to say. -/
structure Item where
  name : String
  about : String
  deriving DecidableEq, Repr, Inhabited

/-- Items in two columns under a heading. -/
def columns (heading : String) (items : List Item) : String :=
  let width := Text.width (items.map Item.name)
  heading ++ ":\n" ++ String.join (items.map fun i =>
    "  " ++ Text.alignLeft width i.name ++ "  " ++ i.about ++ "\n")

/-- Items under a heading, each explained below its name. -/
def paragraphs (heading : String) (items : List Item) : String :=
  heading ++ ":\n" ++ "\n".intercalate (items.map fun i =>
    "  " ++ i.name ++ "\n" ++ Text.blanks 10 ++
      ("\n" ++ Text.blanks 10).intercalate (i.about.splitOn "\n") ++ "\n")

def page (about usage : String) (parts : List String) : String :=
  about ++ "\n\nUsage: " ++ programName ++ " " ++ usage ++ "\n\n" ++ "\n".intercalate parts

/-! ## Contents -/

/-- What the program is for. -/
def purpose : String := "Report daemon: ingests bulletin archives and serves per-user views"

def helpAbout : String := "Print this message or the help of the given subcommand(s)"

def configOption : String := "--config <CONFIG>"

/-- The option that names the configuration, with `gap` before what is usual. -/
def configItem (gap : String) : Item :=
  ⟨"    " ++ configOption,
    "Path to configuration file (TOML)" ++ gap ++ "[default: " ++ usualConfig ++ "]"⟩

def helpItem (more : String) : Item := ⟨"-h, --help", "Print help" ++ more⟩

def versionItem : Item := ⟨"-V, --version", "Print version"⟩

def programHelp : String :=
  let commands := Command.all.map fun c => (⟨c.name, c.about⟩ : Item)
  page purpose "[OPTIONS] <COMMAND>" [columns "Commands" (commands ++ [⟨"help", helpAbout⟩]),
    columns "Options" [configItem " ", helpItem "", versionItem]]

def commandHelp (c : Command) (long : Bool) : String :=
  let usage := c.name ++ " [OPTIONS]"
  match c.details?, long with
  | some details, true =>
    page details usage
      [paragraphs "Options" [configItem "\n\n", helpItem " (see a summary with '-h')"]]
  | some _, false =>
    page c.about usage [columns "Options" [configItem " ", helpItem " (see more with '--help')"]]
  | none, _ => page c.about usage [columns "Options" [configItem " ", helpItem ""]]

def helpHelp : String :=
  page helpAbout "help [COMMAND]..."
    [columns "Arguments" [⟨"[COMMAND]...", "Print help for the subcommand(s)"⟩]]

def help (topic : Topic) (long : Bool) : String :=
  match topic with
  | .program => programHelp
  | .command c => commandHelp c long
  | .help => helpHelp

/-- What is said about a command line that cannot be followed. Arguments are shown as far as they
are text. -/
def UsageError.message : UsageError → String
  | noArguments => programHelp
  | noCommand => "error: '" ++ programName ++ "' requires a subcommand but one was not provided\n"
  | unknownCommand name => "error: unrecognized subcommand '" ++ Text.plain name ++ "'\n"
  | unknownArgument arg => "error: unexpected argument '" ++ Text.plain arg ++ "' found\n"
  | noValue => "error: a value is required for '" ++ configOption ++ "' but none was supplied\n"
  | repeated => "error: the argument '" ++ configOption ++ "' cannot be used multiple times\n"
  | surplusValue value flag =>
    "error: unexpected value '" ++ Text.plain value ++ "' for '" ++ flag ++
      "' found; no more were expected\n"

end CommandLine

end Bulletin
