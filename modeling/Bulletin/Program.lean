import Bulletin.CommandLine.Help
import Bulletin.Config
import Bulletin.Http.Address
import Bulletin.Loading.Summary
import Bulletin.Service

/-!
# The program

What a command line comes to, among given files. All but serving is said at once:

    load : loads all archives and says what has been loaded
    dump : loads all archives and prints what is kept as JSON

A program that has done what was asked ends with 0, one that could not with 1, and one that could
not be asked so with 2.
-/

namespace Bulletin

/-- What a program leaves behind. -/
structure Outcome where
  exit : Nat
  stdout : String
  stderr : String
  deriving DecidableEq, Repr, Inhabited

/-- Why the program cannot do what was asked. -/
inductive Failure where
  | config (e : ConfigError)
  | loading (e : LoadError)
  | cannotListen (address : String)
  deriving DecidableEq, Repr, Inhabited

namespace Failure

def message : Failure → String
  | config e => e.message
  | loading e => e.message
  | cannotListen address => "Failed to bind " ++ address

end Failure

namespace Program

/-- What the program does about a command line. -/
inductive Action where
  | stop (o : Outcome)
  /-- Answers requests until it is interrupted. -/
  | serve (c : Config)
  deriving DecidableEq, Repr, Inhabited

/-- The end of a program that has said what was asked. -/
def say (text : String) : Outcome := ⟨0, text, ""⟩

def loadAll (c : Config) (t : FileTree) : Except Failure (LoadSummary × Store) :=
  match (c.archives.loadAll t).run.run Store.empty with
  | (.ok summary, store) => .ok (summary, store)
  | (.error e, _) => .error (.loading e)

def execute (c : Config) (t : FileTree) : Command → Except Failure Action
  | .serve =>
    if !t.isDirectory c.archives.path then .error (.loading (.noRoot c.archives.path))
    else if Http.isOwn c.bind then .ok (.serve c)
    else .error (.cannotListen c.bind)
  | .load => do
    let (summary, store) ← loadAll c t
    return .stop (say (String.join ((summary.lines store.holdings).map (· ++ "\n"))))
  | .dump => do
    let (_, store) ← loadAll c t
    return .stop (say (store.holdings.written.pretty ++ "\n"))

def start (t : FileTree) (command : Command) (config : Path) : Except Failure Action := do
  let c ← (Config.load t config).mapError .config
  execute c t command

/-- What the program does, called with arguments among files. -/
def run (t : FileTree) (args : List String) : Action :=
  match CommandLine.read args with
  | .error e => .stop ⟨2, "", e.message⟩
  | .ok .version => .stop (say (programName ++ " " ++ Service.version ++ "\n"))
  | .ok (.help topic long) => .stop (say (CommandLine.help topic long))
  | .ok (.run command config) =>
    match start t command ⟨config.getD usualConfig⟩ with
    | .ok action => action
    | .error e => .stop ⟨1, "", "Error: " ++ e.message ++ "\n"⟩

end Program

end Bulletin
