import RemoteDesk.Config.Parser
import RemoteDesk.Files

/-!
Settings from a file. A file that is not there stands for the defaults. Without a path of its own
the file lies in the directory for settings that the environment names.
-/
namespace RemoteDesk.Config

inductive LoadError where
  | noDirectory
  | unreadable (path : String) (fault : FileFault)
  | unfit (fault : Fault)
  deriving Repr, Inhabited

def Fault.message : Fault → String
  | .notToml => "TOML parse error"
  | .mismatch m => m.message .plain

def LoadError.message : LoadError → String
  | .noDirectory => "could not determine platform config directory"
  | .unreadable path fault => "I/O error accessing config at " ++ path ++ ": " ++ fault.message
  | .unfit fault => "failed to parse config TOML: " ++ fault.message

/-- What lies behind the error, if there is more to say. -/
def LoadError.cause? : LoadError → Option String
  | .noDirectory => none
  | .unreadable _ fault => some fault.message
  | .unfit fault => some fault.message

/-- The settings that a file spells. -/
def ofBytes (path : String) (bs : Bytes) : Except LoadError Config :=
  match text? bs with
  | none => .error (.unreadable path .notText)
  | some text => (parse text).mapError .unfit

/-- The settings in a file. -/
def load (path : String) : Reading (Except LoadError Config) := do
  match ← Reading.contents path with
  | .ok bs => return ofBytes path bs
  | .error .notFound => return .ok {}
  | .error fault => return .error (.unreadable path fault)

/-- A name inside a directory. -/
def inside (directory name : String) : String :=
  if directory = "" ∨ directory.endsWith "/" then directory ++ name else directory ++ "/" ++ name

/-- Where the settings lie, by the variables of the environment. -/
def standardPath (env : String → Option String) : Except LoadError String :=
  let base := match env "XDG_CONFIG_HOME" with
    | some base => some base
    | none => (env "HOME").map fun home => inside home ".config"
  match base with
  | some base => .ok (inside (inside base "syscon") "config.toml")
  | none => .error .noDirectory

end RemoteDesk.Config
