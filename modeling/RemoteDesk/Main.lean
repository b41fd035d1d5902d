import RemoteDesk.Cli.Run

/-!
The program: hands the command line, the environment and files to `Cli.run`, and shows what comes
of it.
-/
namespace RemoteDesk.Cli

/-- Reads a file of the machine. -/
def readFile (path : String) : IO FileResult := do
  if let some fault := pathFault? path then return .error fault
  try
    let bytes ← IO.FS.readBinFile path
    return .ok bytes.data.toList
  catch e =>
    match e with
    | .noFileOrDirectory .. => return .error .notFound
    | .permissionDenied .. => return .error .denied
    | .inappropriateType .. => return .error .isADirectory
    | .invalidArgument .. => return .error .nameTooLong
    | e => return .error (.other (toString e))

/-- Carries out a computation with the files of the machine. -/
def onMachine : Reading α → IO α
  | .done a => return a
  | .file path next => do
    let r ← readFile path
    onMachine (next r)

/-- The variables of the environment that matter. -/
def environmentNames : List String :=
  ["SYSCON_CONFIG", "SYSCON_PASSWORD", "XDG_CONFIG_HOME", "HOME"]

end RemoteDesk.Cli

open RemoteDesk

def main (args : List String) : IO UInt32 := do
  let known ← Cli.environmentNames.mapM fun name => do return (name, ← IO.getEnv name)
  let env := fun name => (known.lookup name).join
  let salt ← IO.getRandomBytes 16
  let outcome ← Cli.onMachine (Cli.run env salt.data.toList args)
  match outcome with
  | .listening s =>
    IO.eprintln ("Error: no sockets to listen on " ++ s.endpoint.text)
    return 1
  | outcome =>
    IO.print outcome.stdout
    IO.eprint outcome.stderr
    return outcome.exitCode.toUInt32
