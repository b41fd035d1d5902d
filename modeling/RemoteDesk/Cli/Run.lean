import RemoteDesk.Cli.Arguments
import RemoteDesk.Config.Check
import RemoteDesk.Config.Load
import RemoteDesk.Config.Printer
import RemoteDesk.Desktop.Headless
import RemoteDesk.Tls.Identity

/-!
What a command line leads to: text on the output, a complaint with its causes, or a server that is
ready to listen.
-/
namespace RemoteDesk.Cli

/-- A server with all that it needs before it listens. -/
structure Service where
  config : Config
  endpoint : Net.Endpoint
  directory : Directory
  /-- Without one, connections are plain. -/
  identity : Option Tls.Identity

inductive Outcome where
  | printed (text : String)
  /-- What failed, and why, down to the first cause. -/
  | failed (what : String) (causes : List String)
  | listening (s : Service)
  | help
  | misuse

/-- The desktop that settings describe. -/
def desktopOf (l : Config.Layout) : Desktop.Headless :=
  if l.displays.isEmpty then .standard else .new l.displays l.windows

/-- The displays and windows of a desktop, for a reader at a terminal. -/
def survey (h : Desktop.Headless) : String :=
  let report := Json.object [("displays", .arr (h.allDisplays.map (·.toJson))),
    ("windows", .arr (h.allWindows.map (·.toJson)))]
  (text? (report.pretty 0)).getD "" ++ "\n"

/-- Goes on with the settings in the file at a path, or where the environment says. -/
def withConfig (env : String → Option String) (path? : Option String)
    (next : Config → Reading Outcome) : Reading Outcome :=
  let path : Except Config.LoadError String := match path? with
    | some path => .ok path
    | none => Config.standardPath env
  match path with
  | .error e => return .failed "no --config given" [e.message]
  | .ok path => do
    match ← Config.load path with
    | .ok c => next c
    | .error e => return .failed ("loading " ++ path) (e.message :: e.cause?.toList)

/-- Settings with an address and a port in the place of theirs. -/
def override (bind : Option String) (port : Option UInt16) (c : Config) : Config :=
  { c with server := { c.server with
      bindAddress := bind.getD c.server.bindAddress
      port := port.getD c.server.port } }

/-- Gets a server ready. -/
def prepare (salt : Bytes) (c : Config) : Reading Outcome :=
  match c.check, c.server.endpoint with
  | .error o, _ | .ok (), .error o => return .failed "config rejected" [o.message]
  | .ok (), .ok endpoint =>
    match Directory.ofEntries salt c.users with
    | .error b => return .failed (Config.Objection.badRecord b).message []
    | .ok directory =>
      match c.certificate with
      | some t => do
        match ← Tls.Identity.load t.certPath t.keyPath with
        | .ok identity => return .listening ⟨c, endpoint, directory, some identity⟩
        | .error e => return .failed "loading TLS certificate" (e.message :: e.cause?.toList)
      | none =>
        if c.server.allowPlaintext then return .listening ⟨c, endpoint, directory, none⟩
        else return .failed ("no [tls] section in config; add cert_path/key_path " ++
          "or set server.allow_plaintext = true for local testing") []

/-- An account with a record of the password. -/
def makeAccount (salt : Bytes) (username password : String) (permissions : List Permission) :
    Outcome :=
  if username = "" then .failed "username must not be empty" []
  else match Password.record Argon2.Params.standard salt password with
    | .error e => .failed e.message []
    | .ok record =>
      .printed (UserEntry.render
        ⟨username, record.render, (PermissionSet.ofList permissions).toList⟩)

def Task.run (env : String → Option String) (salt : Bytes) : Task → Reading Outcome
  | .serve config bind port => withConfig env config fun c => prepare salt (override bind port c)
  | .hashPassword username password permissions =>
    return makeAccount salt username password permissions
  | .probe config => withConfig env config fun c => return .printed (survey (desktopOf c.layout))

def version : String := "syscon-server 0.1.0\n"

/-- What a command line leads to. -/
def run (env : String → Option String) (salt : Bytes) (args : List String) : Reading Outcome :=
  match Request.parse env args with
  | .task t => t.run env salt
  | .help => return .help
  | .version => return .printed version
  | .misuse => return .misuse

/-! ### What the user sees -/

/-- Lines behind the first one are indented. -/
def indented (indent : String) (text : String) : String :=
  ("\n" ++ indent).intercalate (text.splitOn "\n")

/-- Several causes are numbered. -/
def causeLines : List String → String
  | [] => ""
  | [cause] => "\n\nCaused by:\n    " ++ indented "    " cause
  | causes => "\n\nCaused by:" ++ String.join (causes.zipIdx.map fun (cause, i) =>
      "\n    " ++ toString i ++ ": " ++ indented "       " cause)

def usage : String :=
  "Usage: syscon-server serve [--config PATH] [--bind IP] [--port PORT]\n" ++
  "       syscon-server hash-password --username NAME --password PASSWORD [--permissions LIST]\n" ++
  "       syscon-server probe [--config PATH]\n"

namespace Outcome

def stdout : Outcome → String
  | .printed text => text
  | .help => usage
  | _ => ""

def stderr : Outcome → String
  | .failed what causes => "Error: " ++ what ++ causeLines causes ++ "\n"
  | .misuse => usage
  | _ => ""

/-- Failure and misuse can be told apart by the exit code. -/
def exitCode : Outcome → UInt8
  | .failed .. => 1
  | .misuse => 2
  | _ => 0

end Outcome

end RemoteDesk.Cli
