import RemoteDesk.Auth.Directory
import RemoteDesk.Desktop.Geometry

/-!
The settings of a server. Every section and every setting but the paths of a certificate and the
name and record of an account has a default.
-/
namespace RemoteDesk

namespace Config

/-- Where the server listens, and what it takes from its peers. -/
structure Server where
  bindAddress : String := "0.0.0.0"
  port : UInt16 := 8080
  maxConnections : Nat := 100
  idleTimeoutSecs : UInt64 := 300
  handshakeTimeoutSecs : UInt64 := 10
  maxFrameBytes : Nat := 1048576
  allowPlaintext : Bool := false
  logLevel : String := "info"
  deriving DecidableEq, Repr, Inhabited

/-- The files of the certificate that the server shows. -/
structure Certificate where
  certPath : String
  keyPath : String
  deriving DecidableEq, Repr, Inhabited

/-- How long logins last, and how failed attempts slow down the next. -/
structure Login where
  tokenTtlSecs : UInt64 := 3600
  freeAttempts : UInt32 := 5
  backoffBaseMs : UInt64 := 1000
  backoffMaxSecs : UInt64 := 60
  deriving DecidableEq, Repr, Inhabited

/-- How many commands a session lets through. -/
structure Commands where
  /-- None stands for no limit. -/
  maxPerWindow : UInt32 := 600
  windowSecs : UInt64 := 60
  duplicateWindow : Nat := 1024
  deriving DecidableEq, Repr, Inhabited

structure Capture where
  maxInlineBytes : Nat := 8388608
  deriving DecidableEq, Repr, Inhabited

/-- The desktop to pretend; without displays the built-in one. -/
structure Layout where
  displays : List Desktop.Display := []
  windows : List Desktop.Window := []
  deriving DecidableEq, Repr, Inhabited

end Config

structure Config where
  server : Config.Server := {}
  certificate : Option Config.Certificate := none
  login : Config.Login := {}
  commands : Config.Commands := {}
  capture : Config.Capture := {}
  layout : Config.Layout := {}
  users : List UserEntry := []
  deriving DecidableEq, Repr, Inhabited

namespace Config

/-! ### Writing -/

def Server.toJson (s : Server) : Json :=
  .object [("bind_address", .str s.bindAddress), ("port", .nat s.port.toNat),
    ("max_connections", .nat s.maxConnections),
    ("idle_timeout_secs", .nat s.idleTimeoutSecs.toNat),
    ("handshake_timeout_secs", .nat s.handshakeTimeoutSecs.toNat),
    ("max_frame_bytes", .nat s.maxFrameBytes), ("allow_plaintext", .bool s.allowPlaintext),
    ("log_level", .str s.logLevel)]

def Certificate.toJson (c : Certificate) : Json :=
  .object [("cert_path", .str c.certPath), ("key_path", .str c.keyPath)]

def Login.toJson (l : Login) : Json :=
  .object [("token_ttl_secs", .nat l.tokenTtlSecs.toNat),
    ("free_attempts", .nat l.freeAttempts.toNat),
    ("backoff_base_ms", .nat l.backoffBaseMs.toNat),
    ("backoff_max_secs", .nat l.backoffMaxSecs.toNat)]

def Commands.toJson (c : Commands) : Json :=
  .object [("max_commands_per_window", .nat c.maxPerWindow.toNat),
    ("window_secs", .nat c.windowSecs.toNat), ("duplicate_window", .nat c.duplicateWindow)]

def Capture.toJson (c : Capture) : Json := .object [("max_inline_bytes", .nat c.maxInlineBytes)]

def Layout.toJson (l : Layout) : Json :=
  .object [("displays", .arr (l.displays.map (·.toJson))),
    ("windows", .arr (l.windows.map (·.toJson)))]

def entryJson (u : UserEntry) : Json :=
  .object [("username", .str u.username), ("password_hash", .str u.record),
    ("permissions", .arr (u.permissions.map fun p => .str p.name))]

def toJson (c : Config) : Json :=
  let certificate := match c.certificate with
    | some t => [("tls", t.toJson)]
    | none => []
  .object ([("server", c.server.toJson), ("auth", c.login.toJson), ("limits", c.commands.toJson),
    ("capture", c.capture.toJson), ("desktop", c.layout.toJson),
    ("users", .arr (c.users.map entryJson))] ++ certificate)

end Config

end RemoteDesk
