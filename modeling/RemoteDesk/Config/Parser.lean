import RemoteDesk.Config.Basic
import RemoteDesk.Toml.Parser
import RemoteDesk.Toml.Typed

/-!
Reading settings from a TOML document. What the document leaves out keeps its default, and what it
says beyond the settings is passed over.
-/
namespace RemoteDesk.Config

open Data Toml

/-- The choices of a list of permissions. -/
def permissionChoices : List (String × Permission) := Permission.all.map fun p => (p.name, p)

def Server.ofToml : Toml → Except Mismatch Server :=
  let address := Field.withDefault "bind_address" string ({} : Server).bindAddress
  let port := Field.withDefault "port" uint16 ({} : Server).port
  let connections := Field.withDefault "max_connections" size ({} : Server).maxConnections
  let idle := Field.withDefault "idle_timeout_secs" uint64 ({} : Server).idleTimeoutSecs
  let handshake :=
    Field.withDefault "handshake_timeout_secs" uint64 ({} : Server).handshakeTimeoutSecs
  let frame := Field.withDefault "max_frame_bytes" size ({} : Server).maxFrameBytes
  let plaintext := Field.withDefault "allow_plaintext" bool ({} : Server).allowPlaintext
  let level := Field.withDefault "log_level" string ({} : Server).logLevel
  record "ServerConfig"
    [address.test, port.test, connections.test, idle.test, handshake.test, frame.test,
      plaintext.test, level.test] fun es => do
      return ⟨← address.of es, ← port.of es, ← connections.of es, ← idle.of es, ← handshake.of es,
        ← frame.of es, ← plaintext.of es, ← level.of es⟩

def Certificate.ofToml : Toml → Except Mismatch Certificate :=
  let cert := Field.needed "cert_path" (asTextOf "path string")
  let key := Field.needed "key_path" (asTextOf "path string")
  record "TlsConfig" [cert.test, key.test] fun es => do return ⟨← cert.of es, ← key.of es⟩

def Login.ofToml : Toml → Except Mismatch Login :=
  let ttl := Field.withDefault "token_ttl_secs" uint64 ({} : Login).tokenTtlSecs
  let free := Field.withDefault "free_attempts" uint32 ({} : Login).freeAttempts
  let base := Field.withDefault "backoff_base_ms" uint64 ({} : Login).backoffBaseMs
  let most := Field.withDefault "backoff_max_secs" uint64 ({} : Login).backoffMaxSecs
  record "AuthConfig" [ttl.test, free.test, base.test, most.test] fun es => do
    return ⟨← ttl.of es, ← free.of es, ← base.of es, ← most.of es⟩

def Commands.ofToml : Toml → Except Mismatch Commands :=
  let most := Field.withDefault "max_commands_per_window" uint32 ({} : Commands).maxPerWindow
  let window := Field.withDefault "window_secs" uint64 ({} : Commands).windowSecs
  let duplicates := Field.withDefault "duplicate_window" size ({} : Commands).duplicateWindow
  record "LimitsConfig" [most.test, window.test, duplicates.test] fun es => do
    return ⟨← most.of es, ← window.of es, ← duplicates.of es⟩

def Capture.ofToml : Toml → Except Mismatch Capture :=
  let most := Field.withDefault "max_inline_bytes" size ({} : Capture).maxInlineBytes
  record "CaptureConfig" [most.test] fun es => do return ⟨← most.of es⟩

def Layout.ofToml : Toml → Except Mismatch Layout :=
  let displays := Field.withDefault "displays" (asList Desktop.Display.ofData) []
  let windows := Field.withDefault "windows" (asList Desktop.Window.ofData) []
  record "DesktopConfig" [displays.test, windows.test] fun es => do
    return ⟨← displays.of es, ← windows.of es⟩

def entryOfToml : Toml → Except Mismatch UserEntry :=
  let username := Field.needed "username" string
  let stored := Field.needed "password_hash" string
  let permissions := Field.withDefault "permissions" (asList (asChoice permissionChoices)) []
  record "UserEntry" [username.test, stored.test, permissions.test] fun es => do
    return ⟨← username.of es, ← stored.of es, ← permissions.of es⟩

/-- The settings of a document. -/
def ofToml (document : Entries) : Except Mismatch Config :=
  let server := Field.withDefault "server" Server.ofToml {}
  let certificate := Field.withDefault "tls" (fun v => (Certificate.ofToml v).map some) none
  let login := Field.withDefault "auth" Login.ofToml {}
  let commands := Field.withDefault "limits" Commands.ofToml {}
  let capture := Field.withDefault "capture" Capture.ofToml {}
  let layout := Field.withDefault "desktop" Layout.ofToml {}
  let users := Field.withDefault "users" (asList entryOfToml) []
  record "AppConfig"
    [server.test, certificate.test, login.test, commands.test, capture.test, layout.test,
      users.test] (fun es => do
      return ⟨← server.of es, ← certificate.of es, ← login.of es, ← commands.of es,
        ← capture.of es, ← layout.of es, ← users.of es⟩) (.table .heading document)

/-- Why a text holds no settings. -/
inductive Fault where
  | notToml
  | mismatch (m : Mismatch)
  deriving Repr, Inhabited

/-- The settings that a text spells. -/
def parse (text : String) : Except Fault Config :=
  match Toml.parse text with
  | none => .error .notToml
  | some document => (ofToml document).mapError .mismatch

end RemoteDesk.Config
