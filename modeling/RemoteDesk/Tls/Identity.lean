import RemoteDesk.Files
import RemoteDesk.Tls.PrivateKey

/-!
The identity that a server shows: its chain of certificates and its private key, each from a file
of its own. What the certificates say is for the peer to judge.
-/
namespace RemoteDesk.Tls

structure Identity where
  certificates : List Bytes
  key : Block
  deriving DecidableEq, Repr, Inhabited

inductive IdentityError where
  | unreadable (path : String) (reason : String)
  | noCertificates (path : String)
  | noPrivateKey (path : String)
  | unusableKey
  deriving DecidableEq, Repr, Inhabited

def ArmourFault.message : ArmourFault → String
  | .noEnd label => "section end \"" ++ (text? (endMark label)).getD "" ++ "\" missing"
  | .badStart line => "illegal section start: \"" ++ (text? line).getD "" ++ "\""
  | .badContent => "invalid base64"

def IdentityError.message : IdentityError → String
  | .unreadable path reason => "failed to read " ++ path ++ ": " ++ reason
  | .noCertificates path => "no certificates found in " ++ path
  | .noPrivateKey path => "no private key found in " ++ path
  | .unusableKey =>
    "invalid TLS configuration: unexpected error: " ++
      "failed to parse private key as RSA, ECDSA, or EdDSA"

/-- What lies behind the error, if there is more to say. -/
def IdentityError.cause? : IdentityError → Option String
  | .unreadable _ reason => some reason
  | .unusableKey =>
    some "unexpected error: failed to parse private key as RSA, ECDSA, or EdDSA"
  | _ => none

/-- The certificates of a text, which has to be well formed to its end. -/
def certificatesOf (path : String) (a : Armour) : Except IdentityError (List Bytes) :=
  match a.fault, a.blocks.filter (·.kind = .certificate) with
  | some fault, _ => .error (.unreadable path fault.message)
  | none, [] => .error (.noCertificates path)
  | none, blocks => .ok (blocks.map (·.content))

/-- The first private key of a text; what follows it does not matter. -/
def privateKeyOf (path : String) (a : Armour) : Except IdentityError Block :=
  match a.blocks.find? (·.kind.isPrivateKey), a.fault with
  | some block, _ => .ok block
  | none, some fault => .error (.unreadable path fault.message)
  | none, none => .error (.noPrivateKey path)

/-- The blocks of a file. -/
def armourOf (path : String) (file : FileResult) : Except IdentityError Armour :=
  match file with
  | .ok bs => .ok (.parse bs)
  | .error fault => .error (.unreadable path fault.message)

/-- The identity in two files. The certificates are read before the key. -/
def Identity.load (certPath keyPath : String) : Reading (Except IdentityError Identity) := do
  match (armourOf certPath (← Reading.contents certPath)).bind (certificatesOf certPath) with
  | .error e => return .error e
  | .ok certificates =>
    match (armourOf keyPath (← Reading.contents keyPath)).bind (privateKeyOf keyPath) with
    | .error e => return .error e
    | .ok key => return if key.isUsableKey then .ok ⟨certificates, key⟩ else .error .unusableKey

end RemoteDesk.Tls
