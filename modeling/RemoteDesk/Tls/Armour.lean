import RemoteDesk.Text.Base64

/-!
Binary objects wrapped in text: between a line that begins a block and one that ends it, both with
its label, stands the Base64 form of the object. Text outside of blocks is passed over, and so are
blocks with a label that means nothing here.
-/
namespace RemoteDesk.Tls

/-- What a block holds. -/
inductive BlockKind where
  | certificate
  | publicKey
  /-- A private key of any algorithm, which it names. -/
  | privateKey
  | rsaPrivateKey
  | ecPrivateKey
  | revocations
  | request
  | helloConfig
  deriving DecidableEq, Repr, Inhabited

namespace BlockKind

def all : List BlockKind :=
  [.certificate, .publicKey, .privateKey, .rsaPrivateKey, .ecPrivateKey, .revocations, .request,
    .helloConfig]

def label : BlockKind → String
  | .certificate => "CERTIFICATE"
  | .publicKey => "PUBLIC KEY"
  | .privateKey => "PRIVATE KEY"
  | .rsaPrivateKey => "RSA PRIVATE KEY"
  | .ecPrivateKey => "EC PRIVATE KEY"
  | .revocations => "X509 CRL"
  | .request => "CERTIFICATE REQUEST"
  | .helloConfig => "ECHCONFIG"

def ofLabel? (label : Bytes) : Option BlockKind := all.find? fun k => utf8 k.label == label

def isPrivateKey : BlockKind → Bool
  | .privateKey | .rsaPrivateKey | .ecPrivateKey => true
  | _ => false

end BlockKind

structure Block where
  kind : BlockKind
  content : Bytes
  deriving DecidableEq, Repr, Inhabited

/-- Why reading stops before the end. -/
inductive ArmourFault where
  | noEnd (label : Bytes)
  | badStart (line : Bytes)
  | badContent
  deriving DecidableEq, Repr, Inhabited

/-- The blocks of a text, up to the first fault. -/
structure Armour where
  blocks : List Block
  fault : Option ArmourFault
  deriving DecidableEq, Repr, Inhabited

/-- The lines of a text; line feeds and carriage returns both end one. -/
def linesOf : Bytes → List Bytes
  | [] => [[]]
  | b :: bs =>
    if b = 0x0A ∨ b = 0x0D then [] :: linesOf bs
    else match linesOf bs with
      | line :: lines => (b :: line) :: lines
      | [] => [[b]]

def beginMark : Bytes := utf8 "-----BEGIN "

/-- What ends the block with a label. -/
def endMark (label : Bytes) : Bytes := utf8 "-----END " ++ label ++ utf8 "-----"

/-- Counts the dashes at the end of a line that is given last byte first, blanks between them
aside, and gives what stands before the first one. -/
def closingDashes : Nat → Bytes → Bytes → Nat × Bytes
  | count, kept, [] => (count, kept)
  | count, kept, b :: bs =>
    if b = 0x2D then closingDashes (count + 1) bs bs
    else if b = 0x20 then closingDashes count kept bs
    else (count, kept)

/-- The label of a line that begins a block; exactly five dashes end it. -/
def label? (line : Bytes) : Option Bytes :=
  let (count, kept) := closingDashes 0 line.reverse line.reverse
  if count = 5 then some (kept.reverse.drop beginMark.length) else none

/-- Reads lines, inside the block with a label if one is open; `body` holds its lines so far, last
first. Text is not dropped when a block begins inside another. -/
def readBlocks : Option Bytes → List Bytes → List Bytes → Armour
  | none, _, [] => ⟨[], none⟩
  | some label, _, [] => ⟨[], some (.noEnd label)⟩
  | open?, body, line :: lines =>
    if beginMark.isPrefixOf line then
      match label? line with
      | none => ⟨[], some (.badStart line)⟩
      | some label => readBlocks (some label) body lines
    else match open? with
      | none => readBlocks none body lines
      | some label =>
        if (endMark label).isPrefixOf line then
          match BlockKind.ofLabel? label with
          | none => readBlocks none [] lines
          | some kind =>
            let text := body.reverse.flatten.map fun b => Char.ofNat b.toNat
            match Base64.decodeLoose Base64.standard text with
            | none => ⟨[], some .badContent⟩
            | some content =>
              let rest := readBlocks none [] lines
              { rest with blocks := ⟨kind, content⟩ :: rest.blocks }
        else readBlocks (some label) (line :: body) lines

/-- The blocks of a text. -/
def Armour.parse (text : Bytes) : Armour := readBlocks none [] (linesOf text)

end RemoteDesk.Tls
