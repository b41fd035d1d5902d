import RemoteDesk.Tls.Armour
import RemoteDesk.Tls.Curve
import RemoteDesk.Tls.Der
import RemoteDesk.Tls.Edwards

/-!
Which private keys a server can use: pairs of primes, points of the two curves, and seeds of the
twisted one. The parts of a key have to fit each other as far as that can be told without
factoring or proving a number prime.
-/
namespace RemoteDesk.Tls

open Number

/-! ### Keys in the envelope that names their algorithm -/

/-- What the envelope of a key holds. -/
structure Envelope where
  /-- The version that has room for the public key. -/
  wide : Bool
  algorithm : Bytes
  key : Bytes
  publicKey : Option Bytes
  deriving DecidableEq, Repr

namespace Der

def version? (n : Nat) : Option Bool :=
  if n = 0 then some false else if n = 1 then some true else none

/-- The public key of an envelope, in either of two notations. -/
def readPublicKey : Reader Bytes := fun bs =>
  if bs.head? = some (fieldTag 1 true) then do
    let (field, r) ← readTagged (fieldTag 1 true) bs
    return (← wholeBytes? (← whole bitsTag field), r)
  else do
    let (field, r) ← readTagged (fieldTag 1 false) bs
    return (← wholeBytes? field, r)

/-- Reads the fields of an envelope; its attributes are passed over. -/
def readEnvelope : Reader Envelope := fun bs => do
  let (version, r) ← readNatural bs
  let wide ← version? version
  let (algorithm, r) ← readTagged sequenceTag r
  let (key, r) ← readTagged octetsTag r
  let (_, r) ← readIf (fieldTag 0 true) r
  if wide then do
    let (publicKey, r) ← readPublicKey r
    return (⟨wide, algorithm, key, some publicKey⟩, r)
  else return (⟨wide, algorithm, key, none⟩, r)

end Der

/-- The envelope that bytes spell. -/
def Envelope.parse (bs : Bytes) : Option Envelope := do
  match ← Der.readEnvelope (← Der.whole Der.sequenceTag bs) with
  | (e, []) => some e
  | _ => none

/-! ### Pairs of primes -/

structure RsaKey where
  modulus : Nat
  publicExponent : Nat
  privateExponent : Nat
  p : Nat
  q : Nat
  exponentP : Nat
  exponentQ : Nat
  /-- The inverse of `q` modulo `p`. -/
  coefficient : Nat
  deriving DecidableEq, Repr

namespace RsaKey

/-- The key of two primes that bytes spell. -/
def parse (bs : Bytes) : Option RsaKey := do
  let (version, r) ← Der.readNatural (← Der.whole Der.sequenceTag bs)
  let (modulus, r) ← Der.readNatural r
  let (publicExponent, r) ← Der.readNatural r
  let (privateExponent, r) ← Der.readNatural r
  let (p, r) ← Der.readNatural r
  let (q, r) ← Der.readNatural r
  let (exponentP, r) ← Der.readNatural r
  let (exponentQ, r) ← Der.readNatural r
  let (coefficient, r) ← Der.readNatural r
  if version = 0 ∧ r = [] then
    some ⟨modulus, publicExponent, privateExponent, p, q, exponentP, exponentQ, coefficient⟩
  else none

/-- Whether a number may be one of two factors of a modulus with so many bits. -/
def isFactor (bits n : Nat) : Bool :=
  n % 2 = 1 && bitLength n = (bits + 1) / 2 && bitLength n % 512 = 0

/-- Whether the parts of the key fit each other. Moduli have 2048 to 4096 bits, up to seven of
which may be missing from the first byte. -/
def isUsable (k : RsaKey) : Bool :=
  let bits := bitLength k.modulus
  k.modulus % 2 = 1 && 2041 ≤ bits && bits ≤ 4096 &&
  k.publicExponent % 2 = 1 && 65537 ≤ k.publicExponent && k.publicExponent < 1 <<< 33 &&
  isFactor bits k.p && isFactor bits k.q && k.p * k.q % k.modulus = 0 &&
  k.privateExponent % 2 = 1 && (bits + 1) / 2 < bitLength k.privateExponent &&
  k.privateExponent < k.modulus &&
  k.coefficient < k.p && k.coefficient * k.q % k.p = 1 &&
  k.exponentP % 2 = 1 && k.exponentP < k.p && k.exponentQ % 2 = 1 && k.exponentQ < k.q

end RsaKey

/-- The name of keys of two primes. -/
def rsaAlgorithm : Bytes :=
  [0x06, 0x09, 0x2a, 0x86, 0x48, 0x86, 0xf7, 0x0d, 0x01, 0x01, 0x01, 0x05, 0x00]

def isRsaKey (bs : Bytes) : Bool :=
  match RsaKey.parse bs with
  | some k => k.isUsable
  | none => false

/-! ### Curves -/

/-- A curve with its name. -/
structure NamedCurve where
  curve : Curve
  name : Bytes

def namedCurves : List NamedCurve :=
  [⟨.p256, [0x06, 0x08, 0x2a, 0x86, 0x48, 0xce, 0x3d, 0x03, 0x01, 0x07]⟩,
    ⟨.p384, [0x06, 0x05, 0x2b, 0x81, 0x04, 0x00, 0x22]⟩]

/-- The name of keys on a curve. -/
def NamedCurve.algorithm (c : NamedCurve) : Bytes :=
  [0x06, 0x07, 0x2a, 0x86, 0x48, 0xce, 0x3d, 0x02, 0x01] ++ c.name

/-- A key on a curve: a factor, and the base point times it. -/
structure CurveKey where
  factor : Bytes
  curve : Option Bytes
  point : Bytes
  deriving DecidableEq, Repr

/-- The key on a curve that bytes spell. -/
def CurveKey.parse (bs : Bytes) : Option CurveKey := do
  let (version, r) ← Der.readNatural (← Der.whole Der.sequenceTag bs)
  let (factor, r) ← Der.readTagged Der.octetsTag r
  let (curve, r) ← Der.readIf (Der.fieldTag 0 true) r
  let field ← Der.whole (Der.fieldTag 1 true) r
  let point ← Der.wholeBytes? (← Der.whole Der.bitsTag field)
  if version = 1 then some ⟨factor, curve, point⟩ else none

/-- Whether a key is one on the curve. -/
def CurveKey.isOn (k : CurveKey) (c : NamedCurve) : Bool :=
  let n := Der.number k.factor
  (k.curve = none || k.curve = some c.name) && k.factor.length = c.curve.width &&
  0 < n && n < c.curve.order && c.curve.encode (c.curve.multiple n) == k.point

def isCurveKey (c : NamedCurve) (bs : Bytes) : Bool :=
  match CurveKey.parse bs with
  | some k => k.isOn c
  | none => false

/-! ### Seeds -/

/-- The name of keys that are seeds. -/
def seedAlgorithm : Bytes := [0x06, 0x03, 0x2b, 0x65, 0x70]

/-- Whether a key is a seed, and its public key, if there is one, belongs to it. -/
def isSeed (key : Bytes) (publicKey : Option Bytes) : Bool :=
  match Der.whole Der.octetsTag key with
  | some seed =>
    seed.length = 32 &&
    (match publicKey with
      | some expected => Edwards.publicKey seed == expected
      | none => true)
  | none => false

/-! ### Usable keys -/

/-- Only seeds may come with their public key. -/
def Envelope.isUsable (e : Envelope) : Bool :=
  (!e.wide && e.algorithm = rsaAlgorithm && isRsaKey e.key) ||
  (!e.wide && namedCurves.any fun c => e.algorithm = c.algorithm && isCurveKey c e.key) ||
  (e.algorithm = seedAlgorithm && isSeed e.key e.publicKey)

/-- Whether a block holds a private key that can be used. -/
def Block.isUsableKey (b : Block) : Bool :=
  match b.kind with
  | .privateKey => ((Envelope.parse b.content).map (·.isUsable)).getD false
  | .rsaPrivateKey => isRsaKey b.content
  | .ecPrivateKey => namedCurves.any fun c => isCurveKey c b.content
  | _ => false

end RemoteDesk.Tls
