import TensorGrid.Lib.Lts
import TensorGrid.Lib.Outcome
import TensorGrid.Lib.Signature
import TensorGrid.UuidText

/-!
# Secure pairing

The pairing manager of `crates/secure-pairing`: challenges, responses, certificates and their
revocation. The signature scheme and SHA-256 are parameters; drawn node ids, challenge bytes and
keys, and the readings of the clock, are arguments. A call that changes the manager returns its
outcome and the manager after it.

`Coordinator` is a coordinator's manager with a record of what its history was: the request each
node id was drawn for, and the certificates issued. Its steps are the calls of the manager's
operations; a `generate_challenge` draws a fresh node id.
-/

namespace TensorGrid

open Rust

/-! ## Messages -/

structure PendingChallenge where
  challenge : Vector UInt8 32
  timestamp : DateTime
  expiresInSeconds : UInt64
deriving DecidableEq

def PendingChallenge.isExpired (pending : PendingChallenge) (now : DateTime) : Bool :=
  now.timestamp - pending.timestamp.timestamp > pending.expiresInSeconds.toInt64.toInt

structure DeviceCertificate where
  nodeId : NodeId
  clusterId : ClusterId
  publicKey : List UInt8
  issuedAt : Int
  expiresAt : Int
  coordinatorSignature : List UInt8
deriving DecidableEq, Repr

structure NodeKeyPair where
  nodeId : NodeId
  publicKey : List UInt8
  certificate : DeviceCertificate
deriving DecidableEq, Repr

structure PairingRequest where
  nodeName : String
  hostname : String
  clusterId : ClusterId
  publicKey : List UInt8
  fingerprint : String
deriving DecidableEq, Repr

structure PairingChallenge where
  nodeId : NodeId
  challenge : List UInt8
  coordinatorPublicKey : List UInt8
deriving DecidableEq, Repr

structure PairingResponse where
  nodeId : NodeId
  challengeResponse : List UInt8
  challengeSignature : List UInt8
deriving DecidableEq, Repr

inductive PairingError
  | message (text : String)
  | invalidPublicKey
  | verificationFailed
deriving DecidableEq, Repr

/-! ## The manager -/

structure PairingManager (S : SignatureScheme) where
  clusterId : ClusterId
  pendingChallenges : HashMap String PendingChallenge
  nodeKeys : HashMap NodeId NodeKeyPair
  coordinatorKey : S.SecretKey

/-- The key of a pending challenge: the node id and the first eight bytes of the challenge. -/
def challengeId (nodeId : NodeId) (challenge : List UInt8) : String :=
  nodeId.hyphenated ++ ":" ++ Hex.encode (challenge.take 8)

/-- The text whose hash the coordinator signs. -/
def certificateData (nodeId : NodeId) (clusterId : ClusterId) (publicKey : List UInt8)
    (issuedAt expiresAt : Int) : String :=
  nodeId.hyphenated ++ ":" ++ clusterId.hyphenated ++ ":" ++ Hex.encode publicKey ++ ":" ++
    toString issuedAt ++ ":" ++ toString expiresAt

namespace PairingManager

variable {S : SignatureScheme} (sha256 : List UInt8 → List UInt8)

def newCoordinator (clusterId : ClusterId) (key : S.SecretKey) : PairingManager S :=
  ⟨clusterId, ∅, ∅, key⟩

def newNode (clusterId : ClusterId) (key : S.SecretKey) : PairingManager S :=
  ⟨clusterId, ∅, ∅, key⟩

def publicKey (m : PairingManager S) : List UInt8 := S.publicBytes (S.publicKey m.coordinatorKey)

/-- The request is not looked at. -/
def generateChallenge (m : PairingManager S) (_request : PairingRequest) (nodeId : NodeId)
    (challenge : Vector UInt8 32) (now : DateTime) : PairingChallenge × PairingManager S :=
  let pending : PendingChallenge := { challenge, timestamp := now, expiresInSeconds := 300 }
  ({ nodeId, challenge := challenge.toList, coordinatorPublicKey := m.publicKey },
    { m with pendingChallenges :=
        m.pendingChallenges.insert (challengeId nodeId challenge.toList) pending })

/-- The checks on a response to a pending challenge: expiry, key, signature. -/
def checkResponse (S : SignatureScheme) (pending : PendingChallenge) (response : PairingResponse)
    (nodePublicKey : List UInt8) (now : DateTime) : Outcome PairingError Unit :=
  if pending.isExpired now then .err (.message "Challenge expired")
  else
    match S.publicOfBytes nodePublicKey with
    | none => .err .invalidPublicKey
    | some publicKey =>
      if response.challengeSignature.length ≠ 64 then
        .err (.message "Invalid signature length")
      else
        match S.signatureOfBytes response.challengeSignature with
        | none => .err (.message "Invalid signature")
        | some signature =>
          if S.verify publicKey pending.challenge.toList signature then .ok ()
          else .err .verificationFailed

/-- The certificate issued at `now`, valid for one year. -/
def issueCertificate (m : PairingManager S) (nodeId : NodeId) (nodePublicKey : List UInt8)
    (now : DateTime) : DeviceCertificate :=
  let expires := now.timestamp + 365 * 24 * 60 * 60
  let data := certificateData nodeId m.clusterId nodePublicKey now.timestamp expires
  let signature := S.sign m.coordinatorKey (sha256 data.toByteArray.data.toList)
  { nodeId
    clusterId := m.clusterId
    publicKey := nodePublicKey
    issuedAt := now.timestamp
    expiresAt := expires
    coordinatorSignature := S.signatureBytes signature }

/-- `checkedAt` is the clock of the expiry check, `now` that of the certificate. The slice of the
first eight bytes of the response panics if there are fewer. -/
def verifyResponse (m : PairingManager S) (response : PairingResponse)
    (nodePublicKey : List UInt8) (checkedAt now : DateTime) :
    Outcome PairingError DeviceCertificate × PairingManager S :=
  if response.challengeResponse.length < 8 then (.panic, m)
  else
    let id := challengeId response.nodeId response.challengeResponse
    match m.pendingChallenges.lookup id with
    | none => (.err (.message "Challenge not found or expired"), m)
    | some pending =>
      let m := { m with pendingChallenges := m.pendingChallenges.erase id }
      match checkResponse S pending response nodePublicKey checkedAt with
      | .err e => (.err e, m)
      | .panic => (.panic, m)
      | .ok () =>
        let certificate := m.issueCertificate sha256 response.nodeId nodePublicKey now
        (.ok certificate,
          { m with nodeKeys :=
              m.nodeKeys.insert response.nodeId ⟨response.nodeId, nodePublicKey, certificate⟩ })

def signChallenge (m : PairingManager S) (challenge : List UInt8) : List UInt8 :=
  S.signatureBytes (S.sign m.coordinatorKey challenge)

def verifyCoordinatorSignature (S : SignatureScheme) (data signature coordinatorPublicKey :
    List UInt8) : Outcome PairingError Bool :=
  match S.publicOfBytes coordinatorPublicKey with
  | none => .err .invalidPublicKey
  | some publicKey =>
    if signature.length ≠ 64 then .err (.message "Invalid signature length")
    else
      match S.signatureOfBytes signature with
      | none => .err (.message "Invalid signature")
      | some sig => .ok (S.verify publicKey data sig)

def verifyCertificate (S : SignatureScheme) (certificate : DeviceCertificate)
    (coordinatorPublicKey : List UInt8) (now : DateTime) : Outcome PairingError Bool :=
  if now.timestamp > certificate.expiresAt then .ok false
  else
    let data := certificateData certificate.nodeId certificate.clusterId certificate.publicKey
      certificate.issuedAt certificate.expiresAt
    verifyCoordinatorSignature S (sha256 data.toByteArray.data.toList)
      certificate.coordinatorSignature coordinatorPublicKey

def revokeNode (m : PairingManager S) (nodeId : NodeId) : PairingManager S :=
  { m with nodeKeys := m.nodeKeys.erase nodeId }

def registeredNodes (m : PairingManager S) : List NodeId := m.nodeKeys.keys

def cleanupExpiredChallenges (m : PairingManager S) (now : DateTime) : PairingManager S :=
  { m with pendingChallenges :=
      m.pendingChallenges.retain fun _ pending => !pending.isExpired now }

end PairingManager

def generateFingerprint (sha256 : List UInt8 → List UInt8) (publicKey : List UInt8) : String :=
  Hex.encode ((sha256 publicKey).take 8)

/-! ## Runs -/

inductive PairingEvent
  | generateChallenge (request : PairingRequest) (nodeId : NodeId) (challenge : Vector UInt8 32)
      (now : DateTime)
  | verifyResponse (response : PairingResponse) (nodePublicKey : List UInt8)
      (checkedAt now : DateTime)
  | signChallenge (challenge : List UInt8)
  | revokeNode (nodeId : NodeId)
  | cleanupExpiredChallenges (now : DateTime)

/-- The manager, the request each node id was drawn for, and the certificates issued. -/
structure Coordinator (S : SignatureScheme) where
  manager : PairingManager S
  requested : HashMap NodeId PairingRequest
  issued : List DeviceCertificate

namespace Coordinator

variable {S : SignatureScheme} (sha256 : List UInt8 → List UInt8)

def init (clusterId : ClusterId) (key : S.SecretKey) : Coordinator S :=
  ⟨.newCoordinator clusterId key, ∅, []⟩

/-- One call. A node id that was drawn before is not drawn again. -/
def step (c : Coordinator S) : PairingEvent → Option (Coordinator S)
  | .generateChallenge request nodeId challenge now =>
    if nodeId ∈ c.requested then none
    else
      some { c with
        manager := (c.manager.generateChallenge request nodeId challenge now).2
        requested := c.requested.insert nodeId request }
  | .verifyResponse response nodePublicKey checkedAt now =>
    match c.manager.verifyResponse sha256 response nodePublicKey checkedAt now with
    | (.ok certificate, m) => some { c with manager := m, issued := certificate :: c.issued }
    | (.err _, m) => some { c with manager := m }
    | (.panic, m) => some { c with manager := m }
  | .signChallenge _ => some c
  | .revokeNode nodeId => some { c with manager := c.manager.revokeNode nodeId }
  | .cleanupExpiredChallenges now =>
    some { c with manager := c.manager.cleanupExpiredChallenges now }

end Coordinator

end TensorGrid
