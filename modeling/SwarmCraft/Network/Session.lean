import SwarmCraft.Protocol.Crypto
import SwarmCraft.Core.Table

/-!
# Introductions, admission, sessions and the two nodes

A proof binds the hello of a peer to a challenge of the receiver and to both ends of the
connection. The admission controller limits how many requests are looked at in a window of time.
Both network nodes keep the connection in use for each transport peer, the challenge that it has
to answer and the application peer that answered; they differ in texts and in how they choose the
connection in use. The swarm is the environment: a turn carries what it reports, the clock
readings and the random challenge drawn in it.

`SwarmNode` carries the daemon's traffic. A new connection replaces the one in use at once.
`DiscoveryNode` carries the directory's traffic. It keeps its own sets of established connections
and agrees with the other end on which of two connections to keep. Diagnostics, dialling, relay
fallbacks and the directory queries do not touch the tables and are left out.
-/

namespace SwarmCraft

open Checked

section

variable {proof : PeerHelloProofV1} {challenge : Nat} {claimant receiver : TransportPeerId}

/-- Why an introduction or a proof is refused. -/
inductive HandshakeError where
  | peerIdMismatch
  | protocolMismatch (version : Nat)
  | signatureInvalid
  | encodingFailed
  | challengeMismatch
  | transportBindingMismatch
  | signingKeyMismatch
  deriving DecidableEq

/-- The text of a refusal. -/
def HandshakeError.text : HandshakeError → String
  | .peerIdMismatch => "peer ID does not match the presented public key"
  | .protocolMismatch version => s!"peer does not support protocol {version}"
  | .signatureInvalid => "peer hello signature is invalid"
  | .encodingFailed => "peer hello cannot be encoded"
  | .challengeMismatch =>
    "connection authentication challenge does not match the live receiver challenge"
  | .transportBindingMismatch => "application proof is bound to a different transport connection"
  | .signingKeyMismatch => "application signing key does not match the advertised peer identity"

section Handshake

variable (C : Crypto)

/-- `verify_peer_hello`. -/
def verifyPeerHello (hello : PeerHelloV1) : Except HandshakeError Unit := do
  ensure (C.peerIdFromPublicKey hello.publicKey = hello.peerId) .peerIdMismatch
  ensure (protocolVersionV1 ∈ hello.protocolVersions) (.protocolMismatch protocolVersionV1)
  ensure (C.verify hello.publicKey (.peerHello hello.unsigned) hello.signature) .signatureInvalid

/-- `build_peer_hello_proof`; the signing key is named by its public key. -/
def buildPeerHelloProof (hello : PeerHelloV1) (signingKey : PublicKey) (challenge : Nat)
    (claimant receiver : TransportPeerId) : Except HandshakeError PeerHelloProofV1 := do
  verifyPeerHello C hello
  ensure (signingKey = hello.publicKey) .signingKeyMismatch
  let proof : PeerHelloProofV1 := ⟨hello, challenge, claimant, receiver, .empty⟩
  return { proof with signature := C.sign signingKey (.peerHelloProof proof.unsigned) }

/-- `verify_peer_hello_proof`. -/
def verifyPeerHelloProof (proof : PeerHelloProofV1) (expectedChallenge : Nat)
    (expectedClaimant localReceiver : TransportPeerId) : Except HandshakeError Unit := do
  verifyPeerHello C proof.hello
  ensure (proof.challenge = expectedChallenge) .challengeMismatch
  ensure (proof.claimantTransportPeer = expectedClaimant ∧
    proof.receiverTransportPeer = localReceiver) .transportBindingMismatch
  ensure (C.verify proof.hello.publicKey (.peerHelloProof proof.unsigned) proof.signature)
    .signatureInvalid

variable {C}

/-- What an accepted proof shows: the key of the named peer signed the challenge for this pair of
transport peers. -/
structure ProofOf (C : Crypto) (proof : PeerHelloProofV1) (peer : PeerId) (challenge : Nat)
    (claimant receiver : TransportPeerId) : Prop where
  /-- The receiver verified the proof against the challenge. -/
  verified : verifyPeerHelloProof C proof challenge claimant receiver = .ok ()
  /-- The peer is named by the proof. -/
  named : proof.hello.peerId = peer
  /-- The key is the key of the peer. -/
  identity : C.peerIdFromPublicKey proof.hello.publicKey = peer
  /-- The proof answers the challenge. -/
  challenge : proof.challenge = challenge
  /-- The proof is bound to its sender. -/
  claimant : proof.claimantTransportPeer = claimant
  /-- The proof is bound to its receiver. -/
  receiver : proof.receiverTransportPeer = receiver
  /-- The key signed the proof. -/
  signed : C.verify proof.hello.publicKey (.peerHelloProof proof.unsigned) proof.signature = true

/-- A proof that is verified is a proof of the peer that it names. -/
theorem proofOf_of_verify (h : verifyPeerHelloProof C proof challenge claimant receiver = .ok ()) :
    ProofOf C proof proof.hello.peerId challenge claimant receiver := by
  have hchecks := h
  simp only [verifyPeerHelloProof, verifyPeerHello, bind_eq_ok, ensure_eq_ok, exists_const]
    at hchecks
  obtain ⟨⟨hidentity, _, _⟩, hchallenge, ⟨hclaimant, hreceiver⟩, hsigned⟩ := hchecks
  exact ⟨h, rfl, hidentity, hchallenge, hclaimant, hreceiver, hsigned⟩

end Handshake

/-- `MAX_APPLICATION_CONNECTIONS`. -/
def maxApplicationConnections : Nat := 64

/-- `MAX_ESTABLISHED_CONNECTIONS_PER_PEER`. -/
def maxEstablishedConnectionsPerPeer : Nat := 2

/-- `AUTH_CHALLENGE_TIMEOUT`, in milliseconds. -/
def authChallengeTimeout : Nat := 10000

/-- `REQUEST_WINDOW`, in milliseconds. -/
def requestWindow : Nat := 10000

/-- `MAX_UNAUTHENTICATED_REQUESTS_PER_PEER`. -/
def maxUnauthenticatedRequestsPerPeer : Nat := 8

/-- `MAX_AUTHENTICATED_REQUESTS_PER_PEER`. -/
def maxAuthenticatedRequestsPerPeer : Nat := 128

/-- `MAX_GLOBAL_UNAUTHENTICATED_REQUESTS`. -/
def maxGlobalUnauthenticatedRequests : Nat := 256

/-- `MAX_GLOBAL_AUTHENTICATED_REQUESTS`. -/
def maxGlobalAuthenticatedRequests : Nat := 4096

/-- The requests that were admitted in the current window. -/
structure WindowCounter where
  started : Nat
  count : Nat
  deriving DecidableEq

/-- `WindowCounter::new`. -/
def WindowCounter.new (now : Nat) : WindowCounter := ⟨now, 0⟩

/-- `WindowCounter::admit`. -/
def WindowCounter.admit (counter : WindowCounter) (now limit : Nat) : Bool × WindowCounter :=
  let current := if requestWindow ≤ now - counter.started then ⟨now, 0⟩ else counter
  if limit ≤ current.count then (false, current)
  else (true, { current with count := current.count + 1 })

/-- The two windows of a peer. -/
structure PeerBudget where
  unauthenticated : WindowCounter
  authenticated : WindowCounter
  deriving DecidableEq

/-- `PeerBudget::new`. -/
def PeerBudget.new (now : Nat) : PeerBudget := ⟨.new now, .new now⟩

/-- The windows of all peers and of the node. -/
structure AdmissionController where
  peers : Table TransportPeerId PeerBudget
  globalUnauthenticated : WindowCounter
  globalAuthenticated : WindowCounter

/-- `AdmissionController::new`. -/
def AdmissionController.new (now : Nat) : AdmissionController := ⟨∅, .new now, .new now⟩

/-- `AdmissionController::admit_request`: the budget of the peer first, then that of the node. -/
def AdmissionController.admitRequest (controller : AdmissionController) (peer : TransportPeerId)
    (authenticated : Bool) (now : Nat) : Bool × AdmissionController :=
  let budget := (controller.peers.lookup peer).getD (.new now)
  if authenticated then
    let own := budget.authenticated.admit now maxAuthenticatedRequestsPerPeer
    let charged := { controller with
      peers := controller.peers.insert peer { budget with authenticated := own.2 } }
    if own.1 then
      let all := controller.globalAuthenticated.admit now maxGlobalAuthenticatedRequests
      (all.1, { charged with globalAuthenticated := all.2 })
    else (false, charged)
  else
    let own := budget.unauthenticated.admit now maxUnauthenticatedRequestsPerPeer
    let charged := { controller with
      peers := controller.peers.insert peer { budget with unauthenticated := own.2 } }
    if own.1 then
      let all := controller.globalUnauthenticated.admit now maxGlobalUnauthenticatedRequests
      (all.1, { charged with globalUnauthenticated := all.2 })
    else (false, charged)

/-- `AdmissionController::forget_peer`. -/
def AdmissionController.forgetPeer (controller : AdmissionController) (peer : TransportPeerId) :
    AdmissionController :=
  { controller with peers := controller.peers.erase peer }

/-- `application_connection_allowed`. -/
def applicationConnectionAllowed (activeApplicationConnections : Nat) (replacingPeer : Bool) :
    Bool :=
  replacingPeer || decide (activeApplicationConnections < maxApplicationConnections)

/-- `auth_challenge_expired`. -/
def authChallengeExpired (issuedAt now : Nat) : Bool := decide (authChallengeTimeout ≤ now - issuedAt)

end

/-! ## Sessions -/

/-- `libp2p::swarm::ConnectionId`. -/
structure ConnectionId where
  number : Nat
  deriving DecidableEq

/-- The requests as a node tells them apart; all but the handshake is left to the caller. -/
inductive NodeRequest (ρ : Type) where
  | hello (hello : PeerHelloV1)
  | helloChallenge (challenge : Nat)
  | helloProof (proof : PeerHelloProofV1)
  | application (request : ρ)

/-- The responses that a node gives on its own. -/
inductive NodeResponse where
  | helloChallengeAccepted
  | helloAccepted (protocolVersion : Nat)
  | error (code message : String)
  deriving DecidableEq

/-- What `next_event` returns. Only the discovery node names the application peer of a request and
of a lost peer. -/
inductive NodeEvent (ρ : Type) where
  | connected (transportPeer : TransportPeerId)
  | disconnected (transportPeer : TransportPeerId) (applicationPeer : Option PeerId)
  | authenticated (transportPeer : TransportPeerId) (applicationPeer : PeerId)
  | inboundRequest (transportPeer : TransportPeerId) (applicationPeer : Option PeerId) (request : ρ)
  deriving DecidableEq

/-- A challenge that was sent to a peer for one of its connections. -/
structure Challenged where
  peer : TransportPeerId
  connection : ConnectionId
  challenge : Nat
  deriving DecidableEq

/-- An entry of `pending_challenges`. -/
structure PendingChallenge where
  connection : ConnectionId
  challenge : Nat
  issuedAt : Nat
  deriving DecidableEq

/-- What a node does in one turn besides changing its tables. -/
structure Reaction (ρ : Type) where
  /-- What `next_event` returns. -/
  delivered : Option (NodeEvent ρ) := none
  /-- The error with which it ends. -/
  failure : Option HandshakeError := none
  /-- The response that is sent. -/
  response : Option NodeResponse := none
  /-- The challenge that is issued. -/
  challenged : Option Challenged := none
  /-- The proof that is sent to the peer. -/
  proof : Option PeerHelloProofV1 := none
  /-- The connections that the swarm is asked to close. -/
  closing : List ConnectionId := []

/-- The tables of the connections of a node. -/
structure Session where
  authenticated : Table TransportPeerId (PeerId × ConnectionId)
  pendingChallenges : Table TransportPeerId PendingChallenge
  activeConnections : Table TransportPeerId ConnectionId
  connectionCounts : Table TransportPeerId Nat
  admission : AdmissionController

/-- No connections yet. -/
def Session.new (now : Nat) : Session := ⟨∅, ∅, ∅, ∅, .new now⟩

namespace Session

/-- The peer is authenticated on this very connection. -/
def authenticatedOn (session : Session) (peer : TransportPeerId) (connection : ConnectionId) :
    Option PeerId :=
  ((session.authenticated.lookup peer).filter fun entry =>
    decide (entry.2 = connection)).map Prod.fst

/-- The connection is the one in use and the only one. -/
def Canonical (session : Session) (peer : TransportPeerId) (connection : ConnectionId) : Prop :=
  session.activeConnections.lookup peer = some connection ∧
    session.connectionCounts.lookup peer = some 1

instance (session : Session) (peer : TransportPeerId) (connection : ConnectionId) :
    Decidable (session.Canonical peer connection) := inferInstanceAs (Decidable (_ ∧ _))

/-- The number of connections of a peer is recorded. -/
def count (session : Session) (peer : TransportPeerId) (connections : Nat) : Session :=
  { session with connectionCounts := session.connectionCounts.insert peer connections }

/-- The connection becomes the one in use. -/
def use (session : Session) (peer : TransportPeerId) (connection : ConnectionId) : Session :=
  { session with activeConnections := session.activeConnections.insert peer connection }

/-- What was authenticated or pending on the connection no longer is. -/
def revoke (session : Session) (peer : TransportPeerId) (connection : ConnectionId) : Session :=
  { session with
    authenticated :=
      Table.eraseIf peer (fun entry => decide (entry.2 = connection)) session.authenticated
    pendingChallenges :=
      Table.eraseIf peer (fun entry => decide (entry.connection = connection))
        session.pendingChallenges }

/-- The peer is gone. -/
def dismiss (session : Session) (peer : TransportPeerId) : Session where
  authenticated := session.authenticated.erase peer
  pendingChallenges := session.pendingChallenges.erase peer
  activeConnections := session.activeConnections.erase peer
  connectionCounts := session.connectionCounts.erase peer
  admission := session.admission.forgetPeer peer

/-- `issue_auth_challenge`. -/
def issueAuthChallenge (session : Session) (peer : TransportPeerId) (connection : ConnectionId)
    (challenge now : Nat) : Session :=
  { session with
    authenticated := session.authenticated.erase peer
    pendingChallenges :=
      session.pendingChallenges.insert peer ⟨connection, challenge, now⟩ }

/-- The challenges that nobody answered in time. -/
def staleChallenges (session : Session) (now : Nat) : List (TransportPeerId × ConnectionId) :=
  session.pendingChallenges.entries.filterMap fun entry =>
    if authChallengeExpired entry.2.issuedAt now then some (entry.1, entry.2.connection) else none

/-- The body of the loop of `expire_stale_auth_challenges`. -/
def expire (session : Session) (stale : TransportPeerId × ConnectionId) : Session :=
  { session with
    pendingChallenges := session.pendingChallenges.erase stale.1
    authenticated := session.authenticated.erase stale.1
    activeConnections :=
      Table.eraseIf stale.1 (fun active => decide (active = stale.2)) session.activeConnections }

/-- `expire_stale_auth_challenges`. -/
def expireStaleAuthChallenges (session : Session) (now : Nat) : Session :=
  (session.staleChallenges now).foldl expire session

end Session

/-- What a node knows of itself, and the size limits of the wire format. -/
structure NodeIdentity (ρ : Type) where
  localPeerId : TransportPeerId
  localHello : PeerHelloV1
  /-- The application signing key, named by its public key. -/
  applicationSigningKey : PublicKey
  /-- `WireRequest::validate_limits`, with the text of its error. -/
  validateLimits : NodeRequest ρ → Except String Unit

/-- Where the request handling of the two nodes differs. -/
structure RequestStyle where
  authenticatedBudget : String
  unauthenticatedBudget : String
  helloRefused : String
  handshakeRequired : String
  /-- The node gives up on a challenge whose acknowledgement cannot be sent. -/
  proofNeedsChannel : Bool
  /-- The node names the application peer of a delivered request. -/
  namesPeer : Bool

section Requests

variable {ρ : Type} (C : Crypto) (identity : NodeIdentity ρ) (style : RequestStyle)

/-- An error response and nothing else. -/
def refusal (code message : String) : Reaction ρ := { response := some (.error code message) }

/-- The branch of `WireRequest::HelloChallenge`. -/
def answerChallenge (session : Session) (peer : TransportPeerId) (connection : ConnectionId)
    (challenge : Nat) (channelOpen : Bool) : Reaction ρ :=
  if session.Canonical peer connection then
    match buildPeerHelloProof C identity.localHello identity.applicationSigningKey challenge
      identity.localPeerId peer with
    | .error failure => { failure := some failure }
    | .ok proof =>
      if channelOpen || !style.proofNeedsChannel then
        { response := some .helloChallengeAccepted, proof := some proof }
      else { response := some .helloChallengeAccepted }
  else refusal "AUTH_CONNECTION_RETRY" "authentication challenge arrived on a superseded connection"

/-- The branch of `WireRequest::HelloProof`: the challenge is taken out before anything is checked. -/
def receiveProof (session : Session) (peer : TransportPeerId) (connection : ConnectionId)
    (proof : PeerHelloProofV1) : Session × Reaction ρ :=
  match session.pendingChallenges.lookup peer with
  | none =>
    (session, refusal "PEER_AUTHENTICATION_FAILED" "no live receiver challenge exists for this proof")
  | some expected =>
    let taken :=
      { session with pendingChallenges := session.pendingChallenges.erase peer }
    if expected.connection = connection ∧ session.Canonical peer connection then
      match verifyPeerHelloProof C proof expected.challenge peer identity.localPeerId with
      | .ok () =>
        ({ taken with
            authenticated :=
              session.authenticated.insert peer (proof.hello.peerId, connection) },
          { response := some (.helloAccepted protocolVersionV1)
            delivered := some (.authenticated peer proof.hello.peerId) })
      | .error failure => (taken, refusal "PEER_AUTHENTICATION_FAILED" failure.text)
    else (taken, refusal "PEER_AUTHENTICATION_FAILED"
      "connection was replaced before proof verification")

/-- The branch of every other request. -/
def deliver (session : Session) (peer : TransportPeerId) (connection : ConnectionId) (request : ρ) :
    Reaction ρ :=
  match session.authenticatedOn peer connection with
  | some application =>
    { delivered := some (.inboundRequest peer
        (if style.namesPeer then some application else none) request) }
  | none => refusal "HANDSHAKE_REQUIRED" style.handshakeRequired

/-- The `match request` of both nodes. -/
def dispatchNodeRequest (session : Session) (peer : TransportPeerId) (connection : ConnectionId)
    (request : NodeRequest ρ) (channelOpen : Bool) : Session × Reaction ρ :=
  match request with
  | .hello _ => (session, refusal "CONNECTION_PROOF_REQUIRED" style.helloRefused)
  | .helloChallenge challenge =>
    (session, answerChallenge C identity style session peer connection challenge channelOpen)
  | .helloProof proof => receiveProof C identity session peer connection proof
  | .application request => (session, deliver style session peer connection request)

/-- What both nodes do with a request: admission, size limits, then the request itself. -/
def handleNodeRequest (session : Session) (peer : TransportPeerId) (connection : ConnectionId)
    (request : NodeRequest ρ) (channelOpen : Bool) (now : Nat) : Session × Reaction ρ :=
  let authenticated := (session.authenticatedOn peer connection).isSome
  let admission := session.admission.admitRequest peer authenticated now
  let charged := { session with admission := admission.2 }
  if admission.1 then
    match identity.validateLimits request with
    | .error text => (charged, refusal "REQUEST_LIMIT_EXCEEDED" text)
    | .ok () => dispatchNodeRequest C identity style charged peer connection request channelOpen
  else (charged, refusal "RATE_LIMITED"
    (if authenticated then style.authenticatedBudget else style.unauthenticatedBudget))

end Requests

/-- The order in which a hash set is iterated. -/
structure SetOrder where
  arrange : List ConnectionId → List ConnectionId
  perm : ∀ connections, (arrange connections).Perm connections

/-- What the swarm reports, with what it answers to the close request that the report leads to. -/
inductive SwarmEvent (ρ : Type) where
  /-- `ConnectionEstablished`; `closeable` is what `close_connection` returns for the connection
  in use before. -/
  | established (peer : TransportPeerId) (connection : ConnectionId) (isRelayed isDialer : Bool)
    (numEstablished : Nat) (closeable : Bool)
  /-- `ConnectionClosed`, with the order in which the surviving connections are looked at. -/
  | closed (peer : TransportPeerId) (connection : ConnectionId) (numEstablished : Nat)
    (order : SetOrder)
  /-- A request; `channelOpen` says whether it can still be answered. -/
  | request (peer : TransportPeerId) (connection : ConnectionId) (request : NodeRequest ρ)
    (channelOpen : Bool)
  /-- Any other event, or none before the timeout. -/
  | other

/-- One iteration of the loop of `next_event`. -/
structure Turn (ρ : Type) where
  /-- When stale challenges are looked for. -/
  sweptAt : Nat
  /-- When the event is handled. -/
  now : Nat
  /-- The challenge that is drawn if one is issued. -/
  challenge : Nat
  event : SwarmEvent ρ

/-- A node as a machine over the turns of its event loop. -/
structure Endpoint (ρ σ : Type) where
  initial : σ
  session : σ → Session
  turn : Turn ρ → σ → σ × Reaction ρ

/-! ## The two nodes -/

variable {ρ : Type}

/-- `ConnectionPathKind`. -/
inductive ConnectionPathKind where
  | directApplication
  | relayedApplication
  | bootstrapInfrastructure
  | relayInfrastructure
  deriving DecidableEq

/-- Application traffic, direct or relayed. -/
def ConnectionPathKind.isApplication : ConnectionPathKind → Bool
  | .directApplication | .relayedApplication => true
  | .bootstrapInfrastructure | .relayInfrastructure => false

/-- `classify_connection_path`. -/
def classifyConnectionPath (bootstrapPeer relayPeer relayedEndpoint : Bool) : ConnectionPathKind :=
  if bootstrapPeer then .bootstrapInfrastructure
  else if relayPeer then .relayInfrastructure
  else if relayedEndpoint then .relayedApplication
  else .directApplication

/-- The node of the daemon. -/
structure SwarmNode where
  session : Session
  connectionPaths : Table ConnectionId ConnectionPathKind

/-- What a `SwarmNode` is configured with. -/
structure SwarmConfig (ρ : Type) extends NodeIdentity ρ where
  bootstrapPeers : List TransportPeerId
  relayPeers : List TransportPeerId

/-- The texts and habits of `SwarmNode`. -/
def swarmStyle : RequestStyle where
  authenticatedBudget := "authenticated request budget exceeded; retry after the admission window"
  unauthenticatedBudget := "pre-authentication request budget exceeded; reconnect later"
  helloRefused :=
    "reusable PeerHello is not an authentication proof; wait for a receiver challenge"
  handshakeRequired := "complete the connection-bound application proof before other requests"
  proofNeedsChannel := true
  namesPeer := false

namespace SwarmNode

/-- Connections that carry application traffic. -/
def activeApplicationConnections (node : SwarmNode) : Nat :=
  (node.connectionPaths.entries.filter fun entry => entry.2.isApplication).length

/-- The tables after a new connection took the place of the one in use. -/
def adopt (session : Session) (peer : TransportPeerId) (connection : ConnectionId)
    (numEstablished : Nat) : Session :=
  { session with
    connectionCounts := session.connectionCounts.insert peer numEstablished
    authenticated := session.authenticated.erase peer
    pendingChallenges := session.pendingChallenges.erase peer
    activeConnections := session.activeConnections.insert peer connection }

/-- The branch of `SwarmEvent::ConnectionEstablished`. -/
def connectionEstablished (config : SwarmConfig ρ) (turn : Turn ρ) (node : SwarmNode)
    (peer : TransportPeerId) (connection : ConnectionId) (isRelayed : Bool) (numEstablished : Nat)
    (closeable : Bool) : SwarmNode × Reaction ρ :=
  let path := classifyConnectionPath (decide (peer ∈ config.bootstrapPeers))
    (decide (peer ∈ config.relayPeers)) isRelayed
  let previous := node.session.activeConnections.lookup peer
  if path.isApplication &&
      !applicationConnectionAllowed node.activeApplicationConnections previous.isSome then
    (node, { closing := [connection] })
  else
    let adopted := adopt node.session peer connection numEstablished
    let paths := node.connectionPaths.insert connection path
    let superseded := previous.filter fun old => decide (old ≠ connection ∧ 1 < numEstablished)
    -- the challenge waits for the old connection to close
    if superseded.isSome && closeable then
      (⟨adopted, paths⟩, { delivered := some (.connected peer), closing := superseded.toList })
    else
      (⟨adopted.issueAuthChallenge peer connection turn.challenge turn.now, paths⟩,
        { delivered := some (.connected peer)
          closing := superseded.toList
          challenged := some ⟨peer, connection, turn.challenge⟩ })

/-- The branch of `SwarmEvent::ConnectionClosed`. -/
def connectionClosed (turn : Turn ρ) (node : SwarmNode) (peer : TransportPeerId)
    (connection : ConnectionId) (numEstablished : Nat) : SwarmNode × Reaction ρ :=
  let released := (node.session.count peer numEstablished).revoke peer connection
  let paths := node.connectionPaths.erase connection
  if numEstablished = 0 then
    (⟨released.dismiss peer, paths⟩, { delivered := some (.disconnected peer none) })
  else
    match (released.activeConnections.lookup peer).filter
      (fun active => decide (active ≠ connection)) with
    | some active =>
      (⟨released.issueAuthChallenge peer active turn.challenge turn.now, paths⟩,
        { challenged := some ⟨peer, active, turn.challenge⟩ })
    | none => (⟨released, paths⟩, {})

/-- What follows the sweep in one iteration of `SwarmNode::next_event`. -/
def handle (C : Crypto) (config : SwarmConfig ρ) (turn : Turn ρ) (node : SwarmNode) :
    SwarmNode × Reaction ρ :=
  match turn.event with
  | .established peer connection isRelayed _ numEstablished closeable =>
    connectionEstablished config turn node peer connection isRelayed numEstablished closeable
  | .closed peer connection numEstablished _ =>
    connectionClosed turn node peer connection numEstablished
  | .request peer connection request channelOpen =>
    let handled := handleNodeRequest C config.toNodeIdentity swarmStyle node.session peer connection
      request channelOpen turn.now
    ({ node with session := handled.1 }, handled.2)
  | .other => (node, {})

/-- One iteration of `SwarmNode::next_event`. The connections closed by the sweep are not listed
in the reaction. -/
def nextEvent (C : Crypto) (config : SwarmConfig ρ) (turn : Turn ρ) (node : SwarmNode) :
    SwarmNode × Reaction ρ :=
  handle C config turn
    { node with session := node.session.expireStaleAuthChallenges turn.sweptAt }

/-- `SwarmNode` as a machine. -/
def endpoint (C : Crypto) (config : SwarmConfig ρ) (start : Nat) : Endpoint ρ SwarmNode where
  initial := ⟨.new start, ∅⟩
  session := SwarmNode.session
  turn := nextEvent C config

end SwarmNode

/-- The node of the directory. -/
structure DiscoveryNode where
  session : Session
  establishedConnections : Table TransportPeerId (List ConnectionId)
  connectionDirections : Table TransportPeerId (Table ConnectionId Bool)

/-- The texts and habits of `DiscoveryNode`. -/
def discoveryStyle : RequestStyle where
  authenticatedBudget := "authenticated discovery request budget exceeded"
  unauthenticatedBudget := "pre-authentication discovery request budget exceeded"
  helloRefused := "reusable PeerHello is not an authentication proof"
  handshakeRequired := "complete the connection-bound application proof before discovery requests"
  proofNeedsChannel := false
  namesPeer := true

namespace DiscoveryNode

/-- The connections that the node counts as established for a peer. -/
def established (node : DiscoveryNode) (peer : TransportPeerId) : List ConnectionId :=
  (node.establishedConnections.lookup peer).getD []

/-- The recorded direction of a connection. -/
def direction (node : DiscoveryNode) (peer : TransportPeerId) (connection : ConnectionId) :
    Option Bool :=
  (node.connectionDirections.lookup peer).bind (AList.lookup connection)

/-- `ensure_auth_challenge`. -/
def ensureAuthChallenge (turn : Turn ρ) (node : DiscoveryNode) (peer : TransportPeerId)
    (connection : ConnectionId) : DiscoveryNode × Reaction ρ :=
  if (node.session.authenticatedOn peer connection).isSome ∨
      (node.session.pendingChallenges.lookup peer).any
        (fun pending => decide (pending.connection = connection)) then (node, {})
  else
    ({ node with
        session := node.session.issueAuthChallenge peer connection turn.challenge turn.now },
      { challenged := some ⟨peer, connection, turn.challenge⟩ })

/-- The node after a connection was recorded as established. -/
def record (node : DiscoveryNode) (peer : TransportPeerId) (connection : ConnectionId)
    (isDialer : Bool) : DiscoveryNode :=
  let established := (node.established peer).insert connection
  { session := node.session.count peer established.length
    establishedConnections := node.establishedConnections.insert peer established
    connectionDirections := AList.insert peer
      (AList.insert connection isDialer
        ((node.connectionDirections.lookup peer).getD ∅)) node.connectionDirections }

/-- The node after the preferred newcomer took the place of the connection in use. -/
def switch (node : DiscoveryNode) (peer : TransportPeerId) (active connection : ConnectionId) :
    DiscoveryNode :=
  { node with session := (node.session.revoke peer active).use peer connection }

/-- The node uses the connection, and challenges it if it is the only one. -/
def adopt (turn : Turn ρ) (node : DiscoveryNode) (peer : TransportPeerId)
    (connection : ConnectionId) : DiscoveryNode × Reaction ρ :=
  let adopted := { node with session := node.session.use peer connection }
  if (node.established peer).length = 1 then ensureAuthChallenge turn adopted peer connection
  else (adopted, {})

/-- The branch of `SwarmEvent::ConnectionEstablished`. -/
def connectionEstablished (identity : NodeIdentity ρ) (turn : Turn ρ) (node : DiscoveryNode)
    (peer : TransportPeerId) (connection : ConnectionId) (isDialer : Bool) :
    DiscoveryNode × Reaction ρ :=
  let preferDialer := decide (identity.localPeerId.bytes < peer.bytes)
  let recorded := node.record peer connection isDialer
  let active := node.session.activeConnections.lookup peer
  if applicationConnectionAllowed node.session.activeConnections.entries.length active.isSome then
    match active.filter fun active =>
      decide (active ≠ connection ∧ active ∈ recorded.established peer) with
    | some active =>
      let activeIsPreferred := ((recorded.direction peer active).getD false) == preferDialer
      let newcomerIsPreferred := isDialer == preferDialer
      if newcomerIsPreferred && !activeIsPreferred then
        -- the challenge waits for the old connection to close
        (recorded.switch peer active connection, { closing := [active] })
      else (recorded, { closing := [connection] })
    | none => adopt turn recorded peer connection
  else (recorded, { closing := [connection] })

/-- The node after a connection was taken out of the sets. -/
def forget (node : DiscoveryNode) (peer : TransportPeerId) (connection : ConnectionId) :
    DiscoveryNode :=
  let established := (node.established peer).erase connection
  { session := (node.session.count peer established.length).revoke peer connection
    establishedConnections := node.establishedConnections.insert peer established
    connectionDirections :=
      match node.connectionDirections.lookup peer with
      | none => node.connectionDirections
      | some directions =>
        let remaining := directions.erase connection
        if remaining.entries = [] then node.connectionDirections.erase peer
        else node.connectionDirections.insert peer remaining }

/-- The node after the last connection of a peer was closed. -/
def dismiss (node : DiscoveryNode) (peer : TransportPeerId) : DiscoveryNode :=
  { session := node.session.dismiss peer
    establishedConnections := node.establishedConnections.erase peer
    connectionDirections := node.connectionDirections.erase peer }

/-- The surviving connection that is used next: a preferred one, or else any. -/
def survivor (identity : NodeIdentity ρ) (node : DiscoveryNode) (peer : TransportPeerId)
    (order : SetOrder) : Option ConnectionId :=
  let preferDialer := decide (identity.localPeerId.bytes < peer.bytes)
  let connections := order.arrange (node.established peer)
  (connections.find? fun candidate =>
    decide (node.direction peer candidate = some preferDialer)).or connections.head?

/-- The node with a live connection in use; no survivor would be the panic of `expect`. -/
def settle (identity : NodeIdentity ρ) (node : DiscoveryNode) (peer : TransportPeerId)
    (order : SetOrder) : DiscoveryNode :=
  if (node.session.activeConnections.lookup peer).any
      (fun active => decide (active ∈ node.established peer)) then node
  else
    match node.survivor identity peer order with
    | some survivor => { node with session := node.session.use peer survivor }
    | none => node

/-- The branch of `SwarmEvent::ConnectionClosed`. -/
def connectionClosed (identity : NodeIdentity ρ) (turn : Turn ρ) (node : DiscoveryNode)
    (peer : TransportPeerId) (connection : ConnectionId) (order : SetOrder) :
    DiscoveryNode × Reaction ρ :=
  let closing := node.session.authenticatedOn peer connection
  let forgotten := node.forget peer connection
  let remaining := (forgotten.established peer).length
  if remaining = 0 then
    let other := (forgotten.session.authenticated.lookup peer).map Prod.fst
    (forgotten.dismiss peer, { delivered := some (.disconnected peer (other.or closing)) })
  else
    let settled := forgotten.settle identity peer order
    if remaining = 1 then
      match settled.session.activeConnections.lookup peer with
      | some active => ensureAuthChallenge turn settled peer active
      | none => (settled, {})
    else (settled, {})

/-- What follows the sweep in one iteration of `DiscoveryNode::next_event`. -/
def handle (C : Crypto) (identity : NodeIdentity ρ) (turn : Turn ρ) (node : DiscoveryNode) :
    DiscoveryNode × Reaction ρ :=
  match turn.event with
  | .established peer connection _ isDialer _ _ =>
    connectionEstablished identity turn node peer connection isDialer
  | .closed peer connection _ order => connectionClosed identity turn node peer connection order
  | .request peer connection request channelOpen =>
    let handled := handleNodeRequest C identity discoveryStyle node.session peer connection request
      channelOpen turn.now
    ({ node with session := handled.1 }, handled.2)
  | .other => (node, {})

/-- One iteration of `DiscoveryNode::next_event`. -/
def nextEvent (C : Crypto) (identity : NodeIdentity ρ) (turn : Turn ρ) (node : DiscoveryNode) :
    DiscoveryNode × Reaction ρ :=
  handle C identity turn
    { node with session := node.session.expireStaleAuthChallenges turn.sweptAt }

/-- `DiscoveryNode` as a machine. -/
def endpoint (C : Crypto) (identity : NodeIdentity ρ) (start : Nat) :
    Endpoint ρ DiscoveryNode where
  initial := ⟨.new start, ∅, ∅⟩
  session := DiscoveryNode.session
  turn := nextEvent C identity

end DiscoveryNode

end SwarmCraft
