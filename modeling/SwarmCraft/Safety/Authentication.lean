import SwarmCraft.Network.DiscoveryTables

/-!
# Requests are delivered on authenticated connections only

In every run of either node an authenticated connection is the one in use and was never closed.
A request that is handed to the caller arrived on such a connection, after its peer proved who
it is with a challenge that was issued for this connection and that no other proof used.
-/

namespace SwarmCraft

variable {ρ σ : Type} {C : Crypto} {receiver : TransportPeerId} {transcript : Transcript ρ}

/-- What a run of a node guarantees about its tables and about the requests it hands out. -/
structure DeliversAuthenticated (C : Crypto) (receiver : TransportPeerId)
    (endpoint : Endpoint ρ σ) (transcript : Transcript ρ) (node : σ) : Prop where
  /-- An authenticated connection is in use, was established and was never closed. -/
  authenticated : ∀ peer application connection,
    AList.lookup peer (endpoint.session node).authenticated = some (application, connection) →
      AList.lookup peer (endpoint.session node).activeConnections = some connection ∧
        (∃ entry ∈ transcript, entry.turn.opened = some (peer, connection)) ∧
        ∀ entry ∈ transcript, entry.turn.closed ≠ some (peer, connection)
  /-- A request handed out in the last turn arrived on the authenticated connection of its peer,
  after the proof of the application peer. -/
  delivered : ∀ entry earlier, transcript = entry :: earlier → ∀ peer named request,
    entry.reaction.delivered = some (.inboundRequest peer named request) →
      ∃ application connection channelOpen,
        entry.turn.event = .request peer connection (.application request) channelOpen ∧
          AList.lookup peer (endpoint.session node).authenticated =
            some (application, connection) ∧
          (∀ caller ∈ named, caller = application) ∧
          ProvenOn C receiver earlier peer application connection
  /-- No two accepted proofs answer the same challenge. -/
  once : ∀ challenge first before second between, first :: before <:+ transcript →
    second :: between <:+ transcript → first.AcceptsProof challenge →
    second.AcceptsProof challenge → before = between

/-- A peer that is authenticated after the sweep was authenticated before it. -/
theorem Session.authenticated_of_sweep {session : Session} {peer : TransportPeerId} {now : Nat}
    {entry : PeerId × ConnectionId}
    (h : AList.lookup peer (session.expireStaleAuthChallenges now).authenticated = some entry) :
    session.authenticated.lookup peer = some entry := by
  have hview : ((session.expireStaleAuthChallenges now).view peer).authenticated = some entry := h
  rcases session.view_sweep peer now with hkept | ⟨_, _, hdropped⟩
  · rw [hkept] at hview
    exact hview
  · rw [hdropped] at hview
    cases hview

/-- Requests are handed out on connections that are authenticated, before the turn and after it. -/
def Endpoint.HandsOutAuthenticated (endpoint : Endpoint ρ σ) : Prop :=
  ∀ node turn peer named request,
    (endpoint.turn turn node).2.delivered = some (.inboundRequest peer named request) →
      ∃ application connection channelOpen,
        turn.event = .request peer connection (.application request) channelOpen ∧
          AList.lookup peer (endpoint.session node).authenticated =
            some (application, connection) ∧
          AList.lookup peer (endpoint.session (endpoint.turn turn node).1).authenticated =
            some (application, connection) ∧
          ∀ caller ∈ named, caller = application

/-- A node keeps the guarantee if its tables are justified and it hands out requests of
authenticated connections only. -/
theorem DeliversAuthenticated.of_justified {endpoint : Endpoint ρ σ} {node : σ}
    (hrun : endpoint.Runs transcript node)
    (hjustified : ∀ transcript node, endpoint.Runs transcript node →
      TablesJustified C receiver transcript (endpoint.session node))
    (hdelivers : endpoint.HandsOutAuthenticated) :
    DeliversAuthenticated C receiver endpoint transcript node where
  authenticated := by
    intro peer application connection hentry
    have hsound := (hjustified _ _ hrun).view peer
    obtain ⟨hactive, hopen, _⟩ := hsound.authenticated application connection hentry
    exact ⟨hactive, opened_of_open hopen, hrun.emitted.not_closed hopen⟩
  delivered := by
    intro entry earlier htranscript peer named request hdelivered
    cases hrun with
    | start => cases htranscript
    | turn hbefore hemits =>
      cases htranscript
      obtain ⟨application, connection, channelOpen, hevent, hwas, his, hnamed⟩ :=
        hdelivers _ _ _ _ _ hdelivered
      refine ⟨application, connection, channelOpen, hevent, his, hnamed, ?_⟩
      exact (((hjustified _ _ hbefore).view peer).authenticated _ _ hwas).2.2
  once := (hjustified _ _ hrun).once

/-- `SwarmNode` hands out requests of authenticated connections only. -/
theorem SwarmNode.handsOutAuthenticated (config : SwarmConfig ρ) (start : Nat) :
    (endpoint C config start).HandsOutAuthenticated := by
  intro node turn peer named request h
  simp only [endpoint, nextEvent, handle] at h ⊢
  cases hevent : turn.event with
  | established other connection isRelayed isDialer numEstablished closeable =>
    simp only [hevent, connectionEstablished] at h
    split at h
    · simp at h
    · split at h <;> simp at h
  | closed other connection numEstablished order =>
    simp only [hevent, connectionClosed] at h
    split at h
    · simp at h
    · split at h <;> simp at h
  | request other connection body channelOpen =>
    rw [hevent] at h
    obtain ⟨rfl, rfl, application, hwas, his, hnamed⟩ := handleNodeRequest_delivers h
    exact ⟨application, connection, channelOpen, rfl, Session.authenticated_of_sweep hwas, his,
      hnamed⟩
  | other => simp [hevent] at h

/-- A challenge hands nothing to the caller. -/
theorem DiscoveryNode.ensureAuthChallenge_delivered {turn : Turn ρ} {node : DiscoveryNode}
    {peer : TransportPeerId} {connection : ConnectionId} :
    (ensureAuthChallenge turn node peer connection).2.delivered = none := by
  rcases ensureAuthChallenge_eq turn node peer connection with heq | heq <;> rw [heq]

/-- `DiscoveryNode` hands out requests of authenticated connections only. -/
theorem DiscoveryNode.handsOutAuthenticated (identity : NodeIdentity ρ) (start : Nat) :
    (endpoint C identity start).HandsOutAuthenticated := by
  intro node turn peer named request h
  simp only [endpoint, nextEvent, handle] at h ⊢
  cases hevent : turn.event with
  | established other connection isRelayed isDialer numEstablished closeable =>
    simp only [hevent, connectionEstablished, adopt] at h
    split at h
    · split at h
      · split at h <;> simp at h
      · split at h
        · simp [ensureAuthChallenge_delivered] at h
        · simp at h
    · simp at h
  | closed other connection numEstablished order =>
    simp only [hevent, connectionClosed] at h
    split at h
    · simp at h
    · split at h
      · split at h
        · simp [ensureAuthChallenge_delivered] at h
        · simp at h
      · simp at h
  | request other connection body channelOpen =>
    rw [hevent] at h
    obtain ⟨rfl, rfl, application, hwas, his, hnamed⟩ := handleNodeRequest_delivers h
    exact ⟨application, connection, channelOpen, rfl, Session.authenticated_of_sweep hwas, his,
      hnamed⟩
  | other => simp [hevent] at h

/-- In every run of either node, whatever the swarm reports, requests are handed out on an
authenticated, open connection only, after a proof that no other connection can reuse. -/
theorem requests_authenticated (C : Crypto) (config : SwarmConfig ρ) (identity : NodeIdentity ρ)
    (start : Nat) :
    (∀ transcript node, (SwarmNode.endpoint C config start).Runs transcript node →
      DeliversAuthenticated C config.localPeerId (SwarmNode.endpoint C config start) transcript
        node) ∧
    ∀ transcript node, (DiscoveryNode.endpoint C identity start).Runs transcript node →
      DeliversAuthenticated C identity.localPeerId (DiscoveryNode.endpoint C identity start)
        transcript node := by
  constructor
  · intro transcript node hrun
    apply DeliversAuthenticated.of_justified hrun _ (SwarmNode.handsOutAuthenticated config start)
    intro transcript node hrun
    exact (SwarmNode.run_tracked hrun).justified
  · intro transcript node hrun
    apply DeliversAuthenticated.of_justified hrun _
      (DiscoveryNode.handsOutAuthenticated identity start)
    intro transcript node hrun
    exact (DiscoveryNode.run_tracked hrun).justified

namespace Acquaintance

/-- The transport identity of the peer that connects. -/
def peer : TransportPeerId := ⟨1⟩

/-- Its introduction, without a signature. -/
def unsignedHello : PeerHelloV1 where
  peerId := Crypto.ideal.peerIdFromPublicKey ⟨7⟩
  publicKey := ⟨7⟩
  protocolVersions := [protocolVersionV1]
  capabilities := []
  nonce := 0
  signature := .empty

/-- Its introduction. -/
def hello : PeerHelloV1 :=
  { unsignedHello with signature := Crypto.ideal.sign ⟨7⟩ (.peerHello unsignedHello) }

/-- A node that accepts every size of request. -/
def identity : NodeIdentity Unit where
  localPeerId := ⟨2⟩
  localHello := hello
  applicationSigningKey := ⟨7⟩
  validateLimits := fun _ => .ok ()

/-- The same node for the daemon's traffic. -/
def config : SwarmConfig Unit := { identity with bootstrapPeers := [], relayPeers := [] }

/-- The proof of the peer for the challenge, without a signature. -/
def unsignedProof : PeerHelloProofV1 := ⟨hello, 5, peer, ⟨2⟩, .empty⟩

/-- The peer connects, proves who it is and sends a request. -/
def turns : List (Turn Unit) :=
  [⟨0, 0, 5, .established peer ⟨1⟩ false false 1 false⟩,
    ⟨1, 1, 6, .request peer ⟨1⟩ (.helloProof { unsignedProof with
      signature := Crypto.ideal.sign ⟨7⟩ (.peerHelloProof unsignedProof) }) true⟩,
    ⟨2, 2, 7, .request peer ⟨1⟩ (.application ()) true⟩]

/-- A node after some turns, with its transcript. -/
def play {σ : Type} (endpoint : Endpoint Unit σ) : List (Turn Unit) → Transcript Unit × σ :=
  List.foldl (fun past turn => (⟨turn, (endpoint.turn turn past.2).2⟩ :: past.1,
    (endpoint.turn turn past.2).1)) ([], endpoint.initial)

theorem runs_play {σ : Type} (endpoint : Endpoint Unit σ) :
    endpoint.Runs (play endpoint turns).1 (play endpoint turns).2 := by
  apply Endpoint.Runs.turn
  · apply Endpoint.Runs.turn
    · apply Endpoint.Runs.turn .start
      refine ⟨by simp, ?_, by simp⟩
      intro peer connection isRelayed isDialer numEstablished closeable hevent
      cases hevent
      exact ⟨by simp, by decide, by decide⟩
    · exact ⟨by simp, by simp, by simp⟩
  · exact ⟨by simp, by simp, by simp⟩

end Acquaintance

/-- A peer that connects and proves who it is gets its request delivered by both nodes. -/
theorem requests_authenticated_acquaintance :
    let swarm := SwarmNode.endpoint Crypto.ideal Acquaintance.config 0
    let discovery := DiscoveryNode.endpoint Crypto.ideal Acquaintance.identity 0
    let daemon := Acquaintance.play swarm Acquaintance.turns
    let directory := Acquaintance.play discovery Acquaintance.turns
    (daemon.1.head?.bind fun entry => entry.reaction.delivered) =
        some (.inboundRequest Acquaintance.peer none ()) ∧
      DeliversAuthenticated Crypto.ideal ⟨2⟩ swarm daemon.1 daemon.2 ∧
      (directory.1.head?.bind fun entry => entry.reaction.delivered) =
        some (.inboundRequest Acquaintance.peer (some Acquaintance.hello.peerId) ()) ∧
      DeliversAuthenticated Crypto.ideal ⟨2⟩ discovery directory.1 directory.2 := by
  have hboth := requests_authenticated Crypto.ideal Acquaintance.config Acquaintance.identity 0
  refine ⟨by decide +kernel, ?_, by decide +kernel, ?_⟩
  · exact hboth.1 _ _ (Acquaintance.runs_play _)
  · exact hboth.2 _ _ (Acquaintance.runs_play _)

end SwarmCraft
