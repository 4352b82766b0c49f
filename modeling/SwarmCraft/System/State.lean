import SwarmCraft.Daemon.Move

/-!
# The peers of a world and the network between them

The state of the system holds one node for each peer, every packet ever sent and one
clock. A packet may be delivered late, twice or never. A peer may crash in the middle
of what it does: it keeps one of the durable states it passed through and forgets the
rest. Peers outside the honest ones send what they like, except that they cannot sign
a vote for an honest one.
-/

namespace SwarmCraft

open Effect Transition

/-- The peers of one world. -/
structure Fleet (C : Crypto) where
  world : WorldId
  /-- The public key of each honest peer. -/
  key : PeerId → PublicKey
  /-- The peers that run the daemon. -/
  honest : PeerId → Prop
  key_spec : ∀ peer, honest peer → C.peerIdFromPublicKey (key peer) = peer

/-- The state of the system. -/
structure System where
  nodes : PeerId → Node
  /-- What each peer did, with the time it happened. -/
  logs : PeerId → List Stamp
  /-- Every packet that was ever sent. -/
  sent : List Packet
  /-- The time in milliseconds. -/
  clock : Nat

/-! ## Inputs -/

/-- What makes a peer act. -/
inductive Input where
  | request (sender : PeerId) (number : Nat) (message : WireRequest)
  | response (sender : PeerId) (number : Nat) (answer : WireResponse)
  | failed (number : Nat)
  | authenticated (peer : PeerId)
  | disconnected (peer : PeerId)
  | tick
  | command (order : Command)
  deriving DecidableEq

/-- The handler of an input. -/
def Input.run (C : Crypto) (site : Site) : Input → Daemon Unit
  | .request sender number message =>
    handleRequest C site ⟨site.peer C, sender, number⟩ message
  | .response _ number answer => handleResponse C site number answer
  | .failed number => handleOutboundFailure number
  | .authenticated peer => handleAuthenticated C site peer
  | .disconnected peer => handleDisconnected peer
  | .tick => maintainAuthorityLeases C site
  | .command order => runCommand C site order

/-- The message that an input delivers. -/
def Input.heard : Input → Heard
  | .request sender _ message => some (sender, .request message)
  | .response sender _ answer => some (sender, .response answer)
  | _ => none

/-- A failure ends the daemon. The failure of a request is only logged, and a command runs in a
process of its own. -/
def Input.fatal : Input → Bool
  | .response _ _ _ => true
  | .authenticated _ => true
  | .tick => true
  | _ => false

/-- The world a command is about. -/
def Command.world (world : WorldId) : Command → WorldId
  | .join invite _ => invite.worldId
  | _ => world

/-- The recovery votes that a message carries. -/
def Body.recoveryVotes : Body → List RecoveryVoteV1
  | .request (.recoveryEpoch _ certificate) => certificate.votes
  | .response (.recoveryVote vote) => [vote]
  | _ => []

/-- The event released this vote. -/
def Event.releases (vote : RecoveryVoteV1) : Event → Bool
  | .votedRecovery _ released _ => decide (released.unsigned = vote.unsigned)
  | _ => false

section Steps

variable (C : Crypto) (F : Fleet C)

/-- Votes with valid signatures of honest voters were released by them. -/
def System.Unforged (s : System) (votes : List RecoveryVoteV1) : Prop :=
  ∀ vote ∈ votes, F.honest vote.voterPeerId → verifyRecoveryVoteSignature C vote = .ok () →
    ∃ stamp ∈ s.logs vote.voterPeerId, stamp.event.releases vote = true

/-- The network may deliver the message: an honest sender sent it, and no vote in it is forged. -/
def System.Delivers (s : System) (packet : Packet) : Prop :=
  (F.honest packet.src → packet ∈ s.sent) ∧ s.Unforged C F packet.body.recoveryVotes

/-- The input can happen at the peer. A response answers a request that went to its sender. -/
def Input.Enabled (s : System) (peer : PeerId) : Input → Prop
  | .request sender number message =>
    message.world = F.world ∧ s.Delivers C F ⟨sender, peer, number, .request message⟩
  | .response sender number answer =>
    (((s.nodes peer).outbound.lookup number).all fun context =>
      context.peer.all fun asked => decide (asked = sender)) = true ∧
      s.Delivers C F ⟨sender, peer, number, .response answer⟩
  | .command order => order.world F.world = F.world
  | _ => True

/-! ## Steps -/

/-- What can happen next. -/
inductive Act where
  /-- A peer handles an input. -/
  | input (peer : PeerId) (cause : Input)
  /-- A peer crashes while it handles an input, after one of its durable writes. -/
  | cut (peer : PeerId) (cause : Input) (point : Nat)
  /-- A peer restarts. -/
  | restart (peer : PeerId)
  /-- Time passes. -/
  | elapse (milliseconds : Nat)
  /-- The machine, the readable blobs or the stored configuration of a peer change. -/
  | surroundings (peer : PeerId) (host : LocalHost) (blobs : List BlobDescriptor)
      (soloPolicy : Option Bool)
  /-- The collected votes of a peer are iterated in another order. -/
  | reorder (peer : PeerId) (recoveryVotes : List (PeerId × RecoveryVoteV1))
      (membershipVotes : List (PeerId × MembershipVoteV1))

/-- It can happen now. -/
def Act.Enabled (s : System) : Act → Prop
  | .input peer cause => F.honest peer ∧ cause.Enabled C F s peer
  | .cut peer cause _ => F.honest peer ∧ cause.Enabled C F s peer
  | .reorder peer recoveryVotes membershipVotes =>
    recoveryVotes.Perm (s.nodes peer).runtime.recoveryVotes ∧
      membershipVotes.Perm (s.nodes peer).runtime.membershipVotes
  | _ => True

/-- Where a peer handles an input. -/
def System.site (s : System) (peer : PeerId) : Site := ⟨F.world, ⟨F.key peer⟩, s.clock⟩

/-- A daemon that starts again. -/
def Node.restarted (node : Node) : Node :=
  { node with
    runtime := LeaseRuntime.default
    outbound := []
    pendingManifest := none }

/-- A peer becomes another node and did some more. -/
def System.become (s : System) (peer : PeerId) (node : Node) (entries : List Entry)
    (packets : List Packet) : System :=
  { s with
    nodes := Function.update s.nodes peer node
    logs := Function.update s.logs peer (s.logs peer ++ entries.map (Entry.stamp s.clock))
    sent := s.sent ++ packets }

/-- The run of an input's handler. -/
def System.handle (s : System) (peer : PeerId) (input : Input) : Except DaemonError Unit × Exec :=
  input.run C (s.site C F peer) (Exec.start (s.nodes peer))

/-- The node after an input. -/
def Input.settle (input : Input) : Except DaemonError Unit × Exec → Node
  | (.ok _, e) => e.node
  | (.error _, e) => if input.fatal then e.node.restarted else e.node

/-- What happens. -/
def System.perform (s : System) : Act → System
  | .input peer cause =>
    let out := s.handle C F peer cause
    s.become peer (cause.settle out) out.2.log out.2.outbox
  | .cut peer cause point =>
    match (s.handle C F peer cause).2.trail[point]? with
    | some (store, entries) =>
      s.become peer { s.nodes peer with store := store }.restarted entries []
    | none => s
  | .restart peer => s.become peer (s.nodes peer).restarted [] []
  | .elapse milliseconds => { s with clock := s.clock + milliseconds }
  | .surroundings peer host blobs soloPolicy =>
    let node := s.nodes peer
    s.become peer { node with
      host := host
      store := { node.store with blobs := blobs, soloPolicy := soloPolicy } } [] []
  | .reorder peer recoveryVotes membershipVotes =>
    let node := s.nodes peer
    s.become peer { node with
      runtime := { node.runtime with
        recoveryVotes := recoveryVotes
        membershipVotes := membershipVotes } } [] []

/-- One step of the system. -/
def Step (s t : System) : Prop := ∃ act : Act, act.Enabled C F s ∧ t = s.perform C F act

/-- A schedule chooses what happens next by looking at the state. -/
abbrev Cue : Type := System → Act

/-- The whole schedule can happen. -/
def System.Plays (s : System) : List Cue → Prop
  | [] => True
  | cue :: cues => (cue s).Enabled C F s ∧ (s.perform C F (cue s)).Plays cues

/-- What the whole schedule leads to. -/
def System.play (s : System) : List Cue → System
  | [] => s
  | cue :: cues => (s.perform C F (cue s)).play cues

/-- The peers that something happens to. -/
def Act.actors : Act → List PeerId
  | .input peer _ => [peer]
  | .cut peer _ _ => [peer]
  | .restart peer => [peer]
  | .elapse _ => []
  | .surroundings peer _ _ _ => [peer]
  | .reorder peer _ _ => [peer]

/-- The peers that the whole schedule happens to. -/
def System.actors (s : System) : List Cue → List PeerId
  | [] => []
  | cue :: cues => (cue s).actors ++ (s.perform C F (cue s)).actors cues

/-- A schedule that can happen is a run. -/
theorem System.Plays.run {s : System} {cues : List Cue} (h : s.Plays C F cues) :
    Run (Step C F) s (s.play C F cues) := by
  induction cues generalizing s with
  | nil => exact .refl
  | cons cue cues ih => exact .head ⟨cue s, h.1, rfl⟩ (ih h.2)

/-! ## Deciding whether a schedule can happen -/

variable [DecidablePred F.honest]

instance (s : System) (votes : List RecoveryVoteV1) : Decidable (s.Unforged C F votes) :=
  inferInstanceAs (Decidable (∀ vote ∈ votes, F.honest vote.voterPeerId →
    verifyRecoveryVoteSignature C vote = .ok () →
      ∃ stamp ∈ s.logs vote.voterPeerId, stamp.event.releases vote = true))

instance (s : System) (packet : Packet) : Decidable (s.Delivers C F packet) :=
  inferInstanceAs (Decidable ((F.honest packet.src → packet ∈ s.sent) ∧
    s.Unforged C F packet.body.recoveryVotes))

instance (s : System) (peer : PeerId) (input : Input) : Decidable (input.Enabled C F s peer) :=
  match input with
  | .request sender number message => inferInstanceAs (Decidable (message.world = F.world ∧
      s.Delivers C F ⟨sender, peer, number, .request message⟩))
  | .response sender number answer => inferInstanceAs (Decidable
      ((((s.nodes peer).outbound.lookup number).all fun context =>
        context.peer.all fun asked => decide (asked = sender)) = true ∧
        s.Delivers C F ⟨sender, peer, number, .response answer⟩))
  | .failed _ => isTrue trivial
  | .authenticated _ => isTrue trivial
  | .disconnected _ => isTrue trivial
  | .tick => isTrue trivial
  | .command order => inferInstanceAs (Decidable (order.world F.world = F.world))

instance (s : System) (act : Act) : Decidable (act.Enabled C F s) :=
  match act with
  | .input peer cause => inferInstanceAs (Decidable (F.honest peer ∧ cause.Enabled C F s peer))
  | .cut peer cause _ => inferInstanceAs (Decidable (F.honest peer ∧ cause.Enabled C F s peer))
  | .restart _ => isTrue trivial
  | .elapse _ => isTrue trivial
  | .surroundings _ _ _ _ => isTrue trivial
  | .reorder peer recoveryVotes membershipVotes => inferInstanceAs (Decidable
      (recoveryVotes.Perm (s.nodes peer).runtime.recoveryVotes ∧
        membershipVotes.Perm (s.nodes peer).runtime.membershipVotes))

/-- Whether a schedule can happen is found by playing it. -/
def System.decidePlays : (cues : List Cue) → (s : System) → Decidable (s.Plays C F cues)
  | [], _ => isTrue trivial
  | cue :: cues, s =>
    have := System.decidePlays cues (s.perform C F (cue s))
    inferInstanceAs (Decidable ((cue s).Enabled C F s ∧ (s.perform C F (cue s)).Plays C F cues))

instance (s : System) (cues : List Cue) : Decidable (s.Plays C F cues) :=
  System.decidePlays C F cues s

end Steps

/-! ## Schedules -/

/-- The arrival of a packet. -/
def Packet.arrive (packet : Packet) : Act :=
  .input packet.dst <| match packet.body with
    | .request message => .request packet.src packet.number message
    | .response answer => .response packet.src packet.number answer

/-- Deliver a packet from one peer to another, counted back from the last one between them. -/
def hand (src dst : PeerId) (back : Nat) : Cue := fun s =>
  match (s.sent.reverse.filter fun packet =>
      decide (packet.src = src) && decide (packet.dst = dst))[back]? with
  | some packet => packet.arrive
  | none => .elapse 0

/-- A peer ticks. -/
def tick (peer : PeerId) : Cue := fun _ => .input peer .tick

/-- Time passes. -/
def wait (milliseconds : Nat) : Cue := fun _ => .elapse milliseconds

/-- Two peers authenticate each other. -/
def connect (a b : PeerId) : List Cue :=
  [fun _ => .input a (.authenticated b), fun _ => .input b (.authenticated a)]

end SwarmCraft
