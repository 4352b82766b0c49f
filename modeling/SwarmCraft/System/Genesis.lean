import SwarmCraft.System.Refinement

/-!
# A founded world, and runs under a condition

Several peers founded a world together: each of them holds the creation record, the descriptor,
the first membership record, the first epoch record and the first snapshot, all signed by the
first authority. Runs start here. A property of stores holds in every run whose steps all meet a
condition when the inputs of such steps keep it; everything else leaves the files alone.
-/

namespace SwarmCraft

open Checked Transition

variable (C : Crypto)

/-- What a world is founded on. -/
structure Founding where
  genesis : WorldGenesisV1
  /-- The keys of the members, in the order of their peer ids. -/
  keys : List PublicKey
  /-- The key of the first authority. -/
  authority : PublicKey

namespace Founding

variable (f : Founding)

/-- The identity of the world. -/
def world : WorldId := f.genesis.worldId C

/-- A member with full rights. -/
def member (key : PublicKey) : WorldMemberV1 := ⟨C.peerIdFromPublicKey key, key, true, false⟩

/-- The founding members. -/
def members : List WorldMemberV1 := f.keys.map (member C)

/-- The descriptor of the world. -/
def descriptor : WorldDescriptorV1 where
  protocolVersion := protocolVersionV1
  worldId := f.world C
  compatibilityFingerprint := f.genesis.compatibilityFingerprint
  members := f.members C
  preferredReplicationFactor := f.keys.length

/-- The first membership record before it is signed. -/
def unsignedMembership : MembershipRecordV1 where
  protocolVersion := protocolVersionV1
  worldId := f.world C
  epoch := 1
  sequence := 0
  previousMembershipHash := none
  members := f.members C
  authorityPeerId := C.peerIdFromPublicKey f.authority
  authorityPublicKey := f.authority
  signature := .empty

/-- The first membership record. -/
def membership : MembershipRecordV1 :=
  { f.unsignedMembership C with
    signature := C.sign f.authority (.membership (f.unsignedMembership C)) }

/-- The first snapshot, of an empty directory, before it is signed. -/
def unsignedSnapshot : SnapshotManifestV1 where
  protocolVersion := protocolVersionV1
  worldId := f.world C
  snapshotNumber := 1
  epoch := 1
  sequence := 0
  previousSnapshotHash := none
  entries := []
  stateRoot := snapshotStateRoot C []
  authorityPeerId := C.peerIdFromPublicKey f.authority
  authorityPublicKey := f.authority
  signature := .empty

/-- The first snapshot. -/
def snapshot : SnapshotManifestV1 :=
  { f.unsignedSnapshot C with
    signature := C.sign f.authority (.snapshot (f.unsignedSnapshot C)) }

/-- The first epoch record before it is signed. -/
def unsignedEpoch : EpochRecordV1 where
  protocolVersion := protocolVersionV1
  worldId := f.world C
  epochNumber := 1
  previousEpochHash := none
  baseStateHash := snapshotStateRoot C []
  authorityPeerId := C.peerIdFromPublicKey f.authority
  authorityPublicKey := f.authority
  mode := .quorum
  fencingToken := 1
  reason := "initial authority"
  signature := .empty

/-- The first epoch record. -/
def epoch : EpochRecordV1 :=
  { f.unsignedEpoch C with signature := C.sign f.authority (.epoch (f.unsignedEpoch C)) }

/-- The store of a founding member. -/
def store : Store :=
  { Store.empty with
    metadata := .present ⟨f.world C, f.genesis⟩
    descriptor := .present (f.descriptor C)
    membership := .present (f.membership C)
    epoch := .present (f.epoch C)
    snapshots := [f.snapshot C] }

/-- A machine that can host the world. -/
def host : LocalHost where
  capability := some ⟨f.world C, f.genesis.compatibilityFingerprint, .ready, .ready, true, false⟩
  unixMillis := 0
  backgroundSeeding := false

/-- A peer with a store and a fresh daemon. -/
def node (store : Store) : Node where
  store := store
  runtime := LeaseRuntime.default
  outbound := []
  nextRequest := 0
  pendingManifest := none
  host := f.host C

/-- Every founding member has the founding records, everybody else has nothing. -/
def system : System where
  nodes peer := f.node C
    (if peer ∈ (f.members C).map WorldMemberV1.peerId then f.store C else Store.empty)
  logs _ := []
  sent := []
  clock := 0

/-- The first authority has just created the world with the command, everybody else has
nothing. -/
def created : System where
  nodes peer := f.node C
    (if peer = C.peerIdFromPublicKey f.authority then
      createdStore C ⟨f.world C, ⟨f.authority⟩, 0⟩ f.genesis (f.node C Store.empty)
    else Store.empty)
  logs _ := []
  sent := []
  clock := 0

/-! ## Ballots on the founding generation -/

/-- A ballot of a founding member to succeed the first authority, before it is signed. -/
def unsignedBallot (candidate : PublicKey) (round : Nat) : RecoveryBallotV1 where
  protocolVersion := protocolVersionV1
  worldId := f.world C
  baseEpoch := 1
  baseFencingToken := 1
  targetEpoch := 2
  targetFencingToken := 2
  round := round
  candidatePeerId := C.peerIdFromPublicKey candidate
  candidatePublicKey := candidate
  baseSnapshotHash := (f.snapshot C).manifestHash C
  baseStateHash := (f.snapshot C).stateRoot
  membershipHash := (f.membership C).recordHash C
  signature := .empty

/-- A ballot of a founding member to succeed the first authority. -/
def ballot (candidate : PublicKey) (round : Nat) : RecoveryBallotV1 :=
  { f.unsignedBallot C candidate round with
    signature := C.sign candidate (.recoveryBallot (f.unsignedBallot C candidate round)) }

/-- A vote for a ballot before it is signed. -/
def unsignedVote (ballot : RecoveryBallotV1) (voter : PublicKey) : RecoveryVoteV1 where
  protocolVersion := protocolVersionV1
  worldId := ballot.worldId
  ballotHash := ballot.ballotHash C
  baseEpoch := ballot.baseEpoch
  targetEpoch := ballot.targetEpoch
  round := ballot.round
  candidatePeerId := ballot.candidatePeerId
  voterPeerId := C.peerIdFromPublicKey voter
  voterPublicKey := voter
  signature := .empty

/-- A vote for a ballot. -/
def vote (ballot : RecoveryBallotV1) (voter : PublicKey) : RecoveryVoteV1 :=
  { unsignedVote C ballot voter with
    signature := C.sign voter (.recoveryVote (unsignedVote C ballot voter)) }

/-- The certificate of a ballot with the votes of the given members. -/
def certificate (candidate : PublicKey) (round : Nat) (voters : List PublicKey) :
    RecoveryCertificateV1 :=
  ⟨f.ballot C candidate round, voters.map (vote C (f.ballot C candidate round))⟩

/-! ## Proposals on the founding membership -/

/-- The record of other members that the first authority proposes, before it is signed. -/
def unsignedSuccessor (members : List WorldMemberV1) : MembershipRecordV1 :=
  { f.unsignedMembership C with
    sequence := 1
    previousMembershipHash := some ((f.membership C).recordHash C)
    members := members }

/-- The first authority proposes other members. -/
def proposal (members : List WorldMemberV1) : MembershipProposalV1 where
  previous := f.membership C
  proposed := { f.unsignedSuccessor C members with
    signature := C.sign f.authority (.membership (f.unsignedSuccessor C members)) }

/-- The certificate of such a proposal with the votes of the given members. -/
def membershipCertificate (members : List WorldMemberV1) (voters : List PublicKey) :
    MembershipCertificateV1 :=
  ⟨f.proposal C members, voters.map fun key => signMembershipVote C ⟨key⟩ (f.proposal C members)⟩

/-! ## Invitations -/

/-- An invitation of the first authority, before it is signed. -/
def unsignedInvite : InviteV1 where
  protocolVersion := protocolVersionV1
  worldId := f.world C
  displayName := ""
  genesis := f.genesis
  inviterPeerId := C.peerIdFromPublicKey f.authority
  inviterPublicKey := f.authority
  bootstrapAddrs := []
  expiresUnixMs := 1000
  nonce := 0
  signature := .empty

/-- An invitation of the first authority. -/
def invite : InviteV1 :=
  { f.unsignedInvite C with signature := C.sign f.authority (.invite (f.unsignedInvite C)) }

/-! ## Runs of a founded world -/

/-- A founded world is a state to start from. -/
theorem system_initial : (f.system C).Initial where
  logs _ := rfl
  sent := rfl
  runtime _ := rfl
  recoveryPromise peer := by
    simp only [system, node]
    split <;> rfl
  membershipPromise peer := by
    simp only [system, node]
    split <;> rfl

/-! ## Numbered peers -/

/-- The world of the peers with the numbers `1` to `n`, whose first authority is number `1`. -/
def numbered (n : Nat) : Founding where
  genesis := {
    protocolVersion := protocolVersionV1
    minecraftVersion := ""
    fabricLoaderVersion := ""
    compatibilityFingerprint := ⟨.atom 0⟩
    creationNonce := 0
    creatorPublicKey := ⟨1⟩
    initialMembership := (List.range' 1 n).map PeerId.mk }
  keys := (List.range' 1 n).map PublicKey.mk
  authority := ⟨1⟩

/-- Every peer of the world is honest and named by the number of its key. -/
def fleet : Fleet .ideal where
  world := f.world .ideal
  key peer := ⟨peer.bytes⟩
  honest _ := True
  key_spec _ _ := rfl

instance : DecidablePred f.fleet.honest := fun _ => isTrue trivial

/-- The first authority of a numbered world. -/
abbrev first : PeerId := ⟨1⟩

/-- Its second member. -/
abbrev second : PeerId := ⟨2⟩

/-- Its third member. -/
abbrev third : PeerId := ⟨3⟩

/-- Its fourth member. -/
abbrev fourth : PeerId := ⟨4⟩

/-- After a tick of the asker, the status and the host readiness of another peer become known to
it. -/
def inquire (asker other : PeerId) : List Cue :=
  [tick asker, hand asker other 1, hand other asker 0, hand asker other 0, hand other asker 0]

/-- Two peers start, meet, wait until every lease has run out and learn of each other. -/
def gather (a b : PeerId) : List Cue :=
  [tick a, tick b] ++ connect a b ++ [wait 8000] ++ inquire a b ++ inquire b a

/-- A candidate asks another peer for its vote and receives it. -/
def canvass (candidate voter : PeerId) : List Cue :=
  [tick candidate, hand candidate voter 0, hand voter candidate 0]

end Founding

/-! ## Runs under a condition -/

open Effect Footprint

variable {C : Crypto}
variable {peer : PeerId} {cause : Input} {read : List File} {I : Store → Prop}

/-- A world that was just created is a state to start from. -/
theorem Founding.created_initial (f : Founding) : (f.created C).Initial := by
  have hkeeps : ∀ (file : File) (node : Node),
      file ∉ [.metadata, .descriptor, .membership, .soloPolicy] ++ File.commit →
      (createdStore C ⟨f.world C, ⟨f.authority⟩, 0⟩ f.genesis node).content file =
        Store.empty.content file :=
    fun file node hfile =>
      (writes (createLocalWorld C ⟨f.world C, ⟨f.authority⟩, 0⟩ f.genesis) _).store file hfile
  refine ⟨fun _ => rfl, rfl, fun _ => rfl, fun peer => ?_, fun peer => ?_⟩
  · simp only [Founding.created, Founding.node]
    split
    · exact hkeeps .recoveryPromise _ (by decide)
    · rfl
  · simp only [Founding.created, Founding.node]
    split
    · exact hkeeps .membershipPromise _ (by decide)
    · rfl

variable {F : Fleet C}

/-- The run of an input's handler writes its files only. -/
theorem System.handle_writes (s : System) (peer : PeerId) (cause : Input) :
    Writes cause.footprint (Exec.start (s.nodes peer)) (s.handle C F peer cause).2 :=
  cause.writes _

/-- The checks of a request before its dispatch change nothing. -/
theorem System.handle_dispatched {R : Exec → Exec → Prop} [Std.Refl R] (s : System)
    (peer sender : PeerId) (number : Nat) (message : WireRequest)
    (h : Along R (dispatchRequest C (s.site C F peer) ⟨(s.site C F peer).peer C, sender, number⟩
      message) (Exec.start (s.nodes peer))) :
    R (Exec.start (s.nodes peer)) (s.handle C F peer (.request sender number message)).2 := by
  have hrun : Along R ((Input.request sender number message).run C (s.site C F peer))
      (Exec.start (s.nodes peer)) := along_readStore (along_check fun _ _ => h)
  exact hrun

/-- A property of other files is kept by an input. -/
theorem System.handle_keeps {s : System}
    (hread : Store.Reads read I) (hapart : ∀ file ∈ read, file ∉ cause.footprint)
    (h : I (s.nodes peer).store) : I (s.handle C F peer cause).2.node.store :=
  hread.keeps (s.handle_writes peer cause).store hapart h

/-- A property of other files is kept at each durable state that an input passes through. -/
theorem System.trail_keeps {s : System}
    (hread : Store.Reads read I) (hapart : ∀ file ∈ read, file ∉ cause.footprint)
    (h : I (s.nodes peer).store) {point : Store × List Entry}
    (hpoint : point ∈ (s.handle C F peer cause).2.trail) : I point.1 := by
  rcases (s.handle_writes peer cause).trail point hpoint with hold | hnew
  · cases hold
  · exact hread.keeps hnew hapart h

variable {P : System → Act → Prop} {s t : System}

variable (C F P) in
/-- One step of the system that meets the condition. -/
def StepWith (s t : System) : Prop :=
  ∃ act : Act, act.Enabled C F s ∧ P s act ∧ t = s.perform C F act

variable (C F P) in
/-- The whole schedule can happen and every step of it meets the condition. -/
def System.PlaysWith (s : System) : List Cue → Prop
  | [] => True
  | cue :: cues => (cue s).Enabled C F s ∧ P s (cue s) ∧ (s.perform C F (cue s)).PlaysWith cues

theorem StepWith.step (h : StepWith C F P s t) : Step C F s t := by
  obtain ⟨act, henabled, _, ht⟩ := h
  exact ⟨act, henabled, ht⟩

theorem StepWith.run (h : Run (StepWith C F P) s t) : Run (Step C F) s t := by
  induction h with
  | refl => exact .refl
  | tail _ hlast ih => exact ih.tail hlast.step

/-- A schedule whose steps all meet the condition is such a run. -/
theorem System.PlaysWith.run {cues : List Cue} (h : s.PlaysWith C F P cues) :
    Run (StepWith C F P) s (s.play C F cues) := by
  induction cues generalizing s with
  | nil => exact .refl
  | cons cue cues ih => exact .head ⟨cue s, h.1, h.2.1, rfl⟩ (ih h.2.2)

/-- Whether every step of a schedule meets the condition is found by playing it. -/
def System.decidePlaysWith [DecidablePred F.honest] [hP : ∀ s act, Decidable (P s act)] :
    (cues : List Cue) → (s : System) → Decidable (s.PlaysWith C F P cues)
  | [], _ => isTrue trivial
  | cue :: cues, s =>
    have := System.decidePlaysWith cues (s.perform C F (cue s))
    inferInstanceAs (Decidable ((cue s).Enabled C F s ∧ P s (cue s) ∧
      (s.perform C F (cue s)).PlaysWith C F P cues))

instance [DecidablePred F.honest] [∀ s act, Decidable (P s act)] (cues : List Cue) :
    Decidable (s.PlaysWith C F P cues) :=
  System.decidePlaysWith cues s

/-- Nothing crashes in the middle of what it does. -/
def Act.crashFree : Act → Bool
  | .cut _ _ _ => false
  | _ => true

/-- The node after an input has the store that its handler left. -/
theorem Input.settle_store (cause : Input) (out : Except DaemonError Unit × Exec) :
    (cause.settle out).store = out.2.node.store := by
  obtain ⟨result, e⟩ := out
  cases result with
  | ok value => rfl
  | error error =>
    simp only [Input.settle]
    split <;> rfl

/-- The store of a peer after another one became a node. -/
theorem System.become_store_of_ne {actor : PeerId} (hne : peer ≠ actor) (node : Node)
    (entries : List Entry) (packets : List Packet) :
    ((s.become actor node entries packets).nodes peer).store = (s.nodes peer).store := by
  simp only [System.become, Function.update_of_ne hne]

/-- The store of a peer after it became a node. -/
theorem System.become_store_self (actor : PeerId) (node : Node) (entries : List Entry)
    (packets : List Packet) :
    ((s.become actor node entries packets).nodes actor).store = node.store := by
  simp only [System.become, Function.update_self]

/-- A property of the files of single peers that inputs and crashes keep under the condition. -/
theorem StepWith.storeInvariant {I : PeerId → Store → Prop}
    (hread : ∀ peer, Store.Reads read (I peer)) (hother : ∀ file ∈ read, file ∉ [.blobs, .soloPolicy])
    (hinput : ∀ r, Run (StepWith C F P) s r → ∀ peer cause, F.honest peer →
      cause.Enabled C F r peer → P r (.input peer cause) → I peer (r.nodes peer).store →
      I peer (r.handle C F peer cause).2.node.store)
    (hcut : ∀ r, Run (StepWith C F P) s r → ∀ peer cause point, F.honest peer →
      cause.Enabled C F r peer → P r (.cut peer cause point) → I peer (r.nodes peer).store →
      ∀ passed ∈ (r.handle C F peer cause).2.trail, I peer passed.1)
    (hrun : Run (StepWith C F P) s t) (hs : ∀ peer, I peer (s.nodes peer).store) (peer : PeerId) :
    I peer (t.nodes peer).store := by
  induction hrun with
  | refl => exact hs peer
  | @tail r r' hprefix hlast ih =>
    obtain ⟨act, henabled, hP, rfl⟩ := hlast
    have hbecome {actor : PeerId} {node : Node} {entries : List Entry} {packets : List Packet}
        (h : peer = actor → I peer node.store) :
        I peer ((r.become actor node entries packets).nodes peer).store := by
      by_cases hpeer : peer = actor
      · subst hpeer
        rw [System.become_store_self]
        exact h rfl
      · rw [System.become_store_of_ne hpeer]
        exact ih
    cases act with
    | input actor cause =>
      refine hbecome fun hpeer => ?_
      subst hpeer
      rw [Input.settle_store]
      exact hinput r hprefix peer cause henabled.1 henabled.2 hP ih
    | cut actor cause point =>
      simp only [System.perform]
      split
      · rename_i store entries hpoint
        refine hbecome fun hpeer => ?_
        subst hpeer
        exact hcut r hprefix peer cause point henabled.1 henabled.2 hP ih _
          (List.mem_of_getElem? hpoint)
      · exact ih
    | restart actor =>
      refine hbecome fun hpeer => ?_
      subst hpeer
      exact ih
    | elapse milliseconds => exact ih
    | surroundings actor host blobs soloPolicy =>
      refine hbecome fun hpeer => ?_
      subst hpeer
      have hblobs : Store.Apart [.blobs, .soloPolicy] (r.nodes peer).store
          ((r.nodes peer).store.put .blobs blobs) := Store.apart_put .blobs (by decide) blobs _
      refine (hread peer).keeps (hblobs.trans ?_) hother ih
      exact Store.apart_put .soloPolicy (by decide) soloPolicy _
    | reorder actor recoveryVotes membershipVotes =>
      refine hbecome fun hpeer => ?_
      subst hpeer
      exact ih

end SwarmCraft
