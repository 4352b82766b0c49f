import SwarmCraft.Protocol.Records
import SwarmCraft.Core.Checked

/-!
# Hashing, signing and semantic checks

BLAKE3 and Ed25519 are parameters. A hash input is a domain separator together
with the record encoded under it; a signable content is a signing domain with the
unsigned fields of a record. `Crypto` bundles the two primitives with what the code
relies on: hashes do not collide and a signature verifies under its own key. Ideal
primitives satisfy these laws, so that runs can be evaluated.
-/

namespace SwarmCraft

open Checked

/-- One constructor for each hash domain of the protocol, with what is encoded under it. -/
inductive HashInput where
  | worldGenesis (genesis : WorldGenesisV1)
  | snapshotState (entries : List SnapshotEntry)
  | snapshot (manifest : SnapshotManifestV1)
  | membershipRecord (record : MembershipRecordV1)
  | membershipProposal (previous proposed : Hash32)
  | recoveryBallot (unsigned : RecoveryBallotV1)
  | epochRecord (record : EpochRecordV1)
  | soloBranch (unsigned : SoloBranchV1)
  | worldConfig (unsigned : WorldConfigV1)
  | blob (content : List UInt8)
  | worldAnnouncement (announcement : WorldAnnouncementV1)
  deriving DecidableEq

/-- One constructor for each signing domain, with the record whose signature is cleared. -/
inductive Signable where
  | snapshot (unsigned : SnapshotManifestV1)
  | epoch (unsigned : EpochRecordV1)
  | invite (unsigned : InviteV1)
  | membership (unsigned : MembershipRecordV1)
  | transfer (unsigned : AuthorityTransferV1)
  | lease (unsigned : AuthorityLeaseGrantV1)
  | join (unsigned : JoinRequestV1)
  | leave (unsigned : LeaveRequestV1)
  | sleep (unsigned : SleepRecordV1)
  | membershipVote (unsigned : MembershipVoteV1)
  | recoveryBallot (unsigned : RecoveryBallotV1)
  | recoveryVote (unsigned : RecoveryVoteV1)
  | soloBranch (unsigned : SoloBranchV1)
  | worldConfig (unsigned : WorldConfigV1)
  | worldAnnouncement (unsigned : WorldAnnouncementV1)
  | discoveryFreshnessVote (unsigned : DiscoveryFreshnessVoteV1)
  | peerHello (unsigned : PeerHelloV1)
  | peerHelloProof (unsigned : PeerHelloProofV1)
  deriving DecidableEq

/-- The cryptographic primitives with the laws that the protocol relies on. -/
structure Crypto where
  /-- `Hash32::from_domain_bytes` over the canonical encoding. -/
  hash : HashInput → Hash32
  /-- Digests of different inputs differ, also across domains. -/
  hash_injective : Function.Injective hash
  /-- `peer_id_from_public_key`. -/
  peerIdFromPublicKey : PublicKey → PeerId
  /-- A peer identity determines its key. -/
  peerId_injective : Function.Injective peerIdFromPublicKey
  /-- `SigningKey::sign` of the key pair with the given public key. -/
  sign : PublicKey → Signable → Signature
  /-- `VerifyingKey::verify`. -/
  verify : PublicKey → Signable → Signature → Bool
  /-- A signature verifies under the key that made it. -/
  verify_sign : ∀ key content, verify key content (sign key content) = true

/-- Failures of the identity layer. -/
inductive CoreError where
  | peerIdentityMismatch
  | signatureInvalid
  | protocol (error : ProtocolError)
  deriving DecidableEq

/-- `semantic_error`. -/
def semanticError (record detail : String) : ProtocolError := .invalidIdentifier record detail

/-- `require_protocol_version`. -/
def requireProtocolVersion (record : String) (version : Nat) : Except ProtocolError Unit :=
  ensure (version = protocolVersionV1)
    (semanticError record s!"unsupported protocol version {version}; expected {protocolVersionV1}")

/-- Members strictly increase by peer id. -/
def strictPeerOrder : List WorldMemberV1 → Bool
  | a :: b :: rest => decide (a.peerId < b.peerId) && strictPeerOrder (b :: rest)
  | _ => true

/-- `require_strict_peer_order`. -/
def requireStrictPeerOrder (record : String) (members : List WorldMemberV1) :
    Except ProtocolError Unit := do
  ensure (members ≠ []) (semanticError record "member set must not be empty")
  ensure (strictPeerOrder members = true)
    (semanticError record "members must be strictly ordered by peer_id with no duplicates")

/-- Peer ids strictly increase. -/
def strictPeerIdOrder : List PeerId → Bool
  | a :: b :: rest => decide (a < b) && strictPeerIdOrder (b :: rest)
  | _ => true

/-- `require_strict_peer_id_order`. -/
def requireStrictPeerIdOrder (record : String) (peers : List PeerId) :
    Except ProtocolError Unit := do
  ensure (peers ≠ []) (semanticError record "initial membership must not be empty")
  ensure (strictPeerIdOrder peers = true)
    (semanticError record "initial membership must be strictly ordered with no duplicates")

/-- Paths strictly increase. -/
def strictPathOrder : List SnapshotEntry → Bool
  | a :: b :: rest => decide (a.path < b.path) && strictPathOrder (b :: rest)
  | _ => true

/-- `require_snapshot_entry_order`. -/
def requireSnapshotEntryOrder (entries : List SnapshotEntry) : Except ProtocolError Unit :=
  ensure (strictPathOrder entries = true)
    (semanticError "snapshot manifest"
      "entries must be strictly ordered by path with no duplicates")

variable (C : Crypto)

/-- `WorldGenesisV1::world_id`. -/
def WorldGenesisV1.worldId (genesis : WorldGenesisV1) : WorldId := ⟨C.hash (.worldGenesis genesis)⟩

/-- `snapshot_state_root`. -/
def snapshotStateRoot (entries : List SnapshotEntry) : Hash32 := C.hash (.snapshotState entries)

/-- `SnapshotManifestV1::manifest_hash`, over the signed manifest. -/
def SnapshotManifestV1.manifestHash (manifest : SnapshotManifestV1) : Hash32 :=
  C.hash (.snapshot manifest)

/-- `MembershipRecordV1::record_hash`, over the signed record. -/
def MembershipRecordV1.recordHash (record : MembershipRecordV1) : Hash32 :=
  C.hash (.membershipRecord record)

/-- `epoch_record_hash`, over the signed record. -/
def epochRecordHash (record : EpochRecordV1) : Hash32 := C.hash (.epochRecord record)

/-- `MembershipProposalV1::proposal_hash`. -/
def MembershipProposalV1.proposalHash (proposal : MembershipProposalV1) : Hash32 :=
  C.hash (.membershipProposal (proposal.previous.recordHash C) (proposal.proposed.recordHash C))

/-- The ballot without its signature. -/
def RecoveryBallotV1.unsigned (ballot : RecoveryBallotV1) : RecoveryBallotV1 :=
  { ballot with signature := .empty }

/-- `RecoveryBallotV1::ballot_hash`, over the unsigned fields. -/
def RecoveryBallotV1.ballotHash (ballot : RecoveryBallotV1) : Hash32 :=
  C.hash (.recoveryBallot ballot.unsigned)

/-- The branch without its signature. -/
def SoloBranchV1.unsigned (branch : SoloBranchV1) : SoloBranchV1 :=
  { branch with signature := .empty }

/-- `SoloBranchV1::branch_hash`, over the unsigned fields. -/
def SoloBranchV1.branchHash (branch : SoloBranchV1) : Hash32 := C.hash (.soloBranch branch.unsigned)

/-- Equal ballot hashes come from equal unsigned ballots. -/
theorem RecoveryBallotV1.ballotHash_inj {a b : RecoveryBallotV1} :
    a.ballotHash C = b.ballotHash C ↔ a.unsigned = b.unsigned := by
  unfold ballotHash
  rw [C.hash_injective.eq_iff]
  simp

/-- Equal record hashes come from equal records. -/
theorem MembershipRecordV1.recordHash_inj {a b : MembershipRecordV1} :
    a.recordHash C = b.recordHash C ↔ a = b := by
  unfold recordHash
  rw [C.hash_injective.eq_iff]
  simp

/-- Equal manifest hashes come from equal manifests. -/
theorem SnapshotManifestV1.manifestHash_inj {a b : SnapshotManifestV1} :
    a.manifestHash C = b.manifestHash C ↔ a = b := by
  unfold manifestHash
  rw [C.hash_injective.eq_iff]
  simp

/-- Equal proposal hashes come from equal proposals. -/
theorem MembershipProposalV1.proposalHash_inj {a b : MembershipProposalV1} :
    a.proposalHash C = b.proposalHash C ↔ a = b := by
  unfold proposalHash
  rw [C.hash_injective.eq_iff]
  cases a
  cases b
  simp [MembershipRecordV1.recordHash_inj]

open Encoding

/-! ## Encodings of the records -/

instance : Encode Hash32 := .through Hash32.code fun ⟨_⟩ ⟨_⟩ h => congrArg _ h

instance : Encode Signature := .through Signature.code fun ⟨_⟩ ⟨_⟩ h => congrArg _ h

instance : Encode PeerId := .through PeerId.bytes fun ⟨_⟩ ⟨_⟩ h => congrArg _ h

instance : Encode PublicKey := .through PublicKey.bytes fun ⟨_⟩ ⟨_⟩ h => congrArg _ h

instance : Encode WorldId := .through WorldId.hash fun ⟨_⟩ ⟨_⟩ h => congrArg _ h

instance : Encode BlobEncoding :=
  .through (fun encoding => match encoding with | .raw => 0 | .zstd => 1)
    fun a b h => by cases a <;> cases b <;> simp_all

instance : Encode EpochMode :=
  .through (fun mode => match mode with | .quorum => 0 | .solo => 1 | .recovery => 2)
    fun a b h => by cases a <;> cases b <;> simp_all

instance : Encode TransferPhase :=
  .through (fun phase => match phase with | .prepared => 0 | .accepted => 1 | .committed => 2)
    fun a b h => by cases a <;> cases b <;> simp_all

instance : Encode WorldGenesisV1 :=
  .through (fun r => (r.protocolVersion, r.minecraftVersion, r.fabricLoaderVersion,
    r.compatibilityFingerprint, r.creationNonce, r.creatorPublicKey, r.initialMembership))
    fun a b h => by cases a; cases b; simpa using h

instance : Encode BlobDescriptor :=
  .through (fun r => (r.hash, r.uncompressedSize, r.encodedSize, r.encoding))
    fun a b h => by cases a; cases b; simpa using h

instance : Encode SnapshotEntry :=
  .through (fun r => (r.path, r.blob)) fun a b h => by cases a; cases b; simpa using h

instance : Encode SnapshotManifestV1 :=
  .through (fun r => (r.protocolVersion, r.worldId, r.snapshotNumber, r.epoch, r.sequence,
    r.previousSnapshotHash, r.entries, r.stateRoot, r.authorityPeerId, r.authorityPublicKey,
    r.signature)) fun a b h => by cases a; cases b; simpa using h

instance : Encode EpochRecordV1 :=
  .through (fun r => (r.protocolVersion, r.worldId, r.epochNumber, r.previousEpochHash,
    r.baseStateHash, r.authorityPeerId, r.authorityPublicKey, r.mode, r.fencingToken, r.reason,
    r.signature)) fun a b h => by cases a; cases b; simpa using h

instance : Encode WorldMemberV1 :=
  .through (fun r => (r.peerId, r.publicKey, r.authorityEligible, r.banned))
    fun a b h => by cases a; cases b; simpa using h

instance : Encode MembershipRecordV1 :=
  .through (fun r => (r.protocolVersion, r.worldId, r.epoch, r.sequence,
    r.previousMembershipHash, r.members, r.authorityPeerId, r.authorityPublicKey, r.signature))
    fun a b h => by cases a; cases b; simpa using h

instance : Encode InviteV1 :=
  .through (fun r => (r.protocolVersion, r.worldId, r.displayName, r.genesis, r.inviterPeerId,
    r.inviterPublicKey, r.bootstrapAddrs, r.expiresUnixMs, r.nonce, r.signature))
    fun a b h => by cases a; cases b; simpa using h

instance : Encode AuthorityTransferV1 :=
  .through (fun r => (r.protocolVersion, r.worldId, r.fromPeerId, r.toPeerId, r.baseSnapshotHash,
    r.nextEpoch, r.nextFencingToken, r.phase, r.signerPeerId, r.signerPublicKey, r.signature))
    fun a b h => by cases a; cases b; simpa using h

instance : Encode AuthorityLeaseGrantV1 :=
  .through (fun r => (r.protocolVersion, r.worldId, r.epoch, r.fencingToken, r.leaseDurationMs,
    r.authorityPeerId, r.authorityPublicKey, r.nonce, r.signature))
    fun a b h => by cases a; cases b; simpa using h

instance : Encode JoinRequestV1 :=
  .through (fun r => (r.protocolVersion, r.worldId, r.invite, r.joiningMember, r.nonce,
    r.signature)) fun a b h => by cases a; cases b; simpa using h

instance : Encode LeaveRequestV1 :=
  .through (fun r => (r.protocolVersion, r.worldId, r.membershipHash, r.leavingPeerId,
    r.leavingPublicKey, r.nonce, r.signature)) fun a b h => by cases a; cases b; simpa using h

instance : Encode SleepRecordV1 :=
  .through (fun r => (r.protocolVersion, r.worldId, r.latestSnapshotHash, r.epoch, r.fencingToken,
    r.authorityPeerId, r.authorityPublicKey, r.signature))
    fun a b h => by cases a; cases b; simpa using h

instance : Encode MembershipVoteV1 :=
  .through (fun r => (r.protocolVersion, r.worldId, r.previousMembershipHash,
    r.proposedMembershipHash, r.proposedSequence, r.voterPeerId, r.voterPublicKey, r.signature))
    fun a b h => by cases a; cases b; simpa using h

instance : Encode RecoveryBallotV1 :=
  .through (fun r => (r.protocolVersion, r.worldId, r.baseEpoch, r.baseFencingToken, r.targetEpoch,
    r.targetFencingToken, r.round, r.candidatePeerId, r.candidatePublicKey, r.baseSnapshotHash,
    r.baseStateHash, r.membershipHash, r.signature))
    fun a b h => by cases a; cases b; simpa using h

instance : Encode RecoveryVoteV1 :=
  .through (fun r => (r.protocolVersion, r.worldId, r.ballotHash, r.baseEpoch, r.targetEpoch,
    r.round, r.candidatePeerId, r.voterPeerId, r.voterPublicKey, r.signature))
    fun a b h => by cases a; cases b; simpa using h

instance : Encode SoloBranchV1 :=
  .through (fun r => (r.protocolVersion, r.worldId, r.baseSnapshotHash, r.baseEpoch,
    r.headSnapshotHash, r.headEpoch, r.headSequence, r.stateHash, r.authorityPeerId,
    r.authorityPublicKey, r.signature)) fun a b h => by cases a; cases b; simpa using h

instance : Encode ArtifactSideV1 :=
  .through ArtifactSideV1.rank fun a b h => by cases a <;> cases b <;> simp_all [ArtifactSideV1.rank]

instance : Encode WorldVisibilityV1 :=
  .through (fun visibility => match visibility with | .private => 0 | .unlisted => 1 | .public => 2)
    fun a b h => by cases a <;> cases b <;> simp_all

instance : Encode MembershipPolicyV1 :=
  .through (fun policy => match policy with | .inviteOnly => 0 | .approvalRequired => 1 | .open => 2)
    fun a b h => by cases a <;> cases b <;> simp_all

instance : Encode ArtifactRequirementV1 :=
  .through (fun r => (r.artifactId, r.version, r.artifactHash, r.side, r.providerHint))
    fun a b h => by cases a; cases b; simpa using h

instance : Encode RuntimeCompatibilityManifestV1 :=
  .through (fun r => (r.minecraftVersion, r.loaderId, r.loaderVersion, r.swarmcraftProtocolVersion,
    r.fabricAdapterVersion, r.requiredServerMods, r.requiredClientMods, r.datapacks))
    fun a b h => by cases a; cases b; simpa using h

instance : Encode AuthorityPolicyV1 :=
  .through (fun r => (r.allowSoloAdvancement, r.preferredReplicationFactor))
    fun a b h => by cases a; cases b; simpa using h

instance : Encode WorldPresentationV1 :=
  .through (fun r => (r.name, r.description, r.tags, r.iconHash, r.approximateRegion))
    fun a b h => by cases a; cases b; simpa using h

instance : Encode WorldConfigV1 :=
  .through (fun r => (r.protocolVersion, r.worldId, r.sequence, r.previousConfigHash, r.compatibility,
    r.visibility, r.authorityPolicy, r.membershipPolicy, r.presentation, r.authorityPeerId,
    r.authorityPublicKey, r.signature)) fun a b h => by cases a; cases b; simpa using h

instance : Encode UInt8 := .through UInt8.toNat fun _ _ h => UInt8.toNat_inj.mp h

instance : Encode DiscoveryCompatibilityV1 :=
  .through (fun r => (r.minecraftVersion, r.loaderId, r.loaderVersion, r.fabricAdapterVersion,
    r.compatibilityFingerprint)) fun a b h => by cases a; cases b; simpa using h

instance : Encode DiscoveryCanonicalHeadV1 :=
  .through (fun r => (r.snapshotNumber, r.manifestHash, r.epoch, r.sequence))
    fun a b h => by cases a; cases b; simpa using h

instance : Encode WorldAnnouncementV1 :=
  .through (fun r => (r.protocolVersion, r.worldId, r.presentation, r.compatibility, r.visibility,
    r.membershipPolicy, r.configSequence, r.configHash, r.membershipSequence, r.membershipHash,
    r.authorityEpoch, r.fencingToken, r.canonicalHead, r.announcementSequence, r.issuedUnixMs,
    r.expiresUnixMs, r.announcerPeerId, r.announcerPublicKey, r.signature))
    fun a b h => by cases a; cases b; simpa using h

instance : Encode DiscoveryFreshnessChallengeV1 :=
  .through (fun r => (r.protocolVersion, r.verifierPeerId, r.nonce, r.worldId, r.announcementHash,
    r.membershipSequence, r.membershipHash, r.pendingMembershipProposalHash, r.authorityPeerId,
    r.authorityEpoch, r.fencingToken, r.configSequence, r.configHash, r.canonicalHead,
    r.issuedUnixMs, r.expiresUnixMs)) fun a b h => by cases a; cases b; simpa using h

instance : Encode DiscoveryFreshnessVoteV1 :=
  .through (fun r => (r.challenge, r.voterPeerId, r.voterPublicKey, r.signature))
    fun a b h => by cases a; cases b; simpa using h

instance : Encode TransportPeerId := .through TransportPeerId.bytes fun ⟨_⟩ ⟨_⟩ h => congrArg _ h

instance : Encode PeerHelloV1 :=
  .through (fun r => (r.peerId, r.publicKey, r.protocolVersions, r.capabilities, r.nonce,
    r.signature)) fun a b h => by cases a; cases b; simpa using h

instance : Encode PeerHelloProofV1 :=
  .through (fun r => (r.hello, r.challenge, r.claimantTransportPeer, r.receiverTransportPeer,
    r.signature)) fun a b h => by cases a; cases b; simpa using h

/-! ## The primitives -/

/-- What is hashed, behind the tag of its domain. -/
def HashInput.code : HashInput → Code
  | .worldGenesis genesis => tagged 0 genesis
  | .snapshotState entries => tagged 1 entries
  | .snapshot manifest => tagged 2 manifest
  | .membershipRecord record => tagged 3 record
  | .membershipProposal previous proposed => tagged 4 (previous, proposed)
  | .recoveryBallot unsigned => tagged 5 unsigned
  | .epochRecord record => tagged 6 record
  | .soloBranch unsigned => tagged 7 unsigned
  | .worldConfig unsigned => tagged 8 unsigned
  | .blob content => tagged 9 content
  | .worldAnnouncement announcement => tagged 10 announcement

/-- Different inputs have different encodings, also across domains. -/
theorem HashInput.code_injective : Function.Injective HashInput.code := by
  intro a b h
  cases a <;> cases b <;>
    first
    | exact congrArg _ (tagged_inj h)
    | exact absurd h (tagged_ne (by decide) _ _)
    | skip
  obtain ⟨hprevious, hproposed⟩ := Prod.mk.inj (tagged_inj h)
  rw [hprevious, hproposed]

/-- What is signed, behind the tag of its domain. -/
def Signable.code : Signable → Code
  | .snapshot unsigned => tagged 0 unsigned
  | .epoch unsigned => tagged 1 unsigned
  | .invite unsigned => tagged 2 unsigned
  | .membership unsigned => tagged 3 unsigned
  | .transfer unsigned => tagged 4 unsigned
  | .lease unsigned => tagged 5 unsigned
  | .join unsigned => tagged 6 unsigned
  | .leave unsigned => tagged 7 unsigned
  | .sleep unsigned => tagged 8 unsigned
  | .membershipVote unsigned => tagged 9 unsigned
  | .recoveryBallot unsigned => tagged 10 unsigned
  | .recoveryVote unsigned => tagged 11 unsigned
  | .soloBranch unsigned => tagged 12 unsigned
  | .worldConfig unsigned => tagged 13 unsigned
  | .worldAnnouncement unsigned => tagged 14 unsigned
  | .discoveryFreshnessVote unsigned => tagged 15 unsigned
  | .peerHello unsigned => tagged 16 unsigned
  | .peerHelloProof unsigned => tagged 17 unsigned

/-- Hashing as encoding; peers are named by the number of their key. -/
def Crypto.ideal : Crypto where
  hash input := ⟨input.code⟩
  hash_injective _ _ h := HashInput.code_injective (congrArg Hash32.code h)
  peerIdFromPublicKey key := ⟨key.bytes⟩
  peerId_injective := fun ⟨_⟩ ⟨_⟩ h => congrArg _ (PeerId.mk.inj h)
  sign key content := ⟨.pair (.atom key.bytes) content.code⟩
  verify key content signature := decide (signature = ⟨.pair (.atom key.bytes) content.code⟩)
  verify_sign _ _ := decide_eq_true rfl

end SwarmCraft
