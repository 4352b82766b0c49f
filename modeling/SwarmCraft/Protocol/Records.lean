import SwarmCraft.Core.Encoding
import Mathlib.Data.List.Basic
import Mathlib.Order.Basic
import Mathlib.Data.List.Sort
import Mathlib.Data.List.Destutter

/-!
# Protocol records

The signed and hashed records of protocol version 1, field by field. Identifiers
are 32-byte strings in the source and are compared as big-endian numbers here.
Digests and signatures are kept symbolic: their carrier is unbounded, so that a
collision-free hash can exist at all. Counters are natural numbers and every
increment of the source is the checked one of `checkedSucc`. Texts are ordered by code
point, as their UTF-8 bytes are, and digests by their codes.
-/

namespace SwarmCraft

open Encoding

/-- A BLAKE3 digest. -/
structure Hash32 where
  /-- The symbolic digest. -/
  code : Code
  deriving DecidableEq

/-- The signature bytes of a record; unsigned records carry the empty string. -/
structure Signature where
  /-- The symbolic signature. -/
  code : Code
  deriving DecidableEq

/-- The `Vec::new()` placeholder of a record that is not signed yet. -/
def Signature.empty : Signature := ⟨.atom 0⟩

/-- The application identity of a peer. -/
structure PeerId where
  /-- The 32 identifier bytes as a big-endian number. -/
  bytes : Nat
  deriving DecidableEq

instance : LT PeerId := ⟨fun a b => a.bytes < b.bytes⟩

instance (a b : PeerId) : Decidable (a < b) := inferInstanceAs (Decidable (a.bytes < b.bytes))

/-- The identity of a world, derived from its genesis. -/
structure WorldId where
  /-- The digest of the genesis. -/
  hash : Hash32
  deriving DecidableEq

/-- An Ed25519 public key. -/
structure PublicKey where
  /-- The 32 key bytes as a number. -/
  bytes : Nat
  deriving DecidableEq

/-- The only protocol version the code accepts. -/
def protocolVersionV1 : Nat := 1

/-- The largest 64-bit counter value. -/
def u64Max : Nat := 18446744073709551615

/-- `u64::checked_add(1)`. -/
def checkedSucc (n : Nat) : Option Nat := if n < u64Max then some (n + 1) else none

/-- A checked successor is the successor, taken below the 64-bit limit. -/
theorem checkedSucc_eq_some {n m : Nat} : checkedSucc n = some m ↔ n < u64Max ∧ m = n + 1 := by
  unfold checkedSucc
  split
  · rename_i h
    simp [h, eq_comm]
  · rename_i h
    simp [h]

/-- A record that fails its own semantic check, or an identifier that does not parse. -/
inductive ProtocolError where
  /-- `invalid {kind} identifier: {value}`. -/
  | invalidIdentifier (kind value : String)
  deriving DecidableEq

/-- The immutable creation record of a world. -/
structure WorldGenesisV1 where
  protocolVersion : Nat
  minecraftVersion : String
  fabricLoaderVersion : String
  compatibilityFingerprint : Hash32
  creationNonce : Nat
  creatorPublicKey : PublicKey
  initialMembership : List PeerId
  deriving DecidableEq

/-- How the bytes of a blob are stored. -/
inductive BlobEncoding where
  | raw
  | zstd
  deriving DecidableEq

/-- The content address of one file of a snapshot. -/
structure BlobDescriptor where
  hash : Hash32
  uncompressedSize : Nat
  encodedSize : Nat
  encoding : BlobEncoding
  deriving DecidableEq

/-- One path of a snapshot with its blob. -/
structure SnapshotEntry where
  path : String
  blob : BlobDescriptor
  deriving DecidableEq

/-- A signed snapshot of the world, linked to the snapshot before it. -/
structure SnapshotManifestV1 where
  protocolVersion : Nat
  worldId : WorldId
  snapshotNumber : Nat
  epoch : Nat
  sequence : Nat
  previousSnapshotHash : Option Hash32
  entries : List SnapshotEntry
  stateRoot : Hash32
  authorityPeerId : PeerId
  authorityPublicKey : PublicKey
  signature : Signature
  deriving DecidableEq

/-- The rule by which an epoch's authority was installed. -/
inductive EpochMode where
  | quorum
  | solo
  | recovery
  deriving DecidableEq

/-- The record that installs an authority for one generation. -/
structure EpochRecordV1 where
  protocolVersion : Nat
  worldId : WorldId
  epochNumber : Nat
  previousEpochHash : Option Hash32
  baseStateHash : Hash32
  authorityPeerId : PeerId
  authorityPublicKey : PublicKey
  mode : EpochMode
  fencingToken : Nat
  reason : String
  signature : Signature
  deriving DecidableEq

/-- One member of a world. -/
structure WorldMemberV1 where
  peerId : PeerId
  publicKey : PublicKey
  authorityEligible : Bool
  banned : Bool
  deriving DecidableEq

/-- The unsigned local description of a world's members. -/
structure WorldDescriptorV1 where
  protocolVersion : Nat
  worldId : WorldId
  compatibilityFingerprint : Hash32
  members : List WorldMemberV1
  preferredReplicationFactor : Nat
  deriving DecidableEq

/-- A signed membership configuration, linked to the one before it. -/
structure MembershipRecordV1 where
  protocolVersion : Nat
  worldId : WorldId
  epoch : Nat
  sequence : Nat
  previousMembershipHash : Option Hash32
  members : List WorldMemberV1
  authorityPeerId : PeerId
  authorityPublicKey : PublicKey
  signature : Signature
  deriving DecidableEq

/-- A bearer invitation into a world. -/
structure InviteV1 where
  protocolVersion : Nat
  worldId : WorldId
  displayName : String
  genesis : WorldGenesisV1
  inviterPeerId : PeerId
  inviterPublicKey : PublicKey
  bootstrapAddrs : List String
  expiresUnixMs : Nat
  nonce : Nat
  signature : Signature
  deriving DecidableEq

/-- The three signed phases of a manual authority transfer. -/
inductive TransferPhase where
  | prepared
  | accepted
  | committed
  deriving DecidableEq

/-- One signed phase of a manual authority transfer. -/
structure AuthorityTransferV1 where
  protocolVersion : Nat
  worldId : WorldId
  fromPeerId : PeerId
  toPeerId : PeerId
  baseSnapshotHash : Hash32
  nextEpoch : Nat
  nextFencingToken : Nat
  phase : TransferPhase
  signerPeerId : PeerId
  signerPublicKey : PublicKey
  signature : Signature
  deriving DecidableEq

/-- The lease an authority offers for its own generation. -/
structure AuthorityLeaseGrantV1 where
  protocolVersion : Nat
  worldId : WorldId
  epoch : Nat
  fencingToken : Nat
  leaseDurationMs : Nat
  authorityPeerId : PeerId
  authorityPublicKey : PublicKey
  nonce : Nat
  signature : Signature
  deriving DecidableEq

/-- What a replica reports about its own state. -/
structure WorldStatusV1 where
  worldId : WorldId
  epoch : Nat
  sequence : Nat
  latestSnapshot : Option Hash32
  stateHash : Option Hash32
  compatibilityFingerprint : Hash32
  authorityEligible : Bool
  deriving DecidableEq

/-- A signed request to join a world. -/
structure JoinRequestV1 where
  protocolVersion : Nat
  worldId : WorldId
  invite : InviteV1
  joiningMember : WorldMemberV1
  nonce : Nat
  signature : Signature
  deriving DecidableEq

/-- A signed request to leave a world. -/
structure LeaveRequestV1 where
  protocolVersion : Nat
  worldId : WorldId
  membershipHash : Hash32
  leavingPeerId : PeerId
  leavingPublicKey : PublicKey
  nonce : Nat
  signature : Signature
  deriving DecidableEq

/-- The authority's statement that the world sleeps on a snapshot. -/
structure SleepRecordV1 where
  protocolVersion : Nat
  worldId : WorldId
  latestSnapshotHash : Hash32
  epoch : Nat
  fencingToken : Nat
  authorityPeerId : PeerId
  authorityPublicKey : PublicKey
  signature : Signature
  deriving DecidableEq

/-- The signed ancestry of a history that one authority wrote alone. -/
structure SoloBranchV1 where
  protocolVersion : Nat
  worldId : WorldId
  baseSnapshotHash : Hash32
  baseEpoch : Nat
  headSnapshotHash : Hash32
  headEpoch : Nat
  headSequence : Nat
  stateHash : Hash32
  authorityPeerId : PeerId
  authorityPublicKey : PublicKey
  signature : Signature
  deriving DecidableEq

/-- A proposed step from one membership record to the next. -/
structure MembershipProposalV1 where
  previous : MembershipRecordV1
  proposed : MembershipRecordV1
  deriving DecidableEq

/-- A signed vote for a membership proposal. -/
structure MembershipVoteV1 where
  protocolVersion : Nat
  worldId : WorldId
  previousMembershipHash : Hash32
  proposedMembershipHash : Hash32
  proposedSequence : Nat
  voterPeerId : PeerId
  voterPublicKey : PublicKey
  signature : Signature
  deriving DecidableEq

/-- A proposal with the votes that commit it. -/
structure MembershipCertificateV1 where
  proposal : MembershipProposalV1
  votes : List MembershipVoteV1
  deriving DecidableEq

/-- A candidate's ballot to succeed the authority of a base generation. -/
structure RecoveryBallotV1 where
  protocolVersion : Nat
  worldId : WorldId
  baseEpoch : Nat
  baseFencingToken : Nat
  targetEpoch : Nat
  targetFencingToken : Nat
  round : Nat
  candidatePeerId : PeerId
  candidatePublicKey : PublicKey
  baseSnapshotHash : Hash32
  baseStateHash : Hash32
  membershipHash : Hash32
  signature : Signature
  deriving DecidableEq

/-- A signed vote for a recovery ballot. -/
structure RecoveryVoteV1 where
  protocolVersion : Nat
  worldId : WorldId
  ballotHash : Hash32
  baseEpoch : Nat
  targetEpoch : Nat
  round : Nat
  candidatePeerId : PeerId
  voterPeerId : PeerId
  voterPublicKey : PublicKey
  signature : Signature
  deriving DecidableEq

/-- A ballot with the votes that decide it. -/
structure RecoveryCertificateV1 where
  ballot : RecoveryBallotV1
  votes : List RecoveryVoteV1
  deriving DecidableEq

/-! ## World configuration -/

/-- A total comparison of codes, in place of the comparison of the digest's bytes. -/
def codeCompare : Code → Code → Ordering
  | .atom m, .atom n => compare m n
  | .atom _, _ => .lt
  | .text _, .atom _ => .gt
  | .text s, .text t => compare s t
  | .text _, .pair _ _ => .lt
  | .pair a b, .pair c d => (codeCompare a c).then (codeCompare b d)
  | .pair _ _, _ => .gt

/-- Where a required artifact has to be installed. -/
inductive ArtifactSideV1 where
  | server
  | client
  | both
  deriving DecidableEq

/-- The order in which the sides are declared. -/
def ArtifactSideV1.rank : ArtifactSideV1 → Nat
  | .server => 0
  | .client => 1
  | .both => 2

/-- The name that an error text shows for a side. -/
def ArtifactSideV1.debug : ArtifactSideV1 → String
  | .server => "Server"
  | .client => "Client"
  | .both => "Both"

/-- One exact artifact that the runtime of a world needs. -/
structure ArtifactRequirementV1 where
  artifactId : String
  version : String
  artifactHash : Hash32
  side : ArtifactSideV1
  providerHint : Option String
  deriving DecidableEq

/-- `Option::cmp` on texts: no text comes first. -/
def compareHint : Option String → Option String → Ordering
  | none, none => .eq
  | none, some _ => .lt
  | some _, none => .gt
  | some s, some t => compare s t

/-- The comparison by which requirements are sorted. -/
def ArtifactRequirementV1.cmp (a b : ArtifactRequirementV1) : Ordering :=
  (compare a.artifactId b.artifactId).then <|
    (compare a.version b.version).then <|
      (codeCompare a.artifactHash.code b.artifactHash.code).then <|
        (compare a.side.rank b.side.rank).then (compareHint a.providerHint b.providerHint)

/-- `normalize_artifacts`: sorted, and adjacent copies are dropped. -/
def normalizeArtifacts (values : List ArtifactRequirementV1) : List ArtifactRequirementV1 :=
  (values.insertionSort fun a b => a.cmp b ≠ .gt).destutter (· ≠ ·)

/-- The runtime that every host and player of a world needs. -/
structure RuntimeCompatibilityManifestV1 where
  minecraftVersion : String
  loaderId : String
  loaderVersion : String
  swarmcraftProtocolVersion : Nat
  fabricAdapterVersion : String
  requiredServerMods : List ArtifactRequirementV1
  requiredClientMods : List ArtifactRequirementV1
  datapacks : List ArtifactRequirementV1
  deriving DecidableEq

/-- `RuntimeCompatibilityManifestV1::normalize`. -/
def RuntimeCompatibilityManifestV1.normalize (manifest : RuntimeCompatibilityManifestV1) :
    RuntimeCompatibilityManifestV1 :=
  { manifest with
    requiredServerMods := normalizeArtifacts manifest.requiredServerMods
    requiredClientMods := normalizeArtifacts manifest.requiredClientMods
    datapacks := normalizeArtifacts manifest.datapacks }

/-- Who can find a world. -/
inductive WorldVisibilityV1 where
  | «private»
  | unlisted
  | «public»
  deriving DecidableEq

/-- Who can join a world. -/
inductive MembershipPolicyV1 where
  | inviteOnly
  | approvalRequired
  | «open»
  deriving DecidableEq

/-- How the authority of a world may advance and how often its snapshots should be stored. -/
structure AuthorityPolicyV1 where
  allowSoloAdvancement : Bool
  preferredReplicationFactor : Nat
  deriving DecidableEq

/-- How a world is presented to players. -/
structure WorldPresentationV1 where
  name : String
  description : String
  tags : List String
  iconHash : Option Hash32
  approximateRegion : Option String
  deriving DecidableEq

/-- `WorldPresentationV1::normalize`. -/
def WorldPresentationV1.normalize (presentation : WorldPresentationV1) : WorldPresentationV1 :=
  { presentation with tags := (presentation.tags.insertionSort (· ≤ ·)).destutter (· ≠ ·) }

/-- The signed configuration of a world, linked to the configuration before it. -/
structure WorldConfigV1 where
  protocolVersion : Nat
  worldId : WorldId
  sequence : Nat
  previousConfigHash : Option Hash32
  compatibility : RuntimeCompatibilityManifestV1
  visibility : WorldVisibilityV1
  authorityPolicy : AuthorityPolicyV1
  membershipPolicy : MembershipPolicyV1
  presentation : WorldPresentationV1
  authorityPeerId : PeerId
  authorityPublicKey : PublicKey
  signature : Signature
  deriving DecidableEq

/-- `WorldConfigV1::normalize_canonical`. -/
def WorldConfigV1.normalizeCanonical (config : WorldConfigV1) : WorldConfigV1 :=
  { config with
    compatibility := config.compatibility.normalize
    presentation := config.presentation.normalize }

/-- What is encoded under the hash of a configuration: all but the signature, in canonical order. -/
def WorldConfigV1.canonicalUnsigned (config : WorldConfigV1) : WorldConfigV1 :=
  { config.normalizeCanonical with signature := .empty }

/-! ## Discovery and handshake records -/

/-- The part of the runtime requirements that is shown to strangers. -/
structure DiscoveryCompatibilityV1 where
  minecraftVersion : String
  loaderId : String
  loaderVersion : String
  fabricAdapterVersion : String
  compatibilityFingerprint : Hash32
  deriving DecidableEq

/-- The canonical head as it is announced. -/
structure DiscoveryCanonicalHeadV1 where
  snapshotNumber : Nat
  manifestHash : Hash32
  epoch : Nat
  sequence : Nat
  deriving DecidableEq

/-- The announcement of a world by its authority. -/
structure WorldAnnouncementV1 where
  protocolVersion : Nat
  worldId : WorldId
  presentation : WorldPresentationV1
  compatibility : DiscoveryCompatibilityV1
  visibility : WorldVisibilityV1
  membershipPolicy : MembershipPolicyV1
  configSequence : Nat
  configHash : Hash32
  membershipSequence : Nat
  membershipHash : Hash32
  authorityEpoch : Nat
  fencingToken : Nat
  canonicalHead : Option DiscoveryCanonicalHeadV1
  announcementSequence : Nat
  issuedUnixMs : Nat
  expiresUnixMs : Nat
  announcerPeerId : PeerId
  announcerPublicKey : PublicKey
  signature : Signature
  deriving DecidableEq

/-- What is signed of an announcement: all but the signature, with the tags in canonical order. -/
def WorldAnnouncementV1.unsigned (announcement : WorldAnnouncementV1) : WorldAnnouncementV1 :=
  { announcement with
    presentation := announcement.presentation.normalize
    signature := .empty }

/-- The membership history of a world, from its genesis to the current record. -/
structure DiscoveryMembershipProofV1 where
  protocolVersion : Nat
  worldId : WorldId
  genesis : WorldGenesisV1
  initialMembership : MembershipRecordV1
  membershipCertificates : List MembershipCertificateV1
  currentMembership : MembershipRecordV1
  pendingMembership : Option MembershipProposalV1
  deriving DecidableEq

/-- The question to the members whether the announced state is current. -/
structure DiscoveryFreshnessChallengeV1 where
  protocolVersion : Nat
  verifierPeerId : PeerId
  nonce : Nat
  worldId : WorldId
  announcementHash : Hash32
  membershipSequence : Nat
  membershipHash : Hash32
  pendingMembershipProposalHash : Option Hash32
  authorityPeerId : PeerId
  authorityEpoch : Nat
  fencingToken : Nat
  configSequence : Nat
  configHash : Hash32
  canonicalHead : Option DiscoveryCanonicalHeadV1
  issuedUnixMs : Nat
  expiresUnixMs : Nat
  deriving DecidableEq

/-- The signed answer of one member. -/
structure DiscoveryFreshnessVoteV1 where
  challenge : DiscoveryFreshnessChallengeV1
  voterPeerId : PeerId
  voterPublicKey : PublicKey
  signature : Signature
  deriving DecidableEq

/-- The vote without its signature. -/
def DiscoveryFreshnessVoteV1.unsigned (vote : DiscoveryFreshnessVoteV1) : DiscoveryFreshnessVoteV1 :=
  { vote with signature := .empty }

/-! ## Hello records -/

/-- The identity of a libp2p endpoint. -/
structure TransportPeerId where
  /-- The identifier bytes as a number. -/
  bytes : Nat
  deriving DecidableEq

/-- The reusable introduction of a peer. -/
structure PeerHelloV1 where
  peerId : PeerId
  publicKey : PublicKey
  protocolVersions : List Nat
  capabilities : List String
  nonce : Nat
  signature : Signature
  deriving DecidableEq

/-- The introduction without its signature. -/
def PeerHelloV1.unsigned (hello : PeerHelloV1) : PeerHelloV1 := { hello with signature := .empty }

/-- The introduction bound to a challenge and to both ends of a connection. -/
structure PeerHelloProofV1 where
  hello : PeerHelloV1
  challenge : Nat
  claimantTransportPeer : TransportPeerId
  receiverTransportPeer : TransportPeerId
  signature : Signature
  deriving DecidableEq

/-- The proof without its signature; the signature of the hello inside it is signed too. -/
def PeerHelloProofV1.unsigned (proof : PeerHelloProofV1) : PeerHelloProofV1 :=
  { proof with signature := .empty }

end SwarmCraft
