import SwarmCraft.Consensus.Authority

/-!
# Discovery proofs

A stranger checks an announcement against a membership proof. `verifyDiscoveryMembershipProof`
checks signatures and the anchor in the genesis; `validateDiscoveryMembershipProofShape` follows
the voter set along the certificates; `validateDiscoveryFreshnessQuorum` counts the members that
confirmed the announced state.
-/

namespace SwarmCraft

open Checked

variable (C : Crypto)

/-- The longest life of an announcement. -/
def worldAnnouncementMaxLifetimeMs : Nat := 10 * 60 * 1000

/-- The tolerated clock difference. -/
def discoveryClockSkewMs : Nat := 60 * 1000

/-- The longest life of a freshness challenge. -/
def discoveryFreshnessMaxLifetimeMs : Nat := 15 * 1000

/-- The longest certificate chain of a proof. -/
def maxDiscoveryMembershipCertificates : Nat := 256

/-- The largest member list of a proof. -/
def maxDiscoveryMembers : Nat := 1024

/-- The longest vote list of a certificate. -/
def maxDiscoveryFreshnessVotes : Nat := 1024

/-- Why a discovery record is refused. -/
inductive DiscoveryRecordError where
  | protocolMismatch
  | privateWorld
  | invalidLifetime
  | expired
  | futureIssued
  | invalidSignature
  | invalidMembershipProof
  | freshnessStateMismatch
  | freshnessReplay
  deriving DecidableEq

/-- `WorldAnnouncementV1::signing_bytes`. -/
def WorldAnnouncementV1.signingBytes (announcement : WorldAnnouncementV1) : Signable :=
  .worldAnnouncement announcement.unsigned

/-- `WorldAnnouncementV1::announcement_hash`, over the signed announcement. -/
def WorldAnnouncementV1.announcementHash (announcement : WorldAnnouncementV1) : Hash32 :=
  C.hash (.worldAnnouncement announcement)

/-- `validate_lifetime`. -/
def validateLifetime (issued expires maxLifetime now : Nat) : Except DiscoveryRecordError Unit := do
  ensure (issued < expires ∧ expires - issued ≤ maxLifetime) .invalidLifetime
  ensure (issued ≤ min (now + discoveryClockSkewMs) u64Max) .futureIssued
  ensure (now ≤ expires) .expired

/-- `verify_world_announcement`. -/
def verifyWorldAnnouncement (announcement : WorldAnnouncementV1) (now : Nat) :
    Except DiscoveryRecordError Unit := do
  ensure (announcement.protocolVersion = protocolVersionV1) .protocolMismatch
  ensure (announcement.visibility ≠ .private) .privateWorld
  validateLifetime announcement.issuedUnixMs announcement.expiresUnixMs
    worldAnnouncementMaxLifetimeMs now
  (verifySignature C announcement.announcerPeerId announcement.announcerPublicKey
    (.worldAnnouncement announcement.unsigned) announcement.signature).mapError
      fun _ => .invalidSignature

/-! ## The membership proof -/

/-- A signature that the proof depends on. -/
def requireProofSignature (x : Except CoreError Unit) : Except DiscoveryRecordError Unit :=
  x.mapError fun _ => .invalidMembershipProof

/-- The vote loop of one certificate: voters are new and strictly increase. -/
def verifyDiscoveryVotes (proposal : MembershipProposalV1) :
    List PeerId → Option PeerId → List MembershipVoteV1 → Except DiscoveryRecordError Unit
  | _, _, [] => pure ()
  | seen, lastVoter, vote :: rest => do
    ensure (vote.matchesProposal C proposal = true ∧ vote.voterPeerId ∉ seen ∧
      ∀ peer ∈ lastVoter, peer < vote.voterPeerId) .invalidMembershipProof
    requireProofSignature (verifyMembershipVoteSignature C vote)
    verifyDiscoveryVotes proposal (vote.voterPeerId :: seen) (some vote.voterPeerId) rest

/-- One certificate of the chain, after the sequence of the certificate before it. -/
def verifyDiscoveryCertificate (world : WorldId) (lastSequence : Option Nat)
    (certificate : MembershipCertificateV1) : Except DiscoveryRecordError Unit := do
  let proposal := certificate.proposal
  ensure (proposal.validateShape C = true ∧ proposal.previous.worldId = world ∧
    proposal.proposed.worldId = world ∧ proposal.previous.validateSemantics = .ok () ∧
    proposal.proposed.validateSemantics = .ok () ∧
    ∀ sequence ∈ lastSequence, sequence < proposal.proposed.sequence)
    .invalidMembershipProof
  requireProofSignature (verifyMembershipSignature C proposal.previous)
  requireProofSignature (verifyMembershipSignature C proposal.proposed)
  verifyDiscoveryVotes C proposal [] none certificate.votes

/-- The certificate loop; it returns the sequence of the last certificate. -/
def verifyDiscoveryCertificates (world : WorldId) :
    Option Nat → List MembershipCertificateV1 → Except DiscoveryRecordError (Option Nat)
  | lastSequence, [] => pure lastSequence
  | lastSequence, certificate :: rest => do
    verifyDiscoveryCertificate C world lastSequence certificate
    verifyDiscoveryCertificates world (some certificate.proposal.proposed.sequence) rest

/-- The two records of a proposal are not too large. -/
def MembershipProposalV1.WithinDiscoveryLimits (proposal : MembershipProposalV1) : Prop :=
  proposal.previous.members.length ≤ maxDiscoveryMembers ∧
    proposal.proposed.members.length ≤ maxDiscoveryMembers

instance (proposal : MembershipProposalV1) : Decidable proposal.WithinDiscoveryLimits :=
  inferInstanceAs (Decidable (_ ∧ _))

/-- A certificate is not too large. -/
def MembershipCertificateV1.WithinDiscoveryLimits (certificate : MembershipCertificateV1) : Prop :=
  certificate.proposal.WithinDiscoveryLimits ∧
    certificate.votes.length ≤ maxDiscoveryFreshnessVotes

instance (certificate : MembershipCertificateV1) : Decidable certificate.WithinDiscoveryLimits :=
  inferInstanceAs (Decidable (_ ∧ _))

/-- The genesis of a proof is the one of its world, and nothing in it is too large. -/
def verifyDiscoveryLimits (proof : DiscoveryMembershipProofV1) : Except DiscoveryRecordError Unit :=
  ensure (proof.membershipCertificates.length ≤ maxDiscoveryMembershipCertificates ∧
    proof.genesis.worldId C = proof.worldId ∧ proof.genesis.validateSemantics = .ok () ∧
    proof.initialMembership.members.length ≤ maxDiscoveryMembers ∧
    proof.currentMembership.members.length ≤ maxDiscoveryMembers ∧
    (∀ proposal ∈ proof.pendingMembership, proposal.WithinDiscoveryLimits) ∧
    ∀ certificate ∈ proof.membershipCertificates, certificate.WithinDiscoveryLimits)
    .invalidMembershipProof

/-- The initial record is the one that the creator signed over the genesis members. -/
def verifyDiscoveryAnchor (proof : DiscoveryMembershipProofV1) :
    Except DiscoveryRecordError Unit := do
  let initial := proof.initialMembership
  let creator := proof.genesis.creatorPublicKey
  ensure (initial.validateSemantics = .ok () ∧ proof.currentMembership.validateSemantics = .ok () ∧
    initial.protocolVersion = protocolVersionV1 ∧ initial.worldId = proof.worldId ∧
    initial.sequence = 0 ∧ initial.previousMembershipHash = none ∧
    initial.authorityPublicKey = creator ∧
    initial.authorityPeerId = C.peerIdFromPublicKey creator)
    .invalidMembershipProof
  requireProofSignature (verifyMembershipSignature C initial)
  ensure (proof.genesis.initialMembership.Nodup ∧
    (initial.members.map WorldMemberV1.peerId).Nodup ∧
    proof.genesis.initialMembership.toFinset = (initial.members.map WorldMemberV1.peerId).toFinset ∧
    ∀ member ∈ initial.members, C.peerIdFromPublicKey member.publicKey = member.peerId)
    .invalidMembershipProof

/-- The current record is the announced one, and its authority is an active member. -/
def verifyDiscoveryCurrent (announcement : WorldAnnouncementV1) (proof : DiscoveryMembershipProofV1)
    (lastSequence : Option Nat) : Except DiscoveryRecordError Unit := do
  let current := proof.currentMembership
  requireProofSignature (verifyMembershipSignature C current)
  ensure (current.worldId = proof.worldId ∧ (∀ sequence ∈ lastSequence, sequence ≤ current.sequence) ∧
    current.sequence = announcement.membershipSequence ∧
    current.recordHash C = announcement.membershipHash ∧
    current.authorityPeerId = announcement.announcerPeerId ∧
    current.authorityPublicKey = announcement.announcerPublicKey ∧
    current.epoch = announcement.authorityEpoch ∧
    ∃ member ∈ current.members, member.peerId = current.authorityPeerId ∧
      member.publicKey = current.authorityPublicKey ∧ member.banned = false)
    .invalidMembershipProof

/-- `verify_discovery_membership_proof`. -/
def verifyDiscoveryMembershipProof (announcement : WorldAnnouncementV1)
    (proof : DiscoveryMembershipProofV1) : Except DiscoveryRecordError Unit := do
  ensure (proof.protocolVersion = protocolVersionV1 ∧ proof.worldId = announcement.worldId)
    .protocolMismatch
  verifyDiscoveryLimits C proof
  verifyDiscoveryAnchor C proof
  let lastSequence ← verifyDiscoveryCertificates C proof.worldId none proof.membershipCertificates
  verifyDiscoveryCurrent C announcement proof lastSequence

/-! ## The voter sets along the proof -/

/-- The members of a list strictly increase, as `members_are_canonical` tests on its windows. -/
def MembershipProposalV1.membersAreCanonical (proposal : MembershipProposalV1) : Bool :=
  strictPeerOrder proposal.previous.members && strictPeerOrder proposal.proposed.members

/-- The loop over the certificates, with the voters and the sequence reached so far. -/
def followVoters (world : WorldId) :
    List (PeerId × PublicKey) → Nat → List MembershipCertificateV1 →
      Except MembershipConsensusError (List (PeerId × PublicKey) × Nat)
  | voters, lastSequence, [] => pure (voters, lastSequence)
  | voters, lastSequence, certificate :: rest => do
    validateMembershipCertificateShape C certificate
    let proposal := certificate.proposal
    ensure (proposal.previous.worldId = world ∧ proposal.proposed.worldId = world ∧
      lastSequence < proposal.proposed.sequence) .malformedHistory
    let previous ← activeVoters proposal.previous.members
    ensure (previous.toFinset = voters.toFinset) .malformedHistory
    let proposed ← activeVoters proposal.proposed.members
    followVoters world proposed proposal.proposed.sequence rest

/-- `validate_discovery_membership_proof_shape`. -/
def validateDiscoveryMembershipProofShape (proof : DiscoveryMembershipProofV1) :
    Except MembershipConsensusError Unit := do
  ensure (strictPeerOrder proof.initialMembership.members = true ∧
    strictPeerOrder proof.currentMembership.members = true ∧
    (∀ certificate ∈ proof.membershipCertificates,
      certificate.proposal.membersAreCanonical = true) ∧
    ∀ proposal ∈ proof.pendingMembership, proposal.membersAreCanonical = true)
    .malformedHistory
  ensure (proof.initialMembership.worldId = proof.worldId ∧
    proof.currentMembership.worldId = proof.worldId) .malformedHistory
  let initial ← activeVoters proof.initialMembership.members
  let reached ← followVoters C proof.worldId initial proof.initialMembership.sequence
    proof.membershipCertificates
  ensure (reached.2 ≤ proof.currentMembership.sequence) .malformedHistory
  let current ← activeVoters proof.currentMembership.members
  ensure (current.toFinset = reached.1.toFinset) .malformedHistory
  onSome proof.pendingMembership fun proposal => do
    validateMembershipProposalShape C proposal
    ensure (proposal.previous = proof.currentMembership) .malformedHistory

/-! ## Freshness -/

/-- The signers of a vote list, which strictly increase. -/
def freshnessSigners : Option PeerId → List DiscoveryFreshnessVoteV1 →
    Except MembershipConsensusError (List (PeerId × PublicKey))
  | _, [] => pure []
  | last, vote :: rest => do
    ensure (∀ peer ∈ last, peer < vote.voterPeerId) .nonCanonicalSignerSet
    let signers ← freshnessSigners (some vote.voterPeerId) rest
    pure ((vote.voterPeerId, vote.voterPublicKey) :: signers)

/-- A signer is known to the pending configurations under its key. -/
def checkJointSigner (old new : List (PeerId × PublicKey)) (signer : PeerId × PublicKey) :
    Except MembershipConsensusError Unit := do
  ensure ((old.lookup signer.1).isSome ∨ (new.lookup signer.1).isSome)
    .unknownVoter
  ensure ((∀ key ∈ old.lookup signer.1, key = signer.2) ∧ ∀ key ∈ new.lookup signer.1, key = signer.2)
    .voterKeyMismatch

/-- The number of signers that a configuration lists. -/
def countSigners (voters signers : List (PeerId × PublicKey)) : Nat :=
  signers.countP fun signer => (voters.lookup signer.1).isSome

/-- The signers are a majority of both configurations of a pending change. -/
def validateJointSigners (proposal : MembershipProposalV1) (signers : List (PeerId × PublicKey)) :
    Except MembershipConsensusError Unit := do
  let old ← activeVoters proposal.previous.members
  let new ← activeVoters proposal.proposed.members
  signers.forM (checkJointSigner old new)
  let oldVotes := countSigners old signers
  ensure (quorumSize old.length ≤ oldVotes)
    (.oldQuorumUnavailable oldVotes (quorumSize old.length))
  let newVotes := countSigners new signers
  ensure (quorumSize new.length ≤ newVotes)
    (.newQuorumUnavailable newVotes (quorumSize new.length))

/-- The signers are members, and a majority of them. -/
def validateCurrentSigners (record : MembershipRecordV1) (signers : List (PeerId × PublicKey)) :
    Except MembershipConsensusError Unit := do
  let current ← activeVoters record.members
  signers.forM fun signer => do
    let expected ← required (current.lookup signer.1) .unknownVoter
    ensure (expected = signer.2) .voterKeyMismatch
  ensure (quorumSize current.length ≤ signers.length)
    (.currentQuorumUnavailable signers.length (quorumSize current.length))

/-- `validate_discovery_freshness_quorum`. -/
def validateDiscoveryFreshnessQuorum (proof : DiscoveryMembershipProofV1)
    (votes : List DiscoveryFreshnessVoteV1) : Except MembershipConsensusError Unit := do
  validateDiscoveryMembershipProofShape C proof
  ensure (votes.length ≤ 1024) .nonCanonicalSignerSet
  let signers ← freshnessSigners none votes
  match proof.pendingMembership with
  | some proposal => validateJointSigners proposal signers
  | none => validateCurrentSigners proof.currentMembership signers

/-- `verify_discovery_freshness_vote`. -/
def verifyDiscoveryFreshnessVote (vote : DiscoveryFreshnessVoteV1)
    (expected : DiscoveryFreshnessChallengeV1) : Except DiscoveryRecordError Unit := do
  ensure (vote.challenge = expected ∧ C.peerIdFromPublicKey vote.voterPublicKey = vote.voterPeerId)
    .freshnessStateMismatch
  (verifySignature C vote.voterPeerId vote.voterPublicKey (.discoveryFreshnessVote vote.unsigned)
    vote.signature).mapError fun _ => .invalidSignature

/-- `verify_discovery_freshness_challenge`. -/
def verifyDiscoveryFreshnessChallenge (announcement : WorldAnnouncementV1)
    (proof : DiscoveryMembershipProofV1) (challenge : DiscoveryFreshnessChallengeV1)
    (verifier : PeerId) (nonce now : Nat) : Except DiscoveryRecordError Unit := do
  verifyDiscoveryMembershipProof C announcement proof
  ensure (challenge.protocolVersion = protocolVersionV1 ∧ challenge.verifierPeerId = verifier ∧
    challenge.nonce = nonce ∧ challenge.worldId = announcement.worldId ∧
    challenge.announcementHash = announcement.announcementHash C ∧
    challenge.membershipSequence = announcement.membershipSequence ∧
    challenge.membershipHash = announcement.membershipHash ∧
    challenge.pendingMembershipProposalHash =
      proof.pendingMembership.map (MembershipProposalV1.proposalHash C) ∧
    challenge.authorityPeerId = announcement.announcerPeerId ∧
    challenge.authorityEpoch = announcement.authorityEpoch ∧
    challenge.fencingToken = announcement.fencingToken ∧
    challenge.configSequence = announcement.configSequence ∧
    challenge.configHash = announcement.configHash ∧
    challenge.canonicalHead = announcement.canonicalHead)
    .freshnessStateMismatch
  validateLifetime challenge.issuedUnixMs challenge.expiresUnixMs discoveryFreshnessMaxLifetimeMs now

end SwarmCraft
