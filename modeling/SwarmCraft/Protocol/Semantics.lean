import SwarmCraft.Protocol.Crypto

/-!
# Semantic checks, signing and verification

`validate_semantics` of every record family, the shape predicates of votes and
proposals, and the signing and verifying helpers of the identity layer. Signing
overwrites the signer fields of a record with the local identity; verifying checks
the semantics first, then that the key belongs to the peer, then the signature.
-/

namespace SwarmCraft

open Checked

section Semantics

variable (C : Crypto)

/-- `WorldGenesisV1::validate_semantics`. -/
def WorldGenesisV1.validateSemantics (genesis : WorldGenesisV1) : Except ProtocolError Unit := do
  requireProtocolVersion "world genesis" genesis.protocolVersion
  requireStrictPeerIdOrder "world genesis" genesis.initialMembership

/-- `SnapshotManifestV1::validate_semantics`. -/
def SnapshotManifestV1.validateSemantics (manifest : SnapshotManifestV1) :
    Except ProtocolError Unit := do
  requireProtocolVersion "snapshot manifest" manifest.protocolVersion
  requireSnapshotEntryOrder manifest.entries
  ensure (snapshotStateRoot C manifest.entries = manifest.stateRoot)
    (semanticError "snapshot manifest" "state_root does not match canonical entries")

/-- `EpochRecordV1::validate_semantics`. -/
def EpochRecordV1.validateSemantics (record : EpochRecordV1) : Except ProtocolError Unit :=
  requireProtocolVersion "epoch record" record.protocolVersion

/-- `WorldDescriptorV1::validate_semantics`. -/
def WorldDescriptorV1.validateSemantics (descriptor : WorldDescriptorV1) :
    Except ProtocolError Unit := do
  requireProtocolVersion "world descriptor" descriptor.protocolVersion
  requireStrictPeerOrder "world descriptor" descriptor.members

/-- `MembershipRecordV1::validate_semantics`. -/
def MembershipRecordV1.validateSemantics (record : MembershipRecordV1) :
    Except ProtocolError Unit := do
  requireProtocolVersion "membership record" record.protocolVersion
  requireStrictPeerOrder "membership record" record.members

/-- `InviteV1::validate_semantics`. -/
def InviteV1.validateSemantics (invite : InviteV1) : Except ProtocolError Unit := do
  requireProtocolVersion "invite" invite.protocolVersion
  invite.genesis.validateSemantics
  ensure (invite.genesis.worldId C = invite.worldId)
    (semanticError "invite" "world_id does not match genesis")

/-- `AuthorityTransferV1::validate_semantics`. -/
def AuthorityTransferV1.validateSemantics (transfer : AuthorityTransferV1) :
    Except ProtocolError Unit :=
  requireProtocolVersion "authority transfer" transfer.protocolVersion

/-- `AuthorityLeaseGrantV1::validate_semantics`. -/
def AuthorityLeaseGrantV1.validateSemantics (lease : AuthorityLeaseGrantV1) :
    Except ProtocolError Unit :=
  requireProtocolVersion "authority lease grant" lease.protocolVersion

/-- `JoinRequestV1::validate_shape`. -/
def JoinRequestV1.validateShape (request : JoinRequestV1) : Bool :=
  decide (request.protocolVersion = protocolVersionV1)
    && decide (request.invite.protocolVersion = protocolVersionV1)
    && decide (request.invite.worldId = request.worldId)
    && decide (request.invite.genesis.worldId C = request.worldId)
    && decide (C.peerIdFromPublicKey request.joiningMember.publicKey = request.joiningMember.peerId)
    && !request.joiningMember.banned

/-- `JoinRequestV1::validate_semantics`. -/
def JoinRequestV1.validateSemantics (request : JoinRequestV1) : Except ProtocolError Unit := do
  ensure (request.validateShape C = true)
    (semanticError "join request" "record shape or protocol version is invalid")
  request.invite.validateSemantics C

/-- `LeaveRequestV1::validate_shape`. -/
def LeaveRequestV1.validateShape (request : LeaveRequestV1) : Bool :=
  decide (request.protocolVersion = protocolVersionV1)
    && decide (C.peerIdFromPublicKey request.leavingPublicKey = request.leavingPeerId)

/-- `LeaveRequestV1::validate_semantics`. -/
def LeaveRequestV1.validateSemantics (request : LeaveRequestV1) : Except ProtocolError Unit :=
  ensure (request.validateShape C = true)
    (semanticError "leave request" "record shape or protocol version is invalid")

/-- `SleepRecordV1::validate_semantics`. -/
def SleepRecordV1.validateSemantics (record : SleepRecordV1) : Except ProtocolError Unit :=
  requireProtocolVersion "sleep record" record.protocolVersion

/-- `require_unique_artifact_keys`, past the requirements that were seen. -/
def requireUniqueArtifactKeys (record : String) :
    List ArtifactRequirementV1 → List ArtifactRequirementV1 → Except ProtocolError Unit
  | _, [] => pure ()
  | seen, value :: rest => do
    ensure (∀ other ∈ seen, (other.artifactId, other.version, other.artifactHash, other.side) ≠
        (value.artifactId, value.version, value.artifactHash, value.side))
      (semanticError record ("duplicate runtime artifact requirement " ++ value.artifactId ++ " " ++
        value.version ++ " " ++ value.side.debug ++
        "; provider_hint cannot disambiguate canonical identity"))
    requireUniqueArtifactKeys record (value :: seen) rest

/-- `RuntimeCompatibilityManifestV1::validate_semantics`. -/
def RuntimeCompatibilityManifestV1.validateSemantics (manifest : RuntimeCompatibilityManifestV1) :
    Except ProtocolError Unit := do
  requireProtocolVersion "runtime compatibility manifest" manifest.swarmcraftProtocolVersion
  requireUniqueArtifactKeys "server mod requirements" [] manifest.requiredServerMods
  requireUniqueArtifactKeys "client mod requirements" [] manifest.requiredClientMods
  requireUniqueArtifactKeys "datapack requirements" [] manifest.datapacks

/-- `WorldConfigV1::validate_semantics`. -/
def WorldConfigV1.validateSemantics (config : WorldConfigV1) : Except ProtocolError Unit := do
  requireProtocolVersion "world config" config.protocolVersion
  config.compatibility.validateSemantics

/-- `WorldConfigV1::config_hash`. -/
def WorldConfigV1.configHash (config : WorldConfigV1) : Hash32 :=
  C.hash (.worldConfig config.canonicalUnsigned)

/-- `RecoveryBallotV1::generation_is_well_formed`. -/
def RecoveryBallotV1.generationIsWellFormed (ballot : RecoveryBallotV1) : Bool :=
  decide (ballot.protocolVersion = protocolVersionV1)
    && decide (checkedSucc ballot.baseEpoch = some ballot.targetEpoch)
    && decide (checkedSucc ballot.baseFencingToken = some ballot.targetFencingToken)
    && decide (0 < ballot.round)

/-- `RecoveryBallotV1::validate_semantics`. -/
def RecoveryBallotV1.validateSemantics (ballot : RecoveryBallotV1) : Except ProtocolError Unit := do
  requireProtocolVersion "recovery ballot" ballot.protocolVersion
  ensure (ballot.generationIsWellFormed = true)
    (semanticError "recovery ballot" "authority generation is not a strict next generation")

/-- `RecoveryVoteV1::validate_semantics`. -/
def RecoveryVoteV1.validateSemantics (vote : RecoveryVoteV1) : Except ProtocolError Unit :=
  requireProtocolVersion "recovery vote" vote.protocolVersion

/-- `RecoveryVoteV1::matches_ballot`. -/
def RecoveryVoteV1.matchesBallot (vote : RecoveryVoteV1) (ballot : RecoveryBallotV1) : Bool :=
  decide (vote.protocolVersion = ballot.protocolVersion)
    && decide (vote.worldId = ballot.worldId)
    && decide (vote.ballotHash = ballot.ballotHash C)
    && decide (vote.baseEpoch = ballot.baseEpoch)
    && decide (vote.targetEpoch = ballot.targetEpoch)
    && decide (vote.round = ballot.round)
    && decide (vote.candidatePeerId = ballot.candidatePeerId)

/-- `MembershipProposalV1::validate_shape`. -/
def MembershipProposalV1.validateShape (proposal : MembershipProposalV1) : Bool :=
  decide (proposal.previous.protocolVersion = protocolVersionV1)
    && decide (proposal.proposed.protocolVersion = protocolVersionV1)
    && decide (proposal.previous.worldId = proposal.proposed.worldId)
    && decide (proposal.previous.epoch = proposal.proposed.epoch)
    && decide (checkedSucc proposal.previous.sequence = some proposal.proposed.sequence)
    && decide (proposal.proposed.previousMembershipHash = some (proposal.previous.recordHash C))
    && decide (proposal.previous.authorityPeerId = proposal.proposed.authorityPeerId)
    && decide (proposal.previous.authorityPublicKey = proposal.proposed.authorityPublicKey)
    && !proposal.proposed.members.isEmpty

/-- `MembershipVoteV1::matches_proposal`. -/
def MembershipVoteV1.matchesProposal (vote : MembershipVoteV1) (proposal : MembershipProposalV1) :
    Bool :=
  decide (vote.protocolVersion = protocolVersionV1)
    && decide (vote.worldId = proposal.proposed.worldId)
    && decide (vote.previousMembershipHash = proposal.previous.recordHash C)
    && decide (vote.proposedMembershipHash = proposal.proposed.recordHash C)
    && decide (vote.proposedSequence = proposal.proposed.sequence)

/-- `WorldDescriptorV1::member`. -/
def WorldDescriptorV1.member (descriptor : WorldDescriptorV1) (peer : PeerId) :
    Option WorldMemberV1 :=
  descriptor.members.find? fun member => decide (member.peerId = peer)

/-- Insert a member before the first one with a larger or equal id: one pass of the stable sort. -/
def insertMember (member : WorldMemberV1) : List WorldMemberV1 → List WorldMemberV1
  | [] => [member]
  | other :: rest =>
    if other.peerId < member.peerId then other :: insertMember member rest
    else member :: other :: rest

/-- `sort_by_key(|member| member.peer_id)`. -/
def sortMembers : List WorldMemberV1 → List WorldMemberV1
  | [] => []
  | member :: rest => insertMember member (sortMembers rest)

/-- `dedup_by_key(|member| member.peer_id)`: the first of each group of neighbours stays. -/
def dedupMembers : List WorldMemberV1 → List WorldMemberV1
  | [] => []
  | member :: rest =>
    member :: (dedupMembers rest).dropWhile fun other => decide (other.peerId = member.peerId)

/-- `WorldDescriptorV1::normalize`. -/
def WorldDescriptorV1.normalize (descriptor : WorldDescriptorV1) : WorldDescriptorV1 :=
  { descriptor with members := dedupMembers (sortMembers descriptor.members) }

end Semantics

/-! ## Signing and verifying -/

/-- The local Ed25519 identity of a data directory. -/
structure PeerIdentity where
  /-- Its public key; the secret key stays inside `Crypto.sign`. -/
  publicKey : PublicKey
  deriving DecidableEq

section Signing

variable (C : Crypto)

/-- `PeerIdentity::peer_id`. -/
def PeerIdentity.peerId (identity : PeerIdentity) : PeerId := C.peerIdFromPublicKey identity.publicKey

/-- `verify_signature`. -/
def verifySignature (expectedPeer : PeerId) (publicKey : PublicKey) (content : Signable)
    (signature : Signature) : Except CoreError Unit := do
  ensure (C.peerIdFromPublicKey publicKey = expectedPeer) .peerIdentityMismatch
  ensure (C.verify publicKey content signature = true) .signatureInvalid

/-- The signed content of an epoch record. -/
def EpochRecordV1.signingBytes (record : EpochRecordV1) : Signable :=
  .epoch { record with signature := .empty }

/-- `verify_snapshot_signature`. -/
def verifySnapshotSignature (manifest : SnapshotManifestV1) : Except CoreError Unit := do
  (manifest.validateSemantics C).mapError CoreError.protocol
  verifySignature C manifest.authorityPeerId manifest.authorityPublicKey
    (.snapshot { manifest with signature := .empty }) manifest.signature

/-- `verify_membership_signature`. -/
def verifyMembershipSignature (record : MembershipRecordV1) : Except CoreError Unit := do
  record.validateSemantics.mapError CoreError.protocol
  verifySignature C record.authorityPeerId record.authorityPublicKey
    (.membership { record with signature := .empty }) record.signature

/-- `verify_invite_signature`. -/
def verifyInviteSignature (invite : InviteV1) : Except CoreError Unit := do
  (invite.validateSemantics C).mapError CoreError.protocol
  verifySignature C invite.inviterPeerId invite.inviterPublicKey
    (.invite { invite with signature := .empty }) invite.signature

/-- `verify_transfer_signature`. -/
def verifyTransferSignature (transfer : AuthorityTransferV1) : Except CoreError Unit := do
  transfer.validateSemantics.mapError CoreError.protocol
  verifySignature C transfer.signerPeerId transfer.signerPublicKey
    (.transfer { transfer with signature := .empty }) transfer.signature

/-- `verify_lease_signature`. -/
def verifyLeaseSignature (lease : AuthorityLeaseGrantV1) : Except CoreError Unit := do
  lease.validateSemantics.mapError CoreError.protocol
  verifySignature C lease.authorityPeerId lease.authorityPublicKey
    (.lease { lease with signature := .empty }) lease.signature

/-- `verify_join_request_signature`. -/
def verifyJoinRequestSignature (request : JoinRequestV1) : Except CoreError Unit := do
  (request.validateSemantics C).mapError CoreError.protocol
  verifySignature C request.joiningMember.peerId request.joiningMember.publicKey
    (.join { request with signature := .empty }) request.signature

/-- `verify_leave_request_signature`. -/
def verifyLeaveRequestSignature (request : LeaveRequestV1) : Except CoreError Unit := do
  (request.validateSemantics C).mapError CoreError.protocol
  verifySignature C request.leavingPeerId request.leavingPublicKey
    (.leave { request with signature := .empty }) request.signature

/-- `verify_sleep_record_signature`. -/
def verifySleepRecordSignature (record : SleepRecordV1) : Except CoreError Unit := do
  record.validateSemantics.mapError CoreError.protocol
  verifySignature C record.authorityPeerId record.authorityPublicKey
    (.sleep { record with signature := .empty }) record.signature

/-- `verify_recovery_ballot_signature`. -/
def verifyRecoveryBallotSignature (ballot : RecoveryBallotV1) : Except CoreError Unit := do
  ballot.validateSemantics.mapError CoreError.protocol
  verifySignature C ballot.candidatePeerId ballot.candidatePublicKey
    (.recoveryBallot ballot.unsigned) ballot.signature

/-- The vote without its signature. -/
def RecoveryVoteV1.unsigned (vote : RecoveryVoteV1) : RecoveryVoteV1 :=
  { vote with signature := .empty }

/-- `verify_recovery_vote_signature`. -/
def verifyRecoveryVoteSignature (vote : RecoveryVoteV1) : Except CoreError Unit := do
  vote.validateSemantics.mapError CoreError.protocol
  verifySignature C vote.voterPeerId vote.voterPublicKey (.recoveryVote vote.unsigned) vote.signature

/-- `SoloBranchV1::validate_semantics`. -/
def SoloBranchV1.validateSemantics (branch : SoloBranchV1) : Except ProtocolError Unit :=
  requireProtocolVersion "solo branch" branch.protocolVersion

/-- `verify_solo_branch_signature`. -/
def verifySoloBranchSignature (branch : SoloBranchV1) : Except CoreError Unit := do
  branch.validateSemantics.mapError CoreError.protocol
  verifySignature C branch.authorityPeerId branch.authorityPublicKey (.soloBranch branch.unsigned)
    branch.signature

/-- The vote without its signature. -/
def MembershipVoteV1.unsigned (vote : MembershipVoteV1) : MembershipVoteV1 :=
  { vote with signature := .empty }

/-- `verify_membership_vote_signature`; it does not run the semantic check. -/
def verifyMembershipVoteSignature (vote : MembershipVoteV1) : Except CoreError Unit :=
  verifySignature C vote.voterPeerId vote.voterPublicKey (.membershipVote vote.unsigned)
    vote.signature

/-- `verify_world_config_signature`. -/
def verifyWorldConfigSignature (config : WorldConfigV1) : Except CoreError Unit := do
  config.validateSemantics.mapError CoreError.protocol
  verifySignature C config.authorityPeerId config.authorityPublicKey
    (.worldConfig config.canonicalUnsigned) config.signature

variable (identity : PeerIdentity)

/-- `sign_recovery_ballot`. -/
def signRecoveryBallot (ballot : RecoveryBallotV1) : Except CoreError RecoveryBallotV1 := do
  let ballot := { ballot with
    candidatePeerId := identity.peerId C
    candidatePublicKey := identity.publicKey }
  ballot.validateSemantics.mapError CoreError.protocol
  pure { ballot with signature := C.sign identity.publicKey (.recoveryBallot ballot.unsigned) }

/-- `sign_recovery_vote`. -/
def signRecoveryVote (vote : RecoveryVoteV1) : Except CoreError RecoveryVoteV1 := do
  let vote := { vote with
    voterPeerId := identity.peerId C
    voterPublicKey := identity.publicKey }
  vote.validateSemantics.mapError CoreError.protocol
  pure { vote with signature := C.sign identity.publicKey (.recoveryVote vote.unsigned) }

/-- `sign_solo_branch`. -/
def signSoloBranch (branch : SoloBranchV1) : Except CoreError SoloBranchV1 := do
  let branch := { branch with
    authorityPeerId := identity.peerId C
    authorityPublicKey := identity.publicKey }
  branch.validateSemantics.mapError CoreError.protocol
  pure { branch with signature := C.sign identity.publicKey (.soloBranch branch.unsigned) }

/-- `PeerIdentity::sign_membership`. -/
def signMembership (record : MembershipRecordV1) : Except CoreError MembershipRecordV1 := do
  let record := { record with
    authorityPeerId := identity.peerId C
    authorityPublicKey := identity.publicKey }
  record.validateSemantics.mapError CoreError.protocol
  pure { record with
    signature := C.sign identity.publicKey (.membership { record with signature := .empty }) }

/-- `PeerIdentity::sign_snapshot`. -/
def signSnapshot (manifest : SnapshotManifestV1) : Except CoreError SnapshotManifestV1 := do
  let manifest := { manifest with
    authorityPeerId := identity.peerId C
    authorityPublicKey := identity.publicKey }
  (manifest.validateSemantics C).mapError CoreError.protocol
  pure { manifest with
    signature := C.sign identity.publicKey (.snapshot { manifest with signature := .empty }) }

/-- `PeerIdentity::sign_transfer`. -/
def signTransfer (transfer : AuthorityTransferV1) : Except CoreError AuthorityTransferV1 := do
  let transfer := { transfer with
    signerPeerId := identity.peerId C
    signerPublicKey := identity.publicKey }
  transfer.validateSemantics.mapError CoreError.protocol
  pure { transfer with
    signature := C.sign identity.publicKey (.transfer { transfer with signature := .empty }) }

/-- `PeerIdentity::sign_lease`. -/
def signLease (lease : AuthorityLeaseGrantV1) : Except CoreError AuthorityLeaseGrantV1 := do
  let lease := { lease with
    authorityPeerId := identity.peerId C
    authorityPublicKey := identity.publicKey }
  lease.validateSemantics.mapError CoreError.protocol
  pure { lease with
    signature := C.sign identity.publicKey (.lease { lease with signature := .empty }) }

/-- `PeerIdentity::sign_join_request`. -/
def signJoinRequest (request : JoinRequestV1) : Except CoreError JoinRequestV1 := do
  let request := { request with
    joiningMember := { request.joiningMember with
      peerId := identity.peerId C
      publicKey := identity.publicKey } }
  (request.validateSemantics C).mapError CoreError.protocol
  pure { request with
    signature := C.sign identity.publicKey (.join { request with signature := .empty }) }

/-- `PeerIdentity::sign_leave_request`. -/
def signLeaveRequest (request : LeaveRequestV1) : Except CoreError LeaveRequestV1 := do
  let request := { request with
    leavingPeerId := identity.peerId C
    leavingPublicKey := identity.publicKey }
  (request.validateSemantics C).mapError CoreError.protocol
  pure { request with
    signature := C.sign identity.publicKey (.leave { request with signature := .empty }) }

/-- `PeerIdentity::sign_sleep_record`. -/
def signSleepRecord (record : SleepRecordV1) : Except CoreError SleepRecordV1 := do
  let record := { record with
    authorityPeerId := identity.peerId C
    authorityPublicKey := identity.publicKey }
  record.validateSemantics.mapError CoreError.protocol
  pure { record with
    signature := C.sign identity.publicKey (.sleep { record with signature := .empty }) }

end Signing

/-! ## What the predicates say -/

section Facts

variable {C : Crypto}
variable {ballot : RecoveryBallotV1} {proposal : MembershipProposalV1} {member : WorldMemberV1}
  {rest members : List WorldMemberV1} {descriptor : WorldDescriptorV1}

/-- A vote that matches a ballot carries its hash, generation, round and candidate. -/
theorem RecoveryVoteV1.matchesBallot_iff {vote : RecoveryVoteV1} :
    vote.matchesBallot C ballot = true ↔
      vote.protocolVersion = ballot.protocolVersion ∧ vote.worldId = ballot.worldId ∧
        vote.ballotHash = ballot.ballotHash C ∧ vote.baseEpoch = ballot.baseEpoch ∧
        vote.targetEpoch = ballot.targetEpoch ∧ vote.round = ballot.round ∧
        vote.candidatePeerId = ballot.candidatePeerId := by
  simp [matchesBallot, and_assoc]

/-- A vote that matches a proposal names both of its records. -/
theorem MembershipVoteV1.matchesProposal_iff {vote : MembershipVoteV1} :
    vote.matchesProposal C proposal = true ↔
      vote.protocolVersion = protocolVersionV1 ∧ vote.worldId = proposal.proposed.worldId ∧
        vote.previousMembershipHash = proposal.previous.recordHash C ∧
        vote.proposedMembershipHash = proposal.proposed.recordHash C ∧
        vote.proposedSequence = proposal.proposed.sequence := by
  simp [matchesProposal, and_assoc]

/-- A well-formed ballot targets the direct successor of its base. -/
theorem RecoveryBallotV1.generationIsWellFormed_iff :
    ballot.generationIsWellFormed = true ↔ ballot.protocolVersion = protocolVersionV1 ∧
        checkedSucc ballot.baseEpoch = some ballot.targetEpoch ∧
        checkedSucc ballot.baseFencingToken = some ballot.targetFencingToken ∧
        0 < ballot.round := by
  simp [generationIsWellFormed, and_assoc]

/-- The target epoch of a well-formed ballot is the successor of its base epoch. -/
theorem RecoveryBallotV1.targetEpoch_eq
    (h : ballot.generationIsWellFormed = true) : ballot.targetEpoch = ballot.baseEpoch + 1 :=
  (checkedSucc_eq_some.mp (generationIsWellFormed_iff.mp h).2.1).2

/-- A ballot that passes its semantic check is well formed. -/
theorem RecoveryBallotV1.validateSemantics_eq_ok :
    ballot.validateSemantics = .ok () ↔ ballot.generationIsWellFormed = true := by
  simp only [validateSemantics, requireProtocolVersion, bind_eq_ok, ensure_eq_ok]
  constructor
  · rintro ⟨_, _, h⟩
    exact h
  · intro h
    exact ⟨(), (generationIsWellFormed_iff.mp h).1, h⟩

/-- A valid signature belongs to the peer whose key it verifies under. -/
theorem verifySignature_eq_ok {peer : PeerId} {key : PublicKey} {content : Signable}
    {signature : Signature} :
    verifySignature C peer key content signature = .ok () ↔
      C.peerIdFromPublicKey key = peer ∧ C.verify key content signature = true := by
  simp only [verifySignature, bind_eq_ok, ensure_eq_ok, exists_const]

section

variable (h : proposal.validateShape C = true)

include h

/-- The two records of a proposal of valid shape belong to one world. -/
theorem MembershipProposalV1.validateShape_world :
    proposal.previous.worldId = proposal.proposed.worldId := by
  simp only [validateShape, Bool.and_eq_true, decide_eq_true_eq] at h
  exact h.1.1.1.1.1.1.2

/-- The two records of a proposal of valid shape belong to one epoch of one authority. -/
theorem MembershipProposalV1.validateShape_authority :
    proposal.previous.epoch = proposal.proposed.epoch ∧
      proposal.previous.authorityPeerId = proposal.proposed.authorityPeerId ∧
      proposal.previous.authorityPublicKey = proposal.proposed.authorityPublicKey := by
  simp only [validateShape, Bool.and_eq_true, decide_eq_true_eq] at h
  exact ⟨h.1.1.1.1.1.2, h.1.1.2, h.1.2⟩

/-- The proposed record of a proposal of valid shape directly extends the previous one. -/
theorem MembershipProposalV1.validateShape_extends :
    checkedSucc proposal.previous.sequence = some proposal.proposed.sequence ∧
      proposal.proposed.previousMembershipHash = some (proposal.previous.recordHash C) := by
  simp only [validateShape, Bool.and_eq_true, decide_eq_true_eq] at h
  exact ⟨h.1.1.1.1.2, h.1.1.1.2⟩

/-- A proposal of valid shape extends its previous record by one sequence number. -/
theorem MembershipProposalV1.validateShape_sequence :
    proposal.proposed.sequence = proposal.previous.sequence + 1 := by
  exact (checkedSucc_eq_some.mp (validateShape_extends h).1).2

end

/-! ## Ordered member lists -/

/-- The rest of an ordered list is ordered. -/
theorem strictPeerOrder_tail
    (h : strictPeerOrder (member :: rest) = true) : strictPeerOrder rest = true := by
  cases rest with
  | nil => rfl
  | cons other rest =>
    simp only [strictPeerOrder, Bool.and_eq_true] at h
    exact h.2

/-- A member before an ordered list is inserted at its head. -/
theorem insertMember_of_strict
    (h : strictPeerOrder (member :: rest) = true) : insertMember member rest = member :: rest := by
  cases rest with
  | nil => rfl
  | cons other rest =>
    simp only [strictPeerOrder, Bool.and_eq_true, decide_eq_true_eq] at h
    have hnot : ¬ other.peerId < member.peerId := Nat.lt_asymm h.1
    rw [insertMember, if_neg hnot]

theorem sortMembers_of_strict
    (h : strictPeerOrder members = true) : sortMembers members = members := by
  induction members with
  | nil => rfl
  | cons member rest ih =>
    rw [sortMembers, ih (strictPeerOrder_tail h), insertMember_of_strict h]

/-- An ordered list has no neighbours with the same id. -/
theorem dedupMembers_of_strict
    (h : strictPeerOrder members = true) : dedupMembers members = members := by
  induction members with
  | nil => rfl
  | cons member rest ih =>
    rw [dedupMembers, ih (strictPeerOrder_tail h)]
    cases rest with
    | nil => rfl
    | cons other rest =>
      simp only [strictPeerOrder, Bool.and_eq_true, decide_eq_true_eq] at h
      have hne : other.peerId ≠ member.peerId := fun heq => by
        have hlt : member.peerId.bytes < other.peerId.bytes := h.1
        rw [heq] at hlt
        exact Nat.lt_irrefl _ hlt
      rw [List.dropWhile_cons_of_neg (by simpa using hne)]

/-- A descriptor of ordered members is normalized. -/
theorem WorldDescriptorV1.normalize_of_strict
    (h : strictPeerOrder descriptor.members = true) : descriptor.normalize = descriptor := by
  unfold normalize
  rw [sortMembers_of_strict h, dedupMembers_of_strict h]

/-- Ordered members have pairwise ordered ids. -/
theorem strictPeerOrder_iff :
    strictPeerOrder members = true ↔ members.Pairwise fun a b => a.peerId < b.peerId := by
  induction members with
  | nil => simp [strictPeerOrder]
  | cons member rest ih =>
    cases rest with
    | nil => simp [strictPeerOrder]
    | cons other rest =>
      rw [strictPeerOrder, Bool.and_eq_true, decide_eq_true_eq, ih]
      constructor
      · rintro ⟨hlt, hrest⟩
        refine List.pairwise_cons.mpr ⟨fun last hlast => ?_, hrest⟩
        rcases List.mem_cons.mp hlast with rfl | hlast
        · exact hlt
        · exact Nat.lt_trans hlt ((List.pairwise_cons.mp hrest).1 last hlast)
      · intro hall
        obtain ⟨hfirst, hrest⟩ := List.pairwise_cons.mp hall
        exact ⟨hfirst other List.mem_cons_self, hrest⟩

/-- Ordered members have different ids. -/
theorem nodup_of_strict (h : strictPeerOrder members = true) :
    (members.map WorldMemberV1.peerId).Nodup := by
  refine List.pairwise_map.mpr ((strictPeerOrder_iff.mp h).imp fun {a b} hlt heq => ?_)
  rw [heq] at hlt
  exact Nat.lt_irrefl _ hlt

theorem insertMember_perm (member : WorldMemberV1) (rest : List WorldMemberV1) :
    (insertMember member rest).Perm (member :: rest) := by
  induction rest with
  | nil => exact .refl _
  | cons other rest ih =>
    unfold insertMember
    split
    · exact (ih.cons other).trans (.swap member other rest)
    · exact .refl _

theorem sortMembers_perm (members : List WorldMemberV1) : (sortMembers members).Perm members := by
  induction members with
  | nil => exact .refl _
  | cons member rest ih => exact (insertMember_perm member _).trans (ih.cons member)

/-- A member with a new id is inserted in order. -/
theorem insertMember_strict
    (h : strictPeerOrder rest = true) (hnew : ∀ other ∈ rest, other.peerId ≠ member.peerId) :
    strictPeerOrder (insertMember member rest) = true := by
  rw [strictPeerOrder_iff] at h ⊢
  induction rest with
  | nil => simp [insertMember]
  | cons other rest ih =>
    obtain ⟨hfirst, hrest⟩ := List.pairwise_cons.mp h
    unfold insertMember
    split
    · rename_i hlt
      refine List.pairwise_cons.mpr ⟨fun last hlast => ?_, ih hrest fun last hlast =>
        hnew last (List.mem_cons_of_mem _ hlast)⟩
      rcases List.mem_cons.mp ((insertMember_perm member rest).subset hlast) with rfl | hlast
      · exact hlt
      · exact hfirst last hlast
    · rename_i hnot
      have hne : other.peerId.bytes ≠ member.peerId.bytes := fun heq =>
        hnew other List.mem_cons_self (by cases hm : member.peerId; cases ho : other.peerId; simp_all)
      have hlt : member.peerId.bytes < other.peerId.bytes :=
        Nat.lt_of_le_of_ne (Nat.le_of_not_lt hnot) hne.symm
      refine List.pairwise_cons.mpr ⟨fun last hlast => ?_, h⟩
      rcases List.mem_cons.mp hlast with rfl | hlast
      · exact hlt
      · exact Nat.lt_trans hlt (hfirst last hlast)

/-- Members with different ids are sorted in order. -/
theorem sortMembers_strict
    (h : (members.map WorldMemberV1.peerId).Nodup) : strictPeerOrder (sortMembers members) = true := by
  induction members with
  | nil => rfl
  | cons member rest ih =>
    obtain ⟨hfresh, hrest⟩ := List.nodup_cons.mp h
    refine insertMember_strict (ih hrest) fun other hother heq => hfresh ?_
    exact heq ▸ List.mem_map_of_mem ((sortMembers_perm rest).subset hother)

/-- Normalizing keeps members with different ids. -/
theorem WorldDescriptorV1.normalize_perm (h : (descriptor.members.map WorldMemberV1.peerId).Nodup) :
    descriptor.normalize.members.Perm descriptor.members := by
  change (dedupMembers (sortMembers descriptor.members)).Perm _
  rw [dedupMembers_of_strict (sortMembers_strict h)]
  exact sortMembers_perm _

/-- The members of a well-formed record are ordered, and there are some. -/
theorem MembershipRecordV1.validateSemantics_eq_ok {record : MembershipRecordV1} :
    record.validateSemantics = .ok () ↔ record.protocolVersion = protocolVersionV1 ∧
      record.members ≠ [] ∧ strictPeerOrder record.members = true := by
  simp only [validateSemantics, requireProtocolVersion, requireStrictPeerOrder, bind_eq_ok,
    ensure_eq_ok, exists_const]

/-- The members of a well-formed descriptor are ordered, and there are some. -/
theorem WorldDescriptorV1.validateSemantics_eq_ok :
    descriptor.validateSemantics = .ok () ↔ descriptor.protocolVersion = protocolVersionV1 ∧
      descriptor.members ≠ [] ∧ strictPeerOrder descriptor.members = true := by
  simp only [validateSemantics, requireProtocolVersion, requireStrictPeerOrder, bind_eq_ok,
    ensure_eq_ok, exists_const]

end Facts

end SwarmCraft
