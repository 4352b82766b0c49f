import SwarmCraft.Refinement.Footprint

/-!
# Membership, recovery and lease handlers follow the moves

Receiving a snapshot ends in the one move that changes the canonical head. A membership vote
is released only on the stored record, and a prepare is released only with the record it led
to. A recovery vote is released on the stored base only. An epoch record is stored after it
was checked against the accepted one, with a certificate when it is a recovery record,
and a lease is acknowledged to the accepted authority only.

The authority's tick loads the accepted record and the descriptor once. What it does before it
acts on them leaves both files alone, so the permit is refreshed and a promise is released under
the record that is still stored.
-/

namespace SwarmCraft

open Checked Effect Transition

variable {C : Crypto} {site : Site} {heard : Heard} {base : List Stamp} {channel : Channel}
  {e : Exec} {sender : PeerId}

section

variable {current : MembershipRecordV1} {proposal : MembershipProposalV1} {store : Store}
  {certificate : MembershipCertificateV1} [Fact (channel.self = site.peer C)]
variable {next record : MembershipRecordV1} {epoch : Nat} {members : List WorldMemberV1}
  {request : JoinRequestV1} {host : LocalHost}
  {target : MembershipRecordV1 × WorldDescriptorV1} {promise : DurableMembershipPromiseV1}

/-! ## Receiving a snapshot -/

/-- A commit writes the history of snapshots only. -/
theorem tame_commitSnapshot (fence : Option SnapshotCommitFence) (manifest : SnapshotManifestV1) :
    Tame C site heard base (commitSnapshot C fence manifest) := by
  refine always_readStore fun _ => always_check fun committed _ => .onlyIf fun _ e => ?_
  refine along_bind (tame (by decide) e) fun _ t hrun => ?_
  obtain ⟨store, hbegin, rfl⟩ := run_save.mp hrun
  obtain ⟨rfl, hdirect⟩ := beginSnapshotCommit_eq_ok hbegin
  exact along_write (.committed hdirect)

theorem tame_finalize (manifest : SnapshotManifestV1) :
    Tame C site heard base (do finalizeAndAck C manifest; setPendingManifest none) := by
  refine .bind ?_ fun _ => tame (by decide)
  exact always_readStore fun _ => always_check fun _ _ => always_check fun _ _ =>
    .onlyIf fun _ => tame_commitSnapshot none manifest

theorem tame_handleSnapshotManifest (manifest : SnapshotManifestV1) :
    Tame C site heard base (handleSnapshotManifest C channel manifest) := by
  refine always_readStore fun store => always_check fun _ _ => .bind (tame (by decide)) fun _ => ?_
  exact .bind (tame (by decide)) fun _ => .onlyIf fun _ => tame_finalize manifest

theorem tame_handleBlobChunk (worldId : WorldId) (hash : Hash32) (encoding : BlobEncoding)
    (finished intact : Bool) :
    Tame C site heard base (handleBlobChunk C channel worldId hash encoding finished intact) := by
  refine always_readStore fun store => always_readPendingManifest fun pending => ?_
  refine always_check fun _ _ => always_check fun target _ => .bind (tame (by decide)) fun _ => ?_
  refine .bind (tame (by decide)) fun _ => always_readStore fun store => .onlyIf fun _ => ?_
  exact tame_finalize target.1

/-! ## Preparing a proposal -/

/-- The record an authority proposes belongs to the world of the current one. -/
theorem nextMembership_worldId (h : nextMembership C site current epoch members = .ok next) :
    next.worldId = current.worldId := by
  simp only [nextMembership, signMembership, bind_eq_ok, required_eq_ok, ofCore_eq_ok,
    mapError_eq_ok, pure_eq_ok] at h
  obtain ⟨_, _, _, _, rfl⟩ := h
  rfl

/-- The record an authority proposes has the members it was made for. -/
theorem nextMembership_members (h : nextMembership C site current epoch members = .ok next) :
    next.members = members := by
  simp only [nextMembership, signMembership, bind_eq_ok, required_eq_ok, ofCore_eq_ok,
    mapError_eq_ok, pure_eq_ok] at h
  obtain ⟨_, _, _, _, rfl⟩ := h
  rfl

/-- A prepare on the committed record. -/
theorem along_prepareMembership (hworld : proposal.proposed.worldId = site.world)
    (hcommitted : ∀ current, loadMembershipRecord site.world e.node.store = .ok current →
      current = proposal.previous) :
    Along (Follows C site heard base)
      (prepareMembership C proposal (signMembershipVote C site.identity proposal)) e := by
  refine along_saveAnswer fun result store h => ?_
  rw [Except.ok.injEq] at h
  exact .prepared hworld hcommitted rfl h

/-- A proposal of the authority extends its record. -/
theorem along_proposeMembers (hload : loadMembershipRecord site.world e.node.store = .ok current)
    (members : List WorldMemberV1) {accepted : Nat → WireResponse}
    [∀ sequence, Evident (accepted sequence).modest] :
    Along (Follows C site heard base) (proposeMembers C site channel current members accepted)
      e := by
  refine along_check fun next hnext => along_check fun _ _ => ?_
  refine along_bind (along_prepareMembership ?_ fun found hfound => ?_) fun result t _ => ?_
  · rw [nextMembership_worldId hnext]
    exact (loadMembershipRecord_eq_ok.mp hload).2.1
  · rw [hload, Except.ok.injEq] at hfound
    exact hfound.symm
  · exact along_check fun _ _ => tame (by decide) t

/-! ## Join and leave requests -/

/-- A join request that passes is about the stored record. -/
theorem joinRequestChecks_eq_ok
    (h : joinRequestChecks C site sender request host store = .ok target) :
    loadMembershipRecord request.worldId store = .ok target.1 := by
  simp only [joinRequestChecks, bind_eq_ok, pure_eq_ok, ofStorage_eq_ok] at h
  obtain ⟨_, _, _, _, _, _, _, _, _, _, _, _, current, hload, _, _, _, _, _, _, _, _, _, _, _, _,
    rfl⟩ := h
  exact hload

/-- A leave request that passes is about the stored record. -/
theorem leaveRequestChecks_eq_ok {request : LeaveRequestV1}
    (h : leaveRequestChecks C site sender request store = .ok target) :
    loadMembershipRecord request.worldId store = .ok target.1 := by
  simp only [leaveRequestChecks, bind_eq_ok, pure_eq_ok, ofStorage_eq_ok] at h
  obtain ⟨_, _, _, _, current, hload, _, _, _, _, _, _, _, _, _, _, _, _, _, _, rfl⟩ := h
  exact hload

/-- A join request prepares a proposal. -/
theorem along_handleJoinRequest (hworld : request.worldId = site.world) :
    Along (Follows C site heard base) (handleJoinRequest C site channel request) e := by
  refine along_readStore (along_readHost (along_check fun target htarget => ?_))
  have hload := joinRequestChecks_eq_ok htarget
  rw [hworld] at hload
  dsimp only
  split
  · -- The peer is a member already: it only gets what it may have missed.
    exact along_check fun _ _ => tame (by decide) e
  · split
    · exact tame (by decide) e
    · exact along_proposeMembers hload _

/-- A leave request prepares a proposal. -/
theorem along_handleLeaveRequest {request : LeaveRequestV1}
    (hworld : request.worldId = site.world) :
    Along (Follows C site heard base) (handleLeaveRequest C site channel request) e := by
  refine along_readStore (along_check fun target htarget => ?_)
  have hload := leaveRequestChecks_eq_ok htarget
  rw [hworld] at hload
  dsimp only
  split
  · exact tame (by decide) e
  · exact along_proposeMembers hload _

/-! ## Proposals and commits -/

/-- A proposal that passes extends the stored record, where there is one. -/
theorem validateMembershipProposalForLocal_eq_ok
    (h : validateMembershipProposalForLocal C site host proposal store = .ok ())
    (current : MembershipRecordV1)
    (hload : loadMembershipRecord proposal.proposed.worldId store = .ok current) :
    current = proposal.previous := by
  simp only [validateMembershipProposalForLocal, hload, bind_eq_ok, required_eq_ok,
    guardMessage_eq_ok, ofCore_eq_ok] at h
  obtain ⟨_, _, _, _, _, _, hhash⟩ := h
  exact (MembershipRecordV1.recordHash_inj C).mp hhash

/-- A certificate whose signatures were checked is about a proposal of valid shape. -/
theorem validateMembershipCertificateSignatures_shape
    (h : validateMembershipCertificateSignatures C certificate = .ok ()) :
    certificate.proposal.validateShape C = true := by
  simp only [validateMembershipCertificateSignatures, validateMembershipCertificateShape,
    bind_eq_ok, mapError_eq_ok] at h
  obtain ⟨_, _, _, _, _, ⟨_, hshape, _⟩, _⟩ := h
  exact validateMembershipProposalShape_shape hshape

/-- A received proposal is prepared. -/
theorem along_handleMembershipProposal (hworld : proposal.proposed.worldId = site.world) :
    Along (Follows C site heard base) (handleMembershipProposal C site channel proposal) e := by
  refine along_readStore (along_readHost (along_check fun _ hchecks => ?_))
  simp only [membershipProposalChecks, bind_eq_ok] at hchecks
  obtain ⟨_, _, _, _, _, _, _, _, hvalid⟩ := hchecks
  refine along_bind (along_prepareMembership hworld fun current hload => ?_) fun result t _ => ?_
  · rw [← hworld] at hload
    exact validateMembershipProposalForLocal_eq_ok hvalid current hload
  · exact along_check fun _ _ => tame (by decide) t

theorem tame_saveMembershipRecord (hworld : record.worldId = site.world) :
    Tame C site heard base (save [] (saveMembershipRecord C record)) :=
  fun _ => along_save fun _ h => .savedMembership hworld h

/-- A certified record is saved. -/
theorem tame_applyMembershipCertificate
    (hworld : certificate.proposal.proposed.worldId = site.world) :
    Tame C site heard base (applyMembershipCertificate C certificate) := by
  refine always_readStore fun store => always_check fun descriptor _ e => ?_
  refine along_save_bind (fun _ h => .savedMembership hworld h) fun store₁ hstore₁ => ?_
  refine along_bind (tame (by decide) _) fun _ t hdescribed => ?_
  obtain ⟨store₂, hstore₂, rfl⟩ := run_save.mp hdescribed
  have hmembership : loadMembershipRecord site.world store₂ = .ok certificate.proposal.proposed := by
    have hloaded := loadMembershipRecord_saved hstore₁
    rw [hworld] at hloaded
    rw [saveWorldDescriptor_eq_ok hstore₂]
    exact hloaded
  rw [hworld]
  exact along_write_bind (.releasedMembership hmembership) (tame (by decide) _)

theorem tame_handleMembershipCommit (hworld : certificate.proposal.proposed.worldId = site.world) :
    Tame C site heard base (handleMembershipCommit C site channel certificate) := by
  refine always_readStore fun store => always_readHost fun host => ?_
  refine always_check fun _ _ => always_check fun _ _ => .bind (tame (by decide)) fun _ => ?_
  exact .bind (tame_applyMembershipCertificate hworld) fun _ => tame (by decide)

theorem tame_handleMembership (hworld : record.worldId = site.world) :
    Tame C site heard base (handleMembership C channel record) := by
  refine always_readStore fun store => always_check fun _ _ => ?_
  split
  · exact tame (by decide)
  · refine always_check fun _ _ => always_check fun descriptor _ => ?_
    exact .bind (tame_saveMembershipRecord hworld) fun _ => tame (by decide)

/-! ## Driving a prepared change -/

/-- A certificate that is found is about the world it was looked up for. -/
theorem loadMembershipCertificate_world {world : WorldId}
    (h : Checked.optional (loadMembershipCertificate world store) = some certificate) :
    certificate.proposal.proposed.worldId = world := by
  have hload := optional_eq_some.mp h
  simp only [loadMembershipCertificate, DurableFile.load_eq_ok, requireWorld, ensure_eq_ok] at hload
  exact hload.2

theorem along_recoverCommittedMembership :
    Along (Follows C site heard base) (recoverCommittedMembership C site) e := by
  refine along_readStore (along_readHost (along_onSome fun certificate hcertificate => ?_))
  have hworld := loadMembershipCertificate_world hcertificate
  refine along_check fun committed hcommitted => ?_
  cases committed with
  | superseded => exact along_pure ()
  | outstanding =>
    exact along_check fun _ _ => tame_applyMembershipCertificate hworld e
  | applied current =>
    refine along_write (.releasedMembership ?_)
    unfold committedMembership at hcommitted
    split at hcommitted
    · simp at hcommitted
    · rename_i found hfound
      simp only [bind_eq_ok] at hcommitted
      obtain ⟨_, _, hcommitted⟩ := hcommitted
      split at hcommitted
      · simp only [pure_eq_ok, CommittedMembership.applied.injEq] at hcommitted
        exact hcommitted ▸ hfound
      · split at hcommitted <;> simp at hcommitted

/-- A certificate assembled for a proposal is about it, with the collected votes for it. -/
theorem assembleCertificate_eq_ok {runtime : LeaseRuntime}
    (h : assembleCertificate C proposal runtime = .ok (some certificate)) :
    certificate = ⟨proposal, (runtime.membershipVotes.map Prod.snd).filter fun vote =>
      vote.matchesProposal C proposal⟩ := by
  unfold assembleCertificate at h
  dsimp only at h
  split at h <;> simp only [bind_eq_ok, pure_eq_ok, reduceCtorEq, Option.some.injEq] at h
  obtain ⟨_, _, rfl⟩ := h
  rfl

theorem tame_driveProposal (hworld : promise.proposal.proposed.worldId = site.world) :
    Tame C site heard base (driveProposal C site promise) := by
  refine always_check fun _ _ => .bind (tame (by decide)) fun _ => ?_
  refine .bind (tame (by decide)) fun _ => always_readRuntime fun runtime => ?_
  refine always_check fun assembled hassembled => .onSome fun certificate hsome => ?_
  subst hsome
  have hproposal := assembleCertificate_eq_ok hassembled
  refine .bind (tame (by decide)) fun _ => ?_
  refine .bind (tame_applyMembershipCertificate (by rw [hproposal]; exact hworld)) fun _ => ?_
  exact tame (by decide)

theorem along_maintainMembershipTransition
    (hworld : promise.proposal.proposed.worldId = site.world) :
    Along (Follows C site heard base) (maintainMembershipTransition C site promise) e := by
  refine along_onlyIf fun _ => along_readStore (along_check fun current hcurrent => ?_)
  rw [ofStorage_eq_ok] at hcurrent
  split
  · rw [hworld] at hcurrent ⊢
    exact along_write (.releasedMembership hcurrent)
  · exact along_check fun _ _ => tame_driveProposal hworld e

end

variable {record : EpochRecordV1} {ballot : RecoveryBallotV1} {wake : Bool}
  {node : Node} {certificate : RecoveryCertificateV1} [Fact (channel.self = site.peer C)]
variable {text : String} {generation : AuthorityGeneration} {vote : RecoveryVoteV1} {t : Exec}
  {lease : AuthorityLeaseGrantV1}

/-! ## Voting -/

/-- No prepare is found only where none can be loaded. -/
theorem ensureNoMembershipPrepare_eq_ok {store : Store}
    (h : ensureNoMembershipPrepare C site.world store = .ok ()) : Unprepared C site store := by
  simp only [ensureNoMembershipPrepare, guardMessage_eq_ok] at h
  intro promise hload
  rw [hload] at h
  cases h

/-- The next generation is the direct successor. -/
theorem nextGeneration_eq_ok (h : nextGeneration record text = .ok generation) :
    generation.epoch = record.epochNumber + 1 ∧
      generation.fencingToken = record.fencingToken + 1 := by
  rw [nextGeneration, context_eq_ok] at h
  rw [AuthorityGeneration.checkedNext_eq_ok h]
  exact ⟨rfl, rfl⟩

/-- What a ballot that passes its checks is based on. -/
theorem recoveryBallotChecks_eq_ok {runtime : LeaseRuntime} {store : Store}
    (hworld : ballot.worldId = site.world)
    (h : recoveryBallotChecks C site sender ballot runtime store = .ok wake) :
    Unprepared C site store ∧ OnBase C site store ballot ∧
      ∃ current, Accepted site store current ∧ (wake = false →
        runtime.connected current.authorityPeerId = false ∧
          recoveryWindowOpen runtime current.generation site.now = true) := by
  simp only [recoveryBallotChecks, bind_eq_ok, onlyIf_eq_ok, pure_eq_ok] at h
  obtain ⟨_, hprepare, _, _, _, _, descriptor, _, current, hgeneration, latest, hsnapshot, wake', _,
    _, hexpired, _, _, _, hmembership, rfl⟩ := h
  rw [hworld] at hprepare
  simp only [ballotGenerationChecks, bind_eq_ok, ofStorage_eq_ok, guardMessage_eq_ok,
    pure_eq_ok, hworld] at hgeneration
  obtain ⟨current', hcurrent, _, _, _, ⟨hepoch, htoken, _⟩, rfl⟩ := hgeneration
  simp only [ballotSnapshotChecks, bind_eq_ok, ofStorage_eq_ok, required_eq_ok,
    guardMessage_eq_ok, pure_eq_ok] at hsnapshot
  obtain ⟨_, hlatest, latest', hsome, _, _, _, _, _, ⟨hhead, _⟩, rfl⟩ := hsnapshot
  simp only [ballotMembershipChecks, bind_eq_ok, ofStorage_eq_ok, guardMessage_eq_ok,
    hworld] at hmembership
  obtain ⟨record, hrecord, _, _, hhash⟩ := hmembership
  refine ⟨ensureNoMembershipPrepare_eq_ok hprepare, ⟨fun found hfound => ?_, ?_, ?_⟩, ?_⟩
  · rw [Accepted, hcurrent, Except.ok.injEq] at hfound
    exact hfound ▸ ⟨hepoch, htoken⟩
  · exact ⟨latest', hsome ▸ hlatest, hhead⟩
  · exact ⟨record, hrecord, hhash⟩
  · refine ⟨current', hcurrent, fun hwake => ?_⟩
    have hlease := hexpired hwake
    simp only [leaseExpiredChecks, bind_eq_ok, guardMessage_eq_ok] at hlease
    obtain ⟨_, hdisconnected, hwindow⟩ := hlease
    exact ⟨hdisconnected, hwindow⟩

/-- The local vote names the local peer. -/
theorem recoveryVoteFor_own
    (h : recoveryVoteFor C site ballot = .ok vote) : vote.voterPeerId = site.peer C := by
  simp only [recoveryVoteFor, signRecoveryVote, ofCore_eq_ok, bind_eq_ok, pure_eq_ok] at h
  obtain ⟨_, _, rfl⟩ := h
  rfl

/-- A promise for a ballot that may get a vote. -/
theorem along_promiseBallot
    (hvotable : Votable C site e.node ballot wake) (hown : vote.voterPeerId = site.peer C) :
    Along (Follows C site heard base) (promiseBallot C ballot vote wake) e :=
  along_saveAnswer fun _ _ h => .promised hvotable hown h

/-- A ballot that passes its checks may be voted for. -/
theorem votable_of_checks (hworld : ballot.worldId = site.world)
    (h : recoveryBallotChecks C site sender ballot node.runtime node.store = .ok wake) :
    Votable C site node ballot wake := by
  obtain ⟨hprepare, hbase, current, hcurrent, hexpired⟩ := recoveryBallotChecks_eq_ok hworld h
  refine ⟨hworld, ⟨current, hcurrent⟩, hbase, hprepare, fun hawake found hfound => ?_⟩
  rw [Accepted] at hcurrent hfound
  rw [hcurrent, Except.ok.injEq] at hfound
  exact hfound ▸ hexpired hawake

/-- A received ballot is promised after its checks. -/
theorem along_handleRecoveryBallot (hworld : ballot.worldId = site.world) :
    Along (Follows C site heard base) (handleRecoveryBallot C site channel ballot) e := by
  refine along_readStore (along_readRuntime (along_check fun wake hwake => ?_))
  refine along_check fun vote hvote => ?_
  have hvotable := votable_of_checks hworld hwake
  refine along_bind (along_promiseBallot hvotable (recoveryVoteFor_own hvote)) fun result t _ => ?_
  cases result <;> exact tame (by decide) t

/-! ## Accepting epoch records -/

/-- A record that passes directly extends the accepted one. -/
theorem extendsEpoch_eq_ok {current : EpochRecordV1}
    (h : extendsEpoch C record current text = .ok ()) :
    record.epochNumber = current.epochNumber + 1 ∧ record.fencingToken = current.fencingToken + 1 ∧
      record.previousEpochHash = some (epochRecordHash C current) := by
  simp only [extendsEpoch, bind_eq_ok, guardMessage_eq_ok] at h
  obtain ⟨expected, hexpected, hepoch, htoken, hhash⟩ := h
  obtain ⟨hnext, hfence⟩ := nextGeneration_eq_ok hexpected
  exact ⟨hepoch.trans hnext, htoken.trans hfence, hhash⟩

/-- A certificate that passes with its record is a quorum on the stored base. -/
theorem validateRecoveryEpoch_eq_ok {store : Store} (hworld : record.worldId = site.world)
    (h : validateRecoveryEpoch C sender record certificate store = .ok ()) :
    record.mode = .recovery ∧ (record.epochNumber = certificate.ballot.targetEpoch ∧
        record.fencingToken = certificate.ballot.targetFencingToken ∧
        record.authorityPeerId = certificate.ballot.candidatePeerId) ∧
      (∃ latest, latestSnapshot store = .ok (some latest) ∧
        latest.manifestHash C = certificate.ballot.baseSnapshotHash) ∧
      (∃ membership, loadMembershipRecord site.world store = .ok membership ∧
        membership.recordHash C = certificate.ballot.membershipHash ∧
        validateRecoveryCertificateShape C certificate membership.activeIds = .ok ()) ∧
      ∀ vote ∈ certificate.votes, verifyRecoveryVoteSignature C vote = .ok () := by
  simp only [validateRecoveryEpoch, bind_eq_ok, guardMessage_eq_ok, ofStorage_eq_ok,
    required_eq_ok, mapError_eq_ok, hworld] at h
  obtain ⟨_, hmode, _, _, _, _, _, ⟨_, hauthority, _, hepoch, htoken, _⟩, _, hlatest, latest, hsome,
    _, ⟨hhead, _⟩, membership, hmembership, _, _, _, hhash, _, hshape, hvotes⟩ := h
  refine ⟨hmode, ⟨hepoch, htoken, hauthority⟩, ⟨latest, hsome ▸ hlatest, hhead⟩,
    ⟨membership, hmembership, hhash, hshape⟩, fun vote hvote => ?_⟩
  exact ofCore_eq_ok.mp (forM_eq_ok.mp hvotes vote hvote)

/-- What holds when a received recovery record is accepted. -/
theorem recovered_of_checks (hworld : record.worldId = site.world)
    (hheard : heard = some (sender, .request (.recoveryEpoch record certificate)))
    (hchecks : recoveryEpochChecks C sender record certificate node.store = .ok ())
    (hnew : newRecoveryEpochChecks C record certificate node.store = .ok ()) :
    Recovered C site heard node record certificate := by
  simp only [recoveryEpochChecks, bind_eq_ok, hworld] at hchecks
  obtain ⟨_, hprepare, hvalid⟩ := hchecks
  obtain ⟨hmode, hnamed, hhead, ⟨membership, hload, hhash, hshape⟩, hsigned⟩ :=
    validateRecoveryEpoch_eq_ok hworld hvalid
  simp only [newRecoveryEpochChecks, bind_eq_ok, onSome_eq_ok, hworld] at hnew
  obtain ⟨_, hextends, _⟩ := hnew
  have hfollows : Extends C site node.store record := fun current hcurrent =>
    extendsEpoch_eq_ok (hextends current (optional_eq_some.mpr hcurrent))
  refine ⟨hworld, hmode, ensureNoMembershipPrepare_eq_ok hprepare, hfollows,
    ⟨fun current hcurrent => ?_, hhead, ⟨membership, hload, hhash⟩⟩, hnamed,
    ⟨membership.activeIds, .inl ⟨membership, hload, rfl⟩, hshape⟩, hsigned, .inl ⟨sender, hheard⟩⟩
  -- The ballot targets the successor of its base and the record is the successor of the accepted
  -- one, so the base is the accepted generation.
  obtain ⟨hepoch, htoken, _⟩ := hfollows current hcurrent
  have hwell := (validateRecoveryCertificateShape_eq_ok.mp hshape).1
  obtain ⟨_, htarget, hfence, _⟩ := RecoveryBallotV1.generationIsWellFormed_iff.mp hwell
  have hnext := (checkedSucc_eq_some.mp htarget).2
  have hnextFence := (checkedSucc_eq_some.mp hfence).2
  obtain ⟨hnamedEpoch, hnamedToken, _⟩ := hnamed
  omega

/-- Sleep ends under the stored record. -/
theorem along_leaveSleep (hworld : record.worldId = site.world)
    (hstored : e.node.store.epoch = .present record) :
    Along (Follows C site heard base) (leaveSleep C record) e := by
  refine along_write_bind (.quiet ⟨rfl, rfl, rfl, rfl, rfl⟩) ?_
  refine along_write_bind (.quiet ⟨rfl, rfl, rfl, rfl, rfl⟩) ?_
  rw [hworld]
  exact along_write (.releasedRecovery hstored)

/-- The files that a ballot and its certificate are checked against. -/
abbrev File.ground : List File :=
  [.descriptor, .membership, .membershipPromise, .epoch, .snapshots, .commitPending]

/-- These files are the same. -/
structure SameBase (store store' : Store) : Prop where
  descriptor : store'.descriptor = store.descriptor
  membership : store'.membership = store.membership
  membershipPromise : store'.membershipPromise = store.membershipPromise
  epoch : store'.epoch = store.epoch
  snapshots : store'.snapshots = store.snapshots
  commitPending : store'.commitPending = store.commitPending

namespace SameBase

variable {store store' : Store} (h : SameBase store store')

include h

theorem loadEpochRecord (world : WorldId) :
    SwarmCraft.loadEpochRecord world store' = SwarmCraft.loadEpochRecord world store := by
  rw [SwarmCraft.loadEpochRecord, h.epoch, SwarmCraft.loadEpochRecord]

theorem loadWorldDescriptor (world : WorldId) :
    SwarmCraft.loadWorldDescriptor world store' = SwarmCraft.loadWorldDescriptor world store := by
  rw [SwarmCraft.loadWorldDescriptor, h.descriptor, SwarmCraft.loadWorldDescriptor]

/-- The membership record is the same. -/
theorem loadMembershipRecord (world : WorldId) :
    SwarmCraft.loadMembershipRecord world store' = SwarmCraft.loadMembershipRecord world store := by
  rw [SwarmCraft.loadMembershipRecord, h.membership, SwarmCraft.loadMembershipRecord]

/-- The membership promise is the same. -/
theorem loadMembershipPromise (world : WorldId) :
    SwarmCraft.loadMembershipPromise C world store' =
      SwarmCraft.loadMembershipPromise C world store := by
  rw [SwarmCraft.loadMembershipPromise, h.membershipPromise, SwarmCraft.loadMembershipPromise]

theorem latestSnapshot : SwarmCraft.latestSnapshot store' = SwarmCraft.latestSnapshot store := by
  rw [SwarmCraft.latestSnapshot, h.commitPending, h.snapshots, SwarmCraft.latestSnapshot]

/-- A record is recovered on the same base alike. -/
theorem recovered {node' : Node} (hstore : node.store = store) (hstore' : node'.store = store')
    (hvotes : node'.runtime.recoveryVotes = node.runtime.recoveryVotes)
    (hrecovered : Recovered C site heard node record certificate) :
    Recovered C site heard node' record certificate := by
  subst hstore hstore'
  obtain ⟨hworld, hmode, hprepare, hfollows, hbase, hnamed, ⟨members, hmembers, hshape⟩, hsigned,
    hcollected⟩ := hrecovered
  have hepoch : ∀ current, Accepted site node'.store current → Accepted site node.store current := by
    intro current hcurrent
    rwa [Accepted, h.loadEpochRecord] at hcurrent
  refine ⟨hworld, hmode, fun promise => ?_, fun current hcurrent => hfollows _ (hepoch _ hcurrent),
    ⟨fun current hcurrent => hbase.epoch _ (hepoch _ hcurrent), ?_, ?_⟩, hnamed,
    ⟨members, ?_, hshape⟩, hsigned, ?_⟩
  · rw [h.loadMembershipPromise]
    exact hprepare promise
  · rw [h.latestSnapshot]
    exact hbase.head
  · rw [h.loadMembershipRecord]
    exact hbase.membership
  · rw [CertifiedMembers, h.loadMembershipRecord, h.loadWorldDescriptor]
    exact hmembers
  · rw [Collected, hvotes]
    exact hcollected

end SameBase

/-- A program that writes other files changes nothing a ballot is checked against. -/
theorem sameBase_of_run {α : Type} {m : Daemon α} {files : List File} [Touches .plain files m]
    {a : α} (hrun : m e = (.ok a, t)) (h : ∀ file ∈ File.ground, file ∉ files) :
    SameBase e.node.store t.node.store := by
  have hsame (file : File) (hfile : file ∈ File.ground) := content_of_run hrun file (h file hfile)
  exact ⟨hsame .descriptor (by decide), hsame .membership (by decide),
    hsame .membershipPromise (by decide), hsame .epoch (by decide), hsame .snapshots (by decide),
    hsame .commitPending (by decide)⟩

/-- A record is saved after its certificate. -/
theorem along_saveCertified {β : Type} {m : Daemon β}
    (hrecovered : Recovered C site heard e.node record certificate)
    (hsaved : save [] (saveRecoveryCertificate C certificate) e = (.ok (), t))
    (hm : ∀ t : Exec, t.node.store.epoch = .present record →
      Along (Follows C site heard base) m t) :
    Along (Follows C site heard base) (do save [.storedEpoch record] (saveEpochRecord record); m)
      t := by
  have hsame := sameBase_of_run hsaved (by decide)
  obtain ⟨stored, hstored, rfl⟩ := run_save.mp hsaved
  have hcertified := hsame.recovered rfl rfl rfl hrecovered
  have hkept : stored.recoveryCertificate = .present certificate := by
    simp only [saveRecoveryCertificate, bind_eq_ok, pure_eq_ok] at hstored
    obtain ⟨_, _, rfl⟩ := hstored
    rfl
  refine along_save_bind (fun _ h => .recovered hcertified h hkept) fun store' hstore' => hm _ ?_
  rw [(saveEpochRecord_eq_ok hstore').1]
  rfl

instance : Quiets site fun runtime => { runtime with inboundLease := none } :=
  ⟨fun _ => ⟨fun _ _ h => h, fun _ _ h => h, fun _ h => (by cases h), fun _ h => .inl h,
    fun _ h => .inl h⟩⟩

/-- A received recovery record with its certificate. -/
theorem along_handleRecoveryEpoch (hworld : record.worldId = site.world)
    (hheard : heard = some (channel.requester, .request (.recoveryEpoch record certificate))) :
    Along (Follows C site heard base) (handleRecoveryEpoch C channel record certificate) e := by
  refine along_readStore (along_check fun _ hchecks => ?_)
  split
  · rename_i hsame
    have hstored := (loadEpochRecord_eq_ok.mp (optional_eq_some.mp hsame)).1
    refine along_bind (tame (by decide) e) fun _ t ht => ?_
    have hkept := (content_of_run ht .epoch (by decide)).trans hstored
    exact along_bind (along_leaveSleep hworld hkept) fun _ u _ => tame (by decide) u
  · refine along_check fun _ hnew => along_bind (tame (by decide) e) fun _ t ht => ?_
    have hrecovered := recovered_of_checks hworld hheard hchecks hnew
    refine along_saveCertified hrecovered ht fun u hstored => ?_
    exact along_bind (along_leaveSleep hworld hstored) fun _ v _ => tame (by decide) v

/-- A new record that passes extends the accepted one. -/
theorem newEpochChecks_eq_ok {store : Store}
    (hworld : record.worldId = site.world) (h : newEpochChecks C record store = .ok ()) :
    Extends C site store record := by
  intro current hcurrent
  rw [Accepted] at hcurrent
  simp only [newEpochChecks, hworld, hcurrent, bind_eq_ok] at h
  obtain ⟨_, hextends, _⟩ := h
  exact extendsEpoch_eq_ok hextends

/-- A received record of another mode. -/
theorem along_handleEpoch (hworld : record.worldId = site.world) :
    Along (Follows C site heard base) (handleEpoch C channel record) e := by
  refine along_readStore (along_check fun _ hchecks => ?_)
  simp only [epochChecks, bind_eq_ok, guardMessage_eq_ok] at hchecks
  obtain ⟨_, _, _, hmode, _⟩ := hchecks
  split
  · exact tame (by decide) e
  · refine along_check fun _ hnew => along_bind (along_save fun _ h => ?_) fun _ t _ => ?_
    · exact .installed hworld hmode (newEpochChecks_eq_ok hworld hnew) h
    · exact tame (by decide) t

/-! ## Leases -/

/-- A lease that passes is one of the accepted authority and generation. -/
theorem leaseGrantChecks_eq_ok {store : Store} (hworld : lease.worldId = site.world)
    (h : leaseGrantChecks C sender lease store = .ok generation) :
    sender = lease.authorityPeerId ∧ lease.leaseDurationMs = authorityLeaseDurationMs ∧
      generation = ⟨lease.epoch, lease.fencingToken⟩ ∧
      ∃ record, Accepted site store record ∧ record.generation = generation ∧
        record.authorityPeerId = lease.authorityPeerId := by
  simp only [leaseGrantChecks, bind_eq_ok, guardMessage_eq_ok, ofStorage_eq_ok, pure_eq_ok,
    hworld] at h
  obtain ⟨_, _, _, _, _, hsender, _, _, _, _, _, _, _, _, _, hduration, record, hrecord, _,
    hgeneration, _, ⟨hauthority, _⟩, rfl⟩ := h
  exact ⟨hsender, hduration, hgeneration.symm, record, hrecord, rfl, hauthority.symm⟩

/-- A received lease. -/
theorem along_handleLeaseGrant (hworld : lease.worldId = site.world) :
    Along (Follows C site heard base) (handleLeaseGrant C site channel lease) e := by
  refine along_readStore (along_check fun generation hchecks => ?_)
  obtain ⟨hsender, hduration, hgeneration, record, haccepted, hrecord, hauthority⟩ :=
    leaseGrantChecks_eq_ok hworld hchecks
  rw [hduration]
  refine along_updateRuntime_bind (.granted generation) ?_
  refine along_record_bind ?_ ?_
  · rw [← hrecord, ← hauthority]
    exact .acceptedLease haccepted rfl rfl
  · -- The acknowledgement goes to the authority whose lease was just recorded.
    refine along_respond Fact.out fun epoch fencingToken hresponse => ?_
    simp only [WireResponse.leaseAccepted.injEq] at hresponse
    obtain ⟨rfl, rfl⟩ := hresponse
    rw [hsender, ← hgeneration]
    exact ⟨_, List.mem_append_right _ List.mem_cons_self, rfl⟩

/-! ## Promoted artifacts -/

theorem tame_ensurePromotedSnapshot (texts : ArtifactTexts) (epoch : EpochRecordV1) :
    Tame C site heard base (ensurePromotedSnapshot C site texts epoch) := by
  refine always_readStore fun _ => always_check fun _ _ => always_check fun latest _ => ?_
  split
  · exact always_check fun _ _ => tame_commitSnapshot _ _
  · exact .lift _

theorem tame_ensurePromotedMembership (texts : ArtifactTexts) (epoch : EpochRecordV1)
    {membership : MembershipRecordV1} (hworld : membership.worldId = site.world) :
    Tame C site heard base (ensurePromotedMembership C site texts epoch membership) := by
  refine always_check fun _ _ => .onlyIf fun _ => always_check fun promoted hpromoted => ?_
  exact tame_saveMembershipRecord ((nextMembership_worldId hpromoted).trans hworld)

theorem tame_ensureRecoveryArtifacts {epoch : EpochRecordV1} (hworld : epoch.worldId = site.world) :
    Tame C site heard base (ensureRecoveryArtifacts C site epoch) := by
  refine .bind (tame_ensurePromotedSnapshot _ epoch) fun _ => always_readStore fun store => ?_
  refine always_check fun membership hmembership => ?_
  rw [ofStorage_eq_ok, hworld] at hmembership
  exact tame_ensurePromotedMembership _ epoch (loadMembershipRecord_eq_ok.mp hmembership).2.1

/-! ## Keeping the permit -/

/-- The local peer is an active member and the authority of the stored record. -/
structure LocallyAuthorized (C : Crypto) (site : Site) (authority : LocalAuthority)
    (store : Store) : Prop where
  accepted : Accepted site store authority.epoch
  described : loadWorldDescriptor site.world store = .ok authority.descriptor
  named : authority.epoch.authorityPeerId = site.peer C
  active : ∃ member ∈ authority.descriptor.active, member.peerId = site.peer C

/-- It stays so while the two files stay. -/
theorem LocallyAuthorized.of_run {authority : LocalAuthority} {α : Type} {m : Daemon α}
    {files : List File} [Touches .plain files m] {t : Exec} {a : α}
    (h : LocallyAuthorized C site authority e.node.store) (hrun : m e = (.ok a, t))
    (hapart : ∀ file ∈ [File.epoch, .descriptor], file ∉ files) :
    LocallyAuthorized C site authority t.node.store := by
  have hepoch : t.node.store.epoch = _ := content_of_run hrun .epoch (hapart _ (by decide))
  have hdescriptor : t.node.store.descriptor = _ :=
    content_of_run hrun .descriptor (hapart _ (by decide))
  refine ⟨?_, ?_, h.named, h.active⟩
  · rw [Accepted, loadEpochRecord, hepoch]
    exact h.accepted
  · rw [loadWorldDescriptor, hdescriptor]
    exact h.described

variable {authority : LocalAuthority}

theorem along_refreshPermit (h : LocallyAuthorized C site authority e.node.store)
    (hmode : authority.epoch.mode ≠ .solo)
    (hquorum : leaseQuorum C site authority.descriptor authority.epoch.generation
      e.node.runtime = true) :
    Along (Follows C site heard base) (refreshPermit authority.epoch.generation) e := by
  obtain ⟨member, hactive, hlocal⟩ := h.active
  refine along_readRuntime (along_updateRuntime_bind (.quiet ?_) ?_)
  · exact quieter_same rfl rfl rfl rfl rfl
  · refine along_write_bind (.quiet ⟨rfl, rfl, rfl, rfl, rfl⟩) (along_record ?_)
    exact .refreshedPermit h.accepted h.described hmode h.named hactive hlocal hquorum

theorem along_settlePermit (h : LocallyAuthorized C site authority e.node.store) {quorum : Bool}
    (hmode : quorum = true → authority.epoch.mode ≠ .solo)
    (hquorum : quorum = leaseQuorum C site authority.descriptor authority.epoch.generation
      e.node.runtime) :
    Along (Follows C site heard base) (settlePermit C site authority quorum) e := by
  unfold settlePermit
  split
  · rename_i htrue
    exact along_refreshPermit h (hmode htrue) (hquorum ▸ htrue)
  · exact tame (by decide) e

variable (C) in
/-- A record is the direct successor of another one. -/
structure DirectSuccessor (base record : EpochRecordV1) : Prop where
  epoch : record.epochNumber = base.epochNumber + 1
  fencingToken : record.fencingToken = base.fencingToken + 1
  previous : record.previousEpochHash = some (epochRecordHash C base)

/-- A direct successor of the accepted record extends it. -/
theorem DirectSuccessor.extends {store : Store} {current next : EpochRecordV1}
    (h : DirectSuccessor C current next) (hcurrent : Accepted site store current) :
    Extends C site store next := by
  intro found hfound
  rw [Accepted] at hcurrent hfound
  rw [hcurrent, Except.ok.injEq] at hfound
  subst hfound
  exact ⟨h.epoch, h.fencingToken, h.previous⟩

/-- The record that ends solo mode extends the accepted one. -/
theorem soloToQuorumRecord_eq_ok {store : Store} {next : EpochRecordV1}
    (h : soloToQuorumRecord C site authority store = .ok next) :
    next.worldId = authority.descriptor.worldId ∧ next.mode = .quorum ∧
      DirectSuccessor C authority.epoch next := by
  simp only [soloToQuorumRecord, bind_eq_ok, pure_eq_ok] at h
  obtain ⟨_, _, _, _, generation, hgeneration, rfl⟩ := h
  obtain ⟨hepoch, htoken⟩ := nextGeneration_eq_ok hgeneration
  exact ⟨rfl, rfl, hepoch, htoken, rfl⟩

/-- A record that is not the result of a recovery and extends a known accepted one. -/
theorem along_saveInstalled {record current : EpochRecordV1} (hworld : record.worldId = site.world)
    (hmode : record.mode ≠ .recovery) (hcurrent : Accepted site e.node.store current)
    (hnext : DirectSuccessor C current record) :
    Along (Follows C site heard base) (save [.storedEpoch record] (saveEpochRecord record)) e :=
  along_save fun _ h => .installed hworld hmode (hnext.extends hcurrent) h

variable (h : LocallyAuthorized C site authority e.node.store)

include h

/-- The record that ends solo mode. -/
theorem along_promoteSoloToQuorum :
    Along (Follows C site heard base) (promoteSoloToQuorum C site authority) e := by
  refine along_readStore (along_check fun next hnext => ?_)
  obtain ⟨hworld, hmode, hextends⟩ := soloToQuorumRecord_eq_ok hnext
  have hdescribed := (loadWorldDescriptor_eq_ok.mp h.described).2.1
  refine along_bind (along_saveInstalled (hworld.trans hdescribed) ?_ h.accepted hextends)
    fun _ t _ => ?_
  · rw [hmode]
    decide
  · exact tame (by decide) t

/-- The leases of the local authority. -/
theorem along_maintainLeases :
    Along (Follows C site heard base) (maintainLeases C site authority) e := by
  refine along_check fun lease _ => along_bind (tame (by decide) e) fun _ t hsent => ?_
  have hlocal := h.of_run hsent (by decide)
  refine along_readRuntime ?_
  dsimp only
  split
  · refine along_bind (tame (by decide) t) fun _ u hrefreshed => ?_
    have hkept := hlocal.of_run hrefreshed (by decide)
    exact along_bind (along_promoteSoloToQuorum hkept) fun _ v _ => tame (by decide) v
  · rename_i hnot
    refine along_bind (along_settlePermit hlocal (fun htrue hsolo => hnot ⟨htrue, hsolo⟩) rfl)
      fun _ u hsettled => ?_
    have hkept := hlocal.of_run hsettled (by decide)
    rw [(loadWorldDescriptor_eq_ok.mp h.described).2.1]
    exact along_write (.releasedRecovery (loadEpochRecord_eq_ok.mp hkept.accepted).1)

theorem along_maintainLocalAuthority :
    Along (Follows C site heard base) (maintainLocalAuthority C site authority) e := by
  unfold maintainLocalAuthority
  split
  · refine along_bind (tame (by decide) e) fun confirmed t hrun => ?_
    split
    · exact along_maintainLeases (h.of_run hrun (by decide))
    · exact tame (by decide) t
  · exact along_maintainLeases h

end SwarmCraft
