import SwarmCraft.Refinement.Tick

/-!
# Committing a membership certificate

A certificate is archived and published before it is applied, and applying it repeats
the checks of another layer. This module says exactly what that layer demands beyond the
checks that came before, and what the steps leave behind.
-/

namespace SwarmCraft

open Checked Effect

variable {C : Crypto} {site : Site} {host : LocalHost} {certificate : MembershipCertificateV1}
  {store : Store} {e : Exec}
variable {record : MembershipRecordV1} {world : WorldId} {archived : Store}
variable {error : StorageError} {join : JoinRequestV1} {metadata : WorldMetadataV1}
  {descriptor : WorldDescriptorV1}

/-! ## What saving the record demands -/

/-- The accepted epoch record, where one can be loaded, has the epoch and authority of the
record. -/
def Store.epochAllows (store : Store) (record : MembershipRecordV1) : Bool :=
  (optional (loadEpochRecord record.worldId store)).all (matchesEpochAuthority record)

/-- What `save_membership_record` demands of the store for the record of a checked certificate:
it is there already, or the accepted epoch allows it and the file is readable, or missing in a
known world. -/
def Store.recordAccepted (C : Crypto) (store : Store) (record : MembershipRecordV1) : Bool :=
  match loadMembershipRecord record.worldId store with
  | .ok current => decide (current = record) || store.epochAllows record
  | .error _ => decide (store.membership = .absent) &&
      (optional (loadWorld C record.worldId store)).isSome && store.epochAllows record

/-- The record of a certificate that passed its checks is well formed. -/
theorem validateMembershipCertificateSignatures_semantics
    (h : validateMembershipCertificateSignatures C certificate = .ok ()) :
    certificate.proposal.proposed.validateSemantics = .ok () := by
  simp only [validateMembershipCertificateSignatures, verifyMembershipSignature, bind_eq_ok,
    ofCore_eq_ok, mapError_eq_ok] at h
  obtain ⟨_, _, _, ⟨_, hvalid, _⟩, _⟩ := h
  exact hvalid

/-- The epoch check at the end of `save_membership_record`, where the other branch passes. -/
theorem epochCheck_iff {otherwise : Prop} [Decidable otherwise]
    {saved : Store} (hother : otherwise) :
    (∃ store', (match loadEpochRecord record.worldId store with
      | .ok epoch => do
        ensure (matchesEpochAuthority record epoch = true) StorageError.worldMetadataMismatch
        pure saved
      | .error _ => do
        ensure otherwise StorageError.worldMetadataMismatch
        pure saved : Except StorageError Store) = .ok store') ↔
      store.epochAllows record = true := by
  unfold Store.epochAllows
  cases hload : loadEpochRecord record.worldId store with
  | ok epoch =>
    simp only [bind_eq_ok, ensure_eq_ok, pure_eq_ok, exists_const, Checked.optional, Option.all_some]
    exact ⟨fun ⟨_, h, _⟩ => h, fun h => ⟨saved, h, rfl⟩⟩
  | error error =>
    simp only [bind_eq_ok, ensure_eq_ok, pure_eq_ok, exists_const, Checked.optional, Option.all_none]
    exact ⟨fun _ => trivial, fun _ => ⟨saved, hother, rfl⟩⟩

/-- A certificate that passes where no record can be loaded contains the staged join, and its
authority issued the invitation. -/
theorem validateMembershipProposalForLocal_join {proposal : MembershipProposalV1}
    (h : validateMembershipProposalForLocal C site host proposal store = .ok ())
    (hload : loadMembershipRecord proposal.proposed.worldId store = .error error) :
    ∃ join, loadPendingJoin C proposal.proposed.worldId store = .ok join ∧
      join.joiningMember.peerId = site.peer C ∧
      proposal.proposed.find (site.peer C) = some join.joiningMember ∧
      join.invite.inviterPeerId = proposal.previous.authorityPeerId ∧
      join.invite.inviterPublicKey = proposal.previous.authorityPublicKey := by
  simp only [validateMembershipProposalForLocal, hload, bind_eq_ok, required_eq_ok,
    guardMessage_eq_ok, ofCore_eq_ok, context_eq_ok, exists_const] at h
  obtain ⟨_, _, _, join, hjoin, _, _, _, _, _, hpeer, _, hfind, hinviter, hkey⟩ := h
  exact ⟨join, hjoin, hpeer, hfind, hinviter, hkey⟩

/-- A staged join belongs to its world, and so does its invitation. -/
theorem loadPendingJoin_world (h : loadPendingJoin C world store = .ok join) :
    store.pendingJoin = .present join ∧ join.worldId = world ∧ join.invite.worldId = world ∧
      join.invite.genesis.worldId C = world := by
  simp only [loadPendingJoin, DurableFile.load_eq_ok, requireWorld, asStorage, bind_eq_ok,
    ensure_eq_ok, mapError_eq_ok, JoinRequestV1.validateSemantics, JoinRequestV1.validateShape,
    Bool.and_eq_true, decide_eq_true_eq, exists_const] at h
  obtain ⟨hfile, rfl, ⟨⟨⟨⟨⟨_, _⟩, hinvite⟩, hgenesis⟩, _⟩, _⟩, _⟩ := h
  exact ⟨hfile, rfl, hinvite, hgenesis⟩

/-- The metadata of a world carries its genesis. -/
theorem loadWorld_genesis
    (h : loadWorld C world store = .ok metadata) : metadata.genesis.worldId C = world := by
  simp only [loadWorld, bind_eq_ok, ensure_eq_ok, exists_const, DurableFile.load_eq_ok] at h
  exact h.2.2.2

/-- A world id determines the genesis. -/
theorem WorldGenesisV1.worldId_inj {a b : WorldGenesisV1} : a.worldId C = b.worldId C ↔ a = b := by
  unfold WorldGenesisV1.worldId
  rw [WorldId.mk.injEq, C.hash_injective.eq_iff, HashInput.worldGenesis.injEq]

/-- With the certificate published, a checked certificate bootstraps the membership of a known
world. -/
theorem certifiedMembershipBootstrap_eq (hshape : certificate.proposal.validateShape C = true)
    (hlocal : validateMembershipProposalForLocal C site host certificate.proposal store = .ok ())
    (hpublished : store.membershipCertificate = .present certificate)
    (hload : loadMembershipRecord certificate.proposal.proposed.worldId store = .error error)
    (hmetadata : loadWorld C certificate.proposal.proposed.worldId store = .ok metadata) :
    certifiedMembershipBootstrap C certificate.proposal.proposed store = .ok true := by
  obtain ⟨join, hjoin, hpeer, hfind, hinviter, hkey⟩ :=
    validateMembershipProposalForLocal_join hlocal hload
  obtain ⟨hfile, hjoinWorld, hinviteWorld, hgenesis⟩ := loadPendingJoin_world hjoin
  have hcertificate : loadMembershipCertificate certificate.proposal.proposed.worldId store =
      .ok certificate := by
    simp [loadMembershipCertificate, requireWorld, hpublished]
  have hsame : join.invite.genesis = metadata.genesis :=
    WorldGenesisV1.worldId_inj.mp (hgenesis.trans (loadWorld_genesis hmetadata).symm)
  have hmember : join.joiningMember ∈ certificate.proposal.proposed.members :=
    List.mem_of_find?_eq_some hfind
  simp [certifiedMembershipBootstrap, hpublished, hfile, DurableFile.exists, hcertificate, hjoin,
    hmetadata, hshape, hjoinWorld, hinviteWorld, hsame, hinviter, hkey, hmember, bind, Except.bind,
    pure, Except.pure]

/-- Where no record is stored, the record of a checked certificate is saved exactly when the world
is known and the accepted epoch allows the record. -/
theorem exists_saveMembershipRecord_absent (habsent : store.membership = .absent)
    (hsignatures : validateMembershipCertificateSignatures C certificate = .ok ())
    (hlocal : validateMembershipProposalForLocal C site host certificate.proposal store = .ok ())
    (hpublished : store.membershipCertificate = .present certificate) :
    (∃ store', saveMembershipRecord C certificate.proposal.proposed store = .ok store') ↔
      store.recordAccepted C certificate.proposal.proposed = true := by
  have hload : loadMembershipRecord certificate.proposal.proposed.worldId store =
      .error .notFound := by
    simp [loadMembershipRecord, habsent, DurableFile.load, DurableFile.read, bind, Except.bind]
  have hvalid := validateMembershipCertificateSignatures_semantics hsignatures
  have hshape := validateMembershipCertificateSignatures_shape hsignatures
  simp only [saveMembershipRecord, Store.recordAccepted, hload, habsent, DurableFile.exists,
    bind_eq_ok, asStorage, mapError_eq_ok, hvalid, true_and, exists_const, Bool.false_eq_true,
    if_false, decide_true, Bool.true_and, Bool.and_eq_true]
  cases hmetadata : loadWorld C certificate.proposal.proposed.worldId store with
  | error error =>
    -- The bootstrap check itself fails: the join is staged, the metadata is not there.
    obtain ⟨join, hjoin, _⟩ := validateMembershipProposalForLocal_join hlocal hload
    have hfile := (loadPendingJoin_world hjoin).1
    simp [certifiedMembershipBootstrap, hpublished, hfile, DurableFile.exists, hmetadata,
      Checked.optional]
  | ok metadata =>
    have hcertified := certifiedMembershipBootstrap_eq hshape hlocal hpublished hload hmetadata
    simp only [hcertified, Except.ok.injEq, exists_eq_left', Checked.optional, Option.isSome_some,
      true_and, ensure_eq_ok, true_or, exists_const]
    exact epochCheck_iff (.inr trivial)

/-- Over a record that can be loaded, the record of a checked certificate is saved exactly when it
is there already or the accepted epoch allows it. -/
theorem exists_saveMembershipRecord_loaded {current : MembershipRecordV1}
    (hload : loadMembershipRecord certificate.proposal.proposed.worldId store = .ok current)
    (hsignatures : validateMembershipCertificateSignatures C certificate = .ok ())
    (hextends : current = certificate.proposal.proposed ∨ current = certificate.proposal.previous) :
    (∃ store', saveMembershipRecord C certificate.proposal.proposed store = .ok store') ↔
      store.recordAccepted C certificate.proposal.proposed = true := by
  have hvalid := validateMembershipCertificateSignatures_semantics hsignatures
  have hshape := validateMembershipCertificateSignatures_shape hsignatures
  have hfile := (loadMembershipRecord_eq_ok.mp hload).1
  simp only [saveMembershipRecord, Store.recordAccepted, hload, hfile, DurableFile.exists,
    bind_eq_ok, asStorage, mapError_eq_ok, hvalid, true_and, exists_const, if_true,
    Except.ok.injEq, exists_eq_left', Bool.or_eq_true, decide_eq_true_eq]
  by_cases heq : certificate.proposal.proposed = current
  · simp [heq]
  · obtain rfl : current = certificate.proposal.previous :=
      hextends.resolve_left fun h => heq h.symm
    obtain ⟨hsequence, hhash⟩ := MembershipProposalV1.validateShape_extends hshape
    obtain ⟨hepoch, hpeer, hkey⟩ := MembershipProposalV1.validateShape_authority hshape
    have hne : certificate.proposal.previous ≠ certificate.proposal.proposed := fun h => heq h.symm
    simp only [if_neg heq, hsequence, hhash, hne, false_or, bind_eq_ok, required_eq_ok,
      Option.some.injEq, exists_eq_left', ensure_eq_ok, true_and, le_of_eq hepoch, exists_const]
    exact epochCheck_iff ⟨hepoch.symm, hpeer.symm, hkey.symm⟩

/-- The record of a checked certificate that is published is saved exactly when the store accepts
it. -/
theorem exists_saveMembershipRecord_iff
    (hvalid : validateMembershipCertificateForLocal C site host certificate store = .ok ())
    (hpublished : store.membershipCertificate = .present certificate) :
    (∃ store', saveMembershipRecord C certificate.proposal.proposed store = .ok store') ↔
      store.recordAccepted C certificate.proposal.proposed = true := by
  simp only [validateMembershipCertificateForLocal, bind_eq_ok] at hvalid
  obtain ⟨_, hsignatures, _, hextends, _⟩ := hvalid
  unfold extendsCommittedConfiguration at hextends
  cases hload : loadMembershipRecord certificate.proposal.proposed.worldId store with
  | ok current =>
    simp only [hload, bind_eq_ok, guardMessage_eq_ok, MembershipRecordV1.recordHash_inj] at hextends
    obtain ⟨_, _, hextends⟩ := hextends
    exact exists_saveMembershipRecord_loaded hload hsignatures hextends
  | error error =>
    simp only [hload] at hextends
    by_cases habsent : store.membership = .absent
    · exact exists_saveMembershipRecord_absent habsent hsignatures hextends hpublished
    · -- A file that cannot be loaded is not overwritten.
      have hexists : store.membership.exists = true := by
        cases hfile : store.membership with
        | absent => exact absurd hfile habsent
        | unreadable => rfl
        | present record => rfl
      simp [saveMembershipRecord, hexists, hload, Store.recordAccepted, habsent]

/-! ## Applying a certificate -/

/-- The descriptor that a commit leaves. -/
def WorldDescriptorV1.committed (descriptor : WorldDescriptorV1) (record : MembershipRecordV1) :
    WorldDescriptorV1 :=
  { descriptor with members := record.members }

/-- The descriptor of a well-formed record is normalized. -/
theorem WorldDescriptorV1.normalize_committed (descriptor : WorldDescriptorV1)
    (hvalid : record.validateSemantics = .ok ()) :
    (descriptor.committed record).normalize = descriptor.committed record :=
  normalize_of_strict (MembershipRecordV1.validateSemantics_eq_ok.mp hvalid).2.2

/-- The descriptor of a well-formed record can be saved. -/
theorem saveWorldDescriptor_committed (hload : loadWorldDescriptor world store = .ok descriptor)
    (hvalid : record.validateSemantics = .ok ()) (store' : Store) :
    saveWorldDescriptor (descriptor.committed record) store' =
      .ok { store' with descriptor := .present (descriptor.committed record) } := by
  have hversion := (WorldDescriptorV1.validateSemantics_eq_ok.mp
    (loadWorldDescriptor_eq_ok.mp hload).2.2).1
  have hordered := (MembershipRecordV1.validateSemantics_eq_ok.mp hvalid).2
  have hsemantics : (descriptor.committed record).validateSemantics = .ok () :=
    WorldDescriptorV1.validateSemantics_eq_ok.mpr ⟨hversion, hordered⟩
  simp only [saveWorldDescriptor, descriptor.normalize_committed hvalid, bind_eq_ok, ensure_eq_ok,
    asStorage, mapError_eq_ok, pure_eq_ok]
  exact ⟨(), trivial, (), hsemantics, trivial⟩

/-- A certificate that passes the checks for the local peer passes those of the commit. -/
theorem appliesTo_of_valid
    (hvalid : validateMembershipCertificateForLocal C site host certificate store = .ok ()) :
    validateMembershipCertificateSignatures C certificate = .ok () ∧
      appliesTo C certificate.proposal store = .ok () := by
  simp only [validateMembershipCertificateForLocal, bind_eq_ok] at hvalid
  obtain ⟨_, hsignatures, _, hextends, _⟩ := hvalid
  refine ⟨hsignatures, ?_⟩
  unfold extendsCommittedConfiguration at hextends
  unfold appliesTo
  cases hload : loadMembershipRecord certificate.proposal.proposed.worldId store with
  | ok current =>
    simp only [hload, bind_eq_ok] at hextends
    obtain ⟨_, _, hextends⟩ := hextends
    simpa using hextends
  | error error =>
    simp only [hload] at hextends
    obtain ⟨join, hjoin, hpeer, hfind, _⟩ := validateMembershipProposalForLocal_join hextends hload
    simp only [bind_eq_ok, context_eq_ok, guardMessage_eq_ok]
    exact ⟨join, hjoin, by rw [hpeer, hfind]⟩

/-- What the checks of a commit answer after those for the local peer. -/
theorem applyMembershipChecks_eq
    (hvalid : validateMembershipCertificateForLocal C site host certificate store = .ok ()) :
    applyMembershipChecks C certificate store =
      (ofStorage (loadWorldDescriptor certificate.proposal.proposed.worldId store)).map
        fun descriptor => descriptor.committed certificate.proposal.proposed := by
  obtain ⟨hsignatures, happlies⟩ := appliesTo_of_valid hvalid
  have hsemantics := validateMembershipCertificateSignatures_semantics hsignatures
  unfold applyMembershipChecks
  rw [hsignatures]
  dsimp only [bind, Except.bind]
  rw [happlies]
  cases loadWorldDescriptor certificate.proposal.proposed.worldId store with
  | error error => rfl
  | ok descriptor => exact congrArg Except.ok (descriptor.normalize_committed hsemantics)

/-- The state in which a commit stored the record and the descriptor and dropped the prepare. -/
def Exec.committed (C : Crypto) (record : MembershipRecordV1) (descriptor : WorldDescriptorV1)
    (e : Exec) : Exec :=
  let recorded := e.written { e.node.store with membership := .present record } []
  let described := recorded.written
    { recorded.node.store with descriptor := .present (descriptor.committed record) } []
  described.written
    (clearMembershipPromiseAfterCommit C record.worldId (record.recordHash C)
      described.node.store) []

theorem Exec.committed_membership (record : MembershipRecordV1) (descriptor : WorldDescriptorV1)
    (e : Exec) : (e.committed C record descriptor).node.store.membership = .present record :=
  congrArg Store.membership (clearMembershipPromise_keeps record.worldId record _)

/-- A commit stores the descriptor of the record. -/
theorem Exec.committed_descriptor (record : MembershipRecordV1) (descriptor : WorldDescriptorV1)
    (e : Exec) : (e.committed C record descriptor).node.store.descriptor =
      .present (descriptor.committed record) :=
  congrArg Store.descriptor (clearMembershipPromise_keeps record.worldId record _)

/-- A commit that the store accepts stores everything. -/
theorem applyMembershipCertificate_accepted
    (hvalid : validateMembershipCertificateForLocal C site host certificate e.node.store = .ok ())
    (hpublished : e.node.store.membershipCertificate = .present certificate)
    (hload : loadWorldDescriptor certificate.proposal.proposed.worldId e.node.store =
      .ok descriptor)
    (haccepted : e.node.store.recordAccepted C certificate.proposal.proposed = true) :
    applyMembershipCertificate C certificate e =
      clearSatisfiedPendingMembership C (descriptor.committed certificate.proposal.proposed)
        (e.committed C certificate.proposal.proposed descriptor) := by
  have hsemantics := validateMembershipCertificateSignatures_semantics (appliesTo_of_valid hvalid).1
  have hchecks : applyMembershipChecks C certificate e.node.store =
      .ok (descriptor.committed certificate.proposal.proposed) := by
    rw [applyMembershipChecks_eq hvalid, hload]
    rfl
  obtain ⟨saved, hsaved⟩ := (exists_saveMembershipRecord_iff hvalid hpublished).mpr haccepted
  obtain rfl := (saveMembershipRecord_eq_ok hsaved).1
  have hdescribed := saveWorldDescriptor_committed hload hsemantics
    { e.node.store with membership := .present certificate.proposal.proposed }
  change (check (applyMembershipChecks C certificate e.node.store) >>= _) e = _
  rw [check_bind hchecks, save_bind hsaved, save_bind hdescribed]
  rfl

/-- A commit that the store does not accept changes nothing. -/
theorem applyMembershipCertificate_refused
    (hvalid : validateMembershipCertificateForLocal C site host certificate e.node.store = .ok ())
    (hpublished : e.node.store.membershipCertificate = .present certificate)
    (hrefused : ∀ descriptor,
      loadWorldDescriptor certificate.proposal.proposed.worldId e.node.store = .ok descriptor →
        e.node.store.recordAccepted C certificate.proposal.proposed = false) :
    ∃ error, applyMembershipCertificate C certificate e = (.error error, e) := by
  change ∃ error, (check (applyMembershipChecks C certificate e.node.store) >>= _) e =
    (.error error, e)
  rw [applyMembershipChecks_eq hvalid]
  cases hload : loadWorldDescriptor certificate.proposal.proposed.worldId e.node.store with
  | error error => exact ⟨.storage error, rfl⟩
  | ok descriptor =>
    cases hsaved : saveMembershipRecord C certificate.proposal.proposed e.node.store with
    | ok saved =>
      have haccepted := (exists_saveMembershipRecord_iff hvalid hpublished).mp ⟨saved, hsaved⟩
      rw [hrefused descriptor hload] at haccepted
      cases haccepted
    | error error =>
      refine ⟨.storage error, ?_⟩
      change Action.bind (save [] (saveMembershipRecord C certificate.proposal.proposed)) _ e = _
      simp only [Action.bind, save, hsaved]

/-! ## Staged requests -/

/-- The staged join came true with the member list. -/
def joinSatisfied (record : MembershipRecordV1) (join : JoinRequestV1) : Bool :=
  (record.find join.joiningMember.peerId).any fun member =>
    decide (member.publicKey = join.joiningMember.publicKey ∧ member.banned = false)

/-- The staged leave came true with the member list. -/
def leaveSatisfied (record : MembershipRecordV1) (leave : LeaveRequestV1) : Bool :=
  decide (record.find leave.leavingPeerId = none)

/-- No staged request is left that came true with the member list. -/
def Store.NothingSatisfied (C : Crypto) (world : WorldId) (record : MembershipRecordV1)
    (store : Store) : Prop :=
  (∀ join, loadPendingJoin C world store = .ok join → joinSatisfied record join = false) ∧
    ∀ leave, loadPendingLeave C world store = .ok leave → leaveSatisfied record leave = false

/-- The join that a descriptor satisfies is the one that its record satisfies. -/
theorem joinSatisfied_iff (descriptor : WorldDescriptorV1) :
    joinSatisfied record join = true ↔
      ∃ member, (descriptor.committed record).member join.joiningMember.peerId = some member ∧
        member.publicKey = join.joiningMember.publicKey ∧ member.banned = false := by
  unfold joinSatisfied MembershipRecordV1.find WorldDescriptorV1.member
  simp only [WorldDescriptorV1.committed, Option.any_eq_true, decide_eq_true_eq]

/-- Clearing the staged join returns, and no join that came true is left. -/
theorem clearSatisfiedJoin_returns (descriptor : WorldDescriptorV1) (record : MembershipRecordV1)
    (e : Exec) :
    ∃ t, (onSome (Checked.optional (loadPendingJoin C descriptor.worldId e.node.store)) fun join =>
        onSome ((descriptor.committed record).member join.joiningMember.peerId) fun member =>
          onlyIf (member.publicKey = join.joiningMember.publicKey ∧ member.banned = false)
            (write clearPendingJoin)) e = (.ok (), t) ∧
      (∀ join, loadPendingJoin C descriptor.worldId t.node.store = .ok join →
        joinSatisfied record join = false) ∧
      t.node.store.pendingLeave = e.node.store.pendingLeave := by
  cases hload : loadPendingJoin C descriptor.worldId e.node.store with
  | error error =>
    refine ⟨e, rfl, fun join hjoin => ?_, rfl⟩
    rw [hload] at hjoin
    cases hjoin
  | ok join =>
    simp only [Checked.optional, onSome]
    by_cases hsatisfied : joinSatisfied record join = true
    · obtain ⟨member, hmember, hkey⟩ := (joinSatisfied_iff descriptor).mp hsatisfied
      simp only [hmember, onlyIf, if_pos hkey]
      refine ⟨_, rfl, fun found hfound => ?_, rfl⟩
      simp [loadPendingJoin, Exec.written, clearPendingJoin] at hfound
    · refine ⟨e, ?_, fun found hfound => ?_, rfl⟩
      · cases hmember : (descriptor.committed record).member join.joiningMember.peerId with
        | none => rfl
        | some member =>
          have hnot : ¬ (member.publicKey = join.joiningMember.publicKey ∧ member.banned = false) :=
            fun hkey => hsatisfied ((joinSatisfied_iff descriptor).mpr ⟨member, hmember, hkey⟩)
          simp only [onlyIf, if_neg hnot]
          rfl
      · rw [hload, Except.ok.injEq] at hfound
        rw [← hfound]
        exact Bool.eq_false_iff.mpr hsatisfied

/-- Clearing the staged leave returns, and no leave that came true is left. -/
theorem clearSatisfiedLeave_returns (descriptor : WorldDescriptorV1) (record : MembershipRecordV1)
    {store : Store} {e : Exec} (hstore : store.pendingLeave = e.node.store.pendingLeave) :
    ∃ t, (onSome (Checked.optional (loadPendingLeave C descriptor.worldId store)) fun leave =>
        onlyIf ((descriptor.committed record).member leave.leavingPeerId = none)
          (write clearPendingLeave)) e = (.ok (), t) ∧
      (∀ leave, loadPendingLeave C descriptor.worldId t.node.store = .ok leave →
        leaveSatisfied record leave = false) ∧
      t.node.store.pendingJoin = e.node.store.pendingJoin := by
  have hsame : loadPendingLeave C descriptor.worldId store =
      loadPendingLeave C descriptor.worldId e.node.store := by
    simp only [loadPendingLeave, hstore]
  rw [hsame]
  cases hload : loadPendingLeave C descriptor.worldId e.node.store with
  | error error =>
    refine ⟨e, rfl, fun leave hleave => ?_, rfl⟩
    rw [hload] at hleave
    cases hleave
  | ok leave =>
    simp only [Checked.optional, onSome, onlyIf]
    by_cases hgone : (descriptor.committed record).member leave.leavingPeerId = none
    · rw [if_pos hgone]
      refine ⟨_, rfl, fun found hfound => ?_, rfl⟩
      simp [loadPendingLeave, Exec.written, clearPendingLeave] at hfound
    · rw [if_neg hgone]
      refine ⟨e, rfl, fun found hfound => ?_, rfl⟩
      rw [hload, Except.ok.injEq] at hfound
      rw [← hfound]
      exact decide_eq_false hgone

/-- Clearing the staged requests returns, and none that came true is left. -/
theorem clearSatisfiedPendingMembership_returns (descriptor : WorldDescriptorV1)
    (record : MembershipRecordV1) (e : Exec) :
    ∃ t, clearSatisfiedPendingMembership C (descriptor.committed record) e = (.ok (), t) ∧
      t.node.store.NothingSatisfied C descriptor.worldId record := by
  obtain ⟨t, hjoinRun, hjoin, hleaveFile⟩ :=
    clearSatisfiedJoin_returns (C := C) descriptor record e
  obtain ⟨u, hleaveRun, hleave, hjoinFile⟩ :=
    clearSatisfiedLeave_returns (C := C) descriptor record hleaveFile.symm
  refine ⟨u, ?_, fun join hload => hjoin join ?_, hleave⟩
  · exact (bind_of_run hjoinRun).trans hleaveRun
  · rw [← hload]
    simp only [loadPendingJoin, hjoinFile]

/-! ## Publishing a certificate -/

/-- Archiving writes the archive only. -/
theorem archiveMembershipCertificate_eq_ok
    (h : archiveMembershipCertificate certificate store = .ok archived) :
    archived = { store with membershipCertificates := archived.membershipCertificates } := by
  unfold archiveMembershipCertificate at h
  split at h
  · simp only [bind_eq_ok, pure_eq_ok] at h
    obtain ⟨_, _, rfl⟩ := h
    rfl
  · rw [pure_eq_ok] at h
    rw [← h]

/-- The state in which the certificate is archived and published. -/
def Exec.published (certificate : MembershipCertificateV1) (archived : Store) (e : Exec) : Exec :=
  (e.written archived []).written (publishMembershipCertificate certificate archived) []

/-- Saving a certificate that the archive takes. -/
theorem saveMembershipCertificate_run
    (h : archiveMembershipCertificate certificate e.node.store = .ok archived) :
    saveMembershipCertificate certificate e = (.ok (), e.published certificate archived) :=
  save_bind h

/-- The checks for the local peer do not read the certificates. -/
theorem validateMembershipCertificateForLocal_published
    (h : archiveMembershipCertificate certificate store = .ok archived) :
    validateMembershipCertificateForLocal C site host certificate
        (publishMembershipCertificate certificate archived) =
      validateMembershipCertificateForLocal C site host certificate store := by
  rw [archiveMembershipCertificate_eq_ok h]
  rfl

end SwarmCraft
