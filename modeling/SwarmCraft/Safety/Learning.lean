import SwarmCraft.Safety.Supersession
import SwarmCraft.Safety.MembershipFence

/-!
# Epoch records form a chain, and a decided recovery is learned

The daemon and the command line write the epoch record from seven places. Each reads the
accepted record, builds or checks its direct successor, and saves it later; other writers
may come in between. The storage layer only compares generations, but a record that is
behind by then is refused, so a save that replaces a record replaces the one that was read.

A candidate that collected a quorum of votes sends its record with the certificate to the
others. A peer that still accepts exactly the base of the certificate takes the record
over, unless a prepared membership change or a promise of its own fences it.
-/

namespace SwarmCraft

open Checked Effect Transition
open Founding (first second third numbered gather canvass)

variable {C : Crypto}

section

variable {site : Site} {store : Store} {current record base next : EpochRecordV1}

/-! ## Writers -/

variable (C site) in
/-- What a code path is about to save after it has read the store. -/
inductive EpochPlan (store : Store) : EpochRecordV1 → Prop where
  /-- The `Epoch` handler. -/
  | epochMessage {record : EpochRecordV1} (world : record.worldId = site.world)
      (checked : newEpochChecks C record store = .ok ()) : EpochPlan store record
  /-- The `RecoveryEpoch` handler. -/
  | recoveryMessage {record : EpochRecordV1} {certificate : RecoveryCertificateV1}
      (world : record.worldId = site.world)
      (checked : newRecoveryEpochChecks C record certificate store = .ok ()) :
      EpochPlan store record
  /-- `activate_manual_transfer`. -/
  | activated {token : AuthorityTransferV1} {record : EpochRecordV1}
      (checked : activateTransferChecks C site token store = .ok record) : EpochPlan store record
  /-- `observe_manual_transfer_epoch`. -/
  | observed {record : EpochRecordV1} (checked : observeTransferChecks C site record store = .ok ()) :
      EpochPlan store record
  /-- `prepare_authority_epoch` of a sleeping world. -/
  | wokenSolo {sleep : SleepRecordV1} {latest : SnapshotManifestV1} {record : EpochRecordV1}
      (checked : soloWakeRecord C site sleep latest store = .ok record) : EpochPlan store record
  /-- `prepare_authority_epoch` of a world without an accepted record. -/
  | first {latest : SnapshotManifestV1}
      (missing : ∀ current, loadEpochRecord site.world store ≠ .ok current) :
      EpochPlan store (initialAuthorityRecord C site latest)
  /-- `promote_solo_to_quorum`, which reads the head after the record. -/
  | restoredQuorum {authority : LocalAuthority} {record : EpochRecordV1} {later : Store}
      (read : loadEpochRecord site.world store = .ok authority.epoch)
      (world : authority.descriptor.worldId = site.world)
      (built : soloToQuorumRecord C site authority later = .ok record) : EpochPlan store record
  /-- `promote_recovery_epoch`. -/
  | promotedRecovery {attempt : RecoveryAttempt} {record : EpochRecordV1}
      (read : loadEpochRecord site.world store = .ok attempt.previous)
      (built : recoveryEpochRecord C site attempt = .ok record) : EpochPlan store record

/-- The store that the two processes share, and the records that their code paths are about to
save. -/
structure Writers where
  store : Store
  planned : List EpochRecordV1

variable {w : Writers}

variable (C site) in
/-- One step of one of the processes. -/
inductive WriterStep (w : Writers) : Writers → Prop where
  /-- A code path reads the store. -/
  | read {record : EpochRecordV1} (plan : EpochPlan C site w.store record) :
      WriterStep w { w with planned := record :: w.planned }
  /-- A code path saves its record under the world lock. -/
  | save {record : EpochRecordV1} {store : Store} (mem : record ∈ w.planned)
      (saved : saveEpochRecord record w.store = .ok store) :
      WriterStep w ⟨store, w.planned.erase record⟩
  /-- Code paths fail or are cut off by a crash. -/
  | drop {planned : List EpochRecordV1} (fewer : planned ⊆ w.planned) :
      WriterStep w { w with planned := planned }
  /-- Any other file is written. -/
  | other {store : Store} (same : store.epoch = w.store.epoch) :
      WriterStep w { w with store := store }

/-! ## Direct successors -/

/-- A record that one of the code paths builds or accepts extends the record that it read. -/
theorem EpochPlan.directSuccessor
    (h : EpochPlan C site store record) (hcurrent : loadEpochRecord site.world store = .ok current) :
    record.worldId = site.world ∧ DirectSuccessor C current record := by
  have hread : ∀ found, loadEpochRecord site.world store = .ok found → found = current := by
    intro found hfound
    rw [hcurrent, Except.ok.injEq] at hfound
    exact hfound.symm
  cases h with
  | epochMessage world checked =>
    obtain ⟨hepoch, htoken, hhash⟩ := newEpochChecks_eq_ok world checked current hcurrent
    exact ⟨world, hepoch, htoken, hhash⟩
  | recoveryMessage world checked =>
    simp only [newRecoveryEpochChecks, bind_eq_ok, onSome_eq_ok, world] at checked
    obtain ⟨_, hextends, _⟩ := checked
    obtain ⟨hepoch, htoken, hhash⟩ :=
      extendsEpoch_eq_ok (hextends current (optional_eq_some.mpr hcurrent))
    exact ⟨world, hepoch, htoken, hhash⟩
  | activated checked =>
    obtain ⟨hworld, _, found, hfound, hextends⟩ := activateTransferChecks_eq_ok checked
    exact ⟨hworld, hread found hfound ▸ hextends⟩
  | observed checked =>
    obtain ⟨hworld, _, found, hfound, hextends⟩ := observeTransferChecks_eq_ok checked
    exact ⟨hworld, hread found hfound ▸ hextends⟩
  | wokenSolo checked =>
    obtain ⟨hworld, _, found, hfound, hextends⟩ := soloWakeRecord_eq_ok checked
    exact ⟨hworld, hread found hfound ▸ hextends⟩
  | first missing => exact absurd hcurrent (missing current)
  | restoredQuorum read world built =>
    obtain ⟨hworld, _, hextends⟩ := soloToQuorumRecord_eq_ok built
    exact ⟨hworld.trans world, hread _ read ▸ hextends⟩
  | promotedRecovery read built =>
    obtain ⟨hworld, _, _, hextends⟩ := recoveryEpochRecord_eq_ok built
    rw [hread _ read] at hworld hextends
    exact ⟨hworld.trans (loadEpochRecord_eq_ok.mp hcurrent).2.1, hextends⟩

/-! ## Interleavings -/

/-- A record was reached from another one by direct successors. -/
def Descends (base record : EpochRecordV1) : Prop :=
  record = base ∨
    base.epochNumber < record.epochNumber ∧ base.fencingToken < record.fencingToken

/-- A direct successor of a descendant is a descendant. -/
theorem Descends.step (h : Descends base record)
    (hnext : DirectSuccessor C record next) : Descends base next := by
  have hepoch := hnext.epoch
  have htoken := hnext.fencingToken
  rcases h with rfl | ⟨hlt, hlt'⟩
  · exact .inr ⟨by omega, by omega⟩
  · exact .inr ⟨by omega, by omega⟩

/-- A direct successor of an ancestor is ahead of a record only if that is the ancestor itself. -/
theorem Descends.eq_of_ahead (h : Descends base record)
    (hnext : DirectSuccessor C base next) (hlt : record.generation < next.generation) :
    record = base := by
  rcases h with heq | ⟨hepoch, htoken⟩
  · exact heq
  · exfalso
    have hnextEpoch := hnext.epoch
    have hnextToken := hnext.fencingToken
    rcases AuthorityGeneration.lt_iff.mp hlt with hlt | ⟨_, hlt⟩
    · change record.epochNumber < next.epochNumber at hlt
      omega
    · change record.fencingToken < next.fencingToken at hlt
      omega

variable (C site) in
/-- The stored record is readable, and every planned record extends an ancestor of it. -/
structure Writers.Planned (w : Writers) (current : EpochRecordV1) : Prop where
  readable : loadEpochRecord site.world w.store = .ok current
  planned : ∀ record ∈ w.planned, record.worldId = site.world ∧
    ∃ base, Descends base current ∧ DirectSuccessor C base record

/-- A planned save keeps the stored record or replaces it by its direct successor. -/
theorem Writers.Planned.save (h : w.Planned C site current) (hmem : record ∈ w.planned)
    (hsaved : saveEpochRecord record w.store = .ok store) :
    store = { w.store with epoch := .present record } ∧
      (record = current ∨ DirectSuccessor C current record) := by
  have hfile := (loadEpochRecord_eq_ok.mp h.readable).1
  obtain ⟨_, base, hdescends, hsuccessor⟩ := h.planned record hmem
  obtain ⟨hstore, habsent | hsame | ⟨existing, hexisting, hlt⟩⟩ := saveEpochRecord_eq_ok hsaved
  · rw [hfile] at habsent
    cases habsent
  · rw [hfile, DurableFile.present.injEq] at hsame
    exact ⟨hstore, .inl hsame.symm⟩
  · rw [hfile, DurableFile.present.injEq] at hexisting
    subst hexisting
    rw [hdescends.eq_of_ahead hsuccessor hlt]
    exact ⟨hstore, .inr hsuccessor⟩

/-- Every step keeps the plans of the writers behind the stored record. -/
theorem WriterStep.planned {v : Writers} (h : WriterStep C site w v)
    (hw : w.Planned C site current) : ∃ next, v.Planned C site next := by
  cases h with
  | @read record plan =>
    obtain ⟨hworld, hsuccessor⟩ := plan.directSuccessor hw.readable
    refine ⟨current, hw.readable, fun found hfound => ?_⟩
    rcases List.mem_cons.mp hfound with rfl | hold
    · exact ⟨hworld, current, .inl rfl, hsuccessor⟩
    · exact hw.planned found hold
  | @save record store mem saved =>
    obtain ⟨rfl, hnext⟩ := hw.save mem saved
    obtain ⟨hworld, _⟩ := hw.planned record mem
    refine ⟨record, ?_, fun found hfound => ?_⟩
    · exact loadEpochRecord_eq_ok.mpr ⟨rfl, hworld, saveEpochRecord_valid saved⟩
    · obtain ⟨hfoundWorld, base, hdescends, hsuccessor⟩ :=
        hw.planned found (List.mem_of_mem_erase hfound)
      refine ⟨hfoundWorld, base, ?_, hsuccessor⟩
      rcases hnext with rfl | hdirect
      · exact hdescends
      · exact hdescends.step hdirect
  | drop fewer => exact ⟨current, hw.readable, fun found hfound => hw.planned found (fewer hfound)⟩
  | other same =>
    refine ⟨current, ?_, hw.planned⟩
    obtain ⟨hfile, hrest⟩ := loadEpochRecord_eq_ok.mp hw.readable
    exact loadEpochRecord_eq_ok.mpr ⟨same.trans hfile, hrest⟩

/-- Whatever the interleaving, a stored record is replaced only by its direct successor. -/
theorem epoch_record_chain {w v v' : Writers} (hrun : Run (WriterStep C site) w v)
    (hidle : w.planned = []) {start : EpochRecordV1}
    (hstart : loadEpochRecord site.world w.store = .ok start) (hstep : WriterStep C site v v')
    {record next : EpochRecordV1} (hrecord : v.store.epoch = .present record)
    (hnext : v'.store.epoch = .present next) (hne : next ≠ record) :
    next.epochNumber = record.epochNumber + 1 ∧ next.fencingToken = record.fencingToken + 1 ∧
      next.previousEpochHash = some (epochRecordHash C record) := by
  have hplanned : ∃ current, v.Planned C site current := by
    refine Run.invariant (I := fun u => ∃ current, u.Planned C site current) ?_ hrun
      ⟨start, hstart, ?_⟩
    · rintro u u' ⟨current, hu⟩ hu'
      exact hu'.planned hu
    · rw [hidle]
      simp
  obtain ⟨current, hv⟩ := hplanned
  have hfile := (loadEpochRecord_eq_ok.mp hv.readable).1
  rw [hrecord, DurableFile.present.injEq] at hfile
  subst hfile
  have hkept : v'.store.epoch = v.store.epoch → next = record := by
    intro hsame
    rw [hnext, hrecord, DurableFile.present.injEq] at hsame
    exact hsame
  cases hstep with
  | read plan => exact absurd (hkept rfl) hne
  | save mem saved =>
    obtain ⟨rfl, hsaved⟩ := hv.save mem saved
    simp only [DurableFile.present.injEq] at hnext
    subst hnext
    obtain hsame | hdirect := hsaved
    · exact absurd hsame hne
    · exact ⟨hdirect.epoch, hdirect.fencingToken, hdirect.previous⟩
  | drop fewer => exact absurd (hkept rfl) hne
  | other same => exact absurd (hkept same) hne

/-- The attempt of the second founding member to succeed the first authority. -/
def secondAttempt : RecoveryAttempt :=
  let f := numbered 3
  ⟨f.descriptor .ideal, f.epoch .ideal, f.snapshot .ideal, [second, third], ⟨2, 2⟩, false⟩

/-- The store of the second founding member after a save by its tick. -/
def secondPromoted (record : EpochRecordV1) : Store :=
  { (numbered 3).store .ideal with epoch := .present record }

/-- The second founding member reads, then saves its own recovery record over the founding one. -/
theorem epoch_record_chain_promotion :
    let f := numbered 3
    let site : Site := f.fleet.siteAt second 0
    ∃ record, recoveryEpochRecord .ideal site secondAttempt = .ok record ∧
      WriterStep .ideal site ⟨f.store .ideal, [record]⟩ ⟨secondPromoted record, []⟩ ∧
      record.previousEpochHash = some (epochRecordHash .ideal (f.epoch .ideal)) := by
  intro f site
  have hsome : (optional (recoveryEpochRecord .ideal site secondAttempt)).any (fun record =>
      decide (saveEpochRecord record (f.store .ideal) = .ok (secondPromoted record) ∧
        record ≠ f.epoch .ideal)) = true := by decide +kernel
  simp only [Option.any_eq_true, optional_eq_some, decide_eq_true_eq] at hsome
  obtain ⟨record, hbuilt, hsaved, hne⟩ := hsome
  have hread : loadEpochRecord site.world (f.store .ideal) = .ok secondAttempt.previous := by
    decide +kernel
  have hplan : WriterStep .ideal site ⟨f.store .ideal, []⟩ ⟨f.store .ideal, [record]⟩ :=
    .read (.promotedRecovery hread hbuilt)
  have hsave : WriterStep .ideal site ⟨f.store .ideal, [record]⟩ ⟨secondPromoted record, []⟩ := by
    have hstep : WriterStep .ideal site ⟨f.store .ideal, [record]⟩
      ⟨secondPromoted record, [record].erase record⟩ := .save List.mem_cons_self hsaved
    rwa [List.erase_cons_head] at hstep
  refine ⟨record, hbuilt, hsave, ?_⟩
  exact (epoch_record_chain (.single hplan) rfl hread hsave rfl rfl hne).2.2

end

/-! ## What a candidate produces -/

variable (C) in
/-- `drive_recovery_ballot` at a candidate makes a certificate and a record on a base, counting the
votes of the members of the record. -/
structure RecoveryBase.Produced (base : RecoveryBase) (site : Site) (node : Node)
    (attempt : RecoveryAttempt) (certificate : RecoveryCertificateV1) (record : EpochRecordV1) :
    Prop where
  world : attempt.descriptor.worldId = site.world
  previous : attempt.previous = base.epoch
  latest : attempt.latest = base.head
  membership : recoveryMembership C site.world node.store = .ok base.membership
  members : attempt.descriptor.active.map WorldMemberV1.peerId = base.membership.activeIds
  ballot : ∃ floor, candidateBallot C site attempt (base.membership.recordHash C) floor =
    .ok certificate.ballot
  collected : recoveryCertificateFrom C attempt certificate.ballot node.runtime =
    .ok (some certificate)
  built : recoveryEpochRecord C site attempt = .ok record

variable (C) in
/-- A peer of the world accepts exactly a base. -/
structure RecoveryBase.HeldBy (base : RecoveryBase) (world : WorldId) (store : Store) : Prop where
  metadata : ∃ metadata, loadWorld C world store = .ok metadata
  epoch : loadEpochRecord world store = .ok base.epoch
  head : latestSnapshot store = .ok (some base.head)
  membership : loadMembershipRecord world store = .ok base.membership

variable (C) in
/-- The descriptor of a peer lists the candidate as a member that may become authority. -/
def Admits (site : Site) (store : Store) : Prop :=
  ∃ descriptor member, loadWorldDescriptor site.world store = .ok descriptor ∧
    descriptor.member (site.peer C) = some member ∧ member.banned = false ∧
      member.authorityEligible = true ∧ member.publicKey = site.identity.publicKey

variable (C) in
/-- No membership change is prepared, and the stored promise is for an earlier round than the
certificate or for its ballot. -/
def Unfenced (world : WorldId) (certificate : RecoveryCertificateV1) (store : Store) : Prop :=
  (∀ promise, loadMembershipPromise C world store ≠ .ok promise) ∧
    ∀ promise, loadRecoveryPromise C world store = .ok promise →
      promise.ballot.round < certificate.ballot.round ∨
        promise.ballot.unsigned = certificate.ballot.unsigned

instance (world : WorldId) (certificate : RecoveryCertificateV1) (store : Store) :
    Decidable (Unfenced C world certificate store) :=
  inferInstanceAs (Decidable ((∀ promise, loadMembershipPromise C world store = .ok promise → False) ∧
    ∀ promise, loadRecoveryPromise C world store = .ok promise →
      promise.ballot.round < certificate.ballot.round ∨
        promise.ballot.unsigned = certificate.ballot.unsigned))

variable (C) in
/-- The handler of `RecoveryEpoch` takes the record over. -/
def Node.Learns (node : Node) (channel : Channel) (record : EpochRecordV1)
    (certificate : RecoveryCertificateV1) : Prop :=
  ∃ e, handleRecoveryEpoch C channel record certificate (Exec.start node) = (.ok (), e) ∧
    e.node.store.epoch = .present record

variable {base : RecoveryBase} {site : Site} {node : Node} {attempt : RecoveryAttempt}
  {certificate : RecoveryCertificateV1} {record : EpochRecordV1} {store : Store}

/-- The ballot of a candidate is on its base and signed by it. -/
theorem RecoveryBase.Produced.signed (h : base.Produced C site node attempt certificate record) :
    verifyRecoveryBallotSignature C certificate.ballot = .ok () ∧
      certificate.ballot.candidatePeerId = site.peer C ∧
      certificate.ballot.candidatePublicKey = site.identity.publicKey ∧
      certificate.ballot.worldId = site.world ∧
      certificate.ballot.targetEpoch = base.epoch.epochNumber + 1 ∧
      certificate.ballot.targetFencingToken = base.epoch.fencingToken + 1 ∧
      certificate.ballot.baseSnapshotHash = base.head.manifestHash C ∧
      certificate.ballot.baseStateHash = base.head.stateRoot ∧
      certificate.ballot.membershipHash = base.membership.recordHash C := by
  obtain ⟨floor, hballot⟩ := h.ballot
  simp only [candidateBallot, signRecoveryBallot, bind_eq_ok, ofCore_eq_ok, pure_eq_ok,
    mapError_eq_ok] at hballot
  obtain ⟨round, _, ⟨⟩, hvalid, hsigned⟩ := hballot
  obtain ⟨_, hepoch, htoken, _⟩ := RecoveryBallotV1.generationIsWellFormed_iff.mp
    (RecoveryBallotV1.validateSemantics_eq_ok.mp hvalid)
  have hnext := (checkedSucc_eq_some.mp hepoch).2
  have hfence := (checkedSucc_eq_some.mp htoken).2
  rw [← hsigned, ← h.previous, ← h.latest, ← h.world]
  refine ⟨?_, rfl, rfl, rfl, hnext, hfence, rfl, rfl, rfl⟩
  simp only [verifyRecoveryBallotSignature, bind_eq_ok, mapError_eq_ok]
  exact ⟨(), hvalid, verifySignature_eq_ok.mpr ⟨rfl, C.verify_sign _ _⟩⟩

/-- The record of a candidate is the direct successor of its base and signed by it. -/
theorem RecoveryBase.Produced.record_eq (h : base.Produced C site node attempt certificate record) :
    record.worldId = base.epoch.worldId ∧ record.mode = .recovery ∧
      record.validateSemantics = .ok () ∧ record.authorityPeerId = site.peer C ∧
      record.authorityPublicKey = site.identity.publicKey ∧
      record.baseStateHash = base.head.stateRoot ∧
      nextGeneration base.epoch "accepted authority generation is exhausted" =
        .ok record.generation ∧
      record.epochNumber = base.epoch.epochNumber + 1 ∧
      record.fencingToken = base.epoch.fencingToken + 1 ∧
      record.previousEpochHash = some (epochRecordHash C base.epoch) ∧
      verifySignature C record.authorityPeerId record.authorityPublicKey record.signingBytes
        record.signature = .ok () := by
  have hbuilt := h.built
  have hextends := recoveryEpochRecord_eq_ok h.built
  simp only [recoveryEpochRecord, bind_eq_ok, pure_eq_ok, h.previous, h.latest] at hbuilt
  obtain ⟨generation, hgeneration, rfl⟩ := hbuilt
  rw [h.previous] at hextends
  obtain ⟨_, _, _, hepoch, htoken, hhash⟩ := hextends
  refine ⟨rfl, rfl, ?_, rfl, rfl, rfl, ?_, hepoch, htoken, hhash, ?_⟩
  · simp [EpochRecordV1.validateSemantics, requireProtocolVersion, signEpoch]
  · rw [nextGeneration, context_eq_ok] at hgeneration ⊢
    exact hgeneration
  · exact verifySignature_eq_ok.mpr ⟨rfl, C.verify_sign _ _⟩

/-! ## The checks of the receiver -/

/-- A member that a descriptor admits is authorized. -/
theorem authorizeMember_of_admits (h : Admits C site store) :
    authorizeMember C site.world (site.peer C) store = .ok () := by
  obtain ⟨descriptor, member, hload, hlisted, hactive, _, hkey⟩ := h
  have hnamed : C.peerIdFromPublicKey member.publicKey = site.peer C := by
    rw [hkey]
    rfl
  simp only [authorizeMember, authorizedDescriptorMember, bind_eq_ok, ofStorage_eq_ok,
    required_eq_ok, guardMessage_eq_ok, pure_eq_ok]
  exact ⟨descriptor, hload, member, ⟨member, hlisted, (), hnamed, (), hactive, rfl⟩, trivial⟩

section

variable (h : base.Produced C site node attempt certificate record)

include h

/-- The receiver validates what the candidate produced on its base. -/
theorem RecoveryBase.Produced.validate
    (hbase : base.HeldBy C site.world store) (hadmits : Admits C site store) :
    validateRecoveryEpoch C (site.peer C) record certificate store = .ok () := by
  obtain ⟨hsigned, hcandidate, hkey, _, htarget, hfence, hsnapshot, hstate, hhash⟩ := h.signed
  obtain ⟨hworld, hmode, hvalid, hauthority, hpublic, hbaseState, _, hepoch, htoken, _, hsignature⟩ :=
    h.record_eq
  have hrecordWorld : record.worldId = site.world :=
    hworld.trans (loadEpochRecord_eq_ok.mp hbase.epoch).2.1
  have hmember := authorizeMember_of_admits hadmits
  obtain ⟨descriptor, member, hload, hlisted, hactive, heligible, hmemberKey⟩ := hadmits
  obtain ⟨_, _, hshape, hvotes⟩ := recoveryCertificateFrom_eq_ok h.collected
  have hmembership := h.membership
  simp only [recoveryMembership, bind_eq_ok, ofStorage_eq_ok, ofCore_eq_ok, pure_eq_ok]
    at hmembership
  obtain ⟨_, _, ⟨⟩, hverified, rfl⟩ := hmembership
  rw [h.members] at hshape
  simp only [validateRecoveryEpoch, authorizeEpoch, bind_eq_ok, guardMessage_eq_ok, ofStorage_eq_ok,
    ofCore_eq_ok, ofProtocol_eq_ok, required_eq_ok, mapError_eq_ok, forM_eq_ok, hrecordWorld,
    hauthority]
  rw [hauthority] at hsignature
  refine ⟨(), hmode, (), ⟨(), hvalid, (), hmember, (), hmember, descriptor, hload, member, hlisted,
    (), ⟨hactive, heligible, hmemberKey.trans hpublic.symm⟩, (), hsignature, some base.head,
    hbase.head, base.head, rfl, hbaseState.symm⟩, (), hsigned, (),
    ⟨hcandidate.symm, hcandidate.symm, hpublic.trans hkey.symm, hepoch.trans htarget.symm,
      htoken.trans hfence.symm, hbaseState.trans hstate.symm⟩, some base.head, hbase.head, base.head,
    rfl, (), ⟨hsnapshot.symm, hstate.symm⟩, base.membership, hbase.membership, (), hverified, (),
    hhash.symm, (), hshape, hvotes⟩

/-- The receiver's checks of a record on its base pass exactly where nothing fences it. -/
theorem RecoveryBase.Produced.checks_iff
    (hbase : base.HeldBy C site.world store) (hadmits : Admits C site store) :
    (recoveryEpochChecks C (site.peer C) record certificate store = .ok () ∧
        newRecoveryEpochChecks C record certificate store = .ok ()) ↔
      Unfenced C site.world certificate store := by
  obtain ⟨hworld, _, _, _, _, _, hnext, hepoch, htoken, hprevious, _⟩ := h.record_eq
  have hrecordWorld : record.worldId = site.world :=
    hworld.trans (loadEpochRecord_eq_ok.mp hbase.epoch).2.1
  have hvalid := h.validate hbase hadmits
  have hextends : ∀ text, extendsEpoch C record base.epoch text = .ok () := by
    intro text
    simp only [extendsEpoch, bind_eq_ok, guardMessage_eq_ok]
    exact ⟨record.generation, hnext, rfl, rfl, hprevious⟩
  have hfits : ∀ promise : DurableRecoveryPromiseV1,
      certificateFitsPromise C certificate promise = .ok () ↔
        promise.ballot.round < certificate.ballot.round ∨
          promise.ballot.unsigned = certificate.ballot.unsigned := by
    intro promise
    simp only [certificateFitsPromise, bind_eq_ok, guardMessage_eq_ok, onlyIf_eq_ok,
      RecoveryBallotV1.ballotHash_inj, exists_const]
    constructor
    · rintro ⟨hle, hsame⟩
      rcases Nat.lt_or_eq_of_le hle with hlt | heq
      · exact .inl hlt
      · exact .inr (hsame heq)
    · rintro (hlt | hsame)
      · exact ⟨hlt.le, fun heq => absurd heq hlt.ne⟩
      · have hround : promise.ballot.unsigned.round = certificate.ballot.unsigned.round := by
          rw [hsame]
        exact ⟨hround.le, fun _ => hsame⟩
  simp only [recoveryEpochChecks, newRecoveryEpochChecks, ensureNoMembershipPrepare, bind_eq_ok,
    guardMessage_eq_ok, onSome_eq_ok, optional_eq_some, optional_eq_none, hrecordWorld,
    hvalid, hbase.epoch, Except.ok.injEq, forall_eq', hextends, hfits, exists_const, and_true,
    true_and, Unfenced]

/-- The record is not the one that the receiver accepts yet. -/
theorem RecoveryBase.Produced.not_accepted (hbase : base.HeldBy C site.world store) :
    ¬ optional (loadEpochRecord record.worldId store) = some record := by
  obtain ⟨hworld, _, _, _, _, _, _, hepoch, _⟩ := h.record_eq
  rw [hworld, (loadEpochRecord_eq_ok.mp hbase.epoch).2.1, hbase.epoch, optional_eq_some,
    Except.ok.injEq]
  rintro rfl
  omega

end

/-! ## Acceptance -/

/-- A record that is taken over passed the checks. -/
theorem Node.Learns.checks {receiver : Node} {channel : Channel}
    (h : receiver.Learns C channel record certificate)
    (hnew : ¬ optional (loadEpochRecord record.worldId receiver.store) = some record) :
    recoveryEpochChecks C channel.requester record certificate receiver.store = .ok () ∧
      newRecoveryEpochChecks C record certificate receiver.store = .ok () := by
  obtain ⟨e, hrun, _⟩ := h
  simp only [handleRecoveryEpoch, run_bind, run_readStore, run_check] at hrun
  obtain ⟨_, _, ⟨rfl, rfl⟩, ⟨⟩, _, ⟨hchecks, rfl⟩, hrun⟩ := hrun
  rw [Exec.start, if_neg hnew] at hrun
  simp only [run_bind, run_check] at hrun
  obtain ⟨⟨⟩, _, ⟨hnewChecks, rfl⟩, _⟩ := hrun
  exact ⟨hchecks, hnewChecks⟩

/-- A peer on the base of a certificate takes the record over exactly where no membership change is
prepared and its own promise is not ahead of the certificate or in conflict with it. -/
theorem recovery_learned_iff (h : base.Produced C site node attempt certificate record)
    {receiver : Node} (hbase : base.HeldBy C site.world receiver.store)
    (hadmits : Admits C site receiver.store) {channel : Channel}
    (hsender : channel.requester = site.peer C) :
    receiver.Learns C channel record certificate ↔
      Unfenced C site.world certificate receiver.store := by
  obtain ⟨_, _, _, hballotWorld, _⟩ := h.signed
  obtain ⟨hworld, _, hvalid, _, _, _, hnext, _⟩ := h.record_eq
  have hrecordWorld : record.worldId = site.world :=
    hworld.trans (loadEpochRecord_eq_ok.mp hbase.epoch).2.1
  have hnew := h.not_accepted hbase
  rw [← h.checks_iff hbase hadmits, ← hsender]
  constructor
  · intro hlearns
    exact hlearns.checks hnew
  · rintro ⟨hchecks, hnewChecks⟩
    have hcertified : saveRecoveryCertificate C certificate receiver.store =
        .ok { receiver.store with recoveryCertificate := .present certificate } := by
      obtain ⟨metadata, hmetadata⟩ := hbase.metadata
      simp only [saveRecoveryCertificate, hballotWorld, bind_eq_ok, pure_eq_ok]
      exact ⟨metadata, hmetadata, trivial⟩
    have hlt : base.epoch.generation < record.generation :=
      AuthorityGeneration.lt_checkedNext (context_eq_ok.mp hnext)
    let certified : Store := { receiver.store with recoveryCertificate := .present certificate }
    have hstored : saveEpochRecord record certified =
        .ok { certified with epoch := .present record } :=
      saveEpochRecord_advance hvalid (hrecordWorld ▸ hbase.epoch) hlt
    apply Exists.intro
    constructor
    · refine (bind_of_run (run_readStore.mpr ⟨rfl, rfl⟩)).trans ((check_bind hchecks).trans ?_)
      refine (congrFun (if_neg hnew) _).trans ((check_bind hnewChecks).trans ?_)
      exact (save_bind hcertified).trans (save_bind hstored)
    · exact congrArg Store.epoch (clearRecoveryPromise_keeps _ _ _)

/-- The second member has the vote of the third. -/
def secondElected : List Cue :=
  gather second third ++ canvass second third

/-- The state it has it in. -/
def electedSystem : System :=
  ((numbered 3).system .ideal).play .ideal (numbered 3).fleet secondElected

/-- The certificate of the second member. -/
def electedCertificate : RecoveryCertificateV1 :=
  (numbered 3).certificate .ideal ⟨2⟩ 1 [⟨3⟩, ⟨2⟩]

/-- Where the second member acts then. -/
def electedSite : Site := electedSystem.site .ideal (numbered 3).fleet second

/-- What the elected second member produces in its next tick. -/
theorem produced_elected : ∃ record,
    (numbered 3).base.Produced .ideal electedSite (electedSystem.nodes second)
      secondAttempt electedCertificate record := by
  have hbuilt : (optional (recoveryEpochRecord .ideal electedSite secondAttempt)).isSome = true := by
    decide +kernel
  obtain ⟨record, hrecord⟩ := Option.isSome_iff_exists.mp hbuilt
  exact ⟨record, by decide +kernel, rfl, rfl, by decide +kernel, by decide +kernel,
    ⟨0, by decide +kernel⟩, by decide +kernel, optional_eq_some.mp hrecord⟩

/-- The third member, whose promise is for this ballot, takes the record over. -/
theorem recovery_learned_iff_voter : ∃ record,
    (numbered 3).base.Produced .ideal electedSite (electedSystem.nodes second)
        secondAttempt electedCertificate record ∧
      (electedSystem.nodes third).Learns .ideal ⟨third, second, 0⟩ record
        electedCertificate := by
  obtain ⟨record, hproduced⟩ := produced_elected
  have hbase : (numbered 3).base.HeldBy .ideal electedSite.world
      (electedSystem.nodes third).store :=
    ⟨⟨⟨(numbered 3).world .ideal, (numbered 3).genesis⟩, by decide +kernel⟩,
      by decide +kernel, by decide +kernel, by decide +kernel⟩
  have hadmits : Admits .ideal electedSite (electedSystem.nodes third).store :=
    ⟨(numbered 3).descriptor .ideal, ⟨second, ⟨2⟩, true, false⟩, by decide +kernel⟩
  have hunfenced : Unfenced .ideal electedSite.world electedCertificate
      (electedSystem.nodes third).store := by decide +kernel
  refine ⟨record, hproduced, ?_⟩
  exact (recovery_learned_iff hproduced hbase hadmits (by decide +kernel)).mpr hunfenced

/-- The second member decides its recovery; the first authority, which does not know yet, prepares
the departure of the third. -/
def decidedUnderPrepare : List Cue :=
  secondElected ++ [tick second, fun _ => .input third (.command (.leave 0))] ++
    connect first third ++ [hand third first 0]

/-- The state after that. -/
def preparedSystem : System :=
  ((numbered 3).system .ideal).play .ideal (numbered 3).fleet decidedUnderPrepare

/-- The second member has stored what it produced; the first one, which accepts exactly the base of
it, does not take it over. -/
theorem recovery_not_learned :
    ((numbered 3).system .ideal).Initial ∧
      ((numbered 3).system .ideal).Plays .ideal (numbered 3).fleet
        decidedUnderPrepare ∧
      ∃ record, (numbered 3).base.Produced .ideal electedSite
          (electedSystem.nodes second) secondAttempt electedCertificate record ∧
        (preparedSystem.nodes second).store.epoch = .present record ∧
        (preparedSystem.nodes second).store.recoveryCertificate =
          .present electedCertificate ∧
        (numbered 3).base.HeldBy .ideal electedSite.world
          (preparedSystem.nodes first).store ∧
        Admits .ideal electedSite (preparedSystem.nodes first).store ∧
        ∀ number, ¬ (preparedSystem.nodes first).Learns .ideal
          ⟨first, second, number⟩ record electedCertificate := by
  obtain ⟨record, hproduced⟩ := produced_elected
  have hstored : ∀ built, recoveryEpochRecord .ideal electedSite secondAttempt = .ok built →
      (preparedSystem.nodes second).store.epoch = .present built := by decide +kernel
  have hbase : (numbered 3).base.HeldBy .ideal electedSite.world
      (preparedSystem.nodes first).store :=
    ⟨⟨⟨(numbered 3).world .ideal, (numbered 3).genesis⟩, by decide +kernel⟩,
      by decide +kernel, by decide +kernel, by decide +kernel⟩
  have hadmits : Admits .ideal electedSite (preparedSystem.nodes first).store :=
    ⟨(numbered 3).descriptor .ideal, ⟨second, ⟨2⟩, true, false⟩, by decide +kernel⟩
  have hfenced : ¬ Unfenced .ideal electedSite.world electedCertificate
      (preparedSystem.nodes first).store := by decide +kernel
  refine ⟨Founding.system_initial .ideal _, by decide +kernel, record, hproduced,
    hstored record hproduced.built, by decide +kernel, hbase, hadmits, fun number hlearns => ?_⟩
  have hchecks := hlearns.checks (hproduced.not_accepted hbase)
  exact hfenced ((hproduced.checks_iff hbase hadmits).mp hchecks)

end SwarmCraft
