import SwarmCraft.Storage.Store
import SwarmCraft.Core.Effect

/-!
# Membership records, descriptors and canonical snapshots

Saving a membership record demands a direct extension of the stored one under the
accepted authority. Certificates are archived once for each sequence number. A
snapshot commit is two durable steps, an intent and the new canonical head; between
them the history is closed to readers. Every file has a name, by which it is told what an operation
may change; the configuration stands beside the files of `Store`.
-/

namespace SwarmCraft

open Checked

variable (C : Crypto)
variable {record : MembershipRecordV1} {store store' : Store}

/-- `create_world`. -/
def createWorld (metadata : WorldMetadataV1) (store : Store) : Except StorageError Store := do
  ensure (metadata.genesis.worldId C = metadata.worldId) .worldMetadataMismatch
  pure { store with metadata := .present metadata }

/-- `save_world_descriptor`. -/
def saveWorldDescriptor (descriptor : WorldDescriptorV1) (store : Store) :
    Except StorageError Store := do
  let normalized := descriptor.normalize
  ensure (normalized.members.length = descriptor.members.length) .worldMetadataMismatch
  asStorage normalized.validateSemantics
  pure { store with descriptor := .present normalized }

/-- `certified_membership_bootstrap`. -/
def certifiedMembershipBootstrap (record : MembershipRecordV1) (store : Store) :
    Except StorageError Bool :=
  if store.membershipCertificate.exists && store.pendingJoin.exists then do
    let certificate ← loadMembershipCertificate record.worldId store
    let pendingJoin ← loadPendingJoin C record.worldId store
    let metadata ← loadWorld C record.worldId store
    pure (certificate.proposal.validateShape C
      && decide (certificate.proposal.proposed = record)
      && decide (pendingJoin.worldId = record.worldId)
      && decide (pendingJoin.invite.worldId = record.worldId)
      && decide (pendingJoin.invite.genesis = metadata.genesis)
      && decide (pendingJoin.invite.inviterPeerId = certificate.proposal.previous.authorityPeerId)
      && decide (pendingJoin.invite.inviterPublicKey =
          certificate.proposal.previous.authorityPublicKey)
      && certificate.proposal.proposed.members.contains pendingJoin.joiningMember)
  else pure false

/-- A membership record is signed for the accepted epoch by its authority. -/
def matchesEpochAuthority (record : MembershipRecordV1) (epoch : EpochRecordV1) : Bool :=
  decide (record.epoch = epoch.epochNumber)
    && decide (record.authorityPeerId = epoch.authorityPeerId)
    && decide (record.authorityPublicKey = epoch.authorityPublicKey)

/-- `save_membership_record`. -/
def saveMembershipRecord (record : MembershipRecordV1) (store : Store) :
    Except StorageError Store := do
  asStorage record.validateSemantics
  if store.membership.exists then
    let current ← loadMembershipRecord record.worldId store
    if record = current then pure store
    else do
      let expectedSequence ← required (checkedSucc current.sequence)
        (.counterExhausted "membership sequence")
      ensure (record.sequence = expectedSequence ∧
        record.previousMembershipHash = some (current.recordHash C) ∧
        current.epoch ≤ record.epoch) .worldMetadataMismatch
      match loadEpochRecord record.worldId store with
      | .ok epoch =>
        ensure (matchesEpochAuthority record epoch = true) .worldMetadataMismatch
      | .error _ =>
        ensure (record.epoch = current.epoch ∧ record.authorityPeerId = current.authorityPeerId ∧
          record.authorityPublicKey = current.authorityPublicKey)
          .worldMetadataMismatch
      pure { store with membership := .present record }
  else
    let certified ← certifiedMembershipBootstrap C record store
    ensure (certified = true ∨ (record.sequence = 0 ∧ record.previousMembershipHash = none))
      .worldMetadataMismatch
    match loadEpochRecord record.worldId store with
    | .ok epoch =>
      ensure (matchesEpochAuthority record epoch = true) .worldMetadataMismatch
    | .error _ => ensure (record.epoch = 0 ∨ certified = true) .worldMetadataMismatch
    pure { store with membership := .present record }

variable {C} in
/-- A successful save keeps the record, creates the first one or extends the stored one. -/
theorem saveMembershipRecord_eq_ok (h : saveMembershipRecord C record store = .ok store') :
    store' = { store with membership := .present record } ∧
      (store.membership = .absent ∨ store.membership = .present record ∨
        ∃ current, store.membership = .present current ∧ record.sequence = current.sequence + 1 ∧
          record.previousMembershipHash = some (current.recordHash C)) ∧
      (store.membership = .present record ∨
        ∀ epoch, loadEpochRecord record.worldId store = .ok epoch →
          record.epoch = epoch.epochNumber) := by
  have hepoch {epoch : EpochRecordV1} (hmatch : matchesEpochAuthority record epoch = true) :
      record.epoch = epoch.epochNumber := by
    simp only [matchesEpochAuthority, Bool.and_eq_true, decide_eq_true_eq] at hmatch
    exact hmatch.1.1
  simp only [saveMembershipRecord, bind_eq_ok] at h
  obtain ⟨_, _, h⟩ := h
  cases hfile : store.membership with
  | unreadable => simp [hfile, DurableFile.exists, loadMembershipRecord] at h
  | absent =>
    simp only [hfile, DurableFile.exists, Bool.false_eq_true, if_false, bind_eq_ok, ensure_eq_ok,
      exists_const] at h
    obtain ⟨_, _, _, h⟩ := h
    split at h
    · rename_i epoch hload
      simp only [bind_eq_ok, ensure_eq_ok, exists_const, pure_eq_ok] at h
      refine ⟨h.2.symm, .inl rfl, .inr fun e he => ?_⟩
      rw [hload, Except.ok.injEq] at he
      exact he ▸ hepoch h.1
    · rename_i hload
      simp only [bind_eq_ok, ensure_eq_ok, exists_const, pure_eq_ok] at h
      refine ⟨h.2.symm, .inl rfl, .inr fun e he => ?_⟩
      rw [hload] at he
      cases he
  | present current =>
    simp only [hfile, DurableFile.exists, if_true, bind_eq_ok, loadMembershipRecord,
      DurableFile.load_eq_ok, DurableFile.present.injEq] at h
    obtain ⟨_, ⟨rfl, _⟩, h⟩ := h
    split at h
    · rename_i heq
      subst heq
      simp only [pure_eq_ok] at h
      subst h
      exact ⟨by rw [← hfile], .inr (.inl rfl), .inl rfl⟩
    · simp only [bind_eq_ok, required_eq_ok, ensure_eq_ok, exists_const] at h
      obtain ⟨_, hnext, ⟨rfl, hprev, _⟩, h⟩ := h
      have hsequence := (checkedSucc_eq_some.mp hnext).2
      split at h
      · rename_i epoch hload
        simp only [bind_eq_ok, ensure_eq_ok, exists_const, pure_eq_ok] at h
        refine ⟨h.2.symm, .inr (.inr ⟨current, rfl, hsequence, hprev⟩), .inr fun e he => ?_⟩
        rw [hload, Except.ok.injEq] at he
        exact he ▸ hepoch h.1
      · rename_i hload
        simp only [bind_eq_ok, ensure_eq_ok, exists_const, pure_eq_ok] at h
        refine ⟨h.2.symm, .inr (.inr ⟨current, rfl, hsequence, hprev⟩), .inr fun e he => ?_⟩
        rw [hload] at he
        cases he

variable {C} in
/-- A saved record can be loaded again. -/
theorem loadMembershipRecord_saved (h : saveMembershipRecord C record store = .ok store') :
    loadMembershipRecord record.worldId store' = .ok record := by
  have hsaved := (saveMembershipRecord_eq_ok h).1
  simp only [saveMembershipRecord, bind_eq_ok, asStorage, mapError_eq_ok] at h
  obtain ⟨_, hvalid, _⟩ := h
  rw [loadMembershipRecord_eq_ok, hsaved]
  exact ⟨rfl, rfl, hvalid⟩

/-- The create-once archive entry of `save_membership_certificate`. -/
def archiveMembershipCertificate (certificate : MembershipCertificateV1) (store : Store) :
    Except StorageError Store :=
  match store.membershipCertificates.find? fun archived =>
      decide (archived.proposal.proposed.sequence = certificate.proposal.proposed.sequence) with
  | some archived => do
    ensure (archived = certificate) .worldMetadataMismatch
    pure store
  | none => pure { store with
      membershipCertificates := store.membershipCertificates ++ [certificate] }

/-- The current-certificate file of `save_membership_certificate`. -/
def publishMembershipCertificate (certificate : MembershipCertificateV1) (store : Store) : Store :=
  { store with membershipCertificate := .present certificate }

/-- `clear_pending_join`. -/
def clearPendingJoin (store : Store) : Store := { store with pendingJoin := .absent }

/-- `clear_pending_leave`. -/
def clearPendingLeave (store : Store) : Store := { store with pendingLeave := .absent }

/-- `save_pending_join`. -/
def savePendingJoin (request : JoinRequestV1) (store : Store) : Except StorageError Store := do
  asStorage (request.validateSemantics C)
  pure { store with pendingJoin := .present request }

/-- `save_pending_leave`. -/
def savePendingLeave (request : LeaveRequestV1) (store : Store) : Except StorageError Store := do
  asStorage (request.validateSemantics C)
  pure { store with pendingLeave := .present request }

/-! ## Canonical snapshots -/

/-- The generation fence of an authority's own commit. -/
structure SnapshotCommitFence where
  expectedEpoch : Nat
  expectedFencingToken : Nat
  expectedHead : Option SnapshotManifestV1
  deriving DecidableEq

/-- `validate_direct_extension`. -/
def validateDirectExtension (previous : Option SnapshotManifestV1)
    (manifest : SnapshotManifestV1) : Except StorageError Unit :=
  match previous with
  | none =>
    ensure (manifest.snapshotNumber = 1 ∧ manifest.previousSnapshotHash = none)
      (.snapshotHistoryConflict manifest.snapshotNumber)
  | some previous => do
    let expectedNumber ← required (checkedSucc previous.snapshotNumber)
      .snapshotNumberExhausted
    let expectedSequence ← required (checkedSucc previous.sequence)
      .snapshotNumberExhausted
    ensure (manifest.snapshotNumber = expectedNumber ∧ manifest.sequence = expectedSequence ∧
      manifest.previousSnapshotHash = some (previous.manifestHash C))
      (.snapshotHistoryConflict manifest.snapshotNumber)

/-- `begin_snapshot_commit_transaction`: the checks, then the commit intent. -/
def beginSnapshotCommit (fence : Option SnapshotCommitFence) (manifest : SnapshotManifestV1)
    (store : Store) : Except StorageError Store := do
  let previous ← latestSnapshot store
  validateDirectExtension C previous manifest
  if store.epoch.exists then
    let epoch ← loadEpochRecord manifest.worldId store
    ensure (epoch.epochNumber = manifest.epoch ∧ epoch.authorityPeerId = manifest.authorityPeerId ∧
      epoch.authorityPublicKey = manifest.authorityPublicKey)
      (.snapshotFenceMismatch epoch.epochNumber epoch.fencingToken)
  match fence with
  | none => pure ()
  | some fence =>
    let mismatch := .snapshotFenceMismatch fence.expectedEpoch
      fence.expectedFencingToken
    ensure (store.epoch.exists = true) mismatch
    let epoch ← loadEpochRecord manifest.worldId store
    ensure (epoch.epochNumber = fence.expectedEpoch ∧
      epoch.fencingToken = fence.expectedFencingToken ∧ previous = fence.expectedHead) mismatch
  pure { store with commitPending := true }

variable {C} in
/-- A commit that was begun directly extends the canonical head. -/
theorem beginSnapshotCommit_eq_ok {fence : Option SnapshotCommitFence}
    {manifest : SnapshotManifestV1} (h : beginSnapshotCommit C fence manifest store = .ok store') :
    store' = { store with commitPending := true } ∧
      validateDirectExtension C store.snapshots.head? manifest = .ok () := by
  simp only [beginSnapshotCommit, latestSnapshot, bind_eq_ok, ensure_eq_ok, exists_const,
    pure_eq_ok] at h
  obtain ⟨_, ⟨_, rfl⟩, _, hdirect, h⟩ := h
  refine ⟨?_, hdirect⟩
  split at h <;> cases fence <;> simp only [bind_eq_ok, pure_eq_ok] at h <;> grind

/-- `finish_snapshot_commit_transaction`, after the manifest was published. -/
def finishSnapshotCommit (manifest : SnapshotManifestV1) (store : Store) : Store :=
  { store with snapshots := manifest :: store.snapshots, commitPending := false }

/-- A numbered snapshot slot that is taken accepts only the manifest that took it. -/
def snapshotSlot (manifest : SnapshotManifestV1) (store : Store) : Except StorageError Bool :=
  match store.snapshots.find? fun existing =>
      decide (existing.snapshotNumber = manifest.snapshotNumber) with
  | none => pure false
  | some existing => do
    ensure (store.commitPending = false) .snapshotCommitIncomplete
    ensure (existing.manifestHash C = manifest.manifestHash C)
      (.snapshotManifestConflict manifest.snapshotNumber)
    pure true

/-- The loop of `missing_blobs`, with the content hashes already seen. -/
def missingBlobsFrom (store : Store) : List Hash32 → List SnapshotEntry → List BlobDescriptor
  | _, [] => []
  | seen, entry :: rest =>
    if entry.blob.hash ∈ seen then missingBlobsFrom store seen rest
    else if hasCompleteBlob store entry.blob then
      missingBlobsFrom store (entry.blob.hash :: seen) rest
    else entry.blob :: missingBlobsFrom store (entry.blob.hash :: seen) rest

/-- `missing_blobs`. -/
def missingBlobs (manifest : SnapshotManifestV1) (store : Store) : List BlobDescriptor :=
  missingBlobsFrom store [] manifest.entries

/-- `validate_replica_history`. -/
def validateReplicaHistory (manifest : SnapshotManifestV1) (store : Store) :
    Except StorageError Unit := do
  asStorage (manifest.validateSemantics C)
  let current ← latestSnapshot store
  match current with
  | none =>
    ensure (manifest.snapshotNumber = 1 ∧ manifest.previousSnapshotHash = none)
      (.snapshotHistoryConflict manifest.snapshotNumber)
  | some previous =>
    if manifest = previous then pure ()
    else do
      let expectedNumber ← required (checkedSucc previous.snapshotNumber)
        (.counterExhausted "snapshot number")
      let expectedSequence ← required (checkedSucc previous.sequence)
        (.counterExhausted "snapshot sequence")
      ensure (manifest.snapshotNumber = expectedNumber ∧ manifest.sequence = expectedSequence ∧
        manifest.previousSnapshotHash = some (previous.manifestHash C))
        (.snapshotHistoryConflict manifest.snapshotNumber)

/-! ## The files of a store -/

section

open Footprint

/-- The files of a world directory. -/
inductive File where
  | metadata
  | descriptor
  | membership
  | membershipPromise
  | membershipCertificate
  | membershipCertificates
  | pendingJoin
  | pendingLeave
  | epoch
  | recoveryPromise
  | recoveryCertificate
  | transfer
  | sleep
  | soloBranch
  | soloConflicts
  | snapshots
  | commitPending
  | blobs
  | wakeRequested
  | permit
  | soloPolicy
  deriving DecidableEq

/-- What a file holds. -/
def File.Content : File → Type
  | .metadata => DurableFile WorldMetadataV1
  | .descriptor => DurableFile WorldDescriptorV1
  | .membership => DurableFile MembershipRecordV1
  | .membershipPromise => DurableFile DurableMembershipPromiseV1
  | .membershipCertificate => DurableFile MembershipCertificateV1
  | .membershipCertificates => List MembershipCertificateV1
  | .pendingJoin => DurableFile JoinRequestV1
  | .pendingLeave => DurableFile LeaveRequestV1
  | .epoch => DurableFile EpochRecordV1
  | .recoveryPromise => DurableFile DurableRecoveryPromiseV1
  | .recoveryCertificate => DurableFile RecoveryCertificateV1
  | .transfer => DurableFile AuthorityTransferV1
  | .sleep => DurableFile SleepRecordV1
  | .soloBranch => DurableFile SoloBranchV1
  | .soloConflicts => List SoloBranchV1
  | .snapshots => List SnapshotManifestV1
  | .commitPending => Bool
  | .blobs => List BlobDescriptor
  | .wakeRequested => Bool
  | .permit => Option AuthorityPermit
  | .soloPolicy => Option Bool

/-- The content of a file of the store. -/
def Store.content (store : Store) : (file : File) → file.Content
  | .metadata => store.metadata
  | .descriptor => store.descriptor
  | .membership => store.membership
  | .membershipPromise => store.membershipPromise
  | .membershipCertificate => store.membershipCertificate
  | .membershipCertificates => store.membershipCertificates
  | .pendingJoin => store.pendingJoin
  | .pendingLeave => store.pendingLeave
  | .epoch => store.epoch
  | .recoveryPromise => store.recoveryPromise
  | .recoveryCertificate => store.recoveryCertificate
  | .transfer => store.transfer
  | .sleep => store.sleep
  | .soloBranch => store.soloBranch
  | .soloConflicts => store.soloConflicts
  | .snapshots => store.snapshots
  | .commitPending => store.commitPending
  | .blobs => store.blobs
  | .wakeRequested => store.wakeRequested
  | .permit => store.permit
  | .soloPolicy => store.soloPolicy

/-- The stores agree on every file that is not listed. -/
abbrev Store.Apart (files : List File) (a b : Store) : Prop := Footprint.Apart Store.content files a b

/-- The property depends on the listed files only. -/
abbrev Store.Reads (files : List File) (I : Store → Prop) : Prop :=
  Footprint.Reads Store.content files I

/-- Replace the content of a file. -/
def Store.put (store : Store) : (file : File) → file.Content → Store
  | .metadata, x => { store with metadata := x }
  | .descriptor, x => { store with descriptor := x }
  | .membership, x => { store with membership := x }
  | .membershipPromise, x => { store with membershipPromise := x }
  | .membershipCertificate, x => { store with membershipCertificate := x }
  | .membershipCertificates, x => { store with membershipCertificates := x }
  | .pendingJoin, x => { store with pendingJoin := x }
  | .pendingLeave, x => { store with pendingLeave := x }
  | .epoch, x => { store with epoch := x }
  | .recoveryPromise, x => { store with recoveryPromise := x }
  | .recoveryCertificate, x => { store with recoveryCertificate := x }
  | .transfer, x => { store with transfer := x }
  | .sleep, x => { store with sleep := x }
  | .soloBranch, x => { store with soloBranch := x }
  | .soloConflicts, x => { store with soloConflicts := x }
  | .snapshots, x => { store with snapshots := x }
  | .commitPending, x => { store with commitPending := x }
  | .blobs, x => { store with blobs := x }
  | .wakeRequested, x => { store with wakeRequested := x }
  | .permit, x => { store with permit := x }
  | .soloPolicy, x => { store with soloPolicy := x }

/-- Replacing one file leaves the others alone. -/
theorem Store.content_put_of_ne {file other : File} (hne : other ≠ file) (store : Store)
    (x : file.Content) : (store.put file x).content other = store.content other := by
  cases file <;> cases other <;> first | rfl | exact absurd rfl hne

theorem Store.apart_put {files : List File} (file : File) (h : file ∈ files) (x : file.Content)
    (store : Store) : Store.Apart files store (store.put file x) :=
  fun _ hother => store.content_put_of_ne (ne_of_mem_of_not_mem h hother).symm x

end

/-! ## The configuration file -/

variable (C : Crypto)

/-- The check of `load_world_config`. -/
def loadConfigFile (world : WorldId) (file : DurableFile WorldConfigV1) :
    Except StorageError WorldConfigV1 :=
  file.load fun config => do
    requireWorld world config.worldId
    asStorage config.validateSemantics

/-- The permission to advance alone that a configuration file gives. -/
def configPolicy (world : WorldId) (file : DurableFile WorldConfigV1) : Option Bool :=
  (optional (loadConfigFile world file)).map fun config => config.authorityPolicy.allowSoloAdvancement

/-- The files of a world with its configuration; the store keeps the permission of the file. -/
@[ext] structure WorldFiles (world : WorldId) where
  store : Store
  worldConfig : DurableFile WorldConfigV1
  policy : store.soloPolicy = configPolicy world worldConfig

variable {world : WorldId}

/-- The files with another configuration file. -/
def WorldFiles.withConfig (file : DurableFile WorldConfigV1) (files : WorldFiles world) :
    WorldFiles world where
  store := { files.store with soloPolicy := configPolicy world file }
  worldConfig := file
  policy := rfl

/-- The files with other records beside the configuration. -/
def WorldFiles.withStore (files : WorldFiles world) (store : Store) : WorldFiles world where
  store := { store with soloPolicy := configPolicy world files.worldConfig }
  worldConfig := files.worldConfig
  policy := rfl

@[simp] theorem WorldFiles.withStore_self (files : WorldFiles world) :
    files.withStore files.store = files := by
  ext1
  · simp only [withStore, ← files.policy]
  · rfl

/-- `load_world_config`. -/
def loadWorldConfig (files : WorldFiles world) : Except StorageError WorldConfigV1 :=
  loadConfigFile world files.worldConfig

/-- A configuration is the first one, or extends the one that could be loaded. -/
def worldConfigExtends (config : WorldConfigV1) :
    Option WorldConfigV1 → Except StorageError Unit
  | some existing => do
    ensure (existing.sequence < config.sequence) .worldMetadataMismatch
    let expectedSequence ← required (checkedSucc existing.sequence) .worldMetadataMismatch
    ensure (config.sequence = expectedSequence ∧
      config.previousConfigHash = some (existing.configHash C)) .worldMetadataMismatch
  | none =>
    ensure (config.sequence = 1 ∧ config.previousConfigHash = none) .worldMetadataMismatch

/-- A configuration is signed by the authority of the epoch that could be loaded, or by the one of
the membership record. -/
def worldConfigAuthority (config : WorldConfigV1)
    (membership : Except StorageError MembershipRecordV1) :
    Option EpochRecordV1 → Except StorageError Unit
  | some epoch =>
    ensure (config.authorityPeerId = epoch.authorityPeerId ∧
      config.authorityPublicKey = epoch.authorityPublicKey) .worldMetadataMismatch
  | none => do
    let membership ← membership
    ensure (config.authorityPeerId = membership.authorityPeerId ∧
      config.authorityPublicKey = membership.authorityPublicKey) .worldMetadataMismatch

/-- `save_world_config`. -/
def saveWorldConfig (config : WorldConfigV1) (files : WorldFiles world) :
    Except StorageError (WorldFiles world) := do
  let config := config.normalizeCanonical
  asStorage config.validateSemantics
  let metadata ← loadWorld C config.worldId files.store
  ensure (config.worldId = metadata.worldId) .worldMetadataMismatch
  let existing := optional (loadConfigFile config.worldId files.worldConfig)
  if existing = some config then pure files
  else do
    worldConfigExtends C config existing
    worldConfigAuthority config (loadMembershipRecord config.worldId files.store)
      (optional (loadEpochRecord config.worldId files.store))
    pure (files.withConfig (.present config))

end SwarmCraft
