import SwarmCraft.Storage.Blob
import SwarmCraft.Storage.World
import Mathlib.Data.List.AList

/-!
# Canonical snapshots, file by file

A committed snapshot is a manifest in a numbered slot below the canonical head. The head file
names the highest one; a marker says that there must be a head file; the intent file stands
while a commit is under way. Every file is replaced atomically, so a crash leaves the files as
they are between two steps. `Store` keeps of all this the list of committed manifests.
-/

namespace SwarmCraft

open Checked Durable

/-- What the head file says about a manifest. -/
structure CanonicalSnapshotRefV1 where
  snapshotNumber : Nat
  manifestHash : Hash32
  epoch : Nat
  sequence : Nat
  deriving DecidableEq

/-- `canonical-snapshot-head.postcard`. -/
structure CanonicalSnapshotHeadV1 where
  worldId : WorldId
  head : Option CanonicalSnapshotRefV1
  deriving DecidableEq

/-- `snapshot-commit.intent.postcard`. -/
structure SnapshotCommitIntentV1 where
  worldId : WorldId
  previousHead : Option CanonicalSnapshotRefV1
  nextHead : CanonicalSnapshotRefV1
  deriving DecidableEq

/-- The generation fence of an authority's own commit, with the head by its reference. -/
structure CanonicalCommitFence where
  expectedEpoch : Nat
  expectedFencingToken : Nat
  expectedHead : Option CanonicalSnapshotRefV1
  deriving DecidableEq

/-- The files of the snapshots of one world. -/
structure Depot where
  /-- `canonical-snapshot-head.postcard`. -/
  head : DurableFile CanonicalSnapshotHeadV1
  /-- `canonical-snapshot-head.required` is there. -/
  required : Bool
  /-- `snapshot-commit.intent.postcard`. -/
  intent : DurableFile SnapshotCommitIntentV1
  /-- `snapshots/`, by number. -/
  slots : AList fun _ : Nat => DurableFile SnapshotManifestV1
  /-- `blobs/`. -/
  blobs : BlobFiles
  /-- The control records. -/
  control : Store

namespace Depot

/-- The files of a new world. -/
def empty (control : Store) : Depot := ⟨.absent, false, .absent, ∅, .empty, control⟩

/-- The manifest file of a number. -/
def slot (depot : Depot) (number : Nat) : DurableFile SnapshotManifestV1 :=
  (depot.slots.lookup number).getD .absent

/-- Write the head file. -/
def setHead (head : CanonicalSnapshotHeadV1) (depot : Depot) : Depot :=
  { depot with head := .present head }

/-- Create the marker. -/
def setRequired (depot : Depot) : Depot := { depot with required := true }

/-- Write or remove the intent. -/
def setIntent (intent : DurableFile SnapshotCommitIntentV1) (depot : Depot) : Depot :=
  { depot with intent := intent }

/-- Publish a manifest in its slot. -/
def fill (manifest : SnapshotManifestV1) (depot : Depot) : Depot :=
  { depot with slots := depot.slots.insert manifest.snapshotNumber (.present manifest) }

/-- Remove a manifest. -/
def drop (number : Nat) (depot : Depot) : Depot := { depot with slots := depot.slots.erase number }

end Depot

variable (C : Crypto) (Z : Codec) (world : WorldId)

/-- `canonical_ref`. -/
def canonicalRef (manifest : SnapshotManifestV1) : CanonicalSnapshotRefV1 :=
  ⟨manifest.snapshotNumber, manifest.manifestHash C, manifest.epoch, manifest.sequence⟩

/-- The check of `load_snapshot_file_unchecked` on a file that is there. -/
def loadSlot (number : Nat) (file : DurableFile SnapshotManifestV1) :
    Except StorageError SnapshotManifestV1 :=
  file.load fun manifest =>
    ensure (manifest.worldId = world ∧ manifest.snapshotNumber = number)
      .worldMetadataMismatch

/-- `load_snapshot_file_unchecked`. -/
def loadSnapshotFile (number : Nat) (depot : Depot) : Except StorageError SnapshotManifestV1 := do
  ensure ((depot.slot number).exists = true) (.snapshotNotFound number)
  loadSlot world number (depot.slot number)

/-- `raw_snapshot_manifests`: the manifests in the order of their numbers. -/
def rawSnapshotManifests (depot : Depot) : Except StorageError (List SnapshotManifestV1) := do
  let manifests ← depot.slots.entries.mapM fun entry => loadSlot world entry.1 entry.2
  pure (manifests.insertionSort fun a b => a.snapshotNumber ≤ b.snapshotNumber)

/-- `read_head_file`. -/
def readHeadFile (file : DurableFile CanonicalSnapshotHeadV1) :
    Except StorageError CanonicalSnapshotHeadV1 :=
  file.load fun head => requireWorld world head.worldId

/-- `validate_head_target_locked`. -/
def validateHeadTarget (head : Option CanonicalSnapshotRefV1) (depot : Depot) :
    Except StorageError Unit :=
  match head with
  | none => pure ()
  | some head => do
    ensure ((depot.slot head.snapshotNumber).exists = true)
      (.missingCanonicalHeadTarget head.snapshotNumber head.manifestHash)
    let manifest ← loadSnapshotFile world head.snapshotNumber depot
    ensure (canonicalRef C manifest = head)
      (.canonicalHeadMismatch head.snapshotNumber)

/-- `durable_create_once` of the marker. -/
def createRequired : Program StorageError Depot Unit := do
  let depot ← look
  onlyIf (depot.required = false) (step Depot.setRequired)

/-- The head of a commit that is under way, if the head file was written already. -/
def resumeCommit (intent : SnapshotCommitIntentV1) : Program StorageError Depot
    CanonicalSnapshotHeadV1 := do
  let depot ← look
  lift (ensure (intent.worldId = world) .worldMetadataMismatch)
  lift (ensure (depot.head.exists = true) .snapshotCommitIncomplete)
  let head ← lift (readHeadFile world depot.head)
  lift (ensure (head.head = some intent.nextHead) .snapshotCommitIncomplete)
  lift (validateHeadTarget C world head.head depot)
  step (Depot.setIntent .absent)
  createRequired
  pure head

/-- The head of a world without a head file: the highest manifest that is there. -/
def adoptLegacyHead : Program StorageError Depot CanonicalSnapshotHeadV1 := do
  let depot ← look
  lift (ensure (depot.required = false) .missingCanonicalHead)
  let manifests ← lift (rawSnapshotManifests world depot)
  let head : CanonicalSnapshotHeadV1 := ⟨world, manifests.getLast?.map (canonicalRef C)⟩
  step (Depot.setHead head)
  createRequired
  lift (validateHeadTarget C world head.head depot)
  pure head

/-- `load_or_initialize_canonical_head_locked`, which is all of `canonical_snapshot_head`. -/
def canonicalSnapshotHead : Program StorageError Depot CanonicalSnapshotHeadV1 := do
  let depot ← look
  if depot.intent.exists then do
    let intent ← lift depot.intent.read
    resumeCommit C world intent
  else if depot.head.exists then do
    let head ← lift (readHeadFile world depot.head)
    lift (validateHeadTarget C world head.head depot)
    createRequired
    pure head
  else adoptLegacyHead C world

/-- `validate_no_orphan_manifests_locked`. -/
def validateNoOrphans (head : Option CanonicalSnapshotRefV1) (depot : Depot) :
    Except StorageError Unit := do
  let manifests ← rawSnapshotManifests world depot
  let highestAllowed := (head.map CanonicalSnapshotRefV1.snapshotNumber).getD 0
  match manifests.find? fun manifest => decide (highestAllowed < manifest.snapshotNumber) with
  | some orphan => throw (.uncommittedSnapshotOrphan orphan.snapshotNumber)
  | none => pure ()

/-- `validate_canonical_snapshot_namespace`. -/
def validateNamespace : Program StorageError Depot Unit := do
  let head ← canonicalSnapshotHead C world
  let depot ← look
  lift (validateNoOrphans world head.head depot)

/-- `list_snapshots`. -/
def listSnapshots : Program StorageError Depot (List SnapshotManifestV1) := do
  validateNamespace C world
  let depot ← look
  lift (rawSnapshotManifests world depot)

/-- `latest_snapshot`. -/
def latestCanonicalSnapshot : Program StorageError Depot (Option SnapshotManifestV1) := do
  validateNamespace C world
  let head ← canonicalSnapshotHead C world
  let depot ← look
  match head.head with
  | none => pure none
  | some reference => do
    let manifest ← lift (loadSnapshotFile world reference.snapshotNumber depot)
    pure (some manifest)

/-! ## Commits -/

/-- `validate_direct_extension`. -/
def validateDirectRef (previous : Option CanonicalSnapshotRefV1) (manifest : SnapshotManifestV1) :
    Except StorageError Unit :=
  match previous with
  | none =>
    ensure (manifest.snapshotNumber = 1 ∧ manifest.previousSnapshotHash = none)
      (.snapshotHistoryConflict manifest.snapshotNumber)
  | some previous => do
    let expectedNumber ← required (checkedSucc previous.snapshotNumber)
      .snapshotNumberExhausted
    let expectedSequence ← required (checkedSucc previous.sequence)
      .snapshotNumberExhausted
    ensure (manifest.snapshotNumber = expectedNumber ∧ manifest.sequence = expectedSequence ∧
      manifest.previousSnapshotHash = some previous.manifestHash)
      (.snapshotHistoryConflict manifest.snapshotNumber)

/-- A snapshot is of the accepted epoch and its authority, where there is an epoch record. -/
def validateCommitEpoch (manifest : SnapshotManifestV1) (control : Store) :
    Except StorageError (Option EpochRecordV1) :=
  if control.epoch.exists then do
    let epoch ← loadEpochRecord manifest.worldId control
    ensure (epoch.epochNumber = manifest.epoch ∧ epoch.authorityPeerId = manifest.authorityPeerId ∧
      epoch.authorityPublicKey = manifest.authorityPublicKey)
      (.snapshotFenceMismatch epoch.epochNumber epoch.fencingToken)
    pure (some epoch)
  else pure none

/-- The fence of a commit holds at the accepted epoch and the canonical head. -/
def validateCommitFence (fence : CanonicalCommitFence) (epoch : Option EpochRecordV1)
    (previous : Option CanonicalSnapshotRefV1) : Except StorageError Unit := do
  let mismatch := .snapshotFenceMismatch fence.expectedEpoch fence.expectedFencingToken
  let epoch ← required epoch mismatch
  ensure (epoch.epochNumber = fence.expectedEpoch ∧
    epoch.fencingToken = fence.expectedFencingToken ∧ previous = fence.expectedHead) mismatch

/-- `begin_snapshot_commit_transaction`. -/
def beginCommit (fence : Option CanonicalCommitFence) (manifest : SnapshotManifestV1) :
    Program StorageError Depot Unit := do
  let current ← canonicalSnapshotHead C world
  lift (validateDirectRef current.head manifest)
  let depot ← look
  let epoch ← lift (validateCommitEpoch manifest depot.control)
  lift (onSome fence fun fence => validateCommitFence fence epoch current.head)
  step (Depot.setIntent (.present ⟨world, current.head, canonicalRef C manifest⟩))

/-- `publish_immutable_manifest`; an intent is taken back where the slot was taken meanwhile. -/
def publishManifest (manifest : SnapshotManifestV1) : Program StorageError Depot Unit := do
  let depot ← look
  if (depot.slot manifest.snapshotNumber).exists then do
    step (Depot.setIntent .absent)
    lift (.error (.snapshotHistoryConflict manifest.snapshotNumber))
  else step (Depot.fill manifest)

/-- `finish_snapshot_commit_transaction`. -/
def finishCommit (manifest : SnapshotManifestV1) : Program StorageError Depot Unit := do
  step (Depot.setHead ⟨world, some (canonicalRef C manifest)⟩)
  createRequired
  step (Depot.setIntent .absent)

/-- `validate_manifest_shape`. -/
def validateManifestShape (manifest : SnapshotManifestV1) : Except StorageError Unit := do
  ensure (manifest.protocolVersion = protocolVersionV1)
    (.unsupportedProtocol manifest.protocolVersion)
  validateManifestPaths manifest.entries
  ensure (snapshotStateRoot C manifest.entries = manifest.stateRoot) .stateRootMismatch

/-- `verify_snapshot_streaming`. -/
def verifySnapshotFiles (manifest : SnapshotManifestV1) (blobs : BlobFiles) :
    Except StorageError Unit := do
  validateManifestShape C manifest
  manifest.entries.forM fun entry => blobs.verifyBlob C Z entry.blob

/-- A slot that is taken accepts only the manifest that took it. -/
def commitTaken (manifest : SnapshotManifestV1) : Program StorageError Depot Unit := do
  validateNamespace C world
  let depot ← look
  let existing ← lift (loadSnapshotFile world manifest.snapshotNumber depot)
  lift (ensure (existing.manifestHash C = manifest.manifestHash C)
    (.snapshotManifestConflict manifest.snapshotNumber))

/-- A free slot is taken in three durable steps behind an intent. -/
def commitFree (fence : Option CanonicalCommitFence) (manifest : SnapshotManifestV1) :
    Program StorageError Depot Unit := do
  beginCommit C world fence manifest
  publishManifest manifest
  finishCommit C world manifest

/-- `commit_snapshot_streaming_inner`; `pins` are the hashes that a local publication pinned. -/
def commitSnapshotStreaming (pins : Option (List Hash32)) (fence : Option CanonicalCommitFence)
    (manifest : SnapshotManifestV1) : Program StorageError Depot Unit := do
  lift (onSome pins fun pins => manifest.entries.forM fun entry =>
    ensure (entry.blob.hash ∈ pins) (.snapshotPublicationMissingPin entry.blob.hash))
  let depot ← look
  lift (verifySnapshotFiles C Z manifest depot.blobs)
  if (depot.slot manifest.snapshotNumber).exists then commitTaken C world manifest
  else commitFree C world fence manifest

/-- `validate_replica_direct_extension`. -/
def validateReplicaExtension (previous : Option SnapshotManifestV1)
    (manifest : SnapshotManifestV1) : Except StorageError Unit :=
  match previous with
  | none =>
    ensure (manifest.snapshotNumber = 1 ∧ manifest.previousSnapshotHash = none)
      (.snapshotHistoryConflict manifest.snapshotNumber)
  | some previous =>
    if manifest = previous then pure ()
    else do
      let expectedNumber ← required (checkedSucc previous.snapshotNumber)
        (.counterExhausted "snapshot number")
      let expectedSequence ← required (checkedSucc previous.sequence)
        (.counterExhausted "snapshot sequence")
      ensure (manifest.snapshotNumber = expectedNumber ∧ manifest.sequence = expectedSequence ∧
        manifest.previousSnapshotHash = some (previous.manifestHash C))
        (.snapshotHistoryConflict manifest.snapshotNumber)

/-- `finalize_replica`. -/
def finalizeReplica (manifest : SnapshotManifestV1) : Program StorageError Depot Unit := do
  lift (asStorage (manifest.validateSemantics C))
  let current ← latestCanonicalSnapshot C world
  lift (validateReplicaExtension C current manifest)
  let depot ← look
  lift (ensure (depot.blobs.missing C Z manifest = [])
    (.incomplete manifest.snapshotNumber))
  let latest ← latestCanonicalSnapshot C world
  if latest = some manifest then pure ()
  else commitSnapshotStreaming C Z world none none manifest

/-! ## Retention -/

/-- `RetentionPolicy`. -/
structure RetentionPolicy where
  keepLatest : Nat
  protectedSnapshots : List Nat
  deriving DecidableEq

/-- The record of a file that is there must load. -/
def requiredRecord {α : Type} (file : Bool) (load : Except StorageError α) (hashes : α → List Hash32) :
    Except StorageError (List Hash32) :=
  if file then do
    let record ← load
    pure (hashes record)
  else pure []

/-- The snapshots that control records stand on. -/
def requiredHashes (control : Store) : Except StorageError (List Hash32) := do
  let transfer ← requiredRecord control.transfer.exists (loadTransferRecord world control)
    fun transfer => [transfer.baseSnapshotHash]
  let sleep ← requiredRecord control.sleep.exists (loadSleepRecord world control)
    fun record => [record.latestSnapshotHash]
  let promise ← requiredRecord control.recoveryPromise.exists (loadRecoveryPromise C world control)
    fun promise => [promise.ballot.baseSnapshotHash]
  let certificate ← requiredRecord control.recoveryCertificate.exists
    (loadRecoveryCertificate world control) fun certificate => [certificate.ballot.baseSnapshotHash]
  let branch ← requiredRecord control.soloBranch.exists (loadSoloBranch world control)
    fun branch => [branch.baseSnapshotHash, branch.headSnapshotHash]
  let conflicts := control.soloConflicts.flatMap fun branch =>
    [branch.baseSnapshotHash, branch.headSnapshotHash]
  pure (transfer ++ sleep ++ promise ++ certificate ++ branch ++ conflicts)

/-- `retention_roots`: the numbers of the snapshots that stay. -/
def retentionRoots (policy : RetentionPolicy) (snapshots : List SnapshotManifestV1)
    (control : Store) : Except StorageError (List Nat) := do
  let hashes ← requiredHashes C world control
  let needed ← hashes.mapM fun hash =>
    match snapshots.find? fun manifest => decide (manifest.manifestHash C = hash) with
    | some manifest => pure manifest.snapshotNumber
    | none => throw (.missingRequiredSnapshot hash)
  let newest := (snapshots.reverse.take policy.keepLatest).map SnapshotManifestV1.snapshotNumber
  let latest := snapshots.getLast?.map SnapshotManifestV1.snapshotNumber
  pure (policy.protectedSnapshots ++ latest.toList ++ newest ++ needed)

/-- Remove manifests one after the other. -/
def dropAll : List Nat → Program StorageError Depot Unit
  | [] => pure ()
  | number :: rest => do
    step (Depot.drop number)
    dropAll rest

/-- `prune_snapshots`. -/
def pruneSnapshots (policy : RetentionPolicy) : Program StorageError Depot Unit := do
  let snapshots ← listSnapshots C world
  if snapshots = [] then pure ()
  else do
    let depot ← look
    let retained ← lift (retentionRoots C world policy snapshots depot.control)
    dropAll ((snapshots.map SnapshotManifestV1.snapshotNumber).filter fun number =>
      decide (number ∉ retained))

/-- Remove the complete blobs whose hash is not live. -/
def Depot.sweep (live : List Hash32) (depot : Depot) : Depot :=
  { depot with blobs := { depot.blobs with
      complete := fun key => if key.hash ∈ live then depot.blobs.complete key else none } }

/-- `garbage_collect_blobs`, with the pins of publications and replications; the sweep is the sum of
its removals. -/
def garbageCollectBlobs (pins : List Hash32) : Program StorageError Depot Unit := do
  let snapshots ← listSnapshots C world
  step (Depot.sweep (snapshots.flatMap (fun manifest =>
    manifest.entries.map fun entry => entry.blob.hash) ++ pins))

end SwarmCraft
