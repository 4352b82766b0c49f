import SwarmCraft.Consensus.Authority

/-!
# Durable store of one world

The files under a world's directory that the control plane reads and writes. A file
is absent, unreadable or holds a record; loading a record checks it again. Every
write of the source replaces one file atomically, so a store after a crash is one of
the stores between two writes.

The write operations of the control plane are functions on the store, each with the
lemma that says what a successful call did. Epoch records only move up in the order
of generations; a recovery promise is replaced only by a higher round of the same
ballot value, a membership promise never.
-/

namespace SwarmCraft

open Checked

/-- One durable file. -/
inductive DurableFile (α : Type) where
  /-- There is no such file. -/
  | absent
  /-- The file is there and does not decode. -/
  | unreadable
  /-- The file holds a record. -/
  | present (value : α)
  deriving DecidableEq

/-- What holds of the record in a file can be decided by reading it. -/
instance decidableForallPresent {α : Type} {p : α → Prop} [DecidablePred p] :
    (file : DurableFile α) → Decidable (∀ a, file = .present a → p a)
  | .absent => isTrue fun _ heq => nomatch heq
  | .unreadable => isTrue fun _ heq => nomatch heq
  | .present a => decidable_of_iff (p a) ⟨fun h _ heq => by cases heq; exact h, fun h => h a rfl⟩

/-- Why the file system refuses an operation. -/
inductive FileErrorKind where
  | notFound
  | alreadyExists
  | notADirectory
  | isADirectory
  | directoryNotEmpty
  deriving DecidableEq

/-- Failures of the storage layer. -/
inductive StorageError where
  | notFound
  | decode
  | worldNotFound
  | worldMetadataMismatch
  | counterExhausted (what : String)
  | snapshotNumberExhausted
  | snapshotHistoryConflict (snapshotNumber : Nat)
  | snapshotManifestConflict (snapshotNumber : Nat)
  | snapshotFenceMismatch (expectedEpoch expectedFencingToken : Nat)
  | snapshotCommitIncomplete
  | blobCorrupt (hash : Hash32)
  | stateRootMismatch
  | unsupportedProtocol (version : Nat)
  | incomplete (snapshotNumber : Nat)
  | snapshotNotFound (number : Nat)
  | missingCanonicalHead
  | missingCanonicalHeadTarget (snapshotNumber : Nat) (manifestHash : Hash32)
  | canonicalHeadMismatch (snapshotNumber : Nat)
  | uncommittedSnapshotOrphan (snapshotNumber : Nat)
  | snapshotPublicationMissingPin (hash : Hash32)
  | missingRequiredSnapshot (hash : Hash32)
  | garbageCollectionActive
  | offsetMismatch (expected received : Nat)
  | sizeMismatch (expected received : Nat)
  | unsafeRelativePath (path : String)
  | portablePathCollision (path : String)
  | restoreIncomplete
  | file (kind : FileErrorKind)
  | protocol (error : ProtocolError)
  deriving DecidableEq

/-- `fs::read` followed by decoding. -/
def DurableFile.read {α : Type} : DurableFile α → Except StorageError α
  | .absent => .error .notFound
  | .unreadable => .error .decode
  | .present value => .ok value

/-- `Path::exists`. -/
def DurableFile.exists {α : Type} : DurableFile α → Bool
  | .absent => false
  | _ => true

/-- A read returns exactly the record the file holds. -/
@[simp] theorem DurableFile.read_eq_ok {α : Type} {file : DurableFile α} {value : α} :
    file.read = .ok value ↔ file = .present value := by
  cases file <;> simp [read]

/-- The creation metadata of a world directory. -/
structure WorldMetadataV1 where
  worldId : WorldId
  genesis : WorldGenesisV1
  deriving DecidableEq

/-- `DurableRecoveryPromiseV1`. -/
structure DurableRecoveryPromiseV1 where
  ballot : RecoveryBallotV1
  vote : RecoveryVoteV1
  deriving DecidableEq

/-- `DurableMembershipPromiseV1`. -/
structure DurableMembershipPromiseV1 where
  proposal : MembershipProposalV1
  vote : MembershipVoteV1
  deriving DecidableEq

/-- The permit file: the server may run for a generation while the heartbeat advances. -/
structure AuthorityPermit where
  generation : AuthorityGeneration
  heartbeat : Nat
  deriving DecidableEq

/-- The durable state of one world at one peer. -/
structure Store where
  /-- `world.json`. -/
  metadata : DurableFile WorldMetadataV1
  /-- `descriptor.json`. -/
  descriptor : DurableFile WorldDescriptorV1
  /-- `membership.postcard`. -/
  membership : DurableFile MembershipRecordV1
  /-- `membership-promise.postcard`. -/
  membershipPromise : DurableFile DurableMembershipPromiseV1
  /-- `membership-certificate.postcard`. -/
  membershipCertificate : DurableFile MembershipCertificateV1
  /-- `membership-certificates/`, one certificate for each sequence number. -/
  membershipCertificates : List MembershipCertificateV1
  /-- `pending-join.postcard`. -/
  pendingJoin : DurableFile JoinRequestV1
  /-- `pending-leave.postcard`. -/
  pendingLeave : DurableFile LeaveRequestV1
  /-- `epoch.postcard`. -/
  epoch : DurableFile EpochRecordV1
  /-- `recovery-promise.postcard`. -/
  recoveryPromise : DurableFile DurableRecoveryPromiseV1
  /-- `recovery-certificate.postcard`. -/
  recoveryCertificate : DurableFile RecoveryCertificateV1
  /-- `transfer.postcard`. -/
  transfer : DurableFile AuthorityTransferV1
  /-- `sleep.postcard`. -/
  sleep : DurableFile SleepRecordV1
  /-- `solo-branch.postcard`. -/
  soloBranch : DurableFile SoloBranchV1
  /-- `recovery/solo-conflicts/`, one branch for each hash. -/
  soloConflicts : List SoloBranchV1
  /-- The committed snapshots, the canonical head first. -/
  snapshots : List SnapshotManifestV1
  /-- A snapshot commit was begun and not finished. -/
  commitPending : Bool
  /-- The blobs whose stored bytes verify. -/
  blobs : List BlobDescriptor
  /-- The operator's wake request marker. -/
  wakeRequested : Bool
  /-- The server permit file. -/
  permit : Option AuthorityPermit
  /-- `allow_solo_advancement` of the stored world configuration, where there is one. -/
  soloPolicy : Option Bool
  deriving DecidableEq

/-- The store of a peer that never saw the world. -/
def Store.empty : Store where
  metadata := .absent
  descriptor := .absent
  membership := .absent
  membershipPromise := .absent
  membershipCertificate := .absent
  membershipCertificates := []
  pendingJoin := .absent
  pendingLeave := .absent
  epoch := .absent
  recoveryPromise := .absent
  recoveryCertificate := .absent
  transfer := .absent
  sleep := .absent
  soloBranch := .absent
  soloConflicts := []
  snapshots := []
  commitPending := false
  blobs := []
  wakeRequested := false
  permit := none
  soloPolicy := none

/-- Read a file and check the record in it again. -/
def DurableFile.load {α : Type} (file : DurableFile α) (check : α → Except StorageError Unit) :
    Except StorageError α := do
  let value ← file.read
  check value
  pure value

/-- Loading returns the record of the file, once it passes its check. -/
@[simp] theorem DurableFile.load_eq_ok {α : Type} {file : DurableFile α}
    {check : α → Except StorageError Unit} {value : α} :
    file.load check = .ok value ↔ file = .present value ∧ check value = .ok () := by
  simp only [load, bind_eq_ok, read_eq_ok, pure_eq_ok]
  constructor
  · rintro ⟨_, hfile, ⟨⟩, hcheck, rfl⟩
    exact ⟨hfile, hcheck⟩
  · rintro ⟨hfile, hcheck⟩
    exact ⟨value, hfile, (), hcheck, rfl⟩

section Load

variable (C : Crypto) (world : WorldId) (store : Store)

/-- Relabel a protocol failure as a storage failure. -/
def asStorage {α : Type} (x : Except ProtocolError α) : Except StorageError α :=
  x.mapError StorageError.protocol

/-- A record belongs to the world of the directory it is loaded from. -/
def requireWorld (recordWorld : WorldId) : Except StorageError Unit :=
  ensure (recordWorld = world) .worldMetadataMismatch

/-- `load_world`. -/
def loadWorld : Except StorageError WorldMetadataV1 := do
  ensure (store.metadata.exists = true) .worldNotFound
  store.metadata.load fun metadata =>
    ensure (metadata.worldId = world ∧ metadata.genesis.worldId C = world)
      .worldMetadataMismatch

/-- `load_world_descriptor`. -/
def loadWorldDescriptor : Except StorageError WorldDescriptorV1 :=
  store.descriptor.load fun descriptor => do
    requireWorld world descriptor.worldId
    asStorage descriptor.validateSemantics

/-- `load_membership_record`. -/
def loadMembershipRecord : Except StorageError MembershipRecordV1 :=
  store.membership.load fun record => do
    requireWorld world record.worldId
    asStorage record.validateSemantics

/-- `load_membership_promise`. -/
def loadMembershipPromise : Except StorageError DurableMembershipPromiseV1 :=
  store.membershipPromise.load fun promise =>
    ensure (promise.proposal.proposed.worldId = world ∧
      promise.vote.matchesProposal C promise.proposal = true) .worldMetadataMismatch

/-- `load_membership_certificate`. -/
def loadMembershipCertificate : Except StorageError MembershipCertificateV1 :=
  store.membershipCertificate.load fun certificate =>
    requireWorld world certificate.proposal.proposed.worldId

/-- `load_pending_join`. -/
def loadPendingJoin : Except StorageError JoinRequestV1 :=
  store.pendingJoin.load fun request => do
    requireWorld world request.worldId
    asStorage (request.validateSemantics C)

/-- `load_pending_leave`. -/
def loadPendingLeave : Except StorageError LeaveRequestV1 :=
  store.pendingLeave.load fun request => do
    requireWorld world request.worldId
    asStorage (request.validateSemantics C)

/-- `load_epoch_record`. -/
def loadEpochRecord : Except StorageError EpochRecordV1 :=
  store.epoch.load fun record => do
    requireWorld world record.worldId
    asStorage record.validateSemantics

/-- `load_recovery_promise`. -/
def loadRecoveryPromise : Except StorageError DurableRecoveryPromiseV1 :=
  store.recoveryPromise.load fun promise => do
    asStorage promise.ballot.validateSemantics
    asStorage promise.vote.validateSemantics
    ensure (promise.ballot.worldId = world ∧ promise.vote.worldId = world ∧
      promise.vote.matchesBallot C promise.ballot = true) .worldMetadataMismatch

/-- `load_recovery_certificate`. -/
def loadRecoveryCertificate : Except StorageError RecoveryCertificateV1 :=
  store.recoveryCertificate.load fun certificate => requireWorld world certificate.ballot.worldId

/-- `load_transfer_record`. -/
def loadTransferRecord : Except StorageError AuthorityTransferV1 :=
  store.transfer.load fun transfer => do
    requireWorld world transfer.worldId
    asStorage transfer.validateSemantics

/-- `load_sleep_record`. -/
def loadSleepRecord : Except StorageError SleepRecordV1 :=
  store.sleep.load fun record => do
    requireWorld world record.worldId
    asStorage record.validateSemantics

/-- `load_solo_branch`. -/
def loadSoloBranch : Except StorageError SoloBranchV1 :=
  store.soloBranch.load fun branch => do
    requireWorld world branch.worldId
    asStorage branch.validateSemantics

/-- `latest_snapshot`: the manifest of the canonical head, unless a commit was interrupted. -/
def latestSnapshot : Except StorageError (Option SnapshotManifestV1) := do
  ensure (store.commitPending = false) .snapshotCommitIncomplete
  pure store.snapshots.head?

/-- `has_complete_blob`. -/
def hasCompleteBlob (descriptor : BlobDescriptor) : Bool := store.blobs.contains descriptor

/-- `verify_snapshot`: the shape of the manifest and every blob it names. -/
def verifySnapshot (manifest : SnapshotManifestV1) : Except StorageError Unit := do
  ensure (manifest.protocolVersion = protocolVersionV1)
    (.unsupportedProtocol manifest.protocolVersion)
  ensure (snapshotStateRoot C manifest.entries = manifest.stateRoot) .stateRootMismatch
  manifest.entries.forM fun entry =>
    ensure (hasCompleteBlob store entry.blob = true) (.blobCorrupt entry.blob.hash)

end Load

section LoadFacts

variable {C : Crypto} {world : WorldId} {store : Store}

/-- A loaded descriptor is the stored one and belongs to the world. -/
theorem loadWorldDescriptor_eq_ok {descriptor : WorldDescriptorV1} :
    loadWorldDescriptor world store = .ok descriptor ↔
      store.descriptor = .present descriptor ∧ descriptor.worldId = world ∧
        descriptor.validateSemantics = .ok () := by
  simp [loadWorldDescriptor, requireWorld, asStorage]

/-- A loaded membership record is the stored one and belongs to the world. -/
theorem loadMembershipRecord_eq_ok {record : MembershipRecordV1} :
    loadMembershipRecord world store = .ok record ↔
      store.membership = .present record ∧ record.worldId = world ∧
        record.validateSemantics = .ok () := by
  simp [loadMembershipRecord, requireWorld, asStorage]

/-- A loaded epoch record is the stored one and belongs to the world. -/
theorem loadEpochRecord_eq_ok {record : EpochRecordV1} :
    loadEpochRecord world store = .ok record ↔
      store.epoch = .present record ∧ record.worldId = world ∧
        record.validateSemantics = .ok () := by
  simp [loadEpochRecord, requireWorld, asStorage]

end LoadFacts

variable (C : Crypto) (world : WorldId)
variable {record : EpochRecordV1} {store store' : Store}
variable {existing : EpochRecordV1} {ballot : RecoveryBallotV1} {vote : RecoveryVoteV1}

/-! ## Epoch records -/

/-- `save_epoch_record`. -/
def saveEpochRecord (record : EpochRecordV1) (store : Store) : Except StorageError Store := do
  asStorage record.validateSemantics
  if store.epoch.exists then
    let existing ← loadEpochRecord record.worldId store
    if record.generation < existing.generation then throw .worldMetadataMismatch
    else if record.generation = existing.generation then
      if existing = record then pure store else throw .worldMetadataMismatch
    else pure { store with epoch := .present record }
  else pure { store with epoch := .present record }

section

variable (h : saveEpochRecord record store = .ok store')

include h

/-- Only a well-formed record is saved. -/
theorem saveEpochRecord_valid : record.validateSemantics = .ok () := by
  simp only [saveEpochRecord, bind_eq_ok, asStorage, mapError_eq_ok] at h
  obtain ⟨_, hvalid, _⟩ := h
  exact hvalid

/-- A successful save installs the record and either found no file, found the same record or
moved to a later generation. -/
theorem saveEpochRecord_eq_ok : store' = { store with epoch := .present record } ∧
      (store.epoch = .absent ∨ store.epoch = .present record ∨
        ∃ existing, store.epoch = .present existing ∧ existing.generation < record.generation) := by
  simp only [saveEpochRecord, bind_eq_ok] at h
  obtain ⟨_, _, h⟩ := h
  cases hfile : store.epoch with
  | absent =>
    simp only [hfile, DurableFile.exists, Bool.false_eq_true, if_false, pure_eq_ok] at h
    exact ⟨h.symm, .inl rfl⟩
  | unreadable =>
    simp [hfile, DurableFile.exists, loadEpochRecord] at h
  | present existing =>
    simp only [hfile, DurableFile.exists, if_true, bind_eq_ok, loadEpochRecord,
      DurableFile.load_eq_ok, DurableFile.present.injEq] at h
    obtain ⟨_, ⟨rfl, _⟩, h⟩ := h
    split at h
    · simp at h
    · rename_i hnotlt
      split at h
      · split at h
        · rename_i heq
          subst heq
          simp only [pure_eq_ok] at h
          subst h
          exact ⟨by rw [← hfile], .inr (.inl rfl)⟩
        · simp at h
      · rename_i hne
        simp only [pure_eq_ok] at h
        rcases AuthorityGeneration.trichotomy existing.generation record.generation with
          hlt | heq | hgt
        · exact ⟨h.symm, .inr (.inr ⟨existing, rfl, hlt⟩)⟩
        · exact absurd heq.symm hne
        · exact absurd hgt hnotlt

/-- A record is saved over a file only where the file can be loaded. -/
theorem saveEpochRecord_loaded (hfile : store.epoch = .present existing) :
    loadEpochRecord record.worldId store = .ok existing := by
  simp only [saveEpochRecord, bind_eq_ok, hfile, DurableFile.exists, if_true] at h
  obtain ⟨_, _, found, hfound, _⟩ := h
  have hpresent := (loadEpochRecord_eq_ok.mp hfound).1
  rw [hfile, DurableFile.present.injEq] at hpresent
  exact hpresent ▸ hfound

end

/-- A well-formed record of a later generation is saved. -/
theorem saveEpochRecord_advance (hvalid : record.validateSemantics = .ok ())
    (hload : loadEpochRecord record.worldId store = .ok existing)
    (hlt : existing.generation < record.generation) :
    saveEpochRecord record store = .ok { store with epoch := .present record } := by
  have hfile := (loadEpochRecord_eq_ok.mp hload).1
  have hnotlt : ¬ record.generation < existing.generation :=
    fun hgt => AuthorityGeneration.lt_irrefl _ (AuthorityGeneration.lt_trans hlt hgt)
  have hne : record.generation ≠ existing.generation :=
    fun heq => AuthorityGeneration.lt_irrefl _ (heq ▸ hlt)
  simp only [saveEpochRecord, bind_eq_ok, asStorage, mapError_eq_ok]
  refine ⟨(), hvalid, ?_⟩
  rw [if_pos (by simp [hfile, DurableFile.exists]), bind_eq_ok]
  refine ⟨existing, hload, ?_⟩
  rw [if_neg hnotlt, if_neg hne]
  rfl

/-! ## Recovery promises -/

/-- The answers of `promise_recovery_ballot`. -/
inductive RecoveryPromiseResult where
  | accepted
  | idempotent
  | rejected (highestRound : Nat)
  deriving DecidableEq

/-- `same_recovery_base`: the canonical base and the candidate are the same. -/
def sameRecoveryBase (a b : RecoveryBallotV1) : Bool :=
  decide (a.worldId = b.worldId)
    && decide (a.baseEpoch = b.baseEpoch)
    && decide (a.baseFencingToken = b.baseFencingToken)
    && decide (a.targetEpoch = b.targetEpoch)
    && decide (a.targetFencingToken = b.targetFencingToken)
    && decide (a.candidatePeerId = b.candidatePeerId)
    && decide (a.candidatePublicKey = b.candidatePublicKey)
    && decide (a.baseSnapshotHash = b.baseSnapshotHash)
    && decide (a.baseStateHash = b.baseStateHash)
    && decide (a.membershipHash = b.membershipHash)

/-- The vote is for the ballot and both name peers by their own keys. -/
def promisable (ballot : RecoveryBallotV1) (vote : RecoveryVoteV1) : Bool :=
  vote.matchesBallot C ballot
    && decide (C.peerIdFromPublicKey ballot.candidatePublicKey = ballot.candidatePeerId)
    && decide (C.peerIdFromPublicKey vote.voterPublicKey = vote.voterPeerId)

/-- The stored round that a rejected caller is told, zero where no promise can be read. -/
def promisedRound (store : Store) : Nat :=
  match loadRecoveryPromise C world store with
  | .ok promise => promise.ballot.round
  | .error _ => 0

/-- A missing promise file counts as no promise; any other failure to load it is an error. -/
def existingRecoveryPromise (store : Store) :
    Except StorageError (Option DurableRecoveryPromiseV1) :=
  if store.recoveryPromise.exists then do
    let promise ← loadRecoveryPromise C world store
    pure (some promise)
  else pure none

/-- `promise_recovery_ballot`. -/
def promiseRecoveryBallot (ballot : RecoveryBallotV1) (vote : RecoveryVoteV1) (store : Store) :
    Except StorageError (RecoveryPromiseResult × Store) := do
  asStorage ballot.validateSemantics
  asStorage vote.validateSemantics
  if promisable C ballot vote = false then
    pure (.rejected (promisedRound C ballot.worldId store), store)
  else
    match ← existingRecoveryPromise C ballot.worldId store with
    | none => pure (.accepted, { store with recoveryPromise := .present ⟨ballot, vote⟩ })
    | some existing =>
      if ballot.round < existing.ballot.round then
        pure (.rejected existing.ballot.round, store)
      else if ballot.round = existing.ballot.round then
        if ballot.ballotHash C = existing.ballot.ballotHash C then pure (.idempotent, store)
        else pure (.rejected existing.ballot.round, store)
      else if sameRecoveryBase existing.ballot ballot = false then
        pure (.rejected existing.ballot.round, store)
      else pure (.accepted, { store with recoveryPromise := .present ⟨ballot, vote⟩ })

variable {C world} in
/-- The promise found is the loaded one; none is found only where there is no file. -/
theorem existingRecoveryPromise_eq_ok {found : Option DurableRecoveryPromiseV1}
    (h : existingRecoveryPromise C world store = .ok found) :
    match found with
    | none => store.recoveryPromise = .absent
    | some promise => loadRecoveryPromise C world store = .ok promise := by
  unfold existingRecoveryPromise at h
  split at h
  · simp only [bind_eq_ok, pure_eq_ok] at h
    obtain ⟨promise, hload, rfl⟩ := h
    exact hload
  · rename_i hexists
    simp only [pure_eq_ok] at h
    subst h
    cases hfile : store.recoveryPromise with
    | absent => rfl
    | unreadable => simp [hfile, DurableFile.exists] at hexists
    | present promise => simp [hfile, DurableFile.exists] at hexists

variable {C world} in
/-- A ballot for the promised value in a higher round, or the first ballot, is accepted. -/
theorem promiseRecoveryBallot_accepted (hballot : ballot.validateSemantics = .ok ())
    (hvote : vote.validateSemantics = .ok ()) (hpromisable : promisable C ballot vote = true)
    (hfree : store.recoveryPromise = .absent ∨
      ∃ existing, loadRecoveryPromise C ballot.worldId store = .ok existing ∧
        existing.ballot.round < ballot.round ∧ sameRecoveryBase existing.ballot ballot = true) :
    promiseRecoveryBallot C ballot vote store =
      .ok (.accepted, { store with recoveryPromise := .present ⟨ballot, vote⟩ }) := by
  simp only [promiseRecoveryBallot, bind_eq_ok, asStorage, mapError_eq_ok]
  refine ⟨(), hballot, (), hvote, ?_⟩
  rw [if_neg (by simp [hpromisable]), bind_eq_ok]
  rcases hfree with habsent | ⟨existing, hload, hround, hsame⟩
  · refine ⟨none, ?_, rfl⟩
    simp [existingRecoveryPromise, habsent, DurableFile.exists, pure, Except.pure]
  · have hfile := (DurableFile.load_eq_ok.mp hload).1
    refine ⟨some existing, ?_, ?_⟩
    · simp [existingRecoveryPromise, hfile, DurableFile.exists, hload]
    · dsimp only
      rw [if_neg (Nat.lt_asymm hround), if_neg (Nat.ne_of_gt hround), if_neg (by simp [hsame])]
      rfl

variable {C world} in
/-- What each answer of `promiseRecoveryBallot` says about the store. -/
theorem promiseRecoveryBallot_eq_ok {result : RecoveryPromiseResult}
    (h : promiseRecoveryBallot C ballot vote store = .ok (result, store')) :
    ballot.generationIsWellFormed = true ∧
    match result with
    | .rejected _ => store' = store
    | .idempotent => store' = store ∧ promisable C ballot vote = true ∧
        ∃ existing, loadRecoveryPromise C ballot.worldId store = .ok existing ∧
          existing.ballot.unsigned = ballot.unsigned
    | .accepted => store' = { store with recoveryPromise := .present ⟨ballot, vote⟩ } ∧
        promisable C ballot vote = true ∧
        (store.recoveryPromise = .absent ∨ ∃ existing, store.recoveryPromise = .present existing ∧
          existing.ballot.round < ballot.round ∧ sameRecoveryBase existing.ballot ballot = true) := by
  simp only [promiseRecoveryBallot, bind_eq_ok, asStorage, mapError_eq_ok] at h
  obtain ⟨_, hballot, _, _, h⟩ := h
  refine ⟨RecoveryBallotV1.validateSemantics_eq_ok.mp hballot, ?_⟩
  split at h
  · simp only [pure_eq_ok, Prod.mk.injEq] at h
    obtain ⟨rfl, rfl⟩ := h
    rfl
  · rename_i hpromisable
    rw [Bool.not_eq_false] at hpromisable
    simp only [bind_eq_ok] at h
    obtain ⟨existing, hexisting, h⟩ := h
    cases existing with
    | none =>
      simp only [pure_eq_ok, Prod.mk.injEq] at h
      obtain ⟨rfl, rfl⟩ := h
      exact ⟨rfl, hpromisable, .inl (existingRecoveryPromise_eq_ok hexisting)⟩
    | some existing =>
      have hload := existingRecoveryPromise_eq_ok hexisting
      simp only at h
      split at h
      · simp only [pure_eq_ok, Prod.mk.injEq] at h
        obtain ⟨rfl, rfl⟩ := h
        rfl
      · split at h
        · split at h
          · rename_i hhash
            simp only [pure_eq_ok, Prod.mk.injEq] at h
            obtain ⟨rfl, rfl⟩ := h
            exact ⟨rfl, hpromisable, existing, hload,
              (RecoveryBallotV1.ballotHash_inj C).mp hhash.symm⟩
          · simp only [pure_eq_ok, Prod.mk.injEq] at h
            obtain ⟨rfl, rfl⟩ := h
            rfl
        · split at h
          · simp only [pure_eq_ok, Prod.mk.injEq] at h
            obtain ⟨rfl, rfl⟩ := h
            rfl
          · rename_i hlow hne hbase
            rw [Bool.not_eq_false] at hbase
            simp only [pure_eq_ok, Prod.mk.injEq] at h
            obtain ⟨rfl, rfl⟩ := h
            have hfile : store.recoveryPromise = .present existing :=
              (DurableFile.load_eq_ok.mp hload).1
            exact ⟨rfl, hpromisable, .inr ⟨existing, hfile, by omega, hbase⟩⟩

/-- `clear_recovery_promise_after_epoch_advance`. -/
def clearRecoveryPromiseAfterEpochAdvance (acceptedEpoch : Nat) (store : Store) : Store :=
  match loadRecoveryPromise C world store with
  | .error _ => store
  | .ok promise =>
    if acceptedEpoch < promise.ballot.targetEpoch then store
    else { store with recoveryPromise := .absent }

variable {C world} in
/-- Clearing changes nothing, or removes a promise whose base the accepted epoch has left. -/
theorem clearRecoveryPromise_cases (acceptedEpoch : Nat) (store : Store) :
    clearRecoveryPromiseAfterEpochAdvance C world acceptedEpoch store = store ∨
      ∃ promise, store.recoveryPromise = .present promise ∧
        promise.ballot.baseEpoch < acceptedEpoch ∧
        clearRecoveryPromiseAfterEpochAdvance C world acceptedEpoch store =
          { store with recoveryPromise := .absent } := by
  unfold clearRecoveryPromiseAfterEpochAdvance
  cases hload : loadRecoveryPromise C world store with
  | error error => exact .inl rfl
  | ok promise =>
    simp only [loadRecoveryPromise, DurableFile.load_eq_ok, bind_eq_ok, asStorage,
      mapError_eq_ok] at hload
    obtain ⟨hfile, _, hballot, _⟩ := hload
    have htarget := RecoveryBallotV1.targetEpoch_eq
      (RecoveryBallotV1.validateSemantics_eq_ok.mp hballot)
    simp only
    split
    · exact .inl rfl
    · exact .inr ⟨promise, hfile, by omega, rfl⟩

/-! ## Membership promises -/

/-- The answers of `promise_membership_proposal`. -/
inductive MembershipPromiseResult where
  | accepted
  | idempotent
  | rejected
  deriving DecidableEq

/-- `promise_membership_proposal`; an unreadable promise is overwritten. -/
def promiseMembershipProposal (proposal : MembershipProposalV1) (vote : MembershipVoteV1)
    (store : Store) : MembershipPromiseResult × Store :=
  if proposal.validateShape C = true ∧ vote.matchesProposal C proposal = true then
    match loadMembershipPromise C proposal.proposed.worldId store with
    | .ok existing =>
      if existing.proposal.proposalHash C = proposal.proposalHash C then (.idempotent, store)
      else (.rejected, store)
    | .error _ => (.accepted, { store with membershipPromise := .present ⟨proposal, vote⟩ })
  else (.rejected, store)

variable {C} in
/-- What each answer of `promiseMembershipProposal` says about the store. -/
theorem promiseMembershipProposal_eq {proposal : MembershipProposalV1} {vote : MembershipVoteV1}
    {result : MembershipPromiseResult}
    (h : promiseMembershipProposal C proposal vote store = (result, store')) :
    match result with
    | .rejected => store' = store
    | .idempotent => store' = store ∧ proposal.validateShape C = true ∧
        ∃ existing, loadMembershipPromise C proposal.proposed.worldId store = .ok existing ∧
          existing.proposal = proposal
    | .accepted => store' = { store with membershipPromise := .present ⟨proposal, vote⟩ } ∧
        proposal.validateShape C = true ∧ vote.matchesProposal C proposal = true ∧
        ∀ existing, loadMembershipPromise C proposal.proposed.worldId store ≠ .ok existing := by
  unfold promiseMembershipProposal at h
  split at h
  · rename_i hshape
    cases hload : loadMembershipPromise C proposal.proposed.worldId store with
    | ok existing =>
      simp only [hload] at h
      split at h
      · rename_i hhash
        obtain ⟨rfl, rfl⟩ := Prod.mk.inj h
        exact ⟨rfl, hshape.1, existing, rfl, (MembershipProposalV1.proposalHash_inj C).mp hhash⟩
      · obtain ⟨rfl, rfl⟩ := Prod.mk.inj h
        rfl
    | error error =>
      simp only [hload] at h
      obtain ⟨rfl, rfl⟩ := Prod.mk.inj h
      exact ⟨rfl, hshape.1, hshape.2, by simp⟩
  · obtain ⟨rfl, rfl⟩ := Prod.mk.inj h
    rfl

/-- `clear_membership_promise_after_commit`. -/
def clearMembershipPromiseAfterCommit (committedHash : Hash32) (store : Store) : Store :=
  match loadMembershipPromise C world store with
  | .error _ => store
  | .ok promise =>
    if promise.proposal.proposed.recordHash C = committedHash then
      { store with membershipPromise := .absent }
    else store

variable {C world} in
/-- Clearing changes nothing, or removes the promise of the committed record. -/
theorem clearMembershipPromise_cases (record : MembershipRecordV1) (store : Store) :
    clearMembershipPromiseAfterCommit C world (record.recordHash C) store = store ∨
      ∃ promise, store.membershipPromise = .present promise ∧ promise.proposal.proposed = record ∧
        clearMembershipPromiseAfterCommit C world (record.recordHash C) store =
          { store with membershipPromise := .absent } := by
  unfold clearMembershipPromiseAfterCommit
  cases hload : loadMembershipPromise C world store with
  | error error => exact .inl rfl
  | ok promise =>
    have hfile := (DurableFile.load_eq_ok.mp hload).1
    simp only
    split
    · rename_i hhash
      exact .inr ⟨promise, hfile, (MembershipRecordV1.recordHash_inj C).mp hhash, rfl⟩
    · exact .inl rfl

/-! ## Certificates, transfers and sleep -/

/-- `save_recovery_certificate`. -/
def saveRecoveryCertificate (certificate : RecoveryCertificateV1) (store : Store) :
    Except StorageError Store := do
  let _ ← loadWorld C certificate.ballot.worldId store
  pure { store with recoveryCertificate := .present certificate }

/-- `save_transfer_record`. -/
def saveTransferRecord (transfer : AuthorityTransferV1) (store : Store) :
    Except StorageError Store := do
  asStorage transfer.validateSemantics
  pure { store with transfer := .present transfer }

/-- `save_sleep_record`. -/
def saveSleepRecord (record : SleepRecordV1) (store : Store) : Except StorageError Store := do
  asStorage record.validateSemantics
  pure { store with sleep := .present record }

/-- `save_solo_branch`. -/
def saveSoloBranch (branch : SoloBranchV1) (store : Store) : Except StorageError Store := do
  asStorage branch.validateSemantics
  pure { store with soloBranch := .present branch }

/-- `preserve_solo_conflict`. -/
def preserveSoloConflict (branch : SoloBranchV1) (store : Store) : Except StorageError Store := do
  asStorage branch.validateSemantics
  if store.soloConflicts.any fun kept => decide (kept.branchHash C = branch.branchHash C) then
    pure store
  else pure { store with soloConflicts := store.soloConflicts ++ [branch] }

/-- `clear_sleep_record`. -/
def clearSleepRecord (store : Store) : Store := { store with sleep := .absent }

/-- `clear_world_wake_request`. -/
def clearWorldWakeRequest (store : Store) : Store := { store with wakeRequested := false }

end SwarmCraft
