import SwarmCraft.Daemon.Tick

/-!
# Operator commands

The commands of the command line and of the migration supervisor that touch the
control files of a world: the three phases of a manual transfer with its activation
and observation, preparing and finishing a hosted session, direct snapshots, wake
requests, and staged joins and leaves. They run in another process than the daemon
and share only the store with it.
-/

namespace SwarmCraft

open Checked Effect

variable (C : Crypto) (site : Site)

/-! ## Transfer records -/

/-- `transfer_is_source_generation`. -/
def transferIsSourceGeneration (transfer : AuthorityTransferV1) (current : EpochRecordV1) : Bool :=
  decide (transfer.nextEpoch ≠ 0) && decide (transfer.nextFencingToken ≠ 0)
    && decide (transfer.worldId = current.worldId)
    && decide (transfer.fromPeerId = current.authorityPeerId)
    && decide (transfer.nextEpoch - 1 = current.epochNumber)
    && decide (transfer.nextFencingToken - 1 = current.fencingToken)

/-- A transfer of the accepted generation names its authority and the next generation. -/
theorem transferIsSourceGeneration_iff {transfer : AuthorityTransferV1} {current : EpochRecordV1}
    (hworld : transfer.worldId = current.worldId) :
    transferIsSourceGeneration transfer current = true ↔
      transfer.fromPeerId = current.authorityPeerId ∧ transfer.nextEpoch = current.epochNumber + 1 ∧
        transfer.nextFencingToken = current.fencingToken + 1 := by
  simp only [transferIsSourceGeneration, Bool.and_eq_true, decide_eq_true_eq]
  constructor
  · rintro ⟨⟨⟨⟨⟨hepoch, htoken⟩, _⟩, hsource⟩, hbefore⟩, hbefore'⟩
    refine ⟨hsource, ?_, ?_⟩
    · omega
    · omega
  · rintro ⟨hsource, hepoch, htoken⟩
    refine ⟨⟨⟨⟨⟨?_, ?_⟩, hworld⟩, hsource⟩, ?_⟩, ?_⟩
    all_goals omega

/-- The head on which a transfer or a wake stands, with its blobs and its signature checked. -/
def verifiedHead (store : Store) (text : String) : Except DaemonError SnapshotManifestV1 := do
  let latest ← required (← ofStorage (latestSnapshot store)) (.message text)
  ofStorage (verifySnapshot C store latest)
  ofCore (verifySnapshotSignature C latest)
  pure latest

/-- `validate_transfer_record_against_epoch`. -/
def validateTransferRecordAgainstEpoch (transfer : AuthorityTransferV1) (current : EpochRecordV1)
    (store : Store) : Except DaemonError Unit := do
  ofCore (verifyTransferSignature C transfer)
  guardMessage (transfer.worldId = current.worldId)
    "transfer world does not match the accepted authority generation"
  let descriptor ← ofStorage (loadWorldDescriptor transfer.worldId store)
  let source ← required (descriptor.member transfer.fromPeerId)
    (.message "transfer source is not a world member")
  let target ← required (descriptor.member transfer.toPeerId)
    (.message "transfer target is not a world member")
  guardMessage (source.banned = false ∧ target.banned = false ∧ target.authorityEligible = true)
    "transfer participants are banned or target is not authority eligible"
  guardMessage (source.publicKey = current.authorityPublicKey)
    "transfer source key does not match the accepted authority generation"
  guardMessage (transfer.signerPeerId = transfer.expectedSigner)
    "transfer phase was signed by the wrong participant"
  let signer ← required (descriptor.member transfer.signerPeerId)
    (.message "transfer signer is not a member")
  guardMessage (signer.publicKey = transfer.signerPublicKey)
    "transfer signer key does not match membership"
  guardMessage (transfer.nextEpoch ≠ 0) "transfer successor epoch has no source generation"
  guardMessage (transfer.nextFencingToken ≠ 0)
    "transfer successor fencing token has no source generation"
  guardMessage (transferIsSourceGeneration transfer current = true)
    "transfer generation does not extend the accepted authority exactly once"
  let latest ← verifiedHead C store "transfer peer lacks the canonical snapshot"
  guardMessage (latest.manifestHash C = transfer.baseSnapshotHash)
    "transfer token does not reference this peer's exact canonical snapshot"

/-- `validate_transfer_record`. -/
def validateTransferRecord (transfer : AuthorityTransferV1) (store : Store) :
    Except DaemonError Unit := do
  let current ← ofStorage (loadEpochRecord transfer.worldId store)
  validateTransferRecordAgainstEpoch C transfer current store

/-- `active_transfer_for_current_generation`. -/
def activeTransfer (store : Store) : Except DaemonError (Option AuthorityTransferV1) :=
  match loadEpochRecord site.world store, loadTransferRecord site.world store with
  | .ok current, .ok transfer =>
    if transferIsSourceGeneration transfer current then do
      validateTransferRecordAgainstEpoch C transfer current store
      pure (some transfer)
    else pure none
  | _, _ => pure none

/-- `ensure_same_transfer`. -/
def ensureSameTransfer (left right : AuthorityTransferV1) : Except DaemonError Unit :=
  guardMessage (left.worldId = right.worldId ∧ left.sameTransfer right = true)
    "transfer token does not continue the locally durable transfer"

/-- `ensure_authority_generation`. -/
def ensureAuthorityGeneration (expected : EpochRecordV1) (store : Store) :
    Except DaemonError Unit := do
  let current ← ofStorage (loadEpochRecord expected.worldId store)
  guardMessage (current.epochNumber = expected.epochNumber ∧
      current.fencingToken = expected.fencingToken ∧
      current.authorityPeerId = site.peer C ∧
      current.authorityPublicKey = site.identity.publicKey)
    "authority generation changed while runtime migration was in progress"

/-- `validate_transfer_target`. -/
def validateTransferTarget (target : PeerId) (store : Store) : Except DaemonError Unit := do
  guardMessage (target ≠ site.peer C) "manual transfer target must be a different peer"
  let descriptor ← ofStorage (loadWorldDescriptor site.world store)
  let member ← required (descriptor.member target)
    (.message "manual transfer target is not a world member")
  guardMessage (member.banned = false ∧ member.authorityEligible = true)
    "manual transfer target is banned or not authority eligible"

/-- `create_prepared_transfer`. -/
def createPreparedTransfer (target : PeerId) (epoch : EpochRecordV1) (latest : SnapshotManifestV1)
    (store : Store) : Except DaemonError AuthorityTransferV1 := do
  validateTransferTarget C site target store
  let nextEpoch ← required (checkedSucc epoch.epochNumber)
    (.message "authority epoch is exhausted")
  let nextFencingToken ← required (checkedSucc epoch.fencingToken)
    (.message "authority fencing token is exhausted")
  ofCore (signTransfer C site.identity {
    protocolVersion := protocolVersionV1
    worldId := site.world
    fromPeerId := site.peer C
    toPeerId := target
    baseSnapshotHash := latest.manifestHash C
    nextEpoch := nextEpoch
    nextFencingToken := nextFencingToken
    phase := .prepared
    signerPeerId := site.peer C
    signerPublicKey := site.identity.publicKey
    signature := .empty })

/-! ## The phases of a manual transfer -/

/-- The checks of `prepare_manual_transfer`; the answer is the record to save, if the world sleeps
and no transfer is prepared yet. -/
def prepareTransferChecks (target : PeerId) (store : Store) :
    Except DaemonError (Option AuthorityTransferV1) := do
  let epoch ← ofStorage (loadEpochRecord site.world store)
  ensureAuthorityGeneration C site epoch store
  validateTransferTarget C site target store
  let latest ← verifiedHead C store "cannot transfer authority without a canonical snapshot"
  match ← activeTransfer C site store with
  | some existing => do
    guardMessage (existing.fromPeerId = site.peer C ∧ existing.toPeerId = target ∧
        existing.phase = .prepared)
      "another authority transfer is already active for this authority generation"
    pure none
  | none =>
    match ← loadSleepRecordFailClosed C site.world store with
    | some record => do
      guardMessage (record.latestSnapshotHash = latest.manifestHash C ∧
          record.epoch = epoch.epochNumber ∧ record.fencingToken = epoch.fencingToken)
        "sleep state is not aligned with the accepted authority generation"
      let prepared ← createPreparedTransfer C site target epoch latest store
      pure (some prepared)
    | none => pure none

/-- `prepare_manual_transfer`; the transfer intent of a running world is not modelled. -/
def prepareManualTransfer (target : PeerId) : Daemon Unit := do
  let store ← readStore
  let prepared ← check (prepareTransferChecks C site target store)
  onSome prepared fun transfer => save [] (saveTransferRecord transfer)

/-- The common start of the three later commands: the token is in the expected phase, valid, and
held by the right peer. -/
def transferTokenChecks (token : AuthorityTransferV1) (phase : TransferPhase) (holder : PeerId)
    (wrongToken wrongHolder : String) (store : Store) :
    Except DaemonError (Option AuthorityTransferV1) := do
  guardMessage (token.worldId = site.world ∧ token.phase = phase) wrongToken
  validateTransferRecord C token store
  guardMessage (holder = site.peer C) wrongHolder
  let existing ← activeTransfer C site store
  onSome existing fun existing => ensureSameTransfer existing token
  pure existing

/-- Save the received phase, then the next phase signed locally. -/
def saveNextPhase (token : AuthorityTransferV1) (phase : TransferPhase) : Daemon Unit := do
  save [] (saveTransferRecord token)
  let signed ← check (ofCore (signTransfer C site.identity { token with phase := phase }))
  save [] (saveTransferRecord signed)

/-- `accept_manual_transfer`. -/
def acceptManualTransfer (token : AuthorityTransferV1) : Daemon Unit := do
  let store ← readStore
  let existing ← check (transferTokenChecks C site token .prepared token.toPeerId
    "transfer token is not a prepared transfer for this world"
    "only the prepared target may accept this transfer" store)
  match existing.map AuthorityTransferV1.phase with
  | some .accepted => pure ()
  | some .committed => check (.error (.message
      "transfer is already committed and cannot be accepted again"))
  | _ => saveNextPhase C site token .accepted

/-- `commit_manual_transfer`. -/
def commitManualTransfer (token : AuthorityTransferV1) : Daemon Unit := do
  let store ← readStore
  let existing ← check (transferTokenChecks C site token .accepted token.fromPeerId
    "transfer token is not an accepted transfer for this world"
    "only the current authority may commit this transfer" store)
  match existing.map AuthorityTransferV1.phase with
  | some .committed => pure ()
  | _ => saveNextPhase C site token .committed

/-- The checks of `activate_manual_transfer`; the answer is the record that follows the accepted
one. They look at no recovery promise and at no membership prepare. -/
def activateTransferChecks (token : AuthorityTransferV1) (store : Store) :
    Except DaemonError EpochRecordV1 := do
  let existing ← transferTokenChecks C site token .committed token.toPeerId
    "transfer token is not a committed transfer for this world"
    "only the committed target may activate this transfer" store
  onSome existing fun existing => guardMessage (existing.phase ≠ .prepared)
    "target has not durably accepted this transfer"
  let current ← ofStorage (loadEpochRecord site.world store)
  let expected ← nextGeneration current "accepted authority generation is exhausted"
  guardMessage (current.authorityPeerId = token.fromPeerId ∧
      expected.epoch = token.nextEpoch ∧ expected.fencingToken = token.nextFencingToken)
    "committed transfer no longer extends the accepted authority generation"
  let latest ← verifiedHead C store "transfer target lacks the canonical snapshot"
  guardMessage (latest.manifestHash C = token.baseSnapshotHash)
    "transfer target lacks the exact canonical checkpoint"
  pure (signEpoch C site {
    protocolVersion := protocolVersionV1
    worldId := site.world
    epochNumber := token.nextEpoch
    previousEpochHash := some (epochRecordHash C current)
    baseStateHash := latest.stateRoot
    authorityPeerId := site.peer C
    authorityPublicKey := site.identity.publicKey
    mode := .quorum
    fencingToken := token.nextFencingToken
    reason := "manual authority transfer committed after final canonical checkpoint"
    signature := .empty })

/-- `activate_manual_transfer`. -/
def activateManualTransfer (token : AuthorityTransferV1) : Daemon Unit := do
  let store ← readStore
  let next ← check (activateTransferChecks C site token store)
  save [] (saveTransferRecord token)
  save [.storedEpoch next] (saveEpochRecord next)
  write clearSleepRecord

/-- The checks of `observe_manual_transfer_epoch`. They look at no recovery promise and at no
membership prepare. -/
def observeTransferChecks (next : EpochRecordV1) (store : Store) : Except DaemonError Unit := do
  guardMessage (next.worldId = site.world ∧ next.mode ≠ .recovery)
    "epoch token is not a manual authority transition for this world"
  ofCore (verifySignature C next.authorityPeerId next.authorityPublicKey next.signingBytes
    next.signature)
  let current ← ofStorage (loadEpochRecord site.world store)
  let transfer ← context (loadTransferRecord site.world store)
    "manual epoch is missing its committed transfer"
  validateTransferRecordAgainstEpoch C transfer current store
  let expected ← nextGeneration current "accepted authority generation is exhausted"
  guardMessage (transfer.phase = .committed ∧
      transfer.fromPeerId = current.authorityPeerId ∧
      transfer.toPeerId = next.authorityPeerId ∧
      transfer.nextEpoch = next.epochNumber ∧
      transfer.nextFencingToken = next.fencingToken ∧
      next.epochNumber = expected.epoch ∧
      next.fencingToken = expected.fencingToken ∧
      next.previousEpochHash = some (epochRecordHash C current))
    "manual epoch does not exactly extend the committed transfer"
  let descriptor ← ofStorage (loadWorldDescriptor site.world store)
  let target ← required (descriptor.member next.authorityPeerId)
    (.message "manual epoch authority is not a member")
  guardMessage (target.banned = false ∧ target.authorityEligible = true ∧
      target.publicKey = next.authorityPublicKey)
    "manual epoch authority is not eligible or its key changed"
  let latest ← required (← ofStorage (latestSnapshot store))
    (.message "manual epoch has no canonical base snapshot")
  guardMessage (latest.stateRoot = next.baseStateHash ∧
      latest.manifestHash C = transfer.baseSnapshotHash)
    "manual epoch does not use the committed canonical checkpoint"

/-- `observe_manual_transfer_epoch`. -/
def observeManualTransferEpoch (next : EpochRecordV1) : Daemon Unit := do
  let store ← readStore
  check (observeTransferChecks C site next store)
  save [.storedEpoch next] (saveEpochRecord next)
  write clearSleepRecord

/-! ## Hosting -/

/-- The texts of `ensure_authority_artifacts`. -/
def authorityArtifactTexts : ArtifactTexts where
  noSnapshot := "accepted authority epoch has no base snapshot"
  notDirect := "accepted authority epoch does not directly promote the latest canonical snapshot"
  conflict := "latest snapshot conflicts with the accepted authority epoch"
  ahead := "membership is ahead of the accepted authority epoch"

/-- `ensure_authority_artifacts`; a missing membership record is not an error here. -/
def ensureAuthorityArtifacts (epoch : EpochRecordV1) : Daemon Unit := do
  ensurePromotedSnapshot C site authorityArtifactTexts epoch
  let store ← readStore
  onSome (optional (loadMembershipRecord epoch.worldId store))
    (ensurePromotedMembership C site authorityArtifactTexts epoch)

/-- The local peer may host at all. -/
def hostEligibility (store : Store) : Except DaemonError Unit := do
  let descriptor ← ofStorage (loadWorldDescriptor site.world store)
  let member ← required (descriptor.member (site.peer C))
    (.message "local peer is not a member of this world")
  guardMessage (member.banned = false ∧ member.authorityEligible = true ∧
      member.publicKey = site.identity.publicKey)
    "local peer is not eligible to host this world"

/-- The solo record that wakes a world from its own sleep record. -/
def soloWakeRecord (record : SleepRecordV1) (latest : SnapshotManifestV1) (store : Store) :
    Except DaemonError EpochRecordV1 := do
  guardMessage (record.latestSnapshotHash = latest.manifestHash C)
    "local replica is stale and cannot wake the sleeping world"
  let previous ← ofStorage (loadEpochRecord site.world store)
  let epochNumber ← required (checkedSucc previous.epochNumber)
    (.message "authority epoch exhausted during wake")
  let fencingToken ← required (checkedSucc previous.fencingToken)
    (.message "authority fencing token exhausted during wake")
  pure (signEpoch C site {
    protocolVersion := protocolVersionV1
    worldId := site.world
    epochNumber := epochNumber
    previousEpochHash := some (epochRecordHash C previous)
    baseStateHash := latest.stateRoot
    authorityPeerId := site.peer C
    authorityPublicKey := site.identity.publicKey
    mode := .solo
    fencingToken := fencingToken
    reason := "wake from durable sleep"
    signature := .empty })

/-- The first record of a world that was created locally. -/
def initialAuthorityRecord (latest : SnapshotManifestV1) : EpochRecordV1 :=
  signEpoch C site {
    protocolVersion := protocolVersionV1
    worldId := site.world
    epochNumber := latest.epoch
    previousEpochHash := none
    baseStateHash := latest.stateRoot
    authorityPeerId := site.peer C
    authorityPublicKey := site.identity.publicKey
    mode := .solo
    fencingToken := 1
    reason := "initial preview authority"
    signature := .empty }

/-- The branch of `prepare_authority_epoch` for a world that does not sleep. -/
def prepareAwakeEpoch (latest : SnapshotManifestV1) : Daemon Unit := do
  let store ← readStore
  match loadEpochRecord site.world store with
  | .ok epoch => do
    check (guardMessage (epoch.authorityPeerId = site.peer C ∧
        epoch.authorityPublicKey = site.identity.publicKey)
      "local peer does not hold the accepted authority epoch")
    ensureAuthorityArtifacts C site epoch
  | .error error =>
    if latest.authorityPeerId = site.peer C ∧
        latest.authorityPublicKey = site.identity.publicKey then
      save [.storedEpoch (initialAuthorityRecord C site latest)]
        (saveEpochRecord (initialAuthorityRecord C site latest))
    else check (.error (.storage error))

/-- `prepare_authority_epoch`. -/
def prepareAuthorityEpoch (latest : SnapshotManifestV1) : Daemon Unit := do
  let store ← readStore
  check (hostEligibility C site store)
  match ← check (loadSleepRecordFailClosed C site.world store) with
  | some record => do
    let next ← check (soloWakeRecord C site record latest store)
    save [.storedEpoch next] (saveEpochRecord next)
    write clearSleepRecord
    ensureAuthorityArtifacts C site next
  | none => prepareAwakeEpoch C site latest

/-- The guards of `run_authority_runtime` and of the supervisor: a world of several members is
hosted only by the accepted authority and never straight out of its sleep. -/
def launchChecks (store : Store) : Except DaemonError SnapshotManifestV1 := do
  let descriptor ← ofStorage (loadWorldDescriptor site.world store)
  let sleep ← loadSleepRecordFailClosed C site.world store
  onlyIf (1 < descriptor.active.length) do
    guardMessage (sleep = none)
      "multi-member sleeping worlds must be woken through the migration supervisor"
    let epoch ← ofStorage (loadEpochRecord site.world store)
    guardMessage (epoch.authorityPeerId = site.peer C ∧
        epoch.authorityPublicKey = site.identity.publicKey)
      "local peer does not hold the accepted authority generation"
  verifiedHead C store "world has no verified snapshot to host"

/-- The start of a hosted session, up to the launch of the server. -/
def hostWorld : Daemon Unit := do
  let store ← readStore
  let latest ← check (launchChecks C site store)
  prepareAuthorityEpoch C site latest

/-- A snapshot of the given files, signed by the local peer. -/
def localSnapshot (number epoch sequence : Nat) (previous : Option SnapshotManifestV1)
    (entries : List SnapshotEntry) : Except DaemonError SnapshotManifestV1 :=
  ofCore (signSnapshot C site.identity {
    protocolVersion := protocolVersionV1
    worldId := site.world
    snapshotNumber := number
    epoch := epoch
    sequence := sequence
    previousSnapshotHash := previous.map fun manifest => manifest.manifestHash C
    entries := entries
    stateRoot := snapshotStateRoot C entries
    authorityPeerId := site.peer C
    authorityPublicKey := site.identity.publicKey
    signature := .empty })

/-- How a hosted session ends. -/
inductive RuntimeDisposition where
  | sleep
  | transfer (target : PeerId)
  deriving DecidableEq

/-- The final manifest of a hosted session. -/
def finalManifest (epoch : EpochRecordV1) (latest : SnapshotManifestV1)
    (entries : List SnapshotEntry) : Except DaemonError SnapshotManifestV1 := do
  let number ← required (checkedSucc latest.snapshotNumber) (.storage .snapshotNumberExhausted)
  let sequence ← required (checkedSucc latest.sequence)
    (.message "snapshot sequence counter exhausted")
  localSnapshot C site number epoch.epochNumber sequence (some latest) entries

/-- What a session leaves behind after its last snapshot. -/
def leaveSession (epoch : EpochRecordV1) (manifest : SnapshotManifestV1) :
    RuntimeDisposition → Daemon Unit
  | .transfer target => do
    let store ← readStore
    let transfer ← check (createPreparedTransfer C site target epoch manifest store)
    save [] (saveTransferRecord transfer)
  | .sleep => do
    let record ← check (ofCore (signSleepRecord C site.identity {
      protocolVersion := protocolVersionV1
      worldId := site.world
      latestSnapshotHash := manifest.manifestHash C
      epoch := epoch.epochNumber
      fencingToken := epoch.fencingToken
      authorityPeerId := site.peer C
      authorityPublicKey := site.identity.publicKey
      signature := .empty }))
    save [] (saveSleepRecord record)
    write clearWorldWakeRequest

/-- The end of a hosted session: the last snapshot, then the transfer or the sleep record. -/
def finishSession (entries : List SnapshotEntry) (disposition : RuntimeDisposition) :
    Daemon Unit := do
  let store ← readStore
  let epoch ← check (ofStorage (loadEpochRecord site.world store))
  check (ensureAuthorityGeneration C site epoch store)
  let head ← check (ofStorage (latestSnapshot store))
  let latest ← check (required head
    (.message "authority transition lost its canonical snapshot"))
  write fun store => { store with blobs := entries.map SnapshotEntry.blob ++ store.blobs }
  let manifest ← check (finalManifest C site epoch latest entries)
  commitSnapshot C (some ⟨epoch.epochNumber, epoch.fencingToken, some latest⟩) manifest
  leaveSession C site epoch manifest disposition

/-! ## Snapshots, wake, join and leave -/

/-- The number of the next snapshot, by `next_snapshot_number`. -/
def nextSnapshotNumber (head : Option SnapshotManifestV1) : Except DaemonError Nat :=
  match head with
  | none => pure 1
  | some latest => required (checkedSucc latest.snapshotNumber) (.storage .snapshotNumberExhausted)

/-- `WorldCommand::Snapshot`. -/
def snapshotWorld (epoch sequence : Nat) (entries : List SnapshotEntry) : Daemon Unit := do
  let store ← readStore
  let _ ← check (ofStorage (loadWorld C site.world store))
  let head ← check (ofStorage (latestSnapshot store))
  let number ← check (nextSnapshotNumber head)
  write fun store => { store with blobs := entries.map SnapshotEntry.blob ++ store.blobs }
  let manifest ← check (localSnapshot C site number epoch sequence head entries)
  commitSnapshot C none manifest

/-- The checks of `request_world_wake`. -/
def wakeChecks (store : Store) : Except DaemonError Unit := do
  let record ← context (loadSleepRecord site.world store) "world is not durably sleeping"
  ofCore (verifySleepRecordSignature C record)
  let latest ← verifiedHead C store "sleeping world has no canonical snapshot"
  guardMessage (latest.manifestHash C = record.latestSnapshotHash)
    "sleep record does not reference the exact latest verified snapshot"
  let descriptor ← ofStorage (loadWorldDescriptor site.world store)
  let member ← required (descriptor.member (site.peer C))
    (.message "local peer is not a world member")
  guardMessage (member.banned = false ∧ member.authorityEligible = true ∧
      member.publicKey = site.identity.publicKey)
    "local peer is not eligible to wake this world"

/-- `request_world_wake`. -/
def requestWorldWake : Daemon Unit := do
  let store ← readStore
  check (wakeChecks C site store)
  write fun store => { store with wakeRequested := true }

/-- The descriptor that `WorldCommand::Join` starts from: the inviter alone. -/
def invitedDescriptor (invite : InviteV1) : WorldDescriptorV1 where
  protocolVersion := protocolVersionV1
  worldId := invite.worldId
  compatibilityFingerprint := invite.genesis.compatibilityFingerprint
  members := [⟨invite.inviterPeerId, invite.inviterPublicKey, true, false⟩]
  preferredReplicationFactor := 2

/-- The request that `WorldCommand::Join` stages. -/
def stagedJoin (invite : InviteV1) (nonce : Nat) : Except DaemonError JoinRequestV1 :=
  ofCore (signJoinRequest C site.identity {
    protocolVersion := protocolVersionV1
    worldId := invite.worldId
    invite := invite
    joiningMember := ⟨site.peer C, site.identity.publicKey, false, false⟩
    nonce := nonce
    signature := .empty })

/-- `WorldCommand::Join`. -/
def joinWorld (invite : InviteV1) (nonce : Nat) : Daemon Unit := do
  let store ← readStore
  onlyIf (optional (loadWorld C invite.worldId store) = none) <|
    save [] (createWorld C ⟨invite.worldId, invite.genesis⟩)
  save [] (saveWorldDescriptor (invitedDescriptor invite))
  let request ← check (stagedJoin C site invite nonce)
  save [] (savePendingJoin C request)

/-- The request that `WorldCommand::Leave` stages. -/
def stagedLeave (nonce : Nat) (store : Store) : Except DaemonError LeaveRequestV1 := do
  let descriptor ← ofStorage (loadWorldDescriptor site.world store)
  let member ← required (descriptor.member (site.peer C))
    (.message "this peer is not an authorized world member")
  guardMessage (member.banned = false ∧ member.publicKey = site.identity.publicKey)
    "local identity does not match canonical membership"
  let membership ← ofStorage (loadMembershipRecord site.world store)
  ofCore (verifyMembershipSignature C membership)
  guardMessage (membership.authorityPeerId ≠ site.peer C)
    "the current authority must transfer authority before leaving"
  ofCore (signLeaveRequest C site.identity {
    protocolVersion := protocolVersionV1
    worldId := site.world
    membershipHash := membership.recordHash C
    leavingPeerId := site.peer C
    leavingPublicKey := site.identity.publicKey
    nonce := nonce
    signature := .empty })

/-- `WorldCommand::Leave`. -/
def leaveWorld (nonce : Nat) : Daemon Unit := do
  let store ← readStore
  let request ← check (stagedLeave C site nonce store)
  save [] (savePendingLeave C request)

/-! ## Commands -/

/-- The commands of an operator. -/
inductive Command where
  | prepareTransfer (target : PeerId)
  | acceptTransfer (token : AuthorityTransferV1)
  | commitTransfer (token : AuthorityTransferV1)
  | activateTransfer (token : AuthorityTransferV1)
  | observeTransfer (token : EpochRecordV1)
  | host
  | finish (entries : List SnapshotEntry) (disposition : RuntimeDisposition)
  | snapshot (epoch sequence : Nat) (entries : List SnapshotEntry)
  | wake
  | join (invite : InviteV1) (nonce : Nat)
  | leave (nonce : Nat)
  deriving DecidableEq

/-- Run a command. -/
def runCommand : Command → Daemon Unit
  | .prepareTransfer target => prepareManualTransfer C site target
  | .acceptTransfer token => acceptManualTransfer C site token
  | .commitTransfer token => commitManualTransfer C site token
  | .activateTransfer token => activateManualTransfer C site token
  | .observeTransfer token => observeManualTransferEpoch C site token
  | .host => hostWorld C site
  | .finish entries disposition => finishSession C site entries disposition
  | .snapshot epoch sequence entries => snapshotWorld C site epoch sequence entries
  | .wake => requestWorldWake C site
  | .join invite nonce => joinWorld C site invite nonce
  | .leave nonce => leaveWorld C site nonce

/-! ## Creating a world -/

variable (C : Crypto) (site : Site)

/-- `local_member`. -/
def localMember : WorldMemberV1 := ⟨site.peer C, site.identity.publicKey, true, false⟩

/-- The descriptor of a new world. -/
def createdDescriptor (genesis : WorldGenesisV1) : WorldDescriptorV1 where
  protocolVersion := protocolVersionV1
  worldId := site.world
  compatibilityFingerprint := genesis.compatibilityFingerprint
  members := [localMember C site]
  preferredReplicationFactor := 2

/-- The first membership record of a new world. -/
def createdMembership : Except DaemonError MembershipRecordV1 :=
  ofCore (signMembership C site.identity {
    protocolVersion := protocolVersionV1
    worldId := site.world
    epoch := 0
    sequence := 0
    previousMembershipHash := none
    members := [localMember C site]
    authorityPeerId := site.peer C
    authorityPublicKey := site.identity.publicKey
    signature := .empty })

/-- `WorldCommand::Create`; of the configuration only the solo policy is modelled. -/
def createLocalWorld (genesis : WorldGenesisV1) : Daemon Unit := do
  save [] (createWorld C ⟨site.world, genesis⟩)
  save [] (saveWorldDescriptor (createdDescriptor C site genesis))
  let membership ← check (createdMembership C site)
  save [] (saveMembershipRecord C membership)
  write fun store => { store with soloPolicy := some true }
  let snapshot ← check (localSnapshot C site 1 0 1 none [])
  commitSnapshot C none snapshot

/-- The store after a world was created in an empty directory. -/
def createdStore (genesis : WorldGenesisV1) (node : Node) : Store :=
  ((createLocalWorld C site genesis).after
    (Exec.start { node with store := Store.empty })).node.store

end SwarmCraft
