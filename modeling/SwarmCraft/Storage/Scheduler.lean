import SwarmCraft.Storage.Depot

/-!
# Reconstruction from several sources

A snapshot is fetched blob by blob from several sources at once. Each missing blob is assigned to a
list of candidates; workers take the assignments from a queue, ask the candidates of one for its
chunks and store them in the file of that blob, until the blob is complete or no candidate is left.
What a source answers is not fixed here: a turn of a worker takes the answer as its argument, and
the workers take their turns in any order. The pins that keep a garbage collection away are left
out, since no collection runs beside.
-/

namespace SwarmCraft

open Checked Durable

/-- `DEFAULT_PARALLEL_BLOBS`. -/
def defaultParallelBlobs : Nat := 4

/-- `MAX_PARALLEL_BLOBS`. -/
def maxParallelBlobs : Nat := 32

/-- `DEFAULT_REPLICATION_CHUNK_SIZE`. -/
def defaultReplicationChunkSize : Nat := 256 * 1024

/-- `MAX_REPLICATION_CHUNK_SIZE`. -/
def maxReplicationChunkSize : Nat := 4 * 1024 * 1024

/-- The `last_error` of an assignment. -/
inductive TransferFailure where
  /-- "no candidate source remained". -/
  | noCandidate
  /-- "source returned an empty unfinished chunk". -/
  | emptyChunk
  /-- The text of a failure of a source or of the destination. -/
  | failed (error : StorageError)
  deriving DecidableEq

/-- `SchedulerError`. -/
inductive SchedulerError where
  | replication (error : StorageError)
  | invalidOptions (message : String)
  | duplicateSource (peer : PeerId)
  | conflictingDescriptor (hash : Hash32)
  | noSource (hash : Hash32)
  | allSourcesFailed (hash : Hash32) (lastError : TransferFailure)
  deriving DecidableEq

/-- `ReplicationOptions`. -/
structure ReplicationOptions where
  maxParallelBlobs : Nat := defaultParallelBlobs
  chunkSize : Nat := defaultReplicationChunkSize
  deriving DecidableEq

/-- `ReplicationOptions::validate`. -/
def ReplicationOptions.validate (options : ReplicationOptions) :
    Except SchedulerError ReplicationOptions := do
  ensure (¬ (options.maxParallelBlobs = 0 ∨ options.maxParallelBlobs > SwarmCraft.maxParallelBlobs))
    (.invalidOptions "max_parallel_blobs must be in 1..=32")
  ensure (¬ (options.chunkSize = 0 ∨ options.chunkSize > maxReplicationChunkSize))
    (.invalidOptions "chunk_size must be in 1..=4194304")
  pure options

/-- `BlobSource`, without the answers to `read_blob_chunk`: the peer, and what it says that it
has. -/
structure BlobSource where
  peerId : PeerId
  hasBlob : BlobDescriptor → Bool

/-- The loop of `validate_descriptor_consistency`, with the descriptors that were inserted. -/
def validateDescriptorsFrom : List BlobDescriptor → List SnapshotEntry → Except SchedulerError Unit
  | _, [] => pure ()
  | seen, entry :: rest => do
    onSome (seen.find? fun existing => decide (existing.hash = entry.blob.hash)) fun existing =>
      ensure (existing = entry.blob) (.conflictingDescriptor entry.blob.hash)
    validateDescriptorsFrom (entry.blob :: seen) rest

/-- `validate_descriptor_consistency`. -/
def validateDescriptorConsistency (manifest : SnapshotManifestV1) : Except SchedulerError Unit :=
  validateDescriptorsFrom [] manifest.entries

/-! ## Assignments -/

/-- `ReplicaInventory`: which peers have which blobs. -/
structure ReplicaInventory where
  byBlob : List (Hash32 × PeerId)
  deriving DecidableEq

/-- `record_complete_blob`. -/
def ReplicaInventory.recordCompleteBlob (inventory : ReplicaInventory) (peer : PeerId)
    (hash : Hash32) : ReplicaInventory :=
  ⟨inventory.byBlob ++ [(hash, peer)]⟩

/-- `sources_for`: each peer once, in the order of the peer ids. -/
def ReplicaInventory.sourcesFor (inventory : ReplicaInventory) (hash : Hash32) : List PeerId :=
  ((inventory.byBlob.filter fun entry => decide (entry.1 = hash)).map Prod.snd).dedup.insertionSort
    fun a b => a.bytes ≤ b.bytes

/-- What one source has of the missing blobs. -/
def ReplicaInventory.survey (source : BlobSource) (missing : List BlobDescriptor)
    (inventory : ReplicaInventory) : ReplicaInventory :=
  (missing.filter source.hasBlob).foldl (fun inventory descriptor =>
    inventory.recordCompleteBlob source.peerId descriptor.hash) inventory

/-- The loop of `inventory` over the sources, with the peers already seen. -/
def inventoryFrom (missing : List BlobDescriptor) :
    List PeerId → ReplicaInventory → List BlobSource → Except SchedulerError ReplicaInventory
  | _, inventory, [] => pure inventory
  | peers, inventory, source :: rest => do
    ensure (source.peerId ∉ peers) (.duplicateSource source.peerId)
    inventoryFrom missing (source.peerId :: peers) (inventory.survey source missing) rest

/-- `BlobAssignment`. -/
structure BlobAssignment where
  descriptor : BlobDescriptor
  candidates : List PeerId
  deriving DecidableEq

/-- Peers by the bytes that were assigned to them, then by their ids. -/
def rankPeers (assigned : PeerId → Nat) (peers : List PeerId) : List PeerId :=
  peers.insertionSort fun a b =>
    assigned a < assigned b ∨ assigned a = assigned b ∧ a.bytes ≤ b.bytes

/-- The loop of `BlobSourceSelector::assign`, with the bytes assigned so far. -/
def assignFrom (inventory : ReplicaInventory) :
    (PeerId → Nat) → List BlobDescriptor → Except SchedulerError (List BlobAssignment)
  | _, [] => pure []
  | assigned, descriptor :: rest =>
    match rankPeers assigned (inventory.sourcesFor descriptor.hash) with
    | [] => throw (.noSource descriptor.hash)
    | primary :: others => do
      let assigned := Function.update assigned primary
        (min u64Max (assigned primary + descriptor.encodedSize))
      let assignments ← assignFrom inventory assigned rest
      -- The fallbacks are ranked again with the load of the primary.
      pure (⟨descriptor, primary :: rankPeers assigned others⟩ :: assignments)

/-- `BlobSourceSelector::assign`. -/
def assignSources (missing : List BlobDescriptor) (inventory : ReplicaInventory) :
    Except SchedulerError (List BlobAssignment) :=
  assignFrom inventory (fun _ => 0) missing

/-! ## The report -/

/-- `SourceReplicationStats`. -/
structure SourceReplicationStats where
  attemptedBlobs : Nat := 0
  completedBlobs : Nat := 0
  failures : Nat := 0
  corruptRejections : Nat := 0
  bytesReceived : Nat := 0
  deriving DecidableEq

/-- `ReplicationReport`. -/
structure ReplicationReport where
  totalBlobs : Nat := 0
  completedBlobs : Nat := 0
  resumedBlobs : Nat := 0
  sourceFailures : Nat := 0
  corruptRejections : Nat := 0
  resumeVerificationRetries : Nat := 0
  bytesReceived : Nat := 0
  maxParallelBlobsObserved : Nat := 0
  sourcesUsed : List PeerId := []
  perSource : PeerId → SourceReplicationStats := fun _ => {}

namespace ReplicationReport

/-- Change the counters of one source. -/
def ofSource (report : ReplicationReport) (peer : PeerId)
    (change : SourceReplicationStats → SourceReplicationStats) : ReplicationReport :=
  { report with perSource := Function.update report.perSource peer (change (report.perSource peer)) }

/-- A candidate is asked for a blob. -/
def attempted (report : ReplicationReport) (peer : PeerId) : ReplicationReport :=
  report.ofSource peer fun stats => { stats with attemptedBlobs := stats.attemptedBlobs + 1 }

/-- A blob goes on where an earlier transfer stopped. -/
def resumed (report : ReplicationReport) : ReplicationReport :=
  { report with resumedBlobs := report.resumedBlobs + 1 }

/-- `record_source_failure` and `record_plain_source_failure`. -/
def sourceFailed (report : ReplicationReport) (peer : PeerId) (corrupt : Bool) :
    ReplicationReport :=
  let count := if corrupt then 1 else 0
  { report with
    sourceFailures := report.sourceFailures + 1
    corruptRejections := report.corruptRejections + count }.ofSource peer fun stats =>
      { stats with
        failures := stats.failures + 1
        corruptRejections := stats.corruptRejections + count }

/-- A resumed blob did not verify and is fetched again from its start. -/
def retried (report : ReplicationReport) : ReplicationReport :=
  { report with
    corruptRejections := report.corruptRejections + 1
    resumeVerificationRetries := report.resumeVerificationRetries + 1 }

/-- Bytes of a chunk were stored. -/
def received (report : ReplicationReport) (peer : PeerId) (bytes : Nat) : ReplicationReport :=
  { report with
    bytesReceived := min u64Max (report.bytesReceived + bytes)
    sourcesUsed := report.sourcesUsed.insert peer }.ofSource peer fun stats =>
      { stats with bytesReceived := min u64Max (stats.bytesReceived + bytes) }

/-- A blob is complete. -/
def completed (report : ReplicationReport) (peer : PeerId) : ReplicationReport :=
  { report with
    completedBlobs := report.completedBlobs + 1
    sourcesUsed := report.sourcesUsed.insert peer }.ofSource peer fun stats =>
      { stats with completedBlobs := stats.completedBlobs + 1 }

end ReplicationReport

/-! ## Workers -/

/-- The variables of `transfer_assignment` that outlive one candidate. -/
structure Transfer where
  descriptor : BlobDescriptor
  /-- The candidates that were not tried yet. -/
  candidates : List PeerId
  lastError : TransferFailure
  resumedRecorded : Bool
  deriving DecidableEq

/-- Where a worker stands. -/
inductive Worker where
  /-- At the head of its loop over the queue. -/
  | waiting
  /-- At the head of the loop over the candidates. -/
  | choosing (transfer : Transfer)
  /-- At the head of `'source_attempt`. -/
  | opening (transfer : Transfer) (peer : PeerId) (cleanRetryUsed : Bool)
  /-- At the head of the loop over the chunks. -/
  | fetching (transfer : Transfer) (peer : PeerId) (cleanRetryUsed : Bool)
      (attemptStartOffset offset : Nat)
  /-- Ended. -/
  | done
  deriving DecidableEq

/-- What the workers share. -/
structure Pool where
  files : BlobFiles
  queue : List BlobAssignment
  workers : List Worker
  stop : Bool
  fatal : Option (Hash32 × TransferFailure)
  report : ReplicationReport

/-- The pool after a turn of one worker, apart from the worker itself. -/
structure WorkerTurn where
  worker : Worker
  files : BlobFiles
  queue : List BlobAssignment
  stop : Bool
  fatal : Option (Hash32 × TransferFailure)
  report : ReplicationReport

/-- What a source may answer to `read_blob_chunk`. -/
abbrev ChunkAnswer : Type := Except StorageError (Bytes × Bool)

/-- An assignment is under way. -/
def Worker.busy : Worker → Bool
  | .waiting | .done => false
  | _ => true

/-- A failure says that data was corrupt. -/
def StorageError.isBlobCorrupt : StorageError → Bool
  | .blobCorrupt _ => true
  | _ => false

namespace Pool

variable (C : Crypto) (Z : Codec) (peers : List PeerId)

/-- The turn changes nothing but where the worker stands. -/
def moveTo (pool : Pool) (worker : Worker) : WorkerTurn :=
  ⟨worker, pool.files, pool.queue, pool.stop, pool.fatal, pool.report⟩

/-- Take the next assignment from the queue. -/
def take (pool : Pool) : WorkerTurn :=
  if pool.stop then pool.moveTo .done
  else
    match pool.queue with
    | [] => pool.moveTo .done
    | assignment :: rest =>
      let active := pool.workers.countP Worker.busy + 1
      { pool.moveTo (.choosing ⟨assignment.descriptor, assignment.candidates, .noCandidate, false⟩)
        with
        queue := rest
        report := { pool.report with
          maxParallelBlobsObserved := max pool.report.maxParallelBlobsObserved active } }

/-- Go on to the next candidate; without one the assignment has failed. -/
def choose (transfer : Transfer) (pool : Pool) : WorkerTurn :=
  match transfer.candidates with
  | [] => { pool.moveTo .waiting with
      stop := true
      fatal := pool.fatal <|> some (transfer.descriptor.hash, transfer.lastError) }
  | peer :: rest =>
    let transfer := { transfer with candidates := rest }
    if peer ∈ peers then
      { pool.moveTo (.opening transfer peer false) with report := pool.report.attempted peer }
    else pool.moveTo (.choosing transfer)

/-- Look how much of the blob is there. -/
def openPart (transfer : Transfer) (peer : PeerId) (cleanRetryUsed : Bool) (pool : Pool) : WorkerTurn :=
  let offset := pool.files.partialOffset transfer.descriptor
  if 0 < offset ∧ transfer.resumedRecorded = false then
    { pool.moveTo (.fetching { transfer with resumedRecorded := true } peer cleanRetryUsed offset
        offset) with report := pool.report.resumed }
  else pool.moveTo (.fetching transfer peer cleanRetryUsed offset offset)

/-- The candidate has failed. -/
def giveUp (transfer : Transfer) (peer : PeerId) (failure : TransferFailure) (corrupt : Bool)
    (files : BlobFiles) (pool : Pool) : WorkerTurn :=
  { pool.moveTo (.choosing { transfer with lastError := failure }) with
    files := files
    report := pool.report.sourceFailed peer corrupt }

/-- Store the answer of a source. -/
def store (transfer : Transfer) (peer : PeerId) (cleanRetryUsed : Bool)
    (attemptStartOffset offset : Nat) (data : Bytes) (finished : Bool) (pool : Pool) : WorkerTurn :=
  let outcome := receiveBlobChunk C Z transfer.descriptor offset data finished pool.files
  match outcome.result with
  | .error error =>
    if finished = true ∧ 0 < attemptStartOffset ∧ cleanRetryUsed = false ∧
        outcome.final.partialOffset transfer.descriptor = 0 then
      { pool.moveTo (.opening transfer peer true) with
        files := outcome.final
        report := pool.report.retried }
    else
      pool.giveUp transfer peer (.failed error) (finished || error.isBlobCorrupt) outcome.final
  | .ok next =>
    let report := pool.report.received peer data.length
    if finished then
      { pool.moveTo .waiting with files := outcome.final, report := report.completed peer }
    else
      { pool.moveTo (.fetching transfer peer cleanRetryUsed attemptStartOffset next) with
        files := outcome.final
        report := report }

/-- Ask the candidate for the next chunk. -/
def fetch (transfer : Transfer) (peer : PeerId) (cleanRetryUsed : Bool)
    (attemptStartOffset offset : Nat) (answer : ChunkAnswer) (pool : Pool) : WorkerTurn :=
  match answer with
  | .error error => pool.giveUp transfer peer (.failed error) error.isBlobCorrupt pool.files
  | .ok (data, finished) =>
    if data = [] ∧ finished = false then pool.giveUp transfer peer .emptyChunk false pool.files
    else pool.store C Z transfer peer cleanRetryUsed attemptStartOffset offset data finished

/-- One turn of a worker; the answer is that of the source, where it asks one. -/
def turn (answer : ChunkAnswer) (pool : Pool) : Worker → WorkerTurn
  | .waiting => pool.take
  | .choosing transfer => pool.choose peers transfer
  | .opening transfer peer cleanRetryUsed => pool.openPart transfer peer cleanRetryUsed
  | .fetching transfer peer cleanRetryUsed attemptStartOffset offset =>
    pool.fetch C Z transfer peer cleanRetryUsed attemptStartOffset offset answer
  | .done => pool.moveTo .done

/-- Put the worker back among the others. -/
def resume (before after : List Worker) (turn : WorkerTurn) : Pool :=
  ⟨turn.files, turn.queue, before ++ turn.worker :: after, turn.stop, turn.fatal, turn.report⟩

end Pool

/-- Which answers a peer may give to a request for a blob from an offset on. -/
abbrev Answers : Type := PeerId → BlobDescriptor → Nat → ChunkAnswer → Prop

/-- The worker asks no source, or gets an answer that the source may give. -/
def Worker.Answered (answers : Answers) (answer : ChunkAnswer) : Worker → Prop
  | .fetching transfer peer _ _ offset => answers peer transfer.descriptor offset answer
  | _ => True

section Steps

variable (C : Crypto) (Z : Codec) (peers : List PeerId) (answers : Answers)

/-- Some worker that has not ended takes a turn. -/
inductive Pool.Step : Pool → Pool → Prop
  | turn {pool : Pool} {before after : List Worker} {worker : Worker} (answer : ChunkAnswer)
      (hworkers : pool.workers = before ++ worker :: after) (hbusy : worker ≠ .done)
      (hanswer : worker.Answered answers answer) :
      Pool.Step pool (Pool.resume before after (pool.turn C Z peers answer worker))

/-- A pool of which every worker has ended. -/
def Pool.Ended (pool : Pool) : Prop := ∀ worker ∈ pool.workers, worker = .done

/-- The pool in front of the first turn. -/
def Pool.start (options : ReplicationOptions) (missing : List BlobDescriptor)
    (assignments : List BlobAssignment) (files : BlobFiles) : Pool where
  files := files
  queue := assignments
  workers := List.replicate (min options.maxParallelBlobs missing.length) .waiting
  stop := false
  fatal := none
  report := { totalBlobs := missing.length }

/-! ## Reconstruction -/

/-- The part of `reconstruct` before the workers: the assignments of the missing blobs. -/
def planReconstruction (sources : List BlobSource) (options : ReplicationOptions)
    (manifest : SnapshotManifestV1) (files : BlobFiles) :
    Except SchedulerError (List BlobAssignment) := do
  let _ ← options.validate
  validateDescriptorConsistency manifest
  let missing := files.missing C Z manifest
  if missing = [] then pure []
  else do
    let inventory ← inventoryFrom missing [] ⟨[]⟩ sources
    assignSources missing inventory

/-- `reconstruct`: how a reconstruction may end. -/
inductive Reconstructs (sources : List BlobSource) (options : ReplicationOptions)
    (manifest : SnapshotManifestV1) (depot : Depot) :
    Except SchedulerError ReplicationReport → Depot → Prop
  | refused {error : SchedulerError}
      (hplan : planReconstruction C Z sources options manifest depot.blobs = .error error) :
      Reconstructs sources options manifest depot (.error error) depot
  | present {final : Depot} {result : Except StorageError Unit} {assignments : List BlobAssignment}
      (hplan : planReconstruction C Z sources options manifest depot.blobs = .ok assignments)
      (hmissing : depot.blobs.missing C Z manifest = [])
      (hfinal : Runs (finalizeReplica C Z manifest.worldId manifest) depot result final) :
      Reconstructs sources options manifest depot
        ((result.mapError .replication).map fun _ => {}) final
  | failed {assignments : List BlobAssignment} {pool : Pool} {hash : Hash32}
      {failure : TransferFailure}
      (hplan : planReconstruction C Z sources options manifest depot.blobs = .ok assignments)
      (hmissing : depot.blobs.missing C Z manifest ≠ [])
      (hrun : Relation.ReflTransGen (Pool.Step C Z (sources.map BlobSource.peerId) answers)
        (.start options (depot.blobs.missing C Z manifest) assignments depot.blobs) pool)
      (hended : pool.Ended) (hfatal : pool.fatal = some (hash, failure)) :
      Reconstructs sources options manifest depot (.error (.allSourcesFailed hash failure))
        { depot with blobs := pool.files }
  | fetched {assignments : List BlobAssignment} {pool : Pool} {final : Depot}
      {result : Except StorageError Unit}
      (hplan : planReconstruction C Z sources options manifest depot.blobs = .ok assignments)
      (hmissing : depot.blobs.missing C Z manifest ≠ [])
      (hrun : Relation.ReflTransGen (Pool.Step C Z (sources.map BlobSource.peerId) answers)
        (.start options (depot.blobs.missing C Z manifest) assignments depot.blobs) pool)
      (hended : pool.Ended) (hfatal : pool.fatal = none)
      (hfinal : Runs (finalizeReplica C Z manifest.worldId manifest)
        { depot with blobs := pool.files } result final) :
      Reconstructs sources options manifest depot
        ((result.mapError .replication).map fun _ => pool.report) final

end Steps

end SwarmCraft
