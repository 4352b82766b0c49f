import SwarmCraft.Storage.Chronicle
import SwarmCraft.System.Genesis

/-!
# One immutable chain of snapshots

Any sequence of storage calls on the files of one world, successful or not, leaves one chain of
committed manifests. Pruning removes the files of old manifests and with them the evidence that
their numbers are taken, but a number at or below the head can never be committed again.
-/

namespace SwarmCraft

open Checked Durable Transition

variable {C : Crypto} {Z : Codec} {world : WorldId}
variable {ledger : List Published} {control : Store}

/-! ## Calls -/

/-- The storage calls on a depot. The last two stand for what other operations do between them. -/
inductive Call where
  /-- `commit_snapshot_streaming` and `commit_snapshot_fenced`, of a manifest or a publication. -/
  | commitSnapshot (pins : Option (List Hash32)) (fence : Option CanonicalCommitFence)
      (manifest : SnapshotManifestV1)
  | finalizeReplica (manifest : SnapshotManifestV1)
  | saveEpochRecord (record : EpochRecordV1)
  | pruneSnapshots (policy : RetentionPolicy)
  | garbageCollectBlobs (pins : List Hash32)
  /-- Other control records are written. -/
  | writeRecords (control : Store)
  /-- Blob files are written. -/
  | writeBlobs (blobs : BlobFiles)

/-- The world whose files a call changes, where it names one. -/
def Call.target : Call → Option WorldId
  | .commitSnapshot _ _ manifest | .finalizeReplica manifest => some manifest.worldId
  | .saveEpochRecord record => some record.worldId
  | _ => none

/-- The manifest that a call commits. -/
def Call.manifest : Call → Option SnapshotManifestV1
  | .commitSnapshot _ _ manifest | .finalizeReplica manifest => some manifest
  | _ => none

/-- The control records with the epoch record of a depot. -/
def Depot.withRecords (control : Store) (depot : Depot) : Depot :=
  { depot with control := { control with epoch := depot.control.epoch } }

/-- `save_epoch_record` on a depot. -/
def saveEpochFile (record : EpochRecordV1) : Program StorageError Depot Unit := do
  let depot ← look
  let control ← lift (saveEpochRecord record depot.control)
  step fun depot => { depot with control := control }

/-- The call on the files of its world. -/
def Call.act (C : Crypto) (Z : Codec) (world : WorldId) : Call → Program StorageError Depot Unit
  | .commitSnapshot pins fence manifest => commitSnapshotStreaming C Z world pins fence manifest
  | .finalizeReplica manifest => SwarmCraft.finalizeReplica C Z world manifest
  | .saveEpochRecord record => saveEpochFile record
  | .pruneSnapshots policy => SwarmCraft.pruneSnapshots C world policy
  | .garbageCollectBlobs pins => SwarmCraft.garbageCollectBlobs C world pins
  | .writeRecords control => step (Depot.withRecords control)
  | .writeBlobs blobs => step fun depot => { depot with blobs := blobs }

/-- The call, as seen from the files of one world: a call for another one does not touch them. -/
def Call.run (C : Crypto) (Z : Codec) (world : WorldId) (call : Call) :
    Program StorageError Depot Unit :=
  if call.target.getD world = world then call.act C Z world else pure ()

/-- What a call committed: it succeeded, and the slot of its manifest was free. -/
def Call.committed (world : WorldId) (depot : Depot) (result : Except StorageError Unit)
    (call : Call) : Option Published :=
  call.manifest.bind fun manifest =>
    if manifest.worldId = world ∧ result.isOk = true ∧
        (depot.slot manifest.snapshotNumber).exists = false then
      some ⟨manifest, optional depot.control.epoch.read⟩
    else none

/-- A depot with the ledger of its commits. -/
structure Ledgered where
  depot : Depot
  ledger : List Published

variable {s : Ledgered}

/-- A new world. -/
def Ledgered.new : Ledgered := ⟨.empty .empty, []⟩

/-- The depot and the ledger after a call. -/
def Ledgered.after (C : Crypto) (Z : Codec) (world : WorldId) (s : Ledgered) (call : Call) :
    Ledgered where
  depot := (call.run C Z world s.depot).final
  ledger := (call.committed world s.depot (call.run C Z world s.depot).result).toList ++ s.ledger

/-! ## The invariant -/

/-- A manifest is of an epoch and its authority. -/
def SnapshotManifestV1.OfEpoch (manifest : SnapshotManifestV1) (epoch : EpochRecordV1) : Prop :=
  manifest.epoch = epoch.epochNumber ∧ manifest.authorityPeerId = epoch.authorityPeerId ∧
    manifest.authorityPublicKey = epoch.authorityPublicKey

/-- The commits of a ledger are of the epochs that were accepted, none of which is above the one
accepted last. -/
structure EpochsSound (ledger : List Published) (control : Store) : Prop where
  ofEpoch : ∀ published ∈ ledger, ∀ epoch, published.epoch = some epoch →
    published.manifest.OfEpoch epoch
  bounded : ∀ published ∈ ledger, ∀ epoch, published.epoch = some epoch →
    ∃ current, control.epoch = .present current ∧ epoch.epochNumber ≤ current.epochNumber
  ordered : ledger.Pairwise fun newer older => newer.epoch.isSome = true →
    older.epoch.isSome = true → older.manifest.epoch ≤ newer.manifest.epoch

/-- The epoch record only moves forward. -/
theorem EpochsSound.advance {control' : Store} (h : EpochsSound ledger control)
    (hadvance : ∀ current, control.epoch = .present current → ∃ next,
      control'.epoch = .present next ∧ current.epochNumber ≤ next.epochNumber) :
    EpochsSound ledger control' := by
  refine ⟨h.ofEpoch, ?_, h.ordered⟩
  intro published hmem epoch hepoch
  obtain ⟨current, hcurrent, hle⟩ := h.bounded published hmem epoch hepoch
  obtain ⟨next, hnext, hforward⟩ := hadvance current hcurrent
  exact ⟨next, hnext, hle.trans hforward⟩

/-- The epoch that a commit was checked against is the stored one. -/
theorem validateCommitEpoch_eq_ok {manifest : SnapshotManifestV1}
    {epoch : Option EpochRecordV1} (h : validateCommitEpoch manifest control = .ok epoch) :
    optional control.epoch.read = epoch ∧
      ∀ record, epoch = some record → control.epoch = .present record ∧ manifest.OfEpoch record := by
  unfold validateCommitEpoch at h
  cases hfile : control.epoch with
  | absent =>
    simp only [hfile, DurableFile.exists, Bool.false_eq_true, if_false, pure_eq_ok] at h
    subst h
    simp [DurableFile.read, Checked.optional]
  | unreadable => simp [hfile, DurableFile.exists, loadEpochRecord] at h
  | present record =>
    simp only [hfile, DurableFile.exists, if_true, bind_eq_ok, ensure_eq_ok, pure_eq_ok] at h
    obtain ⟨found, hload, _, hmatches, rfl⟩ := h
    have hfound := (loadEpochRecord_eq_ok.mp hload).1
    rw [hfile, DurableFile.present.injEq] at hfound
    subst hfound
    refine ⟨rfl, ?_⟩
    rintro _ ⟨⟩
    exact ⟨rfl, hmatches.1.symm, hmatches.2.1.symm, hmatches.2.2.symm⟩

/-- A commit of the accepted epoch extends the ledger. -/
theorem EpochsSound.commit
    {manifest : SnapshotManifestV1} {epoch : Option EpochRecordV1} (h : EpochsSound ledger control)
    (hepoch : validateCommitEpoch manifest control = .ok epoch) :
    EpochsSound (⟨manifest, epoch⟩ :: ledger) control := by
  have hstored := (validateCommitEpoch_eq_ok hepoch).2
  refine ⟨?_, ?_, List.pairwise_cons.mpr ⟨?_, h.ordered⟩⟩
  · intro published hmem record hrecord
    rcases List.mem_cons.mp hmem with rfl | hmem
    · exact (hstored record hrecord).2
    · exact h.ofEpoch published hmem record hrecord
  · intro published hmem record hrecord
    rcases List.mem_cons.mp hmem with rfl | hmem
    · exact ⟨record, (hstored record hrecord).1, Nat.le_refl _⟩
    · exact h.bounded published hmem record hrecord
  · intro older hmem hnewer holder
    obtain ⟨record, hrecord⟩ := Option.isSome_iff_exists.mp hnewer
    obtain ⟨past, hpast⟩ := Option.isSome_iff_exists.mp holder
    obtain ⟨hcurrent, hmatches⟩ := hstored record hrecord
    obtain ⟨current, hsame, hle⟩ := h.bounded older hmem past hpast
    rw [hcurrent, DurableFile.present.injEq] at hsame
    subst hsame
    have hnew : manifest.epoch = record.epochNumber := hmatches.1
    have hold : older.manifest.epoch = past.epochNumber := (h.ofEpoch older hmem past hpast).1
    change older.manifest.epoch ≤ manifest.epoch
    omega

/-- A depot with its ledger, as calls leave them. -/
structure Ledgered.Sound (C : Crypto) (world : WorldId) (s : Ledgered) : Prop where
  chronicles : s.depot.Chronicles C world s.ledger
  epochs : EpochsSound s.ledger s.depot.control

/-- What a sound depot gives after a call. -/
structure Ledgered.Kept (C : Crypto) (Z : Codec) (world : WorldId) (s : Ledgered) (call : Call) :
    Prop where
  sound : (s.after C Z world call).Sound C world
  listed : ∀ manifest, call.manifest = some manifest → manifest.worldId = world →
    (call.run C Z world s.depot).result = .ok () →
    ∃ published ∈ (s.after C Z world call).ledger, published.manifest = manifest

theorem Ledgered.sound_new : Ledgered.new.Sound C world where
  chronicles := .empty _
  epochs := ⟨by simp [Ledgered.new], by simp [Ledgered.new], by simp [Ledgered.new]⟩

/-! ## One call -/

theorem Ledgered.Sound.kept_commit {call : Call} {manifest : SnapshotManifestV1}
    (h : s.Sound C world) (hmanifest : call.manifest = some manifest)
    (hworld : manifest.worldId = world)
    (hends : Depot.Chronicles.Ends C world s.ledger s.depot manifest
      (call.run C Z world s.depot).result (call.run C Z world s.depot).final) :
    s.Kept C Z world call := by
  have hdepot : (s.after C Z world call).depot = (call.run C Z world s.depot).final := rfl
  have hledger : (s.after C Z world call).ledger =
      (call.committed world s.depot (call.run C Z world s.depot).result).toList ++ s.ledger := rfl
  generalize hresult : (call.run C Z world s.depot).result = x at hends hledger
  generalize (call.run C Z world s.depot).final = t at hends hdepot
  -- Only a commit into a free slot is new to the ledger.
  have hnone (hfails : x.isOk = false ∨ (s.depot.slot manifest.snapshotNumber).exists = true) :
      call.committed world s.depot x = none := by
    simp only [Call.committed, hmanifest, Option.bind_some, ite_eq_right_iff]
    rintro ⟨_, hok, hfree⟩
    rcases hfails with hfails | hfails
    · rw [hfails] at hok
      cases hok
    · rw [hfails] at hfree
      cases hfree
  cases hends with
  | refused error final hend =>
    rw [hnone (.inl rfl)] at hledger
    refine ⟨⟨?_, ?_⟩, ?_⟩
    · rw [hdepot, hledger]
      rcases hend with rfl | rfl
      · exact h.chronicles
      · exact h.chronicles.opened
    · rw [hdepot, hledger]
      rcases hend with rfl | rfl
      · exact h.epochs
      · exact h.epochs
    · intro _ _ _ hok
      rw [hresult] at hok
      cases hok
  | known published hmem hsame hexists =>
    rw [hnone (.inr hexists)] at hledger
    refine ⟨⟨?_, ?_⟩, ?_⟩
    · rw [hdepot, hledger]
      exact h.chronicles.opened
    · rw [hdepot, hledger]
      exact h.epochs
    · intro other hother _ _
      rw [hmanifest, Option.some.injEq] at hother
      rw [hledger]
      exact ⟨published, hmem, hsame.trans hother⟩
  | committed epoch hfree hdirect hepoch =>
    have hsome : call.committed world s.depot (.ok ()) = some ⟨manifest, epoch⟩ := by
      simp only [Call.committed, hmanifest, Option.bind_some]
      rw [if_pos ⟨hworld, rfl, hfree⟩, (validateCommitEpoch_eq_ok hepoch).1]
    rw [hsome] at hledger
    refine ⟨⟨?_, ?_⟩, ?_⟩
    · rw [hdepot, hledger]
      exact h.chronicles.committed hworld hdirect
    · rw [hdepot, hledger]
      exact h.epochs.commit hepoch
    · intro other hother _ _
      rw [hmanifest, Option.some.injEq] at hother
      rw [hledger]
      exact ⟨⟨manifest, epoch⟩, List.mem_cons_self, hother⟩

theorem Ledgered.kept_other {call : Call} (hmanifest : call.manifest = none)
    (hrun : call.run C Z world = call.act C Z world)
    (ht : (call.act C Z world s.depot).final.Chronicles C world s.ledger)
    (hepochs : EpochsSound s.ledger (call.act C Z world s.depot).final.control) :
    s.Kept C Z world call := by
  rw [← hrun] at ht hepochs
  have hledger : (s.after C Z world call).ledger = s.ledger := by
    simp [Ledgered.after, Call.committed, hmanifest]
  refine ⟨⟨?_, ?_⟩, ?_⟩
  · rw [hledger]
    exact ht
  · rw [hledger]
    exact hepochs
  · intro manifest hsome
    rw [hmanifest] at hsome
    cases hsome

/-- The files of the history are the same. -/
structure Depot.Still (s t : Depot) : Prop where
  head : t.head = s.head
  required : t.required = s.required
  intent : t.intent = s.intent
  slots : t.slots = s.slots

theorem Depot.Still.refl {depot : Depot} : depot.Still depot := ⟨rfl, rfl, rfl, rfl⟩

/-- Saving an epoch record leaves the history alone and only moves the accepted epoch up. -/
theorem meets_saveEpochFile (record : EpochRecordV1) (depot : Depot) :
    Meets depot.Still (fun _ t => depot.Still t ∧
      ∀ current, depot.control.epoch = .present current → ∃ next,
        t.control.epoch = .present next ∧ current.epochNumber ≤ next.epochNumber)
      (saveEpochFile record) depot := by
  refine meets_look_bind (meets_lift_bind (fun _ _ => ⟨.refl, ?_⟩) fun control hsave => ?_)
  · intro current hcurrent
    exact ⟨current, hcurrent, Nat.le_refl _⟩
  refine meets_step ⟨rfl, rfl, rfl, rfl⟩ ⟨⟨rfl, rfl, rfl, rfl⟩, fun current hcurrent => ?_⟩
  obtain ⟨rfl, habsent | hsame | ⟨existing, hexisting, hlater⟩⟩ := saveEpochRecord_eq_ok hsave
  · rw [habsent] at hcurrent
    cases hcurrent
  · rw [hsame, DurableFile.present.injEq] at hcurrent
    exact ⟨record, rfl, by rw [hcurrent]⟩
  · rw [hexisting, DurableFile.present.injEq] at hcurrent
    subst hcurrent
    refine ⟨record, rfl, ?_⟩
    have hlt := AuthorityGeneration.lt_iff.mp hlater
    change existing.generation.epoch ≤ record.generation.epoch
    omega

theorem Ledgered.Sound.kept (h : s.Sound C world) (call : Call) : s.Kept C Z world call := by
  by_cases htarget : call.target.getD world = world
  · have hrun : call.run C Z world = call.act C Z world := if_pos htarget
    cases call with
    | commitSnapshot pins fence manifest =>
      have hmeets := h.chronicles.ready.meets_commit (Z := Z) pins fence htarget
      exact h.kept_commit rfl htarget (hrun ▸ hmeets.2.settled h.chronicles.settled)
    | finalizeReplica manifest =>
      have hmeets := h.chronicles.ready.meets_finalizeReplica (Z := Z) htarget
      exact h.kept_commit rfl htarget (hrun ▸ hmeets.2.settled h.chronicles.settled)
    | saveEpochRecord record =>
      obtain ⟨_, hstill, hadvance⟩ := meets_saveEpochFile record s.depot
      exact Ledgered.kept_other rfl hrun (h.chronicles.congr hstill.head hstill.required
        hstill.intent hstill.slots) (h.epochs.advance hadvance)
    | pruneSnapshots policy =>
      obtain ⟨_, hintent, ht, hcontrol⟩ := h.chronicles.ready.meets_pruneSnapshots policy
      exact Ledgered.kept_other rfl hrun (ht.chronicles.congr rfl rfl hintent rfl)
        (hcontrol ▸ h.epochs)
    | garbageCollectBlobs pins =>
      obtain ⟨_, hintent, ht, hcontrol⟩ := h.chronicles.ready.meets_garbageCollectBlobs pins
      exact Ledgered.kept_other rfl hrun (ht.chronicles.congr rfl rfl hintent rfl)
        (hcontrol ▸ h.epochs)
    | writeRecords control =>
      refine Ledgered.kept_other rfl hrun (h.chronicles.congr rfl rfl rfl rfl) (h.epochs.advance ?_)
      intro current hcurrent
      exact ⟨current, hcurrent, Nat.le_refl _⟩
    | writeBlobs blobs =>
      exact Ledgered.kept_other rfl hrun (h.chronicles.congr rfl rfl rfl rfl) h.epochs
  · -- The files of another world are changed.
    have hrun : call.run C Z world = pure () := if_neg htarget
    have hforeign (manifest : SnapshotManifestV1) (hmanifest : call.manifest = some manifest) :
        manifest.worldId ≠ world := by
      rintro rfl
      cases call with
      | commitSnapshot pins fence other =>
        obtain rfl := Option.some.inj hmanifest
        exact htarget rfl
      | finalizeReplica other =>
        obtain rfl := Option.some.inj hmanifest
        exact htarget rfl
      | _ => cases hmanifest
    have hafter : s.after C Z world call = s := by
      simp only [Ledgered.after, hrun, run_pure]
      cases hmanifest : call.manifest with
      | none => simp [Call.committed, hmanifest]
      | some manifest => simp [Call.committed, hmanifest, hforeign manifest hmanifest]
    refine ⟨?_, ?_⟩
    · rw [hafter]
      exact h
    · intro manifest hmanifest hworld
      exact absurd hworld (hforeign manifest hmanifest)

/-! ## Sequences of calls -/

/-- The depot and the ledger after a sequence of calls. -/
def Ledgered.afterAll (C : Crypto) (Z : Codec) (world : WorldId) (s : Ledgered) (calls : List Call) :
    Ledgered :=
  calls.foldl (Ledgered.after C Z world) s

/-- Every sequence of calls keeps a depot sound. -/
theorem Ledgered.Sound.afterAll (h : s.Sound C world) (calls : List Call) :
    (s.afterAll C Z world calls).Sound C world := by
  induction calls generalizing s with
  | nil => exact h
  | cons call rest ih => exact ih (h.kept call).sound

theorem Ledgered.mem_afterAll {calls : List Call} {published : Published}
    (hmem : published ∈ s.ledger) : published ∈ (s.afterAll C Z world calls).ledger := by
  induction calls generalizing s with
  | nil => exact hmem
  | cons call rest ih => exact ih (List.mem_append_right _ hmem)

/-- The history of a depot is one immutable chain. -/
structure Ledgered.OneChain (C : Crypto) (world : WorldId) (s : Ledgered) : Prop where
  /-- The canonical head denotes the newest commit. -/
  head : (canonicalSnapshotHead C world s.depot).result = .ok ⟨world, topRef C s.ledger⟩
  /-- The newest commit has the highest number. -/
  highest : ∀ top, s.ledger.head? = some top → ∀ published ∈ s.ledger, published.number ≤ top.number
  /-- Surviving manifests with consecutive numbers are linked. -/
  linked : ∀ older newer : SnapshotManifestV1, s.depot.slot older.snapshotNumber = .present older →
    s.depot.slot newer.snapshotNumber = .present newer →
    newer.snapshotNumber = older.snapshotNumber + 1 →
    newer.previousSnapshotHash = some (older.manifestHash C) ∧ newer.sequence = older.sequence + 1
  /-- A number is committed with one hash, pruned or not. -/
  unique : ∀ a ∈ s.ledger, ∀ b ∈ s.ledger, a.number = b.number →
    a.manifest.manifestHash C = b.manifest.manifestHash C
  /-- A manifest that was committed under an epoch record is of that epoch and its authority. -/
  ofEpoch : ∀ published ∈ s.ledger, ∀ epoch, published.epoch = some epoch →
    published.manifest.OfEpoch epoch
  /-- The epochs of those manifests do not decrease; the ledger has the newest one first. -/
  ordered : s.ledger.Pairwise fun newer older => newer.epoch.isSome = true →
    older.epoch.isSome = true → older.manifest.epoch ≤ newer.manifest.epoch

/-- A surviving manifest is in the ledger. -/
theorem Depot.Chronicles.mem_of_slot {depot : Depot}
    (h : depot.Chronicles C world ledger) {manifest : SnapshotManifestV1}
    (hslot : depot.slot manifest.snapshotNumber = .present manifest) :
    ∃ published ∈ ledger, published.manifest = manifest := by
  rw [Depot.slot] at hslot
  cases hlookup : depot.slots.lookup manifest.snapshotNumber with
  | none =>
    rw [hlookup] at hslot
    cases hslot
  | some file =>
    rw [hlookup] at hslot
    obtain ⟨published, hmem, hfile, _⟩ := h.slots _ _ hlookup
    rw [Option.getD_some, hfile, DurableFile.present.injEq] at hslot
    exact ⟨published, hmem, hslot⟩

theorem Ledgered.Sound.oneChain (h : s.Sound C world) : s.OneChain C world where
  head := h.chronicles.ready.gives_head.2.1
  highest := by
    intro top htop published hmem
    obtain ⟨rest, hledger⟩ : ∃ rest, s.ledger = top :: rest := by
      cases hledger : s.ledger with
      | nil =>
        rw [hledger] at htop
        cases htop
      | cons newest rest =>
        rw [hledger] at htop
        exact ⟨rest, by rw [Option.some.inj htop]⟩
    have hle := h.chronicles.chained.number_le hmem
    have hnumber := (hledger ▸ h.chronicles.chained).number_head
    rw [hledger, List.length_cons] at hle
    omega
  linked := by
    intro older newer holder hnewer hnumber
    obtain ⟨a, ha, rfl⟩ := h.chronicles.mem_of_slot holder
    obtain ⟨b, hb, rfl⟩ := h.chronicles.mem_of_slot hnewer
    exact h.chronicles.chained.linked ha hb hnumber
  unique := by
    intro a ha b hb hnumber
    rw [h.chronicles.chained.number_inj ha hb hnumber]
  ofEpoch := h.epochs.ofEpoch
  ordered := h.epochs.ordered

/-- From a new world, every sequence of calls leaves one immutable chain of snapshots, on which every
manifest stands that a call committed successfully. -/
theorem snapshot_history_one_chain (C : Crypto) (Z : Codec) (world : WorldId) (calls : List Call) :
    (Ledgered.new.afterAll C Z world calls).OneChain C world ∧
      ∀ before call after, calls = before ++ call :: after →
        ∀ manifest, call.manifest = some manifest → manifest.worldId = world →
        (call.run C Z world (Ledgered.new.afterAll C Z world before).depot).result = .ok () →
        ∃ published ∈ (Ledgered.new.afterAll C Z world calls).ledger,
          published.manifest = manifest := by
  constructor
  · exact (Ledgered.sound_new.afterAll calls).oneChain
  · rintro before call after rfl manifest hmanifest hworld hok
    have hsound : (Ledgered.new.afterAll C Z world before).Sound C world :=
      Ledgered.sound_new.afterAll before
    obtain ⟨published, hmem, hsame⟩ := (hsound.kept call).listed manifest hmanifest hworld hok
    refine ⟨published, ?_, hsame⟩
    rw [Ledgered.afterAll, List.foldl_append, List.foldl_cons]
    exact Ledgered.mem_afterAll hmem

/-- The second snapshot of a founded world, without files. -/
def Founding.secondSnapshot (f : Founding) : SnapshotManifestV1 :=
  { f.unsignedSnapshot .ideal with
    snapshotNumber := 2
    sequence := 1
    previousSnapshotHash := some ((f.snapshot .ideal).manifestHash .ideal) }

/-- Two snapshots are committed and the first one is pruned. Its number stays taken: another first
snapshot is refused. -/
theorem snapshot_history_pruned :
    let f := Founding.numbered 1
    let Z : Codec := ⟨fun _ => none⟩
    let world := f.world .ideal
    let calls := [.saveEpochRecord (f.epoch .ideal), .commitSnapshot none none (f.snapshot .ideal),
      .commitSnapshot none none f.secondSnapshot, .pruneSnapshots ⟨0, []⟩]
    let s := Ledgered.new.afterAll .ideal Z world calls
    s.OneChain .ideal world ∧ s.ledger.map Published.number = [2, 1] ∧
      s.depot.slot 1 = .absent ∧
      (commitSnapshotStreaming .ideal Z world none none
        { f.snapshot .ideal with sequence := 5 } s.depot).result =
        .error (.snapshotHistoryConflict 1) := by
  intro f Z world calls s
  refine ⟨(snapshot_history_one_chain .ideal Z world calls).1, ?_, ?_, ?_⟩ <;> decide +kernel

/-! ## Calls that a crash stops -/

/-- One call on the files, which returns or is stopped between two of its steps. -/
def Depot.Lives (C : Crypto) (Z : Codec) (world : WorldId) (s t : Depot) : Prop :=
  ∃ call : Call, Leaves (call.run C Z world) s t ∨ t = (call.run C Z world s).final

namespace Depot

variable {depot t : Depot}

theorem Still.suspended (h : depot.Still t) (hdepot : depot.Suspended world) : t.Suspended world := by
  unfold Suspended
  rw [h.intent, h.head]
  exact hdepot

/-- A call that keeps a property, wherever it stops. -/
theorem Lives.keeps {I : Depot → Prop} (h : depot.Lives C Z world t) (hdepot : I depot)
    (hcalls : ∀ call : Call, Meets I (fun _ => I) (call.run C Z world) depot) : I t := by
  obtain ⟨call, (rfl | hpassed) | rfl⟩ := h
  · exact hdepot
  · exact (hcalls call).1 t hpassed
  · exact (hcalls call).2

theorem Ready.meets_call (h : depot.Ready C world ledger) (call : Call) :
    Meets (Left C world ledger) (fun _ => Left C world ledger) (call.run C Z world) depot := by
  have hstill {t : Depot} (ht : depot.Still t) : t.Left C world ledger := by
    refine Ready.left ⟨h.chronicles.congr ht.head ht.required rfl ht.slots, ?_⟩
    rw [ht.intent, ht.head]
    exact h.intent
  unfold Call.run
  split
  · next htarget =>
    cases call with
    | commitSnapshot pins fence manifest =>
      exact (h.meets_commit pins fence htarget).mono (fun _ ht => ht) fun _ _ hx => hx.left
    | finalizeReplica manifest =>
      exact (h.meets_finalizeReplica htarget).mono (fun _ ht => ht) fun _ _ hx => hx.left
    | saveEpochRecord record =>
      exact (meets_saveEpochFile record depot).mono (fun _ => hstill) fun _ _ ht => hstill ht.1
    | pruneSnapshots policy =>
      exact (h.meets_pruneSnapshots policy).mono (fun _ => Ready.left) fun _ _ hx => hx.2.1.left
    | garbageCollectBlobs pins =>
      exact (h.meets_garbageCollectBlobs pins).mono (fun _ => Ready.left) fun _ _ hx => hx.2.1.left
    | writeRecords _ | writeBlobs _ =>
      exact meets_step (hstill ⟨rfl, rfl, rfl, rfl⟩) (hstill ⟨rfl, rfl, rfl, rfl⟩)
  · exact meets_pure h.left

/-- The head of a suspended depot cannot be loaded. -/
theorem Suspended.head_eq (h : depot.Suspended world) :
    canonicalSnapshotHead C world depot = ⟨.error .snapshotCommitIncomplete, depot, []⟩ := by
  obtain ⟨previous, next, hintent, hhead, hnew⟩ := h
  have hread : readHeadFile world depot.head = .ok ⟨world, previous⟩ := by
    simp [readHeadFile, hhead, requireWorld]
  rw [canonicalSnapshotHead, run_look_bind, if_pos (by rw [hintent]; rfl),
    run_lift_ok_bind (a := ⟨world, previous, next⟩) (by rw [hintent]; rfl), resumeCommit,
    run_look_bind, run_lift_ok_bind (a := ()) (ensure_eq_ok.mpr rfl),
    run_lift_ok_bind (a := ()) (ensure_eq_ok.mpr (by rw [hhead]; rfl)), run_lift_ok_bind hread]
  exact run_lift_error_bind (if_neg hnew)

theorem Suspended.meets_call (h : depot.Suspended world) (call : Call) :
    Meets depot.Still (fun _ => depot.Still) (call.run C Z world) depot := by
  -- Whatever loads the head first fails there.
  have hfails {α : Type} {m : Program StorageError Depot α} {error : StorageError}
      (hm : m depot = ⟨.error error, depot, []⟩) :
      Meets depot.Still (fun _ => depot.Still) m depot := by
    unfold Meets
    rw [hm]
    exact ⟨by simp, .refl⟩
  have hnamespace : validateNamespace C world depot = _ := run_bind_error h.head_eq
  unfold Call.run
  split
  · cases call with
    | commitSnapshot pins fence manifest =>
      refine meets_lift_bind (fun _ _ => .refl) fun _ _ => meets_look_bind ?_
      refine meets_lift_bind (fun _ _ => .refl) fun _ _ => ?_
      split
      · exact hfails (run_bind_error hnamespace)
      · exact hfails (run_bind_error (run_bind_error h.head_eq))
    | finalizeReplica manifest =>
      refine meets_lift_bind (fun _ _ => .refl) fun _ _ => ?_
      exact hfails (run_bind_error (run_bind_error hnamespace))
    | saveEpochRecord record =>
      exact (meets_saveEpochFile record depot).mono (fun _ ht => ht) fun _ _ ht => ht.1
    | pruneSnapshots policy => exact hfails (run_bind_error (run_bind_error hnamespace))
    | garbageCollectBlobs pins => exact hfails (run_bind_error (run_bind_error hnamespace))
    | writeRecords control => exact meets_step ⟨rfl, rfl, rfl, rfl⟩ ⟨rfl, rfl, rfl, rfl⟩
    | writeBlobs blobs => exact meets_step ⟨rfl, rfl, rfl, rfl⟩ ⟨rfl, rfl, rfl, rfl⟩
  · exact meets_pure .refl

/-- A suspended depot stays as it is. -/
theorem Suspended.still (h : depot.Suspended world) (hrun : Run (Lives C Z world) depot t) :
    depot.Still t := by
  induction hrun with
  | refl => exact .refl
  | tail _ hlast ih =>
    have hnext := hlast.keeps .refl (ih.suspended h).meets_call
    exact ⟨hnext.head.trans ih.head, hnext.required.trans ih.required, hnext.intent.trans ih.intent,
      hnext.slots.trans ih.slots⟩

theorem Left.run (h : depot.Left C world ledger) (hrun : Run (Lives C Z world) depot t) :
    t.Left C world ledger := by
  induction hrun with
  | refl => exact h
  | tail _ hlast ih =>
    rcases ih with hsuspended | ⟨new, hready⟩
    · exact .inl ((hsuspended.still (.single hlast)).suspended hsuspended)
    · rcases hlast.keeps hready.left hready.meets_call with hsuspended | ⟨more, hmore⟩
      · exact .inl hsuspended
      · exact .inr ⟨more ++ new, by rwa [List.append_assoc]⟩

end Depot

/-- Whatever calls are made on the files, and wherever crashes stop them, the head can be loaded and
is the newest of a chain that goes on the one before, or a commit was stopped before its head file was
written: then the head can never be loaded again and no file of the history changes any more. -/
theorem history_survives_crashes {s t : Depot} (hs : s.Chronicles C world ledger)
    (hrun : Run (Depot.Lives C Z world) s t) :
    (∃ new u, Runs (canonicalSnapshotHead C world) t (.ok ⟨world, topRef C (new ++ ledger)⟩) u ∧
      u.Chronicles C world (new ++ ledger)) ∨
    ∀ u, Run (Depot.Lives C Z world) t u →
      (canonicalSnapshotHead C world u).result = .error .snapshotCommitIncomplete ∧
        u.head = t.head ∧ u.intent = t.intent ∧ u.slots = t.slots := by
  rcases hs.ready.left.run hrun with hsuspended | ⟨new, hready⟩
  · refine .inr fun u hlater => ?_
    have hstill := hsuspended.still hlater
    rw [(hstill.suspended hsuspended).head_eq]
    exact ⟨rfl, hstill.head, hstill.intent, hstill.slots⟩
  · exact .inl ⟨new, _, hready.gives_head.2, hready.chronicles.opened⟩

/-- The first commit of a world is stopped after its intent was written. -/
theorem commit_stopped_for_good :
    let f := Founding.numbered 1
    let Z : Codec := ⟨fun _ => none⟩
    let call : Call := .commitSnapshot none none (f.snapshot .ideal)
    ∃ t, Leaves (call.run .ideal Z (f.world .ideal)) (.empty .empty) t ∧
      ∀ u, Run (Depot.Lives .ideal Z (f.world .ideal)) t u →
        (canonicalSnapshotHead .ideal (f.world .ideal) u).result =
          .error .snapshotCommitIncomplete := by
  intro f Z call
  have hlong : 2 < (call.run .ideal Z (f.world .ideal) (.empty .empty)).passed.length := by
    decide +kernel
  have hfails : (canonicalSnapshotHead .ideal (f.world .ideal) (List.get _ ⟨2, hlong⟩)).result =
      .error .snapshotCommitIncomplete := by decide +kernel +revert
  refine ⟨_, .inr (List.get_mem _ ⟨2, hlong⟩), ?_⟩
  rcases history_survives_crashes (.empty _) (.single ⟨call, .inl (.inr (List.get_mem _ ⟨2, hlong⟩))⟩)
    with ⟨_, _, hhead, _⟩ | hstuck
  · cases hfails.symm.trans hhead.1
  · exact fun u hu => (hstuck u hu).1

end SwarmCraft
