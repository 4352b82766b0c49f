import Mathlib.Algebra.GroupWithZero.Nat
import SwarmCraft.Safety.BlobCompleteness

/-!
# Reconstruction ends and is sound

What the operations on the canonical head say about the files when they return, whatever the files
were before: nothing is assumed about the history here. A replica that was finished is the
canonical head. None of these operations looks at the blobs, apart from the check that they are
there.

Whatever the sources answer, every turn of a worker makes a natural number smaller: a candidate is
used up, the retry from the start of a blob is used up, or bytes are stored. So the workers end, and
what they stored is verified again when the replica is finished.
-/

namespace SwarmCraft

open Checked Durable

variable {C : Crypto} {Z : Codec}

section

variable {world : WorldId} {s t u : Depot} {x : Unit} {manifest : SnapshotManifestV1}

/-- The head of `s` was read, which left `t`: the head file is there, no commit is under way, and
the manifest that the head names is in its slot. -/
structure Depot.Headed (C : Crypto) (world : WorldId) (head : CanonicalSnapshotHeadV1)
    (s t : Depot) : Prop where
  file : t.head = .present head
  settled : t.intent = .absent
  ofWorld : head.worldId = world
  target : validateHeadTarget C world head.head t = .ok ()
  kept : s.head.exists = true → t.head = s.head
  slots : t.slots = s.slots
  blobs : t.blobs = s.blobs
  control : t.control = s.control

/-- A file that does not exist is absent. -/
theorem DurableFile.eq_absent_of_not_exists {α : Type} {file : DurableFile α}
    (h : ¬ file.exists = true) : file = .absent := by
  cases file <;> simp_all [DurableFile.exists]

theorem runs_createRequired_iff {x : Except StorageError Unit} :
    Runs createRequired s x t ↔ x = .ok () ∧ t = { s with required := true } := by
  have hgives : Runs createRequired s (.ok ()) s.setRequired :=
    (gives_createRequired (I := fun _ => True) trivial).2
  constructor
  · intro h
    exact h.unique hgives
  · rintro ⟨rfl, rfl⟩
    exact hgives

/-- What reading the head says about the files. -/
theorem Depot.headed_of_runs {head : CanonicalSnapshotHeadV1}
    (h : Runs (canonicalSnapshotHead C world) s (.ok head) t) : s.Headed C world head t := by
  rw [canonicalSnapshotHead, runs_look_bind] at h
  by_cases hintent : s.intent.exists = true
  · rw [if_pos hintent] at h
    simp only [resumeCommit, runs_lift_bind_ok_iff, runs_look_bind, runs_step_bind, ensure_eq_ok,
      exists_const] at h
    obtain ⟨intent, _, _, _, head', hread, _, _, htarget, h⟩ := h
    simp only [runs_bind_ok_iff, runs_createRequired_iff, runs_pure_iff, Except.ok.injEq] at h
    obtain ⟨_, _, ⟨_, rfl⟩, rfl, rfl⟩ := h
    simp only [readHeadFile, DurableFile.load_eq_ok, requireWorld, ensure_eq_ok] at hread
    exact ⟨hread.1, rfl, hread.2, htarget, fun _ => rfl, rfl, rfl, rfl⟩
  · rw [if_neg hintent] at h
    have hsettled := DurableFile.eq_absent_of_not_exists hintent
    by_cases hexists : s.head.exists = true
    · rw [if_pos hexists] at h
      simp only [runs_lift_bind_ok_iff] at h
      obtain ⟨head', hread, _, htarget, h⟩ := h
      simp only [runs_bind_ok_iff, runs_createRequired_iff, runs_pure_iff, Except.ok.injEq] at h
      obtain ⟨_, _, ⟨_, rfl⟩, rfl, rfl⟩ := h
      simp only [readHeadFile, DurableFile.load_eq_ok, requireWorld, ensure_eq_ok] at hread
      exact ⟨hread.1, hsettled, hread.2, htarget, fun _ => rfl, rfl, rfl, rfl⟩
    · rw [if_neg hexists] at h
      simp only [adoptLegacyHead, runs_look_bind, runs_lift_bind_ok_iff, runs_step_bind,
        ensure_eq_ok, exists_const] at h
      obtain ⟨_, manifests, _, h⟩ := h
      rw [runs_bind_ok_iff] at h
      obtain ⟨_, u, hrequired, h⟩ := h
      rw [runs_createRequired_iff] at hrequired
      obtain ⟨_, rfl⟩ := hrequired
      simp only [runs_lift_bind_ok_iff, runs_pure_iff, Except.ok.injEq] at h
      obtain ⟨_, htarget, rfl, rfl⟩ := h
      exact ⟨rfl, hsettled, rfl, htarget, fun hfile => absurd hfile hexists, rfl, rfl, rfl⟩

namespace Depot.Headed

variable {head : CanonicalSnapshotHeadV1}

/-- Reading the head once more returns the same. -/
theorem again {head' : CanonicalSnapshotHeadV1} (h : s.Headed C world head t)
    (h' : t.Headed C world head' u) : head' = head := by
  have hexists : t.head.exists = true := by
    rw [h.file]
    rfl
  have hsame := h'.kept hexists
  rw [h'.file, h.file, DurableFile.present.injEq] at hsame
  exact hsame

/-- Reading the head twice is reading it once. -/
theorem trans (h : s.Headed C world head t) (h' : t.Headed C world head u) :
    s.Headed C world head u where
  file := h'.file
  settled := h'.settled
  ofWorld := h'.ofWorld
  target := h'.target
  kept hexists := by
    have htexists : t.head.exists = true := by
      rw [h.file]
      rfl
    rw [h'.kept htexists, h.kept hexists]
  slots := h'.slots.trans h.slots
  blobs := h'.blobs.trans h.blobs
  control := h'.control.trans h.control

end Depot.Headed

/-! ## The namespace -/

theorem number_le_of_validateNoOrphans {head : Option CanonicalSnapshotRefV1} {number : Nat}
    (h : validateNoOrphans world head s = .ok ()) (hexists : (s.slot number).exists = true) :
    number ≤ (head.map CanonicalSnapshotRefV1.snapshotNumber).getD 0 := by
  simp only [validateNoOrphans, rawSnapshotManifests, bind_eq_ok, pure_eq_ok] at h
  obtain ⟨_, ⟨manifests, hmap, rfl⟩, hfind⟩ := h
  -- The slot is one of the entries that were loaded.
  have hlookup : ∃ file, s.slots.lookup number = some file := by
    rw [Depot.slot] at hexists
    cases hlookup : s.slots.lookup number with
    | none =>
      rw [hlookup] at hexists
      cases hexists
    | some file => exact ⟨file, rfl⟩
  obtain ⟨file, hlookup⟩ := hlookup
  have hentry := AList.mem_lookup_iff.mp hlookup
  obtain ⟨manifest, hload, hmem⟩ := exists_of_mapM_ok hmap hentry
  simp only [loadSlot, DurableFile.load_eq_ok, ensure_eq_ok] at hload
  split at hfind
  · exact absurd hfind throw_ne_ok
  · next hnone =>
    have hnot := List.find?_eq_none.mp hnone manifest ((List.mem_insertionSort _).mpr hmem)
    rw [decide_eq_true_eq, hload.2.2] at hnot
    exact Nat.not_lt.mp hnot

/-- What a valid namespace says about the files. -/
theorem headed_of_validateNamespace (h : Runs (validateNamespace C world) s (.ok x) t) :
    ∃ head, s.Headed C world head t ∧ validateNoOrphans world head.head t = .ok () := by
  rw [validateNamespace, runs_bind_ok_iff] at h
  obtain ⟨head, u, hhead, h⟩ := h
  rw [runs_look_bind, runs_lift_iff] at h
  obtain ⟨horphans, rfl⟩ := h
  exact ⟨head, Depot.headed_of_runs hhead, horphans.symm⟩

/-- The latest snapshot is the one that the head names. -/
theorem headed_of_latest {latest : Option SnapshotManifestV1}
    (h : Runs (latestCanonicalSnapshot C world) s (.ok latest) t) :
    ∃ head, s.Headed C world head t ∧ validateNoOrphans world head.head t = .ok () ∧
      latest.map (canonicalRef C) = head.head ∧
      ∀ manifest, latest = some manifest → manifest.worldId = world := by
  rw [latestCanonicalSnapshot, runs_bind_ok_iff] at h
  obtain ⟨_, u, hnamespace, h⟩ := h
  obtain ⟨head, hheaded, horphans⟩ := headed_of_validateNamespace hnamespace
  rw [runs_bind_ok_iff] at h
  obtain ⟨head', v, hhead, h⟩ := h
  have hheaded' := Depot.headed_of_runs hhead
  obtain rfl := hheaded.again hheaded'
  have hslots : validateNoOrphans world head'.head v = validateNoOrphans world head'.head u := by
    rw [validateNoOrphans, validateNoOrphans, rawSnapshotManifests, rawSnapshotManifests,
      hheaded'.slots]
  rw [runs_look_bind] at h
  have htarget := hheaded'.target
  cases href : head'.head with
  | none =>
    rw [href] at h
    rw [runs_pure_iff, Except.ok.injEq] at h
    obtain ⟨rfl, rfl⟩ := h
    refine ⟨head', hheaded.trans hheaded', hslots.trans horphans, href.symm, ?_⟩
    rintro _ ⟨⟩
  | some reference =>
    rw [href] at h htarget
    simp only [runs_lift_bind_ok_iff, runs_pure_iff, Except.ok.injEq] at h
    obtain ⟨manifest, hload, rfl, rfl⟩ := h
    simp only [validateHeadTarget, bind_eq_ok, ensure_eq_ok, hload, Except.ok.injEq] at htarget
    obtain ⟨_, _, _, rfl, hsame⟩ := htarget
    refine ⟨head', hheaded.trans hheaded', hslots.trans horphans, ?_, ?_⟩
    · rw [href, Option.map_some, hsame]
    · rintro _ ⟨⟩
      simp only [loadSnapshotFile, loadSlot, bind_eq_ok, DurableFile.load_eq_ok, ensure_eq_ok] at hload
      obtain ⟨_, _, _, hworld, _⟩ := hload
      exact hworld

/-! ## Finishing -/

/-- A commit into a free slot that returns makes the manifest the head. -/
theorem head_of_commitFree {fence : Option CanonicalCommitFence}
    (h : Runs (commitFree C world fence manifest) s (.ok x) t) :
    t.head = .present ⟨world, some (canonicalRef C manifest)⟩ ∧ t.blobs = s.blobs := by
  rw [commitFree, runs_bind_ok_iff] at h
  obtain ⟨_, u, hbegin, h⟩ := h
  have hblobs : u.blobs = s.blobs := by
    rw [beginCommit, runs_bind_ok_iff] at hbegin
    obtain ⟨_, v, hhead, hbegin⟩ := hbegin
    simp only [runs_lift_bind_ok_iff, runs_look_bind, runs_step_iff] at hbegin
    obtain ⟨_, _, _, _, _, _, _, rfl⟩ := hbegin
    exact (Depot.headed_of_runs hhead).blobs
  rw [runs_bind_ok_iff] at h
  obtain ⟨_, v, hpublish, h⟩ := h
  have hfilled : v = u.fill manifest := by
    rw [publishManifest, runs_look_bind] at hpublish
    split at hpublish
    · rw [runs_step_bind, runs_lift_iff] at hpublish
      cases hpublish.1
    · exact (runs_step_iff.mp hpublish).2
  rw [finishCommit, runs_step_bind, runs_bind_ok_iff] at h
  obtain ⟨_, w, hrequired, h⟩ := h
  rw [runs_createRequired_iff] at hrequired
  rw [runs_step_iff] at h
  obtain ⟨_, rfl⟩ := h
  obtain ⟨_, rfl⟩ := hrequired
  exact ⟨rfl, by rw [hfilled] at *; exact hblobs⟩

/-- A replica that was finished is the head, and nothing of it is missing. -/
theorem head_of_finalizeReplica (h : Runs (finalizeReplica C Z world manifest) s (.ok x) t) :
    s.blobs.missing C Z manifest = [] ∧ t.blobs = s.blobs ∧
      t.head = .present ⟨world, some (canonicalRef C manifest)⟩ := by
  simp only [finalizeReplica, runs_lift_bind_ok_iff] at h
  obtain ⟨_, _, h⟩ := h
  rw [runs_bind_ok_iff] at h
  obtain ⟨current, u, hcurrent, h⟩ := h
  obtain ⟨head, hheaded, _, hnamed, _⟩ := headed_of_latest hcurrent
  simp only [runs_lift_bind_ok_iff, runs_look_bind, ensure_eq_ok, exists_const] at h
  obtain ⟨_, hextends, hmissing, h⟩ := h
  rw [hheaded.blobs] at hmissing
  rw [runs_bind_ok_iff] at h
  obtain ⟨latest, v, hlatest, h⟩ := h
  obtain ⟨head', hheaded', horphans, hnamed', hworld⟩ := headed_of_latest hlatest
  obtain rfl := hheaded.again hheaded'
  have hblobs : v.blobs = s.blobs := hheaded'.blobs.trans hheaded.blobs
  by_cases hsame : latest = some manifest
  · rw [if_pos hsame, runs_pure_iff] at h
    obtain ⟨_, rfl⟩ := h
    refine ⟨hmissing, hblobs, ?_⟩
    rw [hsame, Option.map_some] at hnamed'
    have hhead : head' = ⟨head'.worldId, head'.head⟩ := rfl
    rw [hheaded'.file, hhead, hheaded'.ofWorld, ← hnamed']
  · rw [if_neg hsame] at h
    simp only [commitSnapshotStreaming, runs_lift_bind_ok_iff, runs_look_bind] at h
    obtain ⟨_, _, _, _, h⟩ := h
    split at h
    · -- The slot of a direct extension of the head cannot be taken.
      next htaken =>
      have hle := number_le_of_validateNoOrphans horphans htaken
      exfalso
      have hcurrent : current.map (canonicalRef C) = latest.map (canonicalRef C) :=
        hnamed.trans hnamed'.symm
      cases current with
      | none =>
        simp only [validateReplicaExtension, ensure_eq_ok] at hextends
        rw [← hnamed] at hle
        simp only [Option.map_none, Option.getD_none] at hle
        omega
      | some previous =>
        rw [← hnamed] at hle
        simp only [Option.map_some, Option.getD_some, canonicalRef] at hle
        simp only [validateReplicaExtension] at hextends
        split at hextends
        · next hprevious =>
          subst hprevious
          cases latest with
          | none => cases hcurrent
          | some other =>
            simp only [Option.map_some, Option.some.injEq, canonicalRef,
              CanonicalSnapshotRefV1.mk.injEq, SnapshotManifestV1.manifestHash_inj] at hcurrent
            exact hsame (congrArg some hcurrent.2.1.symm)
        · simp only [bind_eq_ok, required_eq_ok, checkedSucc_eq_some, ensure_eq_ok] at hextends
          obtain ⟨_, ⟨_, rfl⟩, _, _, hnumber, _⟩ := hextends
          omega
    · obtain ⟨hhead, hfree⟩ := head_of_commitFree h
      exact ⟨hmissing, hfree.trans hblobs, hhead⟩

/-! ## Other blobs -/

/-- The depot with other blob files. -/
def Depot.withBlobs (files : BlobFiles) (depot : Depot) : Depot := { depot with blobs := files }

section Blobs

variable {files : BlobFiles}

theorem ignores_createRequired : Ignores (Depot.withBlobs files) createRequired :=
  ignores_look_bind (fun _ => rfl) fun _ => ignores_onlyIf (ignores_step fun _ => rfl)

/-- A commit that is under way is resumed whatever the blobs are. -/
theorem ignores_resumeCommit {intent : SnapshotCommitIntentV1} :
    Ignores (Depot.withBlobs files) (resumeCommit C world intent) := by
  refine ignores_look_bind (fun _ => rfl) fun depot => ignores_lift_bind fun _ => ?_
  refine ignores_lift_bind fun _ => ignores_lift_bind fun head => ignores_lift_bind fun _ => ?_
  refine ignores_lift_bind fun _ => ignores_step_bind (fun _ => rfl) ?_
  exact ignores_createRequired.bind fun _ => ignores_pure head

/-- The head of a world without a head file is found whatever the blobs are. -/
theorem ignores_adoptLegacyHead : Ignores (Depot.withBlobs files) (adoptLegacyHead C world) := by
  refine ignores_look_bind (fun _ => rfl) fun depot => ignores_lift_bind fun _ => ?_
  refine ignores_lift_bind fun manifests => ?_
  dsimp only
  refine ignores_step_bind (fun _ => rfl) ?_
  exact ignores_createRequired.bind fun _ => ignores_lift_bind fun _ => ignores_pure _

theorem ignores_canonicalSnapshotHead :
    Ignores (Depot.withBlobs files) (canonicalSnapshotHead C world) := by
  refine ignores_look_bind (fun _ => rfl) fun depot => ?_
  split
  · exact ignores_lift_bind fun intent => ignores_resumeCommit
  · split
    · refine ignores_lift_bind fun head => ignores_lift_bind fun _ => ?_
      exact ignores_createRequired.bind fun _ => ignores_pure head
    · exact ignores_adoptLegacyHead

theorem ignores_validateNamespace : Ignores (Depot.withBlobs files) (validateNamespace C world) :=
  ignores_canonicalSnapshotHead.bind fun _ =>
    ignores_look_bind (fun _ => rfl) fun _ => ignores_lift _

theorem ignores_latest : Ignores (Depot.withBlobs files) (latestCanonicalSnapshot C world) := by
  refine ignores_validateNamespace.bind fun _ => ignores_canonicalSnapshotHead.bind fun head => ?_
  refine ignores_look_bind (fun _ => rfl) fun depot => ?_
  cases head.head with
  | none => exact ignores_pure none
  | some reference => exact (ignores_lift _).bind fun manifest => ignores_pure (some manifest)

theorem ignores_commitTaken : Ignores (Depot.withBlobs files) (commitTaken C world manifest) :=
  ignores_validateNamespace.bind fun _ => ignores_look_bind (fun _ => rfl) fun _ =>
    (ignores_lift _).bind fun _ => ignores_lift _

theorem ignores_commitFree {fence : Option CanonicalCommitFence} :
    Ignores (Depot.withBlobs files) (commitFree C world fence manifest) := by
  have hbegin : Ignores (Depot.withBlobs files) (beginCommit C world fence manifest) := by
    refine ignores_canonicalSnapshotHead.bind fun _ => ignores_lift_bind fun _ => ?_
    refine ignores_look_bind (fun _ => rfl) fun _ => ignores_lift_bind fun _ => ?_
    refine ignores_lift_bind fun _ => ?_
    exact ignores_step fun _ => rfl
  have hpublish : Ignores (Depot.withBlobs files) (publishManifest manifest) := by
    refine ignores_look_bind (fun _ => rfl) fun _ => ?_
    split
    · refine ignores_step_bind (fun _ => rfl) ?_
      exact ignores_lift _
    · exact ignores_step fun _ => rfl
  have hfinish : Ignores (Depot.withBlobs files) (finishCommit C world manifest) := by
    refine ignores_step_bind (fun _ => rfl) (ignores_createRequired.bind fun _ => ?_)
    exact ignores_step fun _ => rfl
  exact hbegin.bind fun _ => hpublish.bind fun _ => hfinish

/-- A replica that can be finished with some blobs can be finished with all others that complete
it. -/
theorem finalizeReplica_withBlobs (h : Runs (finalizeReplica C Z world manifest) s (.ok x) t)
    (hmissing : files.missing C Z manifest = [])
    (hcomplete : ∀ entry ∈ manifest.entries, files.verifyBlob C Z entry.blob = .ok ()) :
    Runs (finalizeReplica C Z world manifest) (s.withBlobs files) (.ok ()) (t.withBlobs files) := by
  simp only [finalizeReplica, runs_lift_bind_ok_iff] at h ⊢
  obtain ⟨_, hvalid, h⟩ := h
  refine ⟨_, hvalid, ?_⟩
  rw [runs_bind_ok_iff] at h ⊢
  obtain ⟨current, u, hcurrent, h⟩ := h
  refine ⟨current, _, ignores_latest.runs hcurrent, ?_⟩
  simp only [runs_lift_bind_ok_iff, runs_look_bind, ensure_eq_ok, exists_const] at h ⊢
  obtain ⟨_, hextends, _, h⟩ := h
  refine ⟨_, hextends, hmissing, ?_⟩
  rw [runs_bind_ok_iff] at h ⊢
  obtain ⟨latest, v, hlatest, h⟩ := h
  refine ⟨latest, _, ignores_latest.runs hlatest, ?_⟩
  split at h
  · next hsame =>
    rw [if_pos hsame]
    exact (ignores_pure ()).runs h
  · next hother =>
    rw [if_neg hother]
    simp only [commitSnapshotStreaming, runs_lift_bind_ok_iff, runs_look_bind] at h ⊢
    obtain ⟨_, hpins, _, hverify, h⟩ := h
    have hverify' : verifySnapshotFiles C Z manifest files = .ok () := by
      simp only [verifySnapshotFiles, bind_eq_ok, forM_eq_ok] at hverify ⊢
      obtain ⟨_, hshape, _⟩ := hverify
      exact ⟨_, hshape, hcomplete⟩
    refine ⟨_, hpins, (), hverify', ?_⟩
    change Runs (if (v.slot manifest.snapshotNumber).exists = true then _ else _) _ _ _
    split at h
    · next htaken =>
      rw [if_pos htaken]
      exact ignores_commitTaken.runs h
    · next hfree =>
      rw [if_neg hfree]
      exact ignores_commitFree.runs h

end Blobs

end

variable {peers : List PeerId} {answers : Answers}
variable {answer : ChunkAnswer} {pool next : Pool} {offset : Nat} {data : Bytes} {finished : Bool}
  {worker : Worker} {files : BlobFiles}

/-! ## What a turn can do -/

/-- The turns of a worker, by where it stands. -/
inductive Turns (C : Crypto) (Z : Codec) (peers : List PeerId) (answer : ChunkAnswer) (pool : Pool) :
    Worker → WorkerTurn → Prop
  /-- Nothing is left to do. -/
  | ended (hend : pool.stop = true ∨ pool.queue = []) :
      Turns C Z peers answer pool .waiting
        ⟨.done, pool.files, pool.queue, pool.stop, pool.fatal, pool.report⟩
  /-- An assignment is taken. -/
  | taken {assignment : BlobAssignment} {rest : List BlobAssignment} {report : ReplicationReport}
      (hrun : pool.stop = false) (hqueue : pool.queue = assignment :: rest) :
      Turns C Z peers answer pool .waiting
        ⟨.choosing ⟨assignment.descriptor, assignment.candidates, .noCandidate, false⟩, pool.files,
          rest, pool.stop, pool.fatal, report⟩
  /-- No candidate is left. -/
  | exhausted {transfer : Transfer} (hnone : transfer.candidates = []) :
      Turns C Z peers answer pool (.choosing transfer)
        ⟨.waiting, pool.files, pool.queue, true,
          pool.fatal <|> some (transfer.descriptor.hash, transfer.lastError), pool.report⟩
  /-- A candidate is not among the sources. -/
  | skipped {transfer : Transfer} {peer : PeerId} {rest : List PeerId}
      (hnext : transfer.candidates = peer :: rest) (hunknown : peer ∉ peers) :
      Turns C Z peers answer pool (.choosing transfer)
        ⟨.choosing { transfer with candidates := rest }, pool.files, pool.queue, pool.stop,
          pool.fatal, pool.report⟩
  /-- A candidate is chosen. -/
  | chosen {transfer : Transfer} {peer : PeerId} {rest : List PeerId} {report : ReplicationReport}
      (hnext : transfer.candidates = peer :: rest) (hknown : peer ∈ peers) :
      Turns C Z peers answer pool (.choosing transfer)
        ⟨.opening { transfer with candidates := rest } peer false, pool.files, pool.queue, pool.stop,
          pool.fatal, report⟩
  /-- The transfer starts where the part file ends. -/
  | opened {transfer : Transfer} {peer : PeerId} {clean resumed : Bool} {report : ReplicationReport} :
      Turns C Z peers answer pool (.opening transfer peer clean)
        ⟨.fetching { transfer with resumedRecorded := resumed } peer clean
            (pool.files.partialOffset transfer.descriptor)
            (pool.files.partialOffset transfer.descriptor),
          pool.files, pool.queue, pool.stop, pool.fatal, report⟩
  /-- The source fails or stalls. -/
  | failed {transfer : Transfer} {peer : PeerId} {clean : Bool} {start offset : Nat}
      {failure : TransferFailure} {report : ReplicationReport}
      (hanswer : (∃ error, answer = .error error) ∨ answer = .ok ([], false)) :
      Turns C Z peers answer pool (.fetching transfer peer clean start offset)
        ⟨.choosing { transfer with lastError := failure }, pool.files, pool.queue, pool.stop,
          pool.fatal, report⟩
  /-- The answer is not accepted. -/
  | rejected {transfer : Transfer} {peer : PeerId} {clean : Bool} {start offset : Nat}
      {data : Bytes} {finished : Bool} {error : StorageError} {files : BlobFiles}
      {report : ReplicationReport} (hanswer : answer = .ok (data, finished))
      (hreceives : Receives C Z transfer.descriptor offset data finished pool.files (.error error)
        files)
      (hfinal : ¬ (finished = true ∧ 0 < start ∧ clean = false ∧
        files.partialOffset transfer.descriptor = 0)) :
      Turns C Z peers answer pool (.fetching transfer peer clean start offset)
        ⟨.choosing { transfer with lastError := .failed error }, files, pool.queue, pool.stop,
          pool.fatal, report⟩
  /-- A resumed blob is fetched again from its start. -/
  | retried {transfer : Transfer} {peer : PeerId} {start offset : Nat} {data : Bytes}
      {error : StorageError} {files : BlobFiles} {report : ReplicationReport}
      (hanswer : answer = .ok (data, true))
      (hreceives : Receives C Z transfer.descriptor offset data true pool.files (.error error) files)
      (hstart : 0 < start) (hreset : files.partialOffset transfer.descriptor = 0) :
      Turns C Z peers answer pool (.fetching transfer peer false start offset)
        ⟨.opening transfer peer true, files, pool.queue, pool.stop, pool.fatal, report⟩
  /-- The answer is stored, and more is to come. -/
  | continued {transfer : Transfer} {peer : PeerId} {clean : Bool} {start offset next : Nat}
      {data : Bytes} {files : BlobFiles} {report : ReplicationReport}
      (hanswer : answer = .ok (data, false)) (hdata : data ≠ [])
      (hreceives : Receives C Z transfer.descriptor offset data false pool.files (.ok next) files) :
      Turns C Z peers answer pool (.fetching transfer peer clean start offset)
        ⟨.fetching transfer peer clean start next, files, pool.queue, pool.stop, pool.fatal, report⟩
  /-- The blob is complete. -/
  | completed {transfer : Transfer} {peer : PeerId} {clean : Bool} {start offset next : Nat}
      {data : Bytes} {files : BlobFiles} {report : ReplicationReport}
      (hanswer : answer = .ok (data, true))
      (hreceives : Receives C Z transfer.descriptor offset data true pool.files (.ok next) files) :
      Turns C Z peers answer pool (.fetching transfer peer clean start offset)
        ⟨.waiting, files, pool.queue, pool.stop, pool.fatal, report⟩

theorem turns_store {transfer : Transfer} {peer : PeerId} {clean : Bool} {start : Nat}
    (hanswer : answer = .ok (data, finished)) (hdata : ¬ (data = [] ∧ finished = false)) :
    Turns C Z peers answer pool (.fetching transfer peer clean start offset)
      (pool.store C Z transfer peer clean start offset data finished) := by
  have hreceives := @receives_receiveBlobChunk C Z transfer.descriptor offset data finished
    pool.files
  unfold Pool.store
  dsimp only
  generalize (receiveBlobChunk C Z transfer.descriptor offset data finished pool.files).result =
    result at hreceives ⊢
  generalize (receiveBlobChunk C Z transfer.descriptor offset data finished pool.files).final =
    files at hreceives ⊢
  cases result with
  | error error =>
    by_cases hretry : finished = true ∧ 0 < start ∧ clean = false ∧
        files.partialOffset transfer.descriptor = 0
    · simp only [if_pos hretry]
      obtain ⟨rfl, hstart, rfl, hreset⟩ := hretry
      exact .retried hanswer hreceives hstart hreset
    · simp only [if_neg hretry]
      exact .rejected hanswer hreceives hretry
  | ok next =>
    cases finished with
    | true => exact .completed hanswer hreceives
    | false => exact .continued hanswer (fun hnil => hdata ⟨hnil, rfl⟩) hreceives

theorem turns_turn (answer : ChunkAnswer) (pool : Pool) (hbusy : worker ≠ .done) :
    Turns C Z peers answer pool worker (pool.turn C Z peers answer worker) := by
  cases worker with
  | waiting =>
    simp only [Pool.turn, Pool.take]
    by_cases hstop : pool.stop = true
    · rw [if_pos hstop]
      exact .ended (.inl hstop)
    · rw [if_neg hstop]
      cases hqueue : pool.queue with
      | nil => exact .ended (.inr hqueue)
      | cons assignment rest => exact .taken (Bool.eq_false_of_not_eq_true hstop) hqueue
  | choosing transfer =>
    simp only [Pool.turn, Pool.choose]
    cases hnext : transfer.candidates with
    | nil => exact .exhausted hnext
    | cons peer rest =>
      by_cases hknown : peer ∈ peers
      · simp only [if_pos hknown]
        exact .chosen hnext hknown
      · simp only [if_neg hknown]
        exact .skipped hnext hknown
  | opening transfer peer clean =>
    simp only [Pool.turn, Pool.openPart]
    split
    · exact .opened
    · exact .opened
  | fetching transfer peer clean start offset =>
    simp only [Pool.turn, Pool.fetch]
    cases hanswer : answer with
    | error error => exact .failed (.inl ⟨error, rfl⟩)
    | ok value =>
      obtain ⟨data, finished⟩ := value
      by_cases hdata : data = [] ∧ finished = false
      · obtain ⟨rfl, rfl⟩ := hdata
        exact .failed (.inr rfl)
      · simp only [if_neg hdata]
        exact turns_store rfl hdata
  | done => exact absurd rfl hbusy

/-- A step is a turn of one of the workers. -/
theorem Pool.Step.turns (h : Pool.Step C Z peers answers pool next) :
    ∃ before worker after answer turn, pool.workers = before ++ worker :: after ∧
      worker ≠ .done ∧ worker.Answered answers answer ∧ Turns C Z peers answer pool worker turn ∧
      next = Pool.resume before after turn := by
  cases h with
  | turn answer hworkers hbusy hanswer =>
    exact ⟨_, _, _, answer, _, hworkers, hbusy, hanswer, turns_turn answer pool hbusy, rfl⟩

/-! ## The workers end -/

/-- An upper bound of the turns in which one attempt stores a blob. -/
def attemptCost (descriptor : BlobDescriptor) : Nat := descriptor.encodedSize + 3

/-- An upper bound of the turns that candidates cost: each is attempted at most twice. -/
def candidatesCost (descriptor : BlobDescriptor) (candidates : List PeerId) : Nat :=
  2 + candidates.length * (2 * attemptCost descriptor + 1)

/-- An upper bound of the turns that an assignment costs. -/
def BlobAssignment.cost (assignment : BlobAssignment) : Nat :=
  candidatesCost assignment.descriptor assignment.candidates

/-- An upper bound of the turns that are left for the current assignment. -/
def Transfer.cost (transfer : Transfer) : Nat :=
  candidatesCost transfer.descriptor transfer.candidates

/-- An upper bound of the turns that a worker takes before it asks the queue again. -/
def Worker.cost : Worker → Nat
  | .waiting => 1
  | .choosing transfer => transfer.cost
  | .opening transfer _ clean =>
    transfer.cost + (if clean then 1 else 2) * attemptCost transfer.descriptor
  | .fetching transfer _ clean _ offset =>
    transfer.cost + (if clean then 0 else attemptCost transfer.descriptor) +
      (transfer.descriptor.encodedSize + 1 - offset) + 1
  | .done => 0

/-- An upper bound of the turns of a pool. -/
def Pool.cost (pool : Pool) : Nat :=
  (pool.queue.map BlobAssignment.cost).sum + (pool.workers.map Worker.cost).sum

/-- A further candidate costs more than two attempts. -/
theorem candidatesCost_cons (descriptor : BlobDescriptor) (peer : PeerId) (rest : List PeerId) :
    candidatesCost descriptor (peer :: rest) =
      candidatesCost descriptor rest + 2 * attemptCost descriptor + 1 := by
  simp only [candidatesCost, List.length_cons, Nat.add_mul]
  omega

/-- A stored chunk moves the offset on, within the size of the blob. -/
theorem Receives.next_eq {descriptor : BlobDescriptor} {next : Nat} {files' : BlobFiles}
    (h : Receives C Z descriptor offset data finished files (.ok next) files') :
    next = offset + data.length ∧ next ≤ descriptor.encodedSize := by
  cases h with
  | stored _ hsize => exact ⟨rfl, hsize⟩
  | completed _ hsize => exact ⟨rfl, hsize.le⟩

/-- Every turn makes the cost smaller. -/
theorem Turns.cost_lt {turn : WorkerTurn} (h : Turns C Z peers answer pool worker turn) :
    (turn.queue.map BlobAssignment.cost).sum + turn.worker.cost <
      (pool.queue.map BlobAssignment.cost).sum + worker.cost := by
  cases h with
  | ended => simp [Worker.cost]
  | taken _ hqueue =>
    simp only [hqueue, List.map_cons, List.sum_cons, Worker.cost, Transfer.cost,
      BlobAssignment.cost]
    omega
  | exhausted hnone =>
    simp only [Worker.cost, Transfer.cost, candidatesCost, hnone, List.length_nil]
    omega
  | skipped hnext =>
    simp only [Worker.cost, Transfer.cost, hnext, candidatesCost_cons]
    omega
  | chosen hnext =>
    simp only [Worker.cost, Transfer.cost, hnext, candidatesCost_cons, Bool.false_eq_true, if_false]
    omega
  | opened =>
    simp only [Worker.cost, Transfer.cost, attemptCost]
    split <;> omega
  | failed =>
    simp only [Worker.cost, Transfer.cost]
    omega
  | rejected =>
    simp only [Worker.cost, Transfer.cost]
    omega
  | retried =>
    simp only [Worker.cost, if_true, Bool.false_eq_true, if_false]
    omega
  | continued _ hdata hreceives =>
    obtain ⟨rfl, hsize⟩ := hreceives.next_eq
    have hlength := List.length_pos_iff.mpr hdata
    simp only [Worker.cost]
    omega
  | completed =>
    simp only [Worker.cost, Transfer.cost, candidatesCost]
    omega

/-- Every step makes the cost smaller. -/
theorem Pool.Step.cost_lt (h : Pool.Step C Z peers answers pool next) : next.cost < pool.cost := by
  obtain ⟨before, worker, after, answer, turn, hworkers, _, _, hturn, rfl⟩ := h.turns
  have hlt := hturn.cost_lt
  simp only [Pool.cost, Pool.resume, hworkers, List.map_append, List.map_cons, List.sum_append,
    List.sum_cons]
  omega

/-- A run has no more steps than the cost of the pool it starts from. -/
theorem length_le_cost {run : List Pool}
    (h : (pool :: run).IsChain (Pool.Step C Z peers answers)) : run.length ≤ pool.cost := by
  induction run generalizing pool with
  | nil => simp
  | cons next rest ih =>
    rw [List.isChain_cons_cons] at h
    have hlt := h.1.cost_lt
    have hrest := ih h.2
    simp only [List.length_cons]
    omega

variable (C Z peers) in
/-- A pool that has not ended can take a step, whatever the sources answer. -/
theorem Pool.exists_step (htotal : ∀ peer descriptor offset, ∃ answer,
      answers peer descriptor offset answer) (hnot : ¬ pool.Ended) :
    ∃ next, Pool.Step C Z peers answers pool next := by
  unfold Pool.Ended at hnot
  push Not at hnot
  obtain ⟨worker, hmem, hbusy⟩ := hnot
  obtain ⟨before, after, hworkers⟩ := List.append_of_mem hmem
  have hanswer : ∃ answer, worker.Answered answers answer := by
    cases worker with
    | fetching transfer peer clean start offset => exact htotal peer transfer.descriptor offset
    | _ => exact ⟨.ok ([], false), trivial⟩
  obtain ⟨answer, hanswer⟩ := hanswer
  exact ⟨_, .turn answer hworkers hbusy hanswer⟩

variable (C Z peers) in
theorem Pool.exists_ended (htotal : ∀ peer descriptor offset, ∃ answer,
      answers peer descriptor offset answer) (pool : Pool) :
    ∃ last, Relation.ReflTransGen (Pool.Step C Z peers answers) pool last ∧ last.Ended := by
  induction hcost : pool.cost using Nat.strong_induction_on generalizing pool with
  | _ cost ih =>
    by_cases hended : pool.Ended
    · exact ⟨pool, .refl, hended⟩
    · obtain ⟨next, hstep⟩ := Pool.exists_step C Z peers htotal hended
      obtain ⟨last, hrun, hlast⟩ := ih next.cost (hcost ▸ hstep.cost_lt) next rfl
      exact ⟨last, .head hstep hrun, hlast⟩

/-! ## What was reconstructed -/

variable {sources : List BlobSource} {options : ReplicationOptions} {manifest : SnapshotManifestV1}
  {depot final : Depot}

/-- Only consistent manifests are planned. -/
theorem consistent_of_plan {assignments : List BlobAssignment}
    (h : planReconstruction C Z sources options manifest files = .ok assignments) :
    manifest.Consistent := by
  simp only [planReconstruction, bind_eq_ok] at h
  obtain ⟨_, _, _, hconsistent, _⟩ := h
  exact validateDescriptorConsistency_eq_ok_iff.mp hconsistent

/-- A replica that was finished verifies and is the head. -/
theorem verified_of_finalizeReplica {s t : Depot} {x : Unit} (hconsistent : manifest.Consistent)
    (h : Runs (finalizeReplica C Z manifest.worldId manifest) s (.ok x) t) :
    (∀ entry ∈ manifest.entries, t.blobs.verifyBlob C Z entry.blob = .ok ()) ∧
      t.head = .present ⟨manifest.worldId, some (canonicalRef C manifest)⟩ := by
  obtain ⟨hmissing, hblobs, hhead⟩ := head_of_finalizeReplica h
  refine ⟨fun entry hmem => ?_, hhead⟩
  rw [hblobs, ← BlobFiles.hasComplete_iff]
  exact hconsistent.missing_eq_nil_iff.mp hmissing entry hmem

theorem exists_reconstructs (htotal : ∀ peer descriptor offset, ∃ answer,
      answers peer descriptor offset answer) :
    ∃ result final, Reconstructs C Z answers sources options manifest depot result final := by
  cases hplan : planReconstruction C Z sources options manifest depot.blobs with
  | error error => exact ⟨_, _, .refused hplan⟩
  | ok assignments =>
    by_cases hmissing : depot.blobs.missing C Z manifest = []
    · exact ⟨_, _, .present hplan hmissing runs_self⟩
    · obtain ⟨pool, hrun, hended⟩ := Pool.exists_ended C Z (sources.map BlobSource.peerId) htotal
        (.start options (depot.blobs.missing C Z manifest) assignments depot.blobs)
      cases hfatal : pool.fatal with
      | none => exact ⟨_, _, .fetched hplan hmissing hrun hended hfatal runs_self⟩
      | some failure => exact ⟨_, _, .failed hplan hmissing hrun hended hfatal⟩

/-- Reconstruction from sources that answer every request in any way: the workers take a bounded
number of turns, each with one request at most; there is a result; and if it is a success, every
blob of the manifest verifies and the manifest is the canonical head. -/
theorem reconstruction_ends_sound (C : Crypto) (Z : Codec) (answers : Answers)
    (sources : List BlobSource) (options : ReplicationOptions) (manifest : SnapshotManifestV1)
    (depot : Depot)
    (htotal : ∀ peer descriptor offset, ∃ answer, answers peer descriptor offset answer) :
    (∀ assignments run,
        (Pool.start options (depot.blobs.missing C Z manifest) assignments depot.blobs ::
          run).IsChain (Pool.Step C Z (sources.map BlobSource.peerId) answers) →
        run.length ≤
          (Pool.start options (depot.blobs.missing C Z manifest) assignments depot.blobs).cost) ∧
      (∃ result final, Reconstructs C Z answers sources options manifest depot result final) ∧
      ∀ report final, Reconstructs C Z answers sources options manifest depot (.ok report) final →
        (∀ entry ∈ manifest.entries, final.blobs.verifyBlob C Z entry.blob = .ok ()) ∧
          final.head = .present ⟨manifest.worldId, some (canonicalRef C manifest)⟩ := by
  refine ⟨fun assignments run hrun => length_le_cost hrun, exists_reconstructs htotal, ?_⟩
  intro report final h
  generalize hresult : (Except.ok report : Except SchedulerError ReplicationReport) = result at h
  cases h with
  | refused => cases hresult
  | failed => cases hresult
  | @present final result assignments hplan _ hfinal =>
    cases result with
    | error error => cases hresult
    | ok value => exact verified_of_finalizeReplica (consistent_of_plan hplan) hfinal
  | @fetched assignments pool final result hplan _ _ _ _ hfinal =>
    cases result with
    | error error => cases hresult
    | ok value => exact verified_of_finalizeReplica (consistent_of_plan hplan) hfinal

/-- A single source that may answer anything is asked for one byte: the workers take at most twelve
turns, and there is a result. -/
theorem reconstruction_ends_sound_byte :
    let manifest := (Founding.numbered 1).twinSnapshot .raw .raw
    let Z : Codec := ⟨fun _ => none⟩
    let depot := Depot.empty ((Founding.numbered 1).store .ideal)
    let start := Pool.start {} (depot.blobs.missing .ideal Z manifest)
      [⟨byteBlob .raw, [⟨1⟩]⟩] depot.blobs
    (∀ run, (start :: run).IsChain (Pool.Step .ideal Z [⟨1⟩] fun _ _ _ _ => True) →
        run.length ≤ 12) ∧
      ∃ result final, Reconstructs .ideal Z (fun _ _ _ _ => True) [⟨⟨1⟩, fun _ => true⟩] {} manifest
        depot result final := by
  intro manifest Z depot start
  have hends := reconstruction_ends_sound .ideal Z (fun _ _ _ _ => True) [⟨⟨1⟩, fun _ => true⟩] {}
    manifest depot fun _ _ _ => ⟨.ok ([], false), trivial⟩
  have hcost : start.cost = 12 := by decide +kernel
  refine ⟨fun run hrun => ?_, hends.2.1⟩
  rw [← hcost]
  exact hends.1 _ run hrun

end SwarmCraft
