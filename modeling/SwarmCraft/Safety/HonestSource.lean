import SwarmCraft.Safety.Reconstruction
import SwarmCraft.Storage.Assignment

/-!
# Reconstruction with one honest source

A candidate that lies costs a worker one attempt. What it stored is taken over by the next one, and
a blob that does not verify in the end is fetched once more from its start. So one honest source is
enough, unless a part file is longer than its blob: nothing is read from behind the end of a blob,
nothing is appended to such a file, and nothing makes it shorter.
-/

namespace SwarmCraft

open Checked Durable

variable {C : Crypto} {Z : Codec} {peers : List PeerId} {answers : Answers} {answer : ChunkAnswer}
  {pool next : Pool} {worker : Worker} {turn : WorkerTurn} {descriptor : BlobDescriptor}
  {files held : BlobFiles} {manifest : SnapshotManifestV1} {honest : PeerId}
  {sources : List BlobSource} {options : ReplicationOptions}

variable (C Z) in
/-- The peer is a source that has every blob of the manifest and answers as it reads its files. -/
structure HonestSource (answers : Answers) (sources : List BlobSource) (options : ReplicationOptions)
    (manifest : SnapshotManifestV1) (honest : PeerId) (held : BlobFiles) : Prop where
  listed : ∃ source ∈ sources, source.peerId = honest ∧
    ∀ descriptor, source.hasBlob descriptor = held.hasComplete C Z descriptor
  holds : ∀ entry ∈ manifest.entries, held.verifyBlob C Z entry.blob = .ok ()
  reads : ∀ descriptor offset answer, answers honest descriptor offset answer →
    answer = held.readChunk descriptor offset options.chunkSize

/-! ## Who works on what -/

/-- The blob that a worker is at. -/
def Worker.blob? : Worker → Option BlobDescriptor
  | .choosing transfer | .opening transfer _ _ | .fetching transfer _ _ _ _ =>
    some transfer.descriptor
  | .waiting | .done => none

/-- The blobs in the queue and those that workers are at. -/
def pendingBlobs (queue : List BlobAssignment) (workers : List Worker) : List BlobDescriptor :=
  queue.map BlobAssignment.descriptor ++ workers.filterMap Worker.blob?

/-- At the start all is in the queue. -/
theorem pendingBlobs_start {queue : List BlobAssignment} {count : Nat} :
    pendingBlobs queue (List.replicate count .waiting) = queue.map BlobAssignment.descriptor := by
  simp [pendingBlobs, List.filterMap_replicate, Worker.blob?]

/-- The blob of one worker comes first. -/
theorem pendingBlobs_perm {queue : List BlobAssignment} {before after : List Worker} :
    (pendingBlobs queue (before ++ worker :: after)).Perm
      (worker.blob?.toList ++ pendingBlobs queue (before ++ after)) := by
  unfold pendingBlobs
  rw [List.filterMap_append, List.filterMap_append, List.filterMap_cons]
  cases worker.blob? with
  | none => exact .refl _
  | some blob =>
    simp only [← List.append_assoc]
    exact List.perm_middle

section

variable (h : Turns C Z peers answer pool worker turn)

include h

/-- A turn leaves the pending blobs as they are, or ends the work on one of them. -/
theorem Turns.pending (rest : List Worker) :
    worker.blob?.toList ++ pendingBlobs pool.queue rest =
        turn.worker.blob?.toList ++ pendingBlobs turn.queue rest ∨
      ∃ blob, (turn.stop = true ∨ turn.files.hasComplete C Z blob = true) ∧
        worker.blob?.toList ++ pendingBlobs pool.queue rest =
          blob :: (turn.worker.blob?.toList ++ pendingBlobs turn.queue rest) := by
  cases h with
  | taken _ hqueue =>
    rw [hqueue]
    exact .inl rfl
  | exhausted => exact .inr ⟨_, .inl rfl, rfl⟩
  | completed _ hreceives =>
    refine .inr ⟨_, .inr ?_, rfl⟩
    cases hreceives with
    | stored _ _ hmore => cases hmore
    | completed _ _ _ hverify =>
      rw [BlobFiles.hasComplete_iff]
      simpa [BlobFiles.verifyBlob, BlobFiles.setComplete, BlobFiles.setPart] using hverify
  | _ => exact .inl rfl

theorem Turns.pending_sublist (rest : List Worker) :
    (turn.worker.blob?.toList ++ pendingBlobs turn.queue rest).Sublist
      (worker.blob?.toList ++ pendingBlobs pool.queue rest) := by
  rcases h.pending rest with hsame | ⟨_, _, hcons⟩
  · rw [hsame]
  · rw [hcons]
    exact List.sublist_cons_self _ _

/-- A turn leaves the files alone, or receives a chunk of the blob of the worker. -/
theorem Turns.files_cases :
    turn.files = pool.files ∨ ∃ blob offset data finished result, worker.blob? = some blob ∧
      Receives C Z blob offset data finished pool.files result turn.files := by
  cases h with
  | rejected _ hreceives | retried _ hreceives | continued _ _ hreceives
  | completed _ hreceives => exact .inr ⟨_, _, _, _, _, rfl, hreceives⟩
  | _ => exact .inl rfl

end

section Receive

variable {offset : Nat} {data : Bytes} {finished : Bool} {result : Except StorageError Nat}
  {files' : BlobFiles}

section

variable (h : Receives C Z descriptor offset data finished files result files')

include h

/-- A chunk changes nothing about other blobs. -/
theorem Receives.frame {other : BlobDescriptor} (hne : other.hash ≠ descriptor.hash) :
    files'.part other.key = files.part other.key ∧
      files'.hasComplete C Z other = files.hasComplete C Z other := by
  have hkey : other.key ≠ descriptor.key := fun heq => hne (congrArg BlobKey.hash heq)
  cases h <;> simp [BlobFiles.part, BlobFiles.hasComplete, BlobFiles.verifyBlob,
    BlobFiles.setPart, BlobFiles.setComplete, hkey]

/-- A part file that fits stays within the size of its blob. -/
theorem Receives.part_le (hle : (files.part descriptor.key).length ≤ descriptor.encodedSize) :
    (files'.part descriptor.key).length ≤ descriptor.encodedSize := by
  cases h with
  | refused => simpa using hle
  | stored hoffset hsize => simpa [hoffset] using hsize
  | short hoffset hsize => simpa [hoffset] using hsize.le
  | corrupt | completed => simp

/-- A part file that is too long stays as it is, and so does the blob. -/
theorem Receives.stuck (hlong : descriptor.encodedSize < (files.part descriptor.key).length) :
    files'.part descriptor.key = files.part descriptor.key ∧
      files'.hasComplete C Z descriptor = files.hasComplete C Z descriptor := by
  cases h with
  | refused => simp [BlobFiles.hasComplete, BlobFiles.verifyBlob]
  | stored hoffset hsize | short hoffset hsize | corrupt hoffset hsize
  | completed hoffset hsize => omega

end

end Receive

/-! ## Hope -/

/-- The honest source is still to be asked; or it is being asked, from the start of the blob or with
one more attempt to come. -/
def Worker.Hopeful (honest : PeerId) (held files : BlobFiles) : Worker → Prop
  | .waiting | .done => True
  | .choosing transfer => honest ∈ transfer.candidates
  | .opening transfer peer clean => honest ∈ transfer.candidates ∨
    peer = honest ∧ (clean = true → files.part transfer.descriptor.key = [])
  | .fetching transfer peer clean start offset => honest ∈ transfer.candidates ∨
    peer = honest ∧ (files.part transfer.descriptor.key).length = offset ∧
      (clean = true → start = 0) ∧ (start = 0 → files.part transfer.descriptor.key <+:
        (held.complete transfer.descriptor.key).getD [])

/-- It depends on the part file of the own blob alone. -/
theorem Worker.Hopeful.congr {files' : BlobFiles} (h : worker.Hopeful honest held files)
    (hsame : ∀ blob ∈ worker.blob?, files'.part blob.key = files.part blob.key) :
    worker.Hopeful honest held files' := by
  cases worker with
  | waiting | done => trivial
  | choosing transfer => exact h
  | opening transfer | fetching transfer =>
    simp only [Hopeful] at h ⊢
    rwa [hsame _ rfl]

/-- An honest answer goes on where it was asked to; only the last one is called the last. -/
theorem HonestSource.answer_eq (h : HonestSource C Z answers sources options manifest honest held)
    (hoptions : options.validate = .ok options)
    (hblob : ∃ entry ∈ manifest.entries, entry.blob = descriptor) {offset : Nat}
    (hoffset : offset ≤ descriptor.encodedSize)
    (hanswer : answers honest descriptor offset answer) :
    ∃ data, answer = .ok (data, decide (offset + data.length = descriptor.encodedSize)) ∧
      offset + data.length ≤ descriptor.encodedSize ∧
      (data = [] → offset = descriptor.encodedSize) ∧
      ∀ part, part.length = offset → part <+: (held.complete descriptor.key).getD [] →
        part ++ data <+: (held.complete descriptor.key).getD [] ∧
          (offset + data.length = descriptor.encodedSize →
            verifyEncodedBlob C Z descriptor (some (part ++ data)) = .ok ()) := by
  obtain ⟨entry, hentry, rfl⟩ := hblob
  have hverify := h.holds entry hentry
  have hbytes := hverify
  simp only [BlobFiles.verifyBlob, verifyEncodedBlob, bind_eq_ok, required_eq_ok,
    ensure_eq_ok] at hbytes
  obtain ⟨bytes, hcomplete, _, hlength, _⟩ := hbytes
  have hchunk : 0 < options.chunkSize := by
    simp only [ReplicationOptions.validate, bind_eq_ok, ensure_eq_ok] at hoptions
    obtain ⟨_, _, _, hchunk, _⟩ := hoptions
    omega
  let requested := min (entry.blob.encodedSize - offset) options.chunkSize
  have hdata : ((bytes.drop offset).take requested).length = requested := by
    rw [List.length_take, List.length_drop, hlength]
    omega
  refine ⟨(bytes.drop offset).take requested, ?_, ?_, ?_, ?_⟩
  · rw [h.reads _ _ _ hanswer, hdata]
    simp [BlobFiles.readChunk, ensure, required, hoffset, hcomplete, hlength, requested]
  · omega
  · intro hnil
    rw [hnil, List.length_nil] at hdata
    omega
  · intro part hlen hpart
    rw [hcomplete, Option.getD_some] at hpart ⊢
    have hwhole : part ++ (bytes.drop offset).take requested = bytes.take (offset + requested) := by
      rw [List.take_add, ← hlen, ← List.prefix_iff_eq_take.mp hpart]
    rw [hwhole, hdata]
    refine ⟨List.take_prefix _ _, fun hlast => ?_⟩
    rw [hlast, ← hlength, List.take_length, ← hcomplete]
    exact hverify

/-- A turn keeps the hope of a worker, and the pool running. -/
theorem Turns.hopeful (h : HonestSource C Z answers sources options manifest honest held)
    (hoptions : options.validate = .ok options)
    (hsizes : ∀ entry ∈ manifest.entries, entry.blob.encodedSize ≤ u64Max)
    (hturn : Turns C Z (sources.map BlobSource.peerId) answer pool worker turn)
    (hanswer : worker.Answered answers answer) (hworker : worker.Hopeful honest held pool.files)
    (hqueue : ∀ assignment ∈ pool.queue, honest ∈ assignment.candidates)
    (hblob : ∀ blob ∈ worker.blob?, (∃ entry ∈ manifest.entries, entry.blob = blob) ∧
      (pool.files.part blob.key).length ≤ blob.encodedSize) :
    turn.worker.Hopeful honest held turn.files ∧ turn.stop = pool.stop ∧ turn.fatal = pool.fatal := by
  have hlisted : honest ∈ sources.map BlobSource.peerId := by
    obtain ⟨source, hsource, rfl, _⟩ := h.listed
    exact List.mem_map_of_mem hsource
  cases hturn with
  | ended => exact ⟨trivial, rfl, rfl⟩
  | taken _ hfirst =>
    rw [hfirst] at hqueue
    exact ⟨hqueue _ List.mem_cons_self, rfl, rfl⟩
  | exhausted hnone =>
    have hmem : honest ∈ _ := hworker
    rw [hnone] at hmem
    cases hmem
  | skipped hnext hunknown =>
    have hmem : honest ∈ _ := hworker
    rw [hnext] at hmem
    refine ⟨(List.mem_cons.mp hmem).resolve_left ?_, rfl, rfl⟩
    rintro rfl
    exact hunknown hlisted
  | chosen hnext =>
    have hmem : honest ∈ _ := hworker
    rw [hnext] at hmem
    rcases List.mem_cons.mp hmem with rfl | hlater
    · exact ⟨.inr ⟨rfl, by simp⟩, rfl, rfl⟩
    · exact ⟨.inl hlater, rfl, rfl⟩
  | opened =>
    refine ⟨?_, rfl, rfl⟩
    rcases hworker with hlater | ⟨rfl, hclean⟩
    · exact .inl hlater
    · refine .inr ⟨rfl, (BlobFiles.partialOffset_eq _).symm, fun hthis => ?_, fun hzero => ?_⟩
      · rw [BlobFiles.partialOffset_eq, hclean hthis]
        rfl
      · rw [BlobFiles.partialOffset_eq, List.length_eq_zero_iff] at hzero
        rw [hzero]
        exact List.nil_prefix
  | failed hfailed =>
    refine ⟨?_, rfl, rfl⟩
    rcases hworker with hlater | ⟨rfl, rfl, _⟩
    · exact hlater
    · obtain ⟨hknown, hfits⟩ := hblob _ rfl
      obtain ⟨data, hdata, _, hlast, _⟩ := h.answer_eq hoptions hknown hfits hanswer
      rcases hfailed with ⟨error, herror⟩ | hempty
      · rw [hdata] at herror
        cases herror
      · rw [hdata] at hempty
        simp only [Except.ok.injEq, Prod.mk.injEq, decide_eq_false_iff_not] at hempty
        obtain ⟨rfl, hmore⟩ := hempty
        exact absurd (hlast rfl) hmore
  | @rejected _ _ _ start _ _ _ _ _ _ hthis hreceives hfinal =>
    refine ⟨?_, rfl, rfl⟩
    rcases hworker with hlater | ⟨rfl, rfl, hclean, hpart⟩
    · exact hlater
    · exfalso
      obtain ⟨hknown, hfits⟩ := hblob _ rfl
      obtain ⟨data', hdata, hsize, _, hwhole⟩ := h.answer_eq hoptions hknown hfits hanswer
      rw [hdata] at hthis
      simp only [Except.ok.injEq, Prod.mk.injEq] at hthis
      obtain ⟨rfl, rfl⟩ := hthis
      cases hreceives with
      | refused hbad =>
        obtain ⟨entry, hentry, hdescriptor⟩ := hknown
        have hlimit := hdescriptor ▸ hsizes entry hentry
        omega
      | short _ hshort hlast => exact hshort.ne (of_decide_eq_true hlast)
      | corrupt _ hexact hlast hverify =>
        by_cases hstart : start = 0
        · rw [(hwhole _ rfl (hpart hstart)).2 hexact] at hverify
          cases hverify
        · apply hfinal
          refine ⟨hlast, Nat.pos_of_ne_zero hstart, ?_, by simp [BlobFiles.partialOffset]⟩
          exact Bool.eq_false_of_not_eq_true fun hthis => hstart (hclean hthis)
  | retried _ _ _ hreset =>
    refine ⟨?_, rfl, rfl⟩
    rcases hworker with hlater | ⟨rfl, _⟩
    · exact .inl hlater
    · rw [BlobFiles.partialOffset_eq, List.length_eq_zero_iff] at hreset
      exact .inr ⟨rfl, fun _ => hreset⟩
  | continued hthis _ hreceives =>
    refine ⟨?_, rfl, rfl⟩
    rcases hworker with hlater | ⟨rfl, rfl, hclean, hpart⟩
    · exact .inl hlater
    · obtain ⟨hknown, hfits⟩ := hblob _ rfl
      obtain ⟨data', hdata, _, _, hwhole⟩ := h.answer_eq hoptions hknown hfits hanswer
      rw [hdata] at hthis
      simp only [Except.ok.injEq, Prod.mk.injEq] at hthis
      obtain ⟨rfl, _⟩ := hthis
      cases hreceives with
      | completed _ _ hlast => cases hlast
      | stored =>
        refine .inr ⟨rfl, by simp, hclean, fun hstart => ?_⟩
        simpa using (hwhole _ rfl (hpart hstart)).1
  | completed => exact ⟨trivial, rfl, rfl⟩

/-! ## Runs -/

variable (C Z) in
/-- The workers come to the end of every blob. -/
structure Pool.Good (manifest : SnapshotManifestV1) (honest : PeerId) (held : BlobFiles)
    (pool : Pool) : Prop where
  running : pool.stop = false
  sound : pool.fatal = none
  queued : ∀ assignment ∈ pool.queue, honest ∈ assignment.candidates
  hopeful : ∀ worker ∈ pool.workers, worker.Hopeful honest held pool.files
  distinct : ((pendingBlobs pool.queue pool.workers).map BlobDescriptor.hash).Nodup
  pending : ∀ blob ∈ pendingBlobs pool.queue pool.workers,
    (∃ entry ∈ manifest.entries, entry.blob = blob) ∧
      (pool.files.part blob.key).length ≤ blob.encodedSize
  covered : ∀ entry ∈ manifest.entries, entry.blob ∈ pendingBlobs pool.queue pool.workers ∨
    pool.files.hasComplete C Z entry.blob = true
  staffed : pool.workers ≠ []
  drained : .done ∈ pool.workers → pool.queue = []

/-- The queue only gets shorter, and a worker ends at an empty one. -/
theorem Turns.queue_suffix (h : Turns C Z peers answer pool worker turn) :
    turn.queue <:+ pool.queue ∧ (turn.worker = .done → pool.stop = true ∨ pool.queue = []) := by
  cases h with
  | ended hend => exact ⟨List.suffix_refl _, fun _ => hend⟩
  | taken _ hqueue => exact ⟨hqueue ▸ List.suffix_cons _ _, by simp⟩
  | _ => exact ⟨List.suffix_refl _, by simp⟩

theorem Pool.Good.step (hconsistent : manifest.Consistent)
    (h : HonestSource C Z answers sources options manifest honest held)
    (hoptions : options.validate = .ok options)
    (hsizes : ∀ entry ∈ manifest.entries, entry.blob.encodedSize ≤ u64Max)
    (hgood : pool.Good C Z manifest honest held)
    (hstep : Pool.Step C Z (sources.map BlobSource.peerId) answers pool next) :
    next.Good C Z manifest honest held := by
  obtain ⟨before, worker, after, answer, turn, hworkers, _, hanswer, hturn, rfl⟩ := hstep.turns
  obtain ⟨running, sound, queued, hopeful, distinct, pending, covered, _, drained⟩ := hgood
  have hperm : (pendingBlobs pool.queue pool.workers).Perm
      (worker.blob?.toList ++ pendingBlobs pool.queue (before ++ after)) :=
    hworkers ▸ pendingBlobs_perm
  have hperm' : (pendingBlobs turn.queue (before ++ turn.worker :: after)).Perm
      (turn.worker.blob?.toList ++ pendingBlobs turn.queue (before ++ after)) := pendingBlobs_perm
  rw [(hperm.map _).nodup_iff] at distinct
  simp only [hperm.mem_iff] at pending covered
  simp only [hworkers, List.forall_mem_append, List.forall_mem_cons] at hopeful
  obtain ⟨hqueue, hdone⟩ := hturn.queue_suffix
  obtain ⟨hhope, hstop, hfatal⟩ := hturn.hopeful h hoptions hsizes hanswer hopeful.2.1 queued
    fun blob hblob => pending blob (List.mem_append_left _ (Option.mem_toList.mpr hblob))
  rw [running] at hstop
  -- The other blobs have other part files.
  have hother : ∀ blob ∈ pendingBlobs pool.queue (before ++ after),
      turn.files.part blob.key = pool.files.part blob.key := by
    intro blob hblob
    rcases hturn.files_cases with hsame | ⟨own, _, _, _, _, hown, hreceives⟩
    · rw [hsame]
    · refine (hreceives.frame fun heq => ?_).1
      rw [hown, Option.toList_some, List.singleton_append, List.map_cons, List.nodup_cons] at distinct
      exact distinct.1 (heq ▸ List.mem_map_of_mem hblob)
  have hfits : ∀ blob ∈ worker.blob?.toList ++ pendingBlobs pool.queue (before ++ after),
      (turn.files.part blob.key).length ≤ blob.encodedSize := by
    intro blob hblob
    have hfit := (pending blob hblob).2
    rcases List.mem_append.mp hblob with hown | hblob
    · rcases hturn.files_cases with hsame | ⟨own, _, _, _, _, hthis, hreceives⟩
      · rwa [hsame]
      · rw [Option.mem_toList, hthis, Option.some_inj] at hown
        subst hown
        exact hreceives.part_le hfit
    · rwa [hother blob hblob]
  have hsub := hturn.pending_sublist (before ++ after)
  constructor
  · exact hstop
  · exact hfatal.trans sound
  · exact fun assignment hmem => queued assignment (hqueue.subset hmem)
  · have hrest : ∀ other ∈ before ++ after, other.Hopeful honest held pool.files →
        other.Hopeful honest held turn.files := by
      intro other hmem hthis
      refine hthis.congr fun blob hblob => hother blob (List.mem_append_right _ ?_)
      exact List.mem_filterMap.mpr ⟨other, hmem, hblob⟩
    simp only [List.forall_mem_append] at hrest
    simp only [Pool.resume, List.forall_mem_append, List.forall_mem_cons]
    exact ⟨fun other hmem => hrest.1 other hmem (hopeful.1 other hmem), hhope,
      fun other hmem => hrest.2 other hmem (hopeful.2.2 other hmem)⟩
  · exact (hperm'.map _).nodup_iff.mpr (distinct.sublist (hsub.map _))
  · intro blob hmem
    have hmem := hsub.subset (hperm'.mem_iff.mp hmem)
    exact ⟨(pending blob hmem).1, hfits blob hmem⟩
  · intro entry hentry
    simp only [Pool.resume, hperm'.mem_iff]
    by_cases hmem : entry.blob ∈ worker.blob?.toList ++ pendingBlobs pool.queue (before ++ after)
    · rcases hturn.pending (before ++ after) with hsame | ⟨blob, hend, hcons⟩
      · exact .inl (hsame ▸ hmem)
      · rw [hcons] at hmem
        rcases List.mem_cons.mp hmem with heq | hmem
        · exact .inr (heq ▸ hend.resolve_left (by simp [hstop]))
        · exact .inl hmem
    · refine .inr ?_
      have hcomplete := (covered entry hentry).resolve_left hmem
      rcases hturn.files_cases with hsame | ⟨own, _, _, _, _, hown, hreceives⟩
      · rwa [hsame]
      · rwa [(hreceives.frame fun heq => ?_).2]
        have hthis : own ∈ worker.blob?.toList ++ pendingBlobs pool.queue (before ++ after) := by
          simp [hown]
        obtain ⟨known, hknown, rfl⟩ := (pending own hthis).1
        exact hmem (hconsistent entry hentry known hknown heq ▸ hthis)
  · simp [Pool.resume]
  · intro hmem
    have hempty : pool.queue = [] := by
      rcases List.mem_append.mp hmem with hmem | hmem
      · exact drained (hworkers ▸ List.mem_append_left _ hmem)
      · rcases List.mem_cons.mp hmem with heq | hmem
        · exact (hdone heq.symm).resolve_left (by simp [running])
        · exact drained (hworkers ▸ List.mem_append_right _ (List.mem_cons_of_mem _ hmem))
    exact List.suffix_nil.mp (hempty ▸ hqueue)

/-- In the end every blob is complete. -/
theorem Pool.Good.ended (h : pool.Good C Z manifest honest held) (hended : pool.Ended) :
    ∀ entry ∈ manifest.entries, pool.files.hasComplete C Z entry.blob = true := by
  intro entry hentry
  obtain ⟨worker, hworker⟩ := List.exists_mem_of_ne_nil _ h.staffed
  have hqueue := h.drained (hended worker hworker ▸ hworker)
  refine (h.covered entry hentry).resolve_left fun hmem => ?_
  rw [pendingBlobs, hqueue, List.map_nil, List.nil_append, List.mem_filterMap] at hmem
  obtain ⟨other, hother, hblob⟩ := hmem
  rw [hended other hother] at hblob
  cases hblob

/-- The workers start well if no part file is too long. -/
theorem Pool.good_start {assignments : List BlobAssignment} (hconsistent : manifest.Consistent)
    (hoptions : options.validate = .ok options) (hmissing : files.missing C Z manifest ≠ [])
    (hassigned : assignments.map BlobAssignment.descriptor = files.missing C Z manifest)
    (hhonest : ∀ assignment ∈ assignments, honest ∈ assignment.candidates)
    (hfits : ∀ descriptor ∈ files.missing C Z manifest,
      files.partialOffset descriptor ≤ descriptor.encodedSize) :
    (Pool.start options (files.missing C Z manifest) assignments files).Good C Z manifest honest
      held := by
  simp only [ReplicationOptions.validate, bind_eq_ok, ensure_eq_ok] at hoptions
  obtain ⟨_, hparallel, _⟩ := hoptions
  constructor
  · rfl
  · rfl
  · exact hhonest
  · intro worker hworker
    rw [List.eq_of_mem_replicate hworker]
    trivial
  · simp only [Pool.start, pendingBlobs_start, hassigned]
    exact BlobFiles.missingFrom_nodup
  · intro blob hblob
    simp only [Pool.start, pendingBlobs_start, hassigned] at hblob
    obtain ⟨_, entry, hleads, heq⟩ := BlobFiles.mem_missing.mp hblob
    refine ⟨⟨entry, hleads.mem, heq⟩, ?_⟩
    rw [← BlobFiles.partialOffset_eq]
    exact hfits blob hblob
  · intro entry hentry
    simp only [Pool.start, pendingBlobs_start, hassigned]
    by_cases hcomplete : files.hasComplete C Z entry.blob = true
    · exact .inr hcomplete
    · exact .inl (hconsistent.mem_missing hentry (by simpa using hcomplete))
  · have hlength := List.length_pos_iff.mpr hmissing
    simp only [Pool.start, ne_eq, List.replicate_eq_nil_iff]
    omega
  · intro hdone
    cases List.eq_of_mem_replicate hdone

/-! ## A part file that is too long -/

variable (C Z) in
/-- The blob cannot be completed. -/
structure Pool.Stuck (blob : BlobDescriptor) (pool : Pool) : Prop where
  long : blob.encodedSize < (pool.files.part blob.key).length
  incomplete : pool.files.hasComplete C Z blob = false
  alone : ∀ other ∈ pendingBlobs pool.queue pool.workers, other.hash = blob.hash → other = blob

theorem Pool.Stuck.step {blob : BlobDescriptor} (h : pool.Stuck C Z blob)
    (hstep : Pool.Step C Z peers answers pool next) : next.Stuck C Z blob := by
  obtain ⟨before, worker, after, answer, turn, hworkers, _, hanswer, hturn, rfl⟩ := hstep.turns
  obtain ⟨hlong, hincomplete, halone⟩ := h
  have hperm : (pendingBlobs pool.queue pool.workers).Perm
      (worker.blob?.toList ++ pendingBlobs pool.queue (before ++ after)) :=
    hworkers ▸ pendingBlobs_perm
  simp only [hperm.mem_iff] at halone
  have hfiles : turn.files.part blob.key = pool.files.part blob.key ∧
      turn.files.hasComplete C Z blob = pool.files.hasComplete C Z blob := by
    rcases hturn.files_cases with hsame | ⟨own, _, _, _, _, hown, hreceives⟩
    · rw [hsame]
      exact ⟨rfl, rfl⟩
    · by_cases hhash : blob.hash = own.hash
      · obtain rfl := halone own (by simp [hown]) hhash.symm
        exact hreceives.stuck hlong
      · exact hreceives.frame hhash
  refine ⟨hfiles.1 ▸ hlong, hfiles.2.trans hincomplete, fun other hmem => ?_⟩
  exact halone other ((hturn.pending_sublist _).subset (pendingBlobs_perm.mem_iff.mp hmem))

/-! ## The reconstruction -/

section Result

variable {depot final : Depot} {result : Except SchedulerError ReplicationReport}

/-- A replica that could be finished is finished with files that complete it. -/
theorem finalizeReplica_of_complete {t : Depot} {outcome : Except StorageError Unit}
    (hfinal : Runs (finalizeReplica C Z manifest.worldId manifest) (depot.withBlobs held) (.ok ()) t)
    (hconsistent : manifest.Consistent)
    (hcomplete : ∀ entry ∈ manifest.entries, files.hasComplete C Z entry.blob = true)
    (h : Runs (finalizeReplica C Z manifest.worldId manifest) (depot.withBlobs files) outcome
      final) :
    outcome = .ok () ∧
      ∀ entry ∈ manifest.entries, final.blobs.verifyBlob C Z entry.blob = .ok () := by
  have hmissing := hconsistent.missing_eq_nil_iff.mpr hcomplete
  simp only [BlobFiles.hasComplete_iff] at hcomplete
  obtain ⟨rfl, rfl⟩ := (finalizeReplica_withBlobs hfinal hmissing hcomplete).unique h
  exact ⟨rfl, hcomplete⟩

/-- With an honest source and no part file that is too long, the reconstruction succeeds. -/
theorem Reconstructs.succeeds (hconsistent : manifest.Consistent)
    (hoptions : options.validate = .ok options) (hdistinct : (sources.map BlobSource.peerId).Nodup)
    (h : HonestSource C Z answers sources options manifest honest held)
    (hsizes : ∀ entry ∈ manifest.entries, entry.blob.encodedSize ≤ u64Max)
    {t : Depot} (hfinal : Runs (finalizeReplica C Z manifest.worldId manifest)
      (depot.withBlobs files) (.ok ()) t) (hfits : ∀ descriptor ∈ depot.blobs.missing C Z manifest,
      depot.blobs.partialOffset descriptor ≤ descriptor.encodedSize)
    (hruns : Reconstructs C Z answers sources options manifest depot result final) :
    (∃ report, result = .ok report) ∧
      ∀ entry ∈ manifest.entries, final.blobs.verifyBlob C Z entry.blob = .ok () := by
  obtain ⟨source, hsource, rfl, hhas⟩ := h.listed
  have hheld : ∀ descriptor ∈ depot.blobs.missing C Z manifest,
      source.hasBlob descriptor = true := by
    intro descriptor hmem
    obtain ⟨_, entry, hleads, rfl⟩ := BlobFiles.mem_missing.mp hmem
    rw [hhas, BlobFiles.hasComplete_iff]
    exact h.holds entry hleads.mem
  have hplanned := exists_plan hoptions hconsistent hdistinct hsource hheld
  have hpool : ∀ {assignments pool}, depot.blobs.missing C Z manifest ≠ [] →
      planReconstruction C Z sources options manifest depot.blobs = .ok assignments →
      Relation.ReflTransGen (Pool.Step C Z (sources.map BlobSource.peerId) answers)
        (.start options (depot.blobs.missing C Z manifest) assignments depot.blobs) pool →
      pool.Good C Z manifest source.peerId held := by
    intro assignments pool hmissing hplan hrun
    obtain ⟨_, hplan', hcandidates⟩ := hplanned hmissing
    cases hplan.symm.trans hplan'
    induction hrun with
    | refl =>
      exact Pool.good_start hconsistent hoptions hmissing (descriptors_of_plan hplan) hcandidates
        hfits
    | tail _ hstep ih => exact ih.step hconsistent h hoptions hsizes hstep
  cases hruns with
  | refused hplan =>
    by_cases hmissing : depot.blobs.missing C Z manifest = []
    · rw [planReconstruction, hoptions, validateDescriptorConsistency_eq_ok_iff.mpr hconsistent,
        if_pos hmissing] at hplan
      cases hplan
    · obtain ⟨_, hplan', _⟩ := hplanned hmissing
      cases hplan.symm.trans hplan'
  | present hplan hmissing hruns =>
    obtain ⟨rfl, hverified⟩ := finalizeReplica_of_complete hfinal hconsistent
      (hconsistent.missing_eq_nil_iff.mp hmissing) hruns
    exact ⟨⟨_, rfl⟩, hverified⟩
  | failed hplan hmissing hrun _ hfatal =>
    cases (hpool hmissing hplan hrun).sound.symm.trans hfatal
  | fetched hplan hmissing hrun hended _ hruns =>
    obtain ⟨rfl, hverified⟩ := finalizeReplica_of_complete hfinal hconsistent
      ((hpool hmissing hplan hrun).ended hended) hruns
    exact ⟨⟨_, rfl⟩, hverified⟩

/-- A blob whose part file is too long keeps the reconstruction from succeeding. -/
theorem Reconstructs.fails (hconsistent : manifest.Consistent)
    (hmem : descriptor ∈ depot.blobs.missing C Z manifest)
    (hlong : descriptor.encodedSize < depot.blobs.partialOffset descriptor)
    (hruns : Reconstructs C Z answers sources options manifest depot result final)
    (report : ReplicationReport) : result ≠ .ok report := by
  obtain ⟨hincomplete, entry, hleads, rfl⟩ := BlobFiles.mem_missing.mp hmem
  rw [BlobFiles.partialOffset_eq] at hlong
  cases hruns with
  | refused | failed => simp
  | present hplan hmissing =>
    rw [hmissing] at hmem
    cases hmem
  | @fetched assignments pool final outcome hplan _ hrun hended hfatal hfinal =>
    have hstuck : pool.Stuck C Z entry.blob := by
      clear hended hfatal hfinal
      induction hrun with
      | refl =>
        refine ⟨hlong, hincomplete, fun other hother hhash => ?_⟩
        rw [Pool.start, pendingBlobs_start, descriptors_of_plan hplan] at hother
        obtain ⟨_, known, hknown, rfl⟩ := BlobFiles.mem_missing.mp hother
        exact hconsistent known hknown.mem entry hleads.mem hhash
      | tail _ hstep ih => exact ih.step hstep
    cases outcome with
    | error error => simp [Except.mapError, Except.map]
    | ok value =>
      have hcomplete := hconsistent.missing_eq_nil_iff.mp (head_of_finalizeReplica hfinal).1 entry
        hleads.mem
      exact absurd hcomplete (by simp [hstuck.incomplete])

end Result

/-- With one honest source among sources that answer anything, the reconstruction of a replica that
could be finished ends with every blob complete, for exactly those part files that are not longer
than the encoded blobs. -/
theorem honest_source_suffices_iff (C : Crypto) (Z : Codec) (answers : Answers)
    (sources : List BlobSource) (options : ReplicationOptions) (manifest : SnapshotManifestV1)
    (depot : Depot) (honest : PeerId) (held : BlobFiles)
    (htotal : ∀ peer descriptor offset, ∃ answer, answers peer descriptor offset answer)
    (hconsistent : manifest.Consistent) (hoptions : options.validate = .ok options)
    (hdistinct : (sources.map BlobSource.peerId).Nodup)
    (h : HonestSource C Z answers sources options manifest honest held)
    (hsizes : ∀ entry ∈ manifest.entries, entry.blob.encodedSize ≤ u64Max)
    (hfinal : ∃ files t, (∀ entry ∈ manifest.entries, files.verifyBlob C Z entry.blob = .ok ()) ∧
      Runs (finalizeReplica C Z manifest.worldId manifest) (depot.withBlobs files) (.ok ()) t) :
    ((∃ result final, Reconstructs C Z answers sources options manifest depot result final) ∧
        ∀ result final, Reconstructs C Z answers sources options manifest depot result final →
          (∃ report, result = .ok report) ∧
            ∀ entry ∈ manifest.entries, final.blobs.verifyBlob C Z entry.blob = .ok ()) ↔
      ∀ descriptor ∈ depot.blobs.missing C Z manifest,
        depot.blobs.partialOffset descriptor ≤ descriptor.encodedSize := by
  obtain ⟨files, t, _, hfinal⟩ := hfinal
  obtain ⟨result, final, hruns⟩ : ∃ result final, Reconstructs C Z answers sources options manifest
    depot result final := exists_reconstructs htotal
  constructor
  · rintro ⟨-, hall⟩ descriptor hmem
    by_contra hlong
    obtain ⟨⟨report, hok⟩, _⟩ := hall _ _ hruns
    exact hruns.fails hconsistent hmem (by omega) report hok
  · intro hfits
    refine ⟨⟨_, _, hruns⟩, fun result final hthis => ?_⟩
    exact hthis.succeeds hconsistent hoptions hdistinct h hsizes hfinal hfits

/-- The second of two sources answers from the files with the byte; the first one answers
anything. -/
def byteAnswers : Answers := fun peer descriptor offset answer =>
  peer = ⟨2⟩ → answer = rawByteFiles.readChunk descriptor offset ({} : ReplicationOptions).chunkSize

/-- Both sources say that they have the byte. -/
def byteSources : List BlobSource :=
  [⟨⟨1⟩, fun _ => true⟩, ⟨⟨2⟩, fun blob => rawByteFiles.hasComplete .ideal ⟨fun _ => none⟩ blob⟩]

/-- A replica without the byte, with a part file for it. -/
def Founding.partDepot (f : Founding) (part : Bytes) : Depot :=
  { Depot.empty (f.store .ideal) with
    blobs := BlobFiles.empty.setPart (byteBlob .raw).key (some part) }

/-- The snapshot describes its blob in one way. -/
theorem consistent_twin : ((Founding.numbered 1).twinSnapshot .raw .raw).Consistent :=
  validateDescriptorConsistency_eq_ok_iff.mp (by decide +kernel)

theorem honestSource_byte : HonestSource .ideal ⟨fun _ => none⟩ byteAnswers byteSources {}
    ((Founding.numbered 1).twinSnapshot .raw .raw) ⟨2⟩ rawByteFiles where
  listed := ⟨_, List.mem_cons_of_mem _ List.mem_cons_self, rfl, fun _ => rfl⟩
  holds := by decide +kernel
  reads _ _ _ hanswer := hanswer rfl

theorem byteAnswers_total (peer : PeerId) (descriptor : BlobDescriptor) (offset : Nat) :
    ∃ answer, byteAnswers peer descriptor offset answer := ⟨_, fun _ => rfl⟩

/-- A part file with a wrong byte: every reconstruction succeeds. -/
theorem honest_source_suffices_byte :
    let f := Founding.numbered 1
    ∀ result final, Reconstructs .ideal ⟨fun _ => none⟩ byteAnswers byteSources {}
      (f.twinSnapshot .raw .raw) (f.partDepot [9]) result final →
      ∃ report, result = .ok report := by
  intro f result final hruns
  have hiff := honest_source_suffices_iff .ideal ⟨fun _ => none⟩ byteAnswers byteSources {}
    (f.twinSnapshot .raw .raw) (f.partDepot [9]) ⟨2⟩ rawByteFiles byteAnswers_total
    consistent_twin rfl (by decide) honestSource_byte (by decide +kernel)
    ⟨rawByteFiles, _, by decide +kernel, by decide +kernel, rfl⟩
  exact ((hiff.mpr (by decide +kernel)).2 result final hruns).1

/-- A part file with two bytes: the replica could be finished, and no reconstruction succeeds. -/
theorem long_part_stuck :
    let f := Founding.numbered 1
    let manifest := f.twinSnapshot .raw .raw
    let Z : Codec := ⟨fun _ => none⟩
    (byteSources.map BlobSource.peerId).Nodup ∧ manifest.Consistent ∧
      HonestSource .ideal Z byteAnswers byteSources {} manifest ⟨2⟩ rawByteFiles ∧
      (finalizeReplica .ideal Z manifest.worldId manifest
        ((f.partDepot [9, 9]).withBlobs rawByteFiles)).result = .ok () ∧
      ∀ result final, Reconstructs .ideal Z byteAnswers byteSources {} manifest
        (f.partDepot [9, 9]) result final → ∀ report, result ≠ .ok report := by
  intro f manifest Z
  have hmem : byteBlob .raw ∈ (f.partDepot [9, 9]).blobs.missing .ideal Z manifest := by
    decide +kernel
  refine ⟨by decide, consistent_twin, honestSource_byte, by decide +kernel, ?_⟩
  intro result final hruns
  exact hruns.fails consistent_twin hmem (by decide +kernel)

end SwarmCraft
