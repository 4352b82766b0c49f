import SwarmCraft.Safety.BlobCompleteness
import Mathlib.Algebra.GroupWithZero.Nat
import Mathlib.Data.List.MinMax

/-!
# Who is asked for what

The assignments of a reconstruction name each missing blob once, and every source that says it has a
blob is among the candidates for it. So a plan fails only where the sources repeat a peer or nobody
has a blob. Each blob is asked first of the peer with the fewest bytes so far, which keeps the loads
of peers that have everything within one blob of each other.
-/

namespace SwarmCraft

open Checked

variable {C : Crypto} {Z : Codec} {files : BlobFiles} {manifest : SnapshotManifestV1}
  {missing : List BlobDescriptor} {inventory : ReplicaInventory} {assigned : PeerId → Nat}
variable {sources : List BlobSource} {assignments : List BlobAssignment}
variable {source : BlobSource} {peer : PeerId} {descriptor : BlobDescriptor}
  {options : ReplicationOptions}

/-! ## The missing blobs -/

/-- No content hash is missing twice. -/
theorem BlobFiles.missingFrom_nodup {seen : List Hash32} {entries : List SnapshotEntry} :
    ((files.missingFrom C Z seen entries).map BlobDescriptor.hash).Nodup := by
  induction entries generalizing seen with
  | nil => simp [missingFrom]
  | cons entry rest ih =>
    rw [missingFrom]
    split
    · exact ih
    · split
      · exact ih
      · rw [List.map_cons, List.nodup_cons]
        refine ⟨fun hmem => ?_, ih⟩
        obtain ⟨other, hother, hhash⟩ := List.mem_map.mp hmem
        exact (mem_missingFrom.mp hother).1 (hhash ▸ List.mem_cons_self)

/-- In a consistent manifest every incomplete blob is missing. -/
theorem SnapshotManifestV1.Consistent.mem_missing (h : manifest.Consistent) {entry : SnapshotEntry}
    (hmem : entry ∈ manifest.entries) (hincomplete : files.hasComplete C Z entry.blob = false) :
    entry.blob ∈ files.missing C Z manifest := by
  obtain ⟨leader, hleads, hleader, hhash⟩ := exists_leads hmem
  exact BlobFiles.mem_missing.mpr ⟨hincomplete, leader, hleads, h leader hleader entry hmem hhash⟩

/-! ## The inventory -/

theorem ReplicaInventory.survey_byBlob :
    (inventory.survey source missing).byBlob = inventory.byBlob ++
      (missing.filter source.hasBlob).map fun descriptor => (descriptor.hash, source.peerId) := by
  unfold survey
  generalize missing.filter source.hasBlob = held
  induction held generalizing inventory with
  | nil => simp
  | cons descriptor rest ih =>
    rw [List.foldl_cons, ih]
    simp [recordCompleteBlob]

/-- The inventory of sources with different peers records what each of them has. -/
theorem inventoryFrom_eq_ok {seen : List PeerId} (hdistinct : (sources.map BlobSource.peerId).Nodup)
    (hseen : ∀ source ∈ sources, source.peerId ∉ seen) :
    ∃ result, inventoryFrom missing seen inventory sources = .ok result ∧
      inventory.byBlob ⊆ result.byBlob ∧
      ∀ source ∈ sources, ∀ descriptor ∈ missing, source.hasBlob descriptor = true →
        (descriptor.hash, source.peerId) ∈ result.byBlob := by
  induction sources generalizing seen inventory with
  | nil => exact ⟨inventory, rfl, fun _ h => h, by simp⟩
  | cons source rest ih =>
    rw [List.map_cons, List.nodup_cons] at hdistinct
    have hrest : ∀ other ∈ rest, other.peerId ∉ source.peerId :: seen := by
      intro other hother
      rw [List.mem_cons, not_or]
      refine ⟨fun heq => hdistinct.1 ?_, hseen other (List.mem_cons_of_mem _ hother)⟩
      exact heq ▸ List.mem_map_of_mem hother
    obtain ⟨result, hrun, hkept, hrecorded⟩ :=
      @ih (inventory.survey source missing) _ hdistinct.2 hrest
    rw [ReplicaInventory.survey_byBlob, List.append_subset] at hkept
    refine ⟨result, ?_, hkept.1, List.forall_mem_cons.mpr ⟨fun descriptor hmem hhas => ?_, hrecorded⟩⟩
    · rw [inventoryFrom, bind_eq_ok]
      exact ⟨(), ensure_eq_ok.mpr (hseen source List.mem_cons_self), hrun⟩
    · exact hkept.2 (List.mem_map_of_mem (List.mem_filter.mpr ⟨hmem, hhas⟩))

/-- The sources for a hash are the peers that were recorded for it. -/
theorem ReplicaInventory.mem_sourcesFor {hash : Hash32} :
    peer ∈ inventory.sourcesFor hash ↔ (hash, peer) ∈ inventory.byBlob := by
  simp [sourcesFor]

/-! ## The assignments -/

theorem rankPeers_perm (assigned : PeerId → Nat) (peers : List PeerId) :
    (rankPeers assigned peers).Perm peers := List.perm_insertionSort _ _

/-- The first peer of a ranking has no more assigned bytes than the others. -/
theorem rankPeers_head {peers others : List PeerId} {primary : PeerId}
    (h : rankPeers assigned peers = primary :: others) (hpeer : peer ∈ peers) :
    assigned primary ≤ assigned peer := by
  let rank (a b : PeerId) : Prop :=
    assigned a < assigned b ∨ assigned a = assigned b ∧ a.bytes ≤ b.bytes
  have : Std.Total rank := ⟨fun a b => by omega⟩
  have : IsTrans PeerId rank := ⟨fun a b c hab hbc => by omega⟩
  have hsorted : (rankPeers assigned peers).Pairwise rank := List.pairwise_insertionSort rank peers
  rw [h, List.pairwise_cons] at hsorted
  rcases List.mem_cons.mp (h ▸ (rankPeers_perm assigned peers).mem_iff.mpr hpeer) with rfl | hother
  · exact le_refl _
  · have := hsorted.1 peer hother
    omega

/-- One turn of the loop: the blob goes first to the head of the ranking, whose load grows. -/
theorem assignFrom_cons_eq_ok {rest : List BlobDescriptor} :
    assignFrom inventory assigned (descriptor :: rest) = .ok assignments ↔
      ∃ primary others loaded later,
        rankPeers assigned (inventory.sourcesFor descriptor.hash) = primary :: others ∧
        loaded = Function.update assigned primary
          (min u64Max (assigned primary + descriptor.encodedSize)) ∧
        assignFrom inventory loaded rest = .ok later ∧
        assignments = ⟨descriptor, primary :: rankPeers loaded others⟩ :: later := by
  rw [assignFrom]
  split
  · next hrank => simp [hrank, throw_ne_ok]
  · next primary others hrank =>
    simp only [hrank, bind_eq_ok, pure_eq_ok, List.cons.injEq]
    constructor
    · rintro ⟨later, hlater, rfl⟩
      exact ⟨primary, others, _, later, ⟨rfl, rfl⟩, rfl, hlater, rfl⟩
    · rintro ⟨_, _, _, later, ⟨rfl, rfl⟩, rfl, hlater, rfl⟩
      exact ⟨later, hlater, rfl⟩

/-- Blobs can be assigned exactly when somebody has each of them. -/
theorem assignFrom_isOk_iff :
    (∃ assignments, assignFrom inventory assigned missing = .ok assignments) ↔
      ∀ descriptor ∈ missing, inventory.sourcesFor descriptor.hash ≠ [] := by
  induction missing generalizing assigned with
  | nil => simp [assignFrom, pure_eq_ok]
  | cons descriptor rest ih =>
    rw [List.forall_mem_cons]
    constructor
    · rintro ⟨_, h⟩
      obtain ⟨primary, others, loaded, later, hrank, _, hlater, _⟩ := assignFrom_cons_eq_ok.mp h
      refine ⟨fun hnone => ?_, ih.mp ⟨later, hlater⟩⟩
      rw [hnone] at hrank
      cases hrank
    · rintro ⟨hsome, hrest⟩
      cases hrank : rankPeers assigned (inventory.sourcesFor descriptor.hash) with
      | nil =>
        have hnone := rankPeers_perm assigned (inventory.sourcesFor descriptor.hash)
        rw [hrank] at hnone
        exact absurd hnone.nil_eq.symm hsome
      | cons primary others =>
        obtain ⟨later, hlater⟩ := ih.mpr hrest
        exact ⟨_, assignFrom_cons_eq_ok.mpr ⟨primary, others, _, later, hrank, rfl, hlater, rfl⟩⟩

/-- The assignments are those of the given blobs, in their order, each to all the sources that have
it. -/
theorem assignments_of_assignFrom (h : assignFrom inventory assigned missing = .ok assignments) :
    assignments.map BlobAssignment.descriptor = missing ∧ ∀ assignment ∈ assignments,
      assignment.candidates.Perm (inventory.sourcesFor assignment.descriptor.hash) := by
  induction missing generalizing assigned assignments with
  | nil =>
    cases h
    simp
  | cons descriptor rest ih =>
    obtain ⟨primary, others, loaded, later, hrank, _, hlater, rfl⟩ := assignFrom_cons_eq_ok.mp h
    obtain ⟨hmap, hlists⟩ := ih hlater
    refine ⟨by rw [List.map_cons, hmap], List.forall_mem_cons.mpr ⟨?_, hlists⟩⟩
    have hsources := rankPeers_perm assigned (inventory.sourcesFor descriptor.hash)
    rw [hrank] at hsources
    exact ((rankPeers_perm loaded others).cons primary).trans hsources

/-! ## The balance -/

/-- The bytes of the blobs for which a peer is asked first. -/
def primaryLoad (peer : PeerId) (assignments : List BlobAssignment) : Nat :=
  ((assignments.filter fun assignment => assignment.candidates.head? = some peer).map
    fun assignment => assignment.descriptor.encodedSize).sum

/-- The largest encoded size of a list of blobs. -/
def largestEncodedSize (missing : List BlobDescriptor) : Nat :=
  (missing.map BlobDescriptor.encodedSize).foldr max 0

/-- Every peer of the inventory has every listed blob. -/
def ReplicaInventory.HoldsAll (inventory : ReplicaInventory) (missing : List BlobDescriptor) :
    Prop :=
  ∀ entry ∈ inventory.byBlob, ∀ descriptor ∈ missing, (descriptor.hash, entry.2) ∈ inventory.byBlob

/-- The loop keeps any two loads within the largest blob of each other, where no load saturates. -/
theorem balanced_assignFrom {P : PeerId → Prop} {largest : Nat}
    (h : assignFrom inventory assigned missing = .ok assignments)
    (hsources : ∀ descriptor ∈ missing, ∀ peer, P peer →
      peer ∈ inventory.sourcesFor descriptor.hash)
    (hlargest : ∀ descriptor ∈ missing, descriptor.encodedSize ≤ largest)
    (hfits : ∀ peer, assigned peer + (missing.map BlobDescriptor.encodedSize).sum ≤ u64Max)
    (hbalanced : ∀ a b, P a → P b → assigned a ≤ assigned b + largest) (a b : PeerId)
    (ha : P a) (hb : P b) :
    assigned a + primaryLoad a assignments ≤ assigned b + primaryLoad b assignments + largest := by
  induction missing generalizing assigned assignments with
  | nil =>
    cases h
    exact hbalanced a b ha hb
  | cons descriptor rest ih =>
    obtain ⟨primary, others, loaded, later, hrank, hloaded, hlater, rfl⟩ :=
      assignFrom_cons_eq_ok.mp h
    rw [List.forall_mem_cons] at hsources hlargest
    simp only [List.map_cons, List.sum_cons] at hfits
    have hleast (peer : PeerId) (hpeer : P peer) : assigned primary ≤ assigned peer :=
      rankPeers_head hrank (hsources.1 peer hpeer)
    have hload (peer : PeerId) : loaded peer =
        assigned peer + if primary = peer then descriptor.encodedSize else 0 := by
      have := hfits primary
      rw [hloaded]
      by_cases heq : primary = peer
      · subst heq
        rw [Function.update_self, if_pos rfl]
        omega
      · rw [Function.update_of_ne (Ne.symm heq), if_neg heq, Nat.add_zero]
    have hprimary (peer : PeerId) : primaryLoad peer
        (⟨descriptor, primary :: rankPeers loaded others⟩ :: later) =
        (if primary = peer then descriptor.encodedSize else 0) + primaryLoad peer later := by
      simp only [primaryLoad, List.filter_cons, List.head?_cons, Option.some_inj, decide_eq_true_eq]
      split <;> simp
    have hstep := ih hlater hsources.2 hlargest.2 (fun peer => ?_) (fun a b ha hb => ?_)
    · rw [hload, hload] at hstep
      rw [hprimary, hprimary]
      omega
    · have := hfits peer
      rw [hload]
      split_ifs <;> omega
    · -- Only the load of the primary grows, and it was at most the other one.
      have hother := hbalanced a b ha hb
      have hfirst := hleast b hb
      rw [hload, hload]
      by_cases heq : primary = a
      · subst heq
        split_ifs <;> omega
      · split_ifs <;> omega

/-- No missing blob is larger. -/
theorem le_largestEncodedSize (h : descriptor ∈ missing) :
    descriptor.encodedSize ≤ largestEncodedSize missing :=
  List.le_max_of_le' 0 (List.mem_map_of_mem h) le_rfl

/-- Blobs are assigned exactly when each has a source, in their order and each to all its sources;
where all peers have all of them, no two peers are asked first for more bytes than the largest blob
has apart. -/
theorem assignSources_complete_balanced (missing : List BlobDescriptor)
    (inventory : ReplicaInventory) :
    ((∃ assignments, assignSources missing inventory = .ok assignments) ↔
        ∀ descriptor ∈ missing, inventory.sourcesFor descriptor.hash ≠ []) ∧
      ∀ assignments, assignSources missing inventory = .ok assignments →
        assignments.map BlobAssignment.descriptor = missing ∧
        (∀ assignment ∈ assignments,
          assignment.candidates.Perm (inventory.sourcesFor assignment.descriptor.hash)) ∧
        (inventory.HoldsAll missing → (missing.map BlobDescriptor.encodedSize).sum ≤ u64Max →
          ∀ a b, a ∈ inventory.byBlob.map Prod.snd → b ∈ inventory.byBlob.map Prod.snd →
            primaryLoad a assignments ≤
              primaryLoad b assignments + largestEncodedSize missing) := by
  refine ⟨assignFrom_isOk_iff, fun assignments h => ?_⟩
  obtain ⟨hmap, hlists⟩ := assignments_of_assignFrom h
  refine ⟨hmap, hlists, fun hall hfits a b ha hb => ?_⟩
  have hbalanced := balanced_assignFrom (P := (· ∈ inventory.byBlob.map Prod.snd)) h
    (fun descriptor hmem peer hpeer => ?_) (fun _ => le_largestEncodedSize)
    (fun _ => by simpa using hfits) (by simp) a b ha hb
  · simpa using hbalanced
  · obtain ⟨entry, hentry, rfl⟩ := List.mem_map.mp hpeer
    exact ReplicaInventory.mem_sourcesFor.mpr (hall entry hentry descriptor hmem)

/-- The assignments of a plan are those of the missing blobs. -/
theorem descriptors_of_plan
    (h : planReconstruction C Z sources options manifest files = .ok assignments) :
    assignments.map BlobAssignment.descriptor = files.missing C Z manifest := by
  simp only [planReconstruction, bind_eq_ok] at h
  obtain ⟨_, _, _, _, h⟩ := h
  split at h
  · next hmissing =>
    cases h
    rw [hmissing, List.map_nil]
  · rw [bind_eq_ok] at h
    obtain ⟨_, _, hassign⟩ := h
    exact (assignments_of_assignFrom hassign).1

/-- There is a plan for a consistent manifest, and a source that has every missing blob is a
candidate for each. -/
theorem exists_plan (hoptions : options.validate = .ok options) (hconsistent : manifest.Consistent)
    (hdistinct : (sources.map BlobSource.peerId).Nodup) (hsource : source ∈ sources)
    (hhas : ∀ descriptor ∈ files.missing C Z manifest, source.hasBlob descriptor = true)
    (hmissing : files.missing C Z manifest ≠ []) :
    ∃ assignments, planReconstruction C Z sources options manifest files = .ok assignments ∧
      ∀ assignment ∈ assignments, source.peerId ∈ assignment.candidates := by
  obtain ⟨inventory, hinventory, _, hrecorded⟩ := @inventoryFrom_eq_ok (files.missing C Z manifest)
    ⟨[]⟩ sources [] hdistinct (by simp)
  have hfor : ∀ descriptor ∈ files.missing C Z manifest,
      source.peerId ∈ inventory.sourcesFor descriptor.hash := by
    intro descriptor hmem
    rw [ReplicaInventory.mem_sourcesFor]
    exact hrecorded source hsource descriptor hmem (hhas descriptor hmem)
  obtain ⟨assignments, hassign⟩ := assignFrom_isOk_iff.mpr fun descriptor hmem =>
    List.ne_nil_of_mem (hfor descriptor hmem)
  obtain ⟨hmap, hlists⟩ := assignments_of_assignFrom hassign
  refine ⟨assignments, ?_, fun assignment hmem => ?_⟩
  · simp only [planReconstruction, bind_eq_ok, if_neg hmissing]
    exact ⟨options, hoptions, (), validateDescriptorConsistency_eq_ok_iff.mpr hconsistent, inventory,
      hinventory, hassign⟩
  · rw [(hlists assignment hmem).mem_iff]
    exact hfor _ (hmap ▸ List.mem_map_of_mem hmem)

end SwarmCraft
