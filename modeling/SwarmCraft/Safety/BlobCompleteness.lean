import SwarmCraft.Storage.Scheduler
import SwarmCraft.Safety.SnapshotHistory

/-!
# Nothing missing and everything verified

A replica asks for the blobs that `missing_blobs` names and commits once there are none. That list
has one descriptor for each content hash, the first one, while the commit verifies the descriptor
of every entry. The two agree where entries with one hash have one descriptor, which only
`validate_descriptor_consistency` demands.
-/

namespace SwarmCraft

open Checked Durable Transition

variable {C : Crypto} {Z : Codec} {files : BlobFiles} {manifest : SnapshotManifestV1}
  {descriptor : BlobDescriptor}
variable {entries : List SnapshotEntry} {entry : SnapshotEntry}

/-- Entries with one content hash have one descriptor. -/
def SnapshotManifestV1.Consistent (manifest : SnapshotManifestV1) : Prop :=
  ∀ a ∈ manifest.entries, ∀ b ∈ manifest.entries, a.blob.hash = b.blob.hash → a.blob = b.blob

/-- The entry is the first one with its content hash. -/
def SnapshotManifestV1.Leads (manifest : SnapshotManifestV1) (entry : SnapshotEntry) : Prop :=
  ∃ before after, manifest.entries = before ++ entry :: after ∧
    ∀ other ∈ before, other.blob.hash ≠ entry.blob.hash

variable (C Z) in
/-- An incomplete entry hides behind an entry with the same content hash: the first entry of every
hash is complete, and still some entry is not. -/
structure SnapshotManifestV1.Shadowed (manifest : SnapshotManifestV1) (files : BlobFiles) :
    Prop where
  leaders : ∀ entry, manifest.Leads entry → files.hasComplete C Z entry.blob = true
  hidden : ∃ entry ∈ manifest.entries, files.hasComplete C Z entry.blob = false

/-! ## What the two checks look at -/

/-- A blob is complete exactly where it verifies. -/
theorem BlobFiles.hasComplete_iff :
    files.hasComplete C Z descriptor = true ↔ files.verifyBlob C Z descriptor = .ok () := by
  unfold hasComplete
  cases files.verifyBlob C Z descriptor <;> simp [Except.isOk, Except.toBool]

/-- The loop of `missing_blobs` finds the first descriptor of every hash that was not seen before,
where it is incomplete. -/
theorem BlobFiles.mem_missingFrom {seen : List Hash32} :
    descriptor ∈ files.missingFrom C Z seen entries ↔
      descriptor.hash ∉ seen ∧ files.hasComplete C Z descriptor = false ∧
        ∃ entry, (entries.find? fun entry => decide (entry.blob.hash = descriptor.hash)) =
          some entry ∧ entry.blob = descriptor := by
  induction entries generalizing seen with
  | nil => simp [missingFrom]
  | cons first rest ih =>
    rw [missingFrom, List.find?_cons]
    by_cases hsame : first.blob.hash = descriptor.hash
    · -- Entries behind the first one with this hash do not count.
      by_cases hfirst : first.blob = descriptor
      · subst hfirst
        by_cases hknown : first.blob.hash ∈ seen
        · simp [hknown, ih]
        · by_cases hcomplete : files.hasComplete C Z first.blob = true
          · simp [hknown, hcomplete, ih]
          · simp [hknown, hcomplete]
      · by_cases hknown : descriptor.hash ∈ seen
        · simp [hknown, hsame, ih]
        · by_cases hcomplete : files.hasComplete C Z first.blob = true
          · simp [hknown, hsame, hcomplete, hfirst, ih]
          · simp [hknown, hsame, hcomplete, hfirst, Ne.symm hfirst, ih]
    · have hne : descriptor ≠ first.blob := fun heq => hsame (heq ▸ rfl)
      split
      · simp [hsame, ih]
      · split
        · simp [hsame, Ne.symm hsame, ih]
        · simp [hsame, Ne.symm hsame, hne, ih]

/-- The first entry of a hash is the one that a search finds. -/
theorem SnapshotManifestV1.leads_iff :
    manifest.Leads entry ↔
      manifest.entries.find? (fun other => decide (other.blob.hash = entry.blob.hash)) =
        some entry := by
  simp [Leads, List.find?_eq_some_iff_append]

/-- The missing blobs are the incomplete ones of the first entries of a hash. -/
theorem BlobFiles.mem_missing : descriptor ∈ files.missing C Z manifest ↔
    files.hasComplete C Z descriptor = false ∧
      ∃ entry, manifest.Leads entry ∧ entry.blob = descriptor := by
  rw [missing, mem_missingFrom]
  constructor
  · rintro ⟨_, hincomplete, entry, hfind, rfl⟩
    exact ⟨hincomplete, entry, SnapshotManifestV1.leads_iff.mpr hfind, rfl⟩
  · rintro ⟨hincomplete, entry, hleads, rfl⟩
    exact ⟨List.not_mem_nil, hincomplete, entry, SnapshotManifestV1.leads_iff.mp hleads, rfl⟩

/-- Nothing is missing exactly where the first entry of every content hash is complete. -/
theorem BlobFiles.missing_eq_nil_iff :
    files.missing C Z manifest = [] ↔
      ∀ entry, manifest.Leads entry → files.hasComplete C Z entry.blob = true := by
  rw [List.eq_nil_iff_forall_not_mem]
  constructor
  · intro h entry hleads
    by_contra hincomplete
    exact h entry.blob (mem_missing.mpr ⟨Bool.eq_false_of_not_eq_true hincomplete, entry, hleads, rfl⟩)
  · intro h descriptor hmem
    obtain ⟨hincomplete, entry, hleads, rfl⟩ := mem_missing.mp hmem
    simp [h entry hleads] at hincomplete

/-- A manifest of the right shape verifies exactly where every entry is complete. -/
theorem verifySnapshotFiles_eq_ok_iff (hshape : validateManifestShape C manifest = .ok ()) :
    verifySnapshotFiles C Z manifest files = .ok () ↔
      ∀ entry ∈ manifest.entries, files.hasComplete C Z entry.blob = true := by
  simp only [verifySnapshotFiles, hshape, bind_eq_ok, forM_eq_ok, BlobFiles.hasComplete_iff,
    true_and, exists_const]

/-- Every entry has a first one with its content hash. -/
theorem SnapshotManifestV1.exists_leads (hmem : entry ∈ manifest.entries) :
    ∃ leader, manifest.Leads leader ∧ leader ∈ manifest.entries ∧
      leader.blob.hash = entry.blob.hash := by
  have hsome : (manifest.entries.find? fun other =>
      decide (other.blob.hash = entry.blob.hash)).isSome = true :=
    List.find?_isSome.mpr ⟨entry, hmem, by simp⟩
  obtain ⟨leader, hfind⟩ := Option.isSome_iff_exists.mp hsome
  have hhash : leader.blob.hash = entry.blob.hash := by simpa using List.find?_some hfind
  refine ⟨leader, leads_iff.mpr ?_, List.mem_of_find?_eq_some hfind, hhash⟩
  rw [hhash]
  exact hfind

/-- An entry that is the first one of its hash is an entry. -/
theorem SnapshotManifestV1.Leads.mem (h : manifest.Leads entry) : entry ∈ manifest.entries := by
  obtain ⟨before, after, hsplit, _⟩ := h
  simp [hsplit]

/-- What `validate_descriptor_consistency` demands, with the descriptors already seen. -/
theorem validateDescriptorsFrom_eq_ok_iff {seen : List BlobDescriptor}
    (hseen : ∀ a ∈ seen, ∀ b ∈ seen, a.hash = b.hash → a = b) :
    validateDescriptorsFrom seen entries = .ok () ↔
      ∀ a ∈ seen ++ entries.map SnapshotEntry.blob, ∀ b ∈ seen ++ entries.map SnapshotEntry.blob,
        a.hash = b.hash → a = b := by
  induction entries generalizing seen with
  | nil => simpa [validateDescriptorsFrom, pure, Except.pure] using hseen
  | cons entry rest ih =>
    -- The check of one entry compares it with some descriptor of its hash, hence with all of them.
    have hentry : (∀ existing, (seen.find? fun existing =>
          decide (existing.hash = entry.blob.hash)) = some existing → existing = entry.blob) ↔
        ∀ a ∈ seen, a.hash = entry.blob.hash → a = entry.blob := by
      constructor
      · intro h a ha hhash
        cases hfind : seen.find? fun existing => decide (existing.hash = entry.blob.hash) with
        | none => exact absurd hhash (by simpa using List.find?_eq_none.mp hfind a ha)
        | some existing =>
          have hfound := List.find?_some hfind
          have hexisting := h existing hfind
          rw [← hexisting] at hhash ⊢
          exact hseen a ha existing (List.mem_of_find?_eq_some hfind) hhash
      · intro h existing hfind
        exact h existing (List.mem_of_find?_eq_some hfind) (by simpa using List.find?_some hfind)
    have hmoved (a : BlobDescriptor) : a ∈ seen ++ (entry :: rest).map SnapshotEntry.blob ↔
        a ∈ entry.blob :: seen ++ rest.map SnapshotEntry.blob := by
      simp only [List.map_cons, List.mem_append, List.mem_cons]
      tauto
    simp only [validateDescriptorsFrom, bind_eq_ok, onSome_eq_ok, ensure_eq_ok, hentry,
      exists_const, hmoved]
    constructor
    · rintro ⟨hsame, hrest⟩
      refine (ih fun a ha b hb hhash => ?_).mp hrest
      rcases List.mem_cons.mp ha with rfl | ha <;> rcases List.mem_cons.mp hb with rfl | hb
      · rfl
      · exact (hsame b hb hhash.symm).symm
      · exact hsame a ha hhash
      · exact hseen a ha b hb hhash
    · intro hall
      have hhead (a : BlobDescriptor) (ha : a ∈ entry.blob :: seen) :
          a ∈ entry.blob :: seen ++ rest.map SnapshotEntry.blob := List.mem_append_left _ ha
      refine ⟨fun a ha => hall a (hhead a (List.mem_cons_of_mem _ ha)) _ (hhead _ List.mem_cons_self),
        ?_⟩
      exact (ih fun a ha b hb => hall a (hhead a ha) b (hhead b hb)).mpr hall

/-- `validate_descriptor_consistency` accepts exactly the consistent manifests. -/
theorem validateDescriptorConsistency_eq_ok_iff :
    validateDescriptorConsistency manifest = .ok () ↔ manifest.Consistent := by
  rw [validateDescriptorConsistency, validateDescriptorsFrom_eq_ok_iff (by simp)]
  simp only [List.nil_append, List.mem_map, forall_exists_index, and_imp, forall_apply_eq_imp_iff₂,
    SnapshotManifestV1.Consistent]

/-- In a consistent manifest every entry is as complete as the first one with its hash. -/
theorem SnapshotManifestV1.Consistent.missing_eq_nil_iff (h : manifest.Consistent) :
    files.missing C Z manifest = [] ↔
      ∀ entry ∈ manifest.entries, files.hasComplete C Z entry.blob = true := by
  rw [BlobFiles.missing_eq_nil_iff]
  constructor
  · intro hleaders entry hmem
    obtain ⟨leader, hleads, hleader, hhash⟩ := exists_leads hmem
    rw [← h leader hleader entry hmem hhash]
    exact hleaders leader hleads
  · exact fun hall entry hleads => hall entry hleads.mem

/-! ## Where they agree -/

/-- Nothing is missing if and only if the snapshot verifies, exactly where no incomplete entry hides
behind one with the same content hash; so for every store where the descriptors are consistent. -/
theorem missing_nil_verifies_iff (hshape : validateManifestShape C manifest = .ok ())
    (files : BlobFiles) :
    ((files.missing C Z manifest = [] ↔ verifySnapshotFiles C Z manifest files = .ok ()) ↔
        ¬ manifest.Shadowed C Z files) ∧
      (validateDescriptorConsistency manifest = .ok () → ¬ manifest.Shadowed C Z files) := by
  rw [verifySnapshotFiles_eq_ok_iff hshape, BlobFiles.missing_eq_nil_iff,
    validateDescriptorConsistency_eq_ok_iff]
  have hall : (∀ entry ∈ manifest.entries, files.hasComplete C Z entry.blob = true) ↔
      ¬ ∃ entry ∈ manifest.entries, files.hasComplete C Z entry.blob = false := by
    simp
  refine ⟨⟨fun hiff hshadowed => ?_, fun hnot => ⟨fun hleaders => ?_, fun h entry hleads => ?_⟩⟩, ?_⟩
  · exact hall.mp (hiff.mp hshadowed.leaders) hshadowed.hidden
  · exact hall.mpr fun hhidden => hnot ⟨hleaders, hhidden⟩
  · exact h entry hleads.mem
  · intro hconsistent hshadowed
    refine hall.mp ?_ hshadowed.hidden
    rw [← hconsistent.missing_eq_nil_iff, BlobFiles.missing_eq_nil_iff]
    exact hshadowed.leaders

/-- The descriptor of a file with one byte, in an encoding of one byte. -/
def byteBlob (encoding : BlobEncoding) : BlobDescriptor :=
  ⟨Crypto.ideal.hash (.blob [7]), 1, 1, encoding⟩

/-- The first snapshot of a founded world with two files of the same byte. -/
def Founding.twinSnapshot (f : Founding) (first second : BlobEncoding) : SnapshotManifestV1 :=
  let entries : List SnapshotEntry := [⟨"a", byteBlob first⟩, ⟨"b", byteBlob second⟩]
  { f.unsignedSnapshot .ideal with
    entries := entries
    stateRoot := snapshotStateRoot .ideal entries }

/-- The blob files of a replica that has the byte without an encoding. -/
def rawByteFiles : BlobFiles :=
  BlobFiles.empty.setComplete (byteBlob .raw).key (some [7])

/-- Two entries with one descriptor: nothing is missing and the snapshot verifies. -/
theorem missing_nil_verifies_twin :
    let manifest := (Founding.numbered 1).twinSnapshot .raw .raw
    rawByteFiles.missing .ideal ⟨fun _ => none⟩ manifest = [] ∧
      verifySnapshotFiles .ideal ⟨fun _ => none⟩ manifest rawByteFiles = .ok () := by
  intro manifest
  have hshape : validateManifestShape .ideal manifest = .ok () := by decide +kernel
  have hiff := missing_nil_verifies_iff (Z := ⟨fun _ => none⟩) hshape rawByteFiles
  have hmissing : rawByteFiles.missing .ideal ⟨fun _ => none⟩ manifest = [] := by decide +kernel
  exact ⟨hmissing, (hiff.1.mpr (hiff.2 (by decide +kernel))).mp hmissing⟩

/-- Two entries with one content hash and different encodings: nothing is missing, and the commit of
the finished replica fails because the second blob is not there. -/
theorem twin_blob_hidden :
    let f := Founding.numbered 1
    let Z : Codec := ⟨fun _ => none⟩
    let manifest := f.twinSnapshot .raw .zstd
    let depot := { Depot.empty (f.store .ideal) with blobs := rawByteFiles }
    manifest.validateSemantics .ideal = .ok () ∧ validateManifestShape .ideal manifest = .ok () ∧
      rawByteFiles.missing .ideal Z manifest = [] ∧
      verifySnapshotFiles .ideal Z manifest rawByteFiles = .error .notFound ∧
      (finalizeReplica .ideal Z manifest.worldId manifest depot).result = .error .notFound := by
  intro f Z manifest depot
  refine ⟨?_, ?_, ?_, ?_, ?_⟩ <;> decide +kernel

/-! ## What chunks leave behind -/

/-- One call that receives a chunk of a wanted blob, and returns or is stopped between two of its
steps. -/
def BlobFiles.Fetches (C : Crypto) (Z : Codec) (wanted : List BlobDescriptor) (s t : BlobFiles) :
    Prop :=
  ∃ descriptor ∈ wanted, ∃ offset data finished,
    Leaves (receiveBlobChunk C Z descriptor offset data finished) s t ∨
      t = (receiveBlobChunk C Z descriptor offset data finished s).final

/-- The content of every complete file has the hash of the file's name. -/
def BlobFiles.Genuine (C : Crypto) (Z : Codec) (files : BlobFiles) : Prop :=
  ∀ key bytes, files.complete key = some bytes →
    ∃ content, Z.content key.encoding bytes = some content ∧ C.hash (.blob content) = key.hash

theorem Receives.between {offset : Nat} {data : Bytes} {finished : Bool}
    {result : Except StorageError Nat} {t : BlobFiles}
    (h : Receives C Z descriptor offset data finished files result t) :
    files.Between C Z descriptor t := by
  cases h with
  | completed _ _ _ hverify => exact BlobFiles.between_completed hverify
  | _ => exact BlobFiles.between_setPart _

theorem BlobFiles.Fetches.between {wanted : List BlobDescriptor} {t : BlobFiles}
    (h : Fetches C Z wanted files t) : ∃ descriptor ∈ wanted, files.Between C Z descriptor t := by
  obtain ⟨descriptor, hwanted, offset, data, finished, (rfl | hpassed) | rfl⟩ := h
  · exact ⟨descriptor, hwanted, fun _ _ => rfl, fun _ => .inl⟩
  · exact ⟨descriptor, hwanted, meets_receiveBlobChunk.1 t hpassed⟩
  · exact ⟨descriptor, hwanted, receives_receiveBlobChunk.between⟩

theorem BlobFiles.Between.genuine {t : BlobFiles} (h : files.Between C Z descriptor t)
    (hfiles : files.Genuine C Z) : t.Genuine C Z := by
  intro key bytes hbytes
  by_cases hkey : key = descriptor.key
  · subst hkey
    rcases h.own bytes hbytes with hold | hverify
    · exact hfiles _ bytes hold
    · obtain ⟨_, content, hcontent, _, hhash⟩ := by
        simpa [verifyEncodedBlob, bind_eq_ok, required_eq_ok] using hverify
      exact ⟨content, hcontent, hhash⟩
  · exact hfiles key bytes (h.others key hkey ▸ hbytes)

/-- Whatever chunks the sources send, and wherever crashes stop the calls, the content of a complete
blob has the hash of its name and never changes, and the files of blobs that are not wanted stay. -/
theorem chunks_keep_contents {wanted : List BlobDescriptor} {t : BlobFiles}
    (hfiles : files.Genuine C Z) (hrun : Run (BlobFiles.Fetches C Z wanted) files t) :
    t.Genuine C Z ∧ (∀ key old new, files.complete key = some old → t.complete key = some new →
        Z.content key.encoding new = Z.content key.encoding old) ∧
      ∀ key, (∀ descriptor ∈ wanted, descriptor.key ≠ key) → t.complete key = files.complete key := by
  have hgenuine : t.Genuine C Z := by
    refine Run.invariant (fun s u hs hstep => ?_) hrun hfiles
    obtain ⟨_, _, hbetween⟩ := hstep.between
    exact hbetween.genuine hs
  refine ⟨hgenuine, fun key old new hold hnew => ?_, fun key hkey => ?_⟩
  · obtain ⟨before, hbefore, hhash⟩ := hfiles key old hold
    obtain ⟨after, hafter, hhash'⟩ := hgenuine key new hnew
    cases C.hash_injective (hhash.trans hhash'.symm)
    rw [hbefore, hafter]
  · refine Run.invariant (I := fun u => u.complete key = files.complete key)
      (fun s u hs hstep => ?_) hrun rfl
    obtain ⟨descriptor, hwanted, hbetween⟩ := hstep.between
    rw [hbetween.others key (hkey descriptor hwanted).symm, hs]

/-- A wrong byte is sent and thrown away; the byte stays. -/
theorem wrong_byte_thrown_away :
    let t := (receiveBlobChunk .ideal ⟨fun _ => none⟩ (byteBlob .raw) 0 [8] true rawByteFiles).final
    t.Genuine .ideal ⟨fun _ => none⟩ ∧ t.complete (byteBlob .raw).key = some [7] := by
  intro t
  have hfiles : rawByteFiles.Genuine .ideal ⟨fun _ => none⟩ := by
    intro key bytes hkey
    obtain ⟨rfl, rfl⟩ : key = (byteBlob .raw).key ∧ [7] = bytes := by
      simpa [rawByteFiles, BlobFiles.setComplete, BlobFiles.empty, Function.update_apply] using hkey
    exact ⟨[7], rfl, rfl⟩
  have hstep : rawByteFiles.Fetches .ideal ⟨fun _ => none⟩ [byteBlob .raw] t :=
    ⟨byteBlob .raw, List.mem_singleton_self _, 0, [8], true, .inr rfl⟩
  exact ⟨(chunks_keep_contents hfiles (.single hstep)).1, by decide +kernel⟩

end SwarmCraft
