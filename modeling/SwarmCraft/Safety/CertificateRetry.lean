import SwarmCraft.System.Genesis
import SwarmCraft.Core.Durable

/-!
# The certificate archive, and saving a certificate again

`save_membership_certificate` writes two files: a slot of the archive that is created once
and never replaced, and the current certificate. The slot is created empty and then filled;
until it is filled its bytes do not decode, since no encoding continues another one. The
current certificate is replaced atomically. Afterwards the slot is compared byte for byte: a
crash in the middle of the creation leaves one that no certificate matches, and a slot
that was filled matches one order of one set of votes only.
-/

namespace SwarmCraft

open Checked Durable

/-- The files of the certificates of one world. -/
structure CertificateFiles where
  /-- `membership-certificates/`, by sequence number. -/
  archive : List (Nat × DurableFile MembershipCertificateV1)
  /-- `membership-certificate.postcard`. -/
  current : DurableFile MembershipCertificateV1
  deriving DecidableEq

namespace CertificateFiles

/-- The archive slot of a sequence number. -/
def slot (files : CertificateFiles) (number : Nat) : DurableFile MembershipCertificateV1 :=
  (files.archive.lookup number).getD .absent

/-- Replace the content of an archive slot. -/
def fill (number : Nat) (file : DurableFile MembershipCertificateV1) (files : CertificateFiles) :
    CertificateFiles :=
  { files with
    archive := files.archive.filter (fun entry => decide (entry.1 ≠ number)) ++ [(number, file)] }

/-- The current certificate. -/
def publish (certificate : MembershipCertificateV1) (files : CertificateFiles) :
    CertificateFiles :=
  { files with current := .present certificate }

end CertificateFiles

/-- `durable_create_once` of an archive slot: nothing, if there is a file already. -/
def createArchiveSlot (certificate : MembershipCertificateV1) :
    Program StorageError CertificateFiles Bool := do
  let number := certificate.proposal.proposed.sequence
  let files ← look
  if (files.slot number).exists then pure false
  else do
    step (CertificateFiles.fill number .unreadable)
    step (CertificateFiles.fill number (.present certificate))
    pure true

/-- `save_membership_certificate`. -/
def saveCertificateFiles (certificate : MembershipCertificateV1) :
    Program StorageError CertificateFiles Unit := do
  let created ← createArchiveSlot certificate
  let files ← look
  -- The bytes of a slot that was there already are compared with those of the certificate.
  lift (ensure (created = true ∨
      files.slot certificate.proposal.proposed.sequence = .present certificate)
    .worldMetadataMismatch)
  step (CertificateFiles.publish certificate)

/-- One file of `load_membership_certificate_chain`. -/
def loadArchived (world : WorldId) (file : DurableFile MembershipCertificateV1) :
    Except StorageError MembershipCertificateV1 :=
  file.load fun certificate => requireWorld world certificate.proposal.proposed.worldId

/-- `load_membership_certificate_chain`: the archive in the order of the file names, or the
current certificate where the archive is empty. -/
def loadMembershipCertificateChain (world : WorldId) (files : CertificateFiles) :
    Except StorageError (List MembershipCertificateV1) := do
  let names := files.archive.mergeSort fun a b => decide (a.1 ≤ b.1)
  let certificates ← names.mapM fun entry => loadArchived world entry.2
  if certificates.isEmpty then
    pure (Checked.optional (loadArchived world files.current)).toList
  else pure certificates

/-! ## Facts about the files -/

namespace CertificateFiles

variable {files : CertificateFiles} {number : Nat} {file : DurableFile MembershipCertificateV1}

/-- A slot that was filled holds what it was filled with. -/
@[simp] theorem slot_fill : (files.fill number file).slot number = file := by
  have hnone : (files.archive.filter fun entry => decide (entry.1 ≠ number)).lookup number = none := by
    rw [List.lookup_eq_none_iff]
    intro entry hentry
    have hne := of_decide_eq_true (List.mem_filter.mp hentry).2
    simpa using Ne.symm hne
  rw [slot, fill, List.lookup_append, hnone]
  simp

/-- Every archived file can be loaded. -/
def Sound (world : WorldId) (files : CertificateFiles) : Prop :=
  ∀ entry ∈ files.archive, ∃ certificate, loadArchived world entry.2 = .ok certificate

/-- Filling a slot with a certificate of the world keeps the archive sound. -/
theorem Sound.fill {world : WorldId} {certificate : MembershipCertificateV1}
    (h : files.Sound world) (hworld : certificate.proposal.proposed.worldId = world) :
    (files.fill number (.present certificate)).Sound world := by
  intro entry hentry
  simp only [CertificateFiles.fill, List.mem_append, List.mem_singleton] at hentry
  rcases hentry with hold | rfl
  · exact h entry (List.mem_filter.mp hold).1
  · exact ⟨certificate, by simp [loadArchived, requireWorld, hworld]⟩

@[simp] theorem fill_fill (other : DurableFile MembershipCertificateV1) :
    (files.fill number other).fill number file = files.fill number file := by
  simp [fill, List.filter_append]

end CertificateFiles

section Save

variable {files : CertificateFiles} {certificate : MembershipCertificateV1}

/-- Saving a certificate whose slot is free. -/
theorem saveCertificateFiles_free
    (h : files.slot certificate.proposal.proposed.sequence = .absent) :
    let number := certificate.proposal.proposed.sequence
    let filled := files.fill number (.present certificate)
    saveCertificateFiles certificate files =
      ⟨.ok (), filled.publish certificate,
        [files.fill number .unreadable, filled, filled.publish certificate]⟩ := by
  have hcreate : createArchiveSlot certificate files =
      ⟨.ok true, files.fill certificate.proposal.proposed.sequence (.present certificate),
        [files.fill certificate.proposal.proposed.sequence .unreadable,
          files.fill certificate.proposal.proposed.sequence (.present certificate)]⟩ := by
    simp [createArchiveSlot, h, DurableFile.exists]
  unfold saveCertificateFiles
  rw [run_bind_ok hcreate, run_look_bind, run_lift_ok_bind (a := ()) (by simp)]
  rfl

/-- Saving a certificate whose slot is taken. -/
theorem saveCertificateFiles_taken
    (h : files.slot certificate.proposal.proposed.sequence ≠ .absent) :
    saveCertificateFiles certificate files =
      if files.slot certificate.proposal.proposed.sequence = .present certificate then
        ⟨.ok (), files.publish certificate, [files.publish certificate]⟩
      else ⟨.error .worldMetadataMismatch, files, []⟩ := by
  have hexists : (files.slot certificate.proposal.proposed.sequence).exists = true := by
    cases hslot : files.slot certificate.proposal.proposed.sequence with
    | absent => exact absurd hslot h
    | unreadable => rfl
    | present _ => rfl
  have hcreate : createArchiveSlot certificate files = ⟨.ok false, files, []⟩ := by
    simp [createArchiveSlot, hexists]
  unfold saveCertificateFiles
  rw [run_bind_ok hcreate, run_look_bind]
  by_cases hsame : files.slot certificate.proposal.proposed.sequence = .present certificate
  · rw [run_lift_ok_bind (a := ()) (by simp [hsame]), if_pos hsame]
    rfl
  · rw [run_lift_error_bind (e := .worldMetadataMismatch) (by simp [ensure, hsame]), if_neg hsame]
    rfl

end Save

/-! ## The archive of a store -/

/-- The files behind the certificates of a store. -/
def Store.certificateFiles (store : Store) : CertificateFiles where
  archive := store.membershipCertificates.map fun certificate =>
    (certificate.proposal.proposed.sequence, .present certificate)
  current := store.membershipCertificate

/-- The slot of a sequence number holds the archived certificate with that number. -/
theorem Store.slot_certificateFiles (store : Store) (number : Nat) :
    store.certificateFiles.slot number =
      match store.membershipCertificates.find? fun archived =>
        decide (archived.proposal.proposed.sequence = number) with
      | some archived => .present archived
      | none => .absent := by
  simp only [CertificateFiles.slot, Store.certificateFiles]
  induction store.membershipCertificates with
  | nil => rfl
  | cons archived rest ih =>
    by_cases hnumber : archived.proposal.proposed.sequence = number
    · simp [hnumber]
    · have hbeq : (number == archived.proposal.proposed.sequence) = false := by
        simpa using Ne.symm hnumber
      simp only [List.map_cons, List.lookup_cons, hbeq, List.find?_cons, hnumber, decide_false]
      exact ih

/-- An uninterrupted save does to the files what it does to the store. -/
theorem saveCertificateFiles_store (certificate : MembershipCertificateV1) (store : Store) :
    match archiveMembershipCertificate certificate store with
    | .ok archived =>
      (saveCertificateFiles certificate store.certificateFiles).result = .ok () ∧
        (saveCertificateFiles certificate store.certificateFiles).final =
          (publishMembershipCertificate certificate archived).certificateFiles
    | .error error =>
      (saveCertificateFiles certificate store.certificateFiles).result = .error error ∧
        (saveCertificateFiles certificate store.certificateFiles).final =
          store.certificateFiles := by
  have hslot := store.slot_certificateFiles certificate.proposal.proposed.sequence
  unfold archiveMembershipCertificate
  cases hfind : store.membershipCertificates.find? fun archived =>
      decide (archived.proposal.proposed.sequence = certificate.proposal.proposed.sequence) with
  | some archived =>
    rw [hfind] at hslot
    rw [saveCertificateFiles_taken (by simp [hslot]), hslot]
    by_cases hsame : archived = certificate
    · subst hsame
      have hpass : (ensure (archived = archived) StorageError.worldMetadataMismatch) = .ok () := by
        simp
      dsimp only
      rw [hpass, if_pos rfl]
      exact ⟨rfl, rfl⟩
    · simp [hsame, ensure, bind, Except.bind]
  | none =>
    rw [hfind] at hslot
    have hfree : ∀ archived ∈ store.membershipCertificates,
        archived.proposal.proposed.sequence ≠ certificate.proposal.proposed.sequence := by
      intro archived harchived
      simpa using List.find?_eq_none.mp hfind archived harchived
    rw [saveCertificateFiles_free hslot]
    refine ⟨rfl, ?_⟩
    simp [CertificateFiles.fill, CertificateFiles.publish, publishMembershipCertificate,
      Store.certificateFiles]
    exact hfree

/-! ## Saving again after a crash -/

variable {files crashed : CertificateFiles} {certificate : MembershipCertificateV1} {world : WorldId}

/-- A crash while a certificate is saved leaves the archive as it was, or its slot created and
not filled, or the slot filled. -/
theorem archive_after_crash (h : Leaves (saveCertificateFiles certificate) files crashed) :
    crashed.archive = files.archive ∨ files.slot certificate.proposal.proposed.sequence = .absent ∧
        ∃ file ∈ [.unreadable, .present certificate],
          crashed.archive = (files.fill certificate.proposal.proposed.sequence file).archive := by
  rcases h with rfl | h
  · exact .inl rfl
  · by_cases hslot : files.slot certificate.proposal.proposed.sequence = .absent
    · rw [saveCertificateFiles_free hslot] at h
      simp only [List.mem_cons, List.not_mem_nil, or_false] at h
      rcases h with rfl | rfl | rfl
      · exact .inr ⟨hslot, .unreadable, by simp, rfl⟩
      · exact .inr ⟨hslot, .present certificate, by simp, rfl⟩
      · exact .inr ⟨hslot, .present certificate, by simp, rfl⟩
    · rw [saveCertificateFiles_taken hslot] at h
      split at h
      · obtain rfl := List.mem_singleton.mp h
        exact .inl rfl
      · cases h

/-- A sound archive that is not empty can be loaded, with every certificate in it. -/
theorem CertificateFiles.Sound.load {entry : Nat × DurableFile MembershipCertificateV1}
    (h : files.Sound world) (hentry : entry ∈ files.archive)
    (hload : loadArchived world entry.2 = .ok certificate) :
    ∃ chain, loadMembershipCertificateChain world files = .ok chain ∧ certificate ∈ chain := by
  have hsorted : ∀ entry ∈ files.archive.mergeSort fun a b => decide (a.1 ≤ b.1),
      ∃ archived, loadArchived world entry.2 = .ok archived :=
    fun entry hmem => h entry (List.mem_mergeSort.mp hmem)
  obtain ⟨chain, hchain, hmembers⟩ := exists_mapM_ok hsorted
  have hmem := hmembers entry (List.mem_mergeSort.mpr hentry) certificate hload
  refine ⟨chain, ?_, hmem⟩
  have hne : chain.isEmpty = false := by
    cases chain with
    | nil => cases hmem
    | cons _ _ => rfl
  simp only [loadMembershipCertificateChain, hchain, bind, Except.bind, hne, Bool.false_eq_true,
    if_false]
  rfl

/-- A slot that is not free has an entry in the archive. -/
theorem CertificateFiles.mem_of_slot {number : Nat} (h : files.slot number = .present certificate) :
    (number, .present certificate) ∈ files.archive := by
  unfold slot at h
  cases hlookup : files.archive.lookup number with
  | none =>
    rw [hlookup] at h
    cases h
  | some file =>
    rw [hlookup, Option.getD_some] at h
    obtain ⟨before, after, harchive, _⟩ := List.lookup_eq_some_iff.mp hlookup
    rw [harchive, h]
    exact List.mem_append_right _ List.mem_cons_self

/-- Unless the crash left the slot unfilled, every archived file can still be loaded. -/
theorem sound_after_crash (hsound : files.Sound world)
    (hworld : certificate.proposal.proposed.worldId = world)
    (hcrash : Leaves (saveCertificateFiles certificate) files crashed)
    (hfilled : crashed.slot certificate.proposal.proposed.sequence ≠ .unreadable) :
    crashed.Sound world := by
  unfold CertificateFiles.Sound
  rcases archive_after_crash hcrash with hsame | ⟨_, file, hfile, harchive⟩
  · rw [hsame]
    exact hsound
  · have hslot : crashed.slot certificate.proposal.proposed.sequence = file := by
      unfold CertificateFiles.slot
      rw [harchive]
      exact CertificateFiles.slot_fill
    simp only [List.mem_cons, List.not_mem_nil, or_false] at hfile
    rcases hfile with rfl | rfl
    · exact absurd hslot hfilled
    · rw [harchive]
      exact hsound.fill hworld

/-- Saving a certificate after a crash of the save of another one for the same proposal succeeds,
and the archive then holds the change, exactly when the crash left the slot free or filled with
the very certificate that is saved again. -/
theorem certificate_saved_again {again : MembershipCertificateV1} (hsound : files.Sound world)
    (hworld : certificate.proposal.proposed.worldId = world)
    (hproposal : again.proposal = certificate.proposal)
    (hcrash : Leaves (saveCertificateFiles certificate) files crashed) :
    ((saveCertificateFiles again crashed).result = .ok () ∧
      ∃ chain, loadMembershipCertificateChain world (saveCertificateFiles again crashed).final =
        .ok chain ∧ ∃ archived ∈ chain, archived.proposal = certificate.proposal) ↔
      (crashed.slot certificate.proposal.proposed.sequence = .absent ∨
        crashed.slot certificate.proposal.proposed.sequence = .present again) := by
  have hagain : loadArchived world (.present again) = .ok again := by
    simp [loadArchived, requireWorld, hproposal, hworld]
  have hnumber : certificate.proposal.proposed.sequence = again.proposal.proposed.sequence := by
    rw [hproposal]
  constructor
  · rintro ⟨hresult, _⟩
    rw [hnumber]
    by_cases hfree : crashed.slot again.proposal.proposed.sequence = .absent
    · exact .inl hfree
    · rw [saveCertificateFiles_taken hfree] at hresult
      split at hresult
      · rename_i hsame
        exact .inr hsame
      · cases hresult
  · intro hslot
    have hfilled : crashed.slot certificate.proposal.proposed.sequence ≠ .unreadable := by
      rcases hslot with hfree | hsame
      · simp [hfree]
      · simp [hsame]
    have hcrashed := sound_after_crash hsound hworld hcrash hfilled
    rw [hnumber] at hslot
    rcases hslot with hfree | hsame
    · rw [saveCertificateFiles_free hfree]
      have hfinal : ((crashed.fill again.proposal.proposed.sequence (.present again)).publish
          again).Sound world := hcrashed.fill (hproposal ▸ hworld)
      obtain ⟨chain, hchain, hmem⟩ := hfinal.load
        (List.mem_append_right _ (List.mem_singleton_self _)) hagain
      exact ⟨rfl, chain, hchain, again, hmem, hproposal⟩
    · rw [saveCertificateFiles_taken (by simp [hsame]), if_pos hsame]
      have hfinal : (crashed.publish again).Sound world := hcrashed
      obtain ⟨chain, hchain, hmem⟩ := hfinal.load (CertificateFiles.mem_of_slot hsame) hagain
      exact ⟨rfl, chain, hchain, again, hmem, hproposal⟩

/-- The change by which the third of three members leaves, with the votes of the first two in the
given order. -/
def departure (voters : List PublicKey) : MembershipCertificateV1 :=
  let f := Founding.numbered 3
  f.membershipCertificate .ideal ((f.members .ideal).take 2) voters

/-- After a crash between filling the slot and publishing the certificate, it can be saved again. -/
theorem certificate_saved_again_filled :
    let f := Founding.numbered 3
    let files := (f.store .ideal).certificateFiles
    let one := departure [⟨1⟩, ⟨2⟩]
    let filled := files.fill 1 (.present one)
    Leaves (saveCertificateFiles one) files filled ∧ filled.current = .absent ∧
      (saveCertificateFiles one filled).result = .ok () ∧
      ∃ chain, loadMembershipCertificateChain (f.world .ideal)
        (saveCertificateFiles one filled).final = .ok chain ∧
          ∃ archived ∈ chain, archived.proposal = one.proposal := by
  intro f files one filled
  have hsound : files.Sound (f.world .ideal) := by
    intro entry hentry
    cases hentry
  have hfree : files.slot one.proposal.proposed.sequence = .absent := rfl
  have hcrash : Leaves (saveCertificateFiles one) files filled := by
    right
    rw [saveCertificateFiles_free hfree]
    exact List.mem_cons_of_mem _ List.mem_cons_self
  exact ⟨hcrash, rfl, (certificate_saved_again hsound rfl rfl hcrash).mpr (.inr rfl)⟩

/-- Both orders of the votes make a valid certificate. A crash between creating and filling the
slot makes every later save of either of them fail, and the archive cannot be loaded any more; a
crash after the slot was filled with one order makes every later save of the other one fail. -/
theorem certificate_not_saved_again :
    let f := Founding.numbered 3
    let files := (f.store .ideal).certificateFiles
    let one := departure [⟨1⟩, ⟨2⟩]
    let other := departure [⟨2⟩, ⟨1⟩]
    let torn := files.fill 1 .unreadable
    let filled := files.fill 1 (.present one)
    validateMembershipCertificateShape .ideal one = .ok () ∧
      validateMembershipCertificateShape .ideal other = .ok () ∧
      other.proposal = one.proposal ∧
      Leaves (saveCertificateFiles one) files torn ∧
      (saveCertificateFiles one torn).result = .error .worldMetadataMismatch ∧
      loadMembershipCertificateChain (f.world .ideal) torn = .error .decode ∧
      Leaves (saveCertificateFiles one) files filled ∧
      (saveCertificateFiles other filled).result = .error .worldMetadataMismatch := by
  intro f files one other torn filled
  have hfree : files.slot 1 = .absent := rfl
  have htorn : torn.archive = [(1, .unreadable)] := rfl
  have hload : loadMembershipCertificateChain (f.world .ideal) torn = .error .decode := by
    rw [loadMembershipCertificateChain, htorn, List.mergeSort_singleton]
    rfl
  refine ⟨by decide +kernel, by decide +kernel, rfl, .inr ?_, by decide +kernel, hload, .inr ?_,
    by decide +kernel⟩
  · rw [saveCertificateFiles_free hfree]
    exact List.mem_cons_self
  · rw [saveCertificateFiles_free hfree]
    exact List.mem_cons_of_mem _ List.mem_cons_self

end SwarmCraft
