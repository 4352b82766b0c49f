import SwarmCraft.Refinement.Tick

/-!
# The artifacts of a new authority

A new authority signs the canonical head and the membership record again, for its own
epoch. Both functions that do so demand exact relations between the stored records.
This module says which heads and membership records they accept, and what they leave.
-/

namespace SwarmCraft

open Checked Effect

variable {C : Crypto} {site : Site} {epoch : EpochRecordV1} {texts : ArtifactTexts} {e t : Exec}
  {latest manifest : SnapshotManifestV1} {fence : Option SnapshotCommitFence}
variable {begun store : Store} {promoted : SnapshotManifestV1}

/-! ## Committing a snapshot -/

/-- Committing a snapshot whose slot is free. -/
theorem commitSnapshot_returns (hverified : verifySnapshot C e.node.store manifest = .ok ())
    (hfree : snapshotSlot C manifest e.node.store = .ok false)
    (hbegin : beginSnapshotCommit C fence manifest e.node.store = .ok begun) :
    commitSnapshot C fence manifest e =
      (.ok (), (e.written begun []).written (finishSnapshotCommit manifest begun) []) := by
  have hcommitted : snapshotCommitted C manifest e.node.store = .ok false :=
    bind_eq_ok.mpr ⟨(), hverified, hfree⟩
  change (check (ofStorage (snapshotCommitted C manifest e.node.store)) >>= _) e = _
  rw [check_bind (ofStorage_eq_ok.mpr hcommitted)]
  change (save [] (beginSnapshotCommit C fence manifest) >>= _) e = _
  rw [save_bind hbegin]
  rfl

/-- A commit that returns found its manifest in the slot, or made it the head. -/
theorem commitSnapshot_cases (h : commitSnapshot C fence manifest e = (.ok (), t)) :
    (snapshotCommitted C manifest e.node.store = .ok true ∧ t = e) ∨
      (snapshotCommitted C manifest e.node.store = .ok false ∧
        ∃ begun, beginSnapshotCommit C fence manifest e.node.store = .ok begun ∧
          t = (e.written begun []).written (finishSnapshotCommit manifest begun) []) := by
  obtain ⟨store, _, hread, h⟩ := run_bind.mp h
  obtain ⟨rfl, rfl⟩ := run_readStore.mp hread
  obtain ⟨committed, _, hcheck, h⟩ := run_bind.mp h
  obtain ⟨hcommitted, rfl⟩ := run_check.mp hcheck
  rw [ofStorage_eq_ok] at hcommitted
  cases committed with
  | true => exact .inl ⟨hcommitted, (run_pure.mp h).2.symm⟩
  | false =>
    obtain ⟨_, _, hsave, h⟩ := run_bind.mp h
    obtain ⟨begun, hbegin, rfl⟩ := run_save.mp hsave
    exact .inr ⟨hcommitted, begun, hbegin, (run_modifyState.mp h).symm⟩

/-- A commit of a manifest that is stored already writes nothing. -/
theorem commitSnapshot_stored (h : snapshotCommitted C manifest e.node.store = .ok true) :
    commitSnapshot C fence manifest e = (.ok (), e) := by
  change (check (ofStorage (snapshotCommitted C manifest e.node.store)) >>= _) e = _
  rw [check_bind (ofStorage_eq_ok.mpr h)]
  rfl

/-- A commit is of the accepted epoch and its authority. -/
theorem beginSnapshotCommit_epoch {world : WorldId}
    (h : beginSnapshotCommit C fence manifest store = .ok begun)
    (hepoch : loadEpochRecord world store = .ok epoch) :
    manifest.epoch = epoch.epochNumber ∧ manifest.authorityPeerId = epoch.authorityPeerId ∧
      manifest.authorityPublicKey = epoch.authorityPublicKey := by
  have hfile := (loadEpochRecord_eq_ok.mp hepoch).1
  have hexists : store.epoch.exists = true := by
    rw [hfile]
    rfl
  simp only [beginSnapshotCommit, bind_eq_ok, hexists, if_true, ensure_eq_ok] at h
  obtain ⟨_, _, _, _, found, hfound, _, ⟨hnumber, hpeer, hkey⟩, _⟩ := h
  obtain rfl : found = epoch := by
    have hloaded := (loadEpochRecord_eq_ok.mp hfound).1
    rw [hfile] at hloaded
    exact (DurableFile.present.inj hloaded).symm
  exact ⟨hnumber.symm, hpeer.symm, hkey.symm⟩

/-- The commit of an accepted authority may begin. -/
theorem beginSnapshotCommit_returns (hhead : latestSnapshot store = .ok (some latest))
    (hdirect : validateDirectExtension C (some latest) manifest = .ok ())
    (hepoch : loadEpochRecord manifest.worldId store = .ok epoch)
    (hnumber : manifest.epoch = epoch.epochNumber)
    (hpeer : manifest.authorityPeerId = epoch.authorityPeerId)
    (hkey : manifest.authorityPublicKey = epoch.authorityPublicKey) :
    beginSnapshotCommit C (some ⟨epoch.epochNumber, epoch.fencingToken, some latest⟩) manifest
      store = .ok { store with commitPending := true } := by
  have hexists : store.epoch.exists = true := by
    rw [(loadEpochRecord_eq_ok.mp hepoch).1]
    rfl
  simp only [beginSnapshotCommit, bind_eq_ok, hexists, if_true, ensure_eq_ok, pure_eq_ok]
  exact ⟨_, hhead, (), hdirect, epoch, hepoch, (), ⟨hnumber.symm, hpeer.symm, hkey.symm⟩, (),
    trivial, epoch, hepoch, (), ⟨rfl, rfl, rfl⟩, trivial⟩

/-! ## The snapshot part -/

/-- The heads that a new authority accepts: one that it signs again, or its own on the base of its
epoch. -/
inductive HeadFits (C : Crypto) (site : Site) (epochNumber : Nat) (baseStateHash : Hash32)
    (latest : SnapshotManifestV1) : Prop where
  | promoted (hnext : latest.epoch + 1 = epochNumber) (hepoch : latest.epoch < u64Max)
      (hnumber : latest.snapshotNumber < u64Max) (hsequence : latest.sequence < u64Max)
      (hroot : latest.stateRoot = baseStateHash)
  | own (hsame : latest.epoch = epochNumber) (hpeer : latest.authorityPeerId = site.peer C)
      (hkey : latest.authorityPublicKey = site.identity.publicKey)
      (hroot : latest.stateRoot = baseStateHash)

theorem promotedSnapshot_eq_ok (h : promotedSnapshot C site texts epoch latest = .ok promoted) :
    (latest.epoch + 1 = epoch.epochNumber ∧ latest.epoch < u64Max ∧
      latest.snapshotNumber < u64Max ∧ latest.sequence < u64Max ∧
      latest.stateRoot = epoch.baseStateHash) ∧
      promoted.worldId = epoch.worldId ∧ promoted.epoch = epoch.epochNumber ∧
      promoted.snapshotNumber = latest.snapshotNumber + 1 ∧
      promoted.sequence = latest.sequence + 1 ∧
      promoted.previousSnapshotHash = some (latest.manifestHash C) ∧
      promoted.authorityPeerId = site.peer C ∧
      promoted.authorityPublicKey = site.identity.publicKey ∧
      promoted.protocolVersion = protocolVersionV1 ∧ promoted.entries = latest.entries ∧
      promoted.stateRoot = latest.stateRoot := by
  simp only [promotedSnapshot, signSnapshot, bind_eq_ok, guardMessage_eq_ok, required_eq_ok,
    ofCore_eq_ok, mapError_eq_ok, pure_eq_ok, checkedSucc_eq_some] at h
  obtain ⟨_, ⟨⟨hepoch, hnext⟩, hroot⟩, number, ⟨hnumber, rfl⟩, sequence, ⟨hsequence, rfl⟩, _, _, rfl⟩
    := h
  exact ⟨⟨hnext.symm, hepoch, hnumber, hsequence, hroot⟩, rfl, rfl, rfl, rfl, rfl, rfl, rfl, rfl,
    rfl, rfl⟩

/-- A well-formed head can be promoted into the next epoch. -/
theorem promotedSnapshot_returns (hvalid : latest.validateSemantics C = .ok ())
    (hnext : latest.epoch + 1 = epoch.epochNumber) (hepoch : latest.epoch < u64Max)
    (hnumber : latest.snapshotNumber < u64Max) (hsequence : latest.sequence < u64Max)
    (hroot : latest.stateRoot = epoch.baseStateHash) :
    ∃ promoted, promotedSnapshot C site texts epoch latest = .ok promoted := by
  simp only [promotedSnapshot, signSnapshot, bind_eq_ok, guardMessage_eq_ok, required_eq_ok,
    ofCore_eq_ok, mapError_eq_ok, pure_eq_ok, checkedSucc_eq_some]
  simp only [SnapshotManifestV1.validateSemantics, requireProtocolVersion, bind_eq_ok,
    ensure_eq_ok] at hvalid ⊢
  obtain ⟨_, _, _, horder, hstate⟩ := hvalid
  exact ⟨_, (), ⟨⟨hepoch, hnext.symm⟩, hroot⟩, _, ⟨hnumber, rfl⟩, _, ⟨hsequence, rfl⟩, (),
    ⟨(), trivial, (), horder, hstate⟩, rfl⟩

/-- The promotion of a head reads the blobs of the head. -/
theorem verifySnapshot_promoted (h : promotedSnapshot C site texts epoch latest = .ok promoted)
    (hverified : verifySnapshot C store latest = .ok ()) :
    verifySnapshot C store promoted = .ok () := by
  obtain ⟨_, _, _, _, _, _, _, _, hversion, hentries, hroot⟩ := promotedSnapshot_eq_ok h
  simp only [verifySnapshot, bind_eq_ok, ensure_eq_ok] at hverified ⊢
  rw [hversion, hentries, hroot]
  exact ⟨(), rfl, hverified.choose_spec.2⟩

/-- The promotion of the highest snapshot has a free slot. -/
theorem snapshotSlot_free
    (hhighest : ∀ stored ∈ store.snapshots, stored.snapshotNumber < manifest.snapshotNumber) :
    snapshotSlot C manifest store = .ok false := by
  have hfind : (store.snapshots.find? fun existing =>
      decide (existing.snapshotNumber = manifest.snapshotNumber)) = none := by
    rw [List.find?_eq_none]
    intro stored hstored
    have hlt := hhighest stored hstored
    simp only [decide_eq_true_eq]
    omega
  rw [snapshotSlot, hfind]
  rfl

/-- The snapshot part on a given head. -/
theorem ensurePromotedSnapshot_run (hhead : latestSnapshot e.node.store = .ok (some latest)) :
    ensurePromotedSnapshot C site texts epoch e =
      (if latest.epoch < epoch.epochNumber then do
        let promoted ← check (promotedSnapshot C site texts epoch latest)
        commitSnapshot C (some ⟨epoch.epochNumber, epoch.fencingToken, some latest⟩) promoted
      else
        check (guardMessage (latest.epoch = epoch.epochNumber ∧
          latest.authorityPeerId = site.peer C ∧
          latest.authorityPublicKey = site.identity.publicKey ∧
          latest.stateRoot = epoch.baseStateHash) texts.conflict) : Daemon Unit) e := by
  change (check (ofStorage (latestSnapshot e.node.store)) >>= _) e = _
  rw [check_bind (ofStorage_eq_ok.mpr hhead), check_bind (required_eq_ok.mpr rfl)]

theorem ensurePromotedSnapshot_head
    (h : ensurePromotedSnapshot C site texts epoch e = (.ok (), t)) :
    ∃ latest, latestSnapshot e.node.store = .ok (some latest) := by
  obtain ⟨store, _, hread, h⟩ := run_bind.mp h
  obtain ⟨rfl, rfl⟩ := run_readStore.mp hread
  obtain ⟨found, _, hfound, h⟩ := run_bind.mp h
  obtain ⟨hlatest, rfl⟩ := run_check.mp hfound
  obtain ⟨latest, _, hrequired, _⟩ := run_bind.mp h
  have hsome := required_eq_ok.mp (run_check.mp hrequired).1
  rw [hsome, ofStorage_eq_ok] at hlatest
  exact ⟨latest, hlatest⟩

/-- What the snapshot part leaves alone. -/
theorem ensurePromotedSnapshot_keeps (h : ensurePromotedSnapshot C site texts epoch e = (.ok (), t)) :
    t.node.store.epoch = e.node.store.epoch ∧ t.node.store.membership = e.node.store.membership :=
  ⟨content_of_run h .epoch (by decide), content_of_run h .membership (by decide)⟩

/-- The snapshot part returns exactly on the heads it accepts. -/
theorem ensurePromotedSnapshot_returns (hhead : latestSnapshot e.node.store = .ok (some latest))
    (hvalid : latest.validateSemantics C = .ok ())
    (hverified : verifySnapshot C e.node.store latest = .ok ())
    (hhighest : ∀ stored ∈ e.node.store.snapshots, stored.snapshotNumber ≤ latest.snapshotNumber)
    (hepoch : loadEpochRecord epoch.worldId e.node.store = .ok epoch)
    (hpeer : epoch.authorityPeerId = site.peer C)
    (hkey : epoch.authorityPublicKey = site.identity.publicKey) :
    (∃ t, ensurePromotedSnapshot C site texts epoch e = (.ok (), t)) ↔
      HeadFits C site epoch.epochNumber epoch.baseStateHash latest := by
  rw [ensurePromotedSnapshot_run hhead]
  constructor
  · rintro ⟨t, h⟩
    split at h
    · obtain ⟨promoted, _, hcheck, _⟩ := run_bind.mp h
      obtain ⟨⟨hnext, hmax, hnumber, hsequence, hroot⟩, _⟩ :=
        promotedSnapshot_eq_ok (run_check.mp hcheck).1
      exact .promoted hnext hmax hnumber hsequence hroot
    · obtain ⟨hsame, hmine, hown, hroot⟩ := guardMessage_eq_ok.mp (run_check.mp h).1
      exact .own hsame hmine hown hroot
  · intro hfits
    cases hfits with
    | promoted hnext hmax hnumber hsequence hroot =>
      obtain ⟨promoted, hpromoted⟩ :=
        @promotedSnapshot_returns C site epoch texts latest hvalid hnext hmax hnumber hsequence hroot
      obtain ⟨_, hworld, hin, hsucc, hseq, hprev, hmine, hown, _⟩ := promotedSnapshot_eq_ok hpromoted
      have hdirect : validateDirectExtension C (some latest) promoted = .ok () := by
        simp only [validateDirectExtension, bind_eq_ok, required_eq_ok, ensure_eq_ok,
          checkedSucc_eq_some]
        exact ⟨_, ⟨hnumber, rfl⟩, _, ⟨hsequence, rfl⟩, hsucc, hseq, hprev⟩
      have hbegin := beginSnapshotCommit_returns hhead hdirect (hworld ▸ hepoch) hin
        (hmine.trans hpeer.symm) (hown.trans hkey.symm)
      have hfree : snapshotSlot C promoted e.node.store = .ok false :=
        snapshotSlot_free fun stored hstored => by
          have hle := hhighest stored hstored
          omega
      have hcommit := commitSnapshot_returns (verifySnapshot_promoted hpromoted hverified) hfree hbegin
      rw [if_pos (by omega), check_bind hpromoted]
      exact ⟨_, hcommit⟩
    | own hsame hmine hown hroot =>
      refine ⟨e, ?_⟩
      rw [if_neg (by omega)]
      exact run_check.mpr ⟨guardMessage_eq_ok.mpr ⟨hsame, hmine, hown, hroot⟩, rfl⟩

/-! ## The membership part -/

/-- The membership records that a new authority accepts: its own of its epoch, or one that it can
sign again. -/
inductive RecordFits (C : Crypto) (site : Site) (epochNumber : Nat)
    (membership : MembershipRecordV1) : Prop where
  | resigned (hle : membership.epoch ≤ epochNumber) (hsequence : membership.sequence < u64Max)
  | own (hsame : membership.epoch = epochNumber)
      (hpeer : membership.authorityPeerId = site.peer C)
      (hkey : membership.authorityPublicKey = site.identity.publicKey)

variable {membership : MembershipRecordV1}

/-- A record that extends the stored one in the name of the accepted authority is saved. -/
theorem saveMembershipRecord_extends {next : MembershipRecordV1}
    (hmembership : loadMembershipRecord next.worldId store = .ok membership)
    (hepoch : loadEpochRecord next.worldId store = .ok epoch)
    (hvalid : next.validateSemantics = .ok ())
    (hsequence : checkedSucc membership.sequence = some next.sequence)
    (hprevious : next.previousMembershipHash = some (membership.recordHash C))
    (hle : membership.epoch ≤ next.epoch) (hmatches : matchesEpochAuthority next epoch = true) :
    saveMembershipRecord C next store = .ok { store with membership := .present next } := by
  have hexists : store.membership.exists = true := by
    rw [(loadMembershipRecord_eq_ok.mp hmembership).1]
    rfl
  have hne : next ≠ membership := by
    intro heq
    rw [heq, checkedSucc_eq_some] at hsequence
    omega
  simp only [saveMembershipRecord, bind_eq_ok, asStorage, mapError_eq_ok, hexists, if_true]
  refine ⟨(), hvalid, membership, hmembership, ?_⟩
  rw [if_neg hne, hepoch]
  simp only [bind_eq_ok, required_eq_ok, ensure_eq_ok, pure_eq_ok]
  exact ⟨_, hsequence, (), ⟨rfl, hprevious, hle⟩, (), hmatches, trivial⟩

/-- A stored record can be signed again, for a later epoch, by the accepted authority. -/
theorem resignedMembership_saved (hsequence : membership.sequence < u64Max)
    (hle : membership.epoch ≤ epoch.epochNumber)
    (hmembership : loadMembershipRecord epoch.worldId store = .ok membership)
    (hepoch : loadEpochRecord epoch.worldId store = .ok epoch)
    (hpeer : epoch.authorityPeerId = site.peer C)
    (hkey : epoch.authorityPublicKey = site.identity.publicKey) :
    ∃ next, nextMembership C site membership epoch.epochNumber membership.members = .ok next ∧
      saveMembershipRecord C next store = .ok { store with membership := .present next } := by
  obtain ⟨_, hworld, hvalid⟩ := loadMembershipRecord_eq_ok.mp hmembership
  have hsucc := checkedSucc_eq_some.mpr ⟨hsequence, rfl⟩
  obtain ⟨next, hnext⟩ : ∃ next,
      nextMembership C site membership epoch.epochNumber membership.members = .ok next := by
    simp only [nextMembership, signMembership, bind_eq_ok, required_eq_ok, ofCore_eq_ok,
      mapError_eq_ok, pure_eq_ok]
    exact ⟨_, _, hsucc, (), hvalid, rfl⟩
  refine ⟨next, hnext, ?_⟩
  simp only [nextMembership, signMembership, bind_eq_ok, required_eq_ok, ofCore_eq_ok,
    mapError_eq_ok, pure_eq_ok] at hnext
  obtain ⟨_, hcounted, _, hsigned, rfl⟩ := hnext
  refine saveMembershipRecord_extends (hworld ▸ hmembership) (hworld ▸ hepoch) hsigned hcounted rfl
    hle ?_
  simp only [matchesEpochAuthority, hpeer, hkey, Site.peer, decide_true, Bool.and_self]

/-- The membership part returns exactly on the records it accepts. -/
theorem ensurePromotedMembership_returns
    (hmembership : loadMembershipRecord epoch.worldId e.node.store = .ok membership)
    (hepoch : loadEpochRecord epoch.worldId e.node.store = .ok epoch)
    (hpeer : epoch.authorityPeerId = site.peer C)
    (hkey : epoch.authorityPublicKey = site.identity.publicKey) :
    (∃ t, ensurePromotedMembership C site texts epoch membership e = (.ok (), t)) ↔
      RecordFits C site epoch.epochNumber membership := by
  constructor
  · rintro ⟨t, h⟩
    obtain ⟨_, _, hcheck, h⟩ := run_bind.mp h
    obtain ⟨hle, rfl⟩ := run_check.mp hcheck
    rw [guardMessage_eq_ok] at hle
    by_cases hown : membership.epoch ≠ epoch.epochNumber ∨
        membership.authorityPeerId ≠ site.peer C ∨
        membership.authorityPublicKey ≠ site.identity.publicKey
    · rw [onlyIf, if_pos hown] at h
      obtain ⟨next, _, hnext, _⟩ := run_bind.mp h
      have hnext := (run_check.mp hnext).1
      simp only [nextMembership, bind_eq_ok, required_eq_ok, checkedSucc_eq_some] at hnext
      obtain ⟨_, ⟨hsequence, _⟩, _⟩ := hnext
      exact .resigned hle hsequence
    · push Not at hown
      exact .own hown.1 hown.2.1 hown.2.2
  · intro hfits
    have hle : membership.epoch ≤ epoch.epochNumber := by
      cases hfits with
      | resigned hle _ => exact hle
      | own hsame _ _ => exact hsame.le
    have hbehind : guardMessage (membership.epoch ≤ epoch.epochNumber) texts.ahead = .ok () :=
      guardMessage_eq_ok.mpr hle
    unfold ensurePromotedMembership
    rw [check_bind hbehind]
    by_cases hown : membership.epoch ≠ epoch.epochNumber ∨
        membership.authorityPeerId ≠ site.peer C ∨
        membership.authorityPublicKey ≠ site.identity.publicKey
    · have hsequence : membership.sequence < u64Max := by
        cases hfits with
        | resigned _ hsequence => exact hsequence
        | own hsame hmine hown' => simp [hsame, hmine, hown'] at hown
      obtain ⟨next, hnext, hsaved⟩ :=
        resignedMembership_saved hsequence hle hmembership hepoch hpeer hkey
      rw [onlyIf, if_pos hown, check_bind hnext]
      exact ⟨_, run_save.mpr ⟨_, hsaved, rfl⟩⟩
    · refine ⟨e, ?_⟩
      rw [onlyIf, if_neg hown]
      rfl

end SwarmCraft
