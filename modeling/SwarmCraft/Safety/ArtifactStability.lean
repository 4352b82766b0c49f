import SwarmCraft.Refinement.Artifacts
import SwarmCraft.System.Genesis

/-!
# Recovery artifacts while the recovered authority works

Each tick of a recovered authority ensures its artifacts again. They accept the head of
its epoch only on the base of the epoch, so the first snapshot of a changed world ends
them. This module follows the head over every sequence of fenced commits and says when
the artifacts are still accepted.
-/

namespace SwarmCraft

open Checked Effect

variable {C : Crypto} {site : Site} {epoch : EpochRecordV1} {e t u : Exec}

/-! ## What the artifacts leave -/

/-- The head after the artifacts of an epoch were ensured: it is of the epoch, or its promotion is
stored in its slot already. -/
inductive HeadSettled (C : Crypto) (site : Site) (epoch : EpochRecordV1) (store : Store)
    (head : SnapshotManifestV1) : Prop where
  | own (hsame : head.epoch = epoch.epochNumber) (hpeer : head.authorityPeerId = site.peer C)
      (hkey : head.authorityPublicKey = site.identity.publicKey)
  | stored (promoted : SnapshotManifestV1) (hbefore : head.epoch < epoch.epochNumber)
      (hpromoted : promotedSnapshot C site recoveryArtifactTexts epoch head = .ok promoted)
      (hslot : snapshotCommitted C promoted store = .ok true)

/-- The state after the artifacts of an epoch were ensured. -/
structure Store.Settled (C : Crypto) (site : Site) (epoch : EpochRecordV1) (store : Store) :
    Prop where
  accepted : loadEpochRecord epoch.worldId store = .ok epoch
  membership : ∃ membership, loadMembershipRecord epoch.worldId store = .ok membership ∧
    membership.epoch = epoch.epochNumber ∧ membership.authorityPeerId = site.peer C ∧
    membership.authorityPublicKey = site.identity.publicKey
  head : ∃ head, latestSnapshot store = .ok (some head) ∧ HeadSettled C site epoch store head

/-- The head after a finished commit. -/
theorem latestSnapshot_finished (manifest : SnapshotManifestV1) (store : Store) :
    latestSnapshot (finishSnapshotCommit manifest store) = .ok (some manifest) := rfl

/-- The snapshot part settles the head. -/
theorem ensurePromotedSnapshot_settles
    (h : ensurePromotedSnapshot C site recoveryArtifactTexts epoch e = (.ok (), t)) :
    ∃ head, latestSnapshot t.node.store = .ok (some head) ∧
      HeadSettled C site epoch t.node.store head := by
  obtain ⟨latest, hlatest⟩ := ensurePromotedSnapshot_head h
  rw [ensurePromotedSnapshot_run hlatest] at h
  by_cases hbefore : latest.epoch < epoch.epochNumber
  · rw [if_pos hbefore] at h
    obtain ⟨promoted, _, hcheck, h⟩ := run_bind.mp h
    obtain ⟨hpromoted, rfl⟩ := run_check.mp hcheck
    obtain ⟨_, _, hin, _, _, _, hpeer, hkey, _⟩ := promotedSnapshot_eq_ok hpromoted
    rcases commitSnapshot_cases h with ⟨hcommitted, rfl⟩ | ⟨_, begun, _, rfl⟩
    · exact ⟨latest, hlatest, .stored promoted hbefore hpromoted hcommitted⟩
    · exact ⟨promoted, latestSnapshot_finished _ _, .own hin hpeer hkey⟩
  · rw [if_neg hbefore] at h
    obtain ⟨hguard, rfl⟩ := run_check.mp h
    obtain ⟨hsame, hpeer, hkey, _⟩ := guardMessage_eq_ok.mp hguard
    exact ⟨latest, hlatest, .own hsame hpeer hkey⟩

/-- The membership part leaves a record of the new authority. -/
theorem ensurePromotedMembership_settles {texts : ArtifactTexts} {membership : MembershipRecordV1}
    (hmembership : loadMembershipRecord epoch.worldId e.node.store = .ok membership)
    (h : ensurePromotedMembership C site texts epoch membership e = (.ok (), t)) :
    ∃ settled, loadMembershipRecord epoch.worldId t.node.store = .ok settled ∧
      settled.epoch = epoch.epochNumber ∧ settled.authorityPeerId = site.peer C ∧
      settled.authorityPublicKey = site.identity.publicKey := by
  obtain ⟨_, _, hcheck, h⟩ := run_bind.mp h
  obtain ⟨-, rfl⟩ := run_check.mp hcheck
  by_cases hother : membership.epoch ≠ epoch.epochNumber ∨
      membership.authorityPeerId ≠ site.peer C ∨
      membership.authorityPublicKey ≠ site.identity.publicKey
  · rw [onlyIf, if_pos hother] at h
    obtain ⟨next, _, hcheck, h⟩ := run_bind.mp h
    obtain ⟨hnext, rfl⟩ := run_check.mp hcheck
    obtain ⟨store, hsaved, rfl⟩ := run_save.mp h
    have hloaded := loadMembershipRecord_saved hsaved
    simp only [nextMembership, signMembership, bind_eq_ok, required_eq_ok, ofCore_eq_ok,
      mapError_eq_ok, pure_eq_ok] at hnext
    obtain ⟨_, _, _, _, rfl⟩ := hnext
    have hworld := (loadMembershipRecord_eq_ok.mp hmembership).2.1
    exact ⟨_, hworld ▸ hloaded, rfl, rfl, rfl⟩
  · rw [onlyIf, if_neg hother] at h
    obtain ⟨-, rfl⟩ := run_pure.mp h
    push Not at hother
    exact ⟨membership, hmembership, hother⟩

/-- Ensuring the artifacts of the accepted epoch settles them. -/
theorem ensureRecoveryArtifacts_settles
    (hepoch : loadEpochRecord epoch.worldId e.node.store = .ok epoch)
    (h : ensureRecoveryArtifacts C site epoch e = (.ok (), t)) :
    t.node.store.Settled C site epoch := by
  obtain ⟨_, u, hsnapshot, h⟩ := run_bind.mp h
  obtain ⟨hsameEpoch, _⟩ := ensurePromotedSnapshot_keeps hsnapshot
  obtain ⟨head, hhead, hsettled⟩ := ensurePromotedSnapshot_settles hsnapshot
  obtain ⟨_, _, hread, h⟩ := run_bind.mp h
  obtain ⟨rfl, rfl⟩ := run_readStore.mp hread
  obtain ⟨membership, _, hcheck, h⟩ := run_bind.mp h
  obtain ⟨hmembership, rfl⟩ := run_check.mp hcheck
  rw [ofStorage_eq_ok] at hmembership
  have hkeptEpoch : t.node.store.epoch = u.node.store.epoch := content_of_run h .epoch (by decide)
  have hkeptHead : t.node.store.snapshots = u.node.store.snapshots :=
    content_of_run h .snapshots (by decide)
  have hkeptPending : t.node.store.commitPending = u.node.store.commitPending :=
    content_of_run h .commitPending (by decide)
  have hkeptBlobs : t.node.store.blobs = u.node.store.blobs := content_of_run h .blobs (by decide)
  refine ⟨?_, ensurePromotedMembership_settles hmembership h, head, ?_, ?_⟩
  · rw [loadEpochRecord, hkeptEpoch, hsameEpoch]
    exact hepoch
  · rw [latestSnapshot, hkeptPending, hkeptHead]
    exact hhead
  · cases hsettled with
    | own hsame hpeer hkey => exact .own hsame hpeer hkey
    | stored promoted hbefore hpromoted hslot =>
      refine .stored promoted hbefore hpromoted ?_
      rw [snapshotCommitted, verifySnapshot, snapshotSlot, hkeptPending, hkeptHead]
      simp only [hasCompleteBlob, hkeptBlobs]
      exact hslot

/-! ## Fenced commits -/

/-- A snapshot is committed under a fence. -/
def FencedCommit (C : Crypto) (e t : Exec) : Prop :=
  ∃ fence manifest, commitSnapshot C (some fence) manifest e = (.ok (), t)

/-- A taken slot takes no other manifest of its number. -/
theorem snapshotCommitted_taken {store : Store} {manifest other : SnapshotManifestV1}
    (h : snapshotCommitted C manifest store = .ok true)
    (hnumber : other.snapshotNumber = manifest.snapshotNumber) :
    snapshotCommitted C other store ≠ .ok false := by
  intro hfree
  simp only [snapshotCommitted, snapshotSlot, bind_eq_ok, hnumber] at h hfree
  obtain ⟨_, _, h⟩ := h
  obtain ⟨_, _, hfree⟩ := hfree
  split at h
  · cases h
  · rename_i existing hfound
    rw [hfound] at hfree
    simp only [bind_eq_ok, pure_eq_ok, Bool.true_eq_false, and_false, exists_false] at hfree

section

variable (h : e.node.store.Settled C site epoch)

include h

/-- A fenced commit keeps the artifacts settled: the new head is of the accepted epoch. -/
theorem Store.Settled.commit (hpeer : epoch.authorityPeerId = site.peer C)
    (hkey : epoch.authorityPublicKey = site.identity.publicKey) (hcommit : FencedCommit C e t) :
    t.node.store.Settled C site epoch := by
  obtain ⟨fence, manifest, hcommit⟩ := hcommit
  rcases commitSnapshot_cases hcommit with ⟨_, rfl⟩ | ⟨hfree, begun, hbegin, rfl⟩
  · exact h
  obtain ⟨rfl, hdirect⟩ := beginSnapshotCommit_eq_ok hbegin
  obtain ⟨hnumber, hmine, hown⟩ := beginSnapshotCommit_epoch hbegin h.accepted
  obtain ⟨head, hhead, hsettled⟩ := h.head
  refine ⟨h.accepted, h.membership, manifest, latestSnapshot_finished _ _, ?_⟩
  cases hsettled with
  | own _ _ _ => exact .own hnumber (hmine.trans hpeer) (hown.trans hkey)
  | stored promoted _ hpromoted hslot =>
    -- The slot above the head is taken, so nothing can extend the head.
    exfalso
    have hstored : e.node.store.snapshots.head? = some head := by
      simp only [latestSnapshot, bind_eq_ok, pure_eq_ok] at hhead
      exact hhead.choose_spec.2
    rw [hstored] at hdirect
    simp only [validateDirectExtension, bind_eq_ok, required_eq_ok, ensure_eq_ok,
      checkedSucc_eq_some] at hdirect
    obtain ⟨_, ⟨_, rfl⟩, _, _, hnext, _⟩ := hdirect
    obtain ⟨_, _, _, hpromotedNumber, _⟩ := promotedSnapshot_eq_ok hpromoted
    exact snapshotCommitted_taken hslot (hnext.trans hpromotedNumber.symm) hfree

/-- Any number of fenced commits keeps the artifacts settled. -/
theorem Store.Settled.commits (hpeer : epoch.authorityPeerId = site.peer C)
    (hkey : epoch.authorityPublicKey = site.identity.publicKey)
    (hcommits : Relation.ReflTransGen (FencedCommit C) e t) : t.node.store.Settled C site epoch := by
  induction hcommits with
  | refl => exact h
  | tail _ hcommit ih => exact ih.commit hpeer hkey hcommit

/-! ## The artifacts again -/

/-- The membership part writes nothing over a record of the new authority. -/
theorem ensureRecoveryArtifacts_rest
    (hsnapshot : ensurePromotedSnapshot C site recoveryArtifactTexts epoch e = (.ok (), e)) :
    ensureRecoveryArtifacts C site epoch e = (.ok (), e) := by
  obtain ⟨membership, hmembership, hsame, hpeer, hkey⟩ := h.membership
  have hbehind : guardMessage (membership.epoch ≤ epoch.epochNumber) recoveryArtifactTexts.ahead =
      .ok () := guardMessage_eq_ok.mpr hsame.le
  unfold ensureRecoveryArtifacts
  rw [bind_of_run hsnapshot]
  change (check (ofStorage (loadMembershipRecord epoch.worldId e.node.store)) >>= _) e = _
  rw [check_bind (ofStorage_eq_ok.mpr hmembership), ensurePromotedMembership, check_bind hbehind,
    onlyIf, if_neg (by simp [hsame, hpeer, hkey])]
  rfl

/-- Settled artifacts are accepted again, without a write, exactly while the head has the state on
which the epoch began. -/
theorem ensureRecoveryArtifacts_again {head : SnapshotManifestV1}
    (hhead : latestSnapshot e.node.store = .ok (some head)) :
    (∃ t, ensureRecoveryArtifacts C site epoch e = (.ok (), t) ∧ t.node.store = e.node.store) ↔
      head.stateRoot = epoch.baseStateHash := by
  obtain ⟨found, hfound, hsettled⟩ := h.head
  obtain rfl : found = head :=
    Option.some.inj (Except.ok.inj (hfound.symm.trans hhead))
  cases hsettled with
  | own hsame hpeer hkey =>
    constructor
    · rintro ⟨t, hrun, _⟩
      obtain ⟨_, _, hsnapshot, _⟩ := run_bind.mp hrun
      rw [ensurePromotedSnapshot_run hhead, if_neg (by omega)] at hsnapshot
      exact (guardMessage_eq_ok.mp (run_check.mp hsnapshot).1).2.2.2
    · intro hroot
      refine ⟨e, ensureRecoveryArtifacts_rest h ?_, rfl⟩
      rw [ensurePromotedSnapshot_run hhead, if_neg (by omega)]
      exact run_check.mpr ⟨guardMessage_eq_ok.mpr ⟨hsame, hpeer, hkey, hroot⟩, rfl⟩
  | stored promoted hbefore hpromoted hslot =>
    have hroot := (promotedSnapshot_eq_ok hpromoted).1.2.2.2.2
    refine ⟨fun _ => hroot, fun _ => ⟨e, ensureRecoveryArtifacts_rest h ?_, rfl⟩⟩
    rw [ensurePromotedSnapshot_run hhead, if_pos hbefore, check_bind hpromoted]
    exact commitSnapshot_stored hslot

end

/-- After the artifacts of an accepted epoch of the local peer were ensured and any number of
snapshots was committed under a fence, they are accepted again, without a write, exactly where
the last of these snapshots has the state on which the epoch began. -/
theorem recovery_artifacts_stable
    (hepoch : loadEpochRecord epoch.worldId e.node.store = .ok epoch)
    (hpeer : epoch.authorityPeerId = site.peer C)
    (hkey : epoch.authorityPublicKey = site.identity.publicKey)
    (hensured : ensureRecoveryArtifacts C site epoch e = (.ok (), t))
    (hcommits : Relation.ReflTransGen (FencedCommit C) t u) :
    ∃ head, latestSnapshot u.node.store = .ok (some head) ∧
      ((∃ v, ensureRecoveryArtifacts C site epoch u = (.ok (), v) ∧
        v.node.store = u.node.store) ↔ head.stateRoot = epoch.baseStateHash) := by
  have hsettled := (ensureRecoveryArtifacts_settles hepoch hensured).commits hpeer hkey hcommits
  obtain ⟨head, hhead, _⟩ := hsettled.head
  exact ⟨head, hhead, ensureRecoveryArtifacts_again hsettled hhead⟩

theorem run_of_result {m : Daemon Unit} (h : (m e).1 = .ok ()) : m e = (.ok (), (m e).2) :=
  Prod.ext h rfl

/-- The record of the first peer of a world of one, which has just recovered its authority. -/
def recoveredEpoch : EpochRecordV1 :=
  let f := Founding.numbered 1
  { f.epoch .ideal with
    epochNumber := (f.epoch .ideal).epochNumber + 1
    fencingToken := (f.epoch .ideal).fencingToken + 1
    mode := .recovery }

/-- A recovered authority commits the world as it was: its artifacts are accepted again. -/
theorem recovery_artifacts_stable_unchanged :
    let f := Founding.numbered 1
    let site : Site := ⟨f.world .ideal, ⟨f.authority⟩, 0⟩
    let e := Exec.start (f.node .ideal { f.store .ideal with epoch := .present recoveredEpoch })
    let t := (ensureRecoveryArtifacts .ideal site recoveredEpoch e).2
    let head := t.node.store.snapshots.headD (f.snapshot .ideal)
    let manifest := (finalManifest .ideal site recoveredEpoch head []).toOption.getD head
    let fence : SnapshotCommitFence :=
      ⟨recoveredEpoch.epochNumber, recoveredEpoch.fencingToken, some head⟩
    let u := (commitSnapshot .ideal (some fence) manifest t).2
    FencedCommit .ideal t u ∧ latestSnapshot u.node.store = .ok (some manifest) ∧
      manifest.sequence = head.sequence + 1 ∧
      ∃ v, ensureRecoveryArtifacts .ideal site recoveredEpoch u = (.ok (), v) ∧
        v.node.store = u.node.store := by
  intro f site e t head manifest fence u
  have hensured : ensureRecoveryArtifacts .ideal site recoveredEpoch e = (.ok (), t) :=
    run_of_result (by decide +kernel)
  have hcommit : FencedCommit .ideal t u := ⟨_, _, run_of_result (by decide +kernel)⟩
  have hlatest : latestSnapshot u.node.store = .ok (some manifest) := by decide +kernel
  obtain ⟨head, hhead, hagain⟩ := recovery_artifacts_stable (e := e) (by decide +kernel) rfl rfl
    hensured (.single hcommit)
  obtain rfl := Option.some.inj (Except.ok.inj (hhead.symm.trans hlatest))
  exact ⟨hcommit, hlatest, by decide +kernel, hagain.mpr (by decide +kernel)⟩

/-- A recovered authority commits the world after one file changed: its artifacts are not accepted
any more, and the tick that ensures them ends the daemon. -/
theorem recovery_artifacts_unstable :
    let f := Founding.numbered 1
    let site : Site := ⟨f.world .ideal, ⟨f.authority⟩, 0⟩
    let changed : SnapshotEntry := ⟨"level.dat", ⟨⟨.atom 1⟩, 1, 1, .raw⟩⟩
    let e := Exec.start (f.node .ideal { f.store .ideal with
      epoch := .present recoveredEpoch
      blobs := [changed.blob] })
    let t := (ensureRecoveryArtifacts .ideal site recoveredEpoch e).2
    let head := t.node.store.snapshots.headD (f.snapshot .ideal)
    let manifest := (finalManifest .ideal site recoveredEpoch head [changed]).toOption.getD head
    let fence : SnapshotCommitFence :=
      ⟨recoveredEpoch.epochNumber, recoveredEpoch.fencingToken, some head⟩
    let u := (commitSnapshot .ideal (some fence) manifest t).2
    ensureRecoveryArtifacts .ideal site recoveredEpoch e = (.ok (), t) ∧ FencedCommit .ideal t u ∧
      (ensureRecoveryArtifacts .ideal site recoveredEpoch u).1 = .error (.message
        "latest snapshot conflicts with the accepted recovery epoch") ∧
      Input.tick.fatal = true := by
  refine ⟨run_of_result (by decide +kernel), ⟨_, _, run_of_result ?_⟩, by decide +kernel, rfl⟩
  decide +kernel

end SwarmCraft
