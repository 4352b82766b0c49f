import SwarmCraft.Refinement.Artifacts
import SwarmCraft.System.Genesis

/-!
# Hosting again after a crash

The start of a hosted session reads the head, the epoch, the sleep record and the
membership record, and demands exact relations between them. The start itself and the
end of a session advance these files one after another. This module says on which of the
states in between the next start succeeds.
-/

namespace SwarmCraft

open Checked Effect
open Founding (first numbered)

variable {C : Crypto} {site : Site} {epoch : EpochRecordV1} {latest : SnapshotManifestV1} {e t : Exec}

/-! ## The artifacts of the accepted epoch -/

/-- The head and the membership record that the authority of an epoch accepts. -/
structure Store.ArtifactsFit (C : Crypto) (site : Site) (epochNumber : Nat) (baseStateHash : Hash32)
    (latest : SnapshotManifestV1) (store : Store) : Prop where
  head : HeadFits C site epochNumber baseStateHash latest
  membership : ∀ membership, loadMembershipRecord site.world store = .ok membership →
    RecordFits C site epochNumber membership

/-- A head that can be hosted: it is well formed, its blobs verify, and no stored snapshot is
numbered higher. -/
structure Store.HeadReady (C : Crypto) (latest : SnapshotManifestV1) (store : Store) : Prop where
  valid : latest.validateSemantics C = .ok ()
  verified : verifySnapshot C store latest = .ok ()
  highest : ∀ stored ∈ store.snapshots, stored.snapshotNumber ≤ latest.snapshotNumber

theorem ensureAuthorityArtifacts_epoch (h : ensureAuthorityArtifacts C site epoch e = (.ok (), t)) :
    t.node.store.epoch = e.node.store.epoch :=
  content_of_run h .epoch (by decide)

/-- The artifacts of the accepted epoch of the local peer. -/
theorem ensureAuthorityArtifacts_returns (hhead : latestSnapshot e.node.store = .ok (some latest))
    (hready : e.node.store.HeadReady C latest)
    (hepoch : loadEpochRecord site.world e.node.store = .ok epoch)
    (hpeer : epoch.authorityPeerId = site.peer C)
    (hkey : epoch.authorityPublicKey = site.identity.publicKey) :
    (∃ t, ensureAuthorityArtifacts C site epoch e = (.ok (), t)) ↔
      e.node.store.ArtifactsFit C site epoch.epochNumber epoch.baseStateHash latest := by
  have hworld := (loadEpochRecord_eq_ok.mp hepoch).2.1
  rw [← hworld] at hepoch
  have hsnapshot := @ensurePromotedSnapshot_returns C site epoch authorityArtifactTexts e latest
    hhead hready.valid hready.verified hready.highest hepoch hpeer hkey
  constructor
  · rintro ⟨t, h⟩
    obtain ⟨_, u, hpromoted, h⟩ := run_bind.mp h
    refine ⟨hsnapshot.mp ⟨u, hpromoted⟩, fun membership hmembership => ?_⟩
    obtain ⟨hsameEpoch, hsameMembership⟩ := ensurePromotedSnapshot_keeps hpromoted
    obtain ⟨_, _, hread, h⟩ := run_bind.mp h
    obtain ⟨rfl, rfl⟩ := run_readStore.mp hread
    rw [← hworld, loadMembershipRecord, ← hsameMembership, ← loadMembershipRecord] at hmembership
    rw [loadEpochRecord, ← hsameEpoch, ← loadEpochRecord] at hepoch
    rw [hmembership] at h
    exact (ensurePromotedMembership_returns hmembership hepoch hpeer hkey).mp ⟨t, h⟩
  · intro hfit
    obtain ⟨u, hpromoted⟩ := hsnapshot.mpr hfit.head
    obtain ⟨hsameEpoch, hsameMembership⟩ := ensurePromotedSnapshot_keeps hpromoted
    unfold ensureAuthorityArtifacts
    rw [bind_of_run hpromoted]
    change ∃ t, (onSome (optional (loadMembershipRecord epoch.worldId u.node.store))
      (ensurePromotedMembership C site authorityArtifactTexts epoch) : Daemon Unit) u = (.ok (), t)
    cases hmembership : loadMembershipRecord epoch.worldId u.node.store with
    | error _ => exact ⟨u, rfl⟩
    | ok membership =>
      have hload := hmembership
      rw [hworld, loadMembershipRecord, hsameMembership, ← loadMembershipRecord] at hload
      rw [loadEpochRecord, ← hsameEpoch, ← loadEpochRecord] at hepoch
      exact (ensurePromotedMembership_returns hmembership hepoch hpeer hkey).mpr
        (hfit.membership membership hload)

/-! ## Preparing the authority epoch -/

/-- The local peer holds the stored epoch record. -/
def Store.HeldLocally (C : Crypto) (site : Site) (store : Store) : Prop :=
  ∃ epoch, loadEpochRecord site.world store = .ok epoch ∧ epoch.authorityPeerId = site.peer C ∧
    epoch.authorityPublicKey = site.identity.publicKey

/-- The states in which a hosted session can start on the given head. -/
inductive Store.Resumable (C : Crypto) (site : Site) (latest : SnapshotManifestV1) (store : Store) :
    Prop where
  | asleep (record : SleepRecordV1) (previous : EpochRecordV1)
      (hsleep : loadSleepRecordFailClosed C site.world store = .ok (some record))
      (hhead : record.latestSnapshotHash = latest.manifestHash C)
      (hepoch : loadEpochRecord site.world store = .ok previous)
      (hnumber : previous.epochNumber < u64Max) (htoken : previous.fencingToken < u64Max)
      (hfit : store.ArtifactsFit C site (previous.epochNumber + 1) latest.stateRoot latest)
  | awake (epoch : EpochRecordV1)
      (hsleep : loadSleepRecordFailClosed C site.world store = .ok none)
      (hepoch : loadEpochRecord site.world store = .ok epoch)
      (hpeer : epoch.authorityPeerId = site.peer C)
      (hkey : epoch.authorityPublicKey = site.identity.publicKey)
      (hfit : store.ArtifactsFit C site epoch.epochNumber epoch.baseStateHash latest)
  | first (hsleep : loadSleepRecordFailClosed C site.world store = .ok none)
      (habsent : store.epoch = .absent) (hpeer : latest.authorityPeerId = site.peer C)
      (hkey : latest.authorityPublicKey = site.identity.publicKey)

/-- The branch of a world that is awake and has a record. -/
theorem prepareAwakeEpoch_accepted (hhead : latestSnapshot e.node.store = .ok (some latest))
    (hready : e.node.store.HeadReady C latest)
    (hepoch : loadEpochRecord site.world e.node.store = .ok epoch) :
    (∃ t, prepareAwakeEpoch C site latest e = (.ok (), t) ∧ t.node.store.HeldLocally C site) ↔
      epoch.authorityPeerId = site.peer C ∧
      epoch.authorityPublicKey = site.identity.publicKey ∧
      e.node.store.ArtifactsFit C site epoch.epochNumber epoch.baseStateHash latest := by
  have hrun : prepareAwakeEpoch C site latest e =
      ((do
        check (guardMessage (epoch.authorityPeerId = site.peer C ∧
            epoch.authorityPublicKey = site.identity.publicKey)
          "local peer does not hold the accepted authority epoch")
        ensureAuthorityArtifacts C site epoch) : Daemon Unit) e := by
    unfold prepareAwakeEpoch
    rw [bind_of_run (run_readStore.mpr ⟨rfl, rfl⟩), hepoch]
  rw [hrun]
  constructor
  · rintro ⟨t, h, _⟩
    obtain ⟨_, _, hguard, h⟩ := run_bind.mp h
    obtain ⟨hmine, rfl⟩ := run_check.mp hguard
    obtain ⟨hpeer, hkey⟩ := guardMessage_eq_ok.mp hmine
    exact ⟨hpeer, hkey, (ensureAuthorityArtifacts_returns hhead hready hepoch hpeer hkey).mp ⟨t, h⟩⟩
  · rintro ⟨hpeer, hkey, hfit⟩
    obtain ⟨t, h⟩ := (ensureAuthorityArtifacts_returns hhead hready hepoch hpeer hkey).mpr hfit
    have hguard : guardMessage (epoch.authorityPeerId = site.peer C ∧
        epoch.authorityPublicKey = site.identity.publicKey)
        "local peer does not hold the accepted authority epoch" = .ok () :=
      guardMessage_eq_ok.mpr ⟨hpeer, hkey⟩
    rw [check_bind hguard]
    refine ⟨t, h, epoch, ?_, hpeer, hkey⟩
    rw [loadEpochRecord, ensureAuthorityArtifacts_epoch h]
    exact hepoch

/-- The branch of a world that is awake and whose record cannot be loaded. -/
theorem prepareAwakeEpoch_first {error : StorageError}
    (hepoch : loadEpochRecord site.world e.node.store = .error error) :
    (∃ t, prepareAwakeEpoch C site latest e = (.ok (), t) ∧ t.node.store.HeldLocally C site) ↔
      e.node.store.epoch = .absent ∧ latest.authorityPeerId = site.peer C ∧
      latest.authorityPublicKey = site.identity.publicKey := by
  let record := initialAuthorityRecord C site latest
  have hrun : prepareAwakeEpoch C site latest e =
      (if latest.authorityPeerId = site.peer C ∧
          latest.authorityPublicKey = site.identity.publicKey then
        save [.storedEpoch record] (saveEpochRecord record)
      else check (.error (.storage error)) : Daemon Unit) e := by
    unfold prepareAwakeEpoch
    rw [bind_of_run (run_readStore.mpr ⟨rfl, rfl⟩), hepoch]
  rw [hrun]
  constructor
  · rintro ⟨t, h, _⟩
    by_cases hmine : latest.authorityPeerId = site.peer C ∧
        latest.authorityPublicKey = site.identity.publicKey
    · rw [if_pos hmine] at h
      obtain ⟨store, hsaved, _⟩ := run_save.mp h
      -- A file that is there is loaded first, and this one cannot be loaded.
      cases hfile : e.node.store.epoch with
      | absent => exact ⟨rfl, hmine⟩
      | unreadable => simp [saveEpochRecord, hfile, DurableFile.exists, loadEpochRecord] at hsaved
      | present existing =>
        have hloaded : loadEpochRecord site.world e.node.store = .ok existing :=
          saveEpochRecord_loaded hsaved hfile
        rw [hloaded] at hepoch
        cases hepoch
    · rw [if_neg hmine] at h
      cases (run_check.mp h).1
  · rintro ⟨habsent, hmine⟩
    have hsaved : saveEpochRecord record e.node.store =
        .ok { e.node.store with epoch := .present record } := by
      simp only [saveEpochRecord, bind_eq_ok, asStorage, mapError_eq_ok, habsent, DurableFile.exists]
      exact ⟨(), rfl, rfl⟩
    rw [if_pos hmine]
    refine ⟨_, run_save.mpr ⟨_, hsaved, rfl⟩, record, ?_, rfl, rfl⟩
    exact loadEpochRecord_eq_ok.mpr ⟨rfl, rfl, rfl⟩

theorem soloWakeRecord_fields {record : SleepRecordV1} {previous next : EpochRecordV1} {store : Store}
    (hepoch : loadEpochRecord site.world store = .ok previous)
    (h : soloWakeRecord C site record latest store = .ok next) :
    record.latestSnapshotHash = latest.manifestHash C ∧ previous.epochNumber < u64Max ∧
      previous.fencingToken < u64Max ∧ next.worldId = site.world ∧
      next.epochNumber = previous.epochNumber + 1 ∧
      next.fencingToken = previous.fencingToken + 1 ∧ next.baseStateHash = latest.stateRoot ∧
      next.authorityPeerId = site.peer C ∧ next.authorityPublicKey = site.identity.publicKey ∧
      next.validateSemantics = .ok () := by
  simp only [soloWakeRecord, bind_eq_ok, guardMessage_eq_ok, ofStorage_eq_ok, required_eq_ok,
    pure_eq_ok, hepoch, Except.ok.injEq, checkedSucc_eq_some] at h
  obtain ⟨_, hhead, _, rfl, _, ⟨hnumber, rfl⟩, _, ⟨htoken, rfl⟩, rfl⟩ := h
  exact ⟨hhead, hnumber, htoken, rfl, rfl, rfl, rfl, rfl, rfl, rfl⟩

/-- The branch of a world that sleeps. -/
theorem prepareAuthorityEpoch_asleep {record : SleepRecordV1}
    (hhead : latestSnapshot e.node.store = .ok (some latest))
    (hready : e.node.store.HeadReady C latest)
    (heligible : hostEligibility C site e.node.store = .ok ())
    (hsleep : loadSleepRecordFailClosed C site.world e.node.store = .ok (some record)) :
    (∃ t, prepareAuthorityEpoch C site latest e = (.ok (), t) ∧ t.node.store.HeldLocally C site) ↔
      ∃ previous, record.latestSnapshotHash = latest.manifestHash C ∧
        loadEpochRecord site.world e.node.store = .ok previous ∧
        previous.epochNumber < u64Max ∧ previous.fencingToken < u64Max ∧
        e.node.store.ArtifactsFit C site (previous.epochNumber + 1) latest.stateRoot latest := by
  have hrun : prepareAuthorityEpoch C site latest e =
      ((do
        let next ← check (soloWakeRecord C site record latest e.node.store)
        save [.storedEpoch next] (saveEpochRecord next)
        write clearSleepRecord
        ensureAuthorityArtifacts C site next) : Daemon Unit) e := by
    unfold prepareAuthorityEpoch
    rw [bind_of_run (run_readStore.mpr ⟨rfl, rfl⟩), check_bind heligible, check_bind hsleep]
  rw [hrun]
  -- What the artifacts need is read from the state after the two writes, which keep the head and
  -- the membership record.
  have hartifacts {previous next : EpochRecordV1}
      (hepoch : loadEpochRecord site.world e.node.store = .ok previous)
      (hnext : soloWakeRecord C site record latest e.node.store = .ok next) :
      let woken := (e.written { e.node.store with epoch := .present next } [.storedEpoch next]).written
        { e.node.store with epoch := .present next, sleep := .absent } []
      ((∃ t, ensureAuthorityArtifacts C site next woken = (.ok (), t)) ↔
        e.node.store.ArtifactsFit C site (previous.epochNumber + 1) latest.stateRoot latest) ∧
      saveEpochRecord next e.node.store = .ok { e.node.store with epoch := .present next } := by
    intro woken
    obtain ⟨_, _, _, hworld, hnumber, htoken, hbase, hpeer, hkey, hvalid⟩ :=
      soloWakeRecord_fields hepoch hnext
    have hsame : latestSnapshot woken.node.store = .ok (some latest) := hhead
    have hwoken : woken.node.store.HeadReady C latest :=
      ⟨hready.valid, hready.verified, hready.highest⟩
    have hload : loadEpochRecord site.world woken.node.store = .ok next :=
      loadEpochRecord_eq_ok.mpr ⟨rfl, hworld, hvalid⟩
    constructor
    · rw [ensureAuthorityArtifacts_returns hsame hwoken hload hpeer hkey, hnumber, hbase]
      exact ⟨fun h => ⟨h.head, h.membership⟩, fun h => ⟨h.head, h.membership⟩⟩
    · apply saveEpochRecord_advance hvalid (hworld ▸ hepoch)
      rw [AuthorityGeneration.lt_iff]
      exact .inl (by simp only [EpochRecordV1.generation]; omega)
  constructor
  · rintro ⟨t, h, _⟩
    obtain ⟨next, _, hcheck, h⟩ := run_bind.mp h
    obtain ⟨hnext, rfl⟩ := run_check.mp hcheck
    obtain ⟨_, _, previous, hepoch, _⟩ := soloWakeRecord_eq_ok hnext
    obtain ⟨hcurrent, hnumber, htoken, _⟩ := soloWakeRecord_fields hepoch hnext
    obtain ⟨hfit, hsaved⟩ := hartifacts hepoch hnext
    rw [save_bind hsaved] at h
    exact ⟨previous, hcurrent, hepoch, hnumber, htoken, hfit.mp ⟨t, h⟩⟩
  · rintro ⟨previous, hcurrent, hepoch, hnumber, htoken, hfit⟩
    obtain ⟨next, hnext⟩ : ∃ next, soloWakeRecord C site record latest e.node.store = .ok next := by
      simp only [soloWakeRecord, bind_eq_ok, guardMessage_eq_ok, ofStorage_eq_ok, required_eq_ok,
        pure_eq_ok, checkedSucc_eq_some]
      exact ⟨_, (), hcurrent, previous, hepoch, _, ⟨hnumber, rfl⟩, _, ⟨htoken, rfl⟩, rfl⟩
    obtain ⟨hreturns, hsaved⟩ := hartifacts hepoch hnext
    obtain ⟨t, h⟩ := hreturns.mpr hfit
    obtain ⟨_, _, _, hworld, _, _, _, hpeer, hkey, hvalid⟩ := soloWakeRecord_fields hepoch hnext
    refine ⟨t, ?_, next, ?_, hpeer, hkey⟩
    · rw [check_bind hnext, save_bind hsaved]
      exact h
    · rw [loadEpochRecord, ensureAuthorityArtifacts_epoch h]
      exact loadEpochRecord_eq_ok.mpr ⟨rfl, hworld, hvalid⟩

/-- The start of a session whose sleep record can be read. -/
theorem prepareAuthorityEpoch_awake (heligible : hostEligibility C site e.node.store = .ok ())
    (hsleep : loadSleepRecordFailClosed C site.world e.node.store = .ok none) :
    prepareAuthorityEpoch C site latest e = prepareAwakeEpoch C site latest e := by
  unfold prepareAuthorityEpoch
  rw [bind_of_run (run_readStore.mpr ⟨rfl, rfl⟩), check_bind heligible, check_bind hsleep]

/-- An unreadable sleep record stops the start of a session. -/
theorem prepareAuthorityEpoch_unreadable {error : DaemonError}
    (hsleep : loadSleepRecordFailClosed C site.world e.node.store = .error error) :
    prepareAuthorityEpoch C site latest e ≠ (.ok (), t) := by
  intro h
  obtain ⟨_, _, hread, h⟩ := run_bind.mp h
  obtain ⟨rfl, rfl⟩ := run_readStore.mp hread
  obtain ⟨_, _, heligible, h⟩ := run_bind.mp h
  obtain ⟨-, rfl⟩ := run_check.mp heligible
  obtain ⟨_, _, hcheck, _⟩ := run_bind.mp h
  rw [hsleep] at hcheck
  cases (run_check.mp hcheck).1

/-- The start of a session returns with a record of the local peer exactly in the resumable
states. -/
theorem prepareAuthorityEpoch_resumed (hhead : latestSnapshot e.node.store = .ok (some latest))
    (hready : e.node.store.HeadReady C latest)
    (heligible : hostEligibility C site e.node.store = .ok ()) :
    (∃ t, prepareAuthorityEpoch C site latest e = (.ok (), t) ∧
      t.node.store.HeldLocally C site) ↔ e.node.store.Resumable C site latest := by
  constructor
  · rintro ⟨t, h, hheld⟩
    cases hsleep : loadSleepRecordFailClosed C site.world e.node.store with
    | error error => exact absurd h (prepareAuthorityEpoch_unreadable hsleep)
    | ok found =>
      cases found with
      | some record =>
        obtain ⟨previous, hcurrent, hepoch, hnumber, htoken, hfit⟩ :=
          (prepareAuthorityEpoch_asleep hhead hready heligible hsleep).mp ⟨t, h, hheld⟩
        exact .asleep record previous hsleep hcurrent hepoch hnumber htoken hfit
      | none =>
        rw [prepareAuthorityEpoch_awake heligible hsleep] at h
        cases hepoch : loadEpochRecord site.world e.node.store with
        | ok epoch =>
          obtain ⟨hpeer, hkey, hfit⟩ :=
            (prepareAwakeEpoch_accepted hhead hready hepoch).mp ⟨t, h, hheld⟩
          exact .awake epoch hsleep hepoch hpeer hkey hfit
        | error error =>
          obtain ⟨habsent, hpeer, hkey⟩ := (prepareAwakeEpoch_first hepoch).mp ⟨t, h, hheld⟩
          exact .first hsleep habsent hpeer hkey
  · intro h
    cases h with
    | asleep record previous hsleep hcurrent hepoch hnumber htoken hfit =>
      exact (prepareAuthorityEpoch_asleep hhead hready heligible hsleep).mpr
        ⟨previous, hcurrent, hepoch, hnumber, htoken, hfit⟩
    | awake epoch hsleep hepoch hpeer hkey hfit =>
      rw [prepareAuthorityEpoch_awake heligible hsleep]
      exact (prepareAwakeEpoch_accepted hhead hready hepoch).mpr ⟨hpeer, hkey, hfit⟩
    | first hsleep habsent hpeer hkey =>
      have hepoch : loadEpochRecord site.world e.node.store = .error StorageError.notFound := by
        rw [loadEpochRecord, habsent]
        rfl
      rw [prepareAuthorityEpoch_awake heligible hsleep]
      exact (prepareAwakeEpoch_first hepoch).mpr ⟨habsent, hpeer, hkey⟩

/-! ## The states that a crash leaves -/

/-- The head of the history, if there is one, can be hosted. -/
def Store.Sound (C : Crypto) (store : Store) : Prop :=
  ∀ latest, store.snapshots.head? = some latest → store.HeadReady C latest

/-- More blobs verify more snapshots. -/
theorem Store.HeadReady.mono {store store' : Store} (h : store.HeadReady C latest)
    (hsnapshots : store'.snapshots = store.snapshots) (hblobs : store.blobs ⊆ store'.blobs) :
    store'.HeadReady C latest := by
  have hverified := h.verified
  refine ⟨h.valid, ?_, hsnapshots ▸ h.highest⟩
  simp only [verifySnapshot, hasCompleteBlob, bind_eq_ok, ensure_eq_ok, forM_eq_ok,
    List.contains_iff_mem] at hverified ⊢
  obtain ⟨_, hversion, _, hroot, hentries⟩ := hverified
  exact ⟨(), hversion, (), hroot, fun entry hentry => hblobs (hentries entry hentry)⟩

/-- A well-formed snapshot keeps the history sound, at both writes of its commit. -/
theorem sound_commitSnapshot {fence : Option SnapshotCommitFence} {manifest : SnapshotManifestV1}
    (hvalid : manifest.validateSemantics C = .ok ()) :
    Always (Throughout (Store.Sound C)) (commitSnapshot C fence manifest) := by
  intro e
  refine along_readStore (along_check fun committed hcommitted => ?_)
  refine along_onlyIf fun _ => along_save_then fun begun hbegin => ?_
  obtain ⟨rfl, hdirect⟩ := beginSnapshotCommit_eq_ok hbegin
  let begun := e.written { e.node.store with commitPending := true } []
  have hbegun : Throughout (Store.Sound C) e begun :=
    throughout_written fun he latest hlatest => (he latest hlatest).mono rfl (List.Subset.refl _)
  apply IsTrans.trans e begun _ hbegun
  apply throughout_written
  intro hsound latest hlatest
  obtain rfl : manifest = latest := Option.some.inj hlatest
  simp only [ofStorage_eq_ok, snapshotCommitted, bind_eq_ok] at hcommitted
  obtain ⟨_, hverified, _⟩ := hcommitted
  refine ⟨hvalid, hverified, ?_⟩
  intro stored hstored
  rcases List.mem_cons.mp hstored with rfl | hold
  · exact le_refl _
  -- The old head is the highest of the old history, and the new one is its successor.
  cases hhead : e.node.store.snapshots.head? with
  | none =>
    rw [List.head?_eq_none_iff] at hhead
    have hempty : stored ∈ e.node.store.snapshots := hold
    rw [hhead] at hempty
    cases hempty
  | some head =>
    have hle := (hsound head hhead).highest stored hold
    rw [hhead] at hdirect
    simp only [validateDirectExtension, bind_eq_ok, required_eq_ok, ensure_eq_ok,
      checkedSucc_eq_some] at hdirect
    obtain ⟨_, ⟨_, rfl⟩, _, _, hnumber, _⟩ := hdirect
    omega

/-- A history stays sound while its files are not written. -/
theorem sound_of_touches {α : Type} {m : Daemon α} {files : List File} [Touches .plain files m]
    (h : ∀ file ∈ [File.snapshots, .blobs], file ∉ files) :
    Always (Throughout (Store.Sound C)) m := by
  suffices hreads : Store.Reads [.snapshots, .blobs] (Store.Sound C) from
    throughout_of_touches hreads h
  intro store store' hsame hsound latest hlatest
  have hstored : store'.snapshots = store.snapshots := hsame .snapshots (by simp)
  have hreadable : store'.blobs = store.blobs := hsame .blobs (by simp)
  rw [hstored] at hlatest
  exact (hsound latest hlatest).mono hstored (hreadable ▸ List.Subset.refl _)

/-- A signed snapshot is well formed. -/
theorem signSnapshot_valid {identity : PeerIdentity} {manifest signed : SnapshotManifestV1}
    (h : signSnapshot C identity manifest = .ok signed) : signed.validateSemantics C = .ok () := by
  simp only [signSnapshot, bind_eq_ok, mapError_eq_ok, pure_eq_ok] at h
  obtain ⟨_, hvalid, rfl⟩ := h
  exact hvalid

/-- The artifacts keep the history sound. -/
theorem sound_ensureAuthorityArtifacts (epoch : EpochRecordV1) :
    Always (Throughout (Store.Sound C)) (ensureAuthorityArtifacts C site epoch) := by
  apply Always.bind
  · apply always_readStore
    intro store
    refine always_check fun _ _ => always_check fun latest _ => ?_
    split
    · apply always_check
      intro promoted hpromoted
      simp only [promotedSnapshot, bind_eq_ok, ofCore_eq_ok] at hpromoted
      obtain ⟨_, _, _, _, _, _, hsigned⟩ := hpromoted
      exact sound_commitSnapshot (signSnapshot_valid hsigned)
    · exact .lift _
  · exact fun _ => sound_of_touches (by decide)

/-- Starting a session keeps the history sound. -/
theorem sound_hostWorld : Always (Throughout (Store.Sound C)) (hostWorld C site) := by
  refine always_readStore fun _ => always_check fun latest _ => always_readStore fun _ => ?_
  refine always_check fun _ _ => always_check fun sleep _ => ?_
  cases sleep with
  | some record =>
    refine always_check fun next _ => .bind (sound_of_touches (by decide)) fun _ => ?_
    exact .bind (sound_of_touches (by decide)) fun _ => sound_ensureAuthorityArtifacts next
  | none =>
    refine always_readStore fun _ => ?_
    split
    · exact always_check fun _ _ => sound_ensureAuthorityArtifacts _
    · exact sound_of_touches (by decide)

/-- Ending a session keeps the history sound. -/
theorem sound_finishSession (entries : List SnapshotEntry) (disposition : RuntimeDisposition) :
    Always (Throughout (Store.Sound C)) (finishSession C site entries disposition) := by
  refine always_readStore fun _ => always_check fun epoch _ => always_check fun _ _ => ?_
  refine always_check fun _ _ => always_check fun latest _ => .bind ?_ fun _ => ?_
  · intro e
    apply throughout_written
    intro hsound latest hlatest
    exact (hsound latest hlatest).mono rfl fun blob hblob => List.mem_append_right _ hblob
  · apply always_check
    intro manifest hmanifest
    simp only [finalManifest, localSnapshot, bind_eq_ok, ofCore_eq_ok] at hmanifest
    obtain ⟨_, _, _, _, hsigned⟩ := hmanifest
    exact .bind (sound_commitSnapshot (signSnapshot_valid hsigned))
      fun _ => sound_of_touches (by decide)

/-- The durable states that a crash in the start or in the end of a hosted session leaves: the one
before its first write, and the one after each of its writes. -/
def CrashedHosting (C : Crypto) (site : Site) (node : Node) (store : Store) : Prop :=
  store = node.store ∨ ∃ order : Command,
    (order = .host ∨ ∃ entries disposition, order = .finish entries disposition) ∧
    ∃ point ∈ (runCommand C site order (Exec.start node)).2.trail, store = point.1

/-- A crash keeps the history sound and the descriptor. -/
theorem CrashedHosting.keeps {node : Node} {store : Store} (h : CrashedHosting C site node store)
    (hsound : node.store.Sound C) : store.Sound C ∧ store.descriptor = node.store.descriptor := by
  rcases h with rfl | ⟨order, horder, point, hpoint, rfl⟩
  · exact ⟨hsound, rfl⟩
  have hkeeps : Always (Throughout (Store.Sound C)) (runCommand C site order) ∧
      .descriptor ∉ order.footprint := by
    rcases horder with rfl | ⟨entries, disposition, rfl⟩
    · exact ⟨sound_hostWorld, by decide⟩
    · exact ⟨sound_finishSession entries disposition, by simp [Command.footprint]⟩
  constructor
  · exact Throughout.trail (hkeeps.1 (Exec.start node)) hsound point hpoint
  · rcases (writes (runCommand C site order) (Exec.start node)).trail point hpoint with hold | happart
    · cases hold
    · exact happart .descriptor hkeeps.2

/-- After a crash in the start or in the end of a hosted session, the next start on the head that
was left returns with a record of the local peer exactly in the resumable states. -/
theorem hosting_resumed {node restarted : Node} (hsound : node.store.Sound C)
    (heligible : hostEligibility C site node.store = .ok ())
    (hcrash : CrashedHosting C site node restarted.store)
    (hhead : latestSnapshot restarted.store = .ok (some latest)) :
    (∃ t, prepareAuthorityEpoch C site latest (Exec.start restarted) = (.ok (), t) ∧
      t.node.store.HeldLocally C site) ↔ restarted.store.Resumable C site latest := by
  obtain ⟨hleft, hdescriptor⟩ := hcrash.keeps hsound
  have hready : restarted.store.HeadReady C latest := by
    have hstored := hhead
    simp only [latestSnapshot, bind_eq_ok, pure_eq_ok] at hstored
    obtain ⟨_, _, hlatest⟩ := hstored
    exact hleft latest hlatest
  rw [hostEligibility, loadWorldDescriptor, ← hdescriptor, ← loadWorldDescriptor,
    ← hostEligibility] at heligible
  exact @prepareAuthorityEpoch_resumed C site latest (Exec.start restarted) hhead hready heligible

/-- The first start of a world, crashed after it stored its record, can be repeated. -/
theorem hosting_resumed_first :
    let f := numbered 1
    let site : Site := ⟨f.world .ideal, ⟨f.authority⟩, 0⟩
    let record := initialAuthorityRecord .ideal site (f.snapshot .ideal)
    let node := f.node .ideal { f.store .ideal with epoch := .absent }
    let restarted := { node with store := { node.store with epoch := .present record } }
    CrashedHosting .ideal site node restarted.store ∧
      ∃ t, prepareAuthorityEpoch .ideal site (f.snapshot .ideal) (Exec.start restarted) = (.ok (), t) ∧
        t.node.store.HeldLocally .ideal site := by
  intro f site record node restarted
  have hsound : node.store.Sound .ideal := by
    intro latest hlatest
    obtain rfl : f.snapshot .ideal = latest := Option.some.inj hlatest
    exact ⟨by decide +kernel, by decide +kernel, by decide +kernel⟩
  have hcrash : CrashedHosting .ideal site node restarted.store :=
    .inr ⟨.host, .inl rfl, (restarted.store, _), List.mem_singleton_self _, rfl⟩
  have hfit : restarted.store.ArtifactsFit .ideal site record.epochNumber record.baseStateHash
      (f.snapshot .ideal) := by
    refine ⟨.own (by decide +kernel) (by decide +kernel) (by decide +kernel) (by decide +kernel), ?_⟩
    intro membership hmembership
    obtain rfl : f.membership .ideal = membership := by
      have hstored := (loadMembershipRecord_eq_ok.mp hmembership).1
      exact DurableFile.present.inj hstored
    exact .own (by decide +kernel) (by decide +kernel) (by decide +kernel)
  have hawake : restarted.store.Resumable .ideal site (f.snapshot .ideal) :=
    .awake record (by decide +kernel) (by decide +kernel) rfl rfl hfit
  exact ⟨hcrash, (hosting_resumed hsound (by decide +kernel) hcrash (by decide +kernel)).mpr hawake⟩

/-- A created world is hosted and its session ends, where the files changed. The crash after the
last snapshot and before the sleep record, and the crash of the next start after the new epoch and
before the sleep record is removed, leave states in which no start succeeds. -/
theorem hosting_not_resumed :
    let f := numbered 1
    let changed : SnapshotEntry := ⟨"level.dat", ⟨⟨.atom 1⟩, 1, 1, .raw⟩⟩
    let finish : Command := .finish [changed] .sleep
    let hosted := (f.created .ideal).play .ideal f.fleet
      [fun _ => .input first (.command .host)]
    let committed := hosted.play .ideal f.fleet [fun _ => .cut first (.command finish) 2]
    let asleep := hosted.play .ideal f.fleet [fun _ => .input first (.command finish)]
    let woken := asleep.play .ideal f.fleet [fun _ => .cut first (.command .host) 0]
    (committed.handle .ideal f.fleet first (.command .host)).1 = .error (.message
        "latest snapshot conflicts with the accepted authority epoch") ∧
      (asleep.handle .ideal f.fleet first (.command .host)).1 = .ok () ∧
      (woken.handle .ideal f.fleet first (.command .host)).1 = .error (.message
        "accepted authority epoch does not directly promote the latest canonical snapshot") := by
  refine ⟨?_, ?_, ?_⟩
  all_goals decide +kernel

end SwarmCraft
