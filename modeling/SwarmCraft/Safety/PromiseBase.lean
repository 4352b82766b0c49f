import SwarmCraft.Safety.Supersession

/-!
# The base of a stored recovery promise

A promise is made on the accepted epoch, the canonical head and the stored membership
record. What moves one of them and knows of promises, a recovery, also clears the promise.
Everything else that moves one of them leaves the promise behind, on a base that is gone.
-/

namespace SwarmCraft

open Checked Effect Transition Footprint

variable {C : Crypto} {F : Fleet C} {s t : System} {site : Site} {channel : Channel} {e : Exec}
variable {store : Store} {record : EpochRecordV1} {attempt : RecoveryAttempt} {peer : PeerId}
variable {α : Type} {files : List File} {events : List Event} {ballot : RecoveryBallotV1}
  {wake : Bool} {certificate : RecoveryCertificateV1} {descriptor : WorldDescriptorV1}
  {epoch : EpochRecordV1} {cause : Input} {sender : PeerId} {number : Nat} {message : WireRequest}

/-! ## Promises on the stored base -/

/-- A ballot is on the base that the store holds. -/
structure OnStoredBase (C : Crypto) (store : Store) (ballot : RecoveryBallotV1) : Prop where
  epoch : ∃ record, store.epoch = .present record ∧ ballot.baseEpoch = record.epochNumber ∧
    ballot.baseFencingToken = record.fencingToken
  head : ∃ head, store.snapshots.head? = some head ∧
    ballot.baseSnapshotHash = head.manifestHash C
  membership : ∃ record, store.membership = .present record ∧
    ballot.membershipHash = record.recordHash C

/-- A stored promise is on the base that the store holds. -/
def Store.PromiseOnBase (C : Crypto) (store : Store) : Prop :=
  ∀ promise, store.recoveryPromise = .present promise → OnStoredBase C store promise.ballot

/-- A stored promise can be read, is about the world and is on the base that the store holds. -/
structure Store.PromiseSound (C : Crypto) (world : WorldId) (store : Store) : Prop where
  intact : PromiseIntact C store.recoveryPromise
  world : ∀ promise, store.recoveryPromise = .present promise → promise.ballot.worldId = world
  onBase : store.PromiseOnBase C

theorem Store.reads_promiseSound (C : Crypto) (world : WorldId) :
    Store.Reads [.epoch, .snapshots, .membership, .recoveryPromise]
      (Store.PromiseSound C world) := by
  intro a b hsame ha
  have hepoch : b.epoch = a.epoch := hsame .epoch (by decide)
  have hhead : b.snapshots = a.snapshots := hsame .snapshots (by decide)
  have hmembership : b.membership = a.membership := hsame .membership (by decide)
  have hpromise : b.recoveryPromise = a.recoveryPromise := hsame .recoveryPromise (by decide)
  refine ⟨hpromise ▸ ha.intact, fun promise h => ha.world promise (hpromise ▸ h), ?_⟩
  intro promise h
  obtain ⟨hbase, hlatest, hrecord⟩ := ha.onBase promise (hpromise ▸ h)
  exact ⟨hepoch ▸ hbase, hhead ▸ hlatest, hmembership ▸ hrecord⟩

/-- Where no promise is stored there is nothing to say. -/
theorem Store.promiseSound_of_absent (world : WorldId)
    (h : store.recoveryPromise = .absent) : store.PromiseSound C world := by
  refine ⟨?_, fun promise hpromise => ?_, fun promise hpromise => ?_⟩
  · rw [h]
    trivial
  · rw [h] at hpromise
    cases hpromise
  · rw [h] at hpromise
    cases hpromise

/-- The absence of a promise is about one file. -/
theorem Store.reads_noPromise :
    Store.Reads [.recoveryPromise] fun store => store.recoveryPromise = .absent := by
  intro a b hsame ha
  have hpromise : b.recoveryPromise = a.recoveryPromise := hsame .recoveryPromise (by decide)
  exact hpromise.trans ha

/-- A handler keeps every stored promise on the stored base. -/
abbrev KeepsPromise (C : Crypto) (site : Site) : Exec → Exec → Prop :=
  Kept fun e => e.node.store.PromiseSound C site.world

/-- What writes none of the four files keeps a promise on its base. -/
theorem keepsPromise_of_touches {m : Daemon α} [Touches .plain files m]
    (hapart : ∀ file ∈ [File.epoch, .snapshots, .membership, .recoveryPromise], file ∉ files) :
    Always (KeepsPromise C site) m :=
  kept_of_touches (Store.reads_promiseSound C site.world) hapart

/-- What does not write the promise file is harmless where no promise is stored. -/
theorem keepsPromise_of_absent {m : Daemon α}
    [Touches .plain files m] (hapart : ∀ file ∈ [File.recoveryPromise], file ∉ files)
    (habsent : e.node.store.recoveryPromise = .absent) : Along (KeepsPromise C site) m e :=
  fun _ => Store.promiseSound_of_absent _ (kept_of_touches Store.reads_noPromise hapart e habsent)

theorem keepsPromise_same (h : store = e.node.store) :
    KeepsPromise C site e (e.written store events) := by
  intro he
  subst h
  exact he

/-! ## Making and clearing a promise -/

theorem keepsPromise_promiseBallot {vote : RecoveryVoteV1}
    (hvotable : Votable C site e.node ballot wake) :
    Along (KeepsPromise C site) (promiseBallot C ballot vote wake) e := by
  refine along_saveAnswer_rel fun result store hsaved he => ?_
  have hintact := he.intact.promise hsaved
  obtain ⟨_, hresult⟩ := promiseRecoveryBallot_eq_ok hsaved
  cases result with
  | rejected round => exact hresult ▸ he
  | idempotent => exact hresult.1 ▸ he
  | accepted =>
    obtain ⟨rfl, _⟩ := hresult
    refine ⟨hintact, fun promise hpromise => ?_, fun promise hpromise => ?_⟩
    · cases hpromise
      exact hvotable.world
    · cases hpromise
      obtain ⟨current, hcurrent⟩ := hvotable.accepted
      obtain ⟨hepoch, htoken⟩ := hvotable.base.epoch current hcurrent
      obtain ⟨latest, hlatest, hhead⟩ := hvotable.base.head
      obtain ⟨record, hrecord, hhash⟩ := hvotable.base.membership
      simp only [latestSnapshot, bind_eq_ok, pure_eq_ok] at hlatest
      obtain ⟨_, _, hlatest⟩ := hlatest
      exact ⟨⟨current, (loadEpochRecord_eq_ok.mp hcurrent).1, hepoch, htoken⟩,
        ⟨latest, hlatest, hhead.symm⟩,
        ⟨record, (loadMembershipRecord_eq_ok.mp hrecord).1, hhash.symm⟩⟩

/-- Clearing a promise, or not, leaves no promise off its base. -/
theorem keepsPromise_clear (world : WorldId) (acceptedEpoch : Nat) :
    Always (KeepsPromise C site)
      (write (clearRecoveryPromiseAfterEpochAdvance C world acceptedEpoch)) := by
  intro e he
  rcases @clearRecoveryPromise_cases C world acceptedEpoch e.node.store with
    hsame | ⟨_, _, _, hcleared⟩
  · exact keepsPromise_same hsame he
  · exact Store.promiseSound_of_absent _ (congrArg Store.recoveryPromise hcleared)

/-- Where no promise is stored, none is stored after the clearing. -/
theorem clearRecoveryPromise_absent (h : store.recoveryPromise = .absent)
    (world : WorldId) (acceptedEpoch : Nat) :
    (clearRecoveryPromiseAfterEpochAdvance C world acceptedEpoch store).recoveryPromise =
      .absent := by
  rcases @clearRecoveryPromise_cases C world acceptedEpoch store with hsame | ⟨_, _, _, hcleared⟩
  · rw [hsame, h]
  · rw [hcleared]

/-- The promise on a base is cleared once the successor of the base is accepted. -/
theorem Store.PromiseSound.cleared {store' : Store} {acceptedEpoch : Nat}
    (h : store.PromiseSound C site.world)
    (hpromise : store'.recoveryPromise = store.recoveryPromise)
    (hnext : ∀ current, store.epoch = .present current → acceptedEpoch = current.epochNumber + 1) :
    (clearRecoveryPromiseAfterEpochAdvance C site.world acceptedEpoch store').recoveryPromise =
      .absent := by
  have hintact := h.intact
  cases hfile : store.recoveryPromise with
  | unreadable =>
    rw [hfile] at hintact
    cases hintact
  | absent => exact clearRecoveryPromise_absent (hpromise.trans hfile) _ _
  | present promise =>
    have hload : loadRecoveryPromise C site.world store' = .ok promise := by
      have hloaded := hintact.load hfile
      rw [h.world promise hfile] at hloaded
      rw [loadRecoveryPromise, hpromise]
      exact hloaded
    obtain ⟨current, hcurrent, hbase, _⟩ := (h.onBase promise hfile).epoch
    rw [hfile] at hintact
    have htarget := RecoveryBallotV1.targetEpoch_eq
      (RecoveryBallotV1.validateSemantics_eq_ok.mp hintact.1)
    have hepoch := hnext current hcurrent
    have hreached : ¬ acceptedEpoch < promise.ballot.targetEpoch := by omega
    simp only [clearRecoveryPromiseAfterEpochAdvance, hload]
    rw [if_neg hreached]

/-! ## Recoveries -/

/-- Accepting the successor of the accepted record, with everything that follows: the promise is
gone in the end. -/
theorem keepsPromise_advance {β : Type} {k : Unit → Daemon β} (hworld : record.worldId = site.world)
    (hnext : Extends C site e.node.store record)
    (hk : ∀ t : Exec, t.node.store.recoveryPromise = e.node.store.recoveryPromise →
      ∃ store, store.recoveryPromise = e.node.store.recoveryPromise ∧
        ((k ()).after t).node.store.recoveryPromise =
          (clearRecoveryPromiseAfterEpochAdvance C site.world record.epochNumber
            store).recoveryPromise) :
    Along (KeepsPromise C site) (save events (saveEpochRecord record) >>= k) e := by
  refine along_save_then fun store hsaved he => Store.promiseSound_of_absent _ ?_
  obtain ⟨before, hbefore, hafter⟩ := hk (e.written store events) (by
    rw [(saveEpochRecord_eq_ok hsaved).1]
    rfl)
  rw [hafter]
  refine he.cleared hbefore fun current hcurrent => (hnext current ?_).1
  have hload := saveEpochRecord_loaded hsaved hcurrent
  rw [hworld] at hload
  exact hload

theorem keepsPromise_handleRecoveryBallot (hworld : ballot.worldId = site.world) :
    Along (KeepsPromise C site) (handleRecoveryBallot C site channel ballot) e := by
  refine along_readStore (along_readRuntime (along_check fun wake hwake => ?_))
  refine along_check fun vote _ => ?_
  refine along_bind (keepsPromise_promiseBallot (votable_of_checks hworld hwake))
    fun result t _ => ?_
  split
  · exact keepsPromise_of_touches (by decide) t
  · exact keepsPromise_of_touches (by decide) t

theorem keepsPromise_handleRecoveryEpoch (hworld : record.worldId = site.world) :
    Along (KeepsPromise C site) (handleRecoveryEpoch C channel record certificate) e := by
  refine along_readStore (along_check fun _ _ => ?_)
  split
  · refine along_bind (keepsPromise_of_touches (by decide) e) fun _ t _ => Always.along ?_
    refine .bind ?_ fun _ => keepsPromise_of_touches (by decide)
    refine .bind (keepsPromise_of_touches (by decide)) fun _ => ?_
    exact .bind (keepsPromise_of_touches (by decide)) fun _ => keepsPromise_clear _ _
  · refine along_check fun _ hnew => ?_
    refine along_bind (keepsPromise_of_touches (by decide) e) fun _ t hsaved => ?_
    have hsame : SameBase e.node.store t.node.store := sameBase_of_run hsaved (by decide)
    have hnext : Extends C site t.node.store record := by
      intro current hcurrent
      rw [Accepted, hsame.loadEpochRecord] at hcurrent
      simp only [newRecoveryEpochChecks, bind_eq_ok, onSome_eq_ok, hworld] at hnew
      obtain ⟨_, hextends, _⟩ := hnew
      exact extendsEpoch_eq_ok (hextends current (optional_eq_some.mpr hcurrent))
    refine keepsPromise_advance hworld hnext fun u hu => ?_
    refine ⟨clearWorldWakeRequest (clearSleepRecord u.node.store), hu, ?_⟩
    rw [← hworld]
    rfl

section

variable (h : Attempted C site attempt e.node.store)

include h

theorem keepsPromise_ensureActiveBallot (hexpired : Overdue site attempt e.node.runtime) :
    Along (KeepsPromise C site) (ensureActiveBallot C site attempt) e := by
  refine along_ensureActiveBallot_of h fun record floor hload => ?_
  refine along_check fun ballot hballot => along_check fun vote _ => ?_
  refine along_bind (keepsPromise_promiseBallot (h.votable hexpired hload hballot))
    fun result t _ => ?_
  split
  · exact keepsPromise_of_touches (by decide) t
  · exact keepsPromise_of_touches (by decide) t

theorem keepsPromise_installRecovery :
    Along (KeepsPromise C site) (installRecovery C site attempt certificate) e := by
  refine along_bind (keepsPromise_of_touches (by decide) e) fun _ t hsaved => ?_
  refine along_check fun next hnext => ?_
  have ht := h.sameBase (sameBase_of_run hsaved (by decide))
  obtain ⟨hworld, _, _, hextends⟩ := recoveryEpochRecord_eq_ok hnext
  have hloaded := (loadEpochRecord_eq_ok.mp ht.accepted).2.1
  refine keepsPromise_advance (hworld.trans hloaded) (hextends.extends ht.accepted) fun u hu => ?_
  -- Whether the world slept or not, the promise file is as before when it is cleared.
  obtain ⟨v, hv, hpromise⟩ : ∃ v, onlyIf (attempt.wake = true) (do
        write clearSleepRecord
        write clearWorldWakeRequest : Daemon Unit) u = (.ok (), v) ∧
      v.node.store.recoveryPromise = u.node.store.recoveryPromise := by
    unfold onlyIf
    split
    · exact ⟨_, rfl, rfl⟩
    · exact ⟨_, rfl, rfl⟩
  refine ⟨v.node.store, hpromise.trans hu, ?_⟩
  have htail := writes (do
    updateRuntime LeaseRuntime.promoted
    forVisiblePeers C site attempt fun peer =>
      sendRequest (site.peer C) peer (.recoveryEpoch next certificate)
        (some (.epoch peer attempt.generation)) : Daemon Unit)
  rw [← (loadWorldDescriptor_eq_ok.mp ht.described).2.1]
  have hrun := congrArg (fun out : Except DaemonError Unit × Exec =>
    out.2.node.store.recoveryPromise) (bind_of_run (k := fun _ => (do
      write (clearRecoveryPromiseAfterEpochAdvance C attempt.descriptor.worldId next.epochNumber)
      updateRuntime LeaseRuntime.promoted
      forVisiblePeers C site attempt fun peer =>
        sendRequest (site.peer C) peer (.recoveryEpoch next certificate)
          (some (.epoch peer attempt.generation)) : Daemon Unit)) hv)
  exact hrun.trans ((htail _).store .recoveryPromise (by decide))

theorem keepsPromise_driveRecoveryBallot (hexpired : Overdue site attempt e.node.runtime) :
    Along (KeepsPromise C site) (driveRecoveryBallot C site attempt) e := by
  refine along_bind (keepsPromise_ensureActiveBallot h hexpired) fun ready t hready => ?_
  obtain ⟨hbase, _⟩ := returns_ensureActiveBallot h ready t hready
  refine along_onlyIf fun _ => along_readRuntime (along_check fun ballot _ => ?_)
  refine along_bind (keepsPromise_of_touches (by decide) t) fun _ u hsent => ?_
  refine along_check fun assembled _ => along_onSome fun certificate _ => ?_
  exact keepsPromise_installRecovery (h.sameBase (hbase.trans (sameBase_of_run hsent (by decide))))

end

theorem keepsPromise_seekRecovery
    (h : MemberTick C site descriptor epoch e.node.store) (sleep : Option SleepRecordV1)
    (wake : Bool) :
    Along (KeepsPromise C site) (seekRecovery C site descriptor epoch sleep wake) e :=
  along_seekRecovery_of h sleep wake (keepsPromise_of_touches (by decide))
    (keepsPromise_of_touches (by decide)) fun _ _ => keepsPromise_driveRecoveryBallot

/-! ## Records that are stored already -/

theorem keepsPromise_handleEpoch (hsame : e.node.store.epoch = .present record) :
    Along (KeepsPromise C site) (handleEpoch C channel record) e := by
  refine along_readStore (along_check fun _ _ => ?_)
  split
  · exact keepsPromise_of_touches (by decide) e
  · refine along_check fun _ _ => along_bind (along_save_rel fun store hsaved => ?_) fun _ t _ => ?_
    · refine keepsPromise_same ?_
      rw [(saveEpochRecord_eq_ok hsaved).1, ← hsame]
    · exact keepsPromise_of_touches (by decide) t

theorem keepsPromise_handleSnapshotManifest {manifest : SnapshotManifestV1}
    (hhead : e.node.store.snapshots.head? = some manifest) :
    Along (KeepsPromise C site) (handleSnapshotManifest C channel manifest) e :=
  (Store.reads_promiseSound C site.world).keeps (writes_handleSnapshotManifest_head hhead).store
    (by decide)

/-- Receiving a blob while the manifest that waits for it is the canonical head. -/
theorem keepsPromise_handleBlobChunk {worldId : WorldId} {hash : Hash32} {encoding : BlobEncoding}
    {finished intact : Bool} (hhead : ∀ manifest, e.node.pendingManifest = some manifest →
      e.node.store.snapshots.head? = some manifest) :
    Along (KeepsPromise C site)
      (handleBlobChunk C channel worldId hash encoding finished intact) e :=
  (Store.reads_promiseSound C site.world).keeps (writes_handleBlobChunk_head hhead).store (by decide)

theorem keepsPromise_saveMembershipRecord {record : MembershipRecordV1}
    (hsame : e.node.store.membership = .present record) :
    Along (KeepsPromise C site) (save [] (saveMembershipRecord C record)) e := by
  refine along_save_rel fun store hsaved => keepsPromise_same ?_
  rw [(saveMembershipRecord_eq_ok hsaved).1, ← hsame]

theorem keepsPromise_handleMembership {record : MembershipRecordV1}
    (hsame : e.node.store.membership = .present record) :
    Along (KeepsPromise C site) (handleMembership C channel record) e := by
  refine along_readStore (along_check fun _ _ => ?_)
  split
  · exact keepsPromise_of_touches (by decide) e
  · refine along_check fun _ _ => along_check fun descriptor _ => ?_
    refine along_bind (keepsPromise_saveMembershipRecord hsame) fun _ t _ => ?_
    exact keepsPromise_of_touches (by decide) t

/-- Receiving the certificate of the stored membership record. -/
theorem keepsPromise_handleMembershipCommit {certificate : MembershipCertificateV1}
    (hsame : e.node.store.membership = .present certificate.proposal.proposed) :
    Along (KeepsPromise C site) (handleMembershipCommit C site channel certificate) e := by
  refine along_readStore (along_readHost (along_check fun _ _ => along_check fun _ _ => ?_))
  refine along_bind (keepsPromise_of_touches (by decide) e) fun _ t ht => ?_
  have hstored := (content_of_run ht .membership (by decide)).trans hsame
  refine along_bind ?_ fun _ u _ => keepsPromise_of_touches (by decide) u
  refine along_readStore (along_check fun descriptor _ => ?_)
  exact along_bind (keepsPromise_saveMembershipRecord hstored)
    fun _ u _ => keepsPromise_of_touches (by decide) u

/-! ## The tick -/

/-- A tick moves no base: it has no membership change to complete, and the local peer is not the
authority of a recovery or solo epoch. -/
def tickSparesBase (C : Crypto) (site : Site) (store : Store) : Bool :=
  (optional (loadMembershipPromise C site.world store)).isNone
    && (optional (loadMembershipCertificate site.world store)).all (fun certificate =>
      decide (committedMembership C site certificate store ≠ .ok .outstanding))
    && (optional (loadEpochRecord site.world store)).all (fun record =>
      decide (record.authorityPeerId ≠ site.peer C ∨ record.mode = .quorum))

/-- No promise is stored, or what a member does in its tick leaves the base alone. -/
def TickCalm (C : Crypto) (site : Site) (store : Store) : Prop :=
  store.recoveryPromise = .absent ∨ Unprepared C site store ∧
    ∀ record, Accepted site store record →
      record.authorityPeerId ≠ site.peer C ∨ record.mode = .quorum

/-- Finishing a change that is neither prepared nor outstanding writes nothing. -/
theorem writes_recoverSettled (hunprepared : Unprepared C site e.node.store)
    (h : ∀ certificate, loadMembershipCertificate site.world e.node.store = .ok certificate →
      committedMembership C site certificate e.node.store ≠ .ok .outstanding) :
    Along (Writes []) (recoverCommittedMembership C site) e := by
  refine along_readStore (along_readHost (along_onSome fun certificate hcertificate => ?_))
  refine along_check fun committed hcommitted => ?_
  cases committed with
  | superseded => exact along_pure ()
  | outstanding => exact absurd hcommitted (h certificate (optional_eq_some.mp hcertificate))
  | applied current =>
    refine writes_written ?_
    unfold clearMembershipPromiseAfterCommit
    split
    · exact .refl _ _
    · rename_i promise hpromise
      exact absurd hpromise (hunprepared promise)

theorem keepsPromise_recoverCommittedMembership
    (h : e.node.store.recoveryPromise = .absent ∨ tickSparesBase C site e.node.store = true) :
    Along (KeepsPromise C site) (recoverCommittedMembership C site) e ∧
      Returns (recoverCommittedMembership C site) e fun _ t => TickCalm C site t.node.store := by
  rcases h with habsent | hspares
  · refine ⟨keepsPromise_of_absent (by decide) habsent, fun _ t ht => .inl ?_⟩
    exact (content_of_run ht .recoveryPromise (by decide)).trans habsent
  · simp only [tickSparesBase, Bool.and_eq_true, Option.isNone_iff_eq_none, Option.all_eq_true,
      decide_eq_true_eq, optional_eq_some] at hspares
    obtain ⟨⟨hprepare, hsettled⟩, hrole⟩ := hspares
    have hunprepared : Unprepared C site e.node.store := by
      intro promise hload
      rw [hload] at hprepare
      cases hprepare
    have hnothing := writes_recoverSettled hunprepared hsettled
    refine ⟨?_, fun _ t ht => .inr ?_⟩
    · exact fun he => (Store.reads_promiseSound C site.world).keeps hnothing.store (by decide) he
    · have hsame : Writes [] e t := by
        unfold Along Action.after at hnothing
        rwa [ht] at hnothing
      have hpromise : t.node.store.membershipPromise = e.node.store.membershipPromise :=
        hsame.store .membershipPromise (by decide)
      have hepoch : t.node.store.epoch = e.node.store.epoch := hsame.store .epoch (by decide)
      refine ⟨fun promise hload => hunprepared promise ?_, fun record hrecord => hrole record ?_⟩
      · rwa [loadMembershipPromise, hpromise] at hload
      · rwa [Accepted, loadEpochRecord, hepoch] at hrecord

/-- The tick of the authority, where no promise is stored or the epoch is a quorum epoch. -/
theorem keepsPromise_tickAuthority
    (h : e.node.store.recoveryPromise = .absent ∨ epoch.mode = .quorum) :
    Along (KeepsPromise C site) (tickAuthority C site descriptor epoch) e := by
  rcases h with habsent | hmode
  · have hkept : Along (Kept fun e => e.node.store.recoveryPromise = .absent)
        (tickAuthority C site descriptor epoch) e := by
      refine always_tickAuthority (fun hm => ?_) (fun _ => ⟨?_, ?_⟩) (fun _ _ => ?_) (fun _ => ?_) e
      · have := hm
        exact kept_of_touches Store.reads_noPromise (by decide)
      · exact kept_of_touches Store.reads_noPromise (by decide)
      · exact kept_of_touches Store.reads_noPromise (by decide)
      · exact fun _ he => clearRecoveryPromise_absent he _ _
      · exact kept_of_touches Store.reads_noPromise (by decide)
    exact fun _ => Store.promiseSound_of_absent _ (hkept habsent)
  · refine always_tickAuthority (fun hm => ?_) (fun hsolo => ?_) keepsPromise_clear
      (fun hrecovery => ?_) e
    · have := hm
      exact keepsPromise_of_touches (by decide)
    · rw [hmode] at hsolo
      cases hsolo
    · rw [hmode] at hrecovery
      cases hrecovery

theorem keepsPromise_tickAwake {sleep : Option SleepRecordV1} (h : TickCalm C site e.node.store) :
    Along (KeepsPromise C site) (tickAwake C site sleep wake) e := by
  refine along_readStore ?_
  split
  · -- A prepared change is completed only where no promise is stored.
    rename_i promise hpromise
    have habsent := h.resolve_right fun hcalm => hcalm.1 promise hpromise
    exact keepsPromise_of_absent (by decide) habsent
  · rename_i error herror
    split
    · rename_i descriptor member epoch hrole
      obtain ⟨hdescribed, haccepted, _, _⟩ := localRole_eq_some hrole
      have htick : MemberTick C site descriptor epoch e.node.store :=
        ⟨haccepted, hdescribed, fun promise hload => by cases hload.symm.trans herror⟩
      refine along_modifyState_bind (fun he => he) ?_
      split
      · rename_i hauthority
        refine keepsPromise_tickAuthority (h.imp_right fun hcalm => ?_)
        exact (hcalm.2 epoch haccepted).resolve_left fun hne => hne hauthority.2.1
      · refine along_bind ?_ fun _ t ht => along_modifyState_bind (fun he => he) ?_
        · exact keepsPromise_of_touches (by decide) _
        cases ht
        refine along_onlyIf fun _ => keepsPromise_seekRecovery (htick.sameBase ?_) sleep wake
        exact ⟨rfl, rfl, rfl, rfl, rfl, rfl⟩
    · exact keepsPromise_of_touches (by decide) e

theorem keepsPromise_tick
    (h : e.node.store.recoveryPromise = .absent ∨ tickSparesBase C site e.node.store = true) :
    Along (KeepsPromise C site) (maintainAuthorityLeases C site) e := by
  obtain ⟨hfirst, hcalm⟩ := keepsPromise_recoverCommittedMembership h
  refine along_readStore (along_onSome fun _ _ => along_bind hfirst fun _ t ht => ?_)
  refine along_readStore ?_
  split
  · exact keepsPromise_of_touches (by decide) t
  · split
    · exact keepsPromise_of_touches (by decide) t
    · exact keepsPromise_tickAwake (hcalm _ t ht)

/-! ## Runs -/

/-- The commands that move no base. -/
def Command.sparesBase : Command → Bool
  | .activateTransfer _ | .observeTransfer _ | .host | .finish _ _ | .snapshot _ _ _ => false
  | _ => true

/-- An input moves no base, apart from a recovery: records, manifests and certificates that arrive
are stored already, and no command hosts, commits a snapshot or ends a transfer. -/
def Input.sparesBase (C : Crypto) (site : Site) (node : Node) : Input → Bool
  | .request _ _ (.epoch record) => decide (node.store.epoch = .present record)
  | .request _ _ (.snapshotManifest manifest) =>
    decide (node.store.snapshots.head? = some manifest)
  | .request _ _ (.blobChunk _ _ _ _ _) =>
    node.pendingManifest.all fun manifest => decide (node.store.snapshots.head? = some manifest)
  | .request _ _ (.membership record) => decide (node.store.membership = .present record)
  | .request _ _ (.membershipCommit certificate) =>
    decide (node.store.membership = .present certificate.proposal.proposed)
  | .tick => tickSparesBase C site node.store
  | .command order => order.sparesBase
  | _ => true

variable (C F) in
/-- Nothing crashes, and while a peer stores a recovery promise it handles no input that moves the
base of the promise. -/
def Act.sparesPromise (s : System) : Act → Bool
  | .input peer cause =>
    decide ((s.nodes peer).store.recoveryPromise = .absent) ||
      cause.sparesBase C (s.site C F peer) (s.nodes peer)
  | act => act.crashFree

/-- An input that does not write the promise file keeps the absence of a promise. -/
theorem System.handle_noPromise (world : WorldId)
    (habsent : (s.nodes peer).store.recoveryPromise = .absent)
    (hapart : File.recoveryPromise ∉ cause.footprint) :
    (s.handle C F peer cause).2.node.store.PromiseSound C world := by
  refine Store.promiseSound_of_absent _ (System.handle_keeps Store.reads_noPromise ?_ habsent)
  intro file hfile
  rwa [List.mem_singleton.mp hfile]

/-- A request that spares the base keeps every stored promise on it. -/
theorem System.handle_request_promiseSound (hworld : message.world = F.world)
    (hspares : (Input.request sender number message).sparesBase C (s.site C F peer)
      (s.nodes peer) = true) (h : (s.nodes peer).store.PromiseSound C F.world) :
    (s.handle C F peer (.request sender number message)).2.node.store.PromiseSound C F.world := by
  have hdispatch := s.handle_dispatched (F := F) (R := KeepsPromise C (s.site C F peer))
    peer sender number message
  cases message with
  | epoch record => exact hdispatch (keepsPromise_handleEpoch (of_decide_eq_true hspares)) h
  | snapshotManifest manifest =>
    exact hdispatch (keepsPromise_handleSnapshotManifest (of_decide_eq_true hspares)) h
  | blobChunk worldId hash encoding finished intact =>
    refine hdispatch (keepsPromise_handleBlobChunk fun manifest hmanifest => ?_) h
    exact of_decide_eq_true ((Option.all_eq_true _ _).mp hspares manifest hmanifest)
  | membership record => exact hdispatch (keepsPromise_handleMembership (of_decide_eq_true hspares)) h
  | membershipCommit certificate =>
    exact hdispatch (keepsPromise_handleMembershipCommit (of_decide_eq_true hspares)) h
  | recoveryBallot ballot => exact hdispatch (keepsPromise_handleRecoveryBallot hworld) h
  | recoveryEpoch record certificate => exact hdispatch (keepsPromise_handleRecoveryEpoch hworld) h
  | _ =>
    -- The other requests write none of the four files.
    exact System.handle_keeps (Store.reads_promiseSound C F.world)
      (by simp [Input.footprint, WireRequest.footprint, File.prepare]) h

/-- Where no promise is stored, a request leaves none or one on the stored base. -/
theorem System.handle_request_of_noPromise (hworld : message.world = F.world)
    (habsent : (s.nodes peer).store.recoveryPromise = .absent) :
    (s.handle C F peer (.request sender number message)).2.node.store.PromiseSound C F.world := by
  by_cases hapart : File.recoveryPromise ∉ (Input.request sender number message).footprint
  · exact System.handle_noPromise _ habsent hapart
  · -- Only the two messages of a recovery write the promise file, and both spare the base.
    refine System.handle_request_promiseSound hworld ?_ (Store.promiseSound_of_absent _ habsent)
    rw [not_not] at hapart
    cases message with
    | recoveryBallot _ | recoveryEpoch _ _ => rfl
    | _ => simp [Input.footprint, WireRequest.footprint] at hapart

/-- A command that spares the base keeps every stored promise on it. -/
theorem System.handle_command_promiseSound {order : Command}
    (h : (s.nodes peer).store.PromiseSound C F.world)
    (hspares : (s.nodes peer).store.recoveryPromise = .absent ∨ order.sparesBase = true) :
    (s.handle C F peer (.command order)).2.node.store.PromiseSound C F.world := by
  rcases hspares with habsent | hspares
  · refine System.handle_noPromise _ habsent ?_
    cases order <;> simp [Input.footprint, Command.footprint]
  · refine System.handle_keeps (Store.reads_promiseSound C F.world) ?_ h
    cases order with
    | activateTransfer _ | observeTransfer _ | host | finish _ _ | snapshot _ _ _ => cases hspares
    | _ => simp [Input.footprint, Command.footprint]

/-- An input that spares the base, or comes where no promise is stored, leaves every stored promise
on the stored base. -/
theorem System.handle_promiseSound (henabled : cause.Enabled C F s peer)
    (hspares : (Act.input peer cause).sparesPromise C F s = true)
    (h : (s.nodes peer).store.PromiseSound C F.world) :
    (s.handle C F peer cause).2.node.store.PromiseSound C F.world := by
  simp only [Act.sparesPromise, Bool.or_eq_true, decide_eq_true_eq] at hspares
  cases cause with
  | request sender number message =>
    rcases hspares with habsent | hspares
    · exact System.handle_request_of_noPromise henabled.1 habsent
    · exact System.handle_request_promiseSound henabled.1 hspares h
  | tick =>
    have halong : Along (KeepsPromise C (s.site C F peer))
        (maintainAuthorityLeases C (s.site C F peer)) (Exec.start (s.nodes peer)) :=
      keepsPromise_tick hspares
    exact halong h
  | command order => exact System.handle_command_promiseSound h hspares
  | _ => exact System.handle_keeps (Store.reads_promiseSound C F.world) (by simp [Input.footprint]) h

/-- In a run in which nothing crashes and no input moves the base of a stored promise, every stored
promise is on the accepted epoch, the canonical head and the stored membership record. -/
theorem promise_on_base (hrun : Run (StepWith C F fun s act => act.sparesPromise C F s = true) s t)
    (hs : s.Initial) (peer : PeerId) : (t.nodes peer).store.PromiseOnBase C := by
  refine (StepWith.storeInvariant (I := fun _ store => store.PromiseSound C F.world)
    (fun _ => Store.reads_promiseSound C F.world) (by decide) ?_ ?_ hrun (fun peer => ?_)
    peer).onBase
  · intro r _ peer cause _ henabled hspares h
    exact System.handle_promiseSound henabled hspares h
  · intro r _ peer cause point _ _ hspares
    cases hspares
  · exact Store.promiseSound_of_absent _ (hs.recoveryPromise peer)

/-- The third member promises the second one its vote and accepts its record. -/
theorem promise_on_base_third :
    let f := Founding.numbered 3
    let t := (f.system .ideal).play .ideal f.fleet certifiedSuccession
    (t.nodes Founding.third).store.PromiseOnBase .ideal := by
  intro f t
  have hplays : (f.system .ideal).PlaysWith .ideal f.fleet
      (fun s act => act.sparesPromise .ideal f.fleet s = true) certifiedSuccession := by
    decide +kernel
  exact promise_on_base (t := t) hplays.run (Founding.system_initial .ideal f) Founding.third

/-- A promise names another generation than the accepted record. -/
def Store.promisesOffBase (store : Store) : Bool :=
  match store.recoveryPromise, store.epoch with
  | .present promise, .present record => decide (promise.ballot.baseEpoch ≠ record.epochNumber)
  | _, _ => false

/-- Such a promise is not on the stored base. -/
theorem Store.not_promiseOnBase (h : store.promisesOffBase = true) : ¬ store.PromiseOnBase C := by
  intro hbase
  unfold Store.promisesOffBase at h
  split at h
  · rename_i promise record hpromise hrecord
    obtain ⟨found, hfound, hepoch, _⟩ := (hbase promise hpromise).epoch
    rw [hrecord, DurableFile.present.injEq] at hfound
    exact of_decide_eq_true h (hfound ▸ hepoch)
  · cases h

/-- A manual transfer is accepted by the third member, which keeps its promise on the generation
before. -/
theorem promise_off_base :
    let f := Founding.numbered 3
    let t := (f.system .ideal).play .ideal f.fleet transferPastPromise
    (f.system .ideal).Initial ∧ (f.system .ideal).Plays .ideal f.fleet transferPastPromise ∧
      ¬ (t.nodes Founding.third).store.PromiseOnBase .ideal := by
  refine ⟨Founding.system_initial .ideal _, ?_, Store.not_promiseOnBase ?_⟩ <;> decide +kernel

end SwarmCraft
