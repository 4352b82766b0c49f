import SwarmCraft.Refinement.Artifacts
import SwarmCraft.System.Genesis

/-!
# The base of a sleep record

A sleep record names the accepted generation and the canonical head. Every handler that
moves the generation of a sleeping world removes the record afterwards, in a write of its
own, so a crash between the two leaves a record on a generation that is over. A snapshot
that is committed while the world sleeps leaves it on an old head.
-/

namespace SwarmCraft

open Checked Effect Footprint Transition
open Founding (first second numbered canvass inquire)

variable {C : Crypto} {F : Fleet C} {s t : System} {site : Site} {channel : Channel} {e : Exec}
variable {store : Store} {record epoch : EpochRecordV1} {e' : Exec} {world : WorldId}
  {files : List File} {α β : Type} {manifest : SnapshotManifestV1} {peer : PeerId} {cause : Input}
  {point : Store × List Entry}
variable {events : List Event} {sender : PeerId} {attempt : RecoveryAttempt}
  {descriptor : WorldDescriptorV1} {sleep : Option SleepRecordV1} {wake : Bool}
  {disposition : RuntimeDisposition} {entries : List SnapshotEntry}

/-! ## Sleep records on the accepted base -/

/-- A stored sleep record stands on the accepted epoch record and on the canonical head. -/
def Store.SleepOnBase (C : Crypto) (world : WorldId) (store : Store) : Prop :=
  ∀ record, store.sleep = .present record → ∃ epoch latest,
    loadEpochRecord world store = .ok epoch ∧ latestSnapshot store = .ok (some latest) ∧
      validateSleepRecoveryBase C record epoch latest = .ok ()

/-- The files that a sleep record is compared with, and its own. -/
abbrev File.slumber : List File := [.sleep, .epoch, .snapshots, .commitPending]

theorem Store.reads_sleepOnBase (C : Crypto) (world : WorldId) :
    Store.Reads File.slumber (Store.SleepOnBase C world) := by
  intro a b hsame ha record hrecord
  have hsleep : b.sleep = a.sleep := hsame .sleep (by decide)
  have hepoch : b.epoch = a.epoch := hsame .epoch (by decide)
  have hsnapshots : b.snapshots = a.snapshots := hsame .snapshots (by decide)
  have hpending : b.commitPending = a.commitPending := hsame .commitPending (by decide)
  rw [hsleep] at hrecord
  obtain ⟨epoch, latest, hload, hhead, hvalid⟩ := ha record hrecord
  refine ⟨epoch, latest, ?_, ?_, hvalid⟩
  · rw [loadEpochRecord, hepoch]
    exact hload
  · rw [latestSnapshot, hsnapshots, hpending]
    exact hhead

/-- Where no sleep record is stored there is nothing to say. -/
theorem Store.sleepOnBase_of_absent (world : WorldId) (h : store.sleep = .absent) :
    store.SleepOnBase C world := by
  intro record hrecord
  rw [h] at hrecord
  cases hrecord

/-- The stored epoch record names its authority by the authority's key. -/
def Store.EpochKeyed (C : Crypto) (store : Store) : Prop :=
  ∀ epoch, store.epoch = .present epoch →
    C.peerIdFromPublicKey epoch.authorityPublicKey = epoch.authorityPeerId

theorem Store.reads_epochKeyed (C : Crypto) : Store.Reads [.epoch] (Store.EpochKeyed C) := by
  intro a b hsame ha epoch hstored
  have hepoch : b.epoch = a.epoch := hsame .epoch (by decide)
  rw [hepoch] at hstored
  exact ha epoch hstored

theorem Store.epochKeyed_saved {store' : Store}
    (hkeyed : C.peerIdFromPublicKey record.authorityPublicKey = record.authorityPeerId)
    (h : saveEpochRecord record store = .ok store') : store'.EpochKeyed C := by
  intro epoch hstored
  rw [(saveEpochRecord_eq_ok h).1] at hstored
  obtain rfl := DurableFile.present.inj hstored
  exact hkeyed

/-! ## Calm actions -/

/-- The sleep record is gone, or neither it nor its base changed; where none was stored, none is
stored on the way; and the epoch record stays keyed. -/
structure Calm (C : Crypto) (e e' : Exec) : Prop where
  sleep : e'.node.store.sleep = .absent ∨
    ∀ file ∈ File.slumber, e'.node.store.content file = e.node.store.content file
  trail : e.node.store.sleep = .absent →
    ∀ point ∈ e'.trail, point ∈ e.trail ∨ point.1.sleep = .absent
  keyed : Throughout (Store.EpochKeyed C) e e'

/-- Where no record was stored, none is stored in the end. -/
theorem Calm.absent {e : Exec} (h : Calm C e e') (habsent : e.node.store.sleep = .absent) :
    e'.node.store.sleep = .absent := by
  rcases h.sleep with hgone | hsame
  · exact hgone
  · exact (hsame .sleep (by decide)).trans habsent

instance : Std.Refl (Calm C) where
  refl e := ⟨.inr fun _ _ => rfl, fun _ _ hpoint => .inl hpoint, Std.Refl.refl e⟩

instance : IsTrans Exec (Calm C) where
  trans e₁ e₂ e₃ h₁₂ h₂₃ := by
    refine ⟨?_, ?_, IsTrans.trans e₁ e₂ e₃ h₁₂.keyed h₂₃.keyed⟩
    · rcases h₂₃.sleep with hgone | hsame
      · exact .inl hgone
      · rcases h₁₂.sleep with hgone | hbefore
        · exact .inl ((hsame .sleep (by decide)).trans hgone)
        · exact .inr fun file hfile => (hsame file hfile).trans (hbefore file hfile)
    · intro habsent point hpoint
      rcases h₂₃.trail (h₁₂.absent habsent) point hpoint with hold | hnew
      · exact h₁₂.trail habsent point hold
      · exact .inr hnew

/-- A calm action keeps a sleep record on its base. -/
theorem Calm.sleepOnBase {e : Exec} (h : Calm C e e')
    (hbase : e.node.store.SleepOnBase C world) : e'.node.store.SleepOnBase C world := by
  rcases h.sleep with hgone | hsame
  · exact Store.sleepOnBase_of_absent world hgone
  · exact Store.reads_sleepOnBase C world _ _ hsame hbase

theorem Writes.calm {e : Exec} (h : Writes files e e')
    (hapart : ∀ file ∈ File.slumber, file ∉ files) : Calm C e e' := by
  refine ⟨.inr fun file hfile => h.store file (hapart file hfile), ?_, ?_⟩
  · intro habsent point hpoint
    rcases h.trail point hpoint with hold | hnew
    · exact .inl hold
    · exact .inr ((hnew .sleep (hapart .sleep (by decide))).trans habsent)
  · apply h.throughout (Store.reads_epochKeyed C)
    intro file hfile
    rw [List.mem_singleton.mp hfile]
    exact hapart .epoch (by decide)

theorem calm_of_touches {m : Daemon α} [Touches .plain files m]
    (hapart : ∀ file ∈ File.slumber, file ∉ files) : Always (Calm C) m :=
  fun e => (writes m e).calm hapart

/-- What does not write the sleep record is calm where none is stored, if it keeps the epoch record
keyed. -/
theorem Writes.calm_of_keyed {e : Exec} (h : Writes files e e')
    (hapart : .sleep ∉ files) (hkeyed : Throughout (Store.EpochKeyed C) e e')
    (habsent : e.node.store.sleep = .absent) : Calm C e e' := by
  refine ⟨.inl ((h.store .sleep hapart).trans habsent), ?_, hkeyed⟩
  intro _ point hpoint
  exact (h.trail point hpoint).imp_right fun hnew => (hnew .sleep hapart).trans habsent

/-- What writes neither the sleep record nor the epoch record is calm where no sleep record is
stored. -/
theorem Writes.calm_of_absent {e : Exec} (h : Writes files e e')
    (hsleep : .sleep ∉ files) (hepoch : .epoch ∉ files) (habsent : e.node.store.sleep = .absent) :
    Calm C e e' := by
  refine h.calm_of_keyed hsleep (h.throughout (Store.reads_epochKeyed C) ?_) habsent
  intro file hfile
  rwa [List.mem_singleton.mp hfile]

/-- A calm action after which no sleep record is stored. -/
structure Roused (C : Crypto) (e e' : Exec) : Prop where
  calm : Calm C e e'
  absent : e'.node.store.sleep = .absent

theorem roused_clear : Always (Roused C) (write clearSleepRecord) := by
  intro e
  refine ⟨⟨.inl rfl, ?_, throughout_written fun he => he⟩, rfl⟩
  intro _ point hpoint
  simp only [Action.after, write, modifyState, Exec.written, List.mem_append,
    List.mem_singleton] at hpoint
  rcases hpoint with hold | rfl
  · exact .inl hold
  · exact .inr rfl

/-- What follows is calm where no record is stored. -/
theorem roused_bind {m : Daemon α} {k : α → Daemon β} (hm : Always (Roused C) m)
    (hk : ∀ a t, t.node.store.sleep = .absent → Along (Calm C) (k a) t) :
    Always (Roused C) (m >>= k) := by
  intro e
  have hfirst := hm e
  have hcalm : Along (Calm C) (m >>= k) e := by
    apply along_bind hfirst.calm
    intro a t hrun
    have hafter : Roused C e t := by
      unfold Along Action.after at hfirst
      rw [hrun] at hfirst
      exact hfirst
    exact hk a t hafter.absent
  refine ⟨hcalm, ?_⟩
  change ((Action.bind m k) e).2.node.store.sleep = .absent
  unfold Along Action.after at hfirst
  unfold Action.bind
  cases hrun : m e with
  | mk result t =>
    rw [hrun] at hfirst
    cases result with
    | error error => exact hfirst.absent
    | ok a => exact (hk a t hfirst.absent).absent hfirst.absent

/-- A keyed record is saved, and the sleep record is removed by what follows. -/
theorem calm_saveEpoch_then {k : Unit → Daemon β}
    (hkeyed : C.peerIdFromPublicKey record.authorityPublicKey = record.authorityPeerId)
    (hk : Always (Roused C) (k ())) :
    Always (Calm C) (save events (saveEpochRecord record) >>= k) := by
  intro e
  apply along_save_then
  intro store hsaved
  have hepoch := Store.epochKeyed_saved hkeyed hsaved
  have hsleep : store.sleep = e.node.store.sleep := by
    rw [(saveEpochRecord_eq_ok hsaved).1]
  have hafter := hk (e.written store events)
  refine ⟨.inl hafter.absent, ?_, ?_⟩
  · intro habsent point hpoint
    rcases hafter.calm.trail (hsleep.trans habsent) point hpoint with hold | hnew
    · simp only [Exec.written, List.mem_append, List.mem_singleton] at hold
      rcases hold with hold | rfl
      · exact .inl hold
      · exact .inr (hsleep.trans habsent)
    · exact .inr hnew
  · have hfirst : Throughout (Store.EpochKeyed C) e (e.written store events) :=
      throughout_written fun _ => hepoch
    exact IsTrans.trans e _ _ hfirst hafter.calm.keyed

theorem calm_saveEpoch
    (hkeyed : C.peerIdFromPublicKey record.authorityPublicKey = record.authorityPeerId)
    (habsent : e.node.store.sleep = .absent) :
    Along (Calm C) (save events (saveEpochRecord record)) e := by
  refine (writes _ e).calm_of_keyed (by decide) ?_ habsent
  exact along_save_rel fun store hsaved =>
    throughout_written fun _ => Store.epochKeyed_saved hkeyed hsaved

/-! ## Requests -/

theorem authorizeEpoch_keyed (h : authorizeEpoch C sender record store = .ok ()) :
    C.peerIdFromPublicKey record.authorityPublicKey = record.authorityPeerId := by
  simp only [authorizeEpoch, bind_eq_ok, ofCore_eq_ok] at h
  obtain ⟨_, _, _, _, _, _, _, _, _, _, _, _, _, hsigned, _⟩ := h
  exact (verifySignature_eq_ok.mp hsigned).1

theorem calm_handleEpoch (record : EpochRecordV1) :
    Always (Calm C) (handleEpoch C channel record) := by
  refine always_readStore fun store => always_check fun _ hchecks => ?_
  simp only [epochChecks, bind_eq_ok] at hchecks
  obtain ⟨_, _, _, _, hauthorized⟩ := hchecks
  split
  · exact calm_of_touches (by decide)
  · apply always_check
    intro _ _
    apply calm_saveEpoch_then (authorizeEpoch_keyed hauthorized)
    exact roused_bind roused_clear fun _ t _ => calm_of_touches (by decide) t

/-- The writes that follow an accepted recovery record. -/
theorem roused_leaveSleep (record : EpochRecordV1) : Always (Roused C) (leaveSleep C record) := by
  exact roused_bind roused_clear fun _ t _ => calm_of_touches (by decide) t

theorem calm_handleRecoveryEpoch (record : EpochRecordV1) (certificate : RecoveryCertificateV1) :
    Always (Calm C) (handleRecoveryEpoch C channel record certificate) := by
  refine always_readStore fun store => always_check fun _ hchecks => ?_
  simp only [recoveryEpochChecks, validateRecoveryEpoch, bind_eq_ok] at hchecks
  obtain ⟨_, _, _, _, _, hauthorized, _⟩ := hchecks
  split
  · refine .bind (calm_of_touches (by decide)) fun _ => ?_
    refine .bind (fun e => (roused_leaveSleep record e).calm) fun _ => ?_
    exact calm_of_touches (by decide)
  · refine always_check fun _ _ => .bind (calm_of_touches (by decide)) fun _ => ?_
    apply calm_saveEpoch_then (authorizeEpoch_keyed hauthorized)
    exact roused_bind (roused_leaveSleep record) fun _ t _ => calm_of_touches (by decide) t

/-- Receiving a sleep record: it stands on the base of the receiver. -/
theorem sleepChecks_onBase {record : SleepRecordV1}
    (hworld : record.worldId = world) (hkeyed : store.EpochKeyed C)
    (h : sleepChecks C sender record store = .ok ()) :
    ({ store with sleep := .present record } : Store).SleepOnBase C world := by
  simp only [sleepChecks, bind_eq_ok, guardMessage_eq_ok, ofCore_eq_ok, ofStorage_eq_ok,
    required_eq_ok] at h
  obtain ⟨_, _, _, _, _, hsigned, _, _, _, _, _, _, _, _, epoch, hepoch, _,
    ⟨hnumber, htoken, hpeer⟩, _, hlatest, latest, rfl, hhash⟩ := h
  intro stored hstored
  obtain rfl := DurableFile.present.inj hstored
  obtain ⟨hfile, hepochWorld, _⟩ := loadEpochRecord_eq_ok.mp hepoch
  have hkey : record.authorityPublicKey = epoch.authorityPublicKey := by
    have hsigner := hsigned
    simp only [verifySleepRecordSignature, bind_eq_ok, mapError_eq_ok] at hsigner
    obtain ⟨_, _, hsigner⟩ := hsigner
    apply C.peerId_injective
    rw [(verifySignature_eq_ok.mp hsigner).1, hkeyed epoch hfile, hpeer]
  refine ⟨epoch, latest, hworld ▸ hepoch, hlatest, ?_⟩
  simp only [validateSleepRecoveryBase, bind_eq_ok, guardMessage_eq_ok, ofCore_eq_ok]
  exact ⟨(), hsigned, hepochWorld.symm, hnumber, htoken, hpeer, hkey, hhash.symm⟩

/-! ## The tick -/

/-- Where no sleep record is found, none is stored. -/
theorem loadSleepRecordFailClosed_none
    (h : loadSleepRecordFailClosed C world store = .ok none) : store.sleep = .absent := by
  unfold loadSleepRecordFailClosed at h
  split at h
  · simp only [bind_eq_ok, pure_eq_ok, reduceCtorEq, and_false, exists_false] at h
  · rename_i hmissing
    cases hfile : store.sleep with
    | absent => rfl
    | unreadable => simp [hfile, DurableFile.exists] at hmissing
    | present record => simp [hfile, DurableFile.exists] at hmissing

/-- Installing a recovery: it wakes the world, or the world did not sleep. -/
theorem calm_installRecovery {certificate : RecoveryCertificateV1}
    (h : attempt.wake = true ∨ e.node.store.sleep = .absent) :
    Along (Calm C) (installRecovery C site attempt certificate) e := by
  refine along_bind (calm_of_touches (by decide) e) fun _ t ht => along_check fun next hnext => ?_
  have hkeyed : C.peerIdFromPublicKey next.authorityPublicKey = next.authorityPeerId := by
    simp only [recoveryEpochRecord, bind_eq_ok, pure_eq_ok] at hnext
    obtain ⟨_, _, rfl⟩ := hnext
    rfl
  by_cases hwake : attempt.wake = true
  · apply calm_saveEpoch_then hkeyed
    rw [onlyIf, if_pos hwake]
    refine roused_bind ?_ fun _ u _ => calm_of_touches (by decide) u
    exact roused_bind roused_clear fun _ u _ => calm_of_touches (by decide) u
  · have habsent := (content_of_run ht .sleep (by decide)).trans (h.resolve_left hwake)
    refine along_bind (calm_saveEpoch hkeyed habsent) fun _ u _ => ?_
    rw [onlyIf, if_neg hwake]
    exact calm_of_touches (by decide) u

theorem calm_driveRecoveryBallot (h : attempt.wake = true ∨ e.node.store.sleep = .absent) :
    Along (Calm C) (driveRecoveryBallot C site attempt) e := by
  refine along_bind (calm_of_touches (by decide) e) fun ready t ht => ?_
  refine along_onlyIf fun _ => along_readRuntime (along_check fun ballot _ => ?_)
  refine along_bind (calm_of_touches (by decide) t) fun _ u hu => ?_
  refine along_check fun certificate _ => along_onSome fun certificate _ => calm_installRecovery ?_
  exact h.imp_right fun habsent => (content_of_run hu .sleep (by decide)).trans
    ((content_of_run ht .sleep (by decide)).trans habsent)

theorem calm_seekRecovery (h : wake = true ∨ e.node.store.sleep = .absent) :
    Along (Calm C) (seekRecovery C site descriptor epoch sleep wake) e := by
  refine along_bind (calm_of_touches (by decide) e) fun _ t ht => ?_
  refine along_bind (calm_of_touches (by decide) t) fun _ u hu => ?_
  refine along_readStore (along_readRuntime (along_readHost (along_onlyIf fun _ => ?_)))
  refine along_check fun base _ => along_onSome fun latest _ => ?_
  refine along_check fun found hfound => along_onSome fun attempt hattempt => ?_
  subst hattempt
  obtain ⟨_, _, _, hwake, _⟩ := recoveryAttempt_eq_ok hfound
  apply calm_driveRecoveryBallot
  rw [hwake]
  exact h.imp_right fun habsent => (content_of_run hu .sleep (by decide)).trans
    ((content_of_run ht .sleep (by decide)).trans habsent)

/-- The tick of the authority keeps the record keyed. -/
theorem keyed_tickAuthority (descriptor : WorldDescriptorV1) (epoch : EpochRecordV1) :
    Always (Throughout (Store.EpochKeyed C)) (tickAuthority C site descriptor epoch) := by
  refine always_tickAuthority (fun hm => ?_) (fun _ => ⟨?_, ?_⟩) (fun _ _ => ?_) fun _ => ?_
  · have := hm
    exact throughout_of_touches (Store.reads_epochKeyed C) (by decide)
  · exact throughout_of_touches (Store.reads_epochKeyed C) (by decide)
  · refine always_readStore fun store => always_check fun next hnext => ?_
    have hkeyed : C.peerIdFromPublicKey next.authorityPublicKey = next.authorityPeerId := by
      simp only [soloToQuorumRecord, bind_eq_ok, pure_eq_ok] at hnext
      obtain ⟨_, _, _, _, _, _, rfl⟩ := hnext
      rfl
    refine .bind (fun e => along_save_rel fun store hsaved => ?_) fun _ => ?_
    · exact throughout_written fun _ => Store.epochKeyed_saved hkeyed hsaved
    · exact throughout_of_touches (Store.reads_epochKeyed C) (by decide)
  · exact throughout_of_touches (Store.reads_epochKeyed C) (by decide)
  · exact throughout_of_touches (Store.reads_epochKeyed C) (by decide)

/-- The tick of a member: it wakes the world, or the world does not sleep. -/
theorem calm_tickMember {member : WorldMemberV1} (h : wake = true ∨ e.node.store.sleep = .absent) :
    Along (Calm C) (tickMember C site descriptor member epoch sleep wake) e := by
  refine along_bind (calm_of_touches (by decide) e) fun _ t ht => ?_
  have hafter : wake = true ∨ t.node.store.sleep = .absent :=
    h.imp_right (content_of_run ht .sleep (by decide)).trans
  split
  · rename_i hauthority
    have habsent := hafter.resolve_left (by simp [hauthority.1])
    exact (writes _ t).calm_of_keyed (by decide) (keyed_tickAuthority descriptor epoch t) habsent
  · refine along_bind (calm_of_touches (by decide) t) fun _ u hu => ?_
    refine along_bind (calm_of_touches (by decide) u) fun _ v hv => ?_
    refine along_onlyIf fun _ => calm_seekRecovery ?_
    exact hafter.imp_right fun habsent => (content_of_run hv .sleep (by decide)).trans
      ((content_of_run hu .sleep (by decide)).trans habsent)

theorem calm_tick : Always (Calm C) (maintainAuthorityLeases C site) := by
  refine always_readStore fun _ => .onSome fun _ _ => ?_
  refine .bind (calm_of_touches (by decide)) fun _ t => along_readStore ?_
  split
  · exact calm_of_touches (by decide) t
  · rename_i sleep hsleep
    split
    · exact calm_of_touches (by decide) t
    · apply along_readStore
      split
      · exact calm_of_touches (by decide) t
      · split
        · apply calm_tickMember
          cases sleep with
          | some record => exact .inl rfl
          | none => exact .inr (loadSleepRecordFailClosed_none hsleep)
        · exact calm_of_touches (by decide) t

/-- The tick of a world that sleeps and is not asked to wake writes none of the files. -/
theorem writes_tick_asleep (hstored : e.node.store.sleep ≠ .absent)
    (hasleep : e.node.store.wakeRequested = false) :
    Along (Writes (.permit :: File.apply)) (maintainAuthorityLeases C site) e := by
  have hframe : Frames .plain (.permit :: File.apply) (Writes (.permit :: File.apply)) :=
    frames_writes
  refine along_readStore (along_onSome fun _ _ => ?_)
  refine along_bind (hframe.always (by decide) e) fun _ t ht => ?_
  have hkept : t.node.store.sleep = e.node.store.sleep := content_of_run ht .sleep (by decide)
  have hstill : t.node.store.wakeRequested = e.node.store.wakeRequested :=
    content_of_run ht .wakeRequested (by decide)
  apply along_readStore
  split
  · exact hframe.always (by decide) t
  · rename_i found hfound
    cases found with
    | none => exact absurd (hkept.symm.trans (loadSleepRecordFailClosed_none hfound)) hstored
    | some record =>
      simp only [Option.isSome_some, hstill.trans hasleep, and_self, if_true]
      exact hframe.always (by decide) t

/-! ## Commands -/

theorem calm_ensureAuthorityArtifacts (habsent : e.node.store.sleep = .absent) :
    Along (Calm C) (ensureAuthorityArtifacts C site epoch) e :=
  (writes _ e).calm_of_absent (by decide) (by decide) habsent

theorem calm_hostWorld : Always (Calm C) (hostWorld C site) := by
  intro e
  refine along_readStore (along_check fun latest _ => along_readStore (along_check fun _ _ => ?_))
  apply along_check
  intro sleep hsleep
  cases sleep with
  | some record =>
    refine along_check fun next hnext => ?_
    have hkeyed : C.peerIdFromPublicKey next.authorityPublicKey = next.authorityPeerId := by
      simp only [soloWakeRecord, bind_eq_ok, pure_eq_ok] at hnext
      obtain ⟨_, _, _, _, _, _, _, _, rfl⟩ := hnext
      rfl
    apply calm_saveEpoch_then hkeyed
    exact roused_bind roused_clear fun _ t habsent => calm_ensureAuthorityArtifacts habsent
  | none =>
    have habsent := loadSleepRecordFailClosed_none hsleep
    apply along_readStore
    split
    · exact along_check fun _ _ => calm_ensureAuthorityArtifacts habsent
    · split
      · exact calm_saveEpoch rfl habsent
      · exact along_lift _

theorem calm_activateManualTransfer (token : AuthorityTransferV1) :
    Always (Calm C) (activateManualTransfer C site token) := by
  refine always_readStore fun _ => always_check fun next hnext => .bind ?_ fun _ => ?_
  · exact calm_of_touches (by decide)
  · have hkeyed : C.peerIdFromPublicKey next.authorityPublicKey = next.authorityPeerId := by
      simp only [activateTransferChecks, bind_eq_ok, pure_eq_ok] at hnext
      obtain ⟨_, _, _, _, _, _, _, _, _, _, _, _, _, _, rfl⟩ := hnext
      rfl
    exact calm_saveEpoch_then hkeyed roused_clear

theorem calm_observeManualTransferEpoch (next : EpochRecordV1) :
    Always (Calm C) (observeManualTransferEpoch C site next) := by
  refine always_readStore fun _ => always_check fun _ hchecks => ?_
  have hkeyed : C.peerIdFromPublicKey next.authorityPublicKey = next.authorityPeerId := by
    simp only [observeTransferChecks, bind_eq_ok, ofCore_eq_ok] at hchecks
    obtain ⟨_, _, _, hsigned, _⟩ := hchecks
    exact (verifySignature_eq_ok.mp hsigned).1
  exact calm_saveEpoch_then hkeyed roused_clear

/-! ## The end of a session -/

/-- The canonical head has the highest number of the stored snapshots. -/
def Store.HeadHighest (store : Store) : Prop :=
  ∀ head, store.snapshots.head? = some head →
    ∀ stored ∈ store.snapshots, stored.snapshotNumber ≤ head.snapshotNumber

/-- A direct extension is the new highest snapshot. -/
theorem Store.HeadHighest.committed (h : store.HeadHighest)
    (hdirect : validateDirectExtension C store.snapshots.head? manifest = .ok ()) :
    (finishSnapshotCommit manifest store).HeadHighest := by
  intro head hhead stored hstored
  obtain rfl : manifest = head := Option.some.inj hhead
  rcases List.mem_cons.mp hstored with rfl | hold
  · exact le_refl _
  cases hprevious : store.snapshots.head? with
  | none =>
    rw [List.head?_eq_none_iff.mp hprevious] at hold
    cases hold
  | some previous =>
    have hle := h previous hprevious stored hold
    rw [hprevious] at hdirect
    simp only [validateDirectExtension, bind_eq_ok, required_eq_ok, ensure_eq_ok,
      checkedSucc_eq_some] at hdirect
    obtain ⟨_, ⟨_, rfl⟩, _, _, hnumber, _⟩ := hdirect
    omega

/-- The head stays the highest snapshot in every run. -/
theorem Run.headHighest (hrun : Run (Step C F) s t)
    (hs : ∀ peer, (s.nodes peer).store.HeadHighest) (peer : PeerId) :
    (t.nodes peer).store.HeadHighest := by
  refine Step.invariant (I := fun _ p => p.node.store.HeadHighest) ?_ hrun hs peer
  intro r peer heard a b _ ha hmove
  cases hmove with
  | stored move =>
    cases move with
    | quiet same =>
      simp only [Store.HeadHighest, same.snapshots]
      exact ha
    | promised votable own saved =>
      rw [promiseRecoveryBallot_keeps saved]
      exact ha
    | recovered certified saved =>
      rw [(saveEpochRecord_eq_ok saved).1]
      exact ha
    | installed world mode follows saved =>
      rw [(saveEpochRecord_eq_ok saved).1]
      exact ha
    | releasedRecovery stored =>
      rw [clearRecoveryPromise_keeps]
      exact ha
    | prepared world onCommitted own saved =>
      rw [promiseMembershipProposal_keeps saved]
      exact ha
    | releasedMembership stored =>
      rw [clearMembershipPromise_keeps]
      exact ha
    | savedMembership world saved =>
      rw [(saveMembershipRecord_eq_ok saved).1]
      exact ha
    | committed direct => exact ha.committed direct
  | remembered move => exact ha
  | logged move => exact ha
  | confirmed told => exact ha
  | bookkept => exact ha

/-- Every durable state has its sleep record, if any, on its base, in the end and on the way. -/
structure Settles (C : Crypto) (world : WorldId) (e e' : Exec) : Prop where
  store : e'.node.store.SleepOnBase C world
  trail : ∀ point ∈ e'.trail, point ∈ e.trail ∨ point.1.SleepOnBase C world

/-- Where no record is stored, calm actions settle. -/
theorem Calm.settles {e : Exec} (h : Calm C e e')
    (habsent : e.node.store.sleep = .absent) : Settles C world e e' := by
  refine ⟨Store.sleepOnBase_of_absent world (h.absent habsent), ?_⟩
  intro point hpoint
  exact (h.trail habsent point hpoint).imp_right (Store.sleepOnBase_of_absent world)

/-- A calm action before one that settles. -/
theorem settles_bind {m : Daemon α} {k : α → Daemon β}
    (habsent : e.node.store.sleep = .absent) (hm : Along (Calm C) m e)
    (hk : ∀ a t, m e = (.ok a, t) → t.node.store.sleep = .absent →
      Along (Settles C world) (k a) t) : Along (Settles C world) (m >>= k) e := by
  unfold Along Action.after at hm ⊢
  change Settles C world e (Action.bind m k e).2
  unfold Action.bind
  cases hrun : m e with
  | mk result t =>
    rw [hrun] at hm
    cases result with
    | error error => exact hm.settles habsent
    | ok a =>
      have hnext := hk a t hrun (hm.absent habsent)
      refine ⟨hnext.store, ?_⟩
      intro point hpoint
      rcases hnext.trail point hpoint with hold | hnew
      · exact (hm.settles habsent).trail point hold
      · exact .inr hnew

/-- The sleep record of a session stands on the last snapshot of it. -/
theorem settles_leaveSession (habsent : e.node.store.sleep = .absent)
    (hepoch : loadEpochRecord site.world e.node.store = .ok epoch)
    (hpeer : epoch.authorityPeerId = site.peer C)
    (hkey : epoch.authorityPublicKey = site.identity.publicKey)
    (hhead : latestSnapshot e.node.store = .ok (some manifest)) :
    Along (Settles C site.world) (leaveSession C site epoch manifest disposition) e := by
  cases disposition with
  | transfer target =>
    have hcalm : Always (Calm C) (leaveSession C site epoch manifest (.transfer target)) :=
      always_readStore fun _ => always_check fun _ _ => calm_of_touches (by decide)
    exact (hcalm e).settles habsent
  | sleep =>
    let unsigned : SleepRecordV1 := {
      protocolVersion := protocolVersionV1
      worldId := site.world
      latestSnapshotHash := manifest.manifestHash C
      epoch := epoch.epochNumber
      fencingToken := epoch.fencingToken
      authorityPeerId := site.peer C
      authorityPublicKey := site.identity.publicKey
      signature := .empty }
    let record := { unsigned with signature := C.sign site.identity.publicKey (.sleep unsigned) }
    let slept : Store := { e.node.store with sleep := .present record }
    have hsigned : signSleepRecord C site.identity unsigned = .ok record := rfl
    have hsaved : saveSleepRecord record e.node.store = .ok slept := rfl
    have hrun : leaveSession C site epoch manifest .sleep e =
        (.ok (), (e.written slept []).written (clearWorldWakeRequest slept) []) := by
      change (check (ofCore (signSleepRecord C site.identity unsigned)) >>= _) e = _
      rw [check_bind (ofCore_eq_ok.mpr hsigned), save_bind hsaved]
      rfl
    have hbase : slept.SleepOnBase C site.world := by
      intro stored hstored
      obtain rfl := DurableFile.present.inj hstored
      have hworld := (loadEpochRecord_eq_ok.mp hepoch).2.1
      refine ⟨epoch, manifest, hepoch, hhead, ?_⟩
      simp only [validateSleepRecoveryBase, bind_eq_ok, guardMessage_eq_ok, ofCore_eq_ok,
        verifySleepRecordSignature, mapError_eq_ok]
      exact ⟨(), ⟨(), rfl, verifySignature_eq_ok.mpr ⟨rfl, C.verify_sign _ _⟩⟩, hworld.symm, rfl, rfl,
        hpeer.symm, hkey.symm, rfl⟩
    have hcleared : (clearWorldWakeRequest slept).SleepOnBase C site.world := hbase
    unfold Along Action.after
    rw [hrun]
    refine ⟨hcleared, ?_⟩
    intro point hpoint
    simp only [Exec.written, List.mem_append, List.mem_singleton] at hpoint
    rcases hpoint with (hold | rfl) | rfl
    · exact .inl hold
    · exact .inr hbase
    · exact .inr hcleared

/-- A generation that is ensured is the local peer's. -/
theorem hostedLocally (hepoch : loadEpochRecord site.world store = .ok epoch)
    (h : ensureAuthorityGeneration C site epoch store = .ok ()) :
    epoch.authorityPeerId = site.peer C ∧ epoch.authorityPublicKey = site.identity.publicKey := by
  simp only [ensureAuthorityGeneration, bind_eq_ok, ofStorage_eq_ok, guardMessage_eq_ok] at h
  obtain ⟨current, hcurrent, _, _, hpeer, hkey⟩ := h
  rw [(loadEpochRecord_eq_ok.mp hepoch).2.1, hepoch, Except.ok.injEq] at hcurrent
  subst hcurrent
  exact ⟨hpeer, hkey⟩

/-- The snapshot that ends a session becomes the head. -/
theorem finalManifest_head {latest : SnapshotManifestV1}
    {fence : Option SnapshotCommitFence} {u v : Exec}
    (hmanifest : finalManifest C site epoch latest entries = .ok manifest)
    (hlatest : u.node.store.snapshots.head? = some latest) (hhighest : u.node.store.HeadHighest)
    (h : commitSnapshot C fence manifest u = (.ok (), v)) :
    latestSnapshot v.node.store = .ok (some manifest) := by
  rcases commitSnapshot_cases h with ⟨hstored, _⟩ | ⟨_, begun, _, rfl⟩
  · -- A stored snapshot of the next number would be above the head.
    exfalso
    have hnumber : manifest.snapshotNumber = latest.snapshotNumber + 1 := by
      simp only [finalManifest, localSnapshot, signSnapshot, bind_eq_ok, required_eq_ok, ofCore_eq_ok,
        mapError_eq_ok, pure_eq_ok, checkedSucc_eq_some] at hmanifest
      obtain ⟨_, ⟨_, rfl⟩, _, _, _, _, rfl⟩ := hmanifest
      rfl
    simp only [snapshotCommitted, snapshotSlot, bind_eq_ok] at hstored
    obtain ⟨_, _, hstored⟩ := hstored
    split at hstored
    · cases hstored
    · rename_i existing hexisting
      have hle := hhighest latest hlatest existing (List.mem_of_find?_eq_some hexisting)
      have hsame := List.find?_some hexisting
      simp only [decide_eq_true_eq] at hsame
      omega
  · rfl

/-- The end of a session settles, where no sleep record is stored. -/
theorem settles_finishSession
    (habsent : e.node.store.sleep = .absent) (hhighest : e.node.store.HeadHighest) :
    Along (Settles C site.world) (finishSession C site entries disposition) e := by
  have hcheck {α : Type} (x : Except DaemonError α) (t : Exec) : Along (Calm C) (check x) t :=
    along_lift x
  have hread (t : Exec) : Along (Calm C) readStore t := Std.Refl.refl t
  refine settles_bind habsent (hread e) fun _ t ht habsent => ?_
  obtain ⟨rfl, rfl⟩ := run_readStore.mp ht
  refine settles_bind habsent (hcheck _ _) fun epoch t ht habsent => ?_
  obtain ⟨hepoch, rfl⟩ := run_check.mp ht
  refine settles_bind habsent (hcheck _ _) fun _ t ht habsent => ?_
  obtain ⟨hgeneration, rfl⟩ := run_check.mp ht
  refine settles_bind habsent (hcheck _ _) fun found t ht habsent => ?_
  obtain ⟨hfound, rfl⟩ := run_check.mp ht
  refine settles_bind habsent (hcheck _ _) fun latest t ht habsent => ?_
  obtain ⟨hlatest, rfl⟩ := run_check.mp ht
  rw [ofStorage_eq_ok] at hepoch hfound
  rw [required_eq_ok] at hlatest
  subst hlatest
  refine settles_bind habsent (calm_of_touches (by decide) _) fun _ t ht habsent => ?_
  obtain rfl := run_modifyState.mp ht
  refine settles_bind habsent (hcheck _ _) fun manifest t ht habsent => ?_
  obtain ⟨hmanifest, rfl⟩ := run_check.mp ht
  refine settles_bind habsent ((writes _ _).calm_of_absent (by decide) (by decide) habsent)
    fun _ t ht habsent => ?_
  have hsameEpoch : t.node.store.epoch = e.node.store.epoch :=
    content_of_run ht .epoch (by decide)
  have hstored : e.node.store.snapshots.head? = some latest := by
    simp only [latestSnapshot, bind_eq_ok, pure_eq_ok] at hfound
    exact hfound.choose_spec.2
  obtain ⟨hpeer, hkey⟩ := hostedLocally hepoch hgeneration
  have hhead : latestSnapshot t.node.store = .ok (some manifest) := by
    refine finalManifest_head hmanifest ?_ ?_ ht
    · exact hstored
    · exact hhighest
  apply settles_leaveSession habsent _ hpeer hkey hhead
  rw [loadEpochRecord, hsameEpoch]
  exact hepoch

/-! ## Runs -/

/-- An input of a sleeping peer commits no other snapshot. -/
def Input.sparesSleep (node : Node) : Input → Bool
  | .request _ _ (.snapshotManifest manifest) =>
    decide (node.store.snapshots.head? = some manifest)
  | .request _ _ (.blobChunk _ _ _ _ _) =>
    node.pendingManifest.all fun manifest => decide (node.store.snapshots.head? = some manifest)
  | .command (.finish _ _) | .command (.snapshot _ _ _) => false
  | _ => true

/-- A crash in the handler of an input of a sleeping peer comes between no two writes that move the
base and remove the record. -/
def Input.crashSparesSleep (node : Node) : Input → Bool
  | .tick => decide (node.store.wakeRequested = false)
  | .request _ _ (.sleep _) => true
  | cause => decide (∀ file ∈ File.slumber, file ∉ cause.footprint)

/-- While a peer stores a sleep record it commits no other snapshot, and it does not crash in a
handler that moves the accepted epoch. -/
def Act.sparesSleep (s : System) : Act → Bool
  | .input peer cause =>
    decide ((s.nodes peer).store.sleep = .absent) || cause.sparesSleep (s.nodes peer)
  | .cut peer cause _ =>
    decide ((s.nodes peer).store.sleep = .absent) || cause.crashSparesSleep (s.nodes peer)
  | _ => true

/-- Receiving a sleep record settles. -/
theorem settles_handleSleep {record : SleepRecordV1}
    (hworld : record.worldId = world) (hkeyed : e.node.store.EpochKeyed C)
    (hbase : e.node.store.SleepOnBase C world) :
    Along (Settles C world) (handleSleep C channel record) e := by
  have hstay : Settles C world e e := ⟨hbase, fun _ hpoint => .inl hpoint⟩
  change Settles C world e ((check (sleepChecks C channel.requester record e.node.store) >>= _) e).2
  cases hchecks : sleepChecks C channel.requester record e.node.store with
  | error error => exact hstay
  | ok value =>
    rw [check_bind rfl]
    have hslept := sleepChecks_onBase hworld hkeyed hchecks
    have hvalid : record.validateSemantics = .ok () := by
      simp only [sleepChecks, bind_eq_ok, ofCore_eq_ok] at hchecks
      obtain ⟨_, _, _, _, _, hsigned, _⟩ := hchecks
      simp only [verifySleepRecordSignature, bind_eq_ok, mapError_eq_ok] at hsigned
      exact hsigned.choose_spec.1
    have hsaved : saveSleepRecord record e.node.store =
        .ok { e.node.store with sleep := .present record } := by
      simp only [saveSleepRecord, asStorage, bind_eq_ok, mapError_eq_ok, pure_eq_ok]
      exact ⟨(), hvalid, trivial⟩
    rw [save_bind hsaved]
    refine ⟨hslept, ?_⟩
    intro point hpoint
    simp only [respond, modifyState, Exec.written, List.mem_append, List.mem_singleton] at hpoint
    rcases hpoint with hold | rfl
    · exact .inl hold
    · exact .inr hslept

/-- The membership check before the handler of a sleep record writes nothing. -/
theorem settles_handleRequest_sleep {record : SleepRecordV1}
    (hworld : record.worldId = world) (hkeyed : e.node.store.EpochKeyed C)
    (hbase : e.node.store.SleepOnBase C world) :
    Along (Settles C world) (handleRequest C site channel (.sleep record)) e := by
  change Settles C world e
    ((check (onSome (WireRequest.sleep record).membershipWorldId fun worldId =>
      authorizeMember C worldId channel.requester e.node.store) >>= _) e).2
  cases hauthorized : onSome (WireRequest.sleep record).membershipWorldId fun worldId =>
      authorizeMember C worldId channel.requester e.node.store with
  | error error => exact ⟨hbase, fun _ hpoint => .inl hpoint⟩
  | ok value =>
    rw [check_bind rfl]
    exact settles_handleSleep hworld hkeyed hbase

/-- The inputs that store a sleep record. -/
def Input.sleeps : Input → Bool
  | .request _ _ (.sleep _) | .command (.finish _ _) => true
  | _ => false

/-- Every other input is calm, where no sleep record is stored or it spares the one that is. -/
theorem System.handle_calm (hsleeps : cause.sleeps = false)
    (h : (s.nodes peer).store.sleep = .absent ∨ cause.sparesSleep (s.nodes peer) = true) :
    Calm C (Exec.start (s.nodes peer)) (s.handle C F peer cause).2 := by
  have hwrites := s.handle_writes (F := F) peer cause
  cases cause with
  | request sender number message =>
    have hdispatch := s.handle_dispatched (F := F) (R := Calm C) peer sender number message
    cases message with
    | epoch record => exact hdispatch (calm_handleEpoch record _)
    | recoveryEpoch record certificate =>
      exact hdispatch (calm_handleRecoveryEpoch record certificate _)
    | sleep record => cases hsleeps
    | snapshotManifest manifest =>
      rcases h with habsent | hspares
      · exact hwrites.calm_of_absent (by simp [Input.footprint, WireRequest.footprint])
          (by simp [Input.footprint, WireRequest.footprint]) habsent
      · have hhead : (s.nodes peer).store.snapshots.head? = some manifest := of_decide_eq_true hspares
        have hsame := @writes_handleSnapshotManifest_head C ⟨(s.site C F peer).peer C, sender, number⟩
          (Exec.start (s.nodes peer)) manifest hhead
        exact hdispatch (hsame.calm (by decide))
    | blobChunk worldId hash encoding finished intact =>
      rcases h with habsent | hspares
      · exact hwrites.calm_of_absent (by simp [Input.footprint, WireRequest.footprint])
          (by simp [Input.footprint, WireRequest.footprint]) habsent
      · have hhead (manifest : SnapshotManifestV1)
            (hpending : (s.nodes peer).pendingManifest = some manifest) :
            (s.nodes peer).store.snapshots.head? = some manifest :=
          of_decide_eq_true ((Option.all_eq_true _ _).mp hspares manifest hpending)
        have hsame : Along (Writes [.blobs]) (handleBlobChunk C
            ⟨(s.site C F peer).peer C, sender, number⟩ worldId hash encoding finished intact)
            (Exec.start (s.nodes peer)) := writes_handleBlobChunk_head hhead
        exact hdispatch (hsame.calm (by decide))
    | _ => exact hwrites.calm (by simp [Input.footprint, WireRequest.footprint, File.prepare])
  | tick => exact calm_tick (Exec.start (s.nodes peer))
  | command order =>
    cases order with
    | host => exact calm_hostWorld (Exec.start (s.nodes peer))
    | activateTransfer token => exact calm_activateManualTransfer token (Exec.start (s.nodes peer))
    | observeTransfer token => exact calm_observeManualTransferEpoch token (Exec.start (s.nodes peer))
    | finish entries disposition => cases hsleeps
    | snapshot epoch sequence entries =>
      rcases h with habsent | hspares
      · exact hwrites.calm_of_absent (by simp [Input.footprint, Command.footprint])
          (by simp [Input.footprint, Command.footprint]) habsent
      · cases hspares
    | _ => exact hwrites.calm (by simp [Input.footprint, Command.footprint])
  | _ => exact hwrites.calm (by simp [Input.footprint])

/-- An input that stores a sleep record settles, if none is stored or it receives one. -/
theorem System.handle_settles (hsleeps : cause.sleeps = true)
    (henabled : cause.Enabled C F s peer) (hhighest : (s.nodes peer).store.HeadHighest)
    (hkeyed : (s.nodes peer).store.EpochKeyed C)
    (hbase : (s.nodes peer).store.SleepOnBase C F.world)
    (h : (s.nodes peer).store.sleep = .absent ∨ cause.sparesSleep (s.nodes peer) = true) :
    Settles C F.world (Exec.start (s.nodes peer)) (s.handle C F peer cause).2 ∧
      Throughout (Store.EpochKeyed C) (Exec.start (s.nodes peer)) (s.handle C F peer cause).2 := by
  have hwrites := s.handle_writes (F := F) peer cause
  cases cause with
  | request sender number message =>
    cases message with
    | sleep record =>
      have hworld : record.worldId = F.world := henabled.1
      have hhandled := @settles_handleRequest_sleep C (s.site C F peer)
        ⟨(s.site C F peer).peer C, sender, number⟩ (Exec.start (s.nodes peer)) F.world record
        hworld hkeyed hbase
      constructor
      · exact hhandled
      · exact hwrites.throughout (Store.reads_epochKeyed C)
          (by simp [Input.footprint, WireRequest.footprint])
    | _ => cases hsleeps
  | command order =>
    cases order with
    | finish entries disposition =>
      have habsent : (s.nodes peer).store.sleep = .absent :=
        h.resolve_right (by simp [Input.sparesSleep])
      have hfinished := @settles_finishSession C (s.site C F peer) (Exec.start (s.nodes peer))
        disposition entries habsent hhighest
      constructor
      · exact hfinished
      · exact hwrites.throughout (Store.reads_epochKeyed C)
          (by simp [Input.footprint, Command.footprint])
    | _ => cases hsleeps
  | _ => cases hsleeps

/-- What holds at the durable states passed by an input that settles. -/
theorem Settles.passed {node : Node} {e : Exec} (h : Settles C world (Exec.start node) e)
    (hkeyed : Throughout (Store.EpochKeyed C) (Exec.start node) e) (hnode : node.store.EpochKeyed C)
    (hpoint : point ∈ e.trail) : point.1.SleepOnBase C world ∧ point.1.EpochKeyed C := by
  constructor
  · rcases h.trail point hpoint with hold | hnew
    · cases hold
    · exact hnew
  · exact hkeyed.trail hnode point hpoint

/-- A crash where no sleep record is stored. -/
theorem System.trail_absent (henabled : cause.Enabled C F s peer)
    (hhighest : (s.nodes peer).store.HeadHighest) (hkeyed : (s.nodes peer).store.EpochKeyed C)
    (habsent : (s.nodes peer).store.sleep = .absent)
    (hpoint : point ∈ (s.handle C F peer cause).2.trail) :
    point.1.SleepOnBase C F.world ∧ point.1.EpochKeyed C := by
  cases hsleeps : cause.sleeps with
  | false =>
    have hcalm := System.handle_calm (C := C) (F := F) hsleeps (.inl habsent)
    exact (hcalm.settles habsent).passed hcalm.keyed hkeyed hpoint
  | true =>
    have hbase := Store.sleepOnBase_of_absent (C := C) F.world habsent
    obtain ⟨hsettles, hthroughout⟩ :=
      System.handle_settles hsleeps henabled hhighest hkeyed hbase (.inl habsent)
    exact hsettles.passed hthroughout hkeyed hpoint

/-- A crash in the handler of an input keeps a stored record on the base, where the crash spares
it. -/
theorem System.trail_sleepOnBase
    (henabled : cause.Enabled C F s peer) (hhighest : (s.nodes peer).store.HeadHighest)
    (hkeyed : (s.nodes peer).store.EpochKeyed C)
    (hbase : (s.nodes peer).store.SleepOnBase C F.world)
    (h : (s.nodes peer).store.sleep = .absent ∨ cause.crashSparesSleep (s.nodes peer) = true)
    (hpoint : point ∈ (s.handle C F peer cause).2.trail) :
    point.1.SleepOnBase C F.world ∧ point.1.EpochKeyed C := by
  by_cases habsent : (s.nodes peer).store.sleep = .absent
  · exact System.trail_absent henabled hhighest hkeyed habsent hpoint
  have hspares := h.resolve_left habsent
  have hkept (hapart : ∀ file ∈ File.slumber, file ∉ cause.footprint) :
      point.1.SleepOnBase C F.world ∧ point.1.EpochKeyed C := by
    refine ⟨System.trail_keeps (Store.reads_sleepOnBase C F.world) hapart hbase hpoint, ?_⟩
    refine System.trail_keeps (Store.reads_epochKeyed C) ?_ hkeyed hpoint
    intro file hfile
    rw [List.mem_singleton.mp hfile]
    exact hapart .epoch (by decide)
  cases cause with
  | tick =>
    have hasleep : (s.nodes peer).store.wakeRequested = false := of_decide_eq_true hspares
    have hwrites := @writes_tick_asleep C (s.site C F peer) (Exec.start (s.nodes peer)) habsent hasleep
    rcases hwrites.trail point hpoint with hold | hnew
    · cases hold
    · exact ⟨(Store.reads_sleepOnBase C F.world).keeps hnew (by decide) hbase,
        (Store.reads_epochKeyed C).keeps hnew (by decide) hkeyed⟩
  | request sender number message =>
    cases message with
    | sleep record =>
      obtain ⟨hsettles, hthroughout⟩ :=
        System.handle_settles rfl henabled hhighest hkeyed hbase (.inr rfl)
      exact hsettles.passed hthroughout hkeyed hpoint
    | _ => exact hkept (of_decide_eq_true hspares)
  | _ => exact hkept (of_decide_eq_true hspares)

/-- Both properties are about the same files. -/
theorem Store.reads_sleepOnKeyedBase (C : Crypto) (world : WorldId) :
    Store.Reads File.slumber fun store => store.SleepOnBase C world ∧ store.EpochKeyed C := by
  intro a b hsame ha
  refine ⟨Store.reads_sleepOnBase C world a b hsame ha.1, ?_⟩
  refine Store.reads_epochKeyed C a b ?_ ha.2
  intro file hfile
  rw [List.mem_singleton.mp hfile]
  exact hsame .epoch (by decide)

/-- In every run in which a sleeping peer commits no other snapshot and does not crash in a handler
that moves the accepted epoch, every stored sleep record is of the accepted epoch and snapshot. -/
theorem sleep_on_base (hrun : Run (StepWith C F fun s act => act.sparesSleep s = true) s t)
    (hbase : ∀ peer, (s.nodes peer).store.SleepOnBase C F.world)
    (hkeyed : ∀ peer, (s.nodes peer).store.EpochKeyed C)
    (hhighest : ∀ peer, (s.nodes peer).store.HeadHighest) (peer : PeerId) :
    (t.nodes peer).store.SleepOnBase C F.world := by
  have hhead (r : System) (hreach : Run (StepWith C F fun s act => act.sparesSleep s = true) s r)
      (peer : PeerId) : (r.nodes peer).store.HeadHighest :=
    Run.headHighest (StepWith.run hreach) hhighest peer
  refine (StepWith.storeInvariant (fun _ => Store.reads_sleepOnKeyedBase C F.world) (by decide) ?_ ?_
    hrun (fun peer => ⟨hbase peer, hkeyed peer⟩) peer).1
  · intro r hprefix peer cause _ henabled hspares h
    have hcause : (r.nodes peer).store.sleep = .absent ∨ cause.sparesSleep (r.nodes peer) = true := by
      simpa [Act.sparesSleep] using hspares
    cases hsleeps : cause.sleeps with
    | false =>
      have hcalm := System.handle_calm (C := C) (F := F) hsleeps hcause
      exact ⟨hcalm.sleepOnBase h.1, (hcalm.keyed h.2).1⟩
    | true =>
      obtain ⟨hsettles, hthroughout⟩ :=
        System.handle_settles hsleeps henabled (hhead r hprefix peer) h.2 h.1 hcause
      exact ⟨hsettles.store, (hthroughout h.2).1⟩
  · intro r hprefix peer cause point _ henabled hspares h passed hpassed
    refine System.trail_sleepOnBase henabled (hhead r hprefix peer) h.2 h.1 ?_ hpassed
    simpa [Act.sparesSleep] using hspares

/-- The first peer ends its session asleep, the second receives the record, and the two are ready to
wake the world. -/
def sleepAndWake : List Cue :=
  [fun _ => .input first (.command (.finish [] .sleep))] ++
  connect first second ++
  [hand first second 0, hand first second 1, fun _ => .input first (.command .wake)] ++
  inquire second first ++
  inquire first second ++
  canvass first second

/-- Up to the certificate of the wake, both peers store the record on its base. -/
theorem sleep_on_base_waking :
    let f := numbered 2
    let t := (f.system .ideal).play .ideal f.fleet sleepAndWake
    ∀ peer, (t.nodes peer).store.SleepOnBase .ideal f.fleet.world := by
  intro f t
  have hplays : (f.system .ideal).PlaysWith .ideal f.fleet
      (fun s act => act.sparesSleep s = true) sleepAndWake := by decide +kernel
  refine sleep_on_base (t := t) hplays.run ?_ ?_ ?_
  all_goals
    intro peer
    simp only [Founding.system, Founding.node]
    split
  · exact Store.sleepOnBase_of_absent _ rfl
  · exact Store.sleepOnBase_of_absent _ rfl
  · intro epoch hepoch
    obtain rfl := DurableFile.present.inj hepoch
    decide +kernel
  · intro epoch hepoch
    cases hepoch
  · intro head hhead stored hstored
    obtain rfl := Option.some.inj hhead
    rw [List.mem_singleton.mp hstored]
  · intro head hhead
    cases hhead

/-- The stored sleep record is refused on the accepted epoch record and the canonical head. -/
def Store.sleepOffBase (C : Crypto) (world : WorldId) (store : Store) : Bool :=
  match store.sleep, loadEpochRecord world store, latestSnapshot store with
  | .present record, .ok epoch, .ok (some latest) =>
    !(validateSleepRecoveryBase C record epoch latest).isOk
  | _, _, _ => false

/-- Such a record is not on its base. -/
theorem Store.not_sleepOnBase
    (h : store.sleepOffBase C world = true) : ¬ store.SleepOnBase C world := by
  intro hbase
  unfold Store.sleepOffBase at h
  split at h
  · rename_i record epoch latest hrecord hepoch hlatest
    obtain ⟨epoch', latest', hepoch', hlatest', hvalid⟩ := hbase record hrecord
    rw [hepoch] at hepoch'
    rw [hlatest] at hlatest'
    obtain rfl := Except.ok.inj hepoch'
    obtain rfl := Option.some.inj (Except.ok.inj hlatest')
    rw [hvalid] at h
    cases h
  · cases h

/-- The first peer crashes after it installed the epoch of the wake and before it removed the sleep
record. The record is off its base, and every tick of the peer fails from then on. -/
theorem sleep_off_base_after_crash :
    let f := numbered 2
    let cues := sleepAndWake ++ [fun _ => .cut first .tick 2]
    let t := (f.system .ideal).play .ideal f.fleet cues
    (f.system .ideal).Initial ∧ (f.system .ideal).Plays .ideal f.fleet cues ∧
      ¬ (t.nodes first).store.SleepOnBase .ideal f.fleet.world ∧
      (t.handle .ideal f.fleet first .tick).1 =
        .error (.message
          "sleep boundary does not match the accepted generation and exact canonical snapshot") := by
  refine ⟨Founding.system_initial _ _, ?_, Store.not_sleepOnBase ?_, ?_⟩ <;> decide +kernel

end SwarmCraft
