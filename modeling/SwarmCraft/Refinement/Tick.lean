import SwarmCraft.Refinement.Recovery

/-!
# The succession, the tick and the event loop follow the moves

An attempt is made on what the store holds. The candidate's promise and the certificate leave that
base alone, so the recovery record it installs is still a successor of the accepted one. An
acknowledgement or a vote is remembered under the peer it came from, because a response reaches
the request it answers. The operator's commands that store an epoch record check it first.
-/

namespace SwarmCraft

open Checked Effect Transition

variable {C : Crypto} {site : Site} {heard : Heard} {base : List Stamp} {e : Exec}
variable {record : MembershipRecordV1} {floor : Nat} {certificate : RecoveryCertificateV1}
variable {node : Node} {runtime : LeaseRuntime} {next : EpochRecordV1} {latest : SnapshotManifestV1}
  {member : WorldMemberV1}

/-! ## Attempts -/

/-- The attempt is on the base that the store holds. -/
structure Attempted (C : Crypto) (site : Site) (attempt : RecoveryAttempt) (store : Store) :
    Prop where
  accepted : Accepted site store attempt.previous
  described : loadWorldDescriptor site.world store = .ok attempt.descriptor
  head : latestSnapshot store = .ok (some attempt.latest)
  unprepared : Unprepared C site store
  next : attempt.generation.epoch = attempt.previous.epochNumber + 1 ∧
    attempt.generation.fencingToken = attempt.previous.fencingToken + 1

/-- Unless the attempt wakes the world, its authority is gone and the recovery delay is over. -/
def Overdue (site : Site) (attempt : RecoveryAttempt) (runtime : LeaseRuntime) : Prop :=
  attempt.wake = false → runtime.connected attempt.previous.authorityPeerId = false ∧
    recoveryWindowOpen runtime attempt.previous.generation site.now = true

/-- The ballot is the candidate's own one for the attempt. -/
structure BallotOf (C : Crypto) (site : Site) (attempt : RecoveryAttempt) (store : Store)
    (ballot : RecoveryBallotV1) : Prop where
  baseEpoch : ballot.baseEpoch = attempt.previous.epochNumber
  baseFencingToken : ballot.baseFencingToken = attempt.previous.fencingToken
  targetEpoch : ballot.targetEpoch = attempt.generation.epoch
  targetFencingToken : ballot.targetFencingToken = attempt.generation.fencingToken
  candidate : ballot.candidatePeerId = site.peer C
  head : ballot.baseSnapshotHash = attempt.latest.manifestHash C
  membership : ∃ record, loadMembershipRecord site.world store = .ok record ∧
    record.recordHash C = ballot.membershipHash

variable {attempt : RecoveryAttempt} {store store' : Store} {ballot : RecoveryBallotV1}

/-- An attempt stays on its base while the base stays. -/
theorem Attempted.sameBase (h : Attempted C site attempt store) (hbase : SameBase store store') :
    Attempted C site attempt store' := by
  refine ⟨?_, ?_, ?_, fun promise => ?_, h.next⟩
  · rw [Accepted, hbase.loadEpochRecord]
    exact h.accepted
  · rw [hbase.loadWorldDescriptor]
    exact h.described
  · rw [hbase.latestSnapshot]
    exact h.head
  · rw [hbase.loadMembershipPromise]
    exact h.unprepared promise

/-- A ballot of the attempt is on the stored base. -/
theorem BallotOf.onBase (hballot : BallotOf C site attempt store ballot)
    (h : Attempted C site attempt store) : OnBase C site store ballot := by
  refine ⟨fun current hcurrent => ?_, ⟨attempt.latest, h.head, hballot.head.symm⟩,
    hballot.membership⟩
  have haccepted := h.accepted
  rw [Accepted] at haccepted hcurrent
  rw [haccepted, Except.ok.injEq] at hcurrent
  subst hcurrent
  exact ⟨hballot.baseEpoch, hballot.baseFencingToken⟩

/-- A usable active ballot is a ballot of the attempt. -/
theorem ballotOf_usable (hrecord : loadMembershipRecord site.world store = .ok record)
    (h : activeBallotUsable C site attempt (record.recordHash C) floor ballot = true) :
    BallotOf C site attempt store ballot := by
  simp only [activeBallotUsable, Bool.and_eq_true, decide_eq_true_eq] at h
  obtain ⟨⟨⟨⟨⟨⟨⟨⟨hepoch, htoken⟩, htarget⟩, hfence⟩, hcandidate⟩, hhead⟩, _⟩, hmembership⟩, _⟩ := h
  exact ⟨hepoch, htoken, htarget, hfence, hcandidate, hhead, record, hrecord, hmembership.symm⟩

/-- The candidate's new ballot is a ballot of the attempt. -/
theorem ballotOf_candidate (hrecord : loadMembershipRecord site.world store = .ok record)
    (h : candidateBallot C site attempt (record.recordHash C) floor = .ok ballot) :
    ballot.worldId = attempt.descriptor.worldId ∧ BallotOf C site attempt store ballot := by
  simp only [candidateBallot, signRecoveryBallot, bind_eq_ok, ofCore_eq_ok, pure_eq_ok] at h
  obtain ⟨_, _, _, _, rfl⟩ := h
  exact ⟨rfl, rfl, rfl, rfl, rfl, rfl, rfl, record, hrecord, rfl⟩

/-! ## The candidate's ballot -/

theorem SameBase.trans {store₁ store₂ store₃ : Store} (h₁ : SameBase store₁ store₂)
    (h₂ : SameBase store₂ store₃) : SameBase store₁ store₃ :=
  ⟨h₂.descriptor.trans h₁.descriptor, h₂.membership.trans h₁.membership,
    h₂.membershipPromise.trans h₁.membershipPromise, h₂.epoch.trans h₁.epoch,
    h₂.snapshots.trans h₁.snapshots, h₂.commitPending.trans h₁.commitPending⟩

/-- Making a ballot active: the votes restart from the promise that is stored. -/
theorem tame_activateBallot (ballot : RecoveryBallotV1) :
    Tame C site heard base (activateBallot C site ballot) := by
  intro e
  refine along_readStore (along_check fun durable hdurable => ?_)
  rw [ofStorage_eq_ok] at hdurable
  refine along_updateRuntime_bind (.quiet ?_) (along_pure true)
  refine ⟨fun _ _ h => h, fun _ _ h => h, fun _ h => h, fun _ h => .inl h, fun entry hentry => ?_⟩
  rw [List.mem_singleton] at hentry
  exact .inr ⟨durable, (DurableFile.load_eq_ok.mp hdurable).1, by rw [hentry]⟩

/-- A ballot that was made active is the active one, and the store is as before. -/
theorem returns_activateBallot (ballot : RecoveryBallotV1) :
    Returns (activateBallot C site ballot) e fun _ t =>
      t.node.store = e.node.store ∧ t.node.runtime.recoveryBallot = some ballot := by
  refine returns_bind (returns_lift fun store _ => returns_bind ?_)
  refine returns_lift fun durable _ => returns_bind (returns_modifyState (returns_pure ?_))
  exact ⟨rfl, rfl⟩

/-- The candidate's new ballot may be voted for. -/
theorem Attempted.votable (h : Attempted C site attempt node.store)
    (hexpired : Overdue site attempt node.runtime)
    (hrecord : loadMembershipRecord site.world node.store = .ok record)
    (hballot : candidateBallot C site attempt (record.recordHash C) floor = .ok ballot) :
    Votable C site node ballot attempt.wake := by
  obtain ⟨hworld, hof⟩ := ballotOf_candidate hrecord hballot
  have hdescribed := (loadWorldDescriptor_eq_ok.mp h.described).2.1
  refine ⟨hworld.trans hdescribed, ⟨_, h.accepted⟩, hof.onBase h, h.unprepared,
    fun hawake current hcurrent => ?_⟩
  have haccepted := h.accepted
  rw [Accepted] at haccepted hcurrent
  rw [haccepted, Except.ok.injEq] at hcurrent
  subst hcurrent
  exact hexpired hawake

/-- A candidate promises its own ballot. -/
theorem along_openBallot (h : Attempted C site attempt e.node.store)
    (hexpired : Overdue site attempt e.node.runtime)
    (hrecord : loadMembershipRecord site.world e.node.store = .ok record) :
    Along (Follows C site heard base) (openBallot C site attempt (record.recordHash C) floor)
      e := by
  refine along_check fun ballot hballot => along_check fun vote hvote => ?_
  have hvotable := h.votable hexpired hrecord hballot
  refine along_bind (along_promiseBallot hvotable (recoveryVoteFor_own hvote)) fun result t _ => ?_
  cases result with
  | rejected highestRound => exact tame (by decide) t
  | accepted => exact tame_activateBallot ballot t
  | idempotent => exact tame_activateBallot ballot t

/-- The answer of the candidate's first half: the base is as before, and if it goes on, its own
ballot is the active one. -/
def BallotReady (C : Crypto) (site : Site) (attempt : RecoveryAttempt) (e : Exec) (ready : Bool)
    (t : Exec) : Prop :=
  SameBase e.node.store t.node.store ∧ (ready = true →
    ∃ ballot, t.node.runtime.recoveryBallot = some ballot ∧
      BallotOf C site attempt e.node.store ballot)

/-- An opened ballot is the active one and leaves the base alone. -/
theorem returns_openBallot (hrecord : loadMembershipRecord site.world e.node.store = .ok record) :
    Returns (openBallot C site attempt (record.recordHash C) floor) e
      (BallotReady C site attempt e) := by
  refine returns_bind (returns_lift fun ballot hballot => ?_)
  refine returns_bind (returns_lift fun vote _ => returns_bind ?_)
  intro result t hrun
  have hbase := sameBase_of_run hrun (by decide)
  have hactive : Returns (activateBallot C site ballot) t (BallotReady C site attempt e) := by
    intro ready u hu
    obtain ⟨hstore, hballotActive⟩ := returns_activateBallot ballot ready u hu
    refine ⟨hstore ▸ hbase, fun _ => ⟨ballot, hballotActive, ?_⟩⟩
    exact (ballotOf_candidate hrecord hballot).2
  cases result with
  | rejected highestRound =>
    exact returns_bind (returns_modifyState (returns_pure ⟨hbase, fun h => by cases h⟩))
  | accepted => exact hactive
  | idempotent => exact hactive

/-- The membership record of an attempt is the stored one. -/
theorem recoveryMembership_eq_ok {world : WorldId}
    (h : recoveryMembership C world store = .ok record) :
    loadMembershipRecord world store = .ok record := by
  simp only [recoveryMembership, bind_eq_ok, ofStorage_eq_ok, pure_eq_ok] at h
  obtain ⟨found, hfound, _, _, rfl⟩ := h
  exact hfound

/-- A ballot is opened under the stored membership record, unless one is active already. -/
theorem along_ensureActiveBallot_of {R : Exec → Exec → Prop} [Std.Refl R]
    (h : Attempted C site attempt e.node.store)
    (hopen : ∀ record floor, loadMembershipRecord site.world e.node.store = .ok record →
      Along R (openBallot C site attempt (record.recordHash C) floor) e) :
    Along R (ensureActiveBallot C site attempt) e := by
  refine along_readStore (along_readRuntime (along_check fun record hrecord => ?_))
  have hload := recoveryMembership_eq_ok hrecord
  rw [(loadWorldDescriptor_eq_ok.mp h.described).2.1] at hload
  dsimp only
  split
  · exact along_pure true
  · exact hopen record _ hload

/-- Keeping or opening the active ballot makes a ballot of the attempt the active one. -/
theorem returns_ensureActiveBallot (h : Attempted C site attempt e.node.store) :
    Returns (ensureActiveBallot C site attempt) e (BallotReady C site attempt e) := by
  refine returns_bind (returns_lift fun store hstore => returns_bind ?_)
  cases hstore
  refine returns_lift fun runtime hruntime => returns_bind (returns_lift fun record hrecord => ?_)
  cases hruntime
  have hload := recoveryMembership_eq_ok hrecord
  rw [(loadWorldDescriptor_eq_ok.mp h.described).2.1] at hload
  dsimp only
  split
  · rename_i hany
    rw [Option.any_eq_true] at hany
    obtain ⟨ballot, hballot, husable⟩ := hany
    refine returns_pure ⟨⟨rfl, rfl, rfl, rfl, rfl, rfl⟩, fun _ => ⟨ballot, hballot, ?_⟩⟩
    exact ballotOf_usable hload husable
  · exact returns_openBallot hload

/-! ## Installing a recovery -/

/-- The certificate of a ballot is made of collected votes that verify. -/
theorem recoveryCertificateFrom_eq_ok
    (h : recoveryCertificateFrom C attempt ballot runtime = .ok (some certificate)) :
    certificate.ballot = ballot ∧
      (∀ vote ∈ certificate.votes, ∃ peer, (peer, vote) ∈ runtime.recoveryVotes) ∧
      validateRecoveryCertificateShape C certificate
        (attempt.descriptor.active.map WorldMemberV1.peerId) = .ok () ∧
      ∀ vote ∈ certificate.votes, verifyRecoveryVoteSignature C vote = .ok () := by
  unfold recoveryCertificateFrom at h
  dsimp only at h
  split at h
  · simp only [bind_eq_ok, mapError_eq_ok, forM_eq_ok, ofCore_eq_ok, pure_eq_ok,
      Option.some.injEq] at h
    obtain ⟨_, hshape, _, hsigned, rfl⟩ := h
    refine ⟨rfl, fun vote hvote => ?_, hshape, hsigned⟩
    obtain ⟨⟨peer, found⟩, hmem, rfl⟩ := List.mem_map.mp (List.mem_of_mem_filter hvote)
    exact ⟨peer, hmem⟩
  · simp at h

/-- The record of a promotion extends the accepted one. -/
theorem recoveryEpochRecord_eq_ok (h : recoveryEpochRecord C site attempt = .ok next) :
    next.worldId = attempt.previous.worldId ∧ next.mode = .recovery ∧
      next.authorityPeerId = site.peer C ∧ DirectSuccessor C attempt.previous next := by
  simp only [recoveryEpochRecord, bind_eq_ok, pure_eq_ok] at h
  obtain ⟨generation, hgeneration, rfl⟩ := h
  obtain ⟨hepoch, htoken⟩ := nextGeneration_eq_ok hgeneration
  exact ⟨rfl, rfl, rfl, hepoch, htoken, rfl⟩

/-- What holds when the candidate installs its certificate. -/
theorem recovered_of_attempt (h : Attempted C site attempt node.store)
    (hballot : BallotOf C site attempt node.store ballot)
    (hcertificate : recoveryCertificateFrom C attempt ballot node.runtime = .ok (some certificate))
    (hnext : recoveryEpochRecord C site attempt = .ok next) :
    Recovered C site heard node next certificate := by
  obtain ⟨rfl, hvotes, hshape, hsigned⟩ := recoveryCertificateFrom_eq_ok hcertificate
  obtain ⟨hworld, hmode, hauthority, hextends⟩ := recoveryEpochRecord_eq_ok hnext
  have hloaded := (loadEpochRecord_eq_ok.mp h.accepted).2.1
  obtain ⟨hnextEpoch, hnextToken⟩ := h.next
  refine ⟨hworld.trans hloaded, hmode, h.unprepared, hextends.extends h.accepted, hballot.onBase h,
    ⟨?_, ?_, ?_⟩, ⟨_, .inr ⟨attempt.descriptor, h.described, rfl⟩, hshape⟩, hsigned, .inr hvotes⟩
  · rw [hballot.targetEpoch, hextends.epoch, hnextEpoch]
  · rw [hballot.targetFencingToken, hextends.fencingToken, hnextToken]
  · rw [hauthority, hballot.candidate]

instance : Quiets site LeaseRuntime.promoted :=
  ⟨fun _ => ⟨fun _ _ h => (by cases h), fun _ _ h => (by cases h), fun _ h => (by cases h),
    fun _ h => .inl h, fun _ h => (by cases h)⟩⟩

/-- A candidate saves its certified record. -/
theorem along_installRecovery (h : Attempted C site attempt e.node.store)
    (hballot : BallotOf C site attempt e.node.store ballot)
    (hcertificate : recoveryCertificateFrom C attempt ballot e.node.runtime =
      .ok (some certificate)) :
    Along (Follows C site heard base) (installRecovery C site attempt certificate) e := by
  refine along_bind (tame (by decide) e) fun _ t hsaved => along_check fun next hnext => ?_
  refine along_saveCertified (recovered_of_attempt h hballot hcertificate hnext) hsaved
    fun u hstored => along_bind (tame (by decide) u) fun _ v hrun => ?_
  rw [(loadWorldDescriptor_eq_ok.mp h.described).2.1]
  have hkept := (content_of_run hrun .epoch (by decide)).trans hstored
  exact along_write_bind (.releasedRecovery hkept) (tame (by decide) _)

/-- Asking for votes leaves the memory alone. -/
theorem sameRuntime_canvass {request : PeerId → WireRequest} {context : PeerId → OutboundContext} :
    Always SameRuntime (forVisiblePeers C site attempt fun peer =>
      sendUnlessPending (site.peer C) peer (request peer) (context peer)) :=
  always_readRuntime fun _ => .forM fun _ => .onlyIf fun _ => sameRuntime_sendUnlessPending

/-- A ballot stays one of the attempt while the base stays. -/
theorem BallotOf.sameBase (h : BallotOf C site attempt store ballot)
    (hbase : SameBase store store') : BallotOf C site attempt store' ballot := by
  refine ⟨h.baseEpoch, h.baseFencingToken, h.targetEpoch, h.targetFencingToken, h.candidate,
    h.head, ?_⟩
  rw [hbase.loadMembershipRecord]
  exact h.membership

/-- A candidate drives its ballot. -/
theorem along_driveRecoveryBallot (h : Attempted C site attempt e.node.store)
    (hexpired : Overdue site attempt e.node.runtime) :
    Along (Follows C site heard base) (driveRecoveryBallot C site attempt) e := by
  refine along_bind (along_ensureActiveBallot_of h fun _ _ => along_openBallot h hexpired)
    fun ready t hready => ?_
  obtain ⟨hbase, hactive⟩ := returns_ensureActiveBallot h ready t hready
  refine along_onlyIf fun htrue => along_readRuntime (along_check fun ballot hballot => ?_)
  obtain ⟨active, hsome, hof⟩ := hactive htrue
  rw [required_eq_ok, hsome, Option.some.injEq] at hballot
  subst hballot
  refine along_bind (tame (by decide) t) fun _ u hsent => along_check fun assembled hassembled => ?_
  have hkept := hbase.trans (sameBase_of_run hsent (by decide))
  refine along_onSome fun certificate hcertificate => ?_
  have hruntime : u.node.runtime = t.node.runtime := sameRuntime_canvass.of_run hsent
  rw [hcertificate, ← hruntime] at hassembled
  exact along_installRecovery (h.sameBase hkept) (hof.sameBase hkept) hassembled

/-! ## The tick -/

/-- The base of an attempt is the canonical head. -/
theorem recoveryBase_eq_ok {sleep : Option SleepRecordV1} {epoch : EpochRecordV1}
    (h : recoveryBase C sleep epoch store = .ok (some latest)) :
    latestSnapshot store = .ok (some latest) := by
  simp only [recoveryBase, bind_eq_ok, ofStorage_eq_ok] at h
  obtain ⟨head, hhead, h⟩ := h
  cases head with
  | none => simp at h
  | some found =>
    simp only [bind_eq_ok, pure_eq_ok, Option.some.injEq] at h
    obtain ⟨_, _, _, _, _, _, rfl⟩ := h
    exact hhead

/-- An attempt records what it was made on. -/
theorem recoveryAttempt_eq_ok {descriptor : WorldDescriptorV1} {epoch : EpochRecordV1}
    {wake : Bool} {host : LocalHost}
    (h : recoveryAttempt C site descriptor epoch latest wake runtime host = .ok (some attempt)) :
    attempt.descriptor = descriptor ∧ attempt.previous = epoch ∧ attempt.latest = latest ∧
      attempt.wake = wake ∧ attempt.generation.epoch = epoch.epochNumber + 1 ∧
      attempt.generation.fencingToken = epoch.fencingToken + 1 := by
  unfold recoveryAttempt at h
  dsimp only at h
  split at h
  · simp only [bind_eq_ok, pure_eq_ok, Option.some.injEq] at h
    obtain ⟨generation, hgeneration, rfl⟩ := h
    obtain ⟨hepoch, htoken⟩ := nextGeneration_eq_ok hgeneration
    exact ⟨rfl, rfl, rfl, rfl, hepoch, htoken⟩
  · simp at h

/-- What the tick of a member relies on. -/
structure MemberTick (C : Crypto) (site : Site) (descriptor : WorldDescriptorV1)
    (epoch : EpochRecordV1) (store : Store) : Prop where
  accepted : Accepted site store epoch
  described : loadWorldDescriptor site.world store = .ok descriptor
  unprepared : Unprepared C site store

theorem MemberTick.sameBase {descriptor : WorldDescriptorV1} {epoch : EpochRecordV1}
    (h : MemberTick C site descriptor epoch store) (hbase : SameBase store store') :
    MemberTick C site descriptor epoch store' := by
  refine ⟨?_, ?_, fun promise => ?_⟩
  · rw [Accepted, hbase.loadEpochRecord]
    exact h.accepted
  · rw [hbase.loadWorldDescriptor]
    exact h.described
  · rw [hbase.loadMembershipPromise]
    exact h.unprepared promise

variable {descriptor : WorldDescriptorV1} {epoch : EpochRecordV1}

/-- A search for a recovery drives an attempt on the stored base whose authority is overdue. -/
theorem along_seekRecovery_of {R : Exec → Exec → Prop} [Std.Refl R] [IsTrans Exec R]
    (h : MemberTick C site descriptor epoch e.node.store) (sleep : Option SleepRecordV1)
    (wake : Bool) (hstatuses : Always R (requestWorldStatuses C site descriptor))
    (hcapabilities : Always R (requestHostCapabilities C site descriptor))
    (hdrive : ∀ attempt t, Attempted C site attempt t.node.store →
      Overdue site attempt t.node.runtime → Along R (driveRecoveryBallot C site attempt) t) :
    Along R (seekRecovery C site descriptor epoch sleep wake) e := by
  refine along_bind (hstatuses e) fun _ t hstatus => ?_
  refine along_bind (hcapabilities t) fun _ u hcapability => ?_
  have hbefore := sameBase_of_run hstatus (by decide)
  have htick := h.sameBase (hbefore.trans (sameBase_of_run hcapability (by decide)))
  refine along_readStore (along_readRuntime (along_readHost (along_onlyIf fun hopen => ?_)))
  refine along_check fun found hfound => along_onSome fun latest hlatest => ?_
  rw [hlatest] at hfound
  refine along_check fun attempted hattempted => along_onSome fun attempt hattempt => ?_
  rw [hattempt] at hattempted
  obtain ⟨rfl, rfl, rfl, rfl, hnext, hfence⟩ := recoveryAttempt_eq_ok hattempted
  refine hdrive _ u ⟨htick.accepted, htick.described, recoveryBase_eq_ok hfound,
    htick.unprepared, hnext, hfence⟩ fun hawake => ?_
  rcases hopen with hwake | hexpired
  · rw [hwake] at hawake
    cases hawake
  · exact hexpired

theorem along_seekRecovery (h : MemberTick C site descriptor epoch e.node.store)
    (sleep : Option SleepRecordV1) (wake : Bool) :
    Along (Follows C site heard base) (seekRecovery C site descriptor epoch sleep wake) e :=
  along_seekRecovery_of h sleep wake (tame (by decide)) (tame (by decide))
    fun _ _ => along_driveRecoveryBallot

instance : Quiets site fun runtime => runtime.startRecoveryDelay site.now := by
  refine ⟨fun node => ?_⟩
  unfold LeaseRuntime.startRecoveryDelay
  split
  · exact quieter_same rfl rfl rfl rfl rfl
  · exact ⟨fun _ _ h => h, fun _ _ h => h, fun _ h => h,
      fun deadline h => .inr (Option.some.inj h).symm, fun _ h => .inl h⟩

instance : Quiets site LeaseRuntime.clearSleepingWorld :=
  ⟨fun _ => ⟨fun _ _ h => (by cases h), fun _ _ h => (by cases h), fun _ h => (by cases h),
    fun _ h => (by cases h), fun _ h => (by cases h)⟩⟩

instance : Quiets site LeaseRuntime.clearRuntimeWorld :=
  ⟨fun _ => ⟨fun _ _ h => (by cases h), fun _ _ h => (by cases h), fun _ h => (by cases h),
    fun _ h => (by cases h), fun _ h => (by cases h)⟩⟩

theorem along_tickAuthority (h : LocallyAuthorized C site ⟨descriptor, epoch⟩ e.node.store) :
    Along (Follows C site heard base) (tickAuthority C site descriptor epoch) e := by
  have hworld := (loadEpochRecord_eq_ok.mp h.accepted).2.1
  refine along_bind (Always.along (.onlyIf fun _ => tame_ensureRecoveryArtifacts hworld))
    fun _ t hartifacts => ?_
  have ht := h.of_run hartifacts (by decide)
  refine along_bind (tame (by decide) t) fun _ u hstatus => ?_
  have hu := ht.of_run hstatus (by decide)
  refine along_bind (tame (by decide) u) fun _ v hcapability => ?_
  have hv := hu.of_run hcapability (by decide)
  exact along_maintainLocalAuthority hv

theorem along_tickMember
    (h : MemberTick C site descriptor epoch e.node.store) (hactive : member ∈ descriptor.active)
    (hlocal : member.peerId = site.peer C) (sleep : Option SleepRecordV1) (wake : Bool) :
    Along (Follows C site heard base) (tickMember C site descriptor member epoch sleep wake) e := by
  refine along_bind (tame (by decide) e) fun _ t hstart => ?_
  cases hstart
  split
  · rename_i hrole
    exact along_tickAuthority ⟨h.accepted, h.described, hrole.2.1, member, hactive, hlocal⟩
  · refine along_write_bind (.quiet ⟨rfl, rfl, rfl, rfl, rfl⟩) ?_
    refine along_updateRuntime_bind (.quiet (quieter_same rfl rfl rfl rfl rfl)) ?_
    refine along_onlyIf fun _ => along_seekRecovery (h.sameBase ?_) sleep wake
    exact ⟨rfl, rfl, rfl, rfl, rfl, rfl⟩

/-- What the local role says about the store. -/
theorem localRole_eq_some (h : localRole C site store = some (descriptor, member, epoch)) :
    loadWorldDescriptor site.world store = .ok descriptor ∧ Accepted site store epoch ∧
      member ∈ descriptor.active ∧ member.peerId = site.peer C := by
  simp only [localRole, Option.bind_eq_bind, Option.bind_eq_some_iff, optional_eq_some] at h
  obtain ⟨found, hfound, found', hmember, h⟩ := h
  split at h
  · rename_i hactive
    simp only [Option.bind_eq_some_iff, optional_eq_some, Option.some.injEq, Prod.mk.injEq] at h
    obtain ⟨record, hrecord, rfl, rfl, rfl⟩ := h
    refine ⟨hfound, hrecord, List.mem_filter.mpr ⟨List.mem_of_find?_eq_some hmember, ?_⟩, ?_⟩
    · rw [hactive.1]
      rfl
    · simpa using List.find?_some hmember
  · cases h

theorem along_tickAwake (sleep : Option SleepRecordV1) (wake : Bool) :
    Along (Follows C site heard base) (tickAwake C site sleep wake) e := by
  refine along_readStore ?_
  split
  · rename_i promise hpromise
    have hworld : promise.proposal.proposed.worldId = site.world := by
      simp only [loadMembershipPromise, DurableFile.load_eq_ok, ensure_eq_ok] at hpromise
      exact hpromise.2.1
    refine along_bind (tame (by decide) e) fun _ t _ => along_bind (tame (by decide) t) fun _ u _ => ?_
    exact along_maintainMembershipTransition hworld
  · rename_i error herror
    have hprepare : Unprepared C site e.node.store := by
      intro promise hpromise
      rw [hpromise] at herror
      cases herror
    split
    · rename_i descriptor member epoch hrole
      obtain ⟨hdescribed, haccepted, hactive, hlocal⟩ := localRole_eq_some hrole
      exact along_tickMember ⟨haccepted, hdescribed, hprepare⟩ hactive hlocal sleep wake
    · exact tame (by decide) e

/-- The tick of one world. -/
theorem along_tickWorld : Along (Follows C site heard base) (tickWorld C site) e := by
  refine along_bind along_recoverCommittedMembership fun _ t _ => along_readStore ?_
  split
  · exact tame (by decide) t
  · split
    · unfold tickAsleep
      exact tame (by decide) t
    · exact along_tickAwake _ _

theorem along_maintainAuthorityLeases :
    Along (Follows C site heard base) (maintainAuthorityLeases C site) e :=
  along_readStore (along_onSome fun _ _ => along_tickWorld)

variable {C : Crypto} {site : Site} {heard : Heard} {base : List Stamp} {channel : Channel}
  {e : Exec}
variable {peer sender : PeerId} {generation : AuthorityGeneration} {epoch fencingToken : Nat}
  {context : OutboundContext} {response : WireResponse}

/-! ## Requests -/

/-- Every request is followed. -/
theorem along_handleRequest (hself : channel.self = site.peer C) {request : WireRequest}
    (hworld : request.world = site.world)
    (hheard : heard = some (channel.requester, .request request)) :
    Along (Follows C site heard base) (handleRequest C site channel request) e := by
  have := Fact.mk hself
  refine along_readStore (along_check fun _ _ => ?_)
  cases request with
  | joinRequest request => exact along_handleJoinRequest hworld
  | leaveRequest request => exact along_handleLeaveRequest hworld
  | snapshotManifest manifest => exact tame_handleSnapshotManifest manifest e
  | blobChunk worldId hash encoding finished intact =>
    exact tame_handleBlobChunk worldId hash encoding finished intact e
  | membershipProposal proposal => exact along_handleMembershipProposal hworld
  | membershipCommit certificate => exact tame_handleMembershipCommit hworld e
  | membership record => exact tame_handleMembership hworld e
  | epoch record => exact along_handleEpoch hworld
  | recoveryBallot ballot => exact along_handleRecoveryBallot hworld
  | recoveryEpoch record certificate => exact along_handleRecoveryEpoch hworld hheard
  | leaseGrant lease => exact along_handleLeaseGrant hworld
  | _ =>
    dsimp only [dispatchRequest]
    exact tame (by decide) e

/-! ## Responses -/

theorem along_receiveLeaseAccepted
    (hheard : heard = some (peer, .response (.leaseAccepted epoch fencingToken))) :
    Along (Follows C site heard base)
      (receiveLeaseAccepted C site peer generation epoch fencingToken) e := by
  refine along_check fun _ hvalid => ?_
  rw [validateGenerationResponse, guardMessage_eq_ok] at hvalid
  obtain ⟨rfl, rfl⟩ := hvalid
  exact along_learn_bind hheard (tame (by decide))

theorem along_receiveEpochAccepted
    (hheard : heard = some (peer, .response (.epochAccepted epoch fencingToken))) :
    Along (Follows C site heard base) (receiveEpochAccepted peer generation epoch fencingToken)
      e := by
  refine along_check fun _ hvalid => ?_
  rw [validateGenerationResponse, guardMessage_eq_ok] at hvalid
  obtain ⟨rfl, rfl⟩ := hvalid
  exact along_updateRuntime (.epochAcked hheard)

theorem along_receiveRecoveryVote {ballotHash : Hash32} {vote : RecoveryVoteV1}
    (hheard : heard = some (peer, .response (.recoveryVote vote))) :
    Along (Follows C site heard base) (receiveRecoveryVote C peer ballotHash vote) e :=
  along_readRuntime (along_check fun _ _ => along_onSome fun _ _ => along_check fun _ _ =>
    along_updateRuntime (.voteCollected hheard))

instance {floor : LeaseRuntime → Option Nat} : Quiets site fun runtime =>
    { runtime with recoveryRoundFloor := floor runtime, recoveryBallot := none,
                   recoveryVotes := [] } :=
  ⟨fun _ => ⟨fun _ _ h => h, fun _ _ h => h, fun _ h => h, fun _ h => .inl h,
    fun _ h => (by cases h)⟩⟩

/-- Every response is followed. -/
theorem along_dispatchResponse (hheard : heard = some (sender, .response response))
    (hcontext : ∀ peer, context.peer = some peer → peer = sender) :
    Along (Follows C site heard base) (dispatchResponse C site context response) e := by
  unfold dispatchResponse
  split
  · exact along_receiveLeaseAccepted (hcontext _ rfl ▸ hheard)
  · exact along_receiveRecoveryVote (hcontext _ rfl ▸ hheard)
  · unfold receiveRecoveryRejected
    exact tame (by decide) e
  · unfold receiveMembershipVote
    exact tame (by decide) e
  · unfold receiveCommitAccepted
    exact tame (by decide) e
  · exact along_receiveEpochAccepted (hcontext _ rfl ▸ hheard)
  · unfold receiveStatus
    exact tame (by decide) e
  · exact tame (by decide) e
  · exact along_pure ()

/-- Handling a response from the peer its request was sent to. -/
theorem along_handleResponse {number : Nat} (hheard : heard = some (sender, .response response))
    (hcontext : ∀ context, e.node.outbound.lookup number = some context →
      ∀ peer, context.peer = some peer → peer = sender) :
    Along (Follows C site heard base) (handleResponse C site number response) e := by
  refine along_bind along_takeContext fun context t hrun => along_onSome fun found hfound => ?_
  refine along_dispatchResponse hheard (hcontext found ?_)
  rw [← hfound]
  exact (Except.ok.inj (congrArg Prod.fst hrun))

/-! ## Connections -/

instance : Quiets site fun runtime => runtime.withoutAnswer context := by
  refine ⟨fun node => ?_⟩
  cases context with
  | lease peer generation =>
    exact ⟨fun _ _ h => update_none_eq_some h, fun _ _ h => h, fun _ h => h, fun _ h => .inl h,
      fun _ h => .inl h⟩
  | recoveryBallot peer ballotHash =>
    exact ⟨fun _ _ h => h, fun _ _ h => h, fun _ h => h, fun _ h => .inl h,
      fun _ h => .inl (List.mem_of_mem_filter h)⟩
  | epoch peer generation =>
    exact ⟨fun _ _ h => h, fun _ _ h => update_none_eq_some h, fun _ h => h, fun _ h => .inl h,
      fun _ h => .inl h⟩
  | _ => exact quieter_same rfl rfl rfl rfl rfl

theorem tame_handleOutboundFailure (number : Nat) :
    Tame C site heard base (handleOutboundFailure number) := by
  unfold handleOutboundFailure
  exact tame (by decide)

theorem tame_handleAuthenticated (peer : PeerId) :
    Tame C site heard base (handleAuthenticated C site peer) := by
  unfold handleAuthenticated
  exact tame (by decide)

instance : Quiets site fun runtime => runtime.disconnected peer :=
  ⟨fun _ => ⟨fun _ _ h => update_none_eq_some h, fun _ _ h => update_none_eq_some h, fun _ h => h,
    fun _ h => .inl h, fun _ h => .inl (List.mem_of_mem_filter h)⟩⟩

theorem tame_handleDisconnected (peer : PeerId) :
    Tame C site heard base (handleDisconnected peer) := by
  unfold handleDisconnected
  exact tame (by decide)

variable {token : AuthorityTransferV1} {store : Store} {next : EpochRecordV1}

/-! ## Manual transfers -/

/-- The record of an activated transfer extends the accepted one. -/
theorem activateTransferChecks_eq_ok (h : activateTransferChecks C site token store = .ok next) :
    next.worldId = site.world ∧ next.mode = .quorum ∧
      ∃ current, Accepted site store current ∧ DirectSuccessor C current next := by
  simp only [activateTransferChecks, bind_eq_ok, ofStorage_eq_ok, guardMessage_eq_ok,
    pure_eq_ok] at h
  obtain ⟨_, _, _, _, current, hcurrent, expected, hexpected, _, ⟨_, hepoch, htoken⟩, _, _, _, _,
    rfl⟩ := h
  obtain ⟨hnext, hfence⟩ := nextGeneration_eq_ok hexpected
  exact ⟨rfl, rfl, current, hcurrent, hepoch.symm.trans hnext, htoken.symm.trans hfence, rfl⟩

theorem along_activateManualTransfer :
    Along (Follows C site heard base) (activateManualTransfer C site token) e := by
  refine along_readStore (along_check fun next hnext => ?_)
  obtain ⟨hworld, hmode, current, hcurrent, hextends⟩ := activateTransferChecks_eq_ok hnext
  -- The transfer file does not carry the accepted record.
  refine along_bind (tame (by decide) e) fun _ t hrun => ?_
  obtain ⟨store, hstore, rfl⟩ := run_save.mp hrun
  simp only [saveTransferRecord, bind_eq_ok, pure_eq_ok] at hstore
  obtain ⟨_, _, rfl⟩ := hstore
  have hmode' : next.mode ≠ .recovery := by
    rw [hmode]
    decide
  exact along_bind (along_saveInstalled hworld hmode' hcurrent hextends) fun _ u _ =>
    tame (by decide) u

/-- An observed record extends the accepted one. -/
theorem observeTransferChecks_eq_ok (h : observeTransferChecks C site next store = .ok ()) :
    next.worldId = site.world ∧ next.mode ≠ .recovery ∧
      ∃ current, Accepted site store current ∧ DirectSuccessor C current next := by
  simp only [observeTransferChecks, bind_eq_ok, ofStorage_eq_ok, guardMessage_eq_ok] at h
  obtain ⟨_, ⟨hworld, hmode⟩, _, _, current, hcurrent, _, _, _, _, expected, hexpected, _,
    ⟨_, _, _, _, _, hepoch, htoken, hhash⟩, _⟩ := h
  obtain ⟨hnext, hfence⟩ := nextGeneration_eq_ok hexpected
  exact ⟨hworld, hmode, current, hcurrent, hepoch.trans hnext, htoken.trans hfence, hhash⟩

theorem along_observeManualTransferEpoch :
    Along (Follows C site heard base) (observeManualTransferEpoch C site next) e := by
  refine along_readStore (along_check fun _ hchecks => ?_)
  obtain ⟨hworld, hmode, current, hcurrent, hextends⟩ := observeTransferChecks_eq_ok hchecks
  exact along_bind (along_saveInstalled hworld hmode hcurrent hextends) fun _ t _ =>
    tame (by decide) t

/-! ## Hosting -/

theorem tame_ensureAuthorityArtifacts {epoch : EpochRecordV1}
    (hworld : epoch.worldId = site.world) :
    Tame C site heard base (ensureAuthorityArtifacts C site epoch) := by
  refine .bind (tame_ensurePromotedSnapshot _ epoch) fun _ => always_readStore fun store => ?_
  refine .onSome fun membership hmembership => ?_
  rw [optional_eq_some, hworld] at hmembership
  exact tame_ensurePromotedMembership _ epoch (loadMembershipRecord_eq_ok.mp hmembership).2.1

/-- The record of a solo wake extends the accepted one. -/
theorem soloWakeRecord_eq_ok {sleep : SleepRecordV1} {latest : SnapshotManifestV1}
    (h : soloWakeRecord C site sleep latest store = .ok next) :
    next.worldId = site.world ∧ next.mode = .solo ∧
      ∃ current, Accepted site store current ∧ DirectSuccessor C current next := by
  simp only [soloWakeRecord, bind_eq_ok, ofStorage_eq_ok, required_eq_ok, pure_eq_ok] at h
  obtain ⟨_, _, current, hcurrent, _, hepoch, _, htoken, rfl⟩ := h
  exact ⟨rfl, rfl, current, hcurrent, (checkedSucc_eq_some.mp hepoch).2,
    (checkedSucc_eq_some.mp htoken).2, rfl⟩

theorem along_prepareAwakeEpoch (latest : SnapshotManifestV1) :
    Along (Follows C site heard base) (prepareAwakeEpoch C site latest) e := by
  refine along_readStore ?_
  split
  · rename_i epoch hepoch
    refine along_check fun _ _ => ?_
    exact tame_ensureAuthorityArtifacts (loadEpochRecord_eq_ok.mp hepoch).2.1 e
  · rename_i error herror
    split
    · -- No record can be loaded, so the first one extends nothing.
      refine along_save fun store hstore => .installed rfl (fun h => by cases h) ?_ hstore
      intro current hcurrent
      rw [Accepted, herror] at hcurrent
      cases hcurrent
    · exact along_lift _

theorem along_prepareAuthorityEpoch (latest : SnapshotManifestV1) :
    Along (Follows C site heard base) (prepareAuthorityEpoch C site latest) e := by
  refine along_readStore (along_check fun _ _ => along_check fun sleep _ => ?_)
  split
  · refine along_check fun next hnext => ?_
    obtain ⟨hworld, hmode, current, hcurrent, hextends⟩ := soloWakeRecord_eq_ok hnext
    have hmode' : next.mode ≠ .recovery := by
      rw [hmode]
      decide
    refine along_bind (along_saveInstalled hworld hmode' hcurrent hextends)
      fun _ t _ => Always.along ?_
    exact .bind (tame (by decide)) fun _ => tame_ensureAuthorityArtifacts hworld
  · exact along_prepareAwakeEpoch latest

theorem along_hostWorld : Along (Follows C site heard base) (hostWorld C site) e :=
  along_readStore (along_check fun latest _ => along_prepareAuthorityEpoch latest)

theorem tame_finishSession (entries : List SnapshotEntry) (disposition : RuntimeDisposition) :
    Tame C site heard base (finishSession C site entries disposition) := by
  refine always_readStore fun _ => always_check fun epoch _ => always_check fun _ _ => ?_
  refine always_check fun head _ => always_check fun latest _ => ?_
  refine .bind (tame (by decide)) fun _ => always_check fun manifest _ => ?_
  exact .bind (tame_commitSnapshot _ _) fun _ => tame (by decide)

/-! ## Snapshots, wake, join and leave -/

theorem tame_snapshotWorld (epoch sequence : Nat) (entries : List SnapshotEntry) :
    Tame C site heard base (snapshotWorld C site epoch sequence entries) := by
  refine always_readStore fun _ => always_check fun _ _ => always_check fun head _ => ?_
  refine always_check fun number _ => .bind (tame (by decide)) fun _ => ?_
  exact always_check fun _ _ => tame_commitSnapshot none _

/-- Every command is followed. -/
theorem along_runCommand (command : Command) :
    Along (Follows C site heard base) (runCommand C site command) e := by
  cases command with
  | activateTransfer token => exact along_activateManualTransfer
  | observeTransfer token => exact along_observeManualTransferEpoch
  | host => exact along_hostWorld
  | finish entries disposition => exact tame_finishSession entries disposition e
  | snapshot epoch sequence entries => exact tame_snapshotWorld epoch sequence entries e
  | _ =>
    dsimp only [runCommand]
    exact tame (by decide) e

end SwarmCraft
