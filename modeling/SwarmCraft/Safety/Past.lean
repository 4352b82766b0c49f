import SwarmCraft.Safety.RecoveryAgreement
import SwarmCraft.Safety.MembershipAgreement

/-!
# What a peer keeps of its past

The accepted generation never goes back, the recovery window stays shut for a while
after each acknowledged lease, and a vote stays locked until its base is left. Each
event in a log therefore leaves a mark on every node after it, restarts included. Whoever
refreshes its permit has a majority behind it, and no peer accepts two records of one generation.
-/

namespace SwarmCraft

open Checked Transition Quorum History

variable {C : Crypto} {F : Fleet C} {s t : System}
variable {record : EpochRecordV1} {time clock : Nat} {world : WorldId} {p : Peer}
variable {record' first second : EpochRecordV1} {runtime : LeaseRuntime} {node before after : Node}
  {stamp : Stamp}

/-! ## Accepted generations -/

/-- The second file holds the record of the first one or one of a later generation. -/
def EpochLe (file file' : DurableFile EpochRecordV1) : Prop :=
  ∀ record, file = .present record → ∃ record', file' = .present record' ∧
    (record' = record ∨ record.generation < record'.generation)

theorem EpochLe.rfl {file : DurableFile EpochRecordV1} : EpochLe file file :=
  fun record h => ⟨record, h, .inl (.refl _)⟩

/-- Files that never go back in each step never go back at all. -/
theorem EpochLe.trans {file₁ file₂ file₃ : DurableFile EpochRecordV1} (h₁₂ : EpochLe file₁ file₂)
    (h₂₃ : EpochLe file₂ file₃) : EpochLe file₁ file₃ := by
  intro record hfile
  obtain ⟨middle, hmiddle, hle⟩ := h₁₂ record hfile
  obtain ⟨last, hlast, hle'⟩ := h₂₃ middle hmiddle
  refine ⟨last, hlast, ?_⟩
  rcases hle with rfl | hlt
  · exact hle'
  · rcases hle' with rfl | hlt'
    · exact .inr hlt
    · exact .inr (AuthorityGeneration.lt_trans hlt hlt')

/-- A later file of the same generation holds the same record. -/
theorem EpochLe.eq_of_generation (h : EpochLe (.present record) (.present record'))
    (hsame : record.generation = record'.generation) : record' = record := by
  obtain ⟨found, hfound, hle⟩ := h record (.refl _)
  rw [DurableFile.present.injEq] at hfound
  subst hfound
  rcases hle with heq | hlt
  · exact heq
  · rw [hsame] at hlt
    exact absurd hlt (AuthorityGeneration.lt_irrefl _)

/-- A later file has no earlier generation. -/
theorem EpochLe.not_lt (h : EpochLe (.present record) (.present record')) :
    ¬ record'.generation < record.generation := by
  obtain ⟨found, hfound, hle⟩ := h record (.refl _)
  rw [DurableFile.present.injEq] at hfound
  subst hfound
  intro hlt
  rcases hle with rfl | hlt'
  · exact AuthorityGeneration.lt_irrefl _ hlt
  · exact AuthorityGeneration.lt_irrefl _ (AuthorityGeneration.lt_trans hlt hlt')

/-- A saved record is not behind the stored one. -/
theorem EpochLe.save {store store' : Store}
    (h : saveEpochRecord record store = .ok store') : EpochLe store.epoch store'.epoch := by
  obtain ⟨rfl, habsent | hsame | ⟨existing, hfile, hlt⟩⟩ := saveEpochRecord_eq_ok h
  · intro found hfound
    rw [habsent] at hfound
    cases hfound
  · rw [hsame]
    exact .rfl
  · intro found hfound
    rw [hfile, DurableFile.present.injEq] at hfound
    subst hfound
    exact ⟨record, .refl _, .inr hlt⟩

variable {site : Site} {heard : Heard} {a b : Peer}

/-- The accepted generation never goes back. -/
theorem PeerMove.epochLe (h : PeerMove C site heard a b) :
    EpochLe a.node.store.epoch b.node.store.epoch := by
  cases h with
  | stored move =>
    rcases move.epoch_cases with ⟨hsame, _⟩ | ⟨record, _, installed⟩
    · rw [hsame]
      exact .rfl
    · exact .save installed.saved
  | remembered move => exact .rfl
  | logged move => exact .rfl
  | confirmed told => exact .rfl
  | bookkept => exact .rfl

/-! ## Leases -/

/-- The recovery window is shut until a lease acknowledged at the given time, and the settle delay
after it, have run out. -/
structure LeaseFloor (time : Nat) (runtime : LeaseRuntime) : Prop where
  delay : ∀ deadline, runtime.recoveryNotBefore = some deadline →
    time + authorityLeaseDurationMs + recoverySettleDelay ≤ deadline
  lease : ∀ lease, runtime.inboundLease = some lease →
    time + authorityLeaseDurationMs ≤ lease.expiresAt

/-- An open recovery window is past every floor. -/
theorem LeaseFloor.of_window {now : Nat}
    {generation : AuthorityGeneration} (h : LeaseFloor time runtime)
    (hopen : recoveryWindowOpen runtime generation now = true) :
    time + authorityLeaseDurationMs + recoverySettleDelay ≤ now := by
  have hdeadline : (runtime.recoveryNotBefore.any fun deadline => decide (deadline ≤ now)) = true →
      time + authorityLeaseDurationMs + recoverySettleDelay ≤ now := by
    intro hany
    simp only [Option.any_eq_true, decide_eq_true_eq] at hany
    obtain ⟨deadline, hsome, hle⟩ := hany
    exact (h.delay deadline hsome).trans hle
  unfold recoveryWindowOpen at hopen
  cases hlease : runtime.inboundLease with
  | none =>
    rw [hlease] at hopen
    exact hdeadline hopen
  | some lease =>
    have hexpires := h.lease lease hlease
    rw [hlease] at hopen
    dsimp only at hopen
    split at hopen
    · cases hopen
    · split at hopen
      · have hsettled := of_decide_eq_true hopen
        omega
      · exact hdeadline hopen

/-- A change of memory does not lower a floor of the past. -/
theorem RuntimeMove.floor (h : RuntimeMove site heard node runtime) (htime : time ≤ site.now)
    (hfloor : LeaseFloor time node.runtime) : LeaseFloor time runtime := by
  cases h with
  | quiet quieter =>
    refine ⟨fun deadline hdeadline => ?_, fun lease hlease => ?_⟩
    · rcases quieter.recoveryNotBefore deadline hdeadline with hold | rfl
      · exact hfloor.delay deadline hold
      · omega
    · exact hfloor.lease lease (quieter.inboundLease lease hlease)
  | granted generation =>
    refine ⟨fun deadline hdeadline => ?_, fun lease hlease => ?_⟩
    · simp only [LeaseRuntime.granted, Option.some.injEq] at hdeadline
      omega
    · simp only [LeaseRuntime.granted, Option.some.injEq] at hlease
      subst hlease
      exact Nat.add_le_add_right htime _
  | epochAcked told => exact ⟨hfloor.delay, hfloor.lease⟩
  | voteCollected told => exact ⟨hfloor.delay, hfloor.lease⟩

/-- A move does not lower a floor of the past. -/
theorem PeerMove.floor (h : PeerMove C site heard a b) (htime : time ≤ site.now)
    (hfloor : LeaseFloor time a.node.runtime) : LeaseFloor time b.node.runtime := by
  cases h with
  | stored move => exact hfloor
  | remembered move => exact move.floor htime hfloor
  | logged move => exact hfloor
  | confirmed told => exact ⟨hfloor.delay, hfloor.lease⟩
  | bookkept => exact hfloor

/-! ## Marks -/

/-- What an event leaves behind on a later node of the peer. -/
structure Stamp.Marks (C : Crypto) (world : WorldId) (stamp : Stamp) (node : Node) : Prop where
  /-- The accepted generation did not go back. -/
  epoch : EpochLe stamp.node.store.epoch node.store.epoch
  /-- A stored record is accepted, or a later one. -/
  stored : ∀ record, stamp.event = .storedEpoch record →
    EpochLe (.present record) node.store.epoch
  /-- The recovery window is shut for as long as an acknowledged lease runs. -/
  lease : ∀ generation authority, stamp.event = .acceptedLease generation authority →
    LeaseFloor stamp.time node.runtime
  /-- A recovery vote is locked until its base is left. -/
  voted : ∀ ballot vote wake, stamp.event = .votedRecovery ballot vote wake →
    promisedValue node.store.recoveryPromise = some (ballot.base, ballot.value) ∨
      EpochPast node.store ballot.base
  /-- A membership vote is locked until its record is replaced. -/
  prepared : ∀ proposal vote, stamp.event = .votedMembership proposal vote →
    preparedValue C world node.store = some (proposal.previous, proposal.proposed) ∨
      MembershipPast world node.store proposal.previous

/-- A move keeps the marks of the past. -/
theorem Stamp.Marks.move (h : PeerMove C site heard a b)
    (htime : stamp.time ≤ site.now) (hmarks : stamp.Marks C site.world a.node) :
    stamp.Marks C site.world b.node where
  epoch := hmarks.epoch.trans h.epochLe
  stored record hevent := (hmarks.stored record hevent).trans h.epochLe
  lease generation authority hevent := h.floor htime (hmarks.lease generation authority hevent)
  voted ballot vote wake hevent := by
    rcases hmarks.voted ballot vote wake hevent with hlocked | hpast
    · exact h.recoveryStep.lock_or_retired hlocked
    · exact .inr (h.recoveryStep.retired _ hpast)
  prepared proposal vote hevent := by
    rcases hmarks.prepared proposal vote hevent with hlocked | hpast
    · exact h.membershipStep.lock_or_retired hlocked
    · exact .inr (h.membershipStep.retired _ hpast)

/-- A recorded recovery vote is the stored promise afterwards. -/
theorem Recorded.votedRecovery {ballot : RecoveryBallotV1} {vote : RecoveryVoteV1} {wake : Bool}
    (h : Recorded C site heard before after (.votedRecovery ballot vote wake)) :
    after.store.recoveryPromise = .present ⟨ballot, vote⟩ := by
  cases h with
  | stored move mem same =>
    subst same
    generalize hafter : after.store = store at move
    rcases move.recoveryPromise_cases with ⟨_, hnone⟩ | ⟨votable, own, saved⟩ | stored
    · exact absurd mem (hnone ballot vote wake)
    · obtain ⟨promise, hfile, hevent⟩ := mem_recoveryVotesReleased mem
      rw [Event.votedRecovery.injEq] at hevent
      obtain ⟨rfl, rfl, _⟩ := hevent
      exact hfile
    · cases mem
  | logged move same => cases move
  | confirmed told same => cases same

/-- A recorded membership vote is the stored promise afterwards. -/
theorem Recorded.votedMembership {proposal : MembershipProposalV1} {vote : MembershipVoteV1}
    (h : Recorded C site heard before after (.votedMembership proposal vote)) :
    preparedValue C site.world after.store = some (proposal.previous, proposal.proposed) := by
  cases h with
  | stored move mem same =>
    subst same
    generalize hafter : after.store = store at move
    rcases move.membershipPromise_cases with ⟨_, hnone⟩ | ⟨world, onCommitted, saved⟩ | stored
    · exact absurd mem (hnone proposal vote)
    · obtain ⟨rfl, hshape, hload⟩ := releasedMembership_spec world saved mem
      exact preparedValue_eq_some.mpr ⟨_, hload, hshape, rfl, rfl⟩
    · cases mem
  | logged move same => cases move
  | confirmed told same => cases same

/-- An event marks the node right after it. -/
theorem Stamp.Marks.recorded (h : PeerMove C site heard a b)
    (hnode : stamp.node = a.node) (htime : stamp.time = site.now)
    (hrecorded : Recorded C site heard a.node b.node stamp.event) :
    stamp.Marks C site.world b.node where
  epoch := hnode ▸ h.epochLe
  stored record hevent := by
    rw [hevent] at hrecorded
    have hsaved := (saveEpochRecord_eq_ok hrecorded.storedEpoch.saved).1
    rw [hsaved]
    exact .rfl
  lease generation authority hevent := by
    rw [hevent] at hrecorded
    obtain ⟨move, same⟩ := hrecorded.acceptedLease
    cases move with
    | acceptedLease accepted lease delay =>
      rw [same, htime]
      refine ⟨fun deadline hdeadline => ?_, fun found hfound => ?_⟩
      · rw [delay, Option.some.injEq] at hdeadline
        exact hdeadline.le
      · rw [lease, Option.some.injEq] at hfound
        subst hfound
        exact Nat.le_refl _
  voted ballot vote wake hevent := by
    rw [hevent] at hrecorded
    rw [hrecorded.votedRecovery]
    exact .inl rfl
  prepared proposal vote hevent := by
    rw [hevent] at hrecorded
    exact .inl hrecorded.votedMembership

/-! ## Runs -/

/-- The past of a peer: nothing is stamped in the future, and every event left its marks. -/
structure Peer.Marked (C : Crypto) (world : WorldId) (clock : Nat) (p : Peer) : Prop where
  times : ∀ stamp ∈ p.log, stamp.time ≤ clock
  marks : Kept (Stamp.Marks C world) (fun stamp => stamp.node) p.log p.node

/-- A move adds to the past of a peer. -/
theorem PeerMove.marked (h : PeerMove C site heard a b) (ha : a.Marked C site.world site.now) :
    b.Marked C site.world site.now := by
  obtain ⟨new, hlog, hone, hnew⟩ := h.log_append
  refine ⟨fun stamp hstamp => ?_, ?_⟩
  · rw [hlog] at hstamp
    rcases List.mem_append.mp hstamp with hold | hmem
    · exact ha.times stamp hold
    · exact (hnew stamp hmem).2.1.le
  · rw [hlog]
    refine ha.marks.step (fun stamp hstamp => .move h (ha.times stamp hstamp))
      (fun stamp hstamp => (hnew stamp hstamp).1) (fun stamp hstamp => ?_) hone
    obtain ⟨hnode, htime, hrecorded⟩ := hnew stamp hstamp
    exact .recorded h hnode htime hrecorded

/-- Every event of a run left its marks. -/
theorem Run.marked (hrun : Run (Step C F) s t) (hs : s.Initial) (peer : PeerId) :
    (t.peer peer).Marked C F.world t.clock := by
  refine Run.peerInvariant (I := fun r _ p => p.Marked C F.world r.clock) ?_ ?_ hrun ?_ peer
  · intro r _ peer heard a b _ ha hmove
    exact hmove.marked ha
  · intro r r' hstep peer hmarked
    exact ⟨fun stamp hstamp => (hmarked.times stamp hstamp).trans hstep.clock_le, hmarked.marks⟩
  · intro peer
    have hempty : (s.peer peer).log = [] := hs.logs peer
    refine ⟨?_, ?_⟩
    · rw [hempty]
      simp
    · rw [hempty]
      exact .nil

/-! ## Accepted records of the past -/

/-- A peer accepts a record, or did so at an event. -/
def Peer.HasAccepted (p : Peer) (record : EpochRecordV1) : Prop :=
  p.node.store.epoch = .present record ∨
    ∃ stamp ∈ p.log, stamp.node.store.epoch = .present record

/-- The accepted record is never behind one of the past. -/
theorem Peer.Marked.accepted_le (h : p.Marked C world clock) (hrecord : p.HasAccepted record) :
    EpochLe (.present record) p.node.store.epoch := by
  rcases hrecord with hcurrent | ⟨stamp, hstamp, hfile⟩
  · rw [hcurrent]
    exact .rfl
  · rw [← hfile]
    exact (h.marks.current stamp hstamp).epoch

/-- Of two records that a peer accepted, neither has an earlier generation or one replaced the
other. -/
theorem Peer.Marked.accepted_total (h : p.Marked C world clock) (hfirst : p.HasAccepted first)
    (hsecond : p.HasAccepted second) :
    EpochLe (.present first) (.present second) ∨ EpochLe (.present second) (.present first) := by
  rcases hfirst with hcurrent | ⟨a, ha, hfile⟩
  · rw [← hcurrent]
    exact .inr (h.accepted_le hsecond)
  · rcases hsecond with hcurrent | ⟨b, hb, hother⟩
    · rw [← hcurrent]
      exact .inl (h.accepted_le (.inr ⟨a, ha, hfile⟩))
    · rw [← hfile, ← hother]
      rcases h.marks.related ha hb with rfl | hmarks | hmarks
      · exact .inl .rfl
      · exact .inl hmarks.epoch
      · exact .inr hmarks.epoch

/-- A peer never accepts two records of one generation. -/
theorem Peer.Marked.accepted_unique (h : p.Marked C world clock) (hfirst : p.HasAccepted first)
    (hsecond : p.HasAccepted second) (hsame : first.generation = second.generation) :
    first = second := by
  rcases h.accepted_total hfirst hsecond with hle | hle
  · exact (hle.eq_of_generation hsame).symm
  · exact hle.eq_of_generation hsame.symm

/-- The record a peer had accepted at an event is accepted still, or one was stored over it. -/
def Peer.Departs (p : Peer) : Prop :=
  ∀ record, p.HasAccepted record → p.node.store.epoch = .present record ∨
    ∃ stamp ∈ p.log, ∃ next, stamp.event = .storedEpoch next ∧
      stamp.node.store.epoch = .present record

/-- A move that leaves the accepted record stores another one. -/
theorem PeerMove.epoch_left (h : PeerMove C site heard a b)
    (hrecord : a.node.store.epoch = .present record) :
    b.node.store.epoch = .present record ∨ ∃ stamp ∈ b.log, ∃ next,
      stamp.event = .storedEpoch next ∧ stamp.node.store.epoch = .present record := by
  cases h with
  | stored move =>
    rcases move.epoch_cases with ⟨hsame, _⟩ | ⟨next, rfl, _⟩
    · exact .inl (hsame.trans hrecord)
    · exact .inr ⟨_, List.mem_append_right _ List.mem_cons_self, next, rfl, hrecord⟩
  | remembered move => exact .inl hrecord
  | logged move => exact .inl hrecord
  | confirmed told => exact .inl hrecord
  | bookkept => exact .inl hrecord

/-- A move only leaves the accepted record by storing another one. -/
theorem PeerMove.departs (h : PeerMove C site heard a b) (ha : a.Departs) : b.Departs := by
  obtain ⟨new, hlog, _, hnew⟩ := h.log_append
  intro record hknown
  rcases hknown with hcurrent | ⟨stamp, hstamp, hfile⟩
  · exact .inl hcurrent
  · have hbefore : a.HasAccepted record := by
      rw [hlog] at hstamp
      rcases List.mem_append.mp hstamp with hold | hmem
      · exact .inr ⟨stamp, hold, hfile⟩
      · rw [(hnew stamp hmem).1] at hfile
        exact .inl hfile
    rcases ha record hbefore with hcurrent | ⟨left, hleft, next, hevent, hrecord⟩
    · exact h.epoch_left hcurrent
    · exact .inr ⟨left, h.log_prefix.subset hleft, next, hevent, hrecord⟩

/-- Accepted records are only left by storing other ones, in every run. -/
theorem Run.departs (hrun : Run (Step C F) s t) (hs : s.Initial) (peer : PeerId) :
    (t.peer peer).Departs := by
  refine Step.invariant (I := fun _ p => p.Departs) ?_ hrun ?_ peer
  · intro s peer heard a b _ ha hmove
    exact hmove.departs ha
  · rintro peer record (hcurrent | ⟨stamp, hstamp, _⟩)
    · exact .inl hcurrent
    · simp only [System.peer, hs.logs, List.not_mem_nil] at hstamp

/-! ## Lease acknowledgements -/

/-- The acknowledgements in memory are in the log. -/
def AcksConfirmed (log : List Stamp) (node : Node) : Prop :=
  ∀ other ack, node.runtime.leaseAcks other = some ack →
    ∃ stamp ∈ log, stamp.event = .confirmedLease other ack.generation ∧
      stamp.time = ack.observedAt

theorem AcksConfirmed.mono {log log' : List Stamp} (h : AcksConfirmed log node)
    (hlog : log <+: log') : AcksConfirmed log' node := by
  intro other ack hack
  obtain ⟨stamp, hstamp, hevent⟩ := h other ack hack
  exact ⟨stamp, hlog.subset hstamp, hevent⟩

/-- A move only adds acknowledgements that it records. -/
theorem PeerMove.acksConfirmed (h : PeerMove C site heard a b) (ha : AcksConfirmed a.log a.node) :
    AcksConfirmed b.log b.node := by
  have hkept : AcksConfirmed b.log a.node := ha.mono h.log_prefix
  cases h with
  | stored move => exact hkept
  | remembered move =>
    intro other ack hack
    cases move with
    | quiet quieter => exact hkept other ack (quieter.leaseAcks other ack hack)
    | granted generation => exact hkept other ack hack
    | epochAcked told => exact hkept other ack hack
    | voteCollected told => exact hkept other ack hack
  | logged move => exact hkept
  | @confirmed sender generation told =>
    intro other ack hack
    by_cases hother : other = sender
    · subst hother
      simp only [Function.update_self, Option.some.injEq] at hack
      subst hack
      exact ⟨_, List.mem_append_right _ List.mem_cons_self, rfl, rfl⟩
    · simp only [Function.update_of_ne hother] at hack
      exact hkept other ack hack
  | bookkept => exact hkept

/-- The acknowledgements a peer has, or had at an event, are in its log. -/
theorem Run.acksConfirmed (hrun : Run (Step C F) s t) (hs : s.Initial) (peer : PeerId) :
    AcksConfirmed (t.logs peer) (t.nodes peer) ∧
      ∀ stamp ∈ t.logs peer, AcksConfirmed (t.logs peer) stamp.node := by
  refine Step.invariant (I := fun _ p => AcksConfirmed p.log p.node ∧
    ∀ stamp ∈ p.log, AcksConfirmed p.log stamp.node) ?_ hrun ?_ peer
  · intro s peer heard a b _ ha hmove
    obtain ⟨new, hlog, _, hnew⟩ := hmove.log_append
    refine ⟨hmove.acksConfirmed ha.1, fun stamp hstamp => ?_⟩
    rw [hlog] at hstamp
    rcases List.mem_append.mp hstamp with hold | hmem
    · exact (ha.2 stamp hold).mono hmove.log_prefix
    · rw [(hnew stamp hmem).1]
      exact ha.1.mono hmove.log_prefix
  · intro peer
    refine ⟨fun other ack hack => ?_, fun stamp hstamp => ?_⟩
    · simp only [System.peer, hs.runtime, LeaseRuntime.default, reduceCtorEq] at hack
    · simp only [System.peer, hs.logs, List.not_mem_nil] at hstamp

/-! ## Who stands behind a generation -/

/-- A peer accepted a generation under an authority, now or at some event. -/
def Peer.Backs (p : Peer) (generation : AuthorityGeneration) (authority : PeerId) : Prop :=
  ∃ record, p.HasAccepted record ∧ record.generation = generation ∧
    record.authorityPeerId = authority

/-- A peer never accepts two authorities of one generation. -/
theorem Peer.Backs.unique {world : WorldId} {clock : Nat} {p : Peer} (h : p.Marked C world clock)
    {generation : AuthorityGeneration} {first second : PeerId} (hfirst : p.Backs generation first)
    (hsecond : p.Backs generation second) : first = second := by
  obtain ⟨record, hrecord, hgeneration, rfl⟩ := hfirst
  obtain ⟨other, hother, hsame, rfl⟩ := hsecond
  rw [h.accepted_unique hrecord hother (hgeneration.trans hsame.symm)]

/-- Every acknowledged lease on the network is in the log of its sender. -/
theorem Run.backed (hrun : Run (Step C F) s t) (hs : s.Initial) :
    ∀ packet ∈ t.sent, t.Backed packet := by
  refine Run.invariant (I := fun r => ∀ packet ∈ r.sent, r.Backed packet) ?_ hrun ?_
  · intro r r' hr hstep
    exact hstep.backed hr
  · rw [hs.sent]
    simp

/-- A confirmed lease was acknowledged by the peer it came from. -/
theorem acceptedLease_of_confirmed (hrun : Run (Step C F) s t) (hs : s.Initial) {peer other : PeerId}
    (hother : F.honest other) {stamp : Stamp} (hstamp : stamp ∈ t.logs peer)
    {generation : AuthorityGeneration} (hevent : stamp.event = .confirmedLease other generation) :
    ∃ accepted ∈ t.logs other, accepted.event = .acceptedLease generation peer := by
  obtain ⟨heard, after, hheeds, hrecorded⟩ := Run.justified hrun hs hstamp
  rw [hevent] at hrecorded
  obtain ⟨number, hsent, _⟩ := hheeds other _ hrecorded.confirmedLease
  exact Run.backed hrun hs _ (hsent hother) _ _ rfl

/-- An acknowledged lease was one of the accepted authority. -/
theorem Stamp.Justified.acceptedLease {peer : PeerId} {stamp : Stamp}
    {generation : AuthorityGeneration} {authority : PeerId} (h : stamp.Justified F s peer)
    (hevent : stamp.event = .acceptedLease generation authority) :
    ∃ record, loadEpochRecord F.world stamp.node.store = .ok record ∧
      record.generation = generation ∧ record.authorityPeerId = authority := by
  obtain ⟨heard, after, _, hrecorded⟩ := h
  rw [hevent] at hrecorded
  cases hrecorded.acceptedLease.1 with
  | acceptedLease accepted lease delay => exact ⟨_, accepted, rfl, rfl⟩

/-! ## Quorums of fresh leases -/

section LeaseQuorum

variable {site : Site} {descriptor : WorldDescriptorV1} {runtime : LeaseRuntime}
  {generation : AuthorityGeneration} {V : List PeerId}

/-- The connected members that pass a test, counted together with the local peer. -/
theorem majority_of_confirmed {test : PeerId → Bool}
    (hids : descriptor.active.map WorldMemberV1.peerId = V) (hdistinct : V.Nodup)
    (hself : site.peer C ∈ V) (hquorum : hasQuorum descriptor.active.length
      (1 + (confirmedMembers C site descriptor runtime test).length) = true) :
    ∃ A, Majority V.toFinset A ∧ ∀ peer ∈ A, peer = site.peer C ∨ test peer = true := by
  let confirmed := (confirmedMembers C site descriptor runtime test).map WorldMemberV1.peerId
  have hsublist : confirmed.Sublist V := by
    rw [← hids]
    exact List.Sublist.map _ List.filter_sublist
  have hconfirmed : ∀ peer ∈ confirmed, peer ≠ site.peer C ∧ test peer = true := by
    intro peer hpeer
    simp only [confirmed, confirmedMembers, List.mem_map, List.mem_filter, Bool.and_eq_true,
      decide_eq_true_eq] at hpeer
    obtain ⟨member, ⟨_, ⟨hne, _⟩, htest⟩, rfl⟩ := hpeer
    exact ⟨hne, htest⟩
  have hfresh : site.peer C ∉ confirmed.toFinset := by
    rw [List.mem_toFinset]
    exact fun hmem => (hconfirmed _ hmem).1 rfl
  refine ⟨insert (site.peer C) confirmed.toFinset, majority_of_hasQuorum ?_ ?_ hquorum ?_, ?_⟩
  · rw [List.toFinset_card_of_nodup hdistinct, ← hids, List.length_map]
  · intro peer hpeer
    rcases Finset.mem_insert.mp hpeer with rfl | hmem
    · exact List.mem_toFinset.mpr hself
    · exact List.mem_toFinset.mpr (hsublist.subset (List.mem_toFinset.mp hmem))
  · rw [Finset.card_insert_of_notMem hfresh,
      List.toFinset_card_of_nodup (hdistinct.sublist hsublist), List.length_map]
    omega
  · intro peer hpeer
    rcases Finset.mem_insert.mp hpeer with rfl | hmem
    · exact .inl rfl
    · exact .inr (hconfirmed peer (List.mem_toFinset.mp hmem)).2

/-- A fresh acknowledgement of a generation. -/
theorem leaseFresh_eq_true {now : Nat} {peer : PeerId} :
    runtime.leaseFresh generation now peer = true ↔
      ∃ ack, runtime.leaseAcks peer = some ack ∧ ack.generation = generation ∧
        now - ack.observedAt < authorityLeaseDurationMs := by
  simp only [LeaseRuntime.leaseFresh, Option.any_eq_true, Bool.and_eq_true, decide_eq_true_eq]

end LeaseQuorum

/-! ## Permits -/

variable (F) in
/-- At every event, the descriptor of a peer lists the same active members. -/
def System.FixedMembers (s : System) (V : List PeerId) : Prop :=
  ∀ peer, ∀ stamp ∈ s.logs peer, ∀ descriptor,
    loadWorldDescriptor F.world stamp.node.store = .ok descriptor →
      descriptor.active.map WorldMemberV1.peerId = V

/-- A refreshed permit has a majority behind it that accepted its holder. -/
theorem Run.backed_permit (hrun : Run (Step C F) s t) (hs : s.Initial) {V : List PeerId}
    (hdistinct : V.Nodup) (hhonest : ∀ peer ∈ V, F.honest peer) (hfixed : t.FixedMembers F V)
    {peer : PeerId} {stamp : Stamp} (hstamp : stamp ∈ t.logs peer)
    {generation : AuthorityGeneration} (hevent : stamp.event = .refreshedPermit generation) :
    ∃ A, Majority V.toFinset A ∧ ∀ backer ∈ A, (t.peer backer).Backs generation peer := by
  obtain ⟨heard, after, _, hrecorded⟩ := Run.justified hrun hs hstamp
  have hself : (F.siteAt peer stamp.time).peer C = peer :=
    F.key_spec peer (Run.honest_of_log hrun hs hstamp)
  rw [hevent] at hrecorded
  cases hrecorded.refreshedPermit with
  | @refreshedPermit descriptor record member accepted described mode authority active isLocal
      quorum =>
    have hids := hfixed peer stamp hstamp descriptor described
    have hmember : (F.siteAt peer stamp.time).peer C ∈ V := by
      rw [← hids, ← isLocal]
      exact List.mem_map_of_mem active
    obtain ⟨A, hmajority, hfresh⟩ := majority_of_confirmed hids hdistinct hmember quorum
    refine ⟨A, hmajority, fun backer hbacker => ?_⟩
    rw [hself] at hfresh authority
    rcases hfresh backer hbacker with rfl | hack
    · have hfile := (loadEpochRecord_eq_ok.mp accepted).1
      exact ⟨record, .inr ⟨stamp, hstamp, hfile⟩, rfl, authority⟩
    · obtain ⟨ack, hack, hgeneration, _⟩ := leaseFresh_eq_true.mp hack
      obtain ⟨confirmed, hconfirmed, htold, _⟩ :=
        (Run.acksConfirmed hrun hs peer).2 stamp hstamp backer ack hack
      have hbackerHonest := hhonest backer (List.mem_toFinset.mp (hmajority.subset hbacker))
      obtain ⟨lease, hlease, haccepted⟩ :=
        acceptedLease_of_confirmed hrun hs hbackerHonest hconfirmed htold
      obtain ⟨found, hload, hsame, hauthority⟩ :=
        (Run.justified hrun hs hlease).acceptedLease haccepted
      have hfile := (loadEpochRecord_eq_ok.mp hload).1
      exact ⟨found, .inr ⟨lease, hlease, hfile⟩, hsame.trans hgeneration, hauthority⟩

/-- At most one peer ever refreshes a permit of a generation. -/
theorem permit_holder_unique (hrun : Run (Step C F) s t) (hs : s.Initial) {V : List PeerId}
    (hdistinct : V.Nodup) (hhonest : ∀ peer ∈ V, F.honest peer) (hfixed : t.FixedMembers F V)
    {p q : PeerId} {a b : Stamp} (ha : a ∈ t.logs p) (hb : b ∈ t.logs q)
    {generation : AuthorityGeneration} (hp : a.event = .refreshedPermit generation)
    (hq : b.event = .refreshedPermit generation) : p = q := by
  obtain ⟨A, hA, hbacksA⟩ := Run.backed_permit hrun hs hdistinct hhonest hfixed ha hp
  obtain ⟨B, hB, hbacksB⟩ := Run.backed_permit hrun hs hdistinct hhonest hfixed hb hq
  obtain ⟨common, hcommonA, hcommonB⟩ := hA.meet hB
  exact Peer.Backs.unique (Run.marked hrun hs common) (hbacksA common hcommonA)
    (hbacksB common hcommonB)

/-- The first authority has its lease acknowledged by the second member and refreshes its permit
twice. -/
def renewPermit : List Cue :=
  connect Founding.first Founding.second ++
    [tick Founding.first, hand Founding.first Founding.second 0,
      hand Founding.second Founding.first 0, tick Founding.first, tick Founding.first]

/-- Whoever refreshes the first permit is the authority of the founding record. -/
theorem permit_holder_unique_renewed :
    let f := Founding.numbered 3
    let t := (f.system .ideal).play .ideal f.fleet renewPermit
    (∃ a ∈ t.logs Founding.first, a.event = .refreshedPermit ⟨1, 1⟩) ∧
      (∃ b ∈ t.logs (f.epoch .ideal).authorityPeerId, b.event = .refreshedPermit ⟨1, 1⟩) ∧
      Founding.first = (f.epoch .ideal).authorityPeerId := by
  intro f t
  have hplays : (f.system .ideal).Plays .ideal f.fleet renewPermit := by decide +kernel
  have hfixed : t.FixedMembers f.fleet [Founding.first, Founding.second, Founding.third] :=
    forall_logs_play (fun _ => rfl) (by decide +kernel)
  have hfirst : ∃ a ∈ t.logs Founding.first, a.event = .refreshedPermit ⟨1, 1⟩ := by decide +kernel
  have hnamed : ∃ b ∈ t.logs (f.epoch .ideal).authorityPeerId,
      b.event = .refreshedPermit ⟨1, 1⟩ := by decide +kernel
  refine ⟨hfirst, hnamed, ?_⟩
  obtain ⟨a, ha, hp⟩ := hfirst
  obtain ⟨b, hb, hq⟩ := hnamed
  exact permit_holder_unique hplays.run (Founding.system_initial .ideal f) (by decide)
    (fun _ _ => trivial) hfixed ha hb hp hq

end SwarmCraft
