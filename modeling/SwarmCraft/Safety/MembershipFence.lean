import SwarmCraft.Safety.Past

/-!
# Membership changes against the accepted epoch and recovery

Whether a peer prepares, votes for or commits a membership change is decided by the committed
membership record that the change extends, not by the accepted epoch record. A prepared change
keeps its peer from voting for a recovery. The converse does not hold: a peer that promised a
successor still votes for a membership change of the authority it gave up.
-/

namespace SwarmCraft

open Checked Effect Transition
open Founding (first second third fourth numbered gather canvass system_initial)

variable {C : Crypto} {F : Fleet C} {site : Site} {channel : Channel} {s : System} {e : Exec}
variable {proposal : MembershipProposalV1} {host : LocalHost} {store : Store}

/-- The change that a request asks to prepare or to commit. -/
def WireRequest.carried : WireRequest → Option MembershipProposalV1
  | .membershipProposal proposal => some proposal
  | .membershipCommit certificate => some certificate.proposal
  | _ => none

/-- The peer newly stored the change as its prepare, released a vote for it or committed it. -/
def Backs (proposal : MembershipProposalV1) (before : Store) (out : Exec) : Prop :=
  (∃ vote, out.node.store.membershipPromise = .present ⟨proposal, vote⟩ ∧
      before.membershipPromise ≠ .present ⟨proposal, vote⟩) ∨
    (∃ vote, ∃ entry ∈ out.log, entry.event = .votedMembership proposal vote) ∨
    (out.node.store.membership = .present proposal.proposed ∧
      before.membership ≠ .present proposal.proposed)

/-- The record that a change builds on: the committed one, or the one it names where the peer has
none. -/
def changeBase (proposal : MembershipProposalV1) (store : Store) : MembershipRecordV1 :=
  match loadMembershipRecord proposal.proposed.worldId store with
  | .ok current => current
  | .error _ => proposal.previous

/-! ## What the checks compare -/

/-- Records of one epoch and one authority match the same epoch records. -/
theorem matchesEpochAuthority_congr {a b : MembershipRecordV1} (hepoch : a.epoch = b.epoch)
    (hpeer : a.authorityPeerId = b.authorityPeerId)
    (hkey : a.authorityPublicKey = b.authorityPublicKey) (epoch : EpochRecordV1) :
    matchesEpochAuthority a epoch = matchesEpochAuthority b epoch := by
  unfold matchesEpochAuthority
  rw [hepoch, hpeer, hkey]

/-- The two records of a proposal of valid shape match the same epoch records. -/
theorem matchesEpochAuthority_proposed
    (h : proposal.validateShape C = true) (epoch : EpochRecordV1) :
    matchesEpochAuthority proposal.proposed epoch =
      matchesEpochAuthority proposal.previous epoch := by
  obtain ⟨hepoch, hpeer, hkey⟩ := MembershipProposalV1.validateShape_authority h
  exact (matchesEpochAuthority_congr hepoch hpeer hkey epoch).symm

/-- A proposal that passes its checks belongs to the epochs that its base belongs to. -/
theorem membershipProposalChecks_base {sender : PeerId}
    (h : membershipProposalChecks C site sender proposal host store = .ok ())
    (epoch : EpochRecordV1) :
    matchesEpochAuthority proposal.proposed epoch =
      matchesEpochAuthority (changeBase proposal store) epoch := by
  simp only [membershipProposalChecks, bind_eq_ok, mapError_eq_ok] at h
  obtain ⟨_, _, _, _, _, _, _, hshape, hlocal⟩ := h
  rw [matchesEpochAuthority_proposed (validateMembershipProposalShape_shape hshape)]
  unfold changeBase
  split
  · rename_i current hload
    rw [validateMembershipProposalForLocal_eq_ok hlocal current hload]
  · rfl

/-- A certificate that passes its checks belongs to the epochs that its base belongs to. -/
theorem validateMembershipCertificateForLocal_base {certificate : MembershipCertificateV1}
    (h : validateMembershipCertificateForLocal C site host certificate store = .ok ())
    (epoch : EpochRecordV1) :
    matchesEpochAuthority certificate.proposal.proposed epoch =
      matchesEpochAuthority (changeBase certificate.proposal store) epoch := by
  simp only [validateMembershipCertificateForLocal, bind_eq_ok] at h
  obtain ⟨_, hsignatures, _, hextends, _⟩ := h
  have hsame := matchesEpochAuthority_proposed
    (validateMembershipCertificateSignatures_shape hsignatures) epoch
  unfold changeBase
  cases hload : loadMembershipRecord certificate.proposal.proposed.worldId store with
  | error error => exact hsame
  | ok current =>
    -- The committed record is the proposed one already, or the one that the change extends.
    simp only [extendsCommittedConfiguration, hload, bind_eq_ok, guardMessage_eq_ok] at hextends
    obtain ⟨_, _, rfl | hhash⟩ := hextends
    · rfl
    · rw [(MembershipRecordV1.recordHash_inj C).mp hhash]
      exact hsame

/-! ## Handling a change -/

/-- A handler that fails in its checks backs nothing. -/
theorem not_backs_start (proposal : MembershipProposalV1) (node : Node) :
    ¬ Backs proposal node.store (Exec.start node) := by
  rintro (⟨vote, hafter, hbefore⟩ | ⟨vote, entry, hentry, _⟩ | ⟨hafter, hbefore⟩)
  · exact hbefore hafter
  · cases hentry
  · exact hbefore hafter

/-- The handlers of a change do nothing unless it belongs to the epochs that its base belongs
to. -/
theorem idle_dispatchRequest {message : WireRequest}
    (hcarried : message.carried = some proposal) (epoch : EpochRecordV1) :
    Along (Idle (matchesEpochAuthority proposal.proposed epoch =
        matchesEpochAuthority (changeBase proposal e.node.store) epoch))
      (dispatchRequest C site channel message) e := by
  cases message with
  | membershipProposal proposal =>
    cases hcarried
    refine along_readStore (along_readHost (along_check fun _ hchecks => .inr ?_))
    exact membershipProposalChecks_base hchecks epoch
  | membershipCommit certificate =>
    cases hcarried
    refine along_readStore (along_readHost (along_check fun _ _ => ?_))
    exact along_check fun _ hvalid => .inr (validateMembershipCertificateForLocal_base hvalid epoch)
  | _ => cases hcarried

/-- A change that a peer prepares, votes for or commits belongs to the accepted epoch and its
authority exactly when the committed record that it builds on does. -/
theorem membership_change_current {peer sender : PeerId} {number : Nat} {message : WireRequest}
    {proposal : MembershipProposalV1} (hcarried : message.carried = some proposal)
    (hbacks : Backs proposal (s.nodes peer).store
      (s.handle C F peer (.request sender number message)).2) :
    ∀ epoch, loadEpochRecord proposal.proposed.worldId (s.nodes peer).store = .ok epoch →
      (matchesEpochAuthority proposal.proposed epoch = true ↔
        matchesEpochAuthority (changeBase proposal (s.nodes peer).store) epoch = true) := by
  intro epoch _
  have hidle : Along (Idle (matchesEpochAuthority proposal.proposed epoch =
        matchesEpochAuthority (changeBase proposal (s.nodes peer).store) epoch))
      (handleRequest C (s.site C F peer) ⟨(s.site C F peer).peer C, sender, number⟩ message)
      (Exec.start (s.nodes peer)) :=
    along_readStore (along_check fun _ _ => idle_dispatchRequest hcarried epoch)
  rcases hidle with hsame | hmatch
  · have hstart : (s.handle C F peer (.request sender number message)).2 =
        Exec.start (s.nodes peer) := hsame
    rw [hstart] at hbacks
    exact absurd hbacks (not_backs_start proposal _)
  · rw [hmatch]

/-- The second member votes for a departure that the authority of the accepted epoch proposes. -/
theorem membership_change_current_departure :
    let f := numbered 3
    let proposal := f.proposal .ideal ((f.members .ideal).take 2)
    let t := (f.system .ideal).play .ideal f.fleet voteOnDeparture
    let store := (t.nodes second).store
    changeBase proposal store = f.membership .ideal ∧
      ∀ epoch, loadEpochRecord proposal.proposed.worldId store = .ok epoch →
        (matchesEpochAuthority proposal.proposed epoch = true ↔
          matchesEpochAuthority (changeBase proposal store) epoch = true) := by
  intro f proposal t store
  have hbacks : Backs proposal store (t.handle .ideal f.fleet second
      (.request first 0 (.membershipProposal proposal))).2 :=
    .inr (.inl ⟨signMembershipVote .ideal ⟨⟨2⟩⟩ proposal, by decide +kernel⟩)
  exact ⟨by decide +kernel, membership_change_current (s := t) rfl hbacks⟩

/-- The member that the first peer invites. -/
def Founding.newcomer : WorldMemberV1 := ⟨fourth, ⟨4⟩, false, false⟩

/-- The second and the third member move on without the first one. A newcomer asks the first one
to join, which prepares the change and proposes it to the third member. -/
def supersededChange : List Cue :=
  certifiedSuccession ++
    [fun _ => .input fourth (.command (.join ((numbered 3).invite .ideal) 0))] ++
    connect fourth first ++ [hand fourth first 0] ++ connect first third ++ [tick first]

/-- The third member prepares the change of the superseded authority and votes for it. -/
theorem superseded_change_prepared :
    let f := numbered 3
    let proposal := f.proposal .ideal (f.members .ideal ++ [Founding.newcomer])
    let t := (f.system .ideal).play .ideal f.fleet supersededChange
    let input := Input.request first 4 (.membershipProposal proposal)
    (f.system .ideal).Initial ∧ (f.system .ideal).Plays .ideal f.fleet supersededChange ∧
      input.Enabled .ideal f.fleet t third ∧
      Backs proposal (t.nodes third).store
        (t.handle .ideal f.fleet third input).2 ∧
      (∃ epoch, loadEpochRecord f.fleet.world (t.nodes third).store = .ok epoch) ∧
      ¬ ∀ epoch, loadEpochRecord f.fleet.world (t.nodes third).store = .ok epoch →
        matchesEpochAuthority proposal.proposed epoch = true := by
  intro f proposal t input
  have hstale : ¬ ∀ epoch, loadEpochRecord f.fleet.world (t.nodes third).store = .ok epoch →
        matchesEpochAuthority proposal.proposed epoch = true := by decide +kernel
  have hloads : ∃ epoch, loadEpochRecord f.fleet.world (t.nodes third).store = .ok epoch := by
    by_contra hnone
    exact hstale fun epoch hload => absurd ⟨epoch, hload⟩ hnone
  refine ⟨system_initial .ideal f, by decide +kernel, by decide +kernel, .inl ?_, hloads, hstale⟩
  exact ⟨signMembershipVote .ideal ⟨⟨3⟩⟩ proposal, by decide +kernel, by decide +kernel⟩

open Quorum History

variable {C : Crypto} {F : Fleet C} {s t : System}

/-! ## Certificates on a membership record -/

variable (C F) in
/-- A valid recovery certificate on a membership record came to exist. -/
structure System.RecoveryCertified (s : System) (record : MembershipRecordV1)
    (certificate : RecoveryCertificateV1) : Prop where
  hash : certificate.ballot.membershipHash = record.recordHash C
  shape : validateRecoveryCertificateShape C certificate record.activeIds = .ok ()
  signed : ∀ vote ∈ certificate.votes, verifyRecoveryVoteSignature C vote = .ok ()
  unforged : s.Unforged C F certificate.votes

variable (C F) in
/-- A valid membership certificate that extends a membership record came to exist. -/
structure System.ChangeCertified (s : System) (record : MembershipRecordV1)
    (certificate : MembershipCertificateV1) : Prop where
  previous : certificate.proposal.previous = record
  valid : validateMembershipCertificateSignatures C certificate = .ok ()
  unforged : s.UnforgedMembership C F certificate.votes

/-! ## What keeps the two kinds of votes apart -/

variable (C) in
/-- What keeps the two kinds of votes apart, at an event of a peer. -/
def Event.Separate (node : Node) : Event → Prop
  | .votedMembership proposal _ =>
    -- No recovery on the replaced record is promised, and the accepted epoch makes the change.
    (∀ promise, node.store.recoveryPromise = .present promise →
        promise.ballot.membershipHash ≠ proposal.previous.recordHash C) ∧
      ∀ record, node.store.epoch = .present record → record.epochNumber = proposal.proposed.epoch
  | .votedRecovery _ _ _ =>
    -- The stored membership record is not ahead of the accepted epoch.
    ∀ record, node.store.epoch = .present record → ∀ membership,
      node.store.membership = .present membership → membership.epoch ≤ record.epochNumber
  | _ => True

instance (node : Node) : (event : Event) → Decidable (event.Separate C node)
  | .votedMembership _ _ => by dsimp only [Event.Separate]; infer_instance
  | .votedRecovery _ _ _ => by dsimp only [Event.Separate]; infer_instance
  | .acceptedLease _ _ => isTrue trivial
  | .confirmedLease _ _ => isTrue trivial
  | .storedEpoch _ => isTrue trivial
  | .refreshedPermit _ => isTrue trivial

variable (C) in
/-- The given peers keep the two kinds of votes apart. -/
def System.Separate (s : System) (V : List PeerId) : Prop :=
  ∀ peer ∈ V, ∀ stamp ∈ s.logs peer, stamp.event.Separate C stamp.node

instance (V : List PeerId) : Decidable (s.Separate C V) :=
  inferInstanceAs (Decidable (∀ peer ∈ V, ∀ stamp ∈ s.logs peer, stamp.event.Separate C stamp.node))

/-! ## No peer casts both votes -/

section Voter

variable (hrun : Run (Step C F) s t) (hs : s.Initial) {peer : PeerId} {cast change : Stamp}
  (hcast : cast ∈ t.logs peer) (hchange : change ∈ t.logs peer) {ballot : RecoveryBallotV1}
  {vote : RecoveryVoteV1} {wake : Bool} (hballot : cast.event = .votedRecovery ballot vote wake)
  {proposal : MembershipProposalV1} {signed : MembershipVoteV1}
  (hproposal : change.event = .votedMembership proposal signed)
  (hsame : ballot.membershipHash = proposal.previous.recordHash C)
include hrun hs hcast hballot hsame

/-- The record a recovery vote was cast on is the stored one. -/
theorem stored_of_votedRecovery :
    loadMembershipRecord F.world cast.node.store = .ok proposal.previous := by
  obtain ⟨hvotable, _⟩ := (Run.justified hrun hs hcast).votedRecovery hballot
  obtain ⟨membership, hload, hhash⟩ := hvotable.base.membership
  rw [(MembershipRecordV1.recordHash_inj C).mp (hhash.trans hsame)] at hload
  exact hload

include hproposal

/-- A recovery vote on a record is not cast after a vote to replace it. -/
theorem not_change_before_recovery (hmarks : change.Marks C F.world cast.node) : False := by
  have hstored := stored_of_votedRecovery hrun hs hcast hballot hsame
  obtain ⟨hvotable, _⟩ := (Run.justified hrun hs hcast).votedRecovery hballot
  rcases hmarks.prepared proposal signed hproposal with hlocked | ⟨record, hload, hlater⟩
  · obtain ⟨promise, hpromise, _⟩ := preparedValue_eq_some.mp hlocked
    exact hvotable.unprepared promise hpromise
  · rw [hstored, Except.ok.injEq] at hload
    subst hload
    exact Nat.lt_irrefl _ hlater

include hchange

/-- A vote to replace a record is not cast after a recovery vote on it, where the two are kept
apart. -/
theorem not_recovery_before_change (hmarks : cast.Marks C F.world change.node)
    (hcastApart : cast.event.Separate C cast.node)
    (hchangeApart : change.event.Separate C change.node) : False := by
  rw [hballot, Event.Separate] at hcastApart
  rw [hproposal, Event.Separate] at hchangeApart
  rcases hmarks.voted ballot vote wake hballot with hlocked | ⟨record, hrecord, hpast⟩
  · -- The promise is still stored, and it is on the record that the change replaces.
    obtain ⟨promise, hpromise, _, hvalue⟩ := promisedValue_eq_some hlocked
    exact hchangeApart.1 promise hpromise ((congrArg Prod.snd hvalue).trans hsame)
  · -- The epoch of the ballot was left, so the change is one of a later epoch.
    have hstored := stored_of_votedRecovery hrun hs hcast hballot hsame
    obtain ⟨hvotable, _⟩ := (Run.justified hrun hs hcast).votedRecovery hballot
    obtain ⟨current, hcurrent⟩ := hvotable.accepted
    have hbase := (hvotable.base.epoch current hcurrent).1
    have hfile := (loadEpochRecord_eq_ok.mp hcurrent).1
    have hnotAhead := hcastApart current hfile proposal.previous
      (loadMembershipRecord_eq_ok.mp hstored).1
    have hepoch := hchangeApart.2 record hrecord
    obtain ⟨_, hshape, _⟩ := (Run.justified hrun hs hchange).votedMembership hproposal
    have hkept : proposal.previous.epoch = proposal.proposed.epoch := by
      simp only [MembershipProposalV1.validateShape, Bool.and_eq_true, decide_eq_true_eq] at hshape
      exact hshape.1.1.1.1.1.2
    have hleft : ballot.baseEpoch < record.epochNumber := hpast
    omega

end Voter

/-- Where the members keep the two kinds of votes apart, no recovery certificate and membership
certificate on one record both come to exist. -/
theorem recovery_excludes_change (hrun : Run (Step C F) s t) (hs : s.Initial)
    {record : MembershipRecordV1} (hmembers : record.activeIds ≠ [])
    (hhonest : ∀ peer ∈ record.activeIds, F.honest peer)
    (hseparate : t.Separate C record.activeIds) (recovery : RecoveryCertificateV1)
    (change : MembershipCertificateV1) :
    ¬ (t.RecoveryCertified C F record recovery ∧ t.ChangeCertified C F record change) := by
  rintro ⟨hrecovery, rfl, hvalid, hchangeUnforged⟩
  have hvoters := RecoveryCertificateV1.voters_majority hmembers hrecovery.shape
  obtain ⟨A, hmajority, hchanged⟩ :=
    membershipQuorum_of_certificate hrun hs hhonest hvalid hchangeUnforged
  obtain ⟨peer, hvoter, hchanger⟩ := hvoters.meet hmajority
  have hmember := List.mem_toFinset.mp (hmajority.subset hchanger)
  -- The common member cast both votes, in one order or the other.
  obtain ⟨cast, hcast, ballot, vote, wake, hballot, _, hvalue⟩ :=
    votedFor_of_certificate hrun hs hhonest hrecovery.shape hrecovery.signed hrecovery.unforged
      hvoter
  obtain ⟨voted, hvoted, proposal, signed, hproposal, hprevious, _⟩ := hchanged peer hchanger
  have hsame : ballot.membershipHash = proposal.previous.recordHash C := by
    rw [hprevious, ← hrecovery.hash]
    exact congrArg Prod.snd hvalue
  rcases (Run.marked hrun hs peer).marks.related hcast hvoted with rfl | hlater | hearlier
  · rw [hballot] at hproposal
    cases hproposal
  · exact not_recovery_before_change hrun hs hcast hvoted hballot hproposal hsame hlater
      (hseparate peer hmember cast hcast) (hseparate peer hmember voted hvoted)
  · exact not_change_before_recovery hrun hs hcast hballot hproposal hsame hearlier

/-- In a run in which the members vote on a departure, no recovery certificate on their record can
join the membership certificate. -/
theorem recovery_excludes_change_departure :
    let f := numbered 3
    let t := (f.system .ideal).play .ideal f.fleet voteOnDeparture
    let change := f.membershipCertificate .ideal ((f.members .ideal).take 2) [⟨1⟩, ⟨2⟩]
    t.ChangeCertified .ideal f.fleet (f.membership .ideal) change ∧
      ¬ t.RecoveryCertified .ideal f.fleet (f.membership .ideal)
        (f.certificate .ideal ⟨2⟩ 1 [⟨2⟩, ⟨3⟩]) := by
  intro f t change
  have hplays : (f.system .ideal).Plays .ideal f.fleet voteOnDeparture := by decide +kernel
  have hseparate : t.Separate .ideal (f.membership .ideal).activeIds := by decide +kernel
  have hchange : t.ChangeCertified .ideal f.fleet (f.membership .ideal) change :=
    ⟨by decide +kernel, by decide +kernel, by decide +kernel⟩
  refine ⟨hchange, fun hrecovery => ?_⟩
  exact recovery_excludes_change (t := t) hplays.run (system_initial .ideal f)
    (by decide +kernel) (fun _ _ => trivial) hseparate _ change ⟨hrecovery, hchange⟩

/-- The second member wins the vote of the third; then all three vote on a departure that the first
authority proposes. -/
def voteOnBoth : List Cue :=
  gather second third ++ canvass second third ++ voteOnDeparture

/-- Both kinds of certificate on the founding record come to exist. -/
theorem recovery_and_change_certified :
    let f := numbered 3
    let t := (f.system .ideal).play .ideal f.fleet voteOnBoth
    (f.system .ideal).Initial ∧ (f.system .ideal).Plays .ideal f.fleet voteOnBoth ∧
      (f.membership .ideal).activeIds ≠ [] ∧
      t.RecoveryCertified .ideal f.fleet (f.membership .ideal)
        (f.certificate .ideal ⟨2⟩ 1 [⟨2⟩, ⟨3⟩]) ∧
      t.ChangeCertified .ideal f.fleet (f.membership .ideal)
        (f.membershipCertificate .ideal ((f.members .ideal).take 2) [⟨1⟩, ⟨2⟩]) := by
  refine ⟨system_initial .ideal _, ?_, ?_, ⟨?_, ?_, ?_, ?_⟩, ⟨?_, ?_, ?_⟩⟩ <;>
    decide +kernel

end SwarmCraft
