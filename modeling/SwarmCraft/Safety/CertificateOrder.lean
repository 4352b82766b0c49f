import SwarmCraft.Safety.DiscoverySoundness
import SwarmCraft.Safety.MembershipAgreement

/-!
# Committed certificates

The daemon commits a certificate in the order in which its votes are listed, and counts the first
vote of each voter. The discovery verifier wants the voters in strictly increasing order. A
committed certificate within the limits of a proof passes it exactly when its votes have that
order, which neither the iteration of the collected votes nor the handler of a received
certificate ensures.
-/

namespace SwarmCraft

open Checked Effect
open Founding (first second numbered)

variable {C : Crypto} {site : Site} {e : Exec}
variable {certificate : MembershipCertificateV1} {votes : List MembershipVoteV1}
  {proposal : MembershipProposalV1} {seen : List PeerId}

/-- What the discovery verifier checks of a single certificate. -/
def MembershipCertificateV1.PassesDiscovery (C : Crypto) (certificate : MembershipCertificateV1) :
    Prop :=
  certificate.WithinDiscoveryLimits ∧
    verifyDiscoveryCertificate C certificate.proposal.proposed.worldId none certificate = .ok () ∧
    validateMembershipCertificateShape C certificate = .ok ()

/-- The votes are listed by strictly increasing voter. -/
def VotersIncrease (votes : List MembershipVoteV1) : Prop :=
  votes.Pairwise fun a b => a.voterPeerId < b.voterPeerId

/-- The daemon commits a certificate with the given votes. -/
inductive Commits (C : Crypto) (site : Site) (e : Exec) :
    List MembershipVoteV1 → MembershipCertificateV1 → Prop where
  /-- The handler of the message that carries it returns. -/
  | received {channel : Channel} {certificate : MembershipCertificateV1}
      (h : (handleMembershipCommit C site channel certificate e).1 = .ok ()) :
      Commits C site e certificate.votes certificate
  /-- It is made of the votes that were collected for the prepared proposal, in the order in which
  they are iterated, and applied. -/
  | assembled {promise : DurableMembershipPromiseV1} {certificate : MembershipCertificateV1}
      (hmade : assembleCertificate C promise.proposal
        (e.node.runtime.withMembershipVote (site.peer C) promise.vote) = .ok (some certificate))
      (h : (driveProposal C site promise e).1 = .ok ()) :
      Commits C site e (((e.node.runtime.withMembershipVote (site.peer C)
        promise.vote).membershipVotes.map Prod.snd).filter fun vote =>
          vote.matchesProposal C promise.proposal) certificate

/-! ## Committed certificates are signed -/

/-- Sending the proposal does not touch the daemon's memory. -/
theorem sameRuntime_sendProposals (proposal : MembershipProposalV1) :
    Always SameRuntime (sendProposals C site proposal) :=
  always_readRuntime fun _ => .forM fun _ => .onlyIf fun _ => sameRuntime_sendUnlessPending

/-- Applying a certificate checks its signatures. -/
theorem applyMembershipCertificate_signed {t : Exec}
    (h : applyMembershipCertificate C certificate e = (.ok (), t)) :
    validateMembershipCertificateSignatures C certificate = .ok () := by
  rw [applyMembershipCertificate, run_bind] at h
  obtain ⟨store, _, _, h⟩ := h
  rw [run_bind] at h
  obtain ⟨descriptor, _, hchecks, _⟩ := h
  rw [run_check] at hchecks
  obtain ⟨hchecks, _⟩ := hchecks
  rw [applyMembershipChecks, bind_eq_ok] at hchecks
  obtain ⟨_, hsigned, _⟩ := hchecks
  exact hsigned

/-- A certificate that is received and committed is signed. -/
theorem handleMembershipCommit_signed {channel : Channel}
    (h : (handleMembershipCommit C site channel certificate e).1 = .ok ()) :
    validateMembershipCertificateSignatures C certificate = .ok () := by
  have hrun : handleMembershipCommit C site channel certificate e = (.ok (), _) := Prod.ext h rfl
  simp only [handleMembershipCommit, run_bind, run_check] at hrun
  obtain ⟨_, _, _, _, _, _, _, _, _, _, _, ⟨hvalid, _⟩, _⟩ := hrun
  simp only [validateMembershipCertificateForLocal, bind_eq_ok] at hvalid
  obtain ⟨_, hsigned, _⟩ := hvalid
  exact hsigned

/-- A certificate that is assembled and committed is signed. -/
theorem driveProposal_signed {promise : DurableMembershipPromiseV1}
    (hmade : assembleCertificate C promise.proposal
      (e.node.runtime.withMembershipVote (site.peer C) promise.vote) = .ok (some certificate))
    (h : (driveProposal C site promise e).1 = .ok ()) :
    validateMembershipCertificateSignatures C certificate = .ok () := by
  have hrun : driveProposal C site promise e = (.ok (), _) := Prod.ext h rfl
  simp only [driveProposal, run_bind, run_check] at hrun
  obtain ⟨_, _, ⟨_, rfl⟩, _, updated, hupdated, _, sent, hsent, runtime, _, hread, made, _,
    ⟨hassembled, rfl⟩, happlied⟩ := hrun
  -- the memory that the votes are taken from is the one after the own vote was added
  have hsame : sent.node.runtime = updated.node.runtime :=
    (sameRuntime_sendProposals promise.proposal).of_run hsent
  have hruntime : runtime = e.node.runtime.withMembershipVote (site.peer C) promise.vote := by
    simp only [readRuntime, Prod.mk.injEq, Except.ok.injEq] at hread
    rw [← hread.1, hsame]
    simp only [updateRuntime, run_modifyState] at hupdated
    rw [← hupdated]
  rw [hruntime, hmade, Except.ok.injEq] at hassembled
  subst hassembled
  simp only [onSome, run_bind] at happlied
  obtain ⟨_, _, _, _, _, happly, _⟩ := happlied
  exact applyMembershipCertificate_signed happly

/-- A committed certificate is signed, and its votes are the given ones. -/
theorem Commits.signed (h : Commits C site e votes certificate) :
    certificate.votes = votes ∧ validateMembershipCertificateSignatures C certificate = .ok () := by
  cases h with
  | received h => exact ⟨rfl, handleMembershipCommit_signed h⟩
  | assembled hmade h =>
    refine ⟨?_, driveProposal_signed hmade h⟩
    rw [assembleCertificate_eq_ok hmade]

/-! ## The order of the votes -/

/-- A tally was made of votes that all match the proposal. -/
theorem tallyVotes_matches {old new : List (PeerId × PublicKey)} {tally result : Nat × Nat}
    (h : tallyVotes C proposal old new seen tally votes = .ok result) :
    ∀ vote ∈ votes, vote.matchesProposal C proposal = true := by
  induction votes generalizing seen tally with
  | nil =>
    intro vote hvote
    cases hvote
  | cons first rest ih =>
    simp only [tallyVotes, bind_eq_ok, ensure_eq_ok, exists_const] at h
    obtain ⟨hmatch, h⟩ := h
    have hrest : ∀ vote ∈ rest, vote.matchesProposal C proposal = true := by
      split at h
      · exact ih h
      · simp only [bind_eq_ok, ensure_eq_ok, exists_const] at h
        exact ih h.2.2
    intro vote hvote
    rcases List.mem_cons.mp hvote with rfl | hvote
    · exact hmatch
    · exact hrest vote hvote

/-- Signed votes for the proposal pass the loop of the verifier exactly when they are in order. -/
theorem verifyDiscoveryVotes_iff {lastVoter : Option PeerId}
    (hmatch : ∀ vote ∈ votes, vote.matchesProposal C proposal = true)
    (hsigned : ∀ vote ∈ votes, verifyMembershipVoteSignature C vote = .ok ()) :
    verifyDiscoveryVotes C proposal seen lastVoter votes = .ok () ↔
      VotersIncrease votes ∧ (∀ vote ∈ votes, vote.voterPeerId ∉ seen) ∧
        ∀ peer ∈ lastVoter, ∀ vote ∈ votes, peer < vote.voterPeerId := by
  induction votes generalizing seen lastVoter with
  | nil => simp [verifyDiscoveryVotes, VotersIncrease]
  | cons first rest ih =>
    have htail := @ih (first.voterPeerId :: seen) (some first.voterPeerId)
      (fun vote hvote => hmatch vote (List.mem_cons_of_mem _ hvote))
      (fun vote hvote => hsigned vote (List.mem_cons_of_mem _ hvote))
    have hfirst := hmatch first List.mem_cons_self
    have hsignedFirst := hsigned first List.mem_cons_self
    simp only [verifyDiscoveryVotes, bind_eq_ok, ensure_eq_ok, requireProofSignature_eq_ok,
      hsignedFirst, hfirst, htail, VotersIncrease, List.pairwise_cons, List.mem_cons, exists_const,
      true_and, not_or]
    constructor
    · rintro ⟨⟨hnew, hlast⟩, hpairwise, hseen, hlater⟩
      refine ⟨⟨hlater _ rfl, hpairwise⟩, ?_, ?_⟩
      · rintro vote (rfl | hvote)
        · exact hnew
        · exact (hseen vote hvote).2
      · rintro peer hpeer vote (rfl | hvote)
        · exact hlast peer hpeer
        · exact Nat.lt_trans (hlast peer hpeer) (hlater _ rfl vote hvote)
    · rintro ⟨⟨hlater, hpairwise⟩, hseen, hlast⟩
      refine ⟨⟨hseen first (.inl rfl), fun peer hpeer => hlast peer hpeer first (.inl rfl)⟩,
        hpairwise, ?_, ?_⟩
      · intro vote hvote
        refine ⟨fun hsame => ?_, hseen vote (.inr hvote)⟩
        have hless := hlater vote hvote
        rw [hsame] at hless
        exact Nat.lt_irrefl _ hless
      · rintro _ ⟨⟩ vote hvote
        exact hlater vote hvote

/-- A signed certificate passes the discovery verifier exactly when it is not too large and its
votes are in order. -/
theorem passesDiscovery_iff (h : validateMembershipCertificateSignatures C certificate = .ok ()) :
    certificate.PassesDiscovery C ↔
      certificate.WithinDiscoveryLimits ∧ VotersIncrease certificate.votes := by
  simp only [validateMembershipCertificateSignatures, bind_eq_ok, ofCore_eq_ok, mapError_eq_ok,
    forM_eq_ok] at h
  obtain ⟨_, hprevious, _, hproposed, _, hshape, hsigned⟩ := h
  have htally := hshape
  simp only [validateMembershipCertificateShape, bind_eq_ok] at htally
  obtain ⟨_, hproposal, old, _, new, _, tally, htally, _⟩ := htally
  have hvalid := validateMembershipProposalShape_shape hproposal
  have hworld : certificate.proposal.previous.worldId = certificate.proposal.proposed.worldId := by
    simp only [MembershipProposalV1.validateShape, Bool.and_eq_true, decide_eq_true_eq] at hvalid
    exact hvalid.1.1.1.1.1.1.2
  have hsemantics : ∀ record, verifyMembershipSignature C record = .ok () →
      record.validateSemantics = .ok () := by
    intro record hrecord
    simp only [verifyMembershipSignature, bind_eq_ok, mapError_eq_ok] at hrecord
    obtain ⟨_, hrecord, _⟩ := hrecord
    exact hrecord
  have hvotes := @verifyDiscoveryVotes_iff C certificate.votes certificate.proposal [] none
    (tallyVotes_matches htally) hsigned
  simp only [MembershipCertificateV1.PassesDiscovery, verifyDiscoveryCertificate, bind_eq_ok,
    ensure_eq_ok, requireProofSignature_eq_ok, hshape, hprevious, hproposed, hvalid, hworld,
    hsemantics _ hprevious, hsemantics _ hproposed, hvotes]
  simp

/-- A committed certificate passes the checks of the discovery verifier exactly when it is within
the limits of a proof and the votes it was made of are listed by strictly increasing voter. -/
theorem committed_certificate_passes_iff {votes : List MembershipVoteV1}
    {certificate : MembershipCertificateV1} (h : Commits C site e votes certificate) :
    certificate.PassesDiscovery C ↔ certificate.WithinDiscoveryLimits ∧ VotersIncrease votes := by
  obtain ⟨rfl, hsigned⟩ := h.signed
  exact passesDiscovery_iff hsigned

/-- A received certificate with its votes in order is committed and passes. -/
theorem committed_certificate_passes_departure :
    let f := numbered 3
    let certificate := f.membershipCertificate .ideal ((f.members .ideal).take 2) [⟨1⟩, ⟨2⟩]
    (handleMembershipCommit .ideal ⟨f.world .ideal, ⟨⟨2⟩⟩, 0⟩ ⟨second, first, 0⟩
      certificate (Exec.start (f.node .ideal (f.store .ideal)))).1 = .ok () ∧
      certificate.PassesDiscovery .ideal := by
  intro f certificate
  have hcommit : (handleMembershipCommit .ideal ⟨f.world .ideal, ⟨⟨2⟩⟩, 0⟩
      ⟨second, first, 0⟩ certificate
      (Exec.start (f.node .ideal (f.store .ideal)))).1 = .ok () := by
    decide +kernel
  have hordered : certificate.votes.Pairwise fun a b => a.voterPeerId < b.voterPeerId := by
    decide +kernel
  exact ⟨hcommit, (committed_certificate_passes_iff (.received hcommit)).mpr
    ⟨by decide +kernel, hordered⟩⟩

/-- The first peer collects the vote of the second one after its own, commits the change and stores
a certificate that the discovery verifier refuses. -/
theorem committed_certificate_refused :
    let f := numbered 3
    let cues := voteOnDeparture ++ [hand second first 0, tick first]
    let staying := (f.members .ideal).take 2
    let certificate := f.membershipCertificate .ideal staying [⟨2⟩, ⟨1⟩]
    (f.system .ideal).Plays .ideal f.fleet cues ∧
      (((f.system .ideal).play .ideal f.fleet cues).nodes first).store.membershipCertificate =
        .present certificate ∧
      (((f.system .ideal).play .ideal f.fleet cues).nodes first).store.membership =
        .present certificate.proposal.proposed ∧
      ¬ certificate.PassesDiscovery .ideal := by
  refine ⟨by decide +kernel, by decide +kernel, by decide +kernel, fun hpasses => ?_⟩
  have hordered := hpasses.2.1
  revert hordered
  decide +kernel

/-! ## Certificates intersect -/

open Quorum

variable {C : Crypto}

/-- The certificate of a well-formed ballot without any vote. -/
def RecoveryCertificateV1.unvoted : RecoveryCertificateV1 where
  ballot :=
    { protocolVersion := protocolVersionV1
      worldId := ⟨⟨.atom 0⟩⟩
      baseEpoch := 0
      baseFencingToken := 0
      targetEpoch := 1
      targetFencingToken := 1
      round := 1
      candidatePeerId := ⟨0⟩
      candidatePublicKey := ⟨0⟩
      baseSnapshotHash := ⟨.atom 0⟩
      baseStateHash := ⟨.atom 0⟩
      membershipHash := ⟨.atom 0⟩
      signature := .empty }
  votes := []

/-- A certificate without votes is accepted for a list without members. -/
theorem RecoveryCertificateV1.unvoted_accepted :
    validateRecoveryCertificateShape C .unvoted [] = .ok () := by
  rw [validateRecoveryCertificateShape_eq_ok]
  refine ⟨by decide, ?_, ?_⟩
  · intro vote hvote
    cases hvote
  · simp [quorumSize]

/-- All recovery certificates that are accepted for a member list share a voter pairwise. -/
def RecoveryCertificatesMeet (C : Crypto) (members : List PeerId) : Prop :=
  ∀ first second : RecoveryCertificateV1,
    validateRecoveryCertificateShape C first members = .ok () →
    validateRecoveryCertificateShape C second members = .ok () →
    ∃ one ∈ first.votes, ∃ other ∈ second.votes, one.voterPeerId = other.voterPeerId

/-- A certificate has a voter in every set of more than half of the active voters of a record. -/
def MembershipCertificateV1.MeetsMajoritiesOf (certificate : MembershipCertificateV1)
    (record : MembershipRecordV1) : Prop :=
  ∀ S : Finset PeerId, S ⊆ record.activeIds.toFinset →
    record.activeIds.toFinset.card < 2 * S.card →
    ∃ vote ∈ certificate.votes, vote.voterPeerId ∈ S

/-- A majority of a record among the voters of a certificate meets every majority of it. -/
theorem MembershipCertificateV1.meetsMajoritiesOf {certificate : MembershipCertificateV1}
    {record : MembershipRecordV1} {A : Finset PeerId} (hA : Majority record.activeIds.toFinset A)
    (hvotes : certificate.VotedBy C record A) : certificate.MeetsMajoritiesOf record := by
  intro S hsub hcard
  obtain ⟨peer, hpeer, hmem⟩ := hA.meet ⟨hsub, hcard⟩
  obtain ⟨vote, hvote, rfl, _⟩ := hvotes peer hpeer
  exact ⟨vote, hvote, hmem⟩

/-- Certificates over a list with a member share a voter. -/
theorem recoveryCertificatesMeet {members : List PeerId} (hne : members ≠ []) :
    RecoveryCertificatesMeet C members := by
  intro first second hfirst hsecond
  have hone := RecoveryCertificateV1.voters_majority hne hfirst
  have hother := RecoveryCertificateV1.voters_majority hne hsecond
  obtain ⟨peer, hpeer, hpeer'⟩ := hone.meet hother
  simp only [RecoveryCertificateV1.voters, List.mem_toFinset, List.mem_map] at hpeer hpeer'
  obtain ⟨one, hone, rfl⟩ := hpeer
  obtain ⟨other, hother, hsame⟩ := hpeer'
  exact ⟨one, hone, other, hother, hsame.symm⟩

/-- Accepted recovery certificates share a voter exactly where there are members, and accepted
membership certificates meet the majorities of both configurations. -/
theorem accepted_certificates_intersect (C : Crypto) :
    (∀ members : List PeerId, RecoveryCertificatesMeet C members ↔ members ≠ []) ∧
      ∀ certificate : MembershipCertificateV1,
        validateMembershipCertificateShape C certificate = .ok () →
        certificate.MeetsMajoritiesOf certificate.proposal.previous ∧
          certificate.MeetsMajoritiesOf certificate.proposal.proposed := by
  constructor
  · intro members
    constructor
    · rintro hmeet rfl
      obtain ⟨_, hvote, _⟩ := hmeet .unvoted .unvoted
        RecoveryCertificateV1.unvoted_accepted RecoveryCertificateV1.unvoted_accepted
      cases hvote
    · exact recoveryCertificatesMeet
  · intro certificate hshape
    obtain ⟨_, old, new, hold, hnew, holdVotes, hnewVotes⟩ :=
      validateMembershipCertificateShape_majorities hshape
    constructor
    · exact MembershipCertificateV1.meetsMajoritiesOf hold holdVotes
    · exact MembershipCertificateV1.meetsMajoritiesOf hnew hnewVotes

/-- The certificate of two founders for the departure of the third one meets the majorities of
the three and of the two. -/
theorem accepted_certificates_intersect_departure :
    let f := numbered 3
    let certificate := f.membershipCertificate .ideal ((f.members .ideal).take 2) [⟨2⟩, ⟨1⟩]
    validateMembershipCertificateShape .ideal certificate = .ok () ∧
      certificate.MeetsMajoritiesOf certificate.proposal.previous ∧
      certificate.MeetsMajoritiesOf certificate.proposal.proposed :=
  have hshape : validateMembershipCertificateShape .ideal ((numbered 3).membershipCertificate
      .ideal (((numbered 3).members .ideal).take 2) [⟨2⟩, ⟨1⟩]) = .ok () := by
    decide +kernel
  ⟨hshape, (accepted_certificates_intersect .ideal).2 _ hshape⟩

/-- Without members, a certificate without votes is accepted and meets no other one. -/
theorem unvoted_certificates_disjoint :
    validateRecoveryCertificateShape .ideal .unvoted [] = .ok () ∧
      ¬ RecoveryCertificatesMeet .ideal [] := by
  refine ⟨RecoveryCertificateV1.unvoted_accepted, fun hmeet => ?_⟩
  obtain ⟨_, hvote, _⟩ := hmeet .unvoted .unvoted
    RecoveryCertificateV1.unvoted_accepted RecoveryCertificateV1.unvoted_accepted
  cases hvote

end SwarmCraft
