import SwarmCraft.Consensus.Discovery
import SwarmCraft.System.Genesis

/-!
# Discovery proofs are sound

A membership proof that both verifiers accept leads from the record that the creator signed over
the genesis members to the current record by certified changes: each one carries valid votes of a
majority of the voters before it and of a majority of the voters after it. Every freshness quorum
contains a majority of the voters reached, so two quorums for one voter set share a signer.
-/

namespace SwarmCraft

open Checked Quorum

variable {C : Crypto}
variable {votes : List DiscoveryFreshnessVoteV1} {record : MembershipRecordV1}
  {signers : List (PeerId × PublicKey)} {proof : DiscoveryMembershipProofV1}
variable {proposal : MembershipProposalV1} {world : WorldId}
  {certificates : List MembershipCertificateV1} {voters : List (PeerId × PublicKey)}

/-- Voters with their keys. -/
abbrev VoterSet := Finset (PeerId × PublicKey)

/-! ## What is proved -/

/-- The record was signed by the creator of the genesis over exactly its members. -/
structure MembershipRecordV1.AnchoredIn (C : Crypto) (record : MembershipRecordV1)
    (genesis : WorldGenesisV1) : Prop where
  /-- It is the first record of the world. -/
  first : record.sequence = 0 ∧ record.worldId = genesis.worldId C
  /-- The creator signed it. -/
  signed : C.verify genesis.creatorPublicKey (.membership { record with signature := .empty })
    record.signature = true
  /-- Its members are those of the genesis. -/
  members : (record.members.map WorldMemberV1.peerId).toFinset = genesis.initialMembership.toFinset

/-- A certificate has validly signed votes of a majority of a voter set. -/
def MembershipCertificateV1.CarriesMajorityOf (C : Crypto) (certificate : MembershipCertificateV1)
    (voters : VoterSet) : Prop :=
  ∃ A, Majority (voters.image Prod.fst) A ∧ ∀ peer ∈ A, ∃ vote ∈ certificate.votes,
    vote.voterPeerId = peer ∧ (peer, vote.voterPublicKey) ∈ voters ∧
      vote.matchesProposal C certificate.proposal = true ∧
      C.verify vote.voterPublicKey (.membershipVote vote.unsigned) vote.signature = true

/-- The certificate is one of a world for the change from one sequence and voter set to the next. -/
def CertifiedTransition (C : Crypto) (world : WorldId) (certificate : MembershipCertificateV1)
    (before after : Nat × VoterSet) : Prop :=
  certificate.proposal.validateShape C = true ∧ certificate.proposal.proposed.worldId = world ∧
    before.1 < after.1 ∧ certificate.proposal.proposed.sequence = after.1 ∧
    certificate.proposal.previous.voterSet = before.2 ∧
    certificate.proposal.proposed.voterSet = after.2 ∧
    certificate.CarriesMajorityOf C before.2 ∧ certificate.CarriesMajorityOf C after.2

/-- The certificates of a list, one after the other, lead from one sequence and voter set to
another. -/
def CertifiedChain (C : Crypto) (world : WorldId) :
    List MembershipCertificateV1 → Nat × VoterSet → Nat × VoterSet → Prop
  | [], before, after => before = after
  | certificate :: rest, before, after => ∃ next,
    CertifiedTransition C world certificate before next ∧ CertifiedChain C world rest next after

/-- The signers of freshness votes include a majority of a voter set. -/
def SignedByMajorityOf (votes : List DiscoveryFreshnessVoteV1) (voters : VoterSet) : Prop :=
  ∃ A, Majority (voters.image Prod.fst) A ∧ ∀ peer ∈ A, ∃ vote ∈ votes,
    vote.voterPeerId = peer ∧ (peer, vote.voterPublicKey) ∈ voters

/-- Two vote lists have a common signer. -/
def ShareSigner (votes others : List DiscoveryFreshnessVoteV1) : Prop :=
  ∃ vote ∈ votes, ∃ other ∈ others, vote.voterPeerId = other.voterPeerId

/-- Majorities of one voter set share a signer. -/
theorem SignedByMajorityOf.share {others : List DiscoveryFreshnessVoteV1} {voters : VoterSet}
    (h : SignedByMajorityOf votes voters) (h' : SignedByMajorityOf others voters) :
    ShareSigner votes others := by
  obtain ⟨A, hA, hvotes⟩ := h
  obtain ⟨B, hB, hothers⟩ := h'
  obtain ⟨peer, hpeerA, hpeerB⟩ := hA.meet hB
  obtain ⟨vote, hvote, hvoter, _⟩ := hvotes peer hpeerA
  obtain ⟨other, hother, hvoter', _⟩ := hothers peer hpeerB
  exact ⟨vote, hvote, other, hother, hvoter.trans hvoter'.symm⟩

/-! ## The signatures of the chain -/

/-- A proof signature that was required is valid. -/
@[simp] theorem requireProofSignature_eq_ok {x : Except CoreError Unit} {u : Unit} :
    requireProofSignature x = .ok u ↔ x = .ok u := by
  simp [requireProofSignature]

/-- A checked membership signature is valid under the key of the record. -/
theorem verifyMembershipSignature_verify (h : verifyMembershipSignature C record = .ok ()) :
    C.verify record.authorityPublicKey (.membership { record with signature := .empty })
      record.signature = true := by
  simp only [verifyMembershipSignature, verifySignature, bind_eq_ok, mapError_eq_ok, ensure_eq_ok,
    exists_const] at h
  obtain ⟨_, _, _, hsigned⟩ := h
  exact hsigned

/-- Every vote of a verified list carries a valid signature. -/
theorem verifyDiscoveryVotes_verify {seen : List PeerId}
    {lastVoter : Option PeerId} {votes : List MembershipVoteV1}
    (h : verifyDiscoveryVotes C proposal seen lastVoter votes = .ok ()) :
    ∀ vote ∈ votes,
      C.verify vote.voterPublicKey (.membershipVote vote.unsigned) vote.signature = true := by
  induction votes generalizing seen lastVoter with
  | nil =>
    intro vote hvote
    cases hvote
  | cons first rest ih =>
    simp only [verifyDiscoveryVotes, verifyMembershipVoteSignature, verifySignature, bind_eq_ok,
      ensure_eq_ok, requireProofSignature_eq_ok, exists_const] at h
    obtain ⟨_, ⟨_, hsigned⟩, hrest⟩ := h
    intro vote hvote
    rcases List.mem_cons.mp hvote with rfl | hvote
    · exact hsigned
    · exact ih hrest vote hvote

/-- Every certificate of a verified chain has verified votes. -/
theorem verifyDiscoveryCertificates_votes {lastSequence result : Option Nat}
    (h : verifyDiscoveryCertificates C world lastSequence certificates = .ok result) :
    ∀ certificate ∈ certificates,
      verifyDiscoveryVotes C certificate.proposal [] none certificate.votes = .ok () := by
  induction certificates generalizing lastSequence with
  | nil =>
    intro certificate hmem
    cases hmem
  | cons first rest ih =>
    simp only [verifyDiscoveryCertificates, verifyDiscoveryCertificate, bind_eq_ok, ensure_eq_ok,
      requireProofSignature_eq_ok, exists_const] at h
    obtain ⟨_, ⟨_, _, _, _, _, hvotes⟩, hrest⟩ := h
    intro certificate hmem
    rcases List.mem_cons.mp hmem with rfl | hmem
    · exact hvotes
    · exact ih hrest certificate hmem

/-- A vote majority of a record with verified votes is carried by the certificate. -/
theorem MembershipCertificateV1.VotedBy.carries {certificate : MembershipCertificateV1}
    {A : Finset PeerId} (hvoted : certificate.VotedBy C record A)
    (hA : Majority record.activeIds.toFinset A)
    (hvotes : verifyDiscoveryVotes C certificate.proposal [] none certificate.votes = .ok ()) :
    certificate.CarriesMajorityOf C record.voterSet := by
  rw [← record.voterSet_ids] at hA
  refine ⟨A, hA, ?_⟩
  intro peer hpeer
  obtain ⟨vote, hvote, hvoter, hkey, hmatch⟩ := hvoted peer hpeer
  exact ⟨vote, hvote, hvoter, hkey, hmatch, verifyDiscoveryVotes_verify hvotes vote hvote⟩

/-! ## The voter sets of the chain -/

/-- The voters that the certificates are followed to are reached by their changes. -/
theorem followVoters_chain {lastSequence : Nat} {reached : List (PeerId × PublicKey) × Nat}
    (h : followVoters C world voters lastSequence certificates = .ok reached)
    (hvotes : ∀ certificate ∈ certificates,
      verifyDiscoveryVotes C certificate.proposal [] none certificate.votes = .ok ()) :
    CertifiedChain C world certificates (lastSequence, voters.toFinset)
      (reached.2, reached.1.toFinset) := by
  induction certificates generalizing voters lastSequence with
  | nil =>
    simp only [followVoters, pure_eq_ok] at h
    subst h
    rfl
  | cons certificate rest ih =>
    simp only [followVoters, bind_eq_ok, ensure_eq_ok, exists_const] at h
    obtain ⟨_, hshape, ⟨_, hworld, hsequence⟩, previous, hprevious, hsame, proposed, hproposed, hrest⟩ := h
    have hcertified := hvotes certificate List.mem_cons_self
    obtain ⟨hvalid, old, new, hold, hnew, holdVotes, hnewVotes⟩ :=
      validateMembershipCertificateShape_majorities hshape
    have hbefore : certificate.proposal.previous.voterSet = voters.toFinset := by
      rw [← hsame, activeVoters_toFinset hprevious]
    have hafter : certificate.proposal.proposed.voterSet = proposed.toFinset :=
      (activeVoters_toFinset hproposed).symm
    have hstep : CertifiedTransition C world certificate (lastSequence, voters.toFinset)
        (certificate.proposal.proposed.sequence, proposed.toFinset) := by
      refine ⟨hvalid, hworld, hsequence, rfl, hbefore, hafter, ?_, ?_⟩
      · rw [← hbefore]
        exact holdVotes.carries hold hcertified
      · rw [← hafter]
        exact hnewVotes.carries hnew hcertified
    exact ⟨_, hstep, ih hrest fun other hother => hvotes other (List.mem_cons_of_mem _ hother)⟩

/-! ## The freshness quorum -/

/-- The signers of a checked list are the voters of its votes, without repetition. -/
theorem freshnessSigners_eq_ok {last : Option PeerId}
    (h : freshnessSigners last votes = .ok signers) :
    signers = votes.map (fun vote => (vote.voterPeerId, vote.voterPublicKey)) ∧
      (signers.map Prod.fst).Nodup ∧
      ∀ peer ∈ last, ∀ signer ∈ signers.map Prod.fst, peer.bytes < signer.bytes := by
  induction votes generalizing last signers with
  | nil =>
    simp only [freshnessSigners, pure_eq_ok] at h
    subst h
    simp
  | cons vote rest ih =>
    simp only [freshnessSigners, bind_eq_ok, ensure_eq_ok, pure_eq_ok, exists_const] at h
    obtain ⟨hlast, tail, htail, rfl⟩ := h
    obtain ⟨hmap, hnodup, hlater⟩ := ih htail
    have habove : ∀ signer ∈ tail.map Prod.fst, vote.voterPeerId.bytes < signer.bytes :=
      hlater vote.voterPeerId rfl
    refine ⟨by rw [List.map_cons, hmap], ?_, ?_⟩
    · rw [List.map_cons, List.nodup_cons]
      exact ⟨fun hmem => Nat.lt_irrefl _ (habove _ hmem), hnodup⟩
    · intro peer hpeer signer hsigner
      have hfirst : peer.bytes < vote.voterPeerId.bytes := hlast peer hpeer
      rw [List.map_cons, List.mem_cons] at hsigner
      rcases hsigner with rfl | hsigner
      · exact hfirst
      · have := habove signer hsigner
        omega

/-- The signers that a configuration lists are counted once each. -/
theorem countSigners_eq_card (hnodup : (signers.map Prod.fst).Nodup) :
    countSigners voters signers =
      ((signers.map Prod.fst).toFinset.filter fun peer => (voters.lookup peer).isSome = true).card := by
  have hfilter : (signers.map Prod.fst).toFinset.filter (fun peer => (voters.lookup peer).isSome = true)
      = ((signers.map Prod.fst).filter fun peer => (voters.lookup peer).isSome).toFinset := by
    ext peer
    simp
  rw [hfilter, List.toFinset_card_of_nodup (hnodup.filter _), countSigners,
    List.countP_eq_length_filter, List.filter_map, List.length_map]
  rfl

/-- Enough signers with the right keys include a majority of the configuration. -/
theorem signedByMajorityOf_of_count {active : List (PeerId × PublicKey)}
    (hactive : activeVoters record.members = .ok active)
    (hne : record.activeIds ≠ []) (hsigners : freshnessSigners none votes = .ok signers)
    (hkeys : ∀ signer ∈ signers, ∀ key ∈ active.lookup signer.1, key = signer.2)
    (hquorum : quorumSize active.length ≤ countSigners active signers) :
    SignedByMajorityOf votes record.voterSet := by
  obtain ⟨hmap, hnodup, _⟩ := freshnessSigners_eq_ok hsigners
  rw [countSigners_eq_card hnodup] at hquorum
  have hmajority := majority_of_tally hactive hne hquorum
  rw [← record.voterSet_ids] at hmajority
  refine ⟨_, hmajority, ?_⟩
  intro peer hpeer
  obtain ⟨hmem, hlisted⟩ := Finset.mem_filter.mp hpeer
  obtain ⟨signer, hsigner, rfl⟩ := List.mem_map.mp (List.mem_toFinset.mp hmem)
  obtain ⟨expected, hexpected⟩ := Option.isSome_iff_exists.mp hlisted
  have hkey := hkeys signer hsigner expected hexpected
  rw [hmap, List.mem_map] at hsigner
  obtain ⟨vote, hvote, hvoter⟩ := hsigner
  refine ⟨vote, hvote, by rw [← hvoter], ?_⟩
  apply mem_voterSet_of_key hactive hlisted
  rw [hexpected, hkey, ← hvoter]
  simp

/-- A pending change has active voters on both sides. -/
theorem validateMembershipProposalShape_active
    (h : validateMembershipProposalShape C proposal = .ok ()) :
    proposal.previous.activeIds ≠ [] ∧ proposal.proposed.activeIds ≠ [] := by
  simp only [validateMembershipProposalShape, bind_eq_ok, ensure_eq_ok, exists_const] at h
  obtain ⟨_, old, hold, new, hnew, holdKey, hnewKey⟩ := h
  exact ⟨activeIds_ne_nil hold holdKey, activeIds_ne_nil hnew hnewKey⟩

/-- A freshness quorum for a proof with active voters includes a majority of the current voters,
and of the voters of a pending change. -/
theorem freshnessQuorum_majorities (hne : proof.currentMembership.activeIds ≠ [])
    (h : validateDiscoveryFreshnessQuorum C proof votes = .ok ()) :
    SignedByMajorityOf votes proof.currentMembership.voterSet ∧
      ∀ proposal ∈ proof.pendingMembership,
        SignedByMajorityOf votes proposal.proposed.voterSet := by
  simp only [validateDiscoveryFreshnessQuorum, bind_eq_ok, ensure_eq_ok, exists_const] at h
  obtain ⟨_, hshape, _, signers, hsigners, hquorum⟩ := h
  cases hpending : proof.pendingMembership with
  | none =>
    simp only [hpending, validateCurrentSigners, bind_eq_ok, ensure_eq_ok, forM_eq_ok,
      required_eq_ok, exists_const] at hquorum
    obtain ⟨current, hcurrent, hkeys, hcount⟩ := hquorum
    refine ⟨?_, by simp⟩
    have hall : countSigners current signers = signers.length := by
      rw [countSigners, List.countP_eq_length]
      intro signer hsigner
      obtain ⟨key, hkey, _⟩ := hkeys signer hsigner
      rw [hkey]
      rfl
    apply signedByMajorityOf_of_count hcurrent hne hsigners
    · intro signer hsigner key hkey
      obtain ⟨expected, hexpected, hsame⟩ := hkeys signer hsigner
      rw [hexpected] at hkey
      exact (Option.some.inj hkey).symm.trans hsame
    · rw [hall]
      exact hcount
  | some proposal =>
    simp only [hpending, validateJointSigners, bind_eq_ok, ensure_eq_ok, forM_eq_ok, checkJointSigner,
      exists_const] at hquorum
    obtain ⟨old, hold, new, hnew, hkeys, holdCount, hnewCount⟩ := hquorum
    simp only [validateDiscoveryMembershipProofShape, bind_eq_ok, ensure_eq_ok, onSome_eq_ok,
      exists_const] at hshape
    obtain ⟨_, _, _, _, _, _, _, _, _, _, hjoint⟩ := hshape
    obtain ⟨_, hproposal, hprevious⟩ := hjoint proposal hpending
    obtain ⟨hactive, hactive'⟩ := validateMembershipProposalShape_active hproposal
    constructor
    · rw [← hprevious]
      exact signedByMajorityOf_of_count hold hactive hsigners
        (fun signer hsigner => (hkeys signer hsigner).2.1) holdCount
    · rintro _ ⟨⟩
      exact signedByMajorityOf_of_count hnew hactive' hsigners
        (fun signer hsigner => (hkeys signer hsigner).2.2) hnewCount

/-! ## The whole proof -/

/-- The authority of an accepted current record is an active voter. -/
theorem activeIds_ne_nil_of_verified {announcement : WorldAnnouncementV1}
    (h : verifyDiscoveryMembershipProof C announcement proof = .ok ()) :
    proof.currentMembership.activeIds ≠ [] := by
  simp only [verifyDiscoveryMembershipProof, verifyDiscoveryCurrent, bind_eq_ok, ensure_eq_ok,
    exists_const] at h
  obtain ⟨_, _, _, _, _, _, _, _, _, _, _, _, _, _, _, _, member, hmember, _, _, hactive⟩ := h
  have hmem : member.peerId ∈ proof.currentMembership.activeIds := by
    simp only [MembershipRecordV1.activeIds, List.mem_map, List.mem_filter]
    exact ⟨member, ⟨hmember, by simp [hactive]⟩, rfl⟩
  exact List.ne_nil_of_mem hmem

/-- The initial record of an accepted proof is anchored in its genesis. -/
theorem anchoredIn_of_verified {announcement : WorldAnnouncementV1}
    (h : verifyDiscoveryMembershipProof C announcement proof = .ok ()) :
    proof.initialMembership.AnchoredIn C proof.genesis := by
  simp only [verifyDiscoveryMembershipProof, verifyDiscoveryLimits, verifyDiscoveryAnchor, bind_eq_ok,
    ensure_eq_ok, requireProofSignature_eq_ok, exists_const] at h
  obtain ⟨_, ⟨_, hworld, _⟩, ⟨⟨_, _, _, hsameWorld, hsequence, _, hcreator, _⟩, _, hsigned, _, _,
    hmembers, _⟩, _⟩ := h
  refine ⟨⟨hsequence, hsameWorld.trans hworld.symm⟩, ?_, hmembers.symm⟩
  rw [← hcreator]
  exact verifyMembershipSignature_verify hsigned

/-- The certificates of a proof that both verifiers accept lead, in their order, from the anchored
record to the current voters, every freshness quorum includes their majority, and quorums for the
same voters share a signer. -/
theorem discovery_proof_sound {announcement : WorldAnnouncementV1}
    {proof : DiscoveryMembershipProofV1}
    (hverified : verifyDiscoveryMembershipProof C announcement proof = .ok ())
    (hshape : validateDiscoveryMembershipProofShape C proof = .ok ()) :
    proof.initialMembership.AnchoredIn C proof.genesis ∧
      (∃ sequence ≤ proof.currentMembership.sequence,
        CertifiedChain C proof.worldId proof.membershipCertificates
          (0, proof.initialMembership.voterSet) (sequence, proof.currentMembership.voterSet)) ∧
      (∀ votes, validateDiscoveryFreshnessQuorum C proof votes = .ok () →
        SignedByMajorityOf votes proof.currentMembership.voterSet ∧
          ∀ proposal ∈ proof.pendingMembership,
            SignedByMajorityOf votes proposal.proposed.voterSet) ∧
      ∀ otherAnnouncement other, verifyDiscoveryMembershipProof C otherAnnouncement other = .ok () →
        other.currentMembership.voterSet = proof.currentMembership.voterSet →
        ∀ votes otherVotes, validateDiscoveryFreshnessQuorum C proof votes = .ok () →
          validateDiscoveryFreshnessQuorum C other otherVotes = .ok () →
          ShareSigner votes otherVotes := by
  have hanchored := anchoredIn_of_verified hverified
  have hactive := activeIds_ne_nil_of_verified hverified
  refine ⟨hanchored, ?_, fun votes => freshnessQuorum_majorities hactive, ?_⟩
  · simp only [verifyDiscoveryMembershipProof, bind_eq_ok, ensure_eq_ok] at hverified
    obtain ⟨_, _, _, _, _, _, lastSequence, hcertificates, _⟩ := hverified
    have hvotes := verifyDiscoveryCertificates_votes hcertificates
    simp only [validateDiscoveryMembershipProofShape, bind_eq_ok, ensure_eq_ok, exists_const] at hshape
    obtain ⟨_, _, initial, hinitial, reached, hreached, hlast, current, hcurrent, hsame, _⟩ := hshape
    have hchain := followVoters_chain hreached hvotes
    rw [activeVoters_toFinset hinitial, ← hsame, activeVoters_toFinset hcurrent,
      hanchored.first.1] at hchain
    exact ⟨reached.2, hlast, hchain⟩
  · intro otherAnnouncement other hother hvoters votes otherVotes hvotes hotherVotes
    have hfirst := (freshnessQuorum_majorities hactive hvotes).1
    have hsecond := (freshnessQuorum_majorities (activeIds_ne_nil_of_verified hother) hotherVotes).1
    rw [hvoters] at hsecond
    exact hfirst.share hsecond

namespace Founding

variable (C : Crypto) (f : Founding)

/-- The announcement of a membership record by its authority, before it is signed. -/
def unsignedAnnouncement (record : MembershipRecordV1) : WorldAnnouncementV1 where
  protocolVersion := protocolVersionV1
  worldId := f.world C
  presentation := ⟨"", "", [], none, none⟩
  compatibility := ⟨"", "", "", "", f.genesis.compatibilityFingerprint⟩
  visibility := .public
  membershipPolicy := .inviteOnly
  configSequence := 0
  configHash := ⟨.atom 0⟩
  membershipSequence := record.sequence
  membershipHash := record.recordHash C
  authorityEpoch := record.epoch
  fencingToken := 1
  canonicalHead := none
  announcementSequence := 1
  issuedUnixMs := 0
  expiresUnixMs := 1000
  announcerPeerId := record.authorityPeerId
  announcerPublicKey := record.authorityPublicKey
  signature := .empty

/-- The announcement of a membership record by its authority. -/
def announcement (record : MembershipRecordV1) : WorldAnnouncementV1 :=
  { f.unsignedAnnouncement C record with
    signature := C.sign record.authorityPublicKey
      (.worldAnnouncement (f.unsignedAnnouncement C record).unsigned) }

/-- The proof of the change to other members by a certificate of the given voters. -/
def membershipProof (members : List WorldMemberV1) (voters : List PublicKey) :
    DiscoveryMembershipProofV1 where
  protocolVersion := protocolVersionV1
  worldId := f.world C
  genesis := f.genesis
  initialMembership := f.membership C
  membershipCertificates := [f.membershipCertificate C members voters]
  currentMembership := (f.proposal C members).proposed
  pendingMembership := none

/-- The challenge whether the announcement of a record is current. -/
def challenge (record : MembershipRecordV1) : DiscoveryFreshnessChallengeV1 where
  protocolVersion := protocolVersionV1
  verifierPeerId := ⟨0⟩
  nonce := 0
  worldId := f.world C
  announcementHash := (f.announcement C record).announcementHash C
  membershipSequence := record.sequence
  membershipHash := record.recordHash C
  pendingMembershipProposalHash := none
  authorityPeerId := record.authorityPeerId
  authorityEpoch := record.epoch
  fencingToken := 1
  configSequence := 0
  configHash := ⟨.atom 0⟩
  canonicalHead := none
  issuedUnixMs := 0
  expiresUnixMs := 1000

/-- The confirmation of a challenge by a member. -/
def freshnessVote (challenge : DiscoveryFreshnessChallengeV1) (voter : PublicKey) :
    DiscoveryFreshnessVoteV1 where
  challenge := challenge
  voterPeerId := C.peerIdFromPublicKey voter
  voterPublicKey := voter
  signature := C.sign voter (.discoveryFreshnessVote
    ⟨challenge, C.peerIdFromPublicKey voter, voter, .empty⟩)

end Founding

/-- Three founders become two by a certified change, and both of them confirm it. -/
theorem discovery_proof_sound_departure :
    let f := Founding.numbered 3
    let staying := (f.members .ideal).take 2
    let proof := f.membershipProof .ideal staying [⟨1⟩, ⟨2⟩]
    let votes := [⟨1⟩, ⟨2⟩].map
      (Founding.freshnessVote .ideal (f.challenge .ideal proof.currentMembership))
    validateDiscoveryFreshnessQuorum .ideal proof votes = .ok () ∧
      SignedByMajorityOf votes proof.currentMembership.voterSet := by
  intro f staying proof votes
  have hverified : verifyDiscoveryMembershipProof .ideal
      (f.announcement .ideal proof.currentMembership) proof = .ok () := by
    decide +kernel
  have hshape : validateDiscoveryMembershipProofShape .ideal proof = .ok () := by
    decide +kernel
  have hquorum : validateDiscoveryFreshnessQuorum .ideal proof votes = .ok () := by
    decide +kernel
  exact ⟨hquorum, ((discovery_proof_sound hverified hshape).2.2.1 votes hquorum).1⟩

/-! ## One announcement, one hash -/

/-- Announcements that are signed alike have one hash exactly when they list their tags alike: the
signature covers the tags in canonical order, the hash covers them as they stand. -/
theorem announcementHash_follows_signed_iff (C : Crypto) (a b : WorldAnnouncementV1) :
    (a.signingBytes = b.signingBytes → a.signature = b.signature →
        a.announcementHash C = b.announcementHash C) ↔
      (a.signingBytes = b.signingBytes → a.signature = b.signature →
        a.presentation.tags = b.presentation.tags) := by
  refine forall₂_congr fun hbytes hsignature => ⟨fun hhash => ?_, fun htags => ?_⟩
  · rw [HashInput.worldAnnouncement.inj (C.hash_injective hhash)]
  · have hunsigned : a.unsigned = b.unsigned := Signable.worldAnnouncement.inj hbytes
    have hsame : a = b := by
      obtain ⟨_, _, ⟨_, _, _, _, _⟩⟩ := a
      obtain ⟨_, _, ⟨_, _, _, _, _⟩⟩ := b
      simp_all [WorldAnnouncementV1.unsigned, WorldPresentationV1.normalize]
    rw [hsame]

/-- The announcement of a new world by its authority, with tags. -/
def Founding.taggedAnnouncement (C : Crypto) (f : Founding) (tags : List String) :
    WorldAnnouncementV1 :=
  let unsigned : WorldAnnouncementV1 :=
    { f.unsignedAnnouncement C (f.membership C) with presentation := ⟨"", "", tags, none, none⟩ }
  { unsigned with signature := C.sign f.authority unsigned.signingBytes }

/-- One signed announcement verifies with its tags in either order, under two hashes. -/
theorem reversed_tags_other_hash :
    let a := (Founding.numbered 1).taggedAnnouncement .ideal ["friends", "survival"]
    let b := (Founding.numbered 1).taggedAnnouncement .ideal ["survival", "friends"]
    verifyWorldAnnouncement .ideal a 0 = .ok () ∧ verifyWorldAnnouncement .ideal b 0 = .ok () ∧
      a.signingBytes = b.signingBytes ∧ a.signature = b.signature ∧
      a.announcementHash .ideal ≠ b.announcementHash .ideal := by
  decide +kernel

end SwarmCraft
