import SwarmCraft.Daemon.Household
import SwarmCraft.System.Genesis

/-!
# Outsiders of a world

A peer without standing in a world is turned away by the check before `handle_request`, or by the
handlers that do their own: a join needs a valid invite, a proposal and a commit need the stored
authority or the inviter of the staged join. What is left is the certificate of a recovery epoch of
another world: nothing compares the world of its ballot with the world of the record.
-/

namespace SwarmCraft

open Checked Effect
open Founding (fourth numbered)

variable {request : WireRequest} {certificate : RecoveryCertificateV1}

/-- The peer has no standing in a world: it is not a member that is not banned, not the authority
of the stored membership record and not the inviter of a staged join. -/
structure Outsider (C : Crypto) (sender : PeerId) (world : WorldId) (store : Store) : Prop where
  member : ∀ descriptor member, loadWorldDescriptor world store = .ok descriptor →
    descriptor.member sender = some member → member.banned = true
  authority : ∀ record, loadMembershipRecord world store = .ok record →
    record.authorityPeerId ≠ sender
  inviter : ∀ join, loadPendingJoin C world store = .ok join → join.invite.inviterPeerId ≠ sender

instance (C : Crypto) (sender : PeerId) (world : WorldId) (store : Store) :
    Decidable (Outsider C sender world store) :=
  decidable_of_iff
    ((∀ descriptor ∈ optional (loadWorldDescriptor world store),
        ∀ member ∈ descriptor.member sender, member.banned = true) ∧
      (∀ record ∈ optional (loadMembershipRecord world store), record.authorityPeerId ≠ sender) ∧
      ∀ join ∈ optional (loadPendingJoin C world store), join.invite.inviterPeerId ≠ sender)
    ⟨fun ⟨member, authority, inviter⟩ =>
      ⟨fun descriptor found hdescriptor =>
          member descriptor (optional_eq_some.mpr hdescriptor) found,
        fun record hrecord => authority record (optional_eq_some.mpr hrecord),
        fun join hjoin => inviter join (optional_eq_some.mpr hjoin)⟩,
      fun h => ⟨fun descriptor hdescriptor found =>
          h.member descriptor found (optional_eq_some.mp hdescriptor),
        fun record hrecord => h.authority record (optional_eq_some.mp hrecord),
        fun join hjoin => h.inviter join (optional_eq_some.mp hjoin)⟩⟩

/-- A request that arrives, with the daemon's clock and the time of day. -/
structure Arrival where
  now : Nat
  unixMillis : Nat
  number : Nat
  request : DaemonRequest

/-- The request presents a valid and unexpired invite of the current authority of the world. -/
def Arrival.PresentsInvite (C : Crypto) (world : WorldId) (store : Store) (arrival : Arrival) :
    Prop :=
  match arrival.request with
  | .world (.joinRequest request) => request.worldId = world ∧
      verifyInviteSignature C request.invite = .ok () ∧
      validateInviteExpiry request.invite.expiresUnixMs arrival.unixMillis = .ok () ∧
      ∃ current, loadMembershipRecord world store = .ok current ∧
        request.invite.inviterPeerId = current.authorityPeerId ∧
        request.invite.inviterPublicKey = current.authorityPublicKey
  | _ => False

namespace Household

variable (C : Crypto) (fingerprint : RuntimeCompatibilityManifestV1 → Hash32)
  (identity : PeerIdentity) (sender : PeerId) (world : WorldId)

/-- Every world at a time of day. -/
def atTime (house : Household) (unixMillis : Nat) : Household :=
  { house with memory := fun other =>
      { house.memory other with
        host := { (house.memory other).host with unixMillis := unixMillis } } }

/-- The daemon handles a request of the peer. -/
def arrive (house : Household) (arrival : Arrival) : Household :=
  (house.atTime arrival.unixMillis).handleRequest C fingerprint identity arrival.now sender
    arrival.number arrival.request

/-- Each of the requests leaves the files of the world as they are. -/
def Untouched : Household → List Arrival → Prop
  | _, [] => True
  | house, arrival :: rest =>
    (house.arrive C fingerprint identity sender arrival).files world = house.files world ∧
      (house.arrive C fingerprint identity sender arrival).Untouched rest

/-- A recovery epoch of another world carries a certificate whose ballot names this world, passes
its checks against the other world and brings another certificate than the stored one. -/
def Smuggles (house : Household) : DaemonRequest → Prop
  | .world (.recoveryEpoch record certificate) =>
    record.worldId ≠ world ∧ certificate.ballot.worldId = world ∧
      (∃ known, recoveryEpochKnown C sender record certificate
        (house.files record.worldId).store = .ok known) ∧
      (∃ metadata, loadWorld C world (house.files world).store = .ok metadata) ∧
      (house.files world).store.recoveryCertificate ≠ .present certificate
  | _ => False

/-- None of the requests carries such a certificate. -/
def Clean : Household → List Arrival → Prop
  | _, [] => True
  | house, arrival :: rest => ¬ house.Smuggles C sender world arrival.request ∧
      (house.arrive C fingerprint identity sender arrival).Clean rest

end Household

/-! ## Turned away -/

section Refused

variable {C : Crypto} {site : Site} {channel : Channel} {world : WorldId} {store : Store} {e : Exec}

/-- An action after a check leaves the state alone if it does so whenever the check passes. -/
theorem after_check {α β : Type} {x : Except DaemonError α} {k : α → Daemon β}
    (h : ∀ a, x = .ok a → (k a e).2 = e) : ((check x >>= k) e).2 = e := by
  cases x with
  | ok a => exact h a rfl
  | error error => rfl

/-- An outsider is not authorized as a member. -/
theorem Outsider.authorizeMember_fails {sender : PeerId} (h : Outsider C sender world store)
    (u : Unit) : authorizeMember C world sender store ≠ .ok u := by
  intro hok
  simp only [authorizeMember, authorizedDescriptorMember, bind_eq_ok, ofStorage_eq_ok,
    required_eq_ok, guardMessage_eq_ok, exists_const] at hok
  obtain ⟨descriptor, hdescriptor, _, ⟨member, hmember, _, hbanned, _⟩, _⟩ := hok
  rw [h.member descriptor member hdescriptor hmember] at hbanned
  cases hbanned

/-- A request about the world that needs membership is turned away. -/
theorem Outsider.handleRequest_gated (h : Outsider C channel.requester world e.node.store)
    (hgate : request.membershipWorldId = some world) :
    (handleRequest C site channel request e).2 = e := by
  refine after_check fun u hok => ?_
  rw [hgate] at hok
  exact (h.authorizeMember_fails u hok).elim

/-- A request that needs no membership goes to its handler. -/
theorem handleRequest_of_ungated (hgate : request.membershipWorldId = none) :
    handleRequest C site channel request e = dispatchRequest C site channel request e := by
  have hpass : (onSome request.membershipWorldId fun worldId =>
      authorizeMember C worldId channel.requester e.node.store) = .ok () := by
    rw [hgate]
    rfl
  exact check_bind hpass

/-- A proposal that fits the local state comes from the stored authority or from the inviter. -/
theorem Outsider.validateMembershipProposalForLocal_fails {host : LocalHost}
    {proposal : MembershipProposalV1} {sender : PeerId}
    (h : Outsider C sender proposal.proposed.worldId store)
    (hsender : sender = proposal.previous.authorityPeerId) (u : Unit) :
    validateMembershipProposalForLocal C site host proposal store ≠ .ok u := by
  intro hok
  simp only [validateMembershipProposalForLocal, bind_eq_ok] at hok
  obtain ⟨_, _, _, _, hlocal⟩ := hok
  cases hload : loadMembershipRecord proposal.proposed.worldId store with
  | ok current =>
    rw [hload] at hlocal
    simp only [bind_eq_ok, guardMessage_eq_ok, MembershipRecordV1.recordHash_inj] at hlocal
    obtain ⟨_, _, rfl⟩ := hlocal
    exact h.authority _ hload hsender.symm
  | error error =>
    rw [hload] at hlocal
    simp only [bind_eq_ok, guardMessage_eq_ok, context_eq_ok] at hlocal
    obtain ⟨join, hjoin, _, _, _, _, _, _, _, _, _, hinviter, _⟩ := hlocal
    exact h.inviter join hjoin (hinviter.trans hsender.symm)

/-- A proposal of an outsider is turned away. -/
theorem Outsider.handleMembershipProposal_refused {proposal : MembershipProposalV1}
    (h : Outsider C channel.requester proposal.proposed.worldId e.node.store) :
    (handleMembershipProposal C site channel proposal e).2 = e := by
  refine after_check fun u hok => ?_
  simp only [membershipProposalChecks, bind_eq_ok, guardMessage_eq_ok, mapError_eq_ok,
    exists_const] at hok
  obtain ⟨hsender, _, _, _, _, _, hshape, hlocal⟩ := hok
  have hauthority := (MembershipProposalV1.validateShape_authority
    (validateMembershipProposalShape_shape hshape)).2.1
  exact (h.validateMembershipProposalForLocal_fails (hsender.trans hauthority.symm) u hlocal).elim

/-- A commit of an outsider is turned away. -/
theorem Outsider.handleMembershipCommit_refused {certificate : MembershipCertificateV1}
    (h : Outsider C channel.requester certificate.proposal.proposed.worldId e.node.store) :
    (handleMembershipCommit C site channel certificate e).2 = e := by
  refine after_check fun _ hsender => after_check fun _ hvalid => ?_
  rw [guardMessage_eq_ok] at hsender
  simp only [validateMembershipCertificateForLocal, validateMembershipCertificateSignatures,
    bind_eq_ok, mapError_eq_ok] at hvalid
  obtain ⟨_, ⟨_, _, _, _, _, hshape, _⟩, _, hextends, _⟩ := hvalid
  have hproposal : validateMembershipProposalShape C certificate.proposal = .ok () := by
    simp only [validateMembershipCertificateShape, bind_eq_ok] at hshape
    exact hshape.choose_spec.1
  have hauthority := (MembershipProposalV1.validateShape_authority
    (validateMembershipProposalShape_shape hproposal)).2.1
  unfold extendsCommittedConfiguration at hextends
  cases hload : loadMembershipRecord certificate.proposal.proposed.worldId e.node.store with
  | ok current =>
    rw [hload] at hextends
    simp only [bind_eq_ok, guardMessage_eq_ok, MembershipRecordV1.recordHash_inj] at hextends
    obtain ⟨_, _, rfl | rfl⟩ := hextends
    · exact (h.authority _ hload hsender.symm).elim
    · exact (h.authority _ hload (hauthority.trans hsender.symm)).elim
  | error error =>
    rw [hload] at hextends
    exact (h.validateMembershipProposalForLocal_fails (hsender.trans hauthority.symm) _
      hextends).elim

/-- A join without a valid invite is turned away. -/
theorem handleJoinRequest_refused {request : JoinRequestV1}
    (h : ¬ (verifyInviteSignature C request.invite = .ok () ∧
      validateInviteExpiry request.invite.expiresUnixMs e.node.host.unixMillis = .ok () ∧
      ∃ current, loadMembershipRecord request.worldId e.node.store = .ok current ∧
        request.invite.inviterPeerId = current.authorityPeerId ∧
        request.invite.inviterPublicKey = current.authorityPublicKey)) :
    (handleJoinRequest C site channel request e).2 = e := by
  refine after_check fun _ hok => ?_
  simp only [joinRequestChecks, bind_eq_ok, guardMessage_eq_ok, ofCore_eq_ok, ofStorage_eq_ok,
    context_eq_ok, exists_const] at hok
  obtain ⟨_, _, _, _, hinvite, _, hexpiry, _, _, _, current, hcurrent, _, _, _, hinviter, _⟩ := hok
  exact (h ⟨hinvite, hexpiry, current, hcurrent, hinviter⟩).elim

/-- A request of an outsider about the world is turned away. -/
theorem Outsider.handleRequest_refused (h : Outsider C channel.requester request.world e.node.store)
    (hinvite : ∀ join, request = .joinRequest join →
      ¬ (verifyInviteSignature C join.invite = .ok () ∧
        validateInviteExpiry join.invite.expiresUnixMs e.node.host.unixMillis = .ok () ∧
        ∃ current, loadMembershipRecord join.worldId e.node.store = .ok current ∧
          join.invite.inviterPeerId = current.authorityPeerId ∧
          join.invite.inviterPublicKey = current.authorityPublicKey)) :
    (handleRequest C site channel request e).2 = e := by
  cases request with
  | joinRequest join =>
    rw [handleRequest_of_ungated rfl]
    exact handleJoinRequest_refused (hinvite join rfl)
  | membershipProposal proposal =>
    rw [handleRequest_of_ungated rfl]
    exact h.handleMembershipProposal_refused
  | membershipCommit certificate =>
    rw [handleRequest_of_ungated rfl]
    exact h.handleMembershipCommit_refused
  | _ => exact h.handleRequest_gated rfl

end Refused

/-! ## The files of the world -/

section Files

variable {C : Crypto} {fingerprint : RuntimeCompatibilityManifestV1 → Hash32}
  {identity : PeerIdentity} {sender : PeerId} {world : WorldId} {house : Household}

/-- An action that does nothing leaves all files alone. -/
theorem Household.files_run_of_refused {other : WorldId} {action : Daemon Unit}
    (h : (action (Exec.start (house.node other))).2 = Exec.start (house.node other)) :
    (house.run other action).files = house.files := by
  apply files_run_of_same
  rw [h]
  rfl

/-- Storing a certificate changes the files exactly when another one was stored. -/
theorem saveRecoveryCertificate_changes {files : WorldFiles world} {stored : Store}
    (hsaved : saveRecoveryCertificate C certificate files.store = .ok stored) :
    files.withStore stored = files ↔ files.store.recoveryCertificate = .present certificate := by
  simp only [saveRecoveryCertificate, bind_eq_ok, pure_eq_ok] at hsaved
  obtain ⟨_, _, rfl⟩ := hsaved
  constructor
  · intro hsame
    have hstore := congrArg (fun files : WorldFiles world => files.store.recoveryCertificate) hsame
    exact hstore.symm
  · intro hcertificate
    rw [← hcertificate]
    exact files.withStore_self

/-- A recovery epoch of another world touches the files exactly when it carries a new certificate
for them. -/
theorem Household.handleRecoveryEpoch_files {channel : Channel} {record : EpochRecordV1}
    (hrecord : record.worldId ≠ world) :
    (house.handleRecoveryEpoch C channel record certificate).files world = house.files world ↔
      ¬ house.Smuggles C channel.requester world (.world (.recoveryEpoch record certificate)) := by
  unfold Household.handleRecoveryEpoch Household.Smuggles
  cases hknown : recoveryEpochKnown C channel.requester record certificate
      (house.node record.worldId).store with
  | error error =>
    have hnone : recoveryEpochKnown C channel.requester record certificate
        (house.files record.worldId).store = .error error := hknown
    simp [hnone]
  | ok known =>
    have hsome : recoveryEpochKnown C channel.requester record certificate
        (house.files record.worldId).store = .ok known := hknown
    by_cases hballot : certificate.ballot.worldId = world
    · subst hballot
      cases hsaved : saveRecoveryCertificate C certificate
          (house.node certificate.ballot.worldId).store with
      | error error =>
        -- the certificate is refused only where the world cannot be loaded
        have hload : ∀ metadata, loadWorld C certificate.ballot.worldId
            (house.files certificate.ballot.worldId).store ≠ .ok metadata := by
          intro metadata hmetadata
          simp [saveRecoveryCertificate, Household.node, hmetadata] at hsaved
        simp [hload]
      | ok stored =>
        have hload : ∃ metadata, loadWorld C certificate.ballot.worldId
            (house.files certificate.ballot.worldId).store = .ok metadata := by
          simp only [saveRecoveryCertificate, bind_eq_ok] at hsaved
          obtain ⟨metadata, hmetadata, _⟩ := hsaved
          exact ⟨metadata, hmetadata⟩
        have hfiles : ((house.store certificate.ballot.worldId stored).run record.worldId
            (settleRecoveryEpoch C channel record known)).files certificate.ballot.worldId =
              (house.files certificate.ballot.worldId).withStore stored := by
          rw [Household.files_run_of_ne (Ne.symm hrecord)]
          simp only [Household.store, Function.update_self]
        rw [hfiles, saveRecoveryCertificate_changes hsaved]
        simp [hrecord, hsome, hload]
    · cases hsaved : saveRecoveryCertificate C certificate
          (house.node certificate.ballot.worldId).store with
      | error error => simp [hballot]
      | ok stored =>
        have hfiles : ((house.store certificate.ballot.worldId stored).run record.worldId
            (settleRecoveryEpoch C channel record known)).files world = house.files world := by
          rw [Household.files_run_of_ne (Ne.symm hrecord),
            Household.files_store_of_ne (Ne.symm hballot)]
        simp [hfiles, hballot]

/-- A recovery epoch of the world itself is turned away. -/
theorem Outsider.handleRecoveryEpoch_refused {channel : Channel} {record : EpochRecordV1}
    (h : Outsider C channel.requester record.worldId (house.files record.worldId).store) :
    house.handleRecoveryEpoch C channel record certificate = house := by
  unfold Household.handleRecoveryEpoch
  cases hknown : recoveryEpochKnown C channel.requester record certificate
      (house.node record.worldId).store with
  | error error => rfl
  | ok known =>
    simp only [recoveryEpochKnown, bind_eq_ok] at hknown
    obtain ⟨u, hmember, _⟩ := hknown
    exact (h.authorizeMember_fails u hmember).elim

/-- A request other than a recovery epoch leaves the files alone. -/
theorem Outsider.files_run {channel : Channel} {now : Nat}
    (h : Outsider C channel.requester world (house.files world).store)
    (hinvite : ∀ join, request = .joinRequest join → join.worldId = world →
      ¬ (verifyInviteSignature C join.invite = .ok () ∧
        validateInviteExpiry join.invite.expiresUnixMs (house.memory world).host.unixMillis = .ok () ∧
        ∃ current, loadMembershipRecord world (house.files world).store = .ok current ∧
          join.invite.inviterPeerId = current.authorityPeerId ∧
          join.invite.inviterPublicKey = current.authorityPublicKey)) :
    (house.run request.world (handleRequest C ⟨request.world, identity, now⟩ channel request)).files
      world = house.files world := by
  by_cases hworld : request.world = world
  · subst hworld
    rw [Household.files_run_of_refused]
    apply Outsider.handleRequest_refused h
    rintro join rfl
    exact hinvite join rfl rfl
  · exact Household.files_run_of_ne (Ne.symm hworld)

/-- A configuration leaves the files alone. -/
theorem Outsider.handleWorldConfig_fails {config : WorldConfigV1}
    {files : WorldFiles config.worldId} (h : Outsider C sender config.worldId files.store)
    (saved : WorldFiles config.worldId) :
    handleWorldConfig C fingerprint sender config files ≠ .ok saved := by
  intro hok
  simp only [handleWorldConfig, bind_eq_ok] at hok
  obtain ⟨u, hmember, _⟩ := hok
  exact h.authorizeMember_fails u hmember

/-- A request of an outsider leaves the files of the world alone unless it smuggles a
certificate in. -/
theorem Outsider.arrive_files_iff {arrival : Arrival}
    (h : Outsider C sender world (house.files world).store)
    (hinvite : ¬ arrival.PresentsInvite C world (house.files world).store) :
    (house.arrive C fingerprint identity sender arrival).files world = house.files world ↔
      ¬ house.Smuggles C sender world arrival.request := by
  obtain ⟨now, unixMillis, number, request⟩ := arrival
  let channel : Channel := ⟨identity.peerId C, sender, number⟩
  have hclean {message : WireRequest} (hmessage : ∀ join, message = .joinRequest join →
        ¬ Arrival.PresentsInvite C world (house.files world).store
          ⟨now, unixMillis, number, .world (.joinRequest join)⟩) :
      ((house.atTime unixMillis).run message.world
        (handleRequest C ⟨message.world, identity, now⟩ channel message)).files world =
          house.files world := by
    have hout : Outsider C channel.requester world ((house.atTime unixMillis).files world).store := h
    apply hout.files_run
    intro join hjoin hworld hvalid
    exact hmessage join hjoin ⟨hworld, hvalid⟩
  cases request with
  | world message =>
    cases message with
    | recoveryEpoch record certificate =>
      by_cases hrecord : record.worldId = world
      · subst hrecord
        have hrefused : (house.atTime unixMillis).handleRecoveryEpoch C channel record certificate =
            house.atTime unixMillis := Outsider.handleRecoveryEpoch_refused h
        have hfiles := congrArg (fun house => Household.files house record.worldId) hrefused
        refine iff_of_true hfiles ?_
        simp [Household.Smuggles]
      · exact Household.handleRecoveryEpoch_files hrecord
    | joinRequest join =>
      refine iff_of_true (hclean ?_) not_false
      rintro _ ⟨⟩
      exact hinvite
    | _ => exact iff_of_true (hclean fun _ hjoin => by cases hjoin) not_false
  | worldConfig config =>
    refine iff_of_true ?_ not_false
    unfold Household.arrive Household.handleRequest
    dsimp only
    split
    · rfl
    · rename_i saved hsaved
      by_cases hworld : config.worldId = world
      · subst hworld
        exact (Outsider.handleWorldConfig_fails h saved hsaved).elim
      · exact Function.update_of_ne (Ne.symm hworld) _ _
  | inquiry ask => exact iff_of_true rfl not_false

/-- A sequence of requests of an outsider leaves the files of the world alone at every step exactly
when none of them smuggles a certificate in. -/
theorem outsider_untouched_iff (h : Outsider C sender world (house.files world).store)
    {arrivals : List Arrival}
    (hinvite : ∀ arrival ∈ arrivals, ¬ arrival.PresentsInvite C world (house.files world).store) :
    house.Untouched C fingerprint identity sender world arrivals ↔
      house.Clean C fingerprint identity sender world arrivals := by
  induction arrivals generalizing house with
  | nil => exact Iff.rfl
  | cons arrival rest ih =>
    have hstep : (house.arrive C fingerprint identity sender arrival).files world =
        house.files world ↔ ¬ house.Smuggles C sender world arrival.request :=
      h.arrive_files_iff (hinvite arrival List.mem_cons_self)
    unfold Household.Untouched Household.Clean
    rw [hstep]
    refine and_congr_right fun hclean => ?_
    have hsame := hstep.mpr hclean
    apply ih
    · rw [hsame]
      exact h
    · intro other hother
      rw [hsame]
      exact hinvite other (List.mem_cons_of_mem _ hother)

end Files

/-! ## Two worlds of one daemon -/

namespace Founding

/-- A world of the second, third and fourth peer, founded by the third one. -/
def neighbour : Founding where
  genesis := {
    protocolVersion := protocolVersionV1
    minecraftVersion := ""
    fabricLoaderVersion := ""
    compatibilityFingerprint := ⟨.atom 0⟩
    creationNonce := 1
    creatorPublicKey := ⟨3⟩
    initialMembership := [second, third, fourth] }
  keys := [⟨2⟩, ⟨3⟩, ⟨4⟩]
  authority := ⟨3⟩

/-- The daemon of the second peer, a member of the world of the first two and of the other one. -/
def between : Household where
  files world :=
    if world = (numbered 2).world .ideal then
      ⟨(numbered 2).store .ideal, .absent, rfl⟩
    else if world = neighbour.world .ideal then ⟨neighbour.store .ideal, .absent, rfl⟩
    else ⟨.empty, .absent, rfl⟩
  memory _ := (numbered 2).node .ideal .empty

/-- A ballot of the fourth peer on the generation of the other world, under the name of a world. -/
def ballotFor (world : WorldId) : RecoveryBallotV1 :=
  let unsigned := { neighbour.unsignedBallot .ideal ⟨4⟩ 1 with worldId := world }
  { unsigned with signature := Crypto.ideal.sign ⟨4⟩ (.recoveryBallot unsigned) }

/-- Its certificate, with the votes of the third and the fourth peer. -/
def certificateFor (world : WorldId) : RecoveryCertificateV1 :=
  ⟨ballotFor world, [vote .ideal (ballotFor world) ⟨3⟩, vote .ideal (ballotFor world) ⟨4⟩]⟩

/-- The epoch record of the other world that the fourth peer takes over with it. -/
def takeover : EpochRecordV1 :=
  let unsigned : EpochRecordV1 := { neighbour.unsignedEpoch .ideal with
    epochNumber := 2
    fencingToken := 2
    previousEpochHash := some (epochRecordHash .ideal (neighbour.epoch .ideal))
    authorityPeerId := fourth
    authorityPublicKey := ⟨4⟩
    mode := .recovery }
  { unsigned with signature := Crypto.ideal.sign ⟨4⟩ (.epoch unsigned) }

end Founding

/-- The fourth peer, a stranger to the world of the first two, sends its own recovery epoch: with a
certificate of its own world nothing happens to theirs. -/
theorem outsider_untouched_founding :
    let world := (numbered 2).world .ideal
    let arrivals := [⟨0, 0, 0, .world (.recoveryEpoch Founding.takeover
      (Founding.certificateFor (Founding.neighbour.world .ideal)))⟩]
    Outsider .ideal fourth world (Founding.between.files world).store ∧
      Founding.between.Untouched .ideal (fun _ => ⟨.atom 0⟩) ⟨⟨2⟩⟩ fourth world
        arrivals := by
  intro world arrivals
  have hout : Outsider .ideal fourth world (Founding.between.files world).store := by
    decide +kernel
  have hinvite : ∀ arrival ∈ arrivals, ¬ Arrival.PresentsInvite .ideal world
      (Founding.between.files world).store arrival := by
    intro arrival harrival
    rw [List.mem_singleton.mp harrival]
    exact not_false
  have hballot : (Founding.certificateFor (Founding.neighbour.world .ideal)).ballot.worldId ≠
      world := by
    decide +kernel
  refine ⟨hout, (outsider_untouched_iff hout hinvite).mpr ⟨?_, trivial⟩⟩
  exact fun hsmuggles => hballot hsmuggles.2.1

/-- With a certificate that names their world, the certificate is stored there. -/
theorem outsider_touches :
    let world := (numbered 2).world .ideal
    let arrival : Arrival := ⟨0, 0, 0, .world (.recoveryEpoch Founding.takeover
      (Founding.certificateFor world))⟩
    Outsider .ideal fourth world (Founding.between.files world).store ∧
      ¬ arrival.PresentsInvite .ideal world (Founding.between.files world).store ∧
      ((Founding.between.arrive .ideal (fun _ => ⟨.atom 0⟩) ⟨⟨2⟩⟩ fourth arrival).files
        world).store.recoveryCertificate = .present (Founding.certificateFor world) ∧
      (Founding.between.files world).store.recoveryCertificate = .absent := by
  refine ⟨?_, not_false, ?_, ?_⟩
  · decide +kernel
  · decide +kernel
  · decide +kernel

end SwarmCraft
