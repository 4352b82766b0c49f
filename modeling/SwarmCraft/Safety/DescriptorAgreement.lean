import SwarmCraft.Refinement.Commit
import SwarmCraft.System.Genesis

/-!
# The descriptor follows the membership record

The member set is stored twice: votes are counted on the descriptor, certificates on the
record. A commit and a record that keeps the voters replace both, the promotion of a host
keeps the members. Joining starts the descriptor over with the inviter alone, also where a
record is stored already.
-/

namespace SwarmCraft

open Checked Effect Transition Footprint
open Founding (first second third numbered created)

variable {C : Crypto} {F : Fleet C} {s t : System} {site : Site} {channel : Channel} {e : Exec}
variable {α : Type} {files : List File} {record current : MembershipRecordV1} {world : WorldId}
  {before store : Store} {change : List WorldMemberV1 → List WorldMemberV1} {sender : PeerId}
  {request : JoinRequestV1} {target : MembershipRecordV1 × WorldDescriptorV1}

/-! ## Two copies of the member list -/

/-- The members of a stored record are those of the stored descriptor. -/
def Store.Agreed (store : Store) : Prop :=
  ∀ record, store.membership = .present record →
    ∃ descriptor, store.descriptor = .present descriptor ∧ descriptor.members.Perm record.members

theorem Store.reads_agreed : Store.Reads [.membership, .descriptor] Store.Agreed := by
  intro a b hsame ha record hrecord
  have hmembership : b.membership = a.membership := hsame .membership (by decide)
  have hdescriptor : b.descriptor = a.descriptor := hsame .descriptor (by decide)
  rw [hmembership] at hrecord
  rw [hdescriptor]
  exact ha record hrecord

/-- A handler keeps the two copies equal. -/
abbrev KeepsAgreed : Exec → Exec → Prop := Kept fun e => e.node.store.Agreed

theorem keepsAgreed_of_touches {m : Daemon α} [Touches .plain files m]
    (hapart : ∀ file ∈ [File.membership, .descriptor], file ∉ files) : Always KeepsAgreed m :=
  kept_of_touches Store.reads_agreed hapart

/-- Saving a record and then the descriptor with its members: once the record is stored, the
descriptor cannot be refused. -/
theorem keepsAgreed_saveBoth {descriptor : WorldDescriptorV1} {k : Unit → Daemon Unit}
    (hload : loadWorldDescriptor world e.node.store = .ok descriptor)
    (hk : Always KeepsAgreed (k ())) :
    Along KeepsAgreed (do
      save [] (saveMembershipRecord C record)
      save [] (saveWorldDescriptor (descriptor.committed record).normalize)
      k ()) e := by
  refine along_save_then fun store hsaved _ => ?_
  have hvalid := (loadMembershipRecord_eq_ok.mp (loadMembershipRecord_saved hsaved)).2.2
  obtain ⟨rfl, _⟩ := saveMembershipRecord_eq_ok hsaved
  have hdescribed := saveWorldDescriptor_committed hload hvalid
    { e.node.store with membership := .present record }
  unfold Action.after
  rw [descriptor.normalize_committed hvalid, save_bind hdescribed]
  refine hk _ fun found hfound => ?_
  obtain rfl := DurableFile.present.inj hfound
  exact ⟨_, rfl, .refl _⟩

theorem keepsAgreed_saveMembershipRecord (hcurrent : e.node.store.membership = .present current)
    (hmembers : record.members = current.members) :
    Along KeepsAgreed (save [] (saveMembershipRecord C record)) e := by
  refine along_save_rel fun store hsaved he => ?_
  obtain ⟨rfl, _⟩ := saveMembershipRecord_eq_ok hsaved
  intro found hfound
  obtain rfl := DurableFile.present.inj hfound
  obtain ⟨descriptor, hdescriptor, hperm⟩ := he current hcurrent
  exact ⟨descriptor, hdescriptor, hmembers ▸ hperm⟩

/-! ## Commits and promotions -/

theorem keepsAgreed_applyMembershipCertificate (certificate : MembershipCertificateV1) :
    Always KeepsAgreed (applyMembershipCertificate C certificate) := by
  intro e
  refine along_readStore (along_check fun descriptor hchecks => ?_)
  simp only [applyMembershipChecks, bind_eq_ok, ofStorage_eq_ok, pure_eq_ok] at hchecks
  obtain ⟨_, _, _, _, current, hload, rfl⟩ := hchecks
  exact keepsAgreed_saveBoth (k := fun _ => _) hload (keepsAgreed_of_touches (by decide))

theorem keepsAgreed_certify {rest : Daemon Unit} (certificate : MembershipCertificateV1)
    (hrest : Always KeepsAgreed rest) :
    Always KeepsAgreed (do
      saveMembershipCertificate certificate
      applyMembershipCertificate C certificate
      rest) := by
  refine .bind (keepsAgreed_of_touches (by decide)) fun _ => ?_
  exact .bind (keepsAgreed_applyMembershipCertificate certificate) fun _ => hrest

theorem keepsAgreed_ensurePromotedMembership {texts : ArtifactTexts} {epoch : EpochRecordV1}
    {membership : MembershipRecordV1}
    (hload : loadMembershipRecord world e.node.store = .ok membership) :
    Along KeepsAgreed (ensurePromotedMembership C site texts epoch membership) e := by
  refine along_check fun _ _ => along_onlyIf fun _ => along_check fun promoted hpromoted => ?_
  exact keepsAgreed_saveMembershipRecord (loadMembershipRecord_eq_ok.mp hload).1
    (nextMembership_members hpromoted)

theorem keepsAgreed_ensureRecoveryArtifacts (epoch : EpochRecordV1) :
    Always KeepsAgreed (ensureRecoveryArtifacts C site epoch) := by
  refine .bind (keepsAgreed_of_touches (by decide)) fun _ e => ?_
  refine along_readStore (along_check fun membership hload => ?_)
  rw [ofStorage_eq_ok] at hload
  exact keepsAgreed_ensurePromotedMembership hload

theorem keepsAgreed_ensureAuthorityArtifacts (epoch : EpochRecordV1) :
    Always KeepsAgreed (ensureAuthorityArtifacts C site epoch) := by
  refine .bind (keepsAgreed_of_touches (by decide)) fun _ e => ?_
  refine along_readStore (along_onSome fun membership hload => ?_)
  exact keepsAgreed_ensurePromotedMembership (optional_eq_some.mp hload)

theorem keepsAgreed_hostWorld : Always KeepsAgreed (hostWorld C site) := by
  refine always_readStore fun _ => always_check fun latest _ => ?_
  refine always_readStore fun _ => always_check fun _ _ => always_check fun sleep _ => ?_
  split
  · refine always_check fun next _ => .bind (keepsAgreed_of_touches (by decide)) fun _ => ?_
    refine .bind (keepsAgreed_of_touches (by decide)) fun _ => ?_
    exact keepsAgreed_ensureAuthorityArtifacts next
  · refine always_readStore fun _ => ?_
    split
    · exact always_check fun _ _ => keepsAgreed_ensureAuthorityArtifacts _
    · exact keepsAgreed_of_touches (by decide)

/-! ## Messages, ticks and joins -/

theorem keepsAgreed_handleMembershipCommit (certificate : MembershipCertificateV1) :
    Always KeepsAgreed (handleMembershipCommit C site channel certificate) := by
  refine always_readStore fun _ => always_readHost fun _ => ?_
  refine always_check fun _ _ => always_check fun _ _ => ?_
  exact keepsAgreed_certify certificate (keepsAgreed_of_touches (by decide))

theorem keepsAgreed_handleMembership (record : MembershipRecordV1) :
    Always KeepsAgreed (handleMembership C channel record) := by
  intro e
  refine along_readStore (along_check fun _ _ => ?_)
  split
  · exact keepsAgreed_of_touches (by decide) e
  · refine along_check fun _ _ => along_check fun descriptor hload => ?_
    rw [ofStorage_eq_ok] at hload
    exact keepsAgreed_saveBoth (k := fun _ => _) hload (keepsAgreed_of_touches (by decide))

theorem keepsAgreed_recoverCommittedMembership :
    Always KeepsAgreed (recoverCommittedMembership C site) := by
  refine always_readStore fun _ => always_readHost fun _ => .onSome fun certificate _ => ?_
  refine always_check fun committed _ => ?_
  cases committed with
  | superseded => exact .pure ()
  | applied current => exact keepsAgreed_of_touches (by decide)
  | outstanding =>
    exact always_check fun _ _ => keepsAgreed_applyMembershipCertificate certificate

theorem keepsAgreed_maintainMembershipTransition (promise : DurableMembershipPromiseV1) :
    Always KeepsAgreed (maintainMembershipTransition C site promise) := by
  refine .onlyIf fun _ => always_readStore fun _ => always_check fun current _ => ?_
  split
  · exact keepsAgreed_of_touches (by decide)
  · refine always_check fun _ _ => always_check fun _ _ => ?_
    refine .bind (keepsAgreed_of_touches (by decide)) fun _ => ?_
    refine .bind (keepsAgreed_of_touches (by decide)) fun _ => ?_
    refine always_readRuntime fun _ => always_check fun _ _ => .onSome fun certificate _ => ?_
    exact keepsAgreed_certify certificate (keepsAgreed_of_touches (by decide))

theorem keepsAgreed_tickMember (descriptor : WorldDescriptorV1) (member : WorldMemberV1)
    (epoch : EpochRecordV1) (sleep : Option SleepRecordV1) (wake : Bool) :
    Always KeepsAgreed (tickMember C site descriptor member epoch sleep wake) := by
  refine .bind (keepsAgreed_of_touches (by decide)) fun _ => ?_
  split
  · refine always_tickAuthority (fun hm => ?_) (fun _ => ⟨?_, ?_⟩) (fun _ _ => ?_) fun _ => ?_
    · have := hm
      exact keepsAgreed_of_touches (by decide)
    · exact keepsAgreed_of_touches (by decide)
    · exact keepsAgreed_of_touches (by decide)
    · exact keepsAgreed_of_touches (by decide)
    · exact keepsAgreed_ensureRecoveryArtifacts epoch
  · exact keepsAgreed_of_touches (by decide)

theorem keepsAgreed_maintainAuthorityLeases :
    Always KeepsAgreed (maintainAuthorityLeases C site) := by
  refine always_readStore fun _ => .onSome fun _ _ => ?_
  refine .bind keepsAgreed_recoverCommittedMembership fun _ => always_readStore fun _ => ?_
  split
  · exact keepsAgreed_of_touches (by decide)
  · split
    · exact keepsAgreed_of_touches (by decide)
    · refine always_readStore fun _ => ?_
      split
      · refine .bind (keepsAgreed_of_touches (by decide)) fun _ => ?_
        refine .bind (keepsAgreed_of_touches (by decide)) fun _ => ?_
        exact keepsAgreed_maintainMembershipTransition _
      · split
        · exact keepsAgreed_tickMember _ _ _ _ _
        · exact keepsAgreed_of_touches (by decide)

/-- Joining where no record is stored, or one with the inviter alone. -/
theorem keepsAgreed_joinWorld {invite : InviteV1} (nonce : Nat)
    (h : ∀ record, e.node.store.membership = .present record →
      record.members = (invitedDescriptor invite).members) :
    Along KeepsAgreed (joinWorld C site invite nonce) e := by
  refine along_readStore (along_bind (keepsAgreed_of_touches (by decide) e) fun _ u hu => ?_)
  have hsame : u.node.store.membership = e.node.store.membership :=
    content_of_run hu .membership (by decide)
  refine along_bind (along_save_rel fun store hsaved he => ?_) fun _ v _ => ?_
  · simp only [saveWorldDescriptor, bind_eq_ok, pure_eq_ok] at hsaved
    obtain ⟨_, _, _, _, rfl⟩ := hsaved
    intro record hrecord
    refine ⟨_, rfl, ?_⟩
    rw [h record (hsame ▸ hrecord), WorldDescriptorV1.normalize_of_strict rfl]
  · exact along_check fun request _ => keepsAgreed_of_touches (by decide) v

/-! ## Proposals -/

/-- A stored prepare was stored before, or changes the members of the record stored before. -/
def Store.ProposesOver (before : Store) (change : List WorldMemberV1 → List WorldMemberV1)
    (store : Store) : Prop :=
  ∀ promise, store.membershipPromise = .present promise →
    before.membershipPromise = .present promise ∨
      ∃ record, before.membership = .present record ∧ promise.proposal.previous = record ∧
        promise.proposal.proposed.members.Perm (change record.members)

theorem Store.reads_proposesOver (before : Store)
    (change : List WorldMemberV1 → List WorldMemberV1) :
    Store.Reads [.membershipPromise] (before.ProposesOver change) := by
  intro a b hsame ha promise hpromise
  have hfile : b.membershipPromise = a.membershipPromise := hsame .membershipPromise (by decide)
  exact ha promise (hfile ▸ hpromise)

/-- What does not write the prepare proposes nothing. -/
theorem proposesOver_of_touches {m : Daemon α} [Touches .plain files m]
    (hapart : ∀ file ∈ [File.membershipPromise], file ∉ files) :
    Always (Kept fun e => before.ProposesOver change e.node.store) m :=
  kept_of_touches (before.reads_proposesOver change) hapart

theorem proposesOver_proposeMembers {members : List WorldMemberV1}
    {accepted : Nat → WireResponse} [∀ sequence, Evident (accepted sequence).modest]
    (hcurrent : before.membership = .present current)
    (hmembers : members.Perm (change current.members)) :
    Always (Kept fun e => before.ProposesOver change e.node.store)
      (proposeMembers C site channel current members accepted) := by
  refine always_check fun next hnext => always_check fun _ _ => .bind (fun e => ?_) fun _ => ?_
  · refine along_saveAnswer_rel fun result store hsaved he => ?_
    rw [Except.ok.injEq] at hsaved
    have hresult := promiseMembershipProposal_eq hsaved
    cases result with
    | rejected => exact hresult ▸ he
    | idempotent => exact hresult.1 ▸ he
    | accepted =>
      obtain ⟨rfl, _⟩ := hresult
      intro promise hpromise
      obtain rfl := DurableFile.present.inj hpromise
      exact .inr ⟨current, hcurrent, rfl, nextMembership_members hnext ▸ hmembers⟩
  · exact proposesOver_of_touches (by decide)

/-- A loaded descriptor has the members of the stored record, each of them once. -/
theorem Store.Agreed.loaded {world : WorldId} {current : MembershipRecordV1}
    {descriptor : WorldDescriptorV1} (hagreed : store.Agreed)
    (hrecord : store.membership = .present current)
    (hload : loadWorldDescriptor world store = .ok descriptor) :
    descriptor.members.Perm current.members ∧ (descriptor.members.map WorldMemberV1.peerId).Nodup := by
  obtain ⟨hfile, _, hsemantics⟩ := loadWorldDescriptor_eq_ok.mp hload
  obtain ⟨stored, hstored, hperm⟩ := hagreed current hrecord
  obtain rfl := DurableFile.present.inj (hfile.symm.trans hstored)
  exact ⟨hperm, nodup_of_strict (WorldDescriptorV1.validateSemantics_eq_ok.mp hsemantics).2.2⟩

/-- The members that an accepted join request proposes. -/
theorem Store.Agreed.join_members {host : LocalHost} (hagreed : store.Agreed)
    (h : joinRequestChecks C site sender request host store = .ok target)
    (hnew : target.2.member request.joiningMember.peerId = none) :
    store.membership = .present target.1 ∧
      ({ target.2 with members := target.2.members ++ [request.joiningMember] } :
        WorldDescriptorV1).normalize.members.Perm (target.1.members ++ [request.joiningMember]) := by
  have hrecord := (loadMembershipRecord_eq_ok.mp (joinRequestChecks_eq_ok h)).1
  simp only [joinRequestChecks, bind_eq_ok, pure_eq_ok, ofStorage_eq_ok] at h
  obtain ⟨_, _, _, _, _, _, _, _, _, _, _, _, current, _, _, _, _, _, _, _, descriptor, hload, _, _,
    _, _, rfl⟩ := h
  obtain ⟨hperm, hnodup⟩ := hagreed.loaded hrecord hload
  refine ⟨hrecord, (WorldDescriptorV1.normalize_perm ?_).trans (hperm.append_right _)⟩
  rw [List.map_append, List.nodup_append]
  refine ⟨hnodup, List.nodup_singleton _, ?_⟩
  intro id hid other hother heq
  obtain ⟨member, hmember, rfl⟩ := List.mem_map.mp hid
  rw [List.map_singleton, List.mem_singleton] at hother
  have habsent := List.find?_eq_none.mp hnew member hmember
  exact habsent (decide_eq_true (heq.trans hother))

/-- The members that an accepted leave request proposes. -/
theorem Store.Agreed.leave_members {request : LeaveRequestV1} (hagreed : store.Agreed)
    (h : leaveRequestChecks C site sender request store = .ok target) :
    store.membership = .present target.1 ∧ ({ target.2 with
        members := target.2.members.filter fun member =>
          decide (member.peerId ≠ request.leavingPeerId) } : WorldDescriptorV1).normalize.members.Perm
        (target.1.members.filter fun member => decide (member.peerId ≠ request.leavingPeerId)) := by
  have hrecord := (loadMembershipRecord_eq_ok.mp (leaveRequestChecks_eq_ok h)).1
  simp only [leaveRequestChecks, bind_eq_ok, pure_eq_ok, ofStorage_eq_ok] at h
  obtain ⟨_, _, _, _, current, _, _, _, _, _, _, _, _, _, descriptor, hload, _, _, _, _, rfl⟩ := h
  obtain ⟨hperm, hnodup⟩ := hagreed.loaded hrecord hload
  refine ⟨hrecord, (WorldDescriptorV1.normalize_perm ?_).trans (hperm.filter _)⟩
  exact hnodup.sublist (List.filter_sublist.map _)

/-- A join request proposes the members of the stored record and the joining one. -/
theorem proposesOver_handleJoinRequest (hagreed : e.node.store.Agreed) :
    e.node.store.ProposesOver (· ++ [request.joiningMember])
      ((handleJoinRequest C site channel request).after e).node.store := by
  have hkept : Along (Kept fun u => e.node.store.ProposesOver (· ++ [request.joiningMember])
      u.node.store) (handleJoinRequest C site channel request) e := by
    refine along_readStore (along_readHost (along_check fun target htarget => ?_))
    dsimp only
    split
    · exact proposesOver_of_touches (by decide) e
    · rename_i hnew
      obtain ⟨hcurrent, hmembers⟩ := hagreed.join_members htarget hnew
      split
      · exact proposesOver_of_touches (by decide) e
      · exact proposesOver_proposeMembers hcurrent hmembers e
  exact hkept fun promise hpromise => .inl hpromise

/-- A leave request proposes the members of the stored record without the leaving one. -/
theorem proposesOver_handleLeaveRequest {request : LeaveRequestV1} (hagreed : e.node.store.Agreed) :
    e.node.store.ProposesOver
      (List.filter fun member => decide (member.peerId ≠ request.leavingPeerId))
      ((handleLeaveRequest C site channel request).after e).node.store := by
  have hkept : Along (Kept fun u => e.node.store.ProposesOver
      (List.filter fun member => decide (member.peerId ≠ request.leavingPeerId)) u.node.store)
      (handleLeaveRequest C site channel request) e := by
    refine along_readStore (along_check fun target htarget => ?_)
    obtain ⟨hcurrent, hmembers⟩ := hagreed.leave_members htarget
    dsimp only
    split
    · exact proposesOver_of_touches (by decide) e
    · exact proposesOver_proposeMembers hcurrent hmembers e
  exact hkept fun promise hpromise => .inl hpromise

/-- A world is created with one member list. -/
theorem createdStore_agreed (genesis : WorldGenesisV1) (node : Node) :
    (createdStore C site genesis node).Agreed := by
  have halong : Along KeepsAgreed (createLocalWorld C site genesis)
      (Exec.start { node with store := Store.empty }) := by
    refine along_bind (keepsAgreed_of_touches (by decide) _) fun _ u hu => ?_
    obtain ⟨named, hnamed, rfl⟩ := run_save.mp hu
    simp only [createWorld, bind_eq_ok, pure_eq_ok] at hnamed
    obtain ⟨_, _, rfl⟩ := hnamed
    refine along_bind (along_save_rel fun store hsaved _ => ?_) fun _ v hv => ?_
    · obtain rfl := saveWorldDescriptor_eq_ok hsaved
      exact fun record hrecord => by cases hrecord
    obtain ⟨described, hdescribed, rfl⟩ := run_save.mp hv
    obtain rfl := saveWorldDescriptor_eq_ok hdescribed
    refine along_check fun membership hmembership => along_bind ?_ fun _ w _ => ?_
    · refine along_save_rel fun store hsaved _ => ?_
      obtain ⟨rfl, _⟩ := saveMembershipRecord_eq_ok hsaved
      intro record hrecord
      obtain rfl := DurableFile.present.inj hrecord
      refine ⟨_, rfl, ?_⟩
      simp only [createdMembership, signMembership, ofCore_eq_ok, bind_eq_ok, mapError_eq_ok,
        pure_eq_ok] at hmembership
      obtain ⟨_, _, rfl⟩ := hmembership
      rw [WorldDescriptorV1.normalize_of_strict rfl]
      exact .refl _
    · exact keepsAgreed_of_touches (by decide) w
  exact halong fun record hrecord => by cases hrecord

/-! ## Runs -/

/-- An input spares the descriptor: it is not a join at a peer that stores a membership record of
other members than the inviter. -/
def Input.sparesDescriptor (node : Node) : Input → Bool
  | .command (.join invite _) =>
    match node.store.membership with
    | .present record => decide (record.members = (invitedDescriptor invite).members)
    | _ => true
  | _ => true

/-- Nothing crashes and every input spares the descriptor. -/
def Act.sparesDescriptor (s : System) : Act → Bool
  | .input peer cause => cause.sparesDescriptor (s.nodes peer)
  | act => act.crashFree

/-- An input that spares the descriptor keeps the two copies equal. -/
theorem System.handle_agreed {peer : PeerId} {cause : Input}
    (hspares : cause.sparesDescriptor (s.nodes peer) = true)
    (h : (s.nodes peer).store.Agreed) : (s.handle C F peer cause).2.node.store.Agreed := by
  have halways (hm : Always KeepsAgreed (cause.run C (s.site C F peer))) :
      (s.handle C F peer cause).2.node.store.Agreed := hm (Exec.start (s.nodes peer)) h
  cases cause with
  | tick => exact halways keepsAgreed_maintainAuthorityLeases
  | request sender number message =>
    cases message with
    | membershipCommit certificate =>
      exact halways (always_readStore fun _ => always_check fun _ _ =>
        keepsAgreed_handleMembershipCommit certificate)
    | membership record =>
      exact halways (always_readStore fun _ => always_check fun _ _ =>
        keepsAgreed_handleMembership record)
    | _ =>
      exact System.handle_keeps Store.reads_agreed
        (by simp [Input.footprint, WireRequest.footprint, File.commit, File.recover, File.prepare]) h
  | command order =>
    cases order with
    | host => exact halways keepsAgreed_hostWorld
    | join invite nonce =>
      have halong : Along KeepsAgreed (joinWorld C (s.site C F peer) invite nonce)
          (Exec.start (s.nodes peer)) := by
        refine keepsAgreed_joinWorld nonce fun record hrecord => ?_
        change (s.nodes peer).store.membership = .present record at hrecord
        simpa only [Input.sparesDescriptor, hrecord, decide_eq_true_eq] using hspares
      exact halong h
    | _ =>
      exact System.handle_keeps Store.reads_agreed
        (by simp [Input.footprint, Command.footprint, File.commit]) h
  | _ => exact System.handle_keeps Store.reads_agreed (by simp [Input.footprint]) h

/-- In a run in which nothing crashes and nobody joins over a membership record, the stored
descriptor has the members of the stored record. The prepares that join and leave requests store
then change the members of the record by the one member they are about. -/
theorem descriptor_agrees
    (hrun : Run (StepWith C F fun s act => act.sparesDescriptor s = true) s t)
    (hs : ∀ peer, (s.nodes peer).store.Agreed) (peer : PeerId) :
    (t.nodes peer).store.Agreed ∧
      (∀ sender number request, (t.nodes peer).store.ProposesOver (· ++ [request.joiningMember])
        (t.handle C F peer (.request sender number (.joinRequest request))).2.node.store) ∧
      (∀ sender number request, (t.nodes peer).store.ProposesOver
        (List.filter fun member => decide (member.peerId ≠ request.leavingPeerId))
        (t.handle C F peer (.request sender number (.leaveRequest request))).2.node.store) := by
  have hagreed : (t.nodes peer).store.Agreed := by
    refine StepWith.storeInvariant (I := fun _ => Store.Agreed) (fun _ => Store.reads_agreed)
      (by decide) ?_ ?_ hrun hs peer
    · intro r _ peer cause _ _ hspares h
      exact System.handle_agreed hspares h
    · intro r _ peer cause point _ _ hspares
      cases hspares
  -- A request that the dispatcher refuses leaves the store alone.
  have hdispatch (sender : PeerId) (number : Nat) (message : WireRequest)
      (change : List WorldMemberV1 → List WorldMemberV1)
      (h : (t.nodes peer).store.ProposesOver change
        ((dispatchRequest C (t.site C F peer) ⟨(t.site C F peer).peer C, sender, number⟩
          message).after (Exec.start (t.nodes peer))).node.store) :
      (t.nodes peer).store.ProposesOver change
        (t.handle C F peer (.request sender number message)).2.node.store := by
    have halong : Along (Kept fun u => (t.nodes peer).store.ProposesOver change u.node.store)
        ((Input.request sender number message).run C (t.site C F peer))
        (Exec.start (t.nodes peer)) := along_readStore (along_check fun _ _ _ => h)
    exact halong fun promise hpromise => .inl hpromise
  refine ⟨hagreed, fun sender number request => hdispatch _ _ _ _ ?_,
    fun sender number request => hdispatch _ _ _ _ ?_⟩
  · exact proposesOver_handleJoinRequest (e := Exec.start (t.nodes peer)) hagreed
  · exact proposesOver_handleLeaveRequest (e := Exec.start (t.nodes peer)) hagreed

/-- The first peer hosts the world that it created. The second one asks to join, votes for the
change and becomes a member. -/
def admitSecond : List Cue :=
  [fun _ => .input first (.command .host),
    fun _ => .input second (.command (.join ((numbered 1).invite .ideal) 0))] ++
    connect second first ++ [hand second first 0, hand first second 1,
      hand second first 0, tick first]

/-- Every peer of a created world has one member list. -/
theorem Founding.created_agreed (f : Founding) (peer : PeerId) :
    ((f.created C).nodes peer).store.Agreed := by
  simp only [created, Founding.node]
  split
  · exact createdStore_agreed _ _
  · exact fun record hrecord => by cases hrecord

/-- After the second member was admitted, the first one has one member list, and changes of it
start from there. -/
theorem descriptor_agrees_admitted :
    let f := numbered 1
    let t := (f.created .ideal).play .ideal f.fleet admitSecond
    (t.nodes first).store.Agreed ∧
      (∀ sender number request, (t.nodes first).store.ProposesOver (· ++ [request.joiningMember])
          (t.handle .ideal f.fleet first
            (.request sender number (.joinRequest request))).2.node.store) ∧
      (∀ sender number request, (t.nodes first).store.ProposesOver
        (List.filter fun member => decide (member.peerId ≠ request.leavingPeerId))
        (t.handle .ideal f.fleet first
          (.request sender number (.leaveRequest request))).2.node.store) := by
  intro f t
  have hplays : (f.created .ideal).PlaysWith .ideal f.fleet
      (fun s act => act.sparesDescriptor s = true) admitSecond := by decide +kernel
  exact descriptor_agrees (t := t) hplays.run (Founding.created_agreed f) first

/-- The first peer then uses an invitation to its own world, and a third peer asks to join. -/
def joinOwnWorld : List Cue :=
  admitSecond ++ [fun _ => .input first (.command (.join ((numbered 1).invite .ideal) 0)),
      fun _ => .input third (.command (.join ((numbered 1).invite .ideal) 0))] ++
    connect third first

/-- The stored record and the stored descriptor have different members. -/
def Store.disagrees (store : Store) : Bool :=
  match store.membership, store.descriptor with
  | .present record, .present descriptor => !(descriptor.members.isPerm record.members)
  | _, _ => false

theorem Store.not_agreed (h : store.disagrees = true) : ¬ store.Agreed := by
  intro hagreed
  unfold Store.disagrees at h
  split at h
  · rename_i record descriptor hrecord hdescriptor
    obtain ⟨found, hfound, hperm⟩ := hagreed record hrecord
    obtain rfl := DurableFile.present.inj (hdescriptor.symm.trans hfound)
    rw [List.isPerm_iff.mpr hperm] at h
    cases h
  · cases h

/-- The members that the stored prepare proposes. -/
def Store.proposedPeers (store : Store) : List PeerId :=
  match store.membershipPromise with
  | .present promise => promise.proposal.proposed.members.map WorldMemberV1.peerId
  | _ => []

/-- The first member counts itself alone, though the record names two members, and the request of
the third peer is turned into a proposal that drops the second one. -/
theorem descriptor_disagrees :
    let f := numbered 1
    let t := (f.created .ideal).play .ideal f.fleet joinOwnWorld
    let asked := t.play .ideal f.fleet [hand third first 0]
    (∀ peer, ((f.created .ideal).nodes peer).store.Agreed) ∧
      (f.created .ideal).Plays .ideal f.fleet joinOwnWorld ∧
      t.Plays .ideal f.fleet [hand third first 0] ∧
      ¬ (t.nodes first).store.Agreed ∧
      (asked.nodes first).store.proposedPeers = [first, third] := by
  refine ⟨Founding.created_agreed _, ?_, ?_, Store.not_agreed ?_, ?_⟩ <;> decide +kernel

end SwarmCraft
