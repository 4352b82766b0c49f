import SwarmCraft.Refinement.Commit
import SwarmCraft.Safety.MembershipFence

/-!
# Rejected and interrupted commits

The `MembershipCommit` handler publishes the certificate before the store decides about the record.
A commit that the store then refuses stays published, and each later tick fails to apply it. The
record, the descriptor and the end of the prepare are separate durable writes too: after a crash
the certificate is applied again, unless its record is stored already.
-/

namespace SwarmCraft

open Checked Effect Transition
open Founding (first second third fourth numbered system_initial)

section

variable {C : Crypto} {F : Fleet C} {site : Site} {sender : PeerId} {number : Nat}
  {certificate : MembershipCertificateV1} {node : Node} {s : System}
variable {channel : Channel} {e : Exec} {archived : Store}

/-- The files of a membership change are the same. -/
structure Store.SameChange (a b : Store) : Prop where
  certificate : b.membershipCertificate = a.membershipCertificate
  archive : b.membershipCertificates = a.membershipCertificates
  record : b.membership = a.membership
  descriptor : b.descriptor = a.descriptor
  promise : b.membershipPromise = a.membershipPromise

/-- `recover_committed_membership` returns at the node. -/
def Node.Recovers (C : Crypto) (site : Site) (node : Node) : Prop :=
  (recoverCommittedMembership C site (Exec.start node)).1 = .ok ()

/-- A commit that is rejected at the node leaves no trace: it is rejected before anything is
written, what would be written is there already, or the store accepts the record. -/
inductive CommitClean (C : Crypto) (site : Site) (sender : PeerId)
    (certificate : MembershipCertificateV1) (node : Node) : Prop where
  /-- The sender is not the authority of the record. -/
  | foreign (h : sender ≠ certificate.proposal.proposed.authorityPeerId)
  /-- The certificate does not pass the checks for the local peer. -/
  | invalid (h : validateMembershipCertificateForLocal C site node.host certificate node.store ≠
      .ok ())
  /-- Another certificate is archived under its sequence number. -/
  | conflicting (h : ∀ archived, archiveMembershipCertificate certificate node.store ≠ .ok archived)
  /-- The certificate is archived and published already. -/
  | known (archived : archiveMembershipCertificate certificate node.store = .ok node.store)
      (published : node.store.membershipCertificate = .present certificate)
  /-- The descriptor can be loaded and the store accepts the record. -/
  | accepted {descriptor : WorldDescriptorV1}
      (described : loadWorldDescriptor certificate.proposal.proposed.worldId node.store =
        .ok descriptor)
      (recorded : node.store.recordAccepted C certificate.proposal.proposed = true)

/-! ## The handler before and after publishing -/

/-- What the handler checks before it writes anything. -/
def CommitChecked (C : Crypto) (site : Site) (sender : PeerId)
    (certificate : MembershipCertificateV1) (node : Node) : Prop :=
  sender = certificate.proposal.proposed.authorityPeerId ∧
    validateMembershipCertificateForLocal C site node.host certificate node.store = .ok () ∧
    ∃ archived, archiveMembershipCertificate certificate node.store = .ok archived

/-- A commit whose sender, checks or archive entry are wrong does nothing. -/
theorem handleMembershipCommit_rejected
    (h : ¬ CommitChecked C site channel.requester certificate e.node) :
    (handleMembershipCommit C site channel certificate e).2 = e := by
  have hidle : Along (Idle (CommitChecked C site channel.requester certificate e.node))
      (handleMembershipCommit C site channel certificate) e := by
    refine along_readStore (along_readHost (along_check fun _ hsender => ?_))
    refine along_check fun _ hvalid => ?_
    rw [guardMessage_eq_ok] at hsender
    cases harchive : archiveMembershipCertificate certificate e.node.store with
    | ok archived => exact .inr ⟨hsender, hvalid, archived, harchive⟩
    | error error =>
      left
      change (Action.bind (Action.bind (save [] (archiveMembershipCertificate certificate)) _) _ e).2
        = e
      simp only [Action.bind, save, harchive]
  exact hidle.resolve_right h

section Published

variable (hsender : channel.requester = certificate.proposal.proposed.authorityPeerId)
  (hvalid : validateMembershipCertificateForLocal C site e.node.host certificate e.node.store =
    .ok ())
  (harchive : archiveMembershipCertificate certificate e.node.store = .ok archived)

include hsender hvalid harchive

/-- A commit with the right sender, checks and archive entry is published and then applied. -/
theorem handleMembershipCommit_published :
    handleMembershipCommit C site channel certificate e =
      (applyMembershipCertificate C certificate >>= fun _ => do
        clearPermit
        updateRuntime fun runtime => { runtime with permitHeartbeat := none, membershipVotes := [] }
        respond channel (.membershipCommitAccepted certificate.proposal.proposed.sequence))
        (e.published certificate archived) := by
  change (check _ >>= fun _ => check _ >>= fun _ => _) e = _
  rw [check_bind (a := ()) (guardMessage_eq_ok.mpr hsender), check_bind hvalid,
    bind_of_run (saveMembershipCertificate_run harchive)]

/-- A published commit that the store accepts succeeds. -/
theorem handleMembershipCommit_accepted {descriptor : WorldDescriptorV1}
    (hload : loadWorldDescriptor certificate.proposal.proposed.worldId e.node.store =
      .ok descriptor)
    (haccepted : e.node.store.recordAccepted C certificate.proposal.proposed = true) :
    (handleMembershipCommit C site channel certificate e).1 = .ok () := by
  have hvalid' := (validateMembershipCertificateForLocal_published harchive).trans hvalid
  rw [archiveMembershipCertificate_eq_ok harchive] at hvalid'
  rw [handleMembershipCommit_published hsender hvalid harchive,
    archiveMembershipCertificate_eq_ok harchive]
  have happly := applyMembershipCertificate_accepted (e := e.published certificate
    { e.node.store with membershipCertificates := archived.membershipCertificates })
    hvalid' rfl hload haccepted
  obtain ⟨t, hrun, _⟩ := clearSatisfiedPendingMembership_returns (C := C) descriptor
    certificate.proposal.proposed ((e.published certificate
      { e.node.store with membershipCertificates := archived.membershipCertificates }).committed C
        certificate.proposal.proposed descriptor)
  rw [bind_of_run (happly.trans hrun)]
  rfl

/-- A published commit that the store refuses fails and stays published. -/
theorem handleMembershipCommit_refused (hrefused : ∀ descriptor,
      loadWorldDescriptor certificate.proposal.proposed.worldId e.node.store = .ok descriptor →
        e.node.store.recordAccepted C certificate.proposal.proposed = false) :
    ∃ error, handleMembershipCommit C site channel certificate e =
      (.error error, e.published certificate archived) := by
  have hvalid' := (validateMembershipCertificateForLocal_published harchive).trans hvalid
  have heq := archiveMembershipCertificate_eq_ok harchive
  obtain ⟨error, hrun⟩ := applyMembershipCertificate_refused (e := e.published certificate archived)
    hvalid' rfl (by rw [heq]; exact hrefused)
  refine ⟨error, ?_⟩
  rw [handleMembershipCommit_published hsender hvalid harchive]
  change Action.bind (applyMembershipCertificate C certificate) _ _ = _
  simp only [Action.bind, hrun]

end Published

/-! ## Exactly when a rejected commit leaves no trace -/

/-- The files of the change are the same after the handler, and recovery returns if it did. -/
def Traceless (C : Crypto) (site : Site) (node : Node) (e : Exec) : Prop :=
  node.store.SameChange e.node.store ∧ (node.Recovers C site → e.node.Recovers C site)

/-- A node that was not changed shows no trace. -/
theorem traceless_of_eq (h : e.node = node) : Traceless C site node e := by
  rw [Traceless, h]
  exact ⟨⟨rfl, rfl, rfl, rfl, rfl⟩, fun hrecovers => hrecovers⟩

/-- Publishing a certificate that is archived and published already changes nothing. -/
theorem Exec.published_known (hpublished : node.store.membershipCertificate = .present certificate) :
    ((Exec.start node).published certificate node.store).node = node := by
  obtain ⟨store, runtime, outbound, nextRequest, pendingManifest, host⟩ := node
  cases store
  simp only [Exec.published, Exec.written, Exec.start, publishMembershipCertificate] at hpublished ⊢
  rw [hpublished]

/-- A commit that fails its checks is clean. -/
theorem commitClean_of_unchecked (h : ¬ CommitChecked C site sender certificate node) :
    CommitClean C site sender certificate node := by
  by_cases hsender : sender = certificate.proposal.proposed.authorityPeerId
  · by_cases hvalid :
        validateMembershipCertificateForLocal C site node.host certificate node.store = .ok ()
    · exact .conflicting fun archived harchive => h ⟨hsender, hvalid, archived, harchive⟩
    · exact .invalid hvalid
  · exact .foreign hsender

/-- A commit whose rejection leaves no trace is clean. -/
theorem commitClean_of_traceless
    (h : ∀ error, (handleMembershipCommit C site channel certificate (Exec.start node)).1 =
        .error error →
      Traceless C site node (handleMembershipCommit C site channel certificate (Exec.start node)).2) :
    CommitClean C site channel.requester certificate node := by
  by_cases hchecked : CommitChecked C site channel.requester certificate node
  · obtain ⟨hsender, hvalid, archived, harchive⟩ := hchecked
    by_cases haccepted : ∃ descriptor,
        loadWorldDescriptor certificate.proposal.proposed.worldId node.store = .ok descriptor ∧
        node.store.recordAccepted C certificate.proposal.proposed = true
    · obtain ⟨descriptor, hload, hrecord⟩ := haccepted
      exact .accepted hload hrecord
    · -- The store refuses the record, so what was published has to be the old certificate.
      obtain ⟨error, hrun⟩ := handleMembershipCommit_refused (e := Exec.start node) hsender hvalid
        harchive fun descriptor hload =>
          Bool.eq_false_iff.mpr fun hrecord => haccepted ⟨descriptor, hload, hrecord⟩
      rw [hrun] at h
      obtain ⟨hsame, _⟩ := h error rfl
      have harchived : archived.membershipCertificates = node.store.membershipCertificates :=
        hsame.archive
      refine .known ?_ hsame.certificate.symm
      rw [harchive, archiveMembershipCertificate_eq_ok harchive, harchived]
  · exact commitClean_of_unchecked hchecked

/-- The rejection of a clean commit leaves no trace. -/
theorem CommitClean.traceless {error : DaemonError}
    (h : CommitClean C site channel.requester certificate node)
    (herror : (handleMembershipCommit C site channel certificate (Exec.start node)).1 =
      .error error) :
    Traceless C site node (handleMembershipCommit C site channel certificate (Exec.start node)).2 := by
  by_cases hchecked : CommitChecked C site channel.requester certificate node
  · obtain ⟨hsender, hvalid, archived, harchive⟩ := hchecked
    by_cases haccepted : ∃ descriptor,
        loadWorldDescriptor certificate.proposal.proposed.worldId node.store = .ok descriptor ∧
        node.store.recordAccepted C certificate.proposal.proposed = true
    · obtain ⟨descriptor, hload, hrecord⟩ := haccepted
      rw [handleMembershipCommit_accepted (e := Exec.start node) hsender hvalid harchive hload
        hrecord] at herror
      cases herror
    · obtain ⟨_, hrun⟩ := handleMembershipCommit_refused (e := Exec.start node) hsender hvalid
        harchive fun descriptor hload =>
          Bool.eq_false_iff.mpr fun hrecord => haccepted ⟨descriptor, hload, hrecord⟩
      rw [hrun]
      cases h with
      | foreign h => exact absurd hsender h
      | invalid h => exact absurd hvalid h
      | conflicting h => exact absurd harchive (h archived)
      | known hknown hpublished =>
        obtain rfl := Except.ok.inj (harchive.symm.trans hknown)
        exact traceless_of_eq (Exec.published_known hpublished)
      | accepted hload hrecord => exact absurd ⟨_, hload, hrecord⟩ haccepted
  · refine traceless_of_eq ?_
    rw [handleMembershipCommit_rejected (e := Exec.start node) hchecked]
    rfl

/-- A rejected commit leaves the files of the membership change as they were, and every later
recovery returns as it did before, exactly when the commit is clean. -/
theorem rejected_commit_traceless (s : System) (peer sender : PeerId) (number : Nat)
    (certificate : MembershipCertificateV1) :
    let out := s.handle C F peer (.request sender number (.membershipCommit certificate))
    (∀ error, out.1 = .error error →
        (s.nodes peer).store.SameChange out.2.node.store ∧
          ((s.nodes peer).Recovers C (s.site C F peer) →
            out.2.node.Recovers C (s.site C F peer))) ↔
      CommitClean C (s.site C F peer) sender certificate (s.nodes peer) := by
  intro out
  have hout : out = handleMembershipCommit C (s.site C F peer)
      ⟨(s.site C F peer).peer C, sender, number⟩ certificate (Exec.start (s.nodes peer)) := rfl
  rw [hout]
  constructor
  · intro h
    exact commitClean_of_traceless h
  · intro h error herror
    exact CommitClean.traceless h herror

/-- The third member and the newcomer vote for the change of the superseded authority, which
certifies it. -/
def supersededCommit : List Cue :=
  supersededChange ++ [hand first third 0, hand first fourth 1,
      hand third first 0, hand fourth first 0, tick first]

/-- The third member rejects the commit of the superseded authority, keeps its certificate, and
can recover no more. -/
theorem rejected_commit_published :
    let f := numbered 3
    let certificate := f.membershipCertificate .ideal (f.members .ideal ++ [Founding.newcomer])
      [⟨4⟩, ⟨3⟩, ⟨1⟩]
    let t := (f.system .ideal).play .ideal f.fleet supersededCommit
    let input := Input.request first 7 (.membershipCommit certificate)
    let out := t.handle .ideal f.fleet third input
    let site := t.site .ideal f.fleet third
    (f.system .ideal).Initial ∧ (f.system .ideal).Plays .ideal f.fleet supersededCommit ∧
      input.Enabled .ideal f.fleet t third ∧
      out.1 = .error (.storage .worldMetadataMismatch) ∧
      (t.nodes third).store.membershipCertificate = .absent ∧
      out.2.node.store.membershipCertificate = .present certificate ∧
      (recoverCommittedMembership .ideal site (Exec.start (t.nodes third))).1 = .ok () ∧
      (recoverCommittedMembership .ideal site (Exec.start out.2.node)).1 =
        .error (.storage .worldMetadataMismatch) := by
  refine ⟨system_initial .ideal _, ?_⟩
  decide +kernel

end

variable {C : Crypto} {site : Site} {certificate : MembershipCertificateV1} {node : Node}
  {store base : Store} {e : Exec}

/-- `save_membership_certificate` followed by `apply_membership_certificate`. -/
def commitCertificate (C : Crypto) (certificate : MembershipCertificateV1) : Daemon Unit := do
  saveMembershipCertificate certificate
  applyMembershipCertificate C certificate

/-- The durable states with the certificate published that crashes during the commit leave, and
further crashes during the recoveries after it. -/
inductive Crashed (C : Crypto) (site : Site) (certificate : MembershipCertificateV1) (node : Node) :
    Store → Prop where
  | commit {point : Store × List Entry}
      (passed : point ∈ (commitCertificate C certificate (Exec.start node)).2.trail)
      (published : point.1.membershipCertificate = .present certificate) :
      Crashed C site certificate node point.1
  | recovery {restarted : Node} {point : Store × List Entry}
      (crashed : Crashed C site certificate node restarted.store)
      (passed : point ∈ (recoverCommittedMembership C site (Exec.start restarted)).2.trail) :
      Crashed C site certificate node point.1

/-- The state that an uninterrupted commit reaches. -/
structure Store.Committed (C : Crypto) (proposal : MembershipProposalV1) (store : Store) : Prop where
  record : store.membership = .present proposal.proposed
  members : ∃ descriptor, store.descriptor = .present descriptor ∧
    descriptor.members = dedupMembers (sortMembers proposal.proposed.members)
  promise : ∀ promise, loadMembershipPromise C proposal.proposed.worldId store = .ok promise →
    promise.proposal ≠ proposal
  pending : store.NothingSatisfied C proposal.proposed.worldId proposal.proposed

/-- One recovery completes the commit: the record is not stored yet and the store accepts it, or
it is stored and so is everything that follows it except the end of the prepare. -/
def Store.Completable (C : Crypto) (proposal : MembershipProposalV1) (store : Store) : Prop :=
  (store.membership ≠ .present proposal.proposed ∧
    (∃ descriptor, loadWorldDescriptor proposal.proposed.worldId store = .ok descriptor) ∧
    store.recordAccepted C proposal.proposed = true) ∨
  (store.membership = .present proposal.proposed ∧
    (∃ descriptor, store.descriptor = .present descriptor ∧
      descriptor.members = dedupMembers (sortMembers proposal.proposed.members)) ∧
    store.NothingSatisfied C proposal.proposed.worldId proposal.proposed)

/-! ## What a crash leaves -/

/-- The record is stored, or the record and the prepare are those before the commit. -/
def Store.Underway (record : MembershipRecordV1) (base store : Store) : Prop :=
  store.membership = .present record ∨
    store.membership = base.membership ∧ store.membershipPromise = base.membershipPromise

/-- Whether a commit is under way depends on the record and the prepare. -/
theorem Store.reads_underway (record : MembershipRecordV1) (base : Store) :
    Store.Reads [.membership, .membershipPromise] (Store.Underway record base) := by
  intro a b h hunderway
  have hmembership : b.membership = a.membership := h .membership (by decide)
  have hpromise : b.membershipPromise = a.membershipPromise := h .membershipPromise (by decide)
  unfold Store.Underway
  rw [hmembership, hpromise]
  exact hunderway

/-- Whether a record is stored depends on the record. -/
theorem Store.reads_recorded (record : MembershipRecordV1) :
    Store.Reads [.membership] fun store => store.membership = .present record := by
  intro a b h hrecorded
  have hmembership : b.membership = a.membership := h .membership (by decide)
  exact hmembership.trans hrecorded

/-- Applying the certificate keeps the commit under way. -/
theorem underway_applyMembershipCertificate :
    Along (Throughout (Store.Underway certificate.proposal.proposed base))
      (applyMembershipCertificate C certificate) e := by
  refine along_readStore (along_check fun descriptor _ => ?_)
  refine throughout_save_then
    (P := fun store => store.membership = .present certificate.proposal.proposed)
    (fun store hsaved => ?_) (fun _ => .inl) ?_
  · rw [(saveMembershipRecord_eq_ok hsaved).1]
  · exact throughout_of_touches (Store.reads_recorded _) (by decide)

/-- The commit is under way at each of its durable states. -/
theorem underway_commitCertificate :
    Along (Throughout (Store.Underway certificate.proposal.proposed base))
      (commitCertificate C certificate) e := by
  refine along_bind ?_ fun _ t _ => underway_applyMembershipCertificate
  exact throughout_of_touches (Store.reads_underway _ _) (by decide) e

/-- A certificate that counts as applied is that of the stored record. -/
theorem committedMembership_applied {current : MembershipRecordV1}
    (h : committedMembership C site certificate store = .ok (.applied current)) :
    loadMembershipRecord site.world store = .ok current ∧
      current = certificate.proposal.proposed := by
  unfold committedMembership at h
  split at h
  · simp at h
  · rename_i found hfound
    simp only [bind_eq_ok] at h
    obtain ⟨_, _, h⟩ := h
    split at h
    · rename_i heq
      simp only [pure_eq_ok, CommittedMembership.applied.injEq] at h
      subst h
      exact ⟨hfound, heq⟩
    · split at h <;> simp at h

/-- A commit that is under way stays so at each durable state of a recovery. -/
theorem underway_recoverCommittedMembership
    (hpublished : e.node.store.membershipCertificate = .present certificate) :
    Along (Throughout (Store.Underway certificate.proposal.proposed base))
      (recoverCommittedMembership C site) e := by
  refine along_readStore (along_readHost (along_onSome fun found hfound => ?_))
  have hstored := (DurableFile.load_eq_ok.mp (optional_eq_some.mp hfound)).1
  rw [hpublished, DurableFile.present.injEq] at hstored
  subst hstored
  refine along_check fun committed hcommitted => ?_
  cases committed with
  | superseded => exact along_pure ()
  | outstanding => exact along_check fun _ _ => underway_applyMembershipCertificate
  | applied current =>
    obtain ⟨hload, rfl⟩ := committedMembership_applied hcommitted
    have hrecorded := (loadMembershipRecord_eq_ok.mp hload).1
    refine throughout_written fun _ => .inl ?_
    rcases @clearMembershipPromise_cases C site.world certificate.proposal.proposed
      e.node.store with hsame | ⟨_, _, _, hcleared⟩
    · rw [hsame]
      exact hrecorded
    · rw [hcleared]
      exact hrecorded

/-- Whether a certificate is published depends on the current certificate. -/
theorem Store.reads_published (certificate : MembershipCertificateV1) :
    Store.Reads [.membershipCertificate]
      fun store => store.membershipCertificate = .present certificate := by
  intro a b h hpublished
  have hcertificate : b.membershipCertificate = a.membershipCertificate :=
    h .membershipCertificate (by decide)
  exact hcertificate.trans hpublished

/-- After a crash the certificate is still published and the commit is under way. -/
theorem Crashed.underway (h : Crashed C site certificate node store) :
    store.membershipCertificate = .present certificate ∧
      Store.Underway certificate.proposal.proposed node.store store := by
  induction h with
  | commit passed published =>
    have halong : Along (Throughout (Store.Underway certificate.proposal.proposed node.store))
        (commitCertificate C certificate) (Exec.start node) := underway_commitCertificate
    exact ⟨published, Throughout.trail halong (.inr ⟨rfl, rfl⟩) _ passed⟩
  | @recovery restarted point _ passed ih =>
    have halong : Along (Throughout (Store.Underway certificate.proposal.proposed node.store))
        (recoverCommittedMembership C site) (Exec.start restarted) :=
      underway_recoverCommittedMembership ih.1
    have hpublished : Always
        (Throughout fun store => store.membershipCertificate = .present certificate)
        (recoverCommittedMembership C site) :=
      throughout_of_touches (Store.reads_published certificate) (by decide)
    exact ⟨Throughout.trail (hpublished (Exec.start restarted)) ih.1 point passed,
      Throughout.trail halong ih.2 point passed⟩

/-! ## What a recovery does -/

/-- Over a record that can be loaded, the checks for the local peer read the record and the prepare
only. -/
theorem validateMembershipCertificateForLocal_same {host host' : LocalHost} {current store' : _}
    (hload : loadMembershipRecord certificate.proposal.proposed.worldId store = .ok current)
    (hmembership : store'.membership = store.membership)
    (hpromise : store'.membershipPromise = store.membershipPromise) :
    validateMembershipCertificateForLocal C site host' certificate store' =
      validateMembershipCertificateForLocal C site host certificate store := by
  have hload' : loadMembershipRecord certificate.proposal.proposed.worldId store' = .ok current := by
    rw [← hload]
    simp only [loadMembershipRecord, hmembership]
  simp only [validateMembershipCertificateForLocal, extendsCommittedConfiguration, hload, hload',
    loadMembershipPromise, hpromise]

/-- The signatures of both records of a checked certificate are valid. -/
theorem validateMembershipCertificateSignatures_signed
    (h : validateMembershipCertificateSignatures C certificate = .ok ()) :
    verifyMembershipSignature C certificate.proposal.previous = .ok () ∧
      verifyMembershipSignature C certificate.proposal.proposed = .ok () := by
  simp only [validateMembershipCertificateSignatures, bind_eq_ok, ofCore_eq_ok] at h
  obtain ⟨_, hprevious, _, hproposed, _⟩ := h
  exact ⟨hprevious, hproposed⟩

/-- The recovery of a published certificate. -/
theorem recoverCommittedMembership_published {committed : CommittedMembership}
    (hworld : certificate.proposal.proposed.worldId = site.world)
    (hpublished : e.node.store.membershipCertificate = .present certificate)
    (hcommitted : committedMembership C site certificate e.node.store = .ok committed) :
    recoverCommittedMembership C site e =
      (match committed with
        | .applied current =>
          write (clearMembershipPromiseAfterCommit C site.world (current.recordHash C))
        | .superseded => pure ()
        | .outstanding => do
          check (validateMembershipCertificateForLocal C site e.node.host certificate e.node.store)
          applyMembershipCertificate C certificate) e := by
  have hload : Checked.optional (loadMembershipCertificate site.world e.node.store) =
      some certificate := by
    rw [optional_eq_some, loadMembershipCertificate, DurableFile.load_eq_ok, requireWorld,
      ensure_eq_ok]
    exact ⟨hpublished, hworld⟩
  change (onSome (Checked.optional (loadMembershipCertificate site.world e.node.store)) _ :
    Daemon Unit) e = _
  rw [hload]
  exact check_bind hcommitted

/-- A certificate whose record is stored counts as applied. -/
theorem committedMembership_recorded
    (hsignatures : validateMembershipCertificateSignatures C certificate = .ok ())
    (hworld : certificate.proposal.proposed.worldId = site.world)
    (hrecorded : store.membership = .present certificate.proposal.proposed) :
    committedMembership C site certificate store = .ok (.applied certificate.proposal.proposed) := by
  have hload : loadMembershipRecord site.world store = .ok certificate.proposal.proposed :=
    loadMembershipRecord_eq_ok.mpr ⟨hrecorded, hworld,
      validateMembershipCertificateSignatures_semantics hsignatures⟩
  simp only [committedMembership, hload, bind_eq_ok, ofCore_eq_ok]
  refine ⟨(), (validateMembershipCertificateSignatures_signed hsignatures).2, ?_⟩
  rw [if_pos trivial]
  rfl

/-- A certificate over the stored record has to be applied. -/
theorem committedMembership_extends
    (hsignatures : validateMembershipCertificateSignatures C certificate = .ok ())
    (hload : loadMembershipRecord site.world store = .ok certificate.proposal.previous) :
    committedMembership C site certificate store = .ok .outstanding := by
  have hshape := validateMembershipCertificateSignatures_shape hsignatures
  have hsequence := MembershipProposalV1.validateShape_sequence hshape
  have hepoch := (MembershipProposalV1.validateShape_authority hshape).1
  have hne : certificate.proposal.previous ≠ certificate.proposal.proposed := by
    intro heq
    rw [heq] at hsequence
    omega
  have hlater : ¬ (certificate.proposal.proposed.epoch < certificate.proposal.previous.epoch ∨
      certificate.proposal.proposed.epoch = certificate.proposal.previous.epoch ∧
        certificate.proposal.proposed.sequence < certificate.proposal.previous.sequence) := by
    omega
  simp only [committedMembership, hload, bind_eq_ok, ofCore_eq_ok]
  refine ⟨(), (validateMembershipCertificateSignatures_signed hsignatures).1, ?_⟩
  rw [if_neg hne, if_neg hlater]
  rfl

/-! ## The end of a recovery -/

/-- Clearing the prepare of a record leaves none for its proposal. -/
theorem clearMembershipPromise_promise {proposal : MembershipProposalV1}
    {promise : DurableMembershipPromiseV1} (h : loadMembershipPromise C proposal.proposed.worldId
      (clearMembershipPromiseAfterCommit C proposal.proposed.worldId
        (proposal.proposed.recordHash C) store) = .ok promise) : promise.proposal ≠ proposal := by
  intro heq
  unfold clearMembershipPromiseAfterCommit at h
  cases hload : loadMembershipPromise C proposal.proposed.worldId store with
  | error error =>
    rw [hload] at h
    exact nomatch hload.symm.trans h
  | ok found =>
    simp only [hload] at h
    split at h
    · simp [loadMembershipPromise] at h
    · rename_i hhash
      rw [hload, Except.ok.injEq] at h
      rw [h, heq] at hhash
      exact hhash rfl

/-- A commit that the store accepts reaches its end. -/
theorem committed_of_accepted {host : LocalHost} {descriptor : WorldDescriptorV1}
    (hvalid : validateMembershipCertificateForLocal C site host certificate e.node.store = .ok ())
    (hpublished : e.node.store.membershipCertificate = .present certificate)
    (hload : loadWorldDescriptor certificate.proposal.proposed.worldId e.node.store =
      .ok descriptor)
    (haccepted : e.node.store.recordAccepted C certificate.proposal.proposed = true) :
    (applyMembershipCertificate C certificate e).1 = .ok () ∧
      (applyMembershipCertificate C certificate e).2.node.store.Committed C certificate.proposal := by
  have hsemantics := validateMembershipCertificateSignatures_semantics (appliesTo_of_valid hvalid).1
  have hordered := (MembershipRecordV1.validateSemantics_eq_ok.mp hsemantics).2.2
  have hworld := (loadWorldDescriptor_eq_ok.mp hload).2.1
  obtain ⟨t, hrun, hpending⟩ := clearSatisfiedPendingMembership_returns (C := C) descriptor
    certificate.proposal.proposed (e.committed C certificate.proposal.proposed descriptor)
  have hmembership : t.node.store.membership = .present certificate.proposal.proposed :=
    (content_of_run hrun .membership (by decide)).trans (Exec.committed_membership _ _ e)
  have hdescriptor : t.node.store.descriptor =
      .present (descriptor.committed certificate.proposal.proposed) :=
    (content_of_run hrun .descriptor (by decide)).trans (Exec.committed_descriptor _ _ e)
  have hpromise : t.node.store.membershipPromise =
      (e.committed C certificate.proposal.proposed descriptor).node.store.membershipPromise :=
    content_of_run hrun .membershipPromise (by decide)
  rw [applyMembershipCertificate_accepted hvalid hpublished hload haccepted, hrun]
  refine ⟨rfl, hmembership, ⟨_, hdescriptor, ?_⟩, fun promise hfound => ?_, hworld ▸ hpending⟩
  · rw [sortMembers_of_strict hordered, dedupMembers_of_strict hordered]
    rfl
  · rw [loadMembershipPromise, hpromise] at hfound
    exact clearMembershipPromise_promise hfound

/-- A recovery that finds the record stored drops the prepare and nothing else. -/
theorem recovered_of_recorded
    (hsignatures : validateMembershipCertificateSignatures C certificate = .ok ())
    (hworld : certificate.proposal.proposed.worldId = site.world)
    (hpublished : e.node.store.membershipCertificate = .present certificate)
    (hrecorded : e.node.store.membership = .present certificate.proposal.proposed) :
    ((recoverCommittedMembership C site e).1 = .ok () ∧
        (recoverCommittedMembership C site e).2.node.store.Committed C certificate.proposal) ↔
      e.node.store.Completable C certificate.proposal := by
  rw [recoverCommittedMembership_published hworld hpublished
    (committedMembership_recorded hsignatures hworld hrecorded)]
  have hkeeps := clearMembershipPromise_keeps (C := C) site.world certificate.proposal.proposed
    e.node.store
  change (_ ∧ (clearMembershipPromiseAfterCommit C site.world
    (certificate.proposal.proposed.recordHash C) e.node.store).Committed C certificate.proposal) ↔ _
  constructor
  · rintro ⟨_, hcommitted⟩
    refine .inr ⟨hrecorded, ?_, ?_⟩
    · have hmembers := hcommitted.members
      rw [hkeeps] at hmembers
      exact hmembers
    · have hpending := hcommitted.pending
      rw [hkeeps] at hpending
      exact hpending
  · rintro (⟨hnot, _⟩ | ⟨_, hmembers, hpending⟩)
    · exact absurd hrecorded hnot
    refine ⟨rfl, ?_, ?_, fun promise hfound => ?_, ?_⟩
    · rw [hkeeps]
      exact hrecorded
    · rw [hkeeps]
      exact hmembers
    · rw [← hworld] at hfound
      exact clearMembershipPromise_promise hfound
    · rw [hkeeps]
      exact hpending

/-- A valid certificate over the stored record is about the world of the peer. -/
theorem proposed_world_of_valid
    (hvalid : validateMembershipCertificateForLocal C site host certificate store = .ok ())
    (hload : loadMembershipRecord site.world store = .ok certificate.proposal.previous) :
    certificate.proposal.proposed.worldId = site.world :=
  (MembershipProposalV1.validateShape_world (validateMembershipCertificateSignatures_shape
    (appliesTo_of_valid hvalid).1)).symm.trans (loadMembershipRecord_eq_ok.mp hload).2.1

/-- A recovery that finds the record before the commit repeats the commit. -/
theorem recovered_of_outstanding
    (hvalid : validateMembershipCertificateForLocal C site e.node.host certificate e.node.store =
      .ok ())
    (hload : loadMembershipRecord site.world e.node.store = .ok certificate.proposal.previous)
    (hpublished : e.node.store.membershipCertificate = .present certificate) :
    ((recoverCommittedMembership C site e).1 = .ok () ∧
        (recoverCommittedMembership C site e).2.node.store.Committed C certificate.proposal) ↔
      e.node.store.Completable C certificate.proposal := by
  have hsignatures := (appliesTo_of_valid hvalid).1
  have hshape := validateMembershipCertificateSignatures_shape hsignatures
  have hworld := proposed_world_of_valid hvalid hload
  have hnot : e.node.store.membership ≠ .present certificate.proposal.proposed := by
    intro hrecorded
    have hsequence := MembershipProposalV1.validateShape_sequence hshape
    rw [(loadMembershipRecord_eq_ok.mp hload).1, DurableFile.present.injEq] at hrecorded
    rw [hrecorded] at hsequence
    omega
  rw [recoverCommittedMembership_published hworld hpublished
    (committedMembership_extends hsignatures hload)]
  dsimp only
  rw [check_bind hvalid]
  constructor
  · rintro ⟨_, hcommitted⟩
    refine .inl ⟨hnot, ?_⟩
    by_contra hrefused
    obtain ⟨error, hrun⟩ := applyMembershipCertificate_refused hvalid hpublished
      fun descriptor hdescriptor => Bool.eq_false_iff.mpr fun haccepted =>
        hrefused ⟨⟨descriptor, hdescriptor⟩, haccepted⟩
    rw [hrun] at hcommitted
    exact hnot hcommitted.record
  · rintro (⟨_, ⟨descriptor, hdescriptor⟩, haccepted⟩ | ⟨hrecorded, _⟩)
    · exact committed_of_accepted hvalid hpublished hdescriptor haccepted
    · exact absurd hrecorded hnot

/-- Whatever crashed while a valid certificate over the committed record was being committed, one
recovery reaches the end of the commit exactly when the crash left the commit completable. -/
theorem commit_recovered (restarted : Node)
    (hvalid : validateMembershipCertificateForLocal C site node.host certificate node.store = .ok ())
    (hload : loadMembershipRecord site.world node.store = .ok certificate.proposal.previous)
    (hcrashed : Crashed C site certificate node restarted.store) :
    let out := recoverCommittedMembership C site (Exec.start restarted)
    (out.1 = .ok () ∧ out.2.node.store.Committed C certificate.proposal) ↔
      restarted.store.Completable C certificate.proposal := by
  have hsignatures := (appliesTo_of_valid hvalid).1
  have hworld := proposed_world_of_valid hvalid hload
  obtain ⟨hpublished, hrecorded | ⟨hmembership, hpromise⟩⟩ := hcrashed.underway
  · exact recovered_of_recorded hsignatures hworld hpublished hrecorded
  · have hload' : loadMembershipRecord site.world restarted.store =
        .ok certificate.proposal.previous := by
      rw [← hload]
      simp only [loadMembershipRecord, hmembership]
    have hvalid' : validateMembershipCertificateForLocal C site restarted.host certificate
        restarted.store = .ok () := by
      rw [validateMembershipCertificateForLocal_same (hworld ▸ hload) hmembership hpromise]
      exact hvalid
    exact recovered_of_outstanding (e := Exec.start restarted) hvalid' hload' hpublished

/-- A durable state of the commit with the certificate published is one that a crash leaves. -/
theorem crashed_of_passed
    (h : ∃ point ∈ (commitCertificate C certificate (Exec.start node)).2.trail, point.1 = store)
    (hpublished : store.membershipCertificate = .present certificate) :
    Crashed C site certificate node store := by
  obtain ⟨point, hpoint, rfl⟩ := h
  exact .commit hpoint hpublished

/-- The departure of the third member is certified, and the second one crashes after a durable
write of its commit. -/
def departureCut (point : Nat) : List Cue :=
  voteOnDeparture ++ [hand second first 0, tick first,
    fun _ => .cut second (.request first 10 (.membershipCommit
      ((numbered 3).membershipCertificate .ideal
        (((numbered 3).members .ideal).take 2) [⟨2⟩, ⟨1⟩]))) point]

/-- A crash right after the certificate was published is recovered from. -/
theorem commit_recovered_published :
    let f := numbered 3
    let certificate := f.membershipCertificate .ideal ((f.members .ideal).take 2) [⟨2⟩, ⟨1⟩]
    let u := (f.system .ideal).play .ideal f.fleet (departureCut 1)
    let out := recoverCommittedMembership .ideal (u.site .ideal f.fleet second)
      (Exec.start (u.nodes second))
    out.1 = .ok () ∧ out.2.node.store.Committed .ideal certificate.proposal := by
  intro f certificate u
  let t := (f.system .ideal).play .ideal f.fleet (voteOnDeparture ++
    [hand second first 0, tick first])
  have hvalid : validateMembershipCertificateForLocal .ideal
      (u.site .ideal f.fleet second) (t.nodes second).host certificate
      (t.nodes second).store = .ok () := by decide +kernel
  have hload : loadMembershipRecord (u.site .ideal f.fleet second).world
      (t.nodes second).store = .ok certificate.proposal.previous := by decide +kernel
  have hcrashed : Crashed .ideal (u.site .ideal f.fleet second) certificate
      (t.nodes second) (u.nodes second).store :=
    crashed_of_passed (by decide +kernel) (by decide +kernel)
  have hcompletable : (u.nodes second).store.Completable .ideal certificate.proposal := by
    exact .inl ⟨by decide +kernel, ⟨f.descriptor .ideal, by decide +kernel⟩, by decide +kernel⟩
  exact (commit_recovered (u.nodes second) hvalid hload hcrashed).mpr hcompletable

/-- After a crash between the record and the descriptor the recovery returns, and the descriptor
still has the member that left. -/
theorem commit_not_recovered :
    let f := numbered 3
    let certificate := f.membershipCertificate .ideal ((f.members .ideal).take 2) [⟨2⟩, ⟨1⟩]
    let t := (f.system .ideal).play .ideal f.fleet (voteOnDeparture ++
      [hand second first 0, tick first])
    let site := t.site .ideal f.fleet second
    let u := (f.system .ideal).play .ideal f.fleet (departureCut 2)
    let out := recoverCommittedMembership .ideal site (Exec.start (u.nodes second))
    (f.system .ideal).Initial ∧ (f.system .ideal).Plays .ideal f.fleet (departureCut 2) ∧
      validateMembershipCertificateForLocal .ideal site (t.nodes second).host certificate
        (t.nodes second).store = .ok () ∧
      loadMembershipRecord site.world (t.nodes second).store =
        .ok certificate.proposal.previous ∧
      Crashed .ideal site certificate (t.nodes second) (u.nodes second).store ∧
      out.1 = .ok () ∧ ¬ out.2.node.store.Committed .ideal certificate.proposal := by
  intro f certificate t site u out
  have hstale : ∀ descriptor, out.2.node.store.descriptor = .present descriptor →
      descriptor.members ≠ dedupMembers (sortMembers certificate.proposal.proposed.members) := by
    decide +kernel
  refine ⟨system_initial .ideal f, by decide +kernel, by decide +kernel, by decide +kernel,
    crashed_of_passed (by decide +kernel) (by decide +kernel), by decide +kernel, ?_⟩
  intro hcommitted
  obtain ⟨descriptor, hdescriptor, hmembers⟩ := hcommitted.members
  exact hstale descriptor hdescriptor hmembers

end SwarmCraft
