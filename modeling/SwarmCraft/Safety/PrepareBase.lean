import SwarmCraft.Safety.MembershipAgreement

/-!
# The base of a prepared membership change

A membership change is prepared on the committed record. A certificate is applied only if it
is the one of the prepared change, so the prepare goes with the record it led to. The two
writers that look at no prepare, a record that keeps the voters and the promotion of a host,
replace the committed record under a prepare, which is stale from then on.
-/

namespace SwarmCraft

open Checked Effect Transition Footprint
open Founding (first second third numbered)

variable {C : Crypto} {F : Fleet C} {s t : System} {site : Site} {channel : Channel} {e : Exec}
variable {store : Store} {certificate : MembershipCertificateV1} {peer : PeerId}
variable {α : Type} {files : List File} {proposal : MembershipProposalV1}
  {record : MembershipRecordV1} {cause : Input}

/-! ## Prepares on the committed record -/

/-- A stored prepare is on the stored record, or the stored record is the proposed one. -/
def Store.PrepareFresh (C : Crypto) (store : Store) : Prop :=
  ∀ promise record, store.membershipPromise = .present promise →
    store.membership = .present record →
    promise.proposal.previous.recordHash C = record.recordHash C ∨
      promise.proposal.proposed = record

/-- The membership record is missing or can be loaded. -/
def Store.MembershipReadable (world : WorldId) (store : Store) : Prop :=
  store.membership = .absent ∨ ∃ record, loadMembershipRecord world store = .ok record

/-- A stored prepare can be loaded and is on the stored record. -/
structure Store.PrepareSound (C : Crypto) (world : WorldId) (store : Store) : Prop where
  intact : store.membershipPromise = .absent ∨
    ∃ promise, loadMembershipPromise C world store = .ok promise
  fresh : store.PrepareFresh C

theorem Store.reads_prepareSound (C : Crypto) (world : WorldId) :
    Store.Reads [.membership, .membershipPromise] (Store.PrepareSound C world) := by
  intro a b hsame ha
  have hrecord : b.membership = a.membership := hsame .membership (by decide)
  have hpromise : b.membershipPromise = a.membershipPromise := hsame .membershipPromise (by decide)
  refine ⟨?_, fun promise record hstored hcommitted => ?_⟩
  · rw [loadMembershipPromise, hpromise]
    exact ha.intact
  · rw [hpromise] at hstored
    rw [hrecord] at hcommitted
    exact ha.fresh promise record hstored hcommitted

/-- Where no prepare is stored there is nothing to say. -/
theorem Store.prepareSound_of_absent (world : WorldId)
    (h : store.membershipPromise = .absent) : store.PrepareSound C world := by
  refine ⟨.inl h, fun promise record hstored _ => ?_⟩
  rw [h] at hstored
  cases hstored

/-- The absence of a prepare is about one file. -/
theorem Store.reads_noPrepare :
    Store.Reads [.membershipPromise] fun store => store.membershipPromise = .absent := by
  intro a b hsame ha
  have hpromise : b.membershipPromise = a.membershipPromise := hsame .membershipPromise (by decide)
  exact hpromise.trans ha

/-- Every stored membership record of a run can be loaded, if the first ones can. -/
theorem Run.membershipReadable (hrun : Run (Step C F) s t)
    (hs : ∀ peer, (s.nodes peer).store.MembershipReadable F.world) (peer : PeerId) :
    (t.nodes peer).store.MembershipReadable F.world := by
  refine Step.invariant (I := fun _ p => p.node.store.MembershipReadable F.world) ?_ hrun hs peer
  intro r peer heard a b _ ha hmove
  cases hmove with
  | stored move =>
    rcases move.membership_cases with hsame | ⟨record, hworld, hsaved⟩
    · simp only [Store.MembershipReadable, loadMembershipRecord, hsame]
      exact ha
    · have hload := loadMembershipRecord_saved hsaved
      rw [hworld] at hload
      exact .inr ⟨record, hload⟩
  | remembered move => exact ha
  | logged move => exact ha
  | confirmed told => exact ha
  | bookkept => exact ha

/-- A handler keeps every stored prepare on the stored record. -/
abbrev KeepsPrepare (C : Crypto) (site : Site) : Exec → Exec → Prop :=
  Kept fun e => e.node.store.PrepareSound C site.world

/-- What writes neither of the two files keeps a prepare on its record. -/
theorem keepsPrepare_of_touches {m : Daemon α} [Touches .plain files m]
    (hapart : ∀ file ∈ [File.membership, .membershipPromise], file ∉ files) :
    Always (KeepsPrepare C site) m :=
  kept_of_touches (Store.reads_prepareSound C site.world) hapart

/-- What does not write the promise file is harmless where no prepare is stored. -/
theorem keepsPrepare_of_absent {m : Daemon α}
    [Touches .plain files m] (hapart : ∀ file ∈ [File.membershipPromise], file ∉ files)
    (habsent : e.node.store.membershipPromise = .absent) : Along (KeepsPrepare C site) m e :=
  fun _ => Store.prepareSound_of_absent _ (kept_of_touches Store.reads_noPrepare hapart e habsent)

/-! ## Writes of the two files -/

theorem keepsPrepare_prepareMembership {vote : MembershipVoteV1}
    (hreadable : e.node.store.MembershipReadable site.world)
    (hworld : proposal.proposed.worldId = site.world)
    (hcommitted : ∀ current, loadMembershipRecord site.world e.node.store = .ok current →
      current = proposal.previous) :
    Along (KeepsPrepare C site) (prepareMembership C proposal vote) e := by
  refine along_saveAnswer_rel fun result store hsaved he => ?_
  rw [Except.ok.injEq] at hsaved
  have hresult := promiseMembershipProposal_eq hsaved
  cases result with
  | rejected => exact hresult ▸ he
  | idempotent => exact hresult.1 ▸ he
  | accepted =>
    obtain ⟨rfl, _, hmatches, _⟩ := hresult
    refine ⟨.inr ⟨⟨proposal, vote⟩, ?_⟩, fun promise record hstored hrecord => .inl ?_⟩
    · simp only [loadMembershipPromise, Exec.written, DurableFile.load_eq_ok, ensure_eq_ok]
      exact ⟨trivial, hworld, hmatches⟩
    · cases hstored
      change e.node.store.membership = .present record at hrecord
      rcases hreadable with habsent | ⟨current, hload⟩
      · rw [habsent] at hrecord
        cases hrecord
      · have hfile := (loadMembershipRecord_eq_ok.mp hload).1
        rw [hrecord, DurableFile.present.injEq] at hfile
        rw [hfile, hcommitted current hload]

theorem keepsPrepare_clear (world : WorldId) (record : MembershipRecordV1) :
    Always (KeepsPrepare C site)
      (write (clearMembershipPromiseAfterCommit C world (record.recordHash C))) := by
  intro e he
  rcases @clearMembershipPromise_cases C world record e.node.store with
    hsame | ⟨_, _, _, hcleared⟩
  · change (clearMembershipPromiseAfterCommit C world (record.recordHash C)
      e.node.store).PrepareSound C site.world
    rw [hsame]
    exact he
  · exact Store.prepareSound_of_absent _ (congrArg Store.membershipPromise hcleared)

/-- Saving the stored record again, or the one that the prepare led to. -/
theorem keepsPrepare_saveMembershipRecord
    (h : ∀ promise, e.node.store.membershipPromise = .present promise →
      promise.proposal.proposed = record ∨ e.node.store.membership = .present record) :
    Along (KeepsPrepare C site) (save [] (saveMembershipRecord C record)) e := by
  refine along_save_rel fun store hsaved he => ?_
  obtain ⟨rfl, _⟩ := saveMembershipRecord_eq_ok hsaved
  refine ⟨he.intact, fun promise found hstored hfound => ?_⟩
  cases hfound
  rcases h promise hstored with hproposed | hsame
  · exact .inr hproposed
  · exact he.fresh promise record hstored hsame

/-- Applying the certificate of the prepared change, if one is prepared. -/
theorem keepsPrepare_applyMembershipCertificate
    (h : ∀ promise, e.node.store.membershipPromise = .present promise →
      promise.proposal = certificate.proposal) :
    Along (KeepsPrepare C site) (applyMembershipCertificate C certificate) e := by
  refine along_readStore (along_check fun descriptor _ => along_bind ?_ fun _ t _ => ?_)
  · exact keepsPrepare_saveMembershipRecord fun promise hstored => .inl (by rw [h promise hstored])
  · refine Always.along (.bind (keepsPrepare_of_touches (by decide)) fun _ => ?_)
    exact .bind (keepsPrepare_clear _ _) fun _ => keepsPrepare_of_touches (by decide)

/-- A certificate that passes the local checks is the one of the stored prepare. -/
theorem prepared_of_certificate {host : LocalHost}
    (hworld : certificate.proposal.proposed.worldId = site.world)
    (hsound : store.PrepareSound C site.world)
    (h : validateMembershipCertificateForLocal C site host certificate store = .ok ())
    (promise : DurableMembershipPromiseV1) (hstored : store.membershipPromise = .present promise) :
    promise.proposal = certificate.proposal := by
  simp only [validateMembershipCertificateForLocal, bind_eq_ok, onSome_eq_ok, guardMessage_eq_ok,
    optional_eq_some, hworld] at h
  obtain ⟨_, _, _, _, hprepared⟩ := h
  rcases hsound.intact with habsent | ⟨found, hload⟩
  · rw [habsent] at hstored
    cases hstored
  · have hfile := (DurableFile.load_eq_ok.mp hload).1
    rw [hstored, DurableFile.present.injEq] at hfile
    exact hfile ▸ (MembershipProposalV1.proposalHash_inj C).mp (hprepared found hload)

/-! ## Handlers -/

theorem keepsPrepare_proposeMembers {current : MembershipRecordV1}
    (hload : loadMembershipRecord site.world e.node.store = .ok current)
    (members : List WorldMemberV1) {accepted : Nat → WireResponse}
    [∀ sequence, Evident (accepted sequence).modest] :
    Along (KeepsPrepare C site) (proposeMembers C site channel current members accepted) e := by
  refine along_check fun next hnext => along_check fun _ _ => ?_
  refine along_bind (keepsPrepare_prepareMembership (.inr ⟨current, hload⟩) ?_ fun found hfound => ?_)
    fun result t _ => along_check fun _ _ => ?_
  · rw [nextMembership_worldId hnext]
    exact (loadMembershipRecord_eq_ok.mp hload).2.1
  · rw [hload, Except.ok.injEq] at hfound
    exact hfound.symm
  · exact keepsPrepare_of_touches (by decide) t

theorem keepsPrepare_handleJoinRequest {request : JoinRequestV1}
    (hworld : request.worldId = site.world) :
    Along (KeepsPrepare C site) (handleJoinRequest C site channel request) e := by
  refine along_readStore (along_readHost (along_check fun target htarget => ?_))
  have hload := joinRequestChecks_eq_ok htarget
  rw [hworld] at hload
  dsimp only
  split
  · exact keepsPrepare_of_touches (by decide) e
  · split
    · exact keepsPrepare_of_touches (by decide) e
    · exact keepsPrepare_proposeMembers hload _

theorem keepsPrepare_handleLeaveRequest {request : LeaveRequestV1}
    (hworld : request.worldId = site.world) :
    Along (KeepsPrepare C site) (handleLeaveRequest C site channel request) e := by
  refine along_readStore (along_check fun target htarget => ?_)
  have hload := leaveRequestChecks_eq_ok htarget
  rw [hworld] at hload
  dsimp only
  split
  · exact keepsPrepare_of_touches (by decide) e
  · exact keepsPrepare_proposeMembers hload _

theorem keepsPrepare_handleMembershipProposal
    (hreadable : e.node.store.MembershipReadable site.world)
    (hworld : proposal.proposed.worldId = site.world) :
    Along (KeepsPrepare C site) (handleMembershipProposal C site channel proposal) e := by
  refine along_readStore (along_readHost (along_check fun _ hchecks => ?_))
  simp only [membershipProposalChecks, bind_eq_ok] at hchecks
  obtain ⟨_, _, _, _, _, _, _, _, hvalid⟩ := hchecks
  refine along_bind (keepsPrepare_prepareMembership hreadable hworld fun current hload => ?_)
    fun result t _ => ?_
  · rw [← hworld] at hload
    exact validateMembershipProposalForLocal_eq_ok hvalid current hload
  · exact keepsPrepare_of_touches (by decide) t

theorem keepsPrepare_handleMembershipCommit
    (hworld : certificate.proposal.proposed.worldId = site.world) :
    Along (KeepsPrepare C site) (handleMembershipCommit C site channel certificate) e := by
  intro he
  refine (along_readStore (along_readHost (along_check fun _ _ => along_check fun _ hvalid => ?_)) :
    Along (KeepsPrepare C site) (handleMembershipCommit C site channel certificate) e) he
  refine along_bind (keepsPrepare_of_touches (by decide) e) fun _ t ht => ?_
  have hsame : t.node.store.membershipPromise = e.node.store.membershipPromise :=
    content_of_run ht .membershipPromise (by decide)
  refine along_bind (keepsPrepare_applyMembershipCertificate fun promise hstored => ?_)
    fun _ u _ => keepsPrepare_of_touches (by decide) u
  exact prepared_of_certificate hworld he hvalid promise (hsame.symm.trans hstored)

theorem keepsPrepare_handleMembership (hsame : e.node.store.membership = .present record) :
    Along (KeepsPrepare C site) (handleMembership C channel record) e := by
  refine along_readStore (along_check fun _ _ => ?_)
  split
  · exact keepsPrepare_of_touches (by decide) e
  · refine along_check fun _ _ => along_check fun descriptor _ => ?_
    refine along_bind (keepsPrepare_saveMembershipRecord fun _ _ => .inr hsame) fun _ t _ => ?_
    exact keepsPrepare_of_touches (by decide) t

/-! ## The tick -/

theorem keepsPrepare_recoverCommittedMembership :
    Along (KeepsPrepare C site) (recoverCommittedMembership C site) e := by
  intro he
  refine (along_readStore (along_readHost (along_onSome fun certificate hcertificate => ?_)) :
    Along (KeepsPrepare C site) (recoverCommittedMembership C site) e) he
  have hworld := loadMembershipCertificate_world hcertificate
  refine along_check fun committed _ => ?_
  cases committed with
  | superseded => exact along_pure ()
  | applied current => exact keepsPrepare_clear _ _ e
  | outstanding =>
    refine along_check fun _ hvalid => keepsPrepare_applyMembershipCertificate ?_
    exact prepared_of_certificate hworld he hvalid

theorem keepsPrepare_maintainMembershipTransition {promise : DurableMembershipPromiseV1}
    (hstored : e.node.store.membershipPromise = .present promise) :
    Along (KeepsPrepare C site) (maintainMembershipTransition C site promise) e := by
  refine along_onlyIf fun _ => along_readStore (along_check fun current _ => ?_)
  split
  · exact keepsPrepare_clear _ _ e
  · refine along_check fun _ _ => along_check fun _ _ => ?_
    refine along_modifyState_bind (fun he => he) ?_
    refine along_bind (keepsPrepare_of_touches (by decide) _) fun _ t ht => ?_
    refine along_readRuntime (along_check fun assembled hassembled => along_onSome
      fun certificate hcertificate => ?_)
    subst hcertificate
    refine along_bind (keepsPrepare_of_touches (by decide) t) fun _ u hu => ?_
    refine along_bind (keepsPrepare_applyMembershipCertificate fun found hfound => ?_)
      fun _ v _ => keepsPrepare_of_touches (by decide) v
    -- Neither the messages nor the certificate files touch the prepare.
    have hsent := content_of_run ht .membershipPromise (by decide)
    have hsame := content_of_run hu .membershipPromise (by decide)
    have hpromise : promise = found :=
      DurableFile.present.inj (((hsame.trans hsent).trans hstored).symm.trans hfound)
    rw [assembleCertificate_eq_ok hassembled, hpromise]

theorem keepsPrepare_tickAwake {sleep : Option SleepRecordV1} {wake : Bool} :
    Along (KeepsPrepare C site) (tickAwake C site sleep wake) e := by
  intro he
  refine (along_readStore ?_ : Along (KeepsPrepare C site) (tickAwake C site sleep wake) e) he
  split
  · rename_i promise hpromise
    refine along_bind ?_ fun _ t ht => along_modifyState_bind (fun he => he) ?_
    · exact keepsPrepare_of_touches (by decide) e
    · cases ht
      exact keepsPrepare_maintainMembershipTransition (DurableFile.load_eq_ok.mp hpromise).1
  · -- A prepare that cannot be loaded is not stored.
    rename_i error herror
    have habsent : e.node.store.membershipPromise = .absent := by
      refine he.intact.resolve_right ?_
      rintro ⟨promise, hload⟩
      cases hload.symm.trans herror
    split
    · exact keepsPrepare_of_absent (by decide) habsent
    · exact keepsPrepare_of_touches (by decide) e

theorem keepsPrepare_tick : Along (KeepsPrepare C site) (maintainAuthorityLeases C site) e := by
  refine along_readStore (along_onSome fun _ _ => ?_)
  refine along_bind keepsPrepare_recoverCommittedMembership fun _ t _ => along_readStore ?_
  split
  · exact keepsPrepare_of_touches (by decide) t
  · split
    · exact keepsPrepare_of_touches (by decide) t
    · exact keepsPrepare_tickAwake

/-! ## Runs -/

/-- An input leaves the committed record to the prepare: it is not another record that keeps the
voters, and it does not promote a host. -/
def Input.sparesPrepare (node : Node) : Input → Bool
  | .request _ _ (.membership record) => decide (node.store.membership = .present record)
  | .command .host => false
  | _ => true

/-- Nothing crashes, and while a peer stores a prepare it handles no input that replaces the
committed record without looking at the prepare. -/
def Act.sparesPrepare (s : System) : Act → Bool
  | .input peer cause =>
    decide ((s.nodes peer).store.membershipPromise = .absent) ||
      cause.sparesPrepare (s.nodes peer)
  | act => act.crashFree

/-- Where no prepare is stored, none is stored after an input that does not write the file. -/
theorem System.handle_noPrepare (world : WorldId)
    (habsent : (s.nodes peer).store.membershipPromise = .absent)
    (hapart : ∀ file ∈ [File.membershipPromise], file ∉ cause.footprint) :
    (s.handle C F peer cause).2.node.store.PrepareSound C world :=
  Store.prepareSound_of_absent _ (System.handle_keeps Store.reads_noPrepare hapart habsent)

/-- A request that spares the prepare keeps it on the stored record. -/
theorem System.handle_request_prepareSound {sender : PeerId} {number : Nat}
    {message : WireRequest} (hworld : message.world = F.world)
    (hreadable : (s.nodes peer).store.MembershipReadable F.world)
    (hspares : (s.nodes peer).store.membershipPromise = .absent ∨
      (Input.request sender number message).sparesPrepare (s.nodes peer) = true)
    (h : (s.nodes peer).store.PrepareSound C F.world) :
    (s.handle C F peer (.request sender number message)).2.node.store.PrepareSound C F.world := by
  have hdispatch := s.handle_dispatched (F := F) (R := KeepsPrepare C (s.site C F peer))
    peer sender number message
  cases message with
  | joinRequest request => exact hdispatch (keepsPrepare_handleJoinRequest hworld) h
  | leaveRequest request => exact hdispatch (keepsPrepare_handleLeaveRequest hworld) h
  | membershipProposal proposal =>
    exact hdispatch (keepsPrepare_handleMembershipProposal hreadable hworld) h
  | membershipCommit certificate => exact hdispatch (keepsPrepare_handleMembershipCommit hworld) h
  | membership record =>
    rcases hspares with habsent | hspares
    · exact System.handle_noPrepare _ habsent (by simp [Input.footprint, WireRequest.footprint])
    · exact hdispatch (keepsPrepare_handleMembership (of_decide_eq_true hspares)) h
  | _ =>
    -- The other requests write neither of the two files.
    exact System.handle_keeps (Store.reads_prepareSound C F.world)
      (by simp [Input.footprint, WireRequest.footprint, File.commit, File.recover]) h

/-- An input that spares the prepare keeps it on the stored record. -/
theorem System.handle_prepareSound (henabled : cause.Enabled C F s peer)
    (hreadable : (s.nodes peer).store.MembershipReadable F.world)
    (hspares : (Act.input peer cause).sparesPrepare s = true)
    (h : (s.nodes peer).store.PrepareSound C F.world) :
    (s.handle C F peer cause).2.node.store.PrepareSound C F.world := by
  simp only [Act.sparesPrepare, Bool.or_eq_true, decide_eq_true_eq] at hspares
  cases cause with
  | request sender number message =>
    exact System.handle_request_prepareSound henabled.1 hreadable hspares h
  | tick =>
    have halong : Along (KeepsPrepare C (s.site C F peer))
        (maintainAuthorityLeases C (s.site C F peer)) (Exec.start (s.nodes peer)) :=
      keepsPrepare_tick
    exact halong h
  | command order =>
    rcases hspares with habsent | hspares
    · refine System.handle_noPrepare _ habsent ?_
      cases order <;> simp [Input.footprint, Command.footprint, File.commit]
    · refine System.handle_keeps (Store.reads_prepareSound C F.world) ?_ h
      cases order with
      | host => cases hspares
      | _ => simp [Input.footprint, Command.footprint, File.commit]
  | _ => exact System.handle_keeps (Store.reads_prepareSound C F.world) (by simp [Input.footprint]) h

/-- In a run in which nothing crashes and no input replaces the committed record under a prepare,
every stored prepare is on the stored membership record or was completed by it. -/
theorem prepare_fresh (hrun : Run (StepWith C F fun s act => act.sparesPrepare s = true) s t)
    (hs : s.Initial) (hreadable : ∀ peer, (s.nodes peer).store.MembershipReadable F.world)
    (peer : PeerId) : (t.nodes peer).store.PrepareFresh C := by
  refine (StepWith.storeInvariant (I := fun _ store => store.PrepareSound C F.world)
    (fun _ => Store.reads_prepareSound C F.world) (by decide) ?_ ?_ hrun (fun peer => ?_)
    peer).fresh
  · intro r hprefix peer cause _ henabled hspares h
    have hread := Run.membershipReadable (StepWith.run hprefix) hreadable peer
    exact System.handle_prepareSound henabled hread hspares h
  · intro r _ peer cause point _ _ hspares
    cases hspares
  · exact Store.prepareSound_of_absent _ (hs.membershipPromise peer)

/-- The third member keeps its prepare on the founding record while its departure is voted on. -/
theorem prepare_fresh_departure :
    let f := numbered 3
    let t := (f.system .ideal).play .ideal f.fleet voteOnDeparture
    (t.nodes third).store.PrepareFresh .ideal := by
  intro f t
  have hplays : (f.system .ideal).PlaysWith .ideal f.fleet
      (fun s act => act.sparesPrepare s = true) voteOnDeparture := by decide +kernel
  have hreadable : ∀ peer, ((f.system .ideal).nodes peer).store.MembershipReadable f.fleet.world := by
    intro peer
    simp only [Founding.system, Founding.node]
    split
    · exact .inr ⟨f.membership .ideal, by decide +kernel⟩
    · exact .inl rfl
  exact prepare_fresh (t := t) hplays.run (Founding.system_initial .ideal f) hreadable third

/-- The first peer hosts the world that it created. The second one asks to join; the first one
prepares the change, goes to sleep and hosts again. -/
def hostUnderPrepare : List Cue :=
  [fun _ => .input first (.command .host),
    fun _ => .input second (.command (.join ((numbered 1).invite .ideal) 0))] ++
    connect second first ++ [hand second first 0,
      fun _ => .input first (.command (.finish [] .sleep)), fun _ => .input first (.command .host)]

/-- A stored prepare is neither on the stored record nor completed by it. -/
def Store.prepareStale (C : Crypto) (store : Store) : Bool :=
  match store.membershipPromise, store.membership with
  | .present promise, .present record =>
    decide (promise.proposal.previous.recordHash C ≠ record.recordHash C ∧
      promise.proposal.proposed ≠ record)
  | _, _ => false

theorem Store.not_prepareFresh (h : store.prepareStale C = true) : ¬ store.PrepareFresh C := by
  intro hfresh
  unfold Store.prepareStale at h
  split at h
  · rename_i promise record hpromise hrecord
    obtain ⟨hprevious, hproposed⟩ := of_decide_eq_true h
    exact (hfresh promise record hpromise hrecord).elim hprevious hproposed
  · cases h

/-- The host signs a new membership record under the prepare, and every tick of it fails from then
on. -/
theorem prepare_stale_after_host :
    let f := numbered 1
    let t := (f.created .ideal).play .ideal f.fleet hostUnderPrepare
    (f.created .ideal).Initial ∧ (f.created .ideal).Plays .ideal f.fleet hostUnderPrepare ∧
      ¬ (t.nodes first).store.PrepareFresh .ideal ∧
      (t.handle .ideal f.fleet first .tick).1 =
        .error (.message
          "durable membership proposal no longer extends the committed membership") := by
  refine ⟨Founding.created_initial _, ?_, Store.not_prepareFresh ?_, ?_⟩ <;> decide +kernel

end SwarmCraft
