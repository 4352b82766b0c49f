import SwarmCraft.System.Genesis

/-!
# Solo epochs and solo histories

A solo record is stored by the first hosted session and by waking a world. Its next tick
ends solo mode as soon as a quorum acknowledges, which a single member always is. Ending it
needs a solo branch of the local peer, and no command and no tick creates one. Two peers that were
alone agree on which branch stays, except where each head is the base that the other branch names.
-/

namespace SwarmCraft

open Checked Effect

variable {C : Crypto} {site : Site} {descriptor : WorldDescriptorV1} {epoch : EpochRecordV1} {e : Exec}
variable {branch : SoloBranchV1} {store : Store} {next : AuthorityGeneration}
  {latest : SnapshotManifestV1} {record : EpochRecordV1}

/-! ## Sending -/

/-- Neither the files nor the memory change. -/
def Quiet (e e' : Exec) : Prop :=
  e'.node.store = e.node.store ∧ e'.node.runtime = e.node.runtime

instance : Std.Refl Quiet where
  refl _ := ⟨rfl, rfl⟩

instance : IsTrans Exec Quiet where
  trans _ _ _ h₁₂ h₂₃ := ⟨h₂₃.1.trans h₁₂.1, h₂₃.2.trans h₁₂.2⟩

theorem quiet_sendRequest (self peer : PeerId) (request : WireRequest)
    (remember : Option OutboundContext) : Completes Quiet (sendRequest self peer request remember) :=
  .modifyState fun _ => ⟨rfl, rfl⟩

/-- Sending a request unless one is pending. -/
theorem quiet_sendUnlessPending (self peer : PeerId) (request : WireRequest)
    (context : OutboundContext) : Completes Quiet (sendUnlessPending self peer request context) :=
  .bind (fun e => ⟨_, e, rfl, rfl, rfl⟩) fun _ => .onlyIf fun _ => quiet_sendRequest _ _ _ _

/-- Sending to each connected member. -/
theorem quiet_forConnectedMembers {act : PeerId → Daemon Unit}
    (h : ∀ peer, Completes Quiet (act peer)) :
    Completes Quiet (forConnectedMembers C site descriptor act) := by
  refine .bind (fun e => ⟨_, e, rfl, rfl, rfl⟩) fun runtime => .forM fun peer => ?_
  exact .onSome fun _ _ => .onlyIf fun _ => h peer

/-- Asking for statuses, in a world that is there. -/
theorem requestWorldStatuses_returns {metadata : WorldMetadataV1}
    (h : loadWorld C descriptor.worldId e.node.store = .ok metadata) :
    ∃ t, requestWorldStatuses C site descriptor e = (.ok (), t) ∧ Quiet e t := by
  have hsend : Completes Quiet (e.node.runtime.authenticatedPeers.forM fun peer =>
      onlyIf (peer ≠ site.peer C ∧ (descriptor.member peer).isSome)
        (sendUnlessPending (site.peer C) peer (.worldStatus descriptor.worldId) (.status peer))) :=
    .forM fun peer => .onlyIf fun _ => quiet_sendUnlessPending _ _ _ _
  obtain ⟨_, t, hrun, hquiet⟩ := hsend e
  refine ⟨t, ?_, hquiet⟩
  change (check (ofStorage (loadWorld C descriptor.worldId e.node.store)) >>= _) e = _
  rw [check_bind (ofStorage_eq_ok.mpr h)]
  exact hrun

/-! ## The end of solo mode -/

/-- What the end of solo mode needs: a signed head, a solo branch of the local peer, and a next
generation. -/
structure Store.SoloReady (C : Crypto) (site : Site) (epoch : EpochRecordV1) (store : Store) :
    Prop where
  head : ∃ latest, latestSnapshot store = .ok (some latest) ∧
    verifySnapshotSignature C latest = .ok ()
  branch : ∃ branch, loadSoloBranch epoch.worldId store = .ok branch ∧
    verifySoloBranchSignature C branch = .ok () ∧ branch.authorityPeerId = site.peer C
  next : ∃ next, epoch.generation.checkedNext = .ok next

/-- A well-formed branch can be signed. -/
theorem signSoloBranch_returns {identity : PeerIdentity} (h : branch.validateSemantics = .ok ()) :
    ∃ signed, signSoloBranch C identity branch = .ok signed := by
  simp only [signSoloBranch, bind_eq_ok, mapError_eq_ok, pure_eq_ok]
  exact ⟨_, (), h, rfl⟩

/-- The branch can be refreshed exactly when the head and the branch are there. -/
theorem refreshedSoloBranch_returns :
    (∃ branch, refreshedSoloBranch C site epoch store = .ok branch) ↔
      (∃ latest, latestSnapshot store = .ok (some latest) ∧
        verifySnapshotSignature C latest = .ok ()) ∧
      ∃ branch, loadSoloBranch epoch.worldId store = .ok branch ∧
        verifySoloBranchSignature C branch = .ok () ∧ branch.authorityPeerId = site.peer C := by
  constructor
  · rintro ⟨refreshed, h⟩
    simp only [refreshedSoloBranch, bind_eq_ok, required_eq_ok, ofStorage_eq_ok, ofCore_eq_ok,
      context_eq_ok, guardMessage_eq_ok] at h
    obtain ⟨_, hlatest, latest, rfl, _, hsigned, branch, hbranch, _, hverified, _, ⟨hmine, _⟩, _⟩ := h
    exact ⟨⟨latest, hlatest, hsigned⟩, branch, hbranch, hverified, hmine⟩
  · rintro ⟨⟨latest, hlatest, hsigned⟩, branch, hbranch, hverified, hmine⟩
    have hworld : branch.worldId = epoch.worldId ∧ branch.validateSemantics = .ok () := by
      have hloaded := hbranch
      simp only [loadSoloBranch, DurableFile.load_eq_ok, requireWorld, asStorage, bind_eq_ok,
        ensure_eq_ok, mapError_eq_ok, exists_const] at hloaded
      exact hloaded.2
    by_cases hsame : branch.headSnapshotHash = latest.manifestHash C ∧
        branch.stateHash = latest.stateRoot
    · refine ⟨none, ?_⟩
      simp [refreshedSoloBranch, hlatest, hsigned, hbranch, hverified, hmine, hworld.1, hsame]
    · let moved : SoloBranchV1 := { branch with
        headSnapshotHash := latest.manifestHash C
        headEpoch := epoch.epochNumber
        headSequence := latest.sequence
        stateHash := latest.stateRoot }
      have hvalid : moved.validateSemantics = .ok () := hworld.2
      obtain ⟨signed, hsign⟩ := @signSoloBranch_returns C moved site.identity hvalid
      refine ⟨some signed, ?_⟩
      simp only [refreshedSoloBranch, bind_eq_ok, required_eq_ok, ofStorage_eq_ok, ofCore_eq_ok,
        context_eq_ok, guardMessage_eq_ok]
      refine ⟨_, hlatest, latest, rfl, (), hsigned, branch, hbranch, (), hverified, (),
        ⟨hmine, hworld.1⟩, ?_⟩
      rw [if_neg hsame, bind_eq_ok]
      exact ⟨signed, ofCore_eq_ok.mpr hsign, rfl⟩

theorem refreshedSoloBranch_saved
    (h : refreshedSoloBranch C site epoch store = .ok (some branch)) (store' : Store) :
    saveSoloBranch branch store' = .ok { store' with soloBranch := .present branch } := by
  simp only [refreshedSoloBranch, bind_eq_ok, required_eq_ok, ofStorage_eq_ok, ofCore_eq_ok,
    context_eq_ok, guardMessage_eq_ok] at h
  obtain ⟨_, _, _, _, _, _, stored, _, _, _, _, _, h⟩ := h
  split at h
  · cases h
  · simp only [bind_eq_ok, ofCore_eq_ok, signSoloBranch, mapError_eq_ok, pure_eq_ok] at h
    obtain ⟨_, ⟨_, hvalid, rfl⟩, heq⟩ := h
    obtain rfl := Option.some.inj heq
    simp only [saveSoloBranch, asStorage, bind_eq_ok, mapError_eq_ok, pure_eq_ok]
    exact ⟨(), hvalid, trivial⟩

/-- Refreshing the branch, where it can be refreshed. -/
theorem refreshSoloBranch_returns (hsolo : epoch.mode = .solo)
    (h : ∃ branch, refreshedSoloBranch C site epoch e.node.store = .ok branch) :
    ∃ t, refreshSoloBranch C site epoch e = (.ok (), t) ∧ t.node.store.epoch = e.node.store.epoch ∧
      latestSnapshot t.node.store = latestSnapshot e.node.store := by
  obtain ⟨branch, hbranch⟩ := h
  have hrun : refreshSoloBranch C site epoch e =
      (onSome branch fun branch => save [] (saveSoloBranch branch) : Daemon Unit) e := by
    unfold refreshSoloBranch onlyIf
    rw [if_pos hsolo]
    change (check (refreshedSoloBranch C site epoch e.node.store) >>= _) e = _
    rw [check_bind hbranch]
  rw [hrun]
  cases branch with
  | none => exact ⟨e, rfl, rfl, rfl⟩
  | some branch =>
    have hsaved := refreshedSoloBranch_saved hbranch e.node.store
    exact ⟨_, run_save.mpr ⟨_, hsaved, rfl⟩, rfl, rfl⟩

/-- A branch that was refreshed could be refreshed. -/
theorem refreshedSoloBranch_of_run {t : Exec} (hsolo : epoch.mode = .solo)
    (h : refreshSoloBranch C site epoch e = (.ok (), t)) :
    ∃ branch, refreshedSoloBranch C site epoch e.node.store = .ok branch := by
  unfold refreshSoloBranch onlyIf at h
  rw [if_pos hsolo] at h
  obtain ⟨store, u, hread, h⟩ := run_bind.mp h
  obtain ⟨rfl, rfl⟩ := run_readStore.mp hread
  obtain ⟨branch, v, hbranch, _⟩ := run_bind.mp h
  exact ⟨branch, (run_check.mp hbranch).1⟩

/-- The record that ends a solo epoch. -/
theorem soloToQuorumRecord_returns (hhead : latestSnapshot store = .ok (some latest))
    (hnext : epoch.generation.checkedNext = .ok next) :
    ∃ record, soloToQuorumRecord C site ⟨descriptor, epoch⟩ store = .ok record := by
  simp only [soloToQuorumRecord, nextGeneration, bind_eq_ok, required_eq_ok, ofStorage_eq_ok,
    context_eq_ok, pure_eq_ok]
  exact ⟨_, _, hhead, latest, rfl, next, hnext, rfl⟩

theorem soloToQuorumRecord_fields
    (h : soloToQuorumRecord C site ⟨descriptor, epoch⟩ store = .ok record) :
    (∃ latest, latestSnapshot store = .ok (some latest)) ∧
      epoch.generation.checkedNext = .ok record.generation ∧
      record.worldId = descriptor.worldId ∧ record.validateSemantics = .ok () ∧
      record.mode = .quorum ∧ record.authorityPeerId = site.peer C ∧
      record.authorityPublicKey = site.identity.publicKey := by
  simp only [soloToQuorumRecord, nextGeneration, bind_eq_ok, required_eq_ok, ofStorage_eq_ok,
    context_eq_ok, pure_eq_ok] at h
  obtain ⟨_, hhead, latest, rfl, next, hnext, rfl⟩ := h
  exact ⟨⟨latest, hhead⟩, hnext, rfl, rfl, rfl, rfl, rfl⟩

/-- A later record can be saved over the accepted one. -/
theorem saveEpochRecord_later (hload : loadEpochRecord record.worldId store = .ok epoch)
    (hvalid : record.validateSemantics = .ok ()) (hlater : epoch.generation < record.generation) :
    saveEpochRecord record store = .ok { store with epoch := .present record } := by
  have hpresent := (loadEpochRecord_eq_ok.mp hload).1
  have hexists : store.epoch.exists = true := by
    rw [hpresent]
    rfl
  simp only [saveEpochRecord, asStorage, bind_eq_ok, mapError_eq_ok, hexists, if_true]
  refine ⟨(), hvalid, epoch, hload, ?_⟩
  have hnot : ¬ record.generation < epoch.generation := by
    rw [AuthorityGeneration.lt_iff] at hlater ⊢
    omega
  have hne : record.generation ≠ epoch.generation := by
    intro heq
    rw [heq, AuthorityGeneration.lt_iff] at hlater
    omega
  rw [if_neg hnot, if_neg hne]
  rfl

/-- Ending solo mode, where a next generation is left. -/
theorem promoteSoloToQuorum_returns (hdescriptor : descriptor.worldId = site.world)
    (hepoch : loadEpochRecord site.world e.node.store = .ok epoch)
    (hhead : latestSnapshot e.node.store = .ok (some latest))
    (hnext : epoch.generation.checkedNext = .ok next) :
    ∃ record t, promoteSoloToQuorum C site ⟨descriptor, epoch⟩ e = (.ok (), t) ∧
      t.node.store.epoch = .present record ∧ record.generation = next ∧ record.mode = .quorum ∧
      record.authorityPeerId = site.peer C ∧
      record.authorityPublicKey = site.identity.publicKey := by
  obtain ⟨record, hrecord⟩ := @soloToQuorumRecord_returns C site descriptor epoch _ _ _ hhead hnext
  obtain ⟨_, hgeneration, hworld, hvalid, hmode, hpeer, hkey⟩ := soloToQuorumRecord_fields hrecord
  have hsame : record.generation = next := Except.ok.inj (hgeneration.symm.trans hnext)
  rw [← hdescriptor, ← hworld] at hepoch
  have hsaved := saveEpochRecord_later hepoch hvalid
    (AuthorityGeneration.lt_checkedNext (hsame ▸ hnext))
  let saved := e.written { e.node.store with epoch := .present record } [.storedEpoch record]
  have hsend : Completes Quiet (forConnectedMembers C site descriptor fun peer =>
      sendRequest (site.peer C) peer (.epoch record) (some (.epoch peer record.generation))) :=
    quiet_forConnectedMembers fun peer => quiet_sendRequest _ _ _ _
  obtain ⟨_, t, hrun, hquiet⟩ := hsend saved
  refine ⟨record, t, ?_, ?_, hsame, hmode, hpeer, hkey⟩
  · change (check (soloToQuorumRecord C site ⟨descriptor, epoch⟩ e.node.store) >>= _) e = _
    rw [check_bind hrecord, save_bind hsaved]
    exact hrun
  · rw [hquiet.1]
    rfl

/-! ## The tick of a solo authority -/

/-- The lease of a solo authority can be signed and is sent. -/
theorem maintainLeases_run : ∃ t, Quiet e t ∧
    maintainLeases C site ⟨descriptor, epoch⟩ e =
      (if leaseQuorum C site descriptor epoch.generation e.node.runtime = true ∧
          epoch.mode = .solo then do
        refreshSoloBranch C site epoch
        promoteSoloToQuorum C site ⟨descriptor, epoch⟩
        clearPermit
      else do
        settlePermit C site ⟨descriptor, epoch⟩
          (leaseQuorum C site descriptor epoch.generation e.node.runtime)
        write (clearRecoveryPromiseAfterEpochAdvance C descriptor.worldId epoch.epochNumber) :
        Daemon Unit) t := by
  obtain ⟨lease, hlease⟩ : ∃ lease,
      signedLease C site descriptor.worldId epoch.generation = .ok lease := by
    simp only [signedLease, signLease, ofCore_eq_ok, bind_eq_ok, mapError_eq_ok, pure_eq_ok]
    exact ⟨_, (), rfl, rfl⟩
  have hsend : Completes Quiet (forConnectedMembers C site descriptor fun peer =>
      sendUnlessPending (site.peer C) peer (.leaseGrant lease) (.lease peer epoch.generation)) :=
    quiet_forConnectedMembers fun peer => quiet_sendUnlessPending _ _ _ _
  obtain ⟨_, t, hrun, hquiet⟩ := hsend e
  refine ⟨t, hquiet, ?_⟩
  change (check (signedLease C site descriptor.worldId epoch.generation) >>= _) e = _
  rw [check_bind hlease, bind_of_run hrun, ← hquiet.2]
  rfl

/-- The tick of the authority of a solo record returns, and ends solo mode where a quorum
acknowledged, exactly when no quorum acknowledged or everything is there that the end of solo mode
needs. -/
theorem solo_epoch_maintained {metadata : WorldMetadataV1}
    (hmetadata : loadWorld C site.world e.node.store = .ok metadata)
    (hdescriptor : descriptor.worldId = site.world)
    (hepoch : loadEpochRecord site.world e.node.store = .ok epoch) (hsolo : epoch.mode = .solo) :
    (∃ t, maintainLocalAuthority C site ⟨descriptor, epoch⟩ e = (.ok (), t) ∧
      (leaseQuorum C site descriptor epoch.generation e.node.runtime = true →
        ∃ next, t.node.store.epoch = .present next ∧ next.mode = .quorum ∧
          next.authorityPeerId = site.peer C ∧
          next.authorityPublicKey = site.identity.publicKey ∧
          next.epochNumber = epoch.epochNumber + 1 ∧
          next.fencingToken = epoch.fencingToken + 1)) ↔
      (leaseQuorum C site descriptor epoch.generation e.node.runtime = false ∨
        e.node.store.SoloReady C site epoch) := by
  have hmaintain : maintainLocalAuthority C site ⟨descriptor, epoch⟩ =
      maintainLeases C site ⟨descriptor, epoch⟩ := by
    unfold maintainLocalAuthority
    rw [if_neg (by simp [hsolo])]
  obtain ⟨sent, hquiet, hrun⟩ := @maintainLeases_run C site descriptor epoch e
  rw [hmaintain, hrun, ← hquiet.1]
  rw [← hquiet.1] at hmetadata hepoch
  by_cases hquorum : leaseQuorum C site descriptor epoch.generation e.node.runtime = true
  · rw [if_pos ⟨hquorum, hsolo⟩]
    simp only [hquorum, Bool.true_eq_false, false_or, forall_const]
    constructor
    · rintro ⟨t, hend, _⟩
      obtain ⟨_, refreshed, hrefresh, hend⟩ := run_bind.mp hend
      obtain ⟨_, promoted, hpromote, _⟩ := run_bind.mp hend
      obtain ⟨hhead, hbranch⟩ :=
        refreshedSoloBranch_returns.mp (refreshedSoloBranch_of_run hsolo hrefresh)
      obtain ⟨_, _, hread, hpromote⟩ := run_bind.mp hpromote
      obtain ⟨record, _, hrecord, _⟩ := run_bind.mp hpromote
      have hfields := soloToQuorumRecord_fields (run_check.mp hrecord).1
      exact ⟨hhead, hbranch, _, hfields.2.1⟩
    · intro hready
      obtain ⟨latest, hhead, _⟩ := hready.head
      obtain ⟨next, hnext⟩ := hready.next
      obtain ⟨refreshed, hrefresh, hsameEpoch, hsameHead⟩ := refreshSoloBranch_returns hsolo
        (refreshedSoloBranch_returns.mpr ⟨hready.head, hready.branch⟩)
      have hload : loadEpochRecord site.world refreshed.node.store = .ok epoch := by
        rw [loadEpochRecord, hsameEpoch]
        exact hepoch
      obtain ⟨record, t, hpromote, hstored, hgeneration, hmode, hpeer, hkey⟩ :=
        @promoteSoloToQuorum_returns C site descriptor epoch refreshed next latest hdescriptor hload
          (hsameHead.trans hhead) hnext
      refine ⟨t.written { t.node.store with permit := none } [], ?_, record, hstored, hmode, hpeer,
        hkey, ?_⟩
      · rw [bind_of_run hrefresh, bind_of_run hpromote]
        rfl
      · rw [AuthorityGeneration.checkedNext_eq_ok hnext] at hgeneration
        exact ⟨congrArg AuthorityGeneration.epoch hgeneration,
          congrArg AuthorityGeneration.fencingToken hgeneration⟩
  · rw [if_neg fun h => hquorum h.1]
    rw [Bool.not_eq_true] at hquorum
    simp only [hquorum, Bool.false_eq_true, false_imp_iff, and_true, true_or, iff_true]
    let cleared := sent.written { sent.node.store with permit := none } []
    have hcleared : loadWorld C descriptor.worldId cleared.node.store = .ok metadata := by
      rw [hdescriptor]
      exact hmetadata
    obtain ⟨asked, hasked, _⟩ := @requestWorldStatuses_returns C site descriptor _ _ hcleared
    have hsettle : settlePermit C site ⟨descriptor, epoch⟩ false sent = (.ok (), asked) := hasked
    exact ⟨_, (bind_of_run hsettle).trans rfl⟩

/-- The solo branch of the founder of a world at its first snapshot. -/
def Founding.soloBranch (C : Crypto) (f : Founding) : SoloBranchV1 :=
  let head := f.snapshot C
  let unsigned : SoloBranchV1 := {
    protocolVersion := protocolVersionV1
    worldId := f.world C
    baseSnapshotHash := head.manifestHash C
    baseEpoch := head.epoch
    headSnapshotHash := head.manifestHash C
    headEpoch := head.epoch
    headSequence := head.sequence
    stateHash := head.stateRoot
    authorityPeerId := C.peerIdFromPublicKey f.authority
    authorityPublicKey := f.authority
    signature := .empty }
  { unsigned with signature := C.sign f.authority (.soloBranch unsigned) }

/-- A solo authority of two members waits for the other one. A single member that has stored its
solo branch ends solo mode. -/
theorem solo_epoch_maintained_ready :
    let site := fun f : Founding => (⟨f.world .ideal, ⟨f.authority⟩, 0⟩ : Site)
    let epoch := fun f : Founding => { f.epoch .ideal with mode := .solo }
    let start := fun f : Founding => Exec.start (f.node .ideal { f.store .ideal with
      epoch := .present (epoch f)
      soloBranch := .present (f.soloBranch .ideal) })
    let maintain := fun f : Founding =>
      maintainLocalAuthority .ideal (site f) ⟨f.descriptor .ideal, epoch f⟩ (start f)
    (∃ t, maintain (.numbered 2) = (.ok (), t)) ∧
      ∃ t next, maintain (.numbered 1) = (.ok (), t) ∧ t.node.store.epoch = .present next ∧
        next.mode = .quorum ∧ next.epochNumber = 2 := by
  intro site epoch start maintain
  have hmaintained (f : Founding) := @solo_epoch_maintained .ideal (site f) (f.descriptor .ideal)
    (epoch f) (start f) ⟨f.world .ideal, f.genesis⟩
  constructor
  · -- There is no quorum without the second member.
    obtain ⟨t, hrun, _⟩ := (hmaintained (.numbered 2) (by decide +kernel) rfl (by decide +kernel)
      rfl).mpr (.inl (by decide +kernel))
    exact ⟨t, hrun⟩
  · have hready : (start (.numbered 1)).node.store.SoloReady .ideal (site (.numbered 1))
        (epoch (.numbered 1)) := by
      refine ⟨⟨_, rfl, ?_⟩, ⟨Founding.soloBranch .ideal (.numbered 1), ?_, ?_, rfl⟩, _, rfl⟩ <;>
        decide +kernel
    obtain ⟨t, hrun, hquorum⟩ := (hmaintained (.numbered 1) (by decide +kernel) rfl
      (by decide +kernel) rfl).mpr (.inr hready)
    obtain ⟨next, hnext, hmode, _, _, hnumber, _⟩ := hquorum (by decide +kernel)
    exact ⟨t, next, hrun, hnext, hmode, hnumber⟩

/-- The first peer hosts the world that it created, alone: its next tick fails, which ends the
daemon. -/
theorem solo_epoch_not_maintained :
    let f := Founding.numbered 1
    let hosting : List Cue := [fun _ => .input Founding.first (.command .host)]
    let t := (f.created .ideal).play .ideal f.fleet hosting
    (f.created .ideal).Plays .ideal f.fleet hosting ∧
      (∃ epoch, (t.nodes Founding.first).store.epoch = .present epoch ∧ epoch.mode = .solo) ∧
      (t.handle .ideal f.fleet Founding.first .tick).1 =
        .error (.message "solo epoch is missing durable branch ancestry") ∧
      Input.tick.fatal = true := by
  refine ⟨by decide +kernel, ?_, by decide +kernel, rfl⟩
  exact ⟨_, rfl, rfl⟩

/-! ## Exchanging histories -/

/-- The two calls answer the same question: one side adopts exactly where the other side keeps,
and they agree on all other answers. -/
structure ReconcileSymmetric (a b : SoloBranchV1) : Prop where
  adopt : reconcileSoloHistory a b = .ok .adoptRemote ↔ reconcileSoloHistory b a = .ok .keepLocal
  keep : reconcileSoloHistory a b = .ok .keepLocal ↔ reconcileSoloHistory b a = .ok .adoptRemote
  equivalent :
    reconcileSoloHistory a b = .ok .equivalent ↔ reconcileSoloHistory b a = .ok .equivalent
  conflict : reconcileSoloHistory a b = .ok .conflict ↔ reconcileSoloHistory b a = .ok .conflict
  failure : (∃ error, reconcileSoloHistory a b = .error error) ↔
    ∃ error, reconcileSoloHistory b a = .error error

/-- Each head is the base of the other branch, although the branches differ. -/
structure SoloBranchV1.Crosses (a b : SoloBranchV1) : Prop where
  world : a.worldId = b.worldId
  ordered : a.baseEpoch ≤ a.headEpoch
  ordered' : b.baseEpoch ≤ b.headEpoch
  different : ¬ (a.headSnapshotHash = b.headSnapshotHash ∧ a.stateHash = b.stateHash)
  head : a.headSnapshotHash = b.baseSnapshotHash
  head' : b.headSnapshotHash = a.baseSnapshotHash

/-- Branches that cannot be compared fail on both sides. -/
theorem reconcileSoloHistory_error_iff {a b : SoloBranchV1} :
    (∃ error, reconcileSoloHistory a b = .error error) ↔
      a.worldId ≠ b.worldId ∨ a.headEpoch < a.baseEpoch ∨ b.headEpoch < b.baseEpoch := by
  unfold reconcileSoloHistory
  by_cases hworld : a.worldId = b.worldId
  · by_cases horder : a.headEpoch < a.baseEpoch ∨ b.headEpoch < b.baseEpoch
    · simp [hworld, horder]
    · simp only [hworld, horder, ne_eq, not_true_eq_false, if_false, or_false, iff_false]
      rintro ⟨error, h⟩
      split at h
      · cases h
      · split at h
        · cases h
        · split at h <;> cases h
  · simp [hworld]

/-- The answer on branches of one world whose heads do not precede their bases. -/
theorem reconcileSoloHistory_of_ordered {a b : SoloBranchV1} (hworld : a.worldId = b.worldId)
    (ha : a.baseEpoch ≤ a.headEpoch) (hb : b.baseEpoch ≤ b.headEpoch) :
    reconcileSoloHistory a b =
      if a.headSnapshotHash = b.headSnapshotHash ∧ a.stateHash = b.stateHash then .ok .equivalent
      else if a.headSnapshotHash = b.baseSnapshotHash then .ok .adoptRemote
      else if b.headSnapshotHash = a.baseSnapshotHash then .ok .keepLocal
      else .ok .conflict := by
  have horder : ¬ (a.headEpoch < a.baseEpoch ∨ b.headEpoch < b.baseEpoch) := by omega
  rw [reconcileSoloHistory, if_neg (not_not.mpr hworld), if_neg horder]

/-- Crossed branches are both given up. -/
theorem SoloBranchV1.Crosses.adopts {a b : SoloBranchV1} (h : a.Crosses b) :
    reconcileSoloHistory a b = .ok .adoptRemote ∧ reconcileSoloHistory b a = .ok .adoptRemote := by
  have hdifferent : ¬ (b.headSnapshotHash = a.headSnapshotHash ∧ b.stateHash = a.stateHash) :=
    fun hsame => h.different ⟨hsame.1.symm, hsame.2.symm⟩
  rw [reconcileSoloHistory_of_ordered h.world h.ordered h.ordered',
    reconcileSoloHistory_of_ordered h.world.symm h.ordered' h.ordered]
  rw [if_neg h.different, if_pos h.head, if_neg hdifferent, if_pos h.head']
  exact ⟨rfl, rfl⟩

/-- Reconciliation is symmetric exactly where the branches do not cross. -/
theorem reconcile_symmetric_iff (a b : SoloBranchV1) : ReconcileSymmetric a b ↔ ¬ a.Crosses b := by
  constructor
  · intro h hcrossed
    obtain ⟨hadopts, hadopts'⟩ := hcrossed.adopts
    rw [h.adopt.mp hadopts] at hadopts'
    cases hadopts'
  · intro hnot
    have herror : (∃ error, reconcileSoloHistory a b = .error error) ↔
        ∃ error, reconcileSoloHistory b a = .error error := by
      rw [reconcileSoloHistory_error_iff, reconcileSoloHistory_error_iff, ne_comm,
        or_comm (a := a.headEpoch < a.baseEpoch)]
    by_cases hfails : ∃ error, reconcileSoloHistory a b = .error error
    · obtain ⟨error, hfirst⟩ := hfails
      obtain ⟨error', hsecond⟩ := herror.mp ⟨error, hfirst⟩
      constructor <;> simp [hfirst, hsecond]
    · rw [reconcileSoloHistory_error_iff] at hfails
      push Not at hfails
      obtain ⟨hworld, ha, hb⟩ := hfails
      have hfirst := reconcileSoloHistory_of_ordered hworld ha hb
      have hsecond := reconcileSoloHistory_of_ordered hworld.symm hb ha
      by_cases hsame : a.headSnapshotHash = b.headSnapshotHash ∧ a.stateHash = b.stateHash
      · rw [if_pos hsame] at hfirst
        rw [if_pos ⟨hsame.1.symm, hsame.2.symm⟩] at hsecond
        constructor <;> simp [hfirst, hsecond]
      · have hsame' : ¬ (b.headSnapshotHash = a.headSnapshotHash ∧ b.stateHash = a.stateHash) :=
          fun h => hsame ⟨h.1.symm, h.2.symm⟩
        rw [if_neg hsame] at hfirst
        rw [if_neg hsame'] at hsecond
        by_cases hhead : a.headSnapshotHash = b.baseSnapshotHash
        · have hhead' : b.headSnapshotHash ≠ a.baseSnapshotHash :=
            fun h => hnot ⟨hworld, ha, hb, hsame, hhead, h⟩
          rw [if_pos hhead] at hfirst
          rw [if_neg hhead', if_pos hhead] at hsecond
          constructor <;> simp [hfirst, hsecond]
        · rw [if_neg hhead] at hfirst hsecond
          by_cases hhead' : b.headSnapshotHash = a.baseSnapshotHash
          · rw [if_pos hhead'] at hfirst hsecond
            constructor <;> simp [hfirst, hsecond]
          · rw [if_neg hhead'] at hfirst hsecond
            constructor <;> simp [hfirst, hsecond]

/-- A branch of a peer between two snapshots, named by numbers. -/
def soloBranchBetween (base head : Nat) (writer : PublicKey) : SoloBranchV1 where
  protocolVersion := protocolVersionV1
  worldId := ⟨⟨.atom 0⟩⟩
  baseSnapshotHash := ⟨.atom base⟩
  baseEpoch := 4
  headSnapshotHash := ⟨.atom head⟩
  headEpoch := 5
  headSequence := 1
  stateHash := ⟨.atom head⟩
  authorityPeerId := Crypto.ideal.peerIdFromPublicKey writer
  authorityPublicKey := writer
  signature := .empty

/-- Two well-formed branches that name each other's head as their base are exchanged. -/
theorem crossed_branches_exchanged :
    let a := soloBranchBetween 1 2 ⟨1⟩
    let b := soloBranchBetween 2 1 ⟨2⟩
    a.validateSemantics = .ok () ∧ b.validateSemantics = .ok () ∧
      reconcileSoloHistory a b = .ok .adoptRemote ∧
      reconcileSoloHistory b a = .ok .adoptRemote ∧ ¬ ReconcileSymmetric a b := by
  intro a b
  have hadopts : reconcileSoloHistory a b = .ok .adoptRemote := by decide
  have hadopts' : reconcileSoloHistory b a = .ok .adoptRemote := by decide
  refine ⟨rfl, rfl, hadopts, hadopts', fun h => ?_⟩
  rw [h.adopt.mp hadopts] at hadopts'
  cases hadopts'

end SwarmCraft
