import SwarmCraft.Refinement.Recovery
import SwarmCraft.System.Handoff

/-!
# Transfer commands follow the hand-off protocol

The desk of a peer is read off its store. Each durable state that a transfer command or the
handler of a transfer message passes through is reached from the one before it by a move of the
hand-off protocol, as long as the two files can be read and the token was kept by its signer.
-/

namespace SwarmCraft

open Checked Effect Transition

/-! ## The desk of a store -/

/-- What a store has on its desk. -/
def Store.desk (world : WorldId) (store : Store) : Desk where
  epoch := optional (loadEpochRecord world store)
  file := optional (loadTransferRecord world store)

/-- The two files can be read where they are there. -/
structure Store.Legible (world : WorldId) (store : Store) : Prop where
  epoch : store.epoch = .absent ∨ ∃ record, loadEpochRecord world store = .ok record
  transfer : store.transfer = .absent ∨ ∃ record, loadTransferRecord world store = .ok record

section Desk

variable {world : WorldId} {store store' : Store} {record : AuthorityTransferV1}
  {next : EpochRecordV1}

theorem loadTransferRecord_eq_ok : loadTransferRecord world store = .ok record ↔
    store.transfer = .present record ∧ record.worldId = world ∧
      record.validateSemantics = .ok () := by
  simp [loadTransferRecord, requireWorld, asStorage]

theorem saveTransferRecord_desk (h : saveTransferRecord record store = .ok store')
    (hworld : record.worldId = world) :
    store'.desk world = ⟨(store.desk world).epoch, some record⟩ ∧
      (store.Legible world → store'.Legible world) := by
  simp only [saveTransferRecord, bind_eq_ok, asStorage, mapError_eq_ok, pure_eq_ok] at h
  obtain ⟨_, hvalid, rfl⟩ := h
  have hload : loadTransferRecord world { store with transfer := .present record } = .ok record :=
    loadTransferRecord_eq_ok.mpr ⟨rfl, hworld, hvalid⟩
  constructor
  · unfold Store.desk
    rw [hload]
    rfl
  · intro hlegible
    exact ⟨hlegible.epoch, .inr ⟨record, hload⟩⟩

/-- A saved epoch record is on the desk. -/
theorem saveEpochRecord_desk (h : saveEpochRecord next store = .ok store')
    (hworld : next.worldId = world) :
    store'.desk world = ⟨some next, (store.desk world).file⟩ ∧
      (store.Legible world → store'.Legible world) := by
  have hvalid := saveEpochRecord_valid h
  obtain ⟨rfl, _⟩ := saveEpochRecord_eq_ok h
  have hload : loadEpochRecord world { store with epoch := .present next } = .ok next :=
    loadEpochRecord_eq_ok.mpr ⟨rfl, hworld, hvalid⟩
  constructor
  · unfold Store.desk
    rw [hload]
    rfl
  · intro hlegible
    exact ⟨.inr ⟨next, hload⟩, hlegible.transfer⟩

theorem Store.desk_of_same (hepoch : store'.epoch = store.epoch)
    (htransfer : store'.transfer = store.transfer) :
    store'.desk world = store.desk world ∧ (store.Legible world → store'.Legible world) := by
  have hload : loadEpochRecord world store' = loadEpochRecord world store := by
    simp only [loadEpochRecord, hepoch]
  have hload' : loadTransferRecord world store' = loadTransferRecord world store := by
    simp only [loadTransferRecord, htransfer]
  constructor
  · simp only [Store.desk, hload, hload']
  · intro hlegible
    constructor
    · rw [hepoch, hload]
      exact hlegible.epoch
    · rw [htransfer, hload']
      exact hlegible.transfer

end Desk

/-! ## Durable states in a row -/

section Linked

variable {R : Store → Store → Prop} {e : Exec}

/-- The durable states passed on the way are linked by `R`, from the first store to the last. -/
def Linked (R : Store → Store → Prop) (e e' : Exec) : Prop :=
  ∃ passed : List Store, e'.trail.map Prod.fst = e.trail.map Prod.fst ++ passed ∧
    List.IsChain R (e.node.store :: passed) ∧
    (e.node.store :: passed).getLast? = some e'.node.store

instance : Std.Refl (Linked R) where
  refl _ := ⟨[], by simp, by simp, by simp⟩

instance : IsTrans Exec (Linked R) where
  trans a b c := by
    rintro ⟨first, htrail, hchain, hlast⟩ ⟨second, htrail', hchain', hlast'⟩
    refine ⟨first ++ second, ?_, ?_, ?_⟩
    · rw [htrail', htrail, List.append_assoc]
    · rw [← List.cons_append, List.isChain_append]
      refine ⟨hchain, hchain'.tail, ?_⟩
      intro x hx y hy
      rw [hlast, Option.mem_some_iff] at hx
      subst hx
      cases second with
      | nil => cases hy
      | cons z rest =>
        rw [List.head?_cons, Option.mem_some_iff] at hy
        subst hy
        exact (List.isChain_cons_cons.mp hchain').1
    · rw [← List.cons_append, List.getLast?_append, hlast]
      cases second with
      | nil => simpa using hlast'
      | cons z rest =>
        rw [List.getLast?_cons_cons] at hlast'
        rw [hlast']
        rfl

theorem linked_written {store : Store} {events : List Event} (h : R e.node.store store) :
    Linked R e (e.written store events) := by
  refine ⟨[store], ?_, ?_, ?_⟩
  · simp [Exec.written]
  · simp [h]
  · simp [Exec.written]

/-- A change that writes nothing durable. -/
theorem linked_same {e' : Exec} (hstore : e'.node.store = e.node.store)
    (htrail : e'.trail = e.trail) : Linked R e e' := by
  refine ⟨[], ?_, ?_, ?_⟩
  · rw [htrail, List.append_nil]
  · simp
  · simp [hstore]

end Linked

/-! ## Commands and messages -/

/-- One durable write that the protocol allows at the peer's desk. -/
def DeskStep (world : WorldId) (trail : List HandoffEvent) (peer : PeerId) (activates : Bool)
    (before after : Store) : Prop :=
  before.Legible world → after.Legible world ∧
    Desk.Move trail peer (before.desk world) activates (after.desk world)

/-- A token with a valid signature of a member was kept by that member. -/
def KeptBySigner (C : Crypto) (world : WorldId) (trail : List HandoffEvent) (store : Store)
    (token : AuthorityTransferV1) : Prop :=
  verifyTransferSignature C token = .ok () → ∀ descriptor member,
    loadWorldDescriptor world store = .ok descriptor →
      descriptor.member token.signerPeerId = some member →
        ∃ own, .held token.signerPeerId own ∈ trail ∧ own.key = token.key ∧ own.phase = token.phase

section Commands

variable {C : Crypto} {site : Site} {trail : List HandoffEvent} {activates : Bool} {e : Exec}
  {store : Store} {token : AuthorityTransferV1} {current : EpochRecordV1}

/-- A transfer record that passes its checks leads from the accepted generation. -/
theorem validateTransferRecordAgainstEpoch_sourced
    (h : validateTransferRecordAgainstEpoch C token current store = .ok ()) :
    Sourced current token := by
  unfold validateTransferRecordAgainstEpoch at h
  simp only [bind_eq_ok, ofStorage_eq_ok, ofCore_eq_ok, required_eq_ok, guardMessage_eq_ok,
    exists_const] at h
  obtain ⟨_, _, hworld, _, _, _, _, _, _, _, _, _, _, _, _, _, _, hsource, _⟩ := h
  exact (transferIsSourceGeneration_iff hworld).mp hsource

/-- A transfer record that passes its checks is signed by the right member. -/
theorem validateTransferRecordAgainstEpoch_vouched
    (h : validateTransferRecordAgainstEpoch C token current store = .ok ())
    (hkept : KeptBySigner C token.worldId trail store token) : Vouched trail token := by
  unfold validateTransferRecordAgainstEpoch at h
  simp only [bind_eq_ok, ofStorage_eq_ok, ofCore_eq_ok, required_eq_ok, guardMessage_eq_ok,
    exists_const] at h
  obtain ⟨_, hsigned, _, descriptor, hdescriptor, _, _, _, _, _, _, hsigner, member, hmember, _⟩ := h
  exact ⟨hsigner, hkept hsigned descriptor member hdescriptor hmember⟩

/-- A readable transfer from the accepted generation is the active one. -/
theorem activeTransfer_of_sourced {active : Option AuthorityTransferV1} {old : AuthorityTransferV1}
    (h : activeTransfer C site store = .ok active)
    (hcurrent : loadEpochRecord site.world store = .ok current)
    (hold : loadTransferRecord site.world store = .ok old) (hsourced : Sourced current old) :
    active = some old := by
  have hworld : old.worldId = current.worldId := by
    rw [(loadTransferRecord_eq_ok.mp hold).2.1, (loadEpochRecord_eq_ok.mp hcurrent).2.1]
  unfold activeTransfer at h
  rw [hcurrent, hold] at h
  simp only [(transferIsSourceGeneration_iff hworld).mpr hsourced, if_true, bind_eq_ok,
    pure_eq_ok] at h
  obtain ⟨_, _, rfl⟩ := h
  rfl

/-- What the common checks of the later phases establish. -/
structure TokenFits (C : Crypto) (site : Site) (trail : List HandoffEvent) (store : Store)
    (token : AuthorityTransferV1) (current : EpochRecordV1) : Prop where
  world : token.worldId = site.world
  accepted : loadEpochRecord site.world store = .ok current
  sourced : Sourced current token
  vouched : Vouched trail token
  /-- A readable transfer from the accepted generation is the same one. -/
  continues : ∀ old, loadTransferRecord site.world store = .ok old → Sourced current old →
    old.key = token.key

/-- The common checks of the later phases. -/
theorem transferTokenChecks_fits {phase : TransferPhase} {holder : PeerId}
    {wrongToken wrongHolder : String} {existing : Option AuthorityTransferV1}
    (h : transferTokenChecks C site token phase holder wrongToken wrongHolder store = .ok existing)
    (hkept : KeptBySigner C site.world trail store token) :
    token.phase = phase ∧ holder = site.peer C ∧
      ∃ current, TokenFits C site trail store token current := by
  simp only [transferTokenChecks, validateTransferRecord, bind_eq_ok, ofStorage_eq_ok,
    guardMessage_eq_ok, exists_const, pure_eq_ok] at h
  obtain ⟨⟨hworld, hphase⟩, _, ⟨current, hcurrent, hvalid⟩, hholder, active, hactive, _, hsame, _⟩ := h
  rw [hworld] at hcurrent
  have hvouched := validateTransferRecordAgainstEpoch_vouched hvalid (hworld.symm ▸ hkept)
  refine ⟨hphase, hholder, current, hworld, hcurrent,
    validateTransferRecordAgainstEpoch_sourced hvalid, hvouched, ?_⟩
  intro old hold hleads
  rw [activeTransfer_of_sourced hactive hcurrent hold hleads] at hsame
  simp only [onSome, ensureSameTransfer, guardMessage_eq_ok] at hsame
  exact AuthorityTransferV1.sameTransfer_iff.mp hsame.2

theorem TokenFits.deskStep (h : TokenFits C site trail store token current) {store' : Store}
    {peer : PeerId} (hsave : saveTransferRecord token store = .ok store') :
    DeskStep site.world trail peer activates store store' := by
  obtain ⟨hdesk, hlegible⟩ := saveTransferRecord_desk hsave h.world
  intro hbefore
  refine ⟨hlegible hbefore, ?_⟩
  rw [hdesk]
  apply Desk.Move.receive activates (optional_eq_some.mpr h.accepted) h.sourced h.vouched
  intro old hold
  exact h.continues old (optional_eq_some.mp hold)

/-- A signed transfer is the same one in its phase, signed by the local peer. -/
theorem signTransfer_eq_ok {identity : PeerIdentity} {record signed : AuthorityTransferV1}
    (h : signTransfer C identity record = .ok signed) :
    signed.key = record.key ∧ signed.phase = record.phase ∧ signed.worldId = record.worldId ∧
      signed.signerPeerId = identity.peerId C := by
  simp only [signTransfer, bind_eq_ok, pure_eq_ok] at h
  obtain ⟨_, _, rfl⟩ := h
  exact ⟨rfl, rfl, rfl, rfl⟩

/-- Signing the next phase of the token that was just saved. -/
theorem TokenFits.linked_saveNextPhase {phase : TransferPhase}
    (h : TokenFits C site trail e.node.store token current)
    (hphase : token.phase = .prepared ∧ phase = .accepted ∧ token.toPeerId = site.peer C ∨
      token.phase = .accepted ∧ phase = .committed ∧ token.fromPeerId = site.peer C) :
    Along (Linked (DeskStep site.world trail (site.peer C) false))
      (saveNextPhase C site token phase) e := by
  refine along_bind (along_save_rel fun store hsave => linked_written (h.deskStep hsave))
    fun _ t hrun => ?_
  obtain ⟨saved, hsaved, rfl⟩ := run_save.mp hrun
  obtain ⟨hdesk, _⟩ := saveTransferRecord_desk hsaved h.world
  refine along_check fun signed hsigned => along_save_rel fun store hsave => linked_written ?_
  obtain ⟨hkey, hnext, hworld, hsigner⟩ := signTransfer_eq_ok (ofCore_eq_ok.mp hsigned)
  obtain ⟨hdesk', hlegible'⟩ := saveTransferRecord_desk hsave (hworld.trans h.world)
  intro hbefore
  refine ⟨hlegible' hbefore, ?_⟩
  rw [hdesk']
  have hfile : (saved.desk site.world).file = some token := by rw [hdesk]
  have hepoch : (saved.desk site.world).epoch = some current := by
    rw [hdesk]
    exact optional_eq_some.mpr h.accepted
  have htarget : signed.toPeerId = token.toPeerId := congrArg TransferKey.target hkey
  have hsource : signed.fromPeerId = token.fromPeerId := congrArg TransferKey.source hkey
  apply Desk.Move.sign hepoch hfile h.sourced hkey
  · rw [hsigner]
    rcases hphase with ⟨_, rfl, hself⟩ | ⟨_, rfl, hself⟩
    · simp only [AuthorityTransferV1.expectedSigner, hnext, htarget, hself]
      rfl
    · simp only [AuthorityTransferV1.expectedSigner, hnext, hsource, hself]
      rfl
  · rw [hnext]
    exact hphase

/-- `prepare_manual_transfer` on the desk. -/
theorem linked_prepareManualTransfer {target : PeerId} :
    Along (Linked (DeskStep site.world trail (site.peer C) false))
      (prepareManualTransfer C site target) e := by
  refine along_readStore (along_check fun prepared hprepared => along_onSome fun record hrecord => ?_)
  subst hrecord
  refine along_save_rel fun store hsave => linked_written ?_
  simp only [prepareTransferChecks, bind_eq_ok, ofStorage_eq_ok] at hprepared
  obtain ⟨epoch, hepoch, _, hgeneration, _, _, latest, _, active, hactive, hrest⟩ := hprepared
  have hepochWorld := (loadEpochRecord_eq_ok.mp hepoch).2.1
  simp only [ensureAuthorityGeneration, bind_eq_ok, ofStorage_eq_ok, guardMessage_eq_ok,
    hepochWorld] at hgeneration
  obtain ⟨found, hfound, _, _, hauthority, _⟩ := hgeneration
  rw [hepoch] at hfound
  cases hfound
  cases active with
  | some existing =>
    simp only [bind_eq_ok, pure_eq_ok] at hrest
    obtain ⟨_, _, hnone⟩ := hrest
    cases hnone
  | none =>
    simp only [bind_eq_ok] at hrest
    obtain ⟨sleep, _, hrest⟩ := hrest
    cases sleep with
    | none => cases hrest
    | some sleep =>
      simp only [bind_eq_ok, pure_eq_ok, Option.some.injEq, createPreparedTransfer, required_eq_ok,
        ofCore_eq_ok, checkedSucc_eq_some] at hrest
      obtain ⟨_, _, made, ⟨_, _, _, ⟨_, rfl⟩, _, ⟨_, rfl⟩, hsigned⟩, rfl⟩ := hrest
      obtain ⟨hkey, hphase, hworld, hsigner⟩ := signTransfer_eq_ok hsigned
      have hsource : made.fromPeerId = site.peer C := congrArg TransferKey.source hkey
      have hnumber : made.nextEpoch = epoch.epochNumber + 1 := congrArg TransferKey.nextEpoch hkey
      have htoken : made.nextFencingToken = epoch.fencingToken + 1 :=
        congrArg TransferKey.nextFencingToken hkey
      obtain ⟨hdesk, hlegible⟩ := saveTransferRecord_desk hsave hworld
      intro hbefore
      refine ⟨hlegible hbefore, ?_⟩
      rw [hdesk]
      apply Desk.Move.prepare (optional_eq_some.mpr hepoch) hauthority hphase
      · exact ⟨hsource.trans hauthority.symm, hnumber, htoken⟩
      · rw [hsigner]
        simp only [AuthorityTransferV1.expectedSigner, hphase, hsource]
        rfl
      · intro old hold hleads
        cases activeTransfer_of_sourced hactive hepoch (optional_eq_some.mp hold) hleads

/-- `accept_manual_transfer` on the desk. -/
theorem linked_acceptManualTransfer (hkept : KeptBySigner C site.world trail e.node.store token) :
    Along (Linked (DeskStep site.world trail (site.peer C) false))
      (acceptManualTransfer C site token) e := by
  refine along_readStore (along_check fun existing hexisting => ?_)
  obtain ⟨hphase, hholder, current, hfits⟩ := transferTokenChecks_fits hexisting hkept
  split
  · exact along_pure ()
  · exact along_lift _
  · exact hfits.linked_saveNextPhase (.inl ⟨hphase, rfl, hholder⟩)

/-- `commit_manual_transfer` on the desk. -/
theorem linked_commitManualTransfer (hkept : KeptBySigner C site.world trail e.node.store token) :
    Along (Linked (DeskStep site.world trail (site.peer C) false))
      (commitManualTransfer C site token) e := by
  refine along_readStore (along_check fun existing hexisting => ?_)
  obtain ⟨hphase, hholder, current, hfits⟩ := transferTokenChecks_fits hexisting hkept
  split
  · exact along_pure ()
  · exact hfits.linked_saveNextPhase (.inr ⟨hphase, rfl, hholder⟩)

/-- A write that leaves both files alone. -/
theorem deskStep_of_same {before after : Store} {peer : PeerId}
    (hepoch : after.epoch = before.epoch) (htransfer : after.transfer = before.transfer) :
    DeskStep site.world trail peer activates before after := by
  obtain ⟨hdesk, hlegible⟩ := Store.desk_of_same hepoch htransfer
  intro hbefore
  refine ⟨hlegible hbefore, ?_⟩
  rw [hdesk]
  exact .stay activates

/-- `activate_manual_transfer` on the desk. -/
theorem linked_activateManualTransfer (hkept : KeptBySigner C site.world trail e.node.store token) :
    Along (Linked (DeskStep site.world trail (site.peer C) true))
      (activateManualTransfer C site token) e := by
  refine along_readStore (along_check fun next hnext => ?_)
  simp only [activateTransferChecks, bind_eq_ok, pure_eq_ok] at hnext
  obtain ⟨existing, hexisting, _, _, _, _, _, _, _, _, latest, _, _, _, hnext⟩ := hnext
  obtain ⟨hphase, hholder, current, hfits⟩ := transferTokenChecks_fits hexisting hkept
  refine along_bind (along_save_rel fun store hsave => linked_written (hfits.deskStep hsave))
    fun _ t hrun => ?_
  obtain ⟨saved, hsaved, rfl⟩ := run_save.mp hrun
  obtain ⟨hdesk, _⟩ := saveTransferRecord_desk hsaved hfits.world
  refine along_bind (along_save_rel fun store hsave => linked_written ?_) fun _ u _ => ?_
  · have hworld : next.worldId = site.world := by
      rw [← hnext]
      rfl
    obtain ⟨hdesk', hlegible'⟩ := saveEpochRecord_desk hsave hworld
    subst hnext
    intro hbefore
    refine ⟨hlegible' hbefore, ?_⟩
    rw [hdesk']
    have hfile : (saved.desk site.world).file = some token := by rw [hdesk]
    have hepoch : (saved.desk site.world).epoch = some current := by
      rw [hdesk]
      exact optional_eq_some.mpr hfits.accepted
    exact .enter true hepoch hfile hphase hfits.sourced hholder.symm rfl rfl fun _ => hholder
  · exact along_modifyState (linked_written (deskStep_of_same rfl rfl))

/-- `observe_manual_transfer_epoch` on the desk. -/
theorem linked_observeManualTransferEpoch {next : EpochRecordV1} :
    Along (Linked (DeskStep site.world trail (site.peer C) false))
      (observeManualTransferEpoch C site next) e := by
  refine along_readStore (along_check fun _ hchecks => ?_)
  simp only [observeTransferChecks, bind_eq_ok, ofStorage_eq_ok, guardMessage_eq_ok, exists_const,
    context_eq_ok] at hchecks
  obtain ⟨⟨hworld, _⟩, _, _, current, hcurrent, transfer, htransfer, _, hvalid, _, _,
    ⟨hphase, _, htarget, hnumber, htoken, _⟩, _⟩ := hchecks
  have hsourced := validateTransferRecordAgainstEpoch_sourced hvalid
  refine along_bind (along_save_rel fun store hsave => linked_written ?_) fun _ u _ => ?_
  · obtain ⟨hdesk, hlegible⟩ := saveEpochRecord_desk hsave hworld
    intro hbefore
    refine ⟨hlegible hbefore, ?_⟩
    rw [hdesk]
    exact .enter false (optional_eq_some.mpr hcurrent) (optional_eq_some.mpr htransfer) hphase
      hsourced htarget.symm hnumber.symm htoken.symm fun h => by cases h
  · exact along_modifyState (linked_written (deskStep_of_same rfl rfl))

/-- A transfer that arrives as a message. -/
theorem linked_handleAuthorityTransfer {channel : Channel} (hworld : token.worldId = site.world)
    (hkept : KeptBySigner C site.world trail e.node.store token) :
    Along (Linked (DeskStep site.world trail (site.peer C) false))
      (handleAuthorityTransfer C channel token) e := by
  refine along_readStore (along_check fun _ hchecks => ?_)
  simp only [authorityTransferChecks, validateTransfer, bind_eq_ok, ofStorage_eq_ok, ofCore_eq_ok,
    required_eq_ok, guardMessage_eq_ok, exists_const, hworld] at hchecks
  obtain ⟨_, _, _, hsigned, _, _, descriptor, hdescriptor, _, _, _, _, _, hsigner, member, hmember,
    _, _, _, _, _, _, _, hgeneration, hstored⟩ := hchecks
  refine along_bind (along_save_rel fun store hsave => linked_written ?_) fun _ u _ =>
    along_modifyState (linked_same rfl rfl)
  obtain ⟨hdesk, hlegible⟩ := saveTransferRecord_desk hsave hworld
  intro hbefore
  refine ⟨hlegible hbefore, ?_⟩
  rw [hdesk]
  apply Desk.Move.deliver ⟨hsigner, hkept hsigned descriptor member hdescriptor hmember⟩
  · intro epoch hepoch
    have hload : optional (loadEpochRecord site.world e.node.store) = some epoch := hepoch
    rw [hload] at hgeneration
    simp only [onSome, bind_eq_ok, guardMessage_eq_ok] at hgeneration
    obtain ⟨expected, hexpected, hnumber, htoken⟩ := hgeneration
    obtain ⟨hnext, hfence⟩ := nextGeneration_eq_ok hexpected
    exact ⟨hnumber.trans hnext, htoken.trans hfence⟩
  · intro old hold
    rw [optional_eq_some.mp hold] at hstored
    simp only [guardMessage_eq_ok] at hstored
    exact AuthorityTransferV1.sameTransfer_iff.mp hstored.2

end Commands

end SwarmCraft
