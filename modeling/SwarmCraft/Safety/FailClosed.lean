import SwarmCraft.System.Genesis

/-!
# Control records that do not load

A record file that is there and does not load is not a missing one: what it said is unknown. The
operations that decide by such a record either report the failure or go on as if the file were
missing. Which of the two an operation does is a matter of how it asks for the record.
-/

namespace SwarmCraft

open Checked

variable {C : Crypto} {site : Site} {world : WorldId}
variable {store : Store} {error : StorageError}

/-! ## Records and operations -/

/-- The control records whose loss matters. -/
inductive ControlRecord where
  | config
  | membership
  | membershipPromise
  | epoch
  | transfer
  deriving DecidableEq

/-- The operations that decide by them. -/
inductive Operation where
  | saveWorldConfig (config : WorldConfigV1)
  | promiseMembershipProposal (proposal : MembershipProposalV1) (vote : MembershipVoteV1)
  | saveMembershipRecord (record : MembershipRecordV1)
  | ensureNoMembershipPrepare
  | activeTransferForCurrentGeneration

variable {op : Operation}

/-- What an operation answers. -/
inductive Answer where
  | done
  | promised (result : MembershipPromiseResult)
  | transfer (found : Option AuthorityTransferV1)
  deriving DecidableEq

/-- The world whose directory an operation opens. -/
def Operation.opens (site : Site) : Operation → WorldId
  | .saveWorldConfig config => config.worldId
  | .promiseMembershipProposal proposal _ => proposal.proposed.worldId
  | .saveMembershipRecord record => record.worldId
  | .ensureNoMembershipPrepare | .activeTransferForCurrentGeneration => site.world

/-- The file of a record is there. -/
def WorldFiles.has (files : WorldFiles world) : ControlRecord → Bool
  | .config => files.worldConfig.exists
  | .membership => files.store.membership.exists
  | .membershipPromise => files.store.membershipPromise.exists
  | .epoch => files.store.epoch.exists
  | .transfer => files.store.transfer.exists

/-- The record loads. -/
def WorldFiles.loads (C : Crypto) (files : WorldFiles world) : ControlRecord → Bool
  | .config => (loadWorldConfig files).isOk
  | .membership => (loadMembershipRecord world files.store).isOk
  | .membershipPromise => (loadMembershipPromise C world files.store).isOk
  | .epoch => (loadEpochRecord world files.store).isOk
  | .transfer => (loadTransferRecord world files.store).isOk

/-- The file is there and its record does not load. -/
def WorldFiles.Damaged (C : Crypto) (files : WorldFiles world) (record : ControlRecord) : Prop :=
  files.has record = true ∧ files.loads C record = false

/-- The operation on the files of its world, if it succeeds. -/
def Operation.run (C : Crypto) (site : Site) (files : WorldFiles world) :
    Operation → Except DaemonError (Answer × WorldFiles world)
  | .saveWorldConfig config => do
    let files ← ofStorage (SwarmCraft.saveWorldConfig C config files)
    pure (.done, files)
  | .promiseMembershipProposal proposal vote =>
    let (result, store) := SwarmCraft.promiseMembershipProposal C proposal vote files.store
    pure (.promised result, files.withStore store)
  | .saveMembershipRecord record => do
    let store ← ofStorage (SwarmCraft.saveMembershipRecord C record files.store)
    pure (.done, files.withStore store)
  | .ensureNoMembershipPrepare => do
    SwarmCraft.ensureNoMembershipPrepare C site.world files.store
    pure (.done, files)
  | .activeTransferForCurrentGeneration => do
    let found ← activeTransfer C site files.store
    pure (.transfer found, files)

/-- The operation with the files it leaves: each writes once, as its last step, so one that fails
leaves them as they are. -/
def Operation.execute (C : Crypto) (site : Site) (files : WorldFiles world) (op : Operation) :
    Except DaemonError Answer × WorldFiles world :=
  match op.run C site files with
  | .ok (answer, files) => (.ok answer, files)
  | .error error => (.error error, files)

/-- The operation reports a failure and changes no file. -/
def Operation.FailsClosed (C : Crypto) (site : Site) (files : WorldFiles world) (op : Operation) :
    Prop :=
  ∃ error, op.execute C site files = (.error error, files)

/-- The operation asks for the record before it decides. -/
def Operation.consults (C : Crypto) (files : WorldFiles world) : Operation → ControlRecord → Bool
  | .saveWorldConfig _, .config => true
  | .saveWorldConfig config, .epoch =>
    decide (optional (loadWorldConfig files) ≠ some config.normalizeCanonical)
  | .saveWorldConfig config, .membership =>
    decide (optional (loadWorldConfig files) ≠ some config.normalizeCanonical) &&
      !files.loads C .epoch
  | .promiseMembershipProposal proposal vote, .membershipPromise =>
    proposal.validateShape C && vote.matchesProposal C proposal
  | .saveMembershipRecord _, .membership => true
  | .saveMembershipRecord record, .epoch =>
    decide (optional (loadMembershipRecord world files.store) ≠ some record)
  | .ensureNoMembershipPrepare, .membershipPromise => true
  | .activeTransferForCurrentGeneration, .epoch => true
  | .activeTransferForCurrentGeneration, .transfer => files.loads C .epoch
  | _, _ => false

/-- A configuration is well formed and one of the world. -/
def WorldConfigV1.FitsWorld (C : Crypto) (store : Store) (config : WorldConfigV1) : Prop :=
  config.validateSemantics = .ok () ∧ ∃ metadata,
    loadWorld C config.worldId store = .ok metadata ∧ config.worldId = metadata.worldId

/-- A record that is well formed and follows the stored one under its authority, or, where none is
stored, a certified one or a first one of epoch zero. -/
def MembershipRecordV1.BeforeEpoch (C : Crypto) (store : Store) (record : MembershipRecordV1) :
    Prop :=
  record.validateSemantics = .ok () ∧
    ((∃ current, loadMembershipRecord record.worldId store = .ok current ∧
        checkedSucc current.sequence = some record.sequence ∧
        record.previousMembershipHash = some (current.recordHash C) ∧
        record.epoch = current.epoch ∧ record.authorityPeerId = current.authorityPeerId ∧
        record.authorityPublicKey = current.authorityPublicKey) ∨
      store.membership.exists = false ∧ ∃ certified,
        certifiedMembershipBootstrap C record store = .ok certified ∧ (certified = true ∨
          record.sequence = 0 ∧ record.previousMembershipHash = none ∧ record.epoch = 0))

/-- When an operation is refused over a damaged record. Only the membership record is asked for by
`?`; the last three operations are never refused. -/
def Operation.RefusedOver (C : Crypto) (files : WorldFiles world) :
    Operation → ControlRecord → Prop
  | .saveWorldConfig _, .membership | .saveMembershipRecord _, .membership => True
  | .saveWorldConfig config, .config =>
    -- It is no first configuration by the authority of the epoch or the membership record.
    ¬ (config.normalizeCanonical.FitsWorld C files.store ∧ config.sequence = 1 ∧
      config.previousConfigHash = none ∧
      worldConfigAuthority config (loadMembershipRecord world files.store)
        (optional (loadEpochRecord world files.store)) = .ok ())
  | .saveWorldConfig config, .epoch =>
    -- It is no next configuration by the authority of the membership record.
    ¬ (config.normalizeCanonical.FitsWorld C files.store ∧
      worldConfigExtends C config.normalizeCanonical (optional (loadWorldConfig files)) = .ok () ∧
      ∃ membership, loadMembershipRecord world files.store = .ok membership ∧
        config.authorityPeerId = membership.authorityPeerId ∧
        config.authorityPublicKey = membership.authorityPublicKey)
  | .saveMembershipRecord record, .epoch => ¬ record.BeforeEpoch C files.store
  | _, _ => False

/-! ## Damaged files -/

/-- An operation fails closed exactly if it does not run through. -/
theorem Operation.failsClosed_iff {files : WorldFiles world} :
    op.FailsClosed C site files ↔ ∀ result, op.run C site files ≠ .ok result := by
  unfold FailsClosed execute
  cases op.run C site files with
  | ok result => simp
  | error error => simp

/-- A result that is not a success is a failure. -/
theorem error_of_isOk_false {ε α : Type} {x : Except ε α} (h : x.isOk = false) :
    ∃ error, x = .error error := by
  cases x with
  | ok a => cases h
  | error error => exact ⟨error, rfl⟩

/-- What does not load is treated as missing. -/
theorem optional_of_isOk_false {ε α : Type} {x : Except ε α} (h : x.isOk = false) :
    optional x = none := by
  obtain ⟨error, rfl⟩ := error_of_isOk_false h
  rfl

/-- When `save_world_config` succeeds. -/
theorem saveWorldConfig_passes {config : WorldConfigV1} {files : WorldFiles world} :
    (∃ files', saveWorldConfig C config files = .ok files') ↔
      config.normalizeCanonical.FitsWorld C files.store ∧
      (optional (loadConfigFile config.worldId files.worldConfig) = some config.normalizeCanonical ∨
        worldConfigExtends C config.normalizeCanonical
          (optional (loadConfigFile config.worldId files.worldConfig)) = .ok () ∧
        worldConfigAuthority config.normalizeCanonical
          (loadMembershipRecord config.worldId files.store)
          (optional (loadEpochRecord config.worldId files.store)) = .ok ()) := by
  have hworld : config.normalizeCanonical.worldId = config.worldId := rfl
  simp only [saveWorldConfig, asStorage, bind_eq_ok, mapError_eq_ok, ensure_eq_ok, hworld]
  constructor
  · rintro ⟨files', _, hvalid, metadata, hmetadata, _, hsame, hrest⟩
    refine ⟨⟨hvalid, metadata, hmetadata, hsame⟩, ?_⟩
    split at hrest
    · exact .inl ‹_›
    · obtain ⟨_, hextends, hrest⟩ := bind_eq_ok.mp hrest
      obtain ⟨_, hauthority, _⟩ := bind_eq_ok.mp hrest
      exact .inr ⟨hextends, hauthority⟩
  · rintro ⟨⟨hvalid, metadata, hmetadata, hsame⟩, hrest⟩
    by_cases hduplicate : optional (loadConfigFile config.worldId files.worldConfig) =
        some config.normalizeCanonical
    · exact ⟨files, (), hvalid, metadata, hmetadata, (), hsame, by rw [if_pos hduplicate]; rfl⟩
    · obtain ⟨hextends, hauthority⟩ := hrest.resolve_left hduplicate
      refine ⟨files.withConfig (.present config.normalizeCanonical), (), hvalid, metadata, hmetadata,
        (), hsame, ?_⟩
      rw [if_neg hduplicate, hextends, hauthority]
      rfl

/-- When `save_membership_record` succeeds with a new record and an epoch record that does not
load. -/
theorem saveMembershipRecord_epoch {record : MembershipRecordV1}
    (h : loadEpochRecord record.worldId store = .error error)
    (hnew : optional (loadMembershipRecord record.worldId store) ≠ some record) :
    (∃ store', saveMembershipRecord C record store = .ok store') ↔ record.BeforeEpoch C store := by
  simp only [saveMembershipRecord, h, asStorage, bind_eq_ok, mapError_eq_ok,
    MembershipRecordV1.BeforeEpoch]
  by_cases hexists : store.membership.exists = true
  · simp only [hexists, if_true, bind_eq_ok, Bool.true_eq_false, false_and, or_false]
    constructor
    · rintro ⟨_, _, hvalid, current, hcurrent, hrest⟩
      rw [if_neg fun hsame => hnew (by rw [hcurrent, hsame]; rfl)] at hrest
      simp only [bind_eq_ok, required_eq_ok, ensure_eq_ok] at hrest
      obtain ⟨_, hnext, _, ⟨rfl, hprevious, _⟩, _, hauthority, _⟩ := hrest
      exact ⟨hvalid, current, hcurrent, hnext, hprevious, hauthority⟩
    · rintro ⟨hvalid, current, hcurrent, hnext, hprevious, hauthority⟩
      refine ⟨{ store with membership := .present record }, (), hvalid, current, hcurrent, ?_⟩
      rw [if_neg fun hsame => hnew (by rw [hcurrent, hsame]; rfl)]
      simp only [bind_eq_ok, required_eq_ok, ensure_eq_ok]
      exact ⟨_, hnext, (), ⟨rfl, hprevious, hauthority.1.ge⟩, (), hauthority, rfl⟩
  · have habsent : ∀ current, loadMembershipRecord record.worldId store ≠ .ok current := by
      intro current hcurrent
      rw [(loadMembershipRecord_eq_ok.mp hcurrent).1] at hexists
      exact hexists rfl
    rw [Bool.not_eq_true] at hexists
    simp only [hexists, Bool.false_eq_true, if_false, habsent, false_and, exists_false, false_or,
      true_and, bind_eq_ok, ensure_eq_ok]
    constructor
    · rintro ⟨_, _, hvalid, certified, hcertified, _, hfirst, _, hepoch, _⟩
      refine ⟨hvalid, certified, hcertified, ?_⟩
      tauto
    · rintro ⟨hvalid, certified, hcertified, hfirst⟩
      refine ⟨_, (), hvalid, certified, hcertified, (), ?_, (), ?_, rfl⟩ <;> tauto

/-- A save of a configuration fails closed exactly if the storage refuses it. -/
theorem Operation.failsClosed_saveWorldConfig {config : WorldConfigV1} {files : WorldFiles world} :
    (Operation.saveWorldConfig config).FailsClosed C site files ↔
      ¬ ∃ files', SwarmCraft.saveWorldConfig C config files = .ok files' := by
  rw [failsClosed_iff]
  simp only [run, ne_eq, bind_eq_ok, ofStorage_eq_ok, pure_eq_ok]
  constructor
  · rintro h ⟨files', hsaved⟩
    exact h _ ⟨files', hsaved, rfl⟩
  · rintro h result ⟨files', hsaved, _⟩
    exact h ⟨files', hsaved⟩

/-- A save of a membership record fails closed exactly if the storage refuses it. -/
theorem Operation.failsClosed_saveMembershipRecord {record : MembershipRecordV1}
    {files : WorldFiles world} :
    (Operation.saveMembershipRecord record).FailsClosed C site files ↔
      ¬ ∃ store, SwarmCraft.saveMembershipRecord C record files.store = .ok store := by
  rw [failsClosed_iff]
  simp only [run, ne_eq, bind_eq_ok, ofStorage_eq_ok, pure_eq_ok]
  constructor
  · rintro h ⟨store, hsaved⟩
    exact h _ ⟨store, hsaved, rfl⟩
  · rintro h result ⟨store, hsaved, _⟩
    exact h ⟨store, hsaved⟩

/-- A damaged membership record stops both operations that ask for it. -/
theorem Operation.failsClosed_membership {files : WorldFiles world}
    (hopens : op.opens site = world) (hconsults : op.consults C files .membership = true)
    (hdamaged : files.Damaged C .membership) : op.FailsClosed C site files := by
  obtain ⟨error, herror⟩ := error_of_isOk_false hdamaged.2
  cases op with
  | saveWorldConfig config =>
    obtain rfl : config.worldId = world := hopens
    simp only [consults, WorldFiles.loads, Bool.and_eq_true, decide_eq_true_eq,
      Bool.not_eq_true'] at hconsults
    obtain ⟨hnew, hepoch⟩ := hconsults
    obtain ⟨_, hepoch⟩ := error_of_isOk_false hepoch
    rw [failsClosed_saveWorldConfig, saveWorldConfig_passes]
    rintro ⟨_, hduplicate | hchecks⟩
    · exact hnew hduplicate
    · rw [hepoch, herror] at hchecks
      cases hchecks.2
  | saveMembershipRecord record =>
    obtain rfl : record.worldId = world := hopens
    have hexists : files.store.membership.exists = true := hdamaged.1
    rw [failsClosed_saveMembershipRecord]
    rintro ⟨store, hsaved⟩
    rw [SwarmCraft.saveMembershipRecord, if_pos hexists, herror] at hsaved
    obtain ⟨_, _, hrest⟩ := bind_eq_ok.mp hsaved
    cases hrest
  | promiseMembershipProposal _ _ => cases hconsults
  | ensureNoMembershipPrepare => cases hconsults
  | activeTransferForCurrentGeneration => cases hconsults

/-- A damaged configuration or epoch record is taken for a missing one by `save_world_config`. -/
theorem Operation.failsClosed_config {files : WorldFiles world} {config : WorldConfigV1}
    {record : ControlRecord} (hopens : config.worldId = world)
    (hconsults : (saveWorldConfig config).consults C files record = true)
    (hdamaged : files.Damaged C record) (hlenient : record ≠ .membership) :
    (saveWorldConfig config).FailsClosed C site files ↔
      (saveWorldConfig config).RefusedOver C files record := by
  subst hopens
  rw [failsClosed_saveWorldConfig, saveWorldConfig_passes]
  have hload := hdamaged.2
  cases record with
  | config =>
    have hnone := optional_of_isOk_false hload
    rw [loadWorldConfig] at hnone
    simp only [hnone, RefusedOver, reduceCtorEq, false_or, worldConfigExtends, ensure_eq_ok,
      and_assoc]
    rfl
  | epoch =>
    have hnew := of_decide_eq_true hconsults
    rw [loadWorldConfig] at hnew
    simp only [optional_of_isOk_false hload, RefusedOver, hnew, false_or, worldConfigAuthority,
      bind_eq_ok, ensure_eq_ok]
    rfl
  | membership => exact absurd rfl hlenient
  | membershipPromise => cases hconsults
  | transfer => cases hconsults

/-- A prepare that does not load does not fence. -/
theorem Operation.run_ensureNoMembershipPrepare {files : WorldFiles site.world}
    (h : files.loads C .membershipPromise = false) :
    ensureNoMembershipPrepare.run C site files = .ok (.done, files) := by
  have hnone := optional_of_isOk_false h
  simp only [run, SwarmCraft.ensureNoMembershipPrepare, hnone, bind_eq_ok, guardMessage_eq_ok]
  exact ⟨(), trivial, rfl⟩

/-- Without an epoch record or a transfer record that loads no transfer is active. -/
theorem Operation.run_activeTransfer {files : WorldFiles site.world}
    (h : files.loads C .epoch = false ∨ files.loads C .transfer = false) :
    activeTransferForCurrentGeneration.run C site files = .ok (.transfer none, files) := by
  have hfound : activeTransfer C site files.store = .ok none := by
    rcases h with h | h
    · obtain ⟨error, herror⟩ := error_of_isOk_false h
      rw [activeTransfer, herror]
      rfl
    · obtain ⟨error, herror⟩ := error_of_isOk_false h
      rw [activeTransfer, herror]
      cases loadEpochRecord site.world files.store <;> rfl
  simp only [run, hfound]
  rfl

/-- With a damaged record, an operation that asks for the record fails closed exactly if it is one
that is refused over it. -/
theorem fails_closed_iff {files : WorldFiles world} {op : Operation} {record : ControlRecord}
    (hopens : op.opens site = world) (hconsults : op.consults C files record = true)
    (hdamaged : files.Damaged C record) :
    op.FailsClosed C site files ↔ op.RefusedOver C files record := by
  have hopen {result : Answer × WorldFiles world} (h : op.run C site files = .ok result) :
      ¬ op.FailsClosed C site files := fun hclosed => Operation.failsClosed_iff.mp hclosed result h
  have hload := hdamaged.2
  by_cases hrecord : record = .membership
  · subst hrecord
    refine iff_of_true (Operation.failsClosed_membership hopens hconsults hdamaged) ?_
    cases op with
    | saveWorldConfig _ => trivial
    | saveMembershipRecord _ => trivial
    | _ => cases hconsults
  cases op with
  | saveWorldConfig config =>
    exact Operation.failsClosed_config hopens hconsults hdamaged hrecord
  | saveMembershipRecord saved =>
    obtain rfl : saved.worldId = world := hopens
    rw [Operation.failsClosed_saveMembershipRecord]
    cases record with
    | epoch =>
      obtain ⟨error, herror⟩ := error_of_isOk_false hload
      rw [saveMembershipRecord_epoch herror (of_decide_eq_true hconsults)]
      rfl
    | membership => exact absurd rfl hrecord
    | _ => cases hconsults
  | promiseMembershipProposal proposal vote => exact iff_of_false (hopen rfl) id
  | ensureNoMembershipPrepare =>
    obtain rfl : site.world = world := hopens
    cases record with
    | membershipPromise =>
      exact iff_of_false (hopen (Operation.run_ensureNoMembershipPrepare hload)) id
    | _ => cases hconsults
  | activeTransferForCurrentGeneration =>
    obtain rfl : site.world = world := hopens
    cases record with
    | epoch => exact iff_of_false (hopen (Operation.run_activeTransfer (.inl hload))) id
    | transfer => exact iff_of_false (hopen (Operation.run_activeTransfer (.inr hload))) id
    | _ => cases hconsults

/-- The files of a founding member, with a configuration file. -/
def Founding.files (f : Founding) (file : DurableFile WorldConfigV1) : WorldFiles (f.world .ideal) where
  store := { f.store .ideal with soloPolicy := configPolicy (f.world .ideal) file }
  worldConfig := file
  policy := rfl

/-- The first configuration of a founded world. -/
def Founding.config (f : Founding) : WorldConfigV1 where
  protocolVersion := protocolVersionV1
  worldId := f.world .ideal
  sequence := 1
  previousConfigHash := none
  compatibility := ⟨"1.21.1", "fabric", "0.16.0", protocolVersionV1, "0.1.0", [], [], []⟩
  visibility := .private
  authorityPolicy := ⟨true, 2⟩
  membershipPolicy := .inviteOnly
  presentation := ⟨"world", "", [], none, none⟩
  authorityPeerId := Crypto.ideal.peerIdFromPublicKey f.authority
  authorityPublicKey := f.authority
  signature := .empty

/-- An unreadable membership record stops the next one, and the files stay as they are. -/
theorem fails_closed_membership :
    let f := Founding.numbered 2
    let site : Site := ⟨f.world .ideal, ⟨f.authority⟩, 0⟩
    let files := (f.files .absent).withStore { f.store .ideal with membership := .unreadable }
    (Operation.saveMembershipRecord (f.membership .ideal)).FailsClosed .ideal site files := by
  intro f site files
  have hiff := @fails_closed_iff .ideal site _ files (.saveMembershipRecord (f.membership .ideal))
    .membership rfl rfl ⟨rfl, rfl⟩
  exact hiff.mpr trivial

/-- The other records are taken for missing ones: an unreadable configuration and an unreadable
prepare are overwritten, an unreadable prepare does not fence, and an unreadable epoch or transfer
record hides an active transfer. -/
theorem damaged_records_overwritten :
    let f := Founding.numbered 2
    let site : Site := ⟨f.world .ideal, ⟨f.authority⟩, 0⟩
    let files := (f.files .unreadable).withStore { f.store .ideal with
      membershipPromise := .unreadable, transfer := .unreadable }
    let proposal := f.proposal .ideal (f.members .ideal)
    let vote := signMembershipVote .ideal ⟨f.authority⟩ proposal
    files.Damaged .ideal .config ∧ files.Damaged .ideal .membershipPromise ∧
      files.Damaged .ideal .transfer ∧
      ((Operation.saveWorldConfig f.config).execute .ideal site files).1 = .ok .done ∧
      ((Operation.saveWorldConfig f.config).execute .ideal site files).2.worldConfig =
        .present f.config ∧
      ((Operation.promiseMembershipProposal proposal vote).execute .ideal site files).1 =
        .ok (.promised .accepted) ∧
      ((Operation.promiseMembershipProposal proposal vote).execute .ideal site
        files).2.store.membershipPromise = .present ⟨proposal, vote⟩ ∧
      (Operation.ensureNoMembershipPrepare.execute .ideal site files).1 = .ok .done ∧
      (Operation.activeTransferForCurrentGeneration.execute .ideal site files).1 =
        .ok (.transfer none) := by
  refine ⟨⟨?_, ?_⟩, ⟨?_, ?_⟩, ⟨?_, ?_⟩, ?_, ?_, ?_, ?_, ?_, ?_⟩ <;> decide +kernel

end SwarmCraft
