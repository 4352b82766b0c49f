import SwarmCraft.Safety.FailClosed

/-!
# Chains of stored records

Configurations, membership records and epoch records are saved in any order. A store whose
files can be read only ever replaces a configuration by its successor, signed by the
authority of the accepted epoch, and a membership record by its successor. The first
membership record is another matter: what the network handler admits as one, the store
refuses.
-/

namespace SwarmCraft

open Checked Succession

variable (C : Crypto)
variable {config : WorldConfigV1} {store : Store} {record : MembershipRecordV1}

/-! ## Saving records of any world -/

/-- The files of every world. -/
abbrev Shelf : Type := (world : WorldId) → WorldFiles world

variable {shelf : Shelf}

/-- A record that is saved. -/
inductive SaveCall where
  | worldConfig (config : WorldConfigV1)
  | membershipRecord (record : MembershipRecordV1)
  | epochRecord (record : EpochRecordV1)
  deriving DecidableEq

/-- The world whose files are locked and written. -/
def SaveCall.world : SaveCall → WorldId
  | .worldConfig config => config.worldId
  | .membershipRecord record => record.worldId
  | .epochRecord record => record.worldId

/-- The save function of a record. -/
def SaveCall.run {world : WorldId} (files : WorldFiles world) :
    SaveCall → Except StorageError (WorldFiles world)
  | .worldConfig config => saveWorldConfig C config files
  | .membershipRecord record => do
    let store ← saveMembershipRecord C record files.store
    pure (files.withStore store)
  | .epochRecord record => do
    let store ← saveEpochRecord record files.store
    pure (files.withStore store)

/-- The files after a call; a call that fails leaves them alone. -/
def Shelf.perform (shelf : Shelf) (call : SaveCall) : Shelf :=
  match call.run C (shelf call.world) with
  | .ok files => Function.update shelf call.world files
  | .error _ => shelf

/-- The files at first and after each call. -/
def Shelf.states (shelf : Shelf) : List SaveCall → List Shelf
  | [] => [shelf]
  | call :: rest => shelf :: (shelf.perform C call).states rest

/-- The record in a file. -/
def DurableFile.held {α : Type} : DurableFile α → Option α
  | .present value => some value
  | _ => none

/-- The successive configurations of a world. -/
def storedConfigs (world : WorldId) (states : List Shelf) : List WorldConfigV1 :=
  successive (states.map fun shelf => (shelf world).worldConfig.held)

/-- The successive membership records of a world. -/
def storedMemberships (world : WorldId) (states : List Shelf) : List MembershipRecordV1 :=
  successive (states.map fun shelf => (shelf world).store.membership.held)

/-- A configuration names the authority of the accepted epoch, or the one of the membership record
where there is no epoch. -/
def WorldConfigV1.AuthorizedIn {world : WorldId} (config : WorldConfigV1)
    (files : WorldFiles world) : Prop :=
  match files.store.epoch with
  | .present epoch => config.authorityPeerId = epoch.authorityPeerId ∧
      config.authorityPublicKey = epoch.authorityPublicKey
  | _ => ∃ membership, files.store.membership = .present membership ∧
      config.authorityPeerId = membership.authorityPeerId ∧
      config.authorityPublicKey = membership.authorityPublicKey

/-- A configuration directly follows another one. -/
structure WorldConfigV1.Follows (old new : WorldConfigV1) : Prop where
  sequence : new.sequence = old.sequence + 1
  previous : new.previousConfigHash = some (old.configHash C)

/-- A membership record directly follows another one. -/
structure MembershipRecordV1.Follows (old new : MembershipRecordV1) : Prop where
  sequence : new.sequence = old.sequence + 1
  previous : new.previousMembershipHash = some (old.recordHash C)

/-- Each of the three files is missing or can be loaded. -/
structure WorldFiles.Readable {world : WorldId} (files : WorldFiles world) : Prop where
  config : files.worldConfig = .absent ∨ ∃ config, loadWorldConfig files = .ok config
  epoch : files.store.epoch = .absent ∨ ∃ record, loadEpochRecord world files.store = .ok record
  membership : files.store.membership = .absent ∨
    ∃ record, loadMembershipRecord world files.store = .ok record

variable {C} {world : WorldId}

/-! ## One call -/

/-- A loaded configuration is the stored one and belongs to the world. -/
theorem loadConfigFile_eq_ok {file : DurableFile WorldConfigV1} :
    loadConfigFile world file = .ok config ↔
      file = .present config ∧ config.worldId = world ∧ config.validateSemantics = .ok () := by
  simp [loadConfigFile, requireWorld, asStorage]

/-- What a call that saved a configuration did to readable files. -/
theorem saveWorldConfig_eq_ok {files files' : WorldFiles world}
    (hworld : config.worldId = world) (hreadable : files.Readable)
    (h : saveWorldConfig C config files = .ok files') :
    files' = files ∨ ∃ new, files' = files.withConfig (.present new) ∧
      loadConfigFile world (.present new) = .ok new ∧ new.AuthorizedIn files ∧
      match files.worldConfig.held with
      | none => new.sequence = 1 ∧ new.previousConfigHash = none
      | some old => WorldConfigV1.Follows C old new := by
  simp only [saveWorldConfig, bind_eq_ok, ensure_eq_ok, asStorage, mapError_eq_ok, exists_const] at h
  obtain ⟨_, hvalid, metadata, hmetadata, hsame, h⟩ := h
  have hnormal : config.normalizeCanonical.worldId = world := hworld
  rw [hnormal] at h
  split at h
  · simp only [pure_eq_ok] at h
    exact .inl h.symm
  · simp only [bind_eq_ok, pure_eq_ok] at h
    obtain ⟨_, hextends, _, hauthority, rfl⟩ := h
    refine .inr ⟨config.normalizeCanonical, rfl, loadConfigFile_eq_ok.mpr ⟨rfl, hnormal, hvalid⟩,
      ?_, ?_⟩
    · rcases hreadable.epoch with habsent | ⟨epoch, hload⟩
      · have hnone : Checked.optional (loadEpochRecord world files.store) = none := by
          rw [loadEpochRecord, habsent]
          rfl
        rw [hnone] at hauthority
        simp only [worldConfigAuthority, bind_eq_ok, ensure_eq_ok] at hauthority
        obtain ⟨membership, hmembership, hpeer, hkey⟩ := hauthority
        rw [WorldConfigV1.AuthorizedIn, habsent]
        exact ⟨membership, (loadMembershipRecord_eq_ok.mp hmembership).1, hpeer, hkey⟩
      · rw [hload] at hauthority
        simp only [Checked.optional, worldConfigAuthority, ensure_eq_ok] at hauthority
        rw [WorldConfigV1.AuthorizedIn, (loadEpochRecord_eq_ok.mp hload).1]
        exact hauthority
    · rcases hreadable.config with habsent | ⟨old, hload⟩
      · have hnone : Checked.optional (loadConfigFile world files.worldConfig) = none := by
          rw [habsent]
          rfl
        rw [hnone] at hextends
        simp only [worldConfigExtends, ensure_eq_ok] at hextends
        rw [habsent]
        exact hextends
      · rw [loadWorldConfig] at hload
        rw [hload] at hextends
        simp only [Checked.optional, worldConfigExtends, bind_eq_ok, ensure_eq_ok, required_eq_ok,
          exists_const] at hextends
        obtain ⟨_, expected, hexpected, rfl, hprevious⟩ := hextends
        rw [(loadConfigFile_eq_ok.mp hload).1]
        exact ⟨(checkedSucc_eq_some.mp hexpected).2, hprevious⟩

variable (C) in
/-- What one call may do to the files of a world: the configuration and the membership record stay
or are followed by their successors, and the files stay readable. -/
structure WorldFiles.Succeeds (before after : WorldFiles world) : Prop where
  readable : after.Readable
  config : Succession.Succeeds (WorldConfigV1.Follows C) before.worldConfig.held
    after.worldConfig.held
  firstConfig : before.worldConfig.held = none → ∀ new ∈ after.worldConfig.held,
    new.sequence = 1 ∧ new.previousConfigHash = none
  authority : after.worldConfig ≠ before.worldConfig → ∃ new, after.worldConfig = .present new ∧
    new.AuthorizedIn before
  membership : Succession.Succeeds (MembershipRecordV1.Follows C) before.store.membership.held
    after.store.membership.held

theorem WorldFiles.Succeeds.refl {files : WorldFiles world} (h : files.Readable) :
    files.Succeeds C files where
  readable := h
  config := .inl rfl
  firstConfig hnone new hnew := by
    rw [hnone] at hnew
    cases hnew
  authority hchanged := absurd rfl hchanged
  membership := .inl rfl

theorem WorldFiles.Succeeds.saveWorldConfig {files files' : WorldFiles world}
    (hworld : config.worldId = world) (hreadable : files.Readable)
    (h : saveWorldConfig C config files = .ok files') : files.Succeeds C files' := by
  rcases saveWorldConfig_eq_ok hworld hreadable h with rfl | ⟨new, rfl, hload, hauthority, hnew⟩
  · exact .refl hreadable
  · refine ⟨⟨.inr ⟨new, hload⟩, hreadable.epoch, hreadable.membership⟩, .inr ⟨new, rfl, ?_⟩, ?_,
      fun _ => ⟨new, rfl, hauthority⟩, .inl rfl⟩
    · intro old hold
      rw [hold] at hnew
      exact hnew
    · rintro hnone _ ⟨⟩
      rw [hnone] at hnew
      exact hnew

/-- Another store beside the same configuration. -/
theorem WorldFiles.Succeeds.withStore {files : WorldFiles world}
    (hreadable : (files.withStore store).Readable)
    (hmembership : Succession.Succeeds (MembershipRecordV1.Follows C)
      files.store.membership.held store.membership.held) :
    files.Succeeds C (files.withStore store) where
  readable := hreadable
  config := .inl rfl
  firstConfig hnone new hnew := by
    change files.worldConfig.held = some new at hnew
    rw [hnone] at hnew
    cases hnew
  authority hchanged := absurd rfl hchanged
  membership := hmembership

theorem WorldFiles.Succeeds.saveMembershipRecord
    {files : WorldFiles world} (hworld : record.worldId = world)
    (hreadable : files.Readable) (h : saveMembershipRecord C record files.store = .ok store) :
    files.Succeeds C (files.withStore store) := by
  have hload := loadMembershipRecord_saved h
  rw [hworld] at hload
  obtain ⟨rfl, hfile, _⟩ := saveMembershipRecord_eq_ok h
  refine .withStore ⟨hreadable.config, hreadable.epoch, .inr ⟨record, hload⟩⟩ ?_
  rcases hfile with habsent | hsame | ⟨current, hcurrent, hsequence, hprevious⟩
  · refine .inr ⟨record, rfl, fun old hold => ?_⟩
    rw [habsent] at hold
    cases hold
  · rw [hsame]
    exact .inl rfl
  · refine .inr ⟨record, rfl, fun old hold => ?_⟩
    rw [hcurrent] at hold
    cases hold
    exact ⟨hsequence, hprevious⟩

theorem WorldFiles.Succeeds.saveEpochRecord {record : EpochRecordV1} {files : WorldFiles world}
    (hworld : record.worldId = world) (hreadable : files.Readable)
    (h : saveEpochRecord record files.store = .ok store) :
    files.Succeeds C (files.withStore store) := by
  have hvalid := saveEpochRecord_valid h
  obtain ⟨rfl, _⟩ := saveEpochRecord_eq_ok h
  have hload : loadEpochRecord world { files.store with epoch := .present record } = .ok record :=
    loadEpochRecord_eq_ok.mpr ⟨rfl, hworld, hvalid⟩
  exact .withStore ⟨hreadable.config, .inr ⟨record, hload⟩, hreadable.membership⟩ (.inl rfl)

/-- One call, seen from the files of any world. -/
theorem Shelf.perform_succeeds (hreadable : (shelf world).Readable)
    (call : SaveCall) : (shelf world).Succeeds C (shelf.perform C call world) := by
  unfold Shelf.perform
  cases hrun : call.run C (shelf call.world) with
  | error error => exact .refl hreadable
  | ok files =>
    by_cases hworld : world = call.world
    · subst hworld
      simp only [Function.update_self]
      cases call with
      | worldConfig config => exact .saveWorldConfig rfl hreadable hrun
      | membershipRecord record =>
        simp only [SaveCall.run, bind_eq_ok, pure_eq_ok] at hrun
        obtain ⟨store, hsave, rfl⟩ := hrun
        exact .saveMembershipRecord rfl hreadable hsave
      | epochRecord record =>
        simp only [SaveCall.run, bind_eq_ok, pure_eq_ok] at hrun
        obtain ⟨store, hsave, rfl⟩ := hrun
        exact .saveEpochRecord rfl hreadable hsave
    · simp only [Function.update_of_ne hworld]
      exact .refl hreadable

/-! ## Any number of calls -/

/-- The states start with the first one. -/
theorem Shelf.states_eq_cons (shelf : Shelf) (calls : List SaveCall) :
    ∃ rest, shelf.states C calls = shelf :: rest := by
  cases calls with
  | nil => exact ⟨[], rfl⟩
  | cons call rest => exact ⟨_, rfl⟩

/-- Each state of a world succeeds the one before. -/
theorem Shelf.states_chain (hreadable : (shelf world).Readable) (calls : List SaveCall) :
    (shelf.states C calls).IsChain fun before after => (before world).Succeeds C (after world) := by
  induction calls generalizing shelf with
  | nil => exact .singleton shelf
  | cons call rest ih =>
    have hstep := Shelf.perform_succeeds (C := C) hreadable call
    have hrest := ih hstep.readable
    obtain ⟨later, hlater⟩ := (shelf.perform C call).states_eq_cons (C := C) rest
    rw [Shelf.states]
    rw [hlater] at hrest ⊢
    exact .cons_cons hstep hrest

/-- Whatever is saved in whatever order: the configurations of a world have the sequences one, two,
three and so on, each names the hash of the one before and the authority of the epoch that was
accepted when it was saved, and each membership record follows the one before. -/
theorem stored_records_chain {shelf : Shelf} (hreadable : (shelf world).Readable)
    (hfirst : (shelf world).worldConfig = .absent) (calls : List SaveCall) :
    let states := shelf.states C calls
    (storedConfigs world states).map WorldConfigV1.sequence =
        List.range' 1 (storedConfigs world states).length ∧
      (storedConfigs world states).IsChain (WorldConfigV1.Follows C) ∧
      states.IsChain (fun before after =>
        (after world).worldConfig ≠ (before world).worldConfig →
          ∃ new, (after world).worldConfig = .present new ∧ new.AuthorizedIn (before world)) ∧
      (storedMemberships world states).IsChain (MembershipRecordV1.Follows C) := by
  intro states
  have hstates : states.IsChain fun before after => (before world).Succeeds C (after world) :=
    Shelf.states_chain hreadable calls
  have hconfigs : (storedConfigs world states).IsChain (WorldConfigV1.Follows C) := by
    apply chain_successive
    rw [List.isChain_map]
    exact hstates.imp fun _ _ h => h.config
  have hmemberships : (storedMemberships world states).IsChain (MembershipRecordV1.Follows C) := by
    apply chain_successive
    rw [List.isChain_map]
    exact hstates.imp fun _ _ h => h.membership
  refine ⟨?_, hconfigs, hstates.imp fun _ _ h => h.authority, hmemberships⟩
  apply eq_range_of_chain (hconfigs.imp fun _ _ h => h.sequence)
  -- The file is missing at first, so the first configuration has sequence one.
  obtain ⟨rest, hrest⟩ := shelf.states_eq_cons (C := C) calls
  have hslots : states.map (fun shelf => (shelf world).worldConfig.held) =
      none :: rest.map fun shelf => (shelf world).worldConfig.held := by
    change (shelf.states C calls).map _ = _
    rw [hrest, List.map_cons, hfirst]
    rfl
  have hfirsts : (none :: rest.map fun shelf => (shelf world).worldConfig.held).IsChain
      fun before after => before = none → ∀ new ∈ after, new.sequence = 1 := by
    rw [← hslots, List.isChain_map]
    exact hstates.imp fun _ _ h hnone new hnew => (h.firstConfig hnone new hnew).1
  rw [storedConfigs, hslots]
  exact head_successive hfirsts

/-- A configuration after the first one, by the first authority. -/
def Founding.secondConfig (f : Founding) : WorldConfigV1 :=
  { f.config with
    sequence := 2
    previousConfigHash := some (f.config.normalizeCanonical.configHash .ideal) }

/-- A founded world saves its first two configurations, with a repetition in between. -/
theorem stored_records_chain_founding :
    let f := Founding.numbered 2
    let shelf : Shelf := fun _ =>
      ⟨{ f.store .ideal with soloPolicy := none }, .absent, rfl⟩
    let calls : List SaveCall :=
      [.worldConfig f.config, .worldConfig f.config, .worldConfig f.secondConfig]
    (storedConfigs (f.world .ideal) (shelf.states .ideal calls)).length = 2 ∧
      (storedConfigs (f.world .ideal) (shelf.states .ideal calls)).map WorldConfigV1.sequence =
        List.range' 1 (storedConfigs (f.world .ideal) (shelf.states .ideal calls)).length := by
  intro f shelf calls
  have hreadable : (shelf (f.world .ideal)).Readable := by
    refine ⟨.inl rfl, .inr ⟨f.epoch .ideal, ?_⟩, .inr ⟨f.membership .ideal, ?_⟩⟩
    · decide +kernel
    · decide +kernel
  exact ⟨by decide +kernel, (stored_records_chain hreadable rfl calls).1⟩

/-! ## The first membership record -/

variable (C) in
/-- A membership record from the network passes all checks that precede its save. -/
structure AdmittedMembership (record : MembershipRecordV1) (store : Store) : Prop where
  checks : membershipChecks C record store = .ok ()
  follows : followsCommittedMembership C record store = .ok ()
  described : ∃ descriptor, loadWorldDescriptor record.worldId store = .ok descriptor

/-- A record that a certificate introduces names its predecessor. -/
theorem certifiedMembershipBootstrap_previous
    (h : certifiedMembershipBootstrap C record store = .ok true) :
    record.previousMembershipHash ≠ none := by
  unfold certifiedMembershipBootstrap at h
  split at h
  · simp only [bind_eq_ok, pure_eq_ok, Bool.and_eq_true, decide_eq_true_eq] at h
    obtain ⟨certificate, _, pendingJoin, _, metadata, _, ⟨⟨⟨⟨⟨⟨⟨hshape, hproposed⟩, _⟩, _⟩, _⟩, _⟩, _⟩,
      _⟩⟩ := h
    simp only [MembershipProposalV1.validateShape, Bool.and_eq_true, decide_eq_true_eq] at hshape
    obtain ⟨⟨⟨⟨_, hprevious⟩, _⟩, _⟩, _⟩ := hshape
    rw [← hproposed, hprevious]
    simp
  · cases h

/-- A first record that the handler admits is not one that the store accepts: the handler asks for
the sequence one without a predecessor, the store for the sequence zero or a certificate. -/
theorem bootstrap_stored_iff {record : MembershipRecordV1} {store : Store}
    (hnone : ∀ current, loadMembershipRecord record.worldId store ≠ .ok current) :
    (AdmittedMembership C record store →
      ∃ store', saveMembershipRecord C record store = .ok store') ↔
      ¬ AdmittedMembership C record store := by
  refine ⟨fun hstored hadmitted => ?_, fun hnot hadmitted => absurd hadmitted hnot⟩
  obtain ⟨store', hsave⟩ := hstored hadmitted
  have hfollows := hadmitted.follows
  cases hload : loadMembershipRecord record.worldId store with
  | ok current => exact hnone current hload
  | error error =>
    simp only [followsCommittedMembership, hload, guardMessage, ensure_eq_ok] at hfollows
    obtain ⟨hsequence, hprevious⟩ := hfollows
    simp only [saveMembershipRecord, bind_eq_ok] at hsave
    obtain ⟨_, _, hsave⟩ := hsave
    split at hsave
    · simp only [hload, bind_eq_ok] at hsave
      obtain ⟨_, hfound, _⟩ := hsave
      cases hfound
    · simp only [bind_eq_ok, ensure_eq_ok, exists_const] at hsave
      obtain ⟨certified, hcertified, hfirst, _⟩ := hsave
      rcases hfirst with rfl | ⟨hzero, _⟩
      · exact certifiedMembershipBootstrap_previous hcertified hprevious
      · omega

/-- A membership record of the first authority without a predecessor, in place of the founding
one. -/
def Founding.restated (f : Founding) (number : Nat) : MembershipRecordV1 :=
  { f.unsignedMembership .ideal with
    sequence := number
    signature := Crypto.ideal.sign f.authority
      (.membership { f.unsignedMembership .ideal with sequence := number }) }

/-- The founding record itself is not admitted where it is missing. -/
theorem bootstrap_stored_founding :
    let f := Founding.numbered 2
    let store := { f.store .ideal with membership := .absent }
    AdmittedMembership .ideal (f.restated 0) store →
      ∃ store', saveMembershipRecord .ideal (f.restated 0) store = .ok store' := by
  intro f store
  have hnone : ∀ current, loadMembershipRecord (f.restated 0).worldId store ≠ .ok current := by
    intro current hload
    cases (loadMembershipRecord_eq_ok.mp hload).1
  refine (bootstrap_stored_iff hnone).mpr fun hadmitted => ?_
  exact absurd hadmitted.follows (by decide +kernel)

/-- A member without a membership record admits the record with sequence one and cannot store
it. -/
theorem bootstrap_refused :
    let f := Founding.numbered 2
    let store := { f.store .ideal with membership := .absent }
    AdmittedMembership .ideal (f.restated 1) store ∧
      saveMembershipRecord .ideal (f.restated 1) store = .error .worldMetadataMismatch ∧
      (handleMembership .ideal ⟨⟨2⟩, ⟨1⟩, 0⟩ (f.restated 1)
        (Exec.start (f.node .ideal store))).1 =
          .error (.storage .worldMetadataMismatch) := by
  intro f store
  have hdescribed : loadWorldDescriptor (f.restated 1).worldId store =
      .ok (f.descriptor .ideal) := by decide +kernel
  exact ⟨⟨by decide +kernel, by decide +kernel, _, hdescribed⟩, by decide +kernel,
    by decide +kernel⟩

end SwarmCraft
