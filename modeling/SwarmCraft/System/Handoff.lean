import SwarmCraft.Daemon.Runtime
import SwarmCraft.Core.Transition

/-!
# The hand-off protocol

A manual transfer in terms of what each peer keeps on its desk: the accepted epoch record and one
transfer record. The source prepares a transfer, the target accepts it, the source commits it and
the target enters the next generation; others follow. A record that arrives from elsewhere was
signed by its signer, who kept it. The trail lists what was ever on a desk and which generations
were entered, the newest first.
-/

namespace SwarmCraft

open Transition Function

/-- What two phases of one transfer have in common. -/
structure TransferKey where
  source : PeerId
  target : PeerId
  base : Hash32
  nextEpoch : Nat
  nextFencingToken : Nat
  deriving DecidableEq

/-- The transfer that a record is a phase of. -/
def AuthorityTransferV1.key (record : AuthorityTransferV1) : TransferKey where
  source := record.fromPeerId
  target := record.toPeerId
  base := record.baseSnapshotHash
  nextEpoch := record.nextEpoch
  nextFencingToken := record.nextFencingToken

/-- Phases of one transfer agree on its terms. -/
theorem AuthorityTransferV1.key_eq_key {a b : AuthorityTransferV1} : a.key = b.key ↔
    a.fromPeerId = b.fromPeerId ∧ a.toPeerId = b.toPeerId ∧
      a.baseSnapshotHash = b.baseSnapshotHash ∧ a.nextEpoch = b.nextEpoch ∧
      a.nextFencingToken = b.nextFencingToken := TransferKey.mk.injEq .. ▸ Iff.rfl

/-- The comparison of the source code is equality of keys. -/
theorem AuthorityTransferV1.sameTransfer_iff {a b : AuthorityTransferV1} :
    a.sameTransfer b = true ↔ a.key = b.key := by
  simp [sameTransfer, key, and_assoc]

/-- What a peer keeps of the control files that a transfer touches. -/
structure Desk where
  epoch : Option EpochRecordV1
  file : Option AuthorityTransferV1

/-- What happened at a desk. -/
inductive HandoffEvent where
  /-- The transfer file held this record. -/
  | held (peer : PeerId) (record : AuthorityTransferV1)
  /-- A generation was entered on the ground of a transfer, by activating it or by following. -/
  | entered (peer : PeerId) (record : AuthorityTransferV1) (epoch : EpochRecordV1)
      (activated : Bool)

/-- All desks, and what happened at them, the newest first. -/
structure Handoff where
  desks : PeerId → Desk
  trail : List HandoffEvent

/-- The transfer leads from the accepted generation to the next one. -/
def Sourced (epoch : EpochRecordV1) (record : AuthorityTransferV1) : Prop :=
  record.fromPeerId = epoch.authorityPeerId ∧ record.nextEpoch = epoch.epochNumber + 1 ∧
    record.nextFencingToken = epoch.fencingToken + 1

/-- The right participant signed the record, and kept it when it did. -/
def Vouched (trail : List HandoffEvent) (record : AuthorityTransferV1) : Prop :=
  record.signerPeerId = record.expectedSigner ∧ ∃ own,
    HandoffEvent.held record.signerPeerId own ∈ trail ∧ own.key = record.key ∧
      own.phase = record.phase

/-- What a peer may do at its desk. -/
inductive Desk.Move (trail : List HandoffEvent) (peer : PeerId) (desk : Desk) :
    Bool → Desk → Prop
  /-- Nothing that matters here. -/
  | stay (activates : Bool) : Desk.Move trail peer desk activates desk
  /-- The authority prepares a transfer, unless one leads from the accepted generation already. -/
  | prepare {epoch : EpochRecordV1} {record : AuthorityTransferV1}
      (hepoch : desk.epoch = some epoch) (hauthority : epoch.authorityPeerId = peer)
      (hphase : record.phase = .prepared) (hsourced : Sourced epoch record)
      (hsigner : record.signerPeerId = record.expectedSigner)
      (hfile : ∀ old, desk.file = some old → ¬ Sourced epoch old) :
      Desk.Move trail peer desk false ⟨desk.epoch, some record⟩
  /-- A record that leads from the accepted generation arrives as a token. -/
  | receive {epoch : EpochRecordV1} {record : AuthorityTransferV1} (activates : Bool)
      (hepoch : desk.epoch = some epoch) (hsourced : Sourced epoch record)
      (hvouched : Vouched trail record)
      (hfile : ∀ old, desk.file = some old → Sourced epoch old → old.key = record.key) :
      Desk.Move trail peer desk activates ⟨desk.epoch, some record⟩
  /-- The target accepts, or the source commits, the record on its desk. -/
  | sign {epoch : EpochRecordV1} {old record : AuthorityTransferV1}
      (hepoch : desk.epoch = some epoch) (hfile : desk.file = some old)
      (hsourced : Sourced epoch old) (hkey : record.key = old.key)
      (hsigner : record.signerPeerId = record.expectedSigner)
      (hphase : old.phase = .prepared ∧ record.phase = .accepted ∧ old.toPeerId = peer ∨
        old.phase = .accepted ∧ record.phase = .committed ∧ old.fromPeerId = peer) :
      Desk.Move trail peer desk false ⟨desk.epoch, some record⟩
  /-- A record arrives as a message; it does not replace another transfer. -/
  | deliver {record : AuthorityTransferV1} (hvouched : Vouched trail record)
      (hepoch : ∀ epoch, desk.epoch = some epoch → record.nextEpoch = epoch.epochNumber + 1 ∧
        record.nextFencingToken = epoch.fencingToken + 1)
      (hfile : ∀ old, desk.file = some old → old.key = record.key) :
      Desk.Move trail peer desk false ⟨desk.epoch, some record⟩
  /-- The next generation is entered on the ground of the committed transfer on the desk. -/
  | enter {epoch next : EpochRecordV1} {record : AuthorityTransferV1} (activates : Bool)
      (hepoch : desk.epoch = some epoch) (hfile : desk.file = some record)
      (hphase : record.phase = .committed) (hsourced : Sourced epoch record)
      (hauthority : next.authorityPeerId = record.toPeerId)
      (hnumber : next.epochNumber = record.nextEpoch)
      (htoken : next.fencingToken = record.nextFencingToken)
      (hself : activates = true → record.toPeerId = peer) :
      Desk.Move trail peer desk activates ⟨some next, desk.file⟩

/-- What is noted when a desk changes. -/
def Desk.events (peer : PeerId) (activates : Bool) (before after : Desk) : List HandoffEvent :=
  (match after.epoch, after.file with
    | some epoch, some record =>
      if before.epoch = after.epoch then [] else [.entered peer record epoch activates]
    | _, _ => []) ++ (after.file.map (HandoffEvent.held peer)).toList

/-- A desk changes. -/
def Handoff.put (s : Handoff) (peer : PeerId) (activates : Bool) (desk : Desk) : Handoff where
  desks := update s.desks peer desk
  trail := (s.desks peer).events peer activates desk ++ s.trail

/-- One step of the protocol. -/
def Handoff.Step (s t : Handoff) : Prop :=
  ∃ peer activates desk, Desk.Move s.trail peer (s.desks peer) activates desk ∧
    t = s.put peer activates desk

section Invariant

variable {trail new : List HandoffEvent} {s t : Handoff} {peer : PeerId} {desk after : Desk}
  {activates : Bool} {record : AuthorityTransferV1} {founding epoch : EpochRecordV1}

/-- The earlier phases of a record were kept by those who signed them. -/
structure Backed (trail : List HandoffEvent) (record : AuthorityTransferV1) : Prop where
  prepared : ∃ own, HandoffEvent.held record.fromPeerId own ∈ trail ∧ own.key = record.key ∧
    own.phase = .prepared
  accepted : record.phase ≠ .prepared → ∃ own, HandoffEvent.held record.toPeerId own ∈ trail ∧
    own.key = record.key ∧ own.phase = .accepted
  committed : record.phase = .committed → ∃ own,
    HandoffEvent.held record.fromPeerId own ∈ trail ∧ own.key = record.key ∧
      own.phase = .committed

/-- The record was accepted at some time. -/
def AcceptedIn (founding : EpochRecordV1) (trail : List HandoffEvent) (epoch : EpochRecordV1) :
    Prop :=
  epoch = founding ∨ ∃ peer record activated, .entered peer record epoch activated ∈ trail

theorem Backed.mono (h : Backed trail record) (hsub : trail ⊆ new) : Backed new record where
  prepared := h.prepared.imp fun _ hown => ⟨hsub hown.1, hown.2⟩
  accepted hphase := (h.accepted hphase).imp fun _ hown => ⟨hsub hown.1, hown.2⟩
  committed hphase := (h.committed hphase).imp fun _ hown => ⟨hsub hown.1, hown.2⟩

/-- Backing depends on the transfer and the phase alone. -/
theorem Backed.congr {other : AuthorityTransferV1} (h : Backed trail record)
    (hkey : record.key = other.key) (hphase : record.phase = other.phase) : Backed trail other := by
  obtain ⟨hsource, htarget, _⟩ := AuthorityTransferV1.key_eq_key.mp hkey
  obtain ⟨hprepared, haccepted, hcommitted⟩ := h
  rw [hsource, hkey] at hprepared hcommitted
  rw [htarget, hkey, hphase] at haccepted
  rw [hphase] at hcommitted
  exact ⟨hprepared, haccepted, hcommitted⟩

/-- What holds of the desk of one peer. -/
structure DeskSound (trail : List HandoffEvent) (peer : PeerId) (desk : Desk) : Prop where
  /-- The file is in the trail. -/
  file : ∀ record, desk.file = some record → .held peer record ∈ trail
  /-- What was held is not forgotten. -/
  kept : ∀ record, .held peer record ∈ trail → desk.file ≠ none
  /-- What was held does not lead beyond the next generation. -/
  bound : ∀ record epoch, .held peer record ∈ trail → desk.epoch = some epoch →
    record.nextEpoch ≤ epoch.epochNumber + 1 ∧ (record.nextEpoch = epoch.epochNumber + 1 →
      record.nextFencingToken = epoch.fencingToken + 1)
  /-- A transfer of the peer itself from the accepted generation is the one on its desk. -/
  own : ∀ record epoch, .held peer record ∈ trail → record.fromPeerId = peer →
    desk.epoch = some epoch → record.nextEpoch = epoch.epochNumber + 1 →
      epoch.authorityPeerId = peer ∧ ∃ current, desk.file = some current ∧
        current.key = record.key
  /-- A peer without an accepted record never was a source. -/
  absent : desk.epoch = none → ∀ record, .held peer record ∈ trail → record.fromPeerId ≠ peer

/-- What holds of the protocol. -/
structure Handoff.Sound (founding : EpochRecordV1) (s : Handoff) : Prop where
  /-- Each desk is sound. -/
  desk : ∀ peer, DeskSound s.trail peer (s.desks peer)
  /-- Records are signed by the right participant. -/
  signer : ∀ peer record, .held peer record ∈ s.trail →
    record.signerPeerId = record.expectedSigner
  /-- Records are backed. -/
  backed : ∀ peer record, .held peer record ∈ s.trail → Backed s.trail record
  /-- A later phase is held only after the earlier ones. -/
  ordered : ∀ peer record before, .held peer record :: before <:+ s.trail →
    (record.phase ≠ .prepared → ∃ own, .held record.fromPeerId own ∈ before ∧
      own.key = record.key ∧ own.phase = .prepared)
  /-- A source has one transfer for each generation. -/
  agree : ∀ peer first second, .held peer first ∈ s.trail → .held peer second ∈ s.trail →
    first.fromPeerId = peer → second.fromPeerId = peer → first.nextEpoch = second.nextEpoch →
      first.key = second.key
  /-- The record on a desk was accepted. -/
  current : ∀ peer epoch, (s.desks peer).epoch = some epoch → AcceptedIn founding s.trail epoch
  /-- A generation is entered after the one before it, on a committed transfer of its authority. -/
  entered : ∀ peer record epoch activated, .entered peer record epoch activated ∈ s.trail →
    epoch.authorityPeerId = record.toPeerId ∧ epoch.epochNumber = record.nextEpoch ∧
      (activated = true → record.toPeerId = peer) ∧
      (∃ own, .held record.fromPeerId own ∈ s.trail ∧ own.key = record.key) ∧
      ∃ previous, AcceptedIn founding s.trail previous ∧
        previous.epochNumber + 1 = epoch.epochNumber ∧
        previous.authorityPeerId = record.fromPeerId
  /-- A generation is activated by a target that accepted the transfer. -/
  activated : ∀ peer record epoch before, .entered peer record epoch true :: before <:+ s.trail →
    ∃ own, .held peer own ∈ before ∧ own.key = record.key ∧ own.phase = .accepted
  /-- A generation has one authority. -/
  unique : ∀ first second, AcceptedIn founding s.trail first → AcceptedIn founding s.trail second →
    first.epochNumber = second.epochNumber → first.authorityPeerId = second.authorityPeerId

/-- What a record has to satisfy to be put on a desk. -/
structure Places (trail : List HandoffEvent) (peer : PeerId) (desk : Desk)
    (record : AuthorityTransferV1) : Prop where
  signer : record.signerPeerId = record.expectedSigner
  backed : Backed (.held peer record :: trail) record
  ordered : record.phase ≠ .prepared → ∃ own, .held record.fromPeerId own ∈ trail ∧
    own.key = record.key ∧ own.phase = .prepared
  bound : ∀ epoch, desk.epoch = some epoch → record.nextEpoch ≤ epoch.epochNumber + 1 ∧
    (record.nextEpoch = epoch.epochNumber + 1 →
      record.nextFencingToken = epoch.fencingToken + 1)
  own : record.fromPeerId = peer → ∀ epoch, desk.epoch = some epoch →
    record.nextEpoch = epoch.epochNumber + 1 → epoch.authorityPeerId = peer
  absent : desk.epoch = none → record.fromPeerId ≠ peer
  /-- It continues the peer's own transfer from the accepted generation. -/
  continues : ∀ old epoch, .held peer old ∈ trail → old.fromPeerId = peer →
    desk.epoch = some epoch → old.nextEpoch = epoch.epochNumber + 1 → old.key = record.key
  /-- It agrees with the peer's earlier transfers. -/
  agree : ∀ old, .held peer old ∈ trail → old.fromPeerId = peer → record.fromPeerId = peer →
    old.nextEpoch = record.nextEpoch → old.key = record.key

/-- Putting a record on a desk keeps the desk sound. -/
theorem DeskSound.place (h : DeskSound trail peer desk) (hplaces : Places trail peer desk record) :
    DeskSound (.held peer record :: trail) peer ⟨desk.epoch, some record⟩ where
  file := by simp
  kept := by simp
  bound := by grind [→ Places.bound, → DeskSound.bound]
  own := by
    intro old epoch hheld hsource hepoch hnumber
    rcases List.mem_cons.mp hheld with heq | hold
    · cases heq
      exact ⟨hplaces.own hsource epoch hepoch hnumber, record, rfl, rfl⟩
    · obtain ⟨hauthority, _⟩ := h.own old epoch hold hsource hepoch hnumber
      exact ⟨hauthority, record, rfl, (hplaces.continues old epoch hold hsource hepoch hnumber).symm⟩
  absent := by grind [→ Places.absent, → DeskSound.absent]

/-- The desk of a peer that nothing is noted about. -/
theorem DeskSound.mono (h : DeskSound trail peer desk) (hsub : trail ⊆ new)
    (hnew : ∀ record, .held peer record ∈ new → .held peer record ∈ trail) :
    DeskSound new peer desk where
  file := fun record hfile => hsub (h.file record hfile)
  kept := fun record hheld => h.kept record (hnew record hheld)
  bound := fun record epoch hheld => h.bound record epoch (hnew record hheld)
  own := fun record epoch hheld => h.own record epoch (hnew record hheld)
  absent := fun hnone record hheld => h.absent hnone record (hnew record hheld)

/-- What was accepted stays accepted. -/
theorem AcceptedIn.mono (h : AcceptedIn founding trail epoch) (hsub : trail ⊆ new) :
    AcceptedIn founding new epoch := by
  rcases h with rfl | ⟨peer, record, activated, hentered⟩
  · exact .inl rfl
  · exact .inr ⟨peer, record, activated, hsub hentered⟩

/-- Putting a record on a desk accepts no generation. -/
theorem AcceptedIn.of_held (h : AcceptedIn founding (.held peer record :: trail) epoch) :
    AcceptedIn founding trail epoch := by
  rcases h with rfl | ⟨other, found, activated, hentered⟩
  · exact .inl rfl
  · exact .inr ⟨other, found, activated, by simpa using hentered⟩

/-- Putting a record on a desk keeps the protocol sound. -/
theorem Handoff.Sound.place (h : s.Sound founding)
    (hplaces : Places s.trail peer (s.desks peer) record) :
    Handoff.Sound founding ⟨update s.desks peer ⟨(s.desks peer).epoch, some record⟩,
      .held peer record :: s.trail⟩ where
  desk := by
    intro other
    dsimp only
    by_cases hother : other = peer
    · subst hother
      rw [update_self]
      exact (h.desk other).place hplaces
    · rw [update_of_ne hother]
      exact (h.desk other).mono (List.subset_cons_self _ _) (by simp [hother])
  signer := by grind [→ Places.signer, → Handoff.Sound.signer]
  backed := by
    intro other found hheld
    rcases List.mem_cons.mp hheld with heq | hold
    · cases heq
      exact hplaces.backed
    · exact (h.backed other found hold).mono (List.subset_cons_self _ _)
  ordered := by
    intro other found before hsuffix
    rcases List.suffix_cons_iff.mp hsuffix with heq | hold
    · cases heq
      exact hplaces.ordered
    · exact h.ordered other found before hold
  agree := by grind [→ Places.agree, → Handoff.Sound.agree]
  current := by
    intro other current hcurrent
    have hbefore : (s.desks other).epoch = some current := by grind
    exact (h.current other current hbefore).mono (List.subset_cons_self _ _)
  entered := by
    intro other found next activated hentered
    have hold : .entered other found next activated ∈ s.trail := by simpa using hentered
    obtain ⟨hauthority, hnumber, hself, ⟨own, hheld, hown⟩, previous, hprevious, hlink⟩ :=
      h.entered other found next activated hold
    exact ⟨hauthority, hnumber, hself, ⟨own, List.mem_cons_of_mem _ hheld, hown⟩, previous,
      hprevious.mono (List.subset_cons_self _ _), hlink⟩
  activated := by
    intro other found next before hsuffix
    exact h.activated other found next before (by simpa [List.suffix_cons_iff] using hsuffix)
  unique first second hfirst hsecond hnumber :=
    h.unique first second hfirst.of_held hsecond.of_held hnumber

/-- What it takes to enter the next generation. -/
structure Enters (peer : PeerId) (desk : Desk) (epoch next : EpochRecordV1)
    (record : AuthorityTransferV1) (activates : Bool) : Prop where
  current : desk.epoch = some epoch
  paper : desk.file = some record
  phase : record.phase = .committed
  sourced : Sourced epoch record
  authority : next.authorityPeerId = record.toPeerId
  number : next.epochNumber = record.nextEpoch
  self : activates = true → record.toPeerId = peer

/-- Entering a generation keeps the desk sound: no transfer leads from it yet. -/
theorem DeskSound.enter {next : EpochRecordV1} (h : DeskSound trail peer desk)
    (henters : Enters peer desk epoch next record activates) :
    DeskSound (.entered peer record next activates :: trail) peer ⟨some next, desk.file⟩ := by
  have hold {found : AuthorityTransferV1}
      (hheld : .held peer found ∈ HandoffEvent.entered peer record next activates :: trail) :
      .held peer found ∈ trail := by simpa using hheld
  have hnumber : next.epochNumber = epoch.epochNumber + 1 := by
    rw [henters.number]
    exact henters.sourced.2.1
  constructor
  · intro found hfile
    exact List.mem_cons_of_mem _ (h.file found hfile)
  · intro found hheld
    exact h.kept found (hold hheld)
  · intro found current hheld hcurrent
    cases hcurrent
    have hbound := (h.bound found epoch (hold hheld) henters.current).1
    constructor
    · omega
    · intro hequal
      omega
  · intro found current hheld _ hcurrent hequal
    cases hcurrent
    have hbound := (h.bound found epoch (hold hheld) henters.current).1
    omega
  · intro hnone
    cases hnone

section

variable (h : s.Sound founding)

include h

/-- The authority of the generation that is entered is the only one it can have. -/
theorem Handoff.Sound.unique_enter {next other : EpochRecordV1}
    (hfounding : founding.epochNumber ≤ epoch.epochNumber)
    (henters : Enters peer (s.desks peer) epoch next record activates)
    (hother : AcceptedIn founding s.trail other) (hnumber : other.epochNumber = next.epochNumber) :
    other.authorityPeerId = next.authorityPeerId := by
  have hnext : next.epochNumber = epoch.epochNumber + 1 := by
    rw [henters.number]
    exact henters.sourced.2.1
  rcases hother with rfl | ⟨entrant, found, activated, hentered⟩
  · omega
  · obtain ⟨hauthority, hfound, _, ⟨own, hheld, hown⟩, previous, hprevious, hlink, hsource⟩ :=
      h.entered entrant found other activated hentered
    -- both were entered from the same generation, hence by transfers of one source
    have hsame : previous.authorityPeerId = epoch.authorityPeerId :=
      h.unique previous epoch hprevious (h.current peer epoch henters.current) (by omega)
    have hsources : found.fromPeerId = record.fromPeerId := by
      rw [← hsource, hsame]
      exact henters.sourced.1.symm
    have hfile := (h.desk peer).file record henters.paper
    obtain ⟨mine, hmine, hkey, _⟩ := (h.backed peer record hfile).committed henters.phase
    have hnumbered := henters.number
    have hagree : own.key = mine.key := by
      apply h.agree record.fromPeerId own mine (hsources ▸ hheld) hmine <;>
        grind [AuthorityTransferV1.key_eq_key]
    have hkeys : found.key = record.key := by rw [← hown, hagree, hkey]
    rw [hauthority, (AuthorityTransferV1.key_eq_key.mp hkeys).2.1, henters.authority]

/-- Generations are counted up from the founding one. -/
theorem Handoff.Sound.founding_le {current : EpochRecordV1}
    (hcurrent : AcceptedIn founding s.trail current) :
    founding.epochNumber ≤ current.epochNumber := by
  -- the induction is on the epoch number: each generation was entered from the one before
  induction hn : current.epochNumber generalizing current with
  | zero =>
    rcases hcurrent with rfl | ⟨entrant, found, activated, hentered⟩
    · omega
    · obtain ⟨_, _, _, _, previous, _, hlink, _⟩ := h.entered entrant found current activated hentered
      omega
  | succ n ih =>
    rcases hcurrent with rfl | ⟨entrant, found, activated, hentered⟩
    · omega
    · obtain ⟨_, _, _, _, previous, hprevious, hlink, _⟩ :=
        h.entered entrant found current activated hentered
      have hbefore := ih hprevious (by omega)
      omega

/-- Entering a generation keeps the protocol sound. -/
theorem Handoff.Sound.enter {next : EpochRecordV1}
    (henters : Enters peer (s.desks peer) epoch next record activates) :
    Handoff.Sound founding ⟨update s.desks peer ⟨some next, (s.desks peer).file⟩,
      .entered peer record next activates :: s.trail⟩ := by
  have hsub : s.trail ⊆ .entered peer record next activates :: s.trail := List.subset_cons_self _ _
  have hold {other : PeerId} {found : AuthorityTransferV1}
      (hheld : .held other found ∈ HandoffEvent.entered peer record next activates :: s.trail) :
      .held other found ∈ s.trail := by simpa using hheld
  have hcurrent := h.current peer epoch henters.current
  have hfounding := h.founding_le hcurrent
  have hfile := (h.desk peer).file record henters.paper
  have hbacked := h.backed peer record hfile
  constructor
  · intro other
    dsimp only
    by_cases hother : other = peer
    · subst hother
      rw [update_self]
      exact (h.desk other).enter henters
    · rw [update_of_ne hother]
      exact (h.desk other).mono hsub fun _ hheld => hold hheld
  · exact fun other found hheld => h.signer other found (hold hheld)
  · exact fun other found hheld => (h.backed other found (hold hheld)).mono hsub
  · intro other found before hsuffix
    exact h.ordered other found before (by simpa [List.suffix_cons_iff] using hsuffix)
  · exact fun other first second hfirst hsecond =>
      h.agree other first second (hold hfirst) (hold hsecond)
  · intro other found hfound
    dsimp only at hfound
    by_cases hother : other = peer
    · subst hother
      rw [update_self] at hfound
      cases hfound
      exact .inr ⟨other, record, activates, List.mem_cons_self⟩
    · rw [update_of_ne hother] at hfound
      exact (h.current other found hfound).mono hsub
  · intro other found reached activated hentered
    rcases List.mem_cons.mp hentered with heq | hbefore
    · cases heq
      obtain ⟨own, hheld, hown, _⟩ := hbacked.committed henters.phase
      refine ⟨henters.authority, henters.number, henters.self, ⟨own, hsub hheld, hown⟩, epoch,
        hcurrent.mono hsub, ?_, henters.sourced.1.symm⟩
      rw [henters.number]
      exact henters.sourced.2.1.symm
    · obtain ⟨hauthority, hnumber, hself, ⟨own, hheld, hown⟩, previous, hprevious, hlink⟩ :=
        h.entered other found reached activated hbefore
      exact ⟨hauthority, hnumber, hself, ⟨own, hsub hheld, hown⟩, previous, hprevious.mono hsub,
        hlink⟩
  · intro other found reached before hsuffix
    rcases List.suffix_cons_iff.mp hsuffix with heq | hbefore
    · cases heq
      obtain ⟨own, hheld, hown⟩ := hbacked.accepted (by rw [henters.phase]; decide)
      rw [henters.self rfl] at hheld
      exact ⟨own, hheld, hown⟩
    · exact h.activated other found reached before hbefore
  · intro first second hfirst hsecond hnumber
    have hcases {found : EpochRecordV1}
        (hfound : AcceptedIn founding (.entered peer record next activates :: s.trail) found) :
        found = next ∨ AcceptedIn founding s.trail found := by
      rcases hfound with rfl | ⟨entrant, transfer, activated, hentered⟩
      · exact .inr (.inl rfl)
      · rcases List.mem_cons.mp hentered with heq | hbefore
        · cases heq
          exact .inl rfl
        · exact .inr (.inr ⟨entrant, transfer, activated, hbefore⟩)
    rcases hcases hfirst with hnew | hbefore
    · rcases hcases hsecond with hnew' | hbefore'
      · rw [hnew, hnew']
      · rw [hnew] at hnumber ⊢
        exact (h.unique_enter hfounding henters hbefore' hnumber.symm).symm
    · rcases hcases hsecond with hnew' | hbefore'
      · rw [hnew'] at hnumber ⊢
        exact h.unique_enter hfounding henters hbefore hnumber
      · exact h.unique first second hbefore hbefore' hnumber

/-- A record that its signer kept is backed. -/
theorem Handoff.Sound.backed_of_vouched (hvouched : Vouched s.trail record) :
    Backed s.trail record := by
  obtain ⟨_, own, hheld, hkey, hphase⟩ := hvouched
  exact (h.backed record.signerPeerId own hheld).congr hkey hphase

/-- The record on a desk may stay there. -/
theorem Handoff.Sound.places_current
    (hfile : (s.desks peer).file = some record) : Places s.trail peer (s.desks peer) record := by
  have hheld := (h.desk peer).file record hfile
  have hbacked := h.backed peer record hheld
  constructor
  · exact h.signer peer record hheld
  · exact hbacked.mono (List.subset_cons_self _ _)
  · exact fun _ => hbacked.prepared
  · exact fun epoch hepoch => (h.desk peer).bound record epoch hheld hepoch
  · exact fun hsource epoch hepoch hnumber =>
      ((h.desk peer).own record epoch hheld hsource hepoch hnumber).1
  · exact fun hnone => (h.desk peer).absent hnone record hheld
  · intro old epoch hold hsource hepoch hnumber
    obtain ⟨_, current, hcurrent, hkey⟩ := (h.desk peer).own old epoch hold hsource hepoch hnumber
    rw [hfile] at hcurrent
    cases hcurrent
    exact hkey.symm
  · exact fun old hold hsource hsource' hnumber =>
      h.agree peer old record hold hheld hsource hsource' hnumber

end

/-- A record that leads from the accepted generation and continues what is on the desk may be put
there, if it is signed and backed. -/
theorem Places.next (hepoch : desk.epoch = some epoch)
    (hgeneration : record.nextEpoch = epoch.epochNumber + 1 ∧
      record.nextFencingToken = epoch.fencingToken + 1)
    (hsigner : record.signerPeerId = record.expectedSigner)
    (hbacked : Backed (.held peer record :: trail) record)
    (hordered : record.phase ≠ .prepared → ∃ own, .held record.fromPeerId own ∈ trail ∧
      own.key = record.key ∧ own.phase = .prepared)
    (hown : record.fromPeerId = peer → epoch.authorityPeerId = peer)
    (hcontinues : ∀ old, .held peer old ∈ trail → old.fromPeerId = peer →
      old.nextEpoch = epoch.epochNumber + 1 → old.key = record.key) :
    Places trail peer desk record := by
  have hsame {other : EpochRecordV1} (hother : desk.epoch = some other) :
      other = epoch := Option.some.inj (hother.symm.trans hepoch)
  refine ⟨hsigner, hbacked, hordered, ?_, ?_, by simp [hepoch], ?_, ?_⟩
  · intro other hother
    rw [hsame hother]
    exact ⟨hgeneration.1.le, fun _ => hgeneration.2⟩
  · intro hsource other hother _
    rw [hsame hother]
    exact hown hsource
  · intro old other hheld hsource hother hnumber
    rw [hsame hother] at hnumber
    exact hcontinues old hheld hsource hnumber
  · intro old hheld hsource _ hnumber
    exact hcontinues old hheld hsource (hnumber.trans hgeneration.1)

/-- The peer's own transfer from the accepted generation is on its desk and leads from it. -/
theorem Handoff.Sound.own_sourced (h : s.Sound founding) {old : AuthorityTransferV1}
    (hepoch : (s.desks peer).epoch = some epoch) (hheld : .held peer old ∈ s.trail)
    (hsource : old.fromPeerId = peer) (hnumber : old.nextEpoch = epoch.epochNumber + 1) :
    epoch.authorityPeerId = peer ∧ ∃ current, (s.desks peer).file = some current ∧
      current.key = old.key ∧ Sourced epoch current := by
  obtain ⟨hauthority, current, hcurrent, hkey⟩ :=
    (h.desk peer).own old epoch hheld hsource hepoch hnumber
  have htoken := ((h.desk peer).bound old epoch hheld hepoch).2 hnumber
  obtain ⟨hfrom, _, _, hnext, hfence⟩ := AuthorityTransferV1.key_eq_key.mp hkey
  refine ⟨hauthority, current, hcurrent, hkey, ?_, hnext.trans hnumber, hfence.trans htoken⟩
  rw [hfrom, hsource, hauthority]

/-- What a peer does at its desk puts an allowed record there or enters a generation. -/
theorem Handoff.Sound.move (h : s.Sound founding)
    (hmove : Desk.Move s.trail peer (s.desks peer) activates after) :
    after = s.desks peer ∨ (∃ record, Places s.trail peer (s.desks peer) record ∧
        after = ⟨(s.desks peer).epoch, some record⟩) ∨
      ∃ epoch next record, Enters peer (s.desks peer) epoch next record activates ∧
        next.epochNumber ≠ epoch.epochNumber ∧ after = ⟨some next, (s.desks peer).file⟩ := by
  cases hmove with
  | stay => exact .inl rfl
  | @prepare epoch record hepoch hauthority hphase hsourced hsigner hfile =>
    refine .inr (.inl ⟨record, ?_, rfl⟩)
    -- a transfer of its own from this generation would be on the desk
    have hnone (old : AuthorityTransferV1) (hheld : .held peer old ∈ s.trail)
        (hsource : old.fromPeerId = peer) (hnumber : old.nextEpoch = epoch.epochNumber + 1) :
        old.key = record.key := by
      obtain ⟨_, current, hcurrent, _, hleads⟩ := h.own_sourced hepoch hheld hsource hnumber
      exact (hfile current hcurrent hleads).elim
    apply Places.next hepoch hsourced.2 hsigner ?_ (fun hne => (hne hphase).elim)
      (fun _ => hauthority) hnone
    have hself : record.fromPeerId = peer := hsourced.1.trans hauthority
    constructor
    · exact ⟨record, by rw [hself]; exact List.mem_cons_self, rfl, hphase⟩
    · exact fun hne => (hne hphase).elim
    · intro hcommitted
      rw [hphase] at hcommitted
      cases hcommitted
  | @receive epoch record _ hepoch hsourced hvouched hfile =>
    refine .inr (.inl ⟨record, ?_, rfl⟩)
    have hbacked := h.backed_of_vouched hvouched
    apply Places.next hepoch hsourced.2 hvouched.1 (hbacked.mono (List.subset_cons_self _ _))
      (fun _ => hbacked.prepared)
    · intro hsource
      rw [← hsourced.1]
      exact hsource
    · intro old hheld hsource hnumber
      obtain ⟨_, current, hcurrent, hkey, hleads⟩ := h.own_sourced hepoch hheld hsource hnumber
      rw [← hkey]
      exact hfile current hcurrent hleads
  | @sign epoch old record hepoch hfile hsourced hkey hsigner hphase =>
    refine .inr (.inl ⟨record, ?_, rfl⟩)
    have hheld := (h.desk peer).file old hfile
    have hbacked := h.backed peer old hheld
    have hplaces := h.places_current hfile
    obtain ⟨hsource, htarget, _, hnumber, htoken⟩ := AuthorityTransferV1.key_eq_key.mp hkey
    have hprepared : ∃ own, .held record.fromPeerId own ∈ s.trail ∧ own.key = record.key ∧
        own.phase = .prepared := by
      rw [hsource, hkey]
      exact hbacked.prepared
    apply Places.next hepoch _ hsigner _ (fun _ => hprepared)
    · intro hself
      rw [← hsourced.1, ← hsource]
      exact hself
    · intro earlier hearlier hfrom hequal
      rw [hkey]
      exact hplaces.continues earlier epoch hearlier hfrom hepoch hequal
    · rw [hnumber, htoken]
      exact hsourced.2
    · constructor
      · obtain ⟨own, hown, hrest⟩ := hprepared
        exact ⟨own, List.mem_cons_of_mem _ hown, hrest⟩
      · intro _
        rcases hphase with ⟨_, haccepted, hself⟩ | ⟨hold, _, _⟩
        · refine ⟨record, ?_, rfl, haccepted⟩
          rw [htarget, hself]
          exact List.mem_cons_self
        · obtain ⟨own, hown, hownKey, hownPhase⟩ := hbacked.accepted (by rw [hold]; decide)
          refine ⟨own, ?_, hownKey.trans hkey.symm, hownPhase⟩
          rw [htarget]
          exact List.mem_cons_of_mem _ hown
      · intro hcommitted
        rcases hphase with ⟨_, haccepted, _⟩ | ⟨_, _, hself⟩
        · rw [haccepted] at hcommitted
          cases hcommitted
        · refine ⟨record, ?_, rfl, hcommitted⟩
          rw [hsource, hself]
          exact List.mem_cons_self
  | @deliver record hvouched hepoch hfile =>
    refine .inr (.inl ⟨record, ?_, rfl⟩)
    have hbacked := h.backed_of_vouched hvouched
    obtain ⟨own, hown, hkey, _⟩ := hbacked.prepared
    obtain ⟨hownSource, _, _, hownNumber, _⟩ := AuthorityTransferV1.key_eq_key.mp hkey
    cases hcurrent : (s.desks peer).epoch with
    | none =>
      -- without an accepted record the peer was never a source
      have hsource : record.fromPeerId ≠ peer := by
        intro hself
        rw [hself] at hown
        exact (h.desk peer).absent hcurrent own hown (hownSource.trans hself)
      refine ⟨hvouched.1, hbacked.mono (List.subset_cons_self _ _), fun _ => hbacked.prepared, ?_,
        ?_, fun _ => hsource, ?_, ?_⟩ <;> simp [hcurrent, hsource]
    | some epoch =>
      have hgeneration := hepoch epoch hcurrent
      apply Places.next hcurrent hgeneration hvouched.1
        (hbacked.mono (List.subset_cons_self _ _)) (fun _ => hbacked.prepared)
      · intro hself
        rw [hself] at hown
        exact (h.own_sourced hcurrent hown (hownSource.trans hself)
          (hownNumber.trans hgeneration.1)).1
      · intro old hheld hsource hnumber
        obtain ⟨_, current, hfound, hold, _⟩ := h.own_sourced hcurrent hheld hsource hnumber
        rw [← hold]
        exact hfile current hfound
  | @enter epoch next record _ hepoch hfile hphase hsourced hauthority hnumber htoken hself =>
    refine .inr (.inr ⟨epoch, next, record,
      ⟨hepoch, hfile, hphase, hsourced, hauthority, hnumber, hself⟩, ?_, rfl⟩)
    have hsuccessor := hsourced.2.1
    omega

/-- A record that is put on a desk is noted. -/
theorem Handoff.put_file : s.put peer activates ⟨(s.desks peer).epoch, some record⟩ =
    ⟨update s.desks peer ⟨(s.desks peer).epoch, some record⟩, .held peer record :: s.trail⟩ := by
  unfold put Desk.events
  cases (s.desks peer).epoch <;> simp

/-- A generation that is entered is noted, above the transfer that it was entered on. -/
theorem Handoff.put_epoch {next : EpochRecordV1}
    (hfile : (s.desks peer).file = some record) (hepoch : (s.desks peer).epoch ≠ some next) :
    s.put peer activates ⟨some next, (s.desks peer).file⟩ =
      ⟨update s.desks peer ⟨some next, some record⟩,
        .entered peer record next activates :: .held peer record :: s.trail⟩ := by
  unfold put Desk.events
  simp [hfile, hepoch]

/-- One step keeps the protocol sound. -/
theorem Handoff.Sound.step (h : s.Sound founding) (hstep : s.Step t) : t.Sound founding := by
  obtain ⟨peer, activates, after, hmove, rfl⟩ := hstep
  have hstay (record : AuthorityTransferV1) (hfile : (s.desks peer).file = some record) :
      (s.desks peer) = ⟨(s.desks peer).epoch, some record⟩ := by rw [← hfile]
  rcases h.move hmove with rfl | ⟨record, hplaces, rfl⟩ | ⟨epoch, next, record, henters, hne, rfl⟩
  · cases hfile : (s.desks peer).file with
    | none =>
      have hput : s.put peer activates (s.desks peer) = s := by
        unfold Handoff.put Desk.events
        simp [hfile]
      rw [hput]
      exact h
    | some record =>
      rw [hstay record hfile, Handoff.put_file]
      exact h.place (h.places_current hfile)
  · rw [Handoff.put_file]
    exact h.place hplaces
  · have hfile := henters.paper
    have hdiffers : (s.desks peer).epoch ≠ some next := by
      rw [henters.current]
      intro heq
      cases heq
      exact hne rfl
    have hplaced := h.place (h.places_current hfile)
    rw [← hstay record hfile, update_eq_self] at hplaced
    rw [Handoff.put_epoch hfile hdiffers, ← hfile]
    exact hplaced.enter henters

/-- The protocol starts with empty transfer files, and with the founding record where one is
accepted. -/
theorem Handoff.Sound.start (htrail : s.trail = []) (hfile : ∀ peer, (s.desks peer).file = none)
    (hepoch : ∀ peer epoch, (s.desks peer).epoch = some epoch → epoch = founding) :
    s.Sound founding := by
  constructor
  case desk =>
    intro peer
    constructor <;> simp [htrail, hfile]
  case current => exact fun peer epoch hcurrent => .inl (hepoch peer epoch hcurrent)
  all_goals simp +contextual [htrail, AcceptedIn]

theorem Handoff.Sound.run (h : s.Sound founding) (hrun : Run Handoff.Step s t) : t.Sound founding :=
  hrun.invariant (fun _ _ hsound hstep => hsound.step hstep) h

end Invariant

end SwarmCraft
