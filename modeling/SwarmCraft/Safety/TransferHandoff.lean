import SwarmCraft.Refinement.Handoff
import SwarmCraft.System.Genesis

/-!
# Manual hand-over

The daemon checks a transfer that arrives as a message, the command line one that arrives as a
token. Both look at the participants, the signer, the base snapshot and the generation. The
daemon lets any stored transfer block a prepared one and asks neither that the source is the
accepted authority nor that the head is complete; the command line only looks at a stored
transfer of the accepted generation.

Honest peers run the commands of a manual transfer and receive transfer messages, in any order and
with any tokens that their signers did sign. A peer may crash after each of its durable writes, and
every file but the accepted epoch record and the transfer record may change at any time. The run
is followed on the desks of the hand-off protocol, which never lets two transfers of one
generation through.
-/

namespace SwarmCraft

open Checked Effect Transition Function
open Founding (first second numbered)

/-! ## The two validators of a prepared transfer -/

section

variable {C : Crypto} {site : Site} {transfer previous : AuthorityTransferV1}
  {current : EpochRecordV1} {store : Store}

/-- What both validators ask of a prepared transfer. -/
structure WellPosed (C : Crypto) (transfer : AuthorityTransferV1) (current : EpochRecordV1)
    (store : Store) (latest : SnapshotManifestV1) : Prop where
  /-- Both participants are members, and the target may hold the authority. -/
  participants : ∃ descriptor source target,
    loadWorldDescriptor transfer.worldId store = .ok descriptor ∧
      descriptor.member transfer.fromPeerId = some source ∧
      descriptor.member transfer.toPeerId = some target ∧
      (source.banned = false ∧ target.banned = false ∧ target.authorityEligible = true) ∧
      source.publicKey = transfer.signerPublicKey
  /-- The source signed the transfer. -/
  signer : transfer.signerPeerId = transfer.fromPeerId
  /-- The transfer stands on the canonical head. -/
  head : latestSnapshot store = .ok (some latest) ∧ latest.manifestHash C = transfer.baseSnapshotHash
  /-- The transfer leads to the next generation. -/
  generation : transfer.nextEpoch = current.epochNumber + 1 ∧
    transfer.nextFencingToken = current.fencingToken + 1

/-- What only the command line asks: the source is the accepted authority, and the head has its
blobs and a valid signature. -/
structure FromAuthority (C : Crypto) (transfer : AuthorityTransferV1) (current : EpochRecordV1)
    (store : Store) (latest : SnapshotManifestV1) : Prop where
  source : transfer.fromPeerId = current.authorityPeerId
  key : transfer.signerPublicKey = current.authorityPublicKey
  complete : verifySnapshot C store latest = .ok ()
  signed : verifySnapshotSignature C latest = .ok ()

/-- A transfer record can be read. -/
def Readable (transfer : AuthorityTransferV1) (store : Store) : Prop :=
  ∃ previous, loadTransferRecord transfer.worldId store = .ok previous

/-- The stored transfer, if one can be read, is not of the accepted generation. -/
def NoneActive (transfer : AuthorityTransferV1) (current : EpochRecordV1) (store : Store) : Prop :=
  ∀ previous, loadTransferRecord transfer.worldId store = .ok previous →
    transferIsSourceGeneration previous current = false

/-- The generation after an accepted one below the 64-bit limit. -/
theorem nextGeneration_eq_ok_iff {text : String} {expected : AuthorityGeneration} :
    nextGeneration current text = .ok expected ↔
      (current.epochNumber < u64Max ∧ current.fencingToken < u64Max) ∧
        expected = ⟨current.epochNumber + 1, current.fencingToken + 1⟩ := by
  unfold nextGeneration
  simp only [context_eq_ok, AuthorityGeneration.checkedNext, EpochRecordV1.generation, bind_eq_ok,
    required_eq_ok, pure_eq_ok, checkedSucc_eq_some]
  constructor
  · rintro ⟨e, ⟨he, rfl⟩, f, ⟨hf, rfl⟩, rfl⟩
    exact ⟨⟨he, hf⟩, rfl⟩
  · rintro ⟨⟨he, hf⟩, rfl⟩
    exact ⟨_, ⟨he, rfl⟩, _, ⟨hf, rfl⟩, rfl⟩

/-- The daemon accepts a prepared transfer exactly when it is well posed and no transfer can be
read. -/
theorem validateTransfer_iff (hepoch : loadEpochRecord transfer.worldId store = .ok current)
    (hprepared : transfer.phase = .prepared) (hcounter : transfer.nextEpoch ≤ u64Max)
    (htoken : transfer.nextFencingToken ≤ u64Max) :
    validateTransfer C transfer store = .ok () ↔
      (∃ latest, WellPosed C transfer current store latest) ∧ ¬ Readable transfer store := by
  have hsigner : transfer.expectedSigner = transfer.fromPeerId := by
    simp [AuthorityTransferV1.expectedSigner, hprepared]
  -- no phase continues into the prepared one
  have hstop (phase : TransferPhase) : phase.continues .prepared = false := by
    cases phase <;> rfl
  unfold validateTransfer
  simp only [bind_eq_ok, ofStorage_eq_ok, required_eq_ok, guardMessage_eq_ok, exists_const,
    hsigner, hepoch, Checked.optional, onSome, nextGeneration_eq_ok_iff]
  constructor
  · rintro ⟨descriptor, hdescriptor, source, hsource, target, htarget, heligible, hsigned, signer,
      hmember, hkey, head, hhead, latest, rfl, hbase, ⟨expected, ⟨_, rfl⟩, hgeneration⟩, hnone⟩
    rw [hsigned, hsource, Option.some.injEq] at hmember
    subst hmember
    refine ⟨⟨latest, ⟨descriptor, source, target, hdescriptor, hsource, htarget, heligible, hkey⟩,
      hsigned, ⟨hhead, hbase⟩, hgeneration⟩, ?_⟩
    rintro ⟨previous, hload⟩
    simp [hload, hprepared, hstop] at hnone
  · rintro ⟨⟨latest, ⟨descriptor, source, target, hdescriptor, hsource, htarget, heligible, hkey⟩,
      hsigned, ⟨hhead, hbase⟩, hgeneration⟩, hnone⟩
    have hlimits : current.epochNumber < u64Max ∧ current.fencingToken < u64Max := by
      obtain ⟨hepoch, htokens⟩ := hgeneration
      constructor
      · omega
      · omega
    refine ⟨descriptor, hdescriptor, source, hsource, target, htarget, heligible, hsigned, source,
      ?_, hkey, _, hhead, latest, rfl, hbase, ⟨_, ⟨hlimits, rfl⟩, hgeneration⟩, ?_⟩
    · rw [hsigned]
      exact hsource
    · cases hload : loadTransferRecord transfer.worldId store with
      | error error => simp [hprepared]
      | ok previous => exact absurd ⟨previous, hload⟩ hnone

/-- The command line accepts a prepared transfer exactly when it is well posed and comes from the
accepted authority. -/
theorem validateTransferRecordAgainstEpoch_iff
    (hepoch : loadEpochRecord transfer.worldId store = .ok current)
    (hsigned : verifyTransferSignature C transfer = .ok ())
    (hprepared : transfer.phase = .prepared) :
    validateTransferRecordAgainstEpoch C transfer current store = .ok () ↔
      ∃ latest, WellPosed C transfer current store latest ∧
        FromAuthority C transfer current store latest := by
  have hsigner : transfer.expectedSigner = transfer.fromPeerId := by
    simp [AuthorityTransferV1.expectedSigner, hprepared]
  have hworld : transfer.worldId = current.worldId := (loadEpochRecord_eq_ok.mp hepoch).2.1.symm
  unfold validateTransferRecordAgainstEpoch verifiedHead
  simp only [bind_eq_ok, ofStorage_eq_ok, ofCore_eq_ok, required_eq_ok, guardMessage_eq_ok,
    exists_const, pure_eq_ok, hsigner, hsigned, transferIsSourceGeneration_iff hworld]
  constructor
  · rintro ⟨_, _, descriptor, hdescriptor, source, hsource, target, htarget, heligible, hkey, hfrom,
      signer, hmember, hsignerKey, _, _, ⟨hauthority, hgeneration⟩, latest,
      ⟨head, hhead, found, rfl, _, hcomplete, _, hhashed, rfl⟩, hbase⟩
    rw [hfrom, hsource, Option.some.injEq] at hmember
    subst hmember
    exact ⟨found, ⟨⟨descriptor, source, target, hdescriptor, hsource, htarget, heligible,
      hsignerKey⟩, hfrom, ⟨hhead, hbase⟩, hgeneration⟩, hauthority, hsignerKey ▸ hkey, hcomplete,
      hhashed⟩
  · rintro ⟨latest, ⟨⟨descriptor, source, target, hdescriptor, hsource, htarget, heligible,
      hsignerKey⟩, hfrom, ⟨hhead, hbase⟩, hgeneration⟩, hauthority, hkey, hcomplete, hhashed⟩
    refine ⟨trivial, hworld, descriptor, hdescriptor, source, hsource, target, htarget, heligible,
      hsignerKey.trans hkey, hfrom, source, ?_, hsignerKey, ?_, ?_, ⟨hauthority, hgeneration⟩,
      latest, ⟨_, hhead, latest, rfl, (), hcomplete, (), hhashed, rfl⟩, hbase⟩
    · rw [hfrom]
      exact hsource
    · omega
    · omega

/-- The command line finds no transfer exactly when none of the accepted generation can be read. -/
theorem activeTransfer_none_iff (hworld : transfer.worldId = site.world)
    (hepoch : loadEpochRecord transfer.worldId store = .ok current) :
    activeTransfer C site store = .ok none ↔ NoneActive transfer current store := by
  unfold activeTransfer NoneActive
  rw [← hworld, hepoch]
  cases hload : loadTransferRecord transfer.worldId store with
  | error error => simp
  | ok previous =>
    cases hsource : transferIsSourceGeneration previous current with
    | false => simp [hsource]
    | true =>
      simp only [hsource, if_true, bind_eq_ok, pure_eq_ok]
      constructor
      · rintro ⟨_, _, hnone⟩
        cases hnone
      · intro hnone
        cases (hnone previous rfl).symm.trans hsource

/-- The two validators agree on a signed prepared transfer exactly when, if it is well posed, a
readable transfer is of the accepted generation or the command line refuses the new one anyway,
and without a readable transfer the source is the accepted authority with a complete, signed
head. -/
theorem transfer_validators_agree_iff (hworld : transfer.worldId = site.world)
    (hepoch : loadEpochRecord transfer.worldId store = .ok current)
    (hsigned : verifyTransferSignature C transfer = .ok ())
    (hprepared : transfer.phase = .prepared) (hcounter : transfer.nextEpoch ≤ u64Max)
    (htoken : transfer.nextFencingToken ≤ u64Max) :
    (validateTransfer C transfer store = .ok () ↔
      validateTransferRecordAgainstEpoch C transfer current store = .ok () ∧
        activeTransfer C site store = .ok none) ↔
    ∀ latest, WellPosed C transfer current store latest →
      (Readable transfer store →
        ¬ (FromAuthority C transfer current store latest ∧ NoneActive transfer current store)) ∧
      (¬ Readable transfer store → FromAuthority C transfer current store latest) := by
  rw [validateTransfer_iff hepoch hprepared hcounter htoken,
    validateTransferRecordAgainstEpoch_iff hepoch hsigned hprepared,
    activeTransfer_none_iff hworld hepoch]
  -- the head of the store is one, so every well posed reading of it is the same
  have hsame {a b : SnapshotManifestV1} (ha : WellPosed C transfer current store a)
      (hb : WellPosed C transfer current store b) : a = b := by
    have heq := ha.head.1.symm.trans hb.head.1
    simpa using heq
  constructor
  · intro hagree latest hposed
    constructor
    · rintro hreadable ⟨hauthority, hnone⟩
      exact (hagree.mpr ⟨⟨latest, hposed, hauthority⟩, hnone⟩).2 hreadable
    · intro hunread
      obtain ⟨⟨found, hfound, hauthority⟩, _⟩ := hagree.mp ⟨⟨latest, hposed⟩, hunread⟩
      rw [hsame hposed hfound]
      exact hauthority
  · intro hcondition
    constructor
    · rintro ⟨⟨latest, hposed⟩, hunread⟩
      refine ⟨⟨latest, hposed, (hcondition latest hposed).2 hunread⟩, ?_⟩
      intro previous hload
      exact (hunread ⟨previous, hload⟩).elim
    · rintro ⟨⟨latest, hposed, hauthority⟩, hnone⟩
      refine ⟨⟨latest, hposed⟩, ?_⟩
      intro hreadable
      exact (hcondition latest hposed).1 hreadable ⟨hauthority, hnone⟩

namespace Founding

/-- A transfer to the second generation of a numbered world, signed by its source. -/
def handover (f : Founding) (source target : PublicKey) (nextEpoch : Nat) (phase : TransferPhase) :
    AuthorityTransferV1 :=
  let unsigned : AuthorityTransferV1 := {
    protocolVersion := protocolVersionV1
    worldId := f.world .ideal
    fromPeerId := Crypto.ideal.peerIdFromPublicKey source
    toPeerId := Crypto.ideal.peerIdFromPublicKey target
    baseSnapshotHash := (f.snapshot .ideal).manifestHash .ideal
    nextEpoch := nextEpoch
    nextFencingToken := nextEpoch
    phase := phase
    signerPeerId := Crypto.ideal.peerIdFromPublicKey source
    signerPublicKey := source
    signature := .empty }
  { unsigned with signature := Crypto.ideal.sign source (.transfer unsigned) }

end Founding

/-- The authority hands over to another member while nothing is stored: both accept. -/
theorem transfer_validators_agree_founding :
    let f := numbered 2
    let transfer := f.handover ⟨1⟩ ⟨2⟩ 2 .prepared
    let store := f.store .ideal
    validateTransfer .ideal transfer store = .ok () ∧
      (validateTransfer .ideal transfer store = .ok () ↔
        validateTransferRecordAgainstEpoch .ideal transfer (f.epoch .ideal) store = .ok () ∧
          activeTransfer .ideal ⟨f.world .ideal, ⟨⟨2⟩⟩, 0⟩ store = .ok none) := by
  intro f transfer store
  have hposed (latest : SnapshotManifestV1)
      (h : WellPosed .ideal transfer (f.epoch .ideal) store latest) :
      latest = f.snapshot .ideal := by
    have heq : some (f.snapshot .ideal) = some latest := Except.ok.inj h.head.1
    exact (Option.some.inj heq).symm
  have hunread : ¬ Readable transfer store := by
    rintro ⟨previous, hload⟩
    exact absurd hload (by simp [loadTransferRecord, store, Founding.store, Store.empty,
      DurableFile.load])
  refine ⟨by decide +kernel, (transfer_validators_agree_iff (by decide +kernel) (by decide +kernel)
    (by decide +kernel) (by decide +kernel) (by decide +kernel) (by decide +kernel)).mpr ?_⟩
  intro latest h
  rw [hposed latest h]
  exact ⟨fun hreadable => (hunread hreadable).elim, fun _ => ⟨by decide +kernel, by decide +kernel,
    by decide +kernel, by decide +kernel⟩⟩

/-- The daemon accepts a prepared transfer whose source is not the accepted authority, and it
refuses the authority's own transfer because a completed one of an older generation is stored; the
command line does the opposite in both cases. -/
theorem transfer_validators_disagree :
    let f := numbered 3
    let usurped := f.handover ⟨2⟩ ⟨3⟩ 2 .prepared
    let next := f.handover ⟨1⟩ ⟨2⟩ 2 .prepared
    let settled := { f.store .ideal with transfer := .present (f.handover ⟨3⟩ ⟨1⟩ 1 .committed) }
    let site : Site := ⟨f.world .ideal, ⟨⟨2⟩⟩, 0⟩
    (verifyTransferSignature .ideal usurped = .ok () ∧
        usurped.fromPeerId ≠ (f.epoch .ideal).authorityPeerId ∧
        validateTransfer .ideal usurped (f.store .ideal) = .ok () ∧
        validateTransferRecordAgainstEpoch .ideal usurped (f.epoch .ideal) (f.store .ideal) ≠
          .ok ()) ∧
      verifyTransferSignature .ideal next = .ok () ∧
      validateTransferRecordAgainstEpoch .ideal next (f.epoch .ideal) settled = .ok () ∧
      activeTransfer .ideal site settled = .ok none ∧
      validateTransfer .ideal next settled ≠ .ok () := by
  decide +kernel

end

/-! ## Runs of a hand-over -/

/-- The commands and messages of a manual transfer. -/
def Input.handsOff : Input → Bool
  | .command (.prepareTransfer _) => true
  | .command (.acceptTransfer _) => true
  | .command (.commitTransfer _) => true
  | .command (.activateTransfer _) => true
  | .command (.observeTransfer _) => true
  | .request _ _ (.authorityTransfer _) => true
  | _ => false

/-- The transfer tokens that an input brings. -/
def Input.tokens : Input → List AuthorityTransferV1
  | .command (.acceptTransfer token) => [token]
  | .command (.commitTransfer token) => [token]
  | .command (.activateTransfer token) => [token]
  | .request _ _ (.authorityTransfer transfer) => [transfer]
  | _ => []

/-- The input is `activate_manual_transfer`. -/
def Input.activates : Input → Bool
  | .command (.activateTransfer _) => true
  | _ => false

/-- Messages are about this world; a token of another world is refused by the command itself. -/
def Input.about (world : WorldId) : Input → Bool
  | .request _ _ message => decide (message.world = world)
  | _ => true

/-- The signer of the token held it, up to its signature. -/
def HandoffEvent.keeps (token : AuthorityTransferV1) : HandoffEvent → Bool
  | .held peer own => decide (peer = token.signerPeerId) &&
      decide ({ own with signature := .empty } = { token with signature := .empty })
  | _ => false

/-- The store of each peer, and what happened at the desks, the newest first. -/
structure Exchange where
  stores : PeerId → Store
  trail : List HandoffEvent

namespace Exchange

variable (C : Crypto) (F : Fleet C)

/-- A durable write of a peer. -/
def put (s : Exchange) (peer : PeerId) (activates : Bool) (store : Store) : Exchange where
  stores := update s.stores peer store
  trail := ((s.stores peer).desk F.world).events peer activates (store.desk F.world) ++ s.trail

/-- Several durable writes of a peer, one after another. -/
def pass (s : Exchange) (peer : PeerId) (activates : Bool) : List Store → Exchange
  | [] => s
  | store :: stores => (s.put C F peer activates store).pass peer activates stores

/-- The durable states that the handler of an input passes through. -/
def passed (peer : PeerId) (cause : Input) (node : Node) (now : Nat) : List Store :=
  (cause.run C ⟨F.world, ⟨F.key peer⟩, now⟩ (Exec.start node)).2.trail.map Prod.fst

/-- Signatures cannot be forged: a token with a valid signature of an honest peer is one that this
peer stored. A peer signs a record only to store it, and hands out what it stored. -/
def Unforged (s : Exchange) (token : AuthorityTransferV1) : Prop :=
  verifyTransferSignature C token = .ok () → F.honest token.signerPeerId →
    ∃ event ∈ s.trail, event.keeps token = true

/-- An honest peer can handle the input; the members it knows are honest. -/
structure Enabled (s : Exchange) (peer : PeerId) (cause : Input) : Prop where
  honest : F.honest peer
  handsOff : cause.handsOff = true
  about : cause.about F.world = true
  members : ∀ descriptor ∈ Checked.optional (loadWorldDescriptor F.world (s.stores peer)),
    ∀ member ∈ descriptor.members, F.honest member.peerId
  unforged : ∀ token ∈ cause.tokens, s.Unforged C F token

/-- What can happen next. -/
inductive Step : Exchange → Exchange → Prop
  /-- A peer handles an input, whatever its memory is, and perhaps crashes on the way. -/
  | act {s : Exchange} {peer : PeerId} {cause : Input} {node : Node} (now point : Nat)
      (henabled : s.Enabled C F peer cause) (hstore : node.store = s.stores peer) :
      Step s (s.pass C F peer cause.activates ((passed C F peer cause node now).take point))
  /-- The other files of a peer change. -/
  | change {s : Exchange} (peer : PeerId) {store : Store}
      (hepoch : store.epoch = (s.stores peer).epoch)
      (htransfer : store.transfer = (s.stores peer).transfer) :
      Step s { s with stores := update s.stores peer store }

/-- No transfer was made yet, and every peer that accepted a generation accepted the founding
one. -/
structure Starts (founding : EpochRecordV1) (s : Exchange) : Prop where
  trail : s.trail = []
  transfer : ∀ peer, (s.stores peer).transfer = .absent
  epoch : ∀ peer, (s.stores peer).epoch = .absent ∨
    loadEpochRecord F.world (s.stores peer) = .ok founding

/-- An input handled to its end by a daemon that just started. -/
def perform (node : Store → Node) (s : Exchange) (order : PeerId × Input) : Exchange :=
  s.pass C F order.1 order.2.activates (passed C F order.1 order.2 (node (s.stores order.1)) 0)

/-- What a schedule leads to; each order may look at the state before it. -/
def play (node : Store → Node) (s : Exchange) : List (Exchange → PeerId × Input) → Exchange
  | [] => s
  | order :: orders => (s.perform C F node (order s)).play node orders

/-- The whole schedule can happen. -/
def Plays (node : Store → Node) (s : Exchange) : List (Exchange → PeerId × Input) → Prop
  | [] => True
  | order :: orders => s.Enabled C F (order s).1 (order s).2 ∧
      (s.perform C F node (order s)).Plays node orders

/-- A schedule that can happen is a run. -/
theorem Plays.run {node : Store → Node} (hnode : ∀ store, (node store).store = store) {s : Exchange}
    {orders : List (Exchange → PeerId × Input)} (h : s.Plays C F node orders) :
    Run (Step C F) s (s.play C F node orders) := by
  induction orders generalizing s with
  | nil => exact .refl
  | cons order orders ih =>
    have hstep := Step.act 0 (passed C F (order s).1 (order s).2
      (node (s.stores (order s).1)) 0).length h.1 (hnode _)
    rw [List.take_length] at hstep
    exact .head hstep (ih h.2)

instance [DecidablePred F.honest] (s : Exchange) (peer : PeerId) (cause : Input) :
    Decidable (s.Enabled C F peer cause) :=
  decidable_of_iff (F.honest peer ∧ cause.handsOff = true ∧ cause.about F.world = true ∧
      (∀ descriptor ∈ Checked.optional (loadWorldDescriptor F.world (s.stores peer)),
        ∀ member ∈ descriptor.members, F.honest member.peerId) ∧
      ∀ token ∈ cause.tokens, verifyTransferSignature C token = .ok () →
        F.honest token.signerPeerId → ∃ event ∈ s.trail, event.keeps token = true)
    ⟨fun ⟨honest, handsOff, about, members, unforged⟩ =>
      ⟨honest, handsOff, about, members, unforged⟩,
      fun h => ⟨h.honest, h.handsOff, h.about, h.members, h.unforged⟩⟩

/-- Whether a schedule can happen is found by playing it. -/
def decidePlays [DecidablePred F.honest] (node : Store → Node) :
    (orders : List (Exchange → PeerId × Input)) → (s : Exchange) → Decidable (s.Plays C F node orders)
  | [], _ => isTrue trivial
  | order :: orders, s =>
    have := decidePlays node orders (s.perform C F node (order s))
    inferInstanceAs (Decidable (s.Enabled C F (order s).1 (order s).2 ∧
      (s.perform C F node (order s)).Plays C F node orders))

instance [DecidablePred F.honest] (node : Store → Node) (s : Exchange)
    (orders : List (Exchange → PeerId × Input)) : Decidable (s.Plays C F node orders) :=
  decidePlays C F node orders s

/-- The desks of the peers. -/
def handoff (s : Exchange) : Handoff := ⟨fun peer => (s.stores peer).desk F.world, s.trail⟩

end Exchange

/-! ## Following the protocol -/

section Follow

variable {C : Crypto} {F : Fleet C} {s t : Exchange} {peer : PeerId} {activates : Bool}
  {founding : EpochRecordV1}

/-- A move stays possible when more has happened. -/
theorem Desk.Move.mono {trail new : List HandoffEvent} {desk after : Desk}
    (h : Desk.Move trail peer desk activates after) (hsub : trail ⊆ new) :
    Desk.Move new peer desk activates after := by
  have hvouched {record : AuthorityTransferV1} (h : Vouched trail record) : Vouched new record := by
    obtain ⟨hsigner, own, hheld, hown⟩ := h
    exact ⟨hsigner, own, hsub hheld, hown⟩
  cases h with
  | stay => exact .stay activates
  | prepare hepoch hauthority hphase hsourced hsigner hfile =>
    exact .prepare hepoch hauthority hphase hsourced hsigner hfile
  | receive _ hepoch hsourced hkept hfile =>
    exact .receive activates hepoch hsourced (hvouched hkept) hfile
  | sign hepoch hfile hsourced hkey hsigner hphase =>
    exact .sign hepoch hfile hsourced hkey hsigner hphase
  | deliver hkept hepoch hfile => exact .deliver (hvouched hkept) hepoch hfile
  | enter _ hepoch hfile hphase hsourced hauthority hnumber htoken hself =>
    exact .enter activates hepoch hfile hphase hsourced hauthority hnumber htoken hself

/-- A durable write is a change of the desk. -/
theorem Exchange.handoff_put (store : Store) : (s.put C F peer activates store).handoff C F =
    (s.handoff C F).put peer activates (store.desk F.world) := by
  unfold handoff put Handoff.put
  congr 1
  funext other
  exact apply_update (fun _ store => Store.desk F.world store) s.stores peer store other

/-- Linked durable states are a run of the protocol, and leave legible files. -/
theorem Exchange.pass_run {trail : List HandoffEvent} {stores : List Store}
    (hlegible : ∀ other, (s.stores other).Legible F.world) (hsub : trail ⊆ s.trail)
    (hchain : List.IsChain (DeskStep F.world trail peer activates) (s.stores peer :: stores)) :
    (∀ other, ((s.pass C F peer activates stores).stores other).Legible F.world) ∧
      Run Handoff.Step (s.handoff C F) ((s.pass C F peer activates stores).handoff C F) := by
  induction stores generalizing s with
  | nil => exact ⟨hlegible, .refl⟩
  | cons store stores ih =>
    obtain ⟨hstep, hrest⟩ := List.isChain_cons_cons.mp hchain
    obtain ⟨hafter, hmove⟩ := hstep (hlegible peer)
    have hnext (other : PeerId) :
        ((s.put C F peer activates store).stores other).Legible F.world := by
      dsimp only [put]
      by_cases hother : other = peer
      · subst hother
        rw [update_self]
        exact hafter
      · rw [update_of_ne hother]
        exact hlegible other
    have hself : (s.put C F peer activates store).stores peer = store := by
      dsimp only [put]
      rw [update_self]
    obtain ⟨hend, hrun⟩ := ih hnext (fun _ hevent => List.mem_append_right _ (hsub hevent))
      (by rw [hself]; exact hrest)
    refine ⟨hend, .head ?_ hrun⟩
    exact ⟨peer, activates, store.desk F.world, hmove.mono hsub, handoff_put store⟩

/-- A token that nobody forged was kept by its signer, if the members are honest. -/
theorem Exchange.Enabled.keptBySigner {cause : Input} {token : AuthorityTransferV1}
    (h : s.Enabled C F peer cause) (htoken : token ∈ cause.tokens) :
    KeptBySigner C F.world s.trail (s.stores peer) token := by
  intro hsigned descriptor member hdescriptor hmember
  have hid : member.peerId = token.signerPeerId := by
    have hfound := List.find?_some hmember
    exact of_decide_eq_true hfound
  have hhonest : F.honest token.signerPeerId := by
    rw [← hid]
    exact h.members descriptor (optional_eq_some.mpr hdescriptor) member
      (List.mem_of_find?_eq_some hmember)
  obtain ⟨event, hevent, hkeeps⟩ := h.unforged token htoken hsigned hhonest
  cases event with
  | entered _ _ _ _ => cases hkeeps
  | held holder own =>
    simp only [HandoffEvent.keeps, Bool.and_eq_true, decide_eq_true_eq] at hkeeps
    obtain ⟨rfl, hsame⟩ := hkeeps
    have hkey := congrArg AuthorityTransferV1.key hsame
    have hphase := congrArg AuthorityTransferV1.phase hsame
    exact ⟨own, hevent, hkey, hphase⟩

/-- Every command and message of a transfer moves the desk along the protocol. -/
theorem linked_handsOff {site : Site} {trail : List HandoffEvent} {cause : Input} {e : Exec}
    (hhandsOff : cause.handsOff = true) (habout : cause.about site.world = true)
    (hkept : ∀ token ∈ cause.tokens, KeptBySigner C site.world trail e.node.store token) :
    Along (Linked (DeskStep site.world trail (site.peer C) cause.activates)) (cause.run C site)
      e := by
  cases cause with
  | command order =>
    cases order with
    | prepareTransfer target => exact linked_prepareManualTransfer
    | acceptTransfer token => exact linked_acceptManualTransfer (hkept token (by simp [Input.tokens]))
    | commitTransfer token => exact linked_commitManualTransfer (hkept token (by simp [Input.tokens]))
    | activateTransfer token =>
      exact linked_activateManualTransfer (hkept token (by simp [Input.tokens]))
    | observeTransfer token => exact linked_observeManualTransferEpoch
    | host => cases hhandsOff
    | finish _ _ => cases hhandsOff
    | snapshot _ _ _ => cases hhandsOff
    | wake => cases hhandsOff
    | join _ _ => cases hhandsOff
    | leave _ => cases hhandsOff
  | request sender number message =>
    have hworld : message.world = site.world := of_decide_eq_true habout
    cases message with
    | authorityTransfer transfer =>
      refine along_readStore (along_check fun _ _ => ?_)
      exact linked_handleAuthorityTransfer hworld (hkept transfer (by simp [Input.tokens]))
    | _ => cases hhandsOff
  | response _ _ _ => cases hhandsOff
  | failed _ => cases hhandsOff
  | authenticated _ => cases hhandsOff
  | disconnected _ => cases hhandsOff
  | tick => cases hhandsOff

/-- The durable states that an input passes through are moves of the desk. -/
theorem Exchange.Enabled.isChain {cause : Input} {node : Node} {now : Nat}
    (h : s.Enabled C F peer cause) (hstore : node.store = s.stores peer) :
    List.IsChain (DeskStep F.world s.trail peer cause.activates)
      (s.stores peer :: passed C F peer cause node now) := by
  let site : Site := ⟨F.world, ⟨F.key peer⟩, now⟩
  have hpeer : site.peer C = peer := F.key_spec peer h.honest
  have hkept (token : AuthorityTransferV1) (htoken : token ∈ cause.tokens) :
      KeptBySigner C site.world s.trail (Exec.start node).node.store token := by
    have hkept := h.keptBySigner htoken
    rw [← hstore] at hkept
    exact hkept
  have hlinked : Along (Linked (DeskStep site.world s.trail (site.peer C) cause.activates))
      (cause.run C site) (Exec.start node) := linked_handsOff h.handsOff h.about hkept
  obtain ⟨stores, htrail, hchain, _⟩ := hlinked
  rw [hpeer] at hchain
  have hpassed : passed C F peer cause node now = stores := htrail
  rw [hpassed, ← hstore]
  exact hchain

/-- One step is a run of the protocol, and keeps the files legible. -/
theorem Exchange.Step.follows (h : Exchange.Step C F s t)
    (hlegible : ∀ other, (s.stores other).Legible F.world) :
    (∀ other, (t.stores other).Legible F.world) ∧
      Run Handoff.Step (s.handoff C F) (t.handoff C F) := by
  cases h with
  | @act peer cause node now point henabled hstore =>
    apply pass_run hlegible (List.Subset.refl _)
    have hchain : List.IsChain _ (s.stores peer :: passed C F peer cause node now) :=
      henabled.isChain hstore
    have htaken := hchain.take (point + 1)
    rwa [List.take_succ_cons] at htaken
  | @change peer store hepoch htransfer =>
    have hsame (other : PeerId) :
        (update s.stores peer store other).epoch = (s.stores other).epoch ∧
          (update s.stores peer store other).transfer = (s.stores other).transfer := by
      by_cases hother : other = peer
      · subst hother
        rw [update_self]
        exact ⟨hepoch, htransfer⟩
      · rw [update_of_ne hother]
        exact ⟨rfl, rfl⟩
    constructor
    · intro other
      exact (Store.desk_of_same (hsame other).1 (hsame other).2).2 (hlegible other)
    · have hdesks : Exchange.handoff C F { s with stores := update s.stores peer store } =
          s.handoff C F := by
        unfold handoff
        congr 1
        funext other
        exact (Store.desk_of_same (hsame other).1 (hsame other).2).1
      rw [hdesks]

/-- A run is a run of the protocol, and keeps the files legible. -/
theorem Exchange.run_follows (hrun : Run (Exchange.Step C F) s t)
    (hlegible : ∀ other, (s.stores other).Legible F.world) :
    (∀ other, (t.stores other).Legible F.world) ∧
      Run Handoff.Step (s.handoff C F) (t.handoff C F) := by
  induction hrun with
  | refl => exact ⟨hlegible, .refl⟩
  | tail _ hlast ih =>
    obtain ⟨hlegible', hbefore⟩ := ih
    obtain ⟨hend, hafter⟩ := hlast.follows hlegible'
    exact ⟨hend, hbefore.trans hafter⟩

/-- Where a hand-over starts the files are legible and the protocol is sound. -/
theorem Exchange.Starts.sound (h : s.Starts C F founding) :
    (∀ other, (s.stores other).Legible F.world) ∧ (s.handoff C F).Sound founding := by
  have hepoch (other : PeerId) :
      (s.stores other).epoch = .absent ∨
        ∃ record, loadEpochRecord F.world (s.stores other) = .ok record := by
    rcases h.epoch other with habsent | hloads
    · exact .inl habsent
    · exact .inr ⟨founding, hloads⟩
  refine ⟨fun other => ⟨hepoch other, .inl (h.transfer other)⟩, ?_⟩
  apply Handoff.Sound.start h.trail
  · intro other
    have hfile := h.transfer other
    simp [handoff, Store.desk, loadTransferRecord, hfile, Checked.optional_eq_none]
  · intro other current hcurrent
    have hload : loadEpochRecord F.world (s.stores other) = .ok current := optional_eq_some.mp hcurrent
    rcases h.epoch other with habsent | hloads
    · rw [(loadEpochRecord_eq_ok.mp hload).1] at habsent
      cases habsent
    · rw [hload] at hloads
      exact Except.ok.inj hloads

end Follow

/-! ## The hand-over is safe -/

/-- What a run of a manual transfer never violates. The trail says what each transfer file ever
held and which generations were entered; the newest comes first. -/
structure Exchange.Safe (t : Exchange) : Prop where
  /-- A record is signed by the participant of its phase: a committed one by its source. -/
  signer : ∀ peer record, .held peer record ∈ t.trail →
    record.signerPeerId = record.expectedSigner
  /-- For one successor generation a source holds records of one target and base only, in any
  phase: the accepted token that it is about to commit and the committed record it signed. -/
  committed : ∀ source first second, .held source first ∈ t.trail → .held source second ∈ t.trail →
    first.fromPeerId = source → second.fromPeerId = source → first.nextEpoch = second.nextEpoch →
      first.toPeerId = second.toPeerId ∧ first.baseSnapshotHash = second.baseSnapshotHash
  /-- A source holds an accepted token or a committed record only of a transfer that it held as
  prepared before. -/
  prepared : ∀ source record before, .held source record :: before <:+ t.trail →
    record.fromPeerId = source → record.phase ≠ .prepared →
      ∃ own, .held source own ∈ before ∧ own.key = record.key ∧ own.phase = .prepared
  /-- A peer activates only a transfer to itself that it held as accepted before. -/
  accepted : ∀ peer record epoch before, .entered peer record epoch true :: before <:+ t.trail →
    record.toPeerId = peer ∧
      ∃ own, .held peer own ∈ before ∧ own.key = record.key ∧ own.phase = .accepted
  /-- One peer at most activates a generation. -/
  activated : ∀ first second record record' epoch epoch',
    .entered first record epoch true ∈ t.trail → .entered second record' epoch' true ∈ t.trail →
      epoch.epochNumber = epoch'.epochNumber → first = second

theorem Handoff.Sound.safe {t : Exchange} {desks : PeerId → Desk} {founding : EpochRecordV1}
    (h : Handoff.Sound founding ⟨desks, t.trail⟩) : t.Safe where
  signer := h.signer
  committed := by
    intro source first second hfirst hsecond hsource hsource' hnumber
    have hkey := h.agree source first second hfirst hsecond hsource hsource' hnumber
    exact ⟨congrArg TransferKey.target hkey, congrArg TransferKey.base hkey⟩
  prepared := by
    intro source record before hsuffix hsource hphase
    have hordered := h.ordered source record before hsuffix hphase
    rw [hsource] at hordered
    exact hordered
  accepted := by
    intro peer record epoch before hsuffix
    have hentered : .entered peer record epoch true ∈ t.trail := hsuffix.subset List.mem_cons_self
    obtain ⟨_, _, hself, _⟩ := h.entered peer record epoch true hentered
    exact ⟨hself rfl, h.activated peer record epoch before hsuffix⟩
  activated := by
    intro first second record record' epoch epoch' hfirst hsecond hnumber
    obtain ⟨hauthority, _, hself, _⟩ := h.entered first record epoch true hfirst
    obtain ⟨hauthority', _, hself', _⟩ := h.entered second record' epoch' true hsecond
    have hsame := h.unique epoch epoch' (.inr ⟨first, record, true, hfirst⟩)
      (.inr ⟨second, record', true, hsecond⟩) hnumber
    rw [← hself rfl, ← hself' rfl, ← hauthority, ← hauthority']
    exact hsame

/-- Manual hand-over is safe in every run. -/
theorem handover_safe {C : Crypto} {F : Fleet C} {founding : EpochRecordV1} {s t : Exchange}
    (hstart : s.Starts C F founding) (hrun : Run (Exchange.Step C F) s t) : t.Safe := by
  obtain ⟨hlegible, hsound⟩ := hstart.sound
  obtain ⟨_, hfollows⟩ := Exchange.run_follows hrun hlegible
  exact (hsound.run hfollows).safe

namespace Founding

/-- The sleep record of a numbered world. -/
def sleeping (f : Founding) : SleepRecordV1 :=
  let unsigned : SleepRecordV1 := {
    protocolVersion := protocolVersionV1
    worldId := f.world .ideal
    latestSnapshotHash := (f.snapshot .ideal).manifestHash .ideal
    epoch := (f.epoch .ideal).epochNumber
    fencingToken := (f.epoch .ideal).fencingToken
    authorityPeerId := (f.epoch .ideal).authorityPeerId
    authorityPublicKey := (f.epoch .ideal).authorityPublicKey
    signature := .empty }
  { unsigned with
    signature := Crypto.ideal.sign (f.epoch .ideal).authorityPublicKey (.sleep unsigned) }

/-- A numbered world that sleeps everywhere. -/
def asleep (f : Founding) : Exchange where
  stores _ := { f.store .ideal with sleep := .present f.sleeping }
  trail := []

/-- An order about the transfer that a peer stored. -/
def withToken (actor holder : PeerId) (order : AuthorityTransferV1 → Command) (s : Exchange) :
    PeerId × Input :=
  match (s.stores holder).transfer with
  | .present token => (actor, .command (order token))
  | _ => (actor, .tick)

/-- An order about the epoch record that a peer stored. -/
def withEpoch (actor holder : PeerId) (order : EpochRecordV1 → Command) (s : Exchange) :
    PeerId × Input :=
  match (s.stores holder).epoch with
  | .present epoch => (actor, .command (order epoch))
  | _ => (actor, .tick)

/-- The first member hands its world over to the second one. -/
def handingOver : List (Exchange → PeerId × Input) := [
  fun _ => (first, .command (.prepareTransfer second)),
  withToken second first .acceptTransfer,
  withToken first second .commitTransfer,
  withToken second first .activateTransfer,
  withEpoch first second .observeTransfer]

end Founding

/-- What an event says of a phase or of an activation. -/
def HandoffEvent.summary : HandoffEvent → PeerId × Option TransferPhase × Bool
  | .held peer record => (peer, some record.phase, false)
  | .entered peer _ _ activated => (peer, none, activated)

/-- A world of two is handed over: the second member activates the transfer, the first one
observes it, and the run is safe. -/
theorem handover_safe_founding :
    let f := numbered 2
    let t := f.asleep.play .ideal f.fleet (f.node .ideal) Founding.handingOver
    t.trail.map HandoffEvent.summary = [
        (first, some .committed, false), (first, none, false),
        (first, some .committed, false), (second, some .committed, false),
        (second, none, true), (second, some .committed, false),
        (second, some .committed, false), (first, some .committed, false),
        (first, some .accepted, false), (second, some .accepted, false),
        (second, some .prepared, false), (first, some .prepared, false)] ∧
      t.Safe := by
  intro f t
  have hplays : f.asleep.Plays .ideal f.fleet (f.node .ideal) Founding.handingOver := by
    decide +kernel
  have hloads : loadEpochRecord f.fleet.world (f.asleep.stores first) =
      .ok (f.epoch .ideal) := by
    decide +kernel
  have hstart : f.asleep.Starts .ideal f.fleet (f.epoch .ideal) := by
    constructor
    · rfl
    · exact fun _ => rfl
    · exact fun _ => .inr hloads
  constructor
  · decide +kernel
  · exact handover_safe hstart (hplays.run .ideal f.fleet fun _ => rfl)

end SwarmCraft
