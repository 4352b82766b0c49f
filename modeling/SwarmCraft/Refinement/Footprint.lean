import SwarmCraft.Refinement.Basic
import SwarmCraft.System.State

/-!
# What each handler writes

A handler writes a fixed set of files, in the end and at each durable state on the way, where
a crash may leave the peer. `Touches` collects the files from the parts of the handler. What
else a handler may do, remember, send and record, is told by its manners: a relation that allows
the files and the manners holds between the states before and after the handler.
-/

namespace SwarmCraft

open Checked Effect Footprint

set_option synthInstance.maxSize 512

variable {C : Crypto} {site : Site} {channel : Channel} {files more : List File}
variable {α β : Type} {read : List File} {I : Store → Prop}
variable {store : Store} {f : LeaseRuntime → LeaseRuntime} {p : Prop} {peer self : PeerId}
  {vote : MembershipVoteV1} {request : WireRequest} {certificate : MembershipCertificateV1}
  {record : EpochRecordV1} {branch : SoloBranchV1} {ballot : RecoveryBallotV1} {wake : Bool}
  {proposal : MembershipProposalV1} {context : OutboundContext} {attempt : RecoveryAttempt}
  {promise : DurableMembershipPromiseV1} {authority : LocalAuthority} {sleep : Option SleepRecordV1}
  {token : AuthorityTransferV1}
variable {e' : Exec} {events : List Event} {heard : Heard} {base : List Stamp}
  {authenticatedPeers recoveryReplicationSent : LeaseRuntime → List PeerId}
  {recoveryBallot : LeaseRuntime → Option RecoveryBallotV1}
  {membershipVotes : LeaseRuntime → List (PeerId × MembershipVoteV1)}
  {recoveryRoundFloor permitHeartbeat : LeaseRuntime → Option Nat}
  {peerStatus : LeaseRuntime → PeerId → Option ObservedStatus} {event : Event} {other : PeerId}
  {capability : Option HostCapabilityV1} {requested finished intact : Bool}
  {world worldId : WorldId} {transfer : AuthorityTransferV1} {fence : Option SnapshotCommitFence}
  {act : PeerId → Daemon Unit} {texts : ArtifactTexts} {hash : Hash32} {encoding : BlobEncoding}
  {current : MembershipRecordV1} {generation : AuthorityGeneration} {latest : SnapshotManifestV1}
  {nonce : Nat}

/-- Only the listed files are written, in the end and on the way. -/
structure Writes (files : List File) (e e' : Exec) : Prop where
  store : Store.Apart files e.node.store e'.node.store
  trail : ∀ point ∈ e'.trail, point ∈ e.trail ∨ Store.Apart files e.node.store point.1

instance : Std.Refl (Writes files) where
  refl _ := ⟨.refl _ _, fun _ h => .inl h⟩

instance : IsTrans Exec (Writes files) where
  trans e₁ e₂ e₃ h₁₂ h₂₃ := by
    refine ⟨h₁₂.store.trans h₂₃.store, fun point hpoint => ?_⟩
    rcases h₂₃.trail point hpoint with hold | hnew
    · exact h₁₂.trail point hold
    · exact .inr (h₁₂.store.trans hnew)

/-- More files may be listed. -/
theorem Writes.mono {e : Exec} (h : Writes files e e') (hfiles : files ⊆ more) : Writes more e e' :=
  ⟨h.store.mono hfiles, fun point hpoint => (h.trail point hpoint).imp_right fun hnew =>
    hnew.mono hfiles⟩

/-- A property of other files is kept throughout. -/
theorem Writes.throughout {e : Exec}
    (h : Writes files e e') (hread : Store.Reads read I) (hapart : ∀ file ∈ read, file ∉ files) :
    Throughout I e e' := by
  intro he
  refine ⟨hread.keeps h.store hapart he, fun point hpoint => ?_⟩
  exact (h.trail point hpoint).imp_right fun hnew => hread.keeps hnew hapart he

theorem writes_written {e : Exec}
    (h : Store.Apart files e.node.store store) : Writes files e (e.written store events) := by
  refine ⟨h, fun point hpoint => ?_⟩
  simp only [Exec.written, List.mem_append, List.mem_singleton] at hpoint
  rcases hpoint with hold | rfl
  · exact .inl hold
  · exact .inr h

/-! ## Manners -/

/-- The change of memory only forgets reported host capabilities. -/
class Forgets (f : LeaseRuntime → LeaseRuntime) : Prop where
  forgets : ∀ runtime peer observed, (f runtime).peerCapability peer = some observed →
    runtime.peerCapability peer = some observed

/-- The change of memory leaves alone what the invariants of the protocol read. -/
class Neutral (f : LeaseRuntime → LeaseRuntime) : Prop where
  leaseAcks : ∀ runtime, (f runtime).leaseAcks = runtime.leaseAcks
  epochAcks : ∀ runtime, (f runtime).epochAcks = runtime.epochAcks
  inboundLease : ∀ runtime, (f runtime).inboundLease = runtime.inboundLease
  recoveryNotBefore : ∀ runtime, (f runtime).recoveryNotBefore = runtime.recoveryNotBefore
  recoveryVotes : ∀ runtime, (f runtime).recoveryVotes = runtime.recoveryVotes

/-- The change of memory learns nothing. -/
class Quiets (site : Site) (f : LeaseRuntime → LeaseRuntime) : Prop where
  quieter : ∀ node : Node, Quieter site node (f node.runtime)

instance [h : Neutral f] : Quiets site f where
  quieter _ := quieter_same (h.leaseAcks _) (h.epochAcks _) (h.inboundLease _)
    (h.recoveryNotBefore _) (h.recoveryVotes _)

/-- The response reports no host capability. -/
abbrev WireResponse.plain : WireResponse → Bool
  | .hostCapability _ => false
  | _ => true

/-- The response neither reports a host capability nor acknowledges a lease. -/
abbrev WireResponse.modest : WireResponse → Bool
  | .hostCapability _ | .leaseAccepted _ _ => false
  | _ => true

/-- The packet reports no host capability. -/
def Packet.plain (packet : Packet) : Bool :=
  match packet.body with
  | .request _ => true
  | .response answer => answer.plain

/-- What a handler may do besides writing files; at least a change of memory that leaves alone
what the invariants and the host selection read. -/
structure Manners where
  memory : (LeaseRuntime → LeaseRuntime) → Prop
  packet : Packet → Prop
  event : Event → Prop
  neutral : ∀ f, Forgets f → Neutral f → memory f

/-- No host capability is reported and none is remembered. -/
def Manners.plain : Manners where
  memory := Forgets
  packet packet := packet.plain = true
  event _ := True
  neutral _ h _ := h

/-- Nothing is learned, no lease is acknowledged and no event is recorded. -/
def Manners.quiet (C : Crypto) (site : Site) : Manners where
  memory := Quiets site
  packet packet := packet.src = site.peer C ∧
    ∀ epoch fencingToken, packet.body ≠ .response (.leaseAccepted epoch fencingToken)
  event _ := False
  neutral _ _ _ := inferInstance

/-- What a relation has to allow so that every handler of these files and manners moves along
it. -/
structure Frames (M : Manners) (files : List File) (R : Exec → Exec → Prop) : Prop
    extends Std.Refl R, IsTrans Exec R where
  written : ∀ (e : Exec) (store : Store) (events : List Event),
    Store.Apart files e.node.store store → (∀ event ∈ events, M.event event) →
      R e (e.written store events)
  logged : ∀ (e : Exec) (entry : Entry), M.event entry.event →
    R e { e with log := e.log ++ [entry] }
  remembered : ∀ (e : Exec) (f : LeaseRuntime → LeaseRuntime), M.memory f →
    R e { e with node := { e.node with runtime := f e.node.runtime } }
  pending : ∀ (e : Exec) (manifest : Option SnapshotManifestV1),
    R e { e with node := { e.node with pendingManifest := manifest } }
  tabled : ∀ (e : Exec) (outbound : List (Nat × OutboundContext)) (nextRequest : Nat),
    R e { e with node := { e.node with outbound := outbound, nextRequest := nextRequest } }
  queued : ∀ (e : Exec) (packet : Packet), M.packet packet →
    R e { e with outbox := e.outbox ++ [packet] }

variable {M : Manners} {R : Exec → Exec → Prop}

theorem frames_writes : Frames M files (Writes files) where
  refl := Std.Refl.refl
  trans := IsTrans.trans
  written _ _ _ h _ := writes_written h
  logged _ _ _ := ⟨.refl _ _, fun _ h => .inl h⟩
  remembered _ _ _ := ⟨.refl _ _, fun _ h => .inl h⟩
  pending _ _ := ⟨.refl _ _, fun _ h => .inl h⟩
  tabled _ _ _ := ⟨.refl _ _, fun _ h => .inl h⟩
  queued _ _ _ := ⟨.refl _ _, fun _ h => .inl h⟩

theorem Frames.mono (frames : Frames M more R) (h : files ⊆ more) : Frames M files R :=
  { frames with
    written := fun e store events hstore => frames.written e store events (hstore.mono h) }

/-- The files that the invariants of the protocol do not read. -/
abbrev File.quiet : List File :=
  [.metadata, .descriptor, .membershipCertificate, .membershipCertificates, .pendingJoin,
    .pendingLeave, .recoveryCertificate, .transfer, .sleep, .soloBranch, .soloConflicts,
    .commitPending, .blobs, .wakeRequested, .permit, .soloPolicy]

/-- Quiet handlers of such files only make moves of the peer. -/
theorem frames_follows : Frames (.quiet C site) File.quiet (Follows C site heard base) where
  refl := Std.Refl.refl
  trans := IsTrans.trans
  written e store events hstore hevents := by
    obtain rfl : events = [] := List.eq_nil_iff_forall_not_mem.mpr hevents
    refine follows_written (.quiet ⟨?_, ?_, ?_, ?_, ?_⟩)
    · exact hstore .epoch (by decide)
    · exact hstore .recoveryPromise (by decide)
    · exact hstore .membership (by decide)
    · exact hstore .membershipPromise (by decide)
    · exact hstore .snapshots (by decide)
  logged _ _ h := h.elim
  remembered e _ h := along_updateRuntime (.quiet (h.quieter e.node))
  pending e _ := follows_bookkept e _ _ _
  tabled e _ _ := follows_bookkept e _ _ _
  queued e packet h := by
    refine ⟨.refl, fun _ hp => .inl hp, fun other hother => ?_, List.prefix_refl _⟩
    rcases List.mem_append.mp hother with hold | hnew
    · exact .inl hold
    · rw [List.mem_singleton.mp hnew]
      exact .inr ⟨h.1, fun epoch fencingToken hbody => absurd hbody (h.2 epoch fencingToken)⟩

/-! ## Programs -/

/-- The program writes the listed files and keeps to the manners. -/
class Touches (M : Manners) (files : outParam (List File)) (m : Daemon α) : Prop where
  always : ∀ {R : Exec → Exec → Prop}, Frames M files R → Always R m

/-- The program moves along every relation that allows more. -/
theorem Frames.always {m : Daemon α} (frames : Frames M more R) [h : Touches M files m]
    (hfiles : files ⊆ more) : Always R m :=
  h.always (frames.mono hfiles)

/-- What the program writes. -/
theorem writes (m : Daemon α) [h : Touches .plain files m] : Always (Writes files) m :=
  h.always frames_writes

/-- Every other file is as before when the program returns. -/
theorem content_of_run {m : Daemon α} [Touches .plain files m] {e t : Exec} {a : α}
    (hrun : m e = (.ok a, t)) (file : File) (h : file ∉ files) :
    t.node.store.content file = e.node.store.content file :=
  ((writes m).of_run hrun).store file h

/-- A program that writes other files keeps a property of the store. -/
theorem kept_of_touches {m : Daemon α} [Touches .plain files m] (hread : Store.Reads read I)
    (hapart : ∀ file ∈ read, file ∉ files) : Always (Kept fun e => I e.node.store) m :=
  fun e he => hread.keeps (writes m e).store hapart he

/-- A program that writes other files keeps a property of the store throughout. -/
theorem throughout_of_touches {m : Daemon α} [Touches .plain files m] (hread : Store.Reads read I)
    (hapart : ∀ file ∈ read, file ∉ files) : Always (Throughout I) m :=
  fun e => (writes m e).throughout hread hapart

/-- A quiet program only makes moves of the peer. -/
theorem tame {m : Daemon α} [Touches (.quiet C site) files m]
    (h : files ⊆ File.quiet) : Tame C site heard base m :=
  frames_follows.always h

namespace Touches

/-- A program that writes less. -/
theorem of {m : Daemon α} [h : Touches M files m] (hfiles : files ⊆ more) : Touches M more m where
  always frames := h.always (frames.mono hfiles)

/-- A step before a program that depends on its result. -/
theorem bind {m : Daemon α} {k : α → Daemon β} [Touches M files m] (h : files ⊆ more)
    (hk : ∀ a, Touches M more (k a)) : Touches M more (m >>= k) where
  always frames :=
    have := frames.toIsTrans
    .bind (frames.always h) fun a => (hk a).always frames

/-- A step that writes nothing before a program that depends on its result. -/
theorem after {m : Daemon α} {k : α → Daemon β} [Touches M [] m]
    (hk : ∀ a, Touches M more (k a)) : Touches M more (m >>= k) :=
  bind (List.nil_subset _) hk

theorem onlyIf [Decidable p] {m : Daemon Unit} (h : Touches M files m) :
    Touches M files (onlyIf p m) where
  always frames :=
    have := frames.toRefl
    .onlyIf fun _ => h.always frames

theorem onSome {o : Option α} {k : α → Daemon Unit} (h : ∀ a, Touches M files (k a)) :
    Touches M files (onSome o k) where
  always frames :=
    have := frames.toRefl
    .onSome fun a _ => (h a).always frames

/-- A write that cannot be refused. -/
theorem write {f : Store → Store} (h : ∀ store, Store.Apart files store (f store)) :
    Touches M files (write f) where
  always frames _ := frames.written _ _ _ (h _) fun _ hevent => nomatch hevent

/-- A write of one file. -/
theorem put (file : File) {f : Store → Store} {x : Store → file.Content}
    (h : ∀ store, f store = store.put file (x store)) : Touches M [file] (SwarmCraft.write f) :=
  write fun store => h store ▸ store.apart_put file List.mem_cons_self _

/-- A write that may be refused. -/
theorem save {f : Store → Except StorageError Store}
    (h : ∀ store store', f store = .ok store' → Store.Apart files store store') :
    Touches M files (save [] f) where
  always frames _ :=
    have := frames.toRefl
    along_save_rel fun _ hf => frames.written _ _ _ (h _ _ hf) fun _ hevent => nomatch hevent

/-- A write of one file after a check. -/
theorem checked (file : File) {f : Store → Except StorageError Store}
    {p : Store → Except StorageError α} {x : Store → α → file.Content}
    (h : ∀ store, f store = p store >>= fun a => pure (store.put file (x store a))) :
    Touches M [file] (SwarmCraft.save [] f) := by
  refine save fun store store' hsaved => ?_
  simp only [h, bind_eq_ok, pure_eq_ok] at hsaved
  obtain ⟨_, _, rfl⟩ := hsaved
  exact store.apart_put file List.mem_cons_self _

end Touches

section Structure

instance (a : α) : Touches M [] (pure a : Daemon α) where
  always frames _ := frames.refl _

instance (x : Except DaemonError α) : Touches M [] (check x) where
  always frames _ := frames.refl _

instance : Touches M [] readStore where
  always frames _ := frames.refl _

instance : Touches M [] readRuntime where
  always frames _ := frames.refl _

instance : Touches M [] readHost where
  always frames _ := frames.refl _

instance : Touches M [] readPendingManifest where
  always frames _ := frames.refl _

instance {m : Daemon α} {k : α → Daemon β} [Touches M files m] [h : ∀ a, Touches M more (k a)] :
    Touches M (files ++ more) (m >>= k) :=
  .bind (List.subset_append_left _ _) fun _ => .of (List.subset_append_right _ _)

instance [Decidable p] {m m' : Daemon α} [Touches M files m] [Touches M more m'] :
    Touches M (files ++ more) (if p then m else m') := by
  split
  · exact .of (List.subset_append_left _ _)
  · exact .of (List.subset_append_right _ _)

instance [Decidable p] {m : Daemon Unit} [h : Touches M files m] :
    Touches M files (onlyIf p m) :=
  .onlyIf h

instance {o : Option α} {k : α → Daemon Unit} [h : ∀ a, Touches M files (k a)] :
    Touches M files (onSome o k) :=
  .onSome h

instance {l : List α} {k : α → Daemon Unit} [h : ∀ a, Touches M files (k a)] :
    Touches M files (l.forM k) where
  always frames :=
    have := frames.toRefl
    have := frames.toIsTrans
    .forM fun a => (h a).always frames

end Structure

/-! ## Memory, events and packets -/

instance {leaseAcks : LeaseRuntime → PeerId → Option LeaseAck}
    {recoveryVotes : LeaseRuntime → List (PeerId × RecoveryVoteV1)}
    {recoveryNotBefore : LeaseRuntime → Option Nat}
    {epochAcks : LeaseRuntime → PeerId → Option AuthorityGeneration}
    {inboundLease : LeaseRuntime → Option InboundLease}
    :
    Forgets fun runtime => ⟨authenticatedPeers runtime, leaseAcks runtime, recoveryBallot runtime,
      recoveryVotes runtime, membershipVotes runtime, recoveryRoundFloor runtime, epochAcks runtime,
      permitHeartbeat runtime, inboundLease runtime, peerStatus runtime, runtime.peerCapability,
      recoveryNotBefore runtime, recoveryReplicationSent runtime⟩ :=
  ⟨fun _ _ _ h => h⟩

instance {peerCapability : LeaseRuntime → PeerId → Option ObservedCapability} :
    Neutral fun runtime => ⟨authenticatedPeers runtime, runtime.leaseAcks, recoveryBallot runtime,
      runtime.recoveryVotes, membershipVotes runtime, recoveryRoundFloor runtime, runtime.epochAcks,
      permitHeartbeat runtime, runtime.inboundLease, peerStatus runtime, peerCapability runtime,
      runtime.recoveryNotBefore, recoveryReplicationSent runtime⟩ :=
  ⟨fun _ => rfl, fun _ => rfl, fun _ => rfl, fun _ => rfl, fun _ => rfl⟩

instance :
    Forgets fun runtime => runtime.withMembershipVote peer vote :=
  ⟨fun _ _ _ h => h⟩

instance :
    Neutral fun runtime => runtime.withMembershipVote peer vote :=
  ⟨fun _ => rfl, fun _ => rfl, fun _ => rfl, fun _ => rfl, fun _ => rfl⟩

instance [h : Forgets f] [h' : Neutral f] :
    Touches M [] (updateRuntime f) where
  always frames _ := frames.remembered _ _ (M.neutral f h h')

instance [h : Quiets site f] :
    Touches (.quiet C site) [] (updateRuntime f) where
  always frames _ := frames.remembered _ _ h

instance [h : Forgets f] :
    Touches .plain [] (updateRuntime f) where
  always frames _ := frames.remembered _ _ h

instance [h : Forgets f] :
    Touches .plain [] (learn event f) where
  always frames e := frames.trans _ _ _ (frames.remembered e f h) (frames.logged _ _ trivial)

instance : Touches .plain [] (SwarmCraft.record event) where
  always frames _ := frames.logged _ _ trivial

instance {manifest : Option SnapshotManifestV1} : Touches M [] (setPendingManifest manifest) where
  always frames _ := frames.pending _ _

instance {number : Nat} : Touches M [] (takeContext number) where
  always frames e := frames.tabled e _ e.node.nextRequest

/-- Clearing an entry of a table forgets only. -/
theorem update_none_eq_some {table : PeerId → Option α} {a : α}
    (h : Function.update table peer none other = some a) : table other = some a := by
  by_cases hother : other = peer
  · rw [hother, Function.update_self] at h
    cases h
  · rwa [Function.update_of_ne hother] at h

/-- The peer may send requests. -/
class Manners.Asks (M : Manners) (self : PeerId) : Prop where
  packet : ∀ peer number request, M.packet ⟨self, peer, number, .request request⟩

/-- The peer may answer on the channel, but for host capabilities and leases. -/
class Manners.Serves (M : Manners) (channel : Channel) : Prop where
  packet : ∀ response : WireResponse, response.modest = true →
    M.packet ⟨channel.self, channel.requester, channel.number, .response response⟩

instance (self : PeerId) : Manners.plain.Asks self := ⟨fun _ _ _ => rfl⟩

instance : (Manners.quiet C site).Asks (site.peer C) := ⟨fun _ _ _ => ⟨rfl, fun _ _ h => nomatch h⟩⟩

instance : Manners.plain.Serves channel where
  packet response h := by
    cases response <;> first | rfl | cases h

instance [h : Fact (channel.self = site.peer C)] : (Manners.quiet C site).Serves channel where
  packet response hmodest := ⟨h.out, fun _ _ hbody => by cases hbody; cases hmodest⟩

/-- The condition holds by evaluation. -/
class Evident (b : Bool) : Prop where
  eq_true : b = true

instance : Evident true := ⟨rfl⟩

instance {remember : Option OutboundContext}
    [M.Asks self] : Touches M [] (sendRequest self peer request remember) where
  always frames e := frames.trans _ _ _ (frames.tabled e _ _)
    (frames.queued _ _ (Manners.Asks.packet _ _ _))

instance {response : WireResponse} [h : M.Serves channel] [hmodest : Evident response.modest] :
    Touches M [] (respond channel response) where
  always frames _ := frames.queued _ _ (h.packet _ hmodest.eq_true)

instance {epoch fencingToken : Nat} :
    Touches .plain [] (respond channel (.leaseAccepted epoch fencingToken)) where
  always frames _ := frames.queued _ _ rfl

instance [h : Fact (channel.self = site.peer C)] :
    Touches (.quiet C site) [] (respond channel (.hostCapability capability)) where
  always frames _ := frames.queued _ _ ⟨h.out, fun _ _ hbody => nomatch hbody⟩

/-! ## Storage operations -/

/-- Saving a descriptor replaces the descriptor only. -/
theorem saveWorldDescriptor_eq_ok {descriptor : WorldDescriptorV1} {store' : Store}
    (h : saveWorldDescriptor descriptor store = .ok store') :
    store' = { store with descriptor := .present descriptor.normalize } := by
  simp only [saveWorldDescriptor, bind_eq_ok, pure_eq_ok] at h
  obtain ⟨_, _, _, _, rfl⟩ := h
  rfl

instance : Touches M [.permit] clearPermit :=
  .put .permit fun _ => rfl

instance : Touches M [.sleep] (write clearSleepRecord) :=
  .put .sleep fun _ => rfl

instance : Touches M [.wakeRequested] (write clearWorldWakeRequest) :=
  .put .wakeRequested fun _ => rfl

instance : Touches M [.pendingJoin] (write clearPendingJoin) :=
  .put .pendingJoin fun _ => rfl

instance : Touches M [.pendingLeave] (write clearPendingLeave) :=
  .put .pendingLeave fun _ => rfl

instance :
    Touches M [.membershipCertificate] (write (publishMembershipCertificate certificate)) :=
  .put .membershipCertificate fun _ => rfl

instance {permit : Option AuthorityPermit} :
    Touches M [.permit] (write fun store => { store with permit := permit }) :=
  .put .permit fun _ => rfl

instance {blobs : Store → List BlobDescriptor} :
    Touches M [.blobs] (write fun store => { store with blobs := blobs store }) :=
  .put .blobs fun _ => rfl

instance {policy : Option Bool} :
    Touches M [.soloPolicy] (write fun store => { store with soloPolicy := policy }) :=
  .put .soloPolicy fun _ => rfl

instance :
    Touches M [.wakeRequested] (write fun store => { store with wakeRequested := requested }) :=
  .put .wakeRequested fun _ => rfl

instance {acceptedEpoch : Nat} : Touches M [.recoveryPromise]
    (write (clearRecoveryPromiseAfterEpochAdvance C world acceptedEpoch)) :=
  .put .recoveryPromise fun store => clearRecoveryPromise_keeps world acceptedEpoch store

instance {record : MembershipRecordV1} : Touches M [.membershipPromise]
    (write (clearMembershipPromiseAfterCommit C world (record.recordHash C))) :=
  .put .membershipPromise fun store => clearMembershipPromise_keeps world record store

instance {certificate : RecoveryCertificateV1} :
    Touches M [.recoveryCertificate] (save [] (saveRecoveryCertificate C certificate)) :=
  .checked .recoveryCertificate fun _ => rfl

instance :
    Touches M [.transfer] (save [] (saveTransferRecord transfer)) :=
  .checked .transfer fun _ => rfl

instance {record : SleepRecordV1} : Touches M [.sleep] (save [] (saveSleepRecord record)) :=
  .checked .sleep fun _ => rfl

instance : Touches M [.soloBranch] (save [] (saveSoloBranch branch)) :=
  .checked .soloBranch fun _ => rfl

instance {metadata : WorldMetadataV1} : Touches M [.metadata] (save [] (createWorld C metadata)) :=
  .checked .metadata fun _ => rfl

instance {request : JoinRequestV1} :
    Touches M [.pendingJoin] (save [] (savePendingJoin C request)) :=
  .checked .pendingJoin fun _ => rfl

instance {request : LeaveRequestV1} :
    Touches M [.pendingLeave] (save [] (savePendingLeave C request)) :=
  .checked .pendingLeave fun _ => rfl

instance {record : MembershipRecordV1} :
    Touches M [.membership] (save [] (saveMembershipRecord C record)) := by
  refine .save fun store store' hsaved => ?_
  rw [(saveMembershipRecord_eq_ok hsaved).1]
  exact store.apart_put .membership (by decide) _

instance {descriptor : WorldDescriptorV1} :
    Touches M [.descriptor] (save [] (saveWorldDescriptor descriptor)) := by
  refine .save fun store store' hsaved => ?_
  rw [saveWorldDescriptor_eq_ok hsaved]
  exact store.apart_put .descriptor (by decide) _

instance :
    Touches M [.soloConflicts] (save [] (preserveSoloConflict C branch)) := by
  refine .save fun store store' hsaved => ?_
  simp only [preserveSoloConflict, bind_eq_ok] at hsaved
  obtain ⟨_, _, hsaved⟩ := hsaved
  split at hsaved
  · cases hsaved
    exact .refl _ _
  · cases hsaved
    exact store.apart_put .soloConflicts (by decide) _

instance :
    Touches M [.membershipCertificates] (save [] (archiveMembershipCertificate certificate)) := by
  refine .save fun store store' hsaved => ?_
  unfold archiveMembershipCertificate at hsaved
  split at hsaved
  · simp only [bind_eq_ok, pure_eq_ok] at hsaved
    obtain ⟨_, _, rfl⟩ := hsaved
    exact .refl _ _
  · cases hsaved
    exact store.apart_put .membershipCertificates (by decide) _

instance {manifest : SnapshotManifestV1} :
    Touches M [.commitPending] (save [] (beginSnapshotCommit C fence manifest)) := by
  refine .save fun store store' hbegin => ?_
  rw [(beginSnapshotCommit_eq_ok hbegin).1]
  exact store.apart_put .commitPending (by decide) true

/-- The files of a snapshot commit. -/
abbrev File.commit : List File := [.snapshots, .commitPending]

instance {manifest : SnapshotManifestV1} :
    Touches M File.commit (write (finishSnapshotCommit manifest)) := by
  refine .write fun store => ?_
  have hhead : Store.Apart File.commit store (store.put .snapshots (manifest :: store.snapshots)) :=
    store.apart_put .snapshots (by decide) _
  exact hhead.trans (Store.apart_put .commitPending (by decide) false _)

instance :
    Touches .plain [.epoch] (save events (saveEpochRecord record)) where
  always frames _ := by
    have := frames.toRefl
    refine along_save_rel fun store hsaved => frames.written _ _ _ ?_ fun _ _ => trivial
    rw [(saveEpochRecord_eq_ok hsaved).1]
    exact Store.apart_put .epoch (by decide) _ _

instance {vote : RecoveryVoteV1} :
    Touches .plain [.recoveryPromise] (promiseBallot C ballot vote wake) where
  always frames _ := by
    have := frames.toRefl
    refine along_saveAnswer_rel fun _ _ hsaved => frames.written _ _ _ ?_ fun _ _ => trivial
    rw [promiseRecoveryBallot_keeps hsaved]
    exact Store.apart_put .recoveryPromise (by decide) _ _

instance :
    Touches .plain [.membershipPromise] (prepareMembership C proposal vote) where
  always frames _ := by
    have := frames.toRefl
    refine along_saveAnswer_rel fun _ _ hsaved => frames.written _ _ _ ?_ fun _ _ => trivial
    rw [promiseMembershipProposal_keeps (Except.ok.inj hsaved)]
    exact Store.apart_put .membershipPromise (by decide) _ _

/-! ## Sending -/

/-- The daemon's memory is the same. -/
def SameRuntime (e t : Exec) : Prop := t.node.runtime = e.node.runtime

instance : Std.Refl SameRuntime := ⟨fun _ => rfl⟩

instance : IsTrans Exec SameRuntime := ⟨fun _ _ _ h h' => h'.trans h⟩

theorem sameRuntime_sendUnlessPending
    : Always SameRuntime (sendUnlessPending self peer request context) :=
  .bind (fun _ => rfl) fun _ => .onlyIf fun _ _ => along_modifyState rfl

section Sends

variable [M.Asks (site.peer C)]

instance [M.Asks self] :
    Touches M [] (sendUnlessPending self peer request context) where
  always frames :=
    have := frames.toIsTrans
    .bind (fun _ => frames.refl _) fun _ => frames.always (List.Subset.refl _)

instance {descriptor : WorldDescriptorV1} [∀ peer, Touches M files (act peer)] :
    Touches M files (forConnectedMembers C site descriptor act) := by
  unfold forConnectedMembers
  exact .of (List.Subset.refl _)

instance [∀ peer, Touches M files (act peer)] :
    Touches M files (forVisiblePeers C site attempt act) := by
  unfold forVisiblePeers
  exact .of (List.Subset.refl _)

instance : Touches M [] (pushPendingMembershipRequests C site peer) := by
  unfold pushPendingMembershipRequests
  exact .of (by decide)

instance : Touches M [] (pushEpoch C site peer store) := by
  unfold pushEpoch
  exact .of (by decide)

instance {includeMembership : Bool} :
    Touches M [] (pushCommittedWorldPayload C site peer includeMembership) := by
  unfold pushCommittedWorldPayload
  exact .of (by decide)

instance : Touches M [] (pushKnownWorlds C site peer) := by
  refine .after fun store => .after fun host => .onSome fun descriptor => .onlyIf ?_
  split <;> infer_instance

instance {descriptor : WorldDescriptorV1} :
    Touches M [] (requestWorldStatuses C site descriptor) := by
  unfold requestWorldStatuses
  exact .of (by decide)

instance {descriptor : WorldDescriptorV1} :
    Touches M [] (requestHostCapabilities C site descriptor) := by
  unfold requestHostCapabilities
  exact .of (by decide)

end Sends

/-! ## Snapshots -/

instance {manifest : SnapshotManifestV1} :
    Touches M File.commit (commitSnapshot C fence manifest) := by
  unfold commitSnapshot
  exact .of (by decide)

instance {manifest : SnapshotManifestV1} : Touches M File.commit (finalizeAndAck C manifest) := by
  unfold finalizeAndAck
  exact .of (by decide)

instance {epoch : EpochRecordV1} :
    Touches M File.commit (ensurePromotedSnapshot C site texts epoch) := by
  unfold ensurePromotedSnapshot
  exact .of (by decide)

instance {epoch : EpochRecordV1} {membership : MembershipRecordV1} :
    Touches M [.membership] (ensurePromotedMembership C site texts epoch membership) := by
  unfold ensurePromotedMembership
  exact .of (by decide)

instance {epoch : EpochRecordV1} :
    Touches M (.membership :: File.commit) (ensureRecoveryArtifacts C site epoch) := by
  unfold ensureRecoveryArtifacts
  exact .of (by decide)

instance {epoch : EpochRecordV1} :
    Touches M (.membership :: File.commit) (ensureAuthorityArtifacts C site epoch) := by
  unfold ensureAuthorityArtifacts
  exact .of (by decide)

section Head

variable {e : Exec} {manifest : SnapshotManifestV1}

theorem writes_finalize_head (hhead : e.node.store.snapshots.head? = some manifest) :
    Along (Writes []) (do finalizeAndAck C manifest; setPendingManifest none) e := by
  refine along_bind ?_ fun _ t _ => writes (setPendingManifest none) t
  refine along_readStore (along_check fun _ _ => along_check fun finalized hfinalized => ?_)
  refine along_onlyIf fun hnot => ?_
  simp only [replicaFinalized, latestSnapshot, ofStorage_eq_ok, bind_eq_ok, pure_eq_ok,
    hhead] at hfinalized
  obtain ⟨_, _, _, _, _, ⟨_, _, rfl⟩, rfl⟩ := hfinalized
  simp at hnot

theorem writes_handleSnapshotManifest_head (hhead : e.node.store.snapshots.head? = some manifest) :
    Along (Writes []) (handleSnapshotManifest C channel manifest) e := by
  refine along_readStore (along_check fun _ _ => ?_)
  refine along_bind (writes (setPendingManifest _) e) fun _ t ht => ?_
  refine along_bind (writes (respond _ _) t) fun _ u hu => along_onlyIf fun _ => ?_
  cases ht
  cases hu
  exact writes_finalize_head hhead

/-- Receiving a blob while the manifest that waits for it is the canonical head. -/
theorem writes_handleBlobChunk_head (hhead : ∀ manifest, e.node.pendingManifest = some manifest →
      e.node.store.snapshots.head? = some manifest) :
    Along (Writes [.blobs]) (handleBlobChunk C channel worldId hash encoding finished intact) e := by
  refine along_readStore (along_readPendingManifest (along_check fun _ _ => ?_))
  refine along_check fun target htarget => ?_
  simp only [blobChunkTarget, bind_eq_ok, required_eq_ok, pure_eq_ok] at htarget
  obtain ⟨manifest, hmanifest, _, _, _, _, _, _, rfl⟩ := htarget
  refine along_bind (writes (onlyIf _ _) e) fun _ t ht => ?_
  have hsame := content_of_run ht .snapshots (by decide)
  refine along_bind ((writes (respond _ _) t).mono (by decide)) fun _ u hu => ?_
  refine along_readStore (along_onlyIf fun _ => ?_)
  cases hu
  apply Writes.mono _ (List.nil_subset _)
  exact writes_finalize_head ((congrArg List.head? hsame).trans (hhead manifest hmanifest))

end Head

/-! ## Membership changes -/

/-- The files that a prepared change touches. -/
abbrev File.prepare : List File := [.membershipPromise, .permit]

/-- The files of an applied certificate. -/
abbrev File.apply : List File :=
  [.membership, .descriptor, .membershipPromise, .pendingJoin, .pendingLeave]

instance : Touches M [] clearPermitHeartbeat := by
  unfold clearPermitHeartbeat
  infer_instance

instance {descriptor : WorldDescriptorV1} :
    Touches M [.pendingJoin, .pendingLeave] (clearSatisfiedPendingMembership C descriptor) := by
  unfold clearSatisfiedPendingMembership
  exact .of (by decide)

instance :
    Touches M File.apply (applyMembershipCertificate C certificate) := by
  unfold applyMembershipCertificate
  exact .of (by decide)

instance :
    Touches M [.membershipCertificate, .membershipCertificates]
      (saveMembershipCertificate certificate) := by
  unfold saveMembershipCertificate
  exact .of (by decide)

section Answers

variable [M.Asks (site.peer C)] [M.Serves channel] {accepted : Nat → WireResponse}
  [∀ sequence, Evident (accepted sequence).modest]

instance {members : List WorldMemberV1} :
    Touches .plain File.prepare (proposeMembers C site channel current members accepted) := by
  unfold proposeMembers
  exact .of (by decide)

instance :
    Touches M [] (resumeProposal C site channel current promise requested accepted) := by
  unfold resumeProposal
  exact .of (by decide)

end Answers

instance {request : JoinRequestV1} :
    Touches .plain File.prepare (handleJoinRequest C site channel request) := by
  refine .after fun store => .after fun host => .after fun target => ?_
  dsimp only
  split
  · exact .of (by decide)
  · split <;> exact .of (by decide)

instance {request : LeaveRequestV1} :
    Touches .plain File.prepare (handleLeaveRequest C site channel request) := by
  refine .after fun store => .after fun target => ?_
  dsimp only
  split <;> exact .of (by decide)

instance :
    Touches .plain File.prepare (handleMembershipProposal C site channel proposal) := by
  unfold handleMembershipProposal
  exact .of (by decide)

/-- The files of a committed certificate. -/
abbrev File.certify : List File := [.membershipCertificate, .membershipCertificates] ++ File.apply

instance [M.Serves channel] :
    Touches M (.permit :: File.certify) (handleMembershipCommit C site channel certificate) := by
  unfold handleMembershipCommit
  exact .of (by decide)

instance [M.Serves channel] {record : MembershipRecordV1} :
    Touches M [.membership, .descriptor, .pendingJoin, .pendingLeave]
      (handleMembership C channel record) := by
  unfold handleMembership
  exact .of (by decide)

instance : Touches M File.apply (recoverCommittedMembership C site) := by
  refine .after fun store => .after fun host => .onSome fun certificate => .after fun found => ?_
  cases found <;> exact .of (by decide)

instance [M.Asks (site.peer C)] :
    Touches M [] (sendProposals C site proposal) := by
  unfold sendProposals
  exact .of (by decide)

instance [M.Asks (site.peer C)] :
    Touches M [] (sendCommits C site certificate) := by
  unfold sendCommits
  exact .of (by decide)

instance [M.Asks (site.peer C)] :
    Touches M File.certify (driveProposal C site promise) := by
  unfold driveProposal
  exact .of (by decide)

instance [M.Asks (site.peer C)] :
    Touches M File.certify (maintainMembershipTransition C site promise) := by
  unfold maintainMembershipTransition
  exact .of (by decide)

/-! ## Epochs, recovery, transfers and sleep -/

/-- The files of an accepted recovery record. -/
abbrev File.recover : List File :=
  [.recoveryCertificate, .epoch, .sleep, .wakeRequested, .recoveryPromise]

instance :
    Touches M [.sleep, .wakeRequested, .recoveryPromise] (leaveSleep C record) := by
  unfold leaveSleep
  exact .of (by decide)

instance :
    Touches .plain [.recoveryPromise] (handleRecoveryBallot C site channel ballot) := by
  refine .after fun _ => .after fun _ => .after fun _ => .after fun _ => .bind (by decide) fun _ => ?_
  split <;> exact .of (by decide)

instance {certificate : RecoveryCertificateV1} :
    Touches .plain File.recover (handleRecoveryEpoch C channel record certificate) := by
  unfold handleRecoveryEpoch
  exact .of (by decide)

instance :
    Touches .plain [.epoch, .sleep] (handleEpoch C channel record) := by
  unfold handleEpoch
  exact .of (by decide)

section Answers

variable [M.Serves channel]

instance :
    Touches M [.transfer] (handleAuthorityTransfer C channel transfer) := by
  unfold handleAuthorityTransfer
  exact .of (by decide)

instance {record : SleepRecordV1} : Touches M [.sleep] (handleSleep C channel record) := by
  unfold handleSleep
  exact .of (by decide)

instance :
    Touches M [.soloBranch, .soloConflicts] (handleSoloBranch C channel branch) := by
  refine .after fun _ => .after fun _ => .after fun found => ?_
  cases found <;> exact .of (by decide)

instance : Touches M [] (handleWorldStatus C site channel) := by
  unfold handleWorldStatus
  exact .of (by decide)

instance {manifest : SnapshotManifestV1} :
    Touches M File.commit (handleSnapshotManifest C channel manifest) := by
  unfold handleSnapshotManifest
  exact .of (by decide)

instance :
    Touches M (.blobs :: File.commit)
      (handleBlobChunk C channel worldId hash encoding finished intact) := by
  unfold handleBlobChunk
  exact .of (by decide)

end Answers

instance {expiresAt : Nat} :
    Forgets fun runtime => runtime.granted generation expiresAt :=
  ⟨fun _ _ _ h => h⟩

instance {lease : AuthorityLeaseGrantV1} :
    Touches .plain [] (handleLeaseGrant C site channel lease) := by
  unfold handleLeaseGrant
  exact .of (by decide)


/-! ## The tick -/

instance {now : Nat} : Forgets fun runtime => runtime.startRecoveryDelay now := by
  refine ⟨fun runtime peer observed h => ?_⟩
  simp only [LeaseRuntime.startRecoveryDelay] at h
  split at h <;> exact h

instance : Forgets LeaseRuntime.promoted := ⟨fun _ _ _ h => h⟩

instance : Forgets LeaseRuntime.clearSleepingWorld := ⟨fun _ _ _ h => h⟩

instance : Forgets LeaseRuntime.clearRuntimeWorld := ⟨fun _ _ _ h => nomatch h⟩

instance [M.Asks (site.peer C)] :
    Touches M [] (maintainRecoveryEpochQuorum C site authority) := by
  unfold maintainRecoveryEpochQuorum
  exact .of (by decide)

instance {epoch : EpochRecordV1} : Touches M [.soloBranch] (refreshSoloBranch C site epoch) := by
  unfold refreshSoloBranch
  exact .of (by decide)

instance :
    Touches .plain [.epoch] (promoteSoloToQuorum C site authority) := by
  unfold promoteSoloToQuorum
  exact .of (by decide)

instance {quorum : Bool} :
    Touches .plain [.permit] (settlePermit C site authority quorum) := by
  unfold settlePermit refreshPermit
  exact .of (by decide)

section Reign

variable {Q : Exec → Exec → Prop} [Std.Refl Q] [IsTrans Exec Q] {descriptor : WorldDescriptorV1}
  {epoch : EpochRecordV1}
  (hpermit : ∀ {α : Type} {m : Daemon α}, Touches .plain [.permit] m → Always Q m)
  (hsolo : epoch.mode = .solo → Always Q (refreshSoloBranch C site epoch) ∧
    Always Q (promoteSoloToQuorum C site ⟨descriptor, epoch⟩))
  (hclear : ∀ world acceptedEpoch,
    Always Q (write (clearRecoveryPromiseAfterEpochAdvance C world acceptedEpoch)))

include hpermit hsolo hclear

/-- Sending leases and settling the permit: apart from the release of a promise, the permit is
written, and the end of a solo epoch. -/
theorem always_maintainLeases : Always Q (maintainLeases C site ⟨descriptor, epoch⟩) := by
  refine always_check fun lease _ => .bind (hpermit (.of (by decide))) fun _ => ?_
  refine always_readRuntime fun _ => ?_
  dsimp only
  split
  · rename_i hend
    obtain ⟨hbranch, hquorum⟩ := hsolo hend.2
    exact .bind hbranch fun _ => .bind hquorum fun _ => hpermit inferInstance
  · exact .bind (hpermit inferInstance) fun _ => hclear _ _

theorem always_maintainLocalAuthority :
    Always Q (maintainLocalAuthority C site ⟨descriptor, epoch⟩) := by
  unfold maintainLocalAuthority
  split
  · refine .bind (hpermit (.of (by decide))) fun confirmed => ?_
    split
    · exact always_maintainLeases hpermit hsolo hclear
    · exact hpermit inferInstance
  · exact always_maintainLeases hpermit hsolo hclear

theorem always_tickAuthority
    (hartifacts : epoch.mode = .recovery → Always Q (ensureRecoveryArtifacts C site epoch)) :
    Always Q (tickAuthority C site descriptor epoch) := by
  refine .bind (.onlyIf hartifacts) fun _ => .bind (hpermit (.of (by decide))) fun _ => ?_
  refine .bind (hpermit (.of (by decide))) fun _ => ?_
  exact always_maintainLocalAuthority hpermit hsolo hclear

end Reign

/-- The files of the accepted authority's own part of the tick. -/
abbrev File.reign : List File := [.soloBranch, .epoch, .permit, .recoveryPromise]

instance :
    Touches .plain File.reign (maintainLeases C site authority) := by
  unfold maintainLeases
  exact .of (by decide)

instance :
    Touches .plain File.reign (maintainLocalAuthority C site authority) := by
  unfold maintainLocalAuthority
  exact .of (by decide)

instance {descriptor : WorldDescriptorV1} {epoch : EpochRecordV1} :
    Touches .plain (.membership :: File.commit ++ File.reign)
      (tickAuthority C site descriptor epoch) := by
  unfold tickAuthority
  exact .of (by decide)

instance : Touches .plain [] (activateBallot C site ballot) := by
  unfold activateBallot
  exact .of (by decide)

instance {membershipHash : Hash32} {floor : Nat} :
    Touches .plain [.recoveryPromise] (openBallot C site attempt membershipHash floor) := by
  refine .after fun _ => .after fun _ => .bind (List.Subset.refl _) fun result => ?_
  cases result <;> exact .of (by decide)

instance :
    Touches .plain [.recoveryPromise] (ensureActiveBallot C site attempt) := by
  unfold ensureActiveBallot
  exact .of (by decide)

instance {certificate : RecoveryCertificateV1} :
    Touches .plain File.recover (installRecovery C site attempt certificate) := by
  unfold installRecovery
  exact .of (by decide)

instance :
    Touches .plain File.recover (driveRecoveryBallot C site attempt) := by
  unfold driveRecoveryBallot
  exact .of (by decide)

instance {descriptor : WorldDescriptorV1} {epoch : EpochRecordV1}
    : Touches .plain File.recover (seekRecovery C site descriptor epoch sleep wake) := by
  unfold seekRecovery
  exact .of (by decide)

instance : Touches .plain [.permit] (tickAsleep C site) := by
  unfold tickAsleep
  exact .of (by decide)

/-- The files of the tick of a member. -/
abbrev File.memberTick : List File := .membership :: File.commit ++ File.reign ++ File.recover

instance {descriptor : WorldDescriptorV1} {member : WorldMemberV1} {epoch : EpochRecordV1} :
    Touches .plain File.memberTick (tickMember C site descriptor member epoch sleep wake) := by
  unfold tickMember
  exact .of (by decide)

/-- The files of the tick. -/
abbrev File.tick : List File := File.certify ++ File.memberTick

instance :
    Touches .plain File.tick (tickAwake C site sleep wake) := by
  refine .after fun store => ?_
  split
  · exact .of (by decide)
  · split <;> exact .of (by decide)

instance : Touches .plain File.tick (tickWorld C site) := by
  refine .bind (by decide) fun _ => .after fun _ => ?_
  split <;> exact .of (by decide)

instance : Touches .plain File.tick (maintainAuthorityLeases C site) := by
  unfold maintainAuthorityLeases
  exact .of (by decide)

/-! ## Commands -/

/-- The files that a command writes. -/
def Command.footprint : Command → List File
  | .prepareTransfer _ | .acceptTransfer _ | .commitTransfer _ => [.transfer]
  | .activateTransfer _ => [.transfer, .epoch, .sleep]
  | .observeTransfer _ => [.epoch, .sleep]
  | .host => [.epoch, .sleep, .membership] ++ File.commit
  | .finish _ _ => [.blobs, .transfer, .sleep, .wakeRequested] ++ File.commit
  | .snapshot _ _ _ => .blobs :: File.commit
  | .wake => [.wakeRequested]
  | .join _ _ => [.metadata, .descriptor, .pendingJoin]
  | .leave _ => [.pendingLeave]

instance {phase : TransferPhase} :
    Touches M [.transfer] (saveNextPhase C site token phase) := by
  unfold saveNextPhase
  exact .of (by decide)

instance :
    Touches .plain ([.epoch, .membership] ++ File.commit) (prepareAwakeEpoch C site latest) := by
  refine .after fun store => ?_
  split <;> exact .of (by decide)

instance : Touches .plain Command.host.footprint (prepareAuthorityEpoch C site latest) := by
  refine .after fun _ => .after fun _ => .after fun sleep => ?_
  cases sleep <;> exact .of (by decide)

instance {epoch : EpochRecordV1} {manifest : SnapshotManifestV1} {disposition : RuntimeDisposition} :
    Touches M [.transfer, .sleep, .wakeRequested] (leaveSession C site epoch manifest disposition) := by
  cases disposition <;> dsimp only [leaveSession] <;> exact .of (by decide)

instance {target : PeerId} : Touches M [.transfer] (prepareManualTransfer C site target) := by
  unfold prepareManualTransfer
  exact .of (by decide)

instance :
    Touches M [.transfer] (acceptManualTransfer C site token) := by
  refine .after fun _ => .after fun _ => ?_
  split <;> exact .of (by decide)

instance :
    Touches M [.transfer] (commitManualTransfer C site token) := by
  refine .after fun _ => .after fun _ => ?_
  split <;> exact .of (by decide)

instance : Touches M [.wakeRequested] (requestWorldWake C site) := by
  unfold requestWorldWake
  exact .of (by decide)

instance {invite : InviteV1} :
    Touches M [.metadata, .descriptor, .pendingJoin] (joinWorld C site invite nonce) := by
  unfold joinWorld
  exact .of (by decide)

instance : Touches M [.pendingLeave] (leaveWorld C site nonce) := by
  unfold leaveWorld
  exact .of (by decide)

instance {order : Command} : Touches .plain order.footprint (runCommand C site order) := by
  cases order <;> dsimp only [Command.footprint, runCommand]
  case activateTransfer => unfold activateManualTransfer; exact .of (by decide)
  case observeTransfer => unfold observeManualTransferEpoch; exact .of (by decide)
  case host => unfold hostWorld; exact .of (by decide)
  case finish => unfold finishSession; exact .of (by decide)
  case snapshot => unfold snapshotWorld; exact .of (by decide)
  all_goals infer_instance

instance {genesis : WorldGenesisV1} :
    Touches M ([.metadata, .descriptor, .membership, .soloPolicy] ++ File.commit)
      (createLocalWorld C site genesis) := by
  unfold createLocalWorld
  exact .of (by decide)

/-! ## Requests and responses -/

/-- The files that the handler of a request writes. -/
def WireRequest.footprint : WireRequest → List File
  | .joinRequest _ | .leaveRequest _ | .membershipProposal _ => File.prepare
  | .snapshotManifest _ => File.commit
  | .blobChunk _ _ _ _ _ => .blobs :: File.commit
  | .membershipCommit _ => .permit :: File.certify
  | .membership _ => [.membership, .descriptor, .pendingJoin, .pendingLeave]
  | .epoch _ => [.epoch, .sleep]
  | .recoveryBallot _ => [.recoveryPromise]
  | .recoveryEpoch _ _ => File.recover
  | .authorityTransfer _ => [.transfer]
  | .sleep _ => [.sleep]
  | .soloBranch _ => [.soloBranch, .soloConflicts]
  | .worldStatus _ | .hostCapability _ | .leaseGrant _ => []

/-- A request moves along every relation that allows its files, if the report of a host
capability does. -/
theorem Frames.handleRequest (frames : Frames .plain files R) {message : WireRequest}
    (h : message.footprint ⊆ files) (hcapability : ∀ worldId, message = .hostCapability worldId →
      Always R (handleHostCapability C site channel)) :
    Always R (handleRequest C site channel message) := by
  have := frames.toRefl
  refine always_readStore fun _ => always_check fun _ _ => ?_
  cases message with
  | hostCapability worldId => exact hcapability worldId rfl
  | _ => dsimp only [dispatchRequest]; exact frames.always h

instance [M.Asks (site.peer C)] :
    Touches M [] (replicateRecovery C site peer generation) := by
  unfold replicateRecovery
  exact .of (by decide)

/-- A response moves along every relation that allows no file, if the receipt of a host
capability does. -/
theorem Frames.dispatchResponse (frames : Frames .plain files R)
    {answer : WireResponse} (hcapability : ∀ peer capability, context = .hostCapability peer →
      answer = .hostCapability capability → Always R (receiveCapability site peer capability)) :
    Always R (dispatchResponse C site context answer) := by
  unfold SwarmCraft.dispatchResponse receiveLeaseAccepted receiveRecoveryVote
    receiveRecoveryRejected receiveMembershipVote receiveCommitAccepted receiveEpochAccepted
    receiveStatus
  split
  case h_8 => exact hcapability _ _ rfl rfl
  all_goals exact frames.always (List.nil_subset _)

/-! ## Inputs -/

/-- The files that the handler of an input writes. -/
def Input.footprint : Input → List File
  | .request _ _ message => message.footprint
  | .tick => File.tick
  | .command order => order.footprint
  | _ => []

instance : Forgets fun runtime => runtime.withoutAnswer context := by
  refine ⟨fun runtime peer observed h => ?_⟩
  cases context with
  | hostCapability asked => exact update_none_eq_some h
  | _ => exact h

instance : Forgets fun runtime => runtime.disconnected other :=
  ⟨fun _ _ _ h => update_none_eq_some h⟩

/-- An input moves along every relation that allows its files, if the report and the receipt of a
host capability do. -/
theorem Frames.input (frames : Frames .plain files R) {cause : Input} (h : cause.footprint ⊆ files)
    (hreport : ∀ sender number worldId, cause = .request sender number (.hostCapability worldId) →
      Always R (handleHostCapability C site ⟨site.peer C, sender, number⟩))
    (hreceipt : ∀ sender number peer capability,
      cause = .response sender number (.hostCapability capability) →
        Always R (receiveCapability site peer capability)) : Always R (cause.run C site) := by
  have := frames.toRefl
  have := frames.toIsTrans
  cases cause <;> dsimp only [Input.run]
  case request sender number message =>
    exact frames.handleRequest h fun worldId hmessage =>
      hreport sender number worldId (by rw [hmessage])
  case response sender number answer =>
    refine .bind (frames.always (List.nil_subset _)) fun _ => .onSome fun context _ => ?_
    exact frames.dispatchResponse fun peer capability _ hanswer =>
      hreceipt sender number peer capability (by rw [hanswer])
  case failed => unfold handleOutboundFailure; exact frames.always (List.nil_subset _)
  case authenticated => unfold handleAuthenticated; exact frames.always (List.nil_subset _)
  case disconnected => unfold handleDisconnected; exact frames.always (List.nil_subset _)
  case tick => exact frames.always h
  case command => exact frames.always h

instance [Fact (channel.self = site.peer C)] :
    Touches (.quiet C site) [] (handleHostCapability C site channel) := by
  unfold handleHostCapability
  exact .of (by decide)

instance :
    Touches (.quiet C site) [] (receiveCapability site peer capability) := by
  unfold receiveCapability
  exact .of (by decide)

/-- The files that an input writes. -/
theorem Input.writes (cause : Input) : Always (Writes cause.footprint) (cause.run C site) := by
  have frames : Frames (.quiet C site) cause.footprint (Writes cause.footprint) := frames_writes
  refine frames_writes.input (List.Subset.refl _) (fun sender number _ _ => ?_) ?_
  · have : Fact ((Channel.mk (site.peer C) sender number).self = site.peer C) := ⟨rfl⟩
    exact frames.always (List.nil_subset _)
  · exact fun _ _ _ _ _ => frames.always (List.nil_subset _)

end SwarmCraft
