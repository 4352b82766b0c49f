import SwarmCraft.System.Freshness
import SwarmCraft.Safety.Supersession
import SwarmCraft.Safety.DiscoverySoundness
import SwarmCraft.Safety.FailClosed

/-!
# Freshness votes after a recovery

A member that voted in a recovery has a promise on file that elects a later generation,
until it accepts that generation. A freshness vote needs neither a later promise nor a
later epoch, so a member that reads both in one piece never confirms a superseded
generation. The check reads the promise first: where a promise is written between that
read and the signature, the voter confirms what it has just voted to replace.
-/

namespace SwarmCraft

open Checked Transition Quorum Function
open Founding (first second third numbered gather canvass)

variable {C : Crypto} {F : Fleet C} {a b : Service}
variable {store : Store} {world : WorldId} {challenge : DiscoveryFreshnessChallengeV1}
  {peer applicationPeer : PeerId} {inspection : Inspection} {now : Nat}
variable {node : Node} {events : List Event} {base : AuthorityGeneration}
  {config : DurableFile WorldConfigV1} {vote : Option DiscoveryFreshnessVoteV1}
  {answered : SignedChallenges} {s : System}

/-! ## What a daemon keeps -/

variable (C) in
/-- A peer votes by its lock, its promise is intact and about its world, and its votes are for the
ballots they were released for. -/
structure Peer.Fenced (world : WorldId) (peer : Peer) : Prop where
  locked : peer.recoveryBallots.Locked
  intact : PromiseIntact C peer.node.store.recoveryPromise
  world : ∀ promise, peer.node.store.recoveryPromise = .present promise →
    promise.ballot.worldId = world
  matched : ∀ stamp ∈ peer.log, ∀ ballot vote wake, stamp.event = .votedRecovery ballot vote wake →
    vote.matchesBallot C ballot = true

variable {site : Site} {heard : Heard} {p q : Peer}

/-- A durable write leaves a promise about the world of the peer. -/
theorem StoreMove.promise_world (h : StoreMove C site heard node store events)
    (hnode : ∀ promise, node.store.recoveryPromise = .present promise →
      promise.ballot.worldId = site.world) {promise : DurableRecoveryPromiseV1}
    (hpromise : store.recoveryPromise = .present promise) :
    promise.ballot.worldId = site.world := by
  rcases h.promise_origin hpromise with hold | ⟨_, votable, _⟩
  · exact hnode promise hold
  · exact votable.world

/-- A durable write releases votes for their ballots. -/
theorem StoreMove.matched (h : StoreMove C site heard node store events) {ballot : RecoveryBallotV1}
    {vote : RecoveryVoteV1} {wake : Bool} (hevent : Event.votedRecovery ballot vote wake ∈ events) :
    vote.matchesBallot C ballot = true := by
  rcases h.recoveryPromise_cases with ⟨_, hnone⟩ | ⟨votable, own, saved⟩ | stored
  · exact absurd hevent (hnone ballot vote wake)
  · exact (releasedRecovery_spec saved hevent).2.2
  · cases hevent

/-- Every move of a daemon keeps this. -/
theorem PeerMove.fenced (h : PeerMove C site heard p q) (hp : p.Fenced C site.world) :
    q.Fenced C site.world := by
  have hlocked := h.recoveryStep.locked hp.locked
  cases h with
  | stored move =>
    refine ⟨hlocked, move.promiseIntact hp.intact, fun _ => move.promise_world hp.world,
      List.forall_mem_append.mpr ⟨hp.matched, List.forall_mem_map.mpr ?_⟩⟩
    rintro event hmem ballot vote wake rfl
    exact move.matched hmem
  | remembered move => exact ⟨hlocked, hp.intact, hp.world, hp.matched⟩
  | @logged event move =>
    refine ⟨hlocked, hp.intact, hp.world,
      List.forall_mem_append.mpr ⟨hp.matched, List.forall_mem_singleton.mpr ?_⟩⟩
    rintro ballot vote wake rfl
    cases move
  | @confirmed other generation told =>
    refine ⟨hlocked, hp.intact, hp.world,
      List.forall_mem_append.mpr ⟨hp.matched, List.forall_mem_singleton.mpr ?_⟩⟩
    intro ballot vote wake hevent
    cases hevent
  | bookkept => exact ⟨hlocked, hp.intact, hp.world, hp.matched⟩

/-- A peer has voted on a generation. -/
def Peer.VotedOn (peer : Peer) (base : AuthorityGeneration) : Prop :=
  ∃ value, VotedFor peer.log base value

theorem PeerMove.votedOn (h : PeerMove C site heard p q)
    (hvoted : p.VotedOn base) : q.VotedOn base := by
  obtain ⟨value, stamp, hstamp, hvote⟩ := hvoted
  exact ⟨value, stamp, h.log_prefix.subset hstamp, hvote⟩

/-- A promise on the generation of a challenge supersedes the challenge. -/
theorem Peer.Fenced.supersedes (hp : p.Fenced C world) {value : PeerId × Hash32}
    (hlock : p.recoveryBallots.lock = some (challenge.generation, value)) :
    promiseSupersedes challenge (loadRecoveryPromise C world p.node.store) = true := by
  obtain ⟨promise, hfile, hbase, _⟩ := promisedValue_eq_some hlock
  have hload := hp.intact.load hfile
  rw [hp.world promise hfile] at hload
  have hwell : promise.ballot.validateSemantics = .ok () := by
    have hintact := hp.intact
    rw [hfile] at hintact
    exact hintact.1
  have hepoch := RecoveryBallotV1.targetEpoch_eq (RecoveryBallotV1.validateSemantics_eq_ok.mp hwell)
  have hlater : challenge.generation < promise.ballot.target := by
    rw [← hbase, AuthorityGeneration.lt_iff]
    left
    simp only [RecoveryBallotV1.base, RecoveryBallotV1.target]
    omega
  simp [promiseSupersedes, Checked.optional, hload, hlater]

/-! ## What a request keeps -/

/-- Every challenge whose promise was read stays ahead of the promises that are written: a new
promise that elects a later generation is written only where the promise that was read did so. -/
def Undisturbed (C : Crypto) (F : Fleet C) (a b : Service) : Prop :=
  ∀ inspection ∈ a.inspections, inspection.PromiseRead →
    (b.peers inspection.peer).node.store.recoveryPromise ≠
      (a.peers inspection.peer).node.store.recoveryPromise →
    promiseSupersedes inspection.challenge
      (loadRecoveryPromise C F.world (b.peers inspection.peer).node.store) = true →
    promiseSupersedes inspection.challenge inspection.reads.recoveryPromise = true

/-- One action that does not write a promise behind the back of a request. -/
def Service.Guarded (C : Crypto) (F : Fleet C) (a b : Service) : Prop :=
  Service.Step C F a b ∧ Undisturbed C F a b

/-- The promise that was read does not supersede the challenge. -/
def Inspection.Current (inspection : Inspection) : Prop :=
  promiseSupersedes inspection.challenge inspection.reads.recoveryPromise = false

/-- The epoch that was read is the one of the challenge. -/
def Inspection.OnEpoch (inspection : Inspection) : Prop :=
  ∃ epoch, inspection.reads.epoch = .ok epoch ∧ epochMatches inspection.challenge epoch = true

variable (C) in
/-- What a request that has read no later promise may rely on: none was written since, and if it
has read the epoch of its challenge, the peer has not voted to replace that epoch. -/
structure Inspection.Sound (world : WorldId) (peer : Peer) (inspection : Inspection) : Prop where
  promise : inspection.PromiseRead → inspection.Current →
    promiseSupersedes inspection.challenge (loadRecoveryPromise C world peer.node.store) = false
  epoch : inspection.EpochRead → inspection.Current → inspection.OnEpoch →
    ¬ peer.VotedOn inspection.challenge.generation

/-- A request that has read nothing relies on nothing. -/
theorem Inspection.Sound.start :
    (Inspection.start peer applicationPeer challenge).Sound C world p where
  promise hread := absurd rfl hread.1
  epoch hread := absurd rfl hread.1.1

/-- A move of the daemon that does not write a later promise keeps this. -/
theorem Inspection.Sound.move (h : inspection.Sound C site.world p)
    (hmove : PeerMove C site heard p q) (hp : p.Fenced C site.world)
    (hguard : inspection.PromiseRead → q.node.store.recoveryPromise ≠ p.node.store.recoveryPromise →
      promiseSupersedes inspection.challenge (loadRecoveryPromise C site.world q.node.store) = true →
      promiseSupersedes inspection.challenge inspection.reads.recoveryPromise = true) :
    inspection.Sound C site.world q := by
  have hpromise : inspection.PromiseRead → inspection.Current →
      promiseSupersedes inspection.challenge
        (loadRecoveryPromise C site.world q.node.store) = false := by
    intro hread hcurrent
    by_cases hsame : q.node.store.recoveryPromise = p.node.store.recoveryPromise
    · have hload : loadRecoveryPromise C site.world q.node.store =
          loadRecoveryPromise C site.world p.node.store := by
        simp only [loadRecoveryPromise, hsame]
      rw [hload]
      exact h.promise hread hcurrent
    · by_contra hlater
      rw [Bool.not_eq_false] at hlater
      have hold := hguard hread hsame hlater
      rw [Inspection.Current, hold] at hcurrent
      cases hcurrent
  refine ⟨hpromise, fun hread hcurrent hepoch => ?_⟩
  rintro ⟨value, hvoted⟩
  -- A new vote leaves its promise on file, and that one supersedes the challenge.
  rcases hmove.recoveryStep.cast _ _ hvoted with hold | hlock
  · exact h.epoch hread hcurrent hepoch ⟨value, hold⟩
  · have hsupersedes := (hmove.fenced hp).supersedes hlock
    rw [hpromise hread.1 hcurrent] at hsupersedes
    cases hsupersedes

/-- A peer whose promise does not supersede a challenge and whose epoch is the one of the challenge
has not voted to replace it. -/
theorem Peer.Fenced.not_votedOn (hp : p.Fenced C world) {epoch : EpochRecordV1}
    (hpromise : promiseSupersedes challenge (loadRecoveryPromise C world p.node.store) = false)
    (hload : loadEpochRecord world p.node.store = .ok epoch)
    (hepoch : epochMatches challenge epoch = true) : ¬ p.VotedOn challenge.generation := by
  rintro ⟨value, hvoted⟩
  by_cases hpast : EpochPast p.node.store challenge.generation
  · obtain ⟨record, hrecord, hlater⟩ := hpast
    rw [(loadEpochRecord_eq_ok.mp hload).1, DurableFile.present.injEq] at hrecord
    subst hrecord
    simp only [epochMatches, Bool.and_eq_true, decide_eq_true_eq] at hepoch
    simp only [DiscoveryFreshnessChallengeV1.generation] at hlater
    omega
  · have hsupersedes := hp.supersedes (hp.locked.held _ _ hvoted hpast)
    rw [hpromise] at hsupersedes
    cases hsupersedes

theorem Inspection.Sound.read (h : inspection.Sound C world p) (hp : p.Fenced C world) :
    (inspection.read C world p.node.store config).Sound C world p := by
  cases hnext : inspection.next with
  | none =>
    rw [Inspection.read, hnext]
    exact h
  | some file =>
    cases file with
    | membership =>
      simp only [Inspection.read, hnext]
      exact ⟨fun hread => absurd rfl hread.2, fun hread => absurd rfl hread.1.2⟩
    | recoveryPromise =>
      simp only [Inspection.read, hnext]
      exact ⟨fun _ hcurrent => hcurrent, fun hread => absurd rfl hread.2⟩
    | epoch =>
      have hread : inspection.PromiseRead := by simp [Inspection.PromiseRead, hnext]
      simp only [Inspection.read, hnext]
      refine ⟨fun _ => h.promise hread, fun _ hcurrent hepoch => ?_⟩
      obtain ⟨epoch, hload, hmatches⟩ := hepoch
      exact hp.not_votedOn (h.promise hread hcurrent) hload hmatches
    | config | head | membershipPromise =>
      have hread : inspection.EpochRead := by
        simp [Inspection.EpochRead, Inspection.PromiseRead, hnext]
      simp only [Inspection.read, hnext]
      exact ⟨fun _ => h.promise hread.1, fun _ => h.epoch hread⟩

theorem Inspection.read_peer : (inspection.read C world store config).peer = inspection.peer := by
  simp only [Inspection.read]
  split <;> rfl

/-! ## Runs -/

variable (C F) in
/-- Every daemon and every request keeps to this. -/
structure Service.Sound (a : Service) : Prop where
  peers : ∀ peer, (a.peers peer).Fenced C F.world
  honest : ∀ inspection ∈ a.inspections, F.honest inspection.peer
  inspections : ∀ inspection ∈ a.inspections, inspection.Sound C F.world (a.peers inspection.peer)

/-- Before anyone votes nothing can go wrong. -/
theorem Service.Initial.sound (h : a.Initial) : a.Sound C F := by
  refine ⟨fun peer => ?_, by simp [h.inspections], by simp [h.inspections]⟩
  have hnone : ∀ base value, ¬ (a.peers peer).recoveryBallots.cast base value := by
    rintro base value ⟨stamp, hstamp, _⟩
    simp only [h.logs, List.not_mem_nil] at hstamp
  refine ⟨⟨?_, ?_, ?_⟩, ?_, ?_, ?_⟩
  · exact fun base value hcast => absurd hcast (hnone base value)
  · exact fun base value _ _ hcast => absurd hcast (hnone base value)
  · exact fun base value _ hcast => absurd hcast (hnone base value)
  · rw [h.recoveryPromise]
    trivial
  · intro promise hpromise
    rw [h.recoveryPromise] at hpromise
    cases hpromise
  · simp [h.logs]

theorem Service.Sound.step (h : a.Sound C F) (hstep : Service.Guarded C F a b) : b.Sound C F := by
  obtain ⟨hstep, hguard⟩ := hstep
  cases hstep with
  | @moved peer heard next move =>
    have hnext := move.fenced (h.peers peer)
    refine ⟨fun other => ?_, h.honest, fun inspection hmem => ?_⟩
    · by_cases hother : other = peer
      · subst hother
        simp only [update_self]
        exact hnext
      · simp only [update_of_ne hother]
        exact h.peers other
    · by_cases hother : inspection.peer = peer
      · have hold := h.inspections inspection hmem
        have hdisturb := hguard inspection hmem
        rw [hother] at hold hdisturb
        simp only [update_self] at hdisturb
        simp only [hother, update_self]
        exact hold.move move (h.peers peer) hdisturb
      · simp only [update_of_ne hother]
        exact h.inspections inspection hmem
  | elapsed milliseconds => exact ⟨h.peers, h.honest, h.inspections⟩
  | configured peer file => exact ⟨h.peers, h.honest, h.inspections⟩
  | opened honest world =>
    refine ⟨h.peers, fun inspection hmem => ?_, fun inspection hmem => ?_⟩
    · rcases List.mem_cons.mp hmem with rfl | hold
      · exact honest
      · exact h.honest inspection hold
    · rcases List.mem_cons.mp hmem with rfl | hold
      · exact .start
      · exact h.inspections inspection hold
  | @read before after found listed =>
    have hfound : found ∈ a.inspections := by simp [listed]
    refine ⟨h.peers, fun inspection hmem => ?_, fun inspection hmem => ?_⟩
    · simp only [List.mem_append, List.mem_cons] at hmem
      rcases hmem with hbefore | rfl | hafter
      · exact h.honest inspection (by simp [listed, hbefore])
      · rw [Inspection.read_peer]
        exact h.honest found hfound
      · exact h.honest inspection (by simp [listed, hafter])
    · simp only [List.mem_append, List.mem_cons] at hmem
      rcases hmem with hbefore | rfl | hafter
      · exact h.inspections inspection (by simp [listed, hbefore])
      · simp only [Inspection.read_peer]
        exact (h.inspections found hfound).read (h.peers found.peer)
      · exact h.inspections inspection (by simp [listed, hafter])
  | @finished before after found now vote answered listed complete handled =>
    have hkept : ∀ inspection ∈ before ++ after, inspection ∈ a.inspections := by
      intro inspection hmem
      rcases List.mem_append.mp hmem with hbefore | hafter
      · simp [listed, hbefore]
      · simp [listed, hafter]
    exact ⟨h.peers, fun inspection hmem => h.honest inspection (hkept inspection hmem),
      fun inspection hmem => h.inspections inspection (hkept inspection hmem)⟩
  | stopped peer =>
    exact ⟨h.peers, fun inspection hmem => h.honest inspection (List.mem_of_mem_filter hmem),
      fun inspection hmem => h.inspections inspection (List.mem_of_mem_filter hmem)⟩

theorem Service.Step.votedOn (h : Service.Step C F a b)
    (hvoted : (a.peers peer).VotedOn base) : (b.peers peer).VotedOn base := by
  cases h with
  | @moved mover heard next move =>
    by_cases hpeer : peer = mover
    · subst hpeer
      simp only [update_self]
      exact move.votedOn hvoted
    · simp only [update_of_ne hpeer]
      exact hvoted
  | _ => exact hvoted

/-- A freshness vote is signed by an honest peer that has not voted to replace the generation. -/
theorem Service.Sound.signs (h : a.Sound C F) (hstep : Service.Step C F a b) :
    ∃ new, b.signed = a.signed ++ new ∧ ∀ vote ∈ new,
      ¬ (a.peers vote.voterPeerId).VotedOn vote.challenge.generation := by
  cases hstep with
  | @finished before after found now vote answered listed complete handled =>
    refine ⟨vote.toList, rfl, fun signed hsigned => ?_⟩
    rw [Option.mem_toList] at hsigned
    subst hsigned
    obtain ⟨rfl, hmatches⟩ := handleFreshnessVote_eq_some handled
    obtain ⟨hpromise, hepoch⟩ := localStateMatches_eq_true hmatches
    have hfound : found ∈ a.inspections := by simp [listed]
    have hvoter : (signDiscoveryFreshnessVote C ⟨F.key found.peer⟩ found.challenge).voterPeerId =
        found.peer := F.key_spec _ (h.honest found hfound)
    have hread : found.EpochRead := by
      simp [Inspection.EpochRead, Inspection.PromiseRead, complete]
    rw [hvoter]
    exact (h.inspections found hfound).epoch hread hpromise hepoch
  | _ => exact ⟨[], by simp, by simp⟩

/-- Every freshness vote that is signed in a guarded run is signed by a peer that had not voted to
replace the generation before the run. -/
theorem Service.Sound.signs_run (h : a.Sound C F) (hrun : Run (Service.Guarded C F) a b) :
    b.Sound C F ∧ (∀ peer base, (a.peers peer).VotedOn base → (b.peers peer).VotedOn base) ∧
      ∃ new, b.signed = a.signed ++ new ∧ ∀ vote ∈ new,
        ¬ (a.peers vote.voterPeerId).VotedOn vote.challenge.generation := by
  induction hrun with
  | refl => exact ⟨h, fun _ _ hvoted => hvoted, [], by simp, by simp⟩
  | @tail middle last _ hlast ih =>
    obtain ⟨hsound, hvotes, new, hnew, hsigned⟩ := ih
    obtain ⟨more, hmore, hlater⟩ := hsound.signs hlast.1
    refine ⟨hsound.step hlast, fun peer base hvoted => hlast.1.votedOn (hvotes peer base hvoted),
      new ++ more, by rw [hmore, hnew, List.append_assoc], fun vote hvote => ?_⟩
    rcases List.mem_append.mp hvote with hold | hmem
    · exact hsigned vote hold
    · exact fun hvoted => hlater vote hmem (hvotes _ _ hvoted)

/-- What a candidate passed that was accepted as fresh. -/
theorem validateFreshDiscoveryCandidate_eq_ok {announcement : WorldAnnouncementV1}
    {proof : DiscoveryMembershipProofV1}
    {votes : List DiscoveryFreshnessVoteV1} {verifier : PeerId} {nonce : Nat}
    {replay accepted : List (PeerId × Nat)}
    (h : validateFreshDiscoveryCandidate C announcement proof challenge votes verifier nonce now
      replay = .ok accepted) :
    verifyDiscoveryMembershipProof C announcement proof = .ok () ∧
      challenge.generation = ⟨announcement.authorityEpoch, announcement.fencingToken⟩ ∧
      (∀ vote ∈ votes, verifyDiscoveryFreshnessVote C vote challenge = .ok ()) ∧
      validateDiscoveryFreshnessQuorum C proof votes = .ok () := by
  simp only [validateFreshDiscoveryCandidate, bind_eq_ok, mapError_eq_ok, forM_eq_ok,
    exists_const] at h
  obtain ⟨_, _, _, hproof, _, _, _, hchallenge, hvotes, _, hquorum, _⟩ := h
  refine ⟨hproof, ?_, hvotes, hquorum⟩
  simp only [verifyDiscoveryFreshnessChallenge, bind_eq_ok, ensure_eq_ok, exists_const] at hchallenge
  obtain ⟨_, _, ⟨_, _, _, _, _, _, _, _, _, hepoch, htoken, _⟩, _⟩ := hchallenge
  rw [DiscoveryFreshnessChallengeV1.generation, hepoch, htoken]

/-- Actions that leave the daemons alone disturb nobody. -/
theorem guarded_of_still (hrun : Run (fun a b => Service.Step C F a b ∧ b.peers = a.peers) a b) :
    Run (Service.Guarded C F) a b := by
  induction hrun with
  | refl => exact .refl
  | tail _ hlast ih =>
    refine ih.tail ⟨hlast.1, fun inspection _ _ hchanged => ?_⟩
    exact absurd (by rw [hlast.2]) hchanged

/-- Where no request is open nobody is disturbed. -/
theorem guarded_of_idle (hidle : a.inspections = [])
    (hrun : Run (fun a b => Service.Step C F a b ∧ b.inspections = a.inspections) a b) :
    Run (Service.Guarded C F) a b := by
  have hboth : Run (Service.Guarded C F) a b ∧ b.inspections = [] := by
    induction hrun with
    | refl => exact ⟨.refl, hidle⟩
    | tail _ hlast ih =>
      refine ⟨ih.1.tail ⟨hlast.1, ?_⟩, hlast.2.trans ih.2⟩
      intro inspection hmem
      rw [ih.2] at hmem
      cases hmem
  exact hboth.1

variable (C F) in
/-- A request after it has read some more files. -/
def Service.readOn (a : Service) (count : Nat) (inspection : Inspection) : Inspection :=
  (Inspection.read C F.world (a.peers inspection.peer).node.store
    (a.configs inspection.peer))^[count] inspection

/-- A request keeps its peer while it reads. -/
theorem Service.readOn_peer (count : Nat) (inspection : Inspection) :
    (a.readOn C F count inspection).peer = inspection.peer := by
  induction count with
  | zero => rfl
  | succ count ih =>
    simp only [Service.readOn, iterate_succ_apply'] at ih ⊢
    rw [Inspection.read_peer, ih]

theorem Service.run_read {before after : List Inspection} (count : Nat)
    (h : a.inspections = before ++ inspection :: after) :
    Run (fun a b => Service.Step C F a b ∧ b.peers = a.peers) a
      { a with inspections := before ++ a.readOn C F count inspection :: after } := by
  induction count with
  | zero =>
    simp only [Service.readOn, Function.iterate_zero, id, ← h]
    exact .refl
  | succ count ih =>
    have hstep := Service.Step.read (C := C) (F := F)
      (a := { a with inspections := before ++ a.readOn C F count inspection :: after }) rfl
    rw [Service.readOn_peer] at hstep
    refine ih.tail ⟨?_, rfl⟩
    simpa only [Service.readOn, iterate_succ_apply'] using hstep

theorem Service.run_answered (hpeer : F.honest peer)
    (hworld : challenge.worldId = F.world) (hidle : a.inspections = [])
    (hhandled : handleFreshnessVote C ⟨F.key peer⟩ applicationPeer challenge
      (a.readOn C F 6 (.start peer applicationPeer challenge)).reads now (a.answered peer) =
        .ok (vote, answered)) :
    Run (fun a b => Service.Step C F a b ∧ b.peers = a.peers) a
      { a with
        answered := update a.answered peer answered
        signed := a.signed ++ vote.toList } := by
  cases a with
  | mk peers configs clock inspections before signed =>
    simp only at hidle hhandled
    subst hidle
    have hopened : Service.Step C F ⟨peers, configs, clock, [], before, signed⟩
        ⟨peers, configs, clock, [.start peer applicationPeer challenge], before, signed⟩ :=
      .opened hpeer hworld
    have hread := Service.run_read (C := C) (F := F) (a := ⟨peers, configs, clock,
      [.start peer applicationPeer challenge], before, signed⟩) 6 (List.nil_append _).symm
    have hfinished := Service.Step.finished (a := ⟨peers, configs, clock,
      [Service.readOn C F ⟨peers, configs, clock, [], before, signed⟩ 6
        (.start peer applicationPeer challenge)], before, signed⟩)
      (List.nil_append _).symm rfl hhandled
    exact ((Relation.ReflTransGen.single ⟨hopened, rfl⟩).trans hread).tail ⟨hfinished, rfl⟩

variable (C F) in
/-- A request that reads two files in one state of the daemons and the others in a later one. -/
def Service.straddle (a : Service) (s t : System) (inspection : Inspection) : Inspection :=
  (a.with t).readOn C F 4 ((a.with s).readOn C F 2 inspection)

theorem Service.run_straddled {t : System} (hrun : Run (SwarmCraft.Step C F) s t)
    (hidle : a.inspections = []) {first second : PeerId}
    (hfirst : F.honest first) (hsecond : F.honest second)
    (hne : second ≠ first) (hworld : challenge.worldId = F.world)
    {vote' : Option DiscoveryFreshnessVoteV1} {answered' : SignedChallenges}
    (hhandled : handleFreshnessVote C ⟨F.key first⟩ applicationPeer challenge
      (a.straddle C F s t (.start first applicationPeer challenge)).reads now (a.answered first) =
        .ok (vote, answered))
    (hhandled' : handleFreshnessVote C ⟨F.key second⟩ applicationPeer challenge
      (a.straddle C F s t (.start second applicationPeer challenge)).reads now
        (a.answered second) = .ok (vote', answered')) :
    ∃ inspections b,
      Run (Service.Step C F) (a.with s) { a.with t with inspections := inspections } ∧
        Run (Service.Step C F) { a.with t with inspections := inspections } b ∧
        b.signed = a.signed ++ vote.toList ++ vote'.toList := by
  have hsteps {R : Service → Service → Prop} {x y : Service}
      (h : Run (fun a b => Service.Step C F a b ∧ R a b) x y) : Run (Service.Step C F) x y :=
    Relation.ReflTransGen.mono (fun _ _ h => h.1) x y h
  cases a with
  | mk peers configs clock inspections before signed =>
    simp only at hidle hhandled hhandled'
    subst hidle
    let a : Service := ⟨peers, configs, clock, [], before, signed⟩
    let x : Inspection := .start first applicationPeer challenge
    let y : Inspection := .start second applicationPeer challenge
    let x₁ := (a.with s).readOn C F 2 x
    let y₁ := (a.with s).readOn C F 2 y
    let x₂ := (a.with t).readOn C F 4 x₁
    let y₂ := (a.with t).readOn C F 4 y₁
    have hopened : Service.Step C F (a.with s) { a.with s with inspections := [y] } :=
      .opened hsecond hworld
    have hopened' : Service.Step C F { a.with s with inspections := [y] }
        { a.with s with inspections := [x, y] } := .opened hfirst hworld
    have hread := hsteps (Service.run_read (C := C) (F := F)
      (a := { a.with s with inspections := [x, y] }) 2 (List.nil_append [x, y]).symm)
    have hread' := hsteps (Service.run_read (C := C) (F := F)
      (a := { a.with s with inspections := [x₁, y] }) 2
      (List.singleton_append (x := x₁) (l := [y])).symm)
    have hserved := hsteps (Run.serves hrun { a with inspections := [x₁, y₁] })
    have hrest := hsteps (Service.run_read (C := C) (F := F)
      (a := { a.with t with inspections := [x₁, y₁] }) 4 (List.nil_append [x₁, y₁]).symm)
    have hrest' := hsteps (Service.run_read (C := C) (F := F)
      (a := { a.with t with inspections := [x₂, y₁] }) 4
      (List.singleton_append (x := x₂) (l := [y₁])).symm)
    have hfinished := Service.Step.finished (a := { a.with t with inspections := [x₂, y₂] })
      (List.nil_append [x₂, y₂]).symm rfl hhandled
    rw [← update_of_ne hne answered before] at hhandled'
    have hfinished' := Service.Step.finished (a := { a.with t with
      inspections := [y₂]
      answered := update before first answered
      signed := signed ++ vote.toList }) (List.nil_append [y₂]).symm rfl hhandled'
    refine ⟨[x₁, y₁], _, ?_, ((hrest.trans hrest').tail hfinished).tail hfinished', rfl⟩
    exact (Relation.ReflTransGen.single hopened).tail hopened'
      |>.trans hread |>.trans hread' |>.trans hserved

/-- Once a certificate on a generation exists, no votes that are signed later make an announcement
of that generation fresh, as long as no promise is written between the promise read and the
signature of a request. -/
theorem superseded_not_fresh {start : Service} (hstart : start.Initial)
    (hbefore : Run (Service.Guarded C F) start a) (hafter : Run (Service.Guarded C F) a b)
    {V : List PeerId} (hmembers : V ≠ []) (hhonest : ∀ peer ∈ V, F.honest peer)
    {certificate : RecoveryCertificateV1}
    (hshape : validateRecoveryCertificateShape C certificate V = .ok ())
    (hsigned : ∀ vote ∈ certificate.votes, verifyRecoveryVoteSignature C vote = .ok ())
    (hunforged : a.Unforged C F certificate.votes)
    {announcement : WorldAnnouncementV1} {proof : DiscoveryMembershipProofV1}
    {challenge : DiscoveryFreshnessChallengeV1} {votes : List DiscoveryFreshnessVoteV1}
    (hgeneration : ⟨announcement.authorityEpoch, announcement.fencingToken⟩ = certificate.ballot.base)
    (hvoters : ∀ peer, peer ∈ proof.currentMembership.activeIds ↔ peer ∈ V)
    (hvotes : ∀ vote ∈ votes, F.honest vote.voterPeerId →
      verifyDiscoveryFreshnessVote C vote challenge = .ok () →
      ∃ signed ∈ b.signed.drop a.signed.length, signed.unsigned = vote.unsigned)
    (verifier : PeerId) (nonce now : Nat) (replay accepted : List (PeerId × Nat)) :
    validateFreshDiscoveryCandidate C announcement proof challenge votes verifier nonce now replay ≠
      .ok accepted := by
  intro hvalid
  obtain ⟨hproof, hchallenge, hverified, hquorum⟩ := validateFreshDiscoveryCandidate_eq_ok hvalid
  obtain ⟨⟨A, hA, hsigners⟩, _⟩ :=
    freshnessQuorum_majorities (activeIds_ne_nil_of_verified hproof) hquorum
  have hV : proof.currentMembership.voterSet.image Prod.fst = V.toFinset := by
    rw [MembershipRecordV1.voterSet_ids]
    ext peer
    simp [hvoters]
  rw [hV] at hA
  -- The majority that confirmed the generation shares a member with the one that replaced it.
  obtain ⟨peer, hconfirmed, hreplaced⟩ :=
    hA.meet (RecoveryCertificateV1.voters_majority hmembers hshape)
  have hpeer : F.honest peer := hhonest peer (List.mem_toFinset.mp (hA.subset hconfirmed))
  have hsound := (hstart.sound.signs_run hbefore).1
  obtain ⟨_, _, new, hnew, hrefused⟩ := hsound.signs_run hafter
  obtain ⟨vote, hvote, rfl, _⟩ := hsigners peer hconfirmed
  obtain ⟨signed, hmem, hsame⟩ := hvotes vote hvote hpeer (hverified vote hvote)
  rw [hnew, List.drop_left] at hmem
  have hvoter := congrArg DiscoveryFreshnessVoteV1.voterPeerId hsame
  have hasked := congrArg DiscoveryFreshnessVoteV1.challenge hsame
  simp only [DiscoveryFreshnessVoteV1.unsigned] at hvoter hasked
  apply hrefused signed hmem
  have hvoteChallenge : vote.challenge = challenge := by
    have hverify := hverified vote hvote
    simp only [verifyDiscoveryFreshnessVote, bind_eq_ok, ensure_eq_ok, exists_const] at hverify
    exact hverify.1.1
  rw [hvoter, hasked, hvoteChallenge, hchallenge, hgeneration]
  obtain ⟨_, hmatching, _⟩ := validateRecoveryCertificateShape_eq_ok.mp hshape
  simp only [RecoveryCertificateV1.voters, List.mem_toFinset, List.mem_map] at hreplaced
  obtain ⟨cast, hcast, hcaster⟩ := hreplaced
  have hreleased := hunforged cast hcast (hcaster ▸ hpeer) (hsigned cast hcast)
  rw [hcaster] at hreleased
  exact ⟨certificate.ballot.value, votedFor_of_released (hmatching cast hcast).1 hreleased
    (hsound.peers vote.voterPeerId).matched⟩

/-! ## Requests in a founded world -/

namespace Founding

variable (f : Founding)

/-- The first configuration, signed by the first authority. -/
def signedConfig : WorldConfigV1 :=
  { f.config with
    visibility := .public
    signature := Crypto.ideal.sign f.authority
      (.worldConfig { f.config with visibility := .public }.canonicalUnsigned) }

/-- The announcement of the founding state, before it is signed. -/
def unsignedCurrent : WorldAnnouncementV1 :=
  { f.unsignedAnnouncement .ideal (f.membership .ideal) with
    configSequence := f.signedConfig.sequence
    configHash := f.signedConfig.configHash .ideal
    canonicalHead := some ((f.snapshot .ideal).discoveryHead .ideal) }

/-- The announcement of the founding state by the first authority. -/
def currentAnnouncement : WorldAnnouncementV1 :=
  { f.unsignedCurrent with
    signature := Crypto.ideal.sign f.authority (.worldAnnouncement f.unsignedCurrent.unsigned) }

/-- The proof of the founding membership. -/
def currentProof : DiscoveryMembershipProofV1 where
  protocolVersion := protocolVersionV1
  worldId := f.world .ideal
  genesis := f.genesis
  initialMembership := f.membership .ideal
  membershipCertificates := []
  currentMembership := f.membership .ideal
  pendingMembership := none

/-- The challenge whether the founding state is current. -/
def currentChallenge : DiscoveryFreshnessChallengeV1 :=
  { f.challenge .ideal (f.membership .ideal) with
    announcementHash := f.currentAnnouncement.announcementHash .ideal
    configSequence := f.currentAnnouncement.configSequence
    configHash := f.currentAnnouncement.configHash
    canonicalHead := f.currentAnnouncement.canonicalHead }

/-- The confirmations of the founding state by some members. -/
def confirmations (voters : List PublicKey) : List DiscoveryFreshnessVoteV1 :=
  voters.map fun voter => signDiscoveryFreshnessVote .ideal ⟨voter⟩ f.currentChallenge

/-- The daemons of a system, whose services all hold the first configuration. -/
def service (s : System) : Service :=
  ⟨s.peer, fun _ => .present f.signedConfig, s.clock, [], fun _ => [], []⟩

/-- A request to a peer whether the founding state is current. -/
def request (peer : PeerId) : Inspection := .start peer ⟨0⟩ f.currentChallenge

/-- A founded world is a state to start from. -/
theorem service_initial : (f.service (f.system .ideal)).Initial where
  logs _ := rfl
  recoveryPromise peer := (f.system_initial .ideal).recoveryPromise peer
  inspections := rfl

/-- What is unforged in a system is so beside its services. -/
theorem service_unforged {votes : List RecoveryVoteV1}
    (h : s.Unforged .ideal f.fleet votes) : (f.service s).Unforged .ideal f.fleet votes := h

end Founding

/-- After two members elected one of them, the first authority still confirms its own generation,
and its vote alone is refused. -/
theorem superseded_not_fresh_minority :
    let f := numbered 3
    (f.system .ideal).Plays .ideal f.fleet
        (gather second third ++ canvass second third) ∧
      validateFreshDiscoveryCandidate .ideal f.currentAnnouncement f.currentProof
        f.currentChallenge (f.confirmations [⟨1⟩]) ⟨0⟩ 0 0 [] ≠ .ok [(⟨0⟩, 0)] := by
  intro f
  let cues := gather second third ++ canvass second third
  let s := (f.system .ideal).play .ideal f.fleet cues
  have hplays : (f.system .ideal).Plays .ideal f.fleet cues := by decide +kernel
  have hbefore : Run (Service.Guarded .ideal f.fleet) (f.service (f.system .ideal)) (f.service s) :=
    guarded_of_idle rfl (Run.serves hplays.run (f.service (f.system .ideal)))
  have hhandled : handleFreshnessVote .ideal ⟨f.fleet.key first⟩ ⟨0⟩ f.currentChallenge
      ((f.service s).readOn .ideal f.fleet 6 (f.request first)).reads 0 [] =
        .ok ((f.confirmations [⟨1⟩]).head?, [((⟨0⟩, 0), 1000)]) := by decide +kernel
  have hanswered := Service.run_answered (a := f.service s) trivial rfl rfl hhandled
  have hshape : validateRecoveryCertificateShape .ideal (f.certificate .ideal ⟨2⟩ 1 [⟨3⟩, ⟨2⟩])
      (f.membership .ideal).activeIds = .ok () := by decide +kernel
  exact ⟨hplays, superseded_not_fresh f.service_initial hbefore (guarded_of_still hanswered)
    (by decide +kernel) (fun _ _ => trivial) hshape (by decide +kernel)
    (f.service_unforged (by decide +kernel)) rfl (fun _ => Iff.rfl)
    (fun vote hvote _ _ => ⟨vote, hvote, rfl⟩) ⟨0⟩ 0 0 [] [(⟨0⟩, 0)]⟩

/-- Two members read that they have promised nothing, vote for one of them, and confirm the
generation they have just voted to replace. -/
theorem superseded_confirmed :
    let f := numbered 3
    let s₁ := (f.system .ideal).play .ideal f.fleet (gather second third)
    let s₂ := s₁.play .ideal f.fleet (canvass second third)
    let certificate := f.certificate .ideal ⟨2⟩ 1 [⟨3⟩, ⟨2⟩]
    (f.system .ideal).Plays .ideal f.fleet (gather second third) ∧
      s₁.Plays .ideal f.fleet (canvass second third) ∧
      (∃ inspections b, Run (Service.Step .ideal f.fleet) (f.service s₁)
          { f.service s₂ with inspections := inspections } ∧
        Run (Service.Step .ideal f.fleet) { f.service s₂ with inspections := inspections } b ∧
        b.signed = f.confirmations [⟨2⟩, ⟨3⟩]) ∧
      validateRecoveryCertificateShape .ideal certificate (f.membership .ideal).activeIds = .ok () ∧
      (∀ vote ∈ certificate.votes, verifyRecoveryVoteSignature .ideal vote = .ok ()) ∧
      (f.service s₂).Unforged .ideal f.fleet certificate.votes ∧
      certificate.ballot.base =
        ⟨f.currentAnnouncement.authorityEpoch, f.currentAnnouncement.fencingToken⟩ ∧
      f.currentProof.currentMembership = f.membership .ideal ∧
      validateFreshDiscoveryCandidate .ideal f.currentAnnouncement f.currentProof
        f.currentChallenge (f.confirmations [⟨2⟩, ⟨3⟩]) ⟨0⟩ 0 0 [] = .ok [(⟨0⟩, 0)] := by
  intro f s₁ s₂ certificate
  have hcanvass : s₁.Plays .ideal f.fleet
      (canvass second third) := by decide +kernel
  have hsecond : handleFreshnessVote .ideal ⟨f.fleet.key second⟩ ⟨0⟩ f.currentChallenge
      ((f.service s₁).straddle .ideal f.fleet s₁ s₂ (f.request second)).reads 0 [] =
        .ok ((f.confirmations [⟨2⟩]).head?, [((⟨0⟩, 0), 1000)]) := by decide +kernel
  have hthird : handleFreshnessVote .ideal ⟨f.fleet.key third⟩ ⟨0⟩ f.currentChallenge
      ((f.service s₁).straddle .ideal f.fleet s₁ s₂ (f.request third)).reads 0 [] =
        .ok ((f.confirmations [⟨3⟩]).head?, [((⟨0⟩, 0), 1000)]) := by decide +kernel
  have hne : third ≠ second := by decide
  have hstraddled := Service.run_straddled hcanvass.run (a := f.service s₁) rfl trivial trivial hne
    rfl hsecond hthird
  exact ⟨by decide +kernel, hcanvass, hstraddled, by decide +kernel, by decide +kernel,
    f.service_unforged (by decide +kernel), rfl, rfl, by decide +kernel⟩

end SwarmCraft
