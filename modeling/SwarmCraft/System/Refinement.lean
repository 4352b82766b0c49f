import SwarmCraft.Refinement.Tick

/-!
# Steps of the system are moves of its peers

Whatever happens, each peer only makes moves, told by messages that the network may
deliver, and every acknowledged lease on the network is in the log of its sender. A
property that moves keep therefore holds of every peer in every run, and the checks that
precede an event can be read off the log.
-/

namespace SwarmCraft

open Checked Effect Transition Function
open List (append_nil ne_of_not_mem_cons mem_append map_nil prefix_append prefix_refl not_mem_nil)

variable {C : Crypto} {F : Fleet C} {s t : System}
variable {cause : Input} {site : Site} {heard : Heard} {cues : List Cue} {packet : Packet}

/-- A peer of the system with what it did. -/
def System.peer (s : System) (peer : PeerId) : Peer := ⟨s.nodes peer, s.logs peer⟩

variable (C F) in
/-- What a peer is told, the network may deliver to it. -/
def System.Heeds (s : System) (peer : PeerId) (heard : Heard) : Prop :=
  ∀ sender body, heard = some (sender, body) → ∃ number, s.Delivers C F ⟨sender, peer, number, body⟩

/-- The local peer of an honest site. -/
theorem Fleet.site_peer {peer : PeerId} (hpeer : F.honest peer) : (s.site C F peer).peer C = peer :=
  F.key_spec peer hpeer

/-! ## Handlers -/

/-- The handler of an input that can happen follows the moves. -/
theorem Input.follows {peer : PeerId} {base : List Stamp} {e : Exec}
    (hnode : e.node = s.nodes peer) (h : cause.Enabled C F s peer) :
    Along (Follows C (s.site C F peer) cause.heard base) (cause.run C (s.site C F peer)) e := by
  cases cause with
  | request sender number message => exact along_handleRequest rfl h.1 rfl
  | response sender number answer =>
    refine along_handleResponse rfl fun context hcontext asked hasked => ?_
    have hall := h.1
    rw [← hnode, hcontext, Option.all_some, hasked, Option.all_some, decide_eq_true_eq] at hall
    exact hall
  | failed number => exact tame_handleOutboundFailure number e
  | authenticated other => exact tame_handleAuthenticated other e
  | disconnected other => exact tame_handleDisconnected other e
  | tick => exact along_maintainAuthorityLeases
  | command order => exact along_runCommand order

/-- What an input tells a peer, the network may deliver to it. -/
theorem Input.heeds {peer : PeerId} (h : cause.Enabled C F s peer) :
    s.Heeds C F peer cause.heard := by
  intro sender body hheard
  cases cause with
  | request other number message =>
    cases hheard
    exact ⟨number, h.2⟩
  | response other number answer =>
    cases hheard
    exact ⟨number, h.2⟩
  | failed number => cases hheard
  | authenticated other => cases hheard
  | disconnected other => cases hheard
  | tick => cases hheard
  | command order => cases hheard

/-- A peer whose control files are kept and whose memory learned nothing made moves. -/
theorem run_quieter {node node' : Node} (log : List Stamp)
    (hstore : SameControl node.store node'.store) (hruntime : Quieter site node node'.runtime) :
    Run (PeerMove C site heard) ⟨node, log⟩ ⟨node', log⟩ := by
  have hremembered : PeerMove C site heard ⟨node, log⟩
      ⟨{ node with runtime := node'.runtime }, log⟩ := .remembered (.quiet hruntime)
  have hstored : PeerMove C site heard ⟨{ node with runtime := node'.runtime }, log⟩
      ⟨{ node with runtime := node'.runtime, store := node'.store }, log ++ []⟩ :=
    .stored (.quiet hstore)
  have hbookkept : PeerMove C site heard
      ⟨{ node with runtime := node'.runtime, store := node'.store }, log⟩ ⟨node', log⟩ :=
    .bookkept _ _ _ _
  rw [append_nil] at hstored
  exact ((Relation.ReflTransGen.single hremembered).tail hstored).tail hbookkept

theorem SameControl.rfl {store : Store} : SameControl store store := ⟨.refl _, .refl _, .refl _,
  .refl _, .refl _⟩

/-- A daemon that starts again has forgotten everything. -/
theorem quieter_default (site : Site) (node : Node) : Quieter site node LeaseRuntime.default :=
  ⟨fun _ _ h => (by cases h), fun _ _ h => (by cases h), fun _ h => (by cases h),
    fun _ h => (by cases h), fun _ h => (by cases h)⟩

/-! ## Steps -/

theorem peer_become_of_ne {actor peer : PeerId} (hne : peer ≠ actor) (node : Node)
    (entries : List Entry) (packets : List Packet) :
    (s.become actor node entries packets).peer peer = s.peer peer := by
  simp only [System.peer, System.become, update_of_ne hne]

theorem peer_become_self (actor : PeerId) (node : Node) (entries : List Entry)
    (packets : List Packet) :
    (s.become actor node entries packets).peer actor =
      ⟨node, s.logs actor ++ entries.map (Entry.stamp s.clock)⟩ := by
  simp only [System.peer, System.become, update_self]

/-- Whoever does not act stays as it is. -/
theorem peer_perform_of_not_mem {act : Act} {peer : PeerId} (hpeer : peer ∉ act.actors) :
    (s.perform C F act).peer peer = s.peer peer := by
  cases act with
  | input actor cause => exact peer_become_of_ne (ne_of_not_mem_cons hpeer) _ _ _
  | cut actor cause point =>
    simp only [System.perform]
    split
    · exact peer_become_of_ne (ne_of_not_mem_cons hpeer) _ _ _
    · rfl
  | restart actor => exact peer_become_of_ne (ne_of_not_mem_cons hpeer) _ _ _
  | elapse milliseconds => rfl
  | surroundings actor host blobs soloPolicy =>
    exact peer_become_of_ne (ne_of_not_mem_cons hpeer) _ _ _
  | reorder actor recoveryVotes membershipVotes =>
    exact peer_become_of_ne (ne_of_not_mem_cons hpeer) _ _ _

/-- Whoever does not act in a schedule stays as it is. -/
theorem peer_play_of_not_mem {peer : PeerId}
    (hpeer : peer ∉ s.actors C F cues) : (s.play C F cues).peer peer = s.peer peer := by
  induction cues generalizing s with
  | nil => rfl
  | cons cue cues ih =>
    simp only [System.actors, mem_append, not_or] at hpeer
    exact (ih hpeer.2).trans (peer_perform_of_not_mem hpeer.1)

/-- What holds of the logs of those who act holds of all logs. -/
theorem forall_logs_play {P : PeerId → Stamp → Prop} (hs : ∀ peer, s.logs peer = [])
    (h : ∀ peer ∈ s.actors C F cues, ∀ stamp ∈ (s.play C F cues).logs peer, P peer stamp) :
    ∀ peer, ∀ stamp ∈ (s.play C F cues).logs peer, P peer stamp := by
  intro peer stamp hstamp
  by_cases hpeer : peer ∈ s.actors C F cues
  · exact h peer hpeer stamp hstamp
  · have hsame := congrArg Peer.log (@peer_play_of_not_mem C F s cues peer hpeer)
    simp only [System.peer] at hsame
    rw [hsame, hs] at hstamp
    cases hstamp

theorem moves_handle {peer : PeerId} (h : cause.Enabled C F s peer) :
    Follows C (s.site C F peer) cause.heard (s.logs peer) (Exec.start (s.nodes peer))
      (s.handle C F peer cause).2 :=
  Input.follows rfl h

theorem peer_start (peer : PeerId) :
    (Exec.start (s.nodes peer)).peer (s.site C F peer) (s.logs peer) = s.peer peer := by
  simp only [Exec.peer, Exec.start, System.peer, map_nil, append_nil]

/-- A node after an input is the handler's one, or that one restarted. -/
theorem run_settle {peer : PeerId} (h : cause.Enabled C F s peer) :
    Run (PeerMove C (s.site C F peer) cause.heard) (s.peer peer)
      ⟨cause.settle (s.handle C F peer cause),
        s.logs peer ++ (s.handle C F peer cause).2.log.map (Entry.stamp s.clock)⟩ := by
  have hmoves := (moves_handle h).moves
  rw [peer_start] at hmoves
  refine hmoves.trans ?_
  cases hout : s.handle C F peer cause with
  | mk result e =>
    cases result with
    | ok value => exact .refl
    | error error =>
      simp only [Input.settle]
      split
      · exact run_quieter _ .rfl (quieter_default _ _)
      · exact .refl

/-- Each peer makes moves in each step. -/
theorem Step.moves (h : Step C F s t) (peer : PeerId) :
    ∃ heard, s.Heeds C F peer heard ∧
      Run (PeerMove C (s.site C F peer) heard) (s.peer peer) (t.peer peer) := by
  obtain ⟨act, henabled, rfl⟩ := h
  have hsame {t : System} (ht : t.peer peer = s.peer peer) :
      ∃ heard, s.Heeds C F peer heard ∧
        Run (PeerMove C (s.site C F peer) heard) (s.peer peer) (t.peer peer) :=
    ⟨none, fun _ _ hnone => (by cases hnone), ht ▸ .refl⟩
  have hquiet {actor : PeerId} {node : Node} (hstore : SameControl (s.nodes actor).store node.store)
      (hruntime : Quieter (s.site C F actor) (s.nodes actor) node.runtime) :
      ∃ heard, s.Heeds C F peer heard ∧ Run (PeerMove C (s.site C F peer) heard) (s.peer peer)
        ((s.become actor node [] []).peer peer) := by
    by_cases hpeer : peer = actor
    · subst hpeer
      refine ⟨none, fun _ _ hnone => (by cases hnone), ?_⟩
      rw [peer_become_self, map_nil, append_nil]
      exact run_quieter _ hstore hruntime
    · exact hsame (peer_become_of_ne hpeer _ _ _)
  cases act with
  | input actor cause =>
    by_cases hpeer : peer = actor
    · subst hpeer
      refine ⟨cause.heard, Input.heeds henabled.2, ?_⟩
      simp only [System.perform]
      rw [peer_become_self]
      exact run_settle henabled.2
    · exact hsame (peer_become_of_ne hpeer _ _ _)
  | cut actor cause point =>
    simp only [System.perform]
    split
    · rename_i store entries hpoint
      by_cases hpeer : peer = actor
      · subst hpeer
        refine ⟨cause.heard, Input.heeds henabled.2, ?_⟩
        rw [peer_become_self]
        rcases (moves_handle henabled.2).trail _ (List.mem_of_getElem? hpoint) with
          hold | ⟨node, hstore, hrun⟩
        · cases hold
        · rw [peer_start] at hrun
          refine hrun.trans (run_quieter _ ?_ (quieter_default _ _))
          rw [hstore]
          exact .rfl
      · exact hsame (peer_become_of_ne hpeer _ _ _)
    · exact hsame rfl
  | restart actor => exact hquiet .rfl (quieter_default _ _)
  | elapse milliseconds => exact hsame rfl
  | surroundings actor host blobs soloPolicy =>
    exact hquiet ⟨rfl, rfl, rfl, rfl, rfl⟩ (quieter_same rfl rfl rfl rfl rfl)
  | reorder actor recoveryVotes membershipVotes =>
    refine hquiet .rfl ⟨fun _ _ h => h, fun _ _ h => h, fun _ h => h, fun _ h => .inl h,
      fun entry hentry => .inl (henabled.1.subset hentry)⟩

/-- A property of peers that may look at the rest of the system: kept by every move of a peer
while the others stand still, and by the growth of their logs. -/
theorem Run.peerInvariant {I : System → PeerId → Peer → Prop}
    (hmove : ∀ r, Run (Step C F) s r → ∀ peer heard a b, r.Heeds C F peer heard → I r peer a →
      PeerMove C (r.site C F peer) heard a b → I r peer b)
    (hstep : ∀ r r', Step C F r r' → ∀ peer, I r peer (r'.peer peer) → I r' peer (r'.peer peer))
    (hrun : Run (Step C F) s t) (hs : ∀ peer, I s peer (s.peer peer)) (peer : PeerId) :
    I t peer (t.peer peer) := by
  induction hrun generalizing peer with
  | refl => exact hs peer
  | tail hprefix hlast ih =>
    obtain ⟨heard, hheeds, hmoves⟩ := hlast.moves peer
    refine hstep _ _ hlast peer ?_
    exact Run.invariant (fun a b ha hab => hmove _ hprefix peer heard a b hheeds ha hab) hmoves
      (ih peer)

/-- A property of single peers that moves keep, whatever the peer may be told. -/
theorem Step.invariant {I : PeerId → Peer → Prop}
    (hmove : ∀ (s : System) peer heard a b, s.Heeds C F peer heard → I peer a →
      PeerMove C (s.site C F peer) heard a b → I peer b)
    (hrun : Run (Step C F) s t) (hs : ∀ peer, I peer (s.peer peer)) (peer : PeerId) :
    I peer (t.peer peer) :=
  Run.peerInvariant (I := fun _ => I) (fun r _ peer heard a b => hmove r peer heard a b)
    (fun _ _ _ _ h => h) hrun hs peer

/-! ## Logs and packets -/

theorem PeerMove.log_prefix {a b : Peer} (h : PeerMove C site heard a b) : a.log <+: b.log := by
  cases h with
  | stored move => exact prefix_append _ _
  | remembered move => exact prefix_refl _
  | logged move => exact prefix_append _ _
  | confirmed told => exact prefix_append _ _
  | bookkept => exact prefix_refl _

theorem Step.log_prefix (h : Step C F s t) (peer : PeerId) : s.logs peer <+: t.logs peer := by
  obtain ⟨heard, _, hmoves⟩ := h.moves peer
  have hgrow : ∀ {a b : Peer}, Run (PeerMove C (s.site C F peer) heard) a b → a.log <+: b.log := by
    intro a b hrun
    induction hrun with
    | refl => exact prefix_refl _
    | tail _ hlast ih => exact ih.trans hlast.log_prefix
  exact hgrow hmoves

theorem Step.sent_prefix (h : Step C F s t) : s.sent <+: t.sent := by
  obtain ⟨act, _, rfl⟩ := h
  cases act with
  | input actor cause => exact prefix_append _ _
  | cut actor cause point =>
    simp only [System.perform]
    split
    · exact prefix_append _ _
    · exact prefix_refl _
  | restart actor => exact prefix_append _ _
  | elapse milliseconds => exact prefix_refl _
  | surroundings actor host blobs soloPolicy => exact prefix_append _ _
  | reorder actor recoveryVotes membershipVotes => exact prefix_append _ _

/-- Votes that were not forged stay so. -/
theorem Step.unforged (h : Step C F s t) {votes : List RecoveryVoteV1}
    (hvotes : s.Unforged C F votes) : t.Unforged C F votes := by
  intro vote hvote hhonest hsigned
  obtain ⟨stamp, hstamp, hreleases⟩ := hvotes vote hvote hhonest hsigned
  exact ⟨stamp, (h.log_prefix _).subset hstamp, hreleases⟩

/-- What the network may deliver, it may deliver later. -/
theorem Step.heeds (h : Step C F s t) {peer : PeerId}
    (hheeds : s.Heeds C F peer heard) : t.Heeds C F peer heard := by
  intro sender body hheard
  obtain ⟨number, hsent, hvotes⟩ := hheeds sender body hheard
  exact ⟨number, fun hhonest => h.sent_prefix.subset (hsent hhonest), h.unforged hvotes⟩

/-- An acknowledged lease is in the log of the peer that acknowledged it. -/
def System.Backed (s : System) (packet : Packet) : Prop :=
  ∀ epoch fencingToken, packet.body = .response (.leaseAccepted epoch fencingToken) →
    ∃ stamp ∈ s.logs packet.src, stamp.event = .acceptedLease ⟨epoch, fencingToken⟩ packet.dst

theorem Step.backed_mono (h : Step C F s t) (hbacked : s.Backed packet) : t.Backed packet := by
  intro epoch fencingToken hbody
  obtain ⟨stamp, hstamp, hevent⟩ := hbacked epoch fencingToken hbody
  exact ⟨stamp, (h.log_prefix packet.src).subset hstamp, hevent⟩

/-- A packet that an input queues is backed afterwards. -/
theorem backed_handle {peer : PeerId} (hpeer : F.honest peer) (h : cause.Enabled C F s peer)
    (hpacket : packet ∈ (s.handle C F peer cause).2.outbox) (node : Node) :
    (s.become peer node (s.handle C F peer cause).2.log
      (s.handle C F peer cause).2.outbox).Backed packet := by
  rcases (moves_handle h).outbox packet hpacket with hold | ⟨hsrc, hjustified⟩
  · cases hold
  · intro epoch fencingToken hbody
    obtain ⟨entry, hentry, hevent⟩ := hjustified epoch fencingToken hbody
    rw [Fleet.site_peer hpeer] at hsrc
    refine ⟨entry.stamp s.clock, ?_, hevent⟩
    rw [hsrc]
    simp only [System.become, update_self, mem_append, List.mem_map]
    exact .inr ⟨entry, hentry, rfl⟩

/-- Every packet on the network is backed, in every run. -/
theorem Step.backed (h : Step C F s t) (hs : ∀ packet ∈ s.sent, s.Backed packet) :
    ∀ packet ∈ t.sent, t.Backed packet := by
  intro packet hpacket
  by_cases hold : packet ∈ s.sent
  · exact h.backed_mono (hs packet hold)
  · obtain ⟨act, henabled, rfl⟩ := h
    cases act with
    | input actor cause =>
      refine backed_handle henabled.1 henabled.2 ?_ _
      simp only [System.perform, System.become, mem_append] at hpacket
      exact hpacket.resolve_left hold
    | cut actor cause point =>
      simp only [System.perform] at hpacket
      split at hpacket
      · simp only [System.become, append_nil] at hpacket
        exact absurd hpacket hold
      · exact absurd hpacket hold
    | restart actor =>
      simp only [System.perform, System.become, append_nil] at hpacket
      exact absurd hpacket hold
    | elapse milliseconds => exact absurd hpacket hold
    | surroundings actor host blobs soloPolicy =>
      simp only [System.perform, System.become, append_nil] at hpacket
      exact absurd hpacket hold
    | reorder actor recoveryVotes membershipVotes =>
      simp only [System.perform, System.become, append_nil] at hpacket
      exact absurd hpacket hold

theorem Step.clock_le (h : Step C F s t) : s.clock ≤ t.clock := by
  obtain ⟨act, _, rfl⟩ := h
  cases act with
  | elapse milliseconds => exact Nat.le_add_right _ _
  | cut actor cause point =>
    simp only [System.perform]
    split <;> exact Nat.le_refl _
  | input actor cause => exact Nat.le_refl _
  | restart actor => exact Nat.le_refl _
  | surroundings actor host blobs soloPolicy => exact Nat.le_refl _
  | reorder actor recoveryVotes membershipVotes => exact Nat.le_refl _

/-! ## What the logs say -/

variable {peer : PeerId} {stamp : Stamp} {ballot : RecoveryBallotV1} {wake : Bool}

/-- A state from which a run may start: nothing was promised, said or done yet. What else the
stores hold is arbitrary. -/
structure System.Initial (s : System) : Prop where
  logs : ∀ peer, s.logs peer = []
  sent : s.sent = []
  runtime : ∀ peer, (s.nodes peer).runtime = LeaseRuntime.default
  recoveryPromise : ∀ peer, (s.nodes peer).store.recoveryPromise = .absent
  membershipPromise : ∀ peer, (s.nodes peer).store.membershipPromise = .absent

/-- The event stored an epoch record that passes a test. -/
def Event.stores (test : EpochRecordV1 → Bool) : Event → Bool
  | .storedEpoch record => test record
  | _ => false

/-- Which event stores a record that passes a test. -/
theorem Event.stores_eq_true {test : EpochRecordV1 → Bool} {event : Event} :
    event.stores test = true ↔ ∃ record, event = .storedEpoch record ∧ test record = true := by
  cases event <;> simp [Event.stores]

/-- Where a peer stands at a time. -/
def Fleet.siteAt (F : Fleet C) (peer : PeerId) (time : Nat) : Site := ⟨F.world, ⟨F.key peer⟩, time⟩

variable (F) in
/-- A recorded event was the effect of a move, told by what the network may deliver. -/
def Stamp.Justified (s : System) (peer : PeerId) (stamp : Stamp) : Prop :=
  ∃ heard after, s.Heeds C F peer heard ∧
    Recorded C (F.siteAt peer stamp.time) heard stamp.node after stamp.event

/-- A justified event stays justified. -/
theorem Stamp.Justified.mono (h : stamp.Justified F s peer)
    (hstep : Step C F s t) : stamp.Justified F t peer := by
  obtain ⟨heard, after, hheeds, hrecorded⟩ := h
  exact ⟨heard, after, hstep.heeds hheeds, hrecorded⟩

/-- One move records only events it justifies. -/
theorem PeerMove.justified {heard : Heard} {a b : Peer}
    (hheeds : s.Heeds C F peer heard) (h : PeerMove C (s.site C F peer) heard a b)
    (ha : ∀ stamp ∈ a.log, stamp.Justified F s peer) :
    ∀ stamp ∈ b.log, stamp.Justified F s peer := by
  obtain ⟨new, hlog, _, hnew⟩ := h.log_append
  intro stamp hstamp
  rw [hlog] at hstamp
  rcases List.mem_append.mp hstamp with hold | hmem
  · exact ha stamp hold
  · obtain ⟨hnode, htime, hrecorded⟩ := hnew stamp hmem
    refine ⟨heard, b.node, hheeds, ?_⟩
    rw [hnode, htime]
    exact hrecorded

/-- Every recorded event of a run was the effect of a move. -/
theorem Run.justified (hrun : Run (Step C F) s t) (hs : s.Initial)
    (hstamp : stamp ∈ t.logs peer) : stamp.Justified F t peer := by
  refine Run.peerInvariant (I := fun r peer p => ∀ stamp ∈ p.log, stamp.Justified F r peer)
    ?_ ?_ hrun ?_ peer stamp hstamp
  · intro r _ peer heard a b hheeds ha hmove
    exact hmove.justified hheeds ha
  · intro r r' hstep peer hr stamp hmem
    exact (hr stamp hmem).mono hstep
  · intro peer stamp hmem
    simp only [System.peer, hs.logs, not_mem_nil] at hmem

theorem Step.logs_of_not_honest (h : Step C F s t) (hpeer : ¬ F.honest peer) :
    t.logs peer = s.logs peer := by
  have hbecome : ∀ {actor : PeerId}, F.honest actor → ∀ node entries packets,
      (s.become actor node entries packets).logs peer = s.logs peer := by
    intro actor hactor node entries packets
    have hne : peer ≠ actor := fun hsame => hpeer (hsame ▸ hactor)
    simp only [System.become, update_of_ne hne]
  have hquiet : ∀ actor node packets, (s.become actor node [] packets).logs peer = s.logs peer := by
    intro actor node packets
    by_cases hsame : peer = actor
    · simp only [System.become, hsame, update_self, map_nil, append_nil]
    · simp only [System.become, update_of_ne hsame]
  obtain ⟨act, henabled, rfl⟩ := h
  cases act with
  | input actor cause => exact hbecome henabled.1 _ _ _
  | cut actor cause point =>
    simp only [System.perform]
    split
    · exact hbecome henabled.1 _ _ _
    · rfl
  | restart actor => exact hquiet _ _ _
  | elapse milliseconds => rfl
  | surroundings actor host blobs soloPolicy => exact hquiet _ _ _
  | reorder actor recoveryVotes membershipVotes => exact hquiet _ _ _

theorem Run.honest_of_log (hrun : Run (Step C F) s t) (hs : s.Initial)
    (hstamp : stamp ∈ t.logs peer) : F.honest peer := by
  by_contra hpeer
  have hempty : t.logs peer = [] :=
    Run.invariant (I := fun r => r.logs peer = [])
      (fun r r' hr hstep => (hstep.logs_of_not_honest hpeer).trans hr) hrun (hs.logs peer)
  rw [hempty] at hstamp
  cases hstamp

/-! ## Recovery votes -/

/-- A released vote is for the ballot that was promised. -/
theorem releasedRecovery_spec {released : RecoveryBallotV1} {vote signed : RecoveryVoteV1}
    {wake' : Bool} {result : RecoveryPromiseResult} {store store' : Store}
    (hsaved : promiseRecoveryBallot C ballot vote store = .ok (result, store'))
    (hmem : Event.votedRecovery released signed wake' ∈ recoveryVotesReleased wake result store') :
    wake' = wake ∧ released.unsigned = ballot.unsigned ∧
      signed.matchesBallot C released = true := by
  obtain ⟨promise, hfile, hevent⟩ := mem_recoveryVotesReleased hmem
  rw [Event.votedRecovery.injEq] at hevent
  obtain ⟨rfl, rfl, rfl⟩ := hevent
  obtain ⟨_, hresult⟩ := promiseRecoveryBallot_eq_ok hsaved
  cases result with
  | rejected round => simp only [recoveryVotesReleased, not_mem_nil] at hmem
  | idempotent =>
    obtain ⟨rfl, _, existing, hload, hsame⟩ := hresult
    simp only [loadRecoveryPromise, DurableFile.load_eq_ok, bind_eq_ok, ensure_eq_ok] at hload
    obtain ⟨hpresent, _, _, _, _, _, _, hmatches⟩ := hload
    rw [hpresent, DurableFile.present.injEq] at hfile
    subst hfile
    exact ⟨rfl, hsame, hmatches⟩
  | accepted =>
    obtain ⟨rfl, hpromisable, _⟩ := hresult
    rw [DurableFile.present.injEq] at hfile
    subst hfile
    simp only [promisable, Bool.and_eq_true] at hpromisable
    exact ⟨rfl, rfl, hpromisable.1.1⟩

/-- What a peer checks of a ballot does not depend on the candidate's signature. -/
theorem Votable.of_unsigned {site : Site} {node : Node} {ballot' : RecoveryBallotV1}
    (hsame : ballot'.unsigned = ballot.unsigned)
    (h : Votable C site node ballot wake) : Votable C site node ballot' wake := by
  have hworld : ballot'.worldId = ballot.worldId := congrArg (·.worldId) hsame
  have hepoch : ballot'.baseEpoch = ballot.baseEpoch := congrArg (·.baseEpoch) hsame
  have htoken : ballot'.baseFencingToken = ballot.baseFencingToken :=
    congrArg (·.baseFencingToken) hsame
  have hhead : ballot'.baseSnapshotHash = ballot.baseSnapshotHash :=
    congrArg (·.baseSnapshotHash) hsame
  have hmembers : ballot'.membershipHash = ballot.membershipHash :=
    congrArg (·.membershipHash) hsame
  refine ⟨hworld.trans h.world, h.accepted, ⟨?_, ?_, ?_⟩, h.unprepared, h.expired⟩
  · rw [hepoch, htoken]
    exact h.base.epoch
  · rw [hhead]
    exact h.base.head
  · rw [hmembers]
    exact h.base.membership

/-- What held when a recovery vote was released. -/
theorem Stamp.Justified.votedRecovery {vote : RecoveryVoteV1} (h : stamp.Justified F s peer)
    (hevent : stamp.event = .votedRecovery ballot vote wake) :
    Votable C (F.siteAt peer stamp.time) stamp.node ballot wake ∧
      vote.matchesBallot C ballot = true := by
  obtain ⟨heard, after, _, hrecorded⟩ := h
  rw [hevent] at hrecorded
  cases hrecorded with
  | stored move hmem _ =>
    rcases move.recoveryPromise_cases with ⟨_, hnone⟩ | ⟨votable, own, saved⟩ | stored
    · exact absurd hmem (hnone _ _ _)
    · obtain ⟨rfl, hsame, hmatches⟩ := releasedRecovery_spec saved hmem
      exact ⟨votable.of_unsigned hsame, hmatches⟩
    · cases hmem
  | logged move same => cases move
  | confirmed told same => cases same

/-! ## Membership votes -/

/-- A released vote is the one that is stored for the prepared proposal. -/
theorem releasedMembership_spec {world : WorldId} {proposal released : MembershipProposalV1}
    {vote signed : MembershipVoteV1} {result : MembershipPromiseResult} {store store' : Store}
    (hworld : proposal.proposed.worldId = world)
    (hsaved : promiseMembershipProposal C proposal vote store = (result, store'))
    (hmem : Event.votedMembership released signed ∈ membershipVotesReleased result store') :
    released = proposal ∧ proposal.validateShape C = true ∧
      loadMembershipPromise C world store' = .ok ⟨proposal, signed⟩ := by
  obtain ⟨promise, hfile, hevent⟩ := mem_membershipVotesReleased hmem
  rw [Event.votedMembership.injEq] at hevent
  obtain ⟨rfl, rfl⟩ := hevent
  have hresult := promiseMembershipProposal_eq hsaved
  cases result with
  | rejected => simp only [membershipVotesReleased, not_mem_nil] at hmem
  | idempotent =>
    obtain ⟨rfl, hshape, existing, hload, rfl⟩ := hresult
    have hpresent := (DurableFile.load_eq_ok.mp hload).1
    rw [hpresent, DurableFile.present.injEq] at hfile
    subst hfile hworld
    exact ⟨rfl, hshape, hload⟩
  | accepted =>
    obtain ⟨rfl, hshape, hmatches, _⟩ := hresult
    rw [DurableFile.present.injEq] at hfile
    subst hfile
    refine ⟨rfl, hshape, ?_⟩
    simp only [loadMembershipPromise, DurableFile.load_eq_ok, ensure_eq_ok]
    exact ⟨trivial, hworld, hmatches⟩

/-- What held when a membership vote was released. -/
theorem Stamp.Justified.votedMembership
    {proposal : MembershipProposalV1} {vote : MembershipVoteV1} (h : stamp.Justified F s peer)
    (hevent : stamp.event = .votedMembership proposal vote) :
    (∀ current, loadMembershipRecord F.world stamp.node.store = .ok current →
        current = proposal.previous) ∧
      proposal.validateShape C = true ∧ vote.matchesProposal C proposal = true := by
  obtain ⟨heard, after, _, hrecorded⟩ := h
  rw [hevent] at hrecorded
  cases hrecorded with
  | stored move hmem _ =>
    rcases move.membershipPromise_cases with ⟨_, hnone⟩ | ⟨world, onCommitted, saved⟩ | stored
    · exact absurd hmem (hnone _ _)
    · obtain ⟨rfl, hshape, hload⟩ := releasedMembership_spec world saved hmem
      simp only [loadMembershipPromise, DurableFile.load_eq_ok, ensure_eq_ok] at hload
      exact ⟨onCommitted, hshape, hload.2.2⟩
    · cases hmem
  | logged move same => cases move
  | confirmed told same => cases same

end SwarmCraft
