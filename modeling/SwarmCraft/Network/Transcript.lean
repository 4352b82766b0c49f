import SwarmCraft.Network.Session

/-!
# Transcripts of a node

A transcript lists the turns of a node with its reactions, the newest first. The swarm never
reuses a connection identifier, closes only open connections, counts the connections of a peer
and holds them to the configured limit; a request may be reported for any connection at any
time. `View.Sound` is what a transcript has to justify about the tables of one peer, and
`TableMoves.sound` carries it over a turn.
-/

namespace SwarmCraft

variable {ρ σ : Type}

/-- A turn and what the node did in it. -/
structure TurnEntry (ρ : Type) where
  turn : Turn ρ
  reaction : Reaction ρ

/-- The turns of a node, the newest first. -/
abbrev Transcript (ρ : Type) : Type := List (TurnEntry ρ)

/-- The connection that a turn reports as established. -/
def Turn.opened (turn : Turn ρ) : Option (TransportPeerId × ConnectionId) :=
  match turn.event with
  | .established peer connection _ _ _ _ => some (peer, connection)
  | _ => none

/-- The connection that a turn reports as closed. -/
def Turn.closed (turn : Turn ρ) : Option (TransportPeerId × ConnectionId) :=
  match turn.event with
  | .closed peer connection _ _ => some (peer, connection)
  | _ => none

/-- The connections that were established and not closed. -/
def openConnections : Transcript ρ → List (TransportPeerId × ConnectionId)
  | [] => []
  | entry :: earlier =>
    match entry.turn.event with
    | .established peer connection _ _ _ _ => (peer, connection) :: openConnections earlier
    | .closed peer connection _ _ => (openConnections earlier).erase (peer, connection)
    | _ => openConnections earlier

/-- The number of open connections of a peer. -/
def openCount (peer : TransportPeerId) (transcript : Transcript ρ) : Nat :=
  (openConnections transcript).countP fun link => decide (link.1 = peer)

/-- What the swarm may report after a transcript. -/
structure Emits (earlier : Transcript ρ) (turn : Turn ρ) : Prop where
  /-- Random challenges are distinct. -/
  challenge : ∀ entry ∈ earlier, entry.turn.challenge ≠ turn.challenge
  /-- An established connection has a new identifier and respects the limit for its peer. -/
  established : ∀ peer connection isRelayed isDialer numEstablished closeable,
    turn.event = .established peer connection isRelayed isDialer numEstablished closeable →
      (∀ entry ∈ earlier, ∀ other, entry.turn.opened ≠ some (other, connection)) ∧
        openCount peer earlier < maxEstablishedConnectionsPerPeer ∧
        numEstablished = openCount peer earlier + 1
  /-- Only an open connection is closed. -/
  closed : ∀ peer connection numEstablished order,
    turn.event = .closed peer connection numEstablished order →
      (peer, connection) ∈ openConnections earlier ∧ numEstablished + 1 = openCount peer earlier

/-- The node got from its initial state to this one along the transcript. -/
inductive Endpoint.Runs (endpoint : Endpoint ρ σ) : Transcript ρ → σ → Prop
  | start : endpoint.Runs [] endpoint.initial
  | turn {earlier : Transcript ρ} {node : σ} {turn : Turn ρ} (before : endpoint.Runs earlier node)
      (emits : Emits earlier turn) :
      endpoint.Runs (⟨turn, (endpoint.turn turn node).2⟩ :: earlier) (endpoint.turn turn node).1

/-- Every turn of the transcript could be reported after the turns before it. -/
def Emitted : Transcript ρ → Prop
  | [] => True
  | entry :: earlier => Emits earlier entry.turn ∧ Emitted earlier

section Runs

variable {transcript : Transcript ρ} {endpoint : Endpoint ρ σ} {node : σ}

/-- The turns of a run were reported by the swarm. -/
theorem Endpoint.Runs.emitted (h : endpoint.Runs transcript node) : Emitted transcript := by
  induction h with
  | start => exact trivial
  | turn _ hemits ih => exact ⟨hemits, ih⟩

/-- What holds at first and after every turn holds in every run. -/
theorem Endpoint.Runs.invariant {P : Transcript ρ → σ → Prop}
    (h : endpoint.Runs transcript node) (hstart : P [] endpoint.initial)
    (hturn : ∀ earlier node turn, P earlier node → Emits earlier turn → Emitted earlier →
      P (⟨turn, (endpoint.turn turn node).2⟩ :: earlier) (endpoint.turn turn node).1) :
    P transcript node := by
  induction h with
  | start => exact hstart
  | turn hbefore hemits ih => exact hturn _ _ _ ih hemits hbefore.emitted

end Runs

section Connections

variable {transcript : Transcript ρ} {entry : TurnEntry ρ} {peer : TransportPeerId}
  {connection : ConnectionId}

/-- A turn opens a connection by reporting it as established. -/
theorem Turn.opened_eq_some {turn : Turn ρ} : turn.opened = some (peer, connection) ↔
    ∃ isRelayed isDialer numEstablished closeable,
      turn.event = .established peer connection isRelayed isDialer numEstablished closeable := by
  unfold Turn.opened
  cases turn.event <;> simp

/-- A turn closes a connection by reporting it as closed. -/
theorem Turn.closed_eq_some {turn : Turn ρ} : turn.closed = some (peer, connection) ↔
    ∃ numEstablished order, turn.event = .closed peer connection numEstablished order := by
  unfold Turn.closed
  cases turn.event <;> simp

/-- A turn that opens a connection adds it. -/
theorem openConnections_opened (h : entry.turn.opened = some (peer, connection)) :
    openConnections (entry :: transcript) = (peer, connection) :: openConnections transcript := by
  obtain ⟨_, _, _, _, hevent⟩ := Turn.opened_eq_some.mp h
  simp only [openConnections, hevent]

/-- A turn that closes a connection takes it out. -/
theorem openConnections_closed (h : entry.turn.closed = some (peer, connection)) :
    openConnections (entry :: transcript) =
      (openConnections transcript).erase (peer, connection) := by
  obtain ⟨_, _, hevent⟩ := Turn.closed_eq_some.mp h
  simp only [openConnections, hevent]

/-- Turns that neither establish nor close a connection do not count. -/
theorem openConnections_cons_of_none (hopened : entry.turn.opened = none)
    (hclosed : entry.turn.closed = none) :
    openConnections (entry :: transcript) = openConnections transcript := by
  cases hevent : entry.turn.event with
  | established => simp [Turn.opened, hevent] at hopened
  | closed => simp [Turn.closed, hevent] at hclosed
  | request => simp [openConnections, hevent]
  | other => simp [openConnections, hevent]

/-- A turn establishes a connection, closes one, or does neither. -/
theorem Turn.opens_or_closes (turn : Turn ρ) :
    (∃ peer connection, turn.opened = some (peer, connection) ∧ turn.closed = none) ∨
      (∃ peer connection, turn.closed = some (peer, connection)) ∨
      turn.opened = none ∧ turn.closed = none := by
  unfold Turn.opened Turn.closed
  cases turn.event <;> simp

/-- An open connection was established. -/
theorem opened_of_open (h : (peer, connection) ∈ openConnections transcript) :
    ∃ entry ∈ transcript, entry.turn.opened = some (peer, connection) := by
  induction transcript with
  | nil => simp [openConnections] at h
  | cons entry earlier ih =>
    have hlater (hold : (peer, connection) ∈ openConnections earlier) :
        ∃ first ∈ entry :: earlier, first.turn.opened = some (peer, connection) := by
      obtain ⟨first, hmem, hopened⟩ := ih hold
      exact ⟨first, List.mem_cons_of_mem _ hmem, hopened⟩
    rcases entry.turn.opens_or_closes with ⟨_, _, hopened, _⟩ | ⟨_, _, hclosed⟩ | ⟨hopened, hclosed⟩
    · rw [openConnections_opened hopened] at h
      rcases List.mem_cons.mp h with heq | hold
      · exact ⟨entry, List.mem_cons_self, by rw [hopened, heq]⟩
      · exact hlater hold
    · rw [openConnections_closed hclosed] at h
      exact hlater (List.mem_of_mem_erase h)
    · rw [openConnections_cons_of_none hopened hclosed] at h
      exact hlater h

/-- A connection that a reported turn establishes was not established before. -/
theorem Emits.fresh (h : Emits transcript entry.turn)
    (hopened : entry.turn.opened = some (peer, connection)) :
    ∀ first ∈ transcript, ∀ other, first.turn.opened ≠ some (other, connection) := by
  obtain ⟨_, _, _, _, hevent⟩ := Turn.opened_eq_some.mp hopened
  exact (h.established _ _ _ _ _ _ hevent).1

/-- Open connections are listed once. -/
theorem Emitted.nodup_open (h : Emitted transcript) : (openConnections transcript).Nodup := by
  induction transcript with
  | nil => simp [openConnections]
  | cons entry earlier ih =>
    have hold := ih h.2
    rcases entry.turn.opens_or_closes with ⟨_, _, hopened, _⟩ | ⟨_, _, hclosed⟩ | ⟨hopened, hclosed⟩
    · rw [openConnections_opened hopened]
      refine List.nodup_cons.mpr ⟨?_, hold⟩
      intro hmem
      obtain ⟨first, hfirst, hopened'⟩ := opened_of_open hmem
      exact h.1.fresh hopened first hfirst _ hopened'
    · rw [openConnections_closed hclosed]
      exact hold.erase _
    · rw [openConnections_cons_of_none hopened hclosed]
      exact hold

/-- A closed connection was established. -/
theorem Emitted.opened_of_closed (h : Emitted transcript) (hmem : entry ∈ transcript)
    (hclosed : entry.turn.closed = some (peer, connection)) :
    ∃ first ∈ transcript, first.turn.opened = some (peer, connection) := by
  induction transcript with
  | nil => cases hmem
  | cons newest earlier ih =>
    have hearlier : ∃ first ∈ earlier, first.turn.opened = some (peer, connection) := by
      rcases List.mem_cons.mp hmem with rfl | hold
      · obtain ⟨_, _, hevent⟩ := Turn.closed_eq_some.mp hclosed
        exact opened_of_open (h.1.closed _ _ _ _ hevent).1
      · exact ih h.2 hold
    obtain ⟨first, hfirst, hopened⟩ := hearlier
    exact ⟨first, List.mem_cons_of_mem _ hfirst, hopened⟩

/-- An open connection was never closed. -/
theorem Emitted.not_closed (h : Emitted transcript)
    (hopen : (peer, connection) ∈ openConnections transcript) :
    ∀ entry ∈ transcript, entry.turn.closed ≠ some (peer, connection) := by
  induction transcript with
  | nil => simp
  | cons newest earlier ih =>
    intro entry hmem hclosed
    rcases newest.turn.opens_or_closes with ⟨_, _, hopens, hnone⟩ | ⟨_, _, hcloses⟩ | ⟨hopens, hnone⟩
    · have hold : entry ∈ earlier := by
        rcases List.mem_cons.mp hmem with rfl | hold
        · simp [hnone] at hclosed
        · exact hold
      rw [openConnections_opened hopens] at hopen
      rcases List.mem_cons.mp hopen with heq | hbefore
      · cases heq
        obtain ⟨first, hfirst, hopened⟩ := h.2.opened_of_closed hold hclosed
        exact h.1.fresh hopens first hfirst _ hopened
      · exact ih h.2 hbefore entry hold hclosed
    · rw [openConnections_closed hcloses] at hopen
      obtain ⟨hne, hbefore⟩ := (h.2.nodup_open.mem_erase_iff).mp hopen
      rcases List.mem_cons.mp hmem with rfl | hold
      · rw [hcloses] at hclosed
        exact hne (Option.some.inj hclosed).symm
      · exact ih h.2 hbefore entry hold hclosed
    · rw [openConnections_cons_of_none hopens hnone] at hopen
      rcases List.mem_cons.mp hmem with rfl | hold
      · simp [hnone] at hclosed
      · exact ih h.2 hopen entry hold hclosed

/-- A connection stays open unless the turn closes it. -/
theorem open_cons (h : (peer, connection) ∈ openConnections transcript)
    (hclosed : entry.turn.closed ≠ some (peer, connection)) :
    (peer, connection) ∈ openConnections (entry :: transcript) := by
  rcases entry.turn.opens_or_closes with ⟨_, _, hopens, _⟩ | ⟨_, _, hcloses⟩ | ⟨hopens, hnone⟩
  · rw [openConnections_opened hopens]
    exact List.mem_cons_of_mem _ h
  · rw [openConnections_closed hcloses]
    exact (List.mem_erase_of_ne (fun heq => hclosed (by rw [hcloses, heq]))).mpr h
  · rw [openConnections_cons_of_none hopens hnone]
    exact h

/-- The connection that a turn establishes is open. -/
theorem open_established (h : entry.turn.opened = some (peer, connection)) :
    (peer, connection) ∈ openConnections (entry :: transcript) := by
  rw [openConnections_opened h]
  exact List.mem_cons_self

/-- A closed connection no longer counts for its peer. -/
theorem openCount_closed (hopen : (peer, connection) ∈ openConnections transcript)
    (hclosed : entry.turn.closed = some (peer, connection)) (other : TransportPeerId) :
    openCount other (entry :: transcript) =
      openCount other transcript - if other = peer then 1 else 0 := by
  unfold openCount
  rw [openConnections_closed hclosed]
  have hperm := (List.perm_cons_erase hopen).countP_eq fun link => decide (link.1 = other)
  rw [List.countP_cons] at hperm
  by_cases h : other = peer
  · subst h
    simp only [decide_true, if_true] at hperm ⊢
    omega
  · simp only [Ne.symm h, h, decide_false, if_false, Bool.false_eq_true] at hperm ⊢
    omega

/-- The connections of a peer are counted when they are established. -/
theorem openCount_established (hopened : entry.turn.opened = some (peer, connection))
    (other : TransportPeerId) :
    openCount other (entry :: transcript) =
      openCount other transcript + if other = peer then 1 else 0 := by
  unfold openCount
  rw [openConnections_opened hopened]
  by_cases h : other = peer
  · simp [h]
  · simp [h, Ne.symm h]

/-- The connections of a peer stay within the limit. -/
theorem Emitted.openCount_le (h : Emitted transcript) (peer : TransportPeerId) :
    openCount peer transcript ≤ maxEstablishedConnectionsPerPeer := by
  induction transcript with
  | nil => simp [openCount, openConnections]
  | cons entry earlier ih =>
    have hold := ih h.2
    rcases entry.turn.opens_or_closes with ⟨other, _, hopens, _⟩ | ⟨_, _, hcloses⟩ | ⟨hopens, hnone⟩
    · rw [openCount_established hopens]
      obtain ⟨_, _, _, _, hevent⟩ := Turn.opened_eq_some.mp hopens
      obtain ⟨_, hlimit, _⟩ := h.1.established _ _ _ _ _ _ hevent
      by_cases hpeer : peer = other
      · subst hpeer
        simp only [if_true]
        omega
      · simp only [hpeer, if_false]
        omega
    · obtain ⟨_, _, hevent⟩ := Turn.closed_eq_some.mp hcloses
      rw [openCount_closed (h.1.closed _ _ _ _ hevent).1 hcloses]
      omega
    · unfold openCount
      rw [openConnections_cons_of_none hopens hnone]
      exact hold

end Connections

section Justification

variable {C : Crypto} {receiver : TransportPeerId} {transcript earlier : Transcript ρ}
  {entry : TurnEntry ρ} {peer : TransportPeerId} {application : PeerId} {connection : ConnectionId}
  {challenge : Nat}

/-- The turn accepted a proof that answers the challenge. -/
def TurnEntry.AcceptsProof (entry : TurnEntry ρ) (challenge : Nat) : Prop :=
  ∃ peer connection proof channelOpen application,
    entry.turn.event = .request peer connection (.helloProof proof) channelOpen ∧
      entry.reaction.delivered = some (.authenticated peer application) ∧
      proof.challenge = challenge

/-- The challenge was issued for the connection once it was established. -/
def IssuedAfter (transcript : Transcript ρ) (peer : TransportPeerId) (connection : ConnectionId)
    (challenge : Nat) : Prop :=
  ∃ entry earlier, entry :: earlier <:+ transcript ∧
    entry.reaction.challenged = some ⟨peer, connection, challenge⟩ ∧
    ∃ first ∈ entry :: earlier, first.turn.opened = some (peer, connection)

/-- A proof of the application peer arrived on the connection and was accepted against a
challenge that had been issued for the connection and that no other accepted proof answers. -/
def ProvenOn (C : Crypto) (receiver : TransportPeerId) (transcript : Transcript ρ)
    (peer : TransportPeerId) (application : PeerId) (connection : ConnectionId) : Prop :=
  ∃ challenge entry earlier proof channelOpen, entry :: earlier <:+ transcript ∧
    entry.turn.event = .request peer connection (.helloProof proof) channelOpen ∧
    entry.reaction.delivered = some (.authenticated peer application) ∧
    ProofOf C proof application challenge peer receiver ∧
    IssuedAfter earlier peer connection challenge ∧
    ∀ other before, other :: before <:+ transcript → other.AcceptsProof challenge →
      before = earlier

/-- An issued challenge stays issued. -/
theorem IssuedAfter.mono (h : IssuedAfter earlier peer connection challenge)
    (hsuffix : earlier <:+ transcript) : IssuedAfter transcript peer connection challenge := by
  obtain ⟨entry, before, hbefore, hissued⟩ := h
  exact ⟨entry, before, hbefore.trans hsuffix, hissued⟩

/-- A proof stays a proof as long as no other one answers its challenge. -/
theorem ProvenOn.cons (h : ProvenOn C receiver transcript peer application connection)
    (hnew : ∀ challenge, entry.AcceptsProof challenge →
      ∀ old ∈ transcript, ¬ old.AcceptsProof challenge) :
    ProvenOn C receiver (entry :: transcript) peer application connection := by
  obtain ⟨challenge, accepted, earlier, proof, channelOpen, hsuffix, hevent, hdelivered, hproof,
    hissued, hunique⟩ := h
  refine ⟨challenge, accepted, earlier, proof, channelOpen,
    hsuffix.trans (List.suffix_cons _ _), hevent, hdelivered, hproof, hissued, ?_⟩
  intro other before hother hanswers
  rcases List.suffix_cons_iff.mp hother with heq | hold
  · cases heq
    have haccepted : accepted.AcceptsProof challenge :=
      ⟨peer, connection, proof, channelOpen, application, hevent, hdelivered, hproof.challenge⟩
    exact (hnew challenge hanswers accepted (hsuffix.subset List.mem_cons_self) haccepted).elim
  · exact hunique other before hold hanswers

/-- What the tables of a node say about one peer. -/
structure View where
  authenticated : Option (PeerId × ConnectionId)
  pending : Option PendingChallenge
  active : Option ConnectionId

/-- The tables of a node at one peer. -/
def Session.view (session : Session) (peer : TransportPeerId) : View where
  authenticated := session.authenticated.lookup peer
  pending := session.pendingChallenges.lookup peer
  active := session.activeConnections.lookup peer

/-- The transcript justifies what the tables say about the peer. -/
structure View.Sound (C : Crypto) (receiver : TransportPeerId) (transcript : Transcript ρ)
    (peer : TransportPeerId) (view : View) : Prop where
  /-- An authenticated connection is in use, open and proven. -/
  authenticated : ∀ application connection, view.authenticated = some (application, connection) →
    view.active = some connection ∧ (peer, connection) ∈ openConnections transcript ∧
      ProvenOn C receiver transcript peer application connection
  /-- A challenged connection is in use and open; the challenge was issued and is unanswered. -/
  pending : ∀ pending, view.pending = some pending →
    view.active = some pending.connection ∧
      (peer, pending.connection) ∈ openConnections transcript ∧
      IssuedAfter transcript peer pending.connection pending.challenge ∧
      ∀ entry ∈ transcript, ¬ entry.AcceptsProof pending.challenge

/-- Nothing is said about a peer that is neither authenticated nor challenged. -/
theorem View.sound_of_none {view : View} (hauthenticated : view.authenticated = none)
    (hpending : view.pending = none) : view.Sound C receiver transcript peer where
  authenticated := by simp [hauthenticated]
  pending := by simp [hpending]

/-- What one turn may do to the tables of a peer. -/
inductive View.Change (C : Crypto) (receiver : TransportPeerId) (earlier : Transcript ρ)
    (entry : TurnEntry ρ) (peer : TransportPeerId) (before : View) : View → Prop
  /-- Nothing changes, and the connection in use stays open. -/
  | keep (hopen : ∀ connection, before.active = some connection →
      entry.turn.closed ≠ some (peer, connection)) :
      View.Change C receiver earlier entry peer before before
  /-- Neither authenticated nor challenged any more. -/
  | drop (active : Option ConnectionId) :
      View.Change C receiver earlier entry peer before ⟨none, none, active⟩
  /-- The challenge is used up without success. -/
  | take (hopen : entry.turn.closed = none) :
      View.Change C receiver earlier entry peer before
        ⟨before.authenticated, none, before.active⟩
  /-- An open connection in use is challenged. -/
  | challenge (connection : ConnectionId) (challenge issuedAt : Nat)
      (hissued : entry.reaction.challenged = some ⟨peer, connection, challenge⟩)
      (hopen : (peer, connection) ∈ openConnections (entry :: earlier)) :
      View.Change C receiver earlier entry peer before
        ⟨none, some ⟨connection, challenge, issuedAt⟩, some connection⟩
  /-- The challenge is answered. -/
  | prove (pending : PendingChallenge) (proof : PeerHelloProofV1) (channelOpen : Bool)
      (hpending : before.pending = some pending)
      (hevent : entry.turn.event = .request peer pending.connection (.helloProof proof) channelOpen)
      (hdelivered : entry.reaction.delivered = some (.authenticated peer proof.hello.peerId))
      (hverified : verifyPeerHelloProof C proof pending.challenge peer receiver = .ok ()) :
      View.Change C receiver earlier entry peer before
        ⟨some (proof.hello.peerId, pending.connection), none, before.active⟩

/-- What one turn may do to the tables of a node. -/
structure TableMoves (C : Crypto) (receiver : TransportPeerId) (earlier : Transcript ρ)
    (entry : TurnEntry ρ) (before after : Session) : Prop where
  /-- The tables of each peer change in one of the ways above. -/
  change : ∀ peer, View.Change C receiver earlier entry peer (before.view peer) (after.view peer)
  /-- An accepted proof uses up the challenge that it answers. -/
  answers : ∀ challenge, entry.AcceptsProof challenge → ∃ peer pending,
    (before.view peer).pending = some pending ∧ pending.challenge = challenge ∧
      (after.view peer).pending = none
  /-- An issued challenge is the one that was drawn. -/
  issues : ∀ challenged, entry.reaction.challenged = some challenged →
    challenged.challenge = entry.turn.challenge

/-- The transcript justifies the tables of a node. -/
structure TablesJustified (C : Crypto) (receiver : TransportPeerId) (transcript : Transcript ρ)
    (session : Session) : Prop where
  /-- The tables of each peer are justified. -/
  view : ∀ peer, (session.view peer).Sound C receiver transcript peer
  /-- An accepted proof answers a challenge that was drawn. -/
  answers : ∀ entry ∈ transcript, ∀ challenge, entry.AcceptsProof challenge →
    ∃ issuing ∈ transcript, issuing.turn.challenge = challenge
  /-- An issued challenge is the one that was drawn. -/
  issues : ∀ entry ∈ transcript, ∀ challenged, entry.reaction.challenged = some challenged →
    challenged.challenge = entry.turn.challenge
  /-- No two accepted proofs answer the same challenge. -/
  once : ∀ challenge first before second between, first :: before <:+ transcript →
    second :: between <:+ transcript → first.AcceptsProof challenge →
    second.AcceptsProof challenge → before = between

section Step

variable {before after : Session}

/-- The turns of a transcript draw different challenges. -/
theorem Emitted.eq_of_challenge (h : Emitted transcript) {first second : TurnEntry ρ}
    (hfirst : first ∈ transcript) (hsecond : second ∈ transcript)
    (heq : first.turn.challenge = second.turn.challenge) : first = second := by
  induction transcript with
  | nil => cases hfirst
  | cons newest earlier ih =>
    rcases List.mem_cons.mp hfirst with rfl | hfirst'
    · rcases List.mem_cons.mp hsecond with rfl | hsecond'
      · rfl
      · exact (h.1.challenge second hsecond' heq.symm).elim
    · rcases List.mem_cons.mp hsecond with rfl | hsecond'
      · exact (h.1.challenge first hfirst' heq).elim
      · exact ih h.2 hfirst' hsecond'

/-- A pending challenge was drawn in a turn that issued it. -/
theorem TablesJustified.drawn (h : TablesJustified C receiver transcript before)
    {pending : PendingChallenge} (hpending : (before.view peer).pending = some pending) :
    ∃ entry ∈ transcript,
      entry.reaction.challenged = some ⟨peer, pending.connection, pending.challenge⟩ ∧
        entry.turn.challenge = pending.challenge := by
  obtain ⟨_, _, ⟨entry, earlier, hsuffix, hissued, _⟩, _⟩ := (h.view peer).pending _ hpending
  have hmem : entry ∈ transcript := hsuffix.subset List.mem_cons_self
  exact ⟨entry, hmem, hissued, (h.issues entry hmem _ hissued).symm⟩

/-- Two peers never wait for the same challenge. -/
theorem TablesJustified.pending_inj (h : TablesJustified C receiver transcript before)
    (hemitted : Emitted transcript) {other : TransportPeerId} {first second : PendingChallenge}
    (hfirst : (before.view peer).pending = some first)
    (hsecond : (before.view other).pending = some second)
    (heq : first.challenge = second.challenge) : peer = other := by
  obtain ⟨issuing, hmem, hissued, hdrawn⟩ := h.drawn hfirst
  obtain ⟨issuing', hmem', hissued', hdrawn'⟩ := h.drawn hsecond
  have hsame := hemitted.eq_of_challenge hmem hmem' (by rw [hdrawn, hdrawn', heq])
  rw [hsame, hissued', Option.some.injEq, Challenged.mk.injEq] at hissued
  exact hissued.1.symm

section

variable (hmoves : TableMoves C receiver transcript entry before after)

include hmoves

/-- A proof accepted in a turn answers a challenge that no earlier proof answers. -/
theorem TableMoves.answers_new (h : TablesJustified C receiver transcript before) :
    ∀ challenge, entry.AcceptsProof challenge → ∀ old ∈ transcript, ¬ old.AcceptsProof challenge := by
  intro challenge haccepts
  obtain ⟨other, pending, hpending, rfl, _⟩ := hmoves.answers challenge haccepts
  exact ((h.view other).pending _ hpending).2.2.2

/-- A justified challenge stays justified in a turn that leaves it pending. -/
theorem TableMoves.pending_kept
    (h : TablesJustified C receiver transcript before) (hemitted : Emitted transcript)
    {pending : PendingChallenge} (hbefore : (before.view peer).pending = some pending)
    (hafter : (after.view peer).pending = some pending) :
    ∀ old ∈ entry :: transcript, ¬ old.AcceptsProof pending.challenge := by
  intro old hmem haccepts
  rcases List.mem_cons.mp hmem with rfl | hold
  · obtain ⟨other, answered, hanswered, heq, hgone⟩ := hmoves.answers _ haccepts
    have hsame : other = peer := h.pending_inj hemitted hanswered hbefore heq
    rw [hsame, hafter] at hgone
    cases hgone
  · exact ((h.view peer).pending _ hbefore).2.2.2 old hold haccepts

/-- A challenge that is issued in a turn was answered by no proof. -/
theorem TableMoves.challenge_unanswered
    (h : TablesJustified C receiver transcript before) (hemits : Emits transcript entry.turn)
    (hissued : entry.reaction.challenged = some ⟨peer, connection, challenge⟩) :
    ∀ old ∈ entry :: transcript, ¬ old.AcceptsProof challenge := by
  have hdrawn : challenge = entry.turn.challenge := hmoves.issues _ hissued
  intro old hmem haccepts
  rcases List.mem_cons.mp hmem with rfl | hold
  · obtain ⟨other, answered, hanswered, heq, _⟩ := hmoves.answers _ haccepts
    obtain ⟨issuing, hissuing, _, hother⟩ := h.drawn hanswered
    exact hemits.challenge issuing hissuing (by rw [hother, heq, hdrawn])
  · obtain ⟨issuing, hissuing, hother⟩ := h.answers old hold _ haccepts
    exact hemits.challenge issuing hissuing (by rw [hother, hdrawn])

/-- A turn keeps the tables of each peer justified. -/
theorem TableMoves.view_sound
    (h : TablesJustified C receiver transcript before) (hemits : Emits transcript entry.turn)
    (hemitted : Emitted transcript) (peer : TransportPeerId) :
    (after.view peer).Sound C receiver (entry :: transcript) peer := by
  have hsound := h.view peer
  have hnew := hmoves.answers_new h
  have hchange := hmoves.change peer
  generalize hafter : after.view peer = view at hchange ⊢
  cases hchange with
  | keep hopen =>
    constructor
    · intro application connection hauthenticated
      obtain ⟨hactive, hlink, hproven⟩ := hsound.authenticated _ _ hauthenticated
      exact ⟨hactive, open_cons hlink (hopen _ hactive), hproven.cons hnew⟩
    · intro pending hpending
      obtain ⟨hactive, hlink, hissued, _⟩ := hsound.pending _ hpending
      refine ⟨hactive, open_cons hlink (hopen _ hactive), hissued.mono (List.suffix_cons _ _), ?_⟩
      exact hmoves.pending_kept h hemitted hpending (by rw [hafter]; exact hpending)
  | drop active => exact View.sound_of_none rfl rfl
  | take hopen =>
    constructor
    · intro application connection hauthenticated
      obtain ⟨hactive, hlink, hproven⟩ := hsound.authenticated _ _ hauthenticated
      exact ⟨hactive, open_cons hlink (by simp [hopen]), hproven.cons hnew⟩
    · intro pending hpending
      cases hpending
  | challenge connection challenge issuedAt hissued hopen =>
    constructor
    · intro application other hauthenticated
      cases hauthenticated
    · intro pending hpending
      cases hpending
      refine ⟨rfl, hopen, ⟨entry, transcript, List.suffix_refl _, hissued, ?_⟩, ?_⟩
      · exact opened_of_open hopen
      · exact hmoves.challenge_unanswered h hemits hissued
  | prove pending proof channelOpen hpending hevent hdelivered hverified =>
    obtain ⟨hactive, hlink, hissued, hunanswered⟩ := hsound.pending _ hpending
    have hproof := proofOf_of_verify hverified
    constructor
    · intro application connection hauthenticated
      cases hauthenticated
      have hquiet : entry.turn.closed ≠ some (peer, pending.connection) := by
        simp [Turn.closed, hevent]
      refine ⟨hactive, open_cons hlink hquiet, pending.challenge, entry, transcript, proof,
        channelOpen, List.suffix_refl _, hevent, hdelivered, hproof, hissued, ?_⟩
      intro other before hsuffix haccepts
      rcases List.suffix_cons_iff.mp hsuffix with heq | hold
      · cases heq
        rfl
      · exact (hunanswered other (hold.subset List.mem_cons_self) haccepts).elim
    · intro other hother
      cases hother

end

/-- A turn keeps the tables of a node justified. -/
theorem TablesJustified.turn (h : TablesJustified C receiver transcript before)
    (hmoves : TableMoves C receiver transcript entry before after)
    (hemits : Emits transcript entry.turn) (hemitted : Emitted transcript) :
    TablesJustified C receiver (entry :: transcript) after where
  view := hmoves.view_sound h hemits hemitted
  answers := by
    intro old hmem challenge haccepts
    rcases List.mem_cons.mp hmem with rfl | hold
    · obtain ⟨other, pending, hpending, rfl, _⟩ := hmoves.answers _ haccepts
      obtain ⟨issuing, hissuing, _, hdrawn⟩ := h.drawn hpending
      exact ⟨issuing, List.mem_cons_of_mem _ hissuing, hdrawn⟩
    · obtain ⟨issuing, hissuing, hdrawn⟩ := h.answers old hold _ haccepts
      exact ⟨issuing, List.mem_cons_of_mem _ hissuing, hdrawn⟩
  issues := by
    intro old hmem challenged hissued
    rcases List.mem_cons.mp hmem with rfl | hold
    · exact hmoves.issues _ hissued
    · exact h.issues old hold _ hissued
  once := by
    intro challenge first before second between hfirst hsecond haccepts haccepts'
    have hnew := hmoves.answers_new h challenge
    rcases List.suffix_cons_iff.mp hfirst with heq | hold
    · cases heq
      rcases List.suffix_cons_iff.mp hsecond with heq' | hold'
      · cases heq'
        rfl
      · exact (hnew haccepts second (hold'.subset List.mem_cons_self) haccepts').elim
    · rcases List.suffix_cons_iff.mp hsecond with heq' | hold'
      · cases heq'
        exact (hnew haccepts' first (hold.subset List.mem_cons_self) haccepts).elim
      · exact h.once challenge first before second between hold hold' haccepts haccepts'

end Step

end Justification

end SwarmCraft
