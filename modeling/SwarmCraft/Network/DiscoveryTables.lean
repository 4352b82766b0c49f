import SwarmCraft.Network.Tables

/-!
# The tables of the two nodes

`DiscoveryNode` keeps the set of established connections of each peer. The connection in use is
always in the set, so a challenge is only issued for an open connection. In `SwarmNode` a new
connection takes over at once, and a closed connection leads to a new challenge for the one in use.
That one may be closed already; the limit on the connections of one peer rules out that another
connection is closed after it while a third one is open.
-/

namespace SwarmCraft

open Session

variable {ρ : Type} {C : Crypto} {receiver : TransportPeerId} {transcript : Transcript ρ}
  {session before : Session} {peer other : TransportPeerId} {connection : ConnectionId}
variable {isDialer : Bool} {numEstablished : Nat} {order : SetOrder}

namespace DiscoveryNode

variable {identity : NodeIdentity ρ} {turn : Turn ρ} {node : DiscoveryNode}

/-- The set of a peer after a connection was recorded. -/
theorem established_record :
    (node.record peer connection isDialer).established other =
      if other = peer then (node.established peer).insert connection
      else node.established other := by
  by_cases h : other = peer <;> simp [record, established, h]

/-- The set of a peer after a connection was forgotten. -/
theorem established_forget :
    (node.forget peer connection).established other =
      if other = peer then (node.established peer).erase connection
      else node.established other := by
  by_cases h : other = peer <;> simp [forget, established, h]

/-- The set of a peer after a peer was dismissed. -/
theorem established_dismiss :
    (node.dismiss peer).established other =
      if other = peer then [] else node.established other := by
  by_cases h : other = peer <;> simp [dismiss, established, h]

/-- Either nothing happens, or the connection is challenged. -/
theorem ensureAuthChallenge_eq (turn : Turn ρ) (node : DiscoveryNode) (peer : TransportPeerId)
    (connection : ConnectionId) :
    ensureAuthChallenge turn node peer connection = (node, {}) ∨
      ensureAuthChallenge turn node peer connection = ({ node with
            session := node.session.issueAuthChallenge peer connection turn.challenge turn.now },
          { challenged := some ⟨peer, connection, turn.challenge⟩ }) := by
  unfold ensureAuthChallenge
  split
  · exact .inl rfl
  · exact .inr rfl

/-- A challenge for the connection in use keeps a change of the tables in the listed ways. -/
theorem ensureAuthChallenge_moves
    (hchange : ∀ reaction other, View.Change C receiver transcript ⟨turn, reaction⟩ other
      (before.view other) (node.session.view other))
    (hactive : (node.session.view peer).active = some connection)
    (hopen : ∀ reaction, (peer, connection) ∈ openConnections (⟨turn, reaction⟩ :: transcript)) :
    TableMoves C receiver transcript ⟨turn, (ensureAuthChallenge turn node peer connection).2⟩
      before (ensureAuthChallenge turn node peer connection).1.session := by
  rcases ensureAuthChallenge_eq turn node peer connection with heq | heq
  · rw [heq]
    exact .of_change (hchange _) (by simp) (by simp)
  · rw [heq]
    apply TableMoves.of_change
    · intro other
      dsimp only
      rw [view_issue]
      split
      next h =>
        subst h
        rw [hactive]
        exact .challenge _ _ _ rfl (hopen _)
      next => exact hchange _ other
    · simp
    · simp

/-- The sets hold open connections, and connections in use are in them. -/
structure Sets (transcript : Transcript ρ) (node : DiscoveryNode) : Prop where
  nodup : ∀ peer, (node.established peer).Nodup
  live : ∀ peer, ∀ connection ∈ node.established peer,
    (peer, connection) ∈ openConnections transcript
  active : ∀ peer connection, (node.session.view peer).active = some connection →
    connection ∈ node.established peer

/-- A challenge does not touch the sets. -/
theorem Sets.ensureAuthChallenge (h : Sets transcript node) :
    Sets transcript (ensureAuthChallenge turn node peer connection).1 := by
  rcases ensureAuthChallenge_eq turn node peer connection with heq | heq
  · rw [heq]
    exact h
  · rw [heq]
    exact ⟨h.nodup, h.live, h.active⟩

/-- A connection that is in its set may be used. -/
theorem Sets.use (h : Sets transcript node) (hmem : connection ∈ node.established peer) :
    Sets transcript { node with session := node.session.use peer connection } where
  nodup := h.nodup
  live := h.live
  active := by
    intro other used hused
    dsimp only at hused
    rw [view_use] at hused
    split at hused
    next heq =>
      cases hused
      rw [heq]
      exact hmem
    next => exact h.active other used hused

/-- A connection that the turn establishes is recorded. -/
theorem Sets.record (h : Sets transcript node) {reaction : Reaction ρ}
    (hopened : turn.opened = some (peer, connection)) (hclosed : turn.closed = none) :
    Sets (⟨turn, reaction⟩ :: transcript) (node.record peer connection isDialer) where
  nodup := by
    intro other
    rw [established_record]
    split
    · exact (h.nodup peer).insert
    · exact h.nodup other
  live := by
    intro other used hused
    rw [established_record] at hused
    split at hused
    next heq =>
      rw [heq]
      rcases List.mem_insert_iff.mp hused with hnew | hold
      · rw [hnew]
        exact open_established hopened
      · exact open_cons (h.live peer used hold) (by simp [hclosed])
    next => exact open_cons (h.live other used hused) (by simp [hclosed])
  active := by
    intro other used hused
    have hold := h.active other used hused
    rw [established_record]
    split
    next heq =>
      rw [heq] at hold
      exact List.mem_insert_of_mem hold
    next => exact hold

/-- A peer without a connection in use is neither authenticated nor challenged. -/
theorem view_of_inactive (hsound : (session.view peer).Sound C receiver transcript peer)
    (h : (session.view peer).active = none) : session.view peer = ⟨none, none, none⟩ := by
  have hauthenticated : (session.view peer).authenticated = none := by
    refine Option.eq_none_iff_forall_ne_some.mpr fun entry hentry => ?_
    simpa [h] using (hsound.authenticated entry.1 entry.2 hentry).1
  have hpending : (session.view peer).pending = none := by
    refine Option.eq_none_iff_forall_ne_some.mpr fun entry hentry => ?_
    simpa [h] using (hsound.pending entry hentry).1
  rw [← hauthenticated, ← hpending, ← h]

/-- The connection in use before a newcomer that does not replace it: there is none. -/
theorem inactive_of_filter (hsets : Sets transcript node)
    (hfresh : ∀ entry ∈ transcript, ∀ other, entry.turn.opened ≠ some (other, connection))
    (h : (node.session.activeConnections.lookup peer).filter (fun active =>
      decide (active ≠ connection ∧
        active ∈ (node.record peer connection isDialer).established peer)) = none) :
    (node.session.view peer).active = none := by
  cases hactive : (node.session.view peer).active with
  | none => rfl
  | some active =>
    have hmem := hsets.active peer active hactive
    have hne : active ≠ connection := by
      rintro rfl
      obtain ⟨entry, hentry, hopened⟩ := opened_of_open (hsets.live peer active hmem)
      exact hfresh entry hentry peer hopened
    have hlookup : node.session.activeConnections.lookup peer = some active := hactive
    rw [hlookup, established_record, if_pos rfl] at h
    simp [Option.filter, hne, List.mem_insert_of_mem hmem] at h

/-- A new connection keeps the sets and changes the tables only in the listed ways. -/
theorem connectionEstablished_tracks (identity : NodeIdentity ρ) {isRelayed closeable : Bool}
    (hjustified : TablesJustified C receiver transcript node.session) (hsets : Sets transcript node)
    (hfresh : ∀ entry ∈ transcript, ∀ other, entry.turn.opened ≠ some (other, connection))
    (hevent : turn.event =
      .established peer connection isRelayed isDialer numEstablished closeable) :
    TableMoves C receiver transcript
        ⟨turn, (connectionEstablished identity turn node peer connection isDialer).2⟩ node.session
        (connectionEstablished identity turn node peer connection isDialer).1.session ∧
      ∀ reaction, Sets (⟨turn, reaction⟩ :: transcript)
        (connectionEstablished identity turn node peer connection isDialer).1 := by
  have hclosed : turn.closed = none := by simp [Turn.closed, hevent]
  have hopened : turn.opened = some (peer, connection) := by simp [Turn.opened, hevent]
  have hkeep (reaction : Reaction ρ) (other : TransportPeerId) : View.Change C receiver transcript
      ⟨turn, reaction⟩ other (node.session.view other) (node.session.view other) :=
    .keep (by simp [hclosed])
  have hrecord (reaction : Reaction ρ) :
      Sets (⟨turn, reaction⟩ :: transcript) (node.record peer connection isDialer) :=
    hsets.record hopened hclosed
  have hmem : connection ∈ (node.record peer connection isDialer).established peer := by
    rw [established_record, if_pos rfl]
    exact List.mem_insert_self
  unfold connectionEstablished
  dsimp only
  split
  next =>
    split
    next active hactive =>
      obtain ⟨hlookup, hlive⟩ := Option.filter_eq_some_iff.mp hactive
      split
      next =>
        constructor
        · apply TableMoves.of_change
          · intro other
            by_cases h : other = peer
            · subst h
              have hview : ((node.record other connection isDialer).switch other active
                  connection).session.view other = ⟨none, none, some connection⟩ := by
                have hsound : ((node.record other connection isDialer).session.view other).Sound C
                    receiver transcript other := hjustified.view other
                have hsame : ∀ used, ((node.record other connection isDialer).session.view
                    other).active = some used → used = active := by
                  intro used hused
                  exact Option.some.inj (hused.symm.trans hlookup)
                simp only [switch, view_use, if_true, hsound.view_revoke hsame]
              dsimp only
              rw [hview]
              exact .drop _
            · have hview : ((node.record peer connection isDialer).switch peer active
                  connection).session.view other = node.session.view other := by
                simp only [switch, view_use, h, if_false, view_revoke_of_ne h]
                rfl
              dsimp only
              rw [hview]
              exact hkeep _ other
          · simp
          · simp
        · intro reaction
          have hswitched := (hrecord reaction).use hmem
          exact ⟨hswitched.nodup, hswitched.live, hswitched.active⟩
      next => exact ⟨.of_same (fun _ => rfl) hclosed (by simp) rfl, hrecord⟩
    next hnone =>
      have hinactive : (node.session.view peer).active = none :=
        inactive_of_filter hsets hfresh hnone
      have hview := view_of_inactive (hjustified.view peer) hinactive
      have hadopted (reaction : Reaction ρ) (other : TransportPeerId) :
          View.Change C receiver transcript ⟨turn, reaction⟩ other (node.session.view other)
            (((node.record peer connection isDialer).session.use peer connection).view other) := by
        rw [view_use]
        split
        next h =>
          subst h
          rw [show (node.record other connection isDialer).session.view other =
            node.session.view other from rfl, hview]
          exact .drop _
        next => exact hkeep reaction other
      unfold adopt
      dsimp only
      split
      · refine ⟨ensureAuthChallenge_moves hadopted ?_ fun _ => open_established hopened,
          fun reaction => ((hrecord reaction).use hmem).ensureAuthChallenge⟩
        rw [view_use, if_pos rfl]
      · exact ⟨.of_change (hadopted _) (by simp) (by simp), fun reaction => (hrecord reaction).use hmem⟩
  next => exact ⟨.of_same (fun _ => rfl) hclosed (by simp) rfl, hrecord⟩

/-- What is left of the sets when a connection was closed; only the connection in use may be
missing. -/
structure Left (transcript : Transcript ρ) (peer : TransportPeerId) (node : DiscoveryNode) :
    Prop where
  nodup : ∀ other, (node.established other).Nodup
  live : ∀ other, ∀ connection ∈ node.established other,
    (other, connection) ∈ openConnections transcript
  active : ∀ other, other ≠ peer → ∀ connection, (node.session.view other).active = some connection →
    connection ∈ node.established other

/-- A closed connection is forgotten. -/
theorem Sets.forget (h : Sets transcript node) {reaction : Reaction ρ}
    (hclosed : turn.closed = some (peer, connection)) :
    Left (⟨turn, reaction⟩ :: transcript) peer (node.forget peer connection) where
  nodup := by
    intro other
    rw [established_forget]
    split
    · exact (h.nodup peer).erase _
    · exact h.nodup other
  live := by
    intro other used hused
    rw [established_forget] at hused
    split at hused
    next heq =>
      obtain ⟨hne, hold⟩ := (h.nodup peer).mem_erase_iff.mp hused
      rw [heq]
      exact open_cons (h.live peer used hold) (by simp [hclosed, Ne.symm hne])
    next hne => exact open_cons (h.live other used hused) (by simp [hclosed, Ne.symm hne])
  active := by
    intro other hne used hused
    rw [established_forget, if_neg hne]
    apply h.active other used
    have hview : (node.forget peer connection).session.view other = node.session.view other :=
      view_revoke_of_ne hne
    rwa [hview] at hused

/-- A surviving connection is in its set. -/
theorem survivor_mem {survivor : ConnectionId}
    (h : node.survivor identity peer order = some survivor) : survivor ∈ node.established peer := by
  have hperm := order.perm (node.established peer)
  unfold DiscoveryNode.survivor at h
  rcases Option.or_eq_some_iff.mp h with hfound | ⟨_, hhead⟩
  · exact hperm.subset (List.mem_of_find?_eq_some hfound)
  · exact hperm.subset (List.mem_of_mem_head? hhead)

/-- A connection survives where the set is not empty. -/
theorem survivor_isSome (h : node.established peer ≠ []) :
    ∃ survivor, node.survivor identity peer order = some survivor := by
  have hne : order.arrange (node.established peer) ≠ [] := by
    intro hnil
    have hperm := order.perm (node.established peer)
    rw [hnil] at hperm
    exact h hperm.nil_eq.symm
  obtain ⟨first, rest, hcons⟩ := List.exists_cons_of_ne_nil hne
  unfold DiscoveryNode.survivor
  dsimp only
  cases hfound : (order.arrange (node.established peer)).find? _ with
  | some candidate => exact ⟨candidate, rfl⟩
  | none => exact ⟨first, by simp [hcons]⟩

/-- After a connection was closed, a live one is in use and the tables changed in the listed
ways. -/
theorem settle_spec (identity : NodeIdentity ρ) (order : SetOrder)
    (hjustified : TablesJustified C receiver transcript node.session)
    (hsets : Sets transcript node) (hclosed : turn.closed = some (peer, connection))
    (hleft : (node.forget peer connection).established peer ≠ []) :
    (∀ reaction other, View.Change C receiver transcript ⟨turn, reaction⟩ other
        (node.session.view other)
        (((node.forget peer connection).settle identity peer order).session.view other)) ∧
      (∀ other, ((node.forget peer connection).settle identity peer order).established other =
        (node.forget peer connection).established other) ∧
      (∃ active ∈ (node.forget peer connection).established peer,
        (((node.forget peer connection).settle identity peer order).session.view peer).active =
          some active) ∧
      ∀ other, other ≠ peer →
        ((node.forget peer connection).settle identity peer order).session.view other =
          node.session.view other := by
  have hother {other : TransportPeerId} (h : other ≠ peer) :
      (node.forget peer connection).session.view other = node.session.view other :=
    view_revoke_of_ne h
  have hkeep {other : TransportPeerId} (h : other ≠ peer) (reaction : Reaction ρ) :
      View.Change C receiver transcript ⟨turn, reaction⟩ other (node.session.view other)
        (node.session.view other) :=
    .keep (by simp [hclosed, Ne.symm h])
  have hsound : ((node.session.count peer
      ((node.established peer).erase connection).length).view peer).Sound C receiver transcript
        peer := hjustified.view peer
  have hactive : ((node.forget peer connection).session.view peer).active =
      (node.session.view peer).active := rfl
  unfold settle
  split
  next hlive =>
    obtain ⟨active, hlookup, hmem⟩ := Option.any_eq_true _ _ |>.mp hlive
    have hmem : active ∈ (node.forget peer connection).established peer := by simpa using hmem
    have hne : active ≠ connection := by
      rw [established_forget, if_pos rfl] at hmem
      exact ((hsets.nodup peer).mem_erase_iff.mp hmem).1
    have hused : (node.session.view peer).active = some active := hlookup
    have hview : (node.forget peer connection).session.view peer = node.session.view peer :=
      hsound.view_revoke_unused (by
        intro heq
        exact hne (Option.some.inj (hused.symm.trans heq)))
    refine ⟨?_, fun _ => rfl, ⟨active, hmem, hlookup⟩, fun other h => hother h⟩
    intro reaction other
    by_cases h : other = peer
    · subst h
      rw [hview]
      refine .keep fun used hthis => ?_
      have hsame : used = active := Option.some.inj (hthis.symm.trans hused)
      simp [hclosed, hsame, Ne.symm hne]
    · rw [hother h]
      exact hkeep h reaction
  next hdead =>
    -- only the closed connection can have been in use
    have hsame : ∀ active, (node.session.view peer).active = some active → active = connection := by
      intro active hthis
      by_contra hne
      have hmem : active ∈ (node.forget peer connection).established peer := by
        rw [established_forget, if_pos rfl]
        exact (hsets.nodup peer).mem_erase_iff.mpr ⟨hne, hsets.active peer active hthis⟩
      have hlookup : AList.lookup peer (node.forget peer connection).session.activeConnections =
          some active := hthis
      simp [hlookup, hmem] at hdead
    have hview : (node.forget peer connection).session.view peer =
        ⟨none, none, (node.session.view peer).active⟩ := hsound.view_revoke hsame
    obtain ⟨survivor, hsurvivor⟩ : ∃ survivor,
        (node.forget peer connection).survivor identity peer order = some survivor :=
      survivor_isSome hleft
    rw [hsurvivor]
    refine ⟨?_, fun _ => rfl, ⟨survivor, survivor_mem hsurvivor, ?_⟩, ?_⟩
    · intro reaction other
      dsimp only
      rw [view_use]
      split
      next h =>
        subst h
        rw [hview]
        exact .drop _
      next h =>
        rw [hother h]
        exact hkeep h reaction
    · dsimp only
      rw [view_use, if_pos rfl]
    · intro other h
      dsimp only
      rw [view_use, if_neg h, hother h]

/-- A closed connection keeps the sets and changes the tables only in the listed ways. -/
theorem connectionClosed_tracks (identity : NodeIdentity ρ)
    (hjustified : TablesJustified C receiver transcript node.session) (hsets : Sets transcript node)
    (hevent : turn.event = .closed peer connection numEstablished order) :
    TableMoves C receiver transcript
        ⟨turn, (connectionClosed identity turn node peer connection order).2⟩ node.session
        (connectionClosed identity turn node peer connection order).1.session ∧
      ∀ reaction, Sets (⟨turn, reaction⟩ :: transcript)
        (connectionClosed identity turn node peer connection order).1 := by
  have hclosed : turn.closed = some (peer, connection) := by simp [Turn.closed, hevent]
  have hforget (reaction : Reaction ρ) :
      Left (⟨turn, reaction⟩ :: transcript) peer (node.forget peer connection) :=
    hsets.forget hclosed
  have hother {other : TransportPeerId} (h : other ≠ peer) :
      (node.forget peer connection).session.view other = node.session.view other :=
    view_revoke_of_ne h
  unfold connectionClosed
  dsimp only
  split
  next hnone =>
    constructor
    · apply TableMoves.of_change
      · intro other
        by_cases h : other = peer
        · subst h
          dsimp only [dismiss]
          rw [view_dismiss]
          exact .drop _
        · dsimp only [dismiss]
          rw [view_dismiss_of_ne h, hother h]
          exact .keep (by simp [hclosed, Ne.symm h])
      · simp
      · simp
    · intro reaction
      have hrest := hforget reaction
      constructor
      · intro other
        rw [established_dismiss]
        split
        · exact List.nodup_nil
        · exact hrest.nodup other
      · grind [established_dismiss, → Left.live]
      · intro other used hused
        dsimp only [dismiss] at hused
        by_cases h : other = peer
        · subst h
          simp [view_dismiss] at hused
        · rw [view_dismiss_of_ne h] at hused
          rw [established_dismiss, if_neg h]
          exact hrest.active other h used hused
  next hsome =>
    have hleft : (node.forget peer connection).established peer ≠ [] := by
      intro hnil
      rw [hnil] at hsome
      exact hsome rfl
    obtain ⟨hchange, hestablished, ⟨active, hmem, hactive⟩, hviews⟩ :=
      settle_spec identity order hjustified hsets hclosed hleft
    have hsettled (reaction : Reaction ρ) : Sets (⟨turn, reaction⟩ :: transcript)
        ((node.forget peer connection).settle identity peer order) := by
      have hrest := hforget reaction
      refine ⟨fun other => hestablished other ▸ hrest.nodup other,
        fun other => hestablished other ▸ hrest.live other, fun other used hused => ?_⟩
      rw [hestablished]
      by_cases h : other = peer
      · subst h
        exact Option.some.inj (hactive.symm.trans hused) ▸ hmem
      · rw [hviews other h, ← hother h] at hused
        exact hrest.active other h used hused
    split
    next =>
      have hlookup : AList.lookup peer ((node.forget peer connection).settle identity peer
          order).session.activeConnections = some active := hactive
      rw [hlookup]
      exact ⟨ensureAuthChallenge_moves hchange hactive
          fun reaction => (hforget reaction).live peer active hmem,
        fun reaction => (hsettled reaction).ensureAuthChallenge⟩
    next => exact ⟨.of_change (hchange _) (by simp) (by simp), hsettled⟩

/-- The tables are justified and the sets are right. -/
structure Tracked (C : Crypto) (receiver : TransportPeerId) (transcript : Transcript ρ)
    (node : DiscoveryNode) : Prop where
  justified : TablesJustified C receiver transcript node.session
  sets : Sets transcript node

/-- A turn keeps the tables justified and the sets right. -/
theorem Tracked.next (h : Tracked C identity.localPeerId transcript node)
    (hemits : Emits transcript turn) (hemitted : Emitted transcript) :
    Tracked C identity.localPeerId (⟨turn, (nextEvent C identity turn node).2⟩ :: transcript)
      (nextEvent C identity turn node).1 := by
  let swept : DiscoveryNode :=
    { node with session := node.session.expireStaleAuthChallenges turn.sweptAt }
  have hjustified : TablesJustified C identity.localPeerId transcript swept.session :=
    h.justified.sweep turn.sweptAt
  have hsets : Sets transcript swept :=
    ⟨h.sets.nodup, h.sets.live,
      fun peer connection hactive => h.sets.active peer connection (active_of_sweep hactive)⟩
  unfold nextEvent handle
  cases hevent : turn.event with
  | established peer connection isRelayed isDialer numEstablished closeable =>
    obtain ⟨hfresh, _⟩ := hemits.established _ _ _ _ _ _ hevent
    have htracks := connectionEstablished_tracks identity hjustified hsets hfresh hevent
    exact ⟨hjustified.turn htracks.1 hemits hemitted, htracks.2 _⟩
  | closed peer connection numEstablished order =>
    have htracks := connectionClosed_tracks identity hjustified hsets hevent
    exact ⟨hjustified.turn htracks.1 hemits hemitted, htracks.2 _⟩
  | request peer connection request channelOpen =>
    refine ⟨hjustified.turn (handleNodeRequest_moves turn.now hevent) hemits hemitted,
      hsets.nodup, ?_, ?_⟩
    · intro other used hused
      exact open_cons (hsets.live other used hused) (by simp [Turn.closed, hevent])
    · intro other used hused
      dsimp only at hused
      rw [active_handleNodeRequest] at hused
      exact hsets.active other used hused
  | other =>
    have hclosed : turn.closed = none := by simp [Turn.closed, hevent]
    refine ⟨hjustified.turn (.of_same (fun _ => rfl) hclosed (by simp) rfl) hemits hemitted,
      hsets.nodup, ?_, hsets.active⟩
    intro other used hused
    exact open_cons (hsets.live other used hused) (by simp [hclosed])

/-- Every run of a `DiscoveryNode` keeps its tables justified. -/
theorem run_tracked {identity : NodeIdentity ρ} {start : Nat} {node : DiscoveryNode}
    (h : (endpoint C identity start).Runs transcript node) :
    Tracked C identity.localPeerId transcript node := by
  refine h.invariant (P := Tracked C identity.localPeerId) ?_ ?_
  · refine ⟨.new start, ?_, ?_, ?_⟩
    · simp [endpoint, established]
    · simp [endpoint, established]
    · simp [Session.view, endpoint, Session.new]
  · intro earlier node turn hbefore hemits hemitted
    exact hbefore.next hemits hemitted

end DiscoveryNode

/-! ## The tables of `SwarmNode` -/

namespace SwarmNode

variable {config : SwarmConfig ρ} {turn : Turn ρ} {node : SwarmNode}

/-- The tables are justified, and a connection in use is open unless it was one of at most two. -/
structure Tracked (C : Crypto) (receiver : TransportPeerId) (transcript : Transcript ρ)
    (session : Session) : Prop where
  justified : TablesJustified C receiver transcript session
  active : ∀ peer connection, (session.view peer).active = some connection →
    (peer, connection) ∈ openConnections transcript ∨ openCount peer transcript ≤ 1

/-- The tables after a new connection took over. -/
theorem view_adopt : (adopt session peer connection numEstablished).view other =
    if other = peer then ⟨none, none, some connection⟩ else session.view other := by
  by_cases h : other = peer
  · subst h
    simp [adopt, Session.view]
  · simp [adopt, Session.view, h]

/-- A new connection changes the tables only in the listed ways. -/
theorem connectionEstablished_moves {isRelayed isDialer closeable : Bool} (hevent : turn.event =
      .established peer connection isRelayed isDialer numEstablished closeable) :
    TableMoves C receiver transcript
      ⟨turn, (connectionEstablished config turn node peer connection isRelayed numEstablished
        closeable).2⟩ node.session
      (connectionEstablished config turn node peer connection isRelayed numEstablished
        closeable).1.session := by
  have hclosed : turn.closed = none := by simp [Turn.closed, hevent]
  have hopened : turn.opened = some (peer, connection) := by simp [Turn.opened, hevent]
  unfold connectionEstablished
  dsimp only
  split
  · exact .of_same (fun _ => rfl) hclosed (by simp) rfl
  · split
    · apply TableMoves.of_change
      · intro other
        dsimp only
        rw [view_adopt]
        split
        · exact .drop _
        · exact .keep (by simp [hclosed])
      · simp
      · simp
    · apply TableMoves.of_change
      · intro other
        dsimp only
        rw [view_issue, view_adopt]
        split
        next h =>
          subst h
          exact .challenge connection turn.challenge turn.now rfl (open_established hopened)
        next => exact .keep (by simp [hclosed])
      · simp
      · simp

/-- The connection in use after a new connection: the new one, or what was in use of another
peer. -/
theorem active_connectionEstablished {isRelayed closeable : Bool} {used : ConnectionId}
    (h : (((connectionEstablished config turn node peer connection isRelayed numEstablished
      closeable).1.session).view other).active = some used) :
    (other = peer ∧ used = connection) ∨
      (other ≠ peer ∧ (node.session.view other).active = some used) := by
  by_cases hpeer : other = peer
  · subst hpeer
    refine .inl ⟨rfl, ?_⟩
    unfold connectionEstablished at h
    dsimp only at h
    split at h
    next hrejected =>
      -- a peer with a connection in use is never turned away
      simp only [applicationConnectionAllowed, Bool.and_eq_true, Bool.not_eq_true',
        Bool.or_eq_false_iff] at hrejected
      have hnone : node.session.activeConnections.lookup other = none := by
        simpa using hrejected.2.1
      simp [Session.view, hnone] at h
    next =>
      split at h
      · simp only [view_adopt, if_true, Option.some.injEq] at h
        exact h.symm
      · simp only [view_issue, view_adopt, if_true, Option.some.injEq] at h
        exact h.symm
  · refine .inr ⟨hpeer, ?_⟩
    unfold connectionEstablished at h
    dsimp only at h
    split at h
    · exact h
    · split at h
      · simpa only [view_adopt, hpeer, if_false] using h
      · simpa only [view_issue, view_adopt, hpeer, if_false] using h

/-- A closed connection changes the tables only in the listed ways. -/
theorem connectionClosed_moves {order : SetOrder}
    (htracked : Tracked C receiver transcript node.session)
    (hevent : turn.event = .closed peer connection numEstablished order)
    (hcount : numEstablished + 1 = openCount peer transcript) :
    TableMoves C receiver transcript
      ⟨turn, (connectionClosed turn node peer connection numEstablished).2⟩ node.session
      (connectionClosed turn node peer connection numEstablished).1.session := by
  have hclosed : turn.closed = some (peer, connection) := by simp [Turn.closed, hevent]
  have hother {other : TransportPeerId} {reaction : Reaction ρ} (h : other ≠ peer) :
      View.Change C receiver transcript ⟨turn, reaction⟩ other (node.session.view other)
        (node.session.view other) :=
    .keep (by simp [hclosed, Ne.symm h])
  unfold connectionClosed
  dsimp only
  split
  next hzero =>
    apply TableMoves.of_change
    · intro other
      by_cases h : other = peer
      · subst h
        rw [view_dismiss]
        exact .drop _
      · rw [view_dismiss_of_ne h, view_revoke_of_ne h, view_count]
        exact hother h
    · simp
    · simp
  next hpositive =>
    split
    next active hactive =>
      obtain ⟨hlookup, hne⟩ := Option.filter_eq_some_iff.mp hactive
      have hne : active ≠ connection := by simpa using hne
      -- two connections were open, so the one in use is
      have hlive : (peer, active) ∈ openConnections transcript := by
        rcases htracked.active peer active hlookup with hlive | hfew
        · exact hlive
        · omega
      apply TableMoves.of_change
      · intro other
        by_cases h : other = peer
        · subst h
          rw [view_issue, if_pos rfl, show (Session.view _ other).active = some active from
            hlookup]
          apply View.Change.challenge
          · rfl
          · exact open_cons hlive (by simp [hclosed, Ne.symm hne])
        · rw [view_issue, if_neg h, view_revoke_of_ne h, view_count]
          exact hother h
      · simp
      · simp
    next hnone =>
      apply TableMoves.of_change
      · intro other
        by_cases h : other = peer
        · subst h
          have hactive : ∀ active, (node.session.view other).active = some active →
              active = connection := by
            intro active hactive
            by_contra hne
            have hsome : (node.session.activeConnections.lookup other).filter
                (fun active => decide (active ≠ connection)) = some active :=
              Option.filter_eq_some_iff.mpr ⟨hactive, by simpa using hne⟩
            cases hnone.symm.trans hsome
          have hsound : ((node.session.count other numEstablished).view other).Sound C receiver
              transcript other := htracked.justified.view other
          dsimp only
          rw [hsound.view_revoke hactive]
          exact .drop _
        · rw [view_revoke_of_ne h, view_count]
          exact hother h
      · simp
      · simp

/-- The connection in use after a connection was closed. -/
theorem active_connectionClosed {used : ConnectionId}
    (h : (((connectionClosed turn node peer connection numEstablished).1.session).view
      other).active = some used) :
    (node.session.view other).active = some used ∧ (other = peer → numEstablished ≠ 0) := by
  unfold connectionClosed at h
  dsimp only at h
  split at h
  next hzero =>
    by_cases hpeer : other = peer
    · subst hpeer
      rw [view_dismiss] at h
      cases h
    · rw [view_dismiss_of_ne hpeer, view_revoke_of_ne hpeer] at h
      exact ⟨h, fun heq => (hpeer heq).elim⟩
  next hpositive =>
    refine ⟨?_, fun _ => hpositive⟩
    split at h
    · exact h
    · exact h

/-- A turn keeps the tables justified and the connections in use accounted for. -/
theorem Tracked.next (h : Tracked C config.localPeerId transcript node.session)
    (hemits : Emits transcript turn) (hemitted : Emitted transcript) :
    Tracked C config.localPeerId (⟨turn, (nextEvent C config turn node).2⟩ :: transcript)
      (nextEvent C config turn node).1.session := by
  let swept : SwarmNode :=
    { node with session := node.session.expireStaleAuthChallenges turn.sweptAt }
  have hswept : Tracked C config.localPeerId transcript swept.session :=
    ⟨h.justified.sweep turn.sweptAt,
      fun peer connection hactive => h.active peer connection (active_of_sweep hactive)⟩
  have hquiet (hopened : turn.opened = none) (hclosed : turn.closed = none)
      (reaction : Reaction ρ) (peer : TransportPeerId) (connection : ConnectionId)
      (hactive : (swept.session.view peer).active = some connection) :
      (peer, connection) ∈ openConnections (⟨turn, reaction⟩ :: transcript) ∨
        openCount peer (⟨turn, reaction⟩ :: transcript) ≤ 1 := by
    unfold openCount
    rw [openConnections_cons_of_none hopened hclosed]
    exact hswept.active peer connection hactive
  unfold nextEvent handle
  cases hevent : turn.event with
  | established peer connection isRelayed isDialer numEstablished closeable =>
    refine ⟨hswept.justified.turn (connectionEstablished_moves hevent) hemits hemitted, ?_⟩
    intro other used hactive
    have hopened : turn.opened = some (peer, connection) := Turn.opened_eq_some.mpr ⟨_, _, _, _, hevent⟩
    rcases active_connectionEstablished hactive with ⟨rfl, rfl⟩ | ⟨hne, hbefore⟩
    · exact .inl (open_established hopened)
    · rcases hswept.active other used hbefore with hopen | hfew
      · exact .inl (open_cons hopen (by simp [Turn.closed, hevent]))
      · refine .inr ?_
        rw [openCount_established hopened, if_neg hne]
        exact hfew
  | closed peer connection numEstablished order =>
    obtain ⟨hopen, hcount⟩ := hemits.closed _ _ _ _ hevent
    have hclosed : turn.closed = some (peer, connection) := Turn.closed_eq_some.mpr ⟨_, _, hevent⟩
    refine ⟨hswept.justified.turn (connectionClosed_moves hswept hevent hcount) hemits hemitted, ?_⟩
    intro other used hactive
    obtain ⟨hbefore, hpositive⟩ := active_connectionClosed hactive
    by_cases hpeer : other = peer
    · subst hpeer
      have hlimit := hemitted.openCount_le other
      have hpositive := hpositive rfl
      by_cases hused : used = connection
      · refine .inr ?_
        rw [openCount_closed hopen hclosed, if_pos rfl]
        simp only [maxEstablishedConnectionsPerPeer] at hlimit
        omega
      · rcases hswept.active other used hbefore with hlive | hfew
        · exact .inl (open_cons hlive (by simp [Turn.closed, hevent, Ne.symm hused]))
        · omega
    · rcases hswept.active other used hbefore with hlive | hfew
      · exact .inl (open_cons hlive (by simp [Turn.closed, hevent, Ne.symm hpeer]))
      · refine .inr ?_
        rw [openCount_closed hopen hclosed, if_neg hpeer]
        exact hfew
  | request peer connection request channelOpen =>
    refine ⟨hswept.justified.turn (handleNodeRequest_moves turn.now hevent) hemits hemitted, ?_⟩
    intro other used hactive
    rw [active_handleNodeRequest] at hactive
    exact hquiet (by simp [Turn.opened, hevent]) (by simp [Turn.closed, hevent]) _ other used hactive
  | other =>
    have hclosed : turn.closed = none := by simp [Turn.closed, hevent]
    refine ⟨hswept.justified.turn (.of_same (fun _ => rfl) hclosed (by simp) rfl) hemits hemitted,
      ?_⟩
    intro other used hactive
    exact hquiet (by simp [Turn.opened, hevent]) hclosed _ other used hactive

theorem run_tracked {config : SwarmConfig ρ} {start : Nat} {node : SwarmNode}
    (h : (endpoint C config start).Runs transcript node) :
    Tracked C config.localPeerId transcript node.session := by
  refine h.invariant (P := fun transcript node =>
    Tracked C config.localPeerId transcript node.session) ?_ ?_
  · exact ⟨.new start, by simp [Session.view, endpoint, Session.new]⟩
  · intro earlier node turn hbefore hemits hemitted
    exact hbefore.next hemits hemitted

end SwarmNode

end SwarmCraft
