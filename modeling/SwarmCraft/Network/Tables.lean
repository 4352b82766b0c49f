import SwarmCraft.Network.Transcript

/-!
# What the shared operations do to the tables

The sweep only drops entries. Revoking, dismissing and challenging are described by their effect
on the tables of one peer. A request changes the tables only in the ways that `View.Change` lists,
and what it hands to the caller arrived on the authenticated connection of its peer.
-/

namespace SwarmCraft

open Checked

variable {ρ : Type} {C : Crypto} {receiver : TransportPeerId} {transcript : Transcript ρ}
  {entry : TurnEntry ρ} {session before after : Session} {peer other : TransportPeerId}
  {connection : ConnectionId}

section Sweep

/-- The tables of a peer after one stale challenge was expired. -/
theorem Session.view_expire {stale : TransportPeerId × ConnectionId} :
    (session.expire stale).view peer = if peer = stale.1 then
        ⟨none, none, (session.view peer).active.filter fun active => !decide (active = stale.2)⟩
      else session.view peer := by
  unfold expire view
  by_cases h : peer = stale.1
  · subst h
    simp
  · simp [h]

/-- The sweep keeps the tables of a peer, or drops all but the connection in use. -/
theorem Session.view_sweep (session : Session) (peer : TransportPeerId) (now : Nat) :
    (session.expireStaleAuthChallenges now).view peer = session.view peer ∨
      ∃ active, (active = none ∨ active = (session.view peer).active) ∧
        (session.expireStaleAuthChallenges now).view peer = ⟨none, none, active⟩ := by
  unfold expireStaleAuthChallenges
  generalize session.staleChallenges now = stale
  -- the induction is on the stale challenges; dropping twice is dropping once
  induction stale generalizing session with
  | nil => exact .inl rfl
  | cons first rest ih =>
    rw [List.foldl_cons]
    have hfirst : (session.expire first).view peer = _ := view_expire
    by_cases h : peer = first.1
    · rw [if_pos h] at hfirst
      have hactive : ((session.expire first).view peer).active = none ∨
          ((session.expire first).view peer).active = (session.view peer).active := by
        rw [hfirst]
        cases hcurrent : (session.view peer).active with
        | none => exact .inl rfl
        | some active => by_cases hsame : active = first.2 <;> simp [hsame, Option.filter]
      rcases ih (session.expire first) with hkept | ⟨active, hchoice, hdropped⟩
      · refine .inr ⟨((session.expire first).view peer).active, hactive, ?_⟩
        rw [hkept, hfirst]
      · refine .inr ⟨active, ?_, hdropped⟩
        rcases hchoice with hnone | hsame
        · exact .inl hnone
        · rw [hsame]
          exact hactive
    · rw [if_neg h] at hfirst
      have hrest := ih (session.expire first)
      rw [hfirst] at hrest
      exact hrest

/-- A connection in use after the sweep was in use before it. -/
theorem Session.active_of_sweep {now : Nat}
    (h : ((session.expireStaleAuthChallenges now).view peer).active = some connection) :
    (session.view peer).active = some connection := by
  rcases session.view_sweep peer now with hkept | ⟨active, hchoice, hdropped⟩
  · rwa [hkept] at h
  · rw [hdropped] at h
    rcases hchoice with hnone | hsame
    · rw [hnone] at h
      cases h
    · rw [← hsame]
      exact h

/-- The sweep keeps the tables justified. -/
theorem TablesJustified.sweep (h : TablesJustified C receiver transcript session) (now : Nat) :
    TablesJustified C receiver transcript (session.expireStaleAuthChallenges now) where
  view := by
    intro peer
    rcases session.view_sweep peer now with hkept | ⟨active, _, hdropped⟩
    · rw [hkept]
      exact h.view peer
    · rw [hdropped]
      exact View.sound_of_none rfl rfl
  answers := h.answers
  issues := h.issues
  once := h.once

end Sweep

section Rules

/-- Only a proof that is delivered as an authentication is accepted. -/
theorem TurnEntry.not_acceptsProof {challenge : Nat}
    (h : ∀ peer application, entry.reaction.delivered ≠ some (.authenticated peer application)) :
    ¬ entry.AcceptsProof challenge := by
  rintro ⟨peer, _, _, _, application, _, hdelivered, _⟩
  exact h peer application hdelivered

/-- A turn that authenticates nobody and draws the challenge it issues. -/
theorem TableMoves.of_change
    (hchange : ∀ peer, View.Change C receiver transcript entry peer (before.view peer)
      (after.view peer)) (hdelivered : ∀ peer application,
      entry.reaction.delivered ≠ some (.authenticated peer application))
    (hissues : ∀ challenged, entry.reaction.challenged = some challenged →
      challenged.challenge = entry.turn.challenge) :
    TableMoves C receiver transcript entry before after where
  change := hchange
  answers := fun _ haccepts => (TurnEntry.not_acceptsProof hdelivered haccepts).elim
  issues := hissues

/-- A turn that leaves the tables of all peers alone and closes no connection. -/
theorem TableMoves.of_same (hview : ∀ peer, after.view peer = before.view peer)
    (hclosed : entry.turn.closed = none) (hdelivered : ∀ peer application,
      entry.reaction.delivered ≠ some (.authenticated peer application))
    (hchallenged : entry.reaction.challenged = none) :
    TableMoves C receiver transcript entry before after := by
  apply TableMoves.of_change
  · intro peer
    rw [hview peer]
    apply View.Change.keep
    simp [hclosed]
  · exact hdelivered
  · simp [hchallenged]

/-- Counting does not touch the tables. -/
@[simp] theorem Session.view_count {connections : Nat} :
    (session.count peer connections).view other = session.view other := rfl

/-- The tables after a connection was put to use. -/
theorem Session.view_use : (session.use peer connection).view other = if other = peer then
      ⟨(session.view other).authenticated, (session.view other).pending, some connection⟩
    else session.view other := by
  by_cases h : other = peer
  · simp [Session.use, view, h]
  · simp [Session.use, view, h]

/-- The tables of a peer that is gone. -/
theorem Session.view_dismiss : (session.dismiss peer).view peer = ⟨none, none, none⟩ := by
  simp [dismiss, view]

theorem Session.view_dismiss_of_ne (h : other ≠ peer) :
    (session.dismiss peer).view other = session.view other := by
  simp [dismiss, view, h]

/-- The tables after a challenge was issued. -/
theorem Session.view_issue {challenge now : Nat} :
    (session.issueAuthChallenge peer connection challenge now).view other =
      if other = peer then ⟨none, some ⟨connection, challenge, now⟩, (session.view other).active⟩
      else session.view other := by
  by_cases h : other = peer
  · subst h
    simp [issueAuthChallenge, view]
  · simp [issueAuthChallenge, view, h]

/-- The tables after a connection was revoked, for the other peers. -/
theorem Session.view_revoke_of_ne (h : other ≠ peer) :
    (session.revoke peer connection).view other = session.view other := by
  simp [revoke, view, h]

/-- Where the tables are sound, revoking the connection in use leaves nothing authenticated or
pending. -/
theorem View.Sound.view_revoke (hsound : (session.view peer).Sound C receiver transcript peer)
    (h : ∀ active, (session.view peer).active = some active → active = connection) :
    (session.revoke peer connection).view peer = ⟨none, none, (session.view peer).active⟩ := by
  have hauthenticated : (session.authenticated.lookup peer).filter
      (fun entry => !decide (entry.2 = connection)) = none := by
    refine Option.filter_eq_none_iff.mpr fun entry hentry => ?_
    simp [h _ (hsound.authenticated entry.1 entry.2 hentry).1]
  have hpending : (session.pendingChallenges.lookup peer).filter
      (fun entry => !decide (entry.connection = connection)) = none := by
    refine Option.filter_eq_none_iff.mpr fun entry hentry => ?_
    simp [h _ (hsound.pending entry hentry).1]
  simp [Session.revoke, Session.view, hauthenticated, hpending]

/-- Where the tables are sound, revoking a connection that is not in use changes nothing. -/
theorem View.Sound.view_revoke_unused
    (hsound : (session.view peer).Sound C receiver transcript peer)
    (h : (session.view peer).active ≠ some connection) :
    (session.revoke peer connection).view peer = session.view peer := by
  have hauthenticated : (session.authenticated.lookup peer).filter
      (fun entry => !decide (entry.2 = connection)) = session.authenticated.lookup peer := by
    cases hentry : session.authenticated.lookup peer with
    | none => rfl
    | some entry =>
      have hactive := (hsound.authenticated entry.1 entry.2 hentry).1
      have hne : entry.2 ≠ connection := fun heq => h (heq ▸ hactive)
      simp [Option.filter, hne]
  have hpending : (session.pendingChallenges.lookup peer).filter
      (fun entry => !decide (entry.connection = connection)) =
        session.pendingChallenges.lookup peer := by
    cases hentry : session.pendingChallenges.lookup peer with
    | none => rfl
    | some entry =>
      have hactive := (hsound.pending entry hentry).1
      have hne : entry.connection ≠ connection := fun heq => h (heq ▸ hactive)
      simp [Option.filter, hne]
  simp [Session.revoke, Session.view, hauthenticated, hpending]

end Rules

section Requests

variable {identity : NodeIdentity ρ} {style : RequestStyle} {turn : Turn ρ}
  {request : NodeRequest ρ} {channelOpen : Bool}

/-- A proof changes the tables only in the listed ways. -/
theorem receiveProof_moves {proof : PeerHelloProofV1}
    (hevent : turn.event = .request peer connection (.helloProof proof) channelOpen) :
    TableMoves C identity.localPeerId transcript
      ⟨turn, (receiveProof C identity session peer connection proof).2⟩ session
      (receiveProof C identity session peer connection proof).1 := by
  have hclosed : turn.closed = none := by simp [Turn.closed, hevent]
  -- the session without the challenge of the peer
  let taken : Session :=
    { session with pendingChallenges := session.pendingChallenges.erase peer }
  have htaken (reaction : Reaction ρ) (other : TransportPeerId) :
      View.Change C identity.localPeerId transcript ⟨turn, reaction⟩ other (session.view other)
        (taken.view other) := by
    by_cases h : other = peer
    · have hview : taken.view other =
          ⟨(session.view other).authenticated, none, (session.view other).active⟩ := by
        simp [taken, Session.view, h]
      rw [hview]
      exact .take hclosed
    · have hview : taken.view other = session.view other := by simp [taken, Session.view, h]
      rw [hview]
      exact .keep (by simp [hclosed])
  unfold receiveProof
  cases hpending : session.pendingChallenges.lookup peer with
  | none => exact .of_same (fun _ => rfl) hclosed (by simp [refusal]) rfl
  | some expected =>
    dsimp only
    split
    next hcanonical =>
      obtain ⟨hconnection, hactive, _⟩ := hcanonical
      cases hverified : verifyPeerHelloProof C proof expected.challenge peer
        identity.localPeerId with
      | error failure => exact .of_change (htaken _) (by simp [refusal]) (by simp [refusal])
      | ok _ =>
        constructor
        · intro other
          by_cases h : other = peer
          · subst h
            have hview : ({ taken with
                authenticated := AList.insert other (proof.hello.peerId, connection)
                  session.authenticated } : Session).view other =
                ⟨some (proof.hello.peerId, expected.connection), none,
                  (session.view other).active⟩ := by
              simp [taken, Session.view, hconnection]
            rw [hview]
            apply View.Change.prove expected proof channelOpen hpending
            · rw [hconnection]
              exact hevent
            · rfl
            · exact hverified
          · have hview : ({ taken with
                authenticated := AList.insert peer (proof.hello.peerId, connection)
                  session.authenticated } : Session).view other = session.view other := by
              simp [taken, Session.view, h]
            rw [hview]
            exact .keep (by simp [hclosed])
        · rintro challenge ⟨_, _, sent, _, _, hsent, _, hchallenge⟩
          rw [hevent] at hsent
          cases hsent
          refine ⟨peer, expected, hpending, ?_, ?_⟩
          · rw [← hchallenge]
            exact (proofOf_of_verify hverified).challenge.symm
          · simp [Session.view]
        · simp
    next => exact .of_change (htaken _) (by simp [refusal]) (by simp [refusal])

/-- A request changes the tables only in the listed ways. -/
theorem handleNodeRequest_moves (now : Nat)
    (hevent : turn.event = .request peer connection request channelOpen) :
    TableMoves C identity.localPeerId transcript
      ⟨turn, (handleNodeRequest C identity style session peer connection request channelOpen now).2⟩
      session
      (handleNodeRequest C identity style session peer connection request channelOpen now).1 := by
  have hclosed : turn.closed = none := by simp [Turn.closed, hevent]
  unfold handleNodeRequest
  dsimp only
  generalize session.admission.admitRequest peer
    (session.authenticatedOn peer connection).isSome now = admission
  let charged : Session := { session with admission := admission.2 }
  have hview (other : TransportPeerId) : charged.view other = session.view other := rfl
  split
  next =>
    cases hlimits : identity.validateLimits request with
    | error text => exact .of_same hview hclosed (by simp [refusal]) rfl
    | ok _ =>
      cases request with
      | hello hello => exact .of_same hview hclosed (by simp [dispatchNodeRequest, refusal]) rfl
      | helloChallenge challenge =>
        refine .of_same hview hclosed ?_ ?_
        all_goals
          simp only [dispatchNodeRequest, answerChallenge]
          split
          · split
            · simp
            · split <;> simp
          · simp [refusal]
      | helloProof proof =>
        have hmoves : TableMoves C identity.localPeerId transcript
            ⟨turn, (receiveProof C identity charged peer connection proof).2⟩ charged
            (receiveProof C identity charged peer connection proof).1 := receiveProof_moves hevent
        exact ⟨hmoves.change, hmoves.answers, hmoves.issues⟩
      | application request =>
        refine .of_same hview hclosed ?_ ?_
        all_goals
          simp only [dispatchNodeRequest, deliver]
          split <;> simp [refusal]
  next => exact .of_same hview hclosed (by simp [refusal]) rfl

/-- A request does not change which connections are in use. -/
theorem active_handleNodeRequest {now : Nat} :
    ((handleNodeRequest C identity style session peer connection request channelOpen now).1.view
      other).active = (session.view other).active := by
  unfold handleNodeRequest
  dsimp only
  split
  · cases hlimits : identity.validateLimits request with
    | error text => rfl
    | ok _ =>
      cases request with
      | hello hello => rfl
      | helloChallenge challenge => rfl
      | application request => rfl
      | helloProof proof =>
        simp only [dispatchNodeRequest, receiveProof]
        split
        · rfl
        · split
          · split <;> rfl
          · rfl
  · rfl

/-- A request that is handed to the caller arrived on the authenticated connection of its peer. -/
theorem handleNodeRequest_delivers {now : Nat} {named : Option PeerId} {body : ρ}
    (h : (handleNodeRequest C identity style session peer connection request channelOpen
      now).2.delivered = some (.inboundRequest other named body)) :
    other = peer ∧ request = .application body ∧ ∃ application,
      session.authenticated.lookup peer = some (application, connection) ∧
        AList.lookup peer (handleNodeRequest C identity style session peer connection request
          channelOpen now).1.authenticated = some (application, connection) ∧
        ∀ caller ∈ named, caller = application := by
  unfold handleNodeRequest at h ⊢
  dsimp only at h ⊢
  generalize session.admission.admitRequest peer
    (session.authenticatedOn peer connection).isSome now = admission at h ⊢
  split at h
  next hadmitted =>
    rw [if_pos hadmitted]
    cases hlimits : identity.validateLimits request with
    | error text => simp [hlimits, refusal] at h
    | ok _ =>
      rw [hlimits] at h
      cases request with
      | hello hello => simp [dispatchNodeRequest, refusal] at h
      | helloChallenge challenge =>
        simp only [dispatchNodeRequest, answerChallenge] at h
        split at h
        · split at h
          · simp at h
          · split at h <;> simp at h
        · simp [refusal] at h
      | helloProof proof =>
        simp only [dispatchNodeRequest, receiveProof] at h
        split at h
        · simp [refusal] at h
        · split at h
          · split at h <;> simp [refusal] at h
          · simp [refusal] at h
      | application request =>
        simp only [dispatchNodeRequest, deliver] at h ⊢
        split at h
        next application happlication =>
          cases h
          simp only [Session.authenticatedOn, Option.map_eq_some_iff, Option.filter_eq_some_iff,
            decide_eq_true_eq] at happlication
          obtain ⟨⟨found, on⟩, ⟨hlookup, hconnection⟩, hfound⟩ := happlication
          dsimp only at hconnection hfound
          subst hconnection hfound
          refine ⟨rfl, rfl, found, hlookup, hlookup, ?_⟩
          intro caller hcaller
          split at hcaller
          · exact (Option.mem_some_iff.mp hcaller).symm
          · cases hcaller
        next => simp [refusal] at h
  next => simp [refusal] at h

end Requests

/-- No tables are justified by nothing. -/
theorem TablesJustified.new (now : Nat) :
    TablesJustified C receiver ([] : Transcript ρ) (.new now) where
  view := fun _ => View.sound_of_none rfl rfl
  answers := by simp
  issues := by simp
  once := by
    intro challenge first before second between hfirst
    simp at hfirst

end SwarmCraft
