import SwarmCraft.Daemon.Readiness
import SwarmCraft.System.Genesis

/-!
# The quorum behind a safe shutdown report

A host reports that it is safe to switch off when another member says of itself that it
would still find a recovery quorum. The report that a member sends carries neither an
epoch nor a snapshot, so the runs here remember for every report the moment at which it
was computed. A member list that does not change is part of every run.
-/

namespace SwarmCraft

open Checked Effect Transition Function
open Founding (first second third numbered)

variable (C : Crypto) (F : Fleet C)
variable {act : Act} {packet : Packet} {node : Node} {other peer localPeer : PeerId}
  {capability : Option HostCapabilityV1} {observed : ObservedCapability}
  {descriptor : WorldDescriptorV1} {epoch : EpochRecordV1} {latest : SnapshotManifestV1}
variable {sender successor host : PeerId} {number now : Nat} {runtime : LeaseRuntime}
  {display : DaemonError → String}

/-! ## Runs with the origin of each report -/

/-- A peer at a moment of a run. -/
structure Moment where
  node : Node
  now : Nat

/-- The system, and where the reports in it come from. -/
structure Watch where
  system : System
  /-- Every packet that was sent, with its sender when it was. -/
  stamped : List (Packet × Moment)
  /-- For two peers, the moment of the last host capability that the first one got from the
  second one. -/
  origin : PeerId → PeerId → Option Moment

/-- Nothing was reported yet. -/
def Watch.start (s : System) : Watch := ⟨s, [], fun _ _ => none⟩

/-- The report of a host capability that is received as the answer to a request for it. -/
def Act.report (s : System) : Act → Option Packet
  | .input peer (.response sender number (.hostCapability capability)) =>
    if (s.nodes peer).outbound.lookup number = some (.hostCapability sender) then
      some ⟨sender, peer, number, .response (.hostCapability capability)⟩
    else none
  | _ => none

/-- The packets that are sent, each with its sender as it is now. -/
def Act.stamps (s : System) : Act → List (Packet × Moment)
  | .input peer cause =>
    (s.handle C F peer cause).2.outbox.map fun packet => (packet, ⟨s.nodes peer, s.clock⟩)
  | _ => []

/-- What happens; `index` is the place of the delivered packet among those that were sent. -/
def Watch.perform (w : Watch) (act : Act) (index : Nat) : Watch where
  system := w.system.perform C F act
  stamped := w.stamped ++ act.stamps C F w.system
  origin := match act.report w.system with
    | some packet => update w.origin packet.dst
        (update (w.origin packet.dst) packet.src (w.stamped[index]?.map Prod.snd))
    | none => w.origin

/-- Every member that has a descriptor has these members in it. -/
def System.Settled (members : List WorldMemberV1) (s : System) : Prop :=
  ∀ member ∈ members, ((optional (loadWorldDescriptor F.world (s.nodes member.peerId).store)).all
    fun descriptor => decide (descriptor.members = members)) = true

/-- It can happen now, and a report of an honest peer is the packet at `index`. -/
def Watch.Allows (members : List WorldMemberV1) (w : Watch) (act : Act) (index : Nat) : Prop :=
  w.system.Settled C F members ∧ act.Enabled C F w.system ∧
    ∀ packet ∈ act.report w.system, F.honest packet.src →
      w.stamped[index]?.map Prod.fst = some packet

/-- One step of a run. -/
def Watch.Step (members : List WorldMemberV1) (w v : Watch) : Prop :=
  ∃ act index, w.Allows C F members act index ∧ v = w.perform C F act index

variable {C F} {members : List WorldMemberV1} {s : System} {w v : Watch}

/-- A run with origins is a run of the system. -/
theorem Watch.Step.system (h : Watch.Step C F members w v) :
    SwarmCraft.Step C F w.system v.system := by
  obtain ⟨act, index, hallows, rfl⟩ := h
  exact ⟨act, hallows.2.1, rfl⟩

/-- The packets that were sent are those that are stamped. -/
theorem Watch.sent_eq (hs : s.sent = []) (hrun : Run (Watch.Step C F members) (.start s) w) :
    w.system.sent = w.stamped.map Prod.fst := by
  refine hrun.invariant (I := fun w => w.system.sent = w.stamped.map Prod.fst) ?_ hs
  rintro w v hsent ⟨act, index, _, rfl⟩
  cases act with
  | input peer cause =>
    simp [Watch.perform, System.perform, System.become, Act.stamps, hsent, comp_def]
  | cut peer cause point =>
    simp only [Watch.perform, System.perform, Act.stamps, List.append_nil]
    split
    · simp [System.become, hsent]
    · exact hsent
  | restart peer => simp [Watch.perform, System.perform, System.become, Act.stamps, hsent]
  | elapse milliseconds => simp [Watch.perform, System.perform, Act.stamps, hsent]
  | surroundings peer host blobs soloPolicy =>
    simp [Watch.perform, System.perform, System.become, Act.stamps, hsent]
  | reorder peer recoveryVotes membershipVotes =>
    simp [Watch.perform, System.perform, System.become, Act.stamps, hsent]

/-- A received report of an honest peer was sent. -/
theorem Act.report_sent (henabled : act.Enabled C F s)
    (hreport : act.report s = some packet) (hhonest : F.honest packet.src) : packet ∈ s.sent := by
  unfold Act.report at hreport
  split at hreport
  · split at hreport
    · obtain rfl := Option.some.inj hreport
      exact henabled.2.2.1 hhonest
    · cases hreport
  · cases hreport

/-- Every run of the system in which the members stay the same can be watched. -/
theorem Watch.exists_run (hs : s.sent = []) {t : System}
    (hrun : Run (fun a b => a.Settled C F members ∧ SwarmCraft.Step C F a b) s t) :
    ∃ w, w.system = t ∧ Run (Watch.Step C F members) (.start s) w := by
  induction hrun with
  | refl => exact ⟨.start s, rfl, .refl⟩
  | tail _ hstep ih =>
    obtain ⟨w, rfl, hwatch⟩ := ih
    obtain ⟨hsettled, act, henabled, rfl⟩ := hstep
    have hplace : ∃ index : Nat, ∀ packet ∈ act.report w.system, F.honest packet.src →
        w.stamped[index]?.map Prod.fst = some packet := by
      by_cases hreport : ∃ packet, act.report w.system = some packet ∧ F.honest packet.src
      · obtain ⟨packet, hpacket, hhonest⟩ := hreport
        have hsent := act.report_sent henabled hpacket hhonest
        rw [Watch.sent_eq hs hwatch] at hsent
        obtain ⟨index, hindex⟩ := List.mem_iff_getElem?.mp hsent
        refine ⟨index, fun other hother _ => ?_⟩
        obtain rfl : packet = other := Option.some.inj (hpacket.symm.trans hother)
        rw [← hindex, List.getElem?_map]
      · exact ⟨0, fun packet hpacket hhonest => absurd ⟨packet, hpacket, hhonest⟩ hreport⟩
    obtain ⟨index, hindex⟩ := hplace
    exact ⟨w.perform C F act index, rfl,
      hwatch.tail ⟨act, index, ⟨hsettled, henabled, hindex⟩, rfl⟩⟩

/-! ## Who reports and who learns -/

/-- No host capability is reported. -/
def Taciturn (e e' : Exec) : Prop :=
  ∀ packet ∈ e'.outbox, packet ∈ e.outbox ∨ packet.plain = true

/-- No host capability is learned. -/
def Unlearned (e e' : Exec) : Prop :=
  ∀ peer observed, e'.node.runtime.peerCapability peer = some observed →
    e.node.runtime.peerCapability peer = some observed

variable {files : List File} {site : Site} {cause : Input}

/-- Only the report of a host capability is heard. -/
theorem frames_taciturn : Frames .plain files Taciturn where
  refl _ _ h := .inl h
  trans _ _ _ h₁₂ h₂₃ packet hpacket := (h₂₃ packet hpacket).elim (h₁₂ packet) .inr
  written _ _ _ _ _ _ h := .inl h
  logged _ _ _ _ h := .inl h
  remembered _ _ _ _ h := .inl h
  pending _ _ _ h := .inl h
  tabled _ _ _ _ h := .inl h
  queued e packet hplain other hother := by
    rcases List.mem_append.mp hother with hold | hnew
    · exact .inl hold
    · rw [List.mem_singleton.mp hnew]
      exact .inr hplain

/-- Only the receipt of a host capability is remembered. -/
theorem frames_unlearned : Frames .plain files Unlearned where
  refl _ _ _ h := h
  trans _ _ _ h₁₂ h₂₃ peer observed h := h₁₂ peer observed (h₂₃ peer observed h)
  written _ _ _ _ _ _ _ h := h
  logged _ _ _ _ _ h := h
  remembered e _ hforgets peer observed h := hforgets.forgets e.node.runtime peer observed h
  pending _ _ _ _ h := h
  tabled _ _ _ _ _ h := h
  queued _ _ _ _ _ h := h

/-- Only a request for the host capability makes a peer report one. -/
theorem taciturn_input (h : ∀ sender number worldId,
    cause ≠ .request sender number (.hostCapability worldId)) :
    Always Taciturn (cause.run C site) := by
  have frames : Frames .plain cause.footprint Taciturn := frames_taciturn
  have := frames.toRefl
  have := frames.toIsTrans
  apply frames.input (List.Subset.refl _)
  · intro sender number worldId hcause
    exact absurd hcause (h sender number worldId)
  · intro _ _ peer capability _
    exact .bind (.onSome fun _ _ => .lift _) fun _ _ _ hpacket => .inl hpacket

/-- Only a reported host capability makes a peer remember one. -/
theorem unlearned_input (h : ∀ sender number capability,
    cause ≠ .response sender number (.hostCapability capability)) :
    Always Unlearned (cause.run C site) := by
  have frames : Frames .plain cause.footprint Unlearned := frames_unlearned
  have := frames.toRefl
  apply frames.input (List.Subset.refl _)
  · intro sender number worldId _
    exact always_readStore fun _ => always_readRuntime fun _ => always_readHost fun _ =>
      always_check fun _ _ _ _ _ hobserved => hobserved
  · intro sender number peer capability hcause
    exact absurd hcause (h sender number capability)

/-! ## The report and its receipt -/

/-- The answer to a request for the host capability is computed from the node as it is. -/
theorem outbox_hostCapability {channel : Channel} {worldId : WorldId}
    (h : packet ∈ (handleRequest C site channel (.hostCapability worldId)
      (Exec.start node)).2.outbox) :
    ∃ quorum, localRecoveryQuorumWithoutAuthority C site node.runtime node.store = .ok quorum ∧
      packet = ⟨channel.self, channel.requester, channel.number,
        .response (.hostCapability (localHostCapability node.host quorum))⟩ := by
  change packet ∈ ((check (authorizeMember C worldId channel.requester node.store) >>= fun _ =>
    handleHostCapability C site channel) (Exec.start node)).2.outbox at h
  cases hauthorized : authorizeMember C worldId channel.requester node.store with
  | error error =>
    rw [hauthorized] at h
    cases h
  | ok _ =>
    rw [check_bind hauthorized] at h
    change packet ∈ ((check (localRecoveryQuorumWithoutAuthority C site node.runtime node.store) >>=
      fun quorum => respond channel (.hostCapability (localHostCapability node.host quorum)))
        (Exec.start node)).2.outbox at h
    cases hquorum : localRecoveryQuorumWithoutAuthority C site node.runtime node.store with
    | error error =>
      rw [hquorum] at h
      cases h
    | ok quorum =>
      rw [check_bind hquorum] at h
      exact ⟨quorum, rfl, List.mem_singleton.mp h⟩

/-- What a peer remembers after the answer to its request for a host capability. -/
theorem settle_hostCapability {asked : PeerId}
    (hlookup : node.outbound.lookup number = some (.hostCapability asked))
    (h : ((Input.response sender number (.hostCapability capability)).settle
      (handleResponse C site number (.hostCapability capability)
        (Exec.start node))).runtime.peerCapability other = some observed) :
    other = asked ∧ capability = some observed.capability ∨
      other ≠ asked ∧ node.runtime.peerCapability other = some observed := by
  have hrun : handleResponse C site number (.hostCapability capability) (Exec.start node) =
      receiveCapability site asked capability
        { Exec.start node with node := { node with
          outbound := node.outbound.filter fun entry => decide (entry.1 ≠ number) } } := by
    change onSome (node.outbound.lookup number) (fun context => dispatchResponse C site context
      (.hostCapability capability)) _ = _
    rw [hlookup]
    rfl
  have hupdate {observation : Option ObservedCapability}
      (hnew : update node.runtime.peerCapability asked observation other = some observed) :
      other = asked ∧ observation = some observed ∨
        other ≠ asked ∧ node.runtime.peerCapability other = some observed := by
    by_cases hother : other = asked
    · rw [hother, update_self] at hnew
      exact .inl ⟨hother, hnew⟩
    · rw [update_of_ne hother] at hnew
      exact .inr ⟨hother, hnew⟩
  rw [hrun] at h
  cases capability with
  | none =>
    rcases hupdate h with ⟨_, hnone⟩ | hold
    · cases hnone
    · exact .inr hold
  | some capability =>
    have hreceive : receiveCapability site asked (some capability) =
        check (guardMessage (capability.worldId = site.world)
          "host-capability response references the wrong world") >>= fun _ =>
            updateRuntime fun runtime => { runtime with
              peerCapability := update runtime.peerCapability asked
                (some ⟨capability, site.now⟩) } := rfl
    rw [hreceive] at h
    by_cases hworld : capability.worldId = site.world
    · rw [check_bind (a := ()) (guardMessage_eq_ok.mpr hworld)] at h
      rcases hupdate h with ⟨hother, hsome⟩ | hold
      · exact .inl ⟨hother, by rw [← Option.some.inj hsome]⟩
      · exact .inr hold
    · -- The failure ends the daemon, which starts again with an empty memory.
      have hfail : guardMessage (capability.worldId = site.world)
          "host-capability response references the wrong world" =
            .error (.message "host-capability response references the wrong world") := by
        simp [guardMessage, ensure, hworld]
      rw [hfail] at h
      cases h

/-- An answer that is not expected teaches no host capability. -/
theorem settle_unexpected
    (hlookup : ∀ asked, node.outbound.lookup number ≠ some (.hostCapability asked))
    (h : ((Input.response sender number (.hostCapability capability)).settle
      (handleResponse C site number (.hostCapability capability)
        (Exec.start node))).runtime.peerCapability other = some observed) :
    node.runtime.peerCapability other = some observed := by
  have hrun : handleResponse C site number (.hostCapability capability) (Exec.start node) =
      (.ok (), { Exec.start node with node := { node with
        outbound := node.outbound.filter fun entry => decide (entry.1 ≠ number) } }) := by
    change onSome (node.outbound.lookup number) (fun context => dispatchResponse C site context
      (.hostCapability capability)) _ = _
    cases hcontext : node.outbound.lookup number with
    | none => rfl
    | some context =>
      cases context with
      | hostCapability asked => exact absurd hcontext (hlookup asked)
      | _ => rfl
  rw [hrun] at h
  exact h

/-! ## Reports come from where they are said to -/

variable (F members) in
/-- The peer computed the host capability at the moment. -/
structure Reported (peer : PeerId) (moment : Moment) (capability : Option HostCapabilityV1) :
    Prop where
  settled : (∃ member ∈ members, member.peerId = peer) → ∀ descriptor,
    loadWorldDescriptor F.world moment.node.store = .ok descriptor → descriptor.members = members
  computed : ∃ quorum, localRecoveryQuorumWithoutAuthority C (F.siteAt peer moment.now)
    moment.node.runtime moment.node.store = .ok quorum ∧
      capability = localHostCapability moment.node.host quorum

variable (F members) in
/-- Every report in the system was computed at the moment it is stamped with. -/
structure Watch.Sound (w : Watch) : Prop where
  stamped : ∀ packet moment capability, (packet, moment) ∈ w.stamped →
    packet.body = .response (.hostCapability capability) →
      Reported F members packet.src moment capability
  remembered : ∀ peer other observed, F.honest other →
    (w.system.nodes peer).runtime.peerCapability other = some observed →
      ∃ moment, w.origin peer other = some moment ∧
        Reported F members other moment (some observed.capability)

theorem System.Settled.members_eq (h : s.Settled C F members)
    (hpeer : ∃ member ∈ members, member.peerId = peer)
    (hload : loadWorldDescriptor F.world (s.nodes peer).store = .ok descriptor) :
    descriptor.members = members := by
  obtain ⟨member, hmember, rfl⟩ := hpeer
  have hall := h member hmember
  rw [hload] at hall
  exact of_decide_eq_true hall

/-- A packet that is sent now reports what its sender computes now. -/
theorem reported_stamps (hpeer : F.honest peer) (hsettled : s.Settled C F members)
    (hpacket : packet ∈ (s.handle C F peer cause).2.outbox)
    (hbody : packet.body = .response (.hostCapability capability)) :
    Reported F members packet.src ⟨s.nodes peer, s.clock⟩ capability := by
  by_cases hcause : ∃ sender number worldId,
      cause = .request sender number (.hostCapability worldId)
  · obtain ⟨sender, number, worldId, rfl⟩ := hcause
    obtain ⟨quorum, hquorum, rfl⟩ := outbox_hostCapability hpacket
    obtain rfl : localHostCapability (s.nodes peer).host quorum = capability := by
      simpa using hbody
    have hsrc : (s.site C F peer).peer C = peer := F.site_peer hpeer
    rw [hsrc]
    exact ⟨fun hmember _ hload => hsettled.members_eq hmember hload, quorum, hquorum, rfl⟩
  · have htaciturn : Taciturn (Exec.start (s.nodes peer)) (s.handle C F peer cause).2 :=
      taciturn_input (fun sender number worldId hrequest =>
        hcause ⟨sender, number, worldId, hrequest⟩) _
    rcases htaciturn packet hpacket with hold | hplain
    · cases hold
    · rw [Packet.plain, hbody] at hplain
      cases hplain

/-- What a peer remembers after an input: the report it just received, or what it knew. -/
theorem remembered_settle (henabled : cause.Enabled C F s peer)
    (h : (cause.settle (s.handle C F peer cause)).runtime.peerCapability other = some observed) :
    (∃ packet, (Act.input peer cause).report s = some packet ∧ packet.dst = peer ∧
      packet.src = other ∧ packet.body = .response (.hostCapability (some observed.capability))) ∨
    (s.nodes peer).runtime.peerCapability other = some observed ∧
      ∀ packet, (Act.input peer cause).report s = some packet →
        packet.dst = peer ∧ packet.src ≠ other := by
  by_cases hcause : ∃ sender number capability,
      cause = .response sender number (.hostCapability capability)
  · obtain ⟨sender, number, capability, rfl⟩ := hcause
    by_cases hlookup : ∃ asked, (s.nodes peer).outbound.lookup number = some (.hostCapability asked)
    · obtain ⟨asked, hlookup⟩ := hlookup
      obtain rfl : asked = sender := by
        have hall := henabled.1
        rw [hlookup] at hall
        simpa [OutboundContext.peer] using hall
      have hreport : (Act.input peer (.response asked number (.hostCapability capability))).report s =
          some ⟨asked, peer, number, .response (.hostCapability capability)⟩ := if_pos hlookup
      rw [hreport]
      rcases settle_hostCapability hlookup h with ⟨rfl, rfl⟩ | ⟨hother, hold⟩
      · exact .inl ⟨_, rfl, rfl, rfl, rfl⟩
      · refine .inr ⟨hold, fun packet hpacket => ?_⟩
        obtain rfl := Option.some.inj hpacket
        exact ⟨rfl, hother.symm⟩
    · have hunexpected (asked : PeerId) :
          (s.nodes peer).outbound.lookup number ≠ some (.hostCapability asked) :=
        fun hfound => hlookup ⟨asked, hfound⟩
      refine .inr ⟨settle_unexpected hunexpected h, fun packet hpacket => ?_⟩
      rw [Act.report, if_neg (hunexpected sender)] at hpacket
      cases hpacket
  · have hother (sender : PeerId) (number : Nat) (capability : Option HostCapabilityV1) :
        cause ≠ .response sender number (.hostCapability capability) :=
      fun hresponse => hcause ⟨sender, number, capability, hresponse⟩
    have hunlearned : Unlearned (Exec.start (s.nodes peer)) (s.handle C F peer cause).2 :=
      unlearned_input hother _
    refine .inr ⟨?_, fun packet hpacket => ?_⟩
    · -- A daemon that failed starts again without any report.
      unfold Input.settle at h
      split at h
      · rename_i e hout
        rw [hout] at hunlearned
        exact hunlearned other observed h
      · rename_i error e hout
        rw [hout] at hunlearned
        split at h
        · cases h
        · exact hunlearned other observed h
    · unfold Act.report at hpacket
      split at hpacket
      · rename_i sender number capability heq
        cases heq
        exact absurd rfl (hother sender number capability)
      · cases hpacket

/-- Apart from an input, nothing teaches a peer a host capability. -/
theorem remembered_perform (hact : ∀ peer cause, act ≠ .input peer cause)
    (h : ((s.perform C F act).nodes peer).runtime.peerCapability other = some observed) :
    (s.nodes peer).runtime.peerCapability other = some observed := by
  have hbecome {actor : PeerId} {node : Node} {entries : List Entry} {packets : List Packet}
      (hnode : ∀ observed, node.runtime.peerCapability other = some observed →
        (s.nodes actor).runtime.peerCapability other = some observed)
      (hnew : ((s.become actor node entries packets).nodes peer).runtime.peerCapability other =
        some observed) : (s.nodes peer).runtime.peerCapability other = some observed := by
    by_cases hpeer : peer = actor
    · subst hpeer
      simp only [System.become, update_self] at hnew
      exact hnode observed hnew
    · simp only [System.become, update_of_ne hpeer] at hnew
      exact hnew
  cases act with
  | input actor cause => exact absurd rfl (hact actor cause)
  | cut actor cause point =>
    simp only [System.perform] at h
    split at h
    · exact hbecome (fun _ hnone => by cases hnone) h
    · exact h
  | restart actor => exact hbecome (fun _ hnone => by cases hnone) h
  | elapse milliseconds => exact h
  | surroundings actor host blobs soloPolicy =>
    refine hbecome ?_ h
    exact fun _ hsame => hsame
  | reorder actor recoveryVotes membershipVotes =>
    refine hbecome ?_ h
    exact fun _ hsame => hsame

/-- Apart from an input, no report is sent or received. -/
theorem report_eq_none (hact : ∀ peer cause, act ≠ .input peer cause) :
    act.report s = none ∧ act.stamps C F s = [] := by
  cases act with
  | input actor cause => exact absurd rfl (hact actor cause)
  | _ => exact ⟨rfl, rfl⟩

/-- An input keeps the origins of what is remembered. -/
theorem Watch.Sound.remembered_input {index : Nat} (hw : w.Sound F members)
    (hallows : w.Allows C F members (.input peer cause) index) {actor : PeerId}
    (hhonest : F.honest other)
    (hnew : (((w.perform C F (.input peer cause) index).system.nodes actor).runtime.peerCapability
      other) = some observed) :
    ∃ moment, (w.perform C F (.input peer cause) index).origin actor other = some moment ∧
      Reported F members other moment (some observed.capability) := by
  obtain ⟨_, henabled, hdelivered⟩ := hallows
  by_cases hactor : actor = peer
  · subst hactor
    have hsettle : (cause.settle (w.system.handle C F actor cause)).runtime.peerCapability other =
        some observed := by
      simpa [Watch.perform, System.perform, System.become] using hnew
    rcases remembered_settle henabled.2 hsettle with
      ⟨packet, hreport, rfl, rfl, hbody⟩ | ⟨hold, hreport⟩
    · -- The moment of the delivered packet becomes the origin.
      have hplace := hdelivered packet hreport hhonest
      obtain ⟨⟨found, moment⟩, hfound, rfl⟩ := Option.map_eq_some_iff.mp hplace
      refine ⟨moment, ?_, hw.stamped found moment _ (List.mem_of_getElem? hfound) hbody⟩
      simp [Watch.perform, hreport, hfound]
    · obtain ⟨moment, horigin, hreported⟩ := hw.remembered actor other observed hhonest hold
      refine ⟨moment, ?_, hreported⟩
      rw [← horigin]
      cases hpacket : (Act.input actor cause).report w.system with
      | none => simp [Watch.perform, hpacket]
      | some packet =>
        obtain ⟨hdst, hsrc⟩ := hreport packet hpacket
        simp only [Watch.perform, hpacket, hdst, update_self, update_of_ne hsrc.symm]
  · have hold : (w.system.nodes actor).runtime.peerCapability other = some observed := by
      simpa [Watch.perform, System.perform, System.become, update_of_ne hactor] using hnew
    obtain ⟨moment, horigin, hreported⟩ := hw.remembered actor other observed hhonest hold
    refine ⟨moment, ?_, hreported⟩
    rw [← horigin]
    cases hpacket : (Act.input peer cause).report w.system with
    | none => simp [Watch.perform, hpacket]
    | some packet =>
      have hdst : packet.dst = peer := by
        unfold Act.report at hpacket
        split at hpacket
        · split at hpacket
          · rename_i heq _
            cases heq
            rw [← Option.some.inj hpacket]
          · cases hpacket
        · cases hpacket
      simp only [Watch.perform, hpacket, hdst, update_of_ne hactor]

theorem Watch.Sound.step (hw : w.Sound F members) (h : Watch.Step C F members w v) :
    v.Sound F members := by
  obtain ⟨act, index, hallows, rfl⟩ := h
  by_cases hact : ∃ peer cause, act = .input peer cause
  · obtain ⟨peer, cause, rfl⟩ := hact
    refine ⟨fun packet moment capability hpacket hbody => ?_, fun actor other observed hhonest hnew =>
      hw.remembered_input hallows hhonest hnew⟩
    rcases List.mem_append.mp hpacket with hold | hfresh
    · exact hw.stamped packet moment capability hold hbody
    · obtain ⟨sent, hsent, heq⟩ := List.mem_map.mp hfresh
      cases heq
      exact reported_stamps hallows.2.1.1 hallows.1 hsent hbody
  · have hother (peer : PeerId) (cause : Input) : act ≠ .input peer cause :=
      fun hinput => hact ⟨peer, cause, hinput⟩
    obtain ⟨hreport, hstamps⟩ := report_eq_none (C := C) (F := F) (s := w.system) hother
    refine ⟨fun packet moment capability hpacket hbody => ?_, fun actor other observed hhonest hnew =>
      ?_⟩
    · rw [Watch.perform, hstamps, List.append_nil] at hpacket
      exact hw.stamped packet moment capability hpacket hbody
    · obtain ⟨moment, horigin, hreported⟩ :=
        hw.remembered actor other observed hhonest (remembered_perform hother hnew)
      refine ⟨moment, ?_, hreported⟩
      simpa [Watch.perform, hreport] using horigin

theorem Watch.Sound.run (hs : s.Initial) (hrun : Run (Watch.Step C F members) (.start s) w) :
    w.Sound F members := by
  refine hrun.invariant (fun w v hw hstep => hw.step hstep) ⟨?_, ?_⟩
  · intro packet moment capability hpacket
    cases hpacket
  · intro peer other observed _ hobserved
    rw [Watch.start, hs.runtime peer] at hobserved
    cases hobserved

/-! ## What a safe report rests on -/

/-- The member that a safe report names can be reached, is current and reports the quorum; the
local peer is the authority. -/
theorem hostVerdict_safe {conflicts : Bool} {peers : List HostPeerReadiness}
    (hstate : (readinessVerdict localPeer epoch conflicts peers).state = .safe)
    (hsuccessor : (readinessVerdict localPeer epoch conflicts peers).successorPeerId =
      some successor) :
    localPeer = epoch.authorityPeerId ∧
      ∃ peer ∈ peers, peer.peerId = successor ∧ peer.recoveryQuorumWithoutAuthority = true := by
  unfold readinessVerdict at hstate hsuccessor
  split at hstate
  · cases hstate
  rename_i hauthority
  rw [if_neg hauthority] at hsuccessor
  split at hstate
  · cases hstate
  rename_i hconflicts
  rw [if_neg hconflicts] at hsuccessor
  split at hstate
  · cases hstate
  rename_i hmode
  rw [if_neg hmode] at hsuccessor
  refine ⟨not_not.mp hauthority, ?_⟩
  unfold hostVerdict at hstate hsuccessor
  split at hstate
  · rename_i peer hfind
    rw [hfind] at hsuccessor
    have htest := List.find?_some hfind
    simp only [Bool.and_eq_true] at htest
    exact ⟨peer, List.mem_of_find?_eq_some hfind, Option.some.inj hsuccessor, htest.2⟩
  · split at hstate
    · cases hstate
    · -- None of the remaining verdicts is a safe one.
      unfold blockedVerdict at hstate
      simp only [HostReadinessVerdict.refuse] at hstate
      split_ifs at hstate

/-- What the report says about a member is what is remembered of it. -/
theorem mem_hostPeers {peer : HostPeerReadiness}
    (hpeer : peer ∈ hostPeers C localPeer descriptor epoch latest
      (peerReadinessObservations descriptor localPeer runtime now))
    (hquorum : peer.recoveryQuorumWithoutAuthority = true) :
    (∃ member ∈ descriptor.members, member.peerId = peer.peerId) ∧
      ∃ observed, runtime.peerCapability peer.peerId = some observed ∧
        observed.capability.recoveryQuorumWithoutAuthority = true := by
  rw [hostPeers, List.mem_insertionSort, List.mem_map] at hpeer
  obtain ⟨member, hmember, rfl⟩ := hpeer
  refine ⟨⟨member, (List.mem_filter.mp hmember).1, rfl⟩, ?_⟩
  simp only [hostPeerReadiness] at hquorum ⊢
  cases hfind : (peerReadinessObservations descriptor localPeer runtime now).find? fun value =>
      decide (value.peerId = member.peerId) with
  | none =>
    rw [hfind] at hquorum
    cases hquorum
  | some observation =>
    rw [hfind] at hquorum
    have htest := List.find?_some hfind
    obtain ⟨other, _, rfl⟩ := List.mem_map.mp (List.mem_of_find?_eq_some hfind)
    have hid : other.peerId = member.peerId := of_decide_eq_true htest
    simp only [Option.any_eq_true, Option.bind_some, Bool.and_eq_true] at hquorum
    obtain ⟨capability, hcapability, _, hflag⟩ := hquorum
    rw [hid, LeaseRuntime.freshCapability] at hcapability
    obtain ⟨observed, hobserved, rfl⟩ := Option.map_eq_some_iff.mp hcapability
    exact ⟨observed, (Option.filter_eq_some_iff.mp hobserved).1, hflag⟩

/-- A safe report is the evaluation of the stored world. -/
theorem evaluateFromStorage_safe {store : Store}
    {world : WorldId} {observations : List PeerReadinessObservation}
    {unixMillis : Nat} {report : HostReadinessReport}
    (h : evaluateFromStorage C display store localPeer world observations unixMillis = .ok report)
    (hsafe : report.state = .safe) :
    ∃ descriptor epoch latest, loadWorldDescriptor world store = .ok descriptor ∧
      loadEpochRecord world store = .ok epoch ∧ latestSnapshot store = .ok (some latest) ∧
      report = evaluateHostReadiness C localPeer descriptor epoch latest
        (!store.soloConflicts.isEmpty) observations unixMillis := by
  unfold evaluateFromStorage at h
  split at h
  · obtain rfl := pure_eq_ok.mp h
    cases hsafe
  rename_i descriptor hdescriptor
  split at h
  · obtain rfl := pure_eq_ok.mp h
    cases hsafe
  rename_i epoch hepoch
  split at h
  · obtain rfl := pure_eq_ok.mp h
    cases hsafe
  simp only [bind_eq_ok, ofStorage_eq_ok] at h
  obtain ⟨head, hhead, h⟩ := h
  split at h
  · obtain rfl := pure_eq_ok.mp h
    cases hsafe
  rename_i latest
  split at h
  · obtain rfl := pure_eq_ok.mp h
    cases hsafe
  split at h
  · obtain rfl := pure_eq_ok.mp h
    cases hsafe
  exact ⟨descriptor, epoch, latest, hdescriptor, hepoch, hhead, (pure_eq_ok.mp h).symm⟩

/-- The status was reported at exactly this epoch and snapshot. -/
structure WorldStatusV1.At (C : Crypto) (status : WorldStatusV1) (epoch : EpochRecordV1)
    (latest : SnapshotManifestV1) : Prop where
  epoch : status.epoch = epoch.epochNumber
  sequence : status.sequence = latest.sequence
  latestSnapshot : status.latestSnapshot = some (latest.manifestHash C)
  stateHash : status.stateHash = some latest.stateRoot

/-- The members that are not banned. -/
def activePeers (members : List WorldMemberV1) : Finset PeerId :=
  ((members.filter fun member => !member.banned).map WorldMemberV1.peerId).toFinset

variable (C F members) in
/-- At the moment the successor was on the epoch and the snapshot, and held statuses at exactly
these from enough other members, without the host, to be a majority together with itself. -/
structure Moment.Backed (moment : Moment) (host successor : PeerId) (epoch : EpochRecordV1)
    (latest : SnapshotManifestV1) : Prop where
  accepted : loadEpochRecord F.world moment.node.store = .ok epoch
  head : latestSnapshot moment.node.store = .ok (some latest)
  quorum : ∃ others : Finset PeerId, host ∉ others ∧ successor ∉ others ∧
    (∀ other ∈ others, ∃ status,
      moment.node.runtime.freshStatus other moment.now = some status ∧ status.At C epoch latest) ∧
    Quorum.Majority (activePeers members) (insert successor others)

/-- The quorum that a member finds without the authority. -/
theorem majority_of_survivingRecoveryQuorum (hordered : strictPeerOrder descriptor.members = true)
    (h : survivingRecoveryQuorum C descriptor epoch latest localPeer runtime now = true) :
    ∃ others : Finset PeerId, epoch.authorityPeerId ∉ others ∧ localPeer ∉ others ∧
      (∀ other ∈ others, ∃ status,
        runtime.freshStatus other now = some status ∧ status.At C epoch latest) ∧
      Quorum.Majority (activePeers descriptor.members) (insert localPeer others) := by
  unfold survivingRecoveryQuorum at h
  split at h
  · cases h
  rename_i member hmember
  simp only [Bool.and_eq_true, decide_eq_true_eq, Bool.not_eq_true'] at h
  obtain ⟨⟨⟨_, hbanned⟩, _⟩, hquorum⟩ := h
  set survivors := descriptor.active.filter fun other =>
    decide (other.peerId ≠ localPeer) && decide (other.peerId ≠ epoch.authorityPeerId)
      && runtime.connected other.peerId
      && (runtime.freshStatus other.peerId now).any fun status =>
        statusMatchesCanonical C status descriptor epoch latest with hsurvivors
  have hmem {peer : PeerId} (hpeer : peer ∈ (survivors.map WorldMemberV1.peerId).toFinset) :
      ∃ other ∈ descriptor.active, other.peerId = peer ∧ peer ≠ localPeer ∧
        peer ≠ epoch.authorityPeerId ∧ ∃ status, runtime.freshStatus peer now = some status ∧
          statusMatchesCanonical C status descriptor epoch latest = true := by
    obtain ⟨other, hother, rfl⟩ := List.mem_map.mp (List.mem_toFinset.mp hpeer)
    simp only [hsurvivors, List.mem_filter, Bool.and_eq_true, decide_eq_true_eq,
      Option.any_eq_true] at hother
    obtain ⟨hactive, ⟨⟨hlocal, hhost⟩, _⟩, hstatus⟩ := hother
    exact ⟨other, hactive, rfl, hlocal, hhost, hstatus⟩
  have hnodup : (descriptor.active.map WorldMemberV1.peerId).Nodup :=
    (nodup_of_strict hordered).sublist (List.filter_sublist.map _)
  have hcount : (survivors.map WorldMemberV1.peerId).toFinset.card = survivors.length := by
    rw [List.toFinset_card_of_nodup (hnodup.sublist (List.filter_sublist.map _)), List.length_map]
  have hself : localPeer ∉ (survivors.map WorldMemberV1.peerId).toFinset := by
    intro hpeer
    obtain ⟨_, _, _, hne, _⟩ := hmem hpeer
    exact hne rfl
  refine ⟨(survivors.map WorldMemberV1.peerId).toFinset, ?_, hself, ?_, ?_⟩
  · intro hpeer
    obtain ⟨_, _, _, _, hne, _⟩ := hmem hpeer
    exact hne rfl
  · intro peer hpeer
    obtain ⟨_, _, _, _, _, status, hstatus, hmatches⟩ := hmem hpeer
    simp only [statusMatchesCanonical, Bool.and_eq_true, decide_eq_true_eq] at hmatches
    obtain ⟨⟨⟨⟨⟨_, hnumber⟩, hsequence⟩, hhash⟩, hstate⟩, _⟩ := hmatches
    exact ⟨status, hstatus, hnumber, hsequence, hhash, hstate⟩
  · have hcard : (activePeers descriptor.members).card = descriptor.active.length := by
      change (descriptor.active.map WorldMemberV1.peerId).toFinset.card = _
      rw [List.toFinset_card_of_nodup hnodup, List.length_map]
    refine majority_of_hasQuorum hcard ?_ hquorum ?_
    · intro peer hpeer
      rw [activePeers, List.mem_toFinset]
      rcases Finset.mem_insert.mp hpeer with rfl | hother
      · have htest := List.find?_some hmember
        have hid : member.peerId = peer := of_decide_eq_true htest
        refine List.mem_map.mpr ⟨member, List.mem_filter.mpr ⟨?_, by simp [hbanned]⟩, hid⟩
        exact List.mem_of_find?_eq_some hmember
      · obtain ⟨other, hactive, hid, _⟩ := hmem hother
        exact List.mem_map.mpr ⟨other, hactive, hid⟩
    · rw [Finset.card_insert_of_notMem hself, hcount]
      omega

/-- A member that reported the quorum was backed by one at the epoch and snapshot it was on, without
the authority of that epoch. -/
theorem Reported.backed {moment : Moment} {capability : HostCapabilityV1}
    (hmember : F.honest successor) (hlisted : ∃ member ∈ members, member.peerId = successor)
    (hreported : Reported F members successor moment (some capability))
    (hflag : capability.recoveryQuorumWithoutAuthority = true) :
    ∃ epoch latest, moment.Backed C F members epoch.authorityPeerId successor epoch latest := by
  obtain ⟨quorum, hquorum, hcapability⟩ := hreported.computed
  obtain rfl : quorum = true := by
    simp only [localHostCapability] at hcapability
    obtain ⟨base, _, rfl⟩ := Option.map_eq_some_iff.mp hcapability.symm
    exact hflag
  unfold localRecoveryQuorumWithoutAuthority at hquorum
  split at hquorum
  · rename_i descriptor record hdescriptor hrecord
    simp only [bind_eq_ok, ofStorage_eq_ok] at hquorum
    obtain ⟨_ | latest, hhead, hquorum⟩ := hquorum
    · cases hquorum
    have hsite : (F.siteAt successor moment.now).peer C = successor := F.key_spec successor hmember
    rw [pure_eq_ok, hsite] at hquorum
    have hordered := (WorldDescriptorV1.validateSemantics_eq_ok.mp
      (loadWorldDescriptor_eq_ok.mp hdescriptor).2.2).2.2
    have hmembers := hreported.settled hlisted descriptor hdescriptor
    obtain ⟨others, hauthority, hself, hstatus, hmajority⟩ :=
      majority_of_survivingRecoveryQuorum hordered hquorum
    rw [hmembers] at hmajority
    exact ⟨record, latest, hrecord, hhead, others, hauthority, hself, hstatus, hmajority⟩
  · cases pure_eq_ok.mp hquorum

/-- What a report says in short: its state and the successor it names. -/
def HostReadinessReport.verdict (report : HostReadinessReport) :
    HostReadinessState × Option PeerId :=
  (report.state, report.successorPeerId)

variable (C F) in
/-- The report that a peer publishes now, and its node after the part of the tick up to it. -/
def System.published (display : DaemonError → String) (s : System) (host : PeerId) :
    Except DaemonError HostReadinessReport × Exec :=
  publishedReport C (s.site C F host) display (Exec.start (s.nodes host))

/-- A published report is the evaluation of the node that it leaves. -/
theorem published_eq_ok
    {report : HostReadinessReport} (h : (s.published C F display host).1 = .ok report) :
    Unlearned (Exec.start (s.nodes host)) (s.published C F display host).2 ∧
      evaluateFromStorage C display (s.published C F display host).2.node.store
        ((s.site C F host).peer C) F.world
        (match loadWorldDescriptor F.world (s.published C F display host).2.node.store with
          | .ok descriptor => peerReadinessObservations descriptor ((s.site C F host).peer C)
              (s.published C F display host).2.node.runtime s.clock
          | .error _ => [])
        (s.published C F display host).2.node.host.unixMillis = .ok report := by
  have hrun : publishedReport C (s.site C F host) display (Exec.start (s.nodes host)) =
      (.ok report, (s.published C F display host).2) := Prod.ext h rfl
  rw [publishedReport, run_bind] at hrun
  obtain ⟨_, t, hrecovered, hreport⟩ := hrun
  have hunlearned : Always Unlearned (recoverCommittedMembership C (s.site C F host)) :=
    frames_unlearned.always (List.Subset.refl File.apply)
  obtain ⟨heval, rfl⟩ := run_check.mp hreport
  exact ⟨hunlearned.of_run hrecovered, heval⟩

/-- A safe report names a member whose capability was computed at some moment, where a surviving
quorum was at the epoch record and the snapshot that the member was on. It is one at the host's
epoch and snapshot exactly when these are the same ones. -/
theorem safe_report_backed_iff {display : DaemonError → String} (hs : s.Initial)
    (hrun : Run (Watch.Step C F members) (.start s) w)
    (hmembers : ∀ member ∈ members, F.honest member.peerId) {host successor : PeerId}
    (hhost : F.honest host)
    (hsafe : (w.system.published C F display host).1.map HostReadinessReport.verdict =
      .ok (.safe, some successor)) {epoch : EpochRecordV1} {latest : SnapshotManifestV1}
    (hdescribed : ∀ descriptor, loadWorldDescriptor F.world
      (w.system.published C F display host).2.node.store = .ok descriptor →
        descriptor.members = members)
    (haccepted : loadEpochRecord F.world (w.system.published C F display host).2.node.store =
      .ok epoch)
    (hhead : latestSnapshot (w.system.published C F display host).2.node.store =
      .ok (some latest)) :
    ∃ moment observed, w.origin host successor = some moment ∧
      (w.system.nodes host).runtime.peerCapability successor = some observed ∧
      observed.capability.recoveryQuorumWithoutAuthority = true ∧
      Reported F members successor moment (some observed.capability) ∧
      ∃ own head, moment.Backed C F members own.authorityPeerId successor own head ∧
        (moment.Backed C F members host successor epoch latest ↔ own = epoch ∧ head = latest) := by
  obtain ⟨report, hreport, hstate, hsuccessor⟩ : ∃ report,
      (w.system.published C F display host).1 = .ok report ∧ report.state = .safe ∧
        report.successorPeerId = some successor := by
    cases hreport : (w.system.published C F display host).1 with
    | error error =>
      rw [hreport] at hsafe
      cases hsafe
    | ok report =>
      rw [hreport] at hsafe
      obtain ⟨hstate, hsuccessor⟩ := Prod.mk.inj (Except.ok.inj hsafe)
      exact ⟨report, rfl, hstate, hsuccessor⟩
  obtain ⟨hunlearned, heval⟩ := published_eq_ok hreport
  obtain ⟨descriptor, record, head, hdescriptor, hrecord, hlatest, rfl⟩ :=
    evaluateFromStorage_safe heval hstate
  obtain rfl : record = epoch := Except.ok.inj (hrecord.symm.trans haccepted)
  obtain rfl : head = latest := Option.some.inj (Except.ok.inj (hlatest.symm.trans hhead))
  have hmembers' := hdescribed descriptor hdescriptor
  obtain ⟨hauthority, peer, hpeer, rfl, hquorum⟩ := hostVerdict_safe hstate hsuccessor
  rw [hdescriptor] at hpeer
  obtain ⟨hlisted, observed, hobserved, hflag⟩ := mem_hostPeers hpeer hquorum
  rw [hmembers'] at hlisted
  have hhonest : F.honest peer.peerId := by
    obtain ⟨member, hmember, hid⟩ := hlisted
    exact hid ▸ hmembers member hmember
  have hremembered := hunlearned _ _ hobserved
  obtain ⟨moment, horigin, hreported⟩ :=
    (Watch.Sound.run hs hrun).remembered host peer.peerId observed hhonest hremembered
  obtain ⟨own, ownHead, hown⟩ := hreported.backed hhonest hlisted hflag
  refine ⟨moment, observed, horigin, hremembered, hflag, hreported, own, ownHead, hown, ?_, ?_⟩
  · intro hbacked
    exact ⟨Except.ok.inj (hown.accepted.symm.trans hbacked.accepted),
      Option.some.inj (Except.ok.inj (hown.head.symm.trans hbacked.head))⟩
  · rintro ⟨rfl, rfl⟩
    rw [F.site_peer hhost] at hauthority
    exact hauthority ▸ hown

/-! ## Runs -/

/-- The first place of the delivered report among the packets that were sent. -/
def Watch.place (w : Watch) (act : Act) : Nat :=
  match act.report w.system with
  | some packet => w.stamped.findIdx fun entry => decide (entry.1 = packet)
  | none => 0

variable (C F members) in
/-- The whole schedule can happen. -/
def Watch.Plays (w : Watch) : List Cue → Prop
  | [] => True
  | cue :: cues => w.Allows C F members (cue w.system) (w.place (cue w.system)) ∧
      (w.perform C F (cue w.system) (w.place (cue w.system))).Plays cues

variable (C F) in
/-- What the whole schedule leads to. -/
def Watch.play (w : Watch) : List Cue → Watch
  | [] => w
  | cue :: cues => (w.perform C F (cue w.system) (w.place (cue w.system))).play cues

/-- A schedule that can happen is a run. -/
theorem Watch.Plays.run {cues : List Cue} (h : w.Plays C F members cues) :
    Run (Watch.Step C F members) w (w.play C F cues) := by
  induction cues generalizing w with
  | nil => exact .refl
  | cons cue cues ih => exact .head ⟨_, _, h.1, rfl⟩ (ih h.2)

instance [DecidablePred F.honest] (act : Act) (index : Nat) :
    Decidable (w.Allows C F members act index) :=
  have : Decidable (w.system.Settled C F members) := inferInstanceAs (Decidable
    (∀ member ∈ members, ((optional (loadWorldDescriptor F.world
      (w.system.nodes member.peerId).store)).all fun descriptor =>
        decide (descriptor.members = members)) = true))
  have : Decidable (∀ packet ∈ act.report w.system, F.honest packet.src →
      w.stamped[index]?.map Prod.fst = some packet) :=
    match act.report w.system with
    | none => isTrue (by simp)
    | some packet => decidable_of_iff (F.honest packet.src →
        w.stamped[index]?.map Prod.fst = some packet) (by simp)
  inferInstanceAs (Decidable (_ ∧ _ ∧ _))

/-- Whether a schedule can happen is found by playing it. -/
def Watch.decidePlays [DecidablePred F.honest] :
    (cues : List Cue) → (w : Watch) → Decidable (w.Plays C F members cues)
  | [], _ => isTrue trivial
  | cue :: cues, w =>
    have := Watch.decidePlays cues (w.perform C F (cue w.system) (w.place (cue w.system)))
    inferInstanceAs (Decidable (w.Allows C F members (cue w.system) (w.place (cue w.system)) ∧
      (w.perform C F (cue w.system) (w.place (cue w.system))).Plays C F members cues))

instance [DecidablePred F.honest] (cues : List Cue) : Decidable (w.Plays C F members cues) :=
  Watch.decidePlays cues w

/-- The second member learns that the third one is on the first snapshot, and reports its host
capability to the first one. -/
def quorumReported : List Cue :=
  connect second third ++ connect first second ++ [tick second, hand second third 1,
      hand third second 0, tick first, hand first second 1, hand second first 0]

/-- The second member then reports its status. -/
def statusReported : List Cue :=
  quorumReported ++ [hand first second 2, hand second first 0]

/-- The first member commits another snapshot, which reaches the second one only, before that one
reports its status. -/
def statusReportedLate : List Cue :=
  quorumReported ++ [fun _ => .input first (.command (.snapshot 1 1 [])),
    fun _ => .input first (.authenticated second), hand first second 0, hand first second 5,
    hand second first 0]

/-- The state of a founded world of three members after a schedule. -/
def Founding.watched (cues : List Cue) : Watch :=
  (Watch.start ((numbered 3).system .ideal)).play .ideal (numbered 3).fleet cues

/-- With no commit between the two reports the quorum is the one that was counted. -/
theorem safe_report_backed_founding :
    let f := numbered 3
    let w := Founding.watched statusReported
    Run (Watch.Step .ideal f.fleet (f.members .ideal)) (.start (f.system .ideal)) w ∧
      (w.system.published .ideal f.fleet (fun _ => "") first).1.map
        HostReadinessReport.verdict = .ok (.safe, some second) ∧
      ∃ moment, w.origin first second = some moment ∧
        moment.Backed .ideal f.fleet (f.members .ideal) first second
          (f.epoch .ideal) (f.snapshot .ideal) := by
  intro f w
  have hrun : Run (Watch.Step .ideal f.fleet (f.members .ideal)) (.start (f.system .ideal)) w :=
    Watch.Plays.run (by decide +kernel)
  have hsafe : (w.system.published .ideal f.fleet (fun _ => "") first).1.map
      HostReadinessReport.verdict = .ok (.safe, some second) := by decide +kernel
  have hdescribed : optional (loadWorldDescriptor f.fleet.world
      (w.system.published .ideal f.fleet (fun _ => "") first).2.node.store) =
        some (f.descriptor .ideal) := by decide +kernel
  have hmoment : (w.origin first second).map (fun moment =>
      (loadEpochRecord f.fleet.world moment.node.store, latestSnapshot moment.node.store)) =
        some (.ok (f.epoch .ideal), .ok (some (f.snapshot .ideal))) := by decide +kernel
  have haccepted : loadEpochRecord f.fleet.world (w.system.published .ideal f.fleet (fun _ => "")
      first).2.node.store = .ok (f.epoch .ideal) := by decide +kernel
  have hhead : latestSnapshot (w.system.published .ideal f.fleet (fun _ => "")
      first).2.node.store = .ok (some (f.snapshot .ideal)) := by decide +kernel
  obtain ⟨moment, _, horigin, _, _, _, own, head, hown, hbacked⟩ := safe_report_backed_iff
    (f.system_initial .ideal) hrun (fun _ _ => trivial) trivial hsafe
    (fun descriptor hload => by
      rw [hload] at hdescribed
      rw [Option.some.inj hdescribed]
      rfl) haccepted hhead
  rw [horigin] at hmoment
  obtain ⟨hepoch, hsnapshot⟩ := Prod.mk.inj (Option.some.inj hmoment)
  refine ⟨hrun, hsafe, moment, horigin, hbacked.mpr ⟨?_, ?_⟩⟩
  · exact Except.ok.inj (hown.accepted.symm.trans hepoch)
  · exact Option.some.inj (Except.ok.inj (hown.head.symm.trans hsnapshot))

/-- A commit between the two reports: the report is safe, but only the successor has the new
snapshot. -/
theorem safe_report_not_backed :
    let f := numbered 3
    let w := Founding.watched statusReportedLate
    let published := w.system.published .ideal f.fleet (fun _ => "") first
    Run (Watch.Step .ideal f.fleet (f.members .ideal)) (.start (f.system .ideal)) w ∧
      published.1.map HostReadinessReport.verdict = .ok (.safe, some second) ∧
      loadEpochRecord f.fleet.world published.2.node.store = .ok (f.epoch .ideal) ∧
      ∃ moment latest, w.origin first second = some moment ∧
        latestSnapshot published.2.node.store = .ok (some latest) ∧
        ¬ moment.Backed .ideal f.fleet (f.members .ideal) first second
          (f.epoch .ideal) latest := by
  intro f w published
  have hrun : Run (Watch.Step .ideal f.fleet (f.members .ideal)) (.start (f.system .ideal)) w :=
    Watch.Plays.run (by decide +kernel)
  have hheads : ((w.origin first second).map fun moment =>
      latestSnapshot moment.node.store) = some (.ok (some (f.snapshot .ideal))) ∧
      (latestSnapshot published.2.node.store).map (Option.map SnapshotManifestV1.sequence) =
        .ok (some 1) := by decide +kernel
  obtain ⟨hmoment, hlatest⟩ := hheads
  refine ⟨hrun, by decide +kernel, by decide +kernel, ?_⟩
  cases horigin : w.origin first second with
  | none =>
    rw [horigin] at hmoment
    cases hmoment
  | some moment =>
    cases hhead : latestSnapshot published.2.node.store with
    | error error =>
      rw [hhead] at hlatest
      cases hlatest
    | ok head =>
      cases head with
      | none =>
        rw [hhead] at hlatest
        cases hlatest
      | some latest =>
        refine ⟨moment, latest, rfl, rfl, fun hbacked => ?_⟩
        -- The reported snapshot has sequence number 0, the one of the host has 1.
        rw [horigin] at hmoment
        rw [hhead] at hlatest
        obtain rfl : f.snapshot .ideal = latest :=
          Option.some.inj (Except.ok.inj ((Option.some.inj hmoment).symm.trans hbacked.head))
        cases hlatest

end SwarmCraft
