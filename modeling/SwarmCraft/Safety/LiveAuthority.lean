import SwarmCraft.Safety.Past

/-!
# Live authorities

An authority is live while it could refresh its permit. Acknowledged leases hold recovery
back for a while, but a voter that has already promised a successor still acknowledges
leases of the old authority, and an acknowledgement may arrive late. Two authorities can
therefore be live at once; where votes, leases and handovers keep out of each other's way,
at most one is.
-/

namespace SwarmCraft

open Checked Transition Quorum History
open Founding (first second third numbered gather canvass system_initial)

variable {C : Crypto} {F : Fleet C} {s t : System}
variable {p : PeerId} {record : EpochRecordV1} {A : Finset PeerId}

/-- The accepted record names the local peer in a mode that needs a quorum, and the quorums under
which `maintain_local_authority` refreshes the permit stand. -/
def Node.live (C : Crypto) (site : Site) (node : Node) : Bool :=
  match loadEpochRecord site.world node.store, loadWorldDescriptor site.world node.store with
  | .ok record, .ok descriptor =>
    decide (record.authorityPeerId = site.peer C) && decide (record.mode ≠ .solo)
      && leaseQuorum C site descriptor record.generation node.runtime
      && (decide (record.mode ≠ .recovery)
        || recoveryEpochQuorum C site descriptor record.generation node.runtime)
  | _, _ => false

theorem Node.live_spec {site : Site} {node : Node} (h : node.live C site = true) :
    ∃ record descriptor, loadEpochRecord site.world node.store = .ok record ∧
      loadWorldDescriptor site.world node.store = .ok descriptor ∧
      record.authorityPeerId = site.peer C ∧
      leaseQuorum C site descriptor record.generation node.runtime = true := by
  unfold Node.live at h
  split at h
  · rename_i record descriptor hrecord hdescriptor
    simp only [Bool.and_eq_true, decide_eq_true_eq] at h
    exact ⟨record, descriptor, hrecord, hdescriptor, h.1.1.1, h.1.2⟩
  · cases h

/-! ## What keeps votes, leases and handovers apart -/

/-- What keeps recovery votes, leases and handovers apart, at an event of a peer. -/
def Event.Orderly (s : System) (peer : PeerId) (node : Node) (time : Nat) : Event → Prop
  | .acceptedLease generation _ =>
    -- No lease is acknowledged by a peer that promised to replace its generation.
    ∀ promise, node.store.recoveryPromise = .present promise → promise.ballot.base ≠ generation
  | .confirmedLease other generation =>
    -- An acknowledgement arrives within the settle delay.
    ∃ given ∈ s.logs other, given.event = .acceptedLease generation peer ∧
      time ≤ given.time + recoverySettleDelay
  | .votedRecovery _ _ wake =>
    -- A recovery vote waits for the lease to run out, and it is not the authority's own.
    wake = false ∧ ∀ record, node.store.epoch = .present record → record.authorityPeerId ≠ peer
  | .storedEpoch next =>
    -- A record of another mode is stored by the authority that it replaces, after the lease of
    -- that authority has run out, or after that authority has stored a later one.
    next.mode ≠ .recovery → ∀ record, node.store.epoch = .present record →
      record.authorityPeerId = peer ∨
        recoveryWindowOpen node.runtime record.generation time = true ∨
        ∃ left ∈ s.logs record.authorityPeerId, left.time ≤ time ∧
          left.event.stores (fun later => decide (record.generation < later.generation)) = true
  | _ => True

/-- The members keep recovery votes, leases and handovers apart. -/
def System.Orderly (s : System) (V : List PeerId) : Prop :=
  ∀ peer ∈ V, ∀ stamp ∈ s.logs peer, stamp.event.Orderly s peer stamp.node stamp.time

instance (peer : PeerId) (node : Node) (time : Nat) :
    (event : Event) → Decidable (event.Orderly s peer node time)
  | .acceptedLease _ _ => by dsimp only [Event.Orderly]; infer_instance
  | .confirmedLease _ _ => by dsimp only [Event.Orderly]; infer_instance
  | .votedRecovery _ _ _ => by dsimp only [Event.Orderly]; infer_instance
  | .storedEpoch _ => by dsimp only [Event.Orderly]; infer_instance
  | .votedMembership _ _ => isTrue trivial
  | .refreshedPermit _ => isTrue trivial

instance (V : List PeerId) : Decidable (s.Orderly V) :=
  inferInstanceAs (Decidable
    (∀ peer ∈ V, ∀ stamp ∈ s.logs peer, stamp.event.Orderly s peer stamp.node stamp.time))

/-! ## Leases behind a live authority -/

/-- A lease of a generation was acknowledged to an authority, and its time and the settle delay
have not run out. -/
def System.LeaseHeld (s : System) (peer : PeerId) (generation : AuthorityGeneration)
    (authority : PeerId) : Prop :=
  ∃ stamp ∈ s.logs peer, stamp.event = .acceptedLease generation authority ∧
    s.clock < stamp.time + authorityLeaseDurationMs + recoverySettleDelay

/-- The record of a live authority, with the majority that holds its leases. -/
structure System.Reigns (s : System) (F : Fleet C) (V : List PeerId) (peer : PeerId)
    (record : EpochRecordV1) (A : Finset PeerId) : Prop where
  accepted : loadEpochRecord F.world (s.nodes peer).store = .ok record
  authority : record.authorityPeerId = peer
  majority : Majority V.toFinset A
  held : ∀ holder ∈ A, holder = peer ∨ s.LeaseHeld holder record.generation peer

section Exclusion

variable (hrun : Run (Step C F) s t) (hs : s.Initial) {V : List PeerId}
include hrun hs

/-- A live authority reigns: its fresh acknowledgements are leases that have not run out. -/
theorem reigns_of_live (hdistinct : V.Nodup) (hhonest : ∀ peer ∈ V, F.honest peer)
    (hroster : t.FixedRoster F V) (horderly : t.Orderly V) (hp : p ∈ V)
    (hlive : (t.nodes p).live C (t.site C F p) = true) : ∃ record A, t.Reigns F V p record A := by
  obtain ⟨record, descriptor, haccepted, hdescribed, hauthority, hquorum⟩ := Node.live_spec hlive
  have hself : (t.site C F p).peer C = p := Fleet.site_peer (hhonest p hp)
  have hids := (hroster.current p hp).descriptor descriptor hdescribed
  have hmember : (t.site C F p).peer C ∈ V := by rwa [hself]
  obtain ⟨A, hmajority, hfresh⟩ := majority_of_confirmed hids hdistinct hmember hquorum
  rw [hself] at hfresh hauthority
  refine ⟨record, A, haccepted, hauthority, hmajority, fun holder hholder => ?_⟩
  rcases hfresh holder hholder with rfl | hack
  · exact .inl rfl
  · obtain ⟨ack, hack, hgeneration, hyoung⟩ := leaseFresh_eq_true.mp hack
    obtain ⟨confirmed, hconfirmed, htold, htime⟩ :=
      (Run.acksConfirmed hrun hs p).1 holder ack hack
    have hprompt := horderly p hp confirmed hconfirmed
    rw [htold, Event.Orderly] at hprompt
    obtain ⟨given, hgiven, hevent, hprompt⟩ := hprompt
    have hpast := (Run.marked hrun hs p).times confirmed hconfirmed
    have hclock : (t.site C F p).now = t.clock := rfl
    rw [hclock] at hyoung
    refine .inr ⟨given, hgiven, hgeneration ▸ hevent, ?_⟩
    omega

/-! ## Leaving a generation under a lease -/

/-- A voter with a lease that has not run out did not vote on its generation. -/
theorem not_voted_of_leaseHeld (horderly : t.Orderly V) {voter authority : PeerId}
    (hvoter : voter ∈ V) {generation : AuthorityGeneration} {value : PeerId × Hash32}
    (hheld : t.LeaseHeld voter generation authority) :
    ¬ VotedFor (t.logs voter) generation value := by
  rintro ⟨cast, hcast, ballot, vote, wake, hevent, hbase, hvalue⟩
  obtain ⟨lease, hlease, hlent, hclock⟩ := hheld
  have hmarked := Run.marked hrun hs voter
  obtain ⟨record, hload, hgeneration, _⟩ := (Run.justified hrun hs hlease).acceptedLease hlent
  rcases hmarked.marks.related hlease hcast with rfl | hbefore | hafter
  · rw [hlent] at hevent
    cases hevent
  · -- The lease came first: the vote waited for it to run out.
    have hvote := horderly voter hvoter cast hcast
    rw [hevent, Event.Orderly] at hvote
    obtain ⟨hvotable, _⟩ := (Run.justified hrun hs hcast).votedRecovery hevent
    obtain ⟨current, hcurrent⟩ := hvotable.accepted
    have hopen := (hvotable.expired hvote.1 current hcurrent).2
    have hfloor := (hbefore.lease generation authority hlent).of_window hopen
    have hpast := hmarked.times cast hcast
    change lease.time + authorityLeaseDurationMs + recoverySettleDelay ≤ cast.time at hfloor
    omega
  · -- The vote came first: its promise is still stored, or the generation was left.
    rcases hafter.voted ballot vote wake hevent with hlocked | ⟨later, hlater, hpast⟩
    · obtain ⟨promise, hpromise, hlockedBase, _⟩ := promisedValue_eq_some hlocked
      have hfree := horderly voter hvoter lease hlease
      rw [hlent, Event.Orderly] at hfree
      exact hfree promise hpromise (hlockedBase.trans hbase)
    · have hfile := (loadEpochRecord_eq_ok.mp hload).1
      rw [hfile, DurableFile.present.injEq] at hlater
      subst hlater
      have hepoch := congrArg AuthorityGeneration.epoch (hbase.trans hgeneration.symm)
      change ballot.base.epoch = record.epochNumber at hepoch
      omega

/-- Nobody votes to replace a reigning authority: each of its majority would have to. -/
theorem not_certified_of_reigns (horderly : t.Orderly V)
    (hreigns : t.Reigns F V p record A) {voter : PeerId} (hvoter : voter ∈ A)
    {value : PeerId × Hash32} : ¬ VotedFor (t.logs voter) record.generation value := by
  have hmember : voter ∈ V := List.mem_toFinset.mp (hreigns.majority.subset hvoter)
  rcases hreigns.held voter hvoter with rfl | hheld
  · -- The authority accepted its own record when it voted, which it may not do.
    rintro ⟨cast, hcast, ballot, vote, wake, hevent, hbase, _⟩
    have hvote := horderly voter hmember cast hcast
    rw [hevent, Event.Orderly] at hvote
    obtain ⟨hvotable, _⟩ := (Run.justified hrun hs hcast).votedRecovery hevent
    obtain ⟨current, hcurrent⟩ := hvotable.accepted
    obtain ⟨hepoch, htoken⟩ := hvotable.base.epoch current hcurrent
    have hfile := (loadEpochRecord_eq_ok.mp hcurrent).1
    have hsame : current.generation = record.generation := by
      rw [← hbase, EpochRecordV1.generation, RecoveryBallotV1.base, hepoch, htoken]
    have hrecord : current = record :=
      (Run.marked hrun hs voter).accepted_unique (.inr ⟨cast, hcast, hfile⟩)
        (.inl (loadEpochRecord_eq_ok.mp hreigns.accepted).1) hsame
    exact hvote.2 current hfile (hrecord ▸ hreigns.authority)
  · exact not_voted_of_leaseHeld hrun hs horderly hmember hheld

/-- A certificate on the generation of a reigning authority cannot have been accepted. -/
theorem not_recovered_of_reigns (hhonest : ∀ peer ∈ V, F.honest peer)
    (hroster : t.FixedRoster F V) (horderly : t.Orderly V)
    (hreigns : t.Reigns F V p record A) {peer : PeerId} (hpeer : peer ∈ V)
    {stamp : Stamp} (hstamp : stamp ∈ t.logs peer) {next : EpochRecordV1}
    (hevent : stamp.event = .storedEpoch next) {held : EpochRecordV1}
    (hload : loadEpochRecord F.world stamp.node.store = .ok held)
    (hgeneration : held.generation = record.generation) : next.mode ≠ .recovery := by
  intro hmode
  obtain ⟨heard, certificate, hrecovered, _, hshape, hunforged⟩ :=
    Run.recovered_fixed hrun hs (hroster.past peer hpeer stamp hstamp) hstamp hevent hmode
  have hvoters := RecoveryCertificateV1.voters_majority (List.ne_nil_of_mem hpeer) hshape
  obtain ⟨voter, hvoter, hcertified⟩ := hreigns.majority.meet hvoters
  have hcast := votedFor_of_certificate hrun hs hhonest hshape hrecovered.signed hunforged hcertified
  have hbase : certificate.ballot.base = record.generation :=
    (hrecovered.base_eq hload).trans hgeneration
  rw [hbase] at hcast
  exact not_certified_of_reigns hrun hs horderly hreigns hvoter hcast

/-- Whoever holds a lease of a reigning authority still accepts its generation. -/
theorem accepts_of_reigns (hhonest : ∀ peer ∈ V, F.honest peer) (hroster : t.FixedRoster F V)
    (horderly : t.Orderly V)
    (hreigns : t.Reigns F V p record A) {holder : PeerId} (hholder : holder ∈ A)
    (hne : holder ≠ p) : ∃ held, (t.nodes holder).store.epoch = .present held ∧
      held.generation = record.generation := by
  have hmember : holder ∈ V := List.mem_toFinset.mp (hreigns.majority.subset hholder)
  obtain ⟨lease, hlease, hlent, hclock⟩ := (hreigns.held holder hholder).resolve_left hne
  obtain ⟨held, hload, hgeneration, hauthority⟩ :=
    (Run.justified hrun hs hlease).acceptedLease hlent
  obtain ⟨hfile, hworld⟩ := loadEpochRecord_eq_ok.mp hload
  rcases Run.departs hrun hs holder held (.inr ⟨lease, hlease, hfile⟩) with
    hcurrent | ⟨left, hleft, next, hstored, hbefore⟩
  · exact ⟨held, hcurrent, hgeneration⟩
  exfalso
  have hmarked := Run.marked hrun hs holder
  have hleftLoad := loadEpochRecord_eq_ok.mpr ⟨hbefore, hworld⟩
  rcases hmarked.marks.related hlease hleft with rfl | hlater | hearlier
  · rw [hlent] at hstored
    cases hstored
  · -- The generation was left under the lease.
    have hmode := not_recovered_of_reigns hrun hs hhonest hroster horderly hreigns hmember hleft
      hstored hleftLoad hgeneration
    have hhandover := horderly holder hmember left hleft
    rw [hstored, Event.Orderly] at hhandover
    rcases hhandover hmode held hbefore with hown | hopen | ⟨moved, hmoved, _, hafter⟩
    · exact hne (hown.symm.trans hauthority)
    · have hfloor := (hlater.lease _ _ hlent).of_window hopen
      have hpast := hmarked.times left hleft
      omega
    · rw [hauthority] at hmoved
      obtain ⟨later, hevent, hlt⟩ := Event.stores_eq_true.mp hafter
      have hle := ((Run.marked hrun hs p).marks.current moved hmoved).stored later hevent
      change EpochLe _ (t.nodes p).store.epoch at hle
      rw [(loadEpochRecord_eq_ok.mp hreigns.accepted).1] at hle
      exact hle.not_lt (hgeneration ▸ of_decide_eq_true hlt)
  · -- A lease of a generation that was left before cannot have been acknowledged.
    have hle := hearlier.stored next hstored
    obtain ⟨heard, after, _, hrecorded⟩ := Run.justified hrun hs hleft
    rw [hstored] at hrecorded
    obtain ⟨hnumber, _⟩ := hrecorded.storedEpoch.follows held hleftLoad
    rw [hfile] at hle
    refine hle.not_lt (AuthorityGeneration.lt_iff.mpr (.inl ?_))
    change held.epochNumber < next.epochNumber
    omega

/-- A reigning authority is not behind another one. -/
theorem not_lt_of_reigns (hhonest : ∀ peer ∈ V, F.honest peer) (hroster : t.FixedRoster F V)
    (horderly : t.Orderly V) {q : PeerId} {other : EpochRecordV1} {B : Finset PeerId}
    (hp : t.Reigns F V p record A) (hq : t.Reigns F V q other B) :
    ¬ record.generation < other.generation := by
  intro hlt
  obtain ⟨holder, hA, hB⟩ := hp.majority.meet hq.majority
  -- The common member accepts the earlier generation and has accepted the later one.
  have hcurrent : ∃ held, (t.nodes holder).store.epoch = .present held ∧
      held.generation = record.generation := by
    by_cases hne : holder = p
    · subst hne
      exact ⟨record, (loadEpochRecord_eq_ok.mp hp.accepted).1, rfl⟩
    · exact accepts_of_reigns hrun hs hhonest hroster horderly hp hA hne
  have hpast : ∃ held, (t.peer holder).HasAccepted held ∧ held.generation = other.generation := by
    rcases hq.held holder hB with rfl | ⟨lease, hlease, hlent, _⟩
    · exact ⟨other, .inl (loadEpochRecord_eq_ok.mp hq.accepted).1, rfl⟩
    · obtain ⟨held, hload, hgeneration, _⟩ := (Run.justified hrun hs hlease).acceptedLease hlent
      exact ⟨held, .inr ⟨lease, hlease, (loadEpochRecord_eq_ok.mp hload).1⟩, hgeneration⟩
  obtain ⟨current, hfile, hgeneration⟩ := hcurrent
  obtain ⟨held, haccepted, hother⟩ := hpast
  have hle := (Run.marked hrun hs holder).accepted_le haccepted
  change EpochLe _ (t.nodes holder).store.epoch at hle
  rw [hfile] at hle
  exact hle.not_lt (by rwa [hgeneration, hother])

/-- Whoever holds a lease of a reigning authority has accepted it. -/
theorem backs_of_reigns
    (hreigns : t.Reigns F V p record A) {holder : PeerId} (hholder : holder ∈ A) :
    (t.peer holder).Backs record.generation p := by
  rcases hreigns.held holder hholder with rfl | ⟨lease, hlease, hlent, _⟩
  · exact ⟨record, .inl (loadEpochRecord_eq_ok.mp hreigns.accepted).1, rfl, hreigns.authority⟩
  · obtain ⟨held, hload, hgeneration, hauthority⟩ :=
      (Run.justified hrun hs hlease).acceptedLease hlent
    exact ⟨held, .inr ⟨lease, hlease, (loadEpochRecord_eq_ok.mp hload).1⟩, hgeneration, hauthority⟩

end Exclusion

/-- Where votes, leases and handovers keep apart, at most one authority is live. -/
theorem live_authority_unique (hrun : Run (Step C F) s t) (hs : s.Initial) {V : List PeerId}
    (hdistinct : V.Nodup) (hhonest : ∀ peer ∈ V, F.honest peer) (hroster : t.FixedRoster F V)
    (horderly : t.Orderly V) {p q : PeerId} (hp : p ∈ V) (hq : q ∈ V)
    (hplive : (t.nodes p).live C (t.site C F p) = true)
    (hqlive : (t.nodes q).live C (t.site C F q) = true) : p = q := by
  obtain ⟨record, A, hrecord⟩ := reigns_of_live hrun hs hdistinct hhonest hroster horderly hp hplive
  obtain ⟨other, B, hother⟩ := reigns_of_live hrun hs hdistinct hhonest hroster horderly hq hqlive
  rcases AuthorityGeneration.trichotomy record.generation other.generation with hlt | heq | hlt
  · exact absurd hlt (not_lt_of_reigns hrun hs hhonest hroster horderly hrecord hother)
  · obtain ⟨holder, hA, hB⟩ := hrecord.majority.meet hother.majority
    have hbacks := backs_of_reigns hrun hs hother hB
    rw [← heq] at hbacks
    exact Peer.Backs.unique (Run.marked hrun hs holder) (backs_of_reigns hrun hs hrecord hA) hbacks
  · exact absurd hlt (not_lt_of_reigns hrun hs hhonest hroster horderly hother hrecord)

/-- The second member, elected by the third, has its record and its lease acknowledged. -/
def enthrone : List Cue :=
  [tick second, hand second third 0, hand third second 0, tick second,
    hand second third 0, hand third second 0]

/-- The first authority is gone; the second member succeeds it. -/
def succession : List Cue :=
  gather second third ++ canvass second third ++ enthrone

/-- After a succession without the first authority, the second member is live, and nobody else. -/
theorem live_authority_unique_succession :
    let f := numbered 3
    let t := (f.system .ideal).play .ideal f.fleet succession
    (t.nodes second).live .ideal (t.site .ideal f.fleet second) = true ∧
      ∀ p ∈ [first, second, third],
        (t.nodes p).live .ideal (t.site .ideal f.fleet p) = true → second = p := by
  intro f t
  have hplays : (f.system .ideal).Plays .ideal f.fleet succession := by decide +kernel
  have hroster : t.FixedRoster f.fleet [first, second, third] := by
    decide +kernel
  have horderly : t.Orderly [first, second, third] := by decide +kernel
  have hlive : (t.nodes second).live .ideal (t.site .ideal f.fleet second) =
    true := by decide +kernel
  refine ⟨hlive, fun p hp hplive => ?_⟩
  exact live_authority_unique (t := t) (p := second) (q := p) hplays.run
    (system_initial .ideal f) (by decide) (fun _ _ => trivial) hroster horderly
    (by decide) hp hlive hplive

/-- The third member votes for the second, then meets the first authority again and acknowledges
its lease, and only then learns that the vote succeeded. -/
def splitReign : List Cue :=
  gather second third ++ canvass second third ++ connect first third ++
    [tick first, hand first third 0, hand third first 0] ++ enthrone

/-- Two authorities of different generations are live at once. -/
theorem live_authority_split :
    let f := numbered 3
    let t := (f.system .ideal).play .ideal f.fleet splitReign
    (f.system .ideal).Initial ∧ (f.system .ideal).Plays .ideal f.fleet splitReign ∧
      t.FixedRoster f.fleet [first, second, third] ∧
      (t.nodes first).live .ideal (t.site .ideal f.fleet first) = true ∧
      (t.nodes second).live .ideal (t.site .ideal f.fleet second) = true :=
  ⟨system_initial .ideal _, by decide +kernel, by decide +kernel, by decide +kernel,
    by decide +kernel⟩

end SwarmCraft
