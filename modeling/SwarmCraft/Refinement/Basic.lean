import SwarmCraft.Daemon.Move

/-!
# Handlers follow the moves

`Follows` relates two states of a running handler: the second is reached from the
first by moves of the peer, every durable state on the way is reached so as well, and
every packet queued on the way is justified. The rules here establish it for the
primitives that handlers are made of.
-/

namespace SwarmCraft

open Checked Effect Transition

variable {events : List Event} {f : Store → Except StorageError Store}

/-! ## Reading -/

section Reads

variable {α β : Type} {R : Exec → Exec → Prop} {e : Exec}

theorem along_readStore {k : Store → Daemon β} (h : Along R (k e.node.store) e) :
    Along R (readStore >>= k) e := h

theorem along_readRuntime {k : LeaseRuntime → Daemon β} (h : Along R (k e.node.runtime) e) :
    Along R (readRuntime >>= k) e := h

theorem along_readHost {k : LocalHost → Daemon β} (h : Along R (k e.node.host) e) :
    Along R (readHost >>= k) e := h

theorem along_readPendingManifest {k : Option SnapshotManifestV1 → Daemon β}
    (h : Along R (k e.node.pendingManifest) e) : Along R (readPendingManifest >>= k) e := h

/-- A check before what relies on it. -/
theorem along_check [Std.Refl R] {x : Except DaemonError α} {k : α → Daemon β}
    (h : ∀ a, x = .ok a → Along R (k a) e) : Along R (check x >>= k) e :=
  along_lift_bind h

/-- A write that may be refused, along any relation. -/
theorem along_save_rel [Std.Refl R]
    (h : ∀ store, f e.node.store = .ok store → R e (e.written store events)) :
    Along R (save events f) e := by
  unfold Along Action.after save
  cases hf : f e.node.store with
  | error error => exact Std.Refl.refl e
  | ok store => exact h store hf

/-- A durable write that answers, whatever it is followed along. -/
theorem along_saveAnswer_rel [Std.Refl R] {events : α → Store → List Event}
    {f : Store → Except StorageError (α × Store)}
    (h : ∀ answer store, f e.node.store = .ok (answer, store) →
      R e (e.written store (events answer store))) : Along R (saveAnswer events f) e := by
  unfold Along Action.after saveAnswer
  cases hf : f e.node.store with
  | error error => exact Std.Refl.refl e
  | ok result => exact h result.1 result.2 hf

theorem along_save_then [Std.Refl R] {k : Unit → Daemon β}
    (h : ∀ store, f e.node.store = .ok store → R e ((k ()).after (e.written store events))) :
    Along R (save events f >>= k) e := by
  change R e (Action.bind (save events f) k e).2
  unfold Action.bind save
  cases hf : f e.node.store with
  | error error => exact Std.Refl.refl e
  | ok store => exact h store hf

/-- Reading the store before an action that does not depend on the rest. -/
theorem always_readStore {k : Store → Daemon β} (h : ∀ store, Always R (k store)) :
    Always R (readStore >>= k) := fun e => h e.node.store e

/-- Reading the memory before an action that does not depend on the rest. -/
theorem always_readRuntime {k : LeaseRuntime → Daemon β} (h : ∀ runtime, Always R (k runtime)) :
    Always R (readRuntime >>= k) := fun e => h e.node.runtime e

/-- Reading the machine before an action that does not depend on the rest. -/
theorem always_readHost {k : LocalHost → Daemon β} (h : ∀ host, Always R (k host)) :
    Always R (readHost >>= k) := fun e => h e.node.host e

/-- Reading the pending manifest before an action that does not depend on the rest. -/
theorem always_readPendingManifest {k : Option SnapshotManifestV1 → Daemon β}
    (h : ∀ manifest, Always R (k manifest)) : Always R (readPendingManifest >>= k) :=
  fun e => h e.node.pendingManifest e

theorem always_check [Std.Refl R] {x : Except DaemonError α} {k : α → Daemon β}
    (h : ∀ a, x = .ok a → Always R (k a)) : Always R (check x >>= k) :=
  Always.lift_bind h

end Reads

/-! ## Properties of every durable state -/

section Throughout

variable {I : Store → Prop}

/-- A property of the store stays true, in the end and at each durable state on the way. -/
def Throughout (I : Store → Prop) (e e' : Exec) : Prop :=
  I e.node.store → I e'.node.store ∧ ∀ point ∈ e'.trail, point ∈ e.trail ∨ I point.1

instance : Std.Refl (Throughout I) where
  refl _ h := ⟨h, fun _ hpoint => .inl hpoint⟩

instance : IsTrans Exec (Throughout I) where
  trans _ _ _ h₁₂ h₂₃ h := by
    obtain ⟨h₂, htrail₂⟩ := h₁₂ h
    obtain ⟨h₃, htrail₃⟩ := h₂₃ h₂
    refine ⟨h₃, fun point hpoint => ?_⟩
    rcases htrail₃ point hpoint with hold | hnew
    · exact htrail₂ point hold
    · exact .inr hnew

/-- A durable write that keeps the property. -/
theorem throughout_written {e : Exec} {store : Store}
    (h : I e.node.store → I store) : Throughout I e (e.written store events) := by
  intro he
  refine ⟨h he, fun point hpoint => ?_⟩
  simp only [Exec.written, List.mem_append, List.mem_singleton] at hpoint
  rcases hpoint with hold | rfl
  · exact .inl hold
  · exact .inr (h he)

/-- A durable write that establishes a stronger property, which is kept from then on. -/
theorem throughout_save_then {β : Type} {P : Store → Prop} {k : Unit → Daemon β} {e : Exec}
    (hf : ∀ store, f e.node.store = .ok store → P store) (hweak : ∀ store, P store → I store)
    (hk : Always (Throughout P) (k ())) : Along (Throughout I) (save events f >>= k) e := by
  refine along_save_then fun store hstore he => ?_
  obtain ⟨hend, htrail⟩ := hk (e.written store events) (hf store hstore)
  refine ⟨hweak _ hend, fun point hpoint => ?_⟩
  rcases htrail point hpoint with hold | hnew
  · exact (throughout_written (fun _ => hweak _ (hf store hstore)) he).2 point hold
  · exact .inr (hweak _ hnew)

/-- Every durable state of a handler that starts where the property holds has it. -/
theorem Throughout.trail {node : Node} {e : Exec} (h : Throughout I (Exec.start node) e)
    (hnode : I node.store) : ∀ point ∈ e.trail, I point.1 := by
  intro point hpoint
  rcases (h hnode).2 point hpoint with hold | hnew
  · cases hold
  · exact hnew

end Throughout

/-! ## Moves of the peer -/

section Follows

variable (C : Crypto) (site : Site) (heard : Heard) (base : List Stamp)

/-- The peer that a running handler stands for; `base` is what it did before. -/
def Exec.peer (e : Exec) : Peer := ⟨e.node, base ++ e.log.map (Entry.stamp site.now)⟩

/-- What a queued packet says about the peer that queues it: a lease is acknowledged to the
authority it was granted to. -/
def Justified (log : List Entry) (packet : Packet) : Prop :=
  ∀ epoch fencingToken, packet.body = .response (.leaseAccepted epoch fencingToken) →
    ∃ entry ∈ log, entry.event = .acceptedLease ⟨epoch, fencingToken⟩ packet.dst

/-- A durable state that the peer passes through. -/
def Passed (peer : Peer) (point : Store × List Entry) : Prop :=
  ∃ node : Node, node.store = point.1 ∧
    Run (PeerMove C site heard) peer ⟨node, base ++ point.2.map (Entry.stamp site.now)⟩

/-- The handler got from one state to the other by moves of the peer. -/
structure Follows (e e' : Exec) : Prop where
  moves : Run (PeerMove C site heard) (e.peer site base) (e'.peer site base)
  trail : ∀ point ∈ e'.trail, point ∈ e.trail ∨ Passed C site heard base (e.peer site base) point
  outbox : ∀ packet ∈ e'.outbox, packet ∈ e.outbox ∨
    packet.src = site.peer C ∧ Justified e'.log packet
  log : e.log <+: e'.log

variable {C site heard base}

instance : Std.Refl (Follows C site heard base) where
  refl _ := ⟨.refl, fun _ h => .inl h, fun _ h => .inl h, List.prefix_refl _⟩

/-- A justified packet stays justified. -/
theorem Justified.mono {log log' : List Entry} {packet : Packet} (h : Justified log packet)
    (hlog : log <+: log') : Justified log' packet := by
  intro epoch fencingToken hbody
  obtain ⟨entry, hentry, hevent⟩ := h epoch fencingToken hbody
  exact ⟨entry, hlog.subset hentry, hevent⟩

instance : IsTrans Exec (Follows C site heard base) where
  trans e₁ e₂ e₃ h₁₂ h₂₃ := by
    refine ⟨h₁₂.moves.trans h₂₃.moves, ?_, ?_, h₁₂.log.trans h₂₃.log⟩
    · intro point hpoint
      rcases h₂₃.trail point hpoint with hold | ⟨node, hstore, hrun⟩
      · exact h₁₂.trail point hold
      · exact .inr ⟨node, hstore, h₁₂.moves.trans hrun⟩
    · intro packet hpacket
      rcases h₂₃.outbox packet hpacket with hold | hnew
      · rcases h₁₂.outbox packet hold with holder | ⟨hsrc, hjust⟩
        · exact .inl holder
        · exact .inr ⟨hsrc, hjust.mono h₂₃.log⟩
      · exact .inr hnew

/-! ## Durable writes -/

/-- A store move is followed. -/
theorem follows_written {e : Exec} {store : Store}
    (h : StoreMove C site heard e.node store events) :
    Follows C site heard base e (e.written store events) := by
  have hmove : PeerMove C site heard (e.peer site base) ((e.written store events).peer site base) := by
    have hstored : PeerMove C site heard (e.peer site base) ⟨{ e.node with store := store },
        (e.peer site base).log ++ events.map fun event => ⟨⟨e.node, event⟩, site.now⟩⟩ := .stored h
    simpa [Exec.peer, Exec.written, Exec.logged, Entry.stamp, Function.comp_def] using hstored
  refine ⟨.single hmove, ?_, fun _ hp => .inl hp, ⟨events.map (Entry.mk e.node), rfl⟩⟩
  intro point hpoint
  simp only [Exec.written, List.mem_append, List.mem_singleton] at hpoint
  rcases hpoint with hold | rfl
  · exact .inl hold
  · exact .inr ⟨(e.written store events).node, rfl, .single hmove⟩

theorem along_write {f : Store → Store} {e : Exec}
    (h : StoreMove C site heard e.node (f e.node.store) []) :
    Along (Follows C site heard base) (write f) e :=
  follows_written h

/-- A write that may be refused. -/
theorem along_save {e : Exec}
    (h : ∀ store, f e.node.store = .ok store → StoreMove C site heard e.node store events) :
    Along (Follows C site heard base) (save events f) e :=
  along_save_rel fun store hf => follows_written (h store hf)

theorem along_saveAnswer {α : Type} {events : α → Store → List Event}
    {f : Store → Except StorageError (α × Store)} {e : Exec}
    (h : ∀ answer store, f e.node.store = .ok (answer, store) →
      StoreMove C site heard e.node store (events answer store)) :
    Along (Follows C site heard base) (saveAnswer events f) e :=
  along_saveAnswer_rel fun answer store hf => follows_written (h answer store hf)

/-- A write before an action that relies on what was written. -/
theorem along_write_bind {β : Type} {f : Store → Store} {k : Unit → Daemon β} {e : Exec}
    (h : StoreMove C site heard e.node (f e.node.store) [])
    (hk : Along (Follows C site heard base) (k ()) (e.written (f e.node.store) [])) :
    Along (Follows C site heard base) (write f >>= k) e :=
  along_modifyState_bind (along_write h) hk

/-- A write that may be refused before an action that relies on what was written. -/
theorem along_save_bind {β : Type} {k : Unit → Daemon β} {e : Exec}
    (h : ∀ store, f e.node.store = .ok store → StoreMove C site heard e.node store events)
    (hk : ∀ store, f e.node.store = .ok store →
      Along (Follows C site heard base) (k ()) (e.written store events)) :
    Along (Follows C site heard base) (save events f >>= k) e := by
  refine along_bind (along_save h) fun _ t hrun => ?_
  obtain ⟨store, hf, rfl⟩ := run_save.mp hrun
  exact hk store hf

/-! ## Memory, events and packets -/

/-- A change of memory. -/
theorem along_updateRuntime {f : LeaseRuntime → LeaseRuntime} {e : Exec}
    (h : RuntimeMove site heard e.node (f e.node.runtime)) :
    Along (Follows C site heard base) (updateRuntime f) e :=
  have hmove : PeerMove C site heard (e.peer site base)
      ⟨{ e.node with runtime := f e.node.runtime }, (e.peer site base).log⟩ := .remembered h
  ⟨.single hmove, fun _ hp => .inl hp, fun _ hp => .inl hp, List.prefix_refl _⟩

theorem along_updateRuntime_bind {β : Type} {f : LeaseRuntime → LeaseRuntime}
    {k : Unit → Daemon β} {e : Exec} (h : RuntimeMove site heard e.node (f e.node.runtime))
    (hk : Along (Follows C site heard base) (k ())
      { e with node := { e.node with runtime := f e.node.runtime } }) :
    Along (Follows C site heard base) (updateRuntime f >>= k) e :=
  along_modifyState_bind (along_updateRuntime h) hk

/-- Memory that agrees on what the invariants read learned nothing. -/
theorem quieter_same {node : Node} {runtime : LeaseRuntime}
    (hlease : runtime.leaseAcks = node.runtime.leaseAcks)
    (hepoch : runtime.epochAcks = node.runtime.epochAcks)
    (hinbound : runtime.inboundLease = node.runtime.inboundLease)
    (hdelay : runtime.recoveryNotBefore = node.runtime.recoveryNotBefore)
    (hvotes : runtime.recoveryVotes = node.runtime.recoveryVotes) : Quieter site node runtime :=
  ⟨fun _ _ h => hlease ▸ h, fun _ _ h => hepoch ▸ h, fun _ h => hinbound ▸ h,
    fun _ h => .inl (hdelay ▸ h), fun _ h => .inl (hvotes ▸ h)⟩

/-- An acknowledgement that was heard is remembered. -/
theorem along_learn_bind {β : Type} {other : PeerId} {generation : AuthorityGeneration}
    {k : Unit → Daemon β} {e : Exec} (told : heard = some (other,
      .response (.leaseAccepted generation.epoch generation.fencingToken)))
    (hk : Always (Follows C site heard base) (k ())) :
    Along (Follows C site heard base) (learn (.confirmedLease other generation)
      (fun runtime => { runtime with
        leaseAcks := Function.update runtime.leaseAcks other (some ⟨generation, site.now⟩) })
      >>= k) e := by
  refine along_modifyState_bind ⟨.single ?_, fun _ hp => .inl hp, fun _ hp => .inl hp,
    ⟨[⟨e.node, .confirmedLease other generation⟩], rfl⟩⟩ (hk _)
  have hmove : PeerMove C site heard (e.peer site base)
      ⟨{ e.node with runtime := { e.node.runtime with
          leaseAcks := Function.update e.node.runtime.leaseAcks other
            (some ⟨generation, site.now⟩) } },
        (e.peer site base).log ++ [⟨⟨e.node, .confirmedLease other generation⟩, site.now⟩]⟩ :=
    .confirmed told
  simpa [Exec.peer, Exec.logged, Entry.stamp] using hmove

/-- An event is logged. -/
theorem along_record {event : Event} {e : Exec} (h : LogMove C site e.node event) :
    Along (Follows C site heard base) (record event) e := by
  have hmove : PeerMove C site heard (e.peer site base)
      ⟨e.node, (e.peer site base).log ++ [⟨⟨e.node, event⟩, site.now⟩]⟩ := .logged h
  refine ⟨.single ?_, fun _ hp => .inl hp, fun _ hp => .inl hp, ⟨[⟨e.node, event⟩], rfl⟩⟩
  simpa [Exec.peer, record, modifyState, Action.after, Exec.logged, Entry.stamp] using hmove

theorem along_record_bind {β : Type} {event : Event} {k : Unit → Daemon β} {e : Exec}
    (h : LogMove C site e.node event)
    (hk : Along (Follows C site heard base) (k ()) { e with log := e.logged [event] }) :
    Along (Follows C site heard base) (record event >>= k) e :=
  along_modifyState_bind (along_record h) hk

/-- Requests on their way are not followed. -/
theorem follows_bookkept (e : Exec) (outbound : List (Nat × OutboundContext)) (nextRequest : Nat)
    (pendingManifest : Option SnapshotManifestV1) :
    Follows C site heard base e { e with node := { e.node with
      outbound := outbound
      nextRequest := nextRequest
      pendingManifest := pendingManifest } } := by
  have hmove : PeerMove C site heard (e.peer site base) ⟨{ e.node with
      outbound := outbound
      nextRequest := nextRequest
      pendingManifest := pendingManifest }, (e.peer site base).log⟩ := .bookkept _ _ _ e.node.host
  exact ⟨.single hmove, fun _ hp => .inl hp, fun _ hp => .inl hp, List.prefix_refl _⟩

/-- A lease is confirmed after it was accepted. -/
theorem along_respond {channel : Channel} {response : WireResponse} {e : Exec}
    (hself : channel.self = site.peer C)
    (h : ∀ epoch fencingToken, response = .leaseAccepted epoch fencingToken →
      ∃ entry ∈ e.log, entry.event = .acceptedLease ⟨epoch, fencingToken⟩ channel.requester) :
    Along (Follows C site heard base) (respond channel response) e := by
  refine ⟨.refl, fun _ hp => .inl hp, ?_, List.prefix_refl _⟩
  intro packet hpacket
  simp only [Action.after, respond, modifyState, List.mem_append, List.mem_singleton] at hpacket
  rcases hpacket with hold | rfl
  · exact .inl hold
  · refine .inr ⟨hself, fun epoch fencingToken hbody => ?_⟩
    exact h epoch fencingToken (by simpa using hbody)

theorem along_takeContext {number : Nat} {e : Exec} :
    Along (Follows C site heard base) (takeContext number) e :=
  follows_bookkept e _ _ _

/-! ## Actions that follow the moves from every state -/

variable (C site heard base) in
/-- From every state the action only makes moves of the peer. -/
abbrev Tame {α : Type} (m : Daemon α) : Prop := Always (Follows C site heard base) m

end Follows

end SwarmCraft
