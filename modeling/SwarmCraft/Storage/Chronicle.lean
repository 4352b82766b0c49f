import SwarmCraft.Storage.Depot

/-!
# The ledger of a depot

The files of a depot show what survived of its history. The ledger lists every manifest that was
ever committed, the newest first, with the epoch record that was accepted at that time. A ledger
is chained: numbers and sequences go up by one and each manifest names the one before it. A depot
chronicles a ledger if its head is the newest manifest and its slots hold manifests of the ledger.
-/

namespace SwarmCraft

open Checked Durable

variable {C : Crypto} {Z : Codec} {world : WorldId}
variable {manifest : SnapshotManifestV1}

/-- A commit, with the epoch record that was accepted. -/
structure Published where
  manifest : SnapshotManifestV1
  epoch : Option EpochRecordV1

/-- The snapshot number of a commit. -/
def Published.number (published : Published) : Nat := published.manifest.snapshotNumber

/-- Every commit directly extends the one before it. -/
inductive Chained (C : Crypto) : List Published → Prop
  | nil : Chained C []
  | first {published : Published} (hnumber : published.number = 1)
      (hprevious : published.manifest.previousSnapshotHash = none) : Chained C [published]
  | next {published previous : Published} {rest : List Published}
      (hrest : Chained C (previous :: rest)) (hnumber : published.number = previous.number + 1)
      (hsequence : published.manifest.sequence = previous.manifest.sequence + 1)
      (hprevious : published.manifest.previousSnapshotHash =
        some (previous.manifest.manifestHash C)) : Chained C (published :: previous :: rest)

namespace Chained

variable {published : Published} {ledger rest : List Published}

theorem tail (h : Chained C (published :: rest)) : Chained C rest := by
  cases h with
  | first => exact .nil
  | next hrest => exact hrest

theorem number_head (h : Chained C (published :: rest)) : published.number = rest.length + 1 := by
  generalize hledger : published :: rest = ledger at h
  induction h generalizing published rest with
  | nil => cases hledger
  | first hnumber =>
    obtain ⟨rfl, rfl⟩ := List.cons.inj hledger
    exact hnumber
  | next _ hnumber _ _ ih =>
    obtain ⟨rfl, rfl⟩ := List.cons.inj hledger
    rw [hnumber, ih rfl]
    rfl

/-- No commit has a number above the length of the ledger. -/
theorem number_le (h : Chained C ledger) (hmem : published ∈ ledger) :
    1 ≤ published.number ∧ published.number ≤ ledger.length := by
  induction ledger with
  | nil => cases hmem
  | cons head rest ih =>
    rcases List.mem_cons.mp hmem with rfl | hmem
    · have hnumber := h.number_head
      simp only [List.length_cons]
      omega
    · have hrest := ih h.tail hmem
      simp only [List.length_cons]
      omega

theorem number_inj {a b : Published} (h : Chained C ledger) (ha : a ∈ ledger) (hb : b ∈ ledger)
    (hnumber : a.number = b.number) : a = b := by
  induction ledger with
  | nil => cases ha
  | cons head rest ih =>
    have hhead := h.number_head
    rcases List.mem_cons.mp ha with rfl | holder
    · rcases List.mem_cons.mp hb with rfl | hother
      · rfl
      · have hle := h.tail.number_le hother
        omega
    · rcases List.mem_cons.mp hb with rfl | hother
      · have hle := h.tail.number_le holder
        omega
      · exact ih h.tail holder hother

/-- Two commits with consecutive numbers are linked. -/
theorem linked {a b : Published} (h : Chained C ledger) (ha : a ∈ ledger) (hb : b ∈ ledger)
    (hnumber : b.number = a.number + 1) :
    b.manifest.previousSnapshotHash = some (a.manifest.manifestHash C) ∧
      b.manifest.sequence = a.manifest.sequence + 1 := by
  induction h with
  | nil => cases ha
  | first hfirst =>
    rw [List.mem_singleton.mp ha, List.mem_singleton.mp hb] at hnumber
    omega
  | next hrest hnext hsequence hprevious ih =>
    have hhead := hrest.number_head
    rcases List.mem_cons.mp hb with rfl | hb
    · -- The newest commit is linked to the one before it, which has the number of `a`.
      have ha' : a ∈ _ :: _ := (List.mem_cons.mp ha).resolve_left fun heq => by
        rw [heq] at hnumber
        omega
      have hsame := hrest.number_inj ha' (List.mem_cons_self ..) (by omega)
      rw [hsame]
      exact ⟨hprevious, hsequence⟩
    · have hle := hrest.number_le hb
      have ha' : a ∈ _ :: _ := (List.mem_cons.mp ha).resolve_left fun heq => by
        rw [heq] at hnumber
        simp only [List.length_cons] at hle
        omega
      exact ih ha' hb

end Chained

/-! ## Depots that chronicle a ledger -/

/-- The reference of the newest commit. -/
def topRef (C : Crypto) (ledger : List Published) : Option CanonicalSnapshotRefV1 :=
  ledger.head?.map fun published => canonicalRef C published.manifest

/-- The files of the depot show the ledger, as far as it was not pruned. -/
structure Depot.Chronicles (C : Crypto) (world : WorldId) (ledger : List Published)
    (depot : Depot) : Prop where
  chained : Chained C ledger
  ofWorld : ∀ published ∈ ledger, published.manifest.worldId = world
  settled : depot.intent = .absent
  head : depot.head = .present ⟨world, topRef C ledger⟩ ∨
    depot.head = .absent ∧ depot.required = false ∧ ledger = []
  slots : ∀ number file, depot.slots.lookup number = some file →
    ∃ published ∈ ledger, file = .present published.manifest ∧ published.number = number
  top : ∀ published, ledger.head? = some published →
    depot.slots.lookup published.number = some (.present published.manifest)

/-- The depot with its head file and its marker in place. -/
def Depot.opened (world : WorldId) (top : Option CanonicalSnapshotRefV1) (depot : Depot) : Depot :=
  { depot with head := .present ⟨world, top⟩, required := true }

/-- The depot after a commit. -/
def Depot.committed (C : Crypto) (world : WorldId) (manifest : SnapshotManifestV1) (depot : Depot) :
    Depot :=
  (depot.fill manifest).opened world (some (canonicalRef C manifest))

namespace Depot.Chronicles

variable {ledger : List Published} {depot : Depot}

theorem empty (control : Store) : (Depot.empty control).Chronicles C world [] where
  chained := .nil
  ofWorld := by simp
  settled := rfl
  head := .inr ⟨rfl, rfl, rfl⟩
  slots := by simp [Depot.empty]
  top := by simp

section

variable (h : depot.Chronicles C world ledger)

include h

/-- The files that a chronicle is about. -/
theorem congr {other : Depot}
    (hhead : other.head = depot.head) (hrequired : other.required = depot.required)
    (hintent : other.intent = depot.intent) (hslots : other.slots = depot.slots) :
    other.Chronicles C world ledger where
  chained := h.chained
  ofWorld := h.ofWorld
  settled := hintent.trans h.settled
  head := by
    rw [hhead, hrequired]
    exact h.head
  slots := by
    rw [hslots]
    exact h.slots
  top := by
    rw [hslots]
    exact h.top

/-- Opening the head file keeps the history. -/
theorem opened : (depot.opened world (topRef C ledger)).Chronicles C world ledger where
  chained := h.chained
  ofWorld := h.ofWorld
  settled := h.settled
  head := .inl rfl
  slots := h.slots
  top := h.top

/-- A manifest of the ledger loads from its slot, where the slot is there. -/
theorem loadSlot_eq {number : Nat}
    {file : DurableFile SnapshotManifestV1} (hfile : depot.slots.lookup number = some file) :
    ∃ published ∈ ledger, published.number = number ∧
      loadSlot world number file = .ok published.manifest := by
  obtain ⟨published, hmem, rfl, hnumber⟩ := h.slots number file hfile
  refine ⟨published, hmem, hnumber, ?_⟩
  simp only [loadSlot, DurableFile.load_eq_ok, ensure_eq_ok, true_and]
  exact ⟨h.ofWorld published hmem, hnumber⟩

theorem loadSnapshotFile_top {published : Published} (htop : ledger.head? = some published) :
    loadSnapshotFile world published.number depot = .ok published.manifest := by
  have hlookup := h.top published htop
  have hmem : published ∈ ledger := List.mem_of_mem_head? htop
  have hslot : depot.slot published.number = .present published.manifest := by
    rw [Depot.slot, hlookup]
    rfl
  simp only [loadSnapshotFile, loadSlot, hslot, bind_eq_ok, ensure_eq_ok, DurableFile.load_eq_ok,
    DurableFile.exists, true_and]
  exact ⟨(), h.ofWorld published hmem, rfl⟩

theorem validateHeadTarget_top : validateHeadTarget C world (topRef C ledger) depot = .ok () := by
  unfold topRef
  cases htop : ledger.head? with
  | none => rfl
  | some published =>
    have hload := h.loadSnapshotFile_top htop
    have hlookup := h.top published htop
    have hslot : (depot.slot published.number).exists = true := by
      rw [Depot.slot, hlookup]
      rfl
    simp only [Option.map_some, validateHeadTarget, bind_eq_ok, ensure_eq_ok]
    exact ⟨(), hslot, published.manifest, hload, rfl⟩

end

/-- No slot is there where nothing was committed. -/
theorem entries_nil (h : depot.Chronicles C world []) : depot.slots.entries = [] := by
  rw [List.eq_nil_iff_forall_not_mem]
  rintro ⟨number, file⟩ hmem
  have hlookup : depot.slots.lookup number = some file := AList.mem_lookup_iff.mpr hmem
  obtain ⟨published, hmem, _⟩ := h.slots number file hlookup
  cases hmem

/-- The surviving manifests, in the order of their numbers. -/
structure Lists (ledger : List Published) (depot : Depot) (manifests : List SnapshotManifestV1) :
    Prop where
  sorted : manifests.Pairwise fun a b => a.snapshotNumber ≤ b.snapshotNumber
  known : ∀ manifest ∈ manifests, ∃ published ∈ ledger, published.manifest = manifest
  survive : ∀ published ∈ ledger,
    depot.slots.lookup published.number = some (.present published.manifest) →
    published.manifest ∈ manifests

/-- The manifests of a depot can be listed. -/
theorem rawSnapshotManifests_eq (h : depot.Chronicles C world ledger) :
    ∃ manifests, rawSnapshotManifests world depot = .ok manifests ∧ Lists ledger depot manifests := by
  have hload : ∀ entry ∈ depot.slots.entries, ∃ manifest,
      loadSlot world entry.1 entry.2 = .ok manifest := by
    rintro ⟨number, file⟩ hentry
    obtain ⟨published, _, _, hload⟩ := h.loadSlot_eq (AList.mem_lookup_iff.mpr hentry)
    exact ⟨published.manifest, hload⟩
  obtain ⟨manifests, hmanifests, hall⟩ := exists_mapM_ok hload
  refine ⟨manifests.insertionSort fun a b => a.snapshotNumber ≤ b.snapshotNumber, ?_, ?_, ?_, ?_⟩
  · rw [rawSnapshotManifests, hmanifests]
    rfl
  · have htotal : Std.Total fun a b : SnapshotManifestV1 => a.snapshotNumber ≤ b.snapshotNumber :=
      ⟨fun a b => Nat.le_total _ _⟩
    have htrans : IsTrans SnapshotManifestV1 fun a b => a.snapshotNumber ≤ b.snapshotNumber :=
      ⟨fun _ _ _ => Nat.le_trans⟩
    exact List.pairwise_insertionSort _ _
  · intro manifest hmem
    rw [List.mem_insertionSort] at hmem
    obtain ⟨⟨number, file⟩, hentry, hfound⟩ := mem_of_mapM_ok hmanifests hmem
    obtain ⟨published, hpublished, _, hload⟩ := h.loadSlot_eq (AList.mem_lookup_iff.mpr hentry)
    rw [hload] at hfound
    exact ⟨published, hpublished, Except.ok.inj hfound⟩
  · intro published hmem hlookup
    rw [List.mem_insertionSort]
    obtain ⟨other, hother, hnumber, hload⟩ := h.loadSlot_eq hlookup
    have hsame := h.chained.number_inj hother hmem hnumber
    rw [hsame] at hload
    exact hall ⟨published.number, _⟩ (AList.mem_lookup_iff.mp hlookup) _ hload

/-- There is no manifest above the head. -/
theorem validateNoOrphans_top (h : depot.Chronicles C world ledger) :
    validateNoOrphans world (topRef C ledger) depot = .ok () := by
  obtain ⟨manifests, hraw, hlists⟩ := h.rawSnapshotManifests_eq
  have hnone : (manifests.find? fun manifest => decide
      (((topRef C ledger).map CanonicalSnapshotRefV1.snapshotNumber).getD 0 <
        manifest.snapshotNumber)) = none := by
    rw [List.find?_eq_none]
    intro manifest hmem
    obtain ⟨published, hpublished, rfl⟩ := hlists.known manifest hmem
    have hle := h.chained.number_le hpublished
    cases hledger : ledger with
    | nil =>
      rw [hledger] at hpublished
      cases hpublished
    | cons newest rest =>
      have hnewest := (hledger ▸ h.chained).number_head
      rw [hledger, List.length_cons] at hle
      have htop : ((topRef C (newest :: rest)).map CanonicalSnapshotRefV1.snapshotNumber).getD 0 =
          newest.number := rfl
      have hnumber : published.number = published.manifest.snapshotNumber := rfl
      simp only [htop, decide_eq_true_eq]
      omega
  simp only [validateNoOrphans, bind_eq_ok]
  exact ⟨manifests, hraw, by rw [hnone]; rfl⟩

end Depot.Chronicles

/-! ## Between two steps -/

/-- No commit is under way, or one whose head file was written already. -/
structure Depot.Ready (C : Crypto) (world : WorldId) (ledger : List Published) (depot : Depot) :
    Prop where
  chronicles : (depot.setIntent .absent).Chronicles C world ledger
  intent : depot.intent = .absent ∨ ∃ previous next,
    depot.intent = .present ⟨world, previous, next⟩ ∧ depot.head = .present ⟨world, some next⟩

/-- A commit is under way whose head file was not written. -/
def Depot.Suspended (world : WorldId) (depot : Depot) : Prop :=
  ∃ previous next, depot.intent = .present ⟨world, previous, next⟩ ∧
    depot.head = .present ⟨world, previous⟩ ∧ previous ≠ some next

/-- What a call leaves of a ledger, wherever it stops. -/
def Depot.Left (C : Crypto) (world : WorldId) (ledger : List Published) (depot : Depot) : Prop :=
  depot.Suspended world ∨ ∃ new, depot.Ready C world (new ++ ledger)

/-- The depot after its head was loaded. -/
def Depot.resumed (C : Crypto) (world : WorldId) (ledger : List Published) (depot : Depot) : Depot :=
  (depot.setIntent .absent).opened world (topRef C ledger)

variable {ledger : List Published} {depot : Depot}

/-- A depot without an intent is ready. -/
theorem Depot.Chronicles.ready (h : depot.Chronicles C world ledger) : depot.Ready C world ledger :=
  ⟨h.congr rfl rfl h.settled.symm rfl, .inl h.settled⟩

theorem gives_createRequired {I : Depot → Prop} (h : I depot.setRequired) :
    Gives I createRequired depot () depot.setRequired := by
  refine meets_look_bind ?_
  unfold onlyIf
  split
  · exact meets_step h ⟨rfl, rfl⟩
  · next hrequired =>
    have htrue : depot.required = true := by simpa using hrequired
    exact meets_pure ⟨rfl, by rw [Depot.setRequired, ← htrue]⟩

namespace Depot.Ready

variable (h : depot.Ready C world ledger)

include h

theorem left : depot.Left C world ledger := .inr ⟨[], h⟩

theorem resumed : (depot.resumed C world ledger).Ready C world ledger :=
  h.chronicles.opened.ready

/-! ## Reading the history -/

/-- Loading the head returns the newest commit. A commit whose head file is there is finished. -/
theorem gives_head : Gives (Depot.Ready C world ledger) (canonicalSnapshotHead C world)
    depot ⟨world, topRef C ledger⟩ (depot.resumed C world ledger) := by
  have htarget : validateHeadTarget C world (topRef C ledger) depot = .ok () :=
    h.chronicles.validateHeadTarget_top
  have hread (hhead : depot.head = .present ⟨world, topRef C ledger⟩) :
      readHeadFile world depot.head = .ok ⟨world, topRef C ledger⟩ := by
    simp [readHeadFile, hhead, requireWorld]
  rcases h.intent with habsent | ⟨previous, next, hintent, hhead⟩
  · have hresumed : (depot.setHead ⟨world, topRef C ledger⟩).setRequired =
        depot.resumed C world ledger := by
      rw [Depot.resumed, Depot.setIntent, ← habsent]
      rfl
    refine meets_look_bind ?_
    rw [if_neg (by rw [habsent]; decide)]
    rcases h.chronicles.head with hhead | ⟨hhead, hrequired, rfl⟩
    · change depot.head = _ at hhead
      have hsame : depot.setHead ⟨world, topRef C ledger⟩ = depot := by
        rw [Depot.setHead, ← hhead]
      rw [hsame] at hresumed
      rw [if_pos (by rw [hhead]; rfl)]
      refine meets_lift_ok_bind (hread hhead) (meets_lift_ok_bind htarget ?_)
      refine (gives_createRequired (hresumed ▸ h.resumed)).bind (meets_pure ⟨rfl, hresumed⟩)
    · change depot.head = _ at hhead
      have hraw : rawSnapshotManifests world depot = .ok [] := by
        rw [rawSnapshotManifests, show depot.slots.entries = [] from h.chronicles.entries_nil]
        rfl
      have hset : (depot.setHead ⟨world, none⟩).Ready C world [] :=
        Depot.Chronicles.ready { h.chronicles with settled := habsent, head := .inl rfl }
      rw [if_neg (by rw [hhead]; decide)]
      refine meets_look_bind (meets_ensure_bind hrequired ?_)
      refine meets_lift_ok_bind hraw (meets_step_bind hset ?_)
      refine (gives_createRequired (hresumed ▸ h.resumed)).bind ?_
      exact meets_lift_ok_bind rfl (meets_pure ⟨rfl, hresumed⟩)
  · have hfile : depot.head = .present ⟨world, topRef C ledger⟩ := by
      rcases h.chronicles.head with hfile | ⟨habsent, _⟩
      · exact hfile
      · cases hhead.symm.trans habsent
    have htop : topRef C ledger = some next := by simpa using hfile.symm.trans hhead
    have hresumed : (depot.setIntent .absent).setRequired = depot.resumed C world ledger := by
      simp [Depot.resumed, Depot.opened, Depot.setRequired, Depot.setIntent, hfile]
    refine meets_look_bind ?_
    rw [if_pos (by rw [hintent]; rfl)]
    refine meets_lift_ok_bind (by rw [hintent]; rfl) (meets_look_bind ?_)
    refine meets_ensure_bind rfl ?_
    refine meets_ensure_bind (by rw [hhead]; rfl) ?_
    refine meets_lift_ok_bind (hread hfile) ?_
    refine meets_ensure_bind htop ?_
    refine meets_lift_ok_bind htarget ?_
    refine meets_step_bind h.chronicles.ready ?_
    exact (gives_createRequired (hresumed ▸ h.resumed)).bind (meets_pure ⟨rfl, hresumed⟩)

theorem gives_validateNamespace : Gives (Depot.Ready C world ledger)
    (validateNamespace C world) depot () (depot.resumed C world ledger) :=
  h.gives_head.bind (meets_look_bind
    (meets_lift ⟨h.chronicles.opened.validateNoOrphans_top, rfl⟩))

/-- The manifests that are listed are in the ledger. -/
theorem gives_listSnapshots : ∃ manifests, Gives (Depot.Ready C world ledger)
    (listSnapshots C world) depot manifests (depot.resumed C world ledger) ∧
      Depot.Chronicles.Lists ledger (depot.resumed C world ledger) manifests := by
  obtain ⟨manifests, hraw, hlists⟩ := h.chronicles.opened.rawSnapshotManifests_eq
  refine ⟨manifests, h.gives_validateNamespace.bind (meets_look_bind ?_), hlists⟩
  exact meets_lift ⟨hraw, rfl⟩

/-- The newest manifest of the ledger is found. -/
theorem gives_latest : Gives (Depot.Ready C world ledger) (latestCanonicalSnapshot C world)
    depot (ledger.head?.map Published.manifest) (depot.resumed C world ledger) := by
  refine h.gives_validateNamespace.bind (h.resumed.gives_head.bind (meets_look_bind ?_))
  unfold topRef
  cases htop : ledger.head? with
  | none => exact meets_pure ⟨rfl, rfl⟩
  | some published =>
    have hload := h.chronicles.opened.loadSnapshotFile_top htop
    exact meets_lift_ok_bind hload (meets_pure ⟨rfl, rfl⟩)

end Depot.Ready

namespace Depot.Chronicles

/-- A slot that is there holds a commit. -/
theorem slot_exists (h : depot.Chronicles C world ledger) {number : Nat}
    (hexists : (depot.slot number).exists = true) : ∃ published ∈ ledger,
      published.number = number ∧ loadSnapshotFile world number depot = .ok published.manifest := by
  rw [Depot.slot] at hexists
  cases hlookup : depot.slots.lookup number with
  | none =>
    rw [hlookup] at hexists
    cases hexists
  | some file =>
    obtain ⟨published, hmem, hnumber, hload⟩ := h.loadSlot_eq hlookup
    refine ⟨published, hmem, hnumber, ?_⟩
    simp only [loadSnapshotFile, bind_eq_ok, ensure_eq_ok, Depot.slot, hlookup] at hexists ⊢
    exact ⟨(), hexists, hload⟩

/-- A commit that is allowed extends the ledger. -/
theorem committed (h : depot.Chronicles C world ledger)
    {epoch : Option EpochRecordV1} (hworld : manifest.worldId = world)
    (hdirect : validateDirectRef (topRef C ledger) manifest = .ok ()) :
    (depot.committed C world manifest).Chronicles C world (⟨manifest, epoch⟩ :: ledger) := by
  have hchained : Chained C (⟨manifest, epoch⟩ :: ledger) := by
    cases hledger : ledger with
    | nil =>
      rw [hledger] at hdirect
      simp only [topRef, List.head?_nil, Option.map_none, validateDirectRef, ensure_eq_ok] at hdirect
      exact .first hdirect.1 hdirect.2
    | cons newest rest =>
      rw [hledger] at hdirect
      simp only [topRef, List.head?_cons, Option.map_some, validateDirectRef, bind_eq_ok,
        required_eq_ok, checkedSucc_eq_some, ensure_eq_ok, canonicalRef] at hdirect
      obtain ⟨_, ⟨_, rfl⟩, _, ⟨_, rfl⟩, hnumber, hsequence, hprevious⟩ := hdirect
      exact .next (hledger ▸ h.chained) hnumber hsequence hprevious
  refine ⟨hchained, ?_, h.settled, .inl rfl, ?_, ?_⟩
  · intro published hmem
    rcases List.mem_cons.mp hmem with rfl | hmem
    · exact hworld
    · exact h.ofWorld published hmem
  · intro number file hfile
    change (depot.slots.insert manifest.snapshotNumber _).lookup number = some file at hfile
    by_cases hnumber : number = manifest.snapshotNumber
    · rw [hnumber, AList.lookup_insert] at hfile
      exact ⟨⟨manifest, epoch⟩, List.mem_cons_self, (Option.some.inj hfile).symm, hnumber.symm⟩
    · rw [AList.lookup_insert_ne hnumber] at hfile
      obtain ⟨published, hmem, hpresent⟩ := h.slots number file hfile
      exact ⟨published, List.mem_cons_of_mem _ hmem, hpresent⟩
  · intro published htop
    obtain rfl := Option.some.inj htop
    exact AList.lookup_insert _

/-- How a commit of a manifest may end: refused, with the head file opened at most, or committed by
a manifest that extends the head and is of the accepted epoch. -/
inductive Ends (C : Crypto) (world : WorldId) (ledger : List Published) (depot : Depot)
    (manifest : SnapshotManifestV1) : Except StorageError Unit → Depot → Prop
  | refused (error : StorageError) (final : Depot)
      (hfinal : final = depot ∨ final = depot.opened world (topRef C ledger)) :
      Ends C world ledger depot manifest (.error error) final
  | known (published : Published) (hmem : published ∈ ledger)
      (hmanifest : published.manifest = manifest)
      (hexists : (depot.slot manifest.snapshotNumber).exists = true) :
      Ends C world ledger depot manifest (.ok ()) (depot.opened world (topRef C ledger))
  | committed (epoch : Option EpochRecordV1)
      (hfree : (depot.slot manifest.snapshotNumber).exists = false)
      (hdirect : validateDirectRef (topRef C ledger) manifest = .ok ())
      (hepoch : validateCommitEpoch manifest depot.control = .ok epoch) :
      Ends C world ledger depot manifest (.ok ()) (depot.committed C world manifest)

end Depot.Chronicles

/-- How a call that may commit ends: it fails before it looks at the history, or as told above. -/
structure Depot.Stops (C : Crypto) (world : WorldId) (ledger : List Published) (depot : Depot)
    (manifest : SnapshotManifestV1) (x : Except StorageError Unit) (t : Depot) : Prop where
  ends : (∃ error, x = .error error ∧ t = depot) ∨
    Chronicles.Ends C world ledger (depot.setIntent .absent) manifest x t
  left : t.Left C world ledger

/-- A commit that starts with the head file opened. -/
theorem Depot.Chronicles.Ends.of_opened {x : Except StorageError Unit} {t : Depot}
    (h : Ends C world ledger (depot.opened world (topRef C ledger)) manifest x t) :
    Ends C world ledger depot manifest x t := by
  cases h with
  | refused error final hfinal => exact .refused error t (.inr (hfinal.elim id id))
  | known published hmem hmanifest hexists => exact .known published hmem hmanifest hexists
  | committed epoch hfree hdirect hepoch => exact .committed epoch hfree hdirect hepoch

/-- Without a commit under way, the two cases are one. -/
theorem Depot.Stops.settled {x : Except StorageError Unit} {t : Depot}
    (h : Stops C world ledger depot manifest x t) (hintent : depot.intent = .absent) :
    Chronicles.Ends C world ledger depot manifest x t := by
  rcases h.ends with ⟨error, rfl, rfl⟩ | h
  · exact .refused error _ (.inl rfl)
  · rwa [Depot.setIntent, ← hintent] at h

namespace Depot.Ready

open Depot.Chronicles

variable (h : depot.Ready C world ledger)

include h

theorem refused {α : Type} {x : Except StorageError α} (error : StorageError) (_ : x = .error error) :
    Depot.Stops C world ledger depot manifest (.error error) (depot.resumed C world ledger) :=
  ⟨.inr (.refused error _ (.inr rfl)), h.resumed.left⟩

/-- A commit into a slot that is taken. -/
theorem meets_commitTaken (hexists : (depot.slot manifest.snapshotNumber).exists = true) :
    Meets (Depot.Ready C world ledger) (Depot.Stops C world ledger depot manifest)
      (commitTaken C world manifest) depot := by
  obtain ⟨published, hmem, _, hload⟩ := h.chronicles.opened.slot_exists hexists
  refine h.gives_validateNamespace.bind (meets_look_bind (meets_lift_ok_bind hload (meets_lift ?_)))
  by_cases hsame : published.manifest.manifestHash C = manifest.manifestHash C
  · rw [ensure_eq_ok.mpr hsame]
    rw [SnapshotManifestV1.manifestHash_inj] at hsame
    exact ⟨.inr (.known published hmem hsame hexists), h.resumed.left⟩
  · rw [ensure, if_neg hsame]
    exact ⟨.inr (.refused _ _ (.inr rfl)), h.resumed.left⟩

/-- A commit into a free slot stops before its intent, before or after its head file was written,
or when its intent is gone. -/
theorem meets_commitFree (fence : Option CanonicalCommitFence) (hworld : manifest.worldId = world)
    (hfree : (depot.slot manifest.snapshotNumber).exists = false) :
    Meets (Depot.Left C world ledger) (Depot.Stops C world ledger depot manifest)
      (commitFree C world fence manifest) depot := by
  let base := depot.resumed C world ledger
  let begun := base.setIntent (.present ⟨world, topRef C ledger, canonicalRef C manifest⟩)
  have hnew : topRef C ledger ≠ some (canonicalRef C manifest) := by
    intro hsame
    obtain ⟨published, htop, hpublished⟩ := Option.map_eq_some_iff.mp hsame
    have hlookup : depot.slots.lookup published.number = _ := h.chronicles.top published htop
    rw [show published.number = manifest.snapshotNumber from congrArg (·.snapshotNumber) hpublished]
      at hlookup
    rw [Depot.slot, hlookup] at hfree
    cases hfree
  have htaken : ¬ (depot.slot manifest.snapshotNumber).exists = true := by
    rw [hfree]
    decide
  rw [commitFree, beginCommit]
  simp only [bind_assoc]
  refine (h.gives_head.mono fun _ => left).bind ?_
  refine meets_lift_bind (h.refused) fun _ hdirect => meets_look_bind ?_
  refine meets_lift_bind (h.refused) fun epoch hepoch => ?_
  refine meets_lift_bind (h.refused) fun _ _ => ?_
  have hcommitted : (base.committed C world manifest).Chronicles C world
      (⟨manifest, epoch⟩ :: ledger) := h.chronicles.opened.committed hworld hdirect
  have hheaded : ((begun.fill manifest).setHead ⟨world, some (canonicalRef C manifest)⟩).Left C world
      ledger := .inr ⟨[⟨manifest, epoch⟩], hcommitted, .inr ⟨_, _, rfl, rfl⟩⟩
  refine meets_step_bind (.inl ⟨_, _, rfl, rfl, hnew⟩) ?_
  refine Gives.bind (a := ()) (t := begun.fill manifest) (meets_look_bind ?_) ?_
  · split
    · next hexists => exact absurd hexists htaken
    · exact meets_step (.inl ⟨_, _, rfl, rfl, hnew⟩) ⟨rfl, rfl⟩
  · refine meets_step_bind hheaded ((gives_createRequired hheaded).bind ?_)
    have hdone : (base.committed C world manifest).Left C world ledger :=
      .inr ⟨[⟨manifest, epoch⟩], hcommitted.ready⟩
    exact meets_step hdone ⟨.inr (.committed epoch hfree hdirect hepoch), hdone⟩

/-- A commit, whichever slot it is for. -/
theorem meets_commit (pins : Option (List Hash32)) (fence : Option CanonicalCommitFence)
    (hworld : manifest.worldId = world) :
    Meets (Depot.Left C world ledger) (Depot.Stops C world ledger depot manifest)
      (commitSnapshotStreaming C Z world pins fence manifest) depot := by
  refine meets_lift_bind (fun error _ => ⟨.inl ⟨error, rfl, rfl⟩, h.left⟩) fun _ _ => meets_look_bind ?_
  refine meets_lift_bind (fun error _ => ⟨.inl ⟨error, rfl, rfl⟩, h.left⟩) fun _ _ => ?_
  by_cases hexists : (depot.slot manifest.snapshotNumber).exists = true
  · rw [if_pos hexists]
    exact (h.meets_commitTaken hexists).mono (fun _ => left) fun _ _ hx => hx
  · rw [if_neg hexists]
    exact h.meets_commitFree fence hworld (by simpa using hexists)

/-- A replica is committed on the newest snapshot. -/
theorem meets_finalizeReplica (hworld : manifest.worldId = world) :
    Meets (Depot.Left C world ledger) (Depot.Stops C world ledger depot manifest)
      (finalizeReplica C Z world manifest) depot := by
  refine meets_lift_bind (fun error _ => ⟨.inl ⟨error, rfl, rfl⟩, h.left⟩) fun _ _ => ?_
  refine (h.gives_latest.mono fun _ => left).bind ?_
  refine meets_lift_bind (h.refused) fun _ _ => meets_look_bind ?_
  refine meets_lift_bind (h.refused) fun _ _ => ?_
  refine (h.resumed.gives_latest.mono fun _ => left).bind ?_
  by_cases hsame : ledger.head?.map Published.manifest = some manifest
  · rw [if_pos hsame]
    obtain ⟨published, hhead, rfl⟩ := Option.map_eq_some_iff.mp hsame
    refine meets_pure ⟨.inr (.known published (List.mem_of_mem_head? hhead) rfl ?_), h.resumed.left⟩
    change ((depot.slots.lookup published.number).getD .absent).exists = true
    rw [show depot.slots.lookup _ = _ from h.chronicles.top published hhead]
    rfl
  · rw [if_neg hsame]
    refine (h.resumed.meets_commit none none hworld).mono (fun _ ht => ht) fun x t hx => ?_
    exact ⟨.inr (hx.settled rfl).of_opened, hx.left⟩

end Depot.Ready

/-! ## Retention -/

namespace Depot.Chronicles

/-- Removing a manifest below the head keeps the history. -/
theorem drop (h : depot.Chronicles C world ledger) {number : Nat}
    (hbelow : ∀ published, ledger.head? = some published → published.number ≠ number) :
    (depot.drop number).Chronicles C world ledger where
  chained := h.chained
  ofWorld := h.ofWorld
  settled := h.settled
  head := h.head
  slots := by
    intro other file hfile
    refine h.slots other file ?_
    change (depot.slots.erase number).lookup other = some file at hfile
    by_cases hother : other = number
    · rw [hother, AList.lookup_erase] at hfile
      cases hfile
    · rwa [AList.lookup_erase_ne hother] at hfile
  top := by
    intro published htop
    change (depot.slots.erase number).lookup published.number = _
    rw [AList.lookup_erase_ne (hbelow published htop)]
    exact h.top published htop

/-- The last of the listed manifests is the head. -/
theorem Lists.last {manifests : List SnapshotManifestV1} {published : Published}
    (h : depot.Chronicles C world ledger)
    (hlists : Lists ledger depot manifests) (htop : ledger.head? = some published)
    (hlast : manifests.getLast? = some manifest) : manifest.snapshotNumber = published.number := by
  obtain ⟨init, rfl⟩ := List.getLast?_eq_some_iff.mp hlast
  have hmem : published ∈ ledger := List.mem_of_mem_head? htop
  -- It is not above the head, as a manifest of the ledger.
  have hle : manifest.snapshotNumber ≤ published.number := by
    obtain ⟨other, hother, rfl⟩ := hlists.known manifest (by simp)
    obtain ⟨rest, rfl⟩ : ∃ rest, ledger = published :: rest := by
      cases ledger with
      | nil => cases htop
      | cons newest rest => exact ⟨rest, by rw [Option.some.inj htop]⟩
    have hother := h.chained.number_le hother
    have hnumber := h.chained.number_head
    have hsame : other.manifest.snapshotNumber = other.number := rfl
    simp only [List.length_cons] at hother
    omega
  -- It is not below the head, which is listed too.
  have hge : published.number ≤ manifest.snapshotNumber := by
    have hlisted := hlists.survive published hmem (h.top published htop)
    rcases List.mem_append.mp hlisted with hbefore | hsame
    · exact (List.pairwise_append.mp hlists.sorted).2.2 _ hbefore _ (by simp)
    · exact Nat.le_of_eq (congrArg _ (List.mem_singleton.mp hsame))
  omega

end Depot.Chronicles

/-- The newest snapshot is always retained. -/
theorem retentionRoots_last {policy : RetentionPolicy} {snapshots : List SnapshotManifestV1}
    {control : Store} {retained : List Nat}
    (h : retentionRoots C world policy snapshots control = .ok retained)
    (hlast : snapshots.getLast? = some manifest) : manifest.snapshotNumber ∈ retained := by
  simp only [retentionRoots, bind_eq_ok, pure_eq_ok, hlast] at h
  obtain ⟨_, _, _, _, rfl⟩ := h
  simp

namespace Depot.Ready

open Depot.Chronicles

/-- Removing manifests below the head keeps the history after each of them. -/
theorem meets_dropAll (h : depot.Ready C world ledger) {numbers : List Nat}
    (hbelow : ∀ number ∈ numbers, ∀ published, ledger.head? = some published →
      published.number ≠ number) :
    Meets (Depot.Ready C world ledger) (fun _ t => t.intent = depot.intent ∧
      t.Ready C world ledger ∧ t.control = depot.control) (dropAll numbers) depot := by
  induction numbers generalizing depot with
  | nil => exact meets_pure ⟨rfl, h, rfl⟩
  | cons number rest ih =>
    have hdrop : (depot.drop number).Ready C world ledger :=
      ⟨h.chronicles.drop (hbelow number List.mem_cons_self), h.intent⟩
    refine meets_step_bind hdrop (ih hdrop fun other hother => ?_)
    exact hbelow other (List.mem_cons_of_mem _ hother)

variable (h : depot.Ready C world ledger)

include h

/-- Pruning keeps the ledger. -/
theorem meets_pruneSnapshots (policy : RetentionPolicy) :
    Meets (Depot.Ready C world ledger) (fun _ t => t.intent = .absent ∧
      t.Ready C world ledger ∧ t.control = depot.control)
      (pruneSnapshots C world policy) depot := by
  obtain ⟨manifests, hlist, hlists⟩ := h.gives_listSnapshots
  refine hlist.bind ?_
  by_cases hempty : manifests = []
  · rw [if_pos hempty]
    exact meets_pure ⟨rfl, h.resumed, rfl⟩
  · rw [if_neg hempty]
    refine meets_look_bind ?_
    refine meets_lift_bind (fun _ _ => ⟨rfl, h.resumed, rfl⟩) fun retained hroots => ?_
    refine h.resumed.meets_dropAll fun number hnumber published htop heq => ?_
    obtain ⟨last, hlast⟩ := Option.isSome_iff_exists.mp (List.getLast?_isSome.mpr hempty)
    have hretained := retentionRoots_last hroots hlast
    rw [Lists.last h.chronicles.opened hlists htop hlast, heq] at hretained
    exact of_decide_eq_true (List.mem_filter.mp hnumber).2 hretained

/-- Collecting blobs keeps the ledger. -/
theorem meets_garbageCollectBlobs (pins : List Hash32) :
    Meets (Depot.Ready C world ledger) (fun _ t => t.intent = .absent ∧
      t.Ready C world ledger ∧ t.control = depot.control)
      (garbageCollectBlobs C world pins) depot := by
  obtain ⟨manifests, hlist, _⟩ := h.gives_listSnapshots
  have hswept (live : List Hash32) : ((depot.resumed C world ledger).sweep live).Ready C world ledger :=
    Depot.Chronicles.ready (h.chronicles.opened.congr rfl rfl rfl rfl)
  exact hlist.bind (meets_step (hswept _) ⟨rfl, hswept _, rfl⟩)

end Depot.Ready

end SwarmCraft
