import SwarmCraft.Protocol.Source
import SwarmCraft.Storage.Store

/-!
# Watching the permit of an authority

A running server reads the permit file of its world again and again. It trusts the permit while the
heartbeat in the file changes: one heartbeat, however often it is read, says nothing. The file may
be missing, malformed or of another generation at any reading. Instants are in nanoseconds.
-/

namespace SwarmCraft

/-- `PERMIT_TIMEOUT`. -/
def permitTimeout : Nat := 6 * 1000000000

/-- `str::split_whitespace`. -/
def splitWhitespace (value : String) : List (List Char) :=
  (value.toList.splitOnP isWhitespace).filter (· ≠ [])

/-- `str::parse::<u64>`: decimal digits, after a plus sign or not, without overflow. -/
def parseU64 (field : List Char) : Option Nat :=
  let digits := if field.head? = some '+' then field.tail else field
  let number := digits.foldl (fun n c => 10 * n + (c.toNat - 48)) 0
  if digits ≠ [] ∧ digits.all Char.isDigit = true ∧ number ≤ u64Max then some number else none

/-- `parse_permit`. -/
def parsePermit (value : String) : Option AuthorityPermit :=
  match splitWhitespace value with
  | [epoch, fencingToken, heartbeat] => do
    return ⟨⟨← parseU64 epoch, ← parseU64 fencingToken⟩, ← parseU64 heartbeat⟩
  | _ => none

/-- `PermitWatch`. -/
structure PermitWatch where
  expected : AuthorityGeneration
  lastHeartbeat : Option Nat := none
  lastRefresh : Option Nat := none
  deriving DecidableEq

/-- One reading of the permit file: its text, unless it cannot be read, and the instant. -/
structure PermitReading where
  text : Option String
  now : Nat
  deriving DecidableEq

/-- The permit that is read. -/
def PermitReading.permit (reading : PermitReading) : Option AuthorityPermit :=
  reading.text.bind parsePermit

namespace PermitWatch

/-- `PermitWatch::is_fresh`; `duration_since` is zero for an earlier instant. -/
def isFresh (watch : PermitWatch) (now : Nat) : Bool :=
  watch.lastRefresh.any fun refresh => now - refresh < permitTimeout

/-- What a heartbeat of the expected generation changes. -/
def beat (watch : PermitWatch) (heartbeat now : Nat) : PermitWatch :=
  match watch.lastHeartbeat with
  | none => { watch with lastHeartbeat := some heartbeat }
  | some previous =>
    if previous ≠ heartbeat then
      { watch with lastHeartbeat := some heartbeat, lastRefresh := some now }
    else watch

/-- `PermitWatch::observe`, with the watch afterwards; a file that cannot be read is an error. -/
def observe (watch : PermitWatch) (reading : PermitReading) : Option Bool × PermitWatch :=
  match reading.text with
  | none => (none, watch)
  | some value =>
    match parsePermit value with
    | none => (some false, watch)
    | some permit =>
      if permit.generation ≠ watch.expected then (some false, watch)
      else
        let watch := watch.beat permit.heartbeat reading.now
        (some (watch.isFresh reading.now), watch)

/-- The watch after a sequence of readings. -/
def observeAll (watch : PermitWatch) (readings : List PermitReading) : PermitWatch :=
  readings.foldl (fun watch reading => (watch.observe reading).2) watch

/-- A reading changes the watch by a heartbeat of the expected generation, or not at all. -/
theorem observe_cases (watch : PermitWatch) (reading : PermitReading) :
    (watch.observe reading).2 = watch ∨ ∃ permit, reading.permit = some permit ∧
      permit.generation = watch.expected ∧
      (watch.observe reading).2 = watch.beat permit.heartbeat reading.now := by
  unfold observe
  split
  · exact .inl rfl
  · next value hvalue =>
    split
    · exact .inl rfl
    · next permit hpermit =>
      split
      · exact .inl rfl
      · next hexpected =>
        have hread : reading.permit = some permit := by
          simp [PermitReading.permit, hvalue, hpermit]
        exact .inr ⟨permit, hread, not_not.mp hexpected, rfl⟩

/-- Two of the readings are of the expected generation with different heartbeats, the later one at
the given instant. -/
def Progressed (expected : AuthorityGeneration) (readings : List PermitReading) (instant : Nat) :
    Prop :=
  ∃ first second a b, [first, second].Sublist readings ∧ first.permit = some ⟨expected, a⟩ ∧
    second.permit = some ⟨expected, b⟩ ∧ a ≠ b ∧ second.now = instant

/-- The state of a watch goes back to past readings: the last heartbeat to one, the last refresh to
two with different heartbeats. -/
structure Backed (expected : AuthorityGeneration) (past : List PermitReading)
    (watch : PermitWatch) : Prop where
  generation : watch.expected = expected
  heartbeat : ∀ last, watch.lastHeartbeat = some last →
    ∃ reading ∈ past, reading.permit = some ⟨expected, last⟩
  refresh : ∀ instant, watch.lastRefresh = some instant → Progressed expected past instant

variable {expected : AuthorityGeneration} {past readings : List PermitReading}
  {watch : PermitWatch}

/-- What the past backs, a longer past backs. -/
theorem Backed.mono (h : watch.Backed expected past) (hpast : past.Sublist readings) :
    watch.Backed expected readings := by
  refine ⟨h.generation, fun last hlast => ?_, fun instant hinstant => ?_⟩
  · obtain ⟨reading, hmem, hpermit⟩ := h.heartbeat last hlast
    exact ⟨reading, hpast.subset hmem, hpermit⟩
  · obtain ⟨first, second, a, b, hpair, hrest⟩ := h.refresh instant hinstant
    exact ⟨first, second, a, b, hpair.trans hpast, hrest⟩

/-- A reading keeps the watch backed. -/
theorem Backed.observe (h : watch.Backed expected past) (reading : PermitReading) :
    (watch.observe reading).2.Backed expected (past ++ [reading]) := by
  have hold := h.mono (List.sublist_append_left past [reading])
  rcases watch.observe_cases reading with hsame | ⟨permit, hpermit, hexpected, hbeat⟩
  · rwa [hsame]
  · rw [hbeat]
    obtain ⟨generation, heartbeat⟩ := permit
    obtain rfl : generation = expected := hexpected.trans h.generation
    have hread : ∃ other ∈ past ++ [reading], other.permit = some ⟨generation, heartbeat⟩ :=
      ⟨reading, by simp, hpermit⟩
    unfold beat
    split
    · exact ⟨h.generation, fun last hlast => Option.some.inj hlast ▸ hread, hold.refresh⟩
    · next previous hprevious =>
      split
      · next hchanged =>
        refine ⟨h.generation, fun last hlast => Option.some.inj hlast ▸ hread,
          fun instant hat => ?_⟩
        -- The heartbeat before was read in the past, this one is read now.
        obtain ⟨before, hmem, hbefore⟩ := h.heartbeat previous hprevious
        have hpair : [before, reading].Sublist (past ++ [reading]) :=
          (List.singleton_sublist.mpr hmem).append (List.Sublist.refl [reading])
        exact ⟨before, reading, previous, heartbeat, hpair, hbefore, hpermit, hchanged,
          Option.some.inj hat⟩
      · exact hold

/-- The watch of every sequence of readings is backed by them. -/
theorem backed_observeAll (expected : AuthorityGeneration) (readings : List PermitReading) :
    (observeAll { expected } readings).Backed expected readings := by
  induction readings using List.reverseRecOn with
  | nil => exact ⟨rfl, nofun, nofun⟩
  | append_singleton past reading ih =>
    rw [observeAll, List.foldl_append]
    exact ih.observe reading

/-- A permit is fresh only while two past readings of the expected generation have different
heartbeats, the later of them within the timeout. -/
theorem isFresh_after_progress (expected : AuthorityGeneration) (readings : List PermitReading)
    (now : Nat) (hpast : ∀ reading ∈ readings, reading.now ≤ now)
    (hfresh : (observeAll { expected } readings).isFresh now = true) :
    ∃ instant, Progressed expected readings instant ∧ instant ≤ now ∧
      now < instant + permitTimeout := by
  rw [isFresh, Option.any_eq_true] at hfresh
  obtain ⟨instant, hinstant, hrecent⟩ := hfresh
  have hprogressed := (backed_observeAll expected readings).refresh instant hinstant
  have ⟨first, second, a, b, hpair, _, _, _, hnow⟩ := hprogressed
  have hbefore := hpast second (hpair.subset (by simp))
  have := of_decide_eq_true hrecent
  exact ⟨instant, hprogressed, by omega, by omega⟩

/-- A missing file, a first heartbeat, the same again and a new one: fresh two seconds later. -/
theorem isFresh_after_second_heartbeat :
    let readings : List PermitReading :=
      [⟨none, 0⟩, ⟨some "4 9 1\n", 1⟩, ⟨some "4 9 1\n", 2⟩, ⟨some "4 9 2\n", 3⟩]
    ∃ instant, Progressed ⟨4, 9⟩ readings instant ∧ instant ≤ 2000000000 ∧
      2000000000 < instant + permitTimeout :=
  isFresh_after_progress ⟨4, 9⟩ _ _ (by decide) (by decide +kernel)

end PermitWatch

end SwarmCraft
