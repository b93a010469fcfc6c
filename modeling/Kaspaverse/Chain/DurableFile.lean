import Kaspaverse.Library.Machine
import Kaspaverse.Chain.SendsStore

namespace Kaspaverse.Chain.DurableFile

open SendsStore

structure Written where
  generation : Nat
  /-- The bytes of the last good write, or as read. -/
  bytes : Option (List UInt8)
  deriving DecidableEq

structure Writer where
  written : Written
  next : Nat
  deriving DecidableEq

/-- One open record of the path. -/
structure Handle where
  kept : Bool
  deriving DecidableEq

/-- The writer state of the path in this process. -/
def writerFor (existing : Option Writer) : Writer := existing.getD ⟨⟨0, none⟩, 0⟩

/-- The writer as opening a handle leaves it: the bytes read count only where none are known. -/
def new (existing : Option Writer) (bytes : List UInt8) : Writer :=
  let writer := writerFor existing
  { writer with written := { writer.written with bytes := writer.written.bytes.or (some bytes) } }

/-- A numbered snapshot, which the readers of the path accept. -/
structure Snapshot (json : Json) (network : String) where
  generation : Nat
  bytes : List UInt8
  legible : (legible json network bytes).isSome

inductive Outcome
  | superseded
  | unchanged
  | replaced
  | failed
  deriving DecidableEq

def Outcome.ok (outcome : Outcome) : Bool := outcome != .failed

/-- The check and the write one blocking task runs under the writer's lock; `refused` when
    `atomic_write` fails before its rename. -/
def land (written : Written) (contents : Contents) (generation : Nat) (bytes : List UInt8)
    (refused : Bool) : Outcome × Written × Contents :=
  if generation ≤ written.generation then (.superseded, written, contents)
  else if written.bytes = some bytes then
    (.unchanged, { written with generation := generation }, contents)
  else if refused then (.failed, written, contents)
  else (.replaced, ⟨generation, some bytes⟩, .file bytes)

/-- A path, its writer and the writes on their way to it. The last three fields watch: the writes
    that returned well, what the first load left at the path, and whether a later load moved an
    unreadable file aside. -/
structure Path (json : Json) (network : String) where
  contents : Contents
  writer : Option Writer
  handles : List Handle
  snapshots : List (Snapshot json network)
  running : List (Nat × Snapshot json network)
  landed : List (Snapshot json network)
  found : Option Contents
  movedAside : Bool

inductive Event
  | load (refusals : Refusals)
  | nextGeneration (handle : Nat) (bytes : List UInt8)
  | write (handle generation : Nat)
  | perform (job : Nat) (refused : Bool)

variable {json : Json} {network : String}

def fresh (json : Json) (network : String) (contents : Contents) : Path json network :=
  ⟨contents, none, [], [], [], [], none, false⟩

def Path.load (path : Path json network) (refusals : Refusals) : Path json network :=
  let loaded := loadSends json network refusals path.contents
  { path with
    contents := loaded.2
    writer := some (new path.writer loaded.1.bytes)
    handles := path.handles ++ [⟨loaded.1.kept⟩]
    found := path.found.or (some loaded.2)
    movedAside := path.movedAside || (path.writer.isSome && loaded.2 != path.contents) }

def Path.nextGeneration (path : Path json network) (writer : Writer) (bytes : List UInt8)
    (readable : (legible json network bytes).isSome) : Path json network :=
  { path with
    writer := some { writer with next := writer.next + 1 }
    snapshots := path.snapshots ++ [⟨writer.next + 1, bytes, readable⟩] }

def Path.perform (path : Path json network) (writer : Writer) (job : Nat)
    (snapshot : Snapshot json network) (refused : Bool) : Path json network :=
  let landing := land writer.written path.contents snapshot.generation snapshot.bytes refused
  { path with
    contents := landing.2.2
    writer := some { writer with written := landing.2.1 }
    running := path.running.eraseIdx job
    landed := if landing.1.ok then path.landed ++ [snapshot] else path.landed }

def step (path : Path json network) : Event → Option (Path json network)
  | .load refusals => some (path.load refusals)
  | .nextGeneration handle bytes =>
    match path.handles[handle]?, path.writer with
    | some _, some writer =>
      if readable : (legible json network bytes).isSome then
        some (path.nextGeneration writer bytes readable)
      else none
    | _, _ => none
  | .write handle generation =>
    match path.handles[handle]?, path.snapshots.find? (·.generation == generation) with
    | some opened, some snapshot =>
      if opened.kept then some path
      else some { path with running := path.running ++ [(handle, snapshot)] }
    | _, _ => none
  | .perform job refused =>
    match path.running[job]?, path.writer with
    | some (_, snapshot), some writer => some (path.perform writer job snapshot refused)
    | _, _ => none

/-- The newest landed snapshot is what the path holds, or what the first load left there. -/
def Path.HoldsNewest (path : Path json network) : Prop :=
  (∀ top ∈ path.landed, (∀ other ∈ path.landed, other.generation ≤ top.generation) →
    path.contents = .file top.bytes) ∧
  (path.landed = [] → path.movedAside = false → ∀ found, path.found = some found →
    path.contents = found)

/-- What the writer knows of the path. -/
structure WriterInv (path : Path json network) (writer : Writer) : Prop where
  numbered : ∀ snapshot ∈ path.snapshots, 0 < snapshot.generation ∧
    snapshot.generation ≤ writer.next
  reached : ∀ snapshot ∈ path.landed, snapshot.generation ≤ writer.written.generation
  newest : path.landed ≠ [] → ∃ top ∈ path.landed,
    top.generation = writer.written.generation ∧ path.contents = .file top.bytes
  untouched : path.landed = [] → writer.written.generation = 0 ∧
    (path.movedAside = false → path.found = some path.contents)
  remembered : ∀ bytes, writer.written.bytes = some bytes →
    (legible json network bytes).isSome → path.contents = .file bytes

structure Inv (path : Path json network) : Prop where
  ordered : path.snapshots.Pairwise fun a b => a.generation < b.generation
  landedNumbered : ∀ snapshot ∈ path.landed, snapshot ∈ path.snapshots
  runningNumbered : ∀ job ∈ path.running, job.2 ∈ path.snapshots ∧
    path.handles[job.1]? = some ⟨false⟩
  unopened : path.writer = none → path.found = none ∧ path.handles = [] ∧ path.snapshots = []
  opened : ∀ writer, path.writer = some writer → WriterInv path writer

theorem land_cases (written : Written) (contents : Contents) (generation : Nat)
    (bytes : List UInt8) (refused : Bool) :
    (generation ≤ written.generation ∧
      land written contents generation bytes refused = (.superseded, written, contents)) ∨
    (written.generation < generation ∧ written.bytes = some bytes ∧
      land written contents generation bytes refused =
        (.unchanged, ⟨generation, some bytes⟩, contents)) ∨
    (written.generation < generation ∧ written.bytes ≠ some bytes ∧ refused = true ∧
      land written contents generation bytes refused = (.failed, written, contents)) ∨
    (written.generation < generation ∧ written.bytes ≠ some bytes ∧ refused = false ∧
      land written contents generation bytes refused =
        (.replaced, ⟨generation, some bytes⟩, .file bytes)) := by
  unfold land
  by_cases old : generation ≤ written.generation
  · exact Or.inl ⟨old, if_pos old⟩
  · have newer : written.generation < generation := by omega
    rw [if_neg old]
    by_cases same : written.bytes = some bytes
    · rw [if_pos same]
      refine Or.inr (Or.inl ⟨newer, same, ?_⟩)
      rw [← same]
    · rw [if_neg same]
      cases refused with
      | true => exact Or.inr (Or.inr (Or.inl ⟨newer, same, rfl, rfl⟩))
      | false => exact Or.inr (Or.inr (Or.inr ⟨newer, same, rfl, rfl⟩))

/-- Reading a path leaves it as it was, or moves what stood there aside. -/
theorem loadSends_contents (json : Json) (network : String) (refusals : Refusals) (contents : Contents) :
    (loadSends json network refusals contents).2 = contents ∨
      (loadSends json network refusals contents).2 = .absent ∧
      (loadSends json network refusals contents).1.kept = false := by
  cases contents with
  | absent =>
    apply Or.inl
    cases h : refusals.read <;> simp [loadSends, readEnvelope, h]
  | directory =>
    cases h : refusals.aside <;> simp [loadSends, readEnvelope, setAside, h]
  | file bytes =>
    cases h : refusals.read with
    | true => simp [loadSends, readEnvelope, h]
    | false =>
      cases read : legible json network bytes with
      | some envelope => simp [loadSends, readEnvelope, h, read]
      | none => cases aside : refusals.aside <;> simp [loadSends, readEnvelope, setAside, h, read, aside]

theorem loadSends_legible {json : Json} {network : String} (refusals : Refusals) {bytes : List UInt8}
    (readable : (legible json network bytes).isSome) :
    (loadSends json network refusals (.file bytes)).2 = .file bytes := by
  obtain ⟨envelope, read⟩ := Option.isSome_iff_exists.mp readable
  cases h : refusals.read <;> simp [loadSends, readEnvelope, h, read]

/-- Legible bytes a load hands the writer are what it left at the path. -/
theorem loadSends_bytes (refusals : Refusals) (contents : Contents)
    (readable : (legible json network (loadSends json network refusals contents).1.bytes).isSome) :
    (loadSends json network refusals contents).2 =
      .file (loadSends json network refusals contents).1.bytes := by
  have nothing : ¬ (legible json network []).isSome := by simp [legible_nil]
  cases contents with
  | absent =>
    cases h : refusals.read <;> simp [loadSends, readEnvelope, h] at readable <;>
      exact absurd readable nothing
  | directory =>
    cases h : refusals.aside <;> simp [loadSends, readEnvelope, setAside, h] at readable <;>
      exact absurd readable nothing
  | file bytes =>
    cases h : refusals.read with
    | true =>
      simp [loadSends, readEnvelope, h] at readable
      exact absurd readable nothing
    | false =>
      cases read : legible json network bytes with
      | some envelope => simp [loadSends, readEnvelope, h, read]
      | none =>
        cases aside : refusals.aside <;>
          simp [loadSends, readEnvelope, setAside, h, read, aside] at readable <;>
          exact absurd readable nothing

theorem step_cases {path next : Path json network} {event : Event}
    (taken : step path event = some next) :
    (∃ refusals, event = .load refusals ∧ next = path.load refusals) ∨
    (∃ handle bytes writer readable, event = .nextGeneration handle bytes ∧
      path.writer = some writer ∧ next = path.nextGeneration writer bytes readable) ∨
    (∃ handle generation snapshot opened, event = .write handle generation ∧
      snapshot ∈ path.snapshots ∧ path.handles[handle]? = some opened ∧
      (opened.kept = true ∧ next = path ∨ opened.kept = false ∧
        next = { path with running := path.running ++ [(handle, snapshot)] })) ∨
    (∃ job refused handle snapshot writer, event = .perform job refused ∧
      path.running[job]? = some (handle, snapshot) ∧ path.writer = some writer ∧
      next = path.perform writer job snapshot refused) := by
  cases event with
  | load refusals => exact Or.inl ⟨refusals, rfl, (Option.some.inj taken).symm⟩
  | nextGeneration handle bytes =>
    apply Or.inr
    apply Or.inl
    simp only [step] at taken
    split at taken
    · rename_i writer _ known
      split at taken
      · rename_i readable
        exact ⟨handle, bytes, writer, readable, rfl, known, (Option.some.inj taken).symm⟩
      · cases taken
    · cases taken
  | write handle generation =>
    apply Or.inr
    apply Or.inr
    apply Or.inl
    simp only [step] at taken
    split at taken
    · rename_i opened snapshot atHandle numbered
      have member : snapshot ∈ path.snapshots := List.mem_of_find?_eq_some numbered
      refine ⟨handle, generation, snapshot, opened, rfl, member, atHandle, ?_⟩
      cases h : opened.kept with
      | true =>
        rw [h, if_pos rfl] at taken
        exact Or.inl ⟨rfl, (Option.some.inj taken).symm⟩
      | false =>
        rw [h, if_neg Bool.false_ne_true] at taken
        exact Or.inr ⟨rfl, (Option.some.inj taken).symm⟩
    · cases taken
  | perform job refused =>
    apply Or.inr
    apply Or.inr
    apply Or.inr
    simp only [step] at taken
    split at taken
    · rename_i handle snapshot writer atJob known
      exact ⟨job, refused, handle, snapshot, writer, rfl, atJob, known, (Option.some.inj taken).symm⟩
    · cases taken

theorem inv_fresh (contents : Contents) : Inv (fresh json network contents) where
  ordered := .nil
  landedNumbered := by simp [fresh]
  runningNumbered := by simp [fresh]
  unopened := by simp [fresh]
  opened := by simp [fresh]

theorem inv_load {path : Path json network} (inv : Inv path) (refusals : Refusals) :
    Inv (path.load refusals) := by
  refine ⟨inv.ordered, inv.landedNumbered, ?_, ?_, ?_⟩
  · intro job member
    obtain ⟨numbered, atHandle⟩ := inv.runningNumbered job member
    refine ⟨numbered, ?_⟩
    have inside : job.1 < path.handles.length := (List.getElem?_eq_some_iff.mp atHandle).1
    change (path.handles ++ _)[job.1]? = _
    rw [List.getElem?_append_left inside]
    exact atHandle
  · intro none
    cases none
  · intro writer now
    cases before : path.writer with
    | none =>
      obtain ⟨notFound, _, noSnapshots⟩ := inv.unopened before
      have noneLanded : path.landed = [] := by
        apply List.eq_nil_iff_forall_not_mem.mpr
        intro snapshot member
        have numbered := inv.landedNumbered snapshot member
        rw [noSnapshots] at numbered
        cases numbered
      have writerIs : writer = ⟨⟨0, some (loadSends json network refusals path.contents).1.bytes⟩, 0⟩ := by
        have opened := Option.some.inj now
        rw [← opened, before]
        rfl
      subst writerIs
      refine ⟨?_, ?_, ?_, ?_, ?_⟩
      · simp [Path.load, noSnapshots]
      · simp [Path.load, noneLanded]
      · simp [Path.load, noneLanded]
      · intro _
        exact ⟨rfl, by simp [Path.load, notFound]⟩
      · intro bytes known readable
        cases known
        exact loadSends_bytes refusals path.contents readable
    | some old =>
      have known := inv.opened old before
      have writerIs : writer = new (some old) (loadSends json network refusals path.contents).1.bytes := by
        have opened := Option.some.inj now
        rw [← opened, before]
      subst writerIs
      refine ⟨known.numbered, known.reached, ?_, ?_, ?_⟩
      · intro landed
        obtain ⟨top, member, generation, holds⟩ := known.newest landed
        refine ⟨top, member, generation, ?_⟩
        have kept := loadSends_legible refusals top.legible
        change (loadSends json network refusals path.contents).2 = _
        rw [holds]
        exact kept
      · intro noneLanded
        obtain ⟨zero, same⟩ := known.untouched noneLanded
        refine ⟨zero, ?_⟩
        intro still
        simp only [Path.load, before, Option.isSome_some, Bool.true_and, Bool.or_eq_false_iff,
          bne_eq_false_iff_eq] at still
        have wasFound := same still.1
        simp only [Path.load, wasFound, Option.some_or, still.2]
      · intro bytes remembered readable
        change old.written.bytes.or _ = _ at remembered
        cases already : old.written.bytes with
        | some earlier =>
          simp only [already, Option.some_or, Option.some.injEq] at remembered
          subst remembered
          have holds := known.remembered earlier already readable
          have kept := loadSends_legible refusals readable
          change (loadSends json network refusals path.contents).2 = _
          rw [holds]
          exact kept
        | none =>
          simp only [already, Option.none_or, Option.some.injEq] at remembered
          subst remembered
          exact loadSends_bytes refusals path.contents readable

theorem inv_nextGeneration {path : Path json network} (inv : Inv path) {writer : Writer}
    (known : path.writer = some writer) {bytes : List UInt8}
    (readable : (legible json network bytes).isSome) :
    Inv (path.nextGeneration writer bytes readable) := by
  have before := inv.opened writer known
  refine ⟨?_, ?_, ?_, ?_, ?_⟩
  · apply List.pairwise_append.mpr
    refine ⟨inv.ordered, List.pairwise_singleton _ _, ?_⟩
    intro old member new last
    have bound := (before.numbered old member).2
    rw [List.mem_singleton.mp last]
    exact Nat.lt_succ_of_le bound
  · intro snapshot member
    exact List.mem_append_left _ (inv.landedNumbered snapshot member)
  · intro job member
    obtain ⟨numbered, atHandle⟩ := inv.runningNumbered job member
    exact ⟨List.mem_append_left _ numbered, atHandle⟩
  · intro none
    cases none
  · intro now same
    cases same
    refine ⟨?_, before.reached, before.newest, before.untouched, before.remembered⟩
    intro snapshot member
    rcases List.mem_append.mp member with old | new
    · have bounds := before.numbered snapshot old
      exact ⟨bounds.1, Nat.le_succ_of_le bounds.2⟩
    · rw [List.mem_singleton.mp new]
      exact ⟨Nat.succ_pos _, le_rfl⟩

theorem inv_write {path : Path json network} (inv : Inv path) {handle : Nat}
    {snapshot : Snapshot json network} (numbered : snapshot ∈ path.snapshots)
    (open_ : path.handles[handle]? = some ⟨false⟩) :
    Inv { path with running := path.running ++ [(handle, snapshot)] } := by
  refine ⟨inv.ordered, inv.landedNumbered, ?_, inv.unopened, ?_⟩
  · intro job member
    rcases List.mem_append.mp member with old | new
    · exact inv.runningNumbered job old
    · rw [List.mem_singleton.mp new]
      exact ⟨numbered, open_⟩
  · intro writer known
    have before := inv.opened writer known
    exact ⟨before.numbered, before.reached, before.newest, before.untouched, before.remembered⟩

/-- Two snapshots of one number are one snapshot. -/
theorem Inv.same_snapshot {path : Path json network} (inv : Inv path)
    {a b : Snapshot json network} (ha : a ∈ path.snapshots) (hb : b ∈ path.snapshots)
    (same : a.generation = b.generation) : a = b := by
  obtain ⟨i, hi, rfl⟩ := List.mem_iff_getElem.mp ha
  obtain ⟨j, hj, rfl⟩ := List.mem_iff_getElem.mp hb
  have ordered := List.pairwise_iff_getElem.mp inv.ordered
  rcases Nat.lt_trichotomy i j with less | equal | more
  · have := ordered i j hi hj less
    omega
  · subst equal
    rfl
  · have := ordered j i hj hi more
    omega

theorem inv_perform {path : Path json network} (inv : Inv path) {writer : Writer}
    (known : path.writer = some writer) {job handle : Nat} {snapshot : Snapshot json network}
    (atJob : path.running[job]? = some (handle, snapshot)) (refused : Bool) :
    Inv (path.perform writer job snapshot refused) := by
  have before := inv.opened writer known
  have numbered : snapshot ∈ path.snapshots :=
    (inv.runningNumbered _ (List.mem_of_getElem? atJob)).1
  have fewer : ∀ other ∈ path.running.eraseIdx job, other ∈ path.running := fun other member =>
    List.mem_of_mem_eraseIdx member
  refine ⟨inv.ordered, ?_, ?_, ?_, ?_⟩
  · intro other member
    simp only [Path.perform] at member
    split at member
    · rcases List.mem_append.mp member with old | new
      · exact inv.landedNumbered other old
      · rw [List.mem_singleton.mp new]
        exact numbered
    · exact inv.landedNumbered other member
  · intro other member
    exact inv.runningNumbered other (fewer other member)
  · intro none
    cases none
  · intro now same
    cases same
    have cases := land_cases writer.written path.contents snapshot.generation snapshot.bytes refused
    rcases cases with ⟨old, landing⟩ | ⟨newer, equal, landing⟩ | ⟨newer, _, _, landing⟩ |
      ⟨newer, _, _, landing⟩
    · have positive := (before.numbered snapshot numbered).1
      have some_ : path.landed ≠ [] := by
        intro none
        have zero := (before.untouched none).1
        omega
      obtain ⟨top, member, generation, holds⟩ := before.newest some_
      refine ⟨before.numbered, ?_, ?_, ?_, ?_⟩ <;>
        simp only [Path.perform, landing, Outcome.ok]
      · intro other member
        rcases List.mem_append.mp member with earlier | new
        · exact before.reached other earlier
        · rw [List.mem_singleton.mp new]
          exact old
      · intro _
        exact ⟨top, List.mem_append_left _ member, generation, holds⟩
      · intro none
        simp at none
      · exact before.remembered
    · have holds := before.remembered snapshot.bytes equal snapshot.legible
      refine ⟨before.numbered, ?_, ?_, ?_, ?_⟩ <;> simp only [Path.perform, landing, Outcome.ok]
      · intro other member
        rcases List.mem_append.mp member with earlier | new
        · have bound := before.reached other earlier
          change other.generation ≤ snapshot.generation
          omega
        · rw [List.mem_singleton.mp new]
      · intro _
        exact ⟨snapshot, List.mem_append_right _ (List.mem_singleton_self _), rfl, holds⟩
      · intro none
        simp at none
      · intro bytes remembered _
        cases remembered
        exact holds
    · refine ⟨before.numbered, ?_, ?_, ?_, ?_⟩ <;>
        simp only [Path.perform, landing, Outcome.ok, bne_self_eq_false, Bool.false_eq_true, if_false]
      · exact before.reached
      · exact before.newest
      · exact before.untouched
      · exact before.remembered
    · refine ⟨before.numbered, ?_, ?_, ?_, ?_⟩ <;> simp only [Path.perform, landing, Outcome.ok]
      · intro other member
        rcases List.mem_append.mp member with earlier | new
        · have bound := before.reached other earlier
          change other.generation ≤ snapshot.generation
          omega
        · rw [List.mem_singleton.mp new]
      · intro _
        exact ⟨snapshot, List.mem_append_right _ (List.mem_singleton_self _), rfl, rfl⟩
      · intro none
        simp at none
      · intro bytes remembered _
        cases remembered
        rfl

theorem inv_step (path : Path json network) (event : Event) (next : Path json network)
    (inv : Inv path) (taken : step path event = some next) : Inv next := by
  rcases step_cases taken with ⟨refusals, rfl, rfl⟩ | ⟨handle, bytes, writer, readable, rfl, known, rfl⟩ |
    ⟨handle, generation, snapshot, opened, rfl, numbered, atHandle, kept | issued⟩ |
    ⟨job, refused, handle, snapshot, writer, rfl, atJob, known, rfl⟩
  · exact inv_load inv refusals
  · exact inv_nextGeneration inv known readable
  · rw [kept.2]
    exact inv
  · obtain ⟨notKept, rfl⟩ := issued
    have atOpen : path.handles[handle]? = some ⟨false⟩ := by
      rw [atHandle, ← notKept]
    exact inv_write inv numbered atOpen
  · exact inv_perform inv known atJob refused

theorem inv_run {path final : Path json network} {events : List Event} (inv : Inv path)
    (reached : Machine.run step path events = some final) : Inv final :=
  Machine.run_invariant inv_step inv reached

theorem step_handles {path next : Path json network} {event : Event} {handle : Nat} {opened : Handle}
    (atHandle : path.handles[handle]? = some opened) (taken : step path event = some next) :
    next.handles[handle]? = some opened := by
  have inside : handle < path.handles.length := (List.getElem?_eq_some_iff.mp atHandle).1
  rcases step_cases taken with ⟨refusals, rfl, rfl⟩ | ⟨_, bytes, writer, readable, rfl, _, rfl⟩ |
    ⟨_, _, snapshot, _, rfl, _, _, ⟨_, rfl⟩ | ⟨_, rfl⟩⟩ | ⟨job, refused, _, snapshot, writer, rfl, _, _, rfl⟩
  · change (path.handles ++ _)[handle]? = _
    rw [List.getElem?_append_left inside]
    exact atHandle
  · exact atHandle
  · exact atHandle
  · exact atHandle
  · exact atHandle

theorem run_handles {path final : Path json network} {events : List Event} {handle : Nat}
    {opened : Handle} (atHandle : path.handles[handle]? = some opened)
    (reached : Machine.run step path events = some final) : final.handles[handle]? = some opened := by
  let stays : Path json network → Prop := fun path => path.handles[handle]? = some opened
  have keeps : ∀ s e next, stays s → step s e = some next → stays next := by
    intro s e next before taken
    exact step_handles before taken
  exact Machine.run_invariant keeps atHandle reached

theorem Inv.holdsNewest {path : Path json network} (inv : Inv path) : path.HoldsNewest := by
  constructor
  · intro top member highest
    cases known : path.writer with
    | none =>
      have none_ := (inv.unopened known).2.2
      have numbered := inv.landedNumbered top member
      rw [none_] at numbered
      cases numbered
    | some writer =>
      have opened := inv.opened writer known
      obtain ⟨newest, landed, generation, holds⟩ := opened.newest (List.ne_nil_of_mem member)
      have bound := opened.reached top member
      have most := highest newest landed
      have same : top = newest :=
        inv.same_snapshot (inv.landedNumbered top member) (inv.landedNumbered newest landed) (by omega)
      rw [same]
      exact holds
  · intro nothing still found isFound
    cases known : path.writer with
    | none =>
      rw [(inv.unopened known).1] at isFound
      cases isFound
    | some writer =>
      have same := ((inv.opened writer known).untouched nothing).2 still
      rw [isFound] at same
      exact (Option.some.inj same).symm

/-- A write that returns well leaves its bytes at the path, or a newer snapshot's. -/
def Path.OkIsOnDisk (path : Path json network) : Prop :=
  ∀ job handle snapshot writer refused, path.running[job]? = some (handle, snapshot) →
    path.writer = some writer →
    (land writer.written path.contents snapshot.generation snapshot.bytes refused).1.ok = true →
    (path.perform writer job snapshot refused).contents = .file snapshot.bytes ∨
      ∃ newer ∈ (path.perform writer job snapshot refused).landed,
        snapshot.generation < newer.generation ∧
        (path.perform writer job snapshot refused).contents = .file newer.bytes

theorem Inv.okIsOnDisk {path : Path json network} (inv : Inv path) : path.OkIsOnDisk := by
  intro job handle snapshot writer refused atJob known ok
  have opened := inv.opened writer known
  have numbered : snapshot ∈ path.snapshots :=
    (inv.runningNumbered _ (List.mem_of_getElem? atJob)).1
  have cases := land_cases writer.written path.contents snapshot.generation snapshot.bytes refused
  rcases cases with ⟨old, landing⟩ | ⟨_, equal, landing⟩ | ⟨_, _, _, landing⟩ | ⟨_, _, _, landing⟩
  · have positive := (opened.numbered snapshot numbered).1
    have some_ : path.landed ≠ [] := by
      intro none
      have zero := (opened.untouched none).1
      omega
    obtain ⟨top, member, generation, holds⟩ := opened.newest some_
    simp only [Path.perform, landing]
    rcases Nat.lt_or_ge snapshot.generation top.generation with less | more
    · exact Or.inr ⟨top, List.mem_append_left _ member, less, holds⟩
    · have same : snapshot = top :=
        inv.same_snapshot numbered (inv.landedNumbered top member) (by omega)
      rw [same]
      exact Or.inl holds
  · simp only [Path.perform, landing]
    exact Or.inl (opened.remembered snapshot.bytes equal snapshot.legible)
  · rw [landing] at ok
    cases ok
  · apply Or.inl
    simp only [Path.perform, landing]

/-- A write that returns an error leaves the path and its writer, so a later equal snapshot is
    written and not skipped. -/
def Path.ErrIsHarmless (path : Path json network) : Prop :=
  ∀ job snapshot writer refused, path.writer = some writer →
    (land writer.written path.contents snapshot.generation snapshot.bytes refused).1.ok = false →
    (path.perform writer job snapshot refused).contents = path.contents ∧
    (path.perform writer job snapshot refused).writer = some writer ∧
    ∀ generation, writer.written.generation < generation →
      land writer.written path.contents generation snapshot.bytes false =
        (.replaced, ⟨generation, some snapshot.bytes⟩, .file snapshot.bytes)

theorem errIsHarmless (path : Path json network) : path.ErrIsHarmless := by
  intro job snapshot writer refused known failed
  have cases := land_cases writer.written path.contents snapshot.generation snapshot.bytes refused
  rcases cases with ⟨_, landing⟩ | ⟨_, _, landing⟩ | ⟨_, different, _, landing⟩ | ⟨_, _, _, landing⟩
  · rw [landing] at failed
    cases failed
  · rw [landing] at failed
    cases failed
  · refine ⟨by simp only [Path.perform, landing], by simp only [Path.perform, landing], ?_⟩
    intro generation newer
    have notOld : ¬ generation ≤ writer.written.generation := by omega
    unfold land
    rw [if_neg notOld, if_neg different, if_neg Bool.false_ne_true]
  · rw [landing] at failed
    cases failed

/-- An unrefused write of a snapshot newer than the last good one leaves its bytes at the path. -/
def Path.NewerIsWritten (path : Path json network) : Prop :=
  ∀ job handle snapshot writer, path.running[job]? = some (handle, snapshot) →
    path.writer = some writer → writer.written.generation < snapshot.generation →
    (path.perform writer job snapshot false).contents = .file snapshot.bytes

theorem Inv.newerIsWritten {path : Path json network} (inv : Inv path) : path.NewerIsWritten := by
  intro job handle snapshot writer _ known newer
  have opened := inv.opened writer known
  have cases := land_cases writer.written path.contents snapshot.generation snapshot.bytes false
  rcases cases with ⟨old, _⟩ | ⟨_, equal, landing⟩ | ⟨_, _, refused, _⟩ | ⟨_, _, _, landing⟩
  · omega
  · simp only [Path.perform, landing]
    exact opened.remembered snapshot.bytes equal snapshot.legible
  · cases refused
  · simp only [Path.perform, landing]

/-- A load that keeps an unreadable file leaves it, and its handle never writes. -/
def Path.KeptNeverWrites (path : Path json network) : Prop :=
  (∀ refusals, (loadSends json network refusals path.contents).1.kept = true →
    (path.load refusals).contents = path.contents) ∧
  ∀ handle, path.handles[handle]? = some ⟨true⟩ →
    (∀ generation next, step path (.write handle generation) = some next → next = path) ∧
    ∀ later after, Machine.run step path later = some after → ∀ job ∈ after.running, job.1 ≠ handle

theorem Inv.keptNeverWrites {path : Path json network} (inv : Inv path) : path.KeptNeverWrites := by
  constructor
  · intro refusals kept
    rcases loadSends_contents json network refusals path.contents with same | ⟨_, notKept⟩
    · exact same
    · rw [notKept] at kept
      cases kept
  · intro handle atHandle
    constructor
    · intro generation next taken
      rcases step_cases taken with ⟨_, isLoad, _⟩ | ⟨_, _, _, _, isNext, _⟩ |
        ⟨_, _, _, opened, isWrite, _, found, ⟨_, same⟩ | ⟨notKept, _⟩⟩ | ⟨_, _, _, _, _, isPerform, _⟩
      · cases isLoad
      · cases isNext
      · exact same
      · cases isWrite
        rw [atHandle] at found
        cases found
        cases notKept
      · cases isPerform
    · intro later after reached job running same
      have stillKept := run_handles atHandle reached
      have writable := ((inv_run inv reached).runningNumbered job running).2
      rw [same, stillKept] at writable
      cases writable

def firstRecord : SendsOut := ⟨FORMAT, "mainnet", .default⟩

def secondRecord : SendsOut := ⟨FORMAT, "mainnet", ⟨[], [⟨"kaspa:qq", 7⟩], []⟩⟩

def firstBytes : List UInt8 :=
  asciiBytes "\x7b\"format\":1,\"network\":\"mainnet\",\"legs\":[],\"landed\":[],\"retired\":[]\x7d"

def secondBytes : List UInt8 :=
  asciiBytes ("\x7b\"format\":1,\"network\":\"mainnet\",\"legs\":[],\"landed\":" ++
    "[\x7b\"paid_to\":\"kaspa:qq\",\"at_unix_ms\":7\x7d],\"retired\":[]\x7d")

/-- Two snapshots whose writes run in the other order, over a directory that is moved aside. -/
def overtaken : List Event :=
  [.load ⟨false, true⟩, .load ⟨false, false⟩, .nextGeneration 1 firstBytes,
    .nextGeneration 1 secondBytes, .write 1 1, .write 1 2, .write 0 1, .perform 1 false, .perform 0 false]

end Kaspaverse.Chain.DurableFile
