import Mathlib
import Kaspaverse.Chain.InFlight
import Kaspaverse.Chain.SendsStore

namespace Kaspaverse.Chain

open SendsStore

/-- What a build and a read take of a leg: its payment key and its input coins. -/
structure LegCoins where
  paidTo : String
  direct : List UtxoEntryReference
  earlier : List UtxoEntryReference
  deriving DecidableEq

def LegMeta.coins (leg : LegMeta) : LegCoins := ⟨leg.paidTo, leg.direct, leg.earlier⟩

def UnknownLeg.coins (leg : UnknownLeg) : LegCoins := ⟨leg.paidTo, leg.held, leg.earlier⟩

@[simp] theorem unknownLeg_coins (leg : LegMeta) (txid : TransactionId) (now : Nat) :
    (leg.unknownLeg txid now).coins = leg.coins := rfl

@[simp] theorem unknownLeg_txid (leg : LegMeta) (txid : TransactionId) (now : Nat) :
    (leg.unknownLeg txid now).txid = txid := rfl

namespace SendsStore

def OutputRecord.of (forms : TextForms) (output : Nat × Nat × Option Address) : OutputRecord :=
  ⟨output.1, output.2.1, output.2.2.map forms.address⟩

def OutputRecord.output (forms : TextForms) (record : OutputRecord) :
    Option (Nat × Nat × Option Address) :=
  (parseOptional forms.parseAddress record.address).map fun address =>
    (record.index, record.value, address)

theorem output_of (forms : TextForms) (output : Nat × Nat × Option Address) :
    (OutputRecord.of forms output).output forms = some output := by
  have address := parseOptional_map forms.parse_address output.2.2
  rw [OutputRecord.output, OutputRecord.of, address]
  rfl

end SendsStore

def LegMeta.record (forms : TextForms) (leg : LegMeta) (txid : TransactionId) (state : LegState) :
    LegRecord where
  txid := forms.hash txid
  state := state
  paidTo := leg.paidTo
  direct := leg.direct.map (CoinRecord.of forms)
  earlier := leg.earlier.map (CoinRecord.of forms)
  outputs := leg.outputs.map (OutputRecord.of forms)
  sinceUnixMs := leg.sinceUnixMs
  sinceDaa := leg.sinceDaa

/-- Every value parsed, or none. -/
def parseAll {α β : Type} (parse : α → Option β) : List α → Option (List β)
  | [] => some []
  | a :: rest => (parse a).bind fun b => (parseAll parse rest).map (b :: ·)

def LegMeta.fromRecord (forms : TextForms) (record : LegRecord) : Option LegMeta := do
  let outputs ← parseAll (OutputRecord.output forms) record.outputs
  let direct ← parseAll (CoinRecord.coin forms) record.direct
  let earlier ← parseAll (CoinRecord.coin forms) record.earlier
  return {
    paidTo := record.paidTo
    direct := direct
    earlier := earlier
    outputs := outputs
    sinceUnixMs := record.sinceUnixMs
    sinceDaa := record.sinceDaa }

theorem parseAll_map {α β : Type} {parse : α → Option β} {print : β → α}
    (round : ∀ b, parse (print b) = some b) (values : List β) :
    parseAll parse (values.map print) = some values := by
  induction values with
  | nil => rfl
  | cons b rest ih =>
    rw [List.map_cons, parseAll, round, Option.bind_some, ih]
    rfl

theorem fromRecord_record (forms : TextForms) (leg : LegMeta) (txid : TransactionId)
    (state : LegState) : LegMeta.fromRecord forms (leg.record forms txid state) = some leg := by
  have outputs := parseAll_map (output_of forms) leg.outputs
  have direct := parseAll_map (coin_of forms) leg.direct
  have earlier := parseAll_map (coin_of forms) leg.earlier
  simp only [LegMeta.fromRecord, LegMeta.record, outputs, direct, earlier, bind, pure,
    Option.bind_some]

/-- A leg of a snapshot, before it is put in words. -/
structure SnapshotLeg where
  txid : TransactionId
  leg : LegMeta
  state : LegState

def SnapshotLeg.record (forms : TextForms) (entry : SnapshotLeg) : LegRecord :=
  entry.leg.record forms entry.txid entry.state

def byTxid (a b : LegRecord) : Prop := a.txid ≤ b.txid

instance : DecidableRel byTxid := fun a b => inferInstanceAs (Decidable (a.txid ≤ b.txid))

namespace InFlightSends

/-- Whether a snapshot keeps what is remembered of `txid`. -/
def keepsMeta (s : InFlightSends) (txid : TransactionId) : Bool :=
  s.isUnknown txid || decide (txid ∈ s.taken) || decide (txid ∈ s.log.submits)

/-- The records as a snapshot leaves them: what is remembered of a leg that is done goes. -/
def pruneMeta (s : InFlightSends) : InFlightSends :=
  { s with legMeta := s.legMeta.retain fun txid _ => s.keepsMeta txid }

/-- What is written of a leg of unknown fate. -/
def unknownMeta (s : InFlightSends) (leg : UnknownLeg) : LegMeta where
  paidTo := leg.paidTo
  direct := leg.held
  earlier := leg.earlier
  outputs := (s.legMeta.lookup leg.txid).elim [] (·.outputs)
  sinceUnixMs := leg.sinceUnixMs
  sinceDaa := (s.legMeta.lookup leg.txid).elim 0 (·.sinceDaa)

/-- The legs a snapshot of `s`, pruned already, names. -/
def snapshotLegs (s : InFlightSends) : List SnapshotLeg :=
  (s.unknown.map fun leg => ⟨leg.txid, s.unknownMeta leg, .unknown⟩) ++
    ((s.legMeta.entries.filter fun entry => !s.isUnknown entry.1).map fun entry =>
      ⟨entry.1, entry.2, if entry.1 ∈ s.taken then .sent else .submitting⟩) ++
    ((s.carried.entries.filter fun entry => decide (entry.1 ∉ s.legMeta)).map fun entry =>
      ⟨entry.1, entry.2, .sent⟩)

/-- The store's copy of these records. -/
def snapshot (forms : TextForms) (s : InFlightSends) : Sends × InFlightSends :=
  let pruned := s.pruneMeta
  (⟨(pruned.snapshotLegs.map (SnapshotLeg.record forms)).insertionSort byTxid,
    pruned.landed.map fun notice => ⟨notice.1, notice.2⟩,
    pruned.retired.map fun entry => ⟨forms.hash entry.1, entry.2.1, entry.2.2⟩⟩, pruned)

def loadUnknown (s : InFlightSends) (txid : TransactionId) (leg : LegMeta) : InFlightSends :=
  { s with
    unknown := s.unknown ++ [{ leg.unknownLeg txid leg.sinceUnixMs with seq := s.nextUnknown }]
    nextUnknown := s.nextUnknown + 1
    legMeta := s.legMeta.insert txid leg }

/-- Take a leg of the file, where it parses: a sent one is carried, any other is of unknown fate. -/
def loadLeg (forms : TextForms) (s : InFlightSends) (record : LegRecord) : InFlightSends :=
  match forms.parseHash record.txid, LegMeta.fromRecord forms record with
  | some txid, some leg =>
    match record.state with
    | .sent => { s with carried := s.carried.insert txid leg }
    | .submitting => s.loadUnknown txid leg
    | .unknown => s.loadUnknown txid leg
  | _, _ => s

/-- What an earlier run of the app left, from the records of its two files. -/
def load (forms : TextForms) (carriedForDaa : Nat) (sends : Sends) (spent : List SpentRecord) :
    InFlightSends :=
  let empty := default carriedForDaa
  let legs := sends.legs.foldl (loadLeg forms) empty
  { legs with
    landed := sends.landed.map fun notice => (notice.paidTo, notice.atUnixMs)
    retired := sends.retired.filterMap fun entry =>
      (forms.parseHash entry.txid).map fun txid => (txid, entry.paidTo, entry.atUnixMs)
    spentByUs := spent.filterMap fun coin =>
      (forms.parseHash coin.txid).map fun txid =>
        ⟨⟨txid, coin.index⟩, coin.seenAtDaa, coin.seenAtMs⟩ }

end InFlightSends

/-- The txid and the leg a record parses to. -/
def legOf (forms : TextForms) (record : LegRecord) : Option (TransactionId × LegMeta) :=
  (forms.parseHash record.txid).bind fun txid =>
    (LegMeta.fromRecord forms record).map fun leg => (txid, leg)

theorem legOf_record (forms : TextForms) (entry : SnapshotLeg) :
    legOf forms (entry.record forms) = some (entry.txid, entry.leg) := by
  have parsed := fromRecord_record forms entry.leg entry.txid entry.state
  simp only [legOf, SnapshotLeg.record, parsed, Option.map_some]
  simp only [LegMeta.record, forms.parse_hash, Option.bind_some]

theorem state_record (forms : TextForms) (entry : SnapshotLeg) :
    (entry.record forms).state = entry.state := rfl

namespace InFlightSends

theorem loadLeg_cases (forms : TextForms) (s : InFlightSends) (record : LegRecord) :
    (legOf forms record = none ∧ s.loadLeg forms record = s) ∨
    (∃ txid leg, legOf forms record = some (txid, leg) ∧ record.state = .sent ∧
      s.loadLeg forms record = { s with carried := s.carried.insert txid leg }) ∨
    (∃ txid leg, legOf forms record = some (txid, leg) ∧ record.state ≠ .sent ∧
      s.loadLeg forms record = s.loadUnknown txid leg) := by
  unfold loadLeg legOf
  cases forms.parseHash record.txid with
  | none => exact Or.inl ⟨rfl, rfl⟩
  | some txid =>
    cases LegMeta.fromRecord forms record with
    | none => exact Or.inl ⟨rfl, rfl⟩
    | some leg =>
      apply Or.inr
      cases state : record.state with
      | sent => exact Or.inl ⟨txid, leg, rfl, rfl, rfl⟩
      | submitting => exact Or.inr ⟨txid, leg, rfl, LegState.noConfusion, rfl⟩
      | unknown => exact Or.inr ⟨txid, leg, rfl, LegState.noConfusion, rfl⟩

/-- The legs of unknown fate a load finds, as their payment keys and coins. -/
theorem mem_unknown_loadLegs (forms : TextForms) (records : List LegRecord) (s : InFlightSends)
    (txid : TransactionId) (coins : LegCoins) :
    (∃ leg ∈ (records.foldl (loadLeg forms) s).unknown, leg.txid = txid ∧ leg.coins = coins) ↔
      (∃ leg ∈ s.unknown, leg.txid = txid ∧ leg.coins = coins) ∨
        ∃ record ∈ records, record.state ≠ .sent ∧
          ∃ leg, legOf forms record = some (txid, leg) ∧ leg.coins = coins := by
  induction records generalizing s with
  | nil => simp
  | cons record rest ih =>
    rw [List.foldl_cons, ih]
    rcases loadLeg_cases forms s record with ⟨nothing, same⟩ | ⟨found, leg, parsed, sent, same⟩ |
      ⟨found, leg, parsed, notSent, same⟩
    · rw [same]
      simp [nothing]
    · rw [same]
      simp [sent]
    · rw [same]
      have added : (∃ known ∈ (s.loadUnknown found leg).unknown,
          known.txid = txid ∧ known.coins = coins) ↔
          (∃ known ∈ s.unknown, known.txid = txid ∧ known.coins = coins) ∨
            (found = txid ∧ leg.coins = coins) := by
        simp only [loadUnknown, List.mem_append, List.mem_singleton]
        constructor
        · rintro ⟨known, old | rfl, named, same⟩
          · exact Or.inl ⟨known, old, named, same⟩
          · exact Or.inr ⟨named, same⟩
        · rintro (⟨known, old, named, same⟩ | ⟨named, same⟩)
          · exact ⟨known, Or.inl old, named, same⟩
          · exact ⟨_, Or.inr rfl, named, same⟩
      rw [added]
      simp only [List.mem_cons, exists_eq_or_imp, parsed, Option.some.injEq, Prod.mk.injEq]
      constructor
      · rintro ((old | ⟨rfl, rfl⟩) | later)
        · exact Or.inl old
        · exact Or.inr (Or.inl ⟨notSent, leg, ⟨rfl, rfl⟩, rfl⟩)
        · exact Or.inr (Or.inr later)
      · rintro (old | ⟨_, other, ⟨rfl, rfl⟩, rfl⟩ | later)
        · exact Or.inl (Or.inl old)
        · exact Or.inl (Or.inr ⟨rfl, rfl⟩)
        · exact Or.inr later

/-- The sends a load carries, where no two records of the file share a txid. -/
theorem carried_loadLegs (forms : TextForms) (records : List LegRecord) (s : InFlightSends)
    (distinct : (records.filterMap fun record => if record.state = .sent then
      (legOf forms record).map Prod.fst else none).Nodup)
    (fresh : ∀ record ∈ records, record.state = .sent → ∀ txid leg,
      legOf forms record = some (txid, leg) → txid ∉ s.carried)
    (txid : TransactionId) (leg : LegMeta) :
    (records.foldl (loadLeg forms) s).carried.lookup txid = some leg ↔
      s.carried.lookup txid = some leg ∨
        ∃ record ∈ records, record.state = .sent ∧ legOf forms record = some (txid, leg) := by
  induction records generalizing s with
  | nil => simp
  | cons record rest ih =>
    rw [List.foldl_cons]
    rcases loadLeg_cases forms s record with ⟨nothing, same⟩ | ⟨found, known, parsed, sent, same⟩ |
      ⟨found, known, parsed, notSent, same⟩
    · rw [same, ih s (by simpa [nothing] using distinct)
        fun other member => fresh other (List.mem_cons_of_mem _ member)]
      simp [nothing]
    · rw [same]
      simp only [List.filterMap_cons, sent, if_true, parsed, Option.map_some, List.nodup_cons] at distinct
      have unheld : found ∉ s.carried :=
        fresh record List.mem_cons_self sent found known parsed
      rw [ih _ distinct.2]
      · simp only [List.mem_cons, exists_eq_or_imp, sent, parsed, Option.some.injEq, Prod.mk.injEq,
          true_and, KeyMap.lookup_insert_some]
        constructor
        · rintro ((⟨rfl, rfl⟩ | ⟨_, old⟩) | later)
          · exact Or.inr (Or.inl ⟨rfl, rfl⟩)
          · exact Or.inl old
          · exact Or.inr (Or.inr later)
        · rintro (old | ⟨rfl, rfl⟩ | later)
          · apply Or.inl
            apply Or.inr
            refine ⟨?_, old⟩
            rintro rfl
            exact unheld (KeyMap.mem_of_lookup old)
          · exact Or.inl (Or.inl ⟨rfl, rfl⟩)
          · exact Or.inr later
      · intro other member isSent id leg' parsedOther inside
        have different : id ≠ found := by
          rintro rfl
          apply distinct.1
          apply List.mem_filterMap.mpr
          exact ⟨other, member, by rw [if_pos isSent, parsedOther]; rfl⟩
        rw [AList.mem_insert] at inside
        rcases inside with equal | held
        · exact different equal
        · exact fresh other (List.mem_cons_of_mem _ member) isSent id leg' parsedOther held
    · rw [same, ih (s.loadUnknown found known) (by simpa [notSent] using distinct)
        fun other member => fresh other (List.mem_cons_of_mem _ member)]
      simp [notSent, loadUnknown]

theorem mem_snapshotLegs {s : InFlightSends} {entry : SnapshotLeg} :
    entry ∈ s.snapshotLegs ↔
      (∃ leg ∈ s.unknown, (⟨leg.txid, s.unknownMeta leg, .unknown⟩ : SnapshotLeg) = entry) ∨
      (∃ txid leg, s.legMeta.lookup txid = some leg ∧ s.isUnknown txid = false ∧
        (⟨txid, leg, if txid ∈ s.taken then .sent else .submitting⟩ : SnapshotLeg) = entry) ∨
      (∃ txid leg, s.carried.lookup txid = some leg ∧ txid ∉ s.legMeta ∧
        (⟨txid, leg, .sent⟩ : SnapshotLeg) = entry) := by
  simp only [snapshotLegs, List.mem_append, List.mem_map, List.mem_filter, or_assoc]
  apply or_congr Iff.rfl
  apply or_congr
  · constructor
    · rintro ⟨⟨txid, leg⟩, ⟨member, notUnknown⟩, same⟩
      exact ⟨txid, leg, KeyMap.mem_entries_iff.mp member, by simpa using notUnknown, same⟩
    · rintro ⟨txid, leg, found, notUnknown, same⟩
      exact ⟨⟨txid, leg⟩, ⟨KeyMap.mem_entries_iff.mpr found, by simpa using notUnknown⟩, same⟩
  · constructor
    · rintro ⟨⟨txid, leg⟩, ⟨member, notKept⟩, same⟩
      exact ⟨txid, leg, KeyMap.mem_entries_iff.mp member, by simpa using notKept, same⟩
    · rintro ⟨txid, leg, found, notKept, same⟩
      exact ⟨⟨txid, leg⟩, ⟨KeyMap.mem_entries_iff.mpr found, by simpa using notKept⟩, same⟩

/-- No two sent legs of a snapshot share a txid. -/
theorem sent_snapshotLegs_nodup (s : InFlightSends) :
    ((s.snapshotLegs.filter fun entry => entry.state = .sent).map (·.txid)).Nodup := by
  have keysOf : ∀ m : KeyMap TransactionId LegMeta, ∀ keep : (Sigma fun _ : TransactionId => LegMeta) → Bool,
      ((m.entries.filter keep).map Sigma.fst).Nodup := by
    intro m keep
    have keys : (m.entries.map Sigma.fst).Nodup := m.nodupKeys
    exact keys.sublist (List.filter_sublist.map _)
  simp only [snapshotLegs, List.filter_append, List.map_append, List.filter_map, List.map_map]
  rw [List.filter_eq_nil_iff.mpr (by simp), List.map_nil, List.nil_append, List.nodup_append]
  refine ⟨?_, ?_, ?_⟩
  · rw [List.filter_filter]
    exact keysOf _ _
  · rw [List.filter_filter]
    exact keysOf _ _
  · intro txid remembered other carried same
    subst same
    obtain ⟨first, memberFirst, rfl⟩ := List.mem_map.mp remembered
    obtain ⟨second, memberSecond, same⟩ := List.mem_map.mp carried
    have held := (List.mem_filter.mp (List.mem_filter.mp memberFirst).1).1
    have notHeld := (List.mem_filter.mp (List.mem_filter.mp memberSecond).1).2
    have inside : first.1 ∈ s.legMeta := KeyMap.mem_of_lookup (KeyMap.mem_entries_iff.mp held)
    simp only [decide_eq_true_eq] at notHeld
    apply notHeld
    have equal : second.1 = first.1 := same
    rw [equal]
    exact inside

theorem isUnknown_iff {s : InFlightSends} {txid : TransactionId} :
    s.isUnknown txid = true ↔ ∃ leg ∈ s.unknown, leg.txid = txid := by
  simp [isUnknown]

/-- A leg a relaunch takes for one of unknown fate: it is one, or it is remembered, in its submit,
    and no record of a node having taken it is there. -/
def RestoredUnknown (s : InFlightSends) (txid : TransactionId) (coins : LegCoins) : Prop :=
  (∃ leg ∈ s.unknown, leg.txid = txid ∧ leg.coins = coins) ∨
    s.isUnknown txid = false ∧ txid ∉ s.taken ∧ txid ∈ s.log.submits ∧
      ∃ leg, s.legMeta.lookup txid = some leg ∧ leg.coins = coins

/-- A leg a relaunch carries: a node took it and it is remembered, or it is carried already and
    nothing newer is known under its txid. -/
def RestoredCarried (s : InFlightSends) (txid : TransactionId) (leg : LegMeta) : Prop :=
  s.isUnknown txid = false ∧ txid ∈ s.taken ∧ s.legMeta.lookup txid = some leg ∨
    s.carried.lookup txid = some leg ∧ (txid ∈ s.legMeta → s.keepsMeta txid = false)

theorem mem_snapshotLegs_unsent (s : InFlightSends) (txid : TransactionId) (coins : LegCoins) :
    (∃ entry ∈ s.pruneMeta.snapshotLegs, entry.state ≠ .sent ∧ entry.txid = txid ∧
      entry.leg.coins = coins) ↔ s.RestoredUnknown txid coins := by
  constructor
  · rintro ⟨entry, member, unsent, rfl, rfl⟩
    rcases mem_snapshotLegs.mp member with ⟨leg, known, rfl⟩ | ⟨id, leg, found, notUnknown, rfl⟩ |
      ⟨id, leg, _, _, rfl⟩
    · exact Or.inl ⟨leg, known, rfl, rfl⟩
    · obtain ⟨remembered, kept⟩ := KeyMap.lookup_retain_some.mp found
      have untaken : id ∉ s.taken := by
        intro taken
        exact unsent (if_pos taken)
      have unknown : s.isUnknown id = false := notUnknown
      have submitting : id ∈ s.log.submits := by
        simpa [keepsMeta, unknown, untaken] using kept
      exact Or.inr ⟨unknown, untaken, submitting, leg, remembered, rfl⟩
    · exact absurd rfl unsent
  · rintro (⟨leg, known, rfl, rfl⟩ | ⟨unknown, untaken, submitting, leg, remembered, rfl⟩)
    · exact ⟨_, mem_snapshotLegs.mpr (Or.inl ⟨leg, known, rfl⟩), LegState.noConfusion, rfl, rfl⟩
    · have kept : s.keepsMeta txid = true := by simp [keepsMeta, submitting]
      have found : s.pruneMeta.legMeta.lookup txid = some leg :=
        KeyMap.lookup_retain_some.mpr ⟨remembered, kept⟩
      refine ⟨_, mem_snapshotLegs.mpr (Or.inr (Or.inl ⟨txid, leg, found, unknown, rfl⟩)), ?_, rfl, rfl⟩
      have notTaken : txid ∉ s.pruneMeta.taken := untaken
      simp [notTaken]

theorem mem_snapshotLegs_sent (s : InFlightSends) (txid : TransactionId) (leg : LegMeta) :
    ⟨txid, leg, .sent⟩ ∈ s.pruneMeta.snapshotLegs ↔ s.RestoredCarried txid leg := by
  constructor
  · intro member
    rcases mem_snapshotLegs.mp member with ⟨_, _, same⟩ | ⟨id, known, found, notUnknown, same⟩ |
      ⟨id, known, found, unremembered, same⟩
    · cases same
    · obtain ⟨remembered, kept⟩ := KeyMap.lookup_retain_some.mp found
      by_cases taken : id ∈ s.taken
      · simp only [SnapshotLeg.mk.injEq] at same
        obtain ⟨rfl, rfl, _⟩ := same
        exact Or.inl ⟨notUnknown, taken, remembered⟩
      · have notTaken : id ∉ s.pruneMeta.taken := taken
        simp [notTaken] at same
    · cases same
      apply Or.inr
      refine ⟨found, ?_⟩
      intro held
      obtain ⟨known, remembered⟩ := KeyMap.mem_iff_lookup.mp held
      by_contra kept
      simp only [Bool.not_eq_false] at kept
      exact unremembered (KeyMap.mem_of_lookup (KeyMap.lookup_retain_some.mpr ⟨remembered, kept⟩))
  · rintro (⟨unknown, taken, remembered⟩ | ⟨found, gone⟩)
    · have kept : s.keepsMeta txid = true := by simp [keepsMeta, taken]
      have found : s.pruneMeta.legMeta.lookup txid = some leg :=
        KeyMap.lookup_retain_some.mpr ⟨remembered, kept⟩
      apply mem_snapshotLegs.mpr
      apply Or.inr
      apply Or.inl
      refine ⟨txid, leg, found, unknown, ?_⟩
      have inTaken : txid ∈ s.pruneMeta.taken := taken
      simp [inTaken]
    · apply mem_snapshotLegs.mpr
      apply Or.inr
      apply Or.inr
      refine ⟨txid, leg, found, ?_, rfl⟩
      intro held
      obtain ⟨known, still⟩ := KeyMap.mem_iff_lookup.mp held
      obtain ⟨remembered, kept⟩ := KeyMap.lookup_retain_some.mp still
      rw [gone (KeyMap.mem_of_lookup remembered)] at kept
      cases kept

variable (forms : TextForms) (carriedForDaa : Nat) (spent : List SpentRecord)

theorem snapshot_perm (s : InFlightSends) : (s.snapshot forms).1.legs.Perm
    (s.pruneMeta.snapshotLegs.map (SnapshotLeg.record forms)) :=
  List.perm_insertionSort _ _

/-- **The legs a relaunch takes for legs of unknown fate.** -/
theorem load_snapshot_unknown (s : InFlightSends) (txid : TransactionId) (coins : LegCoins) :
    (∃ leg ∈ (load forms carriedForDaa (s.snapshot forms).1 spent).unknown,
      leg.txid = txid ∧ leg.coins = coins) ↔ s.RestoredUnknown txid coins := by
  have legs := mem_unknown_loadLegs forms (s.snapshot forms).1.legs (default carriedForDaa) txid coins
  rw [← mem_snapshotLegs_unsent]
  apply legs.trans
  constructor
  · rintro (⟨_, none, _⟩ | ⟨record, member, unsent, leg, parsed, same⟩)
    · cases none
    · obtain ⟨entry, inside, rfl⟩ := List.mem_map.mp ((snapshot_perm forms s).mem_iff.mp member)
      rw [legOf_record] at parsed
      cases parsed
      exact ⟨entry, inside, unsent, rfl, same⟩
  · rintro ⟨entry, inside, unsent, rfl, same⟩
    apply Or.inr
    refine ⟨entry.record forms, ?_, unsent, entry.leg, legOf_record forms entry, same⟩
    exact (snapshot_perm forms s).mem_iff.mpr (List.mem_map_of_mem inside)

/-- **The legs a relaunch carries.** -/
theorem load_snapshot_carried (s : InFlightSends) (txid : TransactionId) (leg : LegMeta) :
    (load forms carriedForDaa (s.snapshot forms).1 spent).carried.lookup txid = some leg ↔
      s.RestoredCarried txid leg := by
  have distinct : ((s.snapshot forms).1.legs.filterMap fun record =>
      if record.state = .sent then (legOf forms record).map Prod.fst else none).Nodup := by
    apply ((snapshot_perm forms s).filterMap _).nodup_iff.mpr
    rw [List.filterMap_map]
    have sentOnly : ∀ entries : List SnapshotLeg,
        (entries.filterMap ((fun record => if record.state = .sent then
          (legOf forms record).map Prod.fst else none) ∘ SnapshotLeg.record forms)) =
        (entries.filter fun entry => entry.state = .sent).map (·.txid) := by
      intro entries
      induction entries with
      | nil => rfl
      | cons entry rest ih =>
        rw [List.filterMap_cons, List.filter_cons, Function.comp_apply, state_record, legOf_record, ih]
        by_cases sent : entry.state = .sent
        · simp [sent]
        · simp [sent]
    rw [sentOnly]
    exact sent_snapshotLegs_nodup _
  have legs := carried_loadLegs forms (s.snapshot forms).1.legs (default carriedForDaa) distinct
    (fun _ _ _ _ _ _ held => AList.notMem_empty _ held) txid leg
  rw [← mem_snapshotLegs_sent]
  apply legs.trans
  constructor
  · rintro (none | ⟨record, member, sent, parsed⟩)
    · cases none
    · obtain ⟨entry, inside, rfl⟩ := List.mem_map.mp ((snapshot_perm forms s).mem_iff.mp member)
      rw [legOf_record] at parsed
      cases parsed
      rw [state_record] at sent
      rw [← sent]
      exact inside
  · intro inside
    apply Or.inr
    refine ⟨SnapshotLeg.record forms ⟨txid, leg, .sent⟩, ?_, rfl, legOf_record forms _⟩
    exact (snapshot_perm forms s).mem_iff.mpr (List.mem_map_of_mem inside)

end InFlightSends

end Kaspaverse.Chain
