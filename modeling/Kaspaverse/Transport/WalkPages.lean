import Kaspaverse.Transport.FillPages

namespace Kaspaverse.Transport

/-- The block time past which a row is not believed: no more than a `u64` holds. -/
def futureCeiling (nowUnixMs : Nat) : Nat := min (nowUnixMs + FUTURE_SKEW_MS) (2 ^ 64 - 1)

/-- Fetch at the cursor and fold, as long as the walk goes on. Nothing where the fuel ends first. -/
def walkFrom (fetch : Nat → Except String (List FillRow)) (ceiling : Nat) : Nat → Walker → Option WalkOutcome
  | 0, _ => none
  | fuel + 1, walker =>
    match walker.page ceiling (fetch walker.cursor) with
    | .inl walker => walkFrom fetch ceiling fuel walker
    | .inr outcome => some outcome

def walkPages (fetch : Nat → Except String (List FillRow)) (startCursor nowUnixMs fuel : Nat) : Option WalkOutcome :=
  walkFrom fetch (futureCeiling nowUnixMs) fuel ⟨[], startCursor, 0⟩

namespace Walker

variable {ceiling : Nat} {listing : List FillRow}

/-- What a walk holds is its server's, not past the ceiling, and no txid of it stands twice. -/
structure Tidy (ceiling : Nat) (listing : List FillRow) (walker : Walker) : Prop where
  listed : ∀ item ∈ walker.items, item ∈ listing
  below : ∀ item ∈ walker.items, item.blockTime ≤ ceiling
  distinct : (walker.items.map FillRow.txId).Nodup

theorem take_pages (state : Walker × Bool) (row : FillRow) : (take ceiling state row).1.pages = state.1.pages := by
  unfold take
  split
  · rfl
  · dsimp only
    split <;> rfl

theorem foldl_take_pages (rows : List FillRow) (state : Walker × Bool) :
    (rows.foldl (take ceiling) state).1.pages = state.1.pages := by
  induction rows generalizing state with
  | nil => rfl
  | cons row rest ih =>
    rw [List.foldl_cons, ih, take_pages]

theorem take_distinct {state : Walker × Bool} (row : FillRow) (distinct : (state.1.items.map FillRow.txId).Nodup) :
    ((take ceiling state row).1.items.map FillRow.txId).Nodup := by
  unfold take
  split
  · exact distinct
  · dsimp only
    split
    · exact distinct
    · next unknown =>
      rw [List.map_append, List.map_singleton]
      apply List.nodup_append.mpr
      refine ⟨distinct, List.nodup_singleton _, ?_⟩
      intro held member other single same
      rw [List.mem_singleton] at single
      rw [same, single] at member
      simp only [List.contains_eq_mem, decide_eq_true_eq] at unknown
      exact unknown member

theorem take_tidy {state : Walker × Bool} {row : FillRow} (tidy : Tidy ceiling listing state.1)
    (served : row ∈ listing) : Tidy ceiling listing (take ceiling state row).1 where
  listed := by
    intro item member
    obtain held | ⟨rfl, _, _⟩ := mem_take_items.mp member
    · exact tidy.listed item held
    · exact served
  below := by
    intro item member
    obtain held | ⟨rfl, below, _⟩ := mem_take_items.mp member
    · exact tidy.below item held
    · exact below
  distinct := take_distinct row tidy.distinct

theorem foldl_take_tidy (rows : List FillRow) (state : Walker × Bool) (tidy : Tidy ceiling listing state.1)
    (served : ∀ row ∈ rows, row ∈ listing) : Tidy ceiling listing (rows.foldl (take ceiling) state).1 := by
  induction rows generalizing state with
  | nil => exact tidy
  | cons row rest ih =>
    have one := take_tidy tidy (served row List.mem_cons_self)
    exact ih _ one fun later member => served later (List.mem_cons_of_mem _ member)

/-- The walk behind one page. -/
def folded (walker : Walker) (ceiling : Nat) (rows : List FillRow) : Walker :=
  (rows.foldl (take ceiling) ({ walker with pages := walker.pages + 1 }, false)).1

theorem folded_pages (walker : Walker) (ceiling : Nat) (rows : List FillRow) :
    (walker.folded ceiling rows).pages = walker.pages + 1 := foldl_take_pages rows _

/-- A short page ends the walk complete; a full one goes on while the budget lasts, or ends it
    incomplete. -/
theorem page_ok (walker : Walker) (ceiling : Nat) (rows : List FillRow) :
    (walker.page ceiling (.ok rows) = .inl (walker.folded ceiling rows) ∧ walker.pages + 1 < PAGE_BUDGET) ∨
      (walker.page ceiling (.ok rows) = .inr ((walker.folded ceiling rows).finish true none) ∧
        rows.length < PAGE_LIMIT) ∨
      ∃ error, walker.page ceiling (.ok rows) = .inr ((walker.folded ceiling rows).finish false error) := by
  have pages := walker.folded_pages ceiling rows
  unfold page folded at *
  dsimp only
  split
  · next short => exact .inr (.inl ⟨rfl, short⟩)
  · split
    · exact .inr (.inr ⟨_, rfl⟩)
    · split
      · exact .inr (.inr ⟨_, rfl⟩)
      · next budget => exact .inl ⟨rfl, by omega⟩

end Walker

/-- What a walk has of its server's listing, at every page. -/
structure Walked (ceiling : Nat) (listing : List FillRow) (start : Nat) (walker : Walker) : Prop where
  gathered : Gathered listing start walker.cursor walker.items
  tidy : Walker.Tidy ceiling listing walker

section Walk

variable {listing : List FillRow} {start ceiling : Nat}

theorem Walker.folded_took {walker : Walker} (ceiling : Nat)
    (ascending : listing.Pairwise fun a b => a.blockTime ≤ b.blockTime)
    (gathered : Gathered listing start walker.cursor walker.items) :
    Walker.Took ceiling (pageAt FillRow.blockTime PAGE_LIMIT walker.cursor listing) walker
      (walker.folded ceiling (pageAt FillRow.blockTime PAGE_LIMIT walker.cursor listing)) := by
  have took := Walker.foldl_take_took ceiling (pageAt FillRow.blockTime PAGE_LIMIT walker.cursor listing)
    { walker with pages := walker.pages + 1 } false (pageAt_pairwise ascending)
    (fun row member item held => (gathered.bounds item held).2.trans (le_key_of_mem_pageAt member))
    (fun row member => le_key_of_mem_pageAt member)
  exact ⟨took.cursor, took.climbs, took.keeps, took.fresh, took.takes⟩

theorem Walked.folded {walker : Walker} (ascending : listing.Pairwise fun a b => a.blockTime ≤ b.blockTime)
    (walked : Walked ceiling listing start walker) :
    Walked ceiling listing start
      (walker.folded ceiling (pageAt FillRow.blockTime PAGE_LIMIT walker.cursor listing)) where
  gathered := walked.gathered.took walker ascending (Walker.folded_took ceiling ascending walked.gathered)
  tidy := by
    refine Walker.foldl_take_tidy _ _ ?_ fun row member => mem_of_mem_pageAt member
    exact ⟨walked.tidy.listed, walked.tidy.below, walked.tidy.distinct⟩

/-- What a walk reports of its server's listing: all of it when complete, and all below its cursor
    always. -/
structure Reported (ceiling : Nat) (listing : List FillRow) (start : Nat) (outcome : WalkOutcome) : Prop where
  distinct : (outcome.items.map FillRow.txId).Nodup
  listed : ∀ item ∈ outcome.items, item ∈ listing
  bounds : ∀ item ∈ outcome.items, start ≤ item.blockTime ∧ item.blockTime ≤ ceiling
  complete : outcome.complete = true → ∀ row ∈ listing, start ≤ row.blockTime → row.blockTime ≤ ceiling →
    ∃ item ∈ outcome.items, item.txId = row.txId ∧ item.blockTime ≤ row.blockTime
  resumes : ∀ row ∈ listing, start ≤ row.blockTime → row.blockTime < outcome.cursor →
    ∃ item ∈ outcome.items, item.txId = row.txId ∧ item.blockTime ≤ row.blockTime

theorem Walked.reported {walker : Walker} (walked : Walked ceiling listing start walker) (complete : Bool)
    (error : Option String)
    (whole : complete = true → ∀ row ∈ listing, start ≤ row.blockTime → row.blockTime ≤ ceiling →
      ∃ item ∈ walker.items, item.txId = row.txId ∧ item.blockTime ≤ row.blockTime) :
    Reported ceiling listing start (walker.finish complete error) where
  distinct := walked.tidy.distinct
  listed := walked.tidy.listed
  bounds item held := ⟨(walked.gathered.bounds item held).1, walked.tidy.below item held⟩
  complete := whole
  resumes := walked.gathered.covers

theorem Walked.drained {walker : Walker} (ascending : listing.Pairwise fun a b => a.blockTime ≤ b.blockTime)
    (walked : Walked ceiling listing start walker)
    (short : (pageAt FillRow.blockTime PAGE_LIMIT walker.cursor listing).length < PAGE_LIMIT) {row : FillRow}
    (listed : row ∈ listing) (above : start ≤ row.blockTime) (below : row.blockTime ≤ ceiling) :
    ∃ item ∈ (walker.folded ceiling (pageAt FillRow.blockTime PAGE_LIMIT walker.cursor listing)).items,
      item.txId = row.txId ∧ item.blockTime ≤ row.blockTime := by
  have took := Walker.folded_took ceiling ascending walked.gathered
  by_cases old : row.blockTime < walker.cursor
  · obtain ⟨item, held, same⟩ := walked.gathered.covers row listed above old
    exact ⟨item, took.keeps item held, same⟩
  · exact took.takes row (mem_pageAt_of_short short listed (Nat.le_of_not_lt old)) below

/-- The server: the first rows at or above a cursor. -/
def serve (listing : List FillRow) (cursor : Nat) : Except String (List FillRow) :=
  .ok (pageAt FillRow.blockTime PAGE_LIMIT cursor listing)

theorem walkFrom_reported (ascending : listing.Pairwise fun a b => a.blockTime ≤ b.blockTime) {walker : Walker}
    {fuel : Nat} (walked : Walked ceiling listing start walker) (spent : walker.pages < PAGE_BUDGET)
    (enough : PAGE_BUDGET ≤ walker.pages + fuel) :
    ∃ outcome,
      walkFrom (serve listing) ceiling fuel walker = some outcome ∧ outcome.pages ≤ PAGE_BUDGET ∧ Reported ceiling listing start outcome := by
  induction fuel generalizing walker with
  | zero => omega
  | succ fuel ih =>
    have next := walked.folded ascending
    have pages := walker.folded_pages ceiling (pageAt FillRow.blockTime PAGE_LIMIT walker.cursor listing)
    unfold walkFrom serve
    obtain ⟨same, left⟩ | ⟨same, short⟩ | ⟨error, same⟩ :=
      walker.page_ok ceiling (pageAt FillRow.blockTime PAGE_LIMIT walker.cursor listing)
    · rw [same]
      exact ih next (by omega) (by omega)
    · rw [same]
      have pagesLeft : ((walker.folded ceiling (pageAt FillRow.blockTime PAGE_LIMIT walker.cursor listing)).finish
          true none).pages ≤ PAGE_BUDGET := by
        show (walker.folded ceiling _).pages ≤ PAGE_BUDGET
        omega
      exact ⟨_, rfl, pagesLeft, next.reported true none fun _ row listed above below =>
        walked.drained ascending short listed above below⟩
    · rw [same]
      have pagesLeft : ((walker.folded ceiling (pageAt FillRow.blockTime PAGE_LIMIT walker.cursor listing)).finish
          false error).pages ≤ PAGE_BUDGET := by
        show (walker.folded ceiling _).pages ≤ PAGE_BUDGET
        omega
      exact ⟨_, rfl, pagesLeft, next.reported false error fun no => nomatch no⟩

theorem Walked.fresh (ceiling : Nat) (listing : List FillRow) (start : Nat) :
    Walked ceiling listing start ⟨[], start, 0⟩ where
  gathered := ⟨le_refl _, fun _ none_ => (nomatch none_), fun _ _ above below => absurd below (Nat.not_lt_of_le above)⟩
  tidy := ⟨fun _ none_ => (nomatch none_), fun _ none_ => (nomatch none_), List.nodup_nil⟩

theorem held_itself {items : List FillRow} (listed : ∀ item ∈ items, item ∈ listing)
    (distinct : (listing.map FillRow.txId).Nodup) {row : FillRow} (member : row ∈ listing)
    (held : ∃ item ∈ items, item.txId = row.txId ∧ item.blockTime ≤ row.blockTime) : row ∈ items := by
  obtain ⟨item, inside, same, _⟩ := held
  have itself := List.inj_on_of_nodup_map distinct (listed item inside) member same
  rwa [← itself]

/-- A walk ends within its budget, and what it reports is complete or says that it is not. -/
theorem walk_pages_complete_or_says_so (listing : List FillRow) (startCursor nowUnixMs fuel : Nat)
    (ascending : listing.Pairwise fun a b => a.blockTime ≤ b.blockTime)
    (sized : ∀ row ∈ listing, row.blockTime < 2 ^ 64) (enough : PAGE_BUDGET ≤ fuel) :
    ∃ outcome, walkPages (serve listing) startCursor nowUnixMs fuel = some outcome ∧
      outcome.pages ≤ PAGE_BUDGET ∧
      (outcome.items.map FillRow.txId).Nodup ∧
      (∀ item ∈ outcome.items, item ∈ listing ∧ startCursor ≤ item.blockTime ∧
        item.blockTime ≤ nowUnixMs + FUTURE_SKEW_MS) ∧
      (outcome.complete = true → ∀ row ∈ listing, startCursor ≤ row.blockTime →
        row.blockTime ≤ nowUnixMs + FUTURE_SKEW_MS →
          (∃ item ∈ outcome.items, item.txId = row.txId ∧ item.blockTime ≤ row.blockTime) ∧
            ((listing.map FillRow.txId).Nodup → row ∈ outcome.items)) ∧
      ∀ row ∈ listing, startCursor ≤ row.blockTime → row.blockTime < outcome.cursor →
        (∃ item ∈ outcome.items, item.txId = row.txId ∧ item.blockTime ≤ row.blockTime) ∧
          ((listing.map FillRow.txId).Nodup → row ∈ outcome.items) := by
  have budget : 0 < PAGE_BUDGET := by decide
  obtain ⟨outcome, walked, pages, reported⟩ :=
    walkFrom_reported ascending (Walked.fresh (futureCeiling nowUnixMs) listing startCursor) budget
      (by omega : PAGE_BUDGET ≤ 0 + fuel)
  refine ⟨outcome, walked, pages, reported.distinct, ?_, ?_, ?_⟩
  · intro item held
    obtain ⟨above, below⟩ := reported.bounds item held
    exact ⟨reported.listed item held, above, below.trans (min_le_left _ _)⟩
  · intro complete row member above below
    have size := sized row member
    have held := reported.complete complete row member above (le_min below (by omega))
    exact ⟨held, fun distinct => held_itself reported.listed distinct member held⟩
  · intro row member above below
    have held := reported.resumes row member above below
    exact ⟨held, fun distinct => held_itself reported.listed distinct member held⟩

def early : FillRow := ⟨"a", 3, "", ""⟩

def late : FillRow := ⟨"b", 8, "", ""⟩

theorem walk_pages_of_two : ∃ outcome, walkPages (serve [early, late]) 0 10 PAGE_BUDGET = some outcome ∧
    outcome.complete = true ∧ early ∈ outcome.items ∧ late ∈ outcome.items := by
  obtain ⟨outcome, walked, _, _, _, complete, _⟩ :=
    walk_pages_complete_or_says_so [early, late] 0 10 PAGE_BUDGET (by decide) (by decide) (by decide)
  have drained : outcome.complete = true := by
    have ran : walkPages (serve [early, late]) 0 10 PAGE_BUDGET = some ⟨[early, late], 8, true, 1, none⟩ := by
      decide +kernel
    cases Option.some.inj (walked.symm.trans ran)
    rfl
  have distinct : ([early, late].map FillRow.txId).Nodup := by decide
  exact ⟨outcome, walked, drained, (complete drained early (by decide) (by decide) (by decide)).2 distinct,
    (complete drained late (by decide) (by decide) (by decide)).2 distinct⟩

/-- A second row of a txid is left out of a complete walk. -/
theorem echoed_txid_left_out : ∃ outcome,
    walkPages (serve [early, { late with txId := "a" }]) 0 10 PAGE_BUDGET = some outcome ∧
      outcome.complete = true ∧ { late with txId := "a" } ∉ outcome.items := by
  refine ⟨⟨[early], 8, true, 1, none⟩, ?_, rfl, ?_⟩
  · decide +kernel
  · decide

end Walk

end Kaspaverse.Transport
