import Kaspaverse.Library.Paging
import Kaspaverse.Transport.Fill

namespace Kaspaverse.Transport

namespace Walker

/-- What taking the rows of one page leaves, where they come in ascending order and above what the
    walk has. -/
structure Took (ceiling : Nat) (rows : List FillRow) (walker next : Walker) : Prop where
  cursor : next.cursor = walker.cursor ∨ ∃ row ∈ rows, row.blockTime ≤ ceiling ∧ next.cursor = row.blockTime
  climbs : walker.cursor ≤ next.cursor
  keeps : ∀ item ∈ walker.items, item ∈ next.items
  fresh : ∀ item ∈ next.items, item ∈ walker.items ∨ item ∈ rows ∧ item.blockTime ≤ next.cursor
  takes : ∀ row ∈ rows, row.blockTime ≤ ceiling →
    ∃ item ∈ next.items, item.txId = row.txId ∧ item.blockTime ≤ row.blockTime

theorem take_cursor (ceiling : Nat) (state : Walker × Bool) (row : FillRow) :
    (take ceiling state row).1.cursor =
      if ceiling < row.blockTime then state.1.cursor else max state.1.cursor row.blockTime := by
  unfold take
  split
  · rfl
  · dsimp only
    split <;> rfl

theorem mem_take_items {ceiling : Nat} {state : Walker × Bool} {row item : FillRow} :
    item ∈ (take ceiling state row).1.items ↔ item ∈ state.1.items ∨
      (item = row ∧ row.blockTime ≤ ceiling ∧ ∀ held ∈ state.1.items, held.txId ≠ row.txId) := by
  unfold take
  split
  · next above =>
    constructor
    · exact Or.inl
    · rintro (held | ⟨_, below, _⟩)
      · exact held
      · omega
  · next below =>
    have below := Nat.le_of_not_lt below
    dsimp only
    split
    · next known =>
      simp only [List.contains_eq_mem, List.mem_map, decide_eq_true_eq] at known
      obtain ⟨held, member, same⟩ := known
      constructor
      · exact Or.inl
      · rintro (before | ⟨_, _, unknown⟩)
        · exact before
        · exact absurd same (unknown held member)
    · next unknown =>
      simp only [List.contains_eq_mem, List.mem_map, decide_eq_true_eq, not_exists, not_and] at unknown
      simp only [List.mem_append, List.mem_singleton]
      constructor
      · rintro (held | rfl)
        · exact .inl held
        · exact .inr ⟨rfl, below, unknown⟩
      · rintro (held | ⟨same, _, _⟩)
        · exact .inl held
        · exact .inr same

theorem foldl_take_took (ceiling : Nat) (rows : List FillRow) (walker : Walker) (progressed : Bool)
    (ascending : rows.Pairwise fun a b => a.blockTime ≤ b.blockTime)
    (above : ∀ row ∈ rows, ∀ item ∈ walker.items, item.blockTime ≤ row.blockTime)
    (past : ∀ row ∈ rows, walker.cursor ≤ row.blockTime) :
    Took ceiling rows walker (rows.foldl (take ceiling) (walker, progressed)).1 := by
  induction rows generalizing walker progressed with
  | nil =>
    refine ⟨.inl rfl, le_refl _, fun _ member => member, fun _ member => .inl member, ?_⟩
    exact fun _ member => nomatch member
  | cons row rest ih =>
    obtain ⟨least, sorted⟩ := List.pairwise_cons.mp ascending
    have cursor := take_cursor ceiling (walker, progressed) row
    have first : walker.cursor ≤ row.blockTime := past row List.mem_cons_self
    have items (item : FillRow) : item ∈ (take ceiling (walker, progressed) row).1.items ↔ _ := mem_take_items
    have step := ih (take ceiling (walker, progressed) row).1 (take ceiling (walker, progressed) row).2 sorted
      (by
        intro later member item kept
        obtain held | ⟨same, _, _⟩ := (items item).mp kept
        · exact above later (List.mem_cons_of_mem _ member) item held
        · rw [same]
          exact least later member)
      (by
        intro later member
        rw [cursor]
        have next := past later (List.mem_cons_of_mem _ member)
        have order := least later member
        dsimp only
        split <;> omega)
    have climbs : walker.cursor ≤ (take ceiling (walker, progressed) row).1.cursor := by
      rw [cursor]
      dsimp only
      split <;> omega
    refine ⟨?_, climbs.trans step.climbs, ?_, ?_, ?_⟩
    · obtain same | ⟨last, member, below, same⟩ := step.cursor
      · by_cases high : ceiling < row.blockTime
        · left
          rw [List.foldl_cons, same, cursor, if_pos high]
        · right
          refine ⟨row, List.mem_cons_self, Nat.le_of_not_lt high, ?_⟩
          rw [List.foldl_cons, same, cursor, if_neg high]
          exact max_eq_right first
      · exact .inr ⟨last, List.mem_cons_of_mem _ member, below, same⟩
    · intro item held
      exact step.keeps item ((items item).mpr (.inl held))
    · intro item member
      obtain early | ⟨among, below⟩ := step.fresh item member
      · obtain held | ⟨rfl, below, _⟩ := (items item).mp early
        · exact .inl held
        · right
          refine ⟨List.mem_cons_self, le_trans ?_ step.climbs⟩
          rw [cursor, if_neg (by omega)]
          exact le_max_right _ _
      · exact .inr ⟨List.mem_cons_of_mem _ among, below⟩
    · intro served member below
      obtain rfl | later := List.mem_cons.mp member
      · by_cases known : ∃ held ∈ walker.items, held.txId = served.txId
        · obtain ⟨held, kept, same⟩ := known
          refine ⟨held, step.keeps held ((items held).mpr (.inl kept)), same, ?_⟩
          exact above served List.mem_cons_self held kept
        · have fresh : ∀ held ∈ walker.items, held.txId ≠ served.txId := by
            intro held kept same
            exact known ⟨held, kept, same⟩
          refine ⟨served, step.keeps served ((items served).mpr (.inr ⟨rfl, below, fresh⟩)), rfl, le_refl _⟩
      · exact step.takes served later below

end Walker

/-- What a walk from `start` has of its lane's listing: below its cursor, every transaction. -/
structure Gathered (listing : List FillRow) (start cursor : Nat) (items : List FillRow) : Prop where
  begun : start ≤ cursor
  bounds : ∀ item ∈ items, start ≤ item.blockTime ∧ item.blockTime ≤ cursor
  covers : ∀ row ∈ listing, start ≤ row.blockTime → row.blockTime < cursor →
    ∃ item ∈ items, item.txId = row.txId ∧ item.blockTime ≤ row.blockTime

theorem Gathered.took {listing : List FillRow} {start ceiling : Nat} (walker : Walker) {next : Walker}
    (ascending : listing.Pairwise fun a b => a.blockTime ≤ b.blockTime)
    (gathered : Gathered listing start walker.cursor walker.items)
    (took : Walker.Took ceiling (pageAt FillRow.blockTime PAGE_LIMIT walker.cursor listing) walker next) :
    Gathered listing start next.cursor next.items := by
  have begun := gathered.begun
  have climbs := took.climbs
  refine ⟨by omega, ?_, ?_⟩
  · intro item member
    obtain held | ⟨served, below⟩ := took.fresh item member
    · have bounds := gathered.bounds item held
      omega
    · have above := le_key_of_mem_pageAt served
      omega
  · intro row listed above below
    by_cases old : row.blockTime < walker.cursor
    · obtain ⟨item, held, same⟩ := gathered.covers row listed above old
      exact ⟨item, took.keeps item held, same⟩
    · obtain same | ⟨last, served, inside, same⟩ := took.cursor
      · omega
      · have member : row ∈ pageAt FillRow.blockTime PAGE_LIMIT walker.cursor listing :=
          mem_pageAt_of_lt ascending served listed (Nat.le_of_not_lt old) (by omega)
        exact took.takes row member (by omega)

theorem Walker.page_gathered (ceiling : Nat) {listing : List FillRow} {start : Nat} {walker : Walker}
    {answer : Except String (List FillRow)} (ascending : listing.Pairwise fun a b => a.blockTime ≤ b.blockTime)
    (gathered : Gathered listing start walker.cursor walker.items)
    (served : ∀ rows, answer = .ok rows → rows = pageAt FillRow.blockTime PAGE_LIMIT walker.cursor listing) :
    ∃ next : Walker, Gathered listing start next.cursor next.items ∧
      (walker.page ceiling answer = .inl next ∨
        ∃ complete error, walker.page ceiling answer = .inr (next.finish complete error)) := by
  cases answer with
  | error e => exact ⟨walker, gathered, .inr ⟨_, _, rfl⟩⟩
  | ok rows =>
    have took : Took ceiling rows { walker with pages := walker.pages + 1 }
        (rows.foldl (take ceiling) ({ walker with pages := walker.pages + 1 }, false)).1 := by
      rw [served rows rfl]
      refine foldl_take_took ceiling _ _ _ (pageAt_pairwise ascending) ?_ ?_
      · intro row member item held
        exact (gathered.bounds item held).2.trans (le_key_of_mem_pageAt member)
      · exact fun row member => le_key_of_mem_pageAt member
    rw [served rows rfl] at took
    refine ⟨_, Gathered.took { walker with pages := walker.pages + 1 } ascending gathered took, ?_⟩
    rw [← served rows rfl]
    simp only [Walker.page]
    split
    · exact .inr ⟨_, _, rfl⟩
    · split
      · exact .inr ⟨_, _, rfl⟩
      · split
        · exact .inr ⟨_, _, rfl⟩
        · exact .inl rfl

namespace HeldFloor

theorem hold_le (held : HeldFloor) (blockTime : Nat) : ∃ floor ∈ held.hold blockTime, floor ≤ blockTime := by
  cases held with
  | none => exact ⟨blockTime, rfl, le_refl _⟩
  | some floor => exact ⟨min floor blockTime, rfl, min_le_right _ _⟩

theorem hold_lower {held : HeldFloor} {floor : Nat} (below : floor ∈ held) (blockTime : Nat) :
    ∃ lower ∈ held.hold blockTime, lower ≤ floor := by
  cases below
  exact ⟨min floor blockTime, rfl, min_le_left _ _⟩

theorem resumeFrom_le {held : HeldFloor} {floor : Nat} (below : floor ∈ held) (walkCursor : Nat) :
    held.resumeFrom walkCursor ≤ floor := by
  cases below
  exact min_le_right _ _

theorem resumeFrom_le_cursor (held : HeldFloor) (walkCursor : Nat) : held.resumeFrom walkCursor ≤ walkCursor := by
  cases held with
  | none => exact le_refl _
  | some floor => exact min_le_left _ _

end HeldFloor

end Kaspaverse.Transport
