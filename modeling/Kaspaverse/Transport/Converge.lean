import Kaspaverse.Transport.Merge

namespace Kaspaverse.Transport

open TransportStore Interrupted

section Order

/-- Between two pairs whose first parts are in order the other way round, they are the same. -/
theorem lex_squeeze {α β : Type*} [LinearOrder α] [LinearOrder β] {a b c : α} {x y z : β}
    (low : toLex (a, x) ≤ toLex (b, y)) (high : toLex (b, y) ≤ toLex (c, z)) (back : c ≤ a) :
    b = a ∧ c = a ∧ x ≤ y ∧ y ≤ z := by
  rw [Prod.Lex.toLex_le_toLex] at low high
  have ab : a ≤ b := by
    rcases low with less | ⟨same, _⟩
    · exact le_of_lt less
    · exact le_of_eq same
  have bc : b ≤ c := by
    rcases high with less | ⟨same, _⟩
    · exact le_of_lt less
    · exact le_of_eq same
  have first : b = a := le_antisymm (le_trans bc back) ab
  have last : c = a := le_antisymm back (le_trans ab bc)
  subst first
  subst last
  rcases low with less | ⟨_, below⟩
  · exact absurd less (lt_irrefl _)
  · rcases high with less | ⟨_, above⟩
    · exact absurd less (lt_irrefl _)
    · exact ⟨rfl, rfl, below, above⟩

theorem mergeRank_le {one two : Row} (order : mergeOrder one ≤ mergeOrder two) :
    mergeRank one ≤ mergeRank two := by
  unfold mergeOrder at order
  rw [Prod.Lex.toLex_le_toLex] at order
  rcases order with less | ⟨same, _⟩
  · exact le_of_lt less
  · exact le_of_eq same

/-- A row between the kept one and the host, which the kept one is no worse than but for its age,
    ranks as both do. -/
theorem rank_between {kept top host : Row} (low : mergeOrder kept ≤ mergeOrder top)
    (high : mergeOrder top ≤ mergeOrder host)
    (mine : hasMine host = true → hasMine kept = true)
    (theirs : hasTheirs host = true → hasTheirs kept = true)
    (active : host.1.status = .active → kept.1.status = .active) (hidden : kept.2 = host.2) :
    (hasMine top = hasMine kept ∧ hasTheirs top = hasTheirs kept ∧
      (top.1.status = .active ↔ kept.1.status = .active) ∧ top.2 = kept.2) ∧
      (host.1.status = .active ↔ kept.1.status = .active) := by
  have below := mergeRank_le low
  have above := mergeRank_le high
  unfold mergeRank at below above
  have first : decide (host.1.myAlias ≠ "") ≤ decide (kept.1.myAlias ≠ "") := mine
  obtain ⟨mineTop, _, below, above⟩ := lex_squeeze below above first
  have second : host.1.theirAlias.isSome ≤ kept.1.theirAlias.isSome := theirs
  obtain ⟨theirsTop, _, below, above⟩ := lex_squeeze below above second
  have third : decide (host.1.status = .active) ≤ decide (kept.1.status = .active) := by
    intro holds
    exact decide_eq_true (active (of_decide_eq_true holds))
  obtain ⟨activeTop, activeHost, below, above⟩ := lex_squeeze below above third
  have fourth : (!host.2) ≤ !kept.2 := by rw [hidden]
  obtain ⟨shownTop, _, _, _⟩ := lex_squeeze below above fourth
  refine ⟨⟨mineTop, theirsTop, ?_, ?_⟩, ?_⟩
  · simpa using activeTop
  · simpa using shownTop
  · simpa using activeHost

end Order

section Flag

/-- A row that makes the merge change the host's flag: a hidden invitation blocks a visible one, and
    a visible row shows a hidden host that is no invitation. -/
def Decides (host row : Row) : Prop :=
  (host.2 = false ∧ host.1.status = .pendingInbound ∧ row.2 = true ∧ row.1.status = .pendingInbound) ∨
    (host.2 = true ∧ host.1.status ≠ .pendingInbound ∧ row.2 = false)

theorem flagAfter_changes {host : Row} {rows : List Row} :
    flagAfter host rows ≠ host.2 ↔ ∃ row ∈ rows, Decides host row := by
  rw [flagAfter_eq]
  unfold blocked anyVisible Decides
  by_cases invitation : host.1.status = .pendingInbound
  · cases hidden : host.2 with
    | true => simp [invitation]
    | false => simp [invitation]
  · cases hidden : host.2 with
    | true => simp [invitation]
    | false => simp [invitation]

theorem Decides.apart {host row : Row} (decides : Decides host row) : row.2 ≠ host.2 := by
  rcases decides with ⟨shown, _, hides, _⟩ | ⟨hidden, _, shows_⟩
  · rw [shown, hides]
    simp
  · rw [hidden, shows_]
    simp

theorem Decides.congr {host top row : Row} (hidden : top.2 = host.2)
    (invitation : top.1.status = .pendingInbound ↔ host.1.status = .pendingInbound) :
    Decides top row ↔ Decides host row := by
  unfold Decides
  simp only [hidden, ne_eq, invitation]

end Flag

section Stages

variable {store half : TransportStore} {address : String} {kept host : Row} {rows gone rest : List Row}

/-- The rows a stage of the merge leaves: the kept one and those not dropped yet. -/
theorem Stage.mem_rows (stage : Stage store kept rows gone half)
    (split : store.contactRows address = rows ++ [host]) (shape : rows = gone ++ rest)
    (id : kept.id = host.id) (named : kept.1.contactAddress = address) {row : Row} :
    row ∈ half.contactRows address ↔ row = kept ∨ row ∈ rest := by
  obtain ⟨others, hostIn, nodup⟩ := contactRows_split split
  rw [shape] at nodup
  have restIn : ∀ other ∈ rest, other ∈ rows := by
    intro other member
    rw [shape]
    exact List.mem_append_right _ member
  have ungone : ∀ other ∈ rest, other.id ∉ gone.map Row.id := by
    intro other member among
    obtain ⟨early, early_in, same⟩ := List.mem_map.mp among
    have earlyRow : early ∈ rows := by
      rw [shape]
      exact List.mem_append_left _ early_in
    have equal := contactRows_ext (others early earlyRow).1 (others other (restIn other member)).1 same
    exact (List.nodup_append.mp nodup).2.2 early early_in other member equal
  rw [mem_contactRows, stage.conversation]
  have flag := stage.hidden row.id
  by_cases same : row.id = kept.id
  · rw [if_pos same] at flag ⊢
    constructor
    · rintro ⟨found, _, hidden⟩
      left
      refine Prod.ext (Option.some.inj found).symm ?_
      rw [hidden]
      cases keptHidden : kept.2 with
      | true => exact decide_eq_true (flag.mpr keptHidden)
      | false =>
        apply decide_eq_false
        rw [flag, keptHidden]
        simp
    · rintro (rfl | member)
      · refine ⟨rfl, named, ?_⟩
        cases keptHidden : row.2 with
        | true => exact (decide_eq_true (flag.mpr keptHidden)).symm
        | false =>
          symm
          apply decide_eq_false
          rw [flag, keptHidden]
          simp
      · exact absurd (same.trans id) (others row (restIn row member)).2.1
  · rw [if_neg same] at flag ⊢
    constructor
    · rintro ⟨found, at_, hidden⟩
      right
      split at found
      · cases found
      case isFalse stays =>
        have member : row ∈ store.contactRows address := by
          rw [mem_contactRows]
          refine ⟨found, at_, ?_⟩
          rw [hidden]
          apply decide_eq_decide.mpr
          rw [flag]
          exact ⟨fun both => both.1, fun held => ⟨held, stays⟩⟩
        rw [split, shape] at member
        rcases List.mem_append.mp member with early | last
        · rcases List.mem_append.mp early with among | member
          · exact absurd (List.mem_map_of_mem among) stays
          · exact member
        · rw [List.mem_singleton.mp last] at same
          exact absurd id.symm same
    · rintro (rfl | member)
      · exact absurd rfl same
      · obtain ⟨found, at_, hidden⟩ := mem_contactRows.mp (others row (restIn row member)).1
        rw [if_neg (ungone row member)]
        refine ⟨found, at_, ?_⟩
        rw [hidden]
        apply decide_eq_decide.mpr
        rw [flag]
        exact ⟨fun held => ⟨held, ungone row member⟩, fun both => both.1⟩

theorem contactRows_singleton (members : ∀ row, row ∈ store.contactRows address ↔ row = kept) :
    store.contactRows address = [kept] := by
  have nodup := contactRows_nodup store address
  exact List.perm_singleton.mp ((List.perm_ext_iff_of_nodup nodup (List.nodup_singleton _)).mpr
    fun row => by rw [members, List.mem_singleton])

end Stages

section Converges

theorem decide_eq_of_iff {p : Prop} [Decidable p] {flag : Bool} (same : p ↔ flag = true) :
    decide p = flag := by
  cases flag <;> simp [same]

/-- One row is left of the contact, and every message of its rows is that row's. -/
structure OneRow (store result : TransportStore) (address : String) (row : Row) : Prop where
  only : result.contactRows address = [row]
  refiled : ∀ txid m, store.messages.records.lookup txid = some m →
    m.conversationId ∈ (store.contactRows address).map Row.id →
      result.messages.records.lookup txid = some { m with conversationId := row.id }

/-- The same visible conversation. -/
structure Alike (row other : Row) : Prop where
  myAlias : row.1.myAlias = other.1.myAlias
  theirAlias : row.1.theirAlias = other.1.theirAlias
  boundBranch : row.1.boundBranch = other.1.boundBranch
  boundIndex : row.1.boundIndex = other.1.boundIndex
  status : row.1.status = other.1.status
  hidden : row.2 = other.2

def SameResult (store again full : TransportStore) (address : String) : Prop :=
  ∃ row row', OneRow store again address row ∧ OneRow store full address row' ∧ Alike row row'

/-- A contact's rows as a merge goes through them: the host, and the others from the worst. -/
def foldingOrder (store : TransportStore) (address : String) : List Row :=
  (store.contactRows address).getLast?.toList ++ (store.contactRows address).dropLast

/-- What a merge that failed has to leave for its re-run to end as it would have: where a row left
    over outranks the kept one it has the host's status (and, where nobody's alias is known, its
    slot); no row left over reads as the newest announcement of another alias than the newest one
    at the start; and of the rows that make the host hide or show one is left over, or the flag is
    set. -/
structure Resumable (store left : TransportStore) (address : String) (host : Row) (rows : List Row) :
    Prop where
  status : ∀ top, (left.contactRows address).getLast? = some top →
    top.id = host.id ∨ top.1.status = .active ∨ top.1.status = host.1.status
  mine : ∀ row ∈ rows, ∀ first,
    Latest.Leads hasMine (announced left .outbound) (foldingOrder left address) row →
    Latest.Leads hasMine (announced store .outbound) (foldingOrder store address) first →
      row.1.myAlias = first.1.myAlias
  theirs : ∀ row ∈ rows, ∀ first,
    Latest.Leads hasTheirs (announced left .inbound) (foldingOrder left address) row →
    Latest.Leads hasTheirs (announced store .inbound) (foldingOrder store address) first →
      row.1.theirAlias = first.1.theirAlias ∧ row.1.boundBranch = first.1.boundBranch ∧
        row.1.boundIndex = first.1.boundIndex
  slot : (∀ row ∈ foldingOrder store address, hasTheirs row = false) →
    ∀ top, (left.contactRows address).getLast? = some top →
      top.1.boundBranch = host.1.boundBranch ∧ top.1.boundIndex = host.1.boundIndex
  flag : (∃ row ∈ rows, Decides host row) →
    (∃ row ∈ rows, row ∈ left.contactRows address ∧ Decides host row) ∨
      decide (host.id ∈ left.conversations.tombstoned) ≠ host.2

/-- A reload reads back what the logs hold, in whatever order. -/
structure Reloads (half left : TransportStore) : Prop where
  conversations : half.conversations.Same left.conversations
  messages : half.messages.Same left.messages

theorem foldingOrder_split {store : TransportStore} {address : String} {rows : List Row} {host : Row}
    (split : store.contactRows address = rows ++ [host]) : foldingOrder store address = host :: rows := by
  unfold foldingOrder
  rw [split, List.getLast?_concat, List.dropLast_concat]
  rfl

variable {store left : TransportStore} {address : String} {host top : Row} {rows gone rest others : List Row}
  {kept kept' : ConversationRecord}

theorem leads_mine (store : TransportStore) (some_ : ∃ row ∈ host :: rows, hasMine row = true) :
    Latest.Leads hasMine (announced store .outbound) (host :: rows)
      (Latest.pick hasMine (announced store .outbound) host rows) := Latest.pick_leads some_

theorem leads_theirs (store : TransportStore) (some_ : ∃ row ∈ host :: rows, hasTheirs row = true) :
    Latest.Leads hasTheirs (announced store .inbound) (host :: rows)
      (Latest.pick hasTheirs (announced store .inbound) host rows) := Latest.pick_leads some_

/-- A merge keeps an alias of ours exactly where a row has one. -/
theorem Kept.hasMine_iff (kept_ : Kept store host rows kept) :
    kept.myAlias ≠ "" ↔ ∃ row ∈ host :: rows, hasMine row = true := by
  rw [kept_.myAlias]
  constructor
  · intro holds
    by_contra none_
    simp only [not_exists, not_and, Bool.not_eq_true] at none_
    rw [Latest.pick_held fun row member => none_ row (List.mem_cons_of_mem _ member)] at holds
    have lacks := none_ host List.mem_cons_self
    unfold hasMine at lacks
    exact (of_decide_eq_false lacks) holds
  · intro some_
    exact of_decide_eq_true (leads_mine store some_).holds

theorem Kept.hasTheirs_iff (kept_ : Kept store host rows kept) :
    kept.theirAlias.isSome = true ↔ ∃ row ∈ host :: rows, hasTheirs row = true := by
  rw [kept_.theirAlias]
  constructor
  · intro holds
    by_contra none_
    simp only [not_exists, not_and, Bool.not_eq_true] at none_
    rw [Latest.pick_held fun row member => none_ row (List.mem_cons_of_mem _ member)] at holds
    have lacks := none_ host List.mem_cons_self
    unfold hasTheirs at lacks
    rw [holds] at lacks
    cases lacks
  · intro some_
    exact (leads_theirs store some_).holds

/-- The two merges side by side: the one that was not interrupted, and the re-run over the rows
    that an interruption left. -/
structure Rerun (store left : TransportStore) (address : String) (host top : Row)
    (rows rest others : List Row) (kept kept' : ConversationRecord) : Prop where
  split : store.contactRows address = rows ++ [host]
  splitLeft : left.contactRows address = others ++ [top]
  members : ∀ row, row ∈ top :: others ↔ row = (kept, host.2) ∨ row ∈ rest
  unfolded : ∀ row ∈ rest, row ∈ rows
  kept : Kept store host rows kept
  kept' : Kept left top others kept'
  covered : ∀ row ∈ rows, row.id ≠ host.id

theorem Rerun.mine_present (rerun : Rerun store left address host top rows rest others kept kept') :
    (∃ row ∈ top :: others, hasMine row = true) ↔ ∃ row ∈ host :: rows, hasMine row = true := by
  rw [← rerun.kept.hasMine_iff]
  constructor
  · rintro ⟨row, member, holds⟩
    rcases (rerun.members row).mp member with rfl | unfolded
    · exact of_decide_eq_true holds
    · exact rerun.kept.hasMine_iff.mpr
        ⟨row, List.mem_cons_of_mem _ (rerun.unfolded row unfolded), holds⟩
  · intro holds
    exact ⟨(kept, host.2), (rerun.members _).mpr (.inl rfl), decide_eq_true holds⟩

theorem Rerun.theirs_present (rerun : Rerun store left address host top rows rest others kept kept') :
    (∃ row ∈ top :: others, hasTheirs row = true) ↔ ∃ row ∈ host :: rows, hasTheirs row = true := by
  rw [← rerun.kept.hasTheirs_iff]
  constructor
  · rintro ⟨row, member, holds⟩
    rcases (rerun.members row).mp member with rfl | unfolded
    · exact holds
    · exact rerun.kept.hasTheirs_iff.mpr
        ⟨row, List.mem_cons_of_mem _ (rerun.unfolded row unfolded), holds⟩
  · intro holds
    exact ⟨(kept, host.2), (rerun.members _).mpr (.inl rfl), holds⟩

theorem Rerun.mine_iff (rerun : Rerun store left address host top rows rest others kept kept') :
    kept'.myAlias = kept.myAlias ↔ ∀ row ∈ rows, ∀ first,
      Latest.Leads hasMine (announced left .outbound) (foldingOrder left address) row →
      Latest.Leads hasMine (announced store .outbound) (foldingOrder store address) first →
        row.1.myAlias = first.1.myAlias := by
  rw [foldingOrder_split rerun.split, foldingOrder_split rerun.splitLeft]
  by_cases some_ : ∃ row ∈ host :: rows, hasMine row = true
  · have leadsStart := leads_mine store some_
    have leadsLeft := leads_mine left (rerun.mine_present.mpr some_)
    rw [rerun.kept.myAlias, rerun.kept'.myAlias]
    constructor
    · intro same row _ first leads leadsFirst
      rw [leads.unique leadsLeft, leadsFirst.unique leadsStart]
      exact same
    · intro agree
      rcases (rerun.members _).mp leadsLeft.mem with itself | unfolded
      · rw [itself]
        exact rerun.kept.myAlias
      · exact agree _ (rerun.unfolded _ unfolded) _ leadsLeft leadsStart
  · constructor
    · intro _ row _ first _ leadsFirst
      exact absurd ⟨first, leadsFirst.mem, leadsFirst.holds⟩ some_
    · intro _
      have lacks : kept.myAlias = "" := by
        by_contra holds
        exact some_ (rerun.kept.hasMine_iff.mp holds)
      have lacks' : kept'.myAlias = "" := by
        by_contra holds
        exact some_ (rerun.mine_present.mp (rerun.kept'.hasMine_iff.mp holds))
      rw [lacks, lacks']

theorem Rerun.theirs_iff (rerun : Rerun store left address host top rows rest others kept kept') :
    (kept'.theirAlias = kept.theirAlias ∧ kept'.boundBranch = kept.boundBranch ∧
        kept'.boundIndex = kept.boundIndex) ↔
      (∀ row ∈ rows, ∀ first,
        Latest.Leads hasTheirs (announced left .inbound) (foldingOrder left address) row →
        Latest.Leads hasTheirs (announced store .inbound) (foldingOrder store address) first →
          row.1.theirAlias = first.1.theirAlias ∧ row.1.boundBranch = first.1.boundBranch ∧
            row.1.boundIndex = first.1.boundIndex) ∧
      ((∀ row ∈ foldingOrder store address, hasTheirs row = false) →
        top.1.boundBranch = host.1.boundBranch ∧ top.1.boundIndex = host.1.boundIndex) := by
  rw [foldingOrder_split rerun.split, foldingOrder_split rerun.splitLeft]
  by_cases some_ : ∃ row ∈ host :: rows, hasTheirs row = true
  · have leadsStart := leads_theirs store some_
    have leadsLeft := leads_theirs left (rerun.theirs_present.mpr some_)
    rw [rerun.kept.theirAlias, rerun.kept'.theirAlias, rerun.kept.boundBranch,
      rerun.kept'.boundBranch, rerun.kept.boundIndex, rerun.kept'.boundIndex]
    constructor
    · intro same
      refine ⟨?_, ?_⟩
      · intro row _ first leads leadsFirst
        rw [leads.unique leadsLeft, leadsFirst.unique leadsStart]
        exact same
      · intro none_
        obtain ⟨row, member, holds⟩ := some_
        rw [none_ row member] at holds
        cases holds
    · rintro ⟨agree, _⟩
      rcases (rerun.members _).mp leadsLeft.mem with itself | unfolded
      · rw [itself]
        exact ⟨rerun.kept.theirAlias, rerun.kept.boundBranch, rerun.kept.boundIndex⟩
      · exact agree _ (rerun.unfolded _ unfolded) _ leadsLeft leadsStart
  · have none_ : ∀ row ∈ host :: rows, hasTheirs row = false := by
      intro row member
      by_contra holds
      exact some_ ⟨row, member, by simpa using holds⟩
    have noneLeft : ∀ row ∈ top :: others, hasTheirs row = false := by
      intro row member
      by_contra holds
      exact some_ (rerun.theirs_present.mp ⟨row, member, by simpa using holds⟩)
    have start := @Latest.pick_held _ _ _ hasTheirs (announced store .inbound) rows host
      fun row member => none_ row (List.mem_cons_of_mem _ member)
    have again := @Latest.pick_held _ _ _ hasTheirs (announced left .inbound) others top
      fun row member => noneLeft row (List.mem_cons_of_mem _ member)
    have theirs : kept'.theirAlias = kept.theirAlias := by
      rw [rerun.kept.theirAlias, rerun.kept'.theirAlias, start, again]
      have lacks := none_ host List.mem_cons_self
      have lacks' := noneLeft top List.mem_cons_self
      unfold hasTheirs at lacks lacks'
      rw [Option.isSome_eq_false_iff, Option.isNone_iff_eq_none] at lacks lacks'
      rw [lacks, lacks']
    rw [rerun.kept.boundBranch, rerun.kept'.boundBranch, rerun.kept.boundIndex,
      rerun.kept'.boundIndex, start, again]
    constructor
    · rintro ⟨_, slot⟩
      exact ⟨fun row _ first _ leadsFirst => absurd ⟨first, leadsFirst.mem, leadsFirst.holds⟩ some_,
        fun _ => slot⟩
    · rintro ⟨_, slot⟩
      exact ⟨theirs, slot none_⟩

/-- What is known of the row a re-run keeps: it is the row the first run kept, or it ranks as that
    one does. -/
theorem Rerun.top_cases (rerun : Rerun store left address host top rows rest others kept kept') :
    top = (kept, host.2) ∨ (top ∈ rest ∧ hasMine top = hasMine (kept, host.2) ∧
      hasTheirs top = hasTheirs (kept, host.2) ∧ (top.1.status = .active ↔ kept.status = .active) ∧
        top.2 = host.2 ∧ (host.1.status = .active ↔ kept.status = .active)) := by
  rcases (rerun.members top).mp List.mem_cons_self with itself | unfolded
  · exact .inl itself
  · right
    obtain ⟨below, _, _⟩ := contactRows_split rerun.split
    obtain ⟨belowTop, _, _⟩ := contactRows_split rerun.splitLeft
    have high := (below top (rerun.unfolded top unfolded)).2.2
    have low : mergeOrder (kept, host.2) ≤ mergeOrder top := by
      rcases List.mem_cons.mp ((rerun.members (kept, host.2)).mpr (.inl rfl)) with same | member
      · rw [same]
      · exact (belowTop _ member).2.2
    have mine : hasMine host = true → hasMine (kept, host.2) = true := by
      intro holds
      exact decide_eq_true (rerun.kept.hasMine_iff.mpr ⟨host, List.mem_cons_self, holds⟩)
    have theirs : hasTheirs host = true → hasTheirs (kept, host.2) = true := by
      intro holds
      exact rerun.kept.hasTheirs_iff.mpr ⟨host, List.mem_cons_self, holds⟩
    have active : host.1.status = .active → kept.status = .active := by
      intro holds
      rw [rerun.kept.status, holds]
      simp
    obtain ⟨⟨mineTop, theirsTop, activeTop, hiddenTop⟩, activeHost⟩ :=
      rank_between low high mine theirs active rfl
    exact ⟨unfolded, mineTop, theirsTop, activeTop, hiddenTop, activeHost⟩

theorem Rerun.status_iff (rerun : Rerun store left address host top rows rest others kept kept') :
    kept'.status = kept.status ↔
      top.id = host.id ∨ top.1.status = .active ∨ top.1.status = host.1.status := by
  have both : (kept'.myAlias ≠ "" ∧ kept'.theirAlias.isSome = true) ↔
      (kept.myAlias ≠ "" ∧ kept.theirAlias.isSome = true) := by
    rw [rerun.kept'.hasMine_iff, rerun.kept'.hasTheirs_iff, rerun.kept.hasMine_iff,
      rerun.kept.hasTheirs_iff, rerun.mine_present, rerun.theirs_present]
  have status := rerun.kept.status
  have status' := rerun.kept'.status
  simp only [both] at status'
  rcases rerun.top_cases with rfl | ⟨unfolded, mineTop, theirsTop, activeTop, hiddenTop, activeHost⟩
  · have same : kept'.status = kept.status := by
      rw [status']
      split
      case isTrue aliases =>
        split at status
        case isTrue => exact status.symm
        case isFalse lacks =>
          exfalso
          apply lacks
          refine ⟨?_, aliases.2⟩
          rw [← status]
          exact aliases.1
      · rfl
    exact ⟨fun _ => .inl rerun.kept.id, fun _ => same⟩
  · have apart := rerun.covered top (rerun.unfolded top unfolded)
    by_cases active : top.1.status = .active
    · refine ⟨fun _ => .inr (.inl active), fun _ => ?_⟩
      rw [activeTop.mp active, status', active]
      simp
    · have unready : ¬ (host.1.status ≠ .pendingInbound ∧ kept.myAlias ≠ "" ∧
          kept.theirAlias.isSome = true) := by
        intro ready
        rw [if_pos ready] at status
        exact active (activeTop.mpr status)
      rw [if_neg unready] at status
      constructor
      · intro same
        right
        right
        rw [status'] at same
        split at same
        · exact absurd (activeTop.mpr same.symm) active
        · rw [same, status]
      · rintro (same | wrong | same)
        · exact absurd same apart
        · exact absurd wrong active
        · rw [status', status, same]
          exact if_neg unready

/-- Once the statuses agree, the re-run leaves the flag alike where a row that decides it is left. -/
theorem Rerun.flag_iff (rerun : Rerun store left address host top rows rest others kept kept')
    (agree : top.id = host.id ∨ top.1.status = .active ∨ top.1.status = host.1.status) :
    flagAfter top others = flagAfter host rows ↔
      ((∃ row ∈ rows, Decides host row) → ∃ row ∈ rest, Decides host row) := by
  have known : top.2 = host.2 ∧
      (top.1.status = .pendingInbound ↔ host.1.status = .pendingInbound) := by
    rcases rerun.top_cases with rfl | ⟨unfolded, _, _, activeTop, hiddenTop, activeHost⟩
    · refine ⟨rfl, ?_⟩
      show kept.status = _ ↔ _
      rw [rerun.kept.status]
      split
      case isTrue ready =>
        refine ⟨fun wrong => (nomatch wrong), fun wrong => absurd wrong ready.1⟩
      · rfl
    · refine ⟨hiddenTop, ?_⟩
      rcases agree with same | active | same
      · exact absurd same (rerun.covered top (rerun.unfolded top unfolded))
      · rw [active, activeHost.mpr (activeTop.mp active)]
      · rw [same]
  obtain ⟨hidden, invitation⟩ := known
  have left_over : (∃ row ∈ others, Decides top row) ↔ ∃ row ∈ rest, Decides host row := by
    constructor
    · rintro ⟨row, member, decides⟩
      have decides' := (Decides.congr hidden invitation).mp decides
      rcases (rerun.members row).mp (List.mem_cons_of_mem _ member) with rfl | unfolded
      · exact absurd rfl decides'.apart
      · exact ⟨row, unfolded, decides'⟩
    · rintro ⟨row, unfolded, decides⟩
      have decides' := (Decides.congr hidden invitation).mpr decides
      rcases List.mem_cons.mp ((rerun.members row).mpr (.inr unfolded)) with rfl | member
      · exact absurd rfl decides'.apart
      · exact ⟨row, member, decides'⟩
  have changes := @flagAfter_changes host rows
  have changes' := @flagAfter_changes top others
  rw [hidden, left_over] at changes'
  have fewer : (∃ row ∈ rest, Decides host row) → ∃ row ∈ rows, Decides host row := by
    rintro ⟨row, unfolded, decides⟩
    exact ⟨row, rerun.unfolded row unfolded, decides⟩
  constructor
  · intro same decided
    apply changes'.mp
    rw [same]
    exact changes.mpr decided
  · intro left_
    by_cases decided : ∃ row ∈ rows, Decides host row
    · have one := changes.mpr decided
      have other := changes'.mpr (left_ decided)
      rw [Bool.eq_not.mpr one, Bool.eq_not.mpr other]
    · have one : flagAfter host rows = host.2 := by
        by_contra changed
        exact decided (changes.mp changed)
      have other : flagAfter top others = host.2 := by
        by_contra changed
        exact decided (fewer (changes'.mp changed))
      rw [one, other]

/-- Wherever a merge stops, a message of the contact's rows is its row's or the kept row's. -/
theorem Stage.filed {half : TransportStore} {row : Row} (stage : Stage store row rows gone half)
    (split : store.contactRows address = rows ++ [host]) (shape : rows = gone ++ rest)
    (id : row.id = host.id) {txid : String} {m : MessageRecord}
    (found : store.messages.records.lookup txid = some m)
    (member : m.conversationId ∈ (store.contactRows address).map Row.id) :
    ∃ conversationId, half.messages.records.lookup txid = some { m with conversationId := conversationId } ∧
      (conversationId = row.id ∨ conversationId ∈ rest.map Row.id) := by
  rcases stage.message txid with same | ⟨other, found', _, moved⟩
  · refine ⟨m.conversationId, same.trans found, ?_⟩
    have ungone := stage.swept txid m (same.trans found)
    rw [split, shape, List.map_append, List.map_append, List.mem_append, List.mem_append] at member
    rcases member with (among | unfolded) | last
    · exact absurd among ungone
    · exact .inr unfolded
    · left
      rw [List.map_singleton, List.mem_singleton] at last
      rw [last, id]
  · rw [found] at found'
    cases found'
    exact ⟨row.id, moved, .inl rfl⟩

theorem Stage.reload {half : TransportStore} {row : Row} (stage : Stage store row rows gone half)
    (reloads : Reloads half left) : Stage store row rows gone left := by
  refine ⟨?_, ?_, ?_, ?_⟩
  · intro id
    rw [← reloads.conversations.records]
    exact stage.conversation id
  · intro id
    rw [← reloads.conversations.tombstoned]
    exact stage.hidden id
  · intro txid
    rw [← reloads.messages.records]
    exact stage.message txid
  · intro txid m found
    rw [← reloads.messages.records] at found
    exact stage.swept txid m found

/-- A whole merge leaves one row. -/
theorem Stage.oneRow {full : TransportStore} {row : Row} (stage : Stage store row rows rows full)
    (split : store.contactRows address = rows ++ [host]) (id : row.id = host.id)
    (named : row.1.contactAddress = address) : OneRow store full address row := by
  constructor
  · apply contactRows_singleton
    intro other
    rw [stage.mem_rows split (List.append_nil rows).symm id named]
    simp
  · intro txid m found member
    obtain ⟨conversationId, held, mine | none_⟩ :=
      stage.filed split (List.append_nil rows).symm id found member
    · rw [held, mine]
    · cases none_

theorem mergeContact_short {fault : Option (Nat × Bool)}
    (short : address = "" ∨ (store.contactRows address).length < 2) :
    mergeContact address ⟨store, fault⟩ = .ok none ⟨store, fault⟩ := by
  unfold mergeContact
  show (if _ then _ else _ : Writing _) _ = _
  rw [if_pos short]
  rfl

theorem contactRows_two (long : ¬ (address = "" ∨ (store.contactRows address).length < 2)) :
    address ≠ "" ∧ ∃ rows host, store.contactRows address = rows ++ [host] ∧ rows ≠ [] := by
  rw [not_or, not_lt] at long
  refine ⟨long.1, ?_⟩
  cases shape : store.contactRows address using List.reverseRecOn with
  | nil =>
    rw [shape] at long
    exact absurd long.2 (by decide)
  | append_singleton rows host =>
    refine ⟨rows, host, rfl, ?_⟩
    rintro rfl
    rw [shape] at long
    exact absurd long.2 (by simp)

theorem mergeContact_whole (named : address ≠ "") (split : store.contactRows address = rows ++ [host])
    (several : rows ≠ []) :
    ∃ out full fault, mergeContact address ⟨store, none⟩ = .ok out ⟨full, fault⟩ ∧
      Stage store (store.mergedHost host.1 rows, flagAfter host rows) rows rows full := by
  have ends := @mergeContact_ends store rows address host none named split several
  cases result : mergeContact address ⟨store, none⟩ with
  | ok out w =>
    rw [result] at ends
    exact ⟨out, w.store, w.fault, rfl, ends⟩
  | error e w =>
    rw [result] at ends
    exact absurd rfl ends.1

theorem OneRow.alike {again full : TransportStore} {row row' : Row}
    (one : OneRow store again address row) (other : OneRow store full address row') :
    SameResult store again full address ↔ Alike row row' := by
  constructor
  · rintro ⟨kept, kept', keeps, keeps', alike⟩
    have same := one.only.symm.trans keeps.only
    have same' := other.only.symm.trans keeps'.only
    cases same
    cases same'
    exact alike
  · exact fun alike => ⟨row, row', one, other, alike⟩

/-- Nothing was written: the re-run is the merge itself. -/
theorem untouched_converges {half again full : TransportStore} (reloads : Reloads half left)
    (untouched : half = store) (split : store.contactRows address = rows ++ [host])
    (whole : Stage store (store.mergedHost host.1 rows, flagAfter host rows) rows rows full)
    (rerun : Stage left (left.mergedHost host.1 rows, flagAfter host rows) rows rows again) :
    SameResult store again full address ∧ Resumable store left address host rows := by
  subst untouched
  have splitLeft : left.contactRows address = rows ++ [host] :=
    (contactRows_congr reloads.conversations address).symm.trans split
  have times : ∀ direction, announced half direction = announced left direction := by
    intro direction
    funext row
    exact announcedAt_congr reloads.messages row.1 direction
  have named : host.1.contactAddress = address :=
    (mem_contactRows.mp (contactRows_split split).2.1).2.1
  have kept := kept_mergedHost half host rows
  have kept' := kept_mergedHost left host rows
  have one := whole.oneRow split kept.id (kept.address.trans named)
  have oneLeft := rerun.oneRow splitLeft kept'.id (kept'.address.trans named)
  have mine : (left.mergedHost host.1 rows).myAlias = (half.mergedHost host.1 rows).myAlias := by
    rw [kept.myAlias, kept'.myAlias, times]
  have theirs : (left.mergedHost host.1 rows).theirAlias = (half.mergedHost host.1 rows).theirAlias := by
    rw [kept.theirAlias, kept'.theirAlias, times]
  refine ⟨?_, ?_⟩
  · refine ⟨_, _, ⟨oneLeft.only, ?_⟩, one, mine, theirs, ?_, ?_, ?_, rfl⟩
    · intro txid m found member
      rw [reloads.messages.records] at found
      apply oneLeft.refiled txid m found
      rw [splitLeft, ← split]
      exact member
    · rw [kept.boundBranch, kept'.boundBranch, times]
    · rw [kept.boundIndex, kept'.boundIndex, times]
    · rw [kept.status, kept'.status, mine, theirs]
  · have order : foldingOrder left address = foldingOrder half address := by
      rw [foldingOrder_split split, foldingOrder_split splitLeft]
    refine ⟨?_, ?_, ?_, ?_, ?_⟩
    · intro top best
      rw [splitLeft, List.getLast?_concat] at best
      cases best
      exact .inl rfl
    · intro row _ first leads leadsFirst
      rw [order, ← times] at leads
      rw [leads.unique leadsFirst]
    · intro row _ first leads leadsFirst
      rw [order, ← times] at leads
      rw [leads.unique leadsFirst]
      exact ⟨rfl, rfl, rfl⟩
    · intro _ top best
      rw [splitLeft, List.getLast?_concat] at best
      cases best
      exact ⟨rfl, rfl⟩
    · rintro ⟨row, member, decides⟩
      left
      refine ⟨row, member, ?_, decides⟩
      rw [splitLeft]
      exact List.mem_append_left _ member

/-- Every row was dropped: the re-run has nothing left to do. -/
theorem dropped_converges {full : TransportStore} {hidden : Bool}
    (stage : Stage store (store.mergedHost host.1 rows, hidden) rows rows left)
    (split : store.contactRows address = rows ++ [host])
    (whole : Stage store (store.mergedHost host.1 rows, flagAfter host rows) rows rows full)
    (flag : hidden = host.2 ∨ hidden = flagAfter host rows) :
    SameResult store left full address ↔ Resumable store left address host rows := by
  obtain ⟨others, hostIn, _⟩ := contactRows_split split
  have named : host.1.contactAddress = address := (mem_contactRows.mp hostIn).2.1
  have kept := kept_mergedHost store host rows
  have keptId : Row.id (store.mergedHost host.1 rows, hidden) = host.id := kept.id
  have one := whole.oneRow split kept.id (kept.address.trans named)
  have oneLeft := stage.oneRow split keptId (kept.address.trans named)
  have order : foldingOrder left address = [(store.mergedHost host.1 rows, hidden)] := by
    have alone : left.contactRows address = [] ++ [(store.mergedHost host.1 rows, hidden)] := oneLeft.only
    exact foldingOrder_split alone
  have unled : ∀ row ∈ rows, ∀ (has : Row → Bool) (at_ : Row → Nat),
      ¬ Latest.Leads has at_ (foldingOrder left address) row := by
    intro row member has at_ leads
    have itself := leads.mem
    rw [order, List.mem_singleton] at itself
    exact (others row member).2.1 (by rw [itself]; exact keptId)
  have flagged : decide (host.id ∈ left.conversations.tombstoned) = hidden := by
    have set := stage.hidden host.id
    rw [if_pos keptId.symm] at set
    exact decide_eq_of_iff set
  rw [oneLeft.alike one]
  constructor
  · intro alike
    have same : hidden = flagAfter host rows := alike.hidden
    refine ⟨?_, ?_, ?_, ?_, ?_⟩
    · intro top best
      rw [oneLeft.only] at best
      cases best
      exact .inl keptId
    · intro row member first leads
      exact absurd leads (unled row member _ _)
    · intro row member first leads
      exact absurd leads (unled row member _ _)
    · intro none_ top best
      rw [oneLeft.only] at best
      cases best
      rw [foldingOrder_split split] at none_
      have held := @Latest.pick_held _ _ _ hasTheirs (announced store .inbound) rows host
        fun row member => none_ row (List.mem_cons_of_mem _ member)
      show (store.mergedHost host.1 rows).boundBranch = _ ∧
        (store.mergedHost host.1 rows).boundIndex = _
      rw [kept.boundBranch, kept.boundIndex, held]
      exact ⟨rfl, rfl⟩
    · intro decided
      right
      rw [flagged, same]
      exact flagAfter_changes.mpr decided
  · intro resumable
    refine ⟨rfl, rfl, rfl, rfl, rfl, ?_⟩
    show hidden = flagAfter host rows
    rcases flag with before | after
    · by_contra differs
      have decided := flagAfter_changes.mp fun same => differs (before.trans same.symm)
      rcases resumable.flag decided with ⟨row, member, listed, _⟩ | changed
      · rw [oneLeft.only, List.mem_singleton] at listed
        exact (others row member).2.1 (by rw [listed]; exact keptId)
      · rw [flagged] at changed
        exact changed before
    · exact after

/-- Rows are left over: the re-run decides everything again from them. -/
theorem remaining_converges {again full : TransportStore} {top : Row} {others : List Row}
    (stage : Stage store (store.mergedHost host.1 rows, host.2) rows gone left)
    (split : store.contactRows address = rows ++ [host]) (shape : rows = gone ++ rest)
    (splitLeft : left.contactRows address = others ++ [top])
    (whole : Stage store (store.mergedHost host.1 rows, flagAfter host rows) rows rows full)
    (again_ : Stage left (left.mergedHost top.1 others, flagAfter top others) others others again) :
    SameResult store again full address ↔ Resumable store left address host rows := by
  obtain ⟨below, hostIn, _⟩ := contactRows_split split
  have topIn := (contactRows_split splitLeft).2.1
  have named : host.1.contactAddress = address := (mem_contactRows.mp hostIn).2.1
  have namedTop : top.1.contactAddress = address := (mem_contactRows.mp topIn).2.1
  have kept := kept_mergedHost store host rows
  have kept' := kept_mergedHost left top others
  have keptId : Row.id (store.mergedHost host.1 rows, host.2) = host.id := kept.id
  have members : ∀ row, row ∈ left.contactRows address ↔
      row = (store.mergedHost host.1 rows, host.2) ∨ row ∈ rest :=
    fun row => stage.mem_rows split shape keptId (kept.address.trans named)
  have unfolded : ∀ row ∈ rest, row ∈ rows := by
    intro row member
    rw [shape]
    exact List.mem_append_right _ member
  have rerun : Rerun store left address host top rows rest others (store.mergedHost host.1 rows)
      (left.mergedHost top.1 others) := by
    refine ⟨split, splitLeft, ?_, unfolded, kept, kept', fun row member => (below row member).2.1⟩
    intro row
    rw [← members, splitLeft, List.mem_append, List.mem_singleton, List.mem_cons, or_comm]
  have one := whole.oneRow split kept.id (kept.address.trans named)
  have oneLeft := again_.oneRow splitLeft kept'.id (kept'.address.trans namedTop)
  have oneAgain : OneRow store again address (left.mergedHost top.1 others, flagAfter top others) := by
    refine ⟨oneLeft.only, ?_⟩
    intro txid m found member
    obtain ⟨conversationId, held, among⟩ := stage.filed split shape keptId found member
    apply oneLeft.refiled txid _ held
    rcases among with mine | left_over
    · rw [mine]
      exact List.mem_map_of_mem ((members _).mpr (.inl rfl))
    · obtain ⟨row, member, rfl⟩ := List.mem_map.mp left_over
      exact List.mem_map_of_mem ((members _).mpr (.inr member))
  have flagged : decide (host.id ∈ left.conversations.tombstoned) = host.2 := by
    have set := stage.hidden host.id
    rw [if_pos keptId.symm] at set
    exact decide_eq_of_iff set
  have best : ∀ other, (left.contactRows address).getLast? = some other ↔ top = other := by
    intro other
    rw [splitLeft, List.getLast?_concat, Option.some.injEq]
  have listed : ∀ row ∈ rows, row ∈ left.contactRows address ↔ row ∈ rest := by
    intro row member
    rw [members]
    constructor
    · rintro (rfl | left_over)
      · exact absurd keptId (below _ member).2.1
      · exact left_over
    · exact .inr
  rw [oneAgain.alike one]
  constructor
  · intro alike
    have status := rerun.status_iff.mp alike.status
    obtain ⟨theirs, slot⟩ := rerun.theirs_iff.mp ⟨alike.theirAlias, alike.boundBranch, alike.boundIndex⟩
    refine ⟨?_, rerun.mine_iff.mp alike.myAlias, theirs, ?_, ?_⟩
    · intro other last
      rw [← (best other).mp last]
      exact status
    · intro none_ other last
      rw [← (best other).mp last]
      exact slot none_
    · intro decided
      obtain ⟨row, member, decides⟩ := (rerun.flag_iff status).mp alike.hidden decided
      exact .inl ⟨row, unfolded row member, (listed row (unfolded row member)).mpr member, decides⟩
  · intro resumable
    have status := resumable.status top ((best top).mpr rfl)
    obtain ⟨theirs, branch, index⟩ := rerun.theirs_iff.mpr
      ⟨resumable.theirs, fun none_ => resumable.slot none_ top ((best top).mpr rfl)⟩
    refine ⟨rerun.mine_iff.mpr resumable.mine, theirs, branch, index, rerun.status_iff.mpr status, ?_⟩
    apply (rerun.flag_iff status).mpr
    intro decided
    rcases resumable.flag decided with ⟨row, member, there, decides⟩ | changed
    · exact ⟨row, (listed row member).mp there, decides⟩
    · exact absurd flagged changed

/-- A merge whose k-th write failed, reloaded and run again, ends as the merge that was not
    interrupted, exactly where what it left is resumable. -/
theorem interrupted_merge_converges {half : TransportStore} {fault fault' : Option (Nat × Bool)}
    {e : Kvlog.ChainError} (fails : mergeContact address ⟨store, fault⟩ = .error e ⟨half, fault'⟩)
    (reloads : Reloads half left) :
    ∃ host rows out again behind out' full behind', store.contactRows address = rows ++ [host] ∧
      mergeContact address ⟨left, none⟩ = .ok out ⟨again, behind⟩ ∧
      mergeContact address ⟨store, none⟩ = .ok out' ⟨full, behind'⟩ ∧
      (SameResult store again full address ↔ Resumable store left address host rows) := by
  have long : ¬ (address = "" ∨ (store.contactRows address).length < 2) := by
    intro short
    rw [mergeContact_short short] at fails
    cases fails
  obtain ⟨filled, rows, host, split, several⟩ := contactRows_two long
  have ends := @mergeContact_ends store rows address host fault filled split several
  rw [fails] at ends
  obtain ⟨out', full, behind', fullRun, whole⟩ := mergeContact_whole filled split several
  obtain ⟨_, untouched | ⟨gone, rest, hidden, shape, stage, flag⟩⟩ := ends
  · have splitLeft : left.contactRows address = rows ++ [host] := by
      rw [← contactRows_congr reloads.conversations address, ← split]
      exact congrArg (fun store => store.contactRows address) untouched
    obtain ⟨out, again, behind, rerun, again_⟩ := mergeContact_whole filled splitLeft several
    obtain ⟨same, resumable⟩ := untouched_converges reloads untouched split whole again_
    exact ⟨host, rows, out, again, behind, out', full, behind', split, rerun, fullRun,
      fun _ => resumable, fun _ => same⟩
  · have left_ := stage.reload reloads
    by_cases dropped : rest = []
    · subst dropped
      rw [List.append_nil] at shape
      subst shape
      have named : host.1.contactAddress = address :=
        (mem_contactRows.mp (contactRows_split split).2.1).2.1
      have kept := kept_mergedHost store host rows
      have oneLeft := left_.oneRow split kept.id (kept.address.trans named)
      have nothing : mergeContact address ⟨left, none⟩ = .ok none ⟨left, none⟩ :=
        mergeContact_short (.inr (by rw [oneLeft.only]; simp))
      have settled : hidden = host.2 ∨ hidden = flagAfter host rows := flag.imp_right And.right
      exact ⟨host, rows, none, left, none, out', full, behind', split, nothing, fullRun,
        dropped_converges left_ split whole settled⟩
    · have unset : hidden = host.2 := flag.resolve_right fun both => dropped both.1
      subst unset
      obtain ⟨row, left_over⟩ := List.exists_mem_of_ne_nil rest dropped
      have named : host.1.contactAddress = address :=
        (mem_contactRows.mp (contactRows_split split).2.1).2.1
      have kept := kept_mergedHost store host rows
      have members : ∀ row, row ∈ left.contactRows address ↔
          row = (store.mergedHost host.1 rows, host.2) ∨ row ∈ rest :=
        fun row => left_.mem_rows split shape kept.id (kept.address.trans named)
      have two : ¬ (address = "" ∨ (left.contactRows address).length < 2) := by
        rintro (empty | short)
        · exact filled empty
        · have member := (members row).mpr (.inr left_over)
          have keptIn := (members _).mpr (.inl rfl)
          have rowIn : row ∈ rows := by
            rw [shape]
            exact List.mem_append_right _ left_over
          have apart : row ≠ (store.mergedHost host.1 rows, host.2) := by
            rintro rfl
            exact ((contactRows_split split).1 _ rowIn).2.1 kept.id
          cases listed : left.contactRows address with
          | nil =>
            rw [listed] at member
            cases member
          | cons one more =>
            cases more with
            | nil =>
              rw [listed, List.mem_singleton] at member keptIn
              exact apart (member.trans keptIn.symm)
            | cons two more =>
              rw [listed, List.length_cons, List.length_cons] at short
              omega
      obtain ⟨_, others, top, splitLeft, severalLeft⟩ := contactRows_two two
      obtain ⟨out, again, behind, rerun, again_⟩ := mergeContact_whole filled splitLeft severalLeft
      exact ⟨host, rows, out, again, behind, out', full, behind', split, rerun, fullRun,
        remaining_converges left_ split shape splitLeft whole again_⟩

end Converges

section Sample

/-- A conversation the user has hidden. -/
def mutedRow : ConversationRecord :=
  ⟨"a", "kaspa:x", "mine", some "theirs", .active, true, .receive, 0, 10, 10, none⟩

/-- The same contact's second handshake, which shows. -/
def invitationRow : ConversationRecord :=
  ⟨"b", "kaspa:x", "", some "again", .pendingInbound, false, .receive, 1, 20, 20, some "bond"⟩

def noRows {T : Type} {keyOf : T → String} : Table T keyOf := ⟨∅, ∅, fun _ _ found => (nomatch found)⟩

def mutedStore : TransportStore :=
  ⟨((noRows.insert mutedRow).insert invitationRow).flag "a", noRows⟩

def storeAfter {α : Type} : EStateM.Result Kvlog.ChainError World α → TransportStore
  | .ok _ w => w.store
  | .error _ w => w.store

def failed {α : Type} : EStateM.Result Kvlog.ChainError World α → Bool
  | .ok _ _ => false
  | .error _ _ => true

theorem failed_run {α : Type} {result : EStateM.Result Kvlog.ChainError World α}
    (fails : failed result = true) : ∃ e fault, result = .error e ⟨storeAfter result, fault⟩ := by
  cases result with
  | ok out w => cases fails
  | error e w => exact ⟨e, w.fault, rfl⟩

theorem finished_run {α : Type} {result : EStateM.Result Kvlog.ChainError World α}
    (finishes : failed result = false) : ∃ out fault, result = .ok out ⟨storeAfter result, fault⟩ := by
  cases result with
  | ok out w => exact ⟨out, w.fault, rfl⟩
  | error e w => cases finishes

/-- What the merge of the muted store leaves when its third write, the flag, fails. -/
def mutedLeft : TransportStore := storeAfter (mergeContact "kaspa:x" ⟨mutedStore, some (2, false)⟩)

theorem different_flags {store again full : TransportStore} {address : String}
    (hidden : (again.contactRows address).map Prod.snd = [true])
    (shown : (full.contactRows address).map Prod.snd = [false]) :
    ¬ SameResult store again full address := by
  rintro ⟨row, row', one, other, alike⟩
  rw [one.only] at hidden
  rw [other.only] at shown
  have flag := List.cons_eq_cons.mp hidden
  have flag' := List.cons_eq_cons.mp shown
  have same := alike.hidden
  rw [flag.1, flag'.1] at same
  cases same

theorem Reloads.refl (store : TransportStore) : Reloads store store :=
  ⟨⟨fun _ => rfl, rfl⟩, ⟨fun _ => rfl, rfl⟩⟩

theorem mutedStore_diverges : ¬ SameResult mutedStore
    (storeAfter (mergeContact "kaspa:x" ⟨mutedLeft, none⟩))
    (storeAfter (mergeContact "kaspa:x" ⟨mutedStore, none⟩)) "kaspa:x" := by
  apply different_flags
  · decide +kernel
  · decide +kernel

/-- The merge has dropped the invitation when the write that shows the conversation fails. The
    re-run finds one row, folds nothing, and the conversation stays hidden. -/
theorem interrupted_merge_stays_hidden :
    ∃ e fault out again behind out' full behind',
      mergeContact "kaspa:x" ⟨mutedStore, some (2, false)⟩ = .error e ⟨mutedLeft, fault⟩ ∧
      Reloads mutedLeft mutedLeft ∧
      mergeContact "kaspa:x" ⟨mutedLeft, none⟩ = .ok out ⟨again, behind⟩ ∧
      mergeContact "kaspa:x" ⟨mutedStore, none⟩ = .ok out' ⟨full, behind'⟩ ∧
      ¬ SameResult mutedStore again full "kaspa:x" := by
  have fails : failed (mergeContact "kaspa:x" ⟨mutedStore, some (2, false)⟩) = true := by
    decide +kernel
  have reruns : failed (mergeContact "kaspa:x" ⟨mutedLeft, none⟩) = false := by decide +kernel
  have runs : failed (mergeContact "kaspa:x" ⟨mutedStore, none⟩) = false := by decide +kernel
  obtain ⟨e, fault, stopped⟩ := failed_run fails
  obtain ⟨out, behind, rerun⟩ := finished_run reruns
  obtain ⟨out', behind', run⟩ := finished_run runs
  exact ⟨e, fault, out, _, behind, out', _, behind', stopped, Reloads.refl _, rerun, run,
    mutedStore_diverges⟩

/-- What that failure leaves is not resumable. -/
theorem interrupted_merge_converges_muted :
    ∃ host rows, mutedStore.contactRows "kaspa:x" = rows ++ [host] ∧
      ¬ Resumable mutedStore mutedLeft "kaspa:x" host rows := by
  have fails : failed (mergeContact "kaspa:x" ⟨mutedStore, some (2, false)⟩) = true := by
    decide +kernel
  obtain ⟨e, fault, stopped⟩ := failed_run fails
  change mergeContact "kaspa:x" ⟨mutedStore, some (2, false)⟩ = .error e ⟨mutedLeft, fault⟩ at stopped
  obtain ⟨host, rows, out, again, behind, out', full, behind', split, rerun, run, same⟩ :=
    interrupted_merge_converges stopped (Reloads.refl _)
  refine ⟨host, rows, split, fun resumable => mutedStore_diverges ?_⟩
  rw [rerun, run]
  exact same.mpr resumable

end Sample

end Kaspaverse.Transport
