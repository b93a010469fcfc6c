import Kaspaverse.Chain.InFlight

namespace Kaspaverse.Chain.InFlightSends

/-- What settling sends does: records and legs leave, none comes, and the submit log stays. -/
structure Settles (s t : InFlightSends) : Prop where
  log : t.log = s.log
  legMeta : t.legMeta = s.legMeta
  nextUnknown : t.nextUnknown = s.nextUnknown
  spentByUs : t.spentByUs = s.spentByUs
  sends : ∀ txid send, t.sends.lookup txid = some send → s.sends.lookup txid = some send
  taken : ∀ txid record, t.taken.lookup txid = some record → s.taken.lookup txid = some record
  carried : ∀ txid leg, t.carried.lookup txid = some leg → s.carried.lookup txid = some leg
  unknown : (t.unknown.map UnknownLeg.timeless).Sublist (s.unknown.map UnknownLeg.timeless)

theorem Settles.refl (s : InFlightSends) : Settles s s :=
  ⟨rfl, rfl, rfl, rfl, fun _ _ h => h, fun _ _ h => h, fun _ _ h => h, List.Sublist.refl _⟩

theorem Settles.trans {s t u : InFlightSends} (st : Settles s t) (tu : Settles t u) : Settles s u where
  log := tu.log.trans st.log
  legMeta := tu.legMeta.trans st.legMeta
  nextUnknown := tu.nextUnknown.trans st.nextUnknown
  spentByUs := tu.spentByUs.trans st.spentByUs
  sends := fun txid send h => st.sends txid send (tu.sends txid send h)
  taken := fun txid record h => st.taken txid record (tu.taken txid record h)
  carried := fun txid leg h => st.carried txid leg (tu.carried txid leg h)
  unknown := tu.unknown.trans st.unknown

theorem Settles.unknown_mem {s t : InFlightSends} (st : Settles s t) {leg : UnknownLeg}
    (member : leg ∈ t.unknown) : ∃ old ∈ s.unknown, old.timeless = leg.timeless := by
  have inside : leg.timeless ∈ t.unknown.map UnknownLeg.timeless := List.mem_map_of_mem member
  obtain ⟨old, found, same⟩ := List.mem_map.mp (st.unknown.subset inside)
  exact ⟨old, found, same⟩

theorem filter_timeless (keep : UnknownLeg → Bool) (legs : List UnknownLeg) :
    ((legs.filter keep).map UnknownLeg.timeless).Sublist (legs.map UnknownLeg.timeless) :=
  List.filter_sublist.map _

theorem settles_retire (s : InFlightSends) (keep : UnknownLeg → Bool) (now : Nat) :
    Settles s (s.retire keep now) :=
  ⟨rfl, rfl, rfl, rfl, fun _ _ h => h, fun _ _ h => h, fun _ _ h => h, filter_timeless keep s.unknown⟩

theorem settles_provenLanded (s : InFlightSends) (landed : TransactionId → Bool) (now : Nat) :
    Settles s (s.provenLanded landed now) :=
  ⟨rfl, rfl, rfl, rfl, fun _ _ h => h, fun _ _ h => h, fun _ _ h => h,
    filter_timeless (fun leg => !landed leg.txid) s.unknown⟩

theorem settles_clampUnknown (s : InFlightSends) (now : Nat) : Settles s (s.clampUnknown now) := by
  refine ⟨rfl, rfl, rfl, rfl, fun _ _ h => h, fun _ _ h => h, fun _ _ h => h, ?_⟩
  rw [clampUnknown, List.map_map]
  exact List.Sublist.refl _

theorem settles_dropUnknown (s : InFlightSends) (txid : TransactionId) :
    Settles s (s.dropUnknown txid) :=
  ⟨rfl, rfl, rfl, rfl, fun _ _ h => h, fun _ _ h => h, fun _ _ h => h,
    filter_timeless (fun leg => leg.txid != txid) s.unknown⟩

theorem settles_untake (s : InFlightSends) (txid : TransactionId) : Settles s (s.untake txid) :=
  ⟨rfl, rfl, rfl, rfl, fun _ _ h => h, fun _ _ h => (KeyMap.lookup_erase_some.mp h).2,
    fun _ _ h => (KeyMap.lookup_erase_some.mp h).2, List.Sublist.refl _⟩

theorem settles_eraseSend (s : InFlightSends) (txid : TransactionId) :
    Settles s { s with sends := s.sends.erase txid } :=
  ⟨rfl, rfl, rfl, rfl, fun _ _ h => (KeyMap.lookup_erase_some.mp h).2, fun _ _ h => h,
    fun _ _ h => h, List.Sublist.refl _⟩

theorem settles_ownSendSeen (s : InFlightSends) (txid : TransactionId)
    (acceptedSpends : List UtxoEntryId) (now : Nat) :
    Settles s (s.ownSendSeen txid acceptedSpends now) :=
  (settles_dropUnknown s txid).trans (settles_retire _ _ now)

theorem settles_retireUnknown (s : InFlightSends) (spent : UtxoEntryReference → Bool)
    (before now : Nat) : Settles s (s.retireUnknown spent before now) :=
  (settles_clampUnknown s now).trans (settles_retire _ _ now)

theorem settles_foldl {α : Type} (apply : InFlightSends → α → InFlightSends)
    (each : ∀ s a, Settles s (apply s a)) (list : List α) (s : InFlightSends) :
    Settles s (list.foldl apply s) := by
  induction list generalizing s with
  | nil => exact Settles.refl s
  | cons a rest ih => exact (each s a).trans (ih (apply s a))

theorem settles_leaveWithin (now fuel : Nat) (s : InFlightSends) (txid : TransactionId) :
    Settles s (leaveWithin now fuel s txid) := by
  induction fuel generalizing s txid with
  | zero => exact Settles.refl s
  | succ fuel ih =>
    cases found : s.sends.lookup txid with
    | none =>
      simp only [leaveWithin, found]
      exact (settles_untake s txid).trans (settles_provenLanded _ _ now)
    | some send =>
      simp only [leaveWithin, found]
      have gone := (settles_untake s txid).trans (settles_eraseSend (s.untake txid) txid)
      have seen := gone.trans (settles_ownSendSeen _ txid send.spends now)
      exact seen.trans (settles_foldl _ (fun s spent => ih s spent.transactionId) send.spends _)

theorem settles_leave (s : InFlightSends) (txid : TransactionId) (now : Nat) :
    Settles s (s.leave txid now) :=
  settles_leaveWithin now _ s txid

theorem settles_doneWith (s : InFlightSends) (txid : TransactionId) (now : Nat) :
    Settles s (s.doneWith txid now) := by
  apply (settles_ownSendSeen s txid [] now).trans
  exact ⟨rfl, rfl, rfl, rfl, fun _ _ h => (KeyMap.lookup_erase_some.mp h).2,
    fun _ _ h => (KeyMap.lookup_erase_some.mp h).2, fun _ _ h => h, List.Sublist.refl _⟩

theorem settles_settled (s : InFlightSends) (txid : TransactionId) (now : Nat) :
    Settles s (s.settled txid now) := by
  have noted : Settles s (s.noteReadSettled txid) :=
    ⟨rfl, rfl, rfl, rfl, fun _ _ h => h, fun _ _ h => h, fun _ _ h => h, List.Sublist.refl _⟩
  exact noted.trans (settles_doneWith _ txid now)

/-- What a returned submit leaves alone. -/
theorem submitReturned_frame (s : InFlightSends) (txid : TransactionId) (mayHaveLeft : Bool)
    (now : Nat) :
    (s.submitReturned txid mayHaveLeft now).log = (s.log.note txid mayHaveLeft).prune ∧
    (s.submitReturned txid mayHaveLeft now).taken = s.taken ∧
    (s.submitReturned txid mayHaveLeft now).accepted = s.accepted ∧
    (s.submitReturned txid mayHaveLeft now).legMeta = s.legMeta := by
  have anchor : ∀ t : InFlightSends, (t.anchorUnrecorded txid now).log = t.log ∧
      (t.anchorUnrecorded txid now).taken = t.taken ∧
      (t.anchorUnrecorded txid now).accepted = t.accepted ∧
      (t.anchorUnrecorded txid now).legMeta = t.legMeta := by
    intro t
    unfold anchorUnrecorded
    split
    · split <;> exact ⟨rfl, rfl, rfl, rfl⟩
    · exact ⟨rfl, rfl, rfl, rfl⟩
  cases mayHaveLeft with
  | false => exact ⟨rfl, rfl, rfl, rfl⟩
  | true =>
    obtain ⟨log, taken, accepted, legMeta⟩ := anchor
      { s with log := s.log.note txid true, carried := s.carried.erase txid }
    simp only [submitReturned, if_true, log, taken, accepted, legMeta]
    exact ⟨trivial, trivial, trivial, trivial⟩

theorem noteSpentAt_log (s : InFlightSends) (coins : List UtxoEntryId) (daa now : Nat) :
    (s.noteSpentAt coins daa now).log = s.log := rfl

theorem noteSpentAt_accepted (s : InFlightSends) (coins : List UtxoEntryId) (daa now : Nat) :
    (s.noteSpentAt coins daa now).accepted = s.accepted := rfl

theorem noteSpentAt_taken (s : InFlightSends) (coins : List UtxoEntryId) (daa now : Nat) :
    (s.noteSpentAt coins daa now).taken = s.taken := rfl

/-- A record an acceptance takes stands among the accepted. -/
def TakesToAccepted (s t : InFlightSends) : Prop :=
  s.accepted ⊆ t.accepted ∧ ∀ txid ∈ s.taken, txid ∈ t.taken ∨ txid ∈ t.accepted

theorem TakesToAccepted.trans {s t u : InFlightSends} (st : TakesToAccepted s t)
    (tu : TakesToAccepted t u) : TakesToAccepted s u := by
  refine ⟨st.1.trans tu.1, ?_⟩
  intro txid member
  rcases st.2 txid member with still | accepted
  · exact tu.2 txid still
  · exact Or.inr (tu.1 accepted)

theorem takesToAccepted_of_eq {s t : InFlightSends} (accepted : t.accepted = s.accepted)
    (taken : t.taken = s.taken) : TakesToAccepted s t := by
  refine ⟨by rw [accepted], ?_⟩
  intro txid member
  rw [taken]
  exact Or.inl member

theorem takesToAccepted_untake (s : InFlightSends) (txid : TransactionId) :
    TakesToAccepted s (s.untake txid) := by
  constructor
  · simp only [untake]
    split
    · exact Finset.subset_insert _ _
    · exact subset_rfl
  · intro other member
    by_cases same : other = txid
    · subst same
      apply Or.inr
      simp [untake, member]
    · apply Or.inl
      simp [untake, same, member]

theorem takesToAccepted_leaveWithin (now fuel : Nat) (s : InFlightSends) (txid : TransactionId) :
    TakesToAccepted s (leaveWithin now fuel s txid) := by
  induction fuel generalizing s txid with
  | zero => exact takesToAccepted_of_eq rfl rfl
  | succ fuel ih =>
    cases found : s.sends.lookup txid with
    | none =>
      simp only [leaveWithin, found]
      exact (takesToAccepted_untake s txid).trans (takesToAccepted_of_eq rfl rfl)
    | some send =>
      simp only [leaveWithin, found]
      have start : TakesToAccepted s ({ s.untake txid with sends := s.sends.erase txid }.ownSendSeen
          txid send.spends now) :=
        (takesToAccepted_untake s txid).trans (takesToAccepted_of_eq rfl rfl)
      refine start.trans ?_
      generalize { s.untake txid with sends := s.sends.erase txid }.ownSendSeen txid send.spends now = t
      induction send.spends generalizing t with
      | nil => exact takesToAccepted_of_eq rfl rfl
      | cons spent rest step => exact (ih t spent.transactionId).trans (step _)

theorem takesToAccepted_leave (s : InFlightSends) (txid : TransactionId) (now : Nat) :
    TakesToAccepted s (s.leave txid now) :=
  takesToAccepted_leaveWithin now _ s txid

end Kaspaverse.Chain.InFlightSends
