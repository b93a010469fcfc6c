import Mathlib.Data.Nat.Basic

namespace Kaspaverse

/-- A closure that answers questions from a state of its own, or fails. -/
abbrev Oracle (σ ε κ β : Type*) := κ → σ → Except ε β × σ

variable {σ ε κ β α γ : Type*}

/-- The next stage of a search, unless this one failed. -/
def andThen (ran : Except ε α × σ) (next : α → σ → Except ε γ × σ) : Except ε γ × σ :=
  match ran with
  | (.ok found, state) => next found state
  | (.error failure, state) => (.error failure, state)

/-- It finds something of the kind. -/
def Finds (kind : α → Prop) (ran : Except ε α × σ) : Prop := ∃ found, ran.1 = .ok found ∧ kind found

theorem Finds.pure {kind : α → Prop} {found : α} (holds : kind found) (state : σ) :
    Finds (ε := ε) kind (.ok found, state) :=
  ⟨found, rfl, holds⟩

theorem Finds.mono {kind wider : α → Prop} {ran : Except ε α × σ} (finds : Finds kind ran)
    (le : ∀ found, kind found → wider found) : Finds wider ran := by
  obtain ⟨found, same, holds⟩ := finds
  exact ⟨found, same, le found holds⟩

theorem Finds.and {kind other : α → Prop} {ran : Except ε α × σ} (finds : Finds kind ran) (also : Finds other ran) :
    Finds (fun found => kind found ∧ other found) ran := by
  obtain ⟨found, same, holds⟩ := finds
  obtain ⟨again, same', holds'⟩ := also
  rw [same] at same'
  cases same'
  exact ⟨found, same, holds, holds'⟩

theorem Finds.andThen {kind : α → Prop} {wanted : γ → Prop} {ran : Except ε α × σ}
    {next : α → σ → Except ε γ × σ} (finds : Finds kind ran)
    (onward : ∀ found state, kind found → Finds wanted (next found state)) :
    Finds wanted (Kaspaverse.andThen ran next) := by
  obtain ⟨found, same, holds⟩ := finds
  obtain ⟨answer, state⟩ := ran
  simp only at same
  subst same
  exact onward found state holds

/-- The closure answers, and its answers do not depend on when it is asked. -/
def Oracle.Answers (ask : Oracle σ ε κ β) (answer : κ → β) : Prop :=
  ∀ question state, (ask question state).1 = .ok (answer question)

theorem Oracle.Answers.eq {ask : Oracle σ ε κ β} {answer : κ → β} (answers : ask.Answers answer) {question : κ}
    {state next : σ} {given : β} (asked : ask question state = (.ok given, next)) : answer question = given := by
  have same := answers question state
  rw [asked] at same
  cases same
  rfl

theorem Oracle.Answers.never_fails {ask : Oracle σ ε κ β} {answer : κ → β} (answers : ask.Answers answer)
    {question : κ} {state next : σ} {failure : ε} (asked : ask question state = (.error failure, next)) : False := by
  have same := answers question state
  rw [asked] at same
  cases same

/-- The closure, with its questions and answers on record. -/
def Oracle.recorded (ask : Oracle σ ε κ β) : Oracle (σ × List (κ × Except ε β)) ε κ β :=
  fun question kept =>
    ((ask question kept.1).1, ((ask question kept.1).2, kept.2 ++ [(question, (ask question kept.1).1)]))

/-- A stage that asks at most so many questions more and ends as its questions allow. -/
def Asks (most : Nat) (ends : α → List (κ × Except ε β) → Prop) (kept : σ × List (κ × Except ε β))
    (ran : Except ε α × (σ × List (κ × Except ε β))) : Prop :=
  ∃ asked, ran.2.2 = kept.2 ++ asked ∧ asked.length ≤ most ∧ ∀ found, ran.1 = .ok found → ends found asked

variable {kept : σ × List (κ × Except ε β)} {most : Nat} {ends : α → List (κ × Except ε β) → Prop}

theorem Asks.pure {found : α} (holds : ends found []) : Asks most ends kept (.ok found, kept) := by
  refine ⟨[], by simp, by simp, ?_⟩
  intro other same
  cases same
  exact holds

theorem Asks.failed {failure : ε} : Asks most ends kept (.error failure, kept) :=
  ⟨[], by simp, by simp, fun _ same => by cases same⟩

/-- One question first. -/
theorem Asks.ask {ask : Oracle σ ε κ β} {question : κ} {answer : Except ε β}
    {next : σ × List (κ × Except ε β)} {ran : Except ε α × (σ × List (κ × Except ε β))}
    (answered : ask.recorded question kept = (answer, next))
    (rest : Asks most (fun found asked => ends found ((question, answer) :: asked)) next ran) :
    Asks (most + 1) ends kept ran := by
  obtain ⟨asked, grown, few, fine⟩ := rest
  cases answered
  refine ⟨_ :: asked, ?_, by simpa using few, fine⟩
  simp [grown]

/-- A question that fails. -/
theorem Asks.ask_failed {ask : Oracle σ ε κ β} {question : κ} {failure : ε}
    {next : σ × List (κ × Except ε β)} (answered : ask.recorded question kept = (.error failure, next)) :
    Asks (most + 1) ends kept (.error failure, next) :=
  Asks.ask answered Asks.failed

theorem Asks.andThen (more : Nat) {before : α → List (κ × Except ε β) → Prop}
    {after : γ → List (κ × Except ε β) → Prop} {ran : Except ε α × (σ × List (κ × Except ε β))}
    {next : α → σ × List (κ × Except ε β) → Except ε γ × (σ × List (κ × Except ε β))}
    (first : Asks most before kept ran)
    (onward : ∀ found asked, before found asked → ∀ later,
      Asks more (fun other rest => after other (asked ++ rest)) later (next found later)) :
    Asks (most + more) after kept (Kaspaverse.andThen ran next) := by
  obtain ⟨asked, grown, few, fine⟩ := first
  obtain ⟨answer, later⟩ := ran
  cases answer with
  | error failure => exact ⟨asked, grown, by omega, fun _ same => by cases same⟩
  | ok found =>
    obtain ⟨rest, longer, fewer, good⟩ := onward found asked (fine found rfl) later
    simp only at grown
    refine ⟨asked ++ rest, ?_, ?_, good⟩
    · simp [Kaspaverse.andThen, longer, grown]
    · simp only [List.length_append]
      omega

theorem Asks.mono {fewer : Nat} {wider : α → List (κ × Except ε β) → Prop}
    {ran : Except ε α × (σ × List (κ × Except ε β))} (asks : Asks fewer ends kept ran) (le : fewer ≤ most)
    (weaker : ∀ found asked, ends found asked → wider found asked) : Asks most wider kept ran := by
  obtain ⟨asked, grown, few, fine⟩ := asks
  exact ⟨asked, grown, by omega, fun found same => weaker found asked (fine found same)⟩

end Kaspaverse
