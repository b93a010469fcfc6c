import Mathlib
import Kaspaverse.Library.Machine

namespace Kaspaverse.Machine

variable {σ ε β : Type*} (step : σ → ε → Option σ) (out : σ → ε → Option β)

/-- What the events of a run put out, in their order. -/
def emitted (s : σ) : List ε → List β
  | [] => []
  | e :: es => (out s e).toList ++ (step s e).elim [] fun next => emitted next es

variable {step out} {s mid final : σ}

@[simp] theorem emitted_nil : emitted step out s [] = [] := rfl

theorem emitted_append {first : List ε} (ran : run step s first = some mid) (rest : List ε) :
    emitted step out s (first ++ rest) = emitted step out s first ++ emitted step out mid rest := by
  induction first generalizing s with
  | nil =>
    cases ran
    rfl
  | cons e es ih =>
    obtain ⟨next, happens, later⟩ := run_cons_some ran
    simp [emitted, happens, ih later]

theorem emitted_snoc {first : List ε} (ran : run step s first = some mid) (e : ε) :
    emitted step out s (first ++ [e]) = emitted step out s first ++ (out mid e).toList := by
  rw [emitted_append ran]
  cases happens : step mid e <;> simp [emitted, happens]

theorem mem_emitted {es : List ε} {b : β} (ran : run step s es = some final) (member : b ∈ emitted step out s es) :
    ∃ before e after mid, es = before ++ e :: after ∧ run step s before = some mid ∧ out mid e = some b := by
  induction es generalizing s with
  | nil => simp at member
  | cons e es ih =>
    obtain ⟨next, happens, later⟩ := run_cons_some ran
    simp only [emitted, happens, Option.elim_some, List.mem_append, Option.mem_toList] at member
    rcases member with here | rest
    · exact ⟨[], e, es, s, rfl, rfl, here⟩
    · obtain ⟨before, other, after, mid, rfl, reached, made⟩ := ih later rest
      refine ⟨e :: before, other, after, mid, rfl, ?_, made⟩
      rw [run_cons, happens]
      exact reached

theorem snoc_eq_append_cons {list before after : List β} {last b : β} :
    list ++ [last] = before ++ b :: after ↔
      list = before ∧ last = b ∧ after = [] ∨ ∃ early, after = early ++ [last] ∧ list = before ++ b :: early := by
  cases after using List.reverseRecOn with
  | nil => simp
  | append_singleton early final =>
    rw [← List.cons_append, ← List.append_assoc]
    constructor
    · intro shape
      obtain ⟨same, ends⟩ := List.append_inj' shape rfl
      cases ends
      exact .inr ⟨early, rfl, same⟩
    · rintro (⟨-, -, empty⟩ | ⟨early', same, rfl⟩)
      · simp at empty
      · have ends : early = early' ∧ [final] = [last] := List.append_inj' same rfl
        obtain ⟨rfl, ends⟩ := ends
        cases ends
        rfl

theorem countP_emitted {es : List ε} {p : β → Bool} {q : ε → Bool} (counts : ∀ s e, (out s e).any p = q e)
    (ran : run step s es = some final) : (emitted step out s es).countP p = es.countP q := by
  induction es generalizing s with
  | nil => rfl
  | cons e es ih =>
    obtain ⟨next, happens, later⟩ := run_cons_some ran
    have here : (out s e).toList.countP p = if q e then 1 else 0 := by
      rw [← counts s e]
      cases out s e <;> simp [List.countP_cons]
    simp only [emitted, happens, Option.elim_some, List.countP_append, List.countP_cons, ih later, here]
    omega

/-- The moves that a machine's steps make of a part of it are a run of the part's own machine. -/
theorem run_part {τ μ : Type*} {f : σ → τ} {partStep : τ → μ → Option τ} {move : σ → ε → Option μ}
    (moves : ∀ s e next, step s e = some next →
      (move s e).elim (f next = f s) fun m => partStep (f s) m = some (f next))
    {es : List ε} (ran : run step s es = some final) :
    run partStep (f s) (emitted step move s es) = some (f final) := by
  induction es generalizing s with
  | nil =>
    cases ran
    rfl
  | cons e es ih =>
    obtain ⟨next, happens, later⟩ := run_cons_some ran
    have here := moves s e next happens
    simp only [emitted, happens, Option.elim_some]
    cases moved : move s e with
    | none =>
      rw [moved] at here
      simp only [Option.elim_none] at here
      simp only [Option.toList_none, List.nil_append, ← here]
      exact ih later
    | some m =>
      rw [moved] at here
      simp only [Option.toList_some, List.singleton_append, run_cons]
      rw [here]
      exact ih later

end Kaspaverse.Machine
