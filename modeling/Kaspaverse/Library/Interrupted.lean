import Mathlib.Data.List.Basic

namespace Kaspaverse.Interrupted

variable {ε σ α β : Type}

/-- A run that may fail part-way ends in a state of `ok` with its result, or in one of `err`. -/
def Ends (ok : α → σ → Prop) (err : σ → Prop) : EStateM.Result ε σ α → Prop
  | .ok a s => ok a s
  | .error _ s => err s

variable {ok ok' : α → σ → Prop} {after : β → σ → Prop} {err err' : σ → Prop}

theorem Ends.mono {result : EStateM.Result ε σ α} (ends : Ends ok err result)
    (passes : ∀ a s, ok a s → ok' a s) (fails : ∀ s, err s → err' s) : Ends ok' err' result := by
  cases result with
  | ok a s => exact passes a s ends
  | error e s => exact fails s ends

theorem Ends.bind {first : EStateM ε σ α} {next : α → EStateM ε σ β} {s : σ}
    (ends : Ends ok err (first s)) (then_ : ∀ a s, ok a s → Ends after err (next a s)) :
    Ends after err ((first >>= next) s) := by
  show Ends after err (EStateM.bind first next s)
  unfold EStateM.bind
  cases result : first s with
  | ok a s' =>
    rw [result] at ends
    exact then_ a s' ends
  | error e s' =>
    rw [result] at ends
    exact ends

theorem Ends.any (result : EStateM.Result ε σ α) : Ends (fun _ _ => True) (fun _ => True) result := by
  cases result <;> exact True.intro

theorem Ends.pure {a : α} {s : σ} (holds : ok a s) : Ends ok err ((pure a : EStateM ε σ α) s) := holds

/-- A loop's invariant speaks of the part of the list that is done. -/
theorem Ends.foldlM {step : β → α → EStateM ε σ β} {inv : List α → β → σ → Prop}
    (list : List α) (keeps : ∀ done a rest b s, list = done ++ a :: rest → inv done b s →
      Ends (inv (done ++ [a])) err (step b a s))
    {b : β} {s : σ} (start : inv [] b s) : Ends (inv list) err (list.foldlM step b s) := by
  suffices all : ∀ rest done b s, list = done ++ rest → inv done b s →
      Ends (inv list) err (rest.foldlM step b s) from all list [] b s rfl start
  intro rest
  induction rest with
  | nil =>
    intro done b s shape holds
    rw [List.append_nil] at shape
    rw [shape]
    exact holds
  | cons a rest ih =>
    intro done b s shape holds
    rw [List.foldlM_cons]
    apply Ends.bind (keeps done a rest b s shape holds)
    intro b' s' holds'
    exact ih (done ++ [a]) b' s' (by rw [shape, List.append_assoc]; rfl) holds'

end Kaspaverse.Interrupted
