import Mathlib.Data.List.Induction

namespace Kaspaverse.Machine

variable {σ ε : Type*}

/-- The state a list of events leads to, or `none` where one of them cannot happen. -/
def run (step : σ → ε → Option σ) : σ → List ε → Option σ
  | s, [] => some s
  | s, e :: es => (step s e).bind fun next => run step next es

@[simp] theorem run_nil (step : σ → ε → Option σ) (s : σ) : run step s [] = some s := rfl

theorem run_cons (step : σ → ε → Option σ) (s : σ) (e : ε) (es : List ε) :
    run step s (e :: es) = (step s e).bind fun next => run step next es := rfl

theorem run_cons_some {step : σ → ε → Option σ} {s final : σ} {e : ε} {es : List ε}
    (h : run step s (e :: es) = some final) :
    ∃ next, step s e = some next ∧ run step next es = some final := by
  rw [run_cons] at h
  exact Option.bind_eq_some_iff.mp h

theorem run_append (step : σ → ε → Option σ) (s : σ) (first rest : List ε) :
    run step s (first ++ rest) = (run step s first).bind fun next => run step next rest := by
  induction first generalizing s with
  | nil => rfl
  | cons e es ih =>
    rw [List.cons_append, run_cons, run_cons]
    cases step s e with
    | none => rfl
    | some next => exact ih next

/-- What holds of the start, and of a run with one more step whenever it holds of the run, holds of
    every run together with its events. -/
theorem run_history {step : σ → ε → Option σ} {p : List ε → σ → Prop} {s final : σ} {es : List ε}
    (start : p [] s)
    (grows : ∀ first e mid next, run step s first = some mid → p first mid → step mid e = some next →
      p (first ++ [e]) next)
    (h : run step s es = some final) : p es final := by
  induction es using List.reverseRecOn generalizing final with
  | nil =>
    cases h
    exact start
  | append_singleton first e ih =>
    rw [run_append] at h
    obtain ⟨mid, reached, last⟩ := Option.bind_eq_some_iff.mp h
    obtain ⟨next, happens, ends⟩ := run_cons_some last
    cases ends
    exact grows first e mid final reached (ih reached) happens

/-- The run takes the event in the state. -/
def Passes (step : σ → ε → Option σ) (s : σ) (es : List ε) (mid : σ) (e : ε) : Prop :=
  ∃ first rest, es = first ++ e :: rest ∧ run step s first = some mid

theorem Passes.last {step : σ → ε → Option σ} {s mid : σ} {es : List ε} (reached : run step s es = some mid) (e : ε) :
    Passes step s (es ++ [e]) mid e :=
  ⟨es, [], rfl, reached⟩

theorem Passes.snoc {step : σ → ε → Option σ} {s mid : σ} {es : List ε} {e : ε} (passes : Passes step s es mid e)
    (last : ε) : Passes step s (es ++ [last]) mid e := by
  obtain ⟨first, rest, rfl, reached⟩ := passes
  exact ⟨first, rest ++ [last], by rw [List.append_assoc, List.cons_append], reached⟩

theorem run_invariant {step : σ → ε → Option σ} {inv : σ → Prop}
    (keeps : ∀ s e next, inv s → step s e = some next → inv next)
    {s final : σ} {es : List ε} (start : inv s) (h : run step s es = some final) : inv final := by
  induction es generalizing s with
  | nil =>
    cases h
    exact start
  | cons e es ih =>
    obtain ⟨next, first, rest⟩ := run_cons_some h
    exact ih (keeps s e next start first) rest

/-- Every step of the run meets `cond` in the state it is taken in. -/
def Meets (step : σ → ε → Option σ) (cond : σ → ε → Prop) : σ → List ε → Prop
  | _, [] => True
  | s, e :: es => cond s e ∧ ∀ next, step s e = some next → Meets step cond next es

instance decidableMeets (step : σ → ε → Option σ) (cond : σ → ε → Prop) [∀ s e, Decidable (cond s e)] :
    ∀ (s : σ) (es : List ε), Decidable (Meets step cond s es)
  | _, [] => .isTrue True.intro
  | s, e :: es =>
    match happens : step s e with
    | none => decidable_of_iff (cond s e) ⟨fun met => ⟨met, fun _ same => nomatch happens.symm.trans same⟩, And.left⟩
    | some next =>
      have := decidableMeets step cond next es
      decidable_of_iff (cond s e ∧ Meets step cond next es)
        ⟨fun met => ⟨met.1, fun _ same => Option.some.inj (happens.symm.trans same) ▸ met.2⟩,
          fun met => ⟨met.1, met.2 next happens⟩⟩

theorem meets_of_forall {step : σ → ε → Option σ} {cond : σ → ε → Prop} {es : List ε}
    (h : ∀ e ∈ es, ∀ s, cond s e) (s : σ) : Meets step cond s es := by
  induction es generalizing s with
  | nil => exact True.intro
  | cons e es ih =>
    refine ⟨h e List.mem_cons_self s, ?_⟩
    intro next _
    exact ih (fun other member => h other (List.mem_cons_of_mem _ member)) next

theorem meets_append {step : σ → ε → Option σ} {cond : σ → ε → Prop} {s : σ} {first rest : List ε}
    (early : Meets step cond s first)
    (late : ∀ next, run step s first = some next → Meets step cond next rest) :
    Meets step cond s (first ++ rest) := by
  induction first generalizing s with
  | nil => exact late s rfl
  | cons e es ih =>
    refine ⟨early.1, ?_⟩
    intro next happens
    apply ih (early.2 next happens)
    intro final reached
    apply late final
    rw [run_cons, happens]
    exact reached

theorem Meets.left {step : σ → ε → Option σ} {cond : σ → ε → Prop} {s : σ} {first rest : List ε}
    (meets : Meets step cond s (first ++ rest)) : Meets step cond s first := by
  induction first generalizing s with
  | nil => exact True.intro
  | cons e es ih => exact ⟨meets.1, fun next happens => ih (meets.2 next happens)⟩

theorem Meets.right {step : σ → ε → Option σ} {cond : σ → ε → Prop} {s mid : σ} {first rest : List ε}
    (meets : Meets step cond s (first ++ rest)) (reached : run step s first = some mid) :
    Meets step cond mid rest := by
  induction first generalizing s with
  | nil =>
    cases reached
    exact meets
  | cons e es ih =>
    obtain ⟨next, happens, later⟩ := run_cons_some reached
    exact ih (meets.2 next happens) later

theorem run_invariant_meeting {step : σ → ε → Option σ} {inv : σ → Prop} {cond : σ → ε → Prop}
    (keeps : ∀ s e next, inv s → cond s e → step s e = some next → inv next)
    {s final : σ} {es : List ε} (start : inv s) (meets : Meets step cond s es)
    (h : run step s es = some final) : inv final := by
  induction es generalizing s with
  | nil =>
    cases h
    exact start
  | cons e es ih =>
    obtain ⟨next, first, rest⟩ := run_cons_some h
    exact ih (keeps s e next start meets.1 first) (meets.2 next first) rest

end Kaspaverse.Machine
