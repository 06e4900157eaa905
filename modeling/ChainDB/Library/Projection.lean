/-! What a part of the state can tell of a history: no more than the steps that touch that part. -/
namespace Projection

section Histories
variable {σ κ ω : Type}

/-- Of one step: the labels that do not touch the part leave it, and the others make of it what it decides.
-/
structure Confines (step : σ → κ → σ) (view : σ → ω) (touches : κ → Bool) : Prop where
  leaves : ∀ s label, touches label = false → view (step s label) = view s
  decides : ∀ s t label, touches label = true → view s = view t →
    view (step s label) = view (step t label)

variable {step : σ → κ → σ} {view : σ → ω} {touches : κ → Bool} {s t : σ}

theorem Confines.run (confines : Confines step view touches) (same : view s = view t) (labels : List κ) :
    view (labels.foldl step s) = view ((labels.filter touches).foldl step t) := by
  induction labels generalizing s t with
  | nil => exact same
  | cons label rest ih =>
    cases touched : touches label with
    | false =>
      rw [List.filter_cons_of_neg (by simp [touched]),List.foldl_cons]
      exact ih ((confines.leaves s label touched).trans same)
    | true =>
      rw [List.filter_cons_of_pos touched,List.foldl_cons,List.foldl_cons]
      exact ih (confines.decides s t label touched same)

theorem Confines.agree (confines : Confines step view touches) (same : view s = view t)
    {labels more : List κ} (past : labels.filter touches = more.filter touches) :
    view (labels.foldl step s) = view (more.foldl step t) := by
  have first := confines.run same labels
  rw [past] at first
  exact first.trans (confines.run rfl more).symm

end Histories
end Projection
