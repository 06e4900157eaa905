import Mathlib.Data.List.Induction

/-! Runs of a partial step function, with the rules that carry a step lemma over to a run. -/
namespace Transition

abbrev Step (σ κ : Type) := σ → κ → Option σ

variable {σ κ : Type}

def run (step : Step σ κ) : σ → List κ → Option σ
  | s,[] => some s
  | s,label :: rest => (step s label).bind fun t => run step t rest

section Runs
variable {step : Step σ κ} {s t : σ}

theorem runAppend (s : σ) (labels more : List κ) :
    run step s (labels ++ more) = (run step s labels).bind fun t => run step t more := by
  induction labels generalizing s with
  | nil => rfl
  | cons label rest ih =>
    simp only [List.cons_append,run]
    cases step s label with
    | none => rfl
    | some t => exact ih t

theorem runSnoc {labels : List κ} {label : κ} : run step s (labels ++ [label]) = some t ↔
    ∃ r, run step s labels = some r ∧ step r label = some t := by
  simp only [runAppend,Option.bind_eq_some_iff,run,Option.some.injEq,exists_eq_right]

theorem runSplit {labels more : List κ} : run step s (labels ++ more) = some t ↔
    ∃ r, run step s labels = some r ∧ run step r more = some t := by
  simp only [runAppend,Option.bind_eq_some_iff]

theorem runKeeps {Inv : List κ → σ → Prop} (first : Inv [] s)
    (keeps : ∀ labels label r r', Inv labels r → step r label = some r' → Inv (labels ++ [label]) r')
    {labels : List κ} (ran : run step s labels = some t) : Inv labels t := by
  induction labels using List.reverseRecOn generalizing t with
  | nil =>
    cases ran
    exact first
  | append_singleton labels label ih =>
    obtain ⟨r,before,last⟩ := runSnoc.mp ran
    exact keeps labels label r t (ih before) last

end Runs

section Simulation
variable {σ' κ' : Type} {step : Step σ κ} {step' : Step σ' κ'} {R : σ → σ' → Prop} {seen : κ → κ'}

def Simulates (step : Step σ κ) (step' : Step σ' κ') (R : σ → σ' → Prop) (seen : κ → κ') : Prop :=
  ∀ s a label t, R s a → step s label = some t → ∃ b, step' a (seen label) = some b ∧ R t b

theorem runSimulates (simulates : Simulates step step' R seen) {s t : σ} {a : σ'} {labels : List κ}
    (first : R s a) (ran : run step s labels = some t) :
    ∃ b, run step' a (labels.map seen) = some b ∧ R t b := by
  induction labels generalizing s a with
  | nil =>
    cases ran
    exact ⟨a,rfl,first⟩
  | cons label rest ih =>
    obtain ⟨r,one,later⟩ := Option.bind_eq_some_iff.mp ran
    obtain ⟨b,moved,related⟩ := simulates s a label r first one
    obtain ⟨c,ends,last⟩ := ih related later
    exact ⟨c,Option.bind_eq_some_iff.mpr ⟨b,moved,ends⟩,last⟩

end Simulation
end Transition
