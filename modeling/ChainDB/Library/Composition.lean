import ChainDB.Library.Effects

/-! Actions put together from given parts by the operators of `Exec`. What no part notices the
whole does not notice, so a two-run rule is proved for the parts alone. -/
namespace Effects
namespace Exec

inductive Composed {σ ε : Type} (part : (α : Type) → Exec σ ε α → Prop) (release : (σ → σ) → Prop) :
    {α : Type} → Exec σ ε α → Prop where
  | part {α : Type} {m : Exec σ ε α} (given : part α m) : Composed part release m
  | pure {α : Type} (a : α) : Composed part release (Pure.pure a : Exec σ ε α)
  | absent {α : Type} : Composed part release (absent : Exec σ ε α)
  | halt {α : Type} (e : ε) : Composed part release (halt e : Exec σ ε α)
  | bind {α β : Type} {m : Exec σ ε α} {f : α → Exec σ ε β} (first : Composed part release m)
      (next : ∀ a, Composed part release (f a)) : Composed part release (m >>= f)
  | attempt {α : Type} {m : Exec σ ε α} (body : Composed part release m) :
      Composed part release (attempt m)
  | ensuring {α : Type} {m : Exec σ ε α} {g : σ → σ} (body : Composed part release m)
      (known : release g) : Composed part release (ensuring m g)

section Composed
variable {σ ε α : Type} {part : (α : Type) → Exec σ ε α → Prop} {release : (σ → σ) → Prop}

theorem composedCheck (p : Prop) [Decidable p] : Composed part release (check p : Exec σ ε Unit) := by
  by_cases h : p
  · simpa only [check,if_pos h] using .pure ()
  · simpa only [check,if_neg h] using .absent

theorem composedOfOption (o : Option α) : Composed part release (ofOption o : Exec σ ε α) := by
  cases o with
  | none => exact .absent
  | some a => exact .pure a

theorem Composed.alike {E : σ → σ → Prop} (parts : ∀ (β : Type) (m : Exec σ ε β), part β m → Alike E m)
    (releases : ∀ g, release g → ∀ s t, E s t → E (g s) (g t)) {m : Exec σ ε α}
    (composed : Composed part release m) : Alike E m := by
  induction composed with
  | part given => exact parts _ _ given
  | pure a => exact alikePure a
  | absent => exact alikeAbsent
  | halt e => exact alikeHalt e
  | bind first next ihFirst ihNext => exact alikeBind ihFirst ihNext
  | attempt body ih => exact alikeAttempt ih
  | ensuring body known ih => exact alikeEnsuring ih (releases _ known)

end Composed
end Exec
end Effects
