import Mathlib.Order.RelClasses

/-! Computations over a state that yield a value, yield nothing, or stop the program.
`absent` is the early return of a null pointer or of `false`; it keeps the state reached
so far. `halt` ends the whole program: no caller continues after it. -/
namespace Effects

inductive Outcome (ε α : Type) where
  | done (value : α)
  | absent
  | halt (reason : ε)
  deriving DecidableEq, Repr

def Exec (σ ε α : Type) := σ → Outcome ε α × σ

variable {σ ε α β : Type}

namespace Exec

protected def pure (a : α) : Exec σ ε α := fun s => (.done a,s)

protected def bind (m : Exec σ ε α) (f : α → Exec σ ε β) : Exec σ ε β := fun s =>
  match m s with
  | (.done a,t) => f a t
  | (.absent,t) => (.absent,t)
  | (.halt e,t) => (.halt e,t)

instance : Monad (Exec σ ε) where
  pure := Exec.pure
  bind := Exec.bind

def absent : Exec σ ε α := fun s => (.absent,s)

def halt (e : ε) : Exec σ ε α := fun s => (.halt e,s)

def read : Exec σ ε σ := fun s => (.done s,s)

def modify (f : σ → σ) : Exec σ ε Unit := fun s => (.done (),f s)

def ofOption : Option α → Exec σ ε α
  | some a => pure a
  | none => absent

def check (p : Prop) [Decidable p] : Exec σ ε Unit := if p then pure () else absent

/- Turns an early return into a value, so that the caller decides what to do with it. -/
def attempt (m : Exec σ ε α) : Exec σ ε (Option α) := fun s =>
  match m s with
  | (.done a,t) => (.done (some a),t)
  | (.absent,t) => (.done none,t)
  | (.halt e,t) => (.halt e,t)

/- Runs `release` at every end of `m`, as a destructor at the end of a scope does. -/
def ensuring (m : Exec σ ε α) (release : σ → σ) : Exec σ ε α := fun s => ((m s).1,release (m s).2)

section Inversion
variable {m : Exec σ ε α} {f : α → Exec σ ε β} {s t : σ} {a : α} {b : β} {e : ε}

@[simp] theorem pureApply : (pure a : Exec σ ε α) s = (.done a,s) := rfl

@[simp] theorem absentApply : (absent : Exec σ ε α) s = (.absent,s) := rfl

@[simp] theorem haltApply : (halt e : Exec σ ε α) s = (.halt e,s) := rfl

@[simp] theorem readApply : (read : Exec σ ε σ) s = (.done s,s) := rfl

@[simp] theorem modifyApply {g : σ → σ} : (modify g : Exec σ ε Unit) s = (.done (),g s) := rfl

theorem bindDone : (m >>= f) s = (.done b,t) ↔ ∃ a r, m s = (.done a,r) ∧ f a r = (.done b,t) := by
  change Exec.bind m f s = _ ↔ _
  rcases h : m s with ⟨a | _ | e,r⟩ <;> simp [Exec.bind,h,and_assoc]

theorem bindAbsent : (m >>= f) s = (.absent,t) ↔
    m s = (.absent,t) ∨ ∃ a r, m s = (.done a,r) ∧ f a r = (.absent,t) := by
  change Exec.bind m f s = _ ↔ _
  rcases h : m s with ⟨a | _ | e,r⟩ <;> simp [Exec.bind,h,and_assoc]

theorem bindHalt : (m >>= f) s = (.halt e,t) ↔
    m s = (.halt e,t) ∨ ∃ a r, m s = (.done a,r) ∧ f a r = (.halt e,t) := by
  change Exec.bind m f s = _ ↔ _
  rcases h : m s with ⟨a | _ | e,r⟩ <;> simp [Exec.bind,h,and_assoc]

theorem bindApply : (m >>= f) s = match m s with
    | (.done a,t) => f a t
    | (.absent,t) => (.absent,t)
    | (.halt e,t) => (.halt e,t) := rfl

theorem bindOfDone (h : m s = (.done a,t)) : (m >>= f) s = f a t := by
  change Exec.bind m f s = _
  simp only [Exec.bind,h]

theorem bindOfAbsent (h : m s = (.absent,t)) : (m >>= f) s = (.absent,t) := by
  change Exec.bind m f s = _
  simp only [Exec.bind,h]

theorem bindOfHalt (h : m s = (.halt e,t)) : (m >>= f) s = (.halt e,t) := by
  change Exec.bind m f s = _
  simp only [Exec.bind,h]

theorem outcomeApply {o : Outcome ε α} (h : (m s).1 = o) : m s = (o,(m s).2) := Prod.ext h rfl

theorem bindAssoc {γ : Type} {g : β → Exec σ ε γ} : (m >>= f) >>= g = m >>= fun a => f a >>= g := by
  funext s
  simp only [bindApply]
  rcases m s with ⟨a | _ | e,t⟩ <;> rfl

theorem attemptSome : attempt m s = (.done (some a),t) ↔ m s = (.done a,t) := by
  rcases h : m s with ⟨a | _ | e,r⟩ <;> simp [attempt,h]

theorem attemptNone : attempt m s = (.done none,t) ↔ m s = (.absent,t) := by
  rcases h : m s with ⟨a | _ | e,r⟩ <;> simp [attempt,h]

theorem attemptHalt : attempt m s = (.halt e,t) ↔ m s = (.halt e,t) := by
  rcases h : m s with ⟨a | _ | e,r⟩ <;> simp [attempt,h]

theorem attemptNotAbsent : attempt m s ≠ (.absent,t) := by
  rcases h : m s with ⟨a | _ | e,r⟩ <;> simp [attempt,h]

theorem attemptBindDone {f : Option α → Exec σ ε β} : (attempt m >>= f) s = (.done b,t) ↔
    (∃ a r, m s = (.done a,r) ∧ f (some a) r = (.done b,t)) ∨
      ∃ r, m s = (.absent,r) ∧ f none r = (.done b,t) := by
  rw [bindDone]
  constructor
  · rintro ⟨a | a,r,first,last⟩
    · exact Or.inr ⟨r,attemptNone.mp first,last⟩
    · exact Or.inl ⟨a,r,attemptSome.mp first,last⟩
  · rintro (⟨a,r,first,last⟩ | ⟨r,first,last⟩)
    · exact ⟨some a,r,attemptSome.mpr first,last⟩
    · exact ⟨none,r,attemptNone.mpr first,last⟩

theorem attemptMap {g : Option α → β} : (attempt m >>= fun r => pure (g r)) s =
    match m s with
    | (.done a,t) => (.done (g (some a)),t)
    | (.absent,t) => (.done (g none),t)
    | (.halt e,t) => (.halt e,t) := by
  rcases h : m s with ⟨a | _ | e,r⟩ <;> simp [bindApply,attempt,h]

theorem bindPureState {g : α → β} : ((m >>= fun a => pure (g a)) s).2 = (m s).2 := by
  rw [bindApply]
  rcases m s with ⟨a | _ | e,r⟩ <;> rfl

theorem attemptMapState {g : Option α → β} : ((attempt m >>= fun r => pure (g r)) s).2 = (m s).2 := by
  rw [attemptMap]
  rcases m s with ⟨a | _ | e,r⟩ <;> rfl

theorem ensuringApply {release : σ → σ} {o : Outcome ε α} :
    ensuring m release s = (o,t) ↔ ∃ r, m s = (o,r) ∧ release r = t := by
  rcases h : m s with ⟨a,r⟩
  simp [ensuring,h,and_assoc]

theorem checkDone {p : Prop} [Decidable p] {u : Unit} :
    (check p : Exec σ ε Unit) s = (.done u,t) ↔ p ∧ s = t := by
  by_cases h : p <;> simp [check,h]

theorem checkAbsent {p : Prop} [Decidable p] :
    (check p : Exec σ ε Unit) s = (.absent,t) ↔ ¬ p ∧ s = t := by
  by_cases h : p <;> simp [check,h]

theorem ofOptionDone {o : Option α} :
    (ofOption o : Exec σ ε α) s = (.done a,t) ↔ o = some a ∧ s = t := by
  cases o <;> simp [ofOption]

theorem ofOptionAbsent {o : Option α} :
    (ofOption o : Exec σ ε α) s = (.absent,t) ↔ o = none ∧ s = t := by
  cases o <;> simp [ofOption]

end Inversion

/-! One-run rule: every run relates its first state to its last. -/
def Keeps (R : σ → σ → Prop) (m : Exec σ ε α) : Prop := ∀ s, R s (m s).2

section Keeps
variable {R : σ → σ → Prop} {m : Exec σ ε α} {f : α → Exec σ ε β}

theorem Keeps.apply (keeps : Keeps R m) {s t : σ} {o : Outcome ε α} (h : m s = (o,t)) : R s t := by
  have r := keeps s
  rwa [h] at r

theorem keepsIff : Keeps R m ↔ ∀ s o t, m s = (o,t) → R s t :=
  ⟨fun keeps _ _ _ h => keeps.apply h,fun h s => h s (m s).1 (m s).2 rfl⟩

theorem Keeps.weaken {S : σ → σ → Prop} (keeps : Keeps R m) (implies : ∀ s t, R s t → S s t) :
    Keeps S m := fun s => implies _ _ (keeps s)

theorem keepsPure [Std.Refl R] (a : α) : Keeps R (pure a : Exec σ ε α) := fun s => Std.Refl.refl s

theorem keepsAbsent [Std.Refl R] : Keeps R (absent : Exec σ ε α) := fun s => Std.Refl.refl s

theorem keepsHalt [Std.Refl R] (e : ε) : Keeps R (halt e : Exec σ ε α) := fun s => Std.Refl.refl s

theorem keepsCheck [Std.Refl R] (p : Prop) [Decidable p] : Keeps R (check p : Exec σ ε Unit) := by
  by_cases h : p
  · simpa only [check,if_pos h] using keepsPure ()
  · simpa only [check,if_neg h] using keepsAbsent

theorem keepsOfOption [Std.Refl R] (o : Option α) : Keeps R (ofOption o : Exec σ ε α) := by
  cases o with
  | none => exact keepsAbsent
  | some a => exact keepsPure a

theorem keepsBind [IsTrans σ R] (first : Keeps R m) (next : ∀ a, Keeps R (f a)) :
    Keeps R (m >>= f) := by
  intro s
  rcases h : m s with ⟨a | _ | e,t⟩
  · rw [bindOfDone h]
    exact IsTrans.trans _ _ _ (first.apply h) (next a t)
  · rw [bindOfAbsent h]
    exact first.apply h
  · rw [bindOfHalt h]
    exact first.apply h

theorem keepsAttempt (keeps : Keeps R m) : Keeps R (attempt m) := by
  intro s
  have r := keeps s
  rcases h : m s with ⟨a | _ | e,t⟩ <;> simpa only [attempt,h] using r

end Keeps

/-! One-run rule: no run stops the program. -/
def Total (m : Exec σ ε α) : Prop := ∀ s e t, m s ≠ (.halt e,t)

section Total
variable {m : Exec σ ε α} {f : α → Exec σ ε β}

theorem totalPure (a : α) : Total (pure a : Exec σ ε α) := by
  intro s e t h
  simp at h

theorem totalCheck (p : Prop) [Decidable p] : Total (check p : Exec σ ε Unit) := by
  intro s e t
  by_cases h : p <;> simp [check,h]

theorem totalOfOption (o : Option α) : Total (ofOption o : Exec σ ε α) := by
  intro s e t
  cases o <;> simp [ofOption]

theorem totalBind (first : Total m) (next : ∀ a, Total (f a)) : Total (m >>= f) := by
  intro s e t h
  rcases bindHalt.mp h with h | ⟨a,r,_,h⟩
  · exact first s e t h
  · exact next a r e t h

theorem totalAttempt (total : Total m) : Total (attempt m) :=
  fun s e t h => total s e t (attemptHalt.mp h)

theorem Total.value (total : Total m) {s : σ} (present : ∀ t, m s ≠ (.absent,t)) :
    ∃ a t, m s = (.done a,t) := by
  rcases r : m s with ⟨a | _ | e,t⟩
  · exact ⟨a,t,rfl⟩
  · exact absurd r (present t)
  · exact absurd r (total s e t)

end Total

/-! Two-run rule: equivalent states give the same outcome and equivalent states. -/
def Alike (E : σ → σ → Prop) (m : Exec σ ε α) : Prop :=
  ∀ s t, E s t → (m s).1 = (m t).1 ∧ E (m s).2 (m t).2

section Alike
variable {E : σ → σ → Prop} {m : Exec σ ε α} {f : α → Exec σ ε β}

theorem alikePure (a : α) : Alike E (pure a : Exec σ ε α) := fun _ _ h => ⟨rfl,h⟩

theorem alikeAbsent : Alike E (absent : Exec σ ε α) := fun _ _ h => ⟨rfl,h⟩

theorem alikeHalt (e : ε) : Alike E (halt e : Exec σ ε α) := fun _ _ h => ⟨rfl,h⟩

theorem alikeCheck (p : Prop) [Decidable p] : Alike E (check p : Exec σ ε Unit) := by
  by_cases h : p
  · simpa only [check,if_pos h] using alikePure ()
  · simpa only [check,if_neg h] using alikeAbsent

theorem alikeOfOption (o : Option α) : Alike E (ofOption o : Exec σ ε α) := by
  cases o with
  | none => exact alikeAbsent
  | some a => exact alikePure a

theorem alikeBind (first : Alike E m) (next : ∀ a, Alike E (f a)) : Alike E (m >>= f) := by
  intro s t related
  obtain ⟨same,after⟩ := first s t related
  rcases hs : m s with ⟨a | _ | e,s'⟩ <;> rcases ht : m t with ⟨b | _ | e',t'⟩ <;>
    rw [hs,ht] at same after <;> try contradiction
  · cases same
    rw [bindOfDone hs,bindOfDone ht]
    exact next a s' t' after
  · rw [bindOfAbsent hs,bindOfAbsent ht]
    exact ⟨rfl,after⟩
  · cases same
    rw [bindOfHalt hs,bindOfHalt ht]
    exact ⟨rfl,after⟩

theorem alikeAttempt (alike : Alike E m) : Alike E (attempt m) := by
  intro s t related
  obtain ⟨same,after⟩ := alike s t related
  rcases hs : m s with ⟨a | _ | e,s'⟩ <;> rcases ht : m t with ⟨b | _ | e',t'⟩ <;>
    rw [hs,ht] at same after <;> try contradiction
  all_goals cases same; simpa only [attempt,hs,ht,true_and] using after

theorem alikeEnsuring {release : σ → σ} (alike : Alike E m)
    (stable : ∀ s t, E s t → E (release s) (release t)) : Alike E (ensuring m release) := by
  intro s t related
  obtain ⟨same,after⟩ := alike s t related
  exact ⟨same,stable _ _ after⟩

end Alike
end Exec
end Effects
