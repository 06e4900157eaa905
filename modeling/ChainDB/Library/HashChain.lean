import Mathlib.Data.List.Forall2
import Mathlib.Data.List.Induction

/-! Lists of records, each sealed over the digest of the one before it. The first record is
sealed over a genesis digest. `Bad` is whatever a broken digest leads to; it is a conclusion
and never a hypothesis. -/
namespace HashChain

variable {δ ρ : Type} (digest : ρ → δ) (Seals : δ → ρ → Prop)

def tip : δ → List ρ → δ
  | genesis,[] => genesis
  | _,r :: rest => tip (digest r) rest

def Linked : δ → List ρ → Prop
  | _,[] => True
  | previous,r :: rest => Seals previous r ∧ Linked (digest r) rest

theorem tipAppend (genesis : δ) (l m : List ρ) :
    tip digest genesis (l ++ m) = tip digest (tip digest genesis l) m := by
  induction l generalizing genesis with
  | nil => rfl
  | cons r rest ih => exact ih (digest r)

theorem tipSnoc (genesis : δ) (l : List ρ) (r : ρ) : tip digest genesis (l ++ [r]) = digest r := by
  rw [tipAppend]
  rfl

theorem linkedAppend (genesis : δ) (l m : List ρ) :
    Linked digest Seals genesis (l ++ m) ↔
      Linked digest Seals genesis l ∧ Linked digest Seals (tip digest genesis l) m := by
  induction l generalizing genesis with
  | nil => simp [Linked,tip]
  | cons r rest ih => simp only [List.cons_append,Linked,ih,tip,and_assoc]

theorem linkedSnoc (genesis : δ) (l : List ρ) (r : ρ) :
    Linked digest Seals genesis (l ++ [r]) ↔
      Linked digest Seals genesis l ∧ Seals (tip digest genesis l) r := by
  rw [linkedAppend]
  simp [Linked]

theorem linkedMono {Weaker : δ → ρ → Prop} {genesis : δ} {l : List ρ}
    (implies : ∀ previous r, r ∈ l → Seals previous r → Weaker previous r)
    (linked : Linked digest Seals genesis l) : Linked digest Weaker genesis l := by
  induction l generalizing genesis with
  | nil => trivial
  | cons r rest ih =>
    have tail := ih (fun p s member => implies p s (List.mem_cons_of_mem r member)) linked.2
    exact ⟨implies _ r (List.mem_cons_self ..) linked.1,tail⟩

def previous (genesis : δ) (l : List ρ) : Nat → δ
  | 0 => genesis
  | k + 1 => (l[k]?.map digest).getD genesis

theorem tipTake (genesis : δ) (l : List ρ) (k : Nat) (inside : k ≤ l.length) :
    tip digest genesis (l.take k) = previous digest genesis l k := by
  cases k with
  | zero => rfl
  | succ k =>
    have here : l[k]? = some l[k] := List.getElem?_eq_getElem inside
    rw [List.take_add_one,here]
    simp only [Option.toList_some,tipSnoc,previous,here,Option.map_some,Option.getD_some]

theorem linkedAt {genesis : δ} {l : List ρ} {k : Nat} {r : ρ}
    (linked : Linked digest Seals genesis l) (here : l[k]? = some r) :
    Seals (previous digest genesis l k) r := by
  obtain ⟨inside,same⟩ := List.getElem?_eq_some_iff.mp here
  have parts : l = l.take k ++ r :: l.drop (k + 1) := by
    rw [← same,← List.drop_eq_getElem_cons inside,List.take_append_drop]
  rw [parts] at linked
  have sealed := ((linkedAppend digest Seals _ _ _).mp linked).2.1
  rwa [tipTake digest genesis l k (Nat.le_of_lt inside)] at sealed

/-! A tip commits to the whole list: walking back from equal tips, either the seals break or
the lists agree place by place, with the same genesis. -/
theorem tipCommits {Same : ρ → ρ → Prop} {Bad : Prop} {g h : δ} {l m : List ρ}
    (binding : ∀ p q r s, Seals p r → Seals q s → digest r = digest s → Bad ∨ (p = q ∧ Same r s))
    (apart : ∀ p r, Seals p r → digest r = g ∨ digest r = h → Bad)
    (left : Linked digest Seals g l) (right : Linked digest Seals h m)
    (tips : tip digest g l = tip digest h m) : Bad ∨ (g = h ∧ List.Forall₂ Same l m) := by
  induction l using List.reverseRecOn generalizing m with
  | nil =>
    cases m using List.reverseRecOn with
    | nil => exact Or.inr ⟨tips,.nil⟩
    | append_singleton m s =>
      rw [tipSnoc] at tips
      have sealed := ((linkedSnoc digest Seals _ _ _).mp right).2
      exact Or.inl (apart _ s sealed (Or.inl tips.symm))
  | append_singleton l r ih =>
    obtain ⟨left,sealedLeft⟩ := (linkedSnoc digest Seals _ _ _).mp left
    cases m using List.reverseRecOn with
    | nil =>
      rw [tipSnoc] at tips
      exact Or.inl (apart _ r sealedLeft (Or.inr tips))
    | append_singleton m s =>
      obtain ⟨right,sealedRight⟩ := (linkedSnoc digest Seals _ _ _).mp right
      simp only [tipSnoc] at tips
      rcases binding _ _ r s sealedLeft sealedRight tips with bad | ⟨before,same⟩
      · exact Or.inl bad
      · rcases ih left right before with bad | ⟨genesis,all⟩
        · exact Or.inl bad
        · exact Or.inr ⟨genesis,List.rel_append all (.cons same .nil)⟩

end HashChain
