import ChainDB.Library.Effects
import Mathlib.Data.Finmap

/-! What a call of the program runs in: the storage directory, the databases that some
handle holds open, and the outcomes of the primitive calls still to come. `failed` and
`hashed` are ghost records of what happened; no modelled function reads them. -/
namespace ChainDB
open Effects

abbrev Bytes := List UInt8
abbrev Path := Bytes

def ascii (text : String) : Bytes := text.toList.map (fun c => c.toNat.toUInt8)

structure Data (size : Nat) where
  bytes : Bytes
  sized : bytes.length = size
  deriving DecidableEq, Repr

theorem Data.eqOfBytes {size : Nat} {a b : Data size} (h : a.bytes = b.bytes) : a = b := by
  cases a
  cases b
  simpa using h

abbrev Database := Finmap (fun _ : Bytes => Bytes)
abbrev Directory := Path → Option Database

inductive Primitive where
  | hash | random | secp | database | serialise
  deriving DecidableEq, Repr

/- What the environment answers to one primitive call: whether a call of each kind
succeeds, and the bytes that a random generator would write. -/
structure Draw where
  ok : Primitive → Bool
  random : Nat → UInt8

abbrev Draws := Nat → Draw

inductive Halt where
  | nullDereference
  | endlessLoop
  deriving DecidableEq, Repr

structure World where
  directory : Directory
  opened : List Path
  draws : Draws
  failed : Bool
  hashed : List Bytes

abbrev Action := Exec World Halt

/- A call starts with no database open; its primitive outcomes are its own input. -/
def start (directory : Directory) (draws : Draws) : World := ⟨directory,[],draws,false,[]⟩

def World.spend (w : World) : World := {w with draws := fun n => w.draws (n + 1)}

def World.fail (w : World) : World := {w with failed := true}

def call (kind : Primitive) : Action Draw := fun w =>
  if (w.draws 0).ok kind then (.done (w.draws 0),w.spend) else (.absent,w.spend.fail)

def fault {α : Type} : Action α := fun w => (.absent,w.fail)

/- The part of the world that every function leaves behind or only lets grow. -/
structure Forward (w t : World) : Prop where
  opened : t.opened = w.opened
  failed : w.failed = true → t.failed = true
  hashed : w.hashed ⊆ t.hashed
  spent : ∃ n, ∀ k, t.draws k = w.draws (k + n)

structure Quiet (w t : World) : Prop extends Forward w t where
  directory : t.directory = w.directory

structure Confined (path : Path) (w t : World) : Prop extends Forward w t where
  elsewhere : ∀ other, other ≠ path → t.directory other = w.directory other

theorem Forward.refl (w : World) : Forward w w := ⟨rfl,id,fun _ h => h,0,fun _ => rfl⟩

theorem Forward.trans {u v w : World} (a : Forward u v) (b : Forward v w) : Forward u w := by
  obtain ⟨n,first⟩ := a.spent
  obtain ⟨m,later⟩ := b.spent
  refine ⟨b.opened.trans a.opened,fun h => b.failed (a.failed h),fun _ h => b.hashed (a.hashed h),
    m + n,fun k => ?_⟩
  rw [later,first,Nat.add_assoc]

theorem Forward.brokenDraw {w t : World} {kind : Primitive} {n : Nat} (h : Forward w t)
    (broken : (t.draws n).ok kind = false) : ∃ m, (w.draws m).ok kind = false := by
  obtain ⟨m,later⟩ := h.spent
  rw [later] at broken
  exact ⟨_,broken⟩

theorem Forward.clean {w t : World} (h : Forward w t) (clean : t.failed = false) :
    w.failed = false := by
  cases hw : w.failed with
  | false => rfl
  | true => exact absurd (h.failed hw) (by simp [clean])

instance : Std.Refl Quiet := ⟨fun w => ⟨Forward.refl w,rfl⟩⟩
instance : IsTrans World Quiet :=
  ⟨fun _ _ _ a b => ⟨a.toForward.trans b.toForward,b.directory.trans a.directory⟩⟩

instance (path : Path) : Std.Refl (Confined path) := ⟨fun w => ⟨Forward.refl w,fun _ _ => rfl⟩⟩
instance (path : Path) : IsTrans World (Confined path) :=
  ⟨fun _ _ _ a b => ⟨a.toForward.trans b.toForward,
    fun other h => (b.elsewhere other h).trans (a.elsewhere other h)⟩⟩

theorem Quiet.confined {w t : World} (h : Quiet w t) (path : Path) : Confined path w t :=
  ⟨h.toForward,fun _ _ => by rw [h.directory]⟩

theorem spendQuiet (w : World) : Quiet w w.spend :=
  ⟨⟨rfl,id,fun _ h => h,1,fun _ => rfl⟩,rfl⟩

theorem failQuiet (w : World) : Quiet w w.spend.fail :=
  ⟨⟨rfl,fun _ => rfl,fun _ h => h,1,fun _ => rfl⟩,rfl⟩

theorem callDone {kind : Primitive} {w t : World} {d : Draw} :
    call kind w = (.done d,t) ↔ (w.draws 0).ok kind = true ∧ w.draws 0 = d ∧ w.spend = t := by
  unfold call
  split <;> simp [*]

theorem callAbsent {kind : Primitive} {w t : World} :
    call kind w = (.absent,t) ↔ (w.draws 0).ok kind = false ∧ w.spend.fail = t := by
  unfold call
  split <;> simp [*]

theorem faultAbsent {α : Type} {w t : World} {o : Outcome Halt α} :
    fault w = (o,t) ↔ o = .absent ∧ w.fail = t := by
  simp [fault,eq_comm]

/- An action that reads but does not write, and never stops the program. -/
structure Steady {α : Type} (m : Action α) : Prop where
  quiet : Exec.Keeps Quiet m
  total : Exec.Total m

structure Tame {α : Type} (m : Action α) : Prop extends Steady m where
  blames : ∀ w t, m w = (.absent,t) → t.failed = true

section Steady
variable {α β : Type} {m : Action α} {f : α → Action β}

theorem steadyPure (a : α) : Steady (pure a : Action α) := ⟨Exec.keepsPure a,Exec.totalPure a⟩

theorem steadyCheck (p : Prop) [Decidable p] : Steady (Exec.check p : Action Unit) :=
  ⟨Exec.keepsCheck p,Exec.totalCheck p⟩

theorem steadyOfOption (o : Option α) : Steady (Exec.ofOption o : Action α) :=
  ⟨Exec.keepsOfOption o,Exec.totalOfOption o⟩

theorem steadyAttempt (h : Steady m) : Steady (Exec.attempt m) :=
  ⟨Exec.keepsAttempt h.quiet,Exec.totalAttempt h.total⟩

theorem steadyBind (first : Steady m) (next : ∀ a, Steady (f a)) : Steady (m >>= f) :=
  ⟨Exec.keepsBind first.quiet fun a => (next a).quiet,Exec.totalBind first.total fun a => (next a).total⟩

theorem tamePure (a : α) : Tame (pure a : Action α) := by
  refine ⟨steadyPure a,?_⟩
  intro w t h
  simp at h

theorem tameBind (first : Tame m) (next : ∀ a, Tame (f a)) : Tame (m >>= f) := by
  refine ⟨steadyBind first.toSteady fun a => (next a).toSteady,?_⟩
  intro w t h
  rcases Exec.bindAbsent.mp h with h | ⟨a,r,_,h⟩
  · exact first.blames w t h
  · exact (next a).blames r t h

theorem tameAttempt (tame : Tame m) : Tame (Exec.attempt m) :=
  ⟨steadyAttempt tame.toSteady,fun _ _ h => absurd h Exec.attemptNotAbsent⟩

theorem tameCall (kind : Primitive) : Tame (call kind) := by
  refine ⟨⟨?_,?_⟩,?_⟩
  · intro w
    unfold call
    split
    · exact spendQuiet w
    · exact failQuiet w
  · intro w e t h
    unfold call at h
    split at h <;> cases h
  · intro w t h
    obtain ⟨_,rfl⟩ := callAbsent.mp h
    rfl

theorem tameFault : Tame (fault : Action α) := by
  refine ⟨⟨fun _ => ⟨⟨rfl,fun _ => rfl,fun _ h => h,0,fun _ => rfl⟩,rfl⟩,?_⟩,?_⟩
  · intro w e t h
    cases h
  · intro w t h
    obtain ⟨_,rfl⟩ := faultAbsent.mp h
    rfl

theorem tameNote (input : Bytes) :
    Tame (Exec.modify (fun w => {w with hashed := w.hashed ++ [input]}) : Action Unit) := by
  refine ⟨⟨fun w => ⟨⟨rfl,id,List.subset_append_left _ _,0,fun _ => rfl⟩,rfl⟩,?_⟩,?_⟩
  · intro w e t h
    simp at h
  · intro w t h
    simp at h

theorem Tame.value (tame : Tame m) {w : World} (clean : (m w).2.failed = false) :
    ∃ a t, m w = (.done a,t) := by
  refine tame.total.value fun t h => ?_
  simp only [h] at clean
  exact absurd (tame.blames w t h) (by simp [clean])

theorem cleanFirst (rest : ∀ a, Exec.Keeps Quiet (f a)) {w : World}
    (clean : ((m >>= f) w).2.failed = false) : (m w).2.failed = false := by
  rcases h : m w with ⟨a | _ | e,t⟩
  · rw [Exec.bindOfDone h] at clean
    exact (rest a t).clean clean
  · rwa [Exec.bindOfAbsent h] at clean
  · rwa [Exec.bindOfHalt h] at clean

theorem Tame.peel (tame : Tame m) (rest : ∀ a, Exec.Keeps Quiet (f a)) {w : World}
    (clean : ((m >>= f) w).2.failed = false) :
    ∃ a t, m w = (.done a,t) ∧ t.failed = false ∧ (m >>= f) w = f a t := by
  have first := cleanFirst rest clean
  obtain ⟨a,t,h⟩ := tame.value first
  rw [h] at first
  exact ⟨a,t,h,first,Exec.bindOfDone h⟩

end Steady

def Sparing (kinds : Primitive → Prop) (draws : Draws) : Prop :=
  ∀ n kind, kinds kind → (draws n).ok kind = true

theorem Forward.sparing {kinds : Primitive → Prop} {w t : World} (h : Forward w t)
    (sparing : Sparing kinds w.draws) : Sparing kinds t.draws := by
  obtain ⟨m,later⟩ := h.spent
  intro n kind known
  rw [later]
  exact sparing _ kind known

def Sure {α : Type} (kinds : Primitive → Prop) (m : Action α) : Prop :=
  ∀ w, Sparing kinds w.draws → ∃ a t, m w = (.done a,t) ∧ Sparing kinds t.draws

section Sure
variable {kinds : Primitive → Prop} {α β : Type} {m : Action α} {f : α → Action β}

theorem surePure (a : α) : Sure kinds (pure a : Action α) := fun w sparing => ⟨a,w,rfl,sparing⟩

theorem sureBind (first : Sure kinds m) (next : ∀ a, Sure kinds (f a)) : Sure kinds (m >>= f) := by
  intro w sparing
  obtain ⟨a,t,run,left⟩ := first w sparing
  rw [Exec.bindOfDone run]
  exact next a t left

theorem sureCall {kind : Primitive} (known : kinds kind) : Sure kinds (call kind) :=
  fun _ sparing => ⟨_,_,callDone.mpr ⟨sparing 0 kind known,rfl,rfl⟩,fun n => sparing (n + 1)⟩

theorem sureNote (input : Bytes) : Sure kinds
    (Exec.modify (fun w => {w with hashed := w.hashed ++ [input]}) : Action Unit) :=
  fun _ sparing => ⟨_,_,rfl,sparing⟩

end Sure

def Smooth (kinds : Primitive → Prop) (w t : World) : Prop :=
  Sparing kinds w.draws → Sparing kinds t.draws ∧ t.failed = w.failed

section Smooth
variable {kinds : Primitive → Prop}

instance : Std.Refl (Smooth kinds) := ⟨fun _ sparing => ⟨sparing,rfl⟩⟩
instance : IsTrans World (Smooth kinds) := by
  refine ⟨fun u v w a b sparing => ?_⟩
  obtain ⟨middle,same⟩ := a sparing
  obtain ⟨last,kept⟩ := b middle
  exact ⟨last,kept.trans same⟩

theorem smoothCall {kind : Primitive} (known : kinds kind) : Exec.Keeps (Smooth kinds) (call kind) := by
  intro w sparing
  simp only [call,sparing 0 kind known,if_true]
  exact ⟨fun n => sparing (n + 1),rfl⟩

theorem smoothNote (input : Bytes) : Exec.Keeps (Smooth kinds)
    (Exec.modify (fun w => {w with hashed := w.hashed ++ [input]}) : Action Unit) :=
  fun _ sparing => ⟨sparing,rfl⟩

end Smooth
end ChainDB
