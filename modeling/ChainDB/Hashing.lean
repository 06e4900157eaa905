import ChainDB.SamplePlatform

/-! Actions that make a fixed number of primitive calls of one kind, and with them what `getHash`
and `getHashN` ask of OpenSSL. -/
namespace ChainDB
open Effects

def World.later (n : Nat) (log : List Bytes) (w : World) : World :=
  {w with draws := fun k => w.draws (k + n),hashed := w.hashed ++ log}

/- The action ends with `value` when its `n` calls succeed, and with the first call that fails. -/
structure Takes {α : Type} (kind : Primitive) (n : Nat) (log : List Bytes) (value : α)
    (m : Action α) : Prop where
  succeeds : ∀ w, (∀ k < n, (w.draws k).ok kind = true) → m w = (.done value,w.later n log)
  fails : ∀ w, ∀ k < n, (∀ j < k, (w.draws j).ok kind = true) → (w.draws k).ok kind = false →
    ∃ t, m w = (.absent,t) ∧ t.failed = true ∧ ∀ j, t.draws j = w.draws (j + (k + 1))

section Takes
variable {kind : Primitive} {n k : Nat} {log more : List Bytes} {α β : Type} {a : α} {b : β}
  {m : Action α} {f : α → Action β}

theorem laterNone (w : World) : w.later 0 [] = w := by
  simp [World.later]

@[simp] theorem laterFailed (w : World) : (w.later n log).failed = w.failed := rfl

@[simp] theorem laterHashed (w : World) : (w.later n log).hashed = w.hashed ++ log := rfl

theorem spendLater (w : World) : w.spend = w.later 1 [] := by
  simp [World.spend,World.later]

theorem laterLater (w : World) : (w.later n log).later k more = w.later (n + k) (log ++ more) := by
  have shift : ∀ i, i + k + n = i + (n + k) := by omega
  simp only [World.later,List.append_assoc,shift]

theorem takesPure (a : α) : Takes kind 0 [] a (pure a) := by
  refine ⟨fun w _ => ?_,fun w k below => absurd below (Nat.not_lt_zero k)⟩
  rw [laterNone]
  rfl

theorem takesBind (first : Takes kind n log a m) (next : Takes kind k more b (f a)) :
    Takes kind (n + k) (log ++ more) b (m >>= f) := by
  constructor
  · intro w works
    rw [Exec.bindOfDone (first.succeeds w fun j below => works j (by omega)),
      next.succeeds _ fun j below => works (j + n) (by omega),laterLater]
  · intro w j below works broken
    rcases Nat.lt_or_ge j n with early | late
    · obtain ⟨t,run,failed,left⟩ := first.fails w j early works broken
      exact ⟨t,Exec.bindOfAbsent run,failed,left⟩
    · rw [Exec.bindOfDone (first.succeeds w fun i inside => works i (by omega))]
      have place : j - n + n = j := Nat.sub_add_cancel late
      obtain ⟨t,run,failed,left⟩ := next.fails (w.later n log) (j - n) (by omega)
        (fun i inside => works (i + n) (by omega)) (by simpa only [World.later,place] using broken)
      refine ⟨t,run,failed,fun i => ?_⟩
      have shift : i + (j - n + 1) + n = i + (j + 1) := by omega
      simp only [left,World.later,shift]

theorem takesCall (next : Takes kind n log a m) :
    Takes kind (n + 1) log a (call kind >>= fun _ => m) := by
  constructor
  · intro w works
    rw [Exec.bindOfDone (callDone.mpr ⟨works 0 (Nat.zero_lt_succ n),rfl,rfl⟩),
      next.succeeds w.spend fun j below => works (j + 1) (by omega)]
    simp only [World.later,World.spend,Nat.add_assoc]
  · intro w j below works broken
    cases j with
    | zero => exact ⟨_,Exec.bindOfAbsent (callAbsent.mpr ⟨broken,rfl⟩),rfl,fun _ => rfl⟩
    | succ j =>
      rw [Exec.bindOfDone (callDone.mpr ⟨works 0 (Nat.zero_lt_succ j),rfl,rfl⟩)]
      exact next.fails w.spend j (by omega) (fun i inside => works (i + 1) (by omega)) broken

theorem takesNote {input : Bytes} (next : Takes kind n log a m) : Takes kind n (input :: log) a
    ((Exec.modify fun w => {w with hashed := w.hashed ++ [input]}) >>= fun _ => m) := by
  constructor
  · intro w works
    refine (next.succeeds {w with hashed := w.hashed ++ [input]} works).trans ?_
    simp [World.later]
  · intro w j below works broken
    exact next.fails {w with hashed := w.hashed ++ [input]} j below works broken

theorem firstFailure (kind : Primitive) (n : Nat) (w : World) : (∀ k < n, (w.draws k).ok kind = true) ∨
    ∃ k < n, (∀ j < k, (w.draws j).ok kind = true) ∧ (w.draws k).ok kind = false := by
  by_cases works : ∀ k < n, (w.draws k).ok kind = true
  · exact Or.inl works
  · classical
    have broken : ∃ k, k < n ∧ (w.draws k).ok kind = false := by simpa using works
    obtain ⟨below,fails⟩ := Nat.find_spec broken
    refine Or.inr ⟨_,below,fun j less => ?_,fails⟩
    have worked := Nat.find_min broken less
    simpa [Nat.lt_trans less below] using worked

theorem Takes.cases (takes : Takes kind n log a m) (w : World) :
    ((∀ k < n, (w.draws k).ok kind = true) ∧ m w = (.done a,w.later n log)) ∨
      (∃ k < n, (w.draws k).ok kind = false) ∧ ∃ t, m w = (.absent,t) ∧ t.failed = true := by
  obtain works | ⟨k,below,earlier,fails⟩ := firstFailure kind n w
  · exact Or.inl ⟨works,takes.succeeds w works⟩
  · obtain ⟨t,run,failed,_⟩ := takes.fails w k below earlier fails
    exact Or.inr ⟨⟨k,below,fails⟩,t,run,failed⟩

theorem Takes.spends (takes : Takes kind n log a m) {w t : World} {o : Outcome Halt α}
    (run : m w = (o,t)) : ∃ j ≤ n, ∀ k, t.draws k = w.draws (k + j) := by
  obtain works | ⟨k,below,earlier,fails⟩ := firstFailure kind n w
  · cases run.symm.trans (takes.succeeds w works)
    exact ⟨n,Nat.le_refl n,fun _ => rfl⟩
  · obtain ⟨u,ran,_,spent⟩ := takes.fails w k below earlier fails
    cases run.symm.trans ran
    exact ⟨k + 1,below,spent⟩

end Takes

namespace SHA256

theorem updateTakes (input : List Bytes) (ctx : Bytes) :
    Takes .hash input.length [] (ctx ++ input.flatten) (update input ctx) := by
  induction input generalizing ctx with
  | nil => simpa [update] using takesPure ctx
  | cons data rest ih =>
    have later := ih (ctx ++ data)
    rw [List.append_assoc] at later
    exact takesCall later

theorem finalTakes (sys : Platform) (ctx : Bytes) :
    Takes .hash 1 [ctx] (sys.sha256 ctx) (final sys ctx) :=
  takesCall (takesNote (takesPure _))

theorem hashTakes (sys : Platform) (input : List Bytes) :
    Takes .hash (input.length + 2) [input.flatten] (sys.sha256 input.flatten) (getHash sys input) := by
  have rest := takesBind (updateTakes input []) (finalTakes sys ([] ++ input.flatten))
  exact takesCall rest

def digest (sys : Platform) (text : Bytes) : Bytes := (sys.sha256 text).bytes

def iterates (sys : Platform) (text : Bytes) (n : Nat) : List Bytes :=
  (List.range n).map fun k => (digest sys)^[k] text

theorem iteratesSucc (sys : Platform) (text : Bytes) (n : Nat) :
    iterates sys text (n + 1) = text :: iterates sys (digest sys text) n := by
  unfold iterates
  rw [List.range_succ_eq_map,List.map_cons,List.map_map]
  rfl

theorem rehashTakes (sys : Platform) (rounds : Nat) (hash : Hash) : ∃ last : Hash,
    last.bytes = (digest sys)^[rounds] hash.bytes ∧
      Takes .hash (3 * rounds) (iterates sys hash.bytes rounds) last (rehash sys rounds hash) := by
  induction rounds generalizing hash with
  | zero => exact ⟨hash,rfl,takesPure hash⟩
  | succ rounds ih =>
    have text : [hash.bytes].flatten = hash.bytes := by simp
    obtain ⟨last,value,takes⟩ := ih (sys.sha256 [hash.bytes].flatten)
    rw [text] at value takes
    refine ⟨last,value,?_⟩
    have first := hashTakes sys [hash.bytes]
    rw [text] at first
    have count : 3 * (rounds + 1) = [hash.bytes].length + 2 + 3 * rounds := by
      rw [List.length_singleton]
      omega
    rw [iteratesSucc,count]
    exact takesBind first takes

theorem hashNTakes (sys : Platform) (input : List Bytes) (n : UInt64) : ∃ hash : Hash,
    hash.bytes = (digest sys)^[(n - 1).toNat + 1] input.flatten ∧
      Takes .hash (input.length + 2 + 3 * (n - 1).toNat)
        (iterates sys input.flatten ((n - 1).toNat + 1)) hash (getHashN sys input n) := by
  obtain ⟨last,value,takes⟩ := rehashTakes sys (n - 1).toNat (sys.sha256 input.flatten)
  refine ⟨last,value,?_⟩
  rw [iteratesSucc]
  exact takesBind (hashTakes sys input) takes

/- What is asked of `getHashN`: without a failed call it evaluates `max n 1` times, each time what the
time before gave, and with a failed one it returns nothing. -/
structure AsOften (sys : Platform) (input : List Bytes) (n : UInt64) (w : World) : Prop where
  evaluated : (getHashN sys input n w).2.failed = false → ∃ hash t,
    getHashN sys input n w = (.done hash,t) ∧
      hash.bytes = (digest sys)^[max n.toNat 1] input.flatten ∧
      t.hashed = w.hashed ++ iterates sys input.flatten (max n.toNat 1)
  refused : (getHashN sys input n w).2.failed = true → (getHashN sys input n w).1 = .absent

theorem iteratesLength (sys : Platform) (text : Bytes) (n : Nat) : (iterates sys text n).length = n := by
  rw [iterates,List.length_map,List.length_range]

theorem roundsAbove {n : UInt64} (positive : n ≠ 0) : (n - 1).toNat + 1 = max n.toNat 1 := by
  have apart : n.toNat ≠ 0 := fun same => positive (UInt64.toNat_inj.mp same)
  have one : (1 : UInt64).toNat = 1 := rfl
  have below : 1 ≤ n := UInt64.le_iff_toNat_le.mpr (by omega)
  rw [UInt64.toNat_sub_of_le n 1 below,one]
  omega

theorem zeroEvaluations (sys : Platform) (input : List Bytes) {w : World}
    (hashing : ∀ k, (w.draws k).ok .hash = true) : ∃ hash t, getHashN sys input 0 w = (.done hash,t) ∧
      t.failed = w.failed ∧ t.hashed.length = w.hashed.length + 2^64 := by
  have bound : ((0 : UInt64) - 1).toNat + 1 = 2^64 := by decide
  obtain ⟨hash,_,takes⟩ := hashNTakes sys input 0
  rw [bound] at takes
  refine ⟨hash,_,takes.succeeds w fun k _ => hashing k,laterFailed w,?_⟩
  rw [laterHashed,List.length_append,iteratesLength]

theorem zeroNotAsOften (sys : Platform) (input : List Bytes) {w : World} (clean : w.failed = false)
    (hashing : ∀ k, (w.draws k).ok .hash = true) : ¬ AsOften sys input 0 w := by
  rintro ⟨evaluated,_⟩
  obtain ⟨hash,t,run,failed,length⟩ := zeroEvaluations sys input hashing
  obtain ⟨_,u,again,_,log⟩ := evaluated (by rw [run]; exact failed.trans clean)
  cases run.symm.trans again
  have one : max (0 : UInt64).toNat 1 = 1 := rfl
  rw [log,List.length_append,iteratesLength,one] at length
  omega

theorem hashesAsOftenExactly (sys : Platform) (input : List Bytes) (n : UInt64) :
    (∀ w, w.failed = false → AsOften sys input n w) ↔ n ≠ 0 := by
  constructor
  · rintro asOften rfl
    exact zeroNotAsOften sys input rfl (fun _ => rfl)
      (asOften (start (fun _ => none) (Sample.steady 0)) rfl)
  · intro positive w clean
    obtain ⟨hash,value,takes⟩ := hashNTakes sys input n
    rw [roundsAbove positive] at value takes
    rcases takes.cases w with ⟨_,run⟩ | ⟨_,t,run,failed⟩
    · refine ⟨fun _ => ⟨hash,_,run,value,laterHashed w⟩,fun failed => ?_⟩
      rw [run] at failed
      cases clean.symm.trans failed
    · refine ⟨fun kept => ?_,fun _ => by rw [run]⟩
      rw [run] at kept
      cases failed.symm.trans kept

theorem zeroHashesTooOften :
    ¬ AsOften Sample.platform [ascii "abc"] 0 (start (fun _ => none) (Sample.steady 0)) :=
  zeroNotAsOften Sample.platform [ascii "abc"] rfl fun _ => rfl

end SHA256
end ChainDB
