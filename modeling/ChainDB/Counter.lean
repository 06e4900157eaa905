import ChainDB.Extension
import ChainDB.Reading

/-! The block counter at the ends of its type: what an append over any index makes of the chain, and
why the loop of `getBlocks` stops even where its counter wraps. -/
namespace ChainDB
open Effects

namespace Chain

/-- One block more than the `n` of before, and each of those where it was. -/
structure Counts (sys : Platform) (chain : Chain) (n : UInt64) (block : Block)
    (before after : Directory) : Prop where
  stored : ∃ db header, after chain.path = some db ∧ storedHeader sys db = some header ∧
    header.index.toNat = n.toNat + 1
  returned : ∃ next : UInt64, next.toNat = n.toNat + 1 ∧ ∀ draws,
    (getBlock sys chain next (start after draws)).2.failed = false →
      ∃ t, getBlock sys chain next (start after draws) = (.done block,t)
  kept : ∀ i ≤ n, ∀ draws old t, getBlock sys chain i (start before draws) = (.done old,t) →
    ∀ later, (getBlock sys chain i (start after later)).2.failed = false →
      ∃ u, getBlock sys chain i (start after later) = (.done old,u)

theorem readsBack {sys chain dir draws db header block} {i : UInt64}
    (here : dir chain.path = some db) (supported : Supported sys db header) (positive : i ≠ 0)
    (inside : i ≤ header.index) (stored : storedBlock sys db i = some block)
    (clean : (getBlock sys chain i (start dir draws)).2.failed = false) :
    ∃ t, getBlock sys chain i (start dir draws) = (.done block,t) := by
  rcases run : getBlock sys chain i (start dir draws) with ⟨o,t⟩
  rw [run] at clean
  cases getBlockClean here (by simp [start]) supported (positiveIndex positive) inside stored run clean
  exact ⟨t,rfl⟩

theorem appendedHere {sys path block w t db header} (appended : Appended sys path block w t db header) :
    t.directory path = some (DB.applyBatch (blockRecords sys header block) db) := by
  rw [appended.directory,Function.update_self]

theorem appendedSupported {sys : Platform} (lawful : sys.header.Lawful) {path block w t db header}
    (appended : Appended sys path block w t db header) :
    Supported sys (DB.applyBatch (blockRecords sys header block) db)
      (header.setIndex (header.index + 1)) :=
  ⟨Ledger.storedHeaderAfter lawful appended.headerFits,appended.supported.version⟩

/- Where the counter has no next value it restarts, and no block is inside any more. -/
theorem wrapHidesBlocks {sys : Platform} (lawful : sys.header.Lawful) {path block w t db header}
    (appended : Appended sys path block w t db header) (full : header.index.toNat + 1 = 2^64)
    (i : UInt64) (draws : Draws) :
    ∃ u, getBlock sys ⟨path⟩ i (start t.directory draws) = (.absent,u) := by
  have wrapped : header.index + 1 = 0 := by
    rw [← UInt64.toNat_inj,UInt64.toNat_add]
    change (header.index.toNat + 1) % 2^64 = 0
    rw [full,Nat.mod_self]
  by_cases zero : i = 0
  · exact getBlockOutside (Or.inl zero)
  · have above : (header.setIndex (header.index + 1)).index < i := by
      rw [Header.setIndex,wrapped]
      exact UInt64.pos_iff_ne_zero.mpr zero
    exact getBlockOutside (Or.inr ⟨_,_,appendedHere appended,(appendedSupported lawful appended).stored,
      above⟩)

theorem appendCountsExactly {sys : Platform} (lawfulHeader : sys.header.Lawful)
    (lawfulBlock : sys.block.Lawful) {chain : Chain} {dir : Directory} {db : Database}
    {header : Header} (here : dir chain.path = some db) (supported : Supported sys db header)
    {block : Block} {draws : Draws} {t : World}
    (added : addBlock sys chain block (start dir draws) = (.done (),t)) :
    Counts sys chain header.index block dir t.directory ↔ header.index.toNat + 1 < 2^64 := by
  obtain ⟨other,own,appended⟩ := addBlockDone added
  cases here.symm.trans appended.here
  cases supported.unique appended.supported
  have now := appendedHere appended
  have after := appendedSupported lawfulHeader appended
  constructor
  · rintro ⟨⟨db',header',_,_,next⟩,_,_⟩
    rw [← next]
    exact header'.index.toNat_lt
  · intro room
    have next := counterSucc room
    refine ⟨⟨_,_,now,after.stored,next⟩,⟨header.index + 1,next,fun later clean => ?_⟩,?_⟩
    · have positive : header.index + 1 ≠ 0 := by
        intro zero
        rw [zero] at next
        cases next
      exact readsBack now after positive (UInt64.le_refl _)
        (Ledger.storedBlockAfter lawfulBlock appended.blockFits) clean
    · intro i inside first old u run later clean
      obtain ⟨before,_,found,_,positive,_,stored⟩ := getBlockDone run
      cases here.symm.trans found
      have below := UInt64.le_iff_toNat_le.mp inside
      have apart : i ≠ header.index + 1 := by
        rintro rfl
        omega
      refine readsBack now after positive (UInt64.le_iff_toNat_le.mpr ?_) ?_ clean
      · simp only [Header.setIndex,next]
        omega
      · rw [Ledger.storedBlockKept apart,stored]

theorem sampleAppendCounts :
    Counts Sample.platform (Manager.chain ⟨[]⟩ 1) 1 Manager.sampleBlock
        (Manager.sampleDirectory Manager.sampleBlock)
        (addBlock Sample.platform (Manager.chain ⟨[]⟩ 1) Manager.sampleBlock
          (start (Manager.sampleDirectory Manager.sampleBlock) (Sample.steady 1))).2.directory ↔
      (1 : UInt64).toNat + 1 < 2^64 := by
  have supported : Supported Sample.platform (Manager.sampleDatabase Manager.sampleBlock)
    Manager.sampleHeader := ⟨by decide +kernel,rfl⟩
  exact appendCountsExactly Sample.headerLawful Sample.blockLawful (Function.update_self ..) supported
    (Exec.outcomeApply (by decide +kernel))

def fullDirectory : Directory := Function.update Manager.builtDirectory
  (Manager.makeStoragePath ⟨[]⟩ 1) (some (Manager.recounted 18446744073709551615))

def fullAppend : Outcome Halt Unit × World :=
  addBlock Sample.platform (Manager.chain ⟨[]⟩ 1) Manager.sampleBlock
    (start fullDirectory (Sample.steady 1))

theorem fullCounterWraps :
    storedHeader Sample.platform (Manager.recounted 18446744073709551615) =
        some (Manager.sampleHeader.setIndex 18446744073709551615) ∧
      (∃ t, getBlock Sample.platform (Manager.chain ⟨[]⟩ 1) 1
        (start fullDirectory (Sample.steady 1)) = (.done Manager.sampleBlock,t)) ∧
      fullAppend.1 = .done () ∧
      (fullAppend.2.directory (Manager.makeStoragePath ⟨[]⟩ 1)).bind (storedHeader Sample.platform) =
        some (Manager.sampleHeader.setIndex 0) ∧
      (∃ t, getBlock Sample.platform (Manager.chain ⟨[]⟩ 1) 1
        (start fullAppend.2.directory (Sample.steady 1)) = (.absent,t)) ∧
      ¬ Counts Sample.platform (Manager.chain ⟨[]⟩ 1) 18446744073709551615 Manager.sampleBlock
        fullDirectory fullAppend.2.directory := by
  refine ⟨by decide +kernel,⟨_,Exec.outcomeApply (by decide +kernel)⟩,by decide +kernel,
    by decide +kernel,⟨_,Exec.outcomeApply (by decide +kernel)⟩,?_⟩
  rintro ⟨⟨db,header,_,_,next⟩,_,_⟩
  have bounded := header.index.toNat_lt
  rw [next] at bounded
  exact absurd bounded (by decide)

inductive Visits (sys : Platform) (storage : Storage) (last : UInt64) :
    UInt64 → List Block → World → List Bytes → Bool × List Block → World → Prop where
  | over {i blocks w} (outside : ¬ i ≤ last) : Visits sys storage last i blocks w [] (true,blocks) w
  | stuck {i blocks w t} (inside : i ≤ last) (read : getBlockFrom sys storage i w = (.absent,t)) :
      Visits sys storage last i blocks w [makeBlockName i] (false,blocks) t
  | next {i blocks w block u names result t} (inside : i ≤ last)
      (read : getBlockFrom sys storage i w = (.done block,u))
      (rest : Visits sys storage last (i + 1) (blocks ++ [block]) u names result t) :
      Visits sys storage last i blocks w (makeBlockName i :: names) result t

def namesFrom (i : UInt64) (n : Nat) : List Bytes :=
  (List.range n).map fun k => makeBlockName (i + UInt64.ofNat k)

theorem namesFromSucc (i : UInt64) (n : Nat) :
    namesFrom i (n + 1) = makeBlockName i :: namesFrom (i + 1) n := by
  have first : i + UInt64.ofNat 0 = i := UInt64.add_zero i
  simp only [namesFrom,List.range_succ_eq_map,List.map_cons,List.map_map,first]
  congr 1
  exact List.map_congr_left fun k _ => by rw [Function.comp_apply,counterNext]

theorem namesDiffer (i : UInt64) {n : Nat} (bounded : n ≤ counterValues) : (namesFrom i n).Nodup := by
  refine List.Nodup.map_on (fun a ha b hb same => ?_) List.nodup_range
  have below := Nat.lt_of_lt_of_le (List.mem_range.mp ha) bounded
  have above := Nat.lt_of_lt_of_le (List.mem_range.mp hb) bounded
  have places := (UInt64.add_right_inj i).mp (blockNameInjective same)
  rw [← counterToNat below,← counterToNat above,places]

theorem loopVisits {sys storage last rounds i blocks w result t}
    (h : getBlocksLoop sys storage last rounds i blocks w = (.done result,t)) :
    ∃ n, n ≤ rounds ∧ Visits sys storage last i blocks w (namesFrom i n) result t := by
  induction rounds generalizing i blocks w with
  | zero => cases h
  | succ rounds ih =>
    unfold getBlocksLoop at h
    split at h
    · rename_i inside
      rcases Exec.attemptBindDone.mp h with ⟨block,u,read,rest⟩ | ⟨u,read,rest⟩
      · obtain ⟨n,bounded,visits⟩ := ih rest
        refine ⟨n + 1,by omega,?_⟩
        rw [namesFromSucc]
        exact .next inside read visits
      · cases rest
        refine ⟨1,by omega,?_⟩
        rw [namesFromSucc]
        exact .stuck inside read
    · rename_i outside
      cases h
      exact ⟨0,Nat.zero_le _,.over outside⟩

theorem recordsOfAllNames {sys db} (readable : ∀ j, storedBlock sys db j ≠ none) :
    counterValues ≤ db.keys.card := by
  rw [← Finset.card_range counterValues]
  refine Finset.card_le_card_of_injOn (fun k => makeBlockName (UInt64.ofNat k)) ?_ ?_
  · intro k _
    obtain ⟨block,stored⟩ := Option.ne_none_iff_exists'.mp (readable (UInt64.ofNat k))
    obtain ⟨value,found,_⟩ := Option.bind_eq_some_iff.mp stored
    exact Finmap.mem_keys.mpr (Finmap.mem_of_lookup_eq_some found)
  · intro a ha b hb same
    have below := Finset.mem_range.mp (Finset.mem_coe.mp ha)
    have above := Finset.mem_range.mp (Finset.mem_coe.mp hb)
    rw [← counterToNat below,← counterToNat above,blockNameInjective same]

theorem blockLoopStops {sys : Platform} {chain : Chain} {w : World} {db : Database}
    (here : w.directory chain.path = some db) (few : db.keys.card < 2^64) (blocks : List Block) :
    (∃ result t, getBlocks sys chain blocks w = (.done result,t)) ∧
      ∀ last, ∃ names result t,
        getBlocksLoop sys ⟨chain.path,true⟩ last counterValues 1 blocks w = (.done result,t) ∧
        Visits sys ⟨chain.path,true⟩ last 1 blocks w names result t ∧ names.Nodup := by
  constructor
  · rcases run : getBlocks sys chain blocks w with ⟨o,t⟩
    cases getBlocksEnds run with
    | all => exact ⟨_,t,rfl⟩
    | shut => exact ⟨_,t,rfl⟩
    | stuck => exact ⟨_,t,rfl⟩
    | endless db' _ here' _ _ readable =>
      cases here.symm.trans here'
      exact absurd few (Nat.not_lt.mpr (recordsOfAllNames readable))
  · intro last
    rcases run : getBlocksLoop sys ⟨chain.path,true⟩ last counterValues 1 blocks w with ⟨o,t⟩
    cases loopEnds here run with
    | endless _ readable =>
      exact absurd few (Nat.not_lt.mpr (recordsOfAllNames (readableEverywhere readable)))
    | all | stuck =>
      obtain ⟨n,bounded,visits⟩ := loopVisits run
      exact ⟨_,_,t,rfl,visits,namesDiffer 1 bounded⟩

theorem fullLoopStops :
    (∃ result t, getBlocks Sample.platform (Manager.chain ⟨[]⟩ 1) []
        (start fullDirectory (Sample.steady 1)) = (.done result,t)) ∧
      ∃ names result t, getBlocksLoop Sample.platform ⟨(Manager.chain ⟨[]⟩ 1).path,true⟩
          18446744073709551615 counterValues 1 [] (start fullDirectory (Sample.steady 1)) =
            (.done result,t) ∧
        Visits Sample.platform ⟨(Manager.chain ⟨[]⟩ 1).path,true⟩ 18446744073709551615 1 []
          (start fullDirectory (Sample.steady 1)) names result t ∧ names.Nodup := by
  have here : fullDirectory (Manager.chain ⟨[]⟩ 1).path =
    some (Manager.recounted 18446744073709551615) := Function.update_self ..
  have stops := @blockLoopStops Sample.platform (Manager.chain ⟨[]⟩ 1)
    (start fullDirectory (Sample.steady 1)) _ here (by decide +kernel) []
  exact ⟨stops.1,stops.2 18446744073709551615⟩

end Chain
end ChainDB
