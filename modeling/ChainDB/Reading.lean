import ChainDB.Verification

/-! The two ways to read blocks. `getBlocks` walks the records from 1 on and fills the caller's
vector as it goes; `getBlock` looks one of them up. -/
namespace ChainDB
open Effects

namespace Chain

theorem headerFromExact {sys path db w header t} (here : w.directory path = some db) :
    getHeaderFrom sys ⟨path,true⟩ w = (.done header,t) ↔
      (w.draws 0).ok .database = true ∧ Supported sys db header ∧ t = w.spend := by
  constructor
  · intro h
    have supported := headerFromDone here h
    simp only [getHeaderFrom,Exec.bindDone,Exec.ofOptionDone,Exec.checkDone,Exec.pureApply,
      Prod.mk.injEq,Outcome.done.injEq] at h
    obtain ⟨value,u,got,parsed,_,⟨_,rfl⟩,_,_,⟨_,rfl⟩,rfl,rfl⟩ := h
    have spent := (Storage.getDone got).2
    rw [Storage.getApply] at got
    split at got
    · rename_i works
      exact ⟨works,supported,spent⟩
    · cases got
  · rintro ⟨works,⟨stored,version⟩,rfl⟩
    obtain ⟨value,found,unpacked⟩ := Option.bind_eq_some_iff.mp stored
    have got : Storage.get ⟨path,true⟩ DB_HEADER_KEY w = (.done value,w.spend) := by
      simp only [Storage.getApply,if_pos works,here,Option.bind_some,found]
      rfl
    unfold getHeaderFrom
    rw [Exec.bindOfDone got,Exec.bindOfDone (Exec.ofOptionDone.mpr ⟨unpacked,rfl⟩),
      Exec.bindOfDone (Exec.checkDone (u := ()).mpr ⟨version,rfl⟩)]
    rfl

theorem blockFromExact {sys path db w index block t} (here : w.directory path = some db) :
    getBlockFrom sys ⟨path,true⟩ index w = (.done block,t) ↔
      (w.draws 0).ok .database = true ∧ storedBlock sys db index = some block ∧ t = w.spend := by
  constructor
  · intro h
    have stored := blockFromDone here h
    simp only [getBlockFrom,Exec.bindDone,Exec.ofOptionDone] at h
    obtain ⟨value,u,got,_,rfl⟩ := h
    have spent := (Storage.getDone got).2
    rw [Storage.getApply] at got
    split at got
    · rename_i works
      exact ⟨works,stored,spent⟩
    · cases got
  · rintro ⟨works,stored,rfl⟩
    obtain ⟨value,found,unpacked⟩ := Option.bind_eq_some_iff.mp stored
    have got : Storage.get ⟨path,true⟩ (makeBlockName index) w = (.done value,w.spend) := by
      simp only [Storage.getApply,if_pos works,here,Option.bind_some,found]
      rfl
    unfold getBlockFrom
    rw [Exec.bindOfDone got]
    exact Exec.ofOptionDone.mpr ⟨unpacked,rfl⟩

def Reads (sys : Platform) (db : Database) (draws : Draws) (i : UInt64) (k : Nat) : Prop :=
  (draws k).ok .database = true ∧ storedBlock sys db (i + UInt64.ofNat k) ≠ none

theorem readsNext {sys db draws i k} :
    Reads sys db (fun n => draws (n + 1)) (i + 1) k ↔ Reads sys db draws i (k + 1) := by
  unfold Reads
  rw [counterNext]

theorem readsHere {sys path db w i} (here : w.directory path = some db) :
    Reads sys db w.draws i 0 ↔ ∃ block, getBlockFrom sys ⟨path,true⟩ i w = (.done block,w.spend) := by
  have first : i + UInt64.ofNat 0 = i := UInt64.add_zero i
  simp only [Reads,first,blockFromExact here,and_true,exists_and_left,Option.ne_none_iff_exists']

structure StopsAt (sys : Platform) (db : Database) (last : UInt64) (draws : Draws) (i : UInt64)
    (k : Nat) : Prop where
  inside : ∀ j, j ≤ k → i + UInt64.ofNat j ≤ last
  reads : ∀ j, j < k → Reads sys db draws i j
  broken : ¬ Reads sys db draws i k

theorem stopsNext {sys db last draws i k} (inside : i ≤ last) (reads : Reads sys db draws i 0)
    (stops : StopsAt sys db last (fun n => draws (n + 1)) (i + 1) k) :
    StopsAt sys db last draws i (k + 1) where
  inside j below := by
    cases j with
    | zero => simpa using inside
    | succ j =>
      rw [counterNext]
      exact stops.inside j (by omega)
  reads j below := by
    cases j with
    | zero => exact reads
    | succ j => exact readsNext.mp (stops.reads j (by omega))
  broken := fun met => stops.broken (readsNext.mpr met)

theorem stopsLater {sys db last draws i k} (stops : StopsAt sys db last draws i (k + 1)) :
    StopsAt sys db last (fun n => draws (n + 1)) (i + 1) k where
  inside j below := by
    rw [← counterNext]
    exact stops.inside (j + 1) (by omega)
  reads j below := readsNext.mpr (stops.reads (j + 1) (by omega))
  broken := fun met => stops.broken (readsNext.mp met)

theorem loopFalse {sys path db last rounds i blocks w after t} (here : w.directory path = some db)
    (h : getBlocksLoop sys ⟨path,true⟩ last rounds i blocks w = (.done (false,after),t)) :
    ∃ l, after = blocks ++ l ∧ l.length < rounds ∧ StopsAt sys db last w.draws i l.length := by
  induction rounds generalizing i blocks w with
  | zero => cases h
  | succ rounds ih =>
    unfold getBlocksLoop at h
    split at h
    · rename_i inside
      have start : i + UInt64.ofNat 0 = i := UInt64.add_zero i
      rcases read : getBlockFrom sys ⟨path,true⟩ i w with ⟨block | _ | e,u⟩
      · rw [Exec.bindOfDone (Exec.attemptSome.mpr read)] at h
        have spent := ((blockFromExact here).mp read).2.2
        subst spent
        obtain ⟨l,rfl,room,stops⟩ := @ih (i + 1) _ w.spend here h
        refine ⟨block :: l,by simp,by simp only [List.length_cons]; omega,?_⟩
        exact stopsNext inside ((readsHere here).mpr ⟨block,read⟩) stops
      · rw [Exec.bindOfDone (Exec.attemptNone.mpr read)] at h
        cases h
        refine ⟨[],(List.append_nil _).symm,Nat.zero_lt_succ _,⟨fun j below => ?_,?_,?_⟩⟩
        · obtain rfl : j = 0 := Nat.le_zero.mp below
          rwa [start]
        · exact fun j below => absurd below (Nat.not_lt_zero j)
        · intro met
          obtain ⟨block,done⟩ := (readsHere here).mp met
          cases read.symm.trans done
      · exact absurd read ((blockFromSteady sys path i).total w e u)
    · cases h

theorem loopStops {sys path db last rounds i w k} (blocks : List Block)
    (here : w.directory path = some db) (room : k < rounds) (stops : StopsAt sys db last w.draws i k) :
    ∃ l t, getBlocksLoop sys ⟨path,true⟩ last rounds i blocks w = (.done (false,blocks ++ l),t) ∧
      l.length = k := by
  induction rounds generalizing i blocks w k with
  | zero => exact absurd room (Nat.not_lt_zero k)
  | succ rounds ih =>
    have inside : i ≤ last := by simpa using stops.inside 0 (Nat.zero_le k)
    unfold getBlocksLoop
    rw [if_pos inside]
    cases k with
    | zero =>
      rcases read : getBlockFrom sys ⟨path,true⟩ i w with ⟨block | _ | e,u⟩
      · have spent := ((blockFromExact here).mp read).2.2
        subst spent
        exact absurd ((readsHere here).mpr ⟨block,read⟩) stops.broken
      · rw [Exec.bindOfDone (Exec.attemptNone.mpr read)]
        exact ⟨[],u,by simp,rfl⟩
      · exact absurd read ((blockFromSteady sys path i).total w e u)
    | succ k =>
      obtain ⟨block,read⟩ := (readsHere here).mp (stops.reads 0 (Nat.zero_lt_succ k))
      rw [Exec.bindOfDone (Exec.attemptSome.mpr read)]
      obtain ⟨l,t,run,length⟩ := @ih (i + 1) w.spend k (blocks ++ [block]) here (by omega)
        (stopsLater stops)
      exact ⟨block :: l,t,by simpa using run,by simp [length]⟩

def Met (sys : Platform) (db : Database) (draws : Draws) (i : Nat) : Prop :=
  (draws (i + 1)).ok .database = true ∧ storedBlock sys db (UInt64.ofNat i) ≠ none

/- The rounds of the loop when every record is there; at the largest index the counter wraps. -/
def rounds (last : UInt64) : Nat := if last.toNat + 1 = counterValues then counterValues else last.toNat

structure Begun (sys : Platform) (path : Path) (dir : Directory) (draws : Draws) (db : Database)
    (header : Header) : Prop where
  here : dir path = some db
  opens : (draws 0).ok .database = true
  finds : (draws 1).ok .database = true
  supported : Supported sys db header

/- The first record is read and a later one is not. -/
def StopsMidway (sys : Platform) (path : Path) (dir : Directory) (draws : Draws) : Prop :=
  ∃ db header, Begun sys path dir draws db header ∧ Met sys db draws 1 ∧
    ∃ i, 2 ≤ i ∧ i ≤ rounds header.index ∧ ¬ Met sys db draws i

theorem roundsBounded (last : UInt64) : rounds last ≤ counterValues := by
  have size := last.toNat_lt
  unfold rounds counterValues
  split <;> omega

theorem insideOfRounds {last : UInt64} {k : Nat} (within : k + 1 ≤ rounds last) :
    1 + UInt64.ofNat k ≤ last := by
  have size := last.toNat_lt
  unfold rounds counterValues at within
  split at within
  · rename_i full
    have most := (1 + UInt64.ofNat k).toNat_lt
    exact UInt64.le_iff_toNat_le.mpr (by omega)
  · refine UInt64.le_iff_toNat_le.mpr ?_
    rw [blockToNat (show k + 1 < 2^64 by omega)]
    exact within

theorem roundsOfInside {last : UInt64} {k : Nat} (room : k < counterValues)
    (inside : ∀ j, j ≤ k → 1 + UInt64.ofNat j ≤ last) : k + 1 ≤ rounds last := by
  have size := last.toNat_lt
  unfold rounds counterValues at *
  split
  · omega
  · rename_i short
    by_contra beyond
    have met := UInt64.le_iff_toNat_le.mp (inside last.toNat (by omega))
    rw [blockToNat (show last.toNat + 1 < 2^64 by omega)] at met
    omega

theorem metReads {sys db draws k} :
    Reads sys db (fun n => draws (n + 2)) 1 k ↔ Met sys db draws (k + 1) := by
  have name : 1 + UInt64.ofNat k = UInt64.ofNat (k + 1) := by
    rw [UInt64.ofNat_add,UInt64.add_comm]
    rfl
  rw [Reads,Met,name]

theorem getBlocksFalse {sys chain blocks dir draws after t}
    (h : getBlocks sys chain blocks (start dir draws) = (.done (false,after),t)) :
    after = blocks ∨ ∃ db header l, Begun sys chain.path dir draws db header ∧ after = blocks ++ l ∧
      l.length < counterValues ∧
      StopsAt sys db header.index (fun n => draws (n + 2)) 1 l.length := by
  unfold getBlocks at h
  rw [Exec.attemptMap] at h
  generalize ran : (Storage.session Storage.open chain.path fun storage => do
    let header ← getHeaderFrom sys storage
    getBlocksLoop sys storage header.index counterValues 1 blocks) (start dir draws) = r at h
  obtain ⟨result | _ | e,u⟩ := r
  · cases h
    refine Or.inr ?_
    have opens : (draws 0).ok .database = true := by
      rw [Storage.openSession] at ran
      split at ran
      · assumption
      · cases ran
    rcases Storage.openSessionCases ran with ⟨absent,_⟩ | ⟨db,v,here,_,run,rfl⟩
    · cases absent
    · obtain ⟨header,x,got,loop⟩ := Exec.bindDone.mp run
      have inside : (Storage.within chain.path (start dir draws)).directory chain.path = some db := here
      obtain ⟨finds,supported,rfl⟩ := (headerFromExact inside).mp got
      obtain ⟨l,rfl,room,stops⟩ :=
        loopFalse (w := (Storage.within chain.path (start dir draws)).spend) here loop
      exact ⟨db,header,l,⟨here,opens,finds,supported⟩,rfl,room,stops⟩
  · cases h
    exact Or.inl rfl
  · cases h

theorem getBlocksStops {sys chain dir draws db header k} (blocks : List Block)
    (begun : Begun sys chain.path dir draws db header) (room : k < counterValues)
    (stops : StopsAt sys db header.index (fun n => draws (n + 2)) 1 k) :
    ∃ l t, getBlocks sys chain blocks (start dir draws) = (.done (false,blocks ++ l),t) ∧
      l.length = k := by
  obtain ⟨here,opens,finds,supported⟩ := begun
  have inside : (Storage.within chain.path (start dir draws)).directory chain.path = some db := here
  have got := (headerFromExact inside).mpr ⟨finds,supported,rfl⟩
  obtain ⟨l,t,loop,length⟩ := loopStops blocks
    (w := (Storage.within chain.path (start dir draws)).spend) here room stops
  have body := (Exec.bindOfDone (f := fun header =>
    getBlocksLoop sys ⟨chain.path,true⟩ header.index counterValues 1 blocks) got).trans loop
  have found : chain.path ∉ (start dir draws).opened ∧ (start dir draws).directory chain.path ≠ none :=
    ⟨by simp [start],by simp [start,here]⟩
  have session : Storage.session Storage.open chain.path (fun storage => do
      let header ← getHeaderFrom sys storage
      getBlocksLoop sys storage header.index counterValues 1 blocks) (start dir draws) =
        (.done (false,blocks ++ l),DB.unlock chain.path t) := by
    rw [Storage.openSession]
    exact (if_pos opens).trans ((if_pos found).trans (Exec.ensuringApply.mpr ⟨t,body,rfl⟩))
  refine ⟨l,DB.unlock chain.path t,?_,length⟩
  unfold getBlocks
  rw [Exec.attemptMap,session]
  rfl

theorem firstUnmet {sys db draws k} (unmet : ¬ Met sys db draws (k + 1)) :
    ∃ least, ¬ Met sys db draws (least + 1) ∧ (∀ j, j < least → Met sys db draws (j + 1)) ∧ least ≤ k := by
  classical
  have some : ∃ k, ¬ Met sys db draws (k + 1) := ⟨k,unmet⟩
  exact ⟨Nat.find some,Nat.find_spec some,fun j below => not_not.mp (Nat.find_min some below),
    Nat.find_min' some unmet⟩

theorem changedByFailure {sys chain blocks dir draws} :
    (∃ after t, getBlocks sys chain blocks (start dir draws) = (.done (false,after),t) ∧
      after ≠ blocks) ↔ StopsMidway sys chain.path dir draws := by
  constructor
  · rintro ⟨after,t,run,changed⟩
    obtain ⟨db,header,l,begun,rfl,room,stops⟩ := (getBlocksFalse run).resolve_left changed
    have filled : l ≠ [] := fun empty => changed (by rw [empty,List.append_nil])
    have positive := List.length_pos_iff.mpr filled
    refine ⟨db,header,begun,metReads.mp (stops.reads 0 positive),l.length + 1,by omega,
      roundsOfInside room stops.inside,fun met => stops.broken (metReads.mpr met)⟩
  · rintro ⟨db,header,begun,first,i,second,within,unmet⟩
    obtain ⟨k,broken,reads,below⟩ := firstUnmet (k := i - 1) (by rwa [Nat.sub_add_cancel (by omega)])
    have bounded := roundsBounded header.index
    have later : k ≠ 0 := fun zero => broken (by rwa [zero])
    have stops : StopsAt sys db header.index (fun n => draws (n + 2)) 1 k :=
      ⟨fun j inside => insideOfRounds (by omega),fun j inside => metReads.mpr (reads j inside),
        fun met => broken (metReads.mp met)⟩
    obtain ⟨l,t,run,length⟩ := getBlocksStops blocks begun (by omega) stops
    refine ⟨blocks ++ l,t,run,fun same => later ?_⟩
    have none : l = [] := by simpa using same
    rw [← length,none,List.length_nil]

theorem getBlockClean {sys chain w o t db header block} {i : UInt64}
    (here : w.directory chain.path = some db) (free : chain.path ∉ w.opened)
    (supported : Supported sys db header) (low : 1 ≤ i) (high : i ≤ header.index)
    (stored : storedBlock sys db i = some block) (run : getBlock sys chain i w = (o,t))
    (clean : t.failed = false) : o = .done block := by
  cases o with
  | done found =>
    obtain ⟨other,_,again,_,_,_,read⟩ := getBlockDone run
    cases here.symm.trans again
    cases stored.symm.trans read
    rfl
  | absent =>
    rcases getBlockAbsent run with failed | locked | nothing
    · exact absurd failed (by simp [clean])
    · exact absurd locked free
    · have positive : i ≠ 0 := fun zero => absurd low (by rw [zero]; decide)
      cases (nothing db here header supported positive high).symm.trans stored
  | halt e => exact absurd run ((getBlockSteady sys chain i).total w e t)

theorem consecutiveOf {sys db} {last : UInt64}
    (covers : ∀ i, 1 ≤ i → i ≤ last → ∃ block, storedBlock sys db i = some block) :
    ∃ blocks, blocks.length = last.toNat ∧ Consecutive sys db 1 blocks := by
  have each : ∀ k : Fin last.toNat, ∃ block, storedBlock sys db (1 + UInt64.ofNat k) = some block := by
    intro k
    have size := last.toNat_lt
    have bound := k.isLt
    have one : (1 : UInt64).toNat = 1 := rfl
    have value : (1 + UInt64.ofNat k).toNat = k + 1 := blockToNat (show k.val + 1 < 2^64 by omega)
    exact covers _ (UInt64.le_iff_toNat_le.mpr (by omega)) (UInt64.le_iff_toNat_le.mpr (by omega))
  choose block found using each
  refine ⟨List.ofFn block,List.length_ofFn,fun k b listed => ?_⟩
  obtain ⟨inside,rfl⟩ := List.getElem?_eq_some_iff.mp listed
  rw [List.getElem_ofFn]
  exact found ⟨k,by simpa using inside⟩

theorem listedOf {sys chain dir draws db header blocks t} (here : dir chain.path = some db)
    (stored : storedHeader sys db = some header)
    (run : getBlocks sys chain [] (start dir draws) = (.done (true,blocks),t)) :
    Supported sys db header ∧ blocks.length = header.index.toNat ∧ Consecutive sys db 1 blocks := by
  obtain ⟨other,_,l,again,supported,_,length,consecutive,rfl⟩ := getBlocksDone run
  cases here.symm.trans again
  cases stored.symm.trans supported.stored
  exact ⟨supported,length,consecutive⟩

theorem listedRead {sys chain dir draws db header} {blocks : List Block} {i : UInt64}
    (here : dir chain.path = some db) (supported : Supported sys db header)
    (length : blocks.length = header.index.toNat) (consecutive : Consecutive sys db 1 blocks)
    (low : 1 ≤ i) (high : i ≤ header.index)
    (clean : (getBlock sys chain i (start dir draws)).2.failed = false) :
    ∃ block t, blocks[i.toNat - 1]? = some block ∧
      getBlock sys chain i (start dir draws) = (.done block,t) := by
  obtain ⟨block,listed,own⟩ := consecutiveAt consecutive length low high
  rcases run : getBlock sys chain i (start dir draws) with ⟨o,t⟩
  rw [run] at clean
  cases getBlockClean here (by simp [start]) supported low high own run clean
  exact ⟨block,t,listed,rfl⟩

theorem getBlockOutside {sys chain dir draws} {i : UInt64}
    (outside : i = 0 ∨ ∃ db header, dir chain.path = some db ∧ storedHeader sys db = some header ∧
      header.index < i) : ∃ t, getBlock sys chain i (start dir draws) = (.absent,t) := by
  rcases run : getBlock sys chain i (start dir draws) with ⟨block | _ | e,t⟩
  · obtain ⟨db,header,here,supported,positive,inside,_⟩ := getBlockDone run
    rcases outside with zero | ⟨db',header',here',stored,above⟩
    · exact absurd zero positive
    · cases here.symm.trans here'
      cases supported.stored.symm.trans stored
      exact absurd above (UInt64.not_lt.mpr inside)
  · exact ⟨t,rfl⟩
  · exact absurd run ((getBlockSteady sys chain i).total _ e t)

theorem readPathsAgree (sys : Platform) (chain : Chain) (dir : Directory) :
    (∀ (db : Database) (header : Header) (all : Draws) (points : UInt64 → Draws),
      dir chain.path = some db → storedHeader sys db = some header → header.index.toNat < 2^64 - 1 →
      (getBlocks sys chain [] (start dir all)).2.failed = false →
      (∀ i, 1 ≤ i → i ≤ header.index →
        (getBlock sys chain i (start dir (points i))).2.failed = false) →
      ((∃ blocks t, getBlocks sys chain [] (start dir all) = (.done (true,blocks),t)) ↔
        Supported sys db header ∧ ∀ i, 1 ≤ i → i ≤ header.index →
          ∃ block t, getBlock sys chain i (start dir (points i)) = (.done block,t)) ∧
      ∀ blocks t, getBlocks sys chain [] (start dir all) = (.done (true,blocks),t) →
        blocks.length = header.index.toNat ∧ ∀ i, 1 ≤ i → i ≤ header.index →
          ∃ block t, blocks[i.toNat - 1]? = some block ∧
            getBlock sys chain i (start dir (points i)) = (.done block,t)) ∧
    (∀ i draws, (i = 0 ∨ ∃ db header, dir chain.path = some db ∧ storedHeader sys db = some header ∧
      header.index < i) → ∃ t, getBlock sys chain i (start dir draws) = (.absent,t)) := by
  constructor
  · intro db header all points here stored below clean cleanAt
    have found : (start dir all).directory chain.path = some db := here
    have free : chain.path ∉ (start dir all).opened := by simp [start]
    refine ⟨⟨?_,?_⟩,?_⟩
    · rintro ⟨blocks,t,run⟩
      obtain ⟨supported,length,consecutive⟩ := listedOf here stored run
      refine ⟨supported,fun i low high => ?_⟩
      obtain ⟨block,u,_,done⟩ := listedRead here supported length consecutive low high
        (cleanAt i low high)
      exact ⟨block,u,done⟩
    · rintro ⟨supported,each⟩
      obtain ⟨blocks,length,consecutive⟩ := @consecutiveOf sys db header.index fun i low high => by
        obtain ⟨block,t,run⟩ := each i low high
        obtain ⟨other,_,again,_,_,_,read⟩ := getBlockDone run
        cases here.symm.trans again
        exact ⟨block,read⟩
      rcases run : getBlocks sys chain [] (start dir all) with ⟨o,t⟩
      rw [run] at clean
      cases getBlocksClean found free supported (by omega) length consecutive run clean
      exact ⟨_,t,rfl⟩
    · intro blocks t run
      obtain ⟨supported,length,consecutive⟩ := listedOf here stored run
      exact ⟨length,fun i low high =>
        listedRead here supported length consecutive low high (cleanAt i low high)⟩
  · exact fun i draws outside => getBlockOutside outside

theorem firstTwo {i : UInt64} (low : 1 ≤ i) (high : i ≤ 2) : i = 1 ∨ i = 2 := by
  have least : 1 ≤ i.toNat := UInt64.le_iff_toNat_le.mp low
  have most : i.toNat ≤ 2 := UInt64.le_iff_toNat_le.mp high
  by_cases one : i.toNat = 1
  · exact Or.inl (UInt64.toNat_inj.mp one)
  · exact Or.inr (UInt64.toNat_inj.mp (by change i.toNat = 2; omega))

theorem sampleReadsAgree :
    (∃ blocks t, getBlocks Sample.platform (Manager.chain ⟨[]⟩ 1) []
        (start (Manager.pairDirectory Manager.sampleBlock) (Sample.steady 1)) =
          (.done (true,blocks),t) ∧
      blocks.length = 2 ∧ ∀ i, 1 ≤ i → i ≤ 2 → ∃ block u, blocks[i.toNat - 1]? = some block ∧
        getBlock Sample.platform (Manager.chain ⟨[]⟩ 1) i
          (start (Manager.pairDirectory Manager.sampleBlock) (Sample.steady 1)) = (.done block,u)) ∧
    ∃ t, getBlock Sample.platform (Manager.chain ⟨[]⟩ 1) 3
      (start (Manager.pairDirectory Manager.sampleBlock) (Sample.steady 1)) = (.absent,t) := by
  have agree := readPathsAgree Sample.platform (Manager.chain ⟨[]⟩ 1)
    (Manager.pairDirectory Manager.sampleBlock)
  have here : Manager.pairDirectory Manager.sampleBlock (Manager.chain ⟨[]⟩ 1).path =
    some (Manager.pairDatabase Manager.sampleBlock) := Function.update_self ..
  have stored : storedHeader Sample.platform (Manager.pairDatabase Manager.sampleBlock) =
    some Manager.pairHeader := by decide +kernel
  obtain ⟨both,listed⟩ := agree.1 _ _ (Sample.steady 1) (fun _ => Sample.steady 1) here stored
    (by decide) (by decide +kernel) fun i low high => by
      cases firstTwo low high with
      | inl one => subst one; decide +kernel
      | inr two => subst two; decide +kernel
  obtain ⟨blocks,t,run⟩ := both.mpr ⟨⟨stored,rfl⟩,fun i low high => by
    cases firstTwo low high with
    | inl one => subst one; exact ⟨Manager.sampleBlock,_,Exec.outcomeApply (by decide +kernel)⟩
    | inr two => subst two; exact ⟨Manager.secondBlock,_,Exec.outcomeApply (by decide +kernel)⟩⟩
  exact ⟨⟨blocks,t,run,listed blocks t run⟩,agree.2 3 _ (Or.inr ⟨_,_,here,stored,by decide⟩)⟩

end Chain

namespace Manager

theorem failedReadKeepsVector (sys : Platform) (manager : Manager) (chainId : UInt64)
    (dir : Directory) (draws : Draws) (blocks : List Block) :
    ((∀ after t, getBlocks sys manager chainId blocks (start dir draws) = (.done (false,after),t) →
        after = blocks) ∧
      (∀ after t, getBlocks sys manager chainId blocks (start dir draws) = (.done (true,after),t) →
        ∃ db header l, dir (manager.makeStoragePath chainId) = some db ∧
          Chain.Supported sys db header ∧ l.length = header.index.toNat ∧
          Chain.Consecutive sys db 1 l ∧ after = blocks ++ l)) ↔
      ¬ Chain.StopsMidway sys (manager.makeStoragePath chainId) dir draws := by
  have changed := @Chain.changedByFailure sys (manager.chain chainId) blocks dir draws
  constructor
  · rintro ⟨kept,_⟩ midway
    obtain ⟨after,t,run,differs⟩ := changed.mpr midway
    exact differs (kept after t run)
  · intro never
    constructor
    · intro after t run
      by_contra differs
      exact never (changed.mp ⟨after,t,run,differs⟩)
    · intro after t run
      obtain ⟨db,header,l,here,supported,_,length,consecutive,rfl⟩ := Chain.getBlocksDone run
      exact ⟨db,header,l,here,supported,length,consecutive,rfl⟩

def gapDatabase : Database :=
  DB.applyBatch [(DB_HEADER_KEY,Sample.platform.header.encode (sampleHeader.setIndex 2).message),
    (Chain.makeBlockName 1,Sample.platform.block.encode sampleBlock.message)] ∅

def gapDirectory : Directory :=
  Function.update emptyDirectory (makeStoragePath ⟨[]⟩ 1) (some gapDatabase)

theorem failedReadFillsVector :
    ¬ ∀ after t, getBlocks Sample.platform ⟨[]⟩ 1 [] (start gapDirectory (Sample.steady 1)) =
      (.done (false,after),t) → after = [] := by
  intro kept
  have filled := kept [sampleBlock] _ (Exec.outcomeApply (by decide +kernel))
  cases filled

end Manager
end ChainDB
