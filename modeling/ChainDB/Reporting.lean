import ChainDB.Prompt

/-! `verifyChain` call by call: which primitive calls come before the body hash of each block, and what
becomes of a run in which that hash is missing. -/
namespace ChainDB
open Effects HashChain

theorem worksThrough {kind : Primitive} {draws : Draws} {n m : Nat}
    (early : ∀ j < n, (draws j).ok kind = true) (late : ∀ j < m, (draws (j + n)).ok kind = true) :
    ∀ j < n + m, (draws j).ok kind = true := by
  intro j below
  rcases Nat.lt_or_ge j n with before | behind
  · exact early j before
  · have worked := late (j - n) (by omega)
    simpa only [Nat.sub_add_cancel behind] using worked

namespace Manager

theorem bodyTakes (sys : Platform) (prevHash : Hash) (block : Block) :
    Takes .hash 5 [bodyText prevHash block] (sys.sha256 (bodyText prevHash block))
      (SHA256.getHash sys [prevHash.bytes,block.nonce.bytes,block.data]) := by
  rw [← bodyFlatten]
  exact SHA256.hashTakes sys [prevHash.bytes,block.nonce.bytes,block.data]

theorem blockTakes (sys : Platform) (prevHash : Hash) (block : Block) :
    Takes .hash 6 [blockText prevHash block] (sys.sha256 (blockText prevHash block))
      (SHA256.getHash sys [prevHash.bytes,block.nonce.bytes,block.data,block.signature.bytes]) := by
  rw [← blockFlatten]
  exact SHA256.hashTakes sys [prevHash.bytes,block.nonce.bytes,block.data,block.signature.bytes]

def priorCalls : Option Block → Nat
  | none => 8
  | some _ => 0

theorem priorTakes (sys : Platform) (header : Header) (last : Option Block) : ∃ log,
    Takes .hash (priorCalls last) log (priorValue sys header last) (priorHash sys header last) := by
  cases last with
  | none =>
    obtain ⟨hash,value,takes⟩ := SHA256.hashNTakes sys
      [header.data,header.privateKey.bytes,header.publicKey.bytes] 2
    rw [genesisFlatten] at value takes
    have same : hash = sys.genesis header := Data.eqOfBytes value
    rw [same] at takes
    exact ⟨_,takes⟩
  | some block => exact ⟨[],takesPure block.hash⟩

theorem verifyBlockLater {sys header prevHash block w}
    (sealed : sys.Sealed header.publicKey prevHash block)
    (works : ∀ j < 11, (w.draws j).ok .hash = true) :
    verifyBlock sys header prevHash block w =
      (.done (),w.later 11 [bodyText prevHash block,blockText prevHash block]) := by
  have body := (bodyTakes sys prevHash block).succeeds w fun j below => works j (by omega)
  have whole := (blockTakes sys prevHash block).succeeds (w.later 5 [bodyText prevHash block])
    fun j below => works (j + 5) (by omega)
  unfold verifyBlock
  rw [Exec.bindOfDone (Exec.attemptSome.mpr body),
    Exec.bindOfDone (Secp256k1.verifySignatureHolds sealed.1 _),Exec.bindOfDone whole,laterLater]
  exact Exec.checkDone.mpr ⟨sealed.2,rfl⟩

theorem verifyBlockWorked {sys header prevHash block w u t}
    (h : verifyBlock sys header prevHash block w = (.done u,t)) :
    ∀ j < 11, (w.draws j).ok .hash = true := by
  simp only [verifyBlock,Exec.bindDone] at h
  obtain ⟨bodyHash,a,body,_,b,verified,hash,c,whole,_⟩ := h
  obtain ⟨value,rfl,_,rfl⟩ := Secp256k1.verifySignatureDone verified
  rcases (bodyTakes sys prevHash block).cases w with ⟨first,run⟩ | ⟨_,t,run,_⟩
  · cases run.symm.trans (Exec.attemptSome.mp body)
    rcases (blockTakes sys prevHash block).cases (w.later 5 _) with ⟨second,_⟩ | ⟨_,t,run,_⟩
    · exact worksThrough first second
    · cases run.symm.trans whole
  · cases run.symm.trans (Exec.attemptSome.mp body)

theorem verifyBlockReads {sys header prevHash block w} :
    (∃ t, verifyBlock sys header prevHash block w = (.halt .nullDereference,t)) ↔
      (∃ j < 5, (w.draws j).ok .hash = false) ∧ sys.Parses header.publicKey block.signature := by
  unfold verifyBlock
  rcases (bodyTakes sys prevHash block).cases w with ⟨works,body⟩ | ⟨broken,u,body,_⟩
  · rw [Exec.bindOfDone (Exec.attemptSome.mpr body)]
    constructor
    · rintro ⟨t,halt⟩
      rcases Exec.bindHalt.mp halt with null | ⟨_,b,_,rest⟩
      · cases (Secp256k1.verifySignatureHalt null).1
      · rcases Exec.bindHalt.mp rest with whole | ⟨_,c,_,last⟩
        · exact absurd whole ((SHA256.hashTame sys _).total _ _ _)
        · exact absurd last (Exec.totalCheck _ _ _ _)
    · rintro ⟨⟨j,below,broken⟩,_⟩
      cases (works j below).symm.trans broken
  · rw [Exec.bindOfDone (Exec.attemptNone.mpr body)]
    constructor
    · rintro ⟨t,halt⟩
      refine ⟨broken,?_⟩
      by_contra unparsed
      cases (Exec.bindOfAbsent (verifySignatureStops unparsed u)).symm.trans halt
    · rintro ⟨_,parses⟩
      exact ⟨u,Exec.bindOfHalt (verifySignatureReads parses u)⟩

/- The check comes to the body hash of the block at `k`, and one of its calls fails. -/
structure Missing (sys : Platform) (header : Header) (last : Option Block) (blocks : List Block)
    (draws : Draws) (k : Nat) (block : Block) : Prop where
  listed : blocks[k]? = some block
  hashes : ∀ j < priorCalls last + 11 * k, (draws j).ok .hash = true
  linked : Linked Block.hash (sys.Sealed header.publicKey) (priorValue sys header last) (blocks.take k)
  broken : ∃ j < 5, (draws (j + (priorCalls last + 11 * k))).ok .hash = false
  parses : sys.Parses header.publicKey block.signature

theorem missingNext {sys header last blocks draws k block} {first : Block} :
    Missing sys header last (first :: blocks) draws (k + 1) block ↔
      (∀ j < priorCalls last + 11, (draws j).ok .hash = true) ∧
      sys.Sealed header.publicKey (priorValue sys header last) first ∧
      Missing sys header (some first) blocks (fun j => draws (j + (priorCalls last + 11))) k block := by
  have none : priorCalls (some first) = 0 := rfl
  have place : ∀ j, j + (priorCalls (some first) + 11 * k) + (priorCalls last + 11) =
      j + (priorCalls last + 11 * (k + 1)) := by
    intro j
    omega
  constructor
  · rintro ⟨listed,hashes,⟨sealed,linked⟩,⟨j,below,broken⟩,parses⟩
    refine ⟨fun j inside => hashes j (by omega),sealed,⟨by simpa using listed,?_,linked,?_,parses⟩⟩
    · intro j inside
      exact hashes _ (by omega)
    · exact ⟨j,below,by simpa only [place] using broken⟩
  · rintro ⟨works,sealed,⟨listed,hashes,linked,⟨j,below,broken⟩,parses⟩⟩
    refine ⟨by simpa using listed,?_,⟨sealed,linked⟩,?_,parses⟩
    · intro j inside
      exact worksThrough works hashes j (by omega)
    · exact ⟨j,below,by simpa only [place] using broken⟩

theorem verifyBlocksReads {sys header last blocks w} :
    (∃ t, verifyBlocks sys header last blocks w = (.halt .nullDereference,t)) ↔
      ∃ k block, Missing sys header last blocks w.draws k block := by
  induction blocks generalizing last w with
  | nil =>
    constructor
    · rintro ⟨t,halt⟩
      cases halt
    · rintro ⟨k,block,missing⟩
      cases missing.listed
  | cons block rest ih =>
    obtain ⟨log,prior⟩ := priorTakes sys header last
    unfold verifyBlocks
    constructor
    · rintro ⟨t,halt⟩
      rcases prior.cases w with ⟨works,run⟩ | ⟨_,u,run,_⟩
      · rw [Exec.bindOfDone run] at halt
        rcases Exec.bindHalt.mp halt with null | ⟨_,b,checked,more⟩
        · obtain ⟨⟨j,below,broken⟩,parses⟩ := verifyBlockReads.mp ⟨t,null⟩
          exact ⟨0,block,rfl,works,trivial,⟨j,below,broken⟩,parses⟩
        · have calls := verifyBlockWorked checked
          have sealed := (verifyBlockDone checked).1
          cases (verifyBlockLater sealed calls).symm.trans checked
          rw [laterLater] at more
          obtain ⟨k,other,missing⟩ := ih.mp ⟨t,more⟩
          exact ⟨k + 1,other,missingNext.mpr ⟨worksThrough works calls,sealed,missing⟩⟩
      · cases (Exec.bindOfAbsent run).symm.trans halt
    · rintro ⟨k,other,missing⟩
      have first := prior.succeeds w fun j below => missing.hashes j (by omega)
      rw [Exec.bindOfDone first]
      cases k with
      | zero =>
        cases missing.listed
        obtain ⟨j,below,broken⟩ := missing.broken
        obtain ⟨t,null⟩ := (@verifyBlockReads sys header (priorValue sys header last) block
          (w.later (priorCalls last) log)).mpr ⟨⟨j,below,broken⟩,missing.parses⟩
        exact ⟨t,Exec.bindOfHalt null⟩
      | succ k =>
        obtain ⟨works,sealed,later⟩ := missingNext.mp missing
        have checked := verifyBlockLater (w := w.later (priorCalls last) log) sealed
          fun j below => works (j + priorCalls last) (by omega)
        rw [Exec.bindOfDone checked,laterLater]
        exact ih.mpr ⟨k,other,later⟩

end Manager

namespace Storage

theorem laterUnlock {n : Nat} (path : Path) (w : World) :
    DB.unlock path ((within path w).later n []) = w.later (n + 1) [] := by
  simp [DB.unlock,within,DB.lock,World.spend,World.later,Nat.add_assoc]

theorem openLater {α : Type} {path : Path} {body : Storage → Action α} {w : World} {db : Database}
    {n : Nat} {a : α} (here : w.directory path = some db) (free : path ∉ w.opened)
    (opens : (w.draws 0).ok .database = true)
    (run : body ⟨path,true⟩ (within path w) = (.done a,(within path w).later n [])) :
    session Storage.open path body w = (.done a,w.later (n + 1) []) := by
  rw [openSession,if_pos opens,if_pos ⟨free,by simp [here]⟩]
  exact Exec.ensuringApply.mpr ⟨_,run,laterUnlock path w⟩

theorem openWorked {α : Type} {path : Path} {body : Storage → Action α} {w t : World} {a : α}
    (h : session Storage.open path body w = (.done a,t)) :
    (w.draws 0).ok .database = true ∧ ∃ db u, w.directory path = some db ∧
      body ⟨path,true⟩ (within path w) = (.done a,u) := by
  constructor
  · rw [openSession] at h
    split at h
    · assumption
    · cases h
  · rcases openSessionCases h with ⟨absent,_⟩ | ⟨db,u,here,_,run,_⟩
    · cases absent
    · exact ⟨db,u,here,run⟩

end Storage

namespace Chain

theorem getHeaderLater {sys chain db header} {w : World} (here : w.directory chain.path = some db)
    (free : chain.path ∉ w.opened) (stored : storedHeader sys db = some header)
    (works : ∀ j < 2, (w.draws j).ok .database = true) :
    getHeader sys chain w = (.done header,w.later 2 []) := by
  refine Storage.openLater here free (works 0 (by decide)) ?_
  obtain ⟨value,found,unpacked⟩ := Option.bind_eq_some_iff.mp stored
  have finds : ((Storage.within chain.path w).draws 0).ok .database = true := works 1 (by decide)
  have inside : (Storage.within chain.path w).directory chain.path = some db := here
  have got : Storage.get ⟨chain.path,true⟩ DB_HEADER_KEY (Storage.within chain.path w) =
      (.done value,(Storage.within chain.path w).spend) := by
    simp only [Storage.getApply,if_pos finds,inside,Option.bind_some,found]
    rfl
  rw [Exec.bindOfDone got,← spendLater]
  exact Exec.ofOptionDone.mpr ⟨unpacked,rfl⟩

theorem getHeaderWorked {sys chain header} {w t : World} (h : getHeader sys chain w = (.done header,t)) :
    ∀ j < 2, (w.draws j).ok .database = true := by
  obtain ⟨opens,db,u,_,run⟩ := Storage.openWorked h
  obtain ⟨value,v,got,_⟩ := Exec.bindDone.mp run
  intro j below
  cases j with
  | zero => exact opens
  | succ j =>
    obtain rfl : j = 0 := by omega
    rw [Storage.getApply] at got
    split at got
    · assumption
    · cases got

theorem consecutiveHead {sys db i block blocks} (stored : Consecutive sys db i (block :: blocks)) :
    storedBlock sys db i = some block ∧ Consecutive sys db (i + 1) blocks := by
  have first : i + UInt64.ofNat 0 = i := UInt64.add_zero i
  refine ⟨?_,fun k b found => ?_⟩
  · simpa only [first] using stored 0 block rfl
  · rw [← counterNext]
    exact stored (k + 1) b (by simpa using found)

theorem loopLater {sys path db last rounds i} {w : World} {l blocks : List Block}
    (here : w.directory path = some db) (stored : Consecutive sys db i l)
    (ends : i.toNat + l.length = last.toNat + 1) (bounded : last.toNat + 1 < 2^64)
    (room : l.length < rounds) (works : ∀ j < l.length, (w.draws j).ok .database = true) :
    getBlocksLoop sys ⟨path,true⟩ last rounds i blocks w =
      (.done (true,blocks ++ l),w.later l.length []) := by
  induction l generalizing rounds i blocks w with
  | nil =>
    obtain ⟨rounds,rfl⟩ := Nat.exists_eq_succ_of_ne_zero (Nat.ne_zero_of_lt room)
    have outside : ¬ i ≤ last := fun inside => by
      have le := UInt64.le_iff_toNat_le.mp inside
      simp only [List.length_nil] at ends
      omega
    unfold getBlocksLoop
    rw [if_neg outside,List.append_nil,List.length_nil,laterNone]
    rfl
  | cons block rest ih =>
    obtain ⟨rounds,rfl⟩ := Nat.exists_eq_succ_of_ne_zero (Nat.ne_zero_of_lt room)
    simp only [List.length_cons] at ends room works ⊢
    have inside : i ≤ last := UInt64.le_iff_toNat_le.mpr (by omega)
    obtain ⟨head,tail⟩ := consecutiveHead stored
    have read := (blockFromExact here).mpr ⟨works 0 (by omega),head,rfl⟩
    have next := counterSucc (i := i) (by omega)
    unfold getBlocksLoop
    rw [if_pos inside,Exec.bindOfDone (Exec.attemptSome.mpr read)]
    refine (@ih rounds (i + 1) w.spend (blocks ++ [block]) here tail (by omega) (by omega)
      fun j below => works (j + 1) (by omega)).trans ?_
    rw [spendLater,laterLater,List.append_assoc,Nat.add_comm]
    rfl

theorem loopWorked {sys path db last rounds i} {w t : World} {blocks after : List Block}
    (here : w.directory path = some db)
    (h : getBlocksLoop sys ⟨path,true⟩ last rounds i blocks w = (.done (true,after),t)) :
    ∃ l, after = blocks ++ l ∧ ∀ j < l.length, (w.draws j).ok .database = true := by
  induction rounds generalizing i blocks w with
  | zero => cases h
  | succ rounds ih =>
    unfold getBlocksLoop at h
    split at h
    · rcases Exec.attemptBindDone.mp h with ⟨block,u,read,rest⟩ | ⟨u,_,rest⟩
      · obtain ⟨works,_,rfl⟩ := (blockFromExact here).mp read
        obtain ⟨l,rfl,later⟩ := @ih (i + 1) w.spend _ here rest
        refine ⟨block :: l,by simp,fun j below => ?_⟩
        cases j with
        | zero => exact works
        | succ j => exact later j (by simpa using below)
      · cases rest
    · cases h
      exact ⟨[],by simp,fun j below => absurd below (Nat.not_lt_zero j)⟩

theorem getBlocksLater {sys chain db header} {w : World} {blocks : List Block}
    (here : w.directory chain.path = some db) (free : chain.path ∉ w.opened)
    (supported : Supported sys db header) (bounded : header.index.toNat + 1 < 2^64)
    (length : blocks.length = header.index.toNat) (stored : Consecutive sys db 1 blocks)
    (works : ∀ j < blocks.length + 2, (w.draws j).ok .database = true) :
    getBlocks sys chain [] w = (.done (true,blocks),w.later (blocks.length + 2) []) := by
  have inside : (Storage.within chain.path w).directory chain.path = some db := here
  have got := (headerFromExact inside).mpr ⟨works 1 (by omega),supported,rfl⟩
  have one : (1 : UInt64).toNat = 1 := rfl
  have loop := @loopLater sys chain.path db header.index counterValues 1
    (Storage.within chain.path w).spend blocks [] here stored (by omega) bounded
    (by unfold counterValues; omega) fun j below => works (j + 2) (by omega)
  have session := @Storage.openLater _ chain.path (fun storage => do
      let header ← getHeaderFrom sys storage
      getBlocksLoop sys storage header.index counterValues 1 []) w db (blocks.length + 1) (true,blocks)
    here free (works 0 (by omega)) (by
      rw [Exec.bindOfDone got,loop,spendLater,laterLater,Nat.add_comm]
      rfl)
  unfold getBlocks
  rw [Exec.attemptMap,session]
  rfl

theorem getBlocksWorked {sys chain} {w t : World} {blocks : List Block}
    (h : getBlocks sys chain [] w = (.done (true,blocks),t)) :
    ∀ j < blocks.length + 2, (w.draws j).ok .database = true := by
  unfold getBlocks at h
  rcases Exec.attemptBindDone.mp h with ⟨result,u,run,last⟩ | ⟨u,_,last⟩
  · cases last
    obtain ⟨opens,db,v,here,body⟩ := Storage.openWorked run
    obtain ⟨header,x,got,loop⟩ := Exec.bindDone.mp body
    have inside : (Storage.within chain.path w).directory chain.path = some db := here
    obtain ⟨finds,_,rfl⟩ := (headerFromExact inside).mp got
    obtain ⟨l,rfl,reads⟩ := @loopWorked sys chain.path db _ _ _
      (Storage.within chain.path w).spend _ _ _ here loop
    intro j below
    cases j with
    | zero => exact opens
    | succ j =>
      cases j with
      | zero => exact finds
      | succ j => exact reads j (by simpa using below)
  · cases last

end Chain

namespace Manager

/- Every read of `verifyChain` succeeds: it has its header and all the blocks. -/
structure Listed (sys : Platform) (path : Path) (dir : Directory) (draws : Draws) (db : Database)
    (header : Header) (blocks : List Block) : Prop where
  here : dir path = some db
  supported : Chain.Supported sys db header
  bounded : header.index.toNat + 1 < 2^64
  length : blocks.length = header.index.toNat
  stored : Chain.Consecutive sys db 1 blocks
  reads : ∀ j < blocks.length + 4, (draws j).ok .database = true

theorem laterReads {n : Nat} (w : World) : (w.later 2 []).later (n + 2) [] = w.later (n + 4) [] := by
  rw [laterLater,Nat.add_comm 2]
  rfl

theorem verifyChainListed {sys manager chainId dir draws db header blocks}
    (listed : Listed sys (manager.makeStoragePath chainId) dir draws db header blocks) :
    verifyChain sys manager chainId (start dir draws) =
      verifyBlocks sys header none blocks ((start dir draws).later (blocks.length + 4) []) := by
  have got := @Chain.getHeaderLater sys (manager.chain chainId) db header (start dir draws) listed.here
    (by simp [start]) listed.supported.stored fun j below => listed.reads j (by omega)
  have all := @Chain.getBlocksLater sys (manager.chain chainId) db _ ((start dir draws).later 2 [])
    blocks listed.here (by simp [start,World.later]) listed.supported listed.bounded listed.length
    listed.stored fun j below => listed.reads (j + 2) (by omega)
  rw [laterReads] at all
  unfold verifyChain
  rw [Exec.bindOfDone got,Exec.bindOfDone all]
  rfl

theorem listedOfReads {sys} {manager : Manager} {chainId : UInt64} {dir draws header blocks a b}
    (got : (manager.chain chainId).getHeader sys (start dir draws) = (.done header,a))
    (all : (manager.chain chainId).getBlocks sys [] a = (.done (true,blocks),b)) :
    ∃ db, Listed sys (manager.makeStoragePath chainId) dir draws db header blocks := by
  obtain ⟨db,here,stored⟩ := Chain.getHeaderDone got
  have opened := Chain.getHeaderWorked got
  cases (Chain.getHeaderLater here (by simp [start]) stored opened).symm.trans got
  obtain ⟨other,own,l,there,supported,bounded,length,consecutive,rfl⟩ := Chain.getBlocksDone all
  cases here.symm.trans there
  cases stored.symm.trans supported.stored
  have reads := Chain.getBlocksWorked all
  exact ⟨db,here,supported,bounded,length,consecutive,
    fun j below => worksThrough opened reads j (by omega)⟩

def Crashes (sys : Platform) (path : Path) (dir : Directory) (draws : Draws) : Prop :=
  ∃ db header blocks, Listed sys path dir draws db header blocks ∧ ∃ k block,
    Missing sys header none blocks (fun j => draws (j + (blocks.length + 4))) k block

theorem verifyChainReads {sys manager chainId dir draws} :
    (∃ t, verifyChain sys manager chainId (start dir draws) = (.halt .nullDereference,t)) ↔
      Crashes sys (manager.makeStoragePath chainId) dir draws := by
  constructor
  · rintro ⟨t,halt⟩
    have whole := halt
    rcases Exec.bindHalt.mp halt with first | ⟨header,a,got,rest⟩
    · exact absurd first ((Chain.getHeaderSteady sys _).total _ _ _)
    · rcases Exec.bindHalt.mp rest with reading | ⟨⟨complete,blocks⟩,b,all,rest⟩
      · generalize ended : (Outcome.halt .nullDereference : Outcome Halt (Bool × List Block)) = o
          at reading
        cases Chain.getBlocksEnds reading <;> cases ended
      · rcases Exec.bindHalt.mp rest with check | ⟨_,_,agreed,_⟩
        · exact absurd check (Exec.totalCheck _ _ _ _)
        · obtain rfl : complete = true := (Exec.checkDone.mp agreed).1
          obtain ⟨db,listed⟩ := listedOfReads got all
          rw [verifyChainListed listed] at whole
          exact ⟨db,header,blocks,listed,verifyBlocksReads.mp ⟨t,whole⟩⟩
  · rintro ⟨db,header,blocks,listed,missing⟩
    rw [verifyChainListed listed]
    exact verifyBlocksReads.mpr missing

/-- The run reads no missing result, and has no result of its own behind a primitive that failed. -/
structure Reports {α : Type} (m : Action α) (w : World) : Prop where
  sound : ∀ t, m w ≠ (.halt .nullDereference,t)
  reported : (m w).2.failed = true → (m w).1 = .absent

theorem promptReports {α : Type} {m : Action α} (prompt : Prompt m) {w : World}
    (clean : w.failed = false) : Reports m w ↔ ∀ t, m w ≠ (.halt .nullDereference,t) := by
  refine ⟨Reports.sound,fun sound => ⟨sound,fun failed => ?_⟩⟩
  rcases prompt w _ _ rfl failed with before | absent | null
  · cases clean.symm.trans before
  · exact absent
  · exact absurd (Exec.outcomeApply null) (sound _)

theorem failuresReportedExactly (sys : Platform) (manager : Manager) (chainId : UInt64) (data : Bytes)
    (dir : Directory) (draws : Draws) :
    (Reports (createChain sys manager chainId data) (start dir draws) ∧
      Reports (addBlock sys manager chainId data) (start dir draws) ∧
      Reports (verifyChain sys manager chainId) (start dir draws)) ↔
      ¬ Crashes sys (manager.makeStoragePath chainId) dir draws := by
  have created := (promptReports (createChainPrompt sys manager chainId data) rfl).mpr
    fun t => createChainTotal sys manager chainId data (start dir draws) _ t
  have added := (promptReports (addBlockPrompt sys manager chainId data) rfl).mpr
    fun t => addBlockTotal sys manager chainId data (start dir draws) _ t
  rw [promptReports (verifyChainPrompt sys manager chainId) rfl,← verifyChainReads,not_exists]
  exact ⟨fun reports => reports.2.2,fun reports => ⟨created,added,reports⟩⟩

def brokenAt (n : Nat) : Draws := fun k => ⟨fun _ => decide (k ≠ n),fun _ => 0⟩

theorem missingHashRead :
    (∃ t, verifyChain Sample.platform ⟨[]⟩ 1 (start (sampleDirectory sampleBlock) (brokenAt 13)) =
      (.halt .nullDereference,t)) ∧
    ¬ Reports (verifyChain Sample.platform ⟨[]⟩ 1)
      (start (sampleDirectory sampleBlock) (brokenAt 13)) := by
  have halt := @Exec.outcomeApply _ _ _ (verifyChain Sample.platform ⟨[]⟩ 1)
    (start (sampleDirectory sampleBlock) (brokenAt 13)) (.halt .nullDereference) (by decide +kernel)
  exact ⟨⟨_,halt⟩,fun reports => reports.sound _ halt⟩

end Manager
end ChainDB
