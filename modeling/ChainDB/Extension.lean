import ChainDB.Verification

/-! What an append changes, what it needs of a chain that verifies, and what `verifyChain` makes
of a header that counts more or fewer blocks than there are. -/
namespace ChainDB
open Effects HashChain

namespace Chain

theorem verifiedAppend {sys : Platform} (lawfulHeader : sys.header.Lawful)
    (lawfulBlock : sys.block.Lawful) (signatures : sys.SignaturesVerify) {db : Database}
    {header : Header} {blocks : List Block} {block : Block} {prevHash : Hash}
    (verified : Verified sys db header blocks)
    (valid : sys.secp.ecSeckeyVerify header.privateKey = true)
    (paired : sys.publicKeyOf header.privateKey = some header.publicKey)
    (room : header.index.toNat + 2 < 2^64) (back : PointsBack sys db header prevHash)
    (made : sys.Made header.privateKey prevHash block)
    (headerFits : (sys.header.encode (header.setIndex (header.index + 1)).message).length ≤
      maxMessageLength)
    (blockFits : (sys.block.encode block.message).length ≤ maxMessageLength) :
    Verified sys (DB.applyBatch (blockRecords sys header block) db)
      (header.setIndex (header.index + 1)) (blocks ++ [block]) := by
  have next := counterSucc (i := header.index) (by omega)
  have previous : prevHash = tip Block.hash (sys.genesis header) blocks := by
    unfold PointsBack at back
    split at back
    · rename_i zero
      have empty : blocks = [] := List.eq_nil_of_length_eq_zero (by rw [verified.length,zero]; rfl)
      rw [back,empty]
      rfl
    · rename_i positive
      obtain ⟨last,stored,rfl⟩ := back
      exact (consecutiveTip verified.stored verified.length positive stored).symm
  have sealed : sys.Sealed header.publicKey prevHash block :=
    ⟨signatures _ _ _ _ valid paired made.signed,made.hashed⟩
  rw [previous] at sealed
  refine ⟨⟨Ledger.storedHeaderAfter lawfulHeader headerFits,verified.supported.version⟩,?_,?_,?_,?_⟩
  · simp only [Header.setIndex,next]
    omega
  · simp only [Header.setIndex,next,List.length_append,List.length_singleton,verified.length]
  · exact Ledger.consecutiveAppend lawfulBlock verified.stored verified.length blockFits
  · exact (linkedSnoc _ _ _ _ _).mpr ⟨verified.linked,sealed⟩

end Chain

namespace Manager

theorem addBlockChangesItsRecords {sys : Platform} (lawfulHeader : sys.header.Lawful)
    (lawfulBlock : sys.block.Lawful) (manager : Manager) (chainId : UInt64) (data : Bytes)
    (w : World) :
    (∀ t, addBlock sys manager chainId data w = (.absent,t) → t.directory = w.directory) ∧
    (∀ block t, addBlock sys manager chainId data w = (.done block,t) →
      (∀ other, other ≠ manager.makeStoragePath chainId → t.directory other = w.directory other) ∧
      ∃ db db' header, w.directory (manager.makeStoragePath chainId) = some db ∧
        t.directory (manager.makeStoragePath chainId) = some db' ∧
        (∀ key, key ≠ DB_HEADER_KEY → key ≠ Chain.makeBlockName (header.index + 1) →
          db'.lookup key = db.lookup key) ∧
        Chain.storedHeader sys db = some header ∧
        Chain.storedHeader sys db' = some (header.setIndex (header.index + 1)) ∧
        Chain.storedBlock sys db' (header.index + 1) = some block) ∧
    ∀ e t, addBlock sys manager chainId data w ≠ (.halt e,t) := by
  refine ⟨fun t run => (addBlockAbsent run).1.directory,fun block t run => ?_,
    addBlockTotal sys manager chainId data w⟩
  obtain ⟨db,header,_,appended,_⟩ := addBlockDone run
  refine ⟨(updatedConfined appended.toForward appended.directory).elsewhere,db,
    DB.applyBatch (Chain.blockRecords sys header block) db,header,appended.here,?_,?_,
    appended.supported.stored,?_,?_⟩
  · rw [appended.directory,Function.update_self]
  · exact fun key notHeader notBlock => Chain.recordsElsewhere notHeader notBlock
  · exact Ledger.storedHeaderAfter lawfulHeader appended.headerFits
  · exact Ledger.storedBlockAfter lawfulBlock appended.blockFits

def sampleAppend (directory : Directory) (data : Bytes) (draws : Draws) : Outcome Halt Block × World :=
  addBlock Sample.platform ⟨[]⟩ 1 data (start directory draws)

theorem sampleAppended (directory : Directory) (data : Bytes) (draws : Draws)
    (succeeds : (sampleAppend directory data draws).1 ≠ .absent) :
    ∃ block, sampleAppend directory data draws =
      (.done block,(sampleAppend directory data draws).2) := by
  obtain ⟨block,t,run⟩ := (addBlockTotal Sample.platform ⟨[]⟩ 1 data).value fun t absent =>
    succeeds (congrArg Prod.fst absent)
  exact ⟨block,Exec.outcomeApply (congrArg Prod.fst run)⟩

theorem sampleAppendChanges :
    ∃ block db db' header, sampleDirectory sampleBlock (makeStoragePath ⟨[]⟩ 1) = some db ∧
      (sampleAppend (sampleDirectory sampleBlock) (ascii "b") (Sample.steady 2)).2.directory
        (makeStoragePath ⟨[]⟩ 1) = some db' ∧
      (∀ key, key ≠ DB_HEADER_KEY → key ≠ Chain.makeBlockName (header.index + 1) →
        db'.lookup key = db.lookup key) ∧
      Chain.storedHeader Sample.platform db = some header ∧
      Chain.storedHeader Sample.platform db' = some (header.setIndex (header.index + 1)) ∧
      Chain.storedBlock Sample.platform db' (header.index + 1) = some block := by
  obtain ⟨block,run⟩ := sampleAppended (sampleDirectory sampleBlock) (ascii "b") (Sample.steady 2)
    (by decide +kernel)
  have changes := addBlockChangesItsRecords Sample.headerLawful Sample.blockLawful ⟨[]⟩ 1 (ascii "b")
    (start (sampleDirectory sampleBlock) (Sample.steady 2))
  obtain ⟨_,db,db',header,result⟩ := changes.2.1 block _ run
  exact ⟨block,db,db',header,result⟩

/- The public key of the header does not belong to its private key; there is no block to check it. -/
def strayHeader : Header := ⟨DB_VERSION,0,ascii "\x7b\x7d",Sample.privateKey,
  Sample.number 33 0x02c6047f9441ed7d6d3045406e95c07cd85c778e4b8cef3ca7abac09b95c709ee5⟩

def strayDirectory : Directory := Function.update emptyDirectory (makeStoragePath ⟨[]⟩ 1)
  (some (DB.applyBatch [(DB_HEADER_KEY,Sample.platform.header.encode strayHeader.message)] ∅))

theorem strayKeyRuinsChain :
    (∃ t, verifyChain Sample.platform ⟨[]⟩ 1 (start strayDirectory (Sample.steady 1)) =
      (.done (),t)) ∧
    ∃ block u, addBlock Sample.platform ⟨[]⟩ 1 (ascii "a") (start strayDirectory (Sample.steady 1)) =
        (.done block,u) ∧ u.failed = false ∧
      ∃ v, verifyChain Sample.platform ⟨[]⟩ 1 (start u.directory (Sample.steady 1)) = (.absent,v) ∧
        v.failed = false := by
  obtain ⟨block,run⟩ := sampleAppended strayDirectory (ascii "a") (Sample.steady 1) (by decide +kernel)
  refine ⟨⟨_,Exec.outcomeApply (by decide +kernel)⟩,block,_,run,by decide +kernel,_,
    Exec.outcomeApply (by decide +kernel),by decide +kernel⟩

theorem verifiedChainExtends {sys : Platform} (lawfulHeader : sys.header.Lawful)
    (lawfulBlock : sys.block.Lawful) (signatures : sys.SignaturesVerify) {manager : Manager}
    {chainId : UInt64} {dir : Directory} {db : Database} {header : Header}
    (here : dir (manager.makeStoragePath chainId) = some db)
    (stored : Chain.storedHeader sys db = some header)
    (valid : sys.secp.ecSeckeyVerify header.privateKey = true)
    (paired : sys.publicKeyOf header.privateKey = some header.publicKey)
    (room : header.index.toNat + 2 < 2^64) {first second third : Draws} {data : Bytes} {block : Block}
    {t u : World} (verified : verifyChain sys manager chainId (start dir first) = (.done (),t))
    (added : addBlock sys manager chainId data (start dir second) = (.done block,u))
    (clean : (verifyChain sys manager chainId (start u.directory third)).2.failed = false) :
    ∃ v, verifyChain sys manager chainId (start u.directory third) = (.done (),v) := by
  obtain ⟨other,own,blocks,found,list,_⟩ := verifyChainDone verified
  cases here.symm.trans found
  cases stored.symm.trans list.supported.stored
  obtain ⟨other,own,prevHash,appended,composed⟩ := addBlockDone added
  cases here.symm.trans appended.here
  cases stored.symm.trans appended.supported.stored
  have now : (start u.directory third).directory (manager.makeStoragePath chainId) =
      some (DB.applyBatch (Chain.blockRecords sys header block) db) := by
    simp only [start,appended.directory,Function.update_self]
  exact verifyChainHolds now (by simp [start]) (Chain.verifiedAppend lawfulHeader lawfulBlock
    signatures list valid paired room composed.back composed.made appended.headerFits
    appended.blockFits) clean

theorem sampleChainExtends :
    ∃ v, verifyChain Sample.platform ⟨[]⟩ 1
      (start (sampleAppend (sampleDirectory sampleBlock) (ascii "b") (Sample.steady 2)).2.directory
        (Sample.steady 3)) = (.done (),v) := by
  obtain ⟨block,run⟩ := sampleAppended (sampleDirectory sampleBlock) (ascii "b") (Sample.steady 2)
    (by decide +kernel)
  exact verifiedChainExtends Sample.headerLawful Sample.blockLawful Sample.signaturesVerify
    (Function.update_self ..) (by decide +kernel : _ = some sampleHeader) (by decide +kernel)
    (by decide +kernel) (by decide) (sampleChecked sampleBlock (Sample.steady 1) (by decide +kernel))
    run (by decide +kernel)

theorem lastAppendUnverified {sys : Platform} (lawfulHeader : sys.header.Lawful) {manager : Manager}
    {chainId : UInt64} {dir : Directory} {db : Database} {header : Header}
    (here : dir (manager.makeStoragePath chainId) = some db)
    (stored : Chain.storedHeader sys db = some header) (last : header.index.toNat + 2 = 2^64)
    {second third : Draws} {data : Bytes} {block : Block} {u : World}
    (added : addBlock sys manager chainId data (start dir second) = (.done block,u)) (v : World) :
    verifyChain sys manager chainId (start u.directory third) ≠ (.done (),v) := by
  intro verified
  obtain ⟨db',own,blocks,found,list,_⟩ := verifyChainDone verified
  obtain ⟨other,before,prevHash,appended,_⟩ := addBlockDone added
  cases here.symm.trans appended.here
  cases stored.symm.trans appended.supported.stored
  have now : u.directory (manager.makeStoragePath chainId) =
      some (DB.applyBatch (Chain.blockRecords sys header block) db) := by
    rw [appended.directory,Function.update_self]
  cases now.symm.trans found
  cases (Ledger.storedHeaderAfter lawfulHeader appended.headerFits).symm.trans list.supported.stored
  have next := Chain.counterSucc (i := header.index) (by omega)
  have bounded : (header.index + 1).toNat + 1 < 2^64 := list.bounded
  omega

theorem verifyChainMissing {sys manager chainId w db header} {i : UInt64}
    (here : w.directory (manager.makeStoragePath chainId) = some db)
    (stored : Chain.storedHeader sys db = some header) (low : 1 ≤ i) (inside : i ≤ header.index)
    (missing : Chain.storedBlock sys db i = none) :
    ∃ t, verifyChain sys manager chainId w = (.absent,t) := by
  unfold verifyChain
  rcases got : (manager.chain chainId).getHeader sys w with ⟨found | _ | e,t⟩
  · rw [Exec.bindOfDone got]
    have still := ((Chain.getHeaderSteady sys (manager.chain chainId)).quiet.apply got).directory
    rcases all : (manager.chain chainId).getBlocks sys [] t with ⟨o,u⟩
    cases Chain.getBlocksEnds all with
    | all db' header' l here' supported bounded length consecutive =>
      rw [still] at here'
      cases here.symm.trans here'
      cases stored.symm.trans supported.stored
      exact absurd missing (Chain.consecutiveCovers consecutive length low inside)
    | shut why =>
      rw [Exec.bindOfDone all]
      exact ⟨u,Exec.bindOfAbsent (Exec.checkAbsent.mpr ⟨by decide,rfl⟩)⟩
    | stuck db' header' l here' supported consecutive within short why =>
      rw [Exec.bindOfDone all]
      exact ⟨u,Exec.bindOfAbsent (Exec.checkAbsent.mpr ⟨by decide,rfl⟩)⟩
    | endless db' header' here' supported full readable =>
      rw [still] at here'
      cases here.symm.trans here'
      exact absurd missing (readable i)
  · exact ⟨t,Exec.bindOfAbsent got⟩
  · exact absurd got ((Chain.getHeaderSteady sys (manager.chain chainId)).total w e t)

def Bare (n : Nat) : Option Database → Prop
  | none => True
  | some db => ∀ j : UInt64, n < j.toNat → db.lookup (Chain.makeBlockName j) = none

theorem bareAfter {sys : Platform} {manager : Manager} {dir : Directory} {event : Event} {n : Nat}
    {entry : Option Database} (change : Change sys manager dir event entry)
    (built : n < 2^64 - 1 → Built sys n (dir (manager.makeStoragePath event.call.chainId)))
    (bare : n < 2^64 - 1 → Bare n (dir (manager.makeStoragePath event.call.chainId)))
    (few : tally event.call.chainId n event < 2^64 - 1) :
    Bare (tally event.call.chainId n event) entry := by
  cases change with
  | same kept standing =>
    simp only [tally,if_true,kept,standing] at few ⊢
    exact bare few
  | created data privateKey publicKey operation vacant valid paired fits =>
    exact fun j beyond => Chain.newDatabaseBare data privateKey publicKey j
  | half data operation vacant failed => exact fun j beyond => Finmap.lookup_empty _
  | appended data db header prevHash block success here supported composed headerFits blockFits =>
    simp only [tally,if_true,success] at few ⊢
    have own := built (by omega)
    have free := bare (by omega)
    rw [here] at own free
    rcases own with ⟨_,missing⟩ | ⟨ledger,represents,_,rfl⟩
    · have stored := supported.stored
      simp [Chain.storedHeader,missing] at stored
    · cases supported.unique represents.supported
      intro j beyond
      have size := represents.size
      have next := Chain.counterSucc (i := ledger.header.index) (by omega)
      have other : j ≠ ledger.header.index + 1 := by
        rintro rfl
        omega
      rw [Chain.blockRecordKept other]
      exact free j (by omega)
  | removed success => exact trivial

theorem runBare {sys : Platform} (lawfulHeader : sys.header.Lawful) (lawfulBlock : sys.block.Lawful)
    (manager : Manager) (calls : List Call) (chainId : UInt64)
    (few : additions chainId (run sys manager emptyDirectory calls).1 < 2^64 - 1) :
    Bare (additions chainId (run sys manager emptyDirectory calls).1)
      ((run sys manager emptyDirectory calls).2 (manager.makeStoragePath chainId)) := by
  refine (@runTallied sys manager (fun n entry => Built sys n entry ∧ Bare n entry) ⟨rfl,trivial⟩
    (fun dir event entry n change before now => ?_) calls chainId few).2
  exact ⟨builtAfter lawfulHeader lawfulBlock change (fun less => (before less).1) now,
    bareAfter change (fun less => (before less).1) (fun less => (before less).2) now⟩

def builtDirectory : Directory := (run Sample.platform ⟨[]⟩ emptyDirectory sampleCalls).2

def builtDatabase : Database := (builtDirectory (makeStoragePath ⟨[]⟩ 1)).getD ∅

def recounted (k : UInt64) : Database :=
  builtDatabase.insert DB_HEADER_KEY (Sample.platform.header.encode (sampleHeader.setIndex k).message)

theorem recountedKept {k : UInt64} {key : Bytes} (other : key ≠ DB_HEADER_KEY) :
    (recounted k).lookup key = builtDatabase.lookup key := Finmap.lookup_insert_of_ne _ other

theorem builtHere : builtDirectory (makeStoragePath ⟨[]⟩ 1) = some builtDatabase := by
  have held : (builtDirectory (makeStoragePath ⟨[]⟩ 1)).isSome = true := by decide +kernel
  obtain ⟨db,found⟩ := Option.isSome_iff_exists.mp held
  rw [builtDatabase,found]
  rfl

theorem builtHeader : Chain.storedHeader Sample.platform builtDatabase = some sampleHeader := by
  decide +kernel

theorem loweredIndexAccepted :
    builtDirectory (makeStoragePath ⟨[]⟩ 1) = some builtDatabase ∧
      Chain.storedHeader Sample.platform builtDatabase = some sampleHeader ∧
      additions 1 (run Sample.platform ⟨[]⟩ emptyDirectory sampleCalls).1 = 1 ∧
      Chain.storedHeader Sample.platform (recounted 0) = some (sampleHeader.setIndex 0) ∧
      (∀ key, key ≠ DB_HEADER_KEY → (recounted 0).lookup key = builtDatabase.lookup key) ∧
      ∃ t, verifyChain Sample.platform ⟨[]⟩ 1 (start (Function.update builtDirectory
        (makeStoragePath ⟨[]⟩ 1) (some (recounted 0))) (Sample.steady 1)) = (.done (),t) :=
  ⟨builtHere,builtHeader,by decide +kernel,by decide +kernel,fun _ => recountedKept,_,
    Exec.outcomeApply (by decide +kernel)⟩

theorem inflatedIndexDetected {sys : Platform} (lawfulHeader : sys.header.Lawful)
    (lawfulBlock : sys.block.Lawful) (manager : Manager) (calls : List Call) (chainId : UInt64)
    {db db' : Database} {header : Header} {k : UInt64}
    (here : (run sys manager emptyDirectory calls).2 (manager.makeStoragePath chainId) = some db)
    (beyond : additions chainId (run sys manager emptyDirectory calls).1 < k.toNat)
    (replaced : Chain.storedHeader sys db' = some (header.setIndex k))
    (kept : ∀ key, key ≠ DB_HEADER_KEY → db'.lookup key = db.lookup key) (draws : Draws) :
    ∃ t, verifyChain sys manager chainId (start (Function.update
      (run sys manager emptyDirectory calls).2 (manager.makeStoragePath chainId) (some db')) draws) =
        (.absent,t) := by
  have size := k.toNat_lt
  have few : additions chainId (run sys manager emptyDirectory calls).1 < 2^64 - 1 := by omega
  have bare := runBare lawfulHeader lawfulBlock manager calls chainId few
  rw [here] at bare
  have missing : Chain.storedBlock sys db' k = none := by
    rw [Chain.storedBlock,kept _ (Chain.headerKeyNotBlock k).symm,bare k beyond]
    rfl
  have low : 1 ≤ k := UInt64.le_iff_toNat_le.mpr (Nat.one_le_of_lt beyond)
  exact verifyChainMissing (by simp only [start,Function.update_self]) replaced low
    (UInt64.le_refl k) missing

theorem sampleInflationDetected :
    ∃ t, verifyChain Sample.platform ⟨[]⟩ 1 (start (Function.update builtDirectory
      (makeStoragePath ⟨[]⟩ 1) (some (recounted 2))) (Sample.steady 1)) = (.absent,t) :=
  inflatedIndexDetected Sample.headerLawful Sample.blockLawful ⟨[]⟩ sampleCalls 1 builtHere
    (by decide +kernel) (by decide +kernel : _ = some (sampleHeader.setIndex 2))
    (fun _ => recountedKept) (Sample.steady 1)

end Manager
end ChainDB
