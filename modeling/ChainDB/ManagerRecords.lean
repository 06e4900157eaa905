import ChainDB.Ledger

/-! What each operation of the manager found and what it left, in terms of the records of its
chain; for a chain that represents a ledger, in terms of the ledger. -/
namespace ChainDB
open Effects HashChain

namespace Chain

def PointsBack (sys : Platform) (db : Database) (header : Header) (prevHash : Hash) : Prop :=
  if header.index = 0 then prevHash = sys.genesis header
  else ∃ last, storedBlock sys db header.index = some last ∧ prevHash = last.hash

structure Verified (sys : Platform) (db : Database) (header : Header) (blocks : List Block) :
    Prop where
  supported : Supported sys db header
  bounded : header.index.toNat + 1 < 2^64
  length : blocks.length = header.index.toNat
  stored : Consecutive sys db 1 blocks
  linked : Linked Block.hash (sys.Sealed header.publicKey) (sys.genesis header) blocks

theorem consecutiveAt {sys db blocks} {last j : UInt64} (stored : Consecutive sys db 1 blocks)
    (length : blocks.length = last.toNat) (positive : 1 ≤ j) (inside : j ≤ last) :
    ∃ block, blocks[j.toNat - 1]? = some block ∧ storedBlock sys db j = some block := by
  have low := UInt64.le_iff_toNat_le.mp positive
  have high := UInt64.le_iff_toNat_le.mp inside
  have one : (1 : UInt64).toNat = 1 := rfl
  have place : j.toNat - 1 < blocks.length := by omega
  have listed := List.getElem?_eq_getElem place
  have found := stored _ _ listed
  have same : 1 + UInt64.ofNat (j.toNat - 1) = j := by
    rw [← one,← UInt64.toNat_sub_of_le _ _ positive,UInt64.ofNat_toNat,UInt64.add_comm,
      UInt64.sub_add_cancel]
  rw [same] at found
  exact ⟨_,listed,found⟩

theorem consecutiveCovers {sys db blocks} {last j : UInt64} (stored : Consecutive sys db 1 blocks)
    (length : blocks.length = last.toNat) (positive : 1 ≤ j) (inside : j ≤ last) :
    storedBlock sys db j ≠ none := by
  obtain ⟨block,_,found⟩ := consecutiveAt stored length positive inside
  simp [found]

theorem nextCovered {sys db blocks} {last : UInt64} {n : Nat} (stored : Consecutive sys db 1 blocks)
    (length : blocks.length = last.toNat) (short : 1 + n ≤ last.toNat) :
    storedBlock sys db (1 + UInt64.ofNat n) ≠ none := by
  have found := stored n _ (List.getElem?_eq_getElem (by omega))
  simp [found]

theorem getHeaderClean {sys chain w o t db header} (here : w.directory chain.path = some db)
    (free : chain.path ∉ w.opened) (stored : storedHeader sys db = some header)
    (run : getHeader sys chain w = (o,t)) (clean : t.failed = false) : o = .done header := by
  cases o with
  | done found =>
    obtain ⟨other,again,read⟩ := getHeaderDone run
    cases here.symm.trans again
    cases stored.symm.trans read
    rfl
  | absent =>
    rcases getHeaderAbsent run with failed | locked | nothing
    · exact absurd failed (by simp [clean])
    · exact absurd locked free
    · cases (nothing db here).symm.trans stored
  | halt e => exact absurd run ((getHeaderSteady sys chain).total w e t)

theorem getBlocksClean {sys chain w o t db header before blocks}
    (here : w.directory chain.path = some db) (free : chain.path ∉ w.opened)
    (supported : Supported sys db header) (bounded : header.index.toNat + 1 < 2^64)
    (length : blocks.length = header.index.toNat) (stored : Consecutive sys db 1 blocks)
    (run : getBlocks sys chain before w = (o,t)) (clean : t.failed = false) :
    o = .done (true,before ++ blocks) := by
  cases getBlocksEnds run with
  | all db' header' l here' supported' bounded' length' stored' =>
    cases here.symm.trans here'
    cases supported.unique supported'
    rw [consecutiveUnique stored' stored (length'.trans length.symm)]
  | shut why =>
    rcases why with failed | locked | nothing
    · exact absurd failed (by simp [clean])
    · exact absurd locked free
    · exact absurd supported (nothing db here header)
  | stuck db' header' l here' supported' stored' inside short why =>
    cases here.symm.trans here'
    cases supported.unique supported'
    rcases why with failed | missing
    · exact absurd failed (by simp [clean])
    · exact absurd missing (nextCovered stored length (short bounded))
  | endless db' header' here' supported' full readable =>
    cases here.symm.trans here'
    cases supported.unique supported'
    omega

theorem positiveIndex {index : UInt64} (positive : index ≠ 0) : 1 ≤ index := by
  have apart : index.toNat ≠ 0 := fun same => positive (UInt64.toNat_inj.mp same)
  exact UInt64.le_iff_toNat_le.mpr (Nat.pos_of_ne_zero apart)

theorem consecutiveTip {sys db blocks genesis last} {index : UInt64}
    (stored : Consecutive sys db 1 blocks) (length : blocks.length = index.toNat)
    (positive : index ≠ 0) (found : storedBlock sys db index = some last) :
    tip Block.hash genesis blocks = last.hash := by
  have low := positiveIndex positive
  obtain ⟨block,listed,own⟩ := consecutiveAt stored length low (UInt64.le_refl _)
  rw [found] at own
  cases own
  have whole : index.toNat = index.toNat - 1 + 1 := by
    have least := UInt64.le_iff_toNat_le.mp low
    have one : (1 : UInt64).toNat = 1 := rfl
    omega
  rw [← List.take_length (l := blocks),tipTake _ _ _ _ (Nat.le_refl _),length,whole,previous,listed]
  rfl

end Chain

namespace Ledger

theorem Represents.pointsBack {sys ledger db prevHash} (h : Represents sys ledger db)
    (back : Chain.PointsBack sys db ledger.header prevHash) : prevHash = ledger.tip sys := by
  have size := h.size
  unfold Chain.PointsBack at back
  split at back
  · rename_i zero
    rw [zero] at size
    have empty : ledger.blocks = [] := List.eq_nil_of_length_eq_zero size.symm
    rw [back,tip,empty]
    rfl
  · rename_i positive
    obtain ⟨found,stored,rfl⟩ := back
    exact (Chain.consecutiveTip h.blocks size.symm positive stored).symm

theorem Represents.pointsBackTip {sys ledger db} (h : Represents sys ledger db) :
    ∃ prevHash, Chain.PointsBack sys db ledger.header prevHash := by
  unfold Chain.PointsBack
  split
  · exact ⟨_,rfl⟩
  · rename_i positive
    have present := Chain.consecutiveCovers h.blocks h.size.symm (Chain.positiveIndex positive)
      (UInt64.le_refl _)
    obtain ⟨last,found⟩ := Option.ne_none_iff_exists'.mp present
    exact ⟨last.hash,last,found,rfl⟩

end Ledger

namespace Manager

theorem genesisHashDone {sys : Platform} {header : Header} {w t hash}
    (h : SHA256.getHashN sys [header.data,header.privateKey.bytes,header.publicKey.bytes] 2 w =
      (.done hash,t)) :
    hash = sys.genesis header ∧
      t.hashed = w.hashed ++ [genesisText header,(sys.sha256 (genesisText header)).bytes] := by
  have result := SHA256.doubleHashDone h
  rwa [genesisFlatten] at result

theorem previousHashSteady (sys : Platform) (chain : Chain) (header : Header) :
    Steady (previousHash sys chain header) := by
  unfold previousHash
  split
  · exact (SHA256.hashNTame sys _ _).toSteady
  · exact steadyBind (Chain.getBlockSteady sys chain _) fun _ => steadyPure _

theorem previousHashDone {sys chain header db w prevHash t} (here : w.directory chain.path = some db)
    (h : previousHash sys chain header w = (.done prevHash,t)) :
    Chain.PointsBack sys db header prevHash := by
  unfold previousHash at h
  unfold Chain.PointsBack
  split at h
  · rename_i zero
    rw [if_pos zero]
    exact (genesisHashDone h).1
  · rename_i positive
    rw [if_neg positive]
    obtain ⟨last,u,got,same⟩ := Exec.bindDone.mp h
    cases same
    obtain ⟨other,_,found,_,_,_,stored⟩ := Chain.getBlockDone got
    rw [here] at found
    cases found
    exact ⟨last,stored,rfl⟩

theorem previousHashAbsent {sys chain header db w t} (here : w.directory chain.path = some db)
    (free : chain.path ∉ w.opened) (supported : Chain.Supported sys db header)
    (h : previousHash sys chain header w = (.absent,t)) :
    t.failed = true ∨ ∀ prevHash, ¬ Chain.PointsBack sys db header prevHash := by
  unfold previousHash at h
  unfold Chain.PointsBack
  split at h
  · exact Or.inl ((SHA256.hashNTame sys _ _).blames w t h)
  · rename_i positive
    have got : chain.getBlock sys header.index w = (.absent,t) := by
      rcases Exec.bindAbsent.mp h with got | ⟨_,_,_,last⟩
      · exact got
      · cases last
    rcases Chain.getBlockAbsent got with failed | locked | nothing
    · exact Or.inl failed
    · exact absurd locked free
    · refine Or.inr fun prevHash back => ?_
      rw [if_neg positive] at back
      obtain ⟨last,stored,_⟩ := back
      have missing := nothing db here header supported positive (UInt64.le_refl _)
      rw [stored] at missing
      cases missing

theorem sealBlockTame (sys : Platform) (header : Header) (prevHash : Hash) (data : Bytes) :
    Tame (sealBlock sys header prevHash data) :=
  tameBind (Random.randomTame 8) fun _ => tameBind (SHA256.hashTame sys _) fun _ =>
    tameBind (Secp256k1.signatureTame sys _ _) fun _ => tameBind (SHA256.hashTame sys _) fun _ =>
      tamePure _

theorem sealBlockDone {sys header prevHash data w block t}
    (h : sealBlock sys header prevHash data w = (.done block,t)) :
    block.data = data ∧ sys.Made header.privateKey prevHash block := by
  simp only [sealBlock,Exec.bindDone,Exec.pureApply,Prod.mk.injEq,Outcome.done.injEq] at h
  obtain ⟨nonce,a,_,bodyHash,b,body,signature,c,sign,hash,d,whole,rfl,rfl⟩ := h
  have signed := Secp256k1.signatureDone sign
  obtain ⟨rfl,_⟩ := SHA256.hashDone body
  obtain ⟨rfl,_⟩ := SHA256.hashDone whole
  exact ⟨rfl,⟨rfl,by rwa [← bodyFlatten],by rw [← blockFlatten]⟩⟩

structure Composed (sys : Platform) (db : Database) (data : Bytes) (header : Header)
    (prevHash : Hash) (block : Block) : Prop where
  stored : Chain.storedHeader sys db = some header
  back : Chain.PointsBack sys db header prevHash
  data : block.data = data
  made : sys.Made header.privateKey prevHash block

theorem composeBlockSteady (sys : Platform) (chain : Chain) (data : Bytes) :
    Steady (composeBlock sys chain data) :=
  steadyBind (Chain.getHeaderSteady sys _) fun _ => steadyBind (previousHashSteady sys _ _) fun _ =>
    (sealBlockTame sys _ _ _).toSteady

theorem composeBlockDone {sys chain data w block t}
    (h : composeBlock sys chain data w = (.done block,t)) :
    ∃ db header prevHash, w.directory chain.path = some db ∧
      Composed sys db data header prevHash block := by
  simp only [composeBlock,Exec.bindDone] at h
  obtain ⟨header,a,got,prevHash,b,back,sealed⟩ := h
  obtain ⟨db,found,stored⟩ := Chain.getHeaderDone got
  have still := ((Chain.getHeaderSteady sys chain).quiet.apply got).directory
  have points := previousHashDone (by rw [still]; exact found) back
  obtain ⟨sameData,made⟩ := sealBlockDone sealed
  exact ⟨db,header,prevHash,found,stored,points,sameData,made⟩

theorem composeBlockAbsent {sys chain data w t}
    (h : composeBlock sys chain data w = (.absent,t)) :
    t.failed = true ∨ Chain.Unreadable chain.path w fun db => ∀ header, Chain.Supported sys db header →
      ∀ prevHash, ¬ Chain.PointsBack sys db header prevHash := by
  rcases Exec.bindAbsent.mp h with first | ⟨header,a,got,rest⟩
  · rcases Chain.getHeaderAbsent first with failed | locked | nothing
    · exact Or.inl failed
    · exact Or.inr (Or.inl locked)
    · refine Or.inr (Or.inr fun db found header supported => ?_)
      have missing : Chain.storedHeader sys db = none := nothing db found
      rw [supported.stored] at missing
      cases missing
  · have quiet := (Chain.getHeaderSteady sys chain).quiet.apply got
    obtain ⟨db,found,stored⟩ := Chain.getHeaderDone got
    rcases Exec.bindAbsent.mp rest with back | ⟨prevHash,b,back,sealed⟩
    · by_cases locked : chain.path ∈ w.opened
      · exact Or.inr (Or.inl locked)
      · by_cases failed : t.failed = true
        · exact Or.inl failed
        · refine Or.inr (Or.inr fun other same header' supported => ?_)
          rw [found] at same
          cases same
          have agree := supported.stored
          rw [stored] at agree
          cases agree
          have why := previousHashAbsent (by rw [quiet.directory]; exact found)
            (by rw [quiet.opened]; exact locked) supported back
          exact why.resolve_left failed
    · exact Or.inl ((sealBlockTame sys _ _ _).blames _ _ sealed)

theorem addBlockDone {sys manager chainId data w block t}
    (h : addBlock sys manager chainId data w = (.done block,t)) :
    ∃ db header prevHash, Chain.Appended sys (manager.makeStoragePath chainId) block w t db header ∧
      Composed sys db data header prevHash block := by
  simp only [addBlock,Exec.bindDone,Exec.pureApply,Prod.mk.injEq,Outcome.done.injEq] at h
  obtain ⟨made,a,composed,_,b,added,rfl,rfl⟩ := h
  have quiet := (composeBlockSteady sys _ data).quiet.apply composed
  obtain ⟨db,header,prevHash,found,source⟩ := composeBlockDone composed
  obtain ⟨other,again,appended⟩ := Chain.addBlockDone added
  have here := appended.here
  rw [quiet.directory,found] at here
  cases here
  have same := appended.supported.stored
  rw [source.stored] at same
  cases same
  refine ⟨db,header,prevHash,?_,source⟩
  refine ⟨quiet.toForward.trans appended.toForward,found,appended.supported,appended.headerFits,
    appended.blockFits,?_⟩
  rw [appended.directory,quiet.directory]
  rfl

theorem addBlockTotal (sys : Platform) (manager : Manager) (chainId : UInt64) (data : Bytes) :
    Exec.Total (addBlock sys manager chainId data) :=
  Exec.totalBind (composeBlockSteady sys _ data).total fun _ =>
    Exec.totalBind (Chain.addBlockTotal sys _ _) fun _ => Exec.totalPure _

theorem addBlockAbsent {sys manager chainId data w t}
    (h : addBlock sys manager chainId data w = (.absent,t)) :
    Quiet w t ∧ (t.failed = true ∨ Chain.Unreadable (manager.makeStoragePath chainId) w fun db =>
      ∀ header, Chain.Supported sys db header →
        ∀ prevHash, ¬ Chain.PointsBack sys db header prevHash) := by
  rcases Exec.bindAbsent.mp h with composing | ⟨block,a,composed,rest⟩
  · exact ⟨(composeBlockSteady sys _ data).quiet.apply composing,composeBlockAbsent composing⟩
  · have quiet := (composeBlockSteady sys _ data).quiet.apply composed
    obtain ⟨db,header,prevHash,found,source⟩ := composeBlockDone composed
    rcases Exec.bindAbsent.mp rest with adding | ⟨_,b,_,last⟩
    · obtain ⟨still,why⟩ := Chain.addBlockAbsent adding
      refine ⟨IsTrans.trans _ _ _ quiet still,why.imp_right fun unreadable => ?_⟩
      unfold Chain.Unreadable at unreadable ⊢
      rw [quiet.opened,quiet.directory] at unreadable
      exact unreadable.imp_right fun nothing db found header supported =>
        absurd supported (nothing db found header)
    · cases last

theorem appendedLedger {sys : Platform} (lawfulHeader : sys.header.Lawful)
    (lawfulBlock : sys.block.Lawful) {ledger : Ledger} {path block w t db header data prevHash}
    (represents : ledger.Represents sys db) (sound : ledger.Sound sys)
    (appended : Chain.Appended sys path block w t db header)
    (composed : Composed sys db data header prevHash block)
    (room : ledger.blocks.length + 2 < 2^64) :
    ∃ db', t.directory path = some db' ∧ (ledger.append block).Represents sys db' ∧
      (ledger.append block).Sound sys := by
  cases appended.supported.unique represents.supported
  have made := composed.made
  rw [represents.pointsBack composed.back] at made
  refine ⟨_,by rw [appended.directory,Function.update_self],?_,Ledger.soundAppend sound made⟩
  exact Ledger.representsAppend lawfulHeader lawfulBlock represents room appended.headerFits
    appended.blockFits

theorem createChainTotal (sys : Platform) (manager : Manager) (chainId : UInt64) (data : Bytes) :
    Exec.Total (createChain sys manager chainId data) :=
  Exec.totalBind (Secp256k1.privateKeyTame sys).total fun _ =>
    Exec.totalBind (Secp256k1.publicKeyTame sys _).total fun _ =>
      Exec.totalBind (Chain.createTotal sys _ _ _ _) fun _ => Exec.totalPure _

structure Created (sys : Platform) (path : Path) (data : Bytes) (w t : World)
    (privateKey : PrivateKey) (publicKey : PublicKey) : Prop extends Forward w t where
  vacant : w.directory path = none
  valid : sys.secp.ecSeckeyVerify privateKey = true
  paired : sys.publicKeyOf privateKey = some publicKey
  fits : (sys.header.encode (Header.message ⟨DB_VERSION,0,data,privateKey,publicKey⟩)).length ≤
    maxMessageLength
  directory : t.directory = Function.update w.directory path
    (some (Chain.newDatabase sys data privateKey publicKey))

theorem createChainDone {sys manager chainId data w chain t}
    (h : createChain sys manager chainId data w = (.done chain,t)) :
    chain = manager.chain chainId ∧ ∃ privateKey publicKey,
      Created sys (manager.makeStoragePath chainId) data w t privateKey publicKey := by
  simp only [createChain,Exec.bindDone,Exec.pureApply,Prod.mk.injEq,Outcome.done.injEq] at h
  obtain ⟨privateKey,a,key,publicKey,b,pair,_,c,made,rfl,rfl⟩ := h
  have quiet := IsTrans.trans _ _ _ ((Secp256k1.privateKeyTame sys).quiet.apply key)
    ((Secp256k1.publicKeyTame sys _).quiet.apply pair)
  obtain ⟨forward,vacant,fits,directory⟩ := Chain.createDone made
  rw [quiet.directory] at vacant directory
  exact ⟨rfl,privateKey,publicKey,quiet.toForward.trans forward,vacant,
    Secp256k1.privateKeyDone key,Secp256k1.publicKeyDone pair,fits,directory⟩

theorem createChainAbsent {sys manager chainId data w t}
    (h : createChain sys manager chainId data w = (.absent,t)) :
    Forward w t ∧ (t.directory = w.directory ∨
        t.failed = true ∧ w.directory (manager.makeStoragePath chainId) = none ∧
          t.directory = Function.update w.directory (manager.makeStoragePath chainId) (some ∅)) ∧
      (t.failed = true ∨ manager.makeStoragePath chainId ∈ w.opened ∨
        w.directory (manager.makeStoragePath chainId) ≠ none) := by
  have tameKey := Secp256k1.privateKeyTame sys
  rcases Exec.bindAbsent.mp h with first | ⟨privateKey,a,key,rest⟩
  · have quiet := tameKey.quiet.apply first
    exact ⟨quiet.toForward,Or.inl quiet.directory,Or.inl (tameKey.blames _ _ first)⟩
  · have quietA := tameKey.quiet.apply key
    have tamePair := Secp256k1.publicKeyTame sys privateKey
    rcases Exec.bindAbsent.mp rest with first | ⟨publicKey,b,pair,rest⟩
    · have quiet : Quiet w t := IsTrans.trans _ _ _ quietA (tamePair.quiet.apply first)
      exact ⟨quiet.toForward,Or.inl quiet.directory,Or.inl (tamePair.blames _ _ first)⟩
    · have quiet := IsTrans.trans _ _ _ quietA (tamePair.quiet.apply pair)
      rcases Exec.bindAbsent.mp rest with making | ⟨_,c,_,last⟩
      · have result := Chain.createAbsent making
        rw [quiet.opened,quiet.directory] at result
        exact ⟨quiet.toForward.trans result.1,result.2⟩
      · cases last

theorem priorHashTame (sys : Platform) (header : Header) (last : Option Block) :
    Tame (priorHash sys header last) := by
  cases last with
  | none => exact SHA256.hashNTame sys _ _
  | some block => exact tamePure _

def priorValue (sys : Platform) (header : Header) : Option Block → Hash
  | none => sys.genesis header
  | some block => block.hash

theorem priorHashDone {sys header last w prevHash t}
    (h : priorHash sys header last w = (.done prevHash,t)) :
    prevHash = priorValue sys header last ∧ (last = none →
      t.hashed = w.hashed ++ [genesisText header,(sys.sha256 (genesisText header)).bytes]) := by
  cases last with
  | none =>
    obtain ⟨same,log⟩ := genesisHashDone h
    exact ⟨same,fun _ => log⟩
  | some block =>
    cases h
    exact ⟨rfl,fun none => by cases none⟩

theorem verifyBlockQuiet (sys : Platform) (header : Header) (prevHash : Hash) (block : Block) :
    Exec.Keeps Quiet (verifyBlock sys header prevHash block) :=
  Exec.keepsBind (Exec.keepsAttempt (SHA256.hashTame sys _).quiet) fun _ =>
    Exec.keepsBind (Secp256k1.verifySignatureKeeps sys _ _ _) fun _ =>
      Exec.keepsBind (SHA256.hashTame sys _).quiet fun _ => Exec.keepsCheck _

theorem verifyBlockDone {sys header prevHash block w u t}
    (h : verifyBlock sys header prevHash block w = (.done u,t)) :
    sys.Sealed header.publicKey prevHash block ∧ blockText prevHash block ∈ t.hashed := by
  simp only [verifyBlock,Exec.bindDone,Exec.checkDone] at h
  obtain ⟨bodyHash,a,body,_,b,verified,hash,c,whole,same,rfl⟩ := h
  obtain ⟨rfl,log⟩ := SHA256.hashDone whole
  rw [blockFlatten] at same log
  have logged : blockText prevHash block ∈ c.hashed := by
    rw [log]
    simp
  obtain ⟨value,rfl,verifies,_⟩ := Secp256k1.verifySignatureDone verified
  obtain ⟨rfl,_⟩ := SHA256.hashDone (Exec.attemptSome.mp body)
  rw [bodyFlatten] at verifies
  exact ⟨⟨verifies,same⟩,logged⟩

theorem verifyBlockHolds {sys header prevHash block w}
    (sealed : sys.Sealed header.publicKey prevHash block)
    (clean : (verifyBlock sys header prevHash block w).2.failed = false) :
    ∃ t, verifyBlock sys header prevHash block w = (.done (),t) := by
  unfold verifyBlock at clean ⊢
  have rest : ∀ bodyHash, Exec.Keeps Quiet (do
      Secp256k1.verifySignature sys bodyHash header.publicKey block.signature
      let hash ← SHA256.getHash sys
        [prevHash.bytes,block.nonce.bytes,block.data,block.signature.bytes]
      Exec.check (block.hash = hash)) := fun bodyHash =>
    Exec.keepsBind (Secp256k1.verifySignatureKeeps sys _ _ _) fun _ =>
      Exec.keepsBind (SHA256.hashTame sys _).quiet fun _ => Exec.keepsCheck _
  obtain ⟨bodyHash,a,body,cleanA,same⟩ :=
    (tameAttempt (SHA256.hashTame sys _)).peel rest clean
  rw [same] at clean ⊢
  cases bodyHash with
  | none =>
    have failed := (SHA256.hashTame sys _).blames _ _ (Exec.attemptNone.mp body)
    exact absurd failed (by simp [cleanA])
  | some value =>
    obtain ⟨rfl,_⟩ := SHA256.hashDone (Exec.attemptSome.mp body)
    rw [bodyFlatten,Exec.bindOfDone (Secp256k1.verifySignatureHolds sealed.1 a)] at clean
    rw [bodyFlatten,Exec.bindOfDone (Secp256k1.verifySignatureHolds sealed.1 a)]
    obtain ⟨hash,b,whole,_,last⟩ := (SHA256.hashTame sys _).peel (fun _ => Exec.keepsCheck _) clean
    obtain ⟨rfl,_⟩ := SHA256.hashDone whole
    rw [last]
    exact ⟨b,Exec.checkDone.mpr ⟨by rw [blockFlatten]; exact sealed.2,rfl⟩⟩

theorem verifyBlocksQuiet (sys : Platform) (header : Header) (last : Option Block)
    (blocks : List Block) : Exec.Keeps Quiet (verifyBlocks sys header last blocks) := by
  induction blocks generalizing last with
  | nil => exact Exec.keepsPure ()
  | cons block rest ih =>
    exact Exec.keepsBind (priorHashTame sys header last).quiet fun _ =>
      Exec.keepsBind (verifyBlockQuiet sys header _ block) fun _ => ih (some block)

theorem verifyBlocksDone {sys header last blocks w u t}
    (h : verifyBlocks sys header last blocks w = (.done u,t)) :
    Linked Block.hash (fun previous block => sys.Sealed header.publicKey previous block ∧
        blockText previous block ∈ t.hashed) (priorValue sys header last) blocks ∧
      (last = none → blocks ≠ [] →
        genesisText header ∈ t.hashed ∧ (sys.sha256 (genesisText header)).bytes ∈ t.hashed) := by
  induction blocks generalizing last w with
  | nil => exact ⟨trivial,fun _ some => absurd rfl some⟩
  | cons block rest ih =>
    simp only [verifyBlocks,Exec.bindDone] at h
    obtain ⟨prevHash,a,prior,_,b,verified,more⟩ := h
    obtain ⟨rfl,log⟩ := priorHashDone prior
    obtain ⟨sealed,logged⟩ := verifyBlockDone verified
    have later := ((verifyBlocksQuiet sys header (some block) rest).apply more).hashed
    have grown := ((verifyBlockQuiet sys header _ block).apply verified).hashed
    refine ⟨⟨⟨sealed,later logged⟩,(ih more).1⟩,fun first _ => ?_⟩
    have here := log first
    refine ⟨later (grown ?_),later (grown ?_)⟩ <;> rw [here] <;> simp

theorem verifyBlocksHolds {sys header last blocks w}
    (linked : Linked Block.hash (sys.Sealed header.publicKey) (priorValue sys header last) blocks)
    (clean : (verifyBlocks sys header last blocks w).2.failed = false) :
    ∃ t, verifyBlocks sys header last blocks w = (.done (),t) := by
  induction blocks generalizing last w with
  | nil => exact ⟨w,rfl⟩
  | cons block rest ih =>
    unfold verifyBlocks at clean ⊢
    have quiet := verifyBlocksQuiet sys header (some block) rest
    obtain ⟨prevHash,a,prior,_,same⟩ := (priorHashTame sys header last).peel
      (fun _ => Exec.keepsBind (verifyBlockQuiet sys header _ block) fun _ => quiet) clean
    obtain ⟨rfl,_⟩ := priorHashDone prior
    rw [same] at clean ⊢
    obtain ⟨b,verified⟩ := verifyBlockHolds linked.1 (cleanFirst (fun _ => quiet) clean)
    rw [Exec.bindOfDone verified] at clean ⊢
    exact ih linked.2 clean

theorem verifyBlockHalt {sys header prevHash block w e t}
    (h : verifyBlock sys header prevHash block w = (.halt e,t)) :
    t.failed = true ∧ ∃ n, (w.draws n).ok .hash = false := by
  have tame := SHA256.hashTame sys
  rcases Exec.bindHalt.mp h with first | ⟨bodyHash,a,body,rest⟩
  · exact absurd first ((tameAttempt (tame _)).total _ _ _)
  · rcases Exec.bindHalt.mp rest with null | ⟨_,b,_,rest⟩
    · obtain ⟨rfl,rfl⟩ := Secp256k1.verifySignatureHalt null
      have absent := Exec.attemptNone.mp body
      exact ⟨(tame _).blames _ _ absent,SHA256.hashAbsent absent⟩
    · rcases Exec.bindHalt.mp rest with whole | ⟨_,_,_,last⟩
      · exact absurd whole ((tame _).total _ _ _)
      · exact absurd last (Exec.totalCheck _ _ _ _)

theorem verifyBlocksHalt {sys header last blocks w e t}
    (h : verifyBlocks sys header last blocks w = (.halt e,t)) :
    t.failed = true ∧ ∃ n, (w.draws n).ok .hash = false := by
  induction blocks generalizing last w with
  | nil => cases h
  | cons block rest ih =>
    rcases Exec.bindHalt.mp h with prior | ⟨_,a,prior,more⟩
    · exact absurd prior ((priorHashTame sys header last).total _ _ _)
    · have first := ((priorHashTame sys header last).quiet.apply prior).toForward
      rcases Exec.bindHalt.mp more with check | ⟨_,b,checked,more⟩
      · obtain ⟨failed,n,broken⟩ := verifyBlockHalt check
        exact ⟨failed,first.brokenDraw broken⟩
      · obtain ⟨failed,n,broken⟩ := ih more
        have second := ((verifyBlockQuiet sys header _ block).apply checked).toForward
        exact ⟨failed,(first.trans second).brokenDraw broken⟩

theorem verifyChainQuiet (sys : Platform) (manager : Manager) (chainId : UInt64) :
    Exec.Keeps Quiet (verifyChain sys manager chainId) :=
  Exec.keepsBind (Chain.getHeaderSteady sys _).quiet fun _ =>
    Exec.keepsBind (Chain.getBlocksQuiet sys _ _) fun _ =>
      Exec.keepsBind (Exec.keepsCheck _) fun _ => verifyBlocksQuiet sys _ _ _

structure Logged (sys : Platform) (log : List Bytes) (header : Header) (blocks : List Block) :
    Prop where
  linked : Linked Block.hash (fun previous block => sys.Sealed header.publicKey previous block ∧
    blockText previous block ∈ log) (sys.genesis header) blocks
  genesis : blocks ≠ [] → genesisText header ∈ log ∧ (sys.sha256 (genesisText header)).bytes ∈ log

theorem verifyChainDone {sys manager chainId w u t}
    (h : verifyChain sys manager chainId w = (.done u,t)) :
    ∃ db header blocks, w.directory (manager.makeStoragePath chainId) = some db ∧
      Chain.Verified sys db header blocks ∧ Logged sys t.hashed header blocks := by
  simp only [verifyChain,Exec.bindDone,Exec.checkDone] at h
  obtain ⟨header,a,got,⟨complete,blocks⟩,b,all,_,_,⟨whole,rfl⟩,checked⟩ := h
  cases whole
  obtain ⟨db,found,stored⟩ := Chain.getHeaderDone got
  have still := ((Chain.getHeaderSteady sys (manager.chain chainId)).quiet.apply got).directory
  obtain ⟨other,header',l,here,supported,bounded,length,consecutive,rfl⟩ := Chain.getBlocksDone all
  rw [still,found] at here
  cases here
  cases stored.symm.trans supported.stored
  obtain ⟨linked,genesis⟩ := verifyBlocksDone checked
  have sealed := linkedMono _ _ (fun _ _ _ both => both.1) linked
  exact ⟨db,header,blocks,found,⟨supported,bounded,length,consecutive,sealed⟩,linked,genesis rfl⟩

theorem verifyChainHolds {sys manager chainId w db header blocks}
    (here : w.directory (manager.makeStoragePath chainId) = some db)
    (free : manager.makeStoragePath chainId ∉ w.opened) (h : Chain.Verified sys db header blocks)
    (clean : (verifyChain sys manager chainId w).2.failed = false) :
    ∃ t, verifyChain sys manager chainId w = (.done (),t) := by
  unfold verifyChain at clean ⊢
  have checks := fun (header : Header) (result : Bool × List Block) =>
    Exec.keepsBind (Exec.keepsCheck (R := Quiet) (result.1 = true)) fun _ =>
      verifyBlocksQuiet sys header none result.2
  have reads := fun header =>
    Exec.keepsBind (Chain.getBlocksQuiet sys (manager.chain chainId) []) (checks header)
  rcases got : (manager.chain chainId).getHeader sys w with ⟨o,a⟩
  have cleanA := cleanFirst reads clean
  rw [got] at cleanA
  cases Chain.getHeaderClean here free h.supported.stored got cleanA
  have quiet := (Chain.getHeaderSteady sys (manager.chain chainId)).quiet.apply got
  rw [Exec.bindOfDone got] at clean ⊢
  rcases all : (manager.chain chainId).getBlocks sys [] a with ⟨o,b⟩
  have cleanB := cleanFirst (checks header) clean
  rw [all] at cleanB
  cases @Chain.getBlocksClean sys (manager.chain chainId) a o b db header [] blocks
    (by rw [quiet.directory]; exact here) (by rw [quiet.opened]; exact free) h.supported h.bounded
    h.length h.stored all cleanB
  rw [Exec.bindOfDone all] at clean ⊢
  exact verifyBlocksHolds h.linked clean

theorem verifyChainHalt {sys manager chainId w e t}
    (h : verifyChain sys manager chainId w = (.halt e,t)) :
    (t.failed = true ∧ ∃ n, (w.draws n).ok .hash = false) ∨ ∃ db header,
      w.directory (manager.makeStoragePath chainId) = some db ∧ Chain.Supported sys db header ∧
        header.index.toNat + 1 = 2^64 ∧ ∀ j, Chain.storedBlock sys db j ≠ none := by
  rcases Exec.bindHalt.mp h with first | ⟨header,a,got,rest⟩
  · exact absurd first ((Chain.getHeaderSteady sys _).total _ _ _)
  · have still := ((Chain.getHeaderSteady sys (manager.chain chainId)).quiet.apply got).directory
    rcases Exec.bindHalt.mp rest with reading | ⟨⟨complete,blocks⟩,b,all,rest⟩
    · generalize ended : (Outcome.halt e : Outcome Halt (Bool × List Block)) = o at reading
      cases Chain.getBlocksEnds reading with
      | all => cases ended
      | shut => cases ended
      | stuck => cases ended
      | endless db header here supported full readable =>
        rw [still] at here
        exact Or.inr ⟨db,header,here,supported,full,readable⟩
    · rcases Exec.bindHalt.mp rest with check | ⟨_,c,agreed,checked⟩
      · exact absurd check (Exec.totalCheck _ _ _ _)
      · obtain ⟨_,rfl⟩ := Exec.checkDone.mp agreed
        obtain ⟨failed,n,broken⟩ := verifyBlocksHalt checked
        have first := ((Chain.getHeaderSteady sys (manager.chain chainId)).quiet.apply got).toForward
        have second := ((Chain.getBlocksQuiet sys (manager.chain chainId) []).apply all).toForward
        exact Or.inl ⟨failed,(first.trans second).brokenDraw broken⟩

theorem makeStoragePathInjective {manager : Manager} {a b : UInt64}
    (h : manager.makeStoragePath a = manager.makeStoragePath b) : a = b := by
  unfold makeStoragePath joinPath at h
  split at h
  · exact decimalInjective (List.append_cancel_right (List.append_cancel_left h))
  · have names := List.cons.inj (List.append_cancel_left h)
    exact decimalInjective (List.append_cancel_right names.2)

theorem updatedConfined {path : Path} {w t : World} {content : Option Database} (forward : Forward w t)
    (directory : t.directory = Function.update w.directory path content) : Confined path w t := by
  refine ⟨forward,fun other apart => ?_⟩
  rw [directory,Function.update_of_ne apart]

theorem createChainConfined (sys : Platform) (manager : Manager) (chainId : UInt64) (data : Bytes) :
    Exec.Keeps (Confined (manager.makeStoragePath chainId)) (createChain sys manager chainId data) := by
  refine Exec.keepsIff.mpr fun w o t h => ?_
  cases o with
  | done chain =>
    obtain ⟨_,_,_,created⟩ := createChainDone h
    exact updatedConfined created.toForward created.directory
  | absent =>
    obtain ⟨forward,same | ⟨_,_,half⟩,_⟩ := createChainAbsent h
    · exact ⟨forward,fun _ _ => by rw [same]⟩
    · exact updatedConfined forward half
  | halt e => exact absurd h (createChainTotal sys manager chainId data w e t)

theorem addBlockConfined (sys : Platform) (manager : Manager) (chainId : UInt64) (data : Bytes) :
    Exec.Keeps (Confined (manager.makeStoragePath chainId)) (addBlock sys manager chainId data) := by
  refine Exec.keepsIff.mpr fun w o t h => ?_
  cases o with
  | done block =>
    obtain ⟨_,_,_,appended,_⟩ := addBlockDone h
    exact updatedConfined appended.toForward appended.directory
  | absent => exact (addBlockAbsent h).1.confined _
  | halt e => exact absurd h (addBlockTotal sys manager chainId data w e t)

theorem removeChainConfined (manager : Manager) (chainId : UInt64) :
    Exec.Keeps (Confined (manager.makeStoragePath chainId)) (removeChain manager chainId) := by
  refine Exec.keepsIff.mpr fun w o t h => ?_
  cases o with
  | done u =>
    obtain ⟨forward,directory⟩ := Chain.removeDone h
    exact updatedConfined forward directory
  | absent => exact (Chain.removeAbsent h).1.confined _
  | halt e => exact absurd h (Chain.removeTotal _ w e t)

def Operation.Reads : Operation → Prop
  | .createChain _ | .addBlock _ | .removeChain => False
  | _ => True

instance : DecidablePred Operation.Reads
  | .createChain _ => inferInstanceAs (Decidable False)
  | .addBlock _ => inferInstanceAs (Decidable False)
  | .removeChain => inferInstanceAs (Decidable False)
  | .getBlock _ => inferInstanceAs (Decidable True)
  | .getBlocks _ => inferInstanceAs (Decidable True)
  | .verifyChain => inferInstanceAs (Decidable True)
  | .getChainHeader => inferInstanceAs (Decidable True)
  | .getChainInfo => inferInstanceAs (Decidable True)

theorem readsQuiet (sys : Platform) (manager : Manager) (chainId : UInt64) {operation : Operation}
    (reads : operation.Reads) : Exec.Keeps Quiet (perform sys manager chainId operation) := by
  cases operation with
  | createChain => cases reads
  | addBlock => cases reads
  | removeChain => cases reads
  | getBlock index =>
    exact Exec.keepsBind (Exec.keepsAttempt (Chain.getBlockSteady sys _ index).quiet) fun _ =>
      Exec.keepsPure _
  | getBlocks blocks =>
    exact Exec.keepsBind (Chain.getBlocksQuiet sys _ blocks) fun _ => Exec.keepsPure _
  | verifyChain =>
    exact Exec.keepsBind (Exec.keepsAttempt (verifyChainQuiet sys manager chainId)) fun _ =>
      Exec.keepsPure _
  | getChainHeader =>
    exact Exec.keepsBind (Exec.keepsAttempt (Chain.getHeaderSteady sys _).quiet) fun _ =>
      Exec.keepsPure _
  | getChainInfo =>
    exact Exec.keepsBind (Exec.keepsAttempt (Exec.keepsBind (Chain.getHeaderSteady sys _).quiet
      fun _ => Exec.keepsPure _)) fun _ => Exec.keepsPure _

theorem performConfined (sys : Platform) (manager : Manager) (chainId : UInt64)
    (operation : Operation) :
    Exec.Keeps (Confined (manager.makeStoragePath chainId)) (perform sys manager chainId operation) := by
  by_cases reads : operation.Reads
  · exact (readsQuiet sys manager chainId reads).weaken fun _ _ quiet => quiet.confined _
  · cases operation with
    | createChain data =>
      exact Exec.keepsBind (Exec.keepsAttempt (createChainConfined sys manager chainId data)) fun _ =>
        Exec.keepsPure _
    | addBlock data =>
      exact Exec.keepsBind (Exec.keepsAttempt (addBlockConfined sys manager chainId data)) fun _ =>
        Exec.keepsPure _
    | removeChain =>
      exact Exec.keepsBind (Exec.keepsAttempt (removeChainConfined manager chainId)) fun _ =>
        Exec.keepsPure _
    | _ => exact absurd trivial reads

theorem afterElsewhere {sys manager} {call : Call} {dir : Directory} {chainId : UInt64}
    (other : chainId ≠ call.chainId) :
    after sys manager call dir (manager.makeStoragePath chainId) =
      dir (manager.makeStoragePath chainId) :=
  (performConfined sys manager call.chainId call.operation (start dir call.draws)).elsewhere _
    fun h => other (makeStoragePathInjective h)

end Manager
end ChainDB
