import ChainDB.Integrity

/-! What a successful `verifyChain` says about an arbitrary database. -/
namespace ChainDB
open Effects HashChain

theorem genesisTextInjective {a b : Header} (h : genesisText a = genesisText b) :
    a.data = b.data ∧ a.privateKey = b.privateKey ∧ a.publicKey = b.publicKey := by
  have keys : (a.privateKey.bytes ++ a.publicKey.bytes).length =
      (b.privateKey.bytes ++ b.publicKey.bytes).length := by
    simp [a.privateKey.sized,a.publicKey.sized,b.privateKey.sized,b.publicKey.sized]
  obtain ⟨data,tail⟩ := List.append_inj' h keys
  obtain ⟨secret,shared⟩ := List.append_inj tail (by rw [a.privateKey.sized,b.privateKey.sized])
  exact ⟨data,Data.eqOfBytes secret,Data.eqOfBytes shared⟩

structure SameBlock (a b : Block) : Prop where
  hash : a.hash = b.hash
  nonce : a.nonce = b.nonce
  data : a.data = b.data
  signature : a.signature = b.signature

theorem blockTextInjective {p q : Hash} {a b : Block} (h : blockText p a = blockText q b) :
    p = q ∧ a.nonce = b.nonce ∧ a.data = b.data ∧ a.signature = b.signature := by
  obtain ⟨previous,tail⟩ := List.append_inj h (by rw [p.sized,q.sized])
  obtain ⟨nonce,tail⟩ := List.append_inj tail (by rw [a.nonce.sized,b.nonce.sized])
  obtain ⟨data,signature⟩ := List.append_inj' tail (by rw [a.signature.sized,b.signature.sized])
  exact ⟨Data.eqOfBytes previous,Data.eqOfBytes nonce,data,Data.eqOfBytes signature⟩

theorem blockTextLength (p : Hash) (block : Block) : 104 ≤ (blockText p block).length := by
  simp only [blockText,List.length_append,p.sized,block.nonce.sized,block.signature.sized]
  omega

def Collides (sys : Platform) (log : List Bytes) : Prop :=
  ∃ x ∈ log, ∃ y ∈ log, x ≠ y ∧ sys.sha256 x = sys.sha256 y

theorem equalOrCollides {sys log x y} (hx : x ∈ log) (hy : y ∈ log)
    (same : sys.sha256 x = sys.sha256 y) : Collides sys log ∨ x = y := by
  by_cases equal : x = y
  · exact Or.inr equal
  · exact Or.inl ⟨x,hx,y,hy,equal,same⟩

namespace Manager

theorem loggedCommits {sys log header header' blocks blocks'} (left : Logged sys log header blocks)
    (right : Logged sys log header' blocks') (full : blocks ≠ []) (full' : blocks' ≠ [])
    (tips : tip Block.hash (sys.genesis header) blocks =
      tip Block.hash (sys.genesis header') blocks') :
    Collides sys log ∨ (header.data = header'.data ∧ header.privateKey = header'.privateKey ∧
      header.publicKey = header'.publicKey ∧ List.Forall₂ SameBlock blocks blocks') := by
  obtain ⟨outer,inner⟩ := left.genesis full
  obtain ⟨outer',inner'⟩ := right.genesis full'
  let seals := fun previous block =>
    block.hash = sys.sha256 (blockText previous block) ∧ blockText previous block ∈ log
  have linked : Linked Block.hash seals (sys.genesis header) blocks :=
    linkedMono _ _ (fun _ _ _ both => ⟨both.1.2,both.2⟩) left.linked
  have linked' : Linked Block.hash seals (sys.genesis header') blocks' :=
    linkedMono _ _ (fun _ _ _ both => ⟨both.1.2,both.2⟩) right.linked
  have binding : ∀ p q r s, seals p r → seals q s → r.hash = s.hash →
      Collides sys log ∨ (p = q ∧ SameBlock r s) := by
    intro p q r s sealed sealed' same
    have digests : sys.sha256 (blockText p r) = sys.sha256 (blockText q s) := by
      rw [← sealed.1,← sealed'.1,same]
    rcases equalOrCollides sealed.2 sealed'.2 digests with bad | equal
    · exact Or.inl bad
    · obtain ⟨previous,nonce,data,signature⟩ := blockTextInjective equal
      exact Or.inr ⟨previous,same,nonce,data,signature⟩
  have apart : ∀ p r, seals p r → r.hash = sys.genesis header ∨ r.hash = sys.genesis header' →
      Collides sys log := by
    have differ : ∀ p r (other : Bytes), other.length = 32 → blockText p r ≠ other := by
      intro p r other short equal
      have long := blockTextLength p r
      rw [equal] at long
      omega
    intro p r sealed same
    rcases same with same | same <;> rw [sealed.1] at same
    · exact ⟨_,sealed.2,_,inner,differ p r _ (sys.sha256 _).sized,same⟩
    · exact ⟨_,sealed.2,_,inner',differ p r _ (sys.sha256 _).sized,same⟩
  rcases tipCommits _ seals binding apart linked linked' tips with bad | ⟨genesis,blocks⟩
  · exact Or.inl bad
  · rcases equalOrCollides inner inner' genesis with bad | digests
    · exact Or.inl bad
    · rcases equalOrCollides outer outer' (Data.eqOfBytes digests) with bad | texts
      · exact Or.inl bad
      · obtain ⟨data,secret,shared⟩ := genesisTextInjective texts
        exact Or.inr ⟨data,secret,shared,blocks⟩

theorem Logged.grow {sys log more header blocks} (h : Logged sys log header blocks)
    (sub : log ⊆ more) : Logged sys more header blocks where
  linked := linkedMono _ _ (fun _ _ _ both => ⟨both.1,sub both.2⟩) h.linked
  genesis full := ⟨sub (h.genesis full).1,sub (h.genesis full).2⟩

def sampleHeader : Header := ⟨DB_VERSION,1,ascii "\x7b\x7d",Sample.privateKey,Sample.publicKey⟩

def sampleBlock : Block where
  hash := Sample.number 32 0xb4298b50e1ee040c8e4d127ad2d2eb0af18ab5e9d2e540dec81dac0827ce349d
  prevHash := Sample.number 32 0xc9eebfa22489b2d4010ab952ba0b9e8ab42f59cf482c6b71535f1dc9236bf041
  nonce := Sample.number 8 0x0102030405060708
  data := ascii "a"
  signature := Sample.signatureFor
    (Sample.number 32 0xc78650cdd7de835a486087c9b990d2a57c30bbbb37f6892e36ea1dcd5e1a130c)

def forgedBlock : Block := {sampleBlock with prevHash := Sample.number 32 0}

def sampleDatabase (block : Block) : Database :=
  DB.applyBatch [(DB_HEADER_KEY,Sample.platform.header.encode sampleHeader.message),
    (Chain.makeBlockName 1,Sample.platform.block.encode block.message)] ∅

def sampleDirectory (block : Block) : Directory :=
  Function.update emptyDirectory (makeStoragePath ⟨[]⟩ 1) (some (sampleDatabase block))

def sampleCheck (block : Block) (draws : Draws) : Outcome Halt Unit × World :=
  verifyChain Sample.platform ⟨[]⟩ 1 (start (sampleDirectory block) draws)

theorem sampleChecked (block : Block) (draws : Draws) (h : (sampleCheck block draws).1 = .done ()) :
    sampleCheck block draws = (.done (),(sampleCheck block draws).2) := Prod.ext h rfl

def secondBlock : Block where
  hash := Sample.number 32 0x8decab23475a3f9b3a6eec9991bdc7d79208198dfcde720afae18f0bb2148b9a
  prevHash := sampleBlock.hash
  nonce := Sample.number 8 0x0203040506070809
  data := ascii "b"
  signature := Sample.signatureFor
    (Sample.number 32 0x00a827d523369ee3dabf81e5d6ae7945f5dceefeb4c028ec0cceca3390271b6c)

def pairHeader : Header := sampleHeader.setIndex 2

def pairDatabase (first : Block) : Database :=
  DB.applyBatch [(DB_HEADER_KEY,Sample.platform.header.encode pairHeader.message),
    (Chain.makeBlockName 2,Sample.platform.block.encode secondBlock.message)] (sampleDatabase first)

def pairDirectory (first : Block) : Directory :=
  Function.update emptyDirectory (makeStoragePath ⟨[]⟩ 1) (some (pairDatabase first))

def pairCheck (first : Block) (draws : Draws) : Outcome Halt Unit × World :=
  verifyChain Sample.platform ⟨[]⟩ 1 (start (pairDirectory first) draws)

theorem pairChecked (first : Block) (draws : Draws) (h : (pairCheck first draws).1 = .done ()) :
    pairCheck first draws = (.done (),(pairCheck first draws).2) := Prod.ext h rfl

theorem countedNonempty {n : UInt64} {blocks : List Block} (length : blocks.length = n.toNat)
    (full : n ≠ 0) : blocks ≠ [] := by
  rintro rfl
  exact full (UInt64.toNat_inj.mp length.symm)

theorem tipCommitsToChain {sys : Platform} {manager manager' : Manager} {chainId chainId' : UInt64}
    {dir dir' : Directory} {draws draws' : Draws} {t t' : World}
    (verified : verifyChain sys manager chainId (start dir draws) = (.done (),t))
    (verified' : verifyChain sys manager' chainId' (start dir' draws') = (.done (),t'))
    {db db' : Database} (here : dir (manager.makeStoragePath chainId) = some db)
    (here' : dir' (manager'.makeStoragePath chainId') = some db') {header header' : Header}
    (stored : Chain.storedHeader sys db = some header)
    (stored' : Chain.storedHeader sys db' = some header') (full : header.index ≠ 0)
    (full' : header'.index ≠ 0) {last last' : Block}
    (tip : Chain.storedBlock sys db header.index = some last)
    (tip' : Chain.storedBlock sys db' header'.index = some last') (tips : last.hash = last'.hash) :
    (header.index = header'.index ∧ header.data = header'.data ∧
        header.privateKey = header'.privateKey ∧ header.publicKey = header'.publicKey ∧
        ∀ i, 1 ≤ i → i ≤ header.index → ∃ block block', Chain.storedBlock sys db i = some block ∧
          Chain.storedBlock sys db' i = some block' ∧ block.hash = block'.hash ∧
          block.nonce = block'.nonce ∧ block.data = block'.data ∧
          block.signature = block'.signature) ∨
      ∃ x ∈ t.hashed ++ t'.hashed, ∃ y ∈ t.hashed ++ t'.hashed,
        x ≠ y ∧ sys.sha256 x = sys.sha256 y := by
  obtain ⟨own,_,blocks,found,list,logged⟩ := verifyChainDone verified
  obtain ⟨own',_,blocks',found',list',logged'⟩ := verifyChainDone verified'
  cases here.symm.trans found
  cases here'.symm.trans found'
  cases stored.symm.trans list.supported.stored
  cases stored'.symm.trans list'.supported.stored
  have same : HashChain.tip Block.hash (sys.genesis header) blocks =
      HashChain.tip Block.hash (sys.genesis header') blocks' := by
    rw [Chain.consecutiveTip list.stored list.length full tip,
      Chain.consecutiveTip list'.stored list'.length full' tip',tips]
  rcases loggedCommits (logged.grow (List.subset_append_left _ _))
    (logged'.grow (List.subset_append_right _ _)) (countedNonempty list.length full)
    (countedNonempty list'.length full') same with
    bad | ⟨data,secret,shared,all⟩
  · exact Or.inr bad
  · have index : header.index = header'.index := by
      have lengths := all.length_eq
      rw [list.length,list'.length] at lengths
      exact UInt64.toNat_inj.mp lengths
    refine Or.inl ⟨index,data,secret,shared,fun i low high => ?_⟩
    obtain ⟨block,listed,one⟩ := Chain.consecutiveAt list.stored list.length low high
    obtain ⟨block',listed',two⟩ :=
      Chain.consecutiveAt list'.stored list'.length low (index ▸ high)
    obtain ⟨inside,rfl⟩ := List.getElem?_eq_some_iff.mp listed
    obtain ⟨inside',rfl⟩ := List.getElem?_eq_some_iff.mp listed'
    have equal := all.get inside inside'
    exact ⟨_,_,one,two,equal.hash,equal.nonce,equal.data,equal.signature⟩

theorem sampleTipsCommit :
    (pairHeader.index = pairHeader.index ∧ pairHeader.data = pairHeader.data ∧
        pairHeader.privateKey = pairHeader.privateKey ∧
        pairHeader.publicKey = pairHeader.publicKey ∧
        ∀ i, 1 ≤ i → i ≤ pairHeader.index → ∃ block block',
          Chain.storedBlock Sample.platform (pairDatabase sampleBlock) i = some block ∧
          Chain.storedBlock Sample.platform (pairDatabase forgedBlock) i = some block' ∧
          block.hash = block'.hash ∧ block.nonce = block'.nonce ∧ block.data = block'.data ∧
          block.signature = block'.signature) ∨
      ∃ x ∈ (pairCheck sampleBlock (Sample.steady 1)).2.hashed ++
          (pairCheck forgedBlock (Sample.steady 2)).2.hashed,
        ∃ y ∈ (pairCheck sampleBlock (Sample.steady 1)).2.hashed ++
          (pairCheck forgedBlock (Sample.steady 2)).2.hashed,
          x ≠ y ∧ Sample.platform.sha256 x = Sample.platform.sha256 y :=
  tipCommitsToChain (pairChecked sampleBlock (Sample.steady 1) (by decide +kernel))
    (pairChecked forgedBlock (Sample.steady 2) (by decide +kernel)) (Function.update_self ..)
    (Function.update_self ..) (by decide +kernel) (by decide +kernel) (by decide) (by decide)
    (by decide +kernel : _ = some secondBlock) (by decide +kernel : _ = some secondBlock) rfl

theorem forgedLinkVerifies :
    (sampleCheck forgedBlock (Sample.steady 1)).1 = .done () ∧
      sampleDirectory forgedBlock (makeStoragePath ⟨[]⟩ 1) = some (sampleDatabase forgedBlock) ∧
      Chain.storedHeader Sample.platform (sampleDatabase forgedBlock) = some sampleHeader ∧
      Chain.storedBlock Sample.platform (sampleDatabase forgedBlock) 1 = some forgedBlock ∧
      forgedBlock.prevHash ≠ Sample.platform.genesis sampleHeader := by
  refine ⟨by decide +kernel,Function.update_self ..,by decide +kernel,by decide +kernel,
    by decide +kernel⟩

theorem verifiedLinksAreRecomputed {sys : Platform} {manager : Manager} {chainId : UInt64}
    {w t : World} (verified : verifyChain sys manager chainId w = (.done (),t)) :
    ∃ db header, w.directory (manager.makeStoragePath chainId) = some db ∧
      Chain.storedHeader sys db = some header ∧ header.version = DB_VERSION ∧
      ∀ i, 1 ≤ i → i ≤ header.index → ∃ block previous, Chain.storedBlock sys db i = some block ∧
        (i = 1 → previous = sys.genesis header) ∧
        (1 < i → ∃ before, Chain.storedBlock sys db (i - 1) = some before ∧ previous = before.hash) ∧
        block.hash = sys.sha256 (blockText previous block) ∧
        sys.Verifies (sys.sha256 (bodyText previous block)) header.publicKey block.signature := by
  obtain ⟨db,header,blocks,found,list,_⟩ := verifyChainDone verified
  refine ⟨db,header,found,list.supported.stored,list.supported.version,fun i low high => ?_⟩
  obtain ⟨block,listed,here⟩ := Chain.consecutiveAt list.stored list.length low high
  have sealed := linkedAt _ _ list.linked listed
  refine ⟨block,_,here,fun first => ?_,fun later => ?_,sealed.2,sealed.1⟩
  · subst first
    rfl
  · have least := UInt64.lt_iff_toNat_lt.mp later
    have one : (1 : UInt64).toNat = 1 := rfl
    have less : (i - 1).toNat = i.toNat - 1 := UInt64.toNat_sub_of_le _ _ low
    have positive : 1 ≤ i - 1 := UInt64.le_iff_toNat_le.mpr (by omega)
    have inside : i - 1 ≤ header.index := by
      have most := UInt64.le_iff_toNat_le.mp high
      exact UInt64.le_iff_toNat_le.mpr (by omega)
    obtain ⟨before,listedBefore,stored⟩ := Chain.consecutiveAt list.stored list.length positive inside
    have whole : i.toNat - 1 = i.toNat - 1 - 1 + 1 := by omega
    rw [less] at listedBefore
    refine ⟨before,stored,?_⟩
    rw [whole,previous,listedBefore]
    rfl

theorem forgedLinkRecomputed :
    ∃ db header, sampleDirectory forgedBlock (makeStoragePath ⟨[]⟩ 1) = some db ∧
      Chain.storedHeader Sample.platform db = some header ∧ header.version = DB_VERSION ∧
      ∀ i, 1 ≤ i → i ≤ header.index → ∃ block previous,
        Chain.storedBlock Sample.platform db i = some block ∧
        (i = 1 → previous = Sample.platform.genesis header) ∧
        (1 < i → ∃ before, Chain.storedBlock Sample.platform db (i - 1) = some before ∧
          previous = before.hash) ∧
        block.hash = Sample.platform.sha256 (blockText previous block) ∧
        Sample.platform.Verifies (Sample.platform.sha256 (bodyText previous block)) header.publicKey
          block.signature :=
  verifiedLinksAreRecomputed (sampleChecked forgedBlock (Sample.steady 1) (by decide +kernel))

end Manager
end ChainDB
