import ChainDB.Verification

/-! What `createChain` leaves when it stops early. The database is made by one call of LevelDB
and its header written by the next one. -/
namespace ChainDB
open Effects

/- A process that dies before its primitive call `n` makes no call after it; the directory is
left as it stands, as by a call whose primitives all fail from there on. -/
def dying (death : Option Nat) (draws : Draws) : Draws :=
  match death with
  | none => draws
  | some n => fun k => if k < n then draws k else ⟨fun _ => false,(draws k).random⟩

def drawnKey (draw : Draw) : PrivateKey := ⟨(List.range 32).map draw.random,by simp⟩

namespace Secp256k1

theorem privateKeyExact {sys w key t} : generatePrivateKey sys w = (.done key,t) ↔
    (w.draws 0).ok .random = true ∧ sys.secp.ecSeckeyVerify key = true ∧ key = drawnKey (w.draws 0) ∧
      t = w.spend := by
  constructor
  · intro h
    have valid := privateKeyDone h
    obtain ⟨data,u,drawn,last⟩ := Exec.bindDone.mp h
    obtain ⟨draw,v,called,same⟩ := Exec.bindDone.mp drawn
    obtain ⟨works,rfl,rfl⟩ := callDone.mp called
    cases same
    split at last
    · cases last
      exact ⟨works,valid,rfl,rfl⟩
    · cases last
  · rintro ⟨works,valid,rfl,rfl⟩
    have drawn : Random.random 32 w = (.done (drawnKey (w.draws 0)),w.spend) :=
      Exec.bindDone.mpr ⟨_,_,callDone.mpr ⟨works,rfl,rfl⟩,rfl⟩
    unfold generatePrivateKey
    rw [Exec.bindOfDone drawn,if_pos valid]
    rfl

theorem publicKeyExact {sys privateKey w publicKey t} :
    createPublicKey sys privateKey w = (.done publicKey,t) ↔ (w.draws 0).ok .secp = true ∧
      (w.draws 1).ok .secp = true ∧ sys.publicKeyOf privateKey = some publicKey ∧
      t = w.spend.spend := by
  constructor
  · intro h
    have paired := publicKeyDone h
    obtain ⟨_,u,first,last⟩ := Exec.bindDone.mp h
    obtain ⟨works,_,rfl⟩ := callDone.mp first
    cases made : sys.secp.ecPubkeyCreate privateKey with
    | none => simp [Platform.publicKeyOf,made] at paired
    | some object =>
      simp only [made] at last
      obtain ⟨_,v,second,same⟩ := Exec.bindDone.mp last
      obtain ⟨again,_,rfl⟩ := callDone.mp second
      cases same
      exact ⟨works,again,paired,rfl⟩
  · rintro ⟨works,again,paired,rfl⟩
    obtain ⟨object,made,rfl⟩ := Option.map_eq_some_iff.mp paired
    unfold createPublicKey
    rw [Exec.bindOfDone (callDone.mpr ⟨works,rfl,rfl⟩)]
    simp only [made]
    exact Exec.bindDone.mpr ⟨_,_,callDone.mpr ⟨again,rfl,rfl⟩,rfl⟩

end Secp256k1

namespace Manager

def newHeader (data : Bytes) (draws : Draws) (publicKey : PublicKey) : Header :=
  ⟨DB_VERSION,0,data,drawnKey (draws 0),publicKey⟩

structure Prepared (sys : Platform) (data : Bytes) (draws : Draws) (publicKey : PublicKey) : Prop where
  generates : (draws 0).ok .random = true
  valid : sys.secp.ecSeckeyVerify (drawnKey (draws 0)) = true
  creates : (draws 1).ok .secp = true
  serializes : (draws 2).ok .secp = true
  paired : sys.publicKeyOf (drawnKey (draws 0)) = some publicKey
  packs : (draws 3).ok .serialise = true
  fits : (sys.header.encode (newHeader data draws publicKey).message).length ≤ maxMessageLength

structure HalfMade (sys : Platform) (data : Bytes) (draws : Draws) (publicKey : PublicKey) : Prop
    extends Prepared sys data draws publicKey where
  makes : (draws 4).ok .database = true
  unwritten : (draws 5).ok .database = false

def Complete (sys : Platform) (manager : Manager) (chainId : UInt64) (data : Bytes) (draws : Draws)
    (dir : Directory) : Prop :=
  ∃ db publicKey, dir (manager.makeStoragePath chainId) = some db ∧
    sys.publicKeyOf (drawnKey (draws 0)) = some publicKey ∧
    Chain.storedHeader sys db = some (newHeader data draws publicKey)

/- A later `createChain` without a failing primitive succeeds. -/
def Absent (sys : Platform) (manager : Manager) (chainId : UInt64) (dir : Directory) : Prop :=
  ∀ data draws, (createChain sys manager chainId data (start dir draws)).2.failed = false →
    ∃ chain t, createChain sys manager chainId data (start dir draws) = (.done chain,t)

def storeHeader (manager : Manager) (chainId : UInt64) (buffer : Bytes) : Action Chain := do
  Storage.session Storage.create (manager.makeStoragePath chainId) fun storage =>
    storage.set [(DB_HEADER_KEY,buffer)]
  pure (manager.chain chainId)

theorem createChainPrepared {sys manager chainId data w publicKey}
    (prepared : Prepared sys data w.draws publicKey) :
    createChain sys manager chainId data w = storeHeader manager chainId
      (sys.header.encode (newHeader data w.draws publicKey).message) w.spend.spend.spend.spend := by
  have key := Secp256k1.privateKeyExact.mpr ⟨prepared.generates,prepared.valid,rfl,rfl⟩
  have pair := Secp256k1.publicKeyExact (w := w.spend).mpr
    ⟨prepared.creates,prepared.serializes,prepared.paired,rfl⟩
  have packed : Header.pack sys (newHeader data w.draws publicKey) w.spend.spend.spend =
      (.done (sys.header.encode (newHeader data w.draws publicKey).message),
        w.spend.spend.spend.spend) := serializeOfFits prepared.packs prepared.fits
  unfold createChain
  rw [Exec.bindOfDone key,Exec.bindOfDone pair]
  unfold Chain.create storeHeader
  rw [Exec.bindAssoc]
  exact Exec.bindOfDone packed

theorem leftOver {sys manager chainId data w t}
    (run : createChain sys manager chainId data w = (.absent,t))
    (changed : t.directory ≠ w.directory) : ∃ publicKey, HalfMade sys data w.draws publicKey := by
  rcases Exec.bindAbsent.mp run with first | ⟨privateKey,a,key,rest⟩
  · exact absurd ((Secp256k1.privateKeyTame sys).quiet.apply first).directory changed
  · obtain ⟨generates,valid,rfl,rfl⟩ := Secp256k1.privateKeyExact.mp key
    rcases Exec.bindAbsent.mp rest with first | ⟨publicKey,b,pair,rest⟩
    · exact absurd ((Secp256k1.publicKeyTame sys _).quiet.apply first).directory changed
    · obtain ⟨creates,serializes,paired,rfl⟩ := Secp256k1.publicKeyExact.mp pair
      rcases Exec.bindAbsent.mp rest with making | ⟨_,c,_,last⟩
      · rcases Exec.bindAbsent.mp making with packing | ⟨buffer,c,packed,storing⟩
        · exact absurd ((serializeTame _ _).quiet.apply packing).directory changed
        · obtain ⟨packs,fits,rfl,rfl⟩ := serializeExact.mp packed
          rw [Storage.createSession] at storing
          split at storing
          · rename_i makes
            split at storing
            · obtain ⟨u,set,rfl⟩ := Exec.ensuringApply.mp storing
              rw [Storage.setApply] at set
              split at set
              · cases set
              · rename_i unwritten
                exact ⟨publicKey,⟨generates,valid,creates,serializes,paired,packs,fits⟩,makes,
                  eq_false_of_ne_true unwritten⟩
            · cases storing
              exact absurd rfl changed
          · cases storing
            exact absurd rfl changed
      · cases last

theorem halfMade {sys manager chainId data dir draws publicKey}
    (vacant : dir (manager.makeStoragePath chainId) = none) (half : HalfMade sys data draws publicKey) :
    (createChain sys manager chainId data (start dir draws)).2.directory =
      Function.update dir (manager.makeStoragePath chainId) (some ∅) := by
  have made := fun body => @Storage.createSessionOpens Unit _ body
    (start dir draws).spend.spend.spend.spend half.makes List.not_mem_nil vacant
  have unwritten : ¬ (draws 5).ok .database = true := by simp [half.unwritten]
  rw [createChainPrepared (w := start dir draws) half.toPrepared]
  unfold storeHeader
  rw [Exec.bindPureState,made]
  simp only [Exec.ensuring,Storage.setApply]
  rw [if_neg]
  · rfl
  · exact unwritten

theorem refusedOnceThere {sys manager chainId data dir draws publicKey}
    (there : dir (manager.makeStoragePath chainId) ≠ none)
    (prepared : Prepared sys data draws publicKey) (makes : (draws 4).ok .database = true) :
    ∃ t, createChain sys manager chainId data (start dir draws) = (.absent,t) ∧ t.failed = false := by
  have refused := fun body => @Storage.createSessionRefuses Unit _ body
    (start dir draws).spend.spend.spend.spend makes there
  rw [createChainPrepared (w := start dir draws) prepared]
  unfold storeHeader
  exact ⟨_,Exec.bindOfAbsent (refused _),rfl⟩

theorem completed {sys : Platform} (lawful : sys.header.Lawful) {manager chainId data dir draws chain t}
    (run : createChain sys manager chainId data (start dir draws) = (.done chain,t)) :
    Complete sys manager chainId data draws t.directory := by
  simp only [createChain,Exec.bindDone,Exec.pureApply,Prod.mk.injEq,Outcome.done.injEq] at run
  obtain ⟨privateKey,a,key,publicKey,b,pair,_,c,made,_,rfl⟩ := run
  obtain ⟨_,_,rfl,rfl⟩ := Secp256k1.privateKeyExact.mp key
  obtain ⟨_,_,fits,directory⟩ := Chain.createDone made
  have represents := Ledger.representsCreate lawful fits
  refine ⟨_,publicKey,?_,Secp256k1.publicKeyDone pair,represents.header⟩
  rw [directory]
  exact Function.update_self ..

theorem vacantAbsent {sys manager chainId dir}
    (vacant : dir (manager.makeStoragePath chainId) = none) : Absent sys manager chainId dir := by
  intro data draws clean
  rcases run : createChain sys manager chainId data (start dir draws) with ⟨chain | _ | e,t⟩
  · exact ⟨chain,t,rfl⟩
  · rw [run] at clean
    obtain ⟨_,_,failed | locked | occupied⟩ := createChainAbsent run
    · cases failed.symm.trans clean
    · simp [start] at locked
    · exact absurd vacant occupied
  · exact absurd run (createChainTotal sys manager chainId data _ e t)

theorem createChainAllOrNothing {sys : Platform} (lawful : sys.header.Lawful) {manager : Manager}
    {chainId : UInt64} {dir : Directory} (vacant : dir (manager.makeStoragePath chainId) = none)
    (data : Bytes) (draws : Draws) (death : Option Nat) :
    (Complete sys manager chainId data (dying death draws)
        (createChain sys manager chainId data (start dir (dying death draws))).2.directory ∨
      Absent sys manager chainId
        (createChain sys manager chainId data (start dir (dying death draws))).2.directory) ↔
      ¬ ∃ publicKey, HalfMade sys data (dying death draws) publicKey := by
  generalize dying death draws = draws
  constructor
  · rintro whole ⟨publicKey,half⟩
    rw [halfMade vacant half] at whole
    rcases whole with ⟨db,other,here,_,stored⟩ | absent
    · rw [Function.update_self] at here
      cases here
      simp [Chain.storedHeader,Finmap.lookup_empty] at stored
    · have there : Function.update dir (manager.makeStoragePath chainId) (some ∅)
          (manager.makeStoragePath chainId) ≠ none := by simp
      obtain ⟨t,refused,clean⟩ := refusedOnceThere there half.toPrepared half.makes
      obtain ⟨chain,u,done⟩ := absent data draws (by rw [refused]; exact clean)
      cases refused.symm.trans done
  · intro unspoiled
    rcases run : createChain sys manager chainId data (start dir draws) with ⟨chain | _ | e,t⟩
    · exact Or.inl (completed lawful run)
    · by_cases kept : t.directory = dir
      · rw [kept]
        exact Or.inr (vacantAbsent vacant)
      · exact absurd (leftOver run kept) unspoiled
    · exact absurd run (createChainTotal sys manager chainId data _ e t)

def unwrittenDraws : Draws := fun n =>
  ⟨fun kind => decide (¬ (n = 5 ∧ kind = .database)),fun i => (1 + i).toUInt8⟩

theorem unwrittenHeaderLeavesHalf :
    ¬ (Complete Sample.platform ⟨[]⟩ 1 (ascii "\x7b\x7d") unwrittenDraws
        (createChain Sample.platform ⟨[]⟩ 1 (ascii "\x7b\x7d")
          (start emptyDirectory unwrittenDraws)).2.directory ∨
      Absent Sample.platform ⟨[]⟩ 1 (createChain Sample.platform ⟨[]⟩ 1 (ascii "\x7b\x7d")
        (start emptyDirectory unwrittenDraws)).2.directory) := by
  rintro (⟨db,publicKey,here,_,stored⟩ | absent)
  · have empty : (createChain Sample.platform ⟨[]⟩ 1 (ascii "\x7b\x7d")
        (start emptyDirectory unwrittenDraws)).2.directory (makeStoragePath ⟨[]⟩ 1) = some ∅ := by
      decide +kernel
    cases empty.symm.trans here
    simp [Chain.storedHeader,Finmap.lookup_empty] at stored
  · obtain ⟨chain,t,done⟩ := absent (ascii "a") (Sample.steady 1) (by decide +kernel)
    have refused : (createChain Sample.platform ⟨[]⟩ 1 (ascii "a") (start (createChain Sample.platform
        ⟨[]⟩ 1 (ascii "\x7b\x7d") (start emptyDirectory unwrittenDraws)).2.directory
          (Sample.steady 1))).1 = .absent := by decide +kernel
    rw [done] at refused
    cases refused

theorem sampleCreationWhole :
    Complete Sample.platform ⟨[]⟩ 1 (ascii "\x7b\x7d") (dying (some 4) (Sample.steady 1))
        (createChain Sample.platform ⟨[]⟩ 1 (ascii "\x7b\x7d")
          (start emptyDirectory (dying (some 4) (Sample.steady 1)))).2.directory ∨
      Absent Sample.platform ⟨[]⟩ 1 (createChain Sample.platform ⟨[]⟩ 1 (ascii "\x7b\x7d")
        (start emptyDirectory (dying (some 4) (Sample.steady 1)))).2.directory :=
  (createChainAllOrNothing Sample.headerLawful rfl (ascii "\x7b\x7d") (Sample.steady 1) (some 4)).mpr
    fun ⟨_,half⟩ => absurd half.makes (by decide)

end Manager
end ChainDB
