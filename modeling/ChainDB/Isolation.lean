import ChainDB.Integrity

/-! What a call sees of the directory: the database at its own path and nothing else. -/
namespace ChainDB
open Effects

/-- Two worlds that differ at most in the databases of the paths out of sight. -/
structure SameOn (seen : Path → Prop) (w t : World) : Prop where
  here : ∀ path, seen path → w.directory path = t.directory path
  opened : w.opened = t.opened
  draws : w.draws = t.draws
  failed : w.failed = t.failed
  hashed : w.hashed = t.hashed

abbrev Sees {α : Type} (seen : Path → Prop) (m : Action α) : Prop := Exec.Alike (SameOn seen) m

abbrev Local {α : Type} (path : Path) (m : Action α) : Prop := Sees (fun other => other = path) m

section Local
variable {seen : Path → Prop} {path : Path}

theorem localCall (kind : Primitive) : Sees seen (call kind) := by
  intro w t same
  unfold call
  rw [same.draws]
  split
  · exact ⟨rfl,same.here,same.opened,by simp [World.spend,same.draws],same.failed,same.hashed⟩
  · exact ⟨rfl,same.here,same.opened,by simp [World.spend,World.fail,same.draws],rfl,same.hashed⟩

theorem localFault {α : Type} : Sees seen (fault : Action α) :=
  fun _ _ same => ⟨rfl,same.here,same.opened,same.draws,rfl,same.hashed⟩

theorem localNote (input : Bytes) :
    Sees seen (Exec.modify (fun w => {w with hashed := w.hashed ++ [input]}) : Action Unit) :=
  fun _ _ same => ⟨rfl,same.here,same.opened,same.draws,same.failed,by simp [same.hashed]⟩

theorem localSerialize {μ : Type} (codec : Codec μ) (m : μ) : Sees seen (codec.serializeToString m) := by
  refine Exec.alikeBind (localCall .serialise) fun _ => ?_
  split
  · exact Exec.alikePure _
  · exact localFault

theorem localHash (sys : Platform) (input : List Bytes) : Sees seen (SHA256.getHash sys input) := by
  have update : ∀ input ctx, Sees seen (SHA256.update input ctx) := by
    intro input
    induction input with
    | nil => exact fun ctx => Exec.alikePure _
    | cons data rest ih => exact fun ctx => Exec.alikeBind (localCall .hash) fun _ => ih _
  exact Exec.alikeBind (localCall .hash) fun _ => Exec.alikeBind (update _ _) fun _ =>
    Exec.alikeBind (localCall .hash) fun _ => Exec.alikeBind (localNote _) fun _ => Exec.alikePure _

theorem localHashN (sys : Platform) (input : List Bytes) (n : UInt64) :
    Sees seen (SHA256.getHashN sys input n) := by
  have rehash : ∀ rounds hash, Sees seen (SHA256.rehash sys rounds hash) := by
    intro rounds
    induction rounds with
    | zero => exact fun hash => Exec.alikePure _
    | succ rounds ih => exact fun hash => Exec.alikeBind (localHash sys _) fun _ => ih _
  exact Exec.alikeBind (localHash sys _) fun _ => rehash _ _

theorem localRandom (length : Nat) : Sees seen (Random.random length) :=
  Exec.alikeBind (localCall .random) fun _ => Exec.alikePure _

theorem localPrivateKey (sys : Platform) : Sees seen (Secp256k1.generatePrivateKey sys) := by
  refine Exec.alikeBind (localRandom 32) fun _ => ?_
  split
  · exact Exec.alikePure _
  · exact localFault

theorem localPublicKey (sys : Platform) (key : PrivateKey) :
    Sees seen (Secp256k1.createPublicKey sys key) := by
  refine Exec.alikeBind (localCall .secp) fun _ => ?_
  cases sys.secp.ecPubkeyCreate key with
  | none => exact localFault
  | some object => exact Exec.alikeBind (localCall .secp) fun _ => Exec.alikePure _

theorem localSignature (sys : Platform) (hash : Hash) (key : PrivateKey) :
    Sees seen (Secp256k1.getSignature sys hash key) := by
  refine Exec.alikeBind (localCall .secp) fun _ => ?_
  cases sys.secp.ecdsaSign hash key with
  | none => exact localFault
  | some object => exact Exec.alikeBind (localCall .secp) fun _ => Exec.alikePure _

theorem localVerify (sys : Platform) (hash : Option Hash) (key : PublicKey) (signature : Signature) :
    Sees seen (Secp256k1.verifySignature sys hash key signature) := by
  unfold Secp256k1.verifySignature
  cases sys.secp.ecPubkeyParse key with
  | none => exact Exec.alikeAbsent
  | some pubKey =>
    cases sys.secp.ecdsaSignatureParseCompact signature with
    | none => exact Exec.alikeAbsent
    | some sign =>
      cases hash with
      | none => exact Exec.alikeHalt _
      | some hash => exact Exec.alikeCheck _

theorem SameOn.spend {w t : World} (same : SameOn seen w t) : SameOn seen w.spend t.spend :=
  ⟨same.here,same.opened,by simp [World.spend,same.draws],same.failed,same.hashed⟩

theorem SameOn.fail {w t : World} (same : SameOn seen w t) : SameOn seen w.fail t.fail :=
  ⟨same.here,same.opened,same.draws,rfl,same.hashed⟩

theorem SameOn.place {w t : World} (same : SameOn seen w t) (content : Option Database) :
    SameOn seen (DB.place path content w) (DB.place path content t) :=
  ⟨fun other inside => by simp only [DB.place,Function.update_apply,same.here other inside],
    same.opened,same.draws,same.failed,same.hashed⟩

theorem SameOn.lock {w t : World} (same : SameOn seen w t) :
    SameOn seen (DB.lock path w) (DB.lock path t) :=
  ⟨same.here,by simp [DB.lock,same.opened],same.draws,same.failed,same.hashed⟩

theorem SameOn.unlock {w t : World} (same : SameOn seen w t) :
    SameOn seen (DB.unlock path w) (DB.unlock path t) :=
  ⟨same.here,by simp [DB.unlock,same.opened],same.draws,same.failed,same.hashed⟩

theorem localGet (key : Bytes) : Local path (Storage.get ⟨path,true⟩ key) := by
  intro w t same
  rw [Storage.getApply,Storage.getApply,same.draws,same.here path rfl]
  split
  · exact Exec.alikeOfOption _ _ _ same.spend
  · exact ⟨rfl,same.spend.fail⟩

theorem localSet (pairs : List (Bytes × Bytes)) : Local path (Storage.set ⟨path,true⟩ pairs) := by
  intro w t same
  rw [Storage.setApply,Storage.setApply,same.draws,same.here path rfl]
  split
  · exact ⟨rfl,same.spend.place _⟩
  · exact ⟨rfl,same.spend.fail⟩

theorem localRemove (chain : Chain) : Local chain.path chain.remove := by
  intro w t same
  unfold Chain.remove
  rw [Storage.removeApply,Storage.removeApply,same.draws,same.opened]
  split
  · split
    · exact ⟨rfl,same.spend.place _⟩
    · exact ⟨rfl,same.spend⟩
  · exact ⟨rfl,same.spend.fail⟩

theorem localOpen {α : Type} {body : Storage → Action α} (inner : Local path (body ⟨path,true⟩)) :
    Local path (Storage.session Storage.open path body) := by
  intro w t same
  rw [Storage.openSession,Storage.openSession,same.draws,same.here path rfl,same.opened]
  split
  · split
    · exact Exec.alikeEnsuring inner (fun _ _ h => h.unlock) _ _ same.spend.lock
    · exact ⟨rfl,same.spend⟩
  · exact ⟨rfl,same.spend.fail⟩

theorem localCreate {α : Type} {body : Storage → Action α} (inner : Local path (body ⟨path,true⟩)) :
    Local path (Storage.session Storage.create path body) := by
  intro w t same
  rw [Storage.createSession,Storage.createSession,same.draws,same.here path rfl,same.opened]
  split
  · split
    · exact Exec.alikeEnsuring inner (fun _ _ h => h.unlock) _ _ (same.place _).spend.lock
    · exact ⟨rfl,same.spend⟩
  · exact ⟨rfl,same.spend.fail⟩

end Local

section Chains
variable (sys : Platform) (chain : Chain)

theorem localHeaderFrom : Local chain.path (Chain.getHeaderFrom sys ⟨chain.path,true⟩) :=
  Exec.alikeBind (localGet _) fun _ => Exec.alikeBind (Exec.alikeOfOption _) fun _ =>
    Exec.alikeBind (Exec.alikeCheck _) fun _ => Exec.alikePure _

theorem localBlockFrom (index : UInt64) :
    Local chain.path (Chain.getBlockFrom sys ⟨chain.path,true⟩ index) :=
  Exec.alikeBind (localGet _) fun _ => Exec.alikeOfOption _

theorem localGetHeader : Local chain.path (chain.getHeader sys) :=
  localOpen (Exec.alikeBind (localGet _) fun _ => Exec.alikeOfOption _)

theorem localGetBlock (index : UInt64) : Local chain.path (chain.getBlock sys index) :=
  localOpen (Exec.alikeBind (localHeaderFrom sys chain) fun _ =>
    Exec.alikeBind (Exec.alikeCheck _) fun _ => localBlockFrom sys chain _)

theorem localGetBlocks (blocks : List Block) : Local chain.path (chain.getBlocks sys blocks) := by
  have loop : ∀ last rounds i blocks,
      Local chain.path (Chain.getBlocksLoop sys ⟨chain.path,true⟩ last rounds i blocks) := by
    intro last rounds
    induction rounds with
    | zero => exact fun i blocks => Exec.alikeHalt _
    | succ rounds ih =>
      intro i blocks
      unfold Chain.getBlocksLoop
      split
      · refine Exec.alikeBind (Exec.alikeAttempt (localBlockFrom sys chain i)) fun read => ?_
        cases read with
        | none => exact Exec.alikePure _
        | some block => exact ih _ _
      · exact Exec.alikePure _
  exact Exec.alikeBind (Exec.alikeAttempt (localOpen (Exec.alikeBind (localHeaderFrom sys chain)
    fun _ => loop _ _ _ _))) fun _ => Exec.alikePure _

theorem localCreateChain (data : Bytes) (privateKey : PrivateKey) (publicKey : PublicKey) :
    Local chain.path (chain.create sys data privateKey publicKey) :=
  Exec.alikeBind (localSerialize _ _) fun _ => localCreate (localSet _)

theorem localAppend (block : Block) : Local chain.path (chain.addBlock sys block) :=
  localOpen (Exec.alikeBind (localHeaderFrom sys chain) fun _ =>
    Exec.alikeBind (localSerialize _ _) fun _ => Exec.alikeBind (localSerialize _ _) fun _ => localSet _)

theorem localCompose (data : Bytes) : Local chain.path (Manager.composeBlock sys chain data) := by
  refine Exec.alikeBind (localGetHeader sys chain) fun header => Exec.alikeBind ?_ fun prevHash => ?_
  · unfold Manager.previousHash
    split
    · exact localHashN sys _ _
    · exact Exec.alikeBind (localGetBlock sys chain _) fun _ => Exec.alikePure _
  · exact Exec.alikeBind (localRandom 8) fun _ => Exec.alikeBind (localHash sys _) fun _ =>
      Exec.alikeBind (localSignature sys _ _) fun _ => Exec.alikeBind (localHash sys _) fun _ =>
        Exec.alikePure _

theorem localVerifyBlocks (header : Header) (last : Option Block) (blocks : List Block) :
    Local chain.path (Manager.verifyBlocks sys header last blocks) := by
  induction blocks generalizing last with
  | nil => exact Exec.alikePure _
  | cons block rest ih =>
    refine Exec.alikeBind ?_ fun prevHash => Exec.alikeBind ?_ fun _ => ih _
    · cases last with
      | none => exact localHashN sys _ _
      | some last => exact Exec.alikePure _
    · exact Exec.alikeBind (Exec.alikeAttempt (localHash sys _)) fun _ =>
        Exec.alikeBind (localVerify sys _ _ _) fun _ => Exec.alikeBind (localHash sys _) fun _ =>
          Exec.alikeCheck _

end Chains

namespace Manager

theorem performLocal (sys : Platform) (manager : Manager) (chainId : UInt64) (operation : Operation) :
    Local (manager.makeStoragePath chainId) (perform sys manager chainId operation) := by
  cases operation with
  | createChain data =>
    refine Exec.alikeBind (Exec.alikeAttempt ?_) fun _ => Exec.alikePure _
    exact Exec.alikeBind (localPrivateKey sys) fun _ => Exec.alikeBind (localPublicKey sys _) fun _ =>
      Exec.alikeBind (localCreateChain sys (manager.chain chainId) _ _ _) fun _ => Exec.alikePure _
  | addBlock data =>
    refine Exec.alikeBind (Exec.alikeAttempt ?_) fun _ => Exec.alikePure _
    exact Exec.alikeBind (localCompose sys (manager.chain chainId) _) fun _ =>
      Exec.alikeBind (localAppend sys (manager.chain chainId) _) fun _ => Exec.alikePure _
  | getBlock index =>
    exact Exec.alikeBind (Exec.alikeAttempt (localGetBlock sys (manager.chain chainId) index))
      fun _ => Exec.alikePure _
  | getBlocks blocks =>
    exact Exec.alikeBind (localGetBlocks sys (manager.chain chainId) blocks) fun _ => Exec.alikePure _
  | removeChain =>
    exact Exec.alikeBind (Exec.alikeAttempt (localRemove (manager.chain chainId))) fun _ =>
      Exec.alikePure _
  | verifyChain =>
    refine Exec.alikeBind (Exec.alikeAttempt ?_) fun _ => Exec.alikePure _
    exact Exec.alikeBind (localGetHeader sys (manager.chain chainId)) fun _ =>
      Exec.alikeBind (localGetBlocks sys (manager.chain chainId) _) fun _ =>
        Exec.alikeBind (Exec.alikeCheck _) fun _ =>
          localVerifyBlocks sys (manager.chain chainId) _ _ _
  | getChainHeader =>
    exact Exec.alikeBind (Exec.alikeAttempt (localGetHeader sys (manager.chain chainId))) fun _ =>
      Exec.alikePure _
  | getChainInfo =>
    refine Exec.alikeBind (Exec.alikeAttempt ?_) fun _ => Exec.alikePure _
    exact Exec.alikeBind (localGetHeader sys (manager.chain chainId)) fun _ => Exec.alikePure _

section Calls
variable {sys : Platform} {manager : Manager} {call : Call} {dir dir' : Directory}

theorem effectLocal (here : dir (manager.makeStoragePath call.chainId) =
    dir' (manager.makeStoragePath call.chainId)) :
    event sys manager call dir = event sys manager call dir' ∧
      after sys manager call dir (manager.makeStoragePath call.chainId) =
        after sys manager call dir' (manager.makeStoragePath call.chainId) := by
  have alike := performLocal sys manager call.chainId call.operation (start dir call.draws)
    (start dir' call.draws) ⟨fun _ own => own ▸ here,rfl,rfl,rfl,rfl⟩
  refine ⟨?_,alike.2.here _ rfl⟩
  simp only [event,effect,alike.1,alike.2.failed]

theorem afterKept {path : Path} (other : path ≠ manager.makeStoragePath call.chainId) :
    after sys manager call dir path = dir path :=
  (performConfined sys manager call.chainId call.operation (start dir call.draws)).elsewhere path other

theorem afterAgrees {path : Path} (other : manager.makeStoragePath call.chainId ≠ path)
    (agree : ∀ p, p ≠ path → dir p = dir' p) :
    event sys manager call dir = event sys manager call dir' ∧
      ∀ p, p ≠ path → after sys manager call dir p = after sys manager call dir' p := by
  obtain ⟨same,entry⟩ := @effectLocal sys manager call dir dir' (agree _ other)
  refine ⟨same,fun p apart => ?_⟩
  by_cases own : p = manager.makeStoragePath call.chainId
  · rw [own,entry]
  · rw [afterKept own,afterKept own,agree p apart]

theorem callsCommute {first second : Call} (apart : first.chainId ≠ second.chainId) :
    event sys manager first (after sys manager second dir) = event sys manager first dir ∧
      event sys manager second (after sys manager first dir) = event sys manager second dir ∧
      after sys manager second (after sys manager first dir) =
        after sys manager first (after sys manager second dir) := by
  have paths : manager.makeStoragePath first.chainId ≠ manager.makeStoragePath second.chainId :=
    fun h => apart (makeStoragePathInjective h)
  obtain ⟨eventFirst,entryFirst⟩ :=
    @effectLocal sys manager first (after sys manager second dir) dir (afterKept paths)
  obtain ⟨eventSecond,entrySecond⟩ :=
    @effectLocal sys manager second (after sys manager first dir) dir (afterKept paths.symm)
  refine ⟨eventFirst,eventSecond,funext fun p => ?_⟩
  by_cases ofFirst : p = manager.makeStoragePath first.chainId
  · subst ofFirst
    rw [afterKept paths,entryFirst]
  · by_cases ofSecond : p = manager.makeStoragePath second.chainId
    · subst ofSecond
      rw [entrySecond,afterKept paths.symm]
    · rw [afterKept ofSecond,afterKept ofFirst,afterKept ofFirst,afterKept ofSecond]

end Calls

theorem runWithout {sys : Platform} {manager : Manager} {a : UInt64} {dir dir' : Directory}
    (agree : ∀ p, p ≠ manager.makeStoragePath a → dir p = dir' p) (calls : List Call) :
    (run sys manager dir calls).1.filter (fun event => event.call.chainId ≠ a) =
      (run sys manager dir' (calls.filter (fun call => call.chainId ≠ a))).1 := by
  induction calls generalizing dir dir' with
  | nil => rfl
  | cons call rest ih =>
    by_cases own : call.chainId = a
    · have kept : ∀ p, p ≠ manager.makeStoragePath a → after sys manager call dir p = dir' p := by
        intro p apart
        rw [← own] at apart
        rw [afterKept apart]
        exact agree p (own ▸ apart)
      simp only [run,List.filter_cons,event,own,ne_eq,not_true_eq_false,decide_false]
      exact ih kept
    · have paths : manager.makeStoragePath call.chainId ≠ manager.makeStoragePath a :=
        fun h => own (makeStoragePathInjective h)
      obtain ⟨same,kept⟩ := @afterAgrees sys manager call dir dir' _ paths agree
      have listed : (call :: rest).filter (fun call => call.chainId ≠ a) =
          call :: rest.filter (fun call => call.chainId ≠ a) :=
        List.filter_cons_of_pos (decide_eq_true own)
      have seen : ∀ later : List Event,
          (event sys manager call dir :: later).filter (fun event => event.call.chainId ≠ a) =
            event sys manager call dir :: later.filter (fun event => event.call.chainId ≠ a) :=
        fun later => List.filter_cons_of_pos (decide_eq_true own)
      rw [listed]
      simp only [run]
      rw [seen,ih kept,same]

theorem chainsAreIsolated (sys : Platform) (manager : Manager) (a b : UInt64) (apart : a ≠ b) :
    (∀ dir operationA operationB drawsA drawsB,
      let first : Call := ⟨a,operationA,drawsA⟩
      let second : Call := ⟨b,operationB,drawsB⟩
      (event sys manager first (after sys manager second dir)).outcome =
          (event sys manager first dir).outcome ∧
        (event sys manager second (after sys manager first dir)).outcome =
          (event sys manager second dir).outcome ∧
        after sys manager second (after sys manager first dir) =
          after sys manager first (after sys manager second dir)) ∧
    ∀ dir calls, (run sys manager dir calls).1.filter (fun event => event.call.chainId = b) =
      (run sys manager dir (calls.filter (fun call => call.chainId ≠ a))).1.filter
        (fun event => event.call.chainId = b) := by
  constructor
  · intro dir operationA operationB drawsA drawsB first second
    obtain ⟨one,two,final⟩ := @callsCommute sys manager dir first second apart
    exact ⟨by rw [one],by rw [two],final⟩
  · intro dir calls
    rw [← runWithout (fun _ _ => rfl) calls,List.filter_filter]
    refine List.filter_congr fun event _ => ?_
    by_cases ofB : event.call.chainId = b
    · simp [ofB,apart.symm]
    · simp [ofB]

theorem sampleChainsIsolated :
    (∀ dir operationA operationB drawsA drawsB,
      let first : Call := ⟨1,operationA,drawsA⟩
      let second : Call := ⟨2,operationB,drawsB⟩
      (event Sample.platform ⟨[]⟩ first (after Sample.platform ⟨[]⟩ second dir)).outcome =
          (event Sample.platform ⟨[]⟩ first dir).outcome ∧
        (event Sample.platform ⟨[]⟩ second (after Sample.platform ⟨[]⟩ first dir)).outcome =
          (event Sample.platform ⟨[]⟩ second dir).outcome ∧
        after Sample.platform ⟨[]⟩ second (after Sample.platform ⟨[]⟩ first dir) =
          after Sample.platform ⟨[]⟩ first (after Sample.platform ⟨[]⟩ second dir)) ∧
    ∀ dir calls,
      (run Sample.platform ⟨[]⟩ dir calls).1.filter (fun event => event.call.chainId = 2) =
        (run Sample.platform ⟨[]⟩ dir (calls.filter (fun call => call.chainId ≠ 1))).1.filter
          (fun event => event.call.chainId = 2) :=
  chainsAreIsolated Sample.platform ⟨[]⟩ 1 2 (by decide)

end Manager
end ChainDB
