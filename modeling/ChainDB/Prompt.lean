import ChainDB.Hashing
import ChainDB.Reading

/-! Failed primitive calls inside the operations: which of them end the operation with nothing, and the
one whose missing result `verifyChain` reads. -/
namespace ChainDB
open Effects HashChain

/- A primitive that fails in the run is the end of it, one way or the other. -/
def Prompt {α : Type} (m : Action α) : Prop :=
  ∀ w o t, m w = (o,t) → t.failed = true →
    w.failed = true ∨ o = .absent ∨ o = .halt .nullDereference

section Prompt
variable {α β : Type} {m : Action α} {f : α → Action β}

theorem promptPure (a : α) : Prompt (pure a : Action α) := by
  intro w o t h failed
  cases h
  exact Or.inl failed

theorem promptCheck (p : Prop) [Decidable p] : Prompt (Exec.check p : Action Unit) := by
  intro w o t h failed
  unfold Exec.check at h
  split at h <;> cases h <;> exact Or.inl failed

theorem promptOfOption (o : Option α) : Prompt (Exec.ofOption o : Action α) := by
  intro w o' t h failed
  cases o <;> cases h <;> exact Or.inl failed

theorem promptFault : Prompt (fault : Action α) := by
  intro w o t h _
  exact Or.inr (Or.inl (faultAbsent.mp h).1)

theorem promptCall (kind : Primitive) : Prompt (call kind) := by
  intro w o t h failed
  unfold call at h
  split at h <;> cases h
  · exact Or.inl failed
  · exact Or.inr (Or.inl rfl)

theorem Prompt.before (prompt : Prompt m) {w u : World} {a : α} (run : m w = (.done a,u))
    (failed : u.failed = true) : w.failed = true := by
  rcases prompt w _ u run failed with earlier | none | none
  · exact earlier
  · cases none
  · cases none

theorem promptBind (first : Prompt m) (next : ∀ a, Prompt (f a)) : Prompt (m >>= f) := by
  intro w o t h failed
  rcases run : m w with ⟨a | _ | e,u⟩
  · rw [Exec.bindOfDone run] at h
    rcases next a u o t h failed with before | ended
    · exact Or.inl (first.before run before)
    · exact Or.inr ended
  · rw [Exec.bindOfAbsent run] at h
    cases h
    exact Or.inr (Or.inl rfl)
  · rw [Exec.bindOfHalt run] at h
    cases h
    rcases first w _ _ run failed with earlier | none | null
    · exact Or.inl earlier
    · cases none
    · cases null
      exact Or.inr (Or.inr rfl)

theorem Takes.prompt {kind : Primitive} {n : Nat} {log : List Bytes} {a : α}
    (takes : Takes kind n log a m) : Prompt m := by
  intro w o t h failed
  rcases takes.cases w with ⟨_,run⟩ | ⟨_,u,run,_⟩ <;> cases h.symm.trans run
  · exact Or.inl failed
  · exact Or.inr (Or.inl rfl)

theorem promptOpen {path : Path} {body : Storage → Action α} (inner : Prompt (body ⟨path,true⟩)) :
    Prompt (Storage.session Storage.open path body) := by
  intro w o t h failed
  rcases Storage.openSessionCases h with ⟨absent,_⟩ | ⟨_,u,_,_,run,rfl⟩
  · exact Or.inr (Or.inl absent)
  · exact inner (Storage.within path w) o u run failed

theorem promptCreate {path : Path} {body : Storage → Action α} (inner : Prompt (body ⟨path,true⟩)) :
    Prompt (Storage.session Storage.create path body) := by
  intro w o t h failed
  rcases Storage.createSessionCases h with ⟨absent,_⟩ | ⟨u,_,_,run,rfl⟩
  · exact Or.inr (Or.inl absent)
  · exact inner (Storage.within path (DB.place path (some ∅) w)) o u run failed

end Prompt

theorem promptSerialize {μ : Type} (codec : Codec μ) (m : μ) : Prompt (codec.serializeToString m) := by
  refine promptBind (promptCall .serialise) fun _ => ?_
  split
  · exact promptPure _
  · exact promptFault

namespace Secp256k1

theorem privateKeyPrompt (sys : Platform) : Prompt (generatePrivateKey sys) := by
  refine promptBind (promptBind (promptCall .random) fun _ => promptPure _) fun _ => ?_
  split
  · exact promptPure _
  · exact promptFault

theorem publicKeyPrompt (sys : Platform) (privateKey : PrivateKey) :
    Prompt (createPublicKey sys privateKey) := by
  refine promptBind (promptCall .secp) fun _ => ?_
  cases sys.secp.ecPubkeyCreate privateKey with
  | none => exact promptFault
  | some object => exact promptBind (promptCall .secp) fun _ => promptPure _

theorem signaturePrompt (sys : Platform) (hash : Hash) (privateKey : PrivateKey) :
    Prompt (getSignature sys hash privateKey) := by
  refine promptBind (promptCall .secp) fun _ => ?_
  cases sys.secp.ecdsaSign hash privateKey with
  | none => exact promptFault
  | some object => exact promptBind (promptCall .secp) fun _ => promptPure _

end Secp256k1

theorem verifySignaturePrompt (sys : Platform) (hash : Option Hash) (publicKey : PublicKey)
    (signature : Signature) : Prompt (Secp256k1.verifySignature sys hash publicKey signature) := by
  intro w o t h failed
  have still := (Secp256k1.verifySignatureKeeps (R := Eq) sys hash publicKey signature).apply h
  exact Or.inl (still ▸ failed)

structure Platform.Parses (sys : Platform) (publicKey : PublicKey) (signature : Signature) : Prop where
  key : sys.secp.ecPubkeyParse publicKey ≠ none
  signature : sys.secp.ecdsaSignatureParseCompact signature ≠ none

theorem verifySignatureReads {sys : Platform} {publicKey : PublicKey} {signature : Signature}
    (parses : sys.Parses publicKey signature) (w : World) :
    Secp256k1.verifySignature sys none publicKey signature w = (.halt .nullDereference,w) := by
  obtain ⟨pubKey,key⟩ := Option.ne_none_iff_exists'.mp parses.key
  obtain ⟨sign,parsed⟩ := Option.ne_none_iff_exists'.mp parses.signature
  simp only [Secp256k1.verifySignature,key,parsed]
  rfl

theorem verifySignatureStops {sys : Platform} {publicKey : PublicKey} {signature : Signature}
    (unparsed : ¬ sys.Parses publicKey signature) (w : World) :
    Secp256k1.verifySignature sys none publicKey signature w = (.absent,w) := by
  unfold Secp256k1.verifySignature
  cases key : sys.secp.ecPubkeyParse publicKey with
  | none => rfl
  | some pubKey =>
    cases parsed : sys.secp.ecdsaSignatureParseCompact signature with
    | none => rfl
    | some sign => exact absurd ⟨by simp [key],by simp [parsed]⟩ unparsed

theorem hashPrompt (sys : Platform) (input : List Bytes) : Prompt (SHA256.getHash sys input) :=
  (SHA256.hashTakes sys input).prompt

theorem hashNPrompt (sys : Platform) (input : List Bytes) (n : UInt64) :
    Prompt (SHA256.getHashN sys input n) := by
  obtain ⟨hash,_,takes⟩ := SHA256.hashNTakes sys input n
  exact takes.prompt

namespace Storage

theorem getPrompt (path : Path) (key : Bytes) : Prompt (get ⟨path,true⟩ key) := by
  intro w o t h failed
  rw [getApply] at h
  split at h
  · exact promptOfOption _ w.spend o t h failed
  · cases h
    exact Or.inr (Or.inl rfl)

theorem setPrompt (path : Path) (pairs : List (Bytes × Bytes)) : Prompt (set ⟨path,true⟩ pairs) := by
  intro w o t h failed
  rw [setApply] at h
  split at h <;> cases h
  · exact Or.inl failed
  · exact Or.inr (Or.inl rfl)

end Storage

namespace Chain

theorem headerFromPrompt (sys : Platform) (path : Path) : Prompt (getHeaderFrom sys ⟨path,true⟩) :=
  promptBind (Storage.getPrompt _ _) fun _ => promptBind (promptOfOption _) fun _ =>
    promptBind (promptCheck _) fun _ => promptPure _

theorem blockFromPrompt (sys : Platform) (path : Path) (index : UInt64) :
    Prompt (getBlockFrom sys ⟨path,true⟩ index) :=
  promptBind (Storage.getPrompt _ _) fun _ => promptOfOption _

theorem getHeaderPrompt (sys : Platform) (chain : Chain) : Prompt (getHeader sys chain) :=
  promptOpen (promptBind (Storage.getPrompt _ _) fun _ => promptOfOption _)

theorem getBlockPrompt (sys : Platform) (chain : Chain) (index : UInt64) :
    Prompt (getBlock sys chain index) :=
  promptOpen (promptBind (headerFromPrompt _ _) fun _ => promptBind (promptCheck _) fun _ =>
    blockFromPrompt _ _ _)

theorem createPrompt (sys : Platform) (chain : Chain) (data : Bytes) (privateKey : PrivateKey)
    (publicKey : PublicKey) : Prompt (create sys chain data privateKey publicKey) :=
  promptBind (promptSerialize _ _) fun _ => promptCreate (Storage.setPrompt _ _)

theorem addBlockPrompt (sys : Platform) (chain : Chain) (block : Block) :
    Prompt (addBlock sys chain block) :=
  promptOpen (promptBind (headerFromPrompt _ _) fun _ => promptBind (promptSerialize _ _) fun _ =>
    promptBind (promptSerialize _ _) fun _ => Storage.setPrompt _ _)

theorem loopPrompt {sys path last rounds i blocks w o t}
    (h : getBlocksLoop sys ⟨path,true⟩ last rounds i blocks w = (o,t)) (failed : t.failed = true) :
    w.failed = true ∨ ∃ after, o = .done (false,after) := by
  induction rounds generalizing i blocks w with
  | zero =>
    cases h
    exact Or.inl failed
  | succ rounds ih =>
    unfold getBlocksLoop at h
    split at h
    · rcases read : getBlockFrom sys ⟨path,true⟩ i w with ⟨block | _ | e,u⟩
      · rw [Exec.bindOfDone (Exec.attemptSome.mpr read)] at h
        rcases ih h with before | ended
        · exact Or.inl ((blockFromPrompt sys path i).before read before)
        · exact Or.inr ended
      · rw [Exec.bindOfDone (Exec.attemptNone.mpr read)] at h
        cases h
        exact Or.inr ⟨blocks,rfl⟩
      · exact absurd read ((blockFromSteady sys path i).total w e u)
    · cases h
      exact Or.inl failed

theorem getBlocksPrompt {sys chain blocks w o t} (h : getBlocks sys chain blocks w = (o,t))
    (failed : t.failed = true) : w.failed = true ∨ ∃ after, o = .done (false,after) := by
  unfold getBlocks at h
  rw [Exec.attemptMap] at h
  generalize ran : (Storage.session Storage.open chain.path fun storage => do
    let header ← getHeaderFrom sys storage
    getBlocksLoop sys storage header.index counterValues 1 blocks) w = r at h
  have inner : r.2.failed = true →
      w.failed = true ∨ r.1 = .absent ∨ ∃ after, r.1 = .done (false,after) := by
    intro broken
    rcases Storage.openSessionCases ran with ⟨absent,_⟩ | ⟨_,u,_,_,run,same⟩
    · exact Or.inr (Or.inl absent)
    · rw [same] at broken
      rcases got : getHeaderFrom sys ⟨chain.path,true⟩ (Storage.within chain.path w) with
        ⟨header | _ | e,v⟩
      · rw [Exec.bindOfDone got] at run
        rcases loopPrompt run broken with before | ended
        · have earlier := (headerFromPrompt sys chain.path).before got before
          exact Or.inl earlier
        · exact Or.inr (Or.inr ended)
      · rw [Exec.bindOfAbsent got] at run
        exact Or.inr (Or.inl (congrArg Prod.fst run).symm)
      · exact absurd got ((headerFromSteady sys chain.path).total _ e v)
  obtain ⟨result | _ | e,u⟩ := r <;> cases h
  · rcases inner failed with earlier | absent | ⟨after,ended⟩
    · exact Or.inl earlier
    · cases absent
    · cases ended
      exact Or.inr ⟨after,rfl⟩
  · exact Or.inr ⟨blocks,rfl⟩
  · rcases inner failed with earlier | absent | ⟨after,ended⟩
    · exact Or.inl earlier
    · cases absent
    · cases ended

end Chain

namespace Manager

theorem previousHashPrompt (sys : Platform) (chain : Chain) (header : Header) :
    Prompt (previousHash sys chain header) := by
  unfold previousHash
  split
  · exact hashNPrompt _ _ _
  · exact promptBind (Chain.getBlockPrompt _ _ _) fun _ => promptPure _

theorem sealBlockPrompt (sys : Platform) (header : Header) (prevHash : Hash) (data : Bytes) :
    Prompt (sealBlock sys header prevHash data) :=
  promptBind (promptBind (promptCall .random) fun _ => promptPure _) fun _ =>
    promptBind (hashPrompt _ _) fun _ => promptBind (Secp256k1.signaturePrompt _ _ _) fun _ =>
      promptBind (hashPrompt _ _) fun _ => promptPure _

theorem addBlockPrompt (sys : Platform) (manager : Manager) (chainId : UInt64) (data : Bytes) :
    Prompt (addBlock sys manager chainId data) :=
  promptBind (promptBind (Chain.getHeaderPrompt _ _) fun _ =>
    promptBind (previousHashPrompt _ _ _) fun _ => sealBlockPrompt _ _ _ _) fun _ =>
      promptBind (Chain.addBlockPrompt _ _ _) fun _ => promptPure _

theorem createChainPrompt (sys : Platform) (manager : Manager) (chainId : UInt64) (data : Bytes) :
    Prompt (createChain sys manager chainId data) :=
  promptBind (Secp256k1.privateKeyPrompt _) fun _ => promptBind (Secp256k1.publicKeyPrompt _ _) fun _ =>
    promptBind (Chain.createPrompt _ _ _ _ _) fun _ => promptPure _

theorem priorHashPrompt (sys : Platform) (header : Header) (last : Option Block) :
    Prompt (priorHash sys header last) := by
  cases last with
  | none => exact hashNPrompt _ _ _
  | some block => exact promptPure _

theorem verifyBlockPrompt (sys : Platform) (header : Header) (prevHash : Hash) (block : Block) :
    Prompt (verifyBlock sys header prevHash block) := by
  intro w o t h failed
  have takes := SHA256.hashTakes sys [prevHash.bytes,block.nonce.bytes,block.data]
  unfold verifyBlock at h
  rcases takes.cases w with ⟨_,body⟩ | ⟨_,u,body,_⟩
  · rw [Exec.bindOfDone (Exec.attemptSome.mpr body)] at h
    exact promptBind (verifySignaturePrompt _ _ _ _)
      (fun _ => promptBind (hashPrompt sys _) fun _ => promptCheck _) (w.later _ _) o t h failed
  · rw [Exec.bindOfDone (Exec.attemptNone.mpr body)] at h
    by_cases parses : sys.Parses header.publicKey block.signature
    · cases (Exec.bindOfHalt (verifySignatureReads parses u)).symm.trans h
      exact Or.inr (Or.inr rfl)
    · cases (Exec.bindOfAbsent (verifySignatureStops parses u)).symm.trans h
      exact Or.inr (Or.inl rfl)

theorem verifyBlocksPrompt (sys : Platform) (header : Header) (last : Option Block)
    (blocks : List Block) : Prompt (verifyBlocks sys header last blocks) := by
  induction blocks generalizing last with
  | nil => exact promptPure _
  | cons block rest ih =>
    exact promptBind (priorHashPrompt _ _ _) fun _ =>
      promptBind (verifyBlockPrompt _ _ _ _) fun _ => ih _

theorem verifyChainPrompt (sys : Platform) (manager : Manager) (chainId : UInt64) :
    Prompt (verifyChain sys manager chainId) := by
  refine promptBind (Chain.getHeaderPrompt _ _) fun header => ?_
  intro w o t h failed
  rcases read : (manager.chain chainId).getBlocks sys [] w with ⟨result | _ | e,u⟩
  · rw [Exec.bindOfDone read] at h
    rcases promptBind (promptCheck _) (fun _ => verifyBlocksPrompt sys header none _) u o t h failed with
      before | ended
    · rcases Chain.getBlocksPrompt read before with earlier | ⟨after,short⟩
      · exact Or.inl earlier
      · cases short
        have refused : (Exec.check ((false,after).1 = true) : Action Unit) u = (.absent,u) :=
          Exec.checkAbsent.mpr ⟨by simp,rfl⟩
        cases (Exec.bindOfAbsent refused).symm.trans h
        exact Or.inr (Or.inl rfl)
    · exact Or.inr ended
  · cases (Exec.bindOfAbsent read).symm.trans h
    exact Or.inr (Or.inl rfl)
  · cases (Exec.bindOfHalt read).symm.trans h
    rcases Chain.getBlocksPrompt read failed with earlier | ⟨after,none⟩
    · exact Or.inl earlier
    · cases none

end Manager
end ChainDB
