import ChainDB.Messages

/-! SHA256.cpp, Random.cpp and ECDSA.cpp over OpenSSL and libsecp256k1, which are
parameters. A null pointer that the source passes on is an `Option` here, and reading
through it is `Halt.nullDereference`. -/
namespace ChainDB
open Effects

abbrev Hash := Data 32
abbrev PrivateKey := Data 32
abbrev PublicKey := Data 33
abbrev Signature := Data 64
abbrev Nonce := Data 8

structure Secp256k1Library where
  ecSeckeyVerify : PrivateKey → Bool
  ecPubkeyCreate : PrivateKey → Option (Data 64)
  ecPubkeySerialize : Data 64 → PublicKey
  ecPubkeyParse : PublicKey → Option (Data 64)
  ecdsaSign : Hash → PrivateKey → Option (Data 64)
  ecdsaSignatureSerializeCompact : Data 64 → Signature
  ecdsaSignatureParseCompact : Signature → Option (Data 64)
  ecdsaVerify : Data 64 → Hash → Data 64 → Bool

/- Everything outside the repository: the hash function, the curve library and the code
that the build generates for the messages. -/
structure Platform where
  sha256 : Bytes → Hash
  secp : Secp256k1Library
  header : Codec Blockchain.Header
  block : Codec Blockchain.Block
  request : Codec IPC.Request
  response : Codec IPC.Response

namespace SHA256

def update : List Bytes → Bytes → Action Bytes
  | [],ctx => pure ctx
  | data :: rest,ctx => do
    let _ ← call .hash
    update rest (ctx ++ data)

def final (sys : Platform) (ctx : Bytes) : Action Hash := do
  let _ ← call .hash
  Exec.modify (fun w => {w with hashed := w.hashed ++ [ctx]})
  pure (sys.sha256 ctx)

def getHash (sys : Platform) (input : List Bytes) : Action Hash := do
  let _ ← call .hash
  let ctx ← update input []
  final sys ctx

def rehash (sys : Platform) : Nat → Hash → Action Hash
  | 0,hash => pure hash
  | rounds + 1,hash => do
    let hash ← getHash sys [hash.bytes]
    rehash sys rounds hash

/- The bound `n - 1` wraps at `n = 0`, as `size_t` does. -/
def getHashN (sys : Platform) (input : List Bytes) (n : UInt64) : Action Hash := do
  let hash ← getHash sys input
  rehash sys (n - 1).toNat hash

end SHA256

namespace Random

def random (length : Nat) : Action (Data length) := do
  let draw ← call .random
  pure ⟨(List.range length).map draw.random,by simp⟩

end Random

namespace Secp256k1

def generatePrivateKey (sys : Platform) : Action PrivateKey := do
  let data ← Random.random 32
  if sys.secp.ecSeckeyVerify data then pure data else fault

def createPublicKey (sys : Platform) (privateKey : PrivateKey) : Action PublicKey := do
  let _ ← call .secp
  match sys.secp.ecPubkeyCreate privateKey with
  | none => fault
  | some publicKey => do
    let _ ← call .secp
    pure (sys.secp.ecPubkeySerialize publicKey)

def getSignature (sys : Platform) (hash : Hash) (privateKey : PrivateKey) : Action Signature := do
  let _ ← call .secp
  match sys.secp.ecdsaSign hash privateKey with
  | none => fault
  | some signature => do
    let _ ← call .secp
    pure (sys.secp.ecdsaSignatureSerializeCompact signature)

/- The hash is read only after both parses succeeded. -/
def verifySignature (sys : Platform) (hash : Option Hash) (publicKey : PublicKey)
    (signature : Signature) : Action Unit :=
  match sys.secp.ecPubkeyParse publicKey with
  | none => Exec.absent
  | some pubKey =>
    match sys.secp.ecdsaSignatureParseCompact signature with
    | none => Exec.absent
    | some sign =>
      match hash with
      | none => Exec.halt .nullDereference
      | some hash => Exec.check (sys.secp.ecdsaVerify sign hash pubKey = true)

end Secp256k1

namespace Platform

def publicKeyOf (sys : Platform) (privateKey : PrivateKey) : Option PublicKey :=
  (sys.secp.ecPubkeyCreate privateKey).map sys.secp.ecPubkeySerialize

def signatureOf (sys : Platform) (hash : Hash) (privateKey : PrivateKey) : Option Signature :=
  (sys.secp.ecdsaSign hash privateKey).map sys.secp.ecdsaSignatureSerializeCompact

def Verifies (sys : Platform) (hash : Hash) (publicKey : PublicKey) (signature : Signature) : Prop :=
  ∃ pubKey sign, sys.secp.ecPubkeyParse publicKey = some pubKey ∧
    sys.secp.ecdsaSignatureParseCompact signature = some sign ∧
    sys.secp.ecdsaVerify sign hash pubKey = true

/- A signature made with a valid key verifies under the public key of that key. -/
def SignaturesVerify (sys : Platform) : Prop :=
  ∀ privateKey publicKey hash signature, sys.secp.ecSeckeyVerify privateKey = true →
    sys.publicKeyOf privateKey = some publicKey → sys.signatureOf hash privateKey = some signature →
    sys.Verifies hash publicKey signature

end Platform

namespace SHA256

theorem updateDone {input ctx w out t} (h : update input ctx w = (.done out,t)) :
    out = ctx ++ input.flatten ∧ t.hashed = w.hashed := by
  induction input generalizing ctx w with
  | nil =>
    cases h
    exact ⟨by simp,rfl⟩
  | cons data rest ih =>
    simp only [update,Exec.bindDone,callDone] at h
    obtain ⟨_,u,⟨_,_,rfl⟩,last⟩ := h
    obtain ⟨same,log⟩ := ih last
    exact ⟨by simp [same],log⟩

theorem updateTame (input : List Bytes) (ctx : Bytes) : Tame (update input ctx) := by
  induction input generalizing ctx with
  | nil => exact tamePure _
  | cons data rest ih => exact tameBind (tameCall .hash) fun _ => ih _

theorem finalTame (sys : Platform) (ctx : Bytes) : Tame (final sys ctx) :=
  tameBind (tameCall .hash) fun _ => tameBind (tameNote ctx) fun _ => tamePure _

theorem hashDone {sys input w hash t} (h : getHash sys input w = (.done hash,t)) :
    hash = sys.sha256 input.flatten ∧ t.hashed = w.hashed ++ [input.flatten] := by
  simp only [getHash,final,Exec.bindDone,callDone,Exec.modifyApply,Prod.mk.injEq,Exec.pureApply,
    Outcome.done.injEq] at h
  obtain ⟨_,u,⟨_,_,rfl⟩,ctx,v,updated,_,_,⟨_,_,rfl⟩,_,_,⟨_,rfl⟩,rfl,rfl⟩ := h
  obtain ⟨rfl,log⟩ := updateDone updated
  refine ⟨by simp,?_⟩
  simp only [World.spend,log,List.nil_append]

theorem hashTame (sys : Platform) (input : List Bytes) : Tame (getHash sys input) :=
  tameBind (tameCall .hash) fun _ => tameBind (updateTame _ _) fun _ => finalTame _ _

theorem rehashTame (sys : Platform) (rounds : Nat) (hash : Hash) : Tame (rehash sys rounds hash) := by
  induction rounds generalizing hash with
  | zero => exact tamePure _
  | succ rounds ih => exact tameBind (hashTame sys _) fun _ => ih _

theorem hashNTame (sys : Platform) (input : List Bytes) (n : UInt64) : Tame (getHashN sys input n) :=
  tameBind (hashTame sys _) fun _ => rehashTame sys _ _

theorem smoothHash {kinds : Primitive → Prop} (known : kinds .hash) (sys : Platform)
    (input : List Bytes) : Exec.Keeps (Smooth kinds) (getHash sys input) := by
  have update : ∀ input ctx, Exec.Keeps (Smooth kinds) (update input ctx) := by
    intro input
    induction input with
    | nil => exact fun ctx => Exec.keepsPure _
    | cons data rest ih => exact fun ctx => Exec.keepsBind (smoothCall known) fun _ => ih _
  exact Exec.keepsBind (smoothCall known) fun _ => Exec.keepsBind (update _ _) fun _ =>
    Exec.keepsBind (smoothCall known) fun _ => Exec.keepsBind (smoothNote _) fun _ => Exec.keepsPure _

theorem sureHash {kinds : Primitive → Prop} (known : kinds .hash) (sys : Platform)
    (input : List Bytes) : Sure kinds (getHash sys input) := by
  have update : ∀ input ctx, Sure kinds (update input ctx) := by
    intro input
    induction input with
    | nil => exact fun ctx => surePure _
    | cons data rest ih => exact fun ctx => sureBind (sureCall known) fun _ => ih _
  exact sureBind (sureCall known) fun _ => sureBind (update _ _) fun _ =>
    sureBind (sureCall known) fun _ => sureBind (sureNote _) fun _ => surePure _

theorem hashSucceeds (sys : Platform) (input : List Bytes) {w : World}
    (hashing : ∀ n, (w.draws n).ok .hash = true) : ∃ hash u, getHash sys input w = (.done hash,u) := by
  obtain ⟨hash,u,run,_⟩ := @sureHash (fun kind => .hash = kind) rfl sys input w
    fun n _ own => own ▸ hashing n
  exact ⟨hash,u,run⟩

theorem hashAbsent {sys : Platform} {input : List Bytes} {w t : World}
    (h : getHash sys input w = (.absent,t)) : ∃ n, (w.draws n).ok .hash = false := by
  by_contra none
  obtain ⟨hash,u,run⟩ := hashSucceeds sys input fun n => by
    by_contra failed
    exact none ⟨n,eq_false_of_ne_true failed⟩
  cases h.symm.trans run

theorem doubleHashDone {sys input w hash t} (h : getHashN sys input 2 w = (.done hash,t)) :
    hash = sys.sha256 (sys.sha256 input.flatten).bytes ∧
      t.hashed = w.hashed ++ [input.flatten,(sys.sha256 input.flatten).bytes] := by
  have rounds : ((2 : UInt64) - 1).toNat = 1 := by decide
  simp only [getHashN,rounds,rehash,Exec.bindDone,Exec.pureApply,Prod.mk.injEq,
    Outcome.done.injEq] at h
  obtain ⟨first,u,inner,_,_,outer,rfl,rfl⟩ := h
  obtain ⟨rfl,logInner⟩ := hashDone inner
  obtain ⟨same,logOuter⟩ := hashDone outer
  simp only [List.flatten_cons,List.flatten_nil,List.append_nil] at same logOuter
  exact ⟨same,by rw [logOuter,logInner]; simp⟩

end SHA256

theorem Random.randomTame (length : Nat) : Tame (Random.random length) :=
  tameBind (tameCall .random) fun _ => tamePure _

namespace Secp256k1

theorem privateKeyDone {sys w key t} (h : generatePrivateKey sys w = (.done key,t)) :
    sys.secp.ecSeckeyVerify key = true := by
  simp only [generatePrivateKey,Exec.bindDone] at h
  obtain ⟨data,u,_,last⟩ := h
  split at last
  · rename_i valid
    cases last
    exact valid
  · cases last

theorem privateKeyTame (sys : Platform) : Tame (generatePrivateKey sys) := by
  refine tameBind (Random.randomTame 32) fun _ => ?_
  split
  · exact tamePure _
  · exact tameFault

theorem publicKeyDone {sys privateKey w publicKey t}
    (h : createPublicKey sys privateKey w = (.done publicKey,t)) :
    sys.publicKeyOf privateKey = some publicKey := by
  simp only [createPublicKey,Exec.bindDone] at h
  obtain ⟨_,u,_,last⟩ := h
  cases made : sys.secp.ecPubkeyCreate privateKey with
  | none =>
    simp only [made] at last
    cases last
  | some object =>
    simp only [made,Exec.bindDone,Exec.pureApply,Prod.mk.injEq,Outcome.done.injEq] at last
    obtain ⟨_,_,_,same,_⟩ := last
    simp only [Platform.publicKeyOf,made,Option.map_some,same]

theorem publicKeyTame (sys : Platform) (privateKey : PrivateKey) :
    Tame (createPublicKey sys privateKey) := by
  refine tameBind (tameCall .secp) fun _ => ?_
  cases sys.secp.ecPubkeyCreate privateKey with
  | none => exact tameFault
  | some object => exact tameBind (tameCall .secp) fun _ => tamePure _

theorem signatureDone {sys hash privateKey w signature t}
    (h : getSignature sys hash privateKey w = (.done signature,t)) :
    sys.signatureOf hash privateKey = some signature := by
  simp only [getSignature,Exec.bindDone] at h
  obtain ⟨_,u,_,last⟩ := h
  cases made : sys.secp.ecdsaSign hash privateKey with
  | none =>
    simp only [made] at last
    cases last
  | some object =>
    simp only [made,Exec.bindDone,Exec.pureApply,Prod.mk.injEq,Outcome.done.injEq] at last
    obtain ⟨_,_,_,same,_⟩ := last
    simp only [Platform.signatureOf,made,Option.map_some,same]

theorem signatureTame (sys : Platform) (hash : Hash) (privateKey : PrivateKey) :
    Tame (getSignature sys hash privateKey) := by
  refine tameBind (tameCall .secp) fun _ => ?_
  cases sys.secp.ecdsaSign hash privateKey with
  | none => exact tameFault
  | some object => exact tameBind (tameCall .secp) fun _ => tamePure _

theorem verifySignatureDone {sys hash publicKey signature w u t}
    (h : verifySignature sys hash publicKey signature w = (.done u,t)) :
    ∃ value, hash = some value ∧ sys.Verifies value publicKey signature ∧ t = w := by
  unfold verifySignature at h
  cases parsedKey : sys.secp.ecPubkeyParse publicKey with
  | none =>
    simp only [parsedKey] at h
    cases h
  | some pubKey =>
    cases parsedSign : sys.secp.ecdsaSignatureParseCompact signature with
    | none =>
      simp only [parsedKey,parsedSign] at h
      cases h
    | some sign =>
      simp only [parsedKey,parsedSign] at h
      cases hash with
      | none => cases h
      | some value =>
        obtain ⟨valid,rfl⟩ := Exec.checkDone.mp h
        exact ⟨value,rfl,⟨pubKey,sign,parsedKey,parsedSign,valid⟩,rfl⟩

theorem verifySignatureHolds {sys hash publicKey signature}
    (holds : sys.Verifies hash publicKey signature) (w : World) :
    verifySignature sys (some hash) publicKey signature w = (.done (),w) := by
  obtain ⟨pubKey,sign,parsedKey,parsedSign,valid⟩ := holds
  simp only [verifySignature,parsedKey,parsedSign,Exec.check,valid,if_true,Exec.pureApply]

theorem verifySignatureHalt {sys hash publicKey signature w e t}
    (h : verifySignature sys hash publicKey signature w = (.halt e,t)) : hash = none ∧ t = w := by
  unfold verifySignature at h
  cases parsedKey : sys.secp.ecPubkeyParse publicKey with
  | none =>
    simp only [parsedKey] at h
    cases h
  | some pubKey =>
    cases parsedSign : sys.secp.ecdsaSignatureParseCompact signature with
    | none =>
      simp only [parsedKey,parsedSign] at h
      cases h
    | some sign =>
      simp only [parsedKey,parsedSign] at h
      cases hash with
      | none =>
        cases h
        exact ⟨rfl,rfl⟩
      | some value => exact absurd h (Exec.totalCheck _ _ _ _)

theorem verifySignatureKeeps {R : World → World → Prop} [Std.Refl R] (sys : Platform)
    (hash : Option Hash) (publicKey : PublicKey) (signature : Signature) :
    Exec.Keeps R (verifySignature sys hash publicKey signature) := by
  unfold verifySignature
  cases sys.secp.ecPubkeyParse publicKey with
  | none => exact Exec.keepsAbsent
  | some pubKey =>
    cases sys.secp.ecdsaSignatureParseCompact signature with
    | none => exact Exec.keepsAbsent
    | some sign =>
      cases hash with
      | none => exact Exec.keepsHalt _
      | some hash => exact Exec.keepsCheck _

end Secp256k1
end ChainDB
