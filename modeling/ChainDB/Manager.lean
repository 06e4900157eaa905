import ChainDB.Chain
import Mathlib.Data.List.Induction

/-! Manager.cpp, and runs of its operations: each call has the outcomes of its own primitive
calls as input and starts with no database open. A call that stops the program leaves the
directory as it is, and the next call belongs to a new process. -/
namespace ChainDB
open Effects

structure Manager where
  storageDir : Bytes
  deriving DecidableEq, Repr

def separator : UInt8 := 47

/- `std::filesystem::path::operator/` for a relative right operand. -/
def joinPath (dir name : Bytes) : Path :=
  if dir = [] ∨ dir.getLast? = some separator then dir ++ name else dir ++ separator :: name

namespace Manager

def makeStoragePath (manager : Manager) (chainId : UInt64) : Path :=
  joinPath manager.storageDir (decimal chainId ++ ascii ".blockchain")

def chain (manager : Manager) (chainId : UInt64) : Chain := ⟨manager.makeStoragePath chainId⟩

def createChain (sys : Platform) (manager : Manager) (chainId : UInt64) (data : Bytes) :
    Action Chain := do
  let privateKey ← Secp256k1.generatePrivateKey sys
  let publicKey ← Secp256k1.createPublicKey sys privateKey
  let chain := manager.chain chainId
  chain.create sys data privateKey publicKey
  pure chain

/- The part of `addBlock` that finds `prevHash`. -/
def previousHash (sys : Platform) (chain : Chain) (header : Header) : Action Hash :=
  if header.index = 0 then
    SHA256.getHashN sys [header.data,header.privateKey.bytes,header.publicKey.bytes] 2
  else do
    let lastBlock ← chain.getBlock sys header.index
    pure lastBlock.hash

/- The part of `addBlock` that makes the container. -/
def sealBlock (sys : Platform) (header : Header) (prevHash : Hash) (data : Bytes) : Action Block := do
  let nonce ← Block.generateNonce
  let bodyHash ← SHA256.getHash sys [prevHash.bytes,nonce.bytes,data]
  let signature ← Secp256k1.getSignature sys bodyHash header.privateKey
  let hash ← SHA256.getHash sys [prevHash.bytes,nonce.bytes,data,signature.bytes]
  pure ⟨hash,prevHash,nonce,data,signature⟩

/- Everything of `addBlock` before `chain.addBlock`. -/
def composeBlock (sys : Platform) (chain : Chain) (data : Bytes) : Action Block := do
  let header ← chain.getHeader sys
  let prevHash ← previousHash sys chain header
  sealBlock sys header prevHash data

def addBlock (sys : Platform) (manager : Manager) (chainId : UInt64) (data : Bytes) :
    Action Block := do
  let chain := manager.chain chainId
  let block ← composeBlock sys chain data
  chain.addBlock sys block
  pure block

def getBlock (sys : Platform) (manager : Manager) (chainId index : UInt64) : Action Block :=
  (manager.chain chainId).getBlock sys index

def getBlocks (sys : Platform) (manager : Manager) (chainId : UInt64) (blocks : List Block) :
    Action (Bool × List Block) :=
  (manager.chain chainId).getBlocks sys blocks

def removeChain (manager : Manager) (chainId : UInt64) : Action Unit :=
  (manager.chain chainId).remove

/- `prevHash` in `verifyChain`; `last` is `blocks[index - 1]`, absent at index 0. -/
def priorHash (sys : Platform) (header : Header) (last : Option Block) : Action Hash :=
  match last with
  | none => SHA256.getHashN sys [header.data,header.privateKey.bytes,header.publicKey.bytes] 2
  | some lastBlock => pure lastBlock.hash

def verifyBlock (sys : Platform) (header : Header) (prevHash : Hash) (block : Block) :
    Action Unit := do
  let bodyHash ← Exec.attempt (SHA256.getHash sys [prevHash.bytes,block.nonce.bytes,block.data])
  Secp256k1.verifySignature sys bodyHash header.publicKey block.signature
  let hash ← SHA256.getHash sys
    [prevHash.bytes,block.nonce.bytes,block.data,block.signature.bytes]
  Exec.check (block.hash = hash)

def verifyBlocks (sys : Platform) (header : Header) : Option Block → List Block → Action Unit
  | _,[] => pure ()
  | last,block :: rest => do
    let prevHash ← priorHash sys header last
    verifyBlock sys header prevHash block
    verifyBlocks sys header (some block) rest

def verifyChain (sys : Platform) (manager : Manager) (chainId : UInt64) : Action Unit := do
  let chain := manager.chain chainId
  let header ← chain.getHeader sys
  let (complete,blocks) ← chain.getBlocks sys []
  Exec.check (complete = true)
  verifyBlocks sys header none blocks

def getChainHeader (sys : Platform) (manager : Manager) (chainId : UInt64) : Action Header :=
  (manager.chain chainId).getHeader sys

def getChainInfo (sys : Platform) (manager : Manager) (chainId : UInt64) :
    Action (UInt64 × UInt64) := do
  let header ← (manager.chain chainId).getHeader sys
  pure (header.version,header.index)

inductive Operation where
  | createChain (data : Bytes)
  | addBlock (data : Bytes)
  | getBlock (index : UInt64)
  | getBlocks (blocks : List Block)
  | removeChain
  | verifyChain
  | getChainHeader
  | getChainInfo
  deriving DecidableEq, Repr

/-- The returned pointers and flags, with what the out parameters hold. -/
inductive Result where
  | chain (result : Option Chain)
  | block (result : Option Block)
  | blocks (result : Bool × List Block)
  | flag (result : Bool)
  | header (result : Option Header)
  | info (result : Option (UInt64 × UInt64))
  deriving DecidableEq, Repr

def perform (sys : Platform) (manager : Manager) (chainId : UInt64) : Operation → Action Result
  | .createChain data => do
    let result ← Exec.attempt (manager.createChain sys chainId data)
    pure (.chain result)
  | .addBlock data => do
    let result ← Exec.attempt (manager.addBlock sys chainId data)
    pure (.block result)
  | .getBlock index => do
    let result ← Exec.attempt (manager.getBlock sys chainId index)
    pure (.block result)
  | .getBlocks blocks => do
    let result ← manager.getBlocks sys chainId blocks
    pure (.blocks result)
  | .removeChain => do
    let result ← Exec.attempt (manager.removeChain chainId)
    pure (.flag result.isSome)
  | .verifyChain => do
    let result ← Exec.attempt (manager.verifyChain sys chainId)
    pure (.flag result.isSome)
  | .getChainHeader => do
    let result ← Exec.attempt (manager.getChainHeader sys chainId)
    pure (.header result)
  | .getChainInfo => do
    let result ← Exec.attempt (manager.getChainInfo sys chainId)
    pure (.info result)

structure Call where
  chainId : UInt64
  operation : Operation
  draws : Draws

structure Event where
  call : Call
  outcome : Outcome Halt Result
  failed : Bool

def effect (sys : Platform) (manager : Manager) (call : Call) (dir : Directory) :
    Outcome Halt Result × World :=
  perform sys manager call.chainId call.operation (start dir call.draws)

def event (sys : Platform) (manager : Manager) (call : Call) (dir : Directory) : Event :=
  ⟨call,(effect sys manager call dir).1,(effect sys manager call dir).2.failed⟩

def after (sys : Platform) (manager : Manager) (call : Call) (dir : Directory) : Directory :=
  (effect sys manager call dir).2.directory

def run (sys : Platform) (manager : Manager) (dir : Directory) : List Call → List Event × Directory
  | [] => ([],dir)
  | call :: rest =>
    let later := run sys manager (after sys manager call dir) rest
    (event sys manager call dir :: later.1,later.2)

section Run
variable {sys : Platform} {manager : Manager}

theorem runAppend (dir : Directory) (calls more : List Call) :
    run sys manager dir (calls ++ more) =
      ((run sys manager dir calls).1 ++ (run sys manager (run sys manager dir calls).2 more).1,
        (run sys manager (run sys manager dir calls).2 more).2) := by
  induction calls generalizing dir with
  | nil => rfl
  | cons call rest ih => simp only [List.cons_append,run,ih]

theorem runPrefix {dir : Directory} {calls more : List Call} (h : calls <+: more) :
    (run sys manager dir calls).1 <+: (run sys manager dir more).1 := by
  obtain ⟨rest,rfl⟩ := h
  rw [runAppend]
  exact List.prefix_append _ _

theorem runKeeps {Inv : List Event → Directory → Prop} {dir : Directory} (first : Inv [] dir)
    (step : ∀ events d call, Inv events d →
      Inv (events ++ [event sys manager call d]) (after sys manager call d)) (calls : List Call) :
    Inv (run sys manager dir calls).1 (run sys manager dir calls).2 := by
  induction calls using List.reverseRecOn with
  | nil => exact first
  | append_singleton calls call ih =>
    rw [runAppend]
    exact step _ _ call ih

end Run
end Manager
end ChainDB
