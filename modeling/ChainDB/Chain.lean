import ChainDB.Storage
import ChainDB.Crypto

/-! Block.cpp and Chain.cpp. `Block` only wraps its `Container`, so one structure stands for
both; a chain is its path. -/
namespace ChainDB
open Effects

def DB_VERSION : UInt64 := 1
def DB_HEADER_KEY : Bytes := ascii "__HEADER"
def DB_BLOCK_KEY : Bytes := ascii "__BLOCK/"

def decimal (n : UInt64) : Bytes := (Nat.toDigits 10 n.toNat).map (fun c => c.toNat.toUInt8)

def sizedData (size : Nat) (raw : Bytes) : Option (Data size) :=
  if sized : raw.length = size then some ⟨raw,sized⟩ else none

structure Block where
  hash : Hash
  prevHash : Hash
  nonce : Nonce
  data : Bytes
  signature : Signature
  deriving DecidableEq, Repr

namespace Block

def message (block : Block) : Blockchain.Block :=
  ⟨block.hash.bytes,block.prevHash.bytes,block.nonce.bytes,block.data,block.signature.bytes⟩

def pack (sys : Platform) (block : Block) : Action Bytes := sys.block.serializeToString block.message

def ofMessage (data : Blockchain.Block) : Option Block := do
  let hash ← sizedData 32 data.hash
  let prevHash ← sizedData 32 data.prevHash
  let nonce ← sizedData 8 data.nonce
  let signature ← sizedData 64 data.signature
  some ⟨hash,prevHash,nonce,data.data,signature⟩

def unpack (sys : Platform) (inbuf : Bytes) : Option Block := do
  let data ← sys.block.parseFromString inbuf
  ofMessage data

def generateNonce : Action Nonce := Random.random 8

end Block

structure Header where
  version : UInt64
  index : UInt64
  data : Bytes
  privateKey : PrivateKey
  publicKey : PublicKey
  deriving DecidableEq, Repr

namespace Header

def message (header : Header) : Blockchain.Header :=
  ⟨header.version,header.index,header.data,header.privateKey.bytes,header.publicKey.bytes⟩

def pack (sys : Platform) (header : Header) : Action Bytes :=
  sys.header.serializeToString header.message

def ofMessage (data : Blockchain.Header) : Option Header := do
  let privateKey ← sizedData 32 data.privateKey
  let publicKey ← sizedData 33 data.publicKey
  some ⟨data.version,data.index,data.data,privateKey,publicKey⟩

def unpack (sys : Platform) (inbuf : Bytes) : Option Header := do
  let data ← sys.header.parseFromString inbuf
  ofMessage data

def setIndex (header : Header) (index : UInt64) : Header := {header with index := index}

end Header

structure Chain where
  path : Path
  deriving DecidableEq, Repr

namespace Chain

def makeBlockName (index : UInt64) : Bytes := DB_BLOCK_KEY ++ decimal index

/- The private `getHeader(storage)`: unlike the public one it checks the version. -/
def getHeaderFrom (sys : Platform) (storage : Storage) : Action Header := do
  let value ← storage.get DB_HEADER_KEY
  let header ← Exec.ofOption (Header.unpack sys value)
  Exec.check (header.version = DB_VERSION)
  pure header

def getBlockFrom (sys : Platform) (storage : Storage) (index : UInt64) : Action Block := do
  let data ← storage.get (makeBlockName index)
  Exec.ofOption (Block.unpack sys data)

def create (sys : Platform) (chain : Chain) (data : Bytes) (privateKey : PrivateKey)
    (publicKey : PublicKey) : Action Unit := do
  let buffer ← Header.pack sys ⟨DB_VERSION,0,data,privateKey,publicKey⟩
  Storage.session Storage.create chain.path fun storage =>
    storage.set [(DB_HEADER_KEY,buffer)]

def addBlock (sys : Platform) (chain : Chain) (block : Block) : Action Unit :=
  Storage.session Storage.open chain.path fun storage => do
    let header ← getHeaderFrom sys storage
    let header := header.setIndex (header.index + 1)
    let headerData ← Header.pack sys header
    let blockData ← Block.pack sys block
    storage.set [(DB_HEADER_KEY,headerData),(makeBlockName header.index,blockData)]

def getBlock (sys : Platform) (chain : Chain) (index : UInt64) : Action Block :=
  Storage.session Storage.open chain.path fun storage => do
    let header ← getHeaderFrom sys storage
    Exec.check (¬ (index = 0 ∨ header.index < index))
    getBlockFrom sys storage index

/- The loop `for (size_t i = 1; i <= header->getIndex(); i++)`. The counter takes 2^64
values, so a loop that survives that many rounds has met every name and never ends. -/
def getBlocksLoop (sys : Platform) (storage : Storage) (last : UInt64) :
    Nat → UInt64 → List Block → Action (Bool × List Block)
  | 0,_,_ => Exec.halt .endlessLoop
  | rounds + 1,i,blocks =>
    if i ≤ last then do
      match ← Exec.attempt (getBlockFrom sys storage i) with
      | none => pure (false,blocks)
      | some block => getBlocksLoop sys storage last rounds (i + 1) (blocks ++ [block])
    else pure (true,blocks)

def counterValues : Nat := 2^64

/- The vector is an in-out parameter: what was pushed before a failure stays in it. -/
def getBlocks (sys : Platform) (chain : Chain) (blocks : List Block) : Action (Bool × List Block) := do
  let result ← Exec.attempt <| Storage.session Storage.open chain.path fun storage => do
    let header ← getHeaderFrom sys storage
    getBlocksLoop sys storage header.index counterValues 1 blocks
  pure (result.getD (false,blocks))

def remove (chain : Chain) : Action Unit := Storage.remove ⟨chain.path,false⟩

def getHeader (sys : Platform) (chain : Chain) : Action Header :=
  Storage.session Storage.open chain.path fun storage => do
    let value ← storage.get DB_HEADER_KEY
    Exec.ofOption (Header.unpack sys value)

end Chain
end ChainDB
