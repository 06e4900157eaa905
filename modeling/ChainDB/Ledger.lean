import ChainDB.ChainRecords
import ChainDB.Manager
import ChainDB.Library.HashChain

/-! The append-only list that a chain stands for, and the databases that represent it. -/
namespace ChainDB
open Effects HashChain

def genesisText (header : Header) : Bytes :=
  header.data ++ (header.privateKey.bytes ++ header.publicKey.bytes)

def bodyText (previous : Hash) (block : Block) : Bytes :=
  previous.bytes ++ (block.nonce.bytes ++ block.data)

def blockText (previous : Hash) (block : Block) : Bytes :=
  previous.bytes ++ (block.nonce.bytes ++ (block.data ++ block.signature.bytes))

theorem genesisFlatten (header : Header) :
    [header.data,header.privateKey.bytes,header.publicKey.bytes].flatten = genesisText header := by
  simp [genesisText]

theorem bodyFlatten (previous : Hash) (block : Block) :
    [previous.bytes,block.nonce.bytes,block.data].flatten = bodyText previous block := by
  simp [bodyText]

theorem blockFlatten (previous : Hash) (block : Block) :
    [previous.bytes,block.nonce.bytes,block.data,block.signature.bytes].flatten =
      blockText previous block := by
  simp [blockText]

namespace Platform
variable (sys : Platform)

def genesis (header : Header) : Hash := sys.sha256 (sys.sha256 (genesisText header)).bytes

/- What `verifyChain` asks of a block, given the hash it recomputed for the one before. -/
def Sealed (publicKey : PublicKey) (previous : Hash) (block : Block) : Prop :=
  sys.Verifies (sys.sha256 (bodyText previous block)) publicKey block.signature ∧
    block.hash = sys.sha256 (blockText previous block)

structure Made (privateKey : PrivateKey) (previous : Hash) (block : Block) : Prop where
  link : block.prevHash = previous
  signed : sys.signatureOf (sys.sha256 (bodyText previous block)) privateKey = some block.signature
  hashed : block.hash = sys.sha256 (blockText previous block)

end Platform

structure Ledger where
  data : Bytes
  privateKey : PrivateKey
  publicKey : PublicKey
  blocks : List Block
  deriving DecidableEq, Repr

namespace Ledger

def size (ledger : Ledger) : UInt64 := UInt64.ofNat ledger.blocks.length

def header (ledger : Ledger) : Header :=
  ⟨DB_VERSION,ledger.size,ledger.data,ledger.privateKey,ledger.publicKey⟩

def create (data : Bytes) (privateKey : PrivateKey) (publicKey : PublicKey) : Ledger :=
  ⟨data,privateKey,publicKey,[]⟩

def extend (ledger : Ledger) (log : List Block) : Ledger :=
  {ledger with blocks := ledger.blocks ++ log}

def append (ledger : Ledger) (block : Block) : Ledger :=
  {ledger with blocks := ledger.blocks ++ [block]}

theorem extendNil (ledger : Ledger) : ledger.extend [] = ledger := by
  simp [extend]

theorem extendAppend (ledger : Ledger) (log : List Block) (block : Block) :
    (ledger.extend log).append block = ledger.extend (log ++ [block]) := by
  simp [extend,append]

def tip (sys : Platform) (ledger : Ledger) : Hash :=
  HashChain.tip Block.hash (sys.genesis ledger.header) ledger.blocks

/- The ledger was built by the program: valid keys, and every block made over the tip that
stood when it was added. -/
structure Sound (sys : Platform) (ledger : Ledger) : Prop where
  valid : sys.secp.ecSeckeyVerify ledger.privateKey = true
  paired : sys.publicKeyOf ledger.privateKey = some ledger.publicKey
  linked : Linked Block.hash (sys.Made ledger.privateKey) (sys.genesis ledger.header) ledger.blocks

theorem soundCreate {sys data privateKey publicKey}
    (valid : sys.secp.ecSeckeyVerify privateKey = true)
    (paired : sys.publicKeyOf privateKey = some publicKey) :
    Sound sys (create data privateKey publicKey) := ⟨valid,paired,trivial⟩

theorem soundAppend {sys ledger block} (sound : Sound sys ledger)
    (made : sys.Made ledger.privateKey (ledger.tip sys) block) : Sound sys (ledger.append block) := by
  refine ⟨sound.valid,sound.paired,?_⟩
  exact (linkedSnoc _ _ _ _ _).mpr ⟨sound.linked,made⟩

theorem Sound.sealed {sys ledger} (sound : Sound sys ledger) (signatures : sys.SignaturesVerify) :
    Linked Block.hash (sys.Sealed ledger.publicKey) (sys.genesis ledger.header) ledger.blocks := by
  refine linkedMono _ _ (fun previous block _ made => ?_) sound.linked
  exact ⟨signatures _ _ _ _ sound.valid sound.paired made.signed,made.hashed⟩

structure Represents (sys : Platform) (ledger : Ledger) (db : Database) : Prop where
  header : Chain.storedHeader sys db = some ledger.header
  blocks : Chain.Consecutive sys db 1 ledger.blocks
  short : ledger.blocks.length + 1 < 2^64

theorem sizeToNat {ledger : Ledger} (short : ledger.blocks.length + 1 < 2^64) :
    ledger.size.toNat = ledger.blocks.length := Chain.counterToNat (Nat.lt_of_succ_lt short)

theorem Represents.size {sys ledger db} (h : Represents sys ledger db) :
    ledger.header.index.toNat = ledger.blocks.length := sizeToNat h.short

theorem Represents.supported {sys ledger db} (h : Represents sys ledger db) :
    Chain.Supported sys db ledger.header := ⟨h.header,rfl⟩

theorem Represents.unique {sys a b db} (ha : Represents sys a db) (hb : Represents sys b db) :
    a = b := by
  have headers := ha.supported.unique hb.supported
  have lengths : a.blocks.length = b.blocks.length := by rw [← ha.size,← hb.size,headers]
  have blocks := Chain.consecutiveUnique ha.blocks hb.blocks lengths
  simp only [Ledger.header,Header.mk.injEq] at headers
  cases a
  cases b
  simp_all

theorem sizedBytes {size : Nat} (data : Data size) : sizedData size data.bytes = some data := by
  simp [sizedData,data.sized]

theorem headerRoundTrip {sys : Platform} (lawful : sys.header.Lawful) {header : Header}
    (fits : (sys.header.encode header.message).length ≤ maxMessageLength) :
    Header.unpack sys (sys.header.encode header.message) = some header := by
  unfold Header.unpack
  rw [lawful _ fits]
  simp [Header.ofMessage,Header.message,sizedBytes]

theorem blockRoundTrip {sys : Platform} (lawful : sys.block.Lawful) {block : Block}
    (fits : (sys.block.encode block.message).length ≤ maxMessageLength) :
    Block.unpack sys (sys.block.encode block.message) = some block := by
  unfold Block.unpack
  rw [lawful _ fits]
  simp [Block.ofMessage,Block.message,sizedBytes]

theorem representsCreate {sys : Platform} (lawful : sys.header.Lawful) {data privateKey publicKey}
    (fits : (sys.header.encode (Header.message ⟨DB_VERSION,0,data,privateKey,publicKey⟩)).length ≤
      maxMessageLength) :
    Represents sys (create data privateKey publicKey)
      (Chain.newDatabase sys data privateKey publicKey) := by
  refine ⟨?_,?_,by simp [create]⟩
  · rw [Chain.storedHeader,Chain.newDatabaseHeader]
    exact headerRoundTrip lawful fits
  · intro k block found
    simp [create] at found

theorem storedHeaderAfter {sys : Platform} (lawful : sys.header.Lawful) {header block db}
    (fits : (sys.header.encode (header.setIndex (header.index + 1)).message).length ≤
      maxMessageLength) :
    Chain.storedHeader sys (DB.applyBatch (Chain.blockRecords sys header block) db) =
      some (header.setIndex (header.index + 1)) := by
  rw [Chain.storedHeader,Chain.headerRecordAfter]
  exact headerRoundTrip lawful fits

theorem storedBlockAfter {sys : Platform} (lawful : sys.block.Lawful) {header block db}
    (fits : (sys.block.encode block.message).length ≤ maxMessageLength) :
    Chain.storedBlock sys (DB.applyBatch (Chain.blockRecords sys header block) db)
      (header.index + 1) = some block := by
  rw [Chain.storedBlock,Chain.blockRecordAfter]
  exact blockRoundTrip lawful fits

theorem storedBlockKept {sys : Platform} {header block db} {index : UInt64}
    (other : index ≠ header.index + 1) :
    Chain.storedBlock sys (DB.applyBatch (Chain.blockRecords sys header block) db) index =
      Chain.storedBlock sys db index := by
  rw [Chain.storedBlock,Chain.blockRecordKept other,Chain.storedBlock]

theorem consecutiveAppend {sys : Platform} (lawful : sys.block.Lawful) {header : Header}
    {block : Block} {db : Database} {blocks : List Block} (stored : Chain.Consecutive sys db 1 blocks)
    (length : blocks.length = header.index.toNat)
    (fits : (sys.block.encode block.message).length ≤ maxMessageLength) :
    Chain.Consecutive sys (DB.applyBatch (Chain.blockRecords sys header block) db) 1
      (blocks ++ [block]) := by
  have size := header.index.toNat_lt
  intro k b found
  rcases Nat.lt_or_ge k blocks.length with inside | beyond
  · rw [List.getElem?_append_left inside] at found
    have other : 1 + UInt64.ofNat k ≠ header.index + 1 := by
      intro same
      have places := (UInt64.add_left_inj 1).mp ((UInt64.add_comm _ _).trans same)
      have values := congrArg UInt64.toNat places
      rw [Chain.counterToNat (show k < 2^64 by omega)] at values
      omega
    rw [storedBlockKept other]
    exact stored k b found
  · have last : k = blocks.length ∧ b = block := by
      rw [List.getElem?_append_right beyond] at found
      obtain ⟨inside,same⟩ := List.getElem?_eq_some_iff.mp found
      simp only [List.length_singleton] at inside
      refine ⟨by omega,?_⟩
      rw [← same]
      simp
    obtain ⟨rfl,rfl⟩ := last
    have place : 1 + UInt64.ofNat blocks.length = header.index + 1 := by
      rw [length,UInt64.ofNat_toNat,UInt64.add_comm]
    rw [place]
    exact storedBlockAfter lawful fits

theorem representsAppend {sys : Platform} (lawfulHeader : sys.header.Lawful)
    (lawfulBlock : sys.block.Lawful) {ledger : Ledger} {block : Block} {db : Database}
    (h : Represents sys ledger db) (short : ledger.blocks.length + 2 < 2^64)
    (headerFits : (sys.header.encode
      (ledger.header.setIndex (ledger.header.index + 1)).message).length ≤ maxMessageLength)
    (blockFits : (sys.block.encode block.message).length ≤ maxMessageLength) :
    Represents sys (ledger.append block)
      (DB.applyBatch (Chain.blockRecords sys ledger.header block) db) := by
  have next : ledger.header.setIndex (ledger.header.index + 1) = (ledger.append block).header := by
    simp only [Header.setIndex,Ledger.header,Ledger.size,Ledger.append,List.length_append,
      List.length_singleton,UInt64.ofNat_add]
    rfl
  refine ⟨?_,?_,by simp only [append,List.length_append,List.length_singleton]; omega⟩
  · rw [storedHeaderAfter lawfulHeader headerFits,next]
  · exact consecutiveAppend lawfulBlock h.blocks h.size.symm blockFits

end Ledger
end ChainDB
