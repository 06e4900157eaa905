import ChainDB.Application

/-! How long the replies of the handler get in the wire format. -/
namespace ChainDB
open Effects ProtoWire

namespace Handler

def recordSize (n : Nat) : Nat := 144 + (if n = 0 then 0 else framed n)

def getBlocksSize (lengths : List Nat) : Nat :=
  2 + (if lengths = [] then 0 else framed (lengths.map fun n => framed (recordSize n)).sum)

theorem dataLength {number size : Nat} (low : number < 16) (positive : 0 < size) (data : Data size) :
    (encode (blob number data.bytes)).length = framed size := by
  have filled : data.bytes ≠ [] := by
    intro empty
    have sized := data.sized
    rw [empty,List.length_nil] at sized
    omega
  rw [blobLength low,if_neg filled,data.sized]

theorem blockLength (block : Block) :
    (Blockchain.Block.schema.encode (setBlockData block)).length = recordSize block.data.length := by
  have hash : framed 32 = 34 := framedShort (by decide)
  have nonce : framed 8 = 10 := framedShort (by decide)
  have signature : framed 64 = 66 := framedShort (by decide)
  simp (disch := decide) only [Schema.encode,Blockchain.Block.schema,setBlockData,encodeAppendLength,
    dataLength,hash,nonce,signature]
  simp (disch := decide) only [blobLength,recordSize,List.length_eq_zero_iff]
  omega

theorem recordSizeLe (n : Nat) : recordSize n ≤ n + 155 := by
  have upper := framedLe n
  unfold recordSize
  split <;> omega

theorem successSize :
    framed (IPC.StatusResponse.schema.encode ⟨Status.success.code,[]⟩).length = 2 := by
  decide

theorem getBlocksLength (blocks : List Block) :
    (IPC.Response.schema.encode {statusResponse .success [] with
      getBlocksResponse := blocksResponse blocks}).length =
        getBlocksSize (blocks.map fun block => block.data.length) := by
  have listed : (IPC.GetBlocksResponse.schema.encode ⟨blocks.map setBlockData⟩).length =
      ((blocks.map fun block => block.data.length).map fun n => framed (recordSize n)).sum := by
    simp (disch := decide) only [Schema.encode,IPC.GetBlocksResponse.schema,subsLength]
    simp only [List.map_map,Function.comp_def]
    exact congrArg List.sum (List.map_congr_left fun block _ => congrArg framed (blockLength block))
  simp only [IPC.responseLength,statusResponse,partSizeNone,partSizeSome,successSize,getBlocksSize,
    List.map_eq_nil_iff,blocksResponse]
  split
  · rfl
  · simp only [partSizeSome,listed]
    omega

section Short

theorem blockResponseLength (block : Block) :
    (IPC.BlockResponse.schema.encode ⟨some (setBlockData block)⟩).length ≤ block.data.length + 166 := by
  have record := recordSizeLe block.data.length
  have outer := framedLe (recordSize block.data.length)
  simp (disch := decide) only [Schema.encode,IPC.BlockResponse.schema,subLength,partSizeSome]
  change framed (Blockchain.Block.schema.encode (setBlockData block)).length ≤ _
  rw [blockLength]
  omega

theorem addBlockLength (block : Block) : (IPC.Response.schema.encode {statusResponse .success [] with
    addBlockResponse := some ⟨some (setBlockData block)⟩}).length ≤ block.data.length + 179 := by
  have inner := blockResponseLength block
  have outer := framedLe (IPC.BlockResponse.schema.encode ⟨some (setBlockData block)⟩).length
  simp only [IPC.responseLength,statusResponse,partSizeNone,partSizeSome,successSize]
  omega

theorem getBlockLength (block : Block) : (IPC.Response.schema.encode {statusResponse .success [] with
    getBlockResponse := some ⟨some (setBlockData block)⟩}).length ≤ block.data.length + 179 := by
  have inner := blockResponseLength block
  have outer := framedLe (IPC.BlockResponse.schema.encode ⟨some (setBlockData block)⟩).length
  simp only [IPC.responseLength,statusResponse,partSizeNone,partSizeSome,successSize]
  omega

theorem headerLength (header : Header) :
    (Blockchain.Header.schema.encode header.message).length ≤ header.data.length + 120 := by
  have version := uintLe (show 1 < 16 by decide) header.version.toNat
  have index := uintLe (show 2 < 16 by decide) header.index.toNat
  have data := blobLe (show 3 < 16 by decide) header.data
  have privateKey := blobLe (show 4 < 16 by decide) header.privateKey.bytes
  have publicKey := blobLe (show 5 < 16 by decide) header.publicKey.bytes
  rw [header.privateKey.sized] at privateKey
  rw [header.publicKey.sized] at publicKey
  simp only [Schema.encode,Blockchain.Header.schema,Header.message,encodeAppendLength]
  omega

theorem getChainHeaderLength (header : Header) :
    (IPC.Response.schema.encode {statusResponse .success [] with
      getChainHeaderResponse := some ⟨some header.message⟩}).length ≤ header.data.length + 144 := by
  have record := headerLength header
  have inner := framedLe (Blockchain.Header.schema.encode header.message).length
  have wrapped : (IPC.GetChainHeaderResponse.schema.encode ⟨some header.message⟩).length =
      framed (Blockchain.Header.schema.encode header.message).length :=
    subLength (show 1 < 16 by decide) Blockchain.Header.schema (some header.message)
  have outer := framedLe (framed (Blockchain.Header.schema.encode header.message).length)
  simp only [IPC.responseLength,statusResponse,partSizeNone,partSizeSome,successSize,wrapped]
  omega

theorem getChainKeysLength (header : Header) :
    (IPC.Response.schema.encode {statusResponse .success [] with
      getChainKeysResponse := some ⟨header.privateKey.bytes,header.publicKey.bytes⟩}).length ≤ 100 := by
  have privateKey := blobLe (show 1 < 16 by decide) header.privateKey.bytes
  have publicKey := blobLe (show 2 < 16 by decide) header.publicKey.bytes
  rw [header.privateKey.sized] at privateKey
  rw [header.publicKey.sized] at publicKey
  have inner : (IPC.GetChainKeysResponse.schema.encode
      ⟨header.privateKey.bytes,header.publicKey.bytes⟩).length ≤ 87 := by
    simp only [Schema.encode,IPC.GetChainKeysResponse.schema,encodeAppendLength]
    omega
  have outer := framedLe (IPC.GetChainKeysResponse.schema.encode
    ⟨header.privateKey.bytes,header.publicKey.bytes⟩).length
  simp only [IPC.responseLength,statusResponse,partSizeNone,partSizeSome,successSize]
  omega

theorem getChainInfoLength (chainId version index : UInt64) :
    (IPC.Response.schema.encode {statusResponse .success [] with
      getChainInfoResponse := some ⟨chainId,version,index⟩}).length ≤ 46 := by
  have first := uintLe (show 1 < 16 by decide) chainId.toNat
  have second := uintLe (show 2 < 16 by decide) version.toNat
  have third := uintLe (show 3 < 16 by decide) index.toNat
  have inner : (IPC.GetChainInfoResponse.schema.encode ⟨chainId,version,index⟩).length ≤ 33 := by
    simp only [Schema.encode,IPC.GetChainInfoResponse.schema,encodeAppendLength]
    omega
  have outer := framedLe (IPC.GetChainInfoResponse.schema.encode ⟨chainId,version,index⟩).length
  simp only [IPC.responseLength,statusResponse,partSizeNone,partSizeSome,successSize]
  omega

end Short

end Handler
end ChainDB
