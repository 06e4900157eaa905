import ChainDB.Messages
import ChainDB.Library.ProtoWire
import ChainDB.Library.WireSize

/-! The messages of proto/storage.proto and proto/service.proto in the proto3 wire format, by
their field numbers. Texts are not checked for UTF-8. -/
namespace ChainDB
open ProtoWire

namespace Blockchain

def Header.schema : Schema Header where
  fields m := uint 1 m.version.toNat ++ (uint 2 m.index.toNat ++ (blob 3 m.data ++
    (blob 4 m.privateKey ++ blob 5 m.publicKey)))
  read fields := some ⟨UInt64.ofNat (uintOf 1 fields),UInt64.ofNat (uintOf 2 fields),blobOf 3 fields,
    blobOf 4 fields,blobOf 5 fields⟩

def Block.schema : Schema Block where
  fields m := blob 1 m.hash ++ (blob 2 m.prevHash ++ (blob 3 m.nonce ++ (blob 4 m.data ++
    blob 5 m.signature)))
  read fields := some ⟨blobOf 1 fields,blobOf 2 fields,blobOf 3 fields,blobOf 4 fields,blobOf 5 fields⟩

theorem Header.schemaSound : Header.schema.Sound where
  proper m := properAppend (properUint (by decide) m.version.toNat_lt) <|
    properAppend (properUint (by decide) m.index.toNat_lt) <|
    properAppend (properBlob (by decide) _) <| properAppend (properBlob (by decide) _) <|
    properBlob (by decide) _
  inverse m _ := by simp [Header.schema,uintOf,blobOf]

theorem Block.schemaSound : Block.schema.Sound where
  proper m := properAppend (properBlob (by decide) _) <| properAppend (properBlob (by decide) _) <|
    properAppend (properBlob (by decide) _) <| properAppend (properBlob (by decide) _) <|
    properBlob (by decide) _
  inverse m _ := by simp [Block.schema,blobOf]

end Blockchain

namespace IPC

def AuthData.schema : Schema AuthData where
  fields m := blob 1 m.passwordHash
  read fields := some ⟨blobOf 1 fields⟩

def StatusResponse.schema : Schema StatusResponse where
  fields m := uint 1 m.status.toNat ++ blob 2 m.message
  read fields := some ⟨UInt32.ofNat (uintOf 1 fields),blobOf 2 fields⟩

def PingRequest.schema : Schema PingRequest where
  fields _ := []
  read _ := some {}

def DataRequest.schema : Schema DataRequest where
  fields m := uint 1 m.chainId.toNat ++ blob 2 m.data
  read fields := some ⟨UInt64.ofNat (uintOf 1 fields),blobOf 2 fields⟩

def ChainRequest.schema : Schema ChainRequest where
  fields m := uint 1 m.chainId.toNat
  read fields := some ⟨UInt64.ofNat (uintOf 1 fields)⟩

def GetBlockRequest.schema : Schema GetBlockRequest where
  fields m := uint 1 m.chainId.toNat ++ uint 2 m.blockId.toNat
  read fields := some ⟨UInt64.ofNat (uintOf 1 fields),UInt64.ofNat (uintOf 2 fields)⟩

def BlockResponse.schema : Schema BlockResponse where
  fields m := Blockchain.Block.schema.sub 1 m.block
  read fields := do
    let block ← Blockchain.Block.schema.readSub 1 fields
    some ⟨block⟩

def GetBlocksResponse.schema : Schema GetBlocksResponse where
  fields m := Blockchain.Block.schema.subs 1 m.blocks
  read fields := do
    let blocks ← Blockchain.Block.schema.readSubs 1 fields
    some ⟨blocks⟩

def GetChainHeaderResponse.schema : Schema GetChainHeaderResponse where
  fields m := Blockchain.Header.schema.sub 1 m.header
  read fields := do
    let header ← Blockchain.Header.schema.readSub 1 fields
    some ⟨header⟩

def GetChainKeysResponse.schema : Schema GetChainKeysResponse where
  fields m := blob 1 m.privateKey ++ blob 2 m.publicKey
  read fields := some ⟨blobOf 1 fields,blobOf 2 fields⟩

def GetChainInfoResponse.schema : Schema GetChainInfoResponse where
  fields m := uint 1 m.chainId.toNat ++ (uint 2 m.version.toNat ++ uint 3 m.index.toNat)
  read fields := some ⟨UInt64.ofNat (uintOf 1 fields),UInt64.ofNat (uintOf 2 fields),
    UInt64.ofNat (uintOf 3 fields)⟩

theorem AuthData.schemaSound : AuthData.schema.Sound where
  proper m := properBlob (by decide) _
  inverse m _ := by simp [schema,blobOf]

theorem StatusResponse.schemaSound : StatusResponse.schema.Sound where
  proper m := properAppend (properUint (by decide) (Nat.lt_trans m.status.toNat_lt (by decide))) <|
    properBlob (by decide) _
  inverse m _ := by simp [schema,uintOf,blobOf]

theorem PingRequest.schemaSound : PingRequest.schema.Sound where
  proper m field member := by cases member
  inverse m _ := rfl

theorem DataRequest.schemaSound : DataRequest.schema.Sound where
  proper m := properAppend (properUint (by decide) m.chainId.toNat_lt) <| properBlob (by decide) _
  inverse m _ := by simp [schema,uintOf,blobOf]

theorem ChainRequest.schemaSound : ChainRequest.schema.Sound where
  proper m := properUint (by decide) m.chainId.toNat_lt
  inverse m _ := by simp [schema,uintOf]

theorem GetBlockRequest.schemaSound : GetBlockRequest.schema.Sound where
  proper m := properAppend (properUint (by decide) m.chainId.toNat_lt) <|
    properUint (by decide) m.blockId.toNat_lt
  inverse m _ := by simp [schema,uintOf]

theorem BlockResponse.schemaSound : BlockResponse.schema.Sound where
  proper m := properSub (by decide) _ _
  inverse m short := by
    have block := Blockchain.Block.schemaSound.readSub (payloadsSub 1 1 m.block) short
    simp only [schema,block]
    rfl

theorem GetBlocksResponse.schemaSound : GetBlocksResponse.schema.Sound where
  proper m := properSubs (by decide) _ _
  inverse m short := by
    have blocks := Blockchain.Block.schemaSound.readSubs (payloadsSubs 1 1 m.blocks) short
    simp only [schema,blocks]
    rfl

theorem GetChainHeaderResponse.schemaSound : GetChainHeaderResponse.schema.Sound where
  proper m := properSub (by decide) _ _
  inverse m short := by
    have header := Blockchain.Header.schemaSound.readSub (payloadsSub 1 1 m.header) short
    simp only [schema,header]
    rfl

theorem GetChainKeysResponse.schemaSound : GetChainKeysResponse.schema.Sound where
  proper m := properAppend (properBlob (by decide) _) <| properBlob (by decide) _
  inverse m _ := by simp [schema,blobOf]

theorem GetChainInfoResponse.schemaSound : GetChainInfoResponse.schema.Sound where
  proper m := properAppend (properUint (by decide) m.chainId.toNat_lt) <|
    properAppend (properUint (by decide) m.version.toNat_lt) <|
    properUint (by decide) m.index.toNat_lt
  inverse m _ := by simp [schema,uintOf]

def Request.fields (m : Request) : List Field :=
  AuthData.schema.sub 1 m.authData ++ (PingRequest.schema.sub 2 m.pingRequest ++
    (DataRequest.schema.sub 3 m.createChainRequest ++ (ChainRequest.schema.sub 4 m.removeChainRequest ++
    (DataRequest.schema.sub 5 m.addBlockRequest ++ (GetBlockRequest.schema.sub 6 m.getBlockRequest ++
    (ChainRequest.schema.sub 7 m.getBlocksRequest ++ (ChainRequest.schema.sub 8 m.verifyChainRequest ++
    (ChainRequest.schema.sub 9 m.getChainHeaderRequest ++
    (ChainRequest.schema.sub 10 m.getChainKeysRequest ++
    ChainRequest.schema.sub 11 m.getChainInfoRequest)))))))))

def Request.read (fields : List Field) : Option Request := do
  let authData ← AuthData.schema.readSub 1 fields
  let pingRequest ← PingRequest.schema.readSub 2 fields
  let createChainRequest ← DataRequest.schema.readSub 3 fields
  let removeChainRequest ← ChainRequest.schema.readSub 4 fields
  let addBlockRequest ← DataRequest.schema.readSub 5 fields
  let getBlockRequest ← GetBlockRequest.schema.readSub 6 fields
  let getBlocksRequest ← ChainRequest.schema.readSub 7 fields
  let verifyChainRequest ← ChainRequest.schema.readSub 8 fields
  let getChainHeaderRequest ← ChainRequest.schema.readSub 9 fields
  let getChainKeysRequest ← ChainRequest.schema.readSub 10 fields
  let getChainInfoRequest ← ChainRequest.schema.readSub 11 fields
  some ⟨authData,pingRequest,createChainRequest,removeChainRequest,addBlockRequest,getBlockRequest,
    getBlocksRequest,verifyChainRequest,getChainHeaderRequest,getChainKeysRequest,
    getChainInfoRequest⟩

def Response.fields (m : Response) : List Field :=
  StatusResponse.schema.sub 1 m.status ++
    (StatusResponse.schema.sub 2 m.createChainResponse ++
    (StatusResponse.schema.sub 3 m.removeChainResponse ++
    (BlockResponse.schema.sub 4 m.addBlockResponse ++ (BlockResponse.schema.sub 5 m.getBlockResponse ++
    (GetBlocksResponse.schema.sub 6 m.getBlocksResponse ++
    (StatusResponse.schema.sub 7 m.verifyChainResponse ++
    (GetChainHeaderResponse.schema.sub 8 m.getChainHeaderResponse ++
    (GetChainKeysResponse.schema.sub 9 m.getChainKeysResponse ++
    GetChainInfoResponse.schema.sub 10 m.getChainInfoResponse))))))))

def Response.read (fields : List Field) : Option Response := do
  let status ← StatusResponse.schema.readSub 1 fields
  let createChainResponse ← StatusResponse.schema.readSub 2 fields
  let removeChainResponse ← StatusResponse.schema.readSub 3 fields
  let addBlockResponse ← BlockResponse.schema.readSub 4 fields
  let getBlockResponse ← BlockResponse.schema.readSub 5 fields
  let getBlocksResponse ← GetBlocksResponse.schema.readSub 6 fields
  let verifyChainResponse ← StatusResponse.schema.readSub 7 fields
  let getChainHeaderResponse ← GetChainHeaderResponse.schema.readSub 8 fields
  let getChainKeysResponse ← GetChainKeysResponse.schema.readSub 9 fields
  let getChainInfoResponse ← GetChainInfoResponse.schema.readSub 10 fields
  some ⟨status,createChainResponse,removeChainResponse,addBlockResponse,getBlockResponse,
    getBlocksResponse,verifyChainResponse,getChainHeaderResponse,getChainKeysResponse,
    getChainInfoResponse⟩

def Request.schema : Schema Request := ⟨fields,read⟩

theorem Request.schemaSound : Request.schema.Sound where
  proper m := by
    simp only [schema,fields]
    repeat' refine properAppend (properSub (by decide) _ _) ?_
    exact properSub (by decide) _ _
  inverse m short := by
    change read (fields m) = some m
    have authData : AuthData.schema.readSub 1 (fields m) = some m.authData :=
      AuthData.schemaSound.readSub (by simp [fields]) short
    have pingRequest : PingRequest.schema.readSub 2 (fields m) = some m.pingRequest :=
      PingRequest.schemaSound.readSub (by simp [fields]) short
    have createChainRequest : DataRequest.schema.readSub 3 (fields m) = some m.createChainRequest :=
      DataRequest.schemaSound.readSub (by simp [fields]) short
    have removeChainRequest : ChainRequest.schema.readSub 4 (fields m) = some m.removeChainRequest :=
      ChainRequest.schemaSound.readSub (by simp [fields]) short
    have addBlockRequest : DataRequest.schema.readSub 5 (fields m) = some m.addBlockRequest :=
      DataRequest.schemaSound.readSub (by simp [fields]) short
    have getBlockRequest : GetBlockRequest.schema.readSub 6 (fields m) = some m.getBlockRequest :=
      GetBlockRequest.schemaSound.readSub (by simp [fields]) short
    have getBlocksRequest : ChainRequest.schema.readSub 7 (fields m) = some m.getBlocksRequest :=
      ChainRequest.schemaSound.readSub (by simp [fields]) short
    have verifyChainRequest : ChainRequest.schema.readSub 8 (fields m) = some m.verifyChainRequest :=
      ChainRequest.schemaSound.readSub (by simp [fields]) short
    have getChainHeaderRequest : ChainRequest.schema.readSub 9 (fields m) =
        some m.getChainHeaderRequest :=
      ChainRequest.schemaSound.readSub (by simp [fields]) short
    have getChainKeysRequest : ChainRequest.schema.readSub 10 (fields m) = some m.getChainKeysRequest :=
      ChainRequest.schemaSound.readSub (by simp [fields]) short
    have getChainInfoRequest : ChainRequest.schema.readSub 11 (fields m) = some m.getChainInfoRequest :=
      ChainRequest.schemaSound.readSub (by simp [fields]) short
    simp only [read,authData,pingRequest,createChainRequest,removeChainRequest,addBlockRequest,
      getBlockRequest,getBlocksRequest,verifyChainRequest,getChainHeaderRequest,
      getChainKeysRequest,getChainInfoRequest]
    rfl

def Response.schema : Schema Response := ⟨fields,read⟩

theorem Response.schemaSound : Response.schema.Sound where
  proper m := by
    simp only [schema,fields]
    repeat' refine properAppend (properSub (by decide) _ _) ?_
    exact properSub (by decide) _ _
  inverse m short := by
    change read (fields m) = some m
    have status : StatusResponse.schema.readSub 1 (fields m) = some m.status :=
      StatusResponse.schemaSound.readSub (by simp [fields]) short
    have createChainResponse : StatusResponse.schema.readSub 2 (fields m) = some m.createChainResponse :=
      StatusResponse.schemaSound.readSub (by simp [fields]) short
    have removeChainResponse : StatusResponse.schema.readSub 3 (fields m) = some m.removeChainResponse :=
      StatusResponse.schemaSound.readSub (by simp [fields]) short
    have addBlockResponse : BlockResponse.schema.readSub 4 (fields m) = some m.addBlockResponse :=
      BlockResponse.schemaSound.readSub (by simp [fields]) short
    have getBlockResponse : BlockResponse.schema.readSub 5 (fields m) = some m.getBlockResponse :=
      BlockResponse.schemaSound.readSub (by simp [fields]) short
    have getBlocksResponse : GetBlocksResponse.schema.readSub 6 (fields m) = some m.getBlocksResponse :=
      GetBlocksResponse.schemaSound.readSub (by simp [fields]) short
    have verifyChainResponse : StatusResponse.schema.readSub 7 (fields m) = some m.verifyChainResponse :=
      StatusResponse.schemaSound.readSub (by simp [fields]) short
    have getChainHeaderResponse : GetChainHeaderResponse.schema.readSub 8 (fields m) =
        some m.getChainHeaderResponse :=
      GetChainHeaderResponse.schemaSound.readSub (by simp [fields]) short
    have getChainKeysResponse : GetChainKeysResponse.schema.readSub 9 (fields m) =
        some m.getChainKeysResponse :=
      GetChainKeysResponse.schemaSound.readSub (by simp [fields]) short
    have getChainInfoResponse : GetChainInfoResponse.schema.readSub 10 (fields m) =
        some m.getChainInfoResponse :=
      GetChainInfoResponse.schemaSound.readSub (by simp [fields]) short
    simp only [read,status,createChainResponse,removeChainResponse,addBlockResponse,
      getBlockResponse,getBlocksResponse,verifyChainResponse,getChainHeaderResponse,
      getChainKeysResponse,getChainInfoResponse]
    rfl

theorem responseLength (resp : Response) : (Response.schema.encode resp).length =
    partSize StatusResponse.schema resp.status +
    (partSize StatusResponse.schema resp.createChainResponse +
    (partSize StatusResponse.schema resp.removeChainResponse +
    (partSize BlockResponse.schema resp.addBlockResponse +
    (partSize BlockResponse.schema resp.getBlockResponse +
    (partSize GetBlocksResponse.schema resp.getBlocksResponse +
    (partSize StatusResponse.schema resp.verifyChainResponse +
    (partSize GetChainHeaderResponse.schema resp.getChainHeaderResponse +
    (partSize GetChainKeysResponse.schema resp.getChainKeysResponse +
    partSize GetChainInfoResponse.schema resp.getChainInfoResponse)))))))) := by
  simp (disch := decide) only [Schema.encode,Response.schema,Response.fields,
    encodeAppendLength,subLength]

end IPC

def wireCodec {μ : Type} (schema : Schema μ) : Codec μ := ⟨schema.encode,schema.parse⟩

theorem wireLawful {μ : Type} {schema : Schema μ} (sound : schema.Sound) : (wireCodec schema).Lawful :=
  fun _ fits => sound.roundTrip (Nat.lt_of_le_of_lt fits (by decide))

end ChainDB
