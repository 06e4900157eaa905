import ChainDB.Manager

/-! Handler.cpp. A reply is the bytes of the message; `absent` is the null pointer. Logging
is left out. -/
namespace ChainDB
open Effects

def MAX_DATA_LENGTH : Nat := 8192

structure Handler where
  manager : Manager
  password : Bytes
  deriving DecidableEq, Repr

namespace Handler

def PASSWORD_SALT : Bytes := ascii "EMPTY_SALT/"

inductive Status where
  | success | error | dataError | notSupported | notAuthorized
  deriving DecidableEq, Repr

def Status.code : Status → UInt32
  | .success => 0
  | .error => 1
  | .dataError => 2
  | .notSupported => 3
  | .notAuthorized => 4

def statusResponse (status : Status) (text : Bytes) : IPC.Response :=
  {status := some ⟨status.code,text⟩}

def makeResponse (sys : Platform) (resp : IPC.Response) : Action Bytes :=
  sys.response.serializeToString resp

def makeStatus (sys : Platform) (status : Status) (text : Bytes) : Action Bytes :=
  sys.response.serializeToString (statusResponse status text)

def setBlockData (block : Block) : Blockchain.Block :=
  ⟨block.hash.bytes,block.prevHash.bytes,block.nonce.bytes,block.data,block.signature.bytes⟩

def handlePingRequest (sys : Platform) : Action Bytes := makeStatus sys .success []

def handleCreateChainRequest (sys : Platform) (handler : Handler) (req : IPC.DataRequest) :
    Action Bytes :=
  if MAX_DATA_LENGTH < req.data.length then
    makeStatus sys .dataError (ascii "Can't create chain (Data field size is too large)")
  else do
    match ← Exec.attempt (handler.manager.createChain sys req.chainId req.data) with
    | none => makeStatus sys .error (ascii "Can't create chain")
    | some _ => makeStatus sys .success []

def handleRemoveChainRequest (sys : Platform) (handler : Handler) (req : IPC.ChainRequest) :
    Action Bytes := do
  match ← Exec.attempt (handler.manager.removeChain req.chainId) with
  | none => makeStatus sys .error (ascii "Can't remove chain")
  | some _ => makeStatus sys .success []

def handleAddBlockRequest (sys : Platform) (handler : Handler) (req : IPC.DataRequest) :
    Action Bytes :=
  if MAX_DATA_LENGTH < req.data.length then
    makeStatus sys .dataError (ascii "Can't create chain (Data field size is too large)")
  else do
    match ← Exec.attempt (handler.manager.addBlock sys req.chainId req.data) with
    | none => makeStatus sys .error (ascii "Can't add block")
    | some block =>
      makeResponse sys {statusResponse .success [] with
        addBlockResponse := some ⟨some (setBlockData block)⟩}

def handleGetBlockRequest (sys : Platform) (handler : Handler) (req : IPC.GetBlockRequest) :
    Action Bytes := do
  match ← Exec.attempt (handler.manager.getBlock sys req.chainId req.blockId) with
  | none => makeStatus sys .error (ascii "Can't get block")
  | some block =>
    makeResponse sys {statusResponse .success [] with
        getBlockResponse := some ⟨some (setBlockData block)⟩}

/- `mutable_get_blocks_response` runs once a block, so an empty chain leaves the field unset. -/
def blocksResponse (blocks : List Block) : Option IPC.GetBlocksResponse :=
  if blocks = [] then none else some ⟨blocks.map setBlockData⟩

def handleGetBlocksRequest (sys : Platform) (handler : Handler) (req : IPC.ChainRequest) :
    Action Bytes := do
  match ← handler.manager.getBlocks sys req.chainId [] with
  | (false,_) => makeStatus sys .error (ascii "Can't get blocks")
  | (true,blocks) =>
    makeResponse sys {statusResponse .success [] with
        getBlocksResponse := blocksResponse blocks}

def handleVerifyChainRequest (sys : Platform) (handler : Handler) (req : IPC.ChainRequest) :
    Action Bytes := do
  match ← Exec.attempt (handler.manager.verifyChain sys req.chainId) with
  | none => makeStatus sys .error (ascii "Chain is not valid")
  | some _ => makeStatus sys .success []

def handleGetChainHeaderRequest (sys : Platform) (handler : Handler) (req : IPC.ChainRequest) :
    Action Bytes := do
  match ← Exec.attempt (handler.manager.getChainHeader sys req.chainId) with
  | none => makeStatus sys .error (ascii "Can't get header")
  | some header =>
    makeResponse sys {statusResponse .success [] with
        getChainHeaderResponse := some ⟨some ⟨header.version,header.index,header.data,
        header.privateKey.bytes,header.publicKey.bytes⟩⟩}

def handleGetChainKeysRequest (sys : Platform) (handler : Handler) (req : IPC.ChainRequest) :
    Action Bytes := do
  match ← Exec.attempt (handler.manager.getChainHeader sys req.chainId) with
  | none => makeStatus sys .error (ascii "Can't get header")
  | some header =>
    makeResponse sys {statusResponse .success [] with
        getChainKeysResponse := some ⟨header.privateKey.bytes,header.publicKey.bytes⟩}

def handleGetChainInfoRequest (sys : Platform) (handler : Handler) (req : IPC.ChainRequest) :
    Action Bytes := do
  match ← Exec.attempt (handler.manager.getChainInfo sys req.chainId) with
  | none => makeStatus sys .error (ascii "Can't get chain info")
  | some (version,index) =>
    makeResponse sys {statusResponse .success [] with
        getChainInfoResponse := some ⟨req.chainId,version,index⟩}

def checkAuth (sys : Platform) (handler : Handler) (data : IPC.AuthData) : Action Unit := do
  Exec.check (data.passwordHash.length = 32)
  let hash ← SHA256.getHash sys [PASSWORD_SALT,handler.password]
  Exec.check (hash.bytes = data.passwordHash)

/- The chain of `has_…` tests: the first submessage that is present is served. -/
def dispatch (sys : Platform) (handler : Handler) (req : IPC.Request) : Action Bytes :=
  match req.pingRequest with
  | some _ => handlePingRequest sys
  | none =>
  match req.createChainRequest with
  | some r => handleCreateChainRequest sys handler r
  | none =>
  match req.removeChainRequest with
  | some r => handleRemoveChainRequest sys handler r
  | none =>
  match req.addBlockRequest with
  | some r => handleAddBlockRequest sys handler r
  | none =>
  match req.getBlockRequest with
  | some r => handleGetBlockRequest sys handler r
  | none =>
  match req.getBlocksRequest with
  | some r => handleGetBlocksRequest sys handler r
  | none =>
  match req.verifyChainRequest with
  | some r => handleVerifyChainRequest sys handler r
  | none =>
  match req.getChainHeaderRequest with
  | some r => handleGetChainHeaderRequest sys handler r
  | none =>
  match req.getChainKeysRequest with
  | some r => handleGetChainKeysRequest sys handler r
  | none =>
  match req.getChainInfoRequest with
  | some r => handleGetChainInfoRequest sys handler r
  | none => makeStatus sys .notSupported (ascii "Method isn't supported")

def handleMessage (sys : Platform) (handler : Handler) (msg : Bytes) : Action Bytes :=
  match sys.request.parseFromString msg with
  | none => makeStatus sys .dataError (ascii "Can't parse data")
  | some req =>
    if handler.password ≠ [] then
      match req.authData with
      | none => makeStatus sys .notAuthorized (ascii "No authorization data")
      | some data => do
        match ← Exec.attempt (checkAuth sys handler data) with
        | none => makeStatus sys .notAuthorized (ascii "Invalid password")
        | some _ => dispatch sys handler req
    else dispatch sys handler req

end Handler
end ChainDB
