import ChainDB.Handler

/-! What a request asks for, apart from how the handler goes about it: a reply that is known at
once, or one call of the manager and the reply that its result turns into. -/
namespace ChainDB
open Effects

namespace Handler

inductive Plan where
  | reply (resp : IPC.Response)
  | call (chainId : UInt64) (operation : Manager.Operation) (answer : Manager.Result → IPC.Response)

def success : IPC.Response := statusResponse .success []

def failure (text : String) : IPC.Response := statusResponse .error (ascii text)

def tooLarge : IPC.Response :=
  statusResponse .dataError (ascii "Can't create chain (Data field size is too large)")

def createAnswer : Manager.Result → IPC.Response
  | .chain (some _) => success
  | _ => failure "Can't create chain"

def removeAnswer : Manager.Result → IPC.Response
  | .flag true => success
  | _ => failure "Can't remove chain"

def addBlockAnswer : Manager.Result → IPC.Response
  | .block (some block) => {success with addBlockResponse := some ⟨some (setBlockData block)⟩}
  | _ => failure "Can't add block"

def getBlockAnswer : Manager.Result → IPC.Response
  | .block (some block) => {success with getBlockResponse := some ⟨some (setBlockData block)⟩}
  | _ => failure "Can't get block"

def getBlocksAnswer : Manager.Result → IPC.Response
  | .blocks (true,blocks) => {success with getBlocksResponse := blocksResponse blocks}
  | _ => failure "Can't get blocks"

def verifyAnswer : Manager.Result → IPC.Response
  | .flag true => success
  | _ => failure "Chain is not valid"

def headerAnswer : Manager.Result → IPC.Response
  | .header (some header) => {success with getChainHeaderResponse := some ⟨some header.message⟩}
  | _ => failure "Can't get header"

def keysAnswer : Manager.Result → IPC.Response
  | .header (some header) =>
    {success with getChainKeysResponse := some ⟨header.privateKey.bytes,header.publicKey.bytes⟩}
  | _ => failure "Can't get header"

def infoAnswer (chainId : UInt64) : Manager.Result → IPC.Response
  | .info (some info) => {success with getChainInfoResponse := some ⟨chainId,info.1,info.2⟩}
  | _ => failure "Can't get chain info"

/- Both requests with a data field answer a field that is too large in the same words. -/
def dataPlan (req : IPC.DataRequest) (operation : Manager.Operation)
    (answer : Manager.Result → IPC.Response) : Plan :=
  if MAX_DATA_LENGTH < req.data.length then .reply tooLarge else .call req.chainId operation answer

def planOf (req : IPC.Request) : Plan :=
  match req.pingRequest with
  | some _ => .reply success
  | none =>
  match req.createChainRequest with
  | some r => dataPlan r (.createChain r.data) createAnswer
  | none =>
  match req.removeChainRequest with
  | some r => .call r.chainId .removeChain removeAnswer
  | none =>
  match req.addBlockRequest with
  | some r => dataPlan r (.addBlock r.data) addBlockAnswer
  | none =>
  match req.getBlockRequest with
  | some r => .call r.chainId (.getBlock r.blockId) getBlockAnswer
  | none =>
  match req.getBlocksRequest with
  | some r => .call r.chainId (.getBlocks []) getBlocksAnswer
  | none =>
  match req.verifyChainRequest with
  | some r => .call r.chainId .verifyChain verifyAnswer
  | none =>
  match req.getChainHeaderRequest with
  | some r => .call r.chainId .getChainHeader headerAnswer
  | none =>
  match req.getChainKeysRequest with
  | some r => .call r.chainId .getChainHeader keysAnswer
  | none =>
  match req.getChainInfoRequest with
  | some r => .call r.chainId .getChainInfo (infoAnswer r.chainId)
  | none => .reply (statusResponse .notSupported (ascii "Method isn't supported"))

def follow (sys : Platform) (handler : Handler) : Plan → Action Bytes
  | .reply resp => makeResponse sys resp
  | .call chainId operation answer => do
    let result ← Manager.perform sys handler.manager chainId operation
    makeResponse sys (answer result)

section Plans
variable {sys : Platform} {handler : Handler}

theorem answeredBy {α : Type} {m : Action α} {wrap : Option α → Manager.Result}
    {f : Option α → Action Bytes} {answer : Manager.Result → IPC.Response}
    (same : ∀ r, f r = makeResponse sys (answer (wrap r))) :
    (Exec.attempt m >>= f) =
      (Exec.attempt m >>= fun r => pure (wrap r)) >>= fun result => makeResponse sys (answer result) := by
  rw [Exec.bindAssoc]
  congr 1
  funext r
  exact same r

theorem createPlanned (req : IPC.DataRequest) : handleCreateChainRequest sys handler req =
    follow sys handler (dataPlan req (.createChain req.data) createAnswer) := by
  unfold handleCreateChainRequest dataPlan
  split
  · rfl
  · refine answeredBy fun r => ?_
    cases r <;> rfl

theorem removePlanned (req : IPC.ChainRequest) : handleRemoveChainRequest sys handler req =
    follow sys handler (.call req.chainId .removeChain removeAnswer) := by
  refine answeredBy fun r => ?_
  cases r <;> rfl

theorem addBlockPlanned (req : IPC.DataRequest) : handleAddBlockRequest sys handler req =
    follow sys handler (dataPlan req (.addBlock req.data) addBlockAnswer) := by
  unfold handleAddBlockRequest dataPlan
  split
  · rfl
  · refine answeredBy fun r => ?_
    cases r <;> rfl

theorem getBlockPlanned (req : IPC.GetBlockRequest) : handleGetBlockRequest sys handler req =
    follow sys handler (.call req.chainId (.getBlock req.blockId) getBlockAnswer) := by
  refine answeredBy fun r => ?_
  cases r <;> rfl

theorem getBlocksPlanned (req : IPC.ChainRequest) : handleGetBlocksRequest sys handler req =
    follow sys handler (.call req.chainId (.getBlocks []) getBlocksAnswer) := by
  change _ = ((handler.manager.getBlocks sys req.chainId [] >>= fun result => pure (.blocks result)) >>=
    fun result => makeResponse sys (getBlocksAnswer result))
  rw [Exec.bindAssoc]
  unfold handleGetBlocksRequest
  congr 1
  funext r
  obtain ⟨_ | _,blocks⟩ := r <;> rfl

theorem verifyPlanned (req : IPC.ChainRequest) : handleVerifyChainRequest sys handler req =
    follow sys handler (.call req.chainId .verifyChain verifyAnswer) := by
  refine answeredBy fun r => ?_
  cases r <;> rfl

theorem headerPlanned (req : IPC.ChainRequest) : handleGetChainHeaderRequest sys handler req =
    follow sys handler (.call req.chainId .getChainHeader headerAnswer) := by
  refine answeredBy fun r => ?_
  cases r <;> rfl

theorem keysPlanned (req : IPC.ChainRequest) : handleGetChainKeysRequest sys handler req =
    follow sys handler (.call req.chainId .getChainHeader keysAnswer) := by
  refine answeredBy fun r => ?_
  cases r <;> rfl

theorem infoPlanned (req : IPC.ChainRequest) : handleGetChainInfoRequest sys handler req =
    follow sys handler (.call req.chainId .getChainInfo (infoAnswer req.chainId)) := by
  refine answeredBy fun r => ?_
  cases r <;> rfl

theorem dispatchPlanned (req : IPC.Request) :
    dispatch sys handler req = follow sys handler (planOf req) := by
  obtain ⟨_,ping,create,remove,add,block,blocks,verify,header,keys,info⟩ := req
  cases ping with
  | some _ => rfl
  | none =>
  cases create with
  | some r => exact createPlanned r
  | none =>
  cases remove with
  | some r => exact removePlanned r
  | none =>
  cases add with
  | some r => exact addBlockPlanned r
  | none =>
  cases block with
  | some r => exact getBlockPlanned r
  | none =>
  cases blocks with
  | some r => exact getBlocksPlanned r
  | none =>
  cases verify with
  | some r => exact verifyPlanned r
  | none =>
  cases header with
  | some r => exact headerPlanned r
  | none =>
  cases keys with
  | some r => exact keysPlanned r
  | none =>
  cases info with
  | some r => exact infoPlanned r
  | none => rfl

end Plans
end Handler
end ChainDB
