import ChainDB.Answers

/-! Which submessages a reply carries, by the kind of the request and the status. -/
namespace ChainDB
open Effects

namespace Handler

inductive Payload where
  | addBlock | getBlock | getBlocks | getChainHeader | getChainKeys | getChainInfo
  deriving DecidableEq, Repr

def Payload.Present (resp : IPC.Response) : Payload → Prop
  | .addBlock => resp.addBlockResponse ≠ none
  | .getBlock => resp.getBlockResponse ≠ none
  | .getBlocks => resp.getBlocksResponse ≠ none
  | .getChainHeader => resp.getChainHeaderResponse ≠ none
  | .getChainKeys => resp.getChainKeysResponse ≠ none
  | .getChainInfo => resp.getChainInfoResponse ≠ none

def payloadOf (req : IPC.Request) : Option Payload :=
  match req.pingRequest with
  | some _ => none
  | none =>
  match req.createChainRequest with
  | some _ => none
  | none =>
  match req.removeChainRequest with
  | some _ => none
  | none =>
  match req.addBlockRequest with
  | some _ => some .addBlock
  | none =>
  match req.getBlockRequest with
  | some _ => some .getBlock
  | none =>
  match req.getBlocksRequest with
  | some _ => some .getBlocks
  | none =>
  match req.verifyChainRequest with
  | some _ => none
  | none =>
  match req.getChainHeaderRequest with
  | some _ => some .getChainHeader
  | none =>
  match req.getChainKeysRequest with
  | some _ => some .getChainKeys
  | none =>
  match req.getChainInfoRequest with
  | some _ => some .getChainInfo
  | none => none

def payloadOfMessage (sys : Platform) (msg : Bytes) : Option Payload :=
  (sys.request.parseFromString msg).bind payloadOf

structure Shaped (expected : Option Payload) (resp : IPC.Response) : Prop where
  status : resp.status ≠ none
  payload : ∀ p : Payload, p.Present resp ↔
    expected = some p ∧ ∃ text, resp.status = some ⟨Status.success.code,text⟩
  creation : resp.createChainResponse = none
  removal : resp.removeChainResponse = none
  verification : resp.verifyChainResponse = none

theorem statusShaped {expected : Option Payload} {status : Status} (text : Bytes)
    (plain : status = .success → expected = none) : Shaped expected (statusResponse status text) := by
  refine ⟨Option.some_ne_none _,fun p => ?_,rfl,rfl,rfl⟩
  have bare : ¬ p.Present (statusResponse status text) := by
    cases p <;> simp [Payload.Present,statusResponse]
  refine ⟨fun present => absurd present bare,?_⟩
  rintro ⟨awaited,words,same⟩
  have succeeded : status = .success := by
    cases status <;> simp [statusResponse,Status.code] at same ⊢
  cases (plain succeeded).symm.trans awaited

theorem payloadShaped {own : Payload} {resp : IPC.Response}
    (status : resp.status = some ⟨Status.success.code,[]⟩)
    (payload : ∀ p : Payload, p.Present resp ↔ own = p) (creation : resp.createChainResponse = none)
    (removal : resp.removeChainResponse = none) (verification : resp.verifyChainResponse = none) :
    Shaped (some own) resp := by
  refine ⟨by simp [status],fun p => ?_,creation,removal,verification⟩
  simp [payload,status]

section Shapes
variable {sys : Platform} {handler : Handler} {expected : Option Payload} {w : World}

def Yields (sys : Platform) (expected : Option Payload) (m : Action Bytes) (w : World) : Prop :=
  ∀ reply t, m w = (.done reply,t) →
    ∃ resp, sys.response.parseFromString reply = some resp ∧ Shaped expected resp

theorem responseYields (lawful : sys.response.Lawful) {resp : IPC.Response}
    (shaped : Shaped expected resp) : Yields sys expected (makeResponse sys resp) w := by
  intro reply t made
  obtain ⟨rfl,fits⟩ := serialized made
  exact ⟨resp,lawful resp fits,shaped⟩

theorem failureYields (lawful : sys.response.Lawful) {status : Status} (text : Bytes)
    (failure : status ≠ .success) : Yields sys expected (makeStatus sys status text) w :=
  responseYields lawful (statusShaped text fun same => absurd same failure)

theorem successYields (lawful : sys.response.Lawful) :
    Yields sys none (makeStatus sys .success []) w :=
  responseYields lawful (statusShaped [] fun _ => rfl)

theorem attemptYields {α : Type} {m : Action α} {f : Option α → Action Bytes}
    (absent : ∀ t, Yields sys expected (f none) t)
    (present : ∀ a t, Yields sys expected (f (some a)) t) :
    Yields sys expected (Exec.attempt m >>= f) w := by
  intro reply t made
  obtain ⟨result,u,_,last⟩ := Exec.bindDone.mp made
  cases result with
  | none => exact absent u reply t last
  | some a => exact present a u reply t last

section Handlers
variable (lawful : sys.response.Lawful)
include lawful

theorem createChainYields (req : IPC.DataRequest) :
    Yields sys none (handleCreateChainRequest sys handler req) w := by
  unfold handleCreateChainRequest
  split
  · exact failureYields lawful _ (by decide)
  · exact attemptYields (fun _ => failureYields lawful _ (by decide)) fun _ _ => successYields lawful

theorem removeChainYields (req : IPC.ChainRequest) :
    Yields sys none (handleRemoveChainRequest sys handler req) w :=
  attemptYields (fun _ => failureYields lawful _ (by decide)) fun _ _ => successYields lawful

theorem addBlockYields (req : IPC.DataRequest) :
    Yields sys (some .addBlock) (handleAddBlockRequest sys handler req) w := by
  unfold handleAddBlockRequest
  split
  · exact failureYields lawful _ (by decide)
  · refine attemptYields (fun _ => failureYields lawful _ (by decide)) fun block _ =>
      responseYields lawful (payloadShaped rfl (fun p => ?_) rfl rfl rfl)
    cases p <;> simp [Payload.Present,statusResponse]

theorem getBlockYields (req : IPC.GetBlockRequest) :
    Yields sys (some .getBlock) (handleGetBlockRequest sys handler req) w := by
  refine attemptYields (fun _ => failureYields lawful _ (by decide)) fun block _ =>
    responseYields lawful (payloadShaped rfl (fun p => ?_) rfl rfl rfl)
  cases p <;> simp [Payload.Present,statusResponse]

theorem getBlocksYields {chainId : UInt64}
    (filled : ∀ db header, w.directory (handler.manager.makeStoragePath chainId) = some db →
      Chain.Supported sys db header → header.index ≠ 0) :
    Yields sys (some .getBlocks) (handleGetBlocksRequest sys handler ⟨chainId⟩) w := by
  intro reply t made
  obtain ⟨result,u,read,last⟩ := Exec.bindDone.mp made
  generalize ended : (Outcome.done result : Outcome Halt (Bool × List Block)) = o at read
  cases Chain.getBlocksEnds read with
  | all db header l here supported bounded length stored =>
    cases ended
    have nonempty : l ≠ [] := fun empty => by
      rw [empty] at length
      exact filled db header here supported (UInt64.toNat_inj.mp length.symm)
    refine responseYields lawful (payloadShaped rfl (fun p => ?_) rfl rfl rfl) reply t last
    cases p <;> simp [Payload.Present,statusResponse,blocksResponse,nonempty]
  | shut =>
    cases ended
    exact failureYields lawful _ (by decide) reply t last
  | stuck =>
    cases ended
    exact failureYields lawful _ (by decide) reply t last
  | endless => cases ended

theorem verifyChainYields (req : IPC.ChainRequest) :
    Yields sys none (handleVerifyChainRequest sys handler req) w :=
  attemptYields (fun _ => failureYields lawful _ (by decide)) fun _ _ => successYields lawful

theorem getChainHeaderYields (req : IPC.ChainRequest) :
    Yields sys (some .getChainHeader) (handleGetChainHeaderRequest sys handler req) w := by
  refine attemptYields (fun _ => failureYields lawful _ (by decide)) fun header _ =>
    responseYields lawful (payloadShaped rfl (fun p => ?_) rfl rfl rfl)
  cases p <;> simp [Payload.Present,statusResponse]

theorem getChainKeysYields (req : IPC.ChainRequest) :
    Yields sys (some .getChainKeys) (handleGetChainKeysRequest sys handler req) w := by
  refine attemptYields (fun _ => failureYields lawful _ (by decide)) fun header _ =>
    responseYields lawful (payloadShaped rfl (fun p => ?_) rfl rfl rfl)
  cases p <;> simp [Payload.Present,statusResponse]

theorem getChainInfoYields (req : IPC.ChainRequest) :
    Yields sys (some .getChainInfo) (handleGetChainInfoRequest sys handler req) w := by
  refine attemptYields (fun _ => failureYields lawful _ (by decide)) fun info _ =>
    responseYields lawful (payloadShaped rfl (fun p => ?_) rfl rfl rfl)
  cases p <;> simp [Payload.Present,statusResponse]

end Handlers

theorem dispatchYields (lawful : sys.response.Lawful) (req : IPC.Request)
    (filled : ∀ chainId db header, AsksBlocks req chainId →
      w.directory (handler.manager.makeStoragePath chainId) = some db →
      Chain.Supported sys db header → header.index ≠ 0) :
    Yields sys (payloadOf req) (dispatch sys handler req) w := by
  unfold dispatch payloadOf
  cases ping : req.pingRequest with
  | some _ => exact successYields lawful
  | none =>
  cases createChain : req.createChainRequest with
  | some r => exact createChainYields lawful r
  | none =>
  cases removeChain : req.removeChainRequest with
  | some r => exact removeChainYields lawful r
  | none =>
  cases addBlock : req.addBlockRequest with
  | some r => exact addBlockYields lawful r
  | none =>
  cases getBlock : req.getBlockRequest with
  | some r => exact getBlockYields lawful r
  | none =>
  cases getBlocks : req.getBlocksRequest with
  | some r =>
    exact getBlocksYields lawful fun db header =>
      filled r.chainId db header ⟨⟨ping,createChain,removeChain,addBlock,getBlock⟩,getBlocks⟩
  | none =>
  cases req.verifyChainRequest with
  | some r => exact verifyChainYields lawful r
  | none =>
  cases req.getChainHeaderRequest with
  | some r => exact getChainHeaderYields lawful r
  | none =>
  cases req.getChainKeysRequest with
  | some r => exact getChainKeysYields lawful r
  | none =>
  cases req.getChainInfoRequest with
  | some r => exact getChainInfoYields lawful r
  | none => exact failureYields lawful _ (by decide)

theorem handleMessageYields (lawful : sys.response.Lawful) (msg : Bytes)
    (filled : ∀ req chainId db header, sys.request.parseFromString msg = some req →
      Admitted sys handler req → AsksBlocks req chainId →
      w.directory (handler.manager.makeStoragePath chainId) = some db →
      Chain.Supported sys db header → header.index ≠ 0) :
    Yields sys (payloadOfMessage sys msg) (handleMessage sys handler msg) w := by
  unfold handleMessage payloadOfMessage
  cases parsed : sys.request.parseFromString msg with
  | none => exact failureYields lawful _ (by decide)
  | some req =>
    simp only [Option.bind_some]
    by_cases locked : handler.password ≠ []
    · rw [if_pos locked]
      cases carried : req.authData with
      | none => exact failureYields lawful _ (by decide)
      | some data =>
        intro reply t made
        obtain ⟨result,u,checked,last⟩ := Exec.bindDone.mp made
        cases result with
        | none => exact failureYields lawful _ (by decide) reply t last
        | some _ =>
          have passed := Exec.attemptSome.mp checked
          have allowed : Authorized sys handler req := ⟨data,carried,checkAuthDone passed⟩
          have still := ((checkAuthSteady data).quiet.apply passed).directory
          refine dispatchYields lawful req (fun chainId db header asks here supported => ?_) reply t last
          rw [still] at here
          exact filled req chainId db header parsed (Or.inr allowed) asks here supported
    · rw [if_neg locked]
      exact dispatchYields lawful req fun chainId db header =>
        filled req chainId db header parsed (Or.inl (not_not.mp locked))

end Shapes

def ListsNothing (sys : Platform) (handler : Handler) (dir : Directory) (msg : Bytes) : Prop :=
  ∃ req chainId db header, sys.request.parseFromString msg = some req ∧ Admitted sys handler req ∧
    AsksBlocks req chainId ∧ dir (handler.manager.makeStoragePath chainId) = some db ∧
    Chain.Supported sys db header ∧ header.index = 0

theorem payloadOfBlocks {req : IPC.Request} {chainId : UInt64} (asks : AsksBlocks req chainId) :
    payloadOf req = some .getBlocks := by
  simp only [payloadOf,asks.ping,asks.createChain,asks.removeChain,asks.addBlock,asks.getBlock,
    asks.getBlocks]

theorem nothingListed {sys : Platform} (wire : sys.response = wireCodec IPC.Response.schema)
    {handler : Handler} {dir : Directory} {msg : Bytes} (nothing : ListsNothing sys handler dir msg) :
    payloadOfMessage sys msg = some .getBlocks ∧ ∃ draws t, handleMessage sys handler msg
      (start dir draws) = (.done (sys.response.encode (statusResponse .success [])),t) := by
  obtain ⟨req,chainId,db,header,parsed,admitted,asks,here,supported,empty⟩ := nothing
  refine ⟨?_,fun _ => ⟨fun _ => true,fun _ => 0⟩,?_⟩
  · rw [payloadOfMessage,parsed,Option.bind_some,payloadOfBlocks asks]
  · have undisturbed : Undisturbed (fun _ => ⟨fun _ => true,fun _ => 0⟩) := fun _ _ _ => rfl
    obtain ⟨u,run,quiet,kept⟩ := @admittedRun sys handler msg req
      (start dir fun _ => ⟨fun _ => true,fun _ => 0⟩) parsed admitted fun _ => rfl
    obtain ⟨left,clean⟩ := kept undisturbed rfl
    obtain ⟨t,read⟩ := @Chain.blocksFound sys (handler.manager.chain chainId) u db header left clean
      (by rw [quiet.opened]; simp [start]) (by rw [quiet.directory]; exact here) supported []
      (by rw [empty]; decide) (by rw [empty]; rfl) (Chain.consecutiveNil sys db 1)
    have after := ((Chain.smoothBlocks sys _ []).after read left clean).1
    have fits : (sys.response.encode (statusResponse .success [])).length ≤ maxMessageLength := by
      rw [wire]
      decide
    refine ⟨t.spend,?_⟩
    rw [run,dispatchBlocks asks]
    unfold handleGetBlocksRequest Manager.getBlocks
    rw [Exec.bindOfDone read]
    exact serializeOfFits (after 0 .serialise trivial) fits

theorem replyShapeExact {sys : Platform} (wire : sys.response = wireCodec IPC.Response.schema)
    (handler : Handler) (dir : Directory) (msg : Bytes) :
    (∀ draws reply t, handleMessage sys handler msg (start dir draws) = (.done reply,t) →
      ∃ resp, sys.response.parseFromString reply = some resp ∧
        Shaped (payloadOfMessage sys msg) resp) ↔
      ¬ ListsNothing sys handler dir msg := by
  have lawful : sys.response.Lawful := wire ▸ wireLawful IPC.Response.schemaSound
  constructor
  · intro shaped nothing
    obtain ⟨awaited,draws,t,made⟩ := nothingListed wire nothing
    obtain ⟨resp,parsed,shape⟩ := shaped draws _ t made
    have fits : (sys.response.encode (statusResponse .success [])).length ≤ maxMessageLength := by
      rw [wire]
      decide
    cases (lawful _ fits).symm.trans parsed
    exact (shape.payload .getBlocks).mpr ⟨awaited,[],rfl⟩ rfl
  · intro filled draws
    exact handleMessageYields lawful msg fun req chainId db header parsed admitted asks here supported
      empty => filled ⟨req,chainId,db,header,parsed,admitted,asks,here,supported,empty⟩

def newChain : Directory :=
  served Sample.platform openHandler Manager.emptyDirectory [arrivalOf createRequest]

theorem emptyListingBare :
    ¬ ∀ draws reply t, handleMessage Sample.platform openHandler (arrivalOf listRequest).msg
        (start newChain draws) = (.done reply,t) →
      ∃ resp, Sample.platform.response.parseFromString reply = some resp ∧
        Shaped (payloadOfMessage Sample.platform (arrivalOf listRequest).msg) resp := by
  intro shaped
  have made : (handleMessage Sample.platform openHandler (arrivalOf listRequest).msg
      (start newChain (Sample.steady 1))).1 =
        .done (Sample.platform.response.encode (statusResponse .success [])) := by decide +kernel
  obtain ⟨resp,parsed,shape⟩ := shaped _ _ _ (Exec.outcomeApply made)
  have read : Sample.platform.response.parseFromString
      (Sample.platform.response.encode (statusResponse .success [])) =
        some (statusResponse .success []) := by decide +kernel
  cases read.symm.trans parsed
  have awaited : payloadOfMessage Sample.platform (arrivalOf listRequest).msg = some .getBlocks := by
    decide +kernel
  exact (shape.payload .getBlocks).mpr ⟨awaited,[],rfl⟩ rfl

def infoRequest : IPC.Request := {getChainInfoRequest := some ⟨1⟩}

theorem sampleReplyShape :
    ∃ reply t resp, handleMessage Sample.platform openHandler (arrivalOf infoRequest).msg
        (start newChain (Sample.steady 1)) = (.done reply,t) ∧
      Sample.platform.response.parseFromString reply = some resp ∧
      Shaped (payloadOfMessage Sample.platform (arrivalOf infoRequest).msg) resp := by
  have read : Sample.platform.request.parseFromString (arrivalOf infoRequest).msg =
    some infoRequest := by decide +kernel
  have made : (handleMessage Sample.platform openHandler (arrivalOf infoRequest).msg
      (start newChain (Sample.steady 1))).1 = .done (Sample.platform.response.encode
        {statusResponse .success [] with getChainInfoResponse := some ⟨1,DB_VERSION,0⟩}) := by
    decide +kernel
  have shape := (replyShapeExact rfl openHandler newChain (arrivalOf infoRequest).msg).mpr (by
    rintro ⟨req,chainId,db,header,parsed,_,asks,_⟩
    cases read.symm.trans parsed
    cases asks.getBlocks)
  obtain ⟨resp,parsed,shaped⟩ := shape _ _ _ (Exec.outcomeApply made)
  exact ⟨_,_,resp,Exec.outcomeApply made,parsed,shaped⟩

end Handler
end ChainDB
