import ChainDB.Service

/-! What the status of a reply says about the storage directory, whatever the directory holds and
whatever fails on the way. -/
namespace ChainDB
open Effects

namespace Handler

inductive Duty (chainId : UInt64) : Manager.Operation → (Manager.Result → IPC.Response) → Prop where
  | create (data : Bytes) : Duty chainId (.createChain data) createAnswer
  | remove : Duty chainId .removeChain removeAnswer
  | addBlock (data : Bytes) : Duty chainId (.addBlock data) addBlockAnswer
  | getBlock (index : UInt64) : Duty chainId (.getBlock index) getBlockAnswer
  | getBlocks : Duty chainId (.getBlocks []) getBlocksAnswer
  | verify : Duty chainId .verifyChain verifyAnswer
  | header : Duty chainId .getChainHeader headerAnswer
  | keys : Duty chainId .getChainHeader keysAnswer
  | info : Duty chainId .getChainInfo (infoAnswer chainId)

def Succeeded (resp : IPC.Response) : Prop :=
  resp.status.map IPC.StatusResponse.status = some Status.success.code

instance : DecidablePred Succeeded := fun _ => inferInstanceAs (Decidable (_ = _))

theorem successSucceeds : Succeeded success := rfl

theorem failureFails (text : String) : ¬ Succeeded (failure text) := by
  intro same
  cases same

inductive Planned (req : IPC.Request) : Plan → Prop where
  | ping (asked : req.pingRequest ≠ none) : Planned req (.reply success)
  | declined (resp : IPC.Response) (fails : ¬ Succeeded resp) : Planned req (.reply resp)
  | call (chainId : UInt64) (operation : Manager.Operation) (answer : Manager.Result → IPC.Response)
      (duty : Duty chainId operation answer) : Planned req (.call chainId operation answer)

theorem dataPlanned {req : IPC.Request} {r : IPC.DataRequest} {operation : Manager.Operation}
    {answer : Manager.Result → IPC.Response} (duty : Duty r.chainId operation answer) :
    Planned req (dataPlan r operation answer) := by
  unfold dataPlan
  split
  · exact .declined tooLarge fun same => by cases same
  · exact .call _ _ _ duty

theorem planPlanned (req : IPC.Request) : Planned req (planOf req) := by
  obtain ⟨_,ping,create,remove,add,block,blocks,verify,header,keys,info⟩ := req
  cases ping with
  | some _ => exact .ping (Option.some_ne_none _)
  | none =>
  cases create with
  | some r => exact dataPlanned (.create r.data)
  | none =>
  cases remove with
  | some r => exact .call _ _ _ .remove
  | none =>
  cases add with
  | some r => exact dataPlanned (.addBlock r.data)
  | none =>
  cases block with
  | some r => exact .call _ _ _ (.getBlock r.blockId)
  | none =>
  cases blocks with
  | some r => exact .call _ _ _ .getBlocks
  | none =>
  cases verify with
  | some r => exact .call _ _ _ .verify
  | none =>
  cases header with
  | some r => exact .call _ _ _ .header
  | none =>
  cases keys with
  | some r => exact .call _ _ _ .keys
  | none =>
  cases info with
  | some r => exact .call _ _ _ .info
  | none => exact .declined _ fun same => by cases same

/-- What a reply to a read carries, in the records that it was made of. -/
inductive Shown (sys : Platform) (chainId : UInt64) (db : Database) :
    Manager.Operation → IPC.Response → Prop where
  | block (index : UInt64) (header : Header) (block : Block) (supported : Chain.Supported sys db header)
      (positive : index ≠ 0) (inside : index ≤ header.index)
      (stored : Chain.storedBlock sys db index = some block) : Shown sys chainId db (.getBlock index)
        {success with getBlockResponse := some ⟨some (setBlockData block)⟩}
  | blocks (header : Header) (blocks : List Block) (supported : Chain.Supported sys db header)
      (length : blocks.length = header.index.toNat) (stored : Chain.Consecutive sys db 1 blocks) :
      Shown sys chainId db (.getBlocks []) {success with getBlocksResponse := blocksResponse blocks}
  | verified (header : Header) (blocks : List Block) (verified : Chain.Verified sys db header blocks) :
      Shown sys chainId db .verifyChain success
  | header (header : Header) (stored : Chain.storedHeader sys db = some header) :
      Shown sys chainId db .getChainHeader
        {success with getChainHeaderResponse := some ⟨some header.message⟩}
  | keys (header : Header) (stored : Chain.storedHeader sys db = some header) :
      Shown sys chainId db .getChainHeader
        {success with getChainKeysResponse := some ⟨header.privateKey.bytes,header.publicKey.bytes⟩}
  | info (header : Header) (stored : Chain.storedHeader sys db = some header) :
      Shown sys chainId db .getChainInfo
        {success with getChainInfoResponse := some ⟨chainId,header.version,header.index⟩}

inductive Performed (sys : Platform) (manager : Manager) (dir : Directory) (chainId : UInt64)
    (resp : IPC.Response) : Manager.Operation → Directory → Prop where
  | created (data : Bytes) (privateKey : PrivateKey) (publicKey : PublicKey)
      (vacant : dir (manager.makeStoragePath chainId) = none)
      (valid : sys.secp.ecSeckeyVerify privateKey = true)
      (paired : sys.publicKeyOf privateKey = some publicKey) :
      Performed sys manager dir chainId resp (.createChain data)
        (Function.update dir (manager.makeStoragePath chainId)
          (some (Chain.newDatabase sys data privateKey publicKey)))
  | appended (block : Block) (db : Database) (header : Header) (prevHash : Hash)
      (here : dir (manager.makeStoragePath chainId) = some db) (supported : Chain.Supported sys db header)
      (composed : Manager.Composed sys db block.data header prevHash block)
      (carried : resp.addBlockResponse = some ⟨some (setBlockData block)⟩) :
      Performed sys manager dir chainId resp (.addBlock block.data)
        (Function.update dir (manager.makeStoragePath chainId)
          (some (DB.applyBatch (Chain.blockRecords sys header block) db)))
  | removed : Performed sys manager dir chainId resp .removeChain
      (Function.update dir (manager.makeStoragePath chainId) none)
  | read (operation : Manager.Operation) (db : Database)
      (here : dir (manager.makeStoragePath chainId) = some db)
      (shown : Shown sys chainId db operation resp) : Performed sys manager dir chainId resp operation dir

/- What a call that failed can leave behind: nothing, or the bare database of a failed creation. -/
def Untouched (manager : Manager) (dir : Directory) (chainId : UInt64) (operation : Manager.Operation)
    (last : Directory) : Prop :=
  last = dir ∨ (∃ data, operation = .createChain data) ∧ dir (manager.makeStoragePath chainId) = none ∧
    last = Function.update dir (manager.makeStoragePath chainId) (some ∅)

structure Truthful (sys : Platform) (manager : Manager) (dir : Directory) (chainId : UInt64)
    (operation : Manager.Operation) (resp : IPC.Response) (last : Directory) : Prop where
  success : Succeeded resp → Performed sys manager dir chainId resp operation last
  failure : ¬ Succeeded resp → Untouched manager dir chainId operation last

section Truth
variable {sys : Platform} {manager : Manager} {dir : Directory} {chainId : UInt64} {draws : Draws}
  {result : Manager.Result}

theorem createTruthful {data : Bytes}
    (outcome : (Manager.effect sys manager ⟨chainId,.createChain data,draws⟩ dir).1 = .done result) :
    Truthful sys manager dir chainId (.createChain data) (createAnswer result)
      (Manager.after sys manager ⟨chainId,.createChain data,draws⟩ dir) := by
  simp only [Manager.after,Manager.effect,Manager.perform,Exec.attemptMap] at outcome ⊢
  rcases run : manager.createChain sys chainId data (start dir draws) with ⟨chain | _ | e,t⟩
  · simp only [run] at outcome ⊢
    cases outcome
    obtain ⟨_,privateKey,publicKey,created⟩ := Manager.createChainDone run
    refine ⟨fun _ => ?_,fun failed => absurd successSucceeds failed⟩
    rw [created.directory]
    exact .created data privateKey publicKey created.vacant created.valid created.paired
  · simp only [run] at outcome ⊢
    cases outcome
    obtain ⟨_,same | ⟨_,vacant,half⟩,_⟩ := Manager.createChainAbsent run
    · exact ⟨fun succeeded => absurd succeeded (failureFails _),fun _ => Or.inl same⟩
    · exact ⟨fun succeeded => absurd succeeded (failureFails _),
        fun _ => Or.inr ⟨⟨data,rfl⟩,vacant,half⟩⟩
  · simp only [run] at outcome
    cases outcome

theorem addBlockTruthful {data : Bytes}
    (outcome : (Manager.effect sys manager ⟨chainId,.addBlock data,draws⟩ dir).1 = .done result) :
    Truthful sys manager dir chainId (.addBlock data) (addBlockAnswer result)
      (Manager.after sys manager ⟨chainId,.addBlock data,draws⟩ dir) := by
  simp only [Manager.after,Manager.effect,Manager.perform,Exec.attemptMap] at outcome ⊢
  rcases run : manager.addBlock sys chainId data (start dir draws) with ⟨block | _ | e,t⟩
  · simp only [run] at outcome ⊢
    cases outcome
    obtain ⟨db,header,prevHash,appended,composed⟩ := Manager.addBlockDone run
    refine ⟨fun _ => ?_,fun failed => absurd rfl failed⟩
    obtain rfl := composed.data
    rw [appended.directory]
    exact .appended block db header prevHash appended.here appended.supported composed rfl
  · simp only [run] at outcome ⊢
    cases outcome
    exact ⟨fun succeeded => absurd succeeded (failureFails _),
      fun _ => Or.inl (Manager.addBlockAbsent run).1.directory⟩
  · simp only [run] at outcome
    cases outcome

theorem removeTruthful
    (outcome : (Manager.effect sys manager ⟨chainId,.removeChain,draws⟩ dir).1 = .done result) :
    Truthful sys manager dir chainId .removeChain (removeAnswer result)
      (Manager.after sys manager ⟨chainId,.removeChain,draws⟩ dir) := by
  simp only [Manager.after,Manager.effect,Manager.perform,Exec.attemptMap] at outcome ⊢
  rcases run : manager.removeChain chainId (start dir draws) with ⟨u | _ | e,t⟩
  · simp only [run] at outcome ⊢
    cases outcome
    refine ⟨fun _ => ?_,fun failed => absurd successSucceeds failed⟩
    rw [(Chain.removeDone run).2]
    exact .removed
  · simp only [run] at outcome ⊢
    cases outcome
    exact ⟨fun succeeded => absurd succeeded (failureFails _),
      fun _ => Or.inl (Chain.removeAbsent run).1.directory⟩
  · simp only [run] at outcome
    cases outcome

theorem readTruthful {operation : Manager.Operation} {resp : IPC.Response} (reads : operation.Reads)
    (shown : Succeeded resp → ∃ db, dir (manager.makeStoragePath chainId) = some db ∧
      Shown sys chainId db operation resp) :
    Truthful sys manager dir chainId operation resp
      (Manager.after sys manager ⟨chainId,operation,draws⟩ dir) := by
  have still : Manager.after sys manager ⟨chainId,operation,draws⟩ dir = dir :=
    (Manager.readsQuiet sys manager chainId reads (start dir draws)).directory
  rw [still]
  refine ⟨fun succeeded => ?_,fun _ => Or.inl rfl⟩
  obtain ⟨db,here,shown⟩ := shown succeeded
  exact .read operation db here shown

theorem blockShown {index : UInt64}
    (outcome : (Manager.effect sys manager ⟨chainId,.getBlock index,draws⟩ dir).1 = .done result)
    (succeeded : Succeeded (getBlockAnswer result)) :
    ∃ db, dir (manager.makeStoragePath chainId) = some db ∧
      Shown sys chainId db (.getBlock index) (getBlockAnswer result) := by
  simp only [Manager.effect,Manager.perform,Exec.attemptMap] at outcome
  rcases run : manager.getBlock sys chainId index (start dir draws) with ⟨block | _ | e,t⟩
  · simp only [run] at outcome
    cases outcome
    obtain ⟨db,header,here,supported,positive,inside,stored⟩ := Chain.getBlockDone run
    exact ⟨db,here,.block index header block supported positive inside stored⟩
  · simp only [run] at outcome
    cases outcome
    exact absurd succeeded (failureFails _)
  · simp only [run] at outcome
    cases outcome

theorem blocksShown
    (outcome : (Manager.effect sys manager ⟨chainId,.getBlocks [],draws⟩ dir).1 = .done result)
    (succeeded : Succeeded (getBlocksAnswer result)) :
    ∃ db, dir (manager.makeStoragePath chainId) = some db ∧
      Shown sys chainId db (.getBlocks []) (getBlocksAnswer result) := by
  obtain ⟨⟨complete,blocks⟩,t,run,same⟩ := Exec.bindDone.mp (Exec.outcomeApply outcome)
  cases same
  cases complete with
  | false => exact absurd succeeded (failureFails _)
  | true =>
    obtain ⟨db,header,_,here,supported,_,length,stored,rfl⟩ := Chain.getBlocksDone run
    exact ⟨db,here,.blocks header _ supported length stored⟩

theorem verifyShown
    (outcome : (Manager.effect sys manager ⟨chainId,.verifyChain,draws⟩ dir).1 = .done result)
    (succeeded : Succeeded (verifyAnswer result)) :
    ∃ db, dir (manager.makeStoragePath chainId) = some db ∧
      Shown sys chainId db .verifyChain (verifyAnswer result) := by
  simp only [Manager.effect,Manager.perform,Exec.attemptMap] at outcome
  rcases run : manager.verifyChain sys chainId (start dir draws) with ⟨u | _ | e,t⟩
  · simp only [run] at outcome
    cases outcome
    obtain ⟨db,header,blocks,here,verified,_⟩ := Manager.verifyChainDone run
    exact ⟨db,here,.verified header blocks verified⟩
  · simp only [run] at outcome
    cases outcome
    exact absurd succeeded (failureFails _)
  · simp only [run] at outcome
    cases outcome

theorem headerRead
    (outcome : (Manager.effect sys manager ⟨chainId,.getChainHeader,draws⟩ dir).1 = .done result) :
    result = .header none ∨ ∃ db header, result = .header (some header) ∧
      dir (manager.makeStoragePath chainId) = some db ∧ Chain.storedHeader sys db = some header := by
  simp only [Manager.effect,Manager.perform,Exec.attemptMap] at outcome
  rcases run : manager.getChainHeader sys chainId (start dir draws) with ⟨header | _ | e,t⟩
  · simp only [run] at outcome
    cases outcome
    obtain ⟨db,here,stored⟩ := Chain.getHeaderDone run
    exact Or.inr ⟨db,header,rfl,here,stored⟩
  · simp only [run] at outcome
    cases outcome
    exact Or.inl rfl
  · simp only [run] at outcome
    cases outcome

theorem infoShown
    (outcome : (Manager.effect sys manager ⟨chainId,.getChainInfo,draws⟩ dir).1 = .done result)
    (succeeded : Succeeded (infoAnswer chainId result)) :
    ∃ db, dir (manager.makeStoragePath chainId) = some db ∧
      Shown sys chainId db .getChainInfo (infoAnswer chainId result) := by
  simp only [Manager.effect,Manager.perform,Exec.attemptMap] at outcome
  rcases run : manager.getChainInfo sys chainId (start dir draws) with ⟨info | _ | e,t⟩
  · simp only [run] at outcome
    cases outcome
    obtain ⟨header,u,got,same⟩ := Exec.bindDone.mp run
    cases same
    obtain ⟨db,here,stored⟩ := Chain.getHeaderDone got
    exact ⟨db,here,.info header stored⟩
  · simp only [run] at outcome
    cases outcome
    exact absurd succeeded (failureFails _)
  · simp only [run] at outcome
    cases outcome

theorem dutyTruthful {operation : Manager.Operation} {answer : Manager.Result → IPC.Response}
    (duty : Duty chainId operation answer)
    (outcome : (Manager.effect sys manager ⟨chainId,operation,draws⟩ dir).1 = .done result) :
    Truthful sys manager dir chainId operation (answer result)
      (Manager.after sys manager ⟨chainId,operation,draws⟩ dir) := by
  cases duty with
  | create data => exact createTruthful outcome
  | remove => exact removeTruthful outcome
  | addBlock data => exact addBlockTruthful outcome
  | getBlock index => exact readTruthful trivial (blockShown outcome)
  | getBlocks => exact readTruthful trivial (blocksShown outcome)
  | verify => exact readTruthful trivial (verifyShown outcome)
  | info => exact readTruthful trivial (infoShown outcome)
  | header =>
    refine readTruthful trivial fun succeeded => ?_
    obtain rfl | ⟨db,header,rfl,here,stored⟩ := headerRead outcome
    · exact absurd succeeded (failureFails _)
    · exact ⟨db,here,.header header stored⟩
  | keys =>
    refine readTruthful trivial fun succeeded => ?_
    obtain rfl | ⟨db,header,rfl,here,stored⟩ := headerRead outcome
    · exact absurd succeeded (failureFails _)
    · exact ⟨db,here,.keys header stored⟩

theorem callAnswered (lawful : sys.response.Lawful) {handler : Handler} {arrival : Arrival}
    {reply : Bytes} {resp : IPC.Response} {call : Manager.Call}
    (leads : callOf sys handler arrival = some call)
    (replied : (handleMessage sys handler arrival.msg (start dir arrival.draws)).1 = .done reply)
    (read : sys.response.parseFromString reply = some resp) :
    ∃ answer result, Duty call.chainId call.operation answer ∧
      (Manager.effect sys handler.manager call dir).1 = .done result ∧ resp = answer result := by
  have handled := handling sys handler arrival dir
  rw [replied] at handled
  generalize (handleMessage sys handler arrival.msg (start dir arrival.draws)).2 = t at handled
  cases handled with
  | unparsed parsed => simp only [callOf,parsed,reduceCtorEq] at leads
  | refused req u parsed passed => cases (callOfRefused parsed passed).symm.trans leads
  | told req resp u parsed passed plan => cases (callOfTold parsed plan).symm.trans leads
  | called req made answer result u v parsed passed plan draws outcome world run =>
    obtain ⟨chainId,operation,_⟩ := made
    subst draws
    cases (callOfGate parsed passed plan).symm.trans leads
    obtain ⟨rfl,fits⟩ := serialized run
    cases (lawful _ fits).symm.trans read
    have planned := planPlanned req
    rw [plan] at planned
    cases planned with
    | call _ _ _ duty => exact ⟨answer,result,duty,outcome,rfl⟩

theorem toldTruthful (lawful : sys.response.Lawful) {handler : Handler} {arrival : Arrival}
    {reply : Bytes} {resp : IPC.Response} (leads : callOf sys handler arrival = none)
    (replied : (handleMessage sys handler arrival.msg (start dir arrival.draws)).1 = .done reply)
    (read : sys.response.parseFromString reply = some resp) (succeeded : Succeeded resp) :
    ∃ req, sys.request.parseFromString arrival.msg = some req ∧ Admitted sys handler req ∧
      req.pingRequest ≠ none ∧ resp = success := by
  have handled := handling sys handler arrival dir
  rw [replied] at handled
  generalize (handleMessage sys handler arrival.msg (start dir arrival.draws)).2 = t at handled
  cases handled with
  | unparsed parsed run =>
    obtain ⟨rfl,fits⟩ := serialized run
    cases (lawful _ fits).symm.trans read
    cases succeeded
  | refused req u parsed passed run =>
    obtain ⟨rfl,fits⟩ := serialized run
    cases (lawful _ fits).symm.trans read
    cases succeeded
  | told req other u parsed passed plan run =>
    obtain ⟨rfl,fits⟩ := serialized run
    cases (lawful _ fits).symm.trans read
    have planned := planPlanned req
    rw [plan] at planned
    cases planned with
    | ping asked => exact ⟨req,parsed,(gatePassed passed).2,asked,rfl⟩
    | declined _ fails => exact absurd succeeded fails
  | called req made answer result u v parsed passed plan draws outcome world run =>
    cases leads.symm.trans (callOfGate parsed passed plan)

end Truth

/- The second case is a message that leads to no call: it changes nothing, and is told of success only
if it is an admitted ping. -/
theorem repliesAreTruthful {sys : Platform} (lawful : sys.response.Lawful) (handler : Handler)
    (arrival : Arrival) (dir : Directory) (reply : Bytes) (resp : IPC.Response)
    (replied : (handleMessage sys handler arrival.msg (start dir arrival.draws)).1 = .done reply)
    (read : sys.response.parseFromString reply = some resp) :
    (∃ call, callOf sys handler arrival = some call ∧
      Truthful sys handler.manager dir call.chainId call.operation resp
        (after sys handler arrival dir)) ∨
    callOf sys handler arrival = none ∧ after sys handler arrival dir = dir ∧
      (Succeeded resp → ∃ req, sys.request.parseFromString arrival.msg = some req ∧
        Admitted sys handler req ∧ req.pingRequest ≠ none ∧ resp = success) := by
  cases leads : callOf sys handler arrival with
  | none =>
    refine Or.inr ⟨rfl,?_,toldTruthful lawful leads replied read⟩
    rw [afterCall,leads]
    rfl
  | some call =>
    obtain ⟨answer,result,duty,outcome,rfl⟩ := callAnswered lawful leads replied read
    refine Or.inl ⟨call,rfl,?_⟩
    rw [afterCall,leads]
    exact dutyTruthful duty outcome

theorem sampleCreationTruthful :
    (∃ call, callOf Sample.platform lockedHandler (signed createRequest) = some call ∧
      Truthful Sample.platform ⟨[]⟩ Manager.emptyDirectory call.chainId call.operation success
        (after Sample.platform lockedHandler (signed createRequest) Manager.emptyDirectory)) ∨
    callOf Sample.platform lockedHandler (signed createRequest) = none ∧
      after Sample.platform lockedHandler (signed createRequest) Manager.emptyDirectory =
        Manager.emptyDirectory ∧
      (Succeeded success → ∃ req,
        Sample.platform.request.parseFromString (signed createRequest).msg = some req ∧
        Admitted Sample.platform lockedHandler req ∧ req.pingRequest ≠ none ∧ success = success) :=
  repliesAreTruthful (wireLawful IPC.Response.schemaSound) lockedHandler (signed createRequest)
    Manager.emptyDirectory (Sample.platform.response.encode success) success (by decide +kernel)
    (by decide +kernel)

end Handler
end ChainDB
