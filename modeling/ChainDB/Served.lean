import ChainDB.StoredRecords
import ChainDB.RecordCodecs
import ChainDB.Reading
import ChainDB.Handler

/-! The records of blocks and headers inside the replies, byte for byte. -/
namespace ChainDB
open Effects ProtoWire

namespace Handler

def carried (number : Nat) (reply : Bytes) : List Bytes :=
  (submessages number reply).flatMap (submessages 1)

section Replies
variable {sys : Platform} (wire : sys.response = wireCodec IPC.Response.schema) {w t : World}
  {reply : Bytes}
include wire

theorem carriedNone {resp : IPC.Response} {number : Nat}
    (made : makeResponse sys resp w = (.done reply,t))
    (empty : payloads number (IPC.Response.fields resp) = []) : carried number reply = [] := by
  obtain ⟨rfl,fits⟩ := serialized made
  rw [wire] at fits ⊢
  have short : (IPC.Response.schema.encode resp).length < 2^64 := Nat.lt_of_le_of_lt fits (by decide)
  have parts : submessages number (IPC.Response.schema.encode resp) = [] :=
    (IPC.Response.schemaSound.submessagesOf number short).trans empty
  simp only [carried,wireCodec,parts,List.flatMap_nil]

theorem carriedPart {μ : Type} {schema : Schema μ} (sound : schema.Sound) (number : Nat) {m : μ}
    {resp : IPC.Response} (made : makeResponse sys resp w = (.done reply,t))
    (part : payloads number (IPC.Response.fields resp) = [schema.encode m]) :
    carried number reply = payloads 1 (schema.fields m) := by
  obtain ⟨rfl,fits⟩ := serialized made
  rw [wire] at fits ⊢
  have short : (IPC.Response.schema.encode resp).length < 2^64 := Nat.lt_of_le_of_lt fits (by decide)
  have parts : submessages number (IPC.Response.schema.encode resp) = [schema.encode m] :=
    (IPC.Response.schemaSound.submessagesOf number short).trans part
  have listed : schema.encode m ∈ payloads number (IPC.Response.fields resp) := by simp [part]
  have inner : (schema.encode m).length < 2^64 := Nat.lt_of_le_of_lt (listedShort listed) short
  simp only [carried,wireCodec,parts,List.flatMap_cons,List.flatMap_nil,List.append_nil]
  exact sound.submessagesOf 1 inner

theorem statusCarries {status : Status} {text : Bytes} {number : Nat} (other : 1 ≠ number)
    (made : makeStatus sys status text w = (.done reply,t)) : carried number reply = [] :=
  carriedNone wire made (by simp [IPC.Response.fields,statusResponse,other])

theorem failureCarries {status : Status} {text : Bytes} {number : Nat} (other : 1 ≠ number)
    (failed : w.failed = true) (made : makeStatus sys status text w = (.done reply,t)) :
    t.failed = true ∧ carried number reply = [] :=
  ⟨((serializeTame _ _).quiet.apply made).failed failed,statusCarries wire other made⟩

theorem addBlockCarries {block : Block} (made : makeResponse sys {statusResponse .success [] with
      addBlockResponse := some ⟨some (setBlockData block)⟩} w = (.done reply,t)) :
    carried 4 reply = [Blockchain.Block.schema.encode block.message] :=
  carriedPart wire IPC.BlockResponse.schemaSound 4 (m := ⟨some (setBlockData block)⟩) made
    (by simp [IPC.Response.fields,statusResponse])

theorem getBlockCarries {block : Block} (made : makeResponse sys {statusResponse .success [] with
      getBlockResponse := some ⟨some (setBlockData block)⟩} w = (.done reply,t)) :
    carried 5 reply = [Blockchain.Block.schema.encode block.message] :=
  carriedPart wire IPC.BlockResponse.schemaSound 5 (m := ⟨some (setBlockData block)⟩) made
    (by simp [IPC.Response.fields,statusResponse])

theorem getBlocksCarries {blocks : List Block} (made : makeResponse sys {statusResponse .success [] with
      getBlocksResponse := blocksResponse blocks} w = (.done reply,t)) :
    carried 6 reply = blocks.map fun block => Blockchain.Block.schema.encode block.message := by
  by_cases empty : blocks = []
  · subst empty
    exact carriedNone wire made (by simp [IPC.Response.fields,statusResponse,blocksResponse])
  · rw [carriedPart wire IPC.GetBlocksResponse.schemaSound 6 (m := ⟨blocks.map setBlockData⟩) made
      (by simp [IPC.Response.fields,statusResponse,blocksResponse,empty])]
    simp only [IPC.GetBlocksResponse.schema,payloadsSubs,if_true,List.map_map]
    rfl

theorem headerCarries {header : Header} (made : makeResponse sys {statusResponse .success [] with
      getChainHeaderResponse := some ⟨some header.message⟩} w = (.done reply,t)) :
    carried 8 reply = [Blockchain.Header.schema.encode header.message] :=
  carriedPart wire IPC.GetChainHeaderResponse.schemaSound 8 (m := ⟨some header.message⟩) made
    (by simp [IPC.Response.fields,statusResponse])

end Replies

section Handlers
variable {sys : Platform} (wire : sys.response = wireCodec IPC.Response.schema) {handler : Handler}
  {chainId : UInt64} {dir : Directory} {draws : Draws} {db : Database} {header : Header}
  (here : dir (handler.manager.makeStoragePath chainId) = some db) {reply : Bytes} {t : World}
include wire

theorem addBlockServed {data : Bytes} {block : Block} {u : World}
    (added : handler.manager.addBlock sys chainId data (start dir draws) = (.done block,u))
    (made : handleAddBlockRequest sys handler ⟨chainId,data⟩ (start dir draws) = (.done reply,t)) :
    carried 4 reply = [Blockchain.Block.schema.encode block.message] ∨
      MAX_DATA_LENGTH < data.length ∧ carried 4 reply = [] := by
  unfold handleAddBlockRequest at made
  split at made
  · rename_i long
    exact Or.inr ⟨long,statusCarries wire (by decide) made⟩
  · rcases Exec.attemptBindDone.mp made with ⟨other,v,run,last⟩ | ⟨v,run,last⟩
    · cases run.symm.trans added
      exact Or.inl (addBlockCarries wire last)
    · cases run.symm.trans added

include here

theorem getBlockServed {i : UInt64} {block : Block} (supported : Chain.Supported sys db header)
    (low : 1 ≤ i) (inside : i ≤ header.index) (stored : Chain.storedBlock sys db i = some block)
    (made : handleGetBlockRequest sys handler ⟨chainId,i⟩ (start dir draws) = (.done reply,t)) :
    carried 5 reply = [Blockchain.Block.schema.encode block.message] ∨
      t.failed = true ∧ carried 5 reply = [] := by
  have found : (start dir draws).directory (handler.manager.chain chainId).path = some db := here
  have free : (handler.manager.chain chainId).path ∉ (start dir draws).opened := by simp [start]
  rcases Exec.attemptBindDone.mp made with ⟨other,u,run,last⟩ | ⟨u,run,last⟩
  · obtain ⟨_,_,again,_,_,_,read⟩ := Chain.getBlockDone run
    cases found.symm.trans again
    cases stored.symm.trans read
    exact Or.inl (getBlockCarries wire last)
  · refine Or.inr (failureCarries wire (by decide) ?_ last)
    by_contra clean
    cases Chain.getBlockClean found free supported low inside stored run (by simpa using clean)

theorem getBlocksServed (supported : Chain.Supported sys db header)
    (covers : ∀ i, 1 ≤ i → i ≤ header.index → ∃ block, Chain.storedBlock sys db i = some block)
    (made : handleGetBlocksRequest sys handler ⟨chainId⟩ (start dir draws) = (.done reply,t)) :
    (∃ blocks, blocks.length = header.index.toNat ∧ Chain.Consecutive sys db 1 blocks ∧
      carried 6 reply = blocks.map fun block => Blockchain.Block.schema.encode block.message) ∨
    (t.failed = true ∨ header.index.toNat + 1 = 2^64) ∧ carried 6 reply = [] := by
  have found : (start dir draws).directory (handler.manager.chain chainId).path = some db := here
  have free : (handler.manager.chain chainId).path ∉ (start dir draws).opened := by simp [start]
  obtain ⟨⟨_ | _,blocks⟩,u,run,last⟩ := Exec.bindDone.mp made
  · refine Or.inr ⟨?_,statusCarries wire (by decide) last⟩
    by_contra fine
    rw [not_or] at fine
    obtain ⟨clean,bounded⟩ := fine
    have size := header.index.toNat_lt
    have kept : u.failed = false := by
      by_contra failed
      exact clean (((serializeTame _ _).quiet.apply last).failed (by simpa using failed))
    obtain ⟨all,length,consecutive⟩ := Chain.consecutiveOf covers
    cases Chain.getBlocksClean found free supported (by omega) length consecutive run kept
  · obtain ⟨_,_,l,again,supported',_,length,consecutive,rfl⟩ := Chain.getBlocksDone run
    cases found.symm.trans again
    cases supported.unique supported'
    exact Or.inl ⟨blocks,length,consecutive,getBlocksCarries wire last⟩

theorem headerServed (stored : Chain.storedHeader sys db = some header)
    (made : handleGetChainHeaderRequest sys handler ⟨chainId⟩ (start dir draws) = (.done reply,t)) :
    carried 8 reply = [Blockchain.Header.schema.encode header.message] ∨
      t.failed = true ∧ carried 8 reply = [] := by
  have found : (start dir draws).directory (handler.manager.chain chainId).path = some db := here
  have free : (handler.manager.chain chainId).path ∉ (start dir draws).opened := by simp [start]
  rcases Exec.attemptBindDone.mp made with ⟨other,u,run,last⟩ | ⟨u,run,last⟩
  · obtain ⟨_,again,read⟩ := Chain.getHeaderDone run
    cases found.symm.trans again
    cases stored.symm.trans read
    exact Or.inl (headerCarries wire last)
  · refine Or.inr (failureCarries wire (by decide) ?_ last)
    by_contra clean
    cases Chain.getHeaderClean found free stored run (by simpa using clean)

end Handlers

/-! The replies that carry a block: to the two kinds of reading, and to the request that added it. -/

structure BlockServed (sys : Platform) (handler : Handler) (dir : Directory) (chainId i last : UInt64)
    (raw : Bytes) : Prop where
  getBlock : ∀ draws reply t,
    handleGetBlockRequest sys handler ⟨chainId,i⟩ (start dir draws) = (.done reply,t) →
      carried 5 reply = [raw] ∨ t.failed = true ∧ carried 5 reply = []
  getBlocks : ∀ draws reply t,
    handleGetBlocksRequest sys handler ⟨chainId⟩ (start dir draws) = (.done reply,t) →
      (carried 6 reply).length = last.toNat ∧ (carried 6 reply)[i.toNat - 1]? = some raw ∨
        (t.failed = true ∨ last.toNat + 1 = 2^64) ∧ carried 6 reply = []

def BlockReturned (sys : Platform) (handler : Handler) (calls : List Manager.Call)
    (chainId i : UInt64) (raw : Bytes) : Prop :=
  ∃ earlier call later data, calls = earlier ++ call :: later ∧
    Manager.Creates sys handler.manager chainId i earlier call later ∧
    call.operation = .addBlock data ∧ ∀ reply t,
      handleAddBlockRequest sys handler ⟨chainId,data⟩ (start
        (Manager.run sys handler.manager Manager.emptyDirectory earlier).2 call.draws) =
          (.done reply,t) →
        carried 4 reply = [raw] ∨ MAX_DATA_LENGTH < data.length ∧ carried 4 reply = []

theorem storedReturned {sys : Platform} (proto3 : sys.Proto3)
    (wire : sys.response = wireCodec IPC.Response.schema) {handler : Handler}
    {calls : List Manager.Call} {chainId i : UInt64} {raw : Bytes}
    (found : Manager.record handler.manager chainId i
      (Manager.run sys handler.manager Manager.emptyDirectory calls).2 = some raw) :
    BlockReturned sys handler calls chainId i raw := by
  obtain ⟨earlier,call,later,rfl,creates⟩ := Manager.creatorExists proto3.headerLawful found
  obtain ⟨data,block,u,_,operation,added,written⟩ := Manager.wrote proto3.headerLawful creates.writes
  have kept := Manager.recordKept proto3.headerLawful creates
  cases (kept.trans written).symm.trans found
  refine ⟨earlier,call,later,data,rfl,creates,operation,fun reply t made => ?_⟩
  rw [proto3.block]
  exact addBlockServed wire added made

theorem storedServed {sys : Platform} (proto3 : sys.Proto3)
    (wire : sys.response = wireCodec IPC.Response.schema) {handler : Handler} {chainId i : UInt64}
    {dir : Directory} {db : Database} {header : Header}
    (here : dir (handler.manager.makeStoragePath chainId) = some db) (packed : Chain.Packed sys db)
    (supported : Chain.Supported sys db header) (low : 1 ≤ i) (inside : i ≤ header.index) :
    ∃ raw, db.lookup (Chain.makeBlockName i) = some raw ∧
      BlockServed sys handler dir chainId i header.index raw := by
  have covers : ∀ j, 1 ≤ j → j ≤ header.index →
      ∃ block : Block, db.lookup (Chain.makeBlockName j) = some (sys.block.encode block.message) ∧
        Chain.storedBlock sys db j = some block := by
    intro j positive within
    obtain ⟨raw,found⟩ := packed.filled header supported.stored j positive within
    obtain ⟨block,rfl,stored⟩ := packed.blockRecord proto3.blockLawful found
    exact ⟨block,found,stored⟩
  obtain ⟨block,found,stored⟩ := covers i low inside
  have written : sys.block.encode block.message = Blockchain.Block.schema.encode block.message := by
    rw [proto3.block]
    rfl
  refine ⟨_,found,fun draws reply t made => ?_,fun draws reply t made => ?_⟩
  · rw [written]
    exact getBlockServed wire here supported low inside stored made
  · refine (getBlocksServed wire here supported (fun j positive within => ?_) made).imp_left ?_
    · obtain ⟨other,_,read⟩ := covers j positive within
      exact ⟨other,read⟩
    · rintro ⟨blocks,length,consecutive,served⟩
      obtain ⟨other,listed,read⟩ := Chain.consecutiveAt consecutive length low inside
      cases read.symm.trans stored
      rw [served,List.length_map,List.getElem?_map,listed,written]
      exact ⟨length,rfl⟩

theorem servedIsStored {sys : Platform} (proto3 : sys.Proto3)
    (wire : sys.response = wireCodec IPC.Response.schema) (handler : Handler)
    (calls : List Manager.Call) (chainId : UInt64) {db : Database} {header : Header}
    (here : (Manager.run sys handler.manager Manager.emptyDirectory calls).2
      (handler.manager.makeStoragePath chainId) = some db)
    (stored : Chain.storedHeader sys db = some header) :
    (∀ i, 1 ≤ i → i ≤ header.index → ∃ raw, db.lookup (Chain.makeBlockName i) = some raw ∧
      BlockServed sys handler (Manager.run sys handler.manager Manager.emptyDirectory calls).2
        chainId i header.index raw ∧
      BlockReturned sys handler calls chainId i raw) ∧
    ∃ raw, db.lookup DB_HEADER_KEY = some raw ∧ ∀ draws reply t,
      handleGetChainHeaderRequest sys handler ⟨chainId⟩
        (start (Manager.run sys handler.manager Manager.emptyDirectory calls).2 draws) =
          (.done reply,t) →
        carried 8 reply = [raw] ∨ t.failed = true ∧ carried 8 reply = [] := by
  have packed := Manager.runPacked proto3.headerLawful handler.manager calls chainId here
  obtain ⟨found,supported⟩ := packed.headerRecord proto3.headerLawful stored
  constructor
  · intro i low inside
    obtain ⟨raw,written,served⟩ := storedServed proto3 wire here packed supported low inside
    refine ⟨raw,written,served,storedReturned proto3 wire ?_⟩
    rw [Manager.record,here]
    exact written
  · refine ⟨_,found,fun draws reply t made => ?_⟩
    rw [proto3.header]
    exact headerServed wire here stored made

def pairCalls : List Manager.Call := [
  ⟨1,.createChain (ascii "\x7b\x7d"),Sample.steady 1⟩,⟨1,.addBlock (ascii "a"),Sample.steady 1⟩,
  ⟨1,.addBlock (ascii "b"),Sample.steady 2⟩]

def servedDirectory : Directory :=
  (Manager.run Sample.platform ⟨[]⟩ Manager.emptyDirectory pairCalls).2

def servedDatabase : Database :=
  (servedDirectory (Manager.makeStoragePath ⟨[]⟩ 1)).get (by decide +kernel)

theorem sampleServedIsStored :
    (∀ i, 1 ≤ i → i ≤ Manager.pairHeader.index → ∃ raw,
      servedDatabase.lookup (Chain.makeBlockName i) = some raw ∧
      BlockServed Sample.platform ⟨⟨[]⟩,[]⟩ servedDirectory 1 i 2 raw ∧
      BlockReturned Sample.platform ⟨⟨[]⟩,[]⟩ pairCalls 1 i raw) ∧
    ∃ raw, servedDatabase.lookup DB_HEADER_KEY = some raw ∧ ∀ draws reply t,
      handleGetChainHeaderRequest Sample.platform ⟨⟨[]⟩,[]⟩ ⟨1⟩ (start servedDirectory draws) =
        (.done reply,t) → carried 8 reply = [raw] ∨ t.failed = true ∧ carried 8 reply = [] :=
  servedIsStored Sample.proto3 rfl ⟨⟨[]⟩,[]⟩ pairCalls 1 (Option.some_get _).symm
    (by decide +kernel : Chain.storedHeader Sample.platform servedDatabase = some Manager.pairHeader)

end Handler
end ChainDB
