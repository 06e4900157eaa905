import ChainDB.Replies
import ChainDB.Limits
import ChainDB.Undisturbed

/-! Which requests get a reply, whatever the storage, the random generator and the signer do. -/
namespace ChainDB
open Effects

namespace Chain

structure Listed (sys : Platform) (db : Database) (header : Header) (blocks : List Block) : Prop where
  supported : Supported sys db header
  bounded : header.index.toNat + 1 < 2^64
  length : blocks.length = header.index.toNat
  stored : Consecutive sys db 1 blocks

structure Endless (sys : Platform) (db : Database) (header : Header) : Prop where
  supported : Supported sys db header
  full : header.index.toNat + 1 = 2^64
  readable : ∀ index, storedBlock sys db index ≠ none

end Chain

namespace Handler

structure PassesBy (req : IPC.Request) : Prop where
  ping : req.pingRequest = none
  createChain : req.createChainRequest = none
  removeChain : req.removeChainRequest = none
  addBlock : req.addBlockRequest = none
  getBlock : req.getBlockRequest = none

structure AsksBlocks (req : IPC.Request) (chainId : UInt64) : Prop extends PassesBy req where
  getBlocks : req.getBlocksRequest = some ⟨chainId⟩

structure AsksVerification (req : IPC.Request) (chainId : UInt64) : Prop extends PassesBy req where
  getBlocks : req.getBlocksRequest = none
  verifyChain : req.verifyChainRequest = some ⟨chainId⟩

theorem dispatchBlocks {sys handler req chainId} (asks : AsksBlocks req chainId) :
    dispatch sys handler req = handleGetBlocksRequest sys handler ⟨chainId⟩ := by
  simp only [dispatch,asks.ping,asks.createChain,asks.removeChain,asks.addBlock,asks.getBlock,
    asks.getBlocks]

theorem dispatchVerification {sys handler req chainId} (asks : AsksVerification req chainId) :
    dispatch sys handler req = handleVerifyChainRequest sys handler ⟨chainId⟩ := by
  simp only [dispatch,asks.ping,asks.createChain,asks.removeChain,asks.addBlock,asks.getBlock,
    asks.getBlocks,asks.verifyChain]

inductive Unanswerable (sys : Platform) (handler : Handler) (dir : Directory) (req : IPC.Request) :
    Prop where
  | long (chainId : UInt64) (db : Database) (header : Header) (blocks : List Block)
      (asks : AsksBlocks req chainId) (here : dir (handler.manager.makeStoragePath chainId) = some db)
      (listed : Chain.Listed sys db header blocks)
      (long : maxMessageLength < getBlocksSize (blocks.map fun block => block.data.length))
  | endless (chainId : UInt64) (db : Database) (header : Header)
      (asks : AsksBlocks req chainId ∨ AsksVerification req chainId)
      (here : dir (handler.manager.makeStoragePath chainId) = some db)
      (endless : Chain.Endless sys db header)

def Admitted (sys : Platform) (handler : Handler) (req : IPC.Request) : Prop :=
  handler.password = [] ∨ Authorized sys handler req

def Reliable (kind : Primitive) : Prop := kind = .hash ∨ kind = .serialise

section Answers
variable {sys : Platform} {handler : Handler}

abbrev Answered (m : Action Bytes) (w : World) : Prop := ∃ reply t, m w = (.done reply,t)

theorem statusAnswered (wire : sys.response = wireCodec IPC.Response.schema) (status : Status)
    {text : Bytes} (short : text.length ≤ 100) : Sure Reliable (makeStatus sys status text) := by
  refine sureSerialize (Or.inr rfl) ?_
  have size := statusLength status text
  rw [wire]
  change (IPC.Response.schema.encode _).length ≤ 2^31 - 1
  omega

theorem responseAnswered (wire : sys.response = wireCodec IPC.Response.schema) {resp : IPC.Response}
    (short : (IPC.Response.schema.encode resp).length ≤ maxMessageLength) :
    Sure Reliable (makeResponse sys resp) := by
  refine sureSerialize (Or.inr rfl) ?_
  rw [wire]
  exact short

theorem answered {α : Type} {m : Action α} {f : Option α → Action Bytes} {w : World}
    (reliable : Sparing Reliable w.draws) (forward : Forward w (m w).2)
    (returns : ∀ e, (m w).1 ≠ .halt e) (absent : Sure Reliable (f none))
    (present : ∀ a t, m w = (.done a,t) → Sure Reliable (f (some a))) :
    Answered (Exec.attempt m >>= f) w := by
  have left := forward.sparing reliable
  rcases run : m w with ⟨a | _ | e,t⟩
  · rw [run] at left
    rw [Answered,Exec.bindOfDone (Exec.attemptSome.mpr run)]
    obtain ⟨reply,u,made,_⟩ := present a t run t left
    exact ⟨reply,u,made⟩
  · rw [run] at left
    rw [Answered,Exec.bindOfDone (Exec.attemptNone.mpr run)]
    obtain ⟨reply,u,made,_⟩ := absent t left
    exact ⟨reply,u,made⟩
  · exact absurd (congrArg Prod.fst run) (returns e)

section Handlers
variable (wire : sys.response = wireCodec IPC.Response.schema) {w : World}
  (reliable : Sparing Reliable w.draws)
include wire reliable

theorem statusGiven (status : Status) {text : Bytes} (short : text.length ≤ 100) :
    Answered (makeStatus sys status text) w := by
  obtain ⟨reply,t,made,_⟩ := statusAnswered wire status short w reliable
  exact ⟨reply,t,made⟩

theorem createChainAnswered (req : IPC.DataRequest) :
    Answered (handleCreateChainRequest sys handler req) w := by
  have confined := Manager.createChainConfined sys handler.manager req.chainId req.data w
  have total := Manager.createChainTotal sys handler.manager req.chainId req.data w
  unfold handleCreateChainRequest
  split
  · exact statusGiven wire reliable _ (by decide)
  · exact answered reliable confined.toForward (fun e same => total e _ (Prod.ext same rfl))
      (statusAnswered wire _ (by decide)) fun _ _ _ => statusAnswered wire _ (by decide)

theorem removeChainAnswered (req : IPC.ChainRequest) :
    Answered (handleRemoveChainRequest sys handler req) w := by
  have confined := Manager.removeChainConfined handler.manager req.chainId w
  have total := Chain.removeTotal (handler.manager.chain req.chainId) w
  exact answered reliable confined.toForward (fun e same => total e _ (Prod.ext same rfl))
    (statusAnswered wire _ (by decide)) fun _ _ _ => statusAnswered wire _ (by decide)

theorem addBlockAnswered (req : IPC.DataRequest) :
    Answered (handleAddBlockRequest sys handler req) w := by
  have confined := Manager.addBlockConfined sys handler.manager req.chainId req.data w
  have total := Manager.addBlockTotal sys handler.manager req.chainId req.data w
  unfold handleAddBlockRequest
  split
  · exact statusGiven wire reliable _ (by decide)
  · rename_i small
    refine answered reliable confined.toForward (fun e same => total e _ (Prod.ext same rfl))
      (statusAnswered wire _ (by decide)) fun block t run => responseAnswered wire ?_
    obtain ⟨_,_,_,_,composed⟩ := Manager.addBlockDone run
    have size := addBlockLength block
    rw [composed.data] at size
    unfold MAX_DATA_LENGTH at small
    unfold maxMessageLength
    omega

theorem getBlockAnswered (modest : Modest sys w.directory) (req : IPC.GetBlockRequest) :
    Answered (handleGetBlockRequest sys handler req) w := by
  have steady := Chain.getBlockSteady sys (handler.manager.chain req.chainId) req.blockId
  refine answered reliable (steady.quiet w).toForward
    (fun e same => steady.total w e _ (Prod.ext same rfl)) (statusAnswered wire _ (by decide))
    fun block t run => responseAnswered wire ?_
  obtain ⟨db,_,here,_,_,_,stored⟩ := Chain.getBlockDone run
  have small := (modest _ db here).block _ block stored
  have size := getBlockLength block
  unfold MAX_DATA_LENGTH at small
  unfold maxMessageLength
  omega

theorem getBlocksAnswered (chainId : UInt64)
    (short : ∀ db header blocks, w.directory (handler.manager.makeStoragePath chainId) = some db →
      Chain.Listed sys db header blocks →
        getBlocksSize (blocks.map fun block => block.data.length) ≤ maxMessageLength)
    (ends : ∀ db header, w.directory (handler.manager.makeStoragePath chainId) = some db →
      ¬ Chain.Endless sys db header) :
    Answered (handleGetBlocksRequest sys handler ⟨chainId⟩) w := by
  have quiet := Chain.getBlocksQuiet sys (handler.manager.chain chainId) [] w
  have left := quiet.sparing reliable
  unfold handleGetBlocksRequest Manager.getBlocks
  rcases run : (handler.manager.chain chainId).getBlocks sys [] w with ⟨o,t⟩
  rw [run] at left
  cases Chain.getBlocksEnds run with
  | all db header l here supported bounded length stored =>
    have size := short db header l here ⟨supported,bounded,length,stored⟩
    rw [← getBlocksLength] at size
    rw [Answered,Exec.bindOfDone run]
    obtain ⟨reply,u,made,_⟩ := responseAnswered wire size t left
    exact ⟨reply,u,made⟩
  | shut why =>
    rw [Answered,Exec.bindOfDone run]
    exact statusGiven wire left _ (by decide)
  | stuck =>
    rw [Answered,Exec.bindOfDone run]
    exact statusGiven wire left _ (by decide)
  | endless db header here supported full readable =>
    exact absurd ⟨supported,full,readable⟩ (ends db header here)

theorem verifyChainAnswered (chainId : UInt64)
    (ends : ∀ db header, w.directory (handler.manager.makeStoragePath chainId) = some db →
      ¬ Chain.Endless sys db header) :
    Answered (handleVerifyChainRequest sys handler ⟨chainId⟩) w := by
  have quiet := Manager.verifyChainQuiet sys handler.manager chainId w
  refine answered reliable quiet.toForward (fun e same => ?_) (statusAnswered wire _ (by decide))
    fun _ _ _ => statusAnswered wire _ (by decide)
  rcases Manager.verifyChainHalt (Prod.ext same rfl) with
    ⟨_,n,broken⟩ | ⟨db,header,here,supported,full,readable⟩
  · rw [reliable n .hash (Or.inl rfl)] at broken
    cases broken
  · exact ends db header here ⟨supported,full,readable⟩

theorem getChainHeaderAnswered (modest : Modest sys w.directory) (req : IPC.ChainRequest) :
    Answered (handleGetChainHeaderRequest sys handler req) w := by
  have steady := Chain.getHeaderSteady sys (handler.manager.chain req.chainId)
  refine answered reliable (steady.quiet w).toForward
    (fun e same => steady.total w e _ (Prod.ext same rfl)) (statusAnswered wire _ (by decide))
    fun header t run => responseAnswered wire ?_
  obtain ⟨db,here,stored⟩ := Chain.getHeaderDone run
  have small := (modest _ db here).header header stored
  have size := getChainHeaderLength header
  unfold MAX_DATA_LENGTH at small
  refine size.trans ?_
  unfold maxMessageLength
  omega

theorem getChainKeysAnswered (req : IPC.ChainRequest) :
    Answered (handleGetChainKeysRequest sys handler req) w := by
  have steady := Chain.getHeaderSteady sys (handler.manager.chain req.chainId)
  refine answered reliable (steady.quiet w).toForward
    (fun e same => steady.total w e _ (Prod.ext same rfl)) (statusAnswered wire _ (by decide))
    fun header t run => responseAnswered wire ?_
  exact (getChainKeysLength header).trans (by decide)

theorem getChainInfoAnswered (req : IPC.ChainRequest) :
    Answered (handleGetChainInfoRequest sys handler req) w := by
  have steady : Steady (handler.manager.getChainInfo sys req.chainId) :=
    steadyBind (Chain.getHeaderSteady sys (handler.manager.chain req.chainId)) fun _ => steadyPure _
  refine answered reliable (steady.quiet w).toForward
    (fun e same => steady.total w e _ (Prod.ext same rfl)) (statusAnswered wire _ (by decide))
    fun info t run => responseAnswered wire ?_
  exact (getChainInfoLength req.chainId info.1 info.2).trans (by decide)

end Handlers

theorem dispatchAnswered (wire : sys.response = wireCodec IPC.Response.schema) {w : World}
    (reliable : Sparing Reliable w.draws) (modest : Modest sys w.directory) {req : IPC.Request}
    (answerable : ¬ Unanswerable sys handler w.directory req) :
    Answered (dispatch sys handler req) w := by
  unfold dispatch
  split
  · exact statusGiven wire reliable _ (by decide)
  rename_i ping
  split
  · exact createChainAnswered wire reliable _
  rename_i createChain
  split
  · exact removeChainAnswered wire reliable _
  rename_i removeChain
  split
  · exact addBlockAnswered wire reliable _
  rename_i addBlock
  split
  · exact getBlockAnswered wire reliable modest _
  rename_i getBlock
  have passes : PassesBy req := ⟨ping,createChain,removeChain,addBlock,getBlock⟩
  split
  · rename_i r getBlocks
    refine getBlocksAnswered wire reliable r.chainId (fun db header blocks here listed => ?_)
      fun db header here endless => answerable (.endless _ db header (Or.inl ⟨passes,getBlocks⟩) here
        endless)
    exact Nat.not_lt.mp fun long => answerable (.long _ db header blocks ⟨passes,getBlocks⟩ here listed
      long)
  rename_i getBlocks
  split
  · rename_i r verifyChain
    exact verifyChainAnswered wire reliable r.chainId fun db header here endless =>
      answerable (.endless _ db header (Or.inr ⟨passes,getBlocks,verifyChain⟩) here endless)
  split
  · exact getChainHeaderAnswered wire reliable modest _
  split
  · exact getChainKeysAnswered wire reliable _
  split
  · exact getChainInfoAnswered wire reliable _
  · exact statusGiven wire reliable _ (by decide)

section Silence
variable {w : World} (undisturbed : Undisturbed w.draws) (clean : w.failed = false)
  (closed : w.opened = [])
include undisturbed clean closed

theorem longUnanswered (wire : sys.response = wireCodec IPC.Response.schema) {chainId : UInt64}
    {db : Database} {header : Header} {blocks : List Block}
    (here : w.directory (handler.manager.makeStoragePath chainId) = some db)
    (listed : Chain.Listed sys db header blocks)
    (long : maxMessageLength < getBlocksSize (blocks.map fun block => block.data.length)) :
    ∃ t, handleGetBlocksRequest sys handler ⟨chainId⟩ w = (.absent,t) := by
  obtain ⟨t,read⟩ := @Chain.blocksFound sys (handler.manager.chain chainId) w db header undisturbed
    clean (by simp [closed]) here listed.supported blocks listed.bounded listed.length listed.stored
  unfold handleGetBlocksRequest Manager.getBlocks
  rw [Exec.bindOfDone read]
  rcases serializeOutcome sys.response {statusResponse .success [] with
    getBlocksResponse := blocksResponse blocks} t with made | null
  · rcases run : makeResponse sys {statusResponse .success [] with
      getBlocksResponse := blocksResponse blocks} t with ⟨o,u⟩
    have fits := (congrArg Prod.fst run).symm.trans made
    subst fits
    have short := (serialized run).2
    rw [wire] at short
    change (IPC.Response.schema.encode _).length ≤ _ at short
    rw [getBlocksLength] at short
    omega
  · exact ⟨_,Prod.ext null.1 rfl⟩

theorem endlessBlocks {chainId : UInt64} {db : Database} {header : Header}
    (here : w.directory (handler.manager.makeStoragePath chainId) = some db)
    (endless : Chain.Endless sys db header) :
    ∃ t, handleGetBlocksRequest sys handler ⟨chainId⟩ w = (.halt .endlessLoop,t) := by
  obtain ⟨t,read⟩ := @Chain.blocksEndless sys (handler.manager.chain chainId) w db header undisturbed
    clean (by simp [closed]) here endless.supported endless.full endless.readable
  exact ⟨t,Exec.bindOfHalt read⟩

theorem endlessVerification {chainId : UInt64} {db : Database} {header : Header}
    (here : w.directory (handler.manager.makeStoragePath chainId) = some db)
    (endless : Chain.Endless sys db header) :
    ∃ t, handleVerifyChainRequest sys handler ⟨chainId⟩ w = (.halt .endlessLoop,t) := by
  have free : (handler.manager.chain chainId).path ∉ w.opened := by simp [closed]
  obtain ⟨u,got⟩ := Chain.headerFound undisturbed clean free here endless.supported
  obtain ⟨left,kept⟩ := (Chain.smoothHeader sys (handler.manager.chain chainId)).after got undisturbed
    clean
  have quiet := (Chain.getHeaderSteady sys (handler.manager.chain chainId)).quiet.apply got
  obtain ⟨t,read⟩ := @Chain.blocksEndless sys (handler.manager.chain chainId) u db header left kept
    (by rw [quiet.opened]; exact free) (by rw [quiet.directory]; exact here) endless.supported
    endless.full endless.readable
  have verified : handler.manager.verifyChain sys chainId w = (.halt .endlessLoop,t) := by
    unfold Manager.verifyChain
    rw [Exec.bindOfDone got]
    exact Exec.bindOfHalt read
  exact ⟨t,Exec.bindOfHalt (Exec.attemptHalt.mpr verified)⟩

theorem unanswerableSilent (wire : sys.response = wireCodec IPC.Response.schema) {req : IPC.Request}
    (unanswerable : Unanswerable sys handler w.directory req) :
    ¬ Answered (dispatch sys handler req) w := by
  rintro ⟨reply,u,made⟩
  cases unanswerable with
  | long chainId db header blocks asks here listed long =>
    obtain ⟨t,silent⟩ := longUnanswered undisturbed clean closed wire here listed long
    rw [dispatchBlocks asks,silent] at made
    cases made
  | endless chainId db header asks here endless =>
    rcases asks with asks | asks
    · obtain ⟨t,silent⟩ := endlessBlocks undisturbed clean closed here endless
      rw [dispatchBlocks asks,silent] at made
      cases made
    · obtain ⟨t,silent⟩ := endlessVerification undisturbed clean closed here endless
      rw [dispatchVerification asks,silent] at made
      cases made

end Silence

theorem admittedRun {msg : Bytes} {req : IPC.Request} {w : World}
    (parsed : sys.request.parseFromString msg = some req) (admitted : Admitted sys handler req)
    (hashing : ∀ n, (w.draws n).ok .hash = true) :
    ∃ u, handleMessage sys handler msg w = dispatch sys handler req u ∧ Quiet w u ∧
      (Undisturbed w.draws → w.failed = false → Undisturbed u.draws ∧ u.failed = false) := by
  by_cases locked : handler.password = []
  · refine ⟨w,?_,Std.Refl.refl w,fun undisturbed clean => ⟨undisturbed,clean⟩⟩
    simp only [handleMessage,parsed,locked,ne_eq,not_true_eq_false,if_false]
  · obtain ⟨hash,u,hashed⟩ := SHA256.hashSucceeds sys [PASSWORD_SALT,handler.password] hashing
    have allowed := admitted.resolve_left locked
    refine ⟨u,authorizedRun parsed allowed locked hashed,
      (SHA256.hashTame sys _).quiet.apply hashed,fun undisturbed clean => ?_⟩
    have smooth : Smoothly (SHA256.getHash sys [PASSWORD_SALT,handler.password]) :=
      SHA256.smoothHash trivial sys _
    exact smooth.after hashed undisturbed clean

theorem strangerAnswered (wire : sys.response = wireCodec IPC.Response.schema) {msg : Bytes} {w : World}
    (reliable : Sparing Reliable w.draws)
    (stranger : ∀ req, sys.request.parseFromString msg = some req → ¬ Admitted sys handler req) :
    Answered (handleMessage sys handler msg) w := by
  cases parsed : sys.request.parseFromString msg with
  | none =>
    simp only [handleMessage,parsed,Answered]
    exact statusGiven wire reliable _ (by decide)
  | some req =>
    have out := stranger req parsed
    have locked : handler.password ≠ [] := fun empty => out (Or.inl empty)
    simp only [handleMessage,parsed,if_pos locked]
    cases carried : req.authData with
    | none => exact statusGiven wire reliable _ (by decide)
    | some data =>
      have steady := @checkAuthSteady sys handler data
      refine answered reliable (steady.quiet w).toForward
        (fun e same => steady.total w e _ (Prod.ext same rfl)) (statusAnswered wire _ (by decide))
        fun _ t run => ?_
      exact absurd (Or.inr ⟨data,carried,checkAuthDone run⟩) out

end Answers

theorem answerableExactly {sys : Platform} (lawfulHeader : sys.header.Lawful)
    (lawfulBlock : sys.block.Lawful) (wire : sys.response = wireCodec IPC.Response.schema)
    (handler : Handler) (arrivals : List Arrival) (msg : Bytes) :
    (∀ draws, Sparing Reliable draws → ∃ reply t, handleMessage sys handler msg
        (start (served sys handler Manager.emptyDirectory arrivals) draws) = (.done reply,t)) ↔
      ∀ req, sys.request.parseFromString msg = some req → Admitted sys handler req →
        ¬ Unanswerable sys handler (served sys handler Manager.emptyDirectory arrivals) req := by
  have modest : Modest sys (served sys handler Manager.emptyDirectory arrivals) :=
    servedModest lawfulHeader lawfulBlock (fun _ _ here => by cases here) arrivals
  generalize served sys handler Manager.emptyDirectory arrivals = dir at modest ⊢
  constructor
  · intro always req parsed admitted unanswerable
    have undisturbed : Undisturbed (fun _ => ⟨fun _ => true,fun _ => 0⟩) := fun _ _ _ => rfl
    obtain ⟨reply,t,made⟩ := always _ fun n kind _ => undisturbed n kind trivial
    obtain ⟨u,run,quiet,kept⟩ := @admittedRun sys handler msg req
      (start dir fun _ => ⟨fun _ => true,fun _ => 0⟩) parsed admitted fun _ => rfl
    obtain ⟨left,clean⟩ := kept undisturbed rfl
    rw [run] at made
    refine unanswerableSilent left clean quiet.opened wire ?_ ⟨reply,t,made⟩
    rw [quiet.directory]
    exact unanswerable
  · intro answerable draws reliable
    by_cases open_ : ∃ req, sys.request.parseFromString msg = some req ∧ Admitted sys handler req
    · obtain ⟨req,parsed,admitted⟩ := open_
      obtain ⟨u,run,quiet,_⟩ := @admittedRun sys handler msg req (start dir draws) parsed admitted
        fun n => reliable n .hash (Or.inl rfl)
      rw [run]
      refine dispatchAnswered wire (quiet.sparing reliable) ?_ ?_
      · rw [quiet.directory]
        exact modest
      · rw [quiet.directory]
        exact answerable req parsed admitted
    · refine strangerAnswered wire reliable fun req parsed admitted => ?_
      exact open_ ⟨req,parsed,admitted⟩

section Growth
variable {sys : Platform} {handler : Handler} {chainId : UInt64} {data : Bytes}

def Grown (sys : Platform) (path : Path) (data : Bytes) (n : Nat) (dir : Directory) : Prop :=
  ∃ ledger db, dir path = some db ∧ Ledger.Represents sys ledger db ∧ ledger.Sound sys ∧
    ledger.data.length ≤ MAX_DATA_LENGTH ∧ ledger.blocks.map Block.data = List.replicate n data

theorem headerFits (wire : sys.header = wireCodec Blockchain.Header.schema) {header : Header}
    (small : header.data.length ≤ MAX_DATA_LENGTH) :
    (sys.header.encode header.message).length ≤ maxMessageLength := by
  have size := headerLength header
  unfold MAX_DATA_LENGTH at small
  rw [wire]
  refine size.trans ?_
  unfold maxMessageLength
  omega

theorem blockFits (wire : sys.block = wireCodec Blockchain.Block.schema) {block : Block}
    (small : block.data.length ≤ MAX_DATA_LENGTH) :
    (sys.block.encode block.message).length ≤ maxMessageLength := by
  have size := recordSizeLe block.data.length
  rw [← blockLength] at size
  unfold MAX_DATA_LENGTH at small
  rw [wire]
  refine size.trans ?_
  unfold maxMessageLength
  omega

theorem grownAfter (wireHeader : sys.header = wireCodec Blockchain.Header.schema)
    (wireBlock : sys.block = wireCodec Blockchain.Block.schema)
    (signs : ∀ hash key, sys.secp.ecdsaSign hash key ≠ none) (small : data.length ≤ MAX_DATA_LENGTH)
    {arrival : Arrival} (undisturbed : Undisturbed arrival.draws) {req : IPC.Request}
    (parsed : sys.request.parseFromString arrival.msg = some req)
    (asks : req = {addBlockRequest := some ⟨chainId,data⟩}) (open_ : handler.password = [])
    {n : Nat} {dir : Directory} (room : n + 2 < 2^64)
    (grown : Grown sys (handler.manager.makeStoragePath chainId) data n dir) :
    Grown sys (handler.manager.makeStoragePath chainId) data (n + 1)
      (after sys handler arrival dir) := by
  obtain ⟨ledger,db,here,represents,sound,modest,listed⟩ := grown
  have size : ledger.blocks.length = n := by
    have lengths := congrArg List.length listed
    simpa using lengths
  obtain ⟨block,t,added⟩ := @Manager.addBlockSucceeds sys signs handler.manager chainId data
    (start dir arrival.draws) ledger db undisturbed rfl (by simp [start]) here represents
    (headerFits wireHeader modest) fun block own => blockFits wireBlock (own ▸ small)
  obtain ⟨found,header,prevHash,appended,composed⟩ := Manager.addBlockDone added
  cases here.symm.trans appended.here
  have lawfulHeader : sys.header.Lawful := wireHeader ▸ wireLawful Blockchain.Header.schemaSound
  have lawfulBlock : sys.block.Lawful := wireBlock ▸ wireLawful Blockchain.Block.schemaSound
  obtain ⟨db',here',represents',sound'⟩ := Manager.appendedLedger lawfulHeader lawfulBlock represents
    sound appended composed (by omega)
  refine ⟨ledger.append block,db',?_,represents',sound',modest,?_⟩
  · have run : handleMessage sys handler arrival.msg (start dir arrival.draws) =
        makeResponse sys {statusResponse .success [] with
          addBlockResponse := some ⟨some (setBlockData block)⟩} t := by
      subst asks
      simp only [handleMessage,parsed,open_,ne_eq,not_true_eq_false,if_false,dispatch,
        handleAddBlockRequest,if_neg (Nat.not_lt.mpr small)]
      rw [Exec.bindOfDone (Exec.attemptSome.mpr added)]
    unfold after
    rw [run]
    exact (congrFun ((serializeTame _ _).quiet t).directory _).trans here'
  · simp only [Ledger.append,List.map_append,listed,List.map_cons,List.map_nil,composed.data]
    exact List.replicate_succ'.symm

theorem grownServed (wireHeader : sys.header = wireCodec Blockchain.Header.schema)
    (wireBlock : sys.block = wireCodec Blockchain.Block.schema)
    (signs : ∀ hash key, sys.secp.ecdsaSign hash key ≠ none) (small : data.length ≤ MAX_DATA_LENGTH)
    {arrival : Arrival} (undisturbed : Undisturbed arrival.draws) {req : IPC.Request}
    (parsed : sys.request.parseFromString arrival.msg = some req)
    (asks : req = {addBlockRequest := some ⟨chainId,data⟩}) (open_ : handler.password = [])
    {n : Nat} {dir : Directory}
    (grown : Grown sys (handler.manager.makeStoragePath chainId) data n dir) (more : Nat)
    (room : n + more + 1 < 2^64) :
    Grown sys (handler.manager.makeStoragePath chainId) data (n + more)
      (served sys handler dir (List.replicate more arrival)) := by
  induction more generalizing n dir with
  | zero => exact grown
  | succ more ih =>
    have next := grownAfter wireHeader wireBlock signs small undisturbed parsed asks open_ (by omega)
      grown
    have rest := ih next (by omega)
    rw [show n + (more + 1) = n + 1 + more by omega]
    exact rest

theorem grownListed {path : Path} {n : Nat} {dir : Directory} (grown : Grown sys path data n dir) :
    ∃ db header blocks, dir path = some db ∧ Chain.Listed sys db header blocks ∧
      blocks.map (fun block => block.data.length) = List.replicate n data.length := by
  obtain ⟨ledger,db,here,represents,_,_,listed⟩ := grown
  have bounded : ledger.header.index.toNat + 1 < 2^64 := by
    rw [represents.size]
    exact represents.short
  refine ⟨db,ledger.header,ledger.blocks,here,⟨represents.supported,bounded,represents.size.symm,
    represents.blocks⟩,?_⟩
  have lengths := congrArg (List.map List.length) listed
  rwa [List.map_map,List.map_replicate] at lengths

theorem grownUnanswered {n : Nat} {w : World} (wire : sys.response = wireCodec IPC.Response.schema)
    (undisturbed : Undisturbed w.draws) (clean : w.failed = false) (closed : w.opened = [])
    (grown : Grown sys (handler.manager.makeStoragePath chainId) data n w.directory)
    (long : maxMessageLength < n * ProtoWire.framed (recordSize data.length)) :
    ∃ t, handleGetBlocksRequest sys handler ⟨chainId⟩ w = (.absent,t) := by
  obtain ⟨db,header,blocks,here,listed,lengths⟩ := grownListed grown
  refine longUnanswered undisturbed clean closed wire here listed ?_
  have filled : n ≠ 0 := fun none => by simp [none] at long
  have outer : n * ProtoWire.framed (recordSize data.length) ≤
      ProtoWire.framed (n * ProtoWire.framed (recordSize data.length)) := Nat.le_add_left _ _
  rw [lengths,getBlocksSize,if_neg (by simpa using filled),List.map_replicate,List.sum_replicate_nat]
  omega

end Growth

def openHandler : Handler := ⟨⟨[]⟩,[]⟩

def createRequest : IPC.Request := {createChainRequest := some ⟨1,ascii "\x7b\x7d"⟩}

def largeRequest : IPC.Request := {addBlockRequest := some ⟨1,List.replicate MAX_DATA_LENGTH 0⟩}

def listRequest : IPC.Request := {getBlocksRequest := some ⟨1⟩}

def arrivalOf (req : IPC.Request) : Arrival := ⟨Sample.platform.request.encode req,Sample.steady 1⟩

def longHistory : List Arrival :=
  arrivalOf createRequest :: List.replicate (2^18) (arrivalOf largeRequest)

theorem createdGrown (data : Bytes) : Grown Sample.platform (Manager.makeStoragePath ⟨[]⟩ 1) data 0
    (after Sample.platform openHandler (arrivalOf createRequest) Manager.emptyDirectory) := by
  have parsed : Sample.platform.request.parseFromString
      (Sample.platform.request.encode createRequest) = some createRequest := by decide +kernel
  have success : (Manager.createChain Sample.platform ⟨[]⟩ 1 (ascii "\x7b\x7d")
      (start Manager.emptyDirectory (Sample.steady 1))).1 = .done (Manager.chain ⟨[]⟩ 1) := by
    decide +kernel
  rcases run : Manager.createChain Sample.platform ⟨[]⟩ 1 (ascii "\x7b\x7d")
    (start Manager.emptyDirectory (Sample.steady 1)) with ⟨o,t⟩
  rw [run] at success
  cases success
  obtain ⟨_,privateKey,publicKey,created⟩ := Manager.createChainDone run
  refine ⟨Ledger.create (ascii "\x7b\x7d") privateKey publicKey,_,?_,
    Ledger.representsCreate Sample.headerLawful created.fits,
    Ledger.soundCreate created.valid created.paired,?_,rfl⟩
  · have whole : handleMessage Sample.platform openHandler (arrivalOf createRequest).msg
        (start Manager.emptyDirectory (arrivalOf createRequest).draws) =
          makeStatus Sample.platform .success [] t := by
      simp only [handleMessage,arrivalOf,parsed]
      exact Exec.bindOfDone (Exec.attemptSome.mpr run)
    unfold after
    rw [whole]
    refine (congrFun ((serializeTame _ _).quiet t).directory _).trans ?_
    rw [created.directory,Function.update_self]
  · exact show (ascii "\x7b\x7d").length ≤ MAX_DATA_LENGTH by decide

theorem largeTotal : maxMessageLength < (0 + 2^18) *
    ProtoWire.framed (recordSize (List.replicate MAX_DATA_LENGTH (0 : UInt8)).length) := by
  rw [List.length_replicate]
  decide

theorem largeParsed : Sample.platform.request.parseFromString (arrivalOf largeRequest).msg =
    some largeRequest := Sample.requestLawful _ (by decide +kernel)

theorem longChainUnanswered :
    (handleMessage Sample.platform openHandler (Sample.platform.request.encode listRequest)
      (start (served Sample.platform openHandler Manager.emptyDirectory longHistory)
        (Sample.steady 1))).1 = .absent := by
  have undisturbed : Undisturbed (Sample.steady 1) := fun _ _ _ => rfl
  have parsed : Sample.platform.request.parseFromString
      (Sample.platform.request.encode listRequest) = some listRequest := by decide +kernel
  have run : handleMessage Sample.platform openHandler (Sample.platform.request.encode listRequest) =
      handleGetBlocksRequest Sample.platform openHandler ⟨1⟩ := by
    simp only [handleMessage,parsed]
    rfl
  have grown := @grownServed Sample.platform openHandler 1 _ rfl rfl (fun _ _ => Option.some_ne_none _)
    (by simp) (arrivalOf largeRequest) undisturbed largeRequest largeParsed rfl rfl 0 _
    (createdGrown _) (2^18) (by decide)
  rw [run,longHistory,servedCons]
  generalize served Sample.platform openHandler (after Sample.platform openHandler
    (arrivalOf createRequest) Manager.emptyDirectory) (List.replicate (2^18) (arrivalOf largeRequest)) =
      dir at grown ⊢
  obtain ⟨t,silent⟩ := @grownUnanswered Sample.platform openHandler 1 _ _ (start dir (Sample.steady 1))
    rfl undisturbed rfl rfl grown largeTotal
  rw [silent]

def shortHistory : List Arrival := [arrivalOf createRequest,arrivalOf largeRequest]

theorem shortChainAnswered :
    (∀ draws, Sparing Reliable draws → ∃ reply t, handleMessage Sample.platform openHandler
        (Sample.platform.request.encode listRequest)
        (start (served Sample.platform openHandler Manager.emptyDirectory shortHistory) draws) =
          (.done reply,t)) ↔
      ∀ req, Sample.platform.request.parseFromString (Sample.platform.request.encode listRequest) =
          some req → Admitted Sample.platform openHandler req →
        ¬ Unanswerable Sample.platform openHandler
          (served Sample.platform openHandler Manager.emptyDirectory shortHistory) req :=
  answerableExactly Sample.headerLawful Sample.blockLawful rfl openHandler shortHistory
    (Sample.platform.request.encode listRequest)

end Handler
end ChainDB
