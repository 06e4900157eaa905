import ChainDB.Startup
import ChainDB.Statuses

/-! Lives of the service on one storage directory, one after the other, each from its own command line to
whatever end it met. A process that is killed within a call is one whose primitives fail from there on,
and whose reply is not sent. -/
namespace ChainDB
open Effects Transition

namespace Durability
open Handler Startup Zmq

/-- A message that a process received, with the outcomes of the primitives and the replies that went out. -/
structure Receipt where
  handler : Handler
  arrival : Arrival
  replies : List Bytes

structure Life where
  environment : Environment
  argv : List Bytes
  future : Nat → Draws
  labels : List Lifecycle.Label

def receiptsOf (handler : Handler) : (Nat → Draws) → List Exchange → List Receipt
  | _,[] => []
  | future,exchange :: rest =>
    ⟨handler,⟨exchange.request,future 0⟩,exchange.replies⟩ ::
      receiptsOf handler (fun n => future (n + 1)) rest

def Life.run (sys : Platform) (life : Life) (dir : Directory) : Option (List Receipt × Directory) :=
  match launch life.environment life.argv with
  | .ended _ => some ([],dir)
  | .running options =>
    (Transition.run (Lifecycle.step (service sys (handlerOf options)))
      (Lifecycle.begun ⟨dir,life.future⟩) life.labels).map fun p =>
        (receiptsOf (handlerOf options) life.future p.state.socket.exchanges.reverse,
          p.state.handler.directory)

def liveOn (sys : Platform) : Directory → List Life → Option (List Receipt × Directory)
  | dir,[] => some ([],dir)
  | dir,life :: rest =>
    (life.run sys dir).bind fun first =>
      (liveOn sys first.2 rest).map fun later => (first.1 ++ later.1,later.2)

def left (sys : Platform) (dir : Directory) (receipts : List Receipt) : Directory :=
  receipts.foldl (fun dir receipt => after sys receipt.handler receipt.arrival dir) dir

def Receipt.call (sys : Platform) (receipt : Receipt) : Option Manager.Call :=
  callOf sys receipt.handler receipt.arrival

/- What goes out is what the handler makes of the directory as the earlier messages left it. -/
def Answering (sys : Platform) : Directory → List Receipt → Prop
  | _,[] => True
  | dir,receipt :: rest =>
    (∀ reply ∈ receipt.replies,
      (handleMessage sys receipt.handler receipt.arrival.msg (start dir receipt.arrival.draws)).1 =
        .done reply) ∧
    Answering sys (after sys receipt.handler receipt.arrival dir) rest

def Life.Uses (storageDir : Bytes) (life : Life) : Prop :=
  ∀ options, Accepted life.argv options → options.string .storageDir = storageDir

section Lives
variable {sys : Platform} {dir last : Directory} {receipts : List Receipt} {life : Life}

theorem receiptsSnoc (handler : Handler) (future : Nat → Draws) (log : List Exchange)
    (exchange : Exchange) : receiptsOf handler future (log ++ [exchange]) =
      receiptsOf handler future log ++
        [⟨handler,⟨exchange.request,future log.length⟩,exchange.replies⟩] := by
  induction log generalizing future with
  | nil => rfl
  | cons first rest ih =>
    rw [List.cons_append,receiptsOf,ih,receiptsOf,List.cons_append]
    rfl

theorem leftAppend (receipts more : List Receipt) :
    left sys dir (receipts ++ more) = left sys (left sys dir receipts) more := List.foldl_append

theorem answeringAppend {more : List Receipt} : Answering sys dir (receipts ++ more) ↔
    Answering sys dir receipts ∧ Answering sys (left sys dir receipts) more := by
  induction receipts generalizing dir with
  | nil => exact (iff_of_eq (true_and _)).symm
  | cons receipt rest ih =>
    rw [List.cons_append,Answering,Answering,ih,and_assoc]
    rfl

structure Lived (sys : Platform) (handler : Handler) (dir : Directory) (future : Nat → Draws)
    (log : List Exchange) (memory : Memory) : Prop where
  memory : memory = ⟨left sys dir (receiptsOf handler future log),fun n => future (n + log.length)⟩
  answering : Answering sys dir (receiptsOf handler future log)

theorem Lived.receive {handler : Handler} {future : Nat → Draws} {s t : Server.State Memory}
    {request : Bytes}
    (lived : Lived sys handler dir future s.socket.exchanges.reverse s.handler)
    (received : Network.Received (service sys handler) s request t) :
    Lived sys handler dir future t.socket.exchanges.reverse t.handler := by
  obtain ⟨replies,logged,answered⟩ := received.logged
  rw [logged,List.reverse_cons]
  refine ⟨?_,?_⟩
  · rw [received.handled,lived.memory,receiptsSnoc,leftAppend,List.length_append]
    simp only [service,Memory.next,left,List.foldl_cons,List.foldl_nil,Nat.zero_add,
      List.length_singleton,Nat.add_right_comm]
    rfl
  · rw [receiptsSnoc]
    refine answeringAppend.mpr ⟨lived.answering,fun reply member => ?_,trivial⟩
    have said := answered reply member
    rw [lived.memory] at said
    simp only [service,Nat.zero_add] at said
    dsimp only
    generalize handleMessage sys handler request _ = ran at said ⊢
    obtain ⟨reply | _ | e,u⟩ := ran
    · cases said
      rfl
    · cases said
    · cases said

theorem runLived {handler : Handler} {future : Nat → Draws} {labels : List Lifecycle.Label}
    {p : Lifecycle.Process Memory}
    (ran : Transition.run (Lifecycle.step (service sys handler)) (Lifecycle.begun ⟨dir,future⟩)
      labels = some p) :
    Lived sys handler dir future p.state.socket.exchanges.reverse p.state.handler := by
  have first : Lived sys handler dir future [] ⟨dir,future⟩ := ⟨rfl,trivial⟩
  refine @runKeeps _ _ _ (Lifecycle.begun (Memory.mk dir future)) p
    (fun _ p => Lived sys handler dir future p.state.socket.exchanges.reverse p.state.handler)
    first (fun labels label r r' lived moved => ?_) labels ran
  cases Lifecycle.stepMoves moved with
  | round round here o t served =>
    rcases Network.bodyMoves served with rfl | ⟨request,_,received⟩
    · exact lived
    · exact lived.receive received
  | signal =>
    unfold Lifecycle.stop
    split
    · exact lived
    · exact lived
  | _ => exact lived

theorem launchRuns {environment : Environment} {argv : List Bytes} {options : Options}
    (runs : launch environment argv = .running options) : Accepted argv options := by
  have seeds : ∀ found, seed environment found = .running options → found = options := by
    intro found seeded
    unfold seed at seeded
    split at seeded
    · cases seeded
      rfl
    · cases seeded
  unfold launch at runs
  rcases read : IApplication.parseArgs Startup.handlers argv Startup.defaults with ⟨⟨⟩ | _ | e,found⟩
  · rw [read] at runs
    have same : found = options := by
      dsimp only at runs
      split at runs
      · split at runs
        · cases runs
        · exact seeds found runs
      · exact seeds found runs
    exact same ▸ read
  · rw [read] at runs
    cases runs
  · rw [read] at runs
    cases runs

theorem receiptsHandler {handler : Handler} {future : Nat → Draws} {log : List Exchange}
    {receipt : Receipt} (member : receipt ∈ receiptsOf handler future log) :
    receipt.handler = handler := by
  induction log generalizing future with
  | nil => cases member
  | cons exchange rest ih =>
    rcases List.mem_cons.mp member with rfl | later
    · rfl
    · exact ih later

/-- All that the theorems below need to know of lives. -/
structure Told (sys : Platform) (manager : Manager) (dir : Directory) (receipts : List Receipt)
    (last : Directory) : Prop where
  last : last = left sys dir receipts
  managers : ∀ receipt ∈ receipts, receipt.handler.manager = manager
  answering : Answering sys dir receipts

theorem lifeTold {storageDir : Bytes} (uses : life.Uses storageDir)
    (lived : life.run sys dir = some (receipts,last)) : Told sys ⟨storageDir⟩ dir receipts last := by
  unfold Life.run at lived
  split at lived
  · cases lived
    exact ⟨rfl,fun receipt member => (List.not_mem_nil member).elim,trivial⟩
  · rename_i options runs
    obtain ⟨p,ran,same⟩ := Option.map_eq_some_iff.mp lived
    cases same
    obtain ⟨memory,answering⟩ := runLived ran
    refine ⟨by rw [memory],fun receipt member => ?_,answering⟩
    rw [receiptsHandler member]
    exact congrArg Manager.mk (uses options (launchRuns runs))

theorem Told.append {manager : Manager} {middle : Directory} {more : List Receipt}
    (first : Told sys manager dir receipts middle) (later : Told sys manager middle more last) :
    Told sys manager dir (receipts ++ more) last := by
  obtain ⟨rfl,managers,answering⟩ := first
  refine ⟨?_,fun receipt member => ?_,answeringAppend.mpr ⟨answering,later.answering⟩⟩
  · rw [leftAppend]
    exact later.last
  · exact (List.mem_append.mp member).elim (managers receipt) (later.managers receipt)

theorem livesTold {storageDir : Bytes} {lives : List Life} (uses : ∀ life ∈ lives, life.Uses storageDir)
    (lived : liveOn sys dir lives = some (receipts,last)) : Told sys ⟨storageDir⟩ dir receipts last := by
  induction lives generalizing dir receipts with
  | nil =>
    cases lived
    exact ⟨rfl,fun receipt member => (List.not_mem_nil member).elim,trivial⟩
  | cons life rest ih =>
    obtain ⟨⟨first,middle⟩,one,later⟩ := Option.bind_eq_some_iff.mp lived
    obtain ⟨⟨others,ended⟩,more,same⟩ := Option.map_eq_some_iff.mp later
    cases same
    have own := lifeTold (uses life List.mem_cons_self) one
    exact own.append (ih (fun life member => uses life (List.mem_cons_of_mem _ member)) more)

theorem leftRun {manager : Manager} (managers : ∀ receipt ∈ receipts, receipt.handler.manager = manager) :
    left sys dir receipts = (Manager.run sys manager dir (receipts.filterMap (Receipt.call sys))).2 := by
  induction receipts generalizing dir with
  | nil => rfl
  | cons receipt rest ih =>
    have own := managers receipt List.mem_cons_self
    rw [left,List.foldl_cons,← left,ih fun other member => managers other (List.mem_cons_of_mem _ member),
      afterCall,own]
    cases leads : receipt.call sys with
    | none =>
      rw [List.filterMap_cons_none leads]
      change callOf sys receipt.handler receipt.arrival = none at leads
      rw [leads]
      rfl
    | some call =>
      rw [List.filterMap_cons_some leads]
      change callOf sys receipt.handler receipt.arrival = some call at leads
      rw [leads]
      rfl

end Lives

section Blocks
variable {sys : Platform} {manager : Manager} {dir : Directory} {chainId index : UInt64} {n : Nat}
  {block : Block} {entry : Option Database}

theorem blockKept {ledger : Ledger} (more : Block) (here : ledger.block index = some block) :
    (ledger.append more).block index = some block := by
  obtain ⟨positive,listed⟩ := Option.ite_none_left_eq_some.mp here
  have inside := (List.getElem?_eq_some_iff.mp listed).1
  rw [Ledger.block,if_neg positive,Ledger.append,List.getElem?_append_left inside]
  exact listed

theorem blockLast {ledger : Ledger} (room : ledger.blocks.length + 2 < 2^64) :
    (ledger.append block).block (ledger.size + 1) = some block := by
  have place : (ledger.size + 1).toNat = ledger.blocks.length + 1 := by
    have size := Ledger.sizeToNat (Nat.lt_of_succ_lt room)
    have one : (1 : UInt64).toNat = 1 := rfl
    rw [UInt64.toNat_add,size,one]
    omega
  have positive : ledger.size + 1 ≠ 0 := fun zero => by
    rw [zero] at place
    cases place
  rw [Ledger.block,if_neg positive,place,Ledger.append]
  exact List.getElem?_concat_length

/- The database of a sound ledger of at most `n` blocks with the block at its index. -/
def Lasts (sys : Platform) (n : Nat) (index : UInt64) (block : Block) (entry : Option Database) : Prop :=
  ∃ ledger, ledger.blocks.length ≤ n ∧ ledger.block index = some block ∧
    Manager.Simulates sys ledger.blocks.length (some ledger) entry

theorem removedOperation {event : Manager.Event} (removed : event.removed = true) :
    event.call.operation = .removeChain := by
  unfold Manager.Event.removed at removed
  split at removed
  · assumption
  · cases removed

theorem lastsAfter (lawfulHeader : sys.header.Lawful) (lawfulBlock : sys.block.Lawful)
    {event : Manager.Event} (change : Manager.Change sys manager dir event entry)
    (lasts : Lasts sys n index block (dir (manager.makeStoragePath event.call.chainId)))
    (stays : event.call.operation ≠ .removeChain) (room : n + 2 < 2^64) :
    Lasts sys (n + 1) index block entry := by
  obtain ⟨ledger,few,here,sim⟩ := lasts
  cases change with
  | same kept standing => exact ⟨ledger,Nat.le_succ_of_le few,here,sim⟩
  | created data privateKey publicKey operation vacant =>
    rw [vacant] at sim
    cases sim
  | half data operation vacant =>
    rw [vacant] at sim
    cases sim
  | appended data db header prevHash added success found supported composed headerFits blockFits =>
    rw [found] at sim
    obtain ⟨represents,sound,_⟩ := sim
    cases supported.unique represents.supported
    have made := composed.made
    rw [represents.pointsBack composed.back] at made
    refine ⟨ledger.append added,?_,blockKept added here,?_,Ledger.soundAppend sound made,rfl⟩
    · simpa only [Ledger.append,List.length_append,List.length_singleton] using Nat.succ_le_succ few
    · exact Ledger.representsAppend lawfulHeader lawfulBlock represents (by omega) headerFits blockFits
  | removed success => exact absurd (removedOperation success) stays

theorem lastsRun (lawfulHeader : sys.header.Lawful) (lawfulBlock : sys.block.Lawful)
    (calls : List Manager.Call)
    (lasts : Lasts sys n index block (dir (manager.makeStoragePath chainId)))
    (stays : ∀ call ∈ calls, call.chainId = chainId → call.operation ≠ .removeChain)
    (room : n + calls.length + 1 < 2^64) : Lasts sys (n + calls.length) index block
      ((Manager.run sys manager dir calls).2 (manager.makeStoragePath chainId)) := by
  induction calls generalizing dir n with
  | nil => exact lasts
  | cons call rest ih =>
    rw [List.length_cons] at room ⊢
    have later : Lasts sys (n + 1) index block
        (Manager.after sys manager call dir (manager.makeStoragePath chainId)) := by
      by_cases own : chainId = call.chainId
      · subst own
        exact lastsAfter lawfulHeader lawfulBlock (Manager.change sys manager call dir) lasts
          (stays call List.mem_cons_self rfl) (by omega)
      · rw [Manager.afterElsewhere own]
        obtain ⟨ledger,few,here,sim⟩ := lasts
        exact ⟨ledger,Nat.le_succ_of_le few,here,sim⟩
    have ends := ih later (fun other member => stays other (List.mem_cons_of_mem _ member)) (by omega)
    rwa [Nat.add_right_comm,Nat.add_assoc] at ends

theorem storedLasts (lawfulHeader : sys.header.Lawful) (lawfulBlock : sys.block.Lawful)
    (built : Manager.Built sys n (dir (manager.makeStoragePath chainId))) (room : n + 2 < 2^64)
    {data : Bytes} {draws : Draws} {result : Manager.Result}
    (outcome : (Manager.effect sys manager ⟨chainId,.addBlock data,draws⟩ dir).1 = .done result)
    (succeeded : Succeeded (addBlockAnswer result)) :
    ∃ block index, block.data = data ∧
      (addBlockAnswer result).addBlockResponse = some ⟨some (setBlockData block)⟩ ∧
      Lasts sys (n + 1) index block (Manager.after sys manager ⟨chainId,.addBlock data,draws⟩ dir
        (manager.makeStoragePath chainId)) := by
  simp only [Manager.after,Manager.effect,Manager.perform,Exec.attemptMap] at outcome ⊢
  rcases run : manager.addBlock sys chainId data (start dir draws) with ⟨block | _ | e,t⟩
  · simp only [run] at outcome ⊢
    cases outcome
    obtain ⟨db,header,prevHash,appended,composed⟩ := Manager.addBlockDone run
    have here : dir (manager.makeStoragePath chainId) = some db := appended.here
    rw [here] at built
    rcases built with ⟨_,missing⟩ | ⟨ledger,represents,sound,rfl⟩
    · have stored := appended.supported.stored
      simp [Chain.storedHeader,missing] at stored
    · obtain ⟨next,after,grown,sealed⟩ := Manager.appendedLedger lawfulHeader lawfulBlock represents
        sound appended composed room
      refine ⟨block,ledger.size + 1,composed.data,rfl,ledger.append block,?_,blockLast room,?_⟩
      · simp only [Ledger.append,List.length_append,List.length_singleton,Nat.le_refl]
      · rw [after]
        exact ⟨grown,sealed,rfl⟩
  · simp only [run] at outcome
    cases outcome
    exact absurd succeeded (failureFails _)
  · simp only [run] at outcome
    cases outcome

theorem runCount (calls : List Manager.Call) :
    (Manager.run sys manager dir calls).1.length = calls.length := by
  induction calls generalizing dir with
  | nil => rfl
  | cons call rest ih => exact congrArg Nat.succ ih

theorem receiptsBuilt (lawfulHeader : sys.header.Lawful) (lawfulBlock : sys.block.Lawful)
    {receipts : List Receipt} (managers : ∀ receipt ∈ receipts, receipt.handler.manager = manager)
    (few : receipts.length < 2^64 - 1) (chainId : UInt64) : ∃ n ≤ receipts.length, Manager.Built sys n
      (left sys Manager.emptyDirectory receipts (manager.makeStoragePath chainId)) := by
  rw [leftRun managers]
  have added := Manager.additionsLe chainId
    (Manager.run sys manager Manager.emptyDirectory (receipts.filterMap (Receipt.call sys))).1
  rw [runCount] at added
  have bound := added.trans (List.length_filterMap_le (Receipt.call sys) receipts)
  exact ⟨_,bound,Manager.runBuilt lawfulHeader lawfulBlock manager _ chainId
    (Nat.lt_of_le_of_lt bound few)⟩

theorem receiptsLast (lawfulHeader : sys.header.Lawful) (lawfulBlock : sys.block.Lawful)
    {receipts : List Receipt} (managers : ∀ receipt ∈ receipts, receipt.handler.manager = manager)
    (lasts : Lasts sys n index block (dir (manager.makeStoragePath chainId)))
    (stays : ∀ receipt ∈ receipts, ∀ call, receipt.call sys = some call → call.chainId = chainId →
      call.operation ≠ .removeChain) (room : n + receipts.length + 1 < 2^64) :
    ∃ m, Lasts sys m index block (left sys dir receipts (manager.makeStoragePath chainId)) := by
  rw [leftRun managers]
  have fewer := List.length_filterMap_le (Receipt.call sys) receipts
  refine ⟨_,lastsRun lawfulHeader lawfulBlock _ lasts (fun call member own => ?_) (by omega)⟩
  obtain ⟨receipt,listed,leads⟩ := List.mem_filterMap.mp member
  exact stays receipt listed call leads own

structure Durable (sys : Platform) (manager : Manager) (dir : Directory) (chainId index : UInt64)
    (block : Block) : Prop where
  reads : ∀ draws, (manager.getBlock sys chainId index (start dir draws)).2.failed = false →
    (manager.getBlock sys chainId index (start dir draws)).1 = .done block
  verifies : ∀ draws, (manager.verifyChain sys chainId (start dir draws)).2.failed = false →
    (manager.verifyChain sys chainId (start dir draws)).1 = .done ()

theorem Lasts.durable (signatures : sys.SignaturesVerify)
    (lasts : Lasts sys n index block (dir (manager.makeStoragePath chainId))) :
    Durable sys manager dir chainId index block := by
  obtain ⟨ledger,_,here,sim⟩ := lasts
  refine ⟨fun draws clean => ?_,fun draws clean => ?_⟩
  · obtain ⟨_,missing⟩ | ⟨found,done,same⟩ := Manager.getBlockBehaves sim (Prod.eta _) clean
    · cases here.symm.trans missing
    · cases here.symm.trans same
      exact done
  · obtain ⟨_,none⟩ | ⟨done,_⟩ := Manager.verifyBehaves sim (Prod.eta _) clean
    · cases none signatures
    · exact done

end Blocks

theorem acknowledgedBlocksLast {sys : Platform} (lawfulHeader : sys.header.Lawful)
    (lawfulBlock : sys.block.Lawful) (lawful : sys.response.Lawful) (signatures : sys.SignaturesVerify)
    (storageDir : Bytes) (lives : List Life) (uses : ∀ life ∈ lives, life.Uses storageDir)
    (before later : List Receipt) (receipt : Receipt) (last : Directory)
    (lived : liveOn sys Manager.emptyDirectory lives = some (before ++ receipt :: later,last))
    (few : (before ++ receipt :: later).length < 2^64 - 1) (chainId : UInt64) (payload : Bytes)
    (draws : Draws) (asks : receipt.call sys = some ⟨chainId,.addBlock payload,draws⟩) (reply : Bytes)
    (resp : IPC.Response) (sent : reply ∈ receipt.replies)
    (read : sys.response.parseFromString reply = some resp) (succeeded : Succeeded resp)
    (stays : ∀ other ∈ later, ∀ call, other.call sys = some call → call.chainId = chainId →
      call.operation ≠ .removeChain) :
    ∃ block index, block.data = payload ∧ resp.addBlockResponse = some ⟨some (setBlockData block)⟩ ∧
      Durable sys ⟨storageDir⟩ last chainId index block := by
  obtain ⟨rfl,managers,answering⟩ := livesTold uses lived
  obtain ⟨_,replied,_⟩ := answeringAppend.mp answering
  have own := managers receipt (List.mem_append_right _ List.mem_cons_self)
  have earlier := fun other member => managers other (List.mem_append_left _ member)
  have others := fun other member =>
    managers other (List.mem_append_right _ (List.mem_cons_of_mem _ member))
  rw [List.length_append,List.length_cons] at few
  obtain ⟨answer,result,duty,outcome,rfl⟩ := callAnswered lawful asks (replied reply sent) read
  cases duty
  rw [own] at outcome
  obtain ⟨n,short,built⟩ := receiptsBuilt lawfulHeader lawfulBlock earlier (by omega) chainId
  obtain ⟨block,index,same,carried,lasts⟩ :=
    storedLasts lawfulHeader lawfulBlock built (by omega) outcome succeeded
  obtain ⟨m,kept⟩ := receiptsLast lawfulHeader lawfulBlock others lasts stays (by omega)
  refine ⟨block,index,same,carried,?_⟩
  rw [leftAppend,left,List.foldl_cons,← left,afterCall,own]
  change callOf sys receipt.handler receipt.arrival = _ at asks
  rw [asks]
  exact kept.durable signatures

/-! A block through four lives: one killed after it sent the reply, one that could not be seeded, one killed
while it signed another block, and one that was told to stop. -/

def serviceArgs : List Bytes :=
  ["chain_db_service","--daemonize","false","--storage-path","s"].map ascii

def booting : List Lifecycle.Label := [.construct,.assign,.start,.setUp Lifecycle.ready,.test]

def serving (msg : Bytes) : List Lifecycle.Label := [.round ⟨.input msg,true,true,true,true⟩,.test]

def adding (payload : Bytes) : Bytes := (arrivalOf {addBlockRequest := some ⟨1,payload⟩}).msg

def sampleLives : List Life := [
  ⟨⟨0,1,1⟩,serviceArgs,fun _ => Sample.steady 1,
    booting ++ serving (arrivalOf createRequest).msg ++ serving (adding (ascii "a"))⟩,
  ⟨⟨0,0,1⟩,serviceArgs,fun _ => Sample.steady 1,[]⟩,
  ⟨⟨0,1,1⟩,serviceArgs,fun _ _ => ⟨fun kind => decide (kind ≠ .secp),fun _ => 0⟩,
    booting ++ [.round ⟨.input (adding (ascii "b")),true,true,true,false⟩]⟩,
  ⟨⟨0,1,1⟩,serviceArgs,fun _ => Sample.steady 1,
    booting ++ serving (adding (ascii "c")) ++
      [.signal,.round ⟨.idle,true,true,true,true⟩,.test,.join]⟩]

theorem sampleUses : ∀ life ∈ sampleLives, life.Uses (ascii "s") := by
  have same : ∀ life ∈ sampleLives, life.argv = serviceArgs := by decide +kernel
  intro life member options accepted
  rw [same life member] at accepted
  have found := congrArg (fun ran => ran.2.string .storageDir) accepted
  exact found.symm.trans (by decide +kernel)

def sampleLived : List Receipt × Directory :=
  (liveOn Sample.platform Manager.emptyDirectory sampleLives).get (by decide +kernel)

def sampleReceipt : Receipt := sampleLived.1.get ⟨1,by decide +kernel⟩

def sampleCall : Manager.Call := (sampleReceipt.call Sample.platform).get (by decide +kernel)

def sampleReply : Bytes := sampleReceipt.replies.head (by decide +kernel)

theorem sampleSent : sampleReply ∈ sampleReceipt.replies := List.head_mem _

def sampleResponse : IPC.Response :=
  (Sample.platform.response.parseFromString sampleReply).get (by decide +kernel)

theorem sampleFacts : (sampleCall.chainId = 1 ∧ sampleCall.operation = .addBlock (ascii "a")) ∧
    sampleLived.1.length = 4 ∧ Succeeded sampleResponse ∧ ∀ other ∈ sampleLived.1.drop 2,
      (other.call Sample.platform).map Manager.Call.operation ≠ some .removeChain := by decide +kernel

theorem sampleAsks : sampleReceipt.call Sample.platform =
    some ⟨1,.addBlock (ascii "a"),sampleCall.draws⟩ := by
  have whole : ∀ call : Manager.Call, call.chainId = 1 ∧ call.operation = .addBlock (ascii "a") →
      call = ⟨1,.addBlock (ascii "a"),call.draws⟩ := fun call same => by
    cases call
    cases same.1
    cases same.2
    rfl
  have asks : sampleReceipt.call Sample.platform = some sampleCall := (Option.some_get _).symm
  exact asks.trans (congrArg some (whole sampleCall sampleFacts.1))

theorem livedSplit {lived : List Receipt × Directory} {receipts : List Receipt}
    (split : receipts = lived.1) : lived = (receipts,lived.2) := by
  rw [split]

theorem sampleSplit : sampleLived.1.take 1 ++ sampleReceipt :: sampleLived.1.drop 2 = sampleLived.1 := by
  have rest : sampleLived.1.drop 1 = sampleReceipt :: sampleLived.1.drop 2 :=
    List.drop_eq_getElem_cons (by rw [sampleFacts.2.1]; decide)
  rw [← rest,List.take_append_drop]

theorem sampleStays : ∀ other ∈ sampleLived.1.drop 2, ∀ call, other.call Sample.platform = some call →
    call.chainId = 1 → call.operation ≠ .removeChain := by
  intro other member call leads own removes
  refine sampleFacts.2.2.2 other member ?_
  rw [leads,Option.map_some,removes]

theorem sampleBlockLasts : ∃ block index, block.data = ascii "a" ∧
    sampleResponse.addBlockResponse = some ⟨some (setBlockData block)⟩ ∧
      Durable Sample.platform ⟨ascii "s"⟩ sampleLived.2 1 index block := by
  have whole : liveOn Sample.platform Manager.emptyDirectory sampleLives = some sampleLived :=
    (Option.some_get _).symm
  have read : Sample.platform.response.parseFromString sampleReply = some sampleResponse :=
    (Option.some_get _).symm
  have split : sampleLived = (sampleLived.1.take 1 ++ sampleReceipt :: sampleLived.1.drop 2,sampleLived.2) :=
    livedSplit sampleSplit
  have few : sampleLived.1.length < 2^64 - 1 := by rw [sampleFacts.2.1]; decide
  exact acknowledgedBlocksLast Sample.headerLawful Sample.blockLawful
    (wireLawful IPC.Response.schemaSound) Sample.signaturesVerify (ascii "s") sampleLives sampleUses
    (sampleLived.1.take 1) (sampleLived.1.drop 2) sampleReceipt sampleLived.2
    (whole.trans (congrArg some split)) ((congrArg List.length sampleSplit).trans_lt few) 1 (ascii "a")
    sampleCall.draws sampleAsks sampleReply sampleResponse sampleSent read sampleFacts.2.2.1 sampleStays

end Durability
end ChainDB
