import ChainDB.Authentication
import ChainDB.ManagerRecords

/-! What the size check of the handlers keeps: no record in any database that requests can
reach carries more data than the check lets through. -/
namespace ChainDB
open Effects

namespace Chain

structure Modest (sys : Platform) (db : Database) : Prop where
  header : ∀ header, storedHeader sys db = some header → header.data.length ≤ MAX_DATA_LENGTH
  block : ∀ index block, storedBlock sys db index = some block → block.data.length ≤ MAX_DATA_LENGTH

section Modest
variable {sys : Platform}

theorem modestEmpty : Modest sys ∅ :=
  ⟨fun _ stored => by simp [storedHeader] at stored,fun _ _ stored => by simp [storedBlock] at stored⟩

theorem modestNew (lawful : sys.header.Lawful) {data : Bytes} {privateKey : PrivateKey}
    {publicKey : PublicKey} (small : data.length ≤ MAX_DATA_LENGTH)
    (fits : (sys.header.encode (Header.message ⟨DB_VERSION,0,data,privateKey,publicKey⟩)).length ≤
      maxMessageLength) : Modest sys (newDatabase sys data privateKey publicKey) := by
  have represents := @Ledger.representsCreate sys lawful data privateKey publicKey fits
  refine ⟨fun header stored => ?_,fun index block stored => ?_⟩
  · cases represents.header.symm.trans stored
    exact small
  · have apart := (headerKeyNotBlock index).symm
    simp [storedBlock,newDatabase,DB.applyBatch,Finmap.lookup_insert_of_ne _ apart] at stored

theorem modestAppended (lawfulHeader : sys.header.Lawful) (lawfulBlock : sys.block.Lawful)
    {path : Path} {block : Block} {w t : World} {db : Database} {header : Header}
    (modest : Modest sys db) (appended : Appended sys path block w t db header)
    (small : block.data.length ≤ MAX_DATA_LENGTH) :
    Modest sys (DB.applyBatch (blockRecords sys header block) db) := by
  refine ⟨fun next stored => ?_,fun index other stored => ?_⟩
  · rw [Ledger.storedHeaderAfter lawfulHeader appended.headerFits] at stored
    cases stored
    exact modest.header header appended.supported.stored
  · by_cases last : index = header.index + 1
    · rw [last,Ledger.storedBlockAfter lawfulBlock appended.blockFits] at stored
      cases stored
      exact small
    · rw [Ledger.storedBlockKept last] at stored
      exact modest.block index other stored

end Modest
end Chain

def Modest (sys : Platform) (dir : Directory) : Prop :=
  ∀ path db, dir path = some db → Chain.Modest sys db

theorem modestPlaced {sys : Platform} {dir : Directory} {path : Path} {content : Option Database}
    (modest : Modest sys dir) (own : ∀ db, content = some db → Chain.Modest sys db) :
    Modest sys (Function.update dir path content) := by
  intro other db here
  by_cases same : other = path
  · rw [same,Function.update_self] at here
    exact own db here
  · rw [Function.update_of_ne same] at here
    exact modest other db here

def Tempered (sys : Platform) (w t : World) : Prop := Modest sys w.directory → Modest sys t.directory

section Tempered
variable {sys : Platform}

instance : Std.Refl (Tempered sys) := ⟨fun _ modest => modest⟩
instance : IsTrans World (Tempered sys) := ⟨fun _ _ _ a b modest => b (a modest)⟩

theorem temperedQuiet {α : Type} {m : Action α} (quiet : Exec.Keeps Quiet m) :
    Exec.Keeps (Tempered sys) m := by
  refine quiet.weaken fun w t still modest => ?_
  rw [still.directory]
  exact modest

theorem temperedCreate (lawful : sys.header.Lawful) (manager : Manager) (chainId : UInt64)
    {data : Bytes} (small : data.length ≤ MAX_DATA_LENGTH) :
    Exec.Keeps (Tempered sys) (manager.createChain sys chainId data) := by
  refine Exec.keepsIff.mpr fun w o t run modest => ?_
  cases o with
  | done chain =>
    obtain ⟨_,privateKey,publicKey,created⟩ := Manager.createChainDone run
    rw [created.directory]
    exact modestPlaced modest fun db own => by
      cases own
      exact Chain.modestNew lawful small created.fits
  | absent =>
    obtain ⟨_,same | ⟨_,_,half⟩,_⟩ := Manager.createChainAbsent run
    · rwa [same]
    · rw [half]
      exact modestPlaced modest fun db own => by
        cases own
        exact Chain.modestEmpty
  | halt e => exact absurd run (Manager.createChainTotal sys manager chainId data w e t)

theorem temperedAppend (lawfulHeader : sys.header.Lawful) (lawfulBlock : sys.block.Lawful)
    (manager : Manager) (chainId : UInt64) {data : Bytes} (small : data.length ≤ MAX_DATA_LENGTH) :
    Exec.Keeps (Tempered sys) (manager.addBlock sys chainId data) := by
  refine Exec.keepsIff.mpr fun w o t run modest => ?_
  cases o with
  | done block =>
    obtain ⟨db,header,prevHash,appended,composed⟩ := Manager.addBlockDone run
    rw [appended.directory]
    exact modestPlaced modest fun after own => by
      cases own
      exact Chain.modestAppended lawfulHeader lawfulBlock (modest _ db appended.here) appended
        (composed.data ▸ small)
  | absent =>
    rw [(Manager.addBlockAbsent run).1.directory]
    exact modest
  | halt e => exact absurd run (Manager.addBlockTotal sys manager chainId data w e t)

theorem temperedRemove (manager : Manager) (chainId : UInt64) :
    Exec.Keeps (Tempered sys) (manager.removeChain chainId) := by
  refine Exec.keepsIff.mpr fun w o t run modest => ?_
  cases o with
  | done u =>
    rw [(Chain.removeDone run).2]
    exact modestPlaced modest nofun
  | absent =>
    rw [(Chain.removeAbsent run).1.directory]
    exact modest
  | halt e => exact absurd run (Chain.removeTotal _ w e t)

end Tempered

namespace Handler
section Requests
variable {sys : Platform} {handler : Handler}

theorem makeStatusTempered (status : Status) (text : Bytes) :
    Exec.Keeps (Tempered sys) (makeStatus sys status text) :=
  temperedQuiet (serializeTame _ _).quiet

theorem makeResponseTempered (resp : IPC.Response) :
    Exec.Keeps (Tempered sys) (makeResponse sys resp) :=
  temperedQuiet (serializeTame _ _).quiet

theorem answerTempered {α : Type} {m : Action α} {f : Option α → Action Bytes}
    (first : Exec.Keeps (Tempered sys) m) (absent : Exec.Keeps (Tempered sys) (f none))
    (present : ∀ a, Exec.Keeps (Tempered sys) (f (some a))) :
    Exec.Keeps (Tempered sys) (Exec.attempt m >>= f) := by
  refine Exec.keepsBind (Exec.keepsAttempt first) fun result => ?_
  cases result with
  | none => exact absent
  | some a => exact present a

theorem dispatchTempered (lawfulHeader : sys.header.Lawful) (lawfulBlock : sys.block.Lawful)
    (req : IPC.Request) : Exec.Keeps (Tempered sys) (dispatch sys handler req) := by
  have status := @makeStatusTempered sys
  have response := @makeResponseTempered sys
  have header := fun chainId : UInt64 =>
    (Chain.getHeaderSteady sys (handler.manager.chain chainId)).quiet
  unfold dispatch
  split
  · exact status _ _
  split
  · unfold handleCreateChainRequest
    split
    · exact status _ _
    · rename_i small
      exact answerTempered (temperedCreate lawfulHeader _ _ (Nat.not_lt.mp small)) (status _ _)
        fun _ => status _ _
  split
  · exact answerTempered (temperedRemove _ _) (status _ _) fun _ => status _ _
  split
  · unfold handleAddBlockRequest
    split
    · exact status _ _
    · rename_i small
      exact answerTempered (temperedAppend lawfulHeader lawfulBlock _ _ (Nat.not_lt.mp small))
        (status _ _) fun _ => response _
  split
  · exact answerTempered (temperedQuiet (Chain.getBlockSteady sys _ _).quiet) (status _ _)
      fun _ => response _
  split
  · refine Exec.keepsBind (temperedQuiet (Chain.getBlocksQuiet sys _ _)) fun result => ?_
    obtain ⟨_ | _,blocks⟩ := result
    · exact status _ _
    · exact response _
  split
  · exact answerTempered (temperedQuiet (Manager.verifyChainQuiet sys _ _)) (status _ _)
      fun _ => status _ _
  split
  · exact answerTempered (temperedQuiet (header _)) (status _ _) fun _ => response _
  split
  · exact answerTempered (temperedQuiet (header _)) (status _ _) fun _ => response _
  split
  · exact answerTempered (temperedQuiet (Exec.keepsBind (header _) fun _ => Exec.keepsPure _))
      (status _ _) fun _ => response _
  · exact status _ _

theorem handleMessageTempered (lawfulHeader : sys.header.Lawful) (lawfulBlock : sys.block.Lawful)
    (msg : Bytes) : Exec.Keeps (Tempered sys) (handleMessage sys handler msg) := by
  have served := @dispatchTempered sys handler lawfulHeader lawfulBlock
  unfold handleMessage
  split
  · exact makeStatusTempered _ _
  · split
    · split
      · exact makeStatusTempered _ _
      · exact answerTempered (temperedQuiet (checkAuthSteady _).quiet) (makeStatusTempered _ _)
          fun _ => served _
    · exact served _

end Requests

structure Arrival where
  msg : Bytes
  draws : Draws

def after (sys : Platform) (handler : Handler) (arrival : Arrival) (dir : Directory) : Directory :=
  (handleMessage sys handler arrival.msg (start dir arrival.draws)).2.directory

def served (sys : Platform) (handler : Handler) (dir : Directory) (arrivals : List Arrival) :
    Directory :=
  arrivals.foldl (fun dir arrival => after sys handler arrival dir) dir

theorem servedCons {sys : Platform} {handler : Handler} {dir : Directory} (arrival : Arrival)
    (rest : List Arrival) : served sys handler dir (arrival :: rest) =
      served sys handler (after sys handler arrival dir) rest := rfl

theorem servedModest {sys : Platform} (lawfulHeader : sys.header.Lawful)
    (lawfulBlock : sys.block.Lawful) {handler : Handler} {dir : Directory} (modest : Modest sys dir)
    (arrivals : List Arrival) : Modest sys (served sys handler dir arrivals) := by
  induction arrivals generalizing dir with
  | nil => exact modest
  | cons arrival rest ih =>
    exact ih (handleMessageTempered lawfulHeader lawfulBlock arrival.msg
      (start dir arrival.draws) modest)

end Handler
end ChainDB
