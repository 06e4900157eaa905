import ChainDB.Integrity

/-! One chain id seen as an append-only list: absent, or a ledger that only grows until it is
removed. `Behaves` says what each operation answers and does to that view. -/
namespace ChainDB
open Effects HashChain

namespace Ledger

/- Blocks count from 1. -/
def block (ledger : Ledger) (index : UInt64) : Option Block :=
  if index = 0 then none else ledger.blocks[index.toNat - 1]?

theorem Represents.blockAt {sys ledger db} (h : Represents sys ledger db) {index : UInt64} {b : Block}
    (positive : index ≠ 0) (inside : index ≤ ledger.header.index)
    (stored : Chain.storedBlock sys db index = some b) : ledger.block index = some b := by
  obtain ⟨own,listed,found⟩ := Chain.consecutiveAt h.blocks h.size.symm
    (Chain.positiveIndex positive) inside
  cases stored.symm.trans found
  rw [block,if_neg positive,listed]

theorem Represents.blockOutside {sys ledger db} (h : Represents sys ledger db) {index : UInt64}
    (outside : index = 0 ∨ ledger.header.index < index) : ledger.block index = none := by
  rcases outside with zero | above
  · exact if_pos zero
  · have beyond := UInt64.lt_iff_toNat_lt.mp above
    have size := h.size
    have positive : index ≠ 0 := fun zero => by
      subst zero
      exact absurd beyond (Nat.not_lt_zero _)
    rw [block,if_neg positive,List.getElem?_eq_none (by omega)]

end Ledger

namespace Manager

inductive Behaves (sys : Platform) (chain : Chain) :
    Option Ledger → Operation → Result → Option Ledger → Prop where
  | create (data : Bytes) (privateKey : PrivateKey) (publicKey : PublicKey) :
      Behaves sys chain none (.createChain data) (.chain (some chain))
        (some (Ledger.create data privateKey publicKey))
  | createTaken (ledger : Ledger) (data : Bytes) :
      Behaves sys chain (some ledger) (.createChain data) (.chain none) (some ledger)
  | add (ledger : Ledger) (block : Block) :
      Behaves sys chain (some ledger) (.addBlock block.data) (.block (some block))
        (some (ledger.append block))
  | addAbsent (data : Bytes) : Behaves sys chain none (.addBlock data) (.block none) none
  | getBlock (view : Option Ledger) (index : UInt64) :
      Behaves sys chain view (.getBlock index) (.block (view.bind (Ledger.block · index))) view
  | getBlocks (ledger : Ledger) (blocks : List Block) :
      Behaves sys chain (some ledger) (.getBlocks blocks) (.blocks (true,blocks ++ ledger.blocks))
        (some ledger)
  | getBlocksAbsent (blocks : List Block) :
      Behaves sys chain none (.getBlocks blocks) (.blocks (false,blocks)) none
  | remove (view : Option Ledger) : Behaves sys chain view .removeChain (.flag true) none
  /-- Whether signatures verify is a matter of the curve library. -/
  | verify (ledger : Ledger) (valid : Bool) (sound : sys.SignaturesVerify → valid = true) :
      Behaves sys chain (some ledger) .verifyChain (.flag valid) (some ledger)
  | verifyAbsent : Behaves sys chain none .verifyChain (.flag false) none
  | header (view : Option Ledger) :
      Behaves sys chain view .getChainHeader (.header (view.map Ledger.header)) view
  | info (view : Option Ledger) :
      Behaves sys chain view .getChainInfo (.info (view.map (fun l => (DB_VERSION,l.size)))) view

inductive BehavesAll (sys : Platform) (chain : Chain) :
    Option Ledger → List Operation → List Result → Option Ledger → Prop where
  | nil (view : Option Ledger) : BehavesAll sys chain view [] [] view
  | snoc {view middle last : Option Ledger} {operations : List Operation} {results : List Result}
      {operation : Operation} {result : Result}
      (before : BehavesAll sys chain view operations results middle)
      (step : Behaves sys chain middle operation result last) :
      BehavesAll sys chain view (operations ++ [operation]) (results ++ [result]) last

/- The view stands for the stored database; `n` blocks were added since the last removal. -/
def Simulates (sys : Platform) (n : Nat) : Option Ledger → Option Database → Prop
  | none,none => n = 0
  | some ledger,some db => ledger.Represents sys db ∧ ledger.Sound sys ∧ ledger.blocks.length = n
  | _,_ => False

section Steps
variable {sys : Platform} {manager : Manager} {chainId : UInt64} {n : Nat} {view : Option Ledger}
  {dir : Directory} {draws : Draws}

theorem simulatesAbsent (sim : Simulates sys n view (dir (manager.makeStoragePath chainId)))
    (vacant : dir (manager.makeStoragePath chainId) = none) : view = none := by
  cases view with
  | none => rfl
  | some ledger =>
    rw [vacant] at sim
    cases sim

theorem simulatesPresent (sim : Simulates sys n view (dir (manager.makeStoragePath chainId)))
    {db : Database} (here : dir (manager.makeStoragePath chainId) = some db) :
    ∃ ledger, view = some ledger ∧ ledger.Represents sys db ∧ ledger.Sound sys ∧
      ledger.blocks.length = n := by
  cases view with
  | none =>
    rw [here] at sim
    cases sim
  | some ledger =>
    rw [here] at sim
    exact ⟨ledger,rfl,sim⟩

theorem unreadableView (sim : Simulates sys n view (dir (manager.makeStoragePath chainId)))
    {nothing : Database → Prop}
    (h : Chain.Unreadable (manager.makeStoragePath chainId) (start dir draws) nothing) :
    view = none ∨ ∃ ledger db, view = some ledger ∧ ledger.Represents sys db ∧ nothing db := by
  rcases h with locked | nothing
  · simp [start] at locked
  · cases entry : dir (manager.makeStoragePath chainId) with
    | none => exact Or.inl (simulatesAbsent sim entry)
    | some db =>
      obtain ⟨ledger,rfl,represents,_⟩ := simulatesPresent sim entry
      exact Or.inr ⟨ledger,db,rfl,represents,nothing db entry⟩

theorem headerBehaves (sim : Simulates sys n view (dir (manager.makeStoragePath chainId)))
    {o : Outcome Halt Header} {t : World}
    (run : (manager.chain chainId).getHeader sys (start dir draws) = (o,t)) (clean : t.failed = false) :
    (o = .absent ∧ view = none) ∨ ∃ ledger, view = some ledger ∧ o = .done ledger.header := by
  cases o with
  | done header =>
    obtain ⟨db,here,stored⟩ := Chain.getHeaderDone run
    obtain ⟨ledger,rfl,represents,_⟩ := simulatesPresent sim here
    cases stored.symm.trans represents.header
    exact Or.inr ⟨ledger,rfl,rfl⟩
  | absent =>
    rcases Chain.getHeaderAbsent run with failed | unreadable
    · exact absurd failed (by simp [clean])
    · rcases unreadableView sim unreadable with gone | ⟨ledger,db,_,represents,missing⟩
      · exact Or.inl ⟨rfl,gone⟩
      · cases missing.symm.trans represents.header
  | halt e => exact absurd run ((Chain.getHeaderSteady sys _).total _ e t)

theorem getBlockBehaves (sim : Simulates sys n view (dir (manager.makeStoragePath chainId)))
    {index : UInt64} {o : Outcome Halt Block} {t : World}
    (run : (manager.chain chainId).getBlock sys index (start dir draws) = (o,t))
    (clean : t.failed = false) :
    (o = .absent ∧ view.bind (Ledger.block · index) = none) ∨
      ∃ block, o = .done block ∧ view.bind (Ledger.block · index) = some block := by
  cases o with
  | done block =>
    obtain ⟨db,header,here,supported,positive,inside,stored⟩ := Chain.getBlockDone run
    obtain ⟨ledger,rfl,represents,_⟩ := simulatesPresent sim here
    cases supported.unique represents.supported
    exact Or.inr ⟨block,rfl,represents.blockAt positive inside stored⟩
  | absent =>
    refine Or.inl ⟨rfl,?_⟩
    rcases Chain.getBlockAbsent run with failed | unreadable
    · exact absurd failed (by simp [clean])
    · rcases unreadableView sim unreadable with rfl | ⟨ledger,db,rfl,represents,missing⟩
      · rfl
      · by_cases outside : index = 0 ∨ ledger.header.index < index
        · exact represents.blockOutside outside
        · rw [not_or,UInt64.not_lt] at outside
          have gone := missing ledger.header represents.supported outside.1 outside.2
          exact absurd gone (Chain.consecutiveCovers represents.blocks represents.size.symm
            (Chain.positiveIndex outside.1) outside.2)
  | halt e => exact absurd run ((Chain.getBlockSteady sys _ index).total _ e t)

theorem getBlocksBehaves (sim : Simulates sys n view (dir (manager.makeStoragePath chainId)))
    {blocks : List Block} {o : Outcome Halt (Bool × List Block)} {t : World}
    (run : (manager.chain chainId).getBlocks sys blocks (start dir draws) = (o,t))
    (clean : t.failed = false) :
    (o = .done (false,blocks) ∧ view = none) ∨
      ∃ ledger, view = some ledger ∧ o = .done (true,blocks ++ ledger.blocks) := by
  cases entry : dir (manager.makeStoragePath chainId) with
  | none =>
    have vacant : (start dir draws).directory (manager.chain chainId).path = none := entry
    refine Or.inl ⟨?_,simulatesAbsent sim entry⟩
    cases Chain.getBlocksEnds run with
    | shut => rfl
    | all db header l here => cases vacant.symm.trans here
    | stuck db header l here => cases vacant.symm.trans here
    | endless db header here => cases vacant.symm.trans here
  | some db =>
    obtain ⟨ledger,rfl,represents,_⟩ := simulatesPresent sim entry
    have size := represents.size
    have bounded : ledger.header.index.toNat + 1 < 2^64 := by
      rw [size]
      exact represents.short
    have free : (manager.chain chainId).path ∉ (start dir draws).opened := by simp [start]
    exact Or.inr ⟨ledger,rfl,Chain.getBlocksClean entry free represents.supported bounded size.symm
      represents.blocks run clean⟩

theorem verifyBehaves (sim : Simulates sys n view (dir (manager.makeStoragePath chainId)))
    {o : Outcome Halt Unit} {t : World}
    (run : verifyChain sys manager chainId (start dir draws) = (o,t)) (clean : t.failed = false) :
    (o = .absent ∧ (sys.SignaturesVerify → view = none)) ∨ (o = .done () ∧ view ≠ none) := by
  cases o with
  | done u =>
    obtain ⟨db,_,_,here,_⟩ := verifyChainDone run
    obtain ⟨ledger,rfl,_⟩ := simulatesPresent sim here
    exact Or.inr ⟨rfl,by simp⟩
  | absent =>
    refine Or.inl ⟨rfl,fun signatures => ?_⟩
    cases entry : dir (manager.makeStoragePath chainId) with
    | none => exact simulatesAbsent sim entry
    | some db =>
      obtain ⟨ledger,rfl,represents,sound,_⟩ := simulatesPresent sim entry
      have built : Built sys ledger.blocks.length (some db) := Or.inr ⟨ledger,represents,sound,rfl⟩
      have held : db.lookup DB_HEADER_KEY ≠ none := fun missing => by
        have stored := represents.header
        simp [Chain.storedHeader,missing] at stored
      obtain ⟨header,blocks,verified⟩ := builtVerified signatures built held
      have found : (start dir draws).directory (manager.makeStoragePath chainId) = some db := entry
      obtain ⟨u,done⟩ := verifyChainHolds found (by simp [start]) verified
        (by rw [run]; exact clean)
      rw [run] at done
      cases done
  | halt e =>
    rcases verifyChainHalt run with ⟨failed,_⟩ | ⟨db,header,here,supported,full,_⟩
    · exact absurd failed (by simp [clean])
    · obtain ⟨ledger,rfl,represents,_⟩ := simulatesPresent sim here
      cases supported.unique represents.supported
      have size := represents.size
      have short := represents.short
      omega

theorem createBehaves (sim : Simulates sys n view (dir (manager.makeStoragePath chainId)))
    {data : Bytes} {o : Outcome Halt Chain} {t : World}
    (run : createChain sys manager chainId data (start dir draws) = (o,t)) (clean : t.failed = false) :
    (o = .absent ∧ view ≠ none ∧ t.directory = dir) ∨
      (o = .done (manager.chain chainId) ∧ view = none ∧ ∃ privateKey publicKey,
        Created sys (manager.makeStoragePath chainId) data (start dir draws) t privateKey
          publicKey) := by
  cases o with
  | done chain =>
    obtain ⟨rfl,privateKey,publicKey,created⟩ := createChainDone run
    exact Or.inr ⟨rfl,simulatesAbsent sim created.vacant,privateKey,publicKey,created⟩
  | absent =>
    obtain ⟨_,change,why⟩ := createChainAbsent run
    have present : view ≠ none := by
      rcases why with failed | locked | taken
      · exact absurd failed (by simp [clean])
      · simp [start] at locked
      · obtain ⟨db,here⟩ := Option.ne_none_iff_exists'.mp taken
        obtain ⟨ledger,rfl,_⟩ := simulatesPresent sim here
        simp
    rcases change with same | ⟨failed,_⟩
    · exact Or.inl ⟨rfl,present,same⟩
    · exact absurd failed (by simp [clean])
  | halt e => exact absurd run (createChainTotal sys manager chainId data _ e t)

theorem addBehaves (sim : Simulates sys n view (dir (manager.makeStoragePath chainId)))
    {data : Bytes} {o : Outcome Halt Block} {t : World}
    (run : addBlock sys manager chainId data (start dir draws) = (o,t)) (clean : t.failed = false) :
    (o = .absent ∧ view = none ∧ t.directory = dir) ∨
      ∃ block ledger db header prevHash, o = .done block ∧ view = some ledger ∧
        ledger.Represents sys db ∧ ledger.Sound sys ∧ ledger.blocks.length = n ∧
        Chain.Appended sys (manager.makeStoragePath chainId) block (start dir draws) t db header ∧
        Composed sys db data header prevHash block := by
  cases o with
  | done block =>
    obtain ⟨db,header,prevHash,appended,composed⟩ := addBlockDone run
    obtain ⟨ledger,rfl,represents,sound,length⟩ := simulatesPresent sim appended.here
    exact Or.inr ⟨block,ledger,db,header,prevHash,rfl,rfl,represents,sound,length,appended,composed⟩
  | absent =>
    obtain ⟨quiet,why⟩ := addBlockAbsent run
    refine Or.inl ⟨rfl,?_,quiet.directory⟩
    rcases why with failed | unreadable
    · exact absurd failed (by simp [clean])
    · rcases unreadableView sim unreadable with gone | ⟨ledger,db,_,represents,nothing⟩
      · exact gone
      · obtain ⟨prevHash,back⟩ := represents.pointsBackTip
        exact absurd back (nothing _ represents.supported prevHash)
  | halt e => exact absurd run (addBlockTotal sys manager chainId data _ e t)

def Steps (sys : Platform) (manager : Manager) (n : Nat) (view : Option Ledger) (dir : Directory)
    (call : Call) : Prop :=
  ∃ result view', (event sys manager call dir).outcome = .done result ∧
    Behaves sys (manager.chain call.chainId) view call.operation result view' ∧
    Simulates sys (tally call.chainId n (event sys manager call dir)) view'
      (after sys manager call dir (manager.makeStoragePath call.chainId))

theorem stepsSame {operation : Operation} {result : Result} {t : World}
    (sim : Simulates sys n view (dir (manager.makeStoragePath chainId)))
    (ran : effect sys manager ⟨chainId,operation,draws⟩ dir = (.done result,t))
    (same : t.directory = dir)
    (kept : (Event.mk ⟨chainId,operation,draws⟩ (.done result) t.failed).appended = false)
    (standing : (Event.mk ⟨chainId,operation,draws⟩ (.done result) t.failed).removed = false)
    (behaves : Behaves sys (manager.chain chainId) view operation result view) :
    Steps sys manager n view dir ⟨chainId,operation,draws⟩ := by
  refine ⟨result,view,by simp only [event,ran],behaves,?_⟩
  simp only [after,event,ran,same,tally,kept,standing,if_true]
  exact sim

theorem cleanOf {operation : Operation} {t : World}
    (clean : (event sys manager ⟨chainId,operation,draws⟩ dir).failed = false)
    (ended : (effect sys manager ⟨chainId,operation,draws⟩ dir).2 = t) : t.failed = false := by
  rw [← ended]
  exact clean

theorem createSteps (lawful : sys.header.Lawful) {data : Bytes}
    (sim : Simulates sys n view (dir (manager.makeStoragePath chainId)))
    (clean : (event sys manager ⟨chainId,.createChain data,draws⟩ dir).failed = false) :
    Steps sys manager n view dir ⟨chainId,.createChain data,draws⟩ := by
  rcases run : createChain sys manager chainId data (start dir draws) with ⟨o,t⟩
  have cleanT := cleanOf clean (Exec.attemptMapState.trans (congrArg Prod.snd run))
  rcases createBehaves sim run cleanT with ⟨rfl,present,same⟩ | ⟨rfl,rfl,secret,shared,created⟩
  · obtain ⟨ledger,rfl⟩ := Option.ne_none_iff_exists'.mp present
    have ran : effect sys manager ⟨chainId,.createChain data,draws⟩ dir = (.done (.chain none),t) := by
      simp only [effect,perform,Exec.attemptMap,run]
    exact stepsSame sim ran same rfl rfl (.createTaken ledger data)
  · have ran : effect sys manager ⟨chainId,.createChain data,draws⟩ dir =
        (.done (.chain (some (manager.chain chainId))),t) := by
      simp only [effect,perform,Exec.attemptMap,run]
    have vacant : dir (manager.makeStoragePath chainId) = none := created.vacant
    rw [vacant] at sim
    have zero : n = 0 := sim
    refine ⟨_,_,by simp only [event,ran],.create data secret shared,?_⟩
    simp only [after,event,ran,created.directory,Function.update_self,tally,Event.appended,
      Event.removed,if_true]
    exact ⟨Ledger.representsCreate lawful created.fits,
      Ledger.soundCreate created.valid created.paired,zero.symm⟩

theorem addSteps (lawfulHeader : sys.header.Lawful) (lawfulBlock : sys.block.Lawful) {data : Bytes}
    (sim : Simulates sys n view (dir (manager.makeStoragePath chainId)))
    (clean : (event sys manager ⟨chainId,.addBlock data,draws⟩ dir).failed = false)
    (few : tally chainId n (event sys manager ⟨chainId,.addBlock data,draws⟩ dir) < 2^64 - 1) :
    Steps sys manager n view dir ⟨chainId,.addBlock data,draws⟩ := by
  rcases run : addBlock sys manager chainId data (start dir draws) with ⟨o,t⟩
  have cleanT := cleanOf clean (Exec.attemptMapState.trans (congrArg Prod.snd run))
  rcases addBehaves sim run cleanT with ⟨rfl,rfl,same⟩ |
    ⟨block,ledger,db,header,prevHash,rfl,rfl,represents,sound,length,appended,composed⟩
  · have ran : effect sys manager ⟨chainId,.addBlock data,draws⟩ dir = (.done (.block none),t) := by
      simp only [effect,perform,Exec.attemptMap,run]
    exact stepsSame sim ran same rfl rfl (.addAbsent data)
  · have ran : effect sys manager ⟨chainId,.addBlock data,draws⟩ dir =
        (.done (.block (some block)),t) := by
      simp only [effect,perform,Exec.attemptMap,run]
    have counted : tally chainId n (event sys manager ⟨chainId,.addBlock data,draws⟩ dir) = n + 1 := by
      simp only [tally,event,ran,Event.appended,if_true]
    rw [counted] at few
    obtain ⟨db',there,now,soundNow⟩ := appendedLedger lawfulHeader lawfulBlock represents sound
      appended composed (by omega)
    have behaves := @Behaves.add sys (manager.chain chainId) ledger block
    rw [composed.data] at behaves
    refine ⟨_,_,by simp only [event,ran],behaves,?_⟩
    simp only [after,ran,there,counted]
    exact ⟨now,soundNow,by simp [Ledger.append,length]⟩

theorem getBlockSteps {index : UInt64}
    (sim : Simulates sys n view (dir (manager.makeStoragePath chainId)))
    (clean : (event sys manager ⟨chainId,.getBlock index,draws⟩ dir).failed = false) :
    Steps sys manager n view dir ⟨chainId,.getBlock index,draws⟩ := by
  rcases run : (manager.chain chainId).getBlock sys index (start dir draws) with ⟨o,t⟩
  have cleanT := cleanOf clean (Exec.attemptMapState.trans (congrArg Prod.snd run))
  have same : t.directory = dir := ((Chain.getBlockSteady sys _ index).quiet.apply run).directory
  have behaves := @Behaves.getBlock sys (manager.chain chainId) view index
  rcases getBlockBehaves sim run cleanT with ⟨rfl,missing⟩ | ⟨block,rfl,found⟩
  · rw [missing] at behaves
    have ran : effect sys manager ⟨chainId,.getBlock index,draws⟩ dir = (.done (.block none),t) := by
      simp only [effect,perform,Exec.attemptMap,getBlock,run]
    exact stepsSame sim ran same rfl rfl behaves
  · rw [found] at behaves
    have ran : effect sys manager ⟨chainId,.getBlock index,draws⟩ dir =
        (.done (.block (some block)),t) := by
      simp only [effect,perform,Exec.attemptMap,getBlock,run]
    exact stepsSame sim ran same rfl rfl behaves

theorem getBlocksSteps {blocks : List Block}
    (sim : Simulates sys n view (dir (manager.makeStoragePath chainId)))
    (clean : (event sys manager ⟨chainId,.getBlocks blocks,draws⟩ dir).failed = false) :
    Steps sys manager n view dir ⟨chainId,.getBlocks blocks,draws⟩ := by
  rcases run : (manager.chain chainId).getBlocks sys blocks (start dir draws) with ⟨o,t⟩
  have same : t.directory = dir := ((Chain.getBlocksQuiet sys _ blocks).apply run).directory
  have ended : (effect sys manager ⟨chainId,.getBlocks blocks,draws⟩ dir).2 = t := by
    simp only [effect,perform,getBlocks,Exec.bindApply,run]
    cases o <;> rfl
  rcases getBlocksBehaves sim run (cleanOf clean ended) with ⟨rfl,rfl⟩ | ⟨ledger,rfl,rfl⟩
  · have ran : effect sys manager ⟨chainId,.getBlocks blocks,draws⟩ dir =
        (.done (.blocks (false,blocks)),t) := by
      simp only [effect,perform,getBlocks,Exec.bindApply,run,Exec.pureApply]
    exact stepsSame sim ran same rfl rfl (.getBlocksAbsent blocks)
  · have ran : effect sys manager ⟨chainId,.getBlocks blocks,draws⟩ dir =
        (.done (.blocks (true,blocks ++ ledger.blocks)),t) := by
      simp only [effect,perform,getBlocks,Exec.bindApply,run,Exec.pureApply]
    exact stepsSame sim ran same rfl rfl (.getBlocks ledger blocks)

theorem removeSteps
    (clean : (event sys manager ⟨chainId,.removeChain,draws⟩ dir).failed = false) :
    Steps sys manager n view dir ⟨chainId,.removeChain,draws⟩ := by
  rcases run : (manager.chain chainId).remove (start dir draws) with ⟨u | _ | e,t⟩
  · have gone := (Chain.removeDone run).2
    have ran : effect sys manager ⟨chainId,.removeChain,draws⟩ dir = (.done (.flag true),t) := by
      simp only [effect,perform,Exec.attemptMap,removeChain,run,Option.isSome_some]
    refine ⟨_,_,by simp only [event,ran],.remove view,?_⟩
    simp only [after,event,ran,gone,tally,Event.appended,Event.removed,if_true]
    change Simulates sys 0 none (Function.update dir (manager.makeStoragePath chainId) none _)
    rw [Function.update_self]
    rfl
  · have cleanT : t.failed = false := cleanOf clean (Exec.attemptMapState.trans (congrArg Prod.snd run))
    rcases (Chain.removeAbsent run).2 with failed | locked
    · exact absurd failed (by simp [cleanT])
    · simp [start] at locked
  · exact absurd run (Chain.removeTotal _ _ e t)

theorem verifySteps (sim : Simulates sys n view (dir (manager.makeStoragePath chainId)))
    (clean : (event sys manager ⟨chainId,.verifyChain,draws⟩ dir).failed = false) :
    Steps sys manager n view dir ⟨chainId,.verifyChain,draws⟩ := by
  rcases run : verifyChain sys manager chainId (start dir draws) with ⟨o,t⟩
  have cleanT := cleanOf clean (Exec.attemptMapState.trans (congrArg Prod.snd run))
  have same : t.directory = dir := ((verifyChainQuiet sys manager chainId).apply run).directory
  rcases verifyBehaves sim run cleanT with ⟨rfl,invalid⟩ | ⟨rfl,present⟩
  · have ran : effect sys manager ⟨chainId,.verifyChain,draws⟩ dir = (.done (.flag false),t) := by
      simp only [effect,perform,Exec.attemptMap,run,Option.isSome_none]
    refine stepsSame sim ran same rfl rfl ?_
    cases view with
    | none => exact .verifyAbsent
    | some ledger => exact .verify ledger false fun signatures => by cases invalid signatures
  · obtain ⟨ledger,rfl⟩ := Option.ne_none_iff_exists'.mp present
    have ran : effect sys manager ⟨chainId,.verifyChain,draws⟩ dir = (.done (.flag true),t) := by
      simp only [effect,perform,Exec.attemptMap,run,Option.isSome_some]
    exact stepsSame sim ran same rfl rfl (.verify ledger true fun _ => rfl)

theorem headerSteps (sim : Simulates sys n view (dir (manager.makeStoragePath chainId)))
    (clean : (event sys manager ⟨chainId,.getChainHeader,draws⟩ dir).failed = false) :
    Steps sys manager n view dir ⟨chainId,.getChainHeader,draws⟩ := by
  rcases run : (manager.chain chainId).getHeader sys (start dir draws) with ⟨o,t⟩
  have cleanT := cleanOf clean (Exec.attemptMapState.trans (congrArg Prod.snd run))
  have same : t.directory = dir := ((Chain.getHeaderSteady sys _).quiet.apply run).directory
  have behaves := @Behaves.header sys (manager.chain chainId) view
  rcases headerBehaves sim run cleanT with ⟨rfl,rfl⟩ | ⟨ledger,rfl,rfl⟩
  · have ran : effect sys manager ⟨chainId,.getChainHeader,draws⟩ dir = (.done (.header none),t) := by
      simp only [effect,perform,Exec.attemptMap,getChainHeader,run]
    exact stepsSame sim ran same rfl rfl behaves
  · have ran : effect sys manager ⟨chainId,.getChainHeader,draws⟩ dir =
        (.done (.header (some ledger.header)),t) := by
      simp only [effect,perform,Exec.attemptMap,getChainHeader,run]
    exact stepsSame sim ran same rfl rfl behaves

theorem infoSteps (sim : Simulates sys n view (dir (manager.makeStoragePath chainId)))
    (clean : (event sys manager ⟨chainId,.getChainInfo,draws⟩ dir).failed = false) :
    Steps sys manager n view dir ⟨chainId,.getChainInfo,draws⟩ := by
  rcases run : (manager.chain chainId).getHeader sys (start dir draws) with ⟨o,t⟩
  have same : t.directory = dir := ((Chain.getHeaderSteady sys _).quiet.apply run).directory
  have behaves := @Behaves.info sys (manager.chain chainId) view
  have cleanT := cleanOf clean
    ((Exec.attemptMapState.trans Exec.bindPureState).trans (congrArg Prod.snd run))
  rcases headerBehaves sim run cleanT with ⟨rfl,rfl⟩ | ⟨ledger,rfl,rfl⟩
  · have info : getChainInfo sys manager chainId (start dir draws) = (.absent,t) :=
      Exec.bindOfAbsent run
    have ran : effect sys manager ⟨chainId,.getChainInfo,draws⟩ dir = (.done (.info none),t) := by
      simp only [effect,perform,Exec.attemptMap,info]
    exact stepsSame sim ran same rfl rfl behaves
  · have info : getChainInfo sys manager chainId (start dir draws) =
        (.done (DB_VERSION,ledger.size),t) := Exec.bindOfDone run
    have ran : effect sys manager ⟨chainId,.getChainInfo,draws⟩ dir =
        (.done (.info (some (DB_VERSION,ledger.size))),t) := by
      simp only [effect,perform,Exec.attemptMap,info]
    exact stepsSame sim ran same rfl rfl behaves

end Steps

theorem everyCallSteps {sys : Platform} (lawfulHeader : sys.header.Lawful)
    (lawfulBlock : sys.block.Lawful) {manager : Manager} {n : Nat} {view : Option Ledger}
    {dir : Directory} {call : Call}
    (sim : Simulates sys n view (dir (manager.makeStoragePath call.chainId)))
    (clean : (event sys manager call dir).failed = false)
    (few : tally call.chainId n (event sys manager call dir) < 2^64 - 1) :
    Steps sys manager n view dir call := by
  obtain ⟨chainId,operation,draws⟩ := call
  cases operation with
  | createChain data => exact createSteps lawfulHeader sim clean
  | addBlock data => exact addSteps lawfulHeader lawfulBlock sim clean few
  | getBlock index => exact getBlockSteps sim clean
  | getBlocks blocks => exact getBlocksSteps sim clean
  | removeChain => exact removeSteps clean
  | verifyChain => exact verifySteps sim clean
  | getChainHeader => exact headerSteps sim clean
  | getChainInfo => exact infoSteps sim clean

theorem additionsOwn {sys : Platform} {manager : Manager} {chainId : UInt64} {dir : Directory}
    {calls : List Call} {call : Call} :
    additions chainId (run sys manager dir (calls ++ [call])).1 =
      tally chainId (additions chainId (run sys manager dir calls).1)
        (event sys manager call (run sys manager dir calls).2) := by
  rw [runAppend]
  exact additionsSnoc _ _ _

theorem managerRefinesAppendOnlyList {sys : Platform} (lawfulHeader : sys.header.Lawful)
    (lawfulBlock : sys.block.Lawful) (manager : Manager) (chainId : UInt64) (dir : Directory)
    (vacant : dir (manager.makeStoragePath chainId) = none) (calls : List Call)
    (own : ∀ call ∈ calls, call.chainId = chainId)
    (clean : ∀ event ∈ (run sys manager dir calls).1, event.failed = false)
    (few : Fewer (2^64 - 1) (run sys manager dir calls).1) :
    (∃ results view, (run sys manager dir calls).1.map Event.outcome = results.map .done ∧
      BehavesAll sys (manager.chain chainId) none (calls.map Call.operation) results view ∧
      Simulates sys (additions chainId (run sys manager dir calls).1) view
        ((run sys manager dir calls).2 (manager.makeStoragePath chainId))) ∧
    ∀ call before, call.operation.Reads → after sys manager call before = before := by
  refine ⟨?_,fun call before reads => (readsQuiet sys manager call.chainId reads _).directory⟩
  induction calls using List.reverseRecOn with
  | nil =>
    refine ⟨[],none,rfl,.nil none,?_⟩
    simp only [run,vacant]
    rfl
  | append_singleton calls call ih =>
    have whole := @runAppend sys manager dir calls [call]
    have before : (run sys manager dir calls).1 <+: (run sys manager dir (calls ++ [call])).1 :=
      runPrefix (List.prefix_append _ _)
    obtain ⟨results,view,outcomes,behaves,sim⟩ := ih
      (fun other member => own other (List.mem_append_left _ member))
      (fun event member => clean event (before.subset member))
      (fun id earlier prior => few id earlier (prior.trans before))
    have mine := own call (List.mem_append_right _ (List.mem_singleton_self _))
    subst mine
    have cleanNow := clean (event sys manager call (run sys manager dir calls).2) (by
      rw [whole]
      simp [run])
    have fewNow := few call.chainId _ (List.prefix_refl _)
    rw [additionsOwn] at fewNow
    obtain ⟨result,view',outcome,step,now⟩ :=
      everyCallSteps lawfulHeader lawfulBlock sim cleanNow fewNow
    refine ⟨results ++ [result],view',?_,?_,?_⟩
    · rw [whole]
      simp only [List.map_append,outcomes,run,List.map_cons,List.map_nil,outcome]
    · rw [List.map_append]
      exact .snoc behaves step
    · rw [additionsOwn]
      rw [whole]
      exact now

def sampleOperations : List Operation := [.addBlock [],.createChain (ascii "\x7b\x7d"),
  .createChain [],.addBlock (ascii "a"),.getBlock 1,.getBlock 2,.getBlocks [],.verifyChain,
  .removeChain,.createChain (ascii "\x7b\x7d"),.getBlock 1,.getChainInfo]

def sampleHistory : List Call := sampleOperations.map (fun operation => ⟨1,operation,Sample.steady 1⟩)

theorem sampleHistoryRefines :
    (∃ results view,
      (run Sample.platform ⟨[]⟩ emptyDirectory sampleHistory).1.map Event.outcome =
        results.map .done ∧
      BehavesAll Sample.platform (Manager.chain ⟨[]⟩ 1) none (sampleHistory.map Call.operation) results
        view ∧
      Simulates Sample.platform
        (additions 1 (run Sample.platform ⟨[]⟩ emptyDirectory sampleHistory).1) view
        ((run Sample.platform ⟨[]⟩ emptyDirectory sampleHistory).2 (makeStoragePath ⟨[]⟩ 1))) ∧
    ∀ call before, call.operation.Reads → after Sample.platform ⟨[]⟩ call before = before :=
  managerRefinesAppendOnlyList Sample.headerLawful Sample.blockLawful ⟨[]⟩ 1 emptyDirectory rfl
    sampleHistory (by decide) (by decide +kernel) (fewerOfLength (by decide +kernel))

end Manager
end ChainDB
