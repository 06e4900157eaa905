import ChainDB.Reporting

/-! The two functions that read the header of a chain, and what each operation makes of a header with
another version. -/
namespace ChainDB
open Effects

namespace Chain

def getOpenedHeader (sys : Platform) (chain : Chain) : Action Header :=
  Storage.session Storage.open chain.path (getHeaderFrom sys)

def ReadersAgree (sys : Platform) (chain : Chain) (dir : Directory) : Prop :=
  ∀ draws header, (∃ t, getHeader sys chain (start dir draws) = (.done header,t)) ↔
    ∃ t, getOpenedHeader sys chain (start dir draws) = (.done header,t)

theorem getHeaderExact {sys chain dir draws header} :
    (∃ t, getHeader sys chain (start dir draws) = (.done header,t)) ↔
      (∀ j < 2, (draws j).ok .database = true) ∧
        ∃ db, dir chain.path = some db ∧ storedHeader sys db = some header := by
  constructor
  · rintro ⟨t,run⟩
    exact ⟨getHeaderWorked run,getHeaderDone run⟩
  · rintro ⟨works,db,here,stored⟩
    have found : (start dir draws).directory chain.path = some db := here
    exact ⟨_,getHeaderLater found (by simp [start]) stored works⟩

theorem getOpenedHeaderExact {sys chain dir draws header} :
    (∃ t, getOpenedHeader sys chain (start dir draws) = (.done header,t)) ↔
      (∀ j < 2, (draws j).ok .database = true) ∧
        ∃ db, dir chain.path = some db ∧ Supported sys db header := by
  constructor
  · rintro ⟨t,run⟩
    obtain ⟨opens,db,u,here,body⟩ := Storage.openWorked run
    have inside : (Storage.within chain.path (start dir draws)).directory chain.path = some db := here
    obtain ⟨finds,supported,_⟩ := (headerFromExact inside).mp body
    refine ⟨fun j below => ?_,db,here,supported⟩
    cases j with
    | zero => exact opens
    | succ j =>
      obtain rfl : j = 0 := by omega
      exact finds
  · rintro ⟨works,db,here,supported⟩
    have inside : (Storage.within chain.path (start dir draws)).directory chain.path = some db := here
    have body := (headerFromExact inside).mpr ⟨works 1 (by decide),supported,spendLater _⟩
    have found : (start dir draws).directory chain.path = some db := here
    exact ⟨_,Storage.openLater found (by simp [start]) (works 0 (by decide)) body⟩

theorem readersAgreeExactly {sys chain dir} : ReadersAgree sys chain dir ↔
    ∀ db header, dir chain.path = some db → storedHeader sys db = some header →
      header.version = DB_VERSION := by
  unfold ReadersAgree
  simp only [getHeaderExact,getOpenedHeaderExact]
  constructor
  · intro agree db header here stored
    obtain ⟨_,other,again,supported⟩ := (agree (fun _ => ⟨fun _ => true,fun _ => 0⟩) header).mp
      ⟨fun _ _ => rfl,db,here,stored⟩
    exact supported.version
  · intro versions draws header
    constructor
    · rintro ⟨works,db,here,stored⟩
      exact ⟨works,db,here,stored,versions db header here stored⟩
    · rintro ⟨works,db,here,supported⟩
      exact ⟨works,db,here,supported.stored⟩

end Chain

namespace Manager

def Result.Refused : Result → Prop
  | .chain result => result = none
  | .block result => result = none
  | .blocks result => result.1 = false
  | .flag result => result = false
  | .header result => result = none
  | .info result => result = none

/- The operations that look into an existing database. -/
def Operation.ReadsDatabase : Operation → Prop
  | .createChain _ | .removeChain => False
  | _ => True

def Refuses (sys : Platform) (manager : Manager) (chainId : UInt64) (dir : Directory)
    (operation : Operation) : Prop :=
  ∀ draws, ∃ result t, perform sys manager chainId operation (start dir draws) = (.done result,t) ∧
    result.Refused

def Unsupported (sys : Platform) (path : Path) (dir : Directory) (header : Header) : Prop :=
  ∃ db, dir path = some db ∧ Chain.storedHeader sys db = some header ∧ header.version ≠ DB_VERSION

section Unsupported
variable {sys : Platform} {manager : Manager} {chainId : UInt64} {dir : Directory} {header : Header}

theorem Unsupported.never {path : Path} (h : Unsupported sys path dir header) {db : Database}
    {other : Header} (here : dir path = some db) : ¬ Chain.Supported sys db other := by
  obtain ⟨own,there,stored,version⟩ := h
  intro supported
  cases here.symm.trans there
  cases stored.symm.trans supported.stored
  exact version supported.version

theorem Unsupported.blocks {chain : Chain} (h : Unsupported sys chain.path dir header)
    (blocks : List Block) {w : World} (same : w.directory = dir) :
    ∃ t, chain.getBlocks sys blocks w = (.done (false,blocks),t) := by
  subst same
  rcases run : chain.getBlocks sys blocks w with ⟨o,t⟩
  cases Chain.getBlocksEnds run with
  | all db other l here supported => exact absurd supported (h.never here)
  | shut => exact ⟨t,rfl⟩
  | stuck db other l here supported => exact absurd supported (h.never here)
  | endless db other here supported => exact absurd supported (h.never here)

theorem refusesOf {α : Type} {m : Action α} {w : World} {f : Option α → Result} (total : Exec.Total m)
    (never : ∀ a t, m w ≠ (.done a,t)) (refused : (f none).Refused) :
    ∃ result t, (Exec.attempt m >>= fun r => pure (f r)) w = (.done result,t) ∧ result.Refused := by
  rcases run : m w with ⟨a | _ | e,t⟩
  · exact absurd run (never a t)
  · exact ⟨f none,t,by rw [Exec.bindOfDone (Exec.attemptNone.mpr run)]; rfl,refused⟩
  · exact absurd run (total w e t)

theorem unsupportedRefused (h : Unsupported sys (manager.makeStoragePath chainId) dir header)
    {operation : Operation} (reads : operation.ReadsDatabase) (header' : operation ≠ .getChainHeader)
    (info : operation ≠ .getChainInfo) : Refuses sys manager chainId dir operation := by
  intro draws
  cases operation with
  | createChain => cases reads
  | removeChain => cases reads
  | getChainHeader => exact absurd rfl header'
  | getChainInfo => exact absurd rfl info
  | addBlock data =>
    refine refusesOf (addBlockTotal sys manager chainId data) (fun block t run => ?_) rfl
    obtain ⟨db,own,_,appended,_⟩ := addBlockDone run
    exact h.never appended.here appended.supported
  | getBlock index =>
    refine refusesOf (Chain.getBlockSteady sys _ index).total (fun block t run => ?_) rfl
    obtain ⟨db,own,here,supported,_⟩ := Chain.getBlockDone run
    exact h.never here supported
  | getBlocks blocks =>
    obtain ⟨t,run⟩ := @Unsupported.blocks sys dir header (manager.chain chainId) h blocks
      (start dir draws) rfl
    exact ⟨.blocks (false,blocks),t,Exec.bindOfDone run,rfl⟩
  | verifyChain =>
    rcases got : (manager.chain chainId).getHeader sys (start dir draws) with ⟨own | _ | e,u⟩
    · have still := ((Chain.getHeaderSteady sys (manager.chain chainId)).quiet.apply got).directory
      obtain ⟨t,run⟩ := @Unsupported.blocks sys dir header (manager.chain chainId) h [] u still
      have refused : verifyChain sys manager chainId (start dir draws) = (.absent,t) := by
        unfold verifyChain
        rw [Exec.bindOfDone got,Exec.bindOfDone run]
        exact Exec.bindOfAbsent (Exec.checkAbsent.mpr ⟨by decide,rfl⟩)
      exact ⟨.flag false,t,Exec.bindOfDone (Exec.attemptNone.mpr refused),rfl⟩
    · have refused : verifyChain sys manager chainId (start dir draws) = (.absent,u) :=
        Exec.bindOfAbsent got
      exact ⟨.flag false,u,Exec.bindOfDone (Exec.attemptNone.mpr refused),rfl⟩
    · exact absurd got ((Chain.getHeaderSteady sys _).total _ e u)

end Unsupported

theorem headerReadersAgreeExactly (sys : Platform) (manager : Manager) (chainId : UInt64)
    (dir : Directory) :
    (Chain.ReadersAgree sys (manager.chain chainId) dir ∧
      ∀ header, Unsupported sys (manager.makeStoragePath chainId) dir header →
        ∀ operation : Operation, operation.ReadsDatabase → Refuses sys manager chainId dir operation) ↔
      ∀ db header, dir (manager.makeStoragePath chainId) = some db →
        Chain.storedHeader sys db = some header → header.version = DB_VERSION := by
  rw [Chain.readersAgreeExactly]
  refine ⟨fun both => both.1,fun versions => ⟨versions,?_⟩⟩
  rintro header ⟨db,here,stored,other⟩
  exact absurd (versions db header here stored) other

def foreignHeader : Header := {sampleHeader with version := 2}

def foreignDirectory : Directory := Function.update emptyDirectory (makeStoragePath ⟨[]⟩ 1)
  (some (DB.applyBatch [(DB_HEADER_KEY,Sample.platform.header.encode foreignHeader.message)] ∅))

theorem foreignHeaderAccepted :
    (∃ t, getChainHeader Sample.platform ⟨[]⟩ 1 (start foreignDirectory (Sample.steady 1)) =
        (.done foreignHeader,t)) ∧
      (∃ t, (chain ⟨[]⟩ 1).getOpenedHeader Sample.platform (start foreignDirectory (Sample.steady 1)) =
        (.absent,t)) ∧
      ¬ Chain.ReadersAgree Sample.platform (chain ⟨[]⟩ 1) foreignDirectory := by
  have accepted := @Exec.outcomeApply _ _ _ (getChainHeader Sample.platform ⟨[]⟩ 1)
    (start foreignDirectory (Sample.steady 1)) (.done foreignHeader) (by decide +kernel)
  have refused := @Exec.outcomeApply _ _ _ ((chain ⟨[]⟩ 1).getOpenedHeader Sample.platform)
    (start foreignDirectory (Sample.steady 1)) .absent (by decide +kernel)
  refine ⟨⟨_,accepted⟩,⟨_,refused⟩,fun agree => ?_⟩
  obtain ⟨t,opened⟩ := (agree (Sample.steady 1) foreignHeader).mp ⟨_,accepted⟩
  cases refused.symm.trans opened

end Manager
end ChainDB
