import ChainDB.ManagerRecords
import ChainDB.SamplePlatform

/-! What the manager builds, and what `verifyChain` says about any database. -/
namespace ChainDB
open Effects HashChain

namespace Manager

def Event.appended (event : Event) : Bool :=
  match event.call.operation,event.outcome with
  | .addBlock _,.done (.block (some _)) => true
  | _,_ => false

def Event.removed (event : Event) : Bool :=
  match event.call.operation,event.outcome with
  | .removeChain,.done (.flag true) => true
  | _,_ => false

inductive Change (sys : Platform) (manager : Manager) (dir : Directory) :
    Event → Option Database → Prop where
  | same (event : Event) (kept : event.appended = false) (standing : event.removed = false) :
      Change sys manager dir event (dir (manager.makeStoragePath event.call.chainId))
  | created (event : Event) (data : Bytes) (privateKey : PrivateKey) (publicKey : PublicKey)
      (operation : event.call.operation = .createChain data)
      (vacant : dir (manager.makeStoragePath event.call.chainId) = none)
      (valid : sys.secp.ecSeckeyVerify privateKey = true)
      (paired : sys.publicKeyOf privateKey = some publicKey)
      (fits : (sys.header.encode (Header.message ⟨DB_VERSION,0,data,privateKey,publicKey⟩)).length ≤
        maxMessageLength) :
      Change sys manager dir event (some (Chain.newDatabase sys data privateKey publicKey))
  | half (event : Event) (data : Bytes) (operation : event.call.operation = .createChain data)
      (vacant : dir (manager.makeStoragePath event.call.chainId) = none)
      (failed : event.failed = true) : Change sys manager dir event (some ∅)
  | appended (event : Event) (data : Bytes) (db : Database) (header : Header) (prevHash : Hash)
      (block : Block) (success : event.appended = true)
      (here : dir (manager.makeStoragePath event.call.chainId) = some db)
      (supported : Chain.Supported sys db header) (composed : Composed sys db data header prevHash block)
      (headerFits : (sys.header.encode (header.setIndex (header.index + 1)).message).length ≤
        maxMessageLength)
      (blockFits : (sys.block.encode block.message).length ≤ maxMessageLength) :
      Change sys manager dir event
        (some (DB.applyBatch (Chain.blockRecords sys header block) db))
  | removed (event : Event) (success : event.removed = true) : Change sys manager dir event none

theorem change (sys : Platform) (manager : Manager) (call : Call) (dir : Directory) :
    Change sys manager dir (event sys manager call dir)
      (after sys manager call dir (manager.makeStoragePath call.chainId)) := by
  obtain ⟨chainId,operation,draws⟩ := call
  by_cases reads : operation.Reads
  · have still : after sys manager ⟨chainId,operation,draws⟩ dir = dir :=
      (readsQuiet sys manager chainId reads (start dir draws)).directory
    rw [still]
    refine .same (event sys manager ⟨chainId,operation,draws⟩ dir) ?_ ?_ <;>
      cases operation <;> first | rfl | cases reads
  · cases operation with
    | createChain data =>
      simp only [event,after,effect,perform,Exec.attemptMap]
      rcases run : createChain sys manager chainId data (start dir draws) with ⟨chain | _ | e,t⟩
      · obtain ⟨rfl,privateKey,publicKey,created⟩ := createChainDone run
        simp only [created.directory,Function.update_self]
        exact .created _ data privateKey publicKey rfl created.vacant created.valid created.paired
          created.fits
      · obtain ⟨_,same | ⟨failed,vacant,half⟩,_⟩ := createChainAbsent run
        · simp only [same]
          exact .same _ rfl rfl
        · simp only [half,Function.update_self]
          exact .half _ data rfl vacant failed
      · exact absurd run (createChainTotal sys manager chainId data _ e t)
    | addBlock data =>
      simp only [event,after,effect,perform,Exec.attemptMap]
      rcases run : addBlock sys manager chainId data (start dir draws) with ⟨block | _ | e,t⟩
      · obtain ⟨db,header,prevHash,appended,composed⟩ := addBlockDone run
        simp only [appended.directory,Function.update_self]
        exact .appended _ data db header prevHash block rfl appended.here appended.supported composed
          appended.headerFits appended.blockFits
      · simp only [(addBlockAbsent run).1.directory]
        exact .same _ rfl rfl
      · exact absurd run (addBlockTotal sys manager chainId data _ e t)
    | removeChain =>
      simp only [event,after,effect,perform,Exec.attemptMap]
      rcases run : removeChain manager chainId (start dir draws) with ⟨u | _ | e,t⟩
      · have gone := (Chain.removeDone run).2
        simp only [gone]
        change Change sys manager dir _ (Function.update dir (manager.makeStoragePath chainId) none _)
        rw [Function.update_self]
        exact .removed _ rfl
      · simp only [(Chain.removeAbsent run).1.directory]
        exact .same _ rfl rfl
      · exact absurd run (Chain.removeTotal _ _ e t)
    | _ => exact absurd trivial reads

def tally (chainId : UInt64) (n : Nat) (event : Event) : Nat :=
  if event.call.chainId = chainId then
    if event.appended then n + 1 else if event.removed then 0 else n
  else n

def additions (chainId : UInt64) (events : List Event) : Nat := events.foldl (tally chainId) 0

theorem additionsSnoc (chainId : UInt64) (events : List Event) (event : Event) :
    additions chainId (events ++ [event]) = tally chainId (additions chainId events) event := by
  simp [additions]

def Built (sys : Platform) (n : Nat) : Option Database → Prop
  | none => n = 0
  | some db => (n = 0 ∧ db.lookup DB_HEADER_KEY = none) ∨
      ∃ ledger : Ledger, ledger.Represents sys db ∧ ledger.Sound sys ∧ ledger.blocks.length = n

theorem builtAfter {sys : Platform} (lawfulHeader : sys.header.Lawful) (lawfulBlock : sys.block.Lawful)
    {manager : Manager} {dir : Directory} {event : Event} {n : Nat} {entry : Option Database}
    (change : Change sys manager dir event entry)
    (earlier : n < 2^64 - 1 → Built sys n (dir (manager.makeStoragePath event.call.chainId)))
    (few : tally event.call.chainId n event < 2^64 - 1) :
    Built sys (tally event.call.chainId n event) entry := by
  cases change with
  | same kept standing =>
    simp only [tally,if_true,kept,standing] at few ⊢
    exact earlier few
  | created data privateKey publicKey operation vacant valid paired fits =>
    have neutral : event.appended = false ∧ event.removed = false := by
      simp [Event.appended,Event.removed,operation]
    simp only [tally,if_true,neutral] at few ⊢
    have built := earlier few
    rw [vacant] at built
    refine Or.inr ⟨Ledger.create data privateKey publicKey,?_,Ledger.soundCreate valid paired,built.symm⟩
    exact Ledger.representsCreate lawfulHeader fits
  | half data operation vacant failed =>
    have neutral : event.appended = false ∧ event.removed = false := by
      simp [Event.appended,Event.removed,operation]
    simp only [tally,if_true,neutral] at few ⊢
    have built := earlier few
    rw [vacant] at built
    exact Or.inl ⟨built,Finmap.lookup_empty _⟩
  | appended data db header prevHash block success here supported composed headerFits blockFits =>
    simp only [tally,if_true,success] at few ⊢
    have built := earlier (by omega)
    rw [here] at built
    rcases built with ⟨_,missing⟩ | ⟨ledger,represents,sound,rfl⟩
    · have stored := supported.stored
      simp [Chain.storedHeader,missing] at stored
    · cases supported.unique represents.supported
      have made := composed.made
      rw [represents.pointsBack composed.back] at made
      refine Or.inr ⟨ledger.append block,?_,Ledger.soundAppend sound made,by simp [Ledger.append]⟩
      exact Ledger.representsAppend lawfulHeader lawfulBlock represents (by omega) headerFits blockFits
  | removed success =>
    have kept : event.appended = false := by
      unfold Event.removed at success
      unfold Event.appended
      split at success
      · simp [*]
      · cases success
    simp [tally,kept,success,Built]

def emptyDirectory : Directory := fun _ => none

def Fewer (bound : Nat) (events : List Event) : Prop :=
  ∀ chainId earlier, earlier <+: events → additions chainId earlier < bound

theorem tallyElsewhere {chainId : UInt64} {event : Event} (other : chainId ≠ event.call.chainId)
    (n : Nat) : tally chainId n event = n := if_neg (Ne.symm other)

theorem tallyLe (chainId : UInt64) (n : Nat) (event : Event) : tally chainId n event ≤ n + 1 := by
  unfold tally
  split
  · split
    · exact Nat.le_refl _
    · split <;> omega
  · omega

theorem additionsLe (chainId : UInt64) (events : List Event) :
    additions chainId events ≤ events.length := by
  induction events using List.reverseRecOn with
  | nil => exact Nat.le_refl 0
  | append_singleton events event ih =>
    have last := tallyLe chainId (additions chainId events) event
    rw [additionsSnoc,List.length_append,List.length_singleton]
    omega

theorem fewerOfLength {bound : Nat} {events : List Event} (short : events.length < bound) :
    Fewer bound events := fun chainId earlier before =>
  Nat.lt_of_le_of_lt (additionsLe chainId earlier) (Nat.lt_of_le_of_lt before.length_le short)

theorem runTallied {sys : Platform} {manager : Manager} {P : Nat → Option Database → Prop}
    (first : P 0 none)
    (step : ∀ dir event entry n, Change sys manager dir event entry →
      (n < 2^64 - 1 → P n (dir (manager.makeStoragePath event.call.chainId))) →
      tally event.call.chainId n event < 2^64 - 1 → P (tally event.call.chainId n event) entry)
    (calls : List Call) (chainId : UInt64)
    (few : additions chainId (run sys manager emptyDirectory calls).1 < 2^64 - 1) :
    P (additions chainId (run sys manager emptyDirectory calls).1)
      ((run sys manager emptyDirectory calls).2 (manager.makeStoragePath chainId)) := by
  refine @runKeeps sys manager (fun events dir => additions chainId events < 2^64 - 1 →
    P (additions chainId events) (dir (manager.makeStoragePath chainId))) emptyDirectory ?_ ?_ calls few
  · exact fun _ => first
  · intro events dir call inv now
    rw [additionsSnoc] at now ⊢
    by_cases own : chainId = call.chainId
    · subst own
      exact step _ _ _ _ (change sys manager call dir) inv now
    · rw [tallyElsewhere own] at now ⊢
      rw [afterElsewhere own]
      exact inv now

theorem runBuilt {sys : Platform} (lawfulHeader : sys.header.Lawful) (lawfulBlock : sys.block.Lawful)
    (manager : Manager) (calls : List Call) (chainId : UInt64)
    (few : additions chainId (run sys manager emptyDirectory calls).1 < 2^64 - 1) :
    Built sys (additions chainId (run sys manager emptyDirectory calls).1)
      ((run sys manager emptyDirectory calls).2 (manager.makeStoragePath chainId)) :=
  @runTallied sys manager (Built sys) rfl
    (fun _ _ _ _ => builtAfter lawfulHeader lawfulBlock) calls chainId few

theorem soundVerified {sys : Platform} (signatures : sys.SignaturesVerify) {ledger : Ledger}
    {db : Database} (represents : ledger.Represents sys db) (sound : ledger.Sound sys) :
    Chain.Verified sys db ledger.header ledger.blocks := by
  have bounded : ledger.header.index.toNat + 1 < 2^64 := by
    rw [represents.size]
    exact represents.short
  exact ⟨represents.supported,bounded,represents.size.symm,represents.blocks,sound.sealed signatures⟩

theorem builtVerified {sys : Platform} (signatures : sys.SignaturesVerify) {n : Nat} {db : Database}
    (built : Built sys n (some db)) (held : db.lookup DB_HEADER_KEY ≠ none) :
    ∃ header blocks, Chain.Verified sys db header blocks := by
  rcases built with ⟨_,missing⟩ | ⟨ledger,represents,sound,_⟩
  · exact absurd missing held
  · exact ⟨_,_,soundVerified signatures represents sound⟩

theorem everyBuiltChainVerifies {sys : Platform} (lawfulHeader : sys.header.Lawful)
    (lawfulBlock : sys.block.Lawful) (signatures : sys.SignaturesVerify) (manager : Manager)
    (calls : List Call) (few : Fewer (2^64 - 1) (run sys manager emptyDirectory calls).1)
    (earlier : List Call) (reached : earlier <+: calls) (chainId : UInt64) (db : Database)
    (here : (run sys manager emptyDirectory earlier).2 (manager.makeStoragePath chainId) = some db)
    (held : db.lookup DB_HEADER_KEY ≠ none) (draws : Draws)
    (clean : (verifyChain sys manager chainId
      (start (run sys manager emptyDirectory earlier).2 draws)).2.failed = false) :
    ∃ t, verifyChain sys manager chainId
      (start (run sys manager emptyDirectory earlier).2 draws) = (.done (),t) := by
  have built := runBuilt lawfulHeader lawfulBlock manager earlier chainId
    (few chainId _ (runPrefix reached))
  rw [here] at built
  obtain ⟨header,blocks,verified⟩ := builtVerified signatures built held
  exact verifyChainHolds here (by simp [start]) verified clean

def sampleCalls : List Call := [
  ⟨1,.createChain (ascii "\x7b\x7d"),Sample.steady 1⟩,
  ⟨1,.addBlock (ascii "a"),Sample.steady 1⟩,
  ⟨1,.addBlock (ascii "b"),fun _ => ⟨fun kind => decide (kind ≠ .secp),fun _ => 0⟩⟩]

theorem sampleRunVerifies :
    ∃ t, verifyChain Sample.platform ⟨[]⟩ 1
      (start (run Sample.platform ⟨[]⟩ emptyDirectory sampleCalls).2 (Sample.steady 1)) =
        (.done (),t) :=
  everyBuiltChainVerifies Sample.headerLawful Sample.blockLawful Sample.signaturesVerify ⟨[]⟩
    sampleCalls (fewerOfLength (by decide +kernel)) sampleCalls (List.prefix_refl _) 1 _
    (Option.eq_some_of_isSome (by decide +kernel)) (by decide +kernel) (Sample.steady 1)
    (by decide +kernel)

end Manager
end ChainDB
