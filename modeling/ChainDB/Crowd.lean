import ChainDB.Library.Transition
import ChainDB.Concurrency

/-! Any number of processes on one storage directory: creations, removals and reads, which are one
session or change nothing, and any number of `addBlock` calls whose sessions come in any order. A process
that dies is one whose call takes no further session. -/
namespace ChainDB
open Effects Transition

namespace Crowd
open Manager

inductive Event where
  | created (chainId : UInt64) (data : Bytes)
  | removed (chainId : UInt64)
  | appended (chainId : UInt64) (k : Nat) (block : Block) (fresh : Bool)

def Event.chainId : Event → UInt64
  | .created chainId _ => chainId
  | .removed chainId => chainId
  | .appended chainId _ _ _ => chainId

/-- One `addBlock` call; `since` is a ghost, the number of events at its first session. -/
structure Adder where
  chainId : UInt64
  writer : Writer
  since : Nat

structure State where
  directory : Directory
  adders : List Adder
  log : List Event

inductive Label where
  | create (chainId : UInt64) (data : Bytes) (draws : Draws)
  | remove (chainId : UInt64) (draws : Draws)
  | look (chainId : UInt64) (operation : Operation) (draws : Draws)
  | add (chainId : UInt64) (data : Bytes) (draws : Draws)
  | advance (k : Nat)

def vacant : State := ⟨emptyDirectory,[],[]⟩

def State.settle (s : State) (directory : Directory) (events : List Event) : State :=
  {s with directory := directory,log := s.log ++ events}

def creation (chainId : UInt64) (data : Bytes) : Outcome Halt Result → List Event
  | .done (.chain (some _)) => [.created chainId data]
  | _ => []

def removal (chainId : UInt64) : Outcome Halt Result → List Event
  | .done (.flag true) => [.removed chainId]
  | _ => []

def State.untouched (s : State) (adder : Adder) : Bool :=
  (s.log.drop adder.since).all fun event => decide (event.chainId ≠ adder.chainId)

def beginning : Phase → Bool
  | .begun => true
  | _ => false

def State.session (sys : Platform) (manager : Manager) (s : State) (adder : Adder) : Writer × Directory :=
  Manager.advance sys (manager.chain adder.chainId) adder.writer s.directory

def State.advanced (sys : Platform) (manager : Manager) (s : State) (adder : Adder) : Adder :=
  ⟨adder.chainId,(s.session sys manager adder).1,
    if beginning adder.writer.phase then s.log.length else adder.since⟩

def State.appending (sys : Platform) (manager : Manager) (s : State) (k : Nat) (adder : Adder) : List Event :=
  if adder.writer.returned = [] then
    (s.session sys manager adder).1.returned.map fun block =>
      .appended adder.chainId k block (s.untouched adder)
  else []

def State.advance (sys : Platform) (manager : Manager) (s : State) (k : Nat) (adder : Adder) : State :=
  ⟨(s.session sys manager adder).2,s.adders.set k (s.advanced sys manager adder),
    s.log ++ s.appending sys manager k adder⟩

def step (sys : Platform) (manager : Manager) : Step State Label
  | s,.create chainId data draws =>
    let ran := effect sys manager ⟨chainId,.createChain data,draws⟩ s.directory
    some (s.settle ran.2.directory (creation chainId data ran.1))
  | s,.remove chainId draws =>
    let ran := effect sys manager ⟨chainId,.removeChain,draws⟩ s.directory
    some (s.settle ran.2.directory (removal chainId ran.1))
  | s,.look chainId operation draws =>
    if operation.Reads then some (s.settle (after sys manager ⟨chainId,operation,draws⟩ s.directory) [])
    else none
  | s,.add chainId data draws =>
    some {s with adders := s.adders ++ [⟨chainId,⟨data,start s.directory draws,.begun⟩,0⟩]}
  | s,.advance k => s.adders[k]?.map fun adder => s.advance sys manager k adder

structure View where
  data : Bytes
  blocks : List Block
  fresh : Bool
  deriving DecidableEq

def observe (chainId : UInt64) (view : Option View) (event : Event) : Option View :=
  if event.chainId = chainId then
    match event with
    | .created _ data => some ⟨data,[],true⟩
    | .removed _ => none
    | .appended _ _ block fresh =>
      view.map fun view => ⟨view.data,view.blocks ++ [block],view.fresh && fresh⟩
  else view

def State.view (s : State) (chainId : UInt64) : Option View := s.log.foldl (observe chainId) none

def blockOf (k : Nat) : Event → Option Block
  | .appended _ j block _ => if j = k then some block else none
  | _ => none

def State.stored (s : State) (k : Nat) : List Block := s.log.filterMap (blockOf k)

/-- A chain that is not there may have left a database without a header. -/
inductive Holds (sys : Platform) : Option View → Option Database → Prop where
  | gone (entry : Option Database) (bare : ∀ db, entry = some db → db.lookup DB_HEADER_KEY = none) :
      Holds sys none entry
  | here (view : View) (db : Database) (ledger : Ledger) (represents : ledger.Represents sys db)
      (data : ledger.data = view.data) (blocks : ledger.blocks = view.blocks)
      (sound : view.fresh = true → ledger.Sound sys) : Holds sys (some view) (some db)

structure Known (sys : Platform) (manager : Manager) (s : State) (k : Nat) (adder : Adder) : Prop where
  stored : s.stored k = adder.writer.returned
  since : adder.since ≤ s.log.length
  fresh : s.untouched adder = true → ∀ db ledger,
    s.directory (manager.makeStoragePath adder.chainId) = some db → Ledger.Represents sys ledger db →
    Fresh sys ledger adder.writer.phase

structure Accounted (sys : Platform) (manager : Manager) (s : State) : Prop where
  chains : ∀ chainId, Holds sys (s.view chainId) (s.directory (manager.makeStoragePath chainId))
  adders : ∀ k adder, s.adders[k]? = some adder → Known sys manager s k adder
  others : ∀ k, s.adders[k]? = none → s.stored k = []

section Accounts
variable {sys : Platform} {manager : Manager} {s t : State} {chainId : UInt64} {events : List Event}

theorem observeElsewhere {other : UInt64} (apart : other ≠ chainId)
    (own : ∀ event ∈ events, event.chainId = chainId) (view : Option View) :
    events.foldl (observe other) view = view := by
  induction events generalizing view with
  | nil => rfl
  | cons event rest ih =>
    have mine := own event List.mem_cons_self
    have none : observe other view event = view := if_neg fun same => apart (same.symm.trans mine)
    rw [List.foldl_cons,none]
    exact ih (fun event member => own event (List.mem_cons_of_mem _ member)) view

theorem viewShort (log : List Event) {view : View} (here : log.foldl (observe chainId) none = some view) :
    view.blocks.length ≤ log.length := by
  induction log using List.reverseRecOn generalizing view with
  | nil => cases here
  | append_singleton log event ih =>
    rw [List.foldl_append,List.foldl_cons,List.foldl_nil] at here
    rw [List.length_append,List.length_singleton]
    unfold observe at here
    split at here
    · cases event with
      | created _ data =>
        cases here
        exact Nat.zero_le _
      | removed _ => cases here
      | appended _ _ block fresh =>
        obtain ⟨before,found,rfl⟩ := Option.map_eq_some_iff.mp here
        have short := ih found
        rw [List.length_append,List.length_singleton]
        omega
    · exact Nat.le_succ_of_le (ih here)

structure Moves (sys : Platform) (manager : Manager) (s : State) (chainId : UInt64) (events : List Event)
    (t : State) : Prop where
  log : t.log = s.log ++ events
  own : ∀ event ∈ events, event.chainId = chainId
  elsewhere : ∀ other, other ≠ chainId →
    t.directory (manager.makeStoragePath other) = s.directory (manager.makeStoragePath other)
  holds : Holds sys (events.foldl (observe chainId) (s.view chainId))
    (t.directory (manager.makeStoragePath chainId))
  still : events = [] → ∀ db ledger, t.directory (manager.makeStoragePath chainId) = some db →
    Ledger.Represents sys ledger db → s.directory (manager.makeStoragePath chainId) = some db

theorem Moves.chains (moves : Moves sys manager s chainId events t)
    (accounted : Accounted sys manager s) (other : UInt64) :
    Holds sys (t.view other) (t.directory (manager.makeStoragePath other)) := by
  rw [State.view,moves.log,List.foldl_append]
  by_cases own : other = chainId
  · subst own
    exact moves.holds
  · rw [observeElsewhere own moves.own,moves.elsewhere other own]
    exact accounted.chains other

theorem Moves.stored (moves : Moves sys manager s chainId events t) (k : Nat) :
    t.stored k = s.stored k ++ events.filterMap (blockOf k) := by
  rw [State.stored,moves.log,List.filterMap_append,State.stored]

theorem Moves.untouched (moves : Moves sys manager s chainId events t) {adder : Adder}
    (since : adder.since ≤ s.log.length) (quiet : t.untouched adder = true) :
    s.untouched adder = true ∧ (adder.chainId = chainId → events = []) := by
  have later : events.drop (adder.since - s.log.length) = events := by
    rw [Nat.sub_eq_zero_of_le since,List.drop_zero]
  rw [State.untouched,moves.log,List.drop_append,List.all_append,Bool.and_eq_true,later] at quiet
  refine ⟨quiet.1,fun own => List.eq_nil_iff_forall_not_mem.mpr fun event member => ?_⟩
  have apart := of_decide_eq_true (List.all_eq_true.mp quiet.2 event member)
  exact apart ((moves.own event member).trans own.symm)

theorem Moves.bystander (moves : Moves sys manager s chainId events t) {k : Nat} {adder : Adder}
    (known : Known sys manager s k adder) (none : events.filterMap (blockOf k) = []) :
    Known sys manager t k adder where
  stored := by rw [moves.stored,none,List.append_nil,known.stored]
  since := by
    rw [moves.log,List.length_append]
    exact Nat.le_add_right_of_le known.since
  fresh quiet db ledger here represents := by
    obtain ⟨before,silent⟩ := moves.untouched known.since quiet
    refine known.fresh before db ledger ?_ represents
    by_cases own : adder.chainId = chainId
    · rw [own] at here ⊢
      exact moves.still (silent own) db ledger here represents
    · rwa [moves.elsewhere _ own] at here

theorem Moves.settled (moves : Moves sys manager s chainId events t) (accounted : Accounted sys manager s)
    (same : t.adders = s.adders) (none : ∀ k, events.filterMap (blockOf k) = []) :
    Accounted sys manager t where
  chains := moves.chains accounted
  adders k adder here := by
    rw [same] at here
    exact moves.bystander (accounted.adders k adder here) (none k)
  others k gone := by
    rw [same] at gone
    rw [moves.stored,none,accounted.others k gone,List.append_nil]

theorem vacantAccounted (sys : Platform) (manager : Manager) : Accounted sys manager vacant where
  chains chainId := .gone none fun db here => by cases here
  adders k adder here := by cases here
  others k _ := rfl

theorem bareHolds {view : Option View} (holds : Holds sys view none) : view = none := by
  cases holds
  rfl

theorem unheaded {ledger : Ledger} {db : Database} (represents : ledger.Represents sys db) :
    db.lookup DB_HEADER_KEY ≠ none := by
  intro missing
  have stored := represents.header
  rw [Chain.storedHeader,missing] at stored
  cases stored

theorem quietMoves (accounted : Accounted sys manager s) {directory : Directory}
    (elsewhere : ∀ other, other ≠ chainId →
      directory (manager.makeStoragePath other) = s.directory (manager.makeStoragePath other))
    (still : directory (manager.makeStoragePath chainId) = s.directory (manager.makeStoragePath chainId) ∨
      s.directory (manager.makeStoragePath chainId) = none ∧
        directory (manager.makeStoragePath chainId) = some ∅) :
    Moves sys manager s chainId [] (s.settle directory []) where
  log := rfl
  own event member := by cases member
  elsewhere := elsewhere
  holds := by
    have before := accounted.chains chainId
    change Holds sys (s.view chainId) (directory (manager.makeStoragePath chainId))
    rcases still with same | ⟨vacant,half⟩
    · rwa [same]
    · rw [vacant] at before
      rw [bareHolds before,half]
      refine .gone _ fun db here => ?_
      cases here
      exact Finmap.lookup_empty _
  still _ db ledger here represents := by
    rcases still with same | ⟨_,half⟩
    · exact same.symm.trans here
    · cases half.symm.trans here
      exact absurd (Finmap.lookup_empty _) (unheaded represents)

theorem createMoves (lawfulHeader : sys.header.Lawful) (accounted : Accounted sys manager s) (data : Bytes)
    (draws : Draws) (moved : step sys manager s (.create chainId data draws) = some t) :
    t.adders = s.adders ∧ ∃ events, Moves sys manager s chainId events t ∧
      (∀ k, events.filterMap (blockOf k) = []) ∧ events.length ≤ 1 := by
  have elsewhere : ∀ other, other ≠ chainId →
      after sys manager ⟨chainId,.createChain data,draws⟩ s.directory (manager.makeStoragePath other) =
        s.directory (manager.makeStoragePath other) := fun other apart => afterElsewhere apart
  simp only [step,after,effect,perform,Exec.attemptMap,Option.some.injEq] at moved elsewhere
  rcases run : createChain sys manager chainId data (start s.directory draws) with ⟨chain | _ | e,u⟩
  · simp only [run] at moved elsewhere
    subst moved
    obtain ⟨_,privateKey,publicKey,created⟩ := createChainDone run
    refine ⟨rfl,[.created chainId data],⟨rfl,fun event member => ?_,elsewhere,?_,
      fun none => by cases none⟩,fun _ => rfl,Nat.le_refl 1⟩
    · rw [List.mem_singleton.mp member]
      rfl
    · have made : observe chainId (s.view chainId) (.created chainId data) = some ⟨data,[],true⟩ := if_pos rfl
      change Holds sys (observe chainId (s.view chainId) (.created chainId data))
        (u.directory (manager.makeStoragePath chainId))
      rw [made,created.directory,Function.update_self]
      exact .here _ _ (Ledger.create data privateKey publicKey)
        (Ledger.representsCreate lawfulHeader created.fits) rfl rfl
        fun _ => Ledger.soundCreate created.valid created.paired
  · simp only [run] at moved elsewhere
    subst moved
    obtain ⟨_,still,_⟩ := createChainAbsent run
    refine ⟨rfl,[],quietMoves accounted elsewhere ?_,fun _ => rfl,Nat.zero_le 1⟩
    rcases still with same | ⟨_,bare,half⟩
    · exact Or.inl (by rw [same]; rfl)
    · exact Or.inr ⟨bare,by rw [half,Function.update_self]⟩
  · exact absurd run (createChainTotal sys manager chainId data _ e u)

theorem removeMoves (accounted : Accounted sys manager s) (draws : Draws)
    (moved : step sys manager s (.remove chainId draws) = some t) :
    t.adders = s.adders ∧ ∃ events, Moves sys manager s chainId events t ∧
      (∀ k, events.filterMap (blockOf k) = []) ∧ events.length ≤ 1 := by
  have elsewhere : ∀ other, other ≠ chainId →
      after sys manager ⟨chainId,.removeChain,draws⟩ s.directory (manager.makeStoragePath other) =
        s.directory (manager.makeStoragePath other) := fun other apart => afterElsewhere apart
  simp only [step,after,effect,perform,Exec.attemptMap,Option.some.injEq] at moved elsewhere
  rcases run : removeChain manager chainId (start s.directory draws) with ⟨x | _ | e,u⟩
  · simp only [run] at moved elsewhere
    subst moved
    refine ⟨rfl,[.removed chainId],⟨rfl,fun event member => ?_,elsewhere,?_,
      fun none => by cases none⟩,fun _ => rfl,Nat.le_refl 1⟩
    · rw [List.mem_singleton.mp member]
      rfl
    · have gone : u.directory (manager.makeStoragePath chainId) = none := by
        rw [(Chain.removeDone run).2]
        exact Function.update_self ..
      have none : observe chainId (s.view chainId) (.removed chainId) = none := if_pos rfl
      change Holds sys (observe chainId (s.view chainId) (.removed chainId))
        (u.directory (manager.makeStoragePath chainId))
      rw [none,gone]
      exact .gone _ fun db here => by cases here
  · simp only [run] at moved elsewhere
    subst moved
    have same : u.directory = s.directory := (Chain.removeAbsent run).1.directory
    exact ⟨rfl,[],quietMoves accounted elsewhere (Or.inl (by rw [same])),fun _ => rfl,Nat.zero_le 1⟩
  · exact absurd run (Chain.removeTotal _ _ e u)

theorem lookMoves (accounted : Accounted sys manager s) {operation : Operation} (draws : Draws)
    (moved : step sys manager s (.look chainId operation draws) = some t) :
    t.adders = s.adders ∧ ∃ events, Moves sys manager s chainId events t ∧
      (∀ k, events.filterMap (blockOf k) = []) ∧ events.length ≤ 1 := by
  simp only [step,Option.ite_none_right_eq_some,Option.some.injEq] at moved
  obtain ⟨reads,rfl⟩ := moved
  have same : after sys manager ⟨chainId,operation,draws⟩ s.directory = s.directory :=
    (readsQuiet sys manager chainId reads (start s.directory draws)).directory
  rw [same]
  exact ⟨rfl,[],quietMoves accounted (fun _ _ => rfl) (Or.inl rfl),fun _ => rfl,Nat.zero_le 1⟩

theorem advanceReaches {chain : Chain} {dir : Directory} (writer : Writer) :
    ((Manager.advance sys chain writer dir).2 = dir ∧
      (Manager.advance sys chain writer dir).1.returned = writer.returned) ∨
    ∃ db header entry, dir chain.path = some db ∧ Chain.Supported sys db header ∧
      (Manager.advance sys chain writer dir).2 = Function.update dir chain.path entry := by
  obtain ⟨data,world,phase⟩ := writer
  cases phase with
  | begun =>
    have steady := Chain.getHeaderSteady sys chain
    rcases run : chain.getHeader sys ((Writer.mk data world .begun).enter dir) with ⟨header | _ | e,t⟩
    · rw [advanceDone ⟨data,world,.begun⟩ dir rfl run]
      exact Or.inl ⟨(steady.quiet.apply run).directory,rfl⟩
    · rw [advanceAbsent ⟨data,world,.begun⟩ dir rfl run]
      exact Or.inl ⟨(steady.quiet.apply run).directory,rfl⟩
    · exact absurd run (steady.total _ e t)
  | read header =>
    have steady := previousHashSteady sys chain header
    rcases run : previousHash sys chain header ((Writer.mk data world (.read header)).enter dir) with
      ⟨prevHash | _ | e,t⟩
    · rw [advanceDone ⟨data,world,.read header⟩ dir rfl run]
      exact Or.inl ⟨(steady.quiet.apply run).directory,rfl⟩
    · rw [advanceAbsent ⟨data,world,.read header⟩ dir rfl run]
      exact Or.inl ⟨(steady.quiet.apply run).directory,rfl⟩
    · exact absurd run (steady.total _ e t)
  | linked header prevHash =>
    rcases run : Writer.finish sys chain header prevHash data
      ((Writer.mk data world (.linked header prevHash)).enter dir) with ⟨block | _ | e,t⟩
    · rw [advanceDone ⟨data,world,.linked header prevHash⟩ dir rfl run]
      obtain ⟨_,db,current,appended⟩ := finishDone run
      exact Or.inr ⟨db,current,_,appended.here,appended.supported,appended.directory⟩
    · rw [advanceAbsent ⟨data,world,.linked header prevHash⟩ dir rfl run]
      exact Or.inl ⟨(finishAbsent run).directory,rfl⟩
    · exact absurd run (finishTotal sys chain header prevHash data _ e t)
  | ended result =>
    rw [advanceEnded]
    exact Or.inl ⟨rfl,rfl⟩

theorem advanceElsewhere {chain : Chain} {dir : Directory} (writer : Writer) {path : Path}
    (other : path ≠ chain.path) : (Manager.advance sys chain writer dir).2 path = dir path := by
  obtain ⟨same,_⟩ | ⟨_,_,_,_,_,wrote⟩ := @advanceReaches sys chain dir writer
  · rw [same]
  · rw [wrote,Function.update_of_ne other]

theorem freshBegun {ledger : Ledger} {phase : Phase} (first : beginning phase = true) :
    Fresh sys ledger phase := by
  cases phase with
  | begun => trivial
  | _ => cases first

section Advance
variable {k : Nat} {adder : Adder}

theorem advancedAt (here : s.adders[k]? = some adder) :
    (s.advance sys manager k adder).adders[k]? = some (s.advanced sys manager adder) :=
  List.getElem?_set_self (List.getElem?_eq_some_iff.mp here).1

theorem advancedSince (known : Known sys manager s k adder) :
    (s.advanced sys manager adder).since ≤ s.log.length := by
  unfold State.advanced
  dsimp only
  split
  · exact Nat.le_refl _
  · exact known.since

theorem readStands (known : Known sys manager s k adder)
    (quiet : s.untouched (s.advanced sys manager adder) = true) {db : Database} {ledger : Ledger}
    (here : s.directory (manager.makeStoragePath adder.chainId) = some db)
    (represents : ledger.Represents sys db) : Fresh sys ledger adder.writer.phase := by
  cases first : beginning adder.writer.phase with
  | true => exact freshBegun first
  | false =>
    have same : (s.advanced sys manager adder).since = adder.since := by
      rw [State.advanced,first]
      rfl
    rw [State.untouched,same] at quiet
    exact known.fresh quiet db ledger here represents

theorem Moves.advanced (moves : Moves sys manager s adder.chainId events (s.advance sys manager k adder))
    (here : s.adders[k]? = some adder) (accounted : Accounted sys manager s)
    (others : ∀ j, j ≠ k → events.filterMap (blockOf j) = [])
    (known : Known sys manager (s.advance sys manager k adder) k (s.advanced sys manager adder)) :
    Accounted sys manager (s.advance sys manager k adder) where
  chains := moves.chains accounted
  adders j found there := by
    by_cases mine : j = k
    · subst mine
      cases (advancedAt here).symm.trans there
      exact known
    · rw [State.advance,List.getElem?_set_ne (Ne.symm mine)] at there
      exact moves.bystander (accounted.adders j found there) (others j mine)
  others j gone := by
    by_cases mine : j = k
    · subst mine
      cases (advancedAt here).symm.trans gone
    · rw [State.advance,List.getElem?_set_ne (Ne.symm mine)] at gone
      rw [moves.stored,others j mine,accounted.others j gone,List.append_nil]

theorem advanceQuiet (here : s.adders[k]? = some adder) (accounted : Accounted sys manager s)
    (same : (s.session sys manager adder).2 = s.directory)
    (returned : (s.session sys manager adder).1.returned = adder.writer.returned)
    (fresh : ∀ db ledger, s.directory (manager.makeStoragePath adder.chainId) = some db →
      Ledger.Represents sys ledger db → Fresh sys ledger adder.writer.phase →
      Fresh sys ledger (s.session sys manager adder).1.phase) :
    Accounted sys manager (s.advance sys manager k adder) ∧
      (s.advance sys manager k adder).log = s.log ++ [] := by
  have known := accounted.adders k adder here
  have silent : s.appending sys manager k adder = [] := by
    rw [State.appending,returned]
    split
    · rename_i none
      rw [none,List.map_nil]
    · rfl
  have log : (s.advance sys manager k adder).log = s.log ++ [] := by rw [State.advance,silent]
  have moves : Moves sys manager s adder.chainId [] (s.advance sys manager k adder) := {
    log := log
    own := fun event member => by cases member
    elsewhere := fun other apart => by rw [State.advance,same]
    holds := by
      rw [State.advance,same]
      exact accounted.chains adder.chainId
    still := fun _ db ledger there _ => by rwa [State.advance,same] at there}
  refine ⟨moves.advanced here accounted (fun _ _ => rfl) ⟨?_,?_,?_⟩,log⟩
  · rw [moves.stored,List.filterMap_nil,List.append_nil,known.stored]
    exact returned.symm
  · rw [log,List.append_nil]
    exact advancedSince known
  · intro quiet db ledger there represents
    rw [State.advance,silent,List.append_nil] at quiet
    rw [State.advance,same] at there
    exact fresh db ledger there represents (readStands known quiet there represents)

theorem advanceWrote (here : s.adders[k]? = some adder) (accounted : Accounted sys manager s)
    {view : View} (seen : s.view adder.chainId = some view) {db db' : Database} {ledger : Ledger}
    (entry : s.directory (manager.makeStoragePath adder.chainId) = some db)
    (represents : ledger.Represents sys db) (data : ledger.data = view.data)
    (blocks : ledger.blocks = view.blocks) (sound : view.fresh = true → ledger.Sound sys) {block : Block}
    (before : adder.writer.returned = [])
    (returned : (s.session sys manager adder).1.returned = [block])
    (ended : ∃ result, (s.session sys manager adder).1.phase = .ended result)
    (wrote : (s.session sys manager adder).2 (manager.makeStoragePath adder.chainId) = some db')
    (represents' : (ledger.append block).Represents sys db')
    (sound' : Fresh sys ledger adder.writer.phase → ledger.Sound sys → (ledger.append block).Sound sys) :
    Accounted sys manager (s.advance sys manager k adder) ∧ (s.advance sys manager k adder).log =
      s.log ++ [.appended adder.chainId k block (s.untouched adder)] := by
  have known := accounted.adders k adder here
  have log : (s.advance sys manager k adder).log =
      s.log ++ [.appended adder.chainId k block (s.untouched adder)] := by
    rw [State.advance,State.appending,if_pos before,returned]
    rfl
  have next : observe adder.chainId (some view) (.appended adder.chainId k block (s.untouched adder)) =
      some ⟨view.data,view.blocks ++ [block],view.fresh && s.untouched adder⟩ := if_pos rfl
  have holds : Holds sys (some ⟨view.data,view.blocks ++ [block],view.fresh && s.untouched adder⟩)
      (some db') := by
    refine .here _ db' (ledger.append block) represents' data ?_ fun fresh => ?_
    · rw [Ledger.append,blocks]
    · obtain ⟨clean,untouched⟩ := Bool.and_eq_true_iff.mp fresh
      exact sound' (known.fresh untouched db ledger entry represents) (sound clean)
  have moves : Moves sys manager s adder.chainId
      [.appended adder.chainId k block (s.untouched adder)] (s.advance sys manager k adder) := {
    log := log
    own := fun event member => by
      rw [List.mem_singleton.mp member]
      rfl
    elsewhere := fun other apart =>
      advanceElsewhere adder.writer fun same => apart (makeStoragePathInjective same)
    holds := by
      have now : (s.advance sys manager k adder).directory (manager.makeStoragePath adder.chainId) =
        some db' := wrote
      rw [List.foldl_cons,List.foldl_nil,seen,next,now]
      exact holds
    still := fun none => by cases none}
  refine ⟨moves.advanced here accounted (fun j other => ?_) ⟨?_,?_,?_⟩,log⟩
  · exact List.filterMap_cons_none (if_neg (Ne.symm other))
  · have last : [Event.appended adder.chainId k block (s.untouched adder)].filterMap (blockOf k) =
        [block] := List.filterMap_cons_some (if_pos rfl)
    rw [moves.stored,known.stored,before,last]
    exact returned.symm
  · rw [log,List.length_append]
    exact Nat.le_add_right_of_le (advancedSince known)
  · intro _ _ ledger' _ _
    obtain ⟨result,phase⟩ := ended
    change Fresh sys ledger' (s.session sys manager adder).1.phase
    rw [phase]
    trivial

theorem advanceAccounted (lawfulHeader : sys.header.Lawful) (lawfulBlock : sys.block.Lawful)
    (accounted : Accounted sys manager s) (few : s.log.length + 2 < 2^64)
    (moved : step sys manager s (.advance k) = some t) :
    Accounted sys manager t ∧ ∃ events, t.log = s.log ++ events ∧ events.length ≤ 1 := by
  obtain ⟨adder,here,rfl⟩ := Option.map_eq_some_iff.mp moved
  have holds := accounted.chains adder.chainId
  generalize seen : s.view adder.chainId = view at holds
  generalize entry : s.directory (manager.makeStoragePath adder.chainId) = stored at holds
  cases holds with
  | gone _ missing =>
    have bare : ∀ db ledger, s.directory (manager.makeStoragePath adder.chainId) = some db →
        ¬ Ledger.Represents sys ledger db := fun db ledger there represents =>
      unheaded represents (missing db (entry.symm.trans there))
    obtain ⟨same,returned⟩ | ⟨db,header,_,there,supported,_⟩ :=
      @advanceReaches sys (manager.chain adder.chainId) s.directory adder.writer
    · obtain ⟨after,log⟩ := advanceQuiet here accounted same returned
        fun db ledger there represents => absurd represents (bare db ledger there)
      exact ⟨after,[],log,Nat.zero_le 1⟩
    · have stored := supported.stored
      rw [Chain.storedHeader,missing db (entry.symm.trans there)] at stored
      cases stored
  | here view db ledger represents data blocks sound =>
    have room : ledger.blocks.length + 2 < 2^64 := by
      have short := viewShort s.log seen
      rw [blocks]
      omega
    have own : s.directory (manager.chain adder.chainId).path = some db := entry
    cases advanceCases lawfulHeader lawfulBlock adder.writer own represents (fun _ => room) with
    | quiet same returned ended fresh =>
      obtain ⟨after,log⟩ := advanceQuiet here accounted same returned
        fun db' ledger' there' represents' => by
          cases entry.symm.trans there'
          cases represents.unique represents'
          exact fresh
      exact ⟨after,[],log,Nat.zero_le 1⟩
    | wrote block db' before running returned ended there' represents' sound' =>
      obtain ⟨after,log⟩ := advanceWrote here accounted seen entry represents data blocks sound before
        returned ended there' represents' sound'
      exact ⟨after,_,log,Nat.le_refl 1⟩

end Advance

theorem addAccounted (accounted : Accounted sys manager s) {data : Bytes} {draws : Draws}
    (moved : step sys manager s (.add chainId data draws) = some t) :
    Accounted sys manager t ∧ t.log = s.log := by
  cases moved
  refine ⟨⟨accounted.chains,fun k adder here => ?_,fun k gone => ?_⟩,rfl⟩
  · by_cases old : k < s.adders.length
    · rw [List.getElem?_append_left old] at here
      have known := accounted.adders k adder here
      exact ⟨known.stored,known.since,known.fresh⟩
    · have at_ := (List.getElem?_append_right (Nat.not_lt.mp old)).symm.trans here
      cases List.mem_singleton.mp (List.mem_of_getElem? at_)
      exact ⟨accounted.others k (List.getElem?_eq_none (Nat.not_lt.mp old)),Nat.zero_le _,
        fun _ _ _ _ _ => trivial⟩
  · refine accounted.others k (List.getElem?_eq_none ?_)
    have beyond := List.getElem?_eq_none_iff.mp gone
    rw [List.length_append] at beyond
    exact Nat.le_of_add_right_le beyond

theorem stepAccounted (lawfulHeader : sys.header.Lawful) (lawfulBlock : sys.block.Lawful)
    (accounted : Accounted sys manager s) (few : s.log.length + 2 < 2^64) {label : Label}
    (moved : step sys manager s label = some t) :
    Accounted sys manager t ∧ t.log.length ≤ s.log.length + 1 := by
  have settled : ∀ {chainId}, (t.adders = s.adders ∧ ∃ events, Moves sys manager s chainId events t ∧
      (∀ k, events.filterMap (blockOf k) = []) ∧ events.length ≤ 1) →
      Accounted sys manager t ∧ t.log.length ≤ s.log.length + 1 := by
    rintro chainId ⟨same,events,moves,none,one⟩
    refine ⟨moves.settled accounted same none,?_⟩
    rw [moves.log,List.length_append]
    exact Nat.add_le_add_left one _
  cases label with
  | create chainId data draws => exact settled (createMoves lawfulHeader accounted data draws moved)
  | remove chainId draws => exact settled (removeMoves accounted draws moved)
  | look chainId operation draws => exact settled (lookMoves accounted draws moved)
  | add chainId data draws =>
    obtain ⟨after,log⟩ := addAccounted accounted moved
    exact ⟨after,log ▸ Nat.le_succ _⟩
  | advance k =>
    obtain ⟨after,events,log,one⟩ := advanceAccounted lawfulHeader lawfulBlock accounted few moved
    refine ⟨after,?_⟩
    rw [log,List.length_append]
    exact Nat.add_le_add_left one _

theorem runAccounted (lawfulHeader : sys.header.Lawful) (lawfulBlock : sys.block.Lawful)
    {labels : List Label} (ran : Transition.run (step sys manager) vacant labels = some s)
    (few : labels.length + 2 < 2^64) : Accounted sys manager s := by
  have kept : labels.length + 2 < 2^64 → Accounted sys manager s ∧ s.log.length ≤ labels.length :=
    @Transition.runKeeps _ _ _ _ s
      (fun labels s => labels.length + 2 < 2^64 → Accounted sys manager s ∧ s.log.length ≤ labels.length)
      (fun _ => ⟨vacantAccounted sys manager,Nat.le_refl 0⟩)
      (fun labels label r r' before moved few => by
        rw [List.length_append,List.length_singleton] at few ⊢
        obtain ⟨accounted,short⟩ := before (by omega)
        obtain ⟨after,more⟩ := stepAccounted lawfulHeader lawfulBlock accounted (by omega) moved
        exact ⟨after,by omega⟩)
      labels ran
  exact (kept few).1

end Accounts

/- However many processes there are and however their sessions fall, each chain is what the events say:
no block that a call returned is lost, none is stored twice or by a call that returned nothing, and a
chain verifies if no block on it was stored by a call that others overtook. -/
theorem crowdIsAccounted {sys : Platform} (lawfulHeader : sys.header.Lawful) (lawfulBlock : sys.block.Lawful)
    (signatures : sys.SignaturesVerify) (manager : Manager) (labels : List Label) (s : State)
    (ran : Transition.run (step sys manager) vacant labels = some s) (few : labels.length + 2 < 2^64) :
    (∀ chainId, Holds sys (s.view chainId) (s.directory (manager.makeStoragePath chainId))) ∧
      (∀ k adder, s.adders[k]? = some adder → s.stored k = adder.writer.returned) ∧
      ∀ chainId view draws, s.view chainId = some view → view.fresh = true →
        (verifyChain sys manager chainId (start s.directory draws)).2.failed = false →
        ∃ t, verifyChain sys manager chainId (start s.directory draws) = (.done (),t) := by
  have accounted := runAccounted lawfulHeader lawfulBlock ran few
  refine ⟨accounted.chains,fun k adder here => (accounted.adders k adder here).stored,
    fun chainId view draws seen fresh clean => ?_⟩
  have holds := accounted.chains chainId
  rw [seen] at holds
  generalize entry : s.directory (manager.makeStoragePath chainId) = stored at holds
  cases holds with
  | here _ db ledger represents _ _ sound =>
  exact verifyChainHolds entry (by simp [start]) (soundVerified signatures represents (sound fresh)) clean

def sampleLabels : List Label := [.create 1 (ascii "\x7b\x7d") (Sample.steady 1),
  .create 2 (ascii "\x7b\x7d") (Sample.steady 1),.add 1 (ascii "a") (Sample.steady 1),
  .add 2 (ascii "b") (Sample.steady 2),.add 1 (ascii "c") (Sample.steady 1),.advance 0,.advance 1,.advance 0,
  .look 1 .verifyChain (Sample.steady 1),.advance 1,.remove 2 (Sample.steady 1),.advance 0,.advance 1,
  .advance 2,.advance 2,.advance 2]

def sampleManager : Manager := ⟨[]⟩

def sampleCrowd : State :=
  (Transition.run (step Sample.platform sampleManager) vacant sampleLabels).get (by decide +kernel)

def sampleView : View := (sampleCrowd.view 1).get (by decide +kernel)

theorem sampleCrowdAccounted :
    (∀ chainId, Holds Sample.platform (sampleCrowd.view chainId)
        (sampleCrowd.directory (sampleManager.makeStoragePath chainId))) ∧
      sampleCrowd.adders.map (fun adder => adder.writer.returned.length) = [1,0,1] ∧
      (∀ k adder, sampleCrowd.adders[k]? = some adder → sampleCrowd.stored k = adder.writer.returned) ∧
      ∃ t, verifyChain Sample.platform sampleManager 1 (start sampleCrowd.directory (Sample.steady 1)) =
        (.done (),t) := by
  obtain ⟨chains,adders,verifies⟩ := crowdIsAccounted Sample.headerLawful Sample.blockLawful
    Sample.signaturesVerify sampleManager sampleLabels sampleCrowd (Option.some_get _).symm (by decide)
  have seen : sampleCrowd.view 1 = some sampleView := (Option.some_get _).symm
  exact ⟨chains,by decide +kernel,adders,
    verifies 1 sampleView (Sample.steady 1) seen (by decide +kernel) (by decide +kernel)⟩

end Crowd
end ChainDB
