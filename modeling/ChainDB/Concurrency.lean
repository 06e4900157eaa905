import ChainDB.Integrity

/-! Two `addBlock` calls on one chain from two processes. Each database session is one step
over the shared directory; the local computation of a call goes with the session before or
after it. An open that finds the database busy is a failed primitive of its caller. -/
namespace ChainDB
open Effects HashChain

namespace Manager

inductive Phase where
  | begun
  | read (header : Header)
  | linked (header : Header) (prevHash : Hash)
  | ended (result : Option Block)

structure Writer where
  data : Bytes
  world : World
  phase : Phase

namespace Writer

def returned (writer : Writer) : List Block :=
  match writer.phase with
  | .ended (some block) => [block]
  | _ => []

def Ended (writer : Writer) : Prop := ∃ result, writer.phase = .ended result

def enter (writer : Writer) (dir : Directory) : World := {writer.world with directory := dir}

def finish (sys : Platform) (chain : Chain) (header : Header) (prevHash : Hash) (data : Bytes) :
    Action Block := do
  let block ← sealBlock sys header prevHash data
  chain.addBlock sys block
  pure block

def proceed {α : Type} (next : α → Phase) : Option α → Phase
  | some a => next a
  | none => .ended none

def step (sys : Platform) (chain : Chain) (data : Bytes) : Phase → Action Phase
  | .begun => do
    let header ← Exec.attempt (chain.getHeader sys)
    pure (proceed .read header)
  | .read header => do
    let prevHash ← Exec.attempt (previousHash sys chain header)
    pure (proceed (.linked header) prevHash)
  | .linked header prevHash => do
    let block ← Exec.attempt (finish sys chain header prevHash data)
    pure (proceed (fun block => .ended (some block)) block)
  | .ended result => pure (.ended result)

end Writer

structure Race where
  directory : Directory
  first : Writer
  second : Writer

def advance (sys : Platform) (chain : Chain) (writer : Writer) (dir : Directory) : Writer × Directory :=
  match Writer.step sys chain writer.data writer.phase (writer.enter dir) with
  | (.done phase,t) => (⟨writer.data,t,phase⟩,t.directory)
  | (_,t) => (⟨writer.data,t,.ended none⟩,t.directory)

def raceStep (sys : Platform) (chain : Chain) (turn : Bool) (race : Race) : Race :=
  if turn then
    let next := advance sys chain race.first race.directory
    ⟨next.2,next.1,race.second⟩
  else
    let next := advance sys chain race.second race.directory
    ⟨next.2,race.first,next.1⟩

def runRace (sys : Platform) (chain : Chain) (schedule : List Bool) (race : Race) : Race :=
  schedule.foldl (fun race turn => raceStep sys chain turn race) race

def begin (dir : Directory) (dataA dataB : Bytes) (drawsA drawsB : Draws) : Race :=
  ⟨dir,⟨dataA,start dir drawsA,.begun⟩,⟨dataB,start dir drawsB,.begun⟩⟩

/- One of the calls was over before the other did anything. -/
def OneAfterTheOther (race : Race) : Prop :=
  (race.first.Ended ∧ race.second.phase = .begun) ∨ (race.second.Ended ∧ race.first.phase = .begun)

section Race
variable {sys : Platform} {chain : Chain}

/- What a writer knows agrees with the ledger as it stands. -/
def Fresh (sys : Platform) (ledger : Ledger) : Phase → Prop
  | .begun => True
  | .read header => header = ledger.header
  | .linked header prevHash => header = ledger.header ∧ prevHash = ledger.tip sys
  | .ended _ => True

/- What one step can do. Either the directory and the returned blocks stay, and what was
fresh stays fresh; or the ledger grows by the block that the call returns, and it stays sound
if the writer was fresh. -/
inductive Advance (sys : Platform) (path : Path) (ledger : Ledger) (writer writer' : Writer)
    (dir dir' : Directory) : Prop where
  | quiet (same : dir' = dir) (returned : writer'.returned = writer.returned)
      (ended : writer.Ended → writer'.Ended)
      (fresh : Fresh sys ledger writer.phase → Fresh sys ledger writer'.phase)
  | wrote (block : Block) (db : Database) (before : writer.returned = [])
      (running : ¬ writer.Ended) (returned : writer'.returned = [block]) (ended : writer'.Ended)
      (here : dir' path = some db) (represents : (ledger.append block).Represents sys db)
      (sound : Fresh sys ledger writer.phase → ledger.Sound sys → (ledger.append block).Sound sys)

theorem finishDone {header prevHash data w block t}
    (h : Writer.finish sys chain header prevHash data w = (.done block,t)) :
    sys.Made header.privateKey prevHash block ∧ ∃ db current,
      Chain.Appended sys chain.path block w t db current := by
  simp only [Writer.finish,Exec.bindDone,Exec.pureApply,Prod.mk.injEq,Outcome.done.injEq] at h
  obtain ⟨made,a,sealed,_,b,added,rfl,rfl⟩ := h
  have quiet := (sealBlockTame sys _ _ _).quiet.apply sealed
  obtain ⟨db,current,appended⟩ := Chain.addBlockDone added
  have here := appended.here
  rw [quiet.directory] at here
  refine ⟨(sealBlockDone sealed).2,db,current,?_⟩
  exact ⟨quiet.toForward.trans appended.toForward,here,appended.supported,appended.headerFits,
    appended.blockFits,by rw [appended.directory,quiet.directory]⟩

theorem finishTotal (sys : Platform) (chain : Chain) (header : Header) (prevHash : Hash)
    (data : Bytes) : Exec.Total (Writer.finish sys chain header prevHash data) :=
  Exec.totalBind (sealBlockTame sys _ _ _).total fun _ =>
    Exec.totalBind (Chain.addBlockTotal sys _ _) fun _ => Exec.totalPure _

theorem finishAbsent {header prevHash data w t}
    (h : Writer.finish sys chain header prevHash data w = (.absent,t)) : Quiet w t := by
  rcases Exec.bindAbsent.mp h with sealing | ⟨made,a,sealed,rest⟩
  · exact (sealBlockTame sys _ _ _).quiet.apply sealing
  · have quiet := (sealBlockTame sys _ _ _).quiet.apply sealed
    rcases Exec.bindAbsent.mp rest with adding | ⟨_,b,_,last⟩
    · exact IsTrans.trans _ _ _ quiet (Chain.addBlockAbsent adding).1
    · cases last

theorem advanceDone {α : Type} {body : Action α} {next : α → Phase} {a : α} {t : World}
    (writer : Writer) (dir : Directory)
    (session : Writer.step sys chain writer.data writer.phase =
      Exec.attempt body >>= fun r => pure (Writer.proceed next r))
    (run : body (writer.enter dir) = (.done a,t)) :
    advance sys chain writer dir = (⟨writer.data,t,next a⟩,t.directory) := by
  simp only [advance,session,Exec.attemptMap,run,Writer.proceed]

theorem advanceAbsent {α : Type} {body : Action α} {next : α → Phase} {t : World}
    (writer : Writer) (dir : Directory)
    (session : Writer.step sys chain writer.data writer.phase =
      Exec.attempt body >>= fun r => pure (Writer.proceed next r))
    (run : body (writer.enter dir) = (.absent,t)) :
    advance sys chain writer dir = (⟨writer.data,t,.ended none⟩,t.directory) := by
  simp only [advance,session,Exec.attemptMap,run,Writer.proceed]

theorem advanceEnded (dir : Directory) (data : Bytes) (world : World) (result : Option Block) :
    advance sys chain ⟨data,world,.ended result⟩ dir =
      (⟨data,{world with directory := dir},.ended result⟩,dir) := rfl

theorem advanceCases (lawfulHeader : sys.header.Lawful) (lawfulBlock : sys.block.Lawful)
    {ledger : Ledger} {db : Database} {dir : Directory} (writer : Writer)
    (here : dir chain.path = some db) (represents : ledger.Represents sys db)
    (room : writer.returned = [] → ledger.blocks.length + 2 < 2^64) :
    Advance sys chain.path ledger writer (advance sys chain writer dir).1 dir
      (advance sys chain writer dir).2 := by
  obtain ⟨data,world,phase⟩ := writer
  have idle : ∀ phase : Phase, (∀ result, phase ≠ .ended result) →
      ¬ (Writer.mk data world phase).Ended := fun phase open_ ended => open_ _ ended.choose_spec
  cases phase with
  | begun =>
    have steady := Chain.getHeaderSteady sys chain
    rcases run : chain.getHeader sys ((Writer.mk data world .begun).enter dir) with ⟨header | _ | e,t⟩
    · have still : t.directory = dir := (steady.quiet.apply run).directory
      rw [advanceDone ⟨data,world,.begun⟩ dir rfl run]
      obtain ⟨db',found,stored⟩ := Chain.getHeaderDone run
      cases here.symm.trans found
      refine .quiet still rfl (fun ended => absurd ended (idle _ nofun)) fun _ => ?_
      exact Option.some.inj (stored.symm.trans represents.header)
    · have still : t.directory = dir := (steady.quiet.apply run).directory
      rw [advanceAbsent ⟨data,world,.begun⟩ dir rfl run]
      exact .quiet still rfl (fun ended => absurd ended (idle _ nofun)) fun _ => trivial
    · exact absurd run (steady.total _ e t)
  | read header =>
    have steady := previousHashSteady sys chain header
    rcases run : previousHash sys chain header ((Writer.mk data world (.read header)).enter dir) with
      ⟨prevHash | _ | e,t⟩
    · have still : t.directory = dir := (steady.quiet.apply run).directory
      rw [advanceDone ⟨data,world,.read header⟩ dir rfl run]
      refine .quiet still rfl (fun ended => absurd ended (idle _ nofun)) fun fresh => ?_
      cases fresh
      exact ⟨rfl,represents.pointsBack (previousHashDone here run)⟩
    · have still : t.directory = dir := (steady.quiet.apply run).directory
      rw [advanceAbsent ⟨data,world,.read header⟩ dir rfl run]
      exact .quiet still rfl (fun ended => absurd ended (idle _ nofun)) fun _ => trivial
    · exact absurd run (steady.total _ e t)
  | linked header prevHash =>
    rcases run : Writer.finish sys chain header prevHash data
      ((Writer.mk data world (.linked header prevHash)).enter dir) with ⟨block | _ | e,t⟩
    · rw [advanceDone ⟨data,world,.linked header prevHash⟩ dir rfl run]
      obtain ⟨made,db',current,appended⟩ := finishDone run
      cases here.symm.trans appended.here
      cases appended.supported.unique represents.supported
      refine .wrote block (DB.applyBatch (Chain.blockRecords sys ledger.header block) db) rfl
        (idle _ nofun) rfl ⟨_,rfl⟩ ?_ ?_ ?_
      · simp only [appended.directory,Function.update_self]
      · exact Ledger.representsAppend lawfulHeader lawfulBlock represents (room rfl)
          appended.headerFits appended.blockFits
      · rintro ⟨rfl,rfl⟩ sound
        exact Ledger.soundAppend sound made
    · have still : t.directory = dir := (finishAbsent run).directory
      rw [advanceAbsent ⟨data,world,.linked header prevHash⟩ dir rfl run]
      exact .quiet still rfl (fun ended => absurd ended (idle _ nofun)) fun _ => trivial
    · exact absurd run (finishTotal sys chain header prevHash data _ e t)
  | ended result =>
    rw [advanceEnded]
    exact .quiet rfl rfl id fun _ => trivial

/-- `log` lists what the two calls stored, in the order of their last sessions. -/
structure Racing (sys : Platform) (path : Path) (ledger : Ledger) (race : Race) (log : List Block) :
    Prop where
  stored : ∃ db, race.directory path = some db ∧ (ledger.extend log).Represents sys db
  returned : log.Perm (race.first.returned ++ race.second.returned)

structure Overlapping (sys : Platform) (path : Path) (ledger : Ledger) (race : Race)
    (log : List Block) : Prop extends Racing sys path ledger race log where
  fresh : log = [] → Fresh sys ledger race.first.phase ∧ Fresh sys ledger race.second.phase
  sound : log.length ≤ 1 → (ledger.extend log).Sound sys

structure Succeeding (sys : Platform) (path : Path) (ledger : Ledger) (race : Race)
    (log : List Block) : Prop extends Racing sys path ledger race log where
  ended : race.first.Ended
  fresh : Fresh sys (ledger.extend log) race.second.phase
  sound : (ledger.extend log).Sound sys

def Race.swap (race : Race) : Race := ⟨race.directory,race.second,race.first⟩

theorem swapStep (turn : Bool) (race : Race) :
    (raceStep sys chain turn race).swap = raceStep sys chain (!turn) race.swap := by
  cases turn <;> rfl

theorem Racing.swap {path ledger race log} (h : Racing sys path ledger race log) :
    Racing sys path ledger race.swap log := ⟨h.stored,h.returned.trans List.perm_append_comm⟩

theorem Overlapping.swap {path ledger race log} (h : Overlapping sys path ledger race log) :
    Overlapping sys path ledger race.swap log :=
  ⟨h.toRacing.swap,fun empty => (h.fresh empty).symm,h.sound⟩

theorem returnedLength (writer : Writer) : writer.returned.length ≤ 1 := by
  unfold Writer.returned
  split <;> simp

theorem Racing.room {path ledger race log} (h : Racing sys path ledger race log)
    (few : ledger.blocks.length + 3 < 2^64) (waiting : race.first.returned = []) :
    (ledger.extend log).blocks.length + 2 < 2^64 := by
  have size := h.returned.length_eq
  have other := returnedLength race.second
  rw [waiting,List.nil_append] at size
  simp only [Ledger.extend,List.length_append]
  omega

theorem overlappingFirst (lawfulHeader : sys.header.Lawful) (lawfulBlock : sys.block.Lawful)
    {ledger : Ledger} {race : Race} {log : List Block}
    (h : Overlapping sys chain.path ledger race log) (few : ledger.blocks.length + 3 < 2^64) :
    ∃ log, Overlapping sys chain.path ledger (raceStep sys chain true race) log := by
  obtain ⟨db,here,represents⟩ := h.stored
  cases advanceCases lawfulHeader lawfulBlock race.first here represents (h.room few) with
  | quiet same returned ended fresh =>
    refine ⟨log,⟨⟨db,?_,represents⟩,?_⟩,fun empty => ?_,h.sound⟩
    · simpa only [raceStep,if_true,same] using here
    · simpa only [raceStep,if_true,returned] using h.returned
    · subst empty
      rw [Ledger.extendNil] at fresh
      exact ⟨fresh (h.fresh rfl).1,(h.fresh rfl).2⟩
  | wrote block db' before running returned ended here' represents' sound =>
    have first := h.returned
    rw [before,List.nil_append] at first
    rw [Ledger.extendAppend] at represents' sound
    refine ⟨log ++ [block],⟨⟨db',here',represents'⟩,?_⟩,fun empty => ?_,fun single => ?_⟩
    · simp only [raceStep,if_true,returned]
      exact List.perm_append_comm.trans (first.append_left [block])
    · simp at empty
    · have empty : log = [] := by
        simp only [List.length_append,List.length_singleton] at single
        exact List.eq_nil_of_length_eq_zero (by omega)
      subst empty
      rw [Ledger.extendNil] at sound
      exact sound (h.fresh rfl).1 (by simpa only [Ledger.extendNil] using h.sound (Nat.zero_le _))

theorem overlappingStep (lawfulHeader : sys.header.Lawful) (lawfulBlock : sys.block.Lawful)
    {ledger : Ledger} {race : Race} {log : List Block}
    (h : Overlapping sys chain.path ledger race log) (few : ledger.blocks.length + 3 < 2^64)
    (turn : Bool) : ∃ log, Overlapping sys chain.path ledger (raceStep sys chain turn race) log := by
  cases turn with
  | true => exact overlappingFirst lawfulHeader lawfulBlock h few
  | false =>
    obtain ⟨next,after⟩ := overlappingFirst lawfulHeader lawfulBlock h.swap few
    exact ⟨next,after.swap⟩

theorem succeedingStep (lawfulHeader : sys.header.Lawful) (lawfulBlock : sys.block.Lawful)
    {ledger : Ledger} {race : Race} {log : List Block}
    (h : Succeeding sys chain.path ledger race log) (few : ledger.blocks.length + 3 < 2^64)
    (turn : Bool) : ∃ log, Succeeding sys chain.path ledger (raceStep sys chain turn race) log := by
  obtain ⟨db,here,represents⟩ := h.stored
  cases turn with
  | true =>
    cases advanceCases lawfulHeader lawfulBlock race.first here represents (h.room few) with
    | quiet same returned ended fresh =>
      refine ⟨log,⟨⟨db,?_,represents⟩,?_⟩,ended h.ended,h.fresh,h.sound⟩
      · simpa only [raceStep,if_true,same] using here
      · simpa only [raceStep,if_true,returned] using h.returned
    | wrote block db' before running => exact absurd h.ended running
  | false =>
    cases advanceCases lawfulHeader lawfulBlock race.second here represents (h.swap.room few) with
    | quiet same returned ended fresh =>
      refine ⟨log,⟨⟨db,?_,represents⟩,?_⟩,h.ended,fresh h.fresh,h.sound⟩
      · simpa only [raceStep,Bool.false_eq_true,if_false,same] using here
      · simpa only [raceStep,Bool.false_eq_true,if_false,returned] using h.returned
    | wrote block db' before running returned ended here' represents' sound =>
      have first := h.returned
      rw [before,List.append_nil] at first
      rw [Ledger.extendAppend] at represents' sound
      refine ⟨log ++ [block],⟨⟨db',here',represents'⟩,?_⟩,h.ended,?_,sound h.fresh h.sound⟩
      · simp only [raceStep,Bool.false_eq_true,if_false,returned]
        exact first.append_right [block]
      · obtain ⟨result,settled⟩ := ended
        change Fresh sys _ (advance sys chain race.second race.directory).1.phase
        rw [settled]
        trivial

theorem runOverlapping (lawfulHeader : sys.header.Lawful) (lawfulBlock : sys.block.Lawful)
    {ledger : Ledger} {race : Race} {log : List Block}
    (h : Overlapping sys chain.path ledger race log) (few : ledger.blocks.length + 3 < 2^64)
    (schedule : List Bool) :
    ∃ log, Overlapping sys chain.path ledger (runRace sys chain schedule race) log := by
  induction schedule generalizing race log with
  | nil => exact ⟨log,h⟩
  | cons turn rest ih =>
    obtain ⟨next,after⟩ := overlappingStep lawfulHeader lawfulBlock h few turn
    exact ih after

theorem runSucceeding (lawfulHeader : sys.header.Lawful) (lawfulBlock : sys.block.Lawful)
    {ledger : Ledger} {race : Race} {log : List Block}
    (h : Succeeding sys chain.path ledger race log) (few : ledger.blocks.length + 3 < 2^64)
    (schedule : List Bool) :
    ∃ log, Succeeding sys chain.path ledger (runRace sys chain schedule race) log := by
  induction schedule generalizing race log with
  | nil => exact ⟨log,h⟩
  | cons turn rest ih =>
    obtain ⟨next,after⟩ := succeedingStep lawfulHeader lawfulBlock h few turn
    exact ih after

theorem swapRun (schedule : List Bool) (race : Race) :
    (runRace sys chain schedule race).swap = runRace sys chain (schedule.map not) race.swap := by
  induction schedule generalizing race with
  | nil => rfl
  | cons turn rest ih =>
    simp only [runRace,List.foldl_cons,List.map_cons] at ih ⊢
    rw [ih,swapStep]

theorem runSplit (earlier later : List Bool) (race : Race) :
    runRace sys chain (earlier ++ later) race =
      runRace sys chain later (runRace sys chain earlier race) := List.foldl_append

theorem Overlapping.succeeding {path ledger race log} (h : Overlapping sys path ledger race log)
    (ended : race.first.Ended) (waiting : race.second.phase = .begun) :
    Succeeding sys path ledger race log := by
  have none : race.second.returned = [] := by simp only [Writer.returned,waiting]
  have size := h.returned.length_eq
  have one := returnedLength race.first
  rw [none,List.append_nil] at size
  refine ⟨h.toRacing,ended,?_,h.sound (by omega)⟩
  rw [waiting]
  trivial

theorem Overlapping.apart (lawfulHeader : sys.header.Lawful) (lawfulBlock : sys.block.Lawful)
    {ledger : Ledger} {race : Race} {log : List Block}
    (h : Overlapping sys chain.path ledger race log) (few : ledger.blocks.length + 3 < 2^64)
    (apart : OneAfterTheOther race) (later : List Bool) :
    ∃ log, Racing sys chain.path ledger (runRace sys chain later race) log ∧
      (ledger.extend log).Sound sys := by
  rcases apart with ⟨ended,waiting⟩ | ⟨ended,waiting⟩
  · obtain ⟨log,after⟩ := runSucceeding lawfulHeader lawfulBlock (h.succeeding ended waiting) few later
    exact ⟨log,after.toRacing,after.sound⟩
  · obtain ⟨log,after⟩ := runSucceeding lawfulHeader lawfulBlock (h.swap.succeeding ended waiting) few
      (later.map not)
    rw [← swapRun] at after
    exact ⟨log,after.toRacing.swap,after.sound⟩

theorem Racing.sameLog {path ledger race log other} (a : Racing sys path ledger race log)
    (b : Racing sys path ledger race other) : log = other := by
  obtain ⟨db,here,represents⟩ := a.stored
  obtain ⟨db',here',represents'⟩ := b.stored
  cases here.symm.trans here'
  have same := congrArg Ledger.blocks (represents.unique represents')
  exact List.append_cancel_left same

theorem addBlockSessions (sys : Platform) (manager : Manager) (chainId : UInt64) (data : Bytes) :
    addBlock sys manager chainId data = (do
      let header ← (manager.chain chainId).getHeader sys
      let prevHash ← previousHash sys (manager.chain chainId) header
      Writer.finish sys (manager.chain chainId) header prevHash data) := by
  simp only [addBlock,composeBlock,Writer.finish,Exec.bindAssoc]

theorem aloneIsAddBlock (sys : Platform) (manager : Manager) (chainId : UInt64) (race : Race)
    (begun : race.first.phase = .begun) :
    ∃ result t, Exec.attempt (addBlock sys manager chainId race.first.data)
        (race.first.enter race.directory) = (.done result,t) ∧
      runRace sys (manager.chain chainId) [true,true,true] race =
        ⟨t.directory,⟨race.first.data,t,.ended result⟩,race.second⟩ := by
  obtain ⟨dir,⟨data,world,phase⟩,second⟩ := race
  cases begun
  simp only [runRace,List.foldl_cons,List.foldl_nil,raceStep,if_true,addBlockSessions]
  generalize manager.chain chainId = chain
  change ∃ result t, Exec.attempt _ {world with directory := dir} = _ ∧ _
  rcases run : chain.getHeader sys {world with directory := dir} with ⟨header | _ | e,t⟩
  · rw [advanceDone ⟨data,world,.begun⟩ dir rfl run]
    rcases back : previousHash sys chain header t with ⟨prevHash | _ | e,u⟩
    · rw [advanceDone ⟨data,t,.read header⟩ t.directory rfl back]
      rcases last : Writer.finish sys chain header prevHash data u with ⟨block | _ | e,v⟩
      · rw [advanceDone ⟨data,u,.linked header prevHash⟩ u.directory rfl last]
        exact ⟨some block,v,by simp only [Exec.attempt,Exec.bindApply,run,back,last],rfl⟩
      · rw [advanceAbsent ⟨data,u,.linked header prevHash⟩ u.directory rfl last]
        exact ⟨none,v,by simp only [Exec.attempt,Exec.bindApply,run,back,last],rfl⟩
      · exact absurd last (finishTotal sys chain header prevHash data u e v)
    · rw [advanceAbsent ⟨data,t,.read header⟩ t.directory rfl back,advanceEnded]
      exact ⟨none,u,by simp only [Exec.attempt,Exec.bindApply,run,back],rfl⟩
    · exact absurd back ((previousHashSteady sys chain header).total t e u)
  · rw [advanceAbsent ⟨data,world,.begun⟩ dir rfl run,advanceEnded,advanceEnded]
    exact ⟨none,t,by simp only [Exec.attempt,Exec.bindApply,run],rfl⟩
  · exact absurd run ((Chain.getHeaderSteady sys chain).total _ e t)

end Race

theorem extendHeader (ledger : Ledger) (log : List Block) : (ledger.extend log).header =
    ledger.header.setIndex (ledger.header.index + UInt64.ofNat log.length) := by
  simp only [Ledger.header,Ledger.size,Ledger.extend,Header.setIndex,List.length_append,
    UInt64.ofNat_add]

theorem extendStored {sys : Platform} {ledger : Ledger} {log : List Block} {db : Database}
    (h : (ledger.extend log).Represents sys db) :
    Chain.Consecutive sys db (ledger.header.index + 1) log := by
  intro k block found
  have place : ledger.header.index + 1 + UInt64.ofNat k =
      1 + UInt64.ofNat (ledger.blocks.length + k) := by
    rw [UInt64.ofNat_add,← UInt64.add_assoc,UInt64.add_comm 1]
    rfl
  rw [place]
  refine h.blocks _ block ?_
  simpa only [Ledger.extend,List.getElem?_append_right (Nat.le_add_right _ _),
    Nat.add_sub_cancel_left] using found

/- Two calls that raced on a chain of the program. What they returned is stored under its own
index, in the order of the last sessions; the chain still verifies unless the calls overlapped
and both returned a block. -/
theorem racingAppendsAreStored {sys : Platform} (lawfulHeader : sys.header.Lawful)
    (lawfulBlock : sys.block.Lawful) (signatures : sys.SignaturesVerify) (manager : Manager)
    (calls : List Call) (chainId : UInt64) (db : Database)
    (few : Fewer (2^64 - 1) (run sys manager emptyDirectory calls).1)
    (room : additions chainId (run sys manager emptyDirectory calls).1 + 2 < 2^64 - 1)
    (here : (run sys manager emptyDirectory calls).2 (manager.makeStoragePath chainId) = some db)
    (held : db.lookup DB_HEADER_KEY ≠ none) (dataA dataB : Bytes) (drawsA drawsB : Draws)
    (schedule : List Bool) (first race : Race)
    (began : first = begin (run sys manager emptyDirectory calls).2 dataA dataB drawsA drawsB)
    (raced : race = runRace sys (manager.chain chainId) schedule first) :
    ∃ header db' log, Chain.Supported sys db header ∧
      race.directory (manager.makeStoragePath chainId) = some db' ∧
      log.Perm (race.first.returned ++ race.second.returned) ∧
      Chain.Supported sys db' (header.setIndex (header.index + UInt64.ofNat log.length)) ∧
      Chain.Consecutive sys db' (header.index + 1) log ∧
      (race.first.returned = [] ∨ race.second.returned = [] ∨
        (∃ earlier, earlier <+: schedule ∧
          OneAfterTheOther (runRace sys (manager.chain chainId) earlier first)) →
        ∀ draws, (verifyChain sys manager chainId (start race.directory draws)).2.failed = false →
          ∃ t, verifyChain sys manager chainId (start race.directory draws) = (.done (),t)) := by
  subst began raced
  have built := runBuilt lawfulHeader lawfulBlock manager calls chainId
    (few chainId _ (List.prefix_refl _))
  rw [here] at built
  rcases built with ⟨_,missing⟩ | ⟨ledger,represents,sound,size⟩
  · exact absurd missing held
  have space : ledger.blocks.length + 3 < 2^64 := by omega
  have before : Overlapping sys (manager.chain chainId).path ledger
      (begin (run sys manager emptyDirectory calls).2 dataA dataB drawsA drawsB) [] := by
    refine ⟨⟨⟨db,here,?_⟩,List.Perm.refl _⟩,fun _ => ⟨trivial,trivial⟩,fun _ => ?_⟩
    · rwa [Ledger.extendNil]
    · rwa [Ledger.extendNil]
  obtain ⟨log,after⟩ := runOverlapping lawfulHeader lawfulBlock before space schedule
  obtain ⟨db',here',represents'⟩ := after.stored
  refine ⟨ledger.header,db',log,represents.supported,here',after.returned,?_,
    extendStored represents',fun orderly draws clean => ?_⟩
  · rw [← extendHeader]
    exact represents'.supported
  have sound' : (ledger.extend log).Sound sys := by
    have size := after.returned.length_eq
    have oneA := returnedLength (runRace sys (manager.chain chainId) schedule
      (begin (run sys manager emptyDirectory calls).2 dataA dataB drawsA drawsB)).first
    have oneB := returnedLength (runRace sys (manager.chain chainId) schedule
      (begin (run sys manager emptyDirectory calls).2 dataA dataB drawsA drawsB)).second
    rcases orderly with noneA | noneB | ⟨earlier,⟨later,rfl⟩,apart⟩
    · rw [noneA,List.nil_append] at size
      exact after.sound (by omega)
    · rw [noneB,List.append_nil] at size
      exact after.sound (by omega)
    · obtain ⟨_,middle⟩ := runOverlapping lawfulHeader lawfulBlock before space earlier
      obtain ⟨other,rest,settled⟩ := middle.apart lawfulHeader lawfulBlock space apart later
      rw [← runSplit] at rest
      rwa [after.sameLog rest]
  exact verifyChainHolds here' (by simp [start]) (soundVerified signatures represents' sound')
    clean

def sampleStart : Directory :=
  (run Sample.platform ⟨[]⟩ emptyDirectory [⟨1,.createChain (ascii "\x7b\x7d"),Sample.steady 1⟩]).2

def sampleRace (schedule : List Bool) : Race :=
  runRace Sample.platform (chain ⟨[]⟩ 1) schedule
    (begin sampleStart (ascii "a") (ascii "b") (Sample.steady 1) (Sample.steady 2))

theorem overlappingAppendsBreakChain :
    (sampleRace [true,false,true,false,true,false]).first.returned.length = 1 ∧
    (sampleRace [true,false,true,false,true,false]).second.returned.length = 1 ∧
    (verifyChain Sample.platform ⟨[]⟩ 1
      (start (sampleRace [true,false,true,false,true,false]).directory (Sample.steady 1))).1 = .absent ∧
    (verifyChain Sample.platform ⟨[]⟩ 1
      (start (sampleRace [true,false,true,false,true,false]).directory (Sample.steady 1))).2.failed =
        false := by
  decide +kernel

theorem racingAppendsInTurn :
    ∃ t, verifyChain Sample.platform ⟨[]⟩ 1
      (start (sampleRace [true,true,true,false,false,false]).directory (Sample.steady 1)) =
        (.done (),t) := by
  obtain ⟨_,_,_,_,_,_,_,_,verifies⟩ := racingAppendsAreStored Sample.headerLawful Sample.blockLawful
    Sample.signaturesVerify ⟨[]⟩ [⟨1,.createChain (ascii "\x7b\x7d"),Sample.steady 1⟩] 1 _
    (fewerOfLength (by decide +kernel)) (by decide +kernel)
    (Option.eq_some_of_isSome (by decide +kernel)) (by decide +kernel) (ascii "a") (ascii "b")
    (Sample.steady 1) (Sample.steady 2) [true,true,true,false,false,false] _ _ rfl rfl
  obtain ⟨result,t,_,alone⟩ := aloneIsAddBlock Sample.platform ⟨[]⟩ 1
    (begin sampleStart (ascii "a") (ascii "b") (Sample.steady 1) (Sample.steady 2)) rfl
  have apart : OneAfterTheOther (sampleRace [true,true,true]) := by
    unfold sampleRace
    rw [alone]
    exact Or.inl ⟨⟨result,rfl⟩,rfl⟩
  exact verifies (Or.inr (Or.inr ⟨_,by decide,apart⟩)) (Sample.steady 1) (by decide +kernel)

end Manager
end ChainDB
