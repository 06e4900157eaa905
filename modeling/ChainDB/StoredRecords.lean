import ChainDB.Extension

/-! The bytes of the records in every directory that the operations reach, however long the
history is: what was packed into them, and which call wrote them. -/
namespace ChainDB
open Effects

namespace Chain

structure Packed (sys : Platform) (db : Database) : Prop where
  header : ∀ raw, db.lookup DB_HEADER_KEY = some raw → ∃ header : Header,
    raw = sys.header.encode header.message ∧ raw.length ≤ maxMessageLength ∧
      header.version = DB_VERSION
  block : ∀ i raw, db.lookup (makeBlockName i) = some raw → ∃ block : Block,
    raw = sys.block.encode block.message ∧ raw.length ≤ maxMessageLength
  filled : ∀ header, storedHeader sys db = some header → ∀ i, 1 ≤ i → i ≤ header.index →
    ∃ raw, db.lookup (makeBlockName i) = some raw

section Packed
variable {sys : Platform}

theorem packedEmpty : Packed sys ∅ where
  header raw found := by simp [Finmap.lookup_empty] at found
  block i raw found := by simp [Finmap.lookup_empty] at found
  filled header stored := by simp [storedHeader,Finmap.lookup_empty] at stored

theorem packedNew (lawful : sys.header.Lawful) {data : Bytes} {privateKey : PrivateKey}
    {publicKey : PublicKey}
    (fits : (sys.header.encode (Header.message ⟨DB_VERSION,0,data,privateKey,publicKey⟩)).length ≤
      maxMessageLength) : Packed sys (newDatabase sys data privateKey publicKey) where
  header raw found := by
    rw [newDatabaseHeader] at found
    cases found
    exact ⟨_,rfl,fits,rfl⟩
  block i raw found := by simp [newDatabaseBare] at found
  filled header stored i low inside := by
    have represents := @Ledger.representsCreate sys lawful data privateKey publicKey fits
    cases represents.header.symm.trans stored
    have positive : (1 : UInt64) ≤ 0 := UInt64.le_trans low inside
    exact absurd positive (by decide)

theorem insideOfNext {i last : UInt64} (low : 1 ≤ i) (inside : i ≤ last + 1) (other : i ≠ last + 1) :
    i ≤ last := by
  have one : (1 : UInt64).toNat = 1 := rfl
  have least := UInt64.le_iff_toNat_le.mp low
  have most := UInt64.le_iff_toNat_le.mp inside
  have apart : i.toNat ≠ (last + 1).toNat := fun same => other (UInt64.toNat_inj.mp same)
  have bound := last.toNat_lt
  have sum : (last + 1).toNat ≤ last.toNat + 1 := by
    rw [UInt64.toNat_add,one]
    exact Nat.mod_le _ _
  exact UInt64.le_iff_toNat_le.mpr (by omega)

theorem packedAppended (lawful : sys.header.Lawful) {header : Header} {block : Block} {db : Database}
    (packed : Packed sys db) (supported : Supported sys db header)
    (headerFits : (sys.header.encode (header.setIndex (header.index + 1)).message).length ≤
      maxMessageLength)
    (blockFits : (sys.block.encode block.message).length ≤ maxMessageLength) :
    Packed sys (DB.applyBatch (blockRecords sys header block) db) where
  header raw found := by
    rw [headerRecordAfter] at found
    cases found
    exact ⟨_,rfl,headerFits,supported.version⟩
  block i raw found := by
    by_cases last : i = header.index + 1
    · rw [last,blockRecordAfter] at found
      cases found
      exact ⟨block,rfl,blockFits⟩
    · rw [blockRecordKept last] at found
      exact packed.block i raw found
  filled next stored i low inside := by
    rw [Ledger.storedHeaderAfter lawful headerFits] at stored
    cases stored
    by_cases last : i = header.index + 1
    · rw [last]
      exact ⟨_,blockRecordAfter⟩
    · rw [blockRecordKept last]
      exact packed.filled header supported.stored i low (insideOfNext low inside last)

theorem Packed.headerRecord (lawful : sys.header.Lawful) {db : Database} (packed : Packed sys db)
    {header : Header} (stored : storedHeader sys db = some header) :
    db.lookup DB_HEADER_KEY = some (sys.header.encode header.message) ∧ Supported sys db header := by
  obtain ⟨raw,found,unpacked⟩ := Option.bind_eq_some_iff.mp stored
  obtain ⟨own,rfl,fits,version⟩ := packed.header raw found
  cases (Ledger.headerRoundTrip lawful fits).symm.trans unpacked
  exact ⟨found,stored,version⟩

theorem Packed.blockRecord (lawful : sys.block.Lawful) {db : Database} (packed : Packed sys db)
    {i : UInt64} {raw : Bytes} (found : db.lookup (makeBlockName i) = some raw) :
    ∃ block : Block, raw = sys.block.encode block.message ∧ storedBlock sys db i = some block := by
  obtain ⟨block,rfl,fits⟩ := packed.block i raw found
  refine ⟨block,rfl,?_⟩
  rw [storedBlock,found]
  exact Ledger.blockRoundTrip lawful fits

end Packed
end Chain

namespace Manager
section Runs
variable {sys : Platform} {manager : Manager}

theorem packedAfter (lawful : sys.header.Lawful) {dir : Directory} {event : Event}
    {entry : Option Database} (change : Change sys manager dir event entry)
    (packed : ∀ db, dir (manager.makeStoragePath event.call.chainId) = some db → Chain.Packed sys db) :
    ∀ db, entry = some db → Chain.Packed sys db := by
  intro db now
  cases change with
  | same kept standing => exact packed db now
  | created data privateKey publicKey operation vacant valid paired fits =>
    cases now
    exact Chain.packedNew lawful fits
  | half data operation vacant failed =>
    cases now
    exact Chain.packedEmpty
  | appended data before header prevHash block success here supported composed headerFits blockFits =>
    cases now
    exact Chain.packedAppended lawful (packed before here) supported headerFits blockFits
  | removed success => cases now

theorem runPacked (lawful : sys.header.Lawful) (manager : Manager) (calls : List Call)
    (chainId : UInt64) {db : Database}
    (here : (run sys manager emptyDirectory calls).2 (manager.makeStoragePath chainId) = some db) :
    Chain.Packed sys db := by
  refine @runKeeps sys manager (fun _ dir => ∀ db, dir (manager.makeStoragePath chainId) = some db →
    Chain.Packed sys db) emptyDirectory ?_ ?_ calls db here
  · intro db none
    cases none
  · intro _ dir call inv
    by_cases own : chainId = call.chainId
    · subst own
      exact packedAfter lawful (change sys manager call dir) inv
    · rw [afterElsewhere own]
      exact inv

def record (manager : Manager) (chainId i : UInt64) (dir : Directory) : Option Bytes :=
  (dir (manager.makeStoragePath chainId)).bind (Finmap.lookup (Chain.makeBlockName i))

def Writes (sys : Platform) (manager : Manager) (chainId i : UInt64) (call : Call) (dir : Directory) :
    Prop :=
  ∃ data block t db header, call.chainId = chainId ∧ call.operation = .addBlock data ∧
    addBlock sys manager chainId data (start dir call.draws) = (.done block,t) ∧
    t.directory (manager.makeStoragePath chainId) = some db ∧
    Chain.storedHeader sys db = some header ∧ header.index = i

def Erases (manager : Manager) (chainId : UInt64) (call : Call) (dir : Directory) : Prop :=
  call.chainId = chainId ∧ call.operation = .removeChain ∧
    ∃ t, removeChain manager chainId (start dir call.draws) = (.done (),t)

theorem appendedRun {call : Call} {dir : Directory}
    (success : (event sys manager call dir).appended = true) :
    ∃ data block t, call.operation = .addBlock data ∧
      addBlock sys manager call.chainId data (start dir call.draws) = (.done block,t) ∧
      t.directory = after sys manager call dir := by
  obtain ⟨id,operation,draws⟩ := call
  cases operation with
  | addBlock data =>
    simp only [event,effect,perform,Exec.attemptMap] at success
    rcases run : addBlock sys manager id data (start dir draws) with ⟨block | _ | e,t⟩
    · refine ⟨data,block,t,rfl,run,?_⟩
      simp only [after,effect,perform,Exec.attemptMapState,run]
    · rw [run] at success
      cases success
    · exact absurd run (addBlockTotal sys manager id data _ e t)
  | _ => cases success

theorem removedRun {call : Call} {dir : Directory}
    (success : (event sys manager call dir).removed = true) :
    call.operation = .removeChain ∧
      ∃ t, removeChain manager call.chainId (start dir call.draws) = (.done (),t) := by
  obtain ⟨id,operation,draws⟩ := call
  cases operation with
  | removeChain =>
    simp only [event,effect,perform,Exec.attemptMap] at success
    rcases run : removeChain manager id (start dir draws) with ⟨u | _ | e,t⟩
    · exact ⟨rfl,t,rfl⟩
    · rw [run] at success
      cases success
    · exact absurd run (Chain.removeTotal _ _ e t)
  | _ => cases success

theorem recordAfter (lawful : sys.header.Lawful) (chainId i : UInt64) (call : Call) (dir : Directory) :
    record manager chainId i (after sys manager call dir) = record manager chainId i dir ∨
      Writes sys manager chainId i call dir ∨ Erases manager chainId call dir := by
  by_cases own : chainId = call.chainId
  · subst own
    have step := change sys manager call dir
    generalize entry : after sys manager call dir (manager.makeStoragePath call.chainId) = now at step
    cases step with
    | same kept standing =>
      refine Or.inl ?_
      simp only [record,entry]
      rfl
    | created data privateKey publicKey operation vacant valid paired fits =>
      have empty : dir (manager.makeStoragePath call.chainId) = none := vacant
      simp [record,entry,empty,Chain.newDatabaseBare]
    | half data operation vacant failed =>
      have empty : dir (manager.makeStoragePath call.chainId) = none := vacant
      simp [record,entry,empty,Finmap.lookup_empty]
    | appended data db header prevHash block success here supported composed headerFits blockFits =>
      obtain ⟨added,made,t,operation,run,same⟩ := appendedRun success
      by_cases last : i = header.index + 1
      · exact Or.inr (Or.inl ⟨added,made,t,_,header.setIndex (header.index + 1),rfl,operation,run,
          (congrFun same _).trans entry,Ledger.storedHeaderAfter lawful headerFits,last.symm⟩)
      · have before : dir (manager.makeStoragePath call.chainId) = some db := here
        refine Or.inl ?_
        simp only [record,entry,before,Option.bind_some]
        exact Chain.blockRecordKept last
    | removed success =>
      obtain ⟨operation,t,run⟩ := removedRun success
      exact Or.inr (Or.inr ⟨rfl,operation,t,run⟩)
  · refine Or.inl ?_
    unfold record
    rw [afterElsewhere own]

theorem wrote {chainId i : UInt64} {call : Call} {dir : Directory}
    (lawful : sys.header.Lawful) (writes : Writes sys manager chainId i call dir) :
    ∃ data block t, call.chainId = chainId ∧ call.operation = .addBlock data ∧
      addBlock sys manager chainId data (start dir call.draws) = (.done block,t) ∧
      record manager chainId i (after sys manager call dir) = some (sys.block.encode block.message) := by
  obtain ⟨data,block,t,db,header,own,operation,run,there,stored,rfl⟩ := writes
  obtain ⟨before,old,_,appended,_⟩ := addBlockDone run
  rw [appended.directory,Function.update_self] at there
  cases there
  cases (Ledger.storedHeaderAfter lawful appended.headerFits).symm.trans stored
  refine ⟨data,block,t,own,operation,run,?_⟩
  obtain ⟨id,_,draws⟩ := call
  cases own
  cases operation
  simp only [after,effect,perform,Exec.attemptMapState,run]
  simp only [record,appended.directory,Function.update_self,Option.bind_some]
  exact Chain.blockRecordAfter

theorem erased {chainId i : UInt64} {call : Call} {dir : Directory}
    (erases : Erases manager chainId call dir) :
    record manager chainId i (after sys manager call dir) = none := by
  obtain ⟨own,operation,t,run⟩ := erases
  obtain ⟨id,_,draws⟩ := call
  cases own
  cases operation
  simp only [after,effect,perform,Exec.attemptMapState,run]
  have removed : t.directory = Function.update dir (manager.makeStoragePath id) none :=
    (Chain.removeDone run).2
  rw [record,removed,Function.update_self]
  rfl

/-- The last call of the history that adds a block with this index, with no removal after it. -/
structure Creates (sys : Platform) (manager : Manager) (chainId i : UInt64) (earlier : List Call)
    (call : Call) (later : List Call) : Prop where
  writes : Writes sys manager chainId i call (run sys manager emptyDirectory earlier).2
  last : ∀ more next rest, later = more ++ next :: rest →
    ¬ Writes sys manager chainId i next
      (run sys manager emptyDirectory (earlier ++ call :: more)).2 ∧
    ¬ Erases manager chainId next (run sys manager emptyDirectory (earlier ++ call :: more)).2

theorem runSnoc (dir : Directory) (calls : List Call) (call : Call) :
    (run sys manager dir (calls ++ [call])).2 = after sys manager call (run sys manager dir calls).2 := by
  rw [runAppend]
  rfl

theorem recordKept (lawful : sys.header.Lawful) {chainId i : UInt64} {earlier : List Call}
    {call : Call} {later : List Call} (creates : Creates sys manager chainId i earlier call later) :
    record manager chainId i (run sys manager emptyDirectory (earlier ++ call :: later)).2 =
      record manager chainId i
        (after sys manager call (run sys manager emptyDirectory earlier).2) := by
  induction later using List.reverseRecOn with
  | nil => rw [runSnoc]
  | append_singleton later next ih =>
    have before : Creates sys manager chainId i earlier call later :=
      ⟨creates.writes,fun more other rest split => creates.last more other (rest ++ [next]) (by simp [split])⟩
    obtain ⟨unwritten,unerased⟩ := creates.last later next [] rfl
    have shape : earlier ++ call :: (later ++ [next]) = (earlier ++ call :: later) ++ [next] := by simp
    rw [shape,runSnoc,← ih before]
    exact (recordAfter lawful chainId i next _).resolve_right (not_or.mpr ⟨unwritten,unerased⟩)

theorem creatorExists (lawful : sys.header.Lawful) {chainId i : UInt64} {calls : List Call} {raw : Bytes}
    (found : record manager chainId i (run sys manager emptyDirectory calls).2 = some raw) :
    ∃ earlier call later, calls = earlier ++ call :: later ∧
      Creates sys manager chainId i earlier call later := by
  induction calls using List.reverseRecOn with
  | nil => cases found
  | append_singleton calls next ih =>
    rw [runSnoc] at found
    by_cases writes : Writes sys manager chainId i next (run sys manager emptyDirectory calls).2
    · exact ⟨calls,next,[],rfl,writes,fun more other rest split => by simp at split⟩
    by_cases erases : Erases manager chainId next (run sys manager emptyDirectory calls).2
    · cases (erased erases).symm.trans found
    have still := (recordAfter lawful chainId i next _).resolve_right (not_or.mpr ⟨writes,erases⟩)
    obtain ⟨earlier,call,later,rfl,creates⟩ := ih (still.symm.trans found)
    refine ⟨earlier,call,later ++ [next],by simp,creates.writes,fun more other rest split => ?_⟩
    rcases List.eq_nil_or_concat rest with rfl | ⟨rest,final,rfl⟩
    · obtain ⟨rfl,rfl⟩ := List.append_singleton_inj.mp split
      exact ⟨writes,erases⟩
    · refine creates.last more other rest ?_
      have shape : later ++ [next] = (more ++ other :: rest) ++ [final] := by simpa using split
      exact (List.append_singleton_inj.mp shape).1

end Runs
end Manager
end ChainDB
