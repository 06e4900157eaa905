import ChainDB.ManagerRecords

/-! Runs in which every primitive call succeeds. -/
namespace ChainDB
open Effects

abbrev Undisturbed (draws : Draws) : Prop := Sparing (fun _ => True) draws

abbrev Smoothly {α : Type} (m : Action α) : Prop := Exec.Keeps (Smooth fun _ => True) m

theorem Smoothly.after {α : Type} {m : Action α} (smooth : Smoothly m) {w t : World}
    {o : Outcome Halt α} (run : m w = (o,t)) (undisturbed : Undisturbed w.draws)
    (clean : w.failed = false) : Undisturbed t.draws ∧ t.failed = false := by
  obtain ⟨left,same⟩ := smooth.apply run undisturbed
  exact ⟨left,same.trans clean⟩

theorem smoothOpen {α : Type} {path : Path} {body : Storage → Action α}
    (inner : Smoothly (body ⟨path,true⟩)) : Smoothly (Storage.session Storage.open path body) := by
  intro w undisturbed
  rw [Storage.openSession,if_pos (undisturbed 0 .database trivial)]
  have rest : Undisturbed w.spend.draws := fun n => undisturbed (n + 1)
  split
  · exact inner (Storage.within path w) rest
  · exact ⟨rest,rfl⟩

theorem smoothGet (path : Path) (key : Bytes) : Smoothly (Storage.get ⟨path,true⟩ key) := by
  intro w undisturbed
  rw [Storage.getApply,if_pos (undisturbed 0 .database trivial)]
  have option : Smoothly (Exec.ofOption ((w.directory path).bind (Finmap.lookup key))) :=
    Exec.keepsOfOption _
  exact option w.spend fun n => undisturbed (n + 1)

namespace Chain

theorem smoothHeaderFrom (sys : Platform) (path : Path) : Smoothly (getHeaderFrom sys ⟨path,true⟩) :=
  Exec.keepsBind (smoothGet path _) fun _ => Exec.keepsBind (Exec.keepsOfOption _) fun _ =>
    Exec.keepsBind (Exec.keepsCheck _) fun _ => Exec.keepsPure _

theorem smoothBlockFrom (sys : Platform) (path : Path) (index : UInt64) :
    Smoothly (getBlockFrom sys ⟨path,true⟩ index) :=
  Exec.keepsBind (smoothGet path _) fun _ => Exec.keepsOfOption _

theorem smoothHeader (sys : Platform) (chain : Chain) : Smoothly (chain.getHeader sys) :=
  smoothOpen (Exec.keepsBind (smoothGet _ _) fun _ => Exec.keepsOfOption _)

theorem smoothBlock (sys : Platform) (chain : Chain) (index : UInt64) :
    Smoothly (chain.getBlock sys index) :=
  smoothOpen (Exec.keepsBind (smoothHeaderFrom sys _) fun _ =>
    Exec.keepsBind (Exec.keepsCheck _) fun _ => smoothBlockFrom sys _ _)

theorem smoothLoop (sys : Platform) (path : Path) (last : UInt64) (rounds : Nat) (i : UInt64)
    (blocks : List Block) : Smoothly (getBlocksLoop sys ⟨path,true⟩ last rounds i blocks) := by
  induction rounds generalizing i blocks with
  | zero => exact Exec.keepsHalt _
  | succ rounds ih =>
    unfold getBlocksLoop
    split
    · refine Exec.keepsBind (Exec.keepsAttempt (smoothBlockFrom sys path i)) fun read => ?_
      cases read with
      | none => exact Exec.keepsPure _
      | some block => exact ih _ _
    · exact Exec.keepsPure _

theorem smoothBlocks (sys : Platform) (chain : Chain) (blocks : List Block) :
    Smoothly (chain.getBlocks sys blocks) :=
  Exec.keepsBind (Exec.keepsAttempt (smoothOpen (Exec.keepsBind (smoothHeaderFrom sys _) fun _ =>
    smoothLoop sys _ _ _ _ _))) fun _ => Exec.keepsPure _

section Reads
variable {sys : Platform} {chain : Chain} {w : World} {db : Database} {header : Header}
  (undisturbed : Undisturbed w.draws) (clean : w.failed = false) (free : chain.path ∉ w.opened)
  (here : w.directory chain.path = some db) (supported : Supported sys db header)
include undisturbed clean free here supported

theorem headerFound : ∃ t, chain.getHeader sys w = (.done header,t) := by
  rcases run : chain.getHeader sys w with ⟨o,t⟩
  have kept := ((smoothHeader sys chain).after run undisturbed clean).2
  cases getHeaderClean here free supported.stored run kept
  exact ⟨t,rfl⟩

theorem blocksFound {blocks : List Block} (bounded : header.index.toNat + 1 < 2^64)
    (length : blocks.length = header.index.toNat) (stored : Consecutive sys db 1 blocks) :
    ∃ t, chain.getBlocks sys [] w = (.done (true,blocks),t) := by
  rcases run : chain.getBlocks sys [] w with ⟨o,t⟩
  have kept := ((smoothBlocks sys chain []).after run undisturbed clean).2
  cases getBlocksClean here free supported bounded length stored run kept
  exact ⟨t,rfl⟩

theorem blocksEndless (full : header.index.toNat + 1 = 2^64)
    (readable : ∀ index, storedBlock sys db index ≠ none) :
    ∃ t, chain.getBlocks sys [] w = (.halt .endlessLoop,t) := by
  rcases run : chain.getBlocks sys [] w with ⟨o,t⟩
  have kept := ((smoothBlocks sys chain []).after run undisturbed clean).2
  cases getBlocksEnds run with
  | all db' header' l here' supported' bounded' =>
    cases here.symm.trans here'
    cases supported.unique supported'
    omega
  | shut why =>
    rcases why with failed | locked | nothing
    · exact absurd failed (by simp [kept])
    · exact absurd locked free
    · exact absurd supported (nothing db here header)
  | stuck db' header' l here' supported' stored' inside short why =>
    cases here.symm.trans here'
    rcases why with failed | missing
    · exact absurd failed (by simp [kept])
    · exact absurd missing (readable _)
  | endless => exact ⟨t,rfl⟩

end Reads

theorem serializeHolds {μ : Type} {codec : Codec μ} {m : μ} {w : World}
    (undisturbed : Undisturbed w.draws) (fits : (codec.encode m).length ≤ maxMessageLength) :
    ∃ t, codec.serializeToString m w = (.done (codec.encode m),t) ∧ Undisturbed t.draws := by
  obtain ⟨raw,t,made,left⟩ := @sureSerialize _ (fun _ => True) trivial codec m fits w undisturbed
  rw [(serialized made).1] at made
  exact ⟨t,made,left⟩

theorem blockAppended {sys : Platform} {chain : Chain} {w : World} {db : Database} {header : Header}
    {block : Block} (undisturbed : Undisturbed w.draws) (clean : w.failed = false)
    (free : chain.path ∉ w.opened) (here : w.directory chain.path = some db)
    (supported : Supported sys db header)
    (headerFits : (sys.header.encode (header.setIndex (header.index + 1)).message).length ≤
      maxMessageLength)
    (blockFits : (sys.block.encode block.message).length ≤ maxMessageLength) :
    ∃ t, chain.addBlock sys block w = (.done (),t) := by
  have present : w.directory chain.path ≠ none := by simp [here]
  unfold addBlock
  rw [Storage.openSession,if_pos (undisturbed 0 .database trivial),if_pos ⟨free,present⟩]
  have inside : Undisturbed (Storage.within chain.path w).draws := fun n => undisturbed (n + 1)
  rcases read : getHeaderFrom sys ⟨chain.path,true⟩ (Storage.within chain.path w) with ⟨own | _ | e,a⟩
  · have left := ((smoothHeaderFrom sys chain.path).after read inside clean).1
    cases (headerFromDone (w := Storage.within chain.path w) here read).unique supported
    obtain ⟨b,packed,left⟩ := serializeHolds left headerFits
    obtain ⟨c,packedBlock,left⟩ := serializeHolds left blockFits
    obtain ⟨d,wrote⟩ : ∃ d, Storage.set ⟨chain.path,true⟩
        [(DB_HEADER_KEY,sys.header.encode (header.setIndex (header.index + 1)).message),
          (makeBlockName (header.setIndex (header.index + 1)).index,sys.block.encode block.message)] c =
            (.done (),d) := by
      rw [Storage.setApply,if_pos (left 0 .database trivial)]
      exact ⟨_,rfl⟩
    refine ⟨DB.unlock chain.path d,Exec.ensuringApply.mpr ⟨d,?_,rfl⟩⟩
    rw [Exec.bindOfDone read,Header.pack,Exec.bindOfDone packed,Block.pack,Exec.bindOfDone packedBlock]
    exact wrote
  · have kept := ((smoothHeaderFrom sys chain.path).after read inside clean).2
    rcases headerFromAbsent (w := Storage.within chain.path w) here read with failed | missing
    · exact absurd failed (by simp [kept])
    · exact absurd supported (missing header)
  · exact absurd read ((headerFromSteady sys chain.path).total _ e a)

end Chain

namespace Manager
section Append
variable {sys : Platform} (signs : ∀ hash key, sys.secp.ecdsaSign hash key ≠ none)

theorem smoothHashN (sys : Platform) (input : List Bytes) (n : UInt64) :
    Smoothly (SHA256.getHashN sys input n) := by
  have rehash : ∀ rounds hash, Smoothly (SHA256.rehash sys rounds hash) := by
    intro rounds
    induction rounds with
    | zero => exact fun hash => Exec.keepsPure _
    | succ rounds ih => exact fun hash => Exec.keepsBind (SHA256.smoothHash trivial sys _) fun _ => ih _
  exact Exec.keepsBind (SHA256.smoothHash trivial sys _) fun _ => rehash _ _

theorem smoothPrevious (sys : Platform) (chain : Chain) (header : Header) :
    Smoothly (previousHash sys chain header) := by
  unfold previousHash
  split
  · exact smoothHashN sys _ _
  · exact Exec.keepsBind (Chain.smoothBlock sys chain _) fun _ => Exec.keepsPure _

include signs in
theorem smoothSeal (header : Header) (prevHash : Hash) (data : Bytes) :
    Smoothly (sealBlock sys header prevHash data) := by
  refine Exec.keepsBind (Exec.keepsBind (smoothCall trivial) fun _ => Exec.keepsPure _) fun nonce =>
    Exec.keepsBind (SHA256.smoothHash trivial sys _) fun hash => Exec.keepsBind ?_ fun _ =>
      Exec.keepsBind (SHA256.smoothHash trivial sys _) fun _ => Exec.keepsPure _
  refine Exec.keepsBind (smoothCall trivial) fun _ => ?_
  cases made : sys.secp.ecdsaSign hash header.privateKey with
  | none => exact absurd made (signs _ _)
  | some signature => exact Exec.keepsBind (smoothCall trivial) fun _ => Exec.keepsPure _

include signs in
theorem smoothCompose (chain : Chain) (data : Bytes) : Smoothly (composeBlock sys chain data) :=
  Exec.keepsBind (Chain.smoothHeader sys chain) fun _ =>
    Exec.keepsBind (smoothPrevious sys chain _) fun _ => smoothSeal signs _ _ _

include signs in
theorem addBlockSucceeds {manager : Manager} {chainId : UInt64} {data : Bytes} {w : World}
    {ledger : Ledger} {db : Database} (undisturbed : Undisturbed w.draws) (clean : w.failed = false)
    (free : manager.makeStoragePath chainId ∉ w.opened)
    (here : w.directory (manager.makeStoragePath chainId) = some db)
    (represents : ledger.Represents sys db)
    (headerFits : (sys.header.encode
      (ledger.header.setIndex (ledger.header.index + 1)).message).length ≤ maxMessageLength)
    (blockFits : ∀ block : Block, block.data = data →
      (sys.block.encode block.message).length ≤ maxMessageLength) :
    ∃ block t, addBlock sys manager chainId data w = (.done block,t) := by
  have steady := composeBlockSteady sys (manager.chain chainId) data
  have smooth := smoothCompose signs (manager.chain chainId) data
  rcases run : composeBlock sys (manager.chain chainId) data w with ⟨block | _ | e,a⟩
  · obtain ⟨left,kept⟩ := smooth.after run undisturbed clean
    have quiet := steady.quiet.apply run
    obtain ⟨other,header,prevHash,found,composed⟩ := composeBlockDone run
    obtain ⟨t,added⟩ := @Chain.blockAppended sys (manager.chain chainId) a db ledger.header block left
      kept (by rw [quiet.opened]; exact free) (by rw [quiet.directory]; exact here)
      represents.supported headerFits (blockFits block composed.data)
    refine ⟨block,t,?_⟩
    simp only [addBlock]
    rw [Exec.bindOfDone run,Exec.bindOfDone added]
    rfl
  · have kept := (smooth.after run undisturbed clean).2
    rcases composeBlockAbsent run with failed | locked | nothing
    · exact absurd failed (by simp [kept])
    · exact absurd locked free
    · obtain ⟨prevHash,back⟩ := represents.pointsBackTip
      exact absurd back (nothing db here _ represents.supported prevHash)
  · exact absurd run (steady.total w e a)

end Append
end Manager
end ChainDB
