import ChainDB.Chain

/-! What a database says, and what each session of a chain makes of it. -/
namespace ChainDB
open Effects

theorem decimalDigits (n : UInt64) :
    (decimal n).map (fun b => Char.ofNat b.toNat) = Nat.toDigits 10 n.toNat := by
  unfold decimal
  rw [List.map_map]
  conv_rhs => rw [← List.map_id (Nat.toDigits 10 n.toNat)]
  apply List.map_congr_left
  intro c member
  have digit := Nat.isDigit_of_mem_toDigits (by decide) (by decide) member
  simp only [Char.isDigit,Bool.and_eq_true,decide_eq_true_eq,UInt32.le_iff_toNat_le] at digit
  have small : c.toNat < 256 := by
    have upper : c.toNat ≤ 57 := digit.2
    omega
  simp only [Function.comp_apply,Nat.toUInt8,UInt8.toNat_ofNat',id]
  rw [Nat.mod_eq_of_lt (by simpa using small),Char.ofNat_toNat]

theorem decimalInjective {a b : UInt64} (h : decimal a = decimal b) : a = b := by
  have digits : Nat.toDigits 10 a.toNat = Nat.toDigits 10 b.toNat := by
    rw [← decimalDigits a,← decimalDigits b,h]
  have values := congrArg (fun l => Nat.ofDigitChars 10 l 0) digits
  simp only [Nat.ofDigitChars_ten_toDigits] at values
  exact UInt64.toNat_inj.mp values

namespace Chain

theorem blockNameInjective {i j : UInt64} (h : makeBlockName i = makeBlockName j) : i = j :=
  decimalInjective (List.append_cancel_left h)

theorem headerKeyNotBlock (i : UInt64) : DB_HEADER_KEY ≠ makeBlockName i := by
  intro h
  have third := congrArg (fun l => l[2]?) h
  have header : DB_HEADER_KEY[2]? = some 72 := by decide
  have block : (makeBlockName i)[2]? = some 66 := by
    unfold makeBlockName
    rw [List.getElem?_append_left (by decide)]
    decide
  simp [header,block] at third

def storedHeader (sys : Platform) (db : Database) : Option Header :=
  (db.lookup DB_HEADER_KEY).bind (Header.unpack sys)

def storedBlock (sys : Platform) (db : Database) (index : UInt64) : Option Block :=
  (db.lookup (makeBlockName index)).bind (Block.unpack sys)

structure Supported (sys : Platform) (db : Database) (header : Header) : Prop where
  stored : storedHeader sys db = some header
  version : header.version = DB_VERSION

theorem Supported.unique {sys db a b} (ha : Supported sys db a) (hb : Supported sys db b) : a = b :=
  Option.some.inj (ha.stored.symm.trans hb.stored)

theorem headerFromSteady (sys : Platform) (path : Path) : Steady (getHeaderFrom sys ⟨path,true⟩) :=
  steadyBind (Storage.getSteady path _) fun _ => steadyBind (steadyOfOption _) fun _ =>
    steadyBind (steadyCheck _) fun _ => steadyPure _

theorem headerFromDone {sys path db w header t} (here : w.directory path = some db)
    (h : getHeaderFrom sys ⟨path,true⟩ w = (.done header,t)) : Supported sys db header := by
  simp only [getHeaderFrom,Exec.bindDone,Exec.ofOptionDone,Exec.checkDone,Exec.pureApply,
    Prod.mk.injEq,Outcome.done.injEq] at h
  obtain ⟨value,u,got,parsed,_,⟨unpacked,rfl⟩,_,_,⟨version,rfl⟩,rfl,rfl⟩ := h
  have found := (Storage.getDone got).1
  rw [here] at found
  simp only [Option.bind_some] at found
  exact ⟨by simp only [storedHeader,found,Option.bind_some,unpacked],version⟩

theorem headerFromAbsent {sys path db w t} (here : w.directory path = some db)
    (h : getHeaderFrom sys ⟨path,true⟩ w = (.absent,t)) :
    t.failed = true ∨ ∀ header, ¬ Supported sys db header := by
  rcases Exec.bindAbsent.mp h with first | ⟨value,u,got,rest⟩
  · rcases Storage.getAbsent first with failed | missing
    · exact Or.inl failed
    · refine Or.inr fun header supported => ?_
      have stored := supported.stored
      rw [here] at missing
      simp only [Option.bind_some] at missing
      simp [storedHeader,missing] at stored
  · have found := (Storage.getDone got).1
    rw [here] at found
    simp only [Option.bind_some] at found
    refine Or.inr fun header supported => ?_
    have stored := supported.stored
    simp only [storedHeader,found,Option.bind_some] at stored
    rcases Exec.bindAbsent.mp rest with unreadable | ⟨parsed,v,unpacked,checked⟩
    · simp [stored,Exec.ofOptionAbsent] at unreadable
    · obtain ⟨same,rfl⟩ := Exec.ofOptionDone.mp unpacked
      rw [stored] at same
      cases same
      simp [Exec.bindAbsent,Exec.checkAbsent,supported.version] at checked

theorem blockFromSteady (sys : Platform) (path : Path) (index : UInt64) :
    Steady (getBlockFrom sys ⟨path,true⟩ index) :=
  steadyBind (Storage.getSteady path _) fun _ => steadyOfOption _

theorem blockFromDone {sys path db w index block t} (here : w.directory path = some db)
    (h : getBlockFrom sys ⟨path,true⟩ index w = (.done block,t)) :
    storedBlock sys db index = some block := by
  simp only [getBlockFrom,Exec.bindDone,Exec.ofOptionDone] at h
  obtain ⟨value,u,got,unpacked,rfl⟩ := h
  have found := (Storage.getDone got).1
  rw [here] at found
  simp only [Option.bind_some] at found
  simp only [storedBlock,found,Option.bind_some,unpacked]

theorem blockFromAbsent {sys path db w index t} (here : w.directory path = some db)
    (h : getBlockFrom sys ⟨path,true⟩ index w = (.absent,t)) :
    t.failed = true ∨ storedBlock sys db index = none := by
  rcases Exec.bindAbsent.mp h with first | ⟨value,u,got,unread⟩
  · rcases Storage.getAbsent first with failed | missing
    · exact Or.inl failed
    · rw [here] at missing
      simp only [Option.bind_some] at missing
      exact Or.inr (by simp only [storedBlock,missing,Option.bind_none])
  · have found := (Storage.getDone got).1
    rw [here] at found
    simp only [Option.bind_some] at found
    exact Or.inr (by simp only [storedBlock,found,Option.bind_some,(Exec.ofOptionAbsent.mp unread).1])

def Unreadable (path : Path) (w : World) (nothing : Database → Prop) : Prop :=
  path ∈ w.opened ∨ ∀ db, w.directory path = some db → nothing db

theorem sessionAbsent {α : Type} {path : Path} {body : Storage → Action α} {w t : World}
    (nothing : Database → Prop) (h : Storage.session Storage.open path body w = (.absent,t))
    (inner : ∀ db u v, u.directory path = some db → body ⟨path,true⟩ u = (.absent,v) →
      v.failed = true ∨ nothing db) : t.failed = true ∨ Unreadable path w nothing := by
  rcases Storage.openSessionCases h with ⟨_,_,failed | locked | missing⟩ | ⟨db,u,found,_,run,rfl⟩
  · exact Or.inl failed
  · exact Or.inr (Or.inl locked)
  · exact Or.inr (Or.inr fun db found => by simp [missing] at found)
  · rcases inner db (Storage.within path w) u found run with failed | none
    · exact Or.inl failed
    · refine Or.inr (Or.inr fun other same => ?_)
      rw [found] at same
      cases same
      exact none

theorem getHeaderSteady (sys : Platform) (chain : Chain) : Steady (getHeader sys chain) :=
  Storage.openSessionSteady (steadyBind (Storage.getSteady _ _) fun _ => steadyOfOption _)

theorem getHeaderDone {sys chain w header t} (h : getHeader sys chain w = (.done header,t)) :
    ∃ db, w.directory chain.path = some db ∧ storedHeader sys db = some header := by
  rcases Storage.openSessionCases h with ⟨absent,_⟩ | ⟨db,u,found,_,run,_⟩
  · cases absent
  · simp only [Exec.bindDone,Exec.ofOptionDone] at run
    obtain ⟨value,v,got,unpacked,_⟩ := run
    have stored := (Storage.getDone got).1
    change (w.directory chain.path).bind _ = some value at stored
    rw [found] at stored
    simp only [Option.bind_some] at stored
    exact ⟨db,found,by simp only [storedHeader,stored,Option.bind_some,unpacked]⟩

theorem getHeaderAbsent {sys chain w t} (h : getHeader sys chain w = (.absent,t)) :
    t.failed = true ∨ Unreadable chain.path w fun db => storedHeader sys db = none := by
  refine sessionAbsent _ h fun db u v found run => ?_
  rcases Exec.bindAbsent.mp run with first | ⟨value,x,got,unread⟩
  · rcases Storage.getAbsent first with failed | missing
    · exact Or.inl failed
    · rw [found] at missing
      simp only [Option.bind_some] at missing
      exact Or.inr (by simp only [storedHeader,missing,Option.bind_none])
  · have stored := (Storage.getDone got).1
    rw [found] at stored
    simp only [Option.bind_some] at stored
    exact Or.inr (by simp only [storedHeader,stored,Option.bind_some,(Exec.ofOptionAbsent.mp unread).1])

theorem getBlockSteady (sys : Platform) (chain : Chain) (index : UInt64) :
    Steady (getBlock sys chain index) :=
  Storage.openSessionSteady (steadyBind (headerFromSteady sys _) fun _ =>
    steadyBind (steadyCheck _) fun _ => blockFromSteady sys _ _)

theorem getBlockDone {sys chain index w block t} (h : getBlock sys chain index w = (.done block,t)) :
    ∃ db header, w.directory chain.path = some db ∧ Supported sys db header ∧ index ≠ 0 ∧
      index ≤ header.index ∧ storedBlock sys db index = some block := by
  rcases Storage.openSessionCases h with ⟨absent,_⟩ | ⟨db,u,found,_,run,_⟩
  · cases absent
  · simp only [Exec.bindDone,Exec.checkDone] at run
    obtain ⟨header,v,got,_,_,⟨inside,rfl⟩,last⟩ := run
    have here : (Storage.within chain.path w).directory chain.path = some db := found
    have supported := headerFromDone here got
    have still := ((headerFromSteady sys chain.path).quiet.apply got).directory
    rw [not_or,UInt64.not_lt] at inside
    refine ⟨db,header,found,supported,inside.1,inside.2,?_⟩
    exact blockFromDone (by rw [still]; exact found) last

theorem getBlockAbsent {sys chain index w t} (h : getBlock sys chain index w = (.absent,t)) :
    t.failed = true ∨ Unreadable chain.path w fun db => ∀ header, Supported sys db header →
      index ≠ 0 → index ≤ header.index → storedBlock sys db index = none := by
  refine sessionAbsent _ h fun db u v found run => ?_
  rcases Exec.bindAbsent.mp run with first | ⟨header,x,got,rest⟩
  · rcases headerFromAbsent found first with failed | missing
    · exact Or.inl failed
    · exact Or.inr fun header supported => absurd supported (missing header)
  · have supported := headerFromDone found got
    have still := ((headerFromSteady sys chain.path).quiet.apply got).directory
    rcases Exec.bindAbsent.mp rest with outside | ⟨_,y,checked,last⟩
    · refine Or.inr fun other same positive inside => ?_
      cases supported.unique same
      have refused := (Exec.checkAbsent.mp outside).1
      rw [not_not] at refused
      rcases refused with zero | above
      · exact absurd zero positive
      · exact absurd above (UInt64.not_lt.mpr inside)
    · obtain ⟨_,rfl⟩ := Exec.checkDone.mp checked
      rcases blockFromAbsent (by rw [still]; exact found) last with failed | missing
      · exact Or.inl failed
      · exact Or.inr fun _ _ _ _ => missing

def Consecutive (sys : Platform) (db : Database) (i : UInt64) (blocks : List Block) : Prop :=
  ∀ k block, blocks[k]? = some block → storedBlock sys db (i + UInt64.ofNat k) = some block

theorem consecutiveNil (sys : Platform) (db : Database) (i : UInt64) : Consecutive sys db i [] := by
  intro k block found
  simp at found

theorem counterNext (i : UInt64) (k : Nat) : i + UInt64.ofNat (k + 1) = i + 1 + UInt64.ofNat k := by
  rw [UInt64.ofNat_add,UInt64.add_comm (UInt64.ofNat k),UInt64.add_assoc]
  rfl

theorem counterSucc {i : UInt64} (room : i.toNat + 1 < 2^64) : (i + 1).toNat = i.toNat + 1 := by
  rw [UInt64.toNat_add]
  exact Nat.mod_eq_of_lt room

theorem counterToNat {k : Nat} (below : k < counterValues) : (UInt64.ofNat k).toNat = k :=
  UInt64.toNat_ofNat_of_lt below

theorem blockToNat {k : Nat} (room : k + 1 < counterValues) : (1 + UInt64.ofNat k).toNat = k + 1 := by
  have below : (UInt64.ofNat k).toNat = k := counterToNat (Nat.lt_of_succ_lt room)
  rw [UInt64.add_comm,counterSucc (below.symm ▸ room),below]

theorem consecutiveCons {sys db i block blocks} (head : storedBlock sys db i = some block)
    (tail : Consecutive sys db (i + 1) blocks) : Consecutive sys db i (block :: blocks) := by
  intro k b found
  cases k with
  | zero =>
    cases found
    simpa using head
  | succ k =>
    rw [counterNext]
    exact tail k b (by simpa using found)

theorem consecutiveUnique {sys db i a b} (ha : Consecutive sys db i a) (hb : Consecutive sys db i b)
    (lengths : a.length = b.length) : a = b := by
  refine List.ext_getElem lengths fun k left right => ?_
  have one := ha k _ (List.getElem?_eq_getElem left)
  have two := hb k _ (List.getElem?_eq_getElem right)
  exact Option.some.inj (one.symm.trans two)

theorem loopQuiet (sys : Platform) (path : Path) (last : UInt64) (rounds : Nat) (i : UInt64)
    (blocks : List Block) : Exec.Keeps Quiet (getBlocksLoop sys ⟨path,true⟩ last rounds i blocks) := by
  induction rounds generalizing i blocks with
  | zero => exact Exec.keepsHalt _
  | succ rounds ih =>
    unfold getBlocksLoop
    split
    · refine Exec.keepsBind (steadyAttempt (blockFromSteady sys path i)).quiet fun read => ?_
      cases read with
      | none => exact Exec.keepsPure _
      | some block => exact ih _ _
    · exact Exec.keepsPure _

/- What ends the loop: it passed the last index, a record could not be read, or it went
round until every counter value had been met. -/
inductive LoopEnd (sys : Platform) (db : Database) (last : UInt64) (rounds : Nat) (i : UInt64)
    (blocks : List Block) (t : World) : Outcome Halt (Bool × List Block) → Prop where
  | all (l : List Block) (bounded : last.toNat + 1 < 2^64)
      (length : l.length = last.toNat + 1 - i.toNat) (stored : Consecutive sys db i l) :
      LoopEnd sys db last rounds i blocks t (.done (true,blocks ++ l))
  | stuck (l : List Block) (stored : Consecutive sys db i l) (inside : i + UInt64.ofNat l.length ≤ last)
      (short : last.toNat + 1 < 2^64 → i.toNat + l.length ≤ last.toNat)
      (why : t.failed = true ∨ storedBlock sys db (i + UInt64.ofNat l.length) = none) :
      LoopEnd sys db last rounds i blocks t (.done (false,blocks ++ l))
  | endless (long : last.toNat + 1 < 2^64 → rounds ≤ last.toNat + 1 - i.toNat)
      (readable : ∀ k, k < rounds → storedBlock sys db (i + UInt64.ofNat k) ≠ none) :
      LoopEnd sys db last rounds i blocks t (.halt .endlessLoop)

theorem loopEndNext {sys db last rounds i blocks t o block} (inside : i ≤ last)
    (head : storedBlock sys db i = some block)
    (later : LoopEnd sys db last rounds (i + 1) (blocks ++ [block]) t o) :
    LoopEnd sys db last (rounds + 1) i blocks t o := by
  have le := UInt64.le_iff_toNat_le.mp inside
  have step : last.toNat + 1 < 2^64 → (i + 1).toNat = i.toNat + 1 :=
    fun bounded => counterSucc (by omega)
  cases later with
  | all l bounded length stored =>
    rw [List.append_assoc]
    refine .all (block :: l) bounded ?_ (consecutiveCons head stored)
    rw [List.length_cons,length,step bounded]
    omega
  | stuck l stored inside short why =>
    rw [List.append_assoc]
    rw [← counterNext] at inside why
    refine .stuck (block :: l) (consecutiveCons head stored) inside (fun bounded => ?_) why
    have rest := short bounded
    rw [step bounded] at rest
    rw [List.length_cons]
    omega
  | endless long readable =>
    refine .endless (fun bounded => ?_) (fun k below => ?_)
    · have rest := long bounded
      rw [step bounded] at rest
      omega
    · cases k with
      | zero => simp [head]
      | succ k =>
        rw [counterNext]
        exact readable k (by omega)

theorem loopEnds {sys path db last rounds i blocks w o t} (here : w.directory path = some db)
    (h : getBlocksLoop sys ⟨path,true⟩ last rounds i blocks w = (o,t)) :
    LoopEnd sys db last rounds i blocks t o := by
  induction rounds generalizing i blocks w with
  | zero =>
    cases h
    exact .endless (fun _ => Nat.zero_le _) (fun k below => absurd below (Nat.not_lt_zero k))
  | succ rounds ih =>
    unfold getBlocksLoop at h
    split at h
    · rename_i inside
      rcases read : getBlockFrom sys ⟨path,true⟩ i w with ⟨block | _ | e,u⟩
      · rw [Exec.bindOfDone (Exec.attemptSome.mpr read)] at h
        have still := ((blockFromSteady sys path i).quiet.apply read).directory
        exact loopEndNext inside (blockFromDone here read) (ih (by rw [still]; exact here) h)
      · rw [Exec.bindOfDone (Exec.attemptNone.mpr read)] at h
        cases h
        have same : i + UInt64.ofNat ([] : List Block).length = i := UInt64.add_zero i
        have result := @LoopEnd.stuck sys db last (rounds + 1) i blocks t [] (consecutiveNil sys db i)
          (by rwa [same]) (fun _ => UInt64.le_iff_toNat_le.mp inside)
          (by rw [same]; exact blockFromAbsent here read)
        rwa [List.append_nil] at result
      · exact absurd read ((blockFromSteady sys path i).total w e u)
    · rename_i outside
      cases h
      have above := UInt64.lt_iff_toNat_lt.mp (UInt64.not_le.mp outside)
      have size := i.toNat_lt
      have result := @LoopEnd.all sys db last (rounds + 1) i blocks t [] (by omega)
        (by simp; omega) (consecutiveNil sys db i)
      rwa [List.append_nil] at result

inductive BlocksEnd (sys : Platform) (path : Path) (w t : World) (blocks : List Block) :
    Outcome Halt (Bool × List Block) → Prop where
  | all (db : Database) (header : Header) (l : List Block) (here : w.directory path = some db)
      (supported : Supported sys db header) (bounded : header.index.toNat + 1 < 2^64)
      (length : l.length = header.index.toNat) (stored : Consecutive sys db 1 l) :
      BlocksEnd sys path w t blocks (.done (true,blocks ++ l))
  | shut (why : t.failed = true ∨ Unreadable path w fun db => ∀ header, ¬ Supported sys db header) :
      BlocksEnd sys path w t blocks (.done (false,blocks))
  | stuck (db : Database) (header : Header) (l : List Block) (here : w.directory path = some db)
      (supported : Supported sys db header) (stored : Consecutive sys db 1 l)
      (inside : 1 + UInt64.ofNat l.length ≤ header.index)
      (short : header.index.toNat + 1 < 2^64 → 1 + l.length ≤ header.index.toNat)
      (why : t.failed = true ∨ storedBlock sys db (1 + UInt64.ofNat l.length) = none) :
      BlocksEnd sys path w t blocks (.done (false,blocks ++ l))
  | endless (db : Database) (header : Header) (here : w.directory path = some db)
      (supported : Supported sys db header) (full : header.index.toNat + 1 = 2^64)
      (readable : ∀ j, storedBlock sys db j ≠ none) :
      BlocksEnd sys path w t blocks (.halt .endlessLoop)

theorem getBlocksQuiet (sys : Platform) (chain : Chain) (blocks : List Block) :
    Exec.Keeps Quiet (getBlocks sys chain blocks) := by
  refine Exec.keepsBind (Exec.keepsAttempt (Storage.openSessionQuiet ?_)) fun _ => Exec.keepsPure _
  exact Exec.keepsBind (headerFromSteady sys _).quiet fun header => loopQuiet sys _ _ _ _ _

theorem readableEverywhere {sys db}
    (readable : ∀ k, k < counterValues → storedBlock sys db (1 + UInt64.ofNat k) ≠ none) (j : UInt64) :
    storedBlock sys db j ≠ none := by
  have met := readable (j - 1).toNat (j - 1).toNat_lt
  rwa [UInt64.ofNat_toNat,UInt64.add_comm,UInt64.sub_add_cancel] at met

theorem getBlocksEnds {sys chain blocks w o t} (h : getBlocks sys chain blocks w = (o,t)) :
    BlocksEnd sys chain.path w t blocks o := by
  unfold getBlocks at h
  generalize inner : (Storage.session Storage.open chain.path fun storage => do
    let header ← getHeaderFrom sys storage
    getBlocksLoop sys storage header.index counterValues 1 blocks) = m at h
  rcases run : m w with ⟨result | _ | e,u⟩
  · rw [Exec.bindOfDone (Exec.attemptSome.mpr run)] at h
    cases h
    rw [← inner] at run
    rcases Storage.openSessionCases run with ⟨absent,_⟩ | ⟨db,v,found,_,body,rfl⟩
    · cases absent
    · have here : (Storage.within chain.path w).directory chain.path = some db := found
      obtain ⟨header,x,got,loop⟩ := Exec.bindDone.mp body
      have supported := headerFromDone here got
      have still := ((headerFromSteady sys chain.path).quiet.apply got).directory
      cases loopEnds (by rw [still]; exact here) loop with
      | all l bounded length stored =>
        exact .all db header l found supported bounded (by simpa using length) stored
      | stuck l stored inside short why =>
        exact .stuck db header l found supported stored inside short why
  · rw [Exec.bindOfDone (Exec.attemptNone.mpr run)] at h
    cases h
    rw [← inner] at run
    have why := sessionAbsent (fun db => ∀ header, ¬ Supported sys db header) run
      fun db v x found body => by
        rcases Exec.bindAbsent.mp body with first | ⟨header,y,got,loop⟩
        · exact headerFromAbsent found first
        · have still := ((headerFromSteady sys chain.path).quiet.apply got).directory
          cases loopEnds (by rw [still]; exact found) loop
    exact .shut why
  · rw [Exec.bindOfHalt (Exec.attemptHalt.mpr run)] at h
    cases h
    rw [← inner] at run
    rcases Storage.openSessionCases run with ⟨absent,_⟩ | ⟨db,v,found,_,body,rfl⟩
    · cases absent
    · have here : (Storage.within chain.path w).directory chain.path = some db := found
      rcases Exec.bindHalt.mp body with first | ⟨header,x,got,loop⟩
      · exact absurd first ((headerFromSteady sys chain.path).total _ _ _)
      · have supported := headerFromDone here got
        have still := ((headerFromSteady sys chain.path).quiet.apply got).directory
        cases loopEnds (by rw [still]; exact here) loop with
        | endless long readable =>
          refine .endless db header found supported ?_ (readableEverywhere readable)
          have size := header.index.toNat_lt
          by_contra short
          have rounds := long (by omega)
          simp [counterValues] at rounds
          omega

theorem getBlocksDone {sys chain before after w t}
    (h : getBlocks sys chain before w = (.done (true,after),t)) :
    ∃ db header blocks, w.directory chain.path = some db ∧ Supported sys db header ∧
      header.index.toNat + 1 < 2^64 ∧ blocks.length = header.index.toNat ∧
      Consecutive sys db 1 blocks ∧ after = before ++ blocks := by
  generalize ended : (Outcome.done (true,after) : Outcome Halt (Bool × List Block)) = o at h
  cases getBlocksEnds h with
  | all db header blocks here supported bounded length stored =>
    cases ended
    exact ⟨db,header,blocks,here,supported,bounded,length,stored,rfl⟩
  | shut => cases ended
  | stuck => cases ended
  | endless => cases ended

def blockRecords (sys : Platform) (header : Header) (block : Block) : List (Bytes × Bytes) :=
  let next := header.setIndex (header.index + 1)
  [(DB_HEADER_KEY,sys.header.encode next.message),
    (makeBlockName next.index,sys.block.encode block.message)]

def newDatabase (sys : Platform) (data : Bytes) (privateKey : PrivateKey) (publicKey : PublicKey) :
    Database :=
  DB.applyBatch [(DB_HEADER_KEY,sys.header.encode
    (Header.message ⟨DB_VERSION,0,data,privateKey,publicKey⟩))] ∅

section Records
variable {sys : Platform} {header : Header} {block : Block} {db : Database}

theorem newDatabaseHeader {data : Bytes} {privateKey : PrivateKey} {publicKey : PublicKey} :
    (newDatabase sys data privateKey publicKey).lookup DB_HEADER_KEY =
      some (sys.header.encode (Header.message ⟨DB_VERSION,0,data,privateKey,publicKey⟩)) :=
  Finmap.lookup_insert _

theorem newDatabaseBare (data : Bytes) (privateKey : PrivateKey) (publicKey : PublicKey) (i : UInt64) :
    (newDatabase sys data privateKey publicKey).lookup (makeBlockName i) = none := by
  simp only [newDatabase,DB.applyBatch,List.foldl_cons,List.foldl_nil]
  rw [Finmap.lookup_insert_of_ne _ (headerKeyNotBlock i).symm,Finmap.lookup_empty]

theorem headerRecordAfter : (DB.applyBatch (blockRecords sys header block) db).lookup DB_HEADER_KEY =
    some (sys.header.encode (header.setIndex (header.index + 1)).message) := by
  simp only [DB.applyBatch,blockRecords,List.foldl_cons,List.foldl_nil]
  rw [Finmap.lookup_insert_of_ne _ (headerKeyNotBlock _),Finmap.lookup_insert]

theorem blockRecordAfter :
    (DB.applyBatch (blockRecords sys header block) db).lookup (makeBlockName (header.index + 1)) =
      some (sys.block.encode block.message) :=
  Finmap.lookup_insert _

theorem recordsElsewhere {key : Bytes} (notHeader : key ≠ DB_HEADER_KEY)
    (notBlock : key ≠ makeBlockName (header.index + 1)) :
    (DB.applyBatch (blockRecords sys header block) db).lookup key = db.lookup key := by
  simp only [DB.applyBatch,blockRecords,Header.setIndex,List.foldl_cons,List.foldl_nil]
  rw [Finmap.lookup_insert_of_ne _ notBlock,Finmap.lookup_insert_of_ne _ notHeader]

theorem blockRecordKept {i : UInt64} (other : i ≠ header.index + 1) :
    (DB.applyBatch (blockRecords sys header block) db).lookup (makeBlockName i) =
      db.lookup (makeBlockName i) :=
  recordsElsewhere (headerKeyNotBlock i).symm fun same => other (blockNameInjective same)

end Records

structure Appended (sys : Platform) (path : Path) (block : Block) (w t : World) (db : Database)
    (header : Header) : Prop extends Forward w t where
  here : w.directory path = some db
  supported : Supported sys db header
  headerFits : (sys.header.encode (header.setIndex (header.index + 1)).message).length ≤ maxMessageLength
  blockFits : (sys.block.encode block.message).length ≤ maxMessageLength
  directory : t.directory = Function.update w.directory path
    (some (DB.applyBatch (blockRecords sys header block) db))

theorem addBlockTotal (sys : Platform) (chain : Chain) (block : Block) :
    Exec.Total (addBlock sys chain block) :=
  Storage.openSessionTotal <| Exec.totalBind (headerFromSteady sys _).total fun _ =>
    Exec.totalBind (serializeTame _ _).total fun _ =>
      Exec.totalBind (serializeTame _ _).total fun _ => Storage.setTotal _ _

theorem addBlockDone {sys chain block w u t} (h : addBlock sys chain block w = (.done u,t)) :
    ∃ db header, Appended sys chain.path block w t db header := by
  rcases Storage.openSessionCases h with ⟨absent,_⟩ | ⟨db,v,found,_,run,rfl⟩
  · cases absent
  · have here : (Storage.within chain.path w).directory chain.path = some db := found
    simp only [Exec.bindDone] at run
    obtain ⟨header,a,got,headerData,b,packed,blockData,c,packedBlock,wrote⟩ := run
    have supported := headerFromDone here got
    have quietA := (headerFromSteady sys chain.path).quiet.apply got
    have quietB := (serializeTame _ _).quiet.apply packed
    have quietC := (serializeTame _ _).quiet.apply packedBlock
    have quiet := IsTrans.trans _ _ _ quietA (IsTrans.trans _ _ _ quietB quietC)
    obtain ⟨rfl,headerFits⟩ := serialized packed
    obtain ⟨rfl,blockFits⟩ := serialized packedBlock
    have set := Storage.setDone wrote
    refine ⟨db,header,?_,found,supported,headerFits,blockFits,?_⟩
    · refine Storage.releasedForward (quiet.toForward.trans ?_)
      rw [set]
      exact Storage.placeForward _ _ _
    · have still : c.directory = w.directory := quiet.directory
      rw [set]
      simp only [DB.unlock,DB.place,World.spend,still,found,Option.map_some,blockRecords]

theorem addBlockAbsent {sys chain block w t} (h : addBlock sys chain block w = (.absent,t)) :
    Quiet w t ∧ (t.failed = true ∨ Unreadable chain.path w fun db =>
      ∀ header, ¬ Supported sys db header) := by
  have why := sessionAbsent (fun db => ∀ header, ¬ Supported sys db header) h
    fun db u v found run => by
      rcases Exec.bindAbsent.mp run with first | ⟨header,a,got,rest⟩
      · exact headerFromAbsent found first
      · rcases Exec.bindAbsent.mp rest with packing | ⟨_,b,_,rest⟩
        · exact Or.inl ((serializeTame _ _).blames _ _ packing)
        · rcases Exec.bindAbsent.mp rest with packing | ⟨_,c,_,writing⟩
          · exact Or.inl ((serializeTame _ _).blames _ _ packing)
          · exact Or.inl (Storage.setAbsent writing).1
  refine ⟨?_,why⟩
  rcases Storage.openSessionCases h with ⟨_,quiet,_⟩ | ⟨db,u,found,_,run,rfl⟩
  · exact quiet
  · have quiet : Quiet (Storage.within chain.path w) u := by
      have steady := headerFromSteady sys chain.path
      rcases Exec.bindAbsent.mp run with first | ⟨header,a,got,rest⟩
      · exact steady.quiet.apply first
      · have quietA := steady.quiet.apply got
        rcases Exec.bindAbsent.mp rest with packing | ⟨_,b,packed,rest⟩
        · exact IsTrans.trans _ _ _ quietA ((serializeTame _ _).quiet.apply packing)
        · have quietB := IsTrans.trans _ _ _ quietA ((serializeTame _ _).quiet.apply packed)
          rcases Exec.bindAbsent.mp rest with packing | ⟨_,c,packed,writing⟩
          · exact IsTrans.trans _ _ _ quietB ((serializeTame _ _).quiet.apply packing)
          · have quietC := IsTrans.trans _ _ _ quietB ((serializeTame _ _).quiet.apply packed)
            exact IsTrans.trans _ _ _ quietC (Storage.setAbsent writing).2
    exact ⟨Storage.releasedForward quiet.toForward,quiet.directory⟩

theorem createTotal (sys : Platform) (chain : Chain) (data : Bytes) (privateKey : PrivateKey)
    (publicKey : PublicKey) : Exec.Total (create sys chain data privateKey publicKey) := by
  refine Exec.totalBind (serializeTame _ _).total fun buffer => ?_
  intro w e t h
  rcases Storage.createSessionCases h with ⟨absent,_⟩ | ⟨u,_,_,run,_⟩
  · cases absent
  · exact Storage.setTotal _ _ _ e u run

theorem createDone {sys chain data privateKey publicKey w u t}
    (h : create sys chain data privateKey publicKey w = (.done u,t)) :
    Forward w t ∧ w.directory chain.path = none ∧
      (sys.header.encode (Header.message ⟨DB_VERSION,0,data,privateKey,publicKey⟩)).length ≤
        maxMessageLength ∧
      t.directory = Function.update w.directory chain.path
        (some (newDatabase sys data privateKey publicKey)) := by
  obtain ⟨buffer,r,packed,made⟩ := Exec.bindDone.mp h
  have quiet := (serializeTame _ _).quiet.apply packed
  obtain ⟨rfl,fits⟩ := serialized packed
  rcases Storage.createSessionCases made with ⟨absent,_⟩ | ⟨v,free,_,run,rfl⟩
  · cases absent
  · rw [Storage.setDone run]
    rw [quiet.directory] at free
    refine ⟨quiet.toForward.trans ?_,free,fits,?_⟩
    · refine Storage.releasedForward ?_
      exact ⟨rfl,id,fun _ h => h,1,fun _ => rfl⟩
    · simp [DB.unlock,DB.place,World.spend,Storage.within,DB.lock,quiet.directory,newDatabase]

theorem createAbsent {sys chain data privateKey publicKey w t}
    (h : create sys chain data privateKey publicKey w = (.absent,t)) :
    Forward w t ∧ (t.directory = w.directory ∨
        t.failed = true ∧ w.directory chain.path = none ∧
          t.directory = Function.update w.directory chain.path (some ∅)) ∧
      (t.failed = true ∨ chain.path ∈ w.opened ∨ w.directory chain.path ≠ none) := by
  rcases Exec.bindAbsent.mp h with packing | ⟨buffer,r,packed,made⟩
  · have quiet := (serializeTame _ _).quiet.apply packing
    exact ⟨quiet.toForward,Or.inl quiet.directory,Or.inl ((serializeTame _ _).blames _ _ packing)⟩
  · have quiet := (serializeTame _ _).quiet.apply packed
    rcases Storage.createSessionCases made with ⟨_,still,why⟩ | ⟨v,free,_,run,rfl⟩
    · have both : Quiet w t := IsTrans.trans _ _ _ quiet still
      rw [quiet.opened,quiet.directory] at why
      exact ⟨both.toForward,Or.inl both.directory,why⟩
    · obtain ⟨failed,still⟩ := Storage.setAbsent run
      rw [quiet.directory] at free
      refine ⟨quiet.toForward.trans (Storage.releasedForward ?_),Or.inr ⟨failed,free,?_⟩,Or.inl failed⟩
      · exact ⟨still.opened,still.failed,still.hashed,still.spent⟩
      · have placed := still.directory
        simpa [DB.unlock,DB.place,World.spend,Storage.within,DB.lock,quiet.directory] using placed

theorem removeTotal (chain : Chain) : Exec.Total (remove chain) := by
  intro w e t h
  unfold remove at h
  rw [Storage.removeApply] at h
  split at h
  · split at h <;> cases h
  · cases h

theorem removeDone {chain w u t} (h : remove chain w = (.done u,t)) :
    Forward w t ∧ t.directory = Function.update w.directory chain.path none := by
  unfold remove at h
  rw [Storage.removeApply] at h
  split at h
  · split at h <;> cases h
    exact ⟨Storage.placeForward chain.path none w,rfl⟩
  · cases h

theorem removeAbsent {chain w t} (h : remove chain w = (.absent,t)) :
    Quiet w t ∧ (t.failed = true ∨ chain.path ∈ w.opened) := by
  unfold remove at h
  rw [Storage.removeApply] at h
  split at h
  · split at h <;> cases h
    rename_i locked
    exact ⟨spendQuiet w,Or.inr (not_not.mp locked)⟩
  · cases h
    exact ⟨failQuiet w,Or.inl rfl⟩

end Chain
end ChainDB
