import ChainDB.Library.Composition
import ChainDB.Hashing
import ChainDB.Manager

/-! The calls of the manager as compositions of primitive calls and LevelDB calls. None of these
parts reads the record of hashed texts, so no call of the manager does. -/
namespace ChainDB
open Effects

inductive Part : (α : Type) → Action α → Prop where
  | call (kind : Primitive) : Part Draw (call kind)
  | fault (α : Type) : Part α fault
  | note (input : Bytes) :
      Part Unit (Exec.modify (fun w => {w with hashed := w.hashed ++ [input]}))
  | openDatabase (options : DB.Options) (path : Path) : Part Unit (DB.openDatabase options path)
  | get (path : Path) (key : Bytes) : Part Bytes (DB.get path key)
  | write (path : Path) (batch : List (Bytes × Bytes)) : Part Unit (DB.write path batch)
  | destroyDatabase (path : Path) : Part Unit (DB.destroyDatabase path)

abbrev Program {α : Type} (m : Action α) : Prop :=
  Exec.Composed Part (fun release => ∃ storage : Storage, release = storage.destroy) m

section Programs
variable {α : Type}

theorem callProgram (kind : Primitive) : Program (call kind) := .part (.call kind)

theorem faultProgram : Program (fault : Action α) := .part (.fault α)

theorem serializeProgram {μ : Type} (codec : Codec μ) (m : μ) : Program (codec.serializeToString m) := by
  refine .bind (callProgram .serialise) fun _ => ?_
  split
  · exact .pure _
  · exact faultProgram

theorem hashProgram (sys : Platform) (input : List Bytes) : Program (SHA256.getHash sys input) := by
  have update : ∀ input ctx, Program (SHA256.update input ctx) := by
    intro input
    induction input with
    | nil => exact fun ctx => .pure _
    | cons data rest ih => exact fun ctx => .bind (callProgram .hash) fun _ => ih _
  exact .bind (callProgram .hash) fun _ => .bind (update _ _) fun _ => .bind (callProgram .hash) fun _ =>
    .bind (.part (.note _)) fun _ => .pure _

theorem hashNProgram (sys : Platform) (input : List Bytes) (n : UInt64) :
    Program (SHA256.getHashN sys input n) := by
  have rehash : ∀ rounds hash, Program (SHA256.rehash sys rounds hash) := by
    intro rounds
    induction rounds with
    | zero => exact fun hash => .pure _
    | succ rounds ih => exact fun hash => .bind (hashProgram sys _) fun _ => ih _
  exact .bind (hashProgram sys _) fun _ => rehash _ _

theorem randomProgram (length : Nat) : Program (Random.random length) :=
  .bind (callProgram .random) fun _ => .pure _

theorem privateKeyProgram (sys : Platform) : Program (Secp256k1.generatePrivateKey sys) := by
  refine .bind (randomProgram 32) fun _ => ?_
  split
  · exact .pure _
  · exact faultProgram

theorem publicKeyProgram (sys : Platform) (key : PrivateKey) :
    Program (Secp256k1.createPublicKey sys key) := by
  refine .bind (callProgram .secp) fun _ => ?_
  cases sys.secp.ecPubkeyCreate key with
  | none => exact faultProgram
  | some object => exact .bind (callProgram .secp) fun _ => .pure _

theorem signatureProgram (sys : Platform) (hash : Hash) (key : PrivateKey) :
    Program (Secp256k1.getSignature sys hash key) := by
  refine .bind (callProgram .secp) fun _ => ?_
  cases sys.secp.ecdsaSign hash key with
  | none => exact faultProgram
  | some object => exact .bind (callProgram .secp) fun _ => .pure _

theorem verifyProgram (sys : Platform) (hash : Option Hash) (key : PublicKey) (signature : Signature) :
    Program (Secp256k1.verifySignature sys hash key signature) := by
  unfold Secp256k1.verifySignature
  cases sys.secp.ecPubkeyParse key with
  | none => exact .absent
  | some pubKey =>
    cases sys.secp.ecdsaSignatureParseCompact signature with
    | none => exact .absent
    | some sign =>
      cases hash with
      | none => exact .halt _
      | some hash => exact Exec.composedCheck _

theorem getProgram (storage : Storage) (key : Bytes) : Program (storage.get key) :=
  .bind (Exec.composedCheck _) fun _ => .part (.get _ _)

theorem setProgram (storage : Storage) (pairs : List (Bytes × Bytes)) : Program (storage.set pairs) :=
  .bind (Exec.composedCheck _) fun _ => .part (.write _ _)

theorem openProgram {path : Path} {body : Storage → Action α} (inner : ∀ storage, Program (body storage)) :
    Program (Storage.session Storage.open path body) :=
  .bind (.bind (Exec.composedCheck _) fun _ => .bind (.part (.openDatabase _ _)) fun _ => .pure _)
    fun storage => .ensuring (inner storage) ⟨storage,rfl⟩

theorem createProgram {path : Path} {body : Storage → Action α}
    (inner : ∀ storage, Program (body storage)) :
    Program (Storage.session Storage.create path body) :=
  .bind (.bind (Exec.composedCheck _) fun _ => .bind (.part (.openDatabase _ _)) fun _ => .pure _)
    fun storage => .ensuring (inner storage) ⟨storage,rfl⟩

section Chains
variable (sys : Platform) (chain : Chain)

theorem headerFromProgram (storage : Storage) : Program (Chain.getHeaderFrom sys storage) :=
  .bind (getProgram _ _) fun _ => .bind (Exec.composedOfOption _) fun _ =>
    .bind (Exec.composedCheck _) fun _ => .pure _

theorem blockFromProgram (storage : Storage) (index : UInt64) :
    Program (Chain.getBlockFrom sys storage index) :=
  .bind (getProgram _ _) fun _ => Exec.composedOfOption _

theorem getHeaderProgram : Program (chain.getHeader sys) :=
  openProgram fun _ => .bind (getProgram _ _) fun _ => Exec.composedOfOption _

theorem getBlockProgram (index : UInt64) : Program (chain.getBlock sys index) :=
  openProgram fun storage => .bind (headerFromProgram sys storage) fun _ =>
    .bind (Exec.composedCheck _) fun _ => blockFromProgram sys storage _

theorem getBlocksProgram (blocks : List Block) : Program (chain.getBlocks sys blocks) := by
  have loop : ∀ storage last rounds i blocks,
      Program (Chain.getBlocksLoop sys storage last rounds i blocks) := by
    intro storage last rounds
    induction rounds with
    | zero => exact fun i blocks => .halt _
    | succ rounds ih =>
      intro i blocks
      unfold Chain.getBlocksLoop
      split
      · refine .bind (.attempt (blockFromProgram sys storage i)) fun read => ?_
        cases read with
        | none => exact .pure _
        | some block => exact ih _ _
      · exact .pure _
  exact .bind (.attempt (openProgram fun storage => .bind (headerFromProgram sys storage)
    fun _ => loop _ _ _ _ _)) fun _ => .pure _

theorem appendProgram (block : Block) : Program (chain.addBlock sys block) :=
  openProgram fun storage => .bind (headerFromProgram sys storage) fun _ =>
    .bind (serializeProgram _ _) fun _ => .bind (serializeProgram _ _) fun _ => setProgram _ _

theorem composeProgram (data : Bytes) : Program (Manager.composeBlock sys chain data) := by
  refine .bind (getHeaderProgram sys chain) fun header => .bind ?_ fun prevHash => ?_
  · unfold Manager.previousHash
    split
    · exact hashNProgram sys _ _
    · exact .bind (getBlockProgram sys chain _) fun _ => .pure _
  · exact .bind (randomProgram 8) fun _ => .bind (hashProgram sys _) fun _ =>
      .bind (signatureProgram sys _ _) fun _ => .bind (hashProgram sys _) fun _ => .pure _

theorem verifyBlocksProgram (header : Header) (last : Option Block) (blocks : List Block) :
    Program (Manager.verifyBlocks sys header last blocks) := by
  induction blocks generalizing last with
  | nil => exact .pure _
  | cons block rest ih =>
    refine .bind ?_ fun prevHash => .bind ?_ fun _ => ih _
    · cases last with
      | none => exact hashNProgram sys _ _
      | some last => exact .pure _
    · exact .bind (.attempt (hashProgram sys _)) fun _ => .bind (verifyProgram sys _ _ _) fun _ =>
        .bind (hashProgram sys _) fun _ => Exec.composedCheck _

end Chains

theorem performProgram (sys : Platform) (manager : Manager) (chainId : UInt64)
    (operation : Manager.Operation) : Program (Manager.perform sys manager chainId operation) := by
  cases operation with
  | createChain data =>
    refine .bind (.attempt (.bind (privateKeyProgram sys) fun _ => .bind (publicKeyProgram sys _) fun _ =>
      .bind ?_ fun _ => .pure _)) fun _ => .pure _
    exact .bind (serializeProgram _ _) fun _ => createProgram fun storage => setProgram _ _
  | addBlock data =>
    exact .bind (.attempt (.bind (composeProgram sys _ _) fun _ => .bind (appendProgram sys _ _) fun _ =>
      .pure _)) fun _ => .pure _
  | getBlock index => exact .bind (.attempt (getBlockProgram sys _ index)) fun _ => .pure _
  | getBlocks blocks => exact .bind (getBlocksProgram sys _ blocks) fun _ => .pure _
  | removeChain => exact .bind (.attempt (.part (.destroyDatabase _))) fun _ => .pure _
  | verifyChain =>
    exact .bind (.attempt (.bind (getHeaderProgram sys _) fun _ => .bind (getBlocksProgram sys _ _) fun _ =>
      .bind (Exec.composedCheck _) fun _ => verifyBlocksProgram sys _ _ _)) fun _ => .pure _
  | getChainHeader => exact .bind (.attempt (getHeaderProgram sys _)) fun _ => .pure _
  | getChainInfo =>
    exact .bind (.attempt (.bind (getHeaderProgram sys _) fun _ => .pure _)) fun _ => .pure _

end Programs

structure SameBesidesLog (w t : World) : Prop where
  directory : w.directory = t.directory
  opened : w.opened = t.opened
  draws : w.draws = t.draws
  failed : w.failed = t.failed

abbrev Blind {α : Type} (m : Action α) : Prop := Exec.Alike SameBesidesLog m

theorem blindRead {α : Type} {f : World → Action α} (blind : ∀ w, Blind (f w))
    (same : ∀ w t, SameBesidesLog w t → f w = f t) : Blind (Exec.read >>= f) := by
  intro w t related
  rw [Exec.bindOfDone (Exec.readApply (s := w)),Exec.bindOfDone (Exec.readApply (s := t)),same w t related]
  exact blind t w t related

theorem blindModify {g : World → World} (kept : ∀ w t, SameBesidesLog w t → SameBesidesLog (g w) (g t)) :
    Blind (Exec.modify g : Action Unit) := fun w t related => ⟨rfl,kept w t related⟩

theorem blindCall (kind : Primitive) : Blind (call kind) := by
  intro w t same
  unfold call
  rw [same.draws]
  split
  · exact ⟨rfl,same.directory,same.opened,by simp [World.spend,same.draws],same.failed⟩
  · exact ⟨rfl,same.directory,same.opened,by simp [World.spend,World.fail,same.draws],rfl⟩

theorem SameBesidesLog.place {w t : World} {path : Path} (content : Directory → Option Database)
    (same : SameBesidesLog w t) : SameBesidesLog (DB.place path (content w.directory) w)
      (DB.place path (content t.directory) t) :=
  ⟨by simp [DB.place,same.directory],same.opened,same.draws,same.failed⟩

theorem SameBesidesLog.lock {w t : World} {path : Path} (same : SameBesidesLog w t) :
    SameBesidesLog (DB.lock path w) (DB.lock path t) :=
  ⟨same.directory,by simp [DB.lock,same.opened],same.draws,same.failed⟩

theorem partBlind (α : Type) (m : Action α) (part : Part α m) : Blind m := by
  cases part with
  | call kind => exact blindCall kind
  | fault => exact fun w t same => ⟨rfl,same.directory,same.opened,same.draws,rfl⟩
  | note input => exact fun w t same => ⟨rfl,same.directory,same.opened,same.draws,same.failed⟩
  | openDatabase options path =>
    refine Exec.alikeBind (blindCall .database) fun _ => blindRead (fun w => ?_) fun w t same => ?_
    · refine Exec.alikeBind (Exec.alikeCheck _) fun _ => ?_
      split
      · exact Exec.alikeBind (Exec.alikeCheck _) fun _ => blindModify fun _ _ same => same.lock
      · exact Exec.alikeBind (Exec.alikeCheck _) fun _ =>
          blindModify fun _ _ same => (same.place fun _ => some ∅).lock
    · rw [same.directory,same.opened]
  | get path key =>
    refine Exec.alikeBind (blindCall .database) fun _ => blindRead (fun w => Exec.alikeOfOption _) ?_
    intro w t same
    rw [same.directory]
  | write path batch =>
    exact Exec.alikeBind (blindCall .database) fun _ =>
      blindModify fun _ _ same => same.place fun directory => (directory path).map (DB.applyBatch batch)
  | destroyDatabase path =>
    refine Exec.alikeBind (blindCall .database) fun _ => blindRead (fun w => ?_) fun w t same => ?_
    · exact Exec.alikeBind (Exec.alikeCheck _) fun _ =>
        blindModify fun _ _ same => same.place fun _ => none
    · rw [same.opened]

theorem Program.blind {α : Type} {m : Action α} (program : Program m) : Blind m := by
  refine program.alike partBlind fun release known w t same => ?_
  obtain ⟨storage,rfl⟩ := known
  unfold Storage.destroy
  split
  · exact ⟨same.directory,by simp [DB.unlock,same.opened],same.draws,same.failed⟩
  · exact same

end ChainDB
