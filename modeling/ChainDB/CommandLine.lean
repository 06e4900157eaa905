import ChainDB.Application
import ChainDB.Arguments

/-! The command line of the client, cli/src/Application.cpp: what `initialize` stores in the members, and
the request that `run` makes of them. The logger and the connection are left out. -/
namespace ChainDB
open Effects
namespace Application

inductive Flag where
  | isPingRequest | isCreateChainRequest | isRemoveChainRequest | isAddBlockRequest | isGetBlockRequest
  | isGetBlocksRequest | isVerifyChainRequest | isGetChainHeaderRequest | isGetChainKeysRequest
  | isGetChainInfoRequest
  deriving DecidableEq, Repr

inductive Number where
  | serverPort | timeout | chainId | blockId
  deriving DecidableEq, Repr

inductive Text where
  | serverAddr | password | data
  deriving DecidableEq, Repr

abbrev Options := IApplication.Targets Flag Number Text

def handlers : IApplication.HandlerMap Flag Number Text := [
  (ascii "--addr",.string .serverAddr),
  (ascii "--port",.int .serverPort),
  (ascii "--timeout",.int .timeout),
  (ascii "--ping",.bool .isPingRequest),
  (ascii "--create-chain",.bool .isCreateChainRequest),
  (ascii "--remove-chain",.bool .isRemoveChainRequest),
  (ascii "--add-block",.bool .isAddBlockRequest),
  (ascii "--get-block",.bool .isGetBlockRequest),
  (ascii "--get-blocks",.bool .isGetBlocksRequest),
  (ascii "--verify-chain",.bool .isVerifyChainRequest),
  (ascii "--get-header",.bool .isGetChainHeaderRequest),
  (ascii "--get-keys",.bool .isGetChainKeysRequest),
  (ascii "--get-info",.bool .isGetChainInfoRequest),
  (ascii "--chain-id",.int .chainId),
  (ascii "--block-id",.int .blockId),
  (ascii "--password",.string .password),
  (ascii "--data",.string .data)]

def defaults : Options where
  bool _ := false
  int
    | .serverPort => 8888
    | .timeout => 1
    | .chainId => 1
    | .blockId => 1
  string
    | .serverAddr => ascii "127.0.0.1"
    | .password => []
    | .data => ascii "{}"

def initializeOptions (argv : List Bytes) : Exec Options Exception Unit :=
  IApplication.parseArgs handlers argv

def sizeOfInt (n : Int32) : UInt64 := UInt64.ofInt n.toInt

/- The call that `run` makes; without one it only returns true. -/
def run (options : Options) : Option Command :=
  let chainId := sizeOfInt (options.int .chainId)
  let blockId := sizeOfInt (options.int .blockId)
  let data := options.string .data
  if options.bool .isPingRequest then some .ping
  else if options.bool .isCreateChainRequest then some (.createChain chainId data)
  else if options.bool .isRemoveChainRequest then some (.removeChain chainId)
  else if options.bool .isAddBlockRequest then some (.addBlock chainId data)
  else if options.bool .isGetBlockRequest then some (.getBlock chainId blockId)
  else if options.bool .isGetBlocksRequest then some (.getBlocks chainId)
  else if options.bool .isVerifyChainRequest then some (.verifyChain chainId)
  else if options.bool .isGetChainHeaderRequest then some (.getChainHeader chainId)
  else if options.bool .isGetChainKeysRequest then some (.getChainKeys chainId)
  else if options.bool .isGetChainInfoRequest then some (.getChainInfo chainId)
  else none

def given (key : Bytes) (argv : List Bytes) : Option Bytes :=
  (((IApplication.pairsOf (argv.drop 1)).getD []).reverse.find? fun pair => decide (pair.1 = key)).map
    Prod.snd

def named (read : Bytes → Option Int) (key : Bytes) (argv : List Bytes) : Option Int :=
  match given key argv with
  | none => some 1
  | some text => read text

def chainIdIn (req : IPC.Request) : Command → Option UInt64
  | .ping => none
  | .createChain _ _ => req.createChainRequest.map IPC.DataRequest.chainId
  | .removeChain _ => req.removeChainRequest.map IPC.ChainRequest.chainId
  | .addBlock _ _ => req.addBlockRequest.map IPC.DataRequest.chainId
  | .getBlock _ _ => req.getBlockRequest.map IPC.GetBlockRequest.chainId
  | .getBlocks _ => req.getBlocksRequest.map IPC.ChainRequest.chainId
  | .verifyChain _ => req.verifyChainRequest.map IPC.ChainRequest.chainId
  | .getChainHeader _ => req.getChainHeaderRequest.map IPC.ChainRequest.chainId
  | .getChainKeys _ => req.getChainKeysRequest.map IPC.ChainRequest.chainId
  | .getChainInfo _ => req.getChainInfoRequest.map IPC.ChainRequest.chainId

def namesBlock : Command → Bool
  | .getBlock _ _ => true
  | _ => false

def Carries (read : Bytes → Option Int) (key : Bytes) (argv : List Bytes) (id : UInt64) : Prop :=
  named read key argv = some (id.toNat : Int)

def Addresses (sys : Platform) (read : Bytes → Option Int) (argv : List Bytes) (command : Command)
    (msg : Bytes) : Prop :=
  ∃ req, sys.request.parseFromString msg = some req ∧
    (∃ id, chainIdIn req command = some id ∧ Carries read (ascii "--chain-id") argv id) ∧
    (namesBlock command = true → ∃ id, req.getBlockRequest.map IPC.GetBlockRequest.blockId = some id ∧
      Carries read (ascii "--block-id") argv id)

def NotNegative (read : Bytes → Option Int) (key : Bytes) (argv : List Bytes) : Prop :=
  ∃ n, named read key argv = some n ∧ 0 ≤ n

def Sendable (read : Bytes → Option Int) (argv : List Bytes) (command : Command) : Prop :=
  NotNegative read (ascii "--chain-id") argv ∧
    (namesBlock command = true → NotNegative read (ascii "--block-id") argv)

theorem sizeOfIntExact (n : Int32) : ((sizeOfInt n).toNat : Int) = n.toInt ↔ 0 ≤ n.toInt := by
  have low := n.le_toInt
  have high := n.toInt_lt
  have size : (sizeOfInt n).toNat = (n.toInt % 2^64).toNat := by
    refine (UInt64.toNat_ofNat').trans (Nat.mod_eq_of_lt ?_)
    omega
  rw [size]
  omega

theorem handlerKnown {key : Bytes} {data : IApplication.ArgData Flag Number Text}
    (found : handlers.lookup key = some data) : (key,data) ∈ handlers := by
  obtain ⟨front,back,split,_⟩ := List.lookup_eq_some_iff.mp found
  rw [split]
  exact List.mem_append_right _ List.mem_cons_self

theorem ownKey {key other : Bytes} {data : IApplication.ArgData Flag Number Text}
    (own : handlers.lookup key = some data)
    (alone : ∀ entry ∈ handlers, entry.2 = data → entry.1 = key) :
    handlers.lookup other = some data ↔ other = key := by
  constructor
  · exact fun found => alone _ (handlerKnown found) rfl
  · rintro rfl
    exact own

section Accepted
variable {argv : List Bytes} {options : Options}

theorem numberNamed {key : Bytes} {number : Number} (own : handlers.lookup key = some (.int number))
    (alone : ∀ entry ∈ handlers, entry.2 = .int number → entry.1 = key)
    (unit : (defaults.int number).toInt = 1)
    (accepted : initializeOptions argv defaults = (.done (),options)) :
    named Numeral.integerPrefix key argv = some (options.int number).toInt := by
  obtain ⟨pairs,split,taken⟩ := IApplication.parsePairsDone accepted
  have stored := IApplication.parsePairsValue split accepted (.int number)
  have keys : IApplication.lastFor handlers (.int number) pairs =
      pairs.reverse.find? fun pair => decide (pair.1 = key) := by
    simp only [IApplication.lastFor,ownKey own alone]
  simp only [IApplication.finalValue,keys] at stored
  simp only [named,given,split,Option.getD_some]
  cases last : pairs.reverse.find? fun pair => decide (pair.1 = key) with
  | none =>
    simp only [last] at stored
    injection stored with same
    simp only [Option.map_none,same,unit]
  | some pair =>
    simp only [last] at stored
    injection stored with same
    have listed := List.mem_reverse.mp (List.mem_of_find?_eq_some last)
    have called : pair.1 = key := of_decide_eq_true
      (List.find?_some (p := fun pair : Bytes × Bytes => decide (pair.1 = key)) last)
    obtain ⟨data,found,readable⟩ := taken pair listed
    rw [called] at found
    cases own.symm.trans found
    obtain ⟨n,read⟩ := readable number rfl
    simp only [Option.map_some]
    rw [same,IApplication.stoiOk read]
    rfl

theorem carriesIff {read : Bytes → Option Int} {key : Bytes} {n : Int32}
    (sound : ∀ text z, read text = some z → Numeral.integerPrefix text = some z)
    (stored : named Numeral.integerPrefix key argv = some n.toInt) :
    Carries read key argv (sizeOfInt n) ↔ NotNegative read key argv := by
  have agrees : ∀ z, named read key argv = some z → z = n.toInt := by
    intro z is
    unfold named at is stored
    cases value : given key argv with
    | none =>
      simp only [value,Option.some.injEq] at is stored
      exact is.symm.trans stored
    | some text =>
      simp only [value] at is stored
      exact Option.some.inj ((sound text z is).symm.trans stored)
  constructor
  · exact fun carried => ⟨_,carried,Int.natCast_nonneg _⟩
  · rintro ⟨z,is,nonnegative⟩
    cases agrees z is
    rw [Carries,is,(sizeOfIntExact n).mpr nonnegative]

end Accepted

def chainIdOf : Command → Option UInt64
  | .ping => none
  | .createChain chainId _ => some chainId
  | .removeChain chainId => some chainId
  | .addBlock chainId _ => some chainId
  | .getBlock chainId _ => some chainId
  | .getBlocks chainId => some chainId
  | .verifyChain chainId => some chainId
  | .getChainHeader chainId => some chainId
  | .getChainKeys chainId => some chainId
  | .getChainInfo chainId => some chainId

def blockIdOf : Command → Option UInt64
  | .getBlock _ blockId => some blockId
  | _ => none

theorem askNext {flag : Prop} [Decidable flag] {first command : Command} {later : Option Command}
    (h : (if flag then some first else later) = some command) : command = first ∨ later = some command := by
  split at h
  · exact Or.inl (Option.some.inj h).symm
  · exact Or.inr h

theorem runIds {options : Options} {command : Command} (asked : run options = some command)
    (chain : command ≠ .ping) : chainIdOf command = some (sizeOfInt (options.int .chainId)) ∧
      (namesBlock command = true → blockIdOf command = some (sizeOfInt (options.int .blockId))) := by
  unfold run at asked
  rcases askNext asked with rfl | asked
  · exact absurd rfl chain
  repeat
    rcases askNext asked with rfl | asked
    · exact ⟨rfl,fun own => by first | rfl | cases own⟩
  cases asked

theorem requestIds {sys : Platform} {app : Application} {command : Command} {w t : World}
    {req : IPC.Request} (built : request sys app command w = (.done req,t)) :
    chainIdIn req command = chainIdOf command ∧
      (namesBlock command = true →
        req.getBlockRequest.map IPC.GetBlockRequest.blockId = blockIdOf command) := by
  cases command with
  | ping => exact ⟨rfl,fun none => by cases none⟩
  | getBlock chainId blockId =>
    obtain ⟨data,u,_,same⟩ := Exec.bindDone.mp built
    cases same
    exact ⟨rfl,fun _ => rfl⟩
  | _ =>
    obtain ⟨data,u,_,same⟩ := Exec.bindDone.mp built
    cases same
    exact ⟨rfl,fun none => by cases none⟩

section Sent
variable {sys : Platform} {argv : List Bytes} {command : Command} {msg : Bytes}

theorem addressesIff {req : IPC.Request} (parsed : sys.request.parseFromString msg = some req)
    {chainId blockId : Int32} (chainSent : chainIdIn req command = some (sizeOfInt chainId))
    (blockSent : namesBlock command = true →
      req.getBlockRequest.map IPC.GetBlockRequest.blockId = some (sizeOfInt blockId))
    (chainNamed : named Numeral.integerPrefix (ascii "--chain-id") argv = some chainId.toInt)
    (blockNamed : named Numeral.integerPrefix (ascii "--block-id") argv = some blockId.toInt)
    {read : Bytes → Option Int}
    (sound : ∀ text z, read text = some z → Numeral.integerPrefix text = some z) :
    Addresses sys read argv command msg ↔ Sendable read argv command := by
  constructor
  · rintro ⟨other,same,⟨id,is,carried⟩,block⟩
    cases parsed.symm.trans same
    cases chainSent.symm.trans is
    refine ⟨(carriesIff sound chainNamed).mp carried,fun own => ?_⟩
    obtain ⟨id,isBlock,carriedBlock⟩ := block own
    cases (blockSent own).symm.trans isBlock
    exact (carriesIff sound blockNamed).mp carriedBlock
  · rintro ⟨chain,block⟩
    refine ⟨req,parsed,⟨_,chainSent,(carriesIff sound chainNamed).mpr chain⟩,fun own => ?_⟩
    exact ⟨_,blockSent own,(carriesIff sound blockNamed).mpr (block own)⟩

/- What the user gives counts as an integer under either reading: only as a numeral as a whole, or as
far as it starts with one. -/
theorem addressesExactly (lawful : sys.request.Lawful) {options : Options}
    (accepted : initializeOptions argv defaults = (.done (),options))
    (asked : run options = some command) (chain : command ≠ .ping) {dir : Directory} {draws : Draws}
    {t : World}
    (sent : message sys ⟨options.string .password⟩ command (start dir draws) = (.done msg,t)) :
    (Addresses sys Numeral.wholeInteger argv command msg ↔
        Sendable Numeral.wholeInteger argv command) ∧
      (Addresses sys Numeral.integerPrefix argv command msg ↔
        Sendable Numeral.integerPrefix argv command) := by
  obtain ⟨req,u,built,serial⟩ := Exec.bindDone.mp sent
  obtain ⟨rfl,fits⟩ := serialized serial
  obtain ⟨chainAsked,blockAsked⟩ := runIds asked chain
  obtain ⟨chainBuilt,blockBuilt⟩ := requestIds built
  have chainNamed : named Numeral.integerPrefix (ascii "--chain-id") argv =
      some (options.int .chainId).toInt := numberNamed rfl (by decide) rfl accepted
  have blockNamed : named Numeral.integerPrefix (ascii "--block-id") argv =
      some (options.int .blockId).toInt := numberNamed rfl (by decide) rfl accepted
  have either : ∀ read : Bytes → Option Int,
      (∀ text z, read text = some z → Numeral.integerPrefix text = some z) →
        (Addresses sys read argv command (sys.request.encode req) ↔ Sendable read argv command) :=
    fun read => addressesIff (lawful req fits) (chainBuilt.trans chainAsked)
      (fun own => (blockBuilt own).trans (blockAsked own)) chainNamed blockNamed
  exact ⟨either _ fun _ _ => Numeral.wholeIsPrefix,either _ fun _ _ => id⟩

end Sent

def sampleBlockArgs : List Bytes :=
  ["<path>","--get-block","true","--chain-id","7","--block-id","3"].map ascii

def sampleBlockMessage : Bytes :=
  Sample.platform.request.encode {authData := some ⟨[]⟩,getBlockRequest := some ⟨7,3⟩}

theorem sampleBlockAddressed :
    (Addresses Sample.platform Numeral.wholeInteger sampleBlockArgs (.getBlock 7 3) sampleBlockMessage ↔
        Sendable Numeral.wholeInteger sampleBlockArgs (.getBlock 7 3)) ∧
      (Addresses Sample.platform Numeral.integerPrefix sampleBlockArgs (.getBlock 7 3)
          sampleBlockMessage ↔
        Sendable Numeral.integerPrefix sampleBlockArgs (.getBlock 7 3)) :=
  addressesExactly Sample.requestLawful
    (@Exec.outcomeApply _ _ _ (initializeOptions sampleBlockArgs) defaults (.done ())
      (by decide +kernel))
    (by decide +kernel) (by decide)
    (@Exec.outcomeApply _ _ _ (message Sample.platform _ (.getBlock 7 3))
      (start Manager.emptyDirectory (Sample.steady 1)) (.done sampleBlockMessage) (by decide +kernel))

def negativeArgs : List Bytes := ["<path>","--remove-chain","true","--chain-id","-1"].map ascii

def negativeMessage : Bytes :=
  Sample.platform.request.encode
    {authData := some ⟨[]⟩,removeChainRequest := some ⟨18446744073709551615⟩}

theorem negativeChainAddressed :
    ∃ options command t, initializeOptions negativeArgs defaults = (.done (),options) ∧
      run options = some command ∧ command ≠ .ping ∧
      message Sample.platform ⟨options.string .password⟩ command
        (start Manager.emptyDirectory (Sample.steady 1)) = (.done negativeMessage,t) ∧
      ¬ Addresses Sample.platform Numeral.wholeInteger negativeArgs command negativeMessage ∧
      ¬ Addresses Sample.platform Numeral.integerPrefix negativeArgs command negativeMessage := by
  refine ⟨_,.removeChain 18446744073709551615,_,@Exec.outcomeApply _ _ _
    (initializeOptions negativeArgs) defaults (.done ()) (by decide +kernel),by decide +kernel,by decide,
    @Exec.outcomeApply _ _ _ (message Sample.platform _ (.removeChain 18446744073709551615))
      (start Manager.emptyDirectory (Sample.steady 1)) (.done negativeMessage) (by decide +kernel),?_,?_⟩
  · rintro ⟨_,_,⟨id,_,carried⟩,_⟩
    have minus : named Numeral.wholeInteger (ascii "--chain-id") negativeArgs = some (-1) := by
      decide +kernel
    have below := Option.some.inj (minus.symm.trans carried)
    omega
  · rintro ⟨_,_,⟨id,_,carried⟩,_⟩
    have minus : named Numeral.integerPrefix (ascii "--chain-id") negativeArgs = some (-1) := by
      decide +kernel
    have below := Option.some.inj (minus.symm.trans carried)
    omega

end Application
end ChainDB
