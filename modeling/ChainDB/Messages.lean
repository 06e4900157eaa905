import ChainDB.World

/-! The messages of proto/storage.proto and proto/service.proto. An optional submessage is
an `Option`: present exactly when a mutable accessor ran or the parser met its field. -/
namespace ChainDB
open Effects

namespace Blockchain

structure Header where
  version : UInt64
  index : UInt64
  data : Bytes
  privateKey : Bytes
  publicKey : Bytes
  deriving DecidableEq, Repr

structure Block where
  hash : Bytes
  prevHash : Bytes
  nonce : Bytes
  data : Bytes
  signature : Bytes
  deriving DecidableEq, Repr

end Blockchain

namespace IPC

structure AuthData where
  passwordHash : Bytes
  deriving DecidableEq, Repr

structure StatusResponse where
  status : UInt32
  message : Bytes
  deriving DecidableEq, Repr

structure PingRequest where
  deriving DecidableEq, Repr

/-- CreateChainRequest and AddBlockRequest. -/
structure DataRequest where
  chainId : UInt64
  data : Bytes
  deriving DecidableEq, Repr

/- RemoveChainRequest, GetBlocksRequest, VerifyChainRequest, GetChainHeaderRequest,
GetChainKeysRequest and GetChainInfoRequest. -/
structure ChainRequest where
  chainId : UInt64
  deriving DecidableEq, Repr

structure GetBlockRequest where
  chainId : UInt64
  blockId : UInt64
  deriving DecidableEq, Repr

/-- AddBlockResponse and GetBlockResponse. -/
structure BlockResponse where
  block : Option Blockchain.Block
  deriving DecidableEq, Repr

structure GetBlocksResponse where
  blocks : List Blockchain.Block
  deriving DecidableEq, Repr

structure GetChainHeaderResponse where
  header : Option Blockchain.Header
  deriving DecidableEq, Repr

structure GetChainKeysResponse where
  privateKey : Bytes
  publicKey : Bytes
  deriving DecidableEq, Repr

structure GetChainInfoResponse where
  chainId : UInt64
  version : UInt64
  index : UInt64
  deriving DecidableEq, Repr

structure Request where
  authData : Option AuthData := none
  pingRequest : Option PingRequest := none
  createChainRequest : Option DataRequest := none
  removeChainRequest : Option ChainRequest := none
  addBlockRequest : Option DataRequest := none
  getBlockRequest : Option GetBlockRequest := none
  getBlocksRequest : Option ChainRequest := none
  verifyChainRequest : Option ChainRequest := none
  getChainHeaderRequest : Option ChainRequest := none
  getChainKeysRequest : Option ChainRequest := none
  getChainInfoRequest : Option ChainRequest := none
  deriving DecidableEq, Repr

structure Response where
  status : Option StatusResponse := none
  createChainResponse : Option StatusResponse := none
  removeChainResponse : Option StatusResponse := none
  addBlockResponse : Option BlockResponse := none
  getBlockResponse : Option BlockResponse := none
  getBlocksResponse : Option GetBlocksResponse := none
  verifyChainResponse : Option StatusResponse := none
  getChainHeaderResponse : Option GetChainHeaderResponse := none
  getChainKeysResponse : Option GetChainKeysResponse := none
  getChainInfoResponse : Option GetChainInfoResponse := none
  deriving DecidableEq, Repr

end IPC

/-! The generated code for one message: the bytes it writes and what it reads. -/
structure Codec (μ : Type) where
  encode : μ → Bytes
  parseFromString : Bytes → Option μ

def maxMessageLength : Nat := 2^31 - 1

/- Parsing undoes serialising, for every message that serialises at all. -/
def Codec.Lawful {μ : Type} (codec : Codec μ) : Prop :=
  ∀ m, (codec.encode m).length ≤ maxMessageLength → codec.parseFromString (codec.encode m) = some m

/- `SerializeToString`: protobuf refuses messages above 2^31 - 1 bytes; a failure that the
environment chooses stands for anything else that can go wrong in it. -/
def Codec.serializeToString {μ : Type} (codec : Codec μ) (m : μ) : Action Bytes := do
  let _ ← call .serialise
  if (codec.encode m).length ≤ maxMessageLength then pure (codec.encode m) else fault

theorem serialized {μ : Type} {codec : Codec μ} {m : μ} {w t : World} {raw : Bytes}
    (h : codec.serializeToString m w = (.done raw,t)) :
    raw = codec.encode m ∧ (codec.encode m).length ≤ maxMessageLength := by
  simp only [Codec.serializeToString,Exec.bindDone] at h
  obtain ⟨_,u,_,last⟩ := h
  split at last
  · rename_i fits
    cases last
    exact ⟨rfl,fits⟩
  · cases last

theorem serializeOfFits {μ : Type} {codec : Codec μ} {m : μ} {w : World}
    (works : (w.draws 0).ok .serialise = true) (fits : (codec.encode m).length ≤ maxMessageLength) :
    codec.serializeToString m w = (.done (codec.encode m),w.spend) := by
  simp [Codec.serializeToString,Exec.bindApply,call,works,fits]

theorem serializeExact {μ : Type} {codec : Codec μ} {m : μ} {w t : World} {raw : Bytes} :
    codec.serializeToString m w = (.done raw,t) ↔ (w.draws 0).ok .serialise = true ∧
      (codec.encode m).length ≤ maxMessageLength ∧ raw = codec.encode m ∧ t = w.spend := by
  constructor
  · intro h
    obtain ⟨rfl,fits⟩ := serialized h
    obtain ⟨_,u,called,_⟩ := Exec.bindDone.mp h
    have works := (callDone.mp called).1
    rw [serializeOfFits works fits] at h
    cases h
    exact ⟨works,fits,rfl,rfl⟩
  · rintro ⟨works,fits,rfl,rfl⟩
    exact serializeOfFits works fits

theorem serializeTame {μ : Type} (codec : Codec μ) (m : μ) : Tame (codec.serializeToString m) := by
  refine tameBind (tameCall .serialise) fun _ => ?_
  split
  · exact tamePure _
  · exact tameFault

theorem sureSerialize {μ : Type} {kinds : Primitive → Prop} (known : kinds .serialise)
    {codec : Codec μ} {m : μ} (fits : (codec.encode m).length ≤ maxMessageLength) :
    Sure kinds (codec.serializeToString m) := by
  refine sureBind (sureCall known) fun _ => ?_
  rw [if_pos fits]
  exact surePure _

theorem serializeOutcome {μ : Type} (codec : Codec μ) (m : μ) (w : World) :
    (codec.serializeToString m w).1 = .done (codec.encode m) ∨
      (codec.serializeToString m w).1 = .absent ∧
        ((w.draws 0).ok .serialise = false ∨ maxMessageLength < (codec.encode m).length) := by
  rcases made : codec.serializeToString m w with ⟨raw | _ | e,t⟩
  · exact Or.inl (congrArg Outcome.done (serialized made).1)
  · refine Or.inr ⟨rfl,?_⟩
    simp only [Codec.serializeToString] at made
    rcases Exec.bindAbsent.mp made with failed | ⟨_,_,_,last⟩
    · exact Or.inl (callAbsent.mp failed).1
    · split at last
      · cases last
      · rename_i long
        exact Or.inr (Nat.not_le.mp long)
  · exact absurd made ((serializeTame codec m).total w e t)

end ChainDB
