import ChainDB.Library.Truncation
import ChainDB.Verification

/-! The bytes of the two kinds of record, for generated code that speaks proto3. -/
namespace ChainDB
open ProtoWire Effects

/-- The code that the build generates from proto/storage.proto. -/
structure Platform.Proto3 (sys : Platform) : Prop where
  header : sys.header = wireCodec Blockchain.Header.schema
  block : sys.block = wireCodec Blockchain.Block.schema

namespace Platform.Proto3
variable {sys : Platform}

theorem headerLawful (proto3 : sys.Proto3) : sys.header.Lawful := by
  rw [proto3.header]
  exact wireLawful Blockchain.Header.schemaSound

theorem blockLawful (proto3 : sys.Proto3) : sys.block.Lawful := by
  rw [proto3.block]
  exact wireLawful Blockchain.Block.schemaSound

end Platform.Proto3

theorem Sample.proto3 : Sample.platform.Proto3 := ⟨rfl,rfl⟩

theorem packedHeader {sys : Platform} {header : Header} {w t : World} {raw : Bytes}
    (packed : Header.pack sys header w = (.done raw,t)) :
    raw = sys.header.encode header.message ∧ raw.length ≤ maxMessageLength := by
  obtain ⟨rfl,fits⟩ := serialized packed
  exact ⟨rfl,fits⟩

theorem packedBlock {sys : Platform} {block : Block} {w t : World} {raw : Bytes}
    (packed : Block.pack sys block w = (.done raw,t)) :
    raw = sys.block.encode block.message ∧ raw.length ≤ maxMessageLength := by
  obtain ⟨rfl,fits⟩ := serialized packed
  exact ⟨rfl,fits⟩

theorem unsizedData {size : Nat} {raw : Bytes} (other : raw.length ≠ size) :
    sizedData size raw = none := dif_neg other

theorem dataNonempty {size : Nat} (data : Data (size + 1)) : data.bytes ≠ [] := by
  intro empty
  have sized := data.sized
  rw [empty] at sized
  cases sized

theorem headerTruncated {header : Blockchain.Header} {cut : Bytes} {read : Blockchain.Header}
    (short : (Blockchain.Header.schema.encode header).length < 2^64) (full : header.publicKey ≠ [])
    (before : cut <+: Blockchain.Header.schema.encode header)
    (lost : cut ≠ Blockchain.Header.schema.encode header)
    (parsed : Blockchain.Header.schema.parse cut = some read) : read.publicKey = [] := by
  obtain ⟨fields,accepted,same⟩ := Option.bind_eq_some_iff.mp parsed
  cases same
  have shape : Blockchain.Header.schema.fields header = (uint 1 header.version.toNat ++
      (uint 2 header.index.toNat ++ (blob 3 header.data ++ blob 4 header.privateKey))) ++
      blob 5 header.publicKey := by
    simp [Blockchain.Header.schema]
  have proper := Blockchain.Header.schemaSound.proper header
  unfold Schema.encode at short before lost
  rw [shape] at proper short before lost
  exact truncatedLosesLast proper short full (by simp) before lost accepted

theorem blockTruncated {block : Blockchain.Block} {cut : Bytes} {read : Blockchain.Block}
    (short : (Blockchain.Block.schema.encode block).length < 2^64) (full : block.signature ≠ [])
    (before : cut <+: Blockchain.Block.schema.encode block)
    (lost : cut ≠ Blockchain.Block.schema.encode block)
    (parsed : Blockchain.Block.schema.parse cut = some read) : read.signature = [] := by
  obtain ⟨fields,accepted,same⟩ := Option.bind_eq_some_iff.mp parsed
  cases same
  have shape : Blockchain.Block.schema.fields block = (blob 1 block.hash ++ (blob 2 block.prevHash ++
      (blob 3 block.nonce ++ blob 4 block.data))) ++ blob 5 block.signature := by
    simp [Blockchain.Block.schema]
  have proper := Blockchain.Block.schemaSound.proper block
  unfold Schema.encode at short before lost
  rw [shape] at proper short before lost
  exact truncatedLosesLast proper short full (by simp) before lost accepted

theorem headerCutRefused {sys : Platform} (proto3 : sys.Proto3) {header : Header} {cut : Bytes}
    (fits : (sys.header.encode header.message).length ≤ maxMessageLength)
    (before : cut <+: sys.header.encode header.message)
    (lost : cut ≠ sys.header.encode header.message) : Header.unpack sys cut = none := by
  simp only [Header.unpack,proto3.header,wireCodec] at fits before lost ⊢
  cases parsed : Blockchain.Header.schema.parse cut with
  | none => rfl
  | some read =>
    have gone := headerTruncated (Nat.lt_of_le_of_lt fits (by decide))
      (dataNonempty header.publicKey) before lost parsed
    have refused : sizedData 33 read.publicKey = none := unsizedData (by simp [gone])
    simp [Header.ofMessage,refused]

theorem blockCutRefused {sys : Platform} (proto3 : sys.Proto3) {block : Block} {cut : Bytes}
    (fits : (sys.block.encode block.message).length ≤ maxMessageLength)
    (before : cut <+: sys.block.encode block.message)
    (lost : cut ≠ sys.block.encode block.message) : Block.unpack sys cut = none := by
  simp only [Block.unpack,proto3.block,wireCodec] at fits before lost ⊢
  cases parsed : Blockchain.Block.schema.parse cut with
  | none => rfl
  | some read =>
    have gone := blockTruncated (Nat.lt_of_le_of_lt fits (by decide))
      (dataNonempty block.signature) before lost parsed
    have refused : sizedData 64 read.signature = none := unsizedData (by simp [gone])
    simp [Block.ofMessage,refused]

theorem packedRecordsUnpack {sys : Platform} (proto3 : sys.Proto3) :
    (∀ header w raw t, Header.pack sys header w = (.done raw,t) →
      Header.unpack sys raw = some header) ∧
    (∀ block w raw t, Block.pack sys block w = (.done raw,t) →
      Block.unpack sys raw = some block) := by
  constructor
  · intro header w raw t packed
    obtain ⟨rfl,fits⟩ := packedHeader packed
    exact Ledger.headerRoundTrip proto3.headerLawful fits
  · intro block w raw t packed
    obtain ⟨rfl,fits⟩ := packedBlock packed
    exact Ledger.blockRoundTrip proto3.blockLawful fits

def sampleStart : World := start Manager.emptyDirectory (Sample.steady 1)

def sampleHeaderRecord : Bytes := Sample.platform.header.encode Manager.sampleHeader.message

def sampleBlockRecord : Bytes := Sample.platform.block.encode Manager.sampleBlock.message

theorem sampleHeaderPacked : Header.pack Sample.platform Manager.sampleHeader sampleStart =
    (.done sampleHeaderRecord,sampleStart.spend) := serializeOfFits rfl (by decide +kernel)

theorem sampleBlockPacked : Block.pack Sample.platform Manager.sampleBlock sampleStart =
    (.done sampleBlockRecord,sampleStart.spend) := serializeOfFits rfl (by decide +kernel)

theorem sampleRecordsUnpack :
    Header.unpack Sample.platform sampleHeaderRecord = some Manager.sampleHeader ∧
      Block.unpack Sample.platform sampleBlockRecord = some Manager.sampleBlock :=
  ⟨(packedRecordsUnpack Sample.proto3).1 _ _ _ _ sampleHeaderPacked,
    (packedRecordsUnpack Sample.proto3).2 _ _ _ _ sampleBlockPacked⟩

theorem truncatedRecordsRefused {sys : Platform} (proto3 : sys.Proto3) :
    (∀ header w raw t, Header.pack sys header w = (.done raw,t) →
      ∀ cut, cut <+: raw → cut ≠ raw → Header.unpack sys cut = none) ∧
    (∀ block w raw t, Block.pack sys block w = (.done raw,t) →
      ∀ cut, cut <+: raw → cut ≠ raw → Block.unpack sys cut = none) := by
  constructor
  · intro header w raw t packed cut before lost
    obtain ⟨rfl,fits⟩ := packedHeader packed
    exact headerCutRefused proto3 fits before lost
  · intro block w raw t packed cut before lost
    obtain ⟨rfl,fits⟩ := packedBlock packed
    exact blockCutRefused proto3 fits before lost

theorem sampleCutsRefused :
    Header.unpack Sample.platform (sampleHeaderRecord.take 40) = none ∧
      Block.unpack Sample.platform (sampleBlockRecord.take 81) = none :=
  ⟨(truncatedRecordsRefused Sample.proto3).1 _ _ _ _ sampleHeaderPacked _ (List.take_prefix ..)
      (by decide +kernel),
    (truncatedRecordsRefused Sample.proto3).2 _ _ _ _ sampleBlockPacked _ (List.take_prefix ..)
      (by decide +kernel)⟩

end ChainDB
