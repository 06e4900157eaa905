import ChainDB.Library.ProtoWire
import Mathlib.Algebra.Ring.Nat

/-! How many bytes the members of a message take. -/
namespace ProtoWire

def framed (n : Nat) : Nat := 1 + (varint n).length + n

theorem shortVarint {n : Nat} (short : n < 128) : (varint n).length = 1 := by
  simp [varint,encodeVarint,short]

theorem framedLe (n : Nat) : framed n ≤ n + 11 := by
  have upper := (varintLength (n := n) 9).2
  unfold framed varint
  omega

theorem framedShort {n : Nat} (short : n < 128) : framed n = n + 2 := by
  rw [framed,shortVarint short]
  omega

def partSize {μ : Type} (schema : Schema μ) (m : Option μ) : Nat :=
  (m.map fun m => framed (schema.encode m).length).getD 0

@[simp] theorem partSizeNone {μ : Type} (schema : Schema μ) : partSize schema none = 0 := rfl

@[simp] theorem partSizeSome {μ : Type} (schema : Schema μ) (m : μ) :
    partSize schema (some m) = framed (schema.encode m).length := rfl

theorem encodeAppendLength (a b : List Field) :
    (encode (a ++ b)).length = (encode a).length + (encode b).length := by
  simp [encode]

section Sizes
variable {μ : Type} {number : Nat} (low : number < 16)
include low

theorem bytesLength (payload : Bytes) :
    (encode [⟨number,.bytes payload⟩]).length = framed payload.length := by
  have tag : number * 8 + 2 < 128 := by omega
  simp only [encode,List.flatMap_cons,List.flatMap_nil,List.append_nil,Field.encode,Value.wireType,
    Value.encode,List.length_append,shortVarint tag,framed]
  omega

theorem blobLength (payload : Bytes) :
    (encode (blob number payload)).length = if payload = [] then 0 else framed payload.length := by
  unfold blob
  split
  · rfl
  · exact bytesLength low payload

theorem blobLe (payload : Bytes) : (encode (blob number payload)).length ≤ payload.length + 11 := by
  rw [blobLength low]
  split
  · exact Nat.zero_le _
  · exact framedLe _

theorem uintLe (n : Nat) : (encode (uint number n)).length ≤ 11 := by
  have tag : number * 8 + 0 < 128 := by omega
  have upper := (varintLength (n := n) 9).2
  unfold uint
  split
  · exact Nat.zero_le _
  · simp only [encode,List.flatMap_cons,List.flatMap_nil,List.append_nil,Field.encode,Value.wireType,
      Value.encode,List.length_append,shortVarint tag]
    unfold varint
    omega

theorem subLength (schema : Schema μ) (m : Option μ) :
    (encode (schema.sub number m)).length = partSize schema m := by
  cases m with
  | none => rfl
  | some m => exact bytesLength low _

theorem subsLength (schema : Schema μ) (list : List μ) : (encode (schema.subs number list)).length =
    (list.map fun m => framed (schema.encode m).length).sum := by
  induction list with
  | nil => rfl
  | cons m rest ih =>
    have parts : schema.subs number (m :: rest) =
        [⟨number,.bytes (schema.encode m)⟩] ++ schema.subs number rest := rfl
    rw [parts,encodeAppendLength,bytesLength low,ih,List.map_cons,List.sum_cons]

end Sizes
end ProtoWire
