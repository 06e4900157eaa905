import Mathlib.Data.Nat.Basic
import Mathlib.Algebra.Order.Group.Nat

/-! The proto3 wire format: base-128 varints, tagged fields in sequence, and the reading of a
message's members out of the fields. Groups are refused. -/
namespace ProtoWire

abbrev Bytes := List UInt8

def encodeVarint : Nat → Nat → Bytes
  | 0,n => [n.toUInt8]
  | more + 1,n =>
    if n < 128 then [n.toUInt8] else (n % 128 + 128).toUInt8 :: encodeVarint more (n / 128)

def varint (n : Nat) : Bytes := encodeVarint 9 n

def readVarint : Nat → Bytes → Option (Nat × Bytes)
  | 0,_ => none
  | _ + 1,[] => none
  | more + 1,b :: rest =>
    if b.toNat < 128 then some (b.toNat,rest)
    else do
      let (high,rest) ← readVarint more rest
      some (b.toNat - 128 + 128 * high,rest)

theorem smallByte {n : Nat} (small : n < 256) : n.toUInt8.toNat = n := by
  simp only [Nat.toUInt8,UInt8.toNat_ofNat']
  omega

theorem readEncodeVarint {more fuel n : Nat} (fits : n < 128^(more + 1)) (room : more < fuel)
    (rest : Bytes) : readVarint fuel (encodeVarint more n ++ rest) = some (n,rest) := by
  induction more generalizing fuel n with
  | zero =>
    obtain ⟨fuel,rfl⟩ := Nat.exists_eq_succ_of_ne_zero (Nat.ne_of_gt room)
    have small := smallByte (n := n) (by omega)
    simp only [encodeVarint,List.cons_append,List.nil_append,readVarint,small]
    rw [if_pos (by omega)]
  | succ more ih =>
    obtain ⟨fuel,rfl⟩ := Nat.exists_eq_succ_of_ne_zero (Nat.ne_of_gt (Nat.zero_lt_of_lt room))
    unfold encodeVarint
    split
    · rename_i short
      have small := smallByte (n := n) (by omega)
      simp only [List.cons_append,List.nil_append,readVarint,small,if_pos short]
    · have small := smallByte (n := n % 128 + 128) (by omega)
      have high : n / 128 < 128^(more + 1) := by
        rw [Nat.pow_succ] at fits
        exact Nat.div_lt_of_lt_mul (by rwa [Nat.mul_comm] at fits)
      have tail := @ih fuel (n / 128) high (by omega)
      simp only [List.cons_append,readVarint,small,tail]
      rw [if_neg (by omega)]
      simp only [bind,Option.bind_some,Option.some.injEq,Prod.mk.injEq,and_true]
      omega

theorem readVarintOf {n : Nat} (fits : n < 2^64) (rest : Bytes) :
    readVarint 10 (varint n ++ rest) = some (n,rest) :=
  readEncodeVarint (Nat.lt_trans fits (by decide)) (by decide) rest

theorem varintLength {n : Nat} (more : Nat) :
    1 ≤ (encodeVarint more n).length ∧ (encodeVarint more n).length ≤ more + 1 := by
  induction more generalizing n with
  | zero => exact ⟨Nat.le_refl 1,Nat.le_refl 1⟩
  | succ more ih =>
    unfold encodeVarint
    split
    · exact ⟨Nat.le_refl 1,by simp⟩
    · obtain ⟨_,upper⟩ := ih (n := n / 128)
      simp only [List.length_cons]
      omega

inductive Value where
  | varint (n : Nat)
  | fixed (payload : Bytes)
  | bytes (payload : Bytes)
  deriving DecidableEq, Repr

structure Field where
  number : Nat
  value : Value
  deriving DecidableEq, Repr

def Value.wireType : Value → Nat
  | .varint _ => 0
  | .fixed payload => if payload.length = 8 then 1 else 5
  | .bytes _ => 2

def Value.encode : Value → Bytes
  | .varint n => ProtoWire.varint n
  | .fixed payload => payload
  | .bytes payload => ProtoWire.varint payload.length ++ payload

def Field.encode (field : Field) : Bytes :=
  varint (field.number * 8 + field.value.wireType) ++ field.value.encode

def encode (fields : List Field) : Bytes := fields.flatMap Field.encode

def takeExactly (n : Nat) (raw : Bytes) : Option (Bytes × Bytes) :=
  if n ≤ raw.length then some (raw.take n,raw.drop n) else none

def readValue (wireType : Nat) (raw : Bytes) : Option (Value × Bytes) :=
  match wireType with
  | 0 => do
    let (n,rest) ← readVarint 10 raw
    some (.varint (n % 2^64),rest)
  | 1 => do
    let (payload,rest) ← takeExactly 8 raw
    some (.fixed payload,rest)
  | 2 => do
    let (length,rest) ← readVarint 10 raw
    let (payload,rest) ← takeExactly length rest
    some (.bytes payload,rest)
  | 5 => do
    let (payload,rest) ← takeExactly 4 raw
    some (.fixed payload,rest)
  | _ => none

def readField (raw : Bytes) : Option (Field × Bytes) := do
  let (tag,rest) ← readVarint 10 raw
  if tag / 8 = 0 ∨ 2^32 ≤ tag then none
  else do
    let (value,rest) ← readValue (tag % 8) rest
    some (⟨tag / 8,value⟩,rest)

/- Every field takes at least one byte, so the length of the input bounds their number. -/
def readFields : Nat → Bytes → Option (List Field)
  | _,[] => some []
  | 0,_ :: _ => none
  | fuel + 1,b :: raw => do
    let (field,rest) ← readField (b :: raw)
    let fields ← readFields fuel rest
    some (field :: fields)

def parse (raw : Bytes) : Option (List Field) := readFields raw.length raw

def Value.Valid : Value → Prop
  | .varint n => n < 2^64
  | .fixed payload => payload.length = 8 ∨ payload.length = 4
  | .bytes payload => payload.length < 2^64

structure Field.Valid (field : Field) : Prop where
  positive : field.number ≠ 0
  small : field.number < 2^29
  value : field.value.Valid

theorem takePayload (payload rest : Bytes) :
    takeExactly payload.length (payload ++ rest) = some (payload,rest) := by
  simp [takeExactly]

theorem readValueOf {value : Value} (valid : value.Valid) (rest : Bytes) :
    readValue value.wireType (value.encode ++ rest) = some (value,rest) := by
  cases value with
  | varint n =>
    have fits : n < 2^64 := valid
    simp only [Value.wireType,Value.encode,readValue,readVarintOf fits,bind,Option.bind_some,
      Nat.mod_eq_of_lt fits]
  | fixed payload =>
    rcases valid with eight | four
    · have whole := takePayload payload rest
      rw [eight] at whole
      simp only [Value.wireType,Value.encode,eight,if_true,readValue,whole,bind,Option.bind_some]
    · have whole := takePayload payload rest
      rw [four] at whole
      simp only [Value.wireType,Value.encode,four,readValue,whole,bind,Option.bind_some]
      rfl
  | bytes payload =>
    have fits : payload.length < 2^64 := valid
    simp only [Value.wireType,Value.encode,readValue,List.append_assoc,readVarintOf fits,
      takePayload,bind,Option.bind_some]

theorem wireTypeLt (value : Value) : value.wireType < 8 := by
  cases value with
  | varint n => simp only [Value.wireType]; omega
  | fixed payload =>
    simp only [Value.wireType]
    split <;> omega
  | bytes payload => simp only [Value.wireType]; omega

theorem readFieldOf {field : Field} (valid : field.Valid) (rest : Bytes) :
    readField (field.encode ++ rest) = some (field,rest) := by
  have kind := wireTypeLt field.value
  have positive := valid.positive
  have small := valid.small
  have tag : field.number * 8 + field.value.wireType < 2^64 := by omega
  have number : (field.number * 8 + field.value.wireType) / 8 = field.number := by omega
  have wire : (field.number * 8 + field.value.wireType) % 8 = field.value.wireType := by omega
  simp only [readField,Field.encode,List.append_assoc,readVarintOf tag,bind,Option.bind_some,number,
    wire,readValueOf valid.value]
  rw [if_neg (by omega)]

theorem fieldNonempty (field : Field) : 1 ≤ field.encode.length := by
  have first := (varintLength (n := field.number * 8 + field.value.wireType) 9).1
  simp only [Field.encode,varint,List.length_append]
  omega

theorem payloadShort {fields : List Field} {field : Field} (member : field ∈ fields) {payload : Bytes}
    (value : field.value = .bytes payload) : payload.length ≤ (encode fields).length := by
  obtain ⟨before,after,rfl⟩ := List.append_of_mem member
  simp only [encode,List.flatMap_append,List.flatMap_cons,Field.encode,value,Value.encode,
    List.length_append]
  omega

structure Field.Proper (field : Field) : Prop where
  positive : field.number ≠ 0
  small : field.number < 2^29
  integer : ∀ n, field.value = .varint n → n < 2^64
  fixed : ∀ payload, field.value = .fixed payload → payload.length = 8 ∨ payload.length = 4

theorem parseEncode {fields : List Field} (proper : ∀ field ∈ fields, field.Proper)
    (short : (encode fields).length < 2^64) : parse (encode fields) = some fields := by
  have valid : ∀ field ∈ fields, field.Valid := by
    intro field member
    have own := proper field member
    refine ⟨own.positive,own.small,?_⟩
    cases value : field.value with
    | varint n => exact own.integer n value
    | fixed payload => exact own.fixed payload value
    | bytes payload => exact Nat.lt_of_le_of_lt (payloadShort member value) short
  have enough : ∀ fuel, (encode fields).length ≤ fuel →
      readFields fuel (encode fields) = some fields := by
    clear short proper
    induction fields with
    | nil =>
      intro fuel _
      cases fuel <;> rfl
    | cons field rest ih =>
      intro fuel room
      have head := readFieldOf (valid field (List.mem_cons_self ..)) (encode rest)
      have size := fieldNonempty field
      have whole : encode (field :: rest) = field.encode ++ encode rest := rfl
      rw [whole] at room ⊢
      simp only [List.length_append] at room
      cases fuel with
      | zero => omega
      | succ fuel =>
        have tail := ih (fun f member => valid f (List.mem_cons_of_mem field member)) fuel (by omega)
        cases shape : field.encode ++ encode rest with
        | nil =>
          have lengths := congrArg List.length shape
          simp only [List.length_append,List.length_nil] at lengths
          omega
        | cons b raw =>
          rw [shape] at head
          simp only [readFields,head,bind,Option.bind_some,tail]
  exact enough _ (Nat.le_refl _)

/-! Members of a message. A zero integer and an empty byte string are not written; of several
values the last one counts, and the parts of a submessage add up. -/

def uint (number n : Nat) : List Field := if n = 0 then [] else [⟨number,.varint n⟩]

def blob (number : Nat) (payload : Bytes) : List Field :=
  if payload = [] then [] else [⟨number,.bytes payload⟩]

def message (number : Nat) (payload : Option Bytes) : List Field :=
  (payload.map (fun payload => Field.mk number (.bytes payload))).toList

def messages (number : Nat) (payloads : List Bytes) : List Field :=
  payloads.map (fun payload => ⟨number,.bytes payload⟩)

def integers (number : Nat) (fields : List Field) : List Nat :=
  fields.filterMap (fun field => match field.value with
    | .varint n => if field.number = number then some n else none
    | _ => none)

def payloads (number : Nat) (fields : List Field) : List Bytes :=
  fields.filterMap (fun field => match field.value with
    | .bytes payload => if field.number = number then some payload else none
    | _ => none)

def submessages (number : Nat) (raw : Bytes) : List Bytes := payloads number ((parse raw).getD [])

def uintOf (number : Nat) (fields : List Field) : Nat := (integers number fields).getLast?.getD 0

def blobOf (number : Nat) (fields : List Field) : Bytes := (payloads number fields).getLast?.getD []

def messageOf (number : Nat) (fields : List Field) : Option Bytes :=
  if payloads number fields = [] then none else some (payloads number fields).flatten

section Members
variable (number other n : Nat) (payload : Bytes) (part : Option Bytes) (parts : List Bytes)
  (a b : List Field)

@[simp] theorem integersAppend : integers number (a ++ b) = integers number a ++ integers number b :=
  List.filterMap_append

@[simp] theorem payloadsAppend : payloads number (a ++ b) = payloads number a ++ payloads number b :=
  List.filterMap_append

@[simp] theorem integersNil : integers number [] = [] := rfl

@[simp] theorem payloadsNil : payloads number [] = [] := rfl

@[simp] theorem integersUint :
    integers number (uint other n) = if other = number ∧ n ≠ 0 then [n] else [] := by
  unfold uint
  split <;> rename_i zero
  · simp [zero]
  · by_cases same : other = number <;> simp [integers,same,zero]

@[simp] theorem integersBlob : integers number (blob other payload) = [] := by
  unfold blob
  split <;> rfl

@[simp] theorem integersMessage : integers number (message other part) = [] := by
  cases part <;> rfl

@[simp] theorem integersMessages : integers number (messages other parts) = [] := by
  induction parts with
  | nil => rfl
  | cons part rest ih => exact ih

@[simp] theorem payloadsUint : payloads number (uint other n) = [] := by
  unfold uint
  split <;> rfl

@[simp] theorem payloadsBlob :
    payloads number (blob other payload) = if other = number ∧ payload ≠ [] then [payload] else [] := by
  unfold blob
  split <;> rename_i empty
  · simp [empty]
  · by_cases same : other = number <;> simp [payloads,same,empty]

@[simp] theorem payloadsMessage :
    payloads number (message other part) = if other = number then part.toList else [] := by
  cases part with
  | none => simp [message]
  | some payload => by_cases same : other = number <;> simp [payloads,message,same]

@[simp] theorem payloadsMessages :
    payloads number (messages other parts) = if other = number then parts else [] := by
  induction parts with
  | nil => simp [payloads,messages]
  | cons part rest ih =>
    simp only [payloads,messages,List.map_cons,List.filterMap_cons] at ih ⊢
    rw [ih]
    by_cases same : other = number <;> simp [same]

@[simp] theorem lastUint : ((if n = 0 then [] else [n]).getLast?.getD 0) = n := by
  by_cases zero : n = 0 <;> simp [zero]

@[simp] theorem lastBlob : ((if payload = [] then [] else [payload]).getLast?.getD []) = payload := by
  by_cases empty : payload = [] <;> simp [empty]

end Members

structure Schema (μ : Type) where
  fields : μ → List Field
  read : List Field → Option μ

namespace Schema
variable {μ : Type}

def encode (schema : Schema μ) (m : μ) : Bytes := ProtoWire.encode (schema.fields m)

def parse (schema : Schema μ) (raw : Bytes) : Option μ := (ProtoWire.parse raw).bind schema.read

structure Sound (schema : Schema μ) : Prop where
  proper : ∀ m, ∀ field ∈ schema.fields m, field.Proper
  inverse : ∀ m, (schema.encode m).length < 2^64 → schema.read (schema.fields m) = some m

theorem Sound.roundTrip {schema : Schema μ} (sound : schema.Sound) {m : μ}
    (short : (schema.encode m).length < 2^64) : schema.parse (schema.encode m) = some m := by
  unfold parse encode
  rw [parseEncode (sound.proper m) short,Option.bind_some]
  exact sound.inverse m short

theorem Sound.submessagesOf {schema : Schema μ} (sound : schema.Sound) {m : μ} (number : Nat)
    (short : (schema.encode m).length < 2^64) :
    submessages number (schema.encode m) = payloads number (schema.fields m) := by
  unfold submessages encode
  rw [parseEncode (sound.proper m) short,Option.getD_some]

def sub (number : Nat) (schema : Schema μ) (m : Option μ) : List Field :=
  message number (m.map schema.encode)

def readSub (number : Nat) (schema : Schema μ) (fields : List Field) : Option (Option μ) :=
  match messageOf number fields with
  | none => some none
  | some raw => (schema.parse raw).map some

def subs (number : Nat) (schema : Schema μ) (list : List μ) : List Field :=
  messages number (list.map schema.encode)

def readSubs (number : Nat) (schema : Schema μ) (fields : List Field) : Option (List μ) :=
  (payloads number fields).mapM schema.parse

end Schema

theorem properAppend {a b : List Field} (ha : ∀ field ∈ a, field.Proper)
    (hb : ∀ field ∈ b, field.Proper) : ∀ field ∈ a ++ b, field.Proper := by
  intro field member
  rcases List.mem_append.mp member with h | h
  · exact ha field h
  · exact hb field h

def Known (number : Nat) : Prop := number ≠ 0 ∧ number < 2^29

instance (number : Nat) : Decidable (Known number) := inferInstanceAs (Decidable (_ ∧ _))

section Proper
variable {number : Nat}

theorem properUint {n : Nat} (known : Known number) (fits : n < 2^64) :
    ∀ field ∈ uint number n, field.Proper := by
  unfold uint
  split
  · simp
  · simp only [List.mem_singleton,forall_eq]
    refine ⟨known.1,known.2,?_,?_⟩
    · intro m same
      cases same
      exact fits
    · intro payload same
      cases same

theorem properBytes (known : Known number) (payload : Bytes) :
    (Field.mk number (.bytes payload)).Proper := by
  refine ⟨known.1,known.2,?_,?_⟩
  · intro m same
    cases same
  · intro other same
    cases same

theorem properBlob (known : Known number) (payload : Bytes) :
    ∀ field ∈ blob number payload, field.Proper := by
  unfold blob
  split
  · simp
  · simp only [List.mem_singleton,forall_eq]
    exact properBytes known payload

theorem properSub {μ : Type} (known : Known number) (schema : Schema μ) (m : Option μ) :
    ∀ field ∈ schema.sub number m, field.Proper := by
  cases m with
  | none => simp [Schema.sub,message]
  | some m =>
    simp only [Schema.sub,message,Option.map_some,Option.toList_some,List.mem_singleton,forall_eq]
    exact properBytes known _

theorem properSubs {μ : Type} (known : Known number) (schema : Schema μ) (list : List μ) :
    ∀ field ∈ schema.subs number list, field.Proper := by
  intro field member
  obtain ⟨payload,_,rfl⟩ := List.mem_map.mp member
  exact properBytes known payload

end Proper

section Parts
variable {μ : Type} {schema : Schema μ} (number other : Nat) (m : Option μ) (list : List μ)

@[simp] theorem payloadsSub : payloads number (schema.sub other m) =
    if other = number then (m.map schema.encode).toList else [] := payloadsMessage ..

@[simp] theorem payloadsSubs : payloads number (schema.subs other list) =
    if other = number then list.map schema.encode else [] := payloadsMessages ..

variable {fields : List Field}

theorem listedShort {number payload} (listed : payload ∈ payloads number fields) :
    payload.length ≤ (ProtoWire.encode fields).length := by
  obtain ⟨field,inside,value⟩ := List.mem_filterMap.mp listed
  refine payloadShort inside ?_
  cases shape : field.value with
  | bytes payload =>
    simp only [shape] at value
    split at value <;> cases value
    rfl
  | varint n => simp [shape] at value
  | fixed payload => simp [shape] at value

theorem Schema.Sound.readSub {number m} (sound : schema.Sound)
    (here : payloads number fields = (m.map schema.encode).toList)
    (short : (ProtoWire.encode fields).length < 2^64) : schema.readSub number fields = some m := by
  cases m with
  | none => simp [Schema.readSub,messageOf,here]
  | some m =>
    have listed : schema.encode m ∈ payloads number fields := by simp [here]
    have back := sound.roundTrip (Nat.lt_of_le_of_lt (listedShort listed) short)
    simp [Schema.readSub,messageOf,here,back]

theorem Schema.Sound.readSubs {number list} (sound : schema.Sound)
    (here : payloads number fields = list.map schema.encode)
    (short : (ProtoWire.encode fields).length < 2^64) :
    schema.readSubs number fields = some list := by
  have each : ∀ m ∈ list, schema.parse (schema.encode m) = some m := by
    intro m member
    have listed : schema.encode m ∈ payloads number fields := by
      rw [here]
      exact List.mem_map_of_mem member
    exact sound.roundTrip (Nat.lt_of_le_of_lt (listedShort listed) short)
  unfold Schema.readSubs
  rw [here]
  clear here
  induction list with
  | nil => rfl
  | cons m rest ih =>
    have tail := ih fun other member => each other (List.mem_cons_of_mem m member)
    simp [List.mapM_cons,each m (List.mem_cons_self ..),tail]

end Parts

end ProtoWire
