import ChainDB.Library.ProtoWire

/-! Messages cut short. A reader takes a first part of its input and nothing depends on what
follows it, so the fields of a cut message are the first fields of the whole one. -/
namespace ProtoWire

/- The result is decided by the bytes that were consumed. -/
def Local {α : Type} (read : Bytes → Option (α × Bytes)) : Prop :=
  ∀ raw a rest, read raw = some (a,rest) →
    ∃ used, raw = used ++ rest ∧ ∀ more, read (used ++ more) = some (a,more)

theorem localBind {α β : Type} {read : Bytes → Option (α × Bytes)}
    {next : α → Bytes → Option (β × Bytes)} (first : Local read) (second : ∀ a, Local (next a)) :
    Local (fun raw => read raw >>= fun (a,rest) => next a rest) := by
  intro raw b rest h
  obtain ⟨⟨a,middle⟩,one,two⟩ := Option.bind_eq_some_iff.mp h
  obtain ⟨used,rfl,stable⟩ := first raw a middle one
  obtain ⟨more,rfl,stable'⟩ := second a middle b rest two
  refine ⟨used ++ more,by rw [List.append_assoc],fun tail => ?_⟩
  rw [List.append_assoc]
  simp only [stable,bind,Option.bind_some]
  exact stable' tail

theorem localMap {α β : Type} (f : α → β) {read : Bytes → Option (α × Bytes)} (first : Local read) :
    Local (fun raw => read raw >>= fun (a,rest) => some (f a,rest)) := by
  refine @localBind _ _ _ (fun a rest => some (f a,rest)) first fun a raw b rest h => ?_
  cases h
  exact ⟨[],rfl,fun _ => rfl⟩

theorem localNone {α : Type} : Local (fun _ => (none : Option (α × Bytes))) := by
  intro raw a rest h
  cases h

theorem readVarintLocal (fuel : Nat) : Local (readVarint fuel) := by
  induction fuel with
  | zero => exact localNone
  | succ fuel ih =>
    intro raw n rest h
    cases raw with
    | nil => cases h
    | cons b raw =>
      by_cases last : b.toNat < 128
      · simp only [readVarint,if_pos last,Option.some.injEq,Prod.mk.injEq] at h
        obtain ⟨rfl,rfl⟩ := h
        exact ⟨[b],rfl,fun more => by simp [readVarint,last]⟩
      · simp only [readVarint,if_neg last] at h
        obtain ⟨⟨high,middle⟩,tail,same⟩ := Option.bind_eq_some_iff.mp h
        cases same
        obtain ⟨used,rfl,stable⟩ := ih raw high middle tail
        refine ⟨b :: used,rfl,fun more => ?_⟩
        simp only [List.cons_append,readVarint,if_neg last,stable,bind,Option.bind_some]

theorem takeExactlyLocal (n : Nat) : Local (takeExactly n) := by
  intro raw payload rest h
  unfold takeExactly at h
  split at h
  · rename_i enough
    cases h
    refine ⟨raw.take n,(List.take_append_drop n raw).symm,fun more => ?_⟩
    have whole := takePayload (raw.take n) more
    rwa [List.length_take,Nat.min_eq_left enough] at whole
  · cases h

theorem readValueLocal (wireType : Nat) : Local (readValue wireType) := by
  unfold readValue
  split
  · exact localMap (fun n => Value.varint (n % 2^64)) (readVarintLocal 10)
  · exact localMap Value.fixed (takeExactlyLocal 8)
  · refine @localBind _ _ _ (fun length rest => takeExactly length rest >>= fun taken =>
      some (Value.bytes taken.1,taken.2)) (readVarintLocal 10) fun length => ?_
    exact localMap Value.bytes (takeExactlyLocal length)
  · exact localMap Value.fixed (takeExactlyLocal 4)
  · exact localNone

theorem readFieldLocal : Local readField := by
  refine @localBind _ _ (readVarint 10) (fun tag rest => if tag / 8 = 0 ∨ 2^32 ≤ tag then none else
    readValue (tag % 8) rest >>= fun valued => some (Field.mk (tag / 8) valued.1,valued.2))
      (readVarintLocal 10) fun tag => ?_
  by_cases bad : tag / 8 = 0 ∨ 2^32 ≤ tag
  · simp only [if_pos bad]
    exact localNone
  · simp only [if_neg bad]
    exact localMap (Field.mk (tag / 8)) (readValueLocal (tag % 8))

inductive Parsed : Bytes → List Field → Prop where
  | nil : Parsed [] []
  | cons {raw rest : Bytes} {field : Field} {fields : List Field}
      (head : readField raw = some (field,rest)) (tail : Parsed rest fields) :
      Parsed raw (field :: fields)

theorem readFieldsParsed {fuel : Nat} {raw : Bytes} {fields : List Field}
    (h : readFields fuel raw = some fields) : Parsed raw fields := by
  induction fuel generalizing raw fields with
  | zero =>
    cases raw with
    | nil =>
      cases h
      exact .nil
    | cons b raw => cases h
  | succ fuel ih =>
    cases raw with
    | nil =>
      cases h
      exact .nil
    | cons b raw =>
      obtain ⟨⟨field,rest⟩,head,later⟩ := Option.bind_eq_some_iff.mp h
      obtain ⟨others,tail,same⟩ := Option.bind_eq_some_iff.mp later
      cases same
      exact .cons head (ih tail)

theorem parsedOf {raw : Bytes} {fields : List Field} (h : parse raw = some fields) :
    Parsed raw fields := readFieldsParsed h

theorem parsedSplit {front back : Bytes} {kept fields : List Field} (first : Parsed front kept)
    (whole : Parsed (front ++ back) fields) :
    ∃ dropped, fields = kept ++ dropped ∧ Parsed back dropped := by
  induction first generalizing fields with
  | nil => exact ⟨fields,rfl,whole⟩
  | @cons raw rest field kept head tail ih =>
    obtain ⟨used,rfl,stable⟩ := readFieldLocal raw field rest head
    rw [List.append_assoc] at whole
    generalize joined : used ++ (rest ++ back) = text at whole
    cases whole with
    | nil =>
      obtain ⟨rfl,others⟩ := List.append_eq_nil_iff.mp joined
      obtain ⟨rfl,_⟩ := List.append_eq_nil_iff.mp others
      cases head
    | cons head' tail' =>
      rw [← joined,stable] at head'
      cases head'
      obtain ⟨dropped,rfl,rest⟩ := ih tail'
      exact ⟨dropped,rfl,rest⟩

theorem truncatedLosesField {fields kept : List Field} {cut : Bytes}
    (proper : ∀ field ∈ fields, field.Proper) (short : (encode fields).length < 2^64)
    (before : cut <+: encode fields) (lost : cut ≠ encode fields) (read : parse cut = some kept) :
    kept <+: fields ∧ kept ≠ fields := by
  obtain ⟨rest,whole⟩ := before
  have parsed := parsedOf (parseEncode proper short)
  rw [← whole] at parsed
  obtain ⟨dropped,rfl,tail⟩ := parsedSplit (parsedOf read) parsed
  refine ⟨List.prefix_append _ _,fun same => lost ?_⟩
  have none : dropped = [] := by simpa using same.symm
  subst none
  cases tail
  simpa using whole

theorem truncatedLosesLast {front kept : List Field} {number : Nat} {payload cut : Bytes}
    (proper : ∀ field ∈ front ++ blob number payload, field.Proper)
    (short : (encode (front ++ blob number payload)).length < 2^64) (full : payload ≠ [])
    (alone : payloads number front = []) (before : cut <+: encode (front ++ blob number payload))
    (lost : cut ≠ encode (front ++ blob number payload)) (read : parse cut = some kept) :
    blobOf number kept = [] := by
  obtain ⟨part,fewer⟩ := truncatedLosesField proper short before lost read
  have single : blob number payload = [⟨number,.bytes payload⟩] := if_neg full
  rw [single] at part fewer
  have inside : kept <+: front := (List.prefix_concat_iff.mp part).resolve_left fewer
  obtain ⟨others,rfl⟩ := inside
  rw [payloadsAppend] at alone
  rw [blobOf,(List.append_eq_nil_iff.mp alone).1]
  rfl

end ProtoWire
