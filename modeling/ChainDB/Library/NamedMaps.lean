import ChainDB.Library.Transition
import Mathlib.Logic.Function.Basic

/-! Maps under names. Any number of handles are bound to a name each, a map is used through at most one
of them at a time, and a call of a handle can fail from outside without effect. -/
namespace NamedMaps
open Transition

inductive Request (κ υ : Type) where
  | create
  | «open»
  | close
  | get (key : κ)
  | set (pairs : List (κ × υ))
  | remove

inductive Answer (κ υ : Type) where
  | flag (ok : Bool)
  | pair (found : Option (κ × υ))
  deriving DecidableEq

inductive Act (ν κ υ : Type) where
  | construct (name : ν)
  | call (k : Nat) (request : Request κ υ) (answer : Answer κ υ)
  | destroy (k : Nat)

structure Label (ν κ υ : Type) where
  act : Act ν κ υ
  works : Bool

structure Shelf (ν κ υ : Type) where
  content : ν → Option (κ → Option υ)
  holder : ν → Option Nat
  names : List (Option ν)

variable {ν κ υ : Type} [DecidableEq ν] [DecidableEq κ]

/- Later pairs win. -/
def overlay (pairs : List (κ × υ)) (map : κ → Option υ) : κ → Option υ :=
  pairs.foldl (fun map pair => Function.update map pair.1 (some pair.2)) map

namespace Shelf

def name (shelf : Shelf ν κ υ) (k : Nat) : Option ν := shelf.names[k]?.join

def place (shelf : Shelf ν κ υ) (name : ν) (map : Option (κ → Option υ)) : Shelf ν κ υ :=
  {shelf with content := Function.update shelf.content name map}

def hold (shelf : Shelf ν κ υ) (name : ν) (who : Option Nat) : Shelf ν κ υ :=
  {shelf with holder := Function.update shelf.holder name who}

def release (shelf : Shelf ν κ υ) (name : ν) (k : Nat) : Shelf ν κ υ :=
  if shelf.holder name = some k then shelf.hold name none else shelf

end Shelf

def respond (shelf : Shelf ν κ υ) (k : Nat) (name : ν) (works : Bool) :
    Request κ υ → Answer κ υ × Shelf ν κ υ
  | .create =>
    if works = true ∧ shelf.holder name = none ∧ shelf.content name = none then
      (.flag true,(shelf.place name (some fun _ => none)).hold name (some k))
    else (.flag false,shelf)
  | .open =>
    if works = true ∧ shelf.holder name = none ∧ shelf.content name ≠ none then
      (.flag true,shelf.hold name (some k))
    else (.flag false,shelf)
  | .close =>
    if shelf.holder name = some k then (.flag true,shelf.hold name none) else (.flag false,shelf)
  | .get key =>
    if works = true ∧ shelf.holder name = some k then
      (.pair (((shelf.content name).bind fun map => map key).map fun value => (key,value)),shelf)
    else (.pair none,shelf)
  | .set pairs =>
    if works = true ∧ shelf.holder name = some k then
      (.flag true,shelf.place name ((shelf.content name).map (overlay pairs)))
    else (.flag false,shelf)
  | .remove =>
    if works = true ∧ shelf.holder name = none then (.flag true,shelf.place name none)
    else (.flag false,shelf)

def step [DecidableEq υ] : Step (Shelf ν κ υ) (Label ν κ υ)
  | shelf,⟨.construct name,_⟩ => some {shelf with names := shelf.names ++ [some name]}
  | shelf,⟨.call k request answer,works⟩ =>
    (shelf.name k).bind fun name =>
      if (respond shelf k name works request).1 = answer then
        some (respond shelf k name works request).2
      else none
  | shelf,⟨.destroy k,_⟩ =>
    (shelf.name k).map fun name =>
      {shelf.release name k with names := shelf.names.set k none}

end NamedMaps
