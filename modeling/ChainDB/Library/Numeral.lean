import Mathlib.Data.List.TakeWhile

/-! Decimal integers in byte strings: the whole of a string, and the part at its head that the C
conversions read. -/
namespace Numeral

def isSpace (b : UInt8) : Bool := b = 32 || (9 ≤ b && b ≤ 13)

def isDigit (b : UInt8) : Bool := 48 ≤ b && b ≤ 57

def value (digits : List UInt8) : Nat := digits.foldl (fun n b => 10 * n + (b.toNat - 48)) 0

def splitSign : List UInt8 → Int × List UInt8
  | [] => (1,[])
  | b :: rest => if b = 45 then (-1,rest) else if b = 43 then (1,rest) else (1,b :: rest)

def integerPrefix (text : List UInt8) : Option Int :=
  let signed := splitSign (text.dropWhile isSpace)
  let digits := signed.2.takeWhile isDigit
  if digits = [] then none else some (signed.1 * value digits)

def wholeInteger (text : List UInt8) : Option Int :=
  let signed := splitSign text
  if signed.2 ≠ [] ∧ signed.2.all isDigit = true then some (signed.1 * value signed.2) else none

theorem digitNotSpace {b : UInt8} (digit : isDigit b = true) : isSpace b = false := by
  simp only [isDigit,isSpace,Bool.and_eq_true,decide_eq_true_eq,UInt8.le_iff_toNat_le] at *
  have low : 48 ≤ b.toNat := digit.1
  have apart : b ≠ 32 := by
    rintro rfl
    exact absurd low (by decide)
  have above : 13 < b.toNat := Nat.lt_of_lt_of_le (by decide) low
  simp [apart,above]

theorem wholeIsPrefix {text : List UInt8} {n : Int} (h : wholeInteger text = some n) :
    integerPrefix text = some n := by
  simp only [wholeInteger] at h
  split at h
  · rename_i whole
    have unspaced : text.dropWhile isSpace = text := by
      cases text with
      | nil => rfl
      | cons b rest =>
        have starts : isSpace b = false := by
          simp only [splitSign] at whole
          split at whole
          · rename_i minus
            rw [minus]
            decide
          · split at whole
            · rename_i plus
              rw [plus]
              decide
            · have all := whole.2
              simp only [List.all_cons,Bool.and_eq_true] at all
              exact digitNotSpace all.1
        simp [starts]
    have digits : (splitSign text).2.takeWhile isDigit = (splitSign text).2 :=
      List.takeWhile_eq_self_iff.mpr (List.all_eq_true.mp whole.2)
    simp only [integerPrefix,unspaced,digits,if_neg whole.1]
    exact h
  · cases h

end Numeral
