import Mathlib.Algebra.Ring.Int.Defs
import Mathlib.Data.Fin.Basic
import Mathlib.Tactic.Common

/-!
# Binary images

A `Mask` is a binary image of a given shape, and a structuring element is a list of offsets, of
rows and of columns. Outside the image every value is `border`. Dilation marks what an offset
reaches from a marked pixel, erosion keeps what only reaches marked pixels.
-/

namespace Morphology

abbrev Mask (height width : ℕ) := Fin height → Fin width → Bool

variable {height width : ℕ}

/-- The value at any pair of integers. -/
def Mask.get (f : Mask height width) (border : Bool) (i j : ℤ) : Bool :=
  if h : (0 ≤ i ∧ i < height) ∧ 0 ≤ j ∧ j < width then
    f ⟨i.toNat, by omega⟩ ⟨j.toNat, by omega⟩
  else border

lemma Mask.get_coe (f : Mask height width) (border : Bool) (i : Fin height) (j : Fin width) :
    f.get border i j = f i j := by
  simp [Mask.get]

variable (element : List (ℤ × ℤ)) (border : Bool)

def dilate (f : Mask height width) : Mask height width := fun i j =>
  element.any fun (y, x) => f.get border (i - y) (j - x)

def erode (f : Mask height width) : Mask height width := fun i j =>
  element.all fun (y, x) => f.get border (i + y) (j + x)

def close (f : Mask height width) : Mask height width :=
  erode element border (dilate element border f)

variable {element border}

/-- A marked pixel marks what an offset of the structuring element reaches. -/
lemma dilate_of_mem {f : Mask height width} {a i : Fin height} {b j : Fin width}
    (hf : f a b = true) (hmem : ((i : ℤ) - a, (j : ℤ) - b) ∈ element) :
    dilate element border f i j = true := by
  rw [dilate, List.any_eq_true]
  refine ⟨_, hmem, ?_⟩
  simpa only [sub_sub_cancel, Mask.get_coe] using hf

end Morphology
