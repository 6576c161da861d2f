import HumanoidNavigation.Numeric.PyFloat
import Mathlib.LinearAlgebra.Matrix.Notation

/-!
# Messages and matrices

The parts of ROS messages, and of `numpy` arrays, that several nodes use.
-/

namespace Ros

open PyFloat

structure Vector3 (F : Type) where
  x : F
  y : F
  z : F
  deriving DecidableEq

structure Quaternion (F : Type) where
  x : F
  y : F
  z : F
  w : F
  deriving DecidableEq

/-- The quaternion with these coordinates, in the order `w, x, y, z`. -/
def Quaternion.ofCoords {F : Type} (q : Fin 4 → F) : Quaternion F := ⟨q 1, q 2, q 3, q 0⟩

structure Stamp where
  sec : ℤ
  nanosec : ℕ
  deriving DecidableEq

/-- A stamp in seconds. It is exact, where the code rounds to a double. -/
def Stamp.seconds (s : Stamp) : ℚ := s.sec + s.nanosec / 10 ^ 9

structure Transform (F : Type) where
  translation : Vector3 F
  rotation : Quaternion F
  deriving DecidableEq

structure TransformStamped (F : Type) where
  stamp : Stamp
  frameId : String
  childFrameId : String
  transform : Transform F
  deriving DecidableEq

/-! The indices of a matrix are numerals. -/

instance neZero_three : NeZero 3 := ⟨by decide⟩

instance neZero_four : NeZero 4 := ⟨by decide⟩

abbrev Mat3 (F : Type) := Matrix (Fin 3) (Fin 3) F
abbrev Mat4 (F : Type) := Matrix (Fin 4) (Fin 4) F

variable {F : Type} [PyFloat F]

/-- The orientation `w = 1`. -/
def Quaternion.identity : Quaternion F := ⟨lit 0, lit 0, lit 0, lit 1⟩

/-- Row `i` of the product of a `4 × 4` matrix with `[x, y, z, 1.0]`. -/
def applyRow (m : Mat4 F) (p : Vector3 F) (i : Fin 4) : F :=
  m i 0 * p.x + m i 1 * p.y + m i 2 * p.z + m i 3 * lit 1

/-- The first three rows of the product of a `4 × 4` matrix with `[x, y, z, 1.0]`. -/
def applyPoint (m : Mat4 F) (p : Vector3 F) : Vector3 F :=
  ⟨applyRow m p 0, applyRow m p 1, applyRow m p 2⟩

end Ros
