import HumanoidNavigation.Numeric.PyReal
import HumanoidNavigation.Morphology.Basic
import HumanoidNavigation.Ros.Messages

/-!
# The navigation map

`make_nav2_map.py` projects a cloud onto a grid: cells under floor points are free, cells around
obstacle points are occupied. Numbers are elements of an ordered field `K`. Row 0 of the image is
its top row.
-/

namespace MapMaker

open Morphology Ros

/-- `disk`: the offsets, of rows and of columns, at a distance of at most `radius`. -/
def disk (radius : ℕ) : List (ℤ × ℤ) :=
  (List.range (2 * radius + 1)).flatMap fun i : ℕ =>
    (List.range (2 * radius + 1)).filterMap fun j : ℕ =>
      let y := (i : ℤ) - radius
      let x := (j : ℤ) - radius
      if x * x + y * y ≤ radius * radius then some (y, x) else none

lemma mem_disk {radius : ℕ} {y x : ℤ} :
    (y, x) ∈ disk radius ↔ x * x + y * y ≤ radius * radius := by
  simp only [disk, List.mem_flatMap, List.mem_filterMap, List.mem_range]
  constructor
  · rintro ⟨i, -, j, -, h⟩
    split at h
    · simp only [Option.some.injEq, Prod.mk.injEq] at h
      obtain ⟨rfl, rfl⟩ := h
      assumption
    · simp at h
  · intro h
    have hy : |y| ≤ radius := abs_le_of_sq_le_sq (by nlinarith) (by positivity)
    have hx : |x| ≤ radius := abs_le_of_sq_le_sq (by nlinarith) (by positivity)
    rw [abs_le] at hx hy
    refine ⟨(y + radius).toNat, by omega, (x + radius).toNat, by omega, ?_⟩
    rw [Int.toNat_of_nonneg (by omega), Int.toNat_of_nonneg (by omega), add_sub_cancel_right,
      add_sub_cancel_right, if_pos h]

variable {K : Type} [Field K] [LinearOrder K] [FloorRing K]

structure Args (K : Type) where
  resolution : K
  padding : K
  floorMin : K
  floorMax : K
  obstacleMin : K
  obstacleMax : K
  freeSupportRadius : K
  obstacleSealRadius : K

/-- The corner of the grid, in the world, and its size in cells. -/
structure Grid (K : Type) where
  resolution : K
  xmin : K
  ymin : K
  width : ℤ
  height : ℤ

/-- The first lines of `main`, for a cloud with the given least and greatest coordinates. -/
def Args.grid (args : Args K) (xlo xhi ylo yhi : K) : Grid K :=
  let xmin := ⌊(xlo - args.padding) / args.resolution⌋ * args.resolution
  let ymin := ⌊(ylo - args.padding) / args.resolution⌋ * args.resolution
  let xmax := ⌈(xhi + args.padding) / args.resolution⌉ * args.resolution
  let ymax := ⌈(yhi + args.padding) / args.resolution⌉ * args.resolution
  { resolution := args.resolution
    xmin := xmin
    ymin := ymin
    width := roundHalfEven ((xmax - xmin) / args.resolution) + 1
    height := roundHalfEven ((ymax - ymin) / args.resolution) + 1 }

/-- The pixel of a point, its row and its column, also when it is not in the image. -/
def Grid.pixelOf (g : Grid K) (p : Vector3 K) : ℤ × ℤ :=
  (g.height - 1 - ⌊(p.y - g.ymin) / g.resolution⌋, ⌊(p.x - g.xmin) / g.resolution⌋)

/-- `cells` -/
def Grid.cells (g : Grid K) (points : List (Vector3 K)) : List (ℤ × ℤ) :=
  (points.map g.pixelOf).filter fun (row, col) =>
    0 ≤ col ∧ col < g.width ∧ 0 ≤ row ∧ row < g.height

/-- An array of `False` in which the given pixels are set. -/
def Grid.hits (g : Grid K) (points : List (Vector3 K)) : Mask g.height.toNat g.width.toNat :=
  fun row col => ((row : ℤ), (col : ℤ)) ∈ g.cells points

def Args.floorPoints (args : Args K) (xyz : List (Vector3 K)) : List (Vector3 K) :=
  xyz.filter fun p => args.floorMin ≤ p.z ∧ p.z ≤ args.floorMax

def Args.obstaclePoints (args : Args K) (xyz : List (Vector3 K)) : List (Vector3 K) :=
  xyz.filter fun p => args.obstacleMin ≤ p.z ∧ p.z ≤ args.obstacleMax

/-- `free_radius_cells` -/
def Args.freeRadiusCells (args : Args K) : ℕ :=
  (max 1 (roundHalfEven (args.freeSupportRadius / args.resolution))).toNat

/-- `obstacle_radius_cells` -/
def Args.obstacleRadiusCells (args : Args K) : ℕ :=
  (max 1 (roundHalfEven (args.obstacleSealRadius / args.resolution))).toNat

/-- The image and what the YAML file says of it. -/
structure NavMap (K : Type) where
  grid : Grid K
  image : Fin grid.height.toNat → Fin grid.width.toNat → ℕ

/-- The image that `main` writes for a grid. -/
def Args.paint (args : Args K) (g : Grid K) (xyz : List (Vector3 K)) : NavMap K :=
  let support := disk args.freeRadiusCells
  let free := close support false (dilate support false (g.hits (args.floorPoints xyz)))
  let occupied :=
    dilate (disk args.obstacleRadiusCells) false (g.hits (args.obstaclePoints xyz))
  { grid := g
    image := fun row col =>
      if occupied row col then 0
      else if free row col && !occupied row col then 254
      else 205 }

/-- `main` on the points of the cloud: an exception for an empty cloud, and for a resolution that
makes no grid. -/
def Args.main (args : Args K) (xyz : List (Vector3 K)) : Option (NavMap K) := do
  let xlo ← (xyz.map (·.x)).min?
  let xhi ← (xyz.map (·.x)).max?
  let ylo ← (xyz.map (·.y)).min?
  let yhi ← (xyz.map (·.y)).max?
  let g := args.grid xlo xhi ylo yhi
  if args.resolution = 0 ∨ g.width < 0 ∨ g.height < 0 then none
  else return args.paint g xyz

end MapMaker
