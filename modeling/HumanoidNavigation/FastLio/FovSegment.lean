import HumanoidNavigation.IkdTree.Operations
import Mathlib.Data.List.FinRange
import Mathlib.Tactic.Linarith
import Mathlib.Tactic.Ring

/-!
# The local map

FAST-LIO keeps the part of the map in a cube around the lidar. When the lidar comes near to a face,
`lasermap_fov_segment` moves the cube and lists the boxes that are no longer in it. These boxes are
the difference of the old cube and the new one (`removed_iff`), and a lidar that does not jump stays
away from the faces (`Inside.segment`).
-/

namespace FastLio

open IkdTree

attribute [local instance] atLeastTwo_two atLeastTwo_ten

variable {P K : Type*} [Field K] [LinearOrder K]

/-- The parameters `cube_len` and `DET_RANGE`. -/
structure FovParams (K : Type*) where
  cubeLen : K
  detRange : K

def movThreshold : K := 1 + 1 / 2

namespace FovParams

/-- `MOV_THRESHOLD * DET_RANGE`, the distance to a face that makes the cube move. -/
def edge (c : FovParams K) : K := movThreshold * c.detRange

def movDist (c : FovParams K) : K :=
  max ((c.cubeLen - 2 * movThreshold * c.detRange) * (1 / 2) * (1 - 1 / 10))
    (c.detRange * (movThreshold - 1))

end FovParams

/-! ### The segment of the map -/

variable {c : FovParams K} {pos pos' : Fin 3 → K} {box : BoxPointType K} {i j : Fin 3}

/-- `dist_to_map_edge`. -/
def distToMapEdge (pos : Fin 3 → K) (box : BoxPointType K) (i : Fin 3) : K × K :=
  (|pos i - box.vertexMin i|, |pos i - box.vertexMax i|)

def needMove (c : FovParams K) (pos : Fin 3 → K) (box : BoxPointType K) : Bool :=
  decide (∃ i, (distToMapEdge pos box i).1 ≤ c.edge ∨ (distToMapEdge pos box i).2 ≤ c.edge)

/-- What the loop adds to the bounds of an axis. -/
def shift (c : FovParams K) (pos : Fin 3 → K) (box : BoxPointType K) (i : Fin 3) : K :=
  if (distToMapEdge pos box i).1 ≤ c.edge then -c.movDist
  else if (distToMapEdge pos box i).2 ≤ c.edge then c.movDist
  else 0

/-- `tmp_boxpoints`, the part of the cube that an axis leaves. -/
def tmpBoxpoints (c : FovParams K) (pos : Fin 3 → K) (box : BoxPointType K) (i : Fin 3) :
    Option (BoxPointType K) :=
  if (distToMapEdge pos box i).1 ≤ c.edge then
    some { box with
      vertexMin := Function.update box.vertexMin i (box.vertexMax i - c.movDist) }
  else if (distToMapEdge pos box i).2 ≤ c.edge then
    some { box with
      vertexMax := Function.update box.vertexMax i (box.vertexMin i + c.movDist) }
  else none

/-- One turn of the loop, on `New_LocalMap_Points` and `cub_needrm`. -/
def moveAxis (c : FovParams K) (pos : Fin 3 → K) (box : BoxPointType K)
    (moved : BoxPointType K × List (BoxPointType K)) (i : Fin 3) :
    BoxPointType K × List (BoxPointType K) :=
  let new := moved.1
  ({ vertexMin := Function.update new.vertexMin i (new.vertexMin i + shift c pos box i)
     vertexMax := Function.update new.vertexMax i (new.vertexMax i + shift c pos box i) },
    moved.2 ++ (tmpBoxpoints c pos box i).toList)

/-- The local map and the boxes to remove after `lasermap_fov_segment`. -/
def fovSegment (c : FovParams K) (pos : Fin 3 → K) :
    Option (BoxPointType K) → BoxPointType K × List (BoxPointType K)
  | none => (⟨fun i => pos i - c.cubeLen / 2, fun i => pos i + c.cubeLen / 2⟩, [])
  | some box =>
    if needMove c pos box then (List.finRange 3).foldl (moveAxis c pos box) (box, [])
    else (box, [])

/-! ### What the loop does -/

lemma foldl_moveAxis (axes : List (Fin 3)) (haxes : axes.Nodup)
    (moved : BoxPointType K × List (BoxPointType K)) :
    axes.foldl (moveAxis c pos box) moved =
      (⟨fun i => moved.1.vertexMin i + if i ∈ axes then shift c pos box i else 0,
        fun i => moved.1.vertexMax i + if i ∈ axes then shift c pos box i else 0⟩,
        moved.2 ++ axes.filterMap (tmpBoxpoints c pos box)) := by
  induction axes generalizing moved with
  | nil => simp
  | cons i axes ih =>
    obtain ⟨hi, haxes⟩ := List.nodup_cons.mp haxes
    have hupdate : ∀ (f : Fin 3 → K) (x : K),
        (fun j => Function.update f i (f i + x) j + if j ∈ axes then shift c pos box j else 0) =
          fun j => f j + if j = i then x else if j ∈ axes then shift c pos box j else 0 := by
      intro f x
      funext j
      by_cases hj : j = i
      · subst hj
        simp [hi]
      · simp [hj]
    rw [List.foldl_cons, ih haxes]
    have hif : ∀ j, (if j ∈ i :: axes then shift c pos box j else 0) =
        if j = i then shift c pos box i else if j ∈ axes then shift c pos box j else 0 := by
      intro j
      by_cases hj : j = i <;> simp [hj]
    simp only [moveAxis, hupdate, hif, List.append_assoc]
    cases h : tmpBoxpoints c pos box i <;> simp [h]

/-- The loop moves every axis and lists what the axes leave. -/
lemma fovSegment_some (c : FovParams K) (pos : Fin 3 → K) (box : BoxPointType K) :
    fovSegment c pos (some box) =
      (⟨fun i => box.vertexMin i + shift c pos box i, fun i => box.vertexMax i + shift c pos box i⟩,
        (List.finRange 3).filterMap (tmpBoxpoints c pos box)) := by
  rw [fovSegment]
  split_ifs with hmove
  · rw [foldl_moveAxis _ (List.nodup_finRange 3)]
    simp
  · have hfar : ∀ i, ¬(distToMapEdge pos box i).1 ≤ c.edge ∧
        ¬(distToMapEdge pos box i).2 ≤ c.edge := by
      intro i
      apply not_or.mp
      intro hi
      exact hmove (decide_eq_true ⟨i, hi⟩)
    have hshift : ∀ i, shift c pos box i = 0 := fun i => by simp [shift, hfar i]
    have htmp : ∀ i, tmpBoxpoints c pos box i = none := fun i => by simp [tmpBoxpoints, hfar i]
    simp [hshift, htmp]

/-! ### The boxes to remove -/

/-- The local map is a cube. -/
def IsCube (c : FovParams K) (box : BoxPointType K) : Prop :=
  ∀ i, box.vertexMax i = box.vertexMin i + c.cubeLen

variable [IsStrictOrderedRing K] [PointType P K] {p : P}

/-- The box of an axis has the points of the cube that the axis leaves behind. -/
lemma tmpBoxpoints_iff (hbox : IsCube c box) (hpos : 0 ≤ c.movDist) (hlen : c.movDist ≤ c.cubeLen) :
    (∃ b, tmpBoxpoints c pos box i = some b ∧ b.contains p = true) ↔
      box.contains p = true ∧ ¬(box.vertexMin i + shift c pos box i ≤ coord p i ∧
        box.vertexMax i + shift c pos box i > coord p i) := by
  have hi := hbox i
  have hp : box.contains p = true → box.vertexMin i ≤ coord p i ∧ coord p i < box.vertexMax i :=
    fun h => of_decide_eq_true h i
  rw [tmpBoxpoints, shift]
  split_ifs
  · simp only [Option.some.injEq, exists_eq_left']
    rw [BoxPointType.contains_updateMin (by linarith)]
    apply and_congr_right
    intro h
    obtain ⟨hmin, -⟩ := hp h
    constructor
    · rintro hle ⟨-, hlt⟩
      linarith
    · intro hout
      by_contra hlt
      exact hout ⟨by linarith, by linarith⟩
  · simp only [Option.some.injEq, exists_eq_left']
    rw [BoxPointType.contains_updateMax (by linarith)]
    apply and_congr_right
    intro h
    obtain ⟨-, hmax⟩ := hp h
    constructor
    · rintro hlt ⟨hle, -⟩
      linarith
    · intro hout
      by_contra hle
      exact hout ⟨by linarith, by linarith⟩
  · simp only [add_zero]
    constructor
    · rintro ⟨b, hb, -⟩
      simp at hb
    · rintro ⟨h, hout⟩
      exact absurd (hp h) hout

lemma isCube_fovSegment {old : Option (BoxPointType K)} (h : ∀ box ∈ old, IsCube c box) :
    IsCube c (fovSegment c pos old).1 := by
  intro i
  cases old with
  | none =>
    simp only [fovSegment]
    ring
  | some box =>
    have hi := h box rfl i
    rw [fovSegment_some]
    simp only
    linarith

/-- A point is in one of the boxes to remove if it is in the old cube and not in the new one. -/
theorem removed_iff (hbox : IsCube c box) (hpos : 0 ≤ c.movDist) (hlen : c.movDist ≤ c.cubeLen) :
    (∃ b ∈ (fovSegment c pos (some box)).2, b.contains p = true) ↔
      box.contains p = true ∧ (fovSegment c pos (some box)).1.contains p = false := by
  rw [fovSegment_some]
  simp only [List.mem_filterMap, List.mem_finRange, true_and]
  constructor
  · rintro ⟨b, ⟨i, hi⟩, hb⟩
    obtain ⟨hold, hout⟩ := (tmpBoxpoints_iff hbox hpos hlen).mp ⟨b, hi, hb⟩
    refine ⟨hold, decide_eq_false ?_⟩
    intro hnew
    exact hout (hnew i)
  · rintro ⟨hold, hnew⟩
    obtain ⟨i, hi⟩ := not_forall.mp (of_decide_eq_false hnew)
    obtain ⟨b, hb, hp⟩ := (tmpBoxpoints_iff hbox hpos hlen).mpr ⟨hold, hi⟩
    exact ⟨b, ⟨i, hb⟩, hp⟩

/-! ### The lidar in the cube -/

/-- The parameters leave room for a move, whichever face the lidar comes near to. -/
structure FovParams.Wide (c : FovParams K) : Prop where
  detRange : 0 < c.detRange
  cubeLen : 2 * c.edge + c.movDist < c.cubeLen

/-- The lidar is not near to a face of the cube. -/
structure Inside (c : FovParams K) (pos : Fin 3 → K) (box : BoxPointType K) : Prop where
  isCube : IsCube c box
  far : ∀ i, box.vertexMin i + c.edge < pos i ∧ pos i + c.edge < box.vertexMax i

namespace FovParams.Wide

lemma edge_pos (hc : c.Wide) : 0 < c.edge := by
  apply mul_pos _ hc.detRange
  unfold movThreshold
  positivity

lemma movDist_pos (hc : c.Wide) : 0 < c.movDist := by
  apply lt_max_of_lt_right
  apply mul_pos hc.detRange
  unfold movThreshold
  norm_num

lemma movDist_le (hc : c.Wide) : c.movDist ≤ c.cubeLen := by
  have hedge := hc.edge_pos
  have hlen := hc.cubeLen
  linarith

end FovParams.Wide

/-- The first cube is around the lidar. -/
lemma inside_first (hc : c.Wide) (pos : Fin 3 → K) : Inside c pos (fovSegment c pos none).1 := by
  have hlen := hc.cubeLen
  have hmov := hc.movDist_pos
  refine ⟨isCube_fovSegment (by simp), fun i => ?_⟩
  simp only [fovSegment]
  constructor <;> linarith

/-- How far the lidar may go along an axis between two calls. -/
def FovParams.reach (c : FovParams K) : K := min c.movDist (2 * c.edge)

/-- A lidar that does not jump stays away from the faces. -/
theorem Inside.segment (hc : c.Wide) (h : Inside c pos box)
    (hpos : ∀ i, |pos' i - pos i| ≤ c.reach) :
    Inside c pos' (fovSegment c pos' (some box)).1 := by
  have hedge := hc.edge_pos
  have hmov := hc.movDist_pos
  have hlen := hc.cubeLen
  refine ⟨isCube_fovSegment (by simpa using h.isCube), fun i => ?_⟩
  rw [fovSegment_some]
  obtain ⟨hmin, hmax⟩ := h.far i
  have hi := h.isCube i
  obtain ⟨hmovDist, htwice⟩ := le_min_iff.mp (hpos i)
  obtain ⟨hlo, hhi⟩ := abs_le.mp hmovDist
  obtain ⟨hlo', hhi'⟩ := abs_le.mp htwice
  by_cases hnear : (distToMapEdge pos' box i).1 ≤ c.edge
  · have hshift : shift c pos' box i = -c.movDist := if_pos hnear
    obtain ⟨-, hle⟩ := abs_le.mp hnear
    simp only [hshift]
    constructor <;> linarith
  by_cases hnear' : (distToMapEdge pos' box i).2 ≤ c.edge
  · have hshift : shift c pos' box i = c.movDist := by
      rw [shift, if_neg hnear, if_pos hnear']
    obtain ⟨hge, -⟩ := abs_le.mp hnear'
    simp only [hshift]
    constructor <;> linarith
  · -- neither face is near, and the lidar has not passed one of them unseen
    have hshift : shift c pos' box i = 0 := by
      rw [shift, if_neg hnear, if_neg hnear']
    have hfar : c.edge < pos' i - box.vertexMin i := by
      by_contra hle
      apply hnear
      rw [distToMapEdge, abs_le]
      constructor <;> linarith
    have hfar' : c.edge < box.vertexMax i - pos' i := by
      by_contra hle
      apply hnear'
      rw [distToMapEdge, abs_le]
      constructor <;> linarith
    simp only [hshift]
    constructor <;> linarith

/-- The points on every axis as near to the lidar as a face that makes the cube move. -/
def Near (c : FovParams K) (pos : Fin 3 → K) (p : P) : Prop :=
  ∀ i, |coord p i - pos i| ≤ c.edge

instance : DecidablePred (Near (P := P) c pos) := fun p => by
  unfold Near
  infer_instance

lemma Inside.contains (h : Inside c pos box) (hp : Near c pos p) : box.contains p = true := by
  apply decide_eq_true
  intro i
  obtain ⟨hmin, hmax⟩ := h.far i
  obtain ⟨hge, hle⟩ := abs_le.mp (hp i)
  constructor <;> linarith

end FastLio
