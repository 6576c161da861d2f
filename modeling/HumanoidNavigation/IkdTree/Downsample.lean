import HumanoidNavigation.IkdTree.Operations
import Mathlib.Algebra.Order.Floor.Ring
import Mathlib.Data.Fintype.Pi

/-!
# Adding and deleting in the map

The functions of the tree that FAST-LIO changes its map with. `Add_Points` with downsampling keeps
one point in each cube of the downsampling grid that it adds to, the one nearest to the centre
among the old points and the new ones, `addPoints_downsampled`.
-/

namespace IkdTree

attribute [local instance] neZero_three atLeastTwo_two atLeastTwo_ten

variable {P K : Type*} [PointType P K] [Field K] [LinearOrder K]

/-- The tree and the points that the rebuilds of the main thread and of the rebuild thread have
recorded as deleted. -/
structure Ikd (P K : Type*) where
  rootNode : KdTree P K
  pointsDeleted : List P
  multithreadPointsDeleted : List P

namespace Ikd

/-- The tree before `Build`. -/
def empty : Ikd P K := ⟨.null, [], []⟩

/-- `Root_Node->division_axis`, which needs a root. -/
def rootAxis (s : Ikd P K) : Option (Fin 3) :=
  match s.rootNode with
  | .null => none
  | .node root _ _ => some root.divisionAxis

def size (s : Ikd P K) : ℕ := s.rootNode.treeSize

/-- `validnum`, with where `Rebuild_Ptr` points and whether `working_flag_mutex` is held. -/
def validnum (ptr : RebuildPtr) (locked : Bool) (s : Ikd P K) : ℤ :=
  if ptr [] && locked then -1
  else (s.rootNode.treeSize : ℤ) - (s.rootNode.invalidPointNum : ℤ)

/-- `Build`. -/
def build (c : KdParams P K) (pointCloud : List P) (s : Ikd P K) : Ikd P K :=
  { s with rootNode := .buildTree c.nthElement pointCloud }

/-- `Add_by_point` at the root. While `Rebuild_Ptr` points at the root nothing is rebuilt. -/
def addByPoint (c : KdParams P K) (ptr : RebuildPtr) (allowRebuild : Bool) (point : P)
    (s : Ikd P K) : Option (Ikd P K) :=
  s.rootAxis.map fun axis =>
    let added := s.rootNode.addByPoint c ptr allowRebuild point axis
    { s with rootNode := added.1, pointsDeleted := s.pointsDeleted ++ added.2 }

/-- `Delete_by_range` at the root. -/
def deleteByRange (c : KdParams P K) (ptr : RebuildPtr) (box : BoxPointType K) (allowRebuild : Bool)
    (isDownsample : Bool) (s : Ikd P K) : ℕ × Ikd P K :=
  let deleted := s.rootNode.deleteByRange c ptr box allowRebuild isDownsample
  (deleted.1, { s with
    rootNode := deleted.2.1
    pointsDeleted := s.pointsDeleted ++ deleted.2.2 })

end Ikd

/-- `same_point`. -/
def samePoint (a b : P) : Bool :=
  decide (∀ i : Fin 3, |coord a i - coord b i| < 1 / 10 ^ 6)

/-- The squared distance of a point to a place. -/
def distTo (place : Fin 3 → K) (p : P) : K :=
  (coord p 0 - place 0) * (coord p 0 - place 0) + (coord p 1 - place 1) * (coord p 1 - place 1) +
    (coord p 2 - place 2) * (coord p 2 - place 2)

/-- The loop over `Downsample_Storage`, from the new point: `downsample_result` is the first of
the nearest points. -/
def downsampleResult (midPoint : Fin 3 → K) (point : P) (storage : List P) : P :=
  storage.foldl (fun best p => if distTo midPoint p < distTo midPoint best then p else best) point

/-- The loop finds a nearest point. -/
lemma downsampleResult_spec (mid : Fin 3 → K) (point : P) (storage : List P) :
    downsampleResult mid point storage ∈ point :: storage ∧
      ∀ p ∈ point :: storage, distTo mid (downsampleResult mid point storage) ≤ distTo mid p := by
  unfold downsampleResult
  induction storage generalizing point with
  | nil => simp
  | cons q storage ih =>
    rw [List.foldl_cons]
    split_ifs with hlt
    · obtain ⟨hmem, hle⟩ := ih q
      refine ⟨List.mem_cons_of_mem _ hmem, fun p hp => ?_⟩
      rcases List.mem_cons.mp hp with rfl | hp
      · exact (hle q List.mem_cons_self).trans hlt.le
      · exact hle p hp
    · obtain ⟨hmem, hle⟩ := ih point
      refine ⟨?_, fun p hp => ?_⟩
      · rcases List.mem_cons.mp hmem with hmem | hmem
        · rw [hmem]
          exact List.mem_cons_self
        · exact List.mem_cons_of_mem _ (List.mem_cons_of_mem _ hmem)
      · rcases List.mem_cons.mp hp with rfl | hp
        · exact hle p List.mem_cons_self
        · rcases List.mem_cons.mp hp with rfl | hp
          · exact (hle point List.mem_cons_self).trans (not_lt.mp hlt)
          · exact hle p (List.mem_cons_of_mem _ hp)

/-! ### One call at the root -/

/-- The points of the map. -/
def Ikd.points (s : Ikd P K) : Multiset P := s.rootNode.points

namespace Ikd

variable {c : KdParams P K} {ptr : RebuildPtr} {allowRebuild isDownsample : Bool} {point : P}
  {box : BoxPointType K} {s t : Ikd P K} {n : ℕ}

/-- The removed points that the map has not reported: those still in the tree and the recorded
ones. -/
def unreported (s : Ikd P K) : Multiset P :=
  s.rootNode.removed + s.pointsDeleted + s.multithreadPointsDeleted

lemma addByPoint_spec (h : s.rootNode.WellFormed)
    (ht : s.addByPoint c ptr allowRebuild point = some t) :
    t.rootNode.WellFormed ∧ t.points = point ::ₘ s.points ∧ t.unreported ≤ s.unreported := by
  simp only [addByPoint, Option.map_eq_some_iff] at ht
  obtain ⟨axis, -, rfl⟩ := ht
  obtain ⟨hw, hpoints, hremoved⟩ := h.addByPoint c ptr allowRebuild point axis
  refine ⟨hw, hpoints, ?_⟩
  simp only [unreported, ← Multiset.coe_add]
  calc _ = _ + ((s.pointsDeleted : Multiset P) + s.multithreadPointsDeleted) := by abel
    _ ≤ s.rootNode.removed + (s.pointsDeleted + s.multithreadPointsDeleted) :=
        add_le_add hremoved le_rfl
    _ = _ := by abel

lemma deleteByRange_spec (h : s.rootNode.WellFormed) (c : KdParams P K) (ptr : RebuildPtr)
    (box : BoxPointType K) (allowRebuild isDownsample : Bool) :
    (s.deleteByRange c ptr box allowRebuild isDownsample).2.rootNode.WellFormed ∧
      (s.deleteByRange c ptr box allowRebuild isDownsample).2.points =
        s.points.filter (box.contains · = false) ∧
      (s.deleteByRange c ptr box allowRebuild isDownsample).1 =
        (s.points.filter (box.contains · = true)).card ∧
      (s.deleteByRange c ptr box allowRebuild isDownsample).2.unreported ≤
        s.unreported + toReport isDownsample (s.points.filter (box.contains · = true)) := by
  obtain ⟨hcount, hw, hpoints, hremoved⟩ := h.deleteByRange c ptr box allowRebuild isDownsample
  refine ⟨hw, hpoints, hcount, ?_⟩
  simp only [unreported, deleteByRange, ← Multiset.coe_add]
  calc _ = _ + ((s.pointsDeleted : Multiset P) + s.multithreadPointsDeleted) := by abel
    _ ≤ s.rootNode.removed + toReport isDownsample (s.points.filter (box.contains · = true)) +
          (s.pointsDeleted + s.multithreadPointsDeleted) := add_le_add hremoved le_rfl
    _ = _ := by abel

end Ikd

/-! ### A cube of the downsampling grid -/

/-- The centre of the cube with the number `v`. -/
def voxelCentre (downsampleSize : K) (v : Fin 3 → ℤ) : Fin 3 → K :=
  fun i => v i * downsampleSize + downsampleSize / 2

/-- The cube `v` after points have been added with downsampling: unless it gets a new point, its
points are the old ones, and else it has one, nearest to its centre among the old and the new. -/
structure Downsampled (size : K) (v : Fin 3 → ℤ) (old new points : Multiset P) : Prop where
  untouched : new = 0 → points = old
  nearest : new ≠ 0 → ∃ r ∈ old + new, points = {r} ∧
    ∀ p ∈ old + new, distTo (voxelCentre size v) r ≤ distTo (voxelCentre size v) p

/-- After the first new point of a cube the rest finds the point that this one has left. -/
lemma Downsampled.cons {size : K} {point : P} {v : Fin 3 → ℤ} {old new points : Multiset P} {r : P}
    (h : Downsampled size v {r} new points) (hr : r ∈ point ::ₘ old)
    (hle : ∀ p ∈ point ::ₘ old, distTo (voxelCentre size v) r ≤ distTo (voxelCentre size v) p) :
    Downsampled size v old (point ::ₘ new) points := by
  refine ⟨fun h => absurd h (Multiset.cons_ne_zero), fun _ => ?_⟩
  have hsplit : ∀ {p}, p ∈ old + point ::ₘ new ↔ p ∈ point ::ₘ old ∨ p ∈ new := by
    intro p
    simp only [Multiset.mem_add, Multiset.mem_cons]
    tauto
  by_cases hnew : new = 0
  · refine ⟨r, hsplit.mpr (.inl hr), h.untouched hnew, fun p hp => ?_⟩
    rcases hsplit.mp hp with hp | hp
    · exact hle p hp
    · simp [hnew] at hp
  · obtain ⟨r', hr', hpoints, hle'⟩ := h.nearest hnew
    have hr'' := hle' r (by simp)
    refine ⟨r', ?_, hpoints, fun p hp => ?_⟩
    · rcases Multiset.mem_add.mp hr' with hr' | hr'
      · rw [Multiset.mem_singleton.mp hr']
        exact hsplit.mpr (.inl hr)
      · exact hsplit.mpr (.inr hr')
    · rcases hsplit.mp hp with hp | hp
      · exact hr''.trans (hle p hp)
      · exact hle' p (by simp [hp])

/-! ### Add_Points and Delete_Point_Boxes -/

variable [FloorRing K]

/-- `Box_of_Point`, the cube of the downsampling grid that the point is in. -/
def boxOfPoint (downsampleSize : K) (point : P) : BoxPointType K where
  vertexMin := fun i => ⌊coord point i / downsampleSize⌋ * downsampleSize
  vertexMax := fun i => ⌊coord point i / downsampleSize⌋ * downsampleSize + downsampleSize

/-- `mid_point`. -/
def midPoint (box : BoxPointType K) : Fin 3 → K :=
  fun i => box.vertexMin i + (box.vertexMax i - box.vertexMin i) / 2

namespace Ikd

/-- One point of `Add_Points` with downsampling, and whether it counts as added. `ptr` is where
`Rebuild_Ptr` points during the deletion and during the addition. -/
def addDownsampled (c : KdParams P K) (ptr : RebuildPtr × RebuildPtr) (point : P) (s : Ikd P K) :
    Option (ℕ × Ikd P K) :=
  let box := boxOfPoint c.downsampleSize point
  let found := s.rootNode.searchByRange box
  let s := { s with rootNode := found.1 }
  let result := downsampleResult (midPoint box) point found.2
  let allowRebuild := !ptr.1 []
  if found.2.length > 1 ∨ samePoint point result then
    let s := if found.2.length > 0 then (s.deleteByRange c ptr.1 box allowRebuild true).2 else s
    (s.addByPoint c ptr.2 allowRebuild result).map fun s => (1, s)
  else some (0, s)

/-- `Add_Points` with the count that it returns. -/
def addPoints (c : KdParams P K) (downsampleOn : Bool) :
    List ((RebuildPtr × RebuildPtr) × P) → Ikd P K → Option (ℕ × Ikd P K)
  | [], s => some (0, s)
  | (ptr, point) :: points, s => do
    let (added, s) ← if downsampleOn then s.addDownsampled c ptr point
      else (s.addByPoint c ptr.2 (!ptr.2 []) point).map fun s => (0, s)
    let (rest, s) ← addPoints c downsampleOn points s
    some (added + rest, s)

/-- `Delete_Point_Boxes` with the count that it returns. -/
def deletePointBoxes (c : KdParams P K) :
    List (RebuildPtr × BoxPointType K) → Ikd P K → ℕ × Ikd P K
  | [], s => (0, s)
  | (ptr, box) :: boxes, s =>
    let deleted := s.deleteByRange c ptr box (!ptr []) false
    let rest := deletePointBoxes c boxes deleted.2
    (deleted.1 + rest.1, rest.2)

end Ikd

/-! ### What the functions do to the points -/

/-- The cube of the downsampling grid that a point is in. -/
def voxel (downsampleSize : K) (p : P) : Fin 3 → ℤ := fun i => ⌊coord p i / downsampleSize⌋

section

variable {size : K} {p q : P}

lemma midPoint_boxOfPoint : midPoint (boxOfPoint size p) = voxelCentre size (voxel size p) := by
  funext i
  simp only [midPoint, boxOfPoint, voxelCentre, voxel, add_sub_cancel_left]

variable [IsStrictOrderedRing K]

lemma contains_boxOfPoint (hsize : 0 < size) :
    (boxOfPoint size p).contains q = true ↔ voxel size q = voxel size p := by
  rw [BoxPointType.contains, decide_eq_true_iff, funext_iff]
  refine forall_congr' fun i => ?_
  simp only [boxOfPoint, voxel]
  rw [Int.floor_eq_iff, le_div_iff₀ hsize, div_lt_iff₀ hsize, add_mul, one_mul]

omit [FloorRing K] in
lemma samePoint_self (p : P) : samePoint p p = true := by
  refine decide_eq_true fun i => ?_
  rw [sub_self, abs_zero]
  positivity

end

lemma coe_filter (f : P → Bool) (points : List P) :
    (points.filter f : Multiset P) = (points : Multiset P).filter (f · = true) := by
  rw [Multiset.filter_coe]
  simp

namespace Ikd

variable [IsStrictOrderedRing K] {c : KdParams P K} {ptr : RebuildPtr × RebuildPtr} {point : P}
  {s t : Ikd P K} {n : ℕ}

/-- One point of `Add_Points` with downsampling: its cube keeps a nearest point to the centre of
those that have been in it and the new one. -/
lemma addDownsampled_spec (hsize : 0 < c.downsampleSize) (h : s.rootNode.WellFormed)
    (ht : s.addDownsampled c ptr point = some (n, t)) :
    let v := voxel c.downsampleSize point
    let old := s.points.filter (voxel c.downsampleSize · = v)
    t.rootNode.WellFormed ∧ t.unreported ≤ s.unreported ∧
      ∃ r ∈ point ::ₘ old, (∀ p ∈ point ::ₘ old, distTo (voxelCentre c.downsampleSize v) r ≤
          distTo (voxelCentre c.downsampleSize v) p) ∧
        t.points = r ::ₘ s.points.filter (voxel c.downsampleSize · ≠ v) := by
  intro v old
  obtain ⟨hsame, hfound⟩ := h.searchByRange (boxOfPoint c.downsampleSize point)
  obtain ⟨hmem, hle⟩ := downsampleResult_spec
    (midPoint (boxOfPoint c.downsampleSize point)) point
    (s.rootNode.searchByRange (boxOfPoint c.downsampleSize point)).2
  simp only [addDownsampled] at ht
  generalize s.rootNode.searchByRange (boxOfPoint c.downsampleSize point) = found at *
  have hcontains : ∀ p, ((boxOfPoint c.downsampleSize point).contains p = true) =
      (voxel c.downsampleSize p = v) := fun p => propext (contains_boxOfPoint hsize)
  have hcontains' : ∀ p, ((boxOfPoint c.downsampleSize point).contains p = false) =
      (voxel c.downsampleSize p ≠ v) := fun p => by
    rw [← Bool.not_eq_true, hcontains]
  have hold : (found.2 : Multiset P) = old := by
    rw [hfound, coe_filter]
    exact Multiset.filter_congr fun p _ => contains_boxOfPoint hsize
  rw [midPoint_boxOfPoint] at hmem hle ht
  set r := downsampleResult (voxelCentre c.downsampleSize v) point found.2 with hr
  have hmem' : r ∈ point ::ₘ old := by
    rw [← hold, Multiset.cons_coe]
    exact hmem
  have hle' : ∀ p ∈ point ::ₘ old, distTo (voxelCentre c.downsampleSize v) r ≤
      distTo (voxelCentre c.downsampleSize v) p := by
    intro p hp
    rw [← hold, Multiset.cons_coe] at hp
    exact hle p hp
  set s₁ : Ikd P K := { s with rootNode := found.1 } with hs₁
  have hpoints₁ : s₁.points = s.points := congrArg Multiset.ofList hsame.live
  have hun₁ : s₁.unreported ≤ s.unreported :=
    add_le_add (add_le_add hsame.removed le_rfl) le_rfl
  split_ifs at ht with hadd hpos
  · obtain ⟨t', ht', heq⟩ := Option.map_eq_some_iff.mp ht
    obtain ⟨-, rfl⟩ := Prod.mk.inj heq
    obtain ⟨hw, hpoints, -, hun⟩ := deleteByRange_spec (s := s₁) hsame.wellFormed c ptr.1
      (boxOfPoint c.downsampleSize point) (!ptr.1 []) true
    obtain ⟨hwt, hpointst, hunt⟩ := addByPoint_spec hw ht'
    simp only [toReport, if_true, add_zero] at hun
    refine ⟨hwt, hunt.trans (hun.trans hun₁), r, hmem', hle', ?_⟩
    rw [hpointst, hpoints, hpoints₁]
    simp only [hcontains']
  · obtain ⟨t', ht', heq⟩ := Option.map_eq_some_iff.mp ht
    obtain ⟨-, rfl⟩ := Prod.mk.inj heq
    obtain ⟨hwt, hpointst, hunt⟩ := addByPoint_spec hsame.wellFormed ht'
    have hnil : found.2 = [] := List.length_eq_zero_iff.mp (by omega)
    rw [hnil, Multiset.coe_nil] at hold
    refine ⟨hwt, hunt.trans hun₁, r, hmem', hle', ?_⟩
    rw [hpointst, hpoints₁, Multiset.filter_eq_self.mpr]
    exact fun p hp => Multiset.filter_eq_nil.mp hold.symm p hp
  · obtain ⟨hlength, hsame'⟩ := not_or.mp hadd
    obtain ⟨-, rfl⟩ := Prod.mk.inj (Option.some.inj ht)
    refine ⟨hsame.wellFormed, hun₁, r, hmem', hle', ?_⟩
    have hr' : r ∈ found.2 := by
      refine (List.mem_cons.mp hmem).resolve_left fun h => hsame' ?_
      rw [h]
      exact samePoint_self point
    obtain ⟨q, hq⟩ := List.length_eq_one_iff.mp
      (le_antisymm (not_lt.mp hlength) (List.length_pos_of_mem hr'))
    have hone : old = {r} := by
      rw [← hold, hq]
      rw [hq, List.mem_singleton] at hr'
      rw [hr', Multiset.coe_singleton]
    rw [hpoints₁, ← Multiset.singleton_add, ← hone]
    exact (Multiset.filter_add_not _ _).symm

omit [FloorRing K] [IsStrictOrderedRing K] in
/-- A tree with a root has one after a point has been added. -/
lemma addByPoint_returns (h : s.rootNode.WellFormed) (hroot : s.rootNode.isNull = false)
    (c : KdParams P K) (ptr : RebuildPtr) (allowRebuild : Bool) (point : P) :
    ∃ t, s.addByPoint c ptr allowRebuild point = some t ∧ t.rootNode.isNull = false := by
  obtain ⟨root, pointsDeleted, multithreadPointsDeleted⟩ := s
  cases root with
  | null => simp at hroot
  | node d l r =>
    refine ⟨_, rfl, KdTree.isNull_of_points ?_⟩
    rw [(h.addByPoint c ptr allowRebuild point d.divisionAxis).points]
    exact Multiset.cons_ne_zero

omit [IsStrictOrderedRing K] in
lemma addDownsampled_returns (h : s.rootNode.WellFormed) (hroot : s.rootNode.isNull = false)
    (c : KdParams P K) (ptr : RebuildPtr × RebuildPtr) (point : P) :
    ∃ n t, s.addDownsampled c ptr point = some (n, t) ∧ t.rootNode.isNull = false := by
  obtain ⟨hsame, -⟩ := h.searchByRange (boxOfPoint c.downsampleSize point)
  have hroot' := hsame.isNull.trans hroot
  simp only [addDownsampled]
  split_ifs
  · obtain ⟨hw, -⟩ := deleteByRange_spec (s := { s with rootNode := _ }) hsame.wellFormed c ptr.1
      (boxOfPoint c.downsampleSize point) (!ptr.1 []) true
    obtain ⟨t, ht, hroott⟩ := addByPoint_returns hw
      (hsame.wellFormed.isNull_deleteByRange.trans hroot') c ptr.2 (!ptr.1 []) _
    exact ⟨1, t, by rw [ht]; rfl, hroott⟩
  · obtain ⟨t, ht, hroott⟩ := addByPoint_returns (s := { s with rootNode := _ }) hsame.wellFormed
      hroot' c ptr.2 (!ptr.1 []) _
    exact ⟨1, t, by rw [ht]; rfl, hroott⟩
  · exact ⟨0, _, rfl, hroot'⟩

/-- `Add_Points` to a tree with a root returns. -/
lemma addPoints_returns (hsize : 0 < c.downsampleSize) (h : s.rootNode.WellFormed)
    (hroot : s.rootNode.isNull = false) (downsampleOn : Bool)
    (points : List ((RebuildPtr × RebuildPtr) × P)) :
    ∃ n t, s.addPoints c downsampleOn points = some (n, t) ∧ t.rootNode.isNull = false := by
  induction points generalizing s with
  | nil => exact ⟨0, s, rfl, hroot⟩
  | cons head points ih =>
    obtain ⟨ptr, point⟩ := head
    cases downsampleOn with
    | true =>
      obtain ⟨n, s₁, hs₁, hroot₁⟩ := addDownsampled_returns h hroot c ptr point
      obtain ⟨hw₁, -⟩ := addDownsampled_spec hsize h hs₁
      obtain ⟨m, t, ht, hroott⟩ := ih hw₁ hroot₁
      exact ⟨n + m, t, by simp [addPoints, hs₁, ht], hroott⟩
    | false =>
      obtain ⟨s₁, hs₁, hroot₁⟩ := addByPoint_returns h hroot c ptr.2 (!ptr.2 []) point
      obtain ⟨hw₁, -⟩ := addByPoint_spec h hs₁
      obtain ⟨m, t, ht, hroott⟩ := ih hw₁ hroot₁
      exact ⟨0 + m, t, by simp [addPoints, hs₁, ht], hroott⟩

omit [FloorRing K] [IsStrictOrderedRing K] in
lemma isNull_deletePointBoxes (h : s.rootNode.WellFormed) (c : KdParams P K)
    (boxes : List (RebuildPtr × BoxPointType K)) :
    (s.deletePointBoxes c boxes).2.rootNode.isNull = s.rootNode.isNull := by
  induction boxes generalizing s with
  | nil => rfl
  | cons head boxes ih =>
    obtain ⟨ptr, box⟩ := head
    obtain ⟨hw, -⟩ := deleteByRange_spec h c ptr box (!ptr []) false
    exact (ih hw).trans h.isNull_deleteByRange

/-- `Add_Points` with downsampling, cube by cube. -/
theorem addPoints_downsampled {points : List ((RebuildPtr × RebuildPtr) × P)}
    (hsize : 0 < c.downsampleSize) (h : s.rootNode.WellFormed)
    (ht : s.addPoints c true points = some (n, t)) :
    t.rootNode.WellFormed ∧ t.unreported ≤ s.unreported ∧
      ∀ v, Downsampled c.downsampleSize v (s.points.filter (voxel c.downsampleSize · = v))
        (((points.map Prod.snd : List P) : Multiset P).filter (voxel c.downsampleSize · = v))
        (t.points.filter (voxel c.downsampleSize · = v)) := by
  induction points generalizing s n with
  | nil =>
    obtain ⟨-, rfl⟩ := Prod.mk.inj (Option.some.inj ht)
    exact ⟨h, le_rfl, fun v => ⟨fun _ => rfl, fun h => absurd rfl h⟩⟩
  | cons head points ih =>
    obtain ⟨ptr, point⟩ := head
    simp only [addPoints, if_true, Option.bind_eq_bind, Option.bind_eq_some_iff] at ht
    obtain ⟨⟨added, s₁⟩, hadd, ⟨rest, t'⟩, hrest, heq⟩ := ht
    obtain ⟨-, rfl⟩ := Prod.mk.inj (Option.some.inj heq)
    obtain ⟨hw, hun, r, hr, hle, hpoints⟩ := addDownsampled_spec hsize h hadd
    obtain ⟨hwt, hunt, hcubes⟩ := ih hw hrest
    have hrv : voxel c.downsampleSize r = voxel c.downsampleSize point := by
      rcases Multiset.mem_cons.mp hr with rfl | hr
      · rfl
      · exact (Multiset.mem_filter.mp hr).2
    refine ⟨hwt, hunt.trans hun, fun v => ?_⟩
    have hcube := hcubes v
    rw [hpoints, Multiset.filter_cons, Multiset.filter_filter, hrv] at hcube
    rw [List.map_cons, ← Multiset.cons_coe, Multiset.filter_cons]
    by_cases hv : voxel c.downsampleSize point = v
    · subst hv
      rw [if_pos rfl] at hcube ⊢
      rw [Multiset.filter_eq_nil.mpr (by simp), add_zero] at hcube
      rw [Multiset.singleton_add]
      exact hcube.cons hr hle
    · rw [if_neg hv] at hcube ⊢
      rw [zero_add] at hcube ⊢
      have hother : s.points.filter (fun p => voxel c.downsampleSize p = v ∧
          voxel c.downsampleSize p ≠ voxel c.downsampleSize point) =
            s.points.filter (voxel c.downsampleSize · = v) :=
        Multiset.filter_congr fun p _ =>
          ⟨fun h => h.1, fun h => ⟨h, fun h' => hv (h'.symm.trans h)⟩⟩
      rwa [hother] at hcube

omit [IsStrictOrderedRing K] in
/-- `Add_Points` without downsampling adds the points. -/
theorem addPoints_plain {points : List ((RebuildPtr × RebuildPtr) × P)} (h : s.rootNode.WellFormed)
    (ht : s.addPoints c false points = some (n, t)) :
    t.rootNode.WellFormed ∧ t.unreported ≤ s.unreported ∧
      t.points = s.points + (points.map Prod.snd : List P) := by
  induction points generalizing s n with
  | nil =>
    obtain ⟨-, rfl⟩ := Prod.mk.inj (Option.some.inj ht)
    exact ⟨h, le_rfl, (add_zero _).symm⟩
  | cons head points ih =>
    obtain ⟨ptr, point⟩ := head
    simp only [addPoints, Bool.false_eq_true, if_false, Option.bind_eq_bind,
      Option.bind_eq_some_iff] at ht
    obtain ⟨⟨added, s₁⟩, hadd, ⟨rest, t'⟩, hrest, heq⟩ := ht
    obtain ⟨-, rfl⟩ := Prod.mk.inj (Option.some.inj heq)
    obtain ⟨s', hs', heq'⟩ := Option.map_eq_some_iff.mp hadd
    obtain ⟨-, rfl⟩ := Prod.mk.inj heq'
    obtain ⟨hw, hpoints, hun⟩ := addByPoint_spec h hs'
    obtain ⟨hwt, hunt, hpointst⟩ := ih hw hrest
    refine ⟨hwt, hunt.trans hun, ?_⟩
    rw [hpointst, hpoints, List.map_cons, ← Multiset.cons_coe, Multiset.add_cons,
      Multiset.cons_add]

omit [FloorRing K] [IsStrictOrderedRing K] in
/-- `Delete_Point_Boxes` deletes the points that are in one of the boxes, counts each of them once
and has no others to report. -/
theorem deletePointBoxes_spec (h : s.rootNode.WellFormed) (c : KdParams P K)
    (boxes : List (RebuildPtr × BoxPointType K)) :
    (s.deletePointBoxes c boxes).2.rootNode.WellFormed ∧
      (s.deletePointBoxes c boxes).2.points =
        s.points.filter (fun p => ∀ b ∈ boxes, b.2.contains p = false) ∧
      (s.deletePointBoxes c boxes).1 =
        (s.points.filter (fun p => ¬∀ b ∈ boxes, b.2.contains p = false)).card ∧
      (s.deletePointBoxes c boxes).2.unreported ≤
        s.unreported + s.points.filter (fun p => ¬∀ b ∈ boxes, b.2.contains p = false) := by
  induction boxes generalizing s with
  | nil => exact ⟨h, by simp [deletePointBoxes], by simp [deletePointBoxes],
      by simp [deletePointBoxes]⟩
  | cons head boxes ih =>
    obtain ⟨ptr, box⟩ := head
    obtain ⟨hw, hpoints, hcount, hun⟩ := deleteByRange_spec h c ptr box (!ptr []) false
    obtain ⟨hwt, hpointst, hcountt, hunt⟩ := ih hw
    simp only [deletePointBoxes]
    have hkept : ∀ p : P, (∀ b ∈ (ptr, box) :: boxes, b.2.contains p = false) ↔
        (∀ b ∈ boxes, b.2.contains p = false) ∧ box.contains p = false := by
      intro p
      rw [List.forall_mem_cons, and_comm]
    have hsplit : s.points.filter (fun p => ¬∀ b ∈ (ptr, box) :: boxes, b.2.contains p = false) =
        s.points.filter (box.contains · = true) +
          (s.points.filter (box.contains · = false)).filter
            (fun p => ¬∀ b ∈ boxes, b.2.contains p = false) := by
      rw [← Multiset.filter_add_not (box.contains · = true) (s.points.filter _),
        Multiset.filter_filter, Multiset.filter_filter, Multiset.filter_filter]
      congr 1 <;> refine Multiset.filter_congr fun p _ => ?_
      · rw [hkept]
        cases box.contains p <;> simp
      · rw [hkept]
        cases box.contains p <;> simp
    have hun' : (s.deleteByRange c ptr box (!ptr []) false).2.unreported ≤
        s.unreported + s.points.filter (box.contains · = true) := hun
    refine ⟨hwt, ?_, ?_, ?_⟩
    · rw [hpointst, hpoints, Multiset.filter_filter]
      exact Multiset.filter_congr fun p _ => (hkept p).symm
    · rw [hsplit, hcountt, hcount, hpoints, Multiset.card_add]
    · rw [hsplit, ← hpoints, ← add_assoc]
      exact hunt.trans (add_le_add hun' le_rfl)

end Ikd

end IkdTree
