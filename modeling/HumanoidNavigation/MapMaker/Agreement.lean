import HumanoidNavigation.MapMaker.Image
import HumanoidNavigation.GoalNav.Geometry

/-!
# The map maker and the goal node agree on obstacles

The goal node finds the cell of a point with its own arithmetic. On a map that the map maker wrote,
and that is read with the bottom row of the image as row 0, the cell of an obstacle point and the
cells around it are occupied.
-/

namespace MapMaker

open Morphology Ros

/-! ### The grid -/

section Grid

variable {K : Type} [Field K] [LinearOrder K] [IsStrictOrderedRing K] [FloorRing K]

/-- The coordinates of the cloud fall between the first and the last cell of an axis. -/
lemma floor_mem_axis {lo hi x pad res : K} (hres : 0 < res) (hpad : 0 ≤ pad) (hlo : lo ≤ x)
    (hhi : x ≤ hi) :
    0 ≤ ⌊(x - ⌊(lo - pad) / res⌋ * res) / res⌋ ∧
      ⌊(x - ⌊(lo - pad) / res⌋ * res) / res⌋ <
        roundHalfEven ((⌈(hi + pad) / res⌉ * res - ⌊(lo - pad) / res⌋ * res) / res) + 1 := by
  have hcell : ⌊(x - ⌊(lo - pad) / res⌋ * res) / res⌋ = ⌊x / res⌋ - ⌊(lo - pad) / res⌋ := by
    rw [sub_div, mul_div_cancel_right₀ _ hres.ne', Int.floor_sub_intCast]
  have hsize : (⌈(hi + pad) / res⌉ * res - ⌊(lo - pad) / res⌋ * res) / res =
      ((⌈(hi + pad) / res⌉ - ⌊(lo - pad) / res⌋ : ℤ) : K) := by
    rw [← sub_mul, mul_div_cancel_right₀ _ hres.ne', Int.cast_sub]
  have hlow : ⌊(lo - pad) / res⌋ ≤ ⌊x / res⌋ :=
    Int.floor_mono (div_le_div_of_nonneg_right (by linarith) hres.le)
  have hhigh : ⌊x / res⌋ ≤ ⌈(hi + pad) / res⌉ :=
    (Int.floor_le_ceil _).trans
      (Int.ceil_mono (div_le_div_of_nonneg_right (by linarith) hres.le))
  rw [hcell, hsize, roundHalfEven_intCast]
  omega

omit [Field K] [IsStrictOrderedRing K] [FloorRing K] in
lemma exists_min {l : List K} (hl : l ≠ []) : ∃ a, l.min? = some a ∧ ∀ b ∈ l, a ≤ b := by
  obtain ⟨a, ha⟩ := Option.isSome_iff_exists.mp (List.isSome_min?_of_ne_nil hl)
  exact ⟨a, ha, (List.min?_eq_some_iff.mp ha).2⟩

omit [Field K] [IsStrictOrderedRing K] [FloorRing K] in
lemma exists_max {l : List K} (hl : l ≠ []) : ∃ a, l.max? = some a ∧ ∀ b ∈ l, b ≤ a := by
  obtain ⟨a, ha⟩ := Option.isSome_iff_exists.mp (List.isSome_max?_of_ne_nil hl)
  exact ⟨a, ha, (List.max?_eq_some_iff.mp ha).2⟩

variable {args : Args K} {xyz : List (Vector3 K)} {m : NavMap K} {g : Grid K} {p : Vector3 K}

/-- The point is in the grid. -/
def Grid.Contains (g : Grid K) (p : Vector3 K) : Prop :=
  (0 ≤ ⌊(p.x - g.xmin) / g.resolution⌋ ∧ ⌊(p.x - g.xmin) / g.resolution⌋ < g.width) ∧
    0 ≤ ⌊(p.y - g.ymin) / g.resolution⌋ ∧ ⌊(p.y - g.ymin) / g.resolution⌋ < g.height

/-- What `main` writes for a cloud that is not empty. -/
lemma main_spec (hres : 0 < args.resolution) (hpad : 0 ≤ args.padding) (hne : xyz ≠ []) :
    ∃ g : Grid K, args.main xyz = some (args.paint g xyz) ∧ g.resolution = args.resolution ∧
      ∀ p ∈ xyz, g.Contains p := by
  obtain ⟨xlo, hxlo, hxlo_le⟩ := exists_min (l := xyz.map (·.x)) (by simpa using hne)
  obtain ⟨xhi, hxhi, hxhi_le⟩ := exists_max (l := xyz.map (·.x)) (by simpa using hne)
  obtain ⟨ylo, hylo, hylo_le⟩ := exists_min (l := xyz.map (·.y)) (by simpa using hne)
  obtain ⟨yhi, hyhi, hyhi_le⟩ := exists_max (l := xyz.map (·.y)) (by simpa using hne)
  have hcontains : ∀ p ∈ xyz, (args.grid xlo xhi ylo yhi).Contains p := by
    intro p hp
    have hx := List.mem_map_of_mem (f := (·.x)) hp
    have hy := List.mem_map_of_mem (f := (·.y)) hp
    exact ⟨floor_mem_axis hres hpad (hxlo_le _ hx) (hxhi_le _ hx),
      floor_mem_axis hres hpad (hylo_le _ hy) (hyhi_le _ hy)⟩
  refine ⟨args.grid xlo xhi ylo yhi, ?_, rfl, hcontains⟩
  obtain ⟨p, hp⟩ := List.exists_mem_of_ne_nil xyz hne
  obtain ⟨⟨h₁, h₂⟩, h₃, h₄⟩ := hcontains p hp
  have hgrid : ¬(args.resolution = 0 ∨ (args.grid xlo xhi ylo yhi).width < 0 ∨
      (args.grid xlo xhi ylo yhi).height < 0) := by
    rw [not_or]
    exact ⟨hres.ne', by omega⟩
  simp only [Args.main, hxlo, hxhi, hylo, hyhi, Option.bind_eq_bind, Option.bind_some, if_neg hgrid]
  rfl

omit [IsStrictOrderedRing K] in
lemma mem_cells (hp : p ∈ xyz) (hg : g.Contains p) : g.pixelOf p ∈ g.cells xyz := by
  obtain ⟨⟨h₁, h₂⟩, h₃, h₄⟩ := hg
  simp only [Grid.cells, List.mem_filter, decide_eq_true_eq]
  refine ⟨List.mem_map_of_mem hp, ?_⟩
  simp only [Grid.pixelOf]
  omega

omit [IsStrictOrderedRing K] in
/-- The pixels around the pixel of an obstacle point are black. -/
lemma image_eq_zero (hp : p ∈ args.obstaclePoints xyz) (hg : g.Contains p)
    {row : Fin g.height.toNat} {col : Fin g.width.toNat}
    (hdisk : ((row : ℤ) - (g.pixelOf p).1, (col : ℤ) - (g.pixelOf p).2) ∈
      disk args.obstacleRadiusCells) :
    (args.paint g xyz).image row col = 0 := by
  have hcell := mem_cells hp hg
  obtain ⟨⟨h₁, h₂⟩, h₃, h₄⟩ := hg
  obtain ⟨a, ha⟩ : ∃ a : Fin g.height.toNat, (a : ℤ) = (g.pixelOf p).1 := by
    simp only [Grid.pixelOf]
    exact ⟨⟨(g.height - 1 - ⌊(p.y - g.ymin) / g.resolution⌋).toNat, by omega⟩,
      Int.toNat_of_nonneg (by omega)⟩
  obtain ⟨b, hb⟩ : ∃ b : Fin g.width.toNat, (b : ℤ) = (g.pixelOf p).2 :=
    ⟨⟨⌊(p.x - g.xmin) / g.resolution⌋.toNat, by omega⟩, Int.toNat_of_nonneg h₁⟩
  have hhit : g.hits (args.obstaclePoints xyz) a b = true := by
    simp only [Grid.hits, ha, hb, decide_eq_true_eq]
    exact hcell
  have hocc : dilate (disk args.obstacleRadiusCells) false (g.hits (args.obstaclePoints xyz))
      row col = true :=
    dilate_of_mem hhit (by rwa [ha, hb])
  simp only [Args.paint, hocc, if_true]

end Grid

/-! ### Reading the map -/

/-- The occupancy of a pixel value: black is occupied, white is free. -/
def occupancy (value : ℕ) : ℤ :=
  if value = 0 then 100 else if value = 254 then 0 else -1

/-- The map as it is read from the image: row 0 is the bottom row. -/
def NavMap.occupancyGrid {K : Type} [Field K] (m : NavMap K) : GoalNav.OccupancyGrid K where
  frameId := "map"
  resolution := m.grid.resolution
  width := m.grid.width.toNat
  height := m.grid.height.toNat
  originPosition := ⟨m.grid.xmin, m.grid.ymin, 0⟩
  originOrientation := ⟨0, 0, 0, 1⟩
  data := List.ofFn fun i : Fin (m.grid.height.toNat * m.grid.width.toNat) =>
    occupancy (m.image i.divNat.rev i.modNat)

lemma data_getElem? {K : Type} [Field K] {m : NavMap K} {row col : ℕ}
    (hrow : row < m.grid.height.toNat) (hcol : col < m.grid.width.toNat) :
    m.occupancyGrid.data[row * m.grid.width.toNat + col]? =
      some (occupancy (m.image (Fin.rev ⟨row, hrow⟩) ⟨col, hcol⟩)) := by
  have hindex : row * m.grid.width.toNat + col < m.grid.height.toNat * m.grid.width.toNat := by
    calc row * m.grid.width.toNat + col < (row + 1) * m.grid.width.toNat := by
          rw [Nat.succ_mul]
          omega
      _ ≤ m.grid.height.toNat * m.grid.width.toNat := Nat.mul_le_mul_right _ hrow
  rw [NavMap.occupancyGrid, List.getElem?_ofFn, dif_pos hindex]
  congr 3
  · rw [Fin.rev_inj]
    ext
    change (row * m.grid.width.toNat + col) / m.grid.width.toNat = row
    rw [mul_comm, Nat.mul_add_div (Nat.zero_lt_of_lt hcol), Nat.div_eq_of_lt hcol, add_zero]
  · ext
    exact Nat.mul_add_mod_of_lt hcol

/-- `_world_to_map_cell` of the goal node on a map, with real numbers. -/
noncomputable def NavMap.worldToMapCell (m : NavMap ℝ) (x y : ℝ) :
    Except PyError (Option (ℤ × ℤ × ℤ)) :=
  @GoalNav.worldToMapCell ℝ PyFloat.real m.occupancyGrid x y

/-- The origin has no rotation, so the goal node divides the same differences. -/
lemma worldToMapCell_eq {m : NavMap ℝ} (hres : m.grid.resolution ≠ 0) (x y : ℝ) :
    m.worldToMapCell x y =
      let col := ⌊(x - m.grid.xmin) / m.grid.resolution⌋
      let row := ⌊(y - m.grid.ymin) / m.grid.resolution⌋
      if col < 0 ∨ row < 0 ∨ col ≥ m.grid.width.toNat ∨ row ≥ m.grid.height.toNat then .ok none
      else .ok (some (col, row, row * m.grid.width.toNat + col)) := by
  have hyaw : @GoalNav.yawFromQuaternion ℝ PyFloat.real m.occupancyGrid.originOrientation = 0 := by
    have hone : (⟨(1 : ℚ) - (2 : ℚ) * (0 * 0 + 0 * 0), (2 : ℚ) * (1 * 0 + 0 * 0)⟩ : ℂ) = 1 := by
      apply Complex.ext <;> simp
    exact (congrArg Complex.arg hone).trans Complex.arg_one
  have hcos : PyFloat.real.cos (-0) = .ok 1 := by
    change Except.ok (Real.cos (-0)) = _
    rw [neg_zero, Real.cos_zero]
  have hsin : PyFloat.real.sin (-0) = .ok 0 := by
    change Except.ok (Real.sin (-0)) = _
    rw [neg_zero, Real.sin_zero]
  have hdiv (a : ℝ) : PyFloat.real.div a m.occupancyGrid.resolution =
      .ok (a / m.grid.resolution) :=
    if_neg hres
  have hfloor (a : ℝ) : PyFloat.real.floor a = .ok ⌊a⌋ := rfl
  simp only [NavMap.worldToMapCell, GoalNav.worldToMapCell, hyaw, hcos, hsin, hdiv, hfloor, bind,
    Except.bind, one_mul, zero_mul, sub_zero, zero_add]
  rfl

/-! ### Agreement -/

/-- The cell of the map that the goal node finds for an obstacle point. -/
def NavMap.IsCell (m : NavMap ℝ) (p : Vector3 ℝ) (col row : ℕ) : Prop :=
  m.worldToMapCell p.x p.y = .ok (some (col, row, row * m.occupancyGrid.width + col))

lemma isCell_iff {m : NavMap ℝ} (hres : m.grid.resolution ≠ 0) {p : Vector3 ℝ} {col row : ℕ} :
    m.IsCell p col row ↔ (col < m.grid.width.toNat ∧ row < m.grid.height.toNat) ∧
      (col : ℤ) = ⌊(p.x - m.grid.xmin) / m.grid.resolution⌋ ∧
      (row : ℤ) = ⌊(p.y - m.grid.ymin) / m.grid.resolution⌋ := by
  simp only [NavMap.IsCell, worldToMapCell_eq hres]
  split
  · rename_i hout
    simp only [Except.ok.injEq, reduceCtorEq, false_iff]
    omega
  · rename_i hin
    simp only [Except.ok.injEq, Option.some.injEq, Prod.mk.injEq]
    constructor
    · rintro ⟨h₁, h₂, -⟩
      omega
    · rintro ⟨-, h₁, h₂⟩
      rw [← h₁, ← h₂]
      exact ⟨rfl, rfl, rfl⟩

/-- The offset between two cells lies in the seal disc. -/
def Args.Seals (args : Args ℝ) (col row col' row' : ℕ) : Prop :=
  ((row' : ℤ) - row, (col' : ℤ) - col) ∈ disk args.obstacleRadiusCells

/-- The goal node finds every obstacle point in the map; the cells around it are occupied and
none of their pixels is white; every index that it computes is an index of the data. -/
structure Agrees (args : Args ℝ) (xyz : List (Vector3 ℝ)) (m : NavMap ℝ) : Prop where
  inside : ∀ p ∈ args.obstaclePoints xyz, ∃ col row, col < m.occupancyGrid.width ∧
    row < m.occupancyGrid.height ∧ m.IsCell p col row
  occupied : ∀ p ∈ args.obstaclePoints xyz, ∀ col row, m.IsCell p col row →
    ∀ col' row', col' < m.occupancyGrid.width → row' < m.occupancyGrid.height →
      args.Seals col row col' row' →
        m.occupancyGrid.data[row' * m.occupancyGrid.width + col']? = some 100
  free : ∀ p ∈ args.obstaclePoints xyz, ∀ col row, m.IsCell p col row →
    ∀ i j, m.image i j = 254 → ¬args.Seals col row j i.rev
  index : ∀ x y col row index, m.worldToMapCell x y = .ok (some (col, row, index)) →
    0 ≤ index ∧ index < m.occupancyGrid.data.length

/-- An index that is computed from a cell of the map is an index of its data. -/
lemma index_lt {m : NavMap ℝ} {c r col row index : ℤ}
    (h : (if c < 0 ∨ r < 0 ∨ c ≥ m.grid.width.toNat ∨ r ≥ m.grid.height.toNat then .ok none
      else .ok (some (c, r, r * m.grid.width.toNat + c)) : Except PyError (Option (ℤ × ℤ × ℤ))) =
        .ok (some (col, row, index))) :
    0 ≤ index ∧ index < m.occupancyGrid.data.length := by
  have hlength : m.occupancyGrid.data.length = m.grid.height.toNat * m.grid.width.toNat :=
    List.length_ofFn
  split at h
  · simp at h
  rename_i hin
  simp only [not_or, not_lt, ge_iff_le, not_le] at hin
  obtain ⟨hc, hr, hcw, hrh⟩ := hin
  simp only [Except.ok.injEq, Option.some.injEq, Prod.mk.injEq] at h
  obtain ⟨-, -, rfl⟩ := h
  rw [hlength, Nat.cast_mul]
  constructor
  · positivity
  · nlinarith

/-- The pixel of a cell in the seal disc of the cell of an obstacle point is black. -/
lemma image_eq_zero_of_seals {args : Args ℝ} {xyz : List (Vector3 ℝ)} {g : Grid ℝ}
    (hres : g.resolution ≠ 0) {p : Vector3 ℝ} (hp : p ∈ args.obstaclePoints xyz)
    (hg : g.Contains p) {col row : ℕ} (hcell : (args.paint g xyz).IsCell p col row)
    {i : Fin g.height.toNat} {j : Fin g.width.toNat} (hseals : args.Seals col row j i.rev) :
    (args.paint g xyz).image i j = 0 := by
  obtain ⟨-, hcol, hrow⟩ := (isCell_iff hres).mp hcell
  apply image_eq_zero hp hg
  have hflip : (i : ℤ) - (g.height - 1 - row) = row - i.rev := by
    have hi := i.isLt
    rw [Fin.val_rev]
    omega
  change ((i : ℤ) - (g.height - 1 - ⌊(p.y - g.ymin) / g.resolution⌋),
    (j : ℤ) - ⌊(p.x - g.xmin) / g.resolution⌋) ∈ disk args.obstacleRadiusCells
  rw [Args.Seals, mem_disk] at hseals
  rw [show ⌊(p.y - g.ymin) / g.resolution⌋ = row from hrow.symm,
    show ⌊(p.x - g.xmin) / g.resolution⌋ = col from hcol.symm, hflip, mem_disk]
  linarith

theorem main_agrees {args : Args ℝ} {xyz : List (Vector3 ℝ)} (hres : 0 < args.resolution)
    (hpad : 0 ≤ args.padding) :
    (xyz = [] ∧ args.main xyz = none) ∨ ∃ m, args.main xyz = some m ∧ Agrees args xyz m := by
  by_cases hne : xyz = []
  · exact Or.inl ⟨hne, by rw [hne]; rfl⟩
  obtain ⟨g, hmain, hgrid, hcontains⟩ := main_spec hres hpad hne
  have hg : (args.paint g xyz).grid.resolution ≠ 0 := by
    change g.resolution ≠ 0
    rw [hgrid]
    exact hres.ne'
  have hobstacle : ∀ p ∈ args.obstaclePoints xyz, g.Contains p :=
    fun p hp => hcontains p (List.mem_of_mem_filter hp)
  refine Or.inr ⟨_, hmain, ?_⟩
  exact {
    inside := by
      intro p hp
      obtain ⟨⟨h₁, h₂⟩, h₃, h₄⟩ := hobstacle p hp
      refine ⟨⌊(p.x - g.xmin) / g.resolution⌋.toNat, ⌊(p.y - g.ymin) / g.resolution⌋.toNat,
        ?_, ?_, (isCell_iff hg).mpr ⟨⟨?_, ?_⟩, Int.toNat_of_nonneg h₁, Int.toNat_of_nonneg h₃⟩⟩
      all_goals
        simp only [NavMap.occupancyGrid, Args.paint]
        omega
    occupied := by
      intro p hp col row hcell col' row' hcol' hrow' hseals
      have hblack : (args.paint g xyz).image (Fin.rev ⟨row', hrow'⟩) ⟨col', hcol'⟩ = 0 :=
        image_eq_zero_of_seals hg hp (hobstacle p hp) hcell (by rwa [Fin.rev_rev])
      exact (data_getElem? hrow' hcol').trans (by rw [hblack]; rfl)
    free := by
      intro p hp col row hcell i j hwhite hseals
      have hblack : (args.paint g xyz).image i j = 0 :=
        image_eq_zero_of_seals hg hp (hobstacle p hp) hcell hseals
      rw [hblack] at hwhite
      simp at hwhite
    index := by
      intro x y col row index hcell
      rw [worldToMapCell_eq hg] at hcell
      exact index_lt hcell }

/-- A point of an obstacle and a point of the floor, with the default arguments. -/
theorem main_agrees_two_points :
    let args : Args ℝ := ⟨0.05, 0.5, -0.05, 0.08, 0.12, 1.7, 0.15, 0.1⟩
    ∃ m, args.main [⟨1, 2, 1⟩, ⟨-1, 0, 0⟩] = some m ∧ Agrees args [⟨1, 2, 1⟩, ⟨-1, 0, 0⟩] m :=
  (main_agrees (by norm_num) (by norm_num)).resolve_left (by simp)

end MapMaker
