import RobotOs.Lib.Checked
import RobotOs.Lib.Forest

/-!
# The 3D path planner

`path3d.rs` of the flight crate: a random tree from the start that is rewired
through each new node (RRT*), over a grid of occupied voxels.  The array of nodes
with its counter is the list of the nodes in use, and a bit of the grid is a
value of a predicate on the flat index.  Integers have no bound here.  From a start
and a goal in the volume the nodes stay in it (`InRange`), and no product or sum
leaves its type (`InRange.fits`).

Rewiring lowers the cost of a node and not those of its descendants.  `Grown` is
the inequality that survives: no node is cheaper than its parent plus the
distance.  So the ancestors of a new node are no dearer than it is and are not
rewired (`depth_kept`), and every other way to the root ends there or at the new
node.  `path3dPlan_path` is about the result.
-/

namespace RobotOs.Flight.Path3d

open RobotOs.Lib.Checked RobotOs.Lib.Forest

def PATH3D_MAX_NODES : Nat := 512
def PATH3D_MAX_PATH : Nat := 64
def PATH3D_GRID_SIZE : Int := 32
def PATH3D_VOLUME_MM : Int := 100000
def PATH3D_VOXEL_MM : Int := 3125
def PATH3D_STEP_MM : Int := 3000
def PATH3D_NEAR_MM : Int := 8000
def PATH3D_MAX_ITERS : Nat := 2000
def PATH3D_GOAL_TOL : Int := 2000

structure Point3D where
  x : Int
  y : Int
  z : Int
  deriving DecidableEq

/-- The loop of `isqrt64`. -/
def isqrtLoop (n x : Nat) : Nat :=
  if (x + n / x) / 2 < x then isqrtLoop n ((x + n / x) / 2) else x
termination_by x

/-- `isqrt64`.  The first guess of the source, `(n + 1) / 2`, is the one of the loop. -/
def isqrt64 (n : Int) : Nat := if n ≤ 0 then 0 else isqrtLoop n.toNat n.toNat

namespace Point3D

def distSq (a b : Point3D) : Int :=
  (a.x - b.x) * (a.x - b.x) + (a.y - b.y) * (a.y - b.y) + (a.z - b.z) * (a.z - b.z)

def dist (a b : Point3D) : Int := isqrt64 (a.distSq b)

/-- The point `i / steps` of the way from `a` to `b`. -/
def towards (a b : Point3D) (i steps : Int) : Point3D :=
  ⟨a.x + ((b.x - a.x) * i).tdiv steps, a.y + ((b.y - a.y) * i).tdiv steps,
    a.z + ((b.z - a.z) * i).tdiv steps⟩

theorem dist_nonneg (a b : Point3D) : 0 ≤ a.dist b := Int.natCast_nonneg _

theorem dist_comm (a b : Point3D) : a.dist b = b.dist a := by
  have hsq : a.distSq b = b.distSq a := by
    unfold distSq
    ring
  rw [dist, dist, hsq]

end Point3D

structure RrtNode where
  pos : Point3D
  parent : Option Nat
  cost : Int

/-! ## The grid -/

/-- The occupied voxels, by flat index. -/
abbrev Grid := Int → Bool

def worldToVoxel (v : Int) : Int :=
  max 0 (min ((v + PATH3D_VOLUME_MM / 2).tdiv PATH3D_VOXEL_MM) (PATH3D_GRID_SIZE - 1))

def voxelIndex (x y z : Int) : Int :=
  x * PATH3D_GRID_SIZE * PATH3D_GRID_SIZE + y * PATH3D_GRID_SIZE + z

def isOccupied (grid : Grid) (pt : Point3D) : Bool :=
  grid (voxelIndex (worldToVoxel pt.x) (worldToVoxel pt.y) (worldToVoxel pt.z))

def steer (a b : Point3D) (step : Int) : Point3D :=
  let d := a.dist b
  if d = 0 ∨ d ≤ step then b else a.towards b step d

def isFree (grid : Grid) (a b : Point3D) : Bool :=
  let d := a.dist b
  if d = 0 then true
  else
    let steps := max (d / (PATH3D_VOXEL_MM / 2)) 1
    (List.range (steps.toNat + 1)).all fun i => !isOccupied grid (a.towards b i steps)

/-- `path3d_mark_obstacle`. -/
def path3dMarkObstacle (grid : Grid) (x y z : Int) : Grid :=
  Function.update grid (voxelIndex (worldToVoxel x) (worldToVoxel y) (worldToVoxel z)) true

/-! ## Sampling -/

/-- `rng_next`; the new seed is the number drawn. -/
def rngNext (seed : UInt32) : UInt32 :=
  let x := seed ^^^ (seed <<< 13)
  let x := x ^^^ (x >>> 17)
  x ^^^ (x <<< 5)

/-- A coordinate from a random number, through the cast to `i32`. -/
def coordinate (rand : UInt32) : Int :=
  ((rand.toNat : Int).bmod (2 ^ 32)).tmod PATH3D_VOLUME_MM - PATH3D_VOLUME_MM / 2

/-- The random point, which is the goal for one number in ten, and the seed. -/
def sample (goal : Point3D) (seed : UInt32) : Point3D × UInt32 :=
  let rand := rngNext seed
  if rand.toNat % 10 = 0 then (goal, rand)
  else
    let second := rngNext rand
    let third := rngNext second
    (⟨coordinate rand, coordinate second, coordinate third⟩, third)

/-! ## Growing the tree -/

/-- The nodes, and the node at the goal. -/
structure Tree where
  nodes : List RrtNode
  goalNode : Option Nat

/-- The tree with the start alone. -/
def Tree.plant (start : Point3D) : Tree := ⟨[⟨start, none, 0⟩], none⟩

/-- A node; the slots that are not in use hold `RRTNODE_EMPTY`. -/
def nodeAt (nodes : List RrtNode) (i : Nat) : RrtNode := nodes.getD i ⟨⟨0, 0, 0⟩, none, 0⟩

/-- The first nearest node and its squared distance. -/
def nearest (nodes : List RrtNode) (q : Point3D) : Nat × Int :=
  nodes.zipIdx.foldl
    (fun best node =>
      if node.1.pos.distSq q < best.2 then (node.2, node.1.pos.distSq q) else best)
    (0, 2 ^ 63 - 1)

/-- The cheapest parent of a node at `q` within reach, from `first` on: its index and the cost
of the new node. -/
def chooseParent (grid : Grid) (nodes : List RrtNode) (q : Point3D) (first : Nat × Int) :
    Nat × Int :=
  nodes.zipIdx.foldl
    (fun best node =>
      if node.1.pos.dist q > PATH3D_NEAR_MM then best
      else if isFree grid node.1.pos q = false then best
      else if node.1.cost + node.1.pos.dist q < best.2 then
        (node.2, node.1.cost + node.1.pos.dist q)
      else best)
    first

/-- The body of the rewiring loop.  It only reads and writes its own node. -/
def rewire (grid : Grid) (q : Point3D) (newIdx : Nat) (bestCost : Int) (node : RrtNode) : RrtNode :=
  let c := bestCost + node.pos.dist q
  if c < node.cost ∧ isFree grid q node.pos then { node with parent := some newIdx, cost := c }
  else node

/-- The new node is added, and the others are rewired through it. -/
def grow (grid : Grid) (q : Point3D) (parent : Nat) (cost : Int) (nodes : List RrtNode) :
    List RrtNode :=
  nodes.map (rewire grid q nodes.length cost) ++ [⟨q, some parent, cost⟩]

/-- The check whether the new node is the best one at the goal. -/
def improves (goal q : Point3D) (cost : Int) (nodes : List RrtNode) (goalNode : Option Nat) :
    Bool :=
  decide (q.dist goal ≤ PATH3D_GOAL_TOL) &&
    match goalNode with
    | none => true
    | some g => decide (cost < (nodeAt nodes g).cost)

/-- One iteration of `path3d_plan`, for a random point. -/
def extend (grid : Grid) (goal : Point3D) (t : Tree) (qRand : Point3D) : Tree :=
  let nearIdx := (nearest t.nodes qRand).1
  let near := nodeAt t.nodes nearIdx
  let q := steer near.pos qRand PATH3D_STEP_MM
  if isFree grid near.pos q = false then t
  else
    let best := chooseParent grid t.nodes q (nearIdx, near.cost + near.pos.dist q)
    let nodes := grow grid q best.1 best.2 t.nodes
    ⟨nodes, if improves goal q best.2 nodes t.goalNode then some t.nodes.length else t.goalNode⟩

/-- The loop of `path3d_plan`. -/
def planLoop (grid : Grid) (goal : Point3D) : Nat → UInt32 × Tree → UInt32 × Tree
  | 0, s => s
  | n + 1, (seed, t) =>
    if t.nodes.length ≥ PATH3D_MAX_NODES then (seed, t)
    else planLoop grid goal n ((sample goal seed).2, extend grid goal t (sample goal seed).1)

/-- The link of a node to its parent. -/
def parentOf (nodes : List RrtNode) (i : Nat) : Option Nat := (nodeAt nodes i).parent

/-- `path3d_plan` with an output buffer for `outLen` points: the nodes of the path and the
new seed. -/
def path3dPlan (grid : Grid) (seed : UInt32) (start goal : Point3D) (outLen : Nat) :
    List Point3D × UInt32 :=
  let (seed, t) := planLoop grid goal PATH3D_MAX_ITERS (seed, .plant start)
  match t.goalNode with
  | none => ([], seed)
  | some g =>
    let path := (trace (parentOf t.nodes) PATH3D_MAX_PATH g).reverse
    ((path.take outLen).map fun i => (nodeAt t.nodes i).pos, seed)

/-! ## The invariant -/

variable {start goal : Point3D} {nodes : List RrtNode} {grid : Grid} {t : Tree}

/-- The node has a parent, is no cheaper than the parent plus the distance, and the way from
the parent was found free. -/
def Linked (grid : Grid) (nodes : List RrtNode) (node : RrtNode) : Prop :=
  ∃ p < nodes.length, node.parent = some p ∧
    (nodeAt nodes p).cost + (nodeAt nodes p).pos.dist node.pos ≤ node.cost ∧
    isFree grid (nodeAt nodes p).pos node.pos = true

/-- What every iteration keeps. -/
structure Grown (grid : Grid) (start : Point3D) (nodes : List RrtNode) : Prop where
  nonempty : 0 < nodes.length
  root : nodeAt nodes 0 = ⟨start, none, 0⟩
  nonneg : ∀ i < nodes.length, 0 ≤ (nodeAt nodes i).cost
  linked : ∀ i < nodes.length, i ≠ 0 → Linked grid nodes (nodeAt nodes i)
  rooted : ∀ i < nodes.length, ∃ d, Depth (parentOf nodes) i d

theorem grown_plant (grid : Grid) (start : Point3D) :
    Grown grid start (Tree.plant start).nodes := by
  have hroot : ∀ i < (Tree.plant start).nodes.length, i = 0 := fun i hi => Nat.lt_one_iff.mp hi
  refine ⟨Nat.one_pos, rfl, fun i hi => ?_, fun i hi => ?_, fun i hi => ?_⟩
  · rw [hroot i hi]
    exact le_refl 0
  · exact fun hne => absurd (hroot i hi) hne
  · rw [hroot i hi]
    exact ⟨0, .root rfl⟩

/-! ## The choices -/

theorem of_mem_zipIdx {node : RrtNode × Nat} (h : node ∈ nodes.zipIdx) :
    node.2 < nodes.length ∧ nodeAt nodes node.2 = node.1 := by
  obtain ⟨hlt, heq⟩ := List.mem_zipIdx' h
  exact ⟨hlt, by simp [nodeAt, hlt, heq]⟩

theorem nearest_lt (hne : 0 < nodes.length) (q : Point3D) :
    (nearest nodes q).1 < nodes.length := by
  unfold nearest
  refine List.foldlRecOn nodes.zipIdx _ (motive := fun best : Nat × Int => best.1 < nodes.length)
    hne fun best hbest node hnode => ?_
  split_ifs
  · exact (of_mem_zipIdx hnode).1
  · exact hbest

/-- A parent for a node at `q` of the given cost. -/
structure Serves (grid : Grid) (nodes : List RrtNode) (q : Point3D) (parent : Nat) (cost : Int) :
    Prop where
  lt : parent < nodes.length
  free : isFree grid (nodeAt nodes parent).pos q = true
  cost : cost = (nodeAt nodes parent).cost + (nodeAt nodes parent).pos.dist q

theorem chooseParent_spec {q : Point3D} {first : Nat × Int}
    (hfirst : Serves grid nodes q first.1 first.2) :
    Serves grid nodes q (chooseParent grid nodes q first).1
      (chooseParent grid nodes q first).2 := by
  unfold chooseParent
  refine List.foldlRecOn nodes.zipIdx _
    (motive := fun best : Nat × Int => Serves grid nodes q best.1 best.2) hfirst
    fun best hbest node hnode => ?_
  split_ifs with hfar hblocked
  · exact hbest
  · exact hbest
  · obtain ⟨hlt, heq⟩ := of_mem_zipIdx hnode
    exact ⟨hlt, by rw [heq]; exact Bool.eq_true_of_not_eq_false hblocked, by rw [heq]⟩
  · exact hbest

/-- What an iteration does to the nodes. -/
theorem extend_cases (grid : Grid) (goal : Point3D) (hne : 0 < t.nodes.length) (qRand : Point3D) :
    extend grid goal t qRand = t ∨
      ∃ near < t.nodes.length, ∃ q parent cost,
        q = steer (nodeAt t.nodes near).pos qRand PATH3D_STEP_MM ∧
        Serves grid t.nodes q parent cost ∧
        (extend grid goal t qRand).nodes = grow grid q parent cost t.nodes := by
  unfold extend
  by_cases hfree : isFree grid (nodeAt t.nodes (nearest t.nodes qRand).1).pos
      (steer (nodeAt t.nodes (nearest t.nodes qRand).1).pos qRand PATH3D_STEP_MM) = false
  · exact .inl (if_pos hfree)
  · rw [if_neg hfree]
    have hnear := nearest_lt hne qRand
    refine .inr ⟨_, hnear, _, _, _, rfl, chooseParent_spec ?_, rfl⟩
    exact ⟨hnear, Bool.eq_true_of_not_eq_false hfree, rfl⟩

/-! ## Rewiring -/

section

variable {q : Point3D} {parent : Nat} {cost : Int}

/-- A node is left alone, or it is a dearer one that hangs below the new node then. -/
theorem rewire_cases (grid : Grid) (q : Point3D) (newIdx : Nat) (cost : Int) (node : RrtNode) :
    rewire grid q newIdx cost node = node ∨
      cost + node.pos.dist q < node.cost ∧ isFree grid q node.pos = true ∧
        rewire grid q newIdx cost node = ⟨node.pos, some newIdx, cost + node.pos.dist q⟩ := by
  unfold rewire
  dsimp only
  split_ifs with h
  · exact .inr ⟨h.1, h.2, rfl⟩
  · exact .inl rfl

theorem rewire_le (grid : Grid) (q : Point3D) (newIdx : Nat) (cost : Int) (node : RrtNode) :
    (rewire grid q newIdx cost node).pos = node.pos ∧
      (rewire grid q newIdx cost node).cost ≤ node.cost := by
  obtain h | ⟨hlt, -, h⟩ := rewire_cases grid q newIdx cost node
  · rw [h]
    exact ⟨rfl, le_refl _⟩
  · rw [h]
    exact ⟨rfl, hlt.le⟩

/-- A node that is no dearer than the new one is not rewired. -/
theorem rewire_of_cost_le {newIdx : Nat} {node : RrtNode} (h : node.cost ≤ cost) :
    rewire grid q newIdx cost node = node := by
  obtain hsame | ⟨hlt, -⟩ := rewire_cases grid q newIdx cost node
  · exact hsame
  · have hdist := node.pos.dist_nonneg q
    omega

theorem length_grow : (grow grid q parent cost nodes).length = nodes.length + 1 := by
  simp [grow]

theorem grow_old {i : Nat} (hi : i < nodes.length) :
    nodeAt (grow grid q parent cost nodes) i =
      rewire grid q nodes.length cost (nodeAt nodes i) := by
  simp [nodeAt, grow, List.getElem?_append_left, hi]

theorem grow_new :
    nodeAt (grow grid q parent cost nodes) nodes.length = ⟨q, some parent, cost⟩ := by
  simp [nodeAt, grow]

/-- A link to an old parent survives: the parent stays where it is and gets no dearer. -/
theorem linked_grow {node : RrtNode} (h : Linked grid nodes node) :
    Linked grid (grow grid q parent cost nodes) node := by
  obtain ⟨p, hp, hparent, hcost, hfree⟩ := h
  obtain ⟨hpos, hle⟩ := rewire_le grid q nodes.length cost (nodeAt nodes p)
  refine ⟨p, by rw [length_grow]; omega, hparent, ?_, ?_⟩
  · rw [grow_old hp, hpos]
    omega
  · rw [grow_old hp, hpos]
    exact hfree

/-- The cost of a parent. -/
theorem Grown.parent_le (hg : Grown grid start nodes) {i p : Nat} (hi : i < nodes.length)
    (hp : parentOf nodes i = some p) :
    p < nodes.length ∧ (nodeAt nodes p).cost ≤ (nodeAt nodes i).cost := by
  have hne : i ≠ 0 := by
    rintro rfl
    rw [parentOf, hg.root] at hp
    cases hp
  obtain ⟨p', hlt, hparent, hcost, -⟩ := hg.linked i hi hne
  rw [parentOf, hparent, Option.some_inj] at hp
  have hdist := (nodeAt nodes p').pos.dist_nonneg (nodeAt nodes i).pos
  rw [← hp]
  exact ⟨hlt, by omega⟩

/-- The way to the root from a node that is no dearer than the new one stays as it is. -/
theorem Grown.depth_kept (hg : Grown grid start nodes) {i d : Nat}
    (hdepth : Depth (parentOf nodes) i d) (hi : i < nodes.length)
    (hcost : (nodeAt nodes i).cost ≤ cost) :
    Depth (parentOf (grow grid q parent cost nodes)) i d := by
  induction hdepth with
  | @root i hroot =>
    refine .root ?_
    rw [parentOf, grow_old hi, rewire_of_cost_le hcost]
    exact hroot
  | @link i p d hlink _ ih =>
    obtain ⟨hp, hle⟩ := hg.parent_le hi hlink
    refine .link ?_ (ih hp (hle.trans hcost))
    rw [parentOf, grow_old hi, rewire_of_cost_le hcost]
    exact hlink

/-- Every node still reaches the root, perhaps by the new node. -/
theorem Grown.rooted_grow (hg : Grown grid start nodes)
    (hserves : Serves grid nodes q parent cost) :
    ∀ i < (grow grid q parent cost nodes).length,
      ∃ d, Depth (parentOf (grow grid q parent cost nodes)) i d := by
  obtain ⟨d, hparent⟩ := hg.rooted parent hserves.lt
  have hcost : (nodeAt nodes parent).cost ≤ cost := by
    have hdist := (nodeAt nodes parent).pos.dist_nonneg q
    rw [hserves.cost]
    omega
  have hnew : Depth (parentOf (grow grid q parent cost nodes)) nodes.length (d + 1) :=
    .link (congrArg RrtNode.parent grow_new) (hg.depth_kept hparent hserves.lt hcost)
  have hold : ∀ {i e : Nat}, Depth (parentOf nodes) i e → i < nodes.length →
      ∃ d, Depth (parentOf (grow grid q parent cost nodes)) i d := by
    intro i e hdepth
    induction hdepth with
    | @root i hroot =>
      intro hi
      obtain hsame | ⟨-, -, hrewired⟩ := rewire_cases grid q nodes.length cost (nodeAt nodes i)
      · exact ⟨0, .root (by rw [parentOf, grow_old hi, hsame]; exact hroot)⟩
      · exact ⟨_, .link (by rw [parentOf, grow_old hi, hrewired]) hnew⟩
    | @link i p e hlink _ ih =>
      intro hi
      obtain hsame | ⟨-, -, hrewired⟩ := rewire_cases grid q nodes.length cost (nodeAt nodes i)
      · obtain ⟨d', hp⟩ := ih (hg.parent_le hi hlink).1
        exact ⟨_, .link (by rw [parentOf, grow_old hi, hsame]; exact hlink) hp⟩
      · exact ⟨_, .link (by rw [parentOf, grow_old hi, hrewired]) hnew⟩
  intro i hi
  rw [length_grow] at hi
  obtain hlt | rfl := Nat.lt_succ_iff_lt_or_eq.mp hi
  · obtain ⟨e, hdepth⟩ := hg.rooted i hlt
    exact hold hdepth hlt
  · exact ⟨_, hnew⟩

theorem Grown.grow (hg : Grown grid start nodes) (hserves : Serves grid nodes q parent cost) :
    Grown grid start (grow grid q parent cost nodes) := by
  have hcost : cost = (nodeAt nodes parent).cost + (nodeAt nodes parent).pos.dist q := hserves.cost
  have hdist := (nodeAt nodes parent).pos.dist_nonneg q
  have hparent := hg.nonneg parent hserves.lt
  have hlink : Linked grid nodes ⟨q, some parent, cost⟩ :=
    ⟨parent, hserves.lt, rfl, hcost.ge, hserves.free⟩
  refine ⟨by rw [length_grow]; omega, ?_, fun i hi => ?_, fun i hi hne => ?_,
    hg.rooted_grow hserves⟩
  · rw [grow_old hg.nonempty, rewire_of_cost_le, hg.root]
    rw [hg.root]
    show (0 : Int) ≤ cost
    omega
  · rw [length_grow] at hi
    obtain hlt | rfl := Nat.lt_succ_iff_lt_or_eq.mp hi
    · rw [grow_old hlt]
      obtain hsame | ⟨-, -, hrewired⟩ := rewire_cases grid q nodes.length cost (nodeAt nodes i)
      · rw [hsame]
        exact hg.nonneg i hlt
      · rw [hrewired]
        have := (nodeAt nodes i).pos.dist_nonneg q
        show 0 ≤ cost + (nodeAt nodes i).pos.dist q
        omega
    · rw [grow_new]
      show 0 ≤ cost
      omega
  · rw [length_grow] at hi
    obtain hlt | rfl := Nat.lt_succ_iff_lt_or_eq.mp hi
    · rw [grow_old hlt]
      obtain hsame | ⟨-, hfree, hrewired⟩ := rewire_cases grid q nodes.length cost (nodeAt nodes i)
      · rw [hsame]
        exact linked_grow (hg.linked i hlt hne)
      · rw [hrewired]
        refine ⟨nodes.length, by rw [length_grow]; omega, rfl, ?_, ?_⟩
        · rw [grow_new, Point3D.dist_comm]
        · rw [grow_new]
          exact hfree
    · rw [grow_new]
      exact linked_grow hlink

end

theorem grown_extend (hg : Grown grid start t.nodes) (qRand : Point3D) :
    Grown grid start (extend grid goal t qRand).nodes := by
  obtain hsame | ⟨-, -, q, parent, cost, -, hserves, hnodes⟩ :=
    extend_cases grid goal hg.nonempty qRand
  · rw [hsame]
    exact hg
  · rw [hnodes]
    exact hg.grow hserves

/-- The iterations of `path3d_plan` extend the tree by one random point after the other. -/
theorem planLoop_eq (grid : Grid) (goal : Point3D) (n : Nat) (seed : UInt32) (t : Tree) :
    ∃ samples : List Point3D,
      (planLoop grid goal n (seed, t)).2 = samples.foldl (extend grid goal) t := by
  induction n generalizing seed t with
  | zero => exact ⟨[], rfl⟩
  | succ n ih =>
    rw [planLoop]
    split_ifs
    · exact ⟨[], rfl⟩
    · obtain ⟨samples, hsamples⟩ :=
        ih (sample goal seed).2 (extend grid goal t (sample goal seed).1)
      exact ⟨_ :: samples, hsamples⟩

theorem grown_run (grid : Grid) (start goal : Point3D) (samples : List Point3D) :
    Grown grid start (samples.foldl (extend grid goal) (.plant start)).nodes := by
  refine List.foldlRecOn samples _ (motive := fun t : Tree => Grown grid start t.nodes)
    (grown_plant grid start) fun t ht q _ => ?_
  exact grown_extend ht q

/-- The parents make a tree with the start as its root, and no way up comes by a node twice. -/
def IsTree (grid : Grid) (start : Point3D) (nodes : List RrtNode) : Prop :=
  Grown grid start nodes ∧ ∀ i < nodes.length, ∀ n, (trace (parentOf nodes) n i).Nodup

/-- After any iterations, the nodes are a tree: for the random numbers of `path3d_plan` from
any seed, and for any random points at all. -/
theorem rrt_star_tree (grid : Grid) (start goal : Point3D) :
    (∀ n seed, IsTree grid start (planLoop grid goal n (seed, .plant start)).2.nodes) ∧
      ∀ samples : List Point3D,
        IsTree grid start (samples.foldl (extend grid goal) (.plant start)).nodes := by
  have htree : ∀ samples : List Point3D,
      IsTree grid start (samples.foldl (extend grid goal) (.plant start)).nodes := by
    intro samples
    have hg := grown_run grid start goal samples
    refine ⟨hg, fun i hi n => ?_⟩
    obtain ⟨d, hdepth⟩ := hg.rooted i hi
    exact nodup_trace hdepth n
  refine ⟨fun n seed => ?_, htree⟩
  obtain ⟨samples, hsamples⟩ := planLoop_eq grid goal n seed (.plant start)
  rw [hsamples]
  exact htree samples

/-! ## The range -/

/-- No coordinate of a sample is further from the middle. -/
def PATH3D_REACH_MM : Int := 3 * PATH3D_VOLUME_MM / 2

structure Point3D.InVolume (p : Point3D) : Prop where
  x : Within PATH3D_REACH_MM p.x
  y : Within PATH3D_REACH_MM p.y
  z : Within PATH3D_REACH_MM p.z

theorem within_coordinate (rand : UInt32) : Within PATH3D_REACH_MM (coordinate rand) := by
  have hpos : 0 < PATH3D_VOLUME_MM := by decide
  have hlt := Int.tmod_lt_of_pos ((rand.toNat : Int).bmod (2 ^ 32)) hpos
  have hgt := Int.lt_tmod_of_pos ((rand.toNat : Int).bmod (2 ^ 32)) hpos
  unfold Within coordinate PATH3D_REACH_MM
  omega

theorem inVolume_sample (hgoal : goal.InVolume) (seed : UInt32) :
    (sample goal seed).1.InVolume := by
  simp only [sample]
  split_ifs
  · exact hgoal
  · exact ⟨within_coordinate _, within_coordinate _, within_coordinate _⟩

theorem tdiv_mem_range {m i n : Int} (hm : 0 ≤ m) (hi : 0 ≤ i) (hin : i ≤ n) (hn : 0 < n) :
    0 ≤ (m * i).tdiv n ∧ (m * i).tdiv n ≤ m := by
  have hnonneg : 0 ≤ m * i := mul_nonneg hm hi
  rw [Int.tdiv_eq_ediv_of_nonneg hnonneg]
  exact ⟨Int.ediv_nonneg hnonneg hn.le,
    Int.ediv_le_of_le_mul hn (mul_le_mul_of_nonneg_left hin hm)⟩

/-- A point between two numbers of a range. -/
theorem within_towards {bound u v i n : Int} (hu : Within bound u) (hv : Within bound v)
    (hi : 0 ≤ i) (hin : i ≤ n) (hn : 0 < n) : Within bound (u + ((v - u) * i).tdiv n) := by
  obtain ⟨hulo, huhi⟩ := hu
  obtain ⟨hvlo, hvhi⟩ := hv
  rcases le_total u v with h | h
  · have := tdiv_mem_range (sub_nonneg.mpr h) hi hin hn
    exact ⟨by omega, by omega⟩
  · have := tdiv_mem_range (sub_nonneg.mpr h) hi hin hn
    rw [← neg_sub u v, neg_mul, Int.neg_tdiv]
    exact ⟨by omega, by omega⟩

theorem isqrtLoop_sq_le (n x : Nat) : isqrtLoop n x * isqrtLoop n x ≤ n := by
  fun_induction isqrtLoop n x with
  | case1 x _ ih => exact ih
  | case2 x hstop =>
    -- The loop stops when the next guess is no smaller, so `x ≤ n / x`.
    obtain rfl | hx := Nat.eq_zero_or_pos x
    · omega
    · exact (Nat.le_div_iff_mul_le hx).mp (by omega)

namespace Point3D.InVolume

variable {a b : Point3D} (ha : a.InVolume) (hb : b.InVolume)

include ha hb

theorem steer : (Path3d.steer a b PATH3D_STEP_MM).InVolume := by
  simp only [Path3d.steer]
  split_ifs with h
  · exact hb
  · have hstep : (0 : Int) ≤ PATH3D_STEP_MM := by decide
    obtain ⟨-, hlt⟩ := not_or.mp h
    have hpos : 0 < a.dist b := by omega
    have hle := (not_le.mp hlt).le
    exact ⟨within_towards ha.x hb.x hstep hle hpos, within_towards ha.y hb.y hstep hle hpos,
      within_towards ha.z hb.z hstep hle hpos⟩

theorem distSq_le : a.distSq b ≤ 3 * (300000 * 300000) := by
  have hx := ((ha.x.sub hb.x).mul (ha.x.sub hb.x)).2
  have hy := ((ha.y.sub hb.y).mul (ha.y.sub hb.y)).2
  have hz := ((ha.z.sub hb.z).mul (ha.z.sub hb.z)).2
  simp only [PATH3D_REACH_MM, PATH3D_VOLUME_MM] at hx hy hz
  unfold distSq
  omega

theorem dist_lt : a.dist b < 520000 := by
  have hsq := ha.distSq_le hb
  simp only [dist, isqrt64]
  split_ifs with hneg
  · decide
  · have hroot := isqrtLoop_sq_le (a.distSq b).toNat (a.distSq b).toNat
    have hlt := Nat.mul_self_lt_mul_self_iff.mp (hroot.trans_lt
      (show (a.distSq b).toNat < 520000 * 520000 by omega))
    exact_mod_cast hlt

end Point3D.InVolume

/-- Every node is in the volume, and no cost is more than every distance together. -/
structure InRange (nodes : List RrtNode) : Prop where
  length : nodes.length ≤ PATH3D_MAX_NODES
  volume : ∀ node ∈ nodes, node.pos.InVolume
  cost : ∀ node ∈ nodes, node.cost ≤ 520000 * nodes.length

theorem nodeAt_mem {i : Nat} (hi : i < nodes.length) : nodeAt nodes i ∈ nodes := by
  simp [nodeAt, hi]

theorem forall_mem_grow {q : Point3D} {parent : Nat} {cost : Int} {P : RrtNode → Prop}
    (hold : ∀ node ∈ nodes, P (rewire grid q nodes.length cost node))
    (hnew : P ⟨q, some parent, cost⟩) : ∀ node ∈ grow grid q parent cost nodes, P node := by
  rw [grow, List.forall_mem_append, List.forall_mem_map]
  exact ⟨hold, List.forall_mem_singleton.mpr hnew⟩

theorem InRange.extend (h : InRange t.nodes) (hroom : t.nodes.length < PATH3D_MAX_NODES)
    (hne : 0 < t.nodes.length) {qRand : Point3D} (hq : qRand.InVolume) :
    InRange (extend grid goal t qRand).nodes := by
  obtain hsame | ⟨near, hnear, q, parent, cost, rfl, hserves, hnodes⟩ :=
    extend_cases grid goal hne qRand
  · rw [hsame]
    exact h
  · have hnew := (h.volume _ (nodeAt_mem hnear)).steer hq
    have hcost := hserves.cost
    have hparent := h.cost _ (nodeAt_mem hserves.lt)
    have hdist := (h.volume _ (nodeAt_mem hserves.lt)).dist_lt hnew
    rw [hnodes]
    refine ⟨by rw [length_grow]; omega, forall_mem_grow (fun node hnode => ?_) hnew,
      forall_mem_grow (fun node hnode => ?_) ?_⟩
    · rw [(rewire_le grid _ _ _ node).1]
      exact h.volume node hnode
    · have hle := (rewire_le grid (Path3d.steer (nodeAt t.nodes near).pos qRand PATH3D_STEP_MM)
        t.nodes.length cost node).2
      have := h.cost node hnode
      rw [length_grow]
      omega
    · rw [length_grow]
      show cost ≤ _
      omega

theorem inRange_planLoop (hgoal : goal.InVolume) (n : Nat) (seed : UInt32)
    (hg : Grown grid start t.nodes) (h : InRange t.nodes) :
    InRange (planLoop grid goal n (seed, t)).2.nodes := by
  induction n generalizing seed t with
  | zero => exact h
  | succ n ih =>
    rw [planLoop]
    split_ifs with hfull
    · exact h
    · exact ih _ (grown_extend hg _)
        (h.extend (not_le.mp hfull) hg.nonempty (inVolume_sample hgoal seed))

theorem inRange_plant (hstart : start.InVolume) :
    InRange (Tree.plant start).nodes := by
  have hroot : ∀ node ∈ (Tree.plant start).nodes, node = ⟨start, none, 0⟩ :=
    fun node hnode => List.mem_singleton.mp hnode
  refine ⟨show 1 ≤ 512 by omega, fun node hnode => ?_, fun node hnode => ?_⟩
  · rw [hroot node hnode]
    exact hstart
  · rw [hroot node hnode]
    show (0 : Int) ≤ 520000 * 1
    omega

/-- What `dist_sq`, `steer`, `is_free` and the sums of costs compute fits: the number of
samples of a line is below `PATH3D_STEP_MM`. -/
theorem InRange.fits (h : InRange nodes) {m n : RrtNode} (hm : m ∈ nodes) (hn : n ∈ nodes)
    (hcost : 0 ≤ m.cost) {i : Int} (hi : Within PATH3D_STEP_MM i) :
    Fits 64 (m.pos.distSq n.pos) ∧ Fits 32 (m.cost + m.pos.dist n.pos) ∧
      Fits 32 ((n.pos.x - m.pos.x) * i) ∧ Fits 32 ((n.pos.y - m.pos.y) * i) ∧
      Fits 32 ((n.pos.z - m.pos.z) * i) := by
  have hmv := h.volume m hm
  have hnv := h.volume n hn
  have hsq := hmv.distSq_le hnv
  have hdist := hmv.dist_lt hnv
  have hdist0 := m.pos.dist_nonneg n.pos
  have hle := h.cost m hm
  have hlen : (nodes.length : Int) ≤ 512 := by exact_mod_cast h.length
  have hsq0 : 0 ≤ m.pos.distSq n.pos :=
    add_nonneg (add_nonneg (mul_self_nonneg _) (mul_self_nonneg _)) (mul_self_nonneg _)
  exact ⟨⟨by omega, by omega⟩, ⟨by omega, by omega⟩,
    fits_of_within ((hnv.x.sub hmv.x).mul hi) (by decide),
    fits_of_within ((hnv.y.sub hmv.y).mul hi) (by decide),
    fits_of_within ((hnv.z.sub hmv.z).mul hi) (by decide)⟩

/-! ## The path -/

/-- The node at the goal is near it. -/
def AtGoal (goal : Point3D) (t : Tree) : Prop :=
  ∀ g ∈ t.goalNode, g < t.nodes.length ∧ (nodeAt t.nodes g).pos.dist goal ≤ PATH3D_GOAL_TOL

theorem atGoal_extend (h : AtGoal goal t) (qRand : Point3D) :
    AtGoal goal (extend grid goal t qRand) := by
  unfold extend
  dsimp only
  split_ifs with hfree hbetter
  · exact h
  · intro g hg
    cases hg
    rw [length_grow, grow_new]
    exact ⟨Nat.lt_succ_self _, of_decide_eq_true (Bool.and_eq_true_iff.mp hbetter).1⟩
  · intro g hg
    obtain ⟨hlt, hdist⟩ := h g hg
    rw [length_grow, grow_old hlt, (rewire_le grid _ _ _ _).1]
    exact ⟨Nat.lt_succ_of_lt hlt, hdist⟩

theorem atGoal_run (grid : Grid) (start goal : Point3D) (samples : List Point3D) :
    AtGoal goal (samples.foldl (extend grid goal) (.plant start)) := by
  refine List.foldlRecOn samples _ (motive := AtGoal goal) ?_ fun t ht q _ => atGoal_extend ht q
  intro g hg
  cases hg

section

variable (hg : Grown grid start nodes)

include hg

theorem Grown.free_of_parent {i p : Nat} (hi : i < nodes.length) (hp : parentOf nodes i = some p) :
    isFree grid (nodeAt nodes p).pos (nodeAt nodes i).pos = true := by
  have hne : i ≠ 0 := by
    intro h
    rw [h, parentOf, hg.root] at hp
    cases hp
  obtain ⟨p', -, hparent, -, hfree⟩ := hg.linked i hi hne
  rw [parentOf, hparent, Option.some_inj] at hp
  exact hp ▸ hfree

theorem Grown.pos_of_root {i : Nat} (hi : i < nodes.length) (hroot : parentOf nodes i = none) :
    (nodeAt nodes i).pos = start := by
  by_cases hne : i = 0
  · rw [hne, hg.root]
  · obtain ⟨p, -, hparent, -⟩ := hg.linked i hi hne
    rw [parentOf, hparent] at hroot
    cases hroot

end

/-- From a start and a goal in the volume the planner's numbers stay in range.  The path fits
the buffer and is free from point to point.  It begins at the start unless it is cut, and ends
at the goal when the buffer has room for every path. -/
theorem path3dPlan_path (grid : Grid) (seed : UInt32) {start goal : Point3D}
    (hstart : start.InVolume) (hvolume : goal.InVolume) (outLen : Nat) :
    let path := (path3dPlan grid seed start goal outLen).1
    InRange (planLoop grid goal PATH3D_MAX_ITERS (seed, .plant start)).2.nodes ∧
      path.length ≤ min PATH3D_MAX_PATH outLen ∧ path.IsChain (fun a b => isFree grid a b = true) ∧
      (path.length < min PATH3D_MAX_PATH outLen → ∀ p ∈ path.head?, p = start) ∧
      (PATH3D_MAX_PATH ≤ outLen → ∀ p ∈ path.getLast?, p.dist goal ≤ PATH3D_GOAL_TOL) := by
  obtain ⟨samples, hsamples⟩ := planLoop_eq grid goal PATH3D_MAX_ITERS seed (.plant start)
  have hg := grown_run grid start goal samples
  have hgoal := atGoal_run grid start goal samples
  rw [← hsamples] at hg hgoal
  refine ⟨inRange_planLoop hvolume _ seed (grown_plant grid start) (inRange_plant hstart), ?_⟩
  unfold path3dPlan
  generalize planLoop grid goal PATH3D_MAX_ITERS (seed, .plant start) = r at hg hgoal
  obtain ⟨seed', t⟩ := r
  dsimp only at hg hgoal ⊢
  cases hnode : t.goalNode with
  | none => simp
  | some g =>
    obtain ⟨hlt, hdist⟩ := hgoal g hnode
    obtain ⟨hchain, hmem⟩ := isChain_trace (fun i p hi hp =>
      ⟨(hg.parent_le hi hp).1, hg.free_of_parent hi hp⟩) hlt PATH3D_MAX_PATH
    have hlength := length_trace_le (parentOf t.nodes) PATH3D_MAX_PATH g
    have hroot := @root_of_length_trace_lt _ (parentOf t.nodes) g PATH3D_MAX_PATH
    have hend : (trace (parentOf t.nodes) PATH3D_MAX_PATH g).head? = some g := rfl
    dsimp only
    generalize trace (parentOf t.nodes) PATH3D_MAX_PATH g = way at hchain hmem hlength hroot hend ⊢
    simp only [List.length_map, List.length_take, List.length_reverse, List.head?_map,
      List.getLast?_map, List.isChain_map]
    refine ⟨by omega, (List.isChain_reverse.mpr hchain).take outLen, ?_, ?_⟩
    · intro hshort p hp
      obtain ⟨r, hr, hnone⟩ := hroot (by omega)
      rw [List.head?_take, if_neg (by omega), List.head?_reverse, hr] at hp
      cases hp
      exact hg.pos_of_root (hmem r (List.mem_of_getLast? hr)) hnone
    · intro hroom p hp
      rw [List.take_of_length_le (by rw [List.length_reverse]; omega), List.getLast?_reverse,
        hend] at hp
      cases hp
      exact hdist

theorem path3dPlan_path_oneRoom : (⟨0, 0, 0⟩ : Point3D).InVolume ∧
    (⟨-40000, 12000, 50000⟩ : Point3D).InVolume ∧
      let path := (path3dPlan (path3dMarkObstacle (fun _ => false) 0 0 3125) 1 ⟨0, 0, 0⟩
        ⟨-40000, 12000, 50000⟩ 64).1
      path.length ≤ 64 ∧ ∀ p ∈ path.getLast?, p.dist ⟨-40000, 12000, 50000⟩ ≤ 2000 := by
  have hstart : (⟨0, 0, 0⟩ : Point3D).InVolume := ⟨by decide, by decide, by decide⟩
  have hgoal : (⟨-40000, 12000, 50000⟩ : Point3D).InVolume := ⟨by decide, by decide, by decide⟩
  obtain ⟨-, hlength, -, -, hend⟩ := path3dPlan_path
    (path3dMarkObstacle (fun _ => false) 0 0 3125) 1 hstart hgoal 64
  exact ⟨hstart, hgoal, hlength, hend (le_refl 64)⟩

end RobotOs.Flight.Path3d
