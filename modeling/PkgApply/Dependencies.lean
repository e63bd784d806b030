import Mathlib.Data.Finset.Card
import Mathlib.Data.List.ProdSigma
import Mathlib.Data.List.Sort
import PkgApply.Library.Ordering
import PkgApply.Plan

/-!
# Dependencies of active effects

The nodes of a plan whose active namespace changes, the constraints between
them, and the loop that puts them in order: an activated directory before what
is under it, every other ancestor after, a hard link after its anchor, and the
least path first wherever the constraints leave a choice.
-/

namespace PkgApply

open Library.Ordering

/-! ## Active nodes -/

/-- One path whose active namespace a mechanism changes. -/
structure ActiveNode where
  path : PackagePath
  outcome : PlannedActiveOutcome
  incoming : Option EntryId
  entry : Option PackageEntry
deriving DecidableEq

/-- The image entry bound to a decision. -/
def incomingEntry (image : PackageImage) (d : PathDecision) :
    Except Exn (Option PackageEntry) :=
  match d.incomingEntry with
  | none => .ok none
  | some id =>
    match image.entry id with
    | some entry =>
      if entry.path = d.path then .ok (some entry)
      else .error (.invalidArgument "application schedule incoming entry binding mismatch")
    | none => .error (.invalidArgument "application schedule incoming entry binding mismatch")

/-- The node of one decision, if a mechanism is required there. -/
def activeNode (image : Option PackageImage) (d : PathDecision) :
    Except Exn (Option ActiveNode) := do
  if !activeMechanismRequired d.active then
    return none
  if d.active = .activateIncoming then
    let some image := image
      | throw (.invalidArgument "incoming active effect lacks package image authority")
    let some entry ← incomingEntry image d
      | throw (.invalidArgument "incoming active effect lacks image entry identifier")
    return some ⟨d.path, d.active, d.incomingEntry, some entry⟩
  else
    return some ⟨d.path, d.active, d.incomingEntry, none⟩

/-- An activated directory precedes what is under it; every other ancestor
follows. -/
def parentBeforeChild (parent : ActiveNode) : Except Exn Bool :=
  if parent.outcome ≠ .activateIncoming then .ok false
  else
    match parent.entry with
    | none => .error (.logicError "incoming active node lacks image entry")
    | some entry => .ok (entry.type == .directory)

/-! ## Edges -/

/-- The edges found so far and how many end at each node.  The source keeps
the edges as one set of successors a node. -/
structure DependencyGraph where
  edges : Finset (Nat × Nat)
  indegree : List Nat
deriving DecidableEq

/-- An edge is counted once, and never from a node to itself. -/
def addEdge (graph : DependencyGraph) (before after : Nat) : DependencyGraph :=
  if before = after then graph
  else if (before, after) ∈ graph.edges then graph
  else ⟨insert (before, after) graph.edges, graph.indegree.modify after (· + 1)⟩

/-- The edge between a node and one under it. -/
def ancestryEdge (nodes : List ActiveNode) (graph : DependencyGraph) (pair : Nat × Nat) :
    Except Exn DependencyGraph :=
  match nodes[pair.1]?, nodes[pair.2]? with
  | some parent, some child =>
    if pair.1 = pair.2 ∨ !parent.path.isAncestorOf child.path then .ok graph
    else do
      if ← parentBeforeChild parent then
        return addEdge graph pair.1 pair.2
      else
        return addEdge graph pair.2 pair.1
  | _, _ => .ok graph

/-- The edge from a hard link's anchor to the hard link. -/
def hardlinkEdge (nodes : List ActiveNode) (graph : DependencyGraph) (pair : Nat × Nat) :
    Except Exn DependencyGraph :=
  match nodes[pair.1]?, nodes[pair.2]? with
  | some hardlink, some candidate =>
    match hardlink.entry with
    | none => .ok graph
    | some entry =>
      if entry.type ≠ .hardlink then .ok graph
      else
        match entry.hardlinkTarget with
        | none => .error (.invalidArgument "active hard link lacks its regular anchor")
        | some anchor =>
          .ok (if candidate.path = anchor then addEdge graph pair.2 pair.1 else graph)
  | _, _ => .ok graph

/-- Ancestry edges of every pair, then, with an image, hard-link edges. -/
def dependencyGraph (nodes : List ActiveNode) (image : Option PackageImage) :
    Except Exn DependencyGraph := do
  let count := nodes.length
  let pairs := (List.range count).product (List.range count)
  let graph ← pairs.foldlM (ancestryEdge nodes) ⟨∅, List.replicate count 0⟩
  if image.isSome then
    pairs.foldlM (hardlinkEdge nodes) graph
  else
    return graph

/-! ## The loop -/

/-- Ready nodes are taken by path, then by index. -/
def readyLe (nodes : List ActiveNode) (i j : Nat) : Bool :=
  match nodes[i]?, nodes[j]? with
  | some a, some b => if a.path = b.path then i ≤ j else a.path < b.path
  | some _, none => true
  | none, some _ => false
  | none, none => i ≤ j

/-- The ready nodes in order, and how many predecessors each node waits for. -/
structure ReadyQueue where
  ready : List Nat
  indegree : List Nat

/-- One successor of the node just taken waits for one node less. -/
def releaseNext (nodes : List ActiveNode) (queue : ReadyQueue) (next : Nat) : ReadyQueue :=
  let indegree := queue.indegree.modify next (· - 1)
  if indegree[next]? = some 0 then
    ⟨queue.ready.orderedInsert (fun i j => readyLe nodes i j) next, indegree⟩
  else
    ⟨queue.ready, indegree⟩

/-- The nodes an edge leads to, in ascending order. -/
def successors (count : Nat) (graph : DependencyGraph) (current : Nat) : List Nat :=
  (List.range count).filter fun next => (current, next) ∈ graph.edges

/-- Take the least ready node, release its successors, repeat.  Each round
takes one node, so as many rounds as nodes suffice. -/
def orderLoop (nodes : List ActiveNode) (graph : DependencyGraph) :
    Nat → ReadyQueue → List ActiveNode
  | 0, _ => []
  | _ + 1, ⟨[], _⟩ => []
  | rounds + 1, ⟨current :: ready, indegree⟩ =>
    nodes[current]?.toList ++ orderLoop nodes graph rounds
      ((successors nodes.length graph current).foldl (releaseNext nodes) ⟨ready, indegree⟩)

/-- The message of the cycle error. -/
def dependencyCycle : Exn :=
  .invalidArgument "application active-effect dependencies contain a cycle"

def orderActiveNodes (nodes : List ActiveNode) (image : Option PackageImage) :
    Except Exn (List ActiveNode) := do
  let graph ← dependencyGraph nodes image
  let ready := ((List.range nodes.length).filter fun index =>
    graph.indegree[index]? == some 0).insertionSort fun i j => readyLe nodes i j
  let ordered := orderLoop nodes graph nodes.length ⟨ready, graph.indegree⟩
  refuseIf (ordered.length ≠ nodes.length) dependencyCycle
  return ordered

/-! ## Constraints -/

namespace ActiveNode

variable {node before after : ActiveNode}

/-- The node puts a directory into place. -/
def ActivatesDirectory (node : ActiveNode) : Prop :=
  node.outcome = .activateIncoming ∧ ∃ entry, node.entry = some entry ∧ entry.type = .directory

/-- The node is a hard link to `anchor`. -/
def LinksTo (node : ActiveNode) (anchor : PackagePath) : Prop :=
  ∃ entry, node.entry = some entry ∧ entry.type = .hardlink ∧ entry.hardlinkTarget = some anchor

/-- `before` must be in place before `after`: a directory before what is under
it, what is under any other ancestor before that ancestor, an anchor before its
hard links. -/
def MustPrecede (before after : ActiveNode) : Prop :=
  (before.path.isAncestorOf after.path ∧ before.ActivatesDirectory) ∨
    (after.path.isAncestorOf before.path ∧ ¬after.ActivatesDirectory) ∨
      (before.path ≠ after.path ∧ after.LinksTo before.path)

/-- What a node built for a plan carries: an activated node its entry, and an
entry only of the image. -/
structure Bound (image : Option PackageImage) (node : ActiveNode) : Prop where
  entry : node.outcome = .activateIncoming ↔ node.entry.isSome
  image : node.entry.isSome → image.isSome

theorem MustPrecede.path_ne (h : MustPrecede before after) : before.path ≠ after.path := by
  intro heq
  rcases h with ⟨h, -⟩ | ⟨h, -⟩ | ⟨h, -⟩
  · rw [heq, PackagePath.isAncestorOf_irrefl] at h
    cases h
  · rw [heq, PackagePath.isAncestorOf_irrefl] at h
    cases h
  · exact h heq

theorem not_mustPrecede_self : ¬MustPrecede node node := fun h => h.path_ne rfl

end ActiveNode

open ActiveNode

/-- Whether an ancestor comes first is whether it puts a directory into place. -/
theorem parentBeforeChild_spec {parent : ActiveNode} {first : Bool}
    (h : parentBeforeChild parent = .ok first) : first = true ↔ parent.ActivatesDirectory := by
  unfold parentBeforeChild at h
  split at h
  · rename_i houtcome
    cases h
    simp [ActivatesDirectory, houtcome]
  · rename_i houtcome
    have houtcome := not_not.mp houtcome
    cases hentry : parent.entry with
    | none => simp [hentry] at h
    | some entry =>
      rw [hentry] at h
      cases h
      simp [ActivatesDirectory, houtcome, hentry]

/-! ## What the edges say -/

namespace DependencyGraph

variable {graph graph' graph'' : DependencyGraph} {count : Nat} {added added' : Nat × Nat → Prop}

/-- Each in-degree is the number of edges that end there. -/
structure Counted (graph : DependencyGraph) (count : Nat) : Prop where
  bound : ∀ p ∈ graph.edges, p.1 < count ∧ p.2 < count
  indegree : ∀ j < count,
    graph.indegree[j]? = some (graph.edges.filter fun p => p.2 = j).card

/-- One graph has just the edges `added` more than another, and counts them. -/
def Extends (count : Nat) (added : Nat × Nat → Prop) (graph graph' : DependencyGraph) : Prop :=
  (∀ p, p ∈ graph'.edges ↔ p ∈ graph.edges ∨ added p) ∧ (graph.Counted count → graph'.Counted count)

theorem Extends.refl (hnone : ∀ p, ¬added p) : Extends count added graph graph :=
  ⟨fun p => by simp [hnone p], id⟩

theorem Extends.trans (h : Extends count added graph graph')
    (h' : Extends count added' graph' graph'') :
    Extends count (fun p => added p ∨ added' p) graph graph'' := by
  refine ⟨fun p => ?_, fun hcounted => h'.2 (h.2 hcounted)⟩
  rw [h'.1, h.1, or_assoc]

theorem Extends.congr (h : Extends count added graph graph') (hiff : ∀ p, added p ↔ added' p) :
    Extends count added' graph graph' :=
  ⟨fun p => by rw [h.1, hiff], h.2⟩

/-- Adding an edge that is there changes nothing; a new one is counted once. -/
theorem extends_addEdge {before after : Nat} (hbefore : before < count) (hafter : after < count) :
    Extends count (fun p => p = (before, after) ∧ before ≠ after) graph
      (addEdge graph before after) := by
  unfold addEdge
  by_cases hself : before = after
  · rw [if_pos hself]
    exact .refl fun p hp => hp.2 hself
  rw [if_neg hself]
  by_cases hmem : (before, after) ∈ graph.edges
  · rw [if_pos hmem]
    refine ⟨fun p => ?_, id⟩
    constructor
    · exact .inl
    · rintro (hp | ⟨rfl, -⟩)
      · exact hp
      · exact hmem
  rw [if_neg hmem]
  refine ⟨fun p => by simp [hself, or_comm], fun hcounted => ⟨fun p hp => ?_, fun j hj => ?_⟩⟩
  · rcases Finset.mem_insert.mp hp with rfl | hp
    · exact ⟨hbefore, hafter⟩
    · exact hcounted.bound p hp
  · rw [List.getElem?_modify, hcounted.indegree j hj, Finset.filter_insert]
    by_cases hj' : after = j
    · subst hj'
      have hnew : (before, after) ∉ graph.edges.filter fun p => p.2 = after :=
        fun hin => hmem (Finset.mem_filter.mp hin).1
      simp [Finset.card_insert_of_notMem hnew]
    · simp [hj']

/-- Folding steps that each add their own edges adds the edges of all. -/
theorem extends_foldlM {α : Type} {f : DependencyGraph → α → Except Exn DependencyGraph}
    {added : α → Nat × Nat → Prop} (l : List α)
    (hstep : ∀ x ∈ l, ∀ graph graph', f graph x = .ok graph' →
      Extends count (added x) graph graph')
    (h : l.foldlM f graph = .ok graph') :
    Extends count (fun p => ∃ x ∈ l, added x p) graph graph' := by
  induction l generalizing graph with
  | nil =>
    cases h
    exact .refl fun p hp => by simp at hp
  | cons x rest ih =>
    rw [List.foldlM_cons, bind_eq_ok_iff] at h
    obtain ⟨middle, hmiddle, h⟩ := h
    have hfirst := hstep x List.mem_cons_self graph middle hmiddle
    have hrest := ih (fun y hy => hstep y (List.mem_cons_of_mem _ hy)) h
    exact (hfirst.trans hrest).congr fun p => by simp

end DependencyGraph

section Edges

variable {nodes : List ActiveNode} {image : Option PackageImage} {graph graph' : DependencyGraph}
  {pair : Nat × Nat}

/-- The edge an ancestor and a node under it contribute. -/
private def AncestryAdds (nodes : List ActiveNode) (pair p : Nat × Nat) : Prop :=
  ∃ parent child, nodes[pair.1]? = some parent ∧ nodes[pair.2]? = some child ∧
    parent.path.isAncestorOf child.path ∧
    ((p = pair ∧ parent.ActivatesDirectory) ∨ (p = pair.swap ∧ ¬parent.ActivatesDirectory))

private theorem ancestryEdge_extends (hpair : pair.1 < nodes.length ∧ pair.2 < nodes.length)
    (h : ancestryEdge nodes graph pair = .ok graph') :
    graph.Extends nodes.length (AncestryAdds nodes pair) graph' := by
  obtain ⟨i, j⟩ := pair
  obtain ⟨hi, hj⟩ := hpair
  obtain ⟨parent, hparent⟩ : ∃ parent, nodes[i]? = some parent :=
    ⟨nodes[i], List.getElem?_eq_getElem hi⟩
  obtain ⟨child, hchild⟩ : ∃ child, nodes[j]? = some child :=
    ⟨nodes[j], List.getElem?_eq_getElem hj⟩
  simp only [ancestryEdge, hparent, hchild] at h
  by_cases hskip : i = j ∨ !parent.path.isAncestorOf child.path
  · rw [if_pos hskip] at h
    cases h
    refine .refl fun p hp => ?_
    obtain ⟨parent', child', hparent', hchild', hancestor, -⟩ := hp
    rw [hparent] at hparent'
    rw [hchild] at hchild'
    cases hparent'
    cases hchild'
    rcases hskip with rfl | hskip
    · rw [hparent] at hchild
      cases hchild
      rw [PackagePath.isAncestorOf_irrefl] at hancestor
      cases hancestor
    · simp [hancestor] at hskip
  · rw [if_neg hskip] at h
    obtain ⟨hne, hancestor⟩ := not_or.mp hskip
    have hancestor : parent.path.isAncestorOf child.path = true := by simpa using hancestor
    obtain ⟨first, hfirst, h⟩ := bind_eq_ok_iff.mp h
    have hspec := parentBeforeChild_spec hfirst
    have hadds : ∀ p, AncestryAdds nodes (i, j) p ↔
        (p = (i, j) ∧ parent.ActivatesDirectory) ∨ (p = (j, i) ∧ ¬parent.ActivatesDirectory) := by
      intro p
      simp [AncestryAdds, hparent, hchild, hancestor]
    cases first with
    | true =>
      cases h
      refine (DependencyGraph.extends_addEdge hi hj).congr fun p => ?_
      simp [hadds, hspec.mp rfl, hne]
    | false =>
      cases h
      have hnot : ¬parent.ActivatesDirectory := fun h => by simpa using hspec.mpr h
      refine (DependencyGraph.extends_addEdge hj hi).congr fun p => ?_
      simp [hadds, hnot, Ne.symm hne]

/-- The edge a hard link and its anchor contribute. -/
private def HardlinkAdds (nodes : List ActiveNode) (pair p : Nat × Nat) : Prop :=
  ∃ hardlink candidate, nodes[pair.1]? = some hardlink ∧ nodes[pair.2]? = some candidate ∧
    hardlink.LinksTo candidate.path ∧ p = pair.swap ∧ pair.1 ≠ pair.2

private theorem hardlinkEdge_extends (hpair : pair.1 < nodes.length ∧ pair.2 < nodes.length)
    (h : hardlinkEdge nodes graph pair = .ok graph') :
    graph.Extends nodes.length (HardlinkAdds nodes pair) graph' := by
  obtain ⟨i, j⟩ := pair
  obtain ⟨hi, hj⟩ := hpair
  obtain ⟨hardlink, hhardlink⟩ : ∃ hardlink, nodes[i]? = some hardlink :=
    ⟨nodes[i], List.getElem?_eq_getElem hi⟩
  obtain ⟨candidate, hcandidate⟩ : ∃ candidate, nodes[j]? = some candidate :=
    ⟨nodes[j], List.getElem?_eq_getElem hj⟩
  have hadds : ∀ p, HardlinkAdds nodes (i, j) p ↔
      hardlink.LinksTo candidate.path ∧ p = (j, i) ∧ i ≠ j := by
    intro p
    simp [HardlinkAdds, hhardlink, hcandidate]
  simp only [hardlinkEdge, hhardlink, hcandidate] at h
  have hnone : ¬hardlink.LinksTo candidate.path → graph = graph' →
      graph.Extends nodes.length (HardlinkAdds nodes (i, j)) graph' := by
    rintro hnot rfl
    exact .refl fun p hp => hnot ((hadds p).mp hp).1
  cases hentry : hardlink.entry with
  | none =>
    rw [hentry] at h
    exact hnone (by simp [LinksTo, hentry]) (Except.ok.inj h)
  | some entry =>
    simp only [hentry] at h
    split at h
    · rename_i htype
      exact hnone (by simp [LinksTo, hentry, htype]) (Except.ok.inj h)
    rename_i htype
    cases hanchor : entry.hardlinkTarget with
    | none => simp [hanchor] at h
    | some anchor =>
      simp only [hanchor] at h
      have h := Except.ok.inj h
      split at h
      · rename_i hpath
        subst h
        have hlinks : hardlink.LinksTo candidate.path :=
          ⟨entry, hentry, not_not.mp htype, hpath ▸ hanchor⟩
        refine (DependencyGraph.extends_addEdge hj hi).congr fun p => ?_
        simp [hadds, hlinks, ne_comm]
      · rename_i hpath
        refine hnone (fun hlinks => ?_) h
        obtain ⟨entry', hentry', -, hanchor'⟩ := hlinks
        rw [hentry] at hentry'
        cases hentry'
        rw [hanchor] at hanchor'
        cases hanchor'
        exact hpath rfl

/-- With distinct paths a node's path tells its index. -/
theorem index_eq_of_path (hdistinct : (nodes.map ActiveNode.path).Nodup) {i j : Nat}
    {before after : ActiveNode} (hi : nodes[i]? = some before) (hj : nodes[j]? = some after)
    (hpath : before.path = after.path) : i = j := by
  have hbound : i < (nodes.map ActiveNode.path).length := by
    rw [List.length_map]
    exact (List.getElem?_eq_some_iff.mp hi).1
  refine (List.getElem?_inj hbound hdistinct).mp ?_
  rw [List.getElem?_map, List.getElem?_map, hi, hj, Option.map_some, Option.map_some, hpath]

private theorem mem_pairs {p : Nat × Nat} {count : Nat} :
    p ∈ (List.range count).product (List.range count) ↔ p.1 < count ∧ p.2 < count := by
  obtain ⟨i, j⟩ := p
  rw [List.pair_mem_product, List.mem_range, List.mem_range]

/-- Over all pairs, the edges contributed are the constraints. -/
private theorem adds_iff_mustPrecede (hdistinct : (nodes.map ActiveNode.path).Nodup)
    (p : Nat × Nat) :
    ((∃ x ∈ (List.range nodes.length).product (List.range nodes.length), AncestryAdds nodes x p) ∨
      ∃ x ∈ (List.range nodes.length).product (List.range nodes.length), HardlinkAdds nodes x p) ↔
    ∃ before after, nodes[p.1]? = some before ∧ nodes[p.2]? = some after ∧
      before.MustPrecede after := by
  have hlt : ∀ {i : Nat} {node : ActiveNode}, nodes[i]? = some node → i < nodes.length :=
    fun h => (List.getElem?_eq_some_iff.mp h).1
  constructor
  · rintro (⟨x, -, parent, child, hparent, hchild, hancestor, h⟩ |
      ⟨x, -, hardlink, candidate, hhardlink, hcandidate, hlinks, rfl, hne⟩)
    · rcases h with ⟨rfl, hdirectory⟩ | ⟨rfl, hdirectory⟩
      · exact ⟨parent, child, hparent, hchild, .inl ⟨hancestor, hdirectory⟩⟩
      · exact ⟨child, parent, hchild, hparent, .inr (.inl ⟨hancestor, hdirectory⟩)⟩
    · refine ⟨candidate, hardlink, hcandidate, hhardlink, .inr (.inr ⟨fun hpath => ?_, hlinks⟩)⟩
      exact hne (index_eq_of_path hdistinct hhardlink hcandidate hpath.symm)
  · rintro ⟨before, after, hbefore, hafter, hmust⟩
    rcases hmust with ⟨hancestor, hdirectory⟩ | ⟨hancestor, hdirectory⟩ | ⟨hne, hlinks⟩
    · exact .inl ⟨p, mem_pairs.mpr ⟨hlt hbefore, hlt hafter⟩, before, after, hbefore, hafter,
        hancestor, .inl ⟨rfl, hdirectory⟩⟩
    · exact .inl ⟨p.swap, mem_pairs.mpr ⟨hlt hafter, hlt hbefore⟩, after, before, hafter, hbefore,
        hancestor, .inr ⟨by simp, hdirectory⟩⟩
    · refine .inr ⟨p.swap, mem_pairs.mpr ⟨hlt hafter, hlt hbefore⟩, after, before, hafter, hbefore,
        hlinks, by simp, fun hindex => hne ?_⟩
      have hindex : p.2 = p.1 := hindex
      rw [hindex, hbefore] at hafter
      rw [Option.some.inj hafter]

/-- The edges of the whole graph are the constraints between its nodes. -/
theorem dependencyGraph_spec (hdistinct : (nodes.map ActiveNode.path).Nodup)
    (hbound : ∀ node ∈ nodes, node.Bound image) (h : dependencyGraph nodes image = .ok graph) :
    (∀ p, p ∈ graph.edges ↔ ∃ before after, nodes[p.1]? = some before ∧
      nodes[p.2]? = some after ∧ before.MustPrecede after) ∧ graph.Counted nodes.length := by
  have hempty : DependencyGraph.Counted ⟨∅, List.replicate nodes.length 0⟩ nodes.length :=
    ⟨fun p hp => by simp at hp, fun j hj => by simp [hj]⟩
  obtain ⟨middle, hmiddle, h⟩ := bind_eq_ok_iff.mp h
  have hancestry := DependencyGraph.extends_foldlM (f := ancestryEdge nodes) _
    (fun pair hpair _ _ => ancestryEdge_extends (mem_pairs.mp hpair)) hmiddle
  have hall : DependencyGraph.Extends nodes.length
      (fun p => ∃ before after, nodes[p.1]? = some before ∧ nodes[p.2]? = some after ∧
        before.MustPrecede after) ⟨∅, List.replicate nodes.length 0⟩ graph := by
    split at h
    · have hlinks := DependencyGraph.extends_foldlM (f := hardlinkEdge nodes) _
        (fun pair hpair _ _ => hardlinkEdge_extends (mem_pairs.mp hpair)) h
      exact (hancestry.trans hlinks).congr (adds_iff_mustPrecede hdistinct)
    · rename_i himage
      cases h
      refine hancestry.congr fun p => ?_
      rw [← adds_iff_mustPrecede hdistinct, or_iff_left]
      -- without an image no node carries an entry, so none is a hard link
      rintro ⟨x, -, hardlink, candidate, hhardlink, -, ⟨entry, hentry, -⟩, -⟩
      exact himage ((hbound hardlink (List.mem_of_getElem? hhardlink)).image (by simp [hentry]))
  exact ⟨fun p => by simp [hall.1 p], hall.2 hempty⟩

/-- Building the graph never fails on nodes built for a plan. -/
theorem dependencyGraph_ok (hbound : ∀ node ∈ nodes, node.Bound image) :
    ∃ graph, dependencyGraph nodes image = .ok graph := by
  have hfold : ∀ {step : DependencyGraph → Nat × Nat → Except Exn DependencyGraph},
      (∀ graph x, ∃ graph', step graph x = .ok graph') →
      ∀ (l : List (Nat × Nat)) graph, ∃ graph', l.foldlM step graph = .ok graph' := by
    intro step hstep l
    induction l with
    | nil => exact fun graph => ⟨graph, rfl⟩
    | cons x rest ih =>
      intro graph
      obtain ⟨middle, hmiddle⟩ := hstep graph x
      obtain ⟨graph', h⟩ := ih middle
      exact ⟨graph', by rw [List.foldlM_cons, hmiddle]; exact h⟩
  have hancestry : ∀ graph pair, ∃ graph', ancestryEdge nodes graph pair = .ok graph' := by
    intro graph pair
    unfold ancestryEdge
    split
    · rename_i parent child hparent hchild
      split
      · exact ⟨_, rfl⟩
      · have hnode := hbound parent (List.mem_of_getElem? hparent)
        obtain ⟨first, hfirst⟩ : ∃ first, parentBeforeChild parent = .ok first := by
          unfold parentBeforeChild
          split
          · exact ⟨_, rfl⟩
          · rename_i houtcome
            obtain ⟨entry, hentry⟩ := Option.isSome_iff_exists.mp
              (hnode.entry.mp (not_not.mp houtcome))
            rw [hentry]
            exact ⟨_, rfl⟩
        rw [hfirst]
        cases first
        · exact ⟨_, rfl⟩
        · exact ⟨_, rfl⟩
    · exact ⟨_, rfl⟩
  have hhardlink : ∀ graph pair, ∃ graph', hardlinkEdge nodes graph pair = .ok graph' := by
    intro graph pair
    unfold hardlinkEdge
    split
    · rename_i hardlink candidate _ _
      cases hentry : hardlink.entry with
      | none => exact ⟨_, rfl⟩
      | some entry =>
        by_cases htype : entry.type = .hardlink
        · obtain ⟨anchor, hanchor⟩ := Option.isSome_iff_exists.mp (entry.has_anchor htype)
          simp only [htype, hanchor]
          exact ⟨_, rfl⟩
        · exact ⟨_, if_pos htype⟩
    · exact ⟨_, rfl⟩
  obtain ⟨middle, hmiddle⟩ := hfold hancestry _ ⟨∅, List.replicate nodes.length 0⟩
  by_cases himage : image.isSome
  · obtain ⟨graph, h⟩ := hfold hhardlink _ middle
    exact ⟨graph, bind_eq_ok_iff.mpr ⟨middle, hmiddle, by rw [if_pos himage]; exact h⟩⟩
  · exact ⟨middle, bind_eq_ok_iff.mpr ⟨middle, hmiddle, by rw [if_neg himage]; rfl⟩⟩

end Edges

/-! ## What the loop keeps -/

section Loop

variable {nodes : List ActiveNode} {graph : DependencyGraph} {taken : List Nat}
  {queue : ReadyQueue}

private instance readyLe_total : Std.Total fun i j => readyLe nodes i j = true where
  total i j := by
    unfold readyLe
    cases nodes[i]? with
    | none =>
      cases nodes[j]? with
      | none =>
        simp
        omega
      | some b => simp
    | some a =>
      cases nodes[j]? with
      | none => simp
      | some b =>
        by_cases hpath : a.path = b.path
        · simp [hpath]
          omega
        · simp [hpath, Ne.symm hpath]

private instance readyLe_trans : IsTrans Nat fun i j => readyLe nodes i j = true where
  trans i j k := by
    unfold readyLe
    cases nodes[i]? with
    | none =>
      cases nodes[j]? with
      | none =>
        cases nodes[k]? with
        | none =>
          simp
          omega
        | some c => simp
      | some b => simp
    | some a =>
      cases nodes[j]? with
      | none =>
        cases nodes[k]? with
        | none => simp
        | some c => simp
      | some b =>
        cases nodes[k]? with
        | none => simp
        | some c =>
          by_cases hab : a.path = b.path
          · by_cases hbc : b.path = c.path
            · simp [hab, hbc]
              omega
            · simp [hab, hbc]
          · by_cases hbc : b.path = c.path
            · simp +contextual [← hbc, hab]
            · intro h1 h2
              have h1 : a.path < b.path := by simpa [hab] using h1
              have h2 : b.path < c.path := by simpa [hbc] using h2
              have h3 := h1.trans h2
              simp [h3.ne, h3]

private theorem path_le_of_readyLe {i j : Nat} {a b : ActiveNode} (hi : nodes[i]? = some a)
    (hj : nodes[j]? = some b) (h : readyLe nodes i j) : a.path ≤ b.path := by
  simp only [readyLe, hi, hj] at h
  by_cases hpath : a.path = b.path
  · exact hpath.le
  · rw [if_neg hpath] at h
    exact (of_decide_eq_true h).le

/-- Releasing successors: each waits for one less, and those that wait for
none become ready. -/
private theorem foldl_releaseNext (next : List Nat) (hnodup : next.Nodup) (queue : ReadyQueue) :
    (∀ j : Nat, (next.foldl (releaseNext nodes) queue).indegree[j]? =
      if j ∈ next then queue.indegree[j]?.map (· - 1) else queue.indegree[j]?) ∧
    (next.foldl (releaseNext nodes) queue).ready.Perm
      (next.filter (fun j => queue.indegree[j]?.map (· - 1) == some 0) ++ queue.ready) ∧
    (queue.ready.Pairwise (fun i j => readyLe nodes i j) →
      (next.foldl (releaseNext nodes) queue).ready.Pairwise fun i j => readyLe nodes i j) := by
  induction next generalizing queue with
  | nil => simp
  | cons k next ih =>
    obtain ⟨hk, hnext⟩ := List.nodup_cons.mp hnodup
    obtain ⟨hindegree, hready, hsorted⟩ := ih hnext (releaseNext nodes queue k)
    have hafter : (releaseNext nodes queue k).indegree = queue.indegree.modify k (· - 1) := by
      unfold releaseNext
      dsimp only
      split <;> rfl
    have hother : ∀ j ∈ next, (releaseNext nodes queue k).indegree[j]? = queue.indegree[j]? := by
      intro j hj
      have hne : k ≠ j := fun heq => hk (heq ▸ hj)
      rw [hafter, List.getElem?_modify_ne (h := hne)]
    have hfilter : next.filter (fun j =>
        (releaseNext nodes queue k).indegree[j]?.map (· - 1) == some 0) =
        next.filter fun j => queue.indegree[j]?.map (· - 1) == some 0 :=
      List.filter_congr fun j hj => by rw [hother j hj]
    have hself : (releaseNext nodes queue k).indegree[k]? = queue.indegree[k]?.map (· - 1) := by
      rw [hafter, List.getElem?_modify_eq, Option.map_eq_map]
    rw [List.foldl_cons]
    refine ⟨fun j => ?_, ?_, fun h => hsorted ?_⟩
    · rw [hindegree j]
      by_cases hjk : j = k
      · subst hjk
        rw [if_neg hk, if_pos List.mem_cons_self, hself]
      · by_cases hj : j ∈ next
        · rw [if_pos hj, if_pos (List.mem_cons_of_mem _ hj), hother j hj]
        · have hnot : j ∉ k :: next := by simp [hjk, hj]
          rw [if_neg hj, if_neg hnot, hafter, List.getElem?_modify_ne (h := Ne.symm hjk)]
    · refine hready.trans ?_
      rw [hfilter, List.filter_cons]
      by_cases hzero : queue.indegree[k]?.map (· - 1) = some 0
      · have hinsert : (releaseNext nodes queue k).ready.Perm (k :: queue.ready) := by
          unfold releaseNext
          dsimp only
          rw [← hafter, if_pos (hself.trans hzero)]
          exact List.perm_orderedInsert _ _ _
        rw [if_pos (by simpa using hzero)]
        exact (hinsert.append_left _).trans List.perm_middle
      · have hkeep : (releaseNext nodes queue k).ready = queue.ready := by
          unfold releaseNext
          dsimp only
          rw [← hafter, if_neg fun h => hzero (hself.symm.trans h)]
        rw [if_neg (by simpa using hzero), hkeep]
    · unfold releaseNext
      dsimp only
      split
      · exact List.Pairwise.orderedInsert k _ h
      · exact h

/-- The nodes not taken yet. -/
private def left (nodes : List ActiveNode) (taken : List Nat) : Set ActiveNode :=
  {node | ∃ j, nodes[j]? = some node ∧ j ∉ taken}

/-- The loop's invariant: in-degrees count the predecessors left, the queue
holds in order what waits for none, and what is taken waited for none. -/
private structure Waits (nodes : List ActiveNode) (graph : DependencyGraph) (taken : List Nat)
    (queue : ReadyQueue) : Prop where
  indegree : ∀ j < nodes.length, queue.indegree[j]? =
    some (graph.edges.filter fun p => p.2 = j ∧ p.1 ∉ taken).card
  ready : ∀ j, j ∈ queue.ready ↔
    j < nodes.length ∧ j ∉ taken ∧ ∀ i, (i, j) ∈ graph.edges → i ∈ taken
  nodup : queue.ready.Nodup
  sorted : queue.ready.Pairwise fun i j => readyLe nodes i j
  closed : ∀ j ∈ taken, ∀ i, (i, j) ∈ graph.edges → i ∈ taken
  taken_nodup : taken.Nodup
  taken_bound : ∀ j ∈ taken, j < nodes.length

/-- A node waits for none exactly when no edge from the rest ends there. -/
private theorem card_left_eq_zero {j : Nat} :
    (graph.edges.filter fun p => p.2 = j ∧ p.1 ∉ taken).card = 0 ↔
      ∀ i, (i, j) ∈ graph.edges → i ∈ taken := by
  rw [Finset.card_eq_zero, Finset.filter_eq_empty_iff]
  constructor
  · intro h i hi
    by_contra hnot
    exact h hi ⟨rfl, hnot⟩
  · rintro h ⟨i, j'⟩ hp ⟨rfl, hnot⟩
    exact hnot (h i hp)

/-- Taking one more node takes its edge away, if there is one. -/
private theorem card_left_cons {current j : Nat} (hcurrent : current ∉ taken) :
    (graph.edges.filter fun p => p.2 = j ∧ p.1 ∉ current :: taken).card =
      if (current, j) ∈ graph.edges then
        (graph.edges.filter fun p => p.2 = j ∧ p.1 ∉ taken).card - 1
      else (graph.edges.filter fun p => p.2 = j ∧ p.1 ∉ taken).card := by
  have herase : (graph.edges.filter fun p => p.2 = j ∧ p.1 ∉ current :: taken) =
      (graph.edges.filter fun p => p.2 = j ∧ p.1 ∉ taken).erase (current, j) := by
    ext ⟨i, k⟩
    simp only [Finset.mem_filter, Finset.mem_erase, List.mem_cons, not_or, ne_eq, Prod.mk.injEq]
    constructor
    · rintro ⟨hmem, rfl, hne, hnot⟩
      exact ⟨fun h => hne h.1, hmem, rfl, hnot⟩
    · rintro ⟨hne, hmem, rfl, hnot⟩
      exact ⟨hmem, rfl, fun h => hne ⟨h, rfl⟩, hnot⟩
  rw [herase, Finset.card_erase_eq_ite]
  simp [hcurrent]

/-- One round keeps the invariant. -/
private theorem Waits.take {current : Nat} {ready indegree : List Nat}
    (hcounted : graph.Counted nodes.length)
    (h : Waits nodes graph taken ⟨current :: ready, indegree⟩) :
    Waits nodes graph (current :: taken)
      ((successors nodes.length graph current).foldl (releaseNext nodes) ⟨ready, indegree⟩) := by
  have hnext : ∀ j, j ∈ successors nodes.length graph current ↔ (current, j) ∈ graph.edges := by
    intro j
    simp only [successors, List.mem_filter, List.mem_range, decide_eq_true_eq, and_iff_right_iff_imp]
    exact fun hedge => (hcounted.bound _ hedge).2
  have hnodup : (successors nodes.length graph current).Nodup := List.nodup_range.filter _
  obtain ⟨hindegree, hperm, hsorted⟩ := @foldl_releaseNext nodes _ hnodup ⟨ready, indegree⟩
  obtain ⟨hbound, hnot, hpreds⟩ := (h.ready current).mp List.mem_cons_self
  obtain ⟨hcurrent, hrest⟩ := List.nodup_cons.mp h.nodup
  have hcount : ∀ j < nodes.length, ((successors nodes.length graph current).foldl
      (releaseNext nodes) ⟨ready, indegree⟩).indegree[j]? =
      some (graph.edges.filter fun p => p.2 = j ∧ p.1 ∉ current :: taken).card := by
    intro j hj
    have hj' : indegree[j]? = _ := h.indegree j hj
    rw [hindegree j, card_left_cons hnot]
    by_cases hedge : (current, j) ∈ graph.edges
    · rw [if_pos ((hnext j).mpr hedge), if_pos hedge, hj', Option.map_some]
    · rw [if_neg (mt (hnext j).mp hedge), if_neg hedge, hj']
  -- a successor becomes ready when the node just taken was the last it waited for
  have hreleased : ∀ j, (current, j) ∈ graph.edges →
      (indegree[j]?.map (· - 1) = some 0 ↔ ∀ i, (i, j) ∈ graph.edges → i ∈ current :: taken) := by
    intro j hedge
    have hj := hcount j (hcounted.bound _ hedge).2
    rw [hindegree j, if_pos ((hnext j).mpr hedge)] at hj
    rw [hj, Option.some.injEq, card_left_eq_zero]
  have hwaited : ∀ j, (current, j) ∈ graph.edges → j ∉ taken ∧ j ∉ ready := by
    intro j hedge
    refine ⟨fun hj => hnot (h.closed j hj _ hedge), fun hj => hnot ?_⟩
    exact ((h.ready j).mp (List.mem_cons_of_mem _ hj)).2.2 _ hedge
  have hmem : ∀ j, j ∈ ((successors nodes.length graph current).foldl
      (releaseNext nodes) ⟨ready, indegree⟩).ready ↔
      ((current, j) ∈ graph.edges ∧ ∀ i, (i, j) ∈ graph.edges → i ∈ current :: taken) ∨
        j ∈ ready := by
    intro j
    rw [hperm.mem_iff, List.mem_append, List.mem_filter, hnext, beq_iff_eq]
    exact or_congr_left (and_congr_right (hreleased j))
  refine ⟨hcount, fun j => ?_, ?_, hsorted (List.pairwise_cons.mp h.sorted).2, ?_,
    List.nodup_cons.mpr ⟨hnot, h.taken_nodup⟩, ?_⟩
  · rw [hmem]
    constructor
    · rintro (⟨hedge, hall⟩ | hj)
      · refine ⟨(hcounted.bound _ hedge).2, fun hj => ?_, hall⟩
        rcases List.mem_cons.mp hj with rfl | hj
        · exact hnot (hpreds _ hedge)
        · exact (hwaited j hedge).1 hj
      · obtain ⟨hlt, hj', hall⟩ := (h.ready j).mp (List.mem_cons_of_mem _ hj)
        refine ⟨hlt, fun hin => ?_, fun i hi => List.mem_cons_of_mem _ (hall i hi)⟩
        rcases List.mem_cons.mp hin with rfl | hin
        · exact hcurrent hj
        · exact hj' hin
    · rintro ⟨hlt, hj, hall⟩
      obtain ⟨hne, hj⟩ := not_or.mp (mt List.mem_cons.mpr hj)
      by_cases hedge : (current, j) ∈ graph.edges
      · exact .inl ⟨hedge, hall⟩
      · have hready : j ∈ current :: ready := by
          refine (h.ready j).mpr ⟨hlt, hj, fun i hi => ?_⟩
          rcases List.mem_cons.mp (hall i hi) with rfl | hin
          · exact absurd hi hedge
          · exact hin
        exact .inr ((List.mem_cons.mp hready).resolve_left hne)
  · rw [hperm.nodup_iff, List.nodup_append]
    refine ⟨hnodup.filter _, hrest, ?_⟩
    rintro j hj k hk rfl
    exact (hwaited j ((hnext j).mp (List.mem_filter.mp hj).1)).2 hk
  · intro j hj i hi
    rcases List.mem_cons.mp hj with rfl | hj
    · exact List.mem_cons_of_mem _ (hpreds i hi)
    · exact List.mem_cons_of_mem _ (h.closed j hj i hi)
  · intro j hj
    rcases List.mem_cons.mp hj with rfl | hj
    · exact hbound
    · exact h.taken_bound j hj

/-- What the loop calls ready is what the constraints leave ready. -/
private theorem Waits.ready_iff (hdistinct : (nodes.map ActiveNode.path).Nodup)
    (hedges : ∀ p, p ∈ graph.edges ↔ ∃ before after, nodes[p.1]? = some before ∧
      nodes[p.2]? = some after ∧ before.MustPrecede after)
    (h : Waits nodes graph taken queue) {j : Nat} {node : ActiveNode}
    (hj : nodes[j]? = some node) :
    Ready MustPrecede (left nodes taken) node ↔ j ∈ queue.ready := by
  rw [h.ready]
  constructor
  · rintro ⟨⟨j', hj', hleft⟩, hnone⟩
    have heq := index_eq_of_path hdistinct hj' hj rfl
    subst heq
    refine ⟨(List.getElem?_eq_some_iff.mp hj).1, hleft, fun i hi => ?_⟩
    obtain ⟨before, after, hbefore, hafter, hmust⟩ := (hedges (i, j')).mp hi
    have hbefore : nodes[i]? = some before := hbefore
    rw [show nodes[j']? = some after from hafter] at hj
    cases hj
    by_contra hin
    exact hnone before ⟨i, hbefore, hin⟩ hmust
  · rintro ⟨-, hleft, hall⟩
    refine ⟨⟨j, hj, hleft⟩, ?_⟩
    rintro before ⟨i, hi, hin⟩ hmust
    exact hin (hall i ((hedges (i, j)).mpr ⟨before, node, hi, hj, hmust⟩))

/-- Taking a node removes it from what is left. -/
private theorem left_cons (hdistinct : (nodes.map ActiveNode.path).Nodup) {current : Nat}
    {node : ActiveNode} (hcurrent : nodes[current]? = some node) :
    left nodes (current :: taken) = left nodes taken \ {node} := by
  ext other
  constructor
  · rintro ⟨j, hj, hnot⟩
    obtain ⟨hne, hnot⟩ := not_or.mp (mt List.mem_cons.mpr hnot)
    refine ⟨⟨j, hj, hnot⟩, fun heq => hne ?_⟩
    exact index_eq_of_path hdistinct hj hcurrent (congrArg ActiveNode.path heq)
  · rintro ⟨⟨j, hj, hnot⟩, hne⟩
    refine ⟨j, hj, fun hin => ?_⟩
    rcases List.mem_cons.mp hin with rfl | hin
    · rw [hcurrent] at hj
      exact hne (Option.some.inj hj).symm
    · exact hnot hin

/-- With a round for every node left, the loop gives the greedy order. -/
private theorem orderLoop_greedy (hdistinct : (nodes.map ActiveNode.path).Nodup)
    (hedges : ∀ p, p ∈ graph.edges ↔ ∃ before after, nodes[p.1]? = some before ∧
      nodes[p.2]? = some after ∧ before.MustPrecede after)
    (hcounted : graph.Counted nodes.length) (rounds : Nat)
    (hrounds : nodes.length ≤ rounds + taken.length) (h : Waits nodes graph taken queue) :
    Greedy MustPrecede ActiveNode.path (left nodes taken) (orderLoop nodes graph rounds queue) := by
  have hindex : ∀ {j : Nat}, j ∈ queue.ready → ∃ node, nodes[j]? = some node := by
    intro j hj
    exact ⟨_, List.getElem?_eq_getElem ((h.ready j).mp hj).1⟩
  obtain ⟨ready, indegree⟩ := queue
  induction rounds generalizing taken ready indegree with
  | zero =>
    -- every node is taken
    refine .stuck fun node hnode => ?_
    obtain ⟨j, hj, hleft⟩ := hnode.1
    have hsub : (j :: taken).Subperm (List.range nodes.length) := by
      refine List.Nodup.subperm (List.nodup_cons.mpr ⟨hleft, h.taken_nodup⟩) fun k hk => ?_
      rcases List.mem_cons.mp hk with rfl | hk
      · exact List.mem_range.mpr (List.getElem?_eq_some_iff.mp hj).1
      · exact List.mem_range.mpr (h.taken_bound k hk)
    have hlength := hsub.length_le
    rw [List.length_cons, List.length_range] at hlength
    omega
  | succ rounds ih =>
    cases ready with
    | nil =>
      refine .stuck fun node hnode => ?_
      obtain ⟨j, hj, -⟩ := hnode.1
      exact absurd ((h.ready_iff hdistinct hedges hj).mp hnode) List.not_mem_nil
    | cons current ready =>
      obtain ⟨node, hnode⟩ := hindex List.mem_cons_self
      have htake := h.take hcounted
      rw [orderLoop, hnode, Option.toList_some, List.singleton_append]
      refine .take ((h.ready_iff hdistinct hedges hnode).mpr List.mem_cons_self)
        (fun other hother => ?_) ?_
      · obtain ⟨j, hj, -⟩ := hother.1
        have hin := (h.ready_iff hdistinct hedges hj).mp hother
        rcases List.mem_cons.mp hin with rfl | hin
        · rw [hnode] at hj
          rw [Option.some.inj hj]
        · exact path_le_of_readyLe hnode hj ((List.pairwise_cons.mp h.sorted).1 j hin)
      · rw [← left_cons hdistinct hnode]
        refine ih ?_ _ _ htake ?_
        · rw [List.length_cons]
          omega
        · intro j hj
          exact ⟨_, List.getElem?_eq_getElem ((htake.ready j).mp hj).1⟩

/-- The queue the loop starts with. -/
private theorem waits_initial (hcounted : graph.Counted nodes.length) :
    Waits nodes graph [] ⟨((List.range nodes.length).filter fun index =>
      graph.indegree[index]? == some 0).insertionSort fun i j => readyLe nodes i j,
      graph.indegree⟩ := by
  have hperm := List.perm_insertionSort (fun i j => readyLe nodes i j = true)
    ((List.range nodes.length).filter fun index => graph.indegree[index]? == some 0)
  refine ⟨fun j hj => by simpa using hcounted.indegree j hj, fun j => ?_, ?_,
    List.pairwise_insertionSort _ _, by simp, List.nodup_nil, by simp⟩
  · rw [hperm.mem_iff, List.mem_filter, List.mem_range, beq_iff_eq]
    refine and_congr_right fun hj => ?_
    rw [hcounted.indegree j hj, Option.some.injEq]
    simpa using @card_left_eq_zero graph [] j
  · rw [hperm.nodup_iff]
    exact List.nodup_range.filter _

end Loop

/-! ## The order -/

section Order

variable {nodes ordered : List ActiveNode} {image : Option PackageImage}

/-- Everything the ordering does with nodes built for a plan. -/
private theorem orderActiveNodes_cases (hdistinct : (nodes.map ActiveNode.path).Nodup)
    (hbound : ∀ node ∈ nodes, node.Bound image) : ∃ ordered : List ActiveNode,
      Greedy MustPrecede ActiveNode.path {node | node ∈ nodes} ordered ∧
      orderActiveNodes nodes image =
        if ordered.length ≠ nodes.length then .error dependencyCycle else .ok ordered := by
  obtain ⟨graph, hgraph⟩ := dependencyGraph_ok hbound
  obtain ⟨hedges, hcounted⟩ := dependencyGraph_spec hdistinct hbound hgraph
  have hgreedy := orderLoop_greedy hdistinct hedges hcounted nodes.length (by simp)
    (waits_initial hcounted)
  have hleft : left nodes [] = {node | node ∈ nodes} := by
    ext node
    simp [left, List.mem_iff_getElem?]
  rw [hleft] at hgreedy
  refine ⟨_, hgreedy, ?_⟩
  rw [orderActiveNodes, hgraph]
  dsimp only [bind, Except.bind]
  generalize orderLoop nodes graph nodes.length _ = loop
  by_cases hlength : loop.length = nodes.length
  · simp [refuseIf, hlength, pure, Except.pure]
  · simp [refuseIf, hlength]

private theorem path_injOn (hdistinct : (nodes.map ActiveNode.path).Nodup) :
    Set.InjOn ActiveNode.path {node | node ∈ nodes} :=
  fun _ ha _ hb h => List.inj_on_of_nodup_map hdistinct ha hb h

/-- A greedy order has every node exactly when it has their number. -/
private theorem greedy_perm_iff
    (h : Greedy MustPrecede ActiveNode.path {node | node ∈ nodes} ordered) :
    ordered.length = nodes.length ↔ ordered.Perm nodes := by
  refine ⟨fun hlength => ?_, List.Perm.length_eq⟩
  exact (h.nodup.subperm h.mem_rest).perm_of_length_le hlength.ge

/-- A greedy order has every node exactly when the constraints have no cycle. -/
private theorem greedy_length_iff (hdistinct : (nodes.map ActiveNode.path).Nodup)
    (h : Greedy MustPrecede ActiveNode.path {node | node ∈ nodes} ordered) :
    ordered.length = nodes.length ↔ ¬Cyclic MustPrecede {node | node ∈ nodes} := by
  rw [← h.exhausts_iff (List.finite_toSet nodes) fun _ _ => not_mustPrecede_self, greedy_perm_iff h]
  constructor
  · exact fun hperm node hnode => hperm.mem_iff.mpr hnode
  · intro hall
    have hnodup : nodes.Nodup := List.Nodup.of_map _ hdistinct
    exact (List.perm_ext_iff_of_nodup h.nodup hnodup).mpr fun node => ⟨h.mem_rest node, hall node⟩

/-- Ordering succeeds exactly without a cycle. -/
theorem orderActiveNodes_ok_iff (hdistinct : (nodes.map ActiveNode.path).Nodup)
    (hbound : ∀ node ∈ nodes, node.Bound image) :
    (∃ ordered, orderActiveNodes nodes image = .ok ordered) ↔
      ¬Cyclic MustPrecede {node | node ∈ nodes} := by
  obtain ⟨greedy, hgreedy, horder⟩ := orderActiveNodes_cases hdistinct hbound
  rw [horder, ← greedy_length_iff hdistinct hgreedy]
  by_cases hlength : greedy.length = nodes.length
  · simp [hlength]
  · simp [hlength]

/-- The ordering puts the active nodes in the one order that always takes the
least ready path, and refuses them exactly when their constraints are cyclic. -/
theorem orderActiveNodes_least (hdistinct : (nodes.map ActiveNode.path).Nodup)
    (hbound : ∀ node ∈ nodes, node.Bound image) :
    (∀ ordered, orderActiveNodes nodes image = .ok ordered →
      ordered.Perm nodes ∧ Respects MustPrecede ordered ∧
        Greedy MustPrecede ActiveNode.path {node | node ∈ nodes} ordered ∧
        ∀ other, other.Perm nodes → Respects MustPrecede other →
          ordered.map ActiveNode.path ≤ other.map ActiveNode.path ∧
            (Greedy MustPrecede ActiveNode.path {node | node ∈ nodes} other → other = ordered)) ∧
    ((∃ ordered, orderActiveNodes nodes image = .ok ordered) ↔
      ¬Cyclic MustPrecede {node | node ∈ nodes}) ∧
    (orderActiveNodes nodes image = .error dependencyCycle ↔
      Cyclic MustPrecede {node | node ∈ nodes}) := by
  obtain ⟨greedy, hgreedy, horder⟩ := orderActiveNodes_cases hdistinct hbound
  refine ⟨fun ordered hordered => ?_, orderActiveNodes_ok_iff hdistinct hbound, ?_⟩
  · have hkey := path_injOn hdistinct
    rw [horder] at hordered
    split at hordered
    · cases hordered
    rename_i hlength
    cases hordered
    have hperm := (greedy_perm_iff hgreedy).mp (not_not.mp hlength)
    refine ⟨hperm, hgreedy.respects, hgreedy, fun other hother hrespects => ⟨?_, fun h => ?_⟩⟩
    · have hnodup : other.Nodup := hother.nodup_iff.mpr (List.Nodup.of_map _ hdistinct)
      exact hgreedy.least hkey hrespects hnodup (fun _ _ => not_mustPrecede_self)
        fun node => hother.mem_iff
    · exact hgreedy.unique h hkey
  · rw [horder, ← not_iff_not, ← greedy_length_iff hdistinct hgreedy]
    by_cases hlength : greedy.length = nodes.length
    · simp [hlength]
    · simp [hlength]

/-- Two nested removals: what is under a directory goes before it. -/
def removedTree : List ActiveNode :=
  [⟨⟨[0x61]⟩, .removeDirectoryIfEmpty, none, none⟩,
    ⟨⟨[0x61, 0x2f, 0x62]⟩, .removeObserved, none, none⟩]

theorem orderActiveNodes_least_removedTree :
    orderActiveNodes removedTree none = .ok removedTree.reverse ∧
      Greedy MustPrecede ActiveNode.path {node | node ∈ removedTree} removedTree.reverse ∧
      ¬Cyclic MustPrecede {node | node ∈ removedTree} := by
  have hbound : ∀ node ∈ removedTree, node.Bound none := by
    intro node hnode
    simp only [removedTree, List.mem_cons, List.not_mem_nil, or_false] at hnode
    rcases hnode with rfl | rfl
    · exact ⟨by decide, by decide⟩
    · exact ⟨by decide, by decide⟩
  obtain ⟨hordered, hok, -⟩ := orderActiveNodes_least (by decide) hbound
  have hreverse : orderActiveNodes removedTree none = .ok removedTree.reverse := by decide +kernel
  exact ⟨hreverse, (hordered _ hreverse).2.2.1, hok.mp ⟨_, hreverse⟩⟩

end Order

/-! ## Nodes of a plan -/

section Plan

variable {plan : OperationPlan} {image : Option PackageImage} {nodes : List ActiveNode}
  {d : PathDecision} {node : ActiveNode}

/-- The node of a decision: an activated one carries its entry of the image. -/
theorem activeNode_eq_some (h : activeNode image d = .ok (some node)) :
    node.path = d.path ∧ node.outcome = d.active ∧ node.incoming = d.incomingEntry ∧
      activeMechanismRequired d.active = true ∧
      ((d.active = .activateIncoming ∧ ∃ img id entry, image = some img ∧
          d.incomingEntry = some id ∧ img.entry id = some entry ∧ entry.path = d.path ∧
          node.entry = some entry) ∨
        (d.active ≠ .activateIncoming ∧ node.entry = none)) := by
  unfold activeNode at h
  by_cases hrequired : activeMechanismRequired d.active = true
  · rw [if_neg (by simp [hrequired])] at h
    by_cases hactivate : d.active = .activateIncoming
    · rw [if_pos hactivate] at h
      cases image with
      | none => cases h
      | some img =>
        simp only [bind_eq_ok_iff] at h
        obtain ⟨bound, hbound, h⟩ := h
        unfold incomingEntry at hbound
        cases hid : d.incomingEntry with
        | none =>
          rw [hid] at hbound
          cases hbound
          cases h
        | some id =>
          cases hentry : img.entry id with
          | none => simp [hid, hentry] at hbound
          | some entry =>
            simp only [hid, hentry] at hbound
            split at hbound
            · rename_i hpath
              cases hbound
              cases h
              exact ⟨rfl, rfl, hid, hrequired, .inl ⟨hactivate, img, id, entry, rfl, rfl, hentry,
                hpath, rfl⟩⟩
            · cases hbound
    · rw [if_neg hactivate] at h
      cases h
      exact ⟨rfl, rfl, rfl, hrequired, .inr ⟨hactivate, rfl⟩⟩
  · rw [if_pos (by simpa using hrequired)] at h
    cases h

/-- Only a decision that needs no mechanism has no node. -/
theorem activeNode_eq_none (h : activeNode image d = .ok none) :
    activeMechanismRequired d.active = false := by
  unfold activeNode at h
  by_cases hrequired : activeMechanismRequired d.active = true
  · rw [if_neg (by simp [hrequired])] at h
    by_cases hactivate : d.active = .activateIncoming
    · rw [if_pos hactivate] at h
      cases image with
      | none => cases h
      | some img =>
        simp only [bind_eq_ok_iff] at h
        obtain ⟨bound, -, h⟩ := h
        cases bound with
        | none => cases h
        | some entry => cases h
    · rw [if_neg hactivate] at h
      cases h
  · simpa using hrequired

theorem ActiveNode.bound_of_activeNode (h : activeNode image d = .ok (some node)) :
    node.Bound image := by
  obtain ⟨-, houtcome, -, -, ⟨hactive, img, id, entry, himage, -, -, -, hentry⟩ |
    ⟨hactive, hentry⟩⟩ := activeNode_eq_some h
  · exact ⟨by simp [houtcome, hactive, hentry], fun _ => by simp [himage]⟩
  · exact ⟨by simp [houtcome, hactive, hentry], fun hsome => by simp [hentry] at hsome⟩

/-- The nodes of a plan have distinct paths. -/
theorem activeNodes_distinct (h : collect (activeNode image) plan.paths = .ok nodes) :
    (nodes.map ActiveNode.path).Nodup := by
  refine (collect_sublist _ PathDecision.path (fun d node hok => ?_) h).nodup plan.paths_nodup
  exact (activeNode_eq_some hok).1

theorem activeNodes_bound (h : collect (activeNode image) plan.paths = .ok nodes) :
    ∀ node ∈ nodes, node.Bound image := by
  intro node hnode
  obtain ⟨d, -, hok⟩ := (mem_collect h node).mp hnode
  exact bound_of_activeNode hok

/-- Ordering rearranges the active nodes of a plan. -/
theorem orderActiveNodes_perm {ordered : List ActiveNode}
    (hnodes : collect (activeNode image) plan.paths = .ok nodes)
    (h : orderActiveNodes nodes image = .ok ordered) : ordered.Perm nodes := by
  obtain ⟨greedy, hgreedy, horder⟩ :=
    orderActiveNodes_cases (activeNodes_distinct hnodes) (activeNodes_bound hnodes)
  rw [horder] at h
  split at h
  · cases h
  · rename_i hlength
    cases h
    exact (greedy_perm_iff hgreedy).mp (not_not.mp hlength)

end Plan

/-! ## Plans without cycles -/

/-- Every active path above an activated entry is itself an activated
directory of the image. -/
def OperationPlan.ActivatesUnderDirectories (plan : OperationPlan) (image : Option PackageImage) :
    Prop :=
  ∀ d ∈ plan.paths, d.active = .activateIncoming →
    ∀ above ∈ plan.paths, activeMechanismRequired above.active → above.path.isAncestorOf d.path →
      above.active = .activateIncoming ∧ ∃ img id entry, image = some img ∧
        above.incomingEntry = some id ∧ img.entry id = some entry ∧ entry.type = .directory

/-- Activated directories come first, from the top down; removals next, from
the bottom up; then every other activated entry, hard links last. -/
def ActiveNode.rank (node : ActiveNode) : ℕ ×ₗ ℤ :=
  match node.entry with
  | none => toLex (1, -(node.path.bytes.length : ℤ))
  | some entry =>
    match entry.type with
    | .directory => toLex (0, (node.path.bytes.length : ℤ))
    | .hardlink => toLex (3, 0)
    | .regular | .symlink | .fifo | .characterDevice | .blockDevice => toLex (2, 0)

section Rank

variable {plan : OperationPlan} {image : Option PackageImage} {nodes : List ActiveNode}
  {node before after : ActiveNode}

private theorem rank_of_none (h : node.entry = none) :
    node.rank = toLex (1, -(node.path.bytes.length : ℤ)) := by
  simp [rank, h]

private theorem rank_of_directory {entry : PackageEntry} (h : node.entry = some entry)
    (htype : entry.type = .directory) : node.rank = toLex (0, (node.path.bytes.length : ℤ)) := by
  simp [rank, h, htype]

private theorem rank_of_hardlink {entry : PackageEntry} (h : node.entry = some entry)
    (htype : entry.type = .hardlink) : node.rank = toLex (3, 0) := by
  simp [rank, h, htype]

private theorem rank_of_other {entry : PackageEntry} (h : node.entry = some entry)
    (hdirectory : entry.type ≠ .directory) (hhardlink : entry.type ≠ .hardlink) :
    node.rank = toLex (2, 0) := by
  simp only [rank, h]
  cases htype : entry.type with
  | directory => exact absurd htype hdirectory
  | hardlink => exact absurd htype hhardlink
  | regular | symlink | fifo | characterDevice | blockDevice => rfl

/-- Every constraint of such a plan raises the rank. -/
private theorem rank_lt_of_mustPrecede (hplan : plan.ActivatesUnderDirectories image)
    (hnodes : collect (activeNode image) plan.paths = .ok nodes) (hbefore : before ∈ nodes)
    (hafter : after ∈ nodes) (h : MustPrecede before after) : before.rank < after.rank := by
  obtain ⟨d, hd, hdnode⟩ := (mem_collect hnodes before).mp hbefore
  obtain ⟨d', hd', hdnode'⟩ := (mem_collect hnodes after).mp hafter
  obtain ⟨hpath, -, -, hactive, hkind⟩ := activeNode_eq_some hdnode
  obtain ⟨hpath', houtcome', -, hactive', hkind'⟩ := activeNode_eq_some hdnode'
  rcases h with ⟨hancestor, -, entry, hentry, htype⟩ | ⟨hancestor, hdirectory⟩ |
    ⟨-, entry, hentry, htype, hanchor⟩
  · -- an activated directory above: first of all, and shorter than a directory below it
    have hlength := PackagePath.length_lt_of_isAncestorOf hancestor
    rw [rank_of_directory hentry htype, Prod.Lex.lt_iff]
    rcases hkind' with ⟨-, -, -, entry', -, -, -, -, hentry'⟩ | ⟨-, hentry'⟩
    · by_cases hdirectory : entry'.type = .directory
      · rw [rank_of_directory hentry' hdirectory]
        exact .inr ⟨rfl, by simpa using hlength⟩
      · by_cases hhardlink : entry'.type = .hardlink
        · rw [rank_of_hardlink hentry' hhardlink]
          exact .inl (by simp)
        · rw [rank_of_other hentry' hdirectory hhardlink]
          exact .inl (by simp)
    · rw [rank_of_none hentry']
      exact .inl (by simp)
  · -- any other ancestor: only a removal stands under it
    have hlength := PackagePath.length_lt_of_isAncestorOf hancestor
    have hentry : before.entry = none := by
      rcases hkind with ⟨hactivate, -⟩ | ⟨-, hentry⟩
      · rw [hpath, hpath'] at hancestor
        obtain ⟨habove, img, id, entry, himage, hid, hentry, htype⟩ :=
          hplan d hd hactivate d' hd' hactive' hancestor
        rcases hkind' with ⟨-, img', id', entry', himage', hid', hentry', -, hbound'⟩ | ⟨hnot, -⟩
        · rw [himage] at himage'
          cases himage'
          rw [hid] at hid'
          cases hid'
          rw [hentry] at hentry'
          cases hentry'
          exact absurd ⟨houtcome'.trans habove, entry, hbound', htype⟩ hdirectory
        · exact absurd habove hnot
      · exact hentry
    rw [rank_of_none hentry, Prod.Lex.lt_iff]
    rcases hkind' with ⟨hactivate', -, -, entry', -, -, -, -, hentry'⟩ | ⟨-, hentry'⟩
    · have hnot : entry'.type ≠ .directory :=
        fun htype => hdirectory ⟨houtcome'.trans hactivate', entry', hentry', htype⟩
      by_cases hhardlink : entry'.type = .hardlink
      · rw [rank_of_hardlink hentry' hhardlink]
        exact .inl (by simp)
      · rw [rank_of_other hentry' hnot hhardlink]
        exact .inl (by simp)
    · rw [rank_of_none hentry']
      exact .inr ⟨rfl, by simpa using hlength⟩
  · -- a hard link comes last, and its anchor is no hard link
    rw [rank_of_hardlink hentry htype, Prod.Lex.lt_iff]
    rcases hkind with ⟨-, img, id, anchor, himage, -, hmem, hanchored, hentry'⟩ | ⟨-, hentry'⟩
    · have hnot : anchor.type ≠ .hardlink := by
        rcases hkind' with ⟨-, img', id', entry', himage', -, hmem', -, hentry''⟩ | ⟨-, hentry''⟩
        · rw [himage] at himage'
          cases himage'
          rw [hentry] at hentry''
          cases hentry''
          obtain ⟨target, htarget, htargetPath, hregular⟩ :=
            img.anchors_regular entry (List.mem_of_find?_eq_some hmem') htype
          have hsame : anchor = target := by
            refine List.inj_on_of_nodup_map img.paths_nodup (List.mem_of_find?_eq_some hmem)
              htarget ?_
            rw [hanchor] at htargetPath
            rw [hanchored, ← hpath]
            exact Option.some.inj htargetPath
          rw [hsame, hregular]
          decide
        · rw [hentry] at hentry''
          cases hentry''
      by_cases hdirectory : anchor.type = .directory
      · rw [rank_of_directory hentry' hdirectory]
        exact .inl (by simp)
      · rw [rank_of_other hentry' hdirectory hnot]
        exact .inl (by simp)
    · rw [rank_of_none hentry']
      exact .inl (by simp)

/-- The constraints of such a plan have no cycle. -/
theorem activeNodes_not_cyclic (hplan : plan.ActivatesUnderDirectories image)
    (hnodes : collect (activeNode image) plan.paths = .ok nodes) :
    ¬Cyclic MustPrecede {node | node ∈ nodes} :=
  not_cyclic_of_rank rank fun _ hbefore _ hafter h =>
    rank_lt_of_mustPrecede hplan hnodes hbefore hafter h

/-- A removal activates nothing. -/
theorem activatesUnderDirectories_of_remove (hkind : plan.kind = .remove) :
    plan.ActivatesUnderDirectories image := by
  intro d hd hactivate
  have hrole := plan.removal_roles hkind d hd
  have hincoming := d.incoming_role.mpr (d.activates_incoming hactivate)
  rw [hrole] at hincoming
  cases hincoming

end Rank

end PkgApply
