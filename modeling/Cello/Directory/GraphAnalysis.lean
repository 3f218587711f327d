import Cello.Lib.OrdSet
import Cello.Lib.Text
import Cello.Lib.UnionFind
import Mathlib.Combinatorics.SimpleGraph.Connectivity.Connected
import Mathlib.Data.Set.Card

/-!
# The graph analysis of the analytics job

`#computeGraphAnalysis` of `packages/directory/src/analytics-job.ts`.  The edges between pseudonyms are a graph
(`graph`).  Its communities are found by a union-find whose parent map every lookup compresses, those of the metrics
too, so the map is handed through all of them; `Lib/UnionFind.lean` has what the lookups answer.  The analysis is the
table of `metrics` (`computeGraphAnalysis_eq`), and those are what the graph has (`graph_analysis_correct`).
-/

namespace Cello.Directory.GraphAnalysis

open Lib Lib.UnionFind

/-! ### The code -/

/-- A pseudonym without the separator of the edge lookup. -/
@[ext] structure Pseudonym where
  text : String
  noSeparator : '|' ∉ text.toList

/-- Strings are compared by their code units. -/
instance : LinearOrder Pseudonym :=
  LinearOrder.lift' (fun p => Text.codeUnits p.text) fun _ _ h => Pseudonym.ext (Text.codeUnits_injective h)

structure EdgeRow where
  pseudonymA : Pseudonym
  pseudonymB : Pseudonym
  /-- What `parseInt` reads. -/
  edgeWeight : ℕ
  ordered : pseudonymA < pseudonymB
  positive : 0 < edgeWeight

structure Adjacency where
  neighbors : Pseudonym → Option (OrdSet Pseudonym)
  weightedDegree : Pseudonym → Option ℕ

namespace Adjacency

variable (g : Adjacency)

/-- `neighbors.get(p) ?? new Set()`. -/
def neighborsOf (p : Pseudonym) : OrdSet Pseudonym := (g.neighbors p).getD .empty

/-- `weightedDegree.get(p) ?? 0`. -/
def degreeOf (p : Pseudonym) : ℕ := (g.weightedDegree p).getD 0

def reset (p : Pseudonym) : Adjacency where
  neighbors := Function.update g.neighbors p (some .empty)
  weightedDegree := Function.update g.weightedDegree p (some 0)

def register (p : Pseudonym) : Adjacency := if (g.neighbors p).isSome then g else g.reset p

/-- The set is there, as `p` was registered. -/
def addNeighbor (p q : Pseudonym) : Adjacency :=
  { g with neighbors := Function.update g.neighbors p (some ((g.neighborsOf p).add q)) }

def addWeight (p : Pseudonym) (w : ℕ) : Adjacency :=
  { g with weightedDegree := Function.update g.weightedDegree p (some (g.degreeOf p + w)) }

def addEdge (e : EdgeRow) : Adjacency :=
  (((((g.register e.pseudonymA).register e.pseudonymB).addNeighbor e.pseudonymA e.pseudonymB).addNeighbor
    e.pseudonymB e.pseudonymA).addWeight e.pseudonymA e.edgeWeight).addWeight e.pseudonymB e.edgeWeight

end Adjacency

def adjacency (pseudonyms : List Pseudonym) (edges : List EdgeRow) : Adjacency :=
  edges.foldl Adjacency.addEdge (pseudonyms.foldl Adjacency.reset ⟨fun _ => none, fun _ => none⟩)

def edgeKey (a b : Pseudonym) : String := a.text ++ "|" ++ b.text

def connected (edges : List EdgeRow) (a b : Pseudonym) : Bool :=
  let edgeSet := edges.map fun e => edgeKey e.pseudonymA e.pseudonymB
  let (pa, pb) := if a < b then (a, b) else (b, a)
  decide (edgeKey pa pb ∈ edgeSet)

def edgesAmong (edges : List EdgeRow) : List Pseudonym → ℕ
  | [] => 0
  | a :: rest => rest.countP (connected edges a) + edgesAmong edges rest

def allNodes (pseudonyms : List Pseudonym) (edges : List EdgeRow) : OrdSet Pseudonym :=
  (pseudonyms ++ edges.flatMap fun e => [e.pseudonymA, e.pseudonymB]).foldl OrdSet.add .empty

/-- What the metrics of a pseudonym are computed from: the coefficient is `2 * edgesAmongNeighbors / (k * (k - 1))`
for two neighbours or more, and the conductance `crossCommunityWeight / myDegree` for a positive degree. -/
structure Metrics where
  k : ℕ
  edgesAmongNeighbors : ℕ
  communityId : ℕ
  myDegree : ℕ
  crossCommunityWeight : ℕ
deriving DecidableEq

/-- The weight of one edge, if it crosses the border of the community. -/
def crossWeight (fuel : ℕ) (p root : Pseudonym) (acc : ℕ × (Pseudonym → Pseudonym)) (e : EdgeRow) :
    Option (ℕ × (Pseudonym → Pseudonym)) :=
  if e.pseudonymA = p ∨ e.pseudonymB = p then do
    let other := if e.pseudonymA = p then e.pseudonymB else e.pseudonymA
    let (otherRoot, parent) ← find fuel acc.2 other
    return (if otherRoot ≠ root then acc.1 + e.edgeWeight else acc.1, parent)
  else some acc

def metricsOf (fuel : ℕ) (g : Adjacency) (edges : List EdgeRow) (sortedRoots : List Pseudonym)
    (parent : Pseudonym → Pseudonym) (p : Pseudonym) : Option (Metrics × (Pseudonym → Pseudonym)) := do
  let nbrs := g.neighborsOf p
  let myDegree := g.degreeOf p
  let (root, parent) ← find fuel parent p
  let (cross, parent) ← if 0 < myDegree then edges.foldlM (crossWeight fuel p root) (0, parent) else some (0, parent)
  return ({ k := nbrs.size
            edgesAmongNeighbors := if 2 ≤ nbrs.size then edgesAmong edges nbrs.members else 0
            communityId := (sortedRoots.idxOf? root).getD 0
            myDegree := myDegree
            crossCommunityWeight := cross }, parent)

/-- The root of a node, into `rootSet`. -/
def addRoot (fuel : ℕ) (acc : OrdSet Pseudonym × (Pseudonym → Pseudonym)) (node : Pseudonym) :
    Option (OrdSet Pseudonym × (Pseudonym → Pseudonym)) := do
  let (root, parent) ← find fuel acc.2 node
  return (acc.1.add root, parent)

/-- The metrics of a pseudonym, into `results`. -/
def setMetrics (fuel : ℕ) (g : Adjacency) (edges : List EdgeRow) (sortedRoots : List Pseudonym)
    (acc : (Pseudonym → Option Metrics) × (Pseudonym → Pseudonym)) (p : Pseudonym) :
    Option ((Pseudonym → Option Metrics) × (Pseudonym → Pseudonym)) := do
  let (metrics, parent) ← metricsOf fuel g edges sortedRoots acc.2 p
  return (Function.update acc.1 p (some metrics), parent)

/-- `#computeGraphAnalysis`, with fuel for the loops of `find`.  The parent map starts as the identity on all nodes, and
nothing else is looked up. -/
def computeGraphAnalysis (fuel : ℕ) (pseudonyms : List Pseudonym) (edges : List EdgeRow) :
    Option (Pseudonym → Option Metrics) := do
  let parent ← edges.foldlM (fun parent e => union fuel parent e.pseudonymA e.pseudonymB) id
  let (rootSet, parent) ← (allNodes pseudonyms edges).members.foldlM (addRoot fuel) (.empty, parent)
  let sortedRoots := rootSet.members.insertionSort (· ≤ ·)
  let (results, _) ← pseudonyms.foldlM (setMetrics fuel (adjacency pseudonyms edges) edges sortedRoots)
    (fun _ => none, parent)
  return results

/-! ### The graph -/

def graph (edges : List EdgeRow) : SimpleGraph Pseudonym where
  Adj p q := ∃ e ∈ edges, e.pseudonymA = p ∧ e.pseudonymB = q ∨ e.pseudonymA = q ∧ e.pseudonymB = p
  symm := ⟨fun _ _ ⟨e, he, h⟩ => ⟨e, he, h.symm⟩⟩
  loopless := ⟨fun _ ⟨e, _, h⟩ => by
    rcases h with ⟨ha, hb⟩ | ⟨ha, hb⟩ <;> exact absurd (ha.trans hb.symm) e.ordered.ne⟩

def ends (edges : List EdgeRow) : List (Pseudonym × Pseudonym) := edges.map fun e => (e.pseudonymA, e.pseudonymB)

variable {pseudonyms : List Pseudonym} {edges : List EdgeRow} {p q : Pseudonym}

theorem connected_ends_iff : Connected (ends edges) p q ↔ (graph edges).Reachable p q := by
  constructor
  · intro h
    induction h with
    | rel p q hmem =>
      obtain ⟨e, he, heq⟩ := List.mem_map.1 hmem
      obtain ⟨rfl, rfl⟩ := Prod.mk.inj heq
      exact SimpleGraph.Adj.reachable ⟨e, he, .inl ⟨rfl, rfl⟩⟩
    | refl p => exact .refl p
    | symm _ _ _ ih => exact ih.symm
    | trans _ _ _ _ _ ih₁ ih₂ => exact ih₁.trans ih₂
  · rw [SimpleGraph.reachable_iff_reflTransGen]
    intro h
    induction h with
    | refl => exact .refl p
    | tail _ hadj ih =>
      obtain ⟨e, he, ⟨rfl, rfl⟩ | ⟨rfl, rfl⟩⟩ := hadj
      · exact .trans _ _ _ ih (.rel _ _ (List.mem_map_of_mem he))
      · exact .trans _ _ _ ih (.symm _ _ (.rel _ _ (List.mem_map_of_mem he)))

theorem connected_iff : connected edges p q = true ↔ (graph edges).Adj p q := by
  have hkey : ∀ {a b : Pseudonym}, edgeKey a b ∈ edges.map (fun e => edgeKey e.pseudonymA e.pseudonymB) ↔
      ∃ e ∈ edges, e.pseudonymA = a ∧ e.pseudonymB = b := by
    intro a b
    rw [List.mem_map]
    refine exists_congr fun e => and_congr_right fun _ => ⟨fun h => ?_, ?_⟩
    · have hlist := congrArg String.toList h
      simp only [edgeKey, String.toList_append, List.append_assoc] at hlist
      obtain ⟨ha, hb⟩ := Text.split_at_sep e.pseudonymA.noSeparator a.noSeparator hlist
      exact ⟨Pseudonym.ext (String.toList_injective ha), Pseudonym.ext (String.toList_injective hb)⟩
    · rintro ⟨rfl, rfl⟩
      rfl
  rw [connected]
  split_ifs with hlt
  · rw [decide_eq_true_eq, hkey]
    refine exists_congr fun e => and_congr_right fun _ => ⟨.inl, ?_⟩
    rintro (h | ⟨rfl, rfl⟩)
    · exact h
    · exact absurd e.ordered hlt.asymm
  · rw [decide_eq_true_eq, hkey]
    refine exists_congr fun e => and_congr_right fun _ => ⟨.inr, ?_⟩
    rintro (⟨rfl, rfl⟩ | h)
    · exact absurd e.ordered hlt
    · exact h

/-! ### Neighbours -/

variable {g : Adjacency} {a b : Pseudonym} {e : EdgeRow}

theorem neighborsOf_reset : (g.reset a).neighborsOf p = if p = a then .empty else g.neighborsOf p := by
  show (Function.update g.neighbors a (some .empty) p).getD .empty = _
  split
  · rename_i hp
    rw [hp, Function.update_self, Option.getD_some]
  · rename_i hp
    rw [Function.update_of_ne hp, Adjacency.neighborsOf]

@[simp] theorem neighborsOf_register : (g.register a).neighborsOf p = g.neighborsOf p := by
  rw [Adjacency.register]
  split
  · rfl
  · rename_i hnone
    rw [neighborsOf_reset]
    split
    · rename_i hp
      rw [hp, Adjacency.neighborsOf, Option.not_isSome_iff_eq_none.1 hnone, Option.getD_none]
    · rfl

@[simp] theorem mem_neighborsOf_addNeighbor :
    q ∈ (g.addNeighbor a b).neighborsOf p ↔ q ∈ g.neighborsOf p ∨ a = p ∧ b = q := by
  show q ∈ (Function.update g.neighbors a (some ((g.neighborsOf a).add b)) p).getD .empty ↔ _
  by_cases hp : a = p
  · subst hp
    rw [Function.update_self, Option.getD_some, OrdSet.mem_add, or_comm, eq_comm, and_iff_right rfl]
  · rw [Function.update_of_ne (Ne.symm hp), or_iff_left fun h => hp h.1, Adjacency.neighborsOf]

theorem mem_neighborsOf_addEdge : q ∈ (g.addEdge e).neighborsOf p ↔
    q ∈ g.neighborsOf p ∨ (e.pseudonymA = p ∧ e.pseudonymB = q ∨ e.pseudonymA = q ∧ e.pseudonymB = p) := by
  have hweight : ∀ (g : Adjacency) (a : Pseudonym) (w : ℕ), (g.addWeight a w).neighborsOf p = g.neighborsOf p :=
    fun _ _ _ => rfl
  rw [Adjacency.addEdge, hweight, hweight, mem_neighborsOf_addNeighbor, mem_neighborsOf_addNeighbor,
    neighborsOf_register, neighborsOf_register, or_assoc, and_comm (a := e.pseudonymB = p)]

theorem neighborsOf_foldl_reset {l : List Pseudonym} (h : ∀ p, g.neighborsOf p = .empty) (p : Pseudonym) :
    (l.foldl Adjacency.reset g).neighborsOf p = .empty := by
  induction l generalizing g with
  | nil => exact h p
  | cons a l ih =>
    refine ih fun p => ?_
    rw [neighborsOf_reset, h p, ite_self]

theorem mem_neighbors : q ∈ (adjacency pseudonyms edges).neighborsOf p ↔ (graph edges).Adj p q := by
  have hfold : ∀ (l : List EdgeRow) (g : Adjacency), q ∈ (l.foldl Adjacency.addEdge g).neighborsOf p ↔
      q ∈ g.neighborsOf p ∨ (graph l).Adj p q := by
    intro l
    induction l with
    | nil => simp [graph]
    | cons e l ih =>
      intro g
      rw [List.foldl_cons, ih, mem_neighborsOf_addEdge, or_assoc]
      simp only [graph, List.mem_cons, exists_eq_or_imp]
  rw [adjacency, hfold, neighborsOf_foldl_reset fun _ => rfl]
  exact or_iff_right (OrdSet.not_mem_empty q)

/-! ### Edges among neighbours -/

open Classical in
theorem edgesAmong_eq_length (l : List Pseudonym) :
    edgesAmong edges l = (l.sym2.filter fun s => decide (s ∈ (graph edges).edgeSet)).length := by
  induction l with
  | nil => rfl
  | cons a rest ih =>
    have hself : ¬(graph edges).Adj a a := (graph edges).loopless.irrefl a
    have hfirst : rest.countP (connected edges a) =
        (rest.map fun b => s(a, b)).countP fun s => decide (s ∈ (graph edges).edgeSet) := by
      rw [List.countP_map]
      refine List.countP_congr fun b _ => ?_
      rw [Function.comp_apply, decide_eq_true_eq, SimpleGraph.mem_edgeSet, connected_iff]
    rw [edgesAmong, ih, hfirst, List.sym2, List.filter_append, List.length_append, List.map_cons, List.filter_cons,
      if_neg (by rwa [decide_eq_true_eq, SimpleGraph.mem_edgeSet]), List.countP_eq_length_filter]

theorem edgesAmong_eq_ncard {l : List Pseudonym} (hl : l.Nodup) :
    edgesAmong edges l = {s ∈ (graph edges).edgeSet | ∀ q ∈ s, q ∈ l}.ncard := by
  classical
  have hset : {s ∈ (graph edges).edgeSet | ∀ q ∈ s, q ∈ l} =
      ((l.sym2.filter fun s => decide (s ∈ (graph edges).edgeSet)).toFinset : Set (Sym2 Pseudonym)) := by
    ext s
    rw [List.coe_toFinset, Set.mem_ofPred_eq, Set.mem_ofPred_eq, List.mem_filter, List.mem_sym2_iff, decide_eq_true_eq,
      and_comm]
  rw [hset, Set.ncard_coe_finset, List.toFinset_card_of_nodup (hl.sym2.filter _), edgesAmong_eq_length]

/-! ### Communities -/

def roots (pseudonyms : List Pseudonym) (edges : List EdgeRow) : List Pseudonym :=
  ((allNodes pseudonyms edges).members.foldl (fun roots x => roots.add (classes (ends edges) x))
    OrdSet.empty).members.insertionSort (· ≤ ·)

theorem mem_allNodes : p ∈ allNodes pseudonyms edges ↔
    p ∈ pseudonyms ∨ ∃ e ∈ edges, p = e.pseudonymA ∨ p = e.pseudonymB := by
  have hmem := OrdSet.mem_foldl_add id (l := pseudonyms ++ edges.flatMap fun e => [e.pseudonymA, e.pseudonymB])
    (s := .empty) (x := p)
  rw [allNodes]
  refine hmem.trans ?_
  simp

/-- The nodes, for the lookups. -/
def nodes (pseudonyms : List Pseudonym) (edges : List EdgeRow) : Finset Pseudonym :=
  (allNodes pseudonyms edges).members.toFinset

theorem mem_nodes : p ∈ nodes pseudonyms edges ↔ p ∈ allNodes pseudonyms edges := List.mem_toFinset

theorem card_nodes : (nodes pseudonyms edges).card = (allNodes pseudonyms edges).size :=
  List.toFinset_card_of_nodup (allNodes pseudonyms edges).nodup

theorem forest_unions {fuel : ℕ} (hfuel : (nodes pseudonyms edges).card < fuel) :
    ∃ parent, edges.foldlM (fun parent e => union fuel parent e.pseudonymA e.pseudonymB) id = some parent ∧
      Forest (nodes pseudonyms edges) parent (classes (ends edges)) := by
  have hends : ∀ e ∈ ends edges, e.1 ∈ nodes pseudonyms edges ∧ e.2 ∈ nodes pseudonyms edges := by
    intro e he
    obtain ⟨row, hrow, rfl⟩ := List.mem_map.1 he
    exact ⟨mem_nodes.2 (mem_allNodes.2 (.inr ⟨row, hrow, .inl rfl⟩)),
      mem_nodes.2 (mem_allNodes.2 (.inr ⟨row, hrow, .inr rfl⟩))⟩
  obtain ⟨parent, hparent, hforest⟩ := (forest_id (nodes pseudonyms edges)).unions hfuel hends
  rw [ends, List.foldlM_map] at hparent
  exact ⟨parent, hparent, hforest⟩

theorem mem_roots : p ∈ roots pseudonyms edges ↔
    p ∈ allNodes pseudonyms edges ∧ ∀ q, (graph edges).Reachable p q → p ≤ q := by
  have hmem := OrdSet.mem_foldl_add (classes (ends edges)) (l := (allNodes pseudonyms edges).members)
    (s := .empty) (x := p)
  rw [roots, List.mem_insertionSort]
  refine hmem.trans ?_
  rw [or_iff_right (OrdSet.not_mem_empty p)]
  obtain ⟨hto, -, -⟩ := classes_spec (ends edges)
  constructor
  · rintro ⟨n, hn, rfl⟩
    refine ⟨?_, fun q hq => classes_least (.trans _ _ _ (hto n) (connected_ends_iff.2 hq))⟩
    obtain ⟨parent, -, hforest⟩ := forest_unions (Nat.lt_succ_self (nodes pseudonyms edges).card)
    by_cases hroot : classes (ends edges) n = n
    · rw [hroot]
      exact hn
    · exact mem_nodes.1 (hforest.rep_mem n hroot)
  · rintro ⟨hp, hleast⟩
    exact ⟨p, hp, le_antisymm (classes_least (.refl p)) (hleast _ (connected_ends_iff.1 (hto p)))⟩

theorem pairwise_roots : (roots pseudonyms edges).Pairwise (· < ·) := by
  have hsorted := List.pairwise_insertionSort (· ≤ ·) ((allNodes pseudonyms edges).members.foldl
    (fun roots x => roots.add (classes (ends edges) x)) OrdSet.empty).members
  have hnodup : (roots pseudonyms edges).Nodup := (List.perm_insertionSort _ _).nodup_iff.2 (OrdSet.nodup _)
  exact (hsorted.and hnodup).imp fun h => lt_of_le_of_ne h.1 h.2

/-! ### The table of metrics -/

def metrics (pseudonyms : List Pseudonym) (edges : List EdgeRow) (p : Pseudonym) : Metrics :=
  let nbrs := (adjacency pseudonyms edges).neighborsOf p
  { k := nbrs.size
    edgesAmongNeighbors := if 2 ≤ nbrs.size then edgesAmong edges nbrs.members else 0
    communityId := ((roots pseudonyms edges).idxOf? (classes (ends edges) p)).getD 0
    myDegree := (adjacency pseudonyms edges).degreeOf p
    crossCommunityWeight := 0 }

theorem crossWeight_eq {fuel cross : ℕ} {parent : Pseudonym → Pseudonym} (hfuel : (nodes pseudonyms edges).card < fuel)
    (he : e ∈ edges) (h : Forest (nodes pseudonyms edges) parent (classes (ends edges))) :
    ∃ parent', crossWeight fuel p (classes (ends edges) p) (cross, parent) e = some (cross, parent') ∧
      Forest (nodes pseudonyms edges) parent' (classes (ends edges)) := by
  have hsame : classes (ends edges) e.pseudonymA = classes (ends edges) e.pseudonymB :=
    classes_eq_iff.2 (.rel _ _ (List.mem_map_of_mem he))
  rw [crossWeight]
  split
  · rename_i htouch
    obtain ⟨parent', hfind, h'⟩ := h.find hfuel (if e.pseudonymA = p then e.pseudonymB else e.pseudonymA)
    refine ⟨parent', ?_, h'⟩
    have hother : classes (ends edges) (if e.pseudonymA = p then e.pseudonymB else e.pseudonymA) =
        classes (ends edges) p := by
      split
      · rename_i ha
        rw [← ha, hsame]
      · rename_i ha
        rw [hsame, htouch.resolve_left ha]
    dsimp only
    rw [hfind, Option.bind_eq_bind, Option.bind_some, hother]
    dsimp only
    rw [if_neg fun hne => hne rfl]
    rfl
  · exact ⟨parent, rfl, h⟩

theorem metricsOf_eq {fuel : ℕ} {parent : Pseudonym → Pseudonym} (hfuel : (nodes pseudonyms edges).card < fuel)
    (h : Forest (nodes pseudonyms edges) parent (classes (ends edges))) :
    ∃ parent', metricsOf fuel (adjacency pseudonyms edges) edges (roots pseudonyms edges) parent p =
        some (metrics pseudonyms edges p, parent') ∧
      Forest (nodes pseudonyms edges) parent' (classes (ends edges)) := by
  obtain ⟨parent₁, hfind, h₁⟩ := h.find hfuel p
  obtain ⟨parent₂, hcross, h₂⟩ := h₁.foldlM (f := crossWeight fuel p (classes (ends edges) p)) (g := fun s _ => s)
    (s := 0) fun _ he _ _ hforest => crossWeight_eq hfuel he hforest
  rw [List.foldl_fixed] at hcross
  rw [metricsOf, hfind, Option.bind_eq_bind, Option.bind_some]
  dsimp only
  split
  · exact ⟨parent₂, by rw [hcross]; rfl, h₂⟩
  · exact ⟨parent₁, rfl, h₁⟩

/-- **The analysis returns the table of the metrics**, with as many steps in every lookup as there are nodes. -/
theorem computeGraphAnalysis_eq {fuel : ℕ} (hfuel : (allNodes pseudonyms edges).size < fuel) :
    computeGraphAnalysis fuel pseudonyms edges =
      some fun p => if p ∈ pseudonyms then some (metrics pseudonyms edges p) else none := by
  rw [← card_nodes] at hfuel
  obtain ⟨parent₁, hunions, h₁⟩ := forest_unions hfuel
  obtain ⟨parent₂, hroots, h₂⟩ := h₁.foldlM (f := addRoot fuel) (l := (allNodes pseudonyms edges).members)
    (g := fun roots x => roots.add (classes (ends edges) x)) (s := .empty) fun node _ s parent h => by
      obtain ⟨parent', hfind, h'⟩ := h.find hfuel node
      refine ⟨parent', ?_, h'⟩
      rw [addRoot, hfind]
      rfl
  obtain ⟨parent₃, htable, h₃⟩ := h₂.foldlM
    (f := setMetrics fuel (adjacency pseudonyms edges) edges (roots pseudonyms edges)) (l := pseudonyms)
    (g := fun table p => Function.update table p (some (metrics pseudonyms edges p)))
    (s := fun _ => none) fun p _ s parent h => by
      obtain ⟨parent', hmetrics, h'⟩ := metricsOf_eq (p := p) hfuel h
      refine ⟨parent', ?_, h'⟩
      rw [setMetrics, hmetrics]
      rfl
  have hfold : ∀ (l : List Pseudonym) (table : Pseudonym → Option Metrics),
      l.foldl (fun table p => Function.update table p (some (metrics pseudonyms edges p))) table =
        fun p => if p ∈ l then some (metrics pseudonyms edges p) else table p := by
    intro l
    induction l with
    | nil => exact fun table => by simp
    | cons a l ih =>
      intro table
      rw [List.foldl_cons, ih]
      funext p
      by_cases hp : p = a
      · simp [hp]
      · simp [hp]
  rw [hfold] at htable
  rw [computeGraphAnalysis, hunions, Option.bind_eq_bind, Option.bind_some, hroots, Option.bind_eq_bind,
    Option.bind_some]
  dsimp only
  rw [← roots, htable]
  rfl

/-! ### What the metrics are -/

theorem root_of_communityId (hp : p ∈ pseudonyms) :
    (roots pseudonyms edges)[(metrics pseudonyms edges p).communityId]? = some (classes (ends edges) p) := by
  have hnode : p ∈ allNodes pseudonyms edges := mem_allNodes.2 (.inl hp)
  have hmem : classes (ends edges) p ∈ roots pseudonyms edges := by
    rw [roots, List.mem_insertionSort]
    exact (OrdSet.mem_foldl_add _).2 (.inr ⟨p, hnode, rfl⟩)
  obtain ⟨i, hi⟩ := Option.isSome_iff_exists.1 (List.isSome_idxOf?.2 hmem)
  obtain ⟨hlt, hat, -⟩ := List.idxOf?_eq_some_iff.1 hi
  rw [metrics, hi, Option.getD_some, List.getElem?_eq_getElem hlt, hat]

theorem communityId_eq_iff (hp : p ∈ pseudonyms) (hq : q ∈ pseudonyms) :
    (metrics pseudonyms edges p).communityId = (metrics pseudonyms edges q).communityId ↔
      (graph edges).Reachable p q := by
  have hroot : (roots pseudonyms edges)[_]? = _ := root_of_communityId hp
  have hroot' : (roots pseudonyms edges)[_]? = _ := root_of_communityId hq
  rw [← connected_ends_iff, ← classes_eq_iff]
  constructor
  · intro h
    rw [h, hroot'] at hroot
    exact (Option.some.inj hroot).symm
  · intro h
    rw [metrics, metrics, h]

theorem edgesAmongNeighbors_eq : (metrics pseudonyms edges p).edgesAmongNeighbors =
    {s ∈ (graph edges).edgeSet | ∀ q ∈ s, (graph edges).Adj p q}.ncard := by
  have hncard : edgesAmong edges _ = _ := edgesAmong_eq_ncard ((adjacency pseudonyms edges).neighborsOf p).nodup
  have hset : {s ∈ (graph edges).edgeSet | ∀ q ∈ s, q ∈ ((adjacency pseudonyms edges).neighborsOf p).members} =
      {s ∈ (graph edges).edgeSet | ∀ q ∈ s, (graph edges).Adj p q} := by
    refine Set.ext fun s => and_congr_right fun _ => forall₂_congr fun q _ => ?_
    exact mem_neighbors
  rw [← hset, ← hncard, metrics]
  dsimp only
  split
  · rfl
  · rename_i hfew
    -- a loop over one neighbour has no pair
    rw [OrdSet.size] at hfew
    rcases hmembers : ((adjacency pseudonyms edges).neighborsOf p).members with _ | ⟨x, _ | ⟨y, rest⟩⟩
    · rfl
    · rfl
    · rw [hmembers] at hfew
      exact absurd (by simp) hfew

/-! ### The law -/

/-- What a table of metrics has of the graph. -/
structure Correct (pseudonyms : List Pseudonym) (edges : List EdgeRow) (results : Pseudonym → Option Metrics) :
    Prop where
  defined : ∀ p, (results p).isSome = true ↔ p ∈ pseudonyms
  sameCommunity : ∀ p q m n, results p = some m → results q = some n →
    (m.communityId = n.communityId ↔ (graph edges).Reachable p q)
  /-- The communities are numbered by their least members. -/
  numbered : ∃ firsts : List Pseudonym, firsts.Pairwise (· < ·) ∧
    (∀ x, x ∈ firsts ↔ x ∈ allNodes pseudonyms edges ∧ ∀ y, (graph edges).Reachable x y → x ≤ y) ∧
    ∀ p m, results p = some m → ∃ x, firsts[m.communityId]? = some x ∧ (graph edges).Reachable p x
  numerator : ∀ p m, results p = some m →
    m.edgesAmongNeighbors = {s ∈ (graph edges).edgeSet | ∀ q ∈ s, (graph edges).Adj p q}.ncard

theorem metrics_correct :
    Correct pseudonyms edges fun p => if p ∈ pseudonyms then some (metrics pseudonyms edges p) else none := by
  have hread : ∀ {p m}, (if p ∈ pseudonyms then some (metrics pseudonyms edges p) else none) = some m →
      p ∈ pseudonyms ∧ metrics pseudonyms edges p = m := by
    intro p m h
    split at h
    · rename_i hp
      exact ⟨hp, Option.some.inj h⟩
    · cases h
  refine ⟨fun p => by simp, fun p q m n hm hn => ?_, ?_, fun p m hm => ?_⟩
  · obtain ⟨hp, rfl⟩ := hread hm
    obtain ⟨hq, rfl⟩ := hread hn
    exact communityId_eq_iff hp hq
  · refine ⟨roots pseudonyms edges, pairwise_roots, fun _ => mem_roots, fun p m hm => ?_⟩
    obtain ⟨hp, rfl⟩ := hread hm
    exact ⟨_, root_of_communityId hp, connected_ends_iff.1 ((classes_spec (ends edges)).1 p)⟩
  · obtain ⟨-, rfl⟩ := hread hm
    exact edgesAmongNeighbors_eq

variable {edges' : List EdgeRow}

theorem graph_perm (h : edges'.Perm edges) : graph edges' = graph edges := by
  ext p q
  exact exists_congr fun e => and_congr_left fun _ => h.mem_iff

theorem communityId_perm (h : edges'.Perm edges) :
    (metrics pseudonyms edges' p).communityId = (metrics pseudonyms edges p).communityId := by
  have hclasses : classes (ends edges') = classes (ends edges) := classes_congr fun _ => (h.map _).mem_iff
  have hroots : roots pseudonyms edges' = roots pseudonyms edges := by
    refine pairwise_roots.eq_of_mem_iff pairwise_roots fun x => ?_
    rw [mem_roots, mem_roots, graph_perm h, mem_allNodes, mem_allNodes]
    simp only [h.mem_iff]
  rw [metrics, metrics, hclasses, hroots]

/-- **The graph analysis is correct**: it terminates, its communities are the components of the graph numbered by their
least members, its numerators count the edges among the neighbours, and the order of the edges changes none of it. -/
theorem graph_analysis_correct (pseudonyms : List Pseudonym) (edges : List EdgeRow) : ∃ results,
    (∀ fuel, (allNodes pseudonyms edges).size < fuel → computeGraphAnalysis fuel pseudonyms edges = some results) ∧
    Correct pseudonyms edges results ∧
    ∀ edges' : List EdgeRow, edges'.Perm edges → ∃ results',
      (∀ fuel, (allNodes pseudonyms edges').size < fuel →
        computeGraphAnalysis fuel pseudonyms edges' = some results') ∧
      ∀ p, (results' p).map Metrics.communityId = (results p).map Metrics.communityId ∧
        (results' p).map Metrics.edgesAmongNeighbors = (results p).map Metrics.edgesAmongNeighbors := by
  refine ⟨_, fun _ => computeGraphAnalysis_eq, metrics_correct, fun edges' h =>
    ⟨_, fun _ => computeGraphAnalysis_eq, fun p => ?_⟩⟩
  by_cases hp : p ∈ pseudonyms
  · simp only [if_pos hp, Option.map_some, communityId_perm h, edgesAmongNeighbors_eq, graph_perm h, and_self]
  · simp only [if_neg hp, Option.map_none, and_self]

end Cello.Directory.GraphAnalysis
