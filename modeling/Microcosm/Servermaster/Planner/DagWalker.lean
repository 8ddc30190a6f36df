import Mathlib.Data.List.Chain
import Mathlib.Data.List.Nodup
import Mathlib.Logic.Relation
import Microcosm.Library.Loop

/-!
# The DAG walker of the planner

`DAGWalker.Walk` of `servermaster/planner/util/dag_walker.go` walks the nodes reachable
from the root of a `model.DAG` depth first and calls `onVertex` on each. `doWalk` panics
on a nil node, returns at once on a node whose ID it has visited, fails when the depth
exceeds `maximalDepth`, calls `onVertex`, records the ID as visited, and then walks the
outputs in order at the next depth, returning the first error.

The nodes are objects of a heap `Nat → Node`: a `*model.Node` is an address or `none` for
nil, so that shared nodes and cycles are what they are in the code. `onVertex` is a
callback with its own state: it is a function of the calls made so far, which the walk
records in `calls`. The measure of the recursion is the depth budget `maximalDepth + 1 -
depth`, which the depth check bounds, so the walk is total for every graph.
-/

namespace Microcosm

namespace Servermaster

namespace Planner

/-- `model.NodeID`. -/
abbrev NodeID := Int32

/-- `model.Node`: its ID and its outputs, each the address of a node or `none` for nil. -/
structure Node where
  id : NodeID
  outputs : List (Option Nat)
  deriving DecidableEq, Repr

/-- The node objects, by address. -/
abbrev Heap := Nat → Node

/-- `model.DAG`: the address of its root, `none` for nil. -/
structure DAG where
  root : Option Nat
  deriving DecidableEq, Repr

/-- The errors of `Walk`. -/
inductive WalkError (ε : Type*)
  /-- The panic `unexpected nil node`. -/
  | unexpectedNilNode
  /-- `ErrPlannerDAGDepthExceeded`, with the depth reached. -/
  | depthExceeded (depth : Nat)
  /-- An error of `onVertex`. -/
  | vertex (err : ε)
  deriving DecidableEq, Repr

/-- `DAGWalker`, by its callback and its depth limit. -/
structure DAGWalker (ε : Type*) where
  onVertex : List Nat → Nat → Except ε Unit
  maximalDepth : Int

/-- `defaultMaximalDepth`. -/
def defaultMaximalDepth : Int := 100

/-- `NewDAGWalker`. -/
def newDAGWalker {ε : Type*} (onVertex : List Nat → Nat → Except ε Unit) : DAGWalker ε :=
  ⟨onVertex, defaultMaximalDepth⟩

/-- The state of a walk: the `visited` map of the walker as the list of IDs it holds, and
the `onVertex` calls made so far. -/
structure WalkState where
  visited : List NodeID
  calls : List Nat
  deriving DecidableEq, Repr

variable {ε : Type*}

/-- `doWalk`. -/
def doWalk (w : DAGWalker ε) (heap : Heap) (s : WalkState) (node : Option Nat) (depth : Nat) :
    WalkState × Except (WalkError ε) Unit :=
  match node with
  | none => (s, .error .unexpectedNilNode)
  | some p =>
      if (heap p).id ∈ s.visited then (s, .ok ())
      else if _h : (depth : Int) > w.maximalDepth then (s, .error (.depthExceeded depth))
      else
        match w.onVertex s.calls p with
        | .error err => (⟨s.visited, s.calls ++ [p]⟩, .error (.vertex err))
        | .ok () =>
            Loop.forEach (fun next t => doWalk w heap t next (depth + 1)) (heap p).outputs
              ⟨s.visited ++ [(heap p).id], s.calls ++ [p]⟩
termination_by (w.maximalDepth + 1 - depth).toNat
decreasing_by omega

/-- `Walk`: from an empty `visited` map, at depth `0`. -/
def walk (w : DAGWalker ε) (heap : Heap) (dag : DAG) : WalkState × Except (WalkError ε) Unit :=
  doWalk w heap ⟨[], []⟩ dag.root 0

/-! ## One call of `doWalk`, branch by branch -/

section Unfold

variable (w : DAGWalker ε) (heap : Heap) (s : WalkState) (depth : Nat) {p : Nat}

@[simp] theorem doWalk_none : doWalk w heap s none depth = (s, .error .unexpectedNilNode) := by
  rw [doWalk]

theorem doWalk_visited (hv : (heap p).id ∈ s.visited) :
    doWalk w heap s (some p) depth = (s, .ok ()) := by
  rw [doWalk, if_pos hv]

theorem doWalk_depthExceeded (hv : (heap p).id ∉ s.visited)
    (hd : (depth : Int) > w.maximalDepth) :
    doWalk w heap s (some p) depth = (s, .error (.depthExceeded depth)) := by
  rw [doWalk, if_neg hv, dif_pos hd]

theorem doWalk_vertex_error (hv : (heap p).id ∉ s.visited)
    (hd : ¬(depth : Int) > w.maximalDepth) {err : ε} (he : w.onVertex s.calls p = .error err) :
    doWalk w heap s (some p) depth = (⟨s.visited, s.calls ++ [p]⟩, .error (.vertex err)) := by
  rw [doWalk, if_neg hv, dif_neg hd, he]

theorem doWalk_fresh (hv : (heap p).id ∉ s.visited) (hd : ¬(depth : Int) > w.maximalDepth)
    (he : w.onVertex s.calls p = .ok ()) :
    doWalk w heap s (some p) depth =
      Loop.forEach (fun next t => doWalk w heap t next (depth + 1)) (heap p).outputs
        ⟨s.visited ++ [(heap p).id], s.calls ++ [p]⟩ := by
  rw [doWalk, if_neg hv, dif_neg hd, he]

end Unfold

/-! ## What every call of `doWalk` does

Whatever the outcome, a call only adds to the visited IDs and to the calls, and it calls
`onVertex` only on nodes reachable from the node it starts at. -/

/-- `t` extends `s`: the visited IDs and the calls of `s` are prefixes of those of `t`. -/
def Grows (s t : WalkState) : Prop :=
  s.visited <+: t.visited ∧ s.calls <+: t.calls

theorem Grows.refl (s : WalkState) : Grows s s :=
  ⟨List.prefix_refl _, List.prefix_refl _⟩

theorem Grows.trans {a b c : WalkState} (hab : Grows a b) (hbc : Grows b c) : Grows a c :=
  ⟨hab.1.trans hbc.1, hab.2.trans hbc.2⟩

theorem grows_record (s : WalkState) (id : NodeID) (p : Nat) :
    Grows s ⟨s.visited ++ [id], s.calls ++ [p]⟩ :=
  ⟨List.prefix_append _ _, List.prefix_append _ _⟩

variable (w : DAGWalker ε) (heap : Heap)

theorem grows_doWalk (s : WalkState) (node : Option Nat) (depth : Nat) :
    Grows s (doWalk w heap s node depth).1 := by
  induction s, node, depth using doWalk.induct w heap with
  | case1 s depth => rw [doWalk_none]; exact Grows.refl s
  | case2 s depth p hv => rw [doWalk_visited w heap s depth hv]; exact Grows.refl s
  | case3 s depth p hv hd => rw [doWalk_depthExceeded w heap s depth hv hd]; exact Grows.refl s
  | case4 s depth p hv hd err he =>
      rw [doWalk_vertex_error w heap s depth hv hd he]
      exact ⟨List.prefix_refl _, List.prefix_append _ _⟩
  | case5 s depth p hv hd he ih =>
      rw [doWalk_fresh w heap s depth hv hd he]
      exact (grows_record s _ p).trans
        (Loop.forEach_fst_rel Grows.refl Grows.trans (fun next _ t => ih next t) _)

/-- `q` is an output of `p`. -/
def Edge (p q : Nat) : Prop :=
  some q ∈ (heap p).outputs

/-- Every node `onVertex` has been called on is reachable from `r`. -/
def CallsFrom (r : Nat) (s : WalkState) : Prop :=
  ∀ q ∈ s.calls, Relation.ReflTransGen (Edge heap) r q

theorem callsFrom_record {r : Nat} {s : WalkState} (hs : CallsFrom heap r s)
    (visited : List NodeID) {p : Nat} (hp : Relation.ReflTransGen (Edge heap) r p) :
    CallsFrom heap r ⟨visited, s.calls ++ [p]⟩ := by
  intro q hq
  rcases List.mem_append.1 hq with hq | hq
  · exact hs q hq
  · rw [List.mem_singleton.1 hq]
    exact hp

/-- A walk from a node reachable from `r` calls `onVertex` only on nodes reachable from
`r`, whatever the outcome. -/
theorem callsFrom_doWalk {r : Nat} (s : WalkState) (node : Option Nat) (depth : Nat)
    (hnode : ∀ p, node = some p → Relation.ReflTransGen (Edge heap) r p)
    (hs : CallsFrom heap r s) : CallsFrom heap r (doWalk w heap s node depth).1 := by
  induction s, node, depth using doWalk.induct w heap with
  | case1 s depth => rw [doWalk_none]; exact hs
  | case2 s depth p hv => rw [doWalk_visited w heap s depth hv]; exact hs
  | case3 s depth p hv hd => rw [doWalk_depthExceeded w heap s depth hv hd]; exact hs
  | case4 s depth p hv hd err he =>
      rw [doWalk_vertex_error w heap s depth hv hd he]
      exact callsFrom_record heap hs s.visited (hnode p rfl)
  | case5 s depth p hv hd he ih =>
      rw [doWalk_fresh w heap s depth hv hd he]
      refine Loop.forEach_fst_inv (fun next hnext t ht => ih next t ?_ ht)
        (callsFrom_record heap hs _ (hnode p rfl))
      -- each output of `p` is reachable through `p`
      rintro q rfl
      exact (hnode p rfl).tail hnext

/-! ## What a walk that returns leaves

On a walk that returns without error, the visited IDs are the IDs of the calls, with no
repetition, and every node the walk calls has the IDs of its outputs visited at the end:
`doWalk` visits every output before it returns. -/

/-- The visited IDs are the IDs of the nodes called, in order and each once. -/
def VisitedCalls (s : WalkState) : Prop :=
  s.visited = s.calls.map (fun q => (heap q).id) ∧ s.visited.Nodup

theorem visitedCalls_empty : VisitedCalls heap ⟨[], []⟩ :=
  ⟨rfl, List.nodup_nil⟩

theorem visitedCalls_record {s : WalkState} (hs : VisitedCalls heap s) {p : Nat}
    (hv : (heap p).id ∉ s.visited) :
    VisitedCalls heap ⟨s.visited ++ [(heap p).id], s.calls ++ [p]⟩ := by
  refine ⟨by simp [hs.1], ?_⟩
  rw [← List.concat_eq_append]
  exact List.Nodup.concat hv hs.2

/-- The IDs of the outputs of `q` are visited in `t`. -/
def OutputsVisited (q : Nat) (t : WalkState) : Prop :=
  ∀ r, some r ∈ (heap q).outputs → (heap r).id ∈ t.visited

/-- `t` extends `s`, and every node called in `t` and not in `s` has its outputs
visited. -/
def Covers (s t : WalkState) : Prop :=
  Grows s t ∧ ∀ q ∈ t.calls, q ∉ s.calls → OutputsVisited heap q t

theorem Covers.refl (s : WalkState) : Covers heap s s :=
  ⟨Grows.refl s, fun _ hq hq' => absurd hq hq'⟩

theorem OutputsVisited.mono {q : Nat} {s t : WalkState} (h : OutputsVisited heap q s)
    (hst : Grows s t) : OutputsVisited heap q t :=
  fun r hr => hst.1.subset (h r hr)

theorem Covers.trans {a b c : WalkState} (hab : Covers heap a b) (hbc : Covers heap b c) :
    Covers heap a c := by
  refine ⟨hab.1.trans hbc.1, fun q hqc hqa => ?_⟩
  by_cases hqb : q ∈ b.calls
  · exact (hab.2 q hqb hqa).mono heap hbc.1
  · exact hbc.2 q hqc hqb

/-- The postcondition of a walk that returns: the visited IDs are still those of the calls,
the walk covers what it called, and the node it started at is visited. -/
theorem doWalk_eq_ok {s s' : WalkState} {node : Option Nat} {depth : Nat}
    (h : doWalk w heap s node depth = (s', .ok ())) (hs : VisitedCalls heap s) :
    VisitedCalls heap s' ∧ Covers heap s s' ∧
      ∀ p, node = some p → (heap p).id ∈ s'.visited := by
  induction s, node, depth using doWalk.induct w heap generalizing s' with
  | case1 s depth =>
      rw [doWalk_none] at h
      cases h
  | case2 s depth p hv =>
      rw [doWalk_visited w heap s depth hv] at h
      cases h
      exact ⟨hs, Covers.refl heap s, fun q hq => by cases hq; exact hv⟩
  | case3 s depth p hv hd =>
      rw [doWalk_depthExceeded w heap s depth hv hd] at h
      cases h
  | case4 s depth p hv hd err he =>
      rw [doWalk_vertex_error w heap s depth hv hd he] at h
      cases h
  | case5 s depth p hv hd he ih =>
      rw [doWalk_fresh w heap s depth hv hd he] at h
      -- the outputs of `p` are walked from the state that records `p`
      obtain ⟨hs', hcov, hout⟩ := Loop.forEach_eq_ok (Covers.refl heap) (Covers.trans heap)
        (Q := fun next t => ∀ r, next = some r → (heap r).id ∈ t.visited)
        (fun hq hab r hr => hab.1.1.subset (hq r hr))
        (fun next _ t t' ht hnext => ih next t hnext ht)
        h (visitedCalls_record heap hs hv)
      refine ⟨hs', ⟨(grows_record s _ p).trans hcov.1, fun q hq hqs => ?_⟩, ?_⟩
      · by_cases hqr : q ∈ s.calls ++ [p]
        · -- a node called here and not before is `p` itself
          have hqp : q = p := by simpa [hqs] using hqr
          subst hqp
          exact fun r hr => hout (some r) hr r rfl
        · exact hcov.2 q hq hqr
      · rintro q ⟨⟩
        exact hcov.1.1.subset (by simp)

/-! ## When the walk returns

The depth of a call is the length of the stack of calls above it, whose nodes are all
visited. A node that is not visited is not on the stack, so the stack and the node form a
simple path from the root. When no simple path is longer than `maximalDepth`, the depth
check never fails. -/

/-- `path` starts at `r` and follows outputs. -/
def IsPathFrom (r : Nat) (path : List Nat) : Prop :=
  path.head? = some r ∧ path.IsChain (Edge heap)

theorem IsPathFrom.snoc {r p q : Nat} {stack : List Nat}
    (h : IsPathFrom heap r (stack ++ [p])) (hpq : Edge heap p q) :
    IsPathFrom heap r (stack ++ [p] ++ [q]) := by
  refine ⟨by simpa using h.1, h.2.append (List.isChain_singleton q) ?_⟩
  intro x hx y hy
  simp only [List.getLast?_append, List.getLast?_singleton, Option.some_or,
    Option.mem_def, Option.some.injEq, List.head?_cons] at hx hy
  rw [← hx, ← hy]
  exact hpq

/-- Every node of a path from `r` is reachable from `r`. -/
theorem IsPathFrom.reach {r : Nat} {path : List Nat} (h : IsPathFrom heap r path) :
    ∀ q ∈ path, Relation.ReflTransGen (Edge heap) r q := by
  refine List.IsChain.induction _ path h.2 (fun _ _ hxy hx => hx.tail hxy) fun hne => ?_
  obtain ⟨a, l, rfl⟩ := List.exists_cons_of_ne_nil hne
  have ha : a = r := Option.some.inj h.1
  subst ha
  exact .refl

/-- Every simple path from `r` has at most `d` edges. -/
def SimplePathsBounded (r : Nat) (d : Int) : Prop :=
  ∀ path, IsPathFrom heap r path → path.Nodup → (path.length : Int) - 1 ≤ d

/-- No node reachable from `r` has a nil output. -/
def NoNilOutputs (r : Nat) : Prop :=
  ∀ p, Relation.ReflTransGen (Edge heap) r p → none ∉ (heap p).outputs

/-- A node whose ID is not visited extends a stack of visited nodes without repetition. -/
theorem nodup_snoc_of_visited {stack : List Nat} {visited : List NodeID} {p : Nat}
    (hstack : stack.Nodup) (hvisited : ∀ q ∈ stack, (heap q).id ∈ visited)
    (hv : (heap p).id ∉ visited) : (stack ++ [p]).Nodup := by
  have hp : p ∉ stack := fun hp => hv (hvisited p hp)
  rw [← List.concat_eq_append]
  exact List.Nodup.concat hp hstack

section Returns

variable {w heap} {r : Nat} (hnil : NoNilOutputs heap r)
  (hpaths : SimplePathsBounded heap r w.maximalDepth)
  (hvertex : ∀ calls p, w.onVertex calls p = .ok ())
include hnil hpaths hvertex

/-- A walk at a node reachable from `r`, below a stack of visited nodes that forms a simple
path from `r` to it, returns without error. -/
theorem doWalk_ok_of_paths (s : WalkState) (node : Option Nat) (depth : Nat) {p₀ : Nat}
    (hnode : node = some p₀) (hreach : Relation.ReflTransGen (Edge heap) r p₀)
    (stack : List Nat) (hpath : IsPathFrom heap r (stack ++ [p₀])) (hdepth : stack.length = depth)
    (hstack : stack.Nodup) (hvisited : ∀ q ∈ stack, (heap q).id ∈ s.visited) :
    (doWalk w heap s node depth).2 = .ok () := by
  induction s, node, depth using doWalk.induct w heap generalizing p₀ stack with
  | case1 s depth => cases hnode
  | case2 s depth p hv => rw [doWalk_visited w heap s depth hv]
  | case3 s depth p hv hd =>
      obtain rfl := Option.some.inj hnode
      -- `p` is not on the stack, whose nodes are visited: the path is simple
      have hlen := hpaths _ hpath (nodup_snoc_of_visited heap hstack hvisited hv)
      simp only [List.length_append, List.length_singleton] at hlen
      omega
  | case4 s depth p hv hd err he => rw [hvertex] at he; cases he
  | case5 s depth p hv hd he ih =>
      obtain rfl := Option.some.inj hnode
      rw [doWalk_fresh w heap s depth hv hd he]
      -- each output is walked below the stack extended by `p`, whose nodes stay visited
      refine (Loop.forEach_ok_of
        (P := fun t => ∀ q ∈ stack ++ [p], (heap q).id ∈ t.visited) ?_ ?_).1
      · intro next hnext t ht
        obtain ⟨q, rfl⟩ : ∃ q, next = some q := by
          cases next with
          | none => exact absurd hnext (hnil p hreach)
          | some q => exact ⟨q, rfl⟩
        refine ⟨ih (some q) t rfl (hreach.tail hnext) (stack ++ [p]) (hpath.snoc heap hnext)
          (by simp [hdepth]) (nodup_snoc_of_visited heap hstack hvisited hv) ht, fun x hx => ?_⟩
        exact (grows_doWalk w heap t (some q) (depth + 1)).1.subset (ht x hx)
      · intro q hq
        rcases List.mem_append.1 hq with hq | hq
        · exact List.mem_append_left _ (hvisited q hq)
        · rw [List.mem_singleton.1 hq]
          exact List.mem_append_right _ (List.mem_singleton_self _)

end Returns

/-! ## The walk from the root -/

section Walk

variable {w heap} {dag : DAG} {r : Nat}

theorem isPathFrom_root (r : Nat) : IsPathFrom heap r ([] ++ [r]) :=
  ⟨rfl, List.isChain_singleton r⟩

/-- A walk from the root calls `onVertex` only on nodes reachable from the root, whatever
the outcome. -/
theorem callsFrom_walk (hroot : dag.root = some r) : CallsFrom heap r (walk w heap dag).1 := by
  unfold walk
  refine callsFrom_doWalk w heap _ _ _ (fun p hp => ?_) (fun q hq => by cases hq)
  rw [hroot] at hp
  cases hp
  exact .refl

/-- A walk from the root that returns calls `onVertex` at most once for each ID, has
visited the root, and has visited the IDs of the outputs of every node it called. -/
theorem walk_eq_ok {s' : WalkState} (hroot : dag.root = some r)
    (h : walk w heap dag = (s', .ok ())) :
    VisitedCalls heap s' ∧ (heap r).id ∈ s'.visited ∧
      ∀ q ∈ s'.calls, OutputsVisited heap q s' := by
  obtain ⟨hs', hcov, hroot'⟩ := doWalk_eq_ok w heap h (visitedCalls_empty heap)
  exact ⟨hs', hroot' r hroot, fun q hq => hcov.2 q hq (by simp)⟩

/-- Where distinct reachable nodes have distinct IDs, a reachable node whose ID a walk has
visited, with the visited IDs those of its calls on reachable nodes, has been called. -/
theorem mem_calls_of_visited {s : WalkState} (hs : VisitedCalls heap s) (hfrom : CallsFrom heap r s)
    (hunique : ∀ p q, Relation.ReflTransGen (Edge heap) r p →
      Relation.ReflTransGen (Edge heap) r q → (heap p).id = (heap q).id → p = q)
    {p : Nat} (hp : Relation.ReflTransGen (Edge heap) r p) (hv : (heap p).id ∈ s.visited) :
    p ∈ s.calls := by
  rw [hs.1, List.mem_map] at hv
  obtain ⟨c, hc, hcp⟩ := hv
  rw [← hunique c p (hfrom c hc) hp hcp]
  exact hc

/-- Where distinct reachable nodes have distinct IDs, a walk from the root that returns has
called `onVertex` exactly on the nodes reachable from the root. -/
theorem walk_calls_iff_reachable {s' : WalkState} (hroot : dag.root = some r)
    (h : walk w heap dag = (s', .ok ()))
    (hunique : ∀ p q, Relation.ReflTransGen (Edge heap) r p →
      Relation.ReflTransGen (Edge heap) r q → (heap p).id = (heap q).id → p = q)
    (p : Nat) : p ∈ s'.calls ↔ Relation.ReflTransGen (Edge heap) r p := by
  have hfrom : CallsFrom heap r (walk w heap dag).1 := callsFrom_walk hroot
  rw [h] at hfrom
  obtain ⟨hs', hr, hout⟩ := walk_eq_ok hroot h
  refine ⟨hfrom p, fun hp => ?_⟩
  -- along a path from the root, each node is called, so its outputs are visited
  induction hp with
  | refl => exact mem_calls_of_visited hs' hfrom hunique .refl hr
  | tail hq hedge ih =>
      exact mem_calls_of_visited hs' hfrom hunique (hq.tail hedge) (hout _ ih _ hedge)

/-- A walk from the root returns without error when no reachable node has a nil output, no
simple path from the root is longer than `maximalDepth` and `onVertex` never fails. -/
theorem walk_ok_of_paths (hroot : dag.root = some r) (hnil : NoNilOutputs heap r)
    (hpaths : SimplePathsBounded heap r w.maximalDepth)
    (hvertex : ∀ calls p, w.onVertex calls p = .ok ()) : (walk w heap dag).2 = .ok () :=
  doWalk_ok_of_paths hnil hpaths hvertex _ _ _ hroot .refl [] (isPathFrom_root r) rfl
    List.nodup_nil (fun q hq => by cases hq)

end Walk

/-- Two distinct nodes of one ID below the root: `1` and `2` both have the ID `1`, and
only `2` has an output, the node `3` of ID `2`. -/
def sharedIDHeap : Heap
  | 0 => ⟨0, [some 1, some 2]⟩
  | 1 => ⟨1, []⟩
  | 2 => ⟨1, [some 3]⟩
  | _ => ⟨2, []⟩

/-- The graph of the walker's tests: the root `0` with the outputs `1` and `2`, which share
the output `3`. -/
def simpleHeap : Heap
  | 0 => ⟨0, [some 1, some 2]⟩
  | 1 => ⟨1, [some 3]⟩
  | 2 => ⟨2, [some 3]⟩
  | _ => ⟨3, []⟩

theorem le_three_of_edge_simpleHeap {p q : Nat} (h : Edge simpleHeap p q) : q ≤ 3 := by
  unfold Edge simpleHeap at h
  split at h <;> simp at h <;> omega

theorem le_three_of_reach_simpleHeap {p : Nat}
    (h : Relation.ReflTransGen (Edge simpleHeap) 0 p) : p ≤ 3 := by
  induction h with
  | refl => omega
  | tail _ hedge _ => exact le_three_of_edge_simpleHeap hedge

/-- No simple path of `simpleHeap` leaves the four nodes `0` to `3`. -/
theorem simplePathsBounded_simpleHeap : SimplePathsBounded simpleHeap 0 defaultMaximalDepth := by
  intro path hpath hnodup
  have hsub : path ⊆ List.range 4 := fun q hq =>
    List.mem_range.2
      (Nat.lt_succ_of_le (le_three_of_reach_simpleHeap (hpath.reach simpleHeap q hq)))
  have hlen := List.Nodup.length_le_of_subset hnodup hsub
  rw [List.length_range] at hlen
  unfold defaultMaximalDepth
  omega

end Planner

end Servermaster

end Microcosm
