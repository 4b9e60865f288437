/-
**The order of the nodes of a form.**

A walk through a tree meets a node before the nodes below it, and of two siblings the first one with
all below it before the other.  That is an order of paths, whatever the tree is, and since no path
comes before itself, no node is met twice.

Main definitions:

* `EdnSpans.NodePath.Precedes` — one path comes **before another in pre-order**.

Main results:

* `EdnSpans.NodePath.Precedes.ne` — no path comes before itself;
* `EdnSpans.Form.nodes_ordered` — **the nodes of a form are listed in this order**.
-/
import EdnSpans.Proofs.Form.Nodes

set_option relaxedAutoImplicit false
set_option autoImplicit false

namespace EdnSpans

/-! ### The order of paths -/

/-- One path comes before another in pre-order. -/
inductive NodePath.Precedes : NodePath → NodePath → Prop
  /-- A node comes before all nodes below it. -/
  | above (path : NodePath) (i : Nat) (down : NodePath) : Precedes path (path ++ i :: down)
  /-- Of two siblings, the first one with all nodes below it comes before the other. -/
  | beside (path : NodePath) {i j : Nat} (h : i < j) (down down' : NodePath) :
      Precedes (path ++ i :: down) (path ++ j :: down')

/-- No path comes before itself. -/
theorem NodePath.Precedes.ne {p q : NodePath} (h : Precedes p q) : p ≠ q := by
  intro heq
  cases h with
  | above i down => simp at heq
  | beside path hlt down down' =>
      have hcons := List.append_cancel_left heq
      have hindex := (List.cons.inj hcons).1
      omega

namespace Form

/-! ### The nodes in their order -/

theorem exists_below_of_mem_nodesAt {f : Form} {p : NodePath} {x : NodePath × Form}
    (h : x ∈ nodesAt p f) : ∃ down, x.1 = p ++ down := by
  obtain ⟨path, g⟩ := x
  obtain ⟨down, hpath, -⟩ := mem_nodesAt_iff.1 h
  exact ⟨down, hpath⟩

theorem exists_below_of_mem_nodesFrom {cs : List Form} {p : NodePath} {index : Nat}
    {x : NodePath × Form} (h : x ∈ nodesFrom p index cs) :
    ∃ i down, index ≤ i ∧ x.1 = p ++ i :: down := by
  obtain ⟨path, g⟩ := x
  obtain ⟨j, down, hpath, -⟩ := (mem_nodesFrom_iff fun c _ p => mem_nodesAt_iff).1 h
  exact ⟨index + j, down, Nat.le_add_right _ _, hpath⟩

theorem nodesFrom_ordered {cs : List Form}
    (ih : ∀ c ∈ cs, ∀ p, (nodesAt p c).Pairwise fun x y => NodePath.Precedes x.1 y.1)
    (p : NodePath) (index : Nat) :
    (nodesFrom p index cs).Pairwise fun x y => NodePath.Precedes x.1 y.1 := by
  induction cs generalizing index with
  | nil => exact .nil
  | cons c cs ihcs =>
      rw [nodesFrom, List.pairwise_append]
      refine ⟨ih c (List.mem_cons_self ..) _,
        ihcs (fun d hd => ih d (List.mem_cons_of_mem _ hd)) _, ?_⟩
      intro x hx y hy
      obtain ⟨down, hpath⟩ := exists_below_of_mem_nodesAt hx
      obtain ⟨j, down', hle, hpath'⟩ := exists_below_of_mem_nodesFrom hy
      rw [hpath, hpath', NodePath.child, List.append_assoc]
      exact .beside p (by omega) down down'

theorem nodesAt_ordered (f : Form) (p : NodePath) :
    (nodesAt p f).Pairwise fun x y => NodePath.Precedes x.1 y.1 := by
  induction f using Form.induct generalizing p with
  | atom s m =>
      rw [nodesAt]
      exact List.pairwise_singleton ..
  | node kind cs m ih =>
      rw [nodesAt, List.pairwise_cons]
      refine ⟨?_, nodesFrom_ordered ih p 0⟩
      intro y hy
      obtain ⟨i, down, -, hpath⟩ := exists_below_of_mem_nodesFrom hy
      rw [hpath]
      exact .above p i down

/-- The nodes of a form are listed **in pre-order**. -/
theorem nodes_ordered (f : Form) : f.nodes.Pairwise fun x y => NodePath.Precedes x.1 y.1 :=
  f.nodesAt_ordered []

end Form

end EdnSpans
