import Mathlib.Data.List.Basic
import Mathlib.Data.List.Sort
import Mosaic.Proofs.Composition.Reachable

/-!
# The reachable nodes in post-order

An enumeration of the reachable nodes of a value: nodes nested in the data of a node
before the node itself, entries in document order, siblings in the order of their
indices. `Before` says this of places, without the enumeration.

* `nodesOf`: the enumeration, by recursion along nesting.
* `mem_nodesOf`: it lists the reachable nodes and nothing else.
* `pairwise_before_nodesOf`: it is sorted.
* `InPostorder.unique`: no other list is both.
-/

namespace Mosaic.Composition

/-! ## The order of places -/

/-- What lies below a place comes before it, and what lies below an earlier sibling
before what lies below a later one. -/
inductive Before : Place → Place → Prop
  | nested {i : Nat} {p : Place} : Before (i :: p) []
  | sibling {i j : Nat} {p q : Place} : i < j → Before (i :: p) (j :: q)
  | inside {i : Nat} {p q : Place} : Before p q → Before (i :: p) (i :: q)

namespace Before

/-- No place comes before itself. -/
theorem irrefl (p : Place) : ¬ Before p p := by
  induction p with
  | nil => intro h; cases h
  | cons i p ih =>
    intro h
    cases h with
    | sibling hlt => exact Nat.lt_irrefl i hlt
    | inside h => exact ih h

/-- Of two places only one comes before the other. -/
theorem asymm {p q : Place} (h : Before p q) : ¬ Before q p := by
  induction h with
  | nested => intro h; cases h
  | sibling hlt =>
    intro h
    cases h with
    | sibling hgt => exact Nat.lt_asymm hlt hgt
    | inside _ => exact Nat.lt_irrefl _ hlt
  | inside _ ih =>
    intro h
    cases h with
    | sibling hlt => exact Nat.lt_irrefl _ hlt
    | inside h => exact ih h

/-- Places below a common one are in the same order as seen from there. -/
theorem append_left {p q : Place} (h : Before p q) (r : Place) : Before (r ++ p) (r ++ q) := by
  induction r with
  | nil => exact h
  | cons i r ih => exact .inside ih

end Before

/-- `LeftOf p q`: the places branch off from each other, and `p` goes to the left. -/
inductive LeftOf : Place → Place → Prop
  | sibling {i j : Nat} {p q : Place} : i < j → LeftOf (i :: p) (j :: q)
  | inside {i : Nat} {p q : Place} : LeftOf p q → LeftOf (i :: p) (i :: q)

/-- Everything below the left one of two branches comes before everything below the
right one. -/
theorem LeftOf.before_append {p q : Place} (h : LeftOf p q) (a b : Place) :
    Before (p ++ a) (q ++ b) := by
  induction h with
  | sibling hlt => exact .sibling hlt
  | inside _ ih => exact .inside ih

/-! ## The enumeration -/

/-- The nodes that are reached through a node, in post-order: those below each of its
children, then the node itself. -/
def View.postorder (n : View) : List (Place × View) :=
  (n.children.attach.flatMap fun child =>
    child.1.2.postorder.map (under child.1.1)) ++ [([], n)]
termination_by sizeOf n.entries
decreasing_by exact (mem_children.mp child.2).sizeOf_lt

/-- The nodes that are reached through arrays, from left to right. -/
def roots : Json → List (Place × View)
  | .array items => items.zipIdx.attach.flatMap fun item =>
      (roots item.1.1).map (under [item.1.2])
  | value => nodeHere value
termination_by value => sizeOf value
decreasing_by
  have := List.sizeOf_lt_of_mem (List.fst_mem_of_mem_zipIdx item.2)
  simp only [Json.array.sizeOf_spec]
  omega

/-- The reachable nodes of a value, in post-order. -/
def nodesOf (v : Json) : List (Place × View) :=
  (roots v).flatMap fun root => root.2.postorder.map (under root.1)

private theorem flatMap_attach {α β : Type} (l : List α) (f : α → List β) :
    (l.attach.flatMap fun x => f x.1) = l.flatMap f := by
  rw [← List.flatMap_map Subtype.val f, List.attach_map_subtype_val]

/-- The nodes within a node come child by child, and the node itself comes last. -/
theorem View.postorder_eq (n : View) :
    n.postorder =
      (n.children.flatMap fun child => child.2.postorder.map (under child.1)) ++ [([], n)] := by
  rw [View.postorder, flatMap_attach n.children fun child =>
    child.2.postorder.map (under child.1)]

/-- The roots of an array are those of its elements, in their order. -/
theorem roots_array (items : List Json) :
    roots (.array items) =
      items.zipIdx.flatMap fun item => (roots item.1).map (under [item.2]) := by
  rw [roots, flatMap_attach items.zipIdx fun item => (roots item.1).map (under [item.2])]

/-- A value that is no array has one root at most. -/
theorem roots_of_not_array {value : Json} (h : ∀ items, value ≠ .array items) :
    roots value = nodeHere value := by
  rw [roots]
  exact h

/-! ## It lists the reachable nodes -/

/-- **The roots** are the nodes that one comes to through arrays only. -/
theorem mem_roots {v : Json} {p : Place} {n : View} :
    (p, n) ∈ roots v ↔ ∃ value, elementAt? v p = some value ∧ view? value = some n := by
  -- the place leads through nested arrays; what is no array is a node of its own, or nothing
  induction p generalizing v with
  | nil =>
    cases v using array_cases with
    | array items =>
      rw [roots_array, mem_flatMap_under]
      simp
    | other v hne =>
      rw [roots_of_not_array hne, mem_nodeHere]
      simp
  | cons i p ih =>
    cases v using array_cases with
    | array items =>
      rw [roots_array, mem_flatMap_under, elementAt?_array_cons]
      constructor
      · rintro ⟨_, _, item, heq, hitem, hn⟩
        obtain ⟨rfl, rfl⟩ := List.cons.inj heq
        rw [hitem]
        exact ih.mp hn
      · rintro ⟨value, hvalue, hview⟩
        obtain ⟨item, hitem, hvalue⟩ := Option.bind_eq_some_iff.mp hvalue
        exact ⟨i, p, item, rfl, hitem, ih.mpr ⟨value, hvalue, hview⟩⟩
    | other v hne =>
      rw [roots_of_not_array hne, mem_nodeHere, elementAt?_cons_eq_none hne]
      simp

/-- A node in the order of another one is this itself, or in the order of one that is nested in it.
-/
theorem mem_postorder {n m : View} {p : Place} :
    (p, m) ∈ n.postorder ↔
      (p = [] ∧ m = n) ∨ ∃ q k r, Nested n q k ∧ (r, m) ∈ k.postorder ∧ p = q ++ r := by
  rw [View.postorder_eq, List.mem_append, mem_flatMap_map_under, List.mem_singleton, or_comm,
    Prod.mk.injEq]
  simp only [mem_children]

/-- Whatever is listed below a reachable node is reachable. -/
theorem reachable_of_mem_postorder {v : Json} (n : View) :
    ∀ {p q : Place} {m : View}, Reachable v p n → (q, m) ∈ n.postorder →
      Reachable v (p ++ q) m := by
  induction n using View.nested_induction with
  | step n ih =>
    intro p q m hn hm
    -- `m` is the node itself, or it is listed below a child
    rcases mem_postorder.mp hm with ⟨rfl, rfl⟩ | ⟨q, k, r, hk, hr, rfl⟩
    · rw [List.append_nil]
      exact hn
    · rw [← List.append_assoc]
      exact ih q k hk (.nested hn hk) hr

/-- The nodes listed below a node are closed under nesting. -/
theorem mem_postorder_of_nested (n : View) :
    ∀ {p q : Place} {m k : View}, (p, m) ∈ n.postorder → Nested m q k →
      (p ++ q, k) ∈ n.postorder := by
  induction n using View.nested_induction with
  | step n ih =>
    intro p q m k hm hk
    rcases mem_postorder.mp hm with ⟨rfl, rfl⟩ | ⟨a, l, r, hl, hr, rfl⟩
    · exact mem_postorder.mpr (.inr ⟨q, k, [], hk, mem_postorder.mpr (.inl ⟨rfl, rfl⟩), by simp⟩)
    · rw [List.append_assoc]
      exact mem_postorder.mpr (.inr ⟨a, l, r ++ q, hl, ih a l hl hr hk, rfl⟩)

/-- A node of a composition is in the order of one of its roots. -/
theorem mem_nodesOf_iff {v : Json} {p : Place} {n : View} :
    (p, n) ∈ nodesOf v ↔ ∃ q m r, (q, m) ∈ roots v ∧ (r, n) ∈ m.postorder ∧ p = q ++ r := by
  rw [nodesOf, mem_flatMap_map_under]

/-- **The enumeration lists the reachable nodes and nothing else.** -/
theorem mem_nodesOf {v : Json} {p : Place} {n : View} :
    (p, n) ∈ nodesOf v ↔ Reachable v p n := by
  constructor
  · intro h
    obtain ⟨q, m, r, hm, hr, rfl⟩ := mem_nodesOf_iff.mp h
    obtain ⟨value, hvalue, hview⟩ := mem_roots.mp hm
    exact reachable_of_mem_postorder m (.top hvalue hview) hr
  · intro h
    induction h with
    | @top p value n hvalue hview =>
      -- a root is listed as the last node of its own part of the list
      exact mem_nodesOf_iff.mpr ⟨p, n, [], mem_roots.mpr ⟨value, hvalue, hview⟩,
        mem_postorder.mpr (.inl ⟨rfl, rfl⟩), (List.append_nil p).symm⟩
    | @nested p q n m _ hnested ih =>
      -- `m` is listed below the same root as `n`
      obtain ⟨a, k, r, hk, hr, rfl⟩ := mem_nodesOf_iff.mp ih
      exact mem_nodesOf_iff.mpr ⟨a, k, r ++ q, hk, mem_postorder_of_nested k hr hnested,
        List.append_assoc a r q⟩

/-! ## It is sorted -/

/-- Occurrences gathered from the parts of a list branch off from left to right if those
of each part do. -/
theorem pairwise_leftOf_flatMap {α : Type} {parts : List α} {f : α → List (Place × View)}
    (hparts : ∀ part ∈ parts, (f part).Pairwise fun a b => LeftOf a.1 b.1) :
    (parts.zipIdx.flatMap fun part => (f part.1).map (under [part.2])).Pairwise
      fun a b => LeftOf a.1 b.1 := by
  rw [List.pairwise_flatMap]
  constructor
  · -- within one part all places begin with its index
    rintro ⟨part, i⟩ hpart
    rw [List.pairwise_map]
    exact (hparts part (List.fst_mem_of_mem_zipIdx hpart)).imp .inside
  · -- those of two parts differ in their first index
    have hindex : (parts.zipIdx).Pairwise fun a b => a.2 < b.2 := by
      rw [← List.pairwise_map (f := Prod.snd) (R := (· < ·)), List.zipIdx_map_snd]
      exact List.pairwise_lt_range'
    refine hindex.imp ?_
    rintro ⟨a, i⟩ ⟨b, j⟩ hlt x hx y hy
    obtain ⟨x, -, rfl⟩ := List.mem_map.mp hx
    obtain ⟨y, -, rfl⟩ := List.mem_map.mp hy
    exact .sibling hlt

/-- Sorted lists hung up at places that branch off from left to right are sorted. -/
theorem pairwise_before_flatMap {places : List (Place × View)}
    {f : View → List (Place × View)} (hplaces : places.Pairwise fun a b => LeftOf a.1 b.1)
    (hf : ∀ o ∈ places, (f o.2).Pairwise fun a b => Before a.1 b.1) :
    (places.flatMap fun o => (f o.2).map (under o.1)).Pairwise
      fun a b => Before a.1 b.1 := by
  rw [List.pairwise_flatMap]
  constructor
  · intro o ho
    rw [List.pairwise_map]
    exact (hf o ho).imp fun h => h.append_left o.1
  · refine hplaces.imp ?_
    intro a b hab x hx y hy
    obtain ⟨x, -, rfl⟩ := List.mem_map.mp hx
    obtain ⟨y, -, rfl⟩ := List.mem_map.mp hy
    exact hab.before_append x.1 y.1

/-- There is one node at most in one place. -/
theorem pairwise_leftOf_nodeHere (value : Json) :
    (nodeHere value).Pairwise fun a b => LeftOf a.1 b.1 := by
  unfold nodeHere
  cases view? value with
  | none => exact List.Pairwise.nil
  | some n => exact List.pairwise_singleton _ _

/-- The nodes within a value come from left to right. -/
theorem pairwise_leftOf_nodesWithin (value : Json) :
    (nodesWithin value).Pairwise fun a b => LeftOf a.1 b.1 := by
  cases value with
  | array items => exact pairwise_leftOf_flatMap fun item _ => pairwise_leftOf_nodeHere item
  | _ => exact pairwise_leftOf_nodeHere _

/-- So do the children of a node. -/
theorem pairwise_leftOf_children (n : View) :
    n.children.Pairwise fun a b => LeftOf a.1 b.1 :=
  pairwise_leftOf_flatMap (f := fun entry : String × Json => nodesWithin entry.2) fun entry _ =>
    pairwise_leftOf_nodesWithin entry.2

/-- So do the roots of a composition. -/
theorem pairwise_leftOf_roots (v : Json) :
    (roots v).Pairwise fun a b => LeftOf a.1 b.1 := by
  induction v using array_induction with
  | array items ih =>
    rw [roots_array]
    exact pairwise_leftOf_flatMap ih
  | other v hne =>
    rw [roots_of_not_array hne]
    exact pairwise_leftOf_nodeHere v

/-- **The order of a node** is one in which each place comes before those that follow. -/
theorem pairwise_before_postorder (n : View) :
    n.postorder.Pairwise fun a b => Before a.1 b.1 := by
  induction n using View.nested_induction with
  | step n ih =>
    rw [View.postorder_eq, List.pairwise_append]
    refine ⟨?_, List.pairwise_singleton _ _, ?_⟩
    · exact pairwise_before_flatMap (pairwise_leftOf_children n) fun o ho =>
        ih o.1 o.2 (mem_children.mp ho)
    · -- what lies below a child lies below the node
      intro a ha b hb
      rw [List.mem_singleton] at hb
      subst hb
      obtain ⟨o, ho, ha⟩ := List.mem_flatMap.mp ha
      obtain ⟨a, -, rfl⟩ := List.mem_map.mp ha
      obtain ⟨i, q, hq⟩ := List.exists_cons_of_ne_nil (mem_children.mp ho).place_ne_nil
      show Before (o.1 ++ a.1) []
      rw [hq]
      exact .nested

/-- **The enumeration is in post-order.** -/
theorem pairwise_before_nodesOf (v : Json) :
    (nodesOf v).Pairwise fun a b => Before a.1 b.1 :=
  pairwise_before_flatMap (pairwise_leftOf_roots v) fun o _ => pairwise_before_postorder o.2

/-! ## There is only one such list -/

/-- A list of occurrences is the post-order list of a value if it holds the reachable
nodes and is sorted. -/
structure InPostorder (v : Json) (nodes : List (Place × View)) : Prop where
  sorted : nodes.Pairwise fun a b => Before a.1 b.1
  mem_iff : ∀ p n, (p, n) ∈ nodes ↔ Reachable v p n

/-- **The nodes of a composition** are listed in the order that the definition asks for. -/
theorem inPostorder_nodesOf (v : Json) : InPostorder v (nodesOf v) :=
  ⟨pairwise_before_nodesOf v, fun _ _ => mem_nodesOf⟩

namespace InPostorder

variable {v : Json} {nodes : List (Place × View)}

/-- No place is listed twice. -/
theorem nodup (h : InPostorder v nodes) : (nodes.map Prod.fst).Nodup := by
  rw [List.Nodup, List.pairwise_map]
  refine h.sorted.imp ?_
  intro a b hab heq
  rw [heq] at hab
  exact Before.irrefl _ hab

/-- There is no other such list. -/
theorem unique (h : InPostorder v nodes) : nodes = nodesOf v := by
  -- two sorted lists of the same elements are equal
  refine List.Perm.eq_of_pairwise ?_ h.sorted
    (pairwise_before_nodesOf v) ?_
  · intro a b _ _ hab hba
    exact absurd hba hab.asymm
  · refine (List.perm_ext_iff_of_nodup h.nodup.of_map
      (inPostorder_nodesOf v).nodup.of_map).mpr ?_
    rintro ⟨p, n⟩
    rw [h.mem_iff, mem_nodesOf]

end InPostorder

end Mosaic.Composition
