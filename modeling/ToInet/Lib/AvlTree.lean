import Mathlib.Data.List.Basic
import Mathlib.Data.Nat.Fib.Basic
import Mathlib.Tactic.Linarith

-- Search trees whose nodes carry a balance factor and the size of their subtree.
namespace ToInet.Lib

inductive AvlTree (α : Type*) where
  | nil
  | node (elem : α) (balance : Int) (size : Nat) (p0 p1 : AvlTree α)

namespace AvlTree

variable {α : Type*}

def toList : AvlTree α → List α
  | nil => []
  | node elem _ _ p0 p1 => p0.toList ++ elem :: p1.toList

def nodes : AvlTree α → Nat
  | nil => 0
  | node _ _ _ p0 p1 => p0.nodes + p1.nodes + 1

def height : AvlTree α → Nat
  | nil => 0
  | node _ _ _ p0 p1 => max p0.height p1.height + 1

def balance : AvlTree α → Int
  | nil => 0
  | node _ balance _ _ _ => balance

def size : AvlTree α → Nat
  | nil => 0
  | node _ _ size _ _ => size

-- A direction is false for the smaller elements and true for the greater ones.
def child (dir : Bool) : AvlTree α → AvlTree α
  | nil => nil
  | node _ _ _ p0 p1 => if dir then p1 else p0

def setChild (dir : Bool) : AvlTree α → AvlTree α → AvlTree α
  | nil, _ => nil
  | node elem balance size p0 p1, c =>
      if dir then node elem balance size p0 c else node elem balance size c p1

def setBalance (balance : Int) : AvlTree α → AvlTree α
  | nil => nil
  | node elem _ size p0 p1 => node elem balance size p0 p1

def setSize (size : Nat) : AvlTree α → AvlTree α
  | nil => nil
  | node elem balance _ p0 p1 => node elem balance size p0 p1

-- A node with its child in a direction and its other child.
def link (dir : Bool) (elem : α) (balance : Int) (size : Nat) (near far : AvlTree α) : AvlTree α :=
  if dir then node elem balance size far near else node elem balance size near far

-- What the balance of a node gains where its child in the direction gets lower.
def sign (dir : Bool) : Int := if dir then -1 else 1

-- Balance factors tell the heights apart, which differ by one at most, and sizes are exact.
def Avl : AvlTree α → Prop
  | nil => True
  | node _ balance size p0 p1 =>
      p0.Avl ∧ p1.Avl ∧ balance = p1.height - p0.height ∧ -1 ≤ balance ∧ balance ≤ 1 ∧
        size = p0.nodes + p1.nodes + 1

section link

variable {dir : Bool} {elem : α} {b : Int} {s : Nat} {near far : AvlTree α}

@[simp] theorem balance_link : (link dir elem b s near far).balance = b := by cases dir <;> rfl

@[simp] theorem size_link : (link dir elem b s near far).size = s := by cases dir <;> rfl

@[simp] theorem child_link : (link dir elem b s near far).child dir = near := by cases dir <;> rfl

@[simp] theorem child_not_link : (link dir elem b s near far).child (!dir) = far := by cases dir <;> rfl

@[simp] theorem setBalance_link (c : Int) :
    (link dir elem b s near far).setBalance c = link dir elem c s near far := by cases dir <;> rfl

@[simp] theorem setSize_link (n : Nat) :
    (link dir elem b s near far).setSize n = link dir elem b n near far := by cases dir <;> rfl

@[simp] theorem setChild_link (c : AvlTree α) :
    (link dir elem b s near far).setChild dir c = link dir elem b s c far := by cases dir <;> rfl

@[simp] theorem setChild_not_link (c : AvlTree α) :
    (link dir elem b s near far).setChild (!dir) c = link dir elem b s near c := by cases dir <;> rfl

theorem link_not : link (!dir) elem b s near far = link dir elem b s far near := by cases dir <;> rfl

@[simp] theorem height_link : (link dir elem b s near far).height = max near.height far.height + 1 := by
  cases dir
  · rfl
  · simp [link, height, max_comm]

@[simp] theorem nodes_link : (link dir elem b s near far).nodes = near.nodes + far.nodes + 1 := by
  cases dir
  · rfl
  · simp [link, nodes, Nat.add_comm]

theorem toList_link : (link dir elem b s near far).toList =
    (if dir then far.toList ++ [elem] else []) ++ near.toList ++ if dir then [] else elem :: far.toList := by
  cases dir <;> simp [link, toList]

@[simp] theorem sign_not : sign (!dir) = -sign dir := by cases dir <;> rfl

theorem avl_link : (link dir elem b s near far).Avl ↔
    near.Avl ∧ far.Avl ∧ b = sign dir * (far.height - near.height) ∧ -1 ≤ b ∧ b ≤ 1 ∧
      s = near.nodes + far.nodes + 1 := by
  cases dir
  · simp [link, Avl, sign]
  · simp only [link, Avl, sign, if_true, neg_mul, one_mul, neg_sub, Nat.add_comm near.nodes]
    exact and_left_comm

end link

-- A tree with a node has its parts in each direction.
theorem exists_link (dir : Bool) {t : AvlTree α} (h : t.height ≠ 0) :
    ∃ elem b s near far, t = link dir elem b s near far := by
  cases t with
  | nil => exact absurd rfl h
  | node elem b s p0 p1 =>
      cases dir
      · exact ⟨elem, b, s, p0, p1, rfl⟩
      · exact ⟨elem, b, s, p1, p0, rfl⟩

theorem length_toList (t : AvlTree α) : t.toList.length = t.nodes := by
  induction t with
  | nil => rfl
  | node elem b s p0 p1 ih0 ih1 =>
      simp only [toList, nodes, List.length_append, List.length_cons, ih0, ih1]
      omega

theorem Avl.size_eq {t : AvlTree α} (h : t.Avl) : t.size = t.nodes := by
  cases t with
  | nil => rfl
  | node elem b s p0 p1 => exact h.2.2.2.2.2

theorem Avl.fib_le {t : AvlTree α} (h : t.Avl) : Nat.fib (t.height + 2) ≤ t.nodes + 1 := by
  induction t with
  | nil => exact le_rfl
  | node elem b s p0 p1 ih0 ih1 =>
      obtain ⟨h0, h1, hb, hlo, hhi, _⟩ := h
      have hmono0 : Nat.fib (max p0.height p1.height + 1) ≤ Nat.fib (min p0.height p1.height + 2) :=
        Nat.fib_mono (by omega)
      have hsplit : Nat.fib (max p0.height p1.height + 2) + Nat.fib (min p0.height p1.height + 2) =
          Nat.fib (p0.height + 2) + Nat.fib (p1.height + 2) := by
        rcases le_total p0.height p1.height with hle | hle
        · rw [max_eq_right hle, min_eq_left hle, Nat.add_comm]
        · rw [max_eq_left hle, min_eq_right hle]
      have hstep : Nat.fib (max p0.height p1.height + 1 + 2) =
          Nat.fib (max p0.height p1.height + 1) + Nat.fib (max p0.height p1.height + 2) := Nat.fib_add_two
      have hle0 := ih0 h0
      have hle1 := ih1 h1
      simp only [height, nodes]
      omega

-- A node above the place where a search stands: the search went on in the direction dir.
structure Frame (α : Type*) where
  dir : Bool
  elem : α
  balance : Int
  size : Nat
  other : AvlTree α

def Frame.fill (f : Frame α) (t : AvlTree α) : AvlTree α := link f.dir f.elem f.balance f.size t f.other

-- The frames of a path stand from the deepest one to the root.
def fill : List (Frame α) → AvlTree α → AvlTree α
  | [], t => t
  | f :: path, t => fill path (f.fill t)

def Frame.before (f : Frame α) : List α := if f.dir then f.other.toList ++ [f.elem] else []

def Frame.after (f : Frame α) : List α := if f.dir then [] else f.elem :: f.other.toList

def before : List (Frame α) → List α
  | [] => []
  | f :: path => before path ++ f.before

def after : List (Frame α) → List α
  | [] => []
  | f :: path => f.after ++ after path

theorem Frame.toList_fill (f : Frame α) (t : AvlTree α) : (f.fill t).toList = f.before ++ t.toList ++ f.after :=
  toList_link

theorem toList_fill (path : List (Frame α)) (t : AvlTree α) :
    (fill path t).toList = before path ++ t.toList ++ after path := by
  induction path generalizing t with
  | nil => simp [fill, before, after]
  | cons f path ih => simp [fill, before, after, ih, f.toList_fill]

-- What a path asks of a tree of h levels and n nodes that fills it.
def AvlPath : Nat → Nat → List (Frame α) → Prop
  | _, _, [] => True
  | h, n, f :: path =>
      f.other.Avl ∧ f.balance = sign f.dir * (f.other.height - h) ∧ -1 ≤ f.balance ∧ f.balance ≤ 1 ∧
        f.size = n + f.other.nodes + 1 ∧ AvlPath (max h f.other.height + 1) (n + f.other.nodes + 1) path

theorem avl_fill {path : List (Frame α)} {t : AvlTree α} :
    (fill path t).Avl ↔ t.Avl ∧ AvlPath t.height t.nodes path := by
  induction path generalizing t with
  | nil => simp [fill, AvlPath]
  | cons f path ih =>
      rw [fill, ih, Frame.fill, avl_link, height_link, nodes_link, AvlPath]
      tauto

-- The height and the number of nodes of a tree that fills a path.
def pathHeight : Nat → List (Frame α) → Nat
  | h, [] => h
  | h, f :: path => pathHeight (max h f.other.height + 1) path

def pathNodes : Nat → List (Frame α) → Nat
  | n, [] => n
  | n, f :: path => pathNodes (n + f.other.nodes + 1) path

theorem height_fill (path : List (Frame α)) (t : AvlTree α) : (fill path t).height = pathHeight t.height path := by
  induction path generalizing t with
  | nil => rfl
  | cons f path ih => rw [fill, ih, Frame.fill, height_link, pathHeight]

theorem nodes_fill (path : List (Frame α)) (t : AvlTree α) : (fill path t).nodes = pathNodes t.nodes path := by
  induction path generalizing t with
  | nil => rfl
  | cons f path ih => rw [fill, ih, Frame.fill, nodes_link, pathNodes]

theorem pathNodes_add (n k : Nat) (path : List (Frame α)) : pathNodes (n + k) path = pathNodes n path + k := by
  induction path generalizing n with
  | nil => rfl
  | cons f path ih =>
      rw [pathNodes, pathNodes, ← ih]
      congr 1
      omega

theorem avlPath_append {h n : Nat} {path rest : List (Frame α)} :
    AvlPath h n (path ++ rest) ↔ AvlPath h n path ∧ AvlPath (pathHeight h path) (pathNodes n path) rest := by
  induction path generalizing h n with
  | nil => simp [AvlPath, pathHeight, pathNodes]
  | cons f path ih =>
      rw [List.cons_append, AvlPath, ih, AvlPath, pathHeight, pathNodes]
      tauto

-- The same path with a new number for each size.
def resize (g : Nat → Nat) (path : List (Frame α)) : List (Frame α) :=
  path.map fun f => { f with size := g f.size }

theorem before_resize (g : Nat → Nat) (path : List (Frame α)) : before (resize g path) = before path := by
  induction path with
  | nil => rfl
  | cons f path ih => exact congrArg (· ++ f.before) ih

theorem after_resize (g : Nat → Nat) (path : List (Frame α)) : after (resize g path) = after path := by
  induction path with
  | nil => rfl
  | cons f path ih => exact congrArg (f.after ++ ·) ih

theorem pathHeight_resize (g : Nat → Nat) (h : Nat) (path : List (Frame α)) :
    pathHeight h (resize g path) = pathHeight h path := by
  induction path generalizing h with
  | nil => rfl
  | cons f path ih => exact ih _

theorem pathNodes_resize (g : Nat → Nat) (n : Nat) (path : List (Frame α)) :
    pathNodes n (resize g path) = pathNodes n path := by
  induction path generalizing n with
  | nil => rfl
  | cons f path ih => exact ih _

theorem AvlPath.resize_succ {h n : Nat} {path : List (Frame α)} (hpath : AvlPath h n path) :
    AvlPath h (n + 1) (resize (· + 1) path) := by
  induction path generalizing h n with
  | nil => trivial
  | cons f path ih =>
      obtain ⟨hother, hb, hlo, hhi, hsize, hrest⟩ := hpath
      refine ⟨hother, hb, hlo, hhi, ?_, ?_⟩
      · simp only [hsize]
        omega
      · have hnext := ih hrest
        rwa [show n + f.other.nodes + 1 + 1 = n + 1 + f.other.nodes + 1 by omega] at hnext

theorem AvlPath.resize_pred {h n : Nat} {path : List (Frame α)} (hpath : AvlPath h (n + 1) path) :
    AvlPath h n (resize (· - 1) path) := by
  induction path generalizing h n with
  | nil => trivial
  | cons f path ih =>
      obtain ⟨hother, hb, hlo, hhi, hsize, hrest⟩ := hpath
      refine ⟨hother, hb, hlo, hhi, ?_, ?_⟩
      · simp only [hsize]
        omega
      · refine ih (n := n + f.other.nodes + 1) ?_
        rwa [show n + f.other.nodes + 1 + 1 = n + 1 + f.other.nodes + 1 by omega]

theorem before_append (path rest : List (Frame α)) : before (path ++ rest) = before rest ++ before path := by
  induction path with
  | nil => simp [before]
  | cons f path ih => rw [List.cons_append, before, ih, before, List.append_assoc]

theorem after_append (path rest : List (Frame α)) : after (path ++ rest) = after path ++ after rest := by
  induction path with
  | nil => rfl
  | cons f path ih => rw [List.cons_append, after, ih, after, List.append_assoc]

-- The elements below the place where a path leads, by the sizes that stand in it.
def rank (path : List (Frame α)) : Nat := (path.map fun f => if f.dir then f.other.size + 1 else 0).sum

theorem AvlPath.rank_eq {h n : Nat} {path : List (Frame α)} (hpath : AvlPath h n path) :
    rank path = (before path).length := by
  induction path generalizing h n with
  | nil => rfl
  | cons f path ih =>
      have hrest : rank path = (before path).length := ih hpath.2.2.2.2.2
      have hsize := hpath.1.size_eq
      rw [rank, List.map_cons, List.sum_cons, before, List.length_append, ← hrest, Frame.before, hsize]
      cases f.dir
      · exact Nat.zero_add _
      · simp only [if_true, List.length_append, length_toList, List.length_singleton]
        exact Nat.add_comm _ _

-- The search for x. It ends at an element equal to x, or where x belongs.
def descend (cmp : α → α → Ordering) (x : α) : List (Frame α) → AvlTree α → List (Frame α) × AvlTree α
  | path, nil => (path, nil)
  | path, node elem balance size p0 p1 =>
      match cmp x elem with
      | .lt => descend cmp x (⟨false, elem, balance, size, p1⟩ :: path) p0
      | .gt => descend cmp x (⟨true, elem, balance, size, p0⟩ :: path) p1
      | .eq => (path, node elem balance size p0 p1)

-- The way to the smallest element, whose node has no child p0.
def descendLeft : List (Frame α) → AvlTree α → List (Frame α) × AvlTree α
  | path, nil => (path, nil)
  | path, node elem balance size nil p1 => (path, node elem balance size nil p1)
  | path, node elem balance size (node e b s q0 q1) p1 =>
      descendLeft (⟨false, elem, balance, size, p1⟩ :: path) (node e b s q0 q1)

theorem fill_descend (cmp : α → α → Ordering) (x : α) (path : List (Frame α)) (t : AvlTree α) :
    fill (descend cmp x path t).1 (descend cmp x path t).2 = fill path t := by
  induction t generalizing path with
  | nil => rfl
  | node elem b s p0 p1 ih0 ih1 =>
      rw [descend]
      split
      · exact ih0 _
      · exact ih1 _
      · rfl

theorem fill_descendLeft (path : List (Frame α)) (t : AvlTree α) :
    fill (descendLeft path t).1 (descendLeft path t).2 = fill path t := by
  induction t generalizing path with
  | nil => rfl
  | node elem b s p0 p1 ih0 ih1 =>
      cases p0 with
      | nil => rfl
      | node e b' s' q0 q1 => exact ih0 _

theorem length_descend_le (cmp : α → α → Ordering) (x : α) (path : List (Frame α)) (t : AvlTree α) :
    (descend cmp x path t).1.length + (descend cmp x path t).2.height ≤ path.length + t.height := by
  induction t generalizing path with
  | nil => exact le_rfl
  | node elem b s p0 p1 ih0 ih1 =>
      rw [descend]
      split
      · refine (ih0 _).trans ?_
        simp only [List.length_cons, height]
        omega
      · refine (ih1 _).trans ?_
        simp only [List.length_cons, height]
        omega
      · exact le_rfl

theorem length_descendLeft_le (path : List (Frame α)) (t : AvlTree α) :
    (descendLeft path t).1.length + (descendLeft path t).2.height ≤ path.length + t.height := by
  induction t generalizing path with
  | nil => exact le_rfl
  | node elem b s p0 p1 ih0 ih1 =>
      cases p0 with
      | nil => exact le_rfl
      | node e b' s' q0 q1 =>
          refine (ih0 _).trans ?_
          simp only [List.length_cons, height]
          omega

section order

variable {cmp : α → α → Ordering}

def Sorted (cmp : α → α → Ordering) (t : AvlTree α) : Prop := t.toList.Pairwise fun a b => cmp a b = .lt

-- The elements beside the place of x are those below x and those above it.
def Around (cmp : α → α → Ordering) (x : α) (lo hi : List α) : Prop :=
  (∀ a ∈ lo, cmp a x = .lt) ∧ ∀ a ∈ hi, cmp x a = .lt

theorem sorted_node {elem : α} {b : Int} {s : Nat} {p0 p1 : AvlTree α} :
    (node elem b s p0 p1).Sorted cmp ↔ p0.Sorted cmp ∧ p1.Sorted cmp ∧ (∀ a ∈ p0.toList, cmp a elem = .lt) ∧
      (∀ a ∈ p1.toList, cmp elem a = .lt) ∧ ∀ a ∈ p0.toList, ∀ c ∈ p1.toList, cmp a c = .lt := by
  simp only [Sorted, toList, List.pairwise_append, List.pairwise_cons, List.forall_mem_cons]
  constructor
  · rintro ⟨h0, ⟨helem, h1⟩, hbetween⟩
    exact ⟨h0, h1, fun a ha => (hbetween a ha).1, helem, fun a ha => (hbetween a ha).2⟩
  · rintro ⟨h0, h1, hbefore, helem, hbetween⟩
    exact ⟨h0, ⟨helem, h1⟩, fun a ha => ⟨hbefore a ha, hbetween a ha⟩⟩

-- Where a search leaves the path and the subtree that it came to, with the elements of the whole tree.
inductive Found (cmp : α → α → Ordering) (x : α) (l : List α) : List (Frame α) × AvlTree α → Prop where
  | absent {path} (hl : l = before path ++ after path) (haround : Around cmp x (before path) (after path)) :
      Found cmp x l (path, nil)
  | present {path elem b s p0 p1} (helem : cmp x elem = .eq)
      (hl : l = (before path ++ p0.toList) ++ elem :: (p1.toList ++ after path))
      (haround : Around cmp x (before path ++ p0.toList) (p1.toList ++ after path)) :
      Found cmp x l (path, node elem b s p0 p1)

theorem found_descend [Std.TransCmp cmp] {x : α} {path : List (Frame α)} {t : AvlTree α} (ht : t.Sorted cmp)
    (hpath : Around cmp x (before path) (after path)) :
    Found cmp x (before path ++ t.toList ++ after path) (descend cmp x path t) := by
  induction t generalizing path with
  | nil => exact .absent (by simp [toList]) hpath
  | node elem b s p0 p1 ih0 ih1 =>
      obtain ⟨h0, h1, hbefore, hafter, _⟩ := sorted_node.mp ht
      rw [descend]
      split
      case h_1 hlt =>
        have haround : Around cmp x (before (⟨false, elem, b, s, p1⟩ :: path))
            (after (⟨false, elem, b, s, p1⟩ :: path)) := by
          refine ⟨by simpa [before, Frame.before] using hpath.1, ?_⟩
          simp only [after, Frame.after, Bool.false_eq_true, if_false, List.cons_append, List.forall_mem_cons,
            List.forall_mem_append]
          exact ⟨hlt, fun a ha => Std.TransCmp.lt_trans hlt (hafter a ha), hpath.2⟩
        simpa [before, after, Frame.before, Frame.after, toList] using ih0 h0 haround
      case h_2 hgt =>
        have hlt := Std.OrientedCmp.lt_of_gt hgt
        have haround : Around cmp x (before (⟨true, elem, b, s, p0⟩ :: path))
            (after (⟨true, elem, b, s, p0⟩ :: path)) := by
          refine ⟨?_, by simpa [after, Frame.after] using hpath.2⟩
          simp only [before, Frame.before, if_true, List.forall_mem_append, List.forall_mem_singleton]
          exact ⟨hpath.1, fun a ha => Std.TransCmp.lt_trans (hbefore a ha) hlt, hlt⟩
        simpa [before, after, Frame.before, Frame.after, toList] using ih1 h1 haround
      case h_3 heq =>
        refine .present heq (by simp [toList]) ⟨List.forall_mem_append.mpr ⟨hpath.1, fun a ha => ?_⟩,
          List.forall_mem_append.mpr ⟨fun a ha => Std.TransCmp.lt_of_eq_of_lt heq (hafter a ha), hpath.2⟩⟩
        exact Std.TransCmp.lt_of_lt_of_eq (hbefore a ha) (Std.OrientedCmp.eq_symm heq)

theorem descendLeft_spec {t : AvlTree α} (h : t ≠ nil) (path : List (Frame α)) :
    ∃ elem b s p1, (descendLeft path t).2 = node elem b s nil p1 ∧
      before (descendLeft path t).1 = before path := by
  induction t generalizing path with
  | nil => exact absurd rfl h
  | node elem b s p0 p1 ih0 ih1 =>
      cases p0 with
      | nil => exact ⟨elem, b, s, p1, rfl, rfl⟩
      | node e b' s' q0 q1 =>
          obtain ⟨e', b'', s'', q, hnode, hbefore⟩ := ih0 (by simp) (⟨false, elem, b, s, p1⟩ :: path)
          exact ⟨e', b'', s'', q, hnode, hbefore.trans (by simp [before, Frame.before])⟩

end order

-- The operations of an ordered list: what search trees are for.
section lists

variable {cmp : α → α → Ordering} {x : α} {lo hi : List α}

def listFind (cmp : α → α → Ordering) (x : α) (l : List α) : Option α := l.find? fun a => cmp x a == .eq

def listInsert (cmp : α → α → Ordering) (x : α) (l : List α) : List α :=
  if (listFind cmp x l).isSome then l
  else (l.filter fun a => cmp x a == .gt) ++ x :: l.filter fun a => cmp x a == .lt

def listErase (cmp : α → α → Ordering) (x : α) (l : List α) : List α := l.filter fun a => cmp x a != .eq

-- The number of elements up to x.
def listCount (cmp : α → α → Ordering) (x : α) (l : List α) : Nat := (l.filter fun a => cmp x a != .lt).length

variable [Std.TransCmp cmp]

theorem Around.gt_of_mem (h : Around cmp x lo hi) {a : α} (ha : a ∈ lo) : cmp x a = .gt :=
  Std.OrientedCmp.gt_of_lt (h.1 a ha)

theorem Around.listFind_lo (h : Around cmp x lo hi) : listFind cmp x lo = none := by
  refine List.find?_eq_none.mpr fun a ha => ?_
  simp [h.gt_of_mem ha]

theorem Around.listFind_append (h : Around cmp x lo hi) : listFind cmp x (lo ++ hi) = none := by
  refine List.find?_eq_none.mpr fun a ha => ?_
  rcases List.mem_append.mp ha with ha | ha
  · simp [h.gt_of_mem ha]
  · simp [h.2 a ha]

theorem Around.listFind_cons (h : Around cmp x lo hi) {elem : α} (helem : cmp x elem = .eq) :
    listFind cmp x (lo ++ elem :: hi) = some elem := by
  have hlo := h.listFind_lo
  rw [listFind] at hlo ⊢
  rw [List.find?_append, hlo]
  simp [helem]

theorem Around.filter (h : Around cmp x lo hi) (p : Ordering → Bool) :
    (lo.filter fun a => p (cmp x a)) = (if p .gt then lo else []) ∧
      (hi.filter fun a => p (cmp x a)) = if p .lt then hi else [] := by
  constructor
  · split
    case isTrue hp => exact List.filter_eq_self.mpr fun a ha => by rw [h.gt_of_mem ha, hp]
    case isFalse hp => exact List.filter_eq_nil_iff.mpr fun a ha => by rwa [h.gt_of_mem ha]
  · split
    case isTrue hp => exact List.filter_eq_self.mpr fun a ha => by rw [h.2 a ha, hp]
    case isFalse hp => exact List.filter_eq_nil_iff.mpr fun a ha => by rwa [h.2 a ha]

theorem Around.listInsert_append (h : Around cmp x lo hi) : listInsert cmp x (lo ++ hi) = lo ++ x :: hi := by
  have hgt := h.filter fun o => o == .gt
  have hlt := h.filter fun o => o == .lt
  rw [listInsert, h.listFind_append]
  simp only [List.filter_append, hgt, hlt]
  simp

theorem Around.listErase_cons (h : Around cmp x lo hi) {elem : α} (helem : cmp x elem = .eq) :
    listErase cmp x (lo ++ elem :: hi) = lo ++ hi := by
  have hne := h.filter fun o => o != .eq
  simp only [listErase, List.filter_append, List.filter_cons, helem, hne]
  simp

theorem Around.listErase_append (h : Around cmp x lo hi) : listErase cmp x (lo ++ hi) = lo ++ hi := by
  have hne := h.filter fun o => o != .eq
  simp only [listErase, List.filter_append, hne]
  simp

theorem Around.listCount_append (h : Around cmp x lo hi) : listCount cmp x (lo ++ hi) = lo.length := by
  have hne := h.filter fun o => o != .lt
  simp only [listCount, List.filter_append, hne]
  simp

theorem Around.listCount_cons (h : Around cmp x lo hi) {elem : α} (helem : cmp x elem = .eq) :
    listCount cmp x (lo ++ elem :: hi) = lo.length + 1 := by
  have hne := h.filter fun o => o != .lt
  simp only [listCount, List.filter_append, List.filter_cons, helem, hne]
  simp

omit [Std.TransCmp cmp] in
theorem Around.pairwise (h : Around cmp x lo hi) (hl : (lo ++ hi).Pairwise fun a b => cmp a b = .lt) :
    (lo ++ x :: hi).Pairwise fun a b => cmp a b = .lt := by
  obtain ⟨hlo, hhi, hbetween⟩ := List.pairwise_append.mp hl
  refine List.pairwise_append.mpr ⟨hlo, List.pairwise_cons.mpr ⟨h.2, hhi⟩, fun a ha => ?_⟩
  exact List.forall_mem_cons.mpr ⟨h.1 a ha, hbetween a ha⟩

omit [Std.TransCmp cmp] in
theorem mem_listErase {l : List α} {a : α} : a ∈ listErase cmp x l ↔ a ∈ l ∧ cmp x a ≠ .eq := by
  rw [listErase, List.mem_filter]
  simp

omit [Std.TransCmp cmp] in
theorem mem_listInsert {l : List α} (h : listFind cmp x l = none) {a : α} :
    a ∈ listInsert cmp x l ↔ a = x ∨ a ∈ l := by
  have hne (b : α) (hb : b ∈ l) : cmp x b ≠ .eq := by simpa using List.find?_eq_none.mp h b hb
  simp only [listInsert, h, Option.isSome_none, Bool.false_eq_true, if_false, List.mem_append, List.mem_cons,
    List.mem_filter, beq_iff_eq]
  constructor
  · rintro (⟨ha, _⟩ | rfl | ⟨ha, _⟩)
    · exact .inr ha
    · exact .inl rfl
    · exact .inr ha
  · rintro (rfl | ha)
    · exact .inr (.inl rfl)
    · cases hcmp : cmp x a with
      | lt => exact .inr (.inr ⟨ha, rfl⟩)
      | gt => exact .inl ⟨ha, rfl⟩
      | eq => exact absurd hcmp (hne a ha)

-- In an ordered list no two elements compare equal, so that a search finds the one there is.
theorem listFind_eq_some_iff {l : List α} (hl : l.Pairwise fun a b => cmp a b = .lt) {a : α} :
    listFind cmp x l = some a ↔ a ∈ l ∧ cmp x a = .eq := by
  constructor
  · intro hfind
    exact ⟨List.mem_of_find?_eq_some hfind, by simpa using List.find?_some hfind⟩
  · rintro ⟨ha, heq⟩
    obtain ⟨lo, hi, rfl⟩ := List.append_of_mem ha
    obtain ⟨_, hhi, hbetween⟩ := List.pairwise_append.mp hl
    have haround : Around cmp x lo hi :=
      ⟨fun b hb => Std.TransCmp.lt_of_lt_of_eq (hbetween b hb a List.mem_cons_self) (Std.OrientedCmp.eq_symm heq),
        fun b hb => Std.TransCmp.lt_of_eq_of_lt heq ((List.pairwise_cons.mp hhi).1 b hb)⟩
    exact haround.listFind_cons heq

end lists

-- Other elements in the same places.
def map {β : Type*} (f : α → β) : AvlTree α → AvlTree β
  | nil => nil
  | node elem balance size p0 p1 => node (f elem) balance size (p0.map f) (p1.map f)

section map

variable {β : Type*} (f : α → β)

theorem toList_map (t : AvlTree α) : (t.map f).toList = t.toList.map f := by
  induction t with
  | nil => rfl
  | node elem b s p0 p1 ih0 ih1 => simp [map, toList, ih0, ih1]

theorem height_map (t : AvlTree α) : (t.map f).height = t.height := by
  induction t with
  | nil => rfl
  | node elem b s p0 p1 ih0 ih1 => simp [map, height, ih0, ih1]

theorem nodes_map (t : AvlTree α) : (t.map f).nodes = t.nodes := by
  rw [← length_toList, toList_map, List.length_map, length_toList]

theorem Avl.map {t : AvlTree α} (h : t.Avl) : (t.map f).Avl := by
  induction t with
  | nil => trivial
  | node elem b s p0 p1 ih0 ih1 =>
      obtain ⟨h0, h1, hrest⟩ := h
      refine ⟨ih0 h0, ih1 h1, ?_⟩
      rwa [height_map, height_map, nodes_map, nodes_map]

end map

end AvlTree

end ToInet.Lib
