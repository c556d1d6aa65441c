import ToInet.Byedpi.Kavl
import ToInet.Lib.Bytes

-- The pools of mpool.c: byte strings in a search tree.
namespace ToInet.Byedpi.Mpool

open ToInet.Lib ToInet.Lib.AvlTree ToInet.Byedpi.Kavl

-- The length of the data is that of the list.
structure Elem where
  data : Bytes
  m : Int
  time : Int
deriving DecidableEq

-- Strings of one length are compared byte by byte.
def scmp (p q : Elem) : Ordering :=
  if p.data.length ≠ q.data.length then if p.data.length < q.data.length then .lt else .gt
  else compare p.data q.data

theorem scmp_eq_compareLex :
    scmp = compareLex (compareOn fun e : Elem => e.data.length) (compareOn Elem.data) := by
  funext p q
  simp only [scmp, compareLex, compareOn]
  rcases Nat.lt_trichotomy p.data.length q.data.length with hlt | heq | hgt
  · rw [if_pos hlt.ne, if_pos hlt, Nat.compare_eq_lt.mpr hlt]
    rfl
  · rw [if_neg (not_not_intro heq), Nat.compare_eq_eq.mpr heq]
    rfl
  · rw [if_pos hgt.ne', if_neg hgt.not_gt, Nat.compare_eq_gt.mpr hgt]
    rfl

instance : Std.TransCmp scmp := by
  rw [scmp_eq_compareLex]
  infer_instance

theorem scmp_eq_iff {p q : Elem} : scmp p q = .eq ↔ p.data = q.data := by
  rw [scmp_eq_compareLex]
  simp only [compareLex, compareOn, Ordering.then_eq_eq, Std.LawfulEqOrd.compare_eq_iff_eq]
  constructor
  · exact And.right
  · intro h
    exact ⟨congrArg _ h, h⟩

-- The trees of the pools stay balanced and in order, and answer as an ordered list does. The first element of an empty
-- pool can be taken out of neither.
theorem mempool_refines_list (ops : List (Op Elem)) :
    Alike (StandsFor scmp) (definedCalls (kavlStep scmp) nil ops) (definedCalls (listStep scmp) [] ops) :=
  kavl_refines_list ops

theorem ordered_of_definedCalls {ops : List (Op Elem)} {root : AvlTree Elem} {answers : List (Option Elem × Nat)}
    (hrun : definedCalls (kavlStep scmp) nil ops = some (root, answers)) : Ordered scmp root := by
  have hlist := @kavl_refines_list _ scmp _ ops
  rw [hrun] at hlist
  generalize definedCalls (listStep scmp) [] ops = run at hlist
  cases hlist with
  | some h => exact h.1.1

-- No operation on a pool comes near the end of the stacks for its path, and only what is undefined goes in front of
-- them.
theorem mempool_pathLength_le {ops : List (Op Elem)} {root : AvlTree Elem} {answers : List (Option Elem × Nat)}
    (hrun : definedCalls (kavlStep scmp) nil ops = some (root, answers)) (hnodes : root.nodes < 2 ^ 32) (op : Op Elem) :
    (pathLength scmp root op = none ↔ kavlStep scmp root op = none) ∧
      ∀ n, pathLength scmp root op = some n → n ≤ kavlMaxDepth :=
  ⟨pathLength_eq_none_iff scmp root op, fun _ => pathLength_le_kavlMaxDepth (ordered_of_definedCalls hrun) hnodes⟩

theorem mempool_pathLength_le_two :
    ∃ root answers, definedCalls (kavlStep scmp) nil
        [.insert ⟨[1], 0, 0⟩, .insert ⟨[2, 3], 0, 0⟩, .insert ⟨[2], 0, 0⟩, .eraseFirst] = some (root, answers) ∧
      (pathLength scmp root (.erase ⟨[2], 0, 0⟩) = none ↔ kavlStep scmp root (.erase ⟨[2], 0, 0⟩) = none) ∧
      ∀ n, pathLength scmp root (.erase ⟨[2], 0, 0⟩) = some n → n ≤ kavlMaxDepth :=
  ⟨_, _, rfl, @mempool_pathLength_le
    [.insert ⟨[1], 0, 0⟩, .insert ⟨[2, 3], 0, 0⟩, .insert ⟨[2], 0, 0⟩, .eraseFirst] _ _ rfl (by decide) _⟩

-- A pool keeps its tree balanced and in order.
structure Mphdr where
  root : AvlTree Elem
  ordered : Ordered scmp root

def memPool : Mphdr := ⟨nil, ordered_nil⟩

-- The element that calloc and the caller's string make.
def Elem.ofData (str : Bytes) : Elem := { data := str, m := 0, time := 0 }

def memGet (hdr : Mphdr) (str : Bytes) : Option Elem := (kavlFind scmp (.ofData str) hdr.root 0).1

def memAdd (hdr : Mphdr) (str : Bytes) : Mphdr × Elem :=
  (⟨(kavlInsert scmp hdr.root (.ofData str)).1, (kavlInsert_spec hdr.ordered).1⟩,
    (kavlInsert scmp hdr.root (.ofData str)).2.1)

def memDelete (hdr : Mphdr) (str : Bytes) : Mphdr :=
  ⟨(kavlErase scmp hdr.root (.ofData str)).1, (kavlErase_spec hdr.ordered).1⟩

-- A write through the pointer to the element with the data str.
def Elem.store (str : Bytes) (m time : Int) (e : Elem) : Elem := if e.data = str then { e with m, time } else e

theorem data_store (str : Bytes) (m time : Int) (e : Elem) : (e.store str m time).data = e.data := by
  rw [Elem.store]
  split <;> rfl

theorem scmp_congr {p p' q q' : Elem} (hp : p'.data = p.data) (hq : q'.data = q.data) : scmp p' q' = scmp p q := by
  rw [scmp, scmp, hp, hq]

theorem ordered_store {root : AvlTree Elem} (h : Ordered scmp root) (str : Bytes) (m time : Int) :
    Ordered scmp (root.map (Elem.store str m time)) := by
  refine ⟨h.avl.map _, ?_⟩
  rw [Sorted, toList_map, List.pairwise_map]
  exact h.sorted.imp fun {a b} hab => by rwa [scmp_congr (data_store str m time a) (data_store str m time b)]

def memStore (hdr : Mphdr) (str : Bytes) (m time : Int) : Mphdr :=
  ⟨hdr.root.map (Elem.store str m time), ordered_store hdr.ordered str m time⟩

-- The elements that mem_destroy frees, in their order, with as many steps as it has. none is undefined.
def memDestroy : Nat → AvlTree Elem → Option (List Elem)
  | _, nil => some []
  | 0, _ => none
  | fuel + 1, root => (kavlEraseFirst root).bind fun erased => (memDestroy fuel erased.1).map (erased.2.1 :: ·)

-- What a pool holds under its keys.
section lookup

variable {hdr : Mphdr} {str key : Bytes}

theorem memGet_eq_some_iff {e : Elem} : memGet hdr key = some e ↔ e ∈ hdr.root.toList ∧ e.data = key := by
  rw [memGet, kavlFind_spec hdr.ordered, listFind_eq_some_iff hdr.ordered.sorted, scmp_eq_iff]
  exact and_congr_right' eq_comm

theorem memGet_eq_none_iff : memGet hdr key = none ↔ ∀ e ∈ hdr.root.toList, e.data ≠ key := by
  rw [Option.eq_none_iff_forall_ne_some]
  constructor
  · exact fun h e he hkey => h e (memGet_eq_some_iff.mpr ⟨he, hkey⟩)
  · exact fun h e he => h e (memGet_eq_some_iff.mp he).1 (memGet_eq_some_iff.mp he).2

-- A lookup is settled by the elements with the key.
theorem memGet_congr (other : Mphdr) (h : ∀ e, e.data = key → (e ∈ hdr.root.toList ↔ e ∈ other.root.toList)) :
    memGet hdr key = memGet other key := by
  refine Option.ext fun e => ?_
  rw [memGet_eq_some_iff, memGet_eq_some_iff]
  exact and_congr_left fun he => h e he

theorem memAdd_snd : (memAdd hdr str).2 = (memGet hdr str).getD (.ofData str) := by
  rw [memGet, kavlFind_spec hdr.ordered]
  exact congrArg Prod.fst (kavlInsert_spec hdr.ordered).2.2

theorem toList_memAdd : (memAdd hdr str).1.root.toList = listInsert scmp (.ofData str) hdr.root.toList :=
  (kavlInsert_spec hdr.ordered).2.1

theorem memGet_memAdd :
    memGet (memAdd hdr str).1 key = if key = str then some (memAdd hdr str).2 else memGet hdr key := by
  cases hfind : memGet hdr str with
  | some e =>
      have hsame : (memAdd hdr str).1.root.toList = hdr.root.toList := by
        rw [memGet, kavlFind_spec hdr.ordered] at hfind
        rw [toList_memAdd, listInsert, if_pos (Option.isSome_of_eq_some hfind)]
      rw [memGet_congr hdr fun e _ => by rw [hsame], memAdd_snd, hfind]
      split
      case isTrue hkey => rw [hkey, hfind, Option.getD_some]
      case isFalse => rfl
  | none =>
      have hmem (e : Elem) : e ∈ (memAdd hdr str).1.root.toList ↔ e = .ofData str ∨ e ∈ hdr.root.toList := by
        rw [memGet, kavlFind_spec hdr.ordered] at hfind
        rw [toList_memAdd, mem_listInsert hfind]
      split
      case isTrue hkey =>
        rw [memAdd_snd, hfind, Option.getD_none, memGet_eq_some_iff, hmem]
        exact ⟨.inl rfl, hkey.symm⟩
      case isFalse hkey =>
        refine memGet_congr _ fun e he => ?_
        rw [hmem]
        refine or_iff_right fun hnew => hkey ?_
        rw [← he, hnew, Elem.ofData]

theorem memGet_memDelete : memGet (memDelete hdr str) key = if key = str then none else memGet hdr key := by
  have hmem (e : Elem) : e ∈ (memDelete hdr str).root.toList ↔ e ∈ hdr.root.toList ∧ e.data ≠ str := by
    rw [memDelete, (kavlErase_spec hdr.ordered).2.1, mem_listErase, ne_eq, scmp_eq_iff]
    exact and_congr_right' (not_congr eq_comm)
  split
  case isTrue hkey =>
    rw [memGet_eq_none_iff]
    exact fun e he => hkey ▸ ((hmem e).mp he).2
  case isFalse hkey =>
    refine memGet_congr _ fun e he => ?_
    rw [hmem]
    exact and_iff_left (he ▸ hkey)

theorem memGet_memStore (m time : Int) : memGet (memStore hdr str m time) key =
    (memGet hdr key).map (Elem.store str m time) := by
  refine Option.ext fun e => ?_
  rw [memGet_eq_some_iff, Option.map_eq_some_iff, memStore, toList_map, List.mem_map]
  constructor
  · rintro ⟨⟨e', he', rfl⟩, hkey⟩
    exact ⟨e', memGet_eq_some_iff.mpr ⟨he', by rwa [data_store] at hkey⟩, rfl⟩
  · rintro ⟨e', he', rfl⟩
    obtain ⟨hmem, hkey⟩ := memGet_eq_some_iff.mp he'
    exact ⟨⟨e', hmem, rfl⟩, by rwa [data_store]⟩

@[simp] theorem memGet_memPool : memGet memPool key = none := rfl

end lookup

theorem memDestroy_eq {root : AvlTree Elem} (h : Ordered scmp root) {fuel : Nat} (hfuel : root.nodes ≤ fuel) :
    memDestroy fuel root = some root.toList := by
  induction fuel generalizing root with
  | zero =>
      cases root with
      | nil => rfl
      | node elem b s p0 p1 => exact absurd hfuel (by simp [nodes])
  | succ fuel ih =>
      by_cases hnil : root = nil
      · subst hnil
        rfl
      obtain ⟨root', x, herased, hordered, hlist⟩ := kavlEraseFirst_spec h hnil
      have hlen := congrArg List.length hlist
      rw [List.length_cons, length_toList, length_toList] at hlen
      rw [memDestroy.eq_3 _ _ hnil, herased, Option.bind_some, ih hordered (by omega), hlist]
      rfl

end ToInet.Byedpi.Mpool
