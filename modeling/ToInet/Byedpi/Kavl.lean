import ToInet.Lib.AvlTree
import ToInet.Lib.Machine
import Mathlib.Tactic.NormNum.NatFib

-- The search trees of kavl.h.
namespace ToInet.Byedpi.Kavl

open ToInet.Lib ToInet.Lib.AvlTree

variable {α : Type*}

def kavlMaxDepth : Nat := 64

def kavlFind (cmp : α → α → Ordering) (x : α) : AvlTree α → Nat → Option α × Nat
  | nil, cnt => (none, cnt)
  | node elem _ _ p0 p1, cnt =>
      match cmp x elem with
      | .lt => kavlFind cmp x p0 cnt
      | .gt => kavlFind cmp x p1 (cnt + (p0.size + 1))
      | .eq => (some elem, cnt + (p0.size + 1))

-- (a,(b,c)q)p => ((a,b)p,c)q
def rotate1 (dir : Bool) (p : AvlTree α) : AvlTree α :=
  let q := p.child (!dir)
  let p' := (p.setSize (p.size - (q.size - (q.child dir).size))).setChild (!dir) (q.child dir)
  (q.setSize p.size).setChild dir p'

-- (a,((b,c)r,d)q)p => ((a,b)p,(c,d)q)r
def rotate2 (dir : Bool) (p : AvlTree α) : AvlTree α :=
  let q := p.child (!dir)
  let r := q.child dir
  let sizeXDir := (r.child dir).size
  let b1 := sign dir
  let qBalance := if r.balance = b1 then 0 else if r.balance = 0 then 0 else b1
  let pBalance := if r.balance = b1 then -b1 else 0
  let p' := ((p.setSize (p.size - (q.size - sizeXDir))).setChild (!dir) (r.child dir)).setBalance pBalance
  let q' := ((q.setSize (q.size - (sizeXDir + 1))).setChild dir (r.child (!dir))).setBalance qBalance
  (((r.setSize p.size).setChild dir p').setChild (!dir) q').setBalance 0

def rebalance (bp : AvlTree α) : AvlTree α :=
  if -2 < bp.balance ∧ bp.balance < 2 then bp
  else
    let which := decide (bp.balance < 0)
    let q := bp.child (!which)
    if q.balance = sign which then rotate1 which ((bp.setBalance 0).setChild (!which) (q.setBalance 0))
    else rotate2 which bp

-- A node on the way to the new one, whose child on that way has got higher.
def grow (f : Frame α) : Frame α := { f with balance := f.balance - sign f.dir, size := f.size + 1 }

-- bp is the deepest node of the path that was not in balance. Where all of them were, it is the root, and
-- its balance is one at most then.
def attach (path : List (Frame α)) (x : AvlTree α) : AvlTree α :=
  let below := fill ((path.takeWhile fun f => f.balance = 0).map grow) x
  match path.dropWhile fun f => f.balance = 0 with
  | [] => below
  | bp :: above => fill (resize (· + 1) above) (rebalance ((grow bp).fill below))

def kavlInsert (cmp : α → α → Ordering) (root : AvlTree α) (x : α) : AvlTree α × α × Nat :=
  match descend cmp x [] root with
  | (path, nil) => (attach path (node x 0 1 nil nil), x, rank path)
  | (path, node elem _ _ p0 _) => (root, elem, rank path + (p0.size + 1))

-- The subtree t at the end of the path has got lower.
def retrace : List (Frame α) → AvlTree α → AvlTree α
  | [], t => t
  | f :: path, t =>
      let b1 := sign f.dir
      let q := { f with balance := f.balance + b1 }.fill t
      if q.balance = b1 then fill path q
      else if q.balance = 2 * b1 then
        let r := q.child (!f.dir)
        if r.balance = -b1 then retrace path (rotate2 f.dir q)
        else if r.balance = 0 then
          fill path (rotate1 f.dir ((q.setBalance b1).setChild (!f.dir) (r.setBalance (-b1))))
        else retrace path (rotate1 f.dir ((q.setBalance 0).setChild (!f.dir) (r.setBalance 0)))
      else retrace path q

-- Takes out the node p with these fields. Without a child p1, its child p0 takes its place, and else the
-- smallest element r of p1, which may be the root of p1 itself.
def eraseNode (path : List (Frame α)) (balance : Int) (size : Nat) (p0 p1 : AvlTree α) : AvlTree α :=
  match descendLeft [] p1 with
  | (_, nil) => retrace (resize (· - 1) path) p0
  | (between, node r _ _ _ r1) =>
      retrace (resize (· - 1) between ++ ⟨true, r, balance, size - 1, p0⟩ :: resize (· - 1) path) r1

def kavlErase (cmp : α → α → Ordering) (root : AvlTree α) (x : α) : AvlTree α × Option α × Nat :=
  match descend cmp x [] root with
  | (_, nil) => (root, none, 0)
  | (path, node elem balance size p0 p1) =>
      (eraseNode path balance size p0 p1, some elem, rank path + (p0.size + 1))

-- kavl_erase without an element to look for. On an empty tree it takes the fake node for the first one and goes in
-- front of its path, which is undefined.
def kavlEraseFirst (root : AvlTree α) : Option (AvlTree α × α × Nat) :=
  match descendLeft [] root with
  | (_, nil) => none
  | (path, node elem balance size p0 p1) => some (eraseNode path balance size p0 p1, elem, 1)

section rotate

variable {dir : Bool} {pe qe re : α} {pb qb rb : Int} {ps qs rs : Nat} {a b c d : AvlTree α}

theorem rotate1_link : rotate1 dir (link dir pe pb ps a (link dir qe qb qs b c)) =
    link dir qe qb ps (link dir pe pb (ps - (qs - b.size)) a b) c := by
  simp [rotate1]

theorem rotate2_link : rotate2 dir (link dir pe pb ps a (link dir qe qb qs (link dir re rb rs b c) d)) =
    link dir re 0 ps (link dir pe (if rb = sign dir then -sign dir else 0) (ps - (qs - b.size)) a b)
      (link dir qe (if rb = sign dir then 0 else if rb = 0 then 0 else sign dir) (qs - (b.size + 1)) c d) := by
  simp [rotate2]

theorem toList_rotate1 : (rotate1 dir (link dir pe pb ps a (link dir qe qb qs b c))).toList =
    (link dir pe pb ps a (link dir qe qb qs b c)).toList := by
  rw [rotate1_link]
  cases dir <;> simp [link, toList]

theorem toList_rotate2 :
    (rotate2 dir (link dir pe pb ps a (link dir qe qb qs (link dir re rb rs b c) d))).toList =
      (link dir pe pb ps a (link dir qe qb qs (link dir re rb rs b c) d)).toList := by
  rw [rotate2_link]
  cases dir <;> simp [link, toList]

theorem avl_rotate1 (ha : a.Avl) (hb : b.Avl) (hc : c.Avl) (hps : ps = a.nodes + (b.nodes + c.nodes + 1) + 1)
    (hqs : qs = b.nodes + c.nodes + 1) (hpb : pb = sign dir * (b.height - a.height)) (hplo : -1 ≤ pb)
    (hphi : pb ≤ 1) (hqb : qb = sign dir * (c.height - (max a.height b.height + 1))) (hqlo : -1 ≤ qb)
    (hqhi : qb ≤ 1) : (rotate1 dir (link dir pe pb ps a (link dir qe qb qs b c))).Avl := by
  have hsize := hb.size_eq
  rw [rotate1_link, avl_link, avl_link, height_link, nodes_link]
  refine ⟨⟨ha, hb, hpb, hplo, hphi, ?_⟩, hc, ?_, hqlo, hqhi, ?_⟩
  · omega
  · rw [hqb]
    push_cast
    rfl
  · omega

-- The heights of b and c are k, or one of them is k and the other k - 1.
theorem avl_rotate2 {k : Nat} (ha : a.Avl) (hr : (link dir re rb rs b c).Avl) (hd : d.Avl)
    (hps : ps = a.nodes + (rs + d.nodes + 1) + 1) (hqs : qs = rs + d.nodes + 1) (hak : a.height = k)
    (hrk : (link dir re rb rs b c).height = k + 1) (hdk : d.height = k) :
    (rotate2 dir (link dir pe pb ps a (link dir qe qb qs (link dir re rb rs b c) d))).Avl := by
  obtain ⟨hb, hc, hrb, hlo, hhi, hrs⟩ := avl_link.mp hr
  have hsize := hb.size_eq
  rw [height_link] at hrk
  have hbc : rb = sign dir ∧ b.height + 1 = k ∧ c.height = k ∨ rb = 0 ∧ b.height = k ∧ c.height = k ∨
      rb = -sign dir ∧ b.height = k ∧ c.height + 1 = k := by
    cases dir <;> simp only [sign, if_true, Bool.false_eq_true, if_false] at hrb ⊢ <;> omega
  rw [rotate2_link, avl_link, avl_link, avl_link]
  simp only [height_link, nodes_link]
  rcases hbc with ⟨hrb', hbk, hck⟩ | ⟨hrb', hbk, hck⟩ | ⟨hrb', hbk, hck⟩ <;> rw [hrb'] <;> cases dir <;>
    simp only [sign, if_true, Bool.false_eq_true, if_false] <;> norm_num <;>
    refine ⟨⟨ha, hb, ?_, ?_⟩, ⟨hc, hd, ?_, ?_⟩, ?_, ?_⟩ <;> omega

theorem height_rotate1 : (rotate1 dir (link dir pe pb ps a (link dir qe qb qs b c))).height =
    max (max a.height b.height + 1) c.height + 1 := by
  rw [rotate1_link, height_link, height_link]

theorem height_rotate2 :
    (rotate2 dir (link dir pe pb ps a (link dir qe qb qs (link dir re rb rs b c) d))).height =
      max (max a.height b.height + 1) (max c.height d.height + 1) + 1 := by
  rw [rotate2_link, height_link, height_link, height_link]

end rotate

-- What a tree has that takes the place of another one: it is in order, and has the same elements.
structure Replaces (t u : AvlTree α) (h : Nat) : Prop where
  avl : t.Avl
  height : t.height = h
  toList : t.toList = u.toList

theorem Replaces.nodes {t u : AvlTree α} {h : Nat} (ht : Replaces t u h) : t.nodes = u.nodes := by
  rw [← length_toList, ht.toList, length_toList]

-- A node with a child that is two levels higher than the other one, and what each rotation makes of it.
section high

variable {dir : Bool} {pe : α} {pb : Int} {ps k : Nat} {a q : AvlTree α}

theorem exists_link_of_height (dir : Bool) (hq : q.Avl) (hqk : q.height = k + 2) :
    ∃ qe qs b c, q = link dir qe q.balance qs b c ∧ b.Avl ∧ c.Avl ∧ qs = b.nodes + c.nodes + 1 ∧
      q.nodes = b.nodes + c.nodes + 1 ∧ (q.balance = sign dir ∧ b.height = k ∧ c.height = k + 1 ∨
        q.balance = 0 ∧ b.height = k + 1 ∧ c.height = k + 1 ∨
          q.balance = -sign dir ∧ b.height = k + 1 ∧ c.height = k) := by
  obtain ⟨qe, qb, qs, b, c, rfl⟩ := exists_link dir (t := q) (by omega)
  obtain ⟨hb, hc, hqb, hlo, hhi, hqs⟩ := avl_link.mp hq
  rw [height_link] at hqk
  refine ⟨qe, qs, b, c, by rw [balance_link], hb, hc, hqs, nodes_link, ?_⟩
  rw [balance_link]
  cases dir <;> simp only [sign, if_true, Bool.false_eq_true, if_false] at hqb ⊢ <;> omega

theorem replaces_rotate1 (ha : a.Avl) (hq : q.Avl) (hak : a.height = k) (hqk : q.height = k + 2)
    (hps : ps = a.nodes + q.nodes + 1) (hb : q.balance = sign dir) :
    Replaces (rotate1 dir (link dir pe 0 ps a (q.setBalance 0))) (link dir pe pb ps a q) (k + 2) := by
  obtain ⟨qe, qs, b, c, hlink, hbavl, hcavl, hqs, hnodes, hsides⟩ := exists_link_of_height dir hq hqk
  have hsign : sign dir ≠ 0 ∧ sign dir ≠ -sign dir := by cases dir <;> decide
  have hheights : b.height = k ∧ c.height = k + 1 := by
    rw [hb] at hsides
    rcases hsides with h | h | h
    · exact h.2
    · exact absurd h.1 hsign.1
    · exact absurd h.1 hsign.2
  rw [hnodes] at hps
  rw [hlink, setBalance_link]
  refine ⟨avl_rotate1 ha hbavl hcavl hps hqs ?_ (by decide) (by decide) ?_ (by decide) (by decide), ?_, ?_⟩
  · simp [hak, hheights.1]
  · simp [hak, hheights.1, hheights.2]
  · rw [height_rotate1]
    omega
  · rw [toList_rotate1]
    cases dir <;> rfl

theorem replaces_rotate1_even (ha : a.Avl) (hq : q.Avl) (hak : a.height = k) (hqk : q.height = k + 2)
    (hps : ps = a.nodes + q.nodes + 1) (hb : q.balance = 0) :
    Replaces (rotate1 dir (link dir pe (sign dir) ps a (q.setBalance (-sign dir)))) (link dir pe pb ps a q)
      (k + 3) := by
  obtain ⟨qe, qs, b, c, hlink, hbavl, hcavl, hqs, hnodes, hsides⟩ := exists_link_of_height dir hq hqk
  have hsign : (0 : Int) ≠ sign dir ∧ (0 : Int) ≠ -sign dir := by cases dir <;> decide
  have hheights : b.height = k + 1 ∧ c.height = k + 1 := by
    rw [hb] at hsides
    rcases hsides with h | h | h
    · exact absurd h.1 hsign.1
    · exact h.2
    · exact absurd h.1 hsign.2
  rw [hnodes] at hps
  rw [hlink, setBalance_link]
  have hrange : -1 ≤ sign dir ∧ sign dir ≤ 1 ∧ -1 ≤ -sign dir ∧ -sign dir ≤ 1 := by cases dir <;> decide
  refine ⟨avl_rotate1 ha hbavl hcavl hps hqs ?_ hrange.1 hrange.2.1 ?_ hrange.2.2.1 hrange.2.2.2, ?_, ?_⟩
  · simp [hak, hheights.1]
  · simp [hak, hheights.1, hheights.2]
  · rw [height_rotate1]
    omega
  · rw [toList_rotate1]
    cases dir <;> rfl

theorem replaces_rotate2 (ha : a.Avl) (hq : q.Avl) (hak : a.height = k) (hqk : q.height = k + 2)
    (hps : ps = a.nodes + q.nodes + 1) (hb : q.balance = -sign dir) :
    Replaces (rotate2 dir (link dir pe pb ps a q)) (link dir pe pb ps a q) (k + 2) := by
  obtain ⟨qe, qs, r, d, hlink, hravl, hdavl, hqs, hnodes, hsides⟩ := exists_link_of_height dir hq hqk
  have hsign : -sign dir ≠ sign dir ∧ -sign dir ≠ 0 := by cases dir <;> decide
  have hheights : r.height = k + 1 ∧ d.height = k := by
    rw [hb] at hsides
    rcases hsides with h | h | h
    · exact absurd h.1 hsign.1
    · exact absurd h.1 hsign.2
    · exact h.2
  obtain ⟨re, rb, rs, b, c, rfl⟩ := exists_link dir (t := r) (by omega)
  have hrs := hravl.size_eq
  rw [size_link] at hrs
  rw [hnodes, ← hrs] at hps
  rw [← hrs] at hqs
  rw [hlink]
  refine ⟨avl_rotate2 ha hravl hdavl hps hqs hak hheights.1 hheights.2, ?_, toList_rotate2⟩
  rw [height_rotate2]
  rw [height_link] at hheights
  omega

-- The node bp after an insertion.
theorem replaces_rebalance (ha : a.Avl) (hq : q.Avl) (hak : a.height = k) (hqk : q.height = k + 2)
    (hps : ps = a.nodes + q.nodes + 1) (hb : q.balance ≠ 0) :
    Replaces (rebalance (link dir pe (2 * sign dir) ps a q)) (link dir pe (2 * sign dir) ps a q) (k + 2) := by
  have hout : ¬(-2 < 2 * sign dir ∧ 2 * sign dir < 2) := by cases dir <;> decide
  have hwhich : decide (2 * sign dir < 0) = dir := by cases dir <;> decide
  rw [rebalance, balance_link, if_neg hout]
  simp only [hwhich, child_not_link, setBalance_link, setChild_not_link]
  by_cases hsign : q.balance = sign dir
  · rw [if_pos hsign]
    exact replaces_rotate1 ha hq hak hqk hps hsign
  · rw [if_neg hsign]
    obtain ⟨_, _, _, _, _, _, _, _, _, hsides⟩ := exists_link_of_height dir hq hqk
    exact replaces_rotate2 ha hq hak hqk hps (by tauto)

end high

-- The deepest node that was not in balance takes its height back.
theorem rebalance_grow {f : Frame α} {h n : Nat} {path : List (Frame α)} {s : AvlTree α}
    (hf : AvlPath h n (f :: path)) (hb : f.balance ≠ 0) (hs : s.Avl) (hh : s.height = h + 1)
    (hn : s.nodes = n + 1) (hnz : h = 0 ∨ s.balance ≠ 0) :
    Replaces (rebalance ((grow f).fill s)) ((grow f).fill s) (max h f.other.height + 1) := by
  obtain ⟨hother, hbal, hlo, hhi, hsize, -⟩ := hf
  obtain ⟨dir, e, b, size, other⟩ := f
  simp only at hother hbal hlo hhi hsize hb
  simp only [grow, Frame.fill]
  have hsides : b - sign dir = 0 ∧ other.height = h + 1 ∨
      b - sign dir = 2 * sign (!dir) ∧ other.height + 1 = h := by
    cases dir <;> simp only [sign, Bool.not_true, Bool.not_false, if_true, Bool.false_eq_true, if_false] at hbal ⊢ <;>
      omega
  rcases hsides with ⟨hzero, hlow⟩ | ⟨htwo, hhigh⟩
  · rw [hzero, rebalance, balance_link, if_pos (by decide)]
    refine ⟨avl_link.mpr ⟨hs, hother, ?_, by decide, by decide, ?_⟩, ?_, rfl⟩
    · simp [hlow, hh]
    · omega
    · rw [height_link]
      omega
  · rw [htwo, ← link_not, max_eq_left (by omega)]
    have hne : s.balance ≠ 0 := hnz.resolve_left (by omega)
    have hrep : Replaces _ (link (!dir) e (2 * sign !dir) (size + 1) other s) _ :=
      replaces_rebalance hother hs rfl (by omega) (by omega) hne
    rwa [show other.height + 2 = h + 1 by omega] at hrep

theorem attach_cons_zero {f : Frame α} (path : List (Frame α)) (x : AvlTree α) (hb : f.balance = 0) :
    attach (f :: path) x = attach path ((grow f).fill x) := by
  simp [attach, hb, fill]

theorem attach_cons_ne {f : Frame α} (path : List (Frame α)) (x : AvlTree α) (hb : f.balance ≠ 0) :
    attach (f :: path) x = fill (resize (· + 1) path) (rebalance ((grow f).fill x)) := by
  simp [attach, hb, fill]

-- The new subtree stands where the path had a subtree of h levels and n nodes.
theorem attach_spec {path : List (Frame α)} {x : AvlTree α} {h n : Nat} (hpath : AvlPath h n path) (hx : x.Avl)
    (hh : x.height = h + 1) (hn : x.nodes = n + 1) (hnz : h = 0 ∨ x.balance ≠ 0) :
    (attach path x).Avl ∧ (attach path x).toList = before path ++ x.toList ++ after path := by
  induction path generalizing x h n with
  | nil => exact ⟨hx, by simp [attach, fill, before, after]⟩
  | cons f path ih =>
      have hfill : ((grow f).fill x).toList = f.before ++ x.toList ++ f.after := Frame.toList_fill _ x
      by_cases hb : f.balance = 0
      · obtain ⟨hother, hbal, hlo, hhi, hsize, hrest⟩ := hpath
        have hgrown : (grow f).balance = -sign f.dir := by simp [grow, hb]
        have hheight : f.other.height = h := by
          rw [hb] at hbal
          cases hdir : f.dir <;> simp only [hdir, sign, if_true, Bool.false_eq_true, if_false] at hbal <;> omega
        have hrange : -1 ≤ -sign f.dir ∧ -sign f.dir ≤ 1 := by cases f.dir <;> decide
        have havl : ((grow f).fill x).Avl := by
          refine avl_link.mpr ⟨hx, hother, ?_, ?_, ?_, ?_⟩
          · rw [hgrown, hh, grow, hheight]
            push_cast
            ring
          · rw [hgrown]
            exact hrange.1
          · rw [hgrown]
            exact hrange.2
          · simp only [grow, hsize, hn]
            omega
        rw [max_eq_left hheight.le] at hrest
        have hstep := ih hrest havl (by simp only [Frame.fill, grow, height_link]; omega)
          (by simp only [Frame.fill, grow, nodes_link]; omega)
          (.inr (by rw [Frame.fill, balance_link, hgrown]; cases f.dir <;> decide))
        rw [attach_cons_zero path x hb]
        refine ⟨hstep.1, ?_⟩
        rw [hstep.2, hfill, before, after]
        simp only [List.append_assoc]
      · have hrep := rebalance_grow hpath hb hx hh hn hnz
        have hrest := hpath.2.2.2.2.2.resize_succ
        rw [attach_cons_ne path x hb, avl_fill, toList_fill, hrep.height, hrep.nodes, hrep.toList, hfill,
          before_resize, after_resize]
        refine ⟨⟨hrep.avl, ?_⟩, ?_⟩
        · simp only [Frame.fill, grow, nodes_link, hn]
          rwa [show n + 1 + f.other.nodes + 1 = n + f.other.nodes + 1 + 1 by omega]
        · rw [before, after]
          simp only [List.append_assoc]

-- The subtree at the end of the path has lost a level, and the sizes above it are right already.
theorem retrace_spec {path : List (Frame α)} {t : AvlTree α} {h : Nat} (hpath : AvlPath h t.nodes path)
    (ht : t.Avl) (hh : t.height + 1 = h) :
    (retrace path t).Avl ∧ (retrace path t).toList = before path ++ t.toList ++ after path := by
  induction path generalizing t h with
  | nil => exact ⟨ht, by simp [retrace, before, after]⟩
  | cons f path ih =>
      obtain ⟨hother, hbal, hlo, hhi, hsize, hrest⟩ := hpath
      obtain ⟨dir, e, b, size, other⟩ := f
      simp only at hother hbal hlo hhi hsize hrest
      have hlist (u : AvlTree α) (hu : u.toList = (link dir e (b + sign dir) size t other).toList) :
          before path ++ u.toList ++ after path =
            before (⟨dir, e, b, size, other⟩ :: path) ++ t.toList ++ after (⟨dir, e, b, size, other⟩ :: path) := by
        rw [hu, toList_link, before, after, Frame.before, Frame.after]
        simp only [List.append_assoc]
      have hsides : b + sign dir = sign dir ∧ other.height = h ∨
          b + sign dir = 2 * sign dir ∧ other.height = h + 1 ∨ b + sign dir = 0 ∧ other.height + 1 = h := by
        cases dir <;> simp only [sign, if_true, Bool.false_eq_true, if_false] at hbal ⊢ <;> omega
      have hsign : sign dir ≠ 0 ∧ sign dir ≠ 2 * sign dir ∧ sign dir ≠ -sign dir := by cases dir <;> decide
      simp only [retrace, Frame.fill, balance_link, child_not_link, setBalance_link, setChild_not_link]
      rcases hsides with ⟨hone, hsame⟩ | ⟨htwo, hhigh⟩ | ⟨hzero, hlow⟩
      · rw [if_pos hone, avl_fill, toList_fill, height_link, nodes_link]
        refine ⟨⟨avl_link.mpr ⟨ht, hother, ?_, ?_, ?_, hsize⟩, ?_⟩, hlist _ rfl⟩
        · rw [hone, hsame, ← hh]
          push_cast
          ring
        · rw [hone]
          cases dir <;> decide
        · rw [hone]
          cases dir <;> decide
        · rwa [show max t.height other.height = max h other.height by omega]
      · rw [if_neg (by rw [htwo]; exact hsign.2.1.symm), if_pos htwo]
        have hk : other.height = t.height + 2 := by omega
        have hpath2 : AvlPath (t.height + 3) (t.nodes + other.nodes + 1) path := by
          rwa [show max h other.height + 1 = t.height + 3 by omega] at hrest
        obtain ⟨_, _, _, _, _, _, _, _, _, hbals⟩ := exists_link_of_height dir hother hk
        -- Each rotation has the elements of the subtree; the even one also keeps its height.
        by_cases hr1 : other.balance = -sign dir
        · rw [if_pos hr1]
          have hrep : Replaces _ (link dir e (b + sign dir) size t other) _ :=
            replaces_rotate2 ht hother rfl hk hsize hr1
          have hnext := ih (by rw [hrep.nodes, nodes_link]; exact hpath2) hrep.avl (by rw [hrep.height])
          exact ⟨hnext.1, hnext.2.trans (hlist _ hrep.toList)⟩
        · rw [if_neg hr1]
          by_cases hr0 : other.balance = 0
          · rw [if_pos hr0]
            have hrep : Replaces _ (link dir e (b + sign dir) size t other) _ :=
              replaces_rotate1_even ht hother rfl hk hsize hr0
            rw [avl_fill, toList_fill, hrep.height, hrep.nodes, nodes_link]
            exact ⟨⟨hrep.avl, hpath2⟩, hlist _ hrep.toList⟩
          · rw [if_neg hr0]
            have hrep : Replaces _ (link dir e (b + sign dir) size t other) _ :=
              replaces_rotate1 ht hother rfl hk hsize (by tauto)
            have hnext := ih (by rw [hrep.nodes, nodes_link]; exact hpath2) hrep.avl (by rw [hrep.height])
            exact ⟨hnext.1, hnext.2.trans (hlist _ hrep.toList)⟩
      · rw [if_neg (by rw [hzero]; exact hsign.1.symm), if_neg (by rw [hzero]; cases dir <;> decide)]
        have hsame : t.height = other.height := by omega
        have havl : (link dir e (b + sign dir) size t other).Avl := by
          refine avl_link.mpr ⟨ht, hother, ?_, ?_, ?_, hsize⟩ <;> rw [hzero]
          · simp [hsame]
          · decide
          · decide
        have hnext := ih (h := max h other.height + 1) (by rw [nodes_link]; exact hrest) havl
          (by rw [height_link]; omega)
        exact ⟨hnext.1, hnext.2.trans (hlist _ rfl)⟩

-- p1 has an element, and r is the smallest one.
theorem eraseNode_spec {path : List (Frame α)} {elem : α} {b : Int} {s : Nat} {p0 p1 : AvlTree α}
    (h : (fill path (node elem b s p0 p1)).Avl) :
    (eraseNode path b s p0 p1).Avl ∧
      (eraseNode path b s p0 p1).toList = before path ++ (p0.toList ++ p1.toList) ++ after path := by
  obtain ⟨⟨h0, h1, hb, hlo, hhi, hs⟩, hpath⟩ := avl_fill.mp h
  simp only [height, nodes] at hpath
  unfold eraseNode
  by_cases hp1 : p1 = nil
  · subst hp1
    have hlow : p0.height + 1 = max p0.height 0 + 1 := by omega
    have hret := retrace_spec (t := p0) hpath.resize_pred h0 hlow
    simp only [descendLeft]
    exact ⟨hret.1, by simpa [before_resize, after_resize, toList] using hret.2⟩
  · obtain ⟨r, rb, rs, r1, hnode, hbefore⟩ := descendLeft_spec hp1 []
    have hfill : fill (descendLeft [] p1).1 (descendLeft [] p1).2 = p1 := fill_descendLeft [] p1
    rw [hnode] at hfill
    rw [show descendLeft [] p1 = ((descendLeft [] p1).1, node r rb rs nil r1) by rw [← hnode]]
    simp only
    generalize (descendLeft [] p1).1 = between at hbefore hfill
    have hbetween := avl_fill.mp (hfill ▸ h1 : (fill between (node r rb rs nil r1)).Avl)
    obtain ⟨⟨-, hr1, -⟩, hpathr⟩ := hbetween
    simp only [nodes, height, Nat.zero_add, Nat.zero_max] at hpathr
    have hheight : pathHeight (r1.height + 1) between = p1.height := by
      rw [← hfill, height_fill]
      simp [height]
    have hnodes : pathNodes r1.nodes between + 1 = p1.nodes := by
      rw [← hfill, nodes_fill, ← pathNodes_add]
      simp [nodes]
    -- The new path leads through the place of p, which r has taken.
    have hnew : AvlPath (r1.height + 1) r1.nodes
        (resize (· - 1) between ++ ⟨true, r, b, s - 1, p0⟩ :: resize (· - 1) path) := by
      rw [avlPath_append, pathHeight_resize, pathNodes_resize, hheight]
      refine ⟨hpathr.resize_pred, h0, ?_, hlo, hhi, ?_, ?_⟩
      · simp [hb, sign]
      · simp only [hs]
        omega
      · rw [max_comm]
        refine AvlPath.resize_pred ?_
        rwa [show pathNodes r1.nodes between + p0.nodes + 1 + 1 = p0.nodes + p1.nodes + 1 by omega]
    have hret := retrace_spec hnew hr1 rfl
    refine ⟨hret.1, ?_⟩
    have hlist : p1.toList = r :: (r1.toList ++ after between) := by
      rw [← hfill, toList_fill, hbefore]
      simp [before, toList]
    rw [hret.2, before_append, after_append, before_resize, after_resize, hbefore, hlist]
    simp [before, after, Frame.before, Frame.after, before_resize, after_resize]

-- kavl_find takes the way of the other searches.
theorem kavlFind_eq (cmp : α → α → Ordering) (x : α) (path : List (Frame α)) (t : AvlTree α) :
    kavlFind cmp x t (rank path) =
      match descend cmp x path t with
      | (path, nil) => (none, rank path)
      | (path, node elem _ _ p0 _) => (some elem, rank path + (p0.size + 1)) := by
  induction t generalizing path with
  | nil => rfl
  | node elem b s p0 p1 ih0 ih1 =>
      rw [kavlFind, descend]
      cases hcmp : cmp x elem with
      | lt =>
          have hstep := ih0 (⟨false, elem, b, s, p1⟩ :: path)
          rwa [show rank (⟨false, elem, b, s, p1⟩ :: path) = rank path by simp [rank]] at hstep
      | gt =>
          have hstep := ih1 (⟨true, elem, b, s, p0⟩ :: path)
          rwa [show rank (⟨true, elem, b, s, p0⟩ :: path) = rank path + (p0.size + 1) by simp [rank, Nat.add_comm]]
            at hstep
      | eq => rfl

-- A tree of elements in order, as the operations find and leave it.
structure Ordered (cmp : α → α → Ordering) (root : AvlTree α) : Prop where
  avl : root.Avl
  sorted : root.Sorted cmp

section order

variable {cmp : α → α → Ordering} [Std.TransCmp cmp] {root : AvlTree α} {x : α}

theorem Ordered.found (h : Ordered cmp root) (x : α) : Found cmp x root.toList (descend cmp x [] root) := by
  have hfound := found_descend h.sorted (show Around cmp x (before []) (after []) from
    ⟨by simp [before], by simp [after]⟩)
  simpa [before, after] using hfound

omit [Std.TransCmp cmp] in
theorem Ordered.avl_descend (h : Ordered cmp root) {path : List (Frame α)} {t : AvlTree α}
    (hdesc : descend cmp x [] root = (path, t)) : (fill path t).Avl := by
  have hfill := fill_descend cmp x [] root
  rw [hdesc] at hfill
  exact hfill ▸ h.avl

-- The counts that the sizes give are those of the elements.
omit [Std.TransCmp cmp] in
theorem Ordered.rank_eq (h : Ordered cmp root) {path : List (Frame α)} {t : AvlTree α}
    (hdesc : descend cmp x [] root = (path, t)) : rank path = (before path).length :=
  (avl_fill.mp (h.avl_descend hdesc)).2.rank_eq

omit [Std.TransCmp cmp] in
theorem Ordered.rank_node_eq (h : Ordered cmp root) {path : List (Frame α)} {elem : α} {b : Int} {s : Nat}
    {p0 p1 : AvlTree α} (hdesc : descend cmp x [] root = (path, node elem b s p0 p1)) :
    rank path + (p0.size + 1) = (before path ++ p0.toList).length + 1 := by
  have hnode := (avl_fill.mp (h.avl_descend hdesc)).1
  rw [h.rank_eq hdesc, List.length_append, length_toList, hnode.1.size_eq]
  rfl

theorem kavlFind_spec (h : Ordered cmp root) :
    kavlFind cmp x root 0 = (listFind cmp x root.toList, listCount cmp x root.toList) := by
  have hfind := kavlFind_eq cmp x [] root
  have hfound := h.found x
  rw [show rank ([] : List (Frame α)) = 0 from rfl] at hfind
  rw [hfind]
  generalize hdesc : descend cmp x [] root = found at hfound ⊢
  cases hfound with
  | absent hl haround =>
      simp only
      rw [hl, haround.listFind_append, haround.listCount_append, h.rank_eq hdesc]
  | present helem hl haround =>
      simp only
      rw [hl, haround.listFind_cons helem, haround.listCount_cons helem, h.rank_node_eq hdesc]

theorem kavlInsert_spec (h : Ordered cmp root) :
    Ordered cmp (kavlInsert cmp root x).1 ∧ (kavlInsert cmp root x).1.toList = listInsert cmp x root.toList ∧
      (kavlInsert cmp root x).2 = ((listFind cmp x root.toList).getD x, listCount cmp x root.toList) := by
  have hfound := h.found x
  rw [kavlInsert]
  generalize hdesc : descend cmp x [] root = found at hfound ⊢
  cases hfound with
  | absent hl haround =>
      obtain ⟨havl, hlist⟩ := attach_spec (x := node x 0 1 nil nil) (avl_fill.mp (h.avl_descend hdesc)).2
        (by simp [Avl, height, nodes]) rfl rfl (.inl rfl)
      simp only
      rw [hl, haround.listInsert_append, haround.listFind_append, haround.listCount_append, h.rank_eq hdesc]
      refine ⟨⟨havl, ?_⟩, by simpa [toList] using hlist, rfl⟩
      have hpair := haround.pairwise (hl ▸ h.sorted)
      rw [Sorted, hlist]
      simpa [toList] using hpair
  | present helem hl haround =>
      simp only
      rw [listInsert, hl, haround.listFind_cons helem, haround.listCount_cons helem, h.rank_node_eq hdesc]
      exact ⟨h, rfl, rfl⟩

omit [Std.TransCmp cmp] in
theorem Ordered.of_sublist {t : AvlTree α} (h : Ordered cmp root) (ht : t.Avl) (hlist : t.toList.Sublist root.toList) :
    Ordered cmp t := ⟨ht, h.sorted.sublist hlist⟩

theorem kavlErase_spec (h : Ordered cmp root) :
    Ordered cmp (kavlErase cmp root x).1 ∧ (kavlErase cmp root x).1.toList = listErase cmp x root.toList ∧
      (kavlErase cmp root x).2 = (listFind cmp x root.toList,
        if (listFind cmp x root.toList).isSome then listCount cmp x root.toList else 0) := by
  have hfound := h.found x
  rw [kavlErase]
  generalize hdesc : descend cmp x [] root = found at hfound ⊢
  cases hfound with
  | absent hl haround =>
      rw [hl, haround.listFind_append, haround.listErase_append]
      exact ⟨h, rfl, rfl⟩
  | @present path elem b s p0 p1 helem hl haround =>
      obtain ⟨havl, hlist⟩ := eraseNode_spec (h.avl_descend hdesc)
      have herase : (eraseNode path b s p0 p1).toList = listErase cmp x root.toList := by
        rw [hl, haround.listErase_cons helem, hlist]
        simp
      refine ⟨h.of_sublist havl (herase ▸ List.filter_sublist), herase, ?_⟩
      simp only
      rw [hl, haround.listFind_cons helem, haround.listCount_cons helem, h.rank_node_eq hdesc]
      rfl

@[simp] theorem kavlEraseFirst_nil : kavlEraseFirst (nil : AvlTree α) = none := rfl

omit [Std.TransCmp cmp] in
theorem kavlEraseFirst_spec (h : Ordered cmp root) (hnil : root ≠ nil) :
    ∃ root' x, kavlEraseFirst root = some (root', x, 1) ∧ Ordered cmp root' ∧ root.toList = x :: root'.toList := by
  obtain ⟨elem, b, s, p1, hnode, hbefore⟩ := descendLeft_spec hnil []
  have hfill : fill (descendLeft [] root).1 (descendLeft [] root).2 = root := fill_descendLeft [] root
  rw [hnode] at hfill
  rw [kavlEraseFirst, show descendLeft [] root = ((descendLeft [] root).1, node elem b s nil p1) by rw [← hnode]]
  simp only
  generalize (descendLeft [] root).1 = path at hbefore hfill
  obtain ⟨havl, hlist⟩ := eraseNode_spec (show (fill path (node elem b s nil p1)).Avl from hfill ▸ h.avl)
  have hroot : root.toList = elem :: (eraseNode path b s nil p1).toList := by
    rw [hlist, ← hfill, toList_fill, hbefore]
    simp [before, toList]
  refine ⟨_, _, rfl, ⟨havl, ?_⟩, hroot⟩
  have hsorted := h.sorted
  rw [Sorted, hroot] at hsorted
  exact hsorted.tail

end order

inductive Op (α : Type*) where
  | find (x : α)
  | insert (x : α)
  | erase (x : α)
  | eraseFirst

-- none is undefined.
def kavlStep (cmp : α → α → Ordering) (root : AvlTree α) : Op α → Option (AvlTree α × Option α × Nat)
  | .find x => some (root, kavlFind cmp x root 0)
  | .insert x => some ((kavlInsert cmp root x).1, some (kavlInsert cmp root x).2.1, (kavlInsert cmp root x).2.2)
  | .erase x => some (kavlErase cmp root x)
  | .eraseFirst => (kavlEraseFirst root).map fun erased => (erased.1, some erased.2.1, erased.2.2)

-- An empty list has no first element.
def listStep (cmp : α → α → Ordering) (l : List α) : Op α → Option (List α × Option α × Nat)
  | .find x => some (l, listFind cmp x l, listCount cmp x l)
  | .insert x => some (listInsert cmp x l, some ((listFind cmp x l).getD x), listCount cmp x l)
  | .erase x =>
      some (listErase cmp x l, listFind cmp x l, if (listFind cmp x l).isSome then listCount cmp x l else 0)
  | .eraseFirst =>
      match l with
      | [] => none
      | x :: rest => some (rest, some x, 1)

-- The entries of the path that an operation keeps on its stack, and none where it goes in front of the first one. The
-- first one of an erasure is fake.
def pathLength (cmp : α → α → Ordering) (root : AvlTree α) : Op α → Option Nat
  | .find _ => some 0
  | .insert x => some (descend cmp x [] root).1.length
  | .erase x =>
      match descend cmp x [] root with
      | (path, nil) => some (path.length + 1)
      | (path, node _ _ _ _ nil) => some (path.length + 1)
      | (path, node _ _ _ _ p1) => some (path.length + 1 + (1 + (descendLeft [] p1).1.length))
  | .eraseFirst =>
      match descendLeft [] root with
      | (_, nil) => none
      | (path, node _ _ _ _ nil) => some (path.length + 2)
      | (path, node _ _ _ _ p1) =>
          some (max (path.length + 2) (path.length + 1 + (1 + (descendLeft [] p1).1.length)))

section runs

variable {cmp : α → α → Ordering} [Std.TransCmp cmp]

-- The tree stands for the ordered list of its elements.
def StandsFor (cmp : α → α → Ordering) (root : AvlTree α) (l : List α) : Prop := Ordered cmp root ∧ root.toList = l

theorem kavlStep_spec {root : AvlTree α} {l : List α} (h : StandsFor cmp root l) (op : Op α) :
    Alike (StandsFor cmp) (kavlStep cmp root op) (listStep cmp l op) := by
  obtain ⟨h, rfl⟩ := h
  cases op with
  | find x => exact .some ⟨⟨h, rfl⟩, kavlFind_spec h⟩
  | insert x =>
      obtain ⟨hordered, hlist, hanswer⟩ := kavlInsert_spec (x := x) h
      exact .some ⟨⟨hordered, hlist⟩, by rw [hanswer]⟩
  | erase x =>
      obtain ⟨hordered, hlist, hanswer⟩ := kavlErase_spec (x := x) h
      exact .some ⟨⟨hordered, hlist⟩, hanswer⟩
  | eraseFirst =>
      by_cases hnil : root = nil
      · subst hnil
        exact .none
      · obtain ⟨root', x, herased, hordered, hlist⟩ := kavlEraseFirst_spec h hnil
        rw [hlist, kavlStep, herased]
        exact .some ⟨⟨hordered, rfl⟩, rfl⟩

omit [Std.TransCmp cmp] in
theorem ordered_nil : Ordered cmp nil := ⟨trivial, List.Pairwise.nil⟩

-- The trees stay balanced and in order, and answer as an ordered list does; what is undefined for the one is undefined
-- for the other.
theorem kavl_refines_list (ops : List (Op α)) :
    Alike (StandsFor cmp) (definedCalls (kavlStep cmp) nil ops) (definedCalls (listStep cmp) [] ops) :=
  definedCalls_simulation (StandsFor cmp) (fun _ _ op h => kavlStep_spec h op) ⟨ordered_nil, rfl⟩ ops

end runs

theorem length_descendLeft_lt {t : AvlTree α} (h : t ≠ nil) : (descendLeft [] t).1.length + 1 ≤ t.height := by
  obtain ⟨elem, b, s, p1, hnode, -⟩ := descendLeft_spec h []
  have hle := length_descendLeft_le [] t
  rw [hnode] at hle
  simp only [height, List.length_nil] at hle
  omega

theorem pathLength_le {cmp : α → α → Ordering} {root : AvlTree α} {op : Op α} {n : Nat}
    (hn : pathLength cmp root op = some n) : n ≤ root.height + 1 := by
  cases op with
  | find x =>
      obtain rfl := Option.some.inj hn
      exact Nat.zero_le _
  | insert x =>
      have hle := length_descend_le cmp x [] root
      obtain rfl := Option.some.inj hn
      simp only [List.length_nil] at hle
      omega
  | erase x =>
      have hle := length_descend_le cmp x [] root
      simp only [List.length_nil] at hle
      simp only [pathLength] at hn
      split at hn
      case h_1 hdesc =>
        obtain rfl := Option.some.inj hn
        rw [hdesc] at hle
        simp only at hle
        omega
      case h_2 hdesc =>
        obtain rfl := Option.some.inj hn
        rw [hdesc] at hle
        simp only at hle
        omega
      case h_3 hnil hdesc =>
        obtain rfl := Option.some.inj hn
        rw [hdesc] at hle
        have hlt := length_descendLeft_lt hnil
        simp only [height] at hle
        omega
  | eraseFirst =>
      have hle := length_descendLeft_le [] root
      simp only [List.length_nil] at hle
      simp only [pathLength] at hn
      split at hn
      case h_1 => cases hn
      case h_2 hdesc =>
        obtain rfl := Option.some.inj hn
        rw [hdesc] at hle
        simp only [height] at hle
        omega
      case h_3 hnil hdesc =>
        obtain rfl := Option.some.inj hn
        rw [hdesc] at hle
        have hlt := length_descendLeft_lt hnil
        simp only [height] at hle
        omega

-- Only what is undefined goes in front of the path.
theorem pathLength_eq_none_iff (cmp : α → α → Ordering) (root : AvlTree α) (op : Op α) :
    pathLength cmp root op = none ↔ kavlStep cmp root op = none := by
  cases op with
  | find x => simp [pathLength, kavlStep]
  | insert x => simp [pathLength, kavlStep]
  | erase x =>
      simp only [pathLength, kavlStep]
      split <;> simp
  | eraseFirst =>
      rw [kavlStep, Option.map_eq_none_iff, pathLength, kavlEraseFirst]
      rcases descendLeft [] root with ⟨path, _ | ⟨elem, balance, size, p0, _ | p1⟩⟩ <;> simp

-- With as many elements as an unsigned size can count, no operation comes near the end of its stacks.
theorem pathLength_le_kavlMaxDepth {cmp : α → α → Ordering} {root : AvlTree α} {op : Op α} {n : Nat}
    (h : Ordered cmp root) (hnodes : root.nodes < 2 ^ 32) (hn : pathLength cmp root op = some n) :
    n ≤ kavlMaxDepth := by
  have hfib := h.avl.fib_le
  have hpath := pathLength_le hn
  have hheight : root.height < 46 := by
    by_contra hge
    have hmono : Nat.fib 48 ≤ Nat.fib (root.height + 2) := Nat.fib_mono (by omega)
    have hfib48 : Nat.fib 48 = 4807526976 := by norm_num
    omega
  rw [kavlMaxDepth]
  omega

end ToInet.Byedpi.Kavl
