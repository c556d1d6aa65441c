import ToInet.Byedpi.Extend.ModeAddGet
import ToInet.Lib.Outcome
import ToInet.Lib.SparseSet

-- The pool of sockets of byedpi, with epoll (conev.c).
namespace ToInet.Byedpi.Conev

open Function ToInet.Lib ToInet.Byedpi.Extend

inductive Eid where
  | accept | request | connect | ignore | tunnel | preTunnel | udpTunnel | desync
deriving DecidableEq

-- A null pointer is none, and the size is the number of bytes.
structure Buffer where
  data : Option Bytes
  offset : Nat

-- pair is the slot of the other eval.
structure Eval where
  fd : Int
  index : Nat
  modIter : Nat
  type : Eid
  pair : Option Nat
  buff : Buffer
  flag : Nat
  in6 : Option SockaddrIna
  recvCount : Nat
  attempt : Nat
  cache : Bool

-- An eval whose memory is zero but for what add_event sets.
def Eval.new (type : Eid) (fd : Int) : Eval :=
  ⟨fd, 0, 0, type, none, ⟨none, 0⟩, 0, none, 0, 0, false⟩

-- A closed eval, whose data is freed.
def Eval.closed (e : Eval) (iters : Nat) : Eval :=
  { e with fd := -1, modIter := iters, buff := { e.buff with data := none } }

-- The slots that the first count links name are in use. pevents holds the slots of the last epoll_wait with their
-- events.
structure Poolhd where
  max : Nat
  count : Nat
  links : Nat → Nat
  items : Nat → Eval
  pevents : List (Nat × Nat)
  iters : Nat

-- The assertions that can fail, the pointers that can be null, what lies outside of a buffer, and a sum that does not
-- fit an int.
inductive Abort where
  | addFd
  | delIter
  | delBuff
  | delLinks
  | delPair
  | delCount
  | noPair
  | noClient
  | again
  | checkOut
  | toTunnel
  | tunnelBuff
  | modeRange
  | modHttp
  | sendOob
  | logHost
  | offsetRange
  | redirectHost
  | tlsSid
  | s5Port
  | udpFrag
  | udpRoom
  | protectPath
deriving DecidableEq

def UINT_MAX : Nat := 2 ^ 32 - 1

-- items is as malloc returns it.
def initPool (count : Nat) (items : Nat → Eval) : Poolhd := ⟨count, 0, id, items, [], 0⟩

namespace Poolhd

def set (pool : Poolhd) (val : Nat) (e : Eval) : Poolhd := { pool with items := update pool.items val e }

def modify (pool : Poolhd) (val : Nat) (f : Eval → Eval) : Poolhd := pool.set val (f (pool.items val))

def enter (pool : Poolhd) (val : Nat) (e : Eval) : Poolhd := { pool.set val e with count := pool.count + 1 }

-- registered is whether epoll_ctl adds the socket.
def addEvent (pool : Poolhd) (type : Eid) (fd : Int) (registered : Bool) : Except Abort (Poolhd × Option Nat) :=
  if fd ≤ 0 then .error .addFd
  else if pool.max ≤ pool.count then .ok (pool, none)
  else
    let val := pool.links pool.count
    let e := { Eval.new type fd with index := pool.count, modIter := pool.iters }
    if registered then .ok (pool.enter val e, some val) else .ok (pool.set val e, none)

-- The part of del_event that takes one eval out of the pool.
def release (pool : Poolhd) (val : Nat) : Poolhd :=
  let v := pool.items val
  let count := pool.count - 1
  let pool := pool.set val (v.closed pool.iters)
  let ev := pool.links count
  if ev = val then { pool with count := count }
  else
    { pool.set ev { pool.items ev with index := v.index } with
      count := count, links := update (update pool.links v.index ev) count val }

-- Of the two halves of a pair only one points to the other from here on.
def cutPair (pool : Poolhd) (val p : Nat) : Poolhd :=
  if (pool.items p).pair = some val then pool.set p { pool.items p with pair := none } else pool

theorem count_set (pool : Poolhd) (val : Nat) (e : Eval) : (pool.set val e).count = pool.count := rfl

theorem count_release (pool : Poolhd) (val : Nat) : (pool.release val).count = pool.count - 1 := by
  rw [release]
  split <;> rfl

theorem count_cutPair (pool : Poolhd) (val p : Nat) : (pool.cutPair val p).count = pool.count := by
  rw [cutPair]
  split <;> rfl

-- The sockets that are closed are returned in order.
def delEvent (pool : Poolhd) (val : Nat) : Except Abort (Poolhd × List Int) :=
  let v := pool.items val
  if v.fd < -1 ∨ pool.iters < v.modIter then .error .delIter
  else if v.fd = -1 then .ok (pool, [])
  else if v.buff.data = some [] then .error .delBuff
  else if _ : pool.count = 0 then .error .delLinks
  else
    let released := pool.release val
    match v.pair with
    | none => if released.count = 0 then .error .delCount else .ok (released, [v.fd])
    | some p =>
        let cut := released.cutPair val p
        match (cut.items val).pair with
        | none => .error .delPair
        | some e =>
            match (cut.set val { cut.items val with pair := none }).delEvent e with
            | .error abort => .error abort
            | .ok (rest, closed) => if rest.count = 0 then .error .delCount else .ok (rest, v.fd :: closed)
termination_by pool.count
decreasing_by
  rw [count_set, count_cutPair, count_release]
  exact Nat.sub_one_lt ‹¬pool.count = 0›

-- left is the place of the last event that is still to be handed out, plus one.
def nextReady (pool : Poolhd) : Nat → Option (Nat × Nat × Nat)
  | 0 => none
  | left + 1 =>
      match pool.pevents[left]? with
      | none => none
      | some (val, events) =>
          if (pool.items val).modIter = pool.iters then pool.nextReady left else some (val, events, left)

def waited (pool : Poolhd) (events : List (Nat × Nat)) : Poolhd :=
  { pool with pevents := events, iters := (if pool.iters = UINT_MAX then 0 else pool.iters) + 1 }

-- waits has the events of each epoll_wait; it fails where they come to an end or are none.
def nextEvent (pool : Poolhd) (left : Nat) : List (List (Nat × Nat)) → Poolhd × Option (Nat × Nat × Nat)
  | [] => (pool, pool.nextReady left)
  | events :: waits =>
      match pool.nextReady left with
      | some ready => (pool, some ready)
      | none => if events = [] then (pool, none) else (pool.waited events).nextEvent events.length waits

def Live (pool : Poolhd) (v : Nat) : Prop := Used pool.count pool.links v

instance (pool : Poolhd) (v : Nat) : Decidable (pool.Live v) :=
  inferInstanceAs (Decidable (∃ i < pool.count, pool.links i = v))

structure WellFormed (pool : Poolhd) : Prop where
  slots : SparseSet pool.max pool.count pool.links fun v => (pool.items v).index
  fd_pos : ∀ v, pool.Live v → 0 < (pool.items v).fd

end Poolhd

-- An eval without what the pool needs it for.
def Eval.strip (e : Eval) : Eval := { e with index := 0, modIter := 0 }

namespace Poolhd

-- What is open, by slot.
def view (pool : Poolhd) (v : Nat) : Option Eval := if pool.Live v then some (pool.items v).strip else none

-- A change within one iteration marks every eval that it adds or takes out.
structure Tracks (pool pool' : Poolhd) : Prop where
  iters : pool'.iters = pool.iters
  pevents : pool'.pevents = pool.pevents
  max : pool'.max = pool.max
  marked : ∀ v, (pool'.items v).modIter = pool.iters ∨
    (pool'.items v).modIter = (pool.items v).modIter ∧ (pool'.Live v ↔ pool.Live v)

theorem Tracks.refl (pool : Poolhd) : Tracks pool pool := ⟨rfl, rfl, rfl, fun _ => .inr ⟨rfl, Iff.rfl⟩⟩

theorem Tracks.trans {a b c : Poolhd} (hab : Tracks a b) (hbc : Tracks b c) : Tracks a c := by
  refine ⟨hbc.iters.trans hab.iters, hbc.pevents.trans hab.pevents, hbc.max.trans hab.max, fun v => ?_⟩
  rcases hbc.marked v with hmark | ⟨hsame, hlive⟩
  · exact .inl (hmark.trans hab.iters)
  · rcases hab.marked v with hmark | ⟨hsame', hlive'⟩
    · exact .inl (hsame.trans hmark)
    · exact .inr ⟨hsame.trans hsame', hlive.trans hlive'⟩

variable {pool : Poolhd} {v : Nat}

theorem view_eq_some_iff {e : Eval} : pool.view v = some e ↔ pool.Live v ∧ (pool.items v).strip = e := by
  rw [view]
  split <;> simp_all

theorem view_eq_none_iff : pool.view v = none ↔ ¬pool.Live v := by
  rw [view]
  split <;> simp_all

theorem live_of_view {e : Eval} (h : pool.view v = some e) : pool.Live v := (view_eq_some_iff.mp h).1

@[simp] theorem items_set_self (pool : Poolhd) (v : Nat) (e : Eval) : (pool.set v e).items v = e := update_self ..

theorem items_set_of_ne (pool : Poolhd) {v w : Nat} (e : Eval) (h : w ≠ v) : (pool.set v e).items w = pool.items w :=
  update_of_ne h ..

theorem index_set {e : Eval} (hindex : e.index = (pool.items v).index) (w : Nat) :
    ((pool.set v e).items w).index = (pool.items w).index := by
  by_cases hw : w = v
  · rw [hw, items_set_self, hindex]
  · rw [items_set_of_ne pool e hw]

-- A change to an eval in use that leaves its place in the pool alone.
theorem set_spec (h : pool.WellFormed) (hv : pool.Live v) {e : Eval} (hindex : e.index = (pool.items v).index)
    (hiter : e.modIter = (pool.items v).modIter) (hfd : 0 < e.fd) :
    (pool.set v e).WellFormed ∧ Tracks pool (pool.set v e) ∧
      (pool.set v e).view = update pool.view v (some e.strip) := by
  refine ⟨⟨h.slots.congr fun w _ => index_set hindex w, fun w hw => ?_⟩, ⟨rfl, rfl, rfl, fun w => .inr ⟨?_, Iff.rfl⟩⟩,
    funext fun w => ?_⟩
  · by_cases hwv : w = v
    · rw [hwv, items_set_self]
      exact hfd
    · rw [items_set_of_ne pool e hwv]
      exact h.fd_pos w hw
  · by_cases hwv : w = v
    · rw [hwv, items_set_self, hiter]
    · rw [items_set_of_ne pool e hwv]
  · by_cases hwv : w = v
    · rw [hwv, update_self, view, if_pos (show (pool.set v e).Live v from hv), items_set_self]
    · rw [update_of_ne hwv, view, view, items_set_of_ne pool e hwv]
      rfl

-- A change that leaves the socket and the place in the pool alone.
structure Local (f : Eval → Eval) : Prop where
  index : ∀ e, (f e).index = e.index
  modIter : ∀ e, (f e).modIter = e.modIter
  fd : ∀ e, (f e).fd = e.fd
  strip : ∀ e, (f e).strip = f e.strip

theorem modify_spec (h : pool.WellFormed) {e : Eval} (hv : pool.view v = some e) {f : Eval → Eval} (hf : Local f) :
    (pool.modify v f).WellFormed ∧ Tracks pool (pool.modify v f) ∧
      (pool.modify v f).view = update pool.view v (some (f e)) := by
  obtain ⟨hlive, rfl⟩ := view_eq_some_iff.mp hv
  have hset := set_spec h hlive (hf.index _) (hf.modIter _) (by rw [hf.fd]; exact h.fd_pos v hlive)
  rwa [hf.strip] at hset

-- A change to a slot that is not in use.
theorem set_dead_spec (h : pool.WellFormed) (hv : ¬pool.Live v) {e : Eval}
    (hiter : e.modIter = (pool.items v).modIter ∨ e.modIter = pool.iters) :
    (pool.set v e).WellFormed ∧ Tracks pool (pool.set v e) ∧ (pool.set v e).view = pool.view := by
  have hne {w : Nat} (hw : pool.Live w) : w ≠ v := by
    rintro rfl
    exact hv hw
  refine ⟨⟨h.slots.congr fun w hw => ?_, fun w hw => ?_⟩, ⟨rfl, rfl, rfl, fun w => ?_⟩, funext fun w => ?_⟩
  · rw [items_set_of_ne pool e (hne hw)]
  · rw [items_set_of_ne pool e (hne hw)]
    exact h.fd_pos w hw
  · by_cases hwv : w = v
    · rw [hwv, items_set_self]
      exact hiter.symm.imp_right fun hsame => ⟨hsame, Iff.rfl⟩
    · exact .inr ⟨by rw [items_set_of_ne pool e hwv], Iff.rfl⟩
  · by_cases hw : pool.Live w
    · rw [view, view, if_pos hw, if_pos (show (pool.set v e).Live w from hw), items_set_of_ne pool e (hne hw)]
    · rw [view, view, if_neg hw, if_neg (show ¬(pool.set v e).Live w from hw)]

section release

theorem release_self (pool : Poolhd) (v : Nat) : (pool.release v).items v = (pool.items v).closed pool.iters := by
  rw [release]
  split
  case isTrue => exact items_set_self ..
  case isFalse hne =>
    have hne' : v ≠ pool.links (pool.count - 1) := fun heq => hne heq.symm
    exact (items_set_of_ne _ _ hne').trans (items_set_self ..)

theorem release_of_ne {w : Nat} (hw : w ≠ v) : (pool.release v).items w =
    { pool.items w with
      index := update (fun v => (pool.items v).index) (pool.links (pool.count - 1)) (pool.items v).index w } := by
  rw [release]
  by_cases hlast : w = pool.links (pool.count - 1)
  · subst hlast
    rw [update_self]
    split
    case isTrue heq => exact absurd heq hw
    case isFalse =>
      refine (items_set_self ..).trans ?_
      rw [show (pool.set v ((pool.items v).closed pool.iters)).links = pool.links from rfl, items_set_of_ne _ _ hw]
  · rw [update_of_ne hlast]
    split
    · exact items_set_of_ne pool _ hw
    · exact (items_set_of_ne _ _ hlast).trans (items_set_of_ne _ _ hw)

theorem links_release {count : Nat} (h : pool.WellFormed) (hcount : pool.count = count + 1) :
    (pool.release v).links =
      update (update pool.links (pool.items v).index (pool.links count)) count v := by
  have hlast : pool.links (pool.count - 1) = pool.links count := by rw [hcount, Nat.add_sub_cancel]
  rw [release]
  split
  case isTrue heq =>
    have hv' : pool.links count = v := hlast.symm.trans heq
    have hindex : (pool.items v).index = count := by
      rw [← hv']
      exact h.slots.index_links count (by omega)
    rw [hindex, hv', update_idem, ← hv', update_eq_self]
    rfl
  case isFalse =>
    rw [← hlast]
    simp only [hcount, Nat.add_sub_cancel]
    rfl

theorem live_release (h : pool.WellFormed) (hv : pool.Live v) {w : Nat} :
    (pool.release v).Live w ↔ pool.Live w ∧ w ≠ v := by
  obtain ⟨count, hcount⟩ : ∃ count, pool.count = count + 1 := by
    obtain ⟨i, hi, -⟩ := hv
    exact ⟨pool.count - 1, by omega⟩
  have hslots := h.slots
  have hused : Used (count + 1) pool.links v := hcount ▸ hv
  rw [hcount] at hslots
  rw [Live, count_release, links_release h hcount, hcount, Nat.add_sub_cancel]
  exact (hslots.used_remove hused).trans (by rw [Live, hcount])

theorem release_spec (h : pool.WellFormed) (hv : pool.Live v) :
    (pool.release v).WellFormed ∧ Tracks pool (pool.release v) ∧ (pool.release v).view = update pool.view v none := by
  obtain ⟨count, hcount⟩ : ∃ count, pool.count = count + 1 := by
    obtain ⟨i, hi, -⟩ := hv
    exact ⟨pool.count - 1, by omega⟩
  have hlive {w : Nat} := live_release (w := w) h hv
  have hsame : (pool.release v).max = pool.max ∧ (pool.release v).iters = pool.iters ∧
      (pool.release v).pevents = pool.pevents := by
    rw [release]
    split <;> exact ⟨rfl, rfl, rfl⟩
  refine ⟨⟨?_, fun w hw => ?_⟩, ⟨hsame.2.1, hsame.2.2, hsame.1, fun w => ?_⟩, funext fun w => ?_⟩
  · have hslots := h.slots
    have hused : Used (count + 1) pool.links v := hcount ▸ hv
    rw [hcount] at hslots
    rw [hsame.1, count_release, links_release h hcount, hcount, Nat.add_sub_cancel]
    refine (hslots.remove hused).congr fun w hw => ?_
    rw [release_of_ne ((hslots.used_remove hused).mp hw).2, hcount, Nat.add_sub_cancel]
  · rw [hlive] at hw
    rw [release_of_ne hw.2]
    exact h.fd_pos w hw.1
  · by_cases hwv : w = v
    · exact .inl (by rw [hwv, release_self]; rfl)
    · exact .inr ⟨by rw [release_of_ne hwv], hlive.trans (and_iff_left hwv)⟩
  · by_cases hwv : w = v
    · rw [hwv, update_self, view_eq_none_iff, hlive]
      exact fun hboth => hboth.2 rfl
    · simp only [update_of_ne hwv, view, hlive, release_of_ne hwv]
      simp only [hwv, ne_eq, not_false_eq_true, and_true]
      rfl

end release

theorem enter_spec (h : pool.WellFormed) (hroom : pool.count < pool.max) {e : Eval} (hindex : e.index = pool.count)
    (hiter : e.modIter = pool.iters) (hfd : 0 < e.fd) :
    let val := pool.links pool.count
    (pool.enter val e).WellFormed ∧ Tracks pool (pool.enter val e) ∧ pool.view val = none ∧
      (pool.enter val e).view = update pool.view val (some e.strip) := by
  intro val
  have hlive (w : Nat) : (pool.enter val e).Live w ↔ w = val ∨ pool.Live w := SparseSet.used_push
  have hself : (pool.enter val e).items val = e := items_set_self ..
  have hother {w : Nat} (hw : w ≠ val) : (pool.enter val e).items w = pool.items w := items_set_of_ne pool e hw
  refine ⟨⟨?_, fun w hw => ?_⟩, ⟨rfl, rfl, rfl, fun w => ?_⟩, ?_, funext fun w => ?_⟩
  · refine (h.slots.push hroom).congr fun w _ => ?_
    by_cases hw : w = val
    · rw [hw, hself, update_self, hindex]
    · rw [hother hw, update_of_ne hw]
  · by_cases hwv : w = val
    · rw [hwv, hself]
      exact hfd
    · rw [hother hwv]
      exact h.fd_pos w (((hlive w).mp hw).resolve_left hwv)
  · by_cases hwv : w = val
    · exact .inl (by rw [hwv, hself, hiter])
    · exact .inr ⟨by rw [hother hwv], (hlive w).trans (or_iff_right hwv)⟩
  · exact view_eq_none_iff.mpr (h.slots.not_used_next hroom)
  · by_cases hwv : w = val
    · rw [hwv, update_self, view_eq_some_iff, hself]
      exact ⟨(hlive val).mpr (.inl rfl), rfl⟩
    · rw [update_of_ne hwv, view, view, hother hwv]
      simp only [hlive, or_iff_right hwv]

theorem addEvent_spec (h : pool.WellFormed) {type : Eid} {fd : Int} {registered : Bool} {pool' : Poolhd}
    {val : Option Nat} (hadd : pool.addEvent type fd registered = .ok (pool', val)) :
    pool'.WellFormed ∧ Tracks pool pool' ∧ (val = none ∧ pool'.view = pool.view ∨
      ∃ v, val = some v ∧ pool.view v = none ∧ pool'.view = update pool.view v (some (.new type fd))) := by
  rw [addEvent] at hadd
  split at hadd
  case isTrue => cases hadd
  case isFalse hfd =>
    split at hadd
    case isTrue =>
      obtain ⟨rfl, rfl⟩ := Prod.mk.inj (Except.ok.inj hadd)
      exact ⟨h, Tracks.refl pool, .inl ⟨rfl, rfl⟩⟩
    case isFalse hroom =>
      simp only at hadd
      split at hadd
      case isTrue =>
        obtain ⟨rfl, rfl⟩ := Prod.mk.inj (Except.ok.inj hadd)
        obtain ⟨hwell, htracks, hnone, hview⟩ := enter_spec h (by omega)
          (e := { Eval.new type fd with index := pool.count, modIter := pool.iters }) rfl rfl (lt_of_not_ge hfd)
        exact ⟨hwell, htracks, .inr ⟨_, rfl, hnone, hview⟩⟩
      case isFalse =>
        obtain ⟨rfl, rfl⟩ := Prod.mk.inj (Except.ok.inj hadd)
        obtain ⟨hwell, htracks, hview⟩ := set_dead_spec h (h.slots.not_used_next (by omega))
          (e := { Eval.new type fd with index := pool.count, modIter := pool.iters }) (.inr rfl)
        exact ⟨hwell, htracks, .inl ⟨rfl, hview⟩⟩

section deletion

variable {e : Eval}

theorem count_ne_zero {w : Nat} (h : pool.view w ≠ none) : pool.count ≠ 0 := by
  rw [ne_eq, view_eq_none_iff, not_not] at h
  obtain ⟨i, hi, -⟩ := h
  omega

theorem delEvent_dead (hfd : (pool.items v).fd = -1) (hiter : (pool.items v).modIter ≤ pool.iters) :
    pool.delEvent v = .ok (pool, []) := by
  rw [delEvent, if_neg (by omega), if_pos hfd]

-- The sockets that del_event closes, and what it leaves open.
structure Deleted (pool : Poolhd) (closed : List Int) (view : Nat → Option Eval) (deleted : Poolhd × List Int) :
    Prop where
  closed : deleted.2 = closed
  well : deleted.1.WellFormed
  tracks : Tracks pool deleted.1
  view : deleted.1.view = view

-- The count of the iterations has started again since the eval has been added.
theorem delEvent_stale (hiter : pool.iters < (pool.items v).modIter) : pool.delEvent v = .error .delIter := by
  rw [delEvent, if_pos (.inr hiter)]

theorem delEvent_single (h : pool.WellFormed) (hv : pool.view v = some e) (hpair : e.pair = none)
    (hdata : e.buff.data ≠ some []) {w : Nat} (hw : pool.view w ≠ none) (hwv : w ≠ v) :
    Sat (· = .delIter) (Deleted pool [e.fd] (update pool.view v none)) (pool.delEvent v) := by
  obtain ⟨hlive, rfl⟩ := view_eq_some_iff.mp hv
  by_cases hiter : pool.iters < (pool.items v).modIter
  · rw [delEvent_stale hiter]
    exact rfl
  obtain ⟨hwell, htracks, hview⟩ := release_spec h hlive
  have hcount : (pool.release v).count ≠ 0 := count_ne_zero (w := w) (by rwa [hview, update_of_ne hwv])
  have hfd := h.fd_pos v hlive
  have hpair' : (pool.items v).pair = none := hpair
  have hdata' : (pool.items v).buff.data ≠ some [] := hdata
  rw [delEvent, if_neg (by omega), if_neg (by omega), if_neg hdata', dif_neg (count_ne_zero hw), hpair']
  refine Sat.ite (fun hzero => absurd hzero hcount) fun _ => ?_
  exact ⟨rfl, hwell, htracks, hview⟩

-- The pool in which del_event goes on with the other eval.
def unlinked (pool : Poolhd) (v p : Nat) : Poolhd :=
  let cut := (pool.release v).cutPair v p
  cut.set v { cut.items v with pair := none }

-- What is left of an eval that pointed to the closed one.
def unpair (v : Nat) (e : Eval) : Eval :=
  if e.pair = some v then { e with pair := none } else e

theorem delEvent_pair (h : pool.WellFormed) (hv : pool.view v = some e) {p : Nat} (hpair : e.pair = some p)
    (hpv : p ≠ v) (hdata : e.buff.data ≠ some []) (htracks : Tracks pool (pool.unlinked v p)) {closed : List Int}
    {view : Nat → Option Eval} {w : Nat} (hw : view w ≠ none)
    (hrest : Sat (· = .delIter) (Deleted (pool.unlinked v p) closed view) ((pool.unlinked v p).delEvent p)) :
    Sat (· = .delIter) (Deleted pool (e.fd :: closed) view) (pool.delEvent v) := by
  obtain ⟨hlive, rfl⟩ := view_eq_some_iff.mp hv
  by_cases hiter : pool.iters < (pool.items v).modIter
  · rw [delEvent_stale hiter]
    exact rfl
  have hfd := h.fd_pos v hlive
  have hpair' : (pool.items v).pair = some p := hpair
  have hdata' : (pool.items v).buff.data ≠ some [] := hdata
  have hcut : (((pool.release v).cutPair v p).items v).pair = some p := by
    rw [cutPair]
    split
    · rw [items_set_of_ne _ _ hpv.symm, release_self]
      exact hpair'
    · rw [release_self]
      exact hpair'
  rw [delEvent, if_neg (by omega), if_neg (by omega), if_neg hdata',
    dif_neg (count_ne_zero (w := v) (by rw [hv]; simp)), hpair']
  simp only [hcut]
  rw [unlinked] at hrest htracks
  cases hdel : Poolhd.delEvent _ p with
  | error abort =>
      rw [hdel] at hrest
      exact hrest
  | ok rest =>
      rw [hdel] at hrest
      have hcount : rest.1.count ≠ 0 := count_ne_zero (w := w) (by rwa [hrest.view])
      refine Sat.ite (fun hzero => absurd hzero hcount) fun _ => ?_
      exact ⟨congrArg (_ :: ·) hrest.closed, hrest.well, htracks.trans hrest.tracks, hrest.view⟩

theorem unlinked_spec (h : pool.WellFormed) (hv : pool.Live v) {p : Nat} (hpv : p ≠ v)
    (hp : pool.Live p ∨ (pool.items p).pair ≠ some v) :
    (pool.unlinked v p).WellFormed ∧ Tracks pool (pool.unlinked v p) ∧
      (pool.unlinked v p).view = update (update pool.view v none) p ((pool.view p).map (unpair v)) ∧
      (pool.unlinked v p).items v = { (pool.items v).closed pool.iters with pair := none } ∧
      ∀ w, w ≠ v → w ≠ p → ∃ i, (pool.unlinked v p).items w = { pool.items w with index := i } := by
  obtain ⟨hwell, htracks, hview⟩ := release_spec h hv
  have hdead : ¬(pool.release v).Live v := fun hlive => ((live_release h hv).mp hlive).2 rfl
  have hpair : ((pool.release v).items p).pair = (pool.items p).pair := by rw [release_of_ne hpv]
  have hcut : ((pool.release v).cutPair v p).WellFormed ∧ Tracks (pool.release v) ((pool.release v).cutPair v p) ∧
      ((pool.release v).cutPair v p).view = update (update pool.view v none) p ((pool.view p).map (unpair v)) ∧
      (¬((pool.release v).cutPair v p).Live v) ∧
      ∀ w, w ≠ p → ((pool.release v).cutPair v p).items w = (pool.release v).items w := by
    rw [cutPair]
    split
    case isTrue hback =>
      have hlive : pool.Live p := hp.resolve_right fun hne => hne (hpair.symm.trans hback)
      have hlive' : (pool.release v).Live p := (live_release h hv).mpr ⟨hlive, hpv⟩
      obtain ⟨hwell', htracks', hview'⟩ := set_spec hwell hlive'
        (e := { (pool.release v).items p with pair := none }) rfl rfl (hwell.fd_pos p hlive')
      refine ⟨hwell', htracks', ?_, hdead, fun w hw => items_set_of_ne _ _ hw⟩
      rw [hview', hview, view_eq_some_iff.mpr ⟨hlive, rfl⟩, Option.map_some, unpair,
        if_pos (show (pool.items p).strip.pair = some v from hpair.symm.trans hback), release_of_ne hpv]
      rfl
    case isFalse hback =>
      refine ⟨hwell, Tracks.refl _, ?_, hdead, fun w _ => rfl⟩
      have hmap : (pool.view p).map (unpair v) = pool.view p := by
        by_cases hlive : pool.Live p
        · rw [view_eq_some_iff.mpr ⟨hlive, rfl⟩, Option.map_some, unpair,
            if_neg (show (pool.items p).strip.pair ≠ some v from fun heq => hback (hpair.trans heq))]
        · rw [view_eq_none_iff.mpr hlive, Option.map_none]
      rw [hview, hmap, eq_comm, update_eq_self_iff, update_of_ne hpv]
  obtain ⟨hwell', htracks', hview', hdead', hitems⟩ := hcut
  obtain ⟨hwell'', htracks'', hview''⟩ := set_dead_spec hwell' hdead'
    (e := { ((pool.release v).cutPair v p).items v with pair := none }) (.inl rfl)
  refine ⟨hwell'', (htracks.trans htracks').trans htracks'', hview''.trans hview', ?_, fun w hwv hwp => ?_⟩
  · rw [unlinked]
    simp only [items_set_self, hitems v hpv.symm, release_self]
  · exact ⟨_, (items_set_of_ne _ _ hwv).trans ((hitems w hwp).trans (release_of_ne hwv))⟩

section cycle

variable {p q w : Nat} {e' e'' : Eval}

-- Either of the two ends of a connection closes both.
theorem delEvent_two (h : pool.WellFormed) (hv : pool.view v = some e) (hp : pool.view p = some e')
    (hpair : e.pair = some p) (hpair' : e'.pair = some v) (hpv : p ≠ v) (hdata : e.buff.data ≠ some [])
    (hdata' : e'.buff.data ≠ some []) (hw : pool.view w ≠ none) (hwv : w ≠ v) (hwp : w ≠ p) :
    Sat (· = .delIter) (Deleted pool [e.fd, e'.fd] (update (update pool.view v none) p none)) (pool.delEvent v) := by
  obtain ⟨hwell, htracks, hview, -⟩ := unlinked_spec h (live_of_view hv) hpv (.inl (live_of_view hp))
  have hat : (pool.unlinked v p).view p = some { e' with pair := none } := by
    rw [hview, update_self, hp, Option.map_some, unpair, if_pos hpair']
  have hother : (pool.unlinked v p).view w ≠ none := by
    rwa [hview, update_of_ne hwp, update_of_ne hwv]
  have hrest := delEvent_single hwell hat rfl hdata' hother hwp
  rw [hview, update_idem] at hrest
  refine delEvent_pair h hv hpair hpv hdata htracks (w := w) ?_ hrest
  rwa [update_of_ne hwp, update_of_ne hwv]

-- The last of a round, whose pair is the closed eval that the round began with.
theorem delEvent_last (h : pool.WellFormed) (hq : pool.view q = some e) (hpair : e.pair = some v) (hvq : v ≠ q)
    (hdata : e.buff.data ≠ some []) (hfd : (pool.items v).fd = -1) (hiter : (pool.items v).modIter ≤ pool.iters)
    (hnone : (pool.items v).pair = none) (hdead : pool.view v = none) (hw : pool.view w ≠ none) (hwq : w ≠ q) :
    Sat (· = .delIter) (Deleted pool [e.fd] (update pool.view q none)) (pool.delEvent q) := by
  obtain ⟨hwell, htracks, hview, -, -⟩ := unlinked_spec h (live_of_view hq) hvq (.inr (by rw [hnone]; simp))
  have hitem : ∃ i, (pool.unlinked q v).items v = { pool.items v with index := i } := by
    have hcut : ((pool.release q).cutPair q v).items v = (pool.release q).items v := by
      rw [cutPair, if_neg]
      rw [release_of_ne hvq]
      simp [hnone]
    exact ⟨_, (items_set_of_ne _ _ hvq).trans (hcut.trans (release_of_ne hvq))⟩
  obtain ⟨i, hitem⟩ := hitem
  have hview' : (pool.unlinked q v).view = update pool.view q none := by
    rw [hview, hdead, Option.map_none, update_eq_self_iff, update_of_ne hvq, hdead]
  have hrest : (pool.unlinked q v).delEvent v = .ok (pool.unlinked q v, []) :=
    delEvent_dead (by rw [hitem]; exact hfd) (by rw [hitem, htracks.iters]; exact hiter)
  refine delEvent_pair h hq hpair hvq hdata htracks (w := w) (by rwa [update_of_ne hwq]) ?_
  rw [hrest]
  exact ⟨rfl, hwell, Tracks.refl _, hview'⟩

-- Any of the three evals of a UDP association closes all of them.
theorem delEvent_three (h : pool.WellFormed) (hv : pool.view v = some e) (hp : pool.view p = some e')
    (hq : pool.view q = some e'') (hpair : e.pair = some p) (hpair' : e'.pair = some q) (hpair'' : e''.pair = some v)
    (hpv : p ≠ v) (hqv : q ≠ v) (hqp : q ≠ p) (hdata : e.buff.data ≠ some []) (hdata' : e'.buff.data ≠ some [])
    (hdata'' : e''.buff.data ≠ some []) (hw : pool.view w ≠ none) (hwv : w ≠ v) (hwp : w ≠ p) (hwq : w ≠ q) :
    Sat (· = .delIter)
      (Deleted pool [e.fd, e'.fd, e''.fd] (update (update (update pool.view v none) p none) q none))
      (pool.delEvent v) := by
  obtain ⟨hwell, htracks, hview, hitem, -⟩ := unlinked_spec h (live_of_view hv) hpv (.inl (live_of_view hp))
  have hkeep : unpair v e' = e' := by
    rw [unpair, hpair', if_neg]
    simpa using hqv
  have hatp : (pool.unlinked v p).view p = some e' := by rw [hview, update_self, hp, Option.map_some, hkeep]
  have hatq : (pool.unlinked v p).view q = some e'' := by rw [hview, update_of_ne hqp, update_of_ne hqv, hq]
  have hdead : (pool.unlinked v p).view v = none := by rw [hview, update_of_ne hpv.symm, update_self]
  obtain ⟨hwell', htracks', hview', -, hitems'⟩ := unlinked_spec hwell (live_of_view hatp) hqp
    (.inl (live_of_view hatq))
  have hkeep' : unpair p e'' = e'' := by
    rw [unpair, hpair'', if_neg]
    simpa using hpv.symm
  have hviewq : ((pool.unlinked v p).unlinked p q).view = update (pool.unlinked v p).view p none := by
    rw [hview', hatq, Option.map_some, hkeep', update_eq_self_iff, update_of_ne hqp, hatq]
  obtain ⟨i, hitemv⟩ := hitems' v hpv.symm hqv.symm
  rw [hitem] at hitemv
  have hother : ((pool.unlinked v p).unlinked p q).view w ≠ none := by
    rwa [hviewq, update_of_ne hwp, hview, update_of_ne hwp, update_of_ne hwv]
  have hlast := delEvent_last hwell' (by rw [hviewq, update_of_ne hqp, hatq]) hpair'' hqv.symm hdata''
    (by rw [hitemv]; rfl) (by rw [hitemv, htracks'.iters, htracks.iters]; exact le_rfl) (by rw [hitemv])
    (by rw [hviewq, update_of_ne hpv.symm, hdead]) hother hwq
  rw [hviewq, hview, update_idem] at hlast
  have hleft : update (update (update pool.view v none) p none) q none w ≠ none := by
    rwa [update_of_ne hwq, update_of_ne hwp, update_of_ne hwv]
  have hmid := delEvent_pair hwell hatp hpair' hqp hdata' htracks' hleft hlast
  exact delEvent_pair h hv hpair hpv hdata htracks hleft hmid

end cycle

end deletion

section events

-- The events that are left are of evals in use, or of evals that the present iteration has marked.
def Pending (pool : Poolhd) (left : Nat) : Prop :=
  ∀ i < left, ∀ val events, pool.pevents[i]? = some (val, events) →
    (pool.items val).modIter = pool.iters ∨ pool.Live val

theorem Tracks.pending {pool pool' : Poolhd} (h : Tracks pool pool') {left : Nat} (hpending : pool.Pending left) :
    pool'.Pending left := by
  intro i hi val events hget
  rw [h.pevents] at hget
  rw [h.iters]
  rcases h.marked val with hmark | ⟨hsame, hlive⟩
  · exact .inl hmark
  · rw [hsame, hlive]
    exact hpending i hi val events hget

-- An event is handed out only for an eval in use.
theorem nextReady_live {left left' val events : Nat} (hpending : pool.Pending left)
    (h : pool.nextReady left = some (val, events, left')) : pool.Live val ∧ pool.Pending left' := by
  induction left with
  | zero => cases h
  | succ left ih =>
      rw [nextReady] at h
      have hlower : pool.Pending left := fun i hi => hpending i (by omega)
      split at h
      case h_1 => cases h
      case h_2 val₀ events₀ hget =>
        split at h
        case isTrue => exact ih hlower h
        case isFalse hmark =>
          obtain ⟨rfl, hrest⟩ := Prod.mk.inj (Option.some.inj h)
          obtain ⟨rfl, rfl⟩ := Prod.mk.inj hrest
          exact ⟨(hpending left (by omega) _ _ hget).resolve_left hmark, hlower⟩

theorem WellFormed.waited (h : pool.WellFormed) (events : List (Nat × Nat)) : (pool.waited events).WellFormed :=
  ⟨h.slots, h.fd_pos⟩

theorem pending_waited {events : List (Nat × Nat)} (h : ∀ x ∈ events, pool.Live x.1) (left : Nat) :
    (pool.waited events).Pending left :=
  fun _ _ _ _ hget => .inr (h _ (List.mem_of_getElem? hget))

-- epoll_wait tells of sockets that are in the pool.
theorem nextEvent_spec (h : pool.WellFormed) {left : Nat} (hpending : pool.Pending left)
    {waits : List (List (Nat × Nat))} (hwaits : ∀ events ∈ waits, ∀ x ∈ events, pool.Live x.1) {pool' : Poolhd}
    {ready : Option (Nat × Nat × Nat)} (hnext : pool.nextEvent left waits = (pool', ready)) :
    pool'.WellFormed ∧ pool'.view = pool.view ∧
      ∀ val events left', ready = some (val, events, left') → pool'.Live val ∧ pool'.Pending left' := by
  induction waits generalizing pool left with
  | nil =>
      obtain ⟨rfl, rfl⟩ := Prod.mk.inj hnext
      exact ⟨h, rfl, fun val events left' => nextReady_live hpending⟩
  | cons events waits ih =>
      rw [nextEvent] at hnext
      split at hnext
      case h_1 found hfound =>
        obtain ⟨rfl, rfl⟩ := Prod.mk.inj hnext
        exact ⟨h, rfl, fun val events left' heq => nextReady_live hpending (hfound.trans heq)⟩
      case h_2 =>
        split at hnext
        case isTrue =>
          obtain ⟨rfl, rfl⟩ := Prod.mk.inj hnext
          exact ⟨h, rfl, by rintro _ _ _ ⟨⟩⟩
        case isFalse =>
          have hrest := ih (h.waited events) (pending_waited (hwaits events List.mem_cons_self) events.length)
            (fun other hother => hwaits other (List.mem_cons_of_mem _ hother)) hnext
          exact hrest

end events

end Poolhd

end ToInet.Byedpi.Conev
