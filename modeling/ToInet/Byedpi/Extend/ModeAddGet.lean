import ToInet.Byedpi.Mpool
import ToInet.Lib.Machine

-- The modes that extend.c remembers for destinations.
namespace ToInet.Byedpi.Extend

open ToInet.Lib ToInet.Byedpi.Mpool

-- The address of a socket, field by field as it lies in memory.
inductive SockaddrIna where
  | inet (port : Vector UInt8 2) (addr : Vector UInt8 4) (zero : Vector UInt8 8)
  | inet6 (port : Vector UInt8 2) (flowinfo : Vector UInt8 4) (addr : Vector UInt8 16) (scopeId : Vector UInt8 4)
deriving DecidableEq

namespace SockaddrIna

def bytes : SockaddrIna → Bytes
  | inet port addr zero => [2, 0] ++ port.toList ++ addr.toList ++ zero.toList
  | inet6 port flowinfo addr scopeId => [10, 0] ++ port.toList ++ flowinfo.toList ++ addr.toList ++ scopeId.toList

-- The string starts at the family, and its length leaves the size of the family out.
def key : SockaddrIna → Bytes
  | inet port addr zero => (inet port addr zero).bytes.take (16 - 2)
  | inet6 port flowinfo addr scopeId => (inet6 port flowinfo addr scopeId).bytes.take (28 - 4 - 2)

-- What of two destinations the string tells apart: of an IPv6 address all bytes but the last two.
def sameEntry : SockaddrIna → SockaddrIna → Bool
  | inet port addr zero, inet port' addr' zero' =>
      port = port' ∧ addr = addr' ∧ zero.toList.take 6 = zero'.toList.take 6
  | inet6 port flowinfo addr _, inet6 port' flowinfo' addr' _ =>
      port = port' ∧ flowinfo = flowinfo' ∧ addr.toList.take 14 = addr'.toList.take 14
  | _, _ => false

end SockaddrIna

-- For m < 0 the mode is looked up, for m > 0 it is set, and for m = 0 it is deleted. now is the time.
def modeAddGet (cacheTtl : Int) (mempool : Mphdr) (dst : SockaddrIna) (m now : Int) : Mphdr × Int :=
  if m = 0 then (memDelete mempool dst.key, 0)
  else if 0 < m then (memStore (memAdd mempool dst.key).1 dst.key m now, 0)
  else
    match memGet mempool dst.key with
    | none => (mempool, -1)
    | some val => (mempool, if val.time + cacheTtl < now then 0 else val.m)

structure ModeCall where
  dst : SockaddrIna
  m : Int
  now : Int

def modeStep (cacheTtl : Int) (mempool : Mphdr) (call : ModeCall) : Mphdr × Int :=
  modeAddGet cacheTtl mempool call.dst call.m call.now

-- The last call that has set or deleted an entry.
def lastWrite (dst : SockaddrIna) (history : List ModeCall) : Option ModeCall :=
  history.reverse.find? fun call => call.dst.sameEntry dst && decide (0 ≤ call.m)

theorem append_toList_inj {n : Nat} {v w : Vector UInt8 n} {l l' : Bytes} :
    v.toList ++ l = w.toList ++ l' ↔ v = w ∧ l = l' := by
  constructor
  · intro h
    obtain ⟨hv, hl⟩ := List.append_inj h (by simp)
    exact ⟨Vector.toList_inj.mp hv, hl⟩
  · rintro ⟨rfl, rfl⟩
    rfl

theorem take_toList {n k : Nat} (v : Vector UInt8 n) (h : n ≤ k) : v.toList.take k = v.toList :=
  List.take_of_length_le (by simpa using h)

theorem key_eq_iff {dst dst' : SockaddrIna} : dst.key = dst'.key ↔ dst.sameEntry dst' = true := by
  cases dst <;> cases dst' <;>
    simp [SockaddrIna.key, SockaddrIna.bytes, SockaddrIna.sameEntry, List.take_append, take_toList,
      append_toList_inj]

-- One call changes what is found under its own key only.
theorem memGet_modeStep (cacheTtl : Int) (mempool : Mphdr) (call : ModeCall) (key : Bytes) :
    (memGet (modeStep cacheTtl mempool call).1 key).map (fun e => (e.m, e.time)) =
      if call.dst.key = key ∧ 0 ≤ call.m then (if call.m = 0 then none else some (call.m, call.now))
      else (memGet mempool key).map fun e => (e.m, e.time) := by
  rw [modeStep, modeAddGet]
  rcases lt_trichotomy call.m 0 with hneg | hzero | hpos
  · rw [if_neg hneg.ne, if_neg hneg.not_gt, if_neg fun h => hneg.not_ge h.2]
    split <;> rfl
  · rw [if_pos hzero, memGet_memDelete, if_pos hzero]
    by_cases hkey : key = call.dst.key
    · rw [if_pos hkey, if_pos ⟨hkey.symm, hzero.ge⟩]
      rfl
    · rw [if_neg hkey, if_neg fun h => hkey h.1.symm]
  · rw [if_neg hpos.ne', if_pos hpos, memGet_memStore, memGet_memAdd, if_neg hpos.ne']
    by_cases hkey : key = call.dst.key
    · have hdata : (memAdd mempool call.dst.key).2.data = call.dst.key := by
        rw [memAdd_snd]
        cases hfind : memGet mempool call.dst.key with
        | none => rfl
        | some e => exact (memGet_eq_some_iff.mp hfind).2
      rw [if_pos hkey, if_pos ⟨hkey.symm, hpos.le⟩]
      simp [Elem.store, hdata]
    · rw [if_neg hkey, if_neg fun h => hkey h.1.symm]
      cases hfind : memGet mempool key with
      | none => rfl
      | some e =>
          have hdata := (memGet_eq_some_iff.mp hfind).2
          simp [Elem.store, hdata, hkey]

theorem memGet_calls (cacheTtl : Int) (history : List ModeCall) (dst : SockaddrIna) :
    (memGet (calls (modeStep cacheTtl) memPool history).1 dst.key).map (fun e => (e.m, e.time)) =
      (lastWrite dst history).bind fun call => if call.m = 0 then none else some (call.m, call.now) := by
  induction history using List.reverseRecOn with
  | nil => rfl
  | append_singleton history call ih =>
      rw [calls_concat, memGet_modeStep, lastWrite, List.reverse_concat, List.find?_cons, ih]
      by_cases h : call.dst.key = dst.key ∧ 0 ≤ call.m
      · rw [if_pos h, show (call.dst.sameEntry dst && decide (0 ≤ call.m)) = true by
          rw [key_eq_iff.mp h.1, decide_eq_true h.2]
          rfl]
        rfl
      · rw [if_neg h, show (call.dst.sameEntry dst && decide (0 ≤ call.m)) = false by
          rw [Bool.eq_false_iff, ne_eq, Bool.and_eq_true, decide_eq_true_iff, ← key_eq_iff]
          exact h]
        rfl

end ToInet.Byedpi.Extend
