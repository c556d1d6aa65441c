import ToInet.Byedpi.Extend.CheckHost
import ToInet.Byedpi.OptionLoop

-- The group of options that a connection is tried with (extend.c).
namespace ToInet.Byedpi.Extend

open ToInet.Lib ToInet.Byedpi.OptionLoop ToInet.Byedpi.Packets

-- On a machine with the low byte first.
def htons (n : Int) : Int := n % 256 * 256 + n / 256 % 256

-- Ports are compared as they lie in memory.
def checkPort (p : Int × Int) (port : Int) : Bool := htons p.1 ≤ htons port ∧ htons port ≤ htons p.2

-- IS_TCP, IS_HTTP and IS_HTTPS are the bits 0, 2 and 3.
def checkProtoTcp (proto : Nat) (buffer : Bytes) : Bool :=
  proto.testBit 0 || (proto.testBit 2 && isHttp buffer) || (proto.testBit 3 && isTlsChello buffer)

-- The loop of on_desync over the groups from m on.
def firstGroup (port : Int) (buffer : Bytes) : List DesyncParams → Nat → Nat
  | [], m => m
  | dp :: dps, m =>
      if dp.detect = 0 ∧ (dp.pf.1 = 0 ∨ checkPort dp.pf port) ∧ (dp.proto = 0 ∨ checkProtoTcp dp.proto buffer) ∧
          (∀ hosts ∈ dp.hosts, checkHost (hostsPool hosts) buffer) then m
      else firstGroup port buffer dps (m + 1)

-- What the loops of on_torst, on_fin and on_response come to: a group, an end at one that is for new connections
-- only, or the end of the groups.
inductive Later where
  | found (m : Nat)
  | stopped
  | exhausted
deriving DecidableEq

def later (detected : DesyncParams → Bool) : List DesyncParams → Nat → Later
  | [], _ => .exhausted
  | dp :: dps, m =>
      if dp.detect = 0 then .stopped
      else if detected dp then .found m
      else later detected dps (m + 1)

-- The functions of packets.c that compare a response with its request.
structure Responses where
  isHttpRedirect : Bytes → Bytes → Bool
  neqTlsSid : Bytes → Bytes → Bool

-- A connection is reset or does not answer in time, it is closed, or it answers.
inductive Failure where
  | torst
  | fin
  | response (resp : Bytes)

-- DETECT_HTTP_LOCAT, DETECT_TLS_ERR and DETECT_TORST are the bits 0, 1 and 3.
def detects (responses : Responses) (req : Bytes) : Failure → DesyncParams → Bool
  | .torst, dp => dp.detect.testBit 3
  | .fin, dp => dp.detect.testBit 1 && isTlsChello req
  | .response resp, dp =>
      (dp.detect.testBit 0 && responses.isHttpRedirect req resp) ||
        (dp.detect.testBit 1 && ((isTlsChello req && !isTlsShello resp) || responses.neqTlsSid req resp))

def laterGroup (responses : Responses) (dps : List DesyncParams) (req : Bytes) (attempt : Nat) (failure : Failure) :
    Later :=
  later (detects responses req failure) (dps.drop (attempt + 1)) (attempt + 1)

-- The groups that a connection is tried with as its tries fail one after the other.
def tries (responses : Responses) (dps : List DesyncParams) (req : Bytes) : Nat → List Failure → List Nat
  | attempt, [] => [attempt]
  | attempt, failure :: failures =>
      match laterGroup responses dps req attempt failure with
      | .found m => attempt :: tries responses dps req m failures
      | _ => [attempt]

-- b is the next group behind a that detects the failure, and none between them is for new connections.
structure Follows (responses : Responses) (dps : List DesyncParams) (req : Bytes) (failure : Failure) (a b : Nat) :
    Prop where
  lt : a < b
  detected : ∃ dp, dps[b]? = some dp ∧ dp.detect ≠ 0 ∧ detects responses req failure dp = true
  passed : ∀ m, a < m → m < b → ∃ dp, dps[m]? = some dp ∧ dp.detect ≠ 0 ∧ detects responses req failure dp = false

theorem later_found {detected : DesyncParams → Bool} {dps : List DesyncParams} {m k : Nat}
    (h : later detected dps m = .found k) : m ≤ k ∧
      (∃ dp, dps[k - m]? = some dp ∧ dp.detect ≠ 0 ∧ detected dp = true) ∧
      ∀ i, m ≤ i → i < k → ∃ dp, dps[i - m]? = some dp ∧ dp.detect ≠ 0 ∧ detected dp = false := by
  induction dps generalizing m with
  | nil => cases h
  | cons dp dps ih =>
      rw [later] at h
      by_cases hzero : dp.detect = 0
      · rw [if_pos hzero] at h
        cases h
      · rw [if_neg hzero] at h
        by_cases hdet : detected dp = true
        · rw [if_pos hdet] at h
          obtain rfl := Later.found.inj h
          refine ⟨le_rfl, ⟨dp, by simp, hzero, hdet⟩, fun i hi hik => by omega⟩
        · rw [if_neg hdet] at h
          obtain ⟨hle, hfound, hpassed⟩ := ih h
          refine ⟨by omega, ?_, fun i hi hik => ?_⟩
          · rwa [show k - m = k - (m + 1) + 1 by omega, List.getElem?_cons_succ]
          · by_cases him : i = m
            · exact ⟨dp, by simp [him], hzero, by simpa using hdet⟩
            · rw [show i - m = i - (m + 1) + 1 by omega, List.getElem?_cons_succ]
              exact hpassed i (by omega) hik

theorem laterGroup_follows {responses : Responses} {dps : List DesyncParams} {req : Bytes} {attempt m : Nat}
    {failure : Failure} (h : laterGroup responses dps req attempt failure = .found m) :
    Follows responses dps req failure attempt m := by
  obtain ⟨hle, ⟨dp, hget, hdet⟩, hpassed⟩ := later_found h
  refine ⟨hle, ⟨dp, ?_, hdet⟩, fun i hi him => ?_⟩
  · rwa [List.getElem?_drop, Nat.add_sub_cancel' hle] at hget
  · obtain ⟨dp', hget', hdet'⟩ := hpassed i hi him
    rw [List.getElem?_drop, Nat.add_sub_cancel' hi] at hget'
    exact ⟨dp', hget', hdet'⟩

-- A connection is tried with each group once at most, always with a later one, and never beyond a group for new
-- connections.
theorem tries_follow (responses : Responses) (dps : List DesyncParams) (req : Bytes) (attempt : Nat)
    (failures : List Failure) : let groups := tries responses dps req attempt failures
    groups.head? = some attempt ∧ groups.length ≤ max 1 (dps.length - attempt) ∧
      groups.IsChain fun a b => ∃ failure ∈ failures, Follows responses dps req failure a b := by
  induction failures generalizing attempt with
  | nil => exact ⟨rfl, Nat.le_max_left .., .singleton attempt⟩
  | cons failure failures ih =>
      simp only [tries]
      cases hlater : laterGroup responses dps req attempt failure with
      | found m =>
          have hfollows := laterGroup_follows hlater
          obtain ⟨hhead, hlen, hchain⟩ := ih m
          have hm : m < dps.length := by
            obtain ⟨dp, hget, -⟩ := hfollows.detected
            exact (List.getElem?_eq_some_iff.mp hget).1
          have hlt := hfollows.lt
          refine ⟨rfl, ?_, ?_⟩
          · rw [List.length_cons]
            omega
          · refine List.IsChain.cons (hchain.imp fun a b hab => ?_) fun b hb => ?_
            · obtain ⟨failure', hmem, hstep⟩ := hab
              exact ⟨failure', List.mem_cons_of_mem _ hmem, hstep⟩
            · rw [hhead] at hb
              obtain rfl := Option.some.inj hb
              exact ⟨failure, List.mem_cons_self, hfollows⟩
      | stopped => exact ⟨rfl, Nat.le_max_left .., .singleton attempt⟩
      | exhausted => exact ⟨rfl, Nat.le_max_left .., .singleton attempt⟩

end ToInet.Byedpi.Extend
