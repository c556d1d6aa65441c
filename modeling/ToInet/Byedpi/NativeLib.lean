import ToInet.Lib.Transition
import Mathlib.Data.List.Basic

-- The native library of a process: the globals of native-lib.c and the calls of main().
namespace ToInet.Byedpi

open ToInet.Lib

-- A call of main(), by its caller and its number in the process.
structure Main (κ : Type) where
  caller : κ
  number : Nat
deriving DecidableEq

-- server_fd is the socket of the main() entered last. A socket that has been shut down
-- stands in shut, with who did it.
structure NativeLib (κ : Type) where
  gProxyRunning : Bool
  serverFd : Option (Main κ)
  active : List (Main κ)
  shut : List (κ × Main κ)
  entered : Nat
deriving DecidableEq

namespace NativeLib

variable {κ : Type}

def initial : NativeLib κ :=
  { gProxyRunning := false, serverFd := none, active := [], shut := [], entered := 0 }

def isShut [DecidableEq κ] (lib : NativeLib κ) (main : Main κ) : Bool :=
  main ∈ lib.shut.map Prod.snd

-- jniStartProxy up to the entry into main(), after reset_params; none is its return of -1.
def jniStartProxy (lib : NativeLib κ) (caller : κ) : Option (Main κ × NativeLib κ) :=
  if lib.gProxyRunning then none
  else
    let main := { caller, number := lib.entered }
    some (main,
      { lib with
        gProxyRunning := true, serverFd := some main, active := main :: lib.active
        entered := lib.entered + 1 })

-- The rest of jniStartProxy, when main() returns.
def mainReturns [DecidableEq κ] (lib : NativeLib κ) (main : Main κ) : NativeLib κ :=
  { lib with gProxyRunning := false, active := lib.active.erase main }

def jniStopProxy (lib : NativeLib κ) (caller : κ) : NativeLib κ :=
  if lib.gProxyRunning then
    { lib with
      gProxyRunning := false
      shut := lib.serverFd.toList.map (fun main => (caller, main)) ++ lib.shut }
  else lib

-- close() may fail; where it does not, it still does not end main().
def jniForceClose (lib : NativeLib κ) (closed : Bool) : NativeLib κ :=
  if closed then { lib with gProxyRunning := false } else lib

inductive Event (κ : Type) where
  | jniStartProxy (caller : κ)
  | mainReturns (main : Main κ)
  | jniStopProxy (caller : κ)
  | jniForceClose (closed : Bool)
deriving DecidableEq

def step [DecidableEq κ] (lib : NativeLib κ) : Event κ → Option (NativeLib κ)
  | .jniStartProxy caller => some (((lib.jniStartProxy caller).map Prod.snd).getD lib)
  | .mainReturns main => if main ∈ lib.active then some (lib.mainReturns main) else none
  | .jniStopProxy caller => some (lib.jniStopProxy caller)
  | .jniForceClose closed => some (lib.jniForceClose closed)

variable {lib next : NativeLib κ} {main : Main κ} {caller : κ}

theorem jniStartProxy_eq_none : lib.jniStartProxy caller = none ↔ lib.gProxyRunning = true := by
  unfold jniStartProxy
  cases lib.gProxyRunning <;> simp

theorem jniStartProxy_eq_some (h : lib.jniStartProxy caller = some (main, next)) :
    main = { caller, number := lib.entered } ∧ next.serverFd = some main ∧
      next.shut = lib.shut ∧ next.entered = lib.entered + 1 := by
  unfold jniStartProxy at h
  split at h
  · cases h
  · obtain ⟨rfl, rfl⟩ := Prod.mk.inj (Option.some.inj h)
    exact ⟨rfl, rfl, rfl, rfl⟩

theorem jniStopProxy_gProxyRunning : (lib.jniStopProxy caller).gProxyRunning = false := by
  unfold jniStopProxy
  cases hrunning : lib.gProxyRunning <;> simp [hrunning]

variable [DecidableEq κ]

-- Every main() that a socket is known of has been entered.
structure Numbered (lib : NativeLib κ) : Prop where
  shut : ∀ main, lib.isShut main = true → main.number < lib.entered
  serverFd : ∀ main, lib.serverFd = some main → main.number < lib.entered

theorem initial_numbered : (initial : NativeLib κ).Numbered := ⟨nofun, nofun⟩

theorem isShut_congr (h : next.shut = lib.shut) (main : Main κ) : next.isShut main = lib.isShut main := by
  rw [isShut, isShut, h]

theorem Numbered.jniStartProxy (hlib : lib.Numbered) (h : lib.jniStartProxy caller = some (main, next)) :
    next.Numbered ∧ next.isShut main = false := by
  obtain ⟨rfl, hfd, hshut, hentered⟩ := jniStartProxy_eq_some h
  refine ⟨⟨fun other hother => ?_, fun other hother => ?_⟩, ?_⟩
  · rw [isShut_congr hshut] at hother
    rw [hentered]
    exact Nat.lt_succ_of_lt (hlib.shut other hother)
  · rw [hfd] at hother
    obtain rfl := Option.some.inj hother
    rw [hentered]
    exact Nat.lt_succ_self _
  · rw [isShut_congr hshut, ← Bool.not_eq_true]
    intro hold
    exact Nat.lt_irrefl _ (hlib.shut _ hold)

theorem Numbered.mainReturns (hlib : lib.Numbered) (main : Main κ) : (lib.mainReturns main).Numbered :=
  ⟨hlib.shut, hlib.serverFd⟩

-- A stop shuts down the socket of server_fd, and only while the flag is set.
theorem isShut_jniStopProxy (main : Main κ) :
    (lib.jniStopProxy caller).isShut main = true ↔
      lib.isShut main = true ∨ lib.gProxyRunning = true ∧ lib.serverFd = some main := by
  unfold jniStopProxy
  split
  · rename_i hrunning
    have hmap : (lib.serverFd.toList.map fun main => (caller, main)).map Prod.snd = lib.serverFd.toList := by
      rw [List.map_map]
      exact List.map_id _
    simp only [isShut, decide_eq_true_eq, List.map_append, hmap, List.mem_append, Option.mem_toList, hrunning,
      true_and]
    exact or_comm
  · rename_i hclear
    simp [hclear]

theorem Numbered.jniStopProxy (hlib : lib.Numbered) (caller : κ) : (lib.jniStopProxy caller).Numbered := by
  have hsame : (lib.jniStopProxy caller).entered = lib.entered ∧
      (lib.jniStopProxy caller).serverFd = lib.serverFd := by
    unfold NativeLib.jniStopProxy
    split <;> exact ⟨rfl, rfl⟩
  refine ⟨fun main h => ?_, fun main h => ?_⟩
  · rw [hsame.1]
    obtain hold | ⟨_, hfd⟩ := (isShut_jniStopProxy main).mp h
    · exact hlib.shut main hold
    · exact hlib.serverFd main hfd
  · rw [hsame.1]
    exact hlib.serverFd main (hsame.2 ▸ h)

def AtMostOne (lib : NativeLib κ) : Prop := lib.active.length ≤ 1

-- A start that finds the flag clear comes when main() has returned, not only been stopped.
def Joined (lib : NativeLib κ) : Event κ → Prop
  | .jniStartProxy _ => lib.gProxyRunning = false → lib.active = []
  | _ => True

theorem step_atMostOne (lib : NativeLib κ) (event : Event κ) (next : NativeLib κ) (hlib : AtMostOne lib)
    (h : lib.step event = some next) : AtMostOne next ↔ Joined lib event := by
  cases event with
  | jniStartProxy caller =>
      obtain rfl := Option.some.inj h
      cases hrunning : lib.gProxyRunning with
      | true =>
          have hsame : lib.jniStartProxy caller = none := by simp [jniStartProxy, hrunning]
          rw [hsame]
          exact iff_of_true hlib fun hclear => absurd (hrunning.symm.trans hclear) (by decide)
      | false =>
          have hactive : (((lib.jniStartProxy caller).map Prod.snd).getD lib).active =
              { caller, number := lib.entered } :: lib.active := by simp [jniStartProxy, hrunning]
          rw [AtMostOne, hactive, List.length_cons, Joined, hrunning, ← List.length_eq_zero_iff]
          constructor
          · intro hle _
            omega
          · intro hnone
            have hlength := hnone rfl
            omega
  | mainReturns main =>
      refine iff_of_true ?_ trivial
      simp only [step] at h
      split at h
      · obtain rfl := Option.some.inj h
        exact Nat.le_trans (List.length_erase_le) hlib
      · cases h
  | jniStopProxy caller =>
      obtain rfl := Option.some.inj h
      refine iff_of_true ?_ trivial
      unfold jniStopProxy
      split <;> exact hlib
  | jniForceClose closed =>
      obtain rfl := Option.some.inj h
      refine iff_of_true ?_ trivial
      unfold jniForceClose
      split <;> exact hlib

-- A run has at most one main() at any time exactly when each of its starts that gets past the
-- flag finds no main() under way.
theorem run_atMostOne_iff (events : List (Event κ)) :
    Always step AtMostOne (initial : NativeLib κ) events ↔ Allowed step Joined initial events := by
  refine always_iff_allowed AtMostOne Joined step_atMostOne (fun lib event _ h => ?_) (Nat.zero_le 1)
  cases event with
  | jniStartProxy caller => cases h
  | _ => trivial

-- A second start right after a stop, with the first main() still under way.
theorem run_not_atMostOne :
    ¬Always step AtMostOne (initial : NativeLib Unit)
      [.jniStartProxy (), .jniStopProxy (), .jniStartProxy ()] := by
  intro h
  have hlast : AtMostOne _ := ((h.2 _ rfl).2 _ rfl).2 _ rfl
  unfold AtMostOne at hlast
  exact absurd hlast (by decide)

end NativeLib

end ToInet.Byedpi
