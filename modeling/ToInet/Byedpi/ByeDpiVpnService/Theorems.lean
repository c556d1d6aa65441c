import ToInet.Byedpi.ByeDpiVpnService

namespace ToInet.Byedpi.ByeDpiVpnService

open ToInet.Lib

variable {s t : ByeDpiVpnService} {calls : StartCalls} {closeThrows : Bool}

-- Every server that runs is one that a field holds.
def Owned (s : ByeDpiVpnService) : Prop :=
  ∀ server ∈ s.running, s.fakeVpnServer = some server ∨ s.socksToHttpProxy = some server

-- A service that is not connected holds no server without a tun descriptor.
structure Inv (s : ByeDpiVpnService) : Prop where
  owned : s.Owned
  empty : s.status ≠ .connected → s.tunFd = none → s.fakeVpnServer = none ∧ s.socksToHttpProxy = none

theorem initial_inv : initial.Inv := ⟨fun _ h => absurd h List.not_mem_nil, fun _ _ => ⟨rfl, rfl⟩⟩

-- A close that does not throw lets everything go.
theorem stopTun2Socks_closes (h : s.tunFd = none ∨ closeThrows = false) :
    s.stopTun2Socks closeThrows =
      ({ s with
        tunFd := none
        fakeVpnServer := none
        socksToHttpProxy := none
        running := s.running.filter fun server =>
          s.fakeVpnServer ≠ some server ∧ s.socksToHttpProxy ≠ some server }, none) := by
  refine if_neg fun hthrows => ?_
  rcases h with hnone | hfalse
  · rw [hnone] at hthrows
    exact Bool.false_ne_true hthrows.1
  · rw [hfalse] at hthrows
    exact Bool.false_ne_true hthrows.2

theorem stopTun2Socks_throws (hfd : s.tunFd ≠ none) (hthrows : closeThrows = true) :
    s.stopTun2Socks closeThrows = (s, some .thrown) :=
  if_pos ⟨Option.isSome_iff_ne_none.mpr hfd, hthrows⟩

theorem Owned.filter (h : s.Owned) :
    (s.running.filter fun server => s.fakeVpnServer ≠ some server ∧ s.socksToHttpProxy ≠ some server) = [] := by
  refine List.filter_eq_nil_iff.mpr fun server hserver => ?_
  rcases h server hserver with hfake | hsocks
  · simp only [hfake, ne_eq, not_true_eq_false, false_and, decide_false, Bool.false_eq_true, not_false_iff]
  · simp only [hsocks, ne_eq, not_true_eq_false, and_false, decide_false, Bool.false_eq_true, not_false_iff]

-- A stop leaves nothing exactly where its close goes through.
theorem stop_clean_iff (h : s.Owned) : (s.stop closeThrows).Clean ↔ s.tunFd = none ∨ closeThrows = false := by
  constructor
  · intro hclean
    by_contra hnot
    obtain ⟨hfd, hthrows⟩ := not_or.mp hnot
    have hstop := stopTun2Socks_throws hfd (Bool.not_eq_false _ ▸ hthrows)
    refine hfd ?_
    have hnone := (hclean nofun).1
    rwa [stop, hstop] at hnone
  · intro hcloses _
    rw [stop, stopTun2Socks_closes hcloses]
    exact ⟨rfl, rfl, rfl, h.filter⟩

theorem stop_inv (h : s.Owned) : (s.stop closeThrows).Inv := by
  by_cases hcloses : s.tunFd = none ∨ closeThrows = false
  · obtain ⟨_, hfake, hsocks, hrunning⟩ := (stop_clean_iff h).mpr hcloses nofun
    refine ⟨fun server hserver => ?_, fun _ _ => ⟨hfake, hsocks⟩⟩
    rw [hrunning] at hserver
    exact absurd hserver List.not_mem_nil
  · obtain ⟨hfd, hthrows⟩ := not_or.mp hcloses
    rw [stop, stopTun2Socks_throws hfd (Bool.not_eq_false _ ▸ hthrows)]
    exact ⟨h, fun _ hnone => absurd hnone hfd⟩

theorem stopTun2Socks_owned (h : s.Owned) : (s.stopTun2Socks closeThrows).1.Owned := by
  unfold stopTun2Socks
  split
  · exact h
  · intro server hserver
    simp only [h.filter] at hserver
    exact absurd hserver List.not_mem_nil

theorem giveUp_fst (message : String) : (s.giveUp closeThrows message).1 = (s.stopTun2Socks closeThrows).1 := by
  unfold giveUp
  split
  · rename_i hstop
    rw [hstop]
  · rename_i hstop
    rw [hstop]

theorem giveUp_fails (message : String) : (s.giveUp closeThrows message).2.isSome = true := by
  unfold giveUp
  split <;> rfl

-- A service that holds nothing gets one server at most.
theorem startServer_owned (h : s.Inv) (hstatus : s.status ≠ .connected) (hfd : s.tunFd = none) (provider : String) :
    (s.startServer provider).Owned := by
  obtain ⟨hfake, hsocks⟩ := h.empty hstatus hfd
  have hnone (server : Nat) (hserver : server ∈ s.running) : False := by
    rcases h.owned server hserver with hheld | hheld
    · rw [hfake] at hheld
      cases hheld
    · rw [hsocks] at hheld
      cases hheld
  unfold startServer
  split
  · intro server hserver
    rcases List.mem_cons.mp hserver with rfl | hserver
    · exact .inl rfl
    · exact (hnone server hserver).elim
  split
  · intro server hserver
    rcases List.mem_cons.mp hserver with rfl | hserver
    · exact .inr rfl
    · exact (hnone server hserver).elim
  · exact h.owned

theorem startProcesses_owned (h : s.Owned) : (s.startProcesses calls).1.Owned := by
  unfold startProcesses
  split
  · exact h
  split
  · rw [giveUp_fst]
    exact stopTun2Socks_owned h
  split
  · exact h
  · rw [giveUp_fst]
    exact stopTun2Socks_owned h
  · exact h

theorem startTun2Socks_owned (h : s.Inv) (hstatus : s.status ≠ .connected) :
    (s.startTun2Socks calls).1.Owned := by
  unfold startTun2Socks
  split
  · exact h.owned
  rename_i hfd
  have howned := startServer_owned h hstatus (Option.not_isSome_iff_eq_none.mp hfd)
  split
  · exact h.owned
  split
  · exact howned _
  · exact howned _
  · exact startProcesses_owned (howned _)

theorem stopTun2Socks_tunFd :
    (s.stopTun2Socks closeThrows).1.tunFd ≠ none ↔ s.tunFd ≠ none ∧ closeThrows = true := by
  unfold stopTun2Socks
  split
  · rename_i hthrows
    rw [Option.isSome_iff_ne_none] at hthrows
    exact (and_iff_left hthrows.2).symm
  · rename_i hcloses
    rw [Option.isSome_iff_ne_none] at hcloses
    exact iff_of_false (fun hnone => hnone rfl) hcloses

theorem startServer_tunFd (s : ByeDpiVpnService) (provider : String) : (s.startServer provider).tunFd = s.tunFd := by
  unfold startServer
  split
  · rfl
  split <;> rfl

-- The processes fail with the descriptor still open.
theorem startProcesses_leaves (hfd : s.tunFd ≠ none) :
    (s.startProcesses calls).2.isSome = true ∧ (s.startProcesses calls).1.tunFd ≠ none ↔
      calls.makePdnsdConfThrows = true ∨ (calls.exec = 0 ∧ calls.sent = none) ∨
        ((calls.exec ≠ 0 ∨ calls.sent = some false) ∧ calls.closeThrows = true) := by
  have hgiveUp (message : String) :
      (s.giveUp calls.closeThrows message).2.isSome = true ∧
          (s.giveUp calls.closeThrows message).1.tunFd ≠ none ↔ calls.closeThrows = true := by
    rw [giveUp_fst, stopTun2Socks_tunFd]
    exact (and_iff_right (giveUp_fails message)).trans (and_iff_right hfd)
  unfold startProcesses
  split
  · rename_i hconf
    exact iff_of_true ⟨rfl, hfd⟩ (.inl hconf)
  rename_i hconf
  split
  · rename_i hexec
    rw [hgiveUp]
    simp only [hconf, hexec, false_and, ne_eq, not_false_iff, true_or, true_and, false_or, Bool.false_eq_true]
  rename_i hexec
  have hzero : calls.exec = 0 := not_not.mp hexec
  cases hsent : calls.sent with
  | none => exact iff_of_true ⟨rfl, hfd⟩ (.inr (.inl ⟨hzero, rfl⟩))
  | some success =>
      cases success with
      | false =>
          simp only [hgiveUp]
          simp only [hconf, hzero, ne_eq, not_true_eq_false, reduceCtorEq, and_false, or_true, true_and, false_or,
            Bool.false_eq_true]
      | true =>
          simp only [hconf, hzero, ne_eq, not_true_eq_false, reduceCtorEq, and_false, or_self, false_and,
            Option.isSome_none, Bool.false_eq_true, Option.some.injEq, Bool.true_eq_false]

theorem startTun2Socks_leaves (hfd : s.tunFd = none) (hforeground : calls.startForegroundThrows = false) :
    (s.startTun2Socks calls).2.isSome = true ∧ (s.startTun2Socks calls).1.tunFd ≠ none ↔
      calls.LeavesDescriptor := by
  unfold startTun2Socks StartCalls.LeavesDescriptor
  rw [if_neg (by rw [hfd]; exact Bool.false_ne_true)]
  cases hprovider : calls.vpnProvider with
  | none => exact iff_of_false (fun hleft => hleft.2 hfd) nofun
  | some provider =>
      have hserver := startServer_tunFd s provider
      cases hestablish : calls.establish with
      | throws => exact iff_of_false (fun hleft => hleft.2 (hserver.trans hfd)) nofun
      | null => exact iff_of_false (fun hleft => hleft.2 (hserver.trans hfd)) nofun
      | descriptor fd =>
          have hopen : { s.startServer provider with tunFd := some fd }.tunFd ≠ none := Option.some_ne_none fd
          exact (startProcesses_leaves hopen).trans
            ⟨fun hleaves => ⟨hforeground, rfl, ⟨fd, rfl⟩, hleaves⟩, fun hleaves => hleaves.2.2.2⟩

-- What a start does that is not turned down: it fails before startTun2Socks, or there, or not at all.
theorem start_cases (calls : StartCalls) (hstatus : s.status ≠ .connected) :
    (calls.startForegroundThrows = true ∧
        s.start calls = { s with status := .failed }.stop calls.closeThrowsInStop) ∨
      calls.startForegroundThrows = false ∧
        ((s.startTun2Socks calls).2 = none ∧
            s.start calls = { (s.startTun2Socks calls).1 with status := .connected } ∨
          (s.startTun2Socks calls).2.isSome = true ∧
            s.start calls =
              { (s.startTun2Socks calls).1 with status := .failed }.stop calls.closeThrowsInStop) := by
  unfold start
  rw [if_neg hstatus]
  cases hforeground : calls.startForegroundThrows with
  | true => exact .inl ⟨rfl, rfl⟩
  | false =>
      rw [if_neg Bool.false_ne_true]
      obtain ⟨u, failure⟩ := s.startTun2Socks calls
      cases failure with
      | none => exact .inr ⟨rfl, .inl ⟨rfl, rfl⟩⟩
      | some failure => exact .inr ⟨rfl, .inr ⟨rfl, rfl⟩⟩

theorem start_inv (h : s.Inv) : (s.start calls).Inv := by
  by_cases hstatus : s.status = .connected
  · rw [start, if_pos hstatus]
    exact h
  · rcases start_cases calls hstatus with ⟨-, hstart⟩ | ⟨-, ⟨-, hstart⟩ | ⟨-, hstart⟩⟩
    · rw [hstart]
      exact stop_inv h.owned
    · rw [hstart]
      exact ⟨startTun2Socks_owned h hstatus, fun hnot => absurd rfl hnot⟩
    · rw [hstart]
      exact stop_inv (startTun2Socks_owned h hstatus)

theorem start_clean_iff (h : s.Inv) (hclean : s.Clean) : (s.start calls).Clean ↔ s.Closes (.start calls) := by
  by_cases hstatus : s.status = .connected
  · refine iff_of_true (fun hnot => ?_) (.inl hstatus)
    rw [start, if_pos hstatus] at hnot
    exact absurd hstatus hnot
  have hfd := (hclean hstatus).1
  rcases start_cases calls hstatus with ⟨hthrows, hstart⟩ | ⟨hforeground, ⟨hnone, hstart⟩ | ⟨hfails, hstart⟩⟩
  · have hleaves : ¬calls.LeavesDescriptor := fun hleaves => Bool.false_ne_true (hleaves.1.symm.trans hthrows)
    have howned : Owned { s with status := .failed } := h.owned
    rw [hstart]
    exact iff_of_true ((stop_clean_iff howned).mpr (.inl hfd)) (.inr (.inl hleaves))
  · have hleaves : ¬calls.LeavesDescriptor := by
      intro hleaves
      have hfails := ((startTun2Socks_leaves hfd hforeground).mpr hleaves).1
      rw [hnone] at hfails
      cases hfails
    rw [hstart]
    exact iff_of_true (fun hnot => absurd rfl hnot) (.inr (.inl hleaves))
  · have hleaves : (s.startTun2Socks calls).1.tunFd = none ↔ ¬calls.LeavesDescriptor := by
      rw [← startTun2Socks_leaves hfd hforeground, and_iff_right hfails, not_not]
    have howned : Owned { (s.startTun2Socks calls).1 with status := .failed } := startTun2Socks_owned h hstatus
    rw [hstart]
    refine (stop_clean_iff howned).trans ?_
    exact (or_congr_left hleaves).trans (or_iff_right hstatus).symm

theorem step_inv {event : Event} (h : s.Inv) (hstep : s.step event = some t) : t.Inv := by
  cases event with
  | start calls =>
      obtain rfl := Option.some.inj hstep
      exact start_inv h
  | stop closeThrows | revoke closeThrows =>
      obtain rfl := Option.some.inj hstep
      exact stop_inv h.owned

theorem step_clean_iff {event : Event} (h : s.Inv) (hclean : s.Clean) (hstep : s.step event = some t) :
    t.Clean ↔ s.Closes event := by
  cases event with
  | start calls =>
      obtain rfl := Option.some.inj hstep
      exact start_clean_iff h hclean
  | stop closeThrows | revoke closeThrows =>
      obtain rfl := Option.some.inj hstep
      exact stop_clean_iff h.owned

theorem step_isSome (s : ByeDpiVpnService) (event : Event) : s.step event ≠ none := by
  cases event <;> exact Option.some_ne_none _

-- Over every run, a service that is not connected holds nothing exactly where each handler gets its
-- tun descriptor closed in the end.
theorem clean_always_iff (events : List Event) :
    Always step Clean initial events ↔ Allowed step Closes initial events :=
  always_iff_allowed_of_inv Inv Clean Closes (fun _ _ _ => step_inv) (fun _ _ _ => step_clean_iff)
    (fun s event _ hnone => absurd hnone (step_isSome s event)) initial_inv fun _ => ⟨rfl, rfl, rfl, rfl⟩

theorem giveUp_snd (s : ByeDpiVpnService) (closeThrows : Bool) (message : String) :
    (s.giveUp closeThrows message).2 = some .thrown ∨
      (s.giveUp closeThrows message).2 = some (.illegalState message) := by
  by_cases hcloses : s.tunFd = none ∨ closeThrows = false
  · rw [giveUp, stopTun2Socks_closes hcloses]
    exact .inr rfl
  · obtain ⟨hfd, hthrows⟩ := not_or.mp hcloses
    rw [giveUp, stopTun2Socks_throws hfd (Bool.not_eq_false _ ▸ hthrows)]
    exact .inl rfl

theorem startProcesses_not_rejected :
    (s.startProcesses calls).2 ≠ some (.illegalState "VPN field not null") := by
  have hgiveUp (message : String) (hmessage : message ≠ "VPN field not null") :
      (s.giveUp calls.closeThrows message).2 ≠ some (.illegalState "VPN field not null") := by
    rcases giveUp_snd s calls.closeThrows message with hthrown | hstate
    · rw [hthrown]
      exact nofun
    · rw [hstate]
      exact fun heq => hmessage (Failure.illegalState.inj (Option.some.inj heq))
  unfold startProcesses
  split
  · exact nofun
  split
  · exact hgiveUp _ (by decide)
  split
  · exact nofun
  · exact hgiveUp _ (by decide)
  · exact nofun

-- Only a tun descriptor that is left over turns a start down.
theorem startTun2Socks_rejected_iff :
    (s.startTun2Socks calls).2 = some (.illegalState "VPN field not null") ↔ s.tunFd ≠ none := by
  rw [← Option.isSome_iff_ne_none]
  unfold startTun2Socks
  split
  · rename_i hfd
    exact iff_of_true rfl hfd
  rename_i hfd
  refine iff_of_false ?_ hfd
  split
  · exact nofun
  split
  · exact nofun
  · simp only [Option.some.injEq, Failure.illegalState.injEq]
    decide
  · exact startProcesses_not_rejected

-- A start of FakeVPN where every call goes through.
def fakeVpnCalls : StartCalls where
  startForegroundThrows := false
  vpnProvider := some "fakevpn"
  establish := .descriptor 77
  makePdnsdConfThrows := false
  exec := 0
  sendfd _ := some 0
  closeThrows := false
  closeThrowsInStop := true

-- The close of a stop throws: the service is disconnected and keeps everything, and turns down the
-- next start.
theorem not_clean_after_stop :
    ¬Always step Clean initial [.start fakeVpnCalls, .stop true] ∧
      ∃ t, run step initial [.start fakeVpnCalls, .stop true] = some t ∧
        t.status = .disconnected ∧ t.running = [0] ∧
          (t.startTun2Socks fakeVpnCalls).2 = some (.illegalState "VPN field not null") := by
  refine ⟨fun halways => ?_, _, rfl, rfl, rfl, rfl⟩
  have hclean := (halways.2 _ rfl).2 _ rfl
  exact absurd (hclean nofun).1 (Option.some_ne_none 77)

end ToInet.Byedpi.ByeDpiVpnService
