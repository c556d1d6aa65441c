import ToInet.Service.ServerSocket

namespace ToInet.Service

open ToInet.Lib

namespace Server

theorem readSocket_mem_stop (server : Server) : .readSocket ∈ server.stop := by
  cases server <;> decide

end Server

namespace ServerSocket

variable {s t : ServerSocket} {server : Server} {port job : Nat}

@[simp] theorem setPhase_self (phase : Phase) :
    (s.setPhase job phase).coroutines job = { s.coroutines job with phase } := by
  simp only [setPhase, Function.update_self]

theorem setPhase_of_ne {other : Nat} (phase : Phase) (h : other ≠ job) :
    (s.setPhase job phase).coroutines other = s.coroutines other := by
  simp only [setPhase, Function.update_of_ne h]

theorem cancel_phase (other : Nat) : ((s.cancel job).coroutines other).phase = (s.coroutines other).phase := by
  by_cases h : other = job
  · subst h
    simp only [cancel, Function.update_self]
  · simp only [cancel, Function.update_of_ne h]

theorem mem_close {socket other : Nat} :
    other ∈ (s.close socket).listening ↔ other ∈ s.listening ∧ other ≠ socket := by
  simp only [close, List.mem_filter, decide_eq_true_eq]

-- A stop(), of the caller or of a coroutine, that has read the socket and has not closed it yet.
def InHand (s : ServerSocket) (socket : Nat) : Prop :=
  (∃ rest, s.caller = .stopping rest ∧ .close socket ∈ rest) ∨
    ∃ job rest, (s.coroutines job).phase = .finishing rest ∧ .close socket ∈ rest

-- What is known of the socket of a coroutine that stands in the phase: nobody else has it before
-- it is assigned, and while it is open it stays assigned.
def Known (s : ServerSocket) (job : Nat) : Phase → Prop
  | .launched | .begun => job ∉ s.listening ∧ s.serverSocket ≠ some job ∧ ¬s.InHand job
  | .bound => job ∈ s.listening ∧ s.serverSocket ≠ some job ∧ ¬s.InHand job
  | .checking => job ∈ s.listening → s.serverSocket = some job
  | .reading | .accepting _ | .done => job ∈ s.listening → s.serverSocket = some job ∧ ¬s.Overlooked job
  | .finishing rest => job ∈ s.listening → s.serverSocket = some job ∧ (¬s.Overlooked job ∨ Closes job rest)

structure Coherent (s : ServerSocket) (job : Nat) : Prop where
  fresh : s.started ≤ job → (s.coroutines job).phase = .done ∧ s.Known job .launched
  known : s.Known job (s.coroutines job).phase

-- A fixed port has one socket.
structure Inv (port : Nat) (s : ServerSocket) : Prop where
  coherent : ∀ job, s.Coherent job
  single : port ≠ 0 → ∀ j ∈ s.listening, ∀ k ∈ s.listening, j = k

theorem initial_not_inHand : ¬initial.InHand job := by
  rintro (⟨rest, hcaller, -⟩ | ⟨other, rest, hphase, -⟩)
  · cases hcaller
  · cases hphase

theorem initial_inv : initial.Inv port := by
  refine ⟨fun job => ⟨fun _ => ⟨rfl, List.not_mem_nil, nofun, initial_not_inHand⟩, fun h => ?_⟩,
    fun _ _ hj => ?_⟩
  · exact absurd h List.not_mem_nil
  · exact absurd hj List.not_mem_nil

-- A step that leaves the assignment and the socket of a start alone: no stop() that reads
-- serverSocket gets another socket in hand, only one that has it closes it, and none overlooks it
-- that did not.
structure Spares (s t : ServerSocket) (job : Nat) : Prop where
  socket : t.serverSocket = s.serverSocket
  hand : s.serverSocket ≠ some job → t.InHand job → s.InHand job
  opens : job ∈ t.listening → job ∈ s.listening
  keeps : ¬s.InHand job → job ∈ s.listening → job ∈ t.listening
  looks : job ∈ t.listening → s.serverSocket = some job → ¬s.Overlooked job → ¬t.Overlooked job

theorem Known.mono {phase : Phase} (h : s.Known job phase) (hspares : s.Spares t job) : t.Known job phase := by
  obtain ⟨hsocket, hhand, hopen, hkeeps, hlooks⟩ := hspares
  cases phase with
  | launched | begun =>
      obtain ⟨hclosed, hnot, hfree⟩ := h
      exact ⟨fun hin => hclosed (hopen hin), hsocket ▸ hnot, fun hin => hfree (hhand hnot hin)⟩
  | bound =>
      obtain ⟨hin, hnot, hfree⟩ := h
      exact ⟨hkeeps hfree hin, hsocket ▸ hnot, fun hin => hfree (hhand hnot hin)⟩
  | checking => exact fun hin => hsocket.trans (h (hopen hin))
  | reading | accepting _ | done =>
      intro hin
      obtain ⟨hassigned, hnot⟩ := h (hopen hin)
      exact ⟨hsocket.trans hassigned, hlooks hin hassigned hnot⟩
  | finishing rest =>
      intro hin
      obtain ⟨hassigned, hcloses⟩ := h (hopen hin)
      exact ⟨hsocket.trans hassigned, hcloses.imp_left (hlooks hin hassigned)⟩

theorem Coherent.mono (h : s.Coherent job) (hphase : (t.coroutines job).phase = (s.coroutines job).phase)
    (hstarted : s.started ≤ t.started) (hspares : s.Spares t job) : t.Coherent job := by
  refine ⟨fun hle => ?_, hphase ▸ h.known.mono hspares⟩
  obtain ⟨hdone, hfresh⟩ := h.fresh (Nat.le_trans hstarted hle)
  exact ⟨hphase.trans hdone, hfresh.mono hspares⟩

theorem Inv.started {phase : Phase} (h : s.Inv port) (hphase : (s.coroutines job).phase = phase)
    (hdone : phase ≠ .done) : job < s.started := by
  by_contra hle
  exact hdone (hphase.symm.trans ((h.coherent job).fresh (Nat.not_lt.mp hle)).1)

theorem Inv.known {phase : Phase} (h : s.Inv port) (hphase : (s.coroutines job).phase = phase) :
    s.Known job phase := hphase ▸ (h.coherent job).known

-- A start that has been made is coherent where its phase says so.
theorem coherent_of_known {phase : Phase} (hstarted : job < s.started)
    (hphase : (s.coroutines job).phase = phase) (hknown : s.Known job phase) : s.Coherent job :=
  ⟨fun hle => absurd hstarted (Nat.not_lt.mpr hle), hphase ▸ hknown⟩

theorem Inv.mono (h : s.Inv port) (hopen : ∀ job ∈ t.listening, job ∈ s.listening)
    (hcoherent : ∀ job, t.Coherent job) : t.Inv port :=
  ⟨hcoherent, fun hport j hj k hk => h.single hport j (hopen j hj) k (hopen k hk)⟩

-- What a phase has in hand.
theorem inHand_setPhase {phase : Phase} {socket : Nat} (h : (s.setPhase job phase).InHand socket) :
    s.InHand socket ∨ ∃ rest, phase = .finishing rest ∧ .close socket ∈ rest := by
  rcases h with hcaller | ⟨other, rest, hphase, hin⟩
  · exact .inl (.inl hcaller)
  · by_cases hother : other = job
    · subst hother
      rw [setPhase_self] at hphase
      exact .inr ⟨rest, hphase, hin⟩
    · rw [setPhase_of_ne phase hother] at hphase
      exact .inl (.inr ⟨other, rest, hphase, hin⟩)

-- A coroutine moves to a phase that has no new socket in hand.
theorem Inv.setPhase {phase : Phase} (h : s.Inv port) (hstarted : job < s.started) (hknown : s.Known job phase)
    (hhand : ∀ socket rest, phase = .finishing rest → .close socket ∈ rest →
      s.InHand socket ∨ s.serverSocket = some socket) : (s.setPhase job phase).Inv port := by
  have hspares (other : Nat) : s.Spares (s.setPhase job phase) other := by
    refine ⟨rfl, fun hnot hin => ?_, id, fun _ => id, fun _ _ => id⟩
    rcases inHand_setPhase hin with hin | ⟨rest, hphase, hin⟩
    · exact hin
    · exact (hhand other rest hphase hin).resolve_right hnot
  refine h.mono (fun _ hj => hj) fun other => ?_
  by_cases hother : other = job
  · subst hother
    exact coherent_of_known hstarted (congrArg Coroutine.phase (setPhase_self phase)) (hknown.mono (hspares other))
  · refine (h.coherent other).mono ?_ (Nat.le_refl _) (hspares other)
    rw [setPhase_of_ne phase hother]

theorem perform_serverSocket (action : StopAction) (rest : List StopAction) :
    (s.perform action rest).1.serverSocket = s.serverSocket := by
  cases action <;> rfl

theorem perform_started (action : StopAction) (rest : List StopAction) :
    (s.perform action rest).1.started = s.started := by
  cases action <;> rfl

theorem perform_stopped (action : StopAction) (rest : List StopAction) :
    (s.perform action rest).1.stopped = s.stopped := by
  cases action <;> rfl

theorem perform_caller (action : StopAction) (rest : List StopAction) :
    (s.perform action rest).1.caller = s.caller := by
  cases action <;> rfl

theorem perform_phase (action : StopAction) (rest : List StopAction) (job : Nat) :
    ((s.perform action rest).1.coroutines job).phase = (s.coroutines job).phase := by
  cases action with
  | cancel other => exact cancel_phase job
  | _ => rfl

theorem mem_of_mem_perform {action : StopAction} {rest : List StopAction}
    (h : job ∈ (s.perform action rest).1.listening) : job ∈ s.listening := by
  cases action with
  | close socket => exact (mem_close.mp h).1
  | _ => exact h

theorem Closes.tail {action : StopAction} {rest : List StopAction} (h : Closes job (action :: rest))
    (hread : action ≠ .readSocket) (hclose : action ≠ .close job) : Closes job rest :=
  h.imp (fun hin => List.mem_of_ne_of_mem hread.symm hin) (fun hin => List.mem_of_ne_of_mem hclose.symm hin)

theorem Closes.append {rest : List StopAction} (h : Closes job rest) (more : List StopAction) :
    Closes job (more ++ rest) :=
  h.imp (List.mem_append_right _) (List.mem_append_right _)

-- An action that would close the assigned socket closes it, or leaves the closing to the rest.
theorem closes_perform {action : StopAction} {rest : List StopAction} (hassigned : s.serverSocket = some job)
    (hcloses : Closes job (action :: rest)) (hopen : job ∈ (s.perform action rest).1.listening) :
    Closes job (s.perform action rest).2 := by
  cases action with
  | readSocket =>
      have hread : (s.perform .readSocket rest).2 = .close job :: rest := by
        simp only [perform, hassigned, Option.map_some, Option.toList_some, List.singleton_append]
      exact .inr (hread ▸ List.mem_cons_self)
  | close socket =>
      have hne : socket ≠ job := fun h => (mem_close.mp hopen).2 h.symm
      exact hcloses.tail nofun fun h => hne (StopAction.close.inj h)
  | readJob => exact (hcloses.tail nofun nofun).append _
  | cancel other => exact hcloses.tail nofun nofun
  | clearJob => exact hcloses.tail nofun nofun

theorem perform_overlooked (action : StopAction) (rest : List StopAction) :
    (s.perform action rest).1.Overlooked job ↔ s.Overlooked job := by
  simp only [Overlooked, perform_stopped, perform_caller]

theorem perform_inHand (action : StopAction) (rest : List StopAction) :
    (s.perform action rest).1.InHand job ↔ s.InHand job := by
  simp only [InHand, perform_caller, perform_phase]

theorem mem_perform {action : StopAction} {rest : List StopAction} (hnot : action ≠ .close job)
    (h : job ∈ s.listening) : job ∈ (s.perform action rest).1.listening := by
  cases action with
  | close socket => exact mem_close.mpr ⟨h, fun heq => hnot (heq ▸ rfl)⟩
  | _ => exact h

-- Only the read of serverSocket gets a socket in hand.
theorem close_mem_perform {action : StopAction} {rest : List StopAction}
    (h : .close job ∈ (s.perform action rest).2) : .close job ∈ rest ∨ s.serverSocket = some job := by
  cases action with
  | readSocket =>
      refine (List.mem_append.mp h).symm.imp_right fun hread => ?_
      obtain ⟨socket, hassigned, hclose⟩ := Option.map_eq_some_iff.mp (Option.mem_toList.mp hread)
      exact StopAction.close.inj hclose ▸ hassigned
  | readJob =>
      refine .inl ((List.mem_append.mp h).resolve_left fun hread => ?_)
      obtain ⟨other, -, hcancel⟩ := Option.map_eq_some_iff.mp (Option.mem_toList.mp hread)
      cases hcancel
  | close _ | cancel _ | clearJob => exact .inl h

theorem perform_spares {action : StopAction} (rest : List StopAction)
    (hhand : ∀ socket, action = .close socket → s.InHand socket) (job : Nat) :
    s.Spares (s.perform action rest).1 job where
  socket := perform_serverSocket action rest
  hand _ hin := (perform_inHand action rest).mp hin
  opens := mem_of_mem_perform
  keeps hfree hin := mem_perform (fun heq => hfree (hhand job heq)) hin
  looks _ _ hnot := (perform_overlooked action rest).not.mpr hnot

-- The stop() of the caller goes on.
theorem Inv.stopping {action : StopAction} {rest : List StopAction} (h : s.Inv port)
    (hcaller : s.caller = .stopping (action :: rest)) :
    Inv port { (s.perform action rest).1 with caller := .stopping (s.perform action rest).2 } := by
  have hhand (socket : Nat) (hin : .close socket ∈ action :: rest) : s.InHand socket :=
    .inl ⟨action :: rest, hcaller, hin⟩
  refine h.mono (fun _ hj => mem_of_mem_perform hj) fun other => ?_
  have hspares := perform_spares rest (fun socket heq => hhand socket (heq ▸ List.mem_cons_self)) other
  refine (h.coherent other).mono (perform_phase action rest other)
    (Nat.le_of_eq (perform_started action rest).symm) { hspares with hand := ?_, looks := ?_ }
  · rintro hnot (⟨rest', hcaller', hin⟩ | ⟨job, rest', hphase, hin⟩)
    · obtain rfl := Caller.stopping.inj hcaller'
      exact hhand other (List.mem_cons_of_mem _ ((close_mem_perform hin).resolve_right hnot))
    · exact hspares.hand hnot (.inr ⟨job, rest', hphase, hin⟩)
  · intro hin hassigned hnot
    rw [Overlooked, hcaller, not_or, not_not] at hnot
    rw [Overlooked, perform_stopped, not_or, not_not]
    exact ⟨hnot.1, closes_perform hassigned hnot.2 hin⟩

-- The stop() that a coroutine makes in its finally block goes on.
theorem Inv.finishing {action : StopAction} {rest : List StopAction} (h : s.Inv port)
    (hphase : (s.coroutines job).phase = .finishing (action :: rest)) :
    Inv port ((s.perform action rest).1.setPhase job (.finishing (s.perform action rest).2)) := by
  have hhand (socket : Nat) (hin : .close socket ∈ action :: rest) : s.InHand socket :=
    .inr ⟨job, action :: rest, hphase, hin⟩
  have hperform : (s.perform action rest).1.Inv port := by
    refine h.mono (fun _ hj => mem_of_mem_perform hj) fun other => ?_
    exact (h.coherent other).mono (perform_phase action rest other)
      (Nat.le_of_eq (perform_started action rest).symm)
      (perform_spares rest (fun socket heq => hhand socket (heq ▸ List.mem_cons_self)) other)
  refine hperform.setPhase ?_ (fun hin => ?_) fun socket rest' hfinishing hin => ?_
  · rw [perform_started]
    exact h.started hphase nofun
  · obtain ⟨hassigned, hcloses⟩ := h.known hphase (mem_of_mem_perform hin)
    rw [perform_serverSocket, perform_overlooked]
    exact ⟨hassigned, hcloses.imp_right fun hcloses => closes_perform hassigned hcloses hin⟩
  · obtain rfl := Phase.finishing.inj hfinishing
    rw [perform_inHand, perform_serverSocket]
    exact (close_mem_perform hin).imp_left fun hrest => hhand socket (List.mem_cons_of_mem _ hrest)

-- What the caller does besides closing, where no socket gets in its hand and none is overlooked.
theorem Inv.call {caller : Caller} {next : Option Nat} (h : s.Inv port)
    (hclose : ∀ socket rest, caller = .stopping rest → .close socket ∉ rest)
    (hlooks : ∀ job, ¬s.Overlooked job → ¬Overlooked { s with job := next, caller } job) :
    Inv port { s with job := next, caller } := by
  refine h.mono (fun _ hj => hj) fun other => (h.coherent other).mono rfl (Nat.le_refl _) ?_
  refine ⟨rfl, ?_, id, fun _ => id, fun _ _ => hlooks other⟩
  rintro - (⟨rest, hcaller, hin⟩ | hin)
  · exact absurd hin (hclose other rest hcaller)
  · exact .inr hin

theorem closes_nil : ¬Closes job [] := by
  simp only [Closes, List.not_mem_nil, or_self, not_false_iff]

-- A stop() that returns has left no open socket of which it could be said that nobody overlooks it.
theorem Inv.returns (h : s.Inv port) (hcaller : s.caller = .stopping []) :
    Inv port { s with caller := .idle, stopped := s.started } := by
  refine h.mono (fun _ hj => hj) fun other => (h.coherent other).mono rfl (Nat.le_refl _) ?_
  refine ⟨rfl, ?_, id, fun _ => id, fun _ _ hnot => ?_⟩
  · rintro - (⟨rest, hidle, -⟩ | hin)
    · cases hidle
    · exact .inr hin
  · rw [Overlooked, hcaller] at hnot
    exact absurd (.inr closes_nil) hnot

theorem cancel_inHand {socket : Nat} : (s.cancel job).InHand socket ↔ s.InHand socket := by
  simp only [InHand, cancel_phase]
  exact Iff.rfl

theorem Inv.cancel (h : s.Inv port) (job : Nat) : (s.cancel job).Inv port := by
  refine h.mono (fun _ hj => hj) fun other => (h.coherent other).mono (cancel_phase other) (Nat.le_refl _) ?_
  exact ⟨rfl, fun _ => cancel_inHand.mp, id, fun _ => id, fun _ _ => id⟩

theorem Inv.launch (h : s.Inv port) :
    Inv port { s with
      caller := .launched s.started
      coroutines := Function.update s.coroutines s.started { phase := .launched, cancelled := false }
      started := s.started + 1 } := by
  have hspares (other : Nat) : s.Spares { s with
      caller := .launched s.started
      coroutines := Function.update s.coroutines s.started { phase := .launched, cancelled := false }
      started := s.started + 1 } other := by
    refine ⟨rfl, ?_, id, fun _ => id, fun _ _ hnot hlooked => hnot (.inl (hlooked.resolve_right id))⟩
    rintro - (⟨rest, hstopping, -⟩ | ⟨job, rest, hphase, hin⟩)
    · cases hstopping
    · by_cases hjob : job = s.started
      · simp only [hjob, Function.update_self] at hphase
        cases hphase
      · simp only [Function.update_of_ne hjob] at hphase
        exact .inr ⟨job, rest, hphase, hin⟩
  refine h.mono (fun _ hj => hj) fun other => ?_
  by_cases hother : other = s.started
  · subst hother
    refine ⟨fun hle => absurd hle (Nat.not_succ_le_self _), ?_⟩
    simp only [Function.update_self]
    exact ((h.coherent s.started).fresh (Nat.le_refl _)).2.mono (hspares s.started)
  · refine (h.coherent other).mono ?_ (Nat.le_succ _) (hspares other)
    simp only [Function.update_of_ne hother]

-- The socket is new, and its start is the only one that has it.
theorem Inv.binds (h : s.Inv port) (hphase : (s.coroutines job).phase = .begun)
    (hport : port = 0 ∨ s.listening = []) :
    Inv port { s.setPhase job .bound with listening := job :: s.listening } := by
  obtain ⟨-, hnot, hfree⟩ := h.known hphase
  have hinHand (socket : Nat)
      (hin : InHand { s.setPhase job .bound with listening := job :: s.listening } socket) :
      s.InHand socket := by
    refine (inHand_setPhase hin).resolve_right ?_
    rintro ⟨rest, hbound, -⟩
    cases hbound
  refine ⟨fun other => ?_, fun hfixed j hj k hk => ?_⟩
  · by_cases hother : other = job
    · subst hother
      exact coherent_of_known (h.started hphase nofun) (congrArg Coroutine.phase (setPhase_self .bound))
        ⟨List.mem_cons_self, hnot, fun hin => hfree (hinHand other hin)⟩
    · refine (h.coherent other).mono ?_ (Nat.le_refl _) ?_
      · show ((s.setPhase job .bound).coroutines other).phase = _
        rw [setPhase_of_ne _ hother]
      · exact ⟨rfl, fun _ => hinHand other, fun hin => List.mem_of_ne_of_mem hother hin,
          fun _ hin => List.mem_cons_of_mem _ hin, fun _ _ hlooked => hlooked⟩
  · have hnone := hport.resolve_left hfixed
    simp only [hnone, List.mem_singleton] at hj hk
    exact hj.trans hk.symm

-- No open socket loses the assignment: on a fixed port the only one is the one that is assigned.
theorem Inv.assigns (h : s.Inv port) (hphase : (s.coroutines job).phase = .bound)
    (hquiet : port = 0 → ∀ socket, s.serverSocket = some socket → socket ∉ s.listening) :
    Inv port { s.setPhase job .checking with serverSocket := some job } := by
  obtain ⟨hopen, hnot, -⟩ := h.known hphase
  have hclosed (socket : Nat) (hassigned : s.serverSocket = some socket) : socket ∉ s.listening := by
    by_cases hport : port = 0
    · exact hquiet hport socket hassigned
    · exact fun hin => hnot (h.single hport socket hin job hopen ▸ hassigned)
  have hinHand (socket : Nat)
      (hin : InHand { s.setPhase job .checking with serverSocket := some job } socket) :
      s.InHand socket := by
    have hsame : (s.setPhase job .checking).InHand socket := hin
    refine (inHand_setPhase hsame).resolve_right ?_
    rintro ⟨rest, hchecking, -⟩
    cases hchecking
  refine h.mono (fun _ hj => hj) fun other => ?_
  by_cases hother : other = job
  · subst hother
    exact coherent_of_known (h.started hphase nofun) (congrArg Coroutine.phase (setPhase_self .checking))
      fun _ => rfl
  · have hne : some job ≠ some other := fun heq => hother (Option.some.inj heq).symm
    have hsame : ((s.setPhase job .checking).coroutines other).phase = (s.coroutines other).phase := by
      rw [setPhase_of_ne _ hother]
    refine ⟨fun hle => ?_, ?_⟩
    · obtain ⟨hdone, hnone, -, hfree⟩ := (h.coherent other).fresh hle
      exact ⟨hsame.trans hdone, hnone, hne, fun hin => hfree (hinHand other hin)⟩
    · show Known _ other ((s.setPhase job .checking).coroutines other).phase
      rw [hsame]
      have hknown := (h.coherent other).known
      cases hp : (s.coroutines other).phase with
      | launched | begun | bound =>
          rw [hp] at hknown
          exact ⟨hknown.1, hne, fun hin => hknown.2.2 (hinHand other hin)⟩
      | checking =>
          rw [hp] at hknown
          exact fun hin => absurd hin (hclosed other (hknown hin))
      | reading | accepting _ | finishing _ | done =>
          rw [hp] at hknown
          exact fun hin => absurd hin (hclosed other (hknown hin).1)

theorem close_notMem_finallyBlock (server : Server) (socket : Nat) : .close socket ∉ server.finallyBlock := by
  cases server <;> simp [Server.finallyBlock, Server.stop]

theorem close_notMem_stop (server : Server) (socket : Nat) : .close socket ∉ server.stop := by
  cases server <;> simp [Server.stop]

-- A coroutine leaves its loop.
theorem Inv.leaves (h : s.Inv port) (hstarted : job < s.started)
    (hknown : job ∈ s.listening →
      s.serverSocket = some job ∧ (¬s.Overlooked job ∨ Closes job server.finallyBlock)) :
    (s.setPhase job (.finishing server.finallyBlock)).Inv port := by
  refine h.setPhase hstarted hknown fun socket rest hphase hin => ?_
  obtain rfl := Phase.finishing.inj hphase
  exact absurd hin (close_notMem_finallyBlock server socket)

theorem step_inv {event : Event} (h : s.Inv port) (htime : s.InTime server port event)
    (hstep : s.step server port event = some t) : t.Inv port := by
  cases event with
  | start =>
      obtain ⟨hidle, hmoves⟩ := Option.ite_none_right_eq_some.mp hstep
      obtain rfl := Option.some.inj hmoves
      split
      · exact h.call nofun fun _ hnot hlooked => hnot (.inl (hlooked.resolve_right id))
      · exact h
  | launch =>
      obtain ⟨-, hmoves⟩ := Option.ite_none_right_eq_some.mp hstep
      obtain rfl := Option.some.inj hmoves
      exact h.launch
  | setJob =>
      simp only [step] at hstep
      split at hstep
      · obtain rfl := Option.some.inj hstep
        exact h.call nofun fun _ hnot hlooked => hnot (.inl (hlooked.resolve_right id))
      · cases hstep
  | stop =>
      obtain ⟨-, hmoves⟩ := Option.ite_none_right_eq_some.mp hstep
      obtain rfl := Option.some.inj hmoves
      refine h.call (fun socket rest hcaller => ?_) fun job hnot hlooked => ?_
      · exact Caller.stopping.inj hcaller ▸ close_notMem_stop server socket
      · exact hlooked.elim (fun hstopped => hnot (.inl hstopped))
          fun hcloses => hcloses (.inl server.readSocket_mem_stop)
  | stopGoesOn =>
      simp only [step] at hstep
      split at hstep
      · rename_i hcaller
        obtain rfl := Option.some.inj hstep
        exact h.returns hcaller
      · rename_i action rest hcaller
        obtain rfl := Option.some.inj hstep
        exact h.stopping hcaller
      · cases hstep
  | cancels job =>
      obtain rfl := Option.some.inj hstep
      exact h.cancel job
  | dispatched job =>
      obtain ⟨hphase, hmoves⟩ := Option.ite_none_right_eq_some.mp hstep
      obtain rfl := Option.some.inj hmoves
      have hknown := h.known hphase
      refine h.setPhase (h.started hphase nofun) ?_ fun socket rest hfinishing => ?_
      · split
        · exact fun hin => absurd hin hknown.1
        · exact hknown
      · split at hfinishing <;> cases hfinishing
  | binds job =>
      obtain ⟨⟨hphase, hport⟩, hmoves⟩ := Option.ite_none_right_eq_some.mp hstep
      obtain rfl := Option.some.inj hmoves
      exact h.binds hphase hport
  | bindFails job =>
      obtain ⟨hphase, hmoves⟩ := Option.ite_none_right_eq_some.mp hstep
      obtain rfl := Option.some.inj hmoves
      have hknown := h.known hphase
      exact h.leaves (h.started hphase nofun) fun hin => absurd hin hknown.1
  | assigns job =>
      obtain ⟨hphase, hmoves⟩ := Option.ite_none_right_eq_some.mp hstep
      obtain rfl := Option.some.inj hmoves
      exact h.assigns hphase htime
  | checks job =>
      obtain ⟨hphase, hmoves⟩ := Option.ite_none_right_eq_some.mp hstep
      obtain rfl := Option.some.inj hmoves
      have hstarted := h.started hphase nofun
      have hknown := h.known hphase
      split
      · refine h.leaves hstarted fun hin => ⟨hknown hin, ?_⟩
        exact htime.symm.imp (fun hnot => hnot hin) fun hfinally => .inl hfinally.1
      · rename_i hcancelled
        have hnot := htime.resolve_left fun hfinally => hcancelled hfinally.2
        exact h.setPhase hstarted (fun hin => ⟨hknown hin, hnot hin⟩) nofun
  | reads job =>
      obtain ⟨hphase, hmoves⟩ := Option.ite_none_right_eq_some.mp hstep
      obtain rfl := Option.some.inj hmoves
      have hstarted := h.started hphase nofun
      have hknown := h.known hphase
      cases hsocket : s.serverSocket with
      | none => exact h.leaves hstarted fun hin => (hknown hin).imp_right .inl
      | some socket => exact h.setPhase hstarted hknown nofun
  | accepts job =>
      simp only [step] at hstep
      split at hstep
      · rename_i socket hphase
        obtain ⟨-, hmoves⟩ := Option.ite_none_right_eq_some.mp hstep
        obtain rfl := Option.some.inj hmoves
        have hknown := h.known hphase
        exact h.setPhase (h.started hphase nofun) (fun hin => (hknown hin).1) nofun
      · cases hstep
  | acceptFails job =>
      simp only [step] at hstep
      split at hstep
      · rename_i socket hphase
        obtain rfl := Option.some.inj hstep
        have hknown := h.known hphase
        exact h.leaves (h.started hphase nofun) fun hin => (hknown hin).imp_right .inl
      · cases hstep
  | finallyGoesOn job =>
      simp only [step] at hstep
      split at hstep
      · rename_i hphase
        obtain rfl := Option.some.inj hstep
        have hknown := h.known hphase
        refine h.setPhase (h.started hphase nofun) (fun hin => ?_) nofun
        exact (hknown hin).imp_right fun hnot => hnot.resolve_right closes_nil
      · rename_i action rest hphase
        obtain rfl := Option.some.inj hstep
        exact h.finishing hphase
      · cases hstep

theorem Inv.closed (h : s.Inv port) : s.Closed := by
  intro job hstopped hwaits hin
  have hknown := (h.coherent job).known
  unfold Waits at hwaits
  cases hp : (s.coroutines job).phase with
  | accepting _ | done =>
      rw [hp] at hknown
      exact (hknown hin).2 (.inl hstopped)
  | _ =>
      rw [hp] at hwaits
      exact hwaits

-- Where no stop() falls between the constructor of a socket and the check of isActive behind it,
-- every start that has been stopped ends with its socket closed.
theorem run_closed {events : List Event} (htime : Allowed (step server port) (InTime server port) initial events)
    (hrun : run (step server port) initial events = some t) : t.Closed :=
  (run_induction_allowed (Inv port) (InTime server port) (fun _ _ _ hs hallowed hstep => step_inv hs hallowed hstep)
    initial_inv htime hrun).closed

-- A server that listens when it is stopped: accept() fails on the closed socket.
def stoppedListening : List Event :=
  [.start, .launch, .setJob, .dispatched 0, .binds 0, .assigns 0, .checks 0, .reads 0, .stop, .stopGoesOn,
    .stopGoesOn, .stopGoesOn, .stopGoesOn, .stopGoesOn, .stopGoesOn, .acceptFails 0, .finallyGoesOn 0]

theorem run_closed_of_listening :
    ∃ t, run (step .tgwsCore 1480) initial stoppedListening = some t ∧ t.stopped = 1 ∧ t.Waits 0 ∧ t.Closed := by
  have htime : Allowed (step .tgwsCore 1480) (InTime .tgwsCore 1480) initial stoppedListening := by
    refine .cons trivial rfl (.cons trivial rfl (.cons trivial rfl (.cons trivial rfl (.cons trivial rfl ?_))))
    refine .cons nofun rfl (.cons (.inr fun _ hlooked => ?_) rfl (.cons trivial rfl (.cons trivial rfl ?_)))
    · exact hlooked.elim (Nat.not_lt_zero 0) id
    · refine .cons trivial rfl (.cons trivial rfl (.cons trivial rfl (.cons trivial rfl ?_)))
      exact .cons trivial rfl (.cons trivial rfl (.cons trivial rfl (.cons trivial rfl trivial)))
  exact ⟨_, rfl, rfl, trivial, run_closed htime rfl⟩

-- DirectSocks5Server: stop() reads serverSocket in front of the assignment, and cancels the
-- coroutine behind its check of isActive.
def stoppedAroundAssignment : List Event :=
  [.start, .launch, .setJob, .dispatched 0, .stop, .stopGoesOn, .binds 0, .assigns 0, .checks 0, .reads 0,
    .stopGoesOn, .stopGoesOn, .stopGoesOn, .stopGoesOn]

-- TgwsCore: stop() returns in front of the constructor, and the coroutine ends at isActive.
def stoppedBeforeBind : List Event :=
  [.start, .launch, .setJob, .dispatched 0, .stop, .stopGoesOn, .stopGoesOn, .stopGoesOn, .stopGoesOn,
    .stopGoesOn, .binds 0, .assigns 0, .checks 0, .finallyGoesOn 0]

theorem run_not_closed :
    (∃ t, run (step .directSocks5Server 1790) initial stoppedAroundAssignment = some t ∧ ¬t.Closed) ∧
      ∃ t, run (step .tgwsCore 1480) initial stoppedBeforeBind = some t ∧ ¬t.Closed := by
  refine ⟨⟨_, rfl, fun hclosed => ?_⟩, _, rfl, fun hclosed => ?_⟩
  · exact hclosed 0 Nat.zero_lt_one List.mem_cons_self List.mem_cons_self
  · exact hclosed 0 Nat.zero_lt_one trivial List.mem_cons_self

end ServerSocket

end ToInet.Service
