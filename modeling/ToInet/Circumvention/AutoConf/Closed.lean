import ToInet.Circumvention.AutoConf
import ToInet.Lib.Exceptions

-- What do leaves open: the tunnels that it has started, and the authenticator.
namespace ToInet.Circumvention.AutoConf

open ToInet.Lib BuiltInBridges

def State.initial (started : List String) (authenticator : Option MoatTunnel) (builtIn : Companion) : State :=
  { started, opened := [], authenticator, builtIn }

-- The first tunnel runs, with its authenticator.
def State.opening (started : List String) (builtIn : Companion) : State :=
  { started := started ++ [MoatTunnel.torProject.methodName], opened := [.torProject]
    authenticator := some .torProject, builtIn }

def Closed (s : State) : Prop := (∀ tunnel ∈ s.opened, tunnel.methodName ∉ s.started) ∧ s.authenticator = none

-- Of the tunnels only the first one may still run.
def SecondClosed (s : State) : Prop :=
  .guardianProject ∈ s.opened → MoatTunnel.guardianProject.methodName ∉ s.started

def FirstOpen (s : State) : Prop :=
  .torProject ∈ s.opened ∧ MoatTunnel.torProject.methodName ∈ s.started

variable {calls : Calls} {country : Option String}

-- What throws neither before the services are asked nor on the way to the second one.
structure Undisturbed (calls : Calls) (country : Option String) : Prop where
  getInstance : (calls.getInstance .torProject).isOk
  store : (newBuiltIns calls).isSome → calls.store.isOk
  start2 : noCountry country = false → (calls.start .guardianProject).isOk
  getInstance2 : noCountry country = false → (calls.getInstance .guardianProject).isOk

theorem exists_ok {ε α : Type} {x : Except ε α} (h : x.isOk = true) : ∃ a, x = .ok a := by
  cases x with
  | ok a => exact ⟨a, rfl⟩
  | error e => cases h

theorem exists_error {ε α : Type} {x : Except ε α} (h : ¬x.isOk = true) : ∃ e, x = .error e := by
  cases x with
  | ok a => exact absurd rfl h
  | error e => exact ⟨e, rfl⟩

variable {s : State}

theorem FirstOpen.not_closed (h : FirstOpen s) : ¬Closed s := fun hclosed => hclosed.1 _ h.1 h.2

theorem firstOpen_opening (started : List String) (builtIn : Companion) : FirstOpen (.opening started builtIn) :=
  ⟨List.mem_singleton_self _, List.mem_append_right _ (List.mem_singleton_self _)⟩

theorem startTunnel_ok {tunnel : MoatTunnel} (h : (calls.start tunnel).isOk) :
    startTunnel calls tunnel s =
      .ok () { s with started := s.started ++ [tunnel.methodName], opened := s.opened ++ [tunnel] } := by
  obtain ⟨a, ha⟩ := exists_ok h
  rw [startTunnel, ha]
  rfl

theorem startTunnel_error {tunnel : MoatTunnel} (h : ¬(calls.start tunnel).isOk) :
    ∃ e, startTunnel calls tunnel s = .error e s := by
  obtain ⟨e, he⟩ := exists_error h
  rw [startTunnel, he]
  exact ⟨e, rfl⟩

theorem updateBuiltIns_ok (h : (newBuiltIns calls).isSome → calls.store.isOk) :
    ∃ builtIn, updateBuiltIns calls s = .ok () { s with builtIn } := by
  unfold updateBuiltIns
  cases hnew : newBuiltIns calls with
  | none => exact ⟨s.builtIn, rfl⟩
  | some bridges =>
      obtain ⟨a, ha⟩ := exists_ok (h (by rw [hnew]; rfl))
      simp only [storeBuiltIn, ha]
      exact ⟨_, rfl⟩

theorem updateBuiltIns_error (h : ¬((newBuiltIns calls).isSome → calls.store.isOk)) :
    ∃ e builtIn, updateBuiltIns calls s = .error e { s with builtIn } := by
  obtain ⟨hsome, hstore⟩ := Classical.not_imp.mp h
  obtain ⟨bridges, hnew⟩ := Option.isSome_iff_exists.mp hsome
  obtain ⟨⟨e, left⟩, he⟩ := exists_error hstore
  simp only [updateBuiltIns, hnew, storeBuiltIn, he]
  exact ⟨e, _, rfl⟩

theorem askGuardianProject_ok (hstart : noCountry country = false → (calls.start .guardianProject).isOk)
    (hinstance : noCountry country = false → (calls.getInstance .guardianProject).isOk)
    (hs : s.opened = [.torProject]) :
    ∃ t, askGuardianProject calls country s = .ok () t ∧ SecondClosed t := by
  unfold askGuardianProject
  cases hcountry : noCountry country with
  | true =>
      refine ⟨s, rfl, fun hmem => ?_⟩
      rw [hs] at hmem
      cases List.mem_singleton.mp hmem
  | false =>
      obtain ⟨a, ha⟩ := exists_ok (hinstance hcountry)
      rw [if_neg Bool.false_ne_true, bind_ok (startTunnel_ok (hstart hcountry)), ha]
      exact ⟨_, rfl, fun _ hmem => by simpa using (List.mem_filter.mp hmem).2⟩

theorem askGuardianProject_error (h : ¬(noCountry country = false →
      (calls.start .guardianProject).isOk ∧ (calls.getInstance .guardianProject).isOk)) (hs : FirstOpen s) :
    ∃ e t, askGuardianProject calls country s = .error e t ∧ FirstOpen t := by
  obtain ⟨hcountry, hcalls⟩ := Classical.not_imp.mp h
  rw [askGuardianProject, hcountry, if_neg Bool.false_ne_true]
  by_cases hstart : (calls.start .guardianProject).isOk
  · obtain ⟨e, he⟩ := exists_error fun hinstance => hcalls ⟨hstart, hinstance⟩
    rw [bind_ok (startTunnel_ok hstart), he]
    exact ⟨e, _, rfl, List.mem_append_left _ hs.1, List.mem_append_left _ hs.2⟩
  · obtain ⟨e, he⟩ := startTunnel_error (s := s) hstart
    exact ⟨e, s, bind_error he, hs⟩

theorem Undisturbed.iff :
    Undisturbed calls country ↔
      (calls.getInstance .torProject).isOk ∧ ((newBuiltIns calls).isSome → calls.store.isOk) ∧
        (noCountry country = false → (calls.start .guardianProject).isOk ∧ (calls.getInstance .guardianProject).isOk) :=
  ⟨fun h => ⟨h.getInstance, h.store, fun hcountry => ⟨h.start2 hcountry, h.getInstance2 hcountry⟩⟩,
    fun ⟨hinstance, hstore, hcalls⟩ =>
      ⟨hinstance, hstore, fun hcountry => (hcalls hcountry).1, fun hcountry => (hcalls hcountry).2⟩⟩

variable (started : List String) (authenticator : Option MoatTunnel) (builtIn : Companion)
  (cannotConnectWithoutPt : Bool)

-- do once its first tunnel runs.
theorem do'_opened (hstart : (calls.start .torProject).isOk) (hinstance : (calls.getInstance .torProject).isOk) :
    do' calls country cannotConnectWithoutPt (.initial started authenticator builtIn) =
      (do
        updateBuiltIns calls
        askGuardianProject calls country
        if safe calls country cannotConnectWithoutPt then useNone calls country else useSettings calls country)
        (State.opening started builtIn) := by
  obtain ⟨a, ha⟩ := exists_ok hinstance
  rw [do', bind_ok (startTunnel_ok hstart), ha]
  rfl

theorem do'_of_undisturbed (hstart : (calls.start .torProject).isOk) (h : Undisturbed calls country) :
    ∃ t, SecondClosed t ∧
      do' calls country cannotConnectWithoutPt (.initial started authenticator builtIn) =
        (if safe calls country cannotConnectWithoutPt then useNone calls country else useSettings calls country) t := by
  obtain ⟨updated, hupdate⟩ := updateBuiltIns_ok (s := State.opening started builtIn) h.store
  obtain ⟨t, ht, hsecond⟩ :=
    askGuardianProject_ok (s := State.opening started updated) h.start2 h.getInstance2 rfl
  refine ⟨t, hsecond, ?_⟩
  rw [do'_opened _ _ _ _ hstart h.getInstance, bind_ok hupdate]
  exact bind_ok ht

theorem do'_of_disturbed (hstart : (calls.start .torProject).isOk) (h : ¬Undisturbed calls country) :
    ∃ e t, do' calls country cannotConnectWithoutPt (.initial started authenticator builtIn) = .error e t ∧
      FirstOpen t := by
  by_cases hinstance : (calls.getInstance .torProject).isOk
  · rw [do'_opened _ _ _ _ hstart hinstance]
    by_cases hstore : (newBuiltIns calls).isSome → calls.store.isOk
    · have hcalls := fun hcalls => h (Undisturbed.iff.mpr ⟨hinstance, hstore, hcalls⟩)
      obtain ⟨updated, hupdate⟩ := updateBuiltIns_ok (s := State.opening started builtIn) hstore
      obtain ⟨e, t, ht, hfirst⟩ := askGuardianProject_error hcalls (firstOpen_opening started updated)
      exact ⟨e, t, (bind_ok hupdate).trans (bind_error ht), hfirst⟩
    · obtain ⟨e, updated, hupdate⟩ := updateBuiltIns_error (s := State.opening started builtIn) hstore
      exact ⟨e, _, bind_error hupdate, firstOpen_opening started updated⟩
  · obtain ⟨e, he⟩ := exists_error hinstance
    rw [do', bind_ok (startTunnel_ok hstart), he]
    exact ⟨e, _, rfl, firstOpen_opening started builtIn⟩

theorem done_closed (hs : SecondClosed s) :
    ∃ t, done s = .ok () t ∧ Closed t := by
  refine ⟨_, rfl, fun tunnel htunnel hmem => ?_, rfl⟩
  obtain ⟨hmem, hne⟩ := List.mem_filter.mp hmem
  cases tunnel with
  | torProject => simp at hne
  | guardianProject => exact hs htunnel hmem

theorem return_closed {conf : Option (Transport × List String)} (hs : SecondClosed s) :
    Closed (finalState ((do done; return conf : Action _) s)) := by
  obtain ⟨t, ht, hclosed⟩ := done_closed hs
  rw [bind_ok ht]
  exact hclosed

theorem extracted_ok (settings : Option (List MoatApi.Setting)) :
    extracted settings s =
      .ok (extract s.builtIn settings).1 { s with builtIn := (extract s.builtIn settings).2 } := rfl

theorem useNone_closed (hs : SecondClosed s) : Closed (finalState (useNone calls country s)) := by
  obtain ⟨t, ht, hclosed⟩ := done_closed hs
  rw [useNone, bind_ok ht]
  cases lastException calls country <;> exact hclosed

theorem useDefaults_closed (hs : SecondClosed s) : Closed (finalState (useDefaults calls s)) := by
  unfold useDefaults
  cases calls.defaults { country := none } with
  | error e =>
      obtain ⟨t, ht, hclosed⟩ := done_closed hs
      dsimp only
      rw [bind_ok ht]
      exact hclosed
  | ok response =>
      dsimp only
      rw [bind_ok (extracted_ok _)]
      apply return_closed
      exact hs

theorem useSettings_closed (hs : SecondClosed s) : Closed (finalState (useSettings calls country s)) := by
  rw [useSettings, bind_ok (extracted_ok _), bind_ok (extracted_ok _)]
  dsimp only
  generalize (Option.map Prod.fst _).or _ = chosen
  cases chosen with
  | none => exact useDefaults_closed hs
  | some transport =>
      apply return_closed
      exact hs

-- do closes what it has opened unless it throws between its start and the services' answers.
theorem closed_iff_undisturbed (hstart : (calls.start .torProject).isOk) :
    Closed (finalState (do' calls country cannotConnectWithoutPt (.initial started authenticator builtIn))) ↔
      Undisturbed calls country := by
  constructor
  · intro hclosed
    by_contra h
    obtain ⟨e, t, ht, hfirst⟩ :=
      do'_of_disturbed started authenticator builtIn cannotConnectWithoutPt hstart h
    rw [ht] at hclosed
    exact hfirst.not_closed hclosed
  · intro h
    obtain ⟨t, hsecond, ht⟩ :=
      do'_of_undisturbed started authenticator builtIn cannotConnectWithoutPt hstart h
    rw [ht]
    split
    · exact useNone_closed hsecond
    · exact useSettings_closed hsecond

-- New built-in bridges arrive and there is no room for their file.
def diskFull : Calls :=
  { start := fun _ => .ok ()
    getInstance := fun _ => .ok ()
    builtin := .ok { snowflake := some [⟨['s']⟩] }
    store := .error (.other "No space left on device", none)
    settings := fun _ _ => .error (.other "timeout")
    defaults := fun _ => .error (.other "timeout")
    lowercase := id
    now := 1700000000000
    lastModified := 0 }

theorem closed_diskFull :
    Closed (finalState (do' diskFull none false (.initial [] none ⟨none, none, none⟩))) ↔ Undisturbed diskFull none :=
  closed_iff_undisturbed [] none ⟨none, none, none⟩ false rfl

-- The tunnel runs on when the exception has left do.
theorem not_closed_diskFull :
    (diskFull.start .torProject).isOk = true ∧
      ¬Closed (finalState (do' diskFull none false (.initial [] none ⟨none, none, none⟩))) :=
  ⟨rfl, fun h => h.1 .torProject (List.mem_singleton_self _) (List.mem_singleton_self _)⟩

end ToInet.Circumvention.AutoConf
