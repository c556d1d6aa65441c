import ToInet.Byedpi.ByeDpiRouter
import ToInet.Byedpi.SuggestCombinations

namespace ToInet.Byedpi.ByeDpiRouter

open ToInet.Lib

variable (fold : Char → Char)

theorem addCmd_nodup {cmds : List String} {cmd : String} (h : cmds.Nodup) : (addCmd cmds cmd).Nodup := by
  unfold addCmd
  split
  · exact h
  · rename_i hcmd
    refine List.Nodup.append h (List.nodup_singleton cmd) fun other hother hsame => ?_
    rw [List.mem_singleton] at hsame
    rw [hsame] at hother
    exact hcmd hother

theorem mem_addCmd {cmds : List String} {cmd other : String} :
    other ∈ addCmd cmds cmd ↔ other ∈ cmds ∨ other = cmd := by
  unfold addCmd
  split
  · rename_i hcmd
    exact ⟨.inl, fun h => h.elim id fun hsame => hsame ▸ hcmd⟩
  · rw [List.mem_append, List.mem_singleton]

theorem foldl_addCmd_nodup {entries : List (String × String)} {cmds : List String} (h : cmds.Nodup) :
    (entries.foldl (fun cmds entry => addCmd cmds entry.2) cmds).Nodup := by
  induction entries generalizing cmds with
  | nil => exact h
  | cons entry entries ih => exact ih (addCmd_nodup h)

theorem mem_foldl_addCmd {entries : List (String × String)} {cmds : List String} {cmd : String} :
    cmd ∈ entries.foldl (fun cmds entry => addCmd cmds entry.2) cmds ↔
      cmd ∈ cmds ∨ ∃ entry ∈ entries, entry.2 = cmd := by
  induction entries generalizing cmds with
  | nil => simp
  | cons entry entries ih =>
      rw [List.foldl_cons, ih, mem_addCmd]
      simp [or_assoc, eq_comm]

theorem uniqueCmds_nodup (rules : LinkedMap String String) : (uniqueCmds rules).Nodup :=
  foldl_addCmd_nodup List.nodup_nil

theorem mem_uniqueCmds {rules : LinkedMap String String} {cmd : String} :
    cmd ∈ uniqueCmds rules ↔ ∃ entry ∈ rules.entries, entry.2 = cmd := by
  rw [uniqueCmds, mem_foldl_addCmd]
  simp

-- The ports that are given out to commands that differ, when n instances have been started.
def allocate : List String → Nat → List (String × Nat)
  | [], _ => []
  | cmd :: cmds, n =>
      if isTor fold cmd then (cmd, torPort) :: allocate cmds n
      else if n < instances then (cmd, 11081 + n) :: allocate cmds (n + 1)
      else allocate cmds n

variable {fold}

theorem foldl_launchCmd {cmds : List String} {s : Launches} (hport : s.currentPort = 11081 + s.launched.length)
    (hfresh : (s.cmdToPort.keys ++ cmds).Nodup) :
    (cmds.foldl (launchCmd fold) s).cmdToPort.entries =
        s.cmdToPort.entries ++ allocate fold cmds s.launched.length ∧
      (cmds.foldl (launchCmd fold) s).launched.map (fun intent => (intent.cmd, intent.port)) =
        s.launched.map (fun intent => (intent.cmd, intent.port)) ++
          (allocate fold cmds s.launched.length).filter (fun entry => !isTor fold entry.1) := by
  induction cmds generalizing s with
  | nil => simp [allocate]
  | cons cmd cmds ih =>
      have hcmd : cmd ∉ s.cmdToPort.keys :=
        fun hmem => List.disjoint_of_nodup_append hfresh hmem List.mem_cons_self
      have hput (port : Nat) := LinkedMap.put_of_notMem port hcmd
      have hkeys (port : Nat) : ((s.cmdToPort.put cmd port).keys ++ cmds).Nodup := by
        rw [LinkedMap.keys, hput, List.map_append]
        simpa [LinkedMap.keys] using hfresh
      rw [List.foldl_cons, launchCmd, allocate]
      by_cases htor : isTor fold cmd = true
      · rw [if_pos htor, if_pos htor]
        obtain ⟨hentries, hlaunched⟩ :=
          ih (s := { s with cmdToPort := s.cmdToPort.put cmd torPort }) hport (hkeys _)
        refine ⟨hentries.trans ?_, hlaunched.trans ?_⟩
        · rw [hput]
          simp
        · simp [htor]
      · rw [if_neg htor, if_neg htor]
        by_cases hfree : s.launched.length < instances
        · rw [if_pos hfree, if_pos hfree]
          have hnext := ih
            (s := { cmdToPort := s.cmdToPort.put cmd s.currentPort, currentPort := s.currentPort + 1
                    launched := s.launched ++ [{ service := s.launched.length, cmd, port := s.currentPort }] })
            (by simp [hport, Nat.add_assoc]) (hkeys _)
          simp only [List.length_append, List.length_singleton] at hnext
          refine ⟨hnext.1.trans ?_, hnext.2.trans ?_⟩
          · rw [hput, hport]
            simp
          · simp [htor, hport]
        · rw [if_neg hfree, if_neg hfree]
          refine ih hport (hfresh.sublist ?_)
          exact List.Sublist.append (List.Sublist.refl _) (List.sublist_cons_self _ _)

theorem mem_allocate {cmds : List String} {n : Nat} {cmd : String} {port : Nat}
    (h : (cmd, port) ∈ allocate fold cmds n) :
    cmd ∈ cmds ∧ (isTor fold cmd = true ∧ port = torPort ∨ isTor fold cmd = false ∧ 11081 + n ≤ port) := by
  induction cmds generalizing n with
  | nil => cases h
  | cons other cmds ih =>
      rw [allocate] at h
      split at h
      · rename_i htor
        obtain hhead | hrest := List.mem_cons.mp h
        · obtain ⟨rfl, rfl⟩ := Prod.mk.inj hhead
          exact ⟨List.mem_cons_self, .inl ⟨htor, rfl⟩⟩
        · exact ⟨List.mem_cons_of_mem _ (ih hrest).1, (ih hrest).2⟩
      · rename_i htor
        split at h
        · obtain hhead | hrest := List.mem_cons.mp h
          · obtain ⟨rfl, rfl⟩ := Prod.mk.inj hhead
            exact ⟨List.mem_cons_self, .inr ⟨Bool.not_eq_true _ ▸ htor, Nat.le_refl _⟩⟩
          · refine ⟨List.mem_cons_of_mem _ (ih hrest).1, (ih hrest).2.imp_right fun hport => ⟨hport.1, ?_⟩⟩
            omega
        · exact ⟨List.mem_cons_of_mem _ (ih h).1, (ih h).2⟩

-- Two commands on one port are one, or both are for Tor.
theorem allocate_inj {cmds : List String} {n : Nat} {cmd other : String} {port : Nat}
    (h : (cmd, port) ∈ allocate fold cmds n) (hother : (other, port) ∈ allocate fold cmds n)
    (htor : isTor fold cmd = false) (hnot : isTor fold other = false) : cmd = other := by
  induction cmds generalizing n with
  | nil => cases h
  | cons first cmds ih =>
      rw [allocate] at h hother
      split at h
      · rename_i hfirst
        rw [if_pos hfirst] at hother
        obtain hhead | hrest := List.mem_cons.mp h
        · rw [(Prod.mk.inj hhead).1, hfirst] at htor
          cases htor
        · obtain hhead | hlast := List.mem_cons.mp hother
          · rw [(Prod.mk.inj hhead).1, hfirst] at hnot
            cases hnot
          · exact ih hrest hlast
      · rename_i hfirst
        rw [if_neg hfirst] at hother
        have hlater {c : String} (hmem : (c, 11081 + n) ∈ allocate fold cmds (n + 1)) (hc : isTor fold c = false) :
            False := by
          obtain ⟨_, ⟨hyes, _⟩ | ⟨_, hle⟩⟩ := mem_allocate hmem
          · rw [hc] at hyes
            cases hyes
          · omega
        split at h
        · rename_i hfree
          rw [if_pos hfree] at hother
          obtain hhead | hrest := List.mem_cons.mp h
          · obtain hsame | hlast := List.mem_cons.mp hother
            · rw [(Prod.mk.inj hhead).1, (Prod.mk.inj hsame).1]
            · rw [(Prod.mk.inj hhead).2] at hlast
              exact (hlater hlast hnot).elim
          · obtain hsame | hlast := List.mem_cons.mp hother
            · rw [(Prod.mk.inj hsame).2] at hrest
              exact (hlater hrest htor).elim
            · exact ih hrest hlast
        · rename_i hfull
          rw [if_neg hfull] at hother
          exact ih h hother

-- Every command gets a port exactly when there are enough instances.
theorem allocate_all_iff {cmds : List String} {n : Nat} (hnodup : cmds.Nodup) (hn : n ≤ instances) :
    (∀ cmd ∈ cmds, ∃ port, (cmd, port) ∈ allocate fold cmds n) ↔
      n + (cmds.filter fun cmd => !isTor fold cmd).length ≤ instances := by
  induction cmds generalizing n with
  | nil => exact iff_of_true nofun (by simpa using hn)
  | cons first cmds ih =>
      obtain ⟨hfirst, hrest⟩ := List.nodup_cons.mp hnodup
      have hcons {port m : Nat} : (∀ cmd ∈ first :: cmds, ∃ p, (cmd, p) ∈ (first, port) :: allocate fold cmds m) ↔
          ∀ cmd ∈ cmds, ∃ p, (cmd, p) ∈ allocate fold cmds m := by
        constructor
        · intro hall cmd hcmd
          obtain ⟨p, hp⟩ := hall cmd (List.mem_cons_of_mem _ hcmd)
          obtain hhead | htail := List.mem_cons.mp hp
          · rw [(Prod.mk.inj hhead).1] at hcmd
            exact (hfirst hcmd).elim
          · exact ⟨p, htail⟩
        · intro hall cmd hcmd
          obtain rfl | hcmd := List.mem_cons.mp hcmd
          · exact ⟨port, List.mem_cons_self⟩
          · obtain ⟨p, hp⟩ := hall cmd hcmd
            exact ⟨p, List.mem_cons_of_mem _ hp⟩
      rw [allocate]
      by_cases htor : isTor fold first = true
      · rw [if_pos htor, hcons, ih hrest hn]
        simp [htor]
      · rw [if_neg htor]
        have hlength : ((first :: cmds).filter fun cmd => !isTor fold cmd).length =
            (cmds.filter fun cmd => !isTor fold cmd).length + 1 := by
          simp [htor]
        by_cases hfree : n < instances
        · rw [if_pos hfree, hcons, ih hrest hfree, hlength]
          omega
        · rw [if_neg hfree, hlength]
          refine iff_of_false (fun hall => ?_) (by omega)
          obtain ⟨port, hport⟩ := hall first List.mem_cons_self
          exact hfirst (mem_allocate hport).1

theorem tor_mem_allocate {cmds : List String} {n : Nat} {cmd : String} (hcmd : cmd ∈ cmds)
    (htor : isTor fold cmd = true) : (cmd, torPort) ∈ allocate fold cmds n := by
  induction cmds generalizing n with
  | nil => cases hcmd
  | cons first cmds ih =>
      rw [allocate]
      obtain rfl | hrest := List.mem_cons.mp hcmd
      · rw [if_pos htor]
        exact List.mem_cons_self
      · split
        · exact List.mem_cons_of_mem _ (ih hrest)
        · split
          · exact List.mem_cons_of_mem _ (ih hrest)
          · exact ih hrest

variable {rules : LinkedMap String String}

-- What the router starts and remembers, in terms of the ports that are given out.
theorem launches_entries (rules : LinkedMap String String) :
    ((uniqueCmds rules).foldl (launchCmd fold)
        { cmdToPort := LinkedMap.empty, currentPort := 11081, launched := [] }).cmdToPort.entries =
      allocate fold (uniqueCmds rules) 0 :=
  (foldl_launchCmd rfl (uniqueCmds_nodup rules)).1

theorem intents_iff {cmd : String} {port : Nat} :
    (∃ intent ∈ (start fold rules).intents, intent.cmd = cmd ∧ intent.port = port) ↔
      (cmd, port) ∈ allocate fold (uniqueCmds rules) 0 ∧ isTor fold cmd = false := by
  have hlaunched : (start fold rules).intents.map (fun intent => (intent.cmd, intent.port)) =
      (allocate fold (uniqueCmds rules) 0).filter (fun entry => !isTor fold entry.1) :=
    (foldl_launchCmd rfl (uniqueCmds_nodup rules)).2
  have hmem : (cmd, port) ∈ (start fold rules).intents.map (fun intent => (intent.cmd, intent.port)) ↔
      ∃ intent ∈ (start fold rules).intents, intent.cmd = cmd ∧ intent.port = port := by
    simp
  rw [← hmem, hlaunched, List.mem_filter, Bool.not_eq_true']

-- What runs on a port that a command has got.
theorem runs_iff {cmd other : String} {port : Nat} (hother : (other, port) ∈ allocate fold (uniqueCmds rules) 0) :
    Runs fold (start fold rules) port cmd ↔ SameCmd fold other cmd := by
  obtain ⟨_, hport⟩ := mem_allocate hother
  rw [Runs, intents_iff]
  constructor
  · rintro (⟨hmem, hcmd⟩ | ⟨hcmd, rfl⟩)
    · obtain ⟨_, ⟨hyes, _⟩ | ⟨_, hle⟩⟩ := mem_allocate hmem
      · rw [hcmd] at hyes
        cases hyes
      · obtain ⟨_, hsame⟩ | ⟨hnot, _⟩ := hport
        · rw [hsame, torPort] at hle
          omega
        · exact .inl (allocate_inj hother hmem hnot hcmd)
    · obtain ⟨htor, _⟩ | ⟨_, hle⟩ := hport
      · exact .inr ⟨htor, hcmd⟩
      · rw [torPort] at hle
        omega
  · obtain ⟨htor, hsame⟩ | ⟨hnot, _⟩ := hport
    · rintro (rfl | ⟨_, hcmd⟩)
      · exact .inr ⟨htor, hsame⟩
      · exact .inr ⟨hcmd, hsame⟩
    · rintro (rfl | ⟨htor, _⟩)
      · exact .inl ⟨hother, hnot⟩
      · rw [htor] at hnot
        cases hnot

theorem exists_port_of_runs {cmd : String} {port : Nat} (hcmd : cmd ∈ uniqueCmds rules)
    (h : Runs fold (start fold rules) port cmd) : ∃ port, (cmd, port) ∈ allocate fold (uniqueCmds rules) 0 := by
  obtain hintent | ⟨htor, _⟩ := h
  · exact ⟨port, (intents_iff.mp hintent).1⟩
  · exact ⟨torPort, tor_mem_allocate hcmd htor⟩

-- The first rule's command comes first.
theorem uniqueCmds_head {entry : String × String} {entries : List (String × String)}
    (h : rules.entries = entry :: entries) : ∃ cmds, uniqueCmds rules = entry.2 :: cmds := by
  have hkeeps : ∀ {entries : List (String × String)} {cmds : List String},
      ∃ rest, entries.foldl (fun cmds entry => addCmd cmds entry.2) (entry.2 :: cmds) = entry.2 :: rest := by
    intro entries
    induction entries with
    | nil => exact fun {cmds} => ⟨cmds, rfl⟩
    | cons other entries ih =>
        intro cmds
        rw [List.foldl_cons, addCmd]
        split
        · exact ih
        · exact ih
  rw [uniqueCmds, h]
  exact hkeeps

theorem foldl_putDomain {cmdToPort domainToPort : LinkedMap String Nat} {portOf : String → Nat}
    {entries : List (String × String)}
    (hports : ∀ entry ∈ entries, cmdToPort.get? entry.2 = some (portOf entry.2)) :
    entries.foldl (putDomain cmdToPort) domainToPort =
      (entries.map fun entry => (entry.1, portOf entry.2)).foldl (fun map entry => map.put entry.1 entry.2)
        domainToPort := by
  induction entries generalizing domainToPort with
  | nil => rfl
  | cons entry entries ih =>
      rw [List.foldl_cons, List.map_cons, List.foldl_cons, putDomain, hports entry List.mem_cons_self]
      exact ih fun other hother => hports other (List.mem_cons_of_mem _ hother)

theorem domainToPort_entries
    (hall : ∀ cmd ∈ uniqueCmds rules, ∃ port, (cmd, port) ∈ allocate fold (uniqueCmds rules) 0) :
    ∃ portOf : String → Nat,
      (∀ entry ∈ rules.entries, (entry.2, portOf entry.2) ∈ allocate fold (uniqueCmds rules) 0) ∧
      (start fold rules).domainToPort.entries = rules.entries.map fun entry => (entry.1, portOf entry.2) := by
  let cmdToPort := ((uniqueCmds rules).foldl (launchCmd fold)
    { cmdToPort := LinkedMap.empty, currentPort := 11081, launched := [] }).cmdToPort
  let portOf : String → Nat := fun cmd => (cmdToPort.get? cmd).getD 0
  have hports : ∀ entry ∈ rules.entries, ∃ port, cmdToPort.get? entry.2 = some port ∧
      (entry.2, port) ∈ allocate fold (uniqueCmds rules) 0 := by
    intro entry hentry
    obtain ⟨port, hport⟩ := hall entry.2 (mem_uniqueCmds.mpr ⟨entry, hentry, rfl⟩)
    refine ⟨port, LinkedMap.get?_eq_some_iff.mpr ?_, hport⟩
    rw [launches_entries]
    exact hport
  refine ⟨portOf, fun entry hentry => ?_, ?_⟩
  · obtain ⟨port, hget, hport⟩ := hports entry hentry
    simp only [portOf, hget, Option.getD_some]
    exact hport
  · have hget : ∀ entry ∈ rules.entries, cmdToPort.get? entry.2 = some (portOf entry.2) := by
      intro entry hentry
      obtain ⟨port, hget, _⟩ := hports entry hentry
      simp only [portOf, hget, Option.getD_some]
    have hentries : (start fold rules).domainToPort.entries =
        (rules.entries.foldl (putDomain cmdToPort) LinkedMap.empty).entries := by
      rw [start, LinkedMap.foldl_put_empty]
    rw [hentries, foldl_putDomain hget, LinkedMap.foldl_put_entries]
    · rfl
    · rw [List.map_map]
      exact rules.nodup

-- With a port for every command, the connection goes to the port of the first rule.
theorem targetPort_of_firstRule {domain : String} {first : String × String}
    (hall : ∀ cmd ∈ uniqueCmds rules, ∃ port, (cmd, port) ∈ allocate fold (uniqueCmds rules) 0)
    (hfirst : firstRule fold rules domain = some first) :
    (first.2, targetPort fold (start fold rules) domain) ∈ allocate fold (uniqueCmds rules) 0 := by
  unfold firstRule at hfirst
  unfold targetPort
  split at hfirst
  · rename_i hdomain
    rw [if_pos hdomain]
    cases hentries : rules.entries with
    | nil =>
        rw [hentries] at hfirst
        cases hfirst
    | cons entry entries =>
        rw [hentries] at hfirst
        obtain rfl := Option.some.inj hfirst
        obtain ⟨cmds, hcmds⟩ := uniqueCmds_head hentries
        have hdefault : (start fold rules).defaultPort =
            ((allocate fold (uniqueCmds rules) 0).head?.map Prod.snd).getD 11081 := by
          rw [start, launches_entries]
        rw [hdefault, hcmds, allocate]
        split
        · exact List.mem_cons_self
        · rw [if_pos (by decide)]
          exact List.mem_cons_self
  · rename_i hdomain
    rw [if_neg hdomain]
    obtain ⟨portOf, hports, hentries⟩ := domainToPort_entries hall
    rw [hentries, List.find?_map]
    have hfound : rules.entries.find? ((fun entry => covers fold domain entry.1) ∘
        fun entry => (entry.1, portOf entry.2)) = some first := hfirst
    rw [hfound]
    exact hports first (List.mem_of_find?_eq_some hfirst)

theorem covers_self (domain : String) : covers fold domain domain = true := by
  simp [covers, equalsIgnoreCase]

theorem exists_firstRule {entry : String × String} (hentry : entry ∈ rules.entries) :
    ∃ first, firstRule fold rules entry.1 = some first := by
  unfold firstRule
  split
  · cases hentries : rules.entries with
    | nil =>
        rw [hentries] at hentry
        cases hentry
    | cons first _ => exact ⟨first, rfl⟩
  · refine Option.isSome_iff_exists.mp (List.find?_isSome.mpr ⟨entry, hentry, covers_self _⟩)

-- Every domain of the rules gets to its command exactly when there are instances for all commands
-- and the first rule for each domain has the command of its own rule.
theorem targetPort_runs_iff (fold : Char → Char) (rules : LinkedMap String String) :
    (∀ entry ∈ rules.entries,
        Runs fold (start fold rules) (targetPort fold (start fold rules) entry.1) entry.2) ↔
      (instanceCmds fold rules).length ≤ instances ∧
        ∀ entry ∈ rules.entries, ∀ first, firstRule fold rules entry.1 = some first →
          SameCmd fold first.2 entry.2 := by
  have hcount : (∀ cmd ∈ uniqueCmds rules, ∃ port, (cmd, port) ∈ allocate fold (uniqueCmds rules) 0) ↔
      0 + (instanceCmds fold rules).length ≤ instances := allocate_all_iff (uniqueCmds_nodup rules) (Nat.zero_le _)
  rw [Nat.zero_add] at hcount
  constructor
  · intro hruns
    have hall : ∀ cmd ∈ uniqueCmds rules, ∃ port, (cmd, port) ∈ allocate fold (uniqueCmds rules) 0 := by
      intro cmd hcmd
      obtain ⟨entry, hentry, rfl⟩ := mem_uniqueCmds.mp hcmd
      exact exists_port_of_runs hcmd (hruns entry hentry)
    refine ⟨hcount.mp hall, fun entry hentry first hfirst => ?_⟩
    exact (runs_iff (targetPort_of_firstRule hall hfirst)).mp (hruns entry hentry)
  · rintro ⟨hle, hsame⟩ entry hentry
    have hall := hcount.mpr hle
    obtain ⟨first, hfirst⟩ : ∃ first, firstRule fold rules entry.1 = some first := exists_firstRule hentry
    exact (runs_iff (targetPort_of_firstRule hall hfirst)).mpr (hsame entry hentry first hfirst)

-- For the combinations of a test: they all get where they should exactly when each of them has
-- instances enough and no rule in the way of another.
theorem suggestCombinations_runs_iff (fold : Char → Char) (toString : LinkedMap String String → String)
    (strategies completeStrategies : List StrategyResult) (sites : List String) (torFallback : Bool) :
    (∀ combo ∈ suggestCombinations toString strategies completeStrategies sites torFallback,
        ∀ entry ∈ combo.entries,
          Runs fold (start fold combo) (targetPort fold (start fold combo) entry.1) entry.2) ↔
      ∀ combo ∈ suggestCombinations toString strategies completeStrategies sites torFallback,
        (instanceCmds fold combo).length ≤ instances ∧
          ∀ entry ∈ combo.entries, ∀ first, firstRule fold combo entry.1 = some first →
            SameCmd fold first.2 entry.2 :=
  forall₂_congr fun combo _ => targetPort_runs_iff fold combo

-- One strategy works for a domain, another one for a domain below it.
def nested : List StrategyResult :=
  [{ command := "-d1", successCount := 1, totalRequests := 2
     siteResults := [{ site := "a.org", successCount := 1, totalCount := 1 }] },
   { command := "-s1", successCount := 1, totalRequests := 2
     siteResults := [{ site := "m.a.org", successCount := 1, totalCount := 1 }] }]

def objectText (object : LinkedMap String String) : String :=
  "\x7b" ++ ",".intercalate (object.entries.map fun entry => "\"" ++ entry.1 ++ "\":\"" ++ entry.2 ++ "\"") ++ "\x7d"

-- The rule for the upper domain comes first and takes the lower one with it.
theorem suggestCombinations_misroutes :
    ∃ combo ∈ suggestCombinations objectText nested nested ["a.org", "m.a.org"] false,
      ∃ entry ∈ combo.entries,
      ¬Runs Char.toLower (start Char.toLower combo)
        (targetPort Char.toLower (start Char.toLower combo) entry.1) entry.2 := by
  unfold Runs
  decide

end ToInet.Byedpi.ByeDpiRouter
