import ToInet.Byedpi.ByeDpiInstanceService
import ToInet.Byedpi.OptionLoop.Theorems

namespace ToInet.Byedpi.ByeDpiInstanceService

open ToInet.Lib ToInet.Lib.Getopt ToInet.Byedpi.OptionLoop

variable {env : Environment}

-- An option -p or -i, wherever it comes from.
def IsAddressOption (val : Char) : Prop := val = 'p' ∨ val = 'i'

theorem exists_listen {params out : Params} {val : Char} {optarg : Option Arg} (hval : IsAddressOption val)
    (hout : handle env params (.option val optarg) = .ok out) : ∃ addr port, params.listen addr port = out := by
  obtain rfl | rfl := hval
  · obtain ⟨port, -, heq⟩ := handle_port.mp hout
    exact ⟨_, _, heq⟩
  · obtain ⟨addr, -, heq⟩ := handle_ip.mp hout
    exact ⟨_, _, heq⟩

-- The address that one starts with makes a difference for the address only.
theorem handle_from_listen {params out : Params} {result : Result} (hout : handle env params result = .ok out)
    (addr : Addr) (port : Int) :
    ∃ addr' port', handle env (params.listen addr port) result = .ok (out.listen addr' port') := by
  cases result with
  | unknown => exact absurd hout invalid_ne_ok
  | option val optarg =>
      by_cases hi : val = 'i'
      · subst hi
        obtain ⟨found, hfound, rfl⟩ := handle_ip.mp hout
        exact ⟨found, port, handle_ip.mpr ⟨found, hfound, rfl⟩⟩
      · by_cases hp : val = 'p'
        · subst hp
          obtain ⟨found, hfound, rfl⟩ := handle_port.mp hout
          exact ⟨addr, found, handle_port.mpr ⟨found, hfound, rfl⟩⟩
        · refine ⟨addr, port, ?_⟩
          rw [handle_listen params addr port optarg hi hp, hout]
          rfl

theorem readArg_skipsNext {arg : Arg} (hskip : skipsNext arg = true) :
    ∃ val, IsAddressOption val ∧ readArg spec .ready arg = (.pending val, []) := by
  obtain rfl | rfl : arg = ['-', 'p'] ∨ arg = ['-', 'i'] := of_decide_eq_true hskip
  · exact ⟨'p', .inl rfl, rfl⟩
  · exact ⟨'i', .inr rfl, rfl⟩

theorem readArg_isDropped {arg : Arg} (hskip : skipsNext arg = false) (hdrop : isDropped arg = true) :
    ∃ val optarg, IsAddressOption val ∧ readArg spec .ready arg = (.ready, [.option val optarg]) := by
  have hne : ¬(arg = ['-', 'p'] ∨ arg = ['-', 'i']) := of_decide_eq_false hskip
  obtain ⟨text, rfl⟩ | ⟨text, rfl⟩ | ⟨text, rfl⟩ | ⟨text, rfl⟩ := of_decide_eq_true hdrop
  · cases text with
    | nil => exact absurd (.inl rfl) hne
    | cons c text => exact ⟨'p', some (c :: text), .inl rfl, rfl⟩
  · exact ⟨'p', some text, .inl rfl, rfl⟩
  · cases text with
    | nil => exact absurd (.inr rfl) hne
    | cons c text => exact ⟨'i', some (c :: text), .inr rfl, rfl⟩
  · exact ⟨'i', some text, .inr rfl, rfl⟩

-- Options for the address are left out.
inductive Erases : List Result → List Result → Prop where
  | nil : Erases [] []
  | keep {results kept : List Result} (result : Result) (hrest : Erases results kept) :
      Erases (result :: results) (result :: kept)
  | drop {results kept : List Result} {val : Char} (optarg : Option Arg) (hval : IsAddressOption val)
      (hrest : Erases results kept) : Erases (.option val optarg :: results) kept

theorem Erases.append {results kept : List Result} (before : List Result) (hrest : Erases results kept) :
    Erases (before ++ results) (before ++ kept) := by
  induction before with
  | nil => exact hrest
  | cons result before ih => exact .keep result ih

theorem parseOptions_erases {results kept : List Result} (herases : Erases results kept) {params out : Params}
    (hout : parseOptions env params results = .ok out) (addr : Addr) (port : Int) :
    ∃ addr' port', parseOptions env (params.listen addr port) kept = .ok (out.listen addr' port') := by
  induction herases generalizing params addr port with
  | nil =>
      obtain rfl := parseOptions_nil.mp hout
      exact ⟨addr, port, parseOptions_nil.mpr rfl⟩
  | keep result _ ih =>
      obtain ⟨next, hnext, hrest⟩ := parseOptions_cons.mp hout
      obtain ⟨addr', port', hnext'⟩ := handle_from_listen hnext addr port
      obtain ⟨addr'', port'', hrest'⟩ := ih hrest addr' port'
      exact ⟨addr'', port'', parseOptions_cons.mpr ⟨_, hnext', hrest'⟩⟩
  | drop optarg hval _ ih =>
      obtain ⟨next, hnext, hrest⟩ := parseOptions_cons.mp hout
      obtain ⟨found, number, rfl⟩ := exists_listen hval hnext
      exact ih hrest addr port

-- Where getopt_long stands with what the filter keeps: the option that is pending has been dropped.
def keptState (skip : Bool) (state : State) : State := if skip then .ready else state

-- The filter alongside getopt_long: what is dropped are whole options for the address.
theorem readArgs_keptArgs {state : State} {skip : Bool} {args : List Arg}
    (hdrops : dropsOptions state skip args = true)
    (hskip : skip = true → ∃ val, IsAddressOption val ∧ state = .pending val) :
    Erases (readArgs spec state args).2 (readArgs spec (keptState skip state) (keptArgs skip args)).2 ∧
      ((readArgs spec (keptState skip state) (keptArgs skip args)).1 = (readArgs spec state args).1 ∨
        ∃ val, (readArgs spec state args).1 = .pending val) := by
  induction args generalizing state skip with
  | nil =>
      cases skip with
      | false => exact ⟨.nil, .inl rfl⟩
      | true =>
          obtain ⟨val, -, hstate⟩ := hskip rfl
          exact ⟨.nil, .inr ⟨val, hstate⟩⟩
  | cons arg args ih =>
      cases skip with
      | true =>
          -- The value of an option that has been dropped.
          obtain ⟨val, hval, rfl⟩ := hskip rfl
          have hrest : dropsOptions .ready false args = true := hdrops
          obtain ⟨herases, hstate⟩ := ih hrest (by nofun)
          exact ⟨.drop (some arg) hval herases, hstate⟩
      | false =>
          obtain ⟨hready, hrest⟩ := Bool.and_eq_true_iff.mp hdrops
          cases hskips : skipsNext arg with
          | true =>
              have hdropped : isDropped arg = true := by
                obtain rfl | rfl : arg = ['-', 'p'] ∨ arg = ['-', 'i'] := of_decide_eq_true hskips <;> rfl
              obtain rfl : state = .ready := by simpa [hdropped] using hready
              obtain ⟨val, hval, hread⟩ := readArg_skipsNext hskips
              rw [hread, hskips] at hrest
              have hkept : keptArgs false (arg :: args) = keptArgs true args := by rw [keptArgs, if_pos hskips]
              rw [hkept, readArgs, hread]
              exact ih hrest fun _ => ⟨val, hval, rfl⟩
          | false =>
              rw [hskips] at hrest
              cases hdropped : isDropped arg with
              | true =>
                  obtain rfl : state = .ready := by simpa [hdropped] using hready
                  obtain ⟨val, optarg, hval, hread⟩ := readArg_isDropped hskips hdropped
                  rw [hread] at hrest
                  obtain ⟨herases, hstate⟩ := ih hrest (by nofun)
                  have hkept : keptArgs false (arg :: args) = keptArgs false args := by
                    rw [keptArgs, if_neg (by simp [hskips]), if_pos hdropped]
                  rw [hkept, readArgs, hread]
                  exact ⟨.drop optarg hval herases, hstate⟩
              | false =>
                  obtain ⟨herases, hstate⟩ := ih hrest (by nofun)
                  have hkept : keptArgs false (arg :: args) = arg :: keptArgs false args := by
                    rw [keptArgs, if_neg (by simp [hskips]), if_neg (by simp [hdropped])]
                  rw [hkept, readArgs, readArgs]
                  exact ⟨herases.append _, hstate⟩

-- The options that the filter adds at the end.
def addressArgs (port : Int32) : List Arg := [['-', 'i'], "127.0.0.1".toList] ++ [['-', 'p'], decimal port.toInt]

def addressOptions (port : Int32) : List Result :=
  [.option 'i' (some "127.0.0.1".toList), .option 'p' (some (decimal port.toInt))]

theorem readArgs_addressArgs (port : Int32) :
    readArgs spec .ready (addressArgs port) = (.ready, addressOptions port) := by
  have hi : readArgs spec .ready [['-', 'i'], "127.0.0.1".toList] = _ :=
    readArgs_required (by decide) (by decide) "127.0.0.1".toList
  have hp : readArgs spec .ready [['-', 'p'], decimal port.toInt] = _ :=
    readArgs_required (by decide) (by decide) (decimal port.toInt)
  rw [addressArgs, readArgs_append, hi, hp]
  rfl

theorem tail_newArgs (openProxyOnAllInterfaces : Bool) (cmd : List Char) (port : Int32) :
    (newArgs (.ofCmd openProxyOnAllInterfaces cmd) port).tail =
      keptArgs false (ByeDpiProxyCmdPreferences.ofCmd openProxyOnAllInterfaces cmd).args.tail ++
        addressArgs port := by
  have hkept (args : List Arg) :
      keptArgs false ("ciadpi".toList :: args) = "ciadpi".toList :: keptArgs false args := by
    rw [keptArgs, if_neg (by decide), if_neg (by decide)]
  rw [newArgs, ByeDpiProxyCmdPreferences.ofCmd, cmdToArgs]
  simp only [hkept, List.append_assoc, List.cons_append, List.tail_cons, addressArgs]

theorem parseOptions_addressOptions (hlocal : env.getAddr "127.0.0.1".toList = some loopback) {port : Int32}
    (hlo : 1 ≤ port.toInt) (hhi : port.toInt ≤ 65535) (params : Params) :
    parseOptions env params (addressOptions port) = .ok (params.listen loopback port.toInt) := by
  have hport : number 1 65535 (decimal port.toInt) = .ok port.toInt := number_decimal (by omega) hlo hhi
  rw [addressOptions, parseOptions_cons]
  refine ⟨params.listen loopback params.port, handle_ip.mpr ⟨loopback, hlocal, rfl⟩, ?_⟩
  exact parseOptions_singleton.mpr (handle_port.mpr ⟨port.toInt, hport, rfl⟩)

-- The instance gets the parameters of the command with its own address, on every port, exactly
-- when no "--" hides the address from getopt_long.
theorem main_newArgs_iff (env : Environment) (hlocal : env.getAddr "127.0.0.1".toList = some loopback)
    (fakeTls : Bytes) (openProxyOnAllInterfaces : Bool) (cmd : List Char) (params : Params)
    (hmain : main env fakeTls (ByeDpiProxyCmdPreferences.ofCmd openProxyOnAllInterfaces cmd).args = .ok params)
    (hdrops : dropsOptions .ready false
      (ByeDpiProxyCmdPreferences.ofCmd openProxyOnAllInterfaces cmd).args.tail = true) :
    (∀ port : Int32, 1 ≤ port.toInt → port.toInt ≤ 65535 →
        main env fakeTls (newArgs (.ofCmd openProxyOnAllInterfaces cmd) port) =
          .ok { params with laddr := loopback, port := port.toInt }) ↔
      isEnded (ByeDpiProxyCmdPreferences.ofCmd openProxyOnAllInterfaces cmd).args = false := by
  obtain ⟨herases, hstate⟩ := readArgs_keptArgs hdrops (by nofun)
  obtain ⟨out, hout, rfl, hend⟩ := main_options hmain
  have hnew (port : Int32) := tail_newArgs openProxyOnAllInterfaces cmd port
  generalize hargs : (ByeDpiProxyCmdPreferences.ofCmd openProxyOnAllInterfaces cmd).args.tail = args at *
  have hkept : (readArgs spec .ready (keptArgs false args)).1 = (readArgs spec .ready args).1 := by
    obtain hsame | ⟨val, hpending⟩ := hstate
    · exact hsame
    · rw [hpending] at hend
      exact absurd hend (by simp)
  have hgetopt (port : Int32) : getopt spec (newArgs (.ofCmd openProxyOnAllInterfaces cmd) port).tail =
      (readArgs spec .ready (keptArgs false args)).2 ++
        ((readArgs spec (readArgs spec .ready args).1 (addressArgs port)).2 ++
          finish (readArgs spec (readArgs spec .ready args).1 (addressArgs port)).1) := by
    rw [hnew, getopt, readArgs_append, hkept, List.append_assoc]
  have hisEnded : isEnded (ByeDpiProxyCmdPreferences.ofCmd openProxyOnAllInterfaces cmd).args =
      decide ((readArgs spec .ready args).1 = .ended) := by rw [isEnded, hargs]
  constructor
  · intro hall
    by_contra hne
    have hended : (readArgs spec .ready args).1 = .ended := by simpa [hisEnded] using hne
    -- The address is not read, so that two ports give the same parameters.
    have hsame : main env fakeTls (newArgs (.ofCmd openProxyOnAllInterfaces cmd) 1) =
        main env fakeTls (newArgs (.ofCmd openProxyOnAllInterfaces cmd) 2) := by
      simp only [main, hgetopt, hended, readArgs_ended]
    rw [hall 1 (by decide) (by decide), hall 2 (by decide) (by decide)] at hsame
    have hports : (1 : Int32).toInt = (2 : Int32).toInt := congrArg Params.port (Except.ok.inj hsame)
    exact absurd hports (by decide)
  · intro hended port hlo hhi
    have hready : (readArgs spec .ready args).1 = .ready :=
      hend.resolve_right (by simpa [hisEnded] using hended)
    obtain ⟨addr, number, hrest⟩ := parseOptions_erases herases hout (defaultParams fakeTls).laddr
      (defaultParams fakeTls).port
    have haddress := parseOptions_addressOptions hlocal hlo hhi (out.listen addr number)
    have hparse : parseOptions env (defaultParams fakeTls)
        ((readArgs spec .ready (keptArgs false args)).2 ++ addressOptions port) =
        .ok (out.listen loopback port.toInt) := parseOptions_append.mpr ⟨_, hrest, haddress⟩
    rw [main, hgetopt, hready, readArgs_addressArgs, show finish (State.ready, addressOptions port).1 = [] from rfl,
      List.append_nil, hparse]
    exact congrArg Except.ok (addLast_listen out loopback port.toInt)

theorem main_newArgs_plain :
    ∃ params, main loopbackOnly [] (ByeDpiProxyCmdPreferences.ofCmd false "-p 1081 -Kt -d1".toList).args =
        .ok params ∧
      ∀ port : Int32, 1 ≤ port.toInt → port.toInt ≤ 65535 →
        main loopbackOnly [] (newArgs (.ofCmd false "-p 1081 -Kt -d1".toList) port) =
          .ok { params with laddr := loopback, port := port.toInt } :=
  ⟨_, rfl, (main_newArgs_iff loopbackOnly rfl [] false "-p 1081 -Kt -d1".toList _ rfl (by decide)).mpr (by decide)⟩

-- The path of a socket that looks like an option: it goes, and its option takes -i for its value.
theorem main_newArgs_wrong :
    ∃ params, main loopbackOnly [] (ByeDpiProxyCmdPreferences.ofCmd false "-d1 -P -protect".toList).args =
        .ok params ∧
      main loopbackOnly [] (newArgs (.ofCmd false "-d1 -P -protect".toList) 11081) ≠
        .ok { params with laddr := loopback, port := (11081 : Int32).toInt } :=
  ⟨_, rfl, by decide⟩

end ToInet.Byedpi.ByeDpiInstanceService
