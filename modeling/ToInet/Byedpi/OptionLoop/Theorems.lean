import ToInet.Byedpi.OptionLoop

namespace ToInet.Byedpi.OptionLoop

open ToInet.Lib ToInet.Lib.Getopt

theorem bind_eq_ok {ε α β : Type} {x : Except ε α} {f : α → Except ε β} {b : β} :
    (x >>= f) = .ok b ↔ ∃ a, x = .ok a ∧ f a = .ok b := by
  cases x with
  | error error => simp [bind, Except.bind]
  | ok a => simp [bind, Except.bind]

theorem map_eq_ok {α β : Type} {x : Exit α} {f : α → β} {b : β} :
    x.map f = .ok b ↔ ∃ a, x = .ok a ∧ f a = b := by
  cases x with
  | error stop => simp [Except.map]
  | ok a => simp [Except.map]

theorem invalid_ne_ok {α : Type} {a : α} : (invalid : Exit α) ≠ .ok a := nofun

theorem number_eq_ok {lo hi n : Int} {optarg : Arg} :
    number lo hi optarg = .ok n ↔ strtol optarg = (n, []) ∧ lo ≤ n ∧ n ≤ hi := by
  constructor
  · intro h
    simp only [number] at h
    split at h
    · exact absurd h invalid_ne_ok
    · next hvalid =>
        obtain ⟨hlo, hhi, hend⟩ : ¬(strtol optarg).1 < lo ∧ ¬hi < (strtol optarg).1 ∧
            (strtol optarg).2 = [] := by simpa [not_or] using hvalid
        have hn : (strtol optarg).1 = n := Except.ok.inj h
        exact ⟨Prod.ext hn hend, by omega, by omega⟩
  · rintro ⟨hread, hlo, hhi⟩
    simp [number, hread, Int.not_lt.mpr hlo, Int.not_lt.mpr hhi]

theorem number_decimal {lo hi n : Int} (hlong : -2 ^ 63 ≤ n ∧ n < 2 ^ 63) (hlo : lo ≤ n) (hhi : n ≤ hi) :
    number lo hi (decimal n) = .ok n :=
  number_eq_ok.mpr ⟨strtol_decimal hlong.1 hlong.2, hlo, hhi⟩

variable {env : Environment}

theorem parseOptions_cons {params out : Params} {result : Result} {results : List Result} :
    parseOptions env params (result :: results) = .ok out ↔
      ∃ next, handle env params result = .ok next ∧ parseOptions env next results = .ok out := by
  rw [parseOptions, List.foldlM_cons, bind_eq_ok]
  rfl

@[simp] theorem parseOptions_nil {params out : Params} : parseOptions env params [] = .ok out ↔ params = out := by
  simp [parseOptions, pure, Except.pure]

theorem parseOptions_append {params out : Params} {before after : List Result} :
    parseOptions env params (before ++ after) = .ok out ↔
      ∃ next, parseOptions env params before = .ok next ∧ parseOptions env next after = .ok out := by
  rw [parseOptions, List.foldlM_append, bind_eq_ok]
  rfl

theorem parseOptions_singleton {params out : Params} {result : Result} :
    parseOptions env params [result] = .ok out ↔ handle env params result = .ok out := by
  simp [parseOptions_cons]

-- addLast changes the entries only, boundFamily one switch.
theorem addLast_frame (params : Params) :
    { addLast params with dps := params.dps, dp := params.dp } = params := by
  unfold addLast
  split <;> rfl

theorem addLast_baddr (params : Params) : (addLast params).baddr = params.baddr :=
  (congrArg Params.baddr (addLast_frame params) :)

theorem boundFamily_of_inet6 {params : Params} {addr : BitVec 128} (haddr : params.baddr = .inet6 addr) :
    boundFamily params = params := by
  simp [boundFamily, haddr]

-- The same parameters with another address to listen on.
def Params.listen (params : Params) (addr : Addr) (port : Int) : Params := { params with laddr := addr, port }

theorem bind_map {α β γ : Type} {x : Exit α} {f : α → Exit β} {f' : α → Exit γ} {g : β → γ}
    (hf : ∀ a, f' a = (f a).map g) : (x >>= f') = (x >>= f).map g := by
  cases x with
  | error stop => rfl
  | ok a => exact hf a

theorem handle_ip {params out : Params} {optarg : Option Arg} :
    handle env params (.option 'i' optarg) = .ok out ↔
      ∃ addr, env.getAddr (optarg.getD []) = some addr ∧ params.listen addr params.port = out := by
  cases haddr : env.getAddr (optarg.getD []) with
  | none => simp [handle, haddr, invalid]
  | some addr => simp [handle, haddr, Params.listen]

theorem handle_port {params out : Params} {optarg : Option Arg} :
    handle env params (.option 'p' optarg) = .ok out ↔
      ∃ port, number 1 65535 (optarg.getD []) = .ok port ∧ params.listen params.laddr port = out := by
  simp [handle, bind_eq_ok, Params.listen]

-- No other option reads the address or changes it.
theorem handle_listen (params : Params) (addr : Addr) (port : Int) {rez : Char} (optarg : Option Arg)
    (hi : rez ≠ 'i') (hp : rez ≠ 'p') :
    handle env (params.listen addr port) (.option rez optarg) =
      (handle env params (.option rez optarg)).map fun out => out.listen addr port := by
  simp only [handle]
  split
  all_goals first | rfl | exact bind_map fun _ => rfl | skip
  · exact absurd rfl hi
  · exact absurd rfl hp
  · cases env.getAddr (optarg.getD []) <;> rfl
  · split <;> rfl
  · split <;> rfl
  · have hsame : (params.listen addr port).sniChange = params.sniChange := rfl
    rw [hsame]
    cases params.sniChange.change (utfChars (optarg.getD [])) with
    | ok next => rfl
    | error error => cases error <;> rfl
  · exact bind_map fun _ => by split <;> rfl

theorem handle_frame {params out : Params} {rez : Char} {optarg : Option Arg} (hi : rez ≠ 'i') (hp : rez ≠ 'p')
    (hout : handle env params (.option rez optarg) = .ok out) :
    out.listen params.laddr params.port = out := by
  have hlisten : handle env (params.listen params.laddr params.port) (.option rez optarg) = _ :=
    handle_listen params params.laddr params.port optarg hi hp
  rw [show params.listen params.laddr params.port = params from rfl, hout] at hlisten
  exact (Except.ok.inj hlisten).symm

-- The number of an option -p.
def portNumber : Result → Option Int
  | .option 'p' optarg => some (strtol (optarg.getD [])).1
  | _ => none

theorem handle_port_eq {params out : Params} {result : Result} (hout : handle env params result = .ok out) :
    out.port = (portNumber result).getD params.port := by
  cases result with
  | unknown => exact absurd hout invalid_ne_ok
  | option rez optarg =>
      by_cases hp : rez = 'p'
      · subst hp
        obtain ⟨port, hport, rfl⟩ := handle_port.mp hout
        simp [Params.listen, portNumber, (number_eq_ok.mp hport).1]
      · have hnone : portNumber (.option rez optarg) = none := by
          unfold portNumber
          split
          · next heq => exact absurd (Result.option.inj heq).1 hp
          · rfl
        rw [hnone, Option.getD_none]
        by_cases hi : rez = 'i'
        · subst hi
          obtain ⟨addr, -, rfl⟩ := handle_ip.mp hout
          rfl
        · exact (congrArg Params.port (handle_frame hi hp hout)).symm

-- The last of the ports counts.
theorem parseOptions_port {params out : Params} {results : List Result}
    (hout : parseOptions env params results = .ok out) :
    out.port = (results.filterMap portNumber).getLast?.getD params.port := by
  induction results generalizing params with
  | nil =>
      obtain rfl := parseOptions_nil.mp hout
      rfl
  | cons result results ih =>
      obtain ⟨next, hnext, hrest⟩ := parseOptions_cons.mp hout
      rw [ih hrest, handle_port_eq hnext, List.filterMap_cons]
      cases portNumber result with
      | none => rfl
      | some port =>
          cases hports : (results.filterMap portNumber).getLast? with
          | none => simp [List.getLast?_eq_none_iff.mp hports]
          | some last => simp [List.getLast?_cons, hports]

theorem main_port {fakeTls : Bytes} {argv : List Arg} {params : Params}
    (hmain : main env fakeTls argv = .ok params) :
    params.port = ((getopt spec argv.tail).filterMap portNumber).getLast?.getD 1080 := by
  obtain ⟨out, hout, rfl⟩ := map_eq_ok.mp hmain
  have hbound : (boundFamily (addLast out)).port = (addLast out).port := by
    unfold boundFamily
    split <;> rfl
  rw [hbound, show (addLast out).port = out.port from (congrArg Params.port (addLast_frame out) :),
    parseOptions_port hout]
  rfl

theorem not_unknown {params out : Params} {results : List Result}
    (hout : parseOptions env params results = .ok out) : .unknown ∉ results := by
  induction results generalizing params with
  | nil => simp
  | cons result results ih =>
      obtain ⟨next, hnext, hrest⟩ := parseOptions_cons.mp hout
      rw [List.mem_cons, not_or]
      refine ⟨?_, ih hrest⟩
      rintro rfl
      exact invalid_ne_ok hnext

-- The options of a vector that is accepted come to an end, or to "--".
theorem main_options {fakeTls : Bytes} {argv : List Arg} {params : Params}
    (hmain : main env fakeTls argv = .ok params) :
    ∃ out, parseOptions env (defaultParams fakeTls) (readArgs spec .ready argv.tail).2 = .ok out ∧
      boundFamily (addLast out) = params ∧
      ((readArgs spec .ready argv.tail).1 = .ready ∨ (readArgs spec .ready argv.tail).1 = .ended) := by
  obtain ⟨out, hout, rfl⟩ := map_eq_ok.mp hmain
  have hknown := not_unknown hout
  obtain ⟨next, hnext, hfinish⟩ := parseOptions_append.mp hout
  cases hstate : (readArgs spec .ready argv.tail).1 with
  | pending val => exact absurd (by simp [getopt, hstate, finish]) hknown
  | failed =>
      have hmem : .unknown ∈ (readArgs spec .ready argv.tail).2 := unknown_of_readArgs_failed (by nofun) hstate
      exact absurd (List.mem_append_left _ hmem) hknown
  | ready =>
      rw [hstate] at hfinish
      obtain rfl := parseOptions_nil.mp hfinish
      exact ⟨next, hnext, rfl, .inl rfl⟩
  | ended =>
      rw [hstate] at hfinish
      obtain rfl := parseOptions_nil.mp hfinish
      exact ⟨next, hnext, rfl, .inr rfl⟩

theorem addLast_listen (params : Params) (addr : Addr) (port : Int) :
    boundFamily (addLast (params.listen addr port)) = (boundFamily (addLast params)).listen addr port := by
  have hlast : addLast (params.listen addr port) = (addLast params).listen addr port := by
    unfold addLast
    split <;> simp_all [Params.listen]
  rw [hlast]
  unfold boundFamily
  cases hbaddr : (addLast params).baddr <;> simp [Params.listen, hbaddr]

end ToInet.Byedpi.OptionLoop
