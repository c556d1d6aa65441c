import ToInet.Byedpi.ByeDpiProxyPreferences.ToCmdArgs

namespace ToInet.Byedpi.ByeDpiProxyUIPreferences

open ToInet.Lib ToInet.Lib.Getopt ToInet.Byedpi.OptionLoop

variable {env : Environment} {prefs : ByeDpiProxyUIPreferences} {params out : Params}

theorem parseOptions_ite (c : Prop) [Decidable c] {results : List Result} :
    parseOptions env params (if c then results else []) = .ok out ↔
      if c then parseOptions env params results = .ok out else params = out := by
  split
  · rfl
  · exact parseOptions_nil

theorem long_toInt (n : Int32) : -2 ^ 63 ≤ n.toInt ∧ n.toInt < 2 ^ 63 := by
  have hlo := n.le_toInt
  have hhi := n.toInt_lt
  omega

theorem parse_ip : parseOptions env params [.option 'i' (some prefs.ip)] = .ok out ↔
    ∃ addr, env.getAddr prefs.ip = some addr ∧ { params with laddr := addr } = out := by
  rw [parseOptions_singleton]
  cases haddr : env.getAddr prefs.ip with
  | none => simp [handle, haddr, invalid]
  | some addr => simp [handle, haddr]

theorem parse_port (hrange : InRange prefs) :
    parseOptions env params [.option 'p' (some (decimal prefs.port.toInt))] = .ok out ↔
      { params with port := prefs.port.toInt } = out := by
  have hnum := number_decimal (long_toInt prefs.port) hrange.port.1 hrange.port.2
  simp [parseOptions_singleton, handle, hnum, bind, Except.bind]

theorem parse_maxConnections (hrange : InRange prefs) :
    parseOptions env params [.option 'c' (some (decimal prefs.maxConnections.toInt))] = .ok out ↔
      { params with maxOpen := prefs.maxConnections.toInt } = out := by
  have hnum := number_decimal (long_toInt prefs.maxConnections) hrange.maxConnections.1 hrange.maxConnections.2
  simp only [parseOptions_singleton, handle, Option.getD_some, hnum, bind, Except.bind, Except.ok.injEq]

theorem parse_bufferSize (hrange : InRange prefs) :
    parseOptions env params [.option 'b' (some (decimal prefs.bufferSize.toInt))] = .ok out ↔
      { params with bfsize := prefs.bufferSize.toInt } = out := by
  have hnum := number_decimal (long_toInt prefs.bufferSize) hrange.bufferSize.1 hrange.bufferSize.2
  simp only [parseOptions_singleton, handle, Option.getD_some, hnum, bind, Except.bind, Except.ok.injEq]

theorem parse_defaultTtl (hrange : InRange prefs) :
    parseOptions env params
        (if prefs.customTtl then [.option 'g' (some (decimal prefs.defaultTtl.toInt))] else []) = .ok out ↔
      { params with
        defTtl := if prefs.customTtl then prefs.defaultTtl.toInt else params.defTtl
        customTtl := params.customTtl || prefs.customTtl } = out := by
  rw [parseOptions_ite]
  cases hcustom : prefs.customTtl with
  | false => simp
  | true =>
      have hnum := number_decimal (long_toInt prefs.defaultTtl) (hrange.defaultTtl hcustom).1
        (hrange.defaultTtl hcustom).2
      simp [parseOptions_singleton, handle, hnum, bind, Except.bind]

theorem parse_noDomain : parseOptions env params (if prefs.noDomain then [.option 'N' none] else []) = .ok out ↔
    { params with resolve := params.resolve && !prefs.noDomain } = out := by
  rw [parseOptions_ite]
  cases prefs.noDomain <;> simp [parseOptions_singleton, handle]

theorem parse_tcpFastOpen :
    parseOptions env params (if prefs.tcpFastOpen then [.option 'F' none] else []) = .ok out ↔
      { params with tfo := params.tfo || prefs.tcpFastOpen } = out := by
  rw [parseOptions_ite]
  cases prefs.tcpFastOpen <;> simp [parseOptions_singleton, handle]

theorem parse_dropSack : parseOptions env params (if prefs.dropSack then [.option 'Y' none] else []) = .ok out ↔
    { params with dp := { params.dp with dropSack := params.dp.dropSack || prefs.dropSack } } = out := by
  rw [parseOptions_ite]
  cases prefs.dropSack <;> simp [parseOptions_singleton, handle, handleDp, bind, Except.bind]

-- What a list without a comma stands for.
def firstBit (bit : Char → Option Nat) (text : List Char) : Nat := (text.head? >>= bit).getD 0

theorem letters_eq {bit : Char → Option Nat} {text : List Char} (start : Nat) (htext : text ≠ [])
    (hbit : ∀ c ∈ text, (bit c).isSome) (hcomma : ',' ∉ text) :
    OptionLoop.letters bit start text = .ok (start ||| firstBit bit text) := by
  cases text with
  | nil => exact absurd rfl htext
  | cons c text =>
      obtain ⟨value, hvalue⟩ := Option.isSome_iff_exists.mp (hbit c List.mem_cons_self)
      rw [OptionLoop.letters, List.splitOn_eq_singleton hcomma]
      simp [firstBit, hvalue, bind, Except.bind, pure, Except.pure]

theorem mem_letters {switches : List (Bool × Char)} {c : Char} (hc : c ∈ letters switches) :
    c ∈ switches.map Prod.snd := by
  obtain ⟨⟨on, letter⟩, hmem, hletter⟩ := List.mem_filterMap.mp hc
  cases on with
  | false => exact absurd hletter (by simp)
  | true => exact List.mem_map.mpr ⟨_, hmem, Option.some.inj hletter⟩

-- The letters of switches that are on, where each letter has a bit.
theorem letters_switches {bit : Char → Option Nat} {switches : List (Bool × Char)} (start : Nat)
    (hbit : ∀ c ∈ switches.map Prod.snd, (bit c).isSome ∧ ',' ≠ c) (hne : letters switches ≠ []) :
    OptionLoop.letters bit start (letters switches) = .ok (start ||| firstBit bit (letters switches)) :=
  letters_eq start hne (fun c hc => (hbit c (mem_letters hc)).1) fun hc => (hbit _ (mem_letters hc)).2 rfl

theorem parse_proto :
    parseOptions env params (if protoLetters prefs ≠ [] then [.option 'K' (some (protoLetters prefs))] else []) =
        .ok out ↔
      { params with
        dp := { params.dp with proto := params.dp.proto ||| firstBit protoBit (protoLetters prefs) } } = out := by
  rw [parseOptions_ite]
  split
  · next hne =>
      have hletters : OptionLoop.letters protoBit params.dp.proto (protoLetters prefs) =
          .ok (params.dp.proto ||| firstBit protoBit (protoLetters prefs)) :=
        letters_switches params.dp.proto (by simp [protoBit]) hne
      simp [parseOptions_singleton, handle, handleDp, hletters, bind, Except.bind]
  · next hnil => simp [not_not.mp hnil, firstBit]

theorem parse_modHttp :
    parseOptions env params
        (if modHttpLetters prefs ≠ [] then [.option 'M' (some (modHttpLetters prefs))] else []) = .ok out ↔
      { params with
        dp := { params.dp with modHttp := params.dp.modHttp ||| firstBit modHttpBit (modHttpLetters prefs) } } =
        out := by
  rw [parseOptions_ite]
  split
  · next hne =>
      have hletters : OptionLoop.letters modHttpBit params.dp.modHttp (modHttpLetters prefs) =
          .ok (params.dp.modHttp ||| firstBit modHttpBit (modHttpLetters prefs)) :=
        letters_switches params.dp.modHttp (by simp [modHttpBit]) hne
      simp [parseOptions_singleton, handle, handleDp, hletters, bind, Except.bind]
  · next hnil => simp [not_not.mp hnil, firstBit]

-- The hosts never come through: the list that is handed over is empty.
theorem parse_hosts (hhosts : params.dp.hosts = none) :
    parseOptions env params (if prefs.hostsMode ≠ .disable ∧ ¬prefs.hosts.all isBlank then
        [.option (if prefs.hostsMode = .whitelist then 'V' else 'H') (some [':'])] else []) = .ok out ↔
      prefs.hostsMode = .disable ∧ params = out := by
  rw [parseOptions_ite]
  by_cases hmode : prefs.hostsMode = .disable
  · simp [hmode]
  · obtain ⟨text, htext, hblank⟩ := prefs.hosts_enabled hmode
    have hports : ports [':'] = invalid := by decide
    have hftob : ftob env [':'] = none := by simp [ftob, dataFromStr, utfChars, parseCform]
    have hinvalid : handle env params (.option (if prefs.hostsMode = .whitelist then 'V' else 'H') (some [':'])) =
        invalid := by
      split
      · simp only [handle, handleDp, Option.getD_some, hports]
        rfl
      · simp only [handle, handleDp, Option.getD_some, hhosts, hftob]
        rfl
    simp [hmode, htext, hblank, parseOptions_singleton, hinvalid, invalid]

-- A position behind its mark is not read.
theorem parseOffset_position (atSni : Bool) (pos : Int32) :
    parseOffset (position atSni pos) = .ok (offset atSni, if atSni then 0 else pos.toInt) := by
  cases atSni with
  | false =>
      have hlong := long_toInt pos
      simp [parseOffset, position, strtol_decimal hlong.1 hlong.2, offset]
  | true =>
      have hread : strtol ('+' :: 's' :: decimal pos.toInt) = (0, '+' :: 's' :: decimal pos.toInt) := by
        simp [strtol, isSpace, takeSign, takeBase, takeDigits, digitVal]
      simp [parseOffset, position, hread, offset]

-- The parts, as they are read.
def methodParts (prefs : ByeDpiProxyUIPreferences) : List Part :=
  if prefs.desyncMethod = .none then []
  else
    [{ m := demode prefs.desyncMethod, flag := offset prefs.splitAtHost
       pos := if prefs.splitAtHost then 0 else prefs.splitPosition.toInt }]

theorem parse_method :
    parseOptions env params (if methodArg prefs.desyncMethod ≠ [] then
        [.option (methodLetter prefs.desyncMethod) (some (position prefs.splitAtHost prefs.splitPosition))] else []) =
        .ok out ↔
      { params with dp := { params.dp with parts := params.dp.parts ++ methodParts prefs } } = out := by
  rw [parseOptions_ite]
  cases hmethod : prefs.desyncMethod with
  | none => simp [methodArg, methodParts, hmethod]
  | _ =>
      simp [methodArg, methodLetter, methodParts, hmethod, demode, parseOptions_singleton, handle, handleDp, addPart,
        parseOffset_position, bind, Except.bind]

def tlsrecParts (prefs : ByeDpiProxyUIPreferences) : List Part :=
  if prefs.tlsRecordSplit then
    [{ m := .none, flag := offset prefs.tlsRecordSplitAtSni
       pos := if prefs.tlsRecordSplitAtSni then 0 else prefs.tlsRecordSplitPosition.toInt }]
  else []

theorem parse_tlsRecordSplit (hrange : InRange prefs) :
    parseOptions env params (if prefs.tlsRecordSplit then
        [.option 'r' (some (position prefs.tlsRecordSplitAtSni prefs.tlsRecordSplitPosition))] else []) = .ok out ↔
      { params with dp := { params.dp with tlsrec := params.dp.tlsrec ++ tlsrecParts prefs } } = out := by
  rw [parseOptions_ite]
  cases hsplit : prefs.tlsRecordSplit with
  | false => simp [tlsrecParts, hsplit]
  | true =>
      have hle : ¬65535 < (if prefs.tlsRecordSplitAtSni then 0 else prefs.tlsRecordSplitPosition.toInt) := by
        have hpos := hrange.tlsRecordSplitPosition hsplit
        split <;> omega
      simp [tlsrecParts, hsplit, parseOptions_singleton, handle, handleDp, addTlsrec, parseOffset_position, hle, bind,
        Except.bind]

theorem parse_fakeOffset :
    parseOptions env params
        (if 0 < prefs.fakeOffset.toInt then [.option 'O' (some (decimal prefs.fakeOffset.toInt))] else []) =
        .ok out ↔
      { params with
        dp := { params.dp with
          fakeOffset := if 0 < prefs.fakeOffset.toInt then prefs.fakeOffset.toInt else params.dp.fakeOffset } } =
        out := by
  rw [parseOptions_ite]
  split
  · next hpos =>
      have hlong := long_toInt prefs.fakeOffset
      have hnum : number 1 (2 ^ 63 - 1) (decimal prefs.fakeOffset.toInt) = .ok prefs.fakeOffset.toInt :=
        number_decimal hlong (by omega) (by omega)
      have hint : toInt32 prefs.fakeOffset.toInt = prefs.fakeOffset.toInt :=
        toInt32_of_fits _ ⟨prefs.fakeOffset.le_toInt, prefs.fakeOffset.toInt_lt⟩
      have hhandle : handle env params (.option 'O' (some (decimal prefs.fakeOffset.toInt))) =
          .ok { params with dp := { params.dp with fakeOffset := prefs.fakeOffset.toInt } } := by
        change ((number 1 (2 ^ 63 - 1) (decimal prefs.fakeOffset.toInt) >>= _) >>= _) = _
        rw [hnum]
        simp only [bind, Except.bind, hint]
      rw [parseOptions_singleton, hhandle, Except.ok.injEq]
  · rfl

-- What becomes of the fake ClientHello.
def SniChanged (prefs : ByeDpiProxyUIPreferences) (before after : Packets.SniChange) : Prop :=
  if prefs.desyncMethod = .fake then before.change (utfChars prefs.fakeSni) = .ok after
  else before = after

theorem parse_fake (hrange : InRange prefs) :
    parseOptions env params (if prefs.desyncMethod = .fake then
        [.option 't' (some (decimal prefs.fakeTtl.toInt))] ++ [.option 'n' (some prefs.fakeSni)] ++
          (if 0 < prefs.fakeOffset.toInt then [.option 'O' (some (decimal prefs.fakeOffset.toInt))] else [])
        else []) = .ok out ↔
      ∃ sni, SniChanged prefs params.sniChange sni ∧
        { params.withSni sni with
          dp := { params.dp with
            ttl := if prefs.desyncMethod = .fake then prefs.fakeTtl.toInt else params.dp.ttl
            fakeOffset := if prefs.desyncMethod = .fake ∧ 0 < prefs.fakeOffset.toInt then prefs.fakeOffset.toInt
              else params.dp.fakeOffset } } = out := by
  rw [parseOptions_ite]
  by_cases hfake : prefs.desyncMethod = .fake
  · have hnum := number_decimal (long_toInt prefs.fakeTtl) (hrange.fakeTtl hfake).1 (hrange.fakeTtl hfake).2
    simp only [hfake, SniChanged, if_true, true_and, parseOptions_append, parse_fakeOffset, parseOptions_singleton]
    have hsame (dp : DesyncParams) : Params.sniChange { params with dp } = params.sniChange := rfl
    cases hsni : params.sniChange.change (utfChars prefs.fakeSni) with
    | error error => cases error <;> simp [handle, handleDp, hnum, hsame, hsni, bind, Except.bind, invalid]
    | ok sni => simp [handle, handleDp, hnum, hsame, hsni, bind, Except.bind, Params.withSni]
  · simp [hfake, SniChanged, Params.withSni, Params.sniChange]

-- What is read of the text of a byte: one above 127 has become a character of three bytes.
def oobRead (oobChar : Int8) : UInt8 :=
  if 0 < oobChar then oobChar.toUInt8 else if oobChar = 0 then 0xC0 else 0xEF

theorem parseCform_oobText (oobChar : Int8) :
    parseCform 1 0 (utfChars (oobText oobChar)) = if oobChar = 92 then [] else [oobRead oobChar] := by
  obtain ⟨⟨⟨n⟩⟩⟩ := oobChar
  revert n
  decide +kernel

theorem oobRead_eq_iff (oobChar : Int8) : oobRead oobChar = oobChar.toUInt8 ↔ oobChar = -17 ∨ 0 < oobChar := by
  obtain ⟨⟨⟨n⟩⟩⟩ := oobChar
  revert n
  decide +kernel

theorem parse_oobChar :
    parseOptions env params (if prefs.desyncMethod = .oob ∨ prefs.desyncMethod = .disoob then
        [.option 'e' (some (oobText prefs.oobChar))] else []) = .ok out ↔
      (prefs.desyncMethod = .oob ∨ prefs.desyncMethod = .disoob → prefs.oobChar ≠ 92) ∧
        { params with
          dp := { params.dp with
            oobChar := if prefs.desyncMethod = .oob ∨ prefs.desyncMethod = .disoob then
              some (oobRead prefs.oobChar) else params.dp.oobChar } } = out := by
  rw [parseOptions_ite]
  by_cases hoob : prefs.desyncMethod = .oob ∨ prefs.desyncMethod = .disoob
  · simp only [if_pos hoob, parseOptions_singleton, handle, handleDp, Option.getD_some, parseCform_oobText]
    by_cases hslash : prefs.oobChar = 92
    · simp [hoob, hslash, bind, Except.bind, invalid]
    · simp [hslash, bind, Except.bind]
  · simp [hoob]

theorem parse_udpFakeCount :
    parseOptions env params
        (if 0 < prefs.udpFakeCount.toInt then [.option 'a' (some (decimal prefs.udpFakeCount.toInt))] else []) =
        .ok out ↔
      { params with
        dp := { params.dp with
          udpFakeCount := if 0 < prefs.udpFakeCount.toInt then prefs.udpFakeCount.toInt
            else params.dp.udpFakeCount } } = out := by
  rw [parseOptions_ite]
  split
  · next hpos =>
      have hhi := prefs.udpFakeCount.toInt_lt
      have hnum : number 0 (2 ^ 31 - 1) (decimal prefs.udpFakeCount.toInt) = .ok prefs.udpFakeCount.toInt :=
        number_decimal (long_toInt prefs.udpFakeCount) (by omega) (by omega)
      have hhandle : handle env params (.option 'a' (some (decimal prefs.udpFakeCount.toInt))) =
          .ok { params with dp := { params.dp with udpFakeCount := prefs.udpFakeCount.toInt } } := by
        change ((number 0 (2 ^ 31 - 1) (decimal prefs.udpFakeCount.toInt) >>= _) >>= _) = _
        rw [hnum]
        rfl
      rw [parseOptions_singleton, hhandle, Except.ok.injEq]
  · rfl

-- All that the options give, behind an address and a fake ClientHello.
def parsed (prefs : ByeDpiProxyUIPreferences) (addr : Addr) (sni : Packets.SniChange) : Params :=
  { defaultParams sni.buffer with
    behindFakeTls := sni.behind
    laddr := addr
    port := prefs.port.toInt
    maxOpen := prefs.maxConnections.toInt
    bfsize := prefs.bufferSize.toInt
    defTtl := if prefs.customTtl then prefs.defaultTtl.toInt else 0
    customTtl := prefs.customTtl
    resolve := !prefs.noDomain
    tfo := prefs.tcpFastOpen
    dp := { DesyncParams.zero with
      dropSack := prefs.dropSack
      proto := firstBit protoBit (protoLetters prefs)
      modHttp := firstBit modHttpBit (modHttpLetters prefs)
      parts := methodParts prefs
      tlsrec := tlsrecParts prefs
      ttl := if prefs.desyncMethod = .fake then prefs.fakeTtl.toInt else 0
      fakeOffset := if prefs.desyncMethod = .fake ∧ 0 < prefs.fakeOffset.toInt then prefs.fakeOffset.toInt else 0
      oobChar := if prefs.desyncMethod = .oob ∨ prefs.desyncMethod = .disoob then some (oobRead prefs.oobChar)
        else none
      udpFakeCount := if 0 < prefs.udpFakeCount.toInt then prefs.udpFakeCount.toInt else 0 } }

theorem parse_cmdOptions (hrange : InRange prefs) (fakeTls : Bytes) :
    parseOptions env (defaultParams fakeTls) (cmdOptions prefs) = .ok out ↔
      ∃ addr sni, env.getAddr prefs.ip = some addr ∧ prefs.hostsMode = .disable ∧
        SniChanged prefs ⟨fakeTls, []⟩ sni ∧
        (prefs.desyncMethod = .oob ∨ prefs.desyncMethod = .disoob → prefs.oobChar ≠ 92) ∧
        parsed prefs addr sni = out := by
  simp only [cmdOptions, parseOptions_append]
  constructor
  · rintro ⟨_, ⟨_, ⟨_, ⟨_, ⟨_, ⟨_, ⟨_, ⟨_, ⟨_, ⟨_, ⟨_, ⟨_, ⟨_, ⟨_, ⟨_, hip, hport⟩, hmax⟩, hbuffer⟩, hdefTtl⟩,
      hnoDomain⟩, htfo⟩, hsack⟩, hproto⟩, hmod⟩, hhosts⟩, hmethod⟩, htlsrec⟩, hfake⟩, hoob⟩, hudp⟩
    obtain ⟨addr, haddr, rfl⟩ := parse_ip.mp hip
    obtain rfl := (parse_port hrange).mp hport
    obtain rfl := (parse_maxConnections hrange).mp hmax
    obtain rfl := (parse_bufferSize hrange).mp hbuffer
    obtain rfl := (parse_defaultTtl hrange).mp hdefTtl
    obtain rfl := parse_noDomain.mp hnoDomain
    obtain rfl := parse_tcpFastOpen.mp htfo
    obtain rfl := parse_dropSack.mp hsack
    obtain rfl := parse_proto.mp hproto
    obtain rfl := parse_modHttp.mp hmod
    obtain ⟨hmode, rfl⟩ := (parse_hosts rfl).mp hhosts
    obtain rfl := parse_method.mp hmethod
    obtain rfl := (parse_tlsRecordSplit hrange).mp htlsrec
    obtain ⟨sni, hsni, rfl⟩ := (parse_fake hrange).mp hfake
    obtain ⟨hchar, rfl⟩ := parse_oobChar.mp hoob
    obtain rfl := parse_udpFakeCount.mp hudp
    exact ⟨addr, sni, haddr, hmode, hsni, hchar, by simp [parsed, defaultParams, DesyncParams.zero, Params.withSni]⟩
  · rintro ⟨addr, sni, haddr, hmode, hsni, hchar, rfl⟩
    refine ⟨_, ⟨_, ⟨_, ⟨_, ⟨_, ⟨_, ⟨_, ⟨_, ⟨_, ⟨_, ⟨_, ⟨_, ⟨_, ⟨_, ⟨_, parse_ip.mpr ⟨addr, haddr, rfl⟩,
      (parse_port hrange).mpr rfl⟩, (parse_maxConnections hrange).mpr rfl⟩, (parse_bufferSize hrange).mpr rfl⟩,
      (parse_defaultTtl hrange).mpr rfl⟩, parse_noDomain.mpr rfl⟩, parse_tcpFastOpen.mpr rfl⟩,
      parse_dropSack.mpr rfl⟩, parse_proto.mpr rfl⟩, parse_modHttp.mpr rfl⟩, (parse_hosts rfl).mpr ⟨hmode, rfl⟩⟩,
      parse_method.mpr rfl⟩, (parse_tlsRecordSplit hrange).mpr rfl⟩, (parse_fake hrange).mpr ⟨sni, hsni, rfl⟩⟩,
      parse_oobChar.mpr ⟨hchar, rfl⟩⟩, parse_udpFakeCount.mpr ?_⟩
    simp [parsed, defaultParams, DesyncParams.zero, Params.withSni]

theorem main_toCmdArgs (hrange : InRange prefs) (fakeTls : Bytes) :
    main env fakeTls (toCmdArgs prefs) = .ok out ↔
      ∃ addr sni, env.getAddr prefs.ip = some addr ∧ prefs.hostsMode = .disable ∧
        SniChanged prefs ⟨fakeTls, []⟩ sni ∧
        (prefs.desyncMethod = .oob ∨ prefs.desyncMethod = .disoob → prefs.oobChar ≠ 92) ∧
        addLast (parsed prefs addr sni) = out := by
  have hgetopt : getopt spec (toCmdArgs prefs).tail = cmdOptions prefs := by
    have hreads : readArgs spec .ready (toCmdArgs prefs).tail = (.ready, cmdOptions prefs) := reads_toCmdArgs prefs
    simp [getopt, hreads, finish]
  simp only [main, hgetopt, map_eq_ok, parse_cmdOptions hrange]
  constructor
  · rintro ⟨_, ⟨addr, sni, haddr, hmode, hsni, hchar, rfl⟩, rfl⟩
    refine ⟨addr, sni, haddr, hmode, hsni, hchar, ?_⟩
    rw [boundFamily_of_inet6 (addLast_baddr _)]
  · rintro ⟨addr, sni, haddr, hmode, hsni, hchar, rfl⟩
    refine ⟨_, ⟨addr, sni, haddr, hmode, hsni, hchar, rfl⟩, ?_⟩
    rw [boundFamily_of_inet6 (addLast_baddr _)]

end ToInet.Byedpi.ByeDpiProxyUIPreferences
