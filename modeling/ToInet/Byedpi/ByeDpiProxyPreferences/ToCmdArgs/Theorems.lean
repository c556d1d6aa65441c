import ToInet.Byedpi.ByeDpiProxyPreferences.ToCmdArgs.Options
import ToInet.Byedpi.OptionLoop.FakeTls

namespace ToInet.Byedpi.ByeDpiProxyUIPreferences

open ToInet.Lib ToInet.Lib.Getopt ToInet.Byedpi.OptionLoop ToInet.Byedpi.Packets

theorem entry_addLast {params : Params} (hdps : params.dps = []) : entry (addLast params) = params.dp := by
  unfold addLast
  split
  · simp [entry, hdps]
  · simp [entry, hdps]

theorem firstBit_proto_iff (prefs : ByeDpiProxyUIPreferences) :
    firstBit protoBit (protoLetters prefs) =
        mask [(prefs.desyncHttp, 4), (prefs.desyncHttps, 8), (prefs.desyncUdp, 2)] ↔
      (protoLetters prefs).length ≤ 1 := by
  unfold protoLetters
  generalize prefs.desyncHttp = http, prefs.desyncHttps = https, prefs.desyncUdp = udp
  revert http https udp
  decide

theorem firstBit_modHttp_iff (prefs : ByeDpiProxyUIPreferences) :
    firstBit modHttpBit (modHttpLetters prefs) =
        mask [(prefs.hostMixedCase, 1), (prefs.domainMixedCase, 4), (prefs.hostRemoveSpaces, 2)] ↔
      (modHttpLetters prefs).length ≤ 1 := by
  unfold modHttpLetters
  generalize prefs.hostMixedCase = host, prefs.domainMixedCase = domain, prefs.hostRemoveSpaces = spaces
  revert host domain spaces
  decide

theorem zero_eq_toInt (n : Int32) : 0 = n.toInt ↔ n = 0 := by
  have hzero : (0 : Int32).toInt = 0 := rfl
  rw [← Int32.toInt_inj, hzero, eq_comm]

theorem methodParts_eq_iff (prefs : ByeDpiProxyUIPreferences) :
    methodParts prefs =
        (if prefs.desyncMethod = .none then []
        else [{ m := demode prefs.desyncMethod, flag := offset prefs.splitAtHost
                pos := prefs.splitPosition.toInt }]) ↔
      (prefs.desyncMethod ≠ .none → prefs.splitAtHost → prefs.splitPosition = 0) := by
  unfold methodParts
  split
  · next hnone => simp [hnone]
  · next hmethod => simp [hmethod, zero_eq_toInt]

theorem tlsrecParts_eq_iff (prefs : ByeDpiProxyUIPreferences) :
    tlsrecParts prefs =
        (if prefs.tlsRecordSplit then
          [{ m := .none, flag := offset prefs.tlsRecordSplitAtSni, pos := prefs.tlsRecordSplitPosition.toInt }]
        else []) ↔
      (prefs.tlsRecordSplit → prefs.tlsRecordSplitAtSni → prefs.tlsRecordSplitPosition = 0) := by
  unfold tlsrecParts
  split
  · next hsplit => simp [hsplit, zero_eq_toInt]
  · next hsplit => simp [hsplit]

variable {env : Environment} {prefs : ByeDpiProxyUIPreferences} {addr : Addr} {hello : Hello} {sni : SniChange}

theorem sniChange_addLast (params : Params) : (addLast params).sniChange = params.sniChange :=
  (congrArg Params.sniChange (addLast_frame params) :)

theorem expressible_of_matches (haddr : env.getAddr prefs.ip = some addr) (hmode : prefs.hostsMode = .disable)
    (hchar : prefs.desyncMethod = .oob ∨ prefs.desyncMethod = .disoob → prefs.oobChar ≠ 92)
    (hsni : SniChanged prefs ⟨hello.buffer, []⟩ sni)
    (hmatches : Matches env hello prefs (addLast (parsed prefs addr sni))) : Expressible env hello prefs := by
  have hentry : entry (addLast (parsed prefs addr sni)) = (parsed prefs addr sni).dp := entry_addLast rfl
  refine
    { ip := by simp [haddr]
      proto := ?_
      modHttp := ?_
      hostsMode := hmode
      splitPosition := ?_
      tlsRecordSplitPosition := ?_
      fakeSni := ?_
      oobChar := ?_ }
  · have hproto := hmatches.proto
    rw [hentry] at hproto
    exact (firstBit_proto_iff prefs).mp hproto
  · have hmod := hmatches.modHttp
    rw [hentry] at hmod
    exact (firstBit_modHttp_iff prefs).mp hmod
  · have hparts := hmatches.parts
    rw [hentry] at hparts
    exact (methodParts_eq_iff prefs).mp hparts
  · have htlsrec := hmatches.tlsrec
    rw [hentry] at htlsrec
    exact (tlsrecParts_eq_iff prefs).mp htlsrec
  · intro hfake
    obtain ⟨renamed, hrenamed, hbuffer⟩ := hmatches.fakeSni hfake
    have hsame : sni = ⟨renamed.buffer, []⟩ := by
      rw [← hbuffer, ← hmatches.behindFakeTls]
      exact (sniChange_addLast (parsed prefs addr sni)).symm
    rw [SniChanged, if_pos hfake, hsame] at hsni
    exact (change_intact_iff hello _).mp ⟨renamed, hrenamed, hsni⟩
  · intro hoob
    have hread := hmatches.oobChar hoob
    rw [hentry] at hread
    have hbyte : oobRead prefs.oobChar = prefs.oobChar.toUInt8 := by simpa [parsed, hoob] using hread
    exact ((oobRead_eq_iff _).mp hbyte).imp_right fun hpos => ⟨hpos, hchar hoob⟩

-- The fake ClientHello carries the name, if there is one to carry, and nothing is written behind it.
def Carried (hello : Hello) (prefs : ByeDpiProxyUIPreferences) (sni : SniChange) : Prop :=
  sni.behind = [] ∧ (prefs.desyncMethod = .fake →
    ∃ renamed, Renamed hello (utfChars prefs.fakeSni) renamed ∧ sni.buffer = renamed.buffer)

theorem Expressible.sniChanged (hexpr : Expressible env hello prefs) :
    ∃ sni, SniChanged prefs ⟨hello.buffer, []⟩ sni ∧ Carried hello prefs sni := by
  unfold SniChanged
  split
  · next hfake =>
      obtain ⟨renamed, hrenamed, hchange⟩ := (change_intact_iff hello _).mpr (hexpr.fakeSni hfake)
      exact ⟨_, hchange, rfl, fun _ => ⟨renamed, hrenamed, rfl⟩⟩
  · next hfake => exact ⟨_, rfl, rfl, fun hname => absurd hname hfake⟩

theorem Expressible.oobChar_ne (hexpr : Expressible env hello prefs)
    (hoob : prefs.desyncMethod = .oob ∨ prefs.desyncMethod = .disoob) : prefs.oobChar ≠ 92 :=
  (hexpr.oobChar hoob).elim (fun heq => heq ▸ by decide) And.right

theorem Expressible.matches_parsed (hexpr : Expressible env hello prefs) (hrange : InRange prefs)
    (haddr : env.getAddr prefs.ip = some addr) (hsni : Carried hello prefs sni) :
    Matches env hello prefs (addLast (parsed prefs addr sni)) := by
  have hentry : entry (addLast (parsed prefs addr sni)) = (parsed prefs addr sni).dp := entry_addLast rfl
  have hframe := addLast_frame (parsed prefs addr sni)
  generalize hparams : addLast (parsed prefs addr sni) = params at hentry hframe
  exact
    { ip := haddr.trans (congrArg some (congrArg Params.laddr hframe).symm)
      port := (congrArg Params.port hframe :)
      maxOpen := (congrArg Params.maxOpen hframe :)
      bfsize := (congrArg Params.bfsize hframe :)
      customTtl := (congrArg Params.customTtl hframe :)
      defTtl := fun hcustom => ((congrArg Params.defTtl hframe :).trans (if_pos hcustom) :)
      resolve := (congrArg Params.resolve hframe :)
      tfo := (congrArg Params.tfo hframe :)
      dropSack := by rw [hentry]; rfl
      proto := by rw [hentry]; exact (firstBit_proto_iff prefs).mpr hexpr.proto
      modHttp := by rw [hentry]; exact (firstBit_modHttp_iff prefs).mpr hexpr.modHttp
      hosts := by rw [hentry, prefs.hosts_disabled hexpr.hostsMode]; rfl
      parts := by rw [hentry]; exact (methodParts_eq_iff prefs).mpr hexpr.splitPosition
      tlsrec := by rw [hentry]; exact (tlsrecParts_eq_iff prefs).mpr hexpr.tlsRecordSplitPosition
      ttl := fun hfake => by rw [hentry]; exact if_pos hfake
      fakeSni := fun hfake => by
        obtain ⟨renamed, hrenamed, hbuffer⟩ := hsni.2 hfake
        exact ⟨renamed, hrenamed, (congrArg Params.fakeTls hframe :).trans hbuffer⟩
      behindFakeTls := (congrArg Params.behindFakeTls hframe :).trans hsni.1
      fakeOffset := fun hfake => by
        have hpos := hrange.fakeOffset
        rw [hentry]
        simp only [parsed, hfake, true_and]
        split <;> omega
      oobChar := fun hoob => by
        rw [hentry]
        have hbyte := (oobRead_eq_iff _).mpr ((hexpr.oobChar hoob).imp_right And.left)
        simp [parsed, hoob, hbyte]
      udpFakeCount := by
        have hpos := hrange.udpFakeCount
        rw [hentry]
        simp only [parsed]
        split <;> omega }

-- The parameters say what the preferences say exactly where the arguments can say it.
theorem toCmdArgs_matches_iff (env : Environment) (hello : Hello) (prefs : ByeDpiProxyUIPreferences)
    (hrange : InRange prefs) :
    (∃ params, main env hello.buffer (toCmdArgs prefs) = .ok params ∧ Matches env hello prefs params) ↔
      Expressible env hello prefs := by
  constructor
  · rintro ⟨_, hmain, hmatches⟩
    obtain ⟨addr, sni, haddr, hmode, hsni, hchar, rfl⟩ := (main_toCmdArgs hrange hello.buffer).mp hmain
    exact expressible_of_matches haddr hmode hchar hsni hmatches
  · intro hexpr
    obtain ⟨addr, haddr⟩ := Option.isSome_iff_exists.mp hexpr.ip
    obtain ⟨sni, hsni, hcarried⟩ := hexpr.sniChanged
    have hmain := (main_toCmdArgs hrange hello.buffer).mpr
      ⟨addr, sni, haddr, hexpr.hostsMode, hsni, hexpr.oobChar_ne, rfl⟩
    exact ⟨_, hmain, hexpr.matches_parsed hrange haddr hcarried⟩

-- HTTPS alone is faked, under a name that fits.
def httpsOnly : ByeDpiProxyUIPreferences :=
  (create false { desyncHttp := some false, desyncMethod := some .fake }).get rfl

theorem inRange_httpsOnly : InRange httpsOnly := by constructor <;> decide

theorem toCmdArgs_matches_https :
    ∃ params, main loopbackOnly tlsData.buffer (toCmdArgs httpsOnly) = .ok params ∧
      Matches loopbackOnly tlsData httpsOnly params :=
  (toCmdArgs_matches_iff loopbackOnly tlsData httpsOnly inRange_httpsOnly).mpr (by constructor <;> decide)

-- The settings as they come: of HTTP and HTTPS only the first is read.
def defaults : ByeDpiProxyUIPreferences := (create false {}).get rfl

theorem toCmdArgs_not_matches :
    InRange defaults ∧
      ¬∃ params, main loopbackOnly tlsData.buffer (toCmdArgs defaults) = .ok params ∧
        Matches loopbackOnly tlsData defaults params := by
  have hrange : InRange defaults := by constructor <;> decide
  refine ⟨hrange, ?_⟩
  rintro ⟨_, hmain, hmatches⟩
  obtain ⟨addr, sni, -, -, -, -, rfl⟩ := (main_toCmdArgs hrange tlsData.buffer).mp hmain
  have hproto := hmatches.proto
  rw [entry_addLast rfl] at hproto
  have hone : (protoLetters defaults).length ≤ 1 := (firstBit_proto_iff defaults).mp hproto
  exact absurd hone (by decide)

end ToInet.Byedpi.ByeDpiProxyUIPreferences
