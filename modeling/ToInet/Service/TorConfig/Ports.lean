import Mathlib.Data.List.Nodup
import ToInet.Service.TorConfig.Lines

-- The four ports of a configuration, against the ports that are in use. The probe of a port is a connection over TCP,
-- so a port that does not answer may be in use all the same.
namespace ToInet.Service.TorConfig

open ToInet.Lib ToInet.Util ToInet.Circumvention.GetTorConfig

variable {answers : Int → Bool}

-- The first port from one on that does not answer.
structure FirstClosed (answers : Int → Bool) (port found : Int) : Prop where
  le : port ≤ found
  closed : isPortOpen answers found = false
  open_below : ∀ p, port ≤ p → p < found → isPortOpen answers p = true

theorem FirstClosed.unique {port found other : Int} (h : FirstClosed answers port found)
    (h' : FirstClosed answers port other) :
    found = other := by
  have hle {found other : Int} (h : FirstClosed answers port found) (h' : FirstClosed answers port other) :
      found ≤ other := by
    by_contra hlt
    have hopen := h.open_below other h'.le (by omega)
    rw [h'.closed] at hopen
    cases hopen
  exact le_antisymm (hle h h') (hle h' h)

theorem firstClosed_of_checkPort {fuel : Nat} {port found : Int} (h : checkPort answers fuel port = some found) :
    FirstClosed answers port found := by
  induction fuel generalizing port with
  | zero => cases h
  | succ fuel ih =>
      rw [checkPort] at h
      split at h
      · rename_i hopen
        have hnext := ih h
        refine ⟨by have := hnext.le; omega, hnext.closed, fun p hle hlt => ?_⟩
        obtain rfl | hne := eq_or_ne p port
        · exact hopen
        · exact hnext.open_below p (by omega) hlt
      · rename_i hclosed
        obtain rfl := Option.some.inj h
        exact ⟨le_refl _, Bool.of_not_eq_true hclosed, fun p hle hlt => by omega⟩

-- The loop ends behind the last port at the latest.
theorem checkPort_isSome {fuel : Nat} {port : Int} (hfuel : (65536 - port).toNat < fuel) :
    (checkPort answers fuel port).isSome = true := by
  induction fuel generalizing port with
  | zero => omega
  | succ fuel ih =>
      rw [checkPort]
      split
      · rename_i hopen
        simp only [isPortOpen, Bool.and_eq_true, decide_eq_true_eq] at hopen
        exact ih (by omega)
      · rfl

-- The port that the loop finds.
def foundPort (answers : Int → Bool) (port : Int) : Int := (checkPort answers passes port).getD 0

theorem checkPort_eq {port : Int} (hport : 0 ≤ port) :
    checkPort answers passes port = some (foundPort answers port) := by
  have hsome : (checkPort answers passes port).isSome = true := checkPort_isSome (by unfold passes; omega)
  obtain ⟨found, hfound⟩ := Option.isSome_iff_exists.mp hsome
  rw [foundPort, hfound, Option.getD_some]

theorem foundPort_firstClosed {port : Int} (hport : 0 ≤ port) : FirstClosed answers port (foundPort answers port) :=
  firstClosed_of_checkPort (checkPort_eq hport)

theorem answers_of_isPortOpen {port : Int} (h : isPortOpen answers port = true) : answers port = true := by
  simp only [isPortOpen, Bool.and_eq_true] at h
  exact h.2

theorem isPortOpen_eq {port : Int} (hlo : 0 ≤ port) (hhi : port ≤ 65535) : isPortOpen answers port = answers port := by
  simp [isPortOpen, hlo, hhi]

theorem foundPort_unused_iff {used : Int → Prop} {port : Int} (hport : 0 ≤ port) :
    foundPort answers port ≤ 65535 ∧ ¬used (foundPort answers port) ↔
      ∃ found, port ≤ found ∧ found ≤ 65535 ∧ answers found = false ∧
        (∀ p, port ≤ p → p < found → answers p = true) ∧ ¬used found := by
  have hfound := @foundPort_firstClosed answers port hport
  have hle := hfound.le
  constructor
  · intro ⟨hmax, hunused⟩
    refine ⟨_, hle, hmax, ?_, fun p hlo hhi => answers_of_isPortOpen (hfound.open_below p hlo hhi), hunused⟩
    rw [← @isPortOpen_eq answers _ (by omega) hmax, hfound.closed]
  · rintro ⟨found, hlo, hmax, hclosed, hopen, hunused⟩
    have hfirst : FirstClosed answers port found := by
      refine ⟨hlo, ?_, fun p hp hbelow => ?_⟩
      · rw [@isPortOpen_eq answers found (by omega) hmax, hclosed]
      · rw [@isPortOpen_eq answers p (by omega) (by omega), hopen p hp hbelow]
    rw [hfound.unique hfirst]
    exact ⟨hmax, hunused⟩

-- Two ports lead to the same one where everything between them is in use.
theorem foundPort_eq_iff {port other : Int} (hport : 0 ≤ port) (hlt : port < other) (hother : other ≤ 65535) :
    foundPort answers port = foundPort answers other ↔ ∀ p, port ≤ p → p < other → answers p = true := by
  have hfound := @foundPort_firstClosed answers port hport
  have hfound' := @foundPort_firstClosed answers other (by omega)
  constructor
  · intro heq p hle hbelow
    exact answers_of_isPortOpen (hfound.open_below p hle (by have := hfound'.le; omega))
  · intro hall
    have hge : other ≤ foundPort answers port := by
      by_contra hbelow
      have hopen := hall _ hfound.le (by omega)
      rw [← @isPortOpen_eq answers _ (by have := hfound.le; omega) (by omega), hfound.closed] at hopen
      cases hopen
    exact FirstClosed.unique ⟨hge, hfound.closed, fun p hle hbelow => hfound.open_below p (by omega) hbelow⟩ hfound'

theorem foundPort_fitsInt32 {port : Int} (hlo : 1 ≤ port) (hhi : port ≤ 65535) :
    FitsInt32 (foundPort answers port) := by
  have hfound := @foundPort_firstClosed answers port (by omega)
  have hle : foundPort answers port ≤ 65536 := by
    by_contra hlt
    have hopen := hfound.open_below 65536 (by omega) (by omega)
    simp [isPortOpen] at hopen
  have := hfound.le
  unfold FitsInt32
  omega

-- A number is not the word for a port that Tor chooses.
theorem not_auto {text : List Char} {n : Int} (h : Prefs.parseInt text = some n) :
    text.map Char.toLower ≠ "auto".toList := by
  intro hauto
  match text, hauto with
  | c :: _, hauto =>
      have hc : c.toLower = 'a' := (List.cons.inj hauto).1
      have hdigit := (Prefs.parseInt_eq_some h).2 c List.mem_cons_self
      obtain hsame | hupper := toLower_cases c
      · rw [hsame] at hc
        subst hc
        revert hdigit
        decide
      · obtain rfl | rfl | hdigit := hdigit
        · exact absurd hupper (by decide)
        · exact absurd hupper (by decide)
        · obtain ⟨_, hsome⟩ := Option.isSome_iff_exists.mp hdigit
          obtain ⟨start, hfind, -⟩ := Option.map_eq_some_iff.mp hsome
          have hrange : start ≤ c.toNat ∧ c.toNat < start + 10 := by simpa using List.find?_some hfind
          have hout : start + 10 ≤ 65 ∨ 90 < start :=
            forall_mem_of_all (p := fun start => start + 10 ≤ 65 ∨ 90 < start) (by decide) start
              (List.mem_of_find?_eq_some hfind)
          omega

theorem checkPortOrAuto_eq {text : List Char} {port : Int} (h : Prefs.parseInt text = some port) (hport : 0 ≤ port) :
    checkPortOrAuto answers text = some (decimal (foundPort answers port)) := by
  rw [checkPortOrAuto, if_neg (not_auto h), h, Option.bind_some, checkPort_eq hport, Option.map_some]

-- The ports that are written are numbers of ports, unused and all different.
def Separate (used : Int → Prop) (written : List (Option Int)) : Prop :=
  ∃ numbers : List Int, written = numbers.map some ∧ numbers.Nodup ∧
    ∀ port ∈ numbers, 1 ≤ port ∧ port ≤ 65535 ∧ ¬used port

-- The ports that are set, as numbers.
def Configured (prefs : TorPrefs) (numbers : List Int) : Prop :=
  [portOf (socksPort prefs), portOf (httpPort prefs), transPort prefs, dnsPort prefs].map Prefs.parseInt =
    numbers.map some

variable {prefs : TorPrefs} {numbers : List Int} {used : Int → Prop}

-- Every loop ends, and leaves the first port behind the one that is set that does not answer.
theorem ports_eq (hconfigured : Configured prefs numbers) (hrange : ∀ port ∈ numbers, 1 ≤ port ∧ port ≤ 65535) :
    ∃ p, ports answers prefs = some p ∧ p.numbers = (numbers.map (foundPort answers)).map some := by
  have hread (port : Int) (hport : port ∈ numbers) :
      Prefs.parseInt (decimal (foundPort answers port)) = some (foundPort answers port) :=
    Prefs.parseInt_decimal (foundPort_fitsInt32 (hrange port hport).1 (hrange port hport).2)
  obtain ⟨socks, _, rfl, hsocks, hconfigured⟩ := List.map_eq_cons_iff.mp hconfigured.symm
  obtain ⟨http, _, rfl, hhttp, hconfigured⟩ := List.map_eq_cons_iff.mp hconfigured
  obtain ⟨trans, _, rfl, htrans, hconfigured⟩ := List.map_eq_cons_iff.mp hconfigured
  obtain ⟨dns, _, rfl, hdns, hconfigured⟩ := List.map_eq_cons_iff.mp hconfigured
  obtain rfl := List.map_eq_nil_iff.mp hconfigured
  simp only [List.forall_mem_cons] at hrange hread
  obtain ⟨hsocksRange, hhttpRange, htransRange, hdnsRange, -⟩ := hrange
  obtain ⟨hsocksRead, hhttpRead, htransRead, hdnsRead, -⟩ := hread
  let written (port : Int) : List Char := decimal (foundPort answers port)
  refine ⟨{ socks := written socks, http := written http, trans := written trans, dns := written dns }, ?_, ?_⟩
  · rw [ports, getPort, getPort, checkPortOrAuto_eq hsocks.symm (by omega), checkPortOrAuto_eq hhttp.symm (by omega),
      checkPortOrAuto_eq htrans.symm (by omega), checkPortOrAuto_eq hdns.symm (by omega)]
    rfl
  · simp only [Ports.numbers, written, List.map_cons, List.map_nil, hsocksRead, hhttpRead, htransRead, hdnsRead]

theorem separate_iff (hrange : ∀ port ∈ numbers, 1 ≤ port ∧ port ≤ 65535) :
    Separate used ((numbers.map (foundPort answers)).map some) ↔
      (numbers.map (foundPort answers)).Nodup ∧
        ∀ port ∈ numbers, foundPort answers port ≤ 65535 ∧ ¬used (foundPort answers port) := by
  constructor
  · intro ⟨written, hwritten, hnodup, hports⟩
    obtain rfl : numbers.map (foundPort answers) = written :=
      List.map_injective_iff.mpr (Option.some_injective Int) hwritten
    exact ⟨hnodup, fun port hport => (hports _ (List.mem_map_of_mem hport)).2⟩
  · intro ⟨hnodup, hports⟩
    refine ⟨_, rfl, hnodup, fun found hfound => ?_⟩
    obtain ⟨port, hport, rfl⟩ := List.mem_map.mp hfound
    have hlo := (hrange port hport).1
    have hle := (@foundPort_firstClosed answers port (by omega)).le
    exact ⟨by omega, hports port hport⟩

-- The numbers that are found are all different where one that does not answer lies between any two that are set.
theorem nodup_foundPort_iff (hdistinct : numbers.Nodup) (hrange : ∀ port ∈ numbers, 1 ≤ port ∧ port ≤ 65535) :
    (numbers.map (foundPort answers)).Nodup ↔ ∀ port ∈ numbers, ∀ other ∈ numbers, port < other →
      ∃ between, port ≤ between ∧ between < other ∧ answers between = false := by
  have hpair {port other : Int} (hport : port ∈ numbers) (hother : other ∈ numbers) (hlt : port < other) :
      foundPort answers port ≠ foundPort answers other ↔
        ∃ between, port ≤ between ∧ between < other ∧ answers between = false := by
    have hlo := (hrange port hport).1
    have hhi := (hrange other hother).2
    rw [Ne, foundPort_eq_iff (by omega) hlt hhi]
    push Not
    simp only [Bool.not_eq_true]
  rw [List.nodup_map_iff_inj_on hdistinct]
  constructor
  · intro hinj port hport other hother hlt
    exact (hpair hport hother hlt).mp fun heq => absurd (hinj port hport other hother heq) (by omega)
  · intro hbetween port hport other hother heq
    obtain hlt | rfl | hlt := lt_trichotomy port other
    · exact absurd heq ((hpair hport hother hlt).mpr (hbetween port hport other hother hlt))
    · rfl
    · exact absurd heq.symm ((hpair hother hport hlt).mpr (hbetween other hother port hport hlt))

-- The loops end, the configuration that is built says the ports that they find, and these stay apart where one that
-- does not answer lies between any two of those that are set, and the first such port behind each is unused.
theorem ports_separate_iff (files : Files) (platform : UriPlatform) (sources : Sources)
    (hconfigured : Configured prefs numbers) (hdistinct : numbers.Nodup)
    (hrange : ∀ port ∈ numbers, 1 ≤ port ∧ port ≤ 65535) :
    (∃ p, ports answers prefs = some p ∧
        (∀ text, build prefs files answers platform sources = some text → portsIn text = p.numbers) ∧
        Separate used p.numbers) ↔
      (∀ port ∈ numbers, ∃ found, port ≤ found ∧ found ≤ 65535 ∧ answers found = false ∧
        (∀ p, port ≤ p → p < found → answers p = true) ∧ ¬used found) ∧
      ∀ port ∈ numbers, ∀ other ∈ numbers, port < other →
        ∃ between, port ≤ between ∧ between < other ∧ answers between = false := by
  obtain ⟨p, hp, hnumbers⟩ := @ports_eq answers prefs numbers hconfigured hrange
  have hsome : ∀ port ∈ p.numbers, port.isSome = true := by
    rw [hnumbers]
    intro port hport
    obtain ⟨_, _, rfl⟩ := List.mem_map.mp hport
    rfl
  have hports : (∃ p, ports answers prefs = some p ∧
      (∀ text, build prefs files answers platform sources = some text → portsIn text = p.numbers) ∧
      Separate used p.numbers) ↔ Separate used p.numbers := by
    constructor
    · rintro ⟨other, hother, -, hseparate⟩
      obtain rfl := Option.some.inj (hp.symm.trans hother)
      exact hseparate
    · exact fun hseparate => ⟨p, hp, fun text htext => portsIn_build hp hsome htext, hseparate⟩
  have hunused : (∀ port ∈ numbers, foundPort answers port ≤ 65535 ∧ ¬used (foundPort answers port)) ↔
      ∀ port ∈ numbers, ∃ found, port ≤ found ∧ found ≤ 65535 ∧ answers found = false ∧
        (∀ p, port ≤ p → p < found → answers p = true) ∧ ¬used found :=
    forall₂_congr fun port hport => foundPort_unused_iff (by have := (hrange port hport).1; omega)
  rw [hports, hnumbers, separate_iff hrange, hunused, nodup_foundPort_iff hdistinct hrange, and_comm]

-- The ports are set next to each other for SOCKS and HTTP.
def adjacentPrefs : TorPrefs where
  proxySocksPort := some "9050".toList
  proxyHttpPort := some "127.0.0.1:9051".toList
  torTransPort := some "9040".toList
  torDnsPort := some "9053".toList
  openProxyOnAllInterfaces := false
  connectionPadding := false
  reducedConnectionPadding := false
  circuitPadding := true
  reducedCircuitPadding := false
  useDebugLogging := false
  isolateDest := true
  isolatePort := false
  isolateProtocol := false
  isolateKeepAlive := false
  preferIpv6 := true
  disableIpv4 := false
  transport := .none
  entryNodes := none
  exitNodes := none
  excludeNodes := none
  strictNodes := false
  reachableAddresses := false
  reachableAddressesPorts := none
  hostOnionServicesEnabled := true
  customTorRc := none

theorem configured_adjacentPrefs : Configured adjacentPrefs [9050, 9051, 9040, 9053] := by
  unfold Configured
  decide +kernel

def noFiles : Files := { geoIpFile := none, geoIp6File := none, clientAuthLines := [], onionServiceLines := [] }

def emptyPlatform : UriPlatform := { lowercase := id, isHost := fun _ => false, decode := id }

def directSources : Sources :=
  { proxy := { enabled := false, type := none, host := none, username := none, password := none, port := none }
    byedpiEnabled := false
    byedpiUseAsUpstream := false
    byedpiPort := none
    torIgnoreEmptyUrl := false
    bridgesList := []
    builtIn := none
    controllerPort := fun _ => 0 }

-- With the last port in use, and one that no connection finds, the four stay apart.
theorem ports_separate_lastUsed :
    (build adjacentPrefs noFiles (· == 9053) emptyPlatform directSources).isSome = true ∧
      ∃ p, ports (· == 9053) adjacentPrefs = some p ∧
        (∀ text, build adjacentPrefs noFiles (· == 9053) emptyPlatform directSources = some text →
          portsIn text = p.numbers) ∧
        Separate (· ∈ ({9053, 5353} : Set Int)) p.numbers := by
  refine ⟨by decide +kernel, ?_⟩
  have hset : ∀ port ∈ ([9050, 9051, 9040, 9053] : List Int), 9040 ≤ port ∧ port ≤ 9053 := forall_mem_of_all (by decide)
  refine (ports_separate_iff noFiles emptyPlatform directSources configured_adjacentPrefs (by decide)
    (forall_mem_of_all (by decide))).mpr ⟨fun port hport => ?_, fun port hport other hother hlt => ?_⟩
  · obtain ⟨hlo, hhi⟩ := hset port hport
    by_cases hlast : port = 9053
    · refine ⟨9054, by omega, by decide, by decide, fun p hle hlt => beq_iff_eq.mpr (by omega), by simp⟩
    · refine ⟨port, le_refl _, by omega, beq_eq_false_iff_ne.mpr hlast, fun p hle hlt => by omega, ?_⟩
      rw [Set.mem_insert_iff, Set.mem_singleton_iff]
      omega
  · have hhi := (hset other hother).2
    exact ⟨port, le_refl _, hlt, beq_eq_false_iff_ne.mpr (by omega)⟩

-- With the port for SOCKS in use it moves onto the one for HTTP.
theorem not_separate_adjacent :
    Configured adjacentPrefs [9050, 9051, 9040, 9053] ∧ ([9050, 9051, 9040, 9053] : List Int).Nodup ∧
      (∀ port ∈ [9050, 9051, 9040, 9053], (1 : Int) ≤ port ∧ port ≤ 65535) ∧
      ¬∃ p, ports (· == 9050) adjacentPrefs = some p ∧
        (∀ text, build adjacentPrefs noFiles (· == 9050) emptyPlatform directSources = some text →
          portsIn text = p.numbers) ∧
        Separate (· = 9050) p.numbers := by
  have hrange : ∀ port ∈ [9050, 9051, 9040, 9053], (1 : Int) ≤ port ∧ port ≤ 65535 := forall_mem_of_all (by decide)
  refine ⟨configured_adjacentPrefs, by decide, hrange, ?_⟩
  obtain ⟨p, hp, hnumbers⟩ := @ports_eq (· == 9050) _ _ configured_adjacentPrefs hrange
  rintro ⟨other, hother, -, hseparate⟩
  obtain rfl := Option.some.inj (hp.symm.trans hother)
  rw [hnumbers] at hseparate
  exact absurd ((separate_iff hrange).mp hseparate).1 (by decide +kernel)

end ToInet.Service.TorConfig
