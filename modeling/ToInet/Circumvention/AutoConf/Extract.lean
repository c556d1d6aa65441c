import ToInet.Circumvention.AutoConf

-- What extract makes of a list of settings.
namespace ToInet.Circumvention.AutoConf

open MoatApi BuiltInBridges

def carries (setting : Setting) : Bool := !isNullOrEmpty setting.bridge.bridges

def isBuiltin (setting : Setting) : Bool := setting.bridge.source = SOURCE_BUILTIN

def ownTransport (type : String) : Option Transport :=
  if type = "snowflake" then some .snowflake
  else if type = "obfs4" then some .obfs4
  else if type = "webtunnel" then some .webtunnel
  else if type = "dnstt" then some .custom
  else none

-- The transport of a setting that is usable.
def usable (setting : Setting) : Option Transport :=
  if setting.bridge.type = "snowflake" ∨ isBuiltin setting then ownTransport setting.bridge.type
  else if carries setting then (ownTransport setting.bridge.type).map fun _ => .custom
  else none

def customLines (setting : Setting) : List String :=
  if setting.bridge.type = "dnstt" ∨
      (setting.bridge.type = "obfs4" ∨ setting.bridge.type = "webtunnel") ∧ ¬isBuiltin setting then
    setting.bridge.bridges.getD []
  else []

-- What a setting has for the built-in list of a type.
def newList (type : String) (setting : Setting) : Option (List Bridge) :=
  if setting.bridge.type = type ∧ (type = "snowflake" ∨ isBuiltin setting) ∧ carries setting then
    some ((setting.bridge.bridges.getD []).map fun line => { raw := line.toList })
  else none

def lastUpdate (type : String) (settings : List Setting) : Option (List Bridge) :=
  (settings.filterMap (newList type)).getLast?

def updatedBy (settings : List Setting) (built : BuiltInBridges) : BuiltInBridges :=
  { meek := built.meek
    obfs4 := (lastUpdate "obfs4" settings).or built.obfs4
    snowflake := (lastUpdate "snowflake" settings).or built.snowflake
    webtunnel := (lastUpdate "webtunnel" settings).or built.webtunnel
    dnstt := (lastUpdate "dnstt" settings).or built.dnstt }

-- The branches of a pass.
inductive Kind (setting : Setting) : Prop
  | snowflake (htype : setting.bridge.type = "snowflake")
  | custom (htype : setting.bridge.type = "obfs4" ∨ setting.bridge.type = "webtunnel" ∨ setting.bridge.type = "dnstt")
      (hsource : setting.bridge.source ≠ SOURCE_BUILTIN)
  | obfs4 (htype : setting.bridge.type = "obfs4") (hsource : setting.bridge.source = SOURCE_BUILTIN)
  | webtunnel (htype : setting.bridge.type = "webtunnel") (hsource : setting.bridge.source = SOURCE_BUILTIN)
  | dnstt (htype : setting.bridge.type = "dnstt") (hsource : setting.bridge.source = SOURCE_BUILTIN)
  | other (htype : setting.bridge.type ∉ ["snowflake", "obfs4", "webtunnel", "dnstt"])

theorem kind (setting : Setting) : Kind setting := by
  by_cases hother : setting.bridge.type ∈ ["snowflake", "obfs4", "webtunnel", "dnstt"]
  · simp only [List.mem_cons, List.not_mem_nil, or_false] at hother
    rcases hother with htype | htype
    · exact .snowflake htype
    · by_cases hsource : setting.bridge.source = SOURCE_BUILTIN
      · rcases htype with htype | htype | htype
        · exact .obfs4 htype hsource
        · exact .webtunnel htype hsource
        · exact .dnstt htype hsource
      · exact .custom htype hsource
  · exact .other hother

theorem lastUpdate_cons (type : String) (setting : Setting) (settings : List Setting) :
    lastUpdate type (setting :: settings) = (lastUpdate type settings).or (newList type setting) := by
  unfold lastUpdate
  cases h : newList type setting with
  | none => rw [List.filterMap_cons_none h, Option.or_none]
  | some list => rw [List.filterMap_cons_some h, List.getLast?_cons, Option.or_some]

theorem updatedBy_singleton (setting : Setting) :
    updatedBy [setting] = fun built =>
      { meek := built.meek
        obfs4 := (newList "obfs4" setting).or built.obfs4
        snowflake := (newList "snowflake" setting).or built.snowflake
        webtunnel := (newList "webtunnel" setting).or built.webtunnel
        dnstt := (newList "dnstt" setting).or built.dnstt } := by
  funext built
  simp only [updatedBy, lastUpdate_cons]
  rfl

theorem updatedBy_cons (setting : Setting) (settings : List Setting) (built : BuiltInBridges) :
    updatedBy (setting :: settings) built = updatedBy settings (updatedBy [setting] built) := by
  simp only [updatedBy, lastUpdate_cons, Option.or_assoc]
  rfl

namespace Extraction

variable (e : Extraction)

theorem update_transport (bridges : Option (List String)) (change : List Bridge → BuiltInBridges → BuiltInBridges) :
    (e.update bridges change).transport = e.transport := by
  unfold update
  split <;> rfl

theorem update_customBridges (bridges : Option (List String))
    (change : List Bridge → BuiltInBridges → BuiltInBridges) :
    (e.update bridges change).customBridges = e.customBridges := by
  unfold update
  split <;> rfl

theorem update_current (bridges : Option (List String)) (change : List Bridge → BuiltInBridges → BuiltInBridges) :
    (e.update bridges change).builtIn.getInstance.current =
      if isNullOrEmpty bridges then e.builtIn.getInstance.current
      else e.builtIn.getInstance.current.map
        (change ((bridges.getD []).map fun line => { raw := line.toList })) := by
  unfold update
  split
  · rfl
  · exact e.builtIn.getInstance_assign _

-- What a pass leaves, field by field.
theorem pass_transport (setting : Setting) : (e.pass setting).transport = e.transport.or (usable setting) := by
  cases kind setting with
  | snowflake htype => simp [pass, usable, ownTransport, htype, choose, update_transport]
  | custom htype hsource =>
      by_cases hnone : isNullOrEmpty setting.bridge.bridges <;> rcases htype with htype | htype | htype <;>
        simp [pass, usable, ownTransport, isBuiltin, carries, htype, hsource, hnone, choose, addAll]
  | obfs4 htype hsource =>
      simp [pass, usable, ownTransport, isBuiltin, htype, hsource, choose, update_transport]
  | webtunnel htype hsource =>
      simp [pass, usable, ownTransport, isBuiltin, htype, hsource, choose, update_transport]
  | dnstt htype hsource =>
      simp [pass, usable, ownTransport, isBuiltin, htype, hsource, choose, addAll, update_transport]
  | other htype =>
      simp only [List.mem_cons, List.not_mem_nil, or_false, not_or] at htype
      simp [pass, usable, ownTransport, htype]

theorem pass_customBridges (setting : Setting) :
    (e.pass setting).customBridges = e.customBridges ++ customLines setting := by
  cases kind setting with
  | snowflake htype => simp [pass, customLines, htype, choose, update_customBridges]
  | custom htype hsource =>
      by_cases hnone : isNullOrEmpty setting.bridge.bridges <;> rcases htype with htype | htype | htype <;>
        simp [pass, customLines, isBuiltin, htype, hsource, hnone, choose, addAll, getD_eq_nil_iff]
  | obfs4 htype hsource => simp [pass, customLines, isBuiltin, htype, hsource, choose, update_customBridges]
  | webtunnel htype hsource => simp [pass, customLines, isBuiltin, htype, hsource, choose, update_customBridges]
  | dnstt htype hsource => simp [pass, customLines, htype, hsource, choose, addAll, update_customBridges]
  | other htype =>
      simp only [List.mem_cons, List.not_mem_nil, or_false, not_or] at htype
      simp [pass, customLines, htype]

theorem pass_current (setting : Setting) :
    (e.pass setting).builtIn.getInstance.current = e.builtIn.getInstance.current.map (updatedBy [setting]) := by
  cases kind setting with
  | snowflake htype =>
      by_cases hnone : isNullOrEmpty setting.bridge.bridges <;>
        simp [pass, htype, hnone, choose, update_current, updatedBy_singleton, newList, carries]
  | custom htype hsource =>
      by_cases hnone : isNullOrEmpty setting.bridge.bridges <;> rcases htype with htype | htype | htype <;>
        simp [pass, htype, hsource, hnone, choose, addAll, updatedBy_singleton, newList, isBuiltin]
  | obfs4 htype hsource =>
      by_cases hnone : isNullOrEmpty setting.bridge.bridges <;>
        simp [pass, htype, hsource, hnone, choose, update_current, updatedBy_singleton, newList, isBuiltin, carries]
  | webtunnel htype hsource =>
      by_cases hnone : isNullOrEmpty setting.bridge.bridges <;>
        simp [pass, htype, hsource, hnone, choose, update_current, updatedBy_singleton, newList, isBuiltin, carries]
  | dnstt htype hsource =>
      by_cases hnone : isNullOrEmpty setting.bridge.bridges <;>
        simp [pass, htype, hsource, hnone, choose, addAll, update_current, updatedBy_singleton, newList, isBuiltin,
          carries]
  | other htype =>
      simp only [List.mem_cons, List.not_mem_nil, or_false, not_or] at htype
      simp [pass, htype, updatedBy_singleton, newList]

-- The whole loop, over the settings.
theorem foldl_pass (settings : List Setting) :
    (settings.foldl pass e).transport = e.transport.or (settings.findSome? usable) ∧
    (settings.foldl pass e).customBridges = e.customBridges ++ settings.flatMap customLines ∧
    (settings.foldl pass e).builtIn.getInstance.current =
      e.builtIn.getInstance.current.map (updatedBy settings) := by
  induction settings generalizing e with
  | nil =>
      refine ⟨?_, ?_, ?_⟩
      · simp
      · simp
      · exact (congrFun Option.map_id _).symm
  | cons setting settings ih =>
      obtain ⟨htransport, hbridges, hcurrent⟩ := ih (e.pass setting)
      rw [List.foldl_cons]
      refine ⟨?_, ?_, ?_⟩
      · rw [htransport, pass_transport, Option.or_assoc]
        cases husable : usable setting <;> simp [husable]
      · rw [hbridges, pass_customBridges, List.append_assoc, List.flatMap_cons]
      · rw [hcurrent, pass_current, Option.map_map]
        exact congrArg (Option.map · _) (funext fun built => (updatedBy_cons setting settings built).symm)

end Extraction

theorem extract_conf (builtIn : Companion) (settings : Option (List Setting)) :
    (extract builtIn settings).1 =
      ((settings.getD []).findSome? usable).map fun transport =>
        (transport, (settings.getD []).flatMap customLines) := by
  obtain ⟨htransport, hbridges, _⟩ :=
    Extraction.foldl_pass { transport := none, customBridges := [], builtIn } (settings.getD [])
  rw [extract, htransport, hbridges]
  rfl

theorem extract_current (builtIn : Companion) (settings : Option (List Setting)) :
    (extract builtIn settings).2.getInstance.current =
      builtIn.getInstance.current.map (updatedBy (settings.getD [])) :=
  (Extraction.foldl_pass { transport := none, customBridges := [], builtIn } (settings.getD [])).2.2

-- The first usable setting gives the transport, all of them give their bridges, and the last one
-- with bridges for a built-in list gives that list.
theorem extract_eq (builtIn : Companion) (settings : Option (List Setting)) :
    (extract builtIn settings).1 =
      ((settings.getD []).findSome? usable).map (fun transport =>
        (transport, (settings.getD []).flatMap customLines)) ∧
    (extract builtIn settings).2.getInstance.current =
      builtIn.getInstance.current.map (updatedBy (settings.getD [])) :=
  ⟨extract_conf builtIn settings, extract_current builtIn settings⟩

end ToInet.Circumvention.AutoConf
