import ToInet.Lib.Split
import ToInet.Service.OrbotRawEventListener
import ToInet.Util.Prefs.Theorems

-- The lines that Tor reports a circuit with, and what the listener reads of them.
namespace ToInet.Service.OrbotRawEventListener

open ToInet.Lib ToInet.Util

-- The flags that Tor builds a circuit with.
inductive BuildFlag where
  | onehopTunnel
  | isInternal
  | needCapacity
  | needUptime
deriving DecidableEq

def BuildFlag.text : BuildFlag → List Char
  | onehopTunnel => "ONEHOP_TUNNEL".toList
  | isInternal => "IS_INTERNAL".toList
  | needCapacity => "NEED_CAPACITY".toList
  | needUptime => "NEED_UPTIME".toList

def flagField (flags : List BuildFlag) : List (List Char) :=
  if flags = [] then [] else ["BUILD_FLAGS=".toList ++ [','].intercalate (flags.map BuildFlag.text)]

-- An event names its circuit and the status, then the hops and the flags where there are any, and what else Tor says.
structure CircuitEvent where
  id : Int
  status : Status
  hops : Option (List Char)
  flags : List BuildFlag
  others : List (List Char)
  id_fits : FitsInt32 id
  spaceless : ∀ field ∈ hops.toList ++ others, ' ' ∉ field
  parts : ∀ part ∈ ((hops.toList ++ flagField flags ++ others).headD []).splitOn ',',
    part.head? ≠ some '~' ∧ part.head? ≠ some '='
  built : status = .built → ∃ path, hops = some path ∧ ∀ part ∈ path.splitOn ',', part ≠ []

namespace CircuitEvent

variable (event : CircuitEvent)

def fields : List (List Char) := event.hops.toList ++ flagField event.flags ++ event.others

def data : List Char := [' '].intercalate (decimal event.id :: event.status.text :: event.fields)

-- What the listener takes for the path.
def path : List Char := if event.status = .launched then [] else event.fields.headD []

-- A circuit of one hop, or one that Tor uses itself.
def isFlagged : Bool := .onehopTunnel ∈ event.flags ∨ .isInternal ∈ event.flags

-- The words of the flags stand somewhere in the line.
def seemsFlagged : Bool := OrbotRawEventListener.isFlagged event.data

end CircuitEvent

section

variable {sep : Char} {text part : List Char} {parts : List (List Char)}

-- What stands in front of a part that is not empty stays.
theorem rdropWhile_append_cons (front : List (List Char)) (hpart : part ≠ []) :
    (front ++ part :: parts).rdropWhile (· = []) = front ++ part :: parts.rdropWhile (· = []) := by
  induction parts using List.reverseRecOn with
  | nil =>
      rw [List.rdropWhile_concat_neg _ _ _ (by simpa using hpart)]
      rfl
  | append_singleton parts last ih =>
      rw [← List.cons_append, ← List.append_assoc]
      by_cases hlast : last = []
      · rw [List.rdropWhile_concat_pos _ _ _ (by simpa using hlast),
          List.rdropWhile_concat_pos _ _ _ (by simpa using hlast), ih]
      · rw [List.rdropWhile_concat_neg _ _ _ (by simpa using hlast),
          List.rdropWhile_concat_neg _ _ _ (by simpa using hlast), List.append_assoc, List.cons_append]

theorem takeWhile_ne_nil (hne : text ≠ []) (hhead : text.head? ≠ some sep) : text.takeWhile (· ≠ sep) ≠ [] := by
  cases text with
  | nil => exact absurd rfl hne
  | cons c text =>
      rw [List.takeWhile_cons_of_pos (by simpa using hhead)]
      exact List.cons_ne_nil _ _

theorem split_eq_cons (hne : text ≠ []) (hhead : text.head? ≠ some sep) :
    ∃ rest, split sep text = text.takeWhile (· ≠ sep) :: rest := by
  unfold split
  split
  · cases hparts : text.splitOn sep with
    | nil => exact absurd hparts (List.splitOn_ne_nil sep text)
    | cons part parts =>
        have hpart := head?_splitOn sep text
        rw [hparts, List.head?_cons] at hpart
        obtain rfl := Option.some.inj hpart
        exact ⟨_, rdropWhile_append_cons [] (takeWhile_ne_nil hne hhead)⟩
  · rename_i hnotMem
    refine ⟨[], ?_⟩
    rw [List.takeWhile_eq_self_iff.mpr]
    intro c hc
    rw [decide_eq_true_eq]
    rintro rfl
    exact hnotMem hc

theorem split_eq_splitOn (h : ∀ part ∈ text.splitOn sep, part ≠ []) : split sep text = text.splitOn sep := by
  unfold split
  split
  · rw [List.rdropWhile_eq_self_iff]
    intro hne
    simpa using h _ (List.getLast_mem hne)
  · rename_i hnotMem
    rw [List.splitOn_eq_singleton hnotMem]

theorem isSome_nodeOf (hne : part ≠ []) (htilde : part.head? ≠ some '~') (hequals : part.head? ≠ some '=') :
    (nodeOf part).isSome = true := by
  have hsplit : ∃ c first rest, split (if '=' ∈ part then '=' else '~') part = (c :: first) :: rest := by
    have hhead : part.head? ≠ some (if '=' ∈ part then '=' else '~') := by
      split
      · exact hequals
      · exact htilde
    obtain ⟨rest, hrest⟩ := split_eq_cons hne hhead
    obtain ⟨c, first, hfirst⟩ := List.exists_cons_of_ne_nil (takeWhile_ne_nil hne hhead)
    exact ⟨c, first, rest, by rw [hrest, hfirst]⟩
  obtain ⟨c, first, rest, hsplit⟩ := hsplit
  rw [nodeOf, hsplit]
  match rest with
  | [] => rfl
  | [_] => rfl
  | _ :: _ :: _ => rfl

theorem isSome_logNodes {status : List Char} (h : ∀ part ∈ parts, (nodeOf part).isSome = true) (isFirstNode : Bool)
    (nodes : Store (List Char) DebugLoggingNode) : (logNodes status isFirstNode parts nodes).isSome = true := by
  induction parts generalizing isFirstNode nodes with
  | nil => rfl
  | cons part parts ih =>
      rw [List.forall_mem_cons] at h
      have hrest := ih h.2
      unfold logNodes
      split
      · rename_i hnone
        rw [hnone] at h
        cases h.1
      · exact hrest _ _
      · dsimp only
        split
        · exact hrest _ _
        · split
          · exact hrest _ _
          · exact hrest _ _

theorem headD_rdropWhile (fields : List (List Char)) : (fields.rdropWhile (· = [])).headD [] = fields.headD [] := by
  cases hfields : fields.rdropWhile (· = []) with
  | nil =>
      cases fields with
      | nil => rfl
      | cons field fields =>
          have hall := List.rdropWhile_eq_nil_iff.mp hfields field List.mem_cons_self
          simpa using hall.symm
  | cons field kept =>
      obtain ⟨rest, hrest⟩ := List.rdropWhile_prefix (· = []) fields
      rw [← hrest, hfields]
      rfl

end

variable {event : CircuitEvent}

theorem decimal_word (n : Int) (h : FitsInt32 n) : decimal n ≠ [] ∧ ' ' ∉ decimal n := by
  have hread := Prefs.parseInt_decimal h
  constructor
  · intro hnil
    rw [hnil] at hread
    cases hread
  · intro hmem
    have hspace := (Prefs.parseInt_eq_some hread).2 ' ' hmem
    revert hspace
    decide

theorem Status.text_word (status : Status) : status.text ≠ [] ∧ ' ' ∉ status.text := by
  cases status <;> exact ⟨by decide, by decide⟩

theorem Status.text_injective {status other : Status} (h : status.text = other.text) : status = other := by
  revert h
  cases status <;> cases other <;> decide

theorem flagField_spaceless (flags : List BuildFlag) : ∀ field ∈ flagField flags, ' ' ∉ field := by
  unfold flagField
  split
  · exact List.forall_mem_nil _
  · rw [List.forall_mem_singleton, List.mem_append, not_or]
    refine ⟨by decide, fun hmem => ?_⟩
    obtain hcomma | ⟨text, htext, hmem⟩ := mem_intercalate hmem
    · exact absurd hcomma (by decide)
    · obtain ⟨flag, -, rfl⟩ := List.mem_map.mp htext
      revert hmem
      cases flag <;> decide

theorem fields_spaceless (event : CircuitEvent) : ∀ field ∈ event.fields, ' ' ∉ field := by
  obtain ⟨hhops, hothers⟩ := List.forall_mem_append.mp event.spaceless
  exact List.forall_mem_append.mpr ⟨List.forall_mem_append.mpr ⟨hhops, flagField_spaceless event.flags⟩, hothers⟩

-- The words of an event are read as they are written.
theorem split_data (event : CircuitEvent) :
    split ' ' event.data = decimal event.id :: event.status.text :: event.fields.rdropWhile (· = []) := by
  obtain ⟨-, hid⟩ := decimal_word event.id event.id_fits
  obtain ⟨hne, hstatus⟩ := event.status.text_word
  have hwords : ∀ word ∈ decimal event.id :: event.status.text :: event.fields, ' ' ∉ word :=
    List.forall_mem_cons.mpr ⟨hid, List.forall_mem_cons.mpr ⟨hstatus, fields_spaceless event⟩⟩
  have hspace : ' ' ∈ event.data := by
    rw [CircuitEvent.data, List.intercalate_cons_cons]
    simp
  rw [split, if_pos hspace, CircuitEvent.data, List.splitOn_intercalate ' ' hwords (List.cons_ne_nil _ _)]
  exact rdropWhile_append_cons [decimal event.id] hne

theorem pathOf_data (event : CircuitEvent) :
    pathOf (split ' ' event.data) event.status.text = some event.path := by
  have hheadD := headD_rdropWhile event.fields
  rw [pathOf, split_data, CircuitEvent.path]
  by_cases hlaunched : event.status = .launched
  · rw [if_pos (.inr (congrArg Status.text hlaunched)), if_pos hlaunched]
  · have htext : event.status.text ≠ Status.launched.text := fun h => hlaunched (Status.text_injective h)
    rw [if_neg hlaunched, ← hheadD]
    cases event.fields.rdropWhile (· = []) with
    | nil => rfl
    | cons field kept => simp [htext]

theorem isSome_handleCircuitStatus (useDebugLogging : Bool) (nodes : Store (List Char) DebugLoggingNode) :
    (handleCircuitStatus useDebugLogging event.status.text event.path nodes).isSome = true := by
  rw [handleCircuitStatus]
  split
  · refine isSome_logNodes (fun part hpart => ?_) true nodes
    obtain ⟨hmem, hne⟩ := List.mem_filter.mp hpart
    have hparts : part.head? ≠ some '~' ∧ part.head? ≠ some '=' := by
      rw [CircuitEvent.path] at hmem
      split at hmem
      · rw [List.splitOn_nil, List.mem_singleton] at hmem
        rw [hmem]
        exact ⟨nofun, nofun⟩
      · exact event.parts part hmem
    exact isSome_nodeOf (of_decide_eq_true hne) hparts.1 hparts.2
  · rfl

theorem isFlagged_iff (text : List Char) :
    isFlagged text = true ↔ "ONEHOP_TUNNEL".toList <:+: text ∨ "IS_INTERNAL".toList <:+: text :=
  decide_eq_true_iff

-- The words of the flags have no separator in them, so that they stand in one part of a text.
theorem isFlagged_intercalate {sep : Char} {parts : List (List Char)} (hsep : sep = ' ' ∨ sep = ',')
    (hne : parts ≠ []) :
    isFlagged ([sep].intercalate parts) = true ↔ ∃ part ∈ parts, isFlagged part = true := by
  have hword : sep ∉ "ONEHOP_TUNNEL".toList ∧ sep ∉ "IS_INTERNAL".toList := by
    obtain rfl | rfl := hsep <;> decide
  rw [isFlagged_iff, infix_intercalate_iff hword.1 hne, infix_intercalate_iff hword.2 hne, ← exists_or]
  exact exists_congr fun part => by rw [isFlagged_iff, and_or_left]

theorem isFlagged_text (flag : BuildFlag) : isFlagged flag.text = true ↔ flag = .onehopTunnel ∨ flag = .isInternal := by
  cases flag <;> decide

theorem isFlagged_of_notMem {text : List Char} (h : '_' ∉ text) : isFlagged text ≠ true := by
  have hfirst : '_' ∈ "ONEHOP_TUNNEL".toList := by decide
  have hsecond : '_' ∈ "IS_INTERNAL".toList := by decide
  rw [Ne, isFlagged_iff, not_or]
  exact ⟨fun hword => h (hword.subset hfirst), fun hword => h (hword.subset hsecond)⟩

theorem exists_flagField (flags : List BuildFlag) :
    (∃ field ∈ flagField flags, isFlagged field = true) ↔ .onehopTunnel ∈ flags ∨ .isInternal ∈ flags := by
  have hflags : (∃ text ∈ flags.map BuildFlag.text, isFlagged text = true) ↔
      .onehopTunnel ∈ flags ∨ .isInternal ∈ flags := by
    constructor
    · rintro ⟨text, htext, hflagged⟩
      obtain ⟨flag, hflag, rfl⟩ := List.mem_map.mp htext
      obtain rfl | rfl := (isFlagged_text flag).mp hflagged
      · exact .inl hflag
      · exact .inr hflag
    · rintro (hflag | hflag)
      · exact ⟨_, List.mem_map_of_mem hflag, (isFlagged_text _).mpr (.inl rfl)⟩
      · exact ⟨_, List.mem_map_of_mem hflag, (isFlagged_text _).mpr (.inr rfl)⟩
  unfold flagField
  split
  · rename_i hnil
    simp [hnil]
  · rename_i hne
    have hword : '=' ∉ "ONEHOP_TUNNEL".toList ∧ '=' ∉ "IS_INTERNAL".toList := by decide
    have hkey : ¬("ONEHOP_TUNNEL".toList <:+: "BUILD_FLAGS".toList) ∧
        ¬("IS_INTERNAL".toList <:+: "BUILD_FLAGS".toList) := by
      decide
    have htexts := isFlagged_intercalate (.inr rfl) (mt List.map_eq_nil_iff.mp hne : flags.map BuildFlag.text ≠ [])
    simp only [List.mem_singleton, exists_eq_left]
    rw [← hflags, ← htexts, show "BUILD_FLAGS=".toList = "BUILD_FLAGS".toList ++ ['='] from rfl,
      List.append_assoc, List.singleton_append,
      isFlagged_iff, infix_append_cons_iff hword.1, infix_append_cons_iff hword.2, or_iff_right hkey.1,
      or_iff_right hkey.2, isFlagged_iff]

-- The line says the words of a flagged circuit, and may say them elsewhere.
theorem seemsFlagged_iff (event : CircuitEvent) :
    event.seemsFlagged = true ↔
      event.isFlagged = true ∨ ∃ field ∈ event.hops.toList ++ event.others, isFlagged field = true := by
  have hid : isFlagged (decimal event.id) ≠ true :=
    isFlagged_of_notMem (Prefs.notMem_of_parseInt (Prefs.parseInt_decimal event.id_fits) (by decide) (by decide))
  have hstatus : isFlagged event.status.text ≠ true := by
    apply isFlagged_of_notMem
    cases event.status <;> decide
  rw [CircuitEvent.seemsFlagged, CircuitEvent.data, isFlagged_intercalate (.inl rfl) (List.cons_ne_nil _ _),
    List.exists_mem_cons_iff, or_iff_right hid, List.exists_mem_cons_iff, or_iff_right hstatus, CircuitEvent.isFlagged,
    decide_eq_true_iff, ← exists_flagField, CircuitEvent.fields]
  simp only [List.mem_append, or_and_right, exists_or]
  rw [or_assoc]
  exact or_left_comm

-- The ignored circuits with that of an event that seems flagged.
def CircuitEvent.ignoredAfter (event : CircuitEvent) (ignored : Finset Int) : Finset Int :=
  if event.seemsFlagged then insert event.id ignored else ignored

theorem mem_ignoredAfter_of_ne {ignored : Finset Int} {id : Int} (hne : id ≠ event.id) :
    id ∈ event.ignoredAfter ignored ↔ id ∈ ignored := by
  rw [CircuitEvent.ignoredAfter]
  split
  · simp [hne]
  · rfl

theorem mem_ignoredAfter {ignored : Finset Int} (h : event.id ∈ ignored → event.isFlagged = true) :
    event.id ∈ event.ignoredAfter ignored ↔ event.seemsFlagged = true := by
  rw [CircuitEvent.ignoredAfter]
  split
  · rename_i hseems
    exact iff_of_true (Finset.mem_insert_self _ _) hseems
  · rename_i hseems
    exact iff_of_false (fun hmem => hseems ((seemsFlagged_iff event).mpr (.inl (h hmem)))) hseems

-- An event changes the nodes of the log, then the flagged circuits, then what its status says.
theorem onCircuitStatus_eq (useDebugLogging : Bool) (event : CircuitEvent) (s : State) :
    ∃ hmBuiltNodes, onCircuitStatus useDebugLogging event.data s =
      handleCircuitStatusExpandedNotifications event.status.text (decimal event.id) event.path
        { s with hmBuiltNodes, ignoredInternalCircuits := event.ignoredAfter s.ignoredInternalCircuits } := by
  obtain ⟨hmBuiltNodes, hnodes⟩ :=
    Option.isSome_iff_exists.mp (@isSome_handleCircuitStatus event useDebugLogging s.hmBuiltNodes)
  have hignored : ignoredWith event.data (decimal event.id) s.ignoredInternalCircuits =
      some (event.ignoredAfter s.ignoredInternalCircuits) := by
    rw [ignoredWith, CircuitEvent.ignoredAfter, CircuitEvent.seemsFlagged, Prefs.parseInt_decimal event.id_fits]
    split
    · rfl
    · rfl
  have hpath := pathOf_data event
  rw [split_data] at hpath
  refine ⟨hmBuiltNodes, ?_⟩
  rw [onCircuitStatus, split_data]
  simp only [List.getElem?_cons_succ, List.getElem?_cons_zero, Option.bind_eq_bind, Option.bind_some]
  rw [hpath, Option.bind_some, hnodes, Option.bind_some, hignored, Option.bind_some]

end ToInet.Service.OrbotRawEventListener
