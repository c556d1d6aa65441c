import ToInet.Byedpi.HistoryUtils.Texts

-- The size of the history, which an addition makes up for by one entry without a pin.
namespace ToInet.Byedpi.HistoryUtils

open ToInet.Lib ToInet.Util

variable {command : String} {history : List Command}

-- A text that an addition takes up.
def IsNew (command : String) (history : List Command) : Prop :=
  isBlank command.toList = false ∧ command ∉ history.map Command.text

theorem unpinned_eq_nil : unpinned history = [] ↔ ∀ entry ∈ history, entry.pinned = true := by
  simp [unpinned, List.filter_eq_nil_iff]

theorem change_add (hnew : IsNew command history) : change history (.addCommand command) = add command history := by
  rw [change, if_neg (by simp [hnew.1])]

theorem change_add_of_not_new (hnew : ¬IsNew command history) : change history (.addCommand command) = history := by
  rw [change]
  split
  · rfl
  · rename_i hblank
    have hstored : command ∈ history.map Command.text :=
      not_not.mp fun hmem => hnew ⟨Bool.of_not_eq_true hblank, hmem⟩
    obtain ⟨entry, hfind⟩ := Option.ne_none_iff_exists'.mp (mt find_eq_none.mp (not_not.mpr hstored))
    rw [add, hfind]

-- The entry is added, or added in the place of one without a pin.
theorem add_cases (hnew : command ∉ history.map Command.text) :
    (history.length < maxHistorySize ∨ unpinned history = []) ∧
        add command history = { text := command, pinned := false, name := none } :: history ∨
      maxHistorySize ≤ history.length ∧ ∃ before entry after, history = before ++ entry :: after ∧
        entry.pinned = false ∧
        add command history = { text := command, pinned := false, name := none } :: (before ++ after) := by
  unfold add
  rw [find_eq_none.mpr hnew]
  dsimp only
  split
  · rename_i hfull
    rw [List.length_cons] at hfull
    split
    · rename_i last hlast
      have hmem := List.mem_filter.mp (List.mem_of_getLast? hlast)
      obtain ⟨before, after, -, hhistory, herase⟩ := List.exists_erase_eq hmem.1
      refine .inr ⟨by omega, before, last, after, hhistory, by simpa using hmem.2, ?_⟩
      have hne : last ≠ { text := command, pinned := false, name := none } := by
        rintro rfl
        exact hnew (List.mem_map.mpr ⟨_, hmem.1, rfl⟩)
      rw [List.erase_cons_tail (by simpa using hne.symm), herase]
    · rename_i hnone
      exact .inl ⟨.inr (List.getLast?_eq_none_iff.mp hnone), rfl⟩
  · rename_i hroom
    rw [List.length_cons] at hroom
    exact .inl ⟨.inl (by omega), rfl⟩

-- An addition keeps the entries with a pin and its own entry, and the history to its size as long
-- as there are others that can go.
structure AddKept (history : List Command) (command : String) : Prop where
  pinned : (change history (.addCommand command)).filter Command.pinned = history.filter Command.pinned
  added : IsNew command history →
    (change history (.addCommand command)).head? = some { text := command, pinned := false, name := none }
  capped : IsNew command history → (change history (.addCommand command)).length ≤ maxHistorySize ∨
    ∀ entry ∈ (change history (.addCommand command)).tail, entry.pinned = true

-- One entry can go for the one that is added.
def Room (history : List Command) : Prop := history.length ≤ maxHistorySize ∨ (unpinned history).length ≤ 1

theorem filter_pinned_add (hnew : command ∉ history.map Command.text) :
    (add command history).filter Command.pinned = history.filter Command.pinned := by
  obtain ⟨-, hadd⟩ | ⟨-, before, entry, after, hhistory, hentry, hadd⟩ := add_cases hnew
  · rw [hadd, List.filter_cons_of_neg (by simp)]
  · rw [hadd, hhistory, List.filter_cons_of_neg (by simp), List.filter_append, List.filter_append,
      List.filter_cons_of_neg (by simp [hentry])]

theorem head?_add (hnew : command ∉ history.map Command.text) :
    (add command history).head? = some { text := command, pinned := false, name := none } := by
  obtain ⟨-, hadd⟩ | ⟨-, _, _, _, -, -, hadd⟩ := add_cases hnew
  · rw [hadd, List.head?_cons]
  · rw [hadd, List.head?_cons]

theorem capped_iff_room (hnew : command ∉ history.map Command.text) :
    ((add command history).length ≤ maxHistorySize ∨ ∀ entry ∈ (add command history).tail, entry.pinned = true) ↔
      Room history := by
  rw [Room]
  obtain ⟨hroom, hadd⟩ | ⟨hfull, before, entry, after, rfl, hentry, hadd⟩ := add_cases hnew
  · rw [hadd, List.tail_cons, List.length_cons, ← unpinned_eq_nil]
    obtain hlt | hpinned := hroom
    · exact iff_of_true (.inl hlt) (.inl (by omega))
    · exact iff_of_true (.inr hpinned) (.inr (by simp [hpinned]))
  · have hlength : (unpinned (before ++ entry :: after)).length = (unpinned (before ++ after)).length + 1 := by
      simp [unpinned, hentry]
      omega
    rw [hadd, List.tail_cons, ← unpinned_eq_nil, hlength, ← List.length_eq_zero_iff]
    simp only [List.length_cons, List.length_append]
    omega

theorem addKept_iff : AddKept history command ↔ (IsNew command history → Room history) := by
  constructor
  · intro h hnew
    have hcapped := h.capped hnew
    rw [change_add hnew] at hcapped
    exact (capped_iff_room hnew.2).mp hcapped
  · intro hroom
    refine ⟨?_, fun hnew => ?_, fun hnew => ?_⟩
    · by_cases hnew : IsNew command history
      · rw [change_add hnew]
        exact filter_pinned_add hnew.2
      · rw [change_add_of_not_new hnew]
    · rw [change_add hnew]
      exact head?_add hnew.2
    · rw [change_add hnew]
      exact (capped_iff_room hnew.2).mpr (hroom hnew)

theorem Room.of_le {other : List Command} (h : Room history) (hlength : other.length ≤ history.length)
    (hunpinned : (unpinned other).length ≤ (unpinned history).length) : Room other :=
  h.imp hlength.trans hunpinned.trans

theorem Room.sublist {other : List Command} (h : Room history) (hsub : other.Sublist history) : Room other :=
  h.of_le hsub.length_le (hsub.filter _).length_le

theorem Room.update {set : Command → Command} (h : Room history)
    (hset : ∀ entry, entry.pinned = true → (set entry).pinned = true) :
    Room (update command set history) := by
  obtain ⟨-, hsame⟩ | ⟨before, entry, after, rfl, -, hafter⟩ := update_cases command set history
  · rwa [hsame]
  · rw [hafter]
    refine h.of_le (by simp) ?_
    simp only [unpinned, List.filter_append, List.filter_cons, List.length_append]
    cases hentry : entry.pinned with
    | true => simp [hset entry hentry]
    | false =>
        cases (set entry).pinned with
        | true => simp
        | false => simp

theorem Room.add (h : Room history) (hnew : command ∉ history.map Command.text) : Room (add command history) := by
  obtain ⟨hroom, hadd⟩ | ⟨-, before, entry, after, rfl, hentry, hadd⟩ := add_cases hnew
  · rw [hadd]
    obtain hlt | hpinned := hroom
    · exact .inl hlt
    · refine .inr ?_
      rw [unpinned, List.filter_cons_of_pos (by simp), List.length_cons, ← unpinned, hpinned, List.length_nil]
  · rw [hadd]
    refine h.of_le (by simp only [List.length_cons, List.length_append]; omega) ?_
    simp only [unpinned, List.filter_append, List.filter_cons, hentry, List.length_append, List.length_cons,
      Bool.not_false, if_true]
    omega

-- An entry that loses its pin leaves no second one without a pin in a history that is full.
def UnpinsInRoom (history : List Command) : Operation → Prop
  | .unpinCommand command => history.length ≤ maxHistorySize ∨ unpinned history = [] ∨
      ∀ entry, find command history = some entry → entry.pinned = false
  | _ => True

theorem room_unpin (h : Room history) :
    Room (HistoryUtils.update command (fun entry => { entry with pinned := false }) history) ↔
      UnpinsInRoom history (.unpinCommand command) := by
  obtain ⟨hnone, hsame⟩ | ⟨before, entry, after, hhistory, hfind, hafter⟩ :=
    update_cases command (fun entry => { entry with pinned := false }) history
  · rw [hsame]
    exact iff_of_true h (.inr (.inr fun entry hfind => by rw [hnone] at hfind; cases hfind))
  · have hlength : (before ++ { entry with pinned := false } :: after).length = history.length := by simp [hhistory]
    have hunpinned : (unpinned (before ++ { entry with pinned := false } :: after)).length =
        (unpinned history).length + if entry.pinned then 1 else 0 := by
      rw [hhistory]
      cases hentry : entry.pinned with
      | true => simp [unpinned, hentry]; omega
      | false => simp [unpinned, hentry]
    have hfound : (∀ other, find command history = some other → other.pinned = false) ↔ entry.pinned = false := by
      simp [hfind]
    rw [hafter, Room, UnpinsInRoom, hfound, hlength, hunpinned, ← List.length_eq_zero_iff]
    rw [Room] at h
    cases hentry : entry.pinned with
    | true => simp
    | false => simpa using h

theorem room_change (operation : Operation) (h : Room history) :
    Room (change history operation) ↔ UnpinsInRoom history operation := by
  cases operation with
  | addCommand command =>
      refine iff_of_true ?_ trivial
      by_cases hnew : IsNew command history
      · rw [change_add hnew]
        exact h.add hnew.2
      · rwa [change_add_of_not_new hnew]
  | pinCommand command => exact iff_of_true (h.update fun _ _ => rfl) trivial
  | unpinCommand command => exact room_unpin h
  | deleteCommand command => exact iff_of_true (h.sublist List.filter_sublist) trivial
  | renameCommand command newName => exact iff_of_true (h.update fun _ hpinned => hpinned) trivial
  | editCommand command newText => exact iff_of_true (h.update fun _ hpinned => hpinned) trivial
  | clearAllHistory => exact iff_of_true (.inl (Nat.zero_le _)) trivial
  | clearUnpinnedHistory => exact iff_of_true (h.sublist List.filter_sublist) trivial

def AddsKept (history : List Command) : Operation → Prop
  | .addCommand command => AddKept history command
  | _ => True

def AddsInRoom (history : List Command) : Operation → Prop
  | .addCommand command => IsNew command history → Room history
  | _ => True

theorem addsKept_iff (operation : Operation) : AddsKept history operation ↔ AddsInRoom history operation := by
  cases operation with
  | addCommand command => exact addKept_iff
  | _ => exact Iff.rfl

-- There is room in every state of a run exactly if no entry loses its pin where there is none for it.
theorem always_room_iff (h : Room history) (operations : List Operation) :
    Always entryStep Room history operations ↔ Allowed entryStep UnpinsInRoom history operations :=
  always_iff_allowed Room UnpinsInRoom
    (fun _ operation _ hroom hstep => Option.some.inj hstep ▸ room_change operation hroom)
    (fun _ _ _ hnone => absurd hnone (Option.some_ne_none _)) h

theorem addsInRoom_of_always {operations : List Operation} (h : Always entryStep Room history operations) :
    Allowed entryStep AddsInRoom history operations := by
  induction operations generalizing history with
  | nil => trivial
  | cons operation operations ih =>
      refine ⟨?_, fun after hafter => ih (h.2 after hafter)⟩
      cases operation with
      | addCommand command => exact fun _ => h.1
      | _ => trivial

-- The additions of a run keep what they should exactly where there is room for them, and there is
-- in a run of a history that is not too long, as long as no pin is taken that leaves none.
theorem adds_kept_iff (texts : FloatTexts) (stored : Stored) (operations : List Operation) :
    (Allowed (step texts) (fun stored => AddsKept (getHistory texts stored)) stored operations ↔
      Allowed (step texts) (fun stored => AddsInRoom (getHistory texts stored)) stored operations) ∧
    (Room (getHistory texts stored) →
      Allowed (step texts) (fun stored => UnpinsInRoom (getHistory texts stored)) stored operations →
      Allowed (step texts) (fun stored => AddsInRoom (getHistory texts stored)) stored operations) := by
  rw [allowed_map entryStep_getHistory, allowed_map entryStep_getHistory, allowed_map entryStep_getHistory]
  constructor
  · exact allowed_congr_of_inv (fun _ => True) (fun _ _ _ _ _ => trivial) (fun _ operation _ => addsKept_iff operation)
      trivial
  · intro hroom hunpins
    exact addsInRoom_of_always ((always_room_iff hroom operations).mpr hunpins)

theorem run_entryStep (history : List Command) (operations : List Operation) :
    run entryStep history operations = some (operations.foldl change history) := by
  induction operations generalizing history with
  | nil => rfl
  | cons operation operations ih => exact ih (change history operation)

-- As many commands as the history is to have, each of which gets a pin.
def pinnedOperations : List Operation :=
  (List.range maxHistorySize).flatMap fun i =>
    [.addCommand (String.ofList [Char.ofNat (48 + i)]), .pinCommand (String.ofList [Char.ofNat (48 + i)])]

-- One more command, and a pin that is taken from another.
def overfullOperations : List Operation := pinnedOperations ++ [.addCommand "-d1", .unpinCommand "0"]

theorem not_room_overfull :
    IsNew "-d2" (overfullOperations.foldl change []) ∧ ¬Room (overfullOperations.foldl change []) := by
  unfold IsNew Room
  decide +kernel

-- The next addition takes one of two entries that have no pin, which leaves more than forty.
theorem not_adds_kept_overfull :
    getHistory noTexts none = [] ∧
      ¬Allowed (step noTexts) (fun stored => AddsKept (getHistory noTexts stored)) none
        (overfullOperations ++ [.addCommand "-d2"]) := by
  refine ⟨rfl, fun h => ?_⟩
  have hadd := (((allowed_map entryStep_getHistory AddsKept).mp h).append (run_entryStep _ _)).2.1
  exact not_room_overfull.2 (addKept_iff.mp hadd not_room_overfull.1)

end ToInet.Byedpi.HistoryUtils
