import Mathlib.Data.List.Nodup
import ToInet.Byedpi.HistoryUtils
import ToInet.Lib.Transition

-- The texts by which the operations find their entries.
namespace ToInet.Byedpi.HistoryUtils

open ToInet.Lib ToInet.Util

variable {command : String} {set : Command → Command} {history : List Command}

-- A change meets the first entry with the text, or nothing.
theorem update_cases (command : String) (set : Command → Command) (history : List Command) :
    find command history = none ∧ update command set history = history ∨
      ∃ before entry after, history = before ++ entry :: after ∧ find command history = some entry ∧
        update command set history = before ++ set entry :: after := by
  induction history with
  | nil => exact .inl ⟨rfl, rfl⟩
  | cons entry history ih =>
      rw [update, find]
      split
      · rename_i htext
        rw [List.find?_cons_of_pos (by simpa using htext)]
        exact .inr ⟨[], entry, history, rfl, rfl, rfl⟩
      · rename_i htext
        rw [List.find?_cons_of_neg (by simpa using htext)]
        obtain ⟨hnone, hsame⟩ | ⟨before, found, after, hhistory, hfound, hafter⟩ := ih
        · exact .inl ⟨hnone, by rw [hsame]⟩
        · refine .inr ⟨entry :: before, found, after, ?_, hfound, ?_⟩
          · rw [hhistory, List.cons_append]
          · rw [hafter, List.cons_append]

theorem text_of_find {entry : Command} (h : find command history = some entry) : entry.text = command := by
  simpa using List.find?_some h

theorem find_eq_none : find command history = none ↔ command ∉ history.map Command.text := by
  simp [find, List.mem_map]

-- Two entries with one text cannot be told apart.
def Distinct (history : List Command) : Prop := (history.map Command.text).Nodup

theorem Distinct.sublist {other : List Command} (h : Distinct history) (hsub : other.Sublist history) :
    Distinct other :=
  List.Nodup.sublist (hsub.map Command.text) h

theorem distinct_update (hchange : ∀ entry, (set entry).text = entry.text) :
    Distinct (update command set history) ↔ Distinct history := by
  obtain ⟨-, hsame⟩ | ⟨before, entry, after, rfl, -, hafter⟩ := update_cases command set history
  · rw [hsame]
  · rw [hafter, Distinct, Distinct, List.map_append, List.map_append, List.map_cons, List.map_cons, hchange]

theorem Distinct.add (h : Distinct history) : Distinct (add command history) := by
  unfold HistoryUtils.add
  split
  · exact h
  · rename_i hfind
    have hadded : Distinct ({ text := command, pinned := false, name := none } :: history) :=
      List.nodup_cons.mpr ⟨find_eq_none.mp hfind, h⟩
    dsimp only
    split
    · split
      · exact hadded.sublist List.erase_sublist
      · exact hadded
    · exact hadded

-- A text may replace another where no other entry has it.
theorem distinct_edit {newText : String} (h : Distinct history) :
    Distinct (update command (fun entry => { entry with text := newText }) history) ↔
      (command ∈ history.map Command.text → newText = command ∨ newText ∉ history.map Command.text) := by
  obtain ⟨hnone, hsame⟩ | ⟨before, entry, after, rfl, hfind, hafter⟩ :=
    update_cases command (fun entry => { entry with text := newText }) history
  · rw [hsame]
    exact iff_of_true h fun hmem => absurd hmem (find_eq_none.mp hnone)
  · obtain rfl := text_of_find hfind
    rw [hafter]
    simp only [Distinct, List.map_append, List.map_cons, List.nodup_middle, List.nodup_cons] at h ⊢
    obtain ⟨hentry, hrest⟩ := h
    simp only [hrest, and_true, List.mem_append, List.mem_cons, not_or] at hentry ⊢
    constructor
    · intro hnew _
      by_cases hsame : newText = entry.text
      · exact .inl hsame
      · exact .inr ⟨hnew.1, hsame, hnew.2⟩
    · intro hnew
      obtain rfl | ⟨hbefore, -, hafter⟩ := hnew (.inr (.inl trivial))
      · exact hentry
      · exact ⟨hbefore, hafter⟩

-- An edit takes no text of another entry.
def EditsApart (history : List Command) : Operation → Prop
  | .editCommand command newText =>
      command ∈ history.map Command.text → newText = command ∨ newText ∉ history.map Command.text
  | _ => True

theorem distinct_change (operation : Operation) (h : Distinct history) :
    Distinct (change history operation) ↔ EditsApart history operation := by
  cases operation with
  | addCommand command =>
      refine iff_of_true ?_ trivial
      rw [change]
      split
      · exact h
      · exact h.add
  | pinCommand command => exact iff_of_true ((distinct_update (by intro _; rfl)).mpr h) trivial
  | unpinCommand command => exact iff_of_true ((distinct_update (by intro _; rfl)).mpr h) trivial
  | deleteCommand command => exact iff_of_true (h.sublist List.filter_sublist) trivial
  | renameCommand command newName => exact iff_of_true ((distinct_update (by intro _; rfl)).mpr h) trivial
  | editCommand command newText => exact distinct_edit h
  | clearAllHistory => exact iff_of_true List.nodup_nil trivial
  | clearUnpinnedHistory => exact iff_of_true (h.sublist List.filter_sublist) trivial

-- The texts stay distinct in the runs whose edits take no text of another entry.
theorem always_distinct_iff {texts : FloatTexts} {stored : Stored} (hempty : getHistory texts stored = [])
    (operations : List Operation) :
    Always (step texts) (fun stored => Distinct (getHistory texts stored)) stored operations ↔
      Allowed (step texts) (fun stored => EditsApart (getHistory texts stored)) stored operations := by
  rw [always_map entryStep_getHistory, allowed_map entryStep_getHistory, hempty]
  refine always_iff_allowed Distinct EditsApart (fun history operation after h hstep => ?_)
    (fun _ _ _ hnone => absurd hnone (Option.some_ne_none _)) List.nodup_nil
  rw [← Option.some.inj hstep]
  exact distinct_change operation h

def noTexts : FloatTexts := { float := fun _ => "", double := fun _ => "" }

-- Commands that stay apart: one is edited to a text that nothing has.
theorem always_distinct_edited :
    Always (step noTexts) (fun stored => Distinct (getHistory noTexts stored)) none
      [.addCommand "-s1", .addCommand "-d1", .pinCommand "-s1", .editCommand "-s1" "-s2"] :=
  (always_distinct_iff rfl _).mpr ((allowed_map entryStep_getHistory _).mpr (by
    simp [Allowed, EditsApart, entryStep, change, add, find, update, isBlank, isBlankChar, isWhitespace, isSpaceChar,
      maxHistorySize, getHistory]))

-- An edit to the text of another command.
theorem not_always_distinct_edited :
    getHistory noTexts none = [] ∧
      ¬Always (step noTexts) (fun stored => Distinct (getHistory noTexts stored)) none
        [.addCommand "-s1", .addCommand "-d1", .editCommand "-s1" "-d1"] := by
  refine ⟨rfl, ?_⟩
  rw [always_map entryStep_getHistory]
  simp [Always, Distinct, entryStep, change, add, find, update, isBlank, isBlankChar, isWhitespace, isSpaceChar,
    maxHistorySize, getHistory]

end ToInet.Byedpi.HistoryUtils
