import ToInet.Circumvention.Bridge
import ToInet.Util.Prefs.Theorems

-- The pieces of a bridge line, and what its parameters are read from.
namespace ToInet.Circumvention.Bridge

open ToInet.Lib ToInet.Util

variable {bridge : Bridge} {key : String} {piece value : List Char}

-- The keys that the builder knows, in the order in which it writes them.
def keys : List String :=
  ["fingerprint", "url", "front", "fronts", "cert", "iat-mode", "ice", "utls", "utls-imitate", "ver"]

theorem notMem_keys : ∀ key ∈ keys, '=' ∉ key.toList ∧ ':' ∉ key.toList ∧ ' ' ∉ key.toList :=
  forall_mem_of_all (by decide)

def found (key : String) (pieces : List (List Char)) : Option (List Char) :=
  (pieces.find? (startsWith key)).map (lastPart '=')

@[simp] theorem found_nil (key : String) : found key [] = none := rfl

theorem found_append (key : String) (front back : List (List Char)) :
    found key (front ++ back) = (found key front).or (found key back) := by
  rw [found, List.find?_append]
  cases hfind : front.find? (startsWith key) <;> simp [found, hfind]

theorem found_cons (key : String) (piece : List Char) (pieces : List (List Char)) :
    found key (piece :: pieces) = if startsWith key piece then some (lastPart '=' piece) else found key pieces := by
  rw [found, List.find?_cons]
  cases startsWith key piece <;> rfl

theorem startsWith_iff : startsWith key piece = true ↔ ∃ value, piece = key.toList ++ '=' :: value := by
  rw [startsWith, List.isPrefixOf_iff_prefix]
  constructor
  · rintro ⟨value, rfl⟩
    exact ⟨value, by simp⟩
  · rintro ⟨value, rfl⟩
    exact ⟨value, by simp⟩

theorem not_startsWith (h : '=' ∉ piece) : startsWith key piece = false := by
  rw [← Bool.not_eq_true, startsWith_iff]
  rintro ⟨value, rfl⟩
  exact h (by simp)

-- A parameter has one key.
theorem startsWith_named {other : String} (hkey : '=' ∉ key.toList) (hother : '=' ∉ other.toList) :
    startsWith key (other.toList ++ '=' :: value) = true ↔ other = key := by
  rw [startsWith_iff]
  constructor
  · rintro ⟨content, h⟩
    have htake := congrArg (List.takeWhile (· ≠ '=')) h
    rw [takeWhile_ne hother, takeWhile_ne hkey] at htake
    exact String.toList_inj.mp htake
  · rintro rfl
    exact ⟨value, rfl⟩

-- What stands behind a colon has no part in the key.
theorem startsWith_colon (hkey : ':' ∉ key.toList) (front back : List Char) :
    startsWith key (front ++ ':' :: back) = startsWith key front := by
  have hchars : ':' ∉ key.toList ++ ['='] := by simpa using hkey
  rw [Bool.eq_iff_iff, startsWith, startsWith, List.isPrefixOf_iff_prefix, List.isPrefixOf_iff_prefix]
  constructor
  · rintro ⟨rest, h⟩
    obtain ⟨more, hfront, _⟩ | ⟨more, hkey, hback⟩ := List.append_eq_append_iff.mp h
    · exact ⟨more, hfront.symm⟩
    · cases more with
      | nil => rw [hkey, List.append_nil]
      | cons c more =>
          obtain rfl := (List.cons.inj hback).1
          rw [hkey] at hchars
          exact absurd (List.mem_append_right front List.mem_cons_self) hchars
  · exact fun h => h.trans (List.prefix_append _ _)

-- Two pieces at most are taken for a vanilla bridge.
theorem rawPieces_cases (bridge : Bridge) :
    (∃ first second third rest, bridge.raw.splitOn ' ' = first :: second :: third :: rest ∧
      bridge.rawPieces = first :: second :: third :: rest) ∨
    (∃ first, bridge.raw.splitOn ' ' = [first] ∧ bridge.rawPieces = [[], first]) ∨
    ∃ first second, bridge.raw.splitOn ' ' = [first, second] ∧ bridge.rawPieces = [[], first, second] := by
  unfold rawPieces
  have hne := List.splitOn_ne_nil ' ' bridge.raw
  match hsplit : bridge.raw.splitOn ' ' with
  | [] => exact absurd hsplit hne
  | [first] => exact .inr (.inl ⟨first, rfl, rfl⟩)
  | [first, second] => exact .inr (.inr ⟨first, second, rfl, rfl⟩)
  | first :: second :: third :: rest => exact .inl ⟨first, second, third, rest, rfl, if_neg (by simp)⟩

-- A line with a piece behind the first two.
theorem splitOn_three {raw first second third : List Char} {rest : List (List Char)}
    (h : raw.splitOn ' ' = first :: second :: third :: rest) :
    ∃ more, raw = first ++ ' ' :: (second ++ ' ' :: more) ∧ more.takeWhile (· ≠ ' ') = third := by
  have hjoin := join_splitOn ' ' raw
  have hspace : ∀ piece ∈ third :: rest, ' ' ∉ piece := fun piece hpiece =>
    notMem_of_mem_splitOn
    (show piece ∈ raw.splitOn ' ' by rw [h]; exact List.mem_cons_of_mem _ (List.mem_cons_of_mem _ hpiece))
  refine ⟨[' '].intercalate (third :: rest), ?_, ?_⟩
  · rw [h, List.intercalate_cons_cons, List.intercalate_cons_cons] at hjoin
    simpa using hjoin.symm
  · have hhead := head?_splitOn ' ' ([' '].intercalate (third :: rest))
    rw [List.splitOn_intercalate ' ' hspace (List.cons_ne_nil _ _)] at hhead
    exact (Option.some.inj hhead).symm

theorem rawPieces_of_raw {first second more : List Char} (hraw : bridge.raw = first ++ ' ' :: (second ++ ' ' :: more))
    (hfirst : ' ' ∉ first) (hsecond : ' ' ∉ second) : bridge.rawPieces = first :: second :: more.splitOn ' ' := by
  have hsplit : bridge.raw.splitOn ' ' = first :: second :: more.splitOn ' ' := by
    rw [hraw, List.splitOn_append_cons_self_of_not_mem hfirst, List.splitOn_append_cons_self_of_not_mem hsecond]
  have hlength := List.length_pos_of_ne_nil (List.splitOn_ne_nil ' ' more)
  rw [rawPieces, hsplit, if_neg]
  simp only [List.length_cons]
  omega

theorem exists_rawPieces (bridge : Bridge) : ∃ first second rest, bridge.rawPieces = first :: second :: rest := by
  obtain ⟨first, second, third, rest, _, h⟩ | ⟨first, _, h⟩ | ⟨first, second, _, h⟩ := rawPieces_cases bridge
  · exact ⟨first, second, third :: rest, h⟩
  · exact ⟨[], first, [], h⟩
  · exact ⟨[], first, [second], h⟩

theorem transport_of_rawPieces {first : List Char} {rest : List (List Char)} (h : bridge.rawPieces = first :: rest) :
    bridge.transport = if first = [] then none else some first := by
  rw [transport, h, List.head?_cons]
  cases first <;> rfl

theorem address_of_rawPieces {first second : List Char} {rest : List (List Char)}
    (h : bridge.rawPieces = first :: second :: rest) : bridge.address = some second := by
  rw [address, h]
  rfl

theorem isFingerprint_iff {text : List Char} :
    isFingerprint text = true ↔ text.length = 40 ∧ ∀ c ∈ text, (digitVal c).isSome := by
  rw [isFingerprint, decide_eq_true_eq, List.all_eq_true]

theorem fingerprint1_of_rawPieces {first second : List Char} {rest : List (List Char)}
    (h : bridge.rawPieces = first :: second :: rest) : bridge.fingerprint1 = rest.head?.filter isFingerprint := by
  rw [fingerprint1, h, List.getElem?_cons_succ, List.getElem?_cons_succ, List.head?_eq_getElem?]

theorem param_of_rawPieces {first second : List Char} {rest : List (List Char)}
    (h : bridge.rawPieces = first :: second :: rest) (key : String) :
    bridge.param key =
      if startsWith key first then some (lastPart '=' first)
      else if startsWith key second then some (lastPart '=' second) else found key rest := by
  rw [← found_cons, ← found_cons, ← h]
  rfl

theorem space_notMem (h : piece ∈ bridge.rawPieces) : ' ' ∉ piece := by
  unfold rawPieces at h
  simp only at h
  split at h
  · obtain rfl | hmem := List.mem_cons.mp h
    · exact List.not_mem_nil
    · exact notMem_of_mem_splitOn hmem
  · exact notMem_of_mem_splitOn h

-- Pieces that are joined are the pieces of the line.
theorem rawPieces_join {pieces : List (List Char)} (hne : pieces ≠ []) (h : ∀ piece ∈ pieces, ' ' ∉ piece) :
    rawPieces ⟨[' '].intercalate pieces⟩ = if pieces.length < 3 then [] :: pieces else pieces := by
  rw [rawPieces, List.splitOn_intercalate ' ' h hne]

end ToInet.Circumvention.Bridge
