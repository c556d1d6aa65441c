import ToInet.Byedpi.Mpool
import ToInet.Byedpi.Packets.Parse

-- Whether a request is for a host of a list (extend.c).
namespace ToInet.Byedpi.Extend

open ToInet.Lib ToInet.Byedpi.Mpool ToInet.Byedpi.Packets

-- The pool that parse_hosts of main.c fills with the words of a list.
def hostsPool (words : List Bytes) : Mphdr := words.foldl (fun hdr word => (memAdd hdr word).1) memPool

-- The loop tries the host, and then what follows each of its dots.
def hostLoop (hosts : Mphdr) (host : Bytes) : Bool :=
  if host = [] then false
  else if (memGet hosts host).isSome then true
  else
    match _ : host.dropWhile (· ≠ 46) with
    | [] => false
    | _ :: rest => hostLoop hosts rest
termination_by host.length
decreasing_by
  rename_i hdrop
  have hle := (List.dropWhile_sublist (l := host) fun c => decide (c ≠ 46)).length_le
  rw [hdrop, List.length_cons] at hle
  exact hle

-- The host that a request names, by its SNI or its Host header.
def requestHost (buffer : Bytes) : Option Bytes :=
  match parseTls buffer with
  | some (offs, len + 1) => some ((buffer.drop offs).take (len + 1))
  | _ =>
      match parseHttp buffer with
      | some (offs, .ofNat (len + 1)) => some ((buffer.drop offs).take (len + 1))
      | _ => none

def checkHost (hosts : Mphdr) (buffer : Bytes) : Bool :=
  match requestHost buffer with
  | some host => hostLoop hosts host
  | none => false

-- A host belongs to a word if it is the word, or ends with a dot and the word.
def Under (host word : Bytes) : Prop := word ≠ [] ∧ (host = word ∨ ∃ sub, host = sub ++ 46 :: word)

theorem memGet_hostsPool (words : List Bytes) (key : Bytes) :
    (memGet (hostsPool words) key).isSome = true ↔ key ∈ words := by
  rw [hostsPool]
  have hfold (hdr : Mphdr) : (memGet (words.foldl (fun hdr word => (memAdd hdr word).1) hdr) key).isSome = true ↔
      (memGet hdr key).isSome = true ∨ key ∈ words := by
    induction words generalizing hdr with
    | nil => simp
    | cons word words ih =>
        rw [List.foldl_cons, ih, memGet_memAdd, List.mem_cons]
        by_cases hkey : key = word
        · simp [hkey]
        · simp [hkey]
  rw [hfold, memGet_memPool]
  simp

-- Without its first label a host is under the same words, apart from itself.
theorem under_iff_of_label {label rest word : Bytes} (hlabel : 46 ∉ label) :
    Under (label ++ 46 :: rest) word ↔ word ≠ [] ∧ label ++ 46 :: rest = word ∨ Under rest word := by
  rw [Under, Under]
  constructor
  · rintro ⟨hne, rfl | ⟨sub, heq⟩⟩
    · exact .inl ⟨hne, rfl⟩
    · right
      refine ⟨hne, ?_⟩
      rcases List.append_eq_append_iff.mp heq with ⟨tail, rfl, htail⟩ | ⟨tail, rfl, htail⟩
      · cases tail with
        | nil => exact .inl (List.cons.inj htail).2
        | cons c tail =>
            right
            exact ⟨tail, (List.cons.inj htail).2⟩
      · cases tail with
        | nil => exact .inl (List.cons.inj htail).2.symm
        | cons c tail =>
            obtain ⟨rfl, -⟩ := List.cons.inj htail
            exact absurd (List.mem_append_right sub List.mem_cons_self) hlabel
  · rintro (⟨hne, rfl⟩ | ⟨hne, rfl | ⟨sub, rfl⟩⟩)
    · exact ⟨hne, .inl rfl⟩
    · exact ⟨hne, .inr ⟨label, rfl⟩⟩
    · exact ⟨hne, .inr ⟨label ++ 46 :: sub, by simp⟩⟩

theorem not_under_of_label {label word : Bytes} (hlabel : 46 ∉ label) :
    Under label word ↔ word ≠ [] ∧ label = word := by
  refine and_congr_right fun _ => or_iff_left ?_
  rintro ⟨sub, rfl⟩
  exact hlabel (List.mem_append_right sub List.mem_cons_self)

theorem hostLoop_iff (words : List Bytes) (host : Bytes) :
    hostLoop (hostsPool words) host = true ↔ ∃ word ∈ words, Under host word := by
  fun_induction hostLoop (hostsPool words) host with
  | case1 => simp [Under]
  | case2 host hne hfound =>
      rw [memGet_hostsPool] at hfound
      exact iff_of_true rfl ⟨host, hfound, hne, .inl rfl⟩
  | case3 host hne hfound hdrop =>
      rw [memGet_hostsPool] at hfound
      have hlabel : 46 ∉ host := by
        rw [List.dropWhile_eq_nil_iff] at hdrop
        intro hmem
        simpa using hdrop 46 hmem
      refine iff_of_false Bool.false_ne_true ?_
      rintro ⟨word, hword, hunder⟩
      obtain ⟨-, rfl⟩ := (not_under_of_label hlabel).mp hunder
      exact hfound hword
  | case4 host hne hfound c rest hdrop ih =>
      rw [memGet_hostsPool] at hfound
      have hsplit := List.takeWhile_append_dropWhile (p := fun c : UInt8 => decide (c ≠ 46)) (l := host)
      have hdot : c = 46 := by
        have hhead := head_dropWhile (p := fun c : UInt8 => decide (c ≠ 46)) (l := host) c (by rw [hdrop]; rfl)
        simpa using hhead
      have hlabel : 46 ∉ host.takeWhile fun c => decide (c ≠ 46) := fun hmem => by
        simpa using List.mem_takeWhile_imp hmem
      rw [hdrop, hdot] at hsplit
      rw [ih]
      refine exists_congr fun word => and_congr_right fun hword => ?_
      rw [← hsplit, under_iff_of_label hlabel, hsplit]
      refine (or_iff_right ?_).symm
      rintro ⟨-, rfl⟩
      exact hfound hword

-- A list of hosts applies to a request exactly if the host that it names is on the list, or is below one that is.
theorem checkHost_iff (words : List Bytes) (buffer : Bytes) :
    checkHost (hostsPool words) buffer = true ↔
      ∃ host, requestHost buffer = some host ∧ ∃ word ∈ words, Under host word := by
  rw [checkHost]
  cases requestHost buffer with
  | none => simp
  | some host =>
      rw [hostLoop_iff]
      simp

end ToInet.Byedpi.Extend
