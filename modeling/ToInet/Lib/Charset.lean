import Mathlib.Data.List.Count
import Mathlib.Data.List.Basic
import ToInet.Lib.Bytes
import ToInet.Lib.Lines

-- Decoding of bytes as UTF-8, where what is malformed is replaced.
namespace ToInet.Lib

def IsAscii (b : UInt8) : Prop := b.toNat < 128

instance : DecidablePred IsAscii := fun b => inferInstanceAs (Decidable (b.toNat < 128))

def asciiChar (b : UInt8) : Char := Char.ofNat b.toNat

-- A byte below 128 is a character of its own, whatever stands around it. Other bytes give at least
-- one character, and none below 128. What a text is encoded as is decoded to it.
structure Charset where
  decode : Bytes → List Char
  decode_ascii : ∀ before b after, IsAscii b →
    decode (before ++ b :: after) = decode before ++ asciiChar b :: decode after
  decode_other : ∀ bytes, bytes ≠ [] → (∀ b ∈ bytes, ¬IsAscii b) →
    decode bytes ≠ [] ∧ ∀ c ∈ decode bytes, 128 ≤ c.toNat
  decode_text : ∀ text : String, decode (toByteArray text) = text.toList

theorem toNat_asciiChar (b : UInt8) : (asciiChar b).toNat = b.toNat := by
  have hvalid : b.toNat.isValidChar := Or.inl (by have := b.toNat_lt; omega)
  rw [asciiChar, Char.ofNat, dif_pos hvalid]
  rfl

theorem asciiChar_inj {b other : UInt8} (hsame : asciiChar b = asciiChar other) : b = other := by
  have hnat := congrArg Char.toNat hsame
  rw [toNat_asciiChar, toNat_asciiChar] at hnat
  exact UInt8.toNat_inj.mp hnat

-- Bytes are taken apart at those below 128.
theorem ascii_induction {motive : Bytes → Prop} (run : ∀ run, (∀ b ∈ run, ¬IsAscii b) → motive run)
    (step : ∀ run b rest, (∀ x ∈ run, ¬IsAscii x) → IsAscii b → motive rest → motive (run ++ b :: rest))
    (bytes : Bytes) : motive bytes :=
  separator_induction IsAscii run step bytes

namespace Charset

variable (charset : Charset)

@[simp] theorem decode_nil : charset.decode [] = [] := charset.decode_text ""

theorem decode_cons_ascii {b : UInt8} (h : IsAscii b) (bytes : Bytes) :
    charset.decode (b :: bytes) = asciiChar b :: charset.decode bytes := by
  have hdecode := charset.decode_ascii [] b bytes h
  rwa [List.nil_append, decode_nil, List.nil_append] at hdecode

theorem decode_append_ascii {front : Bytes} (h : ∀ b ∈ front, IsAscii b) (rest : Bytes) :
    charset.decode (front ++ rest) = front.map asciiChar ++ charset.decode rest := by
  induction front with
  | nil => rfl
  | cons b front ih =>
      rw [List.cons_append, charset.decode_cons_ascii (h b List.mem_cons_self), List.map_cons, List.cons_append,
        ih fun x hx => h x (List.mem_cons_of_mem _ hx)]

theorem decode_of_ascii {bytes : Bytes} (h : ∀ b ∈ bytes, IsAscii b) :
    charset.decode bytes = bytes.map asciiChar := by
  have hdecode := charset.decode_append_ascii h []
  rwa [List.append_nil, decode_nil, List.append_nil] at hdecode

-- The characters of a run of bytes that are not below 128 are not either.
theorem decode_run {run : Bytes} (h : ∀ b ∈ run, ¬IsAscii b) : ∀ c ∈ charset.decode run, 128 ≤ c.toNat := by
  by_cases hnil : run = []
  · rw [hnil, decode_nil]
    nofun
  · exact (charset.decode_other run hnil h).2

theorem exists_byte_of_mem_decode {bytes : Bytes} {c : Char} (hc : c.toNat < 128) (h : c ∈ charset.decode bytes) :
    ∃ b ∈ bytes, IsAscii b ∧ c = asciiChar b := by
  induction bytes using ascii_induction with
  | run run hrun =>
      have hge := charset.decode_run hrun c h
      omega
  | step run b rest hrun hb ih =>
      rw [charset.decode_ascii run b rest hb, List.mem_append, List.mem_cons] at h
      obtain hleft | rfl | hright := h
      · have hge := charset.decode_run hrun c hleft
        omega
      · exact ⟨b, by simp, hb, rfl⟩
      · obtain ⟨x, hx, hascii⟩ := ih hright
        exact ⟨x, by simp [hx], hascii⟩

-- A byte below 128 is found as often in the text as in the bytes.
theorem count_decode {b : UInt8} (hb : IsAscii b) (bytes : Bytes) :
    (charset.decode bytes).count (asciiChar b) = bytes.count b := by
  have hzero {run : Bytes} (hrun : ∀ x ∈ run, ¬IsAscii x) :
      (charset.decode run).count (asciiChar b) = 0 ∧ run.count b = 0 := by
    refine ⟨List.count_eq_zero.mpr fun hmem => ?_, List.count_eq_zero.mpr fun hmem => hrun b hmem hb⟩
    have hge := charset.decode_run hrun _ hmem
    rw [toNat_asciiChar] at hge
    unfold IsAscii at hb
    omega
  induction bytes using ascii_induction with
  | run run hrun => rw [(hzero hrun).1, (hzero hrun).2]
  | step run x rest hrun hx ih =>
      rw [charset.decode_ascii run x rest hx, List.count_append, List.count_append, List.count_cons, List.count_cons,
        ih, (hzero hrun).1, (hzero hrun).2]
      by_cases hsame : x = b
      · simp [hsame]
      · have hne : asciiChar x ≠ asciiChar b := fun h => hsame (asciiChar_inj h)
        simp [hsame, hne]

-- As many characters below 128 as bytes.
theorem countP_decode (bytes : Bytes) :
    (charset.decode bytes).countP (fun c => c.toNat < 128) = bytes.countP fun b => IsAscii b := by
  have hzero {run : Bytes} (hrun : ∀ x ∈ run, ¬IsAscii x) :
      (charset.decode run).countP (fun c => c.toNat < 128) = 0 ∧ run.countP (fun b => IsAscii b) = 0 := by
    refine ⟨List.countP_eq_zero.mpr fun c hc => ?_, List.countP_eq_zero.mpr fun b hb => by simpa using hrun b hb⟩
    have hge := charset.decode_run hrun c hc
    rw [decide_eq_true_eq]
    omega
  induction bytes using ascii_induction with
  | run run hrun => rw [(hzero hrun).1, (hzero hrun).2]
  | step run x rest hrun hx ih =>
      have hchar : (asciiChar x).toNat < 128 := by
        rw [toNat_asciiChar]
        exact hx
      rw [charset.decode_ascii run x rest hx, List.countP_append, List.countP_append, List.countP_cons,
        List.countP_cons, ih, (hzero hrun).1, (hzero hrun).2]
      simp [hchar, hx]

theorem ascii_of_decode {bytes : Bytes} (h : ∀ c ∈ charset.decode bytes, c.toNat < 128) : ∀ b ∈ bytes, IsAscii b := by
  have hnil {run : Bytes} (hrun : ∀ b ∈ run, ¬IsAscii b) (hlow : ∀ c ∈ charset.decode run, c.toNat < 128) :
      run = [] := by
    by_contra hne
    obtain ⟨hdecode, hge⟩ := charset.decode_other run hne hrun
    obtain ⟨c, rest, hc⟩ := List.exists_cons_of_ne_nil hdecode
    have hmem : c ∈ charset.decode run := by
      rw [hc]
      exact List.mem_cons_self
    have hlt := hlow c hmem
    have hle := hge c hmem
    omega
  induction bytes using ascii_induction with
  | run run hrun =>
      rw [hnil hrun h]
      nofun
  | step run b rest hrun hb ih =>
      rw [charset.decode_ascii run b rest hb] at h
      have hempty := hnil hrun fun c hc => h c (List.mem_append_left _ hc)
      have hrest := ih fun c hc => h c (List.mem_append_right _ (List.mem_cons_of_mem _ hc))
      subst hempty
      intro x hx
      obtain rfl | hx := List.mem_cons.mp hx
      · exact hb
      · exact hrest x hx

-- A text of characters below 128 is decoded from nothing but its own bytes.
theorem eq_toByteArray_of_decode {bytes : Bytes} {text : String} (htext : ∀ c ∈ text.toList, c.toNat < 128)
    (h : charset.decode bytes = text.toList) : bytes = toByteArray text := by
  have hbytes := charset.ascii_of_decode (h ▸ htext)
  have hself := charset.ascii_of_decode (charset.decode_text text ▸ htext)
  have hsame : bytes.map asciiChar = (toByteArray text).map asciiChar := by
    rw [← charset.decode_of_ascii hbytes, ← charset.decode_of_ascii hself, h, charset.decode_text]
  exact (List.map_inj_right fun _ _ => asciiChar_inj).mp hsame

theorem decode_text_append {text : String} (h : ∀ c ∈ text.toList, c.toNat < 128) (rest : Bytes) :
    charset.decode (toByteArray text ++ rest) = text.toList ++ charset.decode rest := by
  have hbytes := charset.ascii_of_decode (charset.decode_text text ▸ h)
  rw [charset.decode_append_ascii hbytes, ← charset.decode_of_ascii hbytes, charset.decode_text]

theorem decode_eq_nil {bytes : Bytes} : charset.decode bytes = [] ↔ bytes = [] := by
  constructor
  · intro h
    have hascii : ∀ b ∈ bytes, IsAscii b := charset.ascii_of_decode (h ▸ nofun)
    rw [charset.decode_of_ascii hascii] at h
    exact List.map_eq_nil_iff.mp h
  · rintro rfl
    exact charset.decode_nil

theorem isBreak_asciiChar {b : UInt8} : Lines.IsBreak '\r' '\n' (asciiChar b) ↔ Lines.IsBreak 13 10 b :=
  or_congr (show asciiChar b = asciiChar 10 ↔ b = 10 from ⟨asciiChar_inj, congrArg _⟩)
    (show asciiChar b = asciiChar 13 ↔ b = 13 from ⟨asciiChar_inj, congrArg _⟩)

theorem not_isBreak_decode {run : Bytes} (h : ∀ b ∈ run, ¬Lines.IsBreak 13 10 b) :
    ∀ c ∈ charset.decode run, ¬Lines.IsBreak '\r' '\n' c := by
  intro c hc hbreak
  have hlow : c.toNat < 128 := by
    obtain rfl | rfl := hbreak <;> decide
  obtain ⟨b, hb, _, rfl⟩ := charset.exists_byte_of_mem_decode hlow hc
  exact h b hb (isBreak_asciiChar.mp hbreak)

theorem isAscii_of_isBreak {b : UInt8} (h : Lines.IsBreak 13 10 b) : IsAscii b := by
  obtain rfl | rfl := h <;> decide

theorem push_map_decode {b : UInt8} (h : Lines.IsBreak 13 10 b) (s : Lines UInt8) :
    Lines.push '\r' '\n' (s.map charset.decode) (asciiChar b) = (Lines.push 13 10 s b).map charset.decode := by
  obtain rfl | rfl := h
  · have hchar : asciiChar 10 = '\n' := rfl
    cases hafter : s.afterCr <;> simp [Lines.push, Lines.map, hchar, hafter]
  · have hchar : asciiChar 13 = '\r' := rfl
    simp [Lines.push, Lines.map, hchar]

-- The lines of a text are those of its bytes.
theorem foldl_push_decode (bytes : Bytes) {s : Lines UInt8} (hline : s.line = []) :
    (charset.decode bytes).foldl (Lines.push '\r' '\n') (s.map charset.decode) =
      (bytes.foldl (Lines.push 13 10) s).map charset.decode := by
  have htext {run : Bytes} (hrun : ∀ b ∈ run, ¬Lines.IsBreak 13 10 b) {s : Lines UInt8} (hline : s.line = []) :
      (charset.decode run).foldl (Lines.push '\r' '\n') (s.map charset.decode) =
        (run.foldl (Lines.push 13 10) s).map charset.decode := by
    have hempty : (charset.decode run).isEmpty = run.isEmpty := by
      rw [Bool.eq_iff_iff, List.isEmpty_iff, List.isEmpty_iff, decode_eq_nil]
    rw [Lines.foldl_push_text (charset.not_isBreak_decode hrun), Lines.foldl_push_text hrun]
    simp [Lines.map, hline, hempty]
  induction bytes using separator_induction (Lines.IsBreak (13 : UInt8) 10) generalizing s with
  | run run hrun => exact htext hrun hline
  | step run b rest hrun hb ih =>
      have hnext : (Lines.push 13 10 (run.foldl (Lines.push 13 10) s) b).line = [] := by
        rw [Lines.foldl_push_text hrun]
        obtain rfl | rfl := hb
        · cases hafter : s.afterCr <;> cases hempty : run.isEmpty <;> simp_all [Lines.push]
        · simp [Lines.push]
      rw [charset.decode_ascii run b rest (isAscii_of_isBreak hb), List.foldl_append, List.foldl_append,
        List.foldl_cons, List.foldl_cons, htext hrun hline, push_map_decode charset hb, ih hnext]

theorem read_decode (bytes : Bytes) :
    Lines.read '\r' '\n' (charset.decode bytes) = (Lines.read 13 10 bytes).map charset.decode := by
  have hstart : Lines.start Char = (Lines.start UInt8).map charset.decode := by simp [Lines.start, Lines.map]
  rw [Lines.read, hstart, foldl_push_decode charset bytes rfl, Lines.read]

end Charset

-- What lies between bytes below 128 is decoded when it is well formed, and replaced otherwise.
def decodeRun (run : Bytes) : List Char :=
  if run = [] then []
  else
    match (ByteArray.mk run.toArray).utf8Decode? with
    | some chars => chars.toList
    | none => run.map fun _ => '\uFFFD'

def decodeFrom : Bytes → Bytes → List Char
  | run, [] => decodeRun run
  | run, b :: bytes =>
      if IsAscii b then decodeRun run ++ asciiChar b :: decodeFrom [] bytes else decodeFrom (run ++ [b]) bytes

theorem decodeFrom_ascii {b : UInt8} (h : IsAscii b) (run before after : Bytes) :
    decodeFrom run (before ++ b :: after) = decodeFrom run before ++ asciiChar b :: decodeFrom [] after := by
  induction before generalizing run with
  | nil =>
      rw [List.nil_append, decodeFrom.eq_2, if_pos h]
      rfl
  | cons x before ih =>
      rw [List.cons_append, decodeFrom, decodeFrom]
      split
      · rw [ih, List.append_assoc, List.cons_append]
      · exact ih _

theorem decodeFrom_run {run bytes : Bytes} (h : ∀ b ∈ bytes, ¬IsAscii b) (rest : Bytes) :
    decodeFrom run (bytes ++ rest) = decodeFrom (run ++ bytes) rest := by
  induction bytes generalizing run with
  | nil => rw [List.nil_append, List.append_nil]
  | cons b bytes ih =>
      rw [List.cons_append, decodeFrom, if_neg (h b List.mem_cons_self), ih fun x hx => h x (List.mem_cons_of_mem _ hx),
        List.append_assoc, List.singleton_append]

theorem toByteArray_eq (text : String) : toByteArray text = text.toList.flatMap String.utf8EncodeChar := by
  have hencode : text.toUTF8 = text.toList.utf8Encode := by simp
  rw [toByteArray, hencode, List.utf8Encode, List.data_toByteArray]

theorem toByteArray_append (text other : String) :
    toByteArray (text ++ other) = toByteArray text ++ toByteArray other := by
  rw [toByteArray_eq, toByteArray_eq, toByteArray_eq, String.toList_append, List.flatMap_append]

theorem utf8EncodeChar_ascii {c : Char} (h : c.toNat < 128) :
    ∃ b, String.utf8EncodeChar c = [b] ∧ IsAscii b ∧ asciiChar b = c := by
  have hval : c.val ≤ 127 := by
    rw [UInt32.le_iff_toNat_le]
    exact Nat.le_of_lt_succ h
  have hsize := Char.utf8Size_eq_one_iff.mpr hval
  have hnat : c.val.toUInt8.toNat = c.toNat := by
    rw [UInt32.toNat_toUInt8]
    exact Nat.mod_eq_of_lt (by unfold Char.toNat at h; omega)
  refine ⟨c.val.toUInt8, String.utf8EncodeChar_eq_singleton hsize, ?_, ?_⟩
  · rw [IsAscii, hnat]
    exact h
  · rw [asciiChar, hnat, Char.ofNat_toNat]

theorem not_ascii_or (x : UInt8) {mark : UInt8} (h : 128 ≤ mark.toNat) : ¬IsAscii (x ||| mark) := by
  have hle : mark.toNat ≤ (x ||| mark).toNat := by
    rw [UInt8.toNat_or]
    exact Nat.right_le_or
  unfold IsAscii
  omega

-- The bytes of another character are all marked.
theorem utf8EncodeChar_other {c : Char} (h : ¬c.toNat < 128) : ∀ b ∈ String.utf8EncodeChar c, ¬IsAscii b := by
  have hmark {front : Bytes} (marks : List (UInt8 × UInt8)) (hfront : front = marks.map fun m => m.1 ||| m.2)
      (hmarks : ∀ m ∈ marks, 128 ≤ m.2.toNat) : ∀ b ∈ front, ¬IsAscii b := by
    intro b hb
    rw [hfront] at hb
    obtain ⟨m, hm, rfl⟩ := List.mem_map.mp hb
    exact not_ascii_or m.1 (hmarks m hm)
  rcases c.utf8Size_eq with hsize | hsize | hsize | hsize
  · have hval := UInt32.le_iff_toNat_le.mp (Char.utf8Size_eq_one_iff.mp hsize)
    exact absurd (Nat.lt_succ_of_le hval) h
  · rw [String.utf8EncodeChar_eq_cons_cons hsize]
    exact hmark [(_, 192), (_, 128)] rfl (by simp)
  · rw [String.utf8EncodeChar_eq_cons_cons_cons hsize]
    exact hmark [(_, 224), (_, 128), (_, 128)] rfl (by simp)
  · rw [String.utf8EncodeChar_eq_cons_cons_cons_cons hsize]
    exact hmark [(_, 240), (_, 128), (_, 128), (_, 128)] rfl (by simp)

theorem decodeRun_encode (chars : List Char) : decodeRun (chars.flatMap String.utf8EncodeChar) = chars := by
  unfold decodeRun
  split
  · rename_i hnil
    rw [List.flatMap_eq_nil_iff] at hnil
    cases chars with
    | nil => rfl
    | cons c chars => exact absurd (hnil c List.mem_cons_self) String.utf8EncodeChar_ne_nil
  · have hdecode : (ByteArray.mk (chars.flatMap String.utf8EncodeChar).toArray).utf8Decode? = some chars.toArray := by
      rw [← List.utf8Decode?_utf8Encode, List.utf8Encode]
      congr 1
      exact ByteArray.ext (List.data_toByteArray).symm
    rw [hdecode]

theorem decodeFrom_encode {front chars : List Char} (hfront : ∀ c ∈ front, ¬c.toNat < 128) :
    decodeFrom (front.flatMap String.utf8EncodeChar) (chars.flatMap String.utf8EncodeChar) = front ++ chars := by
  induction chars generalizing front with
  | nil => rw [List.flatMap_nil, decodeFrom, decodeRun_encode, List.append_nil]
  | cons c chars ih =>
      rw [List.flatMap_cons]
      by_cases hc : c.toNat < 128
      · obtain ⟨b, hencode, hb, hchar⟩ := utf8EncodeChar_ascii hc
        have hrest := @ih [] nofun
        rw [List.flatMap_nil, List.nil_append] at hrest
        rw [hencode, List.singleton_append, decodeFrom, if_pos hb, decodeRun_encode, hrest, hchar]
      · have hmore : ∀ x ∈ front ++ [c], ¬x.toNat < 128 := by
          intro x hx
          obtain hx | hx := List.mem_append.mp hx
          · exact hfront x hx
          · rw [List.mem_singleton.mp hx]
            exact hc
        have hnext := ih hmore
        rw [List.flatMap_append, List.flatMap_singleton, List.append_assoc, List.singleton_append] at hnext
        rw [← hnext]
        exact decodeFrom_run (utf8EncodeChar_other hc) _

theorem decodeRun_other {run : Bytes} (hne : run ≠ []) (h : ∀ b ∈ run, ¬IsAscii b) :
    decodeRun run ≠ [] ∧ ∀ c ∈ decodeRun run, 128 ≤ c.toNat := by
  rw [decodeRun, if_neg hne]
  cases hdecode : (ByteArray.mk run.toArray).utf8Decode? with
  | none =>
      refine ⟨by simpa using hne, fun c hc => ?_⟩
      obtain ⟨_, _, rfl⟩ := List.mem_map.mp hc
      decide
  | some chars =>
      have hsome : (ByteArray.mk run.toArray).utf8Decode?.isSome = true := by rw [hdecode]; rfl
      have hencode := ByteArray.utf8Encode_get_utf8Decode? (h := hsome)
      simp only [hdecode, Option.get_some] at hencode
      have hrun : chars.toList.flatMap String.utf8EncodeChar = run := by
        have hdata := congrArg (fun array => array.data.toList) hencode
        simpa [List.utf8Encode, List.data_toByteArray] using hdata
      refine ⟨?_, fun c hc => ?_⟩
      · intro hnil
        simp only [Array.toList_eq_nil_iff] at hnil
        rw [hnil] at hrun
        exact hne hrun.symm
      · by_contra hlow
        obtain ⟨b, hb, hascii, _⟩ := utf8EncodeChar_ascii (Nat.lt_of_not_le hlow)
        refine h b ?_ hascii
        rw [← hrun]
        exact List.mem_flatMap.mpr ⟨c, hc, by rw [hb]; exact List.mem_singleton_self b⟩

def utf8 : Charset where
  decode := decodeFrom []
  decode_ascii before b after h := decodeFrom_ascii h [] before after
  decode_other bytes hne h := by
    have hrun := @decodeFrom_run [] _ h []
    rw [List.append_nil, List.nil_append] at hrun
    rw [hrun]
    exact decodeRun_other hne h
  decode_text text := by
    have hencode := @decodeFrom_encode [] text.toList nofun
    rwa [← toByteArray_eq] at hencode

theorem map_asciiChar_toByteArray {text : String} (h : ∀ c ∈ text.toList, c.toNat < 128) :
    (toByteArray text).map asciiChar = text.toList := by
  have hbytes := utf8.ascii_of_decode (utf8.decode_text text ▸ h)
  rw [← utf8.decode_of_ascii hbytes, utf8.decode_text]

end ToInet.Lib
