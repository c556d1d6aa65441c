import ToInet.Lib.Bytes

namespace ToInet.Lib

-- What successive reads into a buffer return before the end of the stream. No
-- read comes back empty and none exceeds the buffer.
structure Reads (bufferSize : Nat) where
  chunks : List Bytes
  nonempty : ∀ chunk ∈ chunks, chunk ≠ []
  bounded : ∀ chunk ∈ chunks, chunk.length ≤ bufferSize

namespace Reads

variable {bufferSize : Nat}

def bytes (reads : Reads bufferSize) : Bytes := reads.chunks.flatten

def first (reads : Reads bufferSize) : Bytes := reads.chunks.headD []

def rest (reads : Reads bufferSize) : Bytes := reads.chunks.tail.flatten

theorem first_append_rest (reads : Reads bufferSize) : reads.first ++ reads.rest = reads.bytes := by
  rw [first, rest, bytes]
  cases reads.chunks <;> simp

-- Of two segmentations of one stream, the shorter first read starts the longer.
theorem first_prefix (reads other : Reads bufferSize) (h : reads.bytes = other.bytes)
    (hle : reads.first.length ≤ other.first.length) :
    ∃ more, other.first = reads.first ++ more ∧ reads.rest = more ++ other.rest := by
  have hs : reads.first ++ reads.rest = other.first ++ other.rest := by
    rw [first_append_rest, first_append_rest, h]
  obtain ⟨more, hother, hrest⟩ | ⟨more, hreads, hrest⟩ := List.append_eq_append_iff.mp hs
  · exact ⟨more, hother, hrest⟩
  · have hm : more = [] := by
      have hl := congrArg List.length hreads
      rw [List.length_append] at hl
      exact List.length_eq_zero_iff.mp (by omega)
    subst more
    exact ⟨[], by simpa using hreads.symm, by simpa using hrest.symm⟩

end Reads

-- The part of a stream that is still to arrive, in the segments it arrives in. An
-- empty segment delivers nothing.
structure Input where
  segments : List Bytes

namespace Input

def bytes (input : Input) : Bytes := input.segments.flatten

def readSegments (len : Nat) : List Bytes → Option (Bytes × Input)
  | [] => none
  | segment :: rest =>
      if segment = [] then readSegments len rest
      else some (segment.take len, ⟨segment.drop len :: rest⟩)

-- A blocking read returns what has arrived, up to the length asked for, and
-- none at the end of the stream.
def read (input : Input) (len : Nat) : Option (Bytes × Input) := readSegments len input.segments

def readByte (input : Input) : Option (Nat × Input) := do
  let (chunk, rest) ← input.read 1
  let b ← chunk.head?
  return (b.toNat, rest)

theorem read_eq_none {input : Input} {len : Nat} : input.read len = none ↔ input.bytes = [] := by
  obtain ⟨segments⟩ := input
  simp only [read, bytes]
  induction segments with
  | nil => simp [readSegments]
  | cons segment rest ih =>
      by_cases hnil : segment = []
      · simp [readSegments, hnil, ih]
      · simp [readSegments, hnil]

theorem read_eq_some {input rest : Input} {len : Nat} {chunk : Bytes} (hlen : 0 < len)
    (h : input.read len = some (chunk, rest)) :
    chunk ≠ [] ∧ chunk.length ≤ len ∧ input.bytes = chunk ++ rest.bytes := by
  obtain ⟨segments⟩ := input
  simp only [read, bytes] at h ⊢
  induction segments with
  | nil => cases h
  | cons segment more ih =>
      rw [readSegments] at h
      split at h
      · rename_i hnil
        simpa [hnil] using ih h
      · rename_i hnil
        obtain ⟨rfl, rfl⟩ := Prod.mk.inj (Option.some.inj h)
        refine ⟨?_, ?_, ?_⟩
        · rw [Ne, List.take_eq_nil_iff, not_or]
          exact ⟨by omega, hnil⟩
        · rw [List.length_take]
          omega
        · rw [List.flatten_cons, List.flatten_cons, ← List.append_assoc, List.take_append_drop]

theorem read_one {input : Input} {b : UInt8} {more : Bytes} (h : input.bytes = b :: more) :
    ∃ rest, input.read 1 = some ([b], rest) ∧ rest.bytes = more := by
  cases hread : input.read 1 with
  | none => simp [read_eq_none.mp hread] at h
  | some result =>
      obtain ⟨chunk, rest⟩ := result
      obtain ⟨hne, hle, hsplit⟩ := read_eq_some (by decide) hread
      obtain ⟨c, tail, rfl⟩ := List.exists_cons_of_ne_nil hne
      have htail : tail = [] := by
        rw [List.length_cons] at hle
        exact List.length_eq_zero_iff.mp (by omega)
      subst htail
      rw [h, List.singleton_append, List.cons.injEq] at hsplit
      obtain ⟨rfl, rfl⟩ := hsplit
      exact ⟨rest, rfl, rfl⟩

theorem readByte_cons {input : Input} {b : UInt8} {more : Bytes} (h : input.bytes = b :: more) :
    ∃ rest, input.readByte = some (b.toNat, rest) ∧ rest.bytes = more := by
  obtain ⟨rest, hread, hrest⟩ := read_one h
  exact ⟨rest, by simp [readByte, hread], hrest⟩

theorem readByte_nil {input : Input} (h : input.bytes = []) : input.readByte = none := by
  simp [readByte, read_eq_none.mpr h]

-- Reads until a buffer is full, and gives none when the stream ends before it is.
def fillLoop (size : Nat) : Nat → Input → Bytes → Option (Bytes × Input)
  | 0, input, buf => if buf.length < size then none else some (buf, input)
  | fuel + 1, input, buf =>
      if buf.length < size then do
        let (chunk, input) ← input.read (size - buf.length)
        fillLoop size fuel input (buf ++ chunk)
      else some (buf, input)

-- Every read returns a byte at least, so there are no more reads than bytes.
def fill (input : Input) (size : Nat) : Option (Bytes × Input) := fillLoop size size input []

-- A read that asks for a whole field gets the next part of it.
theorem read_field {input : Input} {field more : Bytes} (h : input.bytes = field ++ more) (hfield : field ≠ []) :
    ∃ chunk tail rest, input.read field.length = some (chunk, rest) ∧ chunk ≠ [] ∧ field = chunk ++ tail ∧
      rest.bytes = tail ++ more := by
  have hne : input.bytes ≠ [] := by
    rw [h]
    exact fun hnil => hfield (List.append_eq_nil_iff.mp hnil).1
  obtain ⟨⟨chunk, rest⟩, hread⟩ := Option.ne_none_iff_exists'.mp
    (mt read_eq_none.mp hne : input.read field.length ≠ none)
  obtain ⟨hchunk, hle, hsplit⟩ := read_eq_some (List.length_pos_iff.mpr hfield) hread
  rw [h] at hsplit
  obtain ⟨a, ha, hmore⟩ | ⟨a, ha, hmore⟩ := List.append_eq_append_iff.mp hsplit
  · have hl := congrArg List.length ha
    rw [List.length_append] at hl
    obtain rfl : a = [] := List.length_eq_zero_iff.mp (by omega)
    exact ⟨chunk, [], rest, hread, hchunk, by simpa using ha.symm, by simpa using hmore.symm⟩
  · exact ⟨chunk, a, rest, hread, hchunk, ha, hmore⟩

theorem fillLoop_append (fuel : Nat) (input : Input) (buf field more : Bytes)
    (hinput : input.bytes = field ++ more) (hfuel : field.length ≤ fuel) :
    ∃ rest, fillLoop (buf.length + field.length) fuel input buf = some (buf ++ field, rest) ∧
      rest.bytes = more := by
  induction fuel generalizing input buf field with
  | zero =>
      obtain rfl : field = [] := List.length_eq_zero_iff.mp (by omega)
      exact ⟨input, by simp [fillLoop], hinput⟩
  | succ fuel ih =>
      rw [fillLoop]
      split
      · rename_i hlt
        have hfield : field ≠ [] := by
          rintro rfl
          simp at hlt
        obtain ⟨chunk, tail, rest, hread, hchunk, rfl, hrest⟩ := read_field hinput hfield
        have hpos : 0 < chunk.length := List.length_pos_iff.mpr hchunk
        obtain ⟨last, hloop, hlast⟩ := ih rest (buf ++ chunk) tail hrest
          (by rw [List.length_append] at hfuel; omega)
        refine ⟨last, ?_, hlast⟩
        rw [List.length_append, List.append_assoc, Nat.add_assoc, ← List.length_append] at hloop
        simp only [Nat.add_sub_cancel_left, hread, Option.bind_eq_bind, Option.bind_some, hloop]
      · rename_i hge
        obtain rfl : field = [] := List.length_eq_zero_iff.mp (by omega)
        exact ⟨input, by simp, hinput⟩

-- A field is read whole, however the stream is cut.
theorem fill_append {input : Input} {field more : Bytes} (hinput : input.bytes = field ++ more) :
    ∃ rest, input.fill field.length = some (field, rest) ∧ rest.bytes = more := by
  have h := fillLoop_append field.length input [] field more hinput (Nat.le_refl _)
  rwa [List.length_nil, Nat.zero_add] at h

theorem fillLoop_eq_some {size fuel : Nat} {input rest : Input} {buf field : Bytes}
    (hbuf : buf.length ≤ size) (h : fillLoop size fuel input buf = some (field, rest)) :
    field.length = size ∧ buf ++ input.bytes = field ++ rest.bytes := by
  induction fuel generalizing input buf with
  | zero =>
      rw [fillLoop] at h
      split at h
      · cases h
      · obtain ⟨rfl, rfl⟩ := Prod.mk.inj (Option.some.inj h)
        exact ⟨by omega, rfl⟩
  | succ fuel ih =>
      rw [fillLoop] at h
      split at h
      · obtain ⟨⟨chunk, next⟩, hread, hloop⟩ := Option.bind_eq_some_iff.mp h
        obtain ⟨_, hle, hsplit⟩ := read_eq_some (by omega) hread
        rw [hsplit, ← List.append_assoc]
        exact ih (by rw [List.length_append]; omega) hloop
      · obtain ⟨rfl, rfl⟩ := Prod.mk.inj (Option.some.inj h)
        exact ⟨by omega, rfl⟩

theorem fill_eq_some {size : Nat} {input rest : Input} {field : Bytes}
    (h : input.fill size = some (field, rest)) : field.length = size ∧ input.bytes = field ++ rest.bytes :=
  fillLoop_eq_some (Nat.zero_le size) h

-- What two inputs over the same bytes are filled from goes on alike.
theorem fill_congr {input other : Input} (size : Nat) (h : input.bytes = other.bytes) :
    (input.fill size = none ∧ other.fill size = none) ∨ ∃ field rest last,
      input.fill size = some (field, rest) ∧ other.fill size = some (field, last) ∧ rest.bytes = last.bytes := by
  by_cases hsize : size ≤ input.bytes.length
  · have hsplit := (List.take_append_drop size input.bytes).symm
    have hlength : (input.bytes.take size).length = size := by
      rw [List.length_take]
      omega
    obtain ⟨rest, hfill, hrest⟩ := fill_append hsplit
    obtain ⟨last, hlast, hsame⟩ := fill_append (h.symm.trans hsplit)
    rw [hlength] at hfill hlast
    exact .inr ⟨_, rest, last, hfill, hlast, hrest.trans hsame.symm⟩
  · have hnone {start : Input} (hbytes : start.bytes = input.bytes) : start.fill size = none := by
      rw [Option.eq_none_iff_forall_ne_some]
      rintro ⟨field, rest⟩ hfill
      obtain ⟨hlength, hsplit⟩ := fill_eq_some hfill
      have hl := congrArg List.length hsplit
      rw [hbytes, List.length_append] at hl
      omega
    exact .inl ⟨hnone rfl, hnone h.symm⟩

theorem readByte_congr {input other : Input} (h : input.bytes = other.bytes) :
    (input.readByte = none ∧ other.readByte = none) ∨ ∃ b rest last,
      input.readByte = some (b, rest) ∧ other.readByte = some (b, last) ∧ rest.bytes = last.bytes := by
  cases hbytes : input.bytes with
  | nil => exact .inl ⟨readByte_nil hbytes, readByte_nil (h.symm.trans hbytes)⟩
  | cons b more =>
      obtain ⟨rest, hread, hrest⟩ := readByte_cons hbytes
      obtain ⟨last, hlast, hsame⟩ := readByte_cons (h.symm.trans hbytes)
      exact .inr ⟨_, rest, last, hread, hlast, hrest.trans hsame.symm⟩

-- The reads of a loop that goes on to the end of the stream.
def chunksLoop (size : Nat) : Nat → Input → List Bytes
  | 0, _ => []
  | fuel + 1, input =>
      match input.read size with
      | none => []
      | some (chunk, rest) => chunk :: chunksLoop size fuel rest

def chunks (size : Nat) (input : Input) : List Bytes := chunksLoop size input.bytes.length input

theorem chunksLoop_flatten {size fuel : Nat} {input : Input} (hsize : 0 < size) (hfuel : input.bytes.length ≤ fuel) :
    (chunksLoop size fuel input).flatten = input.bytes := by
  induction fuel generalizing input with
  | zero => exact (List.length_eq_zero_iff.mp (Nat.le_zero.mp hfuel)).symm
  | succ fuel ih =>
      rw [chunksLoop]
      cases hread : input.read size with
      | none => exact (read_eq_none.mp hread).symm
      | some result =>
          obtain ⟨chunk, rest⟩ := result
          obtain ⟨hchunk, _, hsplit⟩ := read_eq_some hsize hread
          have hpos : 0 < chunk.length := List.length_pos_iff.mpr hchunk
          rw [hsplit, List.length_append] at hfuel
          rw [hsplit, List.flatten_cons, ih (by omega)]

-- Nothing is lost or repeated on the way through the buffer.
theorem chunks_flatten {size : Nat} (hsize : 0 < size) (input : Input) : (input.chunks size).flatten = input.bytes :=
  chunksLoop_flatten hsize (Nat.le_refl _)

theorem mem_chunksLoop {size fuel : Nat} {input : Input} {chunk : Bytes} (hsize : 0 < size)
    (h : chunk ∈ chunksLoop size fuel input) : chunk ≠ [] ∧ chunk.length ≤ size := by
  induction fuel generalizing input with
  | zero => cases h
  | succ fuel ih =>
      rw [chunksLoop] at h
      cases hread : input.read size with
      | none =>
          rw [hread] at h
          cases h
      | some result =>
          obtain ⟨first, rest⟩ := result
          obtain ⟨hfirst, hle, _⟩ := read_eq_some hsize hread
          rw [hread] at h
          obtain rfl | hlater := List.mem_cons.mp h
          · exact ⟨hfirst, hle⟩
          · exact ih hlater

def reads {size : Nat} (hsize : 0 < size) (input : Input) : Reads size where
  chunks := input.chunks size
  nonempty _ h := (mem_chunksLoop hsize h).1
  bounded _ h := (mem_chunksLoop hsize h).2

theorem reads_bytes {size : Nat} (hsize : 0 < size) (input : Input) : (input.reads hsize).bytes = input.bytes :=
  chunks_flatten hsize input

-- What is left behind reads of these sizes, when each of them is answered in full. A read into an
-- empty buffer returns at once.
def readWhole : List Nat → Input → Option Input
  | [], input => some input
  | size :: sizes, input =>
      if size = 0 then readWhole sizes input
      else
        match input.read size with
        | none => none
        | some (chunk, rest) => if chunk.length = size then readWhole sizes rest else none

theorem readWhole_zero (sizes : List Nat) (input : Input) : readWhole (0 :: sizes) input = readWhole sizes input :=
  if_pos rfl

end Input

end ToInet.Lib
