import ToInet.Rehabilitator.Socks5Connection

-- What single reads make of a stream: a field that one read does not bring in full leaves its end
-- in the stream.
namespace ToInet.Rehabilitator

open ToInet.Lib ToInet.Lib.Socks5

variable {input : Input} {field more : Bytes} {size : Nat}

structure Whole (input : Input) (field more : Bytes) (filled : Filled size) : Prop where
  count : filled.count = size
  buffer : filled.buffer = field
  rest : filled.rest.bytes = more
  whole : ∀ sizes, input.readWhole (size :: sizes) = filled.rest.readWhole sizes

structure Partly (input : Input) (chunk tail more : Bytes) (filled : Filled size) : Prop where
  chunk_ne : chunk ≠ []
  tail_ne : tail ≠ []
  count : filled.count = chunk.length
  buffer : filled.buffer = chunk ++ List.replicate tail.length 0
  rest : filled.rest.bytes = tail ++ more
  notWhole : ∀ sizes, input.readWhole (size :: sizes) = none

theorem readInto_field (size : Nat) (hsize : field.length = size) (h : input.bytes = field ++ more) :
    Whole input field more (readInto input size) ∨
      ∃ chunk tail, field = chunk ++ tail ∧ Partly input chunk tail more (readInto input size) := by
  by_cases hzero : size = 0
  · subst hzero
    obtain rfl := List.length_eq_zero_iff.mp hsize
    exact .inl { count := rfl, buffer := rfl, rest := h, whole := fun sizes => Input.readWhole_zero sizes input }
  · have hfield : field ≠ [] := by
      rintro rfl
      exact hzero hsize.symm
    obtain ⟨chunk, tail, rest, hread, hchunk, rfl, hrest⟩ := Input.read_field h hfield
    rw [hsize] at hread
    rw [List.length_append] at hsize
    by_cases htail : tail = []
    · subst htail
      rw [List.length_nil, Nat.add_zero] at hsize
      subst hsize
      refine .inl ⟨?_, ?_, ?_, fun sizes => ?_⟩
      · simp [readInto, hread, hzero]
      · simp [readInto, hread, hzero]
      · simpa [readInto, hread, hzero] using hrest
      · simp [readInto, Input.readWhole, hread, hzero]
    · have hpos : 0 < tail.length := List.length_pos_iff.mpr htail
      have hlt : chunk.length ≠ size := by omega
      refine .inr ⟨chunk, tail, rfl, hchunk, htail, ?_, ?_, ?_, fun sizes => ?_⟩
      · simp [readInto, hread, hzero]
      · have hfill : (chunk ++ List.replicate size 0).take size = chunk ++ List.replicate tail.length (0 : UInt8) := by
          rw [← hsize, List.take_length_add_append, List.take_replicate, Nat.min_eq_left (Nat.le_add_left _ _)]
        simpa [readInto, hread, hzero] using hfill
      · simpa [readInto, hread, hzero] using hrest
      · simp [Input.readWhole, hread, hzero, hlt]

-- A read takes no more than it asks for.
theorem length_readInto_rest (input : Input) (size : Nat) :
    input.bytes.length ≤ (readInto input size).rest.bytes.length + size := by
  by_cases hzero : size = 0
  · simp [readInto, hzero]
  · cases hread : input.read size with
    | none => simp [readInto, hread, hzero]
    | some result =>
        obtain ⟨chunk, rest⟩ := result
        obtain ⟨_, hle, hsplit⟩ := Input.read_eq_some (Nat.pos_of_ne_zero hzero) hread
        rw [hsplit, List.length_append]
        simp only [readInto, hread, if_neg hzero]
        omega

-- The sizes of the reads that an address takes.
def addressSizes : Address → List Nat
  | .ipv4 .. => [4]
  | .domain name _ => [1, name.length]
  | .ipv6 .. => [16]

theorem readWhole_one {b : UInt8} {chunk : Bytes} {rest : Input} (h : input.bytes = b :: more)
    (hread : input.read 1 = some (chunk, rest)) (sizes : List Nat) :
    input.readWhole (1 :: sizes) = rest.readWhole sizes := by
  obtain ⟨last, hone, _⟩ := Input.read_one h
  rw [hread] at hone
  obtain ⟨rfl, rfl⟩ := Prod.mk.inj (Option.some.inj hone)
  simp [Input.readWhole, hread]

-- Zeros stand for the end of an address that has been cut off.
structure Zeroed (asked address : Address) (tail : Bytes) : Prop where
  atyp : asked.atyp = address.atyp
  tail_ne : tail ≠ []
  content : ∃ chunk, asked.content = chunk ++ List.replicate tail.length 0 ∧ address.content = chunk ++ tail

-- An address that is read whole is the one that was sent; otherwise its end is left.
theorem readAddress_sent {address : Address} (h : input.bytes = address.bytes ++ more) :
    ∃ asked rest, readAddress address.atyp input = .address asked rest ∧
      ((asked = address ∧ rest.bytes = more ∧
          ∀ sizes, input.readWhole (addressSizes address ++ sizes) = rest.readWhole sizes) ∨
        ∃ tail, Zeroed asked address tail ∧ rest.bytes = tail ++ more ∧
          ∀ sizes, input.readWhole (addressSizes address ++ sizes) = none) := by
  cases address with
  | ipv4 bytes hlength =>
      refine ⟨_, _, rfl, ?_⟩
      obtain hwhole | ⟨chunk, tail, hsplit, hpart⟩ := readInto_field _ hlength (show input.bytes = bytes ++ more from h)
      · exact .inl ⟨by simp only [hwhole.buffer], hwhole.rest, hwhole.whole⟩
      · exact .inr ⟨tail, ⟨rfl, hpart.tail_ne, chunk, hpart.buffer, hsplit⟩, hpart.rest, hpart.notWhole⟩
  | domain name hlength =>
      obtain ⟨afterLength, hread, hafter⟩ := Input.read_one h
      have hlen : (toByte name.length).toNat = name.length := by
        rw [toNat_toByte_nat]
        omega
      have hone (sizes : List Nat) : input.readWhole (1 :: name.length :: sizes) =
          afterLength.readWhole ((toByte name.length).toNat :: sizes) := by
        rw [readWhole_one h hread, hlen]
      simp only [readAddress, Address.atyp, hread, List.headD_cons, addressSizes, List.cons_append, List.nil_append,
        hone]
      refine ⟨_, _, rfl, ?_⟩
      obtain hwhole | ⟨chunk, tail, hsplit, hpart⟩ := readInto_field _ hlen.symm hafter
      · exact .inl ⟨by rw [Address.domain.injEq]; exact hwhole.buffer, hwhole.rest, hwhole.whole⟩
      · exact .inr ⟨tail, ⟨rfl, hpart.tail_ne, chunk, hpart.buffer, hsplit⟩, hpart.rest, hpart.notWhole⟩
  | ipv6 bytes hlength =>
      refine ⟨_, _, rfl, ?_⟩
      obtain hwhole | ⟨chunk, tail, hsplit, hpart⟩ := readInto_field _ hlength (show input.bytes = bytes ++ more from h)
      · exact .inl ⟨by simp only [hwhole.buffer], hwhole.rest, hwhole.whole⟩
      · exact .inr ⟨tail, ⟨rfl, hpart.tail_ne, chunk, hpart.buffer, hsplit⟩, hpart.rest, hpart.notWhole⟩

-- The sizes of the reads up to the end of the request.
def requestSizes (methods : Bytes) (target : Target) : List Nat :=
  [2, methods.length, 4] ++ addressSizes target.address ++ [2]

theorem Partly.count_lt {chunk tail : Bytes} {filled : Filled size} (h : Partly input chunk tail more filled)
    (hsize : (chunk ++ tail).length = size) : filled.count < size := by
  have hpos : 0 < tail.length := List.length_pos_iff.mpr h.tail_ne
  rw [List.length_append] at hsize
  rw [h.count]
  omega

theorem readRequest_negative {client : Input} {methods : Bytes} (hmethods : 128 ≤ methods.length)
    (hlt : methods.length < 256) (h : client.bytes = greeting methods ++ more) : readRequest client = ([], none) := by
  have hnegative : (toByte methods.length).toInt8.toInt < 0 := by
    rw [toInt8_toByte _ hlt, if_neg (by omega)]
    omega
  have hgreeting : client.bytes = [5, toByte methods.length] ++ (methods ++ more) := h
  obtain hheader | ⟨chunk, tail, hsplit, hpart⟩ := readInto_field 2 rfl hgreeting
  · simp [readRequest, hheader.count, Filled.byte, hheader.buffer, hnegative]
  · have hcount := hpart.count_lt (hsplit ▸ rfl)
    simp only [readRequest, Nat.cast_ofNat] at hcount ⊢
    rw [if_pos hcount]

theorem readRequest_eq {client : Input} {nmethods : Nat} (hcount : (readInto client 2).count = 2)
    (hfive : (readInto client 2).byte 0 = 5) (hsize : ((readInto client 2).byte 1).toInt8.toInt = nmethods) :
    readRequest client = readBehind nmethods (readInto client 2).rest := by
  have hnot : ¬(readInto client 2).count < 2 := by omega
  have hnonneg : ¬(nmethods : Int) < 0 := by omega
  simp only [readRequest, if_neg hnot, hfive, hsize, if_neg hnonneg]
  rfl

-- What a request that has been cut is taken for: the end of its address goes to the port, or the
-- second byte of the port is missing.
def Misread (asked target : Target) : Prop :=
  (∃ tail, Zeroed asked.address target.address tail ∧ asked.portBytes.head? = tail.head?) ∨
    asked.portBytes.getLast? = some 0

-- The first byte of the field that comes next is read at least.
theorem head_readInto {b : UInt8} (hsize : 0 < size) (h : input.bytes = b :: more) :
    (readInto input size).buffer.head? = some b := by
  have hzero : size ≠ 0 := by omega
  have hne : input.read size ≠ none := by
    rw [Ne, Input.read_eq_none, h]
    exact List.cons_ne_nil b more
  obtain ⟨⟨chunk, rest⟩, hread⟩ := Option.ne_none_iff_exists'.mp hne
  obtain ⟨hchunk, _, hsplit⟩ := Input.read_eq_some hsize hread
  obtain ⟨c, tail, rfl⟩ := List.exists_cons_of_ne_nil hchunk
  rw [h, List.cons_append, List.cons.injEq] at hsplit
  obtain ⟨n, rfl⟩ : ∃ n, size = n + 1 := ⟨size - 1, by omega⟩
  simp [readInto, hread, hsplit.1]

-- A request is read as it was sent if no read of it is cut short; otherwise it is not read, or some
-- of it is left.
theorem readRequest_sent {client : Input} {methods payload : Bytes} {target : Target} (hmethods : methods.length < 128)
    (h : client.bytes = greeting methods ++ (connect target ++ payload)) :
    (∃ rest, client.readWhole (requestSizes methods target) = some rest ∧ rest.bytes = payload ∧
        readRequest client = ([5, 0], some (target, rest))) ∨
      client.readWhole (requestSizes methods target) = none ∧ ∀ told asked rest,
        readRequest client = (told, some (asked, rest)) →
          payload.length < rest.bytes.length ∧ Misread asked target := by
  obtain ⟨address, portBytes, hport⟩ := target
  have hgreeting : client.bytes =
      [5, toByte methods.length] ++ (methods ++ (connect ⟨address, portBytes, hport⟩ ++ payload)) := h
  have hint : (toByte methods.length).toInt8.toInt = methods.length := by
    rw [toInt8_toByte _ (by omega), if_pos hmethods]
  unfold requestSizes
  simp only [List.cons_append, List.nil_append]
  obtain hheader | ⟨chunk, tail, hsplit, hpart⟩ := readInto_field 2 rfl hgreeting
  swap
  · have hcount := hpart.count_lt (hsplit ▸ rfl)
    refine .inr ⟨hpart.notWhole _, fun told asked rest hread => ?_⟩
    simp only [readRequest, Nat.cast_ofNat] at hcount hread
    rw [if_pos hcount] at hread
    cases hread
  have hone : ((readInto client 2).byte 1).toInt8.toInt = methods.length := by
    rw [Filled.byte, hheader.buffer, List.getD_cons_succ, List.getD_cons_zero, hint]
  rw [hheader.whole, readRequest_eq hheader.count (by rw [Filled.byte, hheader.buffer, List.getD_cons_zero]) hone]
  obtain hread | ⟨chunk, tail, hsplit, hpart⟩ := readInto_field _ rfl hheader.rest
  swap
  · have hcount := hpart.count_lt (hsplit ▸ rfl)
    refine .inr ⟨hpart.notWhole _, fun told asked rest hread => ?_⟩
    simp only [readBehind, if_pos hcount] at hread
    cases hread
  rw [hread.whole]
  have hrequest : (readInto (readInto client 2).rest methods.length).rest.bytes =
      [5, 1, 0, address.atyp] ++ (address.bytes ++ (portBytes ++ payload)) := by
    rw [hread.rest]
    simp [connect, Target.encode]
  obtain hreq | ⟨chunk, tail, hsplit, hpart⟩ := readInto_field 4 rfl hrequest
  swap
  · have hcount := hpart.count_lt (hsplit ▸ rfl)
    refine .inr ⟨hpart.notWhole _, fun told asked rest hreadRequest => ?_⟩
    simp only [Nat.cast_ofNat] at hcount
    simp [readBehind, hread.count, hcount] at hreadRequest
  rw [hreq.whole]
  obtain ⟨asked, afterAddress, haddress, hcases⟩ := readAddress_sent hreq.rest
  have hfull : readBehind methods.length (readInto client 2).rest = ([5, 0], some
      ({ address := asked, portBytes := (readInto afterAddress 2).buffer, hport := (readInto afterAddress 2).hlength },
        (readInto afterAddress 2).rest)) := by
    simp [readBehind, hread.count, hreq.count, Filled.byte, hreq.buffer, haddress]
  rw [hfull]
  obtain ⟨rfl, hrest, hwhole⟩ | hcut := hcases
  · rw [hwhole]
    obtain hlast | ⟨chunk, tail, hsplit, hpart⟩ := readInto_field _ hport hrest
    · exact .inl ⟨_, hlast.whole [], hlast.rest, by simp only [hlast.buffer]⟩
    · refine .inr ⟨hpart.notWhole _, ?_⟩
      rintro told target rest hsame
      obtain ⟨_, hsome⟩ := Prod.mk.inj hsame
      obtain ⟨rfl, rfl⟩ := Prod.mk.inj (Option.some.inj hsome)
      have hpos : 0 < tail.length := List.length_pos_iff.mpr hpart.tail_ne
      refine ⟨?_, .inr ?_⟩
      · rw [hpart.rest, List.length_append]
        omega
      · obtain ⟨b, tail, rfl⟩ := List.exists_cons_of_ne_nil hpart.tail_ne
        simp only [hpart.buffer, List.length_cons, List.replicate_succ', ← List.append_assoc, List.getLast?_concat]
  · obtain ⟨tail, hzeroed, hrest, hnone⟩ := hcut
    refine .inr ⟨hnone _, ?_⟩
    rintro told target rest hsame
    obtain ⟨_, hsome⟩ := Prod.mk.inj hsame
    obtain ⟨rfl, rfl⟩ := Prod.mk.inj (Option.some.inj hsome)
    obtain ⟨b, tail, rfl⟩ := List.exists_cons_of_ne_nil hzeroed.tail_ne
    refine ⟨?_, .inl ⟨_, hzeroed, ?_⟩⟩
    · have hleft := length_readInto_rest afterAddress 2
      rw [hrest, List.length_append, List.length_append, List.length_cons, hport] at hleft
      omega
    · rw [List.head?_cons]
      exact head_readInto (by decide) hrest

end ToInet.Rehabilitator
