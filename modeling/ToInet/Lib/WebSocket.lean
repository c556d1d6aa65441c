import ToInet.Lib.Decoder

-- RFC 6455 frames, as a sender may write them and a receiver reads them.
namespace ToInet.Lib.WebSocket

inductive Opcode where
  | continuation
  | text
  | binary
  | close
  | ping
  | pong
deriving DecidableEq, Repr

def Opcode.code : Opcode → Fin 16
  | continuation => 0x0
  | text => 0x1
  | binary => 0x2
  | close => 0x8
  | ping => 0x9
  | pong => 0xA

abbrev Mask := { mask : Bytes // mask.length = 4 }

def applyMask (mask : Mask) (data : Bytes) : Bytes :=
  data.mapIdx fun i b => b ^^^ mask.val.getD (i % 4) 0

@[simp] theorem length_applyMask (mask : Mask) (data : Bytes) :
    (applyMask mask data).length = data.length := by
  simp [applyMask]

@[simp] theorem applyMask_involutive (mask : Mask) (data : Bytes) :
    applyMask mask (applyMask mask data) = data := by
  apply List.ext_getElem
  · simp
  · intro i _ _
    simp only [applyMask, List.getElem_mapIdx, UInt8.xor_assoc, UInt8.xor_self, UInt8.xor_zero]

-- The three ways to state a payload length.
inductive LengthForm where
  | seven
  | sixteen
  | sixtyFour
deriving DecidableEq, Repr

namespace LengthForm

def Fits : LengthForm → Nat → Prop
  | seven, n => n ≤ 125
  | sixteen, n => n < 2 ^ 16
  | sixtyFour, n => n < 2 ^ 63

instance : (form : LengthForm) → (n : Nat) → Decidable (form.Fits n)
  | seven, n => inferInstanceAs (Decidable (n ≤ 125))
  | sixteen, n => inferInstanceAs (Decidable (n < 2 ^ 16))
  | sixtyFour, n => inferInstanceAs (Decidable (n < 2 ^ 63))

def marker : LengthForm → Nat → Nat
  | seven, n => n
  | sixteen, _ => 126
  | sixtyFour, _ => 127

def extension : LengthForm → Nat → Bytes
  | seven, _ => []
  | sixteen, n => beBytes 2 n
  | sixtyFour, n => beBytes 8 n

def shortest (n : Nat) : LengthForm :=
  if n ≤ 125 then seven else if n ≤ 65535 then sixteen else sixtyFour

def width : LengthForm → Nat
  | seven => 0
  | sixteen => 2
  | sixtyFour => 8

theorem length_extension (form : LengthForm) (n : Nat) : (form.extension n).length = form.width := by
  cases form <;> simp [extension, width]

theorem shortest_fits (n : Nat) (h : n < 2 ^ 63) : (shortest n).Fits n := by
  unfold shortest
  split
  · assumption
  · split
    · unfold Fits
      omega
    · exact h

theorem marker_lt (form : LengthForm) (n : Nat) (h : form.Fits n) : form.marker n < 128 := by
  cases form <;> simp only [Fits] at h <;> simp only [marker] <;> omega

end LengthForm

-- The code may be one that is reserved.
structure Frame where
  fin : Bool
  code : Fin 16
  mask : Option Mask
  payload : Bytes
deriving DecidableEq

namespace Frame

def flag (bit : Bool) : Nat := if bit then 0x80 else 0

def maskBytes (frame : Frame) : Bytes := (frame.mask.map Subtype.val).getD []

def wirePayload (frame : Frame) : Bytes :=
  match frame.mask with
  | some mask => applyMask mask frame.payload
  | none => frame.payload

def encodeAs (frame : Frame) (form : LengthForm) : Bytes :=
  toByte (flag frame.fin + frame.code : Nat) ::
    toByte (flag frame.mask.isSome + form.marker frame.payload.length : Nat) ::
    (form.extension frame.payload.length ++ frame.maskBytes ++ frame.wirePayload)

-- The specification asks for the shortest form of the length.
def encode (frame : Frame) : Bytes := frame.encodeAs (.shortest frame.payload.length)

end Frame

-- What the first bytes of a frame say, in any form of the length and up to all of its 64 bits.
structure Header where
  code : Nat
  masked : Bool
  form : LengthForm
  length : Nat
deriving DecidableEq

-- With the masking key.
def Header.size (header : Header) : Nat := 2 + header.form.width + if header.masked then 4 else 0

def formOf (marker : Nat) : LengthForm :=
  if marker = 126 then .sixteen else if marker = 127 then .sixtyFour else .seven

def header : Bytes → Option Header
  | b0 :: b1 :: rest =>
      let marker := b1.toNat % 128
      let form := formOf marker
      if form.width ≤ rest.length then
        some { code := b0.toNat % 16, masked := 128 ≤ b1.toNat, form
               length := if form = .seven then marker else beNat (rest.take form.width) }
      else none
  | _ => none

theorem header_append (b0 : UInt8) {b1 : UInt8} {ext : Bytes} (hext : ext.length = (formOf (b1.toNat % 128)).width)
    (rest : Bytes) :
    header (b0 :: b1 :: (ext ++ rest)) =
      some { code := b0.toNat % 16, masked := 128 ≤ b1.toNat, form := formOf (b1.toNat % 128)
             length := if formOf (b1.toNat % 128) = .seven then b1.toNat % 128 else beNat ext } := by
  have hle : (formOf (b1.toNat % 128)).width ≤ (ext ++ rest).length := by
    rw [List.length_append]
    omega
  rw [header, if_pos hle, List.take_left' hext]

theorem header_eq_some {bytes : Bytes} {found : Header} (h : header bytes = some found) :
    ∃ b0 b1 ext rest, bytes = b0 :: b1 :: (ext ++ rest) ∧ ext.length = (formOf (b1.toNat % 128)).width := by
  match bytes with
  | b0 :: b1 :: rest =>
      rw [header] at h
      split at h
      · rename_i hle
        refine ⟨b0, b1, rest.take (formOf (b1.toNat % 128)).width, rest.drop (formOf (b1.toNat % 128)).width, ?_, ?_⟩
        · rw [List.take_append_drop]
        · rw [List.length_take]
          omega
      · cases h

open Decoder

def decodeLength (marker : Nat) : Decoder Nat := do
  if marker ≤ 125 then return marker
  let field ← takeExact (if marker = 126 then 2 else 8)
  let form := if marker = 126 then LengthForm.sixteen else .sixtyFour
  require (form.Fits (beNat field) ∧ form = .shortest (beNat field))
  return beNat field

def decodeMask (masked : Bool) : Decoder (Option Mask) := do
  if masked then
    let key ← takeExact 4
    if h : key.length = 4 then return some ⟨key, h⟩ else failure
  else return none

-- A receiver without extensions: the reserved bits are clear.
def decodeFrame : Decoder Frame := do
  let b0 ← byte
  let b1 ← byte
  require (b0.toNat / 16 % 8 = 0)
  let length ← decodeLength (b1.toNat % 128)
  let mask ← decodeMask (decide (128 ≤ b1.toNat))
  let wire ← takeExact length
  let payload := match mask with
    | some mask => applyMask mask wire
    | none => wire
  return { fin := decide (128 ≤ b0.toNat), code := ⟨b0.toNat % 16, Nat.mod_lt _ (by decide)⟩, mask, payload }

theorem stable_decodeLength (marker : Nat) : Stable (decodeLength marker) := by
  unfold decodeLength
  split
  · exact stable_pure _
  · exact stable_bind (stable_takeExact _) fun _ => stable_bind (stable_require _) fun _ => stable_pure _

theorem stable_decodeMask (masked : Bool) : Stable (decodeMask masked) := by
  unfold decodeMask
  split
  · apply stable_bind (stable_takeExact 4)
    intro key
    split
    · exact stable_pure _
    · intro data a rest h
      cases h
  · exact stable_pure _

theorem stable_decodeFrame : Stable decodeFrame := by
  refine stable_bind stable_byte fun _ => stable_bind stable_byte fun _ =>
    stable_bind (stable_require _) fun _ => stable_bind (stable_decodeLength _) fun _ =>
    stable_bind (stable_decodeMask _) fun _ => stable_bind (stable_takeExact _) fun _ => stable_pure _

theorem decodeLength_shortest (n : Nat) (rest : Bytes) (h : n < 2 ^ 63) :
    decodeLength ((LengthForm.shortest n).marker n) ((LengthForm.shortest n).extension n ++ rest) =
      some (n, rest) := by
  have hfits := LengthForm.shortest_fits n h
  unfold decodeLength
  cases hform : LengthForm.shortest n with
  | seven =>
      rw [hform] at hfits
      rw [LengthForm.marker, if_pos (show n ≤ 125 from hfits)]
      rfl
  | sixteen =>
      rw [hform] at hfits
      have hfield : beNat (beBytes 2 n) = n := beNat_beBytes 2 n hfits
      have htake := takeExact_append (beBytes 2 n) rest
      rw [length_beBytes] at htake
      rw [LengthForm.marker, if_neg (by decide), if_pos rfl, LengthForm.extension, bind_of_eq htake,
        hfield, bind_of_eq (require_of (by exact ⟨hfits, hform.symm⟩))]
      rfl
  | sixtyFour =>
      rw [hform] at hfits
      have hfield : beNat (beBytes 8 n) = n :=
        beNat_beBytes 8 n (Nat.lt_trans (show n < 2 ^ 63 from hfits) (by decide))
      have htake := takeExact_append (beBytes 8 n) rest
      rw [length_beBytes] at htake
      rw [LengthForm.marker, if_neg (by decide), if_neg (by decide), LengthForm.extension,
        bind_of_eq htake, hfield, bind_of_eq (require_of (by exact ⟨hfits, hform.symm⟩))]
      rfl

theorem decodeMask_maskBytes (frame : Frame) (rest : Bytes) :
    decodeMask frame.mask.isSome (frame.maskBytes ++ rest) = some (frame.mask, rest) := by
  unfold decodeMask Frame.maskBytes
  cases frame.mask with
  | none => rfl
  | some mask =>
      have htake := takeExact_append mask.val rest
      rw [mask.property] at htake
      simp only [Option.isSome_some, if_true, Option.map_some, Option.getD_some]
      rw [bind_of_eq htake]
      simp only [mask.property, dite_true]
      rfl

-- The first two bytes of a frame each hold a flag over a smaller number.
theorem flag_byte (bit : Bool) (n : Nat) (h : n < 128) :
    (toByte (Frame.flag bit + n : Nat)).toNat % 128 = n ∧
      decide (128 ≤ (toByte (Frame.flag bit + n : Nat)).toNat) = bit := by
  rw [toNat_toByte_nat]
  cases bit with
  | false =>
      rw [show Frame.flag false = 0 from rfl, decide_eq_false_iff_not]
      omega
  | true =>
      rw [show Frame.flag true = 128 from rfl, decide_eq_true_iff]
      omega

theorem decodeFrame_encode (frame : Frame) (rest : Bytes) (h : frame.payload.length < 2 ^ 63) :
    decodeFrame (frame.encode ++ rest) = some (frame, rest) := by
  let form := LengthForm.shortest frame.payload.length
  let body := form.extension frame.payload.length ++ (frame.maskBytes ++ (frame.wirePayload ++ rest))
  have hcode := frame.code.isLt
  obtain ⟨hb0, hfin⟩ := flag_byte frame.fin frame.code (by omega)
  obtain ⟨hb1, hmasked⟩ := flag_byte frame.mask.isSome (form.marker frame.payload.length)
    (form.marker_lt _ (LengthForm.shortest_fits _ h))
  obtain ⟨b0, h0⟩ : ∃ b, b = toByte (Frame.flag frame.fin + frame.code : Nat) := ⟨_, rfl⟩
  obtain ⟨b1, h1⟩ : ∃ b, b = toByte
      (Frame.flag frame.mask.isSome + form.marker frame.payload.length : Nat) := ⟨_, rfl⟩
  have hsplit : frame.encode ++ rest = b0 :: b1 :: body := by
    simp [Frame.encode, Frame.encodeAs, form, h0, h1, body]
  rw [← h0] at hb0 hfin
  rw [← h1] at hb1 hmasked
  have hhead : byte (b0 :: b1 :: body) = some (b0, b1 :: body) := rfl
  have hsecond : byte (b1 :: body) = some (b1, body) := rfl
  have hwire : takeExact frame.payload.length (frame.wirePayload ++ rest) =
      some (frame.wirePayload, rest) := by
    have hlen : frame.wirePayload.length = frame.payload.length := by
      unfold Frame.wirePayload
      split <;> simp
    rw [← hlen]
    exact takeExact_append frame.wirePayload rest
  have hreserved : b0.toNat / 16 % 8 = 0 := by omega
  have hopcode : b0.toNat % 16 = frame.code := by omega
  unfold decodeFrame
  rw [hsplit, bind_of_eq hhead, bind_of_eq hsecond, bind_of_eq (require_of hreserved),
    hb1, bind_of_eq (decodeLength_shortest _ _ h), hmasked, bind_of_eq (decodeMask_maskBytes frame _),
    bind_of_eq hwire, hfin]
  simp only [hopcode]
  obtain ⟨fin, code, mask, payload⟩ := frame
  cases mask with
  | none => rfl
  | some mask => simp [Frame.wirePayload]; rfl

theorem length_encode_pos (frame : Frame) : 0 < frame.encode.length := by
  simp [Frame.encode, Frame.encodeAs]

theorem length_le_flatten (frames : List Frame) :
    frames.length ≤ (frames.map Frame.encode).flatten.length := by
  induction frames with
  | nil => simp
  | cons frame frames ih =>
      have := length_encode_pos frame
      rw [List.map_cons, List.flatten_cons, List.length_append, List.length_cons]
      omega

def decodeFrames (data : Bytes) : List Frame × Bytes := many decodeFrame data.length data

-- A stream of whole frames, with an unfinished one behind them, is read back.
theorem decodeFrames_encode (frames : List Frame) (part : Bytes)
    (hframes : ∀ frame ∈ frames, frame.payload.length < 2 ^ 63)
    (hpart : part = [] ∨ ∃ frame more, part ++ more = Frame.encode frame ∧ more ≠ [] ∧
      frame.payload.length < 2 ^ 63) :
    decodeFrames ((frames.map Frame.encode).flatten ++ part) = (frames, part) := by
  have hstop : decodeFrame part = none := by
    obtain rfl | ⟨frame, more, hsplit, hmore, hlen⟩ := hpart
    · rfl
    · have hround := decodeFrame_encode frame [] hlen
      rw [List.append_nil, ← hsplit] at hround
      exact stable_decodeFrame.part hround hmore
  have hfuel : frames.length ≤ ((frames.map Frame.encode).flatten ++ part).length := by
    have := length_le_flatten frames
    rw [List.length_append]
    omega
  exact many_encode decodeFrame Frame.encode frames part _
    (fun frame hmem rest => decodeFrame_encode frame rest (hframes frame hmem)) hstop hfuel

end ToInet.Lib.WebSocket
