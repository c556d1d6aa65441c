import ToInet.Tgws.WsFrame

namespace ToInet.Tgws

open ToInet.Lib ToInet.Lib.WebSocket

theorem or_flag (n : Nat) (h : n < 128) : 0x80 ||| n = 0x80 + n := by
  have hor := shiftLeft_or 1 n 7 h
  simpa using hor

theorem toByte_low (n : Nat) : toByte (n &&& 0xFF : Nat) = toByte n := by
  apply UInt8.toNat_inj.mp
  rw [toNat_toByte_nat, toNat_toByte_nat, show (0xFF : Nat) = 2 ^ 8 - 1 from rfl,
    Nat.and_two_pow_sub_one_eq_mod]
  omega

theorem beBytes_two (n : Nat) : beBytes 2 n = [toByte (n >>> 8 : Nat), toByte n] := by
  rfl

-- What sendWsFrame writes is a final masked frame with the shortest form of its
-- length.
theorem sendWsFrame_eq_encode (mask : Mask) (data : Bytes) (opcode : Fin 16) :
    sendWsFrame mask data opcode =
      Frame.encode { fin := true, code := opcode, mask := some mask, payload := data } := by
  have hcode := or_flag opcode (by omega)
  have hflag : Frame.flag true = 0x80 := rfl
  unfold sendWsFrame Frame.encode Frame.encodeAs LengthForm.shortest
  simp only [hcode, hflag, Option.isSome_some, Frame.maskBytes, Option.map_some, Option.getD_some,
    Frame.wirePayload, applyMask, List.cons_append]
  split
  · rename_i hle
    rw [Nat.or_comm, or_flag _ (by omega)]
    simp [LengthForm.marker, LengthForm.extension]
  · split
    · rw [toByte_low, LengthForm.marker, LengthForm.extension, beBytes_two]
      simp
    · rw [LengthForm.marker, LengthForm.extension]
      simp

end ToInet.Tgws
