import ToInet.Byedpi.Packets.Parse
import ToInet.Byedpi.Packets.PartTls
import ToInet.Lib.TlsExtensions

-- What change_tls_sni makes of a ClientHello, once or time after time.
namespace ToInet.Byedpi.Packets

open ToInet.Lib ToInet.Lib.TlsExtension

theorem antohs_encode (before after : Bytes) (e : TlsExtension) {i : Nat} (hi : before.length = i) :
    antohs (before ++ (e.encode ++ after)) i = e.type ∧
      antohs (before ++ (e.encode ++ after)) (i + 2) = e.data.length := by
  constructor
  · apply antohs_of_eq (beBytes 2 e.data.length ++ e.data ++ after) _ hi e.type_lt
    simp only [encode, List.append_assoc]
  · have hlength : (before ++ beBytes 2 e.type).length = i + 2 := by
      rw [List.length_append, length_beBytes, hi]
    apply antohs_of_eq (e.data ++ after) _ hlength e.length_lt
    simp only [encode, List.append_assoc]

-- The first extension of its type is found unless it is the last one and empty.
theorem findTlsExt_encodeAll {before : List TlsExtension} (fuel : Nat) (first : Bytes) (e : TlsExtension)
    (after : List TlsExtension) (hbefore : ∀ x ∈ before, x.type ≠ e.type) (hfuel : before.length < fuel) :
    findTlsExt e.type (first ++ encodeAll (before ++ e :: after))
        (first ++ encodeAll (before ++ e :: after)).length fuel
        first.length =
      if e.data = [] ∧ after = [] then 0 else first.length + (encodeAll before).length := by
  induction before generalizing fuel first with
  | nil =>
      obtain ⟨fuel, rfl⟩ := Nat.exists_eq_add_of_lt hfuel
      have hafter := length_le_encodeAll after
      rw [List.nil_append, encodeAll_cons, findTlsExt, (antohs_encode first (encodeAll after) e rfl).1, if_pos rfl]
      have hmore : first.length + 4 < (first ++ (e.encode ++ encodeAll after)).length ↔
          ¬(e.data = [] ∧ after = []) := by
        rw [List.length_append, List.length_append, length_encode, ← List.length_eq_zero_iff,
          ← List.length_eq_zero_iff]
        constructor
        · intro hlt hboth
          obtain ⟨hdata, hnil⟩ := hboth
          rw [List.length_eq_zero_iff] at hnil
          rw [hdata, hnil] at hlt
          exact absurd hlt (by simp [encodeAll])
        · omega
      by_cases hlast : e.data = [] ∧ after = []
      · rw [if_pos hlast, if_neg (fun hlt => hmore.mp hlt hlast)]
      · rw [if_neg hlast, if_pos (hmore.mpr hlast)]
        rfl
  | cons x before ih =>
      obtain ⟨fuel, rfl⟩ := Nat.exists_eq_add_of_lt hfuel
      have hread := antohs_encode first (encodeAll (before ++ e :: after)) x rfl
      rw [List.cons_append, encodeAll_cons, findTlsExt, hread.1, hread.2]
      have hmore : first.length + 4 < (first ++ (x.encode ++ encodeAll (before ++ e :: after))).length := by
        rw [encodeAll_append, encodeAll_cons]
        simp only [List.length_append, length_encode]
        omega
      rw [if_pos hmore, if_neg (hbefore x List.mem_cons_self).symm, ← List.append_assoc]
      have hskip : first.length + (x.data.length + 4) = (first ++ x.encode).length := by
        rw [List.length_append, length_encode]
      rw [hskip, ih _ _ (fun y hy => hbefore y (List.mem_cons_of_mem _ hy)), encodeAll_cons, List.length_append,
        List.length_append, Nat.add_assoc]
      rw [List.length_cons]
      omega

-- A ClientHello with a server name, and with padding at its end.
structure Hello where
  head : Bytes
  before : List TlsExtension
  kind : UInt8
  name : Bytes
  middle : List TlsExtension
  padding : Bytes
  chello : antohs head 0 = 0x1603 ∧ head.getD 5 0 = 1
  length_head : head.length = 44 + (head.getD 43 0).toNat + 2 + antohs head (44 + (head.getD 43 0).toNat) + 2
  types : ∀ e ∈ before ++ middle, e.type ≠ 0x00 ∧ e.type ≠ 0x15
  fits : (encodeAll before).length + name.length + (encodeAll middle).length + padding.length + 13 < 2 ^ 16

namespace Hello

-- A list of names with one name in it.
def serverName (h : Hello) : TlsExtension where
  type := 0x00
  data := beBytes 2 (h.name.length + 3 : Nat) ++ (h.kind :: (beBytes 2 h.name.length ++ h.name))
  type_lt := by decide
  length_lt := by
    have hfits := h.fits
    simp only [List.length_append, List.length_cons, length_beBytes]
    omega

def paddingExtension (h : Hello) : TlsExtension where
  type := 0x15
  data := h.padding
  type_lt := by decide
  length_lt := by
    have hfits := h.fits
    omega

def extensions (h : Hello) : List TlsExtension := h.before ++ h.serverName :: (h.middle ++ [h.paddingExtension])

-- What stands in front of the extensions.
def first (h : Hello) : Bytes := h.head ++ beBytes 2 (encodeAll h.extensions).length

def buffer (h : Hello) : Bytes := h.first ++ encodeAll h.extensions

-- Where the extension with the name stands, and the one with the padding.
def nameOffset (h : Hello) : Nat := h.head.length + 2 + (encodeAll h.before).length

def paddingOffset (h : Hello) : Nat := h.nameOffset + 9 + h.name.length + (encodeAll h.middle).length

end Hello

variable {h h' : Hello} {host : Bytes}

theorem Hello.length_serverName : h.serverName.encode.length = 9 + h.name.length := by
  rw [length_encode]
  simp only [serverName, List.length_append, List.length_cons, length_beBytes]
  omega

theorem Hello.length_extensions : (encodeAll h.extensions).length =
    (encodeAll h.before).length + h.name.length + (encodeAll h.middle).length + h.padding.length + 13 := by
  have hpadding : (encodeAll [h.paddingExtension]).length = h.padding.length + 4 := by
    rw [encodeAll_cons, List.length_append, length_encode]
    rfl
  rw [extensions, encodeAll_append, encodeAll_cons, encodeAll_append, List.length_append, List.length_append,
    List.length_append, hpadding, length_serverName]
  omega

theorem Hello.length_first : h.first.length = h.head.length + 2 := by
  rw [first, List.length_append, length_beBytes]

theorem Hello.length_buffer : h.buffer.length = h.paddingOffset + 4 + h.padding.length := by
  rw [buffer, List.length_append, length_first, length_extensions, paddingOffset, nameOffset]
  omega

theorem Hello.getD_buffer (h : Hello) {i : Nat} (hi : i < h.head.length) : h.buffer.getD i 0 = h.head.getD i 0 := by
  rw [buffer, first, List.append_assoc, List.getD_eq_getElem?_getD, List.getD_eq_getElem?_getD,
    List.getElem?_append_left hi]

-- Both extensions are found from the same place, behind the length of all extensions.
theorem Hello.chelloExtOffset_eq (h : Hello) (type : Nat) : chelloExtOffset type h.buffer =
    findTlsExt type h.buffer h.buffer.length h.buffer.length (h.head.length + 2) := by
  have hhead := h.length_head
  have hlength := h.length_buffer
  have hsid : (h.buffer.getD 43 0).toNat = (h.head.getD 43 0).toNat := by rw [h.getD_buffer (by omega)]
  have hciphers : antohs h.buffer (44 + (h.head.getD 43 0).toNat) = antohs h.head (44 + (h.head.getD 43 0).toNat) := by
    rw [antohs, antohs, h.getD_buffer (by omega), h.getD_buffer (by omega)]
  have hextensions : antohs h.buffer h.head.length = (encodeAll h.extensions).length :=
    antohs_of_eq (encodeAll h.extensions) rfl rfl (h.length_extensions ▸ h.fits)
  rw [paddingOffset, nameOffset] at hlength
  rw [chelloExtOffset, hsid, if_neg (by omega), hciphers, ← hhead, findTlsExtOffset, if_neg (by omega), hextensions,
    h.length_extensions, min_eq_left (by omega)]

theorem Hello.chelloExtOffset_name (h : Hello) : chelloExtOffset 0x00 h.buffer = h.nameOffset := by
  have hbefore : ∀ x ∈ h.before, x.type ≠ h.serverName.type :=
    fun x hx => (h.types x (List.mem_append_left _ hx)).1
  have hcount := length_le_encodeAll h.before
  have hlength := h.length_buffer
  rw [paddingOffset, nameOffset] at hlength
  have hfind := findTlsExt_encodeAll h.buffer.length h.first h.serverName (h.middle ++ [h.paddingExtension]) hbefore
    (by omega)
  rw [if_neg (by simp), length_first] at hfind
  exact (h.chelloExtOffset_eq _).trans hfind

theorem Hello.chelloExtOffset_padding (h : Hello) :
    chelloExtOffset 0x15 h.buffer = if h.padding = [] then 0 else h.paddingOffset := by
  have hbefore : ∀ x ∈ h.before ++ h.serverName :: h.middle, x.type ≠ h.paddingExtension.type := by
    intro x hx
    rcases List.mem_append.mp hx with hx | hx
    · exact (h.types x (List.mem_append_left _ hx)).2
    · rcases List.mem_cons.mp hx with rfl | hx
      · exact show (0x00 : Nat) ≠ 0x15 by decide
      · exact (h.types x (List.mem_append_right _ hx)).2
  have hcount := length_le_encodeAll (h.before ++ h.serverName :: h.middle)
  have hextensions : h.extensions = (h.before ++ h.serverName :: h.middle) ++ [h.paddingExtension] := by
    rw [extensions, List.append_assoc, List.cons_append]
  have hoffset : h.head.length + 2 + (encodeAll (h.before ++ h.serverName :: h.middle)).length = h.paddingOffset := by
    rw [encodeAll_append, encodeAll_cons, List.length_append, List.length_append, length_serverName, paddingOffset,
      nameOffset]
    omega
  have hlength := h.length_buffer
  have hfind := findTlsExt_encodeAll h.buffer.length h.first h.paddingExtension [] hbefore (by omega)
  rw [length_first, hoffset, ← hextensions] at hfind
  refine (h.chelloExtOffset_eq _).trans (hfind.trans ?_)
  simp only [and_true]
  rfl

-- The bytes from the extension with the name on, with the numbers that are written.
def layout (first : Bytes) (kind : UInt8) (name middle padding : Bytes) (a b c d : Int) : Bytes :=
  first ++ (beBytes 2 0x00 ++ (beBytes 2 a ++ (beBytes 2 b ++ (kind :: (beBytes 2 c ++ (name ++ (middle ++
    (beBytes 2 0x15 ++ (beBytes 2 d ++ padding)))))))))

theorem Hello.buffer_eq_layout (h : Hello) : h.buffer =
    layout (h.first ++ encodeAll h.before) h.kind h.name (encodeAll h.middle) h.padding (h.name.length + 5)
      (h.name.length + 3) h.name.length h.padding.length := by
  have hdata : (h.serverName.data.length : Int) = h.name.length + 5 := by
    have hlength := h.length_serverName
    rw [length_encode] at hlength
    omega
  have hpadding : encodeAll [h.paddingExtension] = beBytes 2 0x15 ++ (beBytes 2 h.padding.length ++ h.padding) :=
    List.flatMap_singleton ..
  rw [buffer, extensions, encodeAll_append, encodeAll_cons, encodeAll_append, hpadding, TlsExtension.encode, hdata,
    layout]
  simp only [serverName, List.append_assoc, List.cons_append, Nat.cast_add, Nat.cast_ofNat]
  rfl

section

variable {first middle padding : Bytes} {kind : UInt8} {name : Bytes} {a b c d : Int} {i : Nat}

theorem shtona_append (before after : Bytes) (old x : Int) (hi : before.length = i) :
    shtona (before ++ (beBytes 2 old ++ after)) i x = before ++ (beBytes 2 x ++ after) := by
  have hwritten : overwrite (before ++ beBytes 2 old ++ after) i (beBytes 2 x) = before ++ beBytes 2 x ++ after :=
    overwrite_of_eq _ rfl hi (by rw [length_beBytes, length_beBytes])
  rwa [List.append_assoc, List.append_assoc] at hwritten

-- The four numbers are written over one another.
theorem shtona_layout (w x y z : Int) (hi : first.length = i) :
    shtona (shtona (shtona (shtona (layout first kind name middle padding a b c d) (i + 2) w) (i + 4) x) (i + 7) y)
        (i + 9 + name.length + middle.length + 2) z =
      layout first kind name middle padding w x y z := by
  have hw := shtona_append (first ++ beBytes 2 0x00) (beBytes 2 b ++ (kind :: (beBytes 2 c ++ (name ++ (middle ++
    (beBytes 2 0x15 ++ (beBytes 2 d ++ padding))))))) a w (i := i + 2) (by simp [hi])
  have hx := shtona_append (first ++ (beBytes 2 0x00 ++ beBytes 2 w)) (kind :: (beBytes 2 c ++ (name ++ (middle ++
    (beBytes 2 0x15 ++ (beBytes 2 d ++ padding)))))) b x (i := i + 4) (by simp [hi])
  have hy := shtona_append (first ++ (beBytes 2 0x00 ++ (beBytes 2 w ++ (beBytes 2 x ++ [kind])))) (name ++ (middle ++
    (beBytes 2 0x15 ++ (beBytes 2 d ++ padding)))) c y (i := i + 7) (by simp [hi])
  have hz := shtona_append (first ++ (beBytes 2 0x00 ++ (beBytes 2 w ++ (beBytes 2 x ++ (kind :: (beBytes 2 y ++
    (name ++ (middle ++ beBytes 2 0x15)))))))) padding d z (i := i + 9 + name.length + middle.length + 2) (by
      simp [hi]
      omega)
  simp only [List.append_assoc, List.cons_append, List.nil_append] at hw hx hy hz
  rw [layout, hw, hx, hy, hz, layout]

-- What is moved over the name and behind it.
theorem overwrite_name {behind host : Bytes} (hle : host.length ≤ name.length + behind.length) :
    overwrite (overwrite (first ++ (name ++ behind)) (first.length + host.length) behind) first.length host =
      first ++ (host ++ (behind ++ (first ++ (name ++ behind)).drop (first.length + host.length + behind.length)).take
        (name.length + behind.length - host.length)) := by
  have hlength : (first ++ (name ++ behind)).length = first.length + (name.length + behind.length) := by
    rw [List.length_append, List.length_append]
  generalize hrest : (first ++ (name ++ behind)).drop (first.length + host.length + behind.length) = rest
  have hkept : ((first ++ (name ++ behind)).take (first.length + host.length)).length = first.length + host.length := by
    rw [List.length_take, hlength]
    omega
  have hfirst : ((first ++ (name ++ behind)).take (first.length + host.length)).take first.length = first := by
    rw [List.take_take, min_eq_left (Nat.le_add_right ..), List.take_left]
  rw [overwrite, overwrite, hrest, hlength]
  generalize (first ++ (name ++ behind)).take (first.length + host.length) = kept at hkept hfirst ⊢
  have htake : ((kept ++ behind ++ rest).take (first.length + (name.length + behind.length))).take first.length =
      first := by
    rw [List.take_take, min_eq_left (Nat.le_add_right ..), List.append_assoc,
      List.take_append_of_le_length (by omega), hfirst]
  have hdrop : ((kept ++ behind ++ rest).take (first.length + (name.length + behind.length))).drop
      (first.length + host.length) = (behind ++ rest).take (name.length + behind.length - host.length) := by
    rw [List.drop_take, List.append_assoc, ← hkept, List.drop_left, hkept]
    congr 1
    omega
  rw [htake, hdrop, List.append_assoc first host]
  apply List.take_of_length_le
  simp only [List.length_append, List.length_take]
  omega

theorem layout_eq : layout first kind name middle padding a b c d =
    (first ++ (beBytes 2 0x00 ++ (beBytes 2 a ++ (beBytes 2 b ++ (kind :: beBytes 2 c))))) ++
      (name ++ (middle ++ (beBytes 2 0x15 ++ (beBytes 2 d ++ padding)))) := by
  simp only [layout, List.append_assoc, List.cons_append]

-- The padding takes what the new name leaves.
theorem overwrite_layout {host : Bytes} (hi : first.length = i) (hroom : host.length ≤ name.length + padding.length) :
    ∃ padding' : Bytes, host.length + padding'.length = name.length + padding.length ∧
      overwrite (overwrite (layout first kind name middle padding a b c d) (i + 9 + host.length)
          ((layout first kind name middle padding a b c d).drop (i + 9 + name.length))) (i + 9) host =
        layout first kind host middle padding' a b c d := by
  have hstart : (first ++ (beBytes 2 0x00 ++ (beBytes 2 a ++ (beBytes 2 b ++ (kind :: beBytes 2 c))))).length =
      i + 9 := by
    simp [hi]
  have hchanged (padding' : Bytes) : layout first kind host middle padding' a b c d =
      (first ++ (beBytes 2 0x00 ++ (beBytes 2 a ++ (beBytes 2 b ++ (kind :: beBytes 2 c))))) ++
        (host ++ (middle ++ (beBytes 2 0x15 ++ (beBytes 2 d ++ padding')))) := layout_eq
  rw [layout_eq]
  generalize first ++ (beBytes 2 0x00 ++ (beBytes 2 a ++ (beBytes 2 b ++ (kind :: beBytes 2 c)))) = start
    at hstart hchanged
  have hbehind : (start ++ (name ++ (middle ++ (beBytes 2 0x15 ++ (beBytes 2 d ++ padding))))).drop
      (i + 9 + name.length) = middle ++ (beBytes 2 0x15 ++ (beBytes 2 d ++ padding)) := by
    rw [← List.append_assoc, ← hstart, ← List.length_append, List.drop_left]
  have hlength : (middle ++ (beBytes 2 0x15 ++ (beBytes 2 d ++ padding))).length =
      middle.length + 4 + padding.length := by
    simp only [List.length_append, length_beBytes]
    omega
  have hlengths : (middle ++ (beBytes 2 0x15 ++ beBytes 2 d)).length = middle.length + 4 := by
    simp only [List.length_append, length_beBytes]
  rw [hbehind, ← hstart, overwrite_name (by omega), hlength]
  -- What is left at the end of the buffer belongs to the padding then.
  generalize hrest : (start ++ (name ++ (middle ++ (beBytes 2 0x15 ++ (beBytes 2 d ++ padding))))).drop
    (start.length + host.length + (middle.length + 4 + padding.length)) = rest
  have hleft : rest.length = name.length - host.length := by
    rw [← hrest, List.length_drop, List.length_append, List.length_append, hlength]
    omega
  refine ⟨(padding ++ rest).take (name.length + padding.length - host.length), ?_, ?_⟩
  · rw [List.length_take, List.length_append, hleft]
    omega
  · have hassoc : middle ++ (beBytes 2 0x15 ++ (beBytes 2 d ++ padding)) ++ rest =
        (middle ++ (beBytes 2 0x15 ++ beBytes 2 d)) ++ (padding ++ rest) := by
      simp only [List.append_assoc]
    rw [hchanged, hassoc, List.take_append, hlengths, List.take_of_length_le (by omega)]
    have hcount : name.length + (middle.length + 4 + padding.length) - host.length - (middle.length + 4) =
        name.length + padding.length - host.length := by
      omega
    rw [hcount]
    simp only [List.append_assoc]

end

-- The length of a name counts in two bytes.
def hostSize (host : Bytes) : Nat := host.length % 2 ^ 16

-- The same ClientHello with another name, for which the padding makes room.
structure Renamed (h : Hello) (name : Bytes) (h' : Hello) : Prop where
  head : h'.head = h.head
  before : h'.before = h.before
  kind : h'.kind = h.kind
  name : h'.name = name
  middle : h'.middle = h.middle
  room : h'.name.length + h'.padding.length = h.name.length + h.padding.length

theorem Hello.antohs_buffer (h : Hello) : antohs h.buffer (h.nameOffset + 2) = h.name.length + 5 ∧
    antohs h.buffer (h.paddingOffset + 2) = h.padding.length := by
  constructor
  · have hbuffer : h.buffer = (h.first ++ encodeAll h.before) ++
        (h.serverName.encode ++ encodeAll (h.middle ++ [h.paddingExtension])) := by
      rw [buffer, extensions, encodeAll_append, encodeAll_cons, List.append_assoc]
    have hoffset : (h.first ++ encodeAll h.before).length = h.nameOffset := by
      rw [List.length_append, length_first, nameOffset]
    have hlength := h.length_serverName
    rw [length_encode] at hlength
    rw [hbuffer, (antohs_encode _ _ h.serverName hoffset).2]
    omega
  · have hbuffer : h.buffer = (h.first ++ (encodeAll h.before ++ (h.serverName.encode ++ encodeAll h.middle))) ++
        (h.paddingExtension.encode ++ encodeAll []) := by
      simp only [buffer, extensions, encodeAll_append, encodeAll_cons, List.append_assoc]
    have hoffset : (h.first ++ (encodeAll h.before ++ (h.serverName.encode ++ encodeAll h.middle))).length =
        h.paddingOffset := by
      simp only [List.length_append, length_first, length_serverName, paddingOffset, nameOffset]
      omega
    rw [hbuffer, (antohs_encode _ _ h.paddingExtension hoffset).2]
    rfl

def Hello.rename (h : Hello) (name padding : Bytes)
    (hroom : name.length + padding.length = h.name.length + h.padding.length) : Hello :=
  { h with
    name, padding
    fits := by
      have hfits := h.fits
      omega }

theorem length_layout {first middle padding name : Bytes} {kind : UInt8} {a b c d : Int} :
    (layout first kind name middle padding a b c d).length =
      first.length + 9 + name.length + middle.length + 4 + padding.length := by
  simp only [layout, List.length_append, List.length_cons, length_beBytes]
  omega

-- A name that fits is written, and what it is longer than the old one is written behind the buffer.
theorem changeTlsSni_renamed (h : Hello) (hpadding : h.padding ≠ [])
    (hroom : hostSize host ≤ h.name.length + h.padding.length) :
    ∃ h' behind, Renamed h (host.take (hostSize host)) h' ∧ behind.length = hostSize host - h.name.length ∧
      changeTlsSni host h.buffer = .ok ⟨h'.buffer, behind⟩ := by
  obtain ⟨hname, hfree⟩ := h.antohs_buffer
  have hold : ((h.name.length + 5 : Nat) - 5 : Int) % 2 ^ 16 = h.name.length := by
    have hfits := h.fits
    omega
  have hsize : (host.length : Int) % 2 ^ 16 = (hostSize host : Nat) := by
    rw [hostSize]
    omega
  have htaken : (host.take (hostSize host)).length = hostSize host := by
    rw [List.length_take, hostSize]
    omega
  have hlength := h.length_buffer
  have hfirst : (h.first ++ encodeAll h.before).length = h.nameOffset := by
    rw [List.length_append, Hello.length_first, Hello.nameOffset]
  have hoffset : h.paddingOffset = h.nameOffset + 9 + h.name.length + (encodeAll h.middle).length := rfl
  have hnonzero : h.nameOffset ≠ 0 ∧ h.paddingOffset ≠ 0 := by
    rw [Hello.paddingOffset, Hello.nameOffset]
    omega
  rw [changeTlsSni, h.chelloExtOffset_name, h.chelloExtOffset_padding, if_neg hpadding, hname, hfree, hold, hsize]
  simp only [Int.toNat_natCast]
  rw [if_neg (by omega), if_neg (by omega)]
  have hdiff : (h.name.length : Int) + ((hostSize host : Nat) - h.name.length) = hostSize host := by omega
  rw [hdiff, hlength]
  rw [h.buffer_eq_layout, Hello.paddingOffset, shtona_layout _ _ _ _ hfirst]
  obtain ⟨padding, hlengths, hchanged⟩ := @overwrite_layout (h.first ++ encodeAll h.before) (encodeAll h.middle)
    h.padding h.kind h.name (hostSize host + 5) (hostSize host + 3) (hostSize host)
    (h.padding.length - ((hostSize host : Nat) - h.name.length)) h.nameOffset (host.take (hostSize host)) hfirst
    (by omega)
  rw [htaken] at hchanged
  refine ⟨h.rename (host.take (hostSize host)) padding hlengths, _, ⟨rfl, rfl, rfl, rfl, rfl, hlengths⟩, ?_,
    congrArg Except.ok (congrArg (SniChange.mk · _) ?_)⟩
  · rw [List.length_drop, List.length_drop, length_layout, hfirst]
    omega
  have hsame : (h.rename (host.take (hostSize host)) padding hlengths).first = h.first := by
    rw [Hello.first, Hello.first, Hello.length_extensions, Hello.length_extensions]
    simp only [Hello.rename]
    congr 3
    omega
  have hleft : (h.padding.length : Int) - ((hostSize host : Nat) - h.name.length) = padding.length := by omega
  rw [hchanged, Hello.buffer_eq_layout, hsame, hleft]
  simp only [Hello.rename, htaken]

-- Any other name is refused.
theorem changeTlsSni_refused (h : Hello) (host : Bytes)
    (hrefused : h.padding = [] ∨ h.name.length + h.padding.length < hostSize host) :
    changeTlsSni host h.buffer = .error .refused := by
  obtain ⟨hname, hfree⟩ := h.antohs_buffer
  have hold : ((h.name.length + 5 : Nat) - 5 : Int) % 2 ^ 16 = h.name.length := by
    have hfits := h.fits
    omega
  rw [changeTlsSni, h.chelloExtOffset_name, h.chelloExtOffset_padding]
  by_cases hpadding : h.padding = []
  · rw [if_pos hpadding]
    exact if_pos (.inr (.inl rfl))
  · have hlong := hrefused.resolve_left hpadding
    rw [hostSize] at hlong
    rw [if_neg hpadding, hname, hfree, hold]
    exact if_pos (by omega)

-- The name that parse_tls finds is the one of the extension.
theorem parseTls_buffer (h : Hello) : parseTls h.buffer = some (h.nameOffset + 9, h.name.length) ∧
    (h.buffer.drop (h.nameOffset + 9)).take h.name.length = h.name := by
  have hhead := h.length_head
  have hlength := h.length_buffer
  have hfits := h.fits
  have hfirst : (h.first ++ encodeAll h.before).length = h.nameOffset := by
    rw [List.length_append, Hello.length_first, Hello.nameOffset]
  have hchello : isTlsChello h.buffer = true := by
    have htype : antohs h.buffer 0 = antohs h.head 0 := by
      rw [antohs, antohs, h.getD_buffer (by omega), h.getD_buffer (by omega)]
    rw [isTlsChello, htype, h.getD_buffer (by omega), h.chello.1, h.chello.2]
    rw [Hello.paddingOffset, Hello.nameOffset] at hlength
    simp only [decide_eq_true_eq, and_true]
    omega
  have hbuffer := h.buffer_eq_layout
  rw [layout_eq] at hbuffer
  have hname : antohs h.buffer (h.nameOffset + 7) = h.name.length := by
    have hstart : (h.first ++ encodeAll h.before ++ (beBytes 2 0x00 ++ (beBytes 2 (h.name.length + 5) ++
        (beBytes 2 (h.name.length + 3) ++ [h.kind])))).length = h.nameOffset + 7 := by
      rw [List.length_append, hfirst]
      simp only [List.length_append, length_beBytes, List.length_singleton]
    refine antohs_of_eq (h.name ++ (encodeAll h.middle ++
      (beBytes 2 0x15 ++ (beBytes 2 h.padding.length ++ h.padding))))
      ?_ hstart (by omega)
    rw [hbuffer]
    simp only [List.append_assoc, List.cons_append, List.nil_append]
  constructor
  · rw [Hello.paddingOffset] at hlength
    have hnonzero : h.nameOffset ≠ 0 := by
      rw [Hello.nameOffset]
      omega
    rw [parseTls, h.chelloExtOffset_name, hname, hchello]
    apply if_neg
    rw [Bool.true_eq_false, false_or]
    omega
  · have hstart : (h.first ++ encodeAll h.before ++ (beBytes 2 0x00 ++ (beBytes 2 (h.name.length + 5) ++
        (beBytes 2 (h.name.length + 3) ++ (h.kind :: beBytes 2 h.name.length))))).length = h.nameOffset + 9 := by
      rw [List.length_append, hfirst]
      simp only [List.length_append, List.length_cons, length_beBytes]
    rw [hbuffer, ← hstart, List.drop_left, List.take_left]

-- The option for the name of the fake ClientHello, given again and again.
def changeAll (hosts : List Bytes) (change : SniChange) : Except SniError SniChange :=
  hosts.foldlM SniChange.change change

def Hello.room (h : Hello) : Nat := h.name.length + h.padding.length

-- The names that fit in the room, one after the other. The last one may take all of it.
def Fitting (h : Hello) (hosts : List Bytes) : Prop :=
  (hosts = [] ∨ h.padding ≠ []) ∧ (∀ host ∈ hosts.dropLast, hostSize host < h.room) ∧
    ∀ host ∈ hosts, hostSize host ≤ h.room

theorem change_renamed {behind : Bytes} (hpadding : h.padding ≠ []) (hroom : hostSize host ≤ h.room) :
    ∃ h' pushed, Renamed h (host.take (hostSize host)) h' ∧ pushed.length = hostSize host - h.name.length ∧
      SniChange.change ⟨h.buffer, behind⟩ host = .ok ⟨h'.buffer, pushed ++ behind.drop pushed.length⟩ := by
  obtain ⟨h', pushed, hrenamed, hpushed, hchanged⟩ := changeTlsSni_renamed h hpadding hroom
  exact ⟨h', pushed, hrenamed, hpushed, by rw [SniChange.change, hchanged]; rfl⟩

theorem change_refused {behind : Bytes} (hrefused : ¬(h.padding ≠ [] ∧ hostSize host ≤ h.room)) :
    SniChange.change ⟨h.buffer, behind⟩ host = .error .refused := by
  have hchanged : changeTlsSni host h.buffer = .error .refused := by
    refine changeTlsSni_refused h host ?_
    rw [not_and_or, not_not, not_le] at hrefused
    exact hrefused
  rw [SniChange.change, hchanged]
  rfl

theorem Renamed.length_name (hrenamed : Renamed h (host.take (hostSize host)) h') : h'.name.length = hostSize host := by
  rw [hrenamed.name, List.length_take, hostSize]
  omega

theorem Hello.name_eq_of_buffer_eq (hbuffer : h.buffer = h'.buffer) : h.name = h'.name := by
  obtain ⟨hparse, hname⟩ := parseTls_buffer h
  obtain ⟨hparse', hname'⟩ := parseTls_buffer h'
  rw [hbuffer, hparse'] at hparse
  obtain ⟨hoffset, hlength⟩ := Prod.mk.inj (Option.some.inj hparse)
  rw [← hname, ← hname', hbuffer, ← hoffset, ← hlength]

-- A name is carried as it stands, and nothing is written behind the buffer, where it is no longer than the one in its
-- place.
theorem change_intact_iff (h : Hello) (host : Bytes) :
    (∃ h', Renamed h host h' ∧ SniChange.change ⟨h.buffer, []⟩ host = .ok ⟨h'.buffer, []⟩) ↔
      h.padding ≠ [] ∧ host.length ≤ h.name.length := by
  constructor
  · rintro ⟨h', hrenamed, hchange⟩
    by_cases hsome : h.padding ≠ [] ∧ hostSize host ≤ h.room
    · obtain ⟨other, pushed, hother, hpushed, hchanged⟩ := @change_renamed h host [] hsome.1 hsome.2
      obtain ⟨hbuffer, hbehind⟩ := SniChange.mk.inj (Except.ok.inj (hchanged.symm.trans hchange))
      have hname : host.length = hostSize host := by
        rw [← hother.length_name, Hello.name_eq_of_buffer_eq hbuffer, hrenamed.name]
      rw [(List.append_eq_nil_iff.mp hbehind).1, List.length_nil] at hpushed
      exact ⟨hsome.1, by omega⟩
    · rw [change_refused hsome] at hchange
      cases hchange
  · intro hshort
    have hfits := h.fits
    have hsize : hostSize host = host.length := Nat.mod_eq_of_lt (by omega)
    obtain ⟨h', pushed, hrenamed, hpushed, hchanged⟩ := @change_renamed h host [] hshort.1 (by rw [Hello.room]; omega)
    rw [hsize, List.take_length] at hrenamed
    rw [hsize, Nat.sub_eq_zero_of_le hshort.2, List.length_eq_zero_iff] at hpushed
    rw [hpushed] at hchanged
    exact ⟨h', hrenamed, hchanged⟩

theorem fitting_cons {hosts : List Bytes} (hrenamed : Renamed h (host.take (hostSize host)) h') :
    Fitting h (host :: hosts) ↔ (h.padding ≠ [] ∧ hostSize host ≤ h.room) ∧ Fitting h' hosts := by
  have hroom : h'.room = h.room := hrenamed.room
  have hleft : h'.padding ≠ [] ↔ hostSize host < h.room := by
    rw [← List.length_pos_iff_ne_nil, ← hroom, Hello.room, hrenamed.length_name]
    omega
  rw [Fitting, Fitting, hleft, hroom]
  cases hosts with
  | nil => simp
  | cons next hosts =>
      simp only [List.dropLast_cons_cons, List.forall_mem_cons, List.cons_ne_nil, false_or]
      exact ⟨fun ⟨hp, ⟨hlt, hd⟩, hle, hall⟩ => ⟨⟨hp, hle⟩, hlt, hd, hall⟩,
        fun ⟨⟨hp, hle⟩, hlt, hd, hall⟩ => ⟨hp, ⟨hlt, hd⟩, hle, hall⟩⟩

-- The lengths of the names that stand in the buffer, one after the other.
def sizes (h : Hello) (hosts : List Bytes) : List Nat := h.name.length :: hosts.map hostSize

-- The names are changed one after the other, or one is refused. Nothing is written behind the buffer as long as no name
-- is longer than the one before it.
theorem changeAll_spec (h : Hello) (hosts : List Bytes) (behind : Bytes) :
    (¬Fitting h hosts ∧ changeAll hosts ⟨h.buffer, behind⟩ = .error .refused) ∨
      (Fitting h hosts ∧ ∃ h' after, changeAll hosts ⟨h.buffer, behind⟩ = .ok ⟨h'.buffer, after⟩ ∧
        Renamed h (hosts.getLast?.elim h.name fun host => host.take (hostSize host)) h' ∧
        (after = [] ↔ behind = [] ∧ (sizes h hosts).IsChain (· ≥ ·))) := by
  induction hosts generalizing h behind with
  | nil =>
      refine .inr ⟨by simp [Fitting], h, behind, rfl, ⟨rfl, rfl, rfl, rfl, rfl, rfl⟩, ?_⟩
      simp [sizes]
  | cons host hosts ih =>
      rw [changeAll, List.foldlM_cons]
      by_cases hsome : h.padding ≠ [] ∧ hostSize host ≤ h.room
      · obtain ⟨middle, pushed, hmiddle, hpushed, hchanged⟩ := @change_renamed h host behind hsome.1 hsome.2
        have hfitting := @fitting_cons h middle host hosts hmiddle
        rw [hchanged, hfitting, and_iff_right hsome]
        obtain ⟨hnot, hrefused⟩ | ⟨hfits, h', after, hrun, hlast, hbehind⟩ :=
          ih middle (pushed ++ behind.drop pushed.length)
        · exact .inl ⟨hnot, hrefused⟩
        refine .inr ⟨hfits, h', after, hrun, ⟨hlast.head.trans hmiddle.head, hlast.before.trans hmiddle.before,
          hlast.kind.trans hmiddle.kind, ?_, hlast.middle.trans hmiddle.middle, hlast.room.trans hmiddle.room⟩, ?_⟩
        · rw [hlast.name, List.getLast?_cons]
          cases hosts.getLast? with
          | none => exact hmiddle.name
          | some last => rfl
        · have hpush : pushed ++ behind.drop pushed.length = [] ↔ behind = [] ∧ hostSize host ≤ h.name.length := by
            have hnil : pushed = [] ↔ hostSize host ≤ h.name.length := by
              rw [← List.length_eq_zero_iff, hpushed, Nat.sub_eq_zero_iff_le]
            rw [List.append_eq_nil_iff, ← hnil, and_comm]
            refine and_congr_left fun hnone => ?_
            rw [hnone, List.length_nil, List.drop_zero]
          rw [hbehind, hpush, sizes, sizes, hmiddle.length_name, List.map_cons, List.isChain_cons_cons, and_assoc]
      · refine .inl ⟨fun hfits => hsome ⟨hfits.1.resolve_left (List.cons_ne_nil _ _), ?_⟩, ?_⟩
        · exact hfits.2.2 host List.mem_cons_self
        · rw [change_refused hsome]
          rfl

end ToInet.Byedpi.Packets
