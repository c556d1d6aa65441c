import ToInet.Byedpi.ByeDpiRouter.ExtractDomain.Prefix
import ToInet.Byedpi.ByeDpiRouter.HandleClient
import ToInet.Byedpi.ByeDpiRouter.Order

namespace ToInet.Byedpi.ByeDpiRouter

open ToInet.Lib ToInet.Lib.Socks5

variable {texts : Texts} {input upInput : Input} {more : Bytes}

theorem readGreeting_greeting {methods : Bytes} (hmethods : methods.length < 128)
    (h : input.bytes = greeting methods ++ more) :
    ∃ rest, readGreeting input = some rest ∧ rest.bytes = more := by
  obtain ⟨afterHeader, hheader, hafter⟩ := Input.fill_append
    (show input.bytes = [5, toByte methods.length] ++ (methods ++ more) from h)
  obtain ⟨rest, hfill, hrest⟩ := Input.fill_append hafter
  have hint : (toByte methods.length).toInt8.toInt = methods.length := by
    rw [toInt8_toByte _ (by omega), if_pos hmethods]
  refine ⟨rest, ?_, hrest⟩
  simp only [List.length_cons, List.length_nil] at hheader
  simp only [readGreeting, hheader, Option.bind_eq_bind, Option.bind_some, List.getD_cons_zero, List.getD_cons_succ,
    hint]
  have hnonneg : ¬(methods.length : Int) < 0 := by omega
  simp [hnonneg, hfill]

-- The domain that a client asks for.
def askedDomain (texts : Texts) : Address → String
  | .domain name _ => String.ofList (texts.charset.decode name)
  | _ => ""

variable (texts) in
-- An address is read as it is passed on, whatever its type is.
theorem readAddress_bytes (address : Address) (h : input.bytes = address.bytes ++ more) :
    ∃ rest, readAddress texts address.atyp input = some (address.bytes, askedDomain texts address, rest) ∧
      rest.bytes = more := by
  cases address with
  | ipv4 bytes hlength =>
      obtain ⟨rest, hfill, hrest⟩ := Input.fill_append (show input.bytes = bytes ++ more from h)
      rw [hlength] at hfill
      exact ⟨rest, by simp [readAddress, Address.atyp, hfill, Address.bytes, askedDomain], hrest⟩
  | domain name hlength =>
      obtain ⟨afterLength, hread, hafter⟩ := Input.readByte_cons
        (show input.bytes = toByte name.length :: (name ++ more) from h)
      obtain ⟨rest, hfill, hrest⟩ := Input.fill_append hafter
      have hlen : (toByte name.length).toNat = name.length := by
        rw [toNat_toByte_nat]
        omega
      rw [hlen] at hread
      exact ⟨rest, by simp [readAddress, Address.atyp, hread, hfill, Address.bytes, askedDomain], hrest⟩
  | ipv6 bytes hlength =>
      obtain ⟨rest, hfill, hrest⟩ := Input.fill_append (show input.bytes = bytes ++ more from h)
      rw [hlength] at hfill
      exact ⟨rest, by simp [readAddress, Address.atyp, hfill, Address.bytes, askedDomain], hrest⟩

def requestOf (texts : Texts) (target : Target) : Request :=
  { atyp := target.address.atyp, dstAddrBytes := target.address.bytes, portBytes := target.portBytes
    targetDomain := askedDomain texts target.address }

variable (texts) in
theorem readRequest_connect (target : Target) (h : input.bytes = connect target ++ more) :
    ∃ rest, readRequest texts input = some (requestOf texts target, rest) ∧ rest.bytes = more := by
  have hrequest : input.bytes = [5, 1, 0, target.address.atyp] ++
      (target.address.bytes ++ (target.portBytes ++ more)) := by
    rw [h]
    simp [connect, Target.encode]
  obtain ⟨afterHeader, hheader, hafter⟩ := Input.fill_append hrequest
  obtain ⟨afterAddress, haddress, hport⟩ := readAddress_bytes texts target.address hafter
  obtain ⟨rest, hfill, hrest⟩ := Input.fill_append hport
  rw [target.hport] at hfill
  simp only [List.length_cons, List.length_nil] at hheader
  exact ⟨rest, by simp [readRequest, hheader, haddress, hfill, requestOf], hrest⟩

-- The rest of an answer is skipped to its end, whatever the type of its address is.
theorem skipBound_connectReply (rep : UInt8) (bound : Target) (h : upInput.bytes = connectReply rep bound ++ more) :
    ∃ rest, skipBound upInput = some rest ∧ rest.bytes = more := by
  obtain ⟨address, portBytes, hport⟩ := bound
  have hreply : upInput.bytes = [5, rep, 0, address.atyp] ++ (address.bytes ++ (portBytes ++ more)) := by
    rw [h]
    simp [connectReply, Target.encode]
  obtain ⟨afterHeader, hheader, hafter⟩ := Input.fill_append hreply
  simp only [List.length_cons, List.length_nil] at hheader
  cases address with
  | ipv4 bytes hlength =>
      obtain ⟨rest, hfill, hrest⟩ := Input.fill_append
        (show afterHeader.bytes = (bytes ++ portBytes) ++ more by rw [List.append_assoc]; exact hafter)
      rw [List.length_append, hlength, hport] at hfill
      exact ⟨rest, by simp [skipBound, hheader, Address.atyp, hfill], hrest⟩
  | domain name hlength =>
      obtain ⟨afterLength, hread, hname⟩ := Input.readByte_cons
        (show afterHeader.bytes = toByte name.length :: (name ++ (portBytes ++ more)) from hafter)
      obtain ⟨rest, hfill, hrest⟩ := Input.fill_append
        (show afterLength.bytes = (name ++ portBytes) ++ more by rw [List.append_assoc]; exact hname)
      have hlen : (toByte name.length).toNat = name.length := by
        rw [toNat_toByte_nat]
        omega
      rw [hlen] at hread
      rw [List.length_append, hport] at hfill
      exact ⟨rest, by simp [skipBound, hheader, Address.atyp, hread, hfill], hrest⟩
  | ipv6 bytes hlength =>
      obtain ⟨rest, hfill, hrest⟩ := Input.fill_append
        (show afterHeader.bytes = (bytes ++ portBytes) ++ more by rw [List.append_assoc]; exact hafter)
      rw [List.length_append, hlength, hport] at hfill
      exact ⟨rest, by simp [skipBound, hheader, Address.atyp, hfill], hrest⟩

variable (texts) in
theorem openUpstream_replies (target : Target) (method rep : UInt8) (bound : Target)
    (h : upInput.bytes = methodReply method ++ (connectReply rep bound ++ more)) :
    ∃ rest, openUpstream (requestOf texts target) upInput = (greeting [0] ++ connect target, some rest) ∧
      rest.bytes = more := by
  obtain ⟨afterMethod, hfill, hafter⟩ := Input.fill_append h
  obtain ⟨rest, hskip, hrest⟩ := skipBound_connectReply rep bound hafter
  simp only [methodReply, List.length_cons, List.length_nil] at hfill
  refine ⟨rest, ?_, hrest⟩
  rw [openUpstream, hfill]
  simp only [hskip, requestOf, connect, Target.encode, List.append_assoc]
  rfl

theorem forward_eq (input : Input) : forward input = input.bytes := Input.chunks_flatten (by decide) input

-- Between the two handshakes everything is passed on unchanged, wherever the streams are cut.
theorem handleClient_relays (texts : Texts) (router : ByeDpiRouter) (input upInput : Input)
    {methods payload rest : Bytes} {target bound : Target} {method rep : UInt8} (hmethods : methods.length ≤ 127)
    (hpayload : payload ≠ []) (hinput : input.bytes = greeting methods ++ (connect target ++ payload))
    (hupInput : upInput.bytes = methodReply method ++ (connectReply rep bound ++ rest)) :
    ∃ firstChunk later, payload = firstChunk ++ later ∧ firstChunk ≠ [] ∧
      handleClient texts router false true input upInput =
        { output := methodReply 0 ++ reply ++ rest
          upstream := some (routedPort texts router (askedDomain texts target.address) firstChunk,
            greeting [0] ++ connect target ++ payload) } := by
  obtain ⟨afterGreeting, hgreeting, hafter⟩ := readGreeting_greeting (by omega) hinput
  obtain ⟨afterRequest, hrequest, hbytes⟩ := readRequest_connect texts target hafter
  have hread : afterRequest.read chunkSize ≠ none := by
    rw [Ne, Input.read_eq_none, hbytes]
    exact hpayload
  obtain ⟨⟨firstChunk, later⟩, hchunk⟩ := Option.ne_none_iff_exists'.mp hread
  obtain ⟨hne, _, hsplit⟩ := Input.read_eq_some (by decide) hchunk
  rw [hbytes] at hsplit
  obtain ⟨upRest, hopen, hupRest⟩ := openUpstream_replies texts target method rep bound hupInput
  refine ⟨firstChunk, later.bytes, hsplit, hne, ?_⟩
  simp only [handleClient, hgreeting, hrequest, hchunk, hopen, forward_eq, hupRest, hsplit, Bool.false_eq_true,
    if_false, if_true, List.append_assoc]
  rfl

def asking : Target := ⟨.domain (toByteArray "a.org") (by decide), [1, 187], length_https⟩

def answering : Target := ⟨.ipv4 [0, 0, 0, 0] length_noHost, [0, 0], length_noPort⟩

def asked : Input := ⟨[[5], [1, 0, 5, 1], [0, 3, 5, 97, 46, 111], [114, 103, 1, 187, 22, 3], [1]]⟩

def answered : Input := ⟨[[5, 0, 5, 0], [0, 1, 0, 0, 0, 0, 0], [0, 21, 3], [1]]⟩

-- A client for a.org, whose stream is cut within its fields, as is the answer of the instance.
theorem handleClient_relays_asked :
    ∃ firstChunk later, [22, 3, 1] = firstChunk ++ later ∧ firstChunk ≠ [] ∧
      handleClient sampleTexts (start Char.toLower overlapping) false true asked answered =
        { output := methodReply 0 ++ reply ++ [21, 3, 1]
          upstream := some (routedPort sampleTexts (start Char.toLower overlapping)
            (askedDomain sampleTexts asking.address) firstChunk, greeting [0] ++ connect asking ++ [22, 3, 1]) } :=
  handleClient_relays sampleTexts (start Char.toLower overlapping) asked answered
    (show ([0] : Bytes).length ≤ 127 by decide)
    (by decide) (by decide) (show answered.bytes = methodReply 0 ++ (connectReply 0 answering ++ [21, 3, 1]) by decide)

end ToInet.Byedpi.ByeDpiRouter
